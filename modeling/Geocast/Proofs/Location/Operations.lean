import Geocast.Proofs.Location.Table

/-!
# Runs of a location table

A run of a table is a row of operations, each with its answer. What an operation makes of the entry
of one station depends on that entry and on the clock only, and `next` says what it is
(`get?_perform`). What holds of every entry a table can come to hold is then shown by the cases of
`next`.
-/

namespace Geocast

namespace LocationTable

/-- What a table can be asked to do. -/
inductive Operation
  | update (v : LongPosition) (neighbor : Bool) (now : Timestamp)
  | insertPending (a : Address) (now : Timestamp)
  | cancelPending (a : Address)
  | checkSequence (a : Address) (n : SequenceNumber)
  | recordFrame (a : Address) (length : Nat) (now : Timestamp)
  | remove (a : Address)
  | purgeStale (now : Timestamp)
  | find (a : Address) (now : Timestamp)
  | findPosition (a : Address) (now : Timestamp)
  | neighbors (now : Timestamp)
  | entries (now : Timestamp)

/-- What a table answers to an operation. -/
inductive Answer
  | done
  | updated (u : TableUpdate)
  | inserted (fresh : Bool)
  | checked (check : SequenceCheck)
  | entry (e? : Option Entry)
  | entries (es : List Entry)
  | purged (count : Nat)

/-- Does what is asked. -/
def perform (t : LocationTable) : Operation → Answer × LocationTable
  | .update v neighbor now => let (u, t) := t.update v neighbor now; (.updated u, t)
  | .insertPending a now => let (fresh, t) := t.insertPending a now; (.inserted fresh, t)
  | .cancelPending a => (.done, t.cancelPending a)
  | .checkSequence a n => let (check, t) := t.checkSequence a n; (.checked check, t)
  | .recordFrame a length now => (.done, t.recordFrame a length now)
  | .remove a => let (e?, t) := t.remove a; (.entry e?, t)
  | .purgeStale now => let (count, t) := t.purgeStale now; (.purged count, t)
  | .find a now => (.entry (t.find? a now), t)
  | .findPosition a now => (.entry (t.findPosition? a now), t)
  | .neighbors now => (.entries (t.neighbors now), t)
  | .entries now => (.entries (t.entries now), t)

/-- Does a row of operations, one after the other. -/
def performAll (t : LocationTable) : List Operation → List Answer × LocationTable
  | [] => ([], t)
  | op :: ops =>
    let (answer, t) := t.perform op
    let (answers, t) := t.performAll ops
    (answer :: answers, t)

/-- What a row of operations makes of a table. -/
def after (t : LocationTable) (ops : List Operation) : LocationTable := (t.performAll ops).2

theorem after_cons (t : LocationTable) (op : Operation) (ops : List Operation) :
    t.after (op :: ops) = (t.perform op).2.after ops := rfl

/-- The entry of a station after an operation. -/
def next (t : LocationTable) (a : Address) : Operation → Option Entry
  | .update v neighbor now =>
    if v.address = a ∧ a ≠ t.own then
      some <| (t.find? a now).elim (.ofPosition v neighbor) (·.refreshed v neighbor)
    else t.stations.get? a
  | .insertPending b now =>
    if b = a ∧ a ≠ t.own ∧ t.find? a now = none then some (.placeholder a now)
    else t.stations.get? a
  | .cancelPending b =>
    if b = a then (t.stations.get? a).filter (!·.pending) else t.stations.get? a
  | .checkSequence b n =>
    if b = a then (t.stations.get? a).map (·.noted n) else t.stations.get? a
  | .recordFrame b length now =>
    if b = a then
      (t.stations.get? a).map fun e => if t.isLive e now then e.recordFrame length now else e
    else t.stations.get? a
  | .remove b => if b = a then none else t.stations.get? a
  | .purgeStale now => t.find? a now
  | _ => t.stations.get? a

/-- What an operation makes of the entry of a station. -/
theorem get?_perform (t : LocationTable) (a : Address) (op : Operation) :
    (t.perform op).2.stations.get? a = t.next a op := by
  cases op with
  | update v neighbor now => exact t.get?_update a v neighbor now
  | insertPending b now => exact t.get?_insertPending a b now
  | cancelPending b => exact t.get?_cancelPending a b
  | checkSequence b n => exact t.get?_checkSequence a b n
  | recordFrame b length now => exact t.get?_recordFrame a b length now
  | remove b => exact t.get?_remove a b
  | purgeStale now => exact t.get?_purgeStale a now
  | find _ _ => rfl
  | findPosition _ _ => rfl
  | neighbors _ => rfl
  | entries _ => rfl

theorem perform_own (t : LocationTable) (op : Operation) : (t.perform op).2.own = t.own := by
  cases op with
  | update v neighbor now => exact update_own t v neighbor now
  | insertPending a now => exact insertPending_own t a now
  | cancelPending a => exact cancelPending_own t a
  | checkSequence a n => exact checkSequence_own t a n
  | recordFrame a length now => exact recordFrame_own t a length now
  | _ => rfl

theorem perform_lifetime (t : LocationTable) (op : Operation) :
    (t.perform op).2.lifetime = t.lifetime := by
  cases op with
  | update v neighbor now => exact update_lifetime t v neighbor now
  | insertPending a now => exact insertPending_lifetime t a now
  | cancelPending a => exact cancelPending_lifetime t a
  | checkSequence a n => exact checkSequence_lifetime t a n
  | recordFrame a length now => exact recordFrame_lifetime t a length now
  | _ => rfl

/-! ## What holds of every entry -/

/-- What holds of an entry of another station when it is made, and still does after each of the
ways in which an entry changes. -/
structure Persists (own : Address) (P : Address → Entry → Prop) : Prop where
  made : ∀ v neighbor, v.address ≠ own → P v.address (.ofPosition v neighbor)
  placeholder : ∀ a now, a ≠ own → P a (.placeholder a now)
  refreshed : ∀ a e v neighbor, P a e → v.address = a → P a (e.refreshed v neighbor)
  noted : ∀ a e n, P a e → P a (e.noted n)
  recordFrame : ∀ a e length now, P a e → P a (e.recordFrame length now)

/-- By the cases of `next`: an entry is there already and changes in one of three ways, or it is
made anew in one of two. -/
theorem Persists.perform {t : LocationTable} {P : Address → Entry → Prop}
    (hpersists : Persists t.own P) (h : ∀ a e, t.stations.get? a = some e → P a e)
    (op : Operation) (a : Address) (e : Entry)
    (he : (t.perform op).2.stations.get? a = some e) : P a e := by
  rw [get?_perform] at he
  cases op with
  | update v neighbor now =>
    dsimp only [next] at he
    split at he
    · next hupdate =>
      obtain ⟨rfl, hother⟩ := hupdate
      obtain rfl := Option.some.inj he
      cases hfind : t.find? v.address now with
      -- an entry that is not live is made anew, whatever it was
      | none => exact hpersists.made v neighbor hother
      | some e₀ =>
        have hget := ((find?_eq_some_iff t _ _ _).mp hfind).1
        exact hpersists.refreshed _ e₀ v neighbor (h _ e₀ hget) rfl
    · exact h a e he
  | insertPending b now =>
    dsimp only [next] at he
    split at he
    · next hnew =>
      obtain rfl := Option.some.inj he
      exact hpersists.placeholder a now hnew.2.1
    · exact h a e he
  | cancelPending b =>
    dsimp only [next] at he
    split at he
    · exact h a e (Option.filter_eq_some_iff.mp he).1
    · exact h a e he
  | checkSequence b n =>
    dsimp only [next] at he
    split at he
    · obtain ⟨e₀, hget, rfl⟩ := Option.map_eq_some_iff.mp he
      exact hpersists.noted a e₀ n (h a e₀ hget)
    · exact h a e he
  | recordFrame b length now =>
    dsimp only [next] at he
    split at he
    · obtain ⟨e₀, hget, rfl⟩ := Option.map_eq_some_iff.mp he
      split
      · exact hpersists.recordFrame a e₀ length now (h a e₀ hget)
      · exact h a e₀ hget
    · exact h a e he
  | remove b =>
    dsimp only [next] at he
    split at he
    · exact absurd he (by simp)
    · exact h a e he
  | purgeStale now => exact h a e ((find?_eq_some_iff t a now e).mp he).1
  | find _ _ => exact h a e he
  | findPosition _ _ => exact h a e he
  | neighbors _ => exact h a e he
  | entries _ => exact h a e he

end LocationTable

end Geocast
