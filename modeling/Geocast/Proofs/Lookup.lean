import Geocast.Lookup
import Mathlib.Data.List.Nodup

/-!
# Lookups and their loops

A loop knows its lookup by its key only. `Tended` says that this is enough: no two lookups have one
key, every lookup in flight has exactly one loop, and every other loop is that of a lookup that has
ended. It is kept by whatever happens to lookups: one begins together with its loop, more
transmissions wait for it, it asks once more, it ends, and a loop ends that finds its lookup ended.
-/

namespace Geocast.LookupService

variable {s t : LookupService} {key : LookupKey} {a : Address} {l : Lookup}

/-! ## The lookup of a key -/

/-- A lookup in flight is found under its station and number. -/
theorem flying?_eq_some_iff :
    s.flying? key = some l ↔ s.inFlight.get? key.target = some l ∧ l.number = key.number := by
  unfold flying?
  rw [Option.filter_eq_some_iff, decide_eq_true_eq]

/-- A lookup is in flight if the one in flight for its station has its number. -/
theorem isSome_flying?_iff :
    (s.flying? key).isSome ↔ (s.inFlight.get? key.target).map Lookup.number = some key.number := by
  rw [Option.isSome_iff_exists, Option.map_eq_some_iff]
  exact exists_congr fun l => flying?_eq_some_iff

/-- Which lookup of a station is in flight tells whether that of a key for the station is. -/
theorem flying?_congr (h : t.inFlight.get? key.target = s.inFlight.get? key.target) :
    t.flying? key = s.flying? key := by
  unfold flying?
  rw [h]

/-- A key is a station and a number. -/
theorem key_eq_iff {k : LookupKey} : l.key = k ↔ l.target = k.target ∧ l.number = k.number := by
  unfold Lookup.key
  cases k
  simp only [LookupKey.mk.injEq]

/-- A lookup that takes the place of itself or comes to be in flight is found by its key, and every
other one as before. -/
theorem find?_insert {l' : Lookup} (htarget : l'.target = a)
    (hnumber : ∀ l, s.inFlight.get? a = some l → l.number = l'.number) (k : LookupKey) :
    ({ s with inFlight := s.inFlight.insert a l' } : LookupService).find? k =
      if k = l'.key then some l' else s.find? k := by
  unfold find? flying?
  dsimp only
  split
  · next hk =>
    have hself : decide (l'.number = l'.key.number) = true := decide_eq_true rfl
    rw [hk, show l'.key.target = a from htarget, AddressMap.get?_insert_self, Option.filter_some,
      if_pos hself]
    rfl
  · next hk =>
    congr 1
    by_cases hb : k.target = a
    · -- another lookup for the same station is not in flight, neither before nor after
      have hother : l'.number ≠ k.number := fun heq =>
        hk (key_eq_iff.mpr ⟨htarget.trans hb.symm, heq⟩).symm
      rw [hb, AddressMap.get?_insert_self, Option.filter_some_neg (by simpa using hother),
        eq_comm, Option.filter_eq_none_iff]
      intro l hl
      simpa [hnumber l hl] using hother
    · rw [AddressMap.get?_insert_of_ne _ _ hb]

/-- A lookup that ends is still found by its key. -/
theorem find?_finished (hl : s.inFlight.get? a = some l) (htarget : l.target = a)
    (outcome : LookupOutcome) (k : LookupKey) :
    ({ s with inFlight := s.inFlight.erase a, ended := l.finished outcome :: s.ended } :
      LookupService).find? k = if k = l.key then some (l.finished outcome) else s.find? k := by
  have hkey : (l.finished outcome).key = l.key := rfl
  unfold find? flying?
  dsimp only
  split
  · next hk =>
    rw [hk, show l.key.target = a from htarget, AddressMap.get?_erase_self, List.find?_cons_of_pos]
    · rfl
    · simp [hkey]
  · next hk =>
    rw [List.find?_cons_of_neg (by simpa [hkey] using Ne.symm hk)]
    congr 1
    by_cases hb : k.target = a
    · have hother : l.number ≠ k.number := fun heq =>
        hk (key_eq_iff.mpr ⟨htarget.trans hb.symm, heq⟩).symm
      rw [hb, AddressMap.get?_erase_self, hl, Option.filter_some_neg (by simpa using hother)]
      rfl
    · rw [AddressMap.get?_erase_of_ne _ hb]

/-- A change that leaves keys alone changes the lookup of its key and no other. -/
theorem find?_modify (key : LookupKey) {f : Lookup → Lookup} (hf : ∀ l, (f l).key = l.key)
    (hnamed : ∀ a l, s.inFlight.get? a = some l → l.target = a) (k : LookupKey) :
    (s.modify key f).find? k = if k = key then (s.find? key).map f else s.find? k := by
  unfold modify
  split
  · next l hl =>
    obtain ⟨hget, hnumber⟩ := flying?_eq_some_iff.mp hl
    have hkey : l.key = key := by
      obtain ⟨b, n⟩ := key
      unfold Lookup.key
      rw [hnamed _ _ hget, hnumber]
    have htarget : (f l).target = key.target := by
      rw [← hkey, ← hf l]
      rfl
    rw [find?_insert htarget, hf, hkey]
    · split
      · unfold find?
        rw [hl]
        rfl
      · rfl
    · intro l' hl'
      obtain rfl := Option.some.inj (hl'.symm.trans hget)
      exact congrArg LookupKey.number (hf l').symm
  · next hnone =>
    have hended : (s.ended.map fun l => if l.key = key then f l else l).find? (·.key = k) =
        if k = key then (s.ended.find? (·.key = key)).map f else s.ended.find? (·.key = k) := by
      -- the list of ended lookups is searched in order, and no key in it changes
      induction s.ended with
      | nil => simp
      | cons l rest ih =>
        rw [List.map_cons, List.find?_cons, List.find?_cons, List.find?_cons, ih]
        by_cases hl : l.key = key
        · rw [if_pos hl, hf, hl]
          by_cases hk : k = key
          · simp [hk]
          · simp [hk, Ne.symm hk]
        · rw [if_neg hl]
          by_cases hk : k = key
          · simp [hk, hl]
          · simp [hk]
    unfold find?
    show (s.flying? k).or _ = _
    rw [hended]
    split
    · next heq =>
      rw [heq, hnone]
      rfl
    · rfl

/-- A change reaches the lookup of its key if that is in flight, and no other in flight. -/
theorem modify_get? (s : LookupService) (key : LookupKey) (f : Lookup → Lookup) (a : Address) :
    (s.modify key f).inFlight.get? a = if a = key.target then
      (s.inFlight.get? a).map fun l => if l.number = key.number then f l else l
    else s.inFlight.get? a := by
  unfold modify
  split
  · next l hl =>
    obtain ⟨hget, hnumber⟩ := flying?_eq_some_iff.mp hl
    show (s.inFlight.insert key.target (f l)).get? a = _
    rw [AddressMap.get?_insert]
    split
    · next ha => rw [ha, hget, Option.map_some, if_pos hnumber]
    · rfl
  · next hnone =>
    show s.inFlight.get? a = _
    split
    · next ha =>
      cases hl : s.inFlight.get? a with
      | none => rfl
      | some l =>
        have hother : l.number ≠ key.number := fun hnumber =>
          nomatch hnone.symm.trans (flying?_eq_some_iff.mpr ⟨ha ▸ hl, hnumber⟩)
        rw [Option.map_some, if_neg hother]
    · rfl

/-- A loop that finds its lookup ended takes the notice of that, and ends. -/
theorem endLoop_takeNotice (h : s.flying? key = none) :
    (s.takeNotice key).endLoop key = { s with
      ended := s.ended.map fun l => if l.key = key then { l with notice := false } else l
      loops := s.loops.filter (·.key ≠ key) } := by
  unfold takeNotice modify
  rw [h]
  rfl

/-- A lookup in flight is the one that its key stands for. -/
theorem find?_of_flying (hl : s.flying? key = some l) : s.find? key = some l := by
  unfold find?
  rw [hl]
  rfl

/-- The requests of a lookup in flight are on record with it. -/
theorem requestsSent_of_flying (hl : s.flying? key = some l) : s.requestsSent key = l.requests := by
  unfold requestsSent
  rw [find?_of_flying hl]
  rfl

/-- A loop goes on when its time has come, or when its lookup has told it to. -/
theorem mem_woken_iff (now : Nat) :
    key ∈ s.woken now ↔ ∃ due, ⟨key, due⟩ ∈ s.loops ∧ s.wakes now ⟨key, due⟩ = true := by
  unfold woken
  rw [List.mem_map]
  constructor
  · rintro ⟨⟨_, due⟩, hloop, rfl⟩
    exact ⟨due, List.mem_filter.mp hloop⟩
  · rintro ⟨due, hloop⟩
    exact ⟨_, List.mem_filter.mpr hloop, rfl⟩

/-- When a loop goes to sleep or ends, the others sleep on. -/
theorem mem_sleep_iff_of_ne {k : LookupKey} (h : k ≠ key) (due d : Nat) :
    ⟨k, d⟩ ∈ (s.sleep key due).loops ↔ ⟨k, d⟩ ∈ s.loops := by
  unfold sleep
  rw [List.mem_map]
  constructor
  · rintro ⟨loop, hloop, heq⟩
    split at heq
    · next hkey => exact absurd ((congrArg RetryLoop.key heq).symm.trans hkey) h
    · exact heq ▸ hloop
  · exact fun hloop => ⟨_, hloop, if_neg h⟩

/-- A loop that goes to sleep has its new time. -/
theorem mem_sleep {due d : Nat} (h : ⟨key, d⟩ ∈ s.loops) :
    ⟨key, due⟩ ∈ (s.sleep key due).loops :=
  List.mem_map.mpr ⟨_, h, if_pos rfl⟩

/-- The end of a loop leaves the others. -/
theorem mem_endLoop_iff_of_ne {k : LookupKey} (h : k ≠ key) (d : Nat) :
    ⟨k, d⟩ ∈ (s.endLoop key).loops ↔ ⟨k, d⟩ ∈ s.loops := by
  unfold endLoop
  rw [List.mem_filter]
  exact and_iff_left (decide_eq_true h)

/-! ## Lookups and loops of another station -/

/-- A change that reaches only what is filtered out is not seen. -/
theorem filter_map_of_hidden {β : Type} {p : β → Bool} {f : β → β}
    (h : ∀ x, f x = x ∨ p x = false ∧ p (f x) = false) (xs : List β) :
    (xs.map f).filter p = xs.filter p := by
  induction xs with
  | nil => rfl
  | cons x rest ih =>
    rw [List.map_cons, List.filter_cons, List.filter_cons, ih]
    rcases h x with heq | ⟨hbefore, hafter⟩
    · rw [heq]
    · rw [hbefore, hafter]
      rfl

/-- A loop that goes to sleep changes no loop of another station. -/
theorem filter_sleep (h : a ≠ key.target) (due : Nat) :
    (s.sleep key due).loops.filter (·.key.target = a) = s.loops.filter (·.key.target = a) := by
  refine filter_map_of_hidden (fun loop => ?_) s.loops
  by_cases hloop : loop.key = key
  · have hhidden : ¬loop.key.target = a := hloop ▸ Ne.symm h
    rw [if_pos hloop]
    exact .inr ⟨decide_eq_false hhidden, decide_eq_false hhidden⟩
  · exact .inl (if_neg hloop)

/-- Nor does one that ends. -/
theorem filter_endLoop (h : a ≠ key.target) :
    (s.endLoop key).loops.filter (·.key.target = a) = s.loops.filter (·.key.target = a) := by
  unfold endLoop
  rw [List.filter_filter]
  refine List.filter_congr fun loop _ => ?_
  by_cases hloop : loop.key = key
  · simp [hloop, Ne.symm h]
  · simp [hloop]

/-- What a loop has noticed concerns no lookup of another station. -/
theorem filter_takeNotice (h : a ≠ key.target) :
    (s.takeNotice key).ended.filter (·.target = a) = s.ended.filter (·.target = a) := by
  unfold takeNotice modify
  split
  · rfl
  · refine filter_map_of_hidden (fun l => ?_) s.ended
    by_cases hl : l.key = key
    · have hhidden : ¬l.target = a := (key_eq_iff.mp hl).1 ▸ Ne.symm h
      rw [if_pos hl]
      exact .inr ⟨decide_eq_false hhidden, decide_eq_false hhidden⟩
    · exact .inl (if_neg hl)

/-! ## Lookups and loops belong together -/

/-- What ties lookups and loops together. -/
structure Tended (s : LookupService) : Prop where
  /-- The lookups in flight stand under the stations that they ask for. -/
  named : ∀ a l, s.inFlight.get? a = some l → l.target = a
  going : ∀ a l, s.inFlight.get? a = some l → l.outcome = none ∧ l.notice = false
  closed : ∀ l ∈ s.ended, l.isComplete = true
  counted : (∀ a l, s.inFlight.get? a = some l → l.number < s.started) ∧
    ∀ l ∈ s.ended, l.number < s.started
  /-- A lookup that has ended does not come back. -/
  past : ∀ a l, s.inFlight.get? a = some l → ∀ m ∈ s.ended, m.key ≠ l.key
  begun : ∀ loop ∈ s.loops, loop.key.number < s.started
  single : (s.loops.map RetryLoop.key).Nodup
  looped : ∀ a l, s.inFlight.get? a = some l → ∃ due, ⟨l.key, due⟩ ∈ s.loops
  known : ∀ loop ∈ s.loops, ∃ l, s.find? loop.key = some l

namespace Tended

/-- At first there is neither a lookup nor a loop. -/
theorem empty : Tended {} where
  named := fun _ _ hl => nomatch hl
  going := fun _ _ hl => nomatch hl
  closed := fun _ hl => absurd hl List.not_mem_nil
  counted := ⟨(fun _ _ hl => nomatch hl), fun _ hl => absurd hl List.not_mem_nil⟩
  past := fun _ _ hl => nomatch hl
  begun := fun _ hloop => absurd hloop List.not_mem_nil
  single := .nil
  looped := fun _ _ hl => nomatch hl
  known := fun _ hloop => absurd hloop List.not_mem_nil

/-! ### What a loop sees -/

/-- A lookup bears the key that it is found under. -/
theorem key_of_flying (h : Tended s) (hl : s.flying? key = some l) : l.key = key := by
  obtain ⟨hget, hnumber⟩ := flying?_eq_some_iff.mp hl
  exact key_eq_iff.mpr ⟨h.named _ _ hget, hnumber⟩

/-- The lookup in flight for a station is that of its own key. -/
theorem flying_of_get? (h : Tended s) (hl : s.inFlight.get? a = some l) :
    s.flying? l.key = some l := by
  refine flying?_eq_some_iff.mpr ⟨?_, rfl⟩
  show s.inFlight.get? l.target = some l
  rw [h.named a l hl, hl]

/-- A loop sees its lookup ended exactly when the lookup is not in flight. -/
theorem isComplete_iff (h : Tended s) : s.isComplete key = true ↔ s.flying? key = none := by
  unfold isComplete
  constructor
  · intro hcomplete
    rw [Option.eq_none_iff_forall_ne_some]
    intro l hl
    rw [find?_of_flying hl] at hcomplete
    obtain ⟨hget, _⟩ := flying?_eq_some_iff.mp hl
    have hgoing : l.isComplete = false := by
      unfold Lookup.isComplete
      rw [(h.going _ l hget).1]
      rfl
    exact absurd (hgoing.symm.trans hcomplete) Bool.false_ne_true
  · intro hnone
    unfold find?
    rw [hnone, Option.none_or]
    cases hl : s.ended.find? (·.key = key) with
    | none => rfl
    | some l => exact h.closed l (List.mem_of_find?_eq_some hl)

/-- The loop of a lookup in flight wakes up when its time has come, and not before. -/
theorem wakes_iff (h : Tended s) (hl : s.flying? key = some l) (now due : Nat) :
    s.wakes now ⟨key, due⟩ = true ↔ due ≤ now := by
  obtain ⟨hget, _⟩ := flying?_eq_some_iff.mp hl
  unfold wakes
  rw [find?_of_flying hl, Option.any_some, (h.going _ l hget).2, Bool.or_false, decide_eq_true_iff]

/-- Each lookup has one loop. -/
theorem due_unique (h : Tended s) {due due' : Nat} (hloop : ⟨key, due⟩ ∈ s.loops)
    (hloop' : ⟨key, due'⟩ ∈ s.loops) : due = due' :=
  congrArg RetryLoop.due (List.inj_on_of_nodup_map h.single hloop hloop' rfl)

/-- The loop of a lookup in flight wakes up at its time. -/
theorem mem_woken_of_get? (h : Tended s) (hl : s.inFlight.get? a = some l) {due : Nat}
    (hloop : ⟨l.key, due⟩ ∈ s.loops) (now : Nat) : l.key ∈ s.woken now ↔ due ≤ now := by
  have hflying := h.flying_of_get? hl
  rw [mem_woken_iff]
  constructor
  · rintro ⟨due', hloop', hwakes⟩
    rw [h.due_unique hloop hloop']
    exact (h.wakes_iff hflying now due').mp hwakes
  · exact fun hdue => ⟨due, hloop, (h.wakes_iff hflying now due).mpr hdue⟩

/-- No loop wakes up twice at once. -/
theorem nodup_woken (h : Tended s) (now : Nat) : (s.woken now).Nodup :=
  h.single.sublist (List.filter_sublist.map _)

/-! ### What happens to lookups -/

/-- A lookup begins together with its loop. -/
theorem begin (h : Tended s) (hbegin : s.begin? a = some (l, t)) (due : Nat) :
    Tended (t.spawn l.key due) := by
  unfold begin? at hbegin
  split at hbegin
  · exact nomatch hbegin
  next hidle =>
  obtain ⟨rfl, rfl⟩ := Prod.mk.inj (Option.some.inj hbegin)
  have hnone : s.inFlight.get? a = none := by
    rw [Option.eq_none_iff_forall_ne_some]
    exact fun l hl => hidle ((AddressMap.contains_iff _ _).mpr ⟨l, hl⟩)
  generalize hl : ({ target := a, number := s.started } : Lookup) = l
  have htarget : l.target = a := hl ▸ rfl
  have hnumber : l.number = s.started := hl ▸ rfl
  have hopen : l.outcome = none ∧ l.notice = false := by
    rw [← hl]
    exact ⟨rfl, rfl⟩
  have hget {b : Address} {m : Lookup} (hm : (s.inFlight.insert a l).get? b = some m) :
      b = a ∧ m = l ∨ s.inFlight.get? b = some m := by
    rw [AddressMap.get?_insert] at hm
    split at hm
    · next hb => exact .inl ⟨hb, (Option.some.inj hm).symm⟩
    · exact .inr hm
  have hfind (k : LookupKey) : ({ s with inFlight := s.inFlight.insert a l } :
      LookupService).find? k = if k = l.key then some l else s.find? k :=
    find?_insert htarget (fun m hm => nomatch hnone.symm.trans hm) k
  exact {
    named := by
      intro b m hm
      rcases hget hm with ⟨rfl, rfl⟩ | hm
      · exact htarget
      · exact h.named b m hm
    going := by
      intro b m hm
      rcases hget hm with ⟨rfl, rfl⟩ | hm
      · exact hopen
      · exact h.going b m hm
    closed := h.closed
    counted := by
      refine ⟨fun b m hm => ?_, fun m hm => Nat.lt_succ_of_lt (h.counted.2 m hm)⟩
      rcases hget hm with ⟨rfl, rfl⟩ | hm
      · exact hnumber ▸ Nat.lt_succ_self _
      · exact Nat.lt_succ_of_lt (h.counted.1 b m hm)
    past := by
      intro b m hm e he
      rcases hget hm with ⟨rfl, rfl⟩ | hm
      · intro heq
        have hold : e.number < s.started := h.counted.2 e he
        have hsame : e.number = m.number := (key_eq_iff.mp heq).2
        omega
      · exact h.past b m hm e he
    begun := by
      intro loop hloop
      rcases List.mem_append.mp hloop with hloop | hloop
      · exact Nat.lt_succ_of_lt (h.begun loop hloop)
      · obtain rfl := List.mem_singleton.mp hloop
        exact hnumber ▸ Nat.lt_succ_self _
    single := by
      show ((s.loops ++ [RetryLoop.mk l.key due]).map RetryLoop.key).Nodup
      rw [List.map_append, List.nodup_append]
      refine ⟨h.single, List.nodup_singleton _, ?_⟩
      -- the number of the new lookup is greater than all before
      rintro k hk k' hk' rfl
      obtain ⟨loop, hloop, rfl⟩ := List.mem_map.mp hk
      have hnew : loop.key.number = s.started := by
        rw [List.mem_singleton.mp hk']
        exact hnumber
      exact absurd (h.begun loop hloop) (hnew ▸ Nat.lt_irrefl _)
    looped := by
      intro b m hm
      rcases hget hm with ⟨rfl, rfl⟩ | hm
      · exact ⟨due, List.mem_append_right _ (List.mem_singleton.mpr rfl)⟩
      · obtain ⟨due', hloop⟩ := h.looped b m hm
        exact ⟨due', List.mem_append_left _ hloop⟩
    known := by
      intro loop hloop
      show ∃ m, ({ s with inFlight := s.inFlight.insert a l } : LookupService).find? loop.key =
        some m
      rw [hfind]
      rcases List.mem_append.mp hloop with hloop | hloop
      · split
        · exact ⟨l, rfl⟩
        · exact h.known loop hloop
      · rw [List.mem_singleton.mp hloop, if_pos rfl]
        exact ⟨l, rfl⟩ }

/-- Whoever comes to wait for a lookup, and however often it asks, it stays the same lookup. -/
theorem replace (h : Tended s) (hl : s.inFlight.get? a = some l) {l' : Lookup}
    (hkey : l'.key = l.key) (hgoing : l'.outcome = none ∧ l'.notice = false) :
    Tended { s with inFlight := s.inFlight.insert a l' } := by
  obtain ⟨htarget, hnumber⟩ := key_eq_iff.mp hkey
  replace htarget : l'.target = a := htarget.trans (h.named a l hl)
  have hget {b : Address} {m : Lookup} (hm : (s.inFlight.insert a l').get? b = some m) :
      b = a ∧ m = l' ∨ s.inFlight.get? b = some m := by
    rw [AddressMap.get?_insert] at hm
    split at hm
    · next hb => exact .inl ⟨hb, (Option.some.inj hm).symm⟩
    · exact .inr hm
  have hfind (k : LookupKey) : ({ s with inFlight := s.inFlight.insert a l' } :
      LookupService).find? k = if k = l'.key then some l' else s.find? k := by
    refine find?_insert htarget (fun m hm => ?_) k
    obtain rfl := Option.some.inj (hm.symm.trans hl)
    exact hnumber.symm
  -- every field is asked of the new lookup, which answers as the old one did, or of another
  exact {
    named := by
      intro b m hm
      rcases hget hm with ⟨rfl, rfl⟩ | hm
      · exact htarget
      · exact h.named b m hm
    going := by
      intro b m hm
      rcases hget hm with ⟨rfl, rfl⟩ | hm
      · exact hgoing
      · exact h.going b m hm
    closed := h.closed
    counted := by
      refine ⟨fun b m hm => ?_, h.counted.2⟩
      rcases hget hm with ⟨rfl, rfl⟩ | hm
      · exact hnumber ▸ h.counted.1 _ l hl
      · exact h.counted.1 b m hm
    past := by
      intro b m hm
      rcases hget hm with ⟨rfl, rfl⟩ | hm
      · rw [hkey]
        exact h.past _ l hl
      · exact h.past b m hm
    begun := h.begun
    single := h.single
    looped := by
      intro b m hm
      rcases hget hm with ⟨rfl, rfl⟩ | hm
      · rw [hkey]
        exact h.looped _ l hl
      · exact h.looped b m hm
    known := by
      intro loop hloop
      rw [hfind]
      split
      · exact ⟨l', rfl⟩
      · exact h.known loop hloop }

/-- A change of a lookup that leaves its key, its outcome and its notice alone, or takes a notice. -/
theorem modify (h : Tended s) (key : LookupKey) {f : Lookup → Lookup} (hkey : ∀ l, (f l).key = l.key)
    (hkept : ∀ l, (f l).outcome = l.outcome ∧ ((f l).notice = true → l.notice = true)) :
    Tended (s.modify key f) := by
  have hfind := find?_modify key hkey h.named
  unfold LookupService.modify at hfind ⊢
  split
  · next l hl =>
    obtain ⟨hget, _⟩ := flying?_eq_some_iff.mp hl
    obtain ⟨hopen, hnone⟩ := h.going _ l hget
    refine h.replace hget (hkey l) ⟨(hkept l).1.trans hopen, ?_⟩
    rw [Bool.eq_false_iff]
    exact fun hnotice => absurd (hnone.symm.trans ((hkept l).2 hnotice)) Bool.false_ne_true
  · next hnone =>
    simp only [hnone] at hfind
    -- every ended lookup is what it was as far as loops are concerned
    have hended {m : Lookup} (hm : m ∈ s.ended.map fun l => if l.key = key then f l else l) :
        ∃ l ∈ s.ended, m.key = l.key ∧ m.outcome = l.outcome := by
      obtain ⟨l, hl, rfl⟩ := List.mem_map.mp hm
      refine ⟨l, hl, ?_⟩
      split
      · exact ⟨hkey l, (hkept l).1⟩
      · exact ⟨rfl, rfl⟩
    exact {
      named := h.named
      going := h.going
      closed := by
        intro m hm
        obtain ⟨l, hl, _, houtcome⟩ := hended hm
        unfold Lookup.isComplete
        rw [houtcome]
        exact h.closed l hl
      counted := by
        refine ⟨h.counted.1, fun m hm => ?_⟩
        obtain ⟨l, hl, hsame, _⟩ := hended hm
        rw [(key_eq_iff.mp hsame).2]
        exact h.counted.2 l hl
      past := by
        intro b l hl m hm
        obtain ⟨l', hl', hsame, _⟩ := hended hm
        rw [hsame]
        exact h.past b l hl l' hl'
      begun := h.begun
      single := h.single
      looped := h.looped
      known := by
        intro loop hloop
        obtain ⟨l, hl⟩ := h.known loop hloop
        rw [hfind]
        split
        · next heq =>
          rw [← heq, hl]
          exact ⟨f l, rfl⟩
        · exact ⟨l, hl⟩ }

/-- A lookup that ends leaves its loop behind. -/
theorem finish (h : Tended s) (hl : s.inFlight.get? a = some l) (outcome : LookupOutcome) :
    Tended { s with inFlight := s.inFlight.erase a, ended := l.finished outcome :: s.ended } := by
  have htarget := h.named a l hl
  have hget {b : Address} {m : Lookup} (hm : (s.inFlight.erase a).get? b = some m) :
      b ≠ a ∧ s.inFlight.get? b = some m := by
    by_cases hb : b = a
    · rw [hb, AddressMap.get?_erase_self] at hm
      exact nomatch hm
    · rw [AddressMap.get?_erase_of_ne _ hb] at hm
      exact ⟨hb, hm⟩
  exact {
    named := fun b m hm => h.named b m (hget hm).2
    going := fun b m hm => h.going b m (hget hm).2
    closed := by
      intro m hm
      rcases List.mem_cons.mp hm with rfl | hm
      · rfl
      · exact h.closed m hm
    counted := by
      refine ⟨fun b m hm => h.counted.1 b m (hget hm).2, fun m hm => ?_⟩
      rcases List.mem_cons.mp hm with rfl | hm
      · exact h.counted.1 a l hl
      · exact h.counted.2 m hm
    past := by
      intro b m hm e he
      obtain ⟨hb, hm⟩ := hget hm
      rcases List.mem_cons.mp he with rfl | he
      · intro heq
        exact hb (((h.named b m hm).symm.trans (key_eq_iff.mp heq).1.symm).trans htarget)
      · exact h.past b m hm e he
    begun := h.begun
    single := h.single
    -- the loop of the ended lookup stays, and is known by what has become of its lookup
    looped := fun b m hm => h.looped b m (hget hm).2
    known := by
      intro loop hloop
      show ∃ m, ({ s with
        inFlight := s.inFlight.erase a, ended := l.finished outcome :: s.ended } :
          LookupService).find? loop.key = some m
      rw [find?_finished hl htarget outcome]
      split
      · exact ⟨_, rfl⟩
      · exact h.known loop hloop }

/-- A loop that goes to sleep again stays the same loop. -/
theorem sleep (h : Tended s) (key : LookupKey) (due : Nat) : Tended (s.sleep key due) := by
  have hkeys : (s.sleep key due).loops.map RetryLoop.key = s.loops.map RetryLoop.key := by
    unfold LookupService.sleep
    rw [List.map_map]
    refine List.map_congr_left fun loop _ => ?_
    show (if loop.key = key then { loop with due } else loop).key = loop.key
    split <;> rfl
  have hmem {k : LookupKey} : k ∈ (s.sleep key due).loops.map RetryLoop.key ↔
      ∃ loop ∈ s.loops, loop.key = k := by
    rw [hkeys, List.mem_map]
  -- only times change, so each loop answers for the one that had its key
  exact {
    named := h.named
    going := h.going
    closed := h.closed
    counted := h.counted
    past := h.past
    begun := by
      intro loop hloop
      obtain ⟨loop', hloop', heq⟩ := hmem.mp (List.mem_map_of_mem hloop)
      exact heq ▸ h.begun loop' hloop'
    single := by
      rw [hkeys]
      exact h.single
    looped := by
      intro b l hl
      obtain ⟨due', hloop⟩ := h.looped b l hl
      obtain ⟨⟨_, due''⟩, hloop', rfl⟩ := List.mem_map.mp (hmem.mpr ⟨_, hloop, rfl⟩)
      exact ⟨due'', hloop'⟩
    known := by
      intro loop hloop
      obtain ⟨loop', hloop', heq⟩ := hmem.mp (List.mem_map_of_mem hloop)
      exact heq ▸ h.known loop' hloop' }

/-- A loop ends only when its lookup is not in flight any more. -/
theorem endLoop (h : Tended s) (hnone : s.flying? key = none) : Tended (s.endLoop key) where
  named := h.named
  going := h.going
  closed := h.closed
  counted := h.counted
  past := h.past
  begun := fun loop hloop => h.begun loop (List.mem_filter.mp hloop).1
  single := h.single.sublist (List.filter_sublist.map _)
  looped := by
    intro b l hl
    obtain ⟨due, hloop⟩ := h.looped b l hl
    have hother : l.key ≠ key := by
      rintro rfl
      exact nomatch hnone.symm.trans (h.flying_of_get? hl)
    exact ⟨due, List.mem_filter.mpr ⟨hloop, decide_eq_true hother⟩⟩
  known := fun loop hloop => h.known loop (List.mem_filter.mp hloop).1

/-- When all loops have ended and all lookups are given up, nothing is in flight. -/
theorem abortAll (h : Tended s) : Tended s.joinLoops.abortAll.2 := by
  have hended {m : Lookup} (hm : m ∈ s.joinLoops.abortAll.2.ended) :
      m.isComplete = true ∧ m.number < s.started := by
    rcases List.mem_append.mp hm with hm | hm
    · obtain ⟨l, hl, rfl⟩ := List.mem_map.mp (List.mem_reverse.mp hm)
      obtain ⟨b, hl⟩ := (AddressMap.mem_values_iff _ _).mp hl
      exact ⟨rfl, h.counted.1 b l hl⟩
    · exact ⟨h.closed m hm, h.counted.2 m hm⟩
  exact {
    named := fun _ _ hl => nomatch hl
    going := fun _ _ hl => nomatch hl
    closed := fun _ hm => (hended hm).1
    counted := ⟨(fun _ _ hl => nomatch hl), fun _ hm => (hended hm).2⟩
    past := fun _ _ hl => nomatch hl
    begun := fun _ hloop => absurd hloop List.not_mem_nil
    single := .nil
    looped := fun _ _ hl => nomatch hl
    known := fun _ hloop => absurd hloop List.not_mem_nil }

end Tended

/-! ## What loops do -/

/-- What a loop does to lookups when it wakes up, unless it gives its lookup up. -/
inductive Tends (s : LookupService) : LookupService → Prop
  /-- It has asked once more, and goes to sleep again. -/
  | ask (key : LookupKey) (due : Nat) : Tends s ((s.recordRequest key).sleep key due)
  /-- It finds its lookup ended, and ends. -/
  | late {key : LookupKey} : s.isComplete key = true → Tends s ((s.takeNotice key).endLoop key)
  /-- It has given its lookup up, and ends. -/
  | leave {key : LookupKey} : s.flying? key = none → Tends s (s.endLoop key)

/-- What loops do keeps them tied to their lookups. -/
theorem Tended.tends (h : Tended s) (htends : Tends s t) : Tended t := by
  cases htends with
  | ask key due =>
    have hrecorded : Tended (s.recordRequest key) :=
      h.modify key (fun _ => rfl) fun _ => ⟨rfl, id⟩
    exact hrecorded.sleep key due
  | @late key hcomplete =>
    have hnone := h.isComplete_iff.mp hcomplete
    have htaken : Tended (s.takeNotice key) :=
      h.modify key (fun _ => rfl) fun _ => ⟨rfl, fun hnotice => nomatch hnotice⟩
    refine htaken.endLoop ?_
    unfold takeNotice LookupService.modify
    rw [hnone]
    exact hnone
  | leave hnone => exact h.endLoop hnone

/-- Whoever waits for a lookup does so still, and no lookup begins or ends. -/
theorem Tends.waiters (h : Tends s t) (a : Address) :
    (t.inFlight.get? a).map Lookup.waiters = (s.inFlight.get? a).map Lookup.waiters := by
  have hmodify (key : LookupKey) {f : Lookup → Lookup} (hf : ∀ l, (f l).waiters = l.waiters) :
      ((s.modify key f).inFlight.get? a).map Lookup.waiters =
        (s.inFlight.get? a).map Lookup.waiters := by
    rw [modify_get?]
    split
    · rw [Option.map_map]
      refine Option.map_congr fun l _ => ?_
      show (if l.number = key.number then f l else l).waiters = l.waiters
      split
      · exact hf l
      · rfl
    · rfl
  cases h with
  | ask key _ => exact hmodify key fun _ => rfl
  | @late key _ => exact hmodify key fun _ => rfl
  | leave _ => rfl

/-- And ends no lookup. -/
theorem Tends.isPending (h : Tends s t) (a : Address) : t.isPending a = s.isPending a := by
  have hsame := congrArg Option.isSome (h.waiters a)
  rw [Option.isSome_map, Option.isSome_map] at hsame
  rw [Bool.eq_iff_iff]
  unfold LookupService.isPending
  rw [AddressMap.contains_iff, AddressMap.contains_iff, ← Option.isSome_iff_exists,
    ← Option.isSome_iff_exists, hsame]

end Geocast.LookupService
