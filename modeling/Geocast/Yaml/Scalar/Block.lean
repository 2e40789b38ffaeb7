import Geocast.Yaml.Scalar

/-!
# Scalars over lines

A literal or folded scalar holds the lines that are indented below its header. The header tells
how deep they are indented, if the first of them does not, and what becomes of the line breaks at
the end. In a folded scalar a line break between two lines that do not start with a blank stands
for a space, or for nothing if empty lines follow it.
-/

namespace Geocast.Yaml

/-- How the line breaks at the end of a block scalar are treated. -/
inductive Chomping
  | clip | strip | keep
deriving DecidableEq, Repr

/-- The sign of a way of chomping. -/
def chomping? : Char → Option Chomping
  | '-' => some .strip
  | '+' => some .keep
  | _ => none

/-- The depth that a digit of a header asks for. -/
def depthOf? (c : Char) : Option Nat :=
  if '1' ≤ c ∧ c ≤ '9' then some (c.toNat - 48) else none

/-- The header of a block scalar: chomping and depth in either order, both of which may be left
out, and the number of their characters. -/
def blockHeader? : List Char → Option (Chomping × Option Nat × Nat)
  | [] => some (.clip, none, 0)
  | c :: rest =>
    let next := rest.head?
    match chomping? c with
    | some chomping =>
      if next.any Char.isDigit then do
        let depth ← next.bind depthOf?
        return (chomping, some depth, 2)
      else some (chomping, none, 1)
    | none =>
      if c.isDigit then do
        let depth ← depthOf? c
        return match next.bind chomping? with
          | some chomping => (chomping, some depth, 2)
          | none => (.clip, some depth, 1)
      else some (.clip, none, 0)

/-- Passes over the indentation of a line and the empty lines in front of it: their line breaks
in reverse, the greatest column that was reached, and the cursor at the line's text. A depth that
is not known yet takes any number of spaces. Fails on a tab that indents. -/
def emptyLines? (depth : Option Nat) (deepest : Nat) (breaks : List Char) (p : Place) :
    List Char → Option (List Char × Nat × Cursor)
  | [] => some (breaks, max deepest p.column, ⟨[], p⟩)
  | c :: rest =>
    let shallow := depth.all (p.column < ·)
    if shallow && c = ' ' then emptyLines? depth deepest breaks (p.after c) rest
    else if shallow && c = '\t' then none
    else if isBreak c then
      emptyLines? depth (max deepest p.column) (c :: breaks) (p.after c) rest
    else some (breaks, max deepest p.column, ⟨c :: rest, p⟩)

/-- A block scalar of which some lines were read: its text so far, the break behind the last line
and those of empty lines that follow it, all in reverse, and whether the last line starts with a
blank. -/
structure BlockText where
  read : List Char := []
  lineBreak : Option Char := none
  emptyBreaks : List Char := []
  spaced : Bool := false

/-- The breaks in front of a further line, in reverse. -/
def BlockText.joint (t : BlockText) (folded spaced : Bool) : List Char :=
  if folded && t.lineBreak = some '\n' && !t.spaced && !spaced then
    if t.emptyBreaks.isEmpty then [' '] else t.emptyBreaks
  else t.emptyBreaks ++ t.lineBreak.toList

/-- The lines of a block scalar that start at a depth. There are at most as many of them as
characters. -/
def blockLines? (folded : Bool) (depth : Nat) :
    Nat → BlockText → Cursor → Option (BlockText × Cursor)
  | 0, t, c => some (t, c)
  | fuel + 1, t, c =>
    if c.rest.isEmpty || c.place.column ≠ depth then some (t, c)
    else do
      let spaced := c.rest.head?.any isBlank
      let (line, atBreak) := c.span fun d => !isBreak d
      let below := atBreak.next
      let (emptyBreaks, _, next) ← emptyLines? (some depth) 0 [] below.place below.rest
      blockLines? folded depth fuel {
        read := line.reverse ++ (t.joint folded spaced ++ t.read)
        lineBreak := atBreak.rest.head?
        emptyBreaks, spaced } next

/-- A block scalar behind its first character, below a node that is indented by `indent`. -/
def blockScalar? (folded : Bool) (indent : Int) (c : Cursor) :
    Option (List Char × Cursor) := do
  let (chomping, explicit, length) ← blockHeader? c.rest
  let below ← (c.skip length).endLine?
  let explicit := explicit.map ((max indent 0).toNat + ·)
  let (emptyBreaks, deepest, first) ← emptyLines? explicit 0 [] below.place below.rest
  let depth := explicit.getD (max deepest (max (indent + 1).toNat 1))
  let (t, next) ← blockLines? folded depth (first.rest.length + 1) { emptyBreaks } first
  let ending := match chomping with
    | .strip => []
    | .clip => t.lineBreak.toList
    | .keep => t.emptyBreaks ++ t.lineBreak.toList
  return ((ending ++ t.read).reverse, next)

end Geocast.Yaml
