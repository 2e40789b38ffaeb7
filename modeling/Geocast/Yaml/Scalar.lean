import Geocast.Yaml.Cursor

/-!
# Scalars within lines

A scalar keeps how it was written, because only a plain one can be a number or a truth value. A
plain scalar ends where something else may begin; it and the quoted ones may run over several
lines, and then a single line break stands for a space and further ones for themselves.
-/

namespace Geocast.Yaml

/-- How a scalar is written. -/
inductive Style
  | plain | singleQuoted | doubleQuoted | literal | folded
deriving DecidableEq, Repr, Inhabited

/-- A scalar with its tag, if that is a text. -/
structure Scalar where
  tag : Option String := none
  style : Style := .plain
  text : List Char := []
deriving DecidableEq, Repr, Inhabited

/-- What stands between two words of a scalar. Its characters are kept in reverse. -/
inductive Gap
  /-- Blanks within a line. -/
  | blanks (text : List Char)
  /-- Line breaks. The first one is left out if it is escaped. -/
  | breaks (first : Option Char) (more : List Char)
deriving Repr, Inhabited

namespace Gap

/-- No characters at all. -/
def empty : Gap := .blanks []

/-- The gap with a further blank. Blanks around a line break do not count. -/
def blank (c : Char) : Gap → Gap
  | blanks text => blanks (c :: text)
  | gap => gap

/-- The gap with a further line break. -/
def newline (c : Char) : Gap → Gap
  | blanks _ => breaks (some c) []
  | breaks first more => breaks first (c :: more)

/-- Whether a line ends within the gap. -/
def isBroken : Gap → Bool
  | blanks _ => false
  | breaks .. => true

/-- Whether nothing stands there. -/
def isEmpty : Gap → Bool
  | blanks [] => true
  | _ => false

/-- What a gap stands for, in reverse: a single line feed for a space, and the first of several
for nothing. Separators stand for themselves. -/
def folded : Gap → List Char
  | blanks text => text
  | breaks (some '\n') [] => [' ']
  | breaks (some '\n') more => more
  | breaks first more => more ++ first.toList

end Gap

/-- A plain scalar that is indented by at least `indent`: its text, the cursor behind it and the
gap that follows it, and whether a line ends in that gap. Fails on a tab that indents a line, and
on a colon in a flow collection that is neither text nor followed by a blank. The characters read
so far are given in reverse. -/
def plainText? (flow : Bool) (indent : Int) (read : List Char) (gap : Gap) (p : Place) :
    List Char → Option (List Char × Cursor × Bool)
  | [] => some (read.reverse, ⟨[], p⟩, gap.isBroken)
  | c :: rest =>
    if isBreak c then plainText? flow indent read (gap.newline c) (p.after c) rest
    else if isBlank c then
      if gap.isBroken && c = '\t' && (p.column : Int) < indent then none
      else plainText? flow indent read (gap.blank c) (p.after c) rest
    else
      let ended := (!gap.isEmpty && ((!flow && (p.column : Int) < indent) || c = '#' ||
          atMarker p.column (c :: rest))) ||
        (c = ':' && atGap rest) || (flow && isFlowIndicator c)
      if ended then some (read.reverse, ⟨c :: rest, p⟩, gap.isBroken)
      else if flow && c = ':' && rest.head?.any (fun d => isFlowIndicator d || d = '?') then none
      else plainText? flow indent (c :: (gap.folded ++ read)) .empty (p.after c) rest

/-- A single-quoted scalar behind its opening quote. Two quotes stand for one. -/
def singleQuoted? (read : List Char) (gap : Gap) (p : Place) :
    List Char → Option (List Char × Cursor)
  | [] => none
  | [c] => if c = '\'' then some ((gap.folded ++ read).reverse, ⟨[], p.after c⟩) else none
  | c :: d :: rest =>
    if isBreak c then singleQuoted? read (gap.newline c) (p.after c) (d :: rest)
    else if isBlank c then singleQuoted? read (gap.blank c) (p.after c) (d :: rest)
    else if atMarker p.column (c :: d :: rest) then none
    else if c = '\'' then
      if d = '\'' then
        singleQuoted? (c :: (gap.folded ++ read)) .empty ((p.after c).after d) rest
      else some ((gap.folded ++ read).reverse, ⟨d :: rest, p.after c⟩)
    else singleQuoted? (c :: (gap.folded ++ read)) .empty (p.after c) (d :: rest)

/-- The value of a hexadecimal number. -/
def hexNumber? (cs : List Char) : Option Nat :=
  cs.foldlM (fun n c => (Bytes.hexValue? c).map (16 * n + ·)) 0

/-- The character of a code point. -/
def charOfCode? (code : Nat) : Option Char :=
  if code < 0xd800 ∨ (0xe000 ≤ code ∧ code < 0x110000) then some (Char.ofNat code) else none

/-- What a letter behind a backslash stands for by itself. -/
def escape? : Char → Option Char
  | '0' => some '\x00'
  | 'a' => some '\x07'
  | 'b' => some '\x08'
  | 't' => some '\t'
  | '\t' => some '\t'
  | 'n' => some '\n'
  | 'v' => some '\x0b'
  | 'f' => some '\x0c'
  | 'r' => some '\r'
  | 'e' => some '\x1b'
  | ' ' => some ' '
  | '"' => some '"'
  | '/' => some '/'
  | '\\' => some '\\'
  | 'N' => some '\x85'
  | '_' => some '\xa0'
  | 'L' => some (Char.ofNat 0x2028)
  | 'P' => some (Char.ofNat 0x2029)
  | _ => none

/-- How many hexadecimal digits of a code point follow a letter behind a backslash. -/
def escapeDigits? : Char → Option Nat
  | 'x' => some 2
  | 'u' => some 4
  | 'U' => some 8
  | _ => none

/-- What follows a backslash: what it stands for, and how many characters it takes. -/
def escaped? : List Char → Option (Char × Nat)
  | [] => none
  | e :: rest =>
    match escapeDigits? e with
    | none => (escape? e).map (·, 1)
    | some n =>
      if rest.length < n then none
      else do
        let c ← charOfCode? (← hexNumber? (rest.take n))
        return (c, n + 1)

/-- A double-quoted scalar behind its opening quote. A backslash at the end of a line takes the
line break away. The characters of an escape that is already understood are passed over. -/
def doubleQuoted? (read : List Char) (gap : Gap) (passing : Nat) (p : Place) :
    List Char → Option (List Char × Cursor)
  | [] => none
  | c :: rest =>
    match passing with
    | n + 1 => doubleQuoted? read gap n (p.after c) rest
    | 0 =>
      if isBreak c then doubleQuoted? read (gap.newline c) 0 (p.after c) rest
      else if isBlank c then doubleQuoted? read (gap.blank c) 0 (p.after c) rest
      else if atMarker p.column (c :: rest) then none
      else
        let read := gap.folded ++ read
        if c = '"' then some (read.reverse, ⟨rest, p.after c⟩)
        else if c = '\\' then
          if rest.head?.any isBreak then doubleQuoted? read (.breaks none []) 1 (p.after c) rest
          else match escaped? rest with
            | some (d, n) => doubleQuoted? (d :: read) .empty n (p.after c) rest
            | none => none
        else doubleQuoted? (c :: read) .empty 0 (p.after c) rest

end Geocast.Yaml
