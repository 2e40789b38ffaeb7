import Geocast.Yaml.Cursor

/-!
# Tags and directives

A tag is written as a handle and a suffix, and the directives of a document say what its handles
stand for. Suffixes are made of the characters of a URI; others are written as the bytes of their
UTF-8 form, two hexadecimal digits each.
-/

namespace Geocast.Yaml

/-- A tag as it is written. The handle of a full one is empty. -/
structure WrittenTag where
  handle : String
  suffix : Bytes
deriving DecidableEq, Repr, Inhabited

/-- The ASCII characters of a URI. Commas and brackets count only where nothing else could claim
them. -/
def isUriChar (wide : Bool) (c : Char) : Bool :=
  isWordChar c || ";/?:@&=+$.!~*'()".toList.contains c ||
    (wide && (c = ',' || c = '[' || c = ']'))

/-- How many bytes the UTF-8 form of a character has, from the first of them. -/
def utf8Length? (first : Nat) : Option Nat :=
  if first < 0x80 then some 1
  else if first < 0xc0 then none
  else if first < 0xe0 then some 2
  else if first < 0xf0 then some 3
  else if first < 0xf8 then some 4
  else none

/-- The bytes of the longest run of characters of a URI, with so many bytes of a character still
to come, and the cursor behind them. A zero byte ends what is kept of them. Bytes read so far are
in reverse. -/
def uri? (wide : Bool) (due : Nat) (read : Bytes) (p : Place) :
    List Char → Option (Bytes × Cursor)
  | '%' :: a :: b :: rest => do
    let byte := 16 * (← Bytes.hexValue? a) + (← Bytes.hexValue? b)
    let due ←
      if due = 0 then (utf8Length? byte).map (· - 1)
      else if 0x80 ≤ byte ∧ byte < 0xc0 then some (due - 1)
      else none
    uri? wide due (UInt8.ofNat byte :: read) (((p.after '%').after a).after b) rest
  | [] => if due = 0 then some (read.reverse.takeWhile (· ≠ 0), ⟨[], p⟩) else none
  | c :: rest =>
    if due ≠ 0 || c = '%' then none
    else if isUriChar wide c then uri? wide 0 (UInt8.ofNat c.toNat :: read) (p.after c) rest
    else some (read.reverse.takeWhile (· ≠ 0), ⟨c :: rest, p⟩)

/-- A URI with at least one character. -/
def someUri? (wide : Bool) (c : Cursor) : Option (Bytes × Cursor) := do
  let (bytes, next) ← uri? wide 0 [] c.place c.rest
  if next.place.index = c.place.index then none else some (bytes, next)

/-- An exclamation mark, a word, and a further exclamation mark if there is one. -/
def handle? (c : Cursor) : Option (List Char × Cursor) :=
  if c.rest.head? = some '!' then
    let (word, next) := c.next.span isWordChar
    if next.rest.head? = some '!' then some ('!' :: word ++ ['!'], next.next)
    else some ('!' :: word, next)
  else none

/-- A tag that starts at its exclamation mark. A mark alone is a full tag. -/
def tag? (flow : Bool) (c : Cursor) : Option (WrittenTag × Cursor) := do
  let (tag, next) ←
    if c.rest.take 2 = ['!', '<'] then do
      let (suffix, next) ← someUri? true (c.skip 2)
      if next.rest.head? = some '>' then some (⟨"", suffix⟩, next.next) else none
    else do
      let (handle, next) ← handle? c
      if 1 < handle.length ∧ handle.getLast? = some '!' then
        let (suffix, next) ← someUri? false next
        some (⟨String.ofList handle, suffix⟩, next)
      else
        let (more, next) ← uri? false 0 [] next.place next.rest
        let suffix := handle.tail.map (fun d => UInt8.ofNat d.toNat) ++ more
        some (if suffix.isEmpty then ⟨"", [33]⟩ else ⟨"!", suffix⟩, next)
  if atGap next.rest || (flow && next.rest.head? = some ',') then some (tag, next) else none

/-- The name of a node behind the sign in front of it. -/
def anchorName? (c : Cursor) : Option (String × Cursor) :=
  let (name, next) := c.next.span isWordChar
  let ended := atGap next.rest || next.rest.head?.any fun d => "?:,]\x7d%@`".toList.contains d
  if name.isEmpty || !ended then none else some (String.ofList name, next)

/-- A line in front of a document that says how to read it. -/
inductive Directive
  /-- The version of the format. -/
  | version (major minor : Nat)
  /-- What the tags with a handle begin with. -/
  | handle (name : String) (stem : Bytes)
deriving DecidableEq, Repr, Inhabited

/-- A number of at most nine digits. -/
def versionNumber? (c : Cursor) : Option (Nat × Cursor) :=
  let (digits, next) := c.span Char.isDigit
  if digits.isEmpty || 9 < digits.length then none
  else some (digits.foldl (fun n d => 10 * n + (d.toNat - 48)) 0, next)

/-- A directive behind its percent sign, with its line. -/
def directive? (c : Cursor) : Option (Directive × Cursor) := do
  let (name, c) := c.span isWordChar
  if !atGap c.rest then none
  let c := c.skipBlanks
  let (directive, c) ←
    if name = "YAML".toList then do
      let (major, c) ← versionNumber? c
      if c.rest.head? ≠ some '.' then none
      let (minor, c) ← versionNumber? c.next
      some (Directive.version major minor, c)
    else if name = "TAG".toList then do
      let (name, c) ← handle? c
      if name ≠ ['!'] ∧ name.getLast? ≠ some '!' then none
      if !c.rest.head?.any isBlank then none
      let (stem, c) ← someUri? true c.skipBlanks
      if !atGap c.rest then none
      some (Directive.handle (String.ofList name) stem, c)
    else none
  let c ← c.endLine?
  return (directive, c)

end Geocast.Yaml
