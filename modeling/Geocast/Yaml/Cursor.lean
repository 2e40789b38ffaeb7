import Geocast.Bytes

/-!
# Reading positions

A cursor is what is left of a text together with the place at which that starts. `normalize`
makes every line break that is not a Unicode separator one `\n`, and refuses control characters;
all readers work on normalized text.
-/

namespace Geocast.Yaml

/-! ## Kinds of characters -/

/-- A space or a tab. -/
def isBlank (c : Char) : Bool := c = ' ' || c = '\t'

/-- A line break of a normalized text: a line feed or one of the two Unicode separators. -/
def isBreak (c : Char) : Bool := c = '\n' || c = Char.ofNat 0x2028 || c = Char.ofNat 0x2029

/-- Whether a blank, a line break or the end of the text comes next. -/
def atGap : List Char → Bool
  | [] => true
  | c :: _ => isBlank c || isBreak c

/-- Whether a line break or the end of the text comes next. -/
def atLineEnd : List Char → Bool
  | [] => true
  | c :: _ => isBreak c

/-- The characters that open, close and separate flow collections. -/
def isFlowIndicator (c : Char) : Bool :=
  c = ',' || c = '[' || c = ']' || c = '\x7b' || c = '\x7d'

/-- The characters of a word: ASCII letters, digits, hyphens and underscores. -/
def isWordChar (c : Char) : Bool := c.isAlphanum || c = '-' || c = '_'

/-- The mark by which a text may tell the order of its bytes. It has no meaning where it starts a
line, but counts as a column. -/
def orderMark : Char := Char.ofNat 0xfeff

/-- Characters that a text may hold, line breaks apart. -/
def isPrintable (c : Char) : Bool :=
  let n := c.toNat
  n = 9 || (32 ≤ n && n ≤ 126) || (160 ≤ n && n ≤ 55295) || (57344 ≤ n && n ≤ 65533) || 65536 ≤ n

/-- A text with `\n` for every carriage return, line feed, pair of the two, and next line
character; `none` if it holds a control character. -/
def normalize : List Char → Option (List Char)
  | [] => some []
  | '\r' :: '\n' :: rest => (normalize rest).map ('\n' :: ·)
  | c :: rest =>
    if c = '\n' || c = '\r' || c = '\x85' then (normalize rest).map ('\n' :: ·)
    else if isPrintable c then (normalize rest).map (c :: ·)
    else none

/-! ## Places -/

/-- A place in a text: how many bytes of UTF-8, how many line breaks and how many characters of the
same line precede it. -/
structure Place where
  index : Nat := 0
  line : Nat := 0
  column : Nat := 0
deriving DecidableEq, Repr, Inhabited

/-- The place behind a character. -/
def Place.after (p : Place) (c : Char) : Place :=
  let index := p.index + c.utf8Size
  if isBreak c then ⟨index, p.line + 1, 0⟩ else ⟨index, p.line, p.column + 1⟩

/-- What is left of a text, and where that starts. -/
structure Cursor where
  rest : List Char
  place : Place := {}
deriving Repr, Inhabited

namespace Cursor

/-- The cursor behind the next character, or the same at the end. -/
def next : Cursor → Cursor
  | ⟨[], p⟩ => ⟨[], p⟩
  | ⟨c :: rest, p⟩ => ⟨rest, p.after c⟩

/-- The cursor behind so many characters. -/
def skip : Nat → Cursor → Cursor
  | 0, c => c
  | n + 1, c => skip n c.next

/-- The longest run of characters of a kind, and the cursor behind it. -/
def span (c : Cursor) (kind : Char → Bool) : List Char × Cursor :=
  let run := c.rest.takeWhile kind
  (run, c.skip run.length)

/-- The cursor behind the blanks that come next. -/
def skipBlanks (c : Cursor) : Cursor := (c.span isBlank).2

/-- The cursor behind the rest of a line that holds no more than blanks and a comment, and behind
its line break. -/
def endLine? (c : Cursor) : Option Cursor :=
  let c := c.skipBlanks
  let c := if c.rest.head? = some '#' then (c.span fun d => !isBreak d).2 else c
  if atLineEnd c.rest then some c.next else none

end Cursor

/-- Whether a marker between documents starts at a column. -/
def atMarker : (column : Nat) → List Char → Bool
  | 0, '-' :: '-' :: '-' :: rest => atGap rest
  | 0, '.' :: '.' :: '.' :: rest => atGap rest
  | _, _ => false

/-- Passes over blanks, comments and line breaks. Outside of flow collections a tab may only
separate where no key can start; a new line there allows one again. Gives the place of the next
thing written, and whether a key may start there. -/
def toContent (flow comment keys : Bool) (p : Place) : List Char → Cursor × Bool
  | [] => (⟨[], p⟩, keys)
  | c :: rest =>
    if isBreak c then toContent flow false (keys || !flow) (p.after c) rest
    else if comment || c = ' ' || (c = '\t' && (flow || !keys)) ||
        (p.column = 0 && c = orderMark) then
      toContent flow comment keys (p.after c) rest
    else if c = '#' then toContent flow true keys (p.after c) rest
    else (⟨c :: rest, p⟩, keys)

end Geocast.Yaml
