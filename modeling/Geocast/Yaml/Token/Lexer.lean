import Geocast.Yaml.Token

/-!
# Telling tokens apart

A key of a mapping shows as such only by the colon behind it. So whatever may turn out to be a key
is remembered together with the number of tokens in front of it, and the colon puts the missing
tokens in there. Such a key has to stand on one line and to end within 1024 bytes.
-/

namespace Geocast.Yaml

/-- Something that may turn out to be a key. -/
structure PossibleKey where
  /-- Whether nothing else may stand there. -/
  required : Bool
  /-- How many tokens precede it. -/
  number : Nat
  place : Place
deriving DecidableEq, Repr, Inhabited

/-- A text of which some tokens were read. -/
structure Lexer where
  cursor : Cursor
  /-- The tokens read so far, each with those that were put in front of it. -/
  tokens : Array (List Token × Token) := #[]
  /-- The columns of the open block collections, from the innermost one. -/
  indents : List Nat := []
  /-- Whether a key may start here. -/
  keys : Bool := true
  /-- What may turn out to be a key of the innermost collection. -/
  pending : Option PossibleKey := none
  /-- The same for the collections around it, if it is a flow collection. -/
  around : List (Option PossibleKey) := []
deriving Inhabited

namespace Lexer

/-- Whether the text goes on within a flow collection. -/
def inFlow (l : Lexer) : Bool := !l.around.isEmpty

/-- The column of the innermost block collection, or -1. -/
def indent (l : Lexer) : Int := l.indents.head?.elim (-1) Int.ofNat

/-- The column at which the text goes on. -/
def column (l : Lexer) : Nat := l.cursor.place.column

/-- The same text with a further token. -/
def push (l : Lexer) (t : Token) : Lexer := { l with tokens := l.tokens.push ([], t) }

/-- The same text behind a further token. -/
def pushTo (l : Lexer) (t : Token) (next : Cursor) : Lexer := { l.push t with cursor := next }

/-- Puts tokens in front of one that was read before. -/
def putBefore (l : Lexer) (number : Nat) (ts : List Token) : Lexer :=
  { l with tokens := l.tokens.modify number fun (before, t) => (ts ++ before, t) }

/-- All tokens in their order. -/
def row (l : Lexer) : List Token := l.tokens.toList.flatMap fun (before, t) => before ++ [t]

/-! ## Keys -/

/-- Gives up a possible key that has become too long; fails if it has to be one. -/
def freshKey? (p : Place) : Option PossibleKey → Option (Option PossibleKey)
  | none => some none
  | some k =>
    if k.place.line < p.line || k.place.index + 1024 < p.index then
      if k.required then none else some none
    else some (some k)

/-- Gives up all possible keys that have become too long. -/
def dropStale? (l : Lexer) : Option Lexer := do
  let around ← l.around.mapM (freshKey? l.cursor.place)
  let pending ← freshKey? l.cursor.place l.pending
  return { l with pending, around }

/-- Gives up the possible key of the innermost collection; fails if it has to be one. -/
def dropKey? (l : Lexer) : Option Lexer :=
  if l.pending.any PossibleKey.required then none else some { l with pending := none }

/-- Remembers that what comes next may be a key, where one may start. -/
def noteKey? (l : Lexer) : Option Lexer :=
  if l.keys then do
    let l ← l.dropKey?
    return { l with pending := some {
      required := !l.inFlow && l.indent = l.column
      number := l.tokens.size
      place := l.cursor.place } }
  else some l

/-! ## Indentation -/

/-- Ends the block collections that are indented by more than a column. -/
def endBlocks (l : Lexer) (column : Int) : Lexer :=
  if l.inFlow then l
  else
    let deeper (i : Nat) : Bool := column < (i : Int)
    let ended := (l.indents.takeWhile deeper).foldl (fun l _ => l.push .blockEnd) l
    { ended with indents := l.indents.dropWhile deeper }

/-- Whether a block collection starts at a column. -/
def startsBlock (l : Lexer) (column : Nat) : Bool := !l.inFlow && l.indent < column

/-- Starts a block collection, if none has its parts at this column. Fails where no key may
start. -/
def startBlock? (l : Lexer) (start : Token) : Option Lexer :=
  if l.inFlow then some l
  else if !l.keys then none
  else if l.startsBlock l.column then some { l.push start with indents := l.column :: l.indents }
  else some l

/-! ## Tokens -/

/-- A marker between documents. -/
def marker? (l : Lexer) (t : Token) : Option Lexer := do
  let l ← (l.endBlocks (-1)).dropKey?
  return { l.pushTo t (l.cursor.skip 3) with keys := false }

/-- A line in front of a document. -/
def directiveLine? (l : Lexer) : Option Lexer := do
  let l ← (l.endBlocks (-1)).dropKey?
  let (d, next) ← directive? l.cursor.next
  return { l.pushTo (.directive d) next with keys := false }

/-- The opening bracket of a flow collection. -/
def openFlow? (l : Lexer) (t : Token) : Option Lexer := do
  let l ← l.noteKey?
  return { l.pushTo t l.cursor.next with
    pending := none, around := l.pending :: l.around, keys := true }

/-- The closing bracket of a flow collection. -/
def closeFlow? (l : Lexer) (t : Token) : Option Lexer := do
  let l ← l.dropKey?
  return { l.pushTo t l.cursor.next with
    pending := l.around.head?.getD l.pending, around := l.around.tail, keys := false }

/-- A separator that stands before a part of a collection. -/
def separator? (l : Lexer) (t : Token) (keys : Bool) : Option Lexer := do
  let l ← l.dropKey?
  return { l.pushTo t l.cursor.next with keys }

/-- The colon in front of a value. What stands before it, if it may be a key, is one. -/
def value? (l : Lexer) : Option Lexer :=
  match l.pending with
  | some k =>
    let starts := l.startsBlock k.place.column
    let l := l.putBefore k.number (if starts then [.blockMappingStart, .key] else [.key])
    some { l.pushTo .value l.cursor.next with
      indents := if starts then k.place.column :: l.indents else l.indents
      pending := none, keys := false }
  | none => do
    let l ← l.startBlock? .blockMappingStart
    return { l.pushTo .value l.cursor.next with keys := !l.inFlow }

/-- The front of a node, read by a reader of its own. -/
def front? {α : Type} (l : Lexer) (token : α → Token) (read : Cursor → Option (α × Cursor)) :
    Option Lexer := do
  let l ← l.noteKey?
  let (a, next) ← read l.cursor
  return { l.pushTo (token a) next with keys := false }

/-- A scalar over lines. -/
def block? (l : Lexer) (style : Style) : Option Lexer := do
  let l ← l.dropKey?
  let (text, next) ← blockScalar? (style = .folded) l.indent l.cursor.next
  return { l.pushTo (.scalar style text) next with keys := true }

/-- A plain scalar. Where a line ends behind it, a key may start. -/
def plain? (l : Lexer) : Option Lexer := do
  let l ← l.noteKey?
  let (text, next, broken) ←
    plainText? l.inFlow (l.indent + 1) [] .empty l.cursor.place l.cursor.rest
  return { l.pushTo (.scalar .plain text) next with keys := broken }

/-- Whether a plain scalar may start with a character. -/
def startsPlain (flow : Bool) (c : Char) (rest : List Char) : Bool :=
  if c = '-' then !rest.head?.any isBlank
  else if c = '?' || c = ':' then !flow && !atGap rest
  else !(isBlank c || isFlowIndicator c || "#&*!|>'\"%@`".toList.contains c)

/-- Reads a token that starts with a character. -/
def read? (l : Lexer) (c : Char) (rest : List Char) : Option Lexer :=
  let flow := l.inFlow
  if l.column = 0 && c = '%' then l.directiveLine?
  else if atMarker l.column (c :: rest) then
    l.marker? (if c = '-' then .documentStart else .documentEnd)
  else if c = '[' then l.openFlow? .flowSequenceStart
  else if c = '\x7b' then l.openFlow? .flowMappingStart
  else if c = ']' then l.closeFlow? .flowSequenceEnd
  else if c = '\x7d' then l.closeFlow? .flowMappingEnd
  else if c = ',' then l.separator? .flowSeparator true
  else if c = '-' && atGap rest then do
    (← l.startBlock? .blockSequenceStart).separator? .blockItem true
  else if c = '?' && (flow || atGap rest) then do
    (← l.startBlock? .blockMappingStart).separator? .key !flow
  else if c = ':' && (flow || atGap rest) then l.value?
  else if c = '*' then l.front? .alias anchorName?
  else if c = '&' then l.front? .anchor anchorName?
  else if c = '!' then l.front? .tag (tag? flow)
  else if c = '|' && !flow then l.block? .literal
  else if c = '>' && !flow then l.block? .folded
  else if c = '\'' then
    l.front? (.scalar .singleQuoted) fun s => singleQuoted? [] .empty s.next.place s.next.rest
  else if c = '"' then
    l.front? (.scalar .doubleQuoted) fun s => doubleQuoted? [] .empty 0 s.next.place s.next.rest
  else if startsPlain flow c rest then l.plain?
  else none

/-- Moves to what is written next. -/
def approach? (l : Lexer) : Option Lexer := do
  let (cursor, keys) := toContent l.inFlow false l.keys l.cursor.place l.cursor.rest
  let l ← dropStale? { l with cursor, keys }
  return l.endBlocks l.column

/-- Reads all tokens of a text. Each step takes a character at least. -/
def run? : Nat → Lexer → Option Lexer
  | 0, _ => none
  | fuel + 1, l => do
    let l ← l.approach?
    match l.cursor.rest with
    | [] => (l.endBlocks (-1)).dropKey?
    | c :: rest => run? fuel (← l.read? c rest)

end Lexer

/-- The tokens of a text. -/
def Token.ofText? (text : String) : Option (List Token) := do
  let cs ← normalize text.toList
  let l ← Lexer.run? (cs.length + 1) { cursor := ⟨cs, {}⟩ }
  return l.row

end Geocast.Yaml
