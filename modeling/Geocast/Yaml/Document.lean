import Geocast.Yaml.Event

/-!
# Documents

A document is read from its tokens with a stack of what the open collections go on with. A name
given to a node stands for the number of names known before it, so a number may be taken over by
a later node, and then every use of it means that one.
-/

namespace Geocast.Yaml

/-- A document of which some tokens were read. -/
structure Document where
  tokens : List Token
  /-- What the open collections go on with, from the innermost one. -/
  awaited : List Awaited := []
  /-- The events, in reverse. -/
  events : List Event := []
  /-- The numbers of names. -/
  names : List (String × Nat) := []
  /-- The scalars that numbers stand for; a collection is none. -/
  named : List (Nat × Option Scalar) := []
  /-- What the handles of tags stand for. -/
  handles : List (String × Bytes) := []

namespace Document

/-- The bytes of a tag; `none` if its handle is unknown. -/
def tagBytes? (d : Document) (t : WrittenTag) : Option Bytes :=
  if t.handle.isEmpty then some t.suffix
  else (d.handles.lookup t.handle).map (· ++ t.suffix)

/-- Adds an event that starts a node, and gives the node its name. -/
def start (d : Document) (anchor : Option String) (e : Event) : Document :=
  let d := match anchor with
    | none => d
    | some name =>
      let number := d.names.length
      let target := match e with
        | .scalar s => some s
        | _ => none
      { d with
        names := (name, number) :: d.names.filter (·.1 ≠ name)
        named := (number, target) :: d.named }
  { d with events := e :: d.events }

/-- Adds an empty scalar, and goes on with something. -/
def leaveOut (d : Document) (tokens : List Token) (awaited : List Awaited) : Document :=
  { d.start none (.scalar {}) with tokens, awaited }

/-- Ends a collection. -/
def close (d : Document) (tokens : List Token) (awaited : List Awaited) : Document :=
  { d with tokens, awaited, events := .collectionEnd :: d.events }

/-- Reads the start of a node, or all of a scalar, and goes on with `awaited` behind it. Block
collections may not stand in flow collections, and a sequence may be unindented only behind a
key. -/
def node? (d : Document) (block unindented : Bool) (tokens : List Token)
    (awaited : List Awaited) : Option Document :=
  match tokens with
  | .alias name :: rest => do
    let number ← d.names.lookup name
    return { d.start none (.alias number) with tokens := rest, awaited }
  | _ => do
    let (p, tokens) := properties tokens
    let tag ← match p.tag with
      | none => some none
      | some t => (d.tagBytes? t).map fun bytes => String.fromUTF8? ⟨bytes.toArray⟩
    let scalar (style : Style) (text : List Char) (rest : List Token) : Option Document :=
      some { d.start p.anchor (.scalar { tag, style, text }) with tokens := rest, awaited }
    let collection (e : Event) (part : Awaited) (rest : List Token) : Option Document :=
      some { d.start p.anchor e with tokens := rest, awaited := part :: awaited }
    match tokens, block, unindented with
    | .blockItem :: _, _, true => collection .sequenceStart .unindentedItem tokens
    | .scalar style text :: rest, _, _ => scalar style text rest
    | .flowSequenceStart :: rest, _, _ => collection .sequenceStart (.flowItem true) rest
    | .flowMappingStart :: rest, _, _ => collection .mappingStart (.flowKey true) rest
    | .blockSequenceStart :: rest, true, _ => collection .sequenceStart .item rest
    | .blockMappingStart :: rest, true, _ => collection .mappingStart .key rest
    | _, _, _ => if p.anchor.isSome || p.tag.isSome then scalar .plain [] tokens else none

/-- Reads a node, unless one of some tokens comes next. -/
def nodeUnless? (d : Document) (block unindented : Bool) (tokens : List Token)
    (enders : List Token) (awaited : List Awaited) : Option Document :=
  if tokens.head?.any enders.contains then some (d.leaveOut tokens awaited)
  else d.node? block unindented tokens awaited

/-- The tokens behind a separator of the parts of a flow collection, which the first part does
not have. -/
def behindSeparator? (first : Bool) (tokens : List Token) : Option (List Token) :=
  match first, tokens with
  | true, _ => some tokens
  | false, .flowSeparator :: rest => some rest
  | false, _ => none

/-- Goes on with a collection; `outer` is what the collections around it go on with. -/
def resume? (d : Document) (part : Awaited) (outer : List Awaited) : Option Document :=
  let again := part :: outer
  match part with
  | .item =>
    match d.tokens with
    | .blockItem :: rest => d.nodeUnless? true false rest [.blockItem, .blockEnd] again
    | .blockEnd :: rest => some (d.close rest outer)
    | _ => none
  | .unindentedItem =>
    match d.tokens with
    | .blockItem :: rest =>
      d.nodeUnless? true false rest [.blockItem, .key, .value, .blockEnd] again
    | _ => some (d.close d.tokens outer)
  | .key =>
    match d.tokens with
    | .key :: rest =>
      d.nodeUnless? true true rest [.key, .value, .blockEnd] (.value :: outer)
    | .blockEnd :: rest => some (d.close rest outer)
    | _ => none
  | .value =>
    let next := .key :: outer
    match d.tokens with
    | .value :: rest => d.nodeUnless? true true rest [.key, .value, .blockEnd] next
    | tokens => some (d.leaveOut tokens next)
  | .flowItem first =>
    let next := .flowItem false :: outer
    match d.tokens with
    | .flowSequenceEnd :: rest => some (d.close rest outer)
    | tokens => do
      match ← behindSeparator? first tokens with
      | .key :: rest =>
        some { d.start none .mappingStart with tokens := rest, awaited := .pairKey :: next }
      | .flowSequenceEnd :: rest => some (d.close rest outer)
      | tokens => d.node? false false tokens next
  | .pairKey =>
    let next := .pairValue :: outer
    if d.tokens.head?.any [.value, .flowSeparator, .flowSequenceEnd].contains then
      some (d.leaveOut (d.tokens.drop 1) next)
    else d.node? false false d.tokens next
  | .pairValue =>
    let next := .pairEnd :: outer
    match d.tokens with
    | .value :: rest =>
      d.nodeUnless? false false rest [.flowSeparator, .flowSequenceEnd] next
    | tokens => some (d.leaveOut tokens next)
  | .pairEnd => some (d.close d.tokens outer)
  | .flowKey first =>
    match d.tokens with
    | .flowMappingEnd :: rest => some (d.close rest outer)
    | tokens => do
      match ← behindSeparator? first tokens with
      | .key :: rest =>
        d.nodeUnless? false false rest [.value, .flowSeparator, .flowMappingEnd]
          (.flowValue true :: outer)
      | .flowMappingEnd :: rest => some (d.close rest outer)
      | tokens => d.node? false false tokens (.flowValue false :: outer)
  | .flowValue given =>
    let next := .flowKey false :: outer
    match given, d.tokens with
    | true, .value :: rest =>
      d.nodeUnless? false false rest [.flowSeparator, .flowMappingEnd] next
    | _, tokens => some (d.leaveOut tokens next)

/-- Reads on until no collection is open. -/
def finish? : Nat → Document → Option Document
  | 0, _ => none
  | fuel + 1, d =>
    match d.awaited with
    | [] => some d
    | part :: outer => (d.resume? part outer).bind (finish? fuel)

/-- Takes in the directives in front of a document. The version is 1.1 or 1.2, and neither it nor
a handle is given twice. -/
def takeDirectives? (d : Document) (versioned : Bool) : List Token → Option Document
  | .directive (.version major minor) :: rest =>
    if versioned || major ≠ 1 || (minor ≠ 1 && minor ≠ 2) then none
    else takeDirectives? d true rest
  | .directive (.handle name stem) :: rest =>
    if (d.handles.lookup name).isSome then none
    else takeDirectives? { d with handles := (name, stem) :: d.handles } versioned rest
  | tokens => some { d with tokens }

end Document

/-- The handles that every document may use. -/
def standardHandles : List (String × Bytes) :=
  [("!", [33]), ("!!", "tag:yaml.org,2002:".toUTF8.toList)]

/-- The tokens of a document without the directives and the marker in front of it, which stand
together or not at all. Says whether they do. -/
def Document.ofTokens? (tokens : List Token) : Option (Bool × Document) :=
  match tokens with
  | .directive _ :: _ => marked
  | .documentStart :: _ => marked
  | _ => some (false, { tokens, handles := standardHandles })
where
  marked : Option (Bool × Document) := do
    let d ← takeDirectives? { tokens := [] } false tokens
    match d.tokens with
    | .documentStart :: rest =>
      some (true, { d with tokens := rest, handles := d.handles ++ standardHandles })
    | _ => none

/-- Whether the document that starts with a marker is empty. -/
def endsDocument : List Token → Bool
  | [] => true
  | .directive _ :: _ => true
  | .documentStart :: _ => true
  | .documentEnd :: _ => true
  | _ => false

/-- Reads the only document of a row of tokens. -/
def Document.read? (tokens : List Token) : Option Document :=
  if tokens.isEmpty then some { tokens }
  else do
    let (marked, d) ← ofTokens? tokens
    let d ←
      if marked && endsDocument d.tokens then some (d.leaveOut d.tokens [])
      else d.node? true false d.tokens []
    let d ← d.finish? (8 * tokens.length + 16)
    if d.tokens.all (· = .documentEnd) then some d else none

end Geocast.Yaml
