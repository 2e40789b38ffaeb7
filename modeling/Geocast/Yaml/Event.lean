import Geocast.Yaml.Token.Lexer

/-!
# Events

A document is a row of events: its scalars, and the starts and ends of its collections in the
order in which they stand. Where a key, a value or an item is left out, there is an empty plain
scalar.
-/

namespace Geocast.Yaml

/-- The smallest part of the structure of a document. -/
inductive Event
  | scalar (s : Scalar)
  /-- The node that has a number as its name. -/
  | alias (number : Nat)
  | sequenceStart
  | mappingStart
  | collectionEnd
deriving DecidableEq, Repr, Inhabited

/-- What a collection that is not complete yet goes on with. -/
inductive Awaited
  | item
  /-- An item of a sequence that is indented no more than the key in front of it. -/
  | unindentedItem
  | key
  | value
  | flowItem (first : Bool)
  /-- The parts of a mapping that is a single item of a flow sequence. -/
  | pairKey
  | pairValue
  | pairEnd
  | flowKey (first : Bool)
  | flowValue (given : Bool)
deriving DecidableEq, Repr

/-- What stands in front of a node. -/
structure Properties where
  anchor : Option String := none
  tag : Option WrittenTag := none

/-- Reads a name and a tag, in either order. -/
def properties : List Token → Properties × List Token
  | .anchor name :: .tag t :: rest => (⟨some name, some t⟩, rest)
  | .tag t :: .anchor name :: rest => (⟨some name, some t⟩, rest)
  | .anchor name :: rest => (⟨some name, none⟩, rest)
  | .tag t :: rest => (⟨none, some t⟩, rest)
  | rest => ({}, rest)

end Geocast.Yaml
