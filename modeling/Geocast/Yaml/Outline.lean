import Geocast.Yaml.Document

/-!
# Outlines

What a reader of settings needs of a document: whether it is a mapping, and which scalars its
entries are made of. What lies deeper is passed over, but it has to be well-formed.
-/

namespace Geocast.Yaml

/-- A document as its outermost node shows it. -/
inductive Outline
  /-- There is no document at all. -/
  | nothing
  | scalar (s : Scalar)
  | sequence
  /-- The entries of a mapping; a key or value that is a collection is left open. -/
  | mapping (entries : List (Option Scalar × Option Scalar))
deriving Repr

/-- The scalar that a name stands for, if it stands for one. -/
def Document.resolve (d : Document) (number : Nat) : Option Scalar :=
  (d.named.lookup number).join

/-- The nodes of a collection, from the events behind its start. `depth` collections within it
are open. -/
def Document.parts (d : Document) : (depth : Nat) → List Event → List (Option Scalar)
  | _, [] => []
  | 0, .scalar s :: rest => some s :: d.parts 0 rest
  | 0, .alias n :: rest => d.resolve n :: d.parts 0 rest
  | 0, .collectionEnd :: _ => []
  | depth + 1, .collectionEnd :: rest => d.parts depth rest
  | 0, _ :: rest => none :: d.parts 1 rest
  | depth + 1, .sequenceStart :: rest => d.parts (depth + 2) rest
  | depth + 1, .mappingStart :: rest => d.parts (depth + 2) rest
  | depth + 1, _ :: rest => d.parts (depth + 1) rest

/-- The entries of a mapping from its keys and values in turn. -/
def pairs {α : Type} : List α → List (α × α)
  | k :: v :: rest => (k, v) :: pairs rest
  | _ => []

/-- The outline of a document. -/
def Document.outline (d : Document) : Outline :=
  match d.events.reverse with
  | [] => .nothing
  | .scalar s :: _ => .scalar s
  | .mappingStart :: rest => .mapping (pairs (d.parts 0 rest))
  | _ => .sequence

/-- The outline of the only document of a text; `none` if the text is malformed. -/
def Outline.ofText? (text : String) : Option Outline := do
  let d ← Document.read? (← Token.ofText? text)
  return d.outline

end Geocast.Yaml
