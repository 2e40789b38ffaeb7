import Geocast.Yaml.Scalar.Block
import Geocast.Yaml.Tag

/-!
# The parts of a text

A text is a row of tokens: scalars, names and tags as they are written, the brackets and separators
of flow collections, and the starts, separators and ends that the indentation of block collections
stands for.
-/

namespace Geocast.Yaml

/-- The smallest part of a text with a meaning. -/
inductive Token
  | directive (d : Directive)
  | documentStart
  | documentEnd
  | blockSequenceStart
  | blockMappingStart
  | blockEnd
  | flowSequenceStart
  | flowSequenceEnd
  | flowMappingStart
  | flowMappingEnd
  | blockItem
  | flowSeparator
  | key
  | value
  | alias (name : String)
  | anchor (name : String)
  | tag (t : WrittenTag)
  | scalar (style : Style) (text : List Char)
deriving DecidableEq, Repr, Inhabited

end Geocast.Yaml
