import JavaFront.Yaml.Tag

/-!
# Tokens of a YAML text

The tokens of a text are its indicators and scalars and, for collections shown
by indentation alone, marks where they start and end.
-/

namespace JavaFront.Yaml

/-- The ways to write a scalar that differ in what they can mean. -/
inductive Style where
  | plain | quoted
deriving DecidableEq, Repr

/-- A token without its place. -/
inductive Token.Kind where
  | streamStart | streamEnd
  | directive (directive : Directive)
  | documentStart | documentEnd
  | blockSequence | blockMapping | blockEnd
  | sequenceStart | sequenceEnd | mappingStart | mappingEnd
  | blockEntry | flowEntry | key | value
  | alias (name : List Char)
  | anchor (name : List Char)
  | tag (handle suffix : Bytes)
  | scalar (text : List Char) (style : Style)
deriving DecidableEq, Repr

/-- A token and the places where it starts and stops. -/
structure Token where
  kind : Token.Kind
  start : Mark
  stop : Mark
deriving DecidableEq, Repr

end JavaFront.Yaml
