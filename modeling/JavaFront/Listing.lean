import JavaFront.Listing.Declarations
import JavaFront.Listing.Json
import JavaFront.Listing.Outline

/-!
# Formats of trees

The ways to write a tree: as JSON, as an outline or as the listing of its
declarations.
-/

namespace JavaFront

/-- A way to write a tree. -/
inductive Format where
  | json | outline | declarations
deriving DecidableEq, Repr

namespace Format

/-- The name by which a format is asked for. -/
def name : Format → String
  | .json => "json"
  | .outline => "tree"
  | .declarations => "decls"

/-- All formats. -/
def all : List Format :=
  [.json, .outline, .declarations]

/-- The format of a name. -/
def ofName? (name : Bytes) : Option Format :=
  all.find? fun format => Bytes.ofString format.name = name

/-- The message for a name that no format has. -/
def unknownMessage (name : Bytes) : Bytes :=
  Bytes.ofString "unknown format " ++ name.quoted

/-- Writes an optional tree. Without one there is nothing to write, except in
JSON, which has a word for it. -/
def write (format : Format) (file : Bytes) (positions : Bool) (tree : Option Node) : Bytes :=
  match format with
  | .json => Listing.Json.document tree
  | .outline => (tree.map fun node => node.outline file positions).getD []
  | .declarations => (tree.map Node.declarationLines).getD []

end Format

end JavaFront
