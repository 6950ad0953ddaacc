import JavaFront.Text.Bytes

/-!
# Paths

A path is a list of names with slashes between them. Paths are compared and
joined by their spelling alone: cleaning a path removes what does not change
its meaning as long as no link is on the way.
-/

namespace JavaFront.Path

/-- The byte between the names of a path. -/
abbrev slash : UInt8 := 0x2f

/-- The name of the directory itself. -/
def here : Bytes := "."

/-- The name of the directory above. -/
def above : Bytes := ".."

/-- The path starts at the top of the tree. -/
def isAbsolute (path : Bytes) : Bool :=
  path.head? = some slash

/-- The names of a path in order. Slashes in a row and at the end give empty
names. -/
def names (path : Bytes) : List Bytes :=
  path.splitOn slash

/-- Adds a name to the reversed names of a clean path. A step up removes the
name before it, unless that is a step up too; above the top there is nothing. -/
def step (absolute : Bool) (reversed : List Bytes) (name : Bytes) : List Bytes :=
  if name.isEmpty || name = here then reversed
  else if name ≠ above then name :: reversed
  else
    match reversed with
    | [] => if absolute then [] else [above]
    | last :: others => if last = above then above :: reversed else others

/-- The shortest spelling of a path. -/
def clean (path : Bytes) : Bytes :=
  let absolute := isAbsolute path
  let kept := (((names path).foldl (step absolute) []).reverse)
  let spelled := Bytes.join [slash] kept
  if absolute then slash :: spelled else if kept.isEmpty then here else spelled

/-- The path of a name in a directory. -/
def join (directory name : Bytes) : Bytes :=
  clean (directory ++ slash :: name)

end JavaFront.Path
