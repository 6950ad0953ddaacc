import JavaFront.Text.Bytes

/-!
# Problems with a YAML text

What is wrong with a text is told with the line at which the construct that went
wrong starts, unless that is the first line. Then the line counts at which the
problem was met, unless that is the first line too.
-/

namespace JavaFront.Yaml

/-- A place in a text; everything counts from zero. -/
structure Mark where
  index : Nat := 0
  line : Nat := 0
  column : Nat := 0
deriving DecidableEq, Repr

/-- What is wrong with a text, and the line to tell; zero tells none. -/
structure Problem where
  line : Nat := 0
  text : Bytes
deriving DecidableEq, Repr

namespace Problem

/-- The wording of a problem. -/
def message (problem : Problem) : Bytes :=
  let place : Bytes :=
    if problem.line = 0 then []
    else Bytes.ofString "line " ++ Bytes.ofNat problem.line ++ Bytes.ofString ": "
  Bytes.ofString "yaml: " ++ place ++ problem.text

/-- A problem with the spelling of a token that starts at one place, met at
another one. -/
def spelling (start met : Mark) (text : Bytes) : Problem :=
  { line := if start.line ≠ 0 then start.line + 1 else if met.line ≠ 0 then met.line + 1 else 0
    text }

/-- A problem with the order of tokens in a construct that starts at one place,
met at another one. -/
def order (start met : Mark) (text : Bytes) : Problem :=
  { line := if start.line ≠ 0 then start.line else met.line
    text }

/-- What to tell if a text has more parts than its length allows, which no text
has. -/
def unknown : Problem :=
  { text := "unknown problem parsing YAML content" }

end Problem

end JavaFront.Yaml
