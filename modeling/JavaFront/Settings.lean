import JavaFront.Glob
import JavaFront.Parser.State
import JavaFront.Text.Quoted

/-!
# Settings of a batch run

Which files a batch run takes in and under which limits it parses them.
Settings are valid if there is a root to start from, the limits that have to be
positive are, and every pattern is well formed.
-/

namespace JavaFront

/-- The settings of a batch run. Patterns describe paths relative to a root. A
time limit is in nanoseconds; one that is not positive does not hold. -/
structure Settings where
  roots : List Bytes := ["."]
  included : List Bytes := ["**/*.java"]
  excluded : List Bytes := []
  jobs : Int := 4
  maxDepth : Int := 1000
  maxSize : Int := 16777216
  comments : Bool := false
  unitTimeout : Int := 0
deriving DecidableEq, Repr

namespace Settings

/-- Why settings are refused. -/
inductive Fault where
  | noRoots
  | jobs (given : Int)
  | maxDepth (given : Int)
  | pattern (given : Bytes)
deriving DecidableEq, Repr

/-- The wording of a refusal. -/
def Fault.message : Fault → Bytes
  | .noRoots => "no roots given"
  | .jobs given => Bytes.ofString "jobs must be at least 1, got " ++ Bytes.ofInt given
  | .maxDepth given => Bytes.ofString "max_depth must be at least 1, got " ++ Bytes.ofInt given
  | .pattern given => Bytes.ofString "invalid pattern " ++ given.quoted

/-- The first fault of the settings. -/
def fault? (settings : Settings) (globs : Glob.Language := Glob.language) : Option Fault :=
  if settings.roots.isEmpty then some .noRoots
  else if settings.jobs < 1 then some (.jobs settings.jobs)
  else if settings.maxDepth < 1 then some (.maxDepth settings.maxDepth)
  else
    ((settings.included ++ settings.excluded).find? fun pattern => !globs.isValid pattern).map
      Fault.pattern

/-- The limits under which a unit is parsed. -/
def options (settings : Settings) : Options :=
  { maxDepth := settings.maxDepth
    maxSize := settings.maxSize
    comments := settings.comments }

end Settings

end JavaFront
