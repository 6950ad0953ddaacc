/-!
# The furthest failure

A parse that backtracks fails in many places before it gives up. What is worth
telling is the furthest place it reached and everything that would have been
accepted there, in the order in which it was tried.
-/

namespace JavaFront

/-- The furthest token index at which a rule failed and what would have been
accepted there. Without a failure the index is minus one. -/
structure Failure where
  pos : Int := -1
  expected : List String := []
deriving DecidableEq, Repr

namespace Failure

/-- No failure so far. -/
def none : Failure := {}

/-- Adds a text at the end of a list that does not hold it yet. -/
def addText (texts : List String) (text : String) : List String :=
  if texts.contains text then texts else texts ++ [text]

/-- Records that `text` would have been accepted at an index. Failures before
the furthest one are forgotten. -/
def record (failure : Failure) (pos : Nat) (text : String) : Failure :=
  if failure.pos < pos then ⟨pos, [text]⟩
  else if failure.pos = pos then ⟨failure.pos, addText failure.expected text⟩
  else failure

/-- Records several texts at an index. -/
def recordAll (failure : Failure) (pos : Nat) (texts : List String) : Failure :=
  texts.foldl (fun failure text => failure.record pos text) failure

/-- The further of two failures; where both are equally far, what either would
have accepted, the first failure's texts first. -/
def merge (first second : Failure) : Failure :=
  if second.pos < first.pos then first
  else if first.pos < second.pos then second
  else ⟨first.pos, second.expected.foldl addText first.expected⟩

end Failure

end JavaFront
