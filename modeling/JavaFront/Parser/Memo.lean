import JavaFront.Grammar.Phrase
import JavaFront.Parser.Failure
import Std.Data.TreeMap

/-!
# The memo table

Rules that are tried before they are read for good keep their outcome by token
index, so that the second reading is a look-up. An outcome holds the parts that
were built, or none for a failure, the index behind them, and the failures met
on the way, so that a look-up tells the same story as a fresh run.
-/

namespace JavaFront

/-- The rules whose outcomes are kept. -/
inductive Memo.Slot where
  | type | typeArguments | cast | lambda | localVarHead | genericRef
deriving DecidableEq, Repr

namespace Memo.Slot

/-- The place of a slot among the slots. -/
def index : Slot → Nat
  | .type => 0
  | .typeArguments => 1
  | .cast => 2
  | .lambda => 3
  | .localVarHead => 4
  | .genericRef => 5

/-- The name of a slot. -/
def name : Slot → String
  | .type => "type"
  | .typeArguments => "typeArguments"
  | .cast => "cast"
  | .lambda => "lambda"
  | .localVarHead => "localVarHead"
  | .genericRef => "genericRef"

/-- The slot of a rule whose outcomes are kept. -/
def of? : Rule → Option Slot
  | .type => some .type
  | .typeArguments => some .typeArguments
  | .castHead => some .cast
  | .lambdaHead => some .lambda
  | .localVarHead => some .localVarHead
  | .genericRefHead => some .genericRef
  | _ => none

end Memo.Slot

/-- A slot and a token index. A word of 32 bits is enough for the index in texts of
fewer than 2 ^ 32 bytes, which have no more tokens. -/
structure Memo.Key where
  slot : Memo.Slot
  pos : Nat
deriving DecidableEq, Repr

/-- Keys are ordered by slot, then by index. -/
instance : Ord Memo.Key where
  compare := compareLex (compareOn (·.slot.index)) (compareOn (·.pos))

/-- What became of a rule at an index: the parts it built, latest first, unless
it failed, the index behind them and the failures on the way. -/
structure Memo.Outcome where
  parts? : Option (List Node)
  stop : Nat
  furthest : Failure
deriving Repr

/-- Outcomes by key, with the number of look-ups that found one and of those
that did not. -/
structure Memo where
  table : Std.TreeMap Memo.Key Memo.Outcome := {}
  hits : Nat := 0
  misses : Nat := 0

namespace Memo

/-- Looks a key up and counts the look-up. -/
def get (memo : Memo) (key : Key) : Option Outcome × Memo :=
  match memo.table[key]? with
  | some outcome => (some outcome, { memo with hits := memo.hits + 1 })
  | none => (none, { memo with misses := memo.misses + 1 })

/-- Keeps an outcome. -/
def put (memo : Memo) (key : Key) (outcome : Outcome) : Memo :=
  { memo with table := memo.table.insert key outcome }

/-- The number of outcomes kept. -/
def size (memo : Memo) : Nat :=
  memo.table.size

end Memo

end JavaFront
