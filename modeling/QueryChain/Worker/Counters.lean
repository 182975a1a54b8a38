import QueryChain.Compile.Basic

/-!
# Counters

What a worker has compiled so far, in numbers.

## Main definitions

* `Counters`: the numbers
* `Counters.record`, `Counters.recordAll`: the numbers after events
-/

namespace QueryChain

/-- Numbers of compilations and of what they produced. -/
structure Counters where
  compilesStarted : Nat
  compilesFinished : Nat
  compilesFailed : Nat
  clausesEmitted : Nat
  settledRuns : Nat
  roundsTotal : Nat
  roundsMax : Nat
  compilersBuilt : Nat
  /-- Failed compilations by class. -/
  failures : ErrorClass → Nat

namespace Counters

/-- Nothing has happened. -/
def zero : Counters where
  compilesStarted := 0
  compilesFinished := 0
  compilesFailed := 0
  clausesEmitted := 0
  settledRuns := 0
  roundsTotal := 0
  roundsMax := 0
  compilersBuilt := 0
  failures _ := 0

/-- The numbers after an event. -/
def record (c : Counters) : Event → Counters
  | .compileStart => { c with compilesStarted := c.compilesStarted + 1 }
  | .compileFinish clauses =>
    { c with compilesFinished := c.compilesFinished + 1
             clausesEmitted := c.clausesEmitted + clauses }
  | .compileFailed cls =>
    { c with compilesFailed := c.compilesFailed + 1
             failures := fun k => if k = cls then c.failures k + 1 else c.failures k }
  | .settled rounds =>
    { c with settledRuns := c.settledRuns + 1
             roundsTotal := c.roundsTotal + rounds
             roundsMax := max c.roundsMax rounds }
  | .compilerBuilt => { c with compilersBuilt := c.compilersBuilt + 1 }

/-- The numbers after several events. -/
def recordAll (c : Counters) (events : List Event) : Counters :=
  events.foldl record c

@[simp] theorem recordAll_nil (c : Counters) : c.recordAll [] = c := rfl

@[simp] theorem recordAll_cons (c : Counters) (e : Event) (events : List Event) :
    c.recordAll (e :: events) = (c.record e).recordAll events := rfl

end Counters

/-- The classes of errors. -/
def ErrorClass.all : List ErrorClass :=
  [unsupported, invalid, evaluation, conflict, invariantViolation]

/-- The classes that failed at least once, with how often they did. -/
def Counters.failureCounts (c : Counters) : List (ErrorClass × Nat) :=
  (ErrorClass.all.map fun k => (k, c.failures k)).filter (0 < ·.2)

end QueryChain
