import QueryChain.Pass.Fold
import QueryChain.Pass.Normalize

/-!
# The pipeline of passes

All passes are run in order, round after round, until a round changes nothing.

## Main definitions

* `Pass.standard`: partial evaluation, then normalization
* `Round`, `runRound`: one round of passes
* `Settled`, `settle`: the first round that changes nothing
* `maxRounds`: the number of rounds after which the passes are given up
-/

namespace QueryChain

/-- Partial evaluation, then normalization by all rules. -/
def Pass.standard : List Pass :=
  [Pass.fold .allowAll, Pass.normalize Rule.standard]

/-- The result of a round: the tree, and the last pass that changed it. -/
structure Round where
  tree : Expr
  lastChange : Option String

/-- Runs the passes in order, each on the result of the one before it. -/
def runRound : List Pass → Expr → Except Stop Round
  | [], e => .ok ⟨e, none⟩
  | p :: ps, e =>
    match p.apply e with
    | .error stop => .error stop
    | .ok (.shared _) => runRound ps e
    | .ok (.changed next) =>
      match runRound ps next with
      | .error stop => .error stop
      | .ok r => .ok ⟨r.tree, r.lastChange.or (some p.name)⟩

/-- The number of rounds after which the passes are taken not to end. -/
def maxRounds : Nat := 16

/-- A tree that a round of passes leaves alone, and the number of that round. -/
structure Settled where
  edit : Edit
  rounds : Nat

/-- Runs up to `left` further rounds on the tree that an edit leads to, after `done` rounds of which
the last change was made by the named pass. -/
def settleFrom (passes : List Pass) : (left done : Nat) → Edit → String → Except Stop Settled
  | 0, done, _, last => .error (.fault (.noFixedPoint last done))
  | left + 1, done, edit, _ =>
    match runRound passes edit.tree with
    | .error stop => .error stop
    | .ok ⟨_, none⟩ => .ok ⟨edit, done + 1⟩
    | .ok ⟨tree, some pass⟩ => settleFrom passes left (done + 1) (.changed tree) pass

/-- Runs rounds of passes until one changes nothing. -/
def settle (passes : List Pass) (e : Expr) : Except Stop Settled :=
  settleFrom passes maxRounds 0 (.shared e) ""

end QueryChain
