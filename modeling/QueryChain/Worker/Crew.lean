import QueryChain.Worker.Cache

/-!
# Workers side by side

A call for a worker's compiler is not one step: the worker looks whether it keeps a compiler, closes
the list of extensions, builds, counts the build for itself and for the pool, and keeps what it has
built. The steps of several workers may come in any order, and extensions may be installed at any
moment.

## Main definitions

* `Phase`, `Caller`, `Caller.step`: a worker in the course of a call, and the next step of the call
* `Caller.runCall`: the steps of a call without interruption
* `Crew`, `Action`, `Crew.act`: a pool with its workers, and one step of any of them
* `Crew.after`: the steps of a schedule
-/

namespace QueryChain

/-- How far a worker has come in a call for its compiler. -/
inductive Phase where
  /-- Between calls. -/
  | idle
  /-- No compiler is kept; the next step begins a build. -/
  | vacant
  /-- The list of extensions is closed; the next step builds with those in force. -/
  | closed (extensions : List OperationSet)
  /-- A compiler is built. -/
  | built (c : Compiler)
  /-- The worker has counted the build, and the pool has not. -/
  | counted (c : Compiler)
  /-- The pool has counted the build; the compiler is still to be kept. -/
  | tallied (c : Compiler)

/-- A worker in the course of its calls. -/
structure Caller where
  worker : Worker
  phase : Phase

namespace Caller

/-- The next step of a call, or the first one of a new call: the answer if the call ends here, the
worker after the step, and the pool. -/
def step (k : Caller) (p : Pool) : Option (Except CompileError Compiler) × Caller × Pool :=
  match k.phase with
  | .idle =>
    match k.worker.compiler with
    | some c => (some (.ok c), k, p)
    | none => (none, ⟨k.worker, .vacant⟩, p)
  | .vacant => (none, ⟨k.worker, .closed p.close.extensionsInForce⟩, p.close)
  | .closed extensions =>
    match Compiler.build extensions Pass.standard with
    | .error e => (some (.error e), ⟨k.worker, .idle⟩, p)
    | .ok c => (none, ⟨k.worker.report [.compilerBuilt], .built c⟩, p)
  | .built c => (none, ⟨k.worker.countBuild, .counted c⟩, p)
  | .counted c => (none, ⟨k.worker, .tallied c⟩, p.countBuild)
  | .tallied c => (some (.ok (k.worker.compiler.getD c)), ⟨k.worker.fill c, .idle⟩, p)

/-- Up to a number of steps of a call, without interruption and until the call is answered. -/
def runCall : Nat → Caller → Pool → Option (Except CompileError Compiler) × Caller × Pool
  | 0, k, p => (none, k, p)
  | n + 1, k, p =>
    match k.step p with
    | (none, k, p) => runCall n k p
    | answered => answered

end Caller

/-- A step of someone: of a worker in its call, or of someone who installs extensions. -/
inductive Action (ι : Type) where
  | advance (w : ι)
  | install (sets : List OperationSet)

/-- A pool and its workers. -/
structure Crew (ι : Type) where
  pool : Pool
  callers : ι → Caller

namespace Crew

variable {ι : Type} [DecidableEq ι]

/-- Nothing has been installed, and no worker has called for its compiler. -/
def fresh : Crew ι :=
  ⟨.fresh, fun _ => ⟨.fresh, .idle⟩⟩

/-- The crew with another state of one worker. -/
def setCaller (s : Crew ι) (w : ι) (k : Caller) : Crew ι :=
  { s with callers := fun v => if v = w then k else s.callers v }

/-- The crew after a step. Extensions that are refused change nothing. -/
def act (s : Crew ι) : Action ι → Crew ι
  | .advance w =>
    match (s.callers w).step s.pool with
    | (_, k, p) => { s.setCaller w k with pool := p }
  | .install sets =>
    match s.pool.install sets with
    | .ok p => { s with pool := p }
    | .error _ => s

/-- The crew after the steps of a schedule. -/
def after (s : Crew ι) (schedule : List (Action ι)) : Crew ι :=
  schedule.foldl act s

end Crew

end QueryChain
