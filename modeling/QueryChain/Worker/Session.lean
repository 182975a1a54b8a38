import QueryChain.Worker.Cache

/-!
# Sessions

A session is a script of steps on a worker: compilers are built and used, counters are read, sinks
are put in force around further steps, and other workers run scripts of their own.

## Main definitions

* `Step`, `Reply`: the steps of a script and their answers
* `Session`: the state that steps act on
* `Step.run`, `Session.runAll`: the answers of steps
-/

namespace QueryChain

/-- A step of a script. -/
inductive Step where
  /-- Builds a compiler and keeps it for the session. -/
  | build (extensions : List OperationSet) (passes : List Pass)
  /-- Compiles with the session's compiler. A pass that breaks off is caught here. -/
  | compile (e : Expr)
  /-- Compiles with the worker's own compiler. -/
  | compileShared (e : Expr)
  /-- Installs extensions for all workers. -/
  | install (sets : List OperationSet)
  /-- Asks for the worker's own compiler. -/
  | acquire
  /-- Asks how many compilers were built for workers. -/
  | builds
  /-- Asks for the counters. -/
  | report
  /-- Sets the counters to zero. -/
  | reset
  /-- Runs steps under a new sink, and catches an interruption within them. -/
  | observe (steps : List Step)
  /-- Interrupts the steps of the innermost sink. -/
  | interrupt
  /-- Runs steps on a new worker and waits for it. -/
  | fork (steps : List Step)

/-- The answer to a step. -/
inductive Reply where
  | built (entries : Nat) (passes : List String)
  | compiled (outcome : Except Stop Model)
  /-- A failure as it is seen from inside. -/
  | failed (e : CompileError)
  /-- A failure as a host sees it. -/
  | refused (e : CompileError)
  | compiledShared (m : Model)
  | done
  /-- The entries of the compiler, and whether it is the one that was asked for before. -/
  | acquired (entries : Nat) (same : Option Bool)
  | builds (worker total : Nat)
  | counters (c : Counters)
  | observed (events : List Event) (replies : List Reply) (interrupted : Bool)
  | forked (replies : List Reply)
  /-- The session has no compiler. -/
  | noCompiler

/-- The state of a script on one worker. -/
structure Session where
  pool : Pool
  worker : Worker
  /-- The compiler that the session has built. -/
  compiler : Option Compiler
  /-- Which of the worker's compilers was asked for last, by the number of its build. -/
  lastAcquired : Option Nat
  /-- The number of sinks put in force so far. -/
  sinks : Nat

namespace Session

/-- A script on a new worker of a pool. -/
def start (p : Pool) : Session where
  pool := p
  worker := .fresh
  compiler := none
  lastAcquired := none
  sinks := 0

/-- Reports events of the worker. -/
def report (s : Session) (events : List Event) : Session :=
  { s with worker := s.worker.report events }

/-- Builds a compiler for the session. A failed build leaves the previous one in place. -/
def build (s : Session) (extensions : List OperationSet) (passes : List Pass) : Reply × Session :=
  match Compiler.build extensions passes with
  | .ok c =>
    (.built c.registry.size (passes.map Pass.name),
      { s.report [.compilerBuilt] with compiler := some c })
  | .error e => (.failed e, s)

/-- Compiles with the session's compiler. -/
def compile (s : Session) (e : Expr) : Reply × Session :=
  match s.compiler with
  | none => (.noCompiler, s)
  | some c => (.compiled (c.compile e), s.report (c.events e))

/-- The compiler of the worker. -/
def acquire (s : Session) : Except CompileError Compiler × Session :=
  match s.worker.acquire s.pool with
  | (outcome, w, p) => (outcome, { s with worker := w, pool := p })

/-- Compiles with the compiler of the worker. -/
def compileShared (s : Session) (e : Expr) : Reply × Session :=
  match s.acquire with
  | (.error err, s) => (.refused err, s)
  | (.ok c, s) =>
    let s := s.report (c.events e)
    match c.compile e with
    | .ok m => (.compiledShared m, s)
    | .error (.fault err) => (.refused err, s)
    | .error .crash => (.compiled (.error .crash), s)

/-- Asks for the compiler of the worker, and compares it with the one asked for before. -/
def acquireReply (s : Session) : Reply × Session :=
  match s.acquire with
  | (.error e, s) => (.failed e, s)
  | (.ok c, s) =>
    (.acquired c.registry.size (s.lastAcquired.map (· == s.worker.builds)),
      { s with lastAcquired := some s.worker.builds })

/-- Installs extensions for all workers. -/
def install (s : Session) (sets : List OperationSet) : Reply × Session :=
  match s.pool.install sets with
  | .ok p => (.done, { s with pool := p })
  | .error e => (.refused e, s)

/-- The session with another sink in force. -/
def enterSink (s : Session) : Session :=
  { s with worker := { s.worker with meter := s.worker.meter.enter s.sinks }, sinks := s.sinks + 1 }

/-- The session after the scope of a sink, with what was in force before. -/
def leaveSink (s : Session) (previous : Option SinkId) : Session :=
  { s with worker := { s.worker with meter := s.worker.meter.leave previous } }

/-- Sets the counters to zero. -/
def reset (s : Session) : Session :=
  { s with worker := { s.worker with meter := s.worker.meter.reset } }

end Session

mutual

/-- The answer to a step, or none if the step breaks off the steps around it. -/
def Step.run (s : Session) : Step → Option Reply × Session
  | .build extensions passes => let (r, s) := s.build extensions passes; (some r, s)
  | .compile e => let (r, s) := s.compile e; (some r, s)
  | .compileShared e => let (r, s) := s.compileShared e; (some r, s)
  | .install sets => let (r, s) := s.install sets; (some r, s)
  | .acquire => let (r, s) := s.acquireReply; (some r, s)
  | .builds => (some (.builds s.worker.builds s.pool.totalBuilds), s)
  | .report => (some (.counters s.worker.meter.counters), s)
  | .reset => (some .done, s.reset)
  | .observe steps =>
    let (replies, interrupted, after) := Step.runAll s.enterSink steps
    (some (.observed (after.worker.meter.received s.sinks) replies interrupted),
      after.leaveSink s.worker.meter.override)
  | .interrupt => (none, s)
  | .fork steps =>
    let (replies, _, after) := Step.runAll (.start s.pool) steps
    (some (.forked replies), { s with pool := after.pool })

/-- The answers to steps up to an interruption, and whether there was one. -/
def Step.runAll (s : Session) : List Step → List Reply × Bool × Session
  | [] => ([], false, s)
  | step :: steps =>
    match Step.run s step with
    | (none, after) => ([], true, after)
    | (some reply, after) =>
      let (replies, interrupted, last) := Step.runAll after steps
      (reply :: replies, interrupted, last)

end

/-- The answers to a script on a new worker of a pool. -/
def Pool.runScript (p : Pool) (steps : List Step) : List Reply :=
  (Step.runAll (.start p) steps).1

end QueryChain
