import QueryChain.Worker.Meter

/-!
# Code that reports events

Code on a worker may put a sink in force for a block of code, compile trees, and be broken off at any
point. What has to be put right in the end is held by frames on a stack: a guard remembers the sink that
was in force before a block, and a span stands for a compilation that has not yet reported its outcome.
Frames are let go of one by one, whether the code above them has ended or is broken off.

## Main definitions

* `Code`: the code of a worker, as far as it reports events
* `Frame`, `Frame.drop`: what is on the stack, and what letting go of it does
* `Control`, `Machine`: what the worker is doing, with its meter and its stack
* `Machine.step`: the next step
-/

namespace QueryChain

/-- Code of a worker, as far as it reports events. -/
inductive Code where
  /-- Reports an event. -/
  | record (event : Event)
  /-- Builds a compiler. -/
  | build (extensions : List OperationSet) (passes : List Pass)
  /-- Compiles a tree. -/
  | compile (c : Compiler) (e : Expr)
  /-- Sets the counters to zero. -/
  | reset
  /-- Runs code with a sink in force. -/
  | observe (sink : SinkId) (body : List Code)
  /-- Breaks off the code around it. -/
  | interrupt
  /-- Runs code, and goes on after it if it is broken off. -/
  | attempt (body : List Code)

/-- What is on the stack of a worker. -/
inductive Frame where
  /-- Code to go on with. -/
  | block (rest : List Code)
  /-- Puts back the sink that was in force before. -/
  | guard (previous : Option SinkId)
  /-- A compilation that has not reported its outcome. -/
  | span
  /-- Stops code from being broken off any further. -/
  | handler

namespace Frame

/-- Lets go of a frame. A span without an outcome reports a defect of the compiler. -/
def drop : Frame → Meter → Meter
  | block _, m => m
  | guard previous, m => m.leave previous
  | span, m => m.record (.compileFailed .invariantViolation)
  | handler, m => m

/-- The code to go on with after the frame. -/
def rest : Frame → List Code
  | block rest => rest
  | _ => []

end Frame

/-- What a worker is doing. -/
inductive Control where
  /-- Runs code, item by item. -/
  | running (code : List Code)
  /-- Compiles, with up to `left` further rounds of passes on the tree that an edit leads to, after
  `done` rounds of which the last change was made by the named pass. -/
  | settling (c : Compiler) (left done : Nat) (edit : Edit) (last : String)
  /-- Compiles, and has a settled tree. -/
  | recognising (c : Compiler) (tree : Expr)
  /-- Compiles, and has an outcome to report. -/
  | returning (outcome : Except CompileError Model)
  /-- Is broken off. -/
  | unwinding

/-- Where a worker goes on when it is broken off and has let go of the frame. -/
def Frame.landing : Frame → Control
  | handler => .running []
  | _ => .unwinding

/-- The report of a compilation that has come to an outcome. -/
def Event.ofOutcome : Except CompileError Model → Event
  | .ok m => .compileFinish m.clauses.length
  | .error err => .compileFailed err.errorClass

/-- A worker in the course of its code. -/
structure Machine where
  meter : Meter
  control : Control
  stack : List Frame

namespace Machine

/-- Begins with an item of code; `rest` is the code after it. -/
def start (m : Meter) (rest : List Code) (stack : List Frame) : Code → Machine
  | .record event => ⟨m.record event, .running rest, stack⟩
  | .build extensions passes =>
    match Compiler.build extensions passes with
    | .ok _ => ⟨m.record .compilerBuilt, .running rest, stack⟩
    | .error _ => ⟨m, .running rest, stack⟩
  | .compile c e =>
    ⟨m.record .compileStart, .settling c maxRounds 0 (.shared e) "", .span :: .block rest :: stack⟩
  | .reset => ⟨m.reset, .running rest, stack⟩
  | .observe sink body => ⟨m.enter sink, .running body, .guard m.override :: .block rest :: stack⟩
  | .interrupt => ⟨m, .unwinding, stack⟩
  | .attempt body => ⟨m, .running body, .handler :: .block rest :: stack⟩

/-- Runs a round of passes. The round that changes nothing is reported. -/
def round (m : Meter) (stack : List Frame) (c : Compiler) :
    (left done : Nat) → Edit → String → Machine
  | 0, done, _, last => ⟨m, .returning (.error (.noFixedPoint last done)), stack⟩
  | left + 1, done, edit, _ =>
    match runRound c.passes edit.tree with
    | .error .crash => ⟨m, .unwinding, stack⟩
    | .error (.fault err) => ⟨m, .returning (.error err), stack⟩
    | .ok ⟨_, none⟩ => ⟨m.record (.settled (done + 1)), .recognising c edit.tree, stack⟩
    | .ok ⟨tree, some pass⟩ => ⟨m, .settling c left (done + 1) (.changed tree) pass, stack⟩

/-- The next step; none if the code has ended, or is broken off and nothing is left on the stack. -/
def step : Machine → Option Machine
  | ⟨m, .running (code :: rest), stack⟩ => some (start m rest stack code)
  | ⟨m, .running [], frame :: stack⟩ => some ⟨frame.drop m, .running frame.rest, stack⟩
  | ⟨m, .settling c left done edit last, stack⟩ => some (round m stack c left done edit last)
  | ⟨m, .recognising c tree, stack⟩ => some ⟨m, .returning (c.registry.recognise tree), stack⟩
  | ⟨m, .returning outcome, .span :: stack⟩ =>
    some ⟨m.record (.ofOutcome outcome), .running [], stack⟩
  -- code that is broken off lets go of its frames as code that has ended does
  | ⟨m, .unwinding, frame :: stack⟩ => some ⟨frame.drop m, frame.landing, stack⟩
  | _ => none

end Machine

end QueryChain
