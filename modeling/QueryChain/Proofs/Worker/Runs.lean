import Mathlib.Computability.StateTransition
import QueryChain.Worker.Machine

/-!
# The runs of a worker

What code does to a meter can be read off the code: each event goes to the sink of the innermost block
around it, and what is broken off is not run. The steps of a worker, which know the sink in force and
the frames on the stack only, come to the same.

## Main definitions

* `Mark`, `Trace`: what code does to a meter
* `Code.trace`, `Code.traceAll`: the trace of code, with the sink in force around it
* `Meter.apply`, `Meter.applyAll`: the meter after marks
* `Machine.Leads`: the worker comes from one state to another

## Main results

* `Machine.leads_compile`: a compilation reports its events, whether it ends or is broken off
* `Machine.leads_code`, `Machine.leads_block`: code leaves the meter with its trace
-/

namespace QueryChain

/-! ## Traces -/

/-- What code does to a meter at one time. -/
inductive Mark where
  /-- An event goes to a sink, or to the counters. -/
  | event (target : Option SinkId) (e : Event)
  /-- The counters are set to zero. -/
  | reset
deriving DecidableEq, Repr

/-- What code does to a meter, and whether it is broken off in the end. -/
structure Trace where
  marks : List Mark
  interrupted : Bool
deriving DecidableEq, Repr

namespace Trace

/-- One trace, and then the other one unless the first is broken off. -/
def andThen (s t : Trace) : Trace :=
  if s.interrupted then s else ⟨s.marks ++ t.marks, t.interrupted⟩

theorem andThen_of_interrupted {s : Trace} (h : s.interrupted = true) (t : Trace) :
    s.andThen t = s :=
  if_pos h

theorem andThen_of_not_interrupted {s : Trace} (h : s.interrupted = false) (t : Trace) :
    s.andThen t = ⟨s.marks ++ t.marks, t.interrupted⟩ := by
  simp [andThen, h]

end Trace

/-- The compilation is broken off. -/
def Compiler.breaksOff (c : Compiler) (e : Expr) : Bool :=
  match c.compile e with
  | .error .crash => true
  | _ => false

mutual

/-- **The trace of an item of code**, with a sink in force around it or none. -/
def Code.trace (inForce : Option SinkId) : Code → Trace
  | .record e => ⟨[.event inForce e], false⟩
  | .build extensions passes =>
    match Compiler.build extensions passes with
    | .ok _ => ⟨[.event inForce .compilerBuilt], false⟩
    | .error _ => ⟨[], false⟩
  | .compile c e => ⟨(c.events e).map (.event inForce), c.breaksOff e⟩
  | .reset => ⟨[.reset], false⟩
  | .observe sink body => Code.traceAll (some sink) body
  | .interrupt => ⟨[], true⟩
  | .attempt body => ⟨(Code.traceAll inForce body).marks, false⟩

/-- The trace of a block of code. -/
def Code.traceAll (inForce : Option SinkId) : List Code → Trace
  | [] => ⟨[], false⟩
  | code :: rest => (code.trace inForce).andThen (Code.traceAll inForce rest)

end

/-! ## Marks on a meter -/

namespace Meter

/-- The meter after a mark, whatever sink is in force. -/
def apply (m : Meter) : Mark → Meter
  | .event none e => { m with counters := m.counters.record e }
  | .event (some sink) e =>
    { m with received := fun s => if s = sink then m.received s ++ [e] else m.received s }
  | .reset => m.reset

/-- The meter after marks. -/
def applyAll (m : Meter) (marks : List Mark) : Meter :=
  marks.foldl apply m

@[simp] theorem applyAll_nil (m : Meter) : m.applyAll [] = m := rfl

@[simp] theorem applyAll_cons (m : Meter) (mark : Mark) (marks : List Mark) :
    m.applyAll (mark :: marks) = (m.apply mark).applyAll marks := rfl

theorem applyAll_append (m : Meter) (marks more : List Mark) :
    m.applyAll (marks ++ more) = (m.applyAll marks).applyAll more :=
  List.foldl_append

@[simp] theorem override_apply (m : Meter) (mark : Mark) :
    (m.apply mark).override = m.override := by
  rcases mark with (_ | _) | _ <;> rfl

@[simp] theorem override_applyAll (m : Meter) (marks : List Mark) :
    (m.applyAll marks).override = m.override := by
  induction marks generalizing m with
  | nil => rfl
  | cons mark marks ih => rw [applyAll_cons, ih, override_apply]

theorem leave_apply (m : Meter) (previous : Option SinkId) (mark : Mark) :
    (m.leave previous).apply mark = (m.apply mark).leave previous := by
  rcases mark with (_ | _) | _ <;> rfl

/-- Marks say themselves where they go, so they can be made before or after a sink is put in force. -/
theorem leave_applyAll (m : Meter) (previous : Option SinkId) (marks : List Mark) :
    (m.leave previous).applyAll marks = (m.applyAll marks).leave previous := by
  induction marks generalizing m with
  | nil => rfl
  | cons mark marks ih => rw [applyAll_cons, leave_apply, ih, applyAll_cons]

/-- A sink that is put in force and taken back leaves the marks made in between. -/
theorem leave_applyAll_enter (m : Meter) (sink : SinkId) (marks : List Mark) :
    ((m.enter sink).applyAll marks).leave m.override = m.applyAll marks := by
  rw [← leave_applyAll]
  rfl

theorem record_eq (m : Meter) (e : Event) : m.record e = m.apply (.event m.override e) := by
  cases h : m.override <;> simp [record, apply, h]

theorem recordAll_eq (m : Meter) (events : List Event) :
    m.recordAll events = m.applyAll (events.map (.event m.override)) := by
  induction events generalizing m with
  | nil => rfl
  | cons e events ih =>
    have hstep : m.recordAll (e :: events) = (m.record e).recordAll events := rfl
    rw [hstep, ih, record_eq, override_apply, List.map_cons, applyAll_cons]

end Meter

/-! ## Steps -/

/-- What a worker does after code that is broken off or not; `rest` is the code after it. -/
def Control.after : (interrupted : Bool) → (rest : List Code) → Control
  | true, _ => .unwinding
  | false, rest => .running rest

namespace Machine

/-- The worker comes from the first state to the second one. -/
def Leads (s t : Machine) : Prop :=
  StateTransition.Reaches step s t

theorem Leads.refl (s : Machine) : s.Leads s :=
  Relation.ReflTransGen.refl

theorem Leads.trans {s t u : Machine} (h : s.Leads t) (h' : t.Leads u) : s.Leads u :=
  Relation.ReflTransGen.trans h h'

theorem Leads.next {s t : Machine} (h : s.step = some t) : s.Leads t :=
  Relation.ReflTransGen.single h

section Frames

variable {m : Meter} {stack : List Frame} (interrupted : Bool)

/-- A guard puts back the previous sink, also if the code is broken off. -/
theorem leads_guard (previous : Option SinkId) :
    Leads ⟨m, .after interrupted [], .guard previous :: stack⟩
      ⟨m.leave previous, .after interrupted [], stack⟩ := by
  cases interrupted <;> exact .next rfl

/-- A block with a sink in force ends with the sink put back that was in force before it. -/
theorem leads_observe {interrupted : Bool} {sink : SinkId} {body rest : List Code} {after : Meter}
    (h : Leads ⟨m.enter sink, .running body, .guard m.override :: .block rest :: stack⟩
      ⟨after, .after interrupted [], .guard m.override :: .block rest :: stack⟩) :
    Leads ⟨m, .running (.observe sink body :: rest), stack⟩
      ⟨after.leave m.override, .after interrupted [], .block rest :: stack⟩ :=
  Leads.trans (.next rfl) (h.trans (leads_guard interrupted m.override))

/-- Code is gone on with, unless it is broken off. -/
theorem leads_rest (rest : List Code) :
    Leads ⟨m, .after interrupted [], .block rest :: stack⟩ ⟨m, .after interrupted rest, stack⟩ := by
  cases interrupted <;> exact .next rfl

/-- A handler goes on in any case. -/
theorem leads_handler (rest : List Code) :
    Leads ⟨m, .after interrupted [], .handler :: .block rest :: stack⟩
      ⟨m, .running rest, stack⟩ := by
  have hhandler : Leads ⟨m, .after interrupted [], .handler :: .block rest :: stack⟩
      ⟨m, .running [], .block rest :: stack⟩ := by
    cases interrupted <;> exact .next rfl
  exact hhandler.trans (.next rfl)

end Frames

/-! ## Compilers and compilations -/

section Build

variable {m : Meter} {stack : List Frame} {extensions : List OperationSet} {passes : List Pass}

theorem leads_build_of_ok {c : Compiler} (h : Compiler.build extensions passes = .ok c)
    (rest : List Code) :
    Leads ⟨m, .running (.build extensions passes :: rest), stack⟩
      ⟨m.record .compilerBuilt, .running rest, stack⟩ := by
  refine .next ?_
  rw [step, start, h]

theorem leads_build_of_error {err : CompileError} (h : Compiler.build extensions passes = .error err)
    (rest : List Code) :
    Leads ⟨m, .running (.build extensions passes :: rest), stack⟩ ⟨m, .running rest, stack⟩ := by
  refine .next ?_
  rw [step, start, h]

end Build

section Compile

variable {m : Meter} {stack : List Frame} (c : Compiler)

/-- Where a compilation is when its passes have come to an end. -/
def afterPasses (m : Meter) (stack : List Frame) : Except Stop Settled → Machine
  | .ok s => ⟨m.record (.settled s.rounds), .recognising c s.edit.tree, stack⟩
  | .error (.fault err) => ⟨m, .returning (.error err), stack⟩
  | .error .crash => ⟨m, .unwinding, stack⟩

/-- The passes are run round by round, and only the round that changes nothing is reported. -/
theorem leads_afterPasses (left done : Nat) (edit : Edit) (last : String) :
    Leads ⟨m, .settling c left done edit last, stack⟩
      (afterPasses c m stack (settleFrom c.passes left done edit last)) := by
  induction left generalizing done edit last with
  | zero => exact .next rfl
  | succ left ih =>
    refine Leads.trans (.next rfl) ?_
    rw [round, settleFrom]
    rcases runRound c.passes edit.tree with (err | _) | ⟨tree, _ | pass⟩
    · exact .refl _
    · exact .refl _
    · exact .refl _
    · exact ih (done + 1) (.changed tree) pass

/-- **A compilation** reports its events, and is broken off iff one of its passes is. -/
theorem leads_compile (e : Expr) (rest : List Code) :
    Leads ⟨m, .running (.compile c e :: rest), stack⟩
      ⟨m.recordAll (c.events e), .after (c.breaksOff e) rest, stack⟩ := by
  have hpasses : Leads ⟨m, .running (.compile c e :: rest), stack⟩
      (afterPasses c (m.record .compileStart) (.span :: .block rest :: stack)
        (settle c.passes e)) :=
    Leads.trans (.next rfl) (leads_afterPasses c maxRounds 0 (.shared e) "")
  refine hpasses.trans ?_
  rw [Compiler.breaksOff, Compiler.compile, Compiler.events, Compiler.run]
  rcases settle c.passes e with (err | _) | s
  · exact Leads.trans (.next rfl) (.next rfl)
  · exact Leads.trans (.next rfl) (.next rfl)
  · refine Leads.trans (.next rfl) ?_
    dsimp only
    cases c.registry.recognise s.edit.tree with
    | ok model => exact Leads.trans (.next rfl) (.next rfl)
    | error err => exact Leads.trans (.next rfl) (.next rfl)

/-- A compilation under a handler is followed by the code after it. -/
theorem leads_attempt_compile (e : Expr) (rest : List Code) :
    Leads ⟨m, .running (.attempt [.compile c e] :: rest), stack⟩
      ⟨m.recordAll (c.events e), .running rest, stack⟩ :=
  Leads.trans (.next rfl) ((leads_compile c e []).trans (leads_handler _ rest))

end Compile

/-! ## Code -/

mutual

/-- **An item of code** leaves the meter with its trace, and the stack as it was. -/
theorem leads_code (code : Code) (m : Meter) (rest : List Code) (stack : List Frame) :
    Leads ⟨m, .running (code :: rest), stack⟩
      ⟨m.applyAll (code.trace m.override).marks, .after (code.trace m.override).interrupted rest,
        stack⟩ := by
  cases code with
  | record e =>
    refine .next ?_
    rw [step, start, Meter.record_eq]
    rfl
  | build extensions passes =>
    rw [Code.trace]
    cases hbuild : Compiler.build extensions passes with
    | ok c =>
      refine (leads_build_of_ok hbuild rest).trans ?_
      rw [Meter.record_eq]
      exact .refl _
    | error err => exact leads_build_of_error hbuild rest
  | compile c e =>
    rw [Code.trace, ← Meter.recordAll_eq]
    exact leads_compile c e rest
  | reset => exact .next rfl
  | interrupt => exact .next rfl
  | observe sink body =>
    -- the body runs with the sink in force, and so its trace is taken with that sink
    refine (leads_observe (leads_block body (m.enter sink) _)).trans ?_
    rw [Meter.leave_applyAll_enter]
    exact leads_rest _ rest
  | attempt body =>
    exact Leads.trans (.next rfl) ((leads_block body m _).trans (leads_handler _ rest))

/-- A block of code leaves the meter with its trace, and the stack as it was. -/
theorem leads_block (block : List Code) (m : Meter) (stack : List Frame) :
    Leads ⟨m, .running block, stack⟩
      ⟨m.applyAll (Code.traceAll m.override block).marks,
        .after (Code.traceAll m.override block).interrupted [], stack⟩ := by
  cases block with
  | nil => exact .refl _
  | cons code rest =>
    have hcode := leads_code code m rest stack
    rw [Code.traceAll]
    cases hbroken : (code.trace m.override).interrupted with
    | true =>
      rw [Trace.andThen_of_interrupted hbroken, hbroken]
      rwa [hbroken] at hcode
    | false =>
      have hrest := leads_block rest (m.applyAll (code.trace m.override).marks) stack
      rw [Meter.override_applyAll, ← Meter.applyAll_append] at hrest
      rw [Trace.andThen_of_not_interrupted hbroken]
      rw [hbroken] at hcode
      exact hcode.trans hrest

end

end Machine

end QueryChain
