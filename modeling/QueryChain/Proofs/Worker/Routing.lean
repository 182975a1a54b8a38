import QueryChain.Proofs.Worker.Arrivals
import QueryChain.Worker.Session

/-!
# Where events go

Each event of a run arrives once, at the sink of the innermost block around it or at the counters, and
after a block the sink is in force that was in force before it. The code of a script is run to the
meter that the script leaves.

## Main definitions

* `Step.code`, `Step.codeAll`: the code of the steps of a script

## Main results

* `Step.leads_run`, `Step.leads_runAll`: steps of a script leave the meter that their code leaves
* `sinks_scoped`: blocks put sinks in force for their own events, however they end
-/

namespace QueryChain

/-! ## Ends -/

namespace Machine

/-- A run that comes to an empty stack with nothing to run has ended. -/
theorem Leads.mem_eval {s : Machine} {m : Meter} {interrupted : Bool}
    (h : s.Leads ⟨m, .after interrupted [], []⟩) :
    ⟨m, .after interrupted [], []⟩ ∈ StateTransition.eval step s :=
  StateTransition.mem_eval.mpr ⟨h, by cases interrupted <;> rfl⟩

end Machine

/-! ## Scripts -/

/-- The code that asks for the compiler of the worker. -/
def Session.acquireCode (s : Session) : List Code :=
  match s.worker.compiler with
  | some _ => []
  | none => [.build s.pool.close.extensionsInForce Pass.standard]

mutual

/-- The code of a step. Compilations and blocks are run under a handler. -/
def Step.code (s : Session) : Step → List Code
  | .build extensions passes => [.build extensions passes]
  | .compile e => s.compiler.toList.map fun c => .attempt [.compile c e]
  | .compileShared e =>
    s.acquireCode ++ s.acquire.1.toOption.toList.map fun c => .attempt [.compile c e]
  | .acquire => s.acquireCode
  | .reset => [.reset]
  | .observe steps => [.attempt [.observe s.sinks (Step.codeAll s.enterSink steps)]]
  | .interrupt => [.interrupt]
  | .install _ | .builds | .report | .fork _ => []

/-- The code of steps, each for the session that the steps before it leave. -/
def Step.codeAll (s : Session) : List Step → List Code
  | [] => []
  | step :: steps => step.code s ++ Step.codeAll (step.run s).2 steps

end

open Machine

theorem Session.leads_acquire (s : Session) (rest : List Code) (stack : List Frame) :
    Leads ⟨s.worker.meter, .running (s.acquireCode ++ rest), stack⟩
      ⟨s.acquire.2.worker.meter, .running rest, stack⟩ := by
  rw [acquireCode, acquire, Worker.acquire]
  cases s.worker.compiler with
  | some c => exact .refl _
  | none =>
    dsimp only
    cases hbuild : Compiler.build s.pool.close.extensionsInForce Pass.standard with
    | ok c => exact leads_build_of_ok hbuild rest
    | error err => exact leads_build_of_error hbuild rest

mutual

/-- A step of a script leaves the meter that its code leaves, and breaks off iff its code does. -/
theorem Step.leads_run (step : Step) (s : Session) (rest : List Code) (stack : List Frame) :
    Leads ⟨s.worker.meter, .running (step.code s ++ rest), stack⟩
      ⟨(step.run s).2.worker.meter, .after (step.run s).1.isNone rest, stack⟩ := by
  cases step with
  | build extensions passes =>
    rw [Step.run, Session.build, Step.code]
    cases hbuild : Compiler.build extensions passes with
    | ok c => exact leads_build_of_ok hbuild rest
    | error err => exact leads_build_of_error hbuild rest
  | compile e =>
    rw [Step.run, Session.compile, Step.code]
    cases s.compiler with
    | none => exact .refl _
    | some c => exact leads_attempt_compile c e rest
  | compileShared e =>
    rw [Step.code, List.append_assoc]
    refine (s.leads_acquire _ stack).trans ?_
    rw [Step.run, Session.compileShared]
    rcases s.acquire with ⟨err | c, after⟩
    · exact .refl _
    · refine (leads_attempt_compile c e rest).trans ?_
      dsimp only
      rcases c.compile e with (err | _) | model
      · exact .refl _
      · exact .refl _
      · exact .refl _
  | install sets =>
    rw [Step.run, Session.install, Step.code]
    cases s.pool.install sets with
    | ok p => exact .refl _
    | error err => exact .refl _
  | acquire =>
    rw [Step.code]
    refine (s.leads_acquire rest stack).trans ?_
    rw [Step.run, Session.acquireReply]
    rcases s.acquire with ⟨err | c, after⟩
    · exact .refl _
    · exact .refl _
  | builds => exact .refl _
  | report => exact .refl _
  | reset => exact .next rfl
  | interrupt => exact .next rfl
  | observe steps =>
    refine Leads.trans (.next rfl) ?_
    refine (leads_observe (Step.leads_runAll steps s.enterSink _)).trans ?_
    exact (leads_rest _ []).trans (leads_handler _ rest)
  | fork steps => exact .refl _

/-- The steps of a script leave the meter that their code leaves. -/
theorem Step.leads_runAll (steps : List Step) (s : Session) (stack : List Frame) :
    Leads ⟨s.worker.meter, .running (Step.codeAll s steps), stack⟩
      ⟨(Step.runAll s steps).2.2.worker.meter, .after (Step.runAll s steps).2.1 [], stack⟩ := by
  cases steps with
  | nil => exact .refl _
  | cons step steps =>
    refine (Step.leads_run step s (Step.codeAll (step.run s).2 steps) stack).trans ?_
    have hrest := Step.leads_runAll steps (step.run s).2 stack
    rw [Step.runAll]
    rcases hrun : step.run s with ⟨_ | reply, after⟩
    · exact .refl _
    · rwa [hrun] at hrest

end

/-- **Blocks put sinks in force for their own events only.** From any state, a block ends with the sink
in force that was in force before it, also if it is broken off. Any code comes to an end, with each
event at the sink of the innermost block around it, or counted if there is none. Scripts are run as
code is. -/
theorem sinks_scoped :
    (∀ (m : Meter) (sink : SinkId) (body rest : List Code) (stack : List Frame),
      ∃ after : Meter, after.Follows (Code.traceAll (some sink) body) m ∧
        Leads ⟨m, .running (.observe sink body :: rest), stack⟩
          ⟨after, .after (Code.traceAll (some sink) body).interrupted [], .block rest :: stack⟩) ∧
    (∀ (m : Meter) (block : List Code),
      ∃ after : Meter, after.Follows (Code.traceAll m.override block) m ∧
        ⟨after, .after (Code.traceAll m.override block).interrupted [], []⟩ ∈
          StateTransition.eval step ⟨m, .running block, []⟩) ∧
    ∀ (s : Session) (steps : List Step),
      ⟨(Step.runAll s steps).2.2.worker.meter, .after (Step.runAll s steps).2.1 [], []⟩ ∈
        StateTransition.eval step ⟨s.worker.meter, .running (Step.codeAll s steps), []⟩ := by
  refine ⟨fun m sink body rest stack => ?_, fun m block => ?_, fun s steps => ?_⟩
  · refine ⟨_, m.follows_applyAll (Code.traceAll (some sink) body), ?_⟩
    rw [← m.leave_applyAll_enter sink]
    exact leads_observe (leads_block body (m.enter sink) _)
  · exact ⟨_, m.follows_applyAll _, (leads_block block m []).mem_eval⟩
  · exact (Step.leads_runAll steps s []).mem_eval

example : (Code.traceAll none [.attempt [.observe 0 [.record .compileStart, .observe 1
    [.record (.settled 1), .observe 0 [.record (.settled 2)], .interrupt], .record .compilerBuilt]],
    .record .compilerBuilt]).sentTo 0 = [.compileStart, .settled 2] := rfl

end QueryChain
