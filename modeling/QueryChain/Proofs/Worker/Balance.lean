import Mathlib.Algebra.Order.Ring.Nat
import QueryChain.Proofs.Pass.Rounds
import QueryChain.Worker.Session

/-!
# The counters balance

A compilation reports its start, the round in which its passes settle if they do, and one outcome. So
whatever a worker has compiled, the counters account for each compilation that was started.

## Main definitions

* `Event.ofResult`: the report of the result of a compilation
* `Counters.Balanced`: each compilation is accounted for
* `Errand`, `Errand.code`: what is asked of a worker from outside

## Main results

* `Compiler.events_eq`: the events of a compilation
* `settle_rounds_bounds`: at least one round is run, and at most sixteen
* `Counters.Balanced.compile`: a compilation keeps the balance
* `Errand.leads_errands`: so do errands, and the clauses of the models are counted
* `Step.balanced_runAll`: so do scripts
* `counters_balanced`: the counters balance after every errand and every script
-/

namespace QueryChain

/-! ## The events of a compilation -/

/-- The report of the result of a compilation. -/
def Event.ofResult : Except Stop Model → Event
  | .ok m => .compileFinish m.clauses.length
  | .error stop => .compileFailed stop.errorClass

/-- **The events of a compilation**: its start, the settled round if there is one, and its result. -/
theorem Compiler.events_eq (c : Compiler) (e : Expr) :
    c.events e = .compileStart :: ((settle c.passes e).toOption.toList.map fun s => .settled s.rounds)
      ++ [.ofResult (c.compile e)] := by
  rw [events, compile, run]
  rcases settle c.passes e with stop | s
  · rfl
  · dsimp only
    cases c.registry.recognise s.edit.tree with
    | ok m => rfl
    | error err => rfl

theorem settle_rounds_bounds {passes : List Pass} {e : Expr} {s : Settled}
    (h : settle passes e = .ok s) : 0 < s.rounds ∧ s.rounds ≤ maxRounds := by
  obtain ⟨hle, henters, -⟩ := settle_eq_ok_iff.mp h
  exact ⟨henters.pos, hle⟩

/-! ## Balance -/

namespace Counters

/-- Each compilation that was started is accounted for, by its outcome, by the class of its failure and
by the rounds of its passes. -/
structure Balanced (c : Counters) : Prop where
  outcomes : c.compilesStarted = c.compilesFinished + c.compilesFailed
  classes : c.compilesFailed = (ErrorClass.all.map c.failures).sum
  finished_le : c.compilesFinished ≤ c.settledRuns
  settled_le : c.settledRuns ≤ c.compilesStarted
  runs_le : c.settledRuns ≤ c.roundsTotal
  total_le : c.roundsTotal ≤ c.roundsMax * c.settledRuns
  max_le : c.roundsMax ≤ maxRounds

/-- A failure adds one to the sum over all classes. -/
theorem sum_failures_record (c : Counters) (cls : ErrorClass) :
    (ErrorClass.all.map (c.record (.compileFailed cls)).failures).sum =
      (ErrorClass.all.map c.failures).sum + 1 := by
  cases cls <;> simp [ErrorClass.all, record] <;> omega

namespace Balanced

variable {c : Counters}

theorem zero : Counters.zero.Balanced := by
  constructor <;> decide

/-- Compilers that are built are not compilations. -/
theorem build (h : c.Balanced) : (c.record .compilerBuilt).Balanced :=
  ⟨h.outcomes, h.classes, h.finished_le, h.settled_le, h.runs_le, h.total_le, h.max_le⟩

/-- A compilation whose passes do not settle. -/
theorem failed (h : c.Balanced) (cls : ErrorClass) :
    ((c.record .compileStart).record (.compileFailed cls)).Balanced where
  outcomes := by
    have houtcomes := h.outcomes
    dsimp only [record]
    omega
  classes := by
    rw [sum_failures_record]
    exact congrArg (· + 1) h.classes
  finished_le := h.finished_le
  settled_le := Nat.le_succ_of_le h.settled_le
  runs_le := h.runs_le
  total_le := h.total_le
  max_le := h.max_le

/-- A compilation whose passes settle, with a model or not. -/
theorem settled (h : c.Balanced) {rounds : Nat} (hpos : 0 < rounds) (hmax : rounds ≤ maxRounds)
    (result : Except Stop Model) :
    (((c.record .compileStart).record (.settled rounds)).record (.ofResult result)).Balanced where
  outcomes := by
    have houtcomes := h.outcomes
    cases result <;> dsimp only [record, Event.ofResult] <;> omega
  classes := by
    cases result with
    | ok m => exact h.classes
    | error stop =>
      rw [Event.ofResult, sum_failures_record]
      exact congrArg (· + 1) h.classes
  finished_le := by
    have hfinished := h.finished_le
    cases result <;> dsimp only [record, Event.ofResult] <;> omega
  settled_le := by
    cases result <;> exact Nat.succ_le_succ h.settled_le
  runs_le := by
    cases result <;> exact Nat.add_le_add h.runs_le hpos
  total_le := by
    -- the rounds before were at most the old maximum in each run, and these are at most the new one
    have htotal : c.roundsTotal + rounds ≤ max c.roundsMax rounds * (c.settledRuns + 1) :=
      calc c.roundsTotal + rounds
        _ ≤ c.roundsMax * c.settledRuns + rounds := Nat.add_le_add_right h.total_le rounds
        _ ≤ max c.roundsMax rounds * c.settledRuns + max c.roundsMax rounds :=
          Nat.add_le_add (Nat.mul_le_mul_right _ (Nat.le_max_left ..)) (Nat.le_max_right ..)
        _ = max c.roundsMax rounds * (c.settledRuns + 1) := (Nat.mul_succ ..).symm
    cases result <;> exact htotal
  max_le := by
    cases result <;> exact Nat.max_le.mpr ⟨h.max_le, hmax⟩

/-- **A compilation keeps the balance**, whatever its compiler and its tree. -/
theorem compile (h : c.Balanced) (compiler : Compiler) (e : Expr) :
    (c.recordAll (compiler.events e)).Balanced := by
  rw [Compiler.events_eq]
  cases hsettle : settle compiler.passes e with
  | ok s =>
    obtain ⟨hpos, hmax⟩ := settle_rounds_bounds hsettle
    exact h.settled hpos hmax (compiler.compile e)
  | error stop =>
    have hresult : compiler.compile e = .error stop := by
      rw [Compiler.compile, Compiler.run, hsettle]
    rw [hresult]
    exact h.failed stop.errorClass

end Balanced

/-- The clauses that a compilation adds are those of its model. -/
theorem clausesEmitted_events (c : Counters) (compiler : Compiler) (e : Expr) :
    (c.recordAll (compiler.events e)).clausesEmitted =
      c.clausesEmitted + ((compiler.compile e).toOption.toList.map (·.clauses.length)).sum := by
  rw [Compiler.events_eq]
  rcases settle compiler.passes e with stop | s <;> rcases compiler.compile e with stop' | m <;> rfl

end Counters

namespace Meter

variable (c : Counters) (received : SinkId → List Event) (events : List Event)

/-- Without a sink, events are counted. -/
theorem recordAll_none :
    (Meter.mk c none received).recordAll events = ⟨c.recordAll events, none, received⟩ := by
  induction events generalizing c with
  | nil => rfl
  | cons e events ih => exact ih (c.record e)

/-- With a sink, events are not counted. -/
theorem counters_recordAll_some (sink : SinkId) :
    ((Meter.mk c (some sink) received).recordAll events).counters = c := by
  induction events generalizing received with
  | nil => rfl
  | cons e events ih => exact ih _

end Meter

/-! ## Errands -/

/-- What is asked of a worker from outside. -/
inductive Errand where
  | build (extensions : List OperationSet) (passes : List Pass)
  | compile (c : Compiler) (e : Expr)
  | reset

namespace Errand

/-- The code of an errand. A compilation that is broken off does not break off the errands after it. -/
def code : Errand → Code
  | build extensions passes => .build extensions passes
  | compile c e => .attempt [.compile c e]
  | reset => .reset

/-- The models that were returned since the counters were set to zero, after another errand. -/
def modelsAfter (models : List Model) : Errand → List Model
  | build _ _ => models
  | compile c e => models ++ (c.compile e).toOption.toList
  | reset => []

/-- The counters balance, and count the clauses of the models. -/
structure Accounted (models : List Model) (c : Counters) : Prop where
  balanced : c.Balanced
  clauses : c.clausesEmitted = (models.map (·.clauses.length)).sum

/-- An errand keeps the account. -/
theorem leads_errand (a : Errand) {models : List Model} {c : Counters}
    (h : Accounted models c) (received : SinkId → List Event) (rest : List Code)
    (stack : List Frame) :
    ∃ c', Machine.Leads ⟨⟨c, none, received⟩, .running (a.code :: rest), stack⟩
      ⟨⟨c', none, received⟩, .running rest, stack⟩ ∧ Accounted (a.modelsAfter models) c' := by
  cases a with
  | build extensions passes =>
    cases hbuild : Compiler.build extensions passes with
    | ok compiler =>
      exact ⟨_, Machine.leads_build_of_ok hbuild rest, h.balanced.build, h.clauses⟩
    | error err => exact ⟨c, Machine.leads_build_of_error hbuild rest, h⟩
  | compile compiler e =>
    refine ⟨c.recordAll (compiler.events e), ?_, h.balanced.compile compiler e, ?_⟩
    · rw [← Meter.recordAll_none]
      exact Machine.leads_attempt_compile compiler e rest
    · rw [Counters.clausesEmitted_events, h.clauses, modelsAfter, List.map_append, List.sum_append]
  | reset => exact ⟨.zero, .next rfl, .zero, rfl⟩

/-- Errands keep the account. -/
theorem leads_errands (done rest : List Errand) {models : List Model} {c : Counters}
    (h : Accounted models c) (received : SinkId → List Event) (stack : List Frame) :
    ∃ c', Machine.Leads ⟨⟨c, none, received⟩, .running ((done ++ rest).map code), stack⟩
        ⟨⟨c', none, received⟩, .running (rest.map code), stack⟩ ∧
      Accounted (done.foldl modelsAfter models) c' := by
  induction done generalizing models c with
  | nil => exact ⟨c, .refl _, h⟩
  | cons a done ih =>
    obtain ⟨c₁, hfirst, h₁⟩ := leads_errand a h received ((done ++ rest).map code) stack
    obtain ⟨c₂, hothers, h₂⟩ := ih h₁
    exact ⟨c₂, hfirst.trans hothers, h₂⟩

end Errand

/-! ## Scripts -/

/-- Events that keep the balance when they are counted keep it also if they go to a sink. -/
theorem Meter.balanced_recordAll {m : Meter} {events : List Event} (h : m.counters.Balanced)
    (hcounted : (m.counters.recordAll events).Balanced) :
    (m.recordAll events).counters.Balanced := by
  rcases m with ⟨c, _ | sink, received⟩
  · rwa [recordAll_none]
  · rwa [counters_recordAll_some]

theorem Session.balanced_acquire {s : Session} (h : s.worker.meter.counters.Balanced) :
    s.acquire.2.worker.meter.counters.Balanced := by
  rw [acquire, Worker.acquire]
  cases s.worker.compiler with
  | some c => exact h
  | none =>
    dsimp only
    cases Compiler.build s.pool.close.extensionsInForce Pass.standard with
    | ok c => exact Meter.balanced_recordAll h h.build
    | error err => exact h

mutual

/-- A step of a script keeps the balance. -/
theorem Step.balanced_run (step : Step) {s : Session} (h : s.worker.meter.counters.Balanced) :
    (step.run s).2.worker.meter.counters.Balanced := by
  cases step with
  | build extensions passes =>
    rw [Step.run, Session.build]
    cases Compiler.build extensions passes with
    | ok c => exact Meter.balanced_recordAll h h.build
    | error err => exact h
  | compile e =>
    rw [Step.run, Session.compile]
    cases s.compiler with
    | none => exact h
    | some c => exact Meter.balanced_recordAll h (h.compile c e)
  | compileShared e =>
    have hacquire := s.balanced_acquire h
    rw [Step.run, Session.compileShared]
    rcases hs : s.acquire with ⟨err | c, after⟩ <;> rw [hs] at hacquire
    · exact hacquire
    · have hcompile := Meter.balanced_recordAll hacquire (hacquire.compile c e)
      dsimp only
      rcases c.compile e with (err | _) | m
      · exact hcompile
      · exact hcompile
      · exact hcompile
  | install sets =>
    rw [Step.run, Session.install]
    cases s.pool.install sets with
    | ok p => exact h
    | error err => exact h
  | acquire =>
    have hacquire := s.balanced_acquire h
    rw [Step.run, Session.acquireReply]
    rcases hs : s.acquire with ⟨err | c, after⟩ <;> rw [hs] at hacquire
    · exact hacquire
    · exact hacquire
  | builds => exact h
  | report => exact h
  | reset => exact .zero
  | interrupt => exact h
  | observe steps => exact Step.balanced_runAll steps (s := s.enterSink) h
  | fork steps => exact h

/-- **Scripts keep the balance.** -/
theorem Step.balanced_runAll (steps : List Step) {s : Session}
    (h : s.worker.meter.counters.Balanced) :
    (Step.runAll s steps).2.2.worker.meter.counters.Balanced := by
  cases steps with
  | nil => exact h
  | cons step steps =>
    have hstep := Step.balanced_run step h
    rw [Step.runAll]
    rcases hs : step.run s with ⟨_ | reply, after⟩ <;> rw [hs] at hstep
    · exact hstep
    · exact Step.balanced_runAll steps hstep

end

/-- **The counters balance.** A compilation reports its start, the round in which its passes settle if
they do, and its result, also if it is broken off. So the counters balance after every errand, and count
the clauses of the models that were returned since they were set to zero; and they balance after every
script. -/
theorem counters_balanced :
    (∀ (c : Compiler) (e : Expr),
      c.events e = .compileStart :: ((settle c.passes e).toOption.toList.map fun s => .settled s.rounds)
        ++ [.ofResult (c.compile e)] ∧
      ∀ (m : Meter) (rest : List Code) (stack : List Frame),
        Machine.Leads ⟨m, .running (.compile c e :: rest), stack⟩
          ⟨m.recordAll (c.events e), .after (c.breaksOff e) rest, stack⟩) ∧
    (∀ (done rest : List Errand) (received : SinkId → List Event) (stack : List Frame),
      ∃ c : Counters, Machine.Leads
          ⟨⟨.zero, none, received⟩, .running ((done ++ rest).map Errand.code), stack⟩
          ⟨⟨c, none, received⟩, .running (rest.map Errand.code), stack⟩ ∧
        Errand.Accounted (done.foldl Errand.modelsAfter []) c) ∧
    ∀ (p : Pool) (steps : List Step),
      (Step.runAll (.start p) steps).2.2.worker.meter.counters.Balanced := by
  refine ⟨fun c e => ⟨c.events_eq e, fun m rest stack => ?_⟩, fun done rest received stack => ?_,
    fun p steps => ?_⟩
  · exact Machine.leads_compile c e rest
  · exact Errand.leads_errands done rest ⟨.zero, rfl⟩ received stack
  · exact Step.balanced_runAll steps .zero

end QueryChain
