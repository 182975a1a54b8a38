import Mathlib.Algebra.BigOperators.Group.Finset.Basic
import Mathlib.Data.Fintype.Basic
import QueryChain.Worker.Crew

/-!
# Workers side by side stay consistent

Whatever the order of steps, a worker is in one of few states, which its phase and the closed list of
extensions determine; and the pool has counted the builds of all workers, up to those that are being
counted. The rest follows from these two: the list of extensions is closed once, every compiler that
is kept was built from it, and attempts to build one all have the same outcome.

## Main definitions

* `Caller.Sound`: the states that a worker can be in, given the pool
* `Caller.tally`: the builds of a worker that the pool has counted
* `Crew.Sound`: every worker is in such a state, and the pool has counted the builds
* `Crew.Reachable`: a crew after some schedule
* `Crew.Attempts`: a worker is about to build, with the given outcome

## Main results

* `Caller.runCall_idle`: without interruption, a call is an acquisition of the compiler
* `Caller.Sound.step`, `Caller.Sound.tally_step`: what a step of a call keeps
* `Crew.Sound.act`, `Crew.Sound.after`: every schedule keeps a crew sound
* `Crew.keeps_after`, `Crew.kept_after`: a closed list and a compiler that is kept stay as they are
* `crew_consistent`: the state of the workers after any schedule
-/

namespace QueryChain

/-! ## The list of extensions -/

namespace Pool

/-- The list of extensions stays as it is, if it is closed. -/
def Keeps (p p' : Pool) : Prop :=
  ∀ sets, p.extensions = some sets → p'.extensions = some sets

theorem keeps_close (p : Pool) : p.Keeps p.close := by
  intro sets h
  simp [close, h]

theorem extensions_close (p : Pool) : p.close.extensions = some p.close.extensionsInForce := rfl

theorem install_eq_ok_iff {p p' : Pool} {sets : List OperationSet} :
    p.install sets = .ok p' ↔ p.extensions = none ∧ p' = { p with extensions := some sets } := by
  rw [install]
  cases p.extensions with
  | some sets => simp
  | none => simp [eq_comm]

theorem install_of_closed {p : Pool} {sets : List OperationSet} (h : p.extensions = some sets)
    (more : List OperationSet) : p.install more = .error .registryClosed := by
  rw [install, h]

end Pool

/-! ## One worker -/

namespace Caller

variable {k : Caller} {p p' : Pool}

/-- **A call without interruption** does what acquiring the compiler does in one go. -/
theorem runCall_idle (w : Worker) (p : Pool) :
    runCall 6 ⟨w, .idle⟩ p =
      (some (w.acquire p).1, ⟨(w.acquire p).2.1, .idle⟩, (w.acquire p).2.2) := by
  rw [Worker.acquire]
  cases hkept : w.compiler with
  | some c => simp [runCall, step, hkept]
  | none =>
    cases hbuild : Compiler.build p.close.extensionsInForce Pass.standard with
    | error e => simp [runCall, step, hkept, hbuild]
    | ok c => simp [runCall, step, hkept, hbuild, Worker.countBuild, Worker.report]

theorem step_closed_of_error {w : Worker} {sets : List OperationSet} {e : CompileError}
    (h : Compiler.build sets Pass.standard = .error e) (p : Pool) :
    step ⟨w, .closed sets⟩ p = (some (.error e), ⟨w, .idle⟩, p) := by
  simp only [step, h]

theorem step_closed_of_ok {w : Worker} {sets : List OperationSet} {c : Compiler}
    (h : Compiler.build sets Pass.standard = .ok c) (p : Pool) :
    step ⟨w, .closed sets⟩ p = (none, ⟨w.report [.compilerBuilt], .built c⟩, p) := by
  simp only [step, h]

/-- A step does not change a list of extensions that is closed. -/
theorem keeps_step (k : Caller) (p : Pool) : p.Keeps (k.step p).2.2 := by
  obtain ⟨w, phase⟩ := k
  cases phase with
  | idle => cases h : w.compiler <;> simp [step, h, Pool.Keeps]
  | vacant => exact p.keeps_close
  | closed sets =>
    cases h : Compiler.build sets Pass.standard with
    | error e => simp [step_closed_of_error h, Pool.Keeps]
    | ok c => simp [step_closed_of_ok h, Pool.Keeps]
  | built | counted | tallied => exact fun _ h => h

/-- A compiler that is kept is never replaced. -/
theorem kept_step (p : Pool) {c : Compiler} (hkept : k.worker.compiler = some c) :
    (k.step p).2.1.worker.compiler = some c := by
  obtain ⟨w, phase⟩ := k
  have hw : w.compiler = some c := hkept
  cases phase with
  | idle => simp [step, hw]
  | closed sets =>
    cases h : Compiler.build sets Pass.standard with
    | error e => simp [step_closed_of_error h, hw]
    | ok c' => simp [step_closed_of_ok h, hw, Worker.report]
  | tallied c' => simp [step, Worker.fill, hw]
  | vacant | built | counted => exact hkept

/-- The states that a worker can be in, given the extensions of the pool. -/
inductive Sound (p : Pool) : Caller → Prop where
  | unused : Sound p ⟨.fresh, .idle⟩
  | vacant : Sound p ⟨.fresh, .vacant⟩
  | closed {sets : List OperationSet} (h : p.extensions = some sets) :
      Sound p ⟨.fresh, .closed sets⟩
  | built {sets : List OperationSet} {c : Compiler} (h : p.extensions = some sets)
      (hc : Compiler.build sets Pass.standard = .ok c) :
      Sound p ⟨Worker.fresh.report [.compilerBuilt], .built c⟩
  | counted {sets : List OperationSet} {c : Compiler} (h : p.extensions = some sets)
      (hc : Compiler.build sets Pass.standard = .ok c) :
      Sound p ⟨(Worker.fresh.report [.compilerBuilt]).countBuild, .counted c⟩
  | tallied {sets : List OperationSet} {c : Compiler} (h : p.extensions = some sets)
      (hc : Compiler.build sets Pass.standard = .ok c) :
      Sound p ⟨(Worker.fresh.report [.compilerBuilt]).countBuild, .tallied c⟩
  | keeping {sets : List OperationSet} {c : Compiler} (h : p.extensions = some sets)
      (hc : Compiler.build sets Pass.standard = .ok c) :
      Sound p ⟨((Worker.fresh.report [.compilerBuilt]).countBuild).fill c, .idle⟩

/-- The builds of a worker that the pool has counted. -/
def tally (k : Caller) : Nat :=
  match k.phase with
  | .counted _ => k.worker.builds - 1
  | _ => k.worker.builds

namespace Sound

theorem mono (h : k.Sound p) (hp : p.Keeps p') : k.Sound p' := by
  cases h with
  | unused => exact .unused
  | vacant => exact .vacant
  | closed h => exact .closed (hp _ h)
  | built h hc => exact .built (hp _ h) hc
  | counted h hc => exact .counted (hp _ h) hc
  | tallied h hc => exact .tallied (hp _ h) hc
  | keeping h hc => exact .keeping (hp _ h) hc

/-- A step leads from one of the states to another. -/
theorem step (h : k.Sound p) : (k.step p).2.1.Sound (k.step p).2.2 := by
  cases h with
  | unused => exact .vacant
  | vacant => exact .closed p.extensions_close
  | @closed sets h =>
    cases hc : Compiler.build sets Pass.standard with
    | error e =>
      rw [step_closed_of_error hc]
      exact .unused
    | ok c =>
      rw [step_closed_of_ok hc]
      exact .built h hc
  | built h hc => exact .counted h hc
  | counted h hc => exact .tallied h hc
  | tallied h hc => exact .keeping h hc
  | keeping h hc => exact .keeping h hc

/-- The pool counts what the worker has counted. -/
theorem tally_step (h : k.Sound p) :
    (k.step p).2.2.totalBuilds + k.tally = p.totalBuilds + (k.step p).2.1.tally := by
  cases h with
  | @closed sets =>
    cases hc : Compiler.build sets Pass.standard with
    | error e =>
      rw [step_closed_of_error hc]
      rfl
    | ok c =>
      rw [step_closed_of_ok hc]
      rfl
  -- a build enters the tally with the very step in which the pool counts it
  | unused | vacant | built | counted | tallied | keeping => rfl

/-- A compiler that is kept was built from the extensions of the pool. -/
theorem exists_build (h : k.Sound p) {c : Compiler} (hkept : k.worker.compiler = some c) :
    ∃ sets, p.extensions = some sets ∧ Compiler.build sets Pass.standard = .ok c := by
  cases h with
  | keeping h hc =>
    cases hkept
    exact ⟨_, h, hc⟩
  | unused | vacant | closed | built | counted | tallied => cases hkept

theorem builds_of_idle (h : k.Sound p) (hidle : k.phase = .idle) :
    k.worker.builds = if k.worker.compiler.isSome then 1 else 0 := by
  cases h with
  | unused | keeping => rfl
  | vacant | closed | built | counted | tallied => cases hidle

theorem extensions_of_closed (h : k.Sound p) {sets : List OperationSet}
    (hclosed : k.phase = .closed sets) : p.extensions = some sets := by
  cases h with
  | closed h =>
    cases hclosed
    exact h
  | unused | vacant | built | counted | tallied | keeping => cases hclosed

/-- A call fails only where its build does. -/
theorem exists_of_step_error (h : k.Sound p) {e : CompileError}
    (he : (k.step p).1 = some (.error e)) :
    ∃ sets, k = ⟨.fresh, .closed sets⟩ ∧ p.extensions = some sets ∧
      Compiler.build sets Pass.standard = .error e := by
  cases h with
  | @closed sets h =>
    refine ⟨sets, rfl, h, ?_⟩
    cases hc : Compiler.build sets Pass.standard with
    | error e' =>
      rw [step_closed_of_error hc] at he
      cases he
      rfl
    | ok c =>
      rw [step_closed_of_ok hc] at he
      cases he
  | unused | vacant | built | counted | tallied | keeping => cases he

/-- Where the extensions in force cannot be merged, a worker has done nothing. -/
theorem worker_eq_fresh (h : k.Sound p) {sets : List OperationSet} {e : CompileError}
    (hsets : p.extensions = some sets) (he : Compiler.build sets Pass.standard = .error e) :
    k.worker = .fresh := by
  have hnever : ∀ {sets' c}, p.extensions = some sets' →
      Compiler.build sets' Pass.standard ≠ .ok c := by
    intro sets' c h' hc
    cases hsets.symm.trans h'
    cases he.symm.trans hc
  cases h with
  | unused | vacant | closed => rfl
  | built h hc | counted h hc | tallied h hc | keeping h hc => exact absurd hc (hnever h)

end Sound

theorem tally_of_not_counted (h : ∀ c, k.phase ≠ .counted c) : k.tally = k.worker.builds := by
  rw [tally]
  split
  · rename_i c hc
    exact absurd hc (h c)
  · rfl

end Caller

/-! ## All workers -/

namespace Crew

variable {ι : Type} {s : Crew ι}

/-- A worker is about to build a compiler, and the build has the given outcome. -/
def Attempts (s : Crew ι) (w : ι) (outcome : Except CompileError Compiler) : Prop :=
  ∃ sets, (s.callers w).phase = .closed sets ∧ Compiler.build sets Pass.standard = outcome

section Sound

variable [Fintype ι]

/-- Every worker is in one of the few states, and the pool has counted their builds. -/
structure Sound (s : Crew ι) : Prop where
  caller (w : ι) : (s.callers w).Sound s.pool
  total : s.pool.totalBuilds = ∑ w, (s.callers w).tally

theorem sound_fresh : (fresh : Crew ι).Sound :=
  ⟨fun _ => .unused, Finset.sum_const_zero.symm⟩

/-- Where no build is being counted, the pool has counted those of all workers. -/
theorem Sound.totalBuilds_eq (h : s.Sound) (hcounted : ∀ w c, (s.callers w).phase ≠ .counted c) :
    s.pool.totalBuilds = ∑ w, (s.callers w).worker.builds := by
  rw [h.total]
  exact Finset.sum_congr rfl fun w _ => Caller.tally_of_not_counted (hcounted w)

/-- Where the extensions in force cannot be merged, nothing has been done but closing the list. -/
theorem Sound.untouched (h : s.Sound) {sets : List OperationSet} {e : CompileError}
    (hsets : s.pool.extensions = some sets) (he : Compiler.build sets Pass.standard = .error e) :
    s.pool = ⟨some sets, 0⟩ ∧ ∀ w, (s.callers w).worker = .fresh := by
  have hfresh : ∀ w, (s.callers w).worker = .fresh := fun w => (h.caller w).worker_eq_fresh hsets he
  have htally : ∀ w, (s.callers w).tally = 0 := by
    intro w
    rw [Caller.tally, hfresh]
    split <;> rfl
  have htotal : s.pool.totalBuilds = 0 := by simp [h.total, htally]
  refine ⟨?_, hfresh⟩
  rw [← hsets, ← htotal]

end Sound

variable [DecidableEq ι]

/-- The crew has come about by the steps of some schedule. -/
def Reachable (s : Crew ι) : Prop :=
  ∃ schedule, fresh.after schedule = s

/-- What every step keeps, every schedule keeps. -/
theorem after_induction {P : Crew ι → Prop} (step : ∀ s a, P s → P (s.act a)) (h : P s)
    (later : List (Action ι)) : P (s.after later) := by
  induction later generalizing s with
  | nil => exact h
  | cons a later ih => exact ih (step s a h)

theorem act_install_of_ok {sets : List OperationSet} {p : Pool}
    (h : s.pool.install sets = .ok p) : s.act (.install sets) = { s with pool := p } := by
  rw [act, h]

theorem keeps_act (s : Crew ι) (a : Action ι) : s.pool.Keeps (s.act a).pool := by
  cases a with
  | advance w => exact (s.callers w).keeps_step s.pool
  | install sets =>
    rw [act]
    cases h : s.pool.install sets with
    | error e => exact fun _ h => h
    | ok p =>
      intro sets' hsets'
      cases hsets'.symm.trans (Pool.install_eq_ok_iff.mp h).1

/-- A closed list of extensions stays as it is. -/
theorem keeps_after (s : Crew ι) (later : List (Action ι)) : s.pool.Keeps (s.after later).pool :=
  fun sets h => after_induction (P := fun t => t.pool.extensions = some sets)
    (fun t a h => t.keeps_act a sets h) h later

theorem kept_act (a : Action ι) {w : ι} {c : Compiler}
    (h : (s.callers w).worker.compiler = some c) :
    ((s.act a).callers w).worker.compiler = some c := by
  cases a with
  | advance v =>
    by_cases hw : w = v
    · subst hw
      simpa [act, setCaller] using Caller.kept_step s.pool h
    · simpa [act, setCaller, hw] using h
  | install sets =>
    rw [act]
    cases s.pool.install sets <;> exact h

/-- The compiler that a worker keeps stays the same. -/
theorem kept_after (later : List (Action ι)) {w : ι} {c : Compiler}
    (h : (s.callers w).worker.compiler = some c) :
    ((s.after later).callers w).worker.compiler = some c :=
  after_induction (P := fun t => (t.callers w).worker.compiler = some c)
    (fun _ a h => kept_act a h) h later

/-- Nothing can be installed once the list of extensions is closed. -/
theorem install_after {sets : List OperationSet} (h : s.pool.extensions = some sets)
    (later : List (Action ι)) (more : List OperationSet) :
    (s.after later).pool.install more = .error .registryClosed :=
  Pool.install_of_closed (s.keeps_after later sets h) more

/-- A worker that begins to build closes the list of extensions. -/
theorem extensions_act_of_vacant {w : ι} (h : (s.callers w).phase = .vacant) :
    (s.act (.advance w)).pool.extensions = some s.pool.close.extensionsInForce := by
  simp only [act, Caller.step, h]
  exact s.pool.extensions_close

variable [Fintype ι]

/-- The builds of all workers, with another state of one of them. -/
theorem sum_tally_setCaller (s : Crew ι) (w : ι) (k : Caller) :
    ∑ v, ((s.setCaller w k).callers v).tally + (s.callers w).tally =
      ∑ v, (s.callers v).tally + k.tally := by
  have hrest : ∑ v ∈ Finset.univ.erase w, ((s.setCaller w k).callers v).tally =
      ∑ v ∈ Finset.univ.erase w, (s.callers v).tally := by
    refine Finset.sum_congr rfl fun v hv => ?_
    simp [setCaller, Finset.ne_of_mem_erase hv]
  have hself : ((s.setCaller w k).callers w).tally = k.tally := by simp [setCaller]
  rw [← Finset.add_sum_erase _ _ (Finset.mem_univ w), hrest, hself,
    ← Finset.add_sum_erase _ (fun v => (s.callers v).tally) (Finset.mem_univ w)]
  omega

namespace Sound

/-- **Every step keeps a crew sound.** -/
theorem act (h : s.Sound) (a : Action ι) : (s.act a).Sound := by
  -- the other workers do not notice a step: the list of extensions is not opened again
  have hmono : ∀ v, (s.callers v).Sound (s.act a).pool := fun v => (h.caller v).mono (s.keeps_act a)
  cases a with
  | advance w =>
    refine ⟨fun v => ?_, ?_⟩
    · by_cases hv : v = w
      · subst hv
        simpa [Crew.act, setCaller] using (h.caller v).step
      · simpa [Crew.act, setCaller, hv] using hmono v
    · have hsum := s.sum_tally_setCaller w ((s.callers w).step s.pool).2.1
      have hstep := (h.caller w).tally_step
      have htotal := h.total
      change ((s.callers w).step s.pool).2.2.totalBuilds =
        ∑ v, ((s.setCaller w ((s.callers w).step s.pool).2.1).callers v).tally
      omega
  | install sets =>
    cases hinstall : s.pool.install sets with
    | error e =>
      simp only [Crew.act, hinstall]
      exact h
    | ok p =>
      rw [act_install_of_ok hinstall] at hmono ⊢
      refine ⟨hmono, ?_⟩
      rw [(Pool.install_eq_ok_iff.mp hinstall).2]
      exact h.total

/-- **Every schedule keeps a crew sound.** -/
theorem after (h : s.Sound) (later : List (Action ι)) : (s.after later).Sound :=
  after_induction (fun _ a h => h.act a) h later

/-- Attempts by whatever workers, now or later, have the same outcome. -/
theorem attempts_unique (h : s.Sound) (later : List (Action ι)) {v w : ι}
    {a b : Except CompileError Compiler} (ha : s.Attempts v a)
    (hb : (s.after later).Attempts w b) : a = b := by
  obtain ⟨sets, hclosed, rfl⟩ := ha
  obtain ⟨sets', hclosed', rfl⟩ := hb
  have hsets := (h.caller v).extensions_of_closed hclosed
  have hsets' := ((h.after later).caller w).extensions_of_closed hclosed'
  cases (s.keeps_after later sets hsets).symm.trans hsets'
  rfl

/-- A call that fails ends with the worker and the pool as they were. -/
theorem act_of_error (h : s.Sound) {w : ι} {e : CompileError}
    (he : ((s.callers w).step s.pool).1 = some (.error e)) :
    s.act (.advance w) = s.setCaller w ⟨(s.callers w).worker, .idle⟩ := by
  obtain ⟨sets, hw, -, hbuild⟩ := (h.caller w).exists_of_step_error he
  rw [Crew.act, hw, Caller.step_closed_of_error hbuild]
  rfl

end Sound

theorem Reachable.sound (h : s.Reachable) : s.Sound := by
  obtain ⟨schedule, rfl⟩ := h
  exact sound_fresh.after schedule

end Crew

/-- **Workers stay consistent whatever the order of their steps.** Let a crew be as some schedule has
left it, and let any schedule follow.

A closed list of extensions never changes: nothing can be installed after a first time, nor after a
worker has begun to build. A worker keeps its compiler, which was built from the closed list, and
between calls has built one compiler if it keeps one and none otherwise. While no worker is between
counting a build for itself and for the pool, the count of the pool is the sum of those of the
workers. A call that fails leaves everything as it was with a closed list, and so it stays, as all
attempts to build have the same outcome. -/
theorem crew_consistent {ι : Type} [DecidableEq ι] [Fintype ι] {s : Crew ι} (hs : s.Reachable)
    (later : List (Action ι)) :
    (∀ sets, s.pool.extensions = some sets → (s.after later).pool.extensions = some sets) ∧
    (∀ sets p, s.pool.install sets = .ok p → ∀ more,
      ((s.act (.install sets)).after later).pool.install more = .error .registryClosed) ∧
    (∀ w, (s.callers w).phase = .vacant → ∀ more,
      ((s.act (.advance w)).after later).pool.install more = .error .registryClosed) ∧
    (∀ w c, (s.callers w).worker.compiler = some c →
      ((s.after later).callers w).worker.compiler = some c ∧
      ∃ sets, s.pool.extensions = some sets ∧ Compiler.build sets Pass.standard = .ok c) ∧
    (∀ w, (s.callers w).phase = .idle →
      (s.callers w).worker.builds = if (s.callers w).worker.compiler.isSome then 1 else 0) ∧
    ((∀ w c, (s.callers w).phase ≠ .counted c) →
      s.pool.totalBuilds = ∑ w, (s.callers w).worker.builds) ∧
    (∀ w e, ((s.callers w).step s.pool).1 = some (.error e) →
      s.act (.advance w) = s.setCaller w ⟨(s.callers w).worker, .idle⟩ ∧
      ∃ sets, (s.after later).pool = ⟨some sets, 0⟩ ∧
        ∀ v, ((s.after later).callers v).worker = .fresh) ∧
    ∀ v w a b, s.Attempts v a → (s.after later).Attempts w b → a = b := by
  have hsound : s.Sound := hs.sound
  refine ⟨s.keeps_after later, fun sets p hp => ?_, fun w hw => ?_, fun w c hc => ?_,
    fun w => (hsound.caller w).builds_of_idle, hsound.totalBuilds_eq, fun w e he => ?_,
    fun _ _ _ _ => hsound.attempts_unique later⟩
  · have hclosed : (s.act (.install sets)).pool.extensions = some sets := by
      rw [Crew.act_install_of_ok hp, (Pool.install_eq_ok_iff.mp hp).2]
    exact Crew.install_after hclosed later
  · exact Crew.install_after (Crew.extensions_act_of_vacant hw) later
  · exact ⟨Crew.kept_after later hc, (hsound.caller w).exists_build hc⟩
  · obtain ⟨sets, -, hsets, hbuild⟩ := (hsound.caller w).exists_of_step_error he
    exact ⟨hsound.act_of_error he, sets,
      (hsound.after later).untouched (s.keeps_after later sets hsets) hbuild⟩

section TwoWorkers

-- the standard operations are merged by the kernel
set_option maxRecDepth 4096

/-- An operation for a shape that the standard operations have. -/
def secondTake : OperationSet :=
  ⟨"second take", [(⟨.queryable, "take", [.operand]⟩, .skip)], []⟩

/-- One worker has found that it keeps no compiler. -/
def callBegun : Crew Bool :=
  Crew.fresh.after [.advance true]

/-- One worker keeps a compiler, and the other is about to build one. -/
def oneCompiler : Crew Bool :=
  Crew.fresh.after (.replicate 6 (.advance true) ++ .replicate 2 (.advance false))

/-- Both workers are about to build with an extension that clashes. -/
def clashAhead : Crew Bool :=
  Crew.fresh.after
    (.install [secondTake] :: (.replicate 2 (.advance true) ++ .replicate 2 (.advance false)))

theorem crew_consistent_twoWorkers :
    (callBegun.Reachable ∧ ∀ later,
      ((callBegun.act (.install [])).after later).pool.install [secondTake] =
        .error .registryClosed ∧
      ((callBegun.act (.advance true)).after later).pool.install [secondTake] =
        .error .registryClosed) ∧
    (oneCompiler.Reachable ∧
      (∃ c, ((oneCompiler.after [.advance false]).callers true).worker.compiler = some c ∧
        Compiler.build [] Pass.standard = .ok c) ∧
      (oneCompiler.callers true).worker.builds = 1 ∧
      oneCompiler.pool.totalBuilds = ∑ w, (oneCompiler.callers w).worker.builds) ∧
    clashAhead.Reachable ∧
      ∃ e, ((clashAhead.callers true).step clashAhead.pool).1 = some (.error e) ∧
        clashAhead.Attempts true (.error e) ∧ ∀ later,
          ((clashAhead.after later).callers false).worker = .fresh ∧
          ∀ b, (clashAhead.after later).Attempts false b → b = .error e := by
  have hbegun : callBegun.Reachable := ⟨_, rfl⟩
  have hone : oneCompiler.Reachable := ⟨_, rfl⟩
  have hclash : clashAhead.Reachable := ⟨_, rfl⟩
  refine ⟨⟨hbegun, fun later => ?_⟩, ⟨hone, ?_⟩, hclash, ?_⟩
  · obtain ⟨-, hinstalled, hvacant, -⟩ := crew_consistent hbegun later
    exact ⟨hinstalled [] _ rfl [secondTake], hvacant true rfl [secondTake]⟩
  · obtain ⟨c, hc⟩ : ∃ c, (oneCompiler.callers true).worker.compiler = some c :=
      Option.isSome_iff_exists.mp rfl
    have htrue : (oneCompiler.callers true).phase = .idle := rfl
    have hfalse : (oneCompiler.callers false).phase = .closed [] := rfl
    have hextensions : oneCompiler.pool.extensions = some [] := rfl
    obtain ⟨-, -, -, hkept, hidle, htotal, -⟩ := crew_consistent hone [.advance false]
    obtain ⟨hlater, sets, hsets, hbuild⟩ := hkept true c hc
    cases hextensions.symm.trans hsets
    refine ⟨⟨c, hlater, hbuild⟩, by simpa [hc] using hidle true htrue, htotal ?_⟩
    rintro (_ | _) c
    · rw [hfalse]
      nofun
    · rw [htrue]
      nofun
  · obtain ⟨e, he⟩ : ∃ e, Compiler.build [secondTake] Pass.standard = .error e := ⟨_, rfl⟩
    have htrue : clashAhead.callers true = ⟨.fresh, .closed [secondTake]⟩ := rfl
    have hstep : ((clashAhead.callers true).step clashAhead.pool).1 = some (.error e) := by
      rw [htrue, Caller.step_closed_of_error he]
    have hattempts : clashAhead.Attempts true (.error e) := ⟨[secondTake], by rw [htrue], he⟩
    refine ⟨e, hstep, hattempts, fun later => ?_⟩
    obtain ⟨-, -, -, -, -, -, hfails, hunique⟩ := crew_consistent hclash later
    obtain ⟨-, sets, -, hfresh⟩ := hfails true e hstep
    exact ⟨hfresh false, fun b hb => (hunique true false _ b hattempts hb).symm⟩

end TwoWorkers

end QueryChain
