import QueryChain.Proofs.Pass.Settling
import QueryChain.Proofs.Worker.Arrivals

/-!
# The first round that changes nothing

What a round of passes does, and which tree enters which round, can be said without the loop: a round
gives the names of the passes that answered with a changed tree, or it stops at the first pass that
fails; and a tree enters a round if every round before it changed the tree. The loop ends with the tree
that enters the first round with no name to give, and reports the number of that round. It ends without
a tree where a round stops, and when the last round that it is allowed still has a name to give; nothing
is reported then.

## Main definitions

* `RoundGives`, `RoundStops`: what a round of passes does to a tree
* `Enters`: the tree that enters a round
* `StopsWithin`, `AllChange`: how the first rounds can end without a tree

## Main results

* `runRound_eq_ok_iff`, `runRound_eq_error_iff`: one round
* `enters_succ_iff`: from one round to the next
* `settleFrom_eq_ok_iff`, `settleFrom_eq_error_iff`: the rounds that are left
* `settle_first_quiet_round`: the loop, for any passes
-/

namespace QueryChain

variable {passes : List Pass} {e out : Expr}

/-! ## One round -/

/-- **A round of passes**, each on the result of the one before it: the names of the passes that answer
with a changed tree, in order, and the tree after the last pass. -/
inductive RoundGives : List Pass → Expr → List String → Expr → Prop where
  | done (e : Expr) : RoundGives [] e [] e
  | shared {p : Pass} {ps : List Pass} {e out : Expr} {names : List String}
      (answer : p.Leaves e) (rest : RoundGives ps e names out) :
      RoundGives (p :: ps) e names out
  | changed {p : Pass} {ps : List Pass} {e next out : Expr} {names : List String}
      (answer : p.apply e = .ok (.changed next)) (rest : RoundGives ps next names out) :
      RoundGives (p :: ps) e (p.name :: names) out

/-- A pass fails on the tree that the passes before it have made. -/
def RoundStops (passes : List Pass) (e : Expr) (stop : Stop) : Prop :=
  ∃ before p after names t, passes = before ++ p :: after ∧ RoundGives before e names t ∧
    p.apply t = .error stop

theorem roundStops_cons_iff {p : Pass} {ps : List Pass} {stop : Stop} :
    RoundStops (p :: ps) e stop ↔
      p.apply e = .error stop ∨
        ∃ edit, p.apply e = .ok edit ∧ RoundStops ps (edit.over e) stop := by
  constructor
  · rintro ⟨before, q, after, names, t, hpasses, hbefore, hstop⟩
    cases hbefore with
    | done =>
      obtain ⟨rfl, -⟩ := List.cons.inj hpasses
      exact .inl hstop
    | shared answer rest =>
      obtain ⟨rfl, rfl⟩ := List.cons.inj hpasses
      obtain ⟨same, answer⟩ := answer
      exact .inr ⟨.shared same, answer, _, q, after, _, t, rfl, rest, hstop⟩
    | changed answer rest =>
      obtain ⟨rfl, rfl⟩ := List.cons.inj hpasses
      exact .inr ⟨.changed _, answer, _, q, after, _, t, rfl, rest, hstop⟩
  · rintro (hstop | ⟨edit, answer, before, q, after, names, t, rfl, hbefore, hstop⟩)
    · exact ⟨[], p, ps, [], e, rfl, .done e, hstop⟩
    · cases edit with
      | shared same =>
        exact ⟨p :: before, q, after, names, t, rfl, .shared ⟨same, answer⟩ hbefore, hstop⟩
      | changed next =>
        exact ⟨p :: before, q, after, p.name :: names, t, rfl, .changed answer hbefore, hstop⟩

/-- A round ends with its last tree and the last of the names. -/
theorem runRound_eq_ok_iff {tree : Expr} {last : Option String} :
    runRound passes e = .ok ⟨tree, last⟩ ↔
      ∃ names, RoundGives passes e names tree ∧ names.getLast? = last := by
  induction passes generalizing e last with
  | nil =>
    simp only [runRound, Except.ok.injEq, Round.mk.injEq]
    constructor
    · rintro ⟨rfl, rfl⟩
      exact ⟨[], .done e, rfl⟩
    · rintro ⟨names, hgives, rfl⟩
      cases hgives
      exact ⟨rfl, rfl⟩
  | cons p ps ih =>
    rw [runRound]
    constructor
    · intro h
      split at h
      · cases h
      · rename_i same answer
        obtain ⟨names, hrest, hlast⟩ := ih.mp h
        exact ⟨names, .shared ⟨same, answer⟩ hrest, hlast⟩
      · rename_i next answer
        split at h
        · cases h
        · rename_i r hr
          cases h
          obtain ⟨names, hrest, hlast⟩ := ih.mp hr
          refine ⟨p.name :: names, .changed answer hrest, ?_⟩
          rw [List.getLast?_cons, hlast]
          cases r.lastChange <;> rfl
    · rintro ⟨names, hgives, hlast⟩
      cases hgives with
      | shared answer rest =>
        obtain ⟨same, answer⟩ := answer
        rw [answer]
        exact ih.mpr ⟨names, rest, hlast⟩
      | changed answer rest =>
        rw [answer]
        have hr := ih.mpr ⟨_, rest, rfl⟩
        rw [List.getLast?_cons] at hlast
        simp only [hr, ← hlast]
        cases List.getLast? _ <;> rfl

theorem runRound_eq_error_iff {stop : Stop} :
    runRound passes e = .error stop ↔ RoundStops passes e stop := by
  induction passes generalizing e with
  | nil =>
    constructor
    · intro h
      cases h
    · rintro ⟨before, p, after, names, t, hpasses, -⟩
      simp at hpasses
  | cons p ps ih =>
    rw [runRound, roundStops_cons_iff]
    rcases p.apply e with failed | same | next
    · simp
    · simpa [Edit.over] using ih
    · have hrest : runRound ps next = .error stop ↔ RoundStops ps next stop := ih
      simp only [Except.ok.injEq, reduceCtorEq, false_or, exists_eq_left', Edit.over,
        ← hrest]
      cases runRound ps next <;> simp

/-- A round has no name to give iff every pass leaves the tree alone. -/
theorem roundGives_nil_iff : RoundGives passes e [] out ↔ out = e ∧ Stable passes e := by
  rw [← runRound_none_iff, runRound_eq_ok_iff]
  constructor
  · intro h
    exact ⟨[], h, rfl⟩
  · rintro ⟨names, h, hnames⟩
    rwa [List.getLast?_eq_none_iff.mp hnames] at h

/-! ## Round after round -/

/-- **The tree that enters a round**, counted from one: every round before it has changed the tree. -/
inductive Enters (passes : List Pass) : Expr → Nat → Expr → Prop where
  | first (e : Expr) : Enters passes e 1 e
  | later {e next t : Expr} {names : List String} {n : Nat} (round : RoundGives passes e names next)
      (changed : names ≠ []) (rest : Enters passes next n t) : Enters passes e (n + 1) t

/-- One of the first rounds is entered and stops. -/
def StopsWithin (passes : List Pass) (n : Nat) (e : Expr) (stop : Stop) : Prop :=
  ∃ r ≤ n, ∃ t, Enters passes e r t ∧ RoundStops passes t stop

/-- All of the first rounds change the tree, the last one of them in the end by the named pass. -/
def AllChange (passes : List Pass) (n : Nat) (e : Expr) (pass : String) : Prop :=
  ∃ t names out, Enters passes e n t ∧ RoundGives passes t names out ∧ names.getLast? = some pass

theorem Enters.pos {n : Nat} {t : Expr} (h : Enters passes e n t) : 0 < n := by
  cases h <;> exact Nat.succ_pos _

/-- The step of every induction over rounds: a round is the first one, or it is entered from the tree
that the first round has made. -/
theorem enters_succ_iff {n : Nat} {t : Expr} :
    Enters passes e (n + 1) t ↔
      n = 0 ∧ t = e ∨
        ∃ next pass, runRound passes e = .ok ⟨next, some pass⟩ ∧ Enters passes next n t := by
  constructor
  · intro h
    cases h with
    | first => exact .inl ⟨rfl, rfl⟩
    | later round changed rest =>
      have hlast := List.getLast?_eq_some_getLast changed
      exact .inr ⟨_, _, runRound_eq_ok_iff.mpr ⟨_, round, hlast⟩, rest⟩
  · rintro (⟨rfl, rfl⟩ | ⟨next, pass, hr, rest⟩)
    · exact .first _
    · obtain ⟨names, round, hlast⟩ := runRound_eq_ok_iff.mp hr
      refine .later round ?_ rest
      rintro rfl
      cases hlast

theorem stopsWithin_succ_iff {n : Nat} {stop : Stop} :
    StopsWithin passes (n + 1) e stop ↔
      runRound passes e = .error stop ∨
        ∃ next pass, runRound passes e = .ok ⟨next, some pass⟩ ∧ StopsWithin passes n next stop := by
  rw [runRound_eq_error_iff]
  constructor
  · rintro ⟨r, hr, t, h, hstops⟩
    obtain ⟨r, rfl⟩ := Nat.exists_eq_add_one_of_ne_zero h.pos.ne'
    rcases enters_succ_iff.mp h with ⟨-, rfl⟩ | ⟨next, pass, hround, rest⟩
    · exact .inl hstops
    · exact .inr ⟨next, pass, hround, r, Nat.le_of_succ_le_succ hr, t, rest, hstops⟩
  · rintro (hstops | ⟨next, pass, hround, r, hr, t, rest, hstops⟩)
    · exact ⟨1, Nat.succ_pos n, e, .first e, hstops⟩
    · exact ⟨r + 1, Nat.succ_le_succ hr, t, enters_succ_iff.mpr (.inr ⟨next, pass, hround, rest⟩),
        hstops⟩

theorem not_stopsWithin_zero {stop : Stop} : ¬ StopsWithin passes 0 e stop := by
  rintro ⟨r, hr, t, h, -⟩
  exact absurd h.pos (Nat.not_lt.mpr hr)

theorem allChange_one_iff {pass : String} :
    AllChange passes 1 e pass ↔ ∃ next, runRound passes e = .ok ⟨next, some pass⟩ := by
  simp only [runRound_eq_ok_iff]
  constructor
  · rintro ⟨t, names, out, h, round⟩
    rcases enters_succ_iff.mp h with ⟨-, rfl⟩ | ⟨_, _, _, rest⟩
    · exact ⟨out, names, round⟩
    · exact absurd rest.pos (Nat.lt_irrefl 0)
  · rintro ⟨next, names, round⟩
    exact ⟨e, names, next, .first e, round⟩

theorem allChange_succ_iff {n : Nat} (hn : 0 < n) {pass : String} :
    AllChange passes (n + 1) e pass ↔
      ∃ next name, runRound passes e = .ok ⟨next, some name⟩ ∧ AllChange passes n next pass := by
  constructor
  · rintro ⟨t, names, out, h, round⟩
    rcases enters_succ_iff.mp h with ⟨hzero, -⟩ | ⟨next, name, hround, rest⟩
    · exact absurd hzero hn.ne'
    · exact ⟨next, name, hround, t, names, out, rest, round⟩
  · rintro ⟨next, name, hround, t, names, out, rest, round⟩
    exact ⟨t, names, out, enters_succ_iff.mpr (.inr ⟨next, name, hround, rest⟩), round⟩

/-- The rounds that are left end with a tree in the first of them that changes nothing. -/
theorem settleFrom_eq_ok_iff {left done : Nat} {edit : Edit} {last : String} {s : Settled} :
    settleFrom passes left done edit last = .ok s ↔
      ∃ n < left, s.rounds = done + (n + 1) ∧
        Enters passes edit.tree (n + 1) s.edit.tree ∧ Stable passes s.edit.tree ∧
        (s.edit.isChanged = false ↔ n = 0 ∧ edit.isChanged = false) := by
  -- induction on the rounds that are left; each round moves the start on to the tree it makes
  induction left generalizing done edit last with
  | zero => simp [settleFrom]
  | succ left ih =>
    rw [settleFrom]
    rcases hr : runRound passes edit.tree with stop | ⟨tree, _ | pass⟩
    · constructor
      · intro h
        cases h
      · rintro ⟨n, -, -, h, hs, -⟩
        rcases enters_succ_iff.mp h with ⟨-, htree⟩ | ⟨_, _, hround, -⟩
        · rw [← htree, runRound_of_stable hs] at hr
          cases hr
        · rw [hround] at hr
          cases hr
    · obtain ⟨rfl, hs⟩ := runRound_none_iff.mp hr
      constructor
      · intro h
        cases h
        exact ⟨0, Nat.succ_pos left, rfl, .first _, hs, by simp⟩
      · rintro ⟨n, -, hrounds, h, -, hflag⟩
        rcases enters_succ_iff.mp h with ⟨rfl, htree⟩ | ⟨_, _, hround, -⟩
        · have hedit : s.edit = edit := Edit.ext_tree htree (by simpa using hflag)
          cases s
          cases hedit
          cases hrounds
          rfl
        · rw [hround] at hr
          cases hr
    · have hrest : settleFrom passes left (done + 1) (.changed tree) pass = .ok s ↔ _ := ih
      rw [hrest]
      constructor
      · rintro ⟨n, hn, hrounds, h, hs, hflag⟩
        have henters := enters_succ_iff.mpr (.inr ⟨tree, pass, hr, h⟩)
        exact ⟨n + 1, by omega, by omega, henters, hs, by simpa using hflag⟩
      · rintro ⟨n, hn, hrounds, h, hs, hflag⟩
        rcases enters_succ_iff.mp h with ⟨-, htree⟩ | ⟨next, name, hround, rest⟩
        · rw [← htree, runRound_of_stable hs] at hr
          cases hr
        · cases hr.symm.trans hround
          obtain ⟨n, rfl⟩ := Nat.exists_eq_add_one_of_ne_zero rest.pos.ne'
          exact ⟨n, by omega, by omega, rest, hs, by simpa using hflag⟩

/-- The rounds that are left end without a tree where one of them stops, or when all of them have
changed the tree. -/
theorem settleFrom_eq_error_iff {left done : Nat} {edit : Edit} {last : String} {stop : Stop} :
    settleFrom passes (left + 1) done edit last = .error stop ↔
      StopsWithin passes (left + 1) edit.tree stop ∨
        ∃ pass, AllChange passes (left + 1) edit.tree pass ∧
          stop = .fault (.noFixedPoint pass (done + (left + 1))) := by
  induction left generalizing done edit last with
  | zero =>
    rw [settleFrom, stopsWithin_succ_iff]
    simp only [Nat.zero_add, allChange_one_iff, not_stopsWithin_zero, and_false, exists_false,
      or_false]
    rcases runRound passes edit.tree with stop' | ⟨tree, _ | pass⟩
    · simp
    · simp
    · simp [settleFrom, eq_comm]
  | succ left ih =>
    rw [settleFrom, stopsWithin_succ_iff]
    simp only [allChange_succ_iff (Nat.succ_pos left)]
    rcases runRound passes edit.tree with stop' | ⟨tree, _ | pass⟩
    · simp
    · simp
    · have hrest : settleFrom passes (left + 1) (done + 1) (.changed tree) pass = .error stop ↔ _ :=
        ih
      simp only [hrest, Edit.tree_changed, Except.ok.injEq, Round.mk.injEq, reduceCtorEq, false_or,
        Option.some.injEq]
      simp [Nat.add_assoc, Nat.add_comm 1]

/-! ## The loop -/

theorem settle_eq_ok_iff {s : Settled} :
    settle passes e = .ok s ↔
      s.rounds ≤ 16 ∧ Enters passes e s.rounds s.edit.tree ∧
        RoundGives passes s.edit.tree [] s.edit.tree ∧
        (s.edit.isChanged = false ↔ s.rounds = 1) := by
  rw [settle, settleFrom_eq_ok_iff]
  simp only [maxRounds, roundGives_nil_iff, true_and, Edit.tree_shared, Nat.zero_add]
  constructor
  · rintro ⟨n, hn, hrounds, h, hs, hflag⟩
    rw [hrounds]
    exact ⟨hn, h, hs, by simpa using hflag⟩
  · rintro ⟨hle, h, hs, hflag⟩
    obtain ⟨n, hn⟩ := Nat.exists_eq_add_one_of_ne_zero h.pos.ne'
    rw [hn] at hle h hflag
    exact ⟨n, hle, hn, h, hs, by simpa using hflag⟩

theorem settle_eq_error_iff {stop : Stop} :
    settle passes e = .error stop ↔
      StopsWithin passes 16 e stop ∨
        ∃ pass, AllChange passes 16 e pass ∧ stop = .fault (.noFixedPoint pass 16) := by
  rw [settle, maxRounds, settleFrom_eq_error_iff]
  simp

/-- The error of a stopped round is the error of one of its passes. -/
theorem StopsWithin.exists_pass {n : Nat} {stop : Stop} (h : StopsWithin passes n e stop) :
    ∃ p ∈ passes, ∃ t, p.apply t = .error stop := by
  obtain ⟨-, -, -, -, before, p, after, -, t, rfl, -, hstop⟩ := h
  exact ⟨p, by simp, t, hstop⟩

/-- **The loop finds the first round that changes nothing**, for any passes.

It ends with a tree iff one of sixteen rounds changes nothing, all rounds before that one change the
tree, and no pass fails in any of them. The tree is the one that enters that round, and is not reported
as a new one iff it is the first; every pass leaves it alone, and it settles as it is in one round. The
loop ends without a tree iff one of these rounds is entered and a pass fails in it, with the error of the
pass, or all sixteen change the tree, with the name of the last pass that changes it in the sixteenth;
the latter error is no other's if no pass has one of its kind. When the loop ends with a tree, the number
of the round arrives once at the sink that is in force for the worker, or is counted if there is none;
when it does not, nothing is reported. -/
theorem settle_first_quiet_round (passes : List Pass) (e : Expr) :
    (∀ s, settle passes e = .ok s ↔
      s.rounds ≤ 16 ∧ Enters passes e s.rounds s.edit.tree ∧
        RoundGives passes s.edit.tree [] s.edit.tree ∧
        (s.edit.isChanged = false ↔ s.rounds = 1)) ∧
    (∀ s, settle passes e = .ok s →
      (∀ p ∈ passes, p.Leaves s.edit.tree) ∧
        settle passes s.edit.tree = .ok ⟨.shared s.edit.tree, 1⟩) ∧
    (∀ stop, settle passes e = .error stop ↔
      StopsWithin passes 16 e stop ∨
        ∃ pass, AllChange passes 16 e pass ∧ stop = .fault (.noFixedPoint pass 16)) ∧
    ((∀ p ∈ passes, ∀ t name n, p.apply t ≠ .error (.fault (.noFixedPoint name n))) →
      ∀ pass n, settle passes e = .error (.fault (.noFixedPoint pass n)) ↔
        n = 16 ∧ AllChange passes 16 e pass) ∧
    ∀ (registry : Registry) (m : Meter) (stack : List Frame),
      (∀ s, settle passes e = .ok s →
        Machine.Leads ⟨m, .settling ⟨registry, passes⟩ 16 0 (.shared e) "", stack⟩
          ⟨m.record (.settled s.rounds), .recognising ⟨registry, passes⟩ s.edit.tree, stack⟩ ∧
        (m.record (.settled s.rounds)).Follows ⟨[.event m.override (.settled s.rounds)], false⟩ m) ∧
      (∀ err, settle passes e = .error (.fault err) →
        Machine.Leads ⟨m, .settling ⟨registry, passes⟩ 16 0 (.shared e) "", stack⟩
          ⟨m, .returning (.error err), stack⟩) ∧
      (settle passes e = .error .crash →
        Machine.Leads ⟨m, .settling ⟨registry, passes⟩ 16 0 (.shared e) "", stack⟩
          ⟨m, .unwinding, stack⟩) := by
  refine ⟨fun s => settle_eq_ok_iff, fun s hs => ?_, fun stop => settle_eq_error_iff,
    fun hnone pass n => ?_, fun registry m stack => ?_⟩
  · obtain ⟨-, -, hquiet, -⟩ := settle_eq_ok_iff.mp hs
    have hstable : Stable passes s.edit.tree := (roundGives_nil_iff.mp hquiet).2
    exact ⟨hstable, settle_of_stable hstable⟩
  · rw [settle_eq_error_iff]
    constructor
    · rintro (hstops | ⟨name, hall, hstop⟩)
      · obtain ⟨p, hp, t, hpass⟩ := hstops.exists_pass
        exact absurd hpass (hnone p hp t pass n)
      · cases hstop
        exact ⟨rfl, hall⟩
    · rintro ⟨rfl, hall⟩
      exact .inr ⟨pass, hall, rfl⟩
  · have hleads : Machine.Leads ⟨m, .settling ⟨registry, passes⟩ 16 0 (.shared e) "", stack⟩
        (Machine.afterPasses ⟨registry, passes⟩ m stack (settle passes e)) :=
      Machine.leads_afterPasses ⟨registry, passes⟩ 16 0 (.shared e) ""
    refine ⟨fun s hs => ?_, fun err herr => ?_, fun hcrash => ?_⟩
    · rw [hs] at hleads
      exact ⟨hleads, m.record_follows _⟩
    · rwa [herr] at hleads
    · rwa [hcrash] at hleads

/-- A pass that takes one quotation off the tree. -/
def peel : Pass where
  name := "peel"
  apply
    | .quote operand => .ok (.changed operand)
    | e => .ok (.shared e)

/-- A source under quotations. -/
def quotedSource : Nat → Expr
  | 0 => .source "users"
  | n + 1 => .quote (quotedSource n)

theorem settle_first_quiet_round_peel :
    settle [peel] (quotedSource 15) = .ok ⟨.changed (.source "users"), 16⟩ ∧
      Enters [peel] (quotedSource 15) 16 (.source "users") ∧
      settle [peel] (quotedSource 16) = .error (.fault (.noFixedPoint "peel" 16)) ∧
      AllChange [peel] 16 (quotedSource 16) "peel" := by
  have hsettles : settle [peel] (quotedSource 15) = .ok ⟨.changed (.source "users"), 16⟩ := rfl
  have hfails : settle [peel] (quotedSource 16) = .error (.fault (.noFixedPoint "peel" 16)) := rfl
  have hnone : ∀ p ∈ [peel], ∀ t name n, p.apply t ≠ .error (.fault (.noFixedPoint name n)) := by
    intro p hp t name n
    obtain rfl := List.mem_singleton.mp hp
    cases t <;> simp [peel]
  have hround := ((settle_first_quiet_round [peel] (quotedSource 15)).1 _).mp hsettles
  have hall := ((settle_first_quiet_round [peel] (quotedSource 16)).2.2.2.1 hnone _ _).mp hfails
  exact ⟨hsettles, hround.2.1, hfails, hall.2⟩

end QueryChain
