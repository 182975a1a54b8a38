import QueryChain.Proofs.Pass.Progress

/-!
# The bound on the rounds

The passes are given up after the greatest number of rounds. A tree can need more of them than that, or
have no normal form at all; but then there is an application to be opened after every round but the
last two. Trees without applications settle within three rounds.

## Main definitions

* `RunsOut`: the standard passes are given up at the tree

## Main results

* `settleFrom_eq_error`: a round stops, or the rounds are used up
* `settle_rounds_le`: a tree settles in the round after the one that makes it stable
* `runsOut_iff`: the passes are given up iff the last round finds a tree that is not normal
* `settle_standard_bound`: what uses up the rounds
-/

namespace QueryChain

variable {passes : List Pass} {e t : Expr}

/-! ## Rounds -/

theorem rounds_add (passes : List Pass) (m n : Nat) (e : Expr) :
    rounds passes (m + n) e = rounds passes m e >>= rounds passes n := by
  induction m generalizing e with
  | zero =>
    rw [Nat.zero_add]
    rfl
  | succ m ih =>
    rw [Nat.succ_add, rounds_succ, rounds_succ]
    cases roundTree passes e with
    | error stop => rfl
    | ok next => exact ih next

/-- Fewer rounds end with a tree if more of them do. -/
theorem exists_rounds_of_le {m n : Nat} (h : m ≤ n) {out : Expr}
    (hout : rounds passes n e = .ok out) :
    ∃ t, rounds passes m e = .ok t ∧ rounds passes (n - m) t = .ok out := by
  rw [← Nat.add_sub_of_le h, rounds_add] at hout
  exact bind_eq_ok_iff.mp hout

theorem rounds_succ_eq_ok_iff {n : Nat} {out : Expr} :
    rounds passes (n + 1) e = .ok out ↔
      ∃ t, rounds passes n e = .ok t ∧ roundTree passes t = .ok out := by
  have hlast : ∀ t, rounds passes 1 t = roundTree passes t := fun t => by
    rw [rounds_succ]
    cases roundTree passes t <;> rfl
  rw [rounds_add, bind_eq_ok_iff]
  exact exists_congr fun t => and_congr_right fun _ => by rw [hlast]

theorem rounds_error {P : Stop → Prop} (hP : ∀ e stop, roundTree passes e = .error stop → P stop)
    {n : Nat} {stop : Stop} (h : rounds passes n e = .error stop) : P stop := by
  induction n generalizing e with
  | zero => cases h
  | succ n ih =>
    rw [rounds_succ] at h
    cases hr : roundTree passes e with
    | error stop' =>
      rw [hr] at h
      cases h
      exact hP e stop hr
    | ok next =>
      rw [hr] at h
      exact ih h

/-- Settling ends without a tree where a round stops, or when all rounds are used up. -/
theorem settleFrom_eq_error {left done : Nat} {edit : Edit} {last : String} {stop : Stop}
    (h : settleFrom passes left done edit last = .error stop) :
    rounds passes left edit.tree = .error stop ∨
      (∃ t, rounds passes left edit.tree = .ok t) ∧
        ∃ pass, stop = .fault (.noFixedPoint pass (done + left)) := by
  induction left generalizing done edit last with
  | zero =>
    cases h
    exact .inr ⟨⟨_, rfl⟩, last, rfl⟩
  | succ left ih =>
    rw [settleFrom] at h
    rw [rounds]
    split at h
    · rename_i hr
      cases h
      exact .inl (by rw [hr]; rfl)
    · cases h
    · rename_i tree pass hr
      rw [hr, Nat.add_comm left 1, ← Nat.add_assoc]
      exact ih h

theorem settle_eq_error {stop : Stop} (h : settle passes e = .error stop) :
    rounds passes maxRounds e = .error stop ∨
      (∃ t, rounds passes maxRounds e = .ok t) ∧
        ∃ pass, stop = .fault (.noFixedPoint pass maxRounds) := by
  rw [← Nat.zero_add maxRounds]
  exact settleFrom_eq_error h

/-- A tree that is stable after some rounds settles in the next one at the latest. -/
theorem settleFrom_rounds_le {n left done : Nat} {edit : Edit} {last : String}
    (hn : n < left) (h : rounds passes n edit.tree = .ok t) (hs : Stable passes t) :
    ∃ s, settleFrom passes left done edit last = .ok s ∧ s.rounds ≤ done + n + 1 := by
  induction n generalizing left done edit last with
  | zero =>
    cases h
    obtain ⟨left, rfl⟩ := Nat.exists_eq_add_one_of_ne_zero (Nat.ne_of_gt hn)
    refine ⟨⟨edit, done + 1⟩, ?_, Nat.le_refl _⟩
    rw [settleFrom, runRound_of_stable hs]
  | succ n ih =>
    obtain ⟨left, rfl⟩ := Nat.exists_eq_add_one_of_ne_zero (Nat.ne_of_gt (Nat.zero_lt_of_lt hn))
    obtain ⟨⟨tree, lastChange⟩, hr, h⟩ := bind_eq_ok_iff.mp h
    rw [settleFrom, hr]
    cases lastChange with
    | none => exact ⟨⟨edit, done + 1⟩, rfl, by change done + 1 ≤ done + (n + 1) + 1; omega⟩
    | some pass =>
      have hrest : ∃ s, settleFrom passes left (done + 1) (.changed tree) pass = .ok s ∧
          s.rounds ≤ done + 1 + n + 1 := ih (Nat.lt_of_succ_lt_succ hn) h
      obtain ⟨s, hs, hle⟩ := hrest
      exact ⟨s, hs, by omega⟩

theorem settle_rounds_le {n : Nat} (hn : n < maxRounds) (h : rounds passes n e = .ok t)
    (hs : Stable passes t) : ∃ s, settle passes e = .ok s ∧ s.rounds ≤ n + 1 := by
  have hstart : rounds passes n (Edit.shared e).tree = .ok t := h
  rw [← Nat.zero_add n]
  exact settleFrom_rounds_le hn hstart hs

/-! ## Rounds of the standard passes -/

theorem roundTree_standard_eq_ok_iff : roundTree Pass.standard e = .ok t ↔ e.sweep = .ok t := by
  rw [roundTree_standard, mapError_eq_ok_iff]

theorem exists_evaluation_of_roundTree {stop : Stop}
    (h : roundTree Pass.standard e = .error stop) : ∃ x cause, stop = .fault (.evaluation x cause) := by
  rw [roundTree_standard, Expr.sweep] at h
  cases hfold : e.fold .allowAll with
  | error err =>
    rw [hfold] at h
    cases h
    obtain ⟨-, x, cause, -, -, rfl, -⟩ := Expr.fold_eq_error_iff.mp hfold
    exact ⟨x, cause, rfl⟩
  | ok edit =>
    rw [hfold] at h
    cases h

/-- The standard passes are given up at the tree. -/
def RunsOut (e : Expr) : Prop :=
  ∃ pass n, settle Pass.standard e = .error (.fault (.noFixedPoint pass n))

theorem settle_standard_eq_error {stop : Stop} (h : settle Pass.standard e = .error stop) :
    (∃ x cause, stop = .fault (.evaluation x cause)) ∨
      ∃ pass, stop = .fault (.noFixedPoint pass maxRounds) := by
  rcases settle_eq_error h with hr | ⟨-, hstop⟩
  · exact .inl (rounds_error (fun _ _ => exists_evaluation_of_roundTree) hr)
  · exact .inr hstop

/-- **The passes are given up** iff the last round finds a tree that is not normal, and no round
stops. -/
theorem runsOut_iff :
    RunsOut e ↔ ∃ t out, rounds Pass.standard (maxRounds - 1) e = .ok t ∧ ¬ t.IsNormal ∧
      rounds Pass.standard maxRounds e = .ok out := by
  constructor
  · rintro ⟨pass, n, h⟩
    rcases settle_eq_error h with hr | ⟨⟨out, hout⟩, -⟩
    · obtain ⟨x, cause, hstop⟩ := rounds_error (fun _ _ => exists_evaluation_of_roundTree) hr
      cases hstop
    · obtain ⟨t, ht, -⟩ := exists_rounds_of_le (Nat.sub_le maxRounds 1) hout
      refine ⟨t, out, ht, fun hnormal => ?_, hout⟩
      have hok := settledTree_eq_ok_iff.mpr ⟨ht, stable_standard_iff.mpr hnormal⟩
      rw [settledTree, h] at hok
      cases hok
  · rintro ⟨t, out, ht, hnormal, hout⟩
    cases h : settle Pass.standard e with
    | ok s =>
      obtain ⟨hr, hs⟩ := settledTree_eq_ok_iff.mp (settledTree_of_settle h)
      cases ht.symm.trans hr
      exact absurd (stable_standard_iff.mp hs) hnormal
    | error stop =>
      rcases settle_eq_error h with hr | ⟨-, pass, rfl⟩
      · cases hout.symm.trans hr
      · exact ⟨pass, _, h⟩

/-- A tree after a round is normal after the next one, unless it holds an application to be opened. -/
theorem isNormal_of_noOpening {n : Nat} {out : Expr} (ht : rounds Pass.standard (n + 1) e = .ok t)
    (hopening : t.NoOpening) (hout : rounds Pass.standard (n + 2) e = .ok out) : out.IsNormal := by
  obtain ⟨before, -, hbefore⟩ := rounds_succ_eq_ok_iff.mp ht
  obtain ⟨t', ht', hlast⟩ := rounds_succ_eq_ok_iff.mp hout
  cases ht.symm.trans ht'
  have hplain := Expr.sweep_plain (roundTree_standard_eq_ok_iff.mp hbefore)
  exact Expr.sweep_isNormal hplain hopening (roundTree_standard_eq_ok_iff.mp hlast)

/-- While the rounds are being used up, every tree but the first and the last two holds an application
that is opened. -/
theorem RunsOut.opens (h : RunsOut e) {n : Nat} (hpos : 0 < n) (hn : n < maxRounds - 1) :
    ∃ t, rounds Pass.standard n e = .ok t ∧ ∃ x ∈ t.subtrees, x.Opens := by
  obtain ⟨last, out, hlast, hnormal, -⟩ := runsOut_iff.mp h
  obtain ⟨t, ht, -⟩ := exists_rounds_of_le (Nat.le_of_lt hn) hlast
  obtain ⟨next, hnext, hrest⟩ := exists_rounds_of_le (Nat.succ_le_of_lt hn) hlast
  refine ⟨t, ht, ?_⟩
  by_contra hnone
  have hopening : t.NoOpening := fun x hx hopens => hnone ⟨x, hx, hopens⟩
  obtain ⟨n, rfl⟩ := Nat.exists_eq_add_one_of_ne_zero (Nat.ne_of_gt hpos)
  -- the next tree would be normal, and the rounds after it would leave it alone
  have hnextNormal := isNormal_of_noOpening ht hopening hnext
  rw [rounds_of_stable (stable_standard_iff.mpr hnextNormal)] at hrest
  cases hrest
  exact hnormal hnextNormal

/-! ## Trees without applications -/

theorem Expr.noOpening_of_everywhere {e : Expr} (h : e.Everywhere (· ≠ .invoke)) : e.NoOpening := by
  rintro x hx ⟨params, body, args, rfl, -⟩
  exact h _ hx rfl

/-- A round brings in no heads but those of values and of rules. -/
theorem Expr.sweep_everywhere {p : Head → Prop} {e out : Expr} (hbinary : ∀ op, p (.binary op))
    (hcall : ∀ m ∉ aliases.map Prod.fst, p (.call .queryable m))
    (hvalue : ∀ a ∈ e.subtrees, ∀ v, a.evaluate = .ok v → p (.constant v)) (h : e.Everywhere p)
    (hout : e.sweep = .ok out) : out.Everywhere p := by
  obtain ⟨edit, hedit, rfl⟩ := map_eq_ok_iff.mp hout
  have hR := free_isCongruence.within p
  have hfolded : edit.tree.Everywhere p := by
    refine (hR.fold_of_subtrees (fun a ha v _ hv _ => ⟨?_, nofun⟩) hedit h).1
    exact everywhere_iff.mpr ⟨hvalue a ha v hv, nofun⟩
  refine (hR.normalize (fun rule _ a b hab ha => ?_) edit.tree hfolded).1
  have hcontracts := Rule.apply_eq_some_iff.mp hab
  exact ⟨hcontracts.everywhere hbinary hcall (everywhere_iff.mp ha).2, hcontracts.free_subset⟩

/-- A round brings in no applications. -/
theorem Expr.sweep_everywhere_not_invoke {e out : Expr} (h : e.Everywhere (· ≠ .invoke))
    (hout : e.sweep = .ok out) : out.Everywhere (· ≠ .invoke) :=
  sweep_everywhere (fun _ => nofun) (fun _ _ => nofun) (fun _ _ _ _ => nofun) h hout

theorem RunsOut.exists_invoke (h : RunsOut e) : ¬ e.Everywhere (· ≠ .invoke) := by
  intro hnone
  obtain ⟨t, ht, x, hx, hopens⟩ := h.opens (n := 1) (by decide) (by decide)
  obtain ⟨first, hfirst, ht⟩ := rounds_succ_eq_ok_iff.mp ht
  cases hfirst
  have hswept := Expr.sweep_everywhere_not_invoke hnone (roundTree_standard_eq_ok_iff.mp ht)
  exact Expr.noOpening_of_everywhere hswept x hx hopens

/-- Without applications, a tree is normal after two rounds, and the third one finds that out. -/
theorem rounds_le_three {s : Settled} (h : settle Pass.standard e = .ok s)
    (hnone : e.Everywhere (· ≠ .invoke)) : s.rounds ≤ 3 := by
  obtain ⟨hr, -⟩ := settledTree_eq_ok_iff.mp (settledTree_of_settle h)
  obtain ⟨first, hfirst, -⟩ := exists_rounds_of_le (m := 1) (by decide) hr
  obtain ⟨second, hsecond, -⟩ := exists_rounds_of_le (m := 2) (by decide) hr
  obtain ⟨start, hstart, hsweep⟩ := rounds_succ_eq_ok_iff.mp hfirst
  cases hstart
  have hswept := Expr.sweep_everywhere_not_invoke hnone (roundTree_standard_eq_ok_iff.mp hsweep)
  have hnormal := isNormal_of_noOpening hfirst (Expr.noOpening_of_everywhere hswept) hsecond
  obtain ⟨s', hs', hle⟩ := settle_rounds_le (by decide) hsecond (stable_standard_iff.mpr hnormal)
  cases h.symm.trans hs'
  exact hle

/-- **What uses up the rounds.** The standard passes end with a tree, with an evaluation that fails, or
are given up after the greatest number of rounds. The last happens iff the last round still finds a tree
that is not normal; and then every tree but the first and the last two holds an application that is
opened. A tree without applications settles within three rounds, or an evaluation fails. -/
theorem settle_standard_bound (e : Expr) :
    (∀ stop, settle Pass.standard e = .error stop →
      (∃ x cause, stop = .fault (.evaluation x cause)) ∨
        ∃ pass, stop = .fault (.noFixedPoint pass maxRounds)) ∧
    (RunsOut e ↔ ∃ t out, rounds Pass.standard (maxRounds - 1) e = .ok t ∧ ¬ t.IsNormal ∧
      rounds Pass.standard maxRounds e = .ok out) ∧
    (RunsOut e → ∀ n, 0 < n → n < maxRounds - 1 →
      ∃ t, rounds Pass.standard n e = .ok t ∧ ∃ x ∈ t.subtrees, x.Opens) ∧
    (e.Everywhere (· ≠ .invoke) →
      (∃ s, settle Pass.standard e = .ok s ∧ s.rounds ≤ 3) ∨
        ∃ x cause, settle Pass.standard e = .error (.fault (.evaluation x cause))) := by
  refine ⟨fun stop => settle_standard_eq_error, runsOut_iff, fun h n => h.opens, fun hnone => ?_⟩
  cases h : settle Pass.standard e with
  | ok s => exact .inl ⟨s, rfl, rounds_le_three h hnone⟩
  | error stop =>
    rcases settle_standard_eq_error h with ⟨x, cause, rfl⟩ | ⟨pass, rfl⟩
    · exact .inr ⟨x, cause, rfl⟩
    · exact absurd hnone (RunsOut.exists_invoke ⟨pass, maxRounds, h⟩)

section Tower

-- all rounds are run by the kernel
set_option maxRecDepth 100000

/-- Two names in turn. -/
def towerName (depth : Nat) : String :=
  if depth % 2 = 0 then "a" else "b"

/-- Applications within each other. Each passes its parameter on to the next one, where a lambda binds
the same name: that one is opened only when a value has come in place of the name. -/
def tower : Nat → Expr → Expr
  | 0, arg => arg
  | depth + 1, arg =>
    .invoke (.lambda [towerName depth] (.list [tower depth (.parameter (towerName depth)),
      .lambda [towerName (depth + 1)] (.constant .null)])) [arg]

/-- The tower with all of its applications opened. -/
def openedTower : Nat → Expr
  | 0 => .constant .null
  | depth + 1 =>
    .list [openedTower depth, .lambda [towerName (depth + 1)] (.constant .null)]

/-- The passes are given up at a closed tree that they would settle in the next round. -/
theorem settle_standard_bound_tower :
    (tower 16 (.constant .null)).free = [] ∧
      settle Pass.standard (tower 16 (.constant .null)) =
        .error (.fault (.noFixedPoint "normalization" 16)) ∧
      rounds Pass.standard 16 (tower 16 (.constant .null)) = .ok (openedTower 16) ∧
      settle Pass.standard (openedTower 16) = .ok ⟨.shared (openedTower 16), 1⟩ := by
  refine ⟨?_, ?_, ?_, ?_⟩
  · rfl
  · rfl
  · rfl
  · rfl

end Tower

end QueryChain
