import QueryChain.Proofs.Pass.Bound

/-!
# No bound on the rounds is enough

Towers of applications need as many rounds as they are high: each round opens the outermost application
that is left, and only that makes the next one free of the danger of capture. So there are closed trees
with a normal form that any number of rounds is too small for.

## Main definitions

* `towerBody`: the body of the lambda that is applied on a level
* `peeled`: a tower after some rounds

## Main results

* `tower_isNormal`: a tower on a name that its body binds is not opened at all
* `rounds_tower`: a tower round by round
* `runsOut_tower_iff`: the towers at which the passes are given up
* `exists_rounds_needed`: no bound is enough
-/

namespace QueryChain

/-- The body of the lambda that is applied on the next level of a tower. -/
def towerBody (n : Nat) : Expr :=
  .list [tower n (.parameter (towerName n)), .lambda [towerName (n + 1)] (.constant .null)]

theorem tower_succ (n : Nat) (arg : Expr) :
    tower (n + 1) arg = .invoke (.lambda [towerName n] (towerBody n)) [arg] :=
  rfl

/-- A tower reads what its argument reads. -/
theorem free_tower (n : Nat) (arg : Expr) :
    (tower n arg).free = arg.free ∧ (towerBody n).free = [towerName n] := by
  have hbody : ∀ n, (tower n (.parameter (towerName n))).free = [towerName n] →
      (towerBody n).free = [towerName n] := fun n h => by
    rw [towerBody, Expr.free_eq]
    simp [Expr.freeStep, Expr.children, h, Expr.free_eq (.lambda _ _), Expr.free_eq (.constant _)]
  induction n generalizing arg with
  | zero => exact ⟨rfl, hbody 0 rfl⟩
  | succ n ih =>
    have hall : ∀ arg, (tower (n + 1) arg).free = arg.free := fun arg => by
      rw [tower_succ, Expr.free_eq]
      simp [Expr.freeStep, Expr.children, (ih arg).2, Expr.free_eq (.lambda _ _)]
    exact ⟨hall arg, hbody (n + 1) (hall _)⟩

theorem mem_bound_towerBody (n : Nat) : towerName (n + 1) ∈ (towerBody n).bound := by
  rw [towerBody, Expr.bound_eq]
  simp [Expr.boundStep, Expr.children, Expr.bound_eq (.lambda _ _)]

/-! ## Normal parts -/

namespace Expr

theorem not_redex {x : Expr} (hrules : ∀ rule b, ¬ Rule.Contracts rule x b)
    (hlive : ¬ x.isFoldable .allowAll) : ¬ x.Redex := by
  intro hredex
  rcases hredex.replaced with ⟨rule, b, hb⟩ | hfoldable
  · exact hrules rule b hb
  · exact hlive hfoldable

theorem isNormal_constant (v : Value) : (constant v).IsNormal := by
  refine isNormal_iff.mpr ⟨not_redex (fun _ _ h => by cases h) ?_, by simp [children]⟩
  simp [isFoldable, isConstant]

theorem isNormal_parameter (name : String) : (parameter name).IsNormal := by
  refine isNormal_iff.mpr ⟨not_redex (fun _ _ h => by cases h) ?_, by simp [children]⟩
  exact not_isFoldable (not_isEvaluable_of_root (by simp [EvaluableFilter.admits]))

theorem isNormal_lambda {params : List String} {body : Expr} (h : body.IsNormal) :
    (lambda params body).IsNormal := by
  refine isNormal_iff.mpr ⟨not_redex (fun _ _ h => by cases h) ?_, List.forall_mem_singleton.mpr h⟩
  exact not_isFoldable (not_isEvaluable_of_root (by simp [EvaluableFilter.admits]))

/-- A list with a lambda in it is not evaluated. -/
theorem not_isEvaluable_list (x : Expr) (params : List String) (body : Expr) :
    ¬ (list [x, lambda params body]).isEvaluable .allowAll := by
  refine not_isEvaluable_of_child (c := lambda params body) (by simp [children]) ?_
  exact not_isEvaluable_of_root (by simp [EvaluableFilter.admits])

theorem isNormal_list {x body : Expr} {params : List String} (hx : x.IsNormal)
    (hbody : body.IsNormal) : (list [x, lambda params body]).IsNormal := by
  refine isNormal_iff.mpr ⟨not_redex (fun _ _ h => by cases h) ?_, ?_⟩
  · exact not_isFoldable (not_isEvaluable_list x params body)
  · exact List.forall_mem_cons.mpr ⟨hx, List.forall_mem_singleton.mpr (isNormal_lambda hbody)⟩

end Expr

/-- A tower on the name that its body binds is normal: nothing in it is opened. -/
theorem tower_isNormal (n : Nat) : (tower n (.parameter (towerName n))).IsNormal := by
  induction n with
  | zero => exact Expr.isNormal_parameter _
  | succ n ih =>
    have hbody : (towerBody n).IsNormal := Expr.isNormal_list ih (Expr.isNormal_constant _)
    rw [tower_succ]
    refine Expr.isNormal_iff.mpr ⟨Expr.not_redex (fun rule b h => ?_) (Expr.not_isFoldable ?_), ?_⟩
    · -- the argument would be captured
      cases h with
      | invoke hlambda harity hadmits =>
        cases hlambda
        refine Expr.forall_admits_iff.mp hadmits ⟨_, List.mem_cons_self, towerName (n + 1), ?_, ?_⟩
        · exact Expr.mem_free_iff.mpr (.inl rfl)
        · exact .inl (mem_bound_towerBody n)
    · exact Expr.not_isEvaluable_of_root (by simp [EvaluableFilter.admits])
    · exact List.forall_mem_cons.mpr ⟨Expr.isNormal_lambda hbody,
        List.forall_mem_singleton.mpr (Expr.isNormal_parameter _)⟩

theorem substitute_tower (n : Nat) (v : Expr) :
    (tower n (.parameter (towerName n))).substitute (towerName n) v = tower n v := by
  cases n with
  | zero =>
    rw [tower, Expr.substitute_eq]
    simp [Expr.substituteStep, tower]
  | succ n =>
    have hlambda : (Expr.lambda [towerName n] (towerBody n)).free = [] := by
      rw [Expr.free_eq]
      simp [Expr.freeStep, Expr.children, (free_tower n v).2]
    rw [tower_succ, tower_succ, Expr.substitute_eq]
    simp [Expr.substituteStep, Expr.children, Expr.withChildren, Expr.substitute_of_notMem_free,
      hlambda, Expr.substitute_eq (.parameter _)]

/-! ## Round by round -/

theorem Rule.apply_list (rule : Rule) (items : List Expr) : rule.apply (.list items) = none := by
  rw [Option.eq_none_iff_forall_ne_some]
  intro b hb
  cases apply_eq_some_iff.mp hb

theorem Expr.IsNormal.sweep_eq {e : Expr} (h : e.IsNormal) : e.sweep = .ok e := by
  have hround := rounds_of_stable (stable_standard_iff.mpr h) 1
  obtain ⟨t, ht, hsweep⟩ := rounds_succ_eq_ok_iff.mp hround
  cases ht
  exact roundTree_standard_eq_ok_iff.mp hsweep

theorem Expr.sweep_list {x x' body : Expr} (hx : x.sweep = .ok x') (hbody : body.IsNormal)
    (params : List String) :
    (list [x, lambda params body]).sweep = .ok (list [x', lambda params body]) := by
  have hparts : (list [x, lambda params body]).children.mapM sweep =
      .ok [x', lambda params body] :=
    mapM_eq_ok_iff.mpr (.cons hx (.cons (isNormal_lambda hbody).sweep_eq .nil))
  rw [sweep_eq (not_isEvaluable_list x params body), hparts]
  exact congrArg Except.ok (Rule.replaceAll_of_kept fun rule => rule.apply_list _)

/-- A tower of the given height after a number of rounds. -/
def peeled : (height done : Nat) → Expr
  | height, 0 => tower height (.constant .null)
  | 0, _ + 1 => .constant .null
  | height + 1, done + 1 =>
    .list [peeled height done, .lambda [towerName (height + 1)] (.constant .null)]

theorem instantiate_towerBody (n : Nat) :
    (Lambda.mk [towerName n] (towerBody n)).instantiate [.constant .null] = peeled (n + 1) 1 := by
  have hlast : (Expr.lambda [towerName (n + 1)] (.constant .null)).free = [] := by
    rw [Expr.free_eq]
    simp [Expr.freeStep, Expr.children, Expr.free_eq (.constant _)]
  change (towerBody n).substitute (towerName n) (.constant .null) = _
  rw [towerBody, Expr.substitute_eq]
  simp [Expr.substituteStep, Expr.children, Expr.withChildren, substitute_tower, peeled,
    Expr.substitute_of_notMem_free, hlast]

theorem towerBody_isNormal (n : Nat) : (towerBody n).IsNormal :=
  Expr.isNormal_list (tower_isNormal n) (Expr.isNormal_constant _)

/-- A tower on a value is opened: a value cannot be captured. -/
theorem tower_contracts (n : Nat) :
    Rule.inlineInvoke.Contracts (tower (n + 1) (.constant .null)) (peeled (n + 1) 1) := by
  rw [tower_succ, ← instantiate_towerBody]
  refine .invoke (l := ⟨[towerName n], towerBody n⟩) rfl rfl ?_
  simp [Lambda.admits, Expr.free_eq (.constant _), Expr.freeStep, Expr.children]

/-- A round opens the outermost application of a tower, and no other. -/
theorem sweep_tower (n : Nat) :
    (tower (n + 1) (.constant .null)).sweep = .ok (peeled (n + 1) 1) := by
  have hlive : ¬ (tower (n + 1) (.constant .null)).isEvaluable .allowAll :=
    Expr.not_isEvaluable_of_root (by simp [tower_succ, EvaluableFilter.admits])
  have hparts : (tower (n + 1) (.constant .null)).children.mapM Expr.sweep =
      .ok (tower (n + 1) (.constant .null)).children :=
    mapM_eq_ok_iff.mpr (.cons (Expr.isNormal_lambda (towerBody_isNormal n)).sweep_eq
      (.cons (Expr.isNormal_constant _).sweep_eq .nil))
  have hopened : Rule.replaceAll Rule.standard (tower (n + 1) (.constant .null)) =
      peeled (n + 1) 1 :=
    Rule.replaceAll_of_contracts (Rule.mem_standard _) (tower_contracts n)
      (fun _ _ h => (tower_contracts n).rule_unique h) fun rule => rule.apply_list _
  rw [Expr.sweep_eq hlive, hparts, Except.map, Expr.withChildren_children, hopened]

theorem sweep_peeled {n k : Nat} (h : k < n) : (peeled n k).sweep = .ok (peeled n (k + 1)) := by
  induction n generalizing k with
  | zero => exact absurd h (Nat.not_lt_zero k)
  | succ n ih =>
    cases k with
    | zero => exact sweep_tower n
    | succ k => exact Expr.sweep_list (ih (Nat.lt_of_succ_lt_succ h)) (Expr.isNormal_constant _) _

/-- **A tower round by round.** -/
theorem rounds_tower {n k : Nat} (h : k ≤ n) :
    rounds Pass.standard k (tower n (.constant .null)) = .ok (peeled n k) := by
  induction k with
  | zero => rw [rounds, peeled]
  | succ k ih =>
    refine rounds_succ_eq_ok_iff.mpr ⟨_, ih (Nat.le_of_succ_le h), ?_⟩
    exact roundTree_standard_eq_ok_iff.mpr (sweep_peeled h)

/-- A tower is normal when all of its applications are opened, and not before. -/
theorem peeled_isNormal_iff {n k : Nat} (h : k ≤ n) : (peeled n k).IsNormal ↔ k = n := by
  induction n generalizing k with
  | zero =>
    obtain rfl := Nat.le_zero.mp h
    exact iff_of_true (Expr.isNormal_constant _) rfl
  | succ n ih =>
    cases k with
    | zero =>
      refine iff_of_false (fun hnormal => ?_) (Nat.succ_ne_zero n).symm
      have hnone : Rule.apply .inlineInvoke (tower (n + 1) (.constant .null)) = none :=
        hnormal.apply_eq_none _
      rw [Rule.apply_eq_some_iff.mpr (tower_contracts n)] at hnone
      cases hnone
    | succ k =>
      rw [Nat.succ_inj, ← ih (Nat.le_of_succ_le_succ h)]
      constructor
      · exact fun hnormal => hnormal.child List.mem_cons_self
      · exact fun hinner => Expr.isNormal_list hinner (Expr.isNormal_constant _)

/-- **The towers that are given up** are those that are as high as there are rounds. -/
theorem runsOut_tower_iff (n : Nat) : RunsOut (tower n (.constant .null)) ↔ maxRounds ≤ n := by
  constructor
  · rintro ⟨pass, count, hstop⟩
    by_contra hlow
    have hopened := rounds_tower (Nat.le_refl n)
    have hstable := stable_standard_iff.mpr ((peeled_isNormal_iff (Nat.le_refl n)).mpr rfl)
    obtain ⟨s, hs, -⟩ := settle_rounds_le (Nat.lt_of_not_le hlow) hopened hstable
    rw [hs] at hstop
    cases hstop
  · intro hhigh
    have hlast : maxRounds - 1 < n := Nat.lt_of_lt_of_le (by decide) hhigh
    refine runsOut_iff.mpr ⟨_, _, rounds_tower (Nat.le_of_lt hlast), ?_, rounds_tower hhigh⟩
    exact fun hnormal => Nat.ne_of_lt hlast ((peeled_isNormal_iff (Nat.le_of_lt hlast)).mp hnormal)

/-- **No bound is enough.** For any number of rounds there is a closed tree that needs all of them: it
has a normal form, and no fewer rounds lead to it. -/
theorem exists_rounds_needed (n : Nat) :
    ∃ e : Expr, e.free = [] ∧
      ∀ k ≤ n, ∃ t, rounds Pass.standard k e = .ok t ∧ (t.IsNormal ↔ k = n) := by
  refine ⟨tower n (.constant .null), ?_, fun k hk => ⟨_, rounds_tower hk, peeled_isNormal_iff hk⟩⟩
  rw [(free_tower n _).1, Expr.free_eq]
  rfl

end QueryChain
