import QueryChain.Proofs.Pass.Independence

/-!
# One round of the standard passes

A round folds a tree and then normalizes it. Read as one function of the tree, it treats a node that is
not evaluated by its children and then by the rules, once; and what the passes settle on is found from
the tree after one round, whether that round changed anything or not.

## Main definitions

* `Rule.replaceAll`: what trying the rules at a node leads to
* `Expr.normalized`, `Expr.sweep`: the tree after normalization, and after a round

## Main results

* `Rule.replaceAll_of_contracts`: one rule applies, and none to its result
* `Expr.sweep_eq`: a round at a node and its children
* `roundTree_standard`: a round of the standard passes
* `settledTree_eq_roundTree`: settling after one round
-/

namespace QueryChain

/-! ## Rules at one node -/

namespace Rule

/-- The tree that trying the rules in order leads to. -/
def replaceAll (rules : List Rule) (e : Expr) : Expr :=
  rules.foldl (fun e rule => (rule.apply e).getD e) e

theorem tree_tryAll (rules : List Rule) (edit : Edit) :
    (tryAll rules edit).tree = replaceAll rules edit.tree := by
  induction rules generalizing edit with
  | nil => rfl
  | cons rule rules ih =>
    have hfirst : (tryOn edit rule).tree = (rule.apply edit.tree).getD edit.tree := by
      unfold tryOn
      cases rule.apply edit.tree <;> rfl
    calc (tryAll rules (tryOn edit rule)).tree
        = replaceAll rules (tryOn edit rule).tree := ih _
      _ = replaceAll (rule :: rules) edit.tree := congrArg (replaceAll rules) hfirst

theorem replaceAll_of_kept {rules : List Rule} {e : Expr} (h : ∀ rule, Rule.apply rule e = none) :
    replaceAll rules e = e := by
  induction rules with
  | nil => rfl
  | cons rule rules ih =>
    have hfirst : (rule.apply e).getD e = e := by rw [h rule, Option.getD_none]
    exact (congrArg (replaceAll rules) hfirst).trans ih

/-- If one rule applies, and none to what it makes, then the rules lead to what it makes. -/
theorem replaceAll_of_contracts {rules : List Rule} {rule : Rule} (hmem : rule ∈ rules)
    {e out : Expr} (h : rule.Contracts e out) (honly : ∀ r b, Contracts r e b → r = rule)
    (hkept : ∀ r, Rule.apply r out = none) : replaceAll rules e = out := by
  induction rules with
  | nil => cases hmem
  | cons first rules ih =>
    by_cases hfirst : first = rule
    · have hout : (first.apply e).getD e = out := by
        rw [hfirst, apply_eq_some_iff.mpr h, Option.getD_some]
      exact (congrArg (replaceAll rules) hout).trans (replaceAll_of_kept hkept)
    · have hnone : first.apply e = none := by
        rw [Option.eq_none_iff_forall_ne_some]
        intro b hb
        exact hfirst (honly first b (apply_eq_some_iff.mp hb))
      have hsame : (first.apply e).getD e = e := by rw [hnone, Option.getD_none]
      have hrest : rule ∈ rules := (List.mem_cons.mp hmem).resolve_left (Ne.symm hfirst)
      exact (congrArg (replaceAll rules) hsame).trans (ih hrest)

end Rule

/-! ## Trees that are not evaluated -/

namespace Expr

theorem not_isEvaluable_of_child {filter : EvaluableFilter} {e c : Expr} (hc : c ∈ e.children)
    (h : ¬ c.isEvaluable filter) : ¬ e.isEvaluable filter := by
  rw [isEvaluable_eq, Bool.and_eq_true, List.all_eq_true]
  exact fun hall => h (hall.2 c hc)

theorem not_isEvaluable_of_root {filter : EvaluableFilter} {e : Expr} (h : ¬ filter.admits e) :
    ¬ e.isEvaluable filter := by
  rw [isEvaluable_eq, Bool.and_eq_true]
  exact fun hall => h hall.1

theorem not_isFoldable {filter : EvaluableFilter} {e : Expr} (h : ¬ e.isEvaluable filter) :
    ¬ e.isFoldable filter :=
  fun hfoldable => h (Bool.and_eq_true_iff.mp hfoldable).2

/-! ## A round at a node and its children -/

/-- Normalization treats the children of a node, and then tries the rules at it. -/
theorem tree_normalize (rules : List Rule) (e : Expr) :
    (e.normalize rules).tree = Rule.replaceAll rules
      (e.withChildren (e.children.map fun c => (c.normalize rules).tree)) := by
  rw [normalize_eq, Rule.tree_tryAll, tree_gather_map e (normalize_keeps rules)]

/-- The tree that normalization by the standard rules leads to. -/
def normalized (e : Expr) : Expr :=
  (e.normalize Rule.standard).tree

theorem normalized_eq (e : Expr) :
    e.normalized = Rule.replaceAll Rule.standard (e.withChildren (e.children.map normalized)) :=
  tree_normalize Rule.standard e

/-- The tree after a round of the standard passes. -/
def sweep (e : Expr) : Except CompileError Expr :=
  (e.fold .allowAll).map fun edit => edit.tree.normalized

/-- A round treats the children of a node that is not evaluated, and then tries the rules at it. -/
theorem sweep_eq {e : Expr} (h : ¬ e.isEvaluable .allowAll) :
    e.sweep = (e.children.mapM sweep).map fun cs =>
      Rule.replaceAll Rule.standard (e.withChildren cs) := by
  have hparts : e.children.mapM sweep = (e.children.mapM (fold .allowAll)).map
      (List.map fun edit => edit.tree.normalized) := mapM_map_eq ..
  rw [sweep, fold_eq, if_neg (not_isFoldable h), mapChildren_eq_map, hparts]
  cases hedits : e.children.mapM (fold .allowAll) with
  | error err => rfl
  | ok edits =>
    have hkeeps : List.Forall₂ Edit.Keeps e.children edits :=
      (mapM_eq_ok_iff.mp hedits).imp fun _ _ => fold_keeps
    have hcs : (edits.map Edit.tree).length = e.children.length := by
      rw [List.length_map, hkeeps.length_eq]
    -- all children are folded before the first one is normalized, but no child sees another
    have hnode : (e.gather edits).tree.normalized = Rule.replaceAll Rule.standard
        (e.withChildren ((edits.map Edit.tree).map normalized)) := by
      rw [tree_gather e hkeeps, normalized_eq, children_withChildren e hcs,
        withChildren_withChildren e hcs (by rw [List.length_map, hcs])]
    rw [List.map_map] at hnode
    exact congrArg Except.ok hnode

theorem sweep_lambda (params : List String) (body : Expr) :
    (lambda params body).sweep = body.sweep.map (lambda params) := by
  have hlive : ¬ (lambda params body).isEvaluable .allowAll :=
    not_isEvaluable_of_root (by simp [EvaluableFilter.admits])
  rw [sweep_eq hlive, children, List.mapM_cons]
  cases body.sweep <;> rfl

theorem sweep_quote (inner : Expr) :
    (quote inner).sweep = inner.sweep.map fun x => Rule.replaceAll Rule.standard (quote x) := by
  have hlive : ¬ (quote inner).isEvaluable .allowAll :=
    not_isEvaluable_of_root (by simp [EvaluableFilter.admits])
  rw [sweep_eq hlive, children, List.mapM_cons]
  cases inner.sweep <;> rfl

theorem sweep_queryable (m : String) (r : Expr) (args : List Expr) :
    (call .queryable m r args).sweep = do
      let q ← r.sweep
      let as ← args.mapM sweep
      return Rule.replaceAll Rule.standard (call .queryable m q as) := by
  have hlive : ¬ (call .queryable m r args).isEvaluable .allowAll :=
    not_isEvaluable_of_root (by simp [EvaluableFilter.admits])
  rw [sweep_eq hlive, children, List.mapM_cons]
  cases r.sweep with
  | error err => rfl
  | ok q => cases args.mapM sweep <;> rfl

end Expr

/-! ## Settling after one round -/

theorem roundTree_standard (e : Expr) :
    roundTree Pass.standard e = e.sweep.mapError Stop.fault := by
  have hnormalize : ∀ x, roundTree [Pass.normalize Rule.standard] x = .ok x.normalized := by
    intro x
    rw [roundTree_cons, Pass.normalize_result]
    rfl
  rw [Pass.standard, roundTree_cons, Pass.fold_result, Expr.sweep]
  cases e.fold .allowAll with
  | error err => rfl
  | ok edit => exact hnormalize edit.tree

variable {passes : List Pass}

/-- What further rounds lead to depends on the tree that they start from, and not on how it came
about. The last change so far is forgotten, since one more round is run at least. -/
theorem settleFrom_congr {edit edit' : Edit} (h : edit.tree = edit'.tree)
    (left done : Nat) (last last' : String) :
    (settleFrom passes (left + 1) done edit last).map (fun s => s.edit.tree) =
      (settleFrom passes (left + 1) done edit' last').map fun s => s.edit.tree := by
  induction left generalizing done edit edit' last last' with
  | zero =>
    rw [settleFrom, settleFrom, h]
    rcases runRound passes edit'.tree with stop | ⟨tree, _ | pass⟩
    · rfl
    · exact congrArg Except.ok h
    · rfl
  | succ left ih =>
    rw [settleFrom, settleFrom, h]
    rcases runRound passes edit'.tree with stop | ⟨tree, _ | pass⟩
    · rfl
    · exact congrArg Except.ok h
    · exact ih rfl (done + 1) pass pass

/-- **Settling after one round.** What the passes settle on is found from the tree after one round,
also if that round changed nothing: then the next one does not either. -/
theorem settledTree_eq_roundTree (passes : List Pass) (e : Expr) :
    settledTree passes e = roundTree passes e >>= fun t =>
      (settleFrom passes (maxRounds - 1) 1 (.shared t) "").map fun s => s.edit.tree := by
  have hfirst : settledTree passes e = (settleFrom passes maxRounds 0 (.shared e) "").map
      fun s => s.edit.tree := rfl
  rw [hfirst, maxRounds, settleFrom, Edit.tree_shared, roundTree]
  cases hr : runRound passes e with
  | error stop => rfl
  | ok r =>
    obtain ⟨tree, lastChange⟩ := r
    cases lastChange with
    | none =>
      obtain ⟨rfl, -⟩ := runRound_none_iff.mp hr
      change _ = (settleFrom passes (14 + 1) 1 (.shared tree) "").map _
      rw [settleFrom, Edit.tree_shared, hr]
      rfl
    | some pass =>
      have hsame : (Edit.changed tree).tree = (Edit.shared tree).tree := rfl
      exact settleFrom_congr hsame 14 1 pass ""

end QueryChain
