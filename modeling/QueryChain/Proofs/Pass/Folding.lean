import QueryChain.Proofs.Eval.Evaluable
import QueryChain.Proofs.Expr.Positions
import QueryChain.Proofs.Pass.NormalForm

/-!
# What partial evaluation replaces

Partial evaluation replaces the largest evaluable parts of a tree and looks no further below them.
They are described here by their positions, without the pass: a part is evaluated by itself if it is
evaluable and no node above it is. The pass ends with a tree iff all of these parts have values, and
the tree then holds the values at their positions and is as before everywhere else. If some parts
have none, the error is that of the first one in the order of visiting.

What is left is not evaluable as it stands. If the filter goes by names it does not become so by the
values that are now below it, and a second pass finds nothing to do.

## Main definitions

* `Expr.Maximal`: a part that is evaluated by itself
* `Expr.FoldsTo`: a tree with the values of these parts in their places

## Main results

* `Expr.exists_fold_iff`, `Expr.fold_foldsTo`, `Expr.fold_eq_error_iff`: the outcome of the pass
* `Expr.FoldsTo.unique`: a tree folds to one tree only
* `Expr.fold_noFoldable`: nothing is left for a second pass
* `fold_maximal`: all of this at once
-/

namespace QueryChain

namespace Expr

variable {filter : EvaluableFilter} {e x out : Expr} {p : List Nat}

/-- The part at the position is evaluated by itself: it is evaluable and not yet a value, and
nothing above it is evaluable. -/
structure Maximal (filter : EvaluableFilter) (e : Expr) (p : List Nat) (x : Expr) : Prop where
  found : e.subtreeAt p = some x
  live : ∀ v, x ≠ .constant v
  evaluable : x.isEvaluable filter
  outermost : ∀ q, q <+: p → q ≠ p → ∀ y, e.subtreeAt q = some y → ¬ y.isEvaluable filter

theorem isFoldable_iff :
    e.isFoldable filter ↔ (∀ v, e ≠ .constant v) ∧ e.isEvaluable filter := by
  rw [isFoldable, Bool.and_eq_true, Bool.not_eq_true']
  refine and_congr_left fun _ => ?_
  cases e <;> simp [isConstant]

theorem maximal_nil_iff : Maximal filter e [] x ↔ x = e ∧ e.isFoldable filter := by
  rw [isFoldable_iff]
  constructor
  · intro h
    obtain rfl : e = x := Option.some.inj h.found
    exact ⟨rfl, h.live, h.evaluable⟩
  · rintro ⟨rfl, hlive, hevaluable⟩
    refine ⟨rfl, hlive, hevaluable, fun q hq hne => ?_⟩
    exact absurd (List.prefix_nil.mp hq) hne

theorem maximal_cons_iff {i : Nat} :
    Maximal filter e (i :: p) x ↔
      ¬ e.isEvaluable filter ∧ ∃ c, e.children[i]? = some c ∧ Maximal filter c p x := by
  constructor
  · intro h
    obtain ⟨c, hc, hx⟩ := subtreeAt_cons_eq_some_iff.mp h.found
    refine ⟨h.outermost [] List.nil_prefix nofun e rfl, c, hc, hx, h.live, h.evaluable, ?_⟩
    intro q hq hne y hy
    refine h.outermost (i :: q) (List.cons_prefix_cons.mpr ⟨rfl, hq⟩) ?_ y ?_
    · simpa using hne
    · exact subtreeAt_cons_eq_some_iff.mpr ⟨c, hc, hy⟩
  · rintro ⟨hroot, c, hc, h⟩
    refine ⟨subtreeAt_cons_eq_some_iff.mpr ⟨c, hc, h.found⟩, h.live, h.evaluable, ?_⟩
    intro q hq hne y hy
    cases q with
    | nil =>
      cases hy
      exact hroot
    | cons j q =>
      obtain ⟨rfl, hqp⟩ := List.cons_prefix_cons.mp hq
      obtain ⟨d, hd, hyd⟩ := subtreeAt_cons_eq_some_iff.mp hy
      cases hc.symm.trans hd
      exact h.outermost q hqp (by simpa using hne) y hyd

/-- An evaluable tree is evaluated as a whole. -/
theorem maximal_of_isFoldable (h : e.isFoldable filter) :
    Maximal filter e p x ↔ p = [] ∧ x = e := by
  cases p with
  | nil => simp [maximal_nil_iff, h]
  | cons i p => simp [maximal_cons_iff, (isFoldable_iff.mp h).2]

/-- The parts of any other tree are those of its children. -/
theorem maximal_of_not_isFoldable (h : ¬ e.isFoldable filter) :
    Maximal filter e p x ↔
      ∃ i q c, p = i :: q ∧ e.children[i]? = some c ∧ Maximal filter c q x := by
  cases p with
  | nil => simp [maximal_nil_iff, h]
  | cons i p =>
    -- a constant is evaluable and yet left alone, but has no children
    have hlive : ∀ c, e.children[i]? = some c → ¬ e.isEvaluable filter := by
      intro c hc hevaluable
      refine h (isFoldable_iff.mpr ⟨?_, hevaluable⟩)
      rintro v rfl
      cases hc
    rw [maximal_cons_iff]
    constructor
    · rintro ⟨-, c, hc, hx⟩
      exact ⟨i, p, c, rfl, hc, hx⟩
    · rintro ⟨j, q, c, heq, hc, hx⟩
      cases heq
      exact ⟨hlive c hc, c, hc, hx⟩

theorem forall_maximal_iff (h : ¬ e.isFoldable filter) {P : Expr → Prop} :
    (∀ p x, Maximal filter e p x → P x) ↔
      ∀ c ∈ e.children, ∀ p x, Maximal filter c p x → P x := by
  constructor
  · intro hall c hc q x hx
    obtain ⟨i, hi⟩ := List.getElem?_of_mem hc
    exact hall (i :: q) x ((maximal_of_not_isFoldable h).mpr ⟨i, q, c, rfl, hi, hx⟩)
  · intro hall p x hx
    obtain ⟨i, q, c, rfl, hc, hx⟩ := (maximal_of_not_isFoldable h).mp hx
    exact hall c (List.mem_of_getElem? hc) q x hx

/-! ## The outcome of the pass -/

theorem toConstant_eq_ok_iff {edit : Edit} :
    e.toConstant = .ok edit ↔ ∃ v, e.evaluate = .ok v ∧ edit = .changed (.constant v) := by
  rw [toConstant]
  cases e.evaluate <;> simp [eq_comm]

theorem toConstant_eq_error_iff {err : CompileError} :
    e.toConstant = .error err ↔ ∃ cause, e.evaluate = .error cause ∧ err = .evaluation e cause := by
  rw [toConstant]
  cases e.evaluate <;> simp [eq_comm]

/-- What the pass does to a tree: it is replaced by its value, or its children are treated. -/
theorem fold_cases {edit : Edit} (h : e.fold filter = .ok edit) :
    (e.isFoldable filter ∧ ∃ v, e.evaluate = .ok v ∧ edit = .changed (.constant v)) ∨
    (¬ e.isFoldable filter ∧ ∃ cs, edit.tree = e.withChildren cs ∧
      List.Forall₂ (fun c d => ∃ edit, c.fold filter = .ok edit ∧ edit.tree = d) e.children cs) := by
  rw [fold_eq] at h
  split at h
  · rename_i hfoldable
    exact .inl ⟨hfoldable, toConstant_eq_ok_iff.mp h⟩
  · rename_i hfoldable
    obtain ⟨edits, hedits, rfl⟩ := mapChildren_eq_ok_iff.mp h
    have hkeeps := hedits.imp fun _ _ => fold_keeps
    refine .inr ⟨hfoldable, _, tree_gather e hkeeps, ?_⟩
    exact forall₂_exists_iff.mpr ⟨edits, hedits, rfl⟩

/-- **The pass ends with a tree** iff every part that is evaluated by itself has a value. -/
theorem exists_fold_iff :
    (∃ edit, e.fold filter = .ok edit) ↔ ∀ p x, Maximal filter e p x → ∃ v, x.evaluate = .ok v := by
  induction e using induction_on_children with
  | node e ih =>
    rw [fold_eq]
    split
    · rename_i hfoldable
      simp [maximal_of_isFoldable hfoldable, toConstant_eq_ok_iff]
    · rename_i hfoldable
      have hparts : (∃ edit, e.mapChildren (fold filter) = .ok edit) ↔
          ∀ c ∈ e.children, ∃ edit, c.fold filter = .ok edit := by
        rw [← exists_forall₂_iff]
        simp [mapChildren_eq_ok_iff]
      rw [hparts, forall_maximal_iff hfoldable, forall₂_congr ih]

/-- **The pass ends with an error** iff some part that is evaluated by itself has no value, and it
is the error of the first such part. -/
theorem fold_eq_error_iff {err : CompileError} :
    e.fold filter = .error err ↔ ∃ p x cause, Maximal filter e p x ∧ x.evaluate = .error cause ∧
      err = .evaluation x cause ∧
      ∀ q y, Maximal filter e q y → VisitedBefore q p → ∃ v, y.evaluate = .ok v := by
  induction e using induction_on_children with
  | node e ih =>
    rw [fold_eq]
    split
    · rename_i hfoldable
      constructor
      · intro h
        obtain ⟨cause, hcause, rfl⟩ := toConstant_eq_error_iff.mp h
        refine ⟨[], e, cause, (maximal_of_isFoldable hfoldable).mpr ⟨rfl, rfl⟩, hcause, rfl, ?_⟩
        intro q y _ hq
        cases hq
      · rintro ⟨p, x, cause, hx, hcause, rfl, -⟩
        obtain ⟨-, rfl⟩ := (maximal_of_isFoldable hfoldable).mp hx
        exact toConstant_eq_error_iff.mpr ⟨cause, hcause, rfl⟩
    · rename_i hfoldable
      rw [mapChildren_eq_map, map_eq_error_iff, mapM_eq_error_iff]
      constructor
      · rintro ⟨i, c, hc, hfold, hbefore⟩
        obtain ⟨p, x, cause, hx, hcause, rfl, hfirst⟩ := (ih c (List.mem_of_getElem? hc)).mp hfold
        refine ⟨i :: p, x, cause, (maximal_of_not_isFoldable hfoldable).mpr ⟨i, p, c, rfl, hc, hx⟩,
          hcause, rfl, fun q y hy hq => ?_⟩
        obtain ⟨j, q, d, rfl, hd, hy⟩ := (maximal_of_not_isFoldable hfoldable).mp hy
        -- a part before this one is in a child before this one, or before it in the same child
        rcases visitedBefore_cons_iff.mp hq with hj | ⟨rfl, hqp⟩
        · exact exists_fold_iff.mp (hbefore j hj d hd) q y hy
        · cases hc.symm.trans hd
          exact hfirst q y hy hqp
      · rintro ⟨p, x, cause, hx, hcause, rfl, hfirst⟩
        obtain ⟨i, p, c, rfl, hc, hx⟩ := (maximal_of_not_isFoldable hfoldable).mp hx
        have hpart : ∀ j q d y, e.children[j]? = some d → Maximal filter d q y →
            VisitedBefore (j :: q) (i :: p) → ∃ v, y.evaluate = .ok v := by
          intro j q d y hd hy hq
          exact hfirst _ y ((maximal_of_not_isFoldable hfoldable).mpr ⟨j, q, d, rfl, hd, hy⟩) hq
        refine ⟨i, c, hc, (ih c (List.mem_of_getElem? hc)).mpr ?_, fun j hj d hd => ?_⟩
        · refine ⟨p, x, cause, hx, hcause, rfl, fun q y hy hq => ?_⟩
          exact hpart i q c y hc hy (visitedBefore_cons_iff.mpr (.inr ⟨rfl, hq⟩))
        · refine exists_fold_iff.mpr fun q y hy => ?_
          exact hpart j q d y hd hy (visitedBefore_cons_iff.mpr (.inl hj))

/-- The pass leaves a tree alone iff no part of it is evaluated by itself. -/
theorem fold_eq_shared_iff_maximal :
    e.fold filter = .ok (.shared e) ↔ ∀ p x, ¬ Maximal filter e p x := by
  induction e using induction_on_children with
  | node e ih =>
    rw [fold_eq]
    split
    · rename_i hfoldable
      simp [maximal_of_isFoldable hfoldable, toConstant_eq_ok_iff]
    · rename_i hfoldable
      have hnone := forall_maximal_iff (P := fun _ => False) hfoldable
      rw [mapChildren_eq_shared_iff_of_keeps fold_keeps, forall₂_congr ih]
      exact hnone.symm

/-! ## The tree after the pass -/

/-- The tree with the values of the parts that are evaluated by themselves in their places.
Everything that is not at or below such a place is as before. -/
structure FoldsTo (filter : EvaluableFilter) (e out : Expr) : Prop where
  value : ∀ p x, Maximal filter e p x →
    ∃ v, x.evaluate = .ok v ∧ out.subtreeAt p = some (.constant v)
  kept : ∀ p, (∀ q x, q <+: p → ¬ Maximal filter e q x) →
    (out.subtreeAt p).map head = (e.subtreeAt p).map head

/-- A tree folds to one tree only. -/
theorem FoldsTo.unique {out' : Expr} (h : FoldsTo filter e out) (h' : FoldsTo filter e out') :
    out = out' := by
  refine ext_subtreeAt fun p => ?_
  by_cases hp : ∃ q x, q <+: p ∧ Maximal filter e q x
  · obtain ⟨q, x, ⟨r, rfl⟩, hx⟩ := hp
    obtain ⟨v, hv, hout⟩ := h.value q x hx
    obtain ⟨v', hv', hout'⟩ := h'.value q x hx
    cases hv.symm.trans hv'
    rw [subtreeAt_append, subtreeAt_append, hout, hout']
  · have hnone : ∀ q x, q <+: p → ¬ Maximal filter e q x := fun q x hq hx => hp ⟨q, x, hq, hx⟩
    rw [h.kept p hnone, h'.kept p hnone]

theorem foldsTo_constant (h : e.isFoldable filter) {v : Value} (hv : e.evaluate = .ok v) :
    FoldsTo filter e (.constant v) := by
  refine ⟨fun p x hx => ?_, fun p hp => ?_⟩
  · obtain ⟨rfl, rfl⟩ := (maximal_of_isFoldable h).mp hx
    exact ⟨v, hv, rfl⟩
  · exact absurd ((maximal_of_isFoldable h).mpr ⟨rfl, rfl⟩) (hp [] e List.nil_prefix)

/-- A node that is not evaluated folds to the node with its children folded. -/
theorem foldsTo_of_children (h : ¬ e.isFoldable filter) (hhead : out.head = e.head)
    (hparts : List.Forall₂ (FoldsTo filter) e.children out.children) : FoldsTo filter e out := by
  constructor
  · intro p x hx
    obtain ⟨i, q, c, rfl, hc, hx⟩ := (maximal_of_not_isFoldable h).mp hx
    obtain ⟨d, hd, hcd⟩ := exists_getElem?_of_forall₂ hparts.flip hc
    obtain ⟨v, hv, hout⟩ := hcd.value q x hx
    exact ⟨v, hv, subtreeAt_cons_eq_some_iff.mpr ⟨d, hd, hout⟩⟩
  · intro p hp
    cases p with
    | nil => simp [hhead]
    | cons i p =>
      rw [subtreeAt_cons, subtreeAt_cons]
      cases hc : e.children[i]? with
      | none =>
        have hd : out.children[i]? = none := by
          rw [List.getElem?_eq_none_iff] at hc ⊢
          exact hparts.length_eq ▸ hc
        rw [hd]
      | some c =>
        obtain ⟨d, hd, hcd⟩ := exists_getElem?_of_forall₂ hparts.flip hc
        rw [hd]
        refine hcd.kept p fun q x hq hx => ?_
        exact hp (i :: q) x (List.cons_prefix_cons.mpr ⟨rfl, hq⟩)
          ((maximal_of_not_isFoldable h).mpr ⟨i, q, c, rfl, hc, hx⟩)

/-- **The tree that the pass ends with** holds the values and is as before everywhere else. -/
theorem fold_foldsTo {edit : Edit} (h : e.fold filter = .ok edit) :
    FoldsTo filter e edit.tree := by
  induction e using induction_on_children generalizing edit with
  | node e ih =>
    rcases fold_cases h with ⟨hfoldable, v, hv, rfl⟩ | ⟨hfoldable, cs, hout, hcs⟩
    · exact foldsTo_constant hfoldable hv
    · have hparts : List.Forall₂ (FoldsTo filter) e.children cs := by
        refine ((List.forall₂_and_left _ _).mpr ⟨ih, hcs⟩).imp ?_
        rintro c _ ⟨hc, edit, hedit, rfl⟩
        exact hc hedit
      have hlen := hparts.length_eq.symm
      rw [hout]
      refine foldsTo_of_children hfoldable (head_withChildren e hlen) ?_
      rw [children_withChildren e hlen]
      exact hparts

/-! ## A second pass -/

theorem not_isFoldable_withChildren (hfilter : filter.ByName) {cs : List Expr}
    (hcs : List.Forall₂ (fun c d => d.isEvaluable filter → c.isEvaluable filter) e.children cs)
    (h : ¬ e.isFoldable filter) : ¬ (e.withChildren cs).isFoldable filter := by
  intro hfoldable
  obtain ⟨hconstant, hevaluable⟩ := isFoldable_iff.mp hfoldable
  refine h (isFoldable_iff.mpr ⟨?_, (evaluable_isCongruence hfilter).node e hcs hevaluable⟩)
  rintro v rfl
  exact hconstant v rfl

/-- A filter that goes by names does not admit a tree for the values in it that it did not admit
before. -/
theorem isEvaluable_of_fold (hfilter : filter.ByName) {edit : Edit}
    (h : e.fold filter = .ok edit) (hout : edit.tree.isEvaluable filter) :
    e.isEvaluable filter :=
  (evaluable_isCongruence hfilter).fold (fun _ _ ha _ _ => (isFoldable_iff.mp ha).2) h hout

/-- **Nothing is left for a second pass,** if the filter goes by names. -/
theorem fold_noFoldable (hfilter : filter.ByName) {edit : Edit} (h : e.fold filter = .ok edit) :
    ∀ x ∈ edit.tree.subtrees, ¬ x.isFoldable filter := by
  induction e using induction_on_children generalizing edit with
  | node e ih =>
    rcases fold_cases h with ⟨-, v, -, rfl⟩ | ⟨hfoldable, cs, hout, hcs⟩
    · refine forall_mem_subtrees.mpr ⟨fun hfoldable => ?_, by simp [children]⟩
      exact (isFoldable_iff.mp hfoldable).1 v rfl
    · have hparts : List.Forall₂ (fun c d => (d.isEvaluable filter → c.isEvaluable filter) ∧
          ∀ x ∈ d.subtrees, ¬ x.isFoldable filter) e.children cs := by
        refine ((List.forall₂_and_left _ _).mpr ⟨ih, hcs⟩).imp ?_
        rintro c _ ⟨hc, edit, hedit, rfl⟩
        exact ⟨isEvaluable_of_fold hfilter hedit, hc hedit⟩
      rw [hout, forall_mem_subtrees, children_withChildren e hparts.length_eq.symm]
      exact ⟨not_isFoldable_withChildren hfilter (hparts.imp fun _ _ h => h.1) hfoldable,
        forall_mem_of_forall₂ (hparts.imp fun _ _ h => h.2)⟩

end Expr

/-- **Partial evaluation replaces the largest evaluable parts, in one pass.** It ends with a tree
iff each of these parts has a value. The tree then holds these values and is as before everywhere
else, and is reported as a new one iff there are such parts. Otherwise the error is that of the
first part without a value, in the order of visiting, and shows this part. If the filter goes by
names, a second pass leaves the tree alone. -/
theorem fold_maximal (filter : EvaluableFilter) (e : Expr) :
    ((∃ edit, e.fold filter = .ok edit) ↔
      ∀ p x, e.Maximal filter p x → ∃ v, x.evaluate = .ok v) ∧
    (∀ edit, e.fold filter = .ok edit ↔ e.FoldsTo filter edit.tree ∧
      (edit.isChanged ↔ ∃ p x, e.Maximal filter p x)) ∧
    (∀ err, e.fold filter = .error err ↔ ∃ p x cause, e.Maximal filter p x ∧
      x.evaluate = .error cause ∧ err = .evaluation x cause ∧
      err.message = "evaluating " ++ x.render ++ " failed" ∧
      ∀ q y, e.Maximal filter q y → VisitedBefore q p → ∃ v, y.evaluate = .ok v) ∧
    (filter.ByName → ∀ edit, e.fold filter = .ok edit →
      edit.tree.fold filter = .ok (.shared edit.tree)) := by
  have hflag : ∀ {edit}, e.fold filter = .ok edit →
      (edit.isChanged ↔ ∃ p x, e.Maximal filter p x) := by
    intro edit h
    have hshared : edit.isChanged = false ↔ ∀ p x, ¬ e.Maximal filter p x := by
      rw [← (Expr.fold_keeps h).eq_shared_iff, ← Expr.fold_eq_shared_iff_maximal, h, Except.ok.injEq]
    rw [← not_iff_not, Bool.not_eq_true, hshared]
    simp only [not_exists]
  refine ⟨Expr.exists_fold_iff, fun edit => ⟨fun h => ⟨Expr.fold_foldsTo h, hflag h⟩, ?_⟩,
    fun err => ?_, fun hfilter edit h => ?_⟩
  · rintro ⟨hfolds, hedit⟩
    obtain ⟨edit', h'⟩ := Expr.exists_fold_iff.mpr fun p x hx =>
      (hfolds.value p x hx).imp fun _ hv => hv.1
    have htree := hfolds.unique (Expr.fold_foldsTo h')
    rw [Edit.ext_tree htree (Bool.eq_iff_iff.mpr (hedit.trans (hflag h').symm))]
    exact h'
  · rw [Expr.fold_eq_error_iff]
    constructor
    · rintro ⟨p, x, cause, hx, hcause, rfl, hfirst⟩
      exact ⟨p, x, cause, hx, hcause, rfl, rfl, hfirst⟩
    · rintro ⟨p, x, cause, hx, hcause, rfl, -, hfirst⟩
      exact ⟨p, x, cause, hx, hcause, rfl, hfirst⟩
  · exact Expr.fold_eq_shared_iff.mpr (Expr.fold_noFoldable hfilter h)

section TwoPasses

-- the passes are run by the kernel
set_option maxRecDepth 4096

/-- `row => row.age > limit && name.len() == 2`. -/
def olderNamed (limit name : Expr) : Expr :=
  .lambda ["row"] (.binary .and (.binary .gt (.member (.parameter "row") "age") limit)
    (.binary .eq (.call .builtin "len" name []) (.constant (.int 2))))

/-- `row => row.age > 10 + 8 && ("a" + "b").len() == 2`. -/
def olderJoined : Expr :=
  olderNamed (.binary .add (.constant (.int 10)) (.constant (.int 8)))
    (.binary .add (.constant (.text "a")) (.constant (.text "b")))

/-- Both sums are replaced, and a second pass leaves the tree alone: the name of the call is
refused. -/
theorem fold_maximal_olderJoined :
    (EvaluableFilter.deny ["len"] []).ByName ∧
    olderJoined.fold (.deny ["len"] []) =
      .ok (.changed (olderNamed (.constant (.int 18)) (.constant (.text "ab")))) ∧
    (olderNamed (.constant (.int 18)) (.constant (.text "ab"))).fold (.deny ["len"] []) =
      .ok (.shared (olderNamed (.constant (.int 18)) (.constant (.text "ab")))) := by
  have hfilter := EvaluableFilter.byName_deny ["len"] []
  have hfold : olderJoined.fold (.deny ["len"] []) =
      .ok (.changed (olderNamed (.constant (.int 18)) (.constant (.text "ab")))) := rfl
  exact ⟨hfilter, hfold, (fold_maximal _ _).2.2.2 hfilter _ hfold⟩

/-- The filter that takes calls on constants only. -/
def onConstants : EvaluableFilter where
  allowsCall c := c.receiver.isConstant
  allowsMember _ _ := true

-- a filter that looks at more than names may take a call once its receiver has been replaced
example :
    olderJoined.fold onConstants =
      .ok (.changed (olderNamed (.constant (.int 18)) (.constant (.text "ab")))) ∧
    (olderNamed (.constant (.int 18)) (.constant (.text "ab"))).fold onConstants =
      .ok (.changed (.lambda ["row"] (.binary .and
        (.binary .gt (.member (.parameter "row") "age") (.constant (.int 18)))
        (.constant (.bool true))))) :=
  ⟨rfl, rfl⟩

end TwoPasses

end QueryChain
