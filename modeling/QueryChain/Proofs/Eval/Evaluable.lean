import QueryChain.Eval.Evaluable
import QueryChain.Proofs.Expr.Names

/-!
# Evaluable trees

The test for evaluable trees asks at every node whether it is admitted. A filter can only say no
where the test would say yes without it; and if it goes by names, it sees no more of a node than its
head, so that putting other children in place makes a difference only if these are evaluable and the
old ones were not. An evaluable tree holds no name and no data source, since no such node is
admitted.

## Main definitions

* `EvaluableFilter.ByName`: the verdicts of a filter depend on names alone

## Main results

* `Expr.isEvaluable_iff`, `Expr.isEvaluable_iff_subtrees`: the test at a node, and at all nodes
* `Expr.isEvaluable_allowAll`: what a filter leaves is evaluable without it
* `Expr.names_of_isEvaluable`, `Expr.not_readsSource_of_isEvaluable`: what an evaluable tree does
  not hold
* `Expr.evaluable_isCongruence`: other children in place
-/

namespace QueryChain

/-! ## Filters -/

namespace EvaluableFilter

variable {filter : EvaluableFilter}

/-- The verdicts of the filter depend on the names of methods and members alone. -/
structure ByName (filter : EvaluableFilter) : Prop where
  call : ∀ {c d : Call}, c.method = d.method → filter.allowsCall c = filter.allowsCall d
  member : ∀ (s t : Expr) (n : String), filter.allowsMember s n = filter.allowsMember t n

theorem byName_allowAll : allowAll.ByName :=
  ⟨fun _ => rfl, fun _ _ _ => rfl⟩

theorem byName_deny (calls members : List String) : (deny calls members).ByName :=
  ⟨fun h => by simp [deny, h], fun _ _ _ => rfl⟩

/-- A filter that goes by names sees no more of a node than its head. -/
theorem ByName.admits_eq (h : filter.ByName) {a b : Expr} (hhead : a.head = b.head) :
    filter.admits a = filter.admits b := by
  cases a with
  | record => cases b <;> first | rfl | cases hhead
  | member s n =>
    cases b <;> cases hhead
    exact h.member s _ n
  | call o m r args =>
    cases b <;> cases hhead
    rename_i s bs
    have hcall := h.call (c := ⟨o, m, r, args⟩) (d := ⟨o, m, s, bs⟩) rfl
    simp only [admits, hcall]
  | _ =>
    cases b <;> cases hhead
    all_goals rfl

/-- A filter can only narrow what is evaluated. -/
theorem admits_allowAll {e : Expr} (h : filter.admits e) : allowAll.admits e := by
  cases e with
  | member t n => rfl
  | call o m r args =>
    simp only [admits, Bool.and_eq_true] at h ⊢
    exact ⟨h.1, rfl⟩
  | _ => exact h

end EvaluableFilter

/-! ## The test -/

namespace Expr

variable {filter : EvaluableFilter} {e : Expr}

/-- A tree is evaluable iff its root is admitted and its children are evaluable. -/
theorem isEvaluable_iff :
    e.isEvaluable filter ↔ filter.admits e ∧ ∀ c ∈ e.children, c.isEvaluable filter := by
  rw [isEvaluable_eq, Bool.and_eq_true, List.all_eq_true]

/-- A tree is evaluable iff every node of it is admitted. -/
theorem isEvaluable_iff_subtrees :
    e.isEvaluable filter ↔ ∀ x ∈ e.subtrees, filter.admits x := by
  induction e using induction_on_children with
  | node e ih => rw [isEvaluable_iff, forall_mem_subtrees, forall₂_congr ih]

theorem isEvaluable_allowAll (h : e.isEvaluable filter) : e.isEvaluable .allowAll :=
  isEvaluable_iff_subtrees.mpr fun x hx =>
    EvaluableFilter.admits_allowAll (isEvaluable_iff_subtrees.mp h x hx)

/-- A tree that is evaluated ahead of the query holds no names. -/
theorem names_of_isEvaluable (h : e.isEvaluable filter) (n : String) :
    n ∉ e.free ∧ n ∉ e.bound := by
  induction e using induction_on_children with
  | node e ih =>
    obtain ⟨hroot, hchildren⟩ := isEvaluable_iff.mp h
    rw [mem_free_iff, mem_bound_iff]
    refine ⟨?_, ?_⟩
    · rintro (hparameter | ⟨⟨c, hc, hn⟩, -⟩)
      · cases e <;> cases hparameter
        cases hroot
      · exact (ih c hc (hchildren c hc)).1 hn
    · rintro (⟨ps, hlambda, -⟩ | ⟨c, hc, hn⟩)
      · cases e <;> cases hlambda
        cases hroot
      · exact (ih c hc (hchildren c hc)).2 hn

theorem not_readsSource_of_isEvaluable (h : e.isEvaluable filter) : ¬ e.readsSource := by
  refine not_readsSource_iff.mpr fun x hx n hn => ?_
  have hroot := isEvaluable_iff_subtrees.mp h x hx
  cases x <;> cases hn
  cases hroot

/-- To be evaluable only if another tree is so is a congruence, if the filter goes by names. -/
theorem evaluable_isCongruence (hfilter : filter.ByName) :
    IsCongruence fun a b => b.isEvaluable filter → a.isEvaluable filter where
  refl _ := id
  trans hab hbc := hab ∘ hbc
  node e cs hcs h := by
    have hlen : cs.length = e.children.length := hcs.length_eq.symm
    rw [isEvaluable_iff, children_withChildren e hlen,
      hfilter.admits_eq (head_withChildren e hlen)] at h
    refine isEvaluable_iff.mpr ⟨h.1, fun c hc => ?_⟩
    obtain ⟨d, hd, hcd⟩ := exists_mem_of_forall₂ hcs hc
    exact hcd (h.2 d hd)

end Expr

end QueryChain
