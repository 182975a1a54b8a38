import QueryChain.Proofs.Pass.Canonical
import QueryChain.Proofs.Pass.Hygiene

/-!
# Trees in which no application is opened

Putting arguments in place of parameters can bring about any form that the passes replace, and only
that can. A round therefore ends with a normal tree, unless it opened an application, or took away a
quote or an erased conversion, which may have hidden the lambda of one. These two are gone after one
round.

## Main definitions

* `Expr.Opens`: an application whose arguments the passes put in place
* `Head.Plain`: heads that stay in a tree after a round
* `Expr.Mirrors`: a tree that looks the same to the node above it

## Main results

* `Expr.normalized_plain`: normalization leaves plain heads only
* `Rule.replaceAll_isNormal`: the rules make a node normal whose children are normal
* `Expr.sweep_isNormal`: a round makes a plain tree normal in which no application is opened
-/

namespace QueryChain

/-! ## Normal nodes -/

namespace Expr

/-- A lambda that is applied to an argument for each of its parameters, none of which could be
captured: the passes put the arguments in place. -/
def Opens (e : Expr) : Prop :=
  ∃ params body args, e = .invoke (.lambda params body) args ∧ params.length = args.length ∧
    ¬ CaptureRisk params body args

theorem IsNormal.child {e c : Expr} (h : e.IsNormal) (hc : c ∈ e.children) : c.IsNormal :=
  fun x hx => h x (mem_subtrees.mpr (.inr ⟨c, hc, hx⟩))

theorem isNormal_iff {e : Expr} : e.IsNormal ↔ ¬ e.Redex ∧ ∀ c ∈ e.children, c.IsNormal :=
  forall_mem_subtrees

theorem IsNormal.apply_eq_none {e : Expr} (h : e.IsNormal) (rule : Rule) : rule.apply e = none :=
  (isNormal_iff_isCanonical.mp h).1.apply_eq_none rule

end Expr

/-- **The rules at a node whose children are normal.** They leave it alone, or one of them makes a
replacement and no other one goes on from there; the outcome is normal. -/
theorem Rule.replaceAll_isNormal {e : Expr} (hchildren : ∀ c ∈ e.children, c.IsNormal)
    (hopens : ¬ e.Opens) (hlive : ¬ e.isFoldable .allowAll) :
    (replaceAll standard e).IsNormal ∧ Becomes e (replaceAll standard e) := by
  have hparts := fun c hc => Expr.isNormal_iff_isCanonical.mp (hchildren c hc)
  have hnone : ∀ b, ¬ Contracts .inlineInvoke e b := by
    intro b hb
    cases hb with
    | @invoke f l args hlambda harity hadmits =>
      rcases Expr.asLambda?_eq_some hlambda with rfl | rfl
      · exact hopens ⟨_, _, _, rfl, harity, Expr.forall_admits_iff.mp hadmits⟩
      · exact (Expr.isNormal_iff.mp (hchildren _ List.mem_cons_self)).1 (.quote _)
  obtain ⟨hcanonical, hbecomes⟩ :=
    replaceAll_isCanonical mem_standard (fun c hc => (hparts c hc).1) hnone
  have hfoldable := hbecomes.noFoldable (fun c hc => (hparts c hc).2) hlive
  exact ⟨Expr.isNormal_iff_isCanonical.mpr ⟨hcanonical, hfoldable⟩, hbecomes⟩

/-! ## Trees that look the same from above -/

namespace Expr

/-- The second tree in place of the first one makes no difference to whether a node above it is
evaluated or opened. -/
structure Mirrors (a b : Expr) : Prop where
  free : ∀ n, n ∈ b.free ↔ n ∈ a.free
  bound : ∀ n, n ∈ b.bound ↔ n ∈ a.bound
  evaluable : b.isEvaluable .allowAll → a.isEvaluable .allowAll
  lambda : ∀ ps y, b = .lambda ps y → ∃ x, a = .lambda ps x ∧ ∀ n, n ∈ y.bound ↔ n ∈ x.bound

theorem mirrors_isCongruence : IsCongruence Mirrors where
  refl e := ⟨fun _ => .rfl, fun _ => .rfl, id, fun _ y h => ⟨y, h, fun _ => .rfl⟩⟩
  trans hab hbc := by
    refine ⟨fun n => (hbc.free n).trans (hab.free n), fun n => (hbc.bound n).trans (hab.bound n),
      hab.evaluable ∘ hbc.evaluable, fun ps z hz => ?_⟩
    obtain ⟨y, hy, hbound⟩ := hbc.lambda ps z hz
    obtain ⟨x, hx, hbound'⟩ := hab.lambda ps y hy
    exact ⟨x, hx, fun n => (hbound n).trans (hbound' n)⟩
  node e cs hcs := by
    have hlen : cs.length = e.children.length := hcs.length_eq.symm
    have hhead : (e.withChildren cs).head = e.head := head_withChildren e hlen
    have hchildren : (e.withChildren cs).children = cs := children_withChildren e hlen
    refine ⟨fun n => ⟨fun hn => ?_, fun hn => ?_⟩, fun n => ⟨fun hn => ?_, fun hn => ?_⟩,
      fun h => ?_, fun ps y hy => ?_⟩
    · refine free_subset_of_children hhead ?_ hn
      rw [hchildren]
      exact (hcs.imp fun _ _ h m hm => (h.free m).mp hm).flip
    · refine free_subset_of_children hhead.symm ?_ hn
      rw [hchildren]
      exact hcs.imp fun _ _ h m hm => (h.free m).mpr hm
    · refine bound_subset_of_children hhead ?_ hn
      rw [hchildren]
      exact (hcs.imp fun _ _ h m hm => (h.bound m).mp hm).flip
    · refine bound_subset_of_children hhead.symm ?_ hn
      rw [hchildren]
      exact hcs.imp fun _ _ h m hm => (h.bound m).mpr hm
    · exact (evaluable_isCongruence EvaluableFilter.byName_allowAll).node e
        (hcs.imp fun _ _ h => h.evaluable) h
    · rw [hy] at hhead hchildren
      cases e <;> cases hhead
      subst hchildren
      cases hcs with
      | cons h _ => exact ⟨_, rfl, h.bound⟩

/-- An application is opened only if it was so before its parts were replaced. -/
theorem Opens.of_withChildren {e : Expr} {cs : List Expr}
    (hcs : List.Forall₂ Mirrors e.children cs) (h : (e.withChildren cs).Opens) : e.Opens := by
  obtain ⟨params, y, args', heq, harity, hsafe⟩ := h
  have hlen : cs.length = e.children.length := hcs.length_eq.symm
  have hhead : (e.withChildren cs).head = e.head := head_withChildren e hlen
  have hchildren : (e.withChildren cs).children = cs := children_withChildren e hlen
  rw [heq] at hhead hchildren
  cases e <;> cases hhead
  rename_i f args
  subst hchildren
  cases hcs with
  | cons hf hargs =>
    obtain ⟨x, rfl, hbound⟩ := hf.lambda params y rfl
    refine ⟨params, x, args, rfl, harity.trans hargs.length_eq.symm, ?_⟩
    rintro ⟨a, ha, n, hn, hrisk⟩
    obtain ⟨b, hb, hab⟩ := exists_mem_of_forall₂ hargs ha
    rw [hargs.length_eq, ← hbound n] at hrisk
    exact hsafe ⟨b, hb, n, (hab.free n).mpr hn, hrisk⟩

theorem mirrors_constant {a : Expr} (h : a.isEvaluable .allowAll) (v : Value) :
    a.Mirrors (constant v) := by
  have hnames := names_of_isEvaluable h
  refine ⟨fun n => ⟨nofun, fun hn => absurd hn (hnames n).1⟩,
    fun n => ⟨nofun, fun hn => absurd hn (hnames n).2⟩, fun _ => h, nofun⟩

end Expr

/-- A head that is neither a quote nor a conversion to the erased kind. -/
def Head.Plain (h : Head) : Prop :=
  h ≠ .quote ∧ h ≠ .convert .any

/-- A rule that opens no application replaces a plain node by one that looks the same. -/
theorem Rule.Contracts.mirrors {rule : Rule} {a b : Expr} (h : rule.Contracts a b)
    (hrule : rule ≠ .inlineInvoke) (hplain : a.head.Plain) : a.Mirrors b := by
  refine ⟨fun _ => h.mem_free_iff hrule, fun _ => h.mem_bound_iff hrule, fun hb => ?_,
    fun ps y hy => ?_⟩
  · exact h.isEvaluable_of hrule hplain.1 hb
  · cases h with
    | invoke => exact absurd rfl hrule
    | quote => exact absurd rfl hplain.1
    | convertAny => exact absurd rfl hplain.2
    | notNot hboolean =>
      subst hy
      cases hboolean
    | _ => cases hy

namespace Rule

theorem replaceAll_induction {P : Expr → Prop} {rules : List Rule}
    (hrule : ∀ rule a b, Contracts rule a b → P a → P b) {e : Expr} (h : P e) :
    P (replaceAll rules e) := by
  induction rules generalizing e with
  | nil => exact h
  | cons rule rules ih =>
    have hfirst : P ((rule.apply e).getD e) := by
      cases hb : rule.apply e with
      | none => exact h
      | some b => exact hrule rule e b (apply_eq_some_iff.mp hb) h
    exact ih hfirst

/-- The rules leave no quote or erased conversion above plain trees. -/
theorem replaceAll_plain {e : Expr} (h : ∀ c ∈ e.children, c.Everywhere Head.Plain) :
    (replaceAll standard e).Everywhere Head.Plain := by
  have hkeep : ∀ rules x, x.Everywhere Head.Plain → (replaceAll rules x).Everywhere Head.Plain := by
    intro rules x hx
    refine replaceAll_induction (fun rule a b hab ha => ?_) hx
    exact hab.everywhere (fun _ => ⟨nofun, nofun⟩) (fun _ _ => ⟨nofun, nofun⟩)
      (Expr.everywhere_iff.mp ha).2
  -- the first two rules take the operand in place of such a node
  by_cases hquote : e.head = .quote
  · cases e <;> cases hquote
    exact hkeep standard.tail _ (h _ List.mem_cons_self)
  by_cases hconvert : e.head = .convert .any
  · cases e <;> cases hconvert
    exact hkeep (standard.drop 2) _ (h _ List.mem_cons_self)
  · exact hkeep standard e (Expr.everywhere_iff.mpr ⟨⟨hquote, hconvert⟩, h⟩)

end Rule

/-! ## One round -/

namespace Expr

/-- **Normalization leaves plain heads only.** -/
theorem normalized_plain (e : Expr) : e.normalized.Everywhere Head.Plain := by
  induction e using induction_on_children with
  | node e ih =>
    rw [normalized_eq]
    refine Rule.replaceAll_plain ?_
    rw [children_withChildren e (List.length_map ..)]
    exact List.forall_mem_map.mpr ih

/-- No application is opened anywhere in the tree. -/
def NoOpening (e : Expr) : Prop :=
  ∀ x ∈ e.subtrees, ¬ x.Opens

theorem fold_mirrors {e : Expr} {edit : Edit} (h : e.fold .allowAll = .ok edit) :
    e.Mirrors edit.tree :=
  mirrors_isCongruence.fold
    (fun _ v ha _ => mirrors_constant (Bool.and_eq_true_iff.mp ha).2 v) h

/-- Partial evaluation makes no application one that is opened. -/
theorem fold_noOpening {e : Expr} (h : e.NoOpening) {edit : Edit}
    (hedit : e.fold .allowAll = .ok edit) : edit.tree.NoOpening := by
  induction e using induction_on_children generalizing edit with
  | node e ih =>
    obtain ⟨hopens, hchildren⟩ := forall_mem_subtrees.mp h
    rcases fold_cases hedit with ⟨-, v, -, rfl⟩ | ⟨-, cs, hout, hcs⟩
    · exact forall_mem_subtrees.mpr ⟨by simp [Opens], by simp [children]⟩
    · have hparts : List.Forall₂ (fun c d => c.Mirrors d ∧ d.NoOpening) e.children cs := by
        have hboth := fun c hc => And.intro (ih c hc) (hchildren c hc)
        refine ((List.forall₂_and_left _ _).mpr ⟨hboth, hcs⟩).imp ?_
        rintro c _ ⟨⟨hc, hnone⟩, edit, hedit, rfl⟩
        exact ⟨fold_mirrors hedit, hc hnone hedit⟩
      rw [hout, NoOpening, forall_mem_subtrees, children_withChildren e hparts.length_eq.symm]
      exact ⟨fun hx => hopens (hx.of_withChildren (hparts.imp fun _ _ h => h.1)),
        forall_mem_of_forall₂ (hparts.imp fun _ _ h => h.2)⟩

/-- Normalization makes a plain tree normal in which nothing is left to be evaluated or opened. -/
theorem normalized_isNormal {e : Expr} (hplain : e.Everywhere Head.Plain) (h : e.NoOpening)
    (hlive : ∀ x ∈ e.subtrees, ¬ x.isFoldable .allowAll) :
    e.Mirrors e.normalized ∧ e.normalized.IsNormal := by
  induction e using induction_on_children with
  | node e ih =>
    obtain ⟨hroot, hbelow⟩ := everywhere_iff.mp hplain
    obtain ⟨hopens, hchildren⟩ := forall_mem_subtrees.mp h
    obtain ⟨hfoldable, hlive⟩ := forall_mem_subtrees.mp hlive
    have hparts := fun c hc => ih c hc (hbelow c hc) (hchildren c hc) (hlive c hc)
    have hlen : (e.children.map normalized).length = e.children.length := List.length_map ..
    have hcs : List.Forall₂ Mirrors e.children (e.children.map normalized) :=
      List.forall₂_map_right_iff.mpr (List.forall₂_same.mpr fun c hc => (hparts c hc).1)
    have hnormal : ∀ c ∈ (e.withChildren (e.children.map normalized)).children, c.IsNormal := by
      rw [children_withChildren e hlen]
      exact List.forall_mem_map.mpr fun c hc => (hparts c hc).2
    have hnode := mirrors_isCongruence.node e hcs
    obtain ⟨hout, hstep⟩ := Rule.replaceAll_isNormal hnormal
      (fun hx => hopens (hx.of_withChildren hcs))
      (not_isFoldable_withChildren EvaluableFilter.byName_allowAll
        (hcs.imp fun _ _ h => h.evaluable) hfoldable)
    rw [normalized_eq]
    refine ⟨?_, hout⟩
    rcases hstep with hsame | ⟨rule, hrule, hcontracts⟩
    · rw [hsame]
      exact hnode
    · refine mirrors_isCongruence.trans hnode (hcontracts.mirrors hrule ?_)
      rw [head_withChildren e hlen]
      exact hroot

/-- **A round makes a plain tree normal** in which no application is opened. -/
theorem sweep_isNormal {e out : Expr} (hplain : e.Everywhere Head.Plain) (h : e.NoOpening)
    (hout : e.sweep = .ok out) : out.IsNormal := by
  obtain ⟨edit, hedit, rfl⟩ := map_eq_ok_iff.mp hout
  have hlive := fold_noFoldable EvaluableFilter.byName_allowAll hedit
  have hfolded : edit.tree.Everywhere Head.Plain := by
    refine ((mirrors_isCongruence.within Head.Plain).fold (fun a v ha _ _ => ?_) hedit hplain).1
    exact ⟨everywhere_iff.mpr ⟨⟨nofun, nofun⟩, nofun⟩,
      mirrors_constant (Bool.and_eq_true_iff.mp ha).2 v⟩
  exact (normalized_isNormal hfolded (fold_noOpening h hedit) hlive).2

theorem sweep_plain {e out : Expr} (h : e.sweep = .ok out) : out.Everywhere Head.Plain := by
  obtain ⟨edit, -, rfl⟩ := map_eq_ok_iff.mp h
  exact normalized_plain _

end Expr

end QueryChain
