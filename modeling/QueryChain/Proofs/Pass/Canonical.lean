import QueryChain.Proofs.Pass.Folding
import QueryChain.Proofs.Pass.Sweep

/-!
# Canonical trees

A tree is canonical if no rule applies anywhere in it. What a rule makes of a node with canonical
children is canonical again, unless the rule opens an application: no rule brings back what another one
replaces, neither at the node nor below it. So the rules need to be tried only once at each node, in
whatever order, and one pass over a tree without applications leaves a canonical tree.

Being canonical is one half of being normal. The other half is that nothing is left to be evaluated,
and rules keep that half too.

## Main definitions

* `Expr.IsCanonical`: no rule applies anywhere in the tree
* `Expr.NoFoldable`: nothing in the tree is to be replaced by its value
* `Rule.Becomes`: one rule replaces the node, or none does

## Main results

* `Expr.isNormal_iff_isCanonical`: the two halves of being normal
* `Rule.Contracts.rule_unique`: at most one rule applies to a node
* `Rule.Contracts.isCanonical`, `Rule.Becomes.noFoldable`: what a rule makes of a node
* `Rule.replaceAll_isCanonical`: what all rules make of a node with canonical children
* `Rule.Becomes.unique`: a node becomes one canonical tree at most
* `Expr.normalize_isCanonical`: one pass over a tree without applications
-/

namespace QueryChain

namespace Expr

/-- No rule applies anywhere in the tree. -/
def IsCanonical (e : Expr) : Prop :=
  ∀ x ∈ e.subtrees, ∀ rule b, ¬ Rule.Contracts rule x b

/-- Nothing in the tree is to be replaced by its value. -/
def NoFoldable (e : Expr) : Prop :=
  ∀ x ∈ e.subtrees, ¬ x.isFoldable .allowAll

variable {e : Expr}

theorem isCanonical_iff :
    e.IsCanonical ↔ (∀ rule b, ¬ Rule.Contracts rule e b) ∧ ∀ c ∈ e.children, c.IsCanonical :=
  forall_mem_subtrees

theorem noFoldable_iff :
    e.NoFoldable ↔ ¬ e.isFoldable .allowAll ∧ ∀ c ∈ e.children, c.NoFoldable :=
  forall_mem_subtrees

/-- **A normal tree** is one that no rule and no evaluation changes. -/
theorem isNormal_iff_isCanonical : e.IsNormal ↔ e.IsCanonical ∧ e.NoFoldable := by
  constructor
  · intro h
    refine ⟨fun x hx rule b hb => ?_, fun x hx hfoldable => ?_⟩
    · obtain ⟨y, hy, hredex⟩ := exists_redex_of_contracts hb
      exact h y (mem_subtrees_trans hy hx) hredex
    · obtain ⟨hconstant, hevaluable⟩ := Bool.and_eq_true_iff.mp hfoldable
      refine h x hx (.evaluable hevaluable ?_)
      rintro v rfl
      cases hconstant
  · rintro ⟨hcanonical, hlive⟩ x hx hredex
    rcases hredex.replaced with ⟨rule, b, hb⟩ | hfoldable
    · exact hcanonical x hx rule b hb
    · exact hlive x hx hfoldable

theorem IsCanonical.apply_eq_none (h : e.IsCanonical) (rule : Rule) : rule.apply e = none := by
  rw [Option.eq_none_iff_forall_ne_some]
  intro b hb
  exact h e (self_mem_subtrees e) rule b (Rule.apply_eq_some_iff.mp hb)

/-- Normalization leaves a canonical tree alone. -/
theorem IsCanonical.normalize_eq_shared (h : e.IsCanonical) (rules : List Rule) :
    e.normalize rules = .shared e := by
  refine normalize_eq_shared_iff.mpr fun x hx rule _ => ?_
  refine IsCanonical.apply_eq_none (fun y hy => ?_) rule
  exact h y (mem_subtrees_trans hy hx)

/-! ## Evaluation -/

theorem not_isEvaluable_queryable (m : String) (r : Expr) (args : List Expr) :
    ¬ (call .queryable m r args).isEvaluable .allowAll :=
  not_isEvaluable_of_root (by simp [EvaluableFilter.admits])

end Expr

/-! ## One rule at a node -/

namespace Rule.Contracts

variable {rule rule' : Rule} {a b b' : Expr}

/-- At most one rule applies to a node. -/
theorem rule_unique (h : rule.Contracts a b) (h' : rule'.Contracts a b') : rule' = rule := by
  cases h with
  | rename hnamed r args =>
    cases h' with
    | rename => rfl
    | overload =>
      exact absurd (exists_lookup_aliases_iff.mp ⟨_, hnamed⟩) (Reduction.name_notMem_aliases _)
  | @overload op p l hlambda harity r =>
    cases rule' with
    | lowerPredicateOverload => rfl
    | canonicalAlias =>
      cases h' with
      | rename hnamed =>
        exact absurd (exists_lookup_aliases_iff.mp ⟨_, hnamed⟩) op.name_notMem_aliases
    | _ => cases h'
  | _ => cases h' <;> rfl

/-- A sequence operation is replaced for its name, or as a reduction with an argument. -/
theorem of_queryable {m : String} {r : Expr} {args : List Expr}
    (h : rule.Contracts (.call .queryable m r args) b) :
    m ∈ aliases.map Prod.fst ∨ m ∈ Reduction.all.map Reduction.name ∧ args ≠ [] := by
  generalize he : Expr.call .queryable m r args = e at h
  cases h with
  | rename hnamed =>
    cases he
    exact .inl (exists_lookup_aliases_iff.mp ⟨_, hnamed⟩)
  | @overload op =>
    obtain ⟨-, rfl, -, rfl⟩ := Expr.call.inj he
    exact .inr ⟨List.mem_map_of_mem (mem_reductions op), nofun⟩
  | _ => cases he

/-- **A replacement is canonical,** if the children of the node are canonical and no application is
opened. -/
theorem isCanonical (h : rule.Contracts a b) (hrule : rule ≠ .inlineInvoke)
    (ha : ∀ c ∈ a.children, c.IsCanonical) : b.IsCanonical := by
  cases h with
  | invoke => exact absurd rfl hrule
  | quote | convertAny | convertTwice => exact ha _ List.mem_cons_self
  | rename hnamed r args =>
    obtain ⟨-, hcanonical, -, hreduction⟩ := aliases_spec _ (mem_aliases_of_lookup hnamed)
    refine Expr.isCanonical_iff.mpr ⟨fun rule b hb => ?_, ha⟩
    rcases hb.of_queryable with hname | ⟨hname, -⟩
    · exact hcanonical hname
    · exact hreduction hname
  | @overload op p l hlambda harity r =>
    have hfilter : (Expr.call .queryable "filter" r [p]).IsCanonical := by
      refine Expr.isCanonical_iff.mpr ⟨fun rule b hb => ?_, ha⟩
      rcases hb.of_queryable with hname | ⟨hname, -⟩
      · exact absurd hname (by decide)
      · exact absurd hname (by decide)
    refine Expr.isCanonical_iff.mpr ⟨fun rule b hb => ?_, List.forall_mem_singleton.mpr hfilter⟩
    rcases hb.of_queryable with hname | ⟨-, hargs⟩
    · exact op.name_notMem_aliases hname
    · exact hargs rfl
  | @exchange op exchanged x hexchange v hlive =>
    obtain ⟨hv, hx⟩ := List.forall_mem_cons.mp ha
    refine Expr.isCanonical_iff.mpr ⟨fun rule b hb => ?_, ?_⟩
    · cases hb with
      | exchange _ w => exact hlive w rfl
    · exact List.forall_mem_cons.mpr
        ⟨List.forall_mem_singleton.mp hx, List.forall_mem_singleton.mpr hv⟩
  | @negate op opposite hnegate x y =>
    -- the comparison below the negation would have been turned around as well
    obtain ⟨hroot, hchildren⟩ := Expr.isCanonical_iff.mp (ha _ List.mem_cons_self)
    refine Expr.isCanonical_iff.mpr ⟨fun rule b hb => ?_, hchildren⟩
    cases hb with
    | exchange _ v hlive =>
      have hexchange : ∃ exchanged, op.exchanged? = some exchanged := by
        cases op <;> first | exact ⟨_, rfl⟩ | cases hnegate
      obtain ⟨exchanged, hexchange⟩ := hexchange
      exact hroot _ _ (.exchange hexchange v hlive)
  | notNot =>
    have hinner := Expr.isCanonical_iff.mp (ha _ List.mem_cons_self)
    exact hinner.2 _ List.mem_cons_self

/-- What is evaluated after a replacement was so before, unless a quote was in the way. -/
theorem isEvaluable_of (h : rule.Contracts a b) (hrule : rule ≠ .inlineInvoke)
    (hquote : a.head ≠ .quote) (hb : b.isEvaluable .allowAll) : a.isEvaluable .allowAll := by
  cases h with
  | invoke => exact absurd rfl hrule
  | quote => exact absurd rfl hquote
  | rename | overload => exact absurd hb (Expr.not_isEvaluable_queryable _ _ _)
  | _ =>
    simpa [Expr.isEvaluable_eq _ (.binary _ _ _), Expr.isEvaluable_eq _ (.unary _ _),
      Expr.isEvaluable_eq _ (.convert _ _), Expr.children, EvaluableFilter.admits,
      and_comm] using hb

/-- A replacement leaves nothing to be evaluated, if nothing below the node is and the node is not. -/
theorem noFoldable (h : rule.Contracts a b) (hrule : rule ≠ .inlineInvoke)
    (ha : ∀ c ∈ a.children, c.NoFoldable) (hlive : ¬ a.isEvaluable .allowAll) : b.NoFoldable := by
  have hquery : ∀ m r args, (∀ c ∈ r :: args, c.NoFoldable) →
      (Expr.call .queryable m r args).NoFoldable := fun m r args hparts =>
    Expr.noFoldable_iff.mpr
      ⟨Expr.not_isFoldable (Expr.not_isEvaluable_queryable m r args), hparts⟩
  cases h with
  | invoke => exact absurd rfl hrule
  | quote | convertAny | convertTwice => exact ha _ List.mem_cons_self
  | rename _ r args => exact hquery _ r args ha
  | @overload op p l hlambda harity r =>
    exact hquery _ _ [] (List.forall_mem_singleton.mpr (hquery _ r [p] ha))
  | @exchange op exchanged x hexchange v hconstant =>
    obtain ⟨hv, hx⟩ := List.forall_mem_cons.mp ha
    refine Expr.noFoldable_iff.mpr ⟨Expr.not_isFoldable fun hb => hlive ?_, ?_⟩
    · exact isEvaluable_of (.exchange hexchange v hconstant) nofun nofun hb
    · exact List.forall_mem_cons.mpr
        ⟨List.forall_mem_singleton.mp hx, List.forall_mem_singleton.mpr hv⟩
  | @negate op opposite hnegate x y =>
    have hinner := Expr.noFoldable_iff.mp (ha _ List.mem_cons_self)
    refine Expr.noFoldable_iff.mpr ⟨Expr.not_isFoldable fun hb => hlive ?_, hinner.2⟩
    exact isEvaluable_of (.negate hnegate x y) nofun nofun hb
  | notNot =>
    have hinner := Expr.noFoldable_iff.mp (ha _ List.mem_cons_self)
    exact hinner.2 _ List.mem_cons_self

/-- A rule replaces no constant, so that a node that it replaces is foldable if it is evaluable. -/
theorem not_isEvaluable (h : rule.Contracts a b) (hlive : ¬ a.isFoldable .allowAll) :
    ¬ a.isEvaluable .allowAll := by
  intro hevaluable
  refine hlive (Bool.and_eq_true_iff.mpr ⟨?_, hevaluable⟩)
  cases h <;> rfl

end Rule.Contracts

/-! ## All rules at a node -/

namespace Rule

/-- The second tree is the first one, or what one rule makes of it without opening an application. -/
def Becomes (e out : Expr) : Prop :=
  out = e ∨ ∃ rule, rule ≠ .inlineInvoke ∧ Contracts rule e out

theorem Becomes.noFoldable {e out : Expr} (h : Becomes e out)
    (hchildren : ∀ c ∈ e.children, c.NoFoldable) (hlive : ¬ e.isFoldable .allowAll) :
    out.NoFoldable := by
  rcases h with rfl | ⟨rule, hrule, hb⟩
  · exact Expr.noFoldable_iff.mpr ⟨hlive, hchildren⟩
  · exact hb.noFoldable hrule hchildren (hb.not_isEvaluable hlive)

/-- A node becomes one canonical tree at most: if a rule applies the node does not stay, and no two
rules apply. -/
theorem Becomes.unique {e out out' : Expr} (h : Becomes e out) (hout : out.IsCanonical)
    (h' : Becomes e out') (hout' : out'.IsCanonical) : out' = out := by
  rcases h with rfl | ⟨rule, -, hb⟩
  · rcases h' with rfl | ⟨rule', -, hb'⟩
    · rfl
    · exact absurd hb' (hout _ (Expr.self_mem_subtrees _) rule' out')
  · rcases h' with rfl | ⟨rule', -, hb'⟩
    · exact absurd hb (hout' _ (Expr.self_mem_subtrees _) rule out)
    · obtain rfl := hb.rule_unique hb'
      have hsame : some out' = some out :=
        (apply_eq_some_iff.mpr hb').symm.trans (apply_eq_some_iff.mpr hb)
      exact Option.some.inj hsame

/-- **The rules at a node with canonical children.** If no application is opened, they leave the node
alone, or one of them makes a replacement and no other one goes on from there; in whatever order they
are tried, the outcome is canonical. -/
theorem replaceAll_isCanonical {rules : List Rule} (hall : ∀ rule, rule ∈ rules) {e : Expr}
    (hchildren : ∀ c ∈ e.children, c.IsCanonical) (hopens : ∀ b, ¬ Contracts .inlineInvoke e b) :
    (replaceAll rules e).IsCanonical ∧ Becomes e (replaceAll rules e) := by
  by_cases happlies : ∃ rule b, Contracts rule e b
  · obtain ⟨rule, b, hb⟩ := happlies
    have hrule : rule ≠ .inlineInvoke := by
      rintro rfl
      exact hopens b hb
    have hcanonical := hb.isCanonical hrule hchildren
    have hout : replaceAll rules e = b :=
      replaceAll_of_contracts (hall rule) hb (fun _ _ h' => hb.rule_unique h')
        hcanonical.apply_eq_none
    rw [hout]
    exact ⟨hcanonical, .inr ⟨rule, hrule, hb⟩⟩
  · have hcanonical : e.IsCanonical :=
      Expr.isCanonical_iff.mpr ⟨fun rule b hb => happlies ⟨rule, b, hb⟩, hchildren⟩
    have hout : replaceAll rules e = e := replaceAll_of_kept hcanonical.apply_eq_none
    rw [hout]
    exact ⟨hcanonical, .inl rfl⟩

end Rule

namespace Expr

theorem not_contracts_inlineInvoke {e : Expr} (h : e.head ≠ .invoke) (b : Expr) :
    ¬ Rule.Contracts .inlineInvoke e b := by
  intro hb
  cases hb
  exact h rfl

/-- **One pass is enough.** Without applications, a single pass of all rules leaves a canonical tree,
in whatever order the rules are tried; and at each node, one rule is applied at most. -/
theorem normalize_isCanonical {rules : List Rule} (hall : ∀ rule, rule ∈ rules) {e : Expr}
    (h : e.Everywhere (· ≠ .invoke)) :
    ((e.normalize rules).tree).IsCanonical ∧
      Rule.Becomes (e.withChildren (e.children.map fun c => (c.normalize rules).tree))
        ((e.normalize rules).tree) := by
  induction e using induction_on_children with
  | node e ih =>
    obtain ⟨hroot, hbelow⟩ := everywhere_iff.mp h
    have hlen : (e.children.map fun c => (c.normalize rules).tree).length =
        e.children.length := List.length_map ..
    rw [tree_normalize]
    refine Rule.replaceAll_isCanonical hall ?_ ?_
    · rw [children_withChildren e hlen]
      exact List.forall_mem_map.mpr fun c hc => (ih c hc (hbelow c hc)).1
    · refine not_contracts_inlineInvoke ?_
      rw [head_withChildren e hlen]
      exact hroot

end Expr

end QueryChain
