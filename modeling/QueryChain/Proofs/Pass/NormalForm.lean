import QueryChain.Proofs.Pass.Contraction
import QueryChain.Proofs.Pass.Settling

/-!
# Normal forms

A tree is normal if it holds none of the forms that the standard passes replace. The forms are listed
here without the passes, apart from the other names of operations, which are those of the table that
normalization reads. The passes leave exactly the normal trees alone, and whatever they settle on is
normal.

## Main definitions

* `CaptureRisk`: an argument could be captured by the lambda that it is put into
* `Expr.Redex`: the forms that the standard passes replace
* `Expr.IsNormal`: no subtree has one of these forms

## Main results

* `Expr.fold_eq_shared_iff`, `Expr.normalize_eq_shared_iff`: when a pass leaves a tree alone
* `stable_standard_iff`: the stable trees of the standard passes are the normal trees
* `settle_standard_isNormal`: the standard passes settle on normal trees, and leave normal trees alone
-/

namespace QueryChain

/-- Putting the arguments in place could change what a name stands for: an argument reads a name that
a lambda within the body binds, or one of several parameters. -/
def CaptureRisk (params : List String) (body : Expr) (args : List Expr) : Prop :=
  ∃ a ∈ args, ∃ n ∈ a.free, n ∈ body.bound ∨ 1 < args.length ∧ n ∈ params

namespace Expr

/-- The forms that the standard passes replace. -/
inductive Redex : Expr → Prop where
  | quote (x : Expr) : Redex (.quote x)
  /-- A conversion to the erased kind. -/
  | convertAny (x : Expr) : Redex (.convert x .any)
  /-- A conversion to the kind that the operand is converted to. -/
  | convertTwice (x : Expr) (k : Kind) : Redex (.convert (.convert x k) k)
  /-- A sequence operation under another name. -/
  | otherName {m : String} (h : m ∈ aliases.map Prod.fst) (r : Expr) (args : List Expr) :
      Redex (.call .queryable m r args)
  /-- A reduction with a predicate. -/
  | predicate (op : Reduction) (r : Expr) (name : String) (body : Expr) :
      Redex (.call .queryable op.name r [.lambda [name] body])
  /-- A comparison whose only constant is on the left. -/
  | constantLeft {op : BinaryOp} (h : op.isComparison) (v : Value) {b : Expr}
      (live : ∀ w, b ≠ .constant w) : Redex (.binary op (.constant v) b)
  | notEq (a b : Expr) : Redex (.unary .not (.binary .eq a b))
  | notNe (a b : Expr) : Redex (.unary .not (.binary .ne a b))
  /-- A double negation of a tree that can only be a truth value or null. -/
  | notNot {x : Expr} (h : x.isBoolean) : Redex (.unary .not (.unary .not x))
  /-- A literal lambda with an argument for each parameter. -/
  | applied {params : List String} {body : Expr} {args : List Expr}
      (arity : params.length = args.length) (safe : ¬ CaptureRisk params body args) :
      Redex (.invoke (.lambda params body) args)
  /-- A tree that can be evaluated ahead of the query and is not yet a value. -/
  | evaluable {x : Expr} (h : x.isEvaluable .allowAll) (live : ∀ v, x ≠ .constant v) : Redex x

/-- No subtree has a form that the standard passes replace. -/
def IsNormal (e : Expr) : Prop :=
  ∀ x ∈ e.subtrees, ¬ x.Redex

/-! ## When the passes leave a tree alone -/

/-- Partial evaluation leaves a tree alone iff no part of it is to be replaced by its value. -/
theorem fold_eq_shared_iff {filter : EvaluableFilter} {e : Expr} :
    e.fold filter = .ok (.shared e) ↔ ∀ x ∈ e.subtrees, ¬ x.isFoldable filter := by
  induction e using induction_on_children with
  | node e ih =>
    rw [fold_eq, forall_mem_subtrees]
    split
    · rename_i hfoldable
      rw [toConstant]
      refine ⟨fun h => ?_, fun h => absurd hfoldable h.1⟩
      split at h <;> cases h
    · rename_i hfoldable
      rw [mapChildren_eq_shared_iff_of_keeps fold_keeps, forall₂_congr ih]
      exact (and_iff_right hfoldable).symm

end Expr

/-- Trying rules leaves a tree alone iff it was left alone before and no rule applies. -/
theorem Rule.tryAll_eq_shared_iff {rules : List Rule} {e : Expr} {edit : Edit} :
    Rule.tryAll rules edit = .shared e ↔ edit = .shared e ∧ ∀ rule ∈ rules, rule.apply e = none := by
  induction rules generalizing edit with
  | nil => simp [Rule.tryAll]
  | cons rule rules ih =>
    have hfirst : Rule.tryOn edit rule = .shared e ↔ edit = .shared e ∧ rule.apply e = none := by
      unfold Rule.tryOn
      cases edit with
      | shared t =>
        rw [Edit.tree_shared]
        cases h : rule.apply t <;> simp
        · rintro rfl
          exact h
        · rintro rfl
          simp [h]
      | changed t => cases h : rule.apply t <;> simp [h]
    have hstep : Rule.tryAll (rule :: rules) edit = Rule.tryAll rules (Rule.tryOn edit rule) := rfl
    rw [hstep, ih, hfirst, List.forall_mem_cons, and_assoc]

namespace Expr

/-- Normalization leaves a tree alone iff no rule applies to any part of it. -/
theorem normalize_eq_shared_iff {rules : List Rule} {e : Expr} :
    e.normalize rules = .shared e ↔
      ∀ x ∈ e.subtrees, ∀ rule ∈ rules, rule.apply x = none := by
  induction e using induction_on_children with
  | node e ih =>
    rw [normalize_eq, Rule.tryAll_eq_shared_iff, gather_eq_shared_iff, List.forall_mem_map,
      forall_mem_subtrees, and_comm]
    refine and_congr_right fun _ => forall₂_congr fun c hc => ?_
    rw [← (normalize_keeps rules c).eq_shared_iff, ih c hc]

/-! ## The forms and the passes -/

theorem asLambda?_eq_some {f : Expr} {l : Lambda} (h : f.asLambda? = some l) :
    f = .lambda l.params l.body ∨ f = .quote (.lambda l.params l.body) := by
  unfold asLambda? at h
  split at h
  · cases h
    exact .inl rfl
  · cases h
    exact .inr rfl
  · cases h

theorem forall_admits_iff {l : Lambda} {args : List Expr} :
    (∀ a ∈ args, l.admits args.length a) ↔ ¬ CaptureRisk l.params l.body args := by
  simp only [Lambda.admits, CaptureRisk, List.all_eq_true, Bool.and_eq_true, Bool.or_eq_true,
    decide_eq_true_eq, not_exists, not_and, not_or, ← Nat.not_lt]
  exact forall₄_congr fun a _ n _ => and_congr_right fun _ => imp_iff_not_or.symm

/-- What a rule replaces has one of the forms, or has a quote around the lambda that it opens. -/
theorem exists_redex_of_contracts {rule : Rule} {x b : Expr} (h : rule.Contracts x b) :
    ∃ y ∈ x.subtrees, y.Redex := by
  -- two rules look through a quote, which is itself one of the forms
  have hquoted : ∀ f ∈ x.children, ∀ l, f = .quote l → ∃ y ∈ x.subtrees, y.Redex := by
    rintro f hf l rfl
    exact ⟨_, mem_subtrees.mpr (.inr ⟨_, hf, self_mem_subtrees _⟩), .quote l⟩
  cases h with
  | quote => exact ⟨_, self_mem_subtrees _, .quote b⟩
  | convertAny => exact ⟨_, self_mem_subtrees _, .convertAny b⟩
  | convertTwice y k => exact ⟨_, self_mem_subtrees _, .convertTwice y k⟩
  | rename hnamed r args =>
    refine ⟨_, self_mem_subtrees _, .otherName ?_ r args⟩
    exact Rule.exists_lookup_aliases_iff.mp ⟨_, hnamed⟩
  | invoke hlambda harity hadmits =>
    rcases asLambda?_eq_some hlambda with rfl | hf
    · exact ⟨_, self_mem_subtrees _, .applied harity (forall_admits_iff.mp hadmits)⟩
    · exact hquoted _ List.mem_cons_self _ hf
  | @overload op p l hlambda harity r =>
    rcases asLambda?_eq_some hlambda with rfl | hp
    · obtain ⟨name, hname⟩ := List.length_eq_one_iff.mp harity
      rw [hname]
      exact ⟨_, self_mem_subtrees _, .predicate op r name l.body⟩
    · exact hquoted p (List.mem_cons_of_mem r List.mem_cons_self) _ hp
  | @exchange op exchanged b hexchange v hlive =>
    refine ⟨_, self_mem_subtrees _, .constantLeft ?_ v hlive⟩
    cases op <;> first | rfl | cases hexchange
  | @negate op opposite hnegate a b =>
    refine ⟨_, self_mem_subtrees _, ?_⟩
    cases op <;> cases hnegate
    · exact .notEq a b
    · exact .notNe a b
  | notNot hboolean => exact ⟨_, self_mem_subtrees _, .notNot hboolean⟩

/-- Each of the forms is replaced, by a rule or by its value. -/
theorem Redex.replaced {x : Expr} (h : x.Redex) :
    (∃ rule b, Rule.Contracts rule x b) ∨ x.isFoldable .allowAll := by
  cases h with
  | quote y => exact .inl ⟨_, _, .quote y⟩
  | convertAny y => exact .inl ⟨_, _, .convertAny y⟩
  | convertTwice y k => exact .inl ⟨_, _, .convertTwice y k⟩
  | otherName hm r args =>
    obtain ⟨canonical, hnamed⟩ := Rule.exists_lookup_aliases_iff.mpr hm
    exact .inl ⟨_, _, .rename hnamed r args⟩
  | predicate op r name body =>
    have hlambda : (Expr.lambda [name] body).asLambda? = some ⟨[name], body⟩ := rfl
    exact .inl ⟨_, _, .overload hlambda rfl r⟩
  | @constantLeft op hop v b hlive =>
    have hexchange : ∃ exchanged, op.exchanged? = some exchanged := by
      cases op <;> cases hop <;> exact ⟨_, rfl⟩
    obtain ⟨exchanged, hexchange⟩ := hexchange
    exact .inl ⟨_, _, .exchange hexchange v hlive⟩
  | notEq a b => exact .inl ⟨_, _, .negate rfl a b⟩
  | notNe a b => exact .inl ⟨_, _, .negate rfl a b⟩
  | notNot hboolean => exact .inl ⟨_, _, .notNot hboolean⟩
  | @applied params body args harity hsafe =>
    exact .inl ⟨_, _, .invoke (l := ⟨params, body⟩) rfl harity (forall_admits_iff.mpr hsafe)⟩
  | evaluable hevaluable hlive =>
    right
    rw [isFoldable, hevaluable, Bool.and_true, Bool.not_eq_true']
    cases x with
    | constant v => exact absurd rfl (hlive v)
    | _ => rfl

end Expr

theorem Rule.mem_standard (rule : Rule) : rule ∈ Rule.standard := by
  cases rule <;> decide

/-- The trees that the standard passes leave alone are the normal ones. -/
theorem stable_standard_iff {e : Expr} : Stable Pass.standard e ↔ e.IsNormal := by
  have hpasses : Stable Pass.standard e ↔ (∀ x ∈ e.subtrees, ¬ x.isFoldable .allowAll) ∧
      ∀ x ∈ e.subtrees, ∀ rule ∈ Rule.standard, rule.apply x = none := by
    rw [Stable, Pass.standard, List.forall_mem_cons, List.forall_mem_singleton,
      Pass.fold_leaves_iff, Expr.fold_eq_shared_iff, Pass.normalize_leaves_iff,
      Expr.normalize_eq_shared_iff]
  rw [hpasses]
  constructor
  · rintro ⟨hfold, hrules⟩ x hx hredex
    rcases hredex.replaced with ⟨rule, b, hb⟩ | hfoldable
    · have hnone := hrules x hx rule rule.mem_standard
      rw [Rule.apply_eq_some_iff.mpr hb] at hnone
      cases hnone
    · exact hfold x hx hfoldable
  · intro hnormal
    refine ⟨fun x hx hfoldable => ?_, fun x hx rule _ => ?_⟩
    · obtain ⟨hconstant, hevaluable⟩ := Bool.and_eq_true_iff.mp hfoldable
      refine hnormal x hx (.evaluable hevaluable ?_)
      rintro v rfl
      cases hconstant
    · rw [Option.eq_none_iff_forall_ne_some]
      intro b hb
      obtain ⟨y, hy, hredex⟩ := Expr.exists_redex_of_contracts (Rule.apply_eq_some_iff.mp hb)
      exact hnormal y (Expr.mem_subtrees_trans hy hx) hredex

/-- **The passes lead to the normal forms.** What the standard passes settle on is normal, and a
second run gives it back itself after one round; the trees that come back themselves after one round
are exactly the normal ones. -/
theorem settle_standard_isNormal (e : Expr) :
    (∀ s, settle Pass.standard e = .ok s →
      s.edit.tree.IsNormal ∧
        settle Pass.standard s.edit.tree = .ok ⟨.shared s.edit.tree, 1⟩) ∧
    (e.IsNormal ↔ settle Pass.standard e = .ok ⟨.shared e, 1⟩) := by
  have hresult : ∀ s, settle Pass.standard e = .ok s → s.edit.tree.IsNormal := fun s hs =>
    stable_standard_iff.mp (settledTree_eq_ok_iff.mp (settledTree_of_settle hs)).2
  refine ⟨fun s hs => ⟨hresult s hs, ?_⟩, fun hnormal => ?_, fun hs => hresult _ hs⟩
  · exact settle_of_stable (stable_standard_iff.mpr (hresult s hs))
  · exact settle_of_stable (stable_standard_iff.mpr hnormal)

section ComingOfAge

-- two rounds of all passes are run by the kernel
set_option maxRecDepth 4096

/-- `!(u => 8 + 10 == u.age)(row)`, with its lambda quoted. -/
def comingOfAge : Expr :=
  .unary .not (.invoke (.quote (.lambda ["u"] (.binary .eq
    (.binary .add (.constant (.int 8)) (.constant (.int 10))) (.member (.parameter "u") "age"))))
    [.parameter "row"])

/-- `row.age != 18`. -/
def comingOfAgeNormal : Expr :=
  .binary .ne (.member (.parameter "row") "age") (.constant (.int 18))

theorem settle_standard_isNormal_comingOfAge :
    settle Pass.standard comingOfAge = .ok ⟨.changed comingOfAgeNormal, 2⟩ ∧
      comingOfAgeNormal.IsNormal ∧
      settle Pass.standard comingOfAgeNormal = .ok ⟨.shared comingOfAgeNormal, 1⟩ := by
  have hsettle : settle Pass.standard comingOfAge = .ok ⟨.changed comingOfAgeNormal, 2⟩ := by rfl
  exact ⟨hsettle, (settle_standard_isNormal comingOfAge).1 _ hsettle⟩

end ComingOfAge

end QueryChain
