import QueryChain.Pass.Rule

/-!
# What each rule does

Every replacement that a rule makes, as a relation with one case for each form of node. Whatever is
proved of a rule is proved from this relation.

## Main definitions

* `Rule.Contracts`: a rule replaces one node by another one

## Main results

* `aliases_spec`, `mem_loweredOperators_iff`, `Reduction.name_notMem_aliases`: the names of sequence
  operations
* `Rule.apply_eq_some_iff`: the relation says exactly what the rules do
-/

namespace QueryChain

/-- The rule replaces the first tree by the second one. -/
inductive Rule.Contracts : Rule → Expr → Expr → Prop where
  | quote (x : Expr) : Contracts .stripQuote (.quote x) x
  | convertAny (x : Expr) : Contracts .collapseConvert (.convert x .any) x
  | convertTwice (x : Expr) (k : Kind) :
      Contracts .collapseConvert (.convert (.convert x k) k) (.convert x k)
  | invoke {f : Expr} {l : Lambda} {args : List Expr} (lambda : f.asLambda? = some l)
      (arity : l.arity = args.length) (admits : ∀ a ∈ args, l.admits args.length a) :
      Contracts .inlineInvoke (.invoke f args) (l.instantiate args)
  | rename {m canonical : String} (named : aliases.lookup m = some canonical) (r : Expr)
      (args : List Expr) :
      Contracts .canonicalAlias (.call .queryable m r args) (.call .queryable canonical r args)
  | overload {op : Reduction} {p : Expr} {l : Lambda} (lambda : p.asLambda? = some l)
      (arity : l.arity = 1) (r : Expr) :
      Contracts .lowerPredicateOverload (.call .queryable op.name r [p])
        (.call .queryable op.name (.call .queryable "filter" r [p]) [])
  | exchange {op exchanged : BinaryOp} {b : Expr} (exchange : op.exchanged? = some exchanged)
      (v : Value) (live : ∀ w, b ≠ .constant w) :
      Contracts .constantOnRight (.binary op (.constant v) b) (.binary exchanged b (.constant v))
  | negate {op opposite : BinaryOp} (negate : op.negated? = some opposite) (a b : Expr) :
      Contracts .simplifyNot (.unary .not (.binary op a b)) (.binary opposite a b)
  | notNot {x : Expr} (boolean : x.isBoolean) :
      Contracts .simplifyNot (.unary .not (.unary .not x)) x

/-! ## Names of sequence operations -/

/-- What the names of sequence operations have to do with each other: another name leads to its
canonical name, which is not itself another name, and neither is the name of a reduction. -/
theorem aliases_spec : ∀ p ∈ aliases, aliases.lookup p.1 = some p.2 ∧
    p.2 ∉ aliases.map Prod.fst ∧ p.1 ∉ Reduction.all.map Reduction.name ∧
      p.2 ∉ Reduction.all.map Reduction.name := by
  decide

/-- The operations that are lowered are the reductions. -/
theorem mem_loweredOperators_iff {m : String} :
    m ∈ loweredOperators ↔ ∃ op : Reduction, op.name = m := by
  constructor
  · intro hm
    have hnames : loweredOperators = Reduction.all.map Reduction.name := rfl
    obtain ⟨op, -, hop⟩ := List.mem_map.mp (hnames ▸ hm)
    exact ⟨op, hop⟩
  · rintro ⟨op, rfl⟩
    cases op <;> decide

theorem Reduction.name_notMem_aliases (op : Reduction) : op.name ∉ aliases.map Prod.fst := by
  cases op <;> decide

theorem mem_aliases_of_lookup {m canonical : String} (h : aliases.lookup m = some canonical) :
    (m, canonical) ∈ aliases := by
  obtain ⟨before, after, hsplit, -⟩ := List.lookup_eq_some_iff.mp h
  rw [hsplit]
  exact List.mem_append_right before List.mem_cons_self

/-! ## The rules and the relation -/

namespace Rule

theorem contracts_of_collapseConvert {a b : Expr} (h : a.collapseConvert? = some b) :
    Contracts .collapseConvert a b := by
  unfold Expr.collapseConvert? at h
  split at h
  · cases h
    exact .convertAny b
  · split at h
    · rename_i hk
      subst hk
      cases h
      exact .convertTwice _ _
    · cases h
  · cases h

theorem contracts_of_inlineInvoke {a b : Expr} (h : a.inlineInvoke? = some b) :
    Contracts .inlineInvoke a b := by
  unfold Expr.inlineInvoke? at h
  split at h
  · split at h
    · rename_i l hl
      split at h
      · rename_i hadmits
        simp only [Bool.and_eq_true, decide_eq_true_eq, List.all_eq_true] at hadmits
        cases h
        exact .invoke hl hadmits.1 hadmits.2
      · cases h
    · cases h
  · cases h

theorem contracts_of_canonicalAlias {a b : Expr} (h : a.canonicalAlias? = some b) :
    Contracts .canonicalAlias a b := by
  unfold Expr.canonicalAlias? at h
  split at h
  · obtain ⟨canonical, hnamed, rfl⟩ := Option.map_eq_some_iff.mp h
    exact .rename hnamed _ _
  · cases h

theorem contracts_of_lowerPredicateOverload {a b : Expr} (h : a.lowerPredicateOverload? = some b) :
    Contracts .lowerPredicateOverload a b := by
  unfold Expr.lowerPredicateOverload? at h
  split at h
  · split at h
    · rename_i m r p hp
      simp only [Bool.and_eq_true, decide_eq_true_eq, mem_loweredOperators_iff, beq_iff_eq,
        Option.any_eq_true] at hp
      obtain ⟨⟨op, rfl⟩, l, hl, harity⟩ := hp
      cases h
      exact .overload hl harity r
    · cases h
  · cases h

theorem contracts_of_constantOnRight {a b : Expr} (h : a.constantOnRight? = some b) :
    Contracts .constantOnRight a b := by
  unfold Expr.constantOnRight? at h
  split at h
  · cases h
  · rename_i op v b hlive
    obtain ⟨exchanged, hexchange, rfl⟩ := Option.map_eq_some_iff.mp h
    exact .exchange hexchange v fun w hw => hlive w hw
  · cases h

theorem contracts_of_simplifyNot {a b : Expr} (h : a.simplifyNot? = some b) :
    Contracts .simplifyNot a b := by
  unfold Expr.simplifyNot? at h
  split at h
  · split at h
    · cases h
      exact .notNot ‹_›
    · cases h
  · obtain ⟨opposite, hnegate, rfl⟩ := Option.map_eq_some_iff.mp h
    exact .negate hnegate _ _
  · cases h

theorem mem_reductions (op : Reduction) : op ∈ Reduction.all := by
  cases op <;> decide

theorem exists_lookup_aliases_iff {m : String} :
    (∃ canonical, aliases.lookup m = some canonical) ↔ m ∈ aliases.map Prod.fst := by
  rw [← Option.ne_none_iff_exists', ne_eq, List.lookup_eq_none_iff]
  simp

/-- **The rules make exactly these replacements.** -/
theorem apply_eq_some_iff {rule : Rule} {a b : Expr} :
    rule.apply a = some b ↔ rule.Contracts a b := by
  constructor
  · intro h
    cases rule with
    | stripQuote =>
      cases a <;> cases h
      exact .quote b
    | collapseConvert => exact contracts_of_collapseConvert h
    | inlineInvoke => exact contracts_of_inlineInvoke h
    | canonicalAlias => exact contracts_of_canonicalAlias h
    | lowerPredicateOverload => exact contracts_of_lowerPredicateOverload h
    | constantOnRight => exact contracts_of_constantOnRight h
    | simplifyNot => exact contracts_of_simplifyNot h
  · intro h
    cases h with
    | quote => rfl
    | convertAny => simp [Rule.apply, Expr.collapseConvert?]
    | convertTwice x k => cases k <;> simp [Rule.apply, Expr.collapseConvert?]
    | invoke hl harity hadmits =>
      simp only [Rule.apply, Expr.inlineInvoke?, hl]
      rw [if_pos]
      simp only [Bool.and_eq_true, decide_eq_true_eq, List.all_eq_true]
      exact ⟨harity, hadmits⟩
    | rename hnamed => simp [Rule.apply, Expr.canonicalAlias?, hnamed]
    | @overload op p l hl harity r =>
      simp only [Rule.apply, Expr.lowerPredicateOverload?, hl]
      rw [if_pos]
      simp only [Bool.and_eq_true, decide_eq_true_eq, beq_iff_eq, Option.any_some]
      exact ⟨mem_loweredOperators_iff.mpr ⟨op, rfl⟩, harity⟩
    | @exchange op exchanged b hexchange v hlive =>
      cases b with
      | constant w => exact absurd rfl (hlive w)
      | _ => simp [Rule.apply, Expr.constantOnRight?, hexchange]
    | negate hnegate => simp [Rule.apply, Expr.simplifyNot?, hnegate]
    | notNot hboolean => simp [Rule.apply, Expr.simplifyNot?, hboolean]

end Rule

end QueryChain
