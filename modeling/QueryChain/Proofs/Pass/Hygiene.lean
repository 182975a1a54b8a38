import QueryChain.Proofs.Expr.Names
import QueryChain.Proofs.Pass.NormalForm

/-!
# Hygiene of the passes

The passes bring no name into a tree: what the settled tree reads, binds or takes rows from, the tree
itself does. For one rule this needs an argument, since it takes the body of a lambda out of its scope.
Every parameter is then replaced, one after the other, so that no parameter is left behind; and it does
not matter for this whether a name is captured on the way, since a captured name is one name less.

## Main definitions

* `Pass.IsRewrite`: partial evaluation by some filter, or normalization by some rules
* `Head.KnownIn`: a node that binds and takes rows by the names of a tree only

## Main results

* `Lambda.mem_free_of_instantiate`: what an applied lambda reads
* `Rule.Contracts.mem_free_iff`, `Rule.Contracts.mem_bound_iff`: the other rules keep all names
* `Rule.Contracts.free_subset`, `Rule.Contracts.everywhere`: no rule brings in a name, or a head
* `Expr.IsCongruence.settledTree_of_isRewrite`: relations that all passes of these kinds respect
* `settledTree_hygienic`, `settle_hygienic`: no name is brought in
-/

namespace QueryChain

variable {n : String}

/-! ## Applied lambdas -/

namespace Lambda

variable {l : Lambda} {args : List Expr}

/-- What a tree reads after substitutions that are made one after the other. -/
theorem mem_free_of_substitutions {pairs : List (String × Expr)} {body : Expr}
    (h : n ∈ (pairs.foldl (fun body p => body.substitute p.1 p.2) body).free) :
    (n ∈ body.free ∧ ∀ p ∈ pairs, n ≠ p.1) ∨ ∃ p ∈ pairs, n ∈ p.2.free := by
  induction pairs generalizing body with
  | nil => exact .inl ⟨h, nofun⟩
  | cons p pairs ih =>
    rcases ih h with ⟨hbody, hne⟩ | ⟨q, hq, hn⟩
    · -- a name that is left after the first substitution was there before it, or in its replacement
      rcases Expr.mem_free_of_substitute hbody with hn | ⟨hfree, hp⟩
      · exact .inr ⟨p, List.mem_cons_self, hn⟩
      · exact .inl ⟨hfree, List.forall_mem_cons.mpr ⟨hp, hne⟩⟩
    · exact .inr ⟨q, List.mem_cons_of_mem p hq, hn⟩

/-- An applied lambda reads what its body reads apart from the parameters, and what the arguments
read. -/
theorem mem_free_of_instantiate (harity : l.arity = args.length)
    (h : n ∈ (l.instantiate args).free) :
    (n ∈ l.body.free ∧ n ∉ l.params) ∨ ∃ a ∈ args, n ∈ a.free := by
  have hparams : (l.params.zip args).map Prod.fst = l.params := List.map_fst_zip (Nat.le_of_eq harity)
  rcases mem_free_of_substitutions h with ⟨hbody, hne⟩ | ⟨p, hp, hn⟩
  · refine .inl ⟨hbody, fun hmem => ?_⟩
    rw [← hparams] at hmem
    obtain ⟨p, hp, hpn⟩ := List.mem_map.mp hmem
    exact hne p hp hpn.symm
  · exact .inr ⟨p.2, (List.of_mem_zip hp).2, hn⟩

theorem everywhere_instantiate {p : Head → Prop} (hbody : l.body.Everywhere p)
    (hargs : ∀ a ∈ args, a.Everywhere p) : (l.instantiate args).Everywhere p := by
  have hpairs : ∀ pairs : List (String × Expr), (∀ q ∈ pairs, q.2.Everywhere p) →
      ∀ body : Expr, body.Everywhere p →
        (pairs.foldl (fun body q => body.substitute q.1 q.2) body).Everywhere p := by
    intro pairs
    induction pairs with
    | nil => exact fun _ _ hbody => hbody
    | cons q pairs ih =>
      intro hall body hbody
      obtain ⟨hq, hrest⟩ := List.forall_mem_cons.mp hall
      exact ih hrest _ (hbody.substitute hq q.1)
  exact hpairs _ (fun q hq => hargs q.2 (List.of_mem_zip hq).2) l.body hbody

end Lambda

namespace Expr

/-- A lambda, under a quote or not, reads what its body reads apart from its parameters. -/
theorem mem_free_of_asLambda? {f : Expr} {l : Lambda} (h : f.asLambda? = some l) :
    n ∈ f.free ↔ n ∈ l.body.free ∧ n ∉ l.params := by
  rcases asLambda?_eq_some h with rfl | rfl
  · rw [mem_free_iff]
    simp [head, children]
  · rw [mem_free_iff]
    simp only [children, List.mem_singleton, exists_eq_left]
    rw [mem_free_iff]
    simp [head, children]

theorem free_of_asLambda? {f : Expr} {l : Lambda} (h : f.asLambda? = some l) (n : String) :
    n ∈ l.toExpr.free ↔ n ∈ f.free := by
  have hself : l.toExpr.asLambda? = some l := rfl
  rw [mem_free_of_asLambda? h, mem_free_of_asLambda? hself]

theorem mem_bound_of_asLambda? {f : Expr} {l : Lambda} (h : f.asLambda? = some l)
    (hn : n ∈ l.params) : n ∈ f.bound := by
  have hlambda : n ∈ (lambda l.params l.body).bound := mem_bound_iff.mpr (.inl ⟨_, rfl, hn⟩)
  rcases asLambda?_eq_some h with rfl | rfl
  · exact hlambda
  · exact mem_bound_iff.mpr (.inr ⟨_, List.mem_cons_self, hlambda⟩)

theorem everywhere_of_asLambda? {p : Head → Prop} {f : Expr} {l : Lambda}
    (h : f.asLambda? = some l) (hf : f.Everywhere p) : l.body.Everywhere p := by
  rcases asLambda?_eq_some h with rfl | rfl
  · exact (everywhere_iff.mp hf).2 _ List.mem_cons_self
  · have hinner := (everywhere_iff.mp hf).2 _ List.mem_cons_self
    exact (everywhere_iff.mp hinner).2 _ List.mem_cons_self

end Expr

/-! ## The rules -/

namespace Rule.Contracts

variable {rule : Rule} {a b : Expr}

/-- A rule that opens no application keeps what is read. -/
theorem mem_free_iff (h : rule.Contracts a b) (hrule : rule ≠ .inlineInvoke) :
    n ∈ b.free ↔ n ∈ a.free := by
  cases h with
  | invoke => exact absurd rfl hrule
  | _ => simp [Expr.free_eq_flatten, Expr.head, Expr.children]

/-- A rule that opens no application keeps what is bound. -/
theorem mem_bound_iff (h : rule.Contracts a b) (hrule : rule ≠ .inlineInvoke) :
    n ∈ b.bound ↔ n ∈ a.bound := by
  cases h with
  | invoke => exact absurd rfl hrule
  | _ => simp [Expr.bound_eq_flatten, Expr.head, Expr.children]

/-- **No rule brings in a name that is read.** -/
theorem free_subset (h : rule.Contracts a b) : b.free ⊆ a.free := by
  intro n hn
  by_cases hrule : rule = .inlineInvoke
  · subst hrule
    cases h with
    | @invoke f l args hlambda harity hadmits =>
      refine Expr.mem_free_iff.mpr (.inr ⟨?_, nofun⟩)
      rcases Lambda.mem_free_of_instantiate harity hn with hbody | ⟨x, hx, hn⟩
      · exact ⟨f, List.mem_cons_self, (Expr.mem_free_of_asLambda? hlambda).mpr hbody⟩
      · exact ⟨x, List.mem_cons_of_mem f hx, hn⟩
  · exact (h.mem_free_iff hrule).mp hn

/-- **No rule brings in a head,** apart from operators and canonical names of sequence operations: what
holds at every node below the root holds at every node of the replacement. -/
theorem everywhere {p : Head → Prop} (hbinary : ∀ op, p (.binary op))
    (hcall : ∀ m ∉ aliases.map Prod.fst, p (.call .queryable m)) (h : rule.Contracts a b)
    (ha : ∀ c ∈ a.children, c.Everywhere p) : b.Everywhere p := by
  cases h with
  | quote x => exact ha _ List.mem_cons_self
  | convertAny x => exact ha _ List.mem_cons_self
  | convertTwice x k => exact ha _ List.mem_cons_self
  | invoke hlambda harity hadmits =>
    obtain ⟨hf, hargs⟩ := List.forall_mem_cons.mp ha
    exact Lambda.everywhere_instantiate (Expr.everywhere_of_asLambda? hlambda hf) hargs
  | rename hnamed r args =>
    have hcanonical := (aliases_spec _ (mem_aliases_of_lookup hnamed)).2.1
    exact Expr.everywhere_iff.mpr ⟨hcall _ hcanonical, ha⟩
  | @overload op x l hlambda harity r =>
    have hfilter : p (.call .queryable "filter") := hcall _ (by decide)
    refine Expr.everywhere_iff.mpr ⟨hcall _ op.name_notMem_aliases, ?_⟩
    exact List.forall_mem_singleton.mpr (Expr.everywhere_iff.mpr ⟨hfilter, ha⟩)
  | exchange hexchange v hlive =>
    obtain ⟨hv, hb⟩ := List.forall_mem_cons.mp ha
    refine Expr.everywhere_iff.mpr ⟨hbinary _, ?_⟩
    exact List.forall_mem_cons.mpr
      ⟨List.forall_mem_singleton.mp hb, List.forall_mem_singleton.mpr hv⟩
  | negate hnegate x y =>
    have hinner := Expr.everywhere_iff.mp (ha _ List.mem_cons_self)
    exact Expr.everywhere_iff.mpr ⟨hbinary _, hinner.2⟩
  | notNot hboolean =>
    have hinner := Expr.everywhere_iff.mp (ha _ List.mem_cons_self)
    exact hinner.2 _ List.mem_cons_self

end Rule.Contracts

/-! ## The passes -/

/-- Partial evaluation by some filter, or normalization by some rules. -/
inductive Pass.IsRewrite : Pass → Prop where
  | fold (filter : EvaluableFilter) : IsRewrite (Pass.fold filter)
  | normalize (rules : List Rule) : IsRewrite (Pass.normalize rules)

namespace Expr

/-- The passes relate a tree to the tree that they settle on, if each rule relates a node to its
replacement, and an evaluable tree is related to its value. -/
theorem IsCongruence.settledTree_of_isRewrite {R : Expr → Expr → Prop} (hR : IsCongruence R)
    {passes : List Pass} (hpasses : ∀ p ∈ passes, p.IsRewrite)
    (hrule : ∀ rule a b, Rule.Contracts rule a b → R a b)
    (hvalue : ∀ filter a v, a.isFoldable filter → a.evaluate = .ok v → R a (constant v))
    {e out : Expr} (h : QueryChain.settledTree passes e = .ok out) : R e out := by
  refine rounds_relates hR.refl hR.trans (fun p hp e next he => ?_)
    (settledTree_eq_ok_iff.mp h).1
  cases hpasses p hp with
  | fold filter => exact hR.fold (hvalue filter) (Pass.fold_apply_eq_ok_iff.mp he)
  | normalize rules =>
    refine hR.normalize_apply (fun rule _ a b hab => ?_) he
    exact hrule rule a b (Rule.apply_eq_some_iff.mp hab)

/-- To read no more than before is a congruence. -/
theorem free_isCongruence : IsCongruence fun a b => b.free ⊆ a.free where
  refl e := List.Subset.refl _
  trans hab hbc := List.Subset.trans hbc hab
  node e cs hcs := by
    have hlen : cs.length = e.children.length := hcs.length_eq.symm
    refine free_subset_of_children (head_withChildren e hlen) ?_
    rw [children_withChildren e hlen]
    exact hcs.flip

end Expr

/-- A head that brings nothing into the tree: the parameters of a lambda are names that the tree binds,
and a source is one of its sources. -/
def Head.KnownIn (e : Expr) (h : Head) : Prop :=
  (∀ ps, h = .lambda ps → ps ⊆ e.bound) ∧ ∀ n, h = .source n → .source n ∈ e.subtrees

theorem Expr.everywhere_knownIn (e : Expr) : e.Everywhere (Head.KnownIn e) := by
  intro x hx
  refine ⟨bound_subset_iff.mp (List.Subset.refl _) x hx, fun n hn => ?_⟩
  cases x <;> cases hn
  exact hx

/-- The settled tree has no other heads than known ones, and reads no other names. -/
theorem settledTree_hygienic {passes : List Pass} (hpasses : ∀ p ∈ passes, p.IsRewrite) {e out : Expr}
    (h : settledTree passes e = .ok out) :
    out.Everywhere (Head.KnownIn e) ∧ out.free ⊆ e.free := by
  refine (Expr.free_isCongruence.within (Head.KnownIn e)).settledTree_of_isRewrite hpasses
    (fun rule a b hab ha => ?_) (fun filter a v _ _ _ => ?_) h e.everywhere_knownIn
  · refine ⟨hab.everywhere (fun _ => ⟨nofun, nofun⟩) (fun _ _ => ⟨nofun, nofun⟩) ?_, hab.free_subset⟩
    exact (Expr.everywhere_iff.mp ha).2
  · exact ⟨Expr.everywhere_iff.mpr ⟨⟨nofun, nofun⟩, nofun⟩, nofun⟩

/-- **The passes are hygienic,** whatever filters and rules they are made of: the settled tree reads no
other names than the tree, binds no other names, and takes its rows from no other sources. -/
theorem settle_hygienic {passes : List Pass} (hpasses : ∀ p ∈ passes, p.IsRewrite) {e : Expr}
    {s : Settled} (h : settle passes e = .ok s) :
    s.edit.tree.free ⊆ e.free ∧ s.edit.tree.bound ⊆ e.bound ∧
      (∀ n, .source n ∈ s.edit.tree.subtrees → .source n ∈ e.subtrees) ∧
      (s.edit.tree.readsSource → e.readsSource) := by
  obtain ⟨hheads, hfree⟩ := settledTree_hygienic hpasses (settledTree_of_settle h)
  have hsources : ∀ n, .source n ∈ s.edit.tree.subtrees → .source n ∈ e.subtrees :=
    fun n hn => (hheads _ hn).2 n rfl
  refine ⟨hfree, Expr.bound_subset_iff.mpr fun x hx => (hheads x hx).1, hsources, fun hreads => ?_⟩
  by_contra hnot
  refine Expr.not_readsSource_iff.mpr (fun x hx n hn => ?_) hreads
  cases x <;> cases hn
  exact Expr.not_readsSource_iff.mp hnot _ (hsources n hx) n rfl

section Shadowed

-- rounds of both passes are run by the kernel
set_option maxRecDepth 4096

/-- Rules in another order, one of them twice, before a partial evaluation that reads no ages. -/
def lateFolding : List Pass :=
  [.normalize [.simplifyNot, .inlineInvoke, .inlineInvoke, .stripQuote],
    .fold (.deny [] ["age"])]

/-- `((x, y) => [x, y, x => x.name, 1 + 2])(row, users)`, with its lambda quoted. -/
def shadowed : Expr :=
  .invoke (.quote (.lambda ["x", "y"] (.list [.parameter "x", .parameter "y",
    .lambda ["x"] (.member (.parameter "x") "name"),
    .binary .add (.constant (.int 1)) (.constant (.int 2))])))
    [.parameter "row", .source "users"]

/-- `[row, users, x => x.name, 3]`. -/
def shadowedSettled : Expr :=
  .list [.parameter "row", .source "users", .lambda ["x"] (.member (.parameter "x") "name"),
    .constant (.int 3)]

theorem settle_hygienic_shadowed :
    settle lateFolding shadowed = .ok ⟨.changed shadowedSettled, 2⟩ ∧
      shadowedSettled.free ⊆ shadowed.free ∧ shadowedSettled.bound ⊆ shadowed.bound ∧
      (∀ n, .source n ∈ shadowedSettled.subtrees → .source n ∈ shadowed.subtrees) ∧
      (shadowedSettled.readsSource → shadowed.readsSource) := by
  have hpasses : ∀ p ∈ lateFolding, p.IsRewrite :=
    List.forall_mem_cons.mpr ⟨.normalize _, List.forall_mem_singleton.mpr (.fold _)⟩
  have hsettle : settle lateFolding shadowed = .ok ⟨.changed shadowedSettled, 2⟩ := by rfl
  exact ⟨hsettle, settle_hygienic hpasses hsettle⟩

end Shadowed

end QueryChain
