import QueryChain.Proofs.Compile.Recognition
import QueryChain.Proofs.Pass.NormalForm
import QueryChain.Proofs.Pass.Sweep

/-!
# Surface variants

A query can be written in several ways: lambdas with or without a quote, operations under other names,
and predicates as arguments of a reduction or in a filter before it. The variants may stand anywhere
in a tree. One round of the standard passes leads them all to the same tree, so that they compile to
the same model, or fail with the same error.

## Main definitions

* `Expr.Spelling`: two ways to write one node
* `Expr.SurfaceEq`: the least congruence that holds the spellings

## Main results

* `Expr.SurfaceEq.eq_or_live`: what is written in two ways is not evaluated ahead of the query
* `Expr.SurfaceEq.sweep_eq`, `Expr.SurfaceEq.settledTree_eq`: surface variants come out of a round
  alike, and settle alike
* `compile_surfaceEq`: surface variants compile alike
-/

namespace QueryChain

namespace Expr

/-- Two ways to write one node. -/
inductive Spelling : Expr → Expr → Prop where
  /-- A lambda may be quoted. -/
  | quote (params : List String) (body : Expr) :
      Spelling (.quote (.lambda params body)) (.lambda params body)
  /-- A sequence operation may go by another name. -/
  | rename {m canonical : String} (named : (m, canonical) ∈ aliases) (r : Expr)
      (args : List Expr) :
      Spelling (.call .queryable m r args) (.call .queryable canonical r args)
  /-- A reduction may take the predicate of a filter before it. -/
  | predicate (op : Reduction) (r : Expr) (name : String) (body : Expr) :
      Spelling (.call .queryable op.name r [.lambda [name] body])
        (.call .queryable op.name (.call .queryable "filter" r [.lambda [name] body]) [])

/-- The trees differ only in how they are written: the least congruence that holds the spellings. -/
inductive SurfaceEq : Expr → Expr → Prop where
  | spelling {a b : Expr} (h : Spelling a b) : SurfaceEq a b
  | refl (a : Expr) : SurfaceEq a a
  | symm {a b : Expr} (h : SurfaceEq a b) : SurfaceEq b a
  | trans {a b c : Expr} (hab : SurfaceEq a b) (hbc : SurfaceEq b c) : SurfaceEq a c
  /-- Any child of a node may be written differently. -/
  | child (e : Expr) {c d : Expr} (before after : List Expr)
      (place : e.children = before ++ c :: after) (h : SurfaceEq c d) :
      SurfaceEq e (e.withChildren (before ++ d :: after))

/-! ## Variants are not evaluated -/

theorem Spelling.live {a b : Expr} (h : Spelling a b) :
    ¬ a.isEvaluable .allowAll ∧ ¬ b.isEvaluable .allowAll := by
  cases h <;> exact ⟨not_isEvaluable_of_root (by simp [EvaluableFilter.admits]),
    not_isEvaluable_of_root (by simp [EvaluableFilter.admits])⟩

/-- What is written in two ways is not evaluated ahead of the query, and neither is anything around
it. -/
theorem SurfaceEq.eq_or_live {a b : Expr} (h : SurfaceEq a b) :
    a = b ∨ ¬ a.isEvaluable .allowAll ∧ ¬ b.isEvaluable .allowAll := by
  induction h with
  | spelling h => exact .inr h.live
  | refl a => exact .inl rfl
  | symm _ ih => exact ih.imp Eq.symm And.symm
  | trans _ _ ihab ihbc =>
    rcases ihab with rfl | ⟨ha, hb⟩
    · exact ihbc
    · rcases ihbc with rfl | ⟨-, hc⟩
      · exact .inr ⟨ha, hb⟩
      · exact .inr ⟨ha, hc⟩
  | @child e c d before after hplace _ ih =>
    rcases ih with rfl | ⟨hc, hd⟩
    · left
      rw [← hplace, withChildren_children]
    · right
      have hlen : (before ++ d :: after).length = e.children.length := by simp [hplace]
      have hmem : d ∈ (e.withChildren (before ++ d :: after)).children := by
        simp [children_withChildren e hlen]
      exact ⟨not_isEvaluable_of_child (c := c) (by simp [hplace]) hc,
        not_isEvaluable_of_child hmem hd⟩

end Expr

/-! ## One round at the two ways to write a node -/

namespace Call.Canonical

theorem kept {c : Call} (h : c.Canonical) (rule : Rule) : rule.apply c.toExpr = none := by
  have hnode := h.inert.kept c.toExpr.children rfl rule
  rwa [Expr.withChildren_children] at hnode

theorem of_alias {m canonical : String} (h : (m, canonical) ∈ aliases) (r : Expr)
    (args : List Expr) : (Call.mk .queryable canonical r args).Canonical := by
  obtain ⟨-, hname, -, hreduction⟩ := aliases_spec _ h
  exact ⟨nofun, fun _ => hname, fun _ h => absurd h hreduction⟩

theorem of_reduction (op : Reduction) (r : Expr) : (Call.mk .queryable op.name r []).Canonical :=
  ⟨nofun, fun _ => op.name_notMem_aliases, nofun⟩

end Call.Canonical

namespace Rule

theorem replaceAll_quote (params : List String) (body : Expr) :
    replaceAll standard (.quote (.lambda params body)) = .lambda params body := by
  refine replaceAll_of_contracts (mem_standard _) (.quote _) ?_ ?_
  · intro rule b h
    cases h
    rfl
  · intro rule
    rw [Option.eq_none_iff_forall_ne_some]
    intro b hb
    cases apply_eq_some_iff.mp hb

theorem replaceAll_alias {m canonical : String} (h : (m, canonical) ∈ aliases) (q : Expr)
    (as : List Expr) :
    replaceAll standard (.call .queryable m q as) = .call .queryable canonical q as := by
  obtain ⟨hlookup, -, hother, -⟩ := aliases_spec _ h
  refine replaceAll_of_contracts (mem_standard _) (.rename hlookup q as) ?_
    (Call.Canonical.of_alias h q as).kept
  intro rule b hb
  cases hb with
  | rename => rfl
  | @overload op => exact absurd (List.mem_map_of_mem (mem_reductions op)) hother

theorem replaceAll_predicate (op : Reduction) (q : Expr) (name : String) (body : Expr) :
    replaceAll standard (.call .queryable op.name q [.lambda [name] body]) =
      .call .queryable op.name (.call .queryable "filter" q [.lambda [name] body]) [] := by
  refine replaceAll_of_contracts (mem_standard _) (.overload (l := ⟨[name], body⟩) rfl rfl q) ?_
    (Call.Canonical.of_reduction op _).kept
  intro rule b hb
  have hname := op.name_notMem_aliases
  generalize op.name = m at hb hname
  cases hb with
  | rename h => exact absurd (exists_lookup_aliases_iff.mp ⟨_, h⟩) hname
  | overload => rfl

end Rule

namespace Expr

/-- Two ways to write a node come out of a round alike. -/
theorem Spelling.sweep_eq {a b : Expr} (h : Spelling a b) : a.sweep = b.sweep := by
  have hcanonical : ∀ {m canonical}, (m, canonical) ∈ aliases → ∀ q as,
      Rule.replaceAll Rule.standard (call .queryable canonical q as) =
        call .queryable canonical q as :=
    fun h q as => Rule.replaceAll_of_kept (Call.Canonical.of_alias h q as).kept
  cases h with
  | quote params body =>
    rw [sweep_quote, sweep_lambda]
    cases body.sweep with
    | error err => rfl
    | ok x => exact congrArg Except.ok (Rule.replaceAll_quote params x)
  | rename hnamed r args =>
    rw [sweep_queryable, sweep_queryable]
    simp only [Rule.replaceAll_alias hnamed, hcanonical hnamed]
  | predicate op r name body =>
    have hwhere : ("where", "filter") ∈ aliases := by decide
    have hop : ∀ q, Rule.replaceAll Rule.standard (call .queryable op.name q []) =
        call .queryable op.name q [] :=
      fun q => Rule.replaceAll_of_kept (Call.Canonical.of_reduction op q).kept
    rw [sweep_queryable, sweep_queryable, sweep_queryable, List.mapM_cons, List.mapM_nil,
      sweep_lambda]
    -- on both sides the receiver is visited before the predicate, so its error comes first
    cases r.sweep with
    | error err => rfl
    | ok q =>
      cases body.sweep with
      | error err => rfl
      | ok x =>
        change Except.ok _ = Except.ok _
        rw [Rule.replaceAll_predicate, hcanonical hwhere, hop]

/-- **Surface variants come out of a round alike,** as the same tree or with the same error. -/
theorem SurfaceEq.sweep_eq {a b : Expr} (h : SurfaceEq a b) : a.sweep = b.sweep := by
  induction h with
  | spelling h => exact h.sweep_eq
  | refl => rfl
  | symm _ ih => exact ih.symm
  | trans _ _ ihab ihbc => exact ihab.trans ihbc
  | @child e c d before after hplace hcd ih =>
    rcases (SurfaceEq.child e before after hplace hcd).eq_or_live with heq | ⟨he, he'⟩
    · rw [← heq]
    · have hlen : (before ++ d :: after).length = e.children.length := by simp [hplace]
      have hparts : e.children.mapM sweep = (before ++ d :: after).mapM sweep := by
        rw [hplace, List.mapM_append, List.mapM_append, List.mapM_cons, List.mapM_cons, ih]
      rw [Expr.sweep_eq he, Expr.sweep_eq he', children_withChildren e hlen, hparts]
      cases hcs : (before ++ d :: after).mapM sweep with
      | error err => rfl
      | ok cs =>
        have hcslen : cs.length = e.children.length := by
          rw [← (mapM_eq_ok_iff.mp hcs).length_eq, hlen]
        simp only [Except.map]
        rw [withChildren_withChildren e hlen hcslen]

theorem SurfaceEq.settledTree_eq {a b : Expr} (h : a.SurfaceEq b) :
    settledTree Pass.standard a = settledTree Pass.standard b := by
  rw [settledTree_eq_roundTree, settledTree_eq_roundTree, roundTree_standard, roundTree_standard,
    h.sweep_eq]

end Expr

/-- **Surface variants compile alike,** whatever the registry: to the same model, or with the same
error. -/
theorem compile_surfaceEq (r : Registry) {e e' : Expr} (h : e.SurfaceEq e') :
    (Compiler.mk r Pass.standard).compile e = (Compiler.mk r Pass.standard).compile e' := by
  have hround : roundTree Pass.standard e = roundTree Pass.standard e' := by
    rw [roundTree_standard, roundTree_standard, h.sweep_eq]
  have hsettled : settledTree Pass.standard e = settledTree Pass.standard e' := by
    rw [settledTree_eq_roundTree, settledTree_eq_roundTree, hround]
  rw [Compiler.compile_eq, Compiler.compile_eq, hsettled]

section ActiveAdults

-- a round of all passes is run by the kernel
set_option maxRecDepth 4096

/-- `users.where(u => u.active).count(v => v.adult)`, with its first lambda quoted. -/
def activeAdults : Expr :=
  .call .queryable "count"
    (.call .queryable "where" (.source "users")
      [.quote (.lambda ["u"] (.member (.parameter "u") "active"))])
    [.lambda ["v"] (.member (.parameter "v") "adult")]

/-- `users.filter(u => u.active).filter(v => v.adult).count()`. -/
def activeAdultsPlain : Expr :=
  .call .queryable "count"
    (.call .queryable "filter"
      (.call .queryable "filter" (.source "users")
        [.lambda ["u"] (.member (.parameter "u") "active")])
      [.lambda ["v"] (.member (.parameter "v") "adult")])
    []

/-- The model of both. -/
def activeAdultsModel : Model :=
  ⟨.named "users", [.filter ⟨["u"], .member (.parameter "u") "active"⟩,
    .filter ⟨["v"], .member (.parameter "v") "adult"⟩, .result (.reduce .count)]⟩

/-- A registry of filters and counts. -/
def filterAndCount : Registry :=
  ⟨[], [((.queryable, "filter"), .filter), ((.queryable, "count"), .result (.reduce .count))]⟩

theorem compile_surfaceEq_activeAdults :
    activeAdults.SurfaceEq activeAdultsPlain ∧
      (Compiler.mk filterAndCount Pass.standard).compile activeAdults = .ok activeAdultsModel := by
  have hquote : Expr.SurfaceEq (.quote (.lambda ["u"] (.member (.parameter "u") "active")))
      (.lambda ["u"] (.member (.parameter "u") "active")) := .spelling (.quote _ _)
  have hactive : Expr.SurfaceEq
      (.call .queryable "where" (.source "users")
        [.quote (.lambda ["u"] (.member (.parameter "u") "active"))])
      (.call .queryable "filter" (.source "users")
        [.lambda ["u"] (.member (.parameter "u") "active")]) :=
    (Expr.SurfaceEq.child _ [.source "users"] [] rfl hquote).trans
      (.spelling (.rename (by decide) _ _))
  have hvariant : activeAdults.SurfaceEq activeAdultsPlain :=
    (Expr.SurfaceEq.child activeAdults [] _ rfl hactive).trans
      (.spelling (.predicate .count _ "v" _))
  have hplain : (Compiler.mk filterAndCount Pass.standard).compile activeAdultsPlain =
      .ok activeAdultsModel := by rfl
  exact ⟨hvariant, (compile_surfaceEq filterAndCount hvariant).trans hplain⟩

end ActiveAdults

end QueryChain
