import QueryChain.Proofs.Expr.Substitution
import QueryChain.Proofs.Pass.NormalForm

/-!
# Applied lambdas

A literal lambda that is applied to arguments gives way to its body with the arguments in place of the
parameters. The arguments are put in place one after the other, and no name is made up on the way. The
rule asks beforehand for two things: no argument reads a name that is bound in the body, and none of
several arguments reads a parameter. The first keeps the names of the arguments free. By the second an
argument is not changed by those that follow, so the order in which they are put in place does not
show.

## Main results

* `pairwise_of_not_captureRisk`: no argument reads a parameter whose turn is yet to come
* `not_captures_of_not_captureRisk`: no name of an argument is bound where the argument is put
* `inlineInvoke_eq_some_iff`: when the rule applies, and what it makes of an applied lambda
* `inlineInvoke_substituteAll`: the rule substitutes all arguments at once, without capture
-/

namespace QueryChain

variable {params : List String} {body : Expr} {args : List Expr}

theorem Substitution.ofArgs_eq_none_iff (h : params.length = args.length) {n : String} :
    Substitution.ofArgs params args n = none ↔ n ∉ params := by
  have hnames : (params.zip args).map Prod.fst = params := List.map_fst_zip (Nat.le_of_eq h)
  rw [Substitution.ofArgs, List.lookup_eq_none_iff]
  conv_rhs => rw [← hnames]
  simp only [bne_iff_ne, List.mem_map, not_exists, not_and]
  exact forall₂_congr fun p _ => ne_comm

theorem Substitution.mem_of_ofArgs_eq_some {n : String} {a : Expr}
    (h : Substitution.ofArgs params args n = some a) : a ∈ args := by
  obtain ⟨before, after, hsplit, _⟩ := List.lookup_eq_some_iff.mp h
  have hmem : (n, a) ∈ params.zip args := by simp [hsplit]
  exact (List.of_mem_zip hmem).2

/-- No argument reads a parameter whose turn is yet to come. -/
theorem pairwise_of_not_captureRisk (h : ¬ CaptureRisk params body args) :
    (params.zip args).Pairwise fun p q => q.1 ∉ p.2.free := by
  by_cases hcount : 1 < args.length
  · refine List.pairwise_of_forall_mem_list fun p hp q hq hread => h ?_
    exact ⟨p.2, (List.of_mem_zip hp).2, q.1, hread, .inr ⟨hcount, (List.of_mem_zip hq).1⟩⟩
  · -- a single argument may read its own parameter: no other one follows
    have hone : (params.zip args).length ≤ 1 := by
      rw [List.length_zip]
      omega
    generalize params.zip args = pairs at hone ⊢
    cases pairs with
    | nil => exact List.Pairwise.nil
    | cons p rest =>
      obtain rfl : rest = [] := by simpa using hone
      exact List.pairwise_singleton _ p

/-- The lambda opened argument by argument is its body with all arguments put in place at once. -/
theorem Lambda.instantiate_eq_substituteAll (h : ¬ CaptureRisk params body args) :
    (Lambda.mk params body).instantiate args = body.substituteAll (.ofArgs params args) :=
  Expr.foldl_substitute_eq (pairwise_of_not_captureRisk h)

/-- No name of an argument is bound where the argument is put. -/
theorem not_captures_of_not_captureRisk (h : ¬ CaptureRisk params body args) :
    ¬ body.Captures (.ofArgs params args) := by
  rintro ⟨o, ho, a, ha, n, hn, hscope⟩
  have hargument := ((Substitution.ofArgs params args).hide_eq_some_iff.mp ha).2
  have hmem := Substitution.mem_of_ofArgs_eq_some hargument
  exact h ⟨a, hmem, n, hn, .inl (Expr.scope_subset_bound ho hscope)⟩

/-- When the rule applies to a literal lambda on arguments, and what it makes of it. -/
theorem inlineInvoke_eq_some_iff {f r : Expr}
    (hf : f = .lambda params body ∨ f = .quote (.lambda params body)) :
    Rule.inlineInvoke.apply (.invoke f args) = some r ↔
      (params.length = args.length ∧ ¬ CaptureRisk params body args) ∧
        r = body.substituteAll (.ofArgs params args) := by
  have hlambda : f.asLambda? = some ⟨params, body⟩ := by
    rcases hf with rfl | rfl <;> rfl
  have hsafe : args.all ((Lambda.mk params body).admits args.length) = true ↔
      ¬ CaptureRisk params body args :=
    List.all_eq_true.trans (Expr.forall_admits_iff (l := ⟨params, body⟩))
  simp only [Rule.apply, Expr.inlineInvoke?, hlambda, Bool.and_eq_true, decide_eq_true_eq, hsafe,
    Option.ite_none_right_eq_some, Option.some.injEq]
  refine and_congr_right fun happlies => ?_
  rw [Lambda.instantiate_eq_substituteAll happlies.2, eq_comm]

/-- **A literal lambda on arguments, bare or quoted, is opened by a simultaneous substitution.** Where
the rule applies, the resulting tree is the body with all arguments in place of the free occurrences of
their parameters; a name that is free in an argument is free wherever the argument stands; and the
resulting tree reads what the body reads apart from the parameters, and what the arguments of those
parameters read that are free in the body. The rule does not apply only if the numbers of parameters
and arguments differ, or an argument reads a name that is bound in the body, or one of several
arguments reads a parameter. -/
theorem inlineInvoke_substituteAll {f : Expr}
    (hf : f = .lambda params body ∨ f = .quote (.lambda params body)) (args : List Expr) :
    (∀ r, Rule.inlineInvoke.apply (.invoke f args) = some r →
      r = body.substituteAll (.ofArgs params args) ∧
      (∀ o ∈ body.occurrences, ∀ a,
        (Substitution.ofArgs params args).hide o.scope o.name = some a →
          ∀ q ∈ a.occurrences, q.Free →
            q.within o.scope ∈ r.occurrences ∧ (q.within o.scope).Free) ∧
      ∀ n, n ∈ r.free ↔ (n ∈ body.free ∧ n ∉ params) ∨
        ∃ x ∈ body.free, ∃ a, Substitution.ofArgs params args x = some a ∧ n ∈ a.free) ∧
    (Rule.inlineInvoke.apply (.invoke f args) = none ↔
      params.length ≠ args.length ∨ ∃ a ∈ args, ∃ n ∈ a.free,
        n ∈ body.bound ∨ 2 ≤ args.length ∧ n ∈ params) := by
  refine ⟨fun r hr => ?_, ?_⟩
  · obtain ⟨⟨harity, hsafe⟩, rfl⟩ := (inlineInvoke_eq_some_iff hf).mp hr
    have hfree := not_captures_of_not_captureRisk hsafe
    refine ⟨rfl, fun o ho a ha q hq => Expr.free_of_not_captures hfree ho ha hq, fun n => ?_⟩
    rw [Expr.mem_free_substituteAll hfree, Substitution.ofArgs_eq_none_iff harity]
  · constructor
    · intro hnone
      by_contra happlies
      obtain ⟨harity, hsafe⟩ := not_or.mp happlies
      have hsome := (inlineInvoke_eq_some_iff hf).mpr ⟨⟨not_not.mp harity, hsafe⟩, rfl⟩
      rw [hnone] at hsome
      cases hsome
    · refine fun hdeclined => Option.eq_none_iff_forall_ne_some.mpr fun r hr => ?_
      obtain ⟨⟨harity, hsafe⟩, _⟩ := (inlineInvoke_eq_some_iff hf).mp hr
      exact hdeclined.elim (fun hne => hne harity) hsafe

/-- A lambda with a repeated parameter and a parameter that is bound again within the body. -/
def shadowing : Lambda :=
  ⟨["x", "y", "x"],
    .list [.parameter "x", .lambda ["x"] (.list [.parameter "x", .parameter "y", .parameter "z"])]⟩

theorem inlineInvoke_substituteAll_shadowing :
    let args := [.member (.parameter "row") "age", .source "users", .parameter "w"]
    let r := Expr.list [.member (.parameter "row") "age",
      .lambda ["x"] (.list [.parameter "x", .source "users", .parameter "z"])]
    Rule.inlineInvoke.apply (.invoke (.quote shadowing.toExpr) args) = some r ∧
      r = shadowing.body.substituteAll (.ofArgs shadowing.params args) ∧
      "row" ∈ r.free ∧ "z" ∈ r.free ∧ "w" ∉ r.free ∧
      Rule.inlineInvoke.apply (.invoke (.quote shadowing.toExpr) [.parameter "row"]) = none ∧
      Rule.inlineInvoke.apply
        (.invoke (.quote shadowing.toExpr) [.parameter "y", .source "users", .source "users"]) =
          none := by
  have hquoted : Expr.quote shadowing.toExpr = .lambda shadowing.params shadowing.body ∨
      Expr.quote shadowing.toExpr = .quote (.lambda shadowing.params shadowing.body) := .inr rfl
  have hopen := inlineInvoke_substituteAll hquoted
  intro args r
  have hsome : Rule.inlineInvoke.apply (.invoke (.quote shadowing.toExpr) args) = some r := rfl
  obtain ⟨hr, _, hfree⟩ := (hopen args).1 r hsome
  refine ⟨hsome, hr, (hfree "row").mpr (.inr ?_), (hfree "z").mpr (.inl ?_), ?_, ?_, ?_⟩
  · exact ⟨"x", by decide, .member (.parameter "row") "age", rfl, by decide⟩
  · decide
  · decide
  · exact (hopen _).2.mpr (.inl (by decide))
  · exact (hopen _).2.mpr (.inr ⟨.parameter "y", List.mem_cons_self, "y", by decide, .inr (by decide)⟩)

end QueryChain
