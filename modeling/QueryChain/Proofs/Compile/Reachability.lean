import QueryChain.Proofs.Compile.Extension
import QueryChain.Proofs.Compile.Surface
import QueryChain.Proofs.Pass.Progress
import QueryChain.Proofs.Registry.Collisions

/-!
# Operations that calls reach

An extension says what calls of a shape are recognised as; but recognition comes after the passes, and
the passes may not leave such a call as it is. Sequence operations under another name and reductions
with a predicate are rewritten whatever is registered for them. An entry for any other shape is
reached: the call makes the clause of the entry's operation.

## Main definitions

* `CallShape.Reserved`: the shapes of calls that the passes rewrite

## Main results

* `Call.isNormal_toExpr`: other calls are left alone, if their parts are
* `Registry.recognise_call_source`: the model of one call on a data source
* `compile_registered_shape`: the calls that reach an entry, and what becomes of the others
-/

namespace QueryChain

/-- The passes rewrite calls of the shape: a sequence operation goes by another name than its own, or
a reduction has a predicate. -/
def CallShape.Reserved (s : CallShape) : Prop :=
  s.owner = .queryable ∧ (s.name ∈ aliases.map Prod.fst ∨
    s.name ∈ Reduction.all.map Reduction.name ∧ s.args = [.lambda 1])

instance : DecidablePred CallShape.Reserved :=
  fun s => inferInstanceAs (Decidable (s.owner = .queryable ∧ (s.name ∈ aliases.map Prod.fst ∨
    s.name ∈ Reduction.all.map Reduction.name ∧ s.args = [.lambda 1])))

/-! ## What the passes leave alone -/

/-- What the standard passes lead back to itself is normal. -/
theorem Expr.isNormal_of_settledTree {e : Expr} (h : settledTree Pass.standard e = .ok e) :
    e.IsNormal :=
  stable_standard_iff.mp (settledTree_eq_ok_iff.mp h).2

theorem Expr.IsNormal.settledTree_eq {e : Expr} (h : e.IsNormal) :
    settledTree Pass.standard e = .ok e :=
  settledTree_of_settle (settle_of_stable (stable_standard_iff.mpr h))

theorem Expr.isNormal_source (n : String) : (source n).IsNormal := by
  refine isNormal_iff.mpr ⟨fun h => ?_, nofun⟩
  cases h with
  | evaluable hevaluable => exact not_isEvaluable_of_root (by simp [EvaluableFilter.admits]) hevaluable

namespace Call

variable {c : Call}

theorem not_redex_toExpr (howner : c.owner ≠ .builtin) (h : ¬ (CallShape.of c).Reserved) :
    ¬ c.toExpr.Redex := by
  obtain ⟨o, m, q, args⟩ := c
  generalize he : (Call.mk o m q args).toExpr = e
  intro hredex
  cases hredex with
  | otherName hm =>
    cases he
    exact h ⟨rfl, .inl hm⟩
  | predicate op =>
    cases he
    exact h ⟨rfl, .inr ⟨List.mem_map_of_mem (Rule.mem_reductions op), rfl⟩⟩
  | evaluable hevaluable =>
    subst he
    have hlive : o ≠ .builtin := howner
    exact Expr.not_isEvaluable_of_root (by simp [toExpr, EvaluableFilter.admits, hlive]) hevaluable
  | _ => cases he

/-- **A call is left alone** if its parts are normal and its shape is not reserved. -/
theorem isNormal_toExpr (howner : c.owner ≠ .builtin) (h : ¬ (CallShape.of c).Reserved)
    (hreceiver : c.receiver.IsNormal) (hargs : ∀ a ∈ c.args, a.IsNormal) : c.toExpr.IsNormal :=
  Expr.isNormal_iff.mpr
    ⟨not_redex_toExpr howner h, List.forall_mem_cons.mpr ⟨hreceiver, hargs⟩⟩

end Call

/-- A normal argument that looks like a lambda is one, without a quote. -/
theorem Expr.IsNormal.eq_lambda {p : Expr} (h : p.IsNormal) {arity : Nat}
    (hp : ArgShape.of p = .lambda arity) : ∃ params body, p = .lambda params body ∧
      params.length = arity := by
  rw [ArgShape.of] at hp
  split at hp
  · rename_i l hl
    cases hp
    rcases asLambda?_eq_some hl with rfl | rfl
    · exact ⟨l.params, l.body, rfl, rfl⟩
    · exact absurd (.quote _) (isNormal_iff.mp h).1
  · cases hp

/-! ## One call on a data source -/

namespace Registry

variable {r : Registry} {c : Call} {op : Operation} {n : String}

/-- The model of a call on a data source has the clause of the call alone. -/
theorem recognise_call_source (hop : r.lookup c = some op) (hreceiver : c.receiver = .source n) :
    r.recognise c.toExpr =
      op.clause c (argumentModel c (r.models c.args)) >>= fun k =>
        Model.validate ⟨.named n, [k]⟩ := by
  rw [recognise, chain_of_lookup_eq_some hop, hreceiver]
  cases op.clause c (argumentModel c (r.models c.args)) <;> rfl

/-- What a registry of composed sets recognises calls as that have an entry of their shape. -/
theorem resolve_of_mem_shapes {sets : List OperationSet} (h : empty.mergeAll sets = .ok r)
    {set : OperationSet} (hset : set ∈ sets) {shape : CallShape} (hentry : (shape, op) ∈ set.shapes) :
    r.resolve shape = some op := by
  refine (resolve_of_mergeAll h).mpr ⟨.shape shape op, ?_, rfl, rfl⟩
  refine List.mem_flatMap.mpr ⟨set, hset, List.mem_append_left _ ?_⟩
  exact List.mem_map_of_mem hentry

end Registry

/-! ## Calls of reserved shapes -/

theorem Call.toExpr_eq_of_predicate {c : Call} {red : Reduction} {n : String}
    (howner : c.owner = .queryable) (hname : c.method = red.name)
    (hreceiver : c.receiver = .source n) (hpredicate : c.args.map ArgShape.of = [.lambda 1])
    (hargs : ∀ a ∈ c.args, a.IsNormal) :
    ∃ x body, c.args = [.lambda [x] body] ∧ (Expr.lambda [x] body).IsNormal ∧
      c.toExpr = .call .queryable red.name (.source n) [.lambda [x] body] := by
  obtain ⟨p, hp, hshape⟩ := List.map_eq_singleton_iff.mp hpredicate
  have hnormal : p.IsNormal := hargs p (by simp [hp])
  obtain ⟨params, body, rfl, harity⟩ := hnormal.eq_lambda hshape
  obtain ⟨x, rfl⟩ := List.length_eq_one_iff.mp harity
  exact ⟨x, body, hp, hnormal, by rw [Call.toExpr, howner, hname, hreceiver, hp]⟩

theorem OperationSet.mem_standard_filter :
    (⟨.queryable, "filter", [.lambda 1]⟩, .filter) ∈ OperationSet.standard.shapes := by
  decide

theorem OperationSet.mem_standard_reduce (red : Reduction) :
    (⟨.queryable, red.name, []⟩, .result (.reduce red)) ∈ OperationSet.standard.shapes := by
  cases red <;> decide

/-- A filter and a reduction on a data source, with any extensions. -/
theorem Registry.recognise_filter_reduce {r : Registry} {sets : List OperationSet}
    (h : empty.mergeAll (.standard :: sets) = .ok r) (red : Reduction) (n x : String)
    (body : Expr) :
    r.recognise (.call .queryable red.name
        (.call .queryable "filter" (.source n) [.lambda [x] body]) []) =
      .ok ⟨.named n, [.filter ⟨[x], body⟩, .result (.reduce red)]⟩ := by
  have hfilter : r.lookup ⟨.queryable, "filter", .source n, [.lambda [x] body]⟩ = some .filter :=
    resolve_of_mem_shapes h List.mem_cons_self OperationSet.mem_standard_filter
  have hreduce : r.lookup ⟨.queryable, red.name, .call .queryable "filter" (.source n)
      [.lambda [x] body], []⟩ = some (.result (.reduce red)) :=
    resolve_of_mem_shapes h List.mem_cons_self (OperationSet.mem_standard_reduce red)
  have hinner : r.chain (.call .queryable "filter" (.source n) [.lambda [x] body]) =
      .ok ⟨.named n, [.filter ⟨[x], body⟩]⟩ := chain_of_lookup_eq_some hfilter
  have houter := chain_of_lookup_eq_some hreduce
  rw [hinner] at houter
  rw [recognise]
  exact congrArg (fun m => Except.bind m Model.validate) houter

/-- What a reduction with a predicate settles on. -/
theorem settledTree_reduce_predicate (red : Reduction) {n x : String} {body : Expr}
    (h : (Expr.lambda [x] body).IsNormal) :
    settledTree Pass.standard (.call .queryable red.name (.source n) [.lambda [x] body]) =
      .ok (.call .queryable red.name
        (.call .queryable "filter" (.source n) [.lambda [x] body]) []) := by
  have hunreserved : ¬ CallShape.Reserved ⟨.queryable, "filter", [.lambda 1]⟩ := by decide
  have hfilter : (Expr.call .queryable "filter" (.source n) [.lambda [x] body]).IsNormal :=
    Call.isNormal_toExpr (c := ⟨.queryable, "filter", .source n, [.lambda [x] body]⟩) nofun
      hunreserved (Expr.isNormal_source n) (List.forall_mem_singleton.mpr h)
  have hunreserved' : ¬ CallShape.Reserved ⟨.queryable, red.name, []⟩ := by
    rintro ⟨-, halias | ⟨-, hargs⟩⟩
    · exact red.name_notMem_aliases halias
    · cases hargs
  have hreduce := Call.isNormal_toExpr
    (c := ⟨.queryable, red.name, .call .queryable "filter" (.source n) [.lambda [x] body], []⟩)
    nofun hunreserved' hfilter nofun
  rw [(Expr.SurfaceEq.spelling (.predicate red (.source n) x body)).settledTree_eq]
  exact hreduce.settledTree_eq

variable {sets : List OperationSet} {extended : Compiler} {c : Call} {n : String}

/-- **Registered operations are reached,** unless their shapes are reserved. For an entry of a shape
in one of the extensions, a call of the shape on a data source, with arguments that the passes leave
alone, compiles to the clause of the entry's operation or fails as that clause or its check does. Calls
of reserved shapes do not reach the entry: under another name, the call compiles as under its canonical
name; and a reduction with a predicate compiles to a filter and the reduction. -/
theorem compile_registered_shape (h : Compiler.build sets Pass.standard = .ok extended)
    {set : OperationSet} (hset : set ∈ sets) {shape : CallShape} {op : Operation}
    (hentry : (shape, op) ∈ set.shapes) (howner : shape.owner = .queryable ∨ shape.owner = .dml)
    (hc : CallShape.of c = shape) (hreceiver : c.receiver = .source n)
    (hargs : ∀ a ∈ c.args, settledTree Pass.standard a = .ok a) :
    (¬ shape.Reserved → extended.compile c.toExpr =
      (op.clause c (Registry.argumentModel c (extended.registry.models c.args)) >>= fun k =>
        Model.validate ⟨.named n, [k]⟩).mapError Stop.fault) ∧
    (∀ canonical, shape.owner = .queryable → (shape.name, canonical) ∈ aliases →
      extended.compile c.toExpr =
        extended.compile (Call.mk .queryable canonical c.receiver c.args).toExpr) ∧
    ∀ red : Reduction, shape.owner = .queryable → shape.name = red.name →
      shape.args = [.lambda 1] → ∃ l, c.args = [.lambda l.params l.body] ∧
        extended.compile c.toExpr = .ok ⟨.named n, [.filter l, .result (.reduce red)]⟩ := by
  obtain ⟨hmerge, hpasses⟩ := Compiler.build_eq_ok_iff.mp h
  have hnormal : ∀ a ∈ c.args, a.IsNormal := fun a ha => Expr.isNormal_of_settledTree (hargs a ha)
  subst hc
  refine ⟨fun hreserved => ?_, fun canonical hqueryable halias => ?_,
    fun red hqueryable hname hpredicate => ?_⟩
  · have hlive : c.owner ≠ .builtin := by
      rintro hbuiltin
      rcases howner with howner | howner <;> cases hbuiltin.symm.trans howner
    have hop : extended.registry.lookup c = some op :=
      Registry.resolve_of_mem_shapes hmerge (by simp [hset]) hentry
    have hsettled : settledTree Pass.standard c.toExpr = .ok c.toExpr :=
      (Call.isNormal_toExpr hlive hreserved (hreceiver ▸ Expr.isNormal_source n)
        hnormal).settledTree_eq
    rw [Compiler.compile_eq, hpasses, hsettled, ← Registry.recognise_call_source hop hreceiver]
    rfl
  · have hvariant : c.toExpr.SurfaceEq (Call.mk .queryable canonical c.receiver c.args).toExpr := by
      obtain ⟨o, m, q, args⟩ := c
      cases hqueryable
      exact .spelling (.rename halias q args)
    rw [Compiler.compile_eq, Compiler.compile_eq, hpasses, hvariant.settledTree_eq]
  · obtain ⟨x, body, hlambda, hp, hcall⟩ :=
      Call.toExpr_eq_of_predicate hqueryable hname hreceiver hpredicate hnormal
    refine ⟨⟨[x], body⟩, hlambda, ?_⟩
    rw [Compiler.compile_eq, hpasses, hcall, settledTree_reduce_predicate red hp]
    exact congrArg (Except.mapError Stop.fault)
      (Registry.recognise_filter_reduce hmerge red n x body)

section Windows

-- the standard sets are merged, and rounds of all passes are run, by the kernel
set_option maxRecDepth 4096

/-- An operation under a new name, one under another name of `take`, and `count` with a predicate. -/
def windowSet : OperationSet :=
  ⟨"windows", [(⟨.queryable, "top", [.operand]⟩, .take), (⟨.queryable, "limit", [.operand]⟩, .skip),
    (⟨.queryable, "count", [.lambda 1]⟩, .filter)], []⟩

/-- `users.top(5)`. -/
def topFive : Call :=
  ⟨.queryable, "top", .source "users", [.constant (.int 5)]⟩

/-- `users.limit(5)`. -/
def limitFive : Call :=
  ⟨.queryable, "limit", .source "users", [.constant (.int 5)]⟩

/-- `users.count(u => u.active)`. -/
def countActive : Call :=
  ⟨.queryable, "count", .source "users", [.lambda ["u"] (.member (.parameter "u") "active")]⟩

theorem compile_registered_shape_windows :
    ∃ extended, Compiler.build [windowSet] Pass.standard = .ok extended ∧
      extended.compile topFive.toExpr = .ok ⟨.named "users", [.take (.constant (.int 5))]⟩ ∧
      extended.compile limitFive.toExpr =
        extended.compile (.call .queryable "take" (.source "users") [.constant (.int 5)]) ∧
      ∃ l, extended.compile countActive.toExpr =
        .ok ⟨.named "users", [.filter l, .result (.reduce .count)]⟩ := by
  have hbuild : ∃ extended, Compiler.build [windowSet] Pass.standard = .ok extended := ⟨_, rfl⟩
  obtain ⟨extended, hextended⟩ := hbuild
  have hfive : ∀ a ∈ [Expr.constant (.int 5)], settledTree Pass.standard a = .ok a :=
    List.forall_mem_singleton.mpr rfl
  have hactive : ∀ a ∈ countActive.args, settledTree Pass.standard a = .ok a :=
    List.forall_mem_singleton.mpr rfl
  have hset : windowSet ∈ [windowSet] := List.mem_singleton_self _
  have htop : (CallShape.of topFive, .take) ∈ windowSet.shapes := by decide
  have hlimit : (CallShape.of limitFive, .skip) ∈ windowSet.shapes := by decide
  have hcount : (CallShape.of countActive, .filter) ∈ windowSet.shapes := by decide
  refine ⟨extended, hextended, ?_, ?_, ?_⟩
  · obtain ⟨hreached, -⟩ :=
      compile_registered_shape hextended hset htop (.inl rfl) rfl rfl hfive
    exact hreached (by decide)
  · obtain ⟨-, hrenamed, -⟩ :=
      compile_registered_shape hextended hset hlimit (.inl rfl) rfl rfl hfive
    exact hrenamed "take" rfl (by decide)
  · obtain ⟨-, -, hlowered⟩ :=
      compile_registered_shape hextended hset hcount (.inl rfl) rfl rfl hactive
    obtain ⟨l, -, hmodel⟩ := hlowered .count rfl rfl rfl
    exact ⟨l, hmodel⟩

/-- Calls of a registered shape need not make the clause that is registered. -/
theorem compile_registered_limit :
    ∃ extended, Compiler.build [windowSet] Pass.standard = .ok extended ∧
      (CallShape.of limitFive, .skip) ∈ windowSet.shapes ∧
      limitFive.owner = .queryable ∧ limitFive.receiver = .source "users" ∧
      (∀ a ∈ limitFive.args, settledTree Pass.standard a = .ok a) ∧
      extended.compile limitFive.toExpr = .ok ⟨.named "users", [.take (.constant (.int 5))]⟩ ∧
      extended.compile limitFive.toExpr ≠
        (Operation.skip.clause limitFive (Registry.argumentModel limitFive
          (extended.registry.models limitFive.args)) >>= fun k =>
            Model.validate ⟨.named "users", [k]⟩).mapError Stop.fault := by
  have hbuild : ∃ extended, Compiler.build [windowSet] Pass.standard = .ok extended := ⟨_, rfl⟩
  obtain ⟨extended, hextended⟩ := hbuild
  have htake : extended.compile limitFive.toExpr =
      .ok ⟨.named "users", [.take (.constant (.int 5))]⟩ := by
    cases hextended
    rfl
  have hskip : (Operation.skip.clause limitFive (Registry.argumentModel limitFive
      (extended.registry.models limitFive.args)) >>= fun k =>
        Model.validate ⟨.named "users", [k]⟩).mapError Stop.fault =
      .ok ⟨.named "users", [.skip (.constant (.int 5))]⟩ := by rfl
  refine ⟨extended, hextended, by decide, rfl, rfl, List.forall_mem_singleton.mpr rfl, htake, ?_⟩
  rw [htake, hskip]
  simp

end Windows

end QueryChain
