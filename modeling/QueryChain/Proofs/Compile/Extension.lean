import QueryChain.Proofs.Compile.Recognition
import QueryChain.Proofs.Registry.Entries

/-!
# Extensions

Extensions add entries to the standard registry. A larger registry recognises more calls and no call
differently, so that a compilation gives the same outcome as before, a fault included, unless it
stopped at a call that was not supported.

## Main definitions

* `Conserves`: the second outcome is the first one, unless the first is an unsupported call

## Main results

* `Conserves.bind`: conserved parts make a conserved whole
* `Operation.clause_conserves`: the clause of a call depends on the models of its arguments alone
* `Registry.Extends.recognise_conserves`: recognition by a larger registry
* `compile_extended_conserves`: compilation with extensions
-/

namespace QueryChain

/-- The second outcome is the first one, unless the first one is a call that is not supported. -/
def Conserves {α : Type} (x y : Except CompileError α) : Prop :=
  (∀ shape, x ≠ .error (.unsupported shape)) → y = x

namespace Conserves

variable {α β : Type}

theorem refl (x : Except CompileError α) : Conserves x x :=
  fun _ => rfl

theorem unsupported (shape : CallShape) (y : Except CompileError α) :
    Conserves (.error (.unsupported shape)) y :=
  fun h => absurd rfl (h shape)

theorem bind {x y : Except CompileError α} {f g : α → Except CompileError β}
    (h : Conserves x y) (hfg : ∀ a, Conserves (f a) (g a)) : Conserves (x >>= f) (y >>= g) := by
  intro hsupported
  cases x with
  | error err =>
    have hy : y = .error err := by
      refine h fun shape hshape => ?_
      cases hshape
      exact hsupported shape rfl
    rw [hy]
    rfl
  | ok a =>
    have hy : y = .ok a := h nofun
    rw [hy]
    exact hfg a hsupported

end Conserves

/-! ## Clauses -/

section Clause

variable {models models' : Nat → Except CompileError Model}

theorem Call.sequenceArg_conserves (c : Call) (h : ∀ i, Conserves (models i) (models' i))
    (i : Nat) : Conserves (c.sequenceArg models i) (c.sequenceArg models' i) :=
  (Conserves.refl _).bind fun _ => (h i).bind fun _ => .refl _

/-- The clause of a call is conserved if the models of its arguments are. -/
theorem Operation.clause_conserves (op : Operation) (c : Call)
    (h : ∀ i, Conserves (models i) (models' i)) :
    Conserves (op.clause c models) (op.clause c models') := by
  cases op with
  | join => exact (Conserves.refl _).bind fun _ => (c.sequenceArg_conserves h 0).bind fun _ => .refl _
  | setOp o =>
    exact (Conserves.refl _).bind fun _ => (c.sequenceArg_conserves h 0).bind fun _ => .refl _
  | _ => exact .refl _

end Clause

/-! ## Recognition -/

namespace Registry

variable {r r' : Registry}

theorem chain_of_lookup_eq_none {c : Call} (h : r.lookup c = none) :
    r.chain c.toExpr = .error (.unsupported (.of c)) := by
  rw [Call.toExpr, chain]
  simp only [h]

theorem chain_of_lookup_eq_some {c : Call} {op : Operation} (h : r.lookup c = some op) :
    r.chain c.toExpr = do
      let k ← op.clause c (argumentModel c (r.models c.args))
      let inner ← r.chain c.receiver
      return inner.append k := by
  rw [Call.toExpr, chain]
  simp only [h]
  cases op.clause c (argumentModel c (r.models c.args)) with
  | error err => rfl
  | ok k => cases r.chain c.receiver <;> rfl

theorem argumentModel_conserves (c : Call)
    (h : ∀ a ∈ c.args, Conserves (r.recognise a) (r'.recognise a)) (i : Nat) :
    Conserves (argumentModel c (r.models c.args) i) (argumentModel c (r'.models c.args) i) := by
  rw [argumentModel, argumentModel, models_eq, models_eq, List.getElem?_map, List.getElem?_map]
  cases ha : c.args[i]? with
  | none => exact .refl _
  | some a => exact h a (List.mem_of_getElem? ha)

theorem Extends.chain_conserves (h : r.Extends r') (e : Expr) :
    Conserves (r.chain e) (r'.chain e) := by
  induction e using Expr.induction_on_children with
  | node e ih =>
    cases e with
    | call o m receiver args =>
      change Conserves (r.chain (Call.mk o m receiver args).toExpr)
        (r'.chain (Call.mk o m receiver args).toExpr)
      cases hop : r.lookup ⟨o, m, receiver, args⟩ with
      | none =>
        rw [chain_of_lookup_eq_none hop]
        exact .unsupported _ _
      | some op =>
        rw [chain_of_lookup_eq_some hop, chain_of_lookup_eq_some (h _ op hop)]
        have hargs : ∀ a ∈ args, Conserves (r.recognise a) (r'.recognise a) := fun a ha =>
          (ih a (List.mem_cons_of_mem receiver ha)).bind fun _ => .refl _
        have hclause := op.clause_conserves ⟨o, m, receiver, args⟩
          (argumentModel_conserves ⟨o, m, receiver, args⟩ hargs)
        exact hclause.bind fun _ => (ih receiver List.mem_cons_self).bind fun _ => .refl _
    | _ => exact .refl _

/-- **A larger registry** recognises a chain alike, unless the smaller one does not support it. -/
theorem Extends.recognise_conserves (h : r.Extends r') (e : Expr) :
    Conserves (r.recognise e) (r'.recognise e) :=
  (h.chain_conserves e).bind fun _ => .refl _

/-! ## Compilation -/

theorem mergeAll_append (r : Registry) (sets sets' : List OperationSet) :
    r.mergeAll (sets ++ sets') = r.mergeAll sets >>= fun next => next.mergeAll sets' := by
  induction sets generalizing r with
  | nil => rfl
  | cons set sets ih =>
    rw [List.cons_append, mergeAll, mergeAll]
    rcases r.merge set with ⟨next, _ | err⟩
    · exact ih next
    · rfl

/-- Extensions are merged into the registry of the standard sets. -/
theorem exists_standard_of_withExtensions {sets : List OperationSet}
    (h : withExtensions sets = .ok r') :
    ∃ r, withExtensions [] = .ok r ∧ r.Extends r' := by
  have hsplit : withExtensions sets = withExtensions [] >>= fun next => next.mergeAll sets :=
    empty.mergeAll_append [.standard, .dml] sets
  rw [hsplit] at h
  cases hstandard : withExtensions [] with
  | error err =>
    rw [hstandard] at h
    cases h
  | ok r =>
    rw [hstandard] at h
    exact ⟨r, rfl, mergeAll_extends h⟩

end Registry

theorem Compiler.exists_standard_of_build {sets : List OperationSet} {passes : List Pass}
    {extended : Compiler} (h : Compiler.build sets passes = .ok extended) :
    ∃ standard, Compiler.build [] passes = .ok standard ∧ extended.passes = standard.passes ∧
      standard.registry.Extends extended.registry := by
  rw [build] at h
  split at h
  · rename_i registry hregistry
    cases h
    obtain ⟨r, hr, hextends⟩ := Registry.exists_standard_of_withExtensions hregistry
    exact ⟨⟨r, passes⟩, by rw [build, hr], rfl, hextends⟩
  · cases h

/-- **Extensions are conservative.** If a compiler with extensions can be built, so can the one
without; and whatever that one makes of a tree, a model or a fault, the compiler with extensions makes
of it too, unless an operation is not supported. -/
theorem compile_extended_conserves {sets : List OperationSet} {passes : List Pass}
    {extended : Compiler} (h : Compiler.build sets passes = .ok extended) :
    ∃ standard, Compiler.build [] passes = .ok standard ∧
      ∀ e, (∀ shape, standard.compile e ≠ .error (.fault (.unsupported shape))) →
        extended.compile e = standard.compile e := by
  obtain ⟨standard, hstandard, hpasses, hextends⟩ := Compiler.exists_standard_of_build h
  refine ⟨standard, hstandard, fun e hsupported => ?_⟩
  rw [Compiler.compile_eq] at hsupported ⊢
  rw [Compiler.compile_eq, hpasses]
  cases hout : settledTree standard.passes e with
  | error stop => rfl
  | ok out =>
    -- both compilers settle on the same tree; only the registries differ
    have hrecognise : extended.registry.recognise out = standard.registry.recognise out := by
      refine hextends.recognise_conserves out fun shape hshape => hsupported shape ?_
      rw [hout]
      change (standard.registry.recognise out).mapError Stop.fault = _
      rw [hshape]
      rfl
    change (extended.registry.recognise out).mapError Stop.fault = _
    rw [hrecognise]
    rfl

section Sampling

-- the standard sets are merged, and a round of all passes is run, by the kernel
set_option maxRecDepth 4096

/-- An operation of a host library by its shape, and one more sequence operation by its name. -/
def samplingSet : OperationSet :=
  ⟨"sampling", [(⟨.host "etl", "keep", [.lambda 1]⟩, .filter)], [((.queryable, "sample"), .take)]⟩

/-- `users.union(admins.then_by(a => a.age))`, where the inner rows are in no order. -/
def unorderedUnion : Expr :=
  .call .queryable "union" (.source "users")
    [.call .queryable "then_by" (.source "admins") [.lambda ["a"] (.member (.parameter "a") "age")]]

theorem compile_extended_conserves_unorderedUnion :
    ∃ extended, Compiler.build [samplingSet] Pass.standard = .ok extended ∧
      extended.compile unorderedUnion = .error (.fault .unorderedThenBy) := by
  have hbuild : ∃ extended, Compiler.build [samplingSet] Pass.standard = .ok extended := ⟨_, rfl⟩
  obtain ⟨extended, hextended⟩ := hbuild
  obtain ⟨standard, hstandard, hconserves⟩ := compile_extended_conserves hextended
  have hfault : standard.compile unorderedUnion = .error (.fault .unorderedThenBy) := by
    cases hstandard
    rfl
  have hsame := hconserves unorderedUnion (by simp [hfault])
  exact ⟨extended, hextended, hsame.trans hfault⟩

end Sampling

end QueryChain
