import QueryChain.Compile.Basic
import QueryChain.Proofs.Pass.Settling

/-!
# Recognised chains

What a successful compilation did: the passes settled the tree, every call of the chain was looked up
and made a clause, and the clauses came out in an admissible order.

## Main definitions

* `Admissible`: nothing follows a terminal clause, and a refinement follows an ordering

## Main results

* `Model.validate_eq_ok_iff`: models pass the check iff their clauses are admissible
* `Admissible.of_append`: the clauses before the last one are admissible
* `Registry.chain_call_eq_ok_iff`, `Registry.recognise_eq_ok_iff`: the model of a chain of calls
* `Compiler.compile_eq_ok_iff`, `Compiler.compile_eq`: the model of a tree, and every outcome
-/

namespace QueryChain

/-- Nothing follows a terminal clause, and a refinement directly follows an ordering. -/
structure Admissible (clauses : List Clause) : Prop where
  terminal_last : ∀ before c after, clauses = before ++ c :: after → c.terminal?.isSome →
    after = []
  refined : ∀ before c after, clauses = before ++ c :: after → c.isRefinement →
    ∃ d, before.getLast? = some d ∧ d.isOrdering

theorem Admissible.of_append {clauses : List Clause} {k : Clause}
    (h : Admissible (clauses ++ [k])) : Admissible clauses := by
  have hsplit : ∀ {before c after}, clauses = before ++ c :: after →
      clauses ++ [k] = before ++ c :: (after ++ [k]) := by
    rintro before c after rfl
    simp
  refine ⟨fun before c after hc hterminal => ?_, fun before c after hc => ?_⟩
  · have hnil := h.terminal_last before c _ (hsplit hc) hterminal
    exact absurd hnil (by simp)
  · exact h.refined before c _ (hsplit hc)

namespace Model

/-- The check at one clause. -/
theorem checkClauses_cons_eq_ok_iff {previous : Option Clause} {c : Clause} {rest : List Clause} :
    checkClauses previous (c :: rest) = .ok () ↔
      (c.terminal?.isSome → rest = []) ∧
      (c.isRefinement → ∃ d, previous = some d ∧ d.isOrdering) ∧
      checkClauses (some c) rest = .ok () := by
  have hunordered : (c.isRefinement && !previous.any Clause.isOrdering) = true ↔
      ¬ (c.isRefinement → ∃ d, previous = some d ∧ d.isOrdering) := by
    cases previous <;> simp
  rw [checkClauses.eq_def]
  dsimp only
  split
  · rename_i kind next after hterminal
    simp [hterminal]
  · rename_i rest _ _ hterminal
    have hlast : c.terminal?.isSome → rest = [] := by
      intro hsome
      obtain ⟨kind, hkind⟩ := Option.isSome_iff_exists.mp hsome
      cases rest with
      | nil => rfl
      | cons next after => exact absurd rfl (hterminal kind next after hkind)
    split
    · rename_i hrefines
      have hnot := hunordered.mp hrefines
      simp [hnot]
    · rename_i hrefines
      have hrefined := not_not.mp (hunordered.not.mp hrefines)
      exact ⟨fun h => ⟨hlast, hrefined, h⟩, fun h => h.2.2⟩

/-- The check of all clauses, position by position. -/
theorem checkClauses_eq_ok_iff {previous : Option Clause} {clauses : List Clause} :
    checkClauses previous clauses = .ok () ↔
      ∀ before c after, clauses = before ++ c :: after →
        (c.terminal?.isSome → after = []) ∧
        (c.isRefinement → ∃ d, before.getLast?.or previous = some d ∧ d.isOrdering) := by
  induction clauses generalizing previous with
  | nil => simp [checkClauses]
  | cons c rest ih =>
    have hprevious : ∀ before : List Clause,
        (c :: before).getLast?.or previous = before.getLast?.or (some c) := fun before => by
      cases h : before.getLast? <;> simp [List.getLast?_cons, h]
    rw [checkClauses_cons_eq_ok_iff, ih]
    constructor
    · rintro ⟨hterminal, hrefined, hrest⟩ before d after hsplit
      cases before with
      | nil =>
        cases hsplit
        exact ⟨hterminal, hrefined⟩
      | cons _ before =>
        cases hsplit
        rw [hprevious]
        exact hrest before d after rfl
    · intro h
      refine ⟨(h [] c rest rfl).1, (h [] c rest rfl).2, fun before d after hsplit => ?_⟩
      rw [← hprevious]
      exact h (c :: before) d after (congrArg (c :: ·) hsplit)

/-- A model passes the check iff its clauses are admissible. -/
theorem validate_eq_ok_iff {m m' : Model} :
    m.validate = .ok m' ↔ m = m' ∧ Admissible m.clauses := by
  have hclauses : checkClauses none m.clauses = .ok () ↔ Admissible m.clauses := by
    rw [checkClauses_eq_ok_iff]
    simp only [Option.or_none]
    constructor
    · intro h
      exact ⟨fun before c after hc => (h before c after hc).1,
        fun before c after hc => (h before c after hc).2⟩
    · intro h before c after hc
      exact ⟨h.terminal_last before c after hc, h.refined before c after hc⟩
  rw [validate, map_eq_ok_iff, ← hclauses]
  exact ⟨fun ⟨_, h, hm⟩ => ⟨hm, h⟩, fun ⟨hm, h⟩ => ⟨(), h, hm⟩⟩

end Model

namespace Registry

variable {r : Registry}

theorem recognise_eq_ok_iff {e : Expr} {m : Model} :
    r.recognise e = .ok m ↔ r.chain e = .ok m ∧ Admissible m.clauses := by
  change r.chain e >>= Model.validate = .ok m ↔ _
  rw [bind_eq_ok_iff]
  constructor
  · rintro ⟨m', hm', hvalid⟩
    obtain ⟨rfl, hadmissible⟩ := Model.validate_eq_ok_iff.mp hvalid
    exact ⟨hm', hadmissible⟩
  · rintro ⟨hm, hadmissible⟩
    exact ⟨m, hm, Model.validate_eq_ok_iff.mpr ⟨rfl, hadmissible⟩⟩

/-- The model of a call is that of its receiver with a clause more. -/
theorem chain_call_eq_ok_iff {c : Call} {m : Model} :
    r.chain c.toExpr = .ok m ↔
      ∃ op k inner, r.lookup c = some op ∧ op.clause c (argumentModel c (r.models c.args)) = .ok k ∧
        r.chain c.receiver = .ok inner ∧ m = inner.append k := by
  obtain ⟨o, name, receiver, args⟩ := c
  rw [Call.toExpr, chain]
  generalize argumentModel ⟨o, name, receiver, args⟩ (r.models args) = models
  cases r.lookup ⟨o, name, receiver, args⟩ with
  | none => simp
  | some op =>
    cases hclause : op.clause ⟨o, name, receiver, args⟩ models with
    | error err => simp [hclause]
    | ok k => cases r.chain receiver <;> simp [hclause, eq_comm]

/-- The model of an argument is recognised from the argument on its own. -/
theorem argumentModel_eq_ok_iff {c : Call} {args : List Expr} {i : Nat} {m : Model} :
    argumentModel c (r.models args) i = .ok m ↔
      ∃ a, args[i]? = some a ∧ r.recognise a = .ok m := by
  rw [argumentModel, models_eq, List.getElem?_map]
  cases args[i]? with
  | none => simp [Call.invalid]
  | some a => simp

end Registry

/-- A tree is compiled by settling it and recognising what it settled on. -/
theorem Compiler.compile_eq_ok_iff {c : Compiler} {e : Expr} {m : Model} :
    c.compile e = .ok m ↔
      ∃ out, settledTree c.passes e = .ok out ∧ c.registry.recognise out = .ok m := by
  simp only [settledTree, map_eq_ok_iff, compile, run]
  cases settle c.passes e with
  | error stop => simp
  | ok s => cases h : c.registry.recognise s.edit.tree <;> simp [h]

/-- The outcome of a compilation, faults included, from the outcome of the passes. -/
theorem Compiler.compile_eq (c : Compiler) (e : Expr) :
    c.compile e = settledTree c.passes e >>= fun out =>
      (c.registry.recognise out).mapError Stop.fault := by
  rw [compile, run, settledTree]
  cases settle c.passes e with
  | error stop => rfl
  | ok s =>
    change _ = (c.registry.recognise s.edit.tree).mapError Stop.fault
    cases h : c.registry.recognise s.edit.tree with
    | error err => simp only [h, Except.mapError]
    | ok m => simp only [h, Except.mapError]

end QueryChain
