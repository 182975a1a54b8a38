import QueryChain.Proofs.Compile.WellFormed

/-!
# Models within models

A clause that combines rows with those of another model holds that model, which may hold models in
its own clauses, and so on. What is computed along this nesting is computed by one recursion, and what
is proved along it by one induction.

## Main definitions

* `Model.fold`, `Clause.fold`: values made from the innermost models outwards
* `Model.models`: the model and the models within it, in order

## Main results

* `Model.fold_eq`: the value of a model, from the values of the models within its clauses
* `Model.induction_on_operands`: induction along the nesting
* `Model.mem_models_iff`: no model within the model is left out
-/

namespace QueryChain

variable {α β : Type}

/-! ## Recursion along the nesting -/

mutual

/-- A value of a model, made of the values of its clauses. -/
def Model.fold (model : Model → List β → α) (clause : Clause → Option α → β) : Model → α
  | ⟨source, clauses⟩ => model ⟨source, clauses⟩ (Clause.foldAll model clause clauses)

/-- A value of a clause, made of the value of the model that it holds, if it holds one. -/
def Clause.fold (model : Model → List β → α) (clause : Clause → Option α → β) : Clause → β
  | .join inner outerKey innerKey pair =>
    clause (.join inner outerKey innerKey pair) (some (Model.fold model clause inner))
  | .setOp op other => clause (.setOp op other) (some (Model.fold model clause other))
  | c => clause c none

/-- The values of clauses in order. -/
def Clause.foldAll (model : Model → List β → α) (clause : Clause → Option α → β) :
    List Clause → List β
  | [] => []
  | c :: cs => Clause.fold model clause c :: Clause.foldAll model clause cs

end

section Fold

variable (model : Model → List β → α) (clause : Clause → Option α → β)

theorem Clause.foldAll_eq (cs : List Clause) :
    foldAll model clause cs = cs.map (fold model clause) := by
  induction cs with
  | nil => rfl
  | cons c cs ih => rw [foldAll, ih, List.map_cons]

theorem Clause.fold_eq (c : Clause) :
    c.fold model clause = clause c (c.operand?.map (Model.fold model clause)) := by
  cases c <;> rfl

theorem Model.fold_eq (m : Model) :
    m.fold model clause =
      model m (m.clauses.map fun c => clause c (c.operand?.map (fold model clause))) := by
  cases m with
  | mk source clauses =>
    rw [fold, Clause.foldAll_eq]
    refine congrArg _ (List.map_congr_left fun c _ => ?_)
    exact Clause.fold_eq model clause c

end Fold

/-! ## Induction along the nesting -/

theorem Clause.sizeOf_operand {c : Clause} {inner : Model} (h : c.operand? = some inner) :
    sizeOf inner < sizeOf c := by
  cases c with
  | join inner' outerKey innerKey pair =>
    cases h
    rw [join.sizeOf_spec]
    omega
  | setOp op other =>
    cases h
    rw [setOp.sizeOf_spec]
    omega
  | _ => cases h

namespace Model

/-- What holds of a model whenever it holds of the models that its clauses combine the rows with holds
of every model. -/
theorem induction_on_operands {motive : Model → Prop}
    (node : ∀ m : Model, (∀ c ∈ m.clauses, ∀ inner, c.operand? = some inner → motive inner) →
      motive m) (m : Model) : motive m := by
  -- a model within a clause is smaller than the clause, which is smaller than the model around it
  refine node m fun c hc inner hinner => ?_
  have hoperand : sizeOf inner < sizeOf c := Clause.sizeOf_operand hinner
  have hclause : sizeOf c < sizeOf m.clauses := List.sizeOf_lt_of_mem hc
  have hmodel : sizeOf m = 1 + sizeOf m.source + sizeOf m.clauses := by
    cases m
    exact mk.sizeOf_spec _ _
  exact induction_on_operands node inner
termination_by sizeOf m

/-! ## The models within a model -/

/-- The model and the models within it, each before those that its clauses hold. -/
def models : Model → List Model :=
  fold (fun m clauses => m :: clauses.flatten) fun _ within => within.getD []

theorem models_eq (m : Model) :
    m.models = m :: m.clauses.flatMap fun c => c.operand?.elim [] models := by
  rw [models, fold_eq, List.flatMap_def]
  refine congrArg (fun ls => m :: List.flatten ls) (List.map_congr_left fun c _ => ?_)
  cases c.operand? <;> rfl

/-- **No model is left out,** and nothing else is listed. -/
theorem mem_models_iff {n m : Model} : n ∈ m.models ↔ n.Within m := by
  induction m using induction_on_operands with
  | node m ih =>
    rw [models_eq, List.mem_cons, List.mem_flatMap]
    constructor
    · rintro (rfl | ⟨c, hc, hn⟩)
      · exact .self n
      · cases hinner : c.operand? with
        | none =>
          rw [hinner] at hn
          cases hn
        | some inner =>
          rw [hinner] at hn
          exact .operand hc hinner ((ih c hc inner hinner).mp hn)
    · intro h
      cases h with
      | self => exact .inl rfl
      | operand hc hinner h =>
        refine .inr ⟨_, hc, ?_⟩
        rw [hinner]
        exact (ih _ hc _ hinner).mpr h

end Model

end QueryChain
