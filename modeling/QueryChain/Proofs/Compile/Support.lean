import QueryChain.Proofs.Compile.Extension
import QueryChain.Proofs.Compile.Setters

/-!
# Calls that are supported

A compilation stops at a call that is not supported only where no operation is found for it. An
operation that is found may refuse its arguments, and the order of clauses may be refused; neither says
that a call is not supported. So a chain is supported if an operation is found for each of its calls,
and its clauses then go by the names of these operations.

## Main definitions

* `Supported`: the outcome is not that a call is not supported
* `Operation.clauseName`: the name of the clauses of an operation
* `Registry.Recognises`: a chain whose calls are all supported, and the names of its clauses

## Main results

* `Operation.clause_supported`, `Model.validate_supported`: what does not refuse a call
* `Operation.clause_name`: the name of a clause
* `Registry.Recognises.call`: one more call
* `Registry.Recognises.recognise`: the model of such a chain
-/

namespace QueryChain

/-- The outcome is not that some call is not supported. -/
def Supported {α : Type} (x : Except CompileError α) : Prop :=
  ∀ shape, x ≠ .error (.unsupported shape)

namespace Supported

variable {α β : Type}

theorem ok (a : α) : Supported (.ok a) :=
  nofun

theorem invalid (c : Call) (fault : ArgumentFault) :
    Supported (c.invalid fault : Except CompileError α) :=
  nofun

theorem bind {x : Except CompileError α} {f : α → Except CompileError β} (hx : Supported x)
    (hf : ∀ a, Supported (f a)) : Supported (x >>= f) := by
  cases x with
  | error err =>
    rintro shape ⟨⟩
    exact hx shape rfl
  | ok a => exact hf a

end Supported

/-! ## Arguments and clauses -/

namespace Call

variable (c : Call)

theorem expectCount_supported (n : Nat) : Supported (c.expectCount n) := by
  unfold expectCount
  split
  · exact .ok ()
  · exact .invalid c _

theorem lambdaArg_supported (i n : Nat) : Supported (c.lambdaArg i n) := by
  unfold lambdaArg
  split
  · split
    · exact .ok _
    · exact .invalid c _
  · exact .invalid c _

theorem operandArg_supported (i : Nat) : Supported (c.operandArg i) := by
  unfold operandArg
  split
  · split
    · exact .ok _
    · exact .invalid c _
  · exact .invalid c _

theorem rowCountArg_supported (i : Nat) : Supported (c.rowCountArg i) := by
  refine (c.operandArg_supported i).bind fun e => ?_
  split
  · exact .ok e
  · split
    · exact .ok e
    · exact .invalid c _
  · exact .invalid c _

theorem sequenceArg_supported {models : Nat → Except CompileError Model} {i : Nat}
    (h : Supported (models i)) : Supported (c.sequenceArg models i) := by
  refine (c.operandArg_supported i).bind fun _ => h.bind fun m => ?_
  split
  · exact .ok m
  · exact .invalid c _

theorem onlyLambda_supported : Supported c.onlyLambda :=
  (c.expectCount_supported 1).bind fun _ => c.lambdaArg_supported 0 1

theorem optionalLambda_supported : Supported c.optionalLambda := by
  unfold optionalLambda
  split
  · exact .ok none
  · exact c.onlyLambda_supported.bind fun l => .ok (some l)

theorem OnlyInvalid.supported {c : Call} {α : Type} {x : Except CompileError α}
    (h : c.OnlyInvalid x) : Supported x := by
  intro shape hshape
  obtain ⟨fault, hfault⟩ := h _ hshape
  cases hfault

theorem assignments_supported (setters : Lambda) : Supported (c.assignments setters) :=
  (c.assignments_onlyInvalid setters).supported

end Call

theorem ResultKind.resultOp_supported (kind : ResultKind) (c : Call) :
    Supported (kind.resultOp c) := by
  cases kind with
  | reduce r => exact (c.expectCount_supported 0).bind fun _ => .ok _
  | all => exact c.onlyLambda_supported.bind fun _ => .ok _
  | aggregate f => exact c.optionalLambda_supported.bind fun _ => .ok _
  | contains =>
    exact (c.expectCount_supported 1).bind fun _ => (c.operandArg_supported 0).bind fun _ => .ok _

namespace Operation

variable {op : Operation} {c : Call} {models : Nat → Except CompileError Model}

/-- Whether the first argument is a sequence. -/
def takesSequence : Operation → Bool
  | join | setOp _ => true
  | _ => false

/-- **An operation that is found** does not say that a call is not supported, unless the sequence that
it takes does. -/
theorem clause_supported (h : op.takesSequence → Supported (models 0)) :
    Supported (op.clause c models) := by
  cases op with
  | filter | select | orderBy _ | thenBy _ | groupBy =>
    exact c.onlyLambda_supported.bind fun _ => .ok _
  | skip | take =>
    exact (c.expectCount_supported 1).bind fun _ => (c.rowCountArg_supported 0).bind fun _ => .ok _
  | distinct => exact (c.expectCount_supported 0).bind fun _ => .ok _
  | join =>
    exact (c.expectCount_supported 4).bind fun _ => (c.sequenceArg_supported (h rfl)).bind fun _ =>
      (c.lambdaArg_supported 1 1).bind fun _ => (c.lambdaArg_supported 2 1).bind fun _ =>
        (c.lambdaArg_supported 3 2).bind fun _ => .ok _
  | setOp o =>
    exact (c.expectCount_supported 1).bind fun _ => (c.sequenceArg_supported (h rfl)).bind fun _ =>
      .ok _
  | result kind => exact (kind.resultOp_supported c).bind fun _ => .ok _
  | delete => exact c.optionalLambda_supported.bind fun _ => .ok _
  | update =>
    exact c.onlyLambda_supported.bind fun setters => (c.assignments_supported setters).bind fun _ =>
      .ok _

/-- The name of the clauses that an operation makes. -/
def clauseName : Operation → String
  | filter => "filter"
  | select => "select"
  | orderBy _ => "order_by"
  | thenBy _ => "then_by"
  | skip => "skip"
  | take => "take"
  | distinct => "distinct"
  | join => "join"
  | groupBy => "group_by"
  | setOp o => o.label
  | result kind => kind.name
  | delete => "delete_all"
  | update => "update_all"

end Operation

theorem ResultKind.resultOp_name {kind : ResultKind} {c : Call} {op : ResultOp}
    (h : kind.resultOp c = .ok op) : op.name = kind.name := by
  cases kind with
  | contains =>
    obtain ⟨_, -, h⟩ := bind_eq_ok_iff.mp h
    obtain ⟨_, -, h⟩ := bind_eq_ok_iff.mp h
    cases h
    rfl
  | all =>
    obtain ⟨_, -, h⟩ := bind_eq_ok_iff.mp h
    cases h
    rfl
  | reduce r =>
    obtain ⟨_, -, h⟩ := bind_eq_ok_iff.mp h
    cases h
    exact (ResultKind.name_reduce r).symm
  | aggregate f =>
    obtain ⟨_, -, h⟩ := bind_eq_ok_iff.mp h
    cases h
    exact (ResultKind.name_aggregate f).symm

/-- **A clause goes by the name of its operation.** -/
theorem Operation.clause_name {op : Operation} {c : Call}
    {models : Nat → Except CompileError Model} {k : Clause} (h : op.clause c models = .ok k) :
    k.name = op.clauseName := by
  cases clause_makes h with
  | result hop => exact ResultKind.resultOp_name hop
  | _ => rfl

/-! ## Chains -/

theorem Model.checkClauses_supported (previous : Option Clause) (clauses : List Clause) :
    Supported (checkClauses previous clauses) := by
  fun_induction checkClauses previous clauses with
  | case1 => exact .ok ()
  | case2 => exact nofun
  | case3 => exact nofun
  | case4 _ _ _ _ _ ih => exact ih

theorem Model.validate_supported (m : Model) : Supported m.validate :=
  (checkClauses_supported none m.clauses).bind fun _ => .ok m

namespace Registry

variable {r : Registry}

/-- Every call of the chain is supported, and the clauses have these names. A chain is not a lambda. -/
structure Recognises (r : Registry) (e : Expr) (names : List String) : Prop where
  operand : e.asLambda? = none
  supported : Supported (r.chain e)
  names : ∀ m, r.chain e = .ok m → m.clauses.map Clause.name = names

theorem Recognises.source (name : String) : r.Recognises (.source name) [] := by
  refine ⟨rfl, .ok _, fun m hm => ?_⟩
  cases hm
  rfl

/-- The model of a supported chain is refused at most for the order of its clauses. -/
theorem Recognises.recognise {e : Expr} {names : List String} (h : r.Recognises e names) :
    Supported (r.recognise e) ∧ ∀ m, r.recognise e = .ok m → m.clauses.map Clause.name = names :=
  ⟨h.supported.bind Model.validate_supported,
    fun m hm => h.names m (recognise_eq_ok_iff.mp hm).1⟩

/-- **One more call:** an operation is found for it, and a sequence that it takes is supported. -/
theorem Recognises.call {c : Call} {op : Operation} {names : List String}
    (hreceiver : r.Recognises c.receiver names) (hop : r.lookup c = some op)
    (hsequence : op.takesSequence → ∃ a others, c.args[0]? = some a ∧ r.Recognises a others) :
    r.Recognises c.toExpr (names ++ [op.clauseName]) := by
  refine ⟨rfl, ?_, fun m hm => ?_⟩
  · rw [chain_of_lookup_eq_some hop]
    refine (Operation.clause_supported fun htakes => ?_).bind fun _ =>
      hreceiver.supported.bind fun _ => .ok _
    obtain ⟨a, others, ha, hrecognises⟩ := hsequence htakes
    rw [argumentModel, models_eq, List.getElem?_map, ha]
    exact hrecognises.recognise.1
  · obtain ⟨op', k, inner, hop', hk, hinner, rfl⟩ := chain_call_eq_ok_iff.mp hm
    cases hop.symm.trans hop'
    simp [Model.append, hreceiver.names inner hinner, Operation.clause_name hk]

end Registry

end QueryChain
