import QueryChain.Compile.Clause
import QueryChain.Proofs.Expr.Nodes

/-!
# Clauses that fit

What a clause promises about its operands, said of the clause alone, and the proof that every
operation keeps the promise, whatever call it is given. The checks stand with the single arguments;
an operation adds nothing to them.

## Main definitions

* `Expr.NoLambda`, `Expr.IsRowCount`: operands that are not functions, and numbers of rows
* `Clause.Fits`: the operands of a clause are of the right form
* `Clause.operand?`: the model that a clause combines the rows with
* `Operation.Makes`: what each operation takes from the arguments of a call

## Main results

* `Operation.clause_makes`: the clause of a call, by operation
* `Operation.clause_fits`: the clause of a call fits
* `Operation.clause_operand`: the model within the clause of a call is that of its first argument,
  and yields rows
-/

namespace QueryChain

namespace Expr

/-- The tree is no lambda, with or without a quote around it. -/
def NoLambda (e : Expr) : Prop :=
  ∀ ps body, e ≠ .lambda ps body ∧ e ≠ .quote (.lambda ps body)

/-- A tree in the place of a number of rows: no lambda, and if it is a constant, an integer that is
not negative. -/
structure IsRowCount (e : Expr) : Prop where
  noLambda : e.NoLambda
  constant : ∀ v, e = .constant v → ∃ n, v = .int n ∧ 0 ≤ n.toInt

theorem noLambda_of_asLambda? {e : Expr} (h : e.asLambda? = none) : e.NoLambda := by
  intro ps body
  constructor
  · rintro rfl
    cases h
  · rintro rfl
    cases h

end Expr

/-- The path names a member, and a value that is computed from the row takes the row. -/
structure Assignment.Fits (a : Assignment) : Prop where
  path : a.path ≠ []
  row : ∀ l, a.value = .row l → l.arity = 1

/-- The operand of a reduction is of the right form. -/
def ResultOp.Fits : ResultOp → Prop
  | reduce _ => True
  | all predicate => predicate.arity = 1
  | aggregate _ selector => ∀ l ∈ selector, l.arity = 1
  | contains item => item.NoLambda

namespace Clause

/-- The operands of a clause are of the right form: lambdas have the right arity, and numbers of rows
and assignments are what they are taken for. -/
def Fits : Clause → Prop
  | filter l | select l | groupBy l | orderBy l _ _ => l.arity = 1
  | skip count | take count => count.IsRowCount
  | distinct | setOp _ _ => True
  | join _ outerKey innerKey pair => outerKey.arity = 1 ∧ innerKey.arity = 1 ∧ pair.arity = 2
  | result op => op.Fits
  | delete condition => ∀ l ∈ condition, l.arity = 1
  | update assignments => assignments ≠ [] ∧ ∀ a ∈ assignments, a.Fits

/-- The model whose rows the clause combines with those before it. -/
def operand? : Clause → Option Model
  | join inner _ _ _ => some inner
  | setOp _ other => some other
  | _ => none

end Clause

/-! ## Arguments of a call -/

namespace Call

variable {c : Call} {i : Nat}

theorem lambdaArg_eq_ok {n : Nat} {l : Lambda} (h : c.lambdaArg i n = .ok l) : l.arity = n := by
  unfold lambdaArg at h
  split at h
  · split at h
    · cases h
      assumption
    · cases h
  · cases h

theorem onlyLambda_eq_ok {l : Lambda} (h : c.onlyLambda = .ok l) : l.arity = 1 := by
  obtain ⟨-, -, h⟩ := bind_eq_ok_iff.mp h
  exact lambdaArg_eq_ok h

theorem optionalLambda_eq_ok {found : Option Lambda} (h : c.optionalLambda = .ok found) :
    ∀ l ∈ found, l.arity = 1 := by
  unfold optionalLambda at h
  split at h
  · cases h
    nofun
  · obtain ⟨l, hl, rfl⟩ := map_eq_ok_iff.mp h
    rintro _ ⟨⟩
    exact onlyLambda_eq_ok hl

theorem operandArg_eq_ok {e : Expr} (h : c.operandArg i = .ok e) : e.NoLambda := by
  unfold operandArg at h
  split at h
  · split at h
    · cases h
      exact Expr.noLambda_of_asLambda? (Option.isNone_iff_eq_none.mp ‹_›)
    · cases h
  · cases h

theorem rowCountArg_eq_ok {e : Expr} (h : c.rowCountArg i = .ok e) : e.IsRowCount := by
  obtain ⟨e', he, h⟩ := bind_eq_ok_iff.mp h
  have hlambda := operandArg_eq_ok he
  split at h
  · rename_i hconstant
    cases h
    refine ⟨hlambda, ?_⟩
    rintro v rfl
    cases hconstant
  · rename_i n hconstant
    split at h
    · rename_i hn
      cases h
      refine ⟨hlambda, ?_⟩
      rintro v rfl
      cases hconstant
      exact ⟨n, rfl, hn⟩
    · cases h
  · cases h

theorem sequenceArg_eq_ok {models : Nat → Except CompileError Model} {m : Model}
    (h : c.sequenceArg models i = .ok m) : models i = .ok m ∧ m.kind = .select := by
  obtain ⟨-, -, h⟩ := bind_eq_ok_iff.mp h
  obtain ⟨m', hm, h⟩ := bind_eq_ok_iff.mp h
  split at h
  · cases h
    exact ⟨hm, ‹_›⟩
  · cases h

end Call

/-! ## Setters -/

theorem Lambda.memberPath?_ne_nil {l : Lambda} {path : List String}
    (h : l.memberPath? = some path) : path ≠ [] := by
  obtain ⟨row, -, h⟩ := Option.bind_eq_some_iff.mp h
  obtain ⟨found, -, h⟩ := Option.bind_eq_some_iff.mp h
  obtain ⟨_, hguard, h⟩ := Option.bind_eq_some_iff.mp h
  cases h
  simpa [guard] using hguard

namespace Call

variable {c : Call}

theorem setterValue_eq_ok {value : Expr} {assigned : AssignedValue}
    (h : c.setterValue value = .ok assigned) {row : Lambda} (hrow : assigned = .row row) :
    row.arity = 1 := by
  unfold setterValue at h
  split at h
  · split at h
    · cases h
      cases hrow
      assumption
    · cases h
  · cases h
    cases hrow

theorem assignment_eq_ok {selector value : Expr} {a : Assignment}
    (h : c.assignment selector value = .ok a) : a.Fits := by
  obtain ⟨l, -, h⟩ := bind_eq_ok_iff.mp h
  obtain ⟨assigned, hassigned, h⟩ := bind_eq_ok_iff.mp h
  split at h
  · rename_i path hpath
    cases h
    exact ⟨l.memberPath?_ne_nil hpath, fun row hrow => setterValue_eq_ok hassigned hrow⟩
  · cases h

theorem assignmentsFrom_eq_ok {parameter : Option String} {e : Expr} {as : List Assignment}
    (h : c.assignmentsFrom parameter e = .ok as) : ∀ a ∈ as, a.Fits := by
  fun_induction c.assignmentsFrom parameter e generalizing as with
  | case1 receiver selector value ih =>
    obtain ⟨a, ha, h⟩ := bind_eq_ok_iff.mp h
    obtain ⟨earlier, hearlier, h⟩ := bind_eq_ok_iff.mp h
    cases h
    exact List.forall_mem_cons.mpr ⟨assignment_eq_ok ha, ih hearlier⟩
  | case2 n =>
    cases h
    nofun
  | case3 => cases h
  | case4 => cases h

theorem assignments_eq_ok {setters : Lambda} {as : List Assignment}
    (h : c.assignments setters = .ok as) : as ≠ [] ∧ ∀ a ∈ as, a.Fits := by
  obtain ⟨found, hfound, h⟩ := bind_eq_ok_iff.mp h
  split at h
  · cases h
  · rename_i hne
    cases h
    refine ⟨?_, fun a ha => assignmentsFrom_eq_ok hfound a (List.mem_reverse.mp ha)⟩
    simpa using hne

end Call

/-! ## Operations -/

theorem ResultKind.resultOp_fits {kind : ResultKind} {c : Call} {op : ResultOp}
    (h : kind.resultOp c = .ok op) : op.Fits := by
  cases kind with
  | reduce r =>
    obtain ⟨-, -, h⟩ := bind_eq_ok_iff.mp h
    cases h
    trivial
  | all =>
    obtain ⟨l, hl, h⟩ := bind_eq_ok_iff.mp h
    cases h
    exact Call.onlyLambda_eq_ok hl
  | aggregate f =>
    obtain ⟨l, hl, h⟩ := bind_eq_ok_iff.mp h
    cases h
    exact Call.optionalLambda_eq_ok hl
  | contains =>
    obtain ⟨-, -, h⟩ := bind_eq_ok_iff.mp h
    obtain ⟨e, he, h⟩ := bind_eq_ok_iff.mp h
    cases h
    exact Call.operandArg_eq_ok he

namespace Operation

/-- What each operation makes of a call: the parts that it takes from the arguments, and the clause. -/
inductive Makes (c : Call) (models : Nat → Except CompileError Model) :
    Operation → Clause → Prop where
  | filter {l : Lambda} (predicate : c.onlyLambda = .ok l) : Makes c models .filter (.filter l)
  | select {l : Lambda} (selector : c.onlyLambda = .ok l) : Makes c models .select (.select l)
  | orderBy {l : Lambda} (d : Direction) (key : c.onlyLambda = .ok l) :
      Makes c models (.orderBy d) (.orderBy l d true)
  | thenBy {l : Lambda} (d : Direction) (key : c.onlyLambda = .ok l) :
      Makes c models (.thenBy d) (.orderBy l d false)
  | skip {e : Expr} (count : c.rowCountArg 0 = .ok e) : Makes c models .skip (.skip e)
  | take {e : Expr} (count : c.rowCountArg 0 = .ok e) : Makes c models .take (.take e)
  | distinct : Makes c models .distinct .distinct
  | join {m : Model} {outer inner pair : Lambda} (sequence : c.sequenceArg models 0 = .ok m)
      (outerKey : c.lambdaArg 1 1 = .ok outer) (innerKey : c.lambdaArg 2 1 = .ok inner)
      (result : c.lambdaArg 3 2 = .ok pair) : Makes c models .join (.join m outer inner pair)
  | groupBy {l : Lambda} (key : c.onlyLambda = .ok l) : Makes c models .groupBy (.groupBy l)
  | setOp {m : Model} (o : SetOperation) (sequence : c.sequenceArg models 0 = .ok m) :
      Makes c models (.setOp o) (.setOp o m)
  | result {kind : ResultKind} {op : ResultOp} (reduction : kind.resultOp c = .ok op) :
      Makes c models (.result kind) (.result op)
  | delete {found : Option Lambda} (condition : c.optionalLambda = .ok found) :
      Makes c models .delete (.delete found)
  | update {setters : Lambda} {as : List Assignment} (lambda : c.onlyLambda = .ok setters)
      (assignments : c.assignments setters = .ok as) : Makes c models .update (.update as)

variable {op : Operation} {c : Call} {models : Nat → Except CompileError Model} {k : Clause}

theorem clause_makes (h : op.clause c models = .ok k) : op.Makes c models k := by
  cases op with
  | filter | select | orderBy _ | thenBy _ | groupBy | result _ | delete =>
    obtain ⟨_, hpart, h⟩ := bind_eq_ok_iff.mp h
    cases h
    constructor
    exact hpart
  | skip | take | setOp _ =>
    obtain ⟨-, -, h⟩ := bind_eq_ok_iff.mp h
    obtain ⟨_, hpart, h⟩ := bind_eq_ok_iff.mp h
    cases h
    constructor
    exact hpart
  | distinct =>
    obtain ⟨-, -, h⟩ := bind_eq_ok_iff.mp h
    cases h
    exact .distinct
  | join =>
    obtain ⟨-, -, h⟩ := bind_eq_ok_iff.mp h
    obtain ⟨m, hm, h⟩ := bind_eq_ok_iff.mp h
    obtain ⟨outer, houter, h⟩ := bind_eq_ok_iff.mp h
    obtain ⟨inner, hinner, h⟩ := bind_eq_ok_iff.mp h
    obtain ⟨pair, hpair, h⟩ := bind_eq_ok_iff.mp h
    cases h
    exact .join hm houter hinner hpair
  | update =>
    obtain ⟨setters, hsetters, h⟩ := bind_eq_ok_iff.mp h
    obtain ⟨as, has, h⟩ := bind_eq_ok_iff.mp h
    cases h
    exact .update hsetters has

/-- **Every clause fits,** whatever call the operation is given. -/
theorem clause_fits (h : op.clause c models = .ok k) : k.Fits := by
  cases clause_makes h with
  | filter hl | select hl | orderBy _ hl | thenBy _ hl | groupBy hl =>
    exact Call.onlyLambda_eq_ok hl
  | skip hcount | take hcount => exact Call.rowCountArg_eq_ok hcount
  | distinct | setOp => trivial
  | join _ houter hinner hpair =>
    exact ⟨Call.lambdaArg_eq_ok houter, Call.lambdaArg_eq_ok hinner, Call.lambdaArg_eq_ok hpair⟩
  | result hop => exact ResultKind.resultOp_fits hop
  | delete hfound => exact Call.optionalLambda_eq_ok hfound
  | update _ has => exact Call.assignments_eq_ok has

/-- The model within a clause is the model of the first argument, and yields rows. -/
theorem clause_operand (h : op.clause c models = .ok k) {inner : Model}
    (hk : k.operand? = some inner) : models 0 = .ok inner ∧ inner.kind = .select := by
  cases clause_makes h with
  | join hm =>
    cases hk
    exact Call.sequenceArg_eq_ok hm
  | setOp _ hm =>
    cases hk
    exact Call.sequenceArg_eq_ok hm
  | _ => cases hk

end Operation

end QueryChain
