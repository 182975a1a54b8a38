import QueryChain.Proofs.Eval.Invariant

/-!
# The test and the evaluator

The evaluator is written without the test for evaluable trees, and refuses a node only when it comes
to it. The two agree: on an evaluable tree, evaluation ends in a value or in an error of the tree
itself, and never at a node that has no value before the query runs. No operation on values fails
that way but the call of a builtin function by a name that no function has, and such a call is not
admitted.

## Main definitions

* `Conclusive`: the computation does not end at a node that has no value before the query runs

## Main results

* `conclusive_invariant`: every operation on values is conclusive
* `isEvaluable_agrees`: what an evaluable tree holds, and what its evaluation ends in
-/

namespace QueryChain

/-- The computation ends in a value, or in an error of the tree itself. -/
def Conclusive {α : Type} (x : Except EvalError α) : Prop :=
  Ensures (fun _ => True) (fun err => ∀ what, err ≠ .notEvaluable what) x

theorem Conclusive.ne_notEvaluable {α : Type} {x : Except EvalError α} (h : Conclusive x)
    (what : Deferred) : x ≠ .error (.notEvaluable what) := by
  rintro rfl
  cases h with
  | error herr => exact herr what rfl

theorem Value.read_conclusive (v : Value) (name : String) : Conclusive (v.read name) :=
  .read (fun _ _ => trivial) nofun nofun

theorem Value.convert_conclusive (v : Value) (k : Kind) : Conclusive (v.convert k) :=
  .convert trivial (fun _ _ => trivial) nofun

theorem conclusive_results :
    ResultInvariant (fun _ => True) fun err => ∀ what, err ≠ .notEvaluable what where
  null := trivial
  bool _ := trivial
  int _ := trivial
  text _ := trivial
  float _ := trivial
  neg _ := trivial
  abs _ := trivial
  mismatch _ _ := nofun
  overflow _ := nofun
  divisionByZero := nofun
  arity _ _ _ := nofun

/-- **Every operation on values is conclusive.** -/
theorem conclusive_invariant :
    EvalInvariant (fun _ => True) fun err => ∀ what, err ≠ .notEvaluable what where
  mismatch _ _ := nofun
  duplicate _ := nofun
  nullReference _ := nofun
  read n _ := Value.read_conclusive _ n
  unary op _ hv := conclusive_results.unary op hv
  binary op _ _ _ _ := conclusive_results.binary op _ _
  convert k _ := Value.convert_conclusive _ k
  record _ _ := trivial
  list _ := trivial
  builtin f _ _ hv _ := conclusive_results.builtin f hv _

/-- **The test and the evaluator agree.** A tree that is evaluable under some filter is so without
it. It reads and binds no names and reads no data source, and its evaluation never ends at a node
that cannot be evaluated. -/
theorem isEvaluable_agrees {filter : EvaluableFilter} {e : Expr} (h : e.isEvaluable filter) :
    e.isEvaluable .allowAll ∧ e.free = [] ∧ e.bound = [] ∧ ¬ e.readsSource ∧
      ∀ what, e.evaluate ≠ .error (.notEvaluable what) := by
  have hnames := Expr.names_of_isEvaluable h
  have hall := Expr.isEvaluable_allowAll h
  -- the nodes that evaluation would stop at are those that the test does not admit
  have hconclusive : Conclusive e.evaluate :=
    conclusive_invariant.evaluate (fun _ _ => trivial) (.inl hall)
  refine ⟨hall, ?_, ?_, Expr.not_readsSource_of_isEvaluable h, hconclusive.ne_notEvaluable⟩
  · exact List.eq_nil_iff_forall_not_mem.mpr fun n => (hnames n).1
  · exact List.eq_nil_iff_forall_not_mem.mpr fun n => (hnames n).2

/-- `{age: 10 / 0}.age`. -/
def ageOverZero : Expr :=
  .member (.record [("age", .binary .div (.constant (.int 10)) (.constant (.int 0)))]) "age"

/-- An evaluable tree has no value here, and still no node is in the way. -/
theorem isEvaluable_agrees_ageOverZero :
    ageOverZero.isEvaluable (.deny ["len"] ["name"]) ∧ ageOverZero.isEvaluable .allowAll ∧
      ageOverZero.free = [] ∧ ¬ ageOverZero.readsSource ∧
      ∃ cause, ageOverZero.evaluate = .error cause ∧ ∀ what, cause ≠ .notEvaluable what := by
  have hevaluable : ageOverZero.isEvaluable (.deny ["len"] ["name"]) := rfl
  obtain ⟨hall, hfree, -, hsource, hconclusive⟩ := isEvaluable_agrees hevaluable
  have hcause : ∃ cause, ageOverZero.evaluate = .error cause := ⟨_, rfl⟩
  obtain ⟨cause, hcause⟩ := hcause
  refine ⟨hevaluable, hall, hfree, hsource, cause, hcause, fun what hwhat => ?_⟩
  exact hconclusive what (hwhat ▸ hcause)

end QueryChain
