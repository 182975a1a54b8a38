import QueryChain.Proofs.Eval.Conversion
import QueryChain.Proofs.Eval.Refinement
import QueryChain.Proofs.Pass.Contraction
import QueryChain.Proofs.Pass.Settling
import QueryChain.Proofs.Value.Comparison

/-!
# The passes keep the meaning of a tree

Whatever values the free names stand for, the settled tree evaluates to the value that the tree itself
evaluates to. An error stays an error of the same kind as long as the tree holds no quotes and no
applied lambdas: evaluation refuses both, and the passes take them away.

## Main results

* `BinaryOp.apply_exchanged_keeps`, `Expr.evaluate_isBoolean`: why a comparison may be exchanged and a
  double negation left out
* `Rule.Contracts.keeps`: each rule keeps the outcome of a node
* `settle_standard_keeps_evaluate`: the standard passes keep the outcome of a tree
-/

namespace QueryChain

variable {errors : Prop}

/-! ## Operators -/

/-- A comparison and its exchanged form agree, up to the order of kinds in a mismatch. -/
theorem BinaryOp.apply_exchanged_keeps {op exchanged : BinaryOp}
    (h : op.exchanged? = some exchanged) (l r : Value) :
    Keeps errors (op.apply l r) (exchanged.apply r l) := by
  have horder : ∀ op exchanged : BinaryOp,
      (∀ o, exchanged.holdsFor o.swap = op.holdsFor o) →
        Keeps errors (op.compareValues l r) (exchanged.compareValues r l) := by
    intro op exchanged hholds
    rw [compareValues, compareValues, Bool.or_comm, Value.compare_swap l r]
    split
    · exact .refl _
    · cases l.compare r with
      | none => exact .error rfl
      | some o =>
        rw [Option.map_some]
        simp only [hholds]
        exact .refl _
  cases op <;> cases h
  case eq =>
    rw [apply, apply, Value.looseEq_comm]
    exact .refl _
  case ne =>
    rw [apply, apply, Value.looseEq_comm]
    exact .refl _
  case lt => exact horder .lt .gt (by decide)
  case le => exact horder .le .ge (by decide)
  case gt => exact horder .gt .lt (by decide)
  case ge => exact horder .ge .le (by decide)

/-- A comparison looks at both operands. -/
theorem BinaryOp.applyLazily_of_exchanged {op exchanged : BinaryOp}
    (h : op.exchanged? = some exchanged) (l : Value) (right : Except EvalError Value) :
    op.applyLazily l right = right >>= op.apply l := by
  cases op <;> cases h <;> rfl

theorem BinaryOp.exchanged_exchanged {op exchanged : BinaryOp}
    (h : op.exchanged? = some exchanged) : exchanged.exchanged? = some op := by
  cases op <;> cases h <;> rfl

/-- A negation yields a truth value or null. -/
theorem UnaryOp.apply_not_eq_ok {v w : Value} (h : UnaryOp.not.apply v = .ok w) :
    w = .null ∨ ∃ b, w = .bool b := by
  cases v <;> cases h
  · exact .inl rfl
  · exact .inr ⟨_, rfl⟩

theorem UnaryOp.apply_not_not {v : Value} (h : v = .null ∨ ∃ b, v = .bool b) :
    (UnaryOp.not.apply v >>= UnaryOp.not.apply) = .ok v := by
  rcases h with rfl | ⟨b, rfl⟩
  · rfl
  · cases b <;> rfl

/-- A comparison yields a truth value. -/
theorem BinaryOp.apply_isComparison_eq_ok {op : BinaryOp} (hop : op.isComparison) {l r w : Value}
    (h : op.apply l r = .ok w) : ∃ b, w = .bool b := by
  have horder : ∀ op : BinaryOp, op.compareValues l r = .ok w → ∃ b, w = .bool b := by
    intro op h
    unfold compareValues at h
    split at h
    · exact ⟨_, (Except.ok.inj h).symm⟩
    · split at h
      · exact ⟨_, (Except.ok.inj h).symm⟩
      · cases h
  cases op <;> cases hop
  case eq => exact ⟨_, (Except.ok.inj h).symm⟩
  case ne => exact ⟨_, (Except.ok.inj h).symm⟩
  all_goals exact horder _ h

/-- So does a logical operator, whether or not it looks at its right operand. -/
theorem BinaryOp.applyLazily_eq_ok {op : BinaryOp}
    (hop : op.isComparison || op == .and || op == .or) {l w : Value}
    {right : Except EvalError Value} (h : op.applyLazily l right = .ok w) : ∃ b, w = .bool b := by
  have hlogical : ∀ op : BinaryOp, (right >>= op.logicalRight l) = .ok w → ∃ b, w = .bool b := by
    intro op h
    obtain ⟨r, -, hr⟩ := bind_eq_ok_iff.mp h
    cases r <;> cases hr
    exact ⟨_, rfl⟩
  cases op with
  | and =>
    cases l with
    | bool p =>
      cases p with
      | false => exact ⟨_, (Except.ok.inj h).symm⟩
      | true => exact hlogical .and h
    | _ => cases h
  | or =>
    cases l with
    | bool p =>
      cases p with
      | false => exact hlogical .or h
      | true => exact ⟨_, (Except.ok.inj h).symm⟩
    | _ => cases h
  | eq | ne | lt | le | gt | ge =>
    obtain ⟨r, -, hr⟩ := bind_eq_ok_iff.mp h
    exact apply_isComparison_eq_ok rfl hr
  | _ => cases hop

/-- A negated equality is the opposite comparison. -/
theorem BinaryOp.applyLazily_negated {op opposite : BinaryOp} (h : op.negated? = some opposite)
    (l : Value) (right : Except EvalError Value) :
    (op.applyLazily l right >>= UnaryOp.not.apply) = opposite.applyLazily l right := by
  cases op <;> cases h
  case eq => cases right <;> rfl
  case ne =>
    cases right with
    | error k => rfl
    | ok r => exact congrArg (fun b => Except.ok (Value.bool b)) (Bool.not_not _)

/-! ## The outcome of a node under an assignment -/

namespace Expr

variable (values : List (String × Value))

theorem evaluate_assign_constant (v : Value) : ((constant v).assign values).evaluate = .ok v :=
  evaluate_assign (e := constant v) nofun values

theorem evaluate_assign_unary (op : UnaryOp) (x : Expr) :
    ((unary op x).assign values).evaluate = (x.assign values).evaluate >>= op.apply :=
  evaluate_assign (e := unary op x) nofun values

theorem evaluate_assign_binary (op : BinaryOp) (a b : Expr) :
    ((binary op a b).assign values).evaluate =
      (a.assign values).evaluate >>= fun l => op.applyLazily l (b.assign values).evaluate :=
  evaluate_assign (e := binary op a b) nofun values

theorem evaluate_assign_convert (x : Expr) (k : Kind) :
    ((convert x k).assign values).evaluate =
      (x.assign values).evaluate >>= fun v => v.convert k :=
  evaluate_assign (e := convert x k) nofun values

/-- Only builtin functions are called by an evaluation. -/
theorem evaluate_assign_call {o : Owner} (h : o ≠ .builtin) (m : String) (r : Expr)
    (args : List Expr) :
    ((call o m r args).assign values).evaluate = .error (.notEvaluable (.call o m)) := by
  refine (evaluate_assign (e := call o m r args) nofun values).trans ?_
  exact if_neg h

/-- A tree of a boolean form yields a truth value or null. -/
theorem evaluate_isBoolean {x : Expr} (hx : x.isBoolean) {v : Value}
    (h : (x.assign values).evaluate = .ok v) : v = .null ∨ ∃ b, v = .bool b := by
  cases x with
  | constant w =>
    rw [evaluate_assign_constant] at h
    cases h
    cases v <;> cases hx
    exact .inr ⟨_, rfl⟩
  | unary op y =>
    cases op <;> cases hx
    rw [evaluate_assign_unary] at h
    obtain ⟨w, -, hw⟩ := bind_eq_ok_iff.mp h
    exact UnaryOp.apply_not_eq_ok hw
  | binary op a b =>
    rw [evaluate_assign_binary] at h
    obtain ⟨l, -, hl⟩ := bind_eq_ok_iff.mp h
    exact .inr (BinaryOp.applyLazily_eq_ok hx hl)
  | _ => cases hx

end Expr

/-! ## The rules and the passes -/

/-- Neither a quote nor an application, which evaluation refuses. -/
def Head.IsPlain (h : Head) : Prop :=
  h ≠ .quote ∧ h ≠ .invoke

/-- Each rule keeps the outcome of a node. The two that open a quote or an application replace an
error by whatever is inside. -/
theorem Rule.Contracts.keeps {rule : Rule} {a b : Expr} (h : rule.Contracts a b)
    (hrule : errors → rule ≠ .stripQuote ∧ rule ≠ .inlineInvoke) : a.Keeps errors b := by
  have hqueryable : Owner.queryable ≠ .builtin := nofun
  intro values
  cases h with
  | quote x =>
    rw [Expr.evaluate_assign (e := .quote b) nofun]
    exact .dropped fun he => (hrule he).1 rfl
  | invoke hlambda harity hadmits =>
    rename_i f l args
    rw [Expr.evaluate_assign (e := .invoke f args) nofun]
    exact .dropped fun he => (hrule he).2 rfl
  | convertAny x =>
    rw [Expr.evaluate_assign_convert]
    cases (b.assign values).evaluate <;> exact .refl _
  | convertTwice x k =>
    rw [Expr.evaluate_assign_convert, Expr.evaluate_assign_convert, bind_assoc]
    refine (Keeps.refl _).bind fun v => ?_
    rw [Value.convert_convert]
    exact .refl _
  | rename hnamed r args =>
    rw [Expr.evaluate_assign_call values hqueryable, Expr.evaluate_assign_call values hqueryable]
    exact .error rfl
  | overload hlambda harity r =>
    rw [Expr.evaluate_assign_call values hqueryable, Expr.evaluate_assign_call values hqueryable]
    exact .error rfl
  -- the constant has a value, so only the other operand can fail
  | exchange hexchange v hlive =>
    rw [Expr.evaluate_assign_binary, Expr.evaluate_assign_binary, Expr.evaluate_assign_constant]
    change Keeps errors (BinaryOp.applyLazily _ v _) _
    rw [BinaryOp.applyLazily_of_exchanged hexchange]
    refine (Keeps.refl _).bind fun r => ?_
    rw [BinaryOp.applyLazily_of_exchanged (BinaryOp.exchanged_exchanged hexchange)]
    exact BinaryOp.apply_exchanged_keeps hexchange v r
  | negate hnegate x y =>
    rw [Expr.evaluate_assign_unary, Expr.evaluate_assign_binary, Expr.evaluate_assign_binary,
      bind_assoc]
    refine (Keeps.refl _).bind fun l => ?_
    rw [BinaryOp.applyLazily_negated hnegate]
    exact .refl _
  | notNot hboolean =>
    rw [Expr.evaluate_assign_unary, Expr.evaluate_assign_unary, bind_assoc]
    cases hb : (b.assign values).evaluate with
    | error k => exact .refl _
    | ok v =>
      -- a number would be refused by the inner negation; the form of the tree excludes it
      change Keeps errors (UnaryOp.not.apply v >>= UnaryOp.not.apply) (.ok v)
      rw [UnaryOp.apply_not_not (Expr.evaluate_isBoolean values hboolean hb)]
      exact .refl _

/-- In a tree without quotes and applications the rules bring in neither. -/
theorem Rule.Contracts.plain {rule : Rule} {a b : Expr} (h : rule.Contracts a b)
    (ha : a.Everywhere Head.IsPlain) :
    b.Everywhere Head.IsPlain ∧ rule ≠ .stripQuote ∧ rule ≠ .inlineInvoke := by
  obtain ⟨hhead, hchildren⟩ := Expr.everywhere_iff.mp ha
  cases h with
  | quote x => exact absurd rfl hhead.1
  | invoke hlambda harity hadmits => exact absurd rfl hhead.2
  | convertAny x => exact ⟨hchildren _ List.mem_cons_self, nofun, nofun⟩
  | convertTwice x k => exact ⟨hchildren _ List.mem_cons_self, nofun, nofun⟩
  | rename hnamed r args =>
    exact ⟨Expr.everywhere_iff.mpr ⟨⟨nofun, nofun⟩, hchildren⟩, nofun, nofun⟩
  | overload hlambda harity r =>
    refine ⟨Expr.everywhere_iff.mpr ⟨⟨nofun, nofun⟩, ?_⟩, nofun, nofun⟩
    exact List.forall_mem_singleton.mpr (Expr.everywhere_iff.mpr ⟨⟨nofun, nofun⟩, hchildren⟩)
  | exchange hexchange v hlive =>
    obtain ⟨hv, hb⟩ := List.forall_mem_cons.mp hchildren
    refine ⟨Expr.everywhere_iff.mpr ⟨⟨nofun, nofun⟩, ?_⟩, nofun, nofun⟩
    exact List.forall_mem_cons.mpr
      ⟨List.forall_mem_singleton.mp hb, List.forall_mem_singleton.mpr hv⟩
  | negate hnegate x y =>
    have hbinary := Expr.everywhere_iff.mp (hchildren _ List.mem_cons_self)
    exact ⟨Expr.everywhere_iff.mpr ⟨⟨nofun, nofun⟩, hbinary.2⟩, nofun, nofun⟩
  | notNot hboolean =>
    have hnot := Expr.everywhere_iff.mp (hchildren _ List.mem_cons_self)
    exact ⟨hnot.2 _ List.mem_cons_self, nofun, nofun⟩

/-- An evaluable tree and its value have the same outcome under every assignment. -/
theorem Expr.keeps_constant {e : Expr} {v : Value} (h : e.isFoldable .allowAll)
    (hv : e.evaluate = .ok v) : e.Keeps errors (constant v) := by
  intro values
  have hevaluable : e.isEvaluable .allowAll := (Bool.and_eq_true_iff.mp h).2
  rw [assign_of_isEvaluable hevaluable, hv, evaluate_assign_constant]
  exact .refl _

/-- **The passes keep the meaning of a tree.** Under every assignment of values to names, the settled
tree has the value that the tree has. If the tree holds no quote and no application, it also fails
where the tree fails, with an error of the same variant. -/
theorem settle_standard_keeps_evaluate {e : Expr} {s : Settled}
    (h : settle Pass.standard e = .ok s) (values : List (String × Value)) :
    (∀ v, (e.assign values).evaluate = .ok v →
      (s.edit.tree.assign values).evaluate = .ok v) ∧
    ((∀ x ∈ e.subtrees, x.head ≠ .quote ∧ x.head ≠ .invoke) →
      ∀ k, (e.assign values).evaluate = .error k →
        ∃ k', (s.edit.tree.assign values).evaluate = .error k' ∧ k'.variant = k.variant) := by
  -- values are kept in any tree, errors among trees that hold no quote and no application
  have hcongruence := (Expr.keeps_isCongruence False).and
    ((Expr.keeps_isCongruence True).within Head.IsPlain)
  obtain ⟨hvalue, hplain⟩ := hcongruence.settledTree
    (fun rule a b hab => by
      have hab := Rule.apply_eq_some_iff.mp hab
      refine ⟨hab.keeps False.elim, fun ha => ?_⟩
      obtain ⟨hb, hrule⟩ := hab.plain ha
      exact ⟨hb, hab.keeps fun _ => hrule⟩)
    (fun a v hfoldable hv => by
      refine ⟨Expr.keeps_constant hfoldable hv, fun _ => ⟨?_, Expr.keeps_constant hfoldable hv⟩⟩
      exact Expr.everywhere_iff.mpr ⟨⟨nofun, nofun⟩, nofun⟩)
    (settledTree_of_settle h)
  refine ⟨fun v hv => (hvalue values).eq_ok hv, fun he k hk => ?_⟩
  exact ((hplain he).2 values).eq_error trivial hk

section OverLimit

-- two rounds of all passes are run by the kernel
set_option maxRecDepth 4096

/-- `!!(2 + 3 < x)`, which settles as `x > 5`. -/
def overLimit : Expr :=
  .unary .not (.unary .not (.binary .lt
    (.binary .add (.constant (.int 2)) (.constant (.int 3))) (.convert (.parameter "x") .any)))

theorem settle_standard_keeps_evaluate_overLimit :
    ((Edit.changed (.binary .gt (.parameter "x") (.constant (.int 5)))).tree.assign
      [("x", .int 7)]).evaluate = .ok (.bool true) ∧
    ∃ k, ((Edit.changed (.binary .gt (.parameter "x") (.constant (.int 5)))).tree.assign
      [("x", .text "a")]).evaluate = .error k ∧ k.variant = .typeMismatch := by
  have hsettle : settle Pass.standard overLimit =
      .ok ⟨.changed (.binary .gt (.parameter "x") (.constant (.int 5))), 2⟩ := by rfl
  have hplain : ∀ x ∈ overLimit.subtrees, x.head ≠ .quote ∧ x.head ≠ .invoke := by
    simp [overLimit, Expr.subtrees_eq, Expr.children, Expr.head]
  have hvalue : (overLimit.assign [("x", .int 7)]).evaluate = .ok (.bool true) := by rfl
  have herror : (overLimit.assign [("x", .text "a")]).evaluate =
      .error (.typeMismatch "<" [.int, .text]) := by rfl
  refine ⟨(settle_standard_keeps_evaluate hsettle _).1 _ hvalue, ?_⟩
  exact (settle_standard_keeps_evaluate hsettle _).2 hplain _ herror

end OverLimit

end QueryChain
