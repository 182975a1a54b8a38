import QueryChain.Proofs.Eval.Conversion
import QueryChain.Proofs.Eval.Evaluable
import QueryChain.Proofs.Eval.Refinement

/-!
# What evaluation keeps

A property of values together with one of errors is kept by evaluation if every operation on values
keeps it. The induction over trees is made here once; what is left to show of a property is one fact
for each operation. Conversions are set apart: a property that some of them do not keep is still kept by
the evaluation of a tree whose own conversions do.

## Main definitions

* `Ensures`: a computation ends in a value, or in an error, of the given kind
* `ResultInvariant`: properties of all values and errors that operators and builtin functions make
* `OperationInvariant`: properties of values and errors that every operation but a conversion keeps
* `EvalInvariant`: properties of values and errors that every operation keeps

## Main results

* `Ensures.bind`, `Ensures.mapM`, `Ensures.collectFields`: one computation after the other
* `Ensures.read`, `Ensures.convert`: a member of a value, and a value as one of another kind
* `ResultInvariant.unary`, `ResultInvariant.binary`, `ResultInvariant.builtin`: what operators and
  builtin functions end in
* `OperationInvariant.evaluate`: what every operation and the conversions of a tree keep, its
  evaluation keeps
* `EvalInvariant.evaluate`: what every operation keeps, evaluation keeps
-/

namespace QueryChain

variable {α β : Type} {P : Value → Prop} {Q : EvalError → Prop}

/-- The computation ends in a value with the first property, or in an error with the second one. -/
inductive Ensures (P : α → Prop) (Q : EvalError → Prop) : Except EvalError α → Prop where
  | ok {a : α} (h : P a) : Ensures P Q (.ok a)
  | error {err : EvalError} (h : Q err) : Ensures P Q (.error err)

/-- Names that are distinct and were not seen before, one by one: the first one is seen before the
others. -/
theorem fresh_cons_iff {seen : List String} {g : String × Value} {fs : List (String × Value)} :
    (((g :: fs).map (·.1)).Nodup ∧ ∀ f ∈ g :: fs, f.1 ∉ seen) ↔
      g.1 ∉ seen ∧ (fs.map (·.1)).Nodup ∧ ∀ f ∈ fs, f.1 ∉ g.1 :: seen := by
  rw [List.map_cons, List.nodup_cons, List.forall_mem_cons]
  constructor
  · rintro ⟨⟨hnew, hnames⟩, hg, hfresh⟩
    refine ⟨hg, hnames, fun f hf hmem => ?_⟩
    rcases List.mem_cons.mp hmem with hname | hmem
    · exact hnew (List.mem_map.mpr ⟨f, hf, hname⟩)
    · exact hfresh f hf hmem
  · rintro ⟨hg, hnames, hfresh⟩
    refine ⟨⟨fun hmem => ?_, hnames⟩, hg, fun f hf hmem => hfresh f hf (List.mem_cons_of_mem _ hmem)⟩
    obtain ⟨f, hf, hname⟩ := List.mem_map.mp hmem
    exact hfresh f hf (hname ▸ List.mem_cons_self)

namespace Ensures

theorem of_eq_ok {P : α → Prop} {x : Except EvalError α} (h : Ensures P Q x) {a : α}
    (ha : x = .ok a) : P a := by
  subst ha
  cases h with
  | ok ha => exact ha

theorem bind_of_eq {P : α → Prop} {P' : β → Prop} {x : Except EvalError α}
    {f : α → Except EvalError β} (hx : Ensures P Q x)
    (hf : ∀ a, x = .ok a → P a → Ensures P' Q (f a)) : Ensures P' Q (x >>= f) := by
  cases hx with
  | ok ha => exact hf _ rfl ha
  | error herr => exact .error herr

theorem bind {P : α → Prop} {P' : β → Prop} {x : Except EvalError α} {f : α → Except EvalError β}
    (hx : Ensures P Q x) (hf : ∀ a, P a → Ensures P' Q (f a)) : Ensures P' Q (x >>= f) :=
  hx.bind_of_eq fun a _ => hf a

theorem mapM {P : α → Prop} {xs : List (Except EvalError α)} (h : ∀ x ∈ xs, Ensures P Q x) :
    Ensures (fun vs => ∀ v ∈ vs, P v) Q (xs.mapM id) := by
  induction xs with
  | nil => exact .ok (by simp)
  | cons x xs ih =>
    obtain ⟨hx, hxs⟩ := List.forall_mem_cons.mp h
    rw [List.mapM_cons]
    exact hx.bind fun v hv => (ih hxs).bind fun vs hvs =>
      .ok (List.forall_mem_cons.mpr ⟨hv, hvs⟩)

/-- The fields of a record have distinct names, none of which was seen before. -/
theorem collectFields {seen names : List String} {xs : List (Except EvalError Value)}
    (hduplicate : ∀ n, Q (.duplicateMember n)) (h : ∀ x ∈ xs, Ensures P Q x) :
    Ensures (fun fs => (∀ f ∈ fs, P f.2) ∧ (fs.map (·.1)).Nodup ∧ ∀ f ∈ fs, f.1 ∉ seen) Q
      (collectFields seen names xs) := by
  induction xs generalizing seen names with
  | nil =>
    have hnone : QueryChain.collectFields seen names [] = .ok [] := by cases names <;> rfl
    rw [hnone]
    exact .ok (by simp)
  | cons x xs ih =>
    obtain ⟨hx, hxs⟩ := List.forall_mem_cons.mp h
    cases names with
    | nil => exact .ok (by simp)
    | cons n names =>
      rw [QueryChain.collectFields]
      split
      · exact .error (hduplicate n)
      · rename_i hn
        refine hx.bind fun v hv => (ih hxs).bind fun fs hfs => ?_
        obtain ⟨hvalues, hnames⟩ := hfs
        exact .ok ⟨List.forall_mem_cons.mpr ⟨hv, hvalues⟩, fresh_cons_iff.mpr ⟨hn, hnames⟩⟩

/-- A member that is there is a field of the value. -/
theorem read {v : Value} {name : String} (hfield : ∀ w, v.field? name = some w → P w)
    (hnull : Q (.nullReference name)) (hmissing : Q (.missingMember name)) :
    Ensures P Q (v.read name) := by
  unfold Value.read
  split
  · exact .error hnull
  · split
    · exact .ok (hfield _ ‹_›)
    · exact .error hmissing

/-- A conversion gives the value itself, or makes another one of it. -/
theorem convert {v : Value} {k : Kind} (hv : P v) (hmade : ∀ w, v.Converts k w → P w)
    (hinvalid : Q (.invalidConversion v k)) : Ensures P Q (v.convert k) := by
  unfold Value.convert
  split
  · exact .ok hv
  · split
    · exact .ok (hmade _ (Value.convert?_eq_some_iff.mp ‹_›))
    · exact .error hinvalid

end Ensures

/-! ## What operators and builtin functions make -/

/-- Every value that an operator or a builtin function makes has the property of values, and every error
of one has the other. Numbers come out of arithmetic finite, or out of another number by its sign. -/
structure ResultInvariant (P : Value → Prop) (Q : EvalError → Prop) : Prop where
  null : P .null
  bool : ∀ b, P (.bool b)
  int : ∀ n, P (.int n)
  text : ∀ s, P (.text s)
  float : ∀ {x : Float}, x.isFinite → P (.float x)
  neg : ∀ {x : Float}, P (.float x) → P (.float (-x))
  abs : ∀ {x : Float}, P (.float x) → P (.float x.abs)
  mismatch : ∀ operation values, Q (.mismatch operation values)
  overflow : ∀ operation, Q (.overflow operation)
  divisionByZero : Q .divisionByZero
  arity : ∀ f expected found, Q (.arity f expected found)

namespace ResultInvariant

variable (h : ResultInvariant P Q)

include h

theorem orOverflow (operation : String) (n : Option Int64) :
    Ensures P Q (orOverflow operation n) := by
  cases n with
  | none => exact .error (h.overflow _)
  | some n => exact .ok (h.int n)

theorem unary (op : UnaryOp) {v : Value} (hv : P v) : Ensures P Q (op.apply v) := by
  unfold UnaryOp.apply
  split
  · exact .ok h.null
  · exact .ok (h.bool _)
  · exact h.orOverflow _ _
  · exact .ok (h.neg hv)
  · exact .error (h.mismatch _ _)

theorem compareValues (op : BinaryOp) (l r : Value) : Ensures P Q (op.compareValues l r) := by
  unfold BinaryOp.compareValues
  split
  · exact .ok (h.bool _)
  · split
    · exact .ok (h.bool _)
    · exact .error (h.mismatch _ _)

/-- A division by zero is refused before anything else. -/
theorem division {p : Prop} [Decidable p] {x : Except EvalError Value} (hx : Ensures P Q x) :
    Ensures P Q (if p then .error .divisionByZero else x) := by
  split
  · exact .error h.divisionByZero
  · exact hx

theorem onWords (op : BinaryOp) (a b : Int64) : Ensures P Q (op.onWords a b) := by
  cases op with
  | add | sub | mul => exact h.orOverflow _ _
  | div | rem => exact h.division (h.orOverflow _ _)
  | _ => exact .error (h.mismatch _ _)

theorem finiteOr (op : BinaryOp) (x : Float) : Ensures P Q (op.finiteOr x) := by
  unfold BinaryOp.finiteOr
  split
  · exact .ok (h.float ‹_›)
  · exact .error (h.overflow _)

theorem onNumbers (op : BinaryOp) (a b : Float) : Ensures P Q (op.onNumbers a b) := by
  cases op with
  | add | sub | mul => exact h.finiteOr _ _
  | div | rem => exact h.division (h.finiteOr _ _)
  | _ => exact .error (h.mismatch _ _)

theorem arithmetic (op : BinaryOp) (l r : Value) : Ensures P Q (op.arithmetic l r) := by
  unfold BinaryOp.arithmetic
  split
  · exact .ok h.null
  · exact .ok h.null
  · exact h.onWords _ _ _
  · split
    · exact .ok (h.text _)
    · exact .error (h.mismatch _ _)
  · split
    · exact h.onNumbers _ _ _
    · exact .error (h.mismatch _ _)

theorem binary (op : BinaryOp) (l r : Value) : Ensures P Q (op.apply l r) := by
  cases op with
  | eq | ne => exact .ok (h.bool _)
  | lt | le | gt | ge => exact h.compareValues _ _ _
  | _ => exact h.arithmetic _ _ _

theorem onReceiver (f : Builtin) {v : Value} (hv : P v) : Ensures P Q (f.onReceiver v) := by
  unfold Builtin.onReceiver
  split
  · exact h.orOverflow _ _
  · exact h.orOverflow _ _
  · exact .ok (h.text _)
  · exact .ok (h.text _)
  · exact .ok (h.text _)
  · exact h.orOverflow _ _
  · exact .ok (h.abs hv)
  · exact .error (h.mismatch _ _)

theorem onArgument (f : Builtin) (v arg : Value) : Ensures P Q (f.onArgument v arg) := by
  unfold Builtin.onArgument
  split
  · exact .ok (h.bool _)
  · exact .ok (h.bool _)
  · exact .ok (h.bool _)
  · exact .ok (h.bool _)
  · exact .ok (h.text _)
  · exact .error (h.mismatch _ _)

theorem builtin (f : Builtin) {v : Value} (hv : P v) (args : List Value) :
    Ensures P Q (f.apply v args) := by
  unfold Builtin.apply
  split
  · exact h.onReceiver _ hv
  · exact h.onArgument _ _ _
  · exact .error (h.arity _ _ _)

end ResultInvariant

/-! ## What evaluation keeps -/

/-- Every operation on values but a conversion keeps the property of values, and fails with errors of
the other. -/
structure OperationInvariant (P : Value → Prop) (Q : EvalError → Prop) : Prop where
  mismatch : ∀ operation values, Q (.mismatch operation values)
  duplicate : ∀ n, Q (.duplicateMember n)
  nullReference : ∀ n, Q (.nullReference n)
  read : ∀ {v} n, P v → Ensures P Q (v.read n)
  unary : ∀ op {v}, P v → Ensures P Q (UnaryOp.apply op v)
  binary : ∀ op {l r}, P l → P r → Ensures P Q (BinaryOp.apply op l r)
  record : ∀ {fs : List (String × Value)}, (∀ f ∈ fs, P f.2) → (fs.map (·.1)).Nodup → P (.record fs)
  list : ∀ {vs}, (∀ v ∈ vs, P v) → P (.list vs)
  builtin : ∀ f {v args}, P v → (∀ a ∈ args, P a) → Ensures P Q (Builtin.apply f v args)

/-- Every operation on values keeps the property of values, and fails with errors of the other. -/
structure EvalInvariant (P : Value → Prop) (Q : EvalError → Prop) : Prop extends
    OperationInvariant P Q where
  convert : ∀ {v} k, P v → Ensures P Q (v.convert k)

namespace OperationInvariant

variable (h : OperationInvariant P Q)

include h

theorem applyLazily (op : BinaryOp) {l : Value} {right : Except EvalError Value} (hl : P l)
    (hright : Ensures P Q right) : Ensures P Q (op.applyLazily l right) := by
  have hlogical : ∀ op : BinaryOp, Ensures P Q (right >>= op.logicalRight l) := by
    refine fun op => hright.bind fun r hr => ?_
    cases r with
    | bool b => exact .ok hr
    | _ => exact .error (h.mismatch _ _)
  cases op with
  | and =>
    cases l with
    | bool p =>
      cases p with
      | false => exact .ok hl
      | true => exact hlogical .and
    | _ => exact .error (h.mismatch _ _)
  | or =>
    cases l with
    | bool p =>
      cases p with
      | false => exact hlogical .or
      | true => exact .ok hl
    | _ => exact .error (h.mismatch _ _)
  | coalesce =>
    cases l with
    | null => exact hright
    | _ => exact .ok hl
  | _ => exact hright.bind fun r hr => h.binary _ hl hr

theorem choose {v : Value} {ifTrue ifFalse : Except EvalError Value} (htrue : Ensures P Q ifTrue)
    (hfalse : Ensures P Q ifFalse) : Ensures P Q (v.choose ifTrue ifFalse) := by
  unfold Value.choose
  split
  · exact htrue
  · exact hfalse
  · exact .error (h.mismatch _ _)

theorem callBuiltin {m : String} {v : Value} {args : List Value} (hv : P v)
    (hargs : ∀ a ∈ args, P a)
    (hknown : (Builtin.named? m).isSome ∨ ∀ what, Q (.notEvaluable what)) :
    Ensures P Q (callBuiltin m v args) := by
  unfold QueryChain.callBuiltin
  split
  · exact .error (h.nullReference m)
  · split
    · exact h.builtin _ hv hargs
    · rename_i hnone
      rcases hknown with hsome | hdeferred
      · simp [hnone] at hsome
      · exact .error (hdeferred _)

/-- The outcome of a node from those of its children. -/
theorem node {e : Expr} (hroot : EvaluableFilter.allowAll.admits e ∨ ∀ what, Q (.notEvaluable what))
    (hconstant : ∀ v, e = .constant v → P v)
    (hconvert : ∀ x k v, e = .convert x k → x.evaluate = .ok v → P v → Ensures P Q (v.convert k))
    (hparts : ∀ c ∈ e.children, Ensures P Q c.evaluate) : Ensures P Q e.evaluate := by
  have hinner : ∀ x ∈ e.children.map Expr.evaluate, Ensures P Q x := List.forall_mem_map.mpr hparts
  rw [Expr.evaluate_eq]
  cases e with
  | constant v => exact .ok (hconstant v rfl)
  | parameter | source | lambda | quote | invoke =>
    exact .error (hroot.resolve_left (by simp [EvaluableFilter.admits]) _)
  | member t n => exact (hparts t List.mem_cons_self).bind fun v hv => h.read n hv
  | unary op x => exact (hparts x List.mem_cons_self).bind fun v hv => h.unary op hv
  | convert x k =>
    exact (hparts x List.mem_cons_self).bind_of_eq fun v hx hv => hconvert x k v rfl hx hv
  | binary op a b =>
    simp only [Expr.children, List.forall_mem_cons] at hparts
    obtain ⟨ha, hb, -⟩ := hparts
    exact ha.bind fun l hl => h.applyLazily op hl hb
  | conditional t a b =>
    simp only [Expr.children, List.forall_mem_cons] at hparts
    obtain ⟨ht, ha, hb, -⟩ := hparts
    exact ht.bind fun v _ => h.choose ha hb
  | record fs =>
    refine (Ensures.collectFields h.duplicate hinner).bind fun vs hvs => ?_
    exact .ok (h.record hvs.1 hvs.2.1)
  | list xs => exact (Ensures.mapM hinner).bind fun vs hvs => .ok (h.list hvs)
  | call o m r args =>
    obtain ⟨hr, hargs⟩ := List.forall_mem_cons.mp hinner
    rw [Expr.head, Expr.children, List.map_cons, Head.evaluate]
    split
    · refine hr.bind fun v hv => (Ensures.mapM hargs).bind fun vs hvs => ?_
      refine h.callBuiltin hv hvs (hroot.imp_left fun hadmitted => ?_)
      simp only [EvaluableFilter.admits, Bool.and_eq_true, decide_eq_true_eq] at hadmitted
      exact Builtin.mem_known_iff.mp hadmitted.1.2
    · rename_i howner
      exact .error (hroot.resolve_left (by simp [EvaluableFilter.admits, howner]) _)

/-- **What every operation and the conversions of the tree keep, its evaluation keeps.** The constants
of the tree have the property of values; and the tree is evaluable, unless the property of errors allows
for trees that are not. -/
theorem evaluate {e : Expr} (hconstants : ∀ v, Expr.constant v ∈ e.subtrees → P v)
    (hconversions : ∀ x k v, Expr.convert x k ∈ e.subtrees → x.evaluate = .ok v → P v →
      Ensures P Q (v.convert k))
    (hknown : e.isEvaluable .allowAll ∨ ∀ what, Q (.notEvaluable what)) :
    Ensures P Q e.evaluate := by
  induction e using Expr.induction_on_children with
  | node e ih =>
    refine h.node (hknown.imp_left fun hevaluable => (Expr.isEvaluable_iff.mp hevaluable).1) ?_ ?_ ?_
    · rintro v rfl
      exact hconstants v (Expr.self_mem_subtrees _)
    · rintro x k v rfl
      exact hconversions x k v (Expr.self_mem_subtrees _)
    · intro c hc
      have hbelow : ∀ {y}, y ∈ c.subtrees → y ∈ e.subtrees := fun hy =>
        Expr.mem_subtrees.mpr (.inr ⟨c, hc, hy⟩)
      refine ih c hc (fun v hv => hconstants v (hbelow hv))
        (fun x k v hx => hconversions x k v (hbelow hx)) (hknown.imp_left fun hevaluable => ?_)
      exact (Expr.isEvaluable_iff.mp hevaluable).2 c hc

end OperationInvariant

/-- **What every operation keeps, evaluation keeps.** -/
theorem EvalInvariant.evaluate (h : EvalInvariant P Q) {e : Expr}
    (hconstants : ∀ v, Expr.constant v ∈ e.subtrees → P v)
    (hknown : e.isEvaluable .allowAll ∨ ∀ what, Q (.notEvaluable what)) :
    Ensures P Q e.evaluate :=
  h.toOperationInvariant.evaluate hconstants (fun _ k _ _ _ hv => h.convert k hv) hknown

end QueryChain
