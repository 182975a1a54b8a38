import QueryChain.Eval.Evaluable
import QueryChain.Proofs.Expr.Nodes

/-!
# Refinement of evaluation

One tree keeps the outcome of another if it evaluates to the same value under every assignment of
values to free names. The stronger form also keeps what kind of error the evaluation ends in. Both are
congruences, since the outcome of a node depends on its head and on its children's outcomes alone.

## Main definitions

* `Head.evaluate`: the outcome of a node from those of its children
* `EvalError.variant`: an error without its payload
* `Expr.assign`: a tree with constants for free names
* `Keeps`, `Expr.Keeps`: one outcome, and one tree, stands for another

## Main results

* `Expr.evaluate_eq`: the outcome of a node from its head and its children
* `Expr.evaluate_assign`: the same under an assignment
* `Head.evaluate_keeps`: outcomes of the children that are kept make an outcome that is kept
* `Expr.keeps_isCongruence`: keeping outcomes is a congruence
-/

namespace QueryChain

/-! ## The outcome of a node -/

/-- The operator on an evaluated left operand. The right one counts only if the left one does not
decide. -/
def BinaryOp.applyLazily (op : BinaryOp) (l : Value) (right : Except EvalError Value) :
    Except EvalError Value :=
  match op with
  | .and | .or =>
    match l with
    | .bool p => if op.decides p then .ok (.bool p) else right >>= op.logicalRight l
    | _ => .error (.mismatch op.symbol [l])
  | .coalesce => if l.isNull then right else .ok l
  | _ => right >>= op.apply l

/-- The branch of a conditional that its test chooses. -/
def Value.choose (v : Value) (ifTrue ifFalse : Except EvalError Value) : Except EvalError Value :=
  match v with
  | .bool true => ifTrue
  | .bool false => ifFalse
  | _ => .error (.mismatch "?:" [v])

/-- The fields of a record from their names and outcomes. -/
def collectFields (seen : List String) :
    List String → List (Except EvalError Value) → Except EvalError (List (String × Value))
  | n :: ns, x :: xs =>
    if n ∈ seen then .error (.duplicateMember n)
    else x >>= fun v => collectFields (n :: seen) ns xs >>= fun vs => pure ((n, v) :: vs)
  | _, _ => .ok []

/-- The outcome of a node from those of its children, of which there are as many as the node has. -/
def Head.evaluate (h : Head) (inner : List (Except EvalError Value)) : Except EvalError Value :=
  match h, inner with
  | constant v, _ => .ok v
  | parameter n, _ => .error (.notEvaluable (.parameter n))
  | source n, _ => .error (.notEvaluable (.source n))
  | lambda _, _ => .error (.notEvaluable .lambda)
  | quote, _ => .error (.notEvaluable .lambda)
  | invoke, _ => .error (.notEvaluable .invocation)
  | member n, [x] => x >>= fun v => v.read n
  | unary op, [x] => x >>= op.apply
  | binary op, [x, y] => x >>= fun l => op.applyLazily l y
  | conditional, [t, x, y] => t >>= fun v => v.choose x y
  | convert k, [x] => x >>= fun v => v.convert k
  | record names, xs => collectFields [] names xs >>= fun vs => pure (.record vs)
  | list, xs => xs.mapM id >>= fun vs => pure (.list vs)
  | call o m, x :: xs =>
    if o = .builtin then x >>= fun v => xs.mapM id >>= callBuiltin m v
    else .error (.notEvaluable (.call o m))
  | _, _ => .ok .null

namespace Expr

theorem evaluateItems_eq (xs : List Expr) : evaluateItems xs = (xs.map evaluate).mapM id := by
  induction xs with
  | nil => rfl
  | cons x xs ih =>
    rw [evaluateItems, ih, List.map_cons, List.mapM_cons, id_eq]
    cases x.evaluate with
    | error err => rfl
    | ok v => cases (xs.map evaluate).mapM id <;> rfl

theorem evaluateFields_eq (seen : List String) (fs : List (String × Expr)) :
    evaluateFields seen fs =
      collectFields seen (fs.map (·.1)) ((fs.map (·.2)).map evaluate) := by
  induction fs generalizing seen with
  | nil => rfl
  | cons f fs ih =>
    rw [evaluateFields, ih, List.map_cons, List.map_cons, List.map_cons, collectFields]
    split
    · rfl
    · cases f.2.evaluate with
      | error err => rfl
      | ok v =>
        cases collectFields (f.1 :: seen) (fs.map (·.1)) ((fs.map (·.2)).map evaluate) <;> rfl

/-- **The outcome of a node** depends on its head and on its children's outcomes. -/
theorem evaluate_eq (e : Expr) : e.evaluate = e.head.evaluate (e.children.map evaluate) := by
  -- at each head the right side is named first; the two then agree for each outcome of a child
  cases e with
  | constant _ | parameter _ | source _ | lambda _ _ | quote _ | invoke _ _ => rfl
  | member t n =>
    rw [evaluate]
    change _ = (t.evaluate >>= fun v => v.read n)
    cases t.evaluate <;> rfl
  | unary op x =>
    rw [evaluate]
    change _ = (x.evaluate >>= op.apply)
    cases x.evaluate <;> rfl
  | convert x k =>
    rw [evaluate]
    change _ = (x.evaluate >>= fun v => v.convert k)
    cases x.evaluate <;> rfl
  | binary op a b =>
    rw [evaluate]
    change _ = (a.evaluate >>= fun l => op.applyLazily l b.evaluate)
    cases a.evaluate with
    | error err => rfl
    | ok l =>
      change _ = op.applyLazily l b.evaluate
      cases op with
      | and | or =>
        cases l with
        | bool p => cases p <;> cases b.evaluate <;> rfl
        | _ => rfl
      | coalesce => rfl
      | _ => cases b.evaluate <;> rfl
  | conditional t a b =>
    rw [evaluate]
    change _ = (t.evaluate >>= fun v => v.choose a.evaluate b.evaluate)
    cases t.evaluate with
    | error err => rfl
    | ok v =>
      cases v with
      | bool p => cases p <;> rfl
      | _ => rfl
  | record fs =>
    rw [evaluate, evaluateFields_eq]
    change _ = (collectFields [] (fs.map (·.1)) ((fs.map (·.2)).map evaluate) >>= fun vs =>
      pure (Value.record vs))
    cases collectFields [] (fs.map (·.1)) ((fs.map (·.2)).map evaluate) <;> rfl
  | list xs =>
    rw [evaluate, evaluateItems_eq]
    change _ = ((xs.map evaluate).mapM id >>= fun vs => pure (Value.list vs))
    cases (xs.map evaluate).mapM id <;> rfl
  | call o m r as =>
    rw [evaluate, evaluateItems_eq]
    change _ = if o = .builtin then
        r.evaluate >>= fun v => (as.map evaluate).mapM id >>= callBuiltin m v
      else .error (.notEvaluable (.call o m))
    congr 1
    cases r.evaluate with
    | error err => rfl
    | ok v => cases (as.map evaluate).mapM id <;> rfl

theorem evaluate_unary (op : UnaryOp) (x : Expr) :
    (unary op x).evaluate = x.evaluate >>= op.apply :=
  evaluate_eq _

theorem evaluate_binary (op : BinaryOp) (a b : Expr) :
    (binary op a b).evaluate = a.evaluate >>= fun l => op.applyLazily l b.evaluate :=
  evaluate_eq _

theorem evaluate_builtin (m : String) (x : Expr) (xs : List Expr) :
    (call .builtin m x xs).evaluate =
      x.evaluate >>= fun v => (xs.map evaluate).mapM id >>= callBuiltin m v :=
  evaluate_eq _

/-! ## Assignments -/

/-- The tree with constants for the free occurrences of names, one name after the other. -/
def assign (values : List (String × Value)) (e : Expr) : Expr :=
  values.foldl (fun e p => e.substitute p.1 (constant p.2)) e

/-- A substitution keeps every head but that of a free name. -/
theorem head_substitute {e : Expr} (h : ∀ n, e.head ≠ .parameter n) (name : String) (r : Expr) :
    (e.substitute name r).head = e.head := by
  have hlen : (e.children.map (·.substitute name r)).length = e.children.length := by simp
  rw [substitute_eq]
  unfold substituteStep
  split
  · exact absurd rfl (h _)
  · split
    · rfl
    · exact head_withChildren _ hlen
  · exact head_withChildren _ hlen

/-- A substitution acts on the children, except for a lambda that binds the name. -/
theorem children_substitute {e : Expr} (hp : ∀ n, e.head ≠ .parameter n)
    (hl : ∀ ps, e.head ≠ .lambda ps) (name : String) (r : Expr) :
    (e.substitute name r).children = e.children.map (·.substitute name r) := by
  have hlen : (e.children.map (·.substitute name r)).length = e.children.length := by simp
  rw [substitute_eq]
  unfold substituteStep
  split
  · exact absurd rfl (hp _)
  · exact absurd rfl (hl _)
  · exact children_withChildren _ hlen

theorem head_assign {e : Expr} (h : ∀ n, e.head ≠ .parameter n) (values : List (String × Value)) :
    (e.assign values).head = e.head := by
  induction values generalizing e with
  | nil => rfl
  | cons p values ih =>
    have hhead := head_substitute h p.1 (constant p.2)
    exact (ih (hhead ▸ h)).trans hhead

theorem children_assign {e : Expr} (hp : ∀ n, e.head ≠ .parameter n)
    (hl : ∀ ps, e.head ≠ .lambda ps) (values : List (String × Value)) :
    (e.assign values).children = e.children.map (assign values) := by
  induction values generalizing e with
  | nil => exact (List.map_id _).symm
  | cons p values ih =>
    have hhead := head_substitute hp p.1 (constant p.2)
    refine (ih (hhead ▸ hp) (hhead ▸ hl)).trans ?_
    rw [children_substitute hp hl, List.map_map]
    rfl

/-- The outcome of a node under an assignment, from those of its children. -/
theorem evaluate_assign {e : Expr} (h : ∀ n, e.head ≠ .parameter n)
    (values : List (String × Value)) :
    (e.assign values).evaluate =
      e.head.evaluate (e.children.map fun c => (c.assign values).evaluate) := by
  rw [evaluate_eq, head_assign h]
  by_cases hl : ∃ ps, e.head = .lambda ps
  · obtain ⟨ps, hl⟩ := hl
    rw [hl]
    rfl
  · rw [children_assign h (fun ps hps => hl ⟨ps, hps⟩), List.map_map]
    rfl

/-- An assignment has nothing to replace in an evaluable tree. -/
theorem assign_of_isEvaluable {filter : EvaluableFilter} {e : Expr} (h : e.isEvaluable filter)
    (values : List (String × Value)) : e.assign values = e := by
  induction e using induction_on_children with
  | node e ih =>
    rw [isEvaluable_eq, Bool.and_eq_true, List.all_eq_true] at h
    have hp : ∀ n, e.head ≠ .parameter n := by
      rintro n hn
      cases e <;> cases hn
      exact absurd h.1 (by simp [EvaluableFilter.admits])
    have hl : ∀ ps, e.head ≠ .lambda ps := by
      rintro ps hps
      cases e <;> cases hps
      exact absurd h.1 (by simp [EvaluableFilter.admits])
    refine ext_head (head_assign hp values) ?_
    rw [children_assign hp hl, List.map_congr_left fun c hc => ih c hc (h.2 c hc), List.map_id']

end Expr

/-! ## Outcomes that are kept -/

/-- An error without its payload. -/
inductive EvalError.Variant where
  | overflow
  | divisionByZero
  | nullReference
  | missingMember
  | duplicateMember
  | typeMismatch
  | invalidConversion
  | arity
  | notEvaluable
deriving DecidableEq, Repr

/-- The error without its payload. -/
def EvalError.variant : EvalError → EvalError.Variant
  | overflow _ => .overflow
  | divisionByZero => .divisionByZero
  | nullReference _ => .nullReference
  | missingMember _ => .missingMember
  | duplicateMember _ => .duplicateMember
  | typeMismatch _ _ => .typeMismatch
  | invalidConversion _ _ => .invalidConversion
  | arity _ _ _ => .arity
  | notEvaluable _ => .notEvaluable

/-- The second outcome stands for the first: a value is kept, and an error is kept up to its payload.
Unless `errors` count, anything stands for an error. -/
inductive Keeps {α : Type} (errors : Prop) :
    Except EvalError α → Except EvalError α → Prop where
  | value (v : α) : Keeps errors (.ok v) (.ok v)
  | error {k k' : EvalError} (h : k'.variant = k.variant) : Keeps errors (.error k) (.error k')
  | dropped {k : EvalError} {y : Except EvalError α} (h : ¬ errors) : Keeps errors (.error k) y

namespace Keeps

variable {α β : Type} {errors : Prop}

theorem refl (x : Except EvalError α) : Keeps errors x x := by
  cases x with
  | ok v => exact value v
  | error k => exact error rfl

theorem trans {x y z : Except EvalError α} (hxy : Keeps errors x y) (hyz : Keeps errors y z) :
    Keeps errors x z := by
  cases hxy with
  | value v => exact hyz
  | dropped h => exact dropped h
  | error h =>
    cases hyz with
    | error h' => exact error (h'.trans h)
    | dropped h' => exact dropped h'

theorem eq_ok {x y : Except EvalError α} (h : Keeps errors x y) {v : α} (hx : x = .ok v) :
    y = .ok v := by
  subst hx
  cases h
  rfl

theorem eq_error {x y : Except EvalError α} (h : Keeps errors x y) (herrors : errors)
    {k : EvalError} (hx : x = .error k) : ∃ k', y = .error k' ∧ k'.variant = k.variant := by
  subst hx
  cases h with
  | error h => exact ⟨_, rfl, h⟩
  | dropped h => exact absurd herrors h

theorem bind {x y : Except EvalError α} {f g : α → Except EvalError β} (h : Keeps errors x y)
    (hfg : ∀ v, Keeps errors (f v) (g v)) : Keeps errors (x >>= f) (y >>= g) := by
  cases h with
  | value v => exact hfg v
  | error h => exact error h
  | dropped h => exact dropped h

theorem mapM {xs ys : List (Except EvalError α)} (h : List.Forall₂ (Keeps errors) xs ys) :
    Keeps errors (xs.mapM id) (ys.mapM id) := by
  induction h with
  | nil => exact refl _
  | cons hx _ ih =>
    rw [List.mapM_cons, List.mapM_cons]
    exact hx.bind fun v => ih.bind fun vs => refl _

theorem collectFields {seen names : List String} {xs ys : List (Except EvalError Value)}
    (h : List.Forall₂ (Keeps errors) xs ys) :
    Keeps errors (collectFields seen names xs) (collectFields seen names ys) := by
  induction h generalizing seen names with
  | nil => exact refl _
  | cons hx _ ih =>
    cases names with
    | nil => exact refl _
    | cons n names =>
      rw [QueryChain.collectFields, QueryChain.collectFields]
      split
      · exact refl _
      · exact hx.bind fun v => ih.bind fun vs => refl _

theorem applyLazily {x y : Except EvalError Value} (op : BinaryOp) (l : Value)
    (h : Keeps errors x y) : Keeps errors (op.applyLazily l x) (op.applyLazily l y) := by
  have hright : ∀ f : Value → Except EvalError Value, Keeps errors (x >>= f) (y >>= f) :=
    fun f => h.bind fun r => refl (f r)
  cases op with
  | and =>
    cases l with
    | bool p =>
      cases p with
      | false => exact refl _
      | true => exact hright _
    | _ => exact refl _
  | or =>
    cases l with
    | bool p =>
      cases p with
      | false => exact hright _
      | true => exact refl _
    | _ => exact refl _
  | coalesce =>
    cases l with
    | null => exact h
    | _ => exact refl _
  | _ => exact hright _

theorem choose {x y x' y' : Except EvalError Value} (v : Value) (hx : Keeps errors x x')
    (hy : Keeps errors y y') : Keeps errors (v.choose x y) (v.choose x' y') := by
  unfold Value.choose
  split
  · exact hx
  · exact hy
  · exact refl _

end Keeps

/-- Children whose outcomes are kept make a node whose outcome is kept. -/
theorem Head.evaluate_keeps {errors : Prop} (h : Head) {xs ys : List (Except EvalError Value)}
    (hxy : List.Forall₂ (Keeps errors) xs ys) : Keeps errors (h.evaluate xs) (h.evaluate ys) := by
  -- a number of children that does not belong to the head makes the same outcome on both sides
  cases h with
  | constant _ | parameter _ | source _ | lambda _ | quote | invoke => exact .refl _
  | record names => exact (Keeps.collectFields hxy).bind fun vs => .refl _
  | list => exact (Keeps.mapM hxy).bind fun vs => .refl _
  | member _ | unary _ | convert _ =>
    rcases hxy with _ | ⟨hx, _ | _⟩
    · exact .refl _
    · exact hx.bind fun v => .refl _
    · exact .refl _
  | binary op =>
    rcases hxy with _ | ⟨hx, _ | ⟨hy, _ | _⟩⟩
    · exact .refl _
    · exact .refl _
    · exact hx.bind fun l => hy.applyLazily op l
    · exact .refl _
  | conditional =>
    rcases hxy with _ | ⟨ht, _ | ⟨hx, _ | ⟨hy, _ | _⟩⟩⟩
    · exact .refl _
    · exact .refl _
    · exact .refl _
    · exact ht.bind fun v => hx.choose v hy
    · exact .refl _
  | call o m =>
    rcases hxy with _ | ⟨hx, hxs⟩
    · exact .refl _
    · rw [evaluate, evaluate]
      split
      · exact hx.bind fun v => (Keeps.mapM hxs).bind fun vs => .refl _
      · exact .refl _

/-- The second tree stands for the first: under every assignment its outcome does. -/
def Expr.Keeps (errors : Prop) (a b : Expr) : Prop :=
  ∀ values, QueryChain.Keeps errors (a.assign values).evaluate (b.assign values).evaluate

/-- **Keeping outcomes is a congruence.** A free name has no children, and every other node has the
outcome that its head makes of its children's. -/
theorem Expr.keeps_isCongruence (errors : Prop) : IsCongruence (Expr.Keeps errors) where
  refl e values := .refl _
  trans hab hbc values := (hab values).trans (hbc values)
  node e cs hcs values := by
    have hlen : cs.length = e.children.length := hcs.length_eq.symm
    by_cases hp : ∃ n, e.head = .parameter n
    · obtain ⟨n, hn⟩ := hp
      cases e <;> cases hn
      cases hcs
      exact .refl _
    · have he : ∀ n, e.head ≠ .parameter n := fun n hn => hp ⟨n, hn⟩
      have hhead := head_withChildren e hlen
      rw [evaluate_assign he, evaluate_assign (hhead ▸ he), hhead, children_withChildren e hlen]
      refine Head.evaluate_keeps _ ?_
      rw [List.forall₂_map_left_iff, List.forall₂_map_right_iff]
      exact hcs.imp fun _ _ h => h values

end QueryChain
