import QueryChain.Proofs.Eval.Refinement

/-!
# Trees of integers

A tree of integers, arithmetic, negation and magnitude has an exact value, which is computed here
without bounds. Evaluation computes with words. It ends in the exact value of the tree, and so it has
come through the exact value of every part of it; or it fails at a part that divides by zero, or
whose exact value is no word. No result is ever wrapped around.

## Main definitions

* `Expr.IsInteger`: trees of integers
* `Expr.exactValue?`: the exact value
* `Expr.Reaches`: the part is evaluated along with the tree
* `Expr.DividesByZero`, `Expr.Exceeds`: parts that have no value among the words
* `Expr.Faulty`: the error is that of such a part

## Main results

* `Word.eq_of_tdiv_outOfRange`: the one quotient of two words that is no word
* `BinaryOp.onWords_exact`: arithmetic on two words is exact or fails
* `Expr.IsInteger.evaluate_cases`: so is a tree of integers
* `evaluate_exact`: what an evaluation ends in, and when it has a value
-/

namespace QueryChain

/-! ## Words -/

/-- No word has the value. -/
def Word.OutOfRange (n : Int) : Prop :=
  n < -0x8000000000000000 ∨ 0x8000000000000000 ≤ n

theorem Word.not_outOfRange (w : Int64) : ¬ OutOfRange w.toInt := by
  rintro (h | h)
  · exact absurd (Int64.le_toInt w) (by omega)
  · exact absurd (Int64.toInt_lt w) (by omega)

/-- **The one quotient of two words that is no word.** -/
theorem Word.eq_of_tdiv_outOfRange {a b : Int64} (h : OutOfRange (a.toInt.tdiv b.toInt)) :
    a.toInt = -0x8000000000000000 ∧ b.toInt = -1 := by
  have hlow := Int64.le_toInt a
  have hhigh := Int64.toInt_lt a
  have hquotient : (a.toInt.tdiv b.toInt).natAbs = a.toInt.natAbs / b.toInt.natAbs :=
    Int.natAbs_tdiv a.toInt b.toInt
  -- the magnitude of the quotient is that of the dividend, so the divisor has the magnitude one
  have hdivisor : b.toInt.natAbs = 1 := by
    by_contra hne
    have hhalf : a.toInt.natAbs / b.toInt.natAbs ≤ a.toInt.natAbs / 2 := by
      rcases Nat.eq_zero_or_pos b.toInt.natAbs with hzero | hpos
      · rw [hzero, Nat.div_zero]
        exact Nat.zero_le _
      · exact Nat.div_le_div_left (by omega) (by decide)
    unfold OutOfRange at h
    omega
  have hone : b.toInt = 1 ∨ b.toInt = -1 := by omega
  rcases hone with hone | hone
  · rw [hone, Int.tdiv_one] at h
    exact absurd h (not_outOfRange a)
  · rw [hone, Int.tdiv_neg, Int.tdiv_one] at h
    unfold OutOfRange at h
    exact ⟨by omega, hone⟩

theorem Word.rem?_eq_none {a b : Int64} (ha : a.toInt = -0x8000000000000000)
    (hb : b.toInt = -1) : rem? a b = none := by
  rw [rem?, div?, ha, hb]
  rfl

/-- A result that is checked is exact, or was out of range. -/
theorem orOverflow_fit? (operation : String) (n : Int) :
    (∃ w : Int64, orOverflow operation (fit? n) = .ok (.int w) ∧ w.toInt = n) ∨
      orOverflow operation (fit? n) = .error (.overflow operation) ∧ Word.OutOfRange n := by
  cases hfit : fit? n with
  | none => exact .inr ⟨rfl, fit?_eq_none_iff.mp hfit⟩
  | some w => exact .inl ⟨w, rfl, fit?_eq_some_iff.mp hfit⟩

/-! ## Exact values -/

namespace BinaryOp

/-- The operators of arithmetic. -/
def isArithmetic : BinaryOp → Bool
  | add | sub | mul | div | rem => true
  | _ => false

/-- The exact result on unbounded integers. A quotient is rounded toward zero, and there is none by
zero. -/
def exactValue? (op : BinaryOp) (m n : Int) : Option Int :=
  match op with
  | add => some (m + n)
  | sub => some (m - n)
  | mul => some (m * n)
  | div => if n = 0 then none else some (m.tdiv n)
  | rem => if n = 0 then none else some (m.tmod n)
  | _ => none

end BinaryOp

namespace Expr

/-- Trees of integers: constants, arithmetic, negation and magnitude. -/
inductive IsInteger : Expr → Prop where
  | constant (n : Int64) : IsInteger (.constant (.int n))
  | negate {x : Expr} (operand : IsInteger x) : IsInteger (.unary .negate x)
  | abs {x : Expr} (receiver : IsInteger x) : IsInteger (.call .builtin "abs" x [])
  | arithmetic {op : BinaryOp} {a b : Expr} (operator : op.isArithmetic) (left : IsInteger a)
      (right : IsInteger b) : IsInteger (.binary op a b)

/-- The exact value of a tree of integers, if no divisor is zero. -/
def exactValue? : Expr → Option Int
  | .constant (.int n) => some n.toInt
  | .unary .negate x => x.exactValue?.map fun n => -n
  | .call .builtin "abs" x [] => x.exactValue?.map fun n => n.natAbs
  | .binary op a b => a.exactValue?.bind fun m => b.exactValue?.bind fun n => op.exactValue? m n
  | _ => none

/-- The part is evaluated along with the tree: it is the tree, or it is evaluated along with a child,
and all children before that one have values. -/
inductive Reaches : Expr → Expr → Prop where
  | root (e : Expr) : Reaches e e
  | child {e c s : Expr} {before after : List Expr} (children : e.children = before ++ c :: after)
      (values : ∀ x ∈ before, ∃ v, x.evaluate = .ok v) (inner : Reaches c s) : Reaches e s

theorem Reaches.mem_subtrees {e s : Expr} (h : e.Reaches s) : s ∈ e.subtrees := by
  induction h with
  | root e => exact self_mem_subtrees e
  | @child e c s before after hchildren _ _ ih =>
    refine Expr.mem_subtrees.mpr (.inr ⟨c, ?_, ih⟩)
    simp [hchildren]

/-- A quotient or remainder whose operands are evaluated, and whose divisor is zero. -/
inductive DividesByZero : Expr → Prop where
  | intro {op : BinaryOp} {a b : Expr} {l : Value} (operator : op = .div ∨ op = .rem)
      (left : a.evaluate = .ok l) (right : b.evaluate = .ok (.int 0))
      (exact : b.exactValue? = some 0) : DividesByZero (.binary op a b)

/-- The exact value is no word, or it is the remainder of the one quotient that is none. -/
inductive Exceeds : Expr → Prop where
  | value {e : Expr} {n : Int} (exact : e.exactValue? = some n) (range : Word.OutOfRange n) : Exceeds e
  | remainder {a b : Expr} (left : a.exactValue? = some (-0x8000000000000000))
      (right : b.exactValue? = some (-1)) : Exceeds (.binary .rem a b)

/-- The error is that of a part which is evaluated, and divides by zero or has an exact value that is
no word. -/
inductive Faulty (e : Expr) : EvalError → Prop where
  | divisionByZero {s : Expr} (part : e.Reaches s) (zero : s.DividesByZero) :
      Faulty e .divisionByZero
  | overflow {s : Expr} (operation : String) (part : e.Reaches s) (exceeds : s.Exceeds) :
      Faulty e (.overflow operation)

theorem Faulty.of_child {e c : Expr} {err : EvalError} (h : c.Faulty err) (before : List Expr)
    {after : List Expr} (hchildren : e.children = before ++ c :: after)
    (hvalues : ∀ x ∈ before, ∃ v, x.evaluate = .ok v) : e.Faulty err := by
  cases h with
  | divisionByZero hs hzero => exact .divisionByZero (.child hchildren hvalues hs) hzero
  | overflow operation hs hexceeds =>
    exact .overflow operation (.child hchildren hvalues hs) hexceeds

end Expr

/-! ## Operations on words -/

/-- **Arithmetic on two words** is exact, or its divisor is zero, or its exact result is no word. -/
theorem BinaryOp.onWords_exact {op : BinaryOp} (hop : op.isArithmetic) (a b : Int64) :
    (∃ w : Int64, op.onWords a b = .ok (.int w) ∧ op.exactValue? a.toInt b.toInt = some w.toInt) ∨
      (op.onWords a b = .error .divisionByZero ∧ (op = .div ∨ op = .rem) ∧ b = 0) ∨
      (∃ operation, op.onWords a b = .error (.overflow operation)) ∧
        ((∃ n, op.exactValue? a.toInt b.toInt = some n ∧ Word.OutOfRange n) ∨
          op = .rem ∧ a.toInt = -0x8000000000000000 ∧ b.toInt = -1) := by
  have hchecked : ∀ n, op.exactValue? a.toInt b.toInt = some n →
      op.onWords a b = orOverflow op.symbol (fit? n) →
      (∃ w : Int64, op.onWords a b = .ok (.int w) ∧ op.exactValue? a.toInt b.toInt = some w.toInt) ∨
        (∃ operation, op.onWords a b = .error (.overflow operation)) ∧
          ∃ n, op.exactValue? a.toInt b.toInt = some n ∧ Word.OutOfRange n := by
    intro n hexact hwords
    rw [hwords]
    rcases orOverflow_fit? op.symbol n with ⟨w, hw, rfl⟩ | ⟨herror, hrange⟩
    · exact .inl ⟨w, hw, hexact⟩
    · exact .inr ⟨⟨_, herror⟩, n, hexact, hrange⟩
  have hzero : b = 0 ↔ b.toInt = 0 := by
    rw [← Int64.toInt_inj]
    rfl
  cases op with
  | add | sub | mul =>
    rcases hchecked _ rfl rfl with hok | ⟨herror, hrange⟩
    · exact .inl hok
    · exact .inr (.inr ⟨herror, .inl hrange⟩)
  | div =>
    by_cases hb : b = 0
    · exact .inr (.inl ⟨if_pos hb, .inl rfl, hb⟩)
    · rcases hchecked (a.toInt.tdiv b.toInt) (if_neg (hzero.not.mp hb)) (if_neg hb) with
        hok | ⟨herror, hrange⟩
      · exact .inl hok
      · exact .inr (.inr ⟨herror, .inl hrange⟩)
  | rem =>
    by_cases hb : b = 0
    · exact .inr (.inl ⟨if_pos hb, .inr rfl, hb⟩)
    · have hwords : onWords .rem a b = orOverflow "%" (Word.rem? a b) := if_neg hb
      cases hdiv : Word.div? a b with
      | none =>
        have hnone : Word.rem? a b = none := by rw [Word.rem?, hdiv, Option.bind_none]
        rw [hnone] at hwords
        refine .inr (.inr ⟨⟨_, hwords⟩, .inr ⟨rfl, ?_⟩⟩)
        exact Word.eq_of_tdiv_outOfRange (fit?_eq_none_iff.mp hdiv)
      | some q =>
        have hsome : Word.rem? a b = fit? (a.toInt.tmod b.toInt) := by
          rw [Word.rem?, hdiv, Option.bind_some]
        rw [hsome] at hwords
        rcases hchecked _ (if_neg (hzero.not.mp hb)) hwords with hok | ⟨herror, hrange⟩
        · exact .inl hok
        · exact .inr (.inr ⟨herror, .inl hrange⟩)
  | _ => cases hop

namespace Expr

variable {op : BinaryOp} {e a b x : Expr}

/-! ## Evaluation -/

theorem evaluate_binary_of_left {err : EvalError} (h : a.evaluate = .error err) :
    (binary op a b).evaluate = .error err := by
  rw [evaluate_binary, h]
  rfl

theorem evaluate_arithmetic_of_right (hop : op.isArithmetic) {l : Value} {err : EvalError}
    (ha : a.evaluate = .ok l) (hb : b.evaluate = .error err) :
    (binary op a b).evaluate = .error err := by
  cases op with
  | add | sub | mul | div | rem =>
    rw [evaluate_binary, ha, hb]
    rfl
  | _ => cases hop

theorem evaluate_arithmetic (hop : op.isArithmetic) {m n : Int64}
    (ha : a.evaluate = .ok (.int m)) (hb : b.evaluate = .ok (.int n)) :
    (binary op a b).evaluate = op.onWords m n := by
  cases op with
  | add | sub | mul | div | rem =>
    rw [evaluate_binary, ha, hb]
    rfl
  | _ => cases hop

theorem evaluate_negate {n : Int64} (h : x.evaluate = .ok (.int n)) :
    (unary .negate x).evaluate = orOverflow "-" (Word.neg? n) := by
  rw [evaluate_unary, h]
  rfl

theorem evaluate_abs {n : Int64} (h : x.evaluate = .ok (.int n)) :
    (call .builtin "abs" x []).evaluate = orOverflow "abs" (Word.abs? n) := by
  rw [evaluate, if_pos rfl, h, evaluateItems]
  rfl

/-- **A tree of integers** evaluates to its exact value, or fails at a part that has none among the
words. -/
theorem IsInteger.evaluate_cases (h : e.IsInteger) :
    (∃ n : Int64, e.evaluate = .ok (.int n) ∧ e.exactValue? = some n.toInt) ∨
      ∃ err, e.evaluate = .error err ∧ e.Faulty err := by
  have hroot : ∀ (e : Expr) (operation : String) (n : Int), e.exactValue? = some n →
      e.evaluate = orOverflow operation (fit? n) →
      (∃ n : Int64, e.evaluate = .ok (.int n) ∧ e.exactValue? = some n.toInt) ∨
        ∃ err, e.evaluate = .error err ∧ e.Faulty err := by
    intro e operation n hexact hvalue
    rw [hvalue]
    rcases orOverflow_fit? operation n with ⟨w, hw, rfl⟩ | ⟨herror, hrange⟩
    · exact .inl ⟨w, hw, hexact⟩
    · exact .inr ⟨_, herror, .overflow operation (.root e) (.value hexact hrange)⟩
  induction h with
  | constant n => exact .inl ⟨n, rfl, rfl⟩
  | @negate x _ ih =>
    rcases ih with ⟨n, hn, hexact⟩ | ⟨err, herr, hfaulty⟩
    · exact hroot _ _ _ (by rw [exactValue?, hexact]; rfl) (evaluate_negate hn)
    · refine .inr ⟨err, ?_, hfaulty.of_child [] rfl nofun⟩
      rw [evaluate_unary, herr]
      rfl
  | @abs x _ ih =>
    rcases ih with ⟨n, hn, hexact⟩ | ⟨err, herr, hfaulty⟩
    · exact hroot _ _ _ (by rw [exactValue?, hexact]; rfl) (evaluate_abs hn)
    · refine .inr ⟨err, ?_, hfaulty.of_child [] rfl nofun⟩
      rw [evaluate_builtin, herr]
      rfl
  | @arithmetic op a b hop _ _ iha ihb =>
    rcases iha with ⟨m, hm, hma⟩ | ⟨err, herr, hfaulty⟩
    · rcases ihb with ⟨n, hn, hnb⟩ | ⟨err, herr, hfaulty⟩
      · have hexact : (binary op a b).exactValue? = op.exactValue? m.toInt n.toInt := by
          rw [exactValue?, hma, hnb]
          rfl
        rw [evaluate_arithmetic hop hm hn, hexact]
        rcases BinaryOp.onWords_exact hop m n with
          hok | ⟨herror, hdivides, rfl⟩ | ⟨⟨operation, herror⟩, hcause⟩
        · exact .inl hok
        · exact .inr ⟨_, herror, .divisionByZero (.root _) ⟨hdivides, hm, hn, hnb⟩⟩
        · refine .inr ⟨_, herror, .overflow operation (.root _) ?_⟩
          rcases hcause with ⟨k, hk, hrange⟩ | ⟨rfl, hleft, hright⟩
          · exact .value (hexact.trans hk) hrange
          · exact .remainder (hleft ▸ hma) (hright ▸ hnb)
      · refine .inr ⟨err, evaluate_arithmetic_of_right hop hm herr, ?_⟩
        exact hfaulty.of_child [a] rfl (List.forall_mem_singleton.mpr ⟨_, hm⟩)
    · refine .inr ⟨err, evaluate_binary_of_left herr, ?_⟩
      exact hfaulty.of_child [] rfl nofun

theorem IsInteger.subtree (h : e.IsInteger) {s : Expr} (hs : s ∈ e.subtrees) : s.IsInteger := by
  induction h with
  | constant n =>
    rcases mem_subtrees.mp hs with rfl | ⟨c, hc, -⟩
    · exact .constant n
    · cases hc
  | negate hx ih | abs hx ih =>
    rcases mem_subtrees.mp hs with rfl | ⟨c, hc, hinner⟩
    · constructor
      exact hx
    · obtain rfl := List.mem_singleton.mp hc
      exact ih hinner
  | arithmetic hop ha hb iha ihb =>
    rcases mem_subtrees.mp hs with rfl | ⟨c, hc, hinner⟩
    · exact .arithmetic hop ha hb
    · rcases List.mem_pair.mp hc with rfl | rfl
      · exact iha hinner
      · exact ihb hinner

/-- All operands are evaluated: if a child fails, so does the tree. -/
theorem IsInteger.evaluate_child (h : e.IsInteger) {v : Value} (hv : e.evaluate = .ok v)
    {c : Expr} (hc : c ∈ e.children) : ∃ w, c.evaluate = .ok w := by
  cases hvalue : c.evaluate with
  | ok w => exact ⟨w, rfl⟩
  | error err =>
    cases h with
    | constant n => cases hc
    | negate hx =>
      obtain rfl := List.mem_singleton.mp hc
      rw [evaluate_unary, hvalue] at hv
      cases hv
    | abs hx =>
      obtain rfl := List.mem_singleton.mp hc
      rw [evaluate_builtin, hvalue] at hv
      cases hv
    | @arithmetic op a b hop ha hb =>
      rcases List.mem_pair.mp hc with rfl | rfl
      · rw [evaluate_binary_of_left hvalue] at hv
        cases hv
      · rcases ha.evaluate_cases with ⟨m, hm, -⟩ | ⟨err, herr, -⟩
        · rw [evaluate_arithmetic_of_right hop hm hvalue] at hv
          cases hv
        · rw [evaluate_binary_of_left herr] at hv
          cases hv

/-- **No intermediate result is wrapped around:** on the way to a value, every part is evaluated to
its exact value. -/
theorem IsInteger.evaluate_subtree (h : e.IsInteger) {v : Value} (hv : e.evaluate = .ok v)
    {s : Expr} (hs : s ∈ e.subtrees) :
    ∃ n : Int64, s.evaluate = .ok (.int n) ∧ s.exactValue? = some n.toInt := by
  induction e using induction_on_children generalizing v with
  | node e ih =>
    rcases mem_subtrees.mp hs with rfl | ⟨c, hc, hs⟩
    · rcases h.evaluate_cases with hexact | ⟨err, herr, -⟩
      · exact hexact
      · cases herr.symm.trans hv
    · obtain ⟨w, hw⟩ := h.evaluate_child hv hc
      exact ih c hc (h.subtree (mem_subtrees.mpr (.inr ⟨c, hc, self_mem_subtrees c⟩))) hw hs

/-- A tree that has a value neither divides by zero nor exceeds the words. -/
theorem IsInteger.not_fault (h : e.IsInteger) {v : Value} (hv : e.evaluate = .ok v) :
    ¬ e.DividesByZero ∧ ¬ e.Exceeds := by
  obtain ⟨n, hn, hexact⟩ := h.evaluate_subtree hv (self_mem_subtrees e)
  refine ⟨?_, ?_⟩
  · rintro ⟨hop, -, -, hzero⟩
    rw [exactValue?, hzero] at hexact
    obtain ⟨m, -, hm⟩ := Option.bind_eq_some_iff.mp hexact
    rcases hop with rfl | rfl
    · cases hm
    · cases hm
  · rintro (⟨hother, hrange⟩ | @⟨a, b, hleft, hright⟩)
    · cases hexact.symm.trans hother
      exact Word.not_outOfRange n hrange
    · have hpart : ∀ c ∈ (binary .rem a b).children, c ∈ (binary .rem a b).subtrees :=
        fun c hc => mem_subtrees.mpr (.inr ⟨c, hc, self_mem_subtrees c⟩)
      obtain ⟨l, hl, hlexact⟩ := h.evaluate_subtree hv (hpart a List.mem_cons_self)
      obtain ⟨r, hr, hrexact⟩ :=
        h.evaluate_subtree hv (hpart b (List.mem_cons_of_mem a List.mem_cons_self))
      have hnone : Word.rem? l r = none :=
        Word.rem?_eq_none (Option.some.inj (hlexact.symm.trans hleft))
          (Option.some.inj (hrexact.symm.trans hright))
      rw [evaluate_arithmetic rfl hl hr, BinaryOp.onWords, hnone] at hn
      split at hn
      · cases hn
      · cases hn

end Expr

/-- **Integer evaluation is exact or fails.** If a tree of integers evaluates to a value, it is the
exact value of the tree, and every part of the tree was evaluated to its own exact value. If it fails,
it is for a division by zero or an overflow: a part that was evaluated divides by zero, or the exact
value of a part is no word or is the remainder of the one quotient that is none. There is a value iff
there is no such part. -/
theorem evaluate_exact {e : Expr} (h : e.IsInteger) :
    (∀ v, e.evaluate = .ok v → ∃ n : Int64, v = .int n ∧ e.exactValue? = some n.toInt) ∧
    (∀ v, e.evaluate = .ok v → ∀ s ∈ e.subtrees,
      ∃ n : Int64, s.evaluate = .ok (.int n) ∧ s.exactValue? = some n.toInt) ∧
    (e.evaluate = .error .divisionByZero →
      ∃ s ∈ e.subtrees, e.Reaches s ∧ s.DividesByZero) ∧
    (∀ operation, e.evaluate = .error (.overflow operation) → ∃ s ∈ e.subtrees, s.Exceeds) ∧
    (∀ err, e.evaluate = .error err →
      err = .divisionByZero ∨ ∃ operation, err = .overflow operation) ∧
    ((∃ v, e.evaluate = .ok v) ↔ ∀ s ∈ e.subtrees, ¬ s.DividesByZero ∧ ¬ s.Exceeds) := by
  have hfaulty : ∀ err, e.evaluate = .error err → e.Faulty err := by
    intro err herr
    rcases h.evaluate_cases with ⟨n, hn, -⟩ | ⟨err', herr', hfaulty⟩
    · cases hn.symm.trans herr
    · cases herr'.symm.trans herr
      exact hfaulty
  refine ⟨fun v hv => ?_, fun v hv s hs => h.evaluate_subtree hv hs, fun hzero => ?_,
    fun operation hoverflow => ?_, fun err herr => ?_, ?_⟩
  · obtain ⟨n, hn, hexact⟩ := h.evaluate_subtree hv (Expr.self_mem_subtrees e)
    cases hv.symm.trans hn
    exact ⟨n, rfl, hexact⟩
  · cases hfaulty _ hzero with
    | divisionByZero hs hdivides => exact ⟨_, hs.mem_subtrees, hs, hdivides⟩
  · cases hfaulty _ hoverflow with
    | overflow _ hs hexceeds => exact ⟨_, hs.mem_subtrees, hexceeds⟩
  · cases hfaulty err herr with
    | divisionByZero => exact .inl rfl
    | overflow operation => exact .inr ⟨operation, rfl⟩
  · constructor
    · rintro ⟨v, hv⟩ s hs
      obtain ⟨n, hn, -⟩ := h.evaluate_subtree hv hs
      exact (h.subtree hs).not_fault hn
    · intro hnone
      rcases h.evaluate_cases with ⟨n, hn, -⟩ | ⟨err, -, hfault⟩
      · exact ⟨_, hn⟩
      · cases hfault with
        | divisionByZero hs hdivides => exact absurd hdivides (hnone _ hs.mem_subtrees).1
        | overflow _ hs hexceeds => exact absurd hexceeds (hnone _ hs.mem_subtrees).2

/-- `abs(-9223372036854775807 - 1) / (7 % 7)`. -/
def leastMagnitude : Expr :=
  .binary .div
    (.call .builtin "abs" (.binary .sub (.unary .negate (.constant (.int 9223372036854775807)))
      (.constant (.int 1))) [])
    (.binary .rem (.constant (.int 7)) (.constant (.int 7)))

/-- The least word has no magnitude among the words, and that is found out before the divisor is. -/
theorem evaluate_exact_leastMagnitude :
    leastMagnitude.IsInteger ∧ leastMagnitude.evaluate = .error (.overflow "abs") ∧
      ∃ s ∈ leastMagnitude.subtrees, s.Exceeds := by
  have hinteger : leastMagnitude.IsInteger :=
    .arithmetic rfl (.abs (.arithmetic rfl (.negate (.constant _)) (.constant _)))
      (.arithmetic rfl (.constant _) (.constant _))
  have hvalue : leastMagnitude.evaluate = .error (.overflow "abs") := rfl
  exact ⟨hinteger, hvalue, (evaluate_exact hinteger).2.2.2.1 "abs" hvalue⟩

end QueryChain
