import QueryChain.Proofs.Codec.RoundTrip
import QueryChain.Proofs.Eval.Invariant
import QueryChain.Proofs.Number.Finite

/-!
# Evaluation with finite numbers

Arithmetic ends in an overflow where its result would not be finite, and every other operation leads
from finite numbers to finite numbers, with one exception. A text can be read as a number that is
infinite, because it is too large or is named so, or as the undefined number; and no check follows. A
tree of finite numbers has a part with another number exactly if it holds such a conversion.

## Main definitions

* `EndsFinite`: a computation fails, or ends in a value of finite numbers
* `Expr.ReadsUnbounded`: a conversion of the tree reads a number that is not finite

## Main results

* `finite_invariant`: operations lead from finite numbers to finite numbers
* `Value.convert_endsFinite`: so do conversions, unless they read another number
* `Expr.evaluate_isFinite`, `Expr.exists_subtree_not_isFinite_iff`: the values of a tree of finite
  numbers and of its parts
-/

namespace QueryChain

/-! ## Values -/

namespace Value

theorem itemsFinite_iff {vs : List Value} : itemsFinite vs ↔ ∀ v ∈ vs, v.isFinite := by
  induction vs with
  | nil => simp [itemsFinite]
  | cons v vs ih => simp [itemsFinite, ih]

theorem fieldsFinite_iff {fs : List (String × Value)} : fieldsFinite fs ↔ ∀ f ∈ fs, f.2.isFinite := by
  induction fs with
  | nil => simp [fieldsFinite]
  | cons f fs ih => simp [fieldsFinite, ih]

theorem isFinite_of_field? {v w : Value} {name : String} (hv : v.isFinite)
    (h : v.field? name = some w) : w.isFinite := by
  cases v with
  | record fields =>
    obtain ⟨f, hf, rfl⟩ := Option.map_eq_some_iff.mp h
    rw [isFinite, fieldsFinite_iff] at hv
    exact hv f (List.mem_of_find?_eq_some hf)
  | _ => cases h

end Value

/-! ## Operations -/

/-- The computation fails, or ends in a value whose numbers are finite. -/
def EndsFinite (x : Except EvalError Value) : Prop :=
  Ensures (fun v : Value => v.isFinite = true) (fun _ => True) x

theorem EndsFinite.isFinite {x : Except EvalError Value} (h : EndsFinite x) {v : Value}
    (hv : x = .ok v) : v.isFinite :=
  h.of_eq_ok hv

theorem Value.read_endsFinite {v : Value} (hv : v.isFinite) (name : String) :
    EndsFinite (v.read name) :=
  .read (fun _ hw => isFinite_of_field? hv hw) trivial trivial

theorem finite_results :
    ResultInvariant (fun v : Value => v.isFinite = true) (fun _ : EvalError => True) where
  null := rfl
  bool _ := rfl
  int _ := rfl
  text _ := rfl
  float hx := hx
  neg hx := (Binary.isFinite_neg _).trans hx
  abs hx := (Binary.isFinite_abs _).trans hx
  mismatch _ _ := trivial
  overflow _ := trivial
  divisionByZero := trivial
  arity _ _ _ := trivial

/-- **Operations lead from finite numbers to finite numbers.** Conversions are not among them. -/
theorem finite_invariant :
    OperationInvariant (fun v : Value => v.isFinite = true) (fun _ : EvalError => True) where
  mismatch _ _ := trivial
  duplicate _ := trivial
  nullReference _ := trivial
  read n hv := Value.read_endsFinite hv n
  unary op _ hv := finite_results.unary op hv
  binary op _ _ _ _ := finite_results.binary op _ _
  record hfs _ := Value.fieldsFinite_iff.mpr hfs
  list hvs := Value.itemsFinite_iff.mpr hvs
  builtin f _ _ hv _ := finite_results.builtin f hv _

/-! ## Conversions -/

/-- The number that is read from the text of a value, if it is converted to a number. -/
def Value.readsAs (v : Value) (k : Kind) (n : Float) : Prop :=
  ∃ s, v = .text s ∧ k = .float ∧ readNumber? (Text.trim s) = some n

theorem Value.Converts.isFinite {v w : Value} {k : Kind}
    (hread : ∀ n, v.readsAs k n → n.isFinite) (h : v.Converts k w) : w.isFinite := by
  cases h with
  | floatOfInt n =>
    have hlow := n.le_toInt
    have hhigh := n.toInt_lt
    exact Binary.isFinite_ofInt (by omega)
  | floatOfText h =>
    exact hread _ ⟨_, rfl, rfl, h⟩
  | _ => rfl

/-- A conversion leads from finite numbers to finite numbers, unless it reads another one from a
text. -/
theorem Value.convert_endsFinite {v : Value} {k : Kind} (hv : v.isFinite)
    (hread : ∀ n, v.readsAs k n → n.isFinite) : EndsFinite (v.convert k) :=
  .convert hv (fun _ hw => hw.isFinite hread) trivial

/-- A text of a number is converted to this number, finite or not. -/
theorem Value.convert_of_readsAs {v : Value} {k : Kind} {n : Float} (h : v.readsAs k n) :
    v.convert k = .ok (.float n) := by
  obtain ⟨s, rfl, rfl, hn⟩ := h
  simp [convert, isNull, kind, convert?, hn]

/-! ## Trees -/

namespace Expr

theorem isFinite_iff_everywhere {e : Expr} : e.isFinite ↔ e.Everywhere (·.isFinite = true) := by
  induction e using induction_on_children with
  | node e ih =>
    rw [isFinite_eq, everywhere_iff, Bool.and_eq_true, List.all_eq_true]
    exact and_congr_right fun _ => forall₂_congr ih

/-- **A conversion of the tree reads a number that is not finite** from the text that it is given. -/
def ReadsUnbounded (e : Expr) : Prop :=
  ∃ x k v n, convert x k ∈ e.subtrees ∧ x.evaluate = .ok v ∧ v.readsAs k n ∧ n.isFinite = false

theorem ReadsUnbounded.of_subtree {a e : Expr} (h : a.ReadsUnbounded) (ha : a ∈ e.subtrees) :
    e.ReadsUnbounded := by
  obtain ⟨x, k, v, n, hx, hrest⟩ := h
  exact ⟨x, k, v, n, mem_subtrees_trans hx ha, hrest⟩

/-- The numbers in the value of a tree of finite numbers are finite, unless a conversion reads another
one. -/
theorem evaluate_isFinite {e : Expr} (h : e.isFinite) (hreads : ¬ e.ReadsUnbounded) {v : Value}
    (hv : e.evaluate = .ok v) : v.isFinite := by
  have hends : EndsFinite e.evaluate := by
    refine finite_invariant.evaluate (fun v hv => ?_) (fun x k v hx hv hfinite => ?_)
      (.inr fun _ => trivial)
    · exact isFinite_iff_everywhere.mp h _ hv
    · refine Value.convert_endsFinite hfinite fun n hn => ?_
      by_contra hinfinite
      exact hreads ⟨x, k, v, n, hx, hv, hn, Bool.eq_false_iff.mpr hinfinite⟩
  exact hends.isFinite hv

/-- A tree of finite numbers has a part with another number in its value iff a conversion reads one. -/
theorem exists_subtree_not_isFinite_iff {e : Expr} (h : e.isFinite) :
    (∃ a ∈ e.subtrees, ∃ v, a.evaluate = .ok v ∧ v.isFinite = false) ↔ e.ReadsUnbounded := by
  constructor
  · rintro ⟨a, ha, v, hv, hinfinite⟩
    by_contra hreads
    have hfinite : a.isFinite := by
      rw [isFinite_iff_everywhere] at h ⊢
      exact fun x hx => h x (mem_subtrees_trans hx ha)
    have hvalue := evaluate_isFinite hfinite (fun hreads' => hreads (hreads'.of_subtree ha)) hv
    rw [hinfinite] at hvalue
    cases hvalue
  · rintro ⟨x, k, v, n, hx, hv, hn, hinfinite⟩
    refine ⟨convert x k, hx, .float n, ?_, hinfinite⟩
    rw [evaluate, hv]
    exact Value.convert_of_readsAs hn

end Expr

end QueryChain
