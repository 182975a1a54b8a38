import QueryChain.Value.Basic

/-!
# Comparison of exchanged values

Exchanging two values exchanges less and greater, and keeps equality. An undefined number has no
order on either side.

## Main results

* `Binary.order_swap`, `Value.compare_swap`: the order of exchanged numbers and of exchanged scalars
* `Value.eq_comm`, `Value.looseEq_comm`: equality of exchanged values
-/

namespace QueryChain

open Float.Model (UnpackedFloat)

theorem Binary.order_swap (x y : Float) :
    Binary.order y x = (Binary.order x y).map Ordering.swap := by
  -- numbers of one sign compare by exponent and then by significand; all else is decided by sign
  have hsame : ∀ (e f : Int) (m n : Nat),
      (Ord.compare f e).then (Ord.compare n m) =
        ((Ord.compare e f).then (Ord.compare m n)).swap := by
    intro e f m n
    rw [Ordering.swap_then, ← Std.OrientedOrd.eq_swap, ← Std.OrientedOrd.eq_swap]
  unfold Binary.order Float.Model.compare
  generalize x.toModel.unpack = a
  generalize y.toModel.unpack = b
  cases a with
  | notANumber => cases b <;> rfl
  | infinity s =>
    cases b with
    | infinity t => cases s <;> cases t <;> rfl
    | _ => cases s <;> rfl
  | zero s =>
    cases b with
    | infinity t => cases t <;> rfl
    | finite t n f _ => cases t <;> rfl
    | _ => rfl
  | finite s m e _ =>
    cases b with
    | notANumber => cases s <;> rfl
    | infinity t => cases s <;> cases t <;> rfl
    | zero t => cases s <;> rfl
    | finite t n f _ =>
      cases s with
      | positive =>
        cases t with
        | positive => exact congrArg some (hsame e f m n)
        | negative => rfl
      | negative =>
        cases t with
        | positive => rfl
        | negative => exact congrArg (fun o => some o.swap) (hsame e f m n)

namespace Value

theorem compare_swap (a b : Value) : b.compare a = (a.compare b).map Ordering.swap := by
  cases a with
  | int m =>
    cases b with
    | int n => exact congrArg some Std.OrientedOrd.eq_swap
    | float y => exact Binary.order_swap _ y
    | _ => rfl
  | float x =>
    cases b with
    | int n => exact Binary.order_swap x _
    | float y => exact Binary.order_swap x y
    | _ => rfl
  | bool p =>
    cases b with
    | bool q => exact congrArg some Std.OrientedOrd.eq_swap
    | _ => rfl
  | text s =>
    cases b with
    | text t => exact congrArg some Std.OrientedOrd.eq_swap
    | _ => rfl
  | _ => cases b <;> rfl

/-- Values compare equal in either order. -/
theorem compare_eq_comm (a b : Value) :
    (a.compare b == some .eq) = (b.compare a == some .eq) := by
  rw [compare_swap a b]
  rcases a.compare b with _ | _ | _ | _ <;> rfl

mutual

theorem eq_comm : ∀ a b : Value, a.eq b = b.eq a
  | null, b => by cases b <;> simp [eq]
  | bool p, b => by cases b <;> simp [eq, Bool.beq_comm]
  | int m, b => by cases b <;> simp [eq, Bool.beq_comm]
  | float x, b => by
    cases b with
    | float y =>
      simp only [eq]
      rw [Binary.order_swap x y]
      rcases Binary.order x y with _ | _ | _ | _ <;> rfl
    | _ => simp [eq]
  | text s, b => by cases b <;> simp [eq, Bool.beq_comm]
  | list xs, b => by
    cases b with
    | list ys => simpa only [eq] using eqItems_comm xs ys
    | _ => simp [eq]
  | record fs, b => by
    cases b with
    | record gs => simpa only [eq] using eqFields_comm fs gs
    | _ => simp [eq]

theorem eqItems_comm : ∀ xs ys : List Value, eqItems xs ys = eqItems ys xs
  | [], ys => by cases ys <;> simp [eqItems]
  | x :: xs, ys => by
    cases ys with
    | nil => simp [eqItems]
    | cons y ys => rw [eqItems, eqItems, eq_comm x y, eqItems_comm xs ys]

theorem eqFields_comm : ∀ fs gs : List (String × Value), eqFields fs gs = eqFields gs fs
  | [], gs => by cases gs <;> simp [eqFields]
  | (m, x) :: fs, gs => by
    cases gs with
    | nil => simp [eqFields]
    | cons g gs => rw [eqFields, eqFields, eq_comm x g.2, eqFields_comm fs gs, Bool.beq_comm]

end

/-- Lists compare item by item; other values compare as numbers or structurally. -/
theorem looseEq_comm_of_not_lists {a b : Value} (h : ∀ xs ys, a = list xs → b = list ys → False) :
    a.looseEq b = b.looseEq a := by
  rw [looseEq.eq_2 a b h, looseEq.eq_2 b a fun ys xs hb ha => h xs ys ha hb, Bool.and_comm,
    compare_eq_comm, eq_comm]

mutual

theorem looseEq_comm : ∀ a b : Value, a.looseEq b = b.looseEq a
  | list xs, b => by
    cases b with
    | list ys => simpa only [looseEq] using looseEqItems_comm xs ys
    | _ => exact looseEq_comm_of_not_lists (by simp)
  | null, b => looseEq_comm_of_not_lists (by simp)
  | bool _, b => looseEq_comm_of_not_lists (by simp)
  | int _, b => looseEq_comm_of_not_lists (by simp)
  | float _, b => looseEq_comm_of_not_lists (by simp)
  | text _, b => looseEq_comm_of_not_lists (by simp)
  | record _, b => looseEq_comm_of_not_lists (by simp)

theorem looseEqItems_comm : ∀ xs ys : List Value, looseEqItems xs ys = looseEqItems ys xs
  | [], ys => by cases ys <;> simp [looseEqItems]
  | x :: xs, ys => by
    cases ys with
    | nil => simp [looseEqItems]
    | cons y ys => rw [looseEqItems, looseEqItems, looseEq_comm x y, looseEqItems_comm xs ys]

end

end Value

end QueryChain
