import Mathlib.Data.List.Forall2

/-!
# Outcomes of computations

A computation ends in a value or in an error. A sequence of computations ends in a value iff each of
its parts does; these equivalences take apart what a successful evaluation, pass or recognition did.

## Main results

* `bind_eq_ok_iff`, `bind_eq_error_iff`, `map_eq_ok_iff`, `map_eq_error_iff`: a computation followed
  by another one
* `mapM_eq_ok_iff`, `mapM_eq_error_iff`, `mapM_map_eq`: a computation on every item of a list
* `forall_mem_of_forall₂`, `exists_getElem?_of_forall₂`, `exists_mem_of_forall₂`: one item of each pair
* `forall₂_and_right_iff`, `exists_forall₂_iff`, `forall₂_bind_iff`, `forall₂_exists_iff`: a
  condition, a partner, a second computation and a result for every item
-/

namespace QueryChain

variable {α β γ ε : Type}

theorem bind_eq_ok_iff {x : Except ε α} {f : α → Except ε β} {b : β} :
    x >>= f = .ok b ↔ ∃ a, x = .ok a ∧ f a = .ok b := by
  cases x with
  | error err =>
    refine ⟨fun h => ?_, fun ⟨_, h, _⟩ => ?_⟩
    · cases h
    · cases h
  | ok a =>
    refine ⟨fun h => ⟨a, rfl, h⟩, fun ⟨a', h, hf⟩ => ?_⟩
    cases h
    exact hf

theorem map_eq_ok_iff {x : Except ε α} {f : α → β} {b : β} :
    x.map f = .ok b ↔ ∃ a, x = .ok a ∧ f a = b := by
  cases x <;> simp [Except.map]

theorem map_eq_error_iff {x : Except ε α} {f : α → β} {err : ε} :
    x.map f = .error err ↔ x = .error err := by
  cases x <;> simp [Except.map]

theorem mapError_eq_ok_iff {x : Except ε α} {f : ε → γ} {a : α} :
    x.mapError f = .ok a ↔ x = .ok a := by
  cases x <;> simp [Except.mapError]

theorem bind_eq_error_iff {x : Except ε α} {f : α → Except ε β} {err : ε} :
    x >>= f = .error err ↔ x = .error err ∨ ∃ a, x = .ok a ∧ f a = .error err := by
  cases x <;> simp [bind, Except.bind]

theorem pure_eq_ok_iff {a b : α} : (pure a : Except ε α) = .ok b ↔ a = b :=
  Except.ok.injEq a b ▸ Iff.rfl

/-- A computation succeeds on a list iff it does on every item, and then item by item. -/
theorem mapM_eq_ok_iff {f : α → Except ε β} {xs : List α} {ys : List β} :
    xs.mapM f = .ok ys ↔ List.Forall₂ (fun x y => f x = .ok y) xs ys := by
  induction xs generalizing ys with
  | nil =>
    rw [List.mapM_nil, pure_eq_ok_iff, List.forall₂_nil_left_iff]
    exact eq_comm
  | cons x xs ih =>
    rw [List.mapM_cons, List.forall₂_cons_left_iff]
    simp only [bind_eq_ok_iff, pure_eq_ok_iff, ih]
    constructor
    · rintro ⟨y, hx, rest, hxs, rfl⟩
      exact ⟨y, rest, hx, hxs, rfl⟩
    · rintro ⟨y, rest, hx, hxs, rfl⟩
      exact ⟨y, hx, rest, hxs, rfl⟩

/-- A computation fails on a list iff it does on some item and not before it. -/
theorem mapM_eq_error_iff {f : α → Except ε β} {xs : List α} {err : ε} :
    xs.mapM f = .error err ↔
      ∃ (i : Nat) (x : α), xs[i]? = some x ∧ f x = .error err ∧
        ∀ j < i, ∀ y, xs[j]? = some y → ∃ z, f y = .ok z := by
  induction xs with
  | nil =>
    constructor
    · intro h
      cases h
    · rintro ⟨i, x, hx, -⟩
      cases hx
  | cons first xs ih =>
    rw [List.mapM_cons]
    cases hfirst : f first with
    | error err' =>
      constructor
      · intro h
        cases h
        exact ⟨0, first, rfl, hfirst, by simp⟩
      · rintro ⟨i, x, hx, hfx, hbefore⟩
        rcases Nat.eq_zero_or_pos i with rfl | hpos
        · cases hx
          cases hfirst.symm.trans hfx
          rfl
        · obtain ⟨z, hz⟩ := hbefore 0 hpos first rfl
          cases hfirst.symm.trans hz
    | ok y =>
      have hrest : (Except.ok y >>= fun y => xs.mapM f >>= fun ys => pure (y :: ys)) = .error err ↔
          xs.mapM f = .error err := by
        cases xs.mapM f <;> simp [bind, Except.bind, pure, Except.pure]
      rw [hrest, ih]
      constructor
      · rintro ⟨i, x, hx, hfx, hbefore⟩
        refine ⟨i + 1, x, hx, hfx, fun j hj z hz => ?_⟩
        cases j with
        | zero =>
          cases hz
          exact ⟨y, hfirst⟩
        | succ j => exact hbefore j (Nat.lt_of_succ_lt_succ hj) z hz
      · rintro ⟨i, x, hx, hfx, hbefore⟩
        cases i with
        | zero =>
          cases hx
          cases hfirst.symm.trans hfx
        | succ i => exact ⟨i, x, hx, hfx, fun j hj z hz => hbefore (j + 1) (by omega) z hz⟩

/-- A view of every result may be taken item by item or at the end. -/
theorem mapM_map_eq {f : α → Except ε β} {g : β → γ} (xs : List α) :
    xs.mapM (fun x => (f x).map g) = (xs.mapM f).map (List.map g) := by
  induction xs with
  | nil => rfl
  | cons x xs ih =>
    rw [List.mapM_cons, List.mapM_cons, ih]
    cases f x with
    | error err => rfl
    | ok y => cases xs.mapM f <;> rfl

theorem forall_mem_of_forall₂ {p : β → Prop} {xs : List α} {ys : List β}
    (h : List.Forall₂ (fun _ y => p y) xs ys) : ∀ y ∈ ys, p y := by
  induction h with
  | nil => simp
  | cons hy _ ih => exact List.forall_mem_cons.mpr ⟨hy, ih⟩

theorem forall₂_and_right_iff {R : α → β → Prop} {p : β → Prop} {xs : List α} {ys : List β} :
    List.Forall₂ (fun x y => R x y ∧ p y) xs ys ↔ List.Forall₂ R xs ys ∧ ∀ y ∈ ys, p y := by
  constructor
  · intro h
    exact ⟨h.imp fun _ _ hxy => hxy.1, forall_mem_of_forall₂ (h.imp fun _ _ hxy => hxy.2)⟩
  · rintro ⟨h, hp⟩
    induction h with
    | nil => exact .nil
    | cons hxy _ ih =>
      obtain ⟨hy, hys⟩ := List.forall_mem_cons.mp hp
      exact .cons ⟨hxy, hy⟩ (ih hys)

theorem exists_getElem?_of_forall₂ {R : α → β → Prop} {xs : List α} {ys : List β}
    (h : List.Forall₂ R xs ys) {i : Nat} {y : β} (hy : ys[i]? = some y) :
    ∃ x, xs[i]? = some x ∧ R x y := by
  induction h generalizing i with
  | nil => cases hy
  | cons hxy _ ih =>
    cases i with
    | zero =>
      cases hy
      exact ⟨_, rfl, hxy⟩
    | succ i => exact ih hy

theorem exists_mem_of_forall₂ {R : α → β → Prop} {xs : List α} {ys : List β}
    (h : List.Forall₂ R xs ys) {x : α} (hx : x ∈ xs) : ∃ y ∈ ys, R x y := by
  induction h with
  | nil => cases hx
  | cons hxy _ ih =>
    rcases List.mem_cons.mp hx with rfl | hx
    · exact ⟨_, List.mem_cons_self, hxy⟩
    · obtain ⟨y, hy, hxy⟩ := ih hx
      exact ⟨y, List.mem_cons_of_mem _ hy, hxy⟩

theorem exists_forall₂_iff {R : α → β → Prop} {xs : List α} :
    (∃ ys, List.Forall₂ R xs ys) ↔ ∀ x ∈ xs, ∃ y, R x y := by
  induction xs with
  | nil => simp
  | cons x xs ih =>
    rw [List.forall_mem_cons, ← ih]
    constructor
    · rintro ⟨_, h⟩
      cases h with
      | cons hx hxs => exact ⟨⟨_, hx⟩, _, hxs⟩
    · rintro ⟨⟨y, hx⟩, ys, hxs⟩
      exact ⟨y :: ys, .cons hx hxs⟩

/-- Two computations in a row succeed on every item iff the first one does on every item, and the
second one on every result. -/
theorem forall₂_bind_iff {f : α → Except ε β} {g : β → Except ε γ} {xs : List α} {zs : List γ} :
    List.Forall₂ (fun x z => f x >>= g = .ok z) xs zs ↔
      ∃ ys, List.Forall₂ (fun x y => f x = .ok y) xs ys ∧
        List.Forall₂ (fun y z => g y = .ok z) ys zs := by
  -- both ways by induction on the pairs, with the results in between collected item by item
  constructor
  · intro h
    induction h with
    | nil => exact ⟨[], .nil, .nil⟩
    | cons hxz _ ih =>
      obtain ⟨y, hxy, hyz⟩ := bind_eq_ok_iff.mp hxz
      obtain ⟨ys, hxys, hyzs⟩ := ih
      exact ⟨y :: ys, .cons hxy hxys, .cons hyz hyzs⟩
  · rintro ⟨ys, hxys, hyzs⟩
    induction hxys generalizing zs with
    | nil =>
      cases hyzs
      exact .nil
    | cons hxy _ ih =>
      cases hyzs with
      | cons hyz hyzs => exact .cons (bind_eq_ok_iff.mpr ⟨_, hxy, hyz⟩) (ih hyzs)

/-- A view of something related to the item, for every item. -/
theorem forall₂_exists_iff {R : α → β → Prop} {g : β → γ} {xs : List α} {zs : List γ} :
    List.Forall₂ (fun x z => ∃ y, R x y ∧ g y = z) xs zs ↔
      ∃ ys, List.Forall₂ R xs ys ∧ ys.map g = zs := by
  constructor
  · intro h
    induction h with
    | nil => exact ⟨[], .nil, rfl⟩
    | cons hxz _ ih =>
      obtain ⟨y, hxy, rfl⟩ := hxz
      obtain ⟨ys, hxys, rfl⟩ := ih
      exact ⟨y :: ys, .cons hxy hxys, rfl⟩
  · rintro ⟨ys, hxys, rfl⟩
    induction hxys with
    | nil => exact .nil
    | cons hxy _ ih => exact .cons ⟨_, hxy, rfl⟩ ih

end QueryChain
