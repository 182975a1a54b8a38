import Mathlib.Data.Finset.Basic
import QueryChain.Proofs.Expr.Substitution

/-!
# Scoping laws of substitution

Replacing one name is the simultaneous substitution of a single tree. What a replacement does to the
free names of a tree, and that two replacements which do not get into each other's way may be made in
either order, follows from the laws of simultaneous substitutions.

## Main definitions

* `Substitution.single`: a tree in place of one name

## Main results

* `Expr.substitute_eq_substituteAll`: the replacement of a name as a simultaneous substitution
* `Expr.mem_free_substitute`: the names that are read after a replacement without capture
* `Expr.substitute_comm`: two replacements in either order
* `Expr.substitute_scoping`: the laws together
-/

namespace QueryChain

namespace Substitution

/-- A tree in place of one name. -/
def single (name : String) (r : Expr) : Substitution :=
  insert (fun _ => none) name r

variable {name n : String} {r a : Expr}

theorem single_eq_some_iff : single name r n = some a ↔ n = name ∧ a = r := by
  by_cases hn : n = name <;> simp [single, insert, hn, eq_comm]

theorem single_eq_none_iff : single name r n = none ↔ n ≠ name := by
  by_cases hn : n = name <;> simp [single, insert, hn]

/-- Trees for two different names can be put in place in either order. -/
theorem insert_single_comm {x y : String} (h : x ≠ y) (r s : Expr) :
    (single y s).insert x r = (single x r).insert y s := by
  funext n
  by_cases hx : n = x
  · simp [single, insert, hx, h]
  · simp [single, insert, hx]

end Substitution

namespace Expr

variable {e r : Expr} {x n : String}

/-- **The replacement of a name** is a simultaneous substitution. -/
theorem substitute_eq_substituteAll (e : Expr) (x : String) (r : Expr) :
    e.substitute x r = e.substituteAll (.single x r) := by
  have hnone : ∀ t : Expr, t.substituteAll (fun _ => none) = t := fun t =>
    substituteAll_of_none fun _ _ => rfl
  rw [Substitution.single, ← substituteAll_substitute fun _ _ => rfl, hnone]

/-- A tree none of whose free names is bound anywhere is put in place without capture. -/
theorem not_captures_single (h : ∀ n ∈ r.free, n ∉ e.bound) (x : String) :
    ¬ e.Captures (.single x r) := by
  rintro ⟨o, ho, a, ha, n, hn, hscope⟩
  obtain ⟨-, hsome⟩ := (Substitution.hide_eq_some_iff _).mp ha
  obtain ⟨-, rfl⟩ := Substitution.single_eq_some_iff.mp hsome
  exact h n hn (scope_subset_bound ho hscope)

/-- **The names that are read after a replacement** without capture: the other names of the tree, and
those of the replacement if the name was read at all. -/
theorem mem_free_substitute (h : ∀ n ∈ r.free, n ∉ e.bound) :
    n ∈ (e.substitute x r).free ↔ n ≠ x ∧ n ∈ e.free ∨ x ∈ e.free ∧ n ∈ r.free := by
  rw [substitute_eq_substituteAll, mem_free_substituteAll (not_captures_single h x)]
  constructor
  · rintro (⟨hn, hkept⟩ | ⟨y, hy, a, hsome, hn⟩)
    · exact .inl ⟨Substitution.single_eq_none_iff.mp hkept, hn⟩
    · obtain ⟨rfl, rfl⟩ := Substitution.single_eq_some_iff.mp hsome
      exact .inr ⟨hy, hn⟩
  · rintro (⟨hne, hn⟩ | ⟨hx, hn⟩)
    · exact .inl ⟨hn, Substitution.single_eq_none_iff.mpr hne⟩
    · exact .inr ⟨x, hx, r, Substitution.single_eq_some_iff.mpr ⟨rfl, rfl⟩, hn⟩

/-- One replacement after another puts both trees in place at once, if the first tree does not bring in
the name that comes second. -/
theorem substitute_substitute {y : String} {s : Expr} (h : y ∉ r.free) :
    (e.substitute x r).substitute y s = e.substituteAll ((Substitution.single y s).insert x r) := by
  rw [substitute_eq_substituteAll _ y, substituteAll_substitute]
  intro n hn
  refine Substitution.single_eq_none_iff.mpr ?_
  rintro rfl
  exact h hn

/-- **Two replacements in either order** give one tree, if neither brings in the other's name. Lambdas
that capture names of the replacements do so in either order. -/
theorem substitute_comm {y : String} {s : Expr} (hxy : x ≠ y) (hx : x ∉ s.free) (hy : y ∉ r.free) :
    (e.substitute x r).substitute y s = (e.substitute y s).substitute x r := by
  rw [substitute_substitute hy, substitute_substitute hx, Substitution.insert_single_comm hxy]

/-- **The scoping laws of substitution.** A name that is not free is replaced without effect. A
replacement none of whose free names is bound in the tree removes the name from the free ones and, if it
was one of them, brings in its own. Two replacements of different names, neither of which brings in the
other's name, may be made in either order. -/
theorem substitute_scoping (e r : Expr) (x : String) :
    (x ∉ e.free → e.substitute x r = e) ∧
    ((∀ n ∈ r.free, n ∉ e.bound) →
      (e.substitute x r).free.toFinset =
        e.free.toFinset.erase x ∪ if x ∈ e.free then r.free.toFinset else ∅) ∧
    ∀ (s : Expr) (y : String), x ≠ y → x ∉ s.free → y ∉ r.free →
      (e.substitute x r).substitute y s = (e.substitute y s).substitute x r := by
  refine ⟨substitute_of_notMem_free, fun h => ?_, fun s y => substitute_comm⟩
  ext n
  rw [List.mem_toFinset, mem_free_substitute h, Finset.mem_union, Finset.mem_erase, List.mem_toFinset]
  by_cases hx : x ∈ e.free
  · simp [hx]
  · simp [hx]

/-- `(a, a) => a + price.rate(total)`, with `price` and `total` free. -/
def surcharge : Expr :=
  .lambda ["a", "a"] (.binary .add (.parameter "a")
    (.call (.host "tax") "rate" (.parameter "price") [.parameter "total"]))

/-- A repeated name of the lambda is left alone, and another one is replaced, with or without capture. -/
theorem substitute_scoping_surcharge :
    "a" ∉ surcharge.free ∧ surcharge.substitute "a" (.parameter "b") = surcharge ∧
    (surcharge.substitute "price" (.member (.parameter "row") "price")).free.toFinset =
      {"row", "total"} ∧
    (surcharge.substitute "price" (.parameter "p")).substitute "total" (.parameter "a") =
      (surcharge.substitute "total" (.parameter "a")).substitute "price" (.parameter "p") := by
  have hbound : "a" ∉ surcharge.free := by decide
  have hapart : ∀ n ∈ (member (parameter "row") "price").free, n ∉ surcharge.bound := by decide
  refine ⟨hbound, (substitute_scoping surcharge _ "a").1 hbound, ?_, ?_⟩
  · rw [(substitute_scoping surcharge _ "price").2.1 hapart]
    decide
  · exact (substitute_scoping surcharge _ "price").2.2 _ _ (by decide) (by decide) (by decide)

end Expr

end QueryChain
