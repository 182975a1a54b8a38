import QueryChain.Proofs.Expr.Nodes

/-!
# Positions in trees

The same tree may stand at several places of a larger one. A place is given by the indices of the
children that lead to it from the root. Two trees with the same heads at the same positions are
equal.

## Main definitions

* `Expr.subtreeAt`: the subtree at a position
* `VisitedBefore`: the order in which the positions of a tree are visited

## Main results

* `Expr.subtreeAt_append`, `Expr.subtreeAt_cons_eq_some_iff`: positions below a position, and below
  a child
* `Expr.ext_subtreeAt`: a tree is determined by the heads at its positions
-/

namespace QueryChain

namespace Expr

/-- The subtree at a position. -/
def subtreeAt (e : Expr) : List Nat → Option Expr
  | [] => some e
  | i :: p => e.children[i]?.bind fun c => c.subtreeAt p

@[simp] theorem subtreeAt_nil (e : Expr) : e.subtreeAt [] = some e := rfl

theorem subtreeAt_cons (e : Expr) (i : Nat) (p : List Nat) :
    e.subtreeAt (i :: p) = e.children[i]?.bind fun c => c.subtreeAt p := rfl

theorem subtreeAt_cons_eq_some_iff {e x : Expr} {i : Nat} {p : List Nat} :
    e.subtreeAt (i :: p) = some x ↔ ∃ c, e.children[i]? = some c ∧ c.subtreeAt p = some x := by
  rw [subtreeAt_cons, Option.bind_eq_some_iff]

theorem subtreeAt_append (e : Expr) (p q : List Nat) :
    e.subtreeAt (p ++ q) = (e.subtreeAt p).bind fun x => x.subtreeAt q := by
  induction p generalizing e with
  | nil => rfl
  | cons i p ih =>
    rw [List.cons_append, subtreeAt_cons, subtreeAt_cons]
    cases e.children[i]? with
    | none => rfl
    | some c => exact ih c

/-- A tree is determined by the heads at its positions. -/
theorem ext_subtreeAt {a b : Expr}
    (h : ∀ p, (a.subtreeAt p).map head = (b.subtreeAt p).map head) : a = b := by
  induction a using induction_on_children generalizing b with
  | node a ih =>
    refine ext_head (Option.some.inj (h [])) (List.ext_getElem? fun i => ?_)
    have hchild : ∀ p, (a.children[i]?.bind fun c => c.subtreeAt p).map head =
        (b.children[i]?.bind fun c => c.subtreeAt p).map head := fun p => h (i :: p)
    cases ha : a.children[i]? with
    | none =>
      cases hb : b.children[i]? with
      | none => rfl
      | some d => simpa [ha, hb] using hchild []
    | some c =>
      cases hb : b.children[i]? with
      | none => simpa [ha, hb] using hchild []
      | some d =>
        have hcd : c = d := by
          refine ih c (List.mem_of_getElem? ha) fun p => ?_
          simpa [ha, hb] using hchild p
        rw [hcd]

end Expr

/-- A node is visited before its children, and these one after the other with all that is below
them. -/
def VisitedBefore (p q : List Nat) : Prop :=
  List.Lex (· < ·) p q

theorem visitedBefore_cons_iff {i j : Nat} {p q : List Nat} :
    VisitedBefore (i :: p) (j :: q) ↔ i < j ∨ i = j ∧ VisitedBefore p q := by
  constructor
  · intro h
    cases h with
    | rel hij => exact .inl hij
    | cons hpq => exact .inr ⟨rfl, hpq⟩
  · rintro (hij | ⟨rfl, hpq⟩)
    · exact .rel hij
    · exact .cons hpq

end QueryChain
