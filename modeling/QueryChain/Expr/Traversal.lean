import QueryChain.Expr.Basic

/-!
# Children of a tree

The direct children of a node in visiting order, their replacement, and the one recursion over
trees that the scope analysis and the passes share.

## Main definitions

* `Expr.children`, `Expr.withChildren`: the direct children, and the node with others in their place
* `Edit`: the answer of a transformation, which tells a tree that was there before from a new one
* `Expr.gather`, `Expr.mapChildren`: the edit of a node from its children's, and a transformation of
  all children
* `Expr.bottomUp`: the value of a tree from its root and its children's values

## Main results

* `Expr.children_withChildren`: the children put in place are the children of the result
* `Expr.withChildren_children`: a node with its own children put in place is itself
* `Expr.mapChildren_eq`: the children that are transformed are those that are visited
* `Expr.bottomUp_eq`: the equation of the recursion
* `Expr.induction_on_children`: induction from the children to the node
-/

namespace QueryChain

namespace Expr

/-- The direct children, in visiting order. -/
def children : Expr → List Expr
  | constant _ => []
  | parameter _ => []
  | source _ => []
  | member t _ => [t]
  | unary _ x => [x]
  | binary _ a b => [a, b]
  | conditional t a b => [t, a, b]
  | convert x _ => [x]
  | quote x => [x]
  | lambda _ b => [b]
  | invoke f as => f :: as
  | record fs => fs.map (·.2)
  | list xs => xs
  | call _ _ r as => r :: as

/-- The node with the given trees in place of its children. There are as many as before. -/
def withChildren : Expr → List Expr → Expr
  | member _ n, [t] => member t n
  | unary o _, [x] => unary o x
  | binary o _ _, [a, b] => binary o a b
  | conditional _ _ _, [t, a, b] => conditional t a b
  | convert _ k, [x] => convert x k
  | quote _, [x] => quote x
  | lambda ps _, [b] => lambda ps b
  | invoke _ _, f :: as => invoke f as
  | record fs, xs => record ((fs.map (·.1)).zip xs)
  | list _, xs => list xs
  | call o m _ _, r :: as => call o m r as
  | e, _ => e

theorem children_withChildren (e : Expr) {cs : List Expr}
    (h : cs.length = e.children.length) : (e.withChildren cs).children = cs := by
  cases e with
  | constant _ | parameter _ | source _ =>
    obtain rfl := List.eq_nil_of_length_eq_zero h
    rfl
  | member _ _ | unary _ _ | convert _ _ | quote _ | lambda _ _ =>
    obtain ⟨x, rfl⟩ := List.length_eq_one_iff.mp h
    rfl
  | binary _ _ _ =>
    match cs, h with
    | [_, _], _ => rfl
  | conditional _ _ _ =>
    match cs, h with
    | [_, _, _], _ => rfl
  | invoke _ _ | call _ _ _ _ =>
    cases cs with
    | nil => simp [children] at h
    | cons => rfl
  | record fs =>
    simp only [children, List.length_map] at h
    simp [withChildren, children, List.map_snd_zip, h]
  | list _ => rfl

theorem withChildren_children (e : Expr) : e.withChildren e.children = e := by
  cases e with
  | record fs => simp [withChildren, children, List.zip_map', List.map_id']
  | _ => rfl

end Expr

/-- The answer of a transformation: a tree that was there before, or a new one. A new tree may equal
an old one; that something was replaced is part of the answer. -/
inductive Edit where
  | shared (tree : Expr)
  | changed (tree : Expr)
deriving Inhabited

namespace Edit

/-- Whether something was replaced. -/
def isChanged : Edit → Bool
  | shared _ => false
  | changed _ => true

/-- The tree that the answer leads to. -/
def tree : Edit → Expr
  | shared t => t
  | changed t => t

/-- The edit of a node, given that of its only child. -/
def rebuild (e : Expr) (build : Expr → Expr) : Edit → Edit
  | shared _ => shared e
  | changed t => changed (build t)

/-- The trees that answers lead to, or the old ones if nothing was replaced. -/
def treesOr (old : List Expr) (edits : List Edit) : List Expr :=
  if edits.any isChanged then edits.map tree else old

@[simp] theorem tree_shared (t : Expr) : (shared t).tree = t := rfl

@[simp] theorem tree_changed (t : Expr) : (changed t).tree = t := rfl

@[simp] theorem isChanged_shared (t : Expr) : (shared t).isChanged = false := rfl

@[simp] theorem isChanged_changed (t : Expr) : (changed t).isChanged = true := rfl

theorem treesOr_of_any {old : List Expr} {edits : List Edit} (h : edits.any isChanged = true) :
    treesOr old edits = edits.map tree :=
  if_pos h

theorem treesOr_of_not_any {old : List Expr} {edits : List Edit} (h : edits.any isChanged = false) :
    treesOr old edits = old :=
  if_neg (Bool.eq_false_iff.mp h)

end Edit

namespace Expr

/-- The trees that take the place of a node's children. A call or an application none of whose
arguments is replaced keeps its arguments. -/
def placed : Expr → List Edit → List Expr
  | invoke _ args, first :: rest => first.tree :: Edit.treesOr args rest
  | call _ _ _ args, first :: rest => first.tree :: Edit.treesOr args rest
  | _, edits => edits.map Edit.tree

/-- The node with its children's edits carried out; the node itself if nothing was replaced. -/
def gather (e : Expr) (edits : List Edit) : Edit :=
  if edits.any Edit.isChanged then .changed (e.withChildren (e.placed edits)) else .shared e

theorem gather_of_any {e : Expr} {edits : List Edit} (h : edits.any Edit.isChanged = true) :
    e.gather edits = .changed (e.withChildren (e.placed edits)) :=
  if_pos h

theorem gather_of_not_any {e : Expr} {edits : List Edit} (h : edits.any Edit.isChanged = false) :
    e.gather edits = .shared e :=
  if_neg (Bool.eq_false_iff.mp h)

section MapChildren

variable {m : Type → Type} [Monad m] (f : Expr → m Edit)

/-- The trees of a list after their transformation, or nothing if none is replaced. -/
def mapItems (xs : List Expr) : m (Option (List Expr)) := do
  let edits ← xs.mapM f
  pure (if edits.any Edit.isChanged then some (edits.map Edit.tree) else none)

/-- Named trees after their transformation, and whether one of them was replaced. -/
def mapFields : List (String × Expr) → m (Bool × List (String × Expr))
  | [] => pure (false, [])
  | (n, x) :: fs => do
    let edit ← f x
    let rest ← mapFields fs
    pure (edit.isChanged || rest.1, (n, edit.tree) :: rest.2)

/-- The edit of a node with a first child and a list of others. If none of the others is replaced, the
list is taken over. -/
def mapApplied (e : Expr) (build : Expr → List Expr → Expr) (x : Expr) (xs : List Expr) :
    m Edit := do
  let first ← f x
  let rest ← mapItems f xs
  pure (if first.isChanged || rest.isSome then .changed (build first.tree (rest.getD xs))
    else .shared e)

/-- Transforms the children in visiting order; a node none of whose children is replaced is the answer
itself. The transformation may keep a state, and the first error ends the visit. -/
def mapChildren : Expr → m Edit
  | constant v => pure (.shared (constant v))
  | parameter n => pure (.shared (parameter n))
  | source n => pure (.shared (source n))
  | member t n => Edit.rebuild (member t n) (member · n) <$> f t
  | unary op x => Edit.rebuild (unary op x) (unary op) <$> f x
  | convert x k => Edit.rebuild (convert x k) (convert · k) <$> f x
  | quote x => Edit.rebuild (quote x) quote <$> f x
  | lambda ps b => Edit.rebuild (lambda ps b) (lambda ps) <$> f b
  | binary op a b => do
    let left ← f a
    let right ← f b
    pure (if left.isChanged || right.isChanged then .changed (binary op left.tree right.tree)
      else .shared (binary op a b))
  | conditional t a b => do
    let test ← f t
    let ifTrue ← f a
    let ifFalse ← f b
    pure (if test.isChanged || ifTrue.isChanged || ifFalse.isChanged then
      .changed (conditional test.tree ifTrue.tree ifFalse.tree) else .shared (conditional t a b))
  | invoke g as => mapApplied f (invoke g as) invoke g as
  | call o n r as => mapApplied f (call o n r as) (call o n) r as
  | list xs => do
    let items ← mapItems f xs
    pure ((items.map fun ys => .changed (list ys)).getD (.shared (list xs)))
  | record fs => do
    let fields ← mapFields f fs
    pure (if fields.1 then .changed (record fields.2) else .shared (record fs))

variable [LawfulMonad m]

theorem mapFields_eq (fs : List (String × Expr)) :
    mapFields f fs = (fun edits => (edits.any Edit.isChanged,
      (fs.map (·.1)).zip (edits.map Edit.tree))) <$> (fs.map (·.2)).mapM f := by
  induction fs with
  | nil => simp [mapFields]
  | cons field fs ih => simp [mapFields, ih]

theorem mapApplied_eq {e x : Expr} {xs : List Expr} {build : Expr → List Expr → Expr}
    (hchildren : e.children = x :: xs)
    (hplaced : ∀ first rest, e.placed (first :: rest) = first.tree :: Edit.treesOr xs rest)
    (hbuild : ∀ y ys, e.withChildren (y :: ys) = build y ys) :
    mapApplied f e build x xs = e.gather <$> e.children.mapM f := by
  simp only [mapApplied, mapItems, hchildren, List.mapM_cons, map_eq_pure_bind, bind_assoc, pure_bind]
  refine bind_congr fun first => bind_congr fun rest => ?_
  rw [gather, List.any_cons, hplaced, hbuild]
  cases h : rest.any Edit.isChanged with
  | true => simp [Edit.treesOr_of_any h]
  | false => simp [Edit.treesOr_of_not_any h]

/-- **A transformation of the children** is one of the list of children, whatever effects it has. -/
theorem mapChildren_eq (e : Expr) : e.mapChildren f = e.gather <$> e.children.mapM f := by
  cases e with
  | constant _ | parameter _ | source _ => simp [mapChildren, children, gather]
  | member _ _ | unary _ _ | convert _ _ | quote _ | lambda _ _ =>
    simp only [mapChildren, children, List.mapM_cons, List.mapM_nil, map_eq_pure_bind, bind_assoc,
      pure_bind]
    refine bind_congr fun edit => ?_
    cases edit <;> rfl
  | binary _ _ _ => simp [mapChildren, children, gather, placed, withChildren]
  | conditional _ _ _ => simp [mapChildren, children, gather, placed, withChildren, or_assoc]
  | invoke _ _ | call _ _ _ _ => exact mapApplied_eq f rfl (fun _ _ => rfl) fun _ _ => rfl
  | list xs =>
    simp only [mapChildren, mapItems, children, map_eq_pure_bind, bind_assoc, pure_bind]
    refine bind_congr fun edits => ?_
    rw [gather]
    split <;> rfl
  | record fs =>
    rw [mapChildren, mapFields_eq, map_eq_pure_bind, map_eq_pure_bind, bind_assoc]
    refine bind_congr fun edits => ?_
    rw [pure_bind]
    rfl

end MapChildren

/-- The same of a transformation that may fail and keeps no state. -/
theorem mapChildren_eq_map {ε : Type} (f : Expr → Except ε Edit) (e : Expr) :
    e.mapChildren f = (e.children.mapM f).map e.gather :=
  mapChildren_eq f e

section BottomUp

variable {α : Type} (step : Expr → List α → α)

mutual

/-- The value of a tree, from its root and its children's values in visiting order. -/
def bottomUp : Expr → α
  | constant v => step (constant v) []
  | parameter n => step (parameter n) []
  | source n => step (source n) []
  | member t n => step (member t n) [bottomUp t]
  | unary o x => step (unary o x) [bottomUp x]
  | binary o a b => step (binary o a b) [bottomUp a, bottomUp b]
  | conditional t a b => step (conditional t a b) [bottomUp t, bottomUp a, bottomUp b]
  | convert x k => step (convert x k) [bottomUp x]
  | quote x => step (quote x) [bottomUp x]
  | lambda ps b => step (lambda ps b) [bottomUp b]
  | invoke f as => step (invoke f as) (bottomUp f :: bottomUpItems as)
  | record fs => step (record fs) (bottomUpFields fs)
  | list xs => step (list xs) (bottomUpItems xs)
  | call o m r as => step (call o m r as) (bottomUp r :: bottomUpItems as)

/-- The values of a list of trees. -/
def bottomUpItems : List Expr → List α
  | [] => []
  | x :: xs => bottomUp x :: bottomUpItems xs

/-- The values of named trees. -/
def bottomUpFields : List (String × Expr) → List α
  | [] => []
  | (_, x) :: fs => bottomUp x :: bottomUpFields fs

end

theorem bottomUpItems_eq (xs : List Expr) :
    bottomUpItems step xs = xs.map (bottomUp step) := by
  induction xs with
  | nil => simp [bottomUpItems]
  | cons x xs ih => simp [bottomUpItems, ih]

theorem bottomUpFields_eq (fs : List (String × Expr)) :
    bottomUpFields step fs = (fs.map (·.2)).map (bottomUp step) := by
  induction fs with
  | nil => simp [bottomUpFields]
  | cons f fs ih => simp [bottomUpFields, ih]

theorem bottomUp_eq (e : Expr) :
    bottomUp step e = step e (e.children.map (bottomUp step)) := by
  cases e <;> simp [bottomUp, children, bottomUpItems_eq, bottomUpFields_eq]

end BottomUp

mutual

/-- Induction from the children to the node. -/
theorem induction_on_children {motive : Expr → Prop}
    (node : ∀ e, (∀ c ∈ e.children, motive c) → motive e) : ∀ e, motive e
  | constant v => node _ (by simp [children])
  | parameter n => node _ (by simp [children])
  | source n => node _ (by simp [children])
  | member t n => node _ (by simpa [children] using induction_on_children node t)
  | unary o x => node _ (by simpa [children] using induction_on_children node x)
  | binary o a b => node _ (by
      simpa [children] using ⟨induction_on_children node a, induction_on_children node b⟩)
  | conditional t a b => node _ (by
      simpa [children] using ⟨induction_on_children node t, induction_on_children node a,
        induction_on_children node b⟩)
  | convert x k => node _ (by simpa [children] using induction_on_children node x)
  | quote x => node _ (by simpa [children] using induction_on_children node x)
  | lambda ps b => node _ (by simpa [children] using induction_on_children node b)
  | invoke f as => node _ (by
      simpa [children] using ⟨induction_on_children node f, induction_on_items node as⟩)
  | record fs => node _ (by simpa [children] using induction_on_fields node fs)
  | list xs => node _ (by simpa [children] using induction_on_items node xs)
  | call o m r as => node _ (by
      simpa [children] using ⟨induction_on_children node r, induction_on_items node as⟩)

theorem induction_on_items {motive : Expr → Prop}
    (node : ∀ e, (∀ c ∈ e.children, motive c) → motive e) : ∀ (xs : List Expr), ∀ c ∈ xs, motive c
  | [] => by simp
  | x :: xs => by
    simpa using ⟨induction_on_children node x, induction_on_items node xs⟩

theorem induction_on_fields {motive : Expr → Prop}
    (node : ∀ e, (∀ c ∈ e.children, motive c) → motive e) :
    ∀ (fs : List (String × Expr)), ∀ c n, (n, c) ∈ fs → motive c
  | [] => by simp
  | (m, x) :: fs => by
    intro c n h
    rcases List.mem_cons.mp h with h | h
    · obtain ⟨rfl, rfl⟩ := Prod.mk.inj h
      exact induction_on_children node c
    · exact induction_on_fields node fs c n h

end

end Expr

end QueryChain
