import QueryChain.Expr.Traversal
import QueryChain.Proofs.Outcome

/-!
# Nodes of trees

A node is its head and its children: the head holds the operator, the names and everything else that
is no tree. On top of this stand the subtrees of a tree, what the edits of a node's children amount
to at the node, and the relations that replacing children respects.

## Main definitions

* `Head`, `Expr.head`: what a node is apart from its children
* `Expr.subtrees`: the nodes of a tree, each with everything below it
* `Expr.Everywhere`: every head of a tree has a property
* `Edit.Keeps`: an answer about a tree that leaves it in place
* `Expr.IsCongruence`: a preorder of trees that replacing children respects

## Main results

* `Expr.ext_head`, `Expr.head_withChildren`: a node is determined by head and children, and putting
  other children in place keeps its head
* `Expr.mem_subtrees`, `Expr.forall_mem_subtrees`: subtrees of a node and of its children
* `Edit.ext_tree`: edits with one outcome
* `Expr.gather_eq_shared_iff`, `Expr.tree_gather`: the edit of a node from its children's
* `Expr.mapChildren_eq_ok_iff`, `Expr.mapChildren_eq_shared_iff`: a node is transformed, and left
  alone, iff each of its children is
* `Expr.IsCongruence.and`, `Expr.IsCongruence.within`: congruences from others
-/

namespace QueryChain

/-- What a node is apart from its children. -/
inductive Head where
  | constant (value : Value)
  | parameter (name : String)
  | source (name : String)
  | member (name : String)
  | unary (op : UnaryOp)
  | binary (op : BinaryOp)
  | conditional
  | convert (kind : Kind)
  | quote
  | lambda (params : List String)
  | invoke
  | record (names : List String)
  | list
  | call (owner : Owner) (method : String)

namespace Edit

/-- The answer about a tree is the tree itself, unless it was replaced. -/
def Keeps (e : Expr) : Edit → Prop
  | shared t => t = e
  | changed _ => True

theorem exists_shared_iff {edit : Edit} : (∃ t, edit = .shared t) ↔ edit.isChanged = false := by
  cases edit <;> simp [isChanged]

theorem Keeps.eq_shared_iff {e : Expr} {edit : Edit} (h : edit.Keeps e) :
    edit = .shared e ↔ edit.isChanged = false := by
  cases edit with
  | shared t => rw [show t = e from h, isChanged, eq_self, eq_self]
  | changed t => simp [isChanged]

/-- An edit is determined by the tree that it leads to and by whether something was replaced. -/
theorem ext_tree {a b : Edit} (htree : a.tree = b.tree) (hflag : a.isChanged = b.isChanged) :
    a = b := by
  cases a <;> cases b <;> cases hflag <;> exact congrArg _ htree

end Edit

namespace Expr

/-- What the root is apart from its children. -/
def head : Expr → Head
  | constant v => .constant v
  | parameter n => .parameter n
  | source n => .source n
  | member _ n => .member n
  | unary op _ => .unary op
  | binary op _ _ => .binary op
  | conditional _ _ _ => .conditional
  | convert _ k => .convert k
  | quote _ => .quote
  | lambda ps _ => .lambda ps
  | invoke _ _ => .invoke
  | record fs => .record (fs.map (·.1))
  | list _ => .list
  | call o m _ _ => .call o m

theorem ext_head {a b : Expr} (hhead : a.head = b.head) (hchildren : a.children = b.children) :
    a = b := by
  -- the head of a record holds the names only: its fields are names and children put together again
  cases a with
  | record fs =>
    cases b with
    | record gs =>
      have hnames : fs.map (·.1) = gs.map (·.1) := Head.record.inj hhead
      have hzip : ∀ l : List (String × Expr), (l.map (·.1)).zip (l.map (·.2)) = l := fun l => by
        simp [List.zip_map', List.map_id']
      rw [← hzip fs, ← hzip gs, hnames, show fs.map (·.2) = gs.map (·.2) from hchildren]
    | _ => cases hhead
  | _ =>
    cases b <;> cases hhead
    all_goals
      cases hchildren
      rfl

theorem head_withChildren (e : Expr) {cs : List Expr} (h : cs.length = e.children.length) :
    (e.withChildren cs).head = e.head := by
  cases e with
  | constant _ | parameter _ | source _ | list _ => rfl
  | member _ _ | unary _ _ | convert _ _ | quote _ | lambda _ _ =>
    obtain ⟨x, rfl⟩ := List.length_eq_one_iff.mp h
    rfl
  | binary _ _ _ =>
    match cs, h with
    | [_, _], _ => rfl
  | conditional _ _ _ =>
    match cs, h with
    | [_, _, _], _ => rfl
  | invoke _ _ | call _ _ _ _ =>
    cases cs with
    | nil => simp [children] at h
    | cons => rfl
  | record fs =>
    simp only [children, List.length_map] at h
    simp [withChildren, head, List.map_fst_zip, h]

theorem withChildren_withChildren (e : Expr) {cs ds : List Expr}
    (hcs : cs.length = e.children.length) (hds : ds.length = e.children.length) :
    (e.withChildren cs).withChildren ds = e.withChildren ds := by
  have hinner : ds.length = (e.withChildren cs).children.length := by
    rw [children_withChildren e hcs, hcs, hds]
  refine ext_head ?_ ?_
  · rw [head_withChildren _ hinner, head_withChildren e hcs, head_withChildren e hds]
  · rw [children_withChildren _ hinner, children_withChildren e hds]

/-! ## Subtrees -/

/-- The nodes of a tree, each with everything below it; the tree itself comes first. -/
def subtrees : Expr → List Expr :=
  bottomUp fun e inner => e :: inner.flatten

theorem subtrees_eq (e : Expr) : e.subtrees = e :: (e.children.map subtrees).flatten :=
  bottomUp_eq _ e

theorem mem_subtrees {x e : Expr} : x ∈ e.subtrees ↔ x = e ∨ ∃ c ∈ e.children, x ∈ c.subtrees := by
  rw [subtrees_eq]
  simp

theorem self_mem_subtrees (e : Expr) : e ∈ e.subtrees :=
  mem_subtrees.mpr (.inl rfl)

/-- A property of all nodes is one of the root and of all nodes below each child. -/
theorem forall_mem_subtrees {p : Expr → Prop} {e : Expr} :
    (∀ x ∈ e.subtrees, p x) ↔ p e ∧ ∀ c ∈ e.children, ∀ x ∈ c.subtrees, p x := by
  constructor
  · intro h
    refine ⟨h e (self_mem_subtrees e), fun c hc x hx => ?_⟩
    exact h x (mem_subtrees.mpr (.inr ⟨c, hc, hx⟩))
  · rintro ⟨hroot, hbelow⟩ x hx
    rcases mem_subtrees.mp hx with rfl | ⟨c, hc, hx⟩
    · exact hroot
    · exact hbelow c hc x hx

theorem mem_subtrees_trans {x y e : Expr} (hx : x ∈ y.subtrees) (hy : y ∈ e.subtrees) :
    x ∈ e.subtrees := by
  induction e using induction_on_children with
  | node e ih =>
    rcases mem_subtrees.mp hy with rfl | ⟨c, hc, hy⟩
    · exact hx
    · exact mem_subtrees.mpr (.inr ⟨c, hc, ih c hc hy⟩)

/-- Every node of the tree has a head with the property. -/
def Everywhere (p : Head → Prop) (e : Expr) : Prop :=
  ∀ x ∈ e.subtrees, p x.head

theorem everywhere_iff {p : Head → Prop} {e : Expr} :
    e.Everywhere p ↔ p e.head ∧ ∀ c ∈ e.children, c.Everywhere p :=
  forall_mem_subtrees

/-! ## Edits of the children -/

theorem gather_eq_shared_iff {e : Expr} {edits : List Edit} :
    e.gather edits = .shared e ↔ ∀ edit ∈ edits, edit.isChanged = false := by
  have hany : edits.any Edit.isChanged = false ↔ ∀ edit ∈ edits, edit.isChanged = false := by
    simp
  rw [← hany]
  cases h : edits.any Edit.isChanged with
  | true => simp [gather_of_any h]
  | false => simp [gather_of_not_any h]

theorem gather_keeps (e : Expr) (edits : List Edit) : (e.gather edits).Keeps e := by
  cases h : edits.any Edit.isChanged with
  | true =>
    rw [gather_of_any h]
    exact trivial
  | false =>
    rw [gather_of_not_any h]
    rfl

/-- Where every answer keeps its tree and nothing was replaced, the answers are the trees. -/
theorem map_tree_of_keeps {xs : List Expr} {edits : List Edit} (h : List.Forall₂ Edit.Keeps xs edits)
    (hany : edits.any Edit.isChanged = false) : edits.map Edit.tree = xs := by
  induction h with
  | nil => rfl
  | @cons x edit xs edits hkeeps _ ih =>
    rw [List.any_cons, Bool.or_eq_false_iff] at hany
    rw [List.map_cons, ih hany.2]
    cases edit with
    | shared t => rw [Edit.tree_shared, show t = x from hkeeps]
    | changed t => cases hany.1

theorem treesOr_of_keeps {xs : List Expr} {edits : List Edit} (h : List.Forall₂ Edit.Keeps xs edits) :
    Edit.treesOr xs edits = edits.map Edit.tree := by
  cases hany : edits.any Edit.isChanged with
  | true => exact Edit.treesOr_of_any hany
  | false => rw [Edit.treesOr_of_not_any hany, map_tree_of_keeps h hany]

/-- Where every answer keeps its tree, the answers take the place of the children. -/
theorem placed_of_keeps (e : Expr) {edits : List Edit}
    (h : List.Forall₂ Edit.Keeps e.children edits) : e.placed edits = edits.map Edit.tree := by
  cases e with
  | invoke _ _ | call _ _ _ _ =>
    cases h with
    | cons _ hrest => exact congrArg (List.cons _) (treesOr_of_keeps hrest)
  | _ => rfl

/-- The edit of a node leads to the node with the trees that its children's edits lead to. -/
theorem tree_gather (e : Expr) {edits : List Edit} (h : List.Forall₂ Edit.Keeps e.children edits) :
    (e.gather edits).tree = e.withChildren (edits.map Edit.tree) := by
  cases hany : edits.any Edit.isChanged with
  | true => rw [gather_of_any hany, Edit.tree_changed, placed_of_keeps e h]
  | false =>
    rw [gather_of_not_any hany, Edit.tree_shared, map_tree_of_keeps h hany, withChildren_children]

theorem forall₂_keeps_map {f : Expr → Edit} (hf : ∀ c, (f c).Keeps c) (xs : List Expr) :
    List.Forall₂ Edit.Keeps xs (xs.map f) :=
  List.forall₂_map_right_iff.mpr (List.forall₂_same.mpr fun c _ => hf c)

theorem tree_gather_map (e : Expr) {f : Expr → Edit} (hf : ∀ c, (f c).Keeps c) :
    (e.gather (e.children.map f)).tree = e.withChildren (e.children.map fun c => (f c).tree) := by
  rw [tree_gather e (forall₂_keeps_map hf e.children), List.map_map]
  rfl

/-- A node is transformed without an error iff every child is. -/
theorem mapChildren_eq_ok_iff {ε : Type} {f : Expr → Except ε Edit} {e : Expr} {edit : Edit} :
    e.mapChildren f = .ok edit ↔
      ∃ edits, List.Forall₂ (fun c d => f c = .ok d) e.children edits ∧ edit = e.gather edits := by
  rw [mapChildren_eq_map, map_eq_ok_iff]
  exact exists_congr fun edits => and_congr mapM_eq_ok_iff eq_comm

/-- A node is the answer itself iff no child is replaced. -/
theorem mapChildren_eq_shared_iff {ε : Type} {f : Expr → Except ε Edit} {e : Expr} :
    e.mapChildren f = .ok (.shared e) ↔ ∀ c ∈ e.children, ∃ t, f c = .ok (.shared t) := by
  rw [mapChildren_eq_ok_iff]
  constructor
  · rintro ⟨edits, hedits, hgather⟩ c hc
    obtain ⟨edit, hedit, hanswer⟩ := exists_mem_of_forall₂ hedits hc
    have hflag := gather_eq_shared_iff.mp hgather.symm edit hedit
    cases edit with
    | shared t => exact ⟨t, hanswer⟩
    | changed t => cases hflag
  · intro h
    have hanswers : ∀ c ∈ e.children, ∃ edit, f c = .ok edit ∧ edit.isChanged = false :=
      fun c hc => (h c hc).imp' _ fun t ht => ⟨ht, rfl⟩
    obtain ⟨edits, hedits⟩ := exists_forall₂_iff.mpr hanswers
    obtain ⟨hedits, hflags⟩ := forall₂_and_right_iff.mp hedits
    exact ⟨edits, hedits, (gather_eq_shared_iff.mpr hflags).symm⟩

/-- If every answer keeps its tree, a node is the answer itself iff every child is. -/
theorem mapChildren_eq_shared_iff_of_keeps {ε : Type} {f : Expr → Except ε Edit} {e : Expr}
    (hf : ∀ {c edit}, f c = .ok edit → edit.Keeps c) :
    e.mapChildren f = .ok (.shared e) ↔ ∀ c ∈ e.children, f c = .ok (.shared c) := by
  rw [mapChildren_eq_shared_iff]
  refine forall₂_congr fun c _ => ⟨?_, fun h => ⟨c, h⟩⟩
  rintro ⟨t, ht⟩
  rw [ht, show t = c from hf ht]

/-! ## Relations that replacing children respects -/

/-- A preorder of trees such that related children make related nodes. -/
structure IsCongruence (R : Expr → Expr → Prop) : Prop where
  refl : ∀ e, R e e
  trans : ∀ {a b c}, R a b → R b c → R a c
  node : ∀ (e : Expr) {cs : List Expr}, List.Forall₂ R e.children cs → R e (e.withChildren cs)

theorem IsCongruence.and {R S : Expr → Expr → Prop} (hR : IsCongruence R) (hS : IsCongruence S) :
    IsCongruence fun a b => R a b ∧ S a b where
  refl e := ⟨hR.refl e, hS.refl e⟩
  trans hab hbc := ⟨hR.trans hab.1 hbc.1, hS.trans hab.2 hbc.2⟩
  node e _ h := ⟨hR.node e (h.imp fun _ _ h => h.1), hS.node e (h.imp fun _ _ h => h.2)⟩

/-- A congruence of the trees whose heads all have a property, which is kept as well. -/
theorem IsCongruence.within {R : Expr → Expr → Prop} (hR : IsCongruence R) (p : Head → Prop) :
    IsCongruence fun a b => a.Everywhere p → b.Everywhere p ∧ R a b where
  refl e h := ⟨h, hR.refl e⟩
  trans hab hbc h := by
    obtain ⟨hb, hRab⟩ := hab h
    obtain ⟨hc, hRbc⟩ := hbc hb
    exact ⟨hc, hR.trans hRab hRbc⟩
  node e cs hcs h := by
    obtain ⟨hhead, hchildren⟩ := everywhere_iff.mp h
    have hlen : cs.length = e.children.length := hcs.length_eq.symm
    have hboth : List.Forall₂ (fun a b => b.Everywhere p ∧ R a b) e.children cs :=
      ((List.forall₂_and_left _ _).mpr ⟨hchildren, hcs⟩).imp fun _ _ hab => hab.2 hab.1
    refine ⟨everywhere_iff.mpr ⟨?_, ?_⟩, hR.node e (hboth.imp fun _ _ hab => hab.2)⟩
    · rw [head_withChildren e hlen]
      exact hhead
    · rw [children_withChildren e hlen]
      exact forall_mem_of_forall₂ (hboth.imp fun _ _ hab => hab.1)

end Expr

end QueryChain
