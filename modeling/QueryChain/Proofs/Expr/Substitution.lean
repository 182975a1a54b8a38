import QueryChain.Proofs.Expr.Names

/-!
# Substitutions all at once

A simultaneous substitution puts trees in place of several free names in one go: a name that a tree
brings in is not replaced again, and below a lambda its parameters are left alone. What it does to a
tree can be read off the places where names occur, each taken with the names that the lambdas around
it bind. A tree that is put into such a place keeps its names free iff none of them is bound there.

## Main definitions

* `Head.binders`: the names that a node binds
* `Substitution`, `Substitution.hide`, `Substitution.ofArgs`: trees in place of names
* `Expr.substituteAll`: the simultaneous substitution
* `Occurrence`, `Expr.occurrences`: the places where names occur
* `Expr.Captures`: a name of a tree that is put in place is bound there

## Main results

* `Expr.induction_on_names`: induction that tells names from the other nodes
* `Expr.substituteAll_substitute`: one name first, and then the others
* `Expr.foldl_substitute_eq`: names one after the other are names all at once, if no tree brings in
  a name whose turn is yet to come
* `Expr.mem_free_iff_occurrences`: the free names are those that occur unbound
* `Expr.occurrences_substituteAll`: the places in the resulting tree
* `Expr.mem_free_substituteAll`: what the resulting tree reads
-/

namespace QueryChain

/-- The names that a node binds in its children. -/
def Head.binders : Head → List String
  | lambda ps => ps
  | _ => []

/-- Trees in place of some names. -/
def Substitution : Type :=
  String → Option Expr

namespace Substitution

/-- The substitution that leaves the given names alone. -/
def hide (σ : Substitution) (names : List String) : Substitution :=
  fun n => if n ∈ names then none else σ n

/-- The substitution with a tree for one more name, whatever it had for the name before. -/
def insert (σ : Substitution) (name : String) (r : Expr) : Substitution :=
  fun n => if n = name then some r else σ n

/-- The substitution of arguments for parameters. A repeated parameter stands for its first
argument. -/
def ofArgs (params : List String) (args : List Expr) : Substitution :=
  fun n => (params.zip args).lookup n

variable (σ : Substitution)

theorem hide_apply (names : List String) (n : String) :
    σ.hide names n = if n ∈ names then none else σ n :=
  rfl

theorem insert_apply (name : String) (r : Expr) (n : String) :
    σ.insert name r n = if n = name then some r else σ n :=
  rfl

theorem hide_nil : σ.hide [] = σ := by
  funext n
  simp [hide_apply]

theorem hide_hide (names others : List String) :
    (σ.hide names).hide others = σ.hide (names ++ others) := by
  funext n
  by_cases hn : n ∈ names <;> simp [hide_apply, hn]

theorem hide_of_notMem {names : List String} {n : String} (h : n ∉ names) : σ.hide names n = σ n :=
  if_neg h

theorem hide_eq_none_iff {names : List String} {n : String} :
    σ.hide names n = none ↔ (n ∉ names → σ n = none) := by
  by_cases hn : n ∈ names <;> simp [hide_apply, hn]

theorem hide_eq_some_iff {names : List String} {n : String} {a : Expr} :
    σ.hide names n = some a ↔ n ∉ names ∧ σ n = some a := by
  by_cases hn : n ∈ names <;> simp [hide_apply, hn]

theorem hide_insert_of_mem {names : List String} {name : String} (h : name ∈ names) (r : Expr) :
    (σ.insert name r).hide names = σ.hide names := by
  funext n
  by_cases hn : n = name
  · simp [hide_apply, hn, h]
  · simp [hide_apply, insert_apply, hn]

theorem hide_insert_of_notMem {names : List String} {name : String} (h : name ∉ names) (r : Expr) :
    (σ.insert name r).hide names = (σ.hide names).insert name r := by
  funext n
  by_cases hn : n = name
  · simp [hide_apply, insert_apply, hn, h]
  · simp [hide_apply, insert_apply, hn]

end Substitution

/-! ## Names all at once -/

namespace Expr

/-- The node with the names replaced, given how each child is treated. -/
def substituteAllStep (e : Expr) (inner : List (Substitution → Expr)) (σ : Substitution) : Expr :=
  match e with
  | parameter n => (σ n).getD e
  | _ => e.withChildren (inner.map fun child => child (σ.hide e.head.binders))

/-- The tree with trees in place of its free names, all at once. Lambdas stop the replacement of the
names that they bind. -/
def substituteAll : Expr → Substitution → Expr :=
  bottomUp substituteAllStep

variable {e : Expr} {n : String}

theorem substituteAll_parameter (n : String) (σ : Substitution) :
    (parameter n).substituteAll σ = (σ n).getD (parameter n) :=
  rfl

theorem substituteAll_node (h : ∀ n, e.head ≠ .parameter n) (σ : Substitution) :
    e.substituteAll σ =
      e.withChildren (e.children.map (·.substituteAll (σ.hide e.head.binders))) := by
  rw [substituteAll, bottomUp_eq]
  cases e with
  | parameter n => exact absurd rfl (h n)
  | _ => simp [substituteAllStep, Function.comp_def]

theorem substituteAll_withChildren (h : ∀ n, e.head ≠ .parameter n) {cs : List Expr}
    (hcs : cs.length = e.children.length) (σ : Substitution) :
    (e.withChildren cs).substituteAll σ =
      e.withChildren (cs.map (·.substituteAll (σ.hide e.head.binders))) := by
  have hhead := head_withChildren e hcs
  rw [← hhead] at h
  rw [substituteAll_node h, hhead, children_withChildren e hcs,
    withChildren_withChildren e hcs (by rw [List.length_map, hcs])]

/-- A name is read by a node that is this name, or by a child of a node that does not bind it. -/
theorem mem_free_iff_binders :
    n ∈ e.free ↔ e.head = .parameter n ∨ (∃ c ∈ e.children, n ∈ c.free) ∧ n ∉ e.head.binders := by
  rw [mem_free_iff]
  cases e <;> simp [head, Head.binders]

/-- Induction that tells names from the other nodes. -/
@[elab_as_elim]
theorem induction_on_names {p : Expr → Prop} (name : ∀ n, p (parameter n))
    (node : ∀ e, (∀ n, e.head ≠ .parameter n) → (∀ c ∈ e.children, p c) → p e) (e : Expr) : p e := by
  induction e using induction_on_children with
  | node e ih =>
    cases e with
    | parameter n => exact name n
    | _ => exact node _ (by simp [head]) ih

/-- Names that are not read can be replaced without effect. -/
theorem substituteAll_of_none {σ : Substitution} (h : ∀ n ∈ e.free, σ n = none) :
    e.substituteAll σ = e := by
  induction e using induction_on_names generalizing σ with
  | name n =>
    have hnone := h n (mem_free_iff.mpr (.inl rfl))
    rw [substituteAll_parameter, hnone, Option.getD_none]
  | node e hnode ih =>
    have hsame : ∀ c ∈ e.children, c.substituteAll (σ.hide e.head.binders) = c := by
      intro c hc
      refine ih c hc fun n hn => σ.hide_eq_none_iff.mpr fun hunbound => h n ?_
      exact mem_free_iff_binders.mpr (.inr ⟨⟨c, hc, hn⟩, hunbound⟩)
    rw [substituteAll_node hnode, List.map_congr_left hsame, List.map_id', withChildren_children]

/-- **One name first, and then the others,** is all of them at once, if the tree for the first one
brings in none of the others. -/
theorem substituteAll_substitute {σ : Substitution} {name : String} {r : Expr}
    (h : ∀ n ∈ r.free, σ n = none) :
    (e.substitute name r).substituteAll σ = e.substituteAll (σ.insert name r) := by
  induction e using induction_on_names generalizing σ with
  | name n =>
    rw [substituteAll_parameter, Substitution.insert_apply]
    rcases substitute_cases (parameter n) name r with ⟨hhead, hs⟩ | ⟨_, hhead, _⟩ | ⟨hne, _, hs⟩
    · rw [hs, substituteAll_of_none h, if_pos (Head.parameter.inj hhead), Option.getD_some]
    · cases hhead
    · have hother : n ≠ name := fun hn => hne (congrArg Head.parameter hn)
      rw [hs, if_neg hother]
      rfl
  | node e hnode ih =>
    rcases substitute_cases e name r with ⟨hhead, _⟩ | ⟨ps, hhead, hname, hs⟩ | ⟨_, hbinds, hs⟩
    · exact absurd hhead (hnode name)
    · rw [hs, substituteAll_node hnode, substituteAll_node hnode,
        σ.hide_insert_of_mem (by rw [hhead]; exact hname)]
    · have hbinders : name ∉ e.head.binders := by
        cases hhead : e.head with
        | lambda ps => exact hbinds ps hhead
        | _ => simp [Head.binders]
      have hparts : ∀ c ∈ e.children,
          (c.substitute name r).substituteAll (σ.hide e.head.binders) =
            c.substituteAll ((σ.insert name r).hide e.head.binders) := by
        intro c hc
        rw [σ.hide_insert_of_notMem hbinders]
        exact ih c hc fun n hn => σ.hide_eq_none_iff.mpr fun _ => h n hn
      rw [hs, substituteAll_withChildren hnode (List.length_map ..), substituteAll_node hnode,
        List.map_map]
      exact congrArg e.withChildren (List.map_congr_left hparts)

/-- **Names one after the other** are names all at once, if no tree brings in a name whose turn is yet
to come. -/
theorem foldl_substitute_eq {pairs : List (String × Expr)}
    (h : pairs.Pairwise fun p q => q.1 ∉ p.2.free) :
    pairs.foldl (fun body p => body.substitute p.1 p.2) e =
      e.substituteAll fun n => pairs.lookup n := by
  induction pairs generalizing e with
  | nil => exact (substituteAll_of_none fun _ _ => rfl).symm
  | cons p pairs ih =>
    obtain ⟨hfirst, hrest⟩ := List.pairwise_cons.mp h
    have hnone : ∀ n ∈ p.2.free, pairs.lookup n = none := by
      intro n hn
      refine List.lookup_eq_none_iff.mpr fun q hq => ?_
      rw [bne_iff_ne]
      rintro rfl
      exact hfirst q hq hn
    have hlookup : (fun n => (p :: pairs).lookup n) =
        Substitution.insert (fun n => pairs.lookup n) p.1 p.2 := by
      funext n
      rw [List.lookup_cons]
      by_cases hn : n = p.1
      · simp [Substitution.insert, hn]
      · simp [Substitution.insert, hn, beq_false_of_ne hn]
    rw [List.foldl_cons, ih hrest, hlookup]
    exact substituteAll_substitute hnone

end Expr

/-! ## The places where names occur -/

/-- A place where a name is read, with the names that the lambdas around it bind. -/
structure Occurrence where
  scope : List String
  name : String

namespace Occurrence

/-- No lambda around the place binds the name. -/
def Free (o : Occurrence) : Prop :=
  o.name ∉ o.scope

/-- The place in a tree whose root binds further names around it. -/
def within (names : List String) (o : Occurrence) : Occurrence :=
  ⟨names ++ o.scope, o.name⟩

theorem within_within (names others : List String) (o : Occurrence) :
    (o.within others).within names = o.within (names ++ others) := by
  simp [within]

theorem free_within_iff {names : List String} {o : Occurrence} :
    (o.within names).Free ↔ o.name ∉ names ∧ o.Free := by
  simp [Free, within]

end Occurrence

namespace Expr

/-- The places at the node, given those of its children. -/
def occurrencesStep (e : Expr) (inner : List (List Occurrence)) : List Occurrence :=
  match e with
  | parameter n => [⟨[], n⟩]
  | _ => inner.flatten.map (·.within e.head.binders)

/-- The places where a tree reads names, from left to right. -/
def occurrences : Expr → List Occurrence :=
  bottomUp occurrencesStep

variable {e : Expr} {n : String}

theorem occurrences_parameter (n : String) : (parameter n).occurrences = [⟨[], n⟩] :=
  rfl

theorem occurrences_node (h : ∀ n, e.head ≠ .parameter n) :
    e.occurrences = (e.children.flatMap occurrences).map (·.within e.head.binders) := by
  rw [occurrences, bottomUp_eq, List.flatMap_def]
  cases e with
  | parameter n => exact absurd rfl (h n)
  | _ => rfl

theorem occurrences_withChildren (h : ∀ n, e.head ≠ .parameter n) {cs : List Expr}
    (hcs : cs.length = e.children.length) :
    (e.withChildren cs).occurrences = (cs.flatMap occurrences).map (·.within e.head.binders) := by
  have hhead := head_withChildren e hcs
  rw [← hhead] at h
  rw [occurrences_node h, hhead, children_withChildren e hcs]

/-- The free names are those that occur unbound. -/
theorem mem_free_iff_occurrences : n ∈ e.free ↔ ∃ o ∈ e.occurrences, o.name = n ∧ o.Free := by
  induction e using induction_on_names with
  | name m =>
    rw [mem_free_iff_binders, occurrences_parameter]
    simp [Occurrence.Free, head, children]
  | node e hnode ih =>
    rw [mem_free_iff_binders, occurrences_node hnode]
    constructor
    · rintro (hn | ⟨⟨c, hc, hn⟩, hbinders⟩)
      · exact absurd hn (hnode n)
      · obtain ⟨o, ho, rfl, hfree⟩ := (ih c hc).mp hn
        refine ⟨o.within e.head.binders, ?_, rfl, Occurrence.free_within_iff.mpr ⟨hbinders, hfree⟩⟩
        exact List.mem_map_of_mem (List.mem_flatMap.mpr ⟨c, hc, ho⟩)
    · rintro ⟨_, hmem, rfl, hfree⟩
      obtain ⟨o, hinner, rfl⟩ := List.mem_map.mp hmem
      obtain ⟨c, hc, ho⟩ := List.mem_flatMap.mp hinner
      obtain ⟨hbinders, hfree⟩ := Occurrence.free_within_iff.mp hfree
      exact .inr ⟨⟨c, hc, (ih c hc).mpr ⟨o, ho, rfl, hfree⟩⟩, hbinders⟩

/-- The names around a place are bound in the tree. -/
theorem scope_subset_bound {o : Occurrence} (h : o ∈ e.occurrences) : o.scope ⊆ e.bound := by
  induction e using induction_on_names generalizing o with
  | name m =>
    rw [occurrences_parameter, List.mem_singleton] at h
    simp [h]
  | node e hnode ih =>
    rw [occurrences_node hnode] at h
    obtain ⟨o, hinner, rfl⟩ := List.mem_map.mp h
    obtain ⟨c, hc, ho⟩ := List.mem_flatMap.mp hinner
    intro m hm
    refine mem_bound_iff.mpr ((List.mem_append.mp hm).imp (fun hbinder => ?_) fun hscope => ?_)
    · cases hhead : e.head with
      | lambda ps => exact ⟨ps, rfl, by simpa [hhead, Head.binders] using hbinder⟩
      | _ => simp [hhead, Head.binders] at hbinder
    · exact ⟨c, hc, ih c hc ho hscope⟩

end Expr

/-! ## What a substitution does to the places -/

/-- The places that take the place of one: those of the tree that is put there, or the place itself
if its name is not replaced. -/
def Occurrence.replaced (σ : Substitution) (o : Occurrence) : List Occurrence :=
  match σ.hide o.scope o.name with
  | some a => a.occurrences.map (·.within o.scope)
  | none => [o]

theorem Occurrence.replaced_within (σ : Substitution) (names : List String) (o : Occurrence) :
    (o.within names).replaced σ = (o.replaced (σ.hide names)).map (·.within names) := by
  have hhide : σ.hide (o.within names).scope (o.within names).name =
      (σ.hide names).hide o.scope o.name := by
    rw [σ.hide_hide]
    rfl
  rw [replaced, replaced, hhide]
  cases (σ.hide names).hide o.scope o.name with
  | none => rfl
  | some a =>
    rw [List.map_map]
    exact List.map_congr_left fun q _ => (within_within names o.scope q).symm

namespace Expr

variable {e : Expr} {σ : Substitution}

/-- **The places of the resulting tree** are those of the tree, each replaced where it stands. -/
theorem occurrences_substituteAll (e : Expr) (σ : Substitution) :
    (e.substituteAll σ).occurrences = e.occurrences.flatMap (·.replaced σ) := by
  induction e using induction_on_names generalizing σ with
  | name n =>
    rw [substituteAll_parameter, occurrences_parameter, List.flatMap_singleton]
    simp only [Occurrence.replaced, Substitution.hide_nil]
    cases σ n with
    | none => rfl
    | some a => simp [Occurrence.within]
  | node e hnode ih =>
    have hparts : ∀ c ∈ e.children,
        (c.substituteAll (σ.hide e.head.binders)).occurrences.map (·.within e.head.binders) =
          (c.occurrences.map (·.within e.head.binders)).flatMap (·.replaced σ) := by
      intro c hc
      rw [ih c hc, List.map_flatMap, List.flatMap_map]
      simp only [Occurrence.replaced_within]
    rw [substituteAll_node hnode, occurrences_withChildren hnode (List.length_map ..),
      occurrences_node hnode, List.flatMap_map, List.map_flatMap, List.map_flatMap,
      List.flatMap_assoc]
    exact List.flatMap_congr hparts

/-- A name of a tree that is put in place is bound there. -/
def Captures (e : Expr) (σ : Substitution) : Prop :=
  ∃ o ∈ e.occurrences, ∃ a, σ.hide o.scope o.name = some a ∧ ∃ n ∈ a.free, n ∈ o.scope

/-- Without capture, what a tree that is put in place reads is read by the resulting tree. -/
theorem free_of_not_captures (h : ¬ e.Captures σ) {o q : Occurrence} {a : Expr}
    (ho : o ∈ e.occurrences) (ha : σ.hide o.scope o.name = some a) (hq : q ∈ a.occurrences)
    (hfree : q.Free) :
    q.within o.scope ∈ (e.substituteAll σ).occurrences ∧ (q.within o.scope).Free := by
  constructor
  · rw [occurrences_substituteAll]
    refine List.mem_flatMap.mpr ⟨o, ho, ?_⟩
    rw [Occurrence.replaced, ha]
    exact List.mem_map_of_mem hq
  · refine Occurrence.free_within_iff.mpr ⟨fun hscope => h ?_, hfree⟩
    exact ⟨o, ho, a, ha, q.name, mem_free_iff_occurrences.mpr ⟨q, hq, rfl, hfree⟩, hscope⟩

/-- **What the resulting tree reads:** the names of the tree that are not replaced, and the names of
the trees whose names it reads. -/
theorem mem_free_substituteAll (h : ¬ e.Captures σ) {n : String} :
    n ∈ (e.substituteAll σ).free ↔
      (n ∈ e.free ∧ σ n = none) ∨ ∃ x ∈ e.free, ∃ a, σ x = some a ∧ n ∈ a.free := by
  constructor
  · intro hn
    obtain ⟨p, hp, rfl, hfree⟩ := mem_free_iff_occurrences.mp hn
    rw [occurrences_substituteAll] at hp
    obtain ⟨o, ho, hp⟩ := List.mem_flatMap.mp hp
    rw [Occurrence.replaced] at hp
    cases ha : σ.hide o.scope o.name with
    | none =>
      rw [ha, List.mem_singleton] at hp
      subst hp
      rw [σ.hide_of_notMem hfree] at ha
      exact .inl ⟨mem_free_iff_occurrences.mpr ⟨p, ho, rfl, hfree⟩, ha⟩
    | some a =>
      rw [ha] at hp
      obtain ⟨q, hq, rfl⟩ := List.mem_map.mp hp
      obtain ⟨hunbound, hsome⟩ := σ.hide_eq_some_iff.mp ha
      have hx : o.name ∈ e.free := mem_free_iff_occurrences.mpr ⟨o, ho, rfl, hunbound⟩
      have hqfree : q.Free := (Occurrence.free_within_iff.mp hfree).2
      exact .inr ⟨o.name, hx, a, hsome, mem_free_iff_occurrences.mpr ⟨q, hq, rfl, hqfree⟩⟩
  · rintro (⟨hn, hnone⟩ | ⟨x, hx, a, hsome, hn⟩)
    · obtain ⟨o, ho, rfl, hfree⟩ := mem_free_iff_occurrences.mp hn
      refine mem_free_iff_occurrences.mpr ⟨o, ?_, rfl, hfree⟩
      rw [occurrences_substituteAll]
      refine List.mem_flatMap.mpr ⟨o, ho, ?_⟩
      rw [Occurrence.replaced, σ.hide_of_notMem hfree, hnone]
      exact List.mem_singleton_self o
    · obtain ⟨o, ho, rfl, hfree⟩ := mem_free_iff_occurrences.mp hx
      obtain ⟨q, hq, rfl, hqfree⟩ := mem_free_iff_occurrences.mp hn
      have ha : σ.hide o.scope o.name = some a := σ.hide_eq_some_iff.mpr ⟨hfree, hsome⟩
      obtain ⟨hmem, hkept⟩ := free_of_not_captures h ho ha hq hqfree
      exact mem_free_iff_occurrences.mpr ⟨_, hmem, rfl, hkept⟩

end Expr

end QueryChain
