import QueryChain.Expr.Scope
import QueryChain.Proofs.Expr.Nodes

/-!
# Names in trees

Which names a node reads, binds or takes rows from is decided by its head and its children. Names that
are read are stopped by the lambdas that bind them; names that are bound, and sources, are found in the
heads of a tree alone. From this follows what replacing children does to the names of a tree, and what
a substitution does.

## Main results

* `Expr.mem_free_iff`, `Expr.mem_bound_iff`, `Expr.readsSource_iff`: the names of a node
* `Expr.bound_subset_iff`, `Expr.not_readsSource_iff`: bound names and sources by the heads of a tree
* `Expr.free_subset_of_children`, `Expr.bound_subset_of_children`: the names of nodes with one head
* `Expr.substitute_cases`: what a substitution does at a node
* `Expr.substitute_of_notMem_free`: a name that is not read is replaced without effect
* `Expr.mem_free_of_substitute`: a substitution removes a name and brings in those of the replacement
* `Expr.Everywhere.substitute`: a substitution brings in no other heads
-/

namespace QueryChain

namespace Expr

variable {e : Expr} {n : String}

/-! ## The names of a node -/

/-- A name is read by a tree that is this name, or by a child unless the node binds it. -/
theorem mem_free_iff :
    n ∈ e.free ↔ e.head = .parameter n ∨
      (∃ c ∈ e.children, n ∈ c.free) ∧ ∀ ps, e.head = .lambda ps → n ∉ ps := by
  rw [free_eq]
  cases e with
  | parameter m => simp [freeStep, head, children, eq_comm]
  | lambda ps body => simp [freeStep, head, children]
  | _ => simp [freeStep, head]

/-- A node that binds nothing reads what its children read. -/
theorem free_subset_of_child {c : Expr} (hl : ∀ ps, e.head ≠ .lambda ps) (hc : c ∈ e.children) :
    c.free ⊆ e.free :=
  fun _ hn => mem_free_iff.mpr (.inr ⟨⟨c, hc, hn⟩, fun ps hps => absurd hps (hl ps)⟩)

theorem mem_bound_iff :
    n ∈ e.bound ↔ (∃ ps, e.head = .lambda ps ∧ n ∈ ps) ∨ ∃ c ∈ e.children, n ∈ c.bound := by
  rw [bound_eq]
  cases e <;> simp [boundStep, head]

theorem readsSource_iff :
    e.readsSource ↔ (∃ n, e.head = .source n) ∨ ∃ c ∈ e.children, c.readsSource := by
  rw [readsSource_eq]
  cases e <;> simp [readsSourceStep, head]

/-- A node that is neither a name nor a lambda reads what its children read. -/
theorem free_eq_flatten (hp : ¬ ∃ n, e.head = .parameter n) (hl : ¬ ∃ ps, e.head = .lambda ps) :
    e.free = (e.children.map free).flatten := by
  rw [free_eq]
  cases e with
  | parameter m => exact absurd ⟨m, rfl⟩ hp
  | lambda ps body => exact absurd ⟨ps, rfl⟩ hl
  | _ => rfl

theorem bound_eq_flatten (hl : ¬ ∃ ps, e.head = .lambda ps) :
    e.bound = (e.children.map bound).flatten := by
  rw [bound_eq]
  cases e with
  | lambda ps body => exact absurd ⟨ps, rfl⟩ hl
  | _ => rfl

/-- The bound names are within a set iff the parameters of every lambda are. -/
theorem bound_subset_iff {names : List String} :
    e.bound ⊆ names ↔ e.Everywhere fun h => ∀ ps, h = .lambda ps → ps ⊆ names := by
  induction e using induction_on_children with
  | node e ih =>
    rw [everywhere_iff, ← forall₂_congr ih]
    constructor
    · intro h
      refine ⟨fun ps hps m hm => h (mem_bound_iff.mpr (.inl ⟨ps, hps, hm⟩)), fun c hc m hm => ?_⟩
      exact h (mem_bound_iff.mpr (.inr ⟨c, hc, hm⟩))
    · rintro ⟨hhead, hchildren⟩ m hm
      rcases mem_bound_iff.mp hm with ⟨ps, hps, hm⟩ | ⟨c, hc, hm⟩
      · exact hhead ps hps hm
      · exact hchildren c hc hm

/-- No data source is read iff no head is a source. -/
theorem not_readsSource_iff : ¬ e.readsSource ↔ e.Everywhere fun h => ∀ n, h ≠ .source n := by
  induction e using induction_on_children with
  | node e ih =>
    rw [everywhere_iff, ← forall₂_congr ih, readsSource_iff]
    simp

/-! ## Nodes with one head -/

/-- Of two nodes with one head, the one whose children read more reads more. -/
theorem free_subset_of_children {a b : Expr} (hhead : a.head = b.head)
    (h : List.Forall₂ (fun c d => c.free ⊆ d.free) a.children b.children) : a.free ⊆ b.free := by
  intro m hm
  rcases mem_free_iff.mp hm with hparameter | ⟨⟨c, hc, hm⟩, hnot⟩
  · exact mem_free_iff.mpr (.inl (hhead ▸ hparameter))
  · obtain ⟨d, hd, hcd⟩ := exists_mem_of_forall₂ h hc
    exact mem_free_iff.mpr (.inr ⟨⟨d, hd, hcd hm⟩, hhead ▸ hnot⟩)

theorem bound_subset_of_children {a b : Expr} (hhead : a.head = b.head)
    (h : List.Forall₂ (fun c d => c.bound ⊆ d.bound) a.children b.children) :
    a.bound ⊆ b.bound := by
  intro m hm
  rcases mem_bound_iff.mp hm with ⟨ps, hps, hm⟩ | ⟨c, hc, hm⟩
  · exact mem_bound_iff.mpr (.inl ⟨ps, hhead ▸ hps, hm⟩)
  · obtain ⟨d, hd, hcd⟩ := exists_mem_of_forall₂ h hc
    exact mem_bound_iff.mpr (.inr ⟨d, hd, hcd hm⟩)

/-! ## Substitution -/

variable {name : String} {r : Expr}

/-- A substitution replaces the name, stops at a lambda that binds it, and goes on to the children of
any other node. -/
theorem substitute_cases (e : Expr) (name : String) (r : Expr) :
    (e.head = .parameter name ∧ e.substitute name r = r) ∨
    (∃ ps, e.head = .lambda ps ∧ name ∈ ps ∧ e.substitute name r = e) ∨
    (e.head ≠ .parameter name ∧ (∀ ps, e.head = .lambda ps → name ∉ ps) ∧
      e.substitute name r = e.withChildren (e.children.map (·.substitute name r))) := by
  rw [substitute_eq]
  unfold substituteStep
  split
  · rename_i m
    by_cases hm : m = name
    · exact .inl ⟨by rw [hm]; rfl, if_pos hm⟩
    · exact .inr (.inr ⟨by simpa [head] using hm, by simp [head], if_neg hm⟩)
  · rename_i ps body
    by_cases hps : name ∈ ps
    · exact .inr (.inl ⟨ps, rfl, hps, if_pos hps⟩)
    · exact .inr (.inr ⟨by simp [head], by simpa [head] using hps, if_neg hps⟩)
  · rename_i hparameter hlambda
    refine .inr (.inr ⟨fun h => ?_, fun ps h => ?_, rfl⟩)
    · cases e <;> cases h
      exact absurd rfl (hparameter _)
    · cases e <;> cases h
      exact absurd rfl (hlambda _ _)

/-- **What a substitution reads:** the names of the replacement, and those of the tree without the one
that is replaced. -/
theorem mem_free_of_substitute (h : n ∈ (e.substitute name r).free) :
    n ∈ r.free ∨ n ∈ e.free ∧ n ≠ name := by
  induction e using induction_on_children with
  | node e ih =>
    rcases substitute_cases e name r with ⟨-, hs⟩ | ⟨ps, hps, hname, hs⟩ | ⟨hparameter, -, hs⟩
    · exact .inl (hs ▸ h)
    · rw [hs] at h
      refine .inr ⟨h, ?_⟩
      rintro rfl
      rcases mem_free_iff.mp h with hn | ⟨-, hnot⟩
      · rw [hps] at hn
        cases hn
      · exact hnot ps hps hname
    · have hlen : (e.children.map (·.substitute name r)).length = e.children.length := by simp
      rw [hs, mem_free_iff, head_withChildren e hlen, children_withChildren e hlen] at h
      rcases h with hn | ⟨⟨_, hc, h⟩, hnot⟩
      · refine .inr ⟨mem_free_iff.mpr (.inl hn), ?_⟩
        rintro rfl
        exact hparameter hn
      · obtain ⟨c, hchild, rfl⟩ := List.mem_map.mp hc
        rcases ih c hchild h with hr | ⟨hfree, hne⟩
        · exact .inl hr
        · exact .inr ⟨mem_free_iff.mpr (.inr ⟨⟨c, hchild, hfree⟩, hnot⟩), hne⟩

/-- A name that is not read can be replaced without effect. -/
theorem substitute_of_notMem_free (h : name ∉ e.free) : e.substitute name r = e := by
  induction e using induction_on_children with
  | node e ih =>
    rcases substitute_cases e name r with ⟨hparameter, -⟩ | ⟨-, -, -, hs⟩ | ⟨-, hbinds, hs⟩
    · exact absurd (mem_free_iff.mpr (.inl hparameter)) h
    · exact hs
    · have hsame : ∀ c ∈ e.children, c.substitute name r = c := fun c hc =>
        ih c hc fun hn => h (mem_free_iff.mpr (.inr ⟨⟨c, hc, hn⟩, hbinds⟩))
      rw [hs, List.map_congr_left hsame, List.map_id', withChildren_children]

/-- A substitution brings in no heads but those of the replacement. -/
theorem Everywhere.substitute {p : Head → Prop} (he : e.Everywhere p) (hr : r.Everywhere p)
    (name : String) : (e.substitute name r).Everywhere p := by
  induction e using induction_on_children with
  | node e ih =>
    rcases substitute_cases e name r with ⟨-, hs⟩ | ⟨-, -, -, hs⟩ | ⟨-, -, hs⟩
    · rw [hs]
      exact hr
    · rw [hs]
      exact he
    · have hlen : (e.children.map (·.substitute name r)).length = e.children.length := by simp
      obtain ⟨hhead, hchildren⟩ := everywhere_iff.mp he
      rw [hs, everywhere_iff, head_withChildren e hlen, children_withChildren e hlen]
      exact ⟨hhead, List.forall_mem_map.mpr fun c hc => ih c hc (hchildren c hc)⟩

end Expr

end QueryChain
