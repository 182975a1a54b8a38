import QueryChain.Pass.Pipeline
import QueryChain.Proofs.Expr.Nodes

/-!
# Settling by passes

Rounds of passes end at the first tree that every pass leaves alone. A round that changes nothing
can be repeated without effect, so the settled tree is also the tree after the greatest number of
rounds: what the passes do to a tree can be said without the loop that stops them early.

## Main definitions

* `Pass.Leaves`, `Stable`: a pass, and every pass, leaves the tree alone
* `Edit.over`: the tree to go on with after a pass
* `rounds`: the tree after a number of rounds
* `settledTree`: the tree that the passes settle on

## Main results

* `settledTree_eq_ok_iff`: a tree settles iff it is stable after the greatest number of rounds
* `settle_of_stable`: a stable tree comes back itself after one round
* `Expr.fold_keeps`, `Expr.normalize_keeps`: a tree that is left alone is the answer
* `Expr.IsCongruence.settledTree`: the settled tree is related to the tree, if each rule relates a
  node to its replacement and folding relates an evaluable tree to its value
-/

namespace QueryChain

variable {passes : List Pass} {e out : Expr}

/-- The pass answers without a new tree. -/
def Pass.Leaves (p : Pass) (e : Expr) : Prop :=
  ∃ t, p.apply e = .ok (.shared t)

/-- The tree after a pass: the new one, or the tree that the pass was run on. -/
def Edit.over (e : Expr) : Edit → Expr
  | shared _ => e
  | changed next => next

/-- Every pass leaves the tree alone. -/
def Stable (passes : List Pass) (e : Expr) : Prop :=
  ∀ p ∈ passes, p.Leaves e

/-- A round changes nothing iff the tree is stable. -/
theorem runRound_none_iff {tree : Expr} :
    runRound passes e = .ok ⟨tree, none⟩ ↔ tree = e ∧ Stable passes e := by
  induction passes with
  | nil =>
    simp only [runRound, Except.ok.injEq, Round.mk.injEq, and_true, Stable, List.not_mem_nil,
      false_imp_iff, implies_true]
    exact eq_comm
  | cons p ps ih =>
    rw [runRound, Stable, List.forall_mem_cons, Pass.Leaves]
    cases hp : p.apply e with
    | error stop => simp
    | ok edit =>
      cases edit with
      | shared t => simpa [Stable] using ih
      | changed next =>
        cases hr : runRound ps next <;> simp [hr]

theorem runRound_of_stable (h : Stable passes e) : runRound passes e = .ok ⟨e, none⟩ :=
  runRound_none_iff.mpr ⟨rfl, h⟩

/-- The tree after a number of rounds, whether they change it or not. -/
def rounds (passes : List Pass) : Nat → Expr → Except Stop Expr
  | 0, e => .ok e
  | n + 1, e => runRound passes e >>= fun r => rounds passes n r.tree

theorem rounds_of_stable (h : Stable passes e) (n : Nat) : rounds passes n e = .ok e := by
  induction n with
  | zero => rfl
  | succ n ih =>
    rw [rounds, runRound_of_stable h]
    exact ih

theorem settleFrom_eq_ok {left done : Nat} {edit : Edit} {last : String} {s : Settled}
    (h : settleFrom passes (left + 1) done edit last = .ok s) :
    rounds passes left edit.tree = .ok s.edit.tree ∧ Stable passes s.edit.tree := by
  induction left generalizing done edit last with
  | zero =>
    rw [settleFrom] at h
    split at h
    · cases h
    · rename_i hr
      cases h
      exact ⟨rfl, (runRound_none_iff.mp hr).2⟩
    · cases h
  | succ left ih =>
    rw [settleFrom] at h
    split at h
    · cases h
    · rename_i hr
      cases h
      -- the loop ends early; the rounds that it saves would have changed nothing
      have hs := (runRound_none_iff.mp hr).2
      exact ⟨rounds_of_stable hs _, hs⟩
    · rename_i tree pass hr
      rw [rounds, hr]
      exact ih h

theorem settleFrom_of_rounds {left : Nat} {edit : Edit}
    (h : rounds passes left edit.tree = .ok out) (hs : Stable passes out) (done : Nat)
    (last : String) :
    ∃ s, settleFrom passes (left + 1) done edit last = .ok s ∧ s.edit.tree = out := by
  induction left generalizing done edit last with
  | zero =>
    cases h
    refine ⟨⟨edit, done + 1⟩, ?_, rfl⟩
    rw [settleFrom, runRound_of_stable hs]
  | succ left ih =>
    obtain ⟨⟨tree, lastChange⟩, hr, h⟩ := bind_eq_ok_iff.mp h
    cases lastChange with
    | none =>
      obtain ⟨rfl, hstable⟩ := runRound_none_iff.mp hr
      rw [rounds_of_stable hstable] at h
      refine ⟨⟨edit, done + 1⟩, ?_, Except.ok.inj h⟩
      rw [settleFrom, hr]
    | some pass =>
      have h : rounds passes left (Edit.changed tree).tree = .ok out := h
      obtain ⟨s, hs, hout⟩ := ih h (done + 1) pass
      refine ⟨s, ?_, hout⟩
      rw [settleFrom, hr]
      exact hs

/-- The tree that the passes settle on. -/
def settledTree (passes : List Pass) (e : Expr) : Except Stop Expr :=
  (settle passes e).map fun s => s.edit.tree

/-- **The settled tree** is the tree after the greatest number of rounds, if it is stable. -/
theorem settledTree_eq_ok_iff :
    settledTree passes e = .ok out ↔
      rounds passes (maxRounds - 1) e = .ok out ∧ Stable passes out := by
  rw [settledTree, map_eq_ok_iff]
  constructor
  · rintro ⟨s, hs, rfl⟩
    exact settleFrom_eq_ok hs
  · rintro ⟨hr, hs⟩
    exact settleFrom_of_rounds hr hs 0 ""

theorem settledTree_of_settle {s : Settled} (h : settle passes e = .ok s) :
    settledTree passes e = .ok s.edit.tree :=
  map_eq_ok_iff.mpr ⟨s, h, rfl⟩

/-- A stable tree comes back itself after one round. -/
theorem settle_of_stable (h : Stable passes e) : settle passes e = .ok ⟨.shared e, 1⟩ := by
  have hr : runRound passes (Edit.shared e).tree = .ok ⟨e, none⟩ := runRound_of_stable h
  rw [settle, maxRounds, settleFrom, hr]

theorem Pass.fold_apply_eq_ok_iff {filter : EvaluableFilter} {edit : Edit} :
    (Pass.fold filter).apply e = .ok edit ↔ e.fold filter = .ok edit := by
  simp only [Pass.fold]
  cases e.fold filter <;> simp

/-! ## Answers of the passes -/

theorem Edit.Keeps.over_eq {edit : Edit} (h : edit.Keeps e) : edit.over e = edit.tree := by
  cases edit with
  | shared t => exact Eq.symm h
  | changed t => rfl

/-- Partial evaluation answers with the tree itself, unless it replaces something. -/
theorem Expr.fold_keeps {filter : EvaluableFilter} {edit : Edit} (h : e.fold filter = .ok edit) :
    edit.Keeps e := by
  rw [fold_eq] at h
  split at h
  · rw [toConstant] at h
    split at h
    · cases h
      exact trivial
    · cases h
  · obtain ⟨edits, -, rfl⟩ := mapChildren_eq_ok_iff.mp h
    exact gather_keeps e edits

theorem Rule.tryAll_keeps {rules : List Rule} {edit : Edit} (h : edit.Keeps e) :
    (tryAll rules edit).Keeps e := by
  induction rules generalizing edit with
  | nil => exact h
  | cons rule rules ih =>
    have hfirst : (tryOn edit rule).Keeps e := by
      unfold tryOn
      split
      · exact trivial
      · exact h
    exact ih hfirst

/-- Normalization answers with the tree itself, unless it replaces something. -/
theorem Expr.normalize_keeps (rules : List Rule) (e : Expr) : (e.normalize rules).Keeps e := by
  rw [normalize_eq]
  exact Rule.tryAll_keeps (gather_keeps e _)

theorem Pass.fold_leaves_iff {filter : EvaluableFilter} :
    (Pass.fold filter).Leaves e ↔ e.fold filter = .ok (.shared e) := by
  simp only [Leaves, fold_apply_eq_ok_iff]
  constructor
  · rintro ⟨t, ht⟩
    rw [ht, show t = e from Expr.fold_keeps ht]
  · exact fun h => ⟨e, h⟩

theorem Pass.normalize_leaves_iff {rules : List Rule} :
    (Pass.normalize rules).Leaves e ↔ e.normalize rules = .shared e := by
  rw [(Expr.normalize_keeps rules e).eq_shared_iff, ← Edit.exists_shared_iff]
  exact exists_congr fun t => ⟨Except.ok.inj, congrArg Except.ok⟩

/-! ## Relations that the passes respect -/

/-- A transitive relation that every pass respects relates a tree to every later one. -/
theorem runRound_relates {R : Expr → Expr → Prop} (refl : ∀ e, R e e)
    (trans : ∀ {a b c}, R a b → R b c → R a c)
    (hpass : ∀ p ∈ passes, ∀ e next, p.apply e = .ok (.changed next) → R e next) {r : Round}
    (h : runRound passes e = .ok r) : R e r.tree := by
  induction passes generalizing e r with
  | nil =>
    cases h
    exact refl e
  | cons p ps ih =>
    have hrest := fun q hq => hpass q (List.mem_cons_of_mem p hq)
    rw [runRound] at h
    split at h
    · cases h
    · exact ih hrest h
    · rename_i next hp
      split at h
      · cases h
      · rename_i r' hr
        cases h
        have hnext : R next r'.tree := ih hrest hr
        exact trans (hpass p List.mem_cons_self e _ hp) hnext

theorem rounds_relates {R : Expr → Expr → Prop} (refl : ∀ e, R e e)
    (trans : ∀ {a b c}, R a b → R b c → R a c)
    (hpass : ∀ p ∈ passes, ∀ e next, p.apply e = .ok (.changed next) → R e next) {n : Nat}
    (h : rounds passes n e = .ok out) : R e out := by
  induction n generalizing e with
  | zero =>
    cases h
    exact refl _
  | succ n ih =>
    obtain ⟨r, hr, h⟩ := bind_eq_ok_iff.mp h
    exact trans (runRound_relates refl trans hpass hr) (ih h)

namespace Expr.IsCongruence

variable {R : Expr → Expr → Prop}

theorem tryAll (hR : IsCongruence R) {rules : List Rule}
    (hrule : ∀ rule ∈ rules, ∀ a b, rule.apply a = some b → R a b) (edit : Edit) :
    R edit.tree (Rule.tryAll rules edit).tree := by
  induction rules generalizing edit with
  | nil => exact hR.refl _
  | cons rule rules ih =>
    have hrest := ih fun r hr => hrule r (List.mem_cons_of_mem rule hr)
    have hfirst : R edit.tree (Rule.tryOn edit rule).tree := by
      unfold Rule.tryOn
      split
      · exact hrule rule List.mem_cons_self _ _ ‹_›
      · exact hR.refl _
    exact hR.trans hfirst (hrest (Rule.tryOn edit rule))

/-- Normalization relates a tree to its result, if each rule relates a node to its replacement. -/
theorem normalize (hR : IsCongruence R) {rules : List Rule}
    (hrule : ∀ rule ∈ rules, ∀ a b, rule.apply a = some b → R a b) (e : Expr) :
    R e (e.normalize rules).tree := by
  induction e using induction_on_children with
  | node e ih =>
    rw [normalize_eq]
    have hchildren : R e (e.gather (e.children.map (Expr.normalize rules))).tree := by
      rw [tree_gather_map e (normalize_keeps rules)]
      refine hR.node e (List.forall₂_map_right_iff.mpr ?_)
      exact List.forall₂_same.mpr ih
    exact hR.trans hchildren (hR.tryAll hrule _)

theorem normalize_apply (hR : IsCongruence R) {rules : List Rule}
    (hrule : ∀ rule ∈ rules, ∀ a b, rule.apply a = some b → R a b) {e next : Expr}
    (h : (Pass.normalize rules).apply e = .ok (.changed next)) : R e next := by
  have hnext : e.normalize rules = .changed next := Except.ok.inj h
  have hnormalize : R e (e.normalize rules).tree := hR.normalize hrule e
  rwa [hnext] at hnormalize

/-- Partial evaluation relates a tree to its result, if the evaluable trees in it are related to their
values. -/
theorem fold_of_subtrees (hR : IsCongruence R) {filter : EvaluableFilter} {e : Expr} {edit : Edit}
    (hvalue : ∀ a ∈ e.subtrees, ∀ v, a.isFoldable filter → a.evaluate = .ok v → R a (constant v))
    (h : e.fold filter = .ok edit) : R e edit.tree := by
  induction e using induction_on_children generalizing edit with
  | node e ih =>
    obtain ⟨hroot, hbelow⟩ := forall_mem_subtrees.mp hvalue
    rw [fold_eq] at h
    split at h
    · rename_i hfoldable
      rw [toConstant] at h
      split at h
      · rename_i v hv
        cases h
        exact hroot v hfoldable hv
      · cases h
    · obtain ⟨edits, hedits, rfl⟩ := mapChildren_eq_ok_iff.mp h
      have hparts : ∀ c ∈ e.children, ∀ {edit}, c.fold filter = .ok edit → R c edit.tree :=
        fun c hc => ih c hc (hbelow c hc)
      rw [tree_gather e (hedits.imp fun _ _ => fold_keeps)]
      refine hR.node e (List.forall₂_map_right_iff.mpr ?_)
      exact ((List.forall₂_and_left _ _).mpr ⟨hparts, hedits⟩).imp fun _ _ hc => hc.1 hc.2

/-- Partial evaluation relates a tree to its result, if an evaluable tree is related to its
value. -/
theorem fold (hR : IsCongruence R) {filter : EvaluableFilter}
    (hvalue : ∀ a v, a.isFoldable filter → a.evaluate = .ok v → R a (constant v)) {e : Expr}
    {edit : Edit} (h : e.fold filter = .ok edit) : R e edit.tree :=
  hR.fold_of_subtrees (fun a _ => hvalue a) h

/-- The standard passes relate a tree to the tree that they settle on. -/
theorem settledTree (hR : IsCongruence R) (hrule : ∀ rule a b, Rule.apply rule a = some b → R a b)
    (hvalue : ∀ a v, a.isFoldable .allowAll → a.evaluate = .ok v → R a (constant v))
    {e out : Expr} (h : settledTree Pass.standard e = .ok out) : R e out := by
  refine rounds_relates hR.refl hR.trans (fun p hp e next he => ?_)
    (settledTree_eq_ok_iff.mp h).1
  rcases List.mem_pair.mp hp with rfl | rfl
  · exact hR.fold hvalue (Pass.fold_apply_eq_ok_iff.mp he)
  · exact hR.normalize_apply (fun rule _ => hrule rule) he

end Expr.IsCongruence

end QueryChain
