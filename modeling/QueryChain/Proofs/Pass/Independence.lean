import QueryChain.Proofs.Pass.Contraction
import QueryChain.Proofs.Pass.Settling

/-!
# Parts that settle on their own

Where the passes have no business with a node, whatever its children become, every round treats the
children one by one. All parts share one count of rounds, and a part that is stable early stays as it
is while the others go on; so the node settles iff each child does, and on the same children.

## Main definitions

* `Expr.Descends`: a transformation acts at the children of a node and not at the node
* `Expr.Inert`: a node that the standard passes leave to its children
* `Call.Canonical`: calls that no pass evaluates, renames or lowers

## Main results

* `Expr.Descends.bind`: one transformation after another
* `settledTree_descends`: passes that act at the children settle the children one by one
* `settledTree_of_inert`: the standard passes at an inert node
* `Call.Canonical.inert`: canonical calls are inert
-/

namespace QueryChain

/-- The transformation acts at the children of the node one by one, whatever they are, and not at the
node itself. -/
def Expr.Descends (f : Expr → Except Stop Expr) (e : Expr) : Prop :=
  ∀ cs, cs.length = e.children.length → ∀ out,
    f (e.withChildren cs) = .ok out ↔
      ∃ ds, List.Forall₂ (fun c d => f c = .ok d) cs ds ∧ out = e.withChildren ds

namespace Expr.Descends

variable {e : Expr}

theorem ok : Descends .ok e := by
  intro cs _ out
  simp only [Except.ok.injEq]
  constructor
  · rintro rfl
    exact ⟨cs, List.forall₂_same.mpr fun _ _ => rfl, rfl⟩
  · rintro ⟨ds, hds, rfl⟩
    rw [List.forall₂_eq_eq_eq] at hds
    rw [hds]

theorem bind {f g : Expr → Except Stop Expr} (hf : Descends f e) (hg : Descends g e) :
    Descends (fun x => f x >>= g) e := by
  intro cs hcs out
  rw [bind_eq_ok_iff]
  constructor
  · rintro ⟨mid, hmid, hout⟩
    obtain ⟨ds, hds, rfl⟩ := (hf cs hcs mid).mp hmid
    have hlen : ds.length = e.children.length := hds.length_eq.symm.trans hcs
    obtain ⟨es, hes, rfl⟩ := (hg ds hlen out).mp hout
    exact ⟨es, forall₂_bind_iff.mpr ⟨ds, hds, hes⟩, rfl⟩
  · rintro ⟨es, hes, rfl⟩
    obtain ⟨ds, hds, hes⟩ := forall₂_bind_iff.mp hes
    have hlen : ds.length = e.children.length := hds.length_eq.symm.trans hcs
    exact ⟨_, (hf cs hcs _).mpr ⟨ds, hds, rfl⟩, (hg ds hlen _).mpr ⟨es, hes, rfl⟩⟩

end Expr.Descends

/-! ## Passes and rounds -/

/-- The tree that a pass leads to. -/
def Pass.result (p : Pass) (e : Expr) : Except Stop Expr :=
  (p.apply e).map (Edit.over e)

/-- The pass acts at the children of the node, and leaves the node alone iff it leaves them alone. -/
structure Pass.Descends (p : Pass) (e : Expr) : Prop where
  result : Expr.Descends p.result e
  leaves : ∀ cs, cs.length = e.children.length →
    (p.Leaves (e.withChildren cs) ↔ ∀ c ∈ cs, p.Leaves c)

/-- The tree that a round leads to. -/
def roundTree (passes : List Pass) (e : Expr) : Except Stop Expr :=
  (runRound passes e).map Round.tree

theorem roundTree_cons (p : Pass) (ps : List Pass) (e : Expr) :
    roundTree (p :: ps) e = p.result e >>= roundTree ps := by
  rw [roundTree, runRound, Pass.result]
  cases p.apply e with
  | error stop => rfl
  | ok edit =>
    cases edit with
    | shared t => rfl
    | changed next =>
      cases hr : runRound ps next <;> simp [Except.map, bind, Except.bind, roundTree, Edit.over, hr]

theorem rounds_succ (passes : List Pass) (n : Nat) (e : Expr) :
    rounds passes (n + 1) e = roundTree passes e >>= rounds passes n := by
  rw [rounds, roundTree]
  cases runRound passes e <;> rfl

variable {passes : List Pass} {e out : Expr}

theorem roundTree_descends (h : ∀ p ∈ passes, p.Descends e) :
    Expr.Descends (roundTree passes) e := by
  induction passes with
  | nil => exact .ok
  | cons p ps ih =>
    obtain ⟨hp, hps⟩ := List.forall_mem_cons.mp h
    rw [funext (roundTree_cons p ps)]
    exact hp.result.bind (ih hps)

theorem rounds_descends (h : ∀ p ∈ passes, p.Descends e) (n : Nat) :
    Expr.Descends (rounds passes n) e := by
  induction n with
  | zero => exact .ok
  | succ n ih =>
    rw [funext (rounds_succ passes n)]
    exact (roundTree_descends h).bind ih

theorem stable_withChildren_iff (h : ∀ p ∈ passes, p.Descends e) {cs : List Expr}
    (hcs : cs.length = e.children.length) :
    Stable passes (e.withChildren cs) ↔ ∀ c ∈ cs, Stable passes c := by
  constructor
  · intro hs c hc p hp
    exact ((h p hp).leaves cs hcs).mp (hs p hp) c hc
  · intro hs p hp
    exact ((h p hp).leaves cs hcs).mpr fun c hc => hs c hc p hp

/-- **Children settle on their own** where every pass acts at the children only. -/
theorem settledTree_descends (h : ∀ p ∈ passes, p.Descends e) :
    Expr.Descends (settledTree passes) e := by
  intro cs hcs out
  -- the rounds are taken in full for every child, so that no child has to know when the others stop
  simp only [settledTree_eq_ok_iff, forall₂_and_right_iff]
  rw [rounds_descends h _ cs hcs out]
  constructor
  · rintro ⟨⟨ds, hds, rfl⟩, hs⟩
    have hlen : ds.length = e.children.length := hds.length_eq.symm.trans hcs
    exact ⟨ds, ⟨hds, (stable_withChildren_iff h hlen).mp hs⟩, rfl⟩
  · rintro ⟨ds, ⟨hds, hs⟩, rfl⟩
    have hlen : ds.length = e.children.length := hds.length_eq.symm.trans hcs
    exact ⟨⟨ds, hds, rfl⟩, (stable_withChildren_iff h hlen).mpr hs⟩

/-! ## Nodes that the standard passes leave to their children -/

theorem Expr.tree_gather_withChildren (e : Expr) {cs : List Expr} {edits : List Edit}
    (hcs : cs.length = e.children.length) (hedits : List.Forall₂ Edit.Keeps cs edits) :
    ((e.withChildren cs).gather edits).tree = e.withChildren (edits.map Edit.tree) := by
  have hlen : (edits.map Edit.tree).length = e.children.length := by
    rw [List.length_map, ← hedits.length_eq, hcs]
  rw [← children_withChildren e hcs] at hedits
  rw [tree_gather _ hedits, withChildren_withChildren e hcs hlen]

/-- Whatever its children are, the node is not evaluated ahead of the query and no rule applies to
it. -/
structure Expr.Inert (e : Expr) : Prop where
  live : ∀ cs, cs.length = e.children.length → ¬ (e.withChildren cs).isFoldable .allowAll
  kept : ∀ cs, cs.length = e.children.length → ∀ rule, Rule.apply rule (e.withChildren cs) = none

theorem Pass.fold_result (filter : EvaluableFilter) (e : Expr) :
    (Pass.fold filter).result e = ((e.fold filter).map Edit.tree).mapError .fault := by
  rw [Pass.result, Pass.fold]
  dsimp only
  cases h : e.fold filter with
  | error err => rfl
  | ok edit => exact congrArg Except.ok (Expr.fold_keeps h).over_eq

theorem Pass.normalize_result (rules : List Rule) (e : Expr) :
    (Pass.normalize rules).result e = .ok (e.normalize rules).tree :=
  congrArg Except.ok (Expr.normalize_keeps rules e).over_eq

theorem Pass.fold_result_eq_ok_iff {filter : EvaluableFilter} :
    (Pass.fold filter).result e = .ok out ↔
      ∃ edit, e.fold filter = .ok edit ∧ edit.tree = out := by
  rw [Pass.fold_result, mapError_eq_ok_iff, map_eq_ok_iff]

namespace Expr.Inert

theorem fold_descends (h : e.Inert) : (Pass.fold .allowAll).Descends e where
  result := by
    intro cs hcs out
    simp only [Pass.fold_result_eq_ok_iff, forall₂_exists_iff]
    rw [fold_eq, if_neg (h.live cs hcs)]
    simp only [mapChildren_eq_ok_iff, children_withChildren e hcs]
    constructor
    · rintro ⟨_, ⟨edits, hedits, rfl⟩, rfl⟩
      exact ⟨_, ⟨edits, hedits, rfl⟩,
        tree_gather_withChildren e hcs (hedits.imp fun _ _ => fold_keeps)⟩
    · rintro ⟨_, ⟨edits, hedits, rfl⟩, rfl⟩
      exact ⟨_, ⟨edits, hedits, rfl⟩,
        tree_gather_withChildren e hcs (hedits.imp fun _ _ => fold_keeps)⟩
  leaves := by
    intro cs hcs
    rw [Pass.fold_leaves_iff, fold_eq, if_neg (h.live cs hcs), mapChildren_eq_shared_iff,
      children_withChildren e hcs]
    exact forall₂_congr fun c _ => exists_congr fun t => Pass.fold_apply_eq_ok_iff.symm

/-- No rule applies to the node once the edits of its children are carried out. -/
theorem tryAll_gather (h : e.Inert) {cs : List Expr} (hcs : cs.length = e.children.length)
    (rules : List Rule) {edits : List Edit} (hedits : List.Forall₂ Edit.Keeps cs edits) :
    Rule.tryAll rules ((e.withChildren cs).gather edits) = (e.withChildren cs).gather edits := by
  have hlen : (edits.map Edit.tree).length = e.children.length := by
    rw [List.length_map, ← hedits.length_eq, hcs]
  induction rules with
  | nil => rfl
  | cons rule rules ih =>
    have hfirst : Rule.tryOn ((e.withChildren cs).gather edits) rule =
        (e.withChildren cs).gather edits := by
      rw [Rule.tryOn, tree_gather_withChildren e hcs hedits, h.kept _ hlen]
    exact (congrArg (Rule.tryAll rules) hfirst).trans ih

theorem normalize_withChildren (h : e.Inert) {cs : List Expr}
    (hcs : cs.length = e.children.length) (rules : List Rule) :
    (e.withChildren cs).normalize rules =
      (e.withChildren cs).gather (cs.map (Expr.normalize rules)) := by
  rw [normalize_eq, children_withChildren e hcs,
    h.tryAll_gather hcs rules (forall₂_keeps_map (normalize_keeps rules) cs)]

theorem normalize_descends (h : e.Inert) (rules : List Rule) :
    (Pass.normalize rules).Descends e where
  result := by
    intro cs hcs out
    simp only [Pass.normalize_result, Except.ok.injEq]
    rw [h.normalize_withChildren hcs,
      tree_gather_withChildren e hcs (forall₂_keeps_map (normalize_keeps rules) cs), List.map_map]
    constructor
    · rintro rfl
      refine ⟨_, List.forall₂_map_right_iff.mpr ?_, rfl⟩
      exact List.forall₂_same.mpr fun _ _ => rfl
    · rintro ⟨ds, hds, rfl⟩
      have hmap : List.Forall₂ (· = ·) (cs.map (Edit.tree ∘ Expr.normalize rules)) ds :=
        List.forall₂_map_left_iff.mpr hds
      rw [List.forall₂_eq_eq_eq] at hmap
      rw [hmap]
  leaves := by
    intro cs hcs
    rw [Pass.normalize_leaves_iff, h.normalize_withChildren hcs, gather_eq_shared_iff,
      List.forall_mem_map]
    refine forall₂_congr fun c _ => ?_
    rw [Pass.normalize_leaves_iff, (normalize_keeps rules c).eq_shared_iff]

theorem standard_descends (h : e.Inert) : ∀ p ∈ Pass.standard, p.Descends e :=
  List.forall_mem_cons.mpr
    ⟨h.fold_descends, List.forall_mem_singleton.mpr (h.normalize_descends Rule.standard)⟩

end Expr.Inert

/-- An inert node settles iff each child does, and then with the settled children. -/
theorem settledTree_of_inert (h : e.Inert) :
    settledTree Pass.standard e = .ok out ↔
      ∃ ds, List.Forall₂ (fun c d => settledTree Pass.standard c = .ok d) e.children ds ∧
        out = e.withChildren ds := by
  have hnode := settledTree_descends h.standard_descends e.children rfl out
  rwa [Expr.withChildren_children] at hnode

/-! ## Canonical calls -/

/-- Calls that no pass evaluates, renames or lowers. -/
structure Call.Canonical (c : Call) : Prop where
  /-- Only calls of builtin functions are evaluated ahead of the query. -/
  live : c.owner ≠ .builtin
  named : c.owner = .queryable → c.method ∉ aliases.map Prod.fst
  /-- A reduction has no predicate to be moved into a filter. -/
  lowered : c.owner = .queryable → c.method ∈ Reduction.all.map Reduction.name →
    c.args.length ≠ 1

theorem Call.Canonical.inert {c : Call} (h : c.Canonical) : c.toExpr.Inert := by
  obtain ⟨o, m, receiver, args⟩ := c
  refine ⟨fun cs hcs hfoldable => ?_, fun cs hcs rule => ?_⟩
  · obtain ⟨q, as, rfl⟩ := List.exists_cons_of_length_eq_add_one hcs
    have hevaluable := (Bool.and_eq_true_iff.mp hfoldable).2
    rw [Expr.isEvaluable_eq] at hevaluable
    simp [Call.toExpr, Expr.withChildren, EvaluableFilter.admits, h.live] at hevaluable
  · obtain ⟨q, as, rfl⟩ := List.exists_cons_of_length_eq_add_one hcs
    rw [Option.eq_none_iff_forall_ne_some]
    intro b hb
    cases Rule.apply_eq_some_iff.mp hb with
    | rename hnamed => exact h.named rfl (Rule.exists_lookup_aliases_iff.mp ⟨_, hnamed⟩)
    | @overload op p l hlambda harity r =>
      have hlen : args.length = 1 := by simpa [Call.toExpr, Expr.children] using hcs.symm
      exact h.lowered rfl (List.mem_map_of_mem (Rule.mem_reductions op)) hlen

end QueryChain
