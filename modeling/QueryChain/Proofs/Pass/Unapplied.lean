import QueryChain.Proofs.Pass.Bound

/-!
# Trees without applications

Without applications there is little for the passes to do again. One normalization leaves a
canonical tree; it never makes a tree evaluable that was not so before, unless it takes a quote
away. A round therefore ends with a normal tree if there was no quote, and quotes are gone after the
first round. The round that finds the tree normal is counted as well, so that two rounds are enough
for a tree without quotes, and three for any other one. Nor does the order matter in which the rules
are tried: a node whose children are canonical becomes only one canonical tree.

## Main definitions

* `Head.Direct`: heads that are neither applications nor quotes

## Main results

* `Expr.normalized_noFoldable`: normalization leaves nothing to be evaluated
* `Expr.sweep_isNormal_of_direct`: a round makes a tree without quotes and applications normal
* `settle_standard_unapplied`: one normalization, and at most three rounds
* `Expr.tree_normalize_congr`, `normalize_reordered`: the rules may be tried in any order
-/

namespace QueryChain

/-- A head that is neither an application nor a quote. -/
def Head.Direct (h : Head) : Prop :=
  h ≠ .invoke ∧ h ≠ .quote

namespace Expr

variable {e out : Expr}

theorem Everywhere.unapplied (h : e.Everywhere Head.Direct) : e.Everywhere (· ≠ .invoke) :=
  fun x hx => (h x hx).1

/-- **Normalization leaves nothing to be evaluated** if nothing was so before, and no quote or
application stood in the way. -/
theorem normalized_noFoldable (h : e.Everywhere Head.Direct) (hlive : e.NoFoldable) :
    e.normalized.NoFoldable ∧
      (e.normalized.isEvaluable .allowAll → e.isEvaluable .allowAll) := by
  -- that no child has become evaluable keeps the node above it from becoming so
  induction e using induction_on_children with
  | node e ih =>
    have hbecomes : Rule.Becomes (e.withChildren (e.children.map normalized)) e.normalized :=
      (normalize_isCanonical Rule.mem_standard h.unapplied).2
    obtain ⟨hroot, hbelow⟩ := everywhere_iff.mp h
    obtain ⟨hfoldable, hlive⟩ := noFoldable_iff.mp hlive
    have hparts := fun c hc => ih c hc (hbelow c hc) (hlive c hc)
    have hlen : (e.children.map normalized).length = e.children.length := List.length_map ..
    have hcs : List.Forall₂ (fun c d => d.isEvaluable .allowAll → c.isEvaluable .allowAll)
        e.children (e.children.map normalized) :=
      List.forall₂_map_right_iff.mpr (List.forall₂_same.mpr fun c hc => (hparts c hc).2)
    constructor
    · refine hbecomes.noFoldable ?_
        (not_isFoldable_withChildren EvaluableFilter.byName_allowAll hcs hfoldable)
      rw [children_withChildren e hlen]
      exact List.forall_mem_map.mpr fun c hc => (hparts c hc).1
    · intro hout
      refine (evaluable_isCongruence EvaluableFilter.byName_allowAll).node e hcs ?_
      rcases hbecomes with hsame | ⟨rule, hrule, hb⟩
      · exact hsame ▸ hout
      · refine hb.isEvaluable_of hrule ?_ hout
        rw [head_withChildren e hlen]
        exact hroot.2

/-- **A round makes a tree normal** that holds neither quotes nor applications. -/
theorem sweep_isNormal_of_direct (h : e.Everywhere Head.Direct) (hout : e.sweep = .ok out) :
    out.IsNormal := by
  obtain ⟨edit, hedit, rfl⟩ := map_eq_ok_iff.mp hout
  have hlive := fold_noFoldable EvaluableFilter.byName_allowAll hedit
  have hfolded : edit.tree.Everywhere Head.Direct :=
    ((free_isCongruence.within Head.Direct).fold
      (fun _ _ _ _ _ => ⟨everywhere_iff.mpr ⟨⟨nofun, nofun⟩, nofun⟩, nofun⟩) hedit h).1
  exact isNormal_iff_isCanonical.mpr
    ⟨(normalize_isCanonical Rule.mem_standard hfolded.unapplied).1,
      (normalized_noFoldable hfolded hlive).1⟩

end Expr

/-- Without quotes and applications, a tree is normal after one round, and the second one finds that
out. -/
theorem rounds_le_two {e : Expr} {s : Settled} (h : settle Pass.standard e = .ok s)
    (hdirect : e.Everywhere Head.Direct) : s.rounds ≤ 2 := by
  obtain ⟨hr, -⟩ := settledTree_eq_ok_iff.mp (settledTree_of_settle h)
  obtain ⟨first, hfirst, -⟩ := exists_rounds_of_le (m := 1) (by decide) hr
  obtain ⟨start, hstart, hsweep⟩ := rounds_succ_eq_ok_iff.mp hfirst
  cases hstart
  have hnormal := Expr.sweep_isNormal_of_direct hdirect (roundTree_standard_eq_ok_iff.mp hsweep)
  obtain ⟨s', hs', hle⟩ := settle_rounds_le (by decide) hfirst (stable_standard_iff.mpr hnormal)
  cases h.symm.trans hs'
  exact hle

/-- **Trees without applications settle at once.** One normalization leaves a tree that a second one
leaves alone. The standard passes settle within three rounds, and within two if there is no quote, or
else an evaluation fails; they are never given up. -/
theorem settle_standard_unapplied {e : Expr} (hnone : e.Everywhere (· ≠ .invoke)) :
    (∃ edit, (Pass.normalize Rule.standard).apply e = .ok edit ∧
      (Pass.normalize Rule.standard).apply edit.tree = .ok (.shared edit.tree)) ∧
    ((∃ s, settle Pass.standard e = .ok s ∧ s.rounds ≤ 3 ∧
        (e.Everywhere (· ≠ .quote) → s.rounds ≤ 2)) ∨
      ∃ x cause, settle Pass.standard e = .error (.fault (.evaluation x cause))) := by
  have hcanonical := (Expr.normalize_isCanonical Rule.mem_standard hnone).1
  refine ⟨⟨_, rfl, congrArg Except.ok (hcanonical.normalize_eq_shared Rule.standard)⟩, ?_⟩
  cases h : settle Pass.standard e with
  | ok s =>
    refine .inl ⟨s, rfl, rounds_le_three h hnone, fun hquote => rounds_le_two h fun x hx => ?_⟩
    exact ⟨hnone x hx, hquote x hx⟩
  | error stop =>
    rcases settle_standard_eq_error h with ⟨x, cause, rfl⟩ | ⟨pass, rfl⟩
    · exact .inr ⟨x, cause, rfl⟩
    · exact absurd hnone (RunsOut.exists_invoke ⟨pass, maxRounds, h⟩)

section AgeLimit

-- rounds of both passes are run by the kernel
set_option maxRecDepth 4096

/-- `row.age > 10 + extra`. -/
def ageOver (extra : Expr) : Expr :=
  .binary .gt (.member (.parameter "row") "age") (.binary .add (.constant (.int 10)) extra)

/-- The bounds are reached: a quote hides the sum from the first evaluation. -/
theorem settle_standard_unapplied_ageOver :
    (∃ s, settle Pass.standard (ageOver (.quote (.constant (.int 8)))) = .ok s ∧
      s.rounds ≤ 3 ∧ ¬ s.rounds ≤ 2) ∧
    ∃ s, settle Pass.standard (ageOver (.constant (.int 8))) = .ok s ∧ s.rounds ≤ 2 ∧
      ¬ s.rounds ≤ 1 := by
  have hquoted : (ageOver (.quote (.constant (.int 8)))).Everywhere (· ≠ .invoke) := by
    simp [Expr.Everywhere, ageOver, Expr.subtrees, Expr.bottomUp, Expr.head]
  have hplain : (ageOver (.constant (.int 8))).Everywhere (· ≠ .invoke) := by
    simp [Expr.Everywhere, ageOver, Expr.subtrees, Expr.bottomUp, Expr.head]
  have hunquoted : (ageOver (.constant (.int 8))).Everywhere (· ≠ .quote) := by
    simp [Expr.Everywhere, ageOver, Expr.subtrees, Expr.bottomUp, Expr.head]
  constructor
  · rcases (settle_standard_unapplied hquoted).2 with ⟨s, hs, hle, -⟩ | ⟨x, cause, hs⟩
    · refine ⟨s, hs, hle, ?_⟩
      cases hs
      decide
    · cases hs
  · rcases (settle_standard_unapplied hplain).2 with ⟨s, hs, -, hle⟩ | ⟨x, cause, hs⟩
    · refine ⟨s, hs, hle hunquoted, ?_⟩
      cases hs
      decide
    · cases hs

end AgeLimit

/-! ## The order of the rules -/

/-- Two lists of all rules normalize a tree alike: from the leaves upwards, each node becomes the one
canonical tree that it can become. -/
theorem Expr.tree_normalize_congr {rules rules' : List Rule} (hall : ∀ rule, rule ∈ rules)
    (hall' : ∀ rule, rule ∈ rules') {e : Expr} (h : e.Everywhere (· ≠ .invoke)) :
    (e.normalize rules).tree = (e.normalize rules').tree := by
  induction e using induction_on_children with
  | node e ih =>
    obtain ⟨hcanonical, hbecomes⟩ := normalize_isCanonical hall h
    obtain ⟨hcanonical', hbecomes'⟩ := normalize_isCanonical hall' h
    have hchildren : (e.children.map fun c => (c.normalize rules).tree) =
        e.children.map fun c => (c.normalize rules').tree :=
      List.map_congr_left fun c hc => ih c hc ((everywhere_iff.mp h).2 c hc)
    rw [hchildren] at hbecomes
    exact hbecomes'.unique hcanonical' hbecomes hcanonical

/-- **The rules may be tried in any order** on a tree without applications: the same tree comes out,
and the tree is reported as a new one or as the same one alike. -/
theorem normalize_reordered {rules : List Rule} (hrules : rules.Perm Rule.standard) {e : Expr}
    (hnone : e.Everywhere (· ≠ .invoke)) :
    (Pass.normalize rules).apply e = (Pass.normalize Rule.standard).apply e := by
  have hall : ∀ rule, rule ∈ rules := fun rule => hrules.mem_iff.mpr (Rule.mem_standard rule)
  have htree := Expr.tree_normalize_congr hall Rule.mem_standard hnone
  have hflag : (e.normalize rules).isChanged = false ↔
      (e.normalize Rule.standard).isChanged = false := by
    rw [← (Expr.normalize_keeps rules e).eq_shared_iff,
      ← (Expr.normalize_keeps Rule.standard e).eq_shared_iff, Expr.normalize_eq_shared_iff,
      Expr.normalize_eq_shared_iff]
    simp only [hall, Rule.mem_standard, true_imp_iff]
  refine congrArg Except.ok (Edit.ext_tree htree ?_)
  rwa [← Bool.not_inj_iff, Bool.eq_iff_iff, Bool.not_eq_true', Bool.not_eq_true']

section Reversed

-- the names of the calls are compared by the kernel
set_option maxRecDepth 4096

/-- `users.where(quote u => u.active as any).count(u => !(18 == u.age))`. -/
def countOtherActive : Expr :=
  .call .queryable "count" (.call .queryable "where" (.source "users")
    [.quote (.lambda ["u"] (.convert (.member (.parameter "u") "active") .any))])
    [.lambda ["u"] (.unary .not (.binary .eq (.constant (.int 18)) (.member (.parameter "u") "age")))]

/-- The rules apply at six nodes of the tree, one rule at each. -/
theorem normalize_reordered_countOtherActive :
    Rule.standard.reverse ≠ Rule.standard ∧
    (Pass.normalize Rule.standard.reverse).apply countOtherActive =
      (Pass.normalize Rule.standard).apply countOtherActive ∧
    (Pass.normalize Rule.standard).apply countOtherActive = .ok (.changed
      (.call .queryable "count" (.call .queryable "filter" (.call .queryable "filter"
        (.source "users") [.lambda ["u"] (.member (.parameter "u") "active")])
        [.lambda ["u"] (.binary .ne (.member (.parameter "u") "age") (.constant (.int 18)))]) [])) := by
  have hnone : countOtherActive.Everywhere (· ≠ .invoke) := by
    simp [Expr.Everywhere, countOtherActive, Expr.subtrees, Expr.bottomUp, Expr.bottomUpItems, Expr.head]
  exact ⟨by decide, normalize_reordered (List.reverse_perm _) hnone, rfl⟩

/-- `(x => x == row.age)(5)`. -/
def appliedToFive : Expr :=
  .invoke (.lambda ["x"] (.binary .eq (.parameter "x") (.member (.parameter "row") "age")))
    [.constant (.int 5)]

-- once an application is opened, a rule that was tried before comes too late
example :
    (appliedToFive.normalize Rule.standard).tree =
      .binary .eq (.member (.parameter "row") "age") (.constant (.int 5)) ∧
    (appliedToFive.normalize Rule.standard.reverse).tree =
      .binary .eq (.constant (.int 5)) (.member (.parameter "row") "age") :=
  ⟨rfl, rfl⟩

end Reversed

end QueryChain
