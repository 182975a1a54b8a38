import QueryChain.Proofs.Eval.Finite
import QueryChain.Proofs.Pass.Bound
import QueryChain.Proofs.Pass.Rounds

/-!
# Passes and finite numbers

The passes put values in place of trees, and a value is sure to be written and read again only if its
numbers are finite. The numbers of a tree stay finite from round to round, as long as no round folds a
conversion that reads another number from a text.

## Main results

* `Expr.sweep_isFinite`: one round
* `Enters.isFinite`: all rounds
* `numbers_stay_finite`: evaluation and the standard passes
* `convert_tooLarge`: a text that is read as an infinite number
-/

namespace QueryChain

/-! ## Rounds -/

/-- A round keeps the numbers of a tree finite, unless a conversion reads another one. -/
theorem Expr.sweep_isFinite {e out : Expr} (h : e.isFinite) (hreads : ¬ e.ReadsUnbounded)
    (hout : e.sweep = .ok out) : out.isFinite := by
  have hparts := mt (exists_subtree_not_isFinite_iff h).mp hreads
  rw [isFinite_iff_everywhere] at h ⊢
  refine sweep_everywhere (fun _ => rfl) (fun _ _ => rfl) (fun a ha v hv => ?_) h hout
  by_contra hinfinite
  exact hparts ⟨a, ha, v, hv, Bool.eq_false_iff.mpr hinfinite⟩

theorem RoundGives.sweep_eq {e out : Expr} {names : List String}
    (h : RoundGives Pass.standard e names out) : e.sweep = .ok out := by
  rw [← roundTree_standard_eq_ok_iff, roundTree, runRound_eq_ok_iff.mpr ⟨names, h, rfl⟩]
  rfl

/-- The numbers of every tree that enters a round are finite, unless a conversion has read another one
in a round before it. -/
theorem Enters.isFinite {e t : Expr} {n : Nat} (ht : Enters Pass.standard e n t) (h : e.isFinite)
    (hreads : ∀ m < n, ∀ u, Enters Pass.standard e m u → ¬ u.ReadsUnbounded) : t.isFinite := by
  induction ht with
  | first => exact h
  | later round changed rest ih =>
    have hround := hreads 1 (Nat.succ_lt_succ rest.pos) _ (.first _)
    refine ih (Expr.sweep_isFinite h hround round.sweep_eq) fun m hm u hu => ?_
    exact hreads (m + 1) (Nat.succ_lt_succ hm) u (.later round changed hu)

/-- The rounds bring in no conversions. -/
theorem Enters.everywhere_not_convert {e t : Expr} {n : Nat} {k : Kind}
    (ht : Enters Pass.standard e n t) (h : e.Everywhere (· ≠ .convert k)) :
    t.Everywhere (· ≠ .convert k) := by
  induction ht with
  | first => exact h
  | later round changed rest ih =>
    refine ih (Expr.sweep_everywhere ?_ ?_ ?_ h round.sweep_eq)
    · exact fun _ => nofun
    · exact fun _ _ => nofun
    · exact fun _ _ _ _ => nofun

theorem Expr.not_readsUnbounded_of_everywhere {e : Expr} (h : e.Everywhere (· ≠ .convert .float)) :
    ¬ e.ReadsUnbounded := by
  rintro ⟨x, k, v, n, hx, -, ⟨s, -, rfl, -⟩, -⟩
  exact h _ hx rfl

theorem settle_standard_isFinite {e : Expr} {s : Settled} (hs : settle Pass.standard e = .ok s)
    (h : e.isFinite)
    (hreads : ∀ n < s.rounds, ∀ t, Enters Pass.standard e n t → ¬ t.ReadsUnbounded) {v : Value}
    (hv : .constant v ∈ s.edit.tree.subtrees) : v.isFinite := by
  obtain ⟨-, henters, -⟩ := settle_eq_ok_iff.mp hs
  have hfinite := henters.isFinite h hreads
  exact Expr.isFinite_iff_everywhere.mp hfinite _ hv

/-- **Numbers stay finite, unless another one is read.** Let all numbers in the constants of a tree be
finite. If its evaluation ends in a value, all numbers in the value are finite, unless a conversion of
the tree reads a number that is not; and some part of the tree has a value with such a number iff there
is such a conversion. Every constant of the tree that the standard passes settle on is written and read
again without loss, by any form that keeps finite numbers, unless there is such a conversion in the tree
that enters one of the rounds before the last. In a tree without conversions to numbers there is none, in
any round. -/
theorem numbers_stay_finite {form : NumberForm} (hform : form.KeepsFinite) {e : Expr}
    (h : e.isFinite) :
    (∀ v, e.evaluate = .ok v → v.isFinite ∨ e.ReadsUnbounded) ∧
    ((∃ a ∈ e.subtrees, ∃ v, a.evaluate = .ok v ∧ v.isFinite = false) ↔ e.ReadsUnbounded) ∧
    (∀ s, settle Pass.standard e = .ok s →
      (∀ v, .constant v ∈ s.edit.tree.subtrees →
          v.isFinite ∧ Value.decode form (v.encode form) = some v) ∨
        ∃ n < s.rounds, ∃ t, Enters Pass.standard e n t ∧ t.ReadsUnbounded) ∧
    (e.Everywhere (· ≠ .convert .float) →
      (∀ v, e.evaluate = .ok v → v.isFinite) ∧
      ∀ s, settle Pass.standard e = .ok s →
        ∀ v, .constant v ∈ s.edit.tree.subtrees →
          v.isFinite ∧ Value.decode form (v.encode form) = some v) := by
  refine ⟨fun v hv => ?_, Expr.exists_subtree_not_isFinite_iff h, fun s hs => ?_, fun hnone => ⟨?_, ?_⟩⟩
  · by_cases hreads : e.ReadsUnbounded
    · exact .inr hreads
    · exact .inl (Expr.evaluate_isFinite h hreads hv)
  · by_cases hreads : ∃ n < s.rounds, ∃ t, Enters Pass.standard e n t ∧ t.ReadsUnbounded
    · exact .inr hreads
    · refine .inl fun v hv => ?_
      have hfinite := settle_standard_isFinite hs h
        (fun n hn t ht htreads => hreads ⟨n, hn, t, ht, htreads⟩) hv
      exact ⟨hfinite, Value.decode_encode hform hfinite⟩
  · intro v hv
    exact Expr.evaluate_isFinite h (Expr.not_readsUnbounded_of_everywhere hnone) hv
  · intro s hs v hv
    have hfinite := settle_standard_isFinite hs h
      (fun n _ t ht => Expr.not_readsUnbounded_of_everywhere (ht.everywhere_not_convert hnone)) hv
    exact ⟨hfinite, Value.decode_encode hform hfinite⟩

/-- `abs(-0.5) + len("ab")`. -/
def halfAbove : Expr :=
  .binary .add (.call .builtin "abs" (.unary .negate (.constant (.float 0.5))) [])
    (.call .builtin "len" (.constant (.text "ab")) [])

theorem numbers_stay_finite_halfAbove :
    NumberForm.leaves.KeepsFinite ∧ halfAbove.isFinite ∧
      (∃ v, halfAbove.evaluate = .ok v ∧ v.isFinite) ∧
      ∃ s v, settle Pass.standard halfAbove = .ok s ∧ s.edit.tree = .constant v ∧
        Value.decode .leaves (v.encode .leaves) = some v := by
  have hfinite : halfAbove.isFinite := by decide
  have hnone : halfAbove.Everywhere (· ≠ .convert .float) := by
    simp [Expr.Everywhere, halfAbove, Expr.subtrees, Expr.bottomUp, Expr.bottomUpItems, Expr.head]
  have hform := NumberForm.leaves_keepsFinite
  obtain ⟨hvalue, hsettled⟩ := (numbers_stay_finite hform hfinite).2.2.2 hnone
  refine ⟨hform, hfinite, ⟨_, rfl, hvalue _ rfl⟩, _, _, rfl, rfl, (hsettled _ rfl _ ?_).2⟩
  exact Expr.self_mem_subtrees _

/-- `convert("1e400", float)`: the number is too large for the format. -/
def tooLarge : Expr :=
  .convert (.constant (.text "1e400")) .float

/-- **A number that is too large is read as an infinite one**, and the constant that takes its place is
not read again, if nothing is read of what is written of such a number. -/
theorem convert_tooLarge :
    tooLarge.isFinite ∧ NumberForm.leaves.DropsOthers ∧ ∃ v s, tooLarge.evaluate = .ok v ∧
      v.isFinite = false ∧ settle Pass.standard tooLarge = .ok s ∧ s.edit.tree = .constant v ∧
      ∀ form : NumberForm, form.DropsOthers → Value.decode form (v.encode form) = none := by
  refine ⟨rfl, NumberForm.leaves_dropsOthers, _, _, rfl, rfl, rfl, rfl, fun form hform => ?_⟩
  exact Value.decode_encode_eq_none hform rfl

end QueryChain
