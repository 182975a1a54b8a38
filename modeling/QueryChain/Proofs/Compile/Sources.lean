import QueryChain.Proofs.Compile.Support
import QueryChain.Proofs.Compile.WellFormed

/-!
# Where the rows come from

A tree is recognised along its spine: the calls that are applied one after the other, down to the
first node that is no call. Every call of the spine is made a clause, and the node at the bottom is
taken for the source as it is. The operations on two sequences start over with their argument. So the
sources of a model and of all models within it are the bottoms of the sequences of the tree, and a call
that belongs to a query and is not recognised can only stand below such a bottom.

## Main definitions

* `Expr.spine`, `Expr.base`: the calls of a chain, and what they are applied to
* `Expr.holdsQuery`: a call that belongs to a query stands in the tree, outside lambdas
* `Registry.MakesClause`: the clause of a call
* `Registry.Sequence`: the sequences that are recognised for a tree

## Main results

* `Registry.chain_eq_ok_iff`: every call of the spine becomes a clause, and the bottom the source
* `Registry.within_of_sequence`, `Registry.sequence_of_within`: one model for each sequence
* `compile_sources`: the sources of all models, and when they hold calls that are not recognised
-/

namespace QueryChain

/-! ## The spine of a tree -/

namespace Expr

/-- The calls of a chain, in order of application. -/
def spine : Expr → List Call
  | call o m receiver args => spine receiver ++ [⟨o, m, receiver, args⟩]
  | _ => []

/-- What the first call of a chain is applied to. -/
def base : Expr → Expr
  | call _ _ receiver _ => base receiver
  | e => e

/-- The source that a tree is, at the bottom of a chain. -/
def toSource : Expr → QuerySource
  | source n => .named n
  | e => .inline e

theorem base_ne_toExpr (e : Expr) (c : Call) : e.base ≠ c.toExpr := by
  fun_induction base e with
  | case1 _ _ _ _ ih => exact ih
  | case2 e hcall => exact hcall c.owner c.method c.receiver c.args

theorem toSource_eq_inline_iff {e x : Expr} :
    e.toSource = .inline x ↔ x = e ∧ ∀ n, e ≠ .source n := by
  cases e with
  | source n => simp [toSource]
  | _ => simp [toSource, eq_comm]

/-- Whether a call that belongs to a query stands at the node or in its children. -/
def holdsQueryStep (e : Expr) (inner : List Bool) : Bool :=
  match e with
  | lambda _ _ => false
  | call o _ _ _ => o.isQuery || inner.any id
  | _ => inner.any id

/-- Whether a call that belongs to a query stands in the tree, outside lambdas. -/
def holdsQuery : Expr → Bool :=
  bottomUp holdsQueryStep

end Expr

/-! ## Chains -/

theorem forall₂_concat_left_iff {α β : Type} {R : α → β → Prop} {xs : List α} {x : α}
    {zs : List β} :
    List.Forall₂ R (xs ++ [x]) zs ↔ ∃ ys y, List.Forall₂ R xs ys ∧ R x y ∧ zs = ys ++ [y] := by
  constructor
  · intro h
    induction xs generalizing zs with
    | nil =>
      cases h with
      | cons hy hrest =>
        cases hrest
        exact ⟨[], _, .nil, hy, rfl⟩
    | cons w xs ih =>
      cases h with
      | cons hw hrest =>
        obtain ⟨ys, y, hys, hy, rfl⟩ := ih hrest
        exact ⟨_ :: ys, y, .cons hw hys, hy, rfl⟩
  · rintro ⟨ys, y, hys, hy, rfl⟩
    exact List.rel_append hys (.cons hy .nil)

namespace Registry

variable {r : Registry}

/-- The clause that a call becomes, if an operation is found for it. -/
def MakesClause (r : Registry) (c : Call) (k : Clause) : Prop :=
  ∃ op, r.lookup c = some op ∧ op.clause c (argumentModel c (r.models c.args)) = .ok k

/-- The calls of the tree are peeled off as the clauses of the model, and leave its source. -/
structure Peels (r : Registry) (e : Expr) (m : Model) : Prop where
  source : m.source = e.base.toSource
  clauses : List.Forall₂ r.MakesClause e.spine m.clauses

/-- **Every call of the spine becomes a clause, and the bottom becomes the source.** -/
theorem chain_eq_ok_iff {e : Expr} {m : Model} : r.chain e = .ok m ↔ r.Peels e m := by
  induction e using Expr.induction_on_children generalizing m with
  | node e ih =>
    obtain ⟨source, clauses⟩ := m
    cases e with
    | call o name receiver args =>
      have hreceiver : ∀ {inner}, r.chain receiver = .ok inner ↔ r.Peels receiver inner :=
        ih receiver List.mem_cons_self
      refine (chain_call_eq_ok_iff (c := ⟨o, name, receiver, args⟩)).trans ?_
      constructor
      · rintro ⟨op, k, inner, hop, hk, hinner, hm⟩
        cases hm
        obtain ⟨hsource, hclauses⟩ := hreceiver.mp hinner
        exact ⟨hsource, forall₂_concat_left_iff.mpr ⟨_, k, hclauses, ⟨op, hop, hk⟩, rfl⟩⟩
      · rintro ⟨hsource, hclauses⟩
        obtain ⟨ks, k, hks, ⟨op, hop, hk⟩, rfl⟩ := forall₂_concat_left_iff.mp hclauses
        exact ⟨op, k, ⟨source, ks⟩, hop, hk, hreceiver.mpr ⟨hsource, hks⟩, rfl⟩
    | _ =>
      constructor
      · intro hm
        cases hm
        exact ⟨rfl, .nil⟩
      · rintro ⟨hsource, hclauses⟩
        cases hsource
        cases hclauses
        rfl

/-- The sequences that are recognised for a tree: the tree itself, and the arguments that operations on
two sequences take. -/
inductive Sequence (r : Registry) (root : Expr) : Expr → Prop where
  | root : r.Sequence root root
  | argument {t a : Expr} {c : Call} {op : Operation} (ht : r.Sequence root t) (hc : c ∈ t.spine)
      (hop : r.lookup c = some op) (htakes : op.takesSequence) (ha : c.args[0]? = some a) :
      r.Sequence root a

theorem Sequence.trans {e s t : Expr} (hs : r.Sequence e s) (ht : r.Sequence s t) :
    r.Sequence e t := by
  induction ht with
  | root => exact hs
  | argument _ hc hop htakes ha ih => exact .argument ih hc hop htakes ha

end Registry

/-- An operation makes a clause with a model within iff it takes a sequence. -/
theorem Operation.clause_operand_isSome {op : Operation} {c : Call}
    {models : Nat → Except CompileError Model} {k : Clause} (h : op.clause c models = .ok k) :
    k.operand?.isSome = op.takesSequence := by
  cases clause_makes h <;> rfl

theorem Model.Within.trans {l m n : Model} (hl : l.Within m) (hm : m.Within n) : l.Within n := by
  induction hm with
  | self => exact hl
  | operand hc hinner _ ih => exact .operand hc hinner ih

namespace Registry

variable {r : Registry} {e : Expr} {m : Model}

theorem peels_of_recognise (h : r.recognise e = .ok m) : r.Peels e m :=
  chain_eq_ok_iff.mp (recognise_eq_ok_iff.mp h).1

/-- A model within that of a tree is the model of one of its sequences. -/
theorem sequence_of_within (h : r.recognise e = .ok m) {n : Model} (hn : n.Within m) :
    ∃ t, r.Sequence e t ∧ r.recognise t = .ok n := by
  induction hn generalizing e with
  | self => exact ⟨e, .root, h⟩
  | operand hk hinner _ ih =>
    have hclauses := (peels_of_recognise h).clauses
    obtain ⟨c, hc, op, hop, hclause⟩ := exists_mem_of_forall₂ hclauses.flip hk
    obtain ⟨a, ha, hrecognised⟩ :=
      argumentModel_eq_ok_iff.mp (Operation.clause_operand hclause hinner).1
    have htakes : op.takesSequence := by
      rw [← Operation.clause_operand_isSome hclause, hinner]
      rfl
    obtain ⟨t, ht, hmodel⟩ := ih hrecognised
    exact ⟨t, Sequence.trans (.argument .root hc hop htakes ha) ht, hmodel⟩

/-- Every sequence of a tree that is recognised has a model, within that of the tree. -/
theorem within_of_sequence (h : r.recognise e = .ok m) {t : Expr} (ht : r.Sequence e t) :
    ∃ n, n.Within m ∧ r.recognise t = .ok n := by
  induction ht with
  | root => exact ⟨m, .self m, h⟩
  | @argument t a c op _ hc hop htakes ha ih =>
    obtain ⟨n, hn, hmodel⟩ := ih
    have hclauses := (peels_of_recognise hmodel).clauses
    obtain ⟨k, hk, op', hop', hclause⟩ := exists_mem_of_forall₂ hclauses hc
    cases hop.symm.trans hop'
    obtain ⟨inner, hinner⟩ : ∃ inner, k.operand? = some inner := by
      rw [← Option.isSome_iff_exists, Operation.clause_operand_isSome hclause, htakes]
    obtain ⟨a', ha', hrecognised⟩ :=
      argumentModel_eq_ok_iff.mp (Operation.clause_operand hclause hinner).1
    cases ha.symm.trans ha'
    exact ⟨inner, (Model.Within.operand hk hinner (.self inner)).trans hn, hrecognised⟩

end Registry

/-- **The sources of a model.** If a tree is compiled, it settles on a tree whose sequences and the
models within the result answer to each other. Every call of a sequence has been made one clause of its
model, and the source of the model is the bottom of the sequence, which is no call. Hence no model takes
its rows from a tree that holds a call of a query outside lambdas iff no bottom of a sequence does. -/
theorem compile_sources {c : Compiler} {e : Expr} {m : Model} (h : c.compile e = .ok m) :
    ∃ out, settledTree c.passes e = .ok out ∧
      (∀ n : Model, n.Within m → ∃ t, c.registry.Sequence out t ∧ c.registry.Peels t n) ∧
      (∀ t, c.registry.Sequence out t → ∃ n : Model, n.Within m ∧ c.registry.Peels t n) ∧
      (∀ n : Model, n.Within m → ∀ x, n.source = .inline x → ∀ call : Call, x ≠ call.toExpr) ∧
      ((∀ n : Model, n.Within m → ∀ x, n.source = .inline x → ¬ x.holdsQuery) ↔
        ∀ t, c.registry.Sequence out t → ¬ t.base.holdsQuery) := by
  obtain ⟨out, hout, hm⟩ := Compiler.compile_eq_ok_iff.mp h
  have hsequence : ∀ n : Model, n.Within m → ∃ t, c.registry.Sequence out t ∧
      c.registry.Peels t n := by
    intro n hn
    obtain ⟨t, ht, hmodel⟩ := Registry.sequence_of_within hm hn
    exact ⟨t, ht, Registry.peels_of_recognise hmodel⟩
  have hwithin : ∀ t, c.registry.Sequence out t → ∃ n : Model, n.Within m ∧
      c.registry.Peels t n := by
    intro t ht
    obtain ⟨n, hn, hmodel⟩ := Registry.within_of_sequence hm ht
    exact ⟨n, hn, Registry.peels_of_recognise hmodel⟩
  have hinline : ∀ n : Model, n.Within m → ∀ x, n.source = .inline x →
      ∃ t, c.registry.Sequence out t ∧ x = t.base := by
    intro n hn x hx
    obtain ⟨t, ht, hpeels⟩ := hsequence n hn
    exact ⟨t, ht, (Expr.toSource_eq_inline_iff.mp (hpeels.source.symm.trans hx)).1⟩
  refine ⟨out, hout, hsequence, hwithin, fun n hn x hx call => ?_, fun hfree t ht hquery => ?_,
    fun hfree n hn x hx => ?_⟩
  · obtain ⟨t, _, rfl⟩ := hinline n hn x hx
    exact t.base_ne_toExpr call
  · have hlive : ∀ name, t.base ≠ .source name := by
      intro name hname
      rw [hname] at hquery
      cases hquery
    obtain ⟨n, hn, hpeels⟩ := hwithin t ht
    have hsource := hpeels.source.trans (Expr.toSource_eq_inline_iff.mpr ⟨rfl, hlive⟩)
    exact hfree n hn t.base hsource hquery
  · obtain ⟨t, ht, rfl⟩ := hinline n hn x hx
    exact hfree t ht

section Shuffled

-- the rounds of all passes are run by the kernel
set_option maxRecDepth 4096

/-- `[users.shuffle()].distinct()`. -/
def distinctShuffled : Expr :=
  .call .queryable "distinct" (.list [.call .queryable "shuffle" (.source "users") []]) []

/-- `admins.union([users.shuffle()].distinct())`. -/
def adminsAndShuffled : Expr :=
  .call .queryable "union" (.source "admins") [distinctShuffled]

/-- The model of `distinctShuffled`. -/
def distinctShuffledModel : Model :=
  ⟨.inline (.list [.call .queryable "shuffle" (.source "users") []]), [.distinct]⟩

theorem compile_sources_adminsAndShuffled :
    ∃ c m, Compiler.build [] Pass.standard = .ok c ∧ c.compile adminsAndShuffled = .ok m ∧
      distinctShuffledModel.Within m ∧
        ∃ out, settledTree c.passes adminsAndShuffled = .ok out ∧
          (∃ t, c.registry.Sequence out t ∧ c.registry.Peels t distinctShuffledModel) ∧
          ∃ t, c.registry.Sequence out t ∧ t.base.holdsQuery := by
  have hbuild : ∃ c, Compiler.build [] Pass.standard = .ok c := ⟨_, rfl⟩
  obtain ⟨c, hc⟩ := hbuild
  have hm : c.compile adminsAndShuffled =
      .ok ⟨.named "admins", [.setOp .union distinctShuffledModel]⟩ := by
    cases hc
    rfl
  have hwithin : distinctShuffledModel.Within
      ⟨.named "admins", [.setOp .union distinctShuffledModel]⟩ :=
    .operand List.mem_cons_self rfl (.self _)
  obtain ⟨out, hout, hsequence, _, _, hiff⟩ := compile_sources hm
  refine ⟨c, _, hc, hm, hwithin, out, hout, hsequence _ hwithin, ?_⟩
  by_contra hnone
  have hfree := hiff.mpr fun t ht hquery => hnone ⟨t, ht, hquery⟩
  exact hfree _ hwithin _ rfl rfl

/-- No operation is found for `users.shuffle()`, and yet the list that holds this call is a source. -/
theorem compile_inline_holdsQuery :
    ∃ c m x, Compiler.build [] Pass.standard = .ok c ∧ c.compile distinctShuffled = .ok m ∧
      m.source = .inline x ∧ x.holdsQuery ∧
      c.registry.lookup ⟨.queryable, "shuffle", .source "users", []⟩ = none :=
  ⟨_, distinctShuffledModel, _, rfl, rfl, rfl, rfl, rfl⟩

end Shuffled

end QueryChain
