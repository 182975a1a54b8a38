import QueryChain.Proofs.Compile.Sources

/-!
# The fault that is reported

A chain may have several faults: no operation is found for some of its calls, others become no
clause, and the clauses stand in an order that is not admissible. One of them is reported. The calls
are taken up from the outermost one inwards, and the order of the clauses is checked from the first
one onwards, once all of them have been made. So the fault of the outermost call that is refused
comes first; if no call is refused, it is the first fault in the order of the clauses.

## Main definitions

* `Expr.Applied`: a tree is some calls in turn, applied to a base
* `Registry.Refuses`: the fault of a call that becomes no clause
* `OrderFault`: the fault in the order of clauses, at a position

## Main results

* `Expr.applied_iff`: a tree is calls on a base in one way
* `Registry.chain_eq_error_iff`: the outermost call that is refused
* `Model.checkClauses_eq_error_iff`: the first fault in the order of clauses
* `recognise_determined`: the model of a tree, or the fault that is reported
-/

namespace QueryChain

/-! ## Calls on a base -/

namespace Expr

/-- The tree is the calls, in order of application, applied to the base. -/
inductive Applied (base : Expr) : List Call → Expr → Prop where
  | base : Applied base [] base
  | call {calls : List Call} {c : Call} (h : Applied base calls c.receiver) :
      Applied base (calls ++ [c]) c.toExpr

theorem applied_spine (e : Expr) : e.base.Applied e.spine e := by
  fun_induction base e with
  | case1 o m receiver args ih => exact Applied.call (c := ⟨o, m, receiver, args⟩) ih
  | case2 e hcall =>
    cases e with
    | call o m receiver args => exact absurd rfl (hcall o m receiver args)
    | _ => exact .base

/-- **A tree is calls on a base in one way,** if the base is no call. -/
theorem applied_iff {e b : Expr} {calls : List Call} :
    b.Applied calls e ∧ (∀ c : Call, b ≠ c.toExpr) ↔ b = e.base ∧ calls = e.spine := by
  constructor
  · rintro ⟨happlied, hb⟩
    induction happlied with
    | base =>
      cases b with
      | call o m receiver args => exact absurd rfl (hb ⟨o, m, receiver, args⟩)
      | _ => exact ⟨rfl, rfl⟩
    | @call calls c _ ih =>
      obtain ⟨hbase, hcalls⟩ := ih
      exact ⟨hbase, congrArg (· ++ [c]) hcalls⟩
  · rintro ⟨rfl, rfl⟩
    exact ⟨e.applied_spine, e.base_ne_toExpr⟩

end Expr

/-! ## Calls that are refused -/

namespace Registry

variable {r : Registry} {err : CompileError}

/-- The fault of a call that becomes no clause: no operation is found for it, or the one that is
found refuses it. -/
inductive Refuses (r : Registry) (c : Call) : CompileError → Prop where
  | unsupported (h : r.lookup c = none) : r.Refuses c (.unsupported (.of c))
  | refused {op : Operation} {err : CompileError} (hop : r.lookup c = some op)
      (h : op.clause c (argumentModel c (r.models c.args)) = .error err) : r.Refuses c err

/-- A call is taken up before the calls that it is applied to. -/
theorem chain_call_eq_error_iff {c : Call} :
    r.chain c.toExpr = .error err ↔
      r.Refuses c err ∨ (∃ k, r.MakesClause c k) ∧ r.chain c.receiver = .error err := by
  cases hop : r.lookup c with
  | none =>
    rw [chain_of_lookup_eq_none hop]
    constructor
    · intro h
      cases h
      exact .inl (.unsupported hop)
    · rintro (hrefuses | ⟨⟨k, op, hop', -⟩, -⟩)
      · cases hrefuses with
        | unsupported => rfl
        | refused hop' => cases hop.symm.trans hop'
      · cases hop.symm.trans hop'
  | some op =>
    have hmakes : ∀ k, op.clause c (argumentModel c (r.models c.args)) = .ok k ↔
        r.MakesClause c k := by
      simp [MakesClause, hop]
    have hrefuses : op.clause c (argumentModel c (r.models c.args)) = .error err ↔
        r.Refuses c err := by
      constructor
      · exact .refused hop
      · rintro (hop' | ⟨hop', h⟩)
        · cases hop.symm.trans hop'
        · cases hop.symm.trans hop'
          exact h
    rw [chain_of_lookup_eq_some hop, bind_eq_error_iff, hrefuses]
    simp [hmakes, bind_eq_error_iff, pure, Except.pure]

/-- **The outermost call that is refused** gives the fault of a chain: the calls that come after it
in order of application all become clauses. -/
theorem chain_eq_error_iff {e : Expr} :
    r.chain e = .error err ↔ ∃ before c after, e.spine = before ++ c :: after ∧
      r.Refuses c err ∧ ∀ d ∈ after, ∃ k, r.MakesClause d k := by
  induction e using Expr.induction_on_children with
  | node e ih =>
    cases e with
    | call o name receiver args =>
      refine (chain_call_eq_error_iff (c := ⟨o, name, receiver, args⟩)).trans ?_
      rw [ih receiver List.mem_cons_self, Expr.spine]
      generalize (⟨o, name, receiver, args⟩ : Call) = last
      constructor
      · rintro (hlast | ⟨hlast, before, c, after, hspine, hc, hafter⟩)
        · exact ⟨receiver.spine, last, [], rfl, hlast, List.forall_mem_nil _⟩
        · refine ⟨before, c, after ++ [last], ?_, hc, ?_⟩
          · rw [hspine, List.append_assoc, List.cons_append]
          · exact List.forall_mem_append.mpr ⟨hafter, List.forall_mem_singleton.mpr hlast⟩
      · rintro ⟨before, c, after, hspine, hc, hafter⟩
        rcases List.eq_nil_or_concat after with rfl | ⟨after, d, rfl⟩
        · obtain ⟨-, hlast⟩ := List.append_inj' hspine rfl
          cases hlast
          exact .inl hc
        · rw [List.concat_eq_append] at hspine hafter
          obtain ⟨hbetween, hd⟩ := List.forall_mem_append.mp hafter
          rw [← List.cons_append, ← List.append_assoc] at hspine
          obtain ⟨hinner, hlast⟩ := List.append_inj' hspine rfl
          cases hlast
          exact .inr ⟨hd last List.mem_cons_self, before, c, after, hinner, hc, hbetween⟩
    | _ => simp [chain, Expr.spine]

end Registry

/-! ## The order of clauses -/

/-- The clause before a position, where another clause may stand before all of them. -/
def clauseBefore (previous : Option Clause) (clauses : List Clause) : Nat → Option Clause
  | 0 => previous
  | i + 1 => clauses[i]?

/-- The fault in the order of clauses at a position: a terminal clause that another one follows, or a
refinement that does not directly follow an ordering. -/
inductive OrderFault (previous : Option Clause) (clauses : List Clause) (i : Nat) :
    CompileError → Prop where
  | terminal {c next : Clause} (hc : clauses[i]? = some c) (hterminal : c.terminal?.isSome)
      (hnext : clauses[i + 1]? = some next) :
      OrderFault previous clauses i (.misplacedTerminal c.name next.name)
  | unordered {c : Clause} (hc : clauses[i]? = some c) (hrefines : c.isRefinement)
      (hbefore : ∀ d, clauseBefore previous clauses i = some d → ¬ d.isOrdering) :
      OrderFault previous clauses i .unorderedThenBy

/-- A clause that refines an ordering is not terminal. -/
theorem Clause.terminal_of_isRefinement {c : Clause} (h : c.isRefinement) : c.terminal? = none := by
  cases c with
  | orderBy => rfl
  | _ => cases h

namespace Model

variable {previous : Option Clause} {c : Clause} {clauses rest : List Clause} {i : Nat}
  {err : CompileError}

/-- A fault of a later clause is one of the rest, with the first clause before it. -/
theorem orderFault_succ_iff :
    OrderFault previous (c :: rest) (i + 1) err ↔ OrderFault (some c) rest i err := by
  have hbefore : clauseBefore previous (c :: rest) (i + 1) = clauseBefore (some c) rest i := by
    cases i <;> rfl
  constructor
  · rintro (⟨hc, hterminal, hnext⟩ | ⟨hc, hrefines, hunordered⟩)
    · exact .terminal hc hterminal hnext
    · exact .unordered hc hrefines (hbefore ▸ hunordered)
  · rintro (⟨hc, hterminal, hnext⟩ | ⟨hc, hrefines, hunordered⟩)
    · exact .terminal hc hterminal hnext
    · exact .unordered hc hrefines (hbefore ▸ hunordered)

/-- The check stops at a clause that has a fault. -/
theorem checkClauses_of_orderFault (h : OrderFault previous (c :: rest) 0 err) :
    checkClauses previous (c :: rest) = .error err := by
  rw [checkClauses.eq_def]
  cases h with
  | @terminal _ next hc hterminal hnext =>
    cases hc
    obtain ⟨kind, hkind⟩ := Option.isSome_iff_exists.mp hterminal
    cases rest with
    | nil => cases hnext
    | cons _ after =>
      cases hnext
      simp only [hkind]
  | unordered hc hrefines hbefore =>
    cases hc
    have hunordered : previous.any Clause.isOrdering = false := by
      cases previous with
      | none => rfl
      | some d => exact Bool.eq_false_iff.mpr (hbefore d rfl)
    simp [Clause.terminal_of_isRefinement hrefines, hrefines, hunordered]

/-- The check goes on with the rest after a clause that has none. -/
theorem checkClauses_of_not_orderFault (h : ∀ err, ¬ OrderFault previous (c :: rest) 0 err) :
    checkClauses previous (c :: rest) = checkClauses (some c) rest := by
  rw [checkClauses.eq_def]
  dsimp only
  split
  · rename_i kind next after hterminal
    exact absurd (.terminal rfl (Option.isSome_of_eq_some hterminal) rfl) (h _)
  · refine if_neg fun hrefines => ?_
    obtain ⟨hrefines, hunordered⟩ := Bool.and_eq_true_iff.mp hrefines
    refine h _ (.unordered rfl hrefines fun d hd hordering => ?_)
    obtain rfl : previous = some d := hd
    simp [hordering] at hunordered

/-- **The first fault** in the order of clauses is the one that the check finds. -/
theorem checkClauses_eq_error_iff :
    checkClauses previous clauses = .error err ↔
      ∃ i, OrderFault previous clauses i err ∧
        ∀ j < i, ∀ err', ¬ OrderFault previous clauses j err' := by
  -- induction on the clauses; the clause before the rest is the one just checked
  induction clauses generalizing previous with
  | nil =>
    constructor
    · nofun
    · rintro ⟨i, hfault, -⟩
      cases hfault with
      | terminal hc | unordered hc => cases hc
  | cons c rest ih =>
    by_cases hzero : ∃ fault, OrderFault previous (c :: rest) 0 fault
    · obtain ⟨fault, hfault⟩ := hzero
      rw [checkClauses_of_orderFault hfault]
      constructor
      · intro h
        cases h
        exact ⟨0, hfault, nofun⟩
      · rintro ⟨i, hi, hfirst⟩
        cases i with
        | zero => rw [← checkClauses_of_orderFault hfault, checkClauses_of_orderFault hi]
        | succ i => exact absurd hfault (hfirst 0 (by omega) fault)
    · have hnone := not_exists.mp hzero
      rw [checkClauses_of_not_orderFault hnone, ih]
      constructor
      · rintro ⟨i, hi, hfirst⟩
        refine ⟨i + 1, orderFault_succ_iff.mpr hi, fun j hj err' h => ?_⟩
        cases j with
        | zero => exact hnone err' h
        | succ j => exact hfirst j (by omega) err' (orderFault_succ_iff.mp h)
      · rintro ⟨i, hi, hfirst⟩
        cases i with
        | zero => exact absurd hi (hnone err)
        | succ i =>
          refine ⟨i, orderFault_succ_iff.mp hi, fun j hj err' h => ?_⟩
          exact hfirst (j + 1) (by omega) err' (orderFault_succ_iff.mpr h)

end Model

/-- **The model of a tree, or the fault that is reported.** Every tree is calls in turn on a base
that is no call, in one way. It is recognised iff each call becomes a clause and these are in an
admissible order; they are the clauses of the model, and its source is the base. Otherwise the fault
is that of the outermost call that is refused. If no call is refused, it is the first fault in the
order of the clauses. -/
theorem recognise_determined (r : Registry) (e : Expr) :
    (∀ b calls, b.Applied calls e ∧ (∀ c : Call, b ≠ c.toExpr) ↔ b = e.base ∧ calls = e.spine) ∧
    (∀ m, r.recognise e = .ok m ↔ m.source = e.base.toSource ∧
      List.Forall₂ r.MakesClause e.spine m.clauses ∧ Admissible m.clauses) ∧
    ∀ err, r.recognise e = .error err ↔
      (∃ before c after, e.spine = before ++ c :: after ∧ r.Refuses c err ∧
        ∀ d ∈ after, ∃ k, r.MakesClause d k) ∨
      ∃ clauses, List.Forall₂ r.MakesClause e.spine clauses ∧
        ∃ i, OrderFault none clauses i err ∧ ∀ j < i, ∀ err', ¬ OrderFault none clauses j err' := by
  refine ⟨fun b calls => Expr.applied_iff, fun m => ?_, fun err => ?_⟩
  · rw [Registry.recognise_eq_ok_iff, Registry.chain_eq_ok_iff]
    constructor
    · rintro ⟨⟨hsource, hclauses⟩, hadmissible⟩
      exact ⟨hsource, hclauses, hadmissible⟩
    · rintro ⟨hsource, hclauses, hadmissible⟩
      exact ⟨⟨hsource, hclauses⟩, hadmissible⟩
  · change r.chain e >>= Model.validate = .error err ↔ _
    rw [bind_eq_error_iff, Registry.chain_eq_error_iff]
    refine or_congr_right ?_
    constructor
    · rintro ⟨m, hm, hfault⟩
      exact ⟨m.clauses, (Registry.chain_eq_ok_iff.mp hm).clauses,
        Model.checkClauses_eq_error_iff.mp (map_eq_error_iff.mp hfault)⟩
    · rintro ⟨clauses, hclauses, hfault⟩
      exact ⟨⟨e.base.toSource, clauses⟩, Registry.chain_eq_ok_iff.mpr ⟨rfl, hclauses⟩,
        map_eq_error_iff.mpr (Model.checkClauses_eq_error_iff.mpr hfault)⟩

section SeveralFaults

-- the names of the calls are compared by the kernel
set_option maxRecDepth 4096

/-- `users.first().then_by(u => u.age)` with a further call in between. -/
def firstThenBy (between : String) : Expr :=
  .call .queryable "then_by"
    (.call .queryable between (.call .queryable "first" (.source "users") []) [])
    [.lambda ["u"] (.member (.parameter "u") "age")]

-- a call that is refused comes before the faults in the order, and of these the first one counts
example : ∃ c, Compiler.build [] Pass.standard = .ok c ∧
    c.registry.recognise (firstThenBy "shuffle") =
      .error (.unsupported (.of ⟨.queryable, "shuffle",
        .call .queryable "first" (.source "users") [], []⟩)) ∧
    c.registry.recognise (firstThenBy "distinct") = .error (.misplacedTerminal "first" "distinct") :=
  ⟨_, rfl, rfl, rfl⟩

end SeveralFaults

end QueryChain
