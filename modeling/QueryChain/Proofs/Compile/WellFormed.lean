import Mathlib.Data.List.Induction
import QueryChain.Proofs.Compile.Clauses
import QueryChain.Proofs.Compile.Recognition

/-!
# Well-formed models

Whatever a registry recognises calls as, and whatever passes come before, the models that come out are
well formed at every depth: the operations check their operands, the order of clauses is checked once
more, and the models within clauses were themselves recognised.

## Main definitions

* `Model.WellFormed`: the clauses of a model are in order and their operands fit
* `Model.Within`: a model and the models within its clauses, at every depth

## Main results

* `Clause.terminal?_eq_some_iff`, `Clause.terminal?_isSome_iff`: the terminal clauses
* `Admissible.grounded`: refinements go back to a primary ordering
* `Registry.chain_sound`: the clauses of a chain, and all models within them
* `compile_wellFormed`: compiled models are well formed at every depth
-/

namespace QueryChain

namespace Model

/-- The clauses are in an admissible order and their operands are what they are taken for. -/
structure WellFormed (m : Model) : Prop where
  /-- Nothing follows a terminal clause, and a refinement directly follows an ordering. -/
  admissible : Admissible m.clauses
  /-- A terminal clause says what the query does. -/
  kind_terminal : ∀ c ∈ m.clauses, ∀ kind, c.terminal? = some kind → m.kind = kind
  /-- Without a terminal clause the query yields rows. -/
  kind_rows : (∀ c ∈ m.clauses, c.terminal? = none) → m.kind = .select
  /-- From a refinement back there are refinements only, up to a primary ordering. -/
  grounded : ∀ before c after, m.clauses = before ++ c :: after → c.isRefinement →
    ∃ earlier key direction run, before = earlier ++ .orderBy key direction true :: run ∧
      ∀ d ∈ run, d.isRefinement
  /-- Rows are combined with rows. -/
  operands : ∀ c ∈ m.clauses, ∀ inner, c.operand? = some inner → inner.kind = .select
  fits : ∀ c ∈ m.clauses, c.Fits

/-- The model itself and, recursively, the models within its clauses. -/
inductive Within : Model → Model → Prop where
  | self (m : Model) : Within m m
  | operand {n m inner : Model} {c : Clause} (hc : c ∈ m.clauses)
      (hinner : c.operand? = some inner) (h : Within n inner) : Within n m

end Model

/-! ## The order of clauses -/

/-- **The terminal clauses** are reductions, deletions and updates, and each makes a query of its own
kind. -/
theorem Clause.terminal?_eq_some_iff {c : Clause} {kind : QueryKind} :
    c.terminal? = some kind ↔
      (∃ op, c = .result op) ∧ kind = .scalar ∨ (∃ filter, c = .delete filter) ∧ kind = .delete ∨
        (∃ assignments, c = .update assignments) ∧ kind = .update := by
  cases c <;> simp [terminal?, eq_comm]

/-- No other clause is terminal. -/
theorem Clause.terminal?_isSome_iff {c : Clause} :
    c.terminal?.isSome ↔
      (∃ op, c = .result op) ∨ (∃ filter, c = .delete filter) ∨
        ∃ assignments, c = .update assignments := by
  rw [Option.isSome_iff_exists]
  simp only [terminal?_eq_some_iff, exists_or, exists_and_left, exists_eq, and_true]

/-- Going back from a refinement one reaches a primary ordering. -/
theorem Admissible.grounded {clauses : List Clause} (h : Admissible clauses)
    {before : List Clause} {c : Clause} {after : List Clause}
    (hsplit : clauses = before ++ c :: after) (hc : c.isRefinement) :
    ∃ earlier key direction run, before = earlier ++ .orderBy key direction true :: run ∧
      ∀ d ∈ run, d.isRefinement := by
  -- the clause before a refinement is primary or itself a refinement, with fewer clauses before it
  induction before using List.reverseRecOn generalizing c after with
  | nil =>
    obtain ⟨d, hd, -⟩ := h.refined [] c after hsplit hc
    cases hd
  | append_singleton before d ih =>
    obtain ⟨d', hd', hordering⟩ := h.refined _ c after hsplit hc
    obtain rfl : d = d' := by simpa using hd'
    cases d with
    | orderBy key direction primary =>
      cases primary with
      | true => exact ⟨before, key, direction, [], by simp, nofun⟩
      | false =>
        rw [List.append_assoc] at hsplit
        obtain ⟨earlier, key', direction', run, rfl, hrun⟩ := ih hsplit rfl
        refine ⟨earlier, key', direction', run ++ [.orderBy key direction false], by simp, ?_⟩
        intro x hx
        rcases List.mem_append.mp hx with hx | hx
        · exact hrun x hx
        · rw [List.mem_singleton.mp hx]
          rfl
    | _ => cases hordering

theorem Admissible.kind_terminal {m : Model} (h : Admissible m.clauses) {c : Clause}
    (hc : c ∈ m.clauses) {kind : QueryKind} (hkind : c.terminal? = some kind) : m.kind = kind := by
  obtain ⟨before, after, hsplit⟩ := List.append_of_mem hc
  obtain rfl := h.terminal_last before c after hsplit (by rw [hkind]; rfl)
  rw [Model.kind, hsplit]
  simp [hkind]

theorem Model.kind_eq_select {m : Model} (h : ∀ c ∈ m.clauses, c.terminal? = none) :
    m.kind = .select := by
  rw [kind]
  cases hlast : m.clauses.getLast? with
  | none => rfl
  | some c =>
    have hc := h c (List.mem_of_getLast? hlast)
    simp [hc]

/-! ## Clauses of recognised chains -/

/-- The operands of the clause fit, and a model within it yields rows and is well formed at every
depth. -/
structure Clause.Sound (k : Clause) : Prop where
  fits : k.Fits
  rows : ∀ inner, k.operand? = some inner → inner.kind = .select
  within : ∀ inner, k.operand? = some inner → ∀ n : Model, n.Within inner → n.WellFormed

theorem Model.wellFormed_of_sound {m : Model} (h : Admissible m.clauses)
    (hsound : ∀ k ∈ m.clauses, k.Sound) {n : Model} (hn : n.Within m) : n.WellFormed := by
  cases hn with
  | self =>
    exact {
      admissible := h
      kind_terminal := fun c hc kind hkind => h.kind_terminal hc hkind
      kind_rows := kind_eq_select
      grounded := fun before c after hsplit hc => h.grounded hsplit hc
      operands := fun c hc => (hsound c hc).rows
      fits := fun c hc => (hsound c hc).fits }
  | operand hc hinner hn => exact (hsound _ hc).within _ hinner n hn

/-- Every clause of a recognised chain is sound. -/
theorem Registry.chain_sound {r : Registry} {e : Expr} {m : Model} (h : r.chain e = .ok m) :
    ∀ k ∈ m.clauses, k.Sound := by
  induction e using Expr.induction_on_children generalizing m with
  | node e ih =>
    cases e with
    | call o name receiver args =>
      obtain ⟨op, k, inner, -, hk, hreceiver, rfl⟩ :=
        chain_call_eq_ok_iff (c := ⟨o, name, receiver, args⟩).mp h
      have hbefore := ih receiver List.mem_cons_self hreceiver
      have hlast : k.Sound := by
        refine ⟨Operation.clause_fits hk, fun n hn => (Operation.clause_operand hk hn).2,
          fun n hn => ?_⟩
        obtain ⟨a, ha, hrecognised⟩ :=
          argumentModel_eq_ok_iff.mp (Operation.clause_operand hk hn).1
        obtain ⟨hchain, hadmissible⟩ := recognise_eq_ok_iff.mp hrecognised
        have hmem : a ∈ args := List.mem_of_getElem? ha
        intro n' hn'
        exact Model.wellFormed_of_sound hadmissible
          (ih a (List.mem_cons_of_mem receiver hmem) hchain) hn'
      intro x hx
      rcases List.mem_append.mp hx with hx | hx
      · exact hbefore x hx
      · rw [List.mem_singleton.mp hx]
        exact hlast
    | _ =>
      cases h
      nofun

/-- **Compiled models are well formed,** and so are the models within them, whatever the registry and
the passes. -/
theorem compile_wellFormed {c : Compiler} {e : Expr} {m : Model} (h : c.compile e = .ok m) :
    ∀ n : Model, n.Within m → n.WellFormed := by
  obtain ⟨out, -, hm⟩ := Compiler.compile_eq_ok_iff.mp h
  obtain ⟨hchain, hadmissible⟩ := Registry.recognise_eq_ok_iff.mp hm
  intro n hn
  exact Model.wellFormed_of_sound hadmissible (Registry.chain_sound hchain) hn

/-- A compiler without passes that knows operations of a host library. -/
def etlCompiler : Compiler where
  registry := ⟨[], [((.host "etl", "sort"), .orderBy .asc), ((.host "etl", "sub"), .thenBy .desc),
    ((.host "etl", "add"), .setOp .union), ((.host "etl", "drop"), .skip),
    ((.host "etl", "size"), .result (.reduce .count))]⟩
  passes := []

/-- A call of an operation of the host library. -/
def etlCall (name : String) (receiver : Expr) (args : List Expr) : Expr :=
  .call (.host "etl") name receiver args

/-- `users.sort(u => u.a).sub(u => u.b).add(admins.drop(2)).size()`. -/
def userCount : Expr :=
  etlCall "size" (etlCall "add" (etlCall "sub" (etlCall "sort" (.source "users")
    [.lambda ["u"] (.member (.parameter "u") "a")]) [.lambda ["u"] (.member (.parameter "u") "b")])
    [etlCall "drop" (.source "admins") [.constant (.int 2)]]) []

/-- The model of `admins.drop(2)`. -/
def laterAdmins : Model :=
  ⟨.named "admins", [.skip (.constant (.int 2))]⟩

/-- The model of `userCount`. -/
def userCountModel : Model :=
  ⟨.named "users", [.orderBy ⟨["u"], .member (.parameter "u") "a"⟩ .asc true,
    .orderBy ⟨["u"], .member (.parameter "u") "b"⟩ .desc false, .setOp .union laterAdmins,
    .result (.reduce .count)]⟩

theorem compile_wellFormed_userCount :
    etlCompiler.compile userCount = .ok userCountModel ∧ userCountModel.WellFormed ∧
      laterAdmins.Within userCountModel ∧ laterAdmins.WellFormed := by
  have hm : etlCompiler.compile userCount = .ok userCountModel := by rfl
  have hwithin : laterAdmins.Within userCountModel :=
    .operand (c := .setOp .union laterAdmins) (by simp [userCountModel]) rfl (.self _)
  exact ⟨hm, compile_wellFormed hm _ (.self _), hwithin, compile_wellFormed hm _ hwithin⟩

end QueryChain
