import QueryChain.Proofs.Compile.Clauses
import QueryChain.Proofs.Compile.Recognition
import QueryChain.Proofs.Pass.Independence

/-!
# Compilation along a chain

A chain of calls is settled as a whole and taken apart from its outermost call inwards. Both come to
the same as compiling call by call: the passes settle the receiver and the arguments of a canonical
call on their own, and the model of the call is that of its receiver with one clause more.

## Main definitions

* `Call.Settles`: a call and the same call with settled parts

## Main results

* `settledTree_call_iff`: a canonical call settles with its parts
* `compile_canonical_call`: the model of a canonical call from those of its parts
-/

namespace QueryChain

/-- The second call is the first one with its receiver and its arguments settled. -/
structure Call.Settles (c c' : Call) : Prop where
  owner : c'.owner = c.owner
  method : c'.method = c.method
  receiver : settledTree Pass.standard c.receiver = .ok c'.receiver
  args : List.Forall₂ (fun a a' => settledTree Pass.standard a = .ok a') c.args c'.args

variable {c : Call}

/-- A canonical call settles on the call of its settled parts. -/
theorem settledTree_call_iff (hc : c.Canonical) {out : Expr} :
    settledTree Pass.standard c.toExpr = .ok out ↔ ∃ c', c.Settles c' ∧ out = c'.toExpr := by
  rw [settledTree_of_inert hc.inert]
  constructor
  · rintro ⟨_, hparts, rfl⟩
    cases hparts with
    | @cons _ q _ as hreceiver hargs =>
      exact ⟨⟨c.owner, c.method, q, as⟩, ⟨rfl, rfl, hreceiver, hargs⟩, rfl⟩
  · rintro ⟨⟨o, m, q, as⟩, ⟨rfl, rfl, hreceiver, hargs⟩, rfl⟩
    exact ⟨q :: as, .cons hreceiver hargs, rfl⟩

/-- The parts of a call settle iff there is a call that it settles on. -/
theorem exists_settles_iff :
    (∃ c', c.Settles c') ↔
      (∃ q, settledTree Pass.standard c.receiver = .ok q) ∧
        ∀ a ∈ c.args, ∃ a', settledTree Pass.standard a = .ok a' := by
  rw [← exists_forall₂_iff]
  constructor
  · rintro ⟨c', -, -, hreceiver, hargs⟩
    exact ⟨⟨_, hreceiver⟩, _, hargs⟩
  · rintro ⟨⟨q, hreceiver⟩, as, hargs⟩
    exact ⟨⟨c.owner, c.method, q, as⟩, rfl, rfl, hreceiver, hargs⟩

/-- **Compilation is compositional.** A canonical call settles iff its receiver and its arguments do,
and on the call of what they settle on. Its model is that of the receiver with one more clause, which
the operation of the call makes from the settled arguments; a model within that clause is the one that
the first argument has on its own. -/
theorem compile_canonical_call (r : Registry) (hc : c.Canonical) :
    ((∃ out, settledTree Pass.standard c.toExpr = .ok out) ↔
      (∃ q, settledTree Pass.standard c.receiver = .ok q) ∧
        ∀ a ∈ c.args, ∃ a', settledTree Pass.standard a = .ok a') ∧
    (∀ c', c.Settles c' → settledTree Pass.standard c.toExpr = .ok c'.toExpr) ∧
    ∀ m, (Compiler.mk r Pass.standard).compile c.toExpr = .ok m →
      ∃ c' op k mq, c.Settles c' ∧ r.lookup c' = some op ∧
        op.clause c' (Registry.argumentModel c' (r.models c'.args)) = .ok k ∧
        (Compiler.mk r Pass.standard).compile c.receiver = .ok mq ∧
        m.source = mq.source ∧ m.clauses = mq.clauses ++ [k] ∧
        ∀ inner, k.operand? = some inner →
          ∃ a, c.args[0]? = some a ∧ (Compiler.mk r Pass.standard).compile a = .ok inner := by
  refine ⟨?_, fun c' hc' => (settledTree_call_iff hc).mpr ⟨c', hc', rfl⟩, fun m hm => ?_⟩
  · rw [← exists_settles_iff]
    simp only [settledTree_call_iff hc]
    exact ⟨fun ⟨_, c', hc', _⟩ => ⟨c', hc'⟩, fun ⟨c', hc'⟩ => ⟨_, c', hc', rfl⟩⟩
  obtain ⟨out, hout, hm⟩ := Compiler.compile_eq_ok_iff.mp hm
  obtain ⟨c', hc', rfl⟩ := (settledTree_call_iff hc).mp hout
  obtain ⟨hchain, hadmissible⟩ := Registry.recognise_eq_ok_iff.mp hm
  obtain ⟨op, k, mq, hop, hk, hmq, rfl⟩ := Registry.chain_call_eq_ok_iff.mp hchain
  have hreceiver : r.recognise c'.receiver = .ok mq :=
    Registry.recognise_eq_ok_iff.mpr ⟨hmq, hadmissible.of_append⟩
  refine ⟨c', op, k, mq, hc', hop, hk,
    Compiler.compile_eq_ok_iff.mpr ⟨_, hc'.receiver, hreceiver⟩, rfl, rfl, fun inner hinner => ?_⟩
  obtain ⟨a', ha', hrecognised⟩ :=
    Registry.argumentModel_eq_ok_iff.mp (Operation.clause_operand hk hinner).1
  obtain ⟨a, ha, hsettled⟩ := exists_getElem?_of_forall₂ hc'.args ha'
  exact ⟨a, ha, Compiler.compile_eq_ok_iff.mpr ⟨a', hsettled, hrecognised⟩⟩

section ActiveAdmins

-- two rounds of all passes are run by the kernel
set_option maxRecDepth 4096

/-- `admins.keep(a => a.active)`, with its predicate quoted. -/
def activeAdmins : Expr :=
  .call (.host "etl") "keep" (.source "admins")
    [.quote (.lambda ["a"] (.member (.parameter "a") "active"))]

/-- The same without the quote. -/
def activeAdminsSettled : Expr :=
  .call (.host "etl") "keep" (.source "admins") [.lambda ["a"] (.member (.parameter "a") "active")]

/-- `users.union(admins.keep(a => a.active))`. -/
def usersAndAdmins : Call :=
  ⟨.queryable, "union", .source "users", [activeAdmins]⟩

/-- A registry of two operations, one of them of a host library. -/
def keepAndUnion : Registry :=
  ⟨[], [((.host "etl", "keep"), .filter), ((.queryable, "union"), .setOp .union)]⟩

/-- The model of `activeAdmins`. -/
def activeAdminsModel : Model :=
  ⟨.named "admins", [.filter ⟨["a"], .member (.parameter "a") "active"⟩]⟩

theorem compile_canonical_call_usersAndAdmins :
    (Compiler.mk keepAndUnion Pass.standard).compile usersAndAdmins.toExpr =
        .ok ⟨.named "users", [.setOp .union activeAdminsModel]⟩ ∧
      (∃ mq, (Compiler.mk keepAndUnion Pass.standard).compile (.source "users") = .ok mq ∧
        mq.source = .named "users") ∧
      (Compiler.mk keepAndUnion Pass.standard).compile activeAdmins = .ok activeAdminsModel := by
  have hc : usersAndAdmins.Canonical := ⟨nofun, by decide, by decide⟩
  have hm : (Compiler.mk keepAndUnion Pass.standard).compile usersAndAdmins.toExpr =
      .ok ⟨.named "users", [.setOp .union activeAdminsModel]⟩ := by
    have hadmins : settledTree Pass.standard activeAdmins = .ok activeAdminsSettled := by rfl
    refine Compiler.compile_eq_ok_iff.mpr ⟨_, (settledTree_call_iff hc).mpr
      ⟨⟨.queryable, "union", .source "users", [activeAdminsSettled]⟩, ⟨rfl, rfl, rfl, ?_⟩, rfl⟩, rfl⟩
    exact .cons hadmins .nil
  obtain ⟨c', op, k, mq, -, -, -, hmq, hsource, hclauses, hinner⟩ :=
    (compile_canonical_call keepAndUnion hc).2.2 _ hm
  obtain ⟨-, hk⟩ := (List.append_eq_singleton_iff.mp hclauses.symm).resolve_right (by simp)
  cases hk
  obtain ⟨a, ha, hadmins⟩ := hinner activeAdminsModel rfl
  cases ha
  exact ⟨hm, ⟨mq, hmq, hsource.symm⟩, hadmins⟩

end ActiveAdmins

end QueryChain
