import QueryChain.Proofs.Compile.WellFormed
import QueryChain.Proofs.Pass.Hygiene

/-!
# Names in compiled models

The trees that a model holds are parts of the tree that it was compiled from, and read no more names
than it does, with one exception. An update takes the values of its setters out of the lambda that
they stand in, and a value that reads the parameter of that lambda then reads a name that nothing
binds. So the model of a closed tree is closed, unless its last clause is an update of this kind.

## Main definitions

* `Clause.held`, `Model.held`: the trees that a clause and a model hold
* `Model.Closed`: no tree within the model reads a name that is not bound
* `Expr.setterValues`: the values of a chain of setters
* `Registry.LeaksSetter`: an update with a value that reads the parameter of the setters

## Main results

* `Operation.clause_held`: the trees of a clause come from the arguments
* `Operation.clause_update`: the values of an update come from its setters
* `Registry.chain_held`: the trees of a model, at every depth
* `compile_closed_iff`: the model of a closed tree is closed iff no setter leaks
-/

namespace QueryChain

/-! ## Trees that a model holds -/

/-- The value that is assigned, as a tree. -/
def AssignedValue.toExpr : AssignedValue → Expr
  | operand e => e
  | row l => l.toExpr

/-- The trees that a reduction holds. -/
def ResultOp.held : ResultOp → List Expr
  | reduce _ => []
  | all predicate => [predicate.toExpr]
  | aggregate _ selector => selector.toList.map Lambda.toExpr
  | contains item => [item]

/-- The trees that a clause holds, apart from those of the model that it combines the rows with. -/
def Clause.held : Clause → List Expr
  | filter l | select l | groupBy l | orderBy l _ _ => [l.toExpr]
  | skip count | take count => [count]
  | distinct | setOp _ _ => []
  | join _ outerKey innerKey pair => [outerKey.toExpr, innerKey.toExpr, pair.toExpr]
  | result op => op.held
  | delete condition => condition.toList.map Lambda.toExpr
  | update assignments => assignments.map fun a => a.value.toExpr

/-- The tree that a source holds. -/
def QuerySource.held : QuerySource → List Expr
  | named _ => []
  | inline e => [e]

namespace Model

/-- The trees that a model holds, apart from those of the models within it. -/
def held (m : Model) : List Expr :=
  m.source.held ++ m.clauses.flatMap Clause.held

/-- No tree of the model, or of a model within it, reads a name that the tree does not bind. -/
def Closed (m : Model) : Prop :=
  ∀ n : Model, n.Within m → ∀ x ∈ n.held, x.free = []

theorem mem_held_append {m : Model} {k : Clause} {x : Expr} :
    x ∈ (m.append k).held ↔ x ∈ m.held ∨ x ∈ k.held := by
  simp [held, append, or_assoc]

end Model

/-! ## Arguments of a call -/

namespace Call

variable {c : Call} {i : Nat}

/-- The tree reads no more than some argument of the call. -/
def Supplies (c : Call) (x : Expr) : Prop :=
  ∃ a ∈ c.args, x.free ⊆ a.free

theorem lambdaArg_from {n : Nat} {l : Lambda} (h : c.lambdaArg i n = .ok l) :
    ∃ a, c.args[i]? = some a ∧ a.asLambda? = some l := by
  unfold lambdaArg at h
  split at h
  · rename_i l' hl'
    split at h
    · cases h
      exact Option.bind_eq_some_iff.mp hl'
    · cases h
  · cases h

theorem lambdaArg_supplies {n : Nat} {l : Lambda} (h : c.lambdaArg i n = .ok l) :
    c.Supplies l.toExpr := by
  obtain ⟨a, ha, hl⟩ := lambdaArg_from h
  exact ⟨a, List.mem_of_getElem? ha, fun m => (Expr.free_of_asLambda? hl m).mp⟩

theorem onlyLambda_from {l : Lambda} (h : c.onlyLambda = .ok l) :
    ∃ a, c.args = [a] ∧ a.asLambda? = some l := by
  obtain ⟨_, hcount, h⟩ := bind_eq_ok_iff.mp h
  obtain ⟨a, ha, hl⟩ := lambdaArg_from h
  rw [expectCount] at hcount
  split at hcount
  · rename_i hlen
    obtain ⟨b, hb⟩ := List.length_eq_one_iff.mp hlen
    rw [hb] at ha
    cases ha
    exact ⟨a, hb, hl⟩
  · cases hcount

theorem onlyLambda_supplies {l : Lambda} (h : c.onlyLambda = .ok l) : c.Supplies l.toExpr := by
  obtain ⟨_, -, h⟩ := bind_eq_ok_iff.mp h
  exact lambdaArg_supplies h

theorem optionalLambda_supplies {found : Option Lambda} (h : c.optionalLambda = .ok found) :
    ∀ x ∈ found.toList.map Lambda.toExpr, c.Supplies x := by
  unfold optionalLambda at h
  split at h
  · cases h
    nofun
  · obtain ⟨l, hl, rfl⟩ := map_eq_ok_iff.mp h
    simpa using onlyLambda_supplies hl

theorem operandArg_supplies {e : Expr} (h : c.operandArg i = .ok e) : c.Supplies e := by
  unfold operandArg at h
  split at h
  · rename_i a ha
    split at h
    · cases h
      exact ⟨e, List.mem_of_getElem? ha, List.Subset.refl _⟩
    · cases h
  · cases h

theorem rowCountArg_supplies {e : Expr} (h : c.rowCountArg i = .ok e) : c.Supplies e := by
  obtain ⟨e', he, h⟩ := bind_eq_ok_iff.mp h
  have hsame : e' = e := by
    split at h
    · exact pure_eq_ok_iff.mp h
    · split at h
      · exact pure_eq_ok_iff.mp h
      · cases h
    · cases h
  exact hsame ▸ operandArg_supplies he

end Call

/-! ## Setters -/

/-- The values of a chain of setters, last first. -/
def Expr.setterValues : Expr → List Expr
  | .call .update "set" receiver [_, value] => value :: receiver.setterValues
  | _ => []

theorem Expr.free_setterValues {e v : Expr} (h : v ∈ e.setterValues) : v.free ⊆ e.free := by
  fun_induction Expr.setterValues e with
  | case1 receiver selector value ih =>
    rcases List.mem_cons.mp h with rfl | h
    · exact free_subset_of_child nofun (by simp [children])
    · exact List.Subset.trans (ih h) (free_subset_of_child nofun List.mem_cons_self)
  | case2 => cases h

/-- The value of the assignment reads the same names as the tree. -/
def Assignment.Reads (a : Assignment) (v : Expr) : Prop :=
  ∀ n, n ∈ a.value.toExpr.free ↔ n ∈ v.free

namespace Call

variable {c : Call}

theorem assignment_reads {selector value : Expr} {a : Assignment}
    (h : c.assignment selector value = .ok a) : a.Reads value := by
  obtain ⟨l, -, h⟩ := bind_eq_ok_iff.mp h
  obtain ⟨assigned, hassigned, h⟩ := bind_eq_ok_iff.mp h
  have hvalue : ∀ n, n ∈ assigned.toExpr.free ↔ n ∈ value.free := by
    unfold setterValue at hassigned
    split at hassigned
    · rename_i row hrow
      split at hassigned
      · cases hassigned
        exact Expr.free_of_asLambda? hrow
      · cases hassigned
    · cases hassigned
      exact fun _ => .rfl
  split at h
  · cases h
    exact hvalue
  · cases h

theorem assignmentsFrom_reads {parameter : Option String} {e : Expr} {as : List Assignment}
    (h : c.assignmentsFrom parameter e = .ok as) :
    List.Forall₂ Assignment.Reads as e.setterValues := by
  fun_induction c.assignmentsFrom parameter e generalizing as with
  | case1 receiver selector value ih =>
    obtain ⟨a, ha, h⟩ := bind_eq_ok_iff.mp h
    obtain ⟨earlier, hearlier, h⟩ := bind_eq_ok_iff.mp h
    cases h
    exact .cons (assignment_reads ha) (ih hearlier)
  | case2 n =>
    cases h
    exact .nil
  | case3 => cases h
  | case4 => cases h

/-- Values of an update and values of its setters correspond. -/
theorem assignments_reads {setters : Lambda} {as : List Assignment}
    (h : c.assignments setters = .ok as) :
    (∀ a ∈ as, ∃ v ∈ setters.body.setterValues, a.Reads v) ∧
      ∀ v ∈ setters.body.setterValues, ∃ a ∈ as, a.Reads v := by
  obtain ⟨found, hfound, h⟩ := bind_eq_ok_iff.mp h
  have hreads := assignmentsFrom_reads hfound
  split at h
  · cases h
  · cases h
    refine ⟨fun a ha => exists_mem_of_forall₂ hreads (List.mem_reverse.mp ha), fun v hv => ?_⟩
    obtain ⟨a, ha, hav⟩ := exists_mem_of_forall₂ hreads.flip hv
    exact ⟨a, List.mem_reverse.mpr ha, hav⟩

end Call

/-! ## Clauses -/

theorem ResultKind.resultOp_held {kind : ResultKind} {c : Call} {op : ResultOp}
    (h : kind.resultOp c = .ok op) : ∀ x ∈ op.held, c.Supplies x := by
  cases kind with
  | reduce r =>
    obtain ⟨-, -, h⟩ := bind_eq_ok_iff.mp h
    cases h
    nofun
  | all =>
    obtain ⟨l, hl, h⟩ := bind_eq_ok_iff.mp h
    cases h
    exact List.forall_mem_singleton.mpr (Call.onlyLambda_supplies hl)
  | aggregate f =>
    obtain ⟨l, hl, h⟩ := bind_eq_ok_iff.mp h
    cases h
    exact Call.optionalLambda_supplies hl
  | contains =>
    obtain ⟨-, -, h⟩ := bind_eq_ok_iff.mp h
    obtain ⟨e, he, h⟩ := bind_eq_ok_iff.mp h
    cases h
    exact List.forall_mem_singleton.mpr (Call.operandArg_supplies he)

namespace Operation

variable {op : Operation} {c : Call} {models : Nat → Except CompileError Model} {k : Clause}

/-- **The trees of a clause come from the arguments of the call,** the values of an update apart. -/
theorem clause_held (h : op.clause c models = .ok k) :
    (∃ as, k = .update as) ∨ ∀ x ∈ k.held, c.Supplies x := by
  cases clause_makes h with
  | filter hl | select hl | orderBy _ hl | thenBy _ hl | groupBy hl =>
    exact .inr (List.forall_mem_singleton.mpr (Call.onlyLambda_supplies hl))
  | skip hcount | take hcount =>
    exact .inr (List.forall_mem_singleton.mpr (Call.rowCountArg_supplies hcount))
  | distinct | setOp => exact .inr nofun
  | join _ houter hinner hpair =>
    right
    simpa [Clause.held] using
      ⟨Call.lambdaArg_supplies houter, Call.lambdaArg_supplies hinner, Call.lambdaArg_supplies hpair⟩
  | result hop => exact .inr (ResultKind.resultOp_held hop)
  | delete hfound => exact .inr (Call.optionalLambda_supplies hfound)
  | @update _ as => exact .inl ⟨as, rfl⟩

/-- An update is made by one lambda of one parameter, and takes its values out of it. -/
theorem clause_update {as : List Assignment} (h : op.clause c models = .ok (.update as)) :
    op = .update ∧ ∃ a d body, c.args = [a] ∧ a.asLambda? = some ⟨[d], body⟩ ∧
      (∀ x ∈ as, ∃ v ∈ body.setterValues, x.Reads v) ∧
        ∀ v ∈ body.setterValues, ∃ x ∈ as, x.Reads v := by
  cases clause_makes h with
  | @update setters _ hsetters has =>
    obtain ⟨params, body⟩ := setters
    obtain ⟨a, ha, hlambda⟩ := Call.onlyLambda_from hsetters
    obtain ⟨d, rfl⟩ := List.length_eq_one_iff.mp (Call.onlyLambda_eq_ok hsetters)
    exact ⟨rfl, a, d, body, ha, hlambda, Call.assignments_reads has⟩

end Operation

/-! ## Models -/

/-- The tree is a value that an update of the model assigns. -/
def Model.Assigns (m : Model) (x : Expr) : Prop :=
  ∃ as, .update as ∈ m.clauses ∧ ∃ a ∈ as, x = a.value.toExpr

namespace Registry

variable {r : Registry}

/-- The trees of a chain, at every depth: they read no more than the chain itself, unless an update
assigns them. -/
theorem chain_held {e : Expr} {m : Model} (h : r.chain e = .ok m) {n : Model} (hn : n.Within m)
    {x : Expr} (hx : x ∈ n.held) : x.free ⊆ e.free ∨ n.Assigns x := by
  induction e using Expr.induction_on_children generalizing m n with
  | node e ih =>
    cases e with
    | call o name receiver args =>
      obtain ⟨op, k, inner, -, hk, hreceiver, rfl⟩ :=
        chain_call_eq_ok_iff (c := ⟨o, name, receiver, args⟩).mp h
      have hpart : ∀ c ∈ (Expr.call o name receiver args).children, x.free ⊆ c.free →
          x.free ⊆ (Expr.call o name receiver args).free := fun c hc hsub =>
        List.Subset.trans hsub (Expr.free_subset_of_child nofun hc)
      have hbefore : ∀ {n : Model}, n.Within inner → x ∈ n.held →
          x.free ⊆ (Expr.call o name receiver args).free ∨ n.Assigns x := fun hn hx =>
        (ih receiver List.mem_cons_self hreceiver hn hx).imp_left
          (hpart receiver List.mem_cons_self)
      cases hn with
      | self =>
        rcases Model.mem_held_append.mp hx with hx | hx
        · refine (hbefore (.self inner) hx).imp_right ?_
          rintro ⟨as, has, hvalue⟩
          exact ⟨as, List.mem_append_left [k] has, hvalue⟩
        · rcases Operation.clause_held hk with ⟨as, rfl⟩ | hsupplied
          · obtain ⟨a, ha, rfl⟩ := List.mem_map.mp hx
            exact .inr ⟨as, List.mem_append_right _ List.mem_cons_self, a, ha, rfl⟩
          · obtain ⟨a, ha, hsub⟩ := hsupplied x hx
            exact .inl (hpart a (List.mem_cons_of_mem receiver ha) hsub)
      | operand hd hother hn =>
        rcases List.mem_append.mp hd with hd | hd
        · exact hbefore (.operand hd hother hn) hx
        · rw [List.mem_singleton.mp hd] at hother
          obtain ⟨a, ha, hrecognised⟩ :=
            argumentModel_eq_ok_iff.mp (Operation.clause_operand hk hother).1
          obtain ⟨hchain, -⟩ := recognise_eq_ok_iff.mp hrecognised
          have hmem := List.mem_cons_of_mem receiver (List.mem_of_getElem? ha)
          exact (ih a hmem hchain hn hx).imp_left (hpart a hmem)
    | source name =>
      cases h
      cases hn with
      | self => cases hx
      | operand hc => cases hc
    | _ =>
      cases h
      cases hn with
      | self =>
        rw [List.mem_singleton.mp hx]
        exact .inl (List.Subset.refl _)
      | operand hc => cases hc

/-- A call that is recognised as an update, and one of the values that it assigns reads the parameter
of the setters. -/
inductive LeaksSetter (r : Registry) : Expr → Prop where
  | update {c : Call} {a body v : Expr} {d : String} (op : r.lookup c = some .update)
      (arg : c.args = [a]) (setters : a.asLambda? = some ⟨[d], body⟩)
      (value : v ∈ body.setterValues) (reads : d ∈ v.free) : LeaksSetter r c.toExpr

/-- The setters of a chain that ends with an update. -/
theorem chain_update {e : Expr} {m : Model} (h : r.chain e = .ok m) {before : List Clause}
    {as : List Assignment} (hm : m.clauses = before ++ [.update as]) :
    ∃ c a d body, e = c.toExpr ∧ r.lookup c = some .update ∧ c.args = [a] ∧
      a.asLambda? = some ⟨[d], body⟩ ∧ ∀ x ∈ as, ∃ v ∈ body.setterValues, x.Reads v := by
  cases e with
  | call o name receiver args =>
    obtain ⟨op, k, inner, hop, hk, -, rfl⟩ :=
      chain_call_eq_ok_iff (c := ⟨o, name, receiver, args⟩).mp h
    obtain rfl : k = .update as := by
      have hlast := congrArg List.getLast? hm
      simpa [Model.append] using hlast
    obtain ⟨rfl, a, d, body, harg, hsetters, hvalues, -⟩ := Operation.clause_update hk
    exact ⟨⟨o, name, receiver, args⟩, a, d, body, rfl, hop, harg, hsetters, hvalues⟩
  | _ =>
    cases h
    simp at hm

/-- A model whose setters leak holds a tree that is not closed. -/
theorem LeaksSetter.not_closed {e : Expr} {m : Model} (hleaks : r.LeaksSetter e)
    (h : r.chain e = .ok m) : ¬ m.Closed := by
  cases hleaks with
  | @update c a body v d hop harg hsetters hv hd =>
    obtain ⟨op, k, inner, hop', hk, -, rfl⟩ := chain_call_eq_ok_iff.mp h
    cases hop.symm.trans hop'
    obtain ⟨as, rfl⟩ : ∃ as, k = .update as := by
      cases Operation.clause_makes hk
      exact ⟨_, rfl⟩
    obtain ⟨-, a', d', body', harg', hsetters', -, hvalues⟩ := Operation.clause_update hk
    cases harg.symm.trans harg'
    cases hsetters.symm.trans hsetters'
    obtain ⟨x, hx, hreads⟩ := hvalues v hv
    intro hclosed
    have hmem : x.value.toExpr ∈ (inner.append (.update as)).held :=
      Model.mem_held_append.mpr (.inr (List.mem_map.mpr ⟨x, hx, rfl⟩))
    have hfree := hclosed _ (.self _) _ hmem
    have hread := (hreads d).mpr hd
    rw [hfree] at hread
    cases hread

end Registry

/-- A model within another one is that one, or yields rows. -/
theorem Model.Within.eq_or_rows {n m : Model} (h : n.Within m)
    (hm : ∀ n : Model, n.Within m → n.WellFormed) : n = m ∨ n.kind = .select := by
  induction h with
  | self => exact .inl rfl
  | operand hc hinner _ ih =>
    right
    rcases ih fun n hn => hm n (.operand hc hinner hn) with rfl | hrows
    · exact (hm _ (.self _)).operands _ hc _ hinner
    · exact hrows

/-- An open tree in the model of a closed chain is assigned by the update that ends the chain, and
reads the parameter of its setters. -/
theorem Registry.chain_open {r : Registry} {e : Expr} {m : Model} (h : r.chain e = .ok m)
    (hadmissible : Admissible m.clauses) (hclosed : e.free = []) {n : Model} (hn : n.Within m)
    {x : Expr} (hx : x ∈ n.held) (hopen : x.free ≠ []) :
    r.LeaksSetter e ∧ n = m ∧ ∃ before as, m.clauses = before ++ [.update as] ∧
      (∃ a ∈ as, x = a.value.toExpr) ∧ ∃ d ∈ e.bound, ∀ name ∈ x.free, name = d := by
  rcases chain_held h hn hx with hsub | ⟨as, has, x, hmem, rfl⟩
  · rw [hclosed] at hsub
    exact absurd (List.subset_nil.mp hsub) hopen
  have hwell : ∀ n : Model, n.Within m → n.WellFormed := fun n hn =>
    Model.wellFormed_of_sound hadmissible (chain_sound h) hn
  -- the models within clauses yield rows, so that the update is one of the model itself
  have hkind : n.kind = .update := (hwell n hn).kind_terminal _ has _ rfl
  obtain rfl : n = m := by
    refine (hn.eq_or_rows hwell).resolve_right fun hrows => ?_
    cases hkind.symm.trans hrows
  obtain ⟨before, after, hsplit⟩ := List.append_of_mem has
  obtain rfl := hadmissible.terminal_last before _ after hsplit rfl
  obtain ⟨c, a, d, body, rfl, hop, harg, hsetters, hvalues⟩ := chain_update h hsplit
  have hachild : a ∈ c.toExpr.children := by
    change a ∈ c.receiver :: c.args
    simp [harg]
  obtain ⟨v, hv, hreads⟩ := hvalues x hmem
  have hname : ∀ name ∈ x.value.toExpr.free, name = d := by
    intro name hname
    by_contra hne
    have hbody : name ∈ body.free := Expr.free_setterValues hv ((hreads name).mp hname)
    have ha : name ∈ a.free :=
      (Expr.mem_free_of_asLambda? hsetters).mpr ⟨hbody, by simpa using hne⟩
    have hout : name ∈ c.toExpr.free :=
      Expr.free_subset_of_child (by simp [Call.toExpr, Expr.head]) hachild ha
    rw [hclosed] at hout
    cases hout
  obtain ⟨name, hfirst⟩ := List.exists_mem_of_ne_nil _ hopen
  have hd : d ∈ v.free := hname name hfirst ▸ (hreads name).mp hfirst
  refine ⟨.update hop harg hsetters hv hd, rfl, before, as, hsplit, ⟨x, hmem, rfl⟩, d, ?_, hname⟩
  exact Expr.mem_bound_iff.mpr
    (.inr ⟨a, hachild, Expr.mem_bound_of_asLambda? hsetters List.mem_cons_self⟩)

/-- **The model of a closed tree** is closed, unless the tree settles on an update one of whose values
reads the parameter of the setters; and then nothing else is open than the values of the update, which
read that parameter and no other name. -/
theorem compile_closed_iff {c : Compiler} (hpasses : ∀ p ∈ c.passes, p.IsRewrite) {e : Expr}
    (hclosed : e.free = []) {m : Model} (h : c.compile e = .ok m) :
    ∃ out, settledTree c.passes e = .ok out ∧
      (m.Closed ↔ ¬ c.registry.LeaksSetter out) ∧
      ∀ n : Model, n.Within m → ∀ x ∈ n.held, x.free ≠ [] →
        n = m ∧ ∃ before as, m.clauses = before ++ [.update as] ∧ (∃ a ∈ as, x = a.value.toExpr) ∧
          ∃ d ∈ e.bound, ∀ name ∈ x.free, name = d := by
  obtain ⟨out, hout, hm⟩ := Compiler.compile_eq_ok_iff.mp h
  obtain ⟨hchain, hadmissible⟩ := Registry.recognise_eq_ok_iff.mp hm
  obtain ⟨hheads, hfree⟩ := settledTree_hygienic hpasses hout
  have hbound : out.bound ⊆ e.bound := Expr.bound_subset_iff.mpr fun x hx => (hheads x hx).1
  have houtClosed : out.free = [] := List.subset_nil.mp (hclosed ▸ hfree)
  refine ⟨out, hout, ⟨fun hmodel hleaks => hleaks.not_closed hchain hmodel, fun hsafe => ?_⟩, ?_⟩
  · intro n hn x hx
    by_contra hopen
    exact hsafe (Registry.chain_open hchain hadmissible houtClosed hn hx hopen).1
  · intro n hn x hx hopen
    obtain ⟨-, hsame, before, as, hsplit, hvalue, d, hd, hnames⟩ :=
      Registry.chain_open hchain hadmissible houtClosed hn hx hopen
    exact ⟨hsame, before, as, hsplit, hvalue, d, hbound hd, hnames⟩

section Birthdays

-- the standard sets are merged, and rounds of all passes are run, by the kernel
set_option maxRecDepth 8192

/-- `users.update_all(s => s.set(u => u.age, value))`. -/
def setAges (value : Expr) : Expr :=
  .call .dml "update_all" (.source "users") [.lambda ["s"] (.call .update "set" (.parameter "s")
    [.lambda ["u"] (.member (.parameter "u") "age"), value])]

/-- `u => u.age + 1`. -/
def nextAge : Lambda :=
  ⟨["u"], .binary .add (.member (.parameter "u") "age") (.constant (.int 1))⟩

theorem compile_closed_iff_nextAge :
    ∃ c m, Compiler.build [] Pass.standard = .ok c ∧ (setAges nextAge.toExpr).free = [] ∧
      c.compile (setAges nextAge.toExpr) = .ok m ∧ m.Closed := by
  have hbuild : ∃ c, Compiler.build [] Pass.standard = .ok c := ⟨_, rfl⟩
  obtain ⟨c, hc⟩ := hbuild
  have hm : c.compile (setAges nextAge.toExpr) =
      .ok ⟨.named "users", [.update [⟨["age"], .row nextAge⟩]]⟩ := by
    cases hc
    rfl
  have hpasses : ∀ p ∈ c.passes, p.IsRewrite := by
    cases hc
    exact List.forall_mem_cons.mpr ⟨.fold _, List.forall_mem_singleton.mpr (.normalize _)⟩
  have hfree : (setAges nextAge.toExpr).free = [] := by rfl
  obtain ⟨out, hout, hclosed, -⟩ := compile_closed_iff hpasses hfree hm
  refine ⟨c, _, hc, hfree, hm, hclosed.mpr fun hleaks => ?_⟩
  obtain rfl : setAges nextAge.toExpr = out := by
    cases hc
    exact Except.ok.inj hout
  generalize htree : setAges nextAge.toExpr = tree at hleaks
  cases hleaks with
  | @update call a body v d hop harg hsetters hv hd =>
    obtain ⟨o, name, receiver, args⟩ := call
    cases htree
    cases harg
    cases hsetters
    obtain rfl : v = nextAge.toExpr := List.mem_singleton.mp hv
    revert hd
    decide

/-- A value that reads the parameter of the setters is taken for one that depends on no row. -/
theorem compile_closed_iff_setterAge :
    (setAges (.member (.parameter "s") "age")).free = [] ∧
      ∃ c m, Compiler.build [] Pass.standard = .ok c ∧
        c.compile (setAges (.member (.parameter "s") "age")) = .ok m ∧
        .member (.parameter "s") "age" ∈ m.held ∧
        (Expr.member (.parameter "s") "age").free = ["s"] := by
  refine ⟨?_, _, ⟨.named "users", [.update [⟨["age"], .operand (.member (.parameter "s") "age")⟩]]⟩,
    rfl, rfl, ?_, ?_⟩
  · rfl
  · exact List.mem_cons_self
  · rfl

end Birthdays

end QueryChain
