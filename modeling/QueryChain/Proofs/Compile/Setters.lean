import Mathlib.Data.List.Induction
import QueryChain.Fluent.Query
import QueryChain.Proofs.Compile.Clauses
import QueryChain.Proofs.Pass.NormalForm

/-!
# Chains of setters

An update reads its assignments off a chain of calls `d.set(s₁, v₁)…set(sₙ, vₙ)`, from the last call
back to the parameter, and the path of each off a chain of members `p.m₁…mₖ`, from the last member
back to the row. Here both chains are written from the front. An update is made of exactly the chains
that can be written so, and everything else is refused as an invalid argument.

## Main definitions

* `Expr.IsLambda`: a lambda, with or without a quote around it
* `Expr.memberChain`, `Expr.setterChain`: chains of members and of setters, from the front
* `Setting`, `Setting.Assigns`: a setter, and the assignment that it stands for
* `Call.OnlyInvalid`: the outcome is no error but an invalid argument of the call

## Main results

* `Lambda.memberPath?_eq_some_iff`: the lambdas that select a path
* `Call.assignment_eq_ok_iff`: one setter
* `Call.assignmentsFrom_eq_ok_iff`, `Call.assignments_eq_ok_iff`: a chain of setters
* `clause_update_iff`: the updates of calls and of fluent setters
-/

namespace QueryChain

/-! ## Lambdas and chains -/

namespace Expr

/-- The tree is the lambda, with or without a quote around it. -/
def IsLambda (e : Expr) (l : Lambda) : Prop :=
  e = l.toExpr ∨ e = .quote l.toExpr

theorem asLambda?_eq_some_iff {e : Expr} {l : Lambda} : e.asLambda? = some l ↔ e.IsLambda l := by
  constructor
  · exact asLambda?_eq_some
  · rintro (rfl | rfl)
    · rfl
    · rfl

theorem asLambda?_eq_none_iff {e : Expr} : e.asLambda? = none ↔ e.NoLambda := by
  constructor
  · exact noLambda_of_asLambda?
  · intro h
    rw [Option.eq_none_iff_forall_ne_some]
    intro l hl
    rcases asLambda?_eq_some_iff.mp hl with rfl | rfl
    · exact (h l.params l.body).1 rfl
    · exact (h l.params l.body).2 rfl

/-- Members that are read one after the other: `p.a.b` for `a, b`. -/
def memberChain (row : Expr) (path : List String) : Expr :=
  path.foldl .member row

theorem memberChain_concat (row : Expr) (path : List String) (m : String) :
    memberChain row (path ++ [m]) = .member (memberChain row path) m :=
  List.foldl_concat ..

/-- The members are found from the last one back to the row. -/
theorem membersFrom?_eq_some_iff {row : String} {e : Expr} {names : List String} :
    e.membersFrom? row = some names ↔ e = memberChain (.parameter row) names.reverse := by
  constructor
  · intro h
    fun_induction membersFrom? row e generalizing names with
    | case1 =>
      cases h
      rfl
    | case2 => cases h
    | case3 t m ih =>
      obtain ⟨inner, hinner, rfl⟩ := Option.map_eq_some_iff.mp h
      rw [List.reverse_cons, memberChain_concat, ← ih hinner]
    | case4 => cases h
  · rintro rfl
    induction names with
    | nil => exact if_pos rfl
    | cons m names ih => rw [List.reverse_cons, memberChain_concat, membersFrom?, ih, Option.map_some]

end Expr

/-- **The lambdas that select a path** of one member or more. -/
theorem Lambda.memberPath?_eq_some_iff {p : String} {body : Expr} {path : List String} :
    (Lambda.mk [p] body).memberPath? = some path ↔
      path ≠ [] ∧ body = .memberChain (.parameter p) path := by
  constructor
  · intro h
    refine ⟨memberPath?_ne_nil h, ?_⟩
    have h : (body.membersFrom? p >>= fun found => guard (!found.isEmpty) >>= fun _ =>
        pure found.reverse) = some path := h
    obtain ⟨found, hfound, h⟩ := Option.bind_eq_some_iff.mp h
    obtain ⟨_, -, h⟩ := Option.bind_eq_some_iff.mp h
    cases h
    exact Expr.membersFrom?_eq_some_iff.mp hfound
  · rintro ⟨hne, hbody⟩
    have hfound : body.membersFrom? p = some path.reverse := by
      rw [Expr.membersFrom?_eq_some_iff, List.reverse_reverse]
      exact hbody
    simp [memberPath?, hfound, hne, guard]

/-! ## One setter -/

/-- A setter: what it selects, and the value. -/
structure Setting where
  selector : Expr
  value : Expr

/-- The assignment that a setter stands for. A value that is a lambda takes the row, and any other
value is the same for every row. -/
inductive Setting.Assigns : Setting → Assignment → Prop where
  | row {selector value : Expr} {p : String} {path : List String} {l : Lambda}
      (selects : selector.IsLambda ⟨[p], .memberChain (.parameter p) path⟩) (nonempty : path ≠ [])
      (takes : value.IsLambda l) (arity : l.arity = 1) : Assigns ⟨selector, value⟩ ⟨path, .row l⟩
  | operand {selector value : Expr} {p : String} {path : List String}
      (selects : selector.IsLambda ⟨[p], .memberChain (.parameter p) path⟩) (nonempty : path ≠ [])
      (operand : value.NoLambda) : Assigns ⟨selector, value⟩ ⟨path, .operand value⟩

namespace Call

variable {c : Call}

theorem setterSelector_eq_ok_iff {selector : Expr} {l : Lambda} :
    c.setterSelector selector = .ok l ↔ selector.IsLambda l ∧ l.arity = 1 := by
  rw [← Expr.asLambda?_eq_some_iff, setterSelector]
  cases selector.asLambda? with
  | none => simp [invalid]
  | some found =>
    by_cases harity : found.arity = 1
    · simp only [harity, if_true, Except.ok.injEq, Option.some.injEq]
      exact ⟨fun h => ⟨h, h ▸ harity⟩, And.left⟩
    · simp only [harity, if_false, invalid, reduceCtorEq, Option.some.injEq, false_iff, not_and]
      rintro rfl
      exact harity

theorem setterValue_eq_ok_iff {value : Expr} {assigned : AssignedValue} :
    c.setterValue value = .ok assigned ↔
      (∃ l : Lambda, value.IsLambda l ∧ l.arity = 1 ∧ assigned = .row l) ∨
        value.NoLambda ∧ assigned = .operand value := by
  rw [← Expr.asLambda?_eq_none_iff, setterValue]
  simp only [← Expr.asLambda?_eq_some_iff]
  cases value.asLambda? with
  | none => simp [eq_comm]
  | some found =>
    by_cases harity : found.arity = 1
    · simp [harity, eq_comm]
    · simp [harity, invalid]

/-- **One setter:** the assignment is read off its selector and its value. -/
theorem assignment_eq_ok_iff {selector value : Expr} {a : Assignment} :
    c.assignment selector value = .ok a ↔ Setting.Assigns ⟨selector, value⟩ a := by
  constructor
  · intro h
    obtain ⟨⟨params, body⟩, hl, h⟩ := bind_eq_ok_iff.mp h
    obtain ⟨hselector, harity⟩ := setterSelector_eq_ok_iff.mp hl
    obtain ⟨p, rfl⟩ := List.length_eq_one_iff.mp harity
    obtain ⟨assigned, hassigned, h⟩ := bind_eq_ok_iff.mp h
    split at h
    · rename_i path hpath
      cases h
      obtain ⟨hne, rfl⟩ := Lambda.memberPath?_eq_some_iff.mp hpath
      rcases setterValue_eq_ok_iff.mp hassigned with ⟨l, hvalue, hrow, rfl⟩ | ⟨hvalue, rfl⟩
      · exact .row hselector hne hvalue hrow
      · exact .operand hselector hne hvalue
    · cases h
  · have hparts : ∀ {p path assigned}, selector.IsLambda ⟨[p], .memberChain (.parameter p) path⟩ →
        path ≠ [] → c.setterValue value = .ok assigned →
          c.assignment selector value = .ok ⟨path, assigned⟩ := by
      intro p path assigned hselector hne hassigned
      refine bind_eq_ok_iff.mpr ⟨_, setterSelector_eq_ok_iff.mpr ⟨hselector, rfl⟩, ?_⟩
      refine bind_eq_ok_iff.mpr ⟨assigned, hassigned, ?_⟩
      rw [Lambda.memberPath?_eq_some_iff.mpr ⟨hne, rfl⟩]
      rfl
    intro h
    cases h with
    | row hselector hne hvalue hrow =>
      exact hparts hselector hne (setterValue_eq_ok_iff.mpr (.inl ⟨_, hvalue, hrow, rfl⟩))
    | operand hselector hne hvalue =>
      exact hparts hselector hne (setterValue_eq_ok_iff.mpr (.inr ⟨hvalue, rfl⟩))

end Call

/-! ## Chains of setters -/

/-- Setters that are called one after the other, on the parameter that collects them. -/
def Expr.setterChain (collector : Expr) (settings : List Setting) : Expr :=
  settings.foldl (fun chain s => .call .update "set" chain [s.selector, s.value]) collector

theorem Expr.setterChain_concat (collector : Expr) (settings : List Setting) (s : Setting) :
    setterChain collector (settings ++ [s]) =
      .call .update "set" (setterChain collector settings) [s.selector, s.value] :=
  List.foldl_concat ..

namespace Call

variable {c : Call}

/-- **A chain of setters** is read from the last setter back to the parameter. -/
theorem assignmentsFrom_eq_ok_iff {d : String} {e : Expr} {as : List Assignment} :
    c.assignmentsFrom (some d) e = .ok as ↔
      ∃ settings, e = .setterChain (.parameter d) settings ∧
        List.Forall₂ Setting.Assigns settings as.reverse := by
  constructor
  · intro h
    fun_induction c.assignmentsFrom (some d) e generalizing as with
    | case1 receiver selector value ih =>
      obtain ⟨a, ha, h⟩ := bind_eq_ok_iff.mp h
      obtain ⟨earlier, hearlier, h⟩ := bind_eq_ok_iff.mp h
      cases h
      obtain ⟨settings, rfl, hsettings⟩ := ih hearlier
      refine ⟨settings ++ [⟨selector, value⟩], ?_, ?_⟩
      · exact (Expr.setterChain_concat _ settings ⟨selector, value⟩).symm
      · rw [List.reverse_cons]
        exact List.rel_append hsettings (.cons (assignment_eq_ok_iff.mp ha) .nil)
    | case2 n hn =>
      cases h
      cases hn
      exact ⟨[], rfl, .nil⟩
    | case3 => cases h
    | case4 => cases h
  · rintro ⟨settings, rfl, hsettings⟩
    -- induction on the setters from the last one on, along with their assignments
    induction settings using List.reverseRecOn generalizing as with
    | nil =>
      obtain rfl : as = [] := by simpa using hsettings
      exact if_pos rfl
    | append_singleton settings s ih =>
      rw [← List.forall₂_reverse_iff, List.reverse_reverse, List.reverse_concat] at hsettings
      cases hsettings with
      | cons hs hrest =>
        rw [Expr.setterChain_concat, assignmentsFrom, assignment_eq_ok_iff.mpr hs,
          ih (List.forall₂_reverse_iff.mp (by rwa [List.reverse_reverse]))]
        rfl

/-- The assignments of an update are in the order of its setters. -/
theorem assignments_eq_ok_iff {d : String} {body : Expr} {as : List Assignment} :
    c.assignments ⟨[d], body⟩ = .ok as ↔
      ∃ settings, settings ≠ [] ∧ body = .setterChain (.parameter d) settings ∧
        List.Forall₂ Setting.Assigns settings as := by
  constructor
  · intro h
    obtain ⟨found, hfound, h⟩ := bind_eq_ok_iff.mp h
    obtain ⟨settings, hbody, hsettings⟩ := assignmentsFrom_eq_ok_iff.mp hfound
    split at h
    · cases h
    · rename_i hne
      cases h
      refine ⟨settings, ?_, hbody, hsettings⟩
      rintro rfl
      exact hne (by simpa using List.forall₂_nil_left_iff.mp hsettings)
  · rintro ⟨settings, hne, hbody, hsettings⟩
    refine bind_eq_ok_iff.mpr ⟨as.reverse, ?_, ?_⟩
    · exact assignmentsFrom_eq_ok_iff.mpr ⟨settings, hbody, by rwa [List.reverse_reverse]⟩
    · rw [if_neg, List.reverse_reverse]
      · rfl
      · cases hsettings with
        | nil => exact absurd rfl hne
        | cons => simp

/-! ## Everything else -/

/-- The outcome is no error but an invalid argument of the call. -/
def OnlyInvalid {α : Type} (c : Call) (x : Except CompileError α) : Prop :=
  ∀ err, x = .error err → ∃ fault, err = .invalidArguments c.method fault

theorem OnlyInvalid.ok {α : Type} (a : α) : c.OnlyInvalid (.ok a) := by
  intro err herr
  cases herr

theorem OnlyInvalid.invalid {α : Type} (fault : ArgumentFault) :
    c.OnlyInvalid (c.invalid fault : Except CompileError α) := by
  rintro err ⟨⟩
  exact ⟨fault, rfl⟩

theorem OnlyInvalid.bind {α β : Type} {x : Except CompileError α} {f : α → Except CompileError β}
    (hx : c.OnlyInvalid x) (hf : ∀ a, c.OnlyInvalid (f a)) : c.OnlyInvalid (x >>= f) := by
  intro err herr
  rcases bind_eq_error_iff.mp herr with hfirst | ⟨a, -, hsecond⟩
  · exact hx err hfirst
  · exact hf a err hsecond

variable (c)

theorem assignment_onlyInvalid (selector value : Expr) :
    c.OnlyInvalid (c.assignment selector value) := by
  have hselector : c.OnlyInvalid (c.setterSelector selector) := by
    unfold setterSelector
    split
    · split
      · exact .ok _
      · exact .invalid _
    · exact .invalid _
  have hvalue : c.OnlyInvalid (c.setterValue value) := by
    unfold setterValue
    split
    · split
      · exact .ok _
      · exact .invalid _
    · exact .ok _
  refine hselector.bind fun l => hvalue.bind fun assigned => ?_
  split
  · exact .ok _
  · exact .invalid _

theorem assignmentsFrom_onlyInvalid (parameter : Option String) (e : Expr) :
    c.OnlyInvalid (c.assignmentsFrom parameter e) := by
  fun_induction c.assignmentsFrom parameter e with
  | case1 receiver selector value ih =>
    exact (c.assignment_onlyInvalid selector value).bind fun _ => ih.bind fun _ => .ok _
  | case2 => exact .ok _
  | case3 => exact .invalid _
  | case4 => exact .invalid _

theorem assignments_onlyInvalid (setters : Lambda) : c.OnlyInvalid (c.assignments setters) := by
  refine (c.assignmentsFrom_onlyInvalid _ _).bind fun found => ?_
  split
  · exact .invalid _
  · exact .ok _

end Call

/-! ## Updates -/

/-- The setters of a call with one lambda of one parameter make its clause. -/
theorem Operation.clause_update_eq {c : Call} {arg : Expr} {l : Lambda} (hargs : c.args = [arg])
    (harg : arg.IsLambda l) (harity : l.arity = 1) (models : Nat → Except CompileError Model) :
    Operation.update.clause c models = (c.assignments l >>= fun as => pure (.update as)) := by
  have hlambda : c.onlyLambda = .ok l := by
    rw [Call.onlyLambda, Call.expectCount, Call.lambdaArg, hargs, List.getElem?_cons_zero,
      Option.bind_some, Expr.asLambda?_eq_some_iff.mpr harg]
    simp only [harity, if_true]
    rfl
  rw [Operation.clause, hlambda]
  rfl

/-- A fluent setter hands its lambdas over quoted. -/
def Setting.quoted (s : Setting) : Setting :=
  ⟨.quote s.selector, if s.value.asLambda?.isSome then .quote s.value else s.value⟩

theorem Setters.chain_foldl_set (settings : List Setting) :
    (settings.foldl (fun setters s => setters.set s.selector s.value) Setters.empty).chain =
      .setterChain (.parameter settersParameter) (settings.map Setting.quoted) := by
  induction settings using List.reverseRecOn with
  | nil => rfl
  | append_singleton settings s ih =>
    rw [List.foldl_concat, List.map_append, List.map_singleton, Expr.setterChain_concat, ← ih]
    rfl

/-- The tree is no quoted lambda. -/
def Expr.Unquoted (e : Expr) : Prop :=
  ∀ l : Lambda, e ≠ .quote l.toExpr

theorem Setting.Assigns.quoted {s : Setting} {a : Assignment} (h : s.Assigns a)
    (hselector : s.selector.Unquoted) (hvalue : s.value.Unquoted) : s.quoted.Assigns a := by
  cases h with
  | @row selector value p path l hselects hne htakes harity =>
    have hlambda : value.asLambda? = some l := Expr.asLambda?_eq_some_iff.mpr htakes
    have hquoted : Setting.quoted ⟨selector, value⟩ = ⟨.quote selector, .quote value⟩ := by
      simp [Setting.quoted, hlambda]
    rw [hquoted, hselects.resolve_right (hselector _), htakes.resolve_right (hvalue _)]
    exact .row (.inr rfl) hne (.inr rfl) harity
  | @operand selector value p path hselects hne hoperand =>
    have hlambda : value.asLambda? = none := Expr.asLambda?_eq_none_iff.mpr hoperand
    have hquoted : Setting.quoted ⟨selector, value⟩ = ⟨.quote selector, value⟩ := by
      simp [Setting.quoted, hlambda]
    rw [hquoted, hselects.resolve_right (hselector _)]
    exact .operand (.inr rfl) hne hoperand

/-- **Chains of setters are decoded exactly.** The clause of a call whose argument is the lambda
`d => body`, quoted or not, is an update iff `body` is a chain of one setter or more on `d` each of
which stands for an assignment, and then the update lists these in the order of the calls; in every
other case the arguments are invalid. In particular, the update that is written fluently from setters
that are not quoted themselves lists exactly their assignments. -/
theorem clause_update_iff (models : Nat → Except CompileError Model) :
    (∀ (c : Call) (arg : Expr) (d : String) (body : Expr), c.args = [arg] →
      arg.IsLambda ⟨[d], body⟩ →
        (∀ as, Operation.update.clause c models = .ok (.update as) ↔
          ∃ settings, settings ≠ [] ∧ body = .setterChain (.parameter d) settings ∧
            List.Forall₂ Setting.Assigns settings as) ∧
        ((∀ as, Operation.update.clause c models ≠ .ok (.update as)) →
          ∃ fault, Operation.update.clause c models =
            .error (.invalidArguments c.method fault))) ∧
    ∀ (q : Query) (settings : List Setting) (as : List Assignment), settings ≠ [] →
      (∀ s ∈ settings, s.selector.Unquoted ∧ s.value.Unquoted) →
      List.Forall₂ Setting.Assigns settings as →
        ∃ c : Call, c.toExpr = q.updateAll
            (settings.foldl (fun setters s => setters.set s.selector s.value) .empty) ∧
          Operation.update.clause c models = .ok (.update as) := by
  have hdecode : ∀ (c : Call) (arg : Expr) (d : String) (body : Expr), c.args = [arg] →
      arg.IsLambda ⟨[d], body⟩ → ∀ as, Operation.update.clause c models = .ok (.update as) ↔
        ∃ settings, settings ≠ [] ∧ body = .setterChain (.parameter d) settings ∧
          List.Forall₂ Setting.Assigns settings as := by
    intro c arg d body hargs harg as
    rw [Operation.clause_update_eq hargs harg rfl, ← Call.assignments_eq_ok_iff (c := c)]
    cases c.assignments ⟨[d], body⟩ <;> simp [bind, Except.bind, pure, Except.pure]
  refine ⟨fun c arg d body hargs harg => ⟨hdecode c arg d body hargs harg, fun hnone => ?_⟩, ?_⟩
  · rw [Operation.clause_update_eq hargs harg rfl] at hnone ⊢
    cases hassignments : c.assignments ⟨[d], body⟩ with
    | ok as =>
      rw [hassignments] at hnone
      exact absurd rfl (hnone as)
    | error err =>
      obtain ⟨fault, rfl⟩ := c.assignments_onlyInvalid _ err hassignments
      exact ⟨fault, rfl⟩
  · intro q settings as hne hunquoted hassigns
    have hquoted : List.Forall₂ Setting.Assigns (settings.map Setting.quoted) as := by
      rw [List.forall₂_map_left_iff]
      refine ((List.forall₂_and_left _ _).mpr ⟨hunquoted, hassigns⟩).imp ?_
      rintro s a ⟨⟨hselector, hvalue⟩, hs⟩
      exact hs.quoted hselector hvalue
    refine ⟨⟨.dml, "update_all", q.expr, [_]⟩, rfl, ?_⟩
    refine (hdecode _ _ settersParameter _ rfl (.inr rfl) as).mpr ⟨_, ?_, ?_, hquoted⟩
    · simpa using hne
    · exact Setters.chain_foldl_set settings

/-- Setters for the city of an address, and for the age, the second one quoted. -/
def relocation : List Setting :=
  [⟨.lambda ["u"] (.memberChain (.parameter "u") ["address", "city"]), .constant (.text "Rome")⟩,
    ⟨.quote (.lambda ["u"] (.member (.parameter "u") "age")),
      .quote (.lambda ["v"] (.member (.parameter "v") "years"))⟩]

/-- `users.update_all(s => s.set(u => u.address.city, "Rome").set(u => u.age, v => v.years))`. -/
def relocationCall : Call :=
  ⟨.dml, "update_all", .source "users", [.lambda ["s"] (.setterChain (.parameter "s") relocation)]⟩

theorem clause_update_iff_relocation :
    relocationCall.args = [.lambda ["s"] (.setterChain (.parameter "s") relocation)] ∧
      Operation.update.clause relocationCall (fun i => relocationCall.invalid (.operand i)) =
        .ok (.update [⟨["address", "city"], .operand (.constant (.text "Rome"))⟩,
          ⟨["age"], .row ⟨["v"], .member (.parameter "v") "years"⟩⟩]) := by
  refine ⟨rfl, ?_⟩
  refine (((clause_update_iff _).1 relocationCall _ "s" _ rfl (.inl rfl)).1 _).mpr
    ⟨relocation, by simp [relocation], rfl, .cons ?_ (.cons ?_ .nil)⟩
  · exact .operand (.inl rfl) (by simp) (by simp [Expr.NoLambda])
  · exact .row (.inr rfl) (by simp) (.inr rfl) rfl

end QueryChain
