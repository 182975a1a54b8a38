import QueryChain.Fluent.Query
import QueryChain.Proofs.Compile.Composition
import QueryChain.Proofs.Compile.Support
import QueryChain.Proofs.Compile.Surface
import QueryChain.Proofs.Pass.Bound

/-!
# Fluent queries are recognised

What can be written fluently can be compiled, apart from arguments and orders of clauses that are
refused: the methods, the rules for names and predicates, and the standard registry agree on every name
and every shape. The clauses of the model are the operations that were called, in this order.

## Main definitions

* `Expr.StaysOperand`: an argument that does not turn out to be a lambda
* `Query.Written`, `Query.Finished`: what can be written fluently, with the names of its clauses
* `fluentShapes`: the shapes of the calls that fluent queries make

## Main results

* `fluentShapes_spec`: names and shapes of rules and registry agree
* `Registry.Covers.call`: one more call
* `Query.Written.covers`, `Query.Finished.covers`: fluent queries are recognised
* `compile_fluent`: fluent queries compile, clause by clause
-/

namespace QueryChain

/-! ## What is written -/

/-- If the tree settles, then not on a lambda. -/
def Expr.StaysOperand (x : Expr) : Prop :=
  ∀ out, settledTree Pass.standard x = .ok out → out.asLambda? = none

namespace Query

/-- A query that is written fluently from a data source, with the names of its clauses in the order of
the calls. Lambdas have the parameters that the operation asks for, operands do not turn out to be
lambdas, and other sequences are written fluently themselves. -/
inductive Written : Query → List String → Prop where
  | source (name : String) : Written (.source name) []
  | filter {q names} (h : Written q names) (p : String) (body : Expr) :
      Written (q.filter (.lambda [p] body)) (names ++ ["filter"])
  | select {q names} (h : Written q names) (p : String) (body : Expr) :
      Written (q.select (.lambda [p] body)) (names ++ ["select"])
  | orderBy {q names} (h : Written q names) (p : String) (body : Expr) :
      Written (q.orderBy (.lambda [p] body)) (names ++ ["order_by"])
  | orderByDesc {q names} (h : Written q names) (p : String) (body : Expr) :
      Written (q.orderByDesc (.lambda [p] body)) (names ++ ["order_by"])
  | thenBy {q names} (h : Written q names) (p : String) (body : Expr) :
      Written (q.thenBy (.lambda [p] body)) (names ++ ["then_by"])
  | thenByDesc {q names} (h : Written q names) (p : String) (body : Expr) :
      Written (q.thenByDesc (.lambda [p] body)) (names ++ ["then_by"])
  | groupBy {q names} (h : Written q names) (p : String) (body : Expr) :
      Written (q.groupBy (.lambda [p] body)) (names ++ ["group_by"])
  | skip {q names x} (h : Written q names) (hx : x.StaysOperand) :
      Written (q.skip x) (names ++ ["skip"])
  | take {q names x} (h : Written q names) (hx : x.StaysOperand) :
      Written (q.take x) (names ++ ["take"])
  | distinct {q names} (h : Written q names) : Written q.distinct (names ++ ["distinct"])
  | join {q names inner others} (h : Written q names) (hinner : Written inner others)
      (p : String) (outerKey : Expr) (p' : String) (innerKey : Expr) (left right : String)
      (pair : Expr) :
      Written (q.join inner (.lambda [p] outerKey) (.lambda [p'] innerKey)
        (.lambda [left, right] pair)) (names ++ ["join"])
  | union {q names other others} (h : Written q names) (hother : Written other others) :
      Written (q.union other) (names ++ ["union"])
  | intersect {q names other others} (h : Written q names) (hother : Written other others) :
      Written (q.intersect other) (names ++ ["intersect"])
  | except {q names other others} (h : Written q names) (hother : Written other others) :
      Written (q.except other) (names ++ ["except"])

/-- A query that is written fluently and ended by a terminal operation or by none. A reduction with a
predicate makes a filter and the reduction. Reductions without a method of their own may be called by
their names. -/
inductive Finished : Expr → List String → Prop where
  | rows {q names} (h : Written q names) : Finished q.expr names
  | count {q names} (h : Written q names) : Finished q.count (names ++ ["count"])
  | countWhere {q names} (h : Written q names) (p : String) (body : Expr) :
      Finished (q.countWhere (.lambda [p] body)) (names ++ ["filter", "count"])
  | any {q names} (h : Written q names) : Finished q.any (names ++ ["any"])
  | anyWhere {q names} (h : Written q names) (p : String) (body : Expr) :
      Finished (q.anyWhere (.lambda [p] body)) (names ++ ["filter", "any"])
  | all {q names} (h : Written q names) (p : String) (body : Expr) :
      Finished (q.all (.lambda [p] body)) (names ++ ["all"])
  | first {q names} (h : Written q names) : Finished q.first (names ++ ["first"])
  | firstWhere {q names} (h : Written q names) (p : String) (body : Expr) :
      Finished (q.firstWhere (.lambda [p] body)) (names ++ ["filter", "first"])
  | firstOrDefault {q names} (h : Written q names) :
      Finished q.firstOrDefault (names ++ ["first_or_default"])
  | single {q names} (h : Written q names) : Finished q.single (names ++ ["single"])
  | singleOrDefault {q names} (h : Written q names) :
      Finished q.singleOrDefault (names ++ ["single_or_default"])
  | last {q names} (h : Written q names) : Finished q.last (names ++ ["last"])
  | named {q names} (h : Written q names) (r : Reduction) :
      Finished (q.call r.name []).expr (names ++ [r.name])
  | namedWhere {q names} (h : Written q names) (r : Reduction) (p : String) (body : Expr) :
      Finished (q.callQuoted r.name (.lambda [p] body)).expr (names ++ ["filter", r.name])
  | sum {q names} (h : Written q names) (p : String) (body : Expr) :
      Finished (q.sum (.lambda [p] body)) (names ++ ["sum"])
  | min {q names} (h : Written q names) (p : String) (body : Expr) :
      Finished (q.min (.lambda [p] body)) (names ++ ["min"])
  | max {q names} (h : Written q names) (p : String) (body : Expr) :
      Finished (q.max (.lambda [p] body)) (names ++ ["max"])
  | average {q names} (h : Written q names) (p : String) (body : Expr) :
      Finished (q.average (.lambda [p] body)) (names ++ ["average"])
  | contains {q names x} (h : Written q names) (hx : x.StaysOperand) :
      Finished (q.contains x) (names ++ ["contains"])
  | deleteAll {q names} (h : Written q names) : Finished q.deleteAll (names ++ ["delete_all"])
  | deleteWhere {q names} (h : Written q names) (p : String) (body : Expr) :
      Finished (q.deleteWhere (.lambda [p] body)) (names ++ ["delete_all"])
  | updateAll {q names} (h : Written q names) (s : Setters) :
      Finished (q.updateAll s) (names ++ ["update_all"])

end Query

/-! ## Arguments that settle -/

/-- If the tree settles, then on an argument of this shape. -/
def Expr.SettlesAs (x : Expr) (shape : ArgShape) : Prop :=
  ∀ out, settledTree Pass.standard x = .ok out → ArgShape.of out = shape

theorem Expr.StaysOperand.settlesAs {x : Expr} (h : x.StaysOperand) : x.SettlesAs .operand := by
  intro out hout
  rw [ArgShape.of, h out hout]

theorem Expr.lambda_inert (params : List String) (body : Expr) : (lambda params body).Inert := by
  refine ⟨fun cs hcs => ?_, fun cs hcs rule => ?_⟩
  · obtain ⟨x, rfl⟩ := List.length_eq_one_iff.mp hcs
    exact not_isFoldable (not_isEvaluable_of_root (by simp [withChildren, EvaluableFilter.admits]))
  · obtain ⟨x, rfl⟩ := List.length_eq_one_iff.mp hcs
    rw [Option.eq_none_iff_forall_ne_some]
    intro b hb
    cases Rule.apply_eq_some_iff.mp hb

/-- A quoted lambda settles on a lambda with the same parameters. -/
theorem Expr.quote_settlesAs (params : List String) (body : Expr) :
    (quote (lambda params body)).SettlesAs (.lambda params.length) := by
  intro out hout
  rw [(SurfaceEq.spelling (.quote params body)).settledTree_eq,
    settledTree_of_inert (lambda_inert params body)] at hout
  obtain ⟨cs, hcs, rfl⟩ := hout
  obtain ⟨x, rfl⟩ := List.length_eq_one_iff.mp hcs.length_eq.symm
  rfl

theorem Expr.map_shape_of_settled {args args' : List Expr} {shapes : List ArgShape}
    (h : List.Forall₂ (fun a a' => settledTree Pass.standard a = .ok a') args args')
    (hshapes : List.Forall₂ SettlesAs args shapes) : args'.map ArgShape.of = shapes := by
  induction h generalizing shapes with
  | nil =>
    cases hshapes
    rfl
  | cons ha _ ih =>
    cases hshapes with
    | cons hshape hrest => rw [List.map_cons, hshape _ ha, ih hrest]

/-! ## Names and shapes -/

/-- The shapes of the calls that fluent queries make once they are settled, with their operations. -/
def fluentShapes : List (CallShape × Operation) :=
  OperationSet.standard.shapes ++ OperationSet.dml.shapes ++
    [OperationSet.queryable "distinct" [] .distinct,
     OperationSet.queryable "union" [.operand] (.setOp .union),
     OperationSet.queryable "intersect" [.operand] (.setOp .intersect),
     OperationSet.queryable "except" [.operand] (.setOp .except)]

/-- **Names and shapes agree:** calls of these shapes are recognised by the standard registry, and the
rules neither rename nor lower them. -/
theorem fluentShapes_spec {r : Registry} (h : Registry.withExtensions [] = .ok r) :
    ∀ p ∈ fluentShapes, r.resolve p.1 = some p.2 ∧ p.1.owner ≠ .builtin ∧
      p.1.name ∉ aliases.map Prod.fst ∧
      (p.1.name ∈ Reduction.all.map Reduction.name → p.1.args.length ≠ 1) := by
  cases h
  decide

namespace Registry

/-- Whatever the tree settles on, all of its calls are supported and its clauses have these names. -/
def Covers (r : Registry) (e : Expr) (names : List String) : Prop :=
  ∀ out, settledTree Pass.standard e = .ok out → r.Recognises out names

variable {standard r : Registry}

/-- **One more call** of one of these shapes. -/
theorem Covers.call (hstandard : withExtensions [] = .ok standard) (hr : standard.Extends r)
    (op : Operation) (shapes : List ArgShape) {o : Owner} {m : String} {receiver : Expr}
    {args : List Expr} {names : List String} (hreceiver : r.Covers receiver names)
    (hshape : (⟨o, m, shapes⟩, op) ∈ fluentShapes)
    (hargs : List.Forall₂ Expr.SettlesAs args shapes)
    (hsequence : op.takesSequence → ∃ a others, args[0]? = some a ∧ r.Covers a others) :
    r.Covers (.call o m receiver args) (names ++ [op.clauseName]) := by
  obtain ⟨hresolve, howner, halias, hreduction⟩ := fluentShapes_spec hstandard _ hshape
  have hcanonical : (Call.mk o m receiver args).Canonical := by
    refine ⟨howner, fun _ => halias, fun _ hmem => ?_⟩
    rw [hargs.length_eq]
    exact hreduction hmem
  intro out hout
  obtain ⟨c', hc', rfl⟩ := (settledTree_call_iff hcanonical).mp hout
  have hlookup : r.lookup c' = some op := by
    rw [lookup, CallShape.of, hc'.owner, hc'.method, Expr.map_shape_of_settled hc'.args hargs]
    exact hr _ _ hresolve
  refine (hreceiver _ hc'.receiver).call hlookup fun htakes => ?_
  obtain ⟨a, others, ha, hcovers⟩ := hsequence htakes
  obtain ⟨a', ha', hsettled⟩ := exists_getElem?_of_forall₂ hc'.args.flip ha
  exact ⟨a', others, ha', hcovers a' hsettled⟩

theorem Covers.of_settledTree_eq {e e' : Expr} {names : List String}
    (h : settledTree Pass.standard e = settledTree Pass.standard e') (hcovers : r.Covers e' names) :
    r.Covers e names :=
  fun out hout => hcovers out (h.symm.trans hout)

/-- A settled sequence is an argument that is no lambda. -/
theorem Covers.settlesAs {e : Expr} {names : List String} (h : r.Covers e names) :
    e.SettlesAs .operand :=
  Expr.StaysOperand.settlesAs fun out hout => (h out hout).operand

end Registry

/-! ## Fluent queries -/

namespace Query

open Registry (Covers)

variable {standard r : Registry} {q : Query} {e : Expr} {names : List String}

section

variable (hstandard : Registry.withExtensions [] = .ok standard) (hr : standard.Extends r)

include hstandard hr

/-- One more operation that takes a lambda of the row. -/
theorem covers_callQuoted (op : Operation) (h : r.Covers q.expr names) {method : String}
    (hshape : (⟨.queryable, method, [.lambda 1]⟩, op) ∈ fluentShapes) (hrows : ¬ op.takesSequence)
    (p : String) (body : Expr) :
    r.Covers (q.callQuoted method (.lambda [p] body)).expr (names ++ [op.clauseName]) :=
  Covers.call hstandard hr op _ h hshape (.cons (Expr.quote_settlesAs [p] body) .nil)
    fun htakes => absurd htakes hrows

/-- One more operation that takes an operand. -/
theorem covers_operand (op : Operation) (h : r.Covers q.expr names) {method : String}
    (hshape : (⟨.queryable, method, [.operand]⟩, op) ∈ fluentShapes) (hrows : ¬ op.takesSequence)
    {x : Expr} (hx : x.StaysOperand) :
    r.Covers (q.call method [x]).expr (names ++ [op.clauseName]) :=
  Covers.call hstandard hr op _ h hshape (.cons hx.settlesAs .nil)
    fun htakes => absurd htakes hrows

/-- One more operation that takes another sequence. -/
theorem covers_sequence (op : Operation) (h : r.Covers q.expr names) {other : Query}
    {others : List String} (hother : r.Covers other.expr others) {method : String}
    (hshape : (⟨.queryable, method, [.operand]⟩, op) ∈ fluentShapes) :
    r.Covers (q.call method [other.expr]).expr (names ++ [op.clauseName]) :=
  Covers.call hstandard hr op _ h hshape (.cons hother.settlesAs .nil)
    fun _ => ⟨other.expr, others, rfl, hother⟩

/-- **What is written fluently is recognised.** -/
theorem Written.covers (h : Written q names) : r.Covers q.expr names := by
  induction h with
  | source name =>
    intro out hout
    obtain rfl : Expr.source name = out := Except.ok.inj hout
    exact .source name
  | filter _ p body ih =>
    exact covers_callQuoted hstandard hr .filter ih (by decide) nofun p body
  | select _ p body ih =>
    exact covers_callQuoted hstandard hr .select ih (by decide) nofun p body
  | orderBy _ p body ih =>
    exact covers_callQuoted hstandard hr (.orderBy .asc) ih (by decide) nofun p body
  | orderByDesc _ p body ih =>
    exact covers_callQuoted hstandard hr (.orderBy .desc) ih (by decide) nofun p body
  | thenBy _ p body ih =>
    exact covers_callQuoted hstandard hr (.thenBy .asc) ih (by decide) nofun p body
  | thenByDesc _ p body ih =>
    exact covers_callQuoted hstandard hr (.thenBy .desc) ih (by decide) nofun p body
  | groupBy _ p body ih =>
    exact covers_callQuoted hstandard hr .groupBy ih (by decide) nofun p body
  | skip _ hx ih => exact covers_operand hstandard hr .skip ih (by decide) nofun hx
  | take _ hx ih => exact covers_operand hstandard hr .take ih (by decide) nofun hx
  | distinct _ ih => exact Covers.call hstandard hr .distinct [] ih (by decide) .nil nofun
  | @join q _ inner others _ _ p outerKey p' innerKey left right pair ih ihinner =>
    refine Covers.call hstandard hr .join [.operand, .lambda 1, .lambda 1, .lambda 2] ih (by decide)
      ?_ ?_
    · exact .cons ihinner.settlesAs (.cons (Expr.quote_settlesAs [p] outerKey)
        (.cons (Expr.quote_settlesAs [p'] innerKey)
          (.cons (Expr.quote_settlesAs [left, right] pair) .nil)))
    · exact fun _ => ⟨inner.expr, others, rfl, ihinner⟩
  | union _ _ ih ihother =>
    exact covers_sequence hstandard hr (.setOp .union) ih ihother (by decide)
  | intersect _ _ ih ihother =>
    exact covers_sequence hstandard hr (.setOp .intersect) ih ihother (by decide)
  | except _ _ ih ihother =>
    exact covers_sequence hstandard hr (.setOp .except) ih ihother (by decide)

/-- A reduction. -/
theorem covers_reduction (hq : Written q names) (reduction : Reduction) :
    r.Covers (q.call reduction.name []).expr (names ++ [reduction.name]) := by
  rw [← ResultKind.name_reduce]
  exact Covers.call hstandard hr (.result (.reduce reduction)) [] (hq.covers hstandard hr)
    (by cases reduction <;> decide) .nil nofun

end

/-- A reduction with a predicate is written as a filter and a reduction. -/
theorem callQuoted_surfaceEq (q : Query) (reduction : Reduction) (p : String) (body : Expr) :
    (q.callQuoted reduction.name (.lambda [p] body)).expr.SurfaceEq
      ((q.filter (.lambda [p] body)).call reduction.name []).expr := by
  have hquote : (Expr.quote (.lambda [p] body)).SurfaceEq (.lambda [p] body) :=
    .spelling (.quote [p] body)
  have hleft : (q.callQuoted reduction.name (.lambda [p] body)).expr.SurfaceEq
      (.call .queryable reduction.name q.expr [.lambda [p] body]) :=
    .child _ [q.expr] [] rfl hquote
  have hfilter : (q.filter (.lambda [p] body)).expr.SurfaceEq
      (.call .queryable "filter" q.expr [.lambda [p] body]) := .child _ [q.expr] [] rfl hquote
  have hright : ((q.filter (.lambda [p] body)).call reduction.name []).expr.SurfaceEq
      (.call .queryable reduction.name (.call .queryable "filter" q.expr [.lambda [p] body]) []) :=
    .child _ [] [] rfl hfilter
  exact hleft.trans (.trans (.spelling (.predicate reduction q.expr p body)) hright.symm)

section

variable (hstandard : Registry.withExtensions [] = .ok standard) (hr : standard.Extends r)

include hstandard hr

/-- A reduction with a predicate. -/
theorem covers_predicate (hq : Written q names) (reduction : Reduction) (p : String) (body : Expr) :
    r.Covers (q.callQuoted reduction.name (.lambda [p] body)).expr
      (names ++ ["filter", reduction.name]) := by
  have hreduce := covers_reduction hstandard hr (.filter hq p body) reduction
  rw [List.append_assoc] at hreduce
  exact hreduce.of_settledTree_eq (callQuoted_surfaceEq q reduction p body).settledTree_eq

/-- An aggregate of selected values. -/
theorem covers_aggregate (hq : Written q names) (f : Aggregate) (p : String) (body : Expr) :
    r.Covers (q.callQuoted f.name (.lambda [p] body)).expr (names ++ [f.name]) := by
  rw [← ResultKind.name_aggregate]
  exact covers_callQuoted hstandard hr (.result (.aggregate f)) (hq.covers hstandard hr)
    (by cases f <;> decide) nofun p body

/-- **What is written and finished fluently is recognised.** -/
theorem Finished.covers (h : Finished e names) : r.Covers e names := by
  -- a method is one of the general cases, by the name that it calls
  cases h with
  | rows hq => exact hq.covers hstandard hr
  | count hq => exact covers_reduction hstandard hr hq .count
  | countWhere hq p body => exact covers_predicate hstandard hr hq .count p body
  | any hq => exact covers_reduction hstandard hr hq .any
  | anyWhere hq p body => exact covers_predicate hstandard hr hq .any p body
  | first hq => exact covers_reduction hstandard hr hq .first
  | firstWhere hq p body => exact covers_predicate hstandard hr hq .first p body
  | firstOrDefault hq => exact covers_reduction hstandard hr hq .firstOrDefault
  | single hq => exact covers_reduction hstandard hr hq .single
  | singleOrDefault hq => exact covers_reduction hstandard hr hq .singleOrDefault
  | last hq => exact covers_reduction hstandard hr hq .last
  | named hq reduction => exact covers_reduction hstandard hr hq reduction
  | namedWhere hq reduction p body => exact covers_predicate hstandard hr hq reduction p body
  | all hq p body =>
    exact covers_callQuoted hstandard hr (.result .all) (hq.covers hstandard hr) (by decide)
      nofun p body
  | sum hq p body => exact covers_aggregate hstandard hr hq .sum p body
  | min hq p body => exact covers_aggregate hstandard hr hq .min p body
  | max hq p body => exact covers_aggregate hstandard hr hq .max p body
  | average hq p body => exact covers_aggregate hstandard hr hq .average p body
  | contains hq hx =>
    exact covers_operand hstandard hr (.result .contains) (hq.covers hstandard hr) (by decide)
      nofun hx
  | deleteAll hq =>
    exact Covers.call hstandard hr .delete [] (hq.covers hstandard hr) (by decide) .nil nofun
  | deleteWhere hq p body =>
    exact Covers.call hstandard hr .delete [.lambda 1] (hq.covers hstandard hr) (by decide)
      (.cons (Expr.quote_settlesAs [p] body) .nil) nofun
  | updateAll hq s =>
    exact Covers.call hstandard hr .update [.lambda 1] (hq.covers hstandard hr) (by decide)
      (.cons (Expr.quote_settlesAs [settersParameter] s.chain) .nil) nofun

end

end Query

/-- A covered tree is compiled without an unsupported call: the passes stop for reasons of their own,
and recognition does not stop there. -/
theorem Registry.Covers.compile {r : Registry} {e : Expr} {names : List String}
    (h : r.Covers e names) :
    (∀ shape, (Compiler.mk r Pass.standard).compile e ≠ .error (.fault (.unsupported shape))) ∧
      ∀ m, (Compiler.mk r Pass.standard).compile e = .ok m → m.clauses.map Clause.name = names := by
  refine ⟨fun shape hshape => ?_, fun m hm => ?_⟩
  · rw [Compiler.compile_eq] at hshape
    cases hsettle : settle Pass.standard e with
    | error stop =>
      rw [settledTree, hsettle] at hshape
      rcases settle_standard_eq_error hsettle with ⟨x, cause, rfl⟩ | ⟨pass, rfl⟩ <;> cases hshape
    | ok s =>
      have hout := settledTree_of_settle hsettle
      have hsupported := (h _ hout).recognise.1
      rw [hout] at hshape
      change (r.recognise s.edit.tree).mapError Stop.fault = _ at hshape
      cases hrecognise : r.recognise s.edit.tree with
      | error err =>
        rw [hrecognise] at hshape
        cases hshape
        exact hsupported shape hrecognise
      | ok m =>
        rw [hrecognise] at hshape
        cases hshape
  · obtain ⟨out, hout, hm⟩ := Compiler.compile_eq_ok_iff.mp hm
    exact (h out hout).recognise.2 m hm

/-- **Fluent queries compile, clause by clause.** A compiler of the standard operations, with whatever
extensions, does not call any operation of a fluent query unsupported; and if there is a model, its
clauses are the operations that were called, in this order. -/
theorem compile_fluent {sets : List OperationSet} {c : Compiler}
    (hc : Compiler.build sets Pass.standard = .ok c) {e : Expr} {names : List String}
    (h : Query.Finished e names) :
    (∀ shape, c.compile e ≠ .error (.fault (.unsupported shape))) ∧
      ∀ m, c.compile e = .ok m → m.clauses.map Clause.name = names := by
  rw [Compiler.build] at hc
  split at hc
  · rename_i registry hregistry
    cases hc
    obtain ⟨standard, hstandard, hextends⟩ := Registry.exists_standard_of_withExtensions hregistry
    exact (h.covers hstandard hextends).compile
  · cases hc

section RecentOrders

-- the standard sets are merged, and rounds of all passes are run, by the kernel
set_option maxRecDepth 8192

/-- `orders.order_by_desc(o => o.date).take(5 + 5).join(users, o => o.user, u => u.id, (o, u) => u)`. -/
def recentBuyers : Query :=
  ((Query.source "orders").orderByDesc (.lambda ["o"] (.member (.parameter "o") "date"))).take
    (.binary .add (.constant (.int 5)) (.constant (.int 5))) |>.join (.source "users")
    (.lambda ["o"] (.member (.parameter "o") "user")) (.lambda ["u"] (.member (.parameter "u") "id"))
    (.lambda ["o", "u"] (.parameter "u"))

/-- `recentBuyers.count_where(u => u.active)`. -/
def activeBuyers : Expr :=
  recentBuyers.countWhere (.lambda ["u"] (.member (.parameter "u") "active"))

theorem compile_fluent_activeBuyers :
    Query.Finished activeBuyers ["order_by", "take", "join", "filter", "count"] ∧
      ∃ c m, Compiler.build [] Pass.standard = .ok c ∧ c.compile activeBuyers = .ok m ∧
        m.clauses.map Clause.name = ["order_by", "take", "join", "filter", "count"] := by
  have hsum : (Expr.binary .add (.constant (.int 5)) (.constant (.int 5))).StaysOperand := by
    intro out hout
    obtain rfl : Expr.constant (.int 10) = out := Except.ok.inj hout
    rfl
  have hwritten : Query.Finished activeBuyers ["order_by", "take", "join", "filter", "count"] :=
    .countWhere (.join (.take (.orderByDesc (.source "orders") "o" _) hsum) (.source "users") "o" _
      "u" _ "o" "u" _) "u" _
  have hbuild : ∃ c, Compiler.build [] Pass.standard = .ok c := ⟨_, rfl⟩
  obtain ⟨c, hc⟩ := hbuild
  have hm : ∃ m, c.compile activeBuyers = .ok m := by
    cases hc
    exact ⟨_, rfl⟩
  obtain ⟨m, hm⟩ := hm
  exact ⟨hwritten, c, m, hc, hm, (compile_fluent hc hwritten).2 m hm⟩

end RecentOrders

end QueryChain
