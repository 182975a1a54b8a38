import Mathlib.Data.List.Perm.Basic
import QueryChain.Model.Explain
import QueryChain.Proofs.Model.Nesting
import QueryChain.Proofs.Text.Lines

/-!
# Lines of an explanation

The lines that the explanation of a model should have are said here without writing them: a model
stands before its clauses, a clause before the model that it holds, and a line consists of words behind
two spaces for each level. The explanation is written to a single text, piece by piece; if no part
brings a line feed of its own, the lines of that text are the expected ones.

## Main definitions

* `Line`: a model or a clause with its nesting depth
* `Model.outline`: the lines of a model, in order
* `Line.render`: the text of a line
* `Model.TextsOnOneLine`: nothing that the lines show has a line feed

## Main results

* `Clause.explainTo_eq`: what one clause writes
* `Model.explainTo_eq`: what a model writes
* `Model.outline_models`, `Model.outline_clauses`: every model and every clause has one line
* `Model.explainLines_outline`: the explanation has the lines of the outline
-/

namespace QueryChain

open Text

/-! ## Outlines -/

/-- What a line of an explanation stands for. -/
inductive Part where
  | model (m : Model)
  | clause (c : Clause)

namespace Part

/-- The model that the line stands for. -/
def model? : Part → Option Model
  | model m => some m
  | clause _ => none

/-- The clause that the line stands for. -/
def clause? : Part → Option Clause
  | model _ => none
  | clause c => some c

end Part

/-- A line of an explanation: a part, and the number of clauses around it that hold it. -/
structure Line where
  depth : Nat
  part : Part

/-- A line stands for a model or for a clause. -/
theorem Line.length_eq_add (ls : List Line) : ls.length =
    (ls.filterMap (·.part.model?)).length + (ls.filterMap (·.part.clause?)).length := by
  induction ls with
  | nil => rfl
  | cons l ls ih =>
    rcases l with ⟨depth, m | c⟩
    all_goals
      simp only [List.filterMap_cons, Part.model?, Part.clause?, List.length_cons, ih]
      omega

/-- The lines of a model in order of application, where a depth is given for its own. The lines of a
model within a clause come directly after the clause's line, one level deeper. -/
def Model.outline : Model → Nat → List Line :=
  fold (fun m clauses depth => ⟨depth, .model m⟩ :: clauses.flatMap (· depth))
    fun c within depth => ⟨depth, .clause c⟩ :: within.elim [] (· (depth + 1))

/-- The lines of a clause. -/
def Clause.outline (c : Clause) (depth : Nat) : List Line :=
  ⟨depth, .clause c⟩ :: c.operand?.elim [] (Model.outline · (depth + 1))

namespace Model

theorem outline_eq (m : Model) (depth : Nat) :
    m.outline depth = ⟨depth, .model m⟩ :: m.clauses.flatMap (·.outline depth) := by
  rw [outline, fold_eq, List.flatMap_map]
  refine congrArg (_ :: ·) (List.flatMap_congr fun c _ => ?_)
  rw [Clause.outline]
  cases c.operand? <;> rfl

/-- **Every model has one line,** in the order of the models. -/
theorem outline_models (m : Model) (depth : Nat) :
    (m.outline depth).filterMap (·.part.model?) = m.models := by
  induction m using induction_on_operands generalizing depth with
  | node m ih =>
    rw [outline_eq, models_eq, List.filterMap_cons, List.filterMap_flatMap]
    refine congrArg (m :: ·) (List.flatMap_congr fun c hc => ?_)
    rw [Clause.outline, List.filterMap_cons]
    cases hinner : c.operand? with
    | none => rfl
    | some inner => exact ih c hc inner hinner (depth + 1)

/-- **Every clause has one line.** The clauses of a model within a clause come between those of the
model around it. -/
theorem outline_clauses (m : Model) (depth : Nat) :
    ((m.outline depth).filterMap (·.part.clause?)).Perm (m.models.flatMap clauses) := by
  induction m using induction_on_operands generalizing depth with
  | node m ih =>
    have hlines : (m.outline depth).filterMap (·.part.clause?) = m.clauses.flatMap fun c =>
        c :: (c.operand?.elim [] (outline · (depth + 1))).filterMap (·.part.clause?) := by
      rw [outline_eq, List.filterMap_cons, List.filterMap_flatMap]
      rfl
    have hmodels : m.models.flatMap clauses = m.clauses.map id ++ m.clauses.flatMap fun c =>
        (c.operand?.elim [] models).flatMap clauses := by
      rw [models_eq, List.flatMap_cons, List.flatMap_assoc, List.map_id]
    rw [hlines, hmodels]
    refine (List.map_append_flatMap_perm m.clauses id _).symm.trans (List.Perm.append_left _ ?_)
    refine List.Perm.flatMap_left _ fun c hc => ?_
    cases hinner : c.operand? with
    | none => rfl
    | some inner => exact ih c hc inner hinner (depth + 1)

theorem length_outline (m : Model) (depth : Nat) :
    (m.outline depth).length = m.models.length + (m.models.flatMap clauses).length := by
  rw [Line.length_eq_add, outline_models, (m.outline_clauses depth).length_eq]

end Model

/-! ## The words of a line -/

/-- The text of the operand of a reduction, if it has one. -/
def ResultOp.texts : ResultOp → List String
  | reduce _ => []
  | all predicate => [predicate.render]
  | aggregate _ selector => selector.toList.map Lambda.render
  | contains item => [item.render]

theorem ResultOp.render_eq (op : ResultOp) : op.render = " ".intercalate (op.name :: op.texts) := by
  cases op with
  | aggregate f selector => cases selector <;> simp [render, texts]
  | _ => simp [render, texts]

namespace Clause

/-- The texts of the operands, lambdas and member paths of a clause. -/
def texts : Clause → List String
  | filter l | select l | groupBy l | orderBy l _ _ => [l.render]
  | skip count | take count => [count.render]
  | distinct | setOp _ _ => []
  | join _ outerKey innerKey pair => [outerKey.render, innerKey.render, pair.render]
  | result op => op.texts
  | delete condition => condition.toList.map Lambda.render
  | update assignments => assignments.flatMap fun a => [".".intercalate a.path, a.value.render]

/-- What the line of a clause says after the clause's name. -/
def words : Clause → List String
  | filter l | select l | groupBy l => [l.render]
  | orderBy key direction _ => [key.render, direction.label]
  | skip count | take count => [count.render]
  | distinct | setOp _ _ => []
  | join _ outerKey innerKey pair =>
    ["on", outerKey.render, "==", innerKey.render, "into", pair.render]
  | result op => op.texts
  | delete condition => condition.toList.flatMap fun l => ["where", l.render]
  | update assignments => ["set", ", ".intercalate (assignments.map Assignment.render)]

theorem isName_name (c : Clause) : isName c.name := by
  cases c with
  | orderBy key direction primary => cases primary <;> (rw [name]; decide)
  | setOp op other =>
    rw [name]
    cases op <;> decide
  | result op =>
    rw [name]
    cases op with
    | reduce r => cases r <;> decide
    | aggregate f selector =>
      rw [ResultOp.name]
      cases f <;> decide
    | all | contains =>
      rw [ResultOp.name]
      decide
  | _ =>
    rw [name]
    decide

theorem onOneLine_words {c : Clause} (h : ∀ t ∈ c.texts, OnOneLine t) :
    ∀ w ∈ c.words, OnOneLine w := by
  cases c with
  | filter | select | groupBy | skip | take | distinct | setOp | result => exact h
  | orderBy key direction primary =>
    have hlabel : OnOneLine direction.label := by cases direction <;> decide
    simpa [words, texts, hlabel] using h
  | join inner outerKey innerKey pair =>
    have hon : OnOneLine "on" := by decide
    have hequals : OnOneLine "==" := by decide
    have hinto : OnOneLine "into" := by decide
    simpa [words, texts, hon, hequals, hinto] using h
  | delete condition =>
    have hwhere : OnOneLine "where" := by decide
    cases condition with
    | none => exact h
    | some l => simpa [words, texts, hwhere] using h
  | update assignments =>
    have hset : OnOneLine "set" := by decide
    have hassignment : ∀ a ∈ assignments, OnOneLine a.render := by
      intro a ha
      have hshown : ∀ t ∈ [".".intercalate a.path, a.value.render], OnOneLine t := fun t ht =>
        h t (List.mem_flatMap.mpr ⟨a, ha, ht⟩)
      have hpath : OnOneLine (".".intercalate a.path) := hshown _ (by simp)
      have hvalue : OnOneLine a.value.render := hshown _ (by simp)
      exact (hpath.append (by decide)).append hvalue
    have hassignments : OnOneLine (", ".intercalate (assignments.map Assignment.render)) := by
      refine OnOneLine.intercalate (by decide) ?_
      simpa using hassignment
    simp [words, hset, hassignments]

end Clause

/-- The words of a line: what it stands for, then what it says about it. -/
def Part.words : Part → List String
  | model m => ["from", m.source.render]
  | clause c => c.name :: c.words

theorem Part.exists_words (p : Part) : ∃ w ws, p.words = w :: ws ∧ isName w := by
  cases p with
  | model m => exact ⟨_, _, rfl, by decide⟩
  | clause c => exact ⟨_, _, rfl, c.isName_name⟩

namespace Line

/-- The text of a line: two spaces for each level, then the words. -/
def render (l : Line) : String :=
  String.ofList (List.replicate (2 * l.depth) ' ') ++ " ".intercalate l.part.words

/-- **A line begins with two spaces for each level,** and no more. -/
theorem leadingSpaces_render (l : Line) : leadingSpaces l.render = 2 * l.depth := by
  obtain ⟨w, ws, hwords, hw⟩ := l.part.exists_words
  rw [render, hwords]
  cases ws with
  | nil => simpa using leadingSpaces_of_isName hw (2 * l.depth) ""
  | cons v vs =>
    rw [String.intercalate_cons_cons, String.append_assoc]
    exact leadingSpaces_of_isName hw _ _

theorem onOneLine_render {l : Line} (h : ∀ w ∈ l.part.words, OnOneLine w) :
    OnOneLine l.render :=
  (onOneLine_spaces _).append (OnOneLine.intercalate (by decide) h)

end Line

/-! ## Writing the lines -/

theorem indentation_eq (depth : Nat) :
    indentation depth = String.ofList (List.replicate (2 * depth) ' ') := by
  have hlevel : "  ".toList = List.replicate 2 ' ' := by decide
  rw [← String.toList_inj, indentation, String.toList_join, String.toList_ofList, List.flatMap_def,
    List.map_replicate, hlevel, List.flatten_replicate_replicate, Nat.mul_comm]

theorem Line.render_eq (l : Line) :
    l.render = indentation l.depth ++ " ".intercalate l.part.words := by
  rw [render, indentation_eq]

/-- **What a clause writes:** its line, and after it the model that it holds, one level deeper. -/
theorem Clause.explainTo_eq (c : Clause) (depth : Nat) (out : String) :
    c.explainTo depth out =
      c.operand?.elim (out ++ ((⟨depth, .clause c⟩ : Line).render ++ "\n"))
        (Model.explainTo (depth + 1) (out ++ ((⟨depth, .clause c⟩ : Line).render ++ "\n"))) := by
  rw [Line.render_eq, Part.words]
  -- words and pieces are cut at different places, so the texts are compared letter by letter
  cases c with
  | filter | select | orderBy | skip | take | distinct | groupBy | update =>
    simp [explainTo, operand?, words, name, ← String.toList_inj]
  | result op =>
    simp [explainTo, operand?, words, name, ResultOp.render_eq, ← String.toList_inj]
  | delete condition =>
    cases condition <;> simp [explainTo, operand?, words, name, ← String.toList_inj]
  | join | setOp =>
    rw [explainTo, operand?, Option.elim_some]
    congr 1
    simp [words, name, ← String.toList_inj]

theorem Clause.explainAllTo_eq (depth : Nat) (out : String) (cs : List Clause) :
    explainAllTo depth out cs = cs.foldl (explainTo depth) out := by
  induction cs generalizing out with
  | nil => rfl
  | cons c cs ih => rw [explainAllTo, ih, List.foldl_cons]

namespace Model

theorem explainTo_foldl (m : Model) (depth : Nat) (out : String) :
    m.explainTo depth out = m.clauses.foldl (Clause.explainTo depth)
      (out ++ ((⟨depth, .model m⟩ : Line).render ++ "\n")) := by
  cases m with
  | mk source clauses =>
    rw [explainTo, Clause.explainAllTo_eq, Line.render_eq, Part.words]
    simp [String.append_assoc]

/-- **What a model writes:** the lines of its outline, whatever was written before. -/
theorem explainTo_eq (m : Model) (depth : Nat) (out : String) :
    m.explainTo depth out = out ++ unlines ((m.outline depth).map Line.render) := by
  induction m using induction_on_operands generalizing depth out with
  | node m ih =>
    have hclause : ∀ c ∈ m.clauses, ∀ out, c.explainTo depth out =
        out ++ unlines ((c.outline depth).map Line.render) := by
      intro c hc out
      rw [Clause.explainTo_eq, Clause.outline, List.map_cons, unlines_cons]
      cases hinner : c.operand? with
      | none =>
        rw [Option.elim_none, Option.elim_none, List.map_nil, unlines_nil, String.append_empty]
      | some inner =>
        rw [Option.elim_some, Option.elim_some, ih c hc inner hinner, String.append_assoc]
    rw [explainTo_foldl, foldl_eq_append_unlines hclause, outline_eq, List.map_cons, unlines_cons,
      List.map_flatMap, String.append_assoc]

theorem explainLines_eq (m : Model) :
    m.explainLines = unlines ((m.outline 0).map Line.render) := by
  rw [explainLines, explainTo_eq, String.empty_append]

/-! ## Explanations of models -/

/-- Sources, operands, lambdas and member paths, in the model and the models within it, have texts
without line feeds. -/
def TextsOnOneLine (m : Model) : Prop :=
  ∀ n : Model, n.Within m →
    OnOneLine n.source.render ∧ ∀ c ∈ n.clauses, ∀ t ∈ c.texts, OnOneLine t

theorem textsOnOneLine_iff {m : Model} : m.TextsOnOneLine ↔ ∀ n ∈ m.models,
    OnOneLine n.source.render ∧ ∀ c ∈ n.clauses, ∀ t ∈ c.texts, OnOneLine t :=
  forall_congr' fun _ => imp_congr_left mem_models_iff.symm

instance (m : Model) : Decidable m.TextsOnOneLine :=
  decidable_of_iff _ textsOnOneLine_iff.symm

theorem TextsOnOneLine.onOneLine_words {m : Model} (h : m.TextsOnOneLine) {depth : Nat} {l : Line}
    (hl : l ∈ m.outline depth) : ∀ w ∈ l.part.words, OnOneLine w := by
  rw [textsOnOneLine_iff] at h
  rcases l with ⟨d, n | c⟩
  · have hn : n ∈ m.models := by
      rw [← m.outline_models depth]
      exact List.mem_filterMap.mpr ⟨_, hl, rfl⟩
    have hfrom : OnOneLine "from" := by decide
    simp [Part.words, hfrom, (h n hn).1]
  · have hc : c ∈ m.models.flatMap clauses :=
      (m.outline_clauses depth).subset (List.mem_filterMap.mpr ⟨_, hl, rfl⟩)
    obtain ⟨n, hn, hc⟩ := List.mem_flatMap.mp hc
    have hwords := Clause.onOneLine_words ((h n hn).2 c hc)
    exact List.forall_mem_cons.mpr ⟨onOneLine_of_isName c.isName_name, hwords⟩

theorem TextsOnOneLine.onOneLine_lines {m : Model} (h : m.TextsOnOneLine) (depth : Nat) :
    ∀ line ∈ (m.outline depth).map Line.render, OnOneLine line := by
  intro line hline
  obtain ⟨l, hl, rfl⟩ := List.mem_map.mp hline
  exact Line.onOneLine_render (h.onOneLine_words hl)

/-- **The explanation has the lines of the outline.** If the texts of its parts have no line feeds, the
explanation of a model falls, at its line feeds, into the lines of the outline, with nothing after the
last line feed. A line begins with exactly two spaces for each level. The model and the models within
it have one line each, and so have their clauses; there are as many lines as models and clauses
together. -/
theorem explainLines_outline {m : Model} (h : m.TextsOnOneLine) :
    (m.explainLines.split '\n').toList.map (·.copy) = (m.outline 0).map Line.render ++ [""] ∧
      (∀ l ∈ m.outline 0, leadingSpaces l.render = 2 * l.depth) ∧
      (m.outline 0).filterMap (·.part.model?) = m.models ∧
      ((m.outline 0).filterMap (·.part.clause?)).Perm (m.models.flatMap clauses) ∧
      m.explainLines.toList.count '\n' = m.models.length + (m.models.flatMap clauses).length := by
  refine ⟨?_, fun l _ => l.leadingSpaces_render, m.outline_models 0, m.outline_clauses 0, ?_⟩
  · rw [explainLines_eq, split_unlines (h.onOneLine_lines 0)]
  · rw [explainLines_eq, count_unlines (h.onOneLine_lines 0), List.length_map, length_outline]

end Model

/-- Active users with their orders or returns, all moved to one city. The line feed in the name of the
city is an escape in the text of the operand. -/
def relocatedBuyers : Model :=
  ⟨.named "users",
    [.filter ⟨["u"], .member (.parameter "u") "active"⟩,
      .join ⟨.named "orders", [.setOp .union ⟨.named "returns", []⟩, .distinct]⟩
        ⟨["u"], .member (.parameter "u") "id"⟩ ⟨["o"], .member (.parameter "o") "user"⟩
        ⟨["u", "o"], .parameter "u"⟩,
      .update [⟨["address", "city"], .operand (.constant (.text "Oslo\n"))⟩]]⟩

section

set_option maxRecDepth 4096

theorem explainLines_outline_relocatedBuyers :
    relocatedBuyers.TextsOnOneLine ∧
      (relocatedBuyers.explainLines.split '\n').toList.map (·.copy) = [
        "from users",
        "filter u => u.active",
        "join on u => u.id == o => o.user into (u, o) => u",
        "  from orders",
        "  union",
        "    from returns",
        "  distinct",
        "update_all set address.city = \"Oslo\\n\"",
        ""] ∧
      relocatedBuyers.explainLines.toList.count '\n' = 3 + 5 := by
  have htexts : relocatedBuyers.TextsOnOneLine := by decide
  obtain ⟨hsplit, -, -, -, hcount⟩ := Model.explainLines_outline htexts
  exact ⟨htexts, hsplit.trans (by decide), hcount⟩

end

end QueryChain
