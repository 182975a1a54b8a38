import Mathlib.Data.List.Induction
import QueryChain.Proofs.Registry.Entries

/-!
# Registries under construction

A registry is built step by step: entries are added one by one or in sets, and shapes are replaced. A
step that is refused does not end the construction. Whatever the steps, no entry takes the place of
another one silently: only a replacement can.

## Main definitions

* `Change`, `Registry.perform`: a step, and what it does to a registry
* `Registry.built`: the registry after a sequence of steps
* `Registry.matching`: the number of entries that a call matches

## Main results

* `CallShape.exists_of`: every shape is the shape of a call
* `Registry.lookup_built_append`: a call keeps its operation unless its shape is replaced
* `Registry.exists_replace_of_overrides`: how a shape comes to stand over its name
* `Registry.matching_le_one`: without replacements a call matches one entry at most
* `registry_never_shadows`: the whole of it
-/

namespace QueryChain

/-- A step in the construction of a registry. -/
inductive Change where
  /-- Adds the entry of a shape or of a name. -/
  | add (entry : Entry)
  /-- Adds the entries of a set, up to the first that is refused. -/
  | merge (set : OperationSet)
  /-- Puts an exact shape in place. -/
  | replace (shape : CallShape) (op : Operation)

namespace Registry

/-- The registry after a step, and the refusal if there is one. -/
def perform (r : Registry) : Change → Registry × Option RegistryError
  | .add entry => r.addAll [entry]
  | .merge set => r.merge set
  | .replace shape op => (r.replace shape op, none)

/-- The registry after steps on an empty one, of which some may have been refused. -/
def built (changes : List Change) : Registry :=
  changes.foldl (fun r change => (r.perform change).1) empty

theorem built_concat (changes : List Change) (change : Change) :
    built (changes ++ [change]) = ((built changes).perform change).1 :=
  List.foldl_concat ..

/-- What holds of the empty registry and is kept by every step holds after all steps. -/
theorem built_induction {P : Registry → Prop} (start : P empty)
    (step : ∀ r change, P r → P (r.perform change).1) (changes : List Change) :
    P (built changes) := by
  induction changes using List.reverseRecOn with
  | nil => exact start
  | append_singleton changes change ih =>
    rw [built_concat]
    exact step _ change ih

/-- The number of entries that a call matches. -/
def matching (r : Registry) (c : Call) : Nat :=
  r.shapes.countP (·.1 = .of c) + r.names.countP (·.1 = (c.owner, c.method))

end Registry

/-! ## Refusals -/

/-- Every shape is the shape of a call. -/
theorem CallShape.exists_of (shape : CallShape) : ∃ c, CallShape.of c = shape := by
  have harg : ∀ a : ArgShape, ∃ e, ArgShape.of e = a := by
    intro a
    cases a with
    | lambda arity =>
      refine ⟨.lambda (List.replicate arity "x") (.constant .null), ?_⟩
      simp [ArgShape.of, Expr.asLambda?, Lambda.arity]
    | operand => exact ⟨.constant .null, rfl⟩
  choose arg harg using harg
  refine ⟨⟨shape.owner, shape.name, .constant .null, shape.args.map arg⟩, ?_⟩
  simp [CallShape.of, Function.comp_def, harg]

namespace Registry

variable {r : Registry}

theorem perform_add_eq (r : Registry) (entry : Entry) :
    r.perform (.add entry) = match r.add entry with
      | .ok next => (next, none)
      | .error err => (r, some err) :=
  rfl

theorem perform_add_refused {entry : Entry} {err : RegistryError}
    (h : (r.perform (.add entry)).2 = some err) : (r.perform (.add entry)).1 = r := by
  rw [perform_add_eq] at h ⊢
  cases hadd : r.add entry with
  | ok next => simp [hadd] at h
  | error err => rfl

theorem perform_add_accepted_iff {entry : Entry} :
    (r.perform (.add entry)).2 = none ↔ ∃ next, r.add entry = .ok next := by
  rw [perform_add_eq]
  cases r.add entry <;> simp

/-- A shape is accepted iff no call of the shape is recognised. -/
theorem perform_shape_accepted_iff {shape : CallShape} {op : Operation} :
    (r.perform (.add (.shape shape op))).2 = none ↔
      ∀ c, CallShape.of c = shape → r.lookup c = none := by
  have hnone : (∃ next, r.add (.shape shape op) = .ok next) ↔ r.resolve shape = none := by
    simp only [add, register_eq_ok_iff, exists_and_left, exists_eq, and_true]
  rw [perform_add_accepted_iff, hnone]
  constructor
  · rintro h c rfl
    exact h
  · intro h
    obtain ⟨c, rfl⟩ := shape.exists_of
    exact h c rfl

/-- A name is accepted iff no call of the name is recognised, whatever its arguments. -/
theorem perform_name_accepted_iff {owner : Owner} {name : String} {op : Operation} :
    (r.perform (.add (.name owner name op))).2 = none ↔
      ∀ c : Call, c.owner = owner → c.method = name → r.lookup c = none := by
  rw [perform_add_accepted_iff]
  simp only [add, registerName_eq_ok_iff, exists_and_left, exists_eq, and_true]
  constructor
  · intro h c howner hname
    exact h (.of c) howner hname
  · intro h shape howner hname
    obtain ⟨c, rfl⟩ := shape.exists_of
    exact h c howner hname

/-! ## Operations of calls over time -/

theorem perform_keeps_lookup {c : Call} {op : Operation} {change : Change}
    (h : r.lookup c = some op) (hchange : ∀ op', change ≠ .replace (.of c) op') :
    (r.perform change).1.lookup c = some op := by
  cases change with
  | add entry => exact r.addAll_extends [entry] _ op h
  | merge set => exact r.addAll_extends set.entries _ op h
  | replace shape op' =>
    have hne : CallShape.of c ≠ shape := by
      rintro rfl
      exact hchange op' rfl
    exact (resolve_replace hne op').trans h

/-- A call keeps its operation unless its shape is replaced. -/
theorem lookup_built_append {changes later : List Change} {c : Call} {op : Operation}
    (h : (built changes).lookup c = some op) (hlater : ∀ op', .replace (.of c) op' ∉ later) :
    (built (changes ++ later)).lookup c = some op := by
  induction later using List.reverseRecOn with
  | nil => rwa [List.append_nil]
  | append_singleton later change ih =>
    rw [← List.append_assoc, built_concat]
    refine perform_keeps_lookup (ih fun op' hmem => ?_) fun op' hchange => ?_
    · exact hlater op' (List.mem_append_left _ hmem)
    · exact hlater op' (by simp [hchange])

/-- An entry of a shape that stands over the entry of its name was put there by a replacement, when
the entry of the name was there already. -/
theorem exists_replace_of_overrides {changes : List Change} {shape : CallShape}
    {op named : Operation} (h : (built changes).Overrides shape op named) :
    ∃ before later, changes = before ++ .replace shape op :: later ∧
      ((shape.owner, shape.name), named) ∈ (built before).names ∧
        ∀ op', .replace shape op' ∉ later := by
  induction changes using List.reverseRecOn with
  | nil => exact absurd h.shape_entry (by simp [built, empty])
  | append_singleton changes change ih =>
    rw [built_concat] at h
    have hold : (built changes).Overrides shape op named → (∀ op', change ≠ .replace shape op') →
        ∃ before later, changes ++ [change] = before ++ .replace shape op :: later ∧
          ((shape.owner, shape.name), named) ∈ (built before).names ∧
            ∀ op', .replace shape op' ∉ later := by
      intro hover hchange
      obtain ⟨before, later, rfl, hname, hlater⟩ := ih hover
      refine ⟨before, later ++ [change], by simp, hname, fun op' hmem => ?_⟩
      rcases List.mem_append.mp hmem with hmem | hmem
      · exact hlater op' hmem
      · exact hchange op' (List.mem_singleton.mp hmem).symm
    cases change with
    | add entry => exact hold (addAll_overrides [entry] h) nofun
    | merge set => exact hold (addAll_overrides set.entries h) nofun
    | replace shape' op' =>
      rcases replace_overrides h with ⟨rfl, rfl, hname⟩ | ⟨hne, hover⟩
      · exact ⟨changes, [], rfl, hname, nofun⟩
      · refine hold hover fun op'' heq => ?_
        cases heq
        exact hne rfl

theorem keyed_built (changes : List Change) : (built changes).Keyed := by
  refine built_induction ⟨.nil, .nil⟩ (fun r change hr => ?_) changes
  cases change with
  | add entry => exact hr.addAll [entry]
  | merge set => exact hr.addAll set.entries
  | replace shape op => exact hr.replace shape op

theorem countP_key_le_one {α β : Type} [DecidableEq α] {entries : List (α × β)}
    (h : (entries.map Prod.fst).Nodup) (key : α) : entries.countP (·.1 = key) ≤ 1 := by
  have hcount := List.nodup_iff_count_le_one.mp h key
  rw [List.count_eq_countP, List.countP_map] at hcount
  simpa [Function.comp_def, beq_eq_decide] using hcount

/-- Without replacements, a call matches one entry at most. -/
theorem matching_le_one {changes : List Change} (h : ∀ shape op, .replace shape op ∉ changes)
    (c : Call) : (built changes).matching c ≤ 1 := by
  have hkeyed := keyed_built changes
  have hshapes := countP_key_le_one hkeyed.shapes (.of c)
  have hnames := countP_key_le_one hkeyed.names (c.owner, c.method)
  by_contra htwo
  rw [matching] at htwo
  have hboth : 0 < (built changes).shapes.countP (·.1 = .of c) ∧
      0 < (built changes).names.countP (·.1 = (c.owner, c.method)) := by omega
  obtain ⟨⟨shape, op⟩, hshape, hof⟩ := List.countP_pos_iff.mp hboth.1
  obtain ⟨⟨key, named⟩, hname, hkey⟩ := List.countP_pos_iff.mp hboth.2
  obtain rfl : shape = .of c := by simpa using hof
  obtain rfl : key = (c.owner, c.method) := by simpa using hkey
  obtain ⟨before, later, rfl, -, -⟩ := exists_replace_of_overrides ⟨hshape, hname⟩
  exact h (.of c) op (by simp)

end Registry

open Registry in
/-- **No entry shadows another one silently.** A refused entry changes nothing; an entry is accepted
iff no call that it would recognise is recognised already; a call keeps its operation unless its own
shape is replaced; an entry of a shape stands over the entry of its name only by a replacement that
came later than the name; and without replacements a call matches one entry at most. -/
theorem registry_never_shadows (changes : List Change) :
    (∀ entry err, ((built changes).perform (.add entry)).2 = some err →
      ((built changes).perform (.add entry)).1 = built changes) ∧
    (∀ shape op, ((built changes).perform (.add (.shape shape op))).2 = none ↔
      ∀ c, CallShape.of c = shape → (built changes).lookup c = none) ∧
    (∀ owner name op, ((built changes).perform (.add (.name owner name op))).2 = none ↔
      ∀ c : Call, c.owner = owner → c.method = name → (built changes).lookup c = none) ∧
    (∀ c op, (built changes).lookup c = some op →
      ∀ later, (∀ op', .replace (.of c) op' ∉ later) →
        (built (changes ++ later)).lookup c = some op) ∧
    (∀ shape op named, (shape, op) ∈ (built changes).shapes →
      ((shape.owner, shape.name), named) ∈ (built changes).names →
        ∃ before later, changes = before ++ .replace shape op :: later ∧
          ((shape.owner, shape.name), named) ∈ (built before).names ∧
            ∀ op', .replace shape op' ∉ later) ∧
    ((∀ shape op, .replace shape op ∉ changes) → ∀ c, (built changes).matching c ≤ 1) :=
  ⟨fun _ _ => perform_add_refused, fun _ _ => perform_shape_accepted_iff,
    fun _ _ _ => perform_name_accepted_iff, fun _ _ h _ => lookup_built_append h,
    fun _ _ _ hshape hname => exists_replace_of_overrides ⟨hshape, hname⟩, matching_le_one⟩

/-- The shape of `distinct` with a key. -/
def distinctByKey : CallShape :=
  ⟨.queryable, "distinct", [.lambda 1]⟩

/-- The name is added, a set with a shape of the name is refused, and the shape is put in place. -/
def distinctChanges : List Change :=
  [.add (.name .queryable "distinct" .distinct), .merge ⟨"keys", [(distinctByKey, .groupBy)], []⟩,
    .replace distinctByKey .groupBy]

theorem registry_never_shadows_distinct :
    (∃ before later, distinctChanges = before ++ .replace distinctByKey .groupBy :: later ∧
      ((.queryable, "distinct"), .distinct) ∈ (Registry.built before).names ∧
        ∀ op, .replace distinctByKey op ∉ later) ∧
    (Registry.built (distinctChanges ++ [.replace distinctByKey .filter])).lookup
      ⟨.queryable, "distinct", .source "users", []⟩ = some .distinct ∧
    ((Registry.built distinctChanges).perform (.add (.shape distinctByKey .filter))).1 =
      Registry.built distinctChanges ∧
    ∀ c, (Registry.built (distinctChanges.take 2)).matching c ≤ 1 := by
  obtain ⟨hrefused, -, -, hkept, hoverrides, -⟩ := registry_never_shadows distinctChanges
  refine ⟨hoverrides distinctByKey .groupBy .distinct (by decide) (by decide),
    hkept ⟨.queryable, "distinct", .source "users", []⟩ .distinct (by decide) _ ?_,
    hrefused _ (.ambiguousShape distinctByKey .groupBy .filter) rfl, ?_⟩
  · simp [distinctByKey, CallShape.of]
  · obtain ⟨-, -, -, -, -, honce⟩ := registry_never_shadows (distinctChanges.take 2)
    exact honce (by simp [distinctChanges])

end QueryChain
