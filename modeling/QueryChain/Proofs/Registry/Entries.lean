import Mathlib.Data.List.Nodup
import QueryChain.Registry.Standard

/-!
# Entries of a registry

When an entry is added and what it does to the entries before it. A registration is refused exactly
where a call would otherwise change its operation, so that entries that are added, one by one or in
sets, take nothing away from a registry.

## Main definitions

* `Registry.Extends`: whatever the first registry recognises, the second one recognises alike
* `Registry.Overrides`: an entry of a shape stands over the entry of its name
* `Registry.Keyed`: no key has two entries

## Main results

* `Registry.register_eq_ok_iff`, `Registry.registerName_eq_ok_iff`: when an entry is added
* `Registry.add_cases`: what adding an entry does
* `Registry.addAll_extends`, `Registry.mergeAll_extends`: added entries change no other operation
* `Registry.addAll_overrides`: added entries do not stand over each other
-/

namespace QueryChain

namespace Registry

variable {r r' : Registry}

/-! ## When an entry is added -/

theorem resolve_eq_none_iff {shape : CallShape} :
    r.resolve shape = none ↔
      r.shapes.lookup shape = none ∧ r.names.lookup (shape.owner, shape.name) = none :=
  Option.or_eq_none_iff

theorem resolve_ne_none_of_mem_shapes {shape : CallShape} {op : Operation}
    (h : (shape, op) ∈ r.shapes) : r.resolve shape ≠ none := by
  intro hnone
  have hkeys := List.lookup_eq_none_iff.mp (resolve_eq_none_iff.mp hnone).1
  simpa using hkeys _ h

theorem resolve_ne_none_of_mem_names (shape : CallShape) {op : Operation}
    (h : ((shape.owner, shape.name), op) ∈ r.names) : r.resolve shape ≠ none := by
  intro hnone
  have hkeys := List.lookup_eq_none_iff.mp (resolve_eq_none_iff.mp hnone).2
  simpa using hkeys _ h

/-- A shape is added iff calls of the shape have no operation yet. -/
theorem register_eq_ok_iff {shape : CallShape} {op : Operation} :
    r.register shape op = .ok r' ↔
      r.resolve shape = none ∧ r' = { r with shapes := r.shapes ++ [(shape, op)] } := by
  rw [resolve_eq_none_iff, register]
  cases r.shapes.lookup shape with
  | some existing => simp
  | none =>
    cases r.names.lookup (shape.owner, shape.name) with
    | some existing => simp
    | none => simp [eq_comm]

theorem anyNamed?_eq_none_iff {owner : Owner} {name : String} :
    r.anyNamed? owner name = none ↔
      ∀ shape : CallShape, shape.owner = owner → shape.name = name → r.resolve shape = none := by
  rw [anyNamed?, Option.or_eq_none_iff, Option.map_eq_none_iff, List.find?_eq_none]
  constructor
  · rintro ⟨hname, hshapes⟩ shape rfl rfl
    refine resolve_eq_none_iff.mpr ⟨List.lookup_eq_none_iff.mpr fun p hp => ?_, hname⟩
    have hne : shape ≠ p.1 := by
      rintro rfl
      exact hshapes p hp (by simp)
    simpa using hne
  · intro h
    refine ⟨(resolve_eq_none_iff.mp (h ⟨owner, name, []⟩ rfl rfl)).2, fun p hp hp' => ?_⟩
    obtain ⟨rfl, rfl⟩ : p.1.owner = owner ∧ p.1.name = name := by simpa using hp'
    exact resolve_ne_none_of_mem_shapes hp (h p.1 rfl rfl)

/-- A name is added iff calls of the name have no operation yet, whatever their arguments. -/
theorem registerName_eq_ok_iff {owner : Owner} {name : String} {op : Operation} :
    r.registerName owner name op = .ok r' ↔
      (∀ shape : CallShape, shape.owner = owner → shape.name = name → r.resolve shape = none) ∧
        r' = { r with names := r.names ++ [((owner, name), op)] } := by
  rw [← anyNamed?_eq_none_iff, registerName]
  cases r.anyNamed? owner name with
  | some existing => simp
  | none => simp [eq_comm]

/-- What adding an entry does: the entry comes last in its table, and no call that it recognises had an
operation before. -/
theorem add_cases {entry : Entry} (h : r.add entry = .ok r') :
    (∃ shape op, r.resolve shape = none ∧ r' = { r with shapes := r.shapes ++ [(shape, op)] }) ∨
    ∃ owner name op,
      (∀ shape : CallShape, shape.owner = owner → shape.name = name → r.resolve shape = none) ∧
        r' = { r with names := r.names ++ [((owner, name), op)] } := by
  cases entry with
  | shape shape op => exact .inl ⟨shape, op, register_eq_ok_iff.mp h⟩
  | name owner name op => exact .inr ⟨owner, name, op, registerName_eq_ok_iff.mp h⟩

/-- What holds of a registry, and of one with an entry added if it holds without, holds whatever
entries are added. -/
theorem addAll_induction {P : Registry → Prop}
    (step : ∀ {r entry r'}, r.add entry = .ok r' → P r → P r') (entries : List Entry) (h : P r) :
    P (r.addAll entries).1 := by
  induction entries generalizing r with
  | nil => exact h
  | cons entry entries ih =>
    rw [addAll]
    cases hadd : r.add entry with
    | ok next => exact ih (step hadd h)
    | error err => exact h

/-! ## Operations that are kept -/

/-- Whatever the first registry recognises, the second one recognises as the same operation. -/
def Extends (r r' : Registry) : Prop :=
  ∀ shape op, r.resolve shape = some op → r'.resolve shape = some op

theorem Extends.refl (r : Registry) : r.Extends r :=
  fun _ _ h => h

theorem Extends.trans {r'' : Registry} (h : r.Extends r') (h' : r'.Extends r'') : r.Extends r'' :=
  fun shape op hop => h' shape op (h shape op hop)

theorem add_extends {entry : Entry} (h : r.add entry = .ok r') : r.Extends r' := by
  intro shape op hop
  rcases add_cases h with ⟨shape', op', hnew, rfl⟩ | ⟨owner, name, op', hnew, rfl⟩
  · have hne : shape ≠ shape' := by
      rintro rfl
      rw [hnew] at hop
      cases hop
    have hlast : List.lookup shape [(shape', op')] = none :=
      List.lookup_eq_none_iff.mpr (by simpa using hne)
    rw [resolve] at hop ⊢
    rw [List.lookup_append, hlast, Option.or_none]
    exact hop
  · rw [resolve] at hop ⊢
    rw [List.lookup_append, ← Option.or_assoc, hop]
    rfl

theorem addAll_extends (r : Registry) (entries : List Entry) : r.Extends (r.addAll entries).1 :=
  addAll_induction (P := r.Extends) (fun hadd h => h.trans (add_extends hadd)) entries (.refl r)

theorem mergeAll_extends {sets : List OperationSet} (h : r.mergeAll sets = .ok r') :
    r.Extends r' := by
  induction sets generalizing r with
  | nil =>
    cases h
    exact .refl _
  | cons set sets ih =>
    rw [mergeAll] at h
    split at h
    · rename_i next hmerge
      have hfirst : r.Extends next := by
        have hnext : (r.addAll set.entries).1 = next := congrArg Prod.fst hmerge
        exact hnext ▸ r.addAll_extends set.entries
      exact hfirst.trans (ih h)
    · cases h

theorem resolve_replace {shape shape' : CallShape} (h : shape' ≠ shape) (op : Operation) :
    (r.replace shape op).resolve shape' = r.resolve shape' := by
  have hlookup : ∀ entries : List (CallShape × Operation),
      (entries.filter (·.1 ≠ shape)).lookup shape' = entries.lookup shape' := by
    intro entries
    induction entries with
    | nil => rfl
    | cons p entries ih =>
      obtain ⟨key, value⟩ := p
      by_cases hkey : key = shape
      · have hmiss : (shape' == key) = false := by simpa [hkey] using h
        rw [List.filter_cons_of_neg (by simpa using hkey), ih, List.lookup_cons, hmiss]
      · rw [List.filter_cons_of_pos (by simpa using hkey), List.lookup_cons, List.lookup_cons, ih]
  have hlast : List.lookup shape' [(shape, op)] = none :=
    List.lookup_eq_none_iff.mpr (by simpa using h)
  rw [resolve, replace, List.lookup_append, hlookup, hlast, Option.or_none, resolve]

/-! ## Entries of a shape over the entry of its name -/

/-- The entry of a shape stands over an entry of its owner and name. -/
structure Overrides (r : Registry) (shape : CallShape) (op named : Operation) : Prop where
  shape_entry : (shape, op) ∈ r.shapes
  name_entry : ((shape.owner, shape.name), named) ∈ r.names

variable {shape : CallShape} {op named : Operation}

theorem add_overrides {entry : Entry} (h : r.add entry = .ok r')
    (hover : r'.Overrides shape op named) : r.Overrides shape op named := by
  obtain ⟨hshape, hname⟩ := hover
  rcases add_cases h with ⟨shape', op', hnew, rfl⟩ | ⟨owner, name, op', hnew, rfl⟩
  · rcases List.mem_append.mp hshape with hold | hlast
    · exact ⟨hold, hname⟩
    · cases List.mem_singleton.mp hlast
      exact absurd hnew (resolve_ne_none_of_mem_names shape hname)
  · rcases List.mem_append.mp hname with hold | hlast
    · exact ⟨hshape, hold⟩
    · cases List.mem_singleton.mp hlast
      exact absurd (hnew shape rfl rfl) (resolve_ne_none_of_mem_shapes hshape)

/-- Added entries do not stand over each other. -/
theorem addAll_overrides (entries : List Entry)
    (h : (r.addAll entries).1.Overrides shape op named) : r.Overrides shape op named :=
  addAll_induction (P := fun r' => r'.Overrides shape op named → r.Overrides shape op named)
    (fun hadd hr hover => hr (add_overrides hadd hover)) entries id h

/-- A replaced shape stands over the entry of its name; the others stand as before. -/
theorem replace_overrides {shape' : CallShape} {op' : Operation}
    (h : (r.replace shape' op').Overrides shape op named) :
    shape = shape' ∧ op = op' ∧ ((shape.owner, shape.name), named) ∈ r.names ∨
      shape ≠ shape' ∧ r.Overrides shape op named := by
  obtain ⟨hshape, hname⟩ := h
  rcases List.mem_append.mp hshape with hold | hlast
  · obtain ⟨hmem, hne⟩ := List.mem_filter.mp hold
    exact .inr ⟨by simpa using hne, hmem, hname⟩
  · cases List.mem_singleton.mp hlast
    exact .inl ⟨rfl, rfl, hname⟩

/-! ## Keys -/

/-- No shape and no name has two entries. -/
structure Keyed (r : Registry) : Prop where
  shapes : (r.shapes.map Prod.fst).Nodup
  names : (r.names.map Prod.fst).Nodup

theorem Keyed.add {entry : Entry} (h : r.add entry = .ok r') (hr : r.Keyed) : r'.Keyed := by
  rcases add_cases h with ⟨shape, op, hnew, rfl⟩ | ⟨owner, name, op, hnew, rfl⟩
  · refine ⟨?_, hr.names⟩
    rw [List.map_append, List.map_singleton, List.nodup_append]
    refine ⟨hr.shapes, List.nodup_singleton _, ?_⟩
    rintro _ hkey _ hlast rfl
    obtain ⟨⟨_, op'⟩, hmem, rfl⟩ := List.mem_map.mp hkey
    cases List.mem_singleton.mp hlast
    exact resolve_ne_none_of_mem_shapes hmem hnew
  · refine ⟨hr.shapes, ?_⟩
    rw [List.map_append, List.map_singleton, List.nodup_append]
    refine ⟨hr.names, List.nodup_singleton _, ?_⟩
    rintro _ hkey _ hlast rfl
    obtain ⟨⟨_, op'⟩, hmem, rfl⟩ := List.mem_map.mp hkey
    cases List.mem_singleton.mp hlast
    exact resolve_ne_none_of_mem_names ⟨owner, name, []⟩ hmem (hnew _ rfl rfl)

theorem Keyed.addAll (hr : r.Keyed) (entries : List Entry) : (r.addAll entries).1.Keyed :=
  addAll_induction (P := Keyed) Keyed.add entries hr

theorem Keyed.replace (hr : r.Keyed) (shape : CallShape) (op : Operation) :
    (r.replace shape op).Keyed := by
  refine ⟨?_, hr.names⟩
  have hkept : ((r.shapes.filter (·.1 ≠ shape)).map Prod.fst).Nodup :=
    hr.shapes.sublist (List.filter_sublist.map Prod.fst)
  rw [Registry.replace, List.map_append, List.map_singleton, List.nodup_append]
  refine ⟨hkept, List.nodup_singleton _, ?_⟩
  rintro _ hkey _ hlast rfl
  obtain ⟨⟨_, op'⟩, hmem, rfl⟩ := List.mem_map.mp hkey
  cases List.mem_singleton.mp hlast
  simpa using (List.mem_filter.mp hmem).2

end Registry

end QueryChain
