import Mathlib.Data.List.Pairwise
import Mathlib.Data.List.Perm.Basic
import QueryChain.Compile.Basic
import QueryChain.Proofs.Registry.Entries

/-!
# Collisions of entries

A registry refuses an entry because of those that are there already, and it looks for them in other
places if the entry is one of a shape than if it is one of a name. What it refuses is the same in the
end: an entry that shares a call with another one. Since sharing a call has no order, neither has
the composition of sets: whether sets can be composed, and what calls are then recognised as, depends
on the entries alone.

## Main definitions

* `Entry.Matches`, `Entry.Apart`: the calls of an entry, and entries without a common call
* `Registry.entries`: the entries of a registry
* `Rearranged`: the same sets in another order, and with their entries in another order

## Main results

* `Registry.add_eq_ok_iff`: an entry is added iff it stands apart from all others
* `Registry.resolve_eq_some_iff`: entries that stand apart say what calls are recognised as
* `Registry.exists_mergeAll_iff`, `Registry.entries_of_mergeAll`: sets are composed iff their entries
  stand apart, and then to a registry of all of them
* `Compiler.exists_build_iff`: the extensions that a compiler can be built with
* `build_rearranged`: the order of extensions does not matter
-/

namespace QueryChain

/-! ## Calls of an entry -/

namespace Entry

/-- Calls of the shape have the entry. -/
def Matches : Entry → CallShape → Prop
  | shape key _, s => s = key
  | name owner method _, s => s.owner = owner ∧ s.name = method

/-- What calls that have the entry are recognised as. -/
def operation : Entry → Operation
  | shape _ op => op
  | name _ _ op => op

/-- No call has both entries. -/
def Apart (a b : Entry) : Prop :=
  ∀ s, a.Matches s → ¬ b.Matches s

theorem Apart.symm {a b : Entry} (h : a.Apart b) : b.Apart a :=
  fun s hb ha => h s ha hb

instance : Std.Symm Apart :=
  ⟨fun _ _ => Apart.symm⟩

/-- Of entries that stand apart, a call has one at most. -/
theorem eq_of_matches {entries : List Entry} (h : entries.Pairwise Apart) {a b : Entry}
    (ha : a ∈ entries) (hb : b ∈ entries) {s : CallShape} (has : a.Matches s)
    (hbs : b.Matches s) : a = b := by
  by_contra hne
  exact h.forall ha hb hne s has hbs

end Entry

namespace Registry

variable {r r' : Registry}

/-- The entries, shapes first. -/
def entries (r : Registry) : List Entry :=
  r.shapes.map (fun e => .shape e.1 e.2) ++ r.names.map fun e => .name e.1.1 e.1.2 e.2

theorem length_entries (r : Registry) : r.entries.length = r.size := by
  simp [entries, size]

/-- A call is not recognised iff it has no entry. -/
theorem resolve_eq_none_iff_entries {s : CallShape} :
    r.resolve s = none ↔ ∀ e ∈ r.entries, ¬ e.Matches s := by
  rw [resolve_eq_none_iff, List.lookup_eq_none_iff, List.lookup_eq_none_iff, entries,
    List.forall_mem_append, List.forall_mem_map, List.forall_mem_map]
  refine and_congr (forall₂_congr fun e _ => ?_) (forall₂_congr fun e _ => ?_)
  · simp [Entry.Matches]
  · simp [Entry.Matches, Prod.ext_iff]

theorem exists_entry_of_resolve {s : CallShape} {op : Operation} (h : r.resolve s = some op) :
    ∃ e ∈ r.entries, e.Matches s ∧ e.operation = op := by
  rcases Option.or_eq_some_iff.mp h with hshape | ⟨-, hname⟩
  · obtain ⟨before, after, hsplit, -⟩ := List.lookup_eq_some_iff.mp hshape
    refine ⟨.shape s op, ?_, rfl, rfl⟩
    simp [entries, hsplit]
  · obtain ⟨before, after, hsplit, -⟩ := List.lookup_eq_some_iff.mp hname
    refine ⟨.name s.owner s.name op, ?_, ⟨rfl, rfl⟩, rfl⟩
    simp [entries, hsplit]

/-- **Entries that stand apart** say what calls are recognised as, in whatever order they stand. -/
theorem resolve_eq_some_iff (h : r.entries.Pairwise Entry.Apart) {s : CallShape} {op : Operation} :
    r.resolve s = some op ↔ ∃ e ∈ r.entries, e.Matches s ∧ e.operation = op := by
  refine ⟨exists_entry_of_resolve, ?_⟩
  rintro ⟨e, he, hes, rfl⟩
  cases hop : r.resolve s with
  | none => exact absurd hes (resolve_eq_none_iff_entries.mp hop e he)
  | some op =>
    obtain ⟨e', he', hes', rfl⟩ := exists_entry_of_resolve hop
    rw [Entry.eq_of_matches h he he' hes hes']

/-! ## When entries are added -/

/-- The registry with an entry more, whether the entry stands apart or not. -/
def insert (r : Registry) : Entry → Registry
  | .shape s op => { r with shapes := r.shapes ++ [(s, op)] }
  | .name owner name op => { r with names := r.names ++ [((owner, name), op)] }

theorem entries_insert (r : Registry) (entry : Entry) :
    (r.insert entry).entries.Perm (r.entries ++ [entry]) := by
  cases entry with
  | shape s op =>
    simp only [insert, entries, List.map_append, List.map_singleton, List.append_assoc]
    exact List.Perm.append_left _ List.perm_append_comm
  | name owner name op => simp [insert, entries]

theorem forall_resolve_eq_none_iff {entry : Entry} :
    (∀ s, entry.Matches s → r.resolve s = none) ↔ ∀ e ∈ r.entries, e.Apart entry := by
  simp only [resolve_eq_none_iff_entries]
  constructor
  · intro h e he s hes hs
    exact h s hs e he hes
  · intro h s hs e he hes
    exact h e he s hes hs

/-- **An entry is added** iff it stands apart from all entries, whichever table they are in. -/
theorem add_eq_ok_iff {entry : Entry} :
    r.add entry = .ok r' ↔ (∀ e ∈ r.entries, e.Apart entry) ∧ r' = r.insert entry := by
  rw [← forall_resolve_eq_none_iff]
  cases entry with
  | shape s op =>
    rw [add, register_eq_ok_iff]
    simp [Entry.Matches, insert]
  | name owner name op =>
    rw [add, registerName_eq_ok_iff]
    simp [Entry.Matches, insert]

/-- Entries are added iff they stand apart from each other and from those that are there. -/
theorem addAll_accepted_iff {more : List Entry} (hr : r.entries.Pairwise Entry.Apart) :
    (r.addAll more).2 = none ↔ (r.entries ++ more).Pairwise Entry.Apart := by
  induction more generalizing r with
  | nil => simpa [addAll] using hr
  | cons entry more ih =>
    rw [addAll]
    cases hadd : r.add entry with
    | ok next =>
      obtain ⟨hapart, rfl⟩ := add_eq_ok_iff.mp hadd
      have hperm := entries_insert r entry
      have hnext : (r.insert entry).entries.Pairwise Entry.Apart := by
        rw [hperm.pairwise_iff Entry.Apart.symm, List.pairwise_append]
        exact ⟨hr, List.pairwise_singleton _ _, by simpa using hapart⟩
      rw [ih hnext, (hperm.append_right more).pairwise_iff Entry.Apart.symm, List.append_assoc,
        List.singleton_append]
    | error err =>
      refine iff_of_false (by simp) fun hpairwise => ?_
      have hapart : ∀ e ∈ r.entries, e.Apart entry := fun e he =>
        (List.pairwise_append.mp hpairwise).2.2 e he entry List.mem_cons_self
      have hok := add_eq_ok_iff.mpr ⟨hapart, rfl⟩
      cases hadd.symm.trans hok

theorem entries_addAll {more : List Entry} (h : (r.addAll more).2 = none) :
    (r.addAll more).1.entries.Perm (r.entries ++ more) := by
  induction more generalizing r with
  | nil => simp [addAll]
  | cons entry more ih =>
    rw [addAll] at h ⊢
    cases hadd : r.add entry with
    | ok next =>
      simp only [hadd] at h ⊢
      obtain ⟨-, rfl⟩ := add_eq_ok_iff.mp hadd
      refine (ih h).trans (((entries_insert r entry).append_right more).trans ?_)
      rw [List.append_assoc, List.singleton_append]
    | error err => simp [hadd] at h

theorem addAll_append_eq_iff {entries more : List Entry} :
    r.addAll (entries ++ more) = (r', none) ↔
      ∃ next, r.addAll entries = (next, none) ∧ next.addAll more = (r', none) := by
  induction entries generalizing r with
  | nil => simp [addAll]
  | cons entry entries ih =>
    rw [List.cons_append, addAll, addAll]
    cases hadd : r.add entry with
    | ok next => exact ih
    | error err => simp

/-! ## When sets are composed -/

/-- Sets are merged one after the other as one set of all entries would be. -/
theorem mergeAll_eq_ok_iff {sets : List OperationSet} :
    r.mergeAll sets = .ok r' ↔ r.addAll (sets.flatMap OperationSet.entries) = (r', none) := by
  induction sets generalizing r with
  | nil => simp [mergeAll, addAll]
  | cons set sets ih =>
    rw [mergeAll, List.flatMap_cons, addAll_append_eq_iff, merge]
    rcases r.addAll set.entries with ⟨next, _ | err⟩
    · simpa using ih
    · simp

/-- **Sets can be composed** iff the entries of all of them stand apart. -/
theorem exists_mergeAll_iff {sets : List OperationSet} :
    (∃ r, empty.mergeAll sets = .ok r) ↔
      (sets.flatMap OperationSet.entries).Pairwise Entry.Apart := by
  have haccepted : (empty.addAll (sets.flatMap OperationSet.entries)).2 = none ↔
      (sets.flatMap OperationSet.entries).Pairwise Entry.Apart :=
    addAll_accepted_iff (r := empty) .nil
  rw [← haccepted]
  constructor
  · rintro ⟨r, hr⟩
    rw [mergeAll_eq_ok_iff.mp hr]
  · intro h
    exact ⟨_, mergeAll_eq_ok_iff.mpr (Prod.ext rfl h)⟩

/-- The composed registry has the entries of all sets. -/
theorem entries_of_mergeAll {sets : List OperationSet} (h : empty.mergeAll sets = .ok r) :
    r.entries.Perm (sets.flatMap OperationSet.entries) := by
  have hadd := mergeAll_eq_ok_iff.mp h
  have hperm := entries_addAll (r := empty) (congrArg Prod.snd hadd)
  rwa [hadd] at hperm

/-- The entries of composed sets say what the calls are recognised as. -/
theorem resolve_of_mergeAll {sets : List OperationSet} (h : empty.mergeAll sets = .ok r)
    {s : CallShape} {op : Operation} :
    r.resolve s = some op ↔
      ∃ e ∈ sets.flatMap OperationSet.entries, e.Matches s ∧ e.operation = op := by
  have hperm := entries_of_mergeAll h
  have hapart : r.entries.Pairwise Entry.Apart :=
    (hperm.pairwise_iff Entry.Apart.symm).mpr (exists_mergeAll_iff.mp ⟨r, h⟩)
  simp only [resolve_eq_some_iff hapart, hperm.mem_iff]

end Registry

/-! ## The order of extensions -/

/-- The sets have the same entries, in whatever order. -/
structure OperationSet.SameEntries (a b : OperationSet) : Prop where
  shapes : a.shapes.Perm b.shapes
  names : a.names.Perm b.names

/-- The second list holds the sets of the first one in another order, and each set holds its entries in
another order. -/
def Rearranged (sets sets' : List OperationSet) : Prop :=
  ∃ moved, sets.Perm moved ∧ List.Forall₂ OperationSet.SameEntries moved sets'

theorem OperationSet.SameEntries.entries_perm {a b : OperationSet} (h : a.SameEntries b) :
    a.entries.Perm b.entries :=
  (h.shapes.map _).append (h.names.map _)

theorem Rearranged.entries_perm {sets sets' : List OperationSet} (h : Rearranged sets sets') :
    (sets.flatMap OperationSet.entries).Perm (sets'.flatMap OperationSet.entries) := by
  obtain ⟨moved, hmoved, hsame⟩ := h
  have hentries : (moved.flatMap OperationSet.entries).Perm
      (sets'.flatMap OperationSet.entries) := by
    clear hmoved
    induction hsame with
    | nil => exact .nil
    | cons hset _ ih =>
      rw [List.flatMap_cons, List.flatMap_cons]
      exact hset.entries_perm.append ih
  exact (hmoved.flatMap_right _).trans hentries

theorem Compiler.build_eq_ok_iff {sets : List OperationSet} {passes : List Pass} {c : Compiler} :
    build sets passes = .ok c ↔
      Registry.empty.mergeAll (.standard :: .dml :: sets) = .ok c.registry ∧ c.passes = passes := by
  obtain ⟨registry, passes'⟩ := c
  rw [build, Registry.withExtensions]
  cases Registry.empty.mergeAll (.standard :: .dml :: sets) with
  | error err => simp
  | ok r => simp [eq_comm]

/-- A compiler can be built iff no extension shares a call with another one or with the standard
operations. -/
theorem Compiler.exists_build_iff {sets : List OperationSet} {passes : List Pass} :
    (∃ c, build sets passes = .ok c) ↔
      ((.standard :: .dml :: sets).flatMap OperationSet.entries).Pairwise Entry.Apart := by
  rw [← Registry.exists_mergeAll_iff]
  simp only [build_eq_ok_iff]
  constructor
  · rintro ⟨c, hc, -⟩
    exact ⟨c.registry, hc⟩
  · rintro ⟨r, hr⟩
    exact ⟨⟨r, passes⟩, hr, rfl⟩

/-- **The order of extensions does not matter.** If the sets are rearranged, and the entries within
each set, a compiler can be built iff it could be built before; and then it has as many entries and
recognises every call as the same operation. -/
theorem build_rearranged {sets sets' : List OperationSet} (h : Rearranged sets sets')
    (passes : List Pass) :
    ((∃ c, Compiler.build sets passes = .ok c) ↔ ∃ c, Compiler.build sets' passes = .ok c) ∧
      ∀ c c', Compiler.build sets passes = .ok c → Compiler.build sets' passes = .ok c' →
        c.registry.size = c'.registry.size ∧
          ∀ call, c.registry.lookup call = c'.registry.lookup call := by
  have hentries : ((.standard :: .dml :: sets).flatMap OperationSet.entries).Perm
      ((.standard :: .dml :: sets').flatMap OperationSet.entries) := by
    simp only [List.flatMap_cons]
    exact (h.entries_perm.append_left _).append_left _
  constructor
  · rw [Compiler.exists_build_iff, Compiler.exists_build_iff,
      hentries.pairwise_iff Entry.Apart.symm]
  · intro c c' hc hc'
    obtain ⟨hc, -⟩ := Compiler.build_eq_ok_iff.mp hc
    obtain ⟨hc', -⟩ := Compiler.build_eq_ok_iff.mp hc'
    constructor
    · rw [← c.registry.length_entries, ← c'.registry.length_entries]
      exact ((Registry.entries_of_mergeAll hc).trans
        (hentries.trans (Registry.entries_of_mergeAll hc').symm)).length_eq
    · intro call
      refine Option.ext fun op => ?_
      rw [Registry.lookup, Registry.lookup, Registry.resolve_of_mergeAll hc,
        Registry.resolve_of_mergeAll hc']
      simp only [hentries.mem_iff]

section Reports

-- the standard sets are merged by the kernel
set_option maxRecDepth 4096

/-- A shape of one name, and another name with any arguments. -/
def reportSet : OperationSet :=
  ⟨"reports", [(⟨.queryable, "top", [.operand]⟩, .take), (⟨.queryable, "top", []⟩, .distinct)],
    [((.host "etl", "keep"), .filter)]⟩

/-- The same entries in another order. -/
def reportSetMoved : OperationSet :=
  ⟨"reports", [(⟨.queryable, "top", []⟩, .distinct), (⟨.queryable, "top", [.operand]⟩, .take)],
    [((.host "etl", "keep"), .filter)]⟩

/-- An operation of its own. -/
def sampleSet : OperationSet :=
  ⟨"sample", [], [((.queryable, "sample"), .take)]⟩

/-- A name that has shapes in `reportSet`. -/
def anyTop : OperationSet :=
  ⟨"any top", [], [((.queryable, "top"), .skip)]⟩

theorem build_rearranged_reports :
    (∃ c c', Compiler.build [sampleSet, reportSet] Pass.standard = .ok c ∧
      Compiler.build [reportSetMoved, sampleSet] Pass.standard = .ok c' ∧
      c.registry.size = c'.registry.size ∧
      ∀ call, c.registry.lookup call = c'.registry.lookup call) ∧
    (∃ err, Compiler.build [reportSet, anyTop] Pass.standard = .error err) ∧
      ∀ c, Compiler.build [anyTop, reportSetMoved] Pass.standard ≠ .ok c := by
  have hsame : reportSet.SameEntries reportSetMoved := ⟨.swap _ _ _, .refl _⟩
  have hother : ∀ set : OperationSet, set.SameEntries set := fun _ => ⟨.refl _, .refl _⟩
  constructor
  · have hmoved : Rearranged [sampleSet, reportSet] [reportSetMoved, sampleSet] :=
      ⟨_, .swap _ _ _, .cons hsame (.cons (hother _) .nil)⟩
    obtain ⟨hbuilds, hlookups⟩ := build_rearranged hmoved Pass.standard
    have hbuild : ∃ c, Compiler.build [sampleSet, reportSet] Pass.standard = .ok c := ⟨_, rfl⟩
    obtain ⟨c, hc⟩ := hbuild
    obtain ⟨c', hc'⟩ := hbuilds.mp ⟨c, hc⟩
    exact ⟨c, c', hc, hc', hlookups c c' hc hc'⟩
  · have hmoved : Rearranged [reportSet, anyTop] [anyTop, reportSetMoved] :=
      ⟨_, .swap _ _ _, .cons (hother _) (.cons hsame .nil)⟩
    have hbuild : ∃ err, Compiler.build [reportSet, anyTop] Pass.standard = .error err := ⟨_, rfl⟩
    obtain ⟨err, herr⟩ := hbuild
    refine ⟨⟨err, herr⟩, fun c' hc' => ?_⟩
    -- the shapes are refused after the name, since the name is refused after the shapes
    obtain ⟨c, hc⟩ := (build_rearranged hmoved Pass.standard).1.mpr ⟨c', hc'⟩
    cases hc.symm.trans herr

end Reports

end QueryChain
