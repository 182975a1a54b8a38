import Mathlib.Data.List.Nodup
import QueryChain.Proofs.Eval.Invariant

/-!
# Records without repeated names

A record expression evaluates to a record with its names in order of declaration, if no name is declared
twice. No other operation makes a record: it hands on the records that it was given. So a tree whose
constants hold no record with a repeated name has no such record in its value, and reading a member by
its name finds the one field that was declared with it.

## Main definitions

* `Value.records`: the records within a value, at any depth
* `Value.Unambiguous`: no record within a value repeats a name

## Main results

* `unambiguous_invariant`: operations lead from unambiguous values to unambiguous ones
* `Expr.evaluate_record_eq_ok_iff`: the value of a record expression
* `evaluate_unambiguous`: evaluation makes no record with a repeated name
-/

namespace QueryChain

namespace Value

/-! ## Records within values -/

mutual

/-- The fields of every record within the value, at any depth. -/
def records : Value → List (List (String × Value))
  | list items => itemRecords items
  | record fields => fields :: fieldRecords fields
  | _ => []

/-- The records within the items of a list. -/
def itemRecords : List Value → List (List (String × Value))
  | [] => []
  | v :: vs => records v ++ itemRecords vs

/-- The records within the fields of a record. -/
def fieldRecords : List (String × Value) → List (List (String × Value))
  | [] => []
  | (_, v) :: fs => records v ++ fieldRecords fs

end

/-- **No record within the value repeats a name.** -/
def Unambiguous (v : Value) : Prop :=
  ∀ fields ∈ v.records, (fields.map (·.1)).Nodup

instance (v : Value) : Decidable v.Unambiguous :=
  inferInstanceAs (Decidable (∀ fields ∈ v.records, (fields.map (·.1)).Nodup))

theorem itemRecords_eq (vs : List Value) : itemRecords vs = vs.flatMap records := by
  induction vs with
  | nil => simp [itemRecords]
  | cons v vs ih => simp [itemRecords, ih]

theorem fieldRecords_eq (fs : List (String × Value)) :
    fieldRecords fs = fs.flatMap fun f => f.2.records := by
  induction fs with
  | nil => simp [fieldRecords]
  | cons f fs ih => simp [fieldRecords, ih]

theorem Unambiguous.of_records_eq_nil {v : Value} (h : v.records = []) : v.Unambiguous := by
  simp [Unambiguous, h]

theorem unambiguous_list_iff {vs : List Value} : (list vs).Unambiguous ↔ ∀ v ∈ vs, v.Unambiguous := by
  simp only [Unambiguous, records, itemRecords_eq, List.forall_mem_flatMap]

theorem unambiguous_record_iff {fs : List (String × Value)} :
    (record fs).Unambiguous ↔ (fs.map (·.1)).Nodup ∧ ∀ f ∈ fs, f.2.Unambiguous := by
  simp only [Unambiguous, records, fieldRecords_eq, List.forall_mem_cons, List.forall_mem_flatMap]

/-- A record without repeated names has one field of a name, and reading the name finds it. -/
theorem field?_of_mem {fs : List (String × Value)} (h : (fs.map (·.1)).Nodup) {n : String} {w : Value}
    (hmem : (n, w) ∈ fs) : (record fs).field? n = some w := by
  rw [field?]
  cases hfind : fs.find? (·.1 == n) with
  | none => exact absurd (List.find?_eq_none.mp hfind _ hmem) (by simp)
  | some f =>
    have hname : f.1 = n := by simpa using List.find?_some hfind
    have hsame : f = (n, w) := List.inj_on_of_nodup_map h (List.mem_of_find?_eq_some hfind) hmem hname
    rw [hsame, Option.map_some]

theorem Unambiguous.of_field? {v w : Value} {n : String} (hv : v.Unambiguous)
    (h : v.field? n = some w) : w.Unambiguous := by
  cases v with
  | record fields =>
    obtain ⟨f, hf, rfl⟩ := Option.map_eq_some_iff.mp h
    exact (unambiguous_record_iff.mp hv).2 f (List.mem_of_find?_eq_some hf)
  | _ => cases h

/-- A converted value holds no records but those that it had. -/
theorem Converts.records_eq {v w : Value} {k : Kind} (h : v.Converts k w) : w.records = [] := by
  cases h <;> rfl

end Value

/-! ## Operations -/

/-- The computation fails, or ends in a value without repeated names. -/
def EndsUnambiguous (x : Except EvalError Value) : Prop :=
  Ensures Value.Unambiguous (fun _ => True) x

theorem Value.read_endsUnambiguous {v : Value} (hv : v.Unambiguous) (name : String) :
    EndsUnambiguous (v.read name) :=
  .read (fun _ hw => hv.of_field? hw) trivial trivial

theorem Value.convert_endsUnambiguous {v : Value} (hv : v.Unambiguous) (k : Kind) :
    EndsUnambiguous (v.convert k) :=
  .convert hv (fun _ hw => .of_records_eq_nil hw.records_eq) trivial

/-- What operators and builtin functions make is no record. -/
theorem unambiguous_results : ResultInvariant Value.Unambiguous (fun _ : EvalError => True) where
  null := .of_records_eq_nil rfl
  bool _ := .of_records_eq_nil rfl
  int _ := .of_records_eq_nil rfl
  text _ := .of_records_eq_nil rfl
  float _ := .of_records_eq_nil rfl
  neg _ := .of_records_eq_nil rfl
  abs _ := .of_records_eq_nil rfl
  mismatch _ _ := trivial
  overflow _ := trivial
  divisionByZero := trivial
  arity _ _ _ := trivial

/-- **Operations lead from unambiguous values to unambiguous ones.** Only a record expression makes a
record, and it refuses a repeated name. -/
theorem unambiguous_invariant : EvalInvariant Value.Unambiguous (fun _ : EvalError => True) where
  mismatch _ _ := trivial
  duplicate _ := trivial
  nullReference _ := trivial
  read n hv := Value.read_endsUnambiguous hv n
  unary op _ hv := unambiguous_results.unary op hv
  binary op _ _ _ _ := unambiguous_results.binary op _ _
  record hfs hnames := Value.unambiguous_record_iff.mpr ⟨hnames, hfs⟩
  list hvs := Value.unambiguous_list_iff.mpr hvs
  builtin f _ _ hv _ := unambiguous_results.builtin f hv _
  convert k hv := Value.convert_endsUnambiguous hv k

/-! ## Record expressions -/

/-- A declared field makes a field of the record: it has the same name, and its expression has the
value. -/
def Makes (f : String × Expr) (g : String × Value) : Prop :=
  g.1 = f.1 ∧ f.2.evaluate = .ok g.2

/-- The fields are collected iff every one has a value and no name is repeated. -/
theorem collectFields_eq_ok_iff {seen : List String} {fields : List (String × Expr)}
    {fs : List (String × Value)} :
    collectFields seen (fields.map (·.1)) ((fields.map (·.2)).map Expr.evaluate) = .ok fs ↔
      List.Forall₂ Makes fields fs ∧ (fs.map (·.1)).Nodup ∧ ∀ g ∈ fs, g.1 ∉ seen := by
  induction fields generalizing seen fs with
  | nil =>
    rw [List.forall₂_nil_left_iff]
    constructor
    · rintro ⟨⟩
      simp
    · rintro ⟨rfl, -⟩
      rfl
  | cons f fields ih =>
    rw [List.map_cons, List.map_cons, List.map_cons, collectFields, List.forall₂_cons_left_iff]
    split
    · rename_i hseen
      constructor
      · rintro ⟨⟩
      · rintro ⟨⟨g, fs, ⟨hname, -⟩, -, rfl⟩, -, hfresh⟩
        exact absurd (hname ▸ hseen) (hfresh g List.mem_cons_self)
    · rename_i hseen
      simp only [bind_eq_ok_iff, pure_eq_ok_iff, ih]
      constructor
      · rintro ⟨v, hv, fs, ⟨hfields, hnames⟩, rfl⟩
        exact ⟨⟨(f.1, v), fs, ⟨rfl, hv⟩, hfields, rfl⟩, fresh_cons_iff.mpr ⟨hseen, hnames⟩⟩
      · rintro ⟨⟨⟨n, v⟩, fs, ⟨rfl, hv⟩, hfields, rfl⟩, hnames⟩
        exact ⟨v, hv, fs, ⟨hfields, (fresh_cons_iff.mp hnames).2⟩, rfl⟩

/-- The made fields have the declared names in order. -/
theorem names_of_makes {fields : List (String × Expr)} {fs : List (String × Value)}
    (h : List.Forall₂ Makes fields fs) : fs.map (·.1) = fields.map (·.1) := by
  induction h with
  | nil => rfl
  | cons hfg _ ih => rw [List.map_cons, List.map_cons, hfg.1, ih]

namespace Expr

/-- **The value of a record expression** is the record of its names with their values in order of
declaration; there is one iff no name is repeated and every field has a value. -/
theorem evaluate_record_eq_ok_iff {fields : List (String × Expr)} {v : Value} :
    (record fields).evaluate = .ok v ↔
      ∃ fs, v = .record fs ∧ List.Forall₂ Makes fields fs ∧ (fs.map (·.1)).Nodup := by
  rw [evaluate_eq, head, children, Head.evaluate, bind_eq_ok_iff]
  simp only [collectFields_eq_ok_iff, pure_eq_ok_iff]
  constructor
  · rintro ⟨fs, ⟨hfields, hnames, -⟩, rfl⟩
    exact ⟨fs, rfl, hfields, hnames⟩
  · rintro ⟨fs, rfl, hfields, hnames⟩
    exact ⟨fs, ⟨hfields, hnames, by simp⟩, rfl⟩

/-- Reading a field of the value of a tree. -/
theorem evaluate_member_of_field? {e : Expr} {v w : Value} {n : String} (he : e.evaluate = .ok v)
    (h : v.field? n = some w) : (member e n).evaluate = .ok w := by
  rw [evaluate, he]
  cases v with
  | record fields =>
    change Value.read _ n = _
    rw [Value.read, h]
    simp
  | _ => cases h

end Expr

/-- **Evaluation makes no record with a repeated name.** If no constant of a tree holds one, at any
depth, then neither does its value. A record expression that evaluates does so to a record with the
declared names in order, which are distinct, and reading any of them gives the value of the expression
that was declared with it. -/
theorem evaluate_unambiguous :
    (∀ (e : Expr) (v : Value), (∀ c, Expr.constant c ∈ e.subtrees → c.Unambiguous) →
      e.evaluate = .ok v → v.Unambiguous) ∧
    ∀ (fields : List (String × Expr)) (v : Value), (Expr.record fields).evaluate = .ok v →
      (∃ fs, v = .record fs ∧ fs.map (·.1) = fields.map (·.1)) ∧ (fields.map (·.1)).Nodup ∧
        ∀ n x, (n, x) ∈ fields → ∃ w, x.evaluate = .ok w ∧ v.field? n = some w ∧
          (Expr.member (.record fields) n).evaluate = .ok w := by
  refine ⟨fun e v hconstants hv => ?_, fun fields v hv => ?_⟩
  · exact (unambiguous_invariant.evaluate hconstants (.inr fun _ => trivial)).of_eq_ok hv
  · obtain ⟨fs, rfl, hmakes, hnames⟩ := Expr.evaluate_record_eq_ok_iff.mp hv
    refine ⟨⟨fs, rfl, names_of_makes hmakes⟩, names_of_makes hmakes ▸ hnames, fun n x hx => ?_⟩
    obtain ⟨⟨_, w⟩, hmem, rfl, hw⟩ := exists_mem_of_forall₂ hmakes hx
    have hfield := Value.field?_of_mem hnames hmem
    exact ⟨w, hw, hfield, Expr.evaluate_member_of_field? hv hfield⟩

/-- `{x: 0, y: 0}`. -/
def origin : Value :=
  .record [("x", .int 0), ("y", .int 0)]

/-- The fields `label: null ?? "none"`, `at: {x: 0, y: 0}` and `path: [{from: {x: 0, y: 0}}.from]`. -/
def markerFields : List (String × Expr) :=
  [("label", .binary .coalesce (.constant .null) (.constant (.text "none"))),
    ("at", .constant origin),
    ("path", .list [.member (.record [("from", .constant origin)]) "from"])]

/-- A record within a list within a record, which was read out of another one. -/
theorem evaluate_unambiguous_marker :
    (∀ c, Expr.constant c ∈ (Expr.record markerFields).subtrees → c.Unambiguous) ∧
      ∃ v : Value, (Expr.record markerFields).evaluate = .ok v ∧ v.Unambiguous ∧
        v.field? "path" = some (.list [origin]) := by
  have hconstants : ∀ c, Expr.constant c ∈ (Expr.record markerFields).subtrees → c.Unambiguous := by
    have hall : ∀ c ∈ [Value.null, .text "none", origin], c.Unambiguous := by decide
    intro c hc
    exact hall c (by simpa [markerFields, Expr.subtrees_eq, Expr.children] using hc)
  have hvalue : (Expr.record markerFields).evaluate =
      .ok (.record [("label", .text "none"), ("at", origin), ("path", .list [origin])]) := rfl
  have hpath : ("path", _) ∈ markerFields := List.mem_of_getElem? (rfl : markerFields[2]? = some _)
  obtain ⟨w, hw, hfield, -⟩ := (evaluate_unambiguous.2 _ _ hvalue).2.2 _ _ hpath
  cases hw
  exact ⟨hconstants, _, hvalue, evaluate_unambiguous.1 _ _ hconstants hvalue, hfield⟩

end QueryChain
