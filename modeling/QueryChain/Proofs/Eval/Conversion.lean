import QueryChain.Eval.Convert

/-!
# What a conversion makes

A conversion leaves a value as it is, or makes a scalar of another kind from a scalar. The ways to do so
are listed here once, and what holds of every conversion is read off the list.

## Main definitions

* `Value.Converts`: a value of another kind that stands for a value

## Main results

* `Value.convert_eq_ok_iff`: when a conversion succeeds, and with which value
* `Value.convert_of_convert`, `Value.convert_convert`: a second conversion has nothing to do
-/

namespace QueryChain.Value

/-- The value of another kind that stands for a value. -/
inductive Converts : Value → Kind → Value → Prop where
  | intOfFloat {x : Float} {n : Int64} (h : Binary.toWord? x = some n) :
      Converts (float x) .int (int n)
  | intOfText {s : String} {n : Int64} (h : readInteger? (Text.trim s) = some n) :
      Converts (text s) .int (int n)
  | floatOfInt (n : Int64) : Converts (int n) .float (float (Binary.ofInt n.toInt))
  | floatOfText {s : String} {x : Float} (h : readNumber? (Text.trim s) = some x) :
      Converts (text s) .float (float x)
  | boolOfText {s : String} {b : Bool} (h : readBool? s = some b) : Converts (text s) .bool (bool b)
  | textOfBool (b : Bool) : Converts (bool b) .text (text (if b then "true" else "false"))
  | textOfInt (n : Int64) : Converts (int n) .text (text (toString n.toInt))
  | textOfFloat (x : Float) : Converts (float x) .text (text (NumberFormat.plain.render x))

variable {v w : Value} {k : Kind}

theorem convert?_eq_some_iff : v.convert? k = some w ↔ v.Converts k w := by
  constructor
  · intro h
    unfold convert? at h
    split at h
    · obtain ⟨n, hn, rfl⟩ := Option.map_eq_some_iff.mp h
      exact .intOfFloat hn
    · obtain ⟨n, hn, rfl⟩ := Option.map_eq_some_iff.mp h
      exact .intOfText hn
    · cases h
      exact .floatOfInt _
    · obtain ⟨x, hx, rfl⟩ := Option.map_eq_some_iff.mp h
      exact .floatOfText hx
    · obtain ⟨b, hb, rfl⟩ := Option.map_eq_some_iff.mp h
      exact .boolOfText hb
    · cases h
      exact .textOfBool _
    · cases h
      exact .textOfInt _
    · cases h
      exact .textOfFloat _
    · cases h
  · intro h
    cases h with
    | intOfFloat h | intOfText h | floatOfText h | boolOfText h => simp [convert?, h]
    | floatOfInt _ | textOfBool _ | textOfInt _ | textOfFloat _ => rfl

namespace Converts

theorem kind_eq (h : v.Converts k w) : w.kind = k := by
  cases h <;> rfl

theorem changes (h : v.Converts k w) : k ≠ .any ∧ v ≠ .null ∧ v.kind ≠ k := by
  cases h <;> simp [kind]

end Converts

theorem isNull_iff : v.isNull ↔ v = .null := by
  cases v <;> simp [isNull]

/-- **What a conversion ends in:** the value itself if it is null, has the kind already or the kind is
erased, and otherwise the value of the kind that stands for it. -/
theorem convert_eq_ok_iff :
    v.convert k = .ok w ↔ (k = .any ∨ v = .null ∨ v.kind = k) ∧ w = v ∨ v.Converts k w := by
  have hkept : (k = .any || v.isNull || v.kind = k) = true ↔ k = .any ∨ v = .null ∨ v.kind = k := by
    simp [isNull_iff, or_assoc]
  by_cases hsame : k = .any ∨ v = .null ∨ v.kind = k
  · rw [convert, if_pos (hkept.mpr hsame)]
    constructor
    · rintro ⟨⟩
      exact .inl ⟨hsame, rfl⟩
    · rintro (⟨-, rfl⟩ | hw)
      · rfl
      · obtain ⟨hany, hnull, hkind⟩ := hw.changes
        simp [hany, hnull, hkind] at hsame
  · rw [convert, if_neg (mt hkept.mp hsame), ← convert?_eq_some_iff]
    cases v.convert? k with
    | none => simp [hsame]
    | some u => simp [hsame]

/-- A converted value has the target kind, or is null, or the target is the erased kind. In each case
a second conversion has nothing to do. -/
theorem convert_of_convert (h : v.convert k = .ok w) : w.convert k = .ok w := by
  rw [convert_eq_ok_iff] at h ⊢
  rcases h with ⟨hsame, rfl⟩ | hw
  · exact .inl ⟨hsame, rfl⟩
  · exact .inl ⟨.inr (.inr hw.kind_eq), rfl⟩

theorem convert_convert (v : Value) (k : Kind) :
    (v.convert k >>= fun w => w.convert k) = v.convert k := by
  cases h : v.convert k with
  | error err => rfl
  | ok w => exact convert_of_convert h

end QueryChain.Value
