import QueryChain.Proofs.Number.Finite

/-!
# Integers that are numbers

A number has a significand of 53 bits. An integer whose significant bits fit into it is a number itself,
and the number nearest to it has its value; any other integer is rounded to a number with another value.
So a word comes back from the number nearest to it iff its significant bits fit.

## Main definitions

* `Binary.IsExact`: an integer with at most 53 significant bits
* `Binary.IsNormal`: a significand of full length

## Main results

* `Binary.round_of_isExact`: such an integer is not rounded
* `Binary.unpack_pack`: a number with a significand of full length is kept in the format
* `Binary.toWord?_ofInt_iff`: the words that come back from the nearest number
-/

namespace QueryChain.Binary

open Float.Model (UnpackedFloat totalExponent)
open Float.Model.UnpackedFloat
open Float.Model.Format (binary64)

/-- The integer is a significand of at most 53 bits, followed by zeros. -/
def IsExact (n : Int) : Prop :=
  ∃ m k : Nat, m < 2 ^ 53 ∧ n.natAbs = m * 2 ^ k

/-- The significand has the full length of the format. -/
def IsNormal (m : Nat) : Prop :=
  2 ^ 52 ≤ m ∧ m < 2 ^ 53

theorem IsNormal.pos {m : Nat} (h : IsNormal m) : 0 < m :=
  (Nat.two_pow_pos 52).trans_le h.1

theorem IsNormal.log2_mul {m : Nat} (h : IsNormal m) (k : Nat) : (m * 2 ^ k).log2 = 52 + k := by
  have hpos : 0 < m * 2 ^ k := Nat.mul_pos h.pos (Nat.two_pow_pos k)
  refine (Nat.log2_eq_iff hpos.ne').mpr ⟨?_, ?_⟩
  · rw [pow_add]
    exact Nat.mul_le_mul_right _ h.1
  · rw [Nat.add_right_comm, pow_add]
    exact Nat.mul_lt_mul_of_pos_right h.2 (Nat.two_pow_pos k)

/-! ## Rounding -/

/-- Zeros at the end of a mantissa are dropped without a trace. -/
theorem shiftRight_mul_two_pow (m k : Nat) :
    (⟨m * 2 ^ k, false, false⟩ : ExtendedMantissa) >>> k = ⟨m, false, false⟩ := by
  change k.repeat ExtendedMantissa.shiftRightOne _ = _
  induction k generalizing m with
  | zero => rw [pow_zero, mul_one]; rfl
  | succ k ih =>
    rw [Nat.repeat, pow_succ', ← mul_assoc, ih]
    simp [ExtendedMantissa.shiftRightOne]

/-- A mantissa is brought to full length by dropping the zeros behind it. -/
theorem shiftToTargetExponent_of_isNormal {m : Nat} (h : IsNormal m) (k : Nat) {e : Int}
    (he : -1074 ≤ e + k) :
    shiftToTargetExponent binary64 (m * 2 ^ k) e .exact = (⟨m, false, false⟩, e + k) := by
  have htarget : binary64.targetExponent (totalExponent (m * 2 ^ k) e) = e + k := by
    rw [targetExponent_eq, h.log2_mul]
    omega
  have hshift : (e + k - e).toNat = k := by omega
  simp only [shiftToTargetExponent, shiftToExponent, htarget, hshift]
  exact congrArg (·, e + k) (shiftRight_mul_two_pow m k)

theorem roundWithAccuracy_of_isNormal {m : Nat} (h : IsNormal m) (k : Nat) {e : Int}
    (he : -1074 ≤ e + k) (sign : Sign) :
    roundWithAccuracy binary64 sign (m * 2 ^ k) e .exact = .finite sign m (e + k) h.pos := by
  have hsecond := shiftToTargetExponent_of_isNormal h 0 (e := e + k) (by simpa using he)
  rw [pow_zero, mul_one] at hsecond
  have hrounded : (⟨m, false, false⟩ : ExtendedMantissa).roundedMantissa = m := rfl
  simp [roundWithAccuracy, shiftToTargetExponent_of_isNormal h k he, hrounded, hsecond, h.pos.ne']

/-- A positive integer of at most 53 significant bits has a significand of full length: zeros are put
behind it, or taken away. -/
theorem exists_isNormal {m : Nat} (hpos : 0 < m) (h : IsExact m) :
    ∃ full, IsNormal full ∧ m * 2 ^ (52 - m.log2) = full * 2 ^ (m.log2 - 52) := by
  have hlow : 2 ^ m.log2 ≤ m := Nat.log2_self_le hpos.ne'
  have hhigh : m < 2 ^ (m.log2 + 1) := Nat.lt_log2_self
  have hdvd : 2 ^ (m.log2 - 52) ∣ m * 2 ^ (52 - m.log2) := by
    obtain ⟨short, k, hshort, hm⟩ := h
    rw [Int.natAbs_natCast] at hm
    have hlength : 2 ^ m.log2 < 2 ^ (53 + k) :=
      calc 2 ^ m.log2 ≤ short * 2 ^ k := hlow.trans_eq hm
        _ < 2 ^ 53 * 2 ^ k := Nat.mul_lt_mul_of_pos_right hshort (Nat.two_pow_pos k)
        _ = 2 ^ (53 + k) := (pow_add 2 53 k).symm
    have hzeros : m.log2 - 52 ≤ k := by
      have := (Nat.pow_lt_pow_iff_right one_lt_two).mp hlength
      omega
    have hparts : 2 ^ k ∣ m := ⟨short, by rw [hm, mul_comm]⟩
    exact ((pow_dvd_pow 2 hzeros).trans hparts).mul_right _
  obtain ⟨full, hfull⟩ := hdvd
  rw [mul_comm _ full] at hfull
  refine ⟨full, ⟨?_, ?_⟩, hfull⟩
  · refine Nat.le_of_mul_le_mul_right ?_ (Nat.two_pow_pos (m.log2 - 52))
    calc 2 ^ 52 * 2 ^ (m.log2 - 52) = 2 ^ m.log2 * 2 ^ (52 - m.log2) := by
          rw [← pow_add, ← pow_add]
          congr 1
          omega
      _ ≤ m * 2 ^ (52 - m.log2) := Nat.mul_le_mul_right _ hlow
      _ = full * 2 ^ (m.log2 - 52) := hfull
  · refine Nat.lt_of_mul_lt_mul_right (a := 2 ^ (m.log2 - 52)) ?_
    calc full * 2 ^ (m.log2 - 52) = m * 2 ^ (52 - m.log2) := hfull.symm
      _ < 2 ^ (m.log2 + 1) * 2 ^ (52 - m.log2) :=
          Nat.mul_lt_mul_of_pos_right hhigh (Nat.two_pow_pos _)
      _ = 2 ^ 53 * 2 ^ (m.log2 - 52) := by
          rw [← pow_add, ← pow_add]
          congr 1
          omega

/-- **An integer of at most 53 significant bits is not rounded.** -/
theorem round_of_isExact {m : Nat} (hpos : 0 < m) (h : IsExact m) (sign : Sign) :
    ∃ full, ∃ hfull : IsNormal full, m * 2 ^ (52 - m.log2) = full * 2 ^ (m.log2 - 52) ∧
      UnpackedFloat.round binary64 sign m 0 = .finite sign full (m.log2 - 52) hfull.pos := by
  obtain ⟨full, hfull, heq⟩ := exists_isNormal hpos h
  refine ⟨full, hfull, heq, ?_⟩
  have hshift : (0 - max ((m.log2 : Int) + 1 + 0 - 53) (-1074)).toNat = 52 - m.log2 := by omega
  have hexponent : (0 : Int) - (52 - m.log2 : Nat) + (m.log2 - 52 : Nat) = m.log2 - 52 := by omega
  simp only [UnpackedFloat.round, decreaseExponent, targetExponent_eq, hshift]
  rw [Nat.shiftLeft_eq, heq, roundWithAccuracy_of_isNormal hfull _ (by omega)]
  simp only [hexponent]

/-! ## The format -/

/-- The leading bit of a significand of full length need not be stored. -/
theorem toNat_one_append {m : Nat} (h : IsNormal m) : (1#1 ++ BitVec.ofNat 52 m).toNat = m := by
  obtain ⟨hlow, hhigh⟩ := h
  rw [BitVec.toNat_append, BitVec.toNat_ofNat, BitVec.toNat_ofNat, Nat.shiftLeft_eq, Nat.or_comm,
    Nat.mod_eq_of_lt (a := 1) (by decide), one_mul,
    Nat.or_two_pow_eq_add_of_lt (Nat.mod_lt m (Nat.two_pow_pos 52))]
  omega

theorem unpack_packComponents {m : Nat} (h : IsNormal m) {b : Nat} (hpos : 0 < b) (hlt : b < 2047)
    (sign : Sign) :
    UnpackedFloat.unpack binary64
        (packComponents binary64 sign (BitVec.ofNat _ b) (BitVec.ofNat _ m)) =
      .finite sign m (b - 1075) h.pos := by
  have hstored : (BitVec.ofNat binary64.exponentBits b).toNat = b :=
    Nat.mod_eq_of_lt (hlt.trans (by decide))
  have hones : BitVec.ofNat binary64.exponentBits b ≠ -1#_ := by
    intro heq
    have hvalue : b = 2047 := hstored.symm.trans (congrArg BitVec.toNat heq)
    omega
  have hzero : BitVec.ofNat binary64.exponentBits b ≠ 0#_ := by
    intro heq
    have hvalue : b = 0 := hstored.symm.trans (congrArg BitVec.toNat heq)
    omega
  have hmantissa : (1#1 ++ BitVec.ofNat binary64.mantissaBitsWithoutImplicit m).toNat = m :=
    toNat_one_append h
  simp only [UnpackedFloat.unpack, unpackMantissa_packComponents, unpackExponent_packComponents,
    unpackSign_packComponents, Sign.ofBitVec_toBitVec, if_neg hones, if_neg hzero, hstored, hmantissa]
  rfl

/-- **A number with a significand of full length is kept in the format.** -/
theorem unpack_pack {m : Nat} (h : IsNormal m) {e : Int} (hlow : -1074 ≤ e) (hhigh : e < 972)
    (sign : Sign) :
    (Float.Model.pack (.finite sign m e h.pos)).unpack = .finite sign m e h.pos := by
  have hlog : m.log2 + 1 = binary64.mantissaBits :=
    congrArg (· + 1) ((Nat.log2_eq_iff h.pos.ne').mpr h)
  -- `b` is the exponent as it is stored; with `e` in its place the format would be unfolded
  obtain ⟨b, rfl⟩ : ∃ b : Nat, e = b - 1075 := ⟨(e + 1075).toNat, by omega⟩
  have hbiased : ((b : Int) - 1075 + binary64.exponentBias +
      binary64.mantissaBitsWithoutImplicit).toNat = b := by
    change ((b : Int) - 1075 + 1023 + 52).toNat = b
    omega
  have hplace : ¬ 2 ^ binary64.exponentBits ≤ b + 1 := by
    change ¬ 2048 ≤ b + 1
    omega
  change UnpackedFloat.unpack binary64 (UnpackedFloat.pack binary64 _) = _
  simp only [UnpackedFloat.pack, hbiased, if_neg hplace, if_pos hlog]
  exact unpack_packComponents h (by omega) (by omega) sign

/-- The significand of a number has at most 53 bits. -/
theorem mantissa_lt {x : Float} {sign : Sign} {m : Nat} {e : Int} {hm : 0 < m}
    (h : x.toModel.unpack = .finite sign m e hm) : m < 2 ^ 53 := by
  have hx : UnpackedFloat.unpack binary64 x.toModel.toBits.toBitVec = .finite sign m e hm := h
  simp only [UnpackedFloat.unpack] at hx
  split at hx
  · split at hx <;> cases hx
  · split at hx
    · split at hx
      · cases hx
      · cases hx
        exact (BitVec.isLt _).trans (by decide)
    · cases hx
      exact BitVec.isLt _

/-! ## Words -/

theorem natAbs_signed (sign : Sign) (m : Nat) : (signed sign m).natAbs = m := by
  cases sign <;> simp [signed]

/-- A word with the value of a number has at most 53 significant bits. -/
theorem isExact_of_toWord? {x : Float} {n : Int64} (h : toWord? x = some n) : IsExact n.toInt := by
  unfold toWord? at h
  split at h
  · cases h
  · cases h
  · cases h
    exact ⟨0, 0, by decide, by decide⟩
  · rename_i sign m e hm hx
    have hlt := mantissa_lt hx
    split at h
    · rw [fit?_eq_some_iff] at h
      exact ⟨m, e.toNat, hlt, by rw [h, natAbs_signed]; rfl⟩
    · split at h
      · rw [fit?_eq_some_iff] at h
        refine ⟨m / Nat.pow 2 (-e).toNat, 0, (Nat.div_le_self _ _).trans_lt hlt, ?_⟩
        rw [h, natAbs_signed, pow_zero, mul_one]
      · cases h

/-- A number with the value of an integer becomes the word of this value. -/
theorem toWord?_of_unpack {x : Float} {sign : Sign} {m full : Nat} (hfull : 0 < full)
    (hx : x.toModel.unpack = .finite sign full (m.log2 - 52) hfull)
    (hvalue : m * 2 ^ (52 - m.log2) = full * 2 ^ (m.log2 - 52)) :
    toWord? x = fit? (signed sign m) := by
  rw [toWord?, hx]
  dsimp only
  split
  · rename_i hlong
    have hzeros : ((m.log2 : Int) - 52).toNat = m.log2 - 52 := by omega
    have hsame : full * Nat.pow 2 (m.log2 - 52) = m := by
      rw [Nat.sub_eq_zero_of_le (by omega), pow_zero, mul_one] at hvalue
      exact hvalue.symm
    rw [hzeros, hsame]
  · rename_i hshort
    have hzeros : (-((m.log2 : Int) - 52)).toNat = 52 - m.log2 := by omega
    have hsame : full = m * Nat.pow 2 (52 - m.log2) := by
      rw [Nat.sub_eq_zero_of_le (n := m.log2) (by omega), pow_zero, mul_one] at hvalue
      exact hvalue.symm
    have hpos : 0 < Nat.pow 2 (52 - m.log2) := Nat.two_pow_pos _
    rw [hzeros, hsame, Nat.mul_mod_left, if_pos rfl, Nat.mul_div_cancel _ hpos]

theorem toWord?_round {m : Nat} (hpos : 0 < m) (hm : m < 2 ^ 64) (h : IsExact m) (sign : Sign) :
    toWord? (.ofModel (.pack (UnpackedFloat.round binary64 sign m 0))) = fit? (signed sign m) := by
  obtain ⟨full, hfull, hvalue, hround⟩ := round_of_isExact hpos h sign
  have hlog : m.log2 ≤ 64 := log2_le_of_le_two_pow hm.le
  refine toWord?_of_unpack hfull.pos ?_ hvalue
  rw [hround]
  exact unpack_pack hfull (by omega) (by omega) sign

/-- **The words that come back from the nearest number** are those with at most 53 significant bits. -/
theorem toWord?_ofInt_iff (n : Int64) : toWord? (ofInt n.toInt) = some n ↔ IsExact n.toInt := by
  refine ⟨isExact_of_toWord?, fun h => ?_⟩
  have hfit : fit? n.toInt = some n := fit?_eq_some_iff.mpr rfl
  have hlow := n.le_toInt
  have hhigh := n.toInt_lt
  rw [← hfit]
  generalize n.toInt = v at h hlow hhigh
  -- the magnitude is what is rounded, so the signs are set apart
  change toWord? (.ofModel (.pack (UnpackedFloat.normalize binary64 v 0 .positive))) = _
  rw [UnpackedFloat.normalize]
  split
  · rename_i hcompare
    have hneg : v < 0 := Int.compare_eq_lt.mp hcompare
    obtain ⟨m, rfl⟩ : ∃ m : Nat, v = -m := ⟨(-v).toNat, by omega⟩
    have hm : IsExact m := by simpa [IsExact] using h
    rw [neg_neg, Int.toNat_natCast, toWord?_round (by omega) (by omega) hm]
    rfl
  · rename_i hcompare
    obtain rfl : v = 0 := Int.compare_eq_eq.mp hcompare
    rfl
  · rename_i hcompare
    have hpos : 0 < v := Int.compare_eq_gt.mp hcompare
    obtain ⟨m, rfl⟩ : ∃ m : Nat, v = m := ⟨v.toNat, by omega⟩
    rw [Int.toNat_natCast, toWord?_round (by omega) (by omega) h]
    rfl

end QueryChain.Binary
