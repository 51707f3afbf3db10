import Mathlib

/-!
# Single precision: integers, quotients and the way back

`Float32` computes with the bits of IEEE binary32.  An integer is never converted
to a NaN, so that zero divided by a converted integer is a zero again unless the
integer was converted to zero.

In C the conversion of a floating-point number to an unsigned one is defined only
for numbers that the type has room for.  `UintCast` is any such conversion.

Main result:
* `UintCast.zero_div`: zero divided by a converted integer is converted to 0.
-/

namespace SingleFloat

open Float.Model
open Float.Model.UnpackedFloat (Sign)

/-- An integer as the nearest `float`. -/
def ofInt (n : Int) : Float32 :=
  .ofModel (.ofInt n)

/-- A conversion of `float` to `uint32_t`: it cuts off the fraction.  What it does
with a number out of range is not known. -/
structure UintCast where
  toUInt32 : Float32 → UInt32
  truncates : ∀ f : Float32, -1 < f → f < 4294967296 → toUInt32 f = f.toUInt32

section Packing

variable {spec : Format}

theorem isNaN_unpack_packComponents
    {sign : Sign} {exponent : BitVec spec.exponentBits}
    {mantissa : BitVec spec.mantissaBitsWithoutImplicit}
    (h : exponent = -1#_ → mantissa = 0#_) :
    (UnpackedFloat.unpack spec
      (UnpackedFloat.packComponents spec sign exponent mantissa)).isNaN = false := by
  simp only [UnpackedFloat.unpack, UnpackedFloat.unpackExponent_packComponents,
    UnpackedFloat.unpackMantissa_packComponents]
  by_cases hones : exponent = -1#_
  · rw [if_pos hones, if_pos (h hones)]
    rfl
  · rw [if_neg hones]
    split
    · split <;> rfl
    · rfl

/-- Packing makes no NaN. -/
theorem isNaN_unpack_pack
    {f : UnpackedFloat} (hf : f.isNaN = false) :
    (UnpackedFloat.unpack spec (UnpackedFloat.pack spec f)).isNaN = false := by
  cases f with
  | notANumber =>
      cases hf
  | infinity s =>
      exact isNaN_unpack_packComponents fun _ => rfl
  | zero s =>
      exact isNaN_unpack_packComponents fun _ => rfl
  | finite s m e hm =>
      simp only [UnpackedFloat.pack]
      split
      · exact isNaN_unpack_packComponents fun _ => rfl
      · split
        · refine isNaN_unpack_packComponents fun hones => ?_
          have hnat := congrArg BitVec.toNat hones
          rw [BitVec.neg_one_eq_allOnes, BitVec.toNat_allOnes, BitVec.toNat_ofNat,
            Nat.mod_eq_of_lt (by omega)] at hnat
          omega
        · refine isNaN_unpack_packComponents fun hones => ?_
          have hnat := congrArg BitVec.toNat hones
          have hpos : 1 < 2 ^ spec.exponentBits :=
            Nat.one_lt_two_pow (Nat.ne_of_gt spec.he)
          rw [BitVec.neg_one_eq_allOnes, BitVec.toNat_allOnes, BitVec.toNat_zero] at hnat
          omega

theorem isNaN_normalize
    (mantissa exponent : Int) (zeroSign : Sign) :
    (UnpackedFloat.normalize spec mantissa exponent zeroSign).isNaN = false := by
  simp only [UnpackedFloat.normalize, UnpackedFloat.round,
    UnpackedFloat.roundWithAccuracy]
  split
  · split <;> rfl
  · rfl
  · split <;> rfl

end Packing

/-- An integer is not converted to a NaN. -/
theorem isNaN_ofInt (n : Int) : (ofInt n).toModel.unpack.isNaN = false :=
  isNaN_unpack_pack (isNaN_normalize n 0 .positive)

/-- Zero divided by a converted integer is zero. -/
theorem zero_div_ofInt
    {n : Int} (hne : ¬ (ofInt n == 0) = true) :
    ∃ s, UInt64.toFloat32 0 * 8 / ofInt n = .ofModel (.pack (.zero s)) := by
  have hzero : UInt64.toFloat32 0 * 8 = .ofModel (.pack (.zero .positive)) := by
    decide +kernel
  have hunpack : (Float32.Model.pack (.zero .positive)).unpack = .zero .positive := by
    rfl
  have hnan := isNaN_ofInt n
  have hquot : .ofModel (.pack (.zero .positive)) / ofInt n =
      Float32.ofModel (.pack (UnpackedFloat.div .binary32 (.zero .positive)
        (ofInt n).toModel.unpack)) := by
    rw [← hunpack]
    rfl
  have hlit : (0 : Float32) = .ofModel (.pack (.zero .positive)) := by
    decide +kernel
  have hbeq : (ofInt n == 0) = (ofInt n).toModel.unpack.beq (.zero .positive) := by
    rw [hlit, ← hunpack]
    rfl
  rw [hzero, hquot]
  rw [hbeq] at hne
  cases hdiv : (ofInt n).toModel.unpack with
  | notANumber =>
      rw [hdiv] at hnan
      cases hnan
  | infinity s =>
      exact ⟨_, rfl⟩
  | zero s =>
      rw [hdiv] at hne
      exact absurd rfl hne
  | finite s m e hm =>
      exact ⟨_, rfl⟩

theorem UintCast.zero_div
    (cast : UintCast) {n : Int} (hne : ¬ (ofInt n == 0) = true) :
    cast.toUInt32 (UInt64.toFloat32 0 * 8 / ofInt n) = 0 := by
  obtain ⟨s, hs⟩ := zero_div_ofInt hne
  rw [hs]
  cases s with
  | positive =>
      rw [cast.truncates _ (by decide +kernel) (by decide +kernel)]
      decide +kernel
  | negative =>
      rw [cast.truncates _ (by decide +kernel) (by decide +kernel)]
      decide +kernel

end SingleFloat
