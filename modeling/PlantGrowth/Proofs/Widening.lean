import Mathlib
import PlantGrowth.Precision

/-!
# Widening loses nothing

A number of 32 bits that is widened has the same value with more zeros behind it, and narrowing
takes these zeros away again. Both are roundings that round nothing off: the mantissa is shifted by
zeros only, so no bit that is shifted out is set.

* `roundWithAccuracy_scaled`: rounding a mantissa that is a multiple of what is shifted out.
* `Fits`, `unpacked32`: the mantissas and exponents that numbers of 32 bits have.
* `unpack_pack_normal`: a number of 64 bits with a full mantissa is what it was packed from.
* `narrow_widen`, `isFinite_widen`: the two statements about the conversions.
-/

namespace PlantGrowth

open Float.Model (Format UnpackedFloat totalExponent)
open Float.Model.UnpackedFloat

variable {format : Format} {sign : Sign} {mantissa shift : Nat} {exponent : Int}

/-! ## Rounding without loss -/

theorem log2_scaled (h : 0 < mantissa) (shift : Nat) :
    (mantissa * 2 ^ shift).log2 = mantissa.log2 + shift := by
  induction shift with
  | zero => rw [Nat.pow_zero, Nat.mul_one, Nat.add_zero]
  | succ shift ih =>
    have hne : mantissa * 2 ^ shift ≠ 0 := (Nat.mul_pos h (Nat.two_pow_pos shift)).ne'
    rw [Nat.pow_succ, ← Nat.mul_assoc, Nat.mul_comm, Nat.log2_two_mul hne, ih, Nat.add_assoc]

theorem totalExponent_scaled (h : 0 < mantissa) :
    totalExponent (mantissa * 2 ^ shift) (exponent - shift) = totalExponent mantissa exponent := by
  rw [totalExponent, totalExponent, log2_scaled h]
  omega

/-- Zeros that are shifted out leave nothing to round. -/
theorem shiftRight_scaled (mantissa shift : Nat) :
    (⟨mantissa * 2 ^ shift, false, false⟩ : ExtendedMantissa) >>> shift =
      ⟨mantissa, false, false⟩ := by
  induction shift generalizing mantissa with
  | zero => rw [Nat.pow_zero, Nat.mul_one]; rfl
  | succ shift ih =>
    have hstep (em : ExtendedMantissa) : em >>> (shift + 1) = (em >>> shift).shiftRightOne := rfl
    rw [hstep, Nat.pow_succ', ← Nat.mul_assoc, ih]
    simp [ExtendedMantissa.shiftRightOne]

theorem shiftToTargetExponent_scaled (hpos : 0 < mantissa)
    (h : format.targetExponent (totalExponent mantissa exponent) = exponent) :
    shiftToTargetExponent format (mantissa * 2 ^ shift) (exponent - shift) .exact =
      (⟨mantissa, false, false⟩, exponent) := by
  have hshift : (exponent - (exponent - (shift : Int))).toNat = shift := by omega
  have hexponent : exponent - shift + (shift : Int) = exponent := by omega
  simp only [shiftToTargetExponent, shiftToExponent, totalExponent_scaled hpos, h, hshift,
    hexponent, ExtendedMantissa.ofMantissaAndAccuracy, shiftRight_scaled]

/-- A mantissa with zeros behind it is rounded to the mantissa without them, if that is the one that
the format asks for. -/
theorem roundWithAccuracy_scaled (hpos : 0 < mantissa)
    (h : format.targetExponent (totalExponent mantissa exponent) = exponent) :
    roundWithAccuracy format sign (mantissa * 2 ^ shift) (exponent - shift) .exact =
      .finite sign mantissa exponent hpos := by
  have hagain : shiftToTargetExponent format mantissa exponent .exact =
      (⟨mantissa, false, false⟩, exponent) := by
    have hzeros := @shiftToTargetExponent_scaled format mantissa 0 exponent hpos h
    rwa [Nat.pow_zero, Nat.mul_one, Int.natCast_zero, Int.sub_zero] at hzeros
  have hrounded : (⟨mantissa, false, false⟩ : ExtendedMantissa).roundedMantissa = mantissa := rfl
  simp only [roundWithAccuracy, shiftToTargetExponent_scaled hpos h, hrounded, hagain,
    Nat.ne_of_gt hpos, dif_neg, not_false_eq_true]

/-- A number whose mantissa is too short for a format gets zeros at the end. -/
theorem round_longer (hpos : 0 < mantissa) (shift : Nat)
    (h : format.targetExponent (totalExponent mantissa exponent) = exponent - shift) :
    UnpackedFloat.round format sign mantissa exponent =
      .finite sign (mantissa * 2 ^ shift) (exponent - shift)
        (Nat.mul_pos hpos (Nat.two_pow_pos shift)) := by
  have hshift : (exponent - (exponent - (shift : Int))).toNat = shift := by omega
  have htarget : format.targetExponent (totalExponent (mantissa * 2 ^ shift) (exponent - shift)) =
      exponent - shift := by rw [totalExponent_scaled hpos, h]
  have hsame := @roundWithAccuracy_scaled format sign (mantissa * 2 ^ shift) 0
    (exponent - shift) (Nat.mul_pos hpos (Nat.two_pow_pos shift)) htarget
  rw [Nat.pow_zero, Nat.mul_one, Int.natCast_zero, Int.sub_zero] at hsame
  simp only [UnpackedFloat.round, decreaseExponent, h, hshift, Nat.shiftLeft_eq, hsame]

/-- The zeros at the end go again, in a format whose mantissas are shorter. -/
theorem round_shorter (hpos : 0 < mantissa) (shift : Nat)
    (h : format.targetExponent (totalExponent mantissa exponent) = exponent) :
    UnpackedFloat.round format sign (mantissa * 2 ^ shift) (exponent - shift) =
      .finite sign mantissa exponent hpos := by
  have hshift : (exponent - (shift : Int) - exponent).toNat = 0 := by omega
  simp only [UnpackedFloat.round, decreaseExponent, totalExponent_scaled hpos, h, hshift,
    Nat.shiftLeft_zero, Int.natCast_zero, Int.sub_zero, roundWithAccuracy_scaled hpos h]

/-! ## Numbers of 32 bits -/

/-- The parts of a number of 32 bits: a mantissa of up to 24 bits, at the exponent that it asks
for. -/
structure Fits (mantissa : Nat) (exponent : Int) : Prop where
  pos : 0 < mantissa
  mantissa_lt : mantissa < 2 ^ 24
  exponent_le : exponent ≤ 104
  target : Format.binary32.targetExponent (totalExponent mantissa exponent) = exponent

/-- The leading one of a mantissa is not stored. -/
theorem toNat_lead {width : Nat} (bits : BitVec width) :
    (1#1 ++ bits).toNat = 2 ^ width + bits.toNat := by
  rw [BitVec.toNat_append, ← Nat.shiftLeft_add_eq_or_of_lt bits.isLt, Nat.shiftLeft_eq,
    show (1#1).toNat = 1 from rfl, Nat.one_mul]

theorem binary32_targetExponent (total : Int) :
    Format.binary32.targetExponent total = max (total - 24) (-149) := rfl

theorem binary64_targetExponent (total : Int) :
    Format.binary64.targetExponent total = max (total - 53) (-1074) := rfl

/-- A mantissa below the least exponent's full ones. -/
theorem Fits.subnormal (hpos : 0 < mantissa) (hlt : mantissa < 2 ^ 23) : Fits mantissa (-149) := by
  have hlog : mantissa.log2 < 23 := (Nat.log2_lt hpos.ne').mpr hlt
  refine ⟨hpos, hlt.trans (by decide), by decide, ?_⟩
  rw [binary32_targetExponent, totalExponent]
  omega

theorem Fits.normal (hlower : 2 ^ 23 ≤ mantissa) (hupper : mantissa < 2 ^ 24)
    (hleast : -149 ≤ exponent) (hmost : exponent ≤ 104) : Fits mantissa exponent := by
  have hpos : 0 < mantissa := lt_of_lt_of_le (by decide) hlower
  have hlog : mantissa.log2 = 23 := (Nat.log2_eq_iff hpos.ne').mpr ⟨hlower, hupper⟩
  refine ⟨hpos, hupper, hmost, ?_⟩
  rw [binary32_targetExponent, totalExponent, hlog]
  omega

/-- What the bits of a number of 32 bits stand for. -/
inductive Unpacked32 : UnpackedFloat → Prop
  | notANumber : Unpacked32 .notANumber
  | infinity (sign : Sign) : Unpacked32 (.infinity sign)
  | zero (sign : Sign) : Unpacked32 (.zero sign)
  | finite (sign : Sign) {mantissa : Nat} {exponent : Int} (h : Fits mantissa exponent) :
      Unpacked32 (.finite sign mantissa exponent h.pos)

theorem unpacked32 (bits : BitVec Format.binary32.numBits) :
    Unpacked32 (unpack .binary32 bits) := by
  have hexponent : (unpackExponent bits).toNat < 256 := (unpackExponent bits).isLt
  have hmantissa : (unpackMantissa bits).toNat < 2 ^ 23 := (unpackMantissa bits).isLt
  have hbias : ((Format.binary32.exponentBias : Nat) : Int) +
      (Format.binary32.mantissaBitsWithoutImplicit : Nat) = 150 := rfl
  rw [unpack]
  split
  · split
    · exact .infinity _
    · exact .notANumber
  next hfinite =>
    have hmost : (unpackExponent bits).toNat ≠ 255 := fun heq =>
      hfinite (BitVec.eq_of_toNat_eq heq)
    split
    next hzero =>
      split
      · exact .zero _
      next hnonzero =>
        have hfits : Fits (unpackMantissa bits).toNat
            ((unpackExponent bits).toNat - (150 : Int) + 1) := by
          rw [show (unpackExponent bits).toNat = 0 from congrArg BitVec.toNat hzero]
          exact .subnormal (Nat.pos_of_ne_zero fun heq => hnonzero (BitVec.eq_of_toNat_eq heq))
            hmantissa
        rw [← hbias] at hfits
        exact .finite _ hfits
    next hnonzero =>
      have hleast : (unpackExponent bits).toNat ≠ 0 := fun heq =>
        hnonzero (BitVec.eq_of_toNat_eq heq)
      have hlead : (1#1 ++ unpackMantissa bits).toNat = 2 ^ 23 + (unpackMantissa bits).toNat :=
        toNat_lead (unpackMantissa bits)
      have hfits : Fits (1#1 ++ unpackMantissa bits).toNat
          ((unpackExponent bits).toNat - (150 : Int)) := by
        rw [hlead]
        exact .normal (by omega) (by omega) (by omega) (by omega)
      rw [← hbias] at hfits
      exact .finite _ hfits

namespace Fits

variable (h : Fits mantissa exponent)
include h

/-- With zeros at the end, the mantissa has 53 bits. -/
theorem widened : ∃ shift : Nat,
    Format.binary64.targetExponent (totalExponent mantissa exponent) = exponent - shift ∧
    2 ^ 52 ≤ mantissa * 2 ^ shift ∧ mantissa * 2 ^ shift < 2 ^ 53 ∧
    -1074 ≤ exponent - shift ∧ exponent - shift ≤ 971 := by
  have hlog : mantissa.log2 < 24 := (Nat.log2_lt h.pos.ne').mpr h.mantissa_lt
  have hpos : mantissa * 2 ^ (52 - mantissa.log2) ≠ 0 :=
    (Nat.mul_pos h.pos (Nat.two_pow_pos _)).ne'
  have hfull : (mantissa * 2 ^ (52 - mantissa.log2)).log2 = 52 := by
    rw [log2_scaled h.pos]
    omega
  have htarget := h.target
  have hbound := h.exponent_le
  rw [binary32_targetExponent] at htarget
  refine ⟨52 - mantissa.log2, ?_, (Nat.log2_eq_iff hpos).mp hfull |>.1,
    (Nat.log2_eq_iff hpos).mp hfull |>.2, by omega, by omega⟩
  rw [binary64_targetExponent]
  unfold totalExponent at *
  omega

end Fits

/-! ## Numbers of 64 bits -/

/-- A number with a full mantissa is what it was packed from. -/
theorem unpack_pack_normal (hlower : 2 ^ 52 ≤ mantissa) (hupper : mantissa < 2 ^ 53)
    (hleast : -1074 ≤ exponent) (hmost : exponent ≤ 971) (hpos : 0 < mantissa) :
    unpack .binary64 (pack .binary64 (.finite sign mantissa exponent hpos)) =
      .finite sign mantissa exponent hpos := by
  have hlog : mantissa.log2 = 52 := (Nat.log2_eq_iff hpos.ne').mpr ⟨hlower, hupper⟩
  have hbiased : (exponent + Format.binary64.exponentBias +
      Format.binary64.mantissaBitsWithoutImplicit).toNat = (exponent + 1075).toNat := by
    show (exponent + (1023 : Nat) + (52 : Nat)).toNat = _
    omega
  have hvec : (BitVec.ofNat 11 (exponent + 1075).toNat).toNat = (exponent + 1075).toNat := by
    rw [BitVec.toNat_ofNat]
    omega
  have hordinary : BitVec.ofNat 11 (exponent + 1075).toNat ≠ -1#11 := by
    intro heq
    have hnat := congrArg BitVec.toNat heq
    rw [hvec] at hnat
    have hones : (-1#11 : BitVec 11).toNat = 2047 := rfl
    omega
  have hnormal : BitVec.ofNat 11 (exponent + 1075).toNat ≠ 0#11 := by
    intro heq
    have hnat := congrArg BitVec.toNat heq
    rw [hvec] at hnat
    have hzero : (0#11 : BitVec 11).toNat = 0 := rfl
    omega
  have hmantissa : (1#1 ++ BitVec.ofNat 52 mantissa).toNat = mantissa := by
    rw [toNat_lead, BitVec.toNat_ofNat]
    omega
  rw [pack]
  simp only [hlog, hbiased]
  have hfits : ¬ 2 ^ 11 ≤ (exponent + 1075).toNat + 1 := by omega
  rw [if_neg hfits, if_pos (show 52 + 1 = Format.binary64.mantissaBits from rfl), unpack]
  simp only [unpackMantissa_packComponents, unpackExponent_packComponents,
    unpackSign_packComponents, Sign.ofBitVec_toBitVec]
  rw [if_neg hordinary, if_neg hnormal]
  have hbias : ((Format.binary64.exponentBias : Nat) : Int) +
      (Format.binary64.mantissaBitsWithoutImplicit : Nat) = 1075 := rfl
  have hexponent : ((exponent + 1075).toNat : Int) - ((Format.binary64.exponentBias : Nat) +
      (Format.binary64.mantissaBitsWithoutImplicit : Nat)) = exponent := by
    rw [hbias]
    omega
  simp only [hmantissa, hvec, hexponent]

/-! ## The two conversions -/

/-- Packing a widened number loses none of its parts. -/
theorem unpack_pack_rounded {x : UnpackedFloat} (h : Unpacked32 x) :
    unpack .binary64 (pack .binary64 (rounded .binary64 x)) = rounded .binary64 x := by
  cases h with
  | notANumber => rfl
  | infinity sign => cases sign <;> rfl
  | zero sign => cases sign <;> rfl
  | finite sign h =>
    obtain ⟨shift, htarget, hlower, hupper, hleast, hmost⟩ := h.widened
    rw [rounded, round_longer h.pos shift htarget]
    exact unpack_pack_normal hlower hupper hleast hmost _

theorem rounded_rounded {x : UnpackedFloat} (h : Unpacked32 x) :
    rounded .binary32 (rounded .binary64 x) = x := by
  cases h with
  | notANumber => rfl
  | infinity => rfl
  | zero => rfl
  | finite sign h =>
    obtain ⟨shift, htarget, -⟩ := h.widened
    rw [rounded, round_longer h.pos shift htarget, rounded, round_shorter h.pos shift h.target]

theorem isFinite_rounded {x : UnpackedFloat} (h : Unpacked32 x) :
    (rounded .binary64 x).isFinite = x.isFinite := by
  cases h with
  | notANumber => rfl
  | infinity => rfl
  | zero => rfl
  | finite sign h =>
    obtain ⟨shift, htarget, -⟩ := h.widened
    rw [rounded, round_longer h.pos shift htarget]
    rfl

theorem unpacked32_unpack (x : Float32) : Unpacked32 x.toModel.unpack :=
  unpacked32 x.toModel.toBits.toBitVec

theorem unpack_widen (x : Float32) :
    (widen x).toModel.unpack = rounded .binary64 x.toModel.unpack :=
  unpack_pack_rounded (unpacked32_unpack x)

/-- **Narrowing undoes widening**, to the bit. -/
theorem narrow_widen (x : Float32) : narrow (widen x) = x := by
  obtain ⟨⟨bits, hvalid⟩⟩ := x
  have hbits : pack .binary32 (unpack .binary32 bits.toBitVec) = bits.toBitVec :=
    pack_unpack_of_valid hvalid
  rw [narrow, unpack_widen, rounded_rounded (unpacked32_unpack _)]
  simp only [Float32.Model.pack, Float32.Model.unpack, hbits]

/-- What is widened is as finite as it was. -/
theorem isFinite_widen (x : Float32) : (widen x).isFinite = x.isFinite := by
  show (widen x).toModel.unpack.isFinite = x.toModel.unpack.isFinite
  rw [unpack_widen, isFinite_rounded (unpacked32_unpack x)]

end PlantGrowth
