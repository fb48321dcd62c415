/-
Shares as floats: a count divided by a count that is no less is a number between zero and one.
- `Represents.rounded_mono`: rounding keeps the order of numbers that are cut down to the same unit.
- `toNat_pack_roundWithAccuracy`: the place of a rounded number among the floats, from its mantissa and its target.
- `bits_toFloat`, `bits_toFloat_mono`: naturals become floats in their order, rounded from 2^53 on.
- `toNat_pack_div_le_one`: the quotient of two positive floats, of which the second is no less, is at most one.
- `Time.share_within_unit`, `Time.zero_share`: so it is with counts, and no share of anything is zero.
-/
import BrokerSim.Proofs.Overflow

namespace BrokerSim

open Float.Model
open UnpackedFloat (Accuracy ExtendedMantissa accuracyOfFraction decreaseExponent shiftToTargetExponent)

namespace Binary64

/-! ## Rounding keeps order -/

/-- an odd mantissa is rounded up to from beyond half a unit below it -/
theorem Represents.le_rounded_odd_iff {x y : Nat} (hy : 0 < y) {em : ExtendedMantissa} (h : Represents x y em)
    (j : Nat) : 2 * j + 1 ≤ em.roundedMantissa ↔ (4 * j + 1) * y < 2 * x := by
  rcases em with ⟨m, _ | _, _ | _⟩
  · change x = m * y at h
    change 2 * j + 1 ≤ m ↔ _
    constructor
    · intro hm; nlinarith
    · intro hx; by_contra hm; nlinarith
  · change 2 * m * y < 2 * x ∧ 2 * x < (2 * m + 1) * y at h
    change 2 * j + 1 ≤ m ↔ _
    constructor
    · intro hm; nlinarith
    · intro hx; by_contra hm; nlinarith
  · change 2 * x = (2 * m + 1) * y at h
    change 2 * j + 1 ≤ m + m % 2 ↔ _
    constructor
    · intro hm
      have hm : 2 * j + 1 ≤ m := by omega
      nlinarith
    · intro hx
      have hm : 2 * j + 1 ≤ m := by
        by_contra hm
        nlinarith
      omega
  · change (2 * m + 1) * y < 2 * x ∧ 2 * x < (2 * m + 2) * y at h
    change 2 * j + 1 ≤ m + 1 ↔ _
    constructor
    · intro hm; nlinarith
    · intro hx; by_contra hm; nlinarith

variable {x x' y : Nat} {em em' : ExtendedMantissa}

/-- **What is greater is rounded no lower.** -/
theorem Represents.rounded_mono (hy : 0 < y) (h : Represents x y em) (h' : Represents x' y em') (hx : x ≤ x') :
    em.roundedMantissa ≤ em'.roundedMantissa := by
  -- it suffices to reach the mantissa of the first from the second, which is a matter of half units
  obtain ⟨k, hk | hk⟩ := Nat.even_or_odd' em.roundedMantissa
  · rcases Nat.eq_zero_or_pos k with rfl | hpos
    · rw [hk]
      exact Nat.zero_le _
    · have hreach := (h.le_rounded_iff hy hpos).1 hk.ge
      rw [hk, h'.le_rounded_iff hy hpos]
      exact hreach.trans (Nat.mul_le_mul_left 2 hx)
  · have hreach := (h.le_rounded_odd_iff hy k).1 hk.ge
    rw [hk, h'.le_rounded_odd_iff hy]
    exact hreach.trans_le (Nat.mul_le_mul_left 2 hx)

theorem represents_whole (k y : Nat) : Represents (k * y) y ⟨k, false, false⟩ := rfl

theorem Represents.rounded_le (hy : 0 < y) (h : Represents x y em) {k : Nat} (hx : x ≤ k * y) :
    em.roundedMantissa ≤ k :=
  h.rounded_mono hy (represents_whole k y) hx

theorem Represents.le_rounded (hy : 0 < y) (h : Represents x y em) {k : Nat} (hx : k * y ≤ x) :
    k ≤ em.roundedMantissa :=
  (represents_whole k y).rounded_mono hy h hx

/-- a quotient is told by its whole part and how its rest compares with a half -/
theorem represents_fraction (hy : 0 < y) (x : Nat) :
    Represents x y (.ofMantissaAndAccuracy (x / y) (accuracyOfFraction (x % y) y)) := by
  have hsplit : x / y * y + x % y = x := by
    rw [Nat.mul_comm]
    exact Nat.div_add_mod x y
  have hrest := Nat.mod_lt x hy
  generalize x / y = q at *
  generalize x % y = r at *
  unfold accuracyOfFraction
  split_ifs with hzero
  · change x = q * y
    omega
  · have hpos : 0 < r := Nat.pos_of_ne_zero hzero
    rcases lt_trichotomy (2 * r) y with h | h | h
    · rw [compare_lt_iff_lt.2 h]
      change 2 * q * y < 2 * x ∧ 2 * x < (2 * q + 1) * y
      constructor <;> nlinarith
    · rw [compare_eq_iff_eq.2 h]
      change 2 * x = (2 * q + 1) * y
      nlinarith
    · rw [compare_gt_iff_gt.2 h]
      change (2 * q + 1) * y < 2 * x ∧ 2 * x < (2 * q + 2) * y
      constructor <;> nlinarith

/-! ## Rounded and packed -/

/-- a mantissa cut down to its target, with what is known of the rest -/
def cut (m : Nat) (e : Int) (accuracy : Accuracy) : ExtendedMantissa :=
  (shiftToTargetExponent Format.binary64 m e accuracy).1

theorem represents_cut {m : Nat} {accuracy : Accuracy} (hy : 0 < y)
    (h : Represents x y (.ofMantissaAndAccuracy m accuracy)) (e : Int) :
    Represents x (2 ^ (target m e - e).toNat * y) (cut m e accuracy) := by
  have h := h.shiftRight hy (target m e - e).toNat
  rwa [← targetExponent_eq] at h

theorem mantissa_cut (m : Nat) (e : Int) (accuracy : Accuracy) :
    (cut m e accuracy).mantissa = m / 2 ^ (target m e - e).toNat := by
  have hinit : (ExtendedMantissa.ofMantissaAndAccuracy m accuracy).mantissa = m := by
    cases accuracy with
    | exact => rfl
    | inexact o => cases o <;> rfl
  rw [← targetExponent_eq]
  exact (mantissa_shiftRight _ _).trans (by rw [hinit])

theorem isCanonical_cut {m : Nat} {e : Int} (he : e ≤ target m e) (accuracy : Accuracy) :
    IsCanonical (cut m e accuracy).mantissa (target m e) := by
  rw [mantissa_cut]
  rcases Nat.eq_zero_or_pos m with rfl | hm
  · -- only a number below the least unit is cut down to nothing before it is shifted
    have hlog : Nat.log2 0 = 0 := by decide
    have hleast : target 0 e = -1074 := by
      unfold target at *
      omega
    rw [hleast, Nat.zero_div]
    exact ⟨by decide, le_rfl, .inr rfl⟩
  · have h := isCanonical_shift hm (e := e) fun h => absurd h he.not_gt
    rwa [max_eq_right he] at h

/-- what is rounded to one bit more than a mantissa has is shifted once more, which leaves its place as it is -/
theorem shift_rounded {r : Nat} {t : Int} (hr : r ≤ 2 ^ 53) (ht : -1074 ≤ t) (hlead : 2 ^ 52 ≤ r ∨ t = -1074) :
    IsCanonical (r / 2 ^ (target r t - t).toNat) (max t (target r t)) ∧
      scale (r / 2 ^ (target r t - t).toNat) (max t (target r t)) = scale r t := by
  rcases hr.lt_or_eq with hshort | rfl
  · have hlog : r.log2 ≤ 52 := by
      rcases Nat.eq_zero_or_pos r with rfl | hpos
      · decide
      · exact Nat.le_of_lt_succ ((Nat.log2_lt hpos.ne').2 hshort)
    have htarget : target r t ≤ t := by
      unfold target
      omega
    rw [show (target r t - t).toNat = 0 by omega, pow_zero, Nat.div_one, max_eq_left htarget]
    exact ⟨⟨hshort, ht, hlead⟩, rfl⟩
  · have htarget : target (2 ^ 53) t = t + 1 := by
      have hlog : Nat.log2 (2 ^ 53) = 53 := by decide
      unfold target
      rw [hlog]
      omega
    have hone : (t + 1 - t).toNat = 1 := by omega
    rw [htarget, hone, max_eq_right (by omega)]
    refine ⟨⟨by decide, by omega, .inl (by decide)⟩, ?_⟩
    unfold scale
    omega

/-- **The place of a rounded number.** -/
theorem toNat_pack_roundWithAccuracy {m : Nat} {e : Int} (he : e ≤ target m e) (accuracy : Accuracy) :
    (UnpackedFloat.pack Format.binary64
      (UnpackedFloat.roundWithAccuracy Format.binary64 .positive m e accuracy)).toNat =
      min (scale (cut m e accuracy).roundedMantissa (target m e)) infinityBits := by
  have hcanonical := isCanonical_cut he accuracy
  have hlow := le_roundedMantissa (cut m e accuracy)
  have hhigh := roundedMantissa_le (cut m e accuracy)
  have hexp : (shiftToTargetExponent Format.binary64 m e accuracy).2 = target m e := by
    change e + ((Format.binary64.targetExponent (totalExponent m e) - e).toNat : Int) = _
    rw [targetExponent_eq]
    omega
  obtain ⟨hsecond, hexp'⟩ := shiftToTargetExponent_eq (cut m e accuracy).roundedMantissa (target m e)
  obtain ⟨hfinal, hscale⟩ := shift_rounded (r := (cut m e accuracy).roundedMantissa) (t := target m e)
    (hhigh.trans hcanonical.mantissa) hcanonical.exponent (hcanonical.leading.imp_left fun h => h.trans hlow)
  unfold UnpackedFloat.roundWithAccuracy
  dsimp only
  rw [show (shiftToTargetExponent Format.binary64 m e accuracy).1 = cut m e accuracy from rfl, hexp]
  rw [← hsecond, ← hexp'] at hfinal hscale
  split_ifs with hzero
  · -- nothing is left, which is the first place of all
    rw [← hscale, hzero]
    rw [hzero] at hfinal
    obtain hleast : _ = (-1074 : Int) := hfinal.leading.resolve_left (by decide)
    rw [hleast]
    rfl
  · rw [toNat_pack_canonical hfinal (Nat.pos_of_ne_zero hzero), hscale]

/-! ## Naturals -/

theorem log2_mul_two_pow {n : Nat} (hn : 0 < n) (k : Nat) : (n * 2 ^ k).log2 = n.log2 + k := by
  have hlo := (Nat.le_log2 hn.ne').1 le_rfl
  have hhi := (Nat.log2_lt hn.ne').1 (Nat.lt_succ_self _)
  rw [Nat.log2_eq_iff (Nat.mul_pos hn (Nat.two_pow_pos k)).ne']
  constructor
  · rw [pow_add]
    exact Nat.mul_le_mul_right _ hlo
  · rw [Nat.add_right_comm, pow_add]
    exact Nat.mul_lt_mul_of_pos_right hhi (Nat.two_pow_pos k)

/-- a number that needs no rounding keeps its place, in whatever units it is given -/
theorem toNat_pack_exact {m : Nat} {e : Int} (hc : IsCanonical m e) (hm : 0 < m) (k : Nat) :
    (UnpackedFloat.pack Format.binary64
      (UnpackedFloat.roundWithAccuracy Format.binary64 .positive (m * 2 ^ k) (e - k) .exact)).toNat =
      min (scale m e) infinityBits := by
  have htarget : target (m * 2 ^ k) (e - k) = e := by
    obtain ⟨hlt, he, hlead⟩ := hc
    have hlog := (Nat.log2_lt hm.ne').2 hlt
    have hlog' : 2 ^ 52 ≤ m → 52 ≤ m.log2 := (Nat.le_log2 hm.ne').2
    unfold target
    rw [log2_mul_two_pow hm]
    omega
  have hrepresents : Represents (m * 2 ^ k) 1 (.ofMantissaAndAccuracy (m * 2 ^ k) .exact) := (Nat.mul_one _).symm
  have hcut := represents_cut Nat.one_pos hrepresents (e - k)
  rw [htarget, show (e - (e - k)).toNat = k by omega, Nat.mul_one] at hcut
  have hrounded : (cut (m * 2 ^ k) (e - k) .exact).roundedMantissa = m :=
    le_antisymm (hcut.rounded_le (Nat.two_pow_pos k) le_rfl) (hcut.le_rounded (Nat.two_pow_pos k) le_rfl)
  rw [toNat_pack_roundWithAccuracy (by omega), hrounded, htarget]

/-- a natural below 2^53, in units of its last place -/
theorem isCanonical_natural {n : Nat} (hn : 0 < n) (hlt : n < 2 ^ 53) :
    IsCanonical (n * 2 ^ (52 - n.log2)) (n.log2 - 52) := by
  have hlog : n.log2 ≤ 52 := Nat.le_of_lt_succ ((Nat.log2_lt hn.ne').2 hlt)
  have hfull : (n * 2 ^ (52 - n.log2)).log2 = 52 := by
    rw [log2_mul_two_pow hn]
    omega
  obtain ⟨hlow, hhigh⟩ := (Nat.log2_eq_iff (Nat.mul_pos hn (Nat.two_pow_pos _)).ne').1 hfull
  exact ⟨hhigh, by omega, .inl hlow⟩

theorem pack_ofNat {n : Nat} (hn : 0 < n) (hlt : n < 2 ^ 53) :
    (UnpackedFloat.pack Format.binary64 (UnpackedFloat.ofNat Format.binary64 n)).toNat =
      min (scale (n * 2 ^ (52 - n.log2)) (n.log2 - 52)) infinityBits := by
  have hlog : n.log2 ≤ 52 := Nat.le_of_lt_succ ((Nat.log2_lt hn.ne').2 hlt)
  have htarget : target n 0 = n.log2 - 52 := by
    unfold target
    omega
  have hround : UnpackedFloat.ofNat Format.binary64 n = UnpackedFloat.roundWithAccuracy Format.binary64 .positive
      (n * 2 ^ (52 - n.log2) * 2 ^ 0) (n.log2 - 52 - (0 : Nat)) .exact := by
    have hexp : (0 : Int) - ((0 - ((n.log2 : Int) - 52)).toNat : Int) = n.log2 - 52 - (0 : Nat) := by omega
    have hshift : (0 - ((n.log2 : Int) - 52)).toNat = 52 - n.log2 := by omega
    unfold UnpackedFloat.ofNat UnpackedFloat.ofInt
    rw [normalize_pos hn]
    unfold UnpackedFloat.round decreaseExponent
    rw [targetExponent_eq, htarget]
    dsimp only
    rw [hexp, hshift, Nat.shiftLeft_eq, pow_zero, Nat.mul_one]
  rw [hround, toNat_pack_exact (isCanonical_natural hn hlt) (Nat.mul_pos hn (Nat.two_pow_pos _))]

/-- one is the first float with its exponent -/
theorem unpack_one : (Float.exactlyRepresentablePowersOfTen[0]).toModel.unpack =
    .finite .positive (2 ^ 52) (-52) (Nat.two_pow_pos 52) := by
  rfl

end Binary64

open Binary64

/-- once a positive float is the float -/
theorem Time.bits_mul_one {t : Float} (h0 : 0 < bits t) (hi : bits t < infinityBits) :
    bits (t * Float.exactlyRepresentablePowersOfTen[0]) = bits t := by
  have hmul : bits (t * Float.exactlyRepresentablePowersOfTen[0]) = (UnpackedFloat.pack Format.binary64
      (UnpackedFloat.mul Format.binary64 t.toModel.unpack
        (Float.exactlyRepresentablePowersOfTen[0]).toModel.unpack)).toNat := rfl
  rw [hmul, unpack_one, unpack_eq h0 hi]
  refine (toNat_pack_exact (isCanonical_of_bits (bits t)) (mantissaOf_pos h0) 52).trans ?_
  rw [scale_of_bits, min_eq_left hi.le]

/-- **Naturals as floats**: cut down to 53 bits, and rounded there. -/
theorem Time.bits_toFloat {n : Nat} (hn : 0 < n) :
    ∃ em, Represents (n * 2 ^ 53) (2 ^ (n.log2 + 1)) em ∧
      bits n.toFloat = min (scale em.roundedMantissa (n.log2 - 52)) infinityBits := by
  by_cases hlt : n < 2 ^ 53
  · have hlog : n.log2 ≤ 52 := Nat.le_of_lt_succ ((Nat.log2_lt hn.ne').2 hlt)
    have hfloat : n.toFloat = n.toUInt64.toFloat * Float.exactlyRepresentablePowersOfTen[0] := by
      unfold Nat.toFloat Float.ofNat
      change Float.ofScientific n false 0 = _
      rw [Float.ofScientific, dif_pos ⟨hlt, by decide⟩]
      rfl
    have hword : n.toUInt64.toNat = n := Nat.mod_eq_of_lt (by omega)
    have hplace : scale (n * 2 ^ (52 - n.log2)) (n.log2 - 52) < infinityBits := by
      rw [← not_le, scale_infinite_iff (isCanonical_natural hn hlt)]
      omega
    have hword' : bits n.toUInt64.toFloat = scale (n * 2 ^ (52 - n.log2)) (n.log2 - 52) := by
      rw [← min_eq_left hplace.le, ← pack_ofNat hn hlt]
      conv_rhs => rw [← hword]
      rfl
    have hpos : 0 < bits n.toUInt64.toFloat := by
      rw [hword']
      exact Nat.add_pos_right _ (Nat.mul_pos hn (Nat.two_pow_pos _))
    refine ⟨⟨n * 2 ^ (52 - n.log2), false, false⟩, ?_, ?_⟩
    · change n * 2 ^ 53 = n * 2 ^ (52 - n.log2) * 2 ^ (n.log2 + 1)
      rw [Nat.mul_assoc, ← pow_add, show 52 - n.log2 + (n.log2 + 1) = 53 by omega]
    · rw [hfloat, bits_mul_one hpos (hword' ▸ hplace), hword']
      exact (min_eq_left hplace.le).symm
  · have hfloat : n.toFloat = Float.ofModel (Float.Model.ofScientific n 0) := by
      unfold Nat.toFloat Float.ofNat
      change Float.ofScientific n false 0 = _
      rw [Float.ofScientific, dif_neg (fun h => hlt h.1)]
      rfl
    have hlog : 53 ≤ n.log2 := (Nat.le_log2 hn.ne').2 (not_lt.1 hlt)
    have htarget : target (n * 2 ^ 53) (-53) = n.log2 - 52 := by
      unfold target
      rw [log2_mul_two_pow hn]
      omega
    have hround : UnpackedFloat.ofScientific Format.binary64 n 0 =
        UnpackedFloat.roundWithAccuracy Format.binary64 .positive (n * 2 ^ 53) (-53) .exact := by
      have hpower : -((2 ^ Format.binary64.exponentBits : Int) + n.log2) ≤ 0 := by
        have : (0 : Int) ≤ 2 ^ Format.binary64.exponentBits := by positivity
        omega
      unfold UnpackedFloat.ofScientific
      rw [dif_neg hn.ne', if_neg (by decide), if_neg hpower.not_gt, if_pos le_rfl]
      have hmantissa : n <<< Format.binary64.mantissaBits * 10 ^ (0 : Int).toNat = n * 2 ^ 53 := by
        rw [Nat.shiftLeft_eq]
        exact Nat.mul_one _
      unfold UnpackedFloat.mul
      dsimp only
      rw [hmantissa]
      rfl
    have hrepresents : Represents (n * 2 ^ 53) 1 (.ofMantissaAndAccuracy (n * 2 ^ 53) .exact) := (Nat.mul_one _).symm
    have hcut := represents_cut Nat.one_pos hrepresents (-53)
    rw [htarget, show ((n.log2 : Int) - 52 - -53).toNat = n.log2 + 1 by omega, Nat.mul_one] at hcut
    refine ⟨_, hcut, ?_⟩
    have hbits : bits n.toFloat =
        (UnpackedFloat.pack Format.binary64 (UnpackedFloat.ofScientific Format.binary64 n 0)).toNat := by
      rw [hfloat]
      rfl
    rw [hbits, hround, toNat_pack_roundWithAccuracy (by omega), htarget]

/-- a natural that is cut down to 53 bits has all of them -/
theorem Binary64.Represents.rounded_natural {n : Nat} (hn : 0 < n) {em : ExtendedMantissa}
    (h : Represents (n * 2 ^ 53) (2 ^ (n.log2 + 1)) em) : 2 ^ 52 ≤ em.roundedMantissa ∧ em.roundedMantissa ≤ 2 ^ 53 := by
  have hlo := (Nat.le_log2 hn.ne').1 le_rfl
  have hhi := (Nat.log2_lt hn.ne').1 (Nat.lt_succ_self _)
  constructor
  · refine h.le_rounded (Nat.two_pow_pos _) ?_
    rw [← pow_add, show 52 + (n.log2 + 1) = n.log2 + 53 by omega, pow_add]
    exact Nat.mul_le_mul_right _ hlo
  · refine h.rounded_le (Nat.two_pow_pos _) ?_
    rw [Nat.mul_comm]
    exact Nat.mul_le_mul_left _ hhi.le

namespace Time

/-- more is no smaller a float -/
theorem bits_toFloat_mono {m n : Nat} (hm : 0 < m) (hle : m ≤ n) : bits m.toFloat ≤ bits n.toFloat := by
  have hn : 0 < n := hm.trans_le hle
  obtain ⟨em, hrepresents, hbits⟩ := bits_toFloat hm
  obtain ⟨en, hrepresents', hbits'⟩ := bits_toFloat hn
  have hlog : m.log2 ≤ n.log2 := (Nat.le_log2 hn.ne').2 (((Nat.le_log2 hm.ne').1 le_rfl).trans hle)
  rw [hbits, hbits']
  refine min_le_min_right _ ?_
  unfold scale
  rcases hlog.lt_or_eq with hlog | hlog
  · have hhigh := (hrepresents.rounded_natural hm).2
    have hlow := (hrepresents'.rounded_natural hn).1
    omega
  · rw [← hlog] at hrepresents'
    have hmono := hrepresents.rounded_mono (Nat.two_pow_pos _) hrepresents' (Nat.mul_le_mul_right _ hle)
    omega

theorem bits_toFloat_pos {n : Nat} (hn : 0 < n) : 0 < bits n.toFloat ∧ bits n.toFloat ≤ infinityBits := by
  obtain ⟨em, hrepresents, hbits⟩ := bits_toFloat hn
  have hlow := (hrepresents.rounded_natural hn).1
  rw [hbits]
  refine ⟨lt_min ?_ (by decide), min_le_right _ _⟩
  unfold scale
  omega

theorem bits_toFloat_lt {n : Nat} (hn : 0 < n) (hlt : n < 2 ^ 64) : bits n.toFloat < infinityBits := by
  obtain ⟨em, hrepresents, hbits⟩ := bits_toFloat hn
  have hhigh := (hrepresents.rounded_natural hn).2
  have hlog : n.log2 < 64 := (Nat.log2_lt hn.ne').2 hlt
  rw [hbits]
  refine (min_le_left _ _).trans_lt ?_
  unfold scale infinityBits
  omega

end Time

/-! ## Quotients -/

namespace Binary64

/-- a float that is no less has a greater exponent, or the same and no less a mantissa -/
theorem le_of_bits {a b : Nat} (hab : a ≤ b) :
    exponentOf a < exponentOf b ∨ exponentOf a = exponentOf b ∧ mantissaOf a ≤ mantissaOf b := by
  rcases (exponentOf_mono hab).lt_or_eq with h | h
  · exact .inl h
  · have ha := scale_of_bits a
    have hb := scale_of_bits b
    unfold scale at ha hb
    rw [h] at ha
    exact .inr ⟨h, by omega⟩

/-- the quotient of two positive floats with the exponent that it is worked out with: what is divided, the quotient as
    far as it goes, and that neither is more than one -/
theorem quotient_le_one {a b : Nat} (ha : 0 < a) (hab : a ≤ b) :
    ∃ (e : Int) (x : Nat), e ≤ -53 ∧ x ≤ 2 ^ (-e).toNat * mantissaOf b ∧ e ≤ target (x / mantissaOf b) e ∧
      UnpackedFloat.divCore Format.binary64 (mantissaOf a) (exponentOf a) (mantissaOf b) (exponentOf b) =
        (x / mantissaOf b, e, accuracyOfFraction (x % mantissaOf b) (mantissaOf b)) := by
  have hm : 0 < mantissaOf a := mantissaOf_pos ha
  have hn : 0 < mantissaOf b := mantissaOf_pos (ha.trans_le hab)
  obtain ⟨hmlt, -, -⟩ := isCanonical_of_bits a
  obtain ⟨-, -, hnlead⟩ := isCanonical_of_bits b
  have hleast := (isCanonical_of_bits a).exponent
  have horder := le_of_bits hab
  generalize mantissaOf a = m at *
  generalize mantissaOf b = n at *
  generalize exponentOf a = f at *
  generalize exponentOf b = g at *
  have hmlo := (Nat.le_log2 hm.ne').1 le_rfl
  have hnhi := (Nat.log2_lt hn.ne').1 (Nat.lt_succ_self _)
  have hmlog : m.log2 ≤ 52 := Nat.le_of_lt_succ ((Nat.log2_lt hm.ne').2 hmlt)
  have hlog : f + m.log2 ≤ g + n.log2 := by
    rcases horder with h | ⟨rfl, h⟩
    · have := (Nat.le_log2 hn.ne').2 (hnlead.resolve_right (by omega))
      omega
    · have := (Nat.le_log2 hn.ne').2 (hmlo.trans h)
      omega
  let wanted := Format.binary64.targetExponent (totalExponent m f - totalExponent n g)
  have hwanted : wanted = max (m.log2 + f - (n.log2 + g) - 53) (-1074) := by
    have h : Format.binary64.minExponent = -1074 := by decide
    change max (totalExponent m f - totalExponent n g - 53) Format.binary64.minExponent = _
    rw [h]
    unfold totalExponent
    omega
  have hmin : min (f - g) wanted ≤ wanted ∧ min (f - g) wanted ≤ f - g := ⟨min_le_right _ _, min_le_left _ _⟩
  have hcore : UnpackedFloat.divCore Format.binary64 m f n g =
      (m <<< (f - g - min (f - g) wanted).toNat / n, min (f - g) wanted,
        accuracyOfFraction (m <<< (f - g - min (f - g) wanted).toNat % n) n) := rfl
  rw [Nat.shiftLeft_eq] at hcore
  generalize min (f - g) wanted = e at *
  generalize hshift : (f - g - e).toNat = shift at *
  refine ⟨e, m * 2 ^ shift, by omega, ?_, ?_, hcore⟩
  · rcases horder with h | ⟨rfl, h⟩
    · -- a mantissa of the first is less than twice one of the second
      have hlead := hnlead.resolve_right (by omega)
      have hsplit : (-e).toNat = shift + 1 + ((-e).toNat - shift - 1) := by omega
      calc m * 2 ^ shift
        _ ≤ 2 * n * 2 ^ shift := Nat.mul_le_mul_right _ (by omega)
        _ = 2 ^ (shift + 1) * n := by ring
        _ ≤ 2 ^ (-e).toNat * n := Nat.mul_le_mul_right _ (Nat.pow_le_pow_right Nat.two_pos (by omega))
    · rw [show (-e).toNat = shift by omega, Nat.mul_comm]
      exact Nat.mul_le_mul_left _ h
  · by_cases hsmall : e ≤ -1074
    · exact hsmall.trans (le_max_right _ _)
    · -- then the quotient has all its bits
      have hfull : 2 ^ 52 ≤ m * 2 ^ shift / n := by
        rw [Nat.le_div_iff_mul_le hn]
        calc 2 ^ 52 * n
          _ ≤ 2 ^ 52 * 2 ^ (n.log2 + 1) := Nat.mul_le_mul_left _ hnhi.le
          _ = 2 ^ (52 + (n.log2 + 1)) := (pow_add ..).symm
          _ ≤ 2 ^ (m.log2 + shift) := Nat.pow_le_pow_right Nat.two_pos (by omega)
          _ = 2 ^ m.log2 * 2 ^ shift := pow_add ..
          _ ≤ m * 2 ^ shift := Nat.mul_le_mul_right _ hmlo
      have hpos : 0 < m * 2 ^ shift / n := (Nat.two_pow_pos 52).trans_le hfull
      have := (Nat.le_log2 hpos.ne').2 hfull
      unfold target
      omega

/-- the bits of one -/
def oneBits : Nat := 1023 * 2 ^ 52

/-- **A quotient that is no more than one** is rounded to no more than one. -/
theorem toNat_pack_div_le_one {a b : Nat} (ha : 0 < a) (hab : a ≤ b) :
    (UnpackedFloat.pack Format.binary64 (UnpackedFloat.div Format.binary64
      (.finite .positive (mantissaOf a) (exponentOf a) (mantissaOf_pos ha))
      (.finite .positive (mantissaOf b) (exponentOf b) (mantissaOf_pos (ha.trans_le hab))))).toNat ≤ oneBits := by
  obtain ⟨e, x, he, hx, htarget, hcore⟩ := quotient_le_one ha hab
  have hn : 0 < mantissaOf b := mantissaOf_pos (ha.trans_le hab)
  have hdiv : UnpackedFloat.div Format.binary64
      (.finite .positive (mantissaOf a) (exponentOf a) (mantissaOf_pos ha))
      (.finite .positive (mantissaOf b) (exponentOf b) hn) =
      UnpackedFloat.roundWithAccuracy Format.binary64 .positive (x / mantissaOf b) e
        (accuracyOfFraction (x % mantissaOf b) (mantissaOf b)) := by
    unfold UnpackedFloat.div
    dsimp only
    rw [hcore]
    rfl
  have hrepresents := represents_cut hn (represents_fraction hn x) e
  have hcanonical := isCanonical_cut htarget (accuracyOfFraction (x % mantissaOf b) (mantissaOf b))
  have hround := (roundedMantissa_le _).trans hcanonical.mantissa
  rw [hdiv, toNat_pack_roundWithAccuracy htarget]
  refine (min_le_left _ _).trans ?_
  have hlog : ((x / mantissaOf b).log2 : Int) ≤ -e := by
    rcases Nat.eq_zero_or_pos (x / mantissaOf b) with hzero | hpos
    · rw [hzero, show Nat.log2 0 = 0 by decide]
      omega
    · have hquotient : x / mantissaOf b ≤ 2 ^ (-e).toNat := Nat.div_le_of_le_mul (by rwa [Nat.mul_comm])
      have hlo := ((Nat.le_log2 hpos.ne').1 le_rfl).trans hquotient
      have := (Nat.pow_le_pow_iff_right Nat.one_lt_two).1 hlo
      omega
  have hhigh : target (x / mantissaOf b) e ≤ -52 := by
    unfold target
    omega
  unfold scale oneBits
  rcases hhigh.lt_or_eq with h | h
  · omega
  · -- the exponent of one: the mantissa is no more than that of one
    have hone : (cut (x / mantissaOf b) e (accuracyOfFraction (x % mantissaOf b) (mantissaOf b))).roundedMantissa ≤
        2 ^ 52 := by
      refine hrepresents.rounded_le (Nat.mul_pos (Nat.two_pow_pos _) hn) (hx.trans ?_)
      rw [h, ← Nat.mul_assoc, ← pow_add, show 52 + (-52 - e).toNat = (-e).toNat by omega]
    rw [h]
    omega

end Binary64

namespace Time

/-- a share of one count in another is between zero and one -/
theorem share_within_unit {m n : Nat} (hm : 0 < m) (hle : m ≤ n) (hlt : n < 2 ^ 64) :
    0 ≤ m.toFloat / n.toFloat ∧ m.toFloat / n.toFloat ≤ 1 := by
  have hn : 0 < n := hm.trans_le hle
  have hmono := bits_toFloat_mono hm hle
  have hfinite := bits_toFloat_lt hn hlt
  have hpos := (bits_toFloat_pos hm).1
  have hbits : bits (m.toFloat / n.toFloat) = (UnpackedFloat.pack Format.binary64 (UnpackedFloat.div Format.binary64
      m.toFloat.toModel.unpack n.toFloat.toModel.unpack)).toNat := rfl
  rw [unpack_eq hpos (hmono.trans_lt hfinite), unpack_eq (hpos.trans_le hmono) hfinite] at hbits
  have hone : bits (m.toFloat / n.toFloat) ≤ oneBits := hbits ▸ toNat_pack_div_le_one hpos hmono
  have hclock : OnClock (m.toFloat / n.toFloat) := hone.trans (by decide)
  have hclock' : OnClock 1 := (by decide : oneBits ≤ infinityBits)
  refine ⟨zero_le hclock, ?_⟩
  rw [← rank_le_iff hclock hclock', rank_eq_bits hclock, rank_eq_bits hclock', Int.ofNat_le]
  exact hone

/-- none of anything is nothing -/
theorem zero_share {n : Nat} (hn : 0 < n) : (0 : Nat).toFloat / n.toFloat = 0 := by
  obtain ⟨hpos, hle⟩ := bits_toFloat_pos hn
  refine eq_of_bits ?_
  have hbits : bits ((0 : Nat).toFloat / n.toFloat) = (UnpackedFloat.pack Format.binary64
      (UnpackedFloat.div Format.binary64 (.zero .positive) n.toFloat.toModel.unpack)).toNat := rfl
  rw [hbits]
  rcases hle.lt_or_eq with hi | hi
  · rw [unpack_eq hpos hi]
    rfl
  · rw [show n.toFloat.toModel.unpack = .infinity .positive from unpack_infinity hi]
    rfl

end Time

end BrokerSim
