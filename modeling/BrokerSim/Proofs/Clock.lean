/-
Floats as times. A clock that starts at zero and is moved on by accepted delays shows zero, a positive number or, once
a sum overflows, infinity (`Time.OnClock`, kept by `Time.onClock_add`); it never shows a negative number, `-0.0` or
NaN. On such times the order that the agenda uses, `Time.rank`, is the numeric order of floats (`Time.rank_lt_iff`,
`Time.rank_le_iff`, `Time.rank_eq_iff`), and a delay after time zero compares as the delay does
(`Time.zero_add_le_zero_add_iff`, `Time.not_lt_zero_add_iff`).

Everything is proved of the logical model of floats: a float is 64 bits, unpacked to a sign, a mantissa and an
exponent for every operation and packed again after it.
-/
import Mathlib
import BrokerSim.Agenda.Basic

namespace BrokerSim

open Float.Model
open UnpackedFloat (Sign packComponents unpackMantissa unpackExponent unpackSign)

namespace Binary64

/-! ## The fields of a float -/

/-- the bits of infinity: positive floats with greater bits are no numbers -/
def infinityBits : Nat := 2047 * 2 ^ 52

theorem toNat_unpackMantissa (b : BitVec 64) :
    (@unpackMantissa Format.binary64 b).toNat = b.toNat % 2 ^ 52 := by
  simp [unpackMantissa]

theorem toNat_unpackExponent (b : BitVec 64) :
    (@unpackExponent Format.binary64 b).toNat = b.toNat / 2 ^ 52 % 2 ^ 11 := by
  simp [unpackExponent, Nat.shiftRight_eq_div_pow]

theorem ofBitVec_unpackSign (b : BitVec 64) :
    Sign.ofBitVec (@unpackSign Format.binary64 b) = if b.toNat < 2 ^ 63 then .positive else .negative := by
  have hb := b.isLt
  have h : (@unpackSign Format.binary64 b).toNat = b.toNat / 2 ^ 63 := by
    simp [unpackSign, Nat.shiftRight_eq_div_pow]
    omega
  simp only [Sign.ofBitVec, ← BitVec.toNat_inj, h, BitVec.toNat_ofNat]
  split_ifs <;> first | rfl | omega

theorem toNat_packComponents_positive (e : BitVec 11) (m : BitVec 52) :
    (packComponents Format.binary64 .positive e m).toNat = e.toNat * 2 ^ 52 + m.toNat := by
  simp only [packComponents, Sign.toBitVec, BitVec.toNat_append]
  rw [← Nat.shiftLeft_add_eq_or_of_lt m.isLt]
  simp [Nat.shiftLeft_eq]

/-! ## Unpacking -/

/-- an unpacked float without a minus sign that is a number or infinity -/
def IsUpward : UnpackedFloat → Prop
  | .infinity s => s = .positive
  | .notANumber => False
  | .zero s => s = .positive
  | .finite s _ _ _ => s = .positive

/-- exponent of the finite float with bits `n` -/
def exponentOf (n : Nat) : Int := max ((n / 2 ^ 52 : Nat) : Int) 1 - 1075

/-- mantissa of the finite float with bits `n` -/
def mantissaOf (n : Nat) : Nat := if n < 2 ^ 52 then n else 2 ^ 52 + n % 2 ^ 52

theorem mantissaOf_pos {n : Nat} (h : 0 < n) : 0 < mantissaOf n := by
  unfold mantissaOf
  split_ifs <;> omega

theorem unpack_zero {b : BitVec 64} (h : b.toNat = 0) :
    UnpackedFloat.unpack Format.binary64 b = .zero .positive := by
  obtain rfl : b = 0#64 := BitVec.eq_of_toNat_eq h
  rfl

theorem unpack_infinity {b : BitVec 64} (h : b.toNat = infinityBits) :
    UnpackedFloat.unpack Format.binary64 b = .infinity .positive := by
  obtain rfl : b = 0x7ff0000000000000#64 := BitVec.eq_of_toNat_eq h
  rfl

theorem unpack_finite {b : BitVec 64} (h0 : 0 < b.toNat) (h : b.toNat < infinityBits) :
    UnpackedFloat.unpack Format.binary64 b =
      .finite .positive (mantissaOf b.toNat) (exponentOf b.toNat) (mantissaOf_pos h0) := by
  unfold infinityBits at h
  have hs : Sign.ofBitVec (@unpackSign Format.binary64 b) = .positive := by
    rw [ofBitVec_unpackSign, if_pos (by omega)]
  have he := toNat_unpackExponent b
  have hm := toNat_unpackMantissa b
  rw [Nat.mod_eq_of_lt (by omega : b.toNat / 2 ^ 52 < 2 ^ 11)] at he
  have hi : @unpackExponent Format.binary64 b ≠ -1#_ := by
    rw [Ne, ← BitVec.toNat_inj, he]
    simp only [BitVec.neg_one_eq_allOnes, BitVec.toNat_allOnes]
    omega
  have bias : (Format.binary64.exponentBias : Int) = 1023 := by decide
  simp only [UnpackedFloat.unpack, if_neg hi, hs]
  split_ifs with hz hz'
  · rw [← BitVec.toNat_inj, he] at hz
    rw [← BitVec.toNat_inj, hm] at hz'
    simp only [BitVec.toNat_ofNat] at hz hz'
    omega
  · -- no implicit bit: the mantissa is all there is
    rw [← BitVec.toNat_inj, he] at hz
    simp only [BitVec.toNat_ofNat] at hz
    congr 1
    · simp only [hm, mantissaOf]
      rw [if_pos (by omega), Nat.mod_eq_of_lt (by omega)]
    · simp only [he, exponentOf, bias]
      omega
  · rw [← BitVec.toNat_inj, he] at hz
    simp only [BitVec.toNat_ofNat] at hz
    congr 1
    · simp only [mantissaOf]
      rw [if_neg (by omega), BitVec.toNat_append, ← Nat.shiftLeft_add_eq_or_of_lt (BitVec.isLt _), hm]
      simp [Nat.shiftLeft_eq]
    · simp only [he, exponentOf, bias]
      omega

theorem isUpward_unpack {b : BitVec 64} (h : b.toNat ≤ infinityBits) :
    IsUpward (UnpackedFloat.unpack Format.binary64 b) := by
  rcases Nat.eq_zero_or_pos b.toNat with h0 | h0
  · rw [unpack_zero h0]; rfl
  · rcases h.eq_or_lt with h | h
    · rw [unpack_infinity h]; rfl
    · rw [unpack_finite h0 h]; rfl

theorem toNat_le_of_isUpward {b : BitVec 64} (h : IsUpward (UnpackedFloat.unpack Format.binary64 b)) :
    b.toNat ≤ infinityBits := by
  have hs := ofBitVec_unpackSign b
  unfold infinityBits
  by_contra hn
  simp only [UnpackedFloat.unpack] at h
  by_cases hb : b.toNat < 2 ^ 63
  · -- all exponent bits are set and the mantissa is not zero
    have he : @unpackExponent Format.binary64 b = -1#_ := by
      rw [← BitVec.toNat_inj, toNat_unpackExponent]
      simp only [BitVec.neg_one_eq_allOnes, BitVec.toNat_allOnes]
      omega
    have hm : @unpackMantissa Format.binary64 b ≠ 0#_ := by
      rw [Ne, ← BitVec.toNat_inj, toNat_unpackMantissa]
      simp only [BitVec.toNat_ofNat]
      omega
    rw [if_pos he, if_neg hm] at h
    exact h
  · rw [if_neg hb] at hs
    rw [hs] at h
    split_ifs at h <;> cases h

/-! ## Packing -/

theorem toNat_pack_le {u : UnpackedFloat} (h : IsUpward u) :
    (UnpackedFloat.pack Format.binary64 u).toNat ≤ infinityBits := by
  have mantissa (m : Nat) := Nat.mod_lt m (show 0 < 2 ^ 52 by decide)
  fun_cases UnpackedFloat.pack Format.binary64 u with
  | case1 => exact h.elim
  | case2 s =>
    cases h
    rw [UnpackedFloat.packedInfinity, toNat_packComponents_positive]
    decide
  | case3 s =>
    cases h
    rw [UnpackedFloat.packedZero, toNat_packComponents_positive]
    decide
  | case4 s m e hm b hb =>
    cases h
    rw [UnpackedFloat.packedInfinity, toNat_packComponents_positive]
    decide
  | case5 s m e hm a b hb ha =>
    cases h
    rw [toNat_packComponents_positive, infinityBits, BitVec.toNat_ofNat, BitVec.toNat_ofNat]
    have := mantissa m
    have : b % 2 ^ 11 ≤ 2046 := by
      change ¬ 2 ^ 11 ≤ b + 1 at hb
      omega
    omega
  | case6 s m e hm a b hb ha =>
    cases h
    rw [toNat_packComponents_positive, infinityBits, BitVec.toNat_ofNat]
    have := mantissa m
    simp only [BitVec.toNat_ofNat, Nat.zero_mod]
    omega

theorem toNat_pack_finite {n : Nat} (h0 : 0 < n) (h : n < infinityBits) :
    (UnpackedFloat.pack Format.binary64
      (.finite .positive (mantissaOf n) (exponentOf n) (mantissaOf_pos h0))).toNat = n := by
  unfold infinityBits at h
  have hb : (exponentOf n + (Format.binary64.exponentBias : Int) + (52 : Nat)).toNat = max (n / 2 ^ 52) 1 := by
    have bias : (Format.binary64.exponentBias : Int) = 1023 := by decide
    rw [bias, exponentOf]
    omega
  simp only [UnpackedFloat.pack]
  rw [hb, if_neg (show ¬ 2 ^ 11 ≤ _ by omega)]
  split_ifs with hl
  · have hn : ¬ n < 2 ^ 52 := by
      intro hn
      rw [mantissaOf, if_pos hn] at hl
      have := (Nat.log2_lt h0.ne').2 hn
      change _ = 53 at hl
      omega
    rw [toNat_packComponents_positive, mantissaOf, if_neg hn, BitVec.toNat_ofNat, BitVec.toNat_ofNat]
    omega
  · have hn : n < 2 ^ 52 := by
      by_contra hn
      apply hl
      have hm : 2 ^ 52 + n % 2 ^ 52 ≠ 0 := by omega
      have h1 := (Nat.le_log2 hm (k := 52)).2 (by omega)
      have h2 := (Nat.log2_lt hm (k := 53)).2 (by omega)
      rw [mantissaOf, if_neg hn]
      change _ = 53
      omega
    rw [toNat_packComponents_positive, mantissaOf, if_pos hn, BitVec.toNat_ofNat, BitVec.toNat_ofNat]
    omega

/-- packing undoes unpacking -/
theorem pack_unpack {b : BitVec 64} (h : b.toNat ≤ infinityBits) :
    UnpackedFloat.pack Format.binary64 (UnpackedFloat.unpack Format.binary64 b) = b := by
  apply BitVec.eq_of_toNat_eq
  rcases Nat.eq_zero_or_pos b.toNat with h0 | h0
  · rw [unpack_zero h0, h0]; rfl
  · rcases h.eq_or_lt with h | h
    · rw [unpack_infinity h, h]; rfl
    · rw [unpack_finite h0 h, toNat_pack_finite h0 h]

/-! ## Comparing -/

theorem compare_finite {m n : Nat} :
    (compare (exponentOf m) (exponentOf n)).then (compare (mantissaOf m) (mantissaOf n)) = compare m n := by
  rcases lt_trichotomy m n with h | h | h
  · rw [compare_lt_iff_lt.2 h, Ordering.then_eq_lt, compare_lt_iff_lt, compare_eq_iff_eq, compare_lt_iff_lt]
    unfold exponentOf mantissaOf
    split_ifs <;> omega
  · subst h
    simp
  · rw [compare_gt_iff_gt.2 h, Ordering.then_eq_gt, compare_gt_iff_gt, compare_eq_iff_eq, compare_gt_iff_gt]
    unfold exponentOf mantissaOf
    split_ifs <;> omega

/-- upward floats compare as their bits do -/
theorem compare_unpack {x y : BitVec 64} (hx : x.toNat ≤ infinityBits) (hy : y.toNat ≤ infinityBits) :
    (UnpackedFloat.unpack Format.binary64 x).compare (UnpackedFloat.unpack Format.binary64 y) =
      some (compare x.toNat y.toNat) := by
  have hp : 0 < infinityBits := by decide
  rcases Nat.eq_zero_or_pos x.toNat with x0 | x0 <;> rcases Nat.eq_zero_or_pos y.toNat with y0 | y0
  · rw [unpack_zero x0, unpack_zero y0, x0, y0]; rfl
  · rw [unpack_zero x0, compare_lt_iff_lt.2 (by omega)]
    rcases hy.eq_or_lt with hy | hy
    · rw [unpack_infinity hy]; rfl
    · rw [unpack_finite y0 hy]; rfl
  · rw [unpack_zero y0, compare_gt_iff_gt.2 (by omega)]
    rcases hx.eq_or_lt with hx | hx
    · rw [unpack_infinity hx]; rfl
    · rw [unpack_finite x0 hx]; rfl
  · rcases hx.eq_or_lt with hx | hx <;> rcases hy.eq_or_lt with hy | hy
    · rw [unpack_infinity hx, unpack_infinity hy, hx, hy]; rfl
    · rw [unpack_infinity hx, unpack_finite y0 hy, compare_gt_iff_gt.2 (by omega)]; rfl
    · rw [unpack_infinity hy, unpack_finite x0 hx, compare_lt_iff_lt.2 (by omega)]; rfl
    · rw [unpack_finite x0 hx, unpack_finite y0 hy, ← compare_finite]; rfl

theorem compare_zero_congr (s t : Sign) (u : UnpackedFloat) :
    UnpackedFloat.compare (.zero s) u = UnpackedFloat.compare (.zero t) u ∧
      u.compare (.zero s) = u.compare (.zero t) := by
  cases u with
  | infinity r => cases r <;> exact ⟨rfl, rfl⟩
  | finite r m e hm => cases r <;> exact ⟨rfl, rfl⟩
  | _ => exact ⟨rfl, rfl⟩

theorem compare_swap (u v : UnpackedFloat) : v.compare u = (u.compare v).map Ordering.swap := by
  have lex (e f : Int) (m n : Nat) :
      (compare f e).then (compare n m) = ((compare e f).then (compare m n)).swap := by
    rw [Ordering.swap_then, Int.compare_swap, Nat.compare_swap]
  rcases u with (_ | _) | _ | (_ | _) | ⟨_ | _, m, e, hm⟩ <;>
    rcases v with (_ | _) | _ | (_ | _) | ⟨_ | _, n, f, hn⟩ <;> try rfl
  · exact congrArg some (congrArg Ordering.swap (lex e f m n))
  · exact congrArg some (lex e f m n)

theorem isNaN_of_compare_eq_none {u v : UnpackedFloat} (h : u.compare v = none) :
    u.isNaN = true ∨ v.isNaN = true := by
  rcases u with (_ | _) | _ | (_ | _) | ⟨_ | _, m, e, hm⟩ <;>
    rcases v with (_ | _) | _ | (_ | _) | ⟨_ | _, n, f, hn⟩ <;>
    first | exact Or.inl rfl | exact Or.inr rfl | cases h

/-- exponents first, then mantissas -/
theorem isLE_then {e f : Int} {m n : Nat} :
    ((compare e f).then (compare m n)).isLE = true ↔ e < f ∨ e = f ∧ m ≤ n := by
  rcases lt_trichotomy e f with h | h | h
  · simp [compare_lt_iff_lt.2 h, h]
  · simp [h, Nat.isLE_compare]
  · simp [compare_gt_iff_gt.2 h, h.not_gt, h.ne']

theorem le_trans_unpacked {u v w : UnpackedFloat} (h : u.le v = true) (k : v.le w = true) : u.le w = true := by
  have isLE_swap {e f : Int} {m n : Nat} :
      ((compare e f).then (compare m n)).swap.isLE = true ↔ f < e ∨ f = e ∧ n ≤ m := by
    rw [Ordering.swap_then, Int.compare_swap, Nat.compare_swap, isLE_then]
  rcases u with (_ | _) | _ | (_ | _) | ⟨_ | _, m, e, hm⟩ <;>
    rcases v with (_ | _) | _ | (_ | _) | ⟨_ | _, n, f, hn⟩ <;> try cases h
  -- what is left after kinds and signs: three negative numbers, or three positive ones
  all_goals
    rcases w with (_ | _) | _ | (_ | _) | ⟨_ | _, l, g, hl⟩ <;> first | rfl | cases k | skip
  · have h := isLE_swap.1 h
    have k := isLE_swap.1 k
    exact isLE_swap.2 (by omega)
  · have h := isLE_then.1 h
    have k := isLE_then.1 k
    exact isLE_then.2 (by omega)

/-! ## Adding -/

/-- an unpacked delay that is accepted: a zero of either sign or a positive number -/
def IsDelay : UnpackedFloat → Prop
  | .zero _ => True
  | .finite s _ _ _ => s = .positive
  | _ => False

theorem isUpward_round (m : Nat) (e : Int) : IsUpward (UnpackedFloat.round Format.binary64 .positive m e) := by
  simp only [UnpackedFloat.round, UnpackedFloat.roundWithAccuracy]
  split_ifs <;> rfl

theorem isUpward_normalize {m : Int} (h : 0 ≤ m) (e : Int) :
    IsUpward (UnpackedFloat.normalize Format.binary64 m e .positive) := by
  unfold UnpackedFloat.normalize
  split
  · rename_i hc
    rw [compare_lt_iff_lt] at hc
    omega
  · rfl
  · exact isUpward_round _ _

theorem isUpward_add {a d : UnpackedFloat} (ha : IsUpward a) (hd : IsDelay d) :
    IsUpward (UnpackedFloat.add Format.binary64 a d) := by
  cases a with
  | notANumber => exact ha.elim
  | infinity s =>
    cases ha
    cases d <;> first | rfl | exact hd.elim
  | zero s =>
    cases ha
    cases d with
    | zero t => cases t <;> rfl
    | finite t m e hm => exact hd
    | infinity t => exact hd.elim
    | notANumber => exact hd.elim
  | finite s m e hm =>
    cases ha
    cases d with
    | zero t => rfl
    | finite t n f hn =>
      cases hd
      exact isUpward_normalize (add_nonneg (Int.natCast_nonneg _) (Int.natCast_nonneg _)) _
    | infinity t => exact hd.elim
    | notANumber => exact hd.elim

end Binary64

open Binary64

namespace Time

/-! ## Times on the clock -/

/-- the bits of a time, as a number -/
abbrev bits (t : Time) : Nat := t.toBits.toNat

/-- times that a clock can show: zero, a positive number or infinity -/
def OnClock (t : Time) : Prop := t.bits ≤ infinityBits

theorem lt_iff_unpack {a b : Time} : a < b ↔ a.toModel.unpack.lt b.toModel.unpack = true := decide_eq_true_iff

theorem le_iff_unpack {a b : Time} : a ≤ b ↔ a.toModel.unpack.le b.toModel.unpack = true := decide_eq_true_iff

theorem isDelay_of_accepts {d : Float} (h : Agenda.accepts d = true) : IsDelay d.toModel.unpack := by
  unfold Agenda.accepts at h
  rw [Bool.and_eq_true, Bool.not_eq_true', decide_eq_false_iff_not, lt_iff_unpack] at h
  obtain ⟨hf, hn⟩ := h
  change d.toModel.unpack.isFinite = true at hf
  cases hu : d.toModel.unpack with
  | notANumber => rw [hu] at hf; cases hf
  | infinity s => rw [hu] at hf; cases hf
  | zero s => trivial
  | finite s m e hm =>
    cases s
    · rw [hu] at hn; exact absurd rfl hn
    · rfl

theorem onClock_zero : OnClock 0 := Nat.zero_le _

/-- **An accepted delay keeps the clock a clock.** -/
theorem onClock_add {t : Time} {d : Float} (ht : t.OnClock) (hd : Agenda.accepts d = true) : (t + d).OnClock :=
  toNat_pack_le (isUpward_add (isUpward_unpack ht) (isDelay_of_accepts hd))

theorem rank_eq_bits {t : Time} (h : t.OnClock) : t.rank = t.bits := by
  unfold OnClock infinityBits at h
  simp only [rank]
  rw [if_pos]
  change t.bits < 2 ^ 63
  omega

theorem compare_eq {a b : Time} (ha : a.OnClock) (hb : b.OnClock) :
    a.toModel.unpack.compare b.toModel.unpack = some (compare a.rank b.rank) := by
  have h : compare a.rank b.rank = compare a.bits b.bits := by
    rw [rank_eq_bits ha, rank_eq_bits hb]
    rcases lt_trichotomy a.bits b.bits with h | h | h
    · rw [compare_lt_iff_lt.2 h, compare_lt_iff_lt.2 (by omega)]
    · rw [h, compare_eq_iff_eq.2 rfl, compare_eq_iff_eq.2 rfl]
    · rw [compare_gt_iff_gt.2 h, compare_gt_iff_gt.2 (by omega)]
  rw [h]
  exact compare_unpack ha hb

/-- on the clock, the total order of floats is their numeric order -/
theorem rank_lt_iff {a b : Time} (ha : a.OnClock) (hb : b.OnClock) : a.rank < b.rank ↔ a < b := by
  rw [lt_iff_unpack, UnpackedFloat.lt, compare_eq ha hb, beq_iff_eq, Option.some_inj, compare_lt_iff_lt]

theorem rank_le_iff {a b : Time} (ha : a.OnClock) (hb : b.OnClock) : a.rank ≤ b.rank ↔ a ≤ b := by
  rw [le_iff_unpack, UnpackedFloat.le, compare_eq ha hb, Option.any_some, Int.isLE_compare]

theorem rank_eq_iff {a b : Time} (ha : a.OnClock) (hb : b.OnClock) : a.rank = b.rank ↔ (a == b) = true := by
  change _ ↔ a.toModel.unpack.beq b.toModel.unpack = true
  rw [UnpackedFloat.beq, compare_eq ha hb, beq_iff_eq, Option.some_inj, compare_eq_iff_eq]

theorem eq_of_bits {a b : Time} (h : a.bits = b.bits) : a = b := by
  obtain ⟨⟨x, hx⟩⟩ := a
  obtain ⟨⟨y, hy⟩⟩ := b
  obtain rfl : x = y := UInt64.toNat_inj.1 h
  rfl

theorem le_refl {a : Time} (ha : a.OnClock) : a ≤ a := (rank_le_iff ha ha).1 le_rfl

theorem zero_le {a : Time} (ha : a.OnClock) : 0 ≤ a := by
  rw [← rank_le_iff onClock_zero ha, rank_eq_bits onClock_zero, rank_eq_bits ha]
  exact Int.ofNat_le.2 (Nat.zero_le _)

/-- on the clock, times that are equal are the same float -/
theorem le_antisymm {a b : Time} (ha : a.OnClock) (hb : b.OnClock) (h : a ≤ b) (k : b ≤ a) : a = b := by
  have h := (rank_le_iff ha hb).2 h
  have k := (rank_le_iff hb ha).2 k
  rw [rank_eq_bits ha, rank_eq_bits hb] at h k
  exact eq_of_bits (by omega)

/-! ## Delays -/

/-- floats that are numbers or infinite stand on one line -/
theorem not_lt_iff_le {u v : Float} (hu : u.isNaN = false) (hv : v.isNaN = false) : ¬ u < v ↔ v ≤ u := by
  rw [lt_iff_unpack, le_iff_unpack, UnpackedFloat.lt, UnpackedFloat.le,
    compare_swap u.toModel.unpack v.toModel.unpack]
  cases hc : u.toModel.unpack.compare v.toModel.unpack with
  | none =>
    rcases isNaN_of_compare_eq_none hc with h | h
    · exact absurd (h.symm.trans hu) (by decide)
    · exact absurd (h.symm.trans hv) (by decide)
  | some o => cases o <;> decide

theorem isNaN_of_accepts {d : Float} (h : Agenda.accepts d = true) : d.isNaN = false := by
  have hd := isDelay_of_accepts h
  change d.toModel.unpack.isNaN = false
  cases hu : d.toModel.unpack with
  | notANumber => rw [hu] at hd; exact hd.elim
  | _ => rfl

/-- what is accepted: every float but the negative ones, NaN and the infinite ones -/
theorem accepts_eq (d : Float) : Agenda.accepts d = !(d.isNaN || d.isInf || decide (d < 0)) := by
  have h : d.isFinite = !(d.isNaN || d.isInf) := by
    change d.toModel.unpack.isFinite = !(d.toModel.unpack.isNaN || d.toModel.unpack.isInf)
    cases d.toModel.unpack <;> rfl
  rw [Agenda.accepts, h, Bool.not_or (_ || _)]

/-- a delay that is finite and not negative is accepted -/
theorem accepts_of_le {d : Float} (hf : d.isFinite = true) (h : 0 ≤ d) : Agenda.accepts d = true := by
  have hd : d.isNaN = false := by
    change d.toModel.unpack.isFinite = true at hf
    change d.toModel.unpack.isNaN = false
    cases hu : d.toModel.unpack with
    | notANumber => rw [hu] at hf; cases hf
    | _ => rfl
  have hlt := (not_lt_iff_le hd rfl).2 h
  rw [Agenda.accepts, hf]
  simpa using hlt

theorem le_trans {a b c : Time} (h : a ≤ b) (k : b ≤ c) : a ≤ c := by
  rw [le_iff_unpack] at h k ⊢
  exact le_trans_unpacked h k

theorem le_of_lt {a b : Time} (h : a < b) : a ≤ b := by
  rw [lt_iff_unpack, UnpackedFloat.lt, beq_iff_eq] at h
  rw [le_iff_unpack, UnpackedFloat.le, h]
  rfl

/-- floats that compare are numbers or infinite -/
theorem isNaN_of_le {a b : Time} (h : a ≤ b) : a.isNaN = false ∧ b.isNaN = false := by
  rw [le_iff_unpack, UnpackedFloat.le] at h
  change a.toModel.unpack.isNaN = false ∧ b.toModel.unpack.isNaN = false
  generalize a.toModel.unpack = u at h ⊢
  generalize b.toModel.unpack = v at h ⊢
  rcases u with (_ | _) | _ | (_ | _) | ⟨_ | _, m, e, hm⟩ <;>
    rcases v with (_ | _) | _ | (_ | _) | ⟨_ | _, n, f, hn⟩ <;>
    first | exact ⟨rfl, rfl⟩ | cases h

theorem lt_of_lt_of_le {a b c : Time} (h : a < b) (k : b ≤ c) : a < c := by
  obtain ⟨ha, hb⟩ := isNaN_of_le (le_of_lt h)
  by_contra hn
  have hc := (not_lt_iff_le ha (isNaN_of_le k).2).1 hn
  exact (not_lt_iff_le ha hb).2 (le_trans k hc) h

theorem lt_of_le_of_lt {a b c : Time} (h : a ≤ b) (k : b < c) : a < c := by
  obtain ⟨hb, hc⟩ := isNaN_of_le (le_of_lt k)
  by_contra hn
  have ha := (not_lt_iff_le (isNaN_of_le h).1 hc).1 hn
  exact (not_lt_iff_le hb hc).2 (le_trans ha h) k

/-- the floats between zero and one -/
theorem within_unit_iff (r : Float) : (0 ≤ r ∧ r ≤ 1) ↔ ¬ (r < 0 ∨ 1 < r ∨ r.isNaN = true) := by
  cases hr : r.isNaN with
  | true =>
    refine iff_of_false ?_ (by simp)
    rintro ⟨h, -⟩
    exact Bool.false_ne_true ((isNaN_of_le h).2.symm.trans hr)
  | false =>
    rw [← not_lt_iff_le (u := r) (v := 0) hr rfl, ← not_lt_iff_le (u := 1) (v := r) rfl hr]
    simp [not_or]

/-- a positive float is finite or infinite -/
theorem isFinite_of_pos {d : Float} (h : 0 < d) : d.isFinite = !d.isInf := by
  have hn : d.isNaN = false := (isNaN_of_le (le_of_lt h)).2
  change d.toModel.unpack.isFinite = !d.toModel.unpack.isInf
  change d.toModel.unpack.isNaN = false at hn
  cases hu : d.toModel.unpack with
  | notANumber => rw [hu] at hn; cases hn
  | _ => rfl

/-- a delay after time zero unpacks as the delay does, up to the sign of a zero -/
theorem unpack_zero_add {d : Float} (h : Agenda.accepts d = true) :
    ((0 : Time) + d).toModel.unpack = d.toModel.unpack ∨
      ∃ s, d.toModel.unpack = .zero s ∧ ((0 : Time) + d).toModel.unpack = .zero .positive := by
  have hd := isDelay_of_accepts h
  have sum : ((0 : Time) + d).toModel.unpack = UnpackedFloat.unpack Format.binary64
      (UnpackedFloat.pack Format.binary64 (UnpackedFloat.add Format.binary64 (.zero .positive) d.toModel.unpack)) := rfl
  cases hu : d.toModel.unpack with
  | notANumber => rw [hu] at hd; exact hd.elim
  | infinity s => rw [hu] at hd; exact hd.elim
  | zero s =>
    refine Or.inr ⟨s, rfl, ?_⟩
    rw [sum, hu]
    cases s <;> rfl
  | finite s m e hm =>
    rw [hu] at hd
    cases hd
    have hb : OnClock d := toNat_le_of_isUpward (b := d.toModel.toBits.toBitVec) (by
      change IsUpward d.toModel.unpack
      rw [hu]; rfl)
    left
    rw [sum, ← hu, show UnpackedFloat.add Format.binary64 (.zero .positive) d.toModel.unpack = d.toModel.unpack by
      rw [hu]; rfl]
    exact congrArg _ (pack_unpack hb)

/-- a delay after time zero is the delay, but for the sign of a zero -/
theorem zero_add_eq {d : Float} (h : Agenda.accepts d = true) : (0 : Time) + d = d ∨ (0 : Time) + d = 0 := by
  have hsum : OnClock (0 + d) := onClock_add onClock_zero h
  have zero : (0 : Float).toModel.unpack = .zero .positive := rfl
  have same : ∀ {u v : Time}, u.OnClock → v.OnClock → u.toModel.unpack = v.toModel.unpack → u = v := by
    intro u v hu hv huv
    refine eq_of_bits ?_
    have hbits : u.toModel.toBits.toBitVec = v.toModel.toBits.toBitVec :=
      (pack_unpack hu).symm.trans ((congrArg _ huv).trans (pack_unpack hv))
    exact congrArg BitVec.toNat hbits
  have hd := isDelay_of_accepts h
  rcases unpack_zero_add h with heq | ⟨s, -, heq⟩
  · cases hu : d.toModel.unpack with
    | finite s m e hm =>
      rw [hu] at hd
      cases hd
      have hclock : OnClock d := toNat_le_of_isUpward (b := d.toModel.toBits.toBitVec) (by
        change IsUpward d.toModel.unpack
        rw [hu]; rfl)
      exact .inl (same hsum hclock heq)
    | zero s =>
      cases s with
      | positive => exact .inr (same hsum onClock_zero (heq.trans (hu.trans zero.symm)))
      | negative =>
        have hupward := isUpward_unpack hsum
        change IsUpward ((0 : Time) + d).toModel.unpack at hupward
        rw [heq, hu] at hupward
        cases hupward
    | _ => rw [hu] at hd; exact hd.elim
  · exact .inr (same hsum onClock_zero (heq.trans zero.symm))

/-- a delay after time zero compares as the delay does -/
theorem compare_zero_add {d : Float} (h : Agenda.accepts d = true) (u : UnpackedFloat) :
    ((0 : Time) + d).toModel.unpack.compare u = d.toModel.unpack.compare u ∧
      u.compare ((0 : Time) + d).toModel.unpack = u.compare d.toModel.unpack := by
  rcases unpack_zero_add h with h | ⟨s, hd, h⟩
  · rw [h]; exact ⟨rfl, rfl⟩
  · rw [h, hd]; exact compare_zero_congr _ _ _

theorem zero_add_le_iff {u d : Float} (hd : Agenda.accepts d = true) : (0 : Time) + d ≤ u ↔ d ≤ u := by
  rw [le_iff_unpack, le_iff_unpack, UnpackedFloat.le, UnpackedFloat.le, (compare_zero_add hd _).1]

theorem zero_add_le_zero_add_iff {c d : Float} (hc : Agenda.accepts c = true) (hd : Agenda.accepts d = true) :
    (0 : Time) + c ≤ 0 + d ↔ c ≤ d := by
  rw [le_iff_unpack, le_iff_unpack, UnpackedFloat.le, UnpackedFloat.le, (compare_zero_add hc _).1,
    (compare_zero_add hd _).2]

theorem not_lt_zero_add_iff {u d : Float} (hu : u.isNaN = false) (hd : Agenda.accepts d = true) :
    ¬ u < (0 : Time) + d ↔ d ≤ u := by
  rw [← not_lt_iff_le hu (isNaN_of_accepts hd), lt_iff_unpack, lt_iff_unpack, UnpackedFloat.lt, UnpackedFloat.lt,
    (compare_zero_add hd _).2]

end Time

end BrokerSim
