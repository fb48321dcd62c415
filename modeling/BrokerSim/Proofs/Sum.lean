/-
Sums of times and delays. A sum of floats is rounded, and still never falls below the first of its summands if the
second is not negative: an accepted delay never turns the clock back (`Time.le_add`). Whether it moves the clock is
another question: it does if floats lie close enough to each other at that time (`Time.lt_add`), and a zero of either
sign never does (`Time.add_zero_eq`).

The bits of a positive float grow with its exponent and then with its mantissa (`scale`), and rounding keeps both at
least as great as those of either summand (`round_bounds`).
-/
import BrokerSim.Proofs.Clock

namespace BrokerSim

open Float.Model
open UnpackedFloat (Accuracy ExtendedMantissa decreaseExponent shiftToExponent shiftToTargetExponent)

namespace Binary64

/-! ## Positive floats by their size -/

/-- a mantissa and an exponent as 64 bits keep them, infinite ones included -/
structure IsCanonical (m : Nat) (e : Int) : Prop where
  mantissa : m < 2 ^ 53
  exponent : -1074 ≤ e
  leading : 2 ^ 52 ≤ m ∨ e = -1074

/-- place of a positive float among all of them -/
def scale (m : Nat) (e : Int) : Nat := (e + 1074).toNat * 2 ^ 52 + m

theorem isCanonical_of_bits (n : Nat) : IsCanonical (mantissaOf n) (exponentOf n) := by
  unfold mantissaOf exponentOf
  refine ⟨?_, by omega, ?_⟩ <;> split_ifs <;> omega

theorem scale_of_bits (n : Nat) : scale (mantissaOf n) (exponentOf n) = n := by
  unfold scale mantissaOf exponentOf
  split_ifs <;> omega

theorem scale_mono {m n : Nat} {e f : Int} (hm : IsCanonical m e) (hn : IsCanonical n f)
    (h : e < f ∨ e = f ∧ m ≤ n) : scale m e ≤ scale n f := by
  obtain ⟨hm, he, -⟩ := hm
  obtain ⟨-, -, hf⟩ := hn
  unfold scale
  omega

theorem scale_strict {m n : Nat} {e f : Int} (hm : IsCanonical m e) (hn : IsCanonical n f)
    (h : e < f ∨ e = f ∧ m < n) : scale m e < scale n f := by
  obtain ⟨hm, he, -⟩ := hm
  obtain ⟨-, -, hf⟩ := hn
  unfold scale
  omega

/-- packing a positive float gives its place, unless that is beyond infinity -/
theorem toNat_pack_canonical {m : Nat} {e : Int} (hc : IsCanonical m e) (hm : 0 < m) :
    (UnpackedFloat.pack Format.binary64 (.finite .positive m e hm)).toNat = min (scale m e) infinityBits := by
  obtain ⟨hlt, he, hl⟩ := hc
  have bias : (Format.binary64.exponentBias : Int) = 1023 := by decide
  have hlog : m.log2 + 1 = Format.binary64.mantissaBits ↔ 2 ^ 52 ≤ m := by
    change m.log2 + 1 = 53 ↔ _
    rw [← Nat.le_log2 hm.ne', ← Nat.log2_lt hm.ne'] at *
    omega
  have hb : (e + (Format.binary64.exponentBias : Int) + (52 : Nat)).toNat = (e + 1075).toNat := by
    rw [bias]
    omega
  simp only [UnpackedFloat.pack, hb]
  unfold scale infinityBits
  split_ifs with hover hfull
  · rw [UnpackedFloat.packedInfinity, toNat_packComponents_positive]
    change 2 ^ 11 ≤ _ at hover
    change 2047 * 2 ^ 52 + 0 = _
    omega
  · rw [hlog] at hfull
    change ¬ 2 ^ 11 ≤ _ at hover
    rw [toNat_packComponents_positive, BitVec.toNat_ofNat, BitVec.toNat_ofNat]
    omega
  · rw [hlog] at hfull
    rw [toNat_packComponents_positive, BitVec.toNat_ofNat, BitVec.toNat_ofNat]
    omega

/-! ## Rounding -/

theorem mantissa_shiftRight (em : ExtendedMantissa) (n : Nat) : (em >>> n).mantissa = em.mantissa / 2 ^ n := by
  change (n.repeat ExtendedMantissa.shiftRightOne em).mantissa = _
  induction n with
  | zero => exact (Nat.div_one _).symm
  | succ n ih =>
    change (n.repeat ExtendedMantissa.shiftRightOne em).mantissa / 2 = _
    rw [ih, Nat.div_div_eq_div_mul, pow_succ]

theorem le_roundedMantissa (em : ExtendedMantissa) : em.mantissa ≤ em.roundedMantissa := by
  rcases em with ⟨m, _ | _, _ | _⟩
  · exact le_rfl
  · exact le_rfl
  · exact Nat.le_add_right _ _
  · exact Nat.le_succ _

/-- exponent to which a mantissa with this exponent is shifted -/
def target (m : Nat) (e : Int) : Int := max (m.log2 + 1 + e - 53) (-1074)

theorem targetExponent_eq (m : Nat) (e : Int) :
    Format.binary64.targetExponent (totalExponent m e) = target m e := by
  have h : Format.binary64.minExponent = -1074 := by decide
  rw [Format.targetExponent, h]
  rfl

theorem shiftToTargetExponent_eq (m : Nat) (e : Int) :
    (shiftToTargetExponent Format.binary64 m e .exact).1.mantissa = m / 2 ^ (target m e - e).toNat ∧
      (shiftToTargetExponent Format.binary64 m e .exact).2 = max e (target m e) := by
  unfold shiftToTargetExponent
  rw [targetExponent_eq]
  refine ⟨mantissa_shiftRight _ _, ?_⟩
  change e + ((target m e - e).toNat : Int) = _
  omega

/-- what is left after the shift; only if there was none, something has to be known of the mantissa before -/
theorem isCanonical_shift {m : Nat} (hm : 0 < m) {e : Int} (h : target m e < e → 2 ^ 52 ≤ m ∨ e = -1074) :
    IsCanonical (m / 2 ^ (target m e - e).toNat) (max e (target m e)) := by
  have hlo : 2 ^ m.log2 ≤ m := (Nat.le_log2 hm.ne').1 le_rfl
  have hhi : m < 2 ^ (m.log2 + 1) := (Nat.log2_lt hm.ne').1 (Nat.lt_succ_self _)
  refine ⟨?_, ?_, ?_⟩
  · rw [Nat.div_lt_iff_lt_mul (Nat.two_pow_pos _), ← pow_add]
    refine hhi.trans_le (Nat.pow_le_pow_right (by decide) ?_)
    unfold target
    omega
  · unfold target
    omega
  · by_cases ht : target m e < e
    · rw [show (target m e - e).toNat = 0 by omega, pow_zero, Nat.div_one, max_eq_left ht.le]
      exact h ht
    · by_cases hmin : target m e = -1074
      · right
        omega
      · left
        rw [Nat.le_div_iff_mul_le (Nat.two_pow_pos _), ← pow_add]
        refine le_trans (Nat.pow_le_pow_right (by decide) ?_) hlo
        unfold target at *
        omega

/-- a positive number cut down to its target, and rounded there -/
def rounded (m : Nat) (e : Int) : Nat := (shiftToTargetExponent Format.binary64 m e .exact).1.roundedMantissa

theorem le_rounded (m : Nat) (e : Int) : m / 2 ^ (target m e - e).toNat ≤ rounded m e :=
  (shiftToTargetExponent_eq m e).1 ▸ le_roundedMantissa _

/-- rounding: what is rounded at the target is shifted once more if that made it too long -/
theorem round_eq {m : Nat} {e : Int} (he : e ≤ target m e) (hm : 0 < m / 2 ^ (target m e - e).toNat) :
    ∃ hn, UnpackedFloat.round Format.binary64 .positive m e =
      .finite .positive (rounded m e / 2 ^ (target (rounded m e) (target m e) - target m e).toNat)
        (max (target m e) (target (rounded m e) (target m e))) hn := by
  have hexp := (shiftToTargetExponent_eq m e).2
  have hr := le_rounded m e
  rw [max_eq_right he] at hexp
  generalize ht : target m e = t at *
  obtain ⟨hsecond, hexp'⟩ := shiftToTargetExponent_eq (rounded m e) t
  have hn : 0 < rounded m e / 2 ^ (target (rounded m e) t - t).toNat := by
    refine Nat.div_pos ?_ (Nat.two_pow_pos _)
    refine le_trans (Nat.pow_le_pow_right (by decide) ?_) ((Nat.le_log2 (hm.trans_le hr).ne').1 le_rfl)
    have : -1074 ≤ t := ht ▸ le_max_right _ _
    unfold target
    omega
  refine ⟨hn, ?_⟩
  have hshift : decreaseExponent m e t = (m, e) := by
    rw [decreaseExponent, show (e - t).toNat = 0 by omega]
    simp
  have hround : UnpackedFloat.round Format.binary64 .positive m e =
      let second := shiftToTargetExponent Format.binary64 (rounded m e)
        (shiftToTargetExponent Format.binary64 m e .exact).2 .exact
      if h : second.1.mantissa = 0 then .zero .positive
      else .finite .positive second.1.mantissa second.2 (Nat.pos_of_ne_zero h) := by
    unfold UnpackedFloat.round
    rw [targetExponent_eq, ht]
    dsimp only
    rw [hshift]
    rfl
  rw [hround]
  simp only [hexp, hsecond, hexp', dif_neg hn.ne']

/-- **Rounding.** A positive number that is at least the unit of its target is rounded to a float whose exponent is no
    less than the target, and whose mantissa, with the target for its exponent, is no less than what was cut down. -/
theorem round_bounds {m : Nat} {e : Int} (he : e ≤ target m e) (hm : 0 < m / 2 ^ (target m e - e).toNat) :
    ∃ n f hn, UnpackedFloat.round Format.binary64 .positive m e = .finite .positive n f hn ∧ IsCanonical n f ∧
      (target m e < f ∨ target m e = f ∧ m / 2 ^ (target m e - e).toNat ≤ n) := by
  have hpos : 0 < m := Nat.pos_of_ne_zero fun h => by simp [h] at hm
  obtain ⟨hn, hround⟩ := round_eq he hm
  have hr := le_rounded m e
  generalize ht : target m e = t at *
  have hcut : IsCanonical (m / 2 ^ (t - e).toNat) t := by
    have h := isCanonical_shift hpos (e := e) (by omega)
    rwa [ht, max_eq_right he] at h
  have hcanonical := isCanonical_shift (hm.trans_le hr) (e := t) fun _ => hcut.leading.imp_left fun h => h.trans hr
  refine ⟨_, _, hn, hround, hcanonical, ?_⟩
  rcases lt_or_ge t (target (rounded m e) t) with h | h
  · left
    omega
  · right
    rw [show (target (rounded m e) t - t).toNat = 0 by omega, pow_zero, Nat.div_one]
    exact ⟨(max_eq_left h).symm, hr⟩

/-! ## Adding -/

theorem normalize_pos {m : Nat} (hm : 0 < m) (e : Int) (s : UnpackedFloat.Sign) :
    UnpackedFloat.normalize Format.binary64 m e s = UnpackedFloat.round Format.binary64 .positive m e := by
  unfold UnpackedFloat.normalize
  rw [compare_gt_iff_gt.2 (Int.natCast_pos.2 hm)]
  rfl

/-- how often the sum of two positive floats contains the unit that both are multiples of -/
def sumUnits (n m : Nat) (e : Int) : Nat :=
  mantissaOf n <<< (exponentOf n - min (exponentOf n) e).toNat + m <<< (e - min (exponentOf n) e).toNat

theorem add_eq_round {n : Nat} (hn : 0 < n) {m : Nat} {e : Int} (hm : 0 < m) :
    UnpackedFloat.add Format.binary64 (.finite .positive (mantissaOf n) (exponentOf n) (mantissaOf_pos hn))
        (.finite .positive m e hm) =
      UnpackedFloat.round Format.binary64 .positive (sumUnits n m e) (min (exponentOf n) e) := by
  have hpos : 0 < sumUnits n m e := by
    refine Nat.add_pos_left ?_ _
    rw [Nat.shiftLeft_eq]
    exact Nat.mul_pos (mantissaOf_pos hn) (Nat.two_pow_pos _)
  rw [← normalize_pos hpos _ .positive]
  simp only [sumUnits, Nat.cast_add]
  rfl

/-- a sum is rounded no finer than its first summand is, and at least a unit of its target -/
theorem sumUnits_target {n : Nat} (hn : 0 < n) (m : Nat) (e : Int) :
    exponentOf n ≤ target (sumUnits n m e) (min (exponentOf n) e) ∧
      0 < sumUnits n m e /
        2 ^ (target (sumUnits n m e) (min (exponentOf n) e) - min (exponentOf n) e).toNat := by
  let f := min (exponentOf n) e
  let s := (exponentOf n - f).toNat
  have hle : mantissaOf n * 2 ^ s ≤ sumUnits n m e := by
    rw [← Nat.shiftLeft_eq]
    exact Nat.le_add_right _ _
  have hpos : 0 < sumUnits n m e := (Nat.mul_pos (mantissaOf_pos hn) (Nat.two_pow_pos s)).trans_le hle
  have hs : exponentOf n = f + s := by omega
  obtain ⟨-, hmin, hlead⟩ := isCanonical_of_bits n
  have hlog : ∀ k, 2 ^ k ≤ mantissaOf n → k + s ≤ (sumUnits n m e).log2 := by
    intro k hk
    rw [Nat.le_log2 hpos.ne', pow_add]
    exact (Nat.mul_le_mul_right _ hk).trans hle
  have hlow := hlog 0 (mantissaOf_pos hn)
  have ht : exponentOf n ≤ target (sumUnits n m e) f := by
    unfold target
    rcases hlead with h | h
    · have := hlog 52 h
      omega
    · omega
  refine ⟨ht, Nat.div_pos ?_ (Nat.two_pow_pos _)⟩
  refine le_trans (Nat.pow_le_pow_right (by decide) ?_) ((Nat.le_log2 hpos.ne').1 le_rfl)
  change (target (sumUnits n m e) f - f).toNat ≤ _
  unfold target at *
  omega

/-- **The sum of two positive floats.** If its exponent is not greater than that of the first, it is the same, and its
    mantissa has grown at least by the units of the first that the second holds. -/
theorem pack_add {n : Nat} (hn : 0 < n) {m : Nat} {e : Int} (hm : 0 < m) :
    ∃ k g, IsCanonical k g ∧
      (UnpackedFloat.pack Format.binary64 (UnpackedFloat.add Format.binary64
        (.finite .positive (mantissaOf n) (exponentOf n) (mantissaOf_pos hn)) (.finite .positive m e hm))).toNat =
        min (scale k g) infinityBits ∧
      (exponentOf n < g ∨ exponentOf n = g ∧ ∀ units,
        units * 2 ^ (exponentOf n - e).toNat ≤ m * 2 ^ (e - exponentOf n).toNat → mantissaOf n + units ≤ k) := by
  obtain ⟨ht, hcut⟩ := sumUnits_target hn m e
  obtain ⟨k, g, hk, hround, hcanonical, hbound⟩ := round_bounds (by omega) hcut
  refine ⟨k, g, hcanonical, by rw [add_eq_round hn, hround, toNat_pack_canonical hcanonical], ?_⟩
  rcases hbound with h | ⟨rfl, h⟩
  · exact .inl (ht.trans_lt h)
  · refine ht.lt_or_eq.imp_right fun heq => ⟨heq, fun units hunits => le_trans ?_ h⟩
    rw [Nat.le_div_iff_mul_le (Nat.two_pow_pos _), ← heq, add_mul]
    have hs : (exponentOf n - min (exponentOf n) e).toNat = (exponentOf n - e).toNat := by omega
    have he : (e - min (exponentOf n) e).toNat = (e - exponentOf n).toNat := by omega
    rw [sumUnits, hs, he, Nat.shiftLeft_eq, Nat.shiftLeft_eq]
    exact Nat.add_le_add_left hunits _

/-- the sum of two positive floats is no less than the first -/
theorem le_pack_add {n : Nat} (hn : 0 < n) (hi : n < infinityBits) {m : Nat} {e : Int} (hm : 0 < m) :
    n ≤ (UnpackedFloat.pack Format.binary64 (UnpackedFloat.add Format.binary64
      (.finite .positive (mantissaOf n) (exponentOf n) (mantissaOf_pos hn)) (.finite .positive m e hm))).toNat := by
  obtain ⟨k, g, hcanonical, hpack, hbound⟩ := pack_add hn hm
  rw [hpack, le_min_iff]
  refine ⟨?_, hi.le⟩
  rw [← scale_of_bits n]
  exact scale_mono (isCanonical_of_bits n) hcanonical (hbound.imp_right fun h => ⟨h.1, h.2 0 (by simp)⟩)

/-- it is greater than the first if the second holds a unit of it -/
theorem lt_pack_add {n : Nat} (hn : 0 < n) (hi : n < infinityBits) {m : Nat} {e : Int} (hm : 0 < m)
    (hunit : exponentOf n ≤ e + m.log2) :
    n < (UnpackedFloat.pack Format.binary64 (UnpackedFloat.add Format.binary64
      (.finite .positive (mantissaOf n) (exponentOf n) (mantissaOf_pos hn)) (.finite .positive m e hm))).toNat := by
  obtain ⟨k, g, hcanonical, hpack, hbound⟩ := pack_add hn hm
  have hholds : 1 * 2 ^ (exponentOf n - e).toNat ≤ m * 2 ^ (e - exponentOf n).toNat :=
    calc 1 * 2 ^ (exponentOf n - e).toNat
      _ ≤ 2 ^ m.log2 := by
        rw [Nat.one_mul]
        exact Nat.pow_le_pow_right (by decide) (by omega)
      _ ≤ m := (Nat.le_log2 hm.ne').1 le_rfl
      _ ≤ m * 2 ^ (e - exponentOf n).toNat := Nat.le_mul_of_pos_right m (Nat.two_pow_pos _)
  rw [hpack, lt_min_iff]
  refine ⟨?_, hi⟩
  conv_lhs => rw [← scale_of_bits n]
  exact scale_strict (isCanonical_of_bits n) hcanonical (hbound.imp_right fun h => ⟨h.1, h.2 1 hholds⟩)

end Binary64

open Binary64

/-- **An accepted delay never turns the clock back.** -/
theorem Time.le_add {t : Time} {d : Float} (ht : t.OnClock) (hd : Agenda.accepts d = true) : t ≤ t + d := by
  have hsum := onClock_add ht hd
  rw [← rank_le_iff ht hsum, rank_eq_bits ht, rank_eq_bits hsum, Int.ofNat_le]
  have hadd : (t + d).bits = (UnpackedFloat.pack Format.binary64
      (UnpackedFloat.add Format.binary64 t.toModel.unpack d.toModel.unpack)).toNat := rfl
  have hsame : t.bits = (UnpackedFloat.pack Format.binary64 t.toModel.unpack).toNat :=
    (congrArg BitVec.toNat (pack_unpack ht)).symm
  have hdelay := isDelay_of_accepts hd
  rcases Nat.eq_zero_or_pos t.bits with h0 | h0
  · rw [h0]
    exact Nat.zero_le _
  rcases ht.lt_or_eq with hi | hi
  · have hu : t.toModel.unpack = .finite .positive (mantissaOf t.bits) (exponentOf t.bits) (mantissaOf_pos h0) :=
      unpack_finite h0 hi
    rw [hadd]
    cases hv : d.toModel.unpack with
    | zero s =>
      rw [hsame, hu]
      exact le_rfl
    | finite s m e hm =>
      rw [hv] at hdelay
      cases hdelay
      rw [hu]
      exact le_pack_add h0 hi hm
    | _ =>
      rw [hv] at hdelay
      exact hdelay.elim
  · have hu : t.toModel.unpack = .infinity .positive := unpack_infinity hi
    rw [hadd, hsame, hu]
    cases hv : d.toModel.unpack with
    | zero s => exact le_rfl
    | finite s m e hm => exact le_rfl
    | _ =>
      rw [hv] at hdelay
      exact hdelay.elim

/-! ## No delay at all -/

/-- what equals zero is a zero, of either sign -/
theorem Time.unpack_eq_zero {d : Float} (hd : (d == 0) = true) : ∃ s, d.toModel.unpack = .zero s := by
  change d.toModel.unpack.beq (.zero .positive) = true at hd
  cases hu : d.toModel.unpack with
  | zero s => exact ⟨s, rfl⟩
  | finite s m e hm => cases s <;> rw [hu] at hd <;> cases hd
  | infinity s => cases s <;> rw [hu] at hd <;> cases hd
  | notANumber => rw [hu] at hd; cases hd

theorem Time.accepts_zero {d : Float} (hd : (d == 0) = true) : Agenda.accepts d = true := by
  obtain ⟨s, hs⟩ := unpack_eq_zero hd
  have hlt : ¬ d < 0 := by
    rw [lt_iff_unpack, hs]
    cases s <;> decide
  have hfinite : d.isFinite = true := by
    change d.toModel.unpack.isFinite = true
    rw [hs]
    rfl
  simp [Agenda.accepts, hfinite, hlt]

/-- after no delay it is as late as before -/
theorem Time.add_zero_eq {t : Time} {d : Float} (ht : t.OnClock) (hd : (d == 0) = true) : t + d = t := by
  obtain ⟨s, hs⟩ := unpack_eq_zero hd
  have hsum : UnpackedFloat.add Format.binary64 t.toModel.unpack (.zero s) = t.toModel.unpack := by
    have hup : IsUpward t.toModel.unpack := isUpward_unpack ht
    cases hu : t.toModel.unpack with
    | zero r =>
      rw [hu] at hup
      cases hup
      cases s <;> rfl
    | notANumber => rw [hu] at hup; exact hup.elim
    | finite | infinity => rfl
  refine eq_of_bits (congrArg BitVec.toNat ?_)
  change UnpackedFloat.pack Format.binary64
    (UnpackedFloat.add Format.binary64 t.toModel.unpack d.toModel.unpack) = _
  rw [hs, hsum]
  exact pack_unpack ht

/-! ## Delays that are felt -/

namespace Binary64

/-- exponent of the first bit of the positive float with bits `n` -/
def magnitude (n : Nat) : Int := exponentOf n + (mantissaOf n).log2

theorem exponentOf_mono {m n : Nat} (h : m ≤ n) : exponentOf m ≤ exponentOf n := by
  unfold exponentOf
  omega

end Binary64

namespace Time

/-- from one float to the next, around this time, it is no further than a power of two that the delay contains -/
def Resolves (t : Time) (d : Float) : Prop := exponentOf t.bits ≤ magnitude (bits d)

instance (t : Time) (d : Float) : Decidable (t.Resolves d) := inferInstanceAs (Decidable (_ ≤ _))

variable {t u : Time} {d : Float}

theorem Resolves.mono (hr : u.Resolves d) (ht : t.OnClock) (hu : u.OnClock) (h : t ≤ u) : t.Resolves d := by
  rw [← rank_le_iff ht hu, rank_eq_bits ht, rank_eq_bits hu, Int.ofNat_le] at h
  exact (exponentOf_mono h).trans hr

/-- an accepted delay that is not nothing is a finite positive float -/
theorem unpack_of_pos (hd : Agenda.accepts d = true) (hpos : 0 < d) :
    ∃ h : 0 < bits d, d.toModel.unpack =
      .finite .positive (mantissaOf (bits d)) (exponentOf (bits d)) (mantissaOf_pos h) ∧ OnClock d := by
  have hdelay := isDelay_of_accepts hd
  cases hu : d.toModel.unpack with
  | zero s =>
    rw [lt_iff_unpack, hu] at hpos
    cases s <;> cases hpos
  | finite s m e hm =>
    rw [hu] at hdelay
    cases hdelay
    have hclock : OnClock d := toNat_le_of_isUpward (b := d.toModel.toBits.toBitVec) (by
      change IsUpward d.toModel.unpack
      rw [hu]; rfl)
    have hzero : bits d ≠ 0 := fun h => nomatch hu.symm.trans (unpack_zero h)
    have hinfinite : bits d ≠ infinityBits := fun h => nomatch hu.symm.trans (unpack_infinity h)
    refine ⟨Nat.pos_of_ne_zero hzero, ?_, hclock⟩
    rw [← hu]
    exact unpack_finite (Nat.pos_of_ne_zero hzero) (hclock.lt_of_ne hinfinite)
  | _ =>
    rw [hu] at hdelay
    exact hdelay.elim

/-- **A delay that the clock resolves turns it on.** -/
theorem lt_add (ht : t.bits < infinityBits) (hd : Agenda.accepts d = true) (hpos : 0 < d) (hr : t.Resolves d) :
    t < t + d := by
  have hclock : t.OnClock := ht.le
  have hsum := onClock_add hclock hd
  rw [← rank_lt_iff hclock hsum, rank_eq_bits hclock, rank_eq_bits hsum, Int.ofNat_lt]
  have hadd : (t + d).bits = (UnpackedFloat.pack Format.binary64
      (UnpackedFloat.add Format.binary64 t.toModel.unpack d.toModel.unpack)).toNat := rfl
  obtain ⟨hbits, hu, hdclock⟩ := unpack_of_pos hd hpos
  rcases Nat.eq_zero_or_pos t.bits with h0 | h0
  · have hzero : t.toModel.unpack = .zero .positive := unpack_zero h0
    have hsame : UnpackedFloat.add Format.binary64 t.toModel.unpack d.toModel.unpack = d.toModel.unpack := by
      rw [hzero, hu]
      rfl
    have hpack : (UnpackedFloat.pack Format.binary64 d.toModel.unpack).toNat = bits d :=
      congrArg BitVec.toNat (pack_unpack hdclock)
    rw [h0, hadd, hsame, hpack]
    exact hbits
  · have hfinite : t.toModel.unpack = .finite .positive (mantissaOf t.bits) (exponentOf t.bits) (mantissaOf_pos h0) :=
      unpack_finite h0 ht
    rw [hadd, hfinite, hu]
    exact lt_pack_add h0 ht (mantissaOf_pos hbits) hr

end Time

end BrokerSim
