/-
When the clock becomes infinite. Delays that are infinite are refused, and yet the sum of the clock and a finite delay
may be rounded to infinity.
- `Represents`: what the round bit and the sticky bit of a mantissa tell of the number that was cut down to it, kept by
  every shift (`Represents.shiftRight`); so a number is rounded up to an even mantissa from half a unit below it on
  (`Represents.le_rounded_iff`).
- `Time.units`: finite floats as multiples of the least positive one. A sum is rounded to infinity from `limit` on,
  half way from the greatest finite float to what would be the next one (`Time.isFinite_add_iff`).
- `clock_finite_iff_no_overflow`: the times in an agenda are finite exactly as long as no accepted delay makes the
  clock reach this limit, and delays below 2^970 never do.
-/
import BrokerSim.Proofs.Kernel.Order

namespace BrokerSim

open Float.Model
open UnpackedFloat (ExtendedMantissa shiftToExponent shiftToTargetExponent)

namespace Binary64

/-! ## What the residual bits tell -/

/-- the mantissa is `x / y` rounded down, and the two bits tell whether the rest is less than a half, or more -/
def Represents (x y : Nat) (em : ExtendedMantissa) : Prop :=
  match em with
  | ⟨m, false, false⟩ => x = m * y
  | ⟨m, false, true⟩ => 2 * m * y < 2 * x ∧ 2 * x < (2 * m + 1) * y
  | ⟨m, true, false⟩ => 2 * x = (2 * m + 1) * y
  | ⟨m, true, true⟩ => (2 * m + 1) * y < 2 * x ∧ 2 * x < (2 * m + 2) * y

theorem Represents.shiftRightOne {x y : Nat} (hy : 0 < y) {em : ExtendedMantissa} (h : Represents x y em) :
    Represents x (2 * y) em.shiftRightOne := by
  rcases em with ⟨m, r, s⟩
  rcases Nat.even_or_odd' m with ⟨k, rfl | rfl⟩
  · have hdiv : 2 * k / 2 = k := by omega
    have hmod : 2 * k % 2 = 0 := by omega
    cases r <;> cases s <;>
      simp only [Represents, ExtendedMantissa.shiftRightOne, hdiv, hmod, bne_self_eq_false, Bool.or_true,
        Bool.or_false] at h ⊢
    · linarith
    · constructor <;> nlinarith
    · constructor <;> nlinarith
    · constructor <;> nlinarith
  · have hdiv : (2 * k + 1) / 2 = k := by omega
    have hmod : (2 * k + 1) % 2 = 1 := by omega
    cases r <;> cases s <;>
      simp only [Represents, ExtendedMantissa.shiftRightOne, hdiv, hmod, Nat.reduceBNe, Bool.or_true,
        Bool.or_false] at h ⊢
    · linarith
    · constructor <;> nlinarith
    · constructor <;> nlinarith
    · constructor <;> nlinarith

theorem Represents.shiftRight {x y : Nat} (hy : 0 < y) {em : ExtendedMantissa} (h : Represents x y em) (n : Nat) :
    Represents x (2 ^ n * y) (em >>> n) := by
  change Represents x (2 ^ n * y) (n.repeat ExtendedMantissa.shiftRightOne em)
  induction n with
  | zero => rwa [pow_zero, Nat.one_mul]
  | succ n ih =>
    have := ih.shiftRightOne (Nat.mul_pos (Nat.two_pow_pos n) hy)
    rwa [← Nat.mul_assoc, ← pow_succ'] at this

/-- an even mantissa is rounded up to from half a unit below it on -/
theorem Represents.le_rounded_iff {x y : Nat} (hy : 0 < y) {em : ExtendedMantissa} (h : Represents x y em) {k : Nat}
    (hk : 0 < k) : 2 * k ≤ em.roundedMantissa ↔ (4 * k - 1) * y ≤ 2 * x := by
  obtain ⟨j, rfl⟩ := Nat.exists_eq_succ_of_ne_zero hk.ne'
  have hj : 4 * (j + 1) - 1 = 4 * j + 3 := by omega
  rw [Nat.succ_eq_add_one, hj]
  -- the mantissa is below half a unit below, at it, or above
  rcases em with ⟨m, _ | _, _ | _⟩
  · change x = m * y at h
    change 2 * (j + 1) ≤ m ↔ _
    constructor
    · intro hm; nlinarith
    · intro hx; by_contra hm; nlinarith
  · change 2 * m * y < 2 * x ∧ 2 * x < (2 * m + 1) * y at h
    change 2 * (j + 1) ≤ m ↔ _
    constructor
    · intro hm; nlinarith
    · intro hx; by_contra hm; nlinarith
  · change 2 * x = (2 * m + 1) * y at h
    change 2 * (j + 1) ≤ m + m % 2 ↔ _
    constructor
    · intro hm
      have hm : 2 * j + 1 ≤ m := by omega
      nlinarith
    · intro hx
      have hm : 2 * j + 1 ≤ m := by
        by_contra hm
        nlinarith
      omega
  · change (2 * m + 1) * y < 2 * x ∧ 2 * x < (2 * m + 2) * y at h
    change 2 * (j + 1) ≤ m + 1 ↔ _
    constructor
    · intro hm; nlinarith
    · intro hx; by_contra hm; nlinarith

theorem represents_shift (m : Nat) (e : Int) :
    Represents m (2 ^ (target m e - e).toNat) (shiftToTargetExponent Format.binary64 m e .exact).1 := by
  have h : Represents m 1 ⟨m, false, false⟩ := (Nat.mul_one m).symm
  have h := h.shiftRight Nat.one_pos (target m e - e).toNat
  rwa [Nat.mul_one, ← targetExponent_eq] at h

/-! ## Rounding to infinity -/

/-- in units of the least positive float: half of what lies between the greatest finite floats, 2^970 -/
def halfStep : Nat := 2 ^ 2044

/-- half way from the greatest finite float to what would be the next, 2^1024 -/
def limit : Nat := (2 ^ 54 - 1) * halfStep

/-- a canonical float that is packed is infinite from the exponent 972 on -/
theorem scale_infinite_iff {m : Nat} {e : Int} (hc : IsCanonical m e) : infinityBits ≤ scale m e ↔ 972 ≤ e := by
  obtain ⟨hm, he, hl⟩ := hc
  unfold infinityBits scale
  omega

/-- the limit as powers of two, with an exponent that is not computed with -/
theorem limit_eq : ∃ j, j = 2044 ∧ halfStep = 2 ^ j ∧ limit = (2 ^ 54 - 1) * 2 ^ j :=
  ⟨2044, rfl, by rw [halfStep], by rw [limit, halfStep]⟩

theorem pow_le_limit {k : Nat} (hk : k ≤ 2097) : 2 ^ k ≤ limit := by
  obtain ⟨j, hj, -, hlimit⟩ := limit_eq
  calc 2 ^ k
    _ ≤ 2 ^ (53 + j) := Nat.pow_le_pow_right Nat.two_pos (by omega)
    _ = 2 ^ 53 * 2 ^ j := pow_add ..
    _ ≤ (2 ^ 54 - 1) * 2 ^ j := Nat.mul_le_mul_right _ (by decide)
    _ = limit := hlimit.symm

theorem limit_le_pow {k : Nat} (hk : 2098 ≤ k) : limit ≤ 2 ^ k := by
  obtain ⟨j, hj, -, hlimit⟩ := limit_eq
  calc limit
    _ = (2 ^ 54 - 1) * 2 ^ j := hlimit
    _ ≤ 2 ^ 54 * 2 ^ j := Nat.mul_le_mul_right _ (by decide)
    _ = 2 ^ (54 + j) := (pow_add ..).symm
    _ ≤ 2 ^ k := Nat.pow_le_pow_right Nat.two_pos (by omega)

/-- twice as much in other units, smaller ones by a power of two -/
theorem mul_two_pow_le_iff {a c j : Nat} (h : a + c = j + 1) (q m : Nat) :
    q * 2 ^ a ≤ 2 * m ↔ q * 2 ^ j ≤ m * 2 ^ c := by
  have hsplit : 2 ^ a * 2 ^ c = 2 * 2 ^ j := by rw [← pow_add, h, pow_succ']
  rw [← Nat.mul_le_mul_right_iff (Nat.two_pow_pos c), Nat.mul_assoc, hsplit, Nat.mul_left_comm, Nat.mul_assoc,
    Nat.mul_le_mul_left_iff Nat.two_pos]

theorem roundedMantissa_le (em : ExtendedMantissa) : em.roundedMantissa ≤ em.mantissa + 1 := by
  rcases em with ⟨m, _ | _, _ | _⟩
  · exact Nat.le_succ m
  · exact Nat.le_succ m
  · exact Nat.add_le_add_left (Nat.lt_succ_iff.1 (Nat.mod_lt m Nat.two_pos)) m
  · exact le_rfl

theorem rounded_le {m : Nat} (hm : 0 < m) {e : Int} (he : e ≤ target m e) : rounded m e ≤ 2 ^ 53 := by
  have hcut := (isCanonical_shift hm (e := e) fun h => absurd h he.not_gt).mantissa
  have hr := roundedMantissa_le (shiftToTargetExponent Format.binary64 m e .exact).1
  rw [(shiftToTargetExponent_eq m e).1] at hr
  exact hr.trans hcut

/-- a positive number is rounded to an exponent of 972 or more from the limit on -/
theorem round_exponent_iff {m : Nat} (hm : 0 < m) {e : Int} (hmin : -1074 ≤ e) (he : e ≤ target m e) :
    972 ≤ max (target m e) (target (rounded m e) (target m e)) ↔ limit ≤ m * 2 ^ (e + 1074).toNat := by
  have hlo : 2 ^ m.log2 ≤ m := (Nat.le_log2 hm.ne').1 le_rfl
  have hhi : m < 2 ^ (m.log2 + 1) := (Nat.log2_lt hm.ne').1 (Nat.lt_succ_self _)
  have htarget : target m e = max (m.log2 + 1 + e - 53) (-1074) := rfl
  have hr := rounded_le hm he
  have hrepresents := represents_shift m e
  have hrlog : (rounded m e).log2 ≤ 53 := by
    by_contra hlog
    have hlong := Nat.log2_self_le (n := rounded m e) fun h => by simp [h] at hlog
    have : 2 ^ 54 ≤ 2 ^ (rounded m e).log2 := Nat.pow_le_pow_right (by decide) (by omega)
    omega
  generalize ht : target m e = t at *
  rcases lt_trichotomy t 971 with h | rfl | h
  · -- too short for any rounding to reach the limit
    refine iff_of_false ?_ (not_le.2 ?_)
    · unfold target
      omega
    · calc m * 2 ^ (e + 1074).toNat
        _ < 2 ^ (m.log2 + 1) * 2 ^ (e + 1074).toNat := Nat.mul_lt_mul_of_pos_right hhi (Nat.two_pow_pos _)
        _ = 2 ^ (m.log2 + 1 + (e + 1074).toNat) := (pow_add ..).symm
        _ ≤ limit := pow_le_limit (by omega)
  · -- it is rounded at the unit of the greatest floats, up to the next power of two or not
    have hup : 972 ≤ max (971 : Int) (target (rounded m e) 971) ↔ 2 * 2 ^ 52 ≤ rounded m e := by
      rcases Nat.eq_zero_or_pos (rounded m e) with h0 | h0
      · rw [h0]
        decide
      · rw [← pow_succ', ← Nat.le_log2 h0.ne']
        unfold target
        omega
    have hsame : 4 * 2 ^ 52 - 1 = 2 ^ 54 - 1 := by decide
    obtain ⟨j, hj, -, hlimit⟩ := limit_eq
    rw [hup, rounded, hrepresents.le_rounded_iff (Nat.two_pow_pos _) (Nat.two_pow_pos _), hsame, hlimit]
    exact mul_two_pow_le_iff (by omega) _ m
  · -- its first bit alone is beyond the limit
    refine iff_of_true (h.trans_le (le_max_left _ _)) ?_
    calc limit
      _ ≤ 2 ^ (m.log2 + (e + 1074).toNat) := limit_le_pow (by omega)
      _ = 2 ^ m.log2 * 2 ^ (e + 1074).toNat := pow_add ..
      _ ≤ m * 2 ^ (e + 1074).toNat := Nat.mul_le_mul_right _ hlo

/-! ## Sums -/

/-- the sum of two positive floats is infinite from the limit on -/
theorem pack_add_infinite_iff {n : Nat} (hn : 0 < n) {m : Nat} {e : Int} (hmin : -1074 ≤ e) (hm : 0 < m) :
    infinityBits ≤ (UnpackedFloat.pack Format.binary64 (UnpackedFloat.add Format.binary64
        (.finite .positive (mantissaOf n) (exponentOf n) (mantissaOf_pos hn)) (.finite .positive m e hm))).toNat ↔
      limit ≤ mantissaOf n * 2 ^ (exponentOf n + 1074).toNat + m * 2 ^ (e + 1074).toNat := by
  obtain ⟨ht, hcut⟩ := sumUnits_target hn m e
  have hle : min (exponentOf n) e ≤ target (sumUnits n m e) (min (exponentOf n) e) := by omega
  obtain ⟨hpos, hround⟩ := round_eq hle hcut
  obtain ⟨k, g, hk, hbounds, hcanonical, -⟩ := round_bounds hle hcut
  obtain ⟨-, rfl, rfl⟩ := UnpackedFloat.finite.inj (hbounds.symm.trans hround)
  have hsum : 0 < sumUnits n m e := Nat.pos_of_ne_zero fun h => by simp [h] at hcut
  have hn' := (isCanonical_of_bits n).exponent
  have hunits : sumUnits n m e * 2 ^ (min (exponentOf n) e + 1074).toNat =
      mantissaOf n * 2 ^ (exponentOf n + 1074).toNat + m * 2 ^ (e + 1074).toNat := by
    rw [sumUnits, Nat.shiftLeft_eq, Nat.shiftLeft_eq, add_mul, Nat.mul_assoc, Nat.mul_assoc, ← pow_add, ← pow_add]
    congr 3 <;> omega
  rw [add_eq_round hn, hround, toNat_pack_canonical hcanonical, le_min_iff, and_iff_left le_rfl,
    scale_infinite_iff hcanonical, round_exponent_iff hsum (by omega) hle, hunits]

/-- a finite float that is not negative, as a multiple of the least positive one -/
def units : UnpackedFloat → Nat
  | .finite _ m e _ => m * 2 ^ (e + 1074).toNat
  | _ => 0

/-- from a finite float to the limit there is room for half a step -/
theorem units_add_le {n : Nat} (hn : n < infinityBits) :
    mantissaOf n * 2 ^ (exponentOf n + 1074).toNat + halfStep ≤ limit := by
  have hm : mantissaOf n ≤ 2 ^ 53 - 1 := Nat.le_sub_one_of_lt (isCanonical_of_bits n).mantissa
  obtain ⟨j, hj, hhalf, hlimit⟩ := limit_eq
  have he : (exponentOf n + 1074).toNat ≤ 1 + j := by
    unfold infinityBits at hn
    unfold exponentOf
    omega
  rw [hhalf, hlimit]
  calc mantissaOf n * 2 ^ (exponentOf n + 1074).toNat + 2 ^ j
    _ ≤ (2 ^ 53 - 1) * 2 ^ (1 + j) + 2 ^ j :=
      Nat.add_le_add_right (Nat.mul_le_mul hm (Nat.pow_le_pow_right Nat.two_pos he)) _
    _ = (2 ^ 54 - 1) * 2 ^ j := by
      rw [pow_add]
      omega

end Binary64

open Binary64

namespace Time

/-- how often a finite time or delay contains the least positive float -/
def units (t : Float) : Nat := Binary64.units t.toModel.unpack

variable {t d : Float}

theorem unpack_eq (h0 : 0 < bits t) (hi : bits t < infinityBits) : t.toModel.unpack =
    .finite .positive (mantissaOf (bits t)) (exponentOf (bits t)) (mantissaOf_pos h0) := unpack_finite h0 hi

theorem isFinite_iff (ht : OnClock t) : t.isFinite = true ↔ bits t < infinityBits := by
  change t.toModel.unpack.isFinite = true ↔ _
  rcases Nat.eq_zero_or_pos (bits t) with h0 | h0
  · rw [show t.toModel.unpack = .zero .positive from unpack_zero h0, h0]
    exact iff_of_true rfl (by decide)
  · rcases ht.lt_or_eq with hi | hi
    · rw [unpack_eq h0 hi]
      exact iff_of_true rfl hi
    · rw [show t.toModel.unpack = _ from unpack_infinity hi]
      exact iff_of_false Bool.false_ne_true hi.not_lt

theorem units_of_bits (hi : bits t < infinityBits) :
    units t = mantissaOf (bits t) * 2 ^ (exponentOf (bits t) + 1074).toNat := by
  rcases Nat.eq_zero_or_pos (bits t) with h0 | h0
  · rw [units, show t.toModel.unpack = .zero .positive from unpack_zero h0, h0]
    rfl
  · rw [units, unpack_eq h0 hi]
    rfl

theorem units_add_le (hi : bits t < infinityBits) : units t + halfStep ≤ limit := by
  rw [units_of_bits hi]
  exact Binary64.units_add_le hi

theorem units_lt_limit (hi : bits t < infinityBits) : units t < limit := by
  obtain ⟨j, -, hhalf, -⟩ := limit_eq
  have hroom := units_add_le hi
  have := Nat.two_pow_pos j
  omega

/-- an accepted delay is nothing, or positive -/
theorem eq_zero_or_pos (hd : Agenda.accepts d = true) : (d == 0) = true ∨ 0 < d := by
  have hdelay := isDelay_of_accepts hd
  change d.toModel.unpack.beq (.zero .positive) = true ∨ _
  rw [lt_iff_unpack]
  cases hu : d.toModel.unpack with
  | zero s => cases s <;> exact .inl rfl
  | finite s m e hm =>
    rw [hu] at hdelay
    cases hdelay
    exact .inr rfl
  | _ =>
    rw [hu] at hdelay
    exact hdelay.elim

/-- **When a sum is infinite.** After an accepted delay the time is finite exactly if it was before, and the exact sum
    stays below the limit. -/
theorem isFinite_add_iff (ht : OnClock t) (hd : Agenda.accepts d = true) :
    (t + d).isFinite = true ↔ t.isFinite = true ∧ units t + units d < limit := by
  rcases eq_zero_or_pos hd with hzero | hpos
  · obtain ⟨s, hs⟩ := unpack_eq_zero hzero
    have hnone : units d = 0 := by rw [units, hs]; rfl
    rw [add_zero_eq ht hzero, hnone, Nat.add_zero]
    exact ⟨fun hf => ⟨hf, units_lt_limit ((isFinite_iff ht).1 hf)⟩, And.left⟩
  have hsum := onClock_add ht hd
  obtain ⟨hbits, hu, hclock⟩ := unpack_of_pos hd hpos
  have hfinite : bits d < infinityBits := by
    refine hclock.lt_of_ne fun h => ?_
    cases hu.symm.trans (unpack_infinity h)
  rcases Nat.eq_zero_or_pos (bits t) with h0 | h0
  · obtain rfl : t = 0 := eq_of_bits h0
    have hzero : units 0 = 0 := by rfl
    rw [hzero, Nat.zero_add]
    refine iff_of_true ?_ ⟨rfl, units_lt_limit hfinite⟩
    rcases zero_add_eq hd with h | h
    · rw [h]
      exact (isFinite_iff hclock).2 hfinite
    · rw [h]
      rfl
  rcases ht.lt_or_eq with hi | hi
  · have hunits : units d = mantissaOf (bits d) * 2 ^ (exponentOf (bits d) + 1074).toNat := units_of_bits hfinite
    have hadd : bits (t + d) = (UnpackedFloat.pack Format.binary64
        (UnpackedFloat.add Format.binary64 t.toModel.unpack d.toModel.unpack)).toNat := rfl
    rw [isFinite_iff hsum, isFinite_iff ht, ← not_le, hadd, unpack_eq h0 hi, hu,
      pack_add_infinite_iff h0 (isCanonical_of_bits _).exponent, units_of_bits hi, hunits, not_le]
    exact ⟨fun h => ⟨hi, h⟩, And.right⟩
  · have hle := (rank_le_iff ht hsum).2 (le_add ht hd)
    rw [rank_eq_bits ht, rank_eq_bits hsum, Int.ofNat_le] at hle
    rw [isFinite_iff hsum, isFinite_iff ht]
    refine iff_of_false ?_ ?_ <;> omega

end Time

/-! ## Agendas -/

variable {μ : Type}

/-- the clock of a history is finite exactly if every event that left was due at a finite time -/
theorem Filed.isFinite_now_iff {history : History μ} {p : Plain μ} (hf : Filed history p) :
    p.now.isFinite = true ↔ ∀ e ∈ history.left, e.time.isFinite = true := by
  constructor
  · intro hnow e he
    have hclock := hf.onClock e (hf.came e he)
    have hpast := hf.past e he
    rw [Time.rank_eq_bits hclock, Time.rank_eq_bits hf.sound.now, Int.ofNat_le] at hpast
    rw [Time.isFinite_iff hf.sound.now] at hnow
    exact (Time.isFinite_iff hclock).2 (hpast.trans_lt hnow)
  · intro hleft
    rw [hf.now, History.now]
    cases hlast : history.left.getLast? with
    | none => exact (Time.isFinite_iff Time.onClock_zero).2 (by decide)
    | some e => exact hleft e (List.mem_of_getLast? hlast)

namespace Agenda

/-- is this an accepted delay that takes a finite clock to the limit? -/
def Overflows (a : Agenda μ) : Request μ → Prop
  | .schedule delay _ _ _ =>
    accepts delay = true ∧ a.now.isFinite = true ∧ limit ≤ Time.units a.now + Time.units delay
  | _ => False

theorem filed_after (requests : List (Request μ)) :
    ∃ p, Filed (history requests {}) p ∧ Refines (after requests) p := by
  obtain ⟨p, hf, hr, -⟩ := Filed.fresh.answers Refines.fresh requests
  exact ⟨p, hf, hr⟩

theorem history_snoc (requests : List (Request μ)) (r : Request μ) (a : Agenda μ) :
    history (requests ++ [r]) a =
      history requests a ++ ((requests.foldl (fun a r => (a.answer r).2) a).passage? r).toList := by
  induction requests generalizing a with
  | nil => simp [history]
  | cons first rest ih =>
    rw [List.cons_append, history, ih, ← List.append_assoc]
    rfl

/-- the event of a delay that is accepted enters, for the sum of clock and delay -/
theorem passage_schedule (a : Agenda μ) (delay : Float) (source target : EntityId) (message : μ) :
    a.passage? (.schedule delay source target message) =
      if accepts delay then
        some (.entered { time := a.now + delay, source, target, handle := a.issued, message })
      else none := by
  unfold passage? answer
  split_ifs with hd
  · have hok : a.schedule delay source target message = .ok (a.issued, { a with
        heap := a.heap.insert Event.before { time := a.now + delay, source, target, handle := a.issued, message }
        pending := a.pending.insert a.issued
        issued := a.issued + 1 }) := if_pos hd
    simp only [hok]
  · have hrefused : ∃ err, a.schedule delay source target message = .error err := ⟨_, if_neg hd⟩
    obtain ⟨err, hrefused⟩ := hrefused
    simp only [hrefused]

/-- no other request lets an event enter -/
theorem entered_of_passage {a : Agenda μ} {r : Request μ} {e : Event μ} (h : a.passage? r = some (.entered e)) :
    ∃ delay source target message, r = .schedule delay source target message ∧ accepts delay = true ∧
      e.time = a.now + delay := by
  cases r with
  | schedule delay source target message =>
    rw [passage_schedule] at h
    split_ifs at h with hd
    cases h
    exact ⟨delay, source, target, message, rfl, hd, rfl⟩
  | next | cancel =>
    unfold passage? at h
    split at h
    · next hr _ => cases hr
    all_goals cases h

theorem Overflows.entered {a : Agenda μ} {r : Request μ} (h : a.Overflows r) :
    ∃ e, a.passage? r = some (.entered e) := by
  cases r with
  | schedule delay source target message => exact ⟨_, (passage_schedule ..).trans (if_pos h.1)⟩
  | next | cancel => exact h.elim

/-- an event enters for an infinite time exactly if the clock is infinite, or overflows -/
theorem entered_isFinite_iff {requests : List (Request μ)} {r : Request μ} {e : Event μ}
    (h : (after requests).passage? r = some (.entered e)) :
    e.time.isFinite = true ↔ (after requests).now.isFinite = true ∧ ¬ (after requests).Overflows r := by
  obtain ⟨delay, source, target, message, rfl, hd, htime⟩ := entered_of_passage h
  obtain ⟨p, hf, hr⟩ := filed_after requests
  rw [htime, Time.isFinite_add_iff (hr.now ▸ hf.sound.now) hd, ← not_le]
  refine and_congr_right fun hnow => not_congr ?_
  exact ⟨fun hle => ⟨hd, hnow, hle⟩, fun hover => hover.2.2⟩

/-- which events enter with the last of some requests -/
theorem entered_history_snoc (requests : List (Request μ)) (r : Request μ) :
    (history (requests ++ [r]) {}).entered = (history requests {}).entered ++
      (((after requests).passage? r).bind Passage.entered?).toList := by
  rw [history_snoc, History.entered, List.filterMap_append, ← History.entered]
  change _ ++ List.filterMap Passage.entered? ((after requests).passage? r).toList = _
  cases (after requests).passage? r with
  | none => rfl
  | some x => cases x <;> rfl

/-- the clock is finite if every event that entered was due at a finite time -/
theorem isFinite_now {requests : List (Request μ)}
    (h : ∀ e ∈ (history requests {}).entered, e.time.isFinite = true) : (after requests).now.isFinite = true := by
  obtain ⟨p, hf, hr⟩ := filed_after requests
  rw [hr.now, hf.isFinite_now_iff]
  exact fun e he => h e (hf.came e he)

/-- the first infinite time is that of an accepted delay that overflows -/
theorem entered_finite_iff (requests : List (Request μ)) :
    (∀ e ∈ (history requests {}).entered, e.time.isFinite = true) ↔
      ∀ early r, early ++ [r] <+: requests → ¬ (after early).Overflows r := by
  induction requests using List.reverseRecOn with
  | nil => exact iff_of_true (fun e he => nomatch he) fun early r h => by simp at h
  | append_singleton requests r ih =>
    rw [entered_history_snoc]
    constructor
    · intro h early x hx
      rcases List.prefix_concat_iff.1 hx with heq | hx
      · obtain ⟨rfl, hlast⟩ := List.append_inj' heq rfl
        obtain rfl : x = r := List.singleton_inj.1 hlast
        intro hover
        obtain ⟨e, he⟩ := hover.entered
        have hfinite := h e (List.mem_append_right _ (by rw [he]; exact List.mem_singleton_self e))
        exact ((entered_isFinite_iff he).1 hfinite).2 hover
      · exact ih.1 (fun e he => h e (List.mem_append_left _ he)) early x hx
    · intro h
      have hold := ih.2 fun early x hx => h early x (hx.trans (List.prefix_append _ _))
      intro e he
      rcases List.mem_append.1 he with he | he
      · exact hold e he
      · obtain ⟨x, hx, hxe⟩ := Option.bind_eq_some_iff.1 (Option.mem_toList.1 he)
        cases x with
        | entered f =>
          cases hxe
          exact (entered_isFinite_iff hx).2 ⟨isFinite_now hold, h requests r (List.prefix_refl _)⟩
        | _ => cases hxe

/-- a delay of less than half a step never overflows -/
theorem not_overflows {requests : List (Request μ)} {delay : Float} (hd : Time.units delay < halfStep)
    (source target : EntityId) (message : μ) :
    ¬ (after requests).Overflows (.schedule delay source target message) := by
  rintro ⟨-, hnow, hle⟩
  obtain ⟨p, hf, hr⟩ := filed_after requests
  have hroom := Time.units_add_le ((Time.isFinite_iff (hr.now ▸ hf.sound.now)).1 hnow)
  omega

end Agenda

/-- **When the clock stays finite.** No event enters an agenda for a time that is NaN or has a sign. The times of all
    events that enter are finite exactly as long as no accepted delay takes a finite clock to the limit, which the
    exact sum tells; the clock is finite exactly as long as the events that left were due at finite times. With delays
    below 2^970 all times are finite after any requests. -/
theorem clock_finite_iff_no_overflow (requests : List (Request μ)) :
    let history := Agenda.history requests {}
    (∀ e ∈ history.entered, e.time.OnClock) ∧
    ((∀ e ∈ history.entered, e.time.isFinite = true) ↔
      ∀ early r, early ++ [r] <+: requests → ¬ (Agenda.after early).Overflows r) ∧
    ((Agenda.after requests).now.isFinite = true ↔ ∀ e ∈ history.left, e.time.isFinite = true) ∧
    ((∀ delay source target message, .schedule delay source target message ∈ requests →
        Time.units delay < halfStep) →
      (∀ e ∈ history.entered, e.time.isFinite = true) ∧ (Agenda.after requests).now.isFinite = true) := by
  intro history
  obtain ⟨p, hf, hr⟩ := Agenda.filed_after requests
  refine ⟨hf.onClock, Agenda.entered_finite_iff requests, hr.now ▸ hf.isFinite_now_iff, ?_⟩
  intro hsmall
  have hfinite : ∀ e ∈ history.entered, e.time.isFinite = true := by
    refine (Agenda.entered_finite_iff requests).2 fun early r hearly hover => ?_
    have hr : r ∈ requests := hearly.subset (List.mem_append_right _ (List.mem_singleton_self r))
    cases r with
    | schedule delay source target message =>
      exact Agenda.not_overflows (hsmall delay source target message hr) source target message hover
    | next | cancel => exact hover
  exact ⟨hfinite, Agenda.isFinite_now hfinite⟩

/-- **The clock does not stay finite.** Two delays of 1e308 are accepted one after the other, and the clock stands at
    infinity when the second event has left. -/
theorem clock_reaches_infinity :
    let requests : List (Request String) := [.schedule 1e308 0 0 "", .next, .schedule 1e308 0 0 "", .next]
    (Agenda.history requests {}).entered.map (fun e => e.time.isFinite) = [true, false] ∧
    (Agenda.after requests).now.isFinite = false := by
  decide +kernel

end BrokerSim
