/-
Numerals as they may stand in a JSON text.
- `Numeral.IsValid`: at least one digit before the point, no zero in front of another one, and digits in every place.
- `numeral_chars`: the reader of numerals gets a valid one back from its characters, whatever follows that cannot belong
  to it.
- `Numeral.isValid_ofNat`, `Layout.isValid_numeral`: whole numbers and finite floats are written so. For floats the
  shortest digits must not be zero (`shortest_pos`).
- `digitsValue_repr`, `quantity_ofNat`: a whole number is worth itself.
-/
import Mathlib.Tactic
import BrokerSim.Json.Number
import BrokerSim.Json.Reader

namespace BrokerSim

open Json

namespace Decimal

/-- a row of digits -/
def AreDigits (ds : List Char) : Prop := ∀ c ∈ ds, c.isDigit = true

/-- may these digits stand before a point? There is one at least, and no zero in front of another. -/
structure IsWhole (ds : List Char) : Prop where
  nonempty : ds ≠ []
  digits : AreDigits ds
  lead : ∀ rest, ds = '0' :: rest → rest = []

structure Numeral.IsValid (n : Numeral) : Prop where
  whole : IsWhole n.whole
  fraction : AreDigits n.fraction
  power : ∀ e, n.exponent = some e → e.2 ≠ [] ∧ AreDigits e.2

/-! ## Digits of whole numbers -/

theorem areDigits_repr (n : Nat) : AreDigits (Nat.repr n).toList := by
  intro c hc
  rw [Nat.repr_eq_ofList_toDigits, String.toList_ofList] at hc
  exact Nat.isDigit_of_mem_toDigits (by decide) (by decide) hc

theorem repr_ne_nil (n : Nat) : (Nat.repr n).toList ≠ [] := by
  rw [Nat.repr_eq_ofList_toDigits, String.toList_ofList]
  exact Nat.toDigits_ne_nil

/-- a whole number that is not zero does not begin with a zero -/
theorem head?_toDigits {n : Nat} (hn : n ≠ 0) : (Nat.toDigits 10 n).head? ≠ some '0' := by
  induction n using Nat.strong_induction_on with
  | _ n ih =>
    by_cases hlt : n < 10
    · rw [Nat.toDigits_of_lt_base hlt, List.head?_cons]
      interval_cases n <;> simp_all
    · rw [Nat.toDigits_of_base_le (by decide) (by omega), List.head?_append_of_ne_nil _ Nat.toDigits_ne_nil]
      exact ih (n / 10) (by omega) (by omega)

theorem isWhole_of_head {ds : List Char} (hne : ds ≠ []) (hd : AreDigits ds) (hh : ds.head? ≠ some '0') : IsWhole ds :=
  ⟨hne, hd, fun _ heq => absurd (heq ▸ rfl) hh⟩

theorem isWhole_zero : IsWhole ['0'] := ⟨by decide, by simp [AreDigits], fun _ h => (List.cons.inj h).2.symm⟩

theorem head?_repr {n : Nat} (hn : n ≠ 0) : (Nat.repr n).toList.head? ≠ some '0' := by
  rw [Nat.repr_eq_ofList_toDigits, String.toList_ofList]
  exact head?_toDigits hn

theorem isWhole_repr (n : Nat) : IsWhole (Nat.repr n).toList := by
  by_cases hn : n = 0
  · rw [hn]
    exact isWhole_zero
  · exact isWhole_of_head (repr_ne_nil n) (areDigits_repr n) (head?_repr hn)

theorem Numeral.isValid_ofNat (n : Nat) : (Numeral.ofNat n).IsValid :=
  ⟨isWhole_repr n, fun _ h => (nomatch h), fun _ h => nomatch h⟩

/-- a written whole number stands for itself -/
theorem digitsValue_repr (n : Nat) : digitsValue (Nat.repr n).toList = n := by
  have hvalue : ∀ ds : List Char, digitsValue ds = Nat.ofDigitChars 10 ds 0 := fun ds =>
    Nat.ofDigitChars_eq_foldl.symm
  rw [hvalue, Nat.repr_eq_ofList_toDigits, String.toList_ofList]
  exact Nat.ofDigitChars_ten_toDigits

/-! ## Digits of floats -/

theorem roundDiv_ne_zero (tie : Tie) {num den : Nat} (h : num / den ≠ 0) : roundDiv tie num den ≠ 0 := by
  unfold roundDiv
  dsimp only
  split_ifs
  · exact Nat.succ_ne_zero _
  · exact h

/-- on a grid nothing but points above zero read back as a size above zero -/
theorem nearestOn_pos {tie : Tie} {v : Dyadic} {place : Int} {c : Nat} (hv : v.mantissa ≠ 0)
    (h : nearestOn tie v place = some c) : c ≠ 0 := by
  have hquarter : 0 < Nat.pow 2 (v.exponent - 2).toNat * Nat.pow 10 (-place).toNat :=
    Nat.mul_pos (Nat.pow_pos (by decide)) (Nat.pow_pos (by decide))
  have hlow : 0 < (4 * v.mantissa - if v.closeBelow then 1 else 2) *
      (Nat.pow 2 (v.exponent - 2).toNat * Nat.pow 10 (-place).toNat) :=
    Nat.mul_pos (by split_ifs <;> omega) hquarter
  unfold nearestOn at h
  dsimp only at h
  generalize (4 * v.mantissa - if v.closeBelow then 1 else 2) *
    (Nat.pow 2 (v.exponent - 2).toNat * Nat.pow 10 (-place).toNat) = low at hlow h
  have pos_of_reads : ∀ {step high c : Nat}, (if v.mantissa % 2 = 0 then low ≤ c * step && c * step ≤ high
      else low < c * step && c * step < high : Bool) = true → c ≠ 0 := by
    rintro step high c hreads rfl
    rw [Nat.zero_mul] at hreads
    split_ifs at hreads
    · exact absurd (of_decide_eq_true (Bool.and_eq_true_iff.1 hreads).1) hlow.not_ge
    · exact absurd (of_decide_eq_true (Bool.and_eq_true_iff.1 hreads).1) (Nat.not_lt_zero _)
  split at h
  · next hbelow _ =>
    cases h
    exact roundDiv_ne_zero tie (pos_of_reads hbelow)
  · next hbelow _ =>
    cases h
    exact pos_of_reads hbelow
  · cases h
    exact Nat.succ_ne_zero _
  · cases h

theorem shortest_pos (tie : Tie) {v : Dyadic} (hv : v.mantissa ≠ 0) : (shortest tie v).digits ≠ 0 := by
  unfold shortest
  dsimp only
  split
  · exact hv
  · next s hs =>
    split_ifs
    · exact one_ne_zero
    · obtain ⟨n, -, hn⟩ := List.exists_of_findSome?_eq_some hs
      obtain ⟨c, hc, rfl⟩ := Option.map_eq_some_iff.1 hn
      exact nearestOn_pos hv hc

/-! ## Layouts -/

theorem areDigits_replicate (n : Nat) : AreDigits (List.replicate n '0') := by
  intro c hc
  rw [(List.mem_replicate.1 hc).2]
  rfl

theorem AreDigits.append {ds es : List Char} (h : AreDigits ds) (k : AreDigits es) : AreDigits (ds ++ es) := fun c hc =>
  (List.mem_append.1 hc).elim (h c) (k c)

theorem isValid_writeOut (keepsPoint : Bool) {ds : List Char} (place : Int) (hne : ds ≠ []) (hd : AreDigits ds)
    (hh : ds.head? ≠ some '0') : (writeOut keepsPoint ds place).IsValid := by
  unfold writeOut
  by_cases hplace : 0 ≤ place
  · rw [if_pos hplace]
    refine ⟨isWhole_of_head (by simp [hne]) (hd.append (areDigits_replicate _)) ?_, ?_, fun _ h => nomatch h⟩
    · rwa [List.head?_append_of_ne_nil _ hne]
    · cases keepsPoint <;> simp [AreDigits]
  · rw [if_neg hplace]
    dsimp only
    split_ifs with hback
    · have hpos : ds.length - (-place).toNat ≠ 0 := by omega
      refine ⟨isWhole_of_head ?_ ?_ ?_, ?_, fun _ h => nomatch h⟩
      · simp [hpos, hne]
      · exact fun c hc => hd c (List.mem_of_mem_take hc)
      · rwa [List.head?_take, if_neg hpos]
      · exact fun c hc => hd c (List.mem_of_mem_drop hc)
    · exact ⟨isWhole_zero, (areDigits_replicate _).append hd, fun _ h => nomatch h⟩

theorem isValid_writePower {ds : List Char} (power : Int) (hne : ds ≠ []) (hd : AreDigits ds)
    (hh : ds.head? ≠ some '0') : (writePower ds power).IsValid := by
  refine ⟨isWhole_of_head ?_ ?_ ?_, ?_, ?_⟩
  · simp [writePower, hne]
  · exact fun c hc => hd c (List.mem_of_mem_take hc)
  · simpa [writePower, List.head?_take] using hh
  · exact fun c hc => hd c (List.mem_of_mem_drop hc)
  · intro e he
    cases he
    exact ⟨repr_ne_nil _, areDigits_repr _⟩

/-- **Finite sizes are written as valid numerals,** in every layout. -/
theorem Layout.isValid_numeral (l : Layout) (v : Dyadic) : (l.numeral v).IsValid := by
  unfold numeral
  split_ifs with hv
  · refine ⟨isWhole_zero, ?_, fun _ h => nomatch h⟩
    unfold writeOut
    cases l.keepsPoint <;> simp [AreDigits]
  · have hh := head?_repr (shortest_pos l.tie hv)
    have hne := repr_ne_nil (shortest l.tie v).digits
    have hd := areDigits_repr (shortest l.tie v).digits
    dsimp only
    split
    · exact isValid_writeOut _ _ hne hd hh
    · split_ifs
      · exact isValid_writeOut _ _ hne hd hh
      · exact isValid_writePower _ hne hd hh

theorem Layout.isValid_of_numeral? {l : Layout} {x : Float} {n : Numeral} (h : l.numeral? x = some n) : n.IsValid := by
  unfold numeral? at h
  split at h
  · cases h
    have hv := l.isValid_numeral ‹_›
    exact ⟨hv.whole, hv.fraction, hv.power⟩
  · cases h

end Decimal

namespace Json

open Decimal

/-! ## Reading numerals -/

/-- nothing that could belong to a numeral stands first -/
def Stops (rest : List Char) : Prop := ∀ c ∈ rest.head?, c.isDigit = false ∧ c ≠ '.' ∧ c ≠ 'e' ∧ c ≠ 'E'

/-- no digit stands first -/
def NoDigit (rest : List Char) : Prop := ∀ c ∈ rest.head?, c.isDigit = false

theorem digits_append {ds rest : List Char} (hd : AreDigits ds) (hr : NoDigit rest) :
    digits (ds ++ rest) = (ds, rest) := by
  rw [digits, List.span_eq_takeWhile_dropWhile, List.takeWhile_append_of_pos hd, List.dropWhile_append_of_pos hd]
  cases rest with
  | nil => simp
  | cons c rest =>
    have hc : c.isDigit = false := hr c rfl
    simp [hc]

theorem someDigits_append {ds rest : List Char} (hne : ds ≠ []) (hd : AreDigits ds) (hr : NoDigit rest) :
    someDigits (ds ++ rest) = some (ds, rest) := by
  rw [someDigits, digits_append hd hr]
  cases ds with
  | nil => exact absurd rfl hne
  | cons d ds => rfl

theorem wholePart_append {ds rest : List Char} (hw : IsWhole ds) (hr : NoDigit rest) :
    wholePart (ds ++ rest) = some (ds, rest) := by
  rw [wholePart, someDigits_append hw.nonempty hw.digits hr]
  split
  · next heq =>
    cases heq
    cases hw.lead _ rfl
  · rfl

theorem fractionPart_append {ds rest : List Char} (hd : AreDigits ds) (hr : NoDigit rest) (hp : '.' ∉ rest.head?) :
    fractionPart ((if ds.isEmpty then [] else '.' :: ds) ++ rest) = some (ds, rest) := by
  cases ds with
  | nil =>
    change fractionPart rest = _
    unfold fractionPart
    split
    · exact absurd rfl hp
    · rfl
  | cons d ds => exact someDigits_append (List.cons_ne_nil d ds) hd hr

/-- the characters of a power of ten -/
def powerChars : Option (Bool × List Char) → List Char
  | none => []
  | some (negative, ds) => 'e' :: (if negative then '-' else '+') :: ds

theorem exponentPart_append {e : Option (Bool × List Char)} {rest : List Char}
    (he : ∀ x, e = some x → x.2 ≠ [] ∧ AreDigits x.2) (hr : Stops rest) :
    exponentPart (powerChars e ++ rest) = some (e, rest) := by
  have hnodigit : NoDigit rest := fun c hc => (hr c hc).1
  cases e with
  | none =>
    cases rest with
    | nil => rfl
    | cons c rest =>
      obtain ⟨-, -, he, hE⟩ := hr c rfl
      change exponentPart (c :: rest) = _
      unfold exponentPart
      exact if_neg (by simp [he, hE])
  | some x =>
    obtain ⟨negative, ds⟩ := x
    obtain ⟨hne, hd⟩ := he _ rfl
    have hsigned : signedDigits negative (ds ++ rest) = some (some (negative, ds), rest) := by
      rw [signedDigits, someDigits_append hne hd hnodigit]
      rfl
    cases negative with
    | false => exact hsigned
    | true => exact hsigned

theorem chars_eq (n : Numeral) : n.chars = (if n.negative then ['-'] else []) ++
    (n.whole ++ ((if n.fraction.isEmpty then [] else '.' :: n.fraction) ++ powerChars n.exponent)) := by
  unfold Numeral.chars powerChars
  rewrite [List.append_assoc, List.append_assoc]
  rcases n.exponent with - | ⟨negative, ds⟩ <;> rfl

/-- a numeral after its sign -/
def unsigned (negative : Bool) (cs : List Char) : Option (Numeral × List Char) := do
  let (whole, cs) ← wholePart cs
  let (fraction, cs) ← fractionPart cs
  let (exponent, cs) ← exponentPart cs
  return ({ negative, whole, fraction, exponent }, cs)

theorem numeral_signed (cs : List Char) : numeral ('-' :: cs) = unsigned true cs := rfl

theorem numeral_unsigned {c : Char} (hc : c ≠ '-') (cs : List Char) : numeral (c :: cs) = unsigned false (c :: cs) := by
  unfold numeral
  split
  next heq =>
    split at heq
    · next hcs => exact absurd (List.cons.inj hcs).1 hc
    · cases heq
      rfl

/-- **A valid numeral is read back from its characters.** -/
theorem numeral_chars {n : Numeral} {rest : List Char} (hn : n.IsValid) (hr : Stops rest) :
    numeral (n.chars ++ rest) = some (n, rest) := by
  have hpower : ∀ c ∈ (powerChars n.exponent ++ rest).head?, c.isDigit = false ∧ c ≠ '.' := by
    rcases n.exponent with - | ⟨negative, ds⟩
    · exact fun c hc => ⟨(hr c hc).1, (hr c hc).2.1⟩
    · rintro c ⟨⟩
      decide
  have hfraction : NoDigit ((if n.fraction.isEmpty then [] else '.' :: n.fraction) ++ (powerChars n.exponent ++ rest)) := by
    split_ifs
    · exact fun c hc => (hpower c hc).1
    · rintro c ⟨⟩
      rfl
  have hbody : unsigned n.negative (n.whole ++ ((if n.fraction.isEmpty then [] else '.' :: n.fraction) ++
      (powerChars n.exponent ++ rest))) = some (n, rest) := by
    simp only [unsigned, wholePart_append hn.whole hfraction, Option.bind_eq_bind, Option.bind_some,
      fractionPart_append hn.fraction (fun c hc => (hpower c hc).1) fun hc => (hpower '.' hc).2 rfl,
      exponentPart_append hn.power hr]
    rfl
  rw [chars_eq, List.append_assoc, List.append_assoc, List.append_assoc]
  cases hneg : n.negative with
  | true =>
    rw [hneg] at hbody
    exact (numeral_signed _).trans hbody
  | false =>
    obtain ⟨d, ds, hd⟩ := List.exists_cons_of_ne_nil hn.whole.nonempty
    have hsign : d ≠ '-' := by
      rintro rfl
      exact Bool.false_ne_true (hn.whole.digits '-' (hd ▸ List.mem_cons_self))
    rw [hneg, hd] at hbody
    rw [hd]
    exact (numeral_unsigned hsign _).trans hbody

/-- a whole number that fits a word is worth itself -/
theorem quantity_ofNat {n : Nat} (hn : n ≤ wordMax) : quantity (.ofNat n) = some (.natural n) := by
  have hvalue : digitsValue (Numeral.ofNat n).whole = n := digitsValue_repr n
  unfold quantity
  simp only [hvalue, hn]
  rfl

end Json

end BrokerSim
