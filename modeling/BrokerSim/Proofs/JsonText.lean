/-
The reader of JSON gets back what the printers write.
- `stringTail_text`: any text, whatever has to be escaped in it.
- `spacedChars`: one printer with gaps of any blanks, of which both printers are cases.
- `Legible`: values that can be written. `items_spacedItems`, `members_spacedMembers`: rows of values that are read back;
  `Legible.isRead`: hence all legible values, by the way they are built.
- `read?_compact`, `read?_pretty`: so it is with whole texts, on one line or one item a line.
- `legible_float` and the like: what the encoders write is legible.
-/
import Mathlib.Tactic
import BrokerSim.Json.Printer
import BrokerSim.Proofs.Numerals

namespace BrokerSim

open Decimal

namespace Json

/-! ## Strings -/

/-- a control character is escaped by its two last hexadecimal digits -/
theorem hexWord?_control : ∀ n < 32, ∃ a b, (if n < 16 then ['0'] else []) ++ Text.hexDigits n = [a, b] ∧
    hexWord? '0' '0' a b = some n := by
  have hall : ∀ n < 32, ((if n < 16 then ['0'] else []) ++ Text.hexDigits n).length = 2 ∧
      hexWord? '0' '0' (((if n < 16 then ['0'] else []) ++ Text.hexDigits n).headD '0')
        (((if n < 16 then ['0'] else []) ++ Text.hexDigits n).getLastD '0') = some n := by decide +kernel
  intro n hn
  obtain ⟨htwo, hword⟩ := hall n hn
  obtain ⟨a, b, heq⟩ := List.length_eq_two.1 htwo
  rw [heq] at hword
  exact ⟨a, b, heq, hword⟩

/-- one code point more in front -/
def ahead (unit : Nat) (x : List Nat × List Char) : List Nat × List Char := (unit :: x.1, x.2)

theorem stringBody_plain {c : Char} (hq : c ≠ '"') (hb : c ≠ '\\') (hc : ¬ c.toNat < 0x20) (rest : List Char) :
    stringBody (c :: rest) = (stringBody rest).map (ahead c.toNat) := by
  rw [stringBody.eq_def]
  split
  · next heq => exact absurd (List.cons.inj heq).1 hq
  · next heq => exact absurd (List.cons.inj heq).1 hb
  · next heq => exact absurd (List.cons.inj heq).1 hb
  · next heq =>
    cases heq
    rw [if_neg (by simp [hc, hb])]
    cases stringBody rest <;> rfl
  · next heq => cases heq

theorem stringBody_short {e c : Char} (hu : e ≠ 'u') (he : shortEscape? e = some c) (rest : List Char) :
    stringBody ('\\' :: e :: rest) = (stringBody rest).map (ahead c.toNat) := by
  rw [stringBody.eq_def]
  split
  · next heq => cases heq
  · next heq =>
    cases heq
    exact absurd rfl hu
  · next heq =>
    cases heq
    rw [he]
    cases stringBody rest <;> rfl
  · next hother heq =>
    cases heq
    exact (hother _ _ rfl rfl).elim
  · next heq => cases heq

theorem stringBody_unicode {a b c d : Char} {unit : Nat} (h : hexWord? a b c d = some unit) (rest : List Char) :
    stringBody ('\\' :: 'u' :: a :: b :: c :: d :: rest) = (stringBody rest).map (ahead unit) := by
  rw [stringBody, h]
  cases stringBody rest <;> rfl

theorem stringBody_control {c : Char} (hc : c.toNat < 0x20) (rest : List Char) :
    stringBody (['\\', 'u', '0', '0'] ++ (if c.toNat < 0x10 then ['0'] else []) ++ Text.hexDigits c.toNat ++ rest) =
      (stringBody rest).map (ahead c.toNat) := by
  obtain ⟨a, b, hdigits, hword⟩ := hexWord?_control c.toNat hc
  rw [List.append_assoc ['\\', 'u', '0', '0'], hdigits]
  exact stringBody_unicode hword rest

/-- **An escaped character is read as its code point.** -/
theorem stringBody_escapeChar (c : Char) (rest : List Char) :
    stringBody (escapeChar c ++ rest) = (stringBody rest).map (ahead c.toNat) := by
  have short : ∀ {e k : Char}, c = k → e ≠ 'u' → shortEscape? e = some k →
      stringBody (['\\', e] ++ rest) = (stringBody rest).map (ahead c.toNat) := by
    rintro e k rfl hu he
    exact stringBody_short hu he rest
  unfold escapeChar
  by_cases hquote : c = '"'
  · rw [if_pos hquote]
    exact short hquote (by decide) rfl
  by_cases hback : c = '\\'
  · rw [if_neg hquote, if_pos hback]
    exact short hback (by decide) rfl
  rw [if_neg hquote, if_neg hback]
  split
  · next h => exact short h (by decide) rfl
  split
  · next h => exact short h (by decide) rfl
  split
  · next h => exact short h (by decide) rfl
  split
  · next h => exact short h (by decide) rfl
  split
  · next h => exact short h (by decide) rfl
  split
  · next h => exact stringBody_control h rest
  · next h => exact stringBody_plain hquote hback h rest

/-- an escaped text is read as its code points -/
theorem stringBody_flatMap (cs rest : List Char) :
    stringBody (cs.flatMap escapeChar ++ '"' :: rest) = some (cs.map Char.toNat, rest) := by
  induction cs with
  | nil => rfl
  | cons c cs ih =>
    rw [List.flatMap_cons, List.append_assoc, stringBody_escapeChar, ih]
    rfl

/-- a character is no surrogate -/
theorem not_surrogate (c : Char) : isLeading c.toNat = false ∧ isTrailing c.toNat = false := by
  have hvalid : c.toNat < 0xd800 ∨ 0xdfff < c.toNat ∧ c.toNat < 0x110000 := c.valid
  unfold isLeading isTrailing
  constructor
  all_goals
    rw [Bool.and_eq_false_iff, decide_eq_false_iff_not, decide_eq_false_iff_not]
    omega

/-- the code points of characters are joined to these characters -/
theorem joinSurrogates_map (cs : List Char) : joinSurrogates (cs.map Char.toNat) = some cs := by
  induction cs with
  | nil => rfl
  | cons c cs ih =>
    obtain ⟨hlead, htrail⟩ := not_surrogate c
    cases cs with
    | nil =>
      change joinSurrogates [c.toNat] = _
      rw [joinSurrogates, hlead, htrail, Char.ofNat_toNat]
      rfl
    | cons d cs =>
      change joinSurrogates (c.toNat :: d.toNat :: cs.map Char.toNat) = _
      rw [joinSurrogates, hlead, htrail]
      change (joinSurrogates ((d :: cs).map Char.toNat)).bind _ = _
      rw [ih, Option.bind_some, Char.ofNat_toNat]
      rfl

/-- **A text is read back from between its quotes.** -/
theorem stringTail_text (s : String) (rest : List Char) :
    stringTail (s.toList.flatMap escapeChar ++ '"' :: rest) = some (some s, rest) := by
  rw [stringTail, stringBody_flatMap, Option.map_some]
  dsimp only
  rw [joinSurrogates_map, Option.map_some, String.ofList_toList]

/-! ## One printer for both ways of writing -/

mutual

/-- a value with a gap wherever a line may begin, and some space behind each colon -/
def spacedChars (gap : Nat → List Char) (space : List Char) (level : Nat) : Json → List Char
  | .null => "null".toList
  | .bool b => (if b then "true" else "false").toList
  | .number n => n.chars
  | .string s => stringChars s
  | .array [] => ['[', ']']
  | .array (v :: vs) =>
    '[' :: (gap (level + 1) ++ (spacedChars gap space (level + 1) v ++
      (spacedItems gap space (level + 1) vs ++ (gap level ++ [']']))))
  | .object [] => ['{', '}']
  | .object ((k, v) :: ms) =>
    '{' :: (gap (level + 1) ++ (stringChars k ++ ':' :: (space ++ (spacedChars gap space (level + 1) v ++
      (spacedMembers gap space (level + 1) ms ++ (gap level ++ ['}']))))))

def spacedItems (gap : Nat → List Char) (space : List Char) (level : Nat) : List Json → List Char
  | [] => []
  | v :: vs => ',' :: (gap level ++ (spacedChars gap space level v ++ spacedItems gap space level vs))

def spacedMembers (gap : Nat → List Char) (space : List Char) (level : Nat) : List (Option String × Json) → List Char
  | [] => []
  | (k, v) :: ms =>
    ',' :: (gap level ++ (stringChars k ++ ':' :: (space ++ (spacedChars gap space level v ++
      spacedMembers gap space level ms))))

end

mutual

/-- without gaps a value is written on one line -/
theorem spacedChars_nil (level : Nat) (v : Json) : spacedChars (fun _ => []) [] level v = compactChars v := by
  cases v with
  | null | bool | number | string => rfl
  | array vs =>
    cases vs with
    | nil => rfl
    | cons v vs =>
      rw [spacedChars, spacedChars_nil, spacedItems_nil, compactChars]
      rfl
  | object ms =>
    rcases ms with - | ⟨⟨k, v⟩, ms⟩
    · rfl
    · rw [spacedChars, spacedChars_nil, spacedMembers_nil, compactChars]
      rfl

theorem spacedItems_nil (level : Nat) (vs : List Json) : spacedItems (fun _ => []) [] level vs = compactItems vs := by
  cases vs with
  | nil => rfl
  | cons v vs =>
    rw [spacedItems, spacedChars_nil, spacedItems_nil, compactItems]
    rfl

theorem spacedMembers_nil (level : Nat) (ms : List (Option String × Json)) :
    spacedMembers (fun _ => []) [] level ms = compactMembers ms := by
  rcases ms with - | ⟨⟨k, v⟩, ms⟩
  · rfl
  · rw [spacedMembers, spacedChars_nil, spacedMembers_nil, compactMembers]
    rfl

end

mutual

/-- with new lines and blanks for gaps a value is written one item a line -/
theorem spacedChars_newline (level : Nat) (v : Json) : spacedChars newline [' '] level v = prettyChars level v := by
  cases v with
  | null | bool | number | string => rfl
  | array vs =>
    cases vs with
    | nil => rfl
    | cons v vs => rw [spacedChars, spacedChars_newline, spacedItems_newline, prettyChars]
  | object ms =>
    rcases ms with - | ⟨⟨k, v⟩, ms⟩
    · rfl
    · rw [spacedChars, spacedChars_newline, spacedMembers_newline, prettyChars]
      rfl

theorem spacedItems_newline (level : Nat) (vs : List Json) : spacedItems newline [' '] level vs = prettyItems level vs := by
  cases vs with
  | nil => rfl
  | cons v vs => rw [spacedItems, spacedChars_newline, spacedItems_newline, prettyItems]

theorem spacedMembers_newline (level : Nat) (ms : List (Option String × Json)) :
    spacedMembers newline [' '] level ms = prettyMembers level ms := by
  rcases ms with - | ⟨⟨k, v⟩, ms⟩
  · rfl
  · rw [spacedMembers, spacedChars_newline, spacedMembers_newline, prettyMembers]
    rfl

end

/-! ## Blanks -/

/-- nothing but blanks -/
def AreBlank (cs : List Char) : Prop := ∀ c ∈ cs, isSpace c = true

theorem areBlank_nil : AreBlank [] := fun _ h => absurd h List.not_mem_nil

theorem skipSpaces_append {cs : List Char} (h : AreBlank cs) (rest : List Char) : skipSpaces (cs ++ rest) = skipSpaces rest :=
  List.dropWhile_append_of_pos h

theorem skipSpaces_cons {c : Char} (h : isSpace c = false) (rest : List Char) : skipSpaces (c :: rest) = c :: rest :=
  List.dropWhile_cons_of_neg (by simp [h])

/-- blanks in front of a value are passed over -/
theorem value_append {cs : List Char} (h : AreBlank cs) (fuel : Nat) (rest : List Char) :
    value fuel (cs ++ rest) = value fuel rest := by
  cases fuel with
  | zero => rfl
  | succ fuel => unfold value; rw [skipSpaces_append h]

/-! ## Values -/

/-- members whose keys have texts -/
def keyed (members : List (String × Json)) : List (Option String × Json) := members.map fun m => (some m.1, m.2)

theorem record_eq (members : List (String × Json)) : record members = .object (keyed members) := rfl

/-- values with nothing in them that cannot be written: their numbers are valid, and their strings have texts -/
inductive Legible : Json → Prop
  | null : Legible .null
  | bool (b : Bool) : Legible (.bool b)
  | number {n : Numeral} (h : n.IsValid) : Legible (.number n)
  | text (s : String) : Legible (.text s)
  | array {items : List Json} (h : ∀ v ∈ items, Legible v) : Legible (.array items)
  | record {members : List (String × Json)} (h : ∀ m ∈ members, Legible m.2) : Legible (.record members)

section Spaced

variable {gap : Nat → List Char} {space : List Char} (hgap : ∀ level, AreBlank (gap level)) (hspace : AreBlank space)

/-- the value is read back from its characters, whatever follows that cannot belong to a numeral, if there is fuel for
    two turns at every character -/
def IsRead (gap : Nat → List Char) (space : List Char) (v : Json) : Prop :=
  ∀ level fuel rest, Stops rest → 2 * (spacedChars gap space level v).length ≤ fuel →
    value fuel (spacedChars gap space level v ++ rest) = some (v, rest)

/-- a blank or a mark ends a numeral -/
theorem stops_cons {c : Char} (h : isSpace c = true ∨ c = ',' ∨ c = ']' ∨ c = '}') (rest : List Char) :
    Stops (c :: rest) := by
  rintro d ⟨⟩
  have hc : c = ' ' ∨ c = '\t' ∨ c = '\n' ∨ c = '\r' ∨ c = ',' ∨ c = ']' ∨ c = '}' := by
    simpa [isSpace, or_assoc] using h
  rcases hc with rfl | rfl | rfl | rfl | rfl | rfl | rfl <;> decide

theorem stops_append {cs : List Char} (h : AreBlank cs) {c : Char} (hc : c = ',' ∨ c = ']' ∨ c = '}')
    (rest : List Char) : Stops (cs ++ c :: rest) := by
  cases cs with
  | nil => exact stops_cons (.inr hc) rest
  | cons d cs => exact stops_cons (.inl (h d List.mem_cons_self)) _

theorem stringChars_append (s : String) (rest : List Char) :
    stringChars (some s) ++ rest = '"' :: (s.toList.flatMap escapeChar ++ '"' :: rest) := by
  rw [stringChars, List.append_assoc, List.append_assoc]
  rfl

/-- blanks in front of a text are passed over -/
theorem skipSpaces_text {cs : List Char} (h : AreBlank cs) (s : String) (rest : List Char) :
    skipSpaces (cs ++ (stringChars (some s) ++ rest)) = stringChars (some s) ++ rest := by
  rw [skipSpaces_append h, stringChars_append, skipSpaces_cons rfl]

theorem head_chars {n : Numeral} (h : n.IsValid) : ∃ c cs, n.chars = c :: cs ∧ (c = '-' ∨ c.isDigit = true) := by
  rw [chars_eq]
  cases n.negative with
  | true => exact ⟨'-', _, rfl, .inl rfl⟩
  | false =>
    obtain ⟨d, ds, hd⟩ := List.exists_cons_of_ne_nil h.whole.nonempty
    exact ⟨d, _, by rw [hd]; rfl, .inr (h.whole.digits d (hd ▸ List.mem_cons_self))⟩

/-- no character of a numeral is a blank or a mark -/
theorem ne_of_sign_or_digit {c d : Char} (hc : c = '-' ∨ c.isDigit = true) (hd : d.isDigit = false) (hs : d ≠ '-') :
    c ≠ d := by
  rintro rfl
  rcases hc with rfl | hdigit
  · exact hs rfl
  · exact Bool.false_ne_true (hd.symm.trans hdigit)

theorem isSpace_of_sign_or_digit {c : Char} (hc : c = '-' ∨ c.isDigit = true) : isSpace c = false := by
  unfold isSpace
  simp only [Bool.or_eq_false_iff, beq_eq_false_iff_ne]
  exact ⟨⟨⟨ne_of_sign_or_digit hc rfl (by decide), ne_of_sign_or_digit hc rfl (by decide)⟩,
    ne_of_sign_or_digit hc rfl (by decide)⟩, ne_of_sign_or_digit hc rfl (by decide)⟩

/-- a number is read as a numeral -/
theorem value_numeral {c : Char} (hc : c = '-' ∨ c.isDigit = true) (fuel : Nat) (cs : List Char) :
    value (fuel + 1) (c :: cs) = (numeral (c :: cs)).map fun x => (.number x.1, x.2) := by
  have hother : ∀ {d : Char} {ds : List Char}, d.isDigit = false → d ≠ '-' → c :: cs ≠ d :: ds := fun hd hs heq =>
    ne_of_sign_or_digit hc hd hs (List.cons.inj heq).1
  unfold value
  rw [skipSpaces_cons (isSpace_of_sign_or_digit hc)]
  split
  · next heq => exact absurd heq (hother rfl (by decide))
  · next heq => exact absurd heq (hother rfl (by decide))
  · next heq => exact absurd heq (hother rfl (by decide))
  · next heq => exact absurd heq (hother rfl (by decide))
  · next heq => exact absurd heq (hother rfl (by decide))
  · next heq => exact absurd heq (hother rfl (by decide))
  · rfl

/-- a quote is followed by a text -/
theorem value_text (fuel : Nat) (s : String) (rest : List Char) :
    value (fuel + 1) (stringChars (some s) ++ rest) = some (.text s, rest) := by
  rw [stringChars_append]
  unfold value
  rw [skipSpaces_cons rfl]
  split
  · next heq => cases heq
  · next heq => cases heq
  · next heq => cases heq
  · next heq =>
    cases heq
    rw [stringTail_text]
    rfl
  · next heq => cases heq
  · next heq => cases heq
  · next hother _ _ => exact (hother _ rfl).elim

/-- an opening bracket is followed by items, unless the closing one stands next -/
theorem value_items {fuel : Nat} {cs next rest : List Char} {vs : List Json} (hcs : skipSpaces cs = next)
    (hc : ']' ∉ next.head?) (h : items fuel next = some (vs, rest)) :
    value (fuel + 1) ('[' :: cs) = some (.array vs, rest) := by
  unfold value
  rw [skipSpaces_cons rfl]
  split
  · next heq => cases heq
  · next heq => cases heq
  · next heq => cases heq
  · next heq => cases heq
  · next heq =>
    cases heq
    rw [hcs]
    split
    · exact absurd rfl hc
    · rw [h]
      rfl
  · next heq => cases heq
  · next hother _ => exact (hother cs rfl).elim

/-- an opening brace is followed by members, unless the closing one stands next -/
theorem value_members {fuel : Nat} {cs next rest : List Char} {ms : List (Option String × Json)}
    (hcs : skipSpaces cs = next) (hc : '}' ∉ next.head?) (h : members fuel next = some (ms, rest)) :
    value (fuel + 1) ('{' :: cs) = some (.object ms, rest) := by
  unfold value
  rw [skipSpaces_cons rfl]
  split
  · next heq => cases heq
  · next heq => cases heq
  · next heq => cases heq
  · next heq => cases heq
  · next heq => cases heq
  · next heq =>
    cases heq
    rw [hcs]
    split
    · exact absurd rfl hc
    · rw [h]
      rfl
  · next hother => exact (hother cs rfl).elim

/-- the first character of a value is neither a blank nor a mark that ends something -/
theorem Legible.head {v : Json} (h : Legible v) (gap : Nat → List Char) (space : List Char) (level : Nat) :
    ∃ c cs, spacedChars gap space level v = c :: cs ∧ isSpace c = false ∧ c ≠ ']' ∧ c ≠ '}' := by
  cases h with
  | null => exact ⟨'n', _, rfl, by decide⟩
  | bool b => cases b <;> exact ⟨_, _, rfl, by decide⟩
  | @number n h =>
    obtain ⟨c, cs, heq, hc⟩ := head_chars h
    exact ⟨c, cs, heq, isSpace_of_sign_or_digit hc, ne_of_sign_or_digit hc rfl (by decide),
      ne_of_sign_or_digit hc rfl (by decide)⟩
  | text s => exact ⟨'"', _, rfl, by decide⟩
  | @array items h => cases items <;> exact ⟨'[', _, by rw [spacedChars], by decide⟩
  | @record members h => rcases members with - | ⟨⟨k, v⟩, ms⟩ <;> exact ⟨'{', _, rfl, by decide⟩

include hgap in
/-- **The items of an array are read back,** from one of them on. -/
theorem items_spacedItems {v : Json} {vs : List Json} (h : ∀ w ∈ v :: vs, IsRead gap space w) (level closing fuel : Nat)
    (lead : List Char) (hlead : AreBlank lead) (rest : List Char)
    (hfuel : 2 * ((spacedChars gap space level v).length + (spacedItems gap space level vs).length + 1) ≤ fuel) :
    items fuel (lead ++ (spacedChars gap space level v ++
      (spacedItems gap space level vs ++ (gap closing ++ ']' :: rest)))) = some (v :: vs, rest) := by
  induction vs generalizing v fuel lead with
  | nil =>
    obtain ⟨fuel, rfl⟩ : ∃ k, fuel = k + 1 := ⟨fuel - 1, by omega⟩
    have hv := h v List.mem_cons_self level fuel (gap closing ++ ']' :: rest)
      (stops_append (hgap closing) (.inr (.inl rfl)) rest) (by omega)
    rw [items, value_append hlead, spacedItems, List.nil_append, hv]
    simp only [Option.bind_eq_bind, Option.bind_some]
    rw [skipSpaces_append (hgap closing), skipSpaces_cons rfl]
    rfl
  | cons w vs ih =>
    obtain ⟨fuel, rfl⟩ : ∃ k, fuel = k + 1 := ⟨fuel - 1, by omega⟩
    rw [spacedItems] at hfuel ⊢
    simp only [List.length_cons, List.length_append] at hfuel
    have hv := h v List.mem_cons_self level fuel (',' :: (gap level ++ (spacedChars gap space level w ++
      (spacedItems gap space level vs ++ (gap closing ++ ']' :: rest))))) (stops_cons (.inr (.inl rfl)) _) (by omega)
    have hvs := ih (fun x hx => h x (List.mem_cons_of_mem v hx)) fuel _ (hgap level) (by omega)
    rw [items, value_append hlead]
    simp only [List.cons_append, List.append_assoc]
    rw [hv]
    simp only [Option.bind_eq_bind, Option.bind_some]
    rw [skipSpaces_cons rfl]
    simp only [hvs, Option.bind_some]
    rfl

include hgap hspace in
/-- **The members of an object are read back,** from one of them on. -/
theorem members_spacedMembers {k : String} {v : Json} {ms : List (String × Json)}
    (h : ∀ m ∈ (k, v) :: ms, IsRead gap space m.2) (level closing fuel : Nat)
    (lead : List Char) (hlead : AreBlank lead) (rest : List Char)
    (hfuel : 2 * ((spacedChars gap space level v).length + (spacedMembers gap space level (keyed ms)).length + 1) ≤ fuel) :
    members fuel (lead ++ (stringChars (some k) ++ ':' :: (space ++ (spacedChars gap space level v ++
      (spacedMembers gap space level (keyed ms) ++ (gap closing ++ '}' :: rest)))))) =
        some ((some k, v) :: keyed ms, rest) := by
  induction ms generalizing k v fuel lead with
  | nil =>
    obtain ⟨fuel, rfl⟩ : ∃ k, fuel = k + 1 := ⟨fuel - 1, by omega⟩
    have hread : IsRead gap space v := h (k, v) List.mem_cons_self
    have hv := hread level fuel (gap closing ++ '}' :: rest)
      (stops_append (hgap closing) (.inr (.inr rfl)) rest) (by omega)
    unfold members
    rw [skipSpaces_text hlead, stringChars_append]
    simp only [stringTail_text, Option.bind_eq_bind, Option.bind_some]
    rw [skipSpaces_cons rfl]
    simp only [value_append hspace, keyed, List.map_nil, spacedMembers, List.nil_append, hv, Option.bind_some]
    rw [skipSpaces_append (hgap closing), skipSpaces_cons rfl]
    rfl
  | cons m ms ih =>
    obtain ⟨j, w⟩ := m
    obtain ⟨fuel, rfl⟩ : ∃ k, fuel = k + 1 := ⟨fuel - 1, by omega⟩
    have hread : IsRead gap space v := h (k, v) List.mem_cons_self
    change 2 * (_ + (spacedMembers gap space level ((some j, w) :: keyed ms)).length + 1) ≤ _ at hfuel
    change members _ (_ ++ (_ ++ ':' :: (_ ++ (_ ++
      (spacedMembers gap space level ((some j, w) :: keyed ms) ++ _))))) = some ((some k, v) :: (some j, w) :: keyed ms, _)
    rw [spacedMembers] at hfuel ⊢
    simp only [List.length_cons, List.length_append] at hfuel
    have hv := hread level fuel (',' :: (gap level ++ (stringChars (some j) ++ ':' :: (space ++
      (spacedChars gap space level w ++ (spacedMembers gap space level (keyed ms) ++ (gap closing ++ '}' :: rest)))))))
      (stops_cons (.inr (.inl rfl)) _) (by omega)
    have hms := ih (fun x hx => h x (List.mem_cons_of_mem (k, v) hx)) fuel _ (hgap level) (by omega)
    unfold members
    rw [skipSpaces_text hlead, stringChars_append]
    simp only [stringTail_text, Option.bind_eq_bind, Option.bind_some]
    rw [skipSpaces_cons rfl]
    simp only [value_append hspace, List.cons_append, List.append_assoc, hv, Option.bind_some]
    rw [skipSpaces_cons rfl]
    simp only [hms, Option.bind_some]
    rfl

/-- a value that is written has a character, so there is fuel for a turn -/
theorem IsRead.of_succ {v : Json} (hv : Legible v)
    (h : ∀ level fuel rest, Stops rest → 2 * (spacedChars gap space level v).length ≤ fuel + 1 →
      value (fuel + 1) (spacedChars gap space level v ++ rest) = some (v, rest)) : IsRead gap space v := by
  intro level fuel rest hrest hfuel
  obtain ⟨c, cs, hhead, -⟩ := hv.head gap space level
  obtain ⟨fuel, rfl⟩ : ∃ k, fuel = k + 1 := ⟨fuel - 1, by rw [hhead, List.length_cons] at hfuel; omega⟩
  exact h level fuel rest hrest hfuel

include hgap in
theorem isRead_array {vs : List Json} (hv : ∀ v ∈ vs, Legible v) (h : ∀ v ∈ vs, IsRead gap space v) :
    IsRead gap space (.array vs) := by
  refine .of_succ (.array hv) fun level fuel rest _ hfuel => ?_
  cases vs with
  | nil => rfl
  | cons v vs =>
    obtain ⟨c, cs, hhead, hblank, hclose, -⟩ := (hv v List.mem_cons_self).head gap space (level + 1)
    rw [spacedChars] at hfuel ⊢
    simp only [List.length_cons, List.length_append] at hfuel
    have hitems := items_spacedItems hgap h (level + 1) level fuel [] areBlank_nil rest (by omega)
    simp only [List.cons_append, List.append_assoc, List.nil_append] at hitems ⊢
    rw [hhead, List.cons_append] at hitems ⊢
    have hskip := skipSpaces_append (hgap (level + 1)) (c :: (cs ++ (spacedItems gap space (level + 1) vs ++
      (gap level ++ ']' :: rest))))
    refine value_items (hskip.trans (skipSpaces_cons hblank _)) ?_ hitems
    rintro ⟨⟩
    exact hclose rfl

include hgap hspace in
theorem isRead_record {ms : List (String × Json)} (hm : ∀ m ∈ ms, Legible m.2) (h : ∀ m ∈ ms, IsRead gap space m.2) :
    IsRead gap space (.record ms) := by
  refine .of_succ (.record hm) fun level fuel rest _ hfuel => ?_
  rcases ms with - | ⟨⟨k, v⟩, ms⟩
  · rfl
  · change 2 * (spacedChars gap space level (.object ((some k, v) :: keyed ms))).length ≤ _ at hfuel
    change value _ (spacedChars gap space level (.object ((some k, v) :: keyed ms)) ++ _) = _
    rw [spacedChars] at hfuel ⊢
    simp only [List.length_cons, List.length_append] at hfuel
    have hmembers := members_spacedMembers hgap hspace h (level + 1) level fuel [] areBlank_nil rest (by omega)
    have hskip := skipSpaces_text (hgap (level + 1)) k (':' :: (space ++ (spacedChars gap space (level + 1) v ++
      (spacedMembers gap space (level + 1) (keyed ms) ++ (gap level ++ '}' :: rest)))))
    simp only [List.cons_append, List.append_assoc, List.nil_append] at hmembers ⊢
    refine value_members hskip ?_ hmembers
    rw [stringChars_append]
    rintro ⟨⟩

include hgap hspace in
/-- **A legible value is read back,** however its lines begin. -/
theorem Legible.isRead {v : Json} (h : Legible v) : IsRead gap space v := by
  induction h with
  | null => exact .of_succ .null fun _ _ _ _ _ => rfl
  | bool b => exact .of_succ (.bool b) fun _ _ _ _ _ => by cases b <;> rfl
  | @number n h =>
    refine .of_succ (.number h) fun level fuel rest hrest _ => ?_
    obtain ⟨c, cs, heq, hc⟩ := head_chars h
    have hread := numeral_chars h hrest
    change value (fuel + 1) (n.chars ++ rest) = _
    rw [heq, List.cons_append] at hread ⊢
    rw [value_numeral hc, hread]
    rfl
  | text s => exact .of_succ (.text s) fun _ fuel rest _ _ => value_text fuel s rest
  | array hv ih => exact isRead_array hgap hv ih
  | record hm ih => exact isRead_record hgap hspace hm ih

include hgap hspace in
theorem read?_spaced {v : Json} (h : Legible v) (level : Nat) :
    read? (String.ofList (spacedChars gap space level v)) = some v := by
  have hread := h.isRead hgap hspace level (2 * (spacedChars gap space level v).length + 2) [] (fun _ h => nomatch h)
    (Nat.le_add_right _ _)
  rw [List.append_nil] at hread
  unfold read?
  rw [String.toList_ofList]
  dsimp only
  rw [hread]
  rfl

end Spaced

/-- **What is written on one line is read back.** -/
theorem read?_compact {v : Json} (h : Legible v) : read? v.compact = some v := by
  rw [compact, ← spacedChars_nil 0]
  exact read?_spaced (fun _ => areBlank_nil) areBlank_nil h 0

/-- **What is written one item a line is read back.** -/
theorem read?_pretty {v : Json} (h : Legible v) : read? v.pretty = some v := by
  have hnewline : ∀ level, AreBlank (newline level) := by
    intro level c hc
    rcases List.mem_cons.1 hc with rfl | hc
    · rfl
    · rw [(List.mem_replicate.1 hc).2]
      rfl
  have hspace : AreBlank [' '] := by simp [AreBlank, isSpace]
  rw [pretty, ← spacedChars_newline 0]
  exact read?_spaced hnewline hspace h 0

/-! ## What the encoders write -/

theorem legible_nat (n : Nat) : Legible (.nat n) := .number (Numeral.isValid_ofNat n)

theorem legible_float (x : Float) : Legible (.float x) := by
  unfold float
  cases h : floatLayout.numeral? x with
  | none => exact .null
  | some n => exact .number (Layout.isValid_of_numeral? h)

theorem legible_optional {α : Type} {encode : α → Json} (h : ∀ a, Legible (encode a)) (a? : Option α) :
    Legible (.optional encode a?) := by
  cases a? with
  | none => exact .null
  | some a => exact h a

theorem legible_list {α : Type} {encode : α → Json} (h : ∀ a, Legible (encode a)) (items : List α) :
    Legible (.list encode items) := by
  refine .array fun v hv => ?_
  obtain ⟨a, -, rfl⟩ := List.mem_map.1 hv
  exact h a

end Json

end BrokerSim
