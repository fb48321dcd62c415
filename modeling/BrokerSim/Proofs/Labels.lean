/-
The grammar of labels, and that printing a class and reading it again gives the class.
- `trimsTo_iff`: trimming is the only way to take blanks off both ends until there are none left.
- `parse_eq_iff`: a label is read as a class if the grammar spells that class, and as its own trimmed text if the
  grammar spells none.
- `parse_surrounded`, `parse_label`: blanks around a label do not matter, and the label of what was read is read alike.
-/
import BrokerSim.Workload.Class
import BrokerSim.Workload.Sizing
import Mathlib.Tactic

namespace BrokerSim

namespace Text

/-! ## Blanks and trimming -/

/-- the code points with the property White_Space -/
def whiteSpace : List Nat :=
  [0x9, 0xa, 0xb, 0xc, 0xd, 0x20, 0x85, 0xa0, 0x1680, 0x2000, 0x2001, 0x2002, 0x2003, 0x2004, 0x2005, 0x2006, 0x2007,
    0x2008, 0x2009, 0x200a, 0x2028, 0x2029, 0x202f, 0x205f, 0x3000]

theorem isBlank_iff (c : Char) : isBlank c = true ↔ c.toNat ∈ whiteSpace := by
  simp only [isBlank, whiteSpace, Bool.or_eq_true, Bool.and_eq_true, decide_eq_true_eq, beq_iff_eq, List.mem_cons,
    List.not_mem_nil, or_false]
  omega

/-- `core` is what is left of `cs` when the white space at both ends is taken away -/
structure TrimsTo (cs core : List Char) : Prop where
  around : ∃ before after : List Char, (∀ c ∈ before, c.toNat ∈ whiteSpace) ∧ (∀ c ∈ after, c.toNat ∈ whiteSpace) ∧
    cs = before ++ core ++ after
  first : ∀ c ∈ core.head?, c.toNat ∉ whiteSpace
  last : ∀ c ∈ core.getLast?, c.toNat ∉ whiteSpace

/-- nothing is dropped when the first character is not blank -/
theorem dropWhile_unblank {cs : List Char} (h : ∀ c ∈ cs.head?, c.toNat ∉ whiteSpace) :
    cs.dropWhile isBlank = cs := by
  cases cs with
  | nil => rfl
  | cons c cs =>
    have hc : ¬ isBlank c = true := fun k => h c rfl ((isBlank_iff c).1 k)
    exact List.dropWhile_cons_of_neg hc

/-- and all of a row of blanks is -/
theorem dropWhile_blanks {blanks : List Char} (h : ∀ c ∈ blanks, c.toNat ∈ whiteSpace) (cs : List Char) :
    (blanks ++ cs).dropWhile isBlank = cs.dropWhile isBlank :=
  List.dropWhile_append_of_pos fun c hc => (isBlank_iff c).2 (h c hc)

/-- what is left begins with no blank -/
theorem head?_dropWhile_isBlank (cs : List Char) : ∀ c ∈ (cs.dropWhile isBlank).head?, c.toNat ∉ whiteSpace := by
  intro c hc hw
  have hn := List.head?_dropWhile_not isBlank cs
  rw [Option.mem_def.1 hc] at hn
  exact absurd ((isBlank_iff c).2 hw) (by simpa using hn)

/-- and what is taken is blank -/
theorem of_mem_takeWhile_isBlank {cs : List Char} {c : Char} (h : c ∈ cs.takeWhile isBlank) : c.toNat ∈ whiteSpace :=
  (isBlank_iff c).1 (List.all_eq_true.1 List.all_takeWhile c h)

theorem trimsTo_trimChars (cs : List Char) : TrimsTo cs (trimChars cs) := by
  -- the blanks in front come off first, then those behind, which stand in front of the reversed list
  have front : cs = cs.takeWhile isBlank ++ cs.dropWhile isBlank := List.takeWhile_append_dropWhile.symm
  have behind : cs.dropWhile isBlank = trimChars cs ++ ((cs.dropWhile isBlank).reverse.takeWhile isBlank).reverse := by
    have h := congrArg List.reverse
      (List.takeWhile_append_dropWhile (p := isBlank) (l := (cs.dropWhile isBlank).reverse))
    rw [List.reverse_append, List.reverse_reverse] at h
    exact h.symm
  refine ⟨⟨cs.takeWhile isBlank, ((cs.dropWhile isBlank).reverse.takeWhile isBlank).reverse, ?_, ?_, ?_⟩, ?_, ?_⟩
  · intro c hc
    exact of_mem_takeWhile_isBlank hc
  · intro c hc
    exact of_mem_takeWhile_isBlank (List.mem_reverse.1 hc)
  · rw [List.append_assoc, ← behind]
    exact front
  · intro c hc
    apply head?_dropWhile_isBlank cs c
    rw [behind, List.head?_append, Option.mem_def.1 hc]
    rfl
  · intro c hc
    apply head?_dropWhile_isBlank (cs.dropWhile isBlank).reverse c
    rwa [← List.getLast?_reverse]

theorem TrimsTo.trimChars_eq {cs core : List Char} (h : TrimsTo cs core) : trimChars cs = core := by
  obtain ⟨before, after, hb, ha, rfl⟩ := h.around
  rcases eq_or_ne core [] with rfl | hne
  · -- nothing but blanks
    unfold trimChars
    rw [List.append_nil, dropWhile_blanks hb, ← List.append_nil after, dropWhile_blanks ha]
    rfl
  · have unblank : (core ++ after).dropWhile isBlank = core ++ after := by
      apply dropWhile_unblank
      rw [List.head?_append_of_ne_nil _ hne]
      exact h.first
    have turned : ∀ c ∈ core.reverse.head?, c.toNat ∉ whiteSpace := by
      rw [List.head?_reverse]
      exact h.last
    unfold trimChars
    rw [List.append_assoc, dropWhile_blanks hb, unblank, List.reverse_append,
      dropWhile_blanks (fun c hc => ha c (List.mem_reverse.1 hc)), dropWhile_unblank turned, List.reverse_reverse]

/-- trimming takes the blanks off both ends, and there is only one way to do so -/
theorem trimsTo_iff (s t : String) : TrimsTo s.toList t.toList ↔ t = trim s := by
  constructor
  · intro h
    rw [trim, h.trimChars_eq, String.ofList_toList]
  · rintro rfl
    rw [trim, String.toList_ofList]
    exact trimsTo_trimChars s.toList

@[simp] theorem toList_trim (s : String) : (trim s).toList = trimChars s.toList := String.toList_ofList

/-- what is trimmed stays as it is -/
theorem trim_trim (s : String) : trim (trim s) = trim s := by
  have h := (trimsTo_iff s (trim s)).2 rfl
  exact ((trimsTo_iff (trim s) (trim s)).1 ⟨⟨[], [], by simp, by simp, by simp⟩, h.first, h.last⟩).symm

/-- more blanks around a text come off with the others -/
theorem trim_surrounded {before after : String} (hb : ∀ c ∈ before.toList, c.toNat ∈ whiteSpace)
    (ha : ∀ c ∈ after.toList, c.toNat ∈ whiteSpace) (s : String) : trim (before ++ s ++ after) = trim s := by
  have h := (trimsTo_iff s (trim s)).2 rfl
  obtain ⟨front, behind, hf, hr, hs⟩ := h.around
  refine ((trimsTo_iff _ _).1 ⟨⟨before.toList ++ front, behind ++ after.toList, ?_, ?_, ?_⟩, h.first, h.last⟩).symm
  · intro c hc
    exact (List.mem_append.1 hc).elim (hb c) (hf c)
  · intro c hc
    exact (List.mem_append.1 hc).elim (hr c) (ha c)
  · rw [String.toList_append, String.toList_append, hs]
    simp only [List.append_assoc]

end Text

namespace WorkloadClass

open Text

/-! ## The grammar -/

/-- the six words of the grammar, each with its class -/
inductive Word : String → WorkloadClass → Prop
  | light : Word "light" light
  | medium : Word "medium" medium
  | heavy : Word "heavy" heavy
  | initial : Word "initial" initial
  | peak : Word "peak" peak
  | late : Word "late" late

/-- with its capitals of the first 128 code points made small, `t` is a word of `c`, alone or with one `workload` right
    behind it -/
def Spells (t : String) (c : WorkloadClass) : Prop :=
  ∃ word, Word word c ∧
    (t.toList.map Char.toLower = word.toList ∨ t.toList.map Char.toLower = word.toList ++ "workload".toList)

theorem Word.isRecognized {word : String} {c : WorkloadClass} (h : Word word c) : c.isRecognized = true := by
  cases h <;> rfl

/-- no word is as long as `workload` -/
theorem Word.length_lt {word : String} {c : WorkloadClass} (h : Word word c) :
    word.toList.length < "workload".toList.length := by
  cases h <;> decide

/-- the stems are the words -/
theorem ofStem?_eq_some {cs : List Char} {c : WorkloadClass} :
    ofStem? cs = some c ↔ ∃ word, Word word c ∧ cs = word.toList := by
  constructor
  · intro h
    obtain ⟨⟨word, d⟩, found, rfl⟩ := Option.map_eq_some_iff.1 h
    have hit := List.find?_some found
    have listed := List.mem_of_find?_eq_some found
    refine ⟨word, ?_, (beq_iff_eq.1 hit).symm⟩
    simp only [stems, List.mem_cons, Prod.mk.injEq, List.not_mem_nil, or_false] at listed
    rcases listed with ⟨rfl, rfl⟩ | ⟨rfl, rfl⟩ | ⟨rfl, rfl⟩ | ⟨rfl, rfl⟩ | ⟨rfl, rfl⟩ | ⟨rfl, rfl⟩ <;> constructor
  · rintro ⟨word, hw, rfl⟩
    cases hw <;> rfl

/-- a suffix is dropped once: what is left without one had it, or has none -/
theorem dropSuffix_eq_iff {suffix cs word : List Char} :
    dropSuffix suffix cs = word ↔ cs = word ++ suffix ∨ (¬ suffix <:+ cs ∧ cs = word) := by
  unfold dropSuffix
  split
  · rename_i h
    have hs : suffix <:+ cs := List.isSuffixOf_iff_suffix.1 h
    obtain ⟨before, rfl⟩ := hs
    simp
  · rename_i h
    have hs : ¬ suffix <:+ cs := fun k => h (List.isSuffixOf_iff_suffix.2 k)
    constructor
    · exact fun k => .inr ⟨hs, k⟩
    · rintro (rfl | ⟨-, k⟩)
      · exact absurd (List.suffix_append _ _) hs
      · exact k

/-- the stem of a label is a word if and only if the grammar spells the word's class -/
theorem spells_iff {t : String} {c : WorkloadClass} : Spells t c ↔ ofStem? (stem t.toList) = some c := by
  rw [ofStem?_eq_some]
  apply exists_congr
  intro word
  apply and_congr_right
  intro hw
  have hn : ¬ "workload".toList <:+ word.toList := fun k => absurd k.length_le (not_le.2 hw.length_lt)
  unfold stem
  rw [dropSuffix_eq_iff]
  constructor
  · rintro (k | k)
    · exact .inr ⟨k ▸ hn, k⟩
    · exact .inl k
  · rintro (k | ⟨-, k⟩)
    · exact .inr k
    · exact .inl k

/-- a label spells one class at most -/
theorem Spells.unique {t : String} {c d : WorkloadClass} (h : Spells t c) (k : Spells t d) : c = d :=
  Option.some.inj ((spells_iff.1 h).symm.trans (spells_iff.1 k))

theorem Spells.isRecognized {t : String} {c : WorkloadClass} (h : Spells t c) : c.isRecognized = true := by
  obtain ⟨word, hw, -⟩ := h
  exact hw.isRecognized

/-- what a label is read as -/
theorem parse_eq_iff (s : String) (c : WorkloadClass) :
    parse s = c ↔ Spells (trim s) c ∨ (∀ d, ¬ Spells (trim s) d) ∧ c = unrecognized (trim s) := by
  have read : parse s = (ofStem? (stem (trim s).toList)).getD (unrecognized (trim s)) := by
    rw [toList_trim]
    rfl
  simp only [spells_iff, read]
  cases ofStem? (stem (trim s).toList) with
  | none => simp [eq_comm]
  | some d => simp

/-- only the trimmed label matters -/
theorem parse_congr {s s' : String} (h : trim s = trim s') : parse s = parse s' :=
  (parse_eq_iff s _).2 (h ▸ (parse_eq_iff s' _).1 rfl)

theorem parse_surrounded {before after : String} (hb : ∀ c ∈ before.toList, c.toNat ∈ whiteSpace)
    (ha : ∀ c ∈ after.toList, c.toNat ∈ whiteSpace) (s : String) : parse (before ++ s ++ after) = parse s :=
  parse_congr (trim_surrounded hb ha s)

/-- the label of a class of the table is read as that class -/
theorem parse_label_of_isRecognized {c : WorkloadClass} (h : c.isRecognized = true) : parse c.label = c := by
  cases c with
  | unrecognized l => cases h
  | _ => decide

/-- the label of what was read is read alike -/
theorem parse_label (s : String) : parse (parse s).label = parse s := by
  obtain spelt | ⟨-, kept⟩ := (parse_eq_iff s (parse s)).1 rfl
  · exact parse_label_of_isRecognized spelt.isRecognized
  · rw [kept]
    exact (parse_congr (trim_trim s)).trans kept

/-- a request is for the class that its label is read as, and a blank label is refused -/
theorem ofRequest_some {s : String} {c : WorkloadClass} (h : ofRequest (some s) = .ok c) : c = parse s ∧ trim s ≠ "" := by
  simp only [ofRequest] at h
  split at h
  · rename_i hw
    refine ⟨(Except.ok.inj h).symm, ?_⟩
    intro hb
    rw [isWellFormed, ← toList_trim, hb] at hw
    cases hw
  · cases h

/-- a label that is kept is the trimmed text -/
theorem parse_eq_unrecognized {s l : String} (h : parse s = unrecognized l) : l = trim s := by
  obtain spelt | ⟨-, kept⟩ := (parse_eq_iff s _).1 h
  · cases spelt.isRecognized
  · exact unrecognized.inj kept

/-- **The grammar of labels.** Without the white space at its ends, which is one text `t`, a label is read as a class of
    the table exactly when `t` spells that class, and as `t` itself, letter for letter, when `t` spells none. White
    space around the label changes nothing, the label of what was read is read alike, no request is granted for an empty
    label, and a label that names no class is sized as the initial class is. -/
theorem label_grammar (s : String) :
    ∃ t : String, (∀ u : String, TrimsTo s.toList u.toList ↔ u = t) ∧
      (∀ c, c.isRecognized = true → (parse s = c ↔ Spells t c)) ∧
      (parse s = unrecognized t ↔ ∀ c, ¬ Spells t c) ∧
      (∀ l, parse s = unrecognized l → l = t) ∧
      (∀ before after : String, (∀ c ∈ before.toList, c.toNat ∈ whiteSpace) → (∀ c ∈ after.toList, c.toNat ∈ whiteSpace) →
        parse (before ++ s ++ after) = parse s) ∧
      parse (parse s).label = parse s ∧
      (∀ c, ofRequest (some s) = .ok c → c = parse s ∧ c ≠ unrecognized "") ∧
      ∀ l, (unrecognized l).sizing = initial.sizing := by
  refine ⟨trim s, fun u => trimsTo_iff s u, ?_, ?_, fun l => parse_eq_unrecognized, ?_, parse_label s, ?_, fun _ => rfl⟩
  · intro c hc
    rw [parse_eq_iff]
    constructor
    · rintro (spelt | ⟨-, rfl⟩)
      · exact spelt
      · cases hc
    · exact .inl
  · rw [parse_eq_iff]
    constructor
    · rintro (spelt | ⟨none, -⟩)
      · cases spelt.isRecognized
      · exact none
    · exact fun none => .inr ⟨none, rfl⟩
  · intro before after hb ha
    exact parse_surrounded hb ha s
  · intro c hc
    obtain ⟨rfl, hne⟩ := ofRequest_some hc
    exact ⟨rfl, fun h => hne (parse_eq_unrecognized h).symm⟩

/-- a suffix is taken off once, and a letter that only looks like one of the word is another letter -/
example : parse "\u2003hEaVyWORKLOAD\n" = heavy ∧
    parse " PeakWorkloadWorkload" = unrecognized "PeakWorkloadWorkload" ∧ parse "pea\u212a" = unrecognized "pea\u212a" := by
  decide

end WorkloadClass

end BrokerSim
