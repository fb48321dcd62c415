/-
The pairing heap in order. If `before` is the strict order of some key, then melding, combining and settling keep
every root at or before everything below it (`Ordered`), so the top of a heap has the least key (`Ordered.le_of_mem`).
None of them loses or invents an element: `meld` and `combine` only rearrange the elements, and `settle` throws away
only elements that are not to be kept (`filter_settle_perm`).
-/
import Mathlib.Tactic
import BrokerSim.Agenda.Heap

namespace BrokerSim.Agenda.Heap

variable {α κ : Type} [LinearOrder κ] {before : α → α → Bool} {key : α → κ}

/-! ## Order -/

/-- a row of heaps in order: every root has a key from `k` on, and heads a row in order from its own key on -/
def Row (key : α → κ) (k : κ) : Heap α → Prop
  | empty => True
  | node a c s => k ≤ key a ∧ Row key (key a) c ∧ Row key k s

/-- a heap in order: a single root that heads a row in order -/
def Ordered (key : α → κ) : Heap α → Prop
  | empty => True
  | node a c s => Row key (key a) c ∧ s = empty

theorem Row.le_of_mem {k : κ} {h : Heap α} (hr : Row key k h) : ∀ x ∈ h.toList, k ≤ key x := by
  induction h generalizing k with
  | empty => intro x hx; cases hx
  | node a c s ihc ihs =>
    obtain ⟨ha, hc, hs⟩ := hr
    intro x hx
    simp only [toList, List.mem_cons, List.mem_append] at hx
    rcases hx with rfl | hx | hx
    · exact ha
    · exact ha.trans (ihc hc x hx)
    · exact ihs hs x hx

/-- **The top has the least key.** -/
theorem Ordered.le_of_mem {h : Heap α} (ho : Ordered key h) {a : α} (ha : h.top? = some a) :
    ∀ x ∈ h.toList, key a ≤ key x := by
  cases h with
  | empty => cases ha
  | node b c s =>
    cases ha
    obtain ⟨hc, rfl⟩ := ho
    intro x hx
    simp only [toList, List.append_nil, List.mem_cons] at hx
    rcases hx with rfl | hx
    · exact le_rfl
    · exact hc.le_of_mem x hx

theorem ordered_meld (hb : ∀ a b, before a b = true ↔ key a < key b) {h k : Heap α} (hh : Ordered key h)
    (hk : Ordered key k) : Ordered key (meld before h k) := by
  fun_cases meld before h k with
  | case1 => exact hk
  | case2 => exact hh
  | case3 a c s b d t hab => exact ⟨⟨((hb a b).1 hab).le, hk.1, hh.1⟩, rfl⟩
  | case4 a c s b d t hab => exact ⟨⟨not_lt.1 fun h => hab ((hb a b).2 h), hh.1, hk.1⟩, rfl⟩

theorem ordered_combine (hb : ∀ a b, before a b = true ↔ key a < key b) {k : κ} {h : Heap α} (hh : Row key k h) :
    Ordered key (combine before h) := by
  fun_induction combine before h with
  | case1 => trivial
  | case2 a c => exact ⟨hh.2.1, rfl⟩
  | case3 a c b d s ih =>
    obtain ⟨-, hc, -, hd, hs⟩ := hh
    exact ordered_meld hb (ordered_meld hb ⟨hc, rfl⟩ ⟨hd, rfl⟩) (ih hs)

theorem ordered_tail (hb : ∀ a b, before a b = true ↔ key a < key b) {h : Heap α} (hh : Ordered key h) :
    Ordered key (tail before h) := by
  cases h with
  | empty => trivial
  | node a c s => exact ordered_combine hb hh.1

theorem ordered_insert (hb : ∀ a b, before a b = true ↔ key a < key b) (a : α) {h : Heap α} (hh : Ordered key h) :
    Ordered key (insert before a h) :=
  ordered_meld hb ⟨trivial, rfl⟩ hh

/-! ## Elements -/

theorem mem_of_top? {h : Heap α} {a : α} (ha : h.top? = some a) : a ∈ h.toList := by
  cases h with
  | empty => cases ha
  | node b c s => cases ha; exact List.mem_cons_self

theorem top?_insert (before : α → α → Bool) (a : α) (h : Heap α) :
    (insert before a h).top? = some a ∨ (insert before a h).top? = h.top? := by
  cases h with
  | empty => exact .inl rfl
  | node b c s =>
    simp only [insert, singleton, meld]
    split_ifs
    · exact .inl rfl
    · exact .inr rfl

theorem meld_perm (before : α → α → Bool) {h k : Heap α} (hh : Ordered key h) (hk : Ordered key k) :
    (meld before h k).toList.Perm (h.toList ++ k.toList) := by
  fun_cases meld before h k with
  | case1 => exact List.Perm.refl _
  | case2 => rw [toList, List.append_nil]
  | case3 a c s b d t hab =>
    obtain ⟨-, rfl⟩ := hh
    obtain ⟨-, rfl⟩ := hk
    simp only [toList, List.append_nil, List.cons_append]
    exact (@List.perm_append_comm _ (b :: d.toList) c.toList).cons a
  | case4 a c s b d t hab =>
    obtain ⟨-, rfl⟩ := hh
    obtain ⟨-, rfl⟩ := hk
    simp only [toList, List.append_nil, List.cons_append]
    exact (@List.perm_middle _ b (a :: c.toList) d.toList).symm

theorem combine_perm (hb : ∀ a b, before a b = true ↔ key a < key b) {k : κ} {h : Heap α} (hh : Row key k h) :
    (combine before h).toList.Perm h.toList := by
  fun_induction combine before h with
  | case1 => exact List.Perm.refl _
  | case2 a c => exact List.Perm.refl _
  | case3 a c b d s ih =>
    obtain ⟨-, hc, -, hd, hs⟩ := hh
    have ha : Ordered key (node a c empty) := ⟨hc, rfl⟩
    have hd : Ordered key (node b d empty) := ⟨hd, rfl⟩
    have first := meld_perm before ha hd
    have second := meld_perm before (ordered_meld hb ha hd) (ordered_combine hb hs)
    refine second.trans ((first.append (ih hs)).trans ?_)
    simp only [toList, List.append_nil, List.cons_append, List.append_assoc]
    exact List.Perm.refl _

theorem tail_perm (hb : ∀ a b, before a b = true ↔ key a < key b) {h : Heap α} (hh : Ordered key h) {a : α}
    (ha : h.top? = some a) : (a :: (tail before h).toList).Perm h.toList := by
  cases h with
  | empty => cases ha
  | node b c s =>
    cases ha
    obtain ⟨hc, rfl⟩ := hh
    simp only [tail, toList, List.append_nil]
    exact (combine_perm hb hc).cons a

theorem insert_perm (before : α → α → Bool) (a : α) {h : Heap α} (hh : Ordered key h) :
    (insert before a h).toList.Perm (a :: h.toList) :=
  meld_perm before ⟨trivial, rfl⟩ hh

/-! ## Settling -/

theorem ordered_settle (hb : ∀ a b, before a b = true ↔ key a < key b) (keep : α → Bool) {h : Heap α}
    (hh : Ordered key h) : Ordered key (settle before keep h) := by
  fun_induction settle before keep h with
  | case1 => trivial
  | case2 a c s ha => exact hh
  | case3 a c s ha ih => exact ih (ordered_tail hb hh)

theorem keep_of_top?_settle (keep : α → Bool) {h : Heap α} {a : α} (ha : (settle before keep h).top? = some a) :
    keep a = true := by
  fun_induction settle before keep h with
  | case1 => cases ha
  | case2 b c s hb => cases ha; exact hb
  | case3 b c s hb ih => exact ih ha

/-- settling throws away only what is not to be kept -/
theorem filter_settle_perm (hb : ∀ a b, before a b = true ↔ key a < key b) (keep : α → Bool) {h : Heap α}
    (hh : Ordered key h) : ((settle before keep h).toList.filter keep).Perm (h.toList.filter keep) := by
  fun_induction settle before keep h with
  | case1 => exact List.Perm.refl _
  | case2 a c s ha => exact List.Perm.refl _
  | case3 a c s ha ih =>
    refine (ih (ordered_tail hb hh)).trans ?_
    have := (tail_perm hb hh rfl).filter keep
    rwa [List.filter_cons_of_neg ha] at this

theorem subperm_settle (hb : ∀ a b, before a b = true ↔ key a < key b) (keep : α → Bool) {h : Heap α}
    (hh : Ordered key h) : (settle before keep h).toList.Subperm h.toList := by
  fun_induction settle before keep h with
  | case1 => exact List.Subperm.refl _
  | case2 a c s ha => exact List.Subperm.refl _
  | case3 a c s ha ih =>
    exact (ih (ordered_tail hb hh)).trans (((List.sublist_cons_self _ _).subperm).trans (tail_perm hb hh rfl).subperm)

end BrokerSim.Agenda.Heap
