/-
A pairing heap, stored as a binary tree: each node holds its first child and its next sibling. The order is given as
`before`, a test on elements; `meld` keeps the earlier of two roots on top, and `combine` melds the children that a
removed root leaves behind, two by two from the left and then from the right.
-/

namespace BrokerSim.Agenda

/-- a heap, or a row of sibling heaps -/
inductive Heap (α : Type) where
  | empty
  | node (top : α) (child sibling : Heap α)
  deriving Repr, DecidableEq

namespace Heap

variable {α : Type}

/-- the first element to leave -/
def top? : Heap α → Option α
  | empty => none
  | node a _ _ => some a

/-- how many elements the heap holds -/
def size : Heap α → Nat
  | empty => 0
  | node _ c s => c.size + s.size + 1

/-- the elements, in no useful order -/
def toList : Heap α → List α
  | empty => []
  | node a c s => a :: (c.toList ++ s.toList)

def singleton (a : α) : Heap α := node a empty empty

/-- one heap of two; siblings of the roots are not looked at -/
def meld (before : α → α → Bool) : Heap α → Heap α → Heap α
  | empty, h => h
  | h, empty => h
  | node a c _, node b d _ =>
    if before a b then node a (node b d c) empty else node b (node a c d) empty

/-- one heap of a row of siblings -/
def combine (before : α → α → Bool) : Heap α → Heap α
  | empty => empty
  | node a c empty => node a c empty
  | node a c (node b d s) =>
    meld before (meld before (node a c empty) (node b d empty)) (combine before s)

def insert (before : α → α → Bool) (a : α) (h : Heap α) : Heap α := meld before (singleton a) h

/-- the heap without its top -/
def tail (before : α → α → Bool) : Heap α → Heap α
  | empty => empty
  | node _ c _ => combine before c

theorem size_meld_le (before : α → α → Bool) (h k : Heap α) :
    (meld before h k).size ≤ h.size + k.size := by
  unfold meld
  split
  · simp [size]
  · simp [size]
  · split <;> simp only [size] <;> omega

theorem size_combine_le (before : α → α → Bool) (h : Heap α) : (combine before h).size ≤ h.size := by
  fun_induction combine before h with
  | case1 => exact Nat.le_refl _
  | case2 a c => simp [size]
  | case3 a c b d s ih =>
    have inner := size_meld_le before (node a c empty) (node b d empty)
    have outer := size_meld_le before (meld before (node a c empty) (node b d empty)) (combine before s)
    simp only [size] at *
    omega

theorem size_tail_lt (before : α → α → Bool) (a : α) (c s : Heap α) :
    (tail before (node a c s)).size < (node a c s).size := by
  have := size_combine_le before c
  simp only [tail, size]
  omega

/-- the heap from its first element on that satisfies `keep`: tops that do not are thrown away -/
def settle (before : α → α → Bool) (keep : α → Bool) : Heap α → Heap α
  | empty => empty
  | node a c s => if keep a then node a c s else settle before keep (tail before (node a c s))
termination_by h => h.size
decreasing_by exact size_tail_lt before a c s

end Heap

end BrokerSim.Agenda
