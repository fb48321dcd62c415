/-
The agenda against the plainest queue that could stand in its place: a clock and the events still to come, kept in a
list and searched from end to end (`Plain`).
- `transcript_eq_plain`: for every list of requests to a fresh agenda, every answer and everything an agenda shows after
  each request (clock, size, emptiness, the time of the next event, which handles are pending, how many events were
  cancelled) are those of the plain queue. Struck events still in the heap never show.
- The plain queue does what it should by its own right: the event that leaves is due before every other event still to
  come (`Plain.Sound.next`), and the handles of the events still to come are all different (`Plain.Sound`).

`Refines` is what carries the proof: the heap is in order, its top is pending, and its pending elements are the plain
queue's events.
-/
import Mathlib.Tactic
import BrokerSim.Agenda.Basic
import BrokerSim.Proofs.Clock
import BrokerSim.Proofs.Heap

namespace BrokerSim

variable {μ : Type}

/-! ## The plain queue -/

/-- is the first event due before the second: at an earlier time, or scheduled earlier for the same time? -/
def Event.precedes (a b : Event μ) : Bool :=
  decide (a.time < b.time) || (a.time == b.time && decide (a.handle < b.handle))

/-- the event of a list that is due before all the others -/
def earliest? : List (Event μ) → Option (Event μ)
  | [] => none
  | e :: rest =>
    match earliest? rest with
    | none => some e
    | some f => if f.precedes e then some f else some e

/-- a clock and the events still to come, in the order in which they were scheduled -/
structure Plain (μ : Type) where
  now : Time := 0
  live : List (Event μ) := []
  issued : Nat := 0
  cancelled : Nat := 0

namespace Plain

def isPending (p : Plain μ) (h : Handle) : Bool := p.live.any (·.handle == h)

/-- the events still to come but one -/
def without (p : Plain μ) (h : Handle) : List (Event μ) := p.live.filter (·.handle != h)

/-- refuses a delay that is not a number, infinite or negative; else the event is due `delay` after now -/
def schedule (delay : Float) (source target : EntityId) (message : μ) (p : Plain μ) :
    Except SimError (Handle × Plain μ) :=
  if delay.isNaN || delay.isInf || decide (delay < 0) then
    .error (.invalidSchedule
      s!"delay {Decimal.plain delay} from {source.text} to {target.text} at t={Decimal.places 2 p.now}")
  else
    .ok (p.issued, { p with
      live := p.live ++ [{ time := p.now + delay, source, target, handle := p.issued, message }]
      issued := p.issued + 1 })

/-- the earliest event leaves, and the clock stands at its time -/
def next? (p : Plain μ) : Option (Event μ × Plain μ) :=
  (earliest? p.live).map fun e => (e, { p with now := e.time, live := p.without e.handle })

def nextTime? (p : Plain μ) : Option Time := p.next?.map (·.1.time)

def cancel (h : Handle) (p : Plain μ) : Bool × Plain μ :=
  if p.isPending h then (true, { p with live := p.without h, cancelled := p.cancelled + 1 }) else (false, p)

end Plain

/-! ## Requests and what is seen of them -/

inductive Request (μ : Type) where
  | schedule (delay : Float) (source target : EntityId) (message : μ)
  | next
  | cancel (h : Handle)

inductive Response (μ : Type) where
  | scheduled (outcome : Except SimError Handle)
  | left (event? : Option (Event μ))
  | cancelled (done : Bool)

/-- everything that can be asked without changing anything -/
structure Display where
  now : Time
  size : Nat
  isEmpty : Bool
  nextTime? : Option Time
  cancelled : Nat
  isPending : Handle → Bool

namespace Agenda

/-- a request and the agenda after it; a refused event leaves it as it is -/
def answer (a : Agenda μ) : Request μ → Response μ × Agenda μ
  | .schedule delay source target message =>
    match a.schedule delay source target message with
    | .ok (h, b) => (.scheduled (.ok h), b)
    | .error e => (.scheduled (.error e), a)
  | .next =>
    match a.next? with
    | some (e, b) => (.left (some e), b)
    | none => (.left none, a)
  | .cancel h => ((.cancelled (a.cancel h).1), (a.cancel h).2)

def display (a : Agenda μ) : Display where
  now := a.now
  size := a.size
  isEmpty := a.isEmpty
  nextTime? := a.nextTime?
  cancelled := a.cancelled
  isPending := a.isPending

/-- each answer, and what the agenda shows after it -/
def transcript : List (Request μ) → Agenda μ → List (Response μ × Display)
  | [], _ => []
  | r :: rest, a => ((a.answer r).1, (a.answer r).2.display) :: transcript rest (a.answer r).2

end Agenda

namespace Plain

def answer (p : Plain μ) : Request μ → Response μ × Plain μ
  | .schedule delay source target message =>
    match p.schedule delay source target message with
    | .ok (h, q) => (.scheduled (.ok h), q)
    | .error e => (.scheduled (.error e), p)
  | .next =>
    match p.next? with
    | some (e, q) => (.left (some e), q)
    | none => (.left none, p)
  | .cancel h => ((.cancelled (p.cancel h).1), (p.cancel h).2)

def display (p : Plain μ) : Display where
  now := p.now
  size := p.live.length
  isEmpty := p.live.isEmpty
  nextTime? := p.nextTime?
  cancelled := p.cancelled
  isPending := p.isPending

def transcript : List (Request μ) → Plain μ → List (Response μ × Display)
  | [], _ => []
  | r :: rest, p => ((p.answer r).1, (p.answer r).2.display) :: transcript rest (p.answer r).2

/-- the plain queue after a list of requests -/
def after (requests : List (Request μ)) : Plain μ := requests.foldl (fun p r => (p.answer r).2) {}

end Plain

/-! ## The order of events -/

/-- place of an event in the order in which events leave: by time, then by handle -/
def Event.key (e : Event μ) : Int ×ₗ Nat := toLex (e.time.rank, e.handle)

theorem Event.before_iff (a b : Event μ) : a.before b = true ↔ a.key < b.key := by
  rw [key, key, Prod.Lex.toLex_lt_toLex, before]
  rcases hc : compare a.time.rank b.time.rank with _ | _ | _
  · simp [compare_lt_iff_lt.1 hc]
  · simp [compare_eq_iff_eq.1 hc]
  · have hlt := compare_gt_iff_gt.1 hc
    simp [hlt.not_gt, hlt.ne']

theorem Event.precedes_iff {a b : Event μ} (ha : a.time.OnClock) (hb : b.time.OnClock) :
    a.precedes b = true ↔ a.key < b.key := by
  rw [key, key, Prod.Lex.toLex_lt_toLex, precedes]
  simp only [Bool.or_eq_true, Bool.and_eq_true, decide_eq_true_eq, Time.rank_lt_iff ha hb, Time.rank_eq_iff ha hb]

theorem earliest?_eq_none {l : List (Event μ)} : earliest? l = none ↔ l = [] := by
  cases l with
  | nil => exact ⟨fun _ => rfl, fun _ => rfl⟩
  | cons e rest =>
    simp only [earliest?, reduceCtorEq, iff_false]
    split
    · simp
    · split_ifs <;> simp

theorem mem_of_earliest? {l : List (Event μ)} {e : Event μ} (h : earliest? l = some e) : e ∈ l := by
  induction l generalizing e with
  | nil => cases h
  | cons f rest ih =>
    simp only [earliest?] at h
    split at h
    · cases h; exact List.mem_cons_self
    · next g hg =>
      split_ifs at h
      · cases h; exact List.mem_cons_of_mem f (ih hg)
      · cases h; exact List.mem_cons_self

theorem key_le_of_earliest? {l : List (Event μ)} (ht : ∀ e ∈ l, e.time.OnClock) {e : Event μ}
    (h : earliest? l = some e) : ∀ f ∈ l, e.key ≤ f.key := by
  induction l generalizing e with
  | nil => cases h
  | cons g rest ih =>
    have htg := ht g List.mem_cons_self
    have htr : ∀ e ∈ rest, e.time.OnClock := fun e he => ht e (List.mem_cons_of_mem g he)
    simp only [earliest?] at h
    intro f hf
    split at h
    · next hr =>
      cases h
      rw [earliest?_eq_none.1 hr, List.mem_singleton] at hf
      rw [hf]
    · next k hk =>
      have hkg := Event.precedes_iff (htr k (mem_of_earliest? hk)) htg
      split_ifs at h with hp
      · cases h
        rcases List.mem_cons.1 hf with rfl | hf
        · exact (hkg.1 hp).le
        · exact ih htr hk f hf
      · cases h
        rcases List.mem_cons.1 hf with rfl | hf
        · exact le_rfl
        · exact (not_lt.1 fun hlt => hp (hkg.2 hlt)).trans (ih htr hk f hf)

/-! ## The plain queue by its own right -/

/-- what requests keep true of a plain queue -/
structure Plain.Sound (p : Plain μ) : Prop where
  now : p.now.OnClock
  time : ∀ e ∈ p.live, e.time.OnClock
  handle : ∀ e ∈ p.live, e.handle < p.issued
  inOrder : p.live.Pairwise (·.handle < ·.handle)

namespace Plain

theorem isPending_iff {p : Plain μ} {h : Handle} : p.isPending h = true ↔ ∃ e ∈ p.live, e.handle = h := by
  simp [isPending]

theorem mem_without {p : Plain μ} {h : Handle} {e : Event μ} : e ∈ p.without h ↔ e ∈ p.live ∧ e.handle ≠ h := by
  simp [without]

theorem sound_fresh : Sound ({} : Plain μ) :=
  ⟨Time.onClock_zero, fun _ he => (List.not_mem_nil he).elim, fun _ he => (List.not_mem_nil he).elim, List.Pairwise.nil⟩

variable {p : Plain μ}

theorem Sound.unique (hp : p.Sound) {e f : Event μ} (he : e ∈ p.live) (hf : f ∈ p.live) (h : e.handle = f.handle) :
    e = f := by
  have hn : (p.live.map (·.handle)).Nodup := List.pairwise_map.2 (hp.inOrder.imp fun h => h.ne)
  exact List.inj_on_of_nodup_map hn he hf h

theorem Sound.length_without (hp : p.Sound) {h : Handle} (hh : p.isPending h = true) :
    (p.without h).length = p.live.length - 1 := by
  obtain ⟨e, he, rfl⟩ := isPending_iff.1 hh
  obtain ⟨before, after, hl⟩ := List.append_of_mem he
  have ho := hp.inOrder
  rw [hl, List.pairwise_append, List.pairwise_cons] at ho
  obtain ⟨-, ⟨hafter, -⟩, hbefore⟩ := ho
  have hb : before.filter (·.handle != e.handle) = before :=
    List.filter_eq_self.2 fun f hf => bne_iff_ne.2 (hbefore f hf e List.mem_cons_self).ne
  have ha : after.filter (·.handle != e.handle) = after :=
    List.filter_eq_self.2 fun f hf => bne_iff_ne.2 (hafter f hf).ne'
  rw [without, hl, List.filter_append, List.filter_cons_of_neg (by simp), hb, ha]
  simp

theorem length_cancel_le (h : Handle) (p : Plain μ) : (p.cancel h).2.live.length ≤ p.live.length := by
  unfold Plain.cancel
  split_ifs
  · exact List.length_filter_le _ _
  · exact le_rfl

theorem Sound.next? (hp : p.Sound) {e : Event μ} {q : Plain μ} (h : p.next? = some (e, q)) : q.Sound := by
  obtain ⟨f, hf, heq⟩ := Option.map_eq_some_iff.1 h
  cases heq
  exact ⟨hp.time e (mem_of_earliest? hf), fun e he => hp.time e (mem_without.1 he).1,
    fun e he => hp.handle e (mem_without.1 he).1, hp.inOrder.filter _⟩

theorem Sound.cancel (hp : p.Sound) (h : Handle) : (p.cancel h).2.Sound := by
  unfold Plain.cancel
  split_ifs
  · exact ⟨hp.now, fun e he => hp.time e (mem_without.1 he).1, fun e he => hp.handle e (mem_without.1 he).1,
      hp.inOrder.filter _⟩
  · exact hp

theorem Sound.schedule (hp : p.Sound) {delay : Float} {source target : EntityId} {message : μ} {h : Handle}
    {q : Plain μ} (hq : p.schedule delay source target message = .ok (h, q)) : q.Sound := by
  simp only [Plain.schedule] at hq
  split_ifs at hq with hd
  cases hq
  have hd : Agenda.accepts delay = true := by rw [Time.accepts_eq]; simpa using hd
  refine ⟨hp.now, ?_, ?_, ?_⟩
  · intro e he
    rcases List.mem_append.1 he with he | he
    · exact hp.time e he
    · rw [List.mem_singleton.1 he]; exact Time.onClock_add hp.now hd
  · intro e he
    rcases List.mem_append.1 he with he | he
    · exact (hp.handle e he).trans (Nat.lt_succ_self _)
    · rw [List.mem_singleton.1 he]; exact Nat.lt_succ_self _
  · refine List.pairwise_append.2 ⟨hp.inOrder, List.pairwise_singleton _ _, ?_⟩
    intro e he f hf
    rw [List.mem_singleton.1 hf]
    exact hp.handle e he

theorem Sound.answer (hp : p.Sound) (r : Request μ) : (p.answer r).2.Sound := by
  cases r with
  | schedule delay source target message =>
    simp only [Plain.answer]
    split
    · next hq => exact hp.schedule hq
    · exact hp
  | next =>
    simp only [Plain.answer]
    split
    · next hq => exact hp.next? hq
    · exact hp
  | cancel h => exact hp.cancel h

theorem Sound.foldl (hp : p.Sound) (requests : List (Request μ)) :
    (requests.foldl (fun p r => (p.answer r).2) p).Sound := by
  induction requests generalizing p with
  | nil => exact hp
  | cons r rest ih => exact ih (hp.answer r)

/-- the event that leaves is due before every other, and only it leaves -/
theorem Sound.next (hp : p.Sound) :
    match p.next? with
    | none => p.live = []
    | some (e, q) => e ∈ p.live ∧ (∀ f ∈ p.live, f ≠ e → e.precedes f = true) ∧
        q = { p with now := e.time, live := p.live.filter (·.handle != e.handle) } := by
  unfold Plain.next?
  cases he : earliest? p.live with
  | none => exact earliest?_eq_none.1 he
  | some e =>
    have hm := mem_of_earliest? he
    refine ⟨hm, ?_, rfl⟩
    intro f hf hne
    rw [Event.precedes_iff (hp.time e hm) (hp.time f hf)]
    refine (key_le_of_earliest? hp.time he f hf).lt_of_ne fun hk => hne ?_
    exact (hp.unique hm hf (congrArg Prod.snd (toLex.injective hk))).symm

end Plain

/-! ## One request -/

/-- the agenda holds the events of a plain queue: those of its heap that are pending -/
structure Refines (a : Agenda μ) (p : Plain μ) : Prop where
  now : a.now = p.now
  issued : a.issued = p.issued
  cancelled : a.cancelled = p.cancelled
  ordered : a.heap.Ordered Event.key
  handle : ∀ e ∈ a.heap.toList, e.handle < a.issued
  live : (a.heap.toList.filter fun e => a.pending.contains e.handle).Perm p.live
  pending : ∀ h, a.pending.contains h = p.isPending h
  size : a.pending.size = p.live.length
  /-- the top is never a struck event -/
  top : ∀ e, a.heap.top? = some e → a.pending.contains e.handle = true

namespace Refines

variable {a : Agenda μ} {p : Plain μ}

theorem fresh : Refines ({} : Agenda μ) {} where
  now := rfl
  issued := rfl
  cancelled := rfl
  ordered := trivial
  handle := fun _ he => (List.not_mem_nil he).elim
  live := List.Perm.refl _
  pending := fun _ => rfl
  size := rfl
  top := fun _ he => by cases he

/-- the top of the heap is the earliest event of the plain queue -/
theorem top_eq (hr : Refines a p) (hp : p.Sound) : a.heap.top? = earliest? p.live := by
  cases ht : a.heap.top? with
  | none =>
    have hh : a.heap = .empty := by cases hh : a.heap with
      | empty => rfl
      | node e c s => rw [hh] at ht; cases ht
    have hl := hr.live
    rw [hh] at hl
    rw [List.nil_perm.1 hl]
    rfl
  | some e =>
    have hmem : ∀ f, f ∈ p.live ↔ f ∈ a.heap.toList ∧ a.pending.contains f.handle = true := by
      intro f
      rw [← hr.live.mem_iff, List.mem_filter]
    have he : e ∈ p.live := (hmem e).2 ⟨Agenda.Heap.mem_of_top? ht, hr.top e ht⟩
    cases hf : earliest? p.live with
    | none => rw [earliest?_eq_none.1 hf] at he; cases he
    | some f =>
      have hfm := mem_of_earliest? hf
      have hle := hr.ordered.le_of_mem ht f ((hmem f).1 hfm).1
      have hge := key_le_of_earliest? hp.time hf e he
      have hk := le_antisymm hle hge
      rw [hp.unique he hfm (congrArg Prod.snd (toLex.injective hk))]

theorem settled_eq (hr : Refines a p) : Agenda.settled a.heap a.pending = a.heap := by
  cases hh : a.heap with
  | empty => rw [Agenda.settled, Agenda.Heap.settle]
  | node e c s =>
    have hk : a.pending.contains e.handle = true := hr.top e (by rw [hh]; rfl)
    rw [Agenda.settled, Agenda.Heap.settle, if_pos hk]

/-- striking an event off and settling a heap that holds all the other events -/
theorem strike (hr : Refines a p) (hp : p.Sound) {heap : Agenda.Heap (Event μ)} (ho : heap.Ordered Event.key)
    {h : Handle} (hh : a.pending.contains h = true) (hs : heap.toList.Subperm a.heap.toList)
    (hl : (heap.toList.filter fun e => (a.pending.erase h).contains e.handle).Perm (p.without h)) (now : Time)
    (cancelled : Nat) :
    Refines { a with now, cancelled, pending := a.pending.erase h, heap := Agenda.settled heap (a.pending.erase h) }
      { p with now, cancelled, live := p.without h } where
  now := rfl
  issued := hr.issued
  cancelled := rfl
  ordered := Agenda.Heap.ordered_settle Event.before_iff _ ho
  handle := fun e he =>
    hr.handle e (hs.subset ((Agenda.Heap.subperm_settle Event.before_iff _ ho).subset he))
  live := (Agenda.Heap.filter_settle_perm Event.before_iff _ ho).trans hl
  pending := by
    intro k
    rw [Bool.eq_iff_iff, Plain.isPending_iff, Std.ExtTreeSet.contains_erase]
    simp only [Plain.mem_without, Bool.and_eq_true, bne_iff_ne, ne_eq, Nat.compare_eq_eq, hr.pending,
      Plain.isPending_iff]
    constructor
    · rintro ⟨hne, e, he, rfl⟩
      exact ⟨e, ⟨he, fun h => hne h.symm⟩, rfl⟩
    · rintro ⟨e, ⟨he, hne⟩, rfl⟩
      exact ⟨fun h => hne h.symm, e, he, rfl⟩
  size := by
    rw [Std.ExtTreeSet.size_erase, if_pos hh, hr.size]
    exact (hp.length_without (hr.pending h ▸ hh)).symm
  top := fun _ he => Agenda.Heap.keep_of_top?_settle (fun e : Event μ => (a.pending.erase h).contains e.handle) he

/-- what stays pending after one event is struck off -/
theorem filter_erase (hr : Refines a p) (h : Handle) :
    (a.heap.toList.filter fun e => (a.pending.erase h).contains e.handle).Perm (p.without h) := by
  have hl := hr.live.filter (·.handle != h)
  rw [List.filter_filter] at hl
  refine (List.Perm.of_eq (List.filter_congr fun e _ => ?_)).trans hl
  rw [Std.ExtTreeSet.contains_erase]
  congr 1
  rw [Bool.eq_iff_iff]
  simp only [bne_iff_ne, ne_eq, Nat.compare_eq_eq]
  exact ⟨fun hne he => hne he.symm, fun hne he => hne he.symm⟩

theorem cancel (hr : Refines a p) (hp : p.Sound) (h : Handle) :
    (a.cancel h).1 = (p.cancel h).1 ∧ Refines (a.cancel h).2 (p.cancel h).2 := by
  unfold Agenda.cancel Plain.cancel Agenda.isPending
  rw [hr.pending h]
  split_ifs with hh
  · refine ⟨rfl, ?_⟩
    rw [hr.cancelled, hr.now]
    exact hr.strike hp hr.ordered (hr.pending h ▸ hh) (List.Subperm.refl _) (hr.filter_erase h) _ _
  · exact ⟨rfl, hr⟩

theorem next (hr : Refines a p) (hp : p.Sound) :
    match a.next?, p.next? with
    | none, none => True
    | some (e, b), some (f, q) => e = f ∧ Refines b q
    | _, _ => False := by
  have ht := hr.top_eq hp
  have hs := hr.settled_eq
  unfold Agenda.next? Plain.next?
  rw [hs, ← ht]
  cases hh : a.heap with
  | empty => exact trivial
  | node e c s =>
    have he : a.heap.top? = some e := by rw [hh]; rfl
    have hk := hr.top e he
    have hperm := Agenda.Heap.tail_perm Event.before_iff hr.ordered he
    have hpend : ∀ l : List (Event μ), l.filter (fun e' => (a.pending.erase e.handle).contains e'.handle) =
        (e :: l).filter (fun e' => (a.pending.erase e.handle).contains e'.handle) := by
      intro l
      rw [List.filter_cons_of_neg]
      simp [Std.ExtTreeSet.contains_erase]
    refine ⟨rfl, ?_⟩
    have hstruck := hr.strike hp (Agenda.Heap.ordered_tail Event.before_iff hr.ordered) (hk)
      ((List.sublist_cons_self e _).subperm.trans hperm.subperm) ?_ e.time a.cancelled
    · rw [hh] at hstruck
      rw [← hr.cancelled]
      exact hstruck
    · rw [hpend]
      exact (hperm.filter _).trans (hr.filter_erase e.handle)

theorem contains_issued {e : Event μ} (he : e.handle = a.issued) :
    (a.pending.insert a.issued).contains e.handle = true := by
  rw [he, Std.ExtTreeSet.contains_insert]
  simp

theorem contains_insert_issued {e : Event μ} (he : e.handle < a.issued) :
    (a.pending.insert a.issued).contains e.handle = a.pending.contains e.handle := by
  rw [Std.ExtTreeSet.contains_insert, Bool.or_eq_right_iff_imp, beq_iff_eq, Nat.compare_eq_eq]
  exact fun h => absurd h he.ne'

/-- one more event, with the next handle -/
theorem enqueue (hr : Refines a p) (e : Event μ) (he : e.handle = a.issued) :
    Refines
      { a with heap := a.heap.insert Event.before e, pending := a.pending.insert a.issued, issued := a.issued + 1 }
      { p with live := p.live ++ [e], issued := p.issued + 1 } where
  now := hr.now
  issued := congrArg (· + 1) hr.issued
  cancelled := hr.cancelled
  ordered := Agenda.Heap.ordered_insert Event.before_iff e hr.ordered
  handle := by
    intro f hf
    rcases List.mem_cons.1 ((Agenda.Heap.insert_perm Event.before e hr.ordered).mem_iff.1 hf) with rfl | hf
    · exact he.trans_lt (Nat.lt_succ_self _)
    · exact (hr.handle f hf).trans (Nat.lt_succ_self _)
  live := by
    have hold : (a.heap.toList.filter fun f => (a.pending.insert a.issued).contains f.handle).Perm p.live := by
      rw [List.filter_congr fun f hf => contains_insert_issued (hr.handle f hf)]
      exact hr.live
    have hall := (Agenda.Heap.insert_perm Event.before e hr.ordered).filter
      fun f => (a.pending.insert a.issued).contains f.handle
    rw [List.filter_cons, if_pos (contains_issued he)] at hall
    exact hall.trans ((hold.cons e).trans (List.perm_append_singleton e _).symm)
  pending := by
    intro h
    rw [Bool.eq_iff_iff, Std.ExtTreeSet.contains_insert, Plain.isPending_iff, Bool.or_eq_true, beq_iff_eq,
      Nat.compare_eq_eq, hr.pending, Plain.isPending_iff]
    constructor
    · rintro (rfl | ⟨f, hf, rfl⟩)
      · exact ⟨e, List.mem_append_right _ List.mem_cons_self, he⟩
      · exact ⟨f, List.mem_append_left _ hf, rfl⟩
    · rintro ⟨f, hf, rfl⟩
      rcases List.mem_append.1 hf with hf | hf
      · exact .inr ⟨f, hf, rfl⟩
      · rw [List.mem_singleton.1 hf]
        exact .inl he.symm
  size := by
    have hfresh : ¬ a.pending.contains a.issued = true := by
      rw [hr.pending, Plain.isPending_iff]
      rintro ⟨f, hf, hi⟩
      exact (hr.handle f (List.mem_filter.1 (hr.live.mem_iff.2 hf)).1).ne hi
    rw [Std.ExtTreeSet.size_insert, if_neg hfresh, List.length_append, hr.size]
    rfl
  top := by
    intro f hf
    rcases Agenda.Heap.top?_insert Event.before e a.heap with ht | ht
    · cases ht.symm.trans hf
      exact contains_issued he
    · have hf := ht.symm.trans hf
      exact (contains_insert_issued (hr.handle f (Agenda.Heap.mem_of_top? hf))).trans (hr.top f hf)

theorem schedule (hr : Refines a p) (delay : Float) (source target : EntityId) (message : μ) :
    match a.schedule delay source target message, p.schedule delay source target message with
    | .ok (h, b), .ok (k, q) => h = k ∧ Refines b q
    | .error e, .error f => e = f
    | _, _ => False := by
  unfold Agenda.schedule Plain.schedule
  rw [Time.accepts_eq, hr.now, ← hr.issued]
  cases delay.isNaN || delay.isInf || decide (delay < 0)
  · refine ⟨rfl, ?_⟩
    have := hr.enqueue { time := p.now + delay, source, target, handle := a.issued, message } rfl
    rwa [hr.now, ← hr.issued] at this
  · rfl

theorem display (hr : Refines a p) (hp : p.Sound) : a.display = p.display := by
  have htime : a.nextTime? = p.nextTime? := by
    rw [Agenda.nextTime?, hr.top_eq hp, Plain.nextTime?, Plain.next?, Option.map_map]
    rfl
  have hempty : a.isEmpty = p.live.isEmpty := by
    rw [Agenda.isEmpty, Std.ExtTreeSet.isEmpty_eq_size_beq_zero, hr.size]
    cases p.live <;> rfl
  have hpending : a.isPending = p.isPending := funext hr.pending
  rw [Agenda.display, Plain.display, hr.now, hr.cancelled, htime, hempty, hpending, Agenda.size, hr.size]

theorem answer (hr : Refines a p) (hp : p.Sound) (r : Request μ) :
    (a.answer r).1 = (p.answer r).1 ∧ Refines (a.answer r).2 (p.answer r).2 := by
  cases r with
  | schedule delay source target message =>
    have h := hr.schedule delay source target message
    simp only [Agenda.answer, Plain.answer]
    split at h
    · next ha hq => obtain ⟨rfl, hb⟩ := h; rw [ha, hq]; exact ⟨rfl, hb⟩
    · next ha hq => rw [ha, hq, h]; exact ⟨rfl, hr⟩
    · exact h.elim
  | next =>
    have h := hr.next hp
    simp only [Agenda.answer, Plain.answer]
    split at h
    · next ha hq => rw [ha, hq]; exact ⟨rfl, hr⟩
    · next ha hq => obtain ⟨rfl, hb⟩ := h; rw [ha, hq]; exact ⟨rfl, hb⟩
    · exact h.elim
  | cancel h =>
    have hc := hr.cancel hp h
    exact ⟨congrArg Response.cancelled hc.1, hc.2⟩

theorem transcript (hr : Refines a p) (hp : p.Sound) (requests : List (Request μ)) :
    Agenda.transcript requests a = Plain.transcript requests p := by
  induction requests generalizing a p with
  | nil => rfl
  | cons r rest ih =>
    obtain ⟨heq, hr⟩ := hr.answer hp r
    have hp := hp.answer r
    rw [Agenda.transcript, Plain.transcript, heq, hr.display hp, ih hr hp]

end Refines

/-! ## Any requests -/

/-- **Nothing tells the agenda from the plain queue.** And in the plain queue every event that leaves is due before
    every other event still to come, of which there is one for each handle that is pending. -/
theorem transcript_eq_plain (requests : List (Request μ)) :
    Agenda.transcript requests {} = Plain.transcript requests {} ∧
    (Plain.after requests).live.Pairwise (·.handle < ·.handle) ∧
    match (Plain.after requests).next? with
    | none => (Plain.after requests).live = []
    | some (e, q) => e ∈ (Plain.after requests).live ∧
        (∀ f ∈ (Plain.after requests).live, f ≠ e → e.precedes f = true) ∧
        q = { Plain.after requests with
          now := e.time, live := (Plain.after requests).live.filter (·.handle != e.handle) } :=
  have hp : (Plain.after requests).Sound := Plain.sound_fresh.foldl requests
  ⟨Refines.fresh.transcript Plain.sound_fresh requests, hp.inOrder, hp.next⟩

end BrokerSim
