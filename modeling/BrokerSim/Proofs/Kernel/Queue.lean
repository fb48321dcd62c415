/-
Scheduling and striking off, by simulations, on the plain queue.
- `Simulation.schedule_eq`: a delay that is accepted puts one event behind all others of the plain queue
  (`Plain.extend`), under the next handle. Any other delay is refused and changes nothing.
- `Plain.strike_cases`: striking off removes one event, or nothing; `Plain.Sound.next?_eq`: what changes when an event
  leaves. `Plain.Timely`: nothing is overdue, so no event that leaves turns the clock back.
- `Agenda.IsQueue`: an agenda as it is found in a run, told by the events that it holds alone.
-/
import Mathlib.Tactic
import BrokerSim.Kernel.Simulation
import BrokerSim.Proofs.Agenda

namespace BrokerSim

variable {ε μ W : Type}

/-! ## The plain queue -/

namespace Plain

variable {p q : Plain μ} {e : Event μ}

/-- the plain queue with more events, which have the next handles -/
def extend (events : List (Event μ)) (p : Plain μ) : Plain μ :=
  { p with live := p.live ++ events, issued := p.issued + events.length }

theorem extend_extend (events others : List (Event μ)) (p : Plain μ) :
    (p.extend events).extend others = p.extend (events ++ others) := by
  simp [extend, Nat.add_assoc]

/-- what changes when an event leaves -/
theorem Sound.next?_eq (hp : p.Sound) (hn : p.next? = some (e, q)) :
    e ∈ p.live ∧ (∀ f, f ∈ q.live ↔ f ∈ p.live ∧ f.handle ≠ e.handle) ∧ q.now = e.time ∧ q.issued = p.issued ∧
      q.cancelled = p.cancelled ∧ q.live.length + 1 = p.live.length := by
  obtain ⟨f, hf, heq⟩ := Option.map_eq_some_iff.1 hn
  cases heq
  have he := mem_of_earliest? hf
  refine ⟨he, fun f => mem_without, rfl, rfl, rfl, ?_⟩
  have hpos := List.length_pos_of_mem he
  have hlen := hp.length_without (isPending_iff.2 ⟨e, he, rfl⟩)
  change (p.without e.handle).length + 1 = _
  omega

/-- the event under a handle, if there is one to look for, is struck off -/
def strike : Option Handle → Plain μ → Plain μ
  | none, p => p
  | some h, p => (p.cancel h).2

/-- either there is nothing to strike off, or an event that was still to come is struck off and counted -/
theorem strike_cases (struck? : Option Handle) (p : Plain μ) :
    (p.strike struck? = p ∧ ∀ e ∈ p.live, struck? ≠ some e.handle) ∨
      ∃ h, struck? = some h ∧ p.isPending h = true ∧
        p.strike struck? = { p with live := p.without h, cancelled := p.cancelled + 1 } := by
  cases struck? with
  | none => exact .inl ⟨rfl, fun _ _ h => nomatch h⟩
  | some h =>
    change ((p.cancel h).2 = p ∧ _) ∨ ∃ k, some h = some k ∧ p.isPending k = true ∧ (p.cancel h).2 = _
    unfold cancel
    split_ifs with hp
    · exact .inr ⟨h, rfl, hp, rfl⟩
    · refine .inl ⟨rfl, ?_⟩
      rintro e he heq
      cases heq
      exact hp (isPending_iff.2 ⟨e, he, rfl⟩)

theorem mem_strike {struck? : Option Handle} :
    e ∈ (p.strike struck?).live ↔ e ∈ p.live ∧ struck? ≠ some e.handle := by
  rcases strike_cases struck? p with ⟨heq, hnone⟩ | ⟨h, rfl, -, heq⟩
  · rw [heq]
    exact ⟨fun he => ⟨he, hnone e he⟩, And.left⟩
  · rw [heq]
    change e ∈ p.without h ↔ _
    rw [mem_without, ne_eq, ne_eq, Option.some.injEq, eq_comm]

theorem now_strike (struck? : Option Handle) (p : Plain μ) : (p.strike struck?).now = p.now := by
  rcases strike_cases struck? p with ⟨heq, -⟩ | ⟨h, -, -, heq⟩ <;> rw [heq]

theorem issued_strike (struck? : Option Handle) (p : Plain μ) : (p.strike struck?).issued = p.issued := by
  rcases strike_cases struck? p with ⟨heq, -⟩ | ⟨h, -, -, heq⟩ <;> rw [heq]

theorem Sound.strike (hp : p.Sound) (struck? : Option Handle) : (p.strike struck?).Sound := by
  cases struck? with
  | none => exact hp
  | some h => exact hp.cancel h

theorem length_strike_le (struck? : Option Handle) (p : Plain μ) :
    (p.strike struck?).live.length ≤ p.live.length := by
  cases struck? with
  | none => exact le_rfl
  | some h => exact length_cancel_le h p

/-- nothing that is still to come is overdue -/
def Timely (p : Plain μ) : Prop := ∀ e ∈ p.live, p.now ≤ e.time

theorem earliest_le (hp : p.Sound) (he : earliest? p.live = some e) : ∀ f ∈ p.live, e.time ≤ f.time := by
  intro f hf
  have hk := key_le_of_earliest? hp.time he f hf
  rw [Event.key, Event.key, Prod.Lex.toLex_le_toLex] at hk
  exact (Time.rank_le_iff (hp.time e (mem_of_earliest? he)) (hp.time f hf)).1 (hk.elim le_of_lt fun h => h.1.le)

theorem Timely.leave (ht : p.Timely) (hp : p.Sound) (hn : p.next? = some (e, q)) : q.Timely ∧ p.now ≤ q.now := by
  obtain ⟨f, hf, heq⟩ := Option.map_eq_some_iff.1 hn
  cases heq
  refine ⟨?_, ht e (mem_of_earliest? hf)⟩
  intro g hg
  exact earliest_le hp hf g (mem_without.1 hg).1

theorem Timely.strike (ht : p.Timely) (struck? : Option Handle) : (p.strike struck?).Timely := by
  intro e he
  rw [now_strike]
  exact ht e (mem_strike.1 he).1

theorem Timely.extend (ht : p.Timely) {events : List (Event μ)} (he : ∀ e ∈ events, p.now ≤ e.time) :
    (p.extend events).Timely := by
  intro e hmem
  exact (List.mem_append.1 hmem).elim (ht e) (he e)

end Plain

/-- an event is in the agenda, and not struck off -/
def Agenda.Holds (a : Agenda μ) (e : Event μ) : Prop := e ∈ a.heap.toList ∧ a.isPending e.handle = true

theorem Refines.mem_live {a : Agenda μ} {p : Plain μ} (hr : Refines a p) {e : Event μ} : e ∈ p.live ↔ a.Holds e := by
  rw [← hr.live.mem_iff, List.mem_filter]
  rfl

/-! ## Simulations -/

namespace Simulation

variable {s : Simulation ε μ W} {p q : Plain μ}

/-- a simulation whose next event leaves the plain queue as well -/
theorem next?_eq (hr : Refines s.agenda p) (hp : p.Sound) {e : Event μ} {agenda : Agenda μ}
    (hn : s.agenda.next? = some (e, agenda)) : ∃ q, p.next? = some (e, q) ∧ Refines agenda q ∧ q.Sound := by
  have hnext := hr.next hp
  rw [hn] at hnext
  cases hq : p.next? with
  | none =>
    rw [hq] at hnext
    exact hnext.elim
  | some x =>
    rw [hq] at hnext
    obtain ⟨heq, hr⟩ := hnext
    exact ⟨x.2, by rw [heq], hr, hp.next? hq⟩

theorem schedule_accepted {delay : Float} (hd : Agenda.accepts delay = true) (source target : EntityId) (message : μ)
    (s : Simulation ε μ W) : ∃ h agenda, s.schedule delay source target message = (.ok h, { s with agenda }) := by
  unfold schedule Agenda.schedule
  rw [if_pos hd]
  exact ⟨_, _, rfl⟩

theorem schedule_refused {delay : Float} (hd : Agenda.accepts delay = false) (source target : EntityId) (message : μ)
    (s : Simulation ε μ W) :
    ∃ reason, s.schedule delay source target message = (.error (.invalidSchedule reason), s) := by
  unfold schedule Agenda.schedule
  rw [if_neg (by simp [hd])]
  exact ⟨_, rfl⟩

/-- an event that is accepted joins the queue -/
theorem schedule_eq (hr : Refines s.agenda p) (hp : p.Sound) {delay : Float} (hd : Agenda.accepts delay = true)
    (source target : EntityId) (message : μ) :
    let e : Event μ := { time := p.now + delay, source, target, handle := p.issued, message }
    ∃ agenda, s.schedule delay source target message = (.ok p.issued, { s with agenda }) ∧
      Refines agenda (p.extend [e]) ∧ (p.extend [e]).Sound := by
  intro e
  have hq : p.schedule delay source target message = .ok (p.issued, p.extend [e]) := by
    rw [Time.accepts_eq] at hd
    exact if_neg (by simpa using hd)
  have h := hr.schedule delay source target message
  rw [hq] at h
  unfold schedule
  cases hs : s.agenda.schedule delay source target message with
  | error err =>
    rw [hs] at h
    exact h.elim
  | ok x =>
    rw [hs] at h
    obtain ⟨hh, hr⟩ := h
    exact ⟨x.2, by rw [← hh], hr, hp.schedule hq⟩

/-- the event under a handle, if there is one to look for, is struck off -/
def strike : Option Handle → Simulation ε μ W → Simulation ε μ W
  | none, s => s
  | some h, s => (s.cancel h).2

/-- striking off touches the agenda only -/
theorem strike_eq (hr : Refines s.agenda p) (hp : p.Sound) (struck? : Option Handle) :
    ∃ agenda, s.strike struck? = { s with agenda } ∧ Refines agenda (p.strike struck?) := by
  cases struck? with
  | none => exact ⟨s.agenda, rfl, hr⟩
  | some h => exact ⟨_, rfl, (hr.cancel hp h).2⟩

end Simulation

/-! ## Agendas by what they hold -/

/-- the clock stands at the time of the event that has left -/
theorem Agenda.now_next? {a b : Agenda μ} {e : Event μ} (hn : a.next? = some (e, b)) : b.now = e.time := by
  unfold next? at hn
  split at hn
  · cases hn
  · cases hn
    rfl

/-- some plain queue stands behind the agenda -/
def Agenda.IsQueue (a : Agenda μ) : Prop := ∃ p, Refines a p ∧ p.Sound

namespace Agenda.IsQueue

variable {a : Agenda μ} {e : Event μ}

theorem event (ha : a.IsQueue) (he : a.Holds e) : e.time.OnClock ∧ e.handle < a.issued := by
  obtain ⟨p, hr, hp⟩ := ha
  have hmem := hr.mem_live.2 he
  exact ⟨hp.time e hmem, hr.issued ▸ hp.handle e hmem⟩

theorem nextTime?_eq_none (ha : a.IsQueue) (he : ∀ e, ¬ a.Holds e) : a.nextTime? = none := by
  obtain ⟨p, hr, hp⟩ := ha
  have hl : p.live = [] := List.eq_nil_iff_forall_not_mem.2 fun e hmem => he e (hr.mem_live.1 hmem)
  rw [nextTime?, hr.top_eq hp, hl]
  rfl

/-- the event that is due before all the others leaves, and only it -/
theorem next? (ha : a.IsQueue) (he : a.Holds e) (hleast : ∀ f, a.Holds f → f ≠ e → e.key < f.key) :
    ∃ b, a.next? = some (e, b) ∧ a.nextTime? = some e.time ∧ b.IsQueue ∧ b.now = e.time ∧ b.issued = a.issued ∧
      ∀ f, b.Holds f ↔ a.Holds f ∧ f ≠ e := by
  obtain ⟨p, hr, hp⟩ := ha
  have hmem := hr.mem_live.2 he
  have hearliest : earliest? p.live = some e := by
    cases hf : earliest? p.live with
    | none =>
      rw [earliest?_eq_none.1 hf] at hmem
      cases hmem
    | some f =>
      by_contra hne
      have hlt := hleast f (hr.mem_live.1 (mem_of_earliest? hf)) fun h => hne (congrArg some h)
      exact hlt.not_ge (key_le_of_earliest? hp.time hf e hmem)
  have hn : p.next? = some (e, { p with now := e.time, live := p.without e.handle }) := by
    rw [Plain.next?, hearliest]
    rfl
  have hnext := hr.next hp
  rw [hn] at hnext
  cases hb : a.next? with
  | none =>
    rw [hb] at hnext
    exact hnext.elim
  | some x =>
    rw [hb] at hnext
    obtain ⟨heq, hr'⟩ := hnext
    refine ⟨x.2, by rw [← heq], ?_, ⟨_, hr', hp.next? hn⟩, hr'.now, hr'.issued.trans hr.issued.symm, ?_⟩
    · rw [nextTime?, hr.top_eq hp, hearliest]
      rfl
    · intro f
      rw [← hr'.mem_live, ← hr.mem_live]
      change f ∈ p.without e.handle ↔ _
      rw [Plain.mem_without]
      exact and_congr_right fun hf => not_congr ⟨fun h => hp.unique hf hmem h, fun h => congrArg Event.handle h⟩

end Agenda.IsQueue

/-- an event that is accepted is all that joins the agenda -/
theorem Simulation.schedule_holds {s : Simulation ε μ W} (hs : s.agenda.IsQueue) {delay : Float}
    (hd : Agenda.accepts delay = true) (source target : EntityId) (message : μ) :
    ∃ agenda, s.schedule delay source target message = (.ok s.agenda.issued, { s with agenda }) ∧ agenda.IsQueue ∧
      agenda.now = s.now ∧ agenda.issued = s.agenda.issued + 1 ∧ ∀ e, agenda.Holds e ↔
        s.agenda.Holds e ∨ e = { time := s.now + delay, source, target, handle := s.agenda.issued, message } := by
  obtain ⟨p, hr, hp⟩ := hs
  obtain ⟨agenda, heq, hr', hq⟩ := schedule_eq hr hp hd source target message
  have hissued : agenda.issued = p.issued + 1 := hr'.issued
  have hnow : agenda.now = p.now := hr'.now
  rw [← hr.issued] at heq hr' hq hissued
  rw [← hr.now] at hr' hq hnow
  refine ⟨agenda, heq, ⟨_, hr', hq⟩, hnow, hissued, fun e => ?_⟩
  rw [← hr'.mem_live, ← hr.mem_live]
  change e ∈ p.live ++ _ ↔ _
  rw [List.mem_append, List.mem_singleton]
  rfl

end BrokerSim
