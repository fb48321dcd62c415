/-
The order in which events leave. An event that is accepted enters the agenda, and then it leaves or is struck off;
`History` is a list of such passages, read off the answers of an agenda (`Agenda.history`) or off the deeds of a run
(`Deed.passage?`).
- `InOrder`: the events that left stand in the order of their times and, at equal times, of their handles; an event
  that was not struck off left before every other one that comes after it.
- `Filed`: the history and the queue that it leaves. Entering, leaving and being struck off keep to it (`Filed.enter`,
  `Filed.leave`, `Filed.strike`), and so does every request (`Filed.answer`) and every stroke (`Filed.stroke`).
- `events_leave_in_order`: so it is after any requests to an agenda and in any calls of a simulation, those included
  that never come back.
-/
import BrokerSim.Proofs.Kernel.Chronicle
import BrokerSim.Proofs.Sum

namespace BrokerSim

variable {ε μ W : Type}

/-! ## Passages -/

/-- what an event goes through: it enters the agenda, and then it leaves or is struck off -/
inductive Passage (μ : Type) where
  | entered (event : Event μ)
  | left (event : Event μ)
  | struck (handle : Handle)

namespace Passage

def entered? : Passage μ → Option (Event μ)
  | entered e => some e
  | _ => none

def left? : Passage μ → Option (Event μ)
  | left e => some e
  | _ => none

def struck? : Passage μ → Option Handle
  | struck h => some h
  | _ => none

end Passage

/-- passages, first one first -/
abbrev History (μ : Type) : Type := List (Passage μ)

namespace History

def entered (history : History μ) : List (Event μ) := history.filterMap Passage.entered?

def left (history : History μ) : List (Event μ) := history.filterMap Passage.left?

def struck (history : History μ) : List Handle := history.filterMap Passage.struck?

/-- where the clock stands: at the time of the last event that left -/
def now (history : History μ) : Time := (history.left.getLast?.map Event.time).getD 0

variable (history : History μ) (x : Passage μ)

theorem entered_snoc : entered (history ++ [x]) = history.entered ++ x.entered?.toList := by
  cases x <;> simp [entered, Passage.entered?]

theorem left_snoc : left (history ++ [x]) = history.left ++ x.left?.toList := by
  cases x <;> simp [left, Passage.left?]

theorem struck_snoc : struck (history ++ [x]) = history.struck ++ x.struck?.toList := by
  cases x <;> simp [struck, Passage.struck?]

theorem now_snoc (hx : x.left? = none) : now (history ++ [x]) = history.now := by
  rw [now, left_snoc, hx, Option.toList, List.append_nil]
  rfl

theorem now_left (e : Event μ) : now (history ++ [.left e]) = e.time := by
  rw [now, left_snoc]
  simp [Passage.left?]

end History

/-- events leave by time and, at equal times, first come, first served -/
structure InOrder (history : History μ) : Prop where
  /-- handles are numbered in the order in which events enter -/
  numbered : history.entered.map Event.handle = List.range history.entered.length
  /-- no event is due at a time that is not a number or has a sign -/
  onClock : ∀ e ∈ history.entered, e.time.OnClock
  came : ∀ e ∈ history.left, e ∈ history.entered
  /-- each event that leaves comes after all that left before, in the total order of floats and as numbers compare -/
  strict : history.left.Pairwise fun e f => e.before f = true ∧ e.precedes f = true
  /-- no event leaves while another one that comes before it is still to come -/
  served : ∀ e ∈ history.entered, e.handle ∉ history.struck → ∀ f ∈ history.left, e.before f = true →
    [e, f].Sublist history.left

/-! ## The queue behind a history -/

/-- a history, and the queue that it leaves -/
structure Filed (history : History μ) (p : Plain μ) : Prop where
  sound : p.Sound
  timely : p.Timely
  numbered : history.entered.map Event.handle = List.range p.issued
  onClock : ∀ e ∈ history.entered, e.time.OnClock
  came : ∀ e ∈ history.left, e ∈ history.entered
  live : ∀ e ∈ p.live, e ∈ history.entered
  whereabouts : ∀ e ∈ history.entered, e ∈ history.left ∨ e.handle ∈ history.struck ∨ e ∈ p.live
  strict : history.left.Pairwise (·.key < ·.key)
  /-- what has left comes before all that is still to come, and is past -/
  ahead : ∀ e ∈ history.left, ∀ f ∈ p.live, e.key < f.key
  past : ∀ e ∈ history.left, e.time.rank ≤ p.now.rank
  now : p.now = history.now

namespace Filed

variable {history : History μ} {p q : Plain μ} {e : Event μ}

theorem fresh : Filed ([] : History μ) {} where
  sound := Plain.sound_fresh
  timely := fun _ he => (List.not_mem_nil he).elim
  numbered := rfl
  onClock := fun _ he => (List.not_mem_nil he).elim
  came := fun _ he => (List.not_mem_nil he).elim
  live := fun _ he => (List.not_mem_nil he).elim
  whereabouts := fun _ he => (List.not_mem_nil he).elim
  strict := List.Pairwise.nil
  ahead := fun _ he => (List.not_mem_nil he).elim
  past := fun _ he => (List.not_mem_nil he).elim
  now := rfl

theorem handle_lt (hf : Filed history p) (he : e ∈ history.entered) : e.handle < p.issued := by
  have hmem := List.mem_map_of_mem (f := Event.handle) he
  rwa [hf.numbered, List.mem_range] at hmem

/-- an event enters, under the next handle and for a time that is not past -/
theorem enter (hf : Filed history p) (hh : e.handle = p.issued) (hc : e.time.OnClock) (ht : p.now ≤ e.time)
    (hq : (p.extend [e]).Sound) : Filed (history ++ [.entered e]) (p.extend [e]) := by
  have hentered : History.entered (history ++ [.entered e]) = history.entered ++ [e] := History.entered_snoc ..
  have hleft : History.left (history ++ [.entered e]) = history.left :=
    (History.left_snoc ..).trans (List.append_nil _)
  have hstruck : History.struck (history ++ [.entered e]) = history.struck :=
    (History.struck_snoc ..).trans (List.append_nil _)
  constructor
  case sound => exact hq
  case timely =>
    refine hf.timely.extend ?_
    intro f hmem
    rwa [List.mem_singleton.1 hmem]
  case numbered =>
    rw [hentered, List.map_append, hf.numbered, List.map_singleton, hh]
    exact List.range_succ.symm
  case onClock =>
    intro f hmem
    rw [hentered] at hmem
    rcases List.mem_append.1 hmem with hmem | hmem
    · exact hf.onClock f hmem
    · rwa [List.mem_singleton.1 hmem]
  case came =>
    intro f hmem
    rw [hleft] at hmem
    rw [hentered]
    exact List.mem_append_left _ (hf.came f hmem)
  case live =>
    intro f hmem
    rw [hentered]
    exact (List.mem_append.1 hmem).elim (fun h => List.mem_append_left _ (hf.live f h)) (List.mem_append_right _)
  case whereabouts =>
    intro f hmem
    rw [hentered] at hmem
    rw [hleft, hstruck]
    rcases List.mem_append.1 hmem with hmem | hmem
    · exact (hf.whereabouts f hmem).imp_right (Or.imp_right (List.mem_append_left _))
    · exact .inr (.inr (List.mem_append_right _ hmem))
  case strict =>
    rw [hleft]
    exact hf.strict
  case ahead =>
    intro g hg f hmem
    rw [hleft] at hg
    rcases List.mem_append.1 hmem with hmem | hmem
    · exact hf.ahead g hg f hmem
    · -- the new event is not due before now, and at equal times its handle comes last
      rw [List.mem_singleton.1 hmem, Event.key, Event.key, Prod.Lex.toLex_lt_toLex, hh]
      have htime := (hf.past g hg).trans ((Time.rank_le_iff hf.sound.now hc).2 ht)
      exact htime.lt_or_eq.imp_right fun heq => ⟨heq, hf.handle_lt (hf.came g hg)⟩
  case past =>
    rw [hleft]
    exact hf.past
  case now => exact hf.now.trans (History.now_snoc _ _ rfl).symm

/-- the event that is due leaves -/
theorem leave (hf : Filed history p) (hn : p.next? = some (e, q)) : Filed (history ++ [.left e]) q := by
  have hentered : History.entered (history ++ [.left e]) = history.entered :=
    (History.entered_snoc ..).trans (List.append_nil _)
  have hleft : History.left (history ++ [.left e]) = history.left ++ [e] := History.left_snoc ..
  have hstruck : History.struck (history ++ [.left e]) = history.struck :=
    (History.struck_snoc ..).trans (List.append_nil _)
  obtain ⟨he, hlive, hnow, hissued, -, -⟩ := hf.sound.next?_eq hn
  have hle : ∀ f ∈ p.live, e.key ≤ f.key := by
    obtain ⟨f, hfirst, heq⟩ := Option.map_eq_some_iff.1 hn
    cases heq
    exact key_le_of_earliest? hf.sound.time hfirst
  have hrank : p.now.rank ≤ e.time.rank :=
    (Time.rank_le_iff hf.sound.now (hf.sound.time e he)).2 (hf.timely e he)
  constructor
  case sound => exact hf.sound.next? hn
  case timely => exact (hf.timely.leave hf.sound hn).1
  case numbered =>
    rw [hentered, hissued]
    exact hf.numbered
  case onClock =>
    rw [hentered]
    exact hf.onClock
  case came =>
    intro f hmem
    rw [hleft] at hmem
    rw [hentered]
    rcases List.mem_append.1 hmem with hmem | hmem
    · exact hf.came f hmem
    · rw [List.mem_singleton.1 hmem]
      exact hf.live e he
  case live =>
    intro f hmem
    rw [hentered]
    exact hf.live f ((hlive f).1 hmem).1
  case whereabouts =>
    intro f hmem
    rw [hentered] at hmem
    rw [hleft, hstruck]
    rcases hf.whereabouts f hmem with h | h | h
    · exact .inl (List.mem_append_left _ h)
    · exact .inr (.inl h)
    · by_cases hfe : f.handle = e.handle
      · rw [hf.sound.unique h he hfe]
        exact .inl (List.mem_append_right _ (List.mem_singleton_self e))
      · exact .inr (.inr ((hlive f).2 ⟨h, hfe⟩))
  case strict =>
    rw [hleft]
    refine List.pairwise_append.2 ⟨hf.strict, List.pairwise_singleton _ _, ?_⟩
    intro g hg f hmem
    rw [List.mem_singleton.1 hmem]
    exact hf.ahead g hg e he
  case ahead =>
    intro g hg f hmem
    obtain ⟨hfl, hne⟩ := (hlive f).1 hmem
    rw [hleft] at hg
    rcases List.mem_append.1 hg with hg | hg
    · exact hf.ahead g hg f hfl
    · rw [List.mem_singleton.1 hg]
      exact (hle f hfl).lt_of_ne fun heq => hne (congrArg Prod.snd (toLex.injective heq)).symm
  case past =>
    intro g hg
    rw [hleft] at hg
    rw [hnow]
    rcases List.mem_append.1 hg with hg | hg
    · exact (hf.past g hg).trans hrank
    · rw [List.mem_singleton.1 hg]
  case now => exact hnow.trans (History.now_left _ _).symm

/-- an event that was still to come is struck off -/
theorem strike (hf : Filed history p) {k : Handle} (hk : p.isPending k = true) :
    Filed (history ++ [.struck k]) (p.cancel k).2 := by
  have hentered : History.entered (history ++ [.struck k]) = history.entered :=
    (History.entered_snoc ..).trans (List.append_nil _)
  have hleft : History.left (history ++ [.struck k]) = history.left :=
    (History.left_snoc ..).trans (List.append_nil _)
  have hstruck : History.struck (history ++ [.struck k]) = history.struck ++ [k] := History.struck_snoc ..
  have hq : (p.cancel k).2 = { p with live := p.without k, cancelled := p.cancelled + 1 } := by
    unfold Plain.cancel
    rw [if_pos hk]
  have hsound := hf.sound.cancel k
  rw [hq] at hsound ⊢
  constructor
  case sound => exact hsound
  case timely => exact fun f hmem => hf.timely f (Plain.mem_without.1 hmem).1
  case numbered =>
    rw [hentered]
    exact hf.numbered
  case onClock =>
    rw [hentered]
    exact hf.onClock
  case came =>
    rw [hentered, hleft]
    exact hf.came
  case live =>
    rw [hentered]
    exact fun f hmem => hf.live f (Plain.mem_without.1 hmem).1
  case whereabouts =>
    intro f hmem
    rw [hentered] at hmem
    rw [hleft, hstruck]
    rcases hf.whereabouts f hmem with h | h | h
    · exact .inl h
    · exact .inr (.inl (List.mem_append_left _ h))
    · by_cases hfk : f.handle = k
      · exact .inr (.inl (List.mem_append_right _ (List.mem_singleton.2 hfk)))
      · exact .inr (.inr (Plain.mem_without.2 ⟨h, hfk⟩))
  case strict =>
    rw [hleft]
    exact hf.strict
  case ahead =>
    rw [hleft]
    exact fun g hg f hmem => hf.ahead g hg f (Plain.mem_without.1 hmem).1
  case past =>
    rw [hleft]
    exact hf.past
  case now => exact hf.now.trans (History.now_snoc _ _ rfl).symm

/-- **What has left stands in order.** -/
theorem inOrder (hf : Filed history p) : InOrder history := by
  have hclock : ∀ e ∈ history.left, e.time.OnClock := fun e he => hf.onClock e (hf.came e he)
  constructor
  case numbered =>
    have hlength := congrArg List.length hf.numbered
    rw [List.length_map, List.length_range] at hlength
    rw [hlength]
    exact hf.numbered
  case onClock => exact hf.onClock
  case came => exact hf.came
  case strict =>
    refine hf.strict.imp_of_mem ?_
    intro e f he hmem hlt
    exact ⟨(e.before_iff f).2 hlt, (Event.precedes_iff (hclock e he) (hclock f hmem)).2 hlt⟩
  case served =>
    intro e he hstruck f hmem hbefore
    rw [Event.before_iff] at hbefore
    rcases hf.whereabouts e he with hleft | h | hlive
    · -- both have left, and the list of those that left is strictly increasing
      obtain ⟨first, rest, hl⟩ := List.append_of_mem hleft
      have hstrict := hf.strict
      rw [hl, List.pairwise_append, List.pairwise_cons] at hstrict
      obtain ⟨-, -, hfirst⟩ := hstrict
      rw [hl, List.mem_append, List.mem_cons] at hmem
      rw [hl]
      rcases hmem with hmem | rfl | hmem
      · exact absurd hbefore (hfirst f hmem e List.mem_cons_self).asymm
      · exact absurd hbefore (lt_irrefl _)
      · exact ((List.singleton_sublist.2 hmem).cons_cons e).trans (List.sublist_append_right _ _)
    · exact absurd h hstruck
    · exact absurd hbefore (hf.ahead f hmem e hlive).asymm

end Filed

/-! ## Requests -/

namespace Agenda

/-- what a request makes an event go through, if anything -/
def passage? (a : Agenda μ) (r : Request μ) : Option (Passage μ) :=
  match r, (a.answer r).1 with
  | .schedule delay source target message, .scheduled (.ok handle) =>
    some (.entered { time := a.now + delay, source, target, handle, message })
  | .next, .left (some e) => some (.left e)
  | .cancel h, .cancelled true => some (.struck h)
  | _, _ => none

/-- the passages of a list of requests -/
def history : List (Request μ) → Agenda μ → History μ
  | [], _ => []
  | r :: rest, a => (a.passage? r).toList ++ history rest (a.answer r).2

/-- the agenda after a list of requests -/
def after (requests : List (Request μ)) : Agenda μ := requests.foldl (fun a r => (a.answer r).2) {}

end Agenda

namespace Filed

variable {history : History μ} {p : Plain μ} {a : Agenda μ}

/-- the delay is felt or not, but the clock does not go back -/
theorem schedule (hf : Filed history p) {delay : Float} (hd : Agenda.accepts delay = true) (source target : EntityId)
    (message : μ) (hq : (p.extend [{ time := p.now + delay, source, target, handle := p.issued, message }]).Sound) :
    Filed (history ++ [.entered { time := p.now + delay, source, target, handle := p.issued, message }])
      (p.extend [{ time := p.now + delay, source, target, handle := p.issued, message }]) :=
  hf.enter rfl (Time.onClock_add hf.sound.now hd) (Time.le_add hf.sound.now hd) hq

/-- **Every request keeps the order,** and none turns the clock back. -/
theorem answer (hf : Filed history p) (hr : Refines a p) (r : Request μ) :
    ∃ q, Filed (history ++ (a.passage? r).toList) q ∧ Refines (a.answer r).2 q ∧ p.now ≤ q.now := by
  have same : p.now ≤ p.now := Time.le_refl hf.sound.now
  cases r with
  | schedule delay source target message =>
    cases hd : Agenda.accepts delay with
    | true =>
      have hplain : p.schedule delay source target message = .ok (p.issued,
          p.extend [{ time := p.now + delay, source, target, handle := p.issued, message }]) := by
        rw [Time.accepts_eq] at hd
        exact if_neg (by simpa using hd)
      have hagenda : a.schedule delay source target message = .ok (a.issued, { a with
          heap := a.heap.insert Event.before { time := a.now + delay, source, target, handle := a.issued, message }
          pending := a.pending.insert a.issued
          issued := a.issued + 1 }) := if_pos hd
      have hpair := hr.schedule delay source target message
      rw [hplain, hagenda] at hpair
      refine ⟨p.extend [{ time := p.now + delay, source, target, handle := p.issued, message }], ?_, ?_, same⟩
      · have hentered : a.passage? (.schedule delay source target message) =
            some (.entered { time := a.now + delay, source, target, handle := a.issued, message }) := by
          unfold Agenda.passage? Agenda.answer
          simp only [hagenda]
        rw [hentered, hr.now, hpair.1]
        exact hf.schedule hd source target message (hf.sound.schedule hplain)
      · simp only [Agenda.answer, hagenda]
        exact hpair.2
    | false =>
      have hagenda : ∃ err, a.schedule delay source target message = .error err := ⟨_, if_neg (by simp [hd])⟩
      obtain ⟨err, hagenda⟩ := hagenda
      have hnone : a.passage? (.schedule delay source target message) = none := by
        unfold Agenda.passage? Agenda.answer
        simp only [hagenda]
      refine ⟨p, ?_, ?_, same⟩
      · rw [hnone, Option.toList, List.append_nil]
        exact hf
      · simp only [Agenda.answer, hagenda]
        exact hr
  | next =>
    have hpair := hr.next hf.sound
    unfold Agenda.passage? Agenda.answer
    cases ha : a.next? with
    | none =>
      refine ⟨p, ?_, hr, same⟩
      rw [Option.toList, List.append_nil]
      exact hf
    | some x =>
      cases hp : p.next? with
      | none => rw [ha, hp] at hpair; exact hpair.elim
      | some y =>
        rw [ha, hp] at hpair
        obtain ⟨heq, hr'⟩ := hpair
        refine ⟨y.2, ?_, hr', (hf.timely.leave hf.sound hp).2⟩
        exact hf.leave (by rw [hp, heq])
  | cancel h =>
    have hpair := hr.cancel hf.sound h
    cases hk : p.isPending h with
    | true =>
      have hdone : (a.cancel h).1 = true := by
        rw [hpair.1, Plain.cancel, if_pos hk]
      refine ⟨(p.cancel h).2, ?_, hpair.2, ?_⟩
      · have hstruck : a.passage? (.cancel h) = some (.struck h) := by
          unfold Agenda.passage? Agenda.answer
          simp only [hdone]
        rw [hstruck]
        exact hf.strike hk
      · rw [Plain.cancel, if_pos hk]
        exact same
    | false =>
      have hdone : (a.cancel h).1 = false := by
        rw [hpair.1, Plain.cancel, if_neg (by simp [hk])]
      have hsame : (p.cancel h).2 = p := by rw [Plain.cancel, if_neg (by simp [hk])]
      have hnone : a.passage? (.cancel h) = none := by
        unfold Agenda.passage? Agenda.answer
        simp only [hdone]
      refine ⟨p, ?_, hsame ▸ hpair.2, same⟩
      rw [hnone, Option.toList, List.append_nil]
      exact hf

/-- any requests to an agenda -/
theorem answers (hf : Filed history p) (hr : Refines a p) (requests : List (Request μ)) :
    ∃ q, Filed (history ++ Agenda.history requests a) q ∧
      Refines (requests.foldl (fun a r => (a.answer r).2) a) q ∧ p.now ≤ q.now := by
  induction requests generalizing history p a with
  | nil => exact ⟨p, (List.append_nil history).symm ▸ hf, hr, Time.le_refl hf.sound.now⟩
  | cons r rest ih =>
    obtain ⟨q, hf', hr', hle⟩ := hf.answer hr r
    obtain ⟨o, hf'', hr'', hle'⟩ := ih hf' hr'
    rw [List.append_assoc] at hf''
    exact ⟨o, hf'', hr'', Time.le_trans hle hle'⟩

end Filed

/-! ## Runs -/

/-- what a deed makes an event go through, if anything -/
def Deed.passage? : Deed ε μ → Option (Passage μ)
  | scheduled e => some (.entered e)
  | cancelled h => some (.struck h)
  | dropped e => some (.left e)
  | reacted _ e _ => some (.left e)
  | _ => none

/-- the passages of the deeds of a run -/
def Deed.history (deeds : List (Deed ε μ)) : History μ := deeds.filterMap passage?

variable [Entity ε μ W]

open Simulation in
/-- **Every stroke keeps the order,** and none turns the clock back. -/
theorem Filed.stroke {history : History μ} {p : Plain μ} {s t : Simulation ε μ W} {new : List (Deed ε μ)}
    (hf : Filed history p) (hr : Refines s.agenda p) (h : Stroke s new t) :
    ∃ q, Filed (history ++ Deed.history new) q ∧ Refines t.agenda q ∧ p.now ≤ q.now := by
  have same : p.now ≤ p.now := Time.le_refl hf.sound.now
  have aside : t.agenda = s.agenda → Deed.history new = [] →
      ∃ q, Filed (history ++ Deed.history new) q ∧ Refines t.agenda q ∧ p.now ≤ q.now := by
    intro ha hn
    rw [hn, List.append_nil]
    exact ⟨p, hf, ha ▸ hr, same⟩
  cases h with
  | silent h => exact aside h.agenda rfl
  | @schedule _ _ delay source target message handle h =>
    cases hd : Agenda.accepts delay with
    | true =>
      obtain ⟨agenda, heq, hr', hq⟩ := schedule_eq hr hf.sound hd source target message
      cases heq.symm.trans h
      refine ⟨_, ?_, hr', same⟩
      change Filed (history ++ [.entered { time := s.agenda.now + delay, .. }]) _
      rw [hr.now]
      exact hf.schedule hd source target message hq
    | false =>
      obtain ⟨reason, heq⟩ := schedule_refused hd source target message s
      cases heq.symm.trans h
  | @cancel _ _ handle h =>
    obtain ⟨hdone, hr'⟩ := hr.cancel hf.sound handle
    have hpending : p.isPending handle = true := by
      have htrue : (s.agenda.cancel handle).1 = true := congrArg Prod.fst h
      rw [htrue, Plain.cancel] at hdone
      split_ifs at hdone with hp
      · exact hp
    have ht : t.agenda = (s.agenda.cancel handle).2 := congrArg (fun x => x.2.agenda) h.symm
    refine ⟨(p.cancel handle).2, hf.strike hpending, ht ▸ hr', ?_⟩
    rw [Plain.cancel, if_pos hpending]
    exact same
  | drop hn =>
    obtain ⟨q, hq, hr', -⟩ := next?_eq hr hf.sound hn
    exact ⟨q, hf.leave hq, hr', (hf.timely.leave hf.sound hq).2⟩
  | react hn =>
    obtain ⟨q, hq, hr', -⟩ := next?_eq hr hf.sound hn
    exact ⟨q, hf.leave hq, hr', (hf.timely.leave hf.sound hq).2⟩
  | outcome id r s =>
    refine aside ?_ rfl
    unfold absorbOutcome absorb
    split
    · rfl
    · split_ifs <;> rfl
  | spawn e s => exact aside rfl rfl
  | register e s => exact aside rfl rfl
  | enlist line => exact aside rfl rfl
  | finish s => exact aside (agenda_finish s) rfl

namespace Simulation

variable {s t : Simulation ε μ W} {deeds new : List (Deed ε μ)}

/-- the order and the clock, by strokes in a row -/
theorem Strokes.filed {history : History μ} {p : Plain μ} (h : Strokes s new t) (hf : Filed history p)
    (hr : Refines s.agenda p) :
    ∃ q, Filed (history ++ Deed.history new) q ∧ Refines t.agenda q ∧ p.now ≤ q.now := by
  induction h with
  | refl => exact ⟨p, (List.append_nil history).symm ▸ hf, hr, Time.le_refl hf.sound.now⟩
  | tail _ last ih =>
    obtain ⟨q, hf', hr', hle⟩ := ih
    obtain ⟨o, hf'', hr'', hle'⟩ := hf'.stroke hr' last
    refine ⟨o, ?_, hr'', Time.le_trans hle hle'⟩
    rw [List.append_assoc] at hf''
    rw [Deed.history, List.filterMap_append]
    exact hf''

theorem Recorded.filed (h : Recorded deeds s) : ∃ p, Filed (Deed.history deeds) p ∧ Refines s.agenda p := by
  induction h with
  | fresh limits world => exact ⟨{}, .fresh, .fresh⟩
  | call before h ih =>
    obtain ⟨p, hf, hr⟩ := ih
    obtain ⟨q, hf', hr', -⟩ := (Strokes.call h).filed hf hr
    refine ⟨q, ?_, hr'⟩
    rw [Deed.history, List.filterMap_append]
    exact hf'

/-- the deeds of a call are a row of strokes, whether the call comes back or not -/
theorem callDeeds_strokes (fuel : Nat) (s : Simulation ε μ W) (c : Call ε μ) :
    ∃ t, Strokes s (s.callDeeds fuel c) t := by
  obtain ⟨q, t, legs⟩ := callDeeds_legs (fun _ => True) fuel s c trivial
  exact ⟨t, legs.strokes⟩

end Simulation

/-! ## Any requests, any calls -/

open Simulation in
/-- **Events leave in order.** After any requests to an agenda, and in any calls of a simulation, whether the last one
    comes back or not, the events that left stand in the strict order of time and handle, and an event that was not
    struck off has left before any that comes after it. The clock stands at the time of the last one and never goes
    back; an event that is scheduled without a delay is due at the very time that the clock shows. -/
theorem events_leave_in_order :
    (∀ requests : List (Request μ),
      InOrder (Agenda.history requests {}) ∧
      (Agenda.after requests).now = (Agenda.history requests {}).now ∧
      (∀ more, (Agenda.after requests).now ≤ (Agenda.after (requests ++ more)).now) ∧
      ∀ delay : Float, (delay == 0) = true → Agenda.accepts delay = true ∧
        (Agenda.after requests).now + delay = (Agenda.after requests).now) ∧
    ∀ (deeds : List (Deed ε μ)) (s : Simulation ε μ W), Recorded deeds s →
      (∀ fuel c, InOrder (Deed.history (deeds ++ s.callDeeds fuel c))) ∧
      s.now = (Deed.history deeds).now ∧
      ∀ fuel c a t, s.call fuel c = some (a, t) → s.now ≤ t.now := by
  refine ⟨?_, ?_⟩
  · intro requests
    obtain ⟨p, hf, hr, -⟩ := Filed.fresh.answers Refines.fresh requests
    have hr : Refines (Agenda.after requests) p := hr
    refine ⟨hf.inOrder, hr.now.trans hf.now, ?_, ?_⟩
    · intro more
      obtain ⟨q, -, hr', hle⟩ := hf.answers hr more
      have hafter : Agenda.after (requests ++ more) =
          more.foldl (fun a r => (a.answer r).2) (Agenda.after requests) := List.foldl_append ..
      rw [hafter, hr.now, hr'.now]
      exact hle
    · intro delay hd
      refine ⟨Time.accepts_zero hd, ?_⟩
      rw [hr.now]
      exact Time.add_zero_eq hf.sound.now hd
  · intro deeds s h
    obtain ⟨p, hf, hr⟩ := h.filed
    refine ⟨?_, hr.now.trans hf.now, ?_⟩
    · intro fuel c
      obtain ⟨t, ht⟩ := callDeeds_strokes fuel s c
      obtain ⟨q, hf', -, -⟩ := ht.filed hf hr
      rw [Deed.history, List.filterMap_append]
      exact hf'.inOrder
    · intro fuel c a t hc
      obtain ⟨q, -, hr', hle⟩ := (Strokes.call hc).filed hf hr
      change s.agenda.now ≤ t.agenda.now
      rw [hr.now, hr'.now]
      exact hle

section Premiere

open Simulation Standin

/-- an event without a delay, whatever the sign of the zero, waits for those that are due at the same time -/
example : (Agenda.history
    [.schedule 1 0 0 "first", .schedule 1 0 0 "second", .next, .schedule (-0.0) 0 0 "third", .next, .next, .next]
    {}).left.map Event.message = ["first", "second", "third"] := by decide +kernel

/-- the event for nobody leaves first, because it is due at once, though it was scheduled after the cue -/
theorem events_leave_in_order_of_premiere : ∃ deeds, Recorded deeds premiere ∧
    InOrder (Deed.history (deeds ++ premiere.callDeeds 1 .step)) ∧
    (Deed.history (deeds ++ premiere.callDeeds 1 .step)).left.map Event.handle = [2, 0, 3] ∧
    premiere.now = 1 := by
  obtain ⟨a, ha⟩ := call_after 1 theatre (.register producer) (by decide +kernel)
  obtain ⟨b, hb⟩ := call_after 1 rehearsed .step (by decide +kernel)
  obtain ⟨c, hc⟩ := call_after 1 (rehearsed.after 1 .step) .step (by decide +kernel)
  have opened : Recorded [] theatre := .fresh _ _
  have registered := opened.call ha
  have dropped := Recorded.call registered hb
  have delivered : Recorded _ premiere := Recorded.call dropped hc
  obtain ⟨horder, hnow, -⟩ := events_leave_in_order.2 _ premiere delivered
  refine ⟨_, delivered, horder 1 .step, by decide +kernel, ?_⟩
  rw [hnow]
  decide +kernel

end Premiere

end BrokerSim
