/-
What a run says when it comes to rest, and whether it is so.
- `loop_popped`: no event that leaves in a run lies beyond the horizon, whether the run comes back or not.
- `Recorded.holds_iff`: the events still to come are those that were accepted and have not gone.
- `Truthful`: what each outcome promises. `rest?_truthful`: what brings a run to rest keeps the promise, whichever of
  several reasons it gives; `loop_rests_at`: and a run that is answered came to rest so, going on until then.
- `outcomes_tell_the_truth`: both, for runs to the end and for runs up to a time, after any calls.
-/
import BrokerSim.Proofs.Kernel.Beat
import BrokerSim.Proofs.Kernel.Unbroken
import BrokerSim.Proofs.Kernel.Walk

namespace BrokerSim

variable {ε μ W : Type}

/-! ## Agendas by their next time -/

namespace Agenda

variable {a b : Agenda μ} {e : Event μ}

theorem IsTimely.isQueue (h : a.IsTimely) : a.IsQueue := by
  obtain ⟨history, p, hf, hr⟩ := h
  exact ⟨p, hr, hf.sound⟩

/-- the event that leaves is the one that the agenda showed the time of -/
theorem IsQueue.nextTime?_of_next? (ha : a.IsQueue) (hn : a.next? = some (e, b)) :
    a.Holds e ∧ a.nextTime? = some e.time := by
  obtain ⟨p, hr, hp⟩ := ha
  have hnext := hr.next hp
  rw [hn] at hnext
  cases hq : p.next? with
  | none => rw [hq] at hnext; exact hnext.elim
  | some x =>
    rw [hq] at hnext
    obtain ⟨f, hf, heq⟩ := Option.map_eq_some_iff.1 hq
    have hfe : f = e := (congrArg Prod.fst heq).trans hnext.1.symm
    rw [hfe] at hf
    refine ⟨hr.mem_live.1 (mem_of_earliest? hf), ?_⟩
    rw [nextTime?, hr.top_eq hp, hf]
    rfl

/-- an agenda that shows no time holds nothing -/
theorem IsQueue.of_nextTime?_none (ha : a.IsQueue) (hn : a.nextTime? = none) :
    a.size = 0 ∧ ∀ e, ¬ a.Holds e := by
  obtain ⟨p, hr, hp⟩ := ha
  rw [nextTime?, hr.top_eq hp, Option.map_eq_none_iff, earliest?_eq_none] at hn
  refine ⟨?_, fun e he => ?_⟩
  · rw [size, hr.size, hn]
    rfl
  · have hmem := hr.mem_live.2 he
    rw [hn] at hmem
    cases hmem

/-- the time that an agenda shows is that of an event, and no event is due before -/
theorem IsQueue.of_nextTime?_some {time : Time} (ha : a.IsQueue) (hn : a.nextTime? = some time) :
    (∃ e, a.Holds e) ∧ ∀ e, a.Holds e → time ≤ e.time := by
  obtain ⟨p, hr, hp⟩ := ha
  rw [nextTime?, hr.top_eq hp] at hn
  obtain ⟨f, hf, rfl⟩ := Option.map_eq_some_iff.1 hn
  exact ⟨⟨f, hr.mem_live.1 (mem_of_earliest? hf)⟩, fun e he => Plain.earliest_le hp hf e (hr.mem_live.2 he)⟩

end Agenda

namespace Simulation

variable [Entity ε μ W] {s t u : Simulation ε μ W} {deeds : List (Deed ε μ)}

/-! ## Events that leave in a call -/

theorem Recorded.isTimely (h : Recorded deeds s) : s.agenda.IsTimely := by
  obtain ⟨p, hf, hr⟩ := h.filed
  exact ⟨_, p, hf, hr⟩

/-- **No event that leaves in a run lies beyond the horizon.** -/
theorem loop_popped {horizon : Option Time} {fuel : Nat} (hs : s.agenda.IsTimely) :
    ∀ e ∈ popped (s.loopDeeds horizon fuel), e.time.OnClock ∧ isBeyond horizon e.time = false := by
  fun_induction loopDeeds horizon fuel s with
  | case1 fuel s x hrest => exact fun _ h => nomatch h
  | case2 fuel s hrest hnext => exact fun _ h => nomatch h
  | case3 s hrest e agenda hnext => exact fun _ h => nomatch h
  | case4 s hrest e agenda hnext fuel ih =>
    obtain ⟨holds, htime⟩ := hs.isQueue.nextTime?_of_next? hnext
    have hnear : isBeyond horizon e.time = false := by
      have hrest := hrest
      unfold rest? at hrest
      split_ifs at hrest with hl hstop
      split at hrest
      · cases hrest
      · rw [htime] at hrest
        simpa using hrest
    intro f hf
    rw [popped_append, popped_dispatchDeeds, List.singleton_append, List.mem_cons] at hf
    rcases hf with rfl | hf
    · exact ⟨(hs.isQueue.event holds).1, hnear⟩
    · split at hf
      · next u hu =>
        have spans := dispatch_spans (fun _ => True) fuel (live_of_rest? hrest) hnext
        rw [hu] at spans
        exact ih u (spans.legs.1.strokes.timely hs).1 f hf
      · cases hf

/-! ## What is still to come -/

/-- **The events still to come** are those that were accepted and have not gone. -/
theorem Recorded.holds_iff (h : Recorded deeds s) {e : Event μ} :
    s.agenda.Holds e ↔ .scheduled e ∈ deeds ∧ e.handle ∉ deeds.filterMap Deed.gone? := by
  obtain ⟨p, hb, hr⟩ := h.booked
  obtain ⟨q, hf, hr'⟩ := h.filed
  constructor
  · exact fun he => hb.live e (hr.mem_live.2 he)
  · rintro ⟨hs, hg⟩
    have entered : e ∈ (Deed.history deeds).entered :=
      List.mem_filterMap.2 ⟨.entered e, List.mem_filterMap.2 ⟨_, hs, rfl⟩, rfl⟩
    rcases hf.whereabouts e entered with hleft | hstruck | hlive
    · obtain ⟨x, hx, heq⟩ := List.mem_filterMap.1 hleft
      obtain ⟨d, hd, hpassage⟩ := List.mem_filterMap.1 hx
      refine absurd (List.mem_filterMap.2 ⟨d, hd, ?_⟩) hg
      cases x <;> cases heq
      cases d <;> cases hpassage <;> rfl
    · obtain ⟨x, hx, heq⟩ := List.mem_filterMap.1 hstruck
      obtain ⟨d, hd, hpassage⟩ := List.mem_filterMap.1 hx
      refine absurd (List.mem_filterMap.2 ⟨d, hd, ?_⟩) hg
      cases x <;> cases heq
      cases d <;> cases hpassage
      rfl
    · exact hr'.mem_live.1 hlive

/-! ## Coming to rest -/

/-- what the outcome of a run up to a horizon says of the simulation that it leaves -/
def Truthful (horizon : Option Time) (t : Simulation ε μ W) : RunOutcome → Prop
  | .drained => t.agenda.size = 0 ∧ ∀ e, ¬ t.agenda.Holds e
  | .horizon => ∃ limit, horizon = some limit ∧ (∃ e, t.agenda.Holds e) ∧ ∀ e, t.agenda.Holds e → limit < e.time
  | .eventLimit => ∃ limit, t.limits.maxEvents? = some limit ∧ limit.toNat ≤ t.stats.dispatched
  | .stopped => t.terminated = true

/-- the end of a run makes no outcome less true -/
theorem Truthful.finish {horizon : Option Time} {outcome : RunOutcome} (h : Truthful horizon t outcome) :
    Truthful horizon t.finish outcome := by
  cases outcome with
  | drained =>
    rw [Truthful, agenda_finish]
    exact h
  | horizon =>
    rw [Truthful, agenda_finish]
    exact h
  | eventLimit =>
    rw [Truthful, limits_finish, stats_finish]
    exact h
  | stopped => exact terminated_finish t

/-- **What brings a run to rest is what it says,** whichever reason it gives. Unless it is a stop, the run may go on. -/
theorem rest?_truthful {horizon : Option Time} {outcome : RunOutcome} (hs : s.agenda.IsQueue)
    (h : s.rest? horizon = some (outcome, t)) :
    Truthful horizon t outcome ∧ (outcome ≠ .stopped → t.terminated = false ∧ Unbroken s t) := by
  unfold rest? at h
  split_ifs at h with hl hstop
  · cases h
    exact ⟨hl, fun hne => absurd rfl hne⟩
  · cases h
    exact ⟨terminated_finish _, fun hne => absurd rfl hne⟩
  · have hl : s.terminated = false := by simpa using hl
    split at h
    · next limit hlimit =>
      cases h
      obtain ⟨hmax, hreached⟩ := Option.filter_eq_some_iff.1 hlimit
      obtain ⟨n, hn, rfl⟩ := Option.map_eq_some_iff.1 hmax
      have hnote : Effect [] s (s.note (.limitReached n.toNat s.now)) := .note rfl rfl
      exact ⟨⟨n, hn, of_decide_eq_true hreached⟩, fun _ => ⟨hl, hnote.unbroken⟩⟩
    · split at h
      · next hnone =>
        cases h
        exact ⟨hs.of_nextTime?_none hnone, fun _ => ⟨hl, .refl s⟩⟩
      · next time htime =>
        split_ifs at h with hbeyond
        cases h
        obtain ⟨some_held, hleast⟩ := hs.of_nextTime?_some htime
        refine ⟨?_, fun _ => ⟨hl, .refl s⟩⟩
        cases horizon with
        | none => cases hbeyond
        | some limit =>
          have hlt : limit < time := by simpa [isBeyond] using hbeyond
          exact ⟨limit, rfl, some_held, fun e he => Time.lt_of_lt_of_le hlt (hleast e he)⟩

/-- a run that is answered went on until something brought it to rest -/
theorem loop_rests_at {horizon : Option Time} {fuel : Nat} {outcome : RunOutcome} (hf : Fair s)
    (hs : s.agenda.IsTimely) (h : s.loop horizon fuel = some (.ok outcome, t)) :
    ∃ u, Unbroken s u ∧ u.agenda.IsTimely ∧ u.rest? horizon = some (outcome, t) := by
  cases hl : s.terminated with
  | true =>
    cases (loop_of_terminated hl horizon fuel).symm.trans h
    exact ⟨s, .refl s, hs, if_pos hl⟩
  | false =>
    obtain ⟨q, u, legs, same, rest⟩ := loop_legs (fun _ => True) horizon fuel s
    have timely := (legs.strokes.timely hs).1
    cases (rest _ _ h).2 with
    | rest hrest => exact ⟨u, (legs.unbroken hf).2 (same.trans hl), timely, hrest⟩
    | empty hrest hnext =>
      -- an agenda without a next event shows no time, so the run was at rest already
      have htime := timely.isQueue.next?_eq_none.1 hnext
      unfold rest? at hrest
      split_ifs at hrest
      split at hrest
      · cases hrest
      · rw [htime] at hrest
        cases hrest

theorem loop_truthful {horizon : Option Time} {fuel : Nat} {outcome : RunOutcome} (hf : Fair s)
    (hs : s.agenda.IsTimely) (h : s.loop horizon fuel = some (.ok outcome, t)) :
    Truthful horizon t outcome ∧ (outcome ≠ .stopped → t.terminated = false ∧ Unbroken s t) := by
  obtain ⟨u, moved, hu, hrest⟩ := loop_rests_at hf hs h
  obtain ⟨truthful, rested⟩ := rest?_truthful hu.isQueue hrest
  exact ⟨truthful, fun hne => (rested hne).imp_right moved.trans⟩

/-- an event that is not beyond a time is due by then -/
theorem le_of_not_isBeyond {time limit : Time} (ht : time.OnClock) (hn : limit.isNaN = false)
    (h : isBeyond (some limit) time = false) : time ≤ limit := by
  have hnan : time.isNaN = false := (Time.isNaN_of_le (Time.le_refl ht)).1
  exact (Time.not_lt_iff_le hn hnan).1 (by simpa [isBeyond] using h)

/-- **Outcomes tell the truth,** after any calls. No event leaves in a run that is due after its bound, whether the run
    comes back or not. A run up to a time that is not stopped pauses: it shuts nobody down, the simulation may go on, and
    just those events are still to come that were accepted and have not gone. A run to the end leaves nobody running. -/
theorem outcomes_tell_the_truth (h : Recorded deeds s) (fuel : Nat) :
    (∀ time : Time, time.isNaN = false →
      (∀ e ∈ popped (s.callDeeds fuel (.runUntil time)), e.time ≤ time) ∧
      ∀ outcome t, s.call fuel (.runUntil time) = some (.ran (.ok outcome), t) →
        Truthful (some time) t outcome ∧
        (outcome ≠ .stopped → t.terminated = false ∧ Unbroken s t) ∧
        ∀ e, t.agenda.Holds e ↔ .scheduled e ∈ deeds ++ s.callDeeds fuel (.runUntil time) ∧
          e.handle ∉ (deeds ++ s.callDeeds fuel (.runUntil time)).filterMap Deed.gone?) ∧
    ((∀ time, s.limits.until? = some time → time.isNaN = false) →
      (∀ e ∈ popped (s.callDeeds fuel .run), ∀ time, s.limits.until? = some time → e.time ≤ time) ∧
      ∀ r t, s.call fuel .run = some (.ran r, t) →
        (∀ outcome, r = .ok outcome → Truthful s.limits.until? t outcome) ∧
        t.terminated = true ∧ ∀ id, t.runs id = false) := by
  refine ⟨?_, ?_⟩
  · intro time hn
    refine ⟨?_, ?_⟩
    · intro e he
      obtain ⟨hclock, hnear⟩ := loop_popped h.isTimely e he
      exact le_of_not_isBeyond hclock hn hnear
    · intro outcome t hc
      refine ⟨?_, ?_, fun e => (h.call hc).holds_iff⟩
      all_goals
        cases answered hc with
        | runUntil hu => ?_
      · exact (loop_truthful h.fair h.isTimely hu).1
      · exact (loop_truthful h.fair h.isTimely hu).2
  · intro hn
    refine ⟨?_, ?_⟩
    · intro e he time htime
      obtain ⟨hclock, hnear⟩ := loop_popped h.isTimely e he
      rw [htime] at hnear
      exact le_of_not_isBeyond hclock (hn time htime) hnear
    · intro r t hc
      have hf := (h.call hc).fair
      cases answered hc with
      | @run _ u hu =>
        have ht := terminated_finish u
        refine ⟨?_, ht, (hf.ended ht).2⟩
        rintro outcome rfl
        exact (loop_truthful h.fair h.isTimely hu).1.finish

/-- the outcome of a run that did not fail -/
def Answer.outcome? : Answer → Option RunOutcome
  | .ran (.ok outcome) => some outcome
  | _ => none

/-- a call whose answer says something came back with an answer that says so -/
theorem call_answered {β : Type} (read : Answer → Option β) (fuel : Nat) (s : Simulation ε μ W) (c : Call ε μ) (b : β)
    (h : ((s.call fuel c).bind fun x => read x.1) = some b) :
    ∃ a, s.call fuel c = some (a, s.after fuel c) ∧ read a = some b := by
  obtain ⟨⟨a, t⟩, hc, ha⟩ := Option.bind_eq_some_iff.1 h
  have hafter : s.after fuel c = t := by rw [after, hc]; rfl
  exact ⟨a, by rw [hc, hafter], ha⟩

theorem call_ran (fuel : Nat) (s : Simulation ε μ W) (c : Call ε μ) (outcome : RunOutcome)
    (h : ((s.call fuel c).bind fun x => x.1.outcome?) = some outcome) :
    s.call fuel c = some (.ran (.ok outcome), s.after fuel c) := by
  obtain ⟨a, hc, ha⟩ := call_answered Answer.outcome? fuel s c outcome h
  rw [hc]
  cases a with
  | ran r =>
    cases r with
    | ok o => cases ha; rfl
    | error err => cases ha
  | _ => cases ha

/-- the rehearsal pauses before its second event, and then it is run to the end -/
theorem outcomes_tell_the_truth_of_rehearsal :
    (rehearsal.after 5 (.runUntil 2)).terminated = false ∧
      (∃ e, (rehearsal.after 5 (.runUntil 2)).agenda.Holds e) ∧
      (∀ e, (rehearsal.after 5 (.runUntil 2)).agenda.Holds e → 2 < e.time) ∧
      ((rehearsal.after 5 (.runUntil 2)).after 5 .run).agenda.size = 0 ∧
      ((rehearsal.after 5 (.runUntil 2)).after 5 .run).terminated = true := by
  obtain ⟨a, ha⟩ := call_after 1 theatre
    (.register ⟨"player", [.scheduleSelf 1 "early" [] false, .scheduleSelf 3 "late" [] false], 0⟩) (by decide +kernel)
  have hpause := call_ran 5 rehearsal (.runUntil 2) .horizon (by decide +kernel)
  have hrun := call_ran 5 (rehearsal.after 5 (.runUntil 2)) .run .drained (by decide +kernel)
  have registered : Recorded _ rehearsal := Recorded.call (.fresh _ _) ha
  have paused := registered.call hpause
  obtain ⟨htruth, hrest, -⟩ := ((outcomes_tell_the_truth registered 5).1 2 (by decide +kernel)).2 _ _ hpause
  obtain ⟨limit, hlimit, hheld, hlater⟩ := htruth
  cases hlimit
  obtain ⟨hdrained, hended, -⟩ := ((outcomes_tell_the_truth paused 5).2 (by
    have hnone : (rehearsal.after 5 (.runUntil 2)).limits.until? = none := by decide +kernel
    rw [hnone]
    exact fun _ h => nomatch h)).2 _ _ hrun
  exact ⟨(hrest (by decide)).1, hheld, hlater, (hdrained _ rfl).1, hended⟩

end Simulation

end BrokerSim
