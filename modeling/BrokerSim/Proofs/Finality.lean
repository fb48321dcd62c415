/-
The verdict of a subordinate is one, and it is final.
- `Subordinate.Response`: all that a subordinate can make of a signal, with the agenda after it.
  `Subordinate.play_response`: it makes nothing else of one, in any simulation.
- `Subordinate.Responds`: what such a response may change of its matter and of the agenda, and what not.
- `Subordinate.Stands`: a subordinate that has started, in a run, with the handle of its deadline.
  `Stands.pulse`: every part of a run leaves it standing, and from it what has been decided stays decided.
- `Simulation.verdict_final`: so it is in every run, whatever the service answers, whoever else there is and whatever
  they send, and whatever calls have failed before.
-/
import BrokerSim.Proofs.Conduct
import BrokerSim.Proofs.Kernel.Pulse
import BrokerSim.Proofs.Polling

namespace BrokerSim

/-- an agenda whose handle `d` is taken and not pending: it will never be pending again -/
theorem Agenda.Ages.struck {μ : Type} {a b : Agenda μ} (h : a.Ages b) (ha : a.IsQueue) {d : Handle} (hd : d < a.issued)
    (hp : a.isPending d = false) : b.isPending d = false := by
  obtain ⟨hb, -, old⟩ := h ha
  rw [← Bool.not_eq_true, hb.isPending_iff]
  rintro ⟨e, he, rfl⟩
  exact Bool.noConfusion (hp.symm.trans (ha.isPending_iff.2 ⟨e, old e he hd, rfl⟩))

namespace Subordinate

/-! ## One reaction -/

/-- is its matter settled, one way or the other? -/
def isDecided (sub : Subordinate) : Bool := sub.collected || sub.timedOut

/-- what a subordinate under `self` makes of a signal, in view of an agenda: how it ends, the subordinate and the agenda
    after it -/
inductive Response (self : EntityId) (sub : Subordinate) (a : Agenda Signal) :
    Signal → Except SimError Unit → Subordinate → Agenda Signal → Prop
  | settled (h : sub.isDecided = true) : Response self sub a .collectResults (.ok ()) sub a
  /-- the service answers by an error -/
  | rebuffed (h : sub.isDecided = false) (err : SimError) : Response self sub a .collectResults (.error err) sub a
  | complete {results : List TaskResult} (h : sub.isDecided = false) (full : sub.bundle.tasks.length ≤ results.length) :
      Response self sub a .collectResults (.ok ()) { sub with results, collected := true, deadline? := none }
        (sub.deadline?.elim a fun d => (a.cancel d).2)
  /-- something is missing, so the next request is planned -/
  | incomplete {results : List TaskResult} {next : Handle} {b : Agenda Signal} (h : sub.isDecided = false)
      (few : results.length < sub.bundle.tasks.length)
      (plan : a.schedule sub.policy.interval self self .collectResults = .ok (next, b)) :
      Response self sub a .collectResults (.ok ()) { sub with results } b
  /-- something is missing, and the next request is refused -/
  | unplanned {results : List TaskResult} {err : SimError} (h : sub.isDecided = false)
      (few : results.length < sub.bundle.tasks.length)
      (plan : a.schedule sub.policy.interval self self .collectResults = .error err) :
      Response self sub a .collectResults (.error err) { sub with results } a
  /-- its deadline comes too late -/
  | late (h : sub.collected = true) : Response self sub a .resultsDeadline (.ok ()) { sub with deadline? := none } a
  | gaveUp (h : sub.collected = false) :
      Response self sub a .resultsDeadline (.ok ()) { sub with deadline? := none, timedOut := true } a
  /-- a signal for managers -/
  | deaf {signal : Signal} (hc : signal ≠ .collectResults) (hd : signal ≠ .resultsDeadline) :
      Response self sub a signal (.error (.unhandledEvent self signal.tag)) sub a

section

variable {ε W : Type} [ExecutionService W] (self : EntityId) (sub : Subordinate) (s : Simulation ε Signal W)

omit [ExecutionService W] in
theorem agenda_strike (d? : Option Handle) (s : Simulation ε Signal W) :
    (s.strike d?).agenda = d?.elim s.agenda fun d => (s.agenda.cancel d).2 := by
  cases d? <;> rfl

theorem play_collect_response : ∃ r sub' t, (collect : Reaction Subordinate ε Signal W Unit).play self sub s =
    ((r, sub'), t) ∧ Response self sub s.agenda .collectResults r sub' t.agenda := by
  cases h : sub.isDecided with
  | true => exact ⟨_, _, _, play_collect_settled self sub s h, .settled h⟩
  | false =>
    cases hx : (s.exchange (ExecutionService.completedTasks self : Call W (List TaskResult))).1 with
    | error err => exact ⟨_, _, _, play_collect_refused self sub s h hx, .rebuffed h err⟩
    | ok results =>
      by_cases hl : sub.bundle.tasks.length ≤ results.length
      · obtain ⟨t, ht, hcore⟩ := play_collect_complete self sub s h hx hl
        refine ⟨_, _, t, ht, ?_⟩
        have hagenda : t.agenda = _ := (congrArg Simulation.agenda hcore :)
        change t.agenda = (Simulation.strike _ _).agenda at hagenda
        rw [hagenda, agenda_strike]
        exact .complete h hl
      · have few := not_le.1 hl
        have hplay := play_collect_incomplete self sub s h hx few
        let asked := (s.exchange (ExecutionService.completedTasks self : Call W (List TaskResult))).2
        cases hp : asked.agenda.schedule sub.policy.interval self self Signal.collectResults with
        | error err =>
          have hs : asked.schedule sub.policy.interval self self Signal.collectResults = (.error err, asked) := by
            rw [Simulation.schedule, hp]
          rw [hs] at hplay
          exact ⟨_, _, _, hplay, .unplanned h few hp⟩
        | ok x =>
          have hs : asked.schedule sub.policy.interval self self Signal.collectResults =
              (.ok x.1, { asked with agenda := x.2 }) := by
            rw [Simulation.schedule, hp]
          rw [hs] at hplay
          exact ⟨_, _, _, hplay, .incomplete h few hp⟩

omit [ExecutionService W] in
theorem play_giveUp_response : ∃ r sub' t, (giveUp : Reaction Subordinate ε Signal W Unit).play self sub s =
    ((r, sub'), t) ∧ Response self sub s.agenda .resultsDeadline r sub' t.agenda := by
  cases h : sub.collected with
  | true => exact ⟨_, _, _, play_giveUp_collected self sub s h, .late h⟩
  | false =>
    obtain ⟨t, ht, hcore⟩ := play_giveUp self sub s h
    have hagenda : t.agenda = s.agenda := (congrArg Simulation.agenda hcore :)
    exact ⟨_, _, t, ht, hagenda ▸ .gaveUp h⟩

/-- **What a subordinate does with an event,** whatever the service answers. -/
theorem play_response (e : Event Signal) : ∃ r sub' t,
    (react e : Reaction Subordinate ε Signal W Unit).play self sub s = ((r, sub'), t) ∧
      Response self sub s.agenda e.message r sub' t.agenda := by
  unfold react
  cases e.message with
  | collectResults => exact play_collect_response self sub s
  | resultsDeadline => exact play_giveUp_response self sub s
  | _ => exact ⟨_, _, _, rfl, .deaf nofun nofun⟩

end

/-- what is settled of a subordinate stays settled -/
structure Becomes (sub sub' : Subordinate) : Prop where
  collected : sub.collected = true → sub'.collected = true
  timedOut : sub.timedOut = true → sub'.timedOut = true
  results : sub.isDecided = true → sub'.results = sub.results

theorem Becomes.refl (sub : Subordinate) : sub.Becomes sub := ⟨id, id, fun _ => rfl⟩

theorem isDecided_iff {sub : Subordinate} : sub.isDecided = true ↔ sub.collected = true ∨ sub.timedOut = true :=
  iff_of_eq (Bool.or_eq_true _ _)

theorem Becomes.decided {sub sub' : Subordinate} (h : sub.Becomes sub') (hs : sub.isDecided = true) :
    sub'.isDecided = true :=
  isDecided_iff.2 ((isDecided_iff.1 hs).imp h.collected h.timedOut)

theorem Becomes.trans {a b c : Subordinate} (h : a.Becomes b) (k : b.Becomes c) : a.Becomes c where
  collected := fun ha => k.collected (h.collected ha)
  timedOut := fun ha => k.timedOut (h.timedOut ha)
  results := fun ha => (k.results (h.decided ha)).trans (h.results ha)

/-- there is one verdict at most, and it is not given that all is there while something is missing -/
structure Coherent (sub : Subordinate) : Prop where
  unique : sub.collected = true → sub.timedOut = false
  complete : sub.collected = true → sub.bundle.tasks.length ≤ sub.results.length

/-- what may come of a signal to `owner`: how the verdict can change and when, and what then becomes of the agenda -/
structure Responds (sub : Subordinate) (owner : EntityId) (signal : Signal) (sub' : Subordinate) (r : Except SimError Unit)
    (a b : Agenda Signal) : Prop where
  becomes : sub.Becomes sub'
  /-- only a request finds that everything is there, and then the deadline is struck off, if it is to come -/
  collects : sub.collected = false → sub'.collected = true →
    signal = .collectResults ∧ sub.bundle.tasks.length ≤ sub'.results.length ∧
      b = sub.deadline?.elim a fun d => (a.cancel d).2
  /-- only a deadline ends the wait -/
  givesUp : sub.timedOut = false → sub'.timedOut = true → signal = .resultsDeadline ∧ b = a
  /-- once there is a verdict nothing more is planned -/
  quiet : sub.isDecided = true → b = a
  /-- signals for managers are refused -/
  deaf : signal ≠ .collectResults → signal ≠ .resultsDeadline →
    sub' = sub ∧ r = .error (.unhandledEvent owner signal.tag) ∧ b = a

/-- a response by which no verdict is given -/
theorem Responds.unchanged {owner : EntityId} {signal : Signal} {sub sub' : Subordinate} {r : Except SimError Unit}
    {a b : Agenda Signal} (collected : sub'.collected = sub.collected) (timedOut : sub'.timedOut = sub.timedOut)
    (settled : sub.isDecided = true → sub'.results = sub.results ∧ b = a)
    (deaf : signal ≠ .collectResults → signal ≠ .resultsDeadline →
      sub' = sub ∧ r = .error (.unhandledEvent owner signal.tag) ∧ b = a) : sub.Responds owner signal sub' r a b where
  becomes := ⟨fun h => collected.trans h, fun h => timedOut.trans h, fun h => (settled h).1⟩
  collects := fun h h' => Bool.noConfusion ((collected.trans h).symm.trans h')
  givesUp := fun h h' => Bool.noConfusion ((timedOut.trans h).symm.trans h')
  quiet := fun h => (settled h).2
  deaf := deaf

namespace Response

variable {self : EntityId} {sub sub' : Subordinate} {a b : Agenda Signal} {signal : Signal} {r : Except SimError Unit}

theorem responds (h : Response self sub a signal r sub' b) : sub.Responds self signal sub' r a b := by
  -- as long as there is no verdict, nothing need be said of what comes after one
  have undecided : ∀ {p : Prop}, sub.isDecided = false → sub.isDecided = true → p := fun h h' =>
    Bool.noConfusion (h.symm.trans h')
  cases h with
  | settled h => exact .unchanged rfl rfl (fun _ => ⟨rfl, rfl⟩) (fun hc => absurd rfl hc)
  | rebuffed h err => exact .unchanged rfl rfl (undecided h) (fun hc => absurd rfl hc)
  | incomplete h few plan => exact .unchanged rfl rfl (undecided h) (fun hc => absurd rfl hc)
  | unplanned h few plan => exact .unchanged rfl rfl (undecided h) (fun hc => absurd rfl hc)
  | late h => exact .unchanged rfl rfl (fun _ => ⟨rfl, rfl⟩) (fun _ hd => absurd rfl hd)
  | deaf hc hd => exact .unchanged rfl rfl (fun _ => ⟨rfl, rfl⟩) (fun _ _ => ⟨rfl, rfl, rfl⟩)
  | complete h full =>
    refine ⟨⟨fun _ => rfl, id, undecided h⟩, fun _ _ => ⟨rfl, full, rfl⟩, fun ht ht' => ?_, undecided h,
      fun hc => absurd rfl hc⟩
    exact Bool.noConfusion (ht.symm.trans ht')
  | gaveUp h =>
    refine ⟨⟨id, fun _ => rfl, fun _ => rfl⟩, fun hc hc' => ?_, fun _ _ => ⟨rfl, rfl⟩, fun _ => rfl,
      fun _ hd => absurd rfl hd⟩
    exact Bool.noConfusion (hc.symm.trans hc')

theorem coherent (h : Response self sub a signal r sub' b) (hs : sub.Coherent) : sub'.Coherent := by
  cases h with
  | complete h full => exact ⟨fun _ => (Bool.or_eq_false_iff.1 h).2, fun _ => full⟩
  | incomplete h few plan =>
    have hc := (Bool.or_eq_false_iff.1 h).1
    exact ⟨hs.unique, fun hd => Bool.noConfusion (hc.symm.trans hd)⟩
  | unplanned h few plan =>
    have hc := (Bool.or_eq_false_iff.1 h).1
    exact ⟨hs.unique, fun hd => Bool.noConfusion (hc.symm.trans hd)⟩
  | gaveUp h => exact ⟨fun hd => Bool.noConfusion (h.symm.trans hd), hs.complete⟩
  | late h => exact ⟨hs.unique, hs.complete⟩
  | settled | rebuffed | deaf => exact hs

/-- as long as there is no verdict, it keeps its deadline in mind -/
theorem deadline (h : Response self sub a signal r sub' b) (hs : sub'.isDecided = false) :
    sub.isDecided = false ∧ sub'.deadline? = sub.deadline? := by
  cases h with
  | late h => simp [isDecided, h] at hs
  | complete | gaveUp => simp [isDecided] at hs
  | settled | rebuffed | incomplete | unplanned | deaf => exact ⟨hs, rfl⟩

end Response

/-! ## Its start -/

/-- whatever the agenda holds under `d` is the deadline of `self` -/
def Reserved (self : EntityId) (d : Handle) (a : Agenda Signal) : Prop :=
  ∀ e, a.Holds e → e.handle = d → e.source = self ∧ e.target = self ∧ e.message = .resultsDeadline

theorem Reserved.ages {self : EntityId} {d : Handle} {a b : Agenda Signal} (h : Reserved self d a) (ha : a.IsQueue)
    (hd : d < a.issued) (k : a.Ages b) : Reserved self d b :=
  fun e he heq => h e ((k ha).2.2 e he (heq.trans_lt hd)) heq

/-- a subordinate that starts plans its deadline under a new handle; one that does not start stays as it was -/
theorem play_start_outcome {ε W : Type} [ExecutionService W] (self : EntityId) (sub : Subordinate)
    {s : Simulation ε Signal W} (hs : s.agenda.IsQueue) :
    ∃ r sub' t, (start : Reaction Subordinate ε Signal W Unit).play self sub s = ((r, sub'), t) ∧
      ((∃ err, r = .error err) ∧ sub' = sub ∨
        r = .ok () ∧ ∃ d, sub' = { sub with deadline? := some d } ∧ s.agenda.issued ≤ d ∧ d < t.agenda.issued ∧
          Reserved self d t.agenda) := by
  have hself : (s.view self).self = self := rfl
  unfold start
  simp only [Reaction.play_bind, Reaction.play_get, Reaction.play_view, Reaction.play_call, hself]
  cases (s.exchange (ExecutionService.submitVms self sub.bundle.vms : Call W Unit)).1 with
  | error err => exact ⟨_, _, _, rfl, .inl ⟨⟨err, rfl⟩, rfl⟩⟩
  | ok =>
    dsimp only
    cases ((s.exchange (ExecutionService.submitVms self sub.bundle.vms : Call W Unit)).2.exchange
        (ExecutionService.submitTasks self sub.bundle.tasks : Call W Unit)).1 with
    | error err => exact ⟨_, _, _, rfl, .inl ⟨⟨err, rfl⟩, rfl⟩⟩
    | ok =>
      simp only [Reaction.play_remark, Reaction.play_scheduleSelf, Reaction.play_modify]
      generalize hu : Simulation.note _ _ = u
      have hagenda : u.agenda = s.agenda := hu ▸ rfl
      rw [← hagenda] at hs ⊢
      cases hi : Agenda.accepts sub.policy.interval with
      | false =>
        obtain ⟨reason, hr⟩ := u.schedule_refused hi self self Signal.collectResults
        rw [hr]
        exact ⟨_, _, _, rfl, .inl ⟨⟨_, rfl⟩, rfl⟩⟩
      | true =>
        obtain ⟨agenda, hr, hq, -, hissued, -⟩ := Simulation.schedule_holds hs hi self self Signal.collectResults
        rw [hr]
        dsimp only
        cases hd : Agenda.accepts sub.policy.timeout with
        | false =>
          obtain ⟨reason, hr⟩ := ({ u with agenda } : Simulation ε Signal W).schedule_refused hd self self
            Signal.resultsDeadline
          rw [hr]
          exact ⟨_, _, _, rfl, .inl ⟨⟨_, rfl⟩, rfl⟩⟩
        | true =>
          obtain ⟨agenda', hr, -, -, hissued', hold⟩ :=
            Simulation.schedule_holds (s := { u with agenda }) hq hd self self Signal.resultsDeadline
          rw [hr]
          refine ⟨_, _, _, rfl, .inr ⟨rfl, agenda.issued, rfl, ?_, ?_, ?_⟩⟩
          · rw [hissued]
            exact Nat.le_succ _
          · change agenda.issued < agenda'.issued
            rw [hissued']
            exact Nat.lt_succ_self _
          · intro e he heq
            rcases (hold e).1 he with he | rfl
            · exact absurd heq (hq.event he).2.ne
            · exact ⟨rfl, rfl, rfl⟩

end Subordinate

/-! ## In a run -/

namespace Subordinate

variable {ω W : Type} {id : EntityId} {d : Handle} {sub : Subordinate} {s t : Simulation (Agent ω) Signal W}

/-- the subordinate under `id` has started, with `d` for its deadline, and it has come to be `sub`. As long as the run
    goes on, it runs. -/
structure Stands (sub : Subordinate) (id : EntityId) (d : Handle) (s : Simulation (Agent ω) Signal W) : Prop where
  place : ∃ slot, s.entities[id]? = some slot ∧ slot.entity = .subordinate sub ∧
    (s.terminated = false → slot.state = .running)
  coherent : sub.Coherent
  issued : d < s.agenda.issued
  /-- nobody else's event has its handle -/
  own : Reserved id d s.agenda
  kept : sub.isDecided = false → sub.deadline? = some d
  struck : sub.collected = true → s.agenda.isPending d = false
  unheard : sub.timedOut = false → ∀ e ∈ s.heard id, e.handle ≠ d

namespace Stands

/-- it stands as before when nothing happens at its place -/
theorem frame (hs : sub.Stands id d s) (queue : s.agenda.IsQueue) (ages : s.agenda.Ages t.agenda)
    (heard : t.heard id = s.heard id) (place : ∃ slot, t.entities[id]? = some slot ∧ slot.entity = .subordinate sub ∧
      (t.terminated = false → slot.state = .running)) : sub.Stands id d t where
  place := place
  coherent := hs.coherent
  issued := hs.issued.trans_le (ages queue).2.1
  own := hs.own.ages queue hs.issued ages
  kept := hs.kept
  struck := fun hc => ages.struck queue hs.issued (hs.struck hc)
  unheard := fun ht => heard ▸ hs.unheard ht

/-- what becomes of it when it makes something of an event -/
theorem respond {sub' : Subordinate} {e : Event Signal} {r : Except SimError Unit} {left agenda : Agenda Signal}
    {slot : Slot (Agent ω)} (hs : sub.Stands id d s) (queue : s.agenda.IsQueue) (next : s.agenda.next? = some (e, left))
    (response : Response id sub left e.message r sub' agenda) (after : t.agenda = agenda)
    (ages : s.agenda.Ages t.agenda) (place : t.entities[id]? = some slot) (entity : slot.entity = .subordinate sub')
    (running : slot.state = .running) (heard : t.heard id = s.heard id ++ [e]) : sub'.Stands id d t := by
  subst after
  have responds := response.responds
  obtain ⟨holds, queue', hissued, -⟩ := queue.leave next
  refine ⟨⟨slot, place, entity, fun _ => running⟩, response.coherent hs.coherent, hs.issued.trans_le (ages queue).2.1,
    hs.own.ages queue hs.issued ages, fun hd => ?_, fun hc => ?_, fun ht f hf heq => ?_⟩
  · obtain ⟨hd, hkept⟩ := response.deadline hd
    exact hkept.trans (hs.kept hd)
  · cases hcollected : sub.collected with
    | true => exact ages.struck queue hs.issued (hs.struck hcollected)
    | false =>
      -- everything is there for the first time, so the deadline was still to come, and is struck off now
      have htimed : sub.timedOut = false := by
        by_contra htimed
        have htimed := responds.becomes.timedOut (by simpa using htimed)
        exact Bool.noConfusion (((response.coherent hs.coherent).unique hc).symm.trans htimed)
      obtain ⟨-, -, hagenda⟩ := responds.collects hcollected hc
      rw [hs.kept (by simp [isDecided, hcollected, htimed])] at hagenda
      obtain ⟨queue'', -, hold⟩ := queue'.cancel d
      rw [hagenda]
      change (left.cancel d).2.isPending d = false
      rw [← Bool.not_eq_true, queue''.isPending_iff]
      rintro ⟨f, hf, heq⟩
      exact ((hold f).1 hf).2 heq
  · have htimed : sub.timedOut = false := by
      by_contra htimed
      exact Bool.noConfusion (ht.symm.trans (responds.becomes.timedOut (by simpa using htimed)))
    rw [heard] at hf
    rcases List.mem_append.1 hf with hf | hf
    · exact hs.unheard htimed f hf heq
    · -- the event that left would be the deadline itself, and that ends the wait unless it was struck off before
      obtain rfl := List.mem_singleton.1 hf
      have hm := (hs.own f holds heq).2.2
      rw [hm] at response
      cases response with
      | late h =>
        refine Bool.noConfusion ((hs.struck h).symm.trans (queue.isPending_iff.2 ⟨f, holds, heq⟩))
      | gaveUp h => cases ht
      | deaf hc hd => exact hd rfl

variable [ExecutionService W] [Guest ω W]

/-- **Every part of a run leaves it standing,** and what has been decided stays decided. -/
theorem pulse (hs : sub.Stands id d s) (queue : s.agenda.IsQueue) (h : Simulation.Pulse s t) :
    ∃ sub', sub.Becomes sub' ∧ sub'.Stands id d t := by
  have ages := h.ages
  obtain ⟨slot, hslot, hsub, hrun⟩ := hs.place
  cases h.felt id with
  | spared place heard live =>
    exact ⟨sub, .refl sub, hs.frame queue ages heard ⟨slot, place.trans hslot, hsub, fun hl => hrun (live hl)⟩⟩
  | placed live given place heard vacant => cases vacant.symm.trans hslot
  | started live before idle => exact absurd (by cases hslot.symm.trans before; exact hrun live) idle
  | @reacted e left old y r u live next target before running play after place heard =>
    cases hslot.symm.trans before
    obtain ⟨r', sub', v, hplay, response⟩ := play_response id sub
      (({ s with agenda := left } : Simulation (Agent ω) Signal W).delivering e) e
    rw [hsub, Agent.play_react_subordinate, hplay] at play
    cases play
    exact ⟨sub', response.responds.becomes, hs.respond queue next response after ages place rfl running heard⟩
  | @closed old world before running place heard ended =>
    cases hslot.symm.trans before
    rw [hsub] at place
    refine ⟨sub, .refl sub, hs.frame queue ages heard ⟨_, place, rfl, fun hl => ?_⟩⟩
    exact Bool.noConfusion (ended.symm.trans hl)

/-- and so does all of it -/
theorem pulses (hs : sub.Stands id d s) (timed : Simulation.Timed s) (h : Simulation.Pulses s t) :
    ∃ sub', sub.Becomes sub' ∧ sub'.Stands id d t := by
  have run : Simulation.Timed t ∧ ∃ sub', sub.Becomes sub' ∧ sub'.Stands id d t := by
    induction h with
    | refl => exact ⟨timed, sub, .refl sub, hs⟩
    | tail _ last ih =>
      obtain ⟨timed, sub', becomes, stands⟩ := ih
      obtain ⟨sub'', becomes', stands'⟩ := stands.pulse timed.queue last
      exact ⟨timed.pulse last, sub'', becomes.trans becomes', stands'⟩
  exact run.2

end Stands

/-- a run to which no other subordinates were handed over than new ones: who has not started is still without a verdict,
    and who has started stands -/
structure Supervised (s : Simulation (Agent ω) Signal W) : Prop where
  unstarted : s.terminated = false → ∀ (id : EntityId) slot sub, s.entities[id]? = some slot → slot.entity = .subordinate sub →
    slot.state ≠ .running → sub.isDecided = false
  started : ∀ (id : EntityId) slot sub, s.entities[id]? = some slot → slot.entity = .subordinate sub → slot.state = .running →
    ∃ d, sub.Stands id d s

theorem IsNew.undecided {policy : CollectionPolicy} (h : sub.IsNew policy) : sub.isDecided = false := by
  rw [isDecided, h.collected, h.timedOut]
  rfl

theorem Supervised.fresh (limits : Limits) (world : W) :
    Supervised (Simulation.fresh limits world : Simulation (Agent ω) Signal W) :=
  ⟨fun _ _ _ _ h => by simp [Simulation.fresh] at h, fun _ _ _ h => by simp [Simulation.fresh] at h⟩

variable [ExecutionService W] [Guest ω W]

/-- whoever starts without an error stands, and whoever does not start has no verdict yet -/
theorem start_stands {old : Slot (Agent ω)} {y : Agent ω} {r : Except SimError Unit}
    {u : Simulation (Agent ω) Signal W} {sub' : Subordinate} (timed : Simulation.Timed s)
    (new : ∀ sub, old.entity = .subordinate sub → sub.isDecided = false)
    (play : (Entity.start : Reaction (Agent ω) (Agent ω) Signal W Unit).play id old.entity (s.note (.started id)) =
      ((r, y), u)) (agenda : t.agenda = u.agenda)
    (place : t.entities[id]? = some { old with state := stateAfter (failure? r), entity := y })
    (heard : t.heard id = s.heard id) (hy : y = .subordinate sub') :
    sub'.isDecided = false ∧ (stateAfter (failure? r) = .running → ∃ d, sub'.Stands id d t) := by
  subst hy
  obtain ⟨sub, hsub⟩ := (Agent.turn_matures (Simulation.Turn.of_start play)).of_subordinate
  have undecided := new sub hsub
  have flags := Bool.or_eq_false_iff.1 undecided
  obtain ⟨r', sub'', v, hplay, outcome⟩ := play_start_outcome id sub (s := s.note (.started id)) timed.queue
  rw [hsub, Agent.play_start_subordinate, hplay] at play
  cases play
  rcases outcome with ⟨⟨err, rfl⟩, rfl⟩ | ⟨rfl, d, rfl, hle, hlt, own⟩
  · exact ⟨undecided, fun hr => by cases hr⟩
  · refine ⟨undecided, fun _ => ⟨d, ⟨_, place, rfl, fun _ => rfl⟩, ?_, agenda ▸ hlt, agenda ▸ own, fun _ => rfl, ?_, ?_⟩⟩
    · exact ⟨fun hc => Bool.noConfusion (flags.1.symm.trans hc), fun hc => Bool.noConfusion (flags.1.symm.trans hc)⟩
    · exact fun hc => Bool.noConfusion (flags.1.symm.trans hc)
    · -- all that was heard before had older handles
      intro _ e he
      rw [heard] at he
      exact ((timed.past e (Simulation.mem_heard.1 he).1).trans_le hle).ne

/-- whoever runs and is still there stands on -/
theorem Supervised.stands_on (hs : Supervised s) (timed : Simulation.Timed s) (h : Simulation.Pulse s t)
    {slot slot' : Slot (Agent ω)} {sub' : Subordinate} (before : s.entities[id]? = some slot)
    (entity : slot.entity = .subordinate sub) (running : slot.state = .running) (after : t.entities[id]? = some slot')
    (entity' : slot'.entity = .subordinate sub') : ∃ d, sub'.Stands id d t := by
  obtain ⟨d, stands⟩ := hs.started id slot sub before entity running
  obtain ⟨sub'', -, stands⟩ := stands.pulse timed.queue h
  obtain ⟨slot'', place, hsub, -⟩ := stands.place
  cases after.symm.trans place
  cases entity'.symm.trans hsub
  exact ⟨d, stands⟩

theorem Supervised.pulse (hs : Supervised s) (timed : Simulation.Timed s) (h : Simulation.Pulse s t)
    (new : ∀ k sub, (k, .subordinate sub) ∈ s.handouts → sub.isDecided = false) : Supervised t := by
  constructor
  case unstarted =>
    intro live id slot sub hslot hsub hidle
    cases h.felt id with
    | spared place heard live' => exact hs.unstarted (live' live) id slot sub (place ▸ hslot) hsub hidle
    | @placed k e live' given place heard vacant =>
      cases place.symm.trans hslot
      have hsub : e = .subordinate sub := hsub
      exact new k sub (hsub ▸ given)
    | started live' before idle play agenda place heard =>
      cases place.symm.trans hslot
      exact (start_stands timed (fun sub hsub => hs.unstarted live' id _ sub before hsub idle) play agenda place heard
        hsub).1
    | reacted live' next target before running play after place heard =>
      cases place.symm.trans hslot
      exact absurd running hidle
    | closed before running place heard ended => exact Bool.noConfusion (ended.symm.trans live)
  case started =>
    intro id slot sub hslot hsub hrun
    cases h.felt id with
    | spared place heard live' => exact hs.stands_on timed h (place ▸ hslot) hsub hrun hslot hsub
    | placed live' given place heard vacant =>
      cases place.symm.trans hslot
      cases hrun
    | started live' before idle play agenda place heard =>
      cases place.symm.trans hslot
      exact (start_stands timed (fun sub hsub => hs.unstarted live' id _ sub before hsub idle) play agenda place heard
        hsub).2 hrun
    | @reacted e left old y r u live' next target before running play after place heard =>
      cases place.symm.trans hslot
      subst target
      have matures := Agent.turn_matures (Simulation.Turn.of_react play)
      have hsub : y = .subordinate sub := hsub
      rw [hsub] at matures
      obtain ⟨sub', hsub'⟩ := matures.of_subordinate
      exact hs.stands_on timed h before hsub' running hslot hsub
    | closed before running place heard ended =>
      cases place.symm.trans hslot
      cases hrun

theorem Supervised.pulses (hs : Supervised s) (timed : Simulation.Timed s) (h : Simulation.Pulses s t)
    (new : ∀ k sub, (k, .subordinate sub) ∈ t.handouts → sub.isDecided = false) :
    Supervised t ∧ Simulation.Timed t := by
  induction h with
  | refl => exact ⟨hs, timed⟩
  | tail _ last ih =>
    have new := fun k sub hmem => new k sub (last.handouts hmem)
    obtain ⟨supervised, timed⟩ := ih new
    exact ⟨supervised.pulse timed last new, timed.pulse last⟩

/-- whatever a simulation delivers to a subordinate, it responds, and no other place is touched -/
theorem react_responds (u : Simulation (Agent ω) Signal W) (e : Event Signal) {slot : Slot (Agent ω)} {sub : Subordinate}
    (entity : slot.entity = .subordinate sub) :
    ∃ sub', (u.react e slot).2.entities = u.entities.setIfInBounds e.target { slot with entity := .subordinate sub' } ∧
      sub.Responds e.target e.message sub' (u.react e slot).1 u.agenda (u.react e slot).2.agenda := by
  obtain ⟨r, sub', v, hplay, response⟩ := play_response e.target sub (u.delivering e) e
  obtain ⟨spawned, effect⟩ := ((Entity.react e).run.run slot.entity : Action (Agent ω) Signal W _).perform_effect e.target
    (u.delivering e)
  have entities : ((Entity.react e : Reaction (Agent ω) (Agent ω) Signal W Unit).play e.target slot.entity
      (u.delivering e)).2.entities = u.entities := effect.entities
  rw [entity, Agent.play_react_subordinate, hplay] at entities
  rw [Simulation.react_eq, entity, Agent.play_react_subordinate, hplay]
  exact ⟨sub', by rw [← entities], response.responds⟩

end Subordinate

namespace Simulation

variable {ω W : Type} [ExecutionService W] [Guest ω W] {allowed : Call (Agent ω) Signal → Answer → Prop}
  {drift : W → W → Prop}

/-- **The verdict of a subordinate is final.** Whatever the calls of a run and their answers, whatever the service
    answers and the world does, and whoever else takes part: a subordinate that runs has at most one verdict, and that
    everything is there it says only if it is so. Later the verdict, once given, is the same, and so are the results.
    While there is none it knows the handle of its deadline, which is nobody else's; once everything is there that
    handle is not pending, nor will it be again, and no event under it was ever delivered to it (`Stands`). Whatever is
    delivered to it, only a request finds that everything is there, and strikes off the deadline; only a deadline ends
    the wait; and nothing is planned once there is a verdict (`Responds`). -/
theorem verdict_final {limits : Limits} {world : W} {s t : Simulation (Agent ω) Signal W} {id : EntityId}
    {slot : Slot (Agent ω)} {sub : Subordinate} (before : Sequel allowed drift (fresh limits world) s)
    (after : Sequel allowed drift s t)
    (new : ∀ k new, (k, .subordinate new) ∈ s.handouts → new.IsNew new.policy)
    (place : s.entities[id]? = some slot) (entity : slot.entity = .subordinate sub) (running : slot.state = .running) :
    ∃ d sub', sub.Stands id d s ∧ sub'.Stands id d t ∧ sub.Becomes sub' ∧
      ∀ (u : Simulation (Agent ω) Signal W) (e : Event Signal), e.target = id →
        ∃ next, (u.react e slot).2.entities = u.entities.setIfInBounds id { slot with entity := .subordinate next } ∧
          sub.Responds id e.message next (u.react e slot).1 u.agenda (u.react e slot).2.agenda := by
  obtain ⟨first, kempt⟩ := before.pulses (kempt_fresh limits world)
  obtain ⟨rest, -⟩ := after.pulses kempt
  obtain ⟨supervised, timed⟩ := (Subordinate.Supervised.fresh limits world).pulses (timed_fresh limits world) first
    fun k sub hmem => (new k sub hmem).undecided
  obtain ⟨d, stands⟩ := supervised.started id slot sub place entity running
  obtain ⟨sub', becomes, stands'⟩ := stands.pulses timed rest
  refine ⟨d, sub', stands, stands', becomes, ?_⟩
  rintro u e rfl
  exact Subordinate.react_responds u e entity

/-- the ward is told twice more to ask for results, and once, too early, that the wait is over -/
def crowdedWard : Simulation (Agent Standin.Saboteur) Signal Standin.Collaborator :=
  (((ward {}).after 1 (.schedule 5 7 0 .collectResults)).after 1 (.schedule 5 7 0 .resultsDeadline)).after 1
    (.schedule 5 7 0 .collectResults)

theorem verdict_final_of_patient :
    ∃ sub, (crowdedWard).entities[0]? = some ⟨"A", .running, .subordinate sub⟩ ∧ sub.isDecided = false ∧
      ∃ d sub', sub.Stands 0 d crowdedWard ∧ sub'.Stands 0 d (crowdedWard.after 9 .run) ∧ sub.Becomes sub' ∧
        (crowdedWard.after 9 .run).entities[0]? = some ⟨"A", .shutdown, .subordinate sub'⟩ ∧ sub'.collected = true := by
  have before : Sequel Smooth (fun _ _ => False) (clinic {}) crowdedWard :=
    ((((Relation.ReflTransGen.single (.after (by decide +kernel))).tail (.after (by decide +kernel))).tail
      (.after (by decide +kernel))).tail (.after (by decide +kernel))).tail (.after (by decide +kernel))
  have after : Sequel Smooth (fun _ _ => False) crowdedWard (crowdedWard.after 9 .run) :=
    .single (.after (by decide +kernel))
  have handouts : crowdedWard.handouts = [(0, .subordinate patient)] := by decide +kernel
  have place : crowdedWard.entities[0]? =
      some ⟨"A", .running, .subordinate { patient with deadline? := some 1 }⟩ := by decide +kernel
  have collected : ((crowdedWard.after 9 .run).entities[0]?.bind fun slot => slot.entity.subordinate?).any
    (·.collected) = true := by decide +kernel
  have state : ((crowdedWard.after 9 .run).entities[0]?.map fun slot => (slot.name, slot.state)) =
    some ("A", .shutdown) := by decide +kernel
  obtain ⟨d, sub', stands, stands', becomes, -⟩ := verdict_final before after (by
    intro k new hnew
    rw [handouts] at hnew
    cases List.mem_singleton.1 hnew
    exact ⟨rfl, rfl, rfl⟩) place rfl rfl
  obtain ⟨slot, hslot, hsub, -⟩ := stands'.place
  rw [hslot] at collected state
  refine ⟨_, place, rfl, d, sub', stands, stands', becomes, ?_, ?_⟩
  · obtain ⟨name, state', entity⟩ := slot
    cases hsub
    cases state
    exact hslot
  · rw [Option.bind_some, hsub] at collected
    exact collected

end Simulation

end BrokerSim
