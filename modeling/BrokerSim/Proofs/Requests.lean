/-
What becomes of a request for a subordinate: it is granted, or it is refused and leaves nothing behind but its refusal.
- `ManagerSettings.Refuses`: why a request is refused, said without the code. `Manager.grant_error_iff`: it is refused
  for that reason and for no other.
- `Manager.Disposes`: what delivering a request comes to, in any simulation (`Manager.disposes`).
- `Simulation.Pulse.manager`: all that a part of a run does with a manager (`FeltByManager`).
- `Manager.answer`: a request, apart from where and when it is made. `Manager.Like`: two managers that have given away
  the same. `Simulation.Answers.pulse`: in every part of a run, a manager is like one that was only asked, one request
  after another.
- `ManagerSettings.Pruned`: requests, and the same without those that are refused. `Manager.like_pruned`: both give away
  the same.
- `Simulation.refusal_leaves_no_trace`: so it is in every run, and in any two of them.
-/
import BrokerSim.Proofs.Books
import BrokerSim.Proofs.Kernel.Pulse

namespace BrokerSim

open Decimal

/-! ## Why a request is refused -/

/-- nothing is left of the label when it is trimmed, or there is a control character somewhere in it -/
def Malformed (label : String) : Prop := Text.trim label = "" ∨ ∃ c ∈ label.toList, Text.isControl c = true

/-- what is wrong with a policy: the interval is looked at first -/
inductive CollectionPolicy.Faulty (p : CollectionPolicy) : String → Prop
  | interval (h : ¬ (p.interval.isFinite = true ∧ 0 < p.interval)) :
      Faulty p s!"interval must be positive and finite, got {plain p.interval}"
  | timeout (hi : p.interval.isFinite = true ∧ 0 < p.interval) (h : ¬ (p.timeout.isFinite = true ∧ 0 ≤ p.timeout)) :
      Faulty p s!"timeout must be non-negative and finite, got {plain p.timeout}"

/-- why a manager with these settings that has `held` subordinates refuses a request: of several reasons, the first -/
inductive ManagerSettings.Refuses (settings : ManagerSettings) (held : Nat) : Option String → CreationFailure → Prop
  | missing : Refuses settings held none .missingWorkload
  | malformed {label : String} (h : Malformed label) : Refuses settings held (some label) (.malformedWorkload label)
  | policy {label reason : String} (hl : ¬ Malformed label) (h : settings.policy.Faulty reason) :
      Refuses settings held (some label) (.invalidCollectionPolicy reason)
  | capacity {label : String} (hl : ¬ Malformed label) (hp : ∀ reason, ¬ settings.policy.Faulty reason)
      (h : settings.maxSubordinates.toNat ≤ held) :
      Refuses settings held (some label) (.capacityExceeded settings.maxSubordinates.toNat)

theorem isWellFormed_iff {label : String} : WorkloadClass.isWellFormed label = true ↔ ¬ Malformed label := by
  have blank : (Text.trimChars label.toList).isEmpty = true ↔ Text.trim label = "" := by
    rw [List.isEmpty_iff, Text.trim, ← String.ofList_nil, String.ofList_inj]
  unfold WorkloadClass.isWellFormed Malformed
  rw [← blank, Bool.and_eq_true, Bool.not_eq_true', Bool.not_eq_true', not_or, ← Bool.not_eq_true, ← Bool.not_eq_true,
    List.any_eq_true]

theorem CollectionPolicy.fault?_eq_some_iff {p : CollectionPolicy} {failure : CreationFailure} :
    p.fault? = some failure ↔ ∃ reason, p.Faulty reason ∧ failure = .invalidCollectionPolicy reason := by
  unfold fault?
  split_ifs with hi ht
  all_goals rw [Bool.not_eq_true', ← Bool.not_eq_true, Bool.and_eq_true, decide_eq_true_eq] at hi
  · constructor
    · intro h
      exact ⟨_, .interval hi, (Option.some.inj h).symm⟩
    · rintro ⟨_, ⟨-⟩ | ⟨hi', -⟩, rfl⟩
      · rfl
      · exact absurd hi' hi
  all_goals rw [Bool.not_eq_true', ← Bool.not_eq_true, Bool.and_eq_true, decide_eq_true_eq] at ht
  · constructor
    · intro h
      exact ⟨_, .timeout (not_not.1 hi) ht, (Option.some.inj h).symm⟩
    · rintro ⟨_, ⟨hi'⟩ | ⟨-, -⟩, rfl⟩
      · exact absurd hi' hi
      · rfl
  · constructor
    · intro h
      cases h
    · rintro ⟨_, ⟨hi'⟩ | ⟨-, ht'⟩, rfl⟩
      · exact absurd hi' hi
      · exact absurd ht' ht

theorem CollectionPolicy.fault?_eq_none_iff {p : CollectionPolicy} :
    p.fault? = none ↔ ∀ reason, ¬ p.Faulty reason := by
  rw [Option.eq_none_iff_forall_ne_some]
  constructor
  · exact fun h reason hr => h _ (fault?_eq_some_iff.2 ⟨reason, hr, rfl⟩)
  · intro h failure hf
    obtain ⟨reason, hr, -⟩ := fault?_eq_some_iff.1 hf
    exact h reason hr

namespace Manager

/-- **A request is refused for the first reason that there is,** and for no other. -/
theorem grant_error_iff {w : Option String} {failure : CreationFailure} {m : Manager} :
    m.grant w = .error failure ↔ m.settings.Refuses m.records.length w failure := by
  constructor
  · intro h
    cases w with
    | none =>
      cases h
      exact .missing
    | some label =>
      rw [grant_some] at h
      by_cases hl : WorkloadClass.isWellFormed label = true
      · rw [if_pos hl] at h
        have hl := isWellFormed_iff.1 hl
        cases hp : m.settings.policy.fault? with
        | some failure' =>
          obtain ⟨reason, hr, rfl⟩ := CollectionPolicy.fault?_eq_some_iff.1 hp
          rw [hp] at h
          cases h
          exact .policy hl hr
        | none =>
          rw [hp] at h
          by_cases hm : m.settings.maxSubordinates.toNat ≤ m.records.length
          · cases (if_pos hm).symm.trans h
            exact .capacity hl (CollectionPolicy.fault?_eq_none_iff.1 hp) hm
          · cases (if_neg hm).symm.trans h
      · cases (if_neg hl).symm.trans h
        exact .malformed (not_not.1 fun hn => hl (isWellFormed_iff.2 hn))
  · intro h
    cases h with
    | missing => rfl
    | malformed hl => rw [grant_some, if_neg (mt isWellFormed_iff.1 (not_not.2 hl))]
    | policy hl hr =>
      rw [grant_some, if_pos (isWellFormed_iff.2 hl), CollectionPolicy.fault?_eq_some_iff.2 ⟨_, hr, rfl⟩]
    | capacity hl hp hm =>
      rw [grant_some, if_pos (isWellFormed_iff.2 hl), CollectionPolicy.fault?_eq_none_iff.2 hp]
      exact if_pos hm

theorem grant_ok_iff {w : Option String} {m : Manager} :
    (∃ c, m.grant w = .ok c) ↔ ∀ failure, ¬ m.settings.Refuses m.records.length w failure := by
  simp only [← grant_error_iff]
  cases m.grant w with
  | ok c => exact iff_of_true ⟨c, rfl⟩ nofun
  | error failure => exact iff_of_false nofun fun h => h failure rfl

end Manager

/-- a request is granted to a sound label, under a sound policy, as long as there is room -/
theorem ManagerSettings.not_refuses_iff {settings : ManagerSettings} {held : Nat} {w : Option String} :
    (∀ failure, ¬ settings.Refuses held w failure) ↔ ∃ label, w = some label ∧ ¬ Malformed label ∧
      (∀ reason, ¬ settings.policy.Faulty reason) ∧ held < settings.maxSubordinates.toNat := by
  constructor
  · intro h
    cases w with
    | none => exact absurd .missing (h _)
    | some label =>
      have hl : ¬ Malformed label := fun hl => h _ (.malformed hl)
      have hp : ∀ reason, ¬ settings.policy.Faulty reason := fun reason hr => h _ (.policy hl hr)
      exact ⟨label, rfl, hl, hp, not_le.1 fun hm => h _ (.capacity hl hp hm)⟩
  · rintro ⟨label, rfl, hl, hp, hm⟩ failure h
    cases h with
    | malformed h => exact hl h
    | policy _ h => exact hp _ h
    | capacity _ _ h => exact absurd hm (not_lt.2 h)

namespace Manager

/-! ## One request -/

section

variable {ω W : Type} [ExecutionService W] [Guest ω W] {m : Manager} {w : Option String} {e : Event Signal}
  {slot : Slot (Agent ω)} {u : Simulation (Agent ω) Signal W}

/-- the manager with one more refusal -/
def refuse (failure : CreationFailure) (m : Manager) : Manager :=
  { m with creationFailures := m.creationFailures ++ [failure] }

/-- the simulation after a refusal: the event is noted and counted, and the manager has one more refusal -/
def afterRefusal (e : Event Signal) (slot : Slot (Agent ω)) (m : Manager) (failure : CreationFailure)
    (u : Simulation (Agent ω) Signal W) : Simulation (Agent ω) Signal W :=
  { u.delivering e with
    entities := u.entities.setIfInBounds e.target { slot with entity := .manager (m.refuse failure) } }

theorem react_request (he : e.message = .createSubordinate w) (entity : slot.entity = .manager m) :
    u.react e slot =
      let x := (request Agent.subordinate w : Reaction Manager (Agent ω) Signal W Unit).play e.target m (u.delivering e)
      (x.1.1, { x.2 with
        entities := x.2.entities.setIfInBounds e.target { slot with entity := .manager x.1.2 } }) := by
  have hplay : (react Agent.subordinate e : Reaction Manager (Agent ω) Signal W Unit).play e.target m (u.delivering e) =
      (request Agent.subordinate w).play e.target m (u.delivering e) := by
    unfold react
    simp only [Reaction.play_bind, Reaction.play_get, Reaction.play_view, he]
  rw [Simulation.react_eq, entity, Agent.play_react_manager, hplay]

/-- **A request that is refused** changes nothing but the list of refusals, whatever the state of the simulation. -/
theorem react_refused (he : e.message = .createSubordinate w) (entity : slot.entity = .manager m)
    {failure : CreationFailure} (h : m.grant w = .error failure) :
    u.react e slot = (.error (.entityCreation failure), afterRefusal e slot m failure u) := by
  rw [react_request he entity, play_refused e.target m _ h]
  rfl

/-- the run survives the refusal, and tallies it -/
theorem dispatch_refused (he : e.message = .createSubordinate w) (entity : slot.entity = .manager m)
    (place : u.entities[e.target]? = some slot) (running : slot.state = .running) {failure : CreationFailure}
    (h : m.grant w = .error failure) (fuel : Nat) :
    u.dispatch fuel e =
      let v := afterRefusal e slot m failure u
      ({ v.note (.recovered u.now e.target (.entityCreation failure)) with
        recoverable := u.recoverable.add .entityCreation }).settle fuel := by
  have target : (u.entities[e.target]?).filter (fun slot => slot.state = .running) = some slot := by
    rw [place]
    simp [running]
  unfold Simulation.dispatch
  rw [target]
  dsimp only
  rw [react_refused he entity h]
  rfl

/-- **A request that is granted** adds one record, and one subordinate that waits. -/
theorem react_granted (he : e.message = .createSubordinate w) (entity : slot.entity = .manager m) {c : WorkloadClass}
    (h : m.grant w = .ok c) :
    ∃ t, u.react e slot = (.ok (), t) ∧
      t.core = { (u.reserve (.subordinate (m.recruit w c u.nextId u.now))).2.core with
        entities := u.entities.setIfInBounds e.target
          { slot with entity := .manager (m.keep (m.nextRecord w c u.nextId u.now).1) } } := by
  obtain ⟨t, hplay, hcore⟩ := play_granted e.target m Agent.subordinate h (u.delivering e)
  have entities : t.entities = u.entities := (congrArg Simulation.entities hcore :)
  rw [react_request he entity, hplay]
  refine ⟨_, rfl, ?_⟩
  let place : Slot (Agent ω) := { slot with entity := .manager (m.keep (m.nextRecord w c u.nextId u.now).1) }
  change { t.core with entities := t.entities.setIfInBounds e.target place } = _
  rw [hcore, entities]
  rfl

/-- what becomes of a request to a manager in a simulation -/
structure Disposes (m : Manager) (w : Option String) (e : Event Signal) (slot : Slot (Agent ω))
    (u : Simulation (Agent ω) Signal W) : Prop where
  /-- a refusal is an error that the run survives, and all that is left of it is the refusal -/
  refused : ∀ failure, m.settings.Refuses m.records.length w failure →
    u.react e slot = (.error (.entityCreation failure), afterRefusal e slot m failure u) ∧
      (SimError.entityCreation failure).isRecoverable = true
  /-- if it is the turn of the manager, the run goes on with the next event -/
  survived : ∀ failure, m.settings.Refuses m.records.length w failure → u.entities[e.target]? = some slot →
    slot.state = .running → ∀ fuel, u.dispatch fuel e =
      let v := afterRefusal e slot m failure u
      ({ v.note (.recovered u.now e.target (.entityCreation failure)) with
        recoverable := u.recoverable.add .entityCreation }).settle fuel
  /-- else there is one more record, and one more subordinate that waits, under the next id -/
  granted : (∀ failure, ¬ m.settings.Refuses m.records.length w failure) →
    ∃ c t, WorkloadClass.ofRequest w = .ok c ∧ u.react e slot = (.ok (), t) ∧
      t.core = { (u.reserve (.subordinate (m.recruit w c u.nextId u.now))).2.core with
        entities := u.entities.setIfInBounds e.target
          { slot with entity := .manager (m.keep (m.nextRecord w c u.nextId u.now).1) } }

theorem disposes (he : e.message = .createSubordinate w) (entity : slot.entity = .manager m) :
    m.Disposes w e slot u where
  refused := fun _ h => ⟨react_refused he entity (grant_error_iff.2 h), rfl⟩
  survived := fun _ h place running => dispatch_refused he entity place running (grant_error_iff.2 h)
  granted := by
    intro h
    obtain ⟨c, hg⟩ := grant_ok_iff.2 h
    obtain ⟨t, ht, hcore⟩ := react_granted (u := u) he entity hg
    obtain ⟨⟨label, rfl, hc⟩, -⟩ := of_grant hg
    exact ⟨c, t, hc, ht, hcore⟩

end

/-! ## One request after another -/

end Manager

/-- a record without what depends on where and when it was made, and without the figure that is measured -/
def ManagedRecord.allotment (r : ManagedRecord) : ManagedRecord :=
  { r with subordinateId := 0, cumulativeMetric := 0, createdAt := 0 }

namespace Manager

/-- managers that have given away the same, and go on granting under the same terms -/
structure Like (m n : Manager) : Prop where
  policy : m.settings.policy = n.settings.policy
  maxSubordinates : m.settings.maxSubordinates = n.settings.maxSubordinates
  numbering : m.numbering = n.numbering
  records : m.records.map ManagedRecord.allotment = n.records.map ManagedRecord.allotment
  tracked : m.tracked = n.tracked

/-- what a request makes of a manager, wherever and whenever it is made -/
def answer (m : Manager) (w : Option String) : Manager :=
  match m.grant w with
  | .ok c => m.keep (m.nextRecord w c 0 0).1
  | .error failure => m.refuse failure

variable {l m n : Manager} {w : Option String}

theorem Like.refl (m : Manager) : m.Like m := ⟨rfl, rfl, rfl, rfl, rfl⟩

theorem Like.symm (h : m.Like n) : n.Like m :=
  ⟨h.policy.symm, h.maxSubordinates.symm, h.numbering.symm, h.records.symm, h.tracked.symm⟩

theorem Like.trans (h : l.Like m) (k : m.Like n) : l.Like n where
  policy := h.policy.trans k.policy
  maxSubordinates := h.maxSubordinates.trans k.maxSubordinates
  numbering := h.numbering.trans k.numbering
  records := h.records.trans k.records
  tracked := h.tracked.trans k.tracked

/-- what a manager has refused is not among what it has given away -/
theorem Like.refuse (h : m.Like n) (failure : CreationFailure) : (m.refuse failure).Like n :=
  ⟨h.policy, h.maxSubordinates, h.numbering, h.records, h.tracked⟩

theorem Like.length (h : m.Like n) : m.records.length = n.records.length := by
  have heq := congrArg List.length h.records
  rwa [List.length_map, List.length_map] at heq

/-- what is granted depends on the settings and on how many subordinates there are -/
theorem Like.grant (h : m.Like n) (w : Option String) : m.grant w = n.grant w := by
  unfold Manager.grant
  rw [h.policy, h.maxSubordinates, h.length]

/-- one more record keeps them alike, whatever the ids and times -/
theorem Like.keep (h : m.Like n) (w : Option String) (c : WorkloadClass) (id id' : EntityId) (now now' : Time) :
    (m.keep (m.nextRecord w c id now).1).Like (n.keep (n.nextRecord w c id' now').1) := by
  have numbering := h.numbering
  refine ⟨h.policy, h.maxSubordinates, ?_, ?_, ?_⟩
  · change (m.numbering.allocate c).2 = (n.numbering.allocate c).2
    rw [numbering]
  · change (m.records ++ [_]).map _ = (n.records ++ [_]).map _
    rw [List.map_append, List.map_append, h.records]
    unfold nextRecord nextName ManagedRecord.allotment
    simp only [List.map_cons, List.map_nil, h.length, numbering]
  · change m.tracked.add _ = n.tracked.add _
    unfold nextRecord ResourceTotals.add
    simp only [h.tracked, numbering]

theorem Like.granted (h : m.Like n) {c : WorkloadClass} (hg : m.grant w = .ok c) (id : EntityId) (now : Time) :
    (m.keep (m.nextRecord w c id now).1).Like (n.answer w) := by
  rw [answer, ← h.grant w, hg]
  exact h.keep w c id 0 now 0

theorem answer_refused {failure : CreationFailure} (h : m.grant w = .error failure) :
    m.answer w = m.refuse failure := by
  rw [answer, h]

theorem answer_granted {c : WorkloadClass} (h : m.grant w = .ok c) :
    m.answer w = m.keep (m.nextRecord w c 0 0).1 := by
  rw [answer, h]

/-- each request is a record or a refusal -/
theorem length_answer (m : Manager) (w : Option String) :
    (m.answer w).records.length + (m.answer w).creationFailures.length =
      m.records.length + m.creationFailures.length + 1 := by
  cases h : m.grant w with
  | ok c =>
    rw [answer_granted h]
    change (m.records ++ [_]).length + m.creationFailures.length = _
    rw [List.length_append, List.length_singleton, Nat.add_right_comm]
  | error failure =>
    rw [answer_refused h]
    change m.records.length + (m.creationFailures ++ [failure]).length = _
    rw [List.length_append, List.length_singleton, Nat.add_assoc]

theorem length_answers (requests : List (Option String)) (m : Manager) :
    (requests.foldl answer m).records.length + (requests.foldl answer m).creationFailures.length =
      m.records.length + m.creationFailures.length + requests.length := by
  induction requests generalizing m with
  | nil => rfl
  | cons w rest ih =>
    rw [List.foldl_cons, ih, length_answer, List.length_cons, Nat.add_assoc, Nat.add_comm 1]

end Manager

/-- the second requests are the first without those that a manager refuses which has `held` subordinates before them -/
inductive ManagerSettings.Pruned (settings : ManagerSettings) :
    Nat → List (Option String) → List (Option String) → Prop
  | nil {held : Nat} : Pruned settings held [] []
  | refused {held : Nat} {w : Option String} {failure : CreationFailure} {all kept : List (Option String)}
      (h : settings.Refuses held w failure) (rest : Pruned settings held all kept) : Pruned settings held (w :: all) kept
  | granted {held : Nat} {w : Option String} {all kept : List (Option String)}
      (h : ∀ failure, ¬ settings.Refuses held w failure) (rest : Pruned settings (held + 1) all kept) :
      Pruned settings held (w :: all) (w :: kept)

namespace Manager

/-- **Without the requests that it refuses,** a manager gives away the same and refuses nothing more. -/
theorem like_pruned {settings : ManagerSettings} {held : Nat} {all kept : List (Option String)}
    (h : settings.Pruned held all kept) {m n : Manager} (like : m.Like n) (hs : m.settings = settings)
    (hheld : m.records.length = held) :
    (all.foldl answer m).Like (kept.foldl answer n) ∧ (kept.foldl answer n).creationFailures = n.creationFailures := by
  -- only the first manager is asked what is refused, and stays like the second
  induction h generalizing m n with
  | nil => exact ⟨like, rfl⟩
  | @refused held w failure all kept h rest ih =>
    subst hs hheld
    have hm : m.grant w = .error failure := grant_error_iff.2 h
    rw [List.foldl_cons, answer_refused hm]
    exact ih (like.refuse failure) rfl rfl
  | @granted held w all kept h rest ih =>
    subst hs hheld
    obtain ⟨c, hm⟩ := grant_ok_iff.2 h
    rw [List.foldl_cons, List.foldl_cons, answer_granted hm, answer_granted (like.grant w ▸ hm)]
    exact ih (like.keep w c 0 0 0 0) rfl (List.length_append ..)

end Manager

/-! ## In a run -/

/-- the label that an event asks for, if it is a request -/
def Event.request? (e : Event Signal) : Option (Option String) :=
  match e.message with
  | .createSubordinate w => some w
  | _ => none

namespace Simulation

/-- the requests that were delivered to the entity under an id, first one first -/
def demands {ε W : Type} (id : EntityId) (s : Simulation ε Signal W) : List (Option String) :=
  (s.heard id).filterMap Event.request?

end Simulation

namespace Manager

theorem Like.refreshed (m : Manager) {stats : List SubordinateStats} (h : stats.length = m.records.length) :
    (List.zipWith refresh m.records stats).map ManagedRecord.allotment = m.records.map ManagedRecord.allotment := by
  have measured : ∀ l : List ManagedRecord, l.map ManagedRecord.allotment =
      (l.map ManagedRecord.unmeasured).map fun r => { r with subordinateId := 0, createdAt := 0 } := fun l => by
    rw [List.map_map]
    rfl
  rw [measured, measured, unmeasured_refresh _ _ h]

variable {W : Type} [ExecutionService W]

/-- what a manager makes of an event is what it makes of the request, if it is one, as far as it gives away anything -/
theorem Reacted.like {m m' n : Manager} {v : View W} {e : Event Signal} {r : Except SimError Unit} {world : W}
    {recruits : List Subordinate} (h : m.Reacted v e.message r m' world recruits) (like : m.Like n)
    (failures : m.creationFailures = n.creationFailures) :
    m'.Like (e.request?.toList.foldl answer n) ∧
      m'.creationFailures = (e.request?.toList.foldl answer n).creationFailures := by
  obtain ⟨time, source, target, handle, message⟩ := e
  cases h with
  | @granted w c hg =>
    refine ⟨like.granted hg v.nextId v.now, ?_⟩
    change m.creationFailures = (n.answer w).creationFailures
    rw [failures, answer_granted (like.grant w ▸ hg)]
    rfl
  | @refused w failure hg =>
    change (m.refuse failure).Like (n.answer w) ∧ (m.refuse failure).creationFailures = (n.answer w).creationFailures
    rw [answer_refused (like.grant w ▸ hg)]
    refine ⟨(like.refuse failure).trans ((Like.refl n).refuse failure).symm, ?_⟩
    change m.creationFailures ++ [failure] = n.creationFailures ++ [failure]
    rw [failures]
  | monitored => exact ⟨like, failures⟩
  | redistributed => exact ⟨⟨like.policy, like.maxSubordinates, like.numbering, like.records, like.tracked⟩, failures⟩
  | analyzed =>
    refine ⟨⟨like.policy, like.maxSubordinates, like.numbering, ?_, like.tracked⟩, failures⟩
    exact (Like.refreshed m (length_gathered v.world m)).trans like.records
  | unhandled hs =>
    obtain rfl | rfl := hs
    · exact ⟨like, failures⟩
    · exact ⟨like, failures⟩

/-- the manager under an id is like one that was only asked what it was asked, and has refused the same -/
structure Answered (m : Manager) (id : EntityId) {ε : Type} (s : Simulation ε Signal W) : Prop where
  like : m.Like ((s.demands id).foldl answer (ofSettings m.settings))
  failures : m.creationFailures = ((s.demands id).foldl answer (ofSettings m.settings)).creationFailures

omit [ExecutionService W] in
/-- it has still answered if it heard nothing more, whatever else it has done -/
theorem Answered.unheard {m n : Manager} {ε : Type} {id : EntityId} {s t : Simulation ε Signal W} (h : m.Answered id s)
    (heard : t.heard id = s.heard id) (settings : n.settings = m.settings) (like : n.Like m)
    (failures : n.creationFailures = m.creationFailures) : n.Answered id t := by
  have demands : t.demands id = s.demands id := by rw [Simulation.demands, heard, ← Simulation.demands]
  constructor
  case like => rw [demands, settings]; exact like.trans h.like
  case failures => rw [demands, settings, failures]; exact h.failures

/-- it has still answered after one more event -/
theorem Answered.reacted {m m' : Manager} {ε : Type} {id : EntityId} {s t : Simulation ε Signal W} (h : m.Answered id s)
    {v : View W} {e : Event Signal} {r : Except SimError Unit} {world : W} {recruits : List Subordinate}
    (reacted : m.Reacted v e.message r m' world recruits) (heard : t.heard id = s.heard id ++ [e]) : m'.Answered id t := by
  have demands : t.demands id = s.demands id ++ e.request?.toList := by
    rw [Simulation.demands, heard, List.filterMap_append, ← Simulation.demands]
    cases he : e.request? <;> simp [he]
  obtain ⟨like, failures⟩ := reacted.like h.like h.failures
  constructor
  case like => rw [demands, List.foldl_append, reacted.grows.settings]; exact like
  case failures => rw [demands, List.foldl_append, reacted.grows.settings]; exact failures

end Manager

namespace Simulation

variable {ω W : Type}

/-- how a pulse is felt by the manager who is under an id after it -/
inductive FeltByManager [ExecutionService W] (id : EntityId) (s t : Simulation (Agent ω) Signal W) (n : Manager) : Prop
  /-- it hears nothing and stays as it is, even if it starts -/
  | kept {slot : Slot (Agent ω)} (before : s.entities[id]? = some slot) (entity : slot.entity = .manager n)
      (heard : t.heard id = s.heard id) (live : t.terminated = false → s.terminated = false)
  | placed {k : EntityId} (given : (k, .manager n) ∈ s.handouts) (vacant : s.entities[id]? = none)
      (heard : t.heard id = s.heard id)
  | reacted {slot : Slot (Agent ω)} {m : Manager} {v : View W} {e : Event Signal} {r : Except SimError Unit} {world : W}
      {recruits : List Subordinate} (live : s.terminated = false) (before : s.entities[id]? = some slot)
      (entity : slot.entity = .manager m) (reacted : m.Reacted v e.message r n world recruits) (now : v.now = e.time)
      (heard : t.heard id = s.heard id ++ [e])
  | closed {slot : Slot (Agent ω)} {m : Manager} {world : W} (before : s.entities[id]? = some slot)
      (entity : slot.entity = .manager m) (after : n = (m.shutdown s.now world).1) (heard : t.heard id = s.heard id)
      (ended : t.terminated = true)

section

variable {id : EntityId} {s t : Simulation (Agent ω) Signal W} [ExecutionService W] [Guest ω W]

/-- where there is nobody there was nobody, and nothing was heard -/
theorem Pulse.vacant (h : Pulse s t) (vacant : t.entities[id]? = none) :
    s.entities[id]? = none ∧ t.heard id = s.heard id := by
  cases h.felt id with
  | spared slot heard live => exact ⟨slot ▸ vacant, heard⟩
  | placed _ _ slot | started _ _ _ _ _ slot | reacted _ _ _ _ _ _ _ slot | closed _ _ slot =>
    cases slot.symm.trans vacant

/-- **What a pulse does with a manager.** -/
theorem Pulse.manager (h : Pulse s t) {slot : Slot (Agent ω)} {n : Manager} (place : t.entities[id]? = some slot)
    (entity : slot.entity = .manager n) : FeltByManager id s t n := by
  cases h.felt id with
  | spared after heard live => exact .kept (after ▸ place) entity heard live
  | placed live given after heard vacant =>
    cases after.symm.trans place
    cases entity
    exact .placed given vacant heard
  | @started old y r u live before idle play agenda after heard =>
    cases after.symm.trans place
    have entity : y = .manager n := entity
    subst entity
    obtain ⟨m, hm⟩ := (Agent.turn_matures (Turn.of_start play)).of_manager
    obtain ⟨r', u', hplay, -⟩ := Manager.play_start_keeps id m (s.note (.started id))
    rw [hm, Agent.play_start_manager, hplay] at play
    cases play
    exact .kept before hm heard fun _ => live
  | @reacted e left old y r u live next target before running play agenda after heard =>
    cases after.symm.trans place
    have entity : y = .manager n := entity
    subst entity target
    obtain ⟨m, hm⟩ := (Agent.turn_matures (Turn.of_react play)).of_manager
    obtain ⟨r', m', world, recruits, u', hplay, reacted, -⟩ := Manager.play_reacted e.target m Agent.subordinate e
      (({ s with agenda := left } : Simulation (Agent ω) Signal W).delivering e)
    rw [hm, Agent.play_react_manager, hplay] at play
    cases play
    exact .reacted live before hm reacted (Agenda.now_next? next) heard
  | @closed old world before running after heard ended =>
    cases after.symm.trans place
    have entity : (Entity.shutdown Signal s.now old.entity world).1 = Agent.manager n := entity
    have turn : Turn Signal W id old.entity (Entity.shutdown Signal s.now old.entity world).1 := .shutdown _ _ _
    rw [entity] at turn
    obtain ⟨m, hm⟩ := (Agent.turn_matures turn).of_manager
    have own : (Entity.shutdown Signal s.now (Agent.manager m : Agent ω) world).1 =
      Agent.manager (m.shutdown s.now world).1 := rfl
    rw [hm, own] at entity
    cases entity
    exact .closed before hm rfl heard ended

end

/-- nothing was delivered to an id under which there is nobody, and whatever manager is there has answered -/
structure Answers (id : EntityId) (s : Simulation (Agent ω) Signal W) : Prop where
  vacant : s.entities[id]? = none → s.heard id = []
  answered : ∀ slot m, s.entities[id]? = some slot → slot.entity = .manager m → m.Answered id s

variable {id : EntityId} {s t : Simulation (Agent ω) Signal W}

theorem Answers.fresh (id : EntityId) (limits : Limits) (world : W) :
    Answers id (Simulation.fresh limits world : Simulation (Agent ω) Signal W) :=
  ⟨fun _ => rfl, fun _ _ h => by simp [Simulation.fresh] at h⟩

variable [ExecutionService W] [Guest ω W]

/-- **In every part of a run** the managers answer what they are asked. -/
theorem Answers.pulse (hs : Answers id s) (h : Pulse s t)
    (new : ∀ k m, (k, .manager m) ∈ s.handouts → m = .ofSettings m.settings) : Answers id t where
  vacant := by
    intro vacant
    obtain ⟨before, heard⟩ := h.vacant vacant
    exact heard.trans (hs.vacant before)
  answered := by
    intro slot n place entity
    cases h.manager place entity with
    | kept before entity heard live => exact (hs.answered _ n before entity).unheard heard rfl (.refl n) rfl
    | placed given vacant heard =>
      have demands : t.demands id = [] := by rw [Simulation.demands, heard, hs.vacant vacant, List.filterMap_nil]
      have fresh := new _ n given
      constructor
      case like => rw [demands, List.foldl_nil, ← fresh]; exact .refl n
      case failures => rw [demands, List.foldl_nil, ← fresh]
    | reacted live before entity reacted now heard => exact (hs.answered _ _ before entity).reacted reacted heard
    | @closed _ m world before entity after heard ended =>
      obtain ⟨stats, hl, hdown⟩ := m.shutdown_fst s.now world
      rw [after, hdown]
      exact (hs.answered _ m before entity).unheard heard rfl ⟨rfl, rfl, rfl, Manager.Like.refreshed m hl, rfl⟩ rfl

theorem Answers.pulses (hs : Answers id s) (h : Pulses s t)
    (new : ∀ k m, (k, .manager m) ∈ t.handouts → m = .ofSettings m.settings) : Answers id t := by
  induction h with
  | refl => exact hs
  | tail _ last ih =>
    have new := fun k m hmem => new k m (last.handouts hmem)
    exact (ih new).pulse last new

variable {allowed : Call (Agent ω) Signal → Answer → Prop} {drift : W → W → Prop}

/-- a manager in a run to which no other managers were handed over than new ones -/
theorem Sequel.answered {limits : Limits} {world : W} {slot : Slot (Agent ω)} {m : Manager}
    (h : Sequel allowed drift (Simulation.fresh limits world) s)
    (new : ∀ k m, (k, .manager m) ∈ s.handouts → m = .ofSettings m.settings)
    (place : s.entities[id]? = some slot) (entity : slot.entity = .manager m) : m.Answered id s :=
  ((Answers.fresh id limits world).pulses (h.pulses (kempt_fresh limits world)).1 new).answered slot m place entity

/-- **A refused request leaves no trace.** Whatever the calls of a run and their answers, whatever the service answers,
    and whoever else takes part: a manager refuses a request for the first reason that there is. All that this changes
    is that its list of refusals is longer by that one; what it does not refuse costs one record, one id and one
    subordinate (`Disposes`). Every request that was delivered to it is a record or a refusal. And a manager on the same
    terms, in any other run, to which the same requests were delivered without the refused ones, has refused nothing and
    given away the same: the same machines and tasks with the same ids, under the same names (`Like`). -/
theorem refusal_leaves_no_trace {limits : Limits} {world : W} {slot : Slot (Agent ω)} {m : Manager}
    (before : Sequel allowed drift (Simulation.fresh limits world) s)
    (new : ∀ k m, (k, .manager m) ∈ s.handouts → m = .ofSettings m.settings)
    (place : s.entities[id]? = some slot) (entity : slot.entity = .manager m) :
    (∀ (u : Simulation (Agent ω) Signal W) (e : Event Signal) w, e.message = .createSubordinate w →
      m.Disposes w e slot u) ∧
    (s.demands id).length = m.records.length + m.creationFailures.length ∧
    ∀ {ω' W' : Type} [ExecutionService W'] [Guest ω' W'] {allowed' : Call (Agent ω') Signal → Answer → Prop}
      {drift' : W' → W' → Prop} {limits' : Limits} {world' : W'} {t : Simulation (Agent ω') Signal W'} {k : EntityId}
      {slot' : Slot (Agent ω')} {n : Manager}, Sequel allowed' drift' (Simulation.fresh limits' world') t →
      (∀ k m, (k, .manager m) ∈ t.handouts → m = .ofSettings m.settings) → t.entities[k]? = some slot' →
      slot'.entity = .manager n → m.settings.policy = n.settings.policy →
      m.settings.maxSubordinates = n.settings.maxSubordinates →
      m.settings.Pruned 0 (s.demands id) (t.demands k) → m.Like n ∧ n.creationFailures = [] := by
  have answered := before.answered new place entity
  refine ⟨fun u e w he => Manager.disposes he entity, ?_, ?_⟩
  · have hlength := Manager.length_answers (s.demands id) (.ofSettings m.settings)
    rw [← answered.like.length, ← answered.failures] at hlength
    rw [hlength]
    exact (Nat.zero_add _).symm
  · intro ω' W' _ _ allowed' drift' limits' world' t k slot' n before' new' place' entity' policy limit pruned
    have answered' := before'.answered new' place' entity'
    -- each is like a manager that was only asked, and these two are alike by their requests
    have alike : (Manager.ofSettings m.settings).Like (.ofSettings n.settings) := ⟨policy, limit, rfl, rfl, rfl⟩
    obtain ⟨like, failures⟩ := Manager.like_pruned pruned alike rfl rfl
    exact ⟨(answered.like.trans like).trans answered'.like.symm, answered'.failures.trans failures⟩

omit [ExecutionService W] [Guest ω W] in
/-- if one manager was ever given an id, and it was new, then all of them were -/
theorem new_of_sole (settings : ManagerSettings)
    (hs : s.handouts.filterMap (fun x => x.2.manager?) = [.ofSettings settings]) (k : EntityId) (m : Manager)
    (hmem : (k, .manager m) ∈ s.handouts) : m = .ofSettings m.settings := by
  have hm : m ∈ s.handouts.filterMap (fun x => x.2.manager?) := List.mem_filterMap.2 ⟨_, hmem, rfl⟩
  rw [hs] at hm
  cases List.mem_singleton.1 hm
  rfl

omit [ExecutionService W] [Guest ω W] in
theorem exists_manager {settings : ManagerSettings}
    (hs : (s.entities[id]?.bind fun slot => slot.entity.manager?).map (·.settings) = some settings) :
    ∃ slot m, s.entities[id]? = some slot ∧ slot.entity = .manager m ∧ m.settings = settings := by
  cases hslot : s.entities[id]? with
  | none =>
    rw [hslot] at hs
    cases hs
  | some slot =>
    rw [hslot, Option.bind_some] at hs
    cases hm : slot.entity with
    | manager m =>
      rw [hm] at hs
      exact ⟨slot, m, rfl, hm, Option.some.inj hs⟩
    | subordinate | guest =>
      rw [hm] at hs
      cases hs

open Standin

/-- the busy manager under another name, not asked for nothing in particular, nor for anything but subordinates -/
def tidySettings : ManagerSettings :=
  { busySettings with
    name := "Tidy"
    schedule := [⟨0, .createSubordinate (some " Light")⟩, ⟨1, .createSubordinate (some "odd")⟩] }

/-- the studio with that manager, at the end -/
def tidied : Simulation (Agent Saboteur) Signal Collaborator :=
  (studio.after 1 (.register (.manager (.ofSettings tidySettings)))).after 9 .run

theorem refusal_leaves_no_trace_of_studio :
    ∃ (slot slot' : Slot (Agent Saboteur)) (m n : Manager), (opened.after 9 .run).entities[0]? = some slot ∧
      slot.entity = .manager m ∧ tidied.entities[0]? = some slot' ∧ slot'.entity = .manager n ∧
      (opened.after 9 .run).demands 0 = [some " Light", none, some "odd"] ∧
      tidied.demands 0 = [some " Light", some "odd"] ∧
      (∀ (u : Simulation (Agent Saboteur) Signal Collaborator) (e : Event Signal),
        e.message = .createSubordinate none → m.Disposes none e slot u) ∧
      3 = m.records.length + m.creationFailures.length ∧ m.Like n ∧ n.creationFailures = [] := by
  have before : Sequel Smooth (fun _ _ => False) studio (opened.after 9 .run) :=
    (((Relation.ReflTransGen.single (.after (by decide +kernel))).tail (.after (by decide +kernel))).tail
      (.after (by decide +kernel)))
  have before' : Sequel Smooth (fun _ _ => False) studio tidied :=
    (Relation.ReflTransGen.single (.after (by decide +kernel))).tail (.after (by decide +kernel))
  obtain ⟨slot, m, place, entity, settings⟩ : ∃ (slot : Slot (Agent Saboteur)) (m : Manager),
      (opened.after 9 .run).entities[0]? = some slot ∧ slot.entity = .manager m ∧ m.settings = busySettings :=
    exists_manager (by decide +kernel)
  obtain ⟨slot', n, place', entity', settings'⟩ : ∃ (slot' : Slot (Agent Saboteur)) (n : Manager),
      tidied.entities[0]? = some slot' ∧ slot'.entity = .manager n ∧ n.settings = tidySettings :=
    exists_manager (by decide +kernel)
  have asked : (opened.after 9 .run).demands 0 = [some " Light", none, some "odd"] := by decide +kernel
  have asked' : tidied.demands 0 = [some " Light", some "odd"] := by decide +kernel
  have sound : ∀ {held : Nat} {label : String}, WorkloadClass.isWellFormed label = true → held < 20 →
      ∀ failure, ¬ busySettings.Refuses held (some label) failure := fun hl hm =>
    ManagerSettings.not_refuses_iff.2 ⟨_, rfl, isWellFormed_iff.1 hl,
      CollectionPolicy.fault?_eq_none_iff.1 (by decide +kernel), hm⟩
  have pruned : busySettings.Pruned 0 [some " Light", none, some "odd"] [some " Light", some "odd"] :=
    .granted (sound (by decide +kernel) (by decide)) (.refused .missing (.granted (sound (by decide +kernel) (by decide))
      .nil))
  obtain ⟨disposes, count, others⟩ := refusal_leaves_no_trace before
    (new_of_sole busySettings (by decide +kernel)) place entity
  obtain ⟨like, failures⟩ := others before'
    (new_of_sole tidySettings (by decide +kernel)) place' entity' (by rw [settings, settings']; rfl)
    (by rw [settings, settings']; rfl) (by rw [settings, asked, asked']; exact pruned)
  rw [asked] at count
  exact ⟨slot, slot', m, n, place, entity, place', entity', asked, asked', fun u e he => disposes u e none he, count, like,
    failures⟩

end Simulation

end BrokerSim
