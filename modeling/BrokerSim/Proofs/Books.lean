/-
The books of a manager against the registry.
- `Manager.Books`: what a manager has written down, at any time: its totals, the numbers of its machines and tasks, the
  names, ids and times of its records. Each record is that of a subordinate that was given its id (`Books.hired`), even
  before that subordinate has its place.
- `Manager.Books.reacted`: whatever a manager does with an event keeps its books; `Simulation.Balanced.beat`: so does
  every beat of the run.
- `Simulation.books_agree`: whenever something is seen of the run, every record is that of a registered subordinate,
  with the machines and tasks that the subordinate holds; and later, records were only added.
-/
import BrokerSim.Proofs.Conduct
import BrokerSim.Proofs.Kernel.Beat
import BrokerSim.Proofs.Numbering
import BrokerSim.Standin.Collaborator
import BrokerSim.Standin.Saboteur

namespace BrokerSim

/-! ## Names -/

/-- the name of subordinate number `n`, which was asked for with a label -/
def subordinateName (n : Nat) (label : String) : String := s!"GlobalManagedBroker_{n}_{Text.trim label}"

/-- digits end where the first other character stands -/
theorem eq_of_digits {a b as bs : List Char} (ha : ∀ c ∈ a, c.isDigit = true) (hb : ∀ c ∈ b, c.isDigit = true)
    (h : a ++ '_' :: as = b ++ '_' :: bs) : a = b := by
  have htake : ∀ {l t : List Char}, (∀ c ∈ l, c.isDigit = true) → (l ++ '_' :: t).takeWhile Char.isDigit = l := by
    intro l t hl
    rw [List.takeWhile_append_of_pos hl]
    simp
  rw [← htake (t := as) ha, ← htake (t := bs) hb, h]

/-- a name tells its number, whatever the labels -/
theorem subordinateName_inj {n k : Nat} {label other : String} (h : subordinateName n label = subordinateName k other) :
    n = k := by
  have hdigits : ∀ n : Nat, ∀ c ∈ Nat.toDigits 10 n, c.isDigit = true := fun n c hc =>
    Nat.isDigit_of_mem_toDigits (by decide) (by decide) hc
  unfold subordinateName at h
  have hchars := congrArg String.toList h
  simp only [Nat.toString_eq_repr, Nat.repr_eq_ofList_toDigits, String.toList_append, String.toList_ofList,
    List.append_assoc, List.append_cancel_left_eq] at hchars
  have heq := eq_of_digits (hdigits n) (hdigits k) hchars
  calc n = Nat.ofDigitChars 10 (Nat.toDigits 10 n) 0 := Nat.ofDigitChars_ten_toDigits.symm
    _ = Nat.ofDigitChars 10 (Nat.toDigits 10 k) 0 := by rw [heq]
    _ = k := Nat.ofDigitChars_ten_toDigits

/-! ## From one simulation to another -/

namespace Simulation

variable {ε μ W : Type}

/-- a simulation and the same simulation later: nothing that has happened is undone -/
structure Onward (s t : Simulation ε μ W) : Prop where
  now : s.now ≤ t.now
  nextId : s.nextId ≤ t.nextId
  handouts : s.handouts <+: t.handouts
  visits : s.visits <+: t.visits

variable [Entity ε μ W] {admits : ε → Prop} {s t : Simulation ε μ W}

theorem Beat.onward (h : Beat admits s t) (hs : s.agenda.IsTimely) : Onward s t where
  now := (h.timely hs).2
  nextId := h.moves.handouts.2
  handouts := h.moves.handouts.1
  visits := h.moves.visits

end Simulation

/-! ## What is written down -/

namespace Manager

open Simulation (Onward)

variable {ω W : Type}

/-- a subordinate with this label was asked of the entity under an id -/
def Asked (g : EntityId) (label : String) (s : Simulation (Agent ω) Signal W) : Prop :=
  ∃ e, .react e ∈ s.visits ∧ e.target = g ∧ e.message = .createSubordinate (some label)

/-- the records without the figures that are measured -/
def entries (m : Manager) : List ManagedRecord := m.records.map ManagedRecord.unmeasured

/-- the records of the manager under an id, in the state of a simulation in which it has come so far -/
structure Books (m : Manager) (g : EntityId) (s : Simulation (Agent ω) Signal W) : Prop where
  tracked : m.tracked = m.totals
  vms : (m.entries.flatMap (·.vms)).map Vm.id = List.range m.numbering.nextVm
  tasks : (m.entries.flatMap (·.tasks)).map Task.id = List.range m.numbering.nextTask
  limit : m.entries.length ≤ m.settings.maxSubordinates.toNat
  /-- each record is the answer to a request, and named for it -/
  named : ∀ i r, m.entries[i]? = some r → ∃ label, Asked g label s ∧
    WorkloadClass.ofRequest (some label) = .ok r.workload ∧ r.name = subordinateName (i + 1) label
  ids : m.entries.Pairwise fun r r' => r.subordinateId < r'.subordinateId
  times : m.entries.Pairwise fun r r' => r.createdAt ≤ r'.createdAt
  past : ∀ r ∈ m.entries, r.createdAt ≤ s.now
  /-- each id was given to the subordinate of the record -/
  hired : ∀ r ∈ m.entries, r.subordinateId < s.nextId ∧ ∃ sub : Subordinate,
    (r.subordinateId, .subordinate sub) ∈ s.handouts ∧
      sub.name = r.name ∧ sub.bundle.vms = r.vms ∧ sub.bundle.tasks = r.tasks

variable {m m' : Manager} {g : EntityId} {s t : Simulation (Agent ω) Signal W}

theorem Books.fresh (settings : ManagerSettings) (g : EntityId) (s : Simulation (Agent ω) Signal W) :
    (ofSettings settings).Books g s where
  tracked := rfl
  vms := rfl
  tasks := rfl
  limit := Nat.zero_le _
  named := fun _ _ h => nomatch h
  ids := List.Pairwise.nil
  times := List.Pairwise.nil
  past := fun _ h => nomatch h
  hired := fun _ h => nomatch h

theorem length_entries (m : Manager) : m.entries.length = m.records.length := List.length_map _

theorem entries_keep (m : Manager) (r : ManagedRecord) : (m.keep r).entries = m.entries ++ [r.unmeasured] := by
  unfold entries keep
  rw [List.map_append]
  rfl

/-- the totals tell nothing of the figures that are measured -/
theorem totals_eq (m : Manager) :
    m.totals = {
      subordinates := m.entries.length
      vms := total (fun r => r.vms.length) m.entries
      tasks := total (fun r => r.tasks.length) m.entries } := by
  have htotal : ∀ (count : ManagedRecord → Nat) (l : List ManagedRecord), (∀ r, count r.unmeasured = count r) →
      total count (l.map ManagedRecord.unmeasured) = total count l := by
    intro count l hcount
    induction l with
    | nil => rfl
    | cons r l ih => exact congrArg₂ (· + ·) (hcount r) ih
  unfold totals entries
  rw [List.length_map, htotal _ _ fun _ => rfl, htotal _ _ fun _ => rfl]

theorem totals_keep (m : Manager) (r : ManagedRecord) : (m.keep r).totals = m.totals.add r := by
  have htotal : ∀ (count : ManagedRecord → Nat) (l : List ManagedRecord),
      total count (l ++ [r]) = total count l + count r := by
    intro count l
    induction l with
    | nil => exact Nat.add_comm _ _
    | cons x l ih => exact (congrArg (count x + ·) ih).trans (Nat.add_assoc _ _ _).symm
  unfold totals keep ResourceTotals.add
  simp only [List.length_append, List.length_singleton, htotal]

theorem Asked.onward {label : String} (h : Asked g label s) (on : Onward s t) : Asked g label t := by
  obtain ⟨e, he, hasked⟩ := h
  exact ⟨e, on.visits.subset he, hasked⟩

/-- the books stay right as the run goes on without the manager, and whatever else the manager does -/
theorem Books.mono (h : m.Books g s) (on : Onward s t) (hsettings : m'.settings = m.settings)
    (hentries : m'.entries = m.entries) (htracked : m'.tracked = m.tracked) (hnumbering : m'.numbering = m.numbering) :
    m'.Books g t := by
  constructor
  case tracked => rw [htracked, totals_eq, hentries, ← totals_eq, h.tracked]
  case vms => rw [hentries, hnumbering]; exact h.vms
  case tasks => rw [hentries, hnumbering]; exact h.tasks
  case limit => rw [hentries, hsettings]; exact h.limit
  case named =>
    intro i r hr
    rw [hentries] at hr
    obtain ⟨label, hasked, hname⟩ := h.named i r hr
    exact ⟨label, hasked.onward on, hname⟩
  case ids => rw [hentries]; exact h.ids
  case times => rw [hentries]; exact h.times
  case past =>
    intro r hr
    rw [hentries] at hr
    exact Time.le_trans (h.past r hr) on.now
  case hired =>
    intro r hr
    rw [hentries] at hr
    obtain ⟨hlt, sub, hmem, hsub⟩ := h.hired r hr
    exact ⟨hlt.trans_le on.nextId, sub, on.handouts.subset hmem, hsub⟩

/-! ## One more record -/

/-- a request for a label, once the label is looked at -/
theorem grant_some (label : String) :
    m.grant (some label) =
      if WorkloadClass.isWellFormed label then
        match m.settings.policy.fault? with
        | some failure => .error failure
        | none =>
          if m.settings.maxSubordinates.toNat ≤ m.records.length then
            .error (.capacityExceeded m.settings.maxSubordinates.toNat)
          else .ok (WorkloadClass.parse label)
      else .error (.malformedWorkload label) := by
  simp only [grant, WorkloadClass.ofRequest]
  cases WorkloadClass.isWellFormed label with
  | false => rfl
  | true =>
    cases m.settings.policy.fault? with
    | some failure => rfl
    | none =>
      by_cases hm : m.settings.maxSubordinates.toNat ≤ m.records.length
      · simp only [hm, if_true, bind, Except.bind, throw, throwThe, MonadExceptOf.throw]
      · simp only [hm, if_true, if_false, bind, Except.bind, pure, Except.pure]

/-- a request that is granted names a class, and there is room for one more record -/
theorem of_grant {workload : Option String} {c : WorkloadClass} (h : m.grant workload = .ok c) :
    (∃ label, workload = some label ∧ WorkloadClass.ofRequest (some label) = .ok c) ∧
      m.records.length < m.settings.maxSubordinates.toNat := by
  cases workload with
  | none => cases h
  | some label =>
    rw [grant_some] at h
    by_cases hl : WorkloadClass.isWellFormed label = true
    · rw [if_pos hl] at h
      split at h
      · cases h
      · split_ifs at h with hm
        cases h
        exact ⟨⟨label, rfl, if_pos hl⟩, not_le.1 hm⟩
    · cases (if_neg hl).symm.trans h

/-- one more record, of a subordinate that was asked for and is given the next id -/
theorem Books.granted (h : m.Books g s) {workload : Option String} {c : WorkloadClass} {e : Event Signal}
    (hg : m.grant workload = .ok c) (he : .react e ∈ t.visits) (target : e.target = g)
    (message : e.message = .createSubordinate workload) (timely : t.agenda.IsTimely) (on : Onward s t)
    (hids : t.nextId = s.nextId + 1)
    (hhandouts : t.handouts = s.handouts ++ [(s.nextId, .subordinate (m.recruit workload c s.nextId t.now))]) :
    (m.keep (m.nextRecord workload c s.nextId t.now).1).Books g t := by
  obtain ⟨⟨label, rfl, hclass⟩, hlimit⟩ := of_grant hg
  let r := (m.nextRecord (some label) c s.nextId t.now).1
  have hentries : (m.keep r).entries = m.entries ++ [r.unmeasured] := m.entries_keep r
  -- what holds of the old records and of the new one holds of all
  have each : ∀ {P : ManagedRecord → Prop}, (∀ x ∈ m.entries, P x) → P r.unmeasured →
      ∀ x ∈ (m.keep r).entries, P x := by
    intro P hold hnew x hx
    rw [hentries] at hx
    rcases List.mem_append.1 hx with hx | hx
    · exact hold x hx
    · rw [List.mem_singleton.1 hx]
      exact hnew
  have rising : ∀ {R : ManagedRecord → ManagedRecord → Prop}, m.entries.Pairwise R →
      (∀ x ∈ m.entries, R x r.unmeasured) → (m.keep r).entries.Pairwise R := by
    intro R hold hnew
    rw [hentries]
    refine List.pairwise_append.2 ⟨hold, List.pairwise_singleton _ _, fun x hx y hy => ?_⟩
    rw [List.mem_singleton.1 hy]
    exact hnew x hx
  constructor
  case tracked =>
    rw [totals_keep, ← h.tracked]
    rfl
  case vms =>
    have hnew : r.unmeasured.vms.map Vm.id = List.range' m.numbering.nextVm r.vms.length :=
      (m.numbering.ids_allocate c).1
    rw [hentries, List.flatMap_append, List.map_append, h.vms, List.flatMap_singleton, hnew, range_append_range']
    rfl
  case tasks =>
    have hnew : r.unmeasured.tasks.map Task.id = List.range' m.numbering.nextTask r.tasks.length :=
      (m.numbering.ids_allocate c).2
    rw [hentries, List.flatMap_append, List.map_append, h.tasks, List.flatMap_singleton, hnew, range_append_range']
    rfl
  case limit =>
    rw [hentries, List.length_append, List.length_singleton, m.length_entries]
    exact hlimit
  case named =>
    intro i x hx
    rw [hentries, List.getElem?_append] at hx
    split_ifs at hx with hi
    · obtain ⟨label, hasked, hname⟩ := h.named i x hx
      exact ⟨label, hasked.onward on, hname⟩
    · obtain ⟨hlt, hx⟩ := List.getElem?_eq_some_iff.1 hx
      have hi : i = m.records.length := by
        rw [List.length_singleton] at hlt
        rw [m.length_entries] at hi hlt
        omega
      rw [List.getElem_singleton] at hx
      refine ⟨label, ⟨e, he, target, message⟩, ?_, ?_⟩
      · rw [← hx]
        exact hclass
      · rw [← hx, hi]
        rfl
  case ids => exact rising h.ids fun x hx => (h.hired x hx).1
  case times => exact rising h.times fun x hx => Time.le_trans (h.past x hx) on.now
  case past => exact each (fun x hx => Time.le_trans (h.past x hx) on.now) timely.now_le
  case hired =>
    rw [hids, hhandouts]
    refine each ?_ ?_
    · intro x hx
      obtain ⟨hlt, sub, hmem, hsub⟩ := h.hired x hx
      exact ⟨hlt.trans (Nat.lt_succ_self _), sub, List.mem_append_left _ hmem, hsub⟩
    · exact ⟨Nat.lt_succ_self _, _, List.mem_append_right _ (List.mem_singleton_self _), rfl, rfl, rfl⟩

variable [ExecutionService W]

/-- **Whatever a manager does with an event, its books stay right.** -/
theorem Books.reacted (h : m.Books g s) {v : View W} {e : Event Signal} {r : Except SimError Unit} {world : W}
    {recruits : List Subordinate} (reacted : m.Reacted v e.message r m' world recruits) (he : .react e ∈ t.visits)
    (target : e.target = g) (hid : v.nextId = s.nextId) (hnow : v.now = t.now) (timely : t.agenda.IsTimely)
    (on : Onward s t) (hids : t.nextId = s.nextId + recruits.length)
    (hhandouts : t.handouts = s.handouts ++ numbered s.nextId (recruits.map .subordinate)) : m'.Books g t := by
  generalize hmessage : e.message = message at reacted
  cases reacted with
  | granted hg =>
    rw [hid, hnow] at hhandouts ⊢
    exact h.granted hg he target hmessage timely on hids hhandouts
  | analyzed => exact h.mono on rfl (unmeasured_refresh _ _ (length_gathered v.world m)) rfl rfl
  | refused | redistributed => exact h.mono on rfl rfl rfl rfl
  | monitored | unhandled => exact h.mono on rfl rfl rfl rfl

end Manager

/-! ## Through a run -/

namespace Simulation

variable {ω W : Type} [ExecutionService W] [Guest ω W]

/-- nothing is overdue, and if an id was given to a new manager, the books of whoever has its place are right -/
structure Balanced (g : EntityId) (settings : ManagerSettings) (s : Simulation (Agent ω) Signal W) : Prop where
  timely : s.agenda.IsTimely
  books : (g, .manager (.ofSettings settings)) ∈ s.handouts → ∀ slot, s.entities[g]? = some slot →
    ∃ m, slot.entity = .manager m ∧ m.Books g s

variable {g : EntityId} {settings : ManagerSettings} {admits : Agent ω → Prop} {s t : Simulation (Agent ω) Signal W}

/-- **Every beat keeps the books.** -/
theorem Balanced.beat (h : Balanced g settings s) (placed : Placed s) (beat : Beat admits s t) :
    Balanced g settings t := by
  have on := beat.onward h.timely
  have placed' := beat.moves.placed placed
  have timely := (beat.timely h.timely).1
  refine ⟨timely, fun given slot hslot => ?_⟩
  -- a place that was taken before was taken by the manager
  have before : ∀ old, s.entities[g]? = some old → ∃ m, old.entity = .manager m ∧ m.Books g s := by
    intro old hold
    obtain ⟨e, he, -⟩ := placed.slots g old hold
    cases placed'.handed (on.handouts.subset he) given
    exact h.books he old hold
  have unchanged : ∀ old, s.entities[g]? = some old → slot.entity = old.entity →
      ∃ m, slot.entity = .manager m ∧ m.Books g t := by
    intro old hold heq
    obtain ⟨m, hm, books⟩ := before old hold
    exact ⟨m, heq.trans hm, books.mono on rfl rfl rfl rfl⟩
  cases beat with
  | aside core effect story => exact unchanged slot (effect.entities ▸ hslot) rfl
  | schedule delay source target message =>
    exact unchanged slot ((schedule_effect delay source target message s).entities ▸ hslot) rfl
  | cancel handle => exact unchanged slot hslot rfl
  | accept welcome live idle => exact unchanged slot hslot rfl
  | drop live idle next nobody core effect story => exact unchanged slot (effect.entities ▸ hslot) rfl
  | @start _ _ u v e y rest r spawned live line before play effect after change story =>
    have hentities : t.entities = s.entities.push ⟨Named.name e, stateAfter (failure? r), y⟩ := congrArg entities after
    rw [hentities, Array.getElem?_push] at hslot
    split_ifs at hslot with hg
    · cases hslot
      have he : (g, e) ∈ s.handouts := placed.waiting _ (by rw [line, hg]; exact List.mem_cons_self)
      cases placed'.handed (on.handouts.subset he) given
      obtain ⟨r', u', hplay, -⟩ := Manager.play_start_keeps s.entities.size (.ofSettings settings) v
      rw [Agent.play_start_manager, hplay] at play
      cases play
      exact ⟨_, rfl, .fresh settings g t⟩
    · exact unchanged slot hslot rfl
  | @react _ _ u v e agenda old y r spawned live idle next target running hv play effect after change story =>
    have hentities : t.entities = s.entities.setIfInBounds e.target { old with entity := y } := congrArg entities after
    rw [hentities, Array.getElem?_setIfInBounds] at hslot
    split_ifs at hslot with hg hlt
    · cases hslot
      obtain ⟨m, hm, books⟩ := before old (hg ▸ target)
      obtain ⟨r', m', world, recruits, u', hplay, reacted, hcore⟩ :=
        Manager.play_reacted e.target m Agent.subordinate e v
      rw [hm, Agent.play_react_manager, hplay] at play
      cases play
      have hspawned : spawned = recruits.map .subordinate := effect.spawned_eq (congrArg waiting hcore :)
      have hid : v.nextId = s.nextId := (congrArg nextId hv :)
      have hnow : v.now = t.now := calc
        v.now = agenda.now := congrArg (fun u => u.agenda.now) hv
        _ = t.now := change.now.symm
      refine ⟨m', rfl, books.reacted reacted ?_ hg hid hnow timely on ?_ ?_⟩
      · rw [change.visits]
        exact List.mem_append_right _ (List.mem_singleton_self _)
      · rw [change.nextId, hspawned, List.length_map]
      · rw [change.handouts, hspawned]
        rfl
    · exact unchanged slot hslot rfl
  | finish live =>
    obtain ⟨old, hold, -, hlast⟩ := (finish_closed live).slot le_rfl hslot
    rcases hlast with ⟨-, rfl⟩ | ⟨-, -, world, heq⟩
    · exact unchanged slot hold rfl
    · obtain ⟨m, hm, books⟩ := before old hold
      obtain ⟨stats, hl, hdown⟩ := m.shutdown_fst s.now world
      rw [hm] at heq
      refine ⟨(m.shutdown s.now world).1, heq, ?_⟩
      rw [hdown]
      exact books.mono on rfl (Manager.unmeasured_refresh _ _ hl) rfl rfl

omit [ExecutionService W] [Guest ω W] in
theorem Balanced.turn (h : Balanced g settings s) (world : W) : Balanced g settings { s with world } := by
  have on : Onward s { s with world } := ⟨h.timely.now_le, le_rfl, List.prefix_rfl, List.prefix_rfl⟩
  refine ⟨h.timely, fun given slot hslot => ?_⟩
  obtain ⟨m, hm, books⟩ := h.books given slot hslot
  exact ⟨m, hm, books.mono on rfl rfl rfl rfl⟩

end Simulation

/-! ## The books and the registry -/

namespace Manager

variable {ω W : Type} [ExecutionService W] [Guest ω W]

/-- the books of a manager agree with the registry in which it stands under an id -/
structure Agrees (m : Manager) (g : EntityId) (s : Simulation (Agent ω) Signal W) : Prop where
  tracked : m.tracked = m.totals
  limit : m.records.length ≤ m.settings.maxSubordinates.toNat
  ids : m.records.Pairwise fun r r' => r.subordinateId < r'.subordinateId
  times : m.records.Pairwise fun r r' => r.createdAt ≤ r'.createdAt
  names : (m.records.map ManagedRecord.name).Nodup
  /-- each record is the answer to a request, and named for it -/
  named : ∀ i r, m.records[i]? = some r → ∃ label, Asked g label s ∧
    WorkloadClass.ofRequest (some label) = .ok r.workload ∧ r.name = subordinateName (i + 1) label
  /-- each id is that of a subordinate in the registry, with what the record says -/
  registered : ∀ r ∈ m.records, ∃ slot sub, s.entities[r.subordinateId]? = some slot ∧ slot.name = r.name ∧
    slot.entity = .subordinate sub ∧ sub.name = r.name ∧ sub.bundle.vms = r.vms ∧ sub.bundle.tasks = r.tasks
  vms : (m.records.flatMap (·.vms)).map Vm.id = List.range (m.records.flatMap (·.vms)).length
  tasks : (m.records.flatMap (·.tasks)).map Task.id = List.range (m.records.flatMap (·.tasks)).length

variable {m : Manager} {g : EntityId} {s : Simulation (Agent ω) Signal W}

theorem Books.agrees (h : m.Books g s) (settled : Simulation.Settled s) : m.Agrees g s := by
  have numbers : ∀ {l : List Nat} {n : Nat}, l = List.range n → l = List.range l.length := by
    rintro l n rfl
    rw [List.length_range]
  have named : ∀ i r, m.records[i]? = some r → ∃ label, Asked g label s ∧
      WorkloadClass.ofRequest (some label) = .ok r.workload ∧ r.name = subordinateName (i + 1) label := by
    intro i r hr
    exact h.named i r.unmeasured (by rw [entries, List.getElem?_map, hr]; rfl)
  constructor
  case tracked => exact h.tracked
  case limit => exact m.length_entries ▸ h.limit
  case ids => exact List.Pairwise.of_map ManagedRecord.unmeasured (fun _ _ h => h) h.ids
  case times => exact List.Pairwise.of_map ManagedRecord.unmeasured (fun _ _ h => h) h.times
  case named => exact named
  case names =>
    refine List.pairwise_map.2 (List.pairwise_iff_getElem.2 ?_)
    intro i j hi hj hij heq
    obtain ⟨label, -, -, hname⟩ := named i _ (List.getElem?_eq_getElem hi)
    obtain ⟨other, -, -, hother⟩ := named j _ (List.getElem?_eq_getElem hj)
    have hnumber := subordinateName_inj (hname.symm.trans (heq.trans hother))
    omega
  case registered =>
    intro r hr
    obtain ⟨hlt, sub, hmem, hname, hvms, htasks⟩ := h.hired r.unmeasured (List.mem_map_of_mem hr)
    rw [settled.nextId] at hlt
    have hslot := Array.getElem?_eq_getElem hlt
    obtain ⟨e, he, hplace, descends⟩ := settled.placed.slots _ _ hslot
    cases settled.placed.handed he hmem
    obtain ⟨sub', hsub, remains⟩ := Agent.descends_subordinate descends
    exact ⟨_, sub', hslot, hplace.trans hname, hsub, remains.name.trans hname,
      (congrArg Bundle.vms remains.bundle).trans hvms, (congrArg Bundle.tasks remains.bundle).trans htasks⟩
  case vms =>
    have heq := numbers h.vms
    rw [entries, List.flatMap_map, List.length_map] at heq
    exact heq
  case tasks =>
    have heq := numbers h.tasks
    rw [entries, List.flatMap_map, List.length_map] at heq
    exact heq

end Manager

namespace Simulation

variable {ω W : Type} [ExecutionService W] [Guest ω W] {drift : W → W → Prop}

/-- what is true of any run so far -/
theorem Sequel.balanced {limits : Limits} {world : W} {s : Simulation (Agent ω) Signal W}
    (h : Sequel Smooth drift (fresh limits world) s) (g : EntityId) (settings : ManagerSettings) :
    Settled s ∧ Balanced g settings s := by
  have fresh : Balanced g settings (Simulation.fresh limits world : Simulation (Agent ω) Signal W) :=
    ⟨Agenda.isTimely_fresh, fun h => nomatch h⟩
  have start : Settled (Simulation.fresh limits world : Simulation (Agent ω) Signal W) := .fresh limits world
  refine ⟨h.settled start, ?_⟩
  have beat : ∀ s t : Simulation (Agent ω) Signal W, Tidy s → Placed s → Beat (fun _ => True) s t →
      Balanced g settings s → Balanced g settings t := fun _ _ _ placed beat balanced => balanced.beat placed beat
  exact (h.keep (fun _ _ _ => trivial) (fun _ _ h => by cases h) beat (fun _ _ _ balanced => balanced.turn _)
    start.tidy start.idle start.placed fresh).1

theorem Sequel.agrees {limits : Limits} {world : W} {s : Simulation (Agent ω) Signal W} {g : EntityId}
    {settings : ManagerSettings} (h : Sequel Smooth drift (fresh limits world) s)
    (given : (g, .manager (.ofSettings settings)) ∈ s.handouts) :
    ∃ slot m, s.entities[g]? = some slot ∧ slot.entity = .manager m ∧ m.settings = settings ∧ m.Agrees g s := by
  obtain ⟨settled, balanced⟩ := h.balanced g settings
  have hlt : g < s.entities.size := by
    have hmem : g ∈ s.handouts.map Prod.fst := List.mem_map_of_mem given
    rw [settled.placed.counted, List.mem_range, settled.nextId] at hmem
    exact hmem
  have hslot := Array.getElem?_eq_getElem hlt
  obtain ⟨m, hm, books⟩ := balanced.books given _ hslot
  obtain ⟨e, he, -, descends⟩ := settled.placed.slots _ _ hslot
  cases settled.placed.handed he given
  obtain ⟨n, hn, grows⟩ := Agent.descends_manager descends
  cases hm.symm.trans hn
  exact ⟨_, m, hslot, hm, grows.settings, books.agrees settled⟩

/-- **The books of a manager agree with the registry.** Whatever the execution service, whoever else there is and
    whatever happens to a manager: as long as no call fails, after every call and every event its books agree with the
    registry (`Manager.Agrees`). Later they are the same books, with records added at the end; of the records that were
    there, only the figure that is measured may have changed. -/
theorem books_agree {limits : Limits} {world : W} {s t : Simulation (Agent ω) Signal W} {g : EntityId}
    {settings : ManagerSettings} (before : Sequel Smooth drift (fresh limits world) s) (after : Sequel Smooth drift s t)
    (given : (g, .manager (.ofSettings settings)) ∈ s.handouts) :
    ∃ slot slot' m n, s.entities[g]? = some slot ∧ slot.entity = .manager m ∧ m.settings = settings ∧ m.Agrees g s ∧
      t.entities[g]? = some slot' ∧ slot'.entity = .manager n ∧ n.settings = settings ∧ n.Agrees g t ∧
      m.records.map ManagedRecord.unmeasured <+: n.records.map ManagedRecord.unmeasured := by
  obtain ⟨slot, m, hslot, hm, hsettings, agrees⟩ := before.agrees given
  obtain ⟨handouts, places⟩ := after.lasting (before.balanced g settings).1
  obtain ⟨slot', n, hslot', hn, hsettings', agrees'⟩ := Sequel.agrees (before.trans after) (handouts.subset given)
  obtain ⟨slot'', heq, descends⟩ := places g slot hslot
  cases hslot'.symm.trans heq
  rw [hm] at descends
  obtain ⟨n', hn', grows⟩ := Agent.descends_manager descends
  cases hn.symm.trans hn'
  exact ⟨slot, slot', m, n, hslot, hm, hsettings, agrees, hslot', hn, hsettings', agrees', grows.records⟩

open Standin

/-- a manager that is asked for two subordinates, and once for nothing in particular -/
def busySettings : ManagerSettings where
  schedule := [⟨0, .createSubordinate (some " Light")⟩, ⟨1, .createSubordinate none⟩,
    ⟨1, .createSubordinate (some "odd")⟩, ⟨2, .redistributeWorkload⟩, ⟨3, .analyzePerformance⟩]

/-- a service that refuses the machines of the second subordinate; nobody is registered -/
def studio : Simulation (Agent Saboteur) Signal Collaborator :=
  fresh {} ⟨.wrapped { vms := [2] } 0, { settings := {}, stream := .ofSeed 42 }⟩

/-- the manager has started, and one subordinate is created -/
def opened : Simulation (Agent Saboteur) Signal Collaborator :=
  (studio.after 1 (.register (.manager (.ofSettings busySettings)))).after 1 .step

theorem books_agree_of_studio :
    Sequel Smooth (fun _ _ => False) studio opened ∧ Sequel Smooth (fun _ _ => False) opened (opened.after 9 .run) ∧
      (0, .manager (.ofSettings busySettings)) ∈ opened.handouts ∧
      (opened.after 9 .run).entities.toList.map Slot.name =
        ["GlobalManager", "GlobalManagedBroker_1_Light", "GlobalManagedBroker_2_odd"] ∧
      ∃ slot slot' m n, opened.entities[0]? = some slot ∧ slot.entity = .manager m ∧ m.settings = busySettings ∧
        m.Agrees 0 opened ∧ (opened.after 9 .run).entities[0]? = some slot' ∧ slot'.entity = .manager n ∧
        n.settings = busySettings ∧ n.Agrees 0 (opened.after 9 .run) ∧
        m.records.map ManagedRecord.unmeasured <+: n.records.map ManagedRecord.unmeasured := by
  have first : Sequel Smooth (fun _ _ => False) studio opened :=
    .tail (.single (.after (by decide +kernel))) (.after (by decide +kernel))
  have rest : Sequel Smooth (fun _ _ => False) opened (opened.after 9 .run) := .single (.after (by decide +kernel))
  have given : (0, .manager (.ofSettings busySettings)) ∈ opened.handouts := by decide +kernel
  exact ⟨first, rest, given, by decide +kernel, books_agree first rest given⟩

end Simulation

end BrokerSim
