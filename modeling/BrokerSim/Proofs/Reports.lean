/-
What a manager reports, and what becomes of its records then.
- `Exchange.inTurn`: the answers to questions that are asked one after another. `Manager.answers`: those of the service
  about every subordinate.
- `SubordinateStats.Tells`: an entry says what was answered for a record. `PerformanceReport.Sound`: the figures for all
  of them are those of the entries. `Manager.Analysis`: what an analysis comes to, said without the code.
- `Manager.analyzes`: so does every analysis, when it is asked for and when the manager is shut down, in any simulation;
  nothing else is touched.
- `PerformanceReport.Series`: the reports of one manager, first one first, with its records as they are by now.
  `Simulation.Reporting.pulse`: every part of a run keeps up the series.
- `Simulation.reports_tell`: so it is whenever something is seen of a run.
-/
import BrokerSim.Proofs.Ratio
import BrokerSim.Proofs.Requests

namespace BrokerSim

/-! ## Questions in a row -/

namespace Exchange

variable {W α β γ : Type}

/-- ask one after another, each in the world that the one before has left: the answers, and the world at the end -/
def inTurn (ask : α → Exchange W β) : List α → W → List β × W
  | [], w => ([], w)
  | a :: l, w => ((ask a w).1 :: (inTurn ask l (ask a w).2.1).1, (inTurn ask l (ask a w).2.1).2)

theorem length_inTurn (ask : α → Exchange W β) (l : List α) (w : W) : (inTurn ask l w).1.length = l.length := by
  induction l generalizing w with
  | nil => rfl
  | cons a l ih => exact congrArg (· + 1) (ih _)

/-- where each exchange is a question and what is made of the answer, so are all of them -/
theorem mapM_inTurn {ask : α → Exchange W β} {f : α → Exchange W γ} {make : α → β → γ}
    (h : ∀ a w, (f a w).1 = make a (ask a w).1 ∧ (f a w).2.1 = (ask a w).2.1) (l : List α) (w : W) :
    ((l.mapM f) w).1 = List.zipWith make l (inTurn ask l w).1 ∧ ((l.mapM f) w).2.1 = (inTurn ask l w).2 := by
  have loop : ∀ (l : List α) (done : List γ) (w : W),
      (List.mapM.loop f l done w).1 = done.reverse ++ List.zipWith make l (inTurn ask l w).1 ∧
        (List.mapM.loop f l done w).2.1 = (inTurn ask l w).2 := by
    intro l
    induction l with
    | nil => exact fun done _ => ⟨(List.append_nil _).symm, rfl⟩
    | cons a l ih =>
      intro done w
      obtain ⟨made, world⟩ := h a w
      obtain ⟨rest, last⟩ := ih ((f a w).1 :: done) (f a w).2.1
      constructor
      · calc (List.mapM.loop f (a :: l) done w).1
          _ = ((f a w).1 :: done).reverse ++ List.zipWith make l (inTurn ask l (f a w).2.1).1 := rest
          _ = done.reverse ++ (make a (ask a w).1 :: List.zipWith make l (inTurn ask l (ask a w).2.1).1) := by
            rw [List.reverse_cons, List.append_assoc, made, world]
            rfl
      · refine last.trans ?_
        rw [world]
        rfl
  exact loop l [] w

end Exchange

/-! ## One entry -/

namespace SubordinateStats

/-- the results in an answer: there are none in an error -/
def told : Except SimError (List TaskResult) → List TaskResult
  | .ok results => results
  | .error _ => []

/-- the entry for a record, if this is answered about it -/
def entry (r : ManagedRecord) (answer : Except SimError (List TaskResult)) : SubordinateStats :=
  ofResults r.subordinateId r.name (told answer)

/-- an entry tells what was answered about a record -/
structure Tells (x : SubordinateStats) (r : ManagedRecord) (answer : Except SimError (List TaskResult)) : Prop where
  id : x.id = r.subordinateId
  name : x.name = r.name
  successful : x.successful = (told answer).countP fun result => result.status = .success
  /-- whatever else has become of them -/
  failed : x.failed = (told answer).countP fun result => result.status ≠ .success
  /-- of those that succeeded, in the order of the answer -/
  executionTime : x.executionTime =
    sumFloats (((told answer).filter fun result => result.status = .success).map TaskResult.cpuTime)

theorem tells_entry (r : ManagedRecord) (answer : Except SimError (List TaskResult)) :
    (entry r answer).Tells r answer where
  id := rfl
  name := rfl
  successful := List.countP_eq_length_filter.symm
  failed := by
    rw [List.countP_eq_length_filter]
    refine congrArg List.length (List.filter_congr fun result _ => ?_)
    unfold TaskStatus.isSuccess
    exact (decide_not ..).symm
  executionTime := rfl

end SubordinateStats

/-! ## One report -/

namespace PerformanceReport

/-- the figures for all subordinates are those of the entries together -/
structure Sound (p : PerformanceReport) : Prop where
  totalSuccessful : p.totalSuccessful = (p.subordinates.map SubordinateStats.successful).sum
  totalFailed : p.totalFailed = (p.subordinates.map SubordinateStats.failed).sum
  totalExecutionTime : p.totalExecutionTime = sumFloats (p.subordinates.map SubordinateStats.executionTime)
  successRate : p.successRate = p.totalSuccessful.toFloat / (max (p.totalSuccessful + p.totalFailed) 1).toFloat
  /-- as long as the tasks can be counted in a word -/
  bounded : p.totalSuccessful + p.totalFailed < 2 ^ 64 → 0 ≤ p.successRate ∧ p.successRate ≤ 1
  none : p.totalSuccessful = 0 → p.successRate = 0
  averageExecutionTime : p.averageExecutionTime = p.totalExecutionTime / (max p.subordinates.length 1).toFloat

theorem total_eq_sum {α : Type} (count : α → Nat) (l : List α) : total count l = (l.map count).sum := by
  induction l with
  | nil => rfl
  | cons x l ih =>
    rw [List.map_cons, List.sum_cons, ← ih]
    rfl

/-- a share is zero only where nothing succeeded, and within bounds also there -/
theorem successRate_zero (failed : Nat) : BrokerSim.successRate 0 failed = 0 :=
  Time.zero_share (lt_max_of_lt_right Nat.one_pos)

theorem successRate_bounds {successful failed : Nat} (h : successful + failed < 2 ^ 64) :
    0 ≤ BrokerSim.successRate successful failed ∧ BrokerSim.successRate successful failed ≤ 1 := by
  rcases Nat.eq_zero_or_pos successful with rfl | hpos
  · rw [successRate_zero]
    decide +kernel
  · exact Time.share_within_unit hpos (le_max_of_le_left (Nat.le_add_right _ _)) (max_lt h (by decide))

theorem sound_ofStats (now : Time) (stats : List SubordinateStats) : (ofStats now stats).Sound where
  totalSuccessful := total_eq_sum _ _
  totalFailed := total_eq_sum _ _
  totalExecutionTime := rfl
  successRate := rfl
  bounded := successRate_bounds
  none := by
    intro h
    change BrokerSim.successRate (ofStats now stats).totalSuccessful _ = 0
    rw [h]
    exact successRate_zero _
  averageExecutionTime := rfl

end PerformanceReport

/-! ## One analysis -/

namespace Manager

/-- what an analysis comes to, if these are the answers: the report, and the records after it -/
structure Analysis (m : Manager) (now : Time) (answers : List (Except SimError (List TaskResult)))
    (report : PerformanceReport) (records : List ManagedRecord) : Prop where
  time : report.time = now
  /-- there is one entry for each record, and the records stay as many -/
  entries : report.subordinates.length = m.records.length
  length : records.length = m.records.length
  /-- the entry tells what was answered about the record, which has its figure from then on and is the same otherwise -/
  tells : ∀ (i : Nat) r, m.records[i]? = some r → ∃ x answer,
    report.subordinates[i]? = some x ∧ answers[i]? = some answer ∧ SubordinateStats.Tells x r answer ∧
      records[i]? = some { r with cumulativeMetric := x.executionTime }
  sound : report.Sound

variable {W : Type} [ExecutionService W]

/-- what the service answers about each subordinate, and the world after that -/
def answers (m : Manager) (w : W) : List (Except SimError (List TaskResult)) × W :=
  Exchange.inTurn (fun r => (ExecutionService.completedTasks r.subordinateId : Call W (List TaskResult))) m.records w

/-- the figures of one subordinate are its entry, and nothing but the question is put to the service -/
theorem statsOf_eq (r : ManagedRecord) (w : W) :
    let asked := (ExecutionService.completedTasks r.subordinateId : Call W (List TaskResult)) w
    (statsOf r w).1 = SubordinateStats.entry r asked.1 ∧ (statsOf r w).2.1 = asked.2.1 := by
  unfold statsOf
  simp only [bind]
  generalize (ExecutionService.completedTasks r.subordinateId : Call W (List TaskResult)) w = asked
  obtain ⟨_ | _, world, remarks⟩ := asked
  · exact ⟨rfl, rfl⟩
  · exact ⟨rfl, rfl⟩

theorem gathered_inTurn (m : Manager) (w : W) :
    m.gathered w = List.zipWith SubordinateStats.entry m.records (m.answers w).1 :=
  (Exchange.mapM_inTurn statsOf_eq m.records w).1

/-- the world after an analysis is that after the questions -/
theorem analyze_world (now : Time) (m : Manager) (w : W) : (analyze now m w).2.1 = (m.answers w).2 := by
  have logged : ∀ report, Exchange.Within Eq (logReport now report : Exchange W Unit) := fun report =>
    .bind (.forM (fun _ => .remark _ _) _) fun _ => .remark _ _
  have asked := (Exchange.mapM_inTurn statsOf_eq m.records w).2
  exact (logged (.ofStats now (m.gathered w)) _).symm.trans asked

/-- **An analysis tells what was answered.** -/
theorem analysis (m : Manager) (now : Time) (w : W) :
    m.Analysis now (m.answers w).1 (.ofStats now (m.gathered w)) (List.zipWith refresh m.records (m.gathered w)) where
  time := rfl
  entries := length_gathered w m
  length := by rw [List.length_zipWith, length_gathered, min_self]
  tells := by
    intro i r hr
    have hlt : i < (m.answers w).1.length := by
      rw [answers, Exchange.length_inTurn]
      exact (List.getElem?_eq_some_iff.1 hr).1
    have answer : (m.answers w).1[i]? = some (m.answers w).1[i] := List.getElem?_eq_getElem hlt
    have entry : (m.gathered w)[i]? = some (SubordinateStats.entry r (m.answers w).1[i]) := by
      rw [gathered_inTurn, List.getElem?_zipWith, hr, answer]
    refine ⟨_, _, entry, answer, SubordinateStats.tells_entry r _, ?_⟩
    rw [List.getElem?_zipWith, hr, entry]
    rfl
  sound := PerformanceReport.sound_ofStats now _

end Manager

/-! ## In a simulation -/

namespace Manager

variable {ω W : Type} [ExecutionService W] [Guest ω W] {m : Manager} {slot : Slot (Agent ω)}
  {u : Simulation (Agent ω) Signal W}

/-- what an analysis comes to in a simulation: the manager has its report and the records, the service was asked, and
    there are new lines in the log -/
structure Analyzes (m : Manager) (slot : Slot (Agent ω)) (u : Simulation (Agent ω) Signal W) : Prop where
  /-- if it is asked for, the report comes after those that there are -/
  asked : ∀ e : Event Signal, e.message = .analyzePerformance → ∃ report records t,
    m.Analysis u.now (m.answers u.world).1 report records ∧ u.react e slot = (.ok (), t) ∧
      t = { u.delivering e with
        journal := t.journal
        world := (m.answers u.world).2
        entities := u.entities.setIfInBounds e.target
          { slot with entity := .manager { m with records, reports := m.reports ++ [report] } } }
  /-- if the manager is shut down, the report is its last -/
  last : ∀ k, u.entities[k]? = some slot → slot.state = .running → ∃ report records,
    m.Analysis u.now (m.answers u.world).1 report records ∧
      u.close k = { u with
        journal := (u.close k).journal
        world := (m.answers u.world).2
        entities := u.entities.setIfInBounds k
          { slot with state := .shutdown, entity := .manager { m with records, finalReport? := some report } } }

theorem shutdown_eq (m : Manager) (now : Time) (w : W) :
    ∃ report records, m.Analysis now (m.answers w).1 report records ∧
      (m.shutdown now w).1 = { m with records, finalReport? := some report } ∧
      (m.shutdown now w).2.1 = (m.answers w).2 :=
  ⟨_, _, m.analysis now w, rfl, analyze_world now m w⟩

/-- **Every analysis** tells what was answered, and touches nothing else. -/
theorem analyzes (entity : slot.entity = .manager m) : m.Analyzes slot u where
  asked := by
    intro e he
    have played : (react Agent.subordinate e : Reaction Manager (Agent ω) Signal W Unit).play e.target m (u.delivering e) =
        ((.ok (), { m with
            records := List.zipWith refresh m.records (m.gathered u.world)
            reports := m.reports ++ [.ofStats u.now (m.gathered u.world)] }),
          ((u.delivering e).exchange (analyze u.now m)).2) := by
      unfold react
      simp only [Reaction.play_bind, Reaction.play_get, Reaction.play_view, he, Reaction.play_exchange, Reaction.play_set]
      rfl
    have reacted := Simulation.react_eq e slot u
    rw [entity, Agent.play_react_manager, played] at reacted
    refine ⟨_, _, _, m.analysis u.now u.world, reacted, ?_⟩
    rw [← analyze_world u.now]
    rfl
  last := by
    intro k place running
    obtain ⟨report, records, analysis, after, world⟩ := m.shutdown_eq u.now u.world
    refine ⟨report, records, analysis, ?_⟩
    rw [← after, ← world]
    unfold Simulation.close
    rw [place]
    dsimp only
    rw [if_pos running, entity]
    rfl

end Manager

/-! ## One report after another -/

/-- whom a record is about -/
def ManagedRecord.row (r : ManagedRecord) : EntityId × String := (r.subordinateId, r.name)

namespace PerformanceReport

/-- whom the entries are about -/
def rows (p : PerformanceReport) : List (EntityId × String) := p.subordinates.map fun x => (x.id, x.name)

/-- the time of the tasks of subordinate number `i`, if the report is about it -/
def time? (p : PerformanceReport) (i : Nat) : Option Float := p.subordinates[i]?.map SubordinateStats.executionTime

/-- the reports of a manager, first one first, and its records by now -/
structure Series (reports : List PerformanceReport) (records : List ManagedRecord) : Prop where
  sound : ∀ p ∈ reports, p.Sound
  /-- each is about the first records -/
  rows : ∀ p ∈ reports, p.rows <+: records.map ManagedRecord.row
  /-- and about all those that an earlier one is about -/
  grows : reports.Pairwise fun p q => p.rows <+: q.rows
  /-- a record has the figure of the last report, and none if that is not about it -/
  metric : ∀ (i : Nat) r, records[i]? = some r → r.cumulativeMetric = ((reports.getLast?.bind (·.time? i)).getD 0)

theorem Series.nil : Series [] [] where
  sound := fun _ h => nomatch h
  rows := fun _ h => nomatch h
  grows := List.Pairwise.nil
  metric := fun _ _ h => nomatch h

variable {reports : List PerformanceReport} {records : List ManagedRecord}

/-- a report has nothing about a record that came later -/
theorem time?_none {p : PerformanceReport} (h : p.rows <+: records.map ManagedRecord.row) :
    p.time? records.length = none := by
  have hle : p.subordinates.length ≤ records.length := by
    have hlength := h.length_le
    rwa [PerformanceReport.rows, List.length_map, List.length_map] at hlength
  rw [time?, List.getElem?_eq_none hle]
  rfl

/-- one more record, which has no figure yet -/
theorem Series.keep (h : Series reports records) {r : ManagedRecord} (hr : r.cumulativeMetric = 0) :
    Series reports (records ++ [r]) where
  sound := h.sound
  rows := by
    intro p hp
    rw [List.map_append]
    exact (h.rows p hp).trans (List.prefix_append _ _)
  grows := h.grows
  metric := by
    intro i r' hi
    rcases lt_trichotomy i records.length with hlt | rfl | hgt
    · rw [List.getElem?_append_left hlt] at hi
      exact h.metric i r' hi
    · rw [List.getElem?_concat_length] at hi
      cases hi
      rw [hr]
      cases hlast : reports.getLast? with
      | none => rfl
      | some p =>
        rw [Option.bind_some, time?_none (h.rows p (List.mem_of_getLast? hlast))]
        rfl
    · rw [List.getElem?_eq_none (by rw [List.length_append]; exact hgt)] at hi
      cases hi

end PerformanceReport

namespace Manager

open PerformanceReport

section

variable {m : Manager} {now : Time} {answers : List (Except SimError (List TaskResult))} {report : PerformanceReport}
  {records : List ManagedRecord} {earlier rest : List PerformanceReport}

/-- the report is about all the records -/
theorem Analysis.rows (h : m.Analysis now answers report records) : report.rows = m.records.map ManagedRecord.row := by
  refine List.ext_getElem? fun i => ?_
  rw [PerformanceReport.rows, List.getElem?_map, List.getElem?_map]
  cases hr : m.records[i]? with
  | none =>
    rw [List.getElem?_eq_none (h.entries ▸ List.getElem?_eq_none_iff.1 hr)]
    rfl
  | some r =>
    obtain ⟨x, _, hx, -, tells, -⟩ := h.tells i r hr
    rw [hx]
    exact congrArg some (Prod.ext tells.id tells.name)

/-- and they are about whom they were before -/
theorem Analysis.row (h : m.Analysis now answers report records) :
    records.map ManagedRecord.row = m.records.map ManagedRecord.row := by
  refine List.ext_getElem? fun i => ?_
  rw [List.getElem?_map, List.getElem?_map]
  cases hr : m.records[i]? with
  | none =>
    rw [List.getElem?_eq_none (h.length ▸ List.getElem?_eq_none_iff.1 hr)]
  | some r =>
    obtain ⟨x, _, -, -, -, hrecord⟩ := h.tells i r hr
    rw [hrecord]
    rfl

theorem Analysis.metric (h : m.Analysis now answers report records) {i : Nat} {r : ManagedRecord}
    (hr : records[i]? = some r) : report.time? i = some r.cumulativeMetric := by
  have hlt : i < m.records.length := h.length ▸ (List.getElem?_eq_some_iff.1 hr).1
  obtain ⟨x, _, hx, -, -, hrecord⟩ := h.tells i _ (List.getElem?_eq_getElem hlt)
  cases hrecord.symm.trans hr
  rw [time?, hx]
  rfl

/-- one more report, which may take the place of the last -/
theorem Analysis.series (h : m.Analysis now answers report records) (before : Series (earlier ++ rest) m.records) :
    Series (earlier ++ [report]) records where
  sound := by
    intro p hp
    rcases List.mem_append.1 hp with hp | hp
    · exact before.sound p (List.mem_append_left _ hp)
    · rw [List.mem_singleton.1 hp]
      exact h.sound
  rows := by
    intro p hp
    rw [h.row]
    rcases List.mem_append.1 hp with hp | hp
    · exact before.rows p (List.mem_append_left _ hp)
    · rw [List.mem_singleton.1 hp, h.rows]
  grows := by
    refine List.pairwise_append.2 ⟨(List.pairwise_append.1 before.grows).1, List.pairwise_singleton _ _, ?_⟩
    intro p hp q hq
    rw [List.mem_singleton.1 hq, h.rows]
    exact before.rows p (List.mem_append_left _ hp)
  metric := by
    intro i r hr
    rw [List.getLast?_concat, Option.bind_some, h.metric hr]
    rfl

end

/-! ## In a run -/

/-- a manager that was asked for reports at these times has made them, and keeps its records by them -/
structure Reports (m : Manager) (times : List Time) : Prop where
  times : m.reports.map PerformanceReport.time = times
  series : Series (m.reports ++ m.finalReport?.toList) m.records

end Manager

/-- when a report is asked for, if an event does so -/
def Event.analysis? (e : Event Signal) : Option Time :=
  match e.message with
  | .analyzePerformance => some e.time
  | _ => none

/-- the times at which the entity under an id was asked for a report, first one first -/
def Simulation.analyses {ε W : Type} (id : EntityId) (s : Simulation ε Signal W) : List Time :=
  (s.heard id).filterMap Event.analysis?

namespace Manager

variable {W : Type} [ExecutionService W]

theorem Reports.fresh (settings : ManagerSettings) : (ofSettings settings).Reports [] := ⟨rfl, .nil⟩

/-- it has reported on what it was asked, also after one more event, if it has not made its last report -/
theorem Reports.reacted {m m' : Manager} {times : List Time} (h : m.Reports times) (unfinished : m.finalReport? = none)
    {v : View W} {e : Event Signal} {r : Except SimError Unit} {world : W} {recruits : List Subordinate}
    (reacted : m.Reacted v e.message r m' world recruits) (now : v.now = e.time) :
    m'.Reports (times ++ e.analysis?.toList) ∧ m'.finalReport? = none := by
  obtain ⟨time, source, target, handle, message⟩ := e
  have unasked : m.reports.map PerformanceReport.time = times ++ [] := h.times.trans (List.append_nil times).symm
  cases reacted with
  | granted => exact ⟨⟨unasked, h.series.keep rfl⟩, unfinished⟩
  | refused | redistributed | monitored => exact ⟨⟨unasked, h.series⟩, unfinished⟩
  | unhandled hs => obtain rfl | rfl := hs <;> exact ⟨⟨unasked, h.series⟩, unfinished⟩
  | analyzed =>
    refine ⟨⟨?_, ?_⟩, unfinished⟩
    · change (m.reports ++ [_]).map _ = times ++ [time]
      rw [List.map_append, h.times]
      exact congrArg (times ++ [·]) now
    · change PerformanceReport.Series ((m.reports ++ [_]) ++ m.finalReport?.toList) _
      rw [unfinished]
      have series := (m.analysis v.now v.world).series h.series
      rwa [← List.append_nil (m.reports ++ [_])] at series

end Manager

namespace Simulation

variable {ω W : Type} {id : EntityId} {s t : Simulation (Agent ω) Signal W}

/-- whatever manager is under an id, it has reported on what it was asked, and makes its last report at the end -/
def Reporting (id : EntityId) (s : Simulation (Agent ω) Signal W) : Prop :=
  ∀ slot m, s.entities[id]? = some slot → slot.entity = .manager m →
    m.Reports (s.analyses id) ∧ (s.terminated = false → m.finalReport? = none)

theorem Reporting.fresh (id : EntityId) (limits : Limits) (world : W) :
    Reporting id (Simulation.fresh limits world : Simulation (Agent ω) Signal W) :=
  fun _ _ h => by simp [Simulation.fresh] at h

/-- nothing more is asked of whom hears nothing more -/
theorem analyses_unheard (heard : t.heard id = s.heard id) : t.analyses id = s.analyses id := by
  rw [analyses, heard, ← analyses]

theorem analyses_heard {e : Event Signal} (heard : t.heard id = s.heard id ++ [e]) :
    t.analyses id = s.analyses id ++ e.analysis?.toList := by
  rw [analyses, heard, List.filterMap_append, ← analyses]
  cases he : e.analysis? <;> simp [he]

variable [ExecutionService W] [Guest ω W]

/-- **In every part of a run** the managers keep up their reports. -/
theorem Reporting.pulse (hs : Reporting id s) (answers : Answers id s) (h : Pulse s t)
    (new : ∀ k m, (k, .manager m) ∈ s.handouts → m = .ofSettings m.settings) : Reporting id t := by
  intro slot n place entity
  cases h.manager place entity with
  | kept before entity heard live =>
    obtain ⟨reports, unfinished⟩ := hs _ n before entity
    rw [analyses_unheard heard]
    exact ⟨reports, fun hlive => unfinished (live hlive)⟩
  | placed given vacant heard =>
    have nothing : t.analyses id = [] := by rw [analyses, heard, answers.vacant vacant, List.filterMap_nil]
    rw [nothing, new _ n given]
    exact ⟨.fresh _, fun _ => rfl⟩
  | reacted live before entity reacted now heard =>
    obtain ⟨reports, unfinished⟩ := hs _ _ before entity
    rw [analyses_heard heard]
    obtain ⟨reports, unfinished⟩ := reports.reacted (unfinished live) reacted now
    exact ⟨reports, fun _ => unfinished⟩
  | @closed _ m world before entity after heard ended =>
    obtain ⟨reports, -⟩ := hs _ m before entity
    obtain ⟨report, records, analysis, hdown, -⟩ := m.shutdown_eq s.now world
    rw [analyses_unheard heard, after, hdown]
    exact ⟨⟨reports.times, analysis.series reports.series⟩, fun live => Bool.noConfusion (ended.symm.trans live)⟩

theorem Reporting.pulses (hs : Reporting id s) (answers : Answers id s) (h : Pulses s t)
    (new : ∀ k m, (k, .manager m) ∈ t.handouts → m = .ofSettings m.settings) : Reporting id t := by
  induction h with
  | refl => exact hs
  | tail before last ih =>
    have new := fun k m hmem => new k m (last.handouts hmem)
    exact (ih new).pulse (answers.pulses before new) last new

variable {allowed : Call (Agent ω) Signal → Answer → Prop} {drift : W → W → Prop}

/-- **Reports tell what is answered, and nothing else changes.** Whatever the calls of a run and their answers, whatever
    the service answers, and whoever else takes part: an analysis, when it is asked for as well as at the end, comes to
    one entry for each record that tells what was answered about it, and to figures for all of them that are those of
    the entries; each record has its figure from then on. All else of the manager stays as it is, its earlier reports
    included, and so does all else of the simulation but the log and what the service makes of the questions
    (`Analyzes`). A manager has made one report for each time it was asked for one, in this order, and none at the end
    before the end; each report is about the records that there were, and each record has the figure that the last
    report gives it (`Reports`). -/
theorem reports_tell {limits : Limits} {world : W} {slot : Slot (Agent ω)} {m : Manager}
    (before : Sequel allowed drift (Simulation.fresh limits world) s)
    (new : ∀ k m, (k, .manager m) ∈ s.handouts → m = .ofSettings m.settings)
    (place : s.entities[id]? = some slot) (entity : slot.entity = .manager m) :
    (∀ u : Simulation (Agent ω) Signal W, m.Analyzes slot u) ∧ m.Reports (s.analyses id) ∧
      (s.terminated = false → m.finalReport? = none) := by
  have pulses := (before.pulses (kempt_fresh limits world)).1
  have reporting := (Reporting.fresh id limits world).pulses (.fresh id limits world) pulses new
  exact ⟨fun _ => Manager.analyzes entity, reporting slot m place entity⟩

open Standin

theorem reports_tell_of_studio :
    ∃ (slot : Slot (Agent Saboteur)) (m : Manager), (opened.after 9 .run).entities[0]? = some slot ∧
      slot.entity = .manager m ∧ (opened.after 9 .run).analyses 0 = [3] ∧
      m.reports.map (fun p => p.subordinates.map fun x => (x.successful, x.failed)) = [[(3, 0), (0, 0)]] ∧
      (∀ u : Simulation (Agent Saboteur) Signal Collaborator, m.Analyzes slot u) ∧ m.Reports [3] := by
  have before : Sequel Smooth (fun _ _ => False) studio (opened.after 9 .run) :=
    (((Relation.ReflTransGen.single (.after (by decide +kernel))).tail (.after (by decide +kernel))).tail
      (.after (by decide +kernel)))
  obtain ⟨slot, m, place, entity, -⟩ : ∃ (slot : Slot (Agent Saboteur)) (m : Manager),
      (opened.after 9 .run).entities[0]? = some slot ∧ slot.entity = .manager m ∧ m.settings = busySettings :=
    exists_manager (by decide +kernel)
  have asked : (opened.after 9 .run).analyses 0 = [3] := by decide +kernel
  have counts : ((opened.after 9 .run).entities[0]?.bind fun slot => slot.entity.manager?).map (fun m =>
      m.reports.map fun p => p.subordinates.map fun x => (x.successful, x.failed)) = some [[(3, 0), (0, 0)]] := by
    decide +kernel
  rw [place, Option.bind_some, entity] at counts
  obtain ⟨analyzes, reports, -⟩ := reports_tell before (new_of_sole busySettings (by decide +kernel)) place entity
  rw [asked] at reports
  exact ⟨slot, m, place, entity, asked, Option.some.inj counts, analyzes, reports⟩

end Simulation

end BrokerSim
