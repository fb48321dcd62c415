/-
Settings survive their JSON text. An encoder and a decoder agree on a value if the decoder gets it back
(`Recovers`); so they do on words, texts, strategies and the floats that read back, hence on options, lists and records
of them, and on scheduled actions, whose members depend on the action.
- `fields?_record`: a record is taken apart into the values that it was made of.
- `recovers_scheduledAction`, `recovers_limits`, `recovers_manager`, `recovers_executor`, `recovers_run`: agreement, record
  by record.
- `legible_run`: settings are written legibly. Hence they are read back from their text, compact or one item a line.
-/
import Mathlib.Tactic
import BrokerSim.Proofs.JsonText
import BrokerSim.Settings.Printer
import BrokerSim.Settings.Reader

namespace BrokerSim

open Json

namespace Settings

/-- the decoder gets the value back from what the encoder makes of it -/
def Recovers {α : Type} (d : Decoder α) (encode : α → Json) (a : α) : Prop := d (encode a) = some a

variable {α : Type} {d : Decoder α} {encode : α → Json}

/-! ## Values -/

theorem recovers_text (s : String) : Recovers text .text s := rfl

theorem recovers_word (w : UInt64) : Recovers word BrokerSim.word w := by
  have hw : w.toNat ≤ wordMax := Nat.le_pred_of_lt w.toNat_lt
  rw [Recovers, BrokerSim.word, nat, word, quantity_ofNat hw]
  exact congrArg some (UInt64.ofNat_toNat (x := w))

theorem recovers_strategy (s : Strategy) : Recovers strategy (fun s => .text s.name) s := by
  cases s <;> rfl

/-- `null` stands for nothing, if it stands for no value -/
theorem recovers_optional (hd : d .null = none) {a? : Option α} (h : ∀ a, a? = some a → Recovers d encode a) :
    Recovers (optional d) (Json.optional encode) a? := by
  cases a? with
  | none => rfl
  | some a =>
    have ha : d (encode a) = some a := h a rfl
    change optional d (encode a) = _
    unfold optional
    split
    · next hnull =>
      rw [hnull, hd] at ha
      cases ha
    · rw [ha]
      rfl

theorem recovers_row {items : List α} (h : ∀ a ∈ items, Recovers d encode a) : Recovers (row d) (Json.list encode) items := by
  change (items.map encode).mapM d = some items
  induction items with
  | nil => rfl
  | cons a items ih =>
    rw [List.map_cons, List.mapM_cons, h a List.mem_cons_self, ih fun b hb => h b (List.mem_cons_of_mem a hb)]
    rfl

/-! ## Records -/

theorem valuesOf_keyed (key : String) (members : List (String × Json)) :
    valuesOf key (keyed members) = (members.filter fun m => m.1 == key).map Prod.snd := by
  rw [valuesOf, keyed, List.filter_map, List.map_map]
  rfl

theorem filter_key {members : List (String × Json)} (hn : (members.map Prod.fst).Nodup) {key : String} {v : Json}
    (hm : (key, v) ∈ members) : members.filter (fun m => m.1 == key) = [(key, v)] := by
  induction members with
  | nil => cases hm
  | cons m members ih =>
    obtain ⟨hfresh, hrest⟩ := List.nodup_cons.1 hn
    rcases List.mem_cons.1 hm with rfl | hm
    · have hnone : members.filter (fun m => m.1 == key) = [] :=
        List.filter_eq_nil_iff.2 fun x hx heq => hfresh (List.mem_map.2 ⟨x, hx, beq_iff_eq.1 heq⟩)
      rw [List.filter_cons, if_pos (beq_self_eq_true key), hnone]
    · have hne : ¬ (m.1 == key) = true := fun heq => hfresh (List.mem_map.2 ⟨_, hm, (beq_iff_eq.1 heq).symm⟩)
      rw [List.filter_cons, if_neg hne, ih hrest hm]

/-- a key that is not repeated has its own value -/
theorem single?_keyed {members : List (String × Json)} (hn : (members.map Prod.fst).Nodup) {key : String} {v : Json}
    (hm : (key, v) ∈ members) : single? key (keyed members) = some (some v) := by
  rw [single?, valuesOf_keyed, filter_key hn hm]
  rfl

/-- **A record is taken apart into its values.** -/
theorem fields?_record {names : List String} {members : List (String × Json)} (hnames : members.map Prod.fst = names)
    (hn : names.Nodup) : fields? names (.record members) = some (members.map fun m => some m.2) := by
  have hreadable : areReadable (keyed members) = true := by simp [areReadable, keyed]
  have hall : ∀ l : List (String × Json), (∀ m ∈ l, m ∈ members) →
      (l.map Prod.fst).mapM (fun name => single? name (keyed members)) = some (l.map fun m => some m.2) := by
    intro l hl
    induction l with
    | nil => rfl
    | cons m l ih =>
      have hfirst := single?_keyed (hnames.symm ▸ hn) (hl m List.mem_cons_self)
      rw [List.map_cons, List.mapM_cons, hfirst, ih fun x hx => hl x (List.mem_cons_of_mem m hx)]
      rfl
  rw [record_eq, fields?, if_pos hreadable, ← hnames]
  exact hall members fun _ h => h

/-! ## Settings, record by record -/

theorem recovers_limits {l : Limits} (h : ∀ x, l.until? = some x → Recovers float Json.float x) :
    Recovers limits (Limits.toJson Json.float) l := by
  have hfields : fields? ["until", "max_events"] (l.toJson Json.float) =
      some [some (.optional Json.float l.until?), some (.optional BrokerSim.word l.maxEvents?)] :=
    fields?_record rfl (by decide)
  have hhorizon : optional float (.optional Json.float l.until?) = some l.until? := recovers_optional rfl h
  have hevents : optional word (.optional BrokerSim.word l.maxEvents?) = some l.maxEvents? :=
    recovers_optional rfl fun w _ => recovers_word w
  rw [Recovers, limits, hfields]
  simp only [Option.bind_eq_bind, Option.bind_some, field, hhorizon, hevents]
  rfl

theorem recovers_executor {s : ExecutorSettings} (hf : Recovers float Json.float s.failureRate)
    (hj : Recovers float Json.float s.jitter) : Recovers executor (ExecutorSettings.toJson Json.float) s := by
  have hfields : fields? ["seed", "failure_rate", "jitter", "datacenter_count"] (s.toJson Json.float) =
      some [some (BrokerSim.word s.seed), some (Json.float s.failureRate), some (Json.float s.jitter),
        some (BrokerSim.word s.datacenterCount)] :=
    fields?_record rfl (by decide)
  have hword : ∀ w, word (BrokerSim.word w) = some w := recovers_word
  rw [Recovers, executor, hfields]
  simp only [Option.bind_eq_bind, Option.bind_some, field, hword, show float _ = _ from hf, show float _ = _ from hj]
  rfl

/-! ## Scheduled actions -/

/-- the keys of an action stand for it alone, and its time is none of them -/
theorem keys_action (a : ManagerAction) : (a.members.map Prod.fst).Nodup ∧ "at" ∉ a.members.map Prod.fst := by
  cases a with
  | createSubordinate label =>
    change (["action", "workload"] : List String).Nodup ∧ "at" ∉ ["action", "workload"]
    decide
  | _ => decide

/-- an action can be kept as it stands -/
theorem areMembersKept_action (a : ManagerAction) : areMembersKept actionRoom (keyed a.members) = true := by
  cases a with
  | createSubordinate workload => cases workload <;> rfl
  | _ => rfl

/-- **An action is recovered from its members,** and its workload with it, if it has one. -/
theorem action_members (a : ManagerAction) : action (keyed a.members) = some a := by
  have hn := (keys_action a).1
  cases a with
  | createSubordinate label =>
    have hkind : single? "action" (keyed (ManagerAction.createSubordinate label).members) =
        some (some (.text "create_subordinate")) := single?_keyed hn (.head _)
    have hlabel : single? "workload" (keyed (ManagerAction.createSubordinate label).members) =
        some (some (.optional .text label)) := single?_keyed hn (.tail _ (.head _))
    have hindex : actionIndex (.text "create_subordinate") = some 0 := rfl
    have hworkload : workload (keyed (ManagerAction.createSubordinate label).members) = some label := by
      rw [workload, hlabel]
      exact recovers_optional rfl fun s _ => recovers_text s
    rw [action, hkind]
    simp only [Option.bind_eq_bind, Option.bind_some, hindex, hworkload]
    rfl
  | monitorResources => rfl
  | redistributeWorkload => rfl
  | analyzePerformance => rfl

theorem recovers_scheduledAction {s : ScheduledAction} (h : Recovers float Json.float s.delay) :
    Recovers scheduledAction (ScheduledAction.toJson Json.float) s := by
  obtain ⟨hn, hat⟩ := keys_action s.action
  have hkeys : ((("at", Json.float s.delay) :: s.action.members).map Prod.fst).Nodup := List.nodup_cons.2 ⟨hat, hn⟩
  have hdelay := single?_keyed hkeys (.head _)
  have hothers : (keyed (("at", Json.float s.delay) :: s.action.members)).filter (fun m => m.1 != some "at") =
      keyed s.action.members := by
    refine (List.filter_cons_of_neg (by simp)).trans (List.filter_eq_self.2 fun m hm => ?_)
    obtain ⟨x, hx, rfl⟩ := List.mem_map.1 hm
    exact bne_iff_ne.2 fun heq => hat (List.mem_map.2 ⟨x, hx, Option.some.inj heq⟩)
  rw [Recovers, ScheduledAction.toJson, record_eq, scheduledAction, hdelay]
  simp only [Option.bind_eq_bind, Option.bind_some, show float _ = _ from h, hothers, areMembersKept_action,
    action_members, if_true]
  rfl

/-! ## All settings -/

theorem recovers_manager {s : ManagerSettings} (hc : Recovers float Json.float s.collectionInterval)
    (hr : Recovers float Json.float s.resultsTimeout)
    (hs : ∀ a ∈ s.schedule, Recovers float Json.float a.delay) : Recovers manager (ManagerSettings.toJson Json.float) s := by
  have hfields : fields? ["name", "max_subordinates", "initial_strategy", "collection_interval", "results_timeout",
      "schedule"] (s.toJson Json.float) =
      some [some (.text s.name), some (BrokerSim.word s.maxSubordinates), some (.text s.initialStrategy.name),
        some (Json.float s.collectionInterval), some (Json.float s.resultsTimeout),
        some (.list (ScheduledAction.toJson Json.float) s.schedule)] :=
    fields?_record rfl (by decide)
  have hname : text (.text s.name) = some s.name := recovers_text s.name
  have hword : word (BrokerSim.word s.maxSubordinates) = some s.maxSubordinates := recovers_word s.maxSubordinates
  have hstrategy : strategy (.text s.initialStrategy.name) = some s.initialStrategy := recovers_strategy s.initialStrategy
  have hschedule : row scheduledAction (.list (ScheduledAction.toJson Json.float) s.schedule) = some s.schedule :=
    recovers_row fun a ha => recovers_scheduledAction (hs a ha)
  rw [Recovers, manager, hfields]
  simp only [Option.bind_eq_bind, Option.bind_some, field, hname, hword, hstrategy, show float _ = _ from hc,
    show float _ = _ from hr, hschedule]
  rfl

/-- every float in some settings -/
def floats (s : RunSettings) : List Float :=
  s.limits.until?.toList ++ s.manager.collectionInterval :: s.manager.resultsTimeout ::
    s.manager.schedule.map ScheduledAction.delay ++ [s.executor.failureRate, s.executor.jitter]

theorem recovers_run {s : RunSettings} (h : ∀ x ∈ floats s, Recovers float Json.float x) :
    Recovers run (RunSettings.toJson Json.float) s := by
  have hfields : fields? ["simulation", "manager", "executor"] (s.toJson Json.float) =
      some [some (s.limits.toJson Json.float), some (s.manager.toJson Json.float), some (s.executor.toJson Json.float)] :=
    fields?_record rfl (by decide)
  have hlimits : limits (s.limits.toJson Json.float) = some s.limits :=
    recovers_limits fun x hx => h x (by simp [floats, hx])
  have hmanager : manager (s.manager.toJson Json.float) = some s.manager :=
    recovers_manager (h _ (by simp [floats])) (h _ (by simp [floats])) fun a ha => h _ (by
      simp only [floats, List.mem_append, List.mem_cons, List.mem_map]
      exact .inl (.inr (.inr (.inr ⟨a, ha, rfl⟩))))
  have hexecutor : executor (s.executor.toJson Json.float) = some s.executor :=
    recovers_executor (h _ (by simp [floats])) (h _ (by simp [floats]))
  rw [Recovers, run, hfields]
  simp only [Option.bind_eq_bind, Option.bind_some, field, hlimits, hmanager, hexecutor]
  rfl

/-! ## Settings as texts -/

theorem legible_word (w : UInt64) : Legible (BrokerSim.word w) := legible_nat w.toNat

theorem legible_limits (l : Limits) : Legible (l.toJson Json.float) := by
  refine .record fun m hm => ?_
  fin_cases hm
  · exact legible_optional legible_float l.until?
  · exact legible_optional legible_word l.maxEvents?

theorem legible_scheduledAction (s : ScheduledAction) : Legible (s.toJson Json.float) := by
  refine .record fun m hm => ?_
  rcases List.mem_cons.1 hm with rfl | hm
  · exact legible_float s.delay
  · cases ha : s.action with
    | createSubordinate label =>
      rw [ha] at hm
      fin_cases hm
      · exact .text _
      · exact legible_optional .text label
    | _ =>
      rw [ha] at hm
      fin_cases hm
      exact .text _

theorem legible_manager (s : ManagerSettings) : Legible (s.toJson Json.float) := by
  refine .record fun m hm => ?_
  fin_cases hm
  · exact .text s.name
  · exact legible_word s.maxSubordinates
  · exact .text s.initialStrategy.name
  · exact legible_float s.collectionInterval
  · exact legible_float s.resultsTimeout
  · exact legible_list legible_scheduledAction s.schedule

theorem legible_executor (s : ExecutorSettings) : Legible (s.toJson Json.float) := by
  refine .record fun m hm => ?_
  fin_cases hm
  · exact legible_word s.seed
  · exact legible_float s.failureRate
  · exact legible_float s.jitter
  · exact legible_word s.datacenterCount

theorem legible_run (s : RunSettings) : Legible (s.toJson Json.float) := by
  refine .record fun m hm => ?_
  fin_cases hm
  · exact legible_limits s.limits
  · exact legible_manager s.manager
  · exact legible_executor s.executor

/-- the number that is written for a float is read as the same float; no float that is not finite is written as a
    number -/
def ReadsBack (x : Float) : Prop := (read? (Json.float x).compact).bind float = some x

theorem ReadsBack.recovers {x : Float} (h : ReadsBack x) : Recovers float Json.float x := by
  rw [ReadsBack, read?_compact (legible_float x)] at h
  exact h

/-- **Settings survive their JSON text,** on one line or one item a line, if the floats in them do; and so does each
    scheduled action alone, with its time and its workload. -/
theorem settings_survive_json (s : RunSettings) (h : ∀ x ∈ floats s, ReadsBack x) :
    RunSettings.read? (s.toJson Json.float).compact = some s ∧ RunSettings.read? (s.toJson Json.float).pretty = some s ∧
      ∀ a ∈ s.manager.schedule, (read? (a.toJson Json.float).compact).bind scheduledAction = some a := by
  have hrun := recovers_run fun x hx => (h x hx).recovers
  refine ⟨?_, ?_, ?_⟩
  · rw [RunSettings.read?, read?_compact (legible_run s)]
    exact hrun
  · rw [RunSettings.read?, read?_pretty (legible_run s)]
    exact hrun
  · intro a ha
    have hdelay : a.delay ∈ floats s := by
      simp only [floats, List.mem_append, List.mem_cons, List.mem_map]
      exact .inl (.inr (.inr (.inr ⟨a, ha, rfl⟩)))
    rw [read?_compact (legible_scheduledAction a)]
    exact recovers_scheduledAction (h a.delay hdelay).recovers

/-- settings with a name that has to be escaped and an action without a workload -/
def eveningShow : RunSettings :=
  { limits := { until? := some 0.1, maxEvents? := none }
    manager := { name := "\"Showé\\\n\x01", maxSubordinates := 18446744073709551615
                 initialStrategy := .performanceOptimized, collectionInterval := 2.5
                 schedule := [⟨5, .createSubordinate none⟩, ⟨1e-7, .createSubordinate (some "Late\tWorkload")⟩,
                   ⟨1e22, .analyzePerformance⟩] }
    executor := { jitter := 0.25 } }

theorem settings_survive_json_of_eveningShow :
    (∀ x ∈ floats eveningShow, ReadsBack x) ∧
      RunSettings.read? (eveningShow.toJson Json.float).compact = some eveningShow := by
  have h : ∀ x ∈ floats eveningShow, ReadsBack x := by
    unfold ReadsBack
    decide +kernel
  exact ⟨h, (settings_survive_json eveningShow h).1⟩

end Settings

end BrokerSim
