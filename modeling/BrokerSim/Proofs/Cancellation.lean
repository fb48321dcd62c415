/-
An event that is struck off might as well never have been scheduled. Of two lists of requests to a fresh agenda, the
second is the first without the request that was given a handle and without every request to strike that handle off
(`Agenda.others`); the handles after it move down by one (`closeGap`).
- `Plain.Lacks`: one plain queue is another without the event under a handle, and with the gap among the handles
  closed. Requests about that handle change nothing of the second queue (`Lacks.about`), every other request is
  answered alike (`Lacks.answer`), unless the event itself leaves.
- `Plain.Gone`: an event that has left or was struck off never comes back, so one that is struck off has not left.
- `struck_event_leaves_no_trace`: hence all other answers, the clock and what is pending are the same at every step,
  and after the event was struck off so is everything that is shown.
-/
import BrokerSim.Proofs.Kernel.Order

namespace BrokerSim

variable {μ : Type}

deriving instance DecidableEq for Request

/-! ## Closing the gap among the handles -/

/-- the handle in place of `k` where `h` was never given: those after it move down by one -/
def closeGap (h k : Nat) : Nat := if h < k then k - 1 else k

theorem closeGap_lt_iff {h j k : Nat} (hj : j ≠ h) (hk : k ≠ h) : closeGap h j < closeGap h k ↔ j < k := by
  unfold closeGap
  split_ifs <;> omega

theorem closeGap_inj {h j k : Nat} (hj : j ≠ h) (hk : k ≠ h) : closeGap h j = closeGap h k ↔ j = k := by
  unfold closeGap
  split_ifs <;> omega

theorem closeGap_self (h : Nat) : closeGap h h = h := if_neg (lt_irrefl h)

/-- the next handle after `k` -/
theorem closeGap_succ {h k : Nat} (hk : k ≠ h) : closeGap h (k + 1) = closeGap h k + 1 := by
  unfold closeGap
  split_ifs <;> omega

theorem closeGap_succ_self (h : Nat) : closeGap h (h + 1) = h := by
  unfold closeGap
  split_ifs <;> omega

def Event.closeGap (h : Handle) (e : Event μ) : Event μ := { e with handle := BrokerSim.closeGap h e.handle }

def Request.closeGap (h : Handle) : Request μ → Request μ
  | .cancel k => .cancel (BrokerSim.closeGap h k)
  | r => r

def Response.closeGap (h : Handle) : Response μ → Response μ
  | .scheduled (.ok k) => .scheduled (.ok (BrokerSim.closeGap h k))
  | .left (some e) => .left (some (e.closeGap h))
  | r => r

/-- was the request given the handle, or is it a request to strike that off? -/
def Request.isAbout (h : Handle) : Request μ × Response μ → Bool
  | (.cancel k, _) => k == h
  | (_, .scheduled (.ok k)) => k == h
  | _ => false

namespace Agenda

/-- requests to a fresh agenda, each with its answer -/
def dialogue (requests : List (Request μ)) : List (Request μ × Response μ) :=
  requests.zip ((transcript requests {}).map Prod.fst)

/-- all of it that is not about the handle -/
def others (h : Handle) (requests : List (Request μ)) : List (Request μ × Response μ) :=
  (dialogue requests).filter fun x => !Request.isAbout h x

end Agenda

/-! ## The earliest of some events -/

section Earliest

variable {l : List (Event μ)} {e : Event μ}

/-- whoever comes before all others is the earliest -/
theorem earliest?_eq (ht : ∀ e ∈ l, e.time.OnClock) (hn : l.Pairwise (·.handle < ·.handle)) (he : e ∈ l)
    (hle : ∀ f ∈ l, e.key ≤ f.key) : earliest? l = some e := by
  cases hf : earliest? l with
  | none =>
    rw [earliest?_eq_none.1 hf] at he
    cases he
  | some f =>
    have hfl := mem_of_earliest? hf
    have hkey : f.key = e.key := le_antisymm (key_le_of_earliest? ht hf e he) (hle f hfl)
    have hnodup : (l.map (·.handle)).Nodup := List.pairwise_map.2 (hn.imp fun h => h.ne)
    rw [List.inj_on_of_nodup_map hnodup hfl he (congrArg Prod.snd (toLex.injective hkey))]

/-- it is still the earliest among those that are kept, if it is kept -/
theorem earliest?_filter (ht : ∀ e ∈ l, e.time.OnClock) (hn : l.Pairwise (·.handle < ·.handle))
    {keep : Event μ → Bool} (h : earliest? l = some e) (hk : keep e = true) :
    earliest? (l.filter keep) = some e :=
  earliest?_eq (fun f hf => ht f (List.mem_filter.1 hf).1) (hn.filter _)
    (List.mem_filter.2 ⟨mem_of_earliest? h, hk⟩)
    fun f hf => key_le_of_earliest? ht h f (List.mem_filter.1 hf).1

/-- what keeps the order of events keeps the earliest -/
theorem earliest?_map {g : Event μ → Event μ}
    (hg : ∀ e ∈ l, ∀ f ∈ l, (g e).precedes (g f) = e.precedes f) : earliest? (l.map g) = (earliest? l).map g := by
  induction l with
  | nil => rfl
  | cons e rest ih =>
    have hrest := ih fun e he f hf => hg e (List.mem_cons_of_mem _ he) f (List.mem_cons_of_mem _ hf)
    rw [List.map_cons, earliest?, hrest, earliest?]
    cases hf : earliest? rest with
    | none => rfl
    | some f =>
      have horder := hg f (List.mem_cons_of_mem _ (mem_of_earliest? hf)) e List.mem_cons_self
      simp only [Option.map_some, horder]
      split_ifs <;> rfl

theorem Event.closeGap_precedes {h : Handle} {e f : Event μ} (he : e.handle ≠ h) (hf : f.handle ≠ h) :
    (e.closeGap h).precedes (f.closeGap h) = e.precedes f := by
  unfold Event.precedes Event.closeGap
  dsimp only
  rw [decide_eq_decide.2 (closeGap_lt_iff he hf)]

end Earliest

/-! ## A queue that lacks one event -/

namespace Plain

variable {p q : Plain μ} {h : Handle}

/-- the handle was given, and its event has left or was struck off -/
def Gone (h : Handle) (p : Plain μ) : Prop := h < p.issued ∧ p.isPending h = false

instance (h : Handle) (p : Plain μ) : Decidable (p.Gone h) := inferInstanceAs (Decidable (_ ∧ _))

/-- the second queue is the first without the event under `h`, and as if that handle had never been given -/
structure Lacks (h : Handle) (p q : Plain μ) : Prop where
  now : q.now = p.now
  live : q.live = (p.without h).map (Event.closeGap h)
  issued : q.issued = closeGap h p.issued
  /-- the event is not among those that leave, so if it is gone, then it was struck off -/
  cancelled : p.cancelled = q.cancelled + if p.Gone h then 1 else 0

theorem Lacks.fresh (h : Handle) : Lacks h ({} : Plain μ) {} where
  now := rfl
  live := rfl
  issued := (if_neg (Nat.not_lt_zero h)).symm
  cancelled := by simp [Gone]

theorem Sound.lt_of_isPending (hp : p.Sound) (hh : p.isPending h = true) : h < p.issued := by
  obtain ⟨e, he, rfl⟩ := isPending_iff.1 hh
  exact hp.handle e he

theorem isPending_without {k : Handle} (p : Plain μ) (hk : k ≠ h) :
    (p.without h).any (·.handle == k) = p.isPending k := by
  rw [Bool.eq_iff_iff, isPending_iff]
  simp only [List.any_eq_true, mem_without, beq_iff_eq]
  exact ⟨fun ⟨e, he, heq⟩ => ⟨e, he.1, heq⟩, fun ⟨e, he, heq⟩ => ⟨e, ⟨he, heq ▸ hk⟩, heq⟩⟩

/-- every other event is pending in both -/
theorem Lacks.isPending (hl : Lacks h p q) {k : Handle} (hk : k ≠ h) :
    q.isPending (closeGap h k) = p.isPending k := by
  rw [← isPending_without p hk, Plain.isPending, hl.live, List.any_map]
  rw [Bool.eq_iff_iff]
  simp only [List.any_eq_true, Function.comp_apply, Event.closeGap, beq_iff_eq]
  refine exists_congr fun e => and_congr_right fun he => ?_
  exact closeGap_inj (mem_without.1 he).2 hk

/-- an accepted event comes last, under the next handle -/
theorem answer_schedule (delay : Float) (source target : EntityId) (message : μ) (p : Plain μ) :
    p.answer (.schedule delay source target message) =
      if Agenda.accepts delay then
        (.scheduled (.ok p.issued),
          p.extend [{ time := p.now + delay, source, target, handle := p.issued, message }])
      else
        (.scheduled (.error (.invalidSchedule
          s!"delay {Decimal.plain delay} from {source.text} to {target.text} at t={Decimal.places 2 p.now}")), p) := by
  simp only [Plain.answer, Plain.schedule, Time.accepts_eq]
  cases delay.isNaN || delay.isInf || decide (delay < 0) <;> rfl

theorem without_extend (p : Plain μ) (e : Event μ) (h : Handle) :
    (p.extend [e]).without h = p.without h ++ if e.handle = h then [] else [e] := by
  unfold Plain.without extend
  split_ifs with he <;> simp [he]

theorem isPending_extend (p : Plain μ) (e : Event μ) (h : Handle) :
    (p.extend [e]).isPending h = (p.isPending h || e.handle == h) := by
  simp [Plain.isPending, extend]

/-- striking off an event or letting it leave takes nothing else away -/
theorem without_without (p : Plain μ) (h k : Handle) (now : Time) (cancelled : Nat) :
    ({ p with now, live := p.without k, cancelled } : Plain μ).without h = (p.without h).filter (·.handle != k) := by
  simp only [Plain.without, List.filter_filter, Bool.and_comm]

/-! ## Requests about the event, and all others -/

/-- the event that has the gap for its handle is scheduled or struck off, and the second queue never knows -/
theorem Lacks.about (hl : Lacks h p q) (hp : p.Sound) {r : Request μ}
    (hr : Request.isAbout h (r, (p.answer r).1) = true) : Lacks h (p.answer r).2 q := by
  cases r with
  | next =>
    simp only [Plain.answer] at hr
    split at hr <;> cases hr
  | cancel k =>
    obtain rfl : k = h := beq_iff_eq.1 hr
    change Lacks k (p.cancel k).2 q
    unfold Plain.cancel
    split_ifs with hk
    · have hnone : ({ p with live := p.without k, cancelled := p.cancelled + 1 } : Plain μ).isPending k = false := by
        simp [Plain.isPending, Plain.without]
      refine ⟨hl.now, ?_, hl.issued, ?_⟩
      · refine hl.live.trans (congrArg _ ?_)
        exact ((without_without p k k p.now _).trans (by simp [Plain.without])).symm
      · have hcount := hl.cancelled
        rw [if_neg (by simp [Gone, hk])] at hcount
        rw [if_pos ⟨hp.lt_of_isPending hk, hnone⟩]
        exact congrArg (· + 1) hcount
    · exact hl
  | schedule delay source target message =>
    rw [answer_schedule] at hr ⊢
    split_ifs at hr ⊢
    · obtain rfl : p.issued = h := beq_iff_eq.1 hr
      refine ⟨hl.now, ?_, ?_, ?_⟩
      · rw [hl.live, without_extend, if_pos rfl, List.append_nil]
      · exact hl.issued.trans ((closeGap_self _).trans (closeGap_succ_self _).symm)
      · have hcount := hl.cancelled
        rw [if_neg fun hg => lt_irrefl _ hg.1] at hcount
        rw [if_neg (by simp [Gone, isPending_extend])]
        exact hcount
    · exact hl

theorem Lacks.extend (hl : Lacks h p q) {e : Event μ} (he : e.handle = p.issued) (hne : p.issued ≠ h) :
    Lacks h (p.extend [e]) (q.extend [e.closeGap h]) where
  now := hl.now
  live := by
    rw [without_extend, if_neg (he ▸ hne), List.map_append, ← hl.live]
    rfl
  issued := (congrArg (· + 1) hl.issued).trans (closeGap_succ hne).symm
  cancelled := by
    have hsame : (p.extend [e]).Gone h ↔ p.Gone h := by
      have hlt : h < p.issued + 1 ↔ h < p.issued :=
        Nat.lt_succ_iff_lt_or_eq.trans (or_iff_left fun heq => hne heq.symm)
      rw [Gone, isPending_extend, he, beq_eq_false_iff_ne.2 hne, Bool.or_false]
      exact and_congr_left' hlt
    rw [if_congr hsame rfl rfl]
    exact hl.cancelled

/-- one event is taken away from both, under the handle that it has in each -/
theorem Lacks.without (hl : Lacks h p q) {k : Handle} (hk : k ≠ h) (now : Time) (more : Nat) :
    Lacks h { p with now, live := p.without k, cancelled := p.cancelled + more }
      { q with now, live := q.without (BrokerSim.closeGap h k), cancelled := q.cancelled + more } where
  now := rfl
  live := by
    refine Eq.trans ?_ (congrArg (List.map (Event.closeGap h)) (without_without p h k now _).symm)
    change q.live.filter _ = _
    rw [hl.live, List.filter_map]
    refine congrArg _ (List.filter_congr fun e he => ?_)
    rw [Bool.eq_iff_iff, Function.comp_apply, bne_iff_ne, bne_iff_ne]
    exact not_congr (closeGap_inj (mem_without.1 he).2 hk)
  issued := hl.issued
  cancelled := by
    have hsame : Gone h ({ p with now, live := p.without k, cancelled := p.cancelled + more } : Plain μ) ↔
        p.Gone h := by
      refine and_congr_right fun _ => ?_
      rw [← isPending_without p hk.symm]
      rfl
    rw [if_congr hsame rfl rfl]
    change p.cancelled + more = q.cancelled + more + _
    rw [hl.cancelled]
    omega

theorem Lacks.cancel (hl : Lacks h p q) {k : Handle} (hk : k ≠ h) :
    (q.cancel (BrokerSim.closeGap h k)).1 = (p.cancel k).1 ∧
      Lacks h (p.cancel k).2 (q.cancel (BrokerSim.closeGap h k)).2 := by
  unfold Plain.cancel
  rw [hl.isPending hk]
  split_ifs
  · exact ⟨rfl, hl.now ▸ hl.without hk p.now 1⟩
  · exact ⟨rfl, hl⟩

/-- the earliest event is the same, unless it is the one that the second queue lacks -/
theorem Lacks.earliest (hl : Lacks h p q) (hp : p.Sound) (hne : ∀ e, earliest? p.live = some e → e.handle ≠ h) :
    earliest? q.live = (earliest? p.live).map (Event.closeGap h) := by
  have hsame : earliest? (p.without h) = earliest? p.live := by
    cases he : earliest? p.live with
    | none => rw [Plain.without, earliest?_eq_none.1 he]; rfl
    | some e => exact earliest?_filter hp.time hp.inOrder he (bne_iff_ne.2 (hne e he))
  rw [hl.live, earliest?_map, hsame]
  intro e he f hf
  exact Event.closeGap_precedes (mem_without.1 he).2 (mem_without.1 hf).2

/-- every other request is answered alike, unless the event leaves -/
theorem Lacks.answer (hl : Lacks h p q) (hp : p.Sound) {r : Request μ}
    (hr : Request.isAbout h (r, (p.answer r).1) = false)
    (hne : ∀ e, (p.answer r).1 = .left (some e) → e.handle ≠ h) :
    (q.answer (r.closeGap h)).1 = ((p.answer r).1).closeGap h ∧
      Lacks h (p.answer r).2 (q.answer (r.closeGap h)).2 := by
  cases r with
  | schedule delay source target message =>
    change (q.answer (.schedule delay source target message)).1 = _ ∧ _
    simp only [Request.closeGap, answer_schedule, hl.now] at hr ⊢
    split_ifs at hr ⊢
    · exact ⟨congrArg (fun k => Response.scheduled (.ok k)) hl.issued,
        hl.issued ▸ hl.extend rfl (beq_eq_false_iff_ne.1 hr)⟩
    · exact ⟨rfl, hl⟩
  | next =>
    simp only [Request.closeGap, Plain.answer, Plain.next?] at hne ⊢
    cases he : earliest? p.live with
    | none =>
      rw [hl.earliest hp (by simp [he]), he]
      exact ⟨rfl, hl⟩
    | some e =>
      have hk : e.handle ≠ h := hne e (by rw [he]; rfl)
      rw [hl.earliest hp (by simpa [he] using hk), he]
      exact ⟨rfl, hl.without hk e.time 0⟩
  | cancel k =>
    obtain ⟨hsame, hl⟩ := hl.cancel (beq_eq_false_iff_ne.1 hr)
    exact ⟨congrArg Response.cancelled hsame, hl⟩

/-! ## What is gone stays gone -/

theorem Gone.answer (hg : p.Gone h) (r : Request μ) :
    (p.answer r).2.Gone h ∧ ∀ e, (p.answer r).1 = .left (some e) → e.handle ≠ h := by
  obtain ⟨hlt, hnone⟩ := hg
  have hfewer : ∀ k, (p.without k).any (·.handle == h) = false := by
    intro k
    refine List.any_eq_false.2 fun e he => ?_
    exact List.any_eq_false.1 hnone e (mem_without.1 he).1
  cases r with
  | schedule delay source target message =>
    rw [answer_schedule]
    split_ifs
    · refine ⟨⟨hlt.trans (Nat.lt_succ_self _), ?_⟩, fun e he => by cases he⟩
      rw [isPending_extend, hnone, Bool.false_or]
      exact beq_eq_false_iff_ne.2 hlt.ne'
    · exact ⟨⟨hlt, hnone⟩, fun e he => by cases he⟩
  | next =>
    simp only [Plain.answer, Plain.next?]
    cases he : earliest? p.live with
    | none => exact ⟨⟨hlt, hnone⟩, fun e he => by cases he⟩
    | some e =>
      refine ⟨⟨hlt, hfewer _⟩, ?_⟩
      rintro f ⟨rfl⟩ rfl
      exact Bool.false_ne_true (hnone.symm.trans (isPending_iff.2 ⟨e, mem_of_earliest? he, rfl⟩))
  | cancel k =>
    refine ⟨?_, fun e he => by cases he⟩
    change Gone h (p.cancel k).2
    unfold Plain.cancel
    split_ifs
    · exact ⟨hlt, hfewer k⟩
    · exact ⟨hlt, hnone⟩

/-- an event that leaves is gone -/
theorem Sound.gone_of_left (hp : p.Sound) {r : Request μ} {e : Event μ} (hr : (p.answer r).1 = .left (some e)) :
    (p.answer r).2.Gone e.handle := by
  cases r with
  | schedule delay source target message =>
    rw [answer_schedule] at hr
    split_ifs at hr
  | next =>
    simp only [Plain.answer, Plain.next?] at hr ⊢
    cases he : earliest? p.live with
    | none =>
      rw [he] at hr
      cases hr
    | some f =>
      rw [he] at hr
      cases hr
      exact ⟨hp.handle e (mem_of_earliest? he), by simp [Plain.isPending, Plain.without]⟩
  | cancel k => cases hr

/-- and so is one that is struck off -/
theorem Sound.gone_of_cancel (hp : p.Sound) (hc : (p.cancel h).1 = true) : (p.cancel h).2.Gone h := by
  unfold Plain.cancel at hc ⊢
  split_ifs at hc ⊢ with hk
  exact ⟨hp.lt_of_isPending hk, by simp [Plain.isPending, Plain.without]⟩

theorem after_snoc (requests : List (Request μ)) (r : Request μ) :
    after (requests ++ [r]) = ((after requests).answer r).2 := List.foldl_concat ..

theorem sound_after (requests : List (Request μ)) : (after requests).Sound := sound_fresh.foldl requests

end Plain

/-! ## Any requests -/

namespace Agenda

theorem after_snoc (requests : List (Request μ)) (r : Request μ) :
    after (requests ++ [r]) = ((after requests).answer r).2 := List.foldl_concat ..

theorem refines_after (requests : List (Request μ)) : Refines (after requests) (Plain.after requests) := by
  induction requests using List.reverseRecOn with
  | nil => exact Refines.fresh
  | append_singleton requests r ih =>
    rw [after_snoc, Plain.after_snoc]
    exact (ih.answer (Plain.sound_after requests) r).2

/-- the answers are those of the plain queue -/
theorem answer_after (requests : List (Request μ)) (r : Request μ) :
    ((after requests).answer r).1 = ((Plain.after requests).answer r).1 :=
  ((refines_after requests).answer (Plain.sound_after requests) r).1

theorem transcript_append (requests more : List (Request μ)) (a : Agenda μ) :
    transcript (requests ++ more) a =
      transcript requests a ++ transcript more (requests.foldl (fun a r => (a.answer r).2) a) := by
  induction requests generalizing a with
  | nil => rfl
  | cons r rest ih => exact congrArg _ (ih _)

theorem length_transcript (requests : List (Request μ)) (a : Agenda μ) :
    (transcript requests a).length = requests.length := by
  induction requests generalizing a with
  | nil => rfl
  | cons r rest ih => exact congrArg (· + 1) (ih _)

theorem dialogue_append (requests more : List (Request μ)) : dialogue (requests ++ more) =
    dialogue requests ++ more.zip ((transcript more (after requests)).map Prod.fst) := by
  rw [dialogue, transcript_append, List.map_append, List.zip_append]
  · rfl
  · rw [List.length_map, length_transcript]

theorem dialogue_snoc (requests : List (Request μ)) (r : Request μ) :
    dialogue (requests ++ [r]) = dialogue requests ++ [(r, ((Plain.after requests).answer r).1)] := by
  rw [dialogue_append, ← answer_after]
  rfl

/-- the event under a handle that left is gone -/
theorem gone_of_left {requests : List (Request μ)} {x : Request μ × Response μ} (hx : x ∈ dialogue requests)
    {e : Event μ} (he : x.2 = .left (some e)) : (Plain.after requests).Gone e.handle := by
  induction requests using List.reverseRecOn with
  | nil => cases hx
  | append_singleton requests r ih =>
    rw [Plain.after_snoc]
    rw [dialogue_snoc, List.mem_append, List.mem_singleton] at hx
    rcases hx with hx | rfl
    · exact ((ih hx).answer r).1
    · exact (Plain.sound_after requests).gone_of_left he

/-- an event that was struck off is gone for good, and never left -/
theorem gone_of_struck {before : List (Request μ)} {h : Handle} (hc : ((after before).cancel h).1 = true)
    (late : List (Request μ)) : (Plain.after (before ++ .cancel h :: late)).Gone h ∧
      ∀ x ∈ dialogue (before ++ .cancel h :: late), ∀ e, x.2 = .left (some e) → e.handle ≠ h := by
  have hc : ((Plain.after before).cancel h).1 = true :=
    ((refines_after before).cancel (Plain.sound_after before) h).1 ▸ hc
  induction late using List.reverseRecOn with
  | nil =>
    rw [Plain.after_snoc, dialogue_snoc]
    refine ⟨(Plain.sound_after before).gone_of_cancel hc, ?_⟩
    rintro x hx e he rfl
    rcases List.mem_append.1 hx with hx | hx
    · have hgone : (Plain.after before).isPending e.handle = false := (gone_of_left hx he).2
      rw [Plain.cancel, hgone] at hc
      cases hc
    · rw [List.mem_singleton.1 hx] at he
      cases he
  | append_singleton late r ih =>
    obtain ⟨hgone, hleft⟩ := ih
    obtain ⟨hgone', hleft'⟩ := hgone.answer r
    rw [← List.cons_append, ← List.append_assoc, Plain.after_snoc, dialogue_snoc]
    refine ⟨hgone', ?_⟩
    intro x hx e he
    rcases List.mem_append.1 hx with hx | hx
    · exact hleft x hx e he
    · rw [List.mem_singleton.1 hx] at he
      exact hleft' e he

/-- the second list of requests leaves a queue that lacks the event, as long as that has not left -/
theorem lacks_after {h : Handle} {requests : List (Request μ)}
    (hne : ∀ x ∈ dialogue requests, ∀ e, x.2 = .left (some e) → e.handle ≠ h) :
    dialogue ((others h requests).map fun x => x.1.closeGap h) =
        (others h requests).map (fun x => (x.1.closeGap h, x.2.closeGap h)) ∧
      Plain.Lacks h (Plain.after requests) (Plain.after ((others h requests).map fun x => x.1.closeGap h)) := by
  induction requests using List.reverseRecOn with
  | nil => exact ⟨rfl, Plain.Lacks.fresh h⟩
  | append_singleton requests r ih =>
    rw [dialogue_snoc] at hne
    obtain ⟨hsame, hl⟩ := ih fun x hx => hne x (List.mem_append_left _ hx)
    have hp := Plain.sound_after requests
    rw [others, dialogue_snoc, List.filter_append, ← others, Plain.after_snoc]
    by_cases hr : Request.isAbout h (r, ((Plain.after requests).answer r).1) = true
    · rw [List.filter_cons_of_neg (by simp [hr]), List.filter_nil, List.append_nil]
      exact ⟨hsame, hl.about hp hr⟩
    · have hr := Bool.eq_false_iff.2 hr
      obtain ⟨hanswer, hl⟩ := hl.answer hp hr fun e he => hne _ (List.mem_append_right _ (List.mem_singleton_self _)) e he
      rw [List.filter_cons_of_pos (by simp [hr]), List.filter_nil, List.map_append, List.map_append, List.map_singleton,
        List.map_singleton, dialogue_snoc, Plain.after_snoc, hsame, hanswer]
      exact ⟨rfl, hl⟩

end Agenda

/-- all that is shown, but for one event in the count of those that were struck off -/
theorem Plain.Lacks.display {h : Handle} {p q : Plain μ} (hl : Lacks h p q) (hp : p.Sound) (hg : p.Gone h) :
    q.display.size = p.display.size ∧ q.display.isEmpty = p.display.isEmpty ∧
      q.display.nextTime? = p.display.nextTime? ∧ p.display.isPending h = false ∧
      p.display.cancelled = q.display.cancelled + 1 := by
  have hlive : q.live = p.live.map (Event.closeGap h) := by
    rw [hl.live, Plain.without, List.filter_eq_self.2]
    intro e he
    exact bne_iff_ne.2 fun heq => Bool.false_ne_true (hg.2.symm.trans (isPending_iff.2 ⟨e, he, heq⟩))
  have hearliest := hl.earliest hp fun e he heq =>
    Bool.false_ne_true (hg.2.symm.trans (isPending_iff.2 ⟨e, mem_of_earliest? he, heq⟩))
  refine ⟨?_, ?_, ?_, hg.2, ?_⟩
  · simp [Plain.display, hlive]
  · simp [Plain.display, hlive]
  · simp only [Plain.display, Plain.nextTime?, Plain.next?, hearliest, Option.map_map]
    rfl
  · have hcount := hl.cancelled
    rwa [if_pos hg] at hcount

/-- **An event that is struck off might as well never have been scheduled.** Let a request to strike off the event under
    `h` be granted. The requests that are not about `h`, with the handles after it moved down by one, are answered
    alike by an agenda that never had the event, step for step, and leave the same time on the clock and the same
    handles pending. Once the event was struck off, nothing that is shown tells the two apart, the count of events that
    were struck off apart. -/
theorem struck_event_leaves_no_trace (before after : List (Request μ)) (h : Handle)
    (hc : ((Agenda.after before).cancel h).1 = true) :
    ∀ early, early <+: before ++ .cancel h :: after →
      let others := Agenda.others h early
      let spared := others.map fun x => x.1.closeGap h
      let was := (Agenda.after early).display
      let is := (Agenda.after spared).display
      Agenda.dialogue spared = others.map (fun x => (x.1.closeGap h, x.2.closeGap h)) ∧
      is.now = was.now ∧
      (∀ k, k ≠ h → is.isPending (closeGap h k) = was.isPending k) ∧
      (before ++ [.cancel h] <+: early →
        is.size = was.size ∧ is.isEmpty = was.isEmpty ∧ is.nextTime? = was.nextTime? ∧
        was.isPending h = false ∧ was.cancelled = is.cancelled + 1) := by
  intro early hearly others spared was is
  obtain ⟨more, hmore⟩ := hearly
  have hne : ∀ x ∈ Agenda.dialogue early, ∀ e, x.2 = .left (some e) → e.handle ≠ h := by
    intro x hx
    refine (Agenda.gone_of_struck hc after).2 x ?_
    rw [← hmore, Agenda.dialogue_append]
    exact List.mem_append_left _ hx
  obtain ⟨hsame, hl⟩ := Agenda.lacks_after hne
  have hwas : was = (Plain.after early).display :=
    (Agenda.refines_after early).display (Plain.sound_after early)
  have his : is = (Plain.after spared).display :=
    (Agenda.refines_after spared).display (Plain.sound_after spared)
  rw [hwas, his]
  refine ⟨hsame, hl.now, fun k hk => hl.isPending hk, ?_⟩
  rintro ⟨late, rfl⟩
  refine hl.display (Plain.sound_after _) ?_
  rw [List.append_assoc]
  exact (Agenda.gone_of_struck hc late).1

/-- the second of three events is struck off while it is buried under the others, and those are struck off and leave
    after it as if they had been the only two -/
theorem struck_event_leaves_no_trace_of_three :
    let before : List (Request String) := [.schedule 3 0 0 "late", .schedule 2 0 0 "struck", .schedule 1 0 0 "early"]
    let after : List (Request String) := [.next, .cancel 2, .schedule 2 0 0 "again", .cancel 1, .next, .next]
    ((Agenda.after before).cancel 1).1 = true ∧
    (Agenda.others 1 (before ++ .cancel 1 :: after)).map (fun x => x.1.closeGap 1) =
      [.schedule 3 0 0 "late", .schedule 1 0 0 "early", .next, .cancel 1, .schedule 2 0 0 "again", .next, .next] ∧
    Agenda.dialogue
        ([.schedule 3 0 0 "late", .schedule 1 0 0 "early", .next, .cancel 1, .schedule 2 0 0 "again", .next, .next] :
          List (Request String)) =
      (Agenda.others 1 (before ++ .cancel 1 :: after)).map (fun x => (x.1.closeGap 1, x.2.closeGap 1)) := by
  intro before after
  have hc : ((Agenda.after before).cancel 1).1 = true := by decide +kernel
  have hothers : (Agenda.others 1 (before ++ .cancel 1 :: after)).map (fun x => x.1.closeGap 1) =
      [.schedule 3 0 0 "late", .schedule 1 0 0 "early", .next, .cancel 1, .schedule 2 0 0 "again", .next, .next] := by
    decide +kernel
  have htrace := struck_event_leaves_no_trace before after 1 hc _ (List.prefix_refl _)
  exact ⟨hc, hothers, hothers ▸ htrace.1⟩

end BrokerSim
