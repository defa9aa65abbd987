/-
The acknowledgement protocol. A worker attempts the observed ack of an event before it adds it; a render task attempts
the submitted acks of its toast's sources after the toast is shown. The attempts may end in any way, and so may `show`.

- `milestone_run`: the events that have reached a milestone of the worker's part are those that are still held beyond
  it and those let go by the aggregator; each event reaches each of them at most once;
- `submitted_preceded`: no submitted attempt before the observed attempt of the same event has ended;
- `relabelled_run`: how the attempts end changes nothing but the record of how they ended;
- `acknowledgements`: the protocol.
-/
import Mathlib.Tactic
import NotifyAgent.Core.AckingSink

namespace NotifyAgent.Acks

open NotifyAgent.Text NotifyAgent.Notification NotifyAgent.Parser NotifyAgent.Aggregator NotifyAgent.Pipeline
open NotifyAgent.AckingSink
open NotifyAgent.Lib.Ledger
open NotifyAgent.Lib.Machine (run run_inv_of run_map Preceded preceded_append)

variable {C : Config} {S : RenderSink} {s s' : St S} {o : Op S}

/-! ## Milestones of the worker's part -/

inductive Milestone where
  /-- parsed, and new to the cache -/
  | passed
  /-- the observed attempt is made -/
  | observed
  /-- the observed attempt has ended -/
  | ended
deriving DecidableEq, Repr

/-- the event a worker carries beyond the milestone -/
def beyond : Milestone → Worker → List Note
  | .passed, .deduped n => [n]
  | .passed, .acking n | .observed, .acking n => [n]
  | _, .acked n => [n]
  | _, _ => []

/-- the ticket that the log entry takes to the milestone -/
def reaches : Milestone → Event S → Multiset ℕ
  | .passed, .passed t => {t}
  | .observed, .observed t _ => {t}
  | .ended, .observedEnd t _ => {t}
  | _, _ => 0

/-- the ticket of an event that the aggregator lets go -/
def letGo : Event S → Multiset ℕ
  | .overflow t => {t}
  | .discarded m _ => {m.ticket}
  | _ => 0

/-- the events that have reached the milestone are held beyond it, or the aggregator has let them go -/
def MilestoneLaw (k : Milestone) (s : St S) : Prop :=
  tally (reaches k) s.log = heldBy (beyond k) ticketOf s + tally letGo s.log

theorem milestone_went {k : Milestone} {w : ℕ} {p phase : Worker} {events : List (Event S)}
    (hw : s.workers[w]? = some p) (hs : MilestoneLaw k s) (hevents : tally letGo events = 0)
    (h : tally ticketOf (beyond k p) + tally (reaches k) events = tally ticketOf (beyond k phase)) :
    MilestoneLaw k (went s w phase events) := by
  have hheld := heldBy_went (beyond k) ticketOf hw phase events
  refine add_right_cancel (b := tally ticketOf (beyond k p)) ?_
  calc tally (reaches k) (s.log ++ events) + tally ticketOf (beyond k p)
      = tally (reaches k) s.log + (tally ticketOf (beyond k p) + tally (reaches k) events) := by
        rw [tally_append]
        abel
    _ = heldBy (beyond k) ticketOf s + tally ticketOf (beyond k phase) + tally letGo s.log := by
        rw [h, hs]
        abel
    _ = heldBy (beyond k) ticketOf (went s w phase events) + tally letGo (s.log ++ events) +
          tally ticketOf (beyond k p) := by
        rw [← hheld, tally_append, hevents]
        abel

theorem addEvents_milestone (k : Milestone) (n : Note) (a : Added Note) :
    tally (reaches (S := S) k) (addEvents S n a) = 0 ∧
      tally (letGo (S := S)) (addEvents S n a) = tally ticketOf (a.lost n) := by
  cases a with
  | joined gone =>
    induction gone with
    | nil => exact ⟨rfl, rfl⟩
    | cons m gone ih =>
      refine ⟨?_, ?_⟩
      · simpa [addEvents, reaches] using ih.1
      · simpa [addEvents, Added.lost, letGo, ticketOf] using ih.2
  | rendered | dropped | opened => simp [addEvents, Added.lost, letGo, ticketOf, reaches]

theorem milestone_trans (k : Milestone) (h : Trans C s o s') (hs : MilestoneLaw k s) : MilestoneLaw k s' := by
  have hother : ∀ e : Event S, reaches k e = 0 → letGo e = 0 →
      tally (reaches k) (s.log ++ [e]) = heldBy (beyond k) ticketOf s + tally letGo (s.log ++ [e]) := by
    intro e h1 h2
    rw [tally_append, tally_append, tally_cons, tally_cons, h1, h2]
    simp only [tally_nil, add_zero]
    exact hs
  cases h with
  | received w e rest hw hq =>
    have h : MilestoneLaw k (went s w (.received e) []) := milestone_went hw hs rfl (by cases k <;> rfl)
    exact h
  | exited w hw => exact milestone_went hw hs rfl (by cases k <;> rfl)
  | rejected w now e error hw => exact milestone_went hw hs rfl (by cases k <;> rfl)
  | passed w now e n dedup hw => exact milestone_went hw hs rfl (by cases k <;> rfl)
  | suppressed w now e n dedup hw => exact milestone_went hw hs rfl (by cases k <;> rfl)
  | observed w n hw => exact milestone_went hw hs rfl (by cases k <;> rfl)
  | ackEnded w n outcome hw => exact milestone_went hw hs rfl (by cases k <;> rfl)
  | added w n hw =>
    have hheld := heldBy_added (C := C) (beyond k) ticketOf hw (by cases k <;> rfl) (by cases k <;> rfl)
    obtain ⟨hreach, hgo⟩ := addEvents_milestone (S := S) k n (add C.aggregator C.libs.segmentation s.aggregator n).2
    calc tally (reaches k) (s.log ++ addEvents S n (add C.aggregator C.libs.segmentation s.aggregator n).2)
        = heldBy (beyond k) ticketOf s + tally letGo s.log := by rw [tally_append, hreach, add_zero, hs]
      _ = heldBy (beyond k) ticketOf (added C s w n) +
            tally letGo (s.log ++ addEvents S n (add C.aggregator C.libs.segmentation s.aggregator n).2) := by
          rw [← hheld, tally_append, hgo]
          abel
  | fired key => exact hs.trans (congrArg (· + _) (heldBy_flushed _ ticketOf key).symm)
  | flushedNext key keys => exact hs.trans (congrArg (· + _) (heldBy_flushed _ ticketOf key).symm)
  | refused e => exact hother (.refused e) (by cases k <;> rfl) rfl
  | renderStarted i r hr =>
    exact (hother (.rendered i r.toast) (by cases k <;> rfl) rfl).trans
      (congrArg (· + _) (heldBy_render _ ticketOf hr _ _ _).symm)
  | sinkStepped i r t t' label out hr =>
    exact (hother (.out i out) (by cases k <;> rfl) rfl).trans
      (congrArg (· + _) (heldBy_render _ ticketOf hr _ _ _).symm)
  | enqueued | closed | shutdown | closing | drained => exact hs

theorem milestone_run (C : Config) (S : RenderSink) (k : Milestone) (ops : List (Op S)) :
    MilestoneLaw k (after C S ops) := by
  refine run_inv_trans (fun _ _ _ => milestone_trans k) ?_ ops
  have hworkers : tally (fun p => tally ticketOf (beyond k p)) (List.replicate C.pipeline.workers .idle) = 0 :=
    tally_eq_zero fun p hp => by rw [List.eq_of_mem_replicate hp]; cases k <;> rfl
  simp [MilestoneLaw, heldBy, init, Inner.new, hworkers]

/-- the tickets that have reached the milestone, in the log -/
def reached (k : Milestone) (s : St S) : Multiset ℕ := tally (reaches k) s.log

theorem beyond_le (k : Milestone) (p : Worker) : tally ticketOf (beyond k p) ≤ tally ticketOf p.notes := by
  cases k <;> cases p <;> first | exact le_rfl | exact Multiset.zero_le _

theorem heldBy_le (k : Milestone) (s : St S) : heldBy (beyond k) ticketOf s ≤ held ticketOf s := by
  simp only [held, heldBy]
  gcongr
  exact tally_le_tally fun p _ => beyond_le k p

/-- **Each event reaches a milestone once.** -/
theorem reached_nodup (C : Config) (S : RenderSink) (k : Milestone) (ops : List (Op S)) :
    (reached k (after C S ops)).Nodup := by
  have hplaces := places_run C S ops
  refine Multiset.nodup_of_le ?_ (Multiset.nodup_range (after C S ops).accepted.length)
  have hgo : tally letGo (after C S ops).log ≤ tally Event.settled (after C S ops).log :=
    tally_le_tally fun e _ => by cases e <;> first | exact le_rfl | exact Multiset.zero_le _
  rw [reached, milestone_run C S k ops, ← hplaces, places]
  calc heldBy (beyond k) ticketOf (after C S ops) + tally letGo (after C S ops).log
      ≤ held ticketOf (after C S ops) + tally Event.settled (after C S ops).log := add_le_add (heldBy_le k _) hgo
    _ ≤ _ := by
        rw [add_assoc _ (held ticketOf _)]
        exact le_add_self

/-- the tickets of the events that are between `try_add` and the observed attempt -/
def unobserved (s : St S) : Multiset ℕ :=
  tally (fun p => match p with | .deduped n => {n.ticket} | _ => 0) s.workers

/-- **The observed attempts.** Made for the events that passed, those between the two steps apart, and for no other. -/
theorem observed_passed (C : Config) (S : RenderSink) (ops : List (Op S)) :
    reached .observed (after C S ops) + unobserved (after C S ops) = reached .passed (after C S ops) := by
  have hsplit : tally (fun p => tally ticketOf (beyond .passed p)) (after C S ops).workers =
      tally (fun p => tally ticketOf (beyond .observed p)) (after C S ops).workers + unobserved (after C S ops) := by
    rw [unobserved, ← tally_add]
    congr 1
    funext p
    cases p <;> simp [beyond, ticketOf]
  rw [reached, reached, milestone_run C S .observed ops, milestone_run C S .passed ops, heldBy, heldBy, hsplit]
  abel

/-- an observed ack carries the data of its event -/
theorem observed_data (C : Config) (S : RenderSink) (ops : List (Op S)) {t : ℕ} {ack : AckPayload}
    (h : .observed t ack ∈ (after C S ops).log) :
    ∃ n e, (after C S ops).accepted[t]? = some e ∧ parseEvent C.libs e.payload e.receivedAt e.seq = .ok n ∧
      ack = {
        eventId := n.eventId
        deviceId := C.deviceId
        agentReceivedAt := e.receivedAt
        toastSubmittedAt := none
        status := "observed_by_agent".toList } := by
  obtain ⟨n, ⟨e, he, hparse⟩, rfl⟩ := (sourced_run C S ops).logged _ h
  have hreceived : n.receivedAt = e.receivedAt := (parseEvent_ok C.libs hparse).2.2.2.2.2.1
  refine ⟨n, e, he, hparse, ?_⟩
  rw [← hreceived]
  rfl

/-! ## Submitted attempts -/

/-- the tickets of the submitted attempts -/
def submitted {deviceId : Str} (s : St (ackingRenderSink deviceId)) : Multiset ℕ :=
  tally (Event.outs AckOut.submittedOf) s.log

section
variable (C : Config) (deviceId : Str) (ops : List (Op (ackingRenderSink deviceId)))

theorem submitted_eq : submitted (after C (ackingRenderSink deviceId) ops) =
    tally (fun r => tally AckOut.submittedOf r.outs) (after C (ackingRenderSink deviceId) ops).renders :=
  outsCounted_run (S := ackingRenderSink deviceId) C AckOut.submittedOf ops

/-- no event is in two toasts, or in one of them twice -/
theorem sources_nodup (S : RenderSink) (ops : List (Op S)) :
    (tally (fun r => tally ticketOf r.toast.sources) (after C S ops).renders).Nodup := by
  refine Multiset.nodup_of_le ?_ (Multiset.nodup_range (after C S ops).accepted.length)
  rw [← places_run C S ops, places, held, heldBy, add_right_comm, ← add_assoc]
  exact Multiset.le_add_left _ _

/-- **At most one submitted attempt for an event.** -/
theorem submitted_nodup : (submitted (after C (ackingRenderSink deviceId) ops)).Nodup := by
  refine Multiset.nodup_of_le ?_ (sources_nodup C _ ops)
  rw [submitted_eq]
  exact tally_le_tally fun r hr => submittedOf_le deviceId (trace_run deviceId C ops r hr)

end

/-! ## The order of the attempts -/

/-- a submitted attempt comes after the end of the observed attempt of the same event -/
def AfterObserved {deviceId : Str} (pre : List (Event (ackingRenderSink deviceId)))
    (e : Event (ackingRenderSink deviceId)) : Prop :=
  ∀ t ∈ Event.outs AckOut.submittedOf e, ∃ outcome, .observedEnd t outcome ∈ pre

theorem ended_of_source {k : Milestone} {r : Render S} {t : ℕ} (hs : MilestoneLaw k s) (hr : r ∈ s.renders)
    (ht : t ∈ tally ticketOf r.toast.sources) : t ∈ reached k s := by
  rw [reached, hs, heldBy]
  exact Multiset.mem_add.2 (Or.inl (Multiset.mem_add.2 (Or.inr (mem_tally.2 ⟨r, hr, ht⟩))))

theorem mem_reached_ended {t : ℕ} (h : t ∈ reached .ended s) : ∃ outcome, .observedEnd t outcome ∈ s.log := by
  obtain ⟨e, he, ht⟩ := mem_tally.1 h
  cases e with
  | observedEnd t' outcome =>
    cases Multiset.mem_singleton.1 ht
    exact ⟨outcome, he⟩
  | _ => cases ht

section
variable {deviceId : Str}

theorem preceded_trans {s s' : St (ackingRenderSink deviceId)} {o : Op (ackingRenderSink deviceId)}
    (h : Trans C s o s') (hlaw : MilestoneLaw .ended s) (htrace : ∀ r ∈ s.renders, Trace deviceId r.toast r.task r.outs)
    (hs : Preceded AfterObserved s.log) : Preceded AfterObserved s'.log := by
  have hone : ∀ {e}, AfterObserved s.log e → Preceded AfterObserved (s.log ++ [e]) := by
    intro e he
    refine preceded_append hs fun pre e' post heq => ?_
    cases pre with
    | nil =>
      cases heq
      simpa using he
    | cons a pre => simp at heq
  rcases renders_trans h with ⟨spawned, events, _, _, hl, hevents⟩ | ⟨i, r, _, _, rfl⟩ |
    ⟨i, r, t, t', label, out, hr, ht, hstep, rfl⟩
  · rw [hl]
    refine preceded_append hs fun pre e post heq t ht => ?_
    have hnone := Event.outs_eq_zero (S := ackingRenderSink deviceId) AckOut.submittedOf (hevents e (by simp [heq]))
    rw [hnone] at ht
    cases ht
  · exact hone fun t ht => by cases ht
  · refine hone fun u hu => ?_
    -- the event is a source of the task's toast, so its observed attempt has ended
    have hrm := List.mem_of_getElem? hr
    have hle := submittedOf_le deviceId (trace_step deviceId hstep (ht ▸ htrace r hrm))
    have hu' : u ∈ tally ticketOf r.toast.sources :=
      Multiset.mem_of_le hle (mem_tally.2 ⟨out, List.mem_append_right _ (List.mem_singleton_self out), hu⟩)
    exact mem_reached_ended (ended_of_source hlaw hrm hu')

theorem submitted_preceded (C : Config) (ops : List (Op (ackingRenderSink deviceId))) :
    Preceded AfterObserved (after C (ackingRenderSink deviceId) ops).log := by
  have h : MilestoneLaw .ended (after C (ackingRenderSink deviceId) ops) ∧
      (∀ r ∈ (after C (ackingRenderSink deviceId) ops).renders, Trace deviceId r.toast r.task r.outs) ∧
      Preceded AfterObserved (after C (ackingRenderSink deviceId) ops).log := by
    refine run_inv_trans (I := fun s => MilestoneLaw .ended s ∧
      (∀ r ∈ s.renders, Trace deviceId r.toast r.task r.outs) ∧ Preceded AfterObserved s.log)
      (fun s o s' h hs => ?_) ⟨milestone_run C _ .ended [], by simp [init], fun pre e post h => ?_⟩ ops
    · exact ⟨milestone_trans .ended h hs.1, trace_trans deviceId h hs.2.1, preceded_trans h hs.1 hs.2.1 hs.2.2⟩
    · simp [init] at h
  exact h.2.2

/-! ## Shown toasts -/

section
variable (C : Config) (ops : List (Op (ackingRenderSink deviceId)))

/-- **Submitted exactly when shown.** -/
theorem mem_submitted_iff
    (hended : ∀ r ∈ (after C (ackingRenderSink deviceId) ops).renders, r.task.isSome → r.ended = true) (t : ℕ) :
    t ∈ submitted (after C (ackingRenderSink deviceId) ops) ↔
      ∃ i r submittedAt, (after C (ackingRenderSink deviceId) ops).renders[i]? = some r ∧
        (∃ n ∈ r.toast.sources, n.ticket = t) ∧
        .out i (.shown submittedAt) ∈ (after C (ackingRenderSink deviceId) ops).log := by
  have hlog := rendersLogged_run C (ackingRenderSink deviceId) ops
  have htrace := trace_run deviceId C ops
  -- a task of the run that has put something out has finished
  have hfinished : ∀ r ∈ (after C (ackingRenderSink deviceId) ops).renders, r.outs ≠ [] →
      ∃ task, Trace deviceId r.toast (some task) r.outs ∧ task.finished = true := by
    intro r hr hne
    have h := htrace r hr
    cases htask : r.task with
    | none => exact absurd (by rw [htask] at h; exact h) hne
    | some task =>
      have hfin := hended r hr (by rw [htask]; rfl)
      rw [Render.ended, htask] at hfin
      exact ⟨task, by rwa [htask] at h, hfin⟩
  rw [submitted_eq, mem_tally]
  constructor
  · rintro ⟨r, hr, ht⟩
    have hne : r.outs ≠ [] := fun h => by rw [h] at ht; cases ht
    obtain ⟨task, htask, hfin⟩ := hfinished r hr hne
    obtain ⟨i, hi⟩ := List.getElem?_of_mem hr
    rcases submittedOf_finished deviceId htask hfin with ⟨⟨submittedAt, hshown⟩, _⟩ | ⟨_, hnone⟩
    · exact ⟨i, r, submittedAt, hi, mem_tickets.1 (Multiset.mem_of_le (submittedOf_le deviceId htask) ht),
        hlog.mem_out.2 ⟨r, hi, hshown⟩⟩
    · rw [hnone] at ht
      cases ht
  · rintro ⟨i, r, submittedAt, hi, hsource, hshown⟩
    obtain ⟨r', hi', hshown⟩ := hlog.mem_out.1 hshown
    cases hi.symm.trans hi'
    have hr := List.mem_of_getElem? hi
    obtain ⟨task, htask, hfin⟩ := hfinished r hr (List.ne_nil_of_mem hshown)
    rcases submittedOf_finished deviceId htask hfin with ⟨_, hall⟩ | ⟨hnone, _⟩
    · exact ⟨r, hr, by rw [hall]; exact mem_tickets.2 hsource⟩
    · exact absurd hshown (hnone submittedAt)

/-- **Own data and a shared stamp.** -/
theorem submitted_data {i t : ℕ} {ack : AckPayload}
    (h : .out i (.submitted t ack) ∈ (after C (ackingRenderSink deviceId) ops).log) :
    ∃ submittedAt n e, .out i (.shown submittedAt) ∈ (after C (ackingRenderSink deviceId) ops).log ∧
      (∀ other, .out i (.shown other) ∈ (after C (ackingRenderSink deviceId) ops).log → other = submittedAt) ∧
      (after C (ackingRenderSink deviceId) ops).accepted[t]? = some e ∧
      parseEvent C.libs e.payload e.receivedAt e.seq = .ok n ∧
      ack = {
        eventId := n.eventId
        deviceId := deviceId
        agentReceivedAt := e.receivedAt
        toastSubmittedAt := some submittedAt
        status := "submitted_to_windows".toList } := by
  have hlog := rendersLogged_run C (ackingRenderSink deviceId) ops
  obtain ⟨r, hi, hm⟩ := hlog.mem_out.1 h
  have hr := List.mem_of_getElem? hi
  obtain ⟨submittedAt, hshown, hunique, n, hn, rfl, rfl⟩ :=
    submitted_payload deviceId (trace_run deviceId C ops r hr) hm
  obtain ⟨e, he, hparse⟩ := (sourced_run C _ ops).parsed n (mem_notes.2 (Or.inr (Or.inr ⟨r, hr, hn⟩)))
  have hreceived : n.val.receivedAt = e.receivedAt := (parseEvent_ok C.libs hparse).2.2.2.2.2.1
  refine ⟨submittedAt, n.val, e, hlog.mem_out.2 ⟨r, hi, hshown⟩, fun other ho => ?_, he, hparse, ?_⟩
  · obtain ⟨r', hi', ho⟩ := hlog.mem_out.1 ho
    cases hi.symm.trans hi'
    exact hunique other ho
  · rw [← hreceived]
    rfl

/-- **A failed show.** None of the toast's sources gets a submitted attempt, from any task. -/
theorem failed_unsubmitted
    (hended : ∀ r ∈ (after C (ackingRenderSink deviceId) ops).renders, r.task.isSome → r.ended = true) {i : ℕ}
    {r : Render (ackingRenderSink deviceId)} (hi : (after C (ackingRenderSink deviceId) ops).renders[i]? = some r)
    (hfailed : .out i .showFailed ∈ (after C (ackingRenderSink deviceId) ops).log) :
    ∀ n ∈ r.toast.sources, n.ticket ∉ submitted (after C (ackingRenderSink deviceId) ops) := by
  intro n hn ht
  have hlog := rendersLogged_run C (ackingRenderSink deviceId) ops
  obtain ⟨j, r', submittedAt, hj, hsource, hshown⟩ := (mem_submitted_iff C ops hended n.ticket).1 ht
  -- the event is in one toast only, so it would be the failed one that was shown
  have hij : i = j := index_unique (sources_nodup C _ ops) hi hj (mem_tickets.2 ⟨n, hn, rfl⟩) (mem_tickets.2 hsource)
  subst hij
  obtain ⟨r₁, h₁, hfailed⟩ := hlog.mem_out.1 hfailed
  obtain ⟨r₂, h₂, hshown⟩ := hlog.mem_out.1 hshown
  cases hi.symm.trans h₁
  cases hi.symm.trans h₂
  exact submittedOf_failed deviceId (trace_run deviceId C ops r (List.mem_of_getElem? hi)) hfailed submittedAt hshown

end

end

/-! ## Outcomes -/

section
variable (f : Outcome → Outcome) {deviceId : Str}

def relabelOut : AckOut → AckOut
  | .submittedEnd t outcome => .submittedEnd t (f outcome)
  | out => out

def relabelLabel : AckLabel → AckLabel
  | .ended outcome => .ended (f outcome)
  | label => label

def relabelEvent : Event (ackingRenderSink deviceId) → Event (ackingRenderSink deviceId)
  | .observedEnd t outcome => .observedEnd t (f outcome)
  | .out i out => .out i (relabelOut f out)
  | e => e

def relabelRender (r : Render (ackingRenderSink deviceId)) : Render (ackingRenderSink deviceId) :=
  { r with outs := r.outs.map (relabelOut f) }

/-- the state with every recorded outcome replaced -/
def relabel (s : St (ackingRenderSink deviceId)) : St (ackingRenderSink deviceId) :=
  { s with renders := s.renders.map (relabelRender f), log := s.log.map (relabelEvent f) }

/-- the operation with the attempt ending otherwise -/
def relabelOp : Op (ackingRenderSink deviceId) → Op (ackingRenderSink deviceId)
  | .ackEnd w outcome => .ackEnd w (f outcome)
  | .sink i label => .sink i (relabelLabel f label)
  | o => o

theorem renderStep_relabel (t : AckTask) (label : AckLabel) :
    renderStep deviceId t (relabelLabel f label) =
      (renderStep deviceId t label).map fun p => (p.1, relabelOut f p.2) := by
  cases t with
  | showing toast =>
    cases label with
    | showEnded result => cases result <;> rfl
    | _ => rfl
  | acking submittedAt rest => cases label <;> cases rest <;> rfl
  | failed | publishing => cases label <;> rfl

theorem relabel_went (s : St (ackingRenderSink deviceId)) (w : ℕ) (phase : Worker)
    (events : List (Event (ackingRenderSink deviceId))) :
    relabel f (went s w phase events) = went (relabel f s) w phase (events.map (relabelEvent f)) := by
  simp [relabel, went]

theorem relabel_added (C : Config) (s : St (ackingRenderSink deviceId)) (w : ℕ) (n : Note) :
    relabel f (added C s w n) = added C (relabel f s) w n := by
  have hrenders : ∀ a : Added Note, (addRenders (ackingRenderSink deviceId) a).map (relabelRender f) =
      addRenders (ackingRenderSink deviceId) a := by
    intro a
    cases a <;> rfl
  have hevents : ∀ a : Added Note, (addEvents (ackingRenderSink deviceId) n a).map (relabelEvent f) =
      addEvents (ackingRenderSink deviceId) n a := by
    intro a
    cases a with
    | joined gone => simp [addEvents, relabelEvent]
    | _ => rfl
  simp [relabel, added, went, hrenders, hevents]

theorem relabel_flushed (C : Config) (s : St (ackingRenderSink deviceId)) (key : Key) :
    relabel f (flushed C s key) = flushed C (relabel f s) key := by
  have hrenders : ∀ t, (flushRenders (ackingRenderSink deviceId) key t).map (relabelRender f) =
      flushRenders (ackingRenderSink deviceId) key t := by
    intro t
    cases t <;> rfl
  simp [relabel, flushed, hrenders]

theorem relabel_sinkStepped (s : St (ackingRenderSink deviceId)) (i : ℕ) (r : Render (ackingRenderSink deviceId))
    (t : (ackingRenderSink deviceId).Task) (out : (ackingRenderSink deviceId).Out) :
    relabel f (sinkStepped s i r t out) = sinkStepped (relabel f s) i (relabelRender f r) t (relabelOut f out) := by
  have houts : ∀ outs : List AckOut, ∀ o : AckOut,
      (outs ++ [o]).map (relabelOut f) = outs.map (relabelOut f) ++ [relabelOut f o] := fun _ _ => List.map_append
  simp only [relabel, sinkStepped, List.map_set, List.map_append, relabelRender]
  exact congrArg (fun outs => St.mk _ _ _ _ _ _ (List.set _ i (Render.mk r.origin r.toast (some t) outs)) _ _ _)
    (houts r.outs out)

@[simp] theorem relabel_workers (s : St (ackingRenderSink deviceId)) : (relabel f s).workers = s.workers := rfl
@[simp] theorem relabel_queue (s : St (ackingRenderSink deviceId)) : (relabel f s).queue = s.queue := rfl
@[simp] theorem relabel_intakeOpen (s : St (ackingRenderSink deviceId)) :
    (relabel f s).intakeOpen = s.intakeOpen := rfl
@[simp] theorem relabel_dedup (s : St (ackingRenderSink deviceId)) : (relabel f s).dedup = s.dedup := rfl
@[simp] theorem relabel_aggregator (s : St (ackingRenderSink deviceId)) :
    (relabel f s).aggregator = s.aggregator := rfl
@[simp] theorem relabel_stage (s : St (ackingRenderSink deviceId)) : (relabel f s).stage = s.stage := rfl
@[simp] theorem relabel_renders (s : St (ackingRenderSink deviceId)) :
    (relabel f s).renders = s.renders.map (relabelRender f) := rfl

theorem all_ended_relabel (renders : List (Render (ackingRenderSink deviceId))) :
    (renders.map (relabelRender f)).all Render.ended = renders.all Render.ended := by
  rw [List.all_map]
  rfl

theorem bind_relabel (r : Render (ackingRenderSink deviceId)) (label : (ackingRenderSink deviceId).Label) :
    ((relabelRender f r).task.bind fun t => (ackingRenderSink deviceId).step t (relabelLabel f label)) =
      (r.task.bind fun t => (ackingRenderSink deviceId).step t label).map fun p =>
        ((p.1, relabelOut f p.2) : (ackingRenderSink deviceId).Task × (ackingRenderSink deviceId).Out) := by
  simp only [relabelRender]
  cases r.task with
  | none => rfl
  | some t => exact renderStep_relabel f t label

/-- **One step.** -/
theorem step_relabel (C : Config) (s : St (ackingRenderSink deviceId)) (o : Op (ackingRenderSink deviceId)) :
    relabel f (step C s o) = step C (relabel f s) (relabelOp f o) := by
  cases o with
  | tryEnqueue e =>
    simp only [step, relabelOp, relabel_intakeOpen, relabel_queue]
    split_ifs with hopen hroom
    · simp [relabel, enqueued, hopen, hroom]
    · simp [relabel, refused, relabelEvent, hopen, hroom]
    · simp [relabel, hopen]
  | recv w =>
    simp only [step, relabelOp, relabel_workers, relabel_queue, relabel_intakeOpen]
    split
    · rename_i e rest _ _
      exact congrArg (fun s => { s with queue := rest }) (relabel_went f s w (.received e) [])
    · split_ifs with hopen
      · exact (if_pos hopen).symm
      · exact (relabel_went f s w .exited []).trans (if_neg hopen).symm
    · rfl
  | process w now =>
    simp only [step, relabelOp, relabel_workers, relabel_dedup]
    split
    · split
      · exact relabel_went f s w _ _
      · split
        · rename_i dedup _
          exact congrArg (fun s => { s with dedup := dedup }) (relabel_went f s w _ _)
        · rename_i dedup _
          exact congrArg (fun s => { s with dedup := dedup }) (relabel_went f s w _ _)
    · rfl
  | observe w =>
    simp only [step, relabelOp, relabel_workers]
    split
    · exact relabel_went f s w _ _
    · rfl
  | ackEnd w outcome =>
    simp only [step, relabelOp, relabel_workers]
    split
    · exact relabel_went f s w _ _
    · rfl
  | add w =>
    simp only [step, relabelOp, relabel_workers]
    split
    · exact relabel_added f C s w _
    · rfl
  | timer key => exact relabel_flushed f C s key
  | renderStart i =>
    simp only [step, relabelOp, relabel_renders, List.getElem?_map]
    cases hr : s.renders[i]? with
    | none => rfl
    | some r =>
      cases ht : r.task with
      | none => simp [ht, relabelRender, renderStarted, relabel, relabelEvent, List.map_set]
      | some t => simp [ht, relabelRender]
  | sink i label =>
    simp only [step, relabelOp, relabel_renders, List.getElem?_map]
    cases hr : s.renders[i]? with
    | none => rfl
    | some r =>
      simp only [Option.map_some]
      rw [bind_relabel]
      cases hb : r.task.bind fun t => (ackingRenderSink deviceId).step t label with
      | none => rfl
      | some p => exact relabel_sinkStepped f s i r p.1 p.2
  | dropSenders => rfl
  | shutdown keys =>
    simp only [step, relabelOp, relabel_stage, relabel_workers, relabel_aggregator]
    split_ifs with h
    · exact (if_pos h).symm
    · exact (if_neg h).symm
  | flushNext =>
    simp only [step, relabelOp, relabel_stage]
    split
    · rename_i key keys _
      exact congrArg (fun s => { s with stage := .flushing keys }) (relabel_flushed f C s key)
    · rfl
  | close =>
    simp only [step, relabelOp, relabel_stage]
    split <;> rfl
  | drained =>
    simp only [step, relabelOp, relabel_stage, relabel_renders, all_ended_relabel]
    split_ifs <;> rfl

/-- **How attempts end changes nothing else.** -/
theorem relabelled_run (C : Config) (ops : List (Op (ackingRenderSink deviceId))) :
    after C (ackingRenderSink deviceId) (ops.map (relabelOp f)) =
      relabel f (after C (ackingRenderSink deviceId) ops) :=
  (run_map (step C) (step_relabel f C) (init C _) ops).symm

end

/-! ## The protocol -/

/-- the acknowledgement protocol, as the log of a run shows it -/
structure Protocol (C : Config) (s : St (ackingRenderSink C.deviceId)) : Prop where
  observed_once : (reached .observed s).Nodup
  /-- for the events that passed, but those whose worker has not come to it, and for no other -/
  observed_passed : reached .observed s + unobserved s = reached .passed s
  /-- the data are those of the accepted event with the ticket -/
  observed_own : ∀ t ack, .observed t ack ∈ s.log →
    ∃ n e, s.accepted[t]? = some e ∧ parseEvent C.libs e.payload e.receivedAt e.seq = .ok n ∧
      ack = {
        eventId := n.eventId
        deviceId := C.deviceId
        agentReceivedAt := e.receivedAt
        toastSubmittedAt := none
        status := "observed_by_agent".toList }
  submitted_once : (submitted s).Nodup
  submitted_iff_shown : ∀ t, t ∈ submitted s ↔ ∃ i r submittedAt, s.renders[i]? = some r ∧
    (∃ n ∈ r.toast.sources, n.ticket = t) ∧ .out i (.shown submittedAt) ∈ s.log
  submitted_after_observed : ∀ pre i t ack post, s.log = pre ++ .out i (.submitted t ack) :: post →
    ∃ outcome, .observedEnd t outcome ∈ pre
  /-- the stamp is the toast's, the rest is the event's -/
  submitted_own : ∀ i t ack, .out i (.submitted t ack) ∈ s.log →
    ∃ submittedAt n e, .out i (.shown submittedAt) ∈ s.log ∧
      (∀ other, .out i (.shown other) ∈ s.log → other = submittedAt) ∧
      s.accepted[t]? = some e ∧ parseEvent C.libs e.payload e.receivedAt e.seq = .ok n ∧
      ack = {
        eventId := n.eventId
        deviceId := C.deviceId
        agentReceivedAt := e.receivedAt
        toastSubmittedAt := some submittedAt
        status := "submitted_to_windows".toList }
  failed_unsubmitted : ∀ i r, s.renders[i]? = some r → .out i .showFailed ∈ s.log →
    ∀ n ∈ r.toast.sources, n.ticket ∉ submitted s

/-- **The acknowledgement protocol.** It holds in every run whose started render tasks have run to their ends, and the
run goes on in the same way however the attempts end. -/
theorem acknowledgements (C : Config) (ops : List (Op (ackingRenderSink C.deviceId)))
    (hended : ∀ r ∈ (after C (ackingRenderSink C.deviceId) ops).renders, r.task.isSome → r.ended = true) :
    Protocol C (after C (ackingRenderSink C.deviceId) ops) ∧
      ∀ f, after C (ackingRenderSink C.deviceId) (ops.map (relabelOp f)) =
        relabel f (after C (ackingRenderSink C.deviceId) ops) := by
  refine ⟨?_, fun f => relabelled_run f C ops⟩
  exact {
    observed_once := reached_nodup C _ .observed ops
    observed_passed := observed_passed C _ ops
    observed_own := fun t ack h => observed_data C _ ops h
    submitted_once := submitted_nodup C C.deviceId ops
    submitted_iff_shown := mem_submitted_iff C ops hended
    submitted_after_observed := fun pre i t ack post heq =>
      submitted_preceded C ops pre _ post heq t (Multiset.mem_singleton_self t)
    submitted_own := fun i t ack h => submitted_data C ops h
    failed_unsubmitted := fun i r hi hfailed => failed_unsubmitted C ops hended hi hfailed }

/-- one event: its observed attempt times out, its toast is shown, its submitted attempt fails -/
def troubledRun : List (Op (ackingRenderSink defaultAgent.deviceId)) :=
  [.tryEnqueue ⟨progressPayload 'a', 0, 1⟩, .recv 0, .process 0 0, .observe 0, .ackEnd 0 .timeout, .add 0,
    .timer (['k'], .important), .renderStart 0, .sink 0 (.showEnded (some 7)), .sink 0 .attempt,
    .sink 0 (.ended .error)]

theorem acknowledgements_troubledRun :
    Protocol defaultAgent (after defaultAgent (ackingRenderSink defaultAgent.deviceId) troubledRun) ∧
      ∀ f, after defaultAgent (ackingRenderSink defaultAgent.deviceId) (troubledRun.map (relabelOp f)) =
        relabel f (after defaultAgent (ackingRenderSink defaultAgent.deviceId) troubledRun) :=
  acknowledgements defaultAgent troubledRun (by decide +kernel)

end NotifyAgent.Acks
