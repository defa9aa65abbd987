/-
The acks of the Go agent.

- `reported_run`: the log of a render is what the render did: one attempt to show, then the acks of its batch in order;
- `sent_run`: the submitted acks, over all renders;
- `go_acknowledgements`: both kinds of acks carry the data of their events; the submitted ones, of the toast shown, come
  after it, in the order of the batch and once each, and for events that have got their observed ack only.
-/
import Mathlib.Tactic
import NotifyAgent.Lib.SharedLog
import NotifyAgent.Scenarios.GoAccounts

namespace NotifyAgent.GoAcks

open NotifyAgent.Text NotifyAgent.Go NotifyAgent.GoAgent NotifyAgent.GoAccounts
open NotifyAgent.Notification (DateTime Segmentation)
open NotifyAgent.Lib.Ledger
open NotifyAgent.Lib.SharedLog
open NotifyAgent.Lib.WorkerPool (Op St init run_inv_trans given_run Follows gain_le shared_le)

variable {C : Config} {s s' : Shared}

/-! ## What the log says of a render -/

def about (i : ℕ) : Event → Bool
  | .shown j _ _ | .showFailed j | .submitted j _ _ _ | .renderPanicked j => j == i
  | _ => false

/-- the log entries are the acks of the events, one each, with their own data and the one submission time -/
def Acked (C : Config) (i : ℕ) (submittedAt : DateTime) : List InboundNotification → List Event → Prop :=
  List.Forall₂ fun event e => ∃ ok, e = .submitted i event {
    eventID := event.eventID
    deviceID := C.deviceID
    agentReceivedAt := event.agentReceivedAt
    toastSubmittedAt := some submittedAt
    status := "submitted_to_windows".toList } ok

/-- what the log says of a render in each of its states -/
inductive Reported (C : Config) (i : ℕ) (r : Render) : List Event → Prop where
  | waiting (hphase : r.phase = .showing) (hsent : r.sent = []) : Reported C i r []
  | failed (hphase : r.phase = .over) (hsent : r.sent = []) : Reported C i r [.showFailed i]
  | stopped (hphase : r.phase = .over) (hsent : r.sent = []) : Reported C i r [.renderPanicked i]
  | shown (toast submittedAt acks rest) (htoast : fromBatch C.segmentation r.batch = some toast)
    (hat : r.submittedAt = some submittedAt) (hbatch : r.batch = r.sent ++ rest)
    (hphase : r.phase = if rest = [] then .over else .publishing rest) (hacks : Acked C i submittedAt r.sent acks) :
    Reported C i r (.shown i toast submittedAt :: acks)
  | cutShort (toast submittedAt acks rest) (htoast : fromBatch C.segmentation r.batch = some toast)
    (hbatch : r.batch = r.sent ++ rest) (hrest : rest ≠ []) (hphase : r.phase = .over)
    (hacks : Acked C i submittedAt r.sent acks) :
    Reported C i r (.shown i toast submittedAt :: (acks ++ [.renderPanicked i]))

/-- a render is of something, and the log says what it did -/
def Told (C : Config) (i : ℕ) (r : Render) (l : List Event) : Prop := r.batch ≠ [] ∧ Reported C i r l

def Renders (C : Config) (s : St QueueItem Shared Job Event) : Prop :=
  Logged about (Told C) s.shared.renders s.log

theorem addEvents_aside (a : Aggregator) (event : InboundNotification) (i : ℕ) :
    (addEvents a event).filter (about i) = [] := by
  apply List.filter_eq_nil_iff.2
  intro e he
  rcases mem_addEvents he with rfl | ⟨old, rfl⟩ <;> exact Bool.false_ne_true

variable {events : List Event}

theorem told_called {origin : Origin} {batch : Option (List InboundNotification)} {rs : List Render} {log : List Event}
    (h : Logged about (Told C) rs log) (hbatch : ∀ b, batch = some b → b ≠ []) :
    Logged about (Told C) (rs ++ renders origin batch) log := by
  cases batch with
  | none => rwa [renders, Option.toList, List.map_nil, List.append_nil]
  | some batch =>
    have hne := hbatch batch rfl
    exact logged_started h fun _ => ⟨hne, .waiting (if_neg hne) rfl⟩

theorem add_batch_ne_nil {a : Aggregator} {event : InboundNotification} {batch : List InboundNotification}
    (h : (a.add event).2 = some batch) : batch ≠ [] := by
  rcases added_cases a event with ⟨_, ha, _⟩ | ⟨_, b, _, ha, _⟩ | ⟨_, ha, _⟩ | ⟨_, _, ha, _⟩ <;> rw [ha] at h <;>
    cases h
  simp

theorem batch_ne_nil {b : Bucket} {batch : List InboundNotification} (h : b.batch = some batch) : batch ≠ [] := by
  unfold Bucket.batch at h
  split_ifs at h with hlen
  cases h
  exact fun hnil => hlen (List.length_eq_zero_iff.2 hnil)

theorem fire_batch_ne_nil {a : Aggregator} {key : BucketKey} {batch : List InboundNotification}
    (h : (a.fire key).2 = some batch) : batch ≠ [] := by
  rcases a.fire_cases key with ⟨_, hf⟩ | ⟨b, _, hf⟩ <;> rw [hf] at h
  · cases h
  · exact batch_ne_nil h

theorem reported_shown {i : ℕ} {r : Render} {toast : ToastRequest} (submittedAt : DateTime)
    (hphase : r.phase = .showing)
    (hne : r.batch ≠ []) (htoast : fromBatch C.segmentation r.batch = some toast) {l : List Event}
    (h : Reported C i r l) :
    Reported C i { r with phase := .publishing r.batch, submittedAt := some submittedAt }
      (l ++ [.shown i toast submittedAt]) := by
  cases h with
  | waiting _ hsent =>
    refine .shown toast submittedAt [] r.batch htoast rfl ?_ (if_neg hne).symm ?_
    · rw [hsent]
      rfl
    · rw [hsent]
      exact .nil
  | failed h => cases hphase.symm.trans h
  | stopped h => cases hphase.symm.trans h
  | shown _ _ _ rest _ _ _ h =>
    rw [hphase] at h
    split_ifs at h
  | cutShort _ _ _ _ _ _ _ h => cases hphase.symm.trans h

theorem reported_showFailed {i : ℕ} {r : Render} (hphase : r.phase = .showing) {l : List Event}
    (h : Reported C i r l) : Reported C i { r with phase := .over } (l ++ [.showFailed i]) := by
  cases h with
  | waiting _ hsent => exact .failed rfl hsent
  | failed h => cases hphase.symm.trans h
  | stopped h => cases hphase.symm.trans h
  | shown _ _ _ rest _ _ _ h =>
    rw [hphase] at h
    split_ifs at h
  | cutShort _ _ _ _ _ _ _ h => cases hphase.symm.trans h

theorem reported_published {i : ℕ} {r : Render} {event : InboundNotification} {rest : List InboundNotification}
    {submittedAt : DateTime} (ok : Bool) (hphase : r.phase = .publishing (event :: rest))
    (hat : r.submittedAt = some submittedAt) {l : List Event} (h : Reported C i r l) :
    Reported C i { r with phase := if rest = [] then .over else .publishing rest, sent := r.sent ++ [event] }
      (l ++ [.submitted i event (submittedAck C submittedAt event) ok]) := by
  cases h with
  | waiting h => cases hphase.symm.trans h
  | failed h => cases hphase.symm.trans h
  | stopped h => cases hphase.symm.trans h
  | shown toast at' acks rest' htoast hat' hbatch h hacks =>
    rw [hphase] at h
    split_ifs at h with hnil
    cases h
    cases hat.symm.trans hat'
    refine .shown toast submittedAt _ rest htoast hat ?_ rfl (List.rel_append hacks (.cons ⟨ok, rfl⟩ .nil))
    rw [hbatch, List.append_assoc]
    rfl
  | cutShort _ _ _ _ _ _ _ h => cases hphase.symm.trans h

theorem reported_panicked {i : ℕ} {r : Render} (hphase : r.phase ≠ .over) {l : List Event} (h : Reported C i r l) :
    Reported C i { r with phase := .over } (l ++ [.renderPanicked i]) := by
  cases h with
  | waiting _ hsent => exact .stopped rfl hsent
  | failed h => exact absurd h hphase
  | stopped h => exact absurd h hphase
  | shown toast at' acks rest htoast _ hbatch h hacks =>
    refine .cutShort toast at' acks rest htoast hbatch (fun hnil => ?_) rfl hacks
    rw [if_pos hnil] at h
    exact hphase h
  | cutShort _ _ _ _ _ _ _ h => exact absurd h hphase

theorem told_went {i : ℕ} {r r' : Render} {e : Event} (hbatch : r'.batch = r.batch)
    (hrep : ∀ l, Reported C i r l → Reported C i r' (l ++ [e])) (l : List Event) (h : Told C i r l) :
    Told C i r' (l ++ [e]) :=
  ⟨by rw [hbatch]; exact h.1, hrep l h.2⟩

/-- **The log of the renders.** -/
theorem reported_run (C : Config) (ops : List (Op QueueItem WorkLabel EnvLabel)) : Renders C (after C ops) := by
  have hnil : Renders C (init C.workerCount (start C)) := logged_nil
  refine run_inv_trans (fun s o s' h hs => ?_) hnil ops
  unfold Renders at hs ⊢
  cases h with
  | worked w label job shared job' events hw hwork =>
    cases work_cases C s.shared hwork with
    | added event next hnext =>
      exact told_called (logged_aside hs (addEvents_aside _ _)) fun _ h => add_batch_ne_nil h
    | rendered i r hr hover => exact logged_aside hs fun _ => rfl
    | rejected item error hparse => exact logged_aside hs fun _ => rfl
    | suppressed item event dedup hstamp => exact logged_aside hs fun _ => rfl
    | passed item event dedup hstamp => exact logged_aside hs fun _ => rfl
    | observed event ok => exact logged_aside hs fun _ => rfl
    | panicked job hjob => exact logged_aside hs fun _ => rfl
  | env label shared events henv =>
    cases env_cases C s.shared henv with
    | fired key => exact told_called (logged_aside hs fun _ => rfl) fun _ h => fire_batch_ne_nil h
    | flushNext timedOut b pending batch hstage hbatch =>
      refine told_called (logged_aside hs fun _ => rfl) fun _ h => ?_
      cases h
      exact batch_ne_nil hbatch
    | shown i r toast submittedAt hr hphase htoast =>
      exact logged_went hs hr (fun _ => rfl)
        (told_went rfl fun _ => reported_shown submittedAt hphase (hs.reported i r hr).1 htoast)
    | showFailed i r hr hphase =>
      exact logged_went hs hr (fun _ => rfl) (told_went rfl fun _ => reported_showFailed hphase)
    | published i r event rest submittedAt ok hr hphase hat =>
      exact logged_went hs hr (fun _ => rfl) (told_went rfl fun _ => reported_published ok hphase hat)
    | renderPanicked i r hr hphase =>
      exact logged_went hs hr (fun _ => rfl) (told_went rfl fun _ => reported_panicked hphase)
    | swapped timedOut pending hstage hclosed hgone hpending => exact logged_aside hs fun _ => rfl
    | skipped timedOut b pending hstage hbatch => exact logged_aside hs fun _ => rfl
    | flushed timedOut i pending r hstage hr hover => exact logged_aside hs fun _ => rfl
    | closed timedOut hstage => exact logged_aside hs fun _ => rfl
  | _ => exact hs

/-! ## The acks -/

def submittedOf : Event → Events
  | .submitted _ event _ _ => {event}
  | _ => 0

/-- the events whose submitted ack has been published, or tried -/
def sent (renders : List Render) : Events := tally (fun r => (r.sent : Events)) renders

theorem submittedOf_addEvents (a : Aggregator) (event : InboundNotification) :
    tally submittedOf (addEvents a event) = 0 := by
  apply tally_eq_zero
  intro e he
  rcases mem_addEvents he with rfl | ⟨old, rfl⟩ <;> rfl

theorem sent_called (rs : List Render) (origin : Origin) (batch : Option (List InboundNotification)) :
    sent (rs ++ renders origin batch) = sent rs := by
  cases batch <;> simp [sent, renders, called]

theorem sent_set {rs : List Render} {i : ℕ} {r r' : Render} (hr : rs[i]? = some r) (hsent : r'.sent = r.sent) :
    sent (rs.set i r') = sent rs :=
  tally_set_same _ hr (by rw [hsent])

/-- nothing is published -/
theorem sent_kept (hevents : tally submittedOf events = 0) (hsent : sent s'.renders = sent s.renders) :
    sent s'.renders = sent s.renders + tally submittedOf events := by
  rw [hevents, add_zero, hsent]

theorem sent_worked {job : Job} {job' : Option Job} (h : Worked C s job s' job' events) :
    sent s'.renders = sent s.renders + tally submittedOf events := by
  cases h with
  | added event next hnext => exact sent_kept (submittedOf_addEvents _ _) (sent_called _ _ _)
  | _ => exact sent_kept rfl (by rfl)

theorem sent_happened {closed gone : Bool} (h : Happened C s closed gone s' events) :
    sent s'.renders = sent s.renders + tally submittedOf events := by
  cases h with
  | fired key => exact sent_kept rfl (sent_called _ _ _)
  | flushNext timedOut b pending batch => exact sent_kept rfl (sent_called _ _ _)
  | shown i r toast submittedAt hr => exact sent_kept rfl (sent_set hr (by rfl))
  | showFailed i r hr => exact sent_kept rfl (sent_set hr (by rfl))
  | renderPanicked i r hr => exact sent_kept rfl (sent_set hr (by rfl))
  | published i r event rest submittedAt ok hr =>
    refine tally_set_add (fun r : Render => (r.sent : Events)) hr ?_
    rfl
  | _ => exact sent_kept rfl (by rfl)

/-- **The submitted acks**, over all renders. -/
theorem sent_run (C : Config) (ops : List (Op QueueItem WorkLabel EnvLabel)) :
    sent (after C ops).shared.renders = tally submittedOf (after C ops).log :=
  given_run (f := fun s : Shared => sent s.renders) (fun _ _ _ _ _ _ h => sent_worked (work_cases C _ h))
    (fun _ _ _ _ _ _ h => sent_happened (env_cases C _ h)) C.workerCount rfl ops

/-- a submitted ack is for an event of the batch -/
theorem sent_initial {i : ℕ} {r : Render} {l : List Event} (h : Reported C i r l) : r.sent <+: r.batch := by
  cases h with
  | waiting _ hsent | failed _ hsent | stopped _ hsent =>
    rw [hsent]
    exact List.nil_prefix
  | shown _ _ _ rest _ _ hbatch => exact ⟨rest, hbatch.symm⟩
  | cutShort _ _ _ rest _ hbatch => exact ⟨rest, hbatch.symm⟩

theorem sent_le_batches (C : Config) (ops : List (Op QueueItem WorkLabel EnvLabel)) :
    sent (after C ops).shared.renders ≤ batches (after C ops).shared.renders := by
  apply tally_le_tally
  intro r hr
  obtain ⟨i, hi⟩ := List.mem_iff_getElem?.1 hr
  exact (sent_initial ((reported_run C ops).reported i r hi).2).sublist.subperm

theorem beyond_mono (C : Config) (job : Job) :
    beyond C .observed job ≤ beyond C .passed job ∧ beyond C .passed job ≤ beyond C .accepted job := by
  cases job <;> simp [beyond]

theorem lost_mono (C : Config) (e : Event) :
    lost C .observed e ≤ lost C .passed e ∧ lost C .passed e ≤ lost C .accepted e := by
  cases e with
  | panicked job => exact beyond_mono C job
  | _ => simp [lost]

theorem observed_follows (C : Config) : Follows (weights C .observed) (weights C .passed) where
  item _ := rfl
  job job := (beyond_mono C job).1
  shared := rfl
  loss e := (lost_mono C e).1

theorem passed_follows (C : Config) : Follows (weights C .passed) (weights C .accepted) where
  item _ := rfl
  job job := (beyond_mono C job).2
  shared := rfl
  loss e := (lost_mono C e).2

theorem observed_le_passed (C : Config) (ops : List (Op QueueItem WorkLabel EnvLabel)) :
    tally (reaches .observed) (after C ops).log ≤ tally (reaches .passed) (after C ops).log := by
  have hnothing : ∀ l, tally (weights C .passed).item l = 0 := fun l => tally_eq_zero fun _ _ => rfl
  have h := gain_le (weights_balanced C .observed) (weights_balanced C .passed) (observed_follows C) C.workerCount
    (weights_start C .passed) ops
  rwa [hnothing, zero_add] at h

theorem passed_le_accepted (C : Config) (ops : List (Op QueueItem WorkLabel EnvLabel)) :
    tally (reaches .passed) (after C ops).log ≤ tally (arrival C) (after C ops).accepted := by
  have hnone : ∀ l, tally (weights C .accepted).gain l = 0 := fun l => tally_eq_zero fun e _ => by cases e <;> rfl
  have h := gain_le (weights_balanced C .passed) (weights_balanced C .accepted) (passed_follows C) C.workerCount
    (weights_start C .accepted) ops
  rwa [hnone, add_zero] at h

/-- what is rendered has been observed -/
theorem batches_le_observed (C : Config) (ops : List (Op QueueItem WorkLabel EnvLabel)) :
    batches (after C ops).shared.renders ≤ tally (reaches .observed) (after C ops).log := by
  have h := shared_le (weights_balanced C .observed) (fun _ => rfl) C.workerCount (weights_start C .observed) ops
  calc batches (after C ops).shared.renders
      ≤ held (after C ops).shared + batches (after C ops).shared.renders := Multiset.le_add_left _ _
    _ ≤ _ := (Multiset.le_add_right _ _).trans h

/-- an event that got an observed ack is that of an accepted payload -/
theorem observed_source (C : Config) (ops : List (Op QueueItem WorkLabel EnvLabel)) {event : InboundNotification}
    (h : event ∈ tally (reaches .observed) (after C ops).log) :
    ∃ item ∈ (after C ops).accepted, stamped C item = some event := by
  have h := Multiset.mem_of_le ((observed_le_passed C ops).trans (passed_le_accepted C ops)) h
  obtain ⟨item, hitem, hevent⟩ := mem_tally.1 h
  exact ⟨item, hitem, by simpa [arrival] using hevent⟩

/-- an observed ack carries the id of its event, and the time at which that was received -/
theorem observed_data (C : Config) (ops : List (Op QueueItem WorkLabel EnvLabel)) {event : InboundNotification}
    {ack : Ack}
    {ok : Bool} (h : .observed event ack ok ∈ (after C ops).log) :
    ∃ item ∈ (after C ops).accepted, ∃ parsed, parse C.libs item.payload = .ok parsed ∧
      event = { parsed with agentReceivedAt := item.receivedAt } ∧
      ack = {
        eventID := parsed.eventID
        deviceID := C.deviceID
        agentReceivedAt := item.receivedAt
        toastSubmittedAt := none
        status := "observed_by_agent".toList } := by
  obtain ⟨item, hitem, hstamp⟩ := observed_source C ops (mem_tally.2 ⟨_, h, Multiset.mem_singleton_self event⟩)
  rw [(recorded_run C ops).observed event ack ok h]
  cases hparse : parse C.libs item.payload with
  | error e => simp [stamped, hparse, Except.toOption] at hstamp
  | ok parsed =>
    have hevent : { parsed with agentReceivedAt := item.receivedAt } = event := by
      simpa [stamped, hparse, Except.toOption] using hstamp
    exact ⟨item, hitem, parsed, hparse, hevent.symm, by rw [← hevent]; rfl⟩

/-- **The acks.** An observed ack carries the id of the accepted event it is for, and the time at which that was
received; the log of each render says that it did what it should; and the events that got a submitted ack have been
rendered and had got an observed ack, those passed the cache, and those were accepted, each counted as often. As this
holds after every run, it holds at each point of a run. -/
theorem go_acknowledgements (C : Config) (ops : List (Op QueueItem WorkLabel EnvLabel)) :
    (∀ event ack ok, .observed event ack ok ∈ (after C ops).log →
      ∃ item ∈ (after C ops).accepted, ∃ parsed, parse C.libs item.payload = .ok parsed ∧
        event = { parsed with agentReceivedAt := item.receivedAt } ∧
        ack = {
          eventID := parsed.eventID
          deviceID := C.deviceID
          agentReceivedAt := item.receivedAt
          toastSubmittedAt := none
          status := "observed_by_agent".toList }) ∧
    Renders C (after C ops) ∧
    tally submittedOf (after C ops).log ≤ batches (after C ops).shared.renders ∧
    batches (after C ops).shared.renders ≤ tally (reaches .observed) (after C ops).log ∧
    tally (reaches .observed) (after C ops).log ≤ tally (reaches .passed) (after C ops).log ∧
    tally (reaches .passed) (after C ops).log ≤ tally (arrival C) (after C ops).accepted := by
  refine ⟨fun event ack ok h => observed_data C ops h, reported_run C ops, ?_, batches_le_observed C ops,
    observed_le_passed C ops, passed_le_accepted C ops⟩
  rw [← sent_run]
  exact sent_le_batches C ops

end NotifyAgent.GoAcks
