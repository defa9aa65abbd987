/-
The acks of the C# agent.

- `reported_run`: the log of a render is what the render did: one call of `ShowAsync`, then the acks of its sources in
  order, up to the first that fails;
- `sent_run`: the submitted acks that were published, over all renders;
- `csharp_acknowledgements`: the acks carry the data of their events, and come in the order of an event's way.
-/
import Mathlib.Tactic
import NotifyAgent.Lib.SharedLog
import NotifyAgent.Scenarios.CSharpAccounts

namespace NotifyAgent.CSharpAcks

open NotifyAgent.Text NotifyAgent.CSharp NotifyAgent.CSharpAgent NotifyAgent.CSharpAccounts
open NotifyAgent.Notification (DateTime Segmentation)
open NotifyAgent.Lib.Ledger
open NotifyAgent.Lib.SharedLog
open NotifyAgent.Lib.WorkerPool (Op St init run_inv_trans log_run given_run Follows gain_le shared_le)

variable {C : Config} {s s' : Shared}

/-! ## What the log says of a render -/

def about (i : ℕ) : Event → Bool
  | .shown j _ | .showFailed j | .submitted j _ _ _ => j == i
  | _ => false

/-- the entry for an ack of a source, with its own data and the submission time of the toast -/
def submittedEntry (C : Config) (i : ℕ) (submittedAt : DateTime) (ok : Bool) (n : InboundNotification) : Event :=
  .submitted i n {
    eventId := n.eventId
    deviceId := C.deviceId
    agentReceivedAt := n.receivedAt
    toastSubmittedAt := some submittedAt
    status := "submitted_to_windows".toList } ok

/-- the acks of the sources, one each, all published -/
def acks (C : Config) (i : ℕ) (submittedAt : DateTime) (sent : List InboundNotification) : List Event :=
  sent.map (submittedEntry C i submittedAt true)

/-- what the log says of a render in each of its states -/
inductive Reported (C : Config) (i : ℕ) (r : Render) : List Event → Prop where
  | waiting (hphase : r.phase = .showing) (hsent : r.sent = []) : Reported C i r []
  | failed (hphase : r.phase = .over) (hsent : r.sent = []) : Reported C i r [.showFailed i]
  | shown (submittedAt rest) (hat : r.submittedAt = some submittedAt) (hsources : r.toast.sources = r.sent ++ rest)
    (hphase : r.phase = if rest = [] then .over else .publishing rest) :
    Reported C i r (.shown i submittedAt :: acks C i submittedAt r.sent)
  /-- the ack of `n` failed, and there is none for the sources after it -/
  | cutShort (submittedAt n rest) (hsources : r.toast.sources = r.sent ++ n :: rest) (hphase : r.phase = .over) :
    Reported C i r (.shown i submittedAt :: (acks C i submittedAt r.sent ++ [submittedEntry C i submittedAt false n]))

/-- a render shows the toast of its sources, and the log says what it did -/
def Told (C : Config) (i : ℕ) (r : Render) (l : List Event) : Prop :=
  fromBatch C.segmentation r.toast.sources = some r.toast ∧ Reported C i r l

def Renders (C : Config) (s : St ReceivedEvent Shared Job Event) : Prop :=
  Logged about (Told C) s.shared.renders s.log

theorem addEvents_aside (a : Aggregator) (n : InboundNotification) (i : ℕ) :
    (addEvents a n).filter (about i) = [] := by
  apply List.filter_eq_nil_iff.2
  intro e he
  rcases mem_addEvents he with rfl | ⟨old, rfl⟩ <;> exact Bool.false_ne_true

theorem told_called {awaited : Bool} {toast : Option ToastRequest} {rs : List Render} {log : List Event}
    (h : Logged about (Told C) rs log) (htoast : ∀ t, toast = some t → fromBatch C.segmentation t.sources = some t) :
    Logged about (Told C) (rs ++ renders awaited toast) log := by
  cases toast with
  | none => rwa [renders, Option.toList_none, List.map_nil, List.append_nil]
  | some toast => exact logged_started h fun _ => ⟨htoast toast rfl, .waiting rfl rfl⟩

theorem add_toast {G : Segmentation} {a : Aggregator} {n : InboundNotification} {toast : ToastRequest}
    (h : (a.addAsync G n).2 = some toast) : fromBatch G toast.sources = some toast := by
  rcases added_cases G a n with ⟨_, ha, _⟩ | ⟨_, b, _, ha, _⟩ | ⟨_, ha, _⟩ | ⟨_, _, ⟨timer, ha⟩, _⟩ <;> rw [ha] at h <;>
    cases h
  rfl

theorem flush_toast {G : Segmentation} {a : Aggregator} {key : BucketKey} {toast : ToastRequest}
    (h : (a.flush G key).2 = some toast) : fromBatch G toast.sources = some toast := by
  rcases a.flush_cases G key with ⟨_, hf⟩ | ⟨bucket, _, hf⟩ <;> rw [hf] at h
  · cases h
  · simp only [Bucket.toast] at h
    split_ifs at h
    rwa [fromBatch_sources h]

section
variable {i : ℕ} {r : Render} {l : List Event}

theorem reported_shown (submittedAt : DateTime) (hphase : r.phase = .showing) (h : Reported C i r l) :
    Reported C i { r with
      phase := if r.toast.sources = [] then .over else .publishing r.toast.sources
      submittedAt := some submittedAt } (l ++ [.shown i submittedAt]) := by
  cases h with
  | waiting _ hsent =>
    have hl : [Event.shown i submittedAt] = .shown i submittedAt :: acks C i submittedAt r.sent := by
      rw [hsent]
      rfl
    rw [List.nil_append, hl]
    exact .shown submittedAt r.toast.sources rfl (by rw [hsent]; rfl) rfl
  | failed h => cases hphase.symm.trans h
  | shown _ rest _ _ h =>
    rw [hphase] at h
    split_ifs at h
  | cutShort _ _ _ _ h => cases hphase.symm.trans h

theorem reported_showFailed (hphase : r.phase = .showing) (h : Reported C i r l) :
    Reported C i { r with phase := .over } (l ++ [.showFailed i]) := by
  cases h with
  | waiting _ hsent => exact .failed rfl hsent
  | failed h => cases hphase.symm.trans h
  | shown _ rest _ _ h =>
    rw [hphase] at h
    split_ifs at h
  | cutShort _ _ _ _ h => cases hphase.symm.trans h

/-- a render that publishes has shown its toast, and reports its acks -/
theorem reported_publishing {n : InboundNotification} {rest : List InboundNotification} {submittedAt : DateTime}
    (hphase : r.phase = .publishing (n :: rest)) (hat : r.submittedAt = some submittedAt) (h : Reported C i r l) :
    r.toast.sources = r.sent ++ n :: rest ∧ l = .shown i submittedAt :: acks C i submittedAt r.sent := by
  cases h with
  | waiting h => cases hphase.symm.trans h
  | failed h => cases hphase.symm.trans h
  | shown at' rest' hat' hsources h =>
    rw [hphase] at h
    split_ifs at h with hnil
    cases h
    cases hat.symm.trans hat'
    exact ⟨hsources, rfl⟩
  | cutShort _ _ _ _ h => cases hphase.symm.trans h

theorem reported_published {n : InboundNotification} {rest : List InboundNotification} {submittedAt : DateTime}
    (hphase : r.phase = .publishing (n :: rest)) (hat : r.submittedAt = some submittedAt) (h : Reported C i r l) :
    Reported C i { r with phase := if rest = [] then .over else .publishing rest, sent := r.sent ++ [n] }
      (l ++ [.submitted i n (submittedAck C submittedAt n) true]) := by
  obtain ⟨hsources, rfl⟩ := reported_publishing hphase hat h
  have hl : (Event.shown i submittedAt :: acks C i submittedAt r.sent) ++
      [.submitted i n (submittedAck C submittedAt n) true] =
      .shown i submittedAt :: acks C i submittedAt (r.sent ++ [n]) := by
    rw [List.cons_append, acks, acks, List.map_append]
    rfl
  rw [hl]
  refine .shown submittedAt rest hat ?_ rfl
  rw [hsources, List.append_assoc]
  rfl

theorem reported_unpublished {n : InboundNotification} {rest : List InboundNotification} {submittedAt : DateTime}
    (hphase : r.phase = .publishing (n :: rest)) (hat : r.submittedAt = some submittedAt) (h : Reported C i r l) :
    Reported C i { r with phase := .over } (l ++ [.submitted i n (submittedAck C submittedAt n) false]) := by
  obtain ⟨hsources, rfl⟩ := reported_publishing hphase hat h
  rw [List.cons_append]
  exact .cutShort submittedAt n rest hsources rfl

theorem told_went {r' : Render} {e : Event} (htoast : r'.toast = r.toast)
    (hrep : ∀ l, Reported C i r l → Reported C i r' (l ++ [e])) (l : List Event) (h : Told C i r l) :
    Told C i r' (l ++ [e]) :=
  ⟨by rw [htoast]; exact h.1, hrep l h.2⟩

end

/-- **The log of the renders.** -/
theorem reported_run (C : Config) (ops : List (Op ReceivedEvent WorkLabel EnvLabel)) : Renders C (after C ops) := by
  have hnil : Renders C (init C.workerCount (start C)) := logged_nil
  refine run_inv_trans (fun s o s' h hs => ?_) hnil ops
  unfold Renders at hs ⊢
  cases h with
  | worked w label job shared job' events hw hwork =>
    cases work_cases C s.shared hwork with
    | added n next hnext => exact told_called (logged_aside hs (addEvents_aside _ _)) fun _ h => add_toast h
    | rendered i r hr hover => exact logged_aside hs fun _ => rfl
    | rejected received error hparse => exact logged_aside hs fun _ => rfl
    | suppressed received n dedup hparsed => exact logged_aside hs fun _ => rfl
    | passed received n dedup hparsed => exact logged_aside hs fun _ => rfl
    | observed n => exact logged_aside hs fun _ => rfl
    | unobserved n => exact logged_aside hs fun _ => rfl
    | threw job hjob => exact logged_aside hs fun _ => rfl
  | env label shared events henv =>
    cases env_cases C s.shared henv with
    | fired key => exact told_called (logged_aside hs fun _ => rfl) fun _ h => flush_toast h
    | flushNext key keys hstage => exact told_called (logged_aside hs fun _ => rfl) fun _ h => flush_toast h
    | shown i r submittedAt hr hphase =>
      exact logged_went hs hr (fun _ => rfl) (told_went rfl fun _ => reported_shown submittedAt hphase)
    | showFailed i r hr hphase =>
      exact logged_went hs hr (fun _ => rfl) (told_went rfl fun _ => reported_showFailed hphase)
    | published i r n rest submittedAt hr hphase hat =>
      exact logged_went hs hr (fun _ => rfl) (told_went rfl fun _ => reported_published hphase hat)
    | unpublished i r n rest submittedAt hr hphase hat =>
      exact logged_went hs hr (fun _ => rfl) (told_went rfl fun _ => reported_unpublished hphase hat)
    | disposing keys hstage hclosed hgone hkeys => exact logged_aside hs fun _ => rfl
    | disposed hstage => exact logged_aside hs fun _ => rfl
  | _ => exact hs

/-! ## The acks -/

/-- the event of a submitted ack that was published -/
def submittedOf : Event → Events
  | .submitted _ n _ true => {n}
  | _ => 0

def sent (renders : List Render) : Events := tally (fun r => (r.sent : Events)) renders

theorem sent_called (rs : List Render) (awaited : Bool) (toast : Option ToastRequest) :
    sent (rs ++ renders awaited toast) = sent rs := by
  cases toast <;> simp [sent, renders, called]

theorem sent_set {rs : List Render} {i : ℕ} {r r' : Render} (hr : rs[i]? = some r) (hsent : r'.sent = r.sent) :
    sent (rs.set i r') = sent rs :=
  tally_set_same _ hr (by rw [hsent])

/-- nothing is published -/
theorem sent_kept {events : List Event} (hevents : tally submittedOf events = 0)
    (hsent : sent s'.renders = sent s.renders) :
    sent s'.renders = sent s.renders + tally submittedOf events := by
  rw [hevents, add_zero, hsent]

theorem sent_worked {job : Job} {job' : Option Job} {events : List Event} (h : Worked C s job s' job' events) :
    sent s'.renders = sent s.renders + tally submittedOf events := by
  cases h with
  | added n next hnext =>
    have hnone : tally submittedOf (addEvents s.aggregator n) = 0 := by
      apply tally_eq_zero
      intro e he
      rcases mem_addEvents he with rfl | ⟨old, rfl⟩ <;> rfl
    exact sent_kept hnone (sent_called _ _ _)
  | _ => exact sent_kept rfl (by rfl)

theorem sent_happened {closed gone : Bool} {events : List Event} (h : Happened C s closed gone s' events) :
    sent s'.renders = sent s.renders + tally submittedOf events := by
  cases h with
  | fired key => exact sent_kept rfl (sent_called _ _ _)
  | flushNext key keys => exact sent_kept rfl (sent_called _ _ _)
  | shown i r submittedAt hr => exact sent_kept rfl (sent_set hr (by rfl))
  | showFailed i r hr => exact sent_kept rfl (sent_set hr (by rfl))
  | unpublished i r n rest submittedAt hr => exact sent_kept rfl (sent_set hr (by rfl))
  | published i r n rest submittedAt hr =>
    refine tally_set_add (fun r : Render => (r.sent : Events)) hr ?_
    rfl
  | _ => exact sent_kept rfl (by rfl)

/-- **The submitted acks**, over all renders. -/
theorem sent_run (C : Config) (ops : List (Op ReceivedEvent WorkLabel EnvLabel)) :
    sent (after C ops).shared.renders = tally submittedOf (after C ops).log :=
  given_run (f := fun s : Shared => sent s.renders) (fun _ _ _ _ _ _ h => sent_worked (work_cases C _ h))
    (fun _ _ _ _ _ _ h => sent_happened (env_cases C _ h)) C.workerCount rfl ops

theorem sent_initial {i : ℕ} {r : Render} {l : List Event} (h : Reported C i r l) : r.sent <+: r.toast.sources := by
  cases h with
  | waiting _ hsent | failed _ hsent =>
    rw [hsent]
    exact List.nil_prefix
  | shown _ rest _ hsources => exact ⟨rest, hsources.symm⟩
  | cutShort _ n rest hsources => exact ⟨n :: rest, hsources.symm⟩

theorem sent_le_batches (C : Config) (ops : List (Op ReceivedEvent WorkLabel EnvLabel)) :
    sent (after C ops).shared.renders ≤ batches (after C ops).shared.renders := by
  apply tally_le_tally
  intro r hr
  obtain ⟨i, hi⟩ := List.mem_iff_getElem?.1 hr
  exact (sent_initial ((reported_run C ops).reported i r hi).2).sublist.subperm

theorem beyond_mono (C : Config) (job : Job) :
    beyond C .observed job ≤ beyond C .passed job ∧ beyond C .passed job ≤ beyond C .accepted job := by
  cases job <;> simp [beyond]

theorem lost_mono (C : Config) (e : Event) :
    lost C .observed e ≤ lost C .passed e ∧ lost C .passed e ≤ lost C .accepted e := by
  cases e with
  | threw job => exact beyond_mono C job
  | observed n ack ok => cases ok <;> simp [lost]
  | _ => simp [lost]

theorem observed_follows (C : Config) : Follows (weights C .observed) (weights C .passed) where
  item _ := rfl
  job job := (beyond_mono C job).1
  shared := rfl
  loss e := (lost_mono C e).1

theorem passed_follows (C : Config) : Follows (weights C .passed) (weights C .accepted) where
  item _ := rfl
  job job := (beyond_mono C job).2
  shared := rfl
  loss e := (lost_mono C e).2

/-- what is rendered has been observed -/
theorem batches_le_observed (C : Config) (ops : List (Op ReceivedEvent WorkLabel EnvLabel)) :
    batches (after C ops).shared.renders ≤ tally (reaches .observed) (after C ops).log := by
  have h := shared_le (weights_balanced C .observed) (fun _ => rfl) C.workerCount (weights_start C .observed) ops
  calc batches (after C ops).shared.renders
      ≤ held (after C ops).shared + batches (after C ops).shared.renders := Multiset.le_add_left _ _
    _ ≤ _ := (Multiset.le_add_right _ _).trans h

theorem observed_run (C : Config) (ops : List (Op ReceivedEvent WorkLabel EnvLabel)) (n : InboundNotification)
    (ack : AckPayload) (ok : Bool) (h : .observed n ack ok ∈ (after C ops).log) : ack = observedAck C n := by
  let Q : Event → Prop := fun e => ∀ n ack ok, e = .observed n ack ok → ack = observedAck C n
  refine log_run (Q := Q) (fun s job label s' job' events h e he => ?_) (fun closed gone s label s' events h e he => ?_)
    C.workerCount (start C) ops _ h n ack ok rfl
  · rintro n ack ok rfl
    cases work_cases C s h with
    | observed | unobserved =>
      cases List.mem_singleton.1 he
      rfl
    | added n' next hnext => rcases mem_addEvents he with h | ⟨old, h⟩ <;> cases h
    | rendered => cases he
    | _ => cases List.mem_singleton.1 he
  · rintro n ack ok rfl
    cases env_cases C s h with
    | shown | showFailed | published | unpublished => cases List.mem_singleton.1 he
    | _ => cases he

theorem observed_le_passed (C : Config) (ops : List (Op ReceivedEvent WorkLabel EnvLabel)) :
    tally (reaches .observed) (after C ops).log ≤ tally (reaches .passed) (after C ops).log := by
  have hnothing : ∀ l, tally (weights C .passed).item l = 0 := fun l => tally_eq_zero fun _ _ => rfl
  have h := gain_le (weights_balanced C .observed) (weights_balanced C .passed) (observed_follows C) C.workerCount
    (weights_start C .passed) ops
  rwa [hnothing, zero_add] at h

theorem passed_le_accepted (C : Config) (ops : List (Op ReceivedEvent WorkLabel EnvLabel)) :
    tally (reaches .passed) (after C ops).log ≤ tally (arrival C) (after C ops).accepted := by
  have hnone : ∀ l, tally (weights C .accepted).gain l = 0 := fun l => tally_eq_zero fun e _ => by cases e <;> rfl
  have h := gain_le (weights_balanced C .passed) (weights_balanced C .accepted) (passed_follows C) C.workerCount
    (weights_start C .accepted) ops
  rwa [hnone, add_zero] at h

/-- an event that got an observed ack, published or not, is that of an accepted payload -/
theorem observed_source (C : Config) (ops : List (Op ReceivedEvent WorkLabel EnvLabel)) {n : InboundNotification}
    {ack : AckPayload} {ok : Bool} (h : .observed n ack ok ∈ (after C ops).log) :
    ∃ received ∈ (after C ops).accepted, parsed C received = some n := by
  have hpassed : n ∈ tally (reaches .passed) (after C ops).log := by
    cases ok with
    | true =>
      have hn : n ∈ tally (reaches .observed) (after C ops).log := mem_tally.2 ⟨_, h, Multiset.mem_singleton_self n⟩
      exact Multiset.mem_of_le (observed_le_passed C ops) hn
    | false =>
      -- an event whose ack failed is lost beyond the cache
      have hn : n ∈ tally (lost C .passed) (after C ops).log := mem_tally.2 ⟨_, h, Multiset.mem_singleton_self n⟩
      have hle := shared_le (weights_balanced C .passed) (fun _ => rfl) C.workerCount (weights_start C .passed) ops
      exact Multiset.mem_of_le ((Multiset.le_add_left _ _).trans hle) hn
  obtain ⟨received, hreceived, hn⟩ := mem_tally.1 (Multiset.mem_of_le (passed_le_accepted C ops) hpassed)
  exact ⟨received, hreceived, by simpa [arrival] using hn⟩

/-- an observed ack carries the id of its event, and the time at which that was received -/
theorem observed_data (C : Config) (ops : List (Op ReceivedEvent WorkLabel EnvLabel)) {n : InboundNotification}
    {ack : AckPayload} {ok : Bool} (h : .observed n ack ok ∈ (after C ops).log) :
    ∃ received ∈ (after C ops).accepted, tryParse C.libs received.payload received.receivedAt = .ok n ∧
      ack = {
        eventId := n.eventId
        deviceId := C.deviceId
        agentReceivedAt := received.receivedAt
        toastSubmittedAt := none
        status := "observed_by_agent".toList } := by
  obtain ⟨received, hreceived, hparsed⟩ := observed_source C ops h
  have hparse : tryParse C.libs received.payload received.receivedAt = .ok n := by
    unfold parsed at hparsed
    cases hp : tryParse C.libs received.payload received.receivedAt with
    | error e => simp [hp, Except.toOption] at hparsed
    | ok n' => simpa [hp, Except.toOption] using hparsed
  refine ⟨received, hreceived, hparse, ?_⟩
  rw [observed_run C ops n ack ok h, ← tryParse_receivedAt hparse]
  rfl

/-- **The acks.** An observed ack carries the id of the accepted event it is for, and the time at which that was
received; the log of each render says that it did what it should; and the events that got a submitted ack have been
rendered and had got an observed ack, those passed the cache, and those were accepted, each counted as often. As this
holds after every run, it holds at each point of a run. -/
theorem csharp_acknowledgements (C : Config) (ops : List (Op ReceivedEvent WorkLabel EnvLabel)) :
    (∀ n ack ok, .observed n ack ok ∈ (after C ops).log →
      ∃ received ∈ (after C ops).accepted, tryParse C.libs received.payload received.receivedAt = .ok n ∧
        ack = {
          eventId := n.eventId
          deviceId := C.deviceId
          agentReceivedAt := received.receivedAt
          toastSubmittedAt := none
          status := "observed_by_agent".toList }) ∧
    Renders C (after C ops) ∧
    tally submittedOf (after C ops).log ≤ batches (after C ops).shared.renders ∧
    batches (after C ops).shared.renders ≤ tally (reaches .observed) (after C ops).log ∧
    tally (reaches .observed) (after C ops).log ≤ tally (reaches .passed) (after C ops).log ∧
    tally (reaches .passed) (after C ops).log ≤ tally (arrival C) (after C ops).accepted := by
  refine ⟨fun n ack ok h => observed_data C ops h, reported_run C ops, ?_, batches_le_observed C ops,
    observed_le_passed C ops, passed_le_accepted C ops⟩
  rw [← sent_run]
  exact sent_le_batches C ops

end NotifyAgent.CSharpAcks
