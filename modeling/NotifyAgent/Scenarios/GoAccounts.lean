/-
The accounts of the Go agent: where the events are that `TryEnqueue` accepted, at every point of every run. Events are
counted by value, with their time of receipt.

- `add_balance`: what `Add` is given is held, rendered, or dropped on record;
- `weights_balanced`: for each milestone of an event's way through a worker, what has reached it and where that is now;
- `go_conservation`: nothing accepted is lost without a record, nothing is invented, and refused payloads are counted.
-/
import Mathlib.Tactic
import NotifyAgent.Core.GoAgent

namespace NotifyAgent.GoAccounts

open NotifyAgent.Text NotifyAgent.Go NotifyAgent.GoAgent
open NotifyAgent.Notification (DateTime Segmentation)
open NotifyAgent.Lib.Ledger
open NotifyAgent.Lib.Machine (run)
open NotifyAgent.Lib.WorkerPool (Worker Weights Balanced Op St step init offers offers_run settled_run queue_bounded
  run_inv_trans log_run)

abbrev Events := Multiset InboundNotification

variable {C : Config} {s s' : Shared}

/-- the agent after the given operations, in that order -/
def after (C : Config) (ops : List (Op QueueItem WorkLabel EnvLabel)) : St QueueItem Shared Job Event :=
  run (step (program C)) (init C.workerCount (start C)) ops

/-! ## What the aggregator holds -/

def bucketEvents (b : Bucket) : Events := b.events

/-- the buckets that `Flush` has taken and not yet rendered -/
def pendingOf : Stage → List Bucket
  | .flushing _ pending | .rendering _ _ pending => pending
  | _ => []

def held (s : Shared) : Events := holdings bucketEvents s.agg.buckets + tally bucketEvents (pendingOf s.stage)

def batches (renders : List Render) : Events := tally (fun r => (r.batch : Events)) renders

/-- the event that the aggregator lets go -/
def dropped : Event → Events
  | .overflow event => {event}
  | .replaced gone _ => {gone}
  | _ => 0

theorem tally_replaced (event : InboundNotification) (gone : List InboundNotification) :
    tally dropped (gone.map fun old => Event.replaced old event) = (gone : Events) :=
  tally_map_singleton (g := fun old => Event.replaced old event) (fun _ => rfl) gone

/-- **`Add` balances.** -/
theorem add_balance (a : Aggregator) (event : InboundNotification) (origin : Origin) :
    holdings bucketEvents a.buckets + {event} =
      holdings bucketEvents (a.add event).1.buckets + batches (renders origin (a.add event).2) +
        tally dropped (addEvents a event) := by
  rcases added_cases a event with ⟨_, h, he⟩ | ⟨_, b, hl, h, he⟩ | ⟨_, h, he⟩ | ⟨_, hl, h, he⟩ <;> rw [h, he]
  · simp [renders, called, batches]
  · have hrep := holdings_replace bucketEvents { b with events := appendEvent b.events event } hl
    have hevents : bucketEvents b + {event} = bucketEvents { b with events := appendEvent b.events event } +
        tally dropped (if event.classification.replaceable then b.events.map (.replaced · event) else []) := by
      simp only [appendEvent, bucketEvents]
      split_ifs
      · rw [tally_replaced, add_comm]
        rfl
      · rw [tally_nil, add_zero]
        rfl
    apply add_right_cancel (b := bucketEvents b)
    simp only [renders, batches, Option.toList, List.map_nil, tally_nil, add_zero]
    calc holdings bucketEvents a.buckets + {event} + bucketEvents b
        = holdings bucketEvents a.buckets + (bucketEvents b + {event}) := by abel
      _ = _ := by
        rw [hevents, ← add_assoc, ← hrep]
        abel
  · simp [renders, batches, dropped]
  · rw [holdings_insert bucketEvents _ hl]
    simp [renders, batches, bucketEvents, add_comm]

/-- what is rendered of a bucket is what was in it -/
theorem batches_batch (origin : Origin) (b : Bucket) : batches (renders origin b.batch) = bucketEvents b := by
  unfold Bucket.batch bucketEvents renders batches
  split_ifs with h
  · rw [List.length_eq_zero_iff.1 h]
    rfl
  · simp [called]

/-- **A timer balances.** -/
theorem fire_balance (a : Aggregator) (key : BucketKey) :
    holdings bucketEvents a.buckets =
      holdings bucketEvents (a.fire key).1.buckets + batches (renders .timer (a.fire key).2) := by
  rcases a.fire_cases key with ⟨_, h⟩ | ⟨b, hl, h⟩
  · rw [h]
    simp [renders, batches]
  · rw [h, batches_batch, holdings_erase bucketEvents hl, add_comm]

theorem batches_set {renders : List Render} {i : ℕ} {r r' : Render} (hr : renders[i]? = some r)
    (hbatch : r'.batch = r.batch) : batches (renders.set i r') = batches renders :=
  tally_set_same _ hr (by rw [hbatch])

/-! ## Milestones -/

inductive Milestone where
  | accepted
  /-- parsed, and new to the cache -/
  | passed
  /-- the observed ack is published, or was tried -/
  | observed
deriving DecidableEq, Repr

/-- the event that the payload parses to -/
def arrival (C : Config) (item : QueueItem) : Events := ((stamped C item).toList : Events)

/-- the event that a worker carries beyond the milestone -/
def beyond (C : Config) : Milestone → Job → Events
  | .accepted, .received item => arrival C item
  | .accepted, .first event | .passed, .first event => {event}
  | _, .observed event => {event}
  | _, _ => 0

/-- the event that the log entry takes to the milestone -/
def reaches : Milestone → Event → Events
  | .passed, .passed event => {event}
  | .observed, .observed event _ _ => {event}
  | _, _ => 0

/-- what is lost beyond the milestone: dropped, in a panic, or suppressed as a duplicate -/
def lost (C : Config) : Milestone → Event → Events
  | .accepted, .suppressed event => {event}
  | k, .panicked job => beyond C k job
  | _, .overflow event => {event}
  | _, .replaced gone _ => {gone}
  | _, _ => 0

def weights (C : Config) (k : Milestone) : Weights QueueItem Shared Job Event InboundNotification where
  item := match k with
    | .accepted => arrival C
    | _ => 0
  job := beyond C k
  shared s := held s + batches s.renders
  gain := reaches k
  loss := lost C k

theorem mem_addEvents {a : Aggregator} {event : InboundNotification} {e : Event} (he : e ∈ addEvents a event) :
    e = .overflow event ∨ ∃ old, e = .replaced old event := by
  rcases added_cases a event with ⟨_, _, h⟩ | ⟨_, b, _, _, h⟩ | ⟨_, _, h⟩ | ⟨_, _, _, h⟩ <;> rw [h] at he
  · cases he
  · split_ifs at he
    · obtain ⟨old, _, rfl⟩ := List.mem_map.1 he
      exact Or.inr ⟨old, rfl⟩
    · cases he
  · exact Or.inl (List.mem_singleton.1 he)
  · cases he

/-- what `Add` lets go reaches no milestone -/
theorem addEvents_weight (C : Config) (k : Milestone) {a : Aggregator} {event : InboundNotification} {e : Event}
    (he : e ∈ addEvents a event) : reaches k e = 0 ∧ lost C k e = dropped e := by
  rcases mem_addEvents he with rfl | ⟨old, rfl⟩ <;> cases k <;> exact ⟨rfl, rfl⟩

theorem worked_balance (k : Milestone) {job : Job} {job' : Option Job} {events : List Event}
    (h : Worked C s job s' job' events) :
    (weights C k).shared s + (weights C k).job job + tally (weights C k).gain events =
      (weights C k).shared s' + (weights C k).next job' + tally (weights C k).loss events := by
  cases h with
  | rejected item error hparse =>
    refine Weights.moved rfl ?_
    cases k <;> simp [weights, beyond, reaches, lost, arrival, stamped, hparse, Except.toOption]
  | suppressed item event dedup hstamp =>
    refine Weights.moved rfl ?_
    cases k <;> simp [weights, beyond, reaches, lost, arrival, hstamp]
  | passed item event dedup hstamp =>
    refine Weights.moved rfl ?_
    cases k <;> simp [weights, beyond, reaches, lost, arrival, hstamp]
  | observed event ok =>
    refine Weights.moved rfl ?_
    cases k <;> simp [weights, beyond, reaches, lost]
  | added event next hnext =>
    refine Weights.handed ?_ (fun e he => (addEvents_weight C k he).1) ?_
    · rw [hnext]
      split_ifs
      · cases k <;> rfl
      · rfl
    · have hbeyond : (weights C k).job (.observed event) = {event} := by cases k <;> rfl
      have hlost : tally (weights C k).loss (addEvents s.agg event) = tally dropped (addEvents s.agg event) :=
        tally_congr fun e he => (addEvents_weight C k he).2
      rw [hbeyond, hlost]
      simp only [weights, held, batches, tally_append]
      calc holdings bucketEvents s.agg.buckets + tally bucketEvents (pendingOf s.stage) + batches s.renders + {event}
          = (holdings bucketEvents s.agg.buckets + {event}) + tally bucketEvents (pendingOf s.stage) +
              batches s.renders := by abel
        _ = _ := by
          rw [add_balance s.agg event .worker]
          simp only [batches]
          abel
  | rendered i r =>
    refine Weights.handed rfl (by simp) ?_
    cases k <;> simp [weights, beyond]
  | panicked job hjob =>
    refine Weights.moved rfl ?_
    cases k <;> simp [weights, reaches, lost]

/-- a render that goes on is still a render of its batch -/
theorem render_balance {k : Milestone} {i : ℕ} {r r' : Render} {e : Event} (hr : s.renders[i]? = some r)
    (hbatch : r'.batch = r.batch) (hreaches : reaches k e = 0) (hlost : lost C k e = 0) :
    (weights C k).shared s + tally (weights C k).gain [e] =
      (weights C k).shared { s with renders := s.renders.set i r' } + tally (weights C k).loss [e] :=
  Weights.quiet (congrArg (held s + ·) (batches_set hr hbatch)) hreaches hlost

theorem happened_balance (k : Milestone) {closed gone : Bool} {events : List Event}
    (h : Happened C s closed gone s' events) :
    (weights C k).shared s + tally (weights C k).gain events =
      (weights C k).shared s' + tally (weights C k).loss events := by
  cases h with
  | fired key =>
    simp only [weights, held, batches, tally_append, tally_nil, add_zero]
    rw [fire_balance s.agg key]
    simp only [batches]
    abel
  | shown i r toast submittedAt hr => exact render_balance hr rfl (by cases k <;> rfl) (by cases k <;> rfl)
  | showFailed i r hr => exact render_balance hr rfl (by cases k <;> rfl) (by cases k <;> rfl)
  | published i r event rest submittedAt ok hr => exact render_balance hr rfl (by cases k <;> rfl) (by cases k <;> rfl)
  | renderPanicked i r hr => exact render_balance hr rfl (by cases k <;> rfl) (by cases k <;> rfl)
  | swapped timedOut pending hstage hclosed hgone hpending =>
    have hswap : tally bucketEvents pending = holdings bucketEvents s.agg.buckets := by
      rw [tally_perm _ hpending]
      simp only [tally, holdings, List.map_map]
      rfl
    simp [weights, held, hstage, pendingOf, Aggregator.swap, hswap]
  | flushNext timedOut b pending batch hstage hbatch =>
    have hb := batches_batch .flush b
    rw [hbatch] at hb
    simp only [weights, held, hstage, pendingOf, tally_cons, ← hb, batches, tally_append, tally_nil, add_zero]
    abel
  | skipped timedOut b pending hstage hbatch =>
    have hb := batches_batch .flush b
    rw [hbatch] at hb
    simp only [weights, held, hstage, pendingOf, tally_cons, ← hb]
    simp [renders, batches]
  | flushed timedOut i pending r hstage => simp [weights, held, hstage, pendingOf]
  | closed timedOut hstage => simp [weights, held, hstage, pendingOf]

theorem weights_balanced (C : Config) (k : Milestone) : Balanced (program C) (weights C k) where
  take item := by cases k <;> rfl
  work _ _ _ _ _ _ h := worked_balance k (work_cases C _ h)
  env _ _ _ _ _ _ h := happened_balance k (env_cases C _ h)

theorem weights_start (C : Config) (k : Milestone) : (weights C k).shared (start C) = 0 := by
  simp [weights, start, held, pendingOf, batches, Aggregator.new]

/-! ## What is accepted -/

/-- what the workers carry beyond the milestone -/
def inHand (C : Config) (k : Milestone) (workers : List (Worker Job)) : Events := tally (weights C k).worker workers

/-- a payload that does not parse -/
def unreadable (C : Config) (item : QueueItem) : Multiset QueueItem := if stamped C item = none then {item} else 0

def unread (C : Config) : Job → Multiset QueueItem
  | .received item => unreadable C item
  | _ => 0

/-- a payload dropped with its error, or in a panic -/
def discarded (C : Config) : Event → Multiset QueueItem
  | .rejected item _ => {item}
  | .panicked job => unread C job
  | _ => 0

def payloadWeights (C : Config) : Weights QueueItem Shared Job Event QueueItem where
  item := unreadable C
  job := unread C
  shared _ := 0
  gain _ := 0
  loss := discarded C

theorem payloadWeights_balanced (C : Config) : Balanced (program C) (payloadWeights C) where
  take item := rfl
  work s job label s' job' events h := by
    cases work_cases C s h with
    | rejected item error hparse =>
      refine Weights.moved rfl ?_
      simp [payloadWeights, unread, unreadable, discarded, stamped, hparse, Except.toOption]
    | suppressed item event dedup hstamp =>
      refine Weights.moved rfl ?_
      simp [payloadWeights, unread, unreadable, discarded, hstamp]
    | passed item event dedup hstamp =>
      refine Weights.moved rfl ?_
      simp [payloadWeights, unread, unreadable, discarded, hstamp]
    | observed event ok => exact Weights.moved rfl rfl
    | added event next hnext =>
      refine Weights.handed ?_ (fun _ _ => rfl) ?_
      · rw [hnext]
        split_ifs <;> rfl
      · have hnone : tally (payloadWeights C).loss (addEvents s.agg event) = 0 := by
          apply tally_eq_zero
          intro e he
          rcases mem_addEvents he with rfl | ⟨old, rfl⟩ <;> rfl
        rw [hnone]
        rfl
    | rendered i r => exact Weights.handed rfl (by simp) rfl
    | panicked job hjob => exact Weights.moved rfl (by simp [payloadWeights, discarded])
  env closed gone s label s' events h := by
    cases env_cases C s h <;> rfl

/-- what the log says of the events rejected and dropped is what was done -/
structure Recorded (C : Config) (s : St QueueItem Shared Job Event) : Prop where
  rejected : ∀ item error, .rejected item error ∈ s.log → parse C.libs item.payload = .error error
  observed : ∀ event ack ok, .observed event ack ok ∈ s.log → ack = observedAck C event
  overflow : s.shared.agg.droppedBucketOverflow = s.log.countP (· matches .overflow _)

theorem addEvents_overflow (a : Aggregator) (event : InboundNotification) :
    (a.add event).1.droppedBucketOverflow =
      a.droppedBucketOverflow + (addEvents a event).countP (· matches .overflow _) := by
  rcases added_cases a event with ⟨_, h, he⟩ | ⟨_, b, _, h, he⟩ | ⟨_, h, he⟩ | ⟨_, _, h, he⟩ <;> rw [h, he]
  · rfl
  · rw [List.countP_eq_zero.2, add_zero]
    intro e hmem
    split_ifs at hmem
    · obtain ⟨old, _, rfl⟩ := List.mem_map.1 hmem
      exact Bool.false_ne_true
    · cases hmem
  · rfl
  · rfl

theorem fire_overflow (a : Aggregator) (key : BucketKey) :
    (a.fire key).1.droppedBucketOverflow = a.droppedBucketOverflow := by
  rcases a.fire_cases key with ⟨_, h⟩ | ⟨b, _, h⟩ <;> rw [h]

theorem overflow_run (C : Config) (ops : List (Op QueueItem WorkLabel EnvLabel)) :
    (after C ops).shared.agg.droppedBucketOverflow = (after C ops).log.countP (· matches .overflow _) := by
  let I : St QueueItem Shared Job Event → Prop := fun st =>
    st.shared.agg.droppedBucketOverflow = st.log.countP (· matches .overflow _)
  refine run_inv_trans (I := I) (fun s o s' h hs => ?_) rfl ops
  cases h with
  | worked w label job shared job' events hw hwork =>
    change _ = (s.log ++ events).countP _
    rw [List.countP_append, ← hs]
    cases work_cases C s.shared hwork with
    | added event next hnext => exact addEvents_overflow _ _
    | _ => rfl
  | env label shared events henv =>
    change _ = (s.log ++ events).countP _
    rw [List.countP_append, ← hs]
    cases env_cases C s.shared henv with
    | fired key => exact fire_overflow _ key
    | _ => rfl
  | _ => exact hs

/-- what a log entry says of a payload rejected, and of an event observed, is what was done -/
def Correct (C : Config) : Event → Prop
  | .rejected item error => parse C.libs item.payload = .error error
  | .observed event ack _ => ack = observedAck C event
  | _ => True

theorem correct_run (C : Config) (ops : List (Op QueueItem WorkLabel EnvLabel)) :
    ∀ e ∈ (after C ops).log, Correct C e := by
  refine log_run (fun s job label s' job' events h e he => ?_) (fun closed gone s label s' events h e he => ?_)
    C.workerCount (start C) ops
  · cases work_cases C s h with
    | rejected item error hparse => exact (List.mem_singleton.1 he) ▸ hparse
    | observed event ok =>
      rw [List.mem_singleton.1 he]
      rfl
    | added event next hnext => rcases mem_addEvents he with rfl | ⟨old, rfl⟩ <;> exact trivial
    | rendered => cases he
    | _ =>
      rw [List.mem_singleton.1 he]
      exact trivial
  · cases env_cases C s h with
    | shown | showFailed | published | renderPanicked =>
      rw [List.mem_singleton.1 he]
      exact trivial
    | _ => cases he

theorem recorded_run (C : Config) (ops : List (Op QueueItem WorkLabel EnvLabel)) : Recorded C (after C ops) where
  rejected _ _ h := correct_run C ops _ h
  observed _ _ _ h := correct_run C ops _ h
  overflow := overflow_run C ops

/-- **Where the events are.** -/
theorem accepted_run (C : Config) (ops : List (Op QueueItem WorkLabel EnvLabel)) :
    tally (arrival C) (after C ops).accepted =
      tally (arrival C) (after C ops).queue + inHand C .accepted (after C ops).workers + held (after C ops).shared +
        batches (after C ops).shared.renders + tally (lost C .accepted) (after C ops).log := by
  rw [add_assoc (tally (arrival C) (after C ops).queue + _)]
  exact settled_run (weights_balanced C .accepted) (fun e => by cases e <;> rfl) C.workerCount
    (weights_start C .accepted) ops

/-- **Where the payloads are that do not parse.** -/
theorem unread_run (C : Config) (ops : List (Op QueueItem WorkLabel EnvLabel)) :
    tally (unreadable C) (after C ops).accepted =
      tally (unreadable C) (after C ops).queue + tally (payloadWeights C).worker (after C ops).workers +
        tally (discarded C) (after C ops).log := by
  have hnone : ∀ s, (payloadWeights C).shared s = 0 := fun _ => rfl
  have h := settled_run (payloadWeights_balanced C) (fun _ => rfl) C.workerCount (hnone (start C)) ops
  rwa [hnone, add_zero] at h

/-- **Conservation.** At every point of every run: an event whose payload was accepted and parses is in the queue, in a
worker's hand, in a bucket (of the map, or taken by `Flush`), in the batch of one render, or on record as a duplicate,
as dropped for want of a bucket, as replaced, or as lost in a panic. A payload that does not parse is in the queue or in
hand, or on record with its error or as lost in a panic. Refused payloads and bucket overflows are counted, and the
queue is bounded. -/
theorem go_conservation (C : Config) (ops : List (Op QueueItem WorkLabel EnvLabel)) :
    tally (arrival C) (after C ops).accepted =
      tally (arrival C) (after C ops).queue + inHand C .accepted (after C ops).workers + held (after C ops).shared +
        batches (after C ops).shared.renders + tally (lost C .accepted) (after C ops).log ∧
    tally (unreadable C) (after C ops).accepted =
      tally (unreadable C) (after C ops).queue + tally (payloadWeights C).worker (after C ops).workers +
        tally (discarded C) (after C ops).log ∧
    Recorded C (after C ops) ∧
    (after C ops).accepted.length + (after C ops).refused = (offers ops).length ∧
    (after C ops).queue.length ≤ C.queueCapacity :=
  ⟨accepted_run C ops, unread_run C ops, recorded_run C ops, offers_run _ _ _ ops, queue_bounded _ _ _ ops⟩

end NotifyAgent.GoAccounts
