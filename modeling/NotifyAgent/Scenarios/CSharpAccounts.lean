/-
The accounts of the C# agent: where the events are that `TryEnqueue` accepted, at every point of every run. Events are
counted by value, with their time of receipt.

- `add_balance`, `flush_balance`: what `AddAsync` is given and `Flush` takes is held, rendered, or dropped on record;
- `weights_balanced`: for each milestone of an event's way through a worker, what has reached it and where that is now;
- `csharp_conservation`: nothing accepted is lost without a record, nothing is invented, and refused payloads are
  counted.
-/
import Mathlib.Tactic
import NotifyAgent.Core.CSharpAgent

namespace NotifyAgent.CSharpAccounts

open NotifyAgent.Text NotifyAgent.CSharp NotifyAgent.CSharpAgent
open NotifyAgent.Notification (DateTime Segmentation)
open NotifyAgent.Lib.Ledger
open NotifyAgent.Lib.Machine (run)
open NotifyAgent.Lib.WorkerPool (Worker Weights Balanced Op St step init offers offers_run settled_run queue_bounded
  run_inv_trans)

abbrev Events := Multiset InboundNotification

variable {C : Config} {s s' : Shared}

/-- the agent after the given operations, in that order -/
def after (C : Config) (ops : List (Op ReceivedEvent WorkLabel EnvLabel)) : St ReceivedEvent Shared Job Event :=
  run (step (program C)) (init C.workerCount (start C)) ops

/-! ## What the aggregator holds -/

def bucketEvents (bucket : Bucket) : Events := bucket.events

def held (s : Shared) : Events := holdings bucketEvents s.aggregator.buckets

def batches (renders : List Render) : Events := tally (fun r => (r.toast.sources : Events)) renders

/-- the event that the aggregator lets go -/
def dropped : Event → Events
  | .overflow n => {n}
  | .replaced gone _ => {gone}
  | _ => 0

theorem tally_replaced (n : InboundNotification) (gone : List InboundNotification) :
    tally dropped (gone.map (Event.replaced · n)) = (gone : Events) :=
  tally_map_singleton (g := (Event.replaced · n)) (fun _ => rfl) gone

theorem fromBatch_sources {G : Segmentation} {batch : List InboundNotification} {toast : ToastRequest}
    (h : fromBatch G batch = some toast) : toast.sources = batch := by
  unfold fromBatch at h
  split at h
  · cases h
  · cases h
    rfl
  · obtain ⟨latest, _, rfl⟩ := Option.map_eq_some_iff.1 h
    rfl

theorem batches_called (awaited : Bool) (toast : ToastRequest) :
    batches (renders awaited (some toast)) = toast.sources := by
  simp [batches, renders, called]

/-- **`AddAsync` balances.** -/
theorem add_balance (G : Segmentation) (a : Aggregator) (n : InboundNotification) :
    holdings bucketEvents a.buckets + {n} =
      holdings bucketEvents (a.addAsync G n).1.buckets + batches (renders true (a.addAsync G n).2) +
        tally dropped (addEvents a n) := by
  rcases added_cases G a n with
    ⟨_, h, he⟩ | ⟨_, bucket, hl, h, he⟩ | ⟨_, h, he⟩ | ⟨_, hl, ⟨timer, h⟩, he⟩ <;> rw [h, he]
  · rw [batches_called, tally_nil, add_zero]
    rfl
  · have hrep := holdings_replace bucketEvents { bucket with events := addEvent bucket.events n } hl
    have hevents : bucketEvents bucket + {n} = bucketEvents { bucket with events := addEvent bucket.events n } +
        tally dropped (if n.replaceable then bucket.events.map (.replaced · n) else []) := by
      simp only [addEvent, bucketEvents]
      split_ifs
      · rw [tally_replaced, add_comm]
        rfl
      · rw [tally_nil, add_zero]
        rfl
    apply add_right_cancel (b := bucketEvents bucket)
    simp only [renders, batches, Option.toList, List.map_nil, tally_nil, add_zero]
    calc holdings bucketEvents a.buckets + {n} + bucketEvents bucket
        = holdings bucketEvents a.buckets + (bucketEvents bucket + {n}) := by abel
      _ = _ := by
        rw [hevents, ← add_assoc, ← hrep]
        abel
  · simp [renders, batches, dropped]
  · rw [holdings_insert bucketEvents _ hl]
    simp [renders, batches, bucketEvents, add_comm]

/-- what is rendered of a bucket is what was in it -/
theorem batches_toast (G : Segmentation) (bucket : Bucket) :
    batches (renders false (bucket.toast G)) = bucketEvents bucket := by
  unfold Bucket.toast bucketEvents
  match hevents : bucket.events with
  | [] => rfl
  | n :: rest =>
    rw [if_pos (by simp)]
    cases ht : fromBatch G (n :: rest) with
    | none =>
      cases rest <;> simp [fromBatch] at ht
    | some toast => rw [batches_called, fromBatch_sources ht]

/-- **`Flush` balances.** -/
theorem flush_balance (C : Config) (s : Shared) (key : BucketKey) :
    held s + batches s.renders = held (flushed C s key) + batches (flushed C s key).renders := by
  rcases s.aggregator.flush_cases C.segmentation key with ⟨_, hf⟩ | ⟨bucket, hl, hf⟩
  · simp [flushed, hf, renders, held]
  · have htoast := batches_toast C.segmentation bucket
    simp only [held, flushed, batches, hf, tally_append] at htoast ⊢
    rw [holdings_erase bucketEvents hl, htoast]
    abel

theorem batches_set {renders : List Render} {i : ℕ} {r r' : Render} (hr : renders[i]? = some r)
    (htoast : r'.toast = r.toast) : batches (renders.set i r') = batches renders :=
  tally_set_same _ hr (by rw [htoast])

/-! ## Milestones -/

inductive Milestone where
  | accepted
  /-- parsed, and new to the cache -/
  | passed
  /-- the observed ack is published -/
  | observed
deriving DecidableEq, Repr

/-- the event that the payload parses to -/
def arrival (C : Config) (received : ReceivedEvent) : Events := ((parsed C received).toList : Events)

/-- the event that a worker carries beyond the milestone -/
def beyond (C : Config) : Milestone → Job → Events
  | .accepted, .received received => arrival C received
  | .accepted, .fresh n | .passed, .fresh n => {n}
  | _, .observed n => {n}
  | _, _ => 0

/-- the event that the log entry takes to the milestone -/
def reaches : Milestone → Event → Events
  | .passed, .passed n => {n}
  | .observed, .observed n _ true => {n}
  | _, _ => 0

/-- what is lost beyond the milestone: dropped, in an exception, or suppressed as a duplicate; an event whose observed
ack fails is lost before it is observed -/
def lost (C : Config) : Milestone → Event → Events
  | .accepted, .suppressed n => {n}
  | .accepted, .observed n _ false | .passed, .observed n _ false => {n}
  | k, .threw job => beyond C k job
  | _, .overflow n => {n}
  | _, .replaced gone _ => {gone}
  | _, _ => 0

def weights (C : Config) (k : Milestone) : Weights ReceivedEvent Shared Job Event InboundNotification where
  item := match k with
    | .accepted => arrival C
    | _ => 0
  job := beyond C k
  shared s := held s + batches s.renders
  gain := reaches k
  loss := lost C k

theorem mem_addEvents {a : Aggregator} {n : InboundNotification} {e : Event} (he : e ∈ addEvents a n) :
    e = .overflow n ∨ ∃ old, e = .replaced old n := by
  unfold addEvents at he
  split at he
  · cases he
  · split at he
    · split_ifs at he
      · obtain ⟨old, _, rfl⟩ := List.mem_map.1 he
        exact Or.inr ⟨old, rfl⟩
      · cases he
    · split_ifs at he
      · exact Or.inl (List.mem_singleton.1 he)
      · cases he

/-- what `AddAsync` lets go reaches no milestone -/
theorem addEvents_weight (C : Config) (k : Milestone) {a : Aggregator} {n : InboundNotification} {e : Event}
    (he : e ∈ addEvents a n) : reaches k e = 0 ∧ lost C k e = dropped e := by
  rcases mem_addEvents he with rfl | ⟨old, rfl⟩ <;> cases k <;> exact ⟨rfl, rfl⟩

theorem worked_balance (k : Milestone) {job : Job} {job' : Option Job} {events : List Event}
    (h : Worked C s job s' job' events) :
    (weights C k).shared s + (weights C k).job job + tally (weights C k).gain events =
      (weights C k).shared s' + (weights C k).next job' + tally (weights C k).loss events := by
  cases h with
  | rejected received error hparse =>
    refine Weights.moved rfl ?_
    cases k <;> simp [weights, beyond, reaches, lost, arrival, parsed, hparse, Except.toOption]
  | suppressed received n dedup hparsed =>
    refine Weights.moved rfl ?_
    cases k <;> simp [weights, beyond, reaches, lost, arrival, hparsed]
  | passed received n dedup hparsed =>
    refine Weights.moved rfl ?_
    cases k <;> simp [weights, beyond, reaches, lost, arrival, hparsed]
  | observed n =>
    refine Weights.moved rfl ?_
    cases k <;> simp [weights, beyond, reaches, lost]
  | unobserved n =>
    refine Weights.moved rfl ?_
    cases k <;> simp [weights, beyond, reaches, lost]
  | added n next hnext =>
    refine Weights.handed ?_ (fun e he => (addEvents_weight C k he).1) ?_
    · rw [hnext]
      split_ifs
      · cases k <;> rfl
      · rfl
    · have hbeyond : (weights C k).job (.observed n) = {n} := by cases k <;> rfl
      have hlost : tally (weights C k).loss (addEvents s.aggregator n) = tally dropped (addEvents s.aggregator n) :=
        tally_congr fun e he => (addEvents_weight C k he).2
      rw [hbeyond, hlost]
      simp only [weights, held, batches, tally_append]
      calc holdings bucketEvents s.aggregator.buckets + batches s.renders + {n}
          = (holdings bucketEvents s.aggregator.buckets + {n}) + batches s.renders := by abel
        _ = _ := by
          rw [add_balance C.segmentation s.aggregator n]
          simp only [batches]
          abel
  | rendered i r =>
    refine Weights.handed rfl (by simp) ?_
    cases k <;> simp [weights, beyond]
  | threw job hjob =>
    refine Weights.moved rfl ?_
    cases k <;> simp [weights, reaches, lost]

/-- a render that goes on is still a render of its toast -/
theorem render_balance {k : Milestone} {i : ℕ} {r r' : Render} {e : Event} (hr : s.renders[i]? = some r)
    (htoast : r'.toast = r.toast) (hreaches : reaches k e = 0) (hlost : lost C k e = 0) :
    (weights C k).shared s + tally (weights C k).gain [e] =
      (weights C k).shared { s with renders := s.renders.set i r' } + tally (weights C k).loss [e] :=
  Weights.quiet (congrArg (held s + ·) (batches_set hr htoast)) hreaches hlost

theorem happened_balance (k : Milestone) {closed gone : Bool} {events : List Event}
    (h : Happened C s closed gone s' events) :
    (weights C k).shared s + tally (weights C k).gain events =
      (weights C k).shared s' + tally (weights C k).loss events := by
  cases h with
  | fired key => exact congrArg (· + 0) (flush_balance C s key)
  | flushNext key keys hstage => exact congrArg (· + 0) (flush_balance C s key)
  | shown i r submittedAt hr => exact render_balance hr rfl (by cases k <;> rfl) (by cases k <;> rfl)
  | showFailed i r hr => exact render_balance hr rfl (by cases k <;> rfl) (by cases k <;> rfl)
  | published i r n rest submittedAt hr => exact render_balance hr rfl (by cases k <;> rfl) (by cases k <;> rfl)
  | unpublished i r n rest submittedAt hr => exact render_balance hr rfl (by cases k <;> rfl) (by cases k <;> rfl)
  | disposing keys => rfl
  | disposed hstage => rfl

theorem weights_balanced (C : Config) (k : Milestone) : Balanced (program C) (weights C k) where
  take received := by cases k <;> rfl
  work _ _ _ _ _ _ h := worked_balance k (work_cases C _ h)
  env _ _ _ _ _ _ h := happened_balance k (env_cases C _ h)

theorem weights_start (C : Config) (k : Milestone) : (weights C k).shared (start C) = 0 := by
  simp [weights, start, held, batches, Aggregator.new]

/-! ## What is accepted -/

/-- what the workers carry beyond the milestone -/
def inHand (C : Config) (k : Milestone) (workers : List (Worker Job)) : Events := tally (weights C k).worker workers

/-- a payload that does not parse -/
def unreadable (C : Config) (received : ReceivedEvent) : Multiset ReceivedEvent :=
  if parsed C received = none then {received} else 0

def unread (C : Config) : Job → Multiset ReceivedEvent
  | .received received => unreadable C received
  | _ => 0

/-- a payload dropped with its error, or in an exception -/
def discarded (C : Config) : Event → Multiset ReceivedEvent
  | .rejected received _ => {received}
  | .threw job => unread C job
  | _ => 0

def payloadWeights (C : Config) : Weights ReceivedEvent Shared Job Event ReceivedEvent where
  item := unreadable C
  job := unread C
  shared _ := 0
  gain _ := 0
  loss := discarded C

theorem payloadWeights_balanced (C : Config) : Balanced (program C) (payloadWeights C) where
  take received := rfl
  work s job label s' job' events h := by
    cases work_cases C s h with
    | rejected received error hparse =>
      refine Weights.moved rfl ?_
      simp [payloadWeights, unread, unreadable, discarded, parsed, hparse, Except.toOption]
    | suppressed received n dedup hparsed =>
      refine Weights.moved rfl ?_
      simp [payloadWeights, unread, unreadable, discarded, hparsed]
    | passed received n dedup hparsed =>
      refine Weights.moved rfl ?_
      simp [payloadWeights, unread, unreadable, discarded, hparsed]
    | observed n => exact Weights.moved rfl rfl
    | unobserved n => exact Weights.moved rfl rfl
    | added n next hnext =>
      refine Weights.handed ?_ (fun _ _ => rfl) ?_
      · rw [hnext]
        split_ifs <;> rfl
      · have hnone : tally (payloadWeights C).loss (addEvents s.aggregator n) = 0 := by
          apply tally_eq_zero
          intro e he
          rcases mem_addEvents he with rfl | ⟨old, rfl⟩ <;> rfl
        rw [hnone]
        rfl
    | rendered i => exact Weights.handed rfl (by simp) rfl
    | threw job hjob => exact Weights.moved rfl (by simp [payloadWeights, discarded])
  env closed gone s label s' events h := by
    cases env_cases C s h <;> rfl

/-- **Where the events are.** -/
theorem accepted_run (C : Config) (ops : List (Op ReceivedEvent WorkLabel EnvLabel)) :
    tally (arrival C) (after C ops).accepted =
      tally (arrival C) (after C ops).queue + inHand C .accepted (after C ops).workers + held (after C ops).shared +
        batches (after C ops).shared.renders + tally (lost C .accepted) (after C ops).log := by
  rw [add_assoc (tally (arrival C) (after C ops).queue + _)]
  exact settled_run (weights_balanced C .accepted) (fun e => by cases e <;> rfl) C.workerCount
    (weights_start C .accepted) ops

/-- **Where the payloads are that do not parse.** -/
theorem unread_run (C : Config) (ops : List (Op ReceivedEvent WorkLabel EnvLabel)) :
    tally (unreadable C) (after C ops).accepted =
      tally (unreadable C) (after C ops).queue + tally (payloadWeights C).worker (after C ops).workers +
        tally (discarded C) (after C ops).log := by
  have hnone : ∀ s, (payloadWeights C).shared s = 0 := fun _ => rfl
  have h := settled_run (payloadWeights_balanced C) (fun _ => rfl) C.workerCount (hnone (start C)) ops
  rwa [hnone, add_zero] at h

/-- **Conservation.** At every point of every run: an event whose payload was accepted and parses is in the channel, in
a worker's hand, in a bucket, a source of one render's toast, or on record as a duplicate, as dropped for want of a
bucket, as replaced, or as lost with its observed ack or in another exception. A payload that does not parse is in the
channel or in hand, or on record with its error or as lost in an exception. Refused payloads are counted, and the
channel is bounded. -/
theorem csharp_conservation (C : Config) (ops : List (Op ReceivedEvent WorkLabel EnvLabel)) :
    tally (arrival C) (after C ops).accepted =
      tally (arrival C) (after C ops).queue + inHand C .accepted (after C ops).workers + held (after C ops).shared +
        batches (after C ops).shared.renders + tally (lost C .accepted) (after C ops).log ∧
    tally (unreadable C) (after C ops).accepted =
      tally (unreadable C) (after C ops).queue + tally (payloadWeights C).worker (after C ops).workers +
        tally (discarded C) (after C ops).log ∧
    (after C ops).accepted.length + (after C ops).refused = (offers ops).length ∧
    (after C ops).queue.length ≤ C.queueCapacity :=
  ⟨accepted_run C ops, unread_run C ops, offers_run _ _ _ ops, queue_bounded _ _ _ ops⟩

end NotifyAgent.CSharpAccounts
