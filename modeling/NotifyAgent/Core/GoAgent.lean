/-
The running Go agent (`internal/host` with `internal/pipeline`, `internal/aggregator` and `internal/dedup`) as a worker
pool: intake queue, workers, window timers, renders and `Shutdown`, interleaved in any order.

A worker parses an event and offers its key to the cache, publishes the observed ack, and adds the event to the
aggregator; a critical event is rendered by the worker itself. A timer may fire for any key at any time and renders what
it finds. A panic costs the worker its event, and a render the rest of its work; nothing else. `Shutdown` cancels the
workers, waits for them or for its deadline, and flushes the aggregator, rendering bucket by bucket.

Ghost state besides that of the pool: a render keeps the events it has sent a submitted ack for.

- `added_cases`: what `Add` does and what is recorded of it;
- `work_cases`, `env_cases`: everything a step of a worker, and everything a step of the rest, can do.
-/
import Mathlib.Tactic
import NotifyAgent.Core.Dedup
import NotifyAgent.Core.HeadAggregators
import NotifyAgent.Core.HeadParsers
import NotifyAgent.Lib.WorkerPool

namespace NotifyAgent.GoAgent

open NotifyAgent.Text NotifyAgent.Go
open NotifyAgent.Notification (DateTime Segmentation)
open NotifyAgent.Lib.Ledger
open NotifyAgent.Lib.WorkerPool (Program)

/-! ## Data -/

/-- `queueItem` -/
structure QueueItem where
  payload : List UInt8
  receivedAt : DateTime
deriving DecidableEq, Repr

/-- `telemetry.Ack` -/
structure Ack where
  eventID : Str
  deviceID : Str
  agentReceivedAt : DateTime
  toastSubmittedAt : Option DateTime
  status : Str
deriving DecidableEq, Repr

def statusObservedByAgent : Str := "observed_by_agent".toList

def statusSubmittedToWindows : Str := "submitted_to_windows".toList

structure Config where
  queueCapacity : ℕ
  workerCount : ℕ
  dedupCapacity : ℕ
  dedupTTL : ℤ
  aggregator : Options
  libs : Libs
  segmentation : Segmentation
  deviceID : Str

/-- who called `render` -/
inductive Origin where
  | worker
  | timer
  | flush
deriving DecidableEq, Repr

inductive Phase where
  /-- in `renderer.Show` -/
  | showing
  /-- the acks that are still to be published -/
  | publishing (rest : List InboundNotification)
  | over
deriving DecidableEq, Repr

/-- one call of `Host.render` -/
structure Render where
  origin : Origin
  batch : List InboundNotification
  phase : Phase
  /-- what `Show` returned, if it returned no error -/
  submittedAt : Option DateTime
  /-- ghost: the events whose ack has been published or tried -/
  sent : List InboundNotification
deriving DecidableEq, Repr

/-- what a worker has in hand -/
inductive Job where
  | received (item : QueueItem)
  /-- parsed, and new to the cache -/
  | first (event : InboundNotification)
  /-- the observed ack is published, and `Add` is next -/
  | observed (event : InboundNotification)
  /-- in `safeRender` -/
  | rendering (i : ℕ)
deriving DecidableEq, Repr

/-- `Host.Shutdown` after `cancel`; `timedOut` says that it has stopped waiting for the workers -/
inductive Stage where
  | running
  | flushing (timedOut : Bool) (pending : List Bucket)
  | rendering (timedOut : Bool) (i : ℕ) (pending : List Bucket)
  | closed (timedOut : Bool)
deriving DecidableEq, Repr

inductive Event where
  | rejected (item : QueueItem) (error : Str)
  | suppressed (event : InboundNotification)
  | passed (event : InboundNotification)
  /-- a publish attempt, and whether it returned no error -/
  | observed (event : InboundNotification) (ack : Ack) (ok : Bool)
  | panicked (job : Job)
  | overflow (event : InboundNotification)
  /-- a replaceable event clears its bucket of another -/
  | replaced (gone event : InboundNotification)
  | shown (i : ℕ) (toast : ToastRequest) (submittedAt : DateTime)
  | showFailed (i : ℕ)
  | submitted (i : ℕ) (event : InboundNotification) (ack : Ack) (ok : Bool)
  | renderPanicked (i : ℕ)

/-- what the goroutines share -/
structure Shared where
  dedup : Dedup.Inner Str
  agg : Aggregator
  renders : List Render
  stage : Stage

inductive WorkLabel where
  /-- the clock reading of `SeenOrAdd` -/
  | process (now : DateTime)
  | publish (ok : Bool)
  | add
  /-- the render is over -/
  | rendered
  | panic

inductive EnvLabel where
  | fire (key : BucketKey)
  /-- `Show` returns -/
  | shown (i : ℕ) (submittedAt : Option DateTime)
  | publish (i : ℕ) (ok : Bool)
  | renderPanic (i : ℕ)
  /-- `Flush` swaps the map; it will range over the buckets in this order -/
  | flush (timedOut : Bool) (pending : List Bucket)
  | flushNext
  | flushed
  | close

/-! ## The program -/

section
variable (C : Config)

/-- `parser.Parse`, with the stamp that `process` sets -/
def stamped (item : QueueItem) : Option InboundNotification :=
  (parse C.libs item.payload).toOption.map fun event => { event with agentReceivedAt := item.receivedAt }

/-- the ack of `onObserved` -/
def observedAck (event : InboundNotification) : Ack where
  eventID := event.eventID
  deviceID := C.deviceID
  agentReceivedAt := event.agentReceivedAt
  toastSubmittedAt := none
  status := statusObservedByAgent

/-- the ack of `render` -/
def submittedAck (submittedAt : DateTime) (event : InboundNotification) : Ack where
  eventID := event.eventID
  deviceID := C.deviceID
  agentReceivedAt := event.agentReceivedAt
  toastSubmittedAt := some submittedAt
  status := statusSubmittedToWindows

/-- a call of `Host.render` on what there is to render; `FromBatch` panics on an empty batch only -/
def called (origin : Origin) (batch : List InboundNotification) : Render :=
  ⟨origin, batch, if batch = [] then .over else .showing, none, []⟩

def renders (origin : Origin) (batch : Option (List InboundNotification)) : List Render :=
  batch.toList.map (called origin)

/-- what `Add` records -/
def addEvents (a : Aggregator) (event : InboundNotification) : List Event :=
  if event.classification.priority = .critical then []
  else
    match a.buckets.lookup (bucketKey event) with
    | some b => if event.classification.replaceable then b.events.map fun old => .replaced old event else []
    | none => if (a.buckets.keys.length : ℤ) ≥ a.opts.maxBuckets then [.overflow event] else []

/-- a step of `process` -/
def work (s : Shared) : Job → WorkLabel → Option (Shared × Option Job × List Event)
  | .received item, .process now =>
    match parse C.libs item.payload with
    | .error error => some (s, none, [.rejected item error])
    | .ok event =>
      let stamp := { event with agentReceivedAt := item.receivedAt }
      match Dedup.seenOrAdd C.dedupCapacity C.dedupTTL s.dedup now event.classification.deduplicationKey with
      | some (dedup, true) => some ({ s with dedup := dedup }, none, [.suppressed stamp])
      | some (dedup, false) => some ({ s with dedup := dedup }, some (.first stamp), [.passed stamp])
      | none => none
  | .first event, .publish ok => some (s, some (.observed event), [.observed event (observedAck C event) ok])
  | .observed event, .add =>
    some ({ s with
        agg := (s.agg.add event).1
        renders := s.renders ++ renders .worker (s.agg.add event).2 },
      if event.classification.priority = .critical then some (.rendering s.renders.length) else none,
      addEvents s.agg event)
  | .rendering i, .rendered =>
    match s.renders[i]? with
    | some r => if r.phase = .over then some (s, none, []) else none
    | none => none
  | .rendering _, .panic => none
  | job, .panic => some (s, none, [.panicked job])
  | _, _ => none

/-- a render takes a step -/
def rendered (s : Shared) (i : ℕ) (r : Render) (events : List Event) : Shared × List Event :=
  ({ s with renders := s.renders.set i r }, events)

/-- a step of a timer, of a running render, or of `Shutdown` -/
def env (closed gone : Bool) (s : Shared) : EnvLabel → Option (Shared × List Event)
  | .fire key =>
    some ({ s with
      agg := (s.agg.fire key).1
      renders := s.renders ++ renders .timer (s.agg.fire key).2 }, [])
  | .shown i submittedAt =>
    match s.renders[i]? with
    | some r =>
      if r.phase = .showing then
        match submittedAt with
        | none => some (rendered s i { r with phase := .over } [.showFailed i])
        | some at' =>
          (fromBatch C.segmentation r.batch).map fun toast =>
            rendered s i { r with phase := .publishing r.batch, submittedAt := some at' } [.shown i toast at']
      else none
    | none => none
  | .publish i ok =>
    match s.renders[i]? with
    | some r =>
      match r.phase, r.submittedAt with
      | .publishing (event :: rest), some at' =>
        some (rendered s i
          { r with phase := if rest = [] then .over else .publishing rest, sent := r.sent ++ [event] }
          [.submitted i event (submittedAck C at' event) ok])
      | _, _ => none
    | none => none
  | .renderPanic i =>
    match s.renders[i]? with
    | some r => if r.phase = .over then none else some (rendered s i { r with phase := .over } [.renderPanicked i])
    | none => none
  | .flush timedOut pending =>
    if s.stage = .running ∧ closed = true ∧ (gone = true ∨ timedOut = true) ∧
        pending.Perm (s.agg.buckets.entries.map Sigma.snd) then
      some ({ s with agg := s.agg.swap.1, stage := .flushing timedOut pending }, [])
    else none
  | .flushNext =>
    match s.stage with
    | .flushing timedOut (b :: pending) =>
      match b.batch with
      | some batch =>
        some ({ s with
          renders := s.renders ++ renders .flush (some batch)
          stage := .rendering timedOut s.renders.length pending }, [])
      | none => some ({ s with stage := .flushing timedOut pending }, [])
    | _ => none
  | .flushed =>
    match s.stage with
    | .rendering timedOut i pending =>
      match s.renders[i]? with
      | some r => if r.phase = .over then some ({ s with stage := .flushing timedOut pending }, []) else none
      | none => none
    | _ => none
  | .close =>
    match s.stage with
    | .flushing timedOut [] => some ({ s with stage := .closed timedOut }, [])
    | _ => none

/-- the Go agent as a pool: `TryEnqueue` goes on taking items, and a cancelled worker leaves whatever is queued -/
def program : Program QueueItem Shared Job Event WorkLabel EnvLabel where
  capacity := C.queueCapacity
  takesClosed := true
  leavesItems := true
  take := .received
  work := work C
  env := env C

/-- the state that `start` sets up -/
def start : Shared := ⟨.new, .new C.aggregator, [], .running⟩

end

/-! ## What a step does -/

theorem added_cases (a : Aggregator) (event : InboundNotification) :
    (event.classification.priority = .critical ∧ a.add event = (a, some [event]) ∧ addEvents a event = []) ∨
    (event.classification.priority ≠ .critical ∧ ∃ b, a.buckets.lookup (bucketKey event) = some b ∧
      a.add event = ({ a with
        buckets := a.buckets.insert (bucketKey event) { b with events := appendEvent b.events event } }, none) ∧
      addEvents a event = if event.classification.replaceable then b.events.map (.replaced · event) else []) ∨
    (event.classification.priority ≠ .critical ∧
      a.add event = ({ a with droppedBucketOverflow := a.droppedBucketOverflow + 1 }, none) ∧
      addEvents a event = [.overflow event]) ∨
    (event.classification.priority ≠ .critical ∧ a.buckets.lookup (bucketKey event) = none ∧
      a.add event = ({ a with
        buckets := a.buckets.insert (bucketKey event)
          ⟨[event], ⟨a.timers, bucketKey event, a.opts.window event.classification.priority⟩⟩
        timers := a.timers + 1 }, none) ∧
      addEvents a event = []) := by
  by_cases hc : event.classification.priority = .critical
  · exact Or.inl ⟨hc, Aggregator.add_critical hc, if_pos hc⟩
  · cases hl : a.buckets.lookup (bucketKey event) with
    | some b =>
      refine Or.inr (Or.inl ⟨hc, b, rfl, Aggregator.add_joined hc hl, ?_⟩)
      simp only [addEvents, hc, if_false, hl]
    | none =>
      by_cases hm : (a.buckets.keys.length : ℤ) ≥ a.opts.maxBuckets
      · refine Or.inr (Or.inr (Or.inl ⟨hc, Aggregator.add_dropped hc hl hm, ?_⟩))
        simp only [addEvents, hc, if_false, hl, hm, if_true]
      · refine Or.inr (Or.inr (Or.inr ⟨hc, rfl, Aggregator.add_opened hc hl hm, ?_⟩))
        simp only [addEvents, hc, if_false, hl, hm]

section
variable (C : Config) (s : Shared)

/-- the steps of `process` -/
inductive Worked : Job → Shared → Option Job → List Event → Prop where
  | rejected (item error) (hparse : parse C.libs item.payload = .error error) :
    Worked (.received item) s none [.rejected item error]
  | suppressed (item event dedup) (hstamp : stamped C item = some event) :
    Worked (.received item) { s with dedup := dedup } none [.suppressed event]
  | passed (item event dedup) (hstamp : stamped C item = some event) :
    Worked (.received item) { s with dedup := dedup } (some (.first event)) [.passed event]
  | observed (event ok) : Worked (.first event) s (some (.observed event)) [.observed event (observedAck C event) ok]
  | added (event) (next : Option Job)
    (hnext : next = if event.classification.priority = .critical then some (.rendering s.renders.length) else none) :
    Worked (.observed event)
      { s with agg := (s.agg.add event).1, renders := s.renders ++ renders .worker (s.agg.add event).2 }
      next (addEvents s.agg event)
  | rendered (i r) (hr : s.renders[i]? = some r) (hover : r.phase = .over) : Worked (.rendering i) s none []
  | panicked (job) (hjob : ∀ i, job ≠ .rendering i) : Worked job s none [.panicked job]

theorem work_cases {job : Job} {label : WorkLabel} {s' : Shared} {job' : Option Job} {events : List Event}
    (h : work C s job label = some (s', job', events)) : Worked C s job s' job' events := by
  cases label with
  | process now =>
    cases job with
    | received item =>
      simp only [work] at h
      split at h
      · rename_i error hparse
        obtain ⟨rfl, rfl, rfl⟩ := h
        exact .rejected item error hparse
      · rename_i event hparse
        have hstamp : stamped C item = some { event with agentReceivedAt := item.receivedAt } := by
          simp [stamped, hparse, Except.toOption]
        split at h
        · obtain ⟨rfl, rfl, rfl⟩ := h
          exact .suppressed item _ _ hstamp
        · obtain ⟨rfl, rfl, rfl⟩ := h
          exact .passed item _ _ hstamp
        · cases h
    | _ => cases h
  | publish ok =>
    cases job with
    | first event =>
      obtain ⟨rfl, rfl, rfl⟩ := h
      exact .observed event ok
    | _ => cases h
  | add =>
    cases job with
    | observed event =>
      obtain ⟨rfl, rfl, rfl⟩ := h
      exact .added event _ rfl
    | _ => cases h
  | rendered =>
    cases job with
    | rendering i =>
      simp only [work] at h
      split at h
      · rename_i r hr
        split_ifs at h with hover
        obtain ⟨rfl, rfl, rfl⟩ := h
        exact .rendered i r hr hover
      · cases h
    | _ => cases h
  | panic =>
    cases job with
    | rendering i => cases h
    | _ =>
      obtain ⟨rfl, rfl, rfl⟩ := h
      exact .panicked _ (by simp)

/-- the steps of timers, renders and `Shutdown` -/
inductive Happened (closed gone : Bool) : Shared → List Event → Prop where
  | fired (key) :
    Happened closed gone
      { s with agg := (s.agg.fire key).1, renders := s.renders ++ renders .timer (s.agg.fire key).2 } []
  | shown (i r toast submittedAt) (hr : s.renders[i]? = some r) (hphase : r.phase = .showing)
    (htoast : fromBatch C.segmentation r.batch = some toast) :
    Happened closed gone
      { s with renders := s.renders.set i { r with phase := .publishing r.batch, submittedAt := some submittedAt } }
      [.shown i toast submittedAt]
  | showFailed (i r) (hr : s.renders[i]? = some r) (hphase : r.phase = .showing) :
    Happened closed gone { s with renders := s.renders.set i { r with phase := .over } } [.showFailed i]
  | published (i r event rest submittedAt ok) (hr : s.renders[i]? = some r)
    (hphase : r.phase = .publishing (event :: rest)) (hat : r.submittedAt = some submittedAt) :
    Happened closed gone
      { s with renders := s.renders.set i { r with
          phase := if rest = [] then .over else .publishing rest
          sent := r.sent ++ [event] } }
      [.submitted i event (submittedAck C submittedAt event) ok]
  | renderPanicked (i r) (hr : s.renders[i]? = some r) (hphase : r.phase ≠ .over) :
    Happened closed gone { s with renders := s.renders.set i { r with phase := .over } } [.renderPanicked i]
  | swapped (timedOut pending) (hstage : s.stage = .running) (hclosed : closed = true)
    (hgone : gone = true ∨ timedOut = true) (hpending : pending.Perm (s.agg.buckets.entries.map Sigma.snd)) :
    Happened closed gone { s with agg := s.agg.swap.1, stage := .flushing timedOut pending } []
  | flushNext (timedOut b pending batch) (hstage : s.stage = .flushing timedOut (b :: pending))
    (hbatch : b.batch = some batch) :
    Happened closed gone
      { s with
        renders := s.renders ++ renders .flush (some batch)
        stage := .rendering timedOut s.renders.length pending } []
  | skipped (timedOut b pending) (hstage : s.stage = .flushing timedOut (b :: pending)) (hbatch : b.batch = none) :
    Happened closed gone { s with stage := .flushing timedOut pending } []
  | flushed (timedOut i pending r) (hstage : s.stage = .rendering timedOut i pending) (hr : s.renders[i]? = some r)
    (hover : r.phase = .over) : Happened closed gone { s with stage := .flushing timedOut pending } []
  | closed (timedOut) (hstage : s.stage = .flushing timedOut []) :
    Happened closed gone { s with stage := .closed timedOut } []

theorem env_cases {closed gone : Bool} {label : EnvLabel} {s' : Shared} {events : List Event}
    (h : env C closed gone s label = some (s', events)) : Happened C s closed gone s' events := by
  cases label with
  | fire key =>
    obtain ⟨rfl, rfl⟩ := h
    exact .fired key
  | shown i submittedAt =>
    simp only [env] at h
    split at h
    · rename_i r hr
      split_ifs at h with hphase
      cases submittedAt with
      | none =>
        obtain ⟨rfl, rfl⟩ := h
        exact .showFailed i r hr hphase
      | some at' =>
        obtain ⟨toast, htoast, h⟩ := Option.map_eq_some_iff.1 h
        obtain ⟨rfl, rfl⟩ := h
        exact .shown i r toast at' hr hphase htoast
    · cases h
  | publish i ok =>
    simp only [env] at h
    split at h
    · rename_i r hr
      split at h
      · rename_i event rest at' hphase hat
        obtain ⟨rfl, rfl⟩ := h
        exact .published i r event rest at' ok hr hphase hat
      · cases h
    · cases h
  | renderPanic i =>
    simp only [env] at h
    split at h
    · rename_i r hr
      split_ifs at h with hphase
      obtain ⟨rfl, rfl⟩ := h
      exact .renderPanicked i r hr hphase
    · cases h
  | flush timedOut pending =>
    simp only [env] at h
    split_ifs at h with hflush
    obtain ⟨rfl, rfl⟩ := h
    exact .swapped timedOut pending hflush.1 hflush.2.1 hflush.2.2.1 hflush.2.2.2
  | flushNext =>
    simp only [env] at h
    split at h
    · rename_i timedOut b pending hstage
      split at h
      · rename_i batch hbatch
        obtain ⟨rfl, rfl⟩ := h
        exact .flushNext timedOut b pending batch hstage hbatch
      · rename_i hbatch
        obtain ⟨rfl, rfl⟩ := h
        exact .skipped timedOut b pending hstage hbatch
    · cases h
  | flushed =>
    simp only [env] at h
    split at h
    · rename_i timedOut i pending hstage
      split at h
      · rename_i r hr
        split_ifs at h with hover
        obtain ⟨rfl, rfl⟩ := h
        exact .flushed timedOut i pending r hstage hr hover
      · cases h
    · cases h
  | close =>
    simp only [env] at h
    split at h
    · rename_i timedOut hstage
      obtain ⟨rfl, rfl⟩ := h
      exact .closed timedOut hstage
    · cases h

end

end NotifyAgent.GoAgent
