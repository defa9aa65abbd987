/-
The running C# agent (`Pipeline/EventPipeline` with `Aggregation/Aggregator`, wired by `AgentPipelineFactory`) as a
worker pool: channel, workers, window timers, renders and the two `DisposeAsync`, interleaved in any order.

A worker parses an event and offers its key to the cache, awaits the observed ack, and adds the event to the aggregator;
it awaits the render of a critical event. An ack that fails throws: in a worker it costs the event, although the cache
has taken its key, and in a render it costs the acks of the sources after it. `DisposeAsync` of the pipeline completes
the channel and awaits the workers, who read on until it is empty; that of the aggregator flushes key by key and awaits
no render.

Ghost state besides that of the pool: a render keeps the sources whose ack was published.

- `added_cases`: what `AddAsync` does, and what is recorded of it;
- `work_cases`, `env_cases`: everything a step of a worker, and everything a step of the rest, can do.
-/
import Mathlib.Tactic
import NotifyAgent.Core.Dedup
import NotifyAgent.Core.HeadAggregators
import NotifyAgent.Core.HeadParsers
import NotifyAgent.Lib.Utf16
import NotifyAgent.Lib.WorkerPool

namespace NotifyAgent.CSharpAgent

open NotifyAgent.Text NotifyAgent.CSharp
open NotifyAgent.Notification (DateTime Segmentation)
open NotifyAgent.Lib.WorkerPool (Program)

/-! ## Data -/

/-- the record `ReceivedEvent` -/
structure ReceivedEvent where
  payload : List UInt8
  receivedAt : DateTime
deriving DecidableEq, Repr

/-- the record `AckPayload` -/
structure AckPayload where
  eventId : Str
  deviceId : Str
  agentReceivedAt : DateTime
  toastSubmittedAt : Option DateTime
  status : Str
deriving DecidableEq, Repr

def observedByAgent : Str := "observed_by_agent".toList

def submittedToWindows : Str := "submitted_to_windows".toList

structure Config where
  queueCapacity : ℕ
  workerCount : ℕ
  dedupCapacity : ℕ
  dedupTtl : ℤ
  aggregator : AggregatorOptions
  libs : Libs
  segmentation : Segmentation
  deviceId : Str

inductive Phase where
  /-- in `ShowAsync` -/
  | showing
  /-- the sources whose acks are still to be published -/
  | publishing (rest : List InboundNotification)
  | over
deriving DecidableEq, Repr

/-- one call of `RenderSafeAsync` -/
structure Render where
  /-- a worker awaits it -/
  awaited : Bool
  toast : ToastRequest
  phase : Phase
  /-- what `ShowAsync` returned -/
  submittedAt : Option DateTime
  /-- ghost: the sources whose ack was published -/
  sent : List InboundNotification
deriving DecidableEq, Repr

/-- what a worker has in hand -/
inductive Job where
  | received (received : ReceivedEvent)
  /-- parsed, and new to the cache -/
  | fresh (n : InboundNotification)
  /-- the observed ack is published, and `AddAsync` is next -/
  | observed (n : InboundNotification)
  /-- awaits `RenderSafeAsync` -/
  | rendering (i : ℕ)
deriving DecidableEq, Repr

/-- `DisposeAsync` of the aggregator, after that of the pipeline -/
inductive Stage where
  | running
  | disposing (keys : List BucketKey)
  | disposed
deriving DecidableEq, Repr

inductive Event where
  | rejected (received : ReceivedEvent) (error : Str)
  | suppressed (n : InboundNotification)
  | passed (n : InboundNotification)
  /-- an attempt, and whether it returned -/
  | observed (n : InboundNotification) (ack : AckPayload) (ok : Bool)
  /-- any other exception in `ProcessAsync` -/
  | threw (job : Job)
  | overflow (n : InboundNotification)
  /-- a replaceable event clears its bucket of another -/
  | replaced (gone n : InboundNotification)
  | shown (i : ℕ) (submittedAt : DateTime)
  | showFailed (i : ℕ)
  | submitted (i : ℕ) (n : InboundNotification) (ack : AckPayload) (ok : Bool)

/-- what the tasks share -/
structure Shared where
  dedup : Dedup.Inner (List UInt16)
  aggregator : Aggregator
  renders : List Render
  stage : Stage

inductive WorkLabel where
  /-- the clock reading of `TryAdd` -/
  | process (now : DateTime)
  | publish (ok : Bool)
  | add
  /-- the awaited render is over -/
  | rendered
  | throw

inductive EnvLabel where
  /-- a timer calls `Flush` -/
  | fire (key : BucketKey)
  /-- `ShowAsync` returns, or throws -/
  | shown (i : ℕ) (submittedAt : Option DateTime)
  | publish (i : ℕ) (ok : Bool)
  /-- `DisposeAsync` takes the keys, in this order -/
  | dispose (keys : List BucketKey)
  | flushNext
  | disposed

/-! ## The program -/

section
variable (C : Config)

/-- `TryParse`, as far as it gives an event -/
def parsed (received : ReceivedEvent) : Option InboundNotification :=
  (tryParse C.libs received.payload received.receivedAt).toOption

/-- the ack of `ProcessAsync` -/
def observedAck (n : InboundNotification) : AckPayload := ⟨n.eventId, C.deviceId, n.receivedAt, none, observedByAgent⟩

/-- the ack of the render callback -/
def submittedAck (submittedAt : DateTime) (n : InboundNotification) : AckPayload :=
  ⟨n.eventId, C.deviceId, n.receivedAt, some submittedAt, submittedToWindows⟩

def called (awaited : Bool) (toast : ToastRequest) : Render := ⟨awaited, toast, .showing, none, []⟩

def renders (awaited : Bool) (toast : Option ToastRequest) : List Render := toast.toList.map (called awaited)

/-- what `AddAsync` records -/
def addEvents (a : Aggregator) (n : InboundNotification) : List Event :=
  if n.priority = .critical then []
  else
    match a.buckets.lookup (bucketKey n) with
    | some bucket => if n.replaceable then bucket.events.map fun old => .replaced old n else []
    | none => if (a.buckets.keys.length : ℤ) ≥ a.options.maxBuckets then [.overflow n] else []

/-- a step of `ProcessAsync` -/
def work (s : Shared) : Job → WorkLabel → Option (Shared × Option Job × List Event)
  | .received received, .process now =>
    match tryParse C.libs received.payload received.receivedAt with
    | .error error => some (s, none, [.rejected received error])
    | .ok n =>
      match Dedup.tryAddTicks C.dedupCapacity C.dedupTtl s.dedup now (Lib.Utf16.encode n.deduplicationKey) with
      | some (dedup, true) => some ({ s with dedup := dedup }, some (.fresh n), [.passed n])
      | some (dedup, false) => some ({ s with dedup := dedup }, none, [.suppressed n])
      | none => none
  | .fresh n, .publish ok => some (s, if ok then some (.observed n) else none, [.observed n (observedAck C n) ok])
  | .observed n, .add =>
    some ({ s with
        aggregator := (s.aggregator.addAsync C.segmentation n).1
        renders := s.renders ++ renders true (s.aggregator.addAsync C.segmentation n).2 },
      if n.priority = .critical then some (.rendering s.renders.length) else none,
      addEvents s.aggregator n)
  | .rendering i, .rendered =>
    match s.renders[i]? with
    | some r => if r.phase = .over then some (s, none, []) else none
    | none => none
  | .rendering _, .throw => none
  | job, .throw => some (s, none, [.threw job])
  | _, _ => none

/-- `Flush`: a timer or `DisposeAsync` starts the render and does not await it -/
def flushed (s : Shared) (key : BucketKey) : Shared :=
  { s with
    aggregator := (s.aggregator.flush C.segmentation key).1
    renders := s.renders ++ renders false (s.aggregator.flush C.segmentation key).2 }

/-- a step of a timer, of a running render, or of `DisposeAsync` -/
def env (closed gone : Bool) (s : Shared) : EnvLabel → Option (Shared × List Event)
  | .fire key => some (flushed C s key, [])
  | .shown i submittedAt =>
    match s.renders[i]? with
    | some r =>
      if r.phase = .showing then
        match submittedAt with
        | none => some ({ s with renders := s.renders.set i { r with phase := .over } }, [.showFailed i])
        | some at' =>
          some ({ s with renders := s.renders.set i { r with
              phase := if r.toast.sources = [] then .over else .publishing r.toast.sources
              submittedAt := some at' } }, [.shown i at'])
      else none
    | none => none
  | .publish i ok =>
    match s.renders[i]? with
    | some r =>
      match r.phase, r.submittedAt with
      | .publishing (n :: rest), some at' =>
        some ({ s with renders := s.renders.set i (if ok then { r with
            phase := if rest = [] then .over else .publishing rest
            sent := r.sent ++ [n] } else { r with phase := .over }) },
          [.submitted i n (submittedAck C at' n) ok])
      | _, _ => none
    | none => none
  | .dispose keys =>
    if s.stage = .running ∧ closed = true ∧ gone = true ∧ keys.Perm s.aggregator.buckets.keys then
      some ({ s with stage := .disposing keys }, [])
    else none
  | .flushNext =>
    match s.stage with
    | .disposing (key :: keys) => some ({ flushed C s key with stage := .disposing keys }, [])
    | _ => none
  | .disposed =>
    match s.stage with
    | .disposing [] => some ({ s with stage := .disposed }, [])
    | _ => none

/-- the C# agent as a pool: a completed channel takes nothing more, and the workers read it empty -/
def program : Program ReceivedEvent Shared Job Event WorkLabel EnvLabel where
  capacity := C.queueCapacity
  takesClosed := false
  leavesItems := false
  take := .received
  work := work C
  env := env C

/-- the state that `Create` and `Start` set up -/
def start : Shared := ⟨.new, .new C.aggregator, [], .running⟩

end

/-! ## What a step does -/

theorem added_cases (G : Segmentation) (a : Aggregator) (n : InboundNotification) :
    (n.priority = .critical ∧ a.addAsync G n = (a, some (fromSingle G n)) ∧ addEvents a n = []) ∨
    (n.priority ≠ .critical ∧ ∃ bucket, a.buckets.lookup (bucketKey n) = some bucket ∧
      a.addAsync G n = ({ a with
        buckets := a.buckets.insert (bucketKey n) { bucket with events := addEvent bucket.events n } }, none) ∧
      addEvents a n = if n.replaceable then bucket.events.map (.replaced · n) else []) ∨
    (n.priority ≠ .critical ∧
      a.addAsync G n = ({ a with droppedBucketOverflow := a.droppedBucketOverflow + 1 }, none) ∧
      addEvents a n = [.overflow n]) ∨
    (n.priority ≠ .critical ∧ a.buckets.lookup (bucketKey n) = none ∧
      (∃ timer, a.addAsync G n = ({ a with buckets := a.buckets.insert (bucketKey n) ⟨[n], timer⟩ }, none)) ∧
      addEvents a n = []) := by
  by_cases hc : n.priority = .critical
  · exact Or.inl ⟨hc, Aggregator.addAsync_critical hc, if_pos hc⟩
  · cases hl : a.buckets.lookup (bucketKey n) with
    | some bucket =>
      refine Or.inr (Or.inl ⟨hc, bucket, rfl, Aggregator.addAsync_joined hc hl, ?_⟩)
      simp only [addEvents, hc, if_false, hl]
    | none =>
      by_cases hm : (a.buckets.keys.length : ℤ) ≥ a.options.maxBuckets
      · refine Or.inr (Or.inr (Or.inl ⟨hc, Aggregator.addAsync_dropped hc hl hm, ?_⟩))
        simp only [addEvents, hc, if_false, hl, hm, if_true]
      · refine Or.inr (Or.inr (Or.inr ⟨hc, rfl, Aggregator.addAsync_opened hc hl hm, ?_⟩))
        simp only [addEvents, hc, if_false, hl, hm]

section
variable (C : Config) (s : Shared)

/-- the steps of `ProcessAsync` -/
inductive Worked : Job → Shared → Option Job → List Event → Prop where
  | rejected (received error) (hparse : tryParse C.libs received.payload received.receivedAt = .error error) :
    Worked (.received received) s none [.rejected received error]
  | suppressed (received n dedup) (hparsed : parsed C received = some n) :
    Worked (.received received) { s with dedup := dedup } none [.suppressed n]
  | passed (received n dedup) (hparsed : parsed C received = some n) :
    Worked (.received received) { s with dedup := dedup } (some (.fresh n)) [.passed n]
  | observed (n) : Worked (.fresh n) s (some (.observed n)) [.observed n (observedAck C n) true]
  | unobserved (n) : Worked (.fresh n) s none [.observed n (observedAck C n) false]
  | added (n) (next : Option Job)
    (hnext : next = if n.priority = .critical then some (.rendering s.renders.length) else none) :
    Worked (.observed n)
      { s with
        aggregator := (s.aggregator.addAsync C.segmentation n).1
        renders := s.renders ++ renders true (s.aggregator.addAsync C.segmentation n).2 }
      next (addEvents s.aggregator n)
  | rendered (i r) (hr : s.renders[i]? = some r) (hover : r.phase = .over) : Worked (.rendering i) s none []
  | threw (job) (hjob : ∀ i, job ≠ .rendering i) : Worked job s none [.threw job]

theorem work_cases {job : Job} {label : WorkLabel} {s' : Shared} {job' : Option Job} {events : List Event}
    (h : work C s job label = some (s', job', events)) : Worked C s job s' job' events := by
  cases label with
  | process now =>
    cases job with
    | received received =>
      simp only [work] at h
      split at h
      · rename_i error hparse
        obtain ⟨rfl, rfl, rfl⟩ := h
        exact .rejected received error hparse
      · rename_i n hparse
        have hparsed : parsed C received = some n := by simp [parsed, hparse, Except.toOption]
        split at h
        · obtain ⟨rfl, rfl, rfl⟩ := h
          exact .passed received n _ hparsed
        · obtain ⟨rfl, rfl, rfl⟩ := h
          exact .suppressed received n _ hparsed
        · cases h
    | _ => cases h
  | publish ok =>
    cases job with
    | fresh n =>
      cases ok with
      | true =>
        obtain ⟨rfl, rfl, rfl⟩ := h
        exact .observed n
      | false =>
        obtain ⟨rfl, rfl, rfl⟩ := h
        exact .unobserved n
    | _ => cases h
  | add =>
    cases job with
    | observed n =>
      obtain ⟨rfl, rfl, rfl⟩ := h
      exact .added n _ rfl
    | _ => cases h
  | rendered =>
    cases job with
    | rendering i =>
      simp only [work] at h
      split at h
      · rename_i r hr
        split_ifs at h with hover
        obtain ⟨rfl, rfl, rfl⟩ := h
        exact .rendered i r hr hover
      · cases h
    | _ => cases h
  | throw =>
    cases job with
    | rendering i => cases h
    | _ =>
      obtain ⟨rfl, rfl, rfl⟩ := h
      exact .threw _ (by simp)

/-- the steps of timers, renders and `DisposeAsync` -/
inductive Happened (closed gone : Bool) : Shared → List Event → Prop where
  | fired (key) : Happened closed gone (flushed C s key) []
  | shown (i r submittedAt) (hr : s.renders[i]? = some r) (hphase : r.phase = .showing) :
    Happened closed gone
      { s with renders := s.renders.set i { r with
          phase := if r.toast.sources = [] then .over else .publishing r.toast.sources
          submittedAt := some submittedAt } }
      [.shown i submittedAt]
  | showFailed (i r) (hr : s.renders[i]? = some r) (hphase : r.phase = .showing) :
    Happened closed gone { s with renders := s.renders.set i { r with phase := .over } } [.showFailed i]
  | published (i r n rest submittedAt) (hr : s.renders[i]? = some r) (hphase : r.phase = .publishing (n :: rest))
    (hat : r.submittedAt = some submittedAt) :
    Happened closed gone
      { s with renders := s.renders.set i { r with
          phase := if rest = [] then .over else .publishing rest
          sent := r.sent ++ [n] } }
      [.submitted i n (submittedAck C submittedAt n) true]
  | unpublished (i r n rest submittedAt) (hr : s.renders[i]? = some r) (hphase : r.phase = .publishing (n :: rest))
    (hat : r.submittedAt = some submittedAt) :
    Happened closed gone { s with renders := s.renders.set i { r with phase := .over } }
      [.submitted i n (submittedAck C submittedAt n) false]
  | disposing (keys) (hstage : s.stage = .running) (hclosed : closed = true) (hgone : gone = true)
    (hkeys : keys.Perm s.aggregator.buckets.keys) : Happened closed gone { s with stage := .disposing keys } []
  | flushNext (key keys) (hstage : s.stage = .disposing (key :: keys)) :
    Happened closed gone { flushed C s key with stage := .disposing keys } []
  | disposed (hstage : s.stage = .disposing []) : Happened closed gone { s with stage := .disposed } []

theorem env_cases {closed gone : Bool} {label : EnvLabel} {s' : Shared} {events : List Event}
    (h : env C closed gone s label = some (s', events)) : Happened C s closed gone s' events := by
  cases label with
  | fire key =>
    obtain ⟨rfl, rfl⟩ := h
    exact .fired key
  | shown i submittedAt =>
    simp only [env] at h
    split at h
    · rename_i r hr
      by_cases hphase : r.phase = .showing
      · rw [if_pos hphase] at h
        cases submittedAt with
        | none =>
          obtain ⟨rfl, rfl⟩ := h
          exact .showFailed i r hr hphase
        | some at' =>
          obtain ⟨rfl, rfl⟩ := h
          exact .shown i r at' hr hphase
      · rw [if_neg hphase] at h
        cases h
    · cases h
  | publish i ok =>
    simp only [env] at h
    split at h
    · rename_i r hr
      split at h
      · rename_i n rest at' hphase hat
        cases ok with
        | true =>
          obtain ⟨rfl, rfl⟩ := h
          exact .published i r n rest at' hr hphase hat
        | false =>
          obtain ⟨rfl, rfl⟩ := h
          exact .unpublished i r n rest at' hr hphase hat
      · cases h
    · cases h
  | dispose keys =>
    simp only [env] at h
    split_ifs at h with hdispose
    obtain ⟨rfl, rfl⟩ := h
    exact .disposing keys hdispose.1 hdispose.2.1 hdispose.2.2.1 hdispose.2.2.2
  | flushNext =>
    simp only [env] at h
    split at h
    · rename_i key keys hstage
      obtain ⟨rfl, rfl⟩ := h
      exact .flushNext key keys hstage
    · cases h
  | disposed =>
    simp only [env] at h
    split at h
    · rename_i hstage
      obtain ⟨rfl, rfl⟩ := h
      exact .disposed hstage
    · cases h

end

end NotifyAgent.CSharpAgent
