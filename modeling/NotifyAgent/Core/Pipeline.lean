/-
The running agent (`pipeline.rs` with `aggregator.rs` and `dedup.rs`): intake queue, workers, duplicate suppression,
bucket timers, render tasks and the two-stage shutdown, as one machine whose operations interleave in any order.

A worker handles an event in four steps: receive it, parse it and offer its key to the cache, publish the observed ack
(the attempt and its end are two steps), and add it to the aggregator. `add` and `flush` hold the bucket lock for their
whole effect on the map and are one step each; a timer may fire at any time. What `flush` and critical events spawn are
render tasks, which first run some time later. The sink is a parameter.

Ghost state: `accepted` lists the events that `try_enqueue` took, an event's place in it being its ticket; `log` records
what the machine did, in order; a render keeps what its task put out.

- `Trans`, `step_cases`: everything a step can do; invariants are proved by cases on it;
- `run_inv_trans`: the invariant rule in terms of `Trans`.

The expiry of a cache entry is taken to be representable: what the cache does otherwise is in `Dedup`.
-/
import Mathlib.Tactic
import NotifyAgent.Lib.Machine
import NotifyAgent.Core.Parser
import NotifyAgent.Core.Dedup
import NotifyAgent.Core.Aggregator

namespace NotifyAgent.Pipeline

open NotifyAgent.Text NotifyAgent.Notification NotifyAgent.Parser NotifyAgent.Aggregator
open NotifyAgent.Dedup (tryAddAt)
open NotifyAgent.Lib.Machine (run run_inv)

/-! ## Data -/

structure ReceivedEvent where
  payload : List UInt8
  receivedAt : DateTime
  seq : ℕ
deriving DecidableEq, Repr

structure AckPayload where
  eventId : Str
  deviceId : Str
  agentReceivedAt : DateTime
  toastSubmittedAt : Option DateTime
  status : Str
deriving DecidableEq, Repr

def observedByAgent : Str := "observed_by_agent".toList

def submittedToWindows : Str := "submitted_to_windows".toList

/-- how a publish attempt ends: `Ok(Ok)`, `Ok(Err)` or elapsed -/
inductive Outcome where
  | success
  | error
  | timeout
deriving DecidableEq, Repr

structure PipelineConfig where
  queueCapacity : ℕ
  workers : ℕ
deriving DecidableEq, Repr

structure Config where
  pipeline : PipelineConfig
  aggregator : AggregatorConfig
  dedupCapacity : ℕ
  dedupTtl : ℕ
  libs : Libs
  deviceId : Str

/-- downstream of the aggregator: `render(toast)` as a task that takes steps -/
structure RenderSink where
  Task : Type
  Label : Type
  Out : Type
  start : ToastRequest Note → Task
  step : Task → Label → Option (Task × Out)
  finished : Task → Bool
  finished_step : ∀ t l, finished t = true → step t l = none

inductive Worker where
  /-- at `recv` -/
  | idle
  | received (e : Ticketed ReceivedEvent)
  /-- parsed, and its key recorded by the cache -/
  | deduped (n : Note)
  /-- in the observed-ack attempt -/
  | acking (n : Note)
  /-- about to call `add` -/
  | acked (n : Note)
  | exited
deriving DecidableEq, Repr

/-- `Aggregator::shutdown`, after `Pipeline::shutdown` has returned -/
inductive Stage where
  | running
  | flushing (keys : List Key)
  /-- the tracker is closed -/
  | draining
  | returned
deriving DecidableEq, Repr

/-- a spawned render task: the bucket it came from, if any, its toast, and its state once it has run -/
structure Render (S : RenderSink) where
  origin : Option Key
  toast : ToastRequest Note
  task : Option S.Task
  outs : List S.Out

inductive Event (S : RenderSink) where
  | refused (e : ReceivedEvent)
  | rejected (ticket : ℕ) (error : ParseError)
  | suppressed (ticket : ℕ)
  | passed (ticket : ℕ)
  | observed (ticket : ℕ) (ack : AckPayload)
  | observedEnd (ticket : ℕ) (outcome : Outcome)
  | overflow (ticket : ℕ)
  /-- a bucket lets go of `gone` when `n` is added -/
  | discarded (gone n : Note)
  /-- `sink.render(toast)` is called for the render task `i` -/
  | rendered (i : ℕ) (toast : ToastRequest Note)
  | out (i : ℕ) (o : S.Out)

structure St (S : RenderSink) where
  queue : List (Ticketed ReceivedEvent)
  intakeOpen : Bool
  droppedQueueFull : ℕ
  workers : List Worker
  dedup : Dedup.Inner Str
  aggregator : Inner Note
  renders : List (Render S)
  stage : Stage
  accepted : List ReceivedEvent
  log : List (Event S)

inductive Op (S : RenderSink) where
  | tryEnqueue (e : ReceivedEvent)
  | recv (w : ℕ)
  | process (w : ℕ) (now : ℤ)
  | observe (w : ℕ)
  | ackEnd (w : ℕ) (outcome : Outcome)
  | add (w : ℕ)
  | timer (key : Key)
  | renderStart (i : ℕ)
  | sink (i : ℕ) (label : S.Label)
  /-- the pipeline and every intake handle have dropped their senders -/
  | dropSenders
  /-- every worker has been joined, and the bucket keys are read in some order -/
  | shutdown (keys : List Key)
  | flushNext
  | close
  | drained

/-! ## Steps -/

section
variable (C : Config) {S : RenderSink} (s : St S)

/-- `Pipeline::start` over a new cache and a new aggregator -/
def init (S : RenderSink) : St S where
  queue := []
  intakeOpen := true
  droppedQueueFull := 0
  workers := List.replicate C.pipeline.workers .idle
  dedup := Dedup.Inner.new
  aggregator := Inner.new
  renders := []
  stage := .running
  accepted := []
  log := []

/-- the observed ack of `process` -/
def observedAck (n : Note) : AckPayload where
  eventId := n.val.eventId
  deviceId := C.deviceId
  agentReceivedAt := n.val.receivedAt
  toastSubmittedAt := none
  status := observedByAgent

def enqueued (e : ReceivedEvent) : St S :=
  { s with queue := s.queue ++ [⟨s.accepted.length, e⟩], accepted := s.accepted ++ [e] }

def refused (e : ReceivedEvent) : St S :=
  { s with droppedQueueFull := s.droppedQueueFull + 1, log := s.log ++ [.refused e] }

/-- worker `w` goes on to `phase`, and `events` are recorded -/
def went (w : ℕ) (phase : Worker) (events : List (Event S)) : St S :=
  { s with workers := s.workers.set w phase, log := s.log ++ events }

/-- the render that `add` spawns, for a critical event only -/
def addRenders (S : RenderSink) : Added Note → List (Render S)
  | .rendered toast => [⟨none, toast, none, []⟩]
  | _ => []

/-- what `add` records -/
def addEvents (S : RenderSink) (n : Note) : Added Note → List (Event S)
  | .joined gone => gone.map fun m => .discarded m n
  | .dropped => [.overflow n.ticket]
  | _ => []

/-- worker `w` calls `aggregator.add(n)` -/
def added (w : ℕ) (n : Note) : St S :=
  let r := Aggregator.add C.aggregator C.libs.segmentation s.aggregator n
  { went s w .idle (addEvents S n r.2) with aggregator := r.1, renders := s.renders ++ addRenders S r.2 }

/-- the render that `flush` spawns, if its bucket was there -/
def flushRenders (S : RenderSink) (key : Key) (t : Option (ToastRequest Note)) : List (Render S) :=
  t.toList.map fun toast => ⟨some key, toast, none, []⟩

/-- `Inner::flush(key)` -/
def flushed (key : Key) : St S :=
  let r := Aggregator.flush C.libs.segmentation s.aggregator key
  { s with aggregator := r.1, renders := s.renders ++ flushRenders S key r.2 }

def renderStarted (i : ℕ) (r : Render S) : St S :=
  { s with renders := s.renders.set i { r with task := some (S.start r.toast) },
           log := s.log ++ [.rendered i r.toast] }

def sinkStepped (i : ℕ) (r : Render S) (t : S.Task) (o : S.Out) : St S :=
  { s with renders := s.renders.set i { r with task := some t, outs := r.outs ++ [o] }, log := s.log ++ [.out i o] }

def Worker.isExited : Worker → Bool
  | .exited => true
  | _ => false

/-- the render task has run to its end -/
def Render.ended (r : Render S) : Bool := r.task.any S.finished

/-- one operation; one that is not enabled leaves the state unchanged -/
def step : Op S → St S
  | .tryEnqueue e =>
    if s.intakeOpen then if s.queue.length < C.pipeline.queueCapacity then enqueued s e else refused s e else s
  | .recv w =>
    match s.workers[w]?, s.queue with
    | some .idle, e :: rest => { went s w (.received e) [] with queue := rest }
    | some .idle, [] => if s.intakeOpen then s else went s w .exited []
    | _, _ => s
  | .process w now =>
    match s.workers[w]? with
    | some (.received e) =>
      match parseEvent C.libs e.val.payload e.val.receivedAt e.val.seq with
      | .error error => went s w .idle [.rejected e.ticket error]
      | .ok n =>
        match tryAddAt C.dedupCapacity C.dedupTtl s.dedup now n.deduplicationKey with
        | (dedup, true) => { went s w (.deduped ⟨e.ticket, n⟩) [.passed e.ticket] with dedup := dedup }
        | (dedup, false) => { went s w .idle [.suppressed e.ticket] with dedup := dedup }
    | _ => s
  | .observe w =>
    match s.workers[w]? with
    | some (.deduped n) => went s w (.acking n) [.observed n.ticket (observedAck C n)]
    | _ => s
  | .ackEnd w outcome =>
    match s.workers[w]? with
    | some (.acking n) => went s w (.acked n) [.observedEnd n.ticket outcome]
    | _ => s
  | .add w =>
    match s.workers[w]? with
    | some (.acked n) => added C s w n
    | _ => s
  | .timer key => flushed C s key
  | .renderStart i =>
    match s.renders[i]? with
    | some r =>
      match r.task with
      | none => renderStarted s i r
      | some _ => s
    | none => s
  | .sink i label =>
    match s.renders[i]? with
    | some r =>
      match r.task.bind fun t => S.step t label with
      | some (t, o) => sinkStepped s i r t o
      | none => s
    | none => s
  | .dropSenders => { s with intakeOpen := false }
  | .shutdown keys =>
    if s.stage = .running ∧ s.workers.all Worker.isExited ∧ keys.isPerm s.aggregator.buckets.keys then
      { s with stage := .flushing keys }
    else s
  | .flushNext =>
    match s.stage with
    | .flushing (key :: keys) => { flushed C s key with stage := .flushing keys }
    | _ => s
  | .close =>
    match s.stage with
    | .flushing [] => { s with stage := .draining }
    | _ => s
  | .drained => if s.stage = .draining ∧ s.renders.all Render.ended then { s with stage := .returned } else s

/-! ## What a step does -/

/-- the enabled steps -/
inductive Trans : Op S → St S → Prop where
  | enqueued (e) (hopen : s.intakeOpen = true) (room : s.queue.length < C.pipeline.queueCapacity) :
    Trans (.tryEnqueue e) (enqueued s e)
  | refused (e) (hopen : s.intakeOpen = true) (full : C.pipeline.queueCapacity ≤ s.queue.length) :
    Trans (.tryEnqueue e) (refused s e)
  | received (w e rest) (hw : s.workers[w]? = some .idle) (hq : s.queue = e :: rest) :
    Trans (.recv w) { went s w (.received e) [] with queue := rest }
  | exited (w) (hw : s.workers[w]? = some .idle) (hq : s.queue = []) (hclosed : s.intakeOpen = false) :
    Trans (.recv w) (went s w .exited [])
  | rejected (w now e error) (hw : s.workers[w]? = some (.received e))
    (hparse : parseEvent C.libs e.val.payload e.val.receivedAt e.val.seq = .error error) :
    Trans (.process w now) (went s w .idle [.rejected e.ticket error])
  | passed (w now e n dedup) (hw : s.workers[w]? = some (.received e))
    (hparse : parseEvent C.libs e.val.payload e.val.receivedAt e.val.seq = .ok n)
    (hadd : tryAddAt C.dedupCapacity C.dedupTtl s.dedup now n.deduplicationKey = (dedup, true)) :
    Trans (.process w now) { went s w (.deduped ⟨e.ticket, n⟩) [.passed e.ticket] with dedup := dedup }
  | suppressed (w now e n dedup) (hw : s.workers[w]? = some (.received e))
    (hparse : parseEvent C.libs e.val.payload e.val.receivedAt e.val.seq = .ok n)
    (hadd : tryAddAt C.dedupCapacity C.dedupTtl s.dedup now n.deduplicationKey = (dedup, false)) :
    Trans (.process w now) { went s w .idle [.suppressed e.ticket] with dedup := dedup }
  | observed (w n) (hw : s.workers[w]? = some (.deduped n)) :
    Trans (.observe w) (went s w (.acking n) [.observed n.ticket (observedAck C n)])
  | ackEnded (w n outcome) (hw : s.workers[w]? = some (.acking n)) :
    Trans (.ackEnd w outcome) (went s w (.acked n) [.observedEnd n.ticket outcome])
  | added (w n) (hw : s.workers[w]? = some (.acked n)) : Trans (.add w) (added C s w n)
  | fired (key) : Trans (.timer key) (flushed C s key)
  | renderStarted (i r) (hr : s.renders[i]? = some r) (hnew : r.task = none) :
    Trans (.renderStart i) (renderStarted s i r)
  | sinkStepped (i r t t' label o) (hr : s.renders[i]? = some r) (ht : r.task = some t)
    (hstep : S.step t label = some (t', o)) : Trans (.sink i label) (sinkStepped s i r t' o)
  | closed : Trans .dropSenders { s with intakeOpen := false }
  | shutdown (keys) (hstage : s.stage = .running) (hworkers : s.workers.all Worker.isExited = true)
    (hkeys : keys.Perm s.aggregator.buckets.keys) : Trans (.shutdown keys) { s with stage := .flushing keys }
  | flushedNext (key keys) (hstage : s.stage = .flushing (key :: keys)) :
    Trans .flushNext { flushed C s key with stage := .flushing keys }
  | closing (hstage : s.stage = .flushing []) : Trans .close { s with stage := .draining }
  | drained (hstage : s.stage = .draining) (hended : s.renders.all Render.ended = true) :
    Trans .drained { s with stage := .returned }

/-- **What a step does.** Nothing, or one of the transitions. -/
theorem step_cases (o : Op S) : step C s o = s ∨ Trans C s o (step C s o) := by
  cases o with
  | tryEnqueue e =>
    simp only [step]
    split_ifs with hopen hroom
    · exact Or.inr (.enqueued e hopen hroom)
    · exact Or.inr (.refused e hopen (Nat.le_of_not_lt hroom))
    · exact Or.inl rfl
  | recv w =>
    simp only [step]
    split
    · rename_i e rest hw hq
      exact Or.inr (.received w e rest hw hq)
    · rename_i hw hq
      split_ifs with hopen
      · exact Or.inl rfl
      · exact Or.inr (.exited w hw hq (by simpa using hopen))
    · exact Or.inl rfl
  | process w now =>
    simp only [step]
    split
    · rename_i e hw
      split
      · rename_i error hparse
        exact Or.inr (.rejected w now e error hw hparse)
      · rename_i n hparse
        split
        · rename_i dedup hadd
          exact Or.inr (.passed w now e n dedup hw hparse hadd)
        · rename_i dedup hadd
          exact Or.inr (.suppressed w now e n dedup hw hparse hadd)
    · exact Or.inl rfl
  | observe w =>
    simp only [step]
    split
    · rename_i n hw
      exact Or.inr (.observed w n hw)
    · exact Or.inl rfl
  | ackEnd w outcome =>
    simp only [step]
    split
    · rename_i n hw
      exact Or.inr (.ackEnded w n outcome hw)
    · exact Or.inl rfl
  | add w =>
    simp only [step]
    split
    · rename_i n hw
      exact Or.inr (.added w n hw)
    · exact Or.inl rfl
  | timer key => exact Or.inr (.fired key)
  | renderStart i =>
    simp only [step]
    split
    · rename_i r hr
      split
      · rename_i hnew
        exact Or.inr (.renderStarted i r hr hnew)
      · exact Or.inl rfl
    · exact Or.inl rfl
  | sink i label =>
    simp only [step]
    split
    · rename_i r hr
      split
      · rename_i t' o hstep
        obtain ⟨t, ht, hstep⟩ := Option.bind_eq_some_iff.1 hstep
        exact Or.inr (.sinkStepped i r t t' label o hr ht hstep)
      · exact Or.inl rfl
    · exact Or.inl rfl
  | dropSenders => exact Or.inr .closed
  | shutdown keys =>
    simp only [step]
    split_ifs with h
    · exact Or.inr (.shutdown keys h.1 h.2.1 (List.isPerm_iff.1 h.2.2))
    · exact Or.inl rfl
  | flushNext =>
    simp only [step]
    split
    · rename_i key keys hstage
      exact Or.inr (.flushedNext key keys hstage)
    · exact Or.inl rfl
  | close =>
    simp only [step]
    split
    · rename_i hstage
      exact Or.inr (.closing hstage)
    · exact Or.inl rfl
  | drained =>
    simp only [step]
    split_ifs with h
    · exact Or.inr (.drained h.1 h.2)
    · exact Or.inl rfl

end

/-- **Invariant rule.** What every transition keeps, every run keeps. -/
theorem run_inv_trans {C : Config} {S : RenderSink} {I : St S → Prop}
    (htrans : ∀ s o s', Trans C s o s' → I s → I s') {s : St S} (h : I s) (ops : List (Op S)) :
    I (run (step C) s ops) := by
  refine run_inv (step C) (fun s o hi => ?_) h ops
  rcases step_cases C s o with hs | ht
  · rwa [hs]
  · exact htrans s o _ ht hi

/-- the state after `ops` -/
abbrev after (C : Config) (S : RenderSink) (ops : List (Op S)) : St S := run (step C) (init C S) ops

/-! ## An agent with its defaults, and a payload -/

/-- the payload `{"eventId":"<id>","target":{"userId":"u"},"content":{"title":"t","message":"m"},"classification":`
`{"priority":"important","aggregationKey":"k","replaceable":true}}` -/
def progressPayload (id : Char) : List UInt8 :=
  utf8 ("\x7b\"eventId\":\"".toList ++ [id] ++
    "\",\"target\":\x7b\"userId\":\"u\"\x7d,\"content\":\x7b\"title\":\"t\",\"message\":\"m\"\x7d,".toList ++
    "\"classification\":\x7b\"priority\":\"important\",\"aggregationKey\":\"k\",\"replaceable\":true\x7d\x7d".toList)

def progressEvent (id : Char) : WireEvent where
  eventId := some [id]
  notificationType := none
  target := some ⟨some ['u']⟩
  content := some ⟨some ['t'], some ['m'], none, none⟩
  action := none
  classification := some ⟨some "important".toList, some ['k'], none, some true⟩
  timestamps := none

/-- the agent as `build_agent` sets it up by default, with libraries that do on these payloads what the real ones do -/
def defaultAgent : Config where
  pipeline := ⟨500, 2⟩
  aggregator := ⟨100, 2000, 10000, 5000⟩
  dedupCapacity := 10000
  dedupTtl := 600000
  libs :=
    { ucd := basicUcd
      segmentation := singletons
      urlParse := fun _ => none
      fromSlice := fun payload =>
        if payload = progressPayload 'a' then .ok (progressEvent 'a')
        else if payload = progressPayload 'b' then .ok (progressEvent 'b')
        else .error "expected value".toList }
  deviceId := "d-456".toList

/-- a sink whose renders are over at once -/
def instantSink : RenderSink where
  Task := Unit
  Label := Empty
  Out := Empty
  start _ := ()
  step _ l := l.elim
  finished _ := true
  finished_step _ l := l.elim

end NotifyAgent.Pipeline
