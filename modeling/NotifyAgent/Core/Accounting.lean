/-
Where the events of a run are. Every accepted event is in the queue, with a worker, in a bucket, in a render task, or
the log says how the agent let it go; never in two of these, and never in one of them twice.

- `heldBy`, `held_trans`: what a transition does to the parsed events the agent holds, for any way of counting them;
- `places_run`: the tickets of all places together are those of the accepted events, each once;
- `Sourced`: each event held, and each log entry, belongs to the accepted event of its ticket;
- `Called`: the calls of `sink.render` in the log are those of the render tasks that have run, one each.
-/
import Mathlib.Tactic
import NotifyAgent.Lib.Ledger
import NotifyAgent.Core.Pipeline

namespace NotifyAgent.Pipeline

open NotifyAgent.Text NotifyAgent.Notification NotifyAgent.Parser NotifyAgent.Aggregator
open NotifyAgent.Lib.Ledger

variable {C : Config} {S : RenderSink} {s s' : St S} {o : Op S}

/-! ## Parsed events -/

/-- the parsed event a worker carries -/
def Worker.notes : Worker → List Note
  | .deduped n | .acking n | .acked n => [n]
  | _ => []

section
variable {ι : Type*} (g : Worker → List Note) (f : Note → Multiset ι)

/-- the parsed events in the buckets, in the render tasks and with the workers of which `g` tells them, counted by
`f` -/
def heldBy (s : St S) : Multiset ι :=
  tally (fun p => tally f (g p)) s.workers + holdings (fun b => tally f b.events) s.aggregator.buckets +
    tally (fun r => tally f r.toast.sources) s.renders

/-- the parsed events that the agent holds -/
def held (s : St S) : Multiset ι := heldBy Worker.notes f s

theorem heldBy_went {w : ℕ} {p : Worker} (hw : s.workers[w]? = some p) (phase : Worker) (events : List (Event S)) :
    heldBy g f (went s w phase events) + tally f (g p) = heldBy g f s + tally f (g phase) := by
  have h := tally_set (fun p : Worker => tally f (g p)) (y := phase) hw
  simp only [heldBy, went]
  rw [add_right_comm, add_right_comm _ _ (tally f (g p)), h]
  abel

/-- a worker that goes on with the same parsed event, or without one -/
theorem heldBy_went_same {w : ℕ} {p phase : Worker} {events : List (Event S)} (hw : s.workers[w]? = some p)
    (hg : g p = g phase) : heldBy g f (went s w phase events) = heldBy g f s :=
  add_right_cancel ((heldBy_went g f hw phase events).trans (by rw [hg]))

theorem heldBy_added {w : ℕ} {n : Note} (hw : s.workers[w]? = some (.acked n)) (hacked : g (.acked n) = [n])
    (hidle : g .idle = []) :
    heldBy g f (added C s w n) + tally f ((add C.aggregator C.libs.segmentation s.aggregator n).2.lost n) =
      heldBy g f s := by
  have hset :
      tally (fun p => tally f (g p)) (s.workers.set w .idle) + f n = tally (fun p => tally f (g p)) s.workers := by
    have h := tally_set (fun p : Worker => tally f (g p)) (y := .idle) hw
    simpa only [hacked, hidle, tally_cons, tally_nil, add_zero] using h
  have hadd := add_conserves f C.aggregator C.libs.segmentation s.aggregator n
  have hleave : ∀ a : Added Note, tally f (a.leaving n) =
      tally (fun r : Render S => tally f r.toast.sources) (addRenders S a) + tally f (a.lost n) := by
    intro a
    cases a <;> simp [Added.leaving, addRenders, Added.lost]
  rw [hleave] at hadd
  simp only [heldBy, added, went, tally_append]
  rw [← hset]
  refine add_right_cancel (b := f n) ?_
  rw [show ∀ a b c d e : Multiset ι, a + b + (c + d) + e + f n = (b + (d + e)) + a + c + f n by intros; abel, hadd]
  abel

theorem heldBy_flushed (key : Key) : heldBy g f (flushed C s key) = heldBy g f s := by
  have hflush := flush_conserves f C.libs.segmentation s.aggregator key
  have hr : ∀ t : Option (ToastRequest Note),
      tally (fun r : Render S => tally f r.toast.sources) (flushRenders S key t) = tally f (sourcesOf t) := by
    intro t
    cases t <;> simp [flushRenders, sourcesOf]
  simp only [heldBy, flushed, tally_append, hr, ← hflush]
  abel

/-- a render task that goes on keeps its events -/
theorem heldBy_render {i : ℕ} {r : Render S} (hr : s.renders[i]? = some r) (task : Option S.Task) (outs : List S.Out)
    (log : List (Event S)) :
    heldBy g f { s with renders := s.renders.set i { r with task := task, outs := outs }, log := log } =
      heldBy g f s := by
  have h := tally_set (fun r : Render S => tally f r.toast.sources) (y := { r with task := task, outs := outs }) hr
  simp only [heldBy, add_right_cancel h]

/-- **What a step does to the parsed events.** A worker has parsed one more, or `add` lets some go, or the same are
held as before. -/
theorem held_trans (h : Trans C s o s') :
    (∃ (w : ℕ) (e : Ticketed ReceivedEvent) (n : InboundNotification), s.workers[w]? = some (.received e) ∧
      parseEvent C.libs e.val.payload e.val.receivedAt e.val.seq = .ok n ∧
      held f s' = held f s + f ⟨e.ticket, n⟩) ∨
    (∃ w n, s' = added C s w n ∧ s.workers[w]? = some (.acked n) ∧
      held f s' + tally f ((add C.aggregator C.libs.segmentation s.aggregator n).2.lost n) = held f s) ∨
    held f s' = held f s := by
  cases h with
  | passed w now e n dedup hw hparse =>
    have h := heldBy_went Worker.notes f hw (.deduped ⟨e.ticket, n⟩) [.passed e.ticket]
    simp only [Worker.notes, tally_nil, tally_cons, add_zero] at h
    exact Or.inl ⟨w, e, n, hw, hparse, h⟩
  | added w n hw => exact Or.inr (Or.inl ⟨w, n, rfl, hw, heldBy_added _ f hw rfl rfl⟩)
  | received w e rest hw hq =>
    have h : heldBy Worker.notes f (went s w (.received e) []) = held f s := heldBy_went_same _ f hw rfl
    exact Or.inr (Or.inr h)
  | exited w hw => exact Or.inr (Or.inr (heldBy_went_same _ f hw rfl))
  | rejected w now e error hw => exact Or.inr (Or.inr (heldBy_went_same _ f hw rfl))
  | suppressed w now e n dedup hw =>
    have h : heldBy Worker.notes f (went s w .idle [.suppressed e.ticket]) = held f s := heldBy_went_same _ f hw rfl
    exact Or.inr (Or.inr h)
  | observed w n hw => exact Or.inr (Or.inr (heldBy_went_same _ f hw rfl))
  | ackEnded w n outcome hw => exact Or.inr (Or.inr (heldBy_went_same _ f hw rfl))
  | fired key => exact Or.inr (Or.inr (heldBy_flushed _ f key))
  | flushedNext key keys => exact Or.inr (Or.inr (heldBy_flushed _ f key))
  | renderStarted i r hr => exact Or.inr (Or.inr (heldBy_render _ f hr _ _ _))
  | sinkStepped i r t t' label out hr => exact Or.inr (Or.inr (heldBy_render _ f hr _ _ _))
  | enqueued | refused | closed | shutdown | closing | drained => exact Or.inr (Or.inr rfl)

end

/-! ## Tickets -/

def ticketOf (n : Note) : Multiset ℕ := {n.ticket}

theorem mem_tickets {l : List Note} {t : ℕ} : t ∈ tally ticketOf l ↔ ∃ n ∈ l, n.ticket = t := by
  rw [mem_tally]
  simp only [ticketOf, Multiset.mem_singleton, eq_comm]

/-- the ticket of an event that a worker has not parsed yet -/
def Worker.raw : Worker → Multiset ℕ
  | .received e => {e.ticket}
  | _ => 0

/-- the ticket of the event that the agent lets go without rendering it -/
def Event.settled : Event S → Multiset ℕ
  | .rejected t _ | .suppressed t | .overflow t => {t}
  | .discarded m _ => {m.ticket}
  | _ => 0

/-- the tickets in all places where an accepted event can be -/
def places (s : St S) : Multiset ℕ :=
  tally (fun e => {e.ticket}) s.queue + tally Worker.raw s.workers + held ticketOf s + tally Event.settled s.log

/-- a worker that goes on hands over the event it had -/
theorem places_went {w : ℕ} {p phase : Worker} {events : List (Event S)} (hw : s.workers[w]? = some p)
    (h : p.raw + tally ticketOf p.notes = phase.raw + tally ticketOf phase.notes + tally Event.settled events) :
    places (went s w phase events) = places s := by
  have hraw := tally_set Worker.raw (y := phase) hw
  have hheld : held ticketOf (went s w phase events) + tally ticketOf p.notes =
      held ticketOf s + tally ticketOf phase.notes := heldBy_went _ ticketOf hw phase events
  refine add_right_cancel (b := p.raw + tally ticketOf p.notes) ?_
  calc places (went s w phase events) + (p.raw + tally ticketOf p.notes)
      = tally (fun e => {e.ticket}) s.queue + (tally Worker.raw (s.workers.set w phase) + p.raw) +
          (held ticketOf (went s w phase events) + tally ticketOf p.notes) +
          (tally Event.settled s.log + tally Event.settled events) := by
        simp only [places, went, tally_append]
        abel
    _ = places s + (p.raw + tally ticketOf p.notes) := by
        rw [hraw, hheld, h]
        simp only [places]
        abel

theorem settled_addEvents (n : Note) (a : Added Note) :
    tally (Event.settled (S := S)) (addEvents S n a) = tally ticketOf (a.lost n) := by
  cases a with
  | joined gone =>
    induction gone with
    | nil => rfl
    | cons m gone ih => simpa [addEvents, Added.lost, Event.settled, ticketOf] using ih
  | rendered | dropped | opened => simp [addEvents, Added.lost, Event.settled, ticketOf]

/-- **Every accepted event is in one place.** -/
theorem places_trans (h : Trans C s o s') (hp : places s = Multiset.range s.accepted.length) :
    places s' = Multiset.range s'.accepted.length := by
  have hsettled : ∀ e : Event S, e.settled = 0 → tally Event.settled (s.log ++ [e]) = tally Event.settled s.log :=
    fun e he => by simp [he]
  cases h with
  | enqueued e =>
    have : places (enqueued s e) = places s + {s.accepted.length} := by
      simp only [places, enqueued, held, heldBy, tally_append, tally_cons, tally_nil, add_zero]
      abel
    rw [this, hp, add_comm, Multiset.singleton_add, ← Multiset.range_succ]
    simp [enqueued]
  | received w e rest hw hq =>
    have hraw := tally_set Worker.raw (y := .received e) hw
    have hheld : held ticketOf (went s w (.received e) []) = held ticketOf s := heldBy_went_same _ ticketOf hw rfl
    simp only [Worker.raw, add_zero] at hraw
    refine Eq.trans ?_ hp
    calc tally (fun e => {e.ticket}) rest + tally Worker.raw (s.workers.set w (.received e)) +
          held ticketOf (went s w (.received e) []) + tally Event.settled (s.log ++ [])
        = places s := by
          rw [hraw, hheld, List.append_nil]
          simp only [places, hq, tally_cons]
          abel
  | added w n hw =>
    refine Eq.trans ?_ hp
    have hraw := tally_set Worker.raw (y := .idle) hw
    have hheld : held ticketOf (added C s w n) +
        tally ticketOf ((add C.aggregator C.libs.segmentation s.aggregator n).2.lost n) = held ticketOf s :=
      heldBy_added _ ticketOf hw rfl rfl
    simp only [Worker.raw, add_zero] at hraw
    calc places (added C s w n)
        = tally (fun e => {e.ticket}) s.queue + tally Worker.raw (s.workers.set w .idle) +
            (held ticketOf (added C s w n) +
              tally ticketOf ((add C.aggregator C.libs.segmentation s.aggregator n).2.lost n)) +
            tally Event.settled s.log := by
          rw [← settled_addEvents (S := S)]
          simp only [places, added, went, tally_append]
          abel
      _ = places s := by
          rw [hraw, hheld]
          simp only [places]
  | exited w hw => exact (places_went hw rfl).trans hp
  | rejected w now e error hw => exact (places_went hw rfl).trans hp
  | passed w now e n dedup hw => exact (places_went hw rfl).trans hp
  | suppressed w now e n dedup hw => exact (places_went hw rfl).trans hp
  | observed w n hw => exact (places_went hw rfl).trans hp
  | ackEnded w n outcome hw => exact (places_went hw rfl).trans hp
  | fired key => exact (congrArg (_ + · + _) (heldBy_flushed _ ticketOf key)).trans hp
  | flushedNext key keys => exact (congrArg (_ + · + _) (heldBy_flushed _ ticketOf key)).trans hp
  | refused e => exact (congrArg (_ + ·) (hsettled (.refused e) rfl)).trans hp
  | renderStarted i r hr =>
    exact (congrArg₂ (_ + · + ·) (heldBy_render _ ticketOf hr _ _ _) (hsettled (.rendered i r.toast) rfl)).trans hp
  | sinkStepped i r t t' label out hr =>
    exact (congrArg₂ (_ + · + ·) (heldBy_render _ ticketOf hr _ _ _) (hsettled (.out i out) rfl)).trans hp
  | closed | shutdown | closing | drained => exact hp

theorem places_run (C : Config) (S : RenderSink) (ops : List (Op S)) :
    places (after C S ops) = Multiset.range (after C S ops).accepted.length := by
  refine run_inv_trans (fun _ _ _ => places_trans) ?_ ops
  have hworkers : ∀ p ∈ List.replicate C.pipeline.workers Worker.idle, p = .idle := fun p => List.eq_of_mem_replicate
  have hraw : tally Worker.raw (List.replicate C.pipeline.workers .idle) = 0 :=
    tally_eq_zero fun p hp => by rw [hworkers p hp]; rfl
  have hnotes : tally (fun p : Worker => tally ticketOf p.notes) (List.replicate C.pipeline.workers .idle) = 0 :=
    tally_eq_zero fun p hp => by rw [hworkers p hp]; rfl
  simp [places, held, heldBy, init, Inner.new, hraw, hnotes]

/-! ## Provenance -/

/-- the parsed events that the agent holds -/
def notes (s : St S) : Multiset Note := held (fun n => {n}) s

theorem mem_notes {n : Note} : n ∈ notes s ↔
    (∃ p ∈ s.workers, n ∈ p.notes) ∨ (∃ key b, s.aggregator.buckets.lookup key = some b ∧ n ∈ b.events) ∨
      ∃ r ∈ s.renders, n ∈ r.toast.sources := by
  have hlist : ∀ l : List Note, n ∈ tally (fun n => ({n} : Multiset Note)) l ↔ n ∈ l := fun l => by simp [mem_tally]
  simp only [notes, held, heldBy, Multiset.mem_add, mem_tally, mem_holdings, hlist, or_assoc]

/-- `n` is what the accepted event of its ticket parses to -/
def Parsed (C : Config) (accepted : List ReceivedEvent) (n : Note) : Prop :=
  ∃ e, accepted[n.ticket]? = some e ∧ parseEvent C.libs e.payload e.receivedAt e.seq = .ok n.val

/-- a log entry is true of the accepted event that it names -/
def Event.Sound (C : Config) (accepted : List ReceivedEvent) : Event S → Prop
  | .rejected t error =>
    ∃ e, accepted[t]? = some e ∧ parseEvent C.libs e.payload e.receivedAt e.seq = .error error
  | .suppressed t | .passed t | .observedEnd t _ | .overflow t => ∃ n, Parsed C accepted ⟨t, n⟩
  | .discarded m n => Parsed C accepted m ∧ (note n).replaceable = true ∧ (m = n ∨ seqOf m ≤ seqOf n)
  | .observed t ack => ∃ n, Parsed C accepted ⟨t, n⟩ ∧ ack = observedAck C ⟨t, n⟩
  | .refused _ | .rendered _ _ | .out _ _ => True

structure Sourced (C : Config) (s : St S) : Prop where
  queued : ∀ e ∈ s.queue, s.accepted[e.ticket]? = some e.val
  received : ∀ e, .received e ∈ s.workers → s.accepted[e.ticket]? = some e.val
  parsed : ∀ n ∈ notes s, Parsed C s.accepted n
  logged : ∀ e ∈ s.log, e.Sound C s.accepted

theorem accepted_trans (h : Trans C s o s') : s.accepted <+: s'.accepted := by
  cases h with
  | enqueued e => exact List.prefix_append _ _
  | _ => exact List.prefix_refl _

theorem getElem?_mono {α : Type*} {a b : List α} (h : a <+: b) {i : ℕ} {x : α} (hx : a[i]? = some x) :
    b[i]? = some x := by
  obtain ⟨l, rfl⟩ := h
  rw [List.getElem?_append_left (List.getElem?_eq_some_iff.1 hx).1, hx]

theorem Parsed.mono {a b : List ReceivedEvent} (hab : a <+: b) {n : Note} (h : Parsed C a n) : Parsed C b n := by
  obtain ⟨e, he, hparse⟩ := h
  exact ⟨e, getElem?_mono hab he, hparse⟩

theorem Event.Sound.mono {a b : List ReceivedEvent} (hab : a <+: b) {e : Event S} (h : e.Sound C a) :
    e.Sound C b := by
  cases e with
  | rejected t error => exact h.imp fun e he => ⟨getElem?_mono hab he.1, he.2⟩
  | suppressed | passed | observedEnd | overflow => exact h.imp fun n hn => hn.mono hab
  | discarded m n => exact ⟨h.1.mono hab, h.2⟩
  | observed t ack => exact h.imp fun n hn => ⟨hn.1.mono hab, hn.2⟩
  | refused | rendered | out => trivial

/-- where the events a worker has received, and those queued, come from -/
theorem intake_trans (h : Trans C s o s') (hs : Sourced C s) :
    (∀ e ∈ s'.queue, s'.accepted[e.ticket]? = some e.val) ∧
    (∀ e, .received e ∈ s'.workers → s'.accepted[e.ticket]? = some e.val) := by
  have hworkers : ∀ {w phase e}, (∀ e, phase ≠ .received e) → .received e ∈ s.workers.set w phase →
      s.accepted[e.ticket]? = some e.val := by
    intro w phase e hphase he
    rcases List.mem_or_eq_of_mem_set he with he | he
    · exact hs.received e he
    · exact absurd he.symm (hphase e)
  cases h with
  | enqueued e =>
    refine ⟨fun e' he' => ?_, fun e' he' => getElem?_mono (List.prefix_append _ _) (hs.received e' he')⟩
    rcases List.mem_append.1 he' with he' | he'
    · exact getElem?_mono (List.prefix_append _ _) (hs.queued e' he')
    · rw [List.mem_singleton.1 he']
      simp [enqueued]
  | received w e rest hw hq =>
    refine ⟨fun e' he' => hs.queued e' (hq ▸ List.mem_cons_of_mem _ he'), fun e' he' => ?_⟩
    rcases List.mem_or_eq_of_mem_set he' with he' | he'
    · exact hs.received e' he'
    · rw [Worker.received.inj he']
      exact hs.queued e (hq ▸ List.mem_cons_self)
  | exited | rejected | passed | suppressed | observed | ackEnded | added =>
    exact ⟨hs.queued, fun e he => hworkers (by simp) he⟩
  | refused | fired | renderStarted | sinkStepped | closed | shutdown | flushedNext | closing | drained =>
    exact ⟨hs.queued, hs.received⟩

theorem joined_discards {n : Note} {gone : List Note}
    (ha : (add C.aggregator C.libs.segmentation s.aggregator n).2 = .joined gone) :
    ∀ m ∈ gone, (note n).replaceable = true ∧ (m = n ∨ seqOf m ≤ seqOf n) := by
  intro m hm
  rcases add_cases C.aggregator C.libs.segmentation s.aggregator n with ⟨_, h⟩ | ⟨_, bucket, _, h⟩ | ⟨_, _, _, h⟩ |
    ⟨_, _, _, _, h⟩ <;> rw [h] at ha <;> cases ha
  obtain ⟨hr, ⟨_, hle⟩ | ⟨heq, _⟩⟩ := mem_discarded hm
  · exact ⟨hr, Or.inr hle⟩
  · exact ⟨hr, Or.inl heq⟩

/-- what is recorded is true of the event it names -/
theorem logged_trans (h : Trans C s o s') (hs : Sourced C s) : ∀ e ∈ s'.log, e.Sound C s.accepted := by
  have hold : ∀ {events : List (Event S)}, (∀ e ∈ events, e.Sound C s.accepted) →
      ∀ e ∈ s.log ++ events, e.Sound C s.accepted := by
    intro events hevents e he
    rcases List.mem_append.1 he with he | he
    · exact hs.logged e he
    · exact hevents e he
  have hworker : ∀ {w : ℕ} {p : Worker} {n : Note}, s.workers[w]? = some p → n ∈ p.notes → Parsed C s.accepted n :=
    fun hw hn => hs.parsed _ (mem_notes.2 (Or.inl ⟨_, List.mem_of_getElem? hw, hn⟩))
  cases h with
  | rejected w now e error hw hparse =>
    exact hold (List.forall_mem_singleton.2 ⟨e.val, hs.received e (List.mem_of_getElem? hw), hparse⟩)
  | passed w now e n dedup hw hparse =>
    exact hold (List.forall_mem_singleton.2 ⟨n, e.val, hs.received e (List.mem_of_getElem? hw), hparse⟩)
  | suppressed w now e n dedup hw hparse =>
    exact hold (List.forall_mem_singleton.2 ⟨n, e.val, hs.received e (List.mem_of_getElem? hw), hparse⟩)
  | observed w n hw =>
    exact hold (List.forall_mem_singleton.2 ⟨n.val, hworker hw (List.mem_singleton_self n), rfl⟩)
  | ackEnded w n outcome hw =>
    exact hold (List.forall_mem_singleton.2 ⟨n.val, hworker hw (List.mem_singleton_self n)⟩)
  | added w n hw =>
    refine hold fun e he => ?_
    have hlost : ∀ m ∈ (add C.aggregator C.libs.segmentation s.aggregator n).2.lost n, Parsed C s.accepted m := by
      intro m hm
      refine hs.parsed m ?_
      rw [notes, held, ← heldBy_added Worker.notes (fun n => {n}) hw rfl rfl]
      exact Multiset.mem_add.2 (Or.inr (mem_tally.2 ⟨m, hm, Multiset.mem_singleton_self m⟩))
    cases ha : (add C.aggregator C.libs.segmentation s.aggregator n).2 with
    | joined gone =>
      rw [ha] at he hlost
      obtain ⟨m, hm, rfl⟩ := List.mem_map.1 he
      obtain ⟨hreplaceable, hm'⟩ := joined_discards ha m hm
      exact ⟨hlost m hm, hreplaceable, hm'⟩
    | dropped =>
      rw [ha] at he hlost
      rw [List.mem_singleton.1 he]
      exact ⟨n.val, hlost n (List.mem_singleton_self n)⟩
    | rendered | opened =>
      rw [ha] at he
      simp [addEvents] at he
  | refused | renderStarted | sinkStepped => exact hold (List.forall_mem_singleton.2 trivial)
  | received | exited => exact hold (by simp)
  | enqueued | fired | closed | shutdown | flushedNext | closing | drained => exact hs.logged

/-- **Events keep their tickets.** -/
theorem sourced_trans (h : Trans C s o s') (hs : Sourced C s) : Sourced C s' := by
  have hpre := accepted_trans h
  obtain ⟨hqueued, hreceived⟩ := intake_trans h hs
  refine ⟨hqueued, hreceived, fun m hm => ?_, fun e he => (logged_trans h hs e he).mono hpre⟩
  rcases held_trans (fun n => ({n} : Multiset Note)) h with ⟨w, e, n, hw, hparse, hheld⟩ | ⟨w, n, _, hw, hheld⟩ | hheld
  · rw [notes, hheld, Multiset.mem_add, Multiset.mem_singleton] at hm
    rcases hm with hm | rfl
    · exact (hs.parsed m hm).mono hpre
    · exact ⟨e.val, getElem?_mono hpre (hs.received e (List.mem_of_getElem? hw)), hparse⟩
  · refine (hs.parsed m ?_).mono hpre
    rw [notes, ← hheld]
    exact Multiset.mem_add.2 (Or.inl hm)
  · rw [notes, hheld] at hm
    exact (hs.parsed m hm).mono hpre

theorem sourced_run (C : Config) (S : RenderSink) (ops : List (Op S)) :
    Sourced C (after C S ops) := by
  refine run_inv_trans (fun _ _ _ => sourced_trans) ?_ ops
  refine ⟨by simp [init], fun e he => ?_, fun n hn => ?_, by simp [init]⟩
  · cases List.eq_of_mem_replicate he
  · rcases mem_notes.1 hn with ⟨p, hp, hn⟩ | ⟨key, b, hb, _⟩ | ⟨r, hr, _⟩
    · rw [List.eq_of_mem_replicate hp] at hn
      cases hn
    · simp [init, Inner.new] at hb
    · cases hr

end NotifyAgent.Pipeline
