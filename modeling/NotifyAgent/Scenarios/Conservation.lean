/-
Conservation of events. A run may enqueue anything, interleave the workers' steps, fire the bucket timers and start the
renders in any order; once both stages of the shutdown are over, every event that `try_enqueue` accepted has met exactly
one fate, and met it once: rejected by the parser, suppressed as a duplicate, dropped at the bucket limit, discarded by
the replaceable rule, or passed to the sink in one toast.

- `Closing`: what holds through the shutdown; nothing is left in the queue, with a worker, in a bucket or unrendered;
- `fates_complete`: then the log accounts for every ticket once;
- `logged_at`: a log entry was recorded by a step of the run, which says what a fate means (`Fate.Holds`);
- `offers_run`: every event offered was accepted or is counted as refused;
- `conservation`: the fates, what each of them means, and the count of refused events.
-/
import Mathlib.Tactic
import NotifyAgent.Core.RenderTasks

namespace NotifyAgent.Conservation

open NotifyAgent.Notification NotifyAgent.Parser NotifyAgent.Aggregator NotifyAgent.Pipeline
open NotifyAgent.Dedup (tryAddAt)
open NotifyAgent.Lib.Ledger
open NotifyAgent.Lib.Machine (run run_append run_cons run_log run_snoc)

variable {C : Config} {S : RenderSink} {s s' : St S} {o : Op S}

/-! ## The shutdown -/

structure Closing (C : Config) (s : St S) : Prop where
  pool : s.workers.length = C.pipeline.workers
  /-- a worker exits on a closed and drained queue only -/
  exited : .exited ∈ s.workers → s.queue = [] ∧ s.intakeOpen = false
  joined : s.stage ≠ .running → ∀ p ∈ s.workers, p = .exited
  flushing : ∀ keys, s.stage = .flushing keys → ∀ key, (s.aggregator.buckets.lookup key).isSome → key ∈ keys
  drained : s.stage = .draining ∨ s.stage = .returned → ∀ key, s.aggregator.buckets.lookup key = none
  ended : s.stage = .returned → ∀ r ∈ s.renders, r.ended = true

theorem flushed_renders {key : Key} (h : s.aggregator.buckets.lookup key = none) :
    (flushed C s key).renders = s.renders := by
  rcases flush_cases C.libs.segmentation s.aggregator key with ⟨_, hf⟩ | ⟨bucket, hl, _⟩
  · simp [flushed, hf, flushRenders]
  · rw [h] at hl
    cases hl

/-- a worker takes a step only before the shutdown -/
theorem closing_went {w : ℕ} {p phase : Worker} (hs : Closing C s) (hw : s.workers[w]? = some p) (hp : p ≠ .exited)
    (hphase : phase = .exited → s.queue = [] ∧ s.intakeOpen = false)
    (hpool : s'.workers = s.workers.set w phase) (hqueue : s.queue = [] → s'.queue = [])
    (hopen : s'.intakeOpen = s.intakeOpen) (hstage : s'.stage = s.stage) : Closing C s' := by
  have hrunning : s.stage = .running := by
    by_contra hne
    exact hp (hs.joined hne p (List.mem_of_getElem? hw))
  refine ⟨by rw [hpool, List.length_set, hs.pool], fun hm => ?_, fun h => ?_, fun keys h => ?_, fun h => ?_,
    fun h => ?_⟩
  · rw [hpool] at hm
    rw [hopen]
    rcases List.mem_or_eq_of_mem_set hm with hm | hm
    · exact (hs.exited hm).imp_left hqueue
    · exact (hphase hm.symm).imp_left hqueue
  · exact absurd (hstage.trans hrunning) h
  · cases (hstage.trans hrunning).symm.trans h
  · rcases h with h | h <;> cases (hstage.trans hrunning).symm.trans h
  · cases (hstage.trans hrunning).symm.trans h

/-- a timer that fires during the shutdown only empties a bucket -/
theorem closing_flushed (key : Key) (hs : Closing C s) : Closing C (flushed C s key) := by
  refine ⟨hs.pool, hs.exited, hs.joined, fun keys h k hk => ?_, fun h k => ?_, fun h => ?_⟩
  · simp only [flushed, flush_lookup] at hk
    split_ifs at hk
    · cases hk
    · exact hs.flushing keys h k hk
  · simp only [flushed, flush_lookup, hs.drained h k, ite_self]
  · rw [flushed_renders (hs.drained (Or.inr h) key)]
    exact hs.ended h

theorem closing_renderSet {i : ℕ} {r r' : Render S} {log : List (Event S)} (hr : s.renders[i]? = some r)
    (hr' : r.ended = true → r'.ended = true) (hs : Closing C s) :
    Closing C { s with renders := s.renders.set i r', log := log } := by
  refine ⟨hs.pool, hs.exited, hs.joined, hs.flushing, hs.drained, fun h q hq => ?_⟩
  rcases List.mem_or_eq_of_mem_set hq with hq | rfl
  · exact hs.ended h q hq
  · exact hr' (hs.ended h r (List.mem_of_getElem? hr))

theorem closing_trans (h : Trans C s o s') (hs : Closing C s) : Closing C s' := by
  cases h with
  | enqueued e hopen =>
    refine ⟨hs.pool, fun hm => ?_, hs.joined, hs.flushing, hs.drained, hs.ended⟩
    cases hopen.symm.trans (hs.exited hm).2
  | received w e rest hw hq => exact closing_went hs hw (by simp) (by simp) rfl (by simp [hq]) rfl rfl
  | exited w hw hq hclosed => exact closing_went hs hw (by simp) (fun _ => ⟨hq, hclosed⟩) rfl id rfl rfl
  | rejected w now e error hw => exact closing_went hs hw (by simp) (by simp) rfl id rfl rfl
  | passed w now e n dedup hw => exact closing_went hs hw (by simp) (by simp) rfl id rfl rfl
  | suppressed w now e n dedup hw => exact closing_went hs hw (by simp) (by simp) rfl id rfl rfl
  | observed w n hw => exact closing_went hs hw (by simp) (by simp) rfl id rfl rfl
  | ackEnded w n outcome hw => exact closing_went hs hw (by simp) (by simp) rfl id rfl rfl
  | added w n hw => exact closing_went hs hw (by simp) (by simp) rfl id rfl rfl
  | fired key => exact closing_flushed key hs
  | renderStarted i r hr hnew => exact closing_renderSet hr (by simp [Render.ended, hnew]) hs
  | sinkStepped i r t t' label out hr ht hstep =>
    refine closing_renderSet hr (fun hended => ?_) hs
    have hfinished : S.finished t = true := by simpa [Render.ended, ht] using hended
    cases (S.finished_step t label hfinished).symm.trans hstep
  | closed => exact ⟨hs.pool, fun hm => ⟨(hs.exited hm).1, rfl⟩, hs.joined, hs.flushing, hs.drained, hs.ended⟩
  | shutdown keys hstage hworkers hkeys =>
    refine ⟨hs.pool, hs.exited, fun _ p hp => ?_, fun keys' h k hk => ?_, by simp, by simp⟩
    · have := List.all_eq_true.1 hworkers p hp
      cases p <;> simp [Worker.isExited] at this ⊢
    · rw [← Stage.flushing.inj h]
      exact hkeys.mem_iff.2 (AList.mem_keys.1 (AList.lookup_isSome.1 hk))
  | flushedNext key keys hstage =>
    refine ⟨hs.pool, hs.exited, fun _ => hs.joined (by simp [hstage]), fun keys' h k hk => ?_, by simp, by simp⟩
    rw [← Stage.flushing.inj h]
    simp only [flushed, flush_lookup] at hk
    split_ifs at hk with hne
    · cases hk
    · exact (List.mem_cons.1 (hs.flushing _ hstage k hk)).resolve_left hne
  | closing hstage =>
    refine ⟨hs.pool, hs.exited, fun _ => hs.joined (by simp [hstage]), by simp, fun _ k => ?_, by simp⟩
    by_contra hne
    cases hs.flushing [] hstage k (Option.isSome_iff_ne_none.2 hne)
  | drained hstage hended =>
    exact ⟨hs.pool, hs.exited, fun _ => hs.joined (by simp [hstage]), by simp, fun _ => hs.drained (Or.inl hstage),
      fun _ => List.all_eq_true.1 hended⟩
  | refused => exact ⟨hs.pool, hs.exited, hs.joined, hs.flushing, hs.drained, hs.ended⟩

theorem closing_run (C : Config) (S : RenderSink) (ops : List (Op S)) : Closing C (after C S ops) := by
  refine run_inv_trans (fun _ _ _ => closing_trans) ?_ ops
  refine ⟨List.length_replicate, fun hm => ?_, fun h => absurd rfl h, fun _ h => ?_, fun h => ?_, fun h => ?_⟩
  · cases List.eq_of_mem_replicate hm
  · cases h
  · rcases h with h | h <;> cases h
  · cases h

/-! ## Fates -/

inductive Fate where
  | rejected
  | suppressed
  | overflow
  | discarded
  | rendered (i : ℕ)
deriving DecidableEq, Repr

/-- the tickets a log entry disposes of, and how -/
def fatesOf : Event S → Multiset (ℕ × Fate)
  | .rejected t _ => {(t, .rejected)}
  | .suppressed t => {(t, .suppressed)}
  | .overflow t => {(t, .overflow)}
  | .discarded m _ => {(m.ticket, .discarded)}
  | .rendered i toast => tally (fun n => {(n.ticket, .rendered i)}) toast.sources
  | _ => 0

def fates (s : St S) : Multiset (ℕ × Fate) := tally fatesOf s.log

/-- `try_enqueue` returned false -/
def isRefused : Event S → Bool
  | .refused _ => true
  | _ => false

/-- what became of the accepted event of ticket `t`: it did not parse; or the cache refused its key when a worker
processed it; or a worker added it while its bucket was not open and the map was full; or a replaceable event of its
bucket cleared it when that was added, or it was itself replaceable and stale; or it is in the toast that render task
`i` showed -/
def Fate.Holds (C : Config) (S : RenderSink) (ops : List (Op S)) (t : ℕ) : Fate → Prop
  | .rejected => ∃ e error, (after C S ops).accepted[t]? = some e ∧
      parseEvent C.libs e.payload e.receivedAt e.seq = .error error
  | .suppressed => ∃ before w now later e n dedup, ops = before ++ .process w now :: later ∧
      (after C S before).workers[w]? = some (.received e) ∧ e.ticket = t ∧ Parsed C (after C S ops).accepted ⟨t, n⟩ ∧
      tryAddAt C.dedupCapacity C.dedupTtl (after C S before).dedup now n.deduplicationKey = (dedup, false)
  | .overflow => ∃ before w later n, ops = before ++ .add w :: later ∧
      (after C S before).workers[w]? = some (.acked n) ∧ n.ticket = t ∧ Parsed C (after C S ops).accepted n ∧
      (after C S before).aggregator.buckets.lookup (keyOf n) = none ∧
      C.aggregator.maxBuckets ≤ (after C S before).aggregator.buckets.keys.length
  | .discarded => ∃ before w later bucket m n, ops = before ++ .add w :: later ∧
      (after C S before).workers[w]? = some (.acked n) ∧ Parsed C (after C S ops).accepted n ∧
      (after C S before).aggregator.buckets.lookup (keyOf n) = some bucket ∧ (note n).replaceable = true ∧
      m.ticket = t ∧ Parsed C (after C S ops).accepted m ∧
      ((m ∈ bucket.events ∧ seqOf m ≤ seqOf n) ∨ (m = n ∧ ∃ e ∈ bucket.events, seqOf n < seqOf e))
  | .rendered i => ∃ r n, (after C S ops).renders[i]? = some r ∧ .rendered i r.toast ∈ (after C S ops).log ∧
      n ∈ r.toast.sources ∧ n.ticket = t ∧ Parsed C (after C S ops).accepted n

theorem fates_tickets (s : St S) :
    (fates s).map Prod.fst = tally Event.settled s.log + tally Event.called s.log := by
  rw [fates, map_tally, ← tally_add]
  congr 1
  funext e
  cases e with
  | rendered i toast =>
    simp only [fatesOf, Event.settled, Event.called, map_tally, Multiset.map_singleton, zero_add]
    rfl
  | _ => simp [fatesOf, Event.settled, Event.called]

/-- **Once the shutdown is over, every ticket has been disposed of, once.** -/
theorem fates_complete (hworkers : 1 ≤ C.pipeline.workers) (hp : places s = Multiset.range s.accepted.length)
    (hs : Closing C s) (hl : RendersLogged s) (hdone : s.stage = .returned) :
    (fates s).map Prod.fst = Multiset.range s.accepted.length := by
  have hexited : ∀ p ∈ s.workers, p = .exited := hs.joined (by simp [hdone])
  have hqueue : s.queue = [] := by
    obtain ⟨p, hp⟩ := List.exists_mem_of_length_pos (hs.pool ▸ hworkers)
    exact (hs.exited (hexited p hp ▸ hp)).1
  have hraw : tally Worker.raw s.workers = 0 := tally_eq_zero fun p hp => by rw [hexited p hp]; rfl
  have hnotes : tally (fun p => tally ticketOf p.notes) s.workers = 0 :=
    tally_eq_zero fun p hp => by rw [hexited p hp]; rfl
  have hbuckets : holdings (fun b => tally ticketOf b.events) s.aggregator.buckets = 0 := by
    refine Multiset.eq_zero_of_forall_notMem fun t ht => ?_
    obtain ⟨key, b, hb, _⟩ := mem_holdings.1 ht
    cases (hs.drained (Or.inr hdone) key).symm.trans hb
  have hrenders : tally Render.called s.renders = tally (fun r => tally ticketOf r.toast.sources) s.renders := by
    refine congrArg List.sum (List.map_congr_left fun r hr => ?_)
    have hstarted : r.task.isSome = true := by
      have := hs.ended hdone r hr
      cases ht : r.task <;> simp [Render.ended, ht] at this ⊢
    rw [Render.called, if_pos hstarted]
  rw [fates_tickets, hl.called, hrenders, ← hp]
  simp only [places, held, heldBy, hqueue, hraw, hnotes, hbuckets, tally_nil, zero_add]
  exact add_comm _ _

/-! ## What the entries mean -/

/-- **Where an entry comes from**: a step of the run recorded it. -/
theorem logged_at {ops : List (Op S)} {e : Event S} (he : e ∈ (after C S ops).log) :
    ∃ before o later s', ops = before ++ o :: later ∧ Trans C (after C S before) o s' ∧
      e ∉ (after C S before).log ∧ e ∈ s'.log := by
  induction ops using List.reverseRecOn with
  | nil => cases he
  | append_singleton ops o ih =>
    by_cases hold : e ∈ (after C S ops).log
    · obtain ⟨before, o', later, s', rfl, h⟩ := ih hold
      exact ⟨before, o', later ++ [o], s', by simp, h⟩
    · rw [after, run_snoc] at he
      rcases step_cases C (after C S ops) o with hsame | htrans
      · rw [hsame] at he
        exact absurd he hold
      · exact ⟨ops, o, [], _, rfl, htrans, hold, he⟩

/-- what `add` records: an event dropped at a full map, or what a replaceable event and its bucket discard -/
theorem mem_addEvents {a : Inner Note} {n : Note} {e : Event S}
    (he : e ∈ addEvents S n (add C.aggregator C.libs.segmentation a n).2) :
    (e = .overflow n.ticket ∧ a.buckets.lookup (keyOf n) = none ∧ C.aggregator.maxBuckets ≤ a.buckets.keys.length) ∨
    ∃ bucket m, e = .discarded m n ∧ a.buckets.lookup (keyOf n) = some bucket ∧ (note n).replaceable = true ∧
      ((m ∈ bucket.events ∧ seqOf m ≤ seqOf n) ∨ (m = n ∧ ∃ p ∈ bucket.events, seqOf n < seqOf p)) := by
  rcases add_cases C.aggregator C.libs.segmentation a n with ⟨-, h⟩ | ⟨-, bucket, hl, h⟩ | ⟨-, hl, hfull, h⟩ |
    ⟨-, -, -, window, h⟩ <;> rw [h] at he
  · cases he
  · obtain ⟨m, hm, rfl⟩ := List.mem_map.1 he
    obtain ⟨hreplaceable, hgone⟩ := mem_discarded hm
    exact Or.inr ⟨bucket, m, rfl, hl, hreplaceable, hgone⟩
  · exact Or.inl ⟨List.mem_singleton.1 he, hl, hfull⟩
  · cases he

/-- the step that recorded a duplicate -/
theorem suppressed_trans {t : ℕ} (h : Trans C s o s') (hold : .suppressed t ∉ s.log) (hlog : .suppressed t ∈ s'.log) :
    ∃ w now e n dedup, o = .process w now ∧ s.workers[w]? = some (.received e) ∧ e.ticket = t ∧
      parseEvent C.libs e.val.payload e.val.receivedAt e.val.seq = .ok n ∧
      tryAddAt C.dedupCapacity C.dedupTtl s.dedup now n.deduplicationKey = (dedup, false) := by
  have hnew : ∀ {events : List (Event S)}, .suppressed t ∈ s.log ++ events → .suppressed t ∈ events :=
    fun hmem => (List.mem_append.1 hmem).resolve_left hold
  cases h with
  | suppressed w now e n dedup hw hparse hadd =>
    have heq := List.mem_singleton.1 (hnew hlog)
    exact ⟨w, now, e, n, dedup, rfl, hw, (Event.suppressed.inj heq).symm, hparse, hadd⟩
  | added w n => rcases mem_addEvents (hnew hlog) with ⟨heq, -⟩ | ⟨_, _, heq, -⟩ <;> cases heq
  | refused | received | exited | rejected | passed | observed | ackEnded | renderStarted | sinkStepped =>
    exact absurd (hnew hlog) (by simp)
  | enqueued | fired | closed | shutdown | flushedNext | closing | drained => exact absurd hlog hold

/-- the step that recorded an event dropped or discarded -/
theorem lost_trans {e : Event S} (he : (∃ t, e = .overflow t) ∨ ∃ m n, e = .discarded m n) (h : Trans C s o s')
    (hold : e ∉ s.log) (hlog : e ∈ s'.log) :
    ∃ w n, o = .add w ∧ s.workers[w]? = some (.acked n) ∧
      e ∈ addEvents S n (add C.aggregator C.libs.segmentation s.aggregator n).2 := by
  have hnew : ∀ {events : List (Event S)}, e ∈ s.log ++ events → e ∈ events :=
    fun hmem => (List.mem_append.1 hmem).resolve_left hold
  cases h with
  | added w n hw => exact ⟨w, n, rfl, hw, hnew hlog⟩
  | refused | received | exited | rejected | passed | suppressed | observed | ackEnded | renderStarted | sinkStepped =>
    have hmem := hnew hlog
    rcases he with ⟨_, rfl⟩ | ⟨_, _, rfl⟩ <;> simp at hmem
  | enqueued | fired | closed | shutdown | flushedNext | closing | drained => exact absurd hlog hold

/-- what was accepted stays so -/
theorem accepted_grows (C : Config) (S : RenderSink) (before later : List (Op S)) :
    (after C S before).accepted <+: (after C S (before ++ later)).accepted := by
  have hstep : ∀ (s : St S) (o : Op S), s.accepted <+: (step C s o).accepted := by
    intro s o
    rcases step_cases C s o with hsame | htrans
    · rw [hsame]
    · exact accepted_trans htrans
  rw [after, after, run_append]
  exact run_log _ hstep _ later

/-- an event that a worker has in hand is what the accepted event of its ticket parses to -/
theorem parsed_of_acked {before later : List (Op S)} {w : ℕ} {n : Note}
    (hw : (after C S before).workers[w]? = some (.acked n)) : Parsed C (after C S (before ++ later)).accepted n :=
  ((sourced_run C S before).parsed n
    (mem_notes.2 (Or.inl ⟨_, List.mem_of_getElem? hw, List.mem_singleton_self n⟩))).mono
    (accepted_grows C S before later)

theorem holds_of_mem_fates {ops : List (Op S)} {t : ℕ} {fate : Fate} (h : (t, fate) ∈ fates (after C S ops)) :
    fate.Holds C S ops t := by
  have hs := sourced_run C S ops
  have hl := rendersLogged_run C S ops
  obtain ⟨e, he, hm⟩ := mem_tally.1 h
  have hsound := hs.logged e he
  cases e with
  | rejected t' error =>
    cases Multiset.mem_singleton.1 hm
    obtain ⟨e', he', herr⟩ := hsound
    exact ⟨e', error, he', herr⟩
  | suppressed t' =>
    cases Multiset.mem_singleton.1 hm
    obtain ⟨before, o, later, s', rfl, htrans, hold, hlog⟩ := logged_at he
    obtain ⟨w, now, e, n, dedup, rfl, hw, rfl, hparse, hadd⟩ := suppressed_trans htrans hold hlog
    have haccepted := (sourced_run C S before).received e (List.mem_of_getElem? hw)
    exact ⟨before, w, now, later, e, n, dedup, rfl, hw, rfl,
      ⟨e.val, getElem?_mono (accepted_grows C S before _) haccepted, hparse⟩, hadd⟩
  | overflow t' =>
    cases Multiset.mem_singleton.1 hm
    obtain ⟨before, o, later, s', rfl, htrans, hold, hlog⟩ := logged_at he
    obtain ⟨w, n, rfl, hw, hadded⟩ := lost_trans (Or.inl ⟨_, rfl⟩) htrans hold hlog
    rcases mem_addEvents hadded with ⟨heq, hl, hfull⟩ | ⟨_, _, heq, -⟩ <;> cases heq
    exact ⟨before, w, later, n, rfl, hw, rfl, parsed_of_acked hw, hl, hfull⟩
  | discarded m n =>
    cases Multiset.mem_singleton.1 hm
    obtain ⟨before, o, later, s', rfl, htrans, hold, hlog⟩ := logged_at he
    obtain ⟨w, n', rfl, hw, hadded⟩ := lost_trans (Or.inr ⟨_, _, rfl⟩) htrans hold hlog
    rcases mem_addEvents hadded with ⟨heq, -⟩ | ⟨bucket, m', heq, hl, hreplaceable, hgone⟩ <;> cases heq
    exact ⟨before, w, later, bucket, m, n, rfl, hw, parsed_of_acked hw, hl, hreplaceable, rfl, hsound.1, hgone⟩
  | rendered i toast =>
    obtain ⟨n, hn, hm⟩ := mem_tally.1 hm
    cases Multiset.mem_singleton.1 hm
    obtain ⟨r, hr, _, rfl⟩ := hl.toast i toast he
    have hheld : n ∈ notes (after C S ops) := mem_notes.2 (Or.inr (Or.inr ⟨r, List.mem_of_getElem? hr, hn⟩))
    exact ⟨r, n, hr, he, hn, rfl, hs.parsed n hheld⟩
  | refused | passed | observed | observedEnd | out => cases hm

/-! ## Refusals -/

theorem refused_trans (h : Trans C s o s') (hs : s.droppedQueueFull = s.log.countP isRefused) :
    s'.droppedQueueFull = s'.log.countP isRefused := by
  have hmore : ∀ {events : List (Event S)}, (∀ e ∈ events, isRefused e = false) →
      s.droppedQueueFull = (s.log ++ events).countP isRefused := by
    intro events hevents
    have hnone : events.countP isRefused = 0 := List.countP_eq_zero.2 fun e he => by simp [hevents e he]
    rw [List.countP_append, hnone, hs, Nat.add_zero]
  cases h with
  | refused e =>
    have : (s.log ++ [Event.refused e]).countP isRefused = s.log.countP isRefused + 1 := by
      rw [List.countP_append]
      rfl
    rw [Pipeline.refused, this, hs]
  | added w n =>
    refine hmore fun e he => ?_
    cases ha : (add C.aggregator C.libs.segmentation s.aggregator n).2 <;> rw [ha] at he <;> simp [addEvents] at he
    · obtain ⟨m, _, rfl⟩ := he
      rfl
    · rw [he]
      rfl
  | received | exited | rejected | passed | suppressed | observed | ackEnded | renderStarted | sinkStepped =>
    exact hmore (by simp [isRefused])
  | enqueued | fired | closed | shutdown | flushedNext | closing | drained => exact hs

/-- the events offered; once its senders are dropped there is nobody to offer one -/
def offers : List (Op S) → List ReceivedEvent
  | [] => []
  | .tryEnqueue e :: ops => e :: offers ops
  | .dropSenders :: _ => []
  | _ :: ops => offers ops

/-- the other operations do not touch the intake -/
theorem intake_step (hoffer : ∀ e, o ≠ .tryEnqueue e) (hdrop : o ≠ .dropSenders) :
    (step C s o).accepted = s.accepted ∧ (step C s o).droppedQueueFull = s.droppedQueueFull ∧
      (step C s o).intakeOpen = s.intakeOpen := by
  rcases step_cases C s o with hsame | htrans
  · rw [hsame]
    exact ⟨rfl, rfl, rfl⟩
  · generalize step C s o = s' at htrans
    cases htrans with
    | enqueued e => exact absurd rfl (hoffer e)
    | refused e => exact absurd rfl (hoffer e)
    | closed => exact absurd rfl hdrop
    | _ => exact ⟨rfl, rfl, rfl⟩

theorem offers_cons {ops : List (Op S)} (hoffer : ∀ e, o ≠ .tryEnqueue e) (hdrop : o ≠ .dropSenders) :
    offers (o :: ops) = offers ops := by
  cases o with
  | tryEnqueue e => exact absurd rfl (hoffer e)
  | dropSenders => exact absurd rfl hdrop
  | _ => rfl

/-- an offer is counted once -/
theorem offer_step (hopen : s.intakeOpen = true) (e : ReceivedEvent) :
    (step C s (.tryEnqueue e)).accepted.length + (step C s (.tryEnqueue e)).droppedQueueFull =
        s.accepted.length + s.droppedQueueFull + 1 ∧
      (step C s (.tryEnqueue e)).intakeOpen = true := by
  simp only [step, hopen, if_true]
  by_cases hroom : s.queue.length < C.pipeline.queueCapacity
  · rw [if_pos hroom]
    exact ⟨by simp [enqueued]; omega, hopen⟩
  · rw [if_neg hroom]
    exact ⟨by simp [refused]; omega, hopen⟩

theorem offers_from (C : Config) (s : St S) (ops : List (Op S)) :
    (run (step C) s ops).accepted.length + (run (step C) s ops).droppedQueueFull =
      s.accepted.length + s.droppedQueueFull + if s.intakeOpen then (offers ops).length else 0 := by
  induction ops generalizing s with
  | nil => simp [offers]
  | cons o ops ih =>
    rw [run_cons, ih]
    by_cases hoffer : ∃ e, o = .tryEnqueue e
    · obtain ⟨e, rfl⟩ := hoffer
      cases hopen : s.intakeOpen with
      | false => simp [step, hopen]
      | true =>
        obtain ⟨hcount, hopen'⟩ := offer_step (C := C) hopen e
        rw [hcount, hopen', if_pos rfl, if_pos rfl, offers, List.length_cons]
        omega
    · by_cases hdrop : o = .dropSenders
      · subst hdrop
        simp [step, offers]
      · have hoffer' : ∀ e, o ≠ .tryEnqueue e := fun e he => hoffer ⟨e, he⟩
        obtain ⟨haccepted, hdropped, hopen⟩ := intake_step (C := C) (s := s) hoffer' hdrop
        rw [haccepted, hdropped, hopen, offers_cons hoffer' hdrop]

/-- **Every event offered** was accepted or is counted as refused. -/
theorem offers_run (C : Config) (S : RenderSink) (ops : List (Op S)) :
    (after C S ops).accepted.length + (after C S ops).droppedQueueFull = (offers ops).length := by
  calc (after C S ops).accepted.length + (after C S ops).droppedQueueFull = 0 + 0 + (offers ops).length :=
        offers_from C (init C S) ops
    _ = (offers ops).length := by omega

/-! ## Conservation -/

/-- **Conservation of events.** In every run that gets through both shutdowns, each accepted event meets exactly one
fate exactly once, and `dropped_queue_full` counts the refused ones, which are the events offered and not accepted. -/
theorem conservation (C : Config) (S : RenderSink) (ops : List (Op S)) (hworkers : 1 ≤ C.pipeline.workers)
    (hdone : (after C S ops).stage = .returned) :
    (∀ t < (after C S ops).accepted.length, ∃ fate : Fate,
      (fates (after C S ops)).filter (fun p => p.1 = t) = {(t, fate)} ∧ fate.Holds C S ops t) ∧
    (∀ p ∈ fates (after C S ops), p.1 < (after C S ops).accepted.length) ∧
    (after C S ops).droppedQueueFull = (after C S ops).log.countP isRefused ∧
    (after C S ops).accepted.length + (after C S ops).droppedQueueFull = (offers ops).length := by
  have hcomplete := fates_complete hworkers (places_run C S ops) (closing_run C S ops) (rendersLogged_run C S ops) hdone
  refine ⟨fun t ht => ?_, fun p hp => ?_, run_inv_trans (fun _ _ _ => refused_trans) rfl ops, offers_run C S ops⟩
  · -- the ticket occurs once among the tickets of the fates, so one fate has it
    have hcard : ((fates (after C S ops)).filter fun p => p.1 = t).card = 1 := by
      have h := Multiset.count_map Prod.fst (fates (after C S ops)) t
      rw [hcomplete, Multiset.count_eq_one_of_mem (Multiset.nodup_range _) (Multiset.mem_range.2 ht)] at h
      rw [h]
      simp only [eq_comm]
    obtain ⟨⟨t', fate⟩, hone⟩ := Multiset.card_eq_one.1 hcard
    have hmem : (t', fate) ∈ (fates (after C S ops)).filter fun p => p.1 = t := by
      rw [hone]
      exact Multiset.mem_singleton_self _
    obtain ⟨hin, heq⟩ := Multiset.mem_filter.1 hmem
    have heq : t' = t := heq
    subst heq
    exact ⟨fate, hone, holds_of_mem_fates hin⟩
  · rw [← Multiset.mem_range, ← hcomplete]
    exact Multiset.mem_map_of_mem Prod.fst hp

/-- a run with an event of each of four fates: the first is discarded when the second joins its bucket, the third is a
duplicate, and the fourth has no payload -/
def mixedRun : List (Op instantSink) :=
  [.tryEnqueue ⟨progressPayload 'a', 0, 1⟩, .tryEnqueue ⟨progressPayload 'b', 0, 2⟩,
    .tryEnqueue ⟨progressPayload 'a', 0, 3⟩, .tryEnqueue ⟨[], 0, 4⟩,
    .recv 0, .recv 1, .process 0 0, .process 1 0, .observe 0, .ackEnd 0 .success, .add 0,
    .recv 0, .process 0 1, .recv 0, .process 0 1, .observe 1, .ackEnd 1 .timeout, .add 1,
    .dropSenders, .recv 0, .recv 1, .shutdown [(['k'], .important)], .flushNext, .close, .renderStart 0, .drained]

theorem conservation_mixedRun :
    (∀ t < (after defaultAgent instantSink mixedRun).accepted.length, ∃ fate : Fate,
      (fates (after defaultAgent instantSink mixedRun)).filter (fun p => p.1 = t) = {(t, fate)} ∧
        fate.Holds defaultAgent instantSink mixedRun t) ∧
    (∀ p ∈ fates (after defaultAgent instantSink mixedRun),
      p.1 < (after defaultAgent instantSink mixedRun).accepted.length) ∧
    (after defaultAgent instantSink mixedRun).droppedQueueFull =
      (after defaultAgent instantSink mixedRun).log.countP isRefused ∧
    (after defaultAgent instantSink mixedRun).accepted.length +
      (after defaultAgent instantSink mixedRun).droppedQueueFull = (offers mixedRun).length :=
  conservation defaultAgent instantSink mixedRun (by decide) (by decide +kernel)

example : fates (after defaultAgent instantSink mixedRun) =
    {(0, .discarded), (1, .rendered 0), (2, .suppressed), (3, .rejected)} := by decide +kernel

end NotifyAgent.Conservation
