/-
`AckingRenderSink`: shows a toast, then publishes the submitted ack of each of its sources, one after the other. The
renderer and the publisher answer as they like.

- `Trace`: what a render task has put out, in terms of where it stands; `trace_run`: it holds in every run;
- `trace_finished`: a task that has run to its end has put out a failed show and nothing else, or the submission time
  and then the ack of every source.
-/
import Mathlib.Tactic
import NotifyAgent.Core.RenderTasks

namespace NotifyAgent.AckingSink

open NotifyAgent.Text NotifyAgent.Notification NotifyAgent.Aggregator NotifyAgent.Pipeline
open NotifyAgent.Lib.Ledger

/-! ## Model -/

inductive AckTask where
  /-- in `renderer.show(&toast)` -/
  | showing (toast : ToastRequest Note)
  | failed
  /-- before the acks of these sources -/
  | acking (submittedAt : DateTime) (rest : List Note)
  /-- in the ack attempt of `n` -/
  | publishing (submittedAt : DateTime) (n : Note) (rest : List Note)
deriving DecidableEq, Repr

inductive AckLabel where
  /-- `show` returns; `none` is an error -/
  | showEnded (result : Option DateTime)
  | attempt
  | ended (outcome : Outcome)
deriving DecidableEq, Repr

inductive AckOut where
  | shown (submittedAt : DateTime)
  | showFailed
  | submitted (ticket : ℕ) (ack : AckPayload)
  | submittedEnd (ticket : ℕ) (outcome : Outcome)
deriving DecidableEq, Repr

variable (deviceId : Str)

/-- the submitted ack of a source -/
def submittedAck (submittedAt : DateTime) (source : Note) : AckPayload where
  eventId := source.val.eventId
  deviceId := deviceId
  agentReceivedAt := source.val.receivedAt
  toastSubmittedAt := some submittedAt
  status := submittedToWindows

/-- the body of `render`, step by step -/
def renderStep : AckTask → AckLabel → Option (AckTask × AckOut)
  | .showing toast, .showEnded (some submittedAt) => some (.acking submittedAt toast.sources, .shown submittedAt)
  | .showing _, .showEnded none => some (.failed, .showFailed)
  | .acking submittedAt (n :: rest), .attempt =>
    some (.publishing submittedAt n rest, .submitted n.ticket (submittedAck deviceId submittedAt n))
  | .publishing submittedAt n rest, .ended outcome => some (.acking submittedAt rest, .submittedEnd n.ticket outcome)
  | _, _ => none

def AckTask.finished : AckTask → Bool
  | .failed => true
  | .acking _ [] => true
  | _ => false

theorem renderStep_finished (t : AckTask) (l : AckLabel) (h : t.finished = true) : renderStep deviceId t l = none := by
  cases t with
  | failed => rfl
  | acking submittedAt rest =>
    cases rest with
    | nil => rfl
    | cons => cases h
  | showing | publishing => cases h

def ackingRenderSink : RenderSink where
  Task := AckTask
  Label := AckLabel
  Out := AckOut
  start := .showing
  step := renderStep deviceId
  finished := AckTask.finished
  finished_step := renderStep_finished deviceId

/-! ## What a render task puts out -/

/-- the ack of one source, attempted and ended -/
def acked (submittedAt : DateTime) (sent : Note × Outcome) : List AckOut :=
  [.submitted sent.1.ticket (submittedAck deviceId submittedAt sent.1), .submittedEnd sent.1.ticket sent.2]

/-- what a task of the toast has put out -/
def Trace (toast : ToastRequest Note) : Option AckTask → List AckOut → Prop
  | none, outs => outs = []
  | some (.showing shown), outs => shown = toast ∧ outs = []
  | some .failed, outs => outs = [.showFailed]
  | some (.acking submittedAt rest), outs => ∃ sent : List (Note × Outcome),
      toast.sources = sent.map Prod.fst ++ rest ∧ outs = .shown submittedAt :: sent.flatMap (acked deviceId submittedAt)
  | some (.publishing submittedAt n rest), outs => ∃ sent : List (Note × Outcome),
      toast.sources = sent.map Prod.fst ++ n :: rest ∧
        outs = .shown submittedAt :: sent.flatMap (acked deviceId submittedAt) ++
          [.submitted n.ticket (submittedAck deviceId submittedAt n)]

theorem trace_step {toast : ToastRequest Note} {t t' : AckTask} {l : AckLabel} {out : AckOut} {outs : List AckOut}
    (hstep : renderStep deviceId t l = some (t', out)) (h : Trace deviceId toast (some t) outs) :
    Trace deviceId toast (some t') (outs ++ [out]) := by
  cases t with
  | showing shown =>
    obtain ⟨rfl, rfl⟩ := h
    cases l with
    | showEnded result => cases result <;> cases hstep <;> simp [Trace]
    | attempt | ended => cases hstep
  | failed => cases l <;> cases hstep
  | acking submittedAt rest =>
    obtain ⟨sent, hsources, rfl⟩ := h
    cases rest with
    | nil => cases l <;> cases hstep
    | cons n rest =>
      cases l with
      | attempt =>
        cases hstep
        exact ⟨sent, hsources, rfl⟩
      | showEnded | ended => cases hstep
  | publishing submittedAt n rest =>
    obtain ⟨sent, hsources, rfl⟩ := h
    cases l with
    | ended outcome =>
      cases hstep
      exact ⟨sent ++ [(n, outcome)], by simp [hsources], by simp [acked]⟩
    | showEnded | attempt => cases hstep

theorem trace_trans {C : Config} {s s' : St (ackingRenderSink deviceId)} {o : Op (ackingRenderSink deviceId)}
    (h : Trans C s o s') (hs : ∀ r ∈ s.renders, Trace deviceId r.toast r.task r.outs) :
    ∀ r ∈ s'.renders, Trace deviceId r.toast r.task r.outs :=
  tasks_trans (fun _ => rfl) (fun _ _ h => ⟨rfl, h⟩) (fun _ _ _ _ _ _ hstep h => trace_step deviceId hstep h) h hs

/-- **What every render task has put out.** -/
theorem trace_run (C : Config) (ops : List (Op (ackingRenderSink deviceId))) :
    ∀ r ∈ (after C (ackingRenderSink deviceId) ops).renders, Trace deviceId r.toast r.task r.outs :=
  tasks_run (fun _ => rfl) (fun _ _ h => ⟨rfl, h⟩) (fun _ _ _ _ _ _ hstep h => trace_step deviceId hstep h) C ops

/-- what a task has put out: nothing, a failed show, or the submission time, the acks of some sources from the first on,
and at most one attempt under way -/
theorem trace_cases {toast : ToastRequest Note} {task : Option AckTask} {outs : List AckOut}
    (h : Trace deviceId toast task outs) :
    outs = [] ∨ outs = [.showFailed] ∨
      ∃ submittedAt, ∃ sent : List (Note × Outcome), ∃ pending rest : List Note,
        toast.sources = sent.map Prod.fst ++ pending ++ rest ∧
          outs = .shown submittedAt :: (sent.flatMap (acked deviceId submittedAt) ++
            pending.map fun n => .submitted n.ticket (submittedAck deviceId submittedAt n)) := by
  match task with
  | none => exact Or.inl h
  | some (.showing _) => exact Or.inl h.2
  | some .failed => exact Or.inr (Or.inl h)
  | some (.acking submittedAt rest) =>
    obtain ⟨sent, hsources, houts⟩ := h
    exact Or.inr (Or.inr ⟨submittedAt, sent, [], rest, by simp [hsources], by simp [houts]⟩)
  | some (.publishing submittedAt n rest) =>
    obtain ⟨sent, hsources, houts⟩ := h
    exact Or.inr (Or.inr ⟨submittedAt, sent, [n], rest, by simp [hsources], by simp [houts]⟩)

theorem trace_finished {toast : ToastRequest Note} {t : AckTask} {outs : List AckOut}
    (h : Trace deviceId toast (some t) outs) (hfinished : t.finished = true) :
    outs = [.showFailed] ∨ ∃ submittedAt, ∃ sent : List (Note × Outcome), toast.sources = sent.map Prod.fst ∧
      outs = .shown submittedAt :: sent.flatMap (acked deviceId submittedAt) := by
  cases t with
  | failed => exact Or.inl h
  | acking submittedAt rest =>
    cases rest with
    | nil =>
      obtain ⟨sent, hsources, houts⟩ := h
      exact Or.inr ⟨submittedAt, sent, by simpa using hsources, houts⟩
    | cons => cases hfinished
  | showing | publishing => cases hfinished

/-! ## Submitted acks -/

/-- the ticket that an output makes a submitted attempt for -/
def AckOut.submittedOf : AckOut → Multiset ℕ
  | .submitted t _ => {t}
  | _ => 0

theorem submittedOf_acked (submittedAt : DateTime) (sent : List (Note × Outcome)) :
    tally AckOut.submittedOf (sent.flatMap (acked deviceId submittedAt)) = tally ticketOf (sent.map Prod.fst) := by
  induction sent with
  | nil => rfl
  | cons p sent ih => simp [acked, AckOut.submittedOf, ticketOf, ih]

theorem submittedOf_pending (submittedAt : DateTime) (pending : List Note) :
    tally AckOut.submittedOf (pending.map fun n => .submitted n.ticket (submittedAck deviceId submittedAt n)) =
      tally ticketOf pending := by
  induction pending with
  | nil => rfl
  | cons n pending ih => simp [AckOut.submittedOf, ticketOf, ih]

/-- a task makes at most one attempt for each of its sources -/
theorem submittedOf_le {toast : ToastRequest Note} {task : Option AckTask} {outs : List AckOut}
    (h : Trace deviceId toast task outs) : tally AckOut.submittedOf outs ≤ tally ticketOf toast.sources := by
  rcases trace_cases deviceId h with rfl | rfl | ⟨submittedAt, sent, pending, rest, hsources, rfl⟩
  · exact Multiset.zero_le _
  · exact Multiset.zero_le _
  · rw [hsources, tally_cons, tally_append, tally_append, tally_append, submittedOf_acked, submittedOf_pending]
    simp [AckOut.submittedOf]

/-- **Stamps and payloads.** An attempt carries the time that its own task's `show` returned, and the data of one of the
toast's sources. -/
theorem submitted_payload {toast : ToastRequest Note} {task : Option AckTask} {outs : List AckOut} {t : ℕ}
    {ack : AckPayload} (h : Trace deviceId toast task outs) (hm : .submitted t ack ∈ outs) :
    ∃ submittedAt, .shown submittedAt ∈ outs ∧ (∀ other, .shown other ∈ outs → other = submittedAt) ∧
      ∃ n ∈ toast.sources, n.ticket = t ∧ ack = submittedAck deviceId submittedAt n := by
  rcases trace_cases deviceId h with rfl | rfl | ⟨submittedAt, sent, pending, rest, hsources, rfl⟩
  · cases hm
  · simp at hm
  · refine ⟨submittedAt, List.mem_cons_self, fun other ho => ?_, ?_⟩
    · simpa [acked] using ho
    · rw [hsources]
      simp only [List.mem_cons, List.mem_append, List.mem_flatMap, List.mem_map, acked, reduceCtorEq, false_or,
        List.not_mem_nil, or_false, AckOut.submitted.injEq] at hm ⊢
      rcases hm with ⟨p, hp, rfl, rfl⟩ | ⟨n, hn, rfl, rfl⟩
      · exact ⟨p.1, Or.inl (Or.inl ⟨p, hp, rfl⟩), rfl, rfl⟩
      · exact ⟨n, Or.inl (Or.inr hn), rfl, rfl⟩

/-- a finished task made an attempt for every source if its toast was shown, and for none if not -/
theorem submittedOf_finished {toast : ToastRequest Note} {t : AckTask} {outs : List AckOut}
    (h : Trace deviceId toast (some t) outs) (hfinished : t.finished = true) :
    ((∃ submittedAt, .shown submittedAt ∈ outs) ∧ tally AckOut.submittedOf outs = tally ticketOf toast.sources) ∨
    ((∀ submittedAt, .shown submittedAt ∉ outs) ∧ tally AckOut.submittedOf outs = 0) := by
  rcases trace_finished deviceId h hfinished with rfl | ⟨submittedAt, sent, hsources, rfl⟩
  · exact Or.inr ⟨by simp, rfl⟩
  · refine Or.inl ⟨⟨submittedAt, List.mem_cons_self⟩, ?_⟩
    rw [hsources, tally_cons, submittedOf_acked]
    exact zero_add _

/-- a failed show is all that its task puts out -/
theorem submittedOf_failed {toast : ToastRequest Note} {task : Option AckTask} {outs : List AckOut}
    (h : Trace deviceId toast task outs) (hfailed : .showFailed ∈ outs) : ∀ submittedAt, .shown submittedAt ∉ outs := by
  rcases trace_cases deviceId h with rfl | rfl | ⟨submittedAt, sent, pending, rest, _, rfl⟩
  · cases hfailed
  · simp
  · simp [acked] at hfailed

end NotifyAgent.AckingSink
