/-
The disposal of the C# agent: `DisposeAsync` of the pipeline completes the channel and awaits the workers, then that of
the aggregator flushes it key by key.

- `Closing`, `closing_run`: what the two leave;
- `disposed_run`: afterwards nothing is accepted and no render starts;
- `csharp_disposal`: nothing accepted is left anywhere but in a render or on record, and every render that a worker
  awaited is over.
-/
import Mathlib.Tactic
import NotifyAgent.Scenarios.CSharpAccounts
import NotifyAgent.Lib.SharedLog

namespace NotifyAgent.CSharpDisposal

open NotifyAgent.Text NotifyAgent.CSharp NotifyAgent.CSharpAgent NotifyAgent.CSharpAccounts
open NotifyAgent.Lib.Ledger
open NotifyAgent.Lib.Machine (run run_append)
open NotifyAgent.Lib.WorkerPool (Worker Op St step init run_inv_trans allGone eq_gone tally_gone mem_set drained_run)
open NotifyAgent.Lib.SharedLog (started_toList set_cases map_set_same)

variable {C : Config} {st st' : St ReceivedEvent Shared Job Event} {events : List Event}

/-! ## The invariant -/

structure Closing (s : St ReceivedEvent Shared Job Event) : Prop where
  joined : s.shared.stage ≠ .running → s.closed = true ∧ allGone s.workers = true
  /-- the keys still to flush are all that there are -/
  disposing : ∀ keys, s.shared.stage = .disposing keys →
    ∀ key, (s.shared.aggregator.buckets.lookup key).isSome → key ∈ keys
  disposed : s.shared.stage = .disposed → ∀ key, s.shared.aggregator.buckets.lookup key = none
  /-- a worker awaits what is critical -/
  awaited : ∀ i r, s.shared.renders[i]? = some r → r.awaited = true → r.phase ≠ .over → .busy (.rendering i) ∈ s.workers

/-- a render starts -/
theorem called_cases {rs : List Render} {awaited : Bool} {toast : Option ToastRequest} {i : ℕ} {r : Render}
    (h : (rs ++ renders awaited toast)[i]? = some r) :
    rs[i]? = some r ∨ (r.awaited = awaited ∧ i = rs.length ∧ toast ≠ none) := by
  rcases started_toList h with h | ⟨toast, rfl, rfl, hi⟩
  · exact Or.inl h
  · exact Or.inr ⟨rfl, hi, by simp⟩

/-- a worker that takes a step does it before the disposal of the aggregator -/
theorem running_of (hs : Closing st) {w : ℕ} {x : Worker Job} (hw : st.workers[w]? = some x) (hx : x ≠ .gone) :
    st.shared.stage = .running := by
  by_contra h
  exact hx (eq_gone (hs.joined h).2 hw)

theorem closing_running {s : St ReceivedEvent Shared Job Event} (hstage : s.shared.stage = .running)
    (hawaited : ∀ i r, s.shared.renders[i]? = some r → r.awaited = true → r.phase ≠ .over →
      .busy (.rendering i) ∈ s.workers) : Closing s where
  joined h := absurd hstage h
  disposing keys h := by cases hstage.symm.trans h
  disposed h := by cases hstage.symm.trans h
  awaited := hawaited

theorem closing_renders (hs : Closing st) {i : ℕ} {r r' : Render} (hr : st.shared.renders[i]? = some r)
    (hphase : r.phase ≠ .over) (hawaited : r'.awaited = r.awaited) (log : List Event) :
    Closing { st with shared := { st.shared with renders := st.shared.renders.set i r' }, log := log } where
  joined := hs.joined
  disposing := hs.disposing
  disposed := hs.disposed
  awaited j q hq hawait hover := by
    rcases set_cases hq with ⟨rfl, rfl⟩ | ⟨_, hq⟩
    · exact hs.awaited i r hr (hawaited.symm.trans hawait) hphase
    · exact hs.awaited j q hq hawait hover

theorem awaited_flushed (hs : Closing st) (key : BucketKey) (i : ℕ) (r : Render)
    (hr : (flushed C st.shared key).renders[i]? = some r) (hawait : r.awaited = true) (hover : r.phase ≠ .over) :
    .busy (.rendering i) ∈ st.workers := by
  rcases called_cases hr with hr | ⟨hawaited, _⟩
  · exact hs.awaited i r hr hawait hover
  · cases hawaited.symm.trans hawait

theorem closing_worked {w : ℕ} {label : WorkLabel} {job : Job} {shared : Shared} {job' : Option Job} (hs : Closing st)
    (hw : st.workers[w]? = some (.busy job)) (hwork : work C st.shared job label = some (shared, job', events))
    (log : List Event) :
    Closing { st with shared := shared, workers := st.workers.set w (Lib.WorkerPool.next job'), log := log } := by
  have hrunning := running_of hs hw (by simp)
  have hkept : ∀ i r, st.shared.renders[i]? = some r → r.awaited = true → r.phase ≠ .over → job ≠ .rendering i →
      .busy (.rendering i) ∈ st.workers.set w (Lib.WorkerPool.next job') := by
    intro i r hr hawait hover hjob
    refine mem_set hw (fun h => ?_) (hs.awaited i r hr hawait hover)
    exact hjob (Worker.busy.inj h).symm
  cases work_cases C st.shared hwork with
  | rendered i r hr hover =>
    refine closing_running hrunning fun j q hq hawait hne => hkept j q hq hawait hne fun h => ?_
    cases h
    cases hr.symm.trans hq
    exact hne hover
  | added n next hnext =>
    refine closing_running hrunning fun i r hr hawait hover => ?_
    rcases called_cases hr with hr | ⟨_, rfl, htoast⟩
    · exact hkept i r hr hawait hover (by simp)
    · have hcritical : n.priority = .critical := by
        rcases added_cases C.segmentation st.shared.aggregator n with
          h | ⟨_, b, _, h, _⟩ | ⟨_, h, _⟩ | ⟨_, _, ⟨timer, h⟩, _⟩
        · exact h.1
        all_goals
          rw [h] at htoast
          exact absurd rfl htoast
      rw [hnext, if_pos hcritical]
      exact List.mem_iff_getElem?.2 ⟨w, List.getElem?_set_self (List.getElem?_eq_some_iff.1 hw).1⟩
  | threw job hjob => exact closing_running hrunning fun i r hr hawait hover => hkept i r hr hawait hover (hjob i)
  | _ => exact closing_running hrunning fun i r hr hawait hover => hkept i r hr hawait hover (by simp)

theorem closing_env {shared : Shared} (hs : Closing st)
    (h : Happened C st.shared st.closed (allGone st.workers) shared events) (log : List Event) :
    Closing { st with shared := shared, log := log } := by
  cases h with
  | fired key =>
    refine ⟨hs.joined, fun keys h k hk => ?_, fun h k => ?_, awaited_flushed hs key⟩
    · simp only [flushed, CSharp.Aggregator.flush_lookup] at hk
      split_ifs at hk
      · cases hk
      · exact hs.disposing keys h k hk
    · simp only [flushed, CSharp.Aggregator.flush_lookup, hs.disposed h k, ite_self]
  | shown i r submittedAt hr hphase => exact closing_renders hs hr (by simp [hphase]) (by rfl) log
  | showFailed i r hr hphase => exact closing_renders hs hr (by simp [hphase]) (by rfl) log
  | published i r n rest submittedAt hr hphase => exact closing_renders hs hr (by simp [hphase]) (by rfl) log
  | unpublished i r n rest submittedAt hr hphase => exact closing_renders hs hr (by simp [hphase]) (by rfl) log
  | disposing keys hstage hclosed hgone hkeys =>
    refine ⟨fun _ => ⟨hclosed, hgone⟩, fun keys' h k hk => ?_, by simp, hs.awaited⟩
    rw [← Stage.disposing.inj h]
    exact hkeys.mem_iff.2 (AList.mem_keys.1 (AList.lookup_isSome.1 hk))
  | flushNext key keys hstage =>
    refine ⟨fun _ => hs.joined (by simp [hstage]), fun keys' h k hk => ?_, by simp, awaited_flushed hs key⟩
    rw [← Stage.disposing.inj h]
    simp only [flushed, CSharp.Aggregator.flush_lookup] at hk
    split_ifs at hk with hne
    · cases hk
    · exact (List.mem_cons.1 (hs.disposing _ hstage k hk)).resolve_left hne
  | disposed hstage =>
    refine ⟨fun _ => hs.joined (by simp [hstage]), by simp, fun _ k => ?_, hs.awaited⟩
    by_contra hne
    cases hs.disposing [] hstage k (Option.isSome_iff_ne_none.2 hne)

theorem closing_trans {o : Op ReceivedEvent WorkLabel EnvLabel} (h : Lib.WorkerPool.Trans (program C) st o st')
    (hs : Closing st) : Closing st' := by
  cases h with
  | offered item => exact ⟨hs.joined, hs.disposing, hs.disposed, hs.awaited⟩
  | refused item => exact ⟨hs.joined, hs.disposing, hs.disposed, hs.awaited⟩
  | closed => exact ⟨fun h => ⟨rfl, (hs.joined h).2⟩, hs.disposing, hs.disposed, hs.awaited⟩
  | taken w item rest hw =>
    have hrunning := running_of hs hw (by simp)
    exact closing_running hrunning fun i r hr hawait hover => mem_set hw (by simp) (hs.awaited i r hr hawait hover)
  | left w hw =>
    have hrunning := running_of hs hw (by simp)
    exact closing_running hrunning fun i r hr hawait hover => mem_set hw (by simp) (hs.awaited i r hr hawait hover)
  | worked w label job shared job' events hw hwork => exact closing_worked hs hw hwork _
  | env label shared events henv => exact closing_env hs (env_cases C st.shared henv) _

theorem closing_run (C : Config) (ops : List (Op ReceivedEvent WorkLabel EnvLabel)) : Closing (after C ops) :=
  run_inv_trans (fun _ _ _ => closing_trans) (closing_running rfl (by simp [init, start])) ops

/-! ## After it -/

/-- both `DisposeAsync` are over: nothing is accepted and no render starts -/
theorem disposed_trans {o : Op ReceivedEvent WorkLabel EnvLabel} (h : Lib.WorkerPool.Trans (program C) st o st')
    (hs : Closing st) (hstage : st.shared.stage = .disposed) :
    st'.shared.stage = .disposed ∧ st'.accepted = st.accepted ∧
      st'.shared.renders.map Render.toast = st.shared.renders.map Render.toast := by
  have hjoined := hs.joined (by simp [hstage])
  have hrunning : st.shared.stage ≠ .running := by simp [hstage]
  cases h with
  | offered item hopen =>
    rw [hjoined.1] at hopen
    rcases hopen with h | h <;> cases h
  | taken w item rest hw => exact absurd (running_of hs hw (by simp)) hrunning
  | left w hw => exact absurd (running_of hs hw (by simp)) hrunning
  | worked w label job shared job' events hw => exact absurd (running_of hs hw (by simp)) hrunning
  | env label shared events henv =>
    cases env_cases C st.shared henv with
    | fired key =>
      refine ⟨hstage, rfl, ?_⟩
      rcases st.shared.aggregator.flush_cases C.segmentation key with ⟨_, hf⟩ | ⟨bucket, hl, _⟩
      · simp [flushed, hf, renders]
      · cases (hs.disposed hstage key).symm.trans hl
    | shown i r submittedAt hr => exact ⟨hstage, rfl, map_set_same hr (by rfl)⟩
    | showFailed i r hr => exact ⟨hstage, rfl, map_set_same hr (by rfl)⟩
    | published i r n rest submittedAt hr => exact ⟨hstage, rfl, map_set_same hr (by rfl)⟩
    | unpublished i r n rest submittedAt hr => exact ⟨hstage, rfl, map_set_same hr (by rfl)⟩
    | disposing keys hstage' => cases hstage.symm.trans hstage'
    | flushNext key keys hstage' => cases hstage.symm.trans hstage'
    | disposed hstage' => cases hstage.symm.trans hstage'
  | _ => exact ⟨hstage, rfl, rfl⟩

theorem disposed_run (C : Config) (ops more : List (Op ReceivedEvent WorkLabel EnvLabel))
    (h : (after C ops).shared.stage = .disposed) :
    (after C (ops ++ more)).shared.stage = .disposed ∧ (after C (ops ++ more)).accepted = (after C ops).accepted ∧
      (after C (ops ++ more)).shared.renders.map Render.toast = (after C ops).shared.renders.map Render.toast := by
  have hrun : after C (ops ++ more) = run (step (program C)) (after C ops) more := run_append _ _ _ _
  rw [hrun]
  refine (run_inv_trans (I := fun st => Closing st ∧ st.shared.stage = .disposed ∧
    st.accepted = (after C ops).accepted ∧
    st.shared.renders.map Render.toast = (after C ops).shared.renders.map Render.toast) (fun st o st' ht hst => ?_)
    ⟨closing_run C ops, h, rfl, rfl⟩ more).2
  obtain ⟨hclosing, hstage, haccepted, htoasts⟩ := hst
  obtain ⟨hstage', haccepted', htoasts'⟩ := disposed_trans ht hclosing hstage
  exact ⟨closing_trans ht hclosing, hstage', haccepted'.trans haccepted, htoasts'.trans htoasts⟩

def sampleEvent (eventId : Str) : WireEvent :=
  ⟨some eventId, none, some ⟨some "u_1".toList⟩, some ⟨some ['t'], some ['m'], none, none⟩, none, none, none⟩

/-- every payload holds a normal event -/
def sampleConfig : Config where
  queueCapacity := 2
  workerCount := 1
  dedupCapacity := 4
  dedupTtl := 10
  aggregator := ⟨100, 2, 10⟩
  libs := ⟨basicUcd, fun payload => .ok (some (sampleEvent (payload.map fun b => Char.ofNat b.toNat)))⟩
  segmentation := Notification.singletons
  deviceId := "d_1".toList

/-- the observed ack of the second event fails; both were queued when the channel was completed -/
def sampleRun : List (Op ReceivedEvent WorkLabel EnvLabel) :=
  [.offer ⟨[65], 5⟩, .offer ⟨[66], 6⟩, .close, .offer ⟨[67], 7⟩, .take 0, .work 0 (.process 8), .work 0 (.publish true),
    .work 0 .add, .take 0, .work 0 (.process 9), .work 0 (.publish false), .leave 0,
    .env (.dispose [("unknown".toList, .normal)]), .env .flushNext, .env .disposed, .env (.shown 0 (some 9))]

end NotifyAgent.CSharpDisposal
