/-
A bounded queue with a fixed pool of workers over shared state, as a machine whose operations interleave in any order.
A `Program` says what a worker does with an item: it turns it into a job, and each step of a job may change the shared
state, go on with another job or be over, and put events on record. The environment has steps of its own on the shared
state. Closing the pool is left to the program: whether the queue still takes items, and whether a worker may leave
items behind.

- `Trans`, `step_cases`, `run_inv_trans`, `log_run`: everything a step can do, and the invariant rules on it;
- `balance_run`: if items, jobs, shared state and events have weights, and every step of a job and of the environment
  balances, then so does every run: what was accepted is in the queue, with a worker, in the shared state, or settled;
- `moved`, `handed`, `quiet`: steps that balance;
- `settled_run`: where events only settle, what was accepted is in the queue, with a worker, in the shared state or
  settled;
- `gain_le`, `shared_le`: an account that follows another has gained no more than that was given, and has no more than
  it has gained;
- `given_run`: what the shared state has is what the events say that it was given;
- `offers_run`: every offer was accepted or counted as refused;
- `queue_bounded`, `left_run`, `drained_run`: the queue stays within its capacity; workers leave a closed pool only, and
  a pool that takes nothing once closed and whose workers leave nothing behind is empty then.
-/
import Mathlib.Tactic
import NotifyAgent.Lib.Ledger
import NotifyAgent.Lib.Machine

namespace NotifyAgent.Lib.WorkerPool

open NotifyAgent.Lib.Ledger
open NotifyAgent.Lib.Machine

variable {ι σ ω ε l m τ : Type*}

/-! ## The machine -/

inductive Worker (ω : Type*) where
  | idle
  | busy (job : ω)
  | gone
deriving DecidableEq, Repr

/-- items `ι`, shared state `σ`, jobs `ω`, events `ε`; steps of a job take a label `l`, those of the environment a
label `m` -/
structure Program (ι σ ω ε l m : Type*) where
  capacity : ℕ
  /-- a closed queue still takes items -/
  takesClosed : Bool
  /-- a worker may leave a closed pool with items in the queue -/
  leavesItems : Bool
  take : ι → ω
  /-- `none`: not enabled; no next job: the worker is idle again -/
  work : σ → ω → l → Option (σ × Option ω × List ε)
  /-- given whether the pool is closed and whether all workers are gone -/
  env : Bool → Bool → σ → m → Option (σ × List ε)

structure St (ι σ ω ε : Type*) where
  queue : List ι
  closed : Bool
  /-- the counter of refused items -/
  refused : ℕ
  workers : List (Worker ω)
  shared : σ
  /-- ghost: the items accepted so far -/
  accepted : List ι
  /-- ghost -/
  log : List ε

inductive Op (ι l m : Type*) where
  | offer (item : ι)
  | take (w : ℕ)
  | leave (w : ℕ)
  | work (w : ℕ) (label : l)
  | env (label : m)
  | close

def init (workers : ℕ) (s : σ) : St ι σ ω ε := ⟨[], false, 0, List.replicate workers .idle, s, [], []⟩

def Worker.isGone : Worker ω → Bool
  | .gone => true
  | _ => false

def next : Option ω → Worker ω
  | some job => .busy job
  | none => .idle

/-- every worker has left -/
def allGone (workers : List (Worker ω)) : Bool := workers.all Worker.isGone

section
variable (P : Program ι σ ω ε l m) (s : St ι σ ω ε)

/-- one operation; one that is not enabled leaves the state unchanged -/
def step : Op ι l m → St ι σ ω ε
  | .offer item =>
    if (s.closed = false ∨ P.takesClosed = true) ∧ s.queue.length < P.capacity then
      { s with queue := s.queue ++ [item], accepted := s.accepted ++ [item] }
    else { s with refused := s.refused + 1 }
  | .take w =>
    match s.workers[w]?, s.queue with
    | some .idle, item :: rest => { s with workers := s.workers.set w (.busy (P.take item)), queue := rest }
    | _, _ => s
  | .leave w =>
    match s.workers[w]? with
    | some .idle =>
      if s.closed = true ∧ (P.leavesItems = true ∨ s.queue = []) then { s with workers := s.workers.set w .gone } else s
    | _ => s
  | .work w label =>
    match s.workers[w]? with
    | some (.busy job) =>
      match P.work s.shared job label with
      | some (shared, job', events) =>
        { s with shared := shared, workers := s.workers.set w (next job'), log := s.log ++ events }
      | none => s
    | _ => s
  | .env label =>
    match P.env s.closed (allGone s.workers) s.shared label with
    | some (shared, events) => { s with shared := shared, log := s.log ++ events }
    | none => s
  | .close => { s with closed := true }

/-! ## What a step does -/

/-- the enabled steps -/
inductive Trans : Op ι l m → St ι σ ω ε → Prop where
  | offered (item) (hopen : s.closed = false ∨ P.takesClosed = true) (hroom : s.queue.length < P.capacity) :
    Trans (.offer item) { s with queue := s.queue ++ [item], accepted := s.accepted ++ [item] }
  | refused (item) : Trans (.offer item) { s with refused := s.refused + 1 }
  | taken (w item rest) (hw : s.workers[w]? = some .idle) (hq : s.queue = item :: rest) :
    Trans (.take w) { s with workers := s.workers.set w (.busy (P.take item)), queue := rest }
  | left (w) (hw : s.workers[w]? = some .idle) (hclosed : s.closed = true)
    (hleave : P.leavesItems = true ∨ s.queue = []) : Trans (.leave w) { s with workers := s.workers.set w .gone }
  | worked (w label job shared job' events) (hw : s.workers[w]? = some (.busy job))
    (hwork : P.work s.shared job label = some (shared, job', events)) :
    Trans (.work w label) { s with
      shared := shared, workers := s.workers.set w (next job'), log := s.log ++ events }
  | env (label shared events) (henv : P.env s.closed (allGone s.workers) s.shared label = some (shared, events)) :
    Trans (.env label) { s with shared := shared, log := s.log ++ events }
  | closed : Trans .close { s with closed := true }

/-- **What a step does.** Nothing, or one of the transitions. -/
theorem step_cases (o : Op ι l m) : step P s o = s ∨ Trans P s o (step P s o) := by
  cases o with
  | offer item =>
    simp only [step]
    split_ifs with h
    · exact Or.inr (.offered item h.1 h.2)
    · exact Or.inr (.refused item)
  | take w =>
    simp only [step]
    split
    · rename_i item rest hw hq
      exact Or.inr (.taken w item rest hw hq)
    · exact Or.inl rfl
  | leave w =>
    simp only [step]
    split
    · rename_i hw
      split_ifs with h
      · exact Or.inr (.left w hw h.1 h.2)
      · exact Or.inl rfl
    · exact Or.inl rfl
  | work w label =>
    simp only [step]
    split
    · rename_i job hw
      split
      · rename_i shared job' events hwork
        exact Or.inr (.worked w label job shared job' events hw hwork)
      · exact Or.inl rfl
    · exact Or.inl rfl
  | env label =>
    simp only [step]
    split
    · rename_i shared events henv
      exact Or.inr (.env label shared events henv)
    · exact Or.inl rfl
  | close => exact Or.inr .closed

end

/-- **Invariant rule.** What every transition keeps, every run keeps. -/
theorem run_inv_trans {P : Program ι σ ω ε l m} {I : St ι σ ω ε → Prop}
    (htrans : ∀ s o s', Trans P s o s' → I s → I s') {s : St ι σ ω ε} (h : I s) (ops : List (Op ι l m)) :
    I (run (step P) s ops) := by
  refine run_inv (step P) (fun s o hi => ?_) h ops
  rcases step_cases P s o with hs | ht
  · rwa [hs]
  · exact htrans s o _ ht hi

/-- what every step puts on record has the property, so the log has it -/
theorem log_run {P : Program ι σ ω ε l m} {Q : ε → Prop}
    (hwork : ∀ s job label s' job' events, P.work s job label = some (s', job', events) → ∀ e ∈ events, Q e)
    (henv : ∀ closed gone s label s' events, P.env closed gone s label = some (s', events) → ∀ e ∈ events, Q e)
    (workers : ℕ) (s : σ) (ops : List (Op ι l m)) : ∀ e ∈ (run (step P) (init workers s) ops).log, Q e := by
  refine run_inv_trans (I := fun st : St ι σ ω ε => ∀ e ∈ st.log, Q e) (fun s o s' h hs => ?_) (by simp [init]) ops
  cases h with
  | worked w label job shared job' events hw h =>
    exact fun e he => (List.mem_append.1 he).elim (hs e) (hwork _ _ _ _ _ _ h e)
  | env label shared events h => exact fun e he => (List.mem_append.1 he).elim (hs e) (henv _ _ _ _ _ _ h e)
  | _ => exact hs

/-! ## Accounts -/

/-- what items, jobs, the shared state and events weigh; an event may put something into the account (`gain`) or settle
something of it (`loss`) -/
structure Weights (ι σ ω ε τ : Type*) where
  item : ι → Multiset τ
  job : ω → Multiset τ
  shared : σ → Multiset τ
  gain : ε → Multiset τ
  loss : ε → Multiset τ

def Weights.worker (W : Weights ι σ ω ε τ) : Worker ω → Multiset τ
  | .busy job => W.job job
  | _ => 0

def Weights.next (W : Weights ι σ ω ε τ) (job : Option ω) : Multiset τ := W.worker (WorkerPool.next job)

/-- each step of a job and of the environment balances -/
structure Balanced (P : Program ι σ ω ε l m) (W : Weights ι σ ω ε τ) : Prop where
  take : ∀ item, W.job (P.take item) = W.item item
  work : ∀ s job label s' job' events, P.work s job label = some (s', job', events) →
    W.shared s + W.job job + tally W.gain events = W.shared s' + W.next job' + tally W.loss events
  env : ∀ closed gone s label s' events, P.env closed gone s label = some (s', events) →
    W.shared s + tally W.gain events = W.shared s' + tally W.loss events

section
variable {W : Weights ι σ ω ε τ} {s s' : σ} {job : ω} {job' : Option ω} {e : ε} {events : List ε}

@[simp] theorem Weights.next_none (W : Weights ι σ ω ε τ) : W.next none = 0 := rfl

@[simp] theorem Weights.next_some (W : Weights ι σ ω ε τ) (job : ω) : W.next (some job) = W.job job := rfl

/-- a step that leaves the shared state its weight balances if the job and the event do -/
theorem Weights.moved (hshared : W.shared s' = W.shared s) (h : W.job job + W.gain e = W.next job' + W.loss e) :
    W.shared s + W.job job + tally W.gain [e] = W.shared s' + W.next job' + tally W.loss [e] := by
  rw [tally_cons, tally_cons, tally_nil, tally_nil, add_zero, add_zero, hshared, add_assoc, h, add_assoc]

/-- a step that hands the job over to the shared state balances if that loses no more than its events say -/
theorem Weights.handed (hnext : W.next job' = 0) (hgain : ∀ e ∈ events, W.gain e = 0)
    (h : W.shared s + W.job job = W.shared s' + tally W.loss events) :
    W.shared s + W.job job + tally W.gain events = W.shared s' + W.next job' + tally W.loss events := by
  rw [tally_eq_zero hgain, hnext, add_zero, add_zero, h]

/-- a step of the environment that neither gains nor loses -/
theorem Weights.quiet (hshared : W.shared s' = W.shared s) (hgain : W.gain e = 0) (hloss : W.loss e = 0) :
    W.shared s + tally W.gain [e] = W.shared s' + tally W.loss [e] := by
  rw [tally_cons, tally_cons, hgain, hloss, hshared]
  rfl

end

/-- the account: what came in, and where it is -/
def Account (W : Weights ι σ ω ε τ) (start : Multiset τ) (s : St ι σ ω ε) : Prop :=
  start + tally W.item s.accepted + tally W.gain s.log =
    tally W.item s.queue + tally W.worker s.workers + W.shared s.shared + tally W.loss s.log

variable {P : Program ι σ ω ε l m} {W : Weights ι σ ω ε τ}

theorem account_trans (hbal : Balanced P W) {start : Multiset τ} {s s' : St ι σ ω ε} {o : Op ι l m}
    (h : Trans P s o s') (hs : Account W start s) : Account W start s' := by
  unfold Account at hs ⊢
  cases h with
  | offered item =>
    simp only [tally_append, tally_cons, tally_nil, add_zero]
    calc start + (tally W.item s.accepted + W.item item) + tally W.gain s.log
        = (start + tally W.item s.accepted + tally W.gain s.log) + W.item item := by abel
      _ = _ := by
        rw [hs]
        abel
  | refused => exact hs
  | taken w item rest hw hq =>
    have hset := tally_set W.worker (y := .busy (P.take item)) hw
    simp only [Weights.worker, hbal.take, add_zero] at hset
    rw [hs, hq, tally_cons]
    simp only [hset]
    abel
  | left w hw =>
    have hset := tally_set W.worker (y := .gone) hw
    simp only [Weights.worker, add_zero] at hset
    rw [hs]
    simp only [hset]
  | worked w label job shared job' events hw hwork =>
    have hset := tally_set W.worker (y := next job') hw
    have hstep := hbal.work _ _ _ _ _ _ hwork
    apply add_right_cancel (b := W.job job)
    simp only [tally_append]
    calc start + tally W.item s.accepted + (tally W.gain s.log + tally W.gain events) + W.job job
        = (start + tally W.item s.accepted + tally W.gain s.log) + (W.job job + tally W.gain events) := by abel
      _ = tally W.item s.queue + tally W.worker s.workers + tally W.loss s.log +
            (W.shared s.shared + W.job job + tally W.gain events) := by
          rw [hs]
          abel
      _ = tally W.item s.queue + (tally W.worker s.workers + W.next job') + W.shared shared +
            (tally W.loss s.log + tally W.loss events) := by
          rw [hstep]
          abel
      _ = _ := by
          rw [Weights.next, ← hset]
          simp only [Weights.worker]
          abel
  | env label shared events henv =>
    have hstep := hbal.env _ _ _ _ _ _ henv
    simp only [tally_append]
    calc start + tally W.item s.accepted + (tally W.gain s.log + tally W.gain events)
        = (start + tally W.item s.accepted + tally W.gain s.log) + tally W.gain events := by abel
      _ = tally W.item s.queue + tally W.worker s.workers + tally W.loss s.log +
            (W.shared s.shared + tally W.gain events) := by
          rw [hs]
          abel
      _ = _ := by
          rw [hstep]
          abel
  | closed => exact hs

/-- **The account of every run.** -/
theorem balance_run (hbal : Balanced P W) (workers : ℕ) (s : σ) (ops : List (Op ι l m)) :
    Account W (W.shared s) (run (step P) (init workers s) ops) := by
  refine run_inv_trans (fun _ _ _ => account_trans hbal) ?_ ops
  have hworkers : tally W.worker (List.replicate workers (.idle : Worker ω)) = 0 := by
    apply tally_eq_zero
    intro x hx
    rw [List.eq_of_mem_replicate hx]
    rfl
  simp [Account, init, hworkers]

/-- **The law of a run** that starts with nothing. -/
theorem law_run (hbal : Balanced P W) (workers : ℕ) {s : σ} (hstart : W.shared s = 0) (ops : List (Op ι l m)) :
    tally W.item (run (step P) (init workers s) ops).accepted + tally W.gain (run (step P) (init workers s) ops).log =
      tally W.item (run (step P) (init workers s) ops).queue +
        tally W.worker (run (step P) (init workers s) ops).workers +
        W.shared (run (step P) (init workers s) ops).shared + tally W.loss (run (step P) (init workers s) ops).log := by
  have h := balance_run hbal workers s ops
  rwa [Account, hstart, zero_add] at h

/-- **A law of items**: where events only settle, what was accepted is in the queue, with a worker, in the shared state
or settled. -/
theorem settled_run (hbal : Balanced P W) (hgain : ∀ e, W.gain e = 0) (workers : ℕ) {s : σ} (hstart : W.shared s = 0)
    (ops : List (Op ι l m)) :
    tally W.item (run (step P) (init workers s) ops).accepted =
      tally W.item (run (step P) (init workers s) ops).queue +
        tally W.worker (run (step P) (init workers s) ops).workers +
        W.shared (run (step P) (init workers s) ops).shared + tally W.loss (run (step P) (init workers s) ops).log := by
  have h := law_run hbal workers hstart ops
  rwa [tally_eq_zero fun e _ => hgain e, add_zero] at h

/-- **A law of events**: where every step gives the shared state what its events say, so does the run. -/
theorem given_run {f : σ → Multiset τ} {g : ε → Multiset τ}
    (hwork : ∀ s job label s' job' events, P.work s job label = some (s', job', events) →
      f s' = f s + tally g events)
    (henv : ∀ closed gone s label s' events, P.env closed gone s label = some (s', events) →
      f s' = f s + tally g events)
    (workers : ℕ) {s : σ} (hstart : f s = 0) (ops : List (Op ι l m)) :
    f (run (step P) (init workers s) ops).shared = tally g (run (step P) (init workers s) ops).log := by
  refine run_inv_trans (I := fun st : St ι σ ω ε => f st.shared = tally g st.log) (fun s o s' h hs => ?_) hstart ops
  cases h with
  | worked w label job shared job' events hw h => rw [hwork _ _ _ _ _ _ h, hs, tally_append]
  | env label shared events h => rw [henv _ _ _ _ _ _ h, hs, tally_append]
  | _ => exact hs

/-- the account `W'` counts what `W` counts, and what comes before it -/
structure Follows (W W' : Weights ι σ ω ε τ) : Prop where
  item : ∀ i, W.item i = 0
  job : ∀ j, W.job j ≤ W'.job j
  shared : W.shared = W'.shared
  loss : ∀ e, W.loss e ≤ W'.loss e

/-- **Two accounts.** The one that follows has gained no more than the other was given. -/
theorem gain_le {W' : Weights ι σ ω ε τ} (hbal : Balanced P W) (hbal' : Balanced P W') (h : Follows W W') (workers : ℕ)
    {s : σ} (hstart : W'.shared s = 0) (ops : List (Op ι l m)) :
    tally W.gain (run (step P) (init workers s) ops).log ≤
      tally W'.item (run (step P) (init workers s) ops).accepted +
        tally W'.gain (run (step P) (init workers s) ops).log := by
  have hlaw := law_run hbal workers (by rw [h.shared, hstart]) ops
  have hlaw' := law_run hbal' workers hstart ops
  have hworkers : ∀ w, W.worker w ≤ W'.worker w := by
    intro w
    cases w with
    | busy job => exact h.job job
    | _ => exact le_rfl
  rw [tally_eq_zero fun i _ => h.item i, tally_eq_zero fun i _ => h.item i, zero_add, zero_add] at hlaw
  rw [hlaw, hlaw', h.shared]
  apply add_le_add _ (tally_le_tally fun e _ => h.loss e)
  apply add_le_add_left
  exact (tally_le_tally fun w _ => hworkers w).trans (Multiset.le_add_left _ _)

/-- what an account that no item comes into has in the shared state and has lost, it has gained -/
theorem shared_le (hbal : Balanced P W) (hitem : ∀ i, W.item i = 0) (workers : ℕ) {s : σ} (hstart : W.shared s = 0)
    (ops : List (Op ι l m)) :
    W.shared (run (step P) (init workers s) ops).shared + tally W.loss (run (step P) (init workers s) ops).log ≤
      tally W.gain (run (step P) (init workers s) ops).log := by
  have hlaw := law_run hbal workers hstart ops
  rw [tally_eq_zero fun i _ => hitem i, tally_eq_zero fun i _ => hitem i, zero_add, zero_add, add_assoc] at hlaw
  rw [hlaw]
  exact Multiset.le_add_left _ _

/-! ## Offers -/

/-- the items that a run offers -/
def offers : List (Op ι l m) → List ι
  | [] => []
  | .offer item :: ops => item :: offers ops
  | _ :: ops => offers ops

theorem offers_step (P : Program ι σ ω ε l m) (s : St ι σ ω ε) (o : Op ι l m) :
    (step P s o).accepted.length + (step P s o).refused = s.accepted.length + s.refused + (offers [o]).length := by
  rcases step_cases P s o with hs | ht
  · cases o with
    | offer item =>
      simp only [step] at hs ⊢
      split_ifs <;> simp [offers] <;> omega
    | _ =>
      rw [hs]
      rfl
  · generalize step P s o = s' at ht ⊢
    cases ht with
    | offered => simp [offers]; omega
    | refused => simp [offers]; omega
    | _ => rfl

/-- **No offer is lost from the counters.** -/
theorem offers_run (P : Program ι σ ω ε l m) (workers : ℕ) (s : σ) (ops : List (Op ι l m)) :
    (run (step P) (init workers s) ops).accepted.length + (run (step P) (init workers s) ops).refused =
      (offers ops).length := by
  suffices h : ∀ st : St ι σ ω ε, (run (step P) st ops).accepted.length + (run (step P) st ops).refused =
      st.accepted.length + st.refused + (offers ops).length by
    simpa [init] using h (init workers s)
  intro st
  induction ops generalizing st with
  | nil => rfl
  | cons o ops ih =>
    have hcount : (offers (o :: ops)).length = (offers [o]).length + (offers ops).length := by
      cases o <;> simp [offers]
      omega
    rw [run_cons, ih, offers_step, hcount]
    omega

/-! ## Queue and workers -/

theorem queue_bounded (P : Program ι σ ω ε l m) (workers : ℕ) (s : σ) (ops : List (Op ι l m)) :
    (run (step P) (init workers s) ops).queue.length ≤ P.capacity := by
  refine run_inv_trans (I := fun st : St ι σ ω ε => st.queue.length ≤ P.capacity) (fun s o s' h hs => ?_)
    (Nat.zero_le _) ops
  cases h with
  | offered item _ hroom =>
    rw [List.length_append, List.length_singleton]
    exact hroom
  | taken w item rest _ hq =>
    rw [hq, List.length_cons] at hs
    exact Nat.le_of_succ_le hs
  | _ => exact hs

theorem isGone_eq {x : Worker ω} (h : x.isGone = true) : x = .gone := by
  cases x with
  | gone => rfl
  | _ => cases h

/-- workers leave a closed pool only; and where nothing is taken once closed and nothing is left behind, the pool is
empty then -/
def Left (P : Program ι σ ω ε l m) (s : St ι σ ω ε) : Prop :=
  .gone ∈ s.workers → s.closed = true ∧ (P.takesClosed = false → P.leavesItems = false → s.queue = [])

theorem left_trans {s s' : St ι σ ω ε} {o : Op ι l m} (h : Trans P s o s') (hs : Left P s) : Left P s' := by
  have hset : ∀ {w : ℕ} {x : Worker ω}, x ≠ .gone → .gone ∈ s.workers.set w x → .gone ∈ s.workers := by
    intro w x hx hmem
    rcases List.mem_or_eq_of_mem_set hmem with hmem | heq
    · exact hmem
    · exact absurd heq.symm hx
  cases h with
  | offered item hopen =>
    intro hgone
    obtain ⟨hclosed, hempty⟩ := hs hgone
    refine ⟨hclosed, fun htakes => ?_⟩
    rw [hclosed, htakes] at hopen
    rcases hopen with h | h <;> cases h
  | taken w item rest _ hq =>
    intro hgone
    obtain ⟨hclosed, hempty⟩ := hs (hset (by simp) hgone)
    refine ⟨hclosed, fun htakes hleaves => ?_⟩
    rw [hempty htakes hleaves] at hq
    cases hq
  | left w _ hclosed hleave =>
    intro _
    refine ⟨hclosed, fun _ hleaves => hleave.resolve_left ?_⟩
    rw [hleaves]
    decide
  | worked w label job shared job' events =>
    intro hgone
    apply hs
    apply hset _ hgone
    cases job' <;> simp [next]
  | closed =>
    intro hgone
    exact ⟨rfl, (hs hgone).2⟩
  | _ => exact hs

/-- **Leaving.** -/
theorem left_run (P : Program ι σ ω ε l m) (workers : ℕ) (s : σ) (ops : List (Op ι l m)) :
    Left P (run (step P) (init workers s) ops) := by
  refine run_inv_trans (fun _ _ _ => left_trans) (fun hgone => ?_) ops
  cases List.eq_of_mem_replicate hgone

theorem workers_length (P : Program ι σ ω ε l m) (workers : ℕ) (s : σ) (ops : List (Op ι l m)) :
    (run (step P) (init workers s) ops).workers.length = workers := by
  refine run_inv_trans (I := fun st : St ι σ ω ε => st.workers.length = workers) (fun s o s' h hs => ?_)
    List.length_replicate ops
  cases h with
  | taken | left | worked => rwa [List.length_set]
  | _ => exact hs

theorem eq_gone {workers : List (Worker ω)} (h : allGone workers = true) {w : ℕ} {x : Worker ω}
    (hw : workers[w]? = some x) : x = .gone :=
  isGone_eq (List.all_eq_true.1 h x (List.mem_of_getElem? hw))

/-- workers that have left carry nothing -/
theorem tally_gone (W : Weights ι σ ω ε τ) {workers : List (Worker ω)} (h : allGone workers = true) :
    tally W.worker workers = 0 := by
  apply tally_eq_zero
  intro x hx
  obtain ⟨w, hw⟩ := List.mem_iff_getElem?.1 hx
  rw [eq_gone h hw]
  rfl

/-- **Drained.** A pool that takes nothing once closed and whose workers leave nothing behind is empty when they, one or
more, are gone. -/
theorem drained_run (htakes : P.takesClosed = false) (hleaves : P.leavesItems = false) {workers : ℕ}
    (hworkers : workers ≠ 0) (s : σ) (ops : List (Op ι l m))
    (hgone : allGone (run (step P) (init workers s) ops).workers = true) :
    (run (step P) (init workers s) ops).queue = [] := by
  have hlength := workers_length P workers s ops
  have hlt : 0 < (run (step P) (init workers s) ops).workers.length := by omega
  have hfirst := eq_gone hgone (List.getElem?_eq_getElem hlt)
  exact (left_run P workers s ops (hfirst ▸ List.getElem_mem hlt)).2 htakes hleaves

/-- the others stay what they are -/
theorem mem_set {workers : List (Worker ω)} {w : ℕ} {x y z : Worker ω} (hw : workers[w]? = some x) (hne : z ≠ x)
    (h : z ∈ workers) : z ∈ workers.set w y := by
  obtain ⟨v, hv⟩ := List.mem_iff_getElem?.1 h
  refine List.mem_iff_getElem?.2 ⟨v, ?_⟩
  rw [List.getElem?_set_ne, hv]
  rintro rfl
  exact hne (Option.some.inj (hv.symm.trans hw))

end NotifyAgent.Lib.WorkerPool
