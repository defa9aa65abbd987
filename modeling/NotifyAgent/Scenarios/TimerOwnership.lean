/-
Does a window timer of the Go aggregator only ever close the bucket it was started for? Buckets and timers are linked by
key alone. The comment on `Flush` says that a callback that has already started becomes a harmless no-op, since it sees
its bucket removed from the map; but it looks for its key, and an event added after the flush may have opened a new
bucket for it.

- `rendered_once`: in every run, every bucket is rendered at most once;
- `exclusive_iff`: in a run, buckets are rendered by a flush or by their own timer only, and by a timer never before
  their window has passed, EXACTLY when no callback whose bucket a flush has taken runs while a bucket of its key is
  open;
- `late_callback_closes`: a run in which a late callback renders a bucket the moment it was opened.
-/
import Mathlib.Tactic
import NotifyAgent.Core.GoTimers

namespace NotifyAgent.TimerOwnership

open NotifyAgent.Go NotifyAgent.GoTimers
open NotifyAgent.Lib.Ledger
open NotifyAgent.Lib.Machine

/-! ## The property and its condition -/

/-- every bucket is rendered once at most, and only by a flush or by its own callback when its window has passed -/
structure Exclusive (s : St) : Prop where
  once : (s.log.map Rendered.bucket).Nodup
  own : ∀ r ∈ s.log, ∀ id, r.cause = .callback id → id = r.bucket
  notBefore : ∀ r ∈ s.log, ∀ id, r.cause = .callback id →
    ∃ t, s.timers[r.bucket]? = some t ∧ t.created + t.window ≤ r.time

/-- a callback that runs after a flush has taken its bucket finds no bucket of its key -/
def Harmless (s : St) : Op → Prop
  | .callback id =>
    ∀ t ∈ s.timers[id]?, t.status = .started → id ∈ s.taken → s.agg.buckets.lookup t.key = none
  | _ => True

instance (s : St) : (o : Op) → Decidable (Harmless s o)
  | .callback id =>
    inferInstanceAs (Decidable (∀ t ∈ s.timers[id]?, t.status = .started → id ∈ s.taken →
      s.agg.buckets.lookup t.key = none))
  | .add _ => .isTrue trivial
  | .tick _ => .isTrue trivial
  | .start _ => .isTrue trivial
  | .flush _ => .isTrue trivial
  | .flushNext _ => .isTrue trivial

/-! ## At most once, in every run -/

theorem once_of_acc {s : St} (h : Acc s) : (s.log.map Rendered.bucket).Nodup := by
  have hnd : (holdings idOf s.agg.buckets + pendingIds s + renderedIds s).Nodup := by
    rw [h.places]
    exact Multiset.nodup_range _
  exact Multiset.coe_nodup.1 (Multiset.nodup_add.1 hnd).2.1

/-- **At most once.** -/
theorem rendered_once (opts : Options) (ops : List Op) :
    ((run step (init opts) ops).log.map Rendered.bucket).Nodup := once_of_acc (acc_run opts ops)

/-- a bucket that a flush has taken is not open -/
theorem open_ne_taken {s : St} (h : Acc s) {key : BucketKey} {b : Bucket} (hb : s.agg.buckets.lookup key = some b)
    {id : ℕ} (hid : id ∈ s.taken) : b.timer.id ≠ id := by
  rintro rfl
  have hnd : (holdings idOf s.agg.buckets + (pendingIds s + renderedIds s)).Nodup := by
    rw [← add_assoc, h.places]
    exact Multiset.nodup_range _
  have hopen : b.timer.id ∈ holdings idOf s.agg.buckets := mem_holdings.2 ⟨key, b, hb, Multiset.mem_singleton_self _⟩
  exact Multiset.disjoint_left.1 (Multiset.nodup_add.1 hnd).2.2 hopen (h.taken _ hid)

/-! ## Timers and their buckets -/

/-- a timer that has not run, and whose bucket no flush has taken, has its bucket open -/
structure Alive (s : St) : Prop where
  alive : ∀ (id : ℕ) (t : TimerState), s.timers[id]? = some t → t.status = .waiting ∨ t.status = .started →
    id ∉ s.taken → ∃ b, s.agg.buckets.lookup t.key = some b ∧ b.timer.id = id
  own : ∀ r ∈ s.log, ∀ id, r.cause = .callback id → id = r.bucket
  notBefore : ∀ r ∈ s.log, ∀ id, r.cause = .callback id →
    ∃ t, s.timers[r.bucket]? = some t ∧ t.created + t.window ≤ r.time

theorem alive_init (opts : Options) : Alive (init opts) := by
  constructor <;> simp [init]

theorem alive_add {s : St} (hacc : Acc s) (h : Alive s) (event : InboundNotification) :
    Alive (step s (.add event)) := by
  rcases step_add_cases s event with hs | ⟨b, hl, hs⟩ | hs | ⟨hl, window, hs⟩ <;> rw [hs]
  · exact h
  · refine { h with alive := ?_ }
    intro id t ht hstatus htaken
    obtain ⟨b', hb', hid⟩ := h.alive id t ht hstatus htaken
    by_cases hk : t.key = bucketKey event
    · rw [hk] at hb' ⊢
      rw [hl, Option.some.injEq] at hb'
      exact ⟨_, AList.lookup_insert _, by rw [← hid, ← hb']⟩
    · exact ⟨b', (AList.lookup_insert_ne hk).trans hb', hid⟩
  · exact ⟨h.alive, h.own, h.notBefore⟩
  · refine { h with alive := ?_, notBefore := ?_ }
    · intro id t ht hstatus htaken
      by_cases hlt : id < s.timers.length
      · simp only at ht
        rw [List.getElem?_append_left hlt] at ht
        obtain ⟨b', hb', hid⟩ := h.alive id t ht hstatus htaken
        have hk : t.key ≠ bucketKey event := by
          intro hk
          rw [hk, hl] at hb'
          cases hb'
        exact ⟨b', (AList.lookup_insert_ne hk).trans hb', hid⟩
      · -- the new timer
        have hbound := (List.getElem?_eq_some_iff.1 ht).1
        simp only [List.length_append, List.length_singleton] at hbound
        obtain rfl : id = s.timers.length := by omega
        simp only [List.getElem?_concat_length, Option.some.injEq] at ht
        subst ht
        exact ⟨_, AList.lookup_insert _, hacc.count⟩
    · intro r hr id hcause
      obtain ⟨t, ht, hdue⟩ := h.notBefore r hr id hcause
      refine ⟨t, ?_, hdue⟩
      simp only
      rw [List.getElem?_append_left (List.getElem?_eq_some_iff.1 ht).1]
      exact ht

/-- a change of status that wakes no timer keeps the bond -/
theorem alive_setStatus {s : St} (h : Alive s) (id : ℕ) {status : Status}
    (hwake : ∀ t, s.timers[id]? = some t → status = .waiting ∨ status = .started →
      t.status = .waiting ∨ t.status = .started) : Alive (setStatus s id status) := by
  refine ⟨?_, h.own, ?_⟩
  · intro j t' ht' hstatus htaken
    obtain ⟨t, ht, hkey, -, -, hst⟩ := getElem?_setStatus s ht'
    have hold : t.status = .waiting ∨ t.status = .started := by
      rcases hst with ⟨-, hst⟩ | ⟨rfl, hst⟩
      · rwa [hst] at hstatus
      · exact hwake t ht (hst ▸ hstatus)
    obtain ⟨b, hb, hid⟩ := h.alive j t ht hold htaken
    exact ⟨b, by rw [hkey]; exact hb, hid⟩
  · intro r hr i hcause
    obtain ⟨t, ht, hdue⟩ := h.notBefore r hr i hcause
    obtain ⟨t', ht', -, hw, hc⟩ := kept_setStatus s id status r.bucket t ht
    exact ⟨t', ht', by rw [hw, hc]; exact hdue⟩

theorem alive_callback {s : St} (hacc : Acc s) (h : Alive s) {id : ℕ} {t : TimerState} (ht : s.timers[id]? = some t)
    (hstarted : t.status = .started) (hok : id ∈ s.taken → s.agg.buckets.lookup t.key = none) :
    Alive { setStatus s id .done with
      agg := (s.agg.fire t.key).1
      log := s.log ++ match s.agg.buckets.lookup t.key with
        | some b => rendered s b (.callback id)
        | none => [] } := by
  have hdone := @alive_setStatus _ h id .done (by intro t _ hn; rcases hn with hn | hn <;> cases hn)
  obtain ⟨-, -, hlookup⟩ := fire_buckets s.agg t.key
  cases hl : s.agg.buckets.lookup t.key with
  | none =>
    simp only [List.append_nil]
    refine ⟨?_, hdone.own, hdone.notBefore⟩
    intro j t' ht' hstatus htaken
    obtain ⟨b, hb, hid⟩ := hdone.alive j t' ht' hstatus htaken
    have hb' : s.agg.buckets.lookup t'.key = some b := hb
    have hk : t'.key ≠ t.key := by
      intro hk
      rw [hk, hl] at hb'
      cases hb'
    exact ⟨b, by simp only [hlookup, if_neg hk]; exact hb', hid⟩
  | some b =>
    have htaken : id ∉ s.taken := by
      intro hmem
      rw [hok hmem] at hl
      cases hl
    -- the open bucket is the timer's own
    have hid : b.timer.id = id := by
      obtain ⟨b', hb', hid⟩ := h.alive id t ht (Or.inr hstarted) htaken
      rw [hl, Option.some.injEq] at hb'
      rw [hb', hid]
    refine ⟨?_, ?_, ?_⟩
    · intro j t' ht' hstatus hj
      obtain ⟨b', hb', hid'⟩ := hdone.alive j t' ht' hstatus hj
      have hlook : s.agg.buckets.lookup t'.key = some b' := hb'
      have hk : t'.key ≠ t.key := by
        intro hk
        rw [hk, hl, Option.some.injEq] at hlook
        have hji : j = id := by rw [← hid', ← hlook, hid]
        obtain ⟨t₀, -, -, -, -, hst⟩ := getElem?_setStatus s ht'
        rcases hst with ⟨hne, -⟩ | ⟨-, hst⟩
        · exact hne hji
        · rw [hst] at hstatus
          rcases hstatus with hn | hn <;> cases hn
      exact ⟨b', by simp only [hlookup, if_neg hk]; exact hlook, hid'⟩
    · intro r hr i hcause
      rcases List.mem_append.1 hr with hr | hr
      · exact h.own r hr i hcause
      · have hrec := mem_rendered s hr
        subst hrec
        cases hcause
        exact hid.symm
    · intro r hr i hcause
      rcases List.mem_append.1 hr with hr | hr
      · exact hdone.notBefore r hr i hcause
      · have hrec := mem_rendered s hr
        subst hrec
        obtain ⟨t', ht', -, hw, hc⟩ := kept_setStatus s id .done id t ht
        refine ⟨t', by simp only [hid]; exact ht', ?_⟩
        rw [hw, hc]
        exact hacc.due id t ht hstarted

/-- **One step** that meets the condition keeps the bond of timers and buckets. -/
theorem alive_step {s : St} (hacc : Acc s) (o : Op) (hok : Harmless s o) (h : Alive s) : Alive (step s o) := by
  cases o with
  | add event => exact alive_add hacc h event
  | tick d => exact ⟨h.alive, h.own, h.notBefore⟩
  | start id =>
    simp only [step]
    split
    · rename_i t ht
      split_ifs with hdue
      · apply alive_setStatus h id
        intro t' ht' _
        rw [ht, Option.some.injEq] at ht'
        exact ht' ▸ Or.inl hdue.1
      · exact h
    · exact h
  | callback id =>
    simp only [step]
    split
    · rename_i t ht
      split_ifs with hstarted
      · exact alive_callback hacc h ht hstarted (hok t ht hstarted)
      · exact h
    · exact h
  | flush pending =>
    simp only [step]
    split_ifs with hperm
    · refine ⟨?_, h.own, h.notBefore⟩
      intro id t ht hstatus htaken
      -- an open bucket would have been taken
      simp only [List.mem_append, not_or] at htaken
      obtain ⟨b, hb, hid⟩ := h.alive id t ht hstatus htaken.1
      have hmem : b ∈ pending := hperm.mem_iff.2 (List.mem_map.2 ⟨⟨t.key, b⟩, AList.mem_lookup_iff.1 hb, rfl⟩)
      exact absurd (List.mem_map.2 ⟨b, hmem, hid⟩) htaken.2
    · exact h
  | flushNext i =>
    simp only [step]
    split
    · rename_i b rest hi
      have hstop : Alive (stop s b.timer.id) := by
        rcases stop_eq s b.timer.id with hs | hs <;> rw [hs]
        · exact h
        · exact alive_setStatus h _ (by intro t _ hn; rcases hn with hn | hn <;> cases hn)
      have hlog : (stop s b.timer.id).log = s.log := by
        rcases stop_eq s b.timer.id with hs | hs <;> rw [hs]
        rfl
      have hcause : ∀ r ∈ s.log ++ rendered s b .flush, ∀ id, r.cause = .callback id → r ∈ (stop s b.timer.id).log := by
        intro r hr id hc
        rw [hlog]
        rcases List.mem_append.1 hr with hr | hr
        · exact hr
        · rw [mem_rendered s hr] at hc
          cases hc
      refine ⟨hstop.alive, ?_, ?_⟩
      · intro r hr id hc
        exact hstop.own r (hcause r hr id hc) id hc
      · intro r hr id hc
        exact hstop.notBefore r (hcause r hr id hc) id hc
    · exact h

/-! ## Runs -/

theorem exclusive_of_alive {s : St} (hacc : Acc s) (h : Alive s) : Exclusive s :=
  ⟨once_of_acc hacc, h.own, h.notBefore⟩

/-- a step that breaks the condition records a bucket under another's timer -/
theorem foreign_of_not_harmless {s : St} (hacc : Acc s) {o : Op} (hbad : ¬ Harmless s o) :
    ∃ r ∈ (step s o).log, ∃ id, r.cause = .callback id ∧ id ≠ r.bucket := by
  cases o with
  | callback id =>
    simp only [Harmless, not_forall] at hbad
    obtain ⟨t, ht, hstarted, htaken, hopen⟩ := hbad
    have ht' : s.timers[id]? = some t := ht
    obtain ⟨b, hb⟩ := Option.ne_none_iff_exists'.1 hopen
    have hne := open_ne_taken hacc hb htaken
    refine ⟨⟨b.timer.id, s.now, .callback id⟩, ?_, id, rfl, Ne.symm hne⟩
    simp only [step, ht', hstarted, if_true, hb, rendered_of_nonempty s (hacc.buckets _ b hb).nonempty]
    exact List.mem_append_right _ List.mem_cons_self
  | _ => exact absurd trivial hbad

theorem meets_of_exclusive {s : St} (hacc : Acc s) (h : Alive s) (ops : List Op)
    (hex : Exclusive (run step s ops)) : Meets step Harmless s ops := by
  induction ops generalizing s with
  | nil => trivial
  | cons o ops ih =>
    rw [run_cons] at hex
    by_cases hok : Harmless s o
    · exact ⟨hok, ih (acc_step s o hacc) (alive_step hacc o hok h) hex⟩
    · obtain ⟨r, hr, id, hcause, hne⟩ := foreign_of_not_harmless hacc hok
      have hmem := (run_log step log_prefix_step (step s o) ops).subset hr
      exact absurd (hex.own r hmem id hcause) hne

/-- **Timers and their own buckets, characterised exactly.** -/
theorem exclusive_iff (opts : Options) (ops : List Op) :
    Exclusive (run step (init opts) ops) ↔ Meets step Harmless (init opts) ops := by
  constructor
  · intro h
    exact meets_of_exclusive (acc_init opts) (alive_init opts) ops h
  · intro hok
    have hboth : Acc (run step (init opts) ops) ∧ Alive (run step (init opts) ops) :=
      run_inv_meeting step (I := fun s => Acc s ∧ Alive s)
        (fun s o hok h => ⟨acc_step s o h.1, alive_step h.1 o hok h.2⟩) ⟨acc_init opts, alive_init opts⟩ ops hok
    exact exclusive_of_alive hboth.1 hboth.2

/-! ## A late callback -/

/-- an event of one key -/
def sample (id : Char) : InboundNotification where
  eventID := [id]
  notificationType := ['t']
  userID := ['u']
  title := ['t']
  message := ['m']
  secondaryText := []
  image := none
  action := none
  classification := ⟨.normal, ['k'], [id], false⟩
  producerCreatedAt := zeroTime
  serverPublishedAt := zeroTime
  agentReceivedAt := 0

def opts : Options := ⟨100, 2, 10⟩

/-- the window passes and the callback starts; a flush takes the bucket, an event opens the next one, and then the
callback gets to run -/
def lateRun : List Op :=
  [.add (sample 'a'), .tick 10, .start 0, .flush [⟨[sample 'a'], ⟨0, (['k'], .normal), 10⟩⟩], .flushNext 0,
    .add (sample 'b'), .callback 0]

/-- **A late callback** renders the bucket of the second event at the moment it was opened. -/
theorem late_callback_closes : ¬ Exclusive (run step (init opts) lateRun) := by
  intro h
  have hmem : (⟨1, 10, .callback 0⟩ : Rendered) ∈ (run step (init opts) lateRun).log := by decide +kernel
  exact absurd (h.own _ hmem 0 rfl) (by decide)

/-- the run breaks the condition at its last step only -/
example : ¬ Meets step Harmless (init opts) lateRun ∧ Meets step Harmless (init opts) lateRun.dropLast := by
  decide +kernel

end NotifyAgent.TimerOwnership
