/-
The duplicate-suppression caches against their sliding-window specification, over whole sequences of calls whose clock
readings do not decrease.

- `accept`: the specification as a machine of its own, whose state is the list of accepted calls;
- `run_tracks`: any number of calls keeps the store tracking the accepted calls, accepts what the specification admits,
  and keeps equal keys separated;
- `windowLaw_of_representable`: all three caches obey the window law, Go's for every `ttl`, Rust's and C#'s as long as
  `now + ttl` is representable at each call;
- `wrapped_expiry_forgets`: with `TimeSpan.MaxValue` the C# sum wraps to a negative expiry, so a key is accepted again
  at the same instant;
- `unrepresentable_expiry_panics`: in Rust such a sum panics inside the lock, and no later call returns.
-/
import Mathlib.Tactic
import NotifyAgent.Lib.Machine
import NotifyAgent.Core.Dedup

namespace NotifyAgent.DedupWindow

open NotifyAgent.Text NotifyAgent.Dedup
open NotifyAgent.Lib.Machine (run run_snoc)

/-- a cache in use: the store, `none` once a call has panicked and poisoned its lock, and the accepted calls -/
structure Session (K : Type) where
  cache : Option (Inner K)
  accepted : List (K × ℤ)

def Session.new {K : Type} : Session K := ⟨some Inner.new, []⟩

/-- a call of a cache, whose flag says whether the key was recorded -/
abbrev Call (K : Type) := Inner K → ℤ → K → Option (Inner K × Bool)

section
variable {K : Type}

def step (call : Call K) (s : Session K) (c : K × ℤ) : Session K :=
  match s.cache with
  | none => s
  | some g =>
    match call g c.2 c.1 with
    | none => ⟨none, s.accepted⟩
    | some (g', recorded) => ⟨some g', if recorded then s.accepted ++ [c] else s.accepted⟩

/-- clock readings do not decrease -/
def Chronological (calls : List (K × ℤ)) : Prop := calls.Pairwise fun a b => a.2 ≤ b.2

/-- accepted calls with one key are a `ttl` or `capacity` accepted calls apart -/
def Separated (capacity : ℕ) (ttl : ℤ) (accepted : List (K × ℤ)) : Prop :=
  ∀ i j a b, accepted[i]? = some a → accepted[j]? = some b → i < j → a.1 = b.1 →
    a.2 + ttl ≤ b.2 ∨ i + capacity < j

open Classical in
/-- the specification: a call is admitted unless the window suppresses it -/
noncomputable def accept (capacity : ℕ) (ttl : ℤ) (accepted : List (K × ℤ)) (c : K × ℤ) : List (K × ℤ) :=
  if Suppressed capacity ttl accepted c.1 c.2 then accepted else accepted ++ [c]

/-- **The window law** of a sequence of calls. -/
structure WindowLaw (capacity : ℕ) (ttl : ℤ) (call : Call K) (calls : List (K × ℤ)) : Prop where
  /-- every call returns, and refuses its key exactly when the window suppresses it -/
  verdict : ∀ pre c post, calls = pre ++ c :: post → ∃ g g' recorded,
    (run (step call) Session.new pre).cache = some g ∧ call g c.2 c.1 = some (g', recorded) ∧
      (recorded = false ↔ Suppressed capacity ttl (run (step call) Session.new pre).accepted c.1 c.2)
  /-- the accepted calls are the admitted ones -/
  refines : (run (step call) Session.new calls).accepted = run (accept capacity ttl) [] calls
  separated : Separated capacity ttl (run (step call) Session.new calls).accepted
  bounded : ∃ g, (run (step call) Session.new calls).cache = some g ∧ g.len ≤ capacity

/-- an accepted call is separated from the earlier ones with its key -/
theorem separated_snoc {capacity : ℕ} {ttl : ℤ} {accepted : List (K × ℤ)} {c : K × ℤ}
    (h : Separated capacity ttl accepted) (hc : ¬ Suppressed capacity ttl accepted c.1 c.2) :
    Separated capacity ttl (accepted ++ [c]) := by
  intro i j a b hi hj hij hkey
  have hjl := (List.getElem?_eq_some_iff.1 hj).1
  simp only [List.length_append, List.length_singleton] at hjl
  rw [List.getElem?_append_left (by omega)] at hi
  rcases Nat.lt_or_ge j accepted.length with hlt | hge
  · rw [List.getElem?_append_left hlt] at hj
    exact h i j a b hi hj hij hkey
  · obtain rfl : j = accepted.length := by omega
    simp only [List.getElem?_concat_length, Option.some.injEq] at hj
    subst hj
    by_contra hne
    push Not at hne
    exact hc ⟨i, a, hi, by omega, hkey, by omega⟩

variable [DecidableEq K] {capacity : ℕ} {ttl : ℤ} {expires : ℤ → Option ℤ}

/-- one call on a store that tracks the accepted calls -/
theorem step_tracks (hcap : 1 ≤ capacity) {s : Session K} {g : Inner K} {last : ℤ} {c : K × ℤ} (hle : last ≤ c.2)
    (hexp : expires c.2 = some (c.2 + ttl)) (hg : s.cache = some g)
    (htr : Tracks capacity ttl last s.accepted s.accepted.length g) (hsep : Separated capacity ttl s.accepted) :
    ∃ g' recorded, addWith capacity expires g c.2 c.1 = some (g', recorded) ∧
      (recorded = false ↔ Suppressed capacity ttl s.accepted c.1 c.2) ∧
      (step (addWith capacity expires) s c).cache = some g' ∧
      (step (addWith capacity expires) s c).accepted = accept capacity ttl s.accepted c ∧
      Tracks capacity ttl c.2 (step (addWith capacity expires) s c).accepted
        (step (addWith capacity expires) s c).accepted.length g' ∧
      Separated capacity ttl (step (addWith capacity expires) s c).accepted := by
  obtain ⟨g', recorded, hcall, hiff, hdup, hnew⟩ := addWith_law hcap hle hexp htr c.1
  refine ⟨g', recorded, hcall, hiff, ?_⟩
  unfold step
  rw [hg]
  simp only [hcall]
  cases recorded with
  | false => exact ⟨trivial, by simp [accept, hiff.1 rfl], hdup rfl, hsep⟩
  | true =>
    have hfree : ¬ Suppressed capacity ttl s.accepted c.1 c.2 := fun hs => absurd (hiff.2 hs) (by simp)
    exact ⟨trivial, by simp [accept, hfree], by simpa using hnew rfl, separated_snoc hsep hfree⟩

/-- **Any number of calls.** The store tracks the accepted calls, and these are separated. -/
theorem run_tracks (hcap : 1 ≤ capacity) {calls : List (K × ℤ)} (hchron : Chronological calls)
    (hexp : ∀ c ∈ calls, expires c.2 = some (c.2 + ttl)) :
    ∃ g, (run (step (addWith capacity expires)) Session.new calls).cache = some g ∧
      (∀ now, (∀ c ∈ calls, c.2 ≤ now) →
        Tracks capacity ttl now (run (step (addWith capacity expires)) Session.new calls).accepted
          (run (step (addWith capacity expires)) Session.new calls).accepted.length g) ∧
      (run (step (addWith capacity expires)) Session.new calls).accepted = run (accept capacity ttl) [] calls ∧
      Separated capacity ttl (run (step (addWith capacity expires)) Session.new calls).accepted := by
  induction calls using List.reverseRecOn with
  | nil => exact ⟨Inner.new, rfl, fun now _ => tracks_new capacity ttl now, rfl, by simp [Separated, Session.new]⟩
  | append_singleton calls c ih =>
    obtain ⟨hpre, -, hlast⟩ := List.pairwise_append.1 hchron
    obtain ⟨g, hg, htr, hacc, hsep⟩ := ih hpre fun c hc => hexp c (by simp [hc])
    obtain ⟨g', _, -, -, hcache, hadm, htr', hsep'⟩ :=
      step_tracks hcap le_rfl (hexp c (by simp)) hg (htr c.2 fun a ha => hlast a ha c (by simp)) hsep
    rw [run_snoc, run_snoc, ← hacc]
    exact ⟨g', hcache, fun now hnow => htr'.advance (hnow c (by simp)), hadm, hsep'⟩

/-- the window law for any expiry that is `now + ttl` at each of the calls -/
theorem windowLaw_addWith (hcap : 1 ≤ capacity) {calls : List (K × ℤ)} (hchron : Chronological calls)
    (hexp : ∀ c ∈ calls, expires c.2 = some (c.2 + ttl)) : WindowLaw capacity ttl (addWith capacity expires) calls := by
  obtain ⟨g, hg, htr, hacc, hsep⟩ := run_tracks hcap hchron hexp
  refine ⟨?_, hacc, hsep, g, hg, ?_⟩
  · rintro pre c post rfl
    obtain ⟨hpre, -, hlast⟩ := List.pairwise_append.1 hchron
    obtain ⟨g, hg, htr, -, hsep⟩ := run_tracks hcap hpre fun c hc => hexp c (by simp [hc])
    obtain ⟨g', recorded, hcall, hiff, -⟩ :=
      step_tracks hcap le_rfl (hexp c (by simp)) hg (htr c.2 fun a ha => hlast a ha c (by simp)) hsep
    exact ⟨g, g', recorded, hg, hcall, hiff⟩
  · obtain ⟨now, hnow⟩ : ∃ now : ℤ, ∀ c ∈ calls, c.2 ≤ now := by
      obtain ⟨now, hnow⟩ := (calls.map Prod.snd).toFinset.bddAbove
      exact ⟨now, fun c hc => hnow (by simpa using ⟨c.1, hc⟩)⟩
    have := htr now hnow
    rw [this.synced.len_eq]
    exact this.bounded

end

/-- `SeenOrAdd` with its flag turned into "recorded" -/
def recordedBySeenOrAdd (capacity : ℕ) (ttl : ℤ) : Call Str := fun g now key =>
  (seenOrAdd capacity ttl g now key).map fun r => (r.1, !r.2)

theorem recordedBySeenOrAdd_eq (capacity : ℕ) (ttl : ℤ) :
    recordedBySeenOrAdd capacity ttl = addWith capacity fun now => some (now + ttl) := by
  funext g now key
  simp [recordedBySeenOrAdd, seenOrAdd, Option.map_map, Function.comp_def]

/-- `now + ttl` fits a `long` -/
def FitsLong (x : ℤ) : Prop := -2 ^ 63 ≤ x ∧ x < 2 ^ 63

theorem bmod_of_fitsLong {x : ℤ} (h : FitsLong x) : Int.bmod x (2 ^ 64) = x := by
  unfold FitsLong at h
  exact Int.bmod_eq_of_le (by omega) (by omega)

/-- **The caches refine the sliding window.** For every capacity, every `ttl` and every chronological sequence of calls:
Go's cache obeys the window law; Rust's does if `now + ttl` is a representable `Instant` at each call, and C#'s if it
fits a `long` at each call. -/
theorem windowLaw_of_representable {capacity : ℕ} (hcap : 1 ≤ capacity) :
    (∀ (maxInstant : ℤ) (ttl : ℕ) (calls : List (Str × ℤ)), Chronological calls →
      (∀ c ∈ calls, c.2 + ttl ≤ maxInstant) → WindowLaw capacity ttl (tryAdd maxInstant capacity ttl) calls) ∧
    (∀ (ttl : ℤ) (calls : List (Str × ℤ)), Chronological calls →
      WindowLaw capacity ttl (recordedBySeenOrAdd capacity ttl) calls) ∧
    (∀ (ttl : ℤ) (calls : List (List UInt16 × ℤ)), Chronological calls →
      (∀ c ∈ calls, FitsLong (c.2 + ttl)) → WindowLaw capacity ttl (tryAddTicks capacity ttl) calls) := by
  refine ⟨fun maxInstant ttl calls hchron hfit => ?_, fun ttl calls hchron => ?_, fun ttl calls hchron hfit => ?_⟩
  · exact windowLaw_addWith hcap hchron fun c hc => if_pos (hfit c hc)
  · rw [recordedBySeenOrAdd_eq]
    exact windowLaw_addWith hcap hchron fun _ _ => rfl
  · exact windowLaw_addWith hcap hchron fun c hc => congrArg some (bmod_of_fitsLong (hfit c hc))

/-! ## Expiries that are not representable -/

/-- `TimeSpan.MaxValue.Ticks` -/
def maxTicks : ℤ := 2 ^ 63 - 1

/-- one key, twice at the same instant of the year 2022 -/
def sameInstant : List (List UInt16 × ℤ) := [([0x6B], 638000000000000000), ([0x6B], 638000000000000000)]

/-- **A wrapped expiry forgets its key.** With `TimeSpan.MaxValue` the C# cache records the same key twice at the same
instant, so the window law fails. -/
theorem wrapped_expiry_forgets :
    Chronological sameInstant ∧
    (run (step (tryAddTicks 10 maxTicks)) Session.new sameInstant).accepted = sameInstant ∧
    ¬ WindowLaw 10 maxTicks (tryAddTicks 10 maxTicks) sameInstant := by
  have hacc : (run (step (tryAddTicks 10 maxTicks)) Session.new sameInstant).accepted = sameInstant := by decide
  refine ⟨by simp [Chronological, sameInstant], hacc, fun h => ?_⟩
  have hsep := h.separated
  rw [hacc] at hsep
  have := hsep 0 1 _ _ rfl rfl (by decide) rfl
  revert this
  decide

/-- the window law at the baseline of the host, ten thousand keys for ten minutes, on a key that comes twice and once
more after it has expired -/
theorem windowLaw_of_representable_baseline :
    WindowLaw 10000 6000000000 (tryAddTicks 10000 6000000000)
      [([0x6B], 638000000000000000), ([0x6B], 638000000000000001), ([0x6B], 638000006000000000)] :=
  (windowLaw_of_representable (by decide)).2.2 _ _ (by simp [Chronological]) (by simp [FitsLong])

section
variable {K : Type} [DecidableEq K] {capacity : ℕ} {ttl : ℤ} {expires : ℤ → Option ℤ}

/-- **A panic poisons the cache.** A key that the window does not suppress, with an expiry that is not representable,
panics inside the lock, and no later call is accepted. -/
theorem unrepresentable_expiry_panics {s : Session K} {g : Inner K} {c : K × ℤ} (hexp : expires c.2 = none)
    (hg : s.cache = some g) (htr : Tracks capacity ttl c.2 s.accepted s.accepted.length g)
    (hfree : ¬ Suppressed capacity ttl s.accepted c.1 c.2) (calls : List (K × ℤ)) :
    run (step (addWith capacity expires)) s (c :: calls) = ⟨none, s.accepted⟩ := by
  have hcall : addWith capacity expires g c.2 c.1 = none := by
    unfold addWith
    rw [if_neg fun hdup => hfree ((lookup_iff_suppressed (purge_tracks htr).1 c.1).1 hdup), hexp]
    rfl
  have hstep : step (addWith capacity expires) s c = ⟨none, s.accepted⟩ := by
    unfold step
    rw [hg]
    simp only [hcall]
  rw [Lib.Machine.run_cons, hstep]
  induction calls with
  | nil => rfl
  | cons c' calls ih => rw [Lib.Machine.run_cons]; exact ih

end

end NotifyAgent.DedupWindow
