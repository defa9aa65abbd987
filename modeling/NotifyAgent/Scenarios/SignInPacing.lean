/-
Device-code sign-in against any token endpoint: does it end, does it keep the pace the server asks for, and when does it
touch the shared refresh-token cell?

- `iterate_inv`: one round of the polling loop keeps the pace, the request bound and the cell;
- `sign_in_ends`: over every answer of the endpoint after any time, the sign-in ends after at most
  `expires_in / interval` requests, rounded up; each request comes after a sleep of the interval and five more seconds
  for every `slow_down` so far, or of the maximum of `sleep` if that is less; and the cell is written once at most, by a
  sign-in that succeeds;
- `endless_interval_unkept`: an interval beyond the maximum, with more requests than it leaves room for.
-/
import Mathlib.Tactic
import Mathlib.Algebra.Order.Floor.Div
import NotifyAgent.Lib.Machine
import NotifyAgent.Core.DeviceCode

namespace NotifyAgent.SignInPacing

open NotifyAgent.Text NotifyAgent.DeviceCode
open NotifyAgent.Lib.Machine (Preceded preceded_append)
open NotifyAgent.Lib.Loop (whileLoop_unfold)

/-! ## Specification -/

def isTokenRequest : Event → Bool
  | .tokenRequest _ => true
  | _ => false

def isSlowDown : Event → Bool
  | .replied (some .slowDown) => true
  | _ => false

def isWrite : Event → Bool
  | .wrote _ => true
  | _ => false

/-- the interval that the server asked for, at least a second -/
def asked (dc : DeviceCodeResponse) : ℕ := max dc.interval.toNat 1

/-- and with five more seconds for each `slow_down`, saturating -/
def slowed (dc : DeviceCodeResponse) (slowDowns : ℕ) : ℕ := min (asked dc + 5 * slowDowns) maxU64

/-- a token request comes right after a sleep, as long as `lasting` makes of what the `slow_down` replies so far ask for
-/
def Waited (lasting : ℕ → ℕ) (dc : DeviceCodeResponse) (before : List Event) : Event → Prop
  | .tokenRequest _ =>
    ∃ earlier elapsed, before = earlier ++ [.slept elapsed] ∧
      lasting (fromSecs (slowed dc (earlier.countP isSlowDown))) ≤ elapsed
  | _ => True

structure Paced (lasting : ℕ → ℕ) (dc : DeviceCodeResponse) (log : List Event) : Prop where
  bounded : log.countP isTokenRequest ≤ fromSecs dc.expiresIn.toNat ⌈/⌉ lasting (fromSecs (asked dc))
  waits : Preceded (Waited lasting dc) log

/-- what is left of a sleep: no more than the maximum -/
def capped (duration : ℕ) : ℕ := min duration maxSleep

/-- the cell is written once at most, in a sign-in that succeeds, and otherwise left as it was -/
structure CellKept (cell : Option Str) (s : St) : Prop where
  once : s.log.countP isWrite ≤ 1
  success : ∀ refreshToken, .wrote refreshToken ∈ s.log → ∃ id, s.ending = some (.returned (.ok id))
  unwritten : (∀ refreshToken, .wrote refreshToken ∉ s.log) → s.cell = cell
  failure : ∀ f, s.ending = some (.returned (.error f)) → s.cell = cell

/-! ## Intervals -/

theorem asked_pos (dc : DeviceCodeResponse) : 1 ≤ asked dc := le_max_right _ _

theorem asked_le_slowed (dc : DeviceCodeResponse) (k : ℕ) : asked dc ≤ slowed dc k := by
  have hbound := (PollInterval.start dc.interval).bound
  have hsecs : (PollInterval.start dc.interval).secs = asked dc := rfl
  unfold slowed
  omega

theorem slower_secs {p : PollInterval} {dc : DeviceCodeResponse} {k : ℕ} (h : p.secs = slowed dc k) :
    p.slower.secs = slowed dc (k + 1) := by
  unfold slowed at h ⊢
  simp only [PollInterval.slower, h]
  omega

theorem capped_mono {a b : ℕ} (h : a ≤ b) : capped (fromSecs a) ≤ capped (fromSecs b) :=
  min_le_min_right _ (Nat.mul_le_mul_right _ h)

theorem capped_pos (dc : DeviceCodeResponse) : 0 < capped (fromSecs (asked dc)) := by
  have hpos := asked_pos dc
  unfold capped fromSecs maxSleep
  omega

/-- nanoseconds in nanoseconds are seconds in seconds -/
theorem fromSecs_ceilDiv (a : ℕ) {b : ℕ} (hb : 0 < b) : fromSecs a ⌈/⌉ fromSecs b = a ⌈/⌉ b := by
  apply le_antisymm
  · rw [ceilDiv_le_iff_le_mul (show 0 < fromSecs b by unfold fromSecs; omega)]
    calc fromSecs a ≤ fromSecs (b * (a ⌈/⌉ b)) := Nat.mul_le_mul_right _ ((ceilDiv_le_iff_le_mul hb).1 le_rfl)
      _ = fromSecs b * (a ⌈/⌉ b) := by
        unfold fromSecs
        ring
  · rw [ceilDiv_le_iff_le_mul hb]
    have hceil := (ceilDiv_le_iff_le_mul (show 0 < fromSecs b by unfold fromSecs; omega)).1
      (le_refl (fromSecs a ⌈/⌉ fromSecs b))
    apply Nat.le_of_mul_le_mul_right (c := 10 ^ 9) _ (by decide)
    calc a * 10 ^ 9 ≤ fromSecs b * (fromSecs a ⌈/⌉ fromSecs b) := hceil
      _ = b * (fromSecs a ⌈/⌉ fromSecs b) * 10 ^ 9 := by
        rw [fromSecs]
        ring

/-- before the deadline there is room for one more request -/
theorem requests_lt {dc : DeviceCodeResponse} {start now requests : ℕ}
    (hclock : start + requests * capped (fromSecs (asked dc)) ≤ now)
    (hearly : now < start + fromSecs dc.expiresIn.toNat) :
    requests < fromSecs dc.expiresIn.toNat ⌈/⌉ capped (fromSecs (asked dc)) := by
  by_contra hover
  have hceil := (ceilDiv_le_iff_le_mul (capped_pos dc)).1 (Nat.le_of_not_lt hover)
  rw [mul_comm] at hceil
  omega

/-! ## Invariant -/

/-- the pace so far: independent of the cell and of how the sign-in ends -/
structure Pace (dc : DeviceCodeResponse) (start : ℕ) (s : St) : Prop where
  counted : s.log.countP isTokenRequest = s.requests
  clock : start + s.requests * capped (fromSecs (asked dc)) ≤ s.now
  bound : s.requests ≤ fromSecs dc.expiresIn.toNat ⌈/⌉ capped (fromSecs (asked dc))
  waits : Preceded (Waited capped dc) s.log

structure Inv (dc : DeviceCodeResponse) (start : ℕ) (cell : Option Str) (s : St) : Prop where
  pace : Pace dc start s
  interval : s.interval.secs = slowed dc (s.log.countP isSlowDown)
  saved : (s.log.countP isWrite = 0 ∧ s.cell = cell) ∨
    (s.log.countP isWrite = 1 ∧ ∃ id, s.ending = some (.returned (.ok id)))
  returned : s.ending = none ∨ ∃ result, s.ending = some (.returned result)

section
variable {I : DeviceCodeIdentity} {L : Libs} {W : World} {dc : DeviceCodeResponse} {start : ℕ} {cell : Option Str}
  {s : St}

/-- a sleep of the current interval, a request and a reply -/
theorem pace_exchange (h : Pace dc start s) (hinterval : s.interval.secs = slowed dc (s.log.countP isSlowDown))
    (hearly : s.now < start + fromSecs dc.expiresIn.toNat) : Pace dc start (s.exchange I W dc) where
  counted := by
    simp only [St.exchange, List.countP_append, h.counted]
    rfl
  clock := by
    have hwait : capped (fromSecs (asked dc)) ≤ capped (fromSecs s.interval.secs) := by
      rw [hinterval]
      exact capped_mono (asked_le_slowed dc _)
    calc start + (s.requests + 1) * capped (fromSecs (asked dc))
        = (start + s.requests * capped (fromSecs (asked dc))) + capped (fromSecs (asked dc)) := by ring
      _ ≤ s.now + capped (fromSecs s.interval.secs) := Nat.add_le_add h.clock hwait
      _ ≤ (s.exchange I W dc).now := exchange_now I W dc s
  bound := requests_lt h.clock hearly
  waits := by
    apply preceded_append h.waits
    intro before e after hsplit
    have hlasts := W.sleep.lasts s.requests (fromSecs s.interval.secs)
    rw [hinterval] at hlasts
    -- the request is the second of the three events
    rcases before with _ | ⟨e₁, _ | ⟨e₂, _ | ⟨e₃, before⟩⟩⟩
    · obtain ⟨rfl, -⟩ := List.cons.inj hsplit
      trivial
    · obtain ⟨rfl, htail⟩ := List.cons.inj hsplit
      obtain ⟨rfl, -⟩ := List.cons.inj htail
      refine ⟨s.log, _, rfl, ?_⟩
      rw [hinterval]
      exact hlasts
    · obtain ⟨-, htail⟩ := List.cons.inj hsplit
      obtain ⟨-, htail⟩ := List.cons.inj htail
      obtain ⟨rfl, -⟩ := List.cons.inj htail
      trivial
    · simp at hsplit

/-- a write of the cell is no request -/
theorem pace_save (h : Pace dc start s) (refreshToken : Option Str) : Pace dc start (s.save I refreshToken) := by
  unfold St.save
  split
  · rename_i token _
    refine ⟨?_, h.clock, h.bound, ?_⟩
    · simpa [isTokenRequest] using h.counted
    · apply preceded_append h.waits
      intro before e after hsplit
      cases before with
      | nil =>
        obtain ⟨rfl, -⟩ := List.cons.inj hsplit
        trivial
      | cons _ before => simp at hsplit
  · exact h

/-- what the three events of an exchange are besides the request -/
theorem exchange_log :
    (s.exchange I W dc).log.countP isSlowDown = s.log.countP isSlowDown +
        (if (W.reply s.requests).2.map parseTokenPoll = some .slowDown then 1 else 0) ∧
      (s.exchange I W dc).log.countP isWrite = s.log.countP isWrite := by
  constructor
  · simp only [St.exchange, List.countP_append]
    congr 1
    cases (W.reply s.requests).2.map parseTokenPoll with
    | none => rfl
    | some poll => cases poll <;> simp [isSlowDown]
  · simp only [St.exchange, List.countP_append]
    rfl

theorem save_log (refreshToken : Option Str) :
    (s.save I refreshToken).log.countP isSlowDown = s.log.countP isSlowDown ∧
      (s.save I refreshToken).interval = s.interval ∧
      ((s.save I refreshToken).log.countP isWrite = s.log.countP isWrite ∧ (s.save I refreshToken).cell = s.cell ∨
        (s.save I refreshToken).log.countP isWrite = s.log.countP isWrite + 1) := by
  unfold St.save
  split
  · refine ⟨?_, rfl, Or.inr ?_⟩
    · simp [isSlowDown]
    · simp [isWrite]
  · exact ⟨rfl, rfl, Or.inl ⟨rfl, rfl⟩⟩

/-- **One round** keeps the invariant. -/
theorem iterate_inv (hgoing : s.ending.isNone = true) (h : Inv dc start cell s) :
    Inv dc start cell (iterate I L W dc (start + fromSecs dc.expiresIn.toNat) s) := by
  -- a sign-in that goes on has not written the cell
  have hnone : s.ending = none := Option.isNone_iff_eq_none.1 hgoing
  obtain ⟨hwrites, hcell⟩ : s.log.countP isWrite = 0 ∧ s.cell = cell := by
    rcases h.saved with hsaved | ⟨_, id, hended⟩
    · exact hsaved
    · rw [hnone] at hended
      cases hended
  obtain ⟨hslow, hwrite⟩ := @exchange_log I W dc s
  rcases iterate_cases I L W dc (start + fromSecs dc.expiresIn.toNat) s with
    ⟨_, f, he⟩ | ⟨hearly, ⟨poll, hpoll, ⟨rfl, he⟩ | ⟨rfl, he⟩ | ⟨_, refreshToken, _, rfl, _, he⟩⟩ | ⟨hreply, f, he⟩⟩ <;>
    rw [he]
  · exact ⟨⟨h.pace.counted, h.pace.clock, h.pace.bound, h.pace.waits⟩, h.interval, Or.inl ⟨hwrites, hcell⟩,
      Or.inr ⟨_, rfl⟩⟩
  all_goals
    have hpace := @pace_exchange I W dc start s h.pace h.interval hearly
  · refine ⟨hpace, ?_, Or.inl ⟨hwrite.trans hwrites, hcell⟩, Or.inl hnone⟩
    rw [hslow, hpoll]
    exact h.interval
  · refine ⟨⟨hpace.counted, hpace.clock, hpace.bound, hpace.waits⟩, ?_, Or.inl ⟨hwrite.trans hwrites, hcell⟩,
      Or.inl hnone⟩
    simp only [hslow, hpoll, if_true]
    exact slower_secs h.interval
  · have hsave := @pace_save I dc start _ hpace refreshToken
    obtain ⟨hslow', hinterval, hcount⟩ := @save_log I (s.exchange I W dc) refreshToken
    refine ⟨⟨hsave.counted, hsave.clock, hsave.bound, hsave.waits⟩, ?_, ?_, Or.inr ⟨_, rfl⟩⟩
    · simp only [hinterval, hslow', hslow, hpoll]
      exact h.interval
    · rcases hcount with ⟨hsame, hkept⟩ | hone
      · exact Or.inl ⟨hsame.trans (hwrite.trans hwrites), hkept.trans hcell⟩
      · refine Or.inr ⟨?_, _, rfl⟩
        simp only [hone, hwrite, hwrites]
  · refine ⟨⟨hpace.counted, hpace.clock, hpace.bound, hpace.waits⟩, ?_, Or.inl ⟨hwrite.trans hwrites, hcell⟩,
      Or.inr ⟨_, rfl⟩⟩
    simp only [St.fail, hslow, if_neg hreply, Nat.add_zero]
    exact h.interval

theorem notMem_of_countP {s : St} (h : s.log.countP isWrite = 0) (refreshToken : Str) :
    .wrote refreshToken ∉ s.log := by
  intro hmem
  exact absurd (List.countP_eq_zero.1 h _ hmem) (by simp [isWrite])

theorem cellKept_of_inv (h : Inv dc start cell s) : CellKept cell s := by
  rcases h.saved with ⟨hzero, hcell⟩ | ⟨hone, id, hok⟩
  · refine ⟨by omega, fun refreshToken hmem => ?_, fun _ => hcell, fun _ _ => hcell⟩
    exact absurd hmem (notMem_of_countP hzero refreshToken)
  · refine ⟨by omega, fun _ _ => ⟨id, hok⟩, fun hunwritten => ?_, fun f hf => ?_⟩
    · have hpos : 0 < s.log.countP isWrite := by omega
      obtain ⟨e, hmem, hwrite⟩ := List.countP_pos_iff.1 hpos
      cases e <;> simp [isWrite] at hwrite
      exact absurd hmem (hunwritten _)
    · rw [hok] at hf
      cases hf

end

/-! ## Result -/

/-- the loop starts with the interval that was asked for -/
theorem inv_start (I : DeviceCodeIdentity) (dc : DeviceCodeResponse) (start : ℕ) (cell : Option Str) :
    Inv dc start cell ⟨start, .start dc.interval, cell, 0,
      [.deviceCodeRequest (deviceCodeRequest I), .prompted (prompt dc)], none⟩ where
  pace := by
    refine ⟨rfl, by simp, Nat.zero_le _, ?_⟩
    intro before e after hsplit
    have hlog : [Event.deviceCodeRequest (deviceCodeRequest I), .prompted (prompt dc)] = before ++ e :: after := hsplit
    have hmem : e ∈ [Event.deviceCodeRequest (deviceCodeRequest I), .prompted (prompt dc)] := by
      rw [hlog]
      simp
    simp only [List.mem_cons, List.not_mem_nil, or_false] at hmem
    rcases hmem with rfl | rfl <;> trivial
  interval := by
    have hbound := (PollInterval.start dc.interval).bound
    have hsecs : (PollInterval.start dc.interval).secs = asked dc := rfl
    have hzero : slowed dc 0 = min (asked dc) maxU64 := rfl
    calc (PollInterval.start dc.interval).secs
        = min (asked dc) maxU64 := by omega
      _ = slowed dc 0 := hzero.symm
  saved := Or.inl ⟨rfl, rfl⟩
  returned := Or.inl rfl

/-- **Sign-in.** For every device-code response with a representable deadline, every sequence of answers, each after any
time, and whatever the cell held. The maximum of `sleep` caps the pace; an interval within it bounds the requests
itself. -/
theorem sign_in_ends (I : DeviceCodeIdentity) (L : Libs) (W : World) (cell : Option Str) (dc : DeviceCodeResponse)
    (hanswer : W.deviceCode = some dc) (hdeadline : W.shown + fromSecs dc.expiresIn.toNat ≤ W.lastInstant) :
    (∃ result, (identity I L W cell).ending = some (.returned result)) ∧
      Paced capped dc (identity I L W cell).log ∧
      (fromSecs (asked dc) ≤ maxSleep →
        (identity I L W cell).log.countP isTokenRequest ≤ dc.expiresIn.toNat ⌈/⌉ asked dc) ∧
      CellKept cell (identity I L W cell) := by
  have hpoll : identity I L W cell = poll I L W dc (W.shown + fromSecs dc.expiresIn.toNat)
      ⟨W.shown, .start dc.interval, cell, 0,
        [.deviceCodeRequest (deviceCodeRequest I), .prompted (prompt dc)], none⟩ := by
    unfold identity
    rw [hanswer]
    simp only
    rw [if_neg (Nat.not_lt.2 hdeadline)]
    rfl
  obtain ⟨hinv, hended⟩ := poll_stops I L W dc (W.shown + fromSecs dc.expiresIn.toNat)
    (fun s hgoing h => iterate_inv hgoing h) (inv_start I dc W.shown cell)
  rw [← hpoll] at hinv hended
  have hbounded : (identity I L W cell).log.countP isTokenRequest ≤
      fromSecs dc.expiresIn.toNat ⌈/⌉ capped (fromSecs (asked dc)) := by
    rw [hinv.pace.counted]
    exact hinv.pace.bound
  refine ⟨?_, ⟨hbounded, hinv.pace.waits⟩, fun hwithin => ?_, cellKept_of_inv hinv⟩
  · rcases hinv.returned with hnone | hreturned
    · rw [hnone] at hended
      cases hended
    · exact hreturned
  · rwa [capped, min_eq_left hwithin, fromSecs_ceilDiv _ (asked_pos dc)] at hbounded

/-! ## A sign-in -/

def sampleIdentity : DeviceCodeIdentity := ⟨['c'], ['t'], ['d'], [], true⟩

def sampleResponse : DeviceCodeResponse := ⟨['x'], ['u'], ['v'], 5, 20⟩

/-- claims with an oid, whatever the token -/
def sampleLibs : Libs := ⟨fun _ => some [], fun _ => some (.object [("oid".toList, .string ['o'])])⟩

/-- a server that asks to slow down, and then has the tokens -/
def sampleReply (n : ℕ) : ℕ × Option Value :=
  (1, some (.object (if n = 0 then [("error".toList, .string "slow_down".toList)]
    else [("id_token".toList, .string ".".toList), ("refresh_token".toList, .string ['r'])])))

/-- thirty years, for which `sleep` waits where the clock cannot represent the instant to wait for -/
def farFuture : ℕ := fromSecs (86400 * 365 * 30)

/-- a `sleep` on a clock with 64-bit seconds: to the nanosecond, or for thirty years -/
def clockSleep : Sleep where
  elapsed _ duration := if duration < fromSecs (2 ^ 63) then duration else farFuture
  lasts _ duration := by
    split_ifs
    · exact min_le_left _ _
    · exact (min_le_right _ _).trans (by decide)

def sampleWorld : World where
  deviceCode := some sampleResponse
  shown := 0
  lastInstant := fromSecs 100
  sleep := clockSleep
  reply := sampleReply

theorem sample_sign_in :
    (∃ result, (identity sampleIdentity sampleLibs sampleWorld none).ending = some (.returned result)) ∧
      Paced capped sampleResponse (identity sampleIdentity sampleLibs sampleWorld none).log ∧
      (fromSecs (asked sampleResponse) ≤ maxSleep →
        (identity sampleIdentity sampleLibs sampleWorld none).log.countP isTokenRequest ≤
          sampleResponse.expiresIn.toNat ⌈/⌉ asked sampleResponse) ∧
      CellKept none (identity sampleIdentity sampleLibs sampleWorld none) :=
  sign_in_ends sampleIdentity sampleLibs sampleWorld none sampleResponse rfl (by decide)

/-! ## An interval beyond the maximum -/

def endlessResponse : DeviceCodeResponse := ⟨['x'], ['u'], ['v'], 18446744073709551615, 9000000000000000000⟩

def errorBody (error : String) : Value := .object [("error".toList, .string error.toList)]

/-- a server that has no answer yet, and then refuses -/
def endlessWorld : World where
  deviceCode := some endlessResponse
  shown := 0
  lastInstant := fromSecs (2 ^ 63 - 1)
  sleep := clockSleep
  reply n := (1, some (errorBody (if n = 0 then "authorization_pending" else "access_denied")))

/-- the state of that sign-in after some rounds -/
def endlessState (requests : ℕ) (log : List Event) (ending : Option Ending) : St :=
  ⟨requests * (farFuture + 1), .start 18446744073709551615, none, requests,
    [.deviceCodeRequest (deviceCodeRequest sampleIdentity), .prompted (prompt endlessResponse)] ++ log, ending⟩

/-- a round of it: a sleep of thirty years, a request and its answer -/
def endlessRound (poll : TokenPoll) : List Event :=
  [.slept farFuture, .tokenRequest (tokenRequest sampleIdentity endlessResponse), .replied (some poll)]

def endlessDeadline : ℕ := fromSecs 9000000000000000000

def refusal : Str := "access_denied: ".toList

def endlessEnd : St := endlessState 2 (endlessRound .pending ++ endlessRound (.failed refusal))
  (some (.returned (.error (.message ("device-code sign-in failed: ".toList ++ refusal)))))

theorem exchange_endless (requests : ℕ) (log : List Event) {body : Value}
    (hbody : (endlessWorld.reply requests).2 = some body) :
    (endlessState requests log none).exchange sampleIdentity endlessWorld endlessResponse =
      endlessState (requests + 1) (log ++ endlessRound (parseTokenPoll body)) none := by
  have hsleep : endlessWorld.sleep.elapsed requests (fromSecs 18446744073709551615) = farFuture := by
    have hlong : ¬ fromSecs 18446744073709551615 < fromSecs (2 ^ 63) := by decide
    simp only [endlessWorld, clockSleep, if_neg hlong]
  have hinterval : (endlessState requests log none).interval.secs = 18446744073709551615 := rfl
  simp only [St.exchange, hinterval]
  simp only [endlessState, hsleep, hbody, Option.map_some, endlessRound, List.append_assoc, St.mk.injEq, and_true]
  show requests * (farFuture + 1) + farFuture + 1 = (requests + 1) * (farFuture + 1)
  ring

/-- the sign-in makes two requests, thirty years apart -/
theorem identity_endless : identity sampleIdentity sampleLibs endlessWorld none = endlessEnd := by
  have hstart : identity sampleIdentity sampleLibs endlessWorld none =
      poll sampleIdentity sampleLibs endlessWorld endlessResponse endlessDeadline (endlessState 0 [] none) := by
    have hdeadline : ¬ endlessWorld.lastInstant <
        endlessWorld.shown + fromSecs endlessResponse.expiresIn.toNat := by decide
    unfold identity
    exact if_neg hdeadline
  have hpending : parseTokenPoll (errorBody "authorization_pending") = .pending := by decide
  have hrefused : parseTokenPoll (errorBody "access_denied") = .failed refusal := by decide
  have hfirst : iterate sampleIdentity sampleLibs endlessWorld endlessResponse endlessDeadline
      (endlessState 0 [] none) = endlessState 1 (endlessRound .pending) none := by
    have hbody : (endlessWorld.reply 0).2 = some (errorBody "authorization_pending") := rfl
    rw [iterate_answered _ _ _ _ _ (by decide) hbody, exchange_endless 0 [] hbody, hpending]
    rfl
  have hsecond : iterate sampleIdentity sampleLibs endlessWorld endlessResponse endlessDeadline
      (endlessState 1 (endlessRound .pending) none) = endlessEnd := by
    have hbody : (endlessWorld.reply 1).2 = some (errorBody "access_denied") := rfl
    rw [iterate_answered _ _ _ _ _ (by decide) hbody, exchange_endless 1 _ hbody, hrefused]
    rfl
  have hvariant := iterate_variant sampleIdentity sampleLibs endlessWorld endlessResponse endlessDeadline
  have hgoing : ∀ requests log, (endlessState requests log none).ending.isNone = true := fun _ _ => rfl
  have hended : ¬ endlessEnd.ending.isNone = true := Bool.false_ne_true
  rw [hstart, poll, whileLoop_unfold hvariant, if_pos (hgoing 0 []), hfirst, whileLoop_unfold hvariant,
    if_pos (hgoing 1 _), hsecond, whileLoop_unfold hvariant, if_neg hended]

/-- **An endless interval.** The deadline is representable and leaves room for one request; there are two, and neither
comes after the interval. -/
theorem endless_interval_unkept :
    let log := (identity sampleIdentity sampleLibs endlessWorld none).log
    endlessWorld.deviceCode = some endlessResponse ∧
      endlessWorld.shown + fromSecs endlessResponse.expiresIn.toNat ≤ endlessWorld.lastInstant ∧
      ¬ log.countP isTokenRequest ≤ endlessResponse.expiresIn.toNat ⌈/⌉ asked endlessResponse ∧
      ¬ Preceded (Waited id endlessResponse) log := by
  intro log
  have hlog : log = endlessEnd.log := congrArg St.log identity_endless
  refine ⟨rfl, by decide, ?_, fun hpaced => ?_⟩
  · rw [hlog]
    decide
  · rw [hlog] at hpaced
    -- the first request, right after the sleep of thirty years
    let started := [Event.deviceCodeRequest (deviceCodeRequest sampleIdentity), .prompted (prompt endlessResponse)]
    obtain ⟨earlier, elapsed, hbefore, hlong⟩ := hpaced (started ++ [.slept farFuture])
      (.tokenRequest (tokenRequest sampleIdentity endlessResponse)) _ rfl
    obtain ⟨hstarted, hslept⟩ := List.append_inj' hbefore rfl
    cases hslept
    rw [← hstarted] at hlong
    revert hlong
    decide

end NotifyAgent.SignInPacing
