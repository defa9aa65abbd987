/-
Device-code sign-in of the Rust agent (`identity.rs`): `DeviceCodeIdentity::identity`, which asks for a code, shows it
to the user and polls the token endpoint until it has an answer or the code expires.

What the endpoint and the clock do is a parameter (`World`): any answer to any request, after any time. Instants are
nanoseconds. The log is ghost; it records what the sign-in does, in order.

- `iterate_cases`: what one round of the polling loop can do;
- `iterate_variant`, `poll_stops`: the loop ends, whatever the endpoint answers.
-/
import Mathlib.Tactic
import NotifyAgent.Lib.Loop
import NotifyAgent.Core.Notification
import NotifyAgent.Core.RefreshToken

namespace NotifyAgent.DeviceCode

open NotifyAgent.Text
open NotifyAgent.Notification (InboundNotification ToastRequest)
open NotifyAgent.RefreshToken (Request)
open NotifyAgent.Lib.Loop (whileLoop whileLoop_rule)

/-! ## Token endpoint replies -/

/-- `serde_json::Value` -/
inductive Value where
  | null
  | bool (b : Bool)
  | number (text : Str)
  | string (s : Str)
  | array (items : List Value)
  | object (members : List (Str × Value))

def Value.get (key : String) : Value → Option Value
  | .object members => members.lookup key.toList
  | _ => none

def Value.asStr : Value → Option Str
  | .string s => some s
  | _ => none

/-- `v.get(key).and_then(|v| v.as_str())` -/
def Value.getStr (v : Value) (key : String) : Option Str := (v.get key).bind Value.asStr

inductive TokenPoll where
  | pending
  | slowDown
  | success (idToken : Str) (refreshToken : Option Str)
  | failed (reason : Str)
deriving DecidableEq, Repr

/-- `parse_token_poll` -/
def parseTokenPoll (body : Value) : TokenPoll :=
  match body.getStr "id_token" with
  | some idToken => .success idToken (body.getStr "refresh_token")
  | none =>
    match body.getStr "error" with
    | some err =>
      if err = "authorization_pending".toList then .pending
      else if err = "slow_down".toList then .slowDown
      else .failed (err ++ ": ".toList ++ (body.getStr "error_description").getD [])
    | none => .failed "malformed token response".toList

inductive Failure where
  /-- a request, its status or its body -/
  | http
  | message (text : Str)
deriving DecidableEq, Repr

/-- what the sign-in takes from outside this repository -/
structure Libs where
  /-- `URL_SAFE_NO_PAD.decode` -/
  decode : Str → Option (List UInt8)
  /-- `serde_json::from_slice` -/
  fromSlice : List UInt8 → Option Value

/-- `oid_from_id_token` -/
def oidFromIdToken (L : Libs) (idToken : Str) : Except Failure Str :=
  match (idToken.splitOn '.')[1]? with
  | none => .error (.message "not a JWT".toList)
  | some payload =>
    match L.decode payload with
    | none => .error (.message "id_token payload is not base64url".toList)
    | some bytes =>
      match L.fromSlice bytes with
      | none => .error (.message "id_token payload is not JSON".toList)
      | some claims =>
        match claims.getStr "oid" with
        | some oid => .ok oid
        | none => .error (.message "id_token has no oid claim".toList)

/-! ## Time -/

def maxU64 : ℕ := 2 ^ 64 - 1

/-- `Duration::from_secs` -/
def fromSecs (secs : ℕ) : ℕ := secs * 10 ^ 9

/-- `poll_interval`, in seconds -/
structure PollInterval where
  secs : ℕ
  pos : 1 ≤ secs
  bound : secs ≤ maxU64

/-- `dc.interval.max(1)` -/
def PollInterval.start (interval : UInt64) : PollInterval where
  secs := max interval.toNat 1
  pos := le_max_right _ _
  bound := by
    have hlt := interval.toNat_lt
    unfold maxU64
    omega

/-- `saturating_add(5)` -/
def PollInterval.slower (p : PollInterval) : PollInterval where
  secs := min (p.secs + 5) maxU64
  pos := by
    unfold maxU64
    omega
  bound := min_le_right _ _

/-- the maximum duration for a sleep that `tokio::time::sleep` documents: 68719476734 milliseconds, about 2.2 years -/
def maxSleep : ℕ := 68719476734 * 10 ^ 6

/-- `tokio::time::sleep`: how long its n-th call takes; it waits until the duration has elapsed, up to the maximum -/
structure Sleep where
  elapsed : ℕ → ℕ → ℕ
  lasts : ∀ n duration, min duration maxSleep ≤ elapsed n duration

/-! ## Model -/

structure DeviceCodeIdentity where
  clientId : Str
  tenant : Str
  deviceId : Str
  extraScopes : List Str
  /-- there is a `refresh_token_sink` -/
  hasSink : Bool

structure DeviceCodeResponse where
  deviceCode : Str
  userCode : Str
  verificationUri : Str
  interval : UInt64
  expiresIn : UInt64

structure AgentIdentity where
  userId : Str
  deviceId : Str
deriving DecidableEq, Repr

structure World where
  /-- the answer to the device-code request, if it has one -/
  deviceCode : Option DeviceCodeResponse
  /-- the instant at which the code has been shown -/
  shown : ℕ
  /-- the latest instant of the clock -/
  lastInstant : ℕ
  sleep : Sleep
  /-- how long the n-th token request takes, and the body of its answer, if it has one -/
  reply : ℕ → ℕ × Option Value

inductive Ending where
  | returned (result : Except Failure AgentIdentity)
  /-- the deadline is beyond the last instant -/
  | panicked

/-- ghost -/
inductive Event where
  | deviceCodeRequest (request : Request)
  | prompted (toast : ToastRequest InboundNotification)
  | slept (elapsed : ℕ)
  | tokenRequest (request : Request)
  | replied (poll : Option TokenPoll)
  | wrote (refreshToken : Str)

structure St where
  now : ℕ
  interval : PollInterval
  /-- what the refresh-token cell holds -/
  cell : Option Str
  /-- ghost: the token requests so far -/
  requests : ℕ
  log : List Event
  ending : Option Ending

/-- `device_code_scope` -/
def deviceCodeScope (extraScopes : List Str) : Str :=
  [' '].intercalate (["openid".toList, "profile".toList, "offline_access".toList] ++ extraScopes)

def base (I : DeviceCodeIdentity) : Str :=
  "https://login.microsoftonline.com/".toList ++ I.tenant ++ "/oauth2/v2.0".toList

def deviceCodeRequest (I : DeviceCodeIdentity) : Request where
  url := base I ++ "/devicecode".toList
  form := [("client_id".toList, I.clientId), ("scope".toList, deviceCodeScope I.extraScopes)]

def tokenRequest (I : DeviceCodeIdentity) (dc : DeviceCodeResponse) : Request where
  url := base I ++ "/token".toList
  form := [
    ("grant_type".toList, "urn:ietf:params:oauth:grant-type:device_code".toList), ("client_id".toList, I.clientId),
    ("device_code".toList, dc.deviceCode)]

/-- the toast with the code -/
def prompt (dc : DeviceCodeResponse) : ToastRequest InboundNotification where
  title := "Sign in required".toList
  message := "Go to ".toList ++ dc.verificationUri ++ " and enter code ".toList ++ dc.userCode
  attribution := some "Desktop Notification Agent".toList
  actionLabel := some "Open sign-in page".toList
  actionUrl := some dc.verificationUri
  image := none
  sources := []

def St.fail (s : St) (f : Failure) : St := { s with ending := some (.returned (.error f)) }

/-- the refresh token goes into the cell if there are both -/
def St.save (s : St) (I : DeviceCodeIdentity) (refreshToken : Option Str) : St :=
  match I.hasSink, refreshToken with
  | true, some token => { s with cell := some token, log := s.log ++ [.wrote token] }
  | _, _ => s

/-- the `match` on `parse_token_poll` -/
def St.receive (s : St) (I : DeviceCodeIdentity) (L : Libs) : TokenPoll → St
  | .pending => s
  | .slowDown => { s with interval := s.interval.slower }
  | .success idToken refreshToken =>
    match oidFromIdToken L idToken with
    | .error f => s.fail f
    | .ok oid => { s.save I refreshToken with ending := some (.returned (.ok ⟨"u_".toList ++ oid, I.deviceId⟩)) }
  | .failed reason => s.fail (.message ("device-code sign-in failed: ".toList ++ reason))

/-- the sleep and the request of a round, with its answer -/
def St.exchange (s : St) (I : DeviceCodeIdentity) (W : World) (dc : DeviceCodeResponse) : St :=
  let elapsed := W.sleep.elapsed s.requests (fromSecs s.interval.secs)
  { s with
    now := s.now + elapsed + (W.reply s.requests).1
    requests := s.requests + 1
    log := s.log ++ [.slept elapsed, .tokenRequest (tokenRequest I dc),
      .replied ((W.reply s.requests).2.map parseTokenPoll)] }

/-- one round of the loop -/
def iterate (I : DeviceCodeIdentity) (L : Libs) (W : World) (dc : DeviceCodeResponse) (deadline : ℕ) (s : St) : St :=
  if deadline ≤ s.now then s.fail (.message "device-code sign-in timed out".toList)
  else
    match (W.reply s.requests).2 with
    | none => (s.exchange I W dc).fail .http
    | some body => (s.exchange I W dc).receive I L (parseTokenPoll body)

/-- the variant of the loop: the time to the deadline, in nanoseconds -/
def remaining (deadline : ℕ) (s : St) : ℕ := if s.ending.isNone then deadline - s.now + 1 else 0

/-- the loop -/
def poll (I : DeviceCodeIdentity) (L : Libs) (W : World) (dc : DeviceCodeResponse) (deadline : ℕ) (s : St) : St :=
  whileLoop (fun s => s.ending.isNone) (iterate I L W dc deadline) (remaining deadline) s

/-- `DeviceCodeIdentity::identity`, from what the cell held -/
def identity (I : DeviceCodeIdentity) (L : Libs) (W : World) (cell : Option Str) : St :=
  -- the interval is the answer's, once there is one
  let asked : St := ⟨W.shown, .start 0, cell, 0, [.deviceCodeRequest (deviceCodeRequest I)], none⟩
  match W.deviceCode with
  | none => asked.fail .http
  | some dc =>
    let shown := { asked with interval := .start dc.interval, log := asked.log ++ [.prompted (prompt dc)] }
    if W.lastInstant < W.shown + fromSecs dc.expiresIn.toNat then { shown with ending := some .panicked }
    else poll I L W dc (W.shown + fromSecs dc.expiresIn.toNat) shown

/-! ## Rounds -/

section
variable (I : DeviceCodeIdentity) (L : Libs) (W : World) (dc : DeviceCodeResponse) (deadline : ℕ)

theorem iterate_answered {s : St} {body : Value} (hearly : s.now < deadline)
    (hbody : (W.reply s.requests).2 = some body) :
    iterate I L W dc deadline s = (s.exchange I W dc).receive I L (parseTokenPoll body) := by
  rw [iterate, if_neg (Nat.not_le.2 hearly), hbody]

/-- what one round can do: give up at the deadline, or make a request and then go on, fail, or end with an identity -/
theorem iterate_cases (s : St) :
    (deadline ≤ s.now ∧ ∃ f, iterate I L W dc deadline s = s.fail f) ∨
    (s.now < deadline ∧
      ((∃ poll, (W.reply s.requests).2.map parseTokenPoll = some poll ∧
          ((poll = .pending ∧ iterate I L W dc deadline s = s.exchange I W dc) ∨
            (poll = .slowDown ∧
              iterate I L W dc deadline s = { s.exchange I W dc with interval := s.interval.slower }) ∨
            ∃ idToken refreshToken oid, poll = .success idToken refreshToken ∧ oidFromIdToken L idToken = .ok oid ∧
              iterate I L W dc deadline s = { (s.exchange I W dc).save I refreshToken with
                ending := some (.returned (.ok ⟨"u_".toList ++ oid, I.deviceId⟩)) })) ∨
        ((W.reply s.requests).2.map parseTokenPoll ≠ some .slowDown ∧
          ∃ f, iterate I L W dc deadline s = (s.exchange I W dc).fail f))) := by
  unfold iterate
  by_cases hlate : deadline ≤ s.now
  · rw [if_pos hlate]
    exact Or.inl ⟨hlate, _, rfl⟩
  · rw [if_neg hlate]
    refine Or.inr ⟨Nat.lt_of_not_le hlate, ?_⟩
    cases hreply : (W.reply s.requests).2 with
    | none =>
      right
      exact ⟨by simp, _, rfl⟩
    | some body =>
      simp only [Option.map_some]
      cases hpoll : parseTokenPoll body with
      | pending => exact Or.inl ⟨_, rfl, Or.inl ⟨rfl, rfl⟩⟩
      | slowDown => exact Or.inl ⟨_, rfl, Or.inr (Or.inl ⟨rfl, rfl⟩)⟩
      | success idToken refreshToken =>
        cases hoid : oidFromIdToken L idToken with
        | error f =>
          right
          refine ⟨by simp, f, ?_⟩
          rw [St.receive, hoid]
        | ok oid =>
          left
          refine ⟨_, rfl, Or.inr (Or.inr ⟨idToken, refreshToken, oid, rfl, hoid, ?_⟩)⟩
          rw [St.receive, hoid]
      | failed reason =>
        right
        exact ⟨by simp, _, rfl⟩

@[simp] theorem exchange_ending (s : St) : (s.exchange I W dc).ending = s.ending := rfl

theorem exchange_now (s : St) : s.now + min (fromSecs s.interval.secs) maxSleep ≤ (s.exchange I W dc).now := by
  have hlasts := W.sleep.lasts s.requests (fromSecs s.interval.secs)
  simp only [St.exchange]
  omega

/-- every round ends the loop or comes closer to the deadline -/
theorem iterate_variant (s : St) (h : s.ending.isNone = true) :
    remaining deadline (iterate I L W dc deadline s) < remaining deadline s := by
  unfold remaining
  rw [if_pos h]
  have hclock := exchange_now I W dc s
  have hsecond : 1 ≤ min (fromSecs s.interval.secs) maxSleep := by
    have hpos := s.interval.pos
    unfold fromSecs maxSleep
    omega
  rcases iterate_cases I L W dc deadline s with
    ⟨_, f, he⟩ | ⟨hearly, ⟨poll, _, ⟨_, he⟩ | ⟨_, he⟩ | ⟨_, _, _, _, _, he⟩⟩ | ⟨_, f, he⟩⟩
  · simp [he, St.fail]
  · simp only [he, exchange_ending, h, if_true]
    omega
  · simp only [he, exchange_ending, h, if_true]
    omega
  · simp [he]
  · simp [he, St.fail]

/-- **The loop ends**, with what every round keeps. -/
theorem poll_stops {Inv : St → Prop} (hstep : ∀ s, s.ending.isNone = true → Inv s → Inv (iterate I L W dc deadline s))
    {s : St} (h : Inv s) : Inv (poll I L W dc deadline s) ∧ (poll I L W dc deadline s).ending.isSome = true := by
  obtain ⟨hinv, hend⟩ := whileLoop_rule (iterate_variant I L W dc deadline) hstep h
  refine ⟨hinv, ?_⟩
  rw [← Option.not_isNone, Bool.not_eq_true']
  exact hend

end

end NotifyAgent.DeviceCode
