/-
From identity to subscription in the Rust host (`host.rs`, `identity.rs`): what `AgentHost::start` subscribes to.

Reading the environment, the device-code sign-in and the connection are outside this repository; their outcomes are
parameters.

- `start_eq_some`: the subscription that a successful start reaches.
-/
import Mathlib.Tactic
import NotifyAgent.Lib.Replace
import NotifyAgent.Core.Text

namespace NotifyAgent.Host

open NotifyAgent.Text
open NotifyAgent.Lib.Replace (replace)

structure AgentConfig where
  natsUrl : Str
  subjectTemplate : Str
  ackSubject : Str
deriving DecidableEq, Repr

/-- `AgentConfig::from_env`; `env` gives the variables that are set and are valid Unicode -/
def AgentConfig.fromEnv (env : Str → Option Str) : AgentConfig :=
  let var (k d : Str) : Str := ((env k).filter fun s => !s.isEmpty).getD d
  { natsUrl := var "NOTIFY_NATS_URL".toList "nats://127.0.0.1:4222".toList
    subjectTemplate := var "NOTIFY_SUBJECT_TEMPLATE".toList "notify.user.{0}.desktop".toList
    ackSubject := var "NOTIFY_ACK_SUBJECT".toList "notify.ack.desktop".toList }

structure AgentIdentity where
  userId : Str
  deviceId : Str
deriving DecidableEq, Repr

/-- `default_device_id` -/
def defaultDeviceId (U : Ucd) (hostname : Str) : Str := "d-".toList ++ U.toLowercase hostname

inductive IdentityProvider where
  /-- `EnvIdentity` -/
  | env (vars : Str → Option Str) (hostname : Str)
  /-- `DeviceCodeIdentity`; `oid` is the object id of the token that the sign-in ends with -/
  | deviceCode (deviceId : Str) (oid : Option Str)

/-- `IdentityProvider::identity` -/
def IdentityProvider.identity (U : Ucd) : IdentityProvider → Option AgentIdentity
  | .env vars hostname =>
    ((vars "NOTIFY_USER_ID".toList).filter fun s => !(trim s).isEmpty).map fun userId =>
      { userId := userId
        deviceId := ((vars "NOTIFY_DEVICE_ID".toList).filter fun s => !(trim s).isEmpty).getD
          (defaultDeviceId U hostname) }
  | .deviceCode deviceId oid => oid.map fun oid => { userId := "u_".toList ++ oid, deviceId := deviceId }

/-- the placeholder of a subject template -/
def placeholder : Str := ['{', '0', '}']

/-- the subject of a user id -/
def subjectFor (config : AgentConfig) (userId : Str) : Str := replace placeholder userId config.subjectTemplate

/-- `AgentHost::start` up to its `subscribe` call: the subject it subscribes to, none if an earlier step fails -/
def start (U : Ucd) (connects : Str → Bool) (config : AgentConfig) (provider : IdentityProvider) : Option Str :=
  match provider.identity U with
  | none => none
  | some id => if connects config.natsUrl then some (subjectFor config id.userId) else none

theorem start_eq_some {U : Ucd} {connects : Str → Bool} {config : AgentConfig} {provider : IdentityProvider}
    {subject : Str} (h : start U connects config provider = some subject) :
    ∃ id, provider.identity U = some id ∧ subject = subjectFor config id.userId := by
  unfold start at h
  cases hid : provider.identity U with
  | none => rw [hid] at h; cases h
  | some id =>
    rw [hid] at h
    simp only at h
    split_ifs at h
    exact ⟨id, rfl, (Option.some.inj h).symm⟩

end NotifyAgent.Host
