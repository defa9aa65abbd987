/-
From identity to subscription in the Go host (`internal/host`): what `start` subscribes to. Go strings are byte strings.
The identity provider, the NATS authentication and the NATS client are outside; what they return is a parameter.

- `start_eq_ok`: the checks that a successful start has passed, and its subject.
-/
import Mathlib.Tactic
import NotifyAgent.Lib.Sprintf
import NotifyAgent.Lib.NetUrl

namespace NotifyAgent.GoHost

open NotifyAgent.Lib NotifyAgent.Lib.Sprintf NotifyAgent.Lib.NetUrl

structure Options where
  natsURL : Bytes
  subjectTemplate : Bytes
  ackSubject : Bytes

structure Identity where
  userID : Bytes
  deviceID : Bytes

/-- `redactedURL` -/
def redactedURL (bracketed : Bytes → Option Bytes) (raw : Bytes) : Bytes :=
  match parseURL bracketed raw with
  | none => raw
  | some u =>
    match u.user with
    | none => raw
    | some _ => { u with user := some ⟨ascii "***", [], true⟩ }.redacted

/-- what the calls of `start` return, an error being its text -/
structure World where
  /-- `idp.Resolve` -/
  resolve : Except Bytes Identity
  /-- `authProvider.Options`, if there is a provider -/
  auth : Option (Except Bytes Unit)
  connect : Except Bytes Unit
  subscribe : Bytes → Except Bytes Unit

structure Host where
  ackSubject : Bytes
  subject : Bytes
  deviceID : Bytes

/-- `fmt.Errorf` with `%w`, after its text -/
def wrap {α : Type} (context : String) : Except Bytes α → Except Bytes α
  | .ok a => .ok a
  | .error text => .error (ascii context ++ text)

/-- `validateSubjectTemplate` -/
def validateSubjectTemplate (Q : Quoting) (template : Bytes) : Except Bytes Unit :=
  if ascii "%s" <:+: template then .ok ()
  else .error (ascii "subject template " ++ Q.quote template ++ ascii " must contain a %s placeholder for the user ID")

/-- `ValidateUserIDForSubject` -/
def validateUserIDForSubject (Q : Quoting) (userID : Bytes) : Except Bytes Unit :=
  if userID.any fun b => (ascii ".*>").contains b then
    .error (ascii "user ID " ++ Q.quote userID ++
      ascii " must not contain NATS subject wildcard/delimiter characters ('.', '*', '>')")
  else .ok ()

/-- the NATS options, where there is a provider of them -/
def authOptions (w : World) : Except Bytes Unit :=
  match w.auth with
  | some options => wrap "host: nats auth: " options
  | none => .ok ()

def start (Q : Quoting) (w : World) (opts : Options) : Except Bytes Host := do
  let ident ← wrap "host: resolve identity: " w.resolve
  wrap "host: " (validateSubjectTemplate Q opts.subjectTemplate)
  wrap "host: " (validateUserIDForSubject Q ident.userID)
  authOptions w
  wrap "host: connect nats: " w.connect
  let h : Host := ⟨opts.ackSubject, sprintf Q opts.subjectTemplate ident.userID, ident.deviceID⟩
  wrap "host: subscribe: " (w.subscribe h.subject)
  return h

theorem wrap_eq_ok {α : Type} {context : String} {e : Except Bytes α} {a : α} : wrap context e = .ok a ↔ e = .ok a := by
  cases e <;> simp [wrap]

theorem bind_eq_ok {α β : Type} {e : Except Bytes α} {f : α → Except Bytes β} {b : β} :
    (e >>= f) = .ok b ↔ ∃ a, e = .ok a ∧ f a = .ok b := by
  cases e <;> simp [bind, Except.bind]

/-- **A successful start** has a template and a user id that pass their checks, and its subject is the template with
the user id formatted in. -/
theorem start_eq_ok {Q : Quoting} {w : World} {opts : Options} {h : Host} (hstart : start Q w opts = .ok h) :
    ∃ ident, w.resolve = .ok ident ∧ validateSubjectTemplate Q opts.subjectTemplate = .ok () ∧
      validateUserIDForSubject Q ident.userID = .ok () ∧ h.subject = sprintf Q opts.subjectTemplate ident.userID := by
  unfold start at hstart
  obtain ⟨ident, hident, hstart⟩ := bind_eq_ok.1 hstart
  obtain ⟨_, htemplate, hstart⟩ := bind_eq_ok.1 hstart
  obtain ⟨_, huser, hstart⟩ := bind_eq_ok.1 hstart
  refine ⟨ident, wrap_eq_ok.1 hident, wrap_eq_ok.1 htemplate, wrap_eq_ok.1 huser, ?_⟩
  obtain ⟨_, -, hstart⟩ := bind_eq_ok.1 hstart
  obtain ⟨_, -, hstart⟩ := bind_eq_ok.1 hstart
  obtain ⟨_, -, hstart⟩ := bind_eq_ok.1 hstart
  rw [← Except.ok.inj hstart]

end NotifyAgent.GoHost
