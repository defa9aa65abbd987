/-
The tray of the three Windows heads and the agent behind it (`tray.rs` and `main.rs`; `TrayApplicationContext.cs` and
`TrayShutdown.cs`; `tray.go`): the start of the agent, the Close item, and the end of the process.

One machine for the three. They differ in what a click on Close does: Rust sends a message to the thread of the agent
and waits for that thread to be over; C# takes the host that is stored, at the click, and waits for its disposal; Go
does the same a little later, on a goroutine. All wait for five seconds at most and then end the process. The first
click hides the icon, and of further ones only Rust takes note, by another message. Left out are panics, and an end of
the message loop or of the process that comes from outside.

- `step_cases`: what a step can do to the agent, to the closer and to the process.
-/
import Mathlib.Tactic
import NotifyAgent.Lib.Machine

namespace NotifyAgent.Tray

inductive Head where
  | rust
  | go
  | csharp
deriving DecidableEq, Repr

/-- `CLOSE_TIMEOUT`, `closeTimeout`, `CloseTimeout`, in milliseconds -/
def closeTimeout : ℕ := 5000

inductive Agent where
  | starting
  | startFailed
  /-- started; in Go and C# the host is stored -/
  | running
  /-- its `shutdown`, `Shutdown` or `DisposeAsync` is under way -/
  | stopping
  /-- `ok`: the shutdown returned no error -/
  | stopped (ok : Bool)
deriving DecidableEq, Repr

def Agent.isStopped : Agent → Bool
  | .stopped _ => true
  | _ => false

/-- there is a host to shut down, or there was -/
def Agent.stored : Agent → Bool
  | .running | .stopping | .stopped _ => true
  | _ => false

/-- Rust's thread of the agent has reported that it is done -/
def Agent.isOver : Agent → Bool
  | .startFailed | .stopped _ => true
  | _ => false

/-- what waits for the end of the agent after the click: Rust's watcher thread, Go's `watchClose`, C#'s
`OnCloseClickedAsync` -/
structure Closer where
  /-- the time of the click -/
  since : ℕ
  /-- whether Go or C# found a host, once it has looked -/
  host : Option Bool
deriving DecidableEq, Repr

structure St where
  now : ℕ
  agent : Agent
  /-- the tooltip says that the agent failed to start -/
  failedTip : Bool
  closer : Option Closer
  exited : Bool
deriving DecidableEq, Repr

def init : St := ⟨0, .starting, false, none, false⟩

inductive Op where
  /-- the given number of milliseconds passes -/
  | tick (ms : ℕ)
  | started
  | startFails
  | click
  /-- Go's goroutine loads the host -/
  | load
  /-- Rust's `select!` takes Ctrl+C, or the message of the click -/
  | wake (ctrlC : Bool)
  /-- the shutdown of the host returns -/
  | shutdownEnds (ok : Bool)
  | exit
deriving DecidableEq, Repr

/-- a closer with the host that it finds, whose shutdown it begins -/
def look (s : St) (c : Closer) : St :=
  { s with
    closer := some { c with host := some s.agent.stored }
    agent := if s.agent = .running then .stopping else s.agent }

def click (h : Head) (s : St) : St :=
  match s.closer with
  | some _ => s
  | none =>
    match h with
    | .rust | .go => { s with closer := some ⟨s.now, none⟩ }
    | .csharp => look s ⟨s.now, none⟩

/-- what the closer waits for: in Rust the thread of the agent, in Go and C# the shutdown that it began -/
def done (h : Head) (s : St) (c : Closer) : Bool :=
  match h with
  | .rust => s.agent.isOver
  | .go | .csharp => c.host = some false || (c.host = some true && s.agent.isStopped)

def step (h : Head) (s : St) (o : Op) : St :=
  if s.exited then s
  else
    match o with
    | .tick ms => { s with now := s.now + ms }
    | .started => if s.agent = .starting then { s with agent := .running } else s
    | .startFails => if s.agent = .starting then { s with agent := .startFailed, failedTip := true } else s
    | .click => click h s
    | .load =>
      match s.closer with
      | some c => if h = .go ∧ c.host = none then look s c else s
      | none => s
    | .wake ctrlC =>
      if h = .rust ∧ s.agent = .running ∧ (ctrlC ∨ s.closer.isSome) then { s with agent := .stopping } else s
    | .shutdownEnds ok =>
      if s.agent = .stopping then
        -- Rust's thread takes an error of the shutdown for one of the start
        { s with agent := .stopped ok, failedTip := s.failedTip || (h = .rust && !ok) }
      else s
    | .exit =>
      match s.closer with
      | some c => if done h s c ∨ c.since + closeTimeout ≤ s.now then { s with exited := true } else s
      | none => s

/-! ## What a step does -/

/-- what a step does to a process that is not over -/
inductive Stepped (h : Head) (s : St) (o : Op) : St → Prop where
  | same : Stepped h s o s
  | tick (ms : ℕ) : Stepped h s o { s with now := s.now + ms }
  | started (hagent : s.agent = .starting) : Stepped h s o { s with agent := .running }
  | startFails (hagent : s.agent = .starting) : Stepped h s o { s with agent := .startFailed, failedTip := true }
  /-- Rust's and Go's click -/
  | clicked (hh : h ≠ .csharp) (hcloser : s.closer = none) : Stepped h s o { s with closer := some ⟨s.now, none⟩ }
  /-- C#'s click, or Go's load -/
  | looked (hh : h ≠ .rust) (c : Closer) (hc : c.host = none)
      (hcloser : s.closer = some c ∨ (s.closer = none ∧ c.since = s.now)) : Stepped h s o (look s c)
  | woken (hh : h = .rust) (hagent : s.agent = .running) : Stepped h s o { s with agent := .stopping }
  | stopped (ok : Bool) (ho : o = .shutdownEnds ok) (hagent : s.agent = .stopping) :
      Stepped h s o { s with agent := .stopped ok, failedTip := s.failedTip || (h = .rust && !ok) }
  | exited (c : Closer) (hcloser : s.closer = some c) (hdone : done h s c ∨ c.since + closeTimeout ≤ s.now) :
      Stepped h s o { s with exited := true }

/-- **A step** of a process that is not over. -/
theorem step_cases (h : Head) {s : St} (hs : s.exited = false) (o : Op) : Stepped h s o (step h s o) := by
  rw [step.eq_def, if_neg (by simp [hs])]
  cases o with
  | tick ms => exact .tick ms
  | started =>
    simp only
    split_ifs with hagent
    · exact .started hagent
    · exact .same
  | startFails =>
    simp only
    split_ifs with hagent
    · exact .startFails hagent
    · exact .same
  | click =>
    simp only [click]
    split
    · exact .same
    · rename_i hcloser
      cases h with
      | rust => exact .clicked (by decide) hcloser
      | go => exact .clicked (by decide) hcloser
      | csharp => exact .looked (by decide) ⟨s.now, none⟩ rfl (Or.inr ⟨hcloser, rfl⟩)
  | load =>
    simp only
    split
    · rename_i c hcloser
      split_ifs with hload
      · exact .looked (by rw [hload.1]; decide) c hload.2 (Or.inl hcloser)
      · exact .same
    · exact .same
  | wake ctrlC =>
    simp only
    split_ifs with hwake
    · exact .woken hwake.1 hwake.2.1
    · exact .same
  | shutdownEnds ok =>
    simp only
    split_ifs with hagent
    · exact .stopped ok rfl hagent
    · exact .same
  | exit =>
    simp only
    split
    · rename_i c hcloser
      split_ifs with hdone
      · exact .exited c hcloser hdone
      · exact .same
    · exact .same

end NotifyAgent.Tray
