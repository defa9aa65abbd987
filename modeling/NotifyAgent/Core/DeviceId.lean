/-
The device id of the Rust and the C# head on Windows and the file that they share (`device_id` in `main.rs`,
`DeviceIdStore` in `MsalIdentityProvider.cs`). A start whose id an override pins returns that. Any other looks at the
file; it takes the id that it finds there, or opens the file and writes a new one.

Starts of both heads may be under way at once. What the file system refuses and when a start ends early is up to the
operations. Nothing else writes the file.

- `pinned_rust`, `pinned_csharp`: what an override pins;
- `step_cases`: what a step does to the file and to the starts;
- `trim_generate`: a new id is not blank and has no white space around it.
-/
import Mathlib.Tactic
import NotifyAgent.Core.Startup
import NotifyAgent.Lib.Machine

namespace NotifyAgent.DeviceId

open NotifyAgent.Text
open NotifyAgent.Startup (resolvedOpt)

inductive Head where
  | rust
  | csharp
deriving DecidableEq, Repr

/-- what a start is given: in Rust the environment variable and the value of the settings file, in C# the override -/
inductive Caller where
  | rust (envValue settingsDeviceId : Option Str)
  | csharp (overrideValue : Option Str)
deriving DecidableEq, Repr

def Caller.head : Caller → Head
  | .rust _ _ => .rust
  | .csharp _ => .csharp

/-- the override, if it is not blank -/
def Caller.pinned : Caller → Option Str
  | .rust envValue settingsDeviceId => resolvedOpt (fun _ => envValue) "NOTIFY_DEVICE_ID" settingsDeviceId
  | .csharp overrideValue => overrideValue.filter fun v => trim v ≠ []

def mark : Char := '\uFEFF'

/-- a text without its byte order mark -/
def unmarked : Str → Str
  | [] => []
  | c :: rest => if c = mark then rest else c :: rest

/-- `File.ReadAllText`, which takes off a byte order mark -/
structure Decoder where
  decode : List UInt8 → Str
  decode_utf8 : ∀ s : Str, decode (utf8 s) = unmarked s

/-- `fs::read_to_string`, none if the bytes are not UTF-8 -/
def readToString (bytes : List UInt8) : Option Str := bytes.toByteArray.utf8Decode?.map Array.toList

/-- a new id: the nanoseconds of the clock in Rust, a GUID in C# -/
def generate : Head → ℕ → Str
  | .rust, n => "d-".toList ++ Nat.toDigits 16 n
  | .csharp, n => "d-".toList ++ List.leftpad 32 '0' (Nat.toDigits 16 (n % 2 ^ 128))

inductive Phase where
  /-- an override is the id -/
  | pinned (id : Str)
  | looking
  /-- nothing was found, and this is the new id -/
  | creating (id : Str)
  /-- the file is open, and empty unless another start has written it since -/
  | writing (id : Str)
  | returned (id : Str)
  | failed
deriving DecidableEq, Repr

structure Start where
  caller : Caller
  phase : Phase
deriving DecidableEq, Repr

def Start.head (c : Start) : Head := c.caller.head

def begun (caller : Caller) : Start :=
  ⟨caller, match caller.pinned with
    | some id => .pinned id
    | none => .looking⟩

structure St where
  file : Option (List UInt8)
  starts : List Start

inductive Op where
  | start (caller : Caller)
  /-- `readable`: the file can be read, if it is there -/
  | look (i : ℕ) (readable : Bool) (n : ℕ)
  | create (i : ℕ)
  | write (i : ℕ)
  /-- a call of start `i` fails, or its process ends -/
  | fail (i : ℕ)
deriving DecidableEq, Repr

/-- what a look leads to: Rust makes a new id whenever it reads none, C# if there is no file -/
def look (D : Decoder) (file : Option (List UInt8)) (readable : Bool) (n : ℕ) : Head → Phase
  | .rust =>
    match (if readable then file.bind readToString else none) with
    | some existing => if trim existing ≠ [] then .returned (trim existing) else .creating (generate .rust n)
    | none => .creating (generate .rust n)
  | .csharp =>
    match file with
    | some bytes => if readable then .returned (trim (D.decode bytes)) else .failed
    | none => .creating (generate .csharp n)

/-- `old` with `new` written over its beginning -/
def overwrite (new old : List UInt8) : List UInt8 := new ++ old.drop new.length

def setPhase (s : St) (i : ℕ) (c : Start) (phase : Phase) : St :=
  { s with starts := s.starts.set i { c with phase := phase } }

def step (D : Decoder) (s : St) : Op → St
  | .start caller => { s with starts := s.starts ++ [begun caller] }
  | .look i readable n =>
    match s.starts[i]? with
    | some c => if c.phase = .looking then setPhase s i c (look D s.file readable n c.head) else s
    | none => s
  | .create i =>
    match s.starts[i]? with
    | some c =>
      match c.phase with
      | .creating id => { setPhase s i c (.writing id) with file := some [] }
      | _ => s
    | none => s
  | .write i =>
    match s.starts[i]? with
    | some c =>
      match c.phase with
      | .writing id => { setPhase s i c (.returned id) with file := some (overwrite (utf8 id) (s.file.getD [])) }
      | _ => s
    | none => s
  | .fail i =>
    match s.starts[i]? with
    | some c =>
      match c.phase with
      | .returned _ | .pinned _ => s
      | _ => setPhase s i c .failed
    | none => s

/-! ## What a step does -/

/-- **What is pinned** in Rust: the variable, trimmed, or where that is blank the value of the file, trimmed, if it is
not blank -/
theorem pinned_rust {envValue settingsDeviceId : Option Str} {v : Str} :
    (Caller.rust envValue settingsDeviceId).pinned = some v ↔
      v ≠ [] ∧ (envValue.map trim = some v ∨
        (∀ w, envValue = some w → trim w = []) ∧ settingsDeviceId.map trim = some v) := by
  have hfile : ((settingsDeviceId.map trim).filter fun s => !s.isEmpty) = some v ↔
      v ≠ [] ∧ settingsDeviceId.map trim = some v := by
    rw [Option.filter_eq_some_iff, and_comm]
    simp
  simp only [Caller.pinned, resolvedOpt]
  cases envValue with
  | none => simpa using hfile
  | some w =>
    by_cases hw : trim w = []
    · simp only [hw, List.isEmpty_nil, Bool.not_true, Bool.false_eq_true, if_false, hfile]
      constructor
      · rintro ⟨hv, h⟩
        exact ⟨hv, Or.inr ⟨by simp [hw], h⟩⟩
      · rintro ⟨hv, h | ⟨-, h⟩⟩
        · cases h
          exact absurd hw hv
        · exact ⟨hv, h⟩
    · have hempty : (trim w).isEmpty = false := by simpa using hw
      simp only [hempty, Bool.not_false, if_true]
      constructor
      · rintro ⟨rfl⟩
        exact ⟨hw, Or.inl rfl⟩
      · rintro ⟨-, h | ⟨h, -⟩⟩
        · exact h
        · exact absurd (h w rfl) hw

/-- in C# it is the override as it is, if that is not blank -/
theorem pinned_csharp {overrideValue : Option Str} {v : Str} :
    (Caller.csharp overrideValue).pinned = some v ↔ overrideValue = some v ∧ trim v ≠ [] := by
  rw [Caller.pinned, Option.filter_eq_some_iff, decide_eq_true_iff]

section
variable {D : Decoder} {s s' : St} {o : Op}

/-- **A step** begins a start, or takes one on that no override pins: by a look, to the open file, from there to its
end, or to a failure. -/
theorem step_cases (D : Decoder) (s : St) (o : Op) :
    step D s o = s ∨
    (∃ caller, o = .start caller ∧ step D s o = { s with starts := s.starts ++ [begun caller] }) ∨
    ∃ i c, s.starts[i]? = some c ∧ (∀ id, c.phase ≠ .pinned id) ∧
      ((c.phase = .looking ∧ ∃ readable n, o = .look i readable n ∧
          step D s o = setPhase s i c (look D s.file readable n c.head)) ∨
        (∃ id, c.phase = .creating id ∧ step D s o = { setPhase s i c (.writing id) with file := some [] }) ∨
        (∃ id, c.phase = .writing id ∧ step D s o =
          { setPhase s i c (.returned id) with file := some (overwrite (utf8 id) (s.file.getD [])) }) ∨
        step D s o = setPhase s i c .failed) := by
  cases o with
  | start caller => exact Or.inr (Or.inl ⟨caller, rfl, rfl⟩)
  | look i readable n =>
    simp only [step]
    split
    · rename_i c hc
      split_ifs with hphase
      · exact Or.inr (Or.inr ⟨i, c, hc, by simp [hphase], Or.inl ⟨hphase, readable, n, rfl, rfl⟩⟩)
      · exact Or.inl rfl
    · exact Or.inl rfl
  | create i =>
    simp only [step]
    split
    · rename_i c hc
      split
      · rename_i id hphase
        exact Or.inr (Or.inr ⟨i, c, hc, by simp [hphase], Or.inr (Or.inl ⟨id, hphase, rfl⟩)⟩)
      · exact Or.inl rfl
    · exact Or.inl rfl
  | write i =>
    simp only [step]
    split
    · rename_i c hc
      split
      · rename_i id hphase
        exact Or.inr (Or.inr ⟨i, c, hc, by simp [hphase], Or.inr (Or.inr (Or.inl ⟨id, hphase, rfl⟩))⟩)
      · exact Or.inl rfl
    · exact Or.inl rfl
  | fail i =>
    simp only [step]
    split
    · rename_i c hc
      split
      · exact Or.inl rfl
      · exact Or.inl rfl
      · rename_i hpinned
        exact Or.inr (Or.inr ⟨i, c, hc, hpinned, Or.inr (Or.inr (Or.inr rfl))⟩)
    · exact Or.inl rfl

end

/-! ## New ids -/

theorem mem_toDigits {n : ℕ} {c : Char} (h : c ∈ Nat.toDigits 16 n) : ∃ d < 16, c = Nat.digitChar d := by
  induction n using Nat.strong_induction_on with
  | _ n ih =>
    rw [Nat.toDigits_eq_if (by decide)] at h
    split_ifs at h with hn
    · exact ⟨n, hn, List.mem_singleton.1 h⟩
    · rcases List.mem_append.1 h with h | h
      · exact ih (n / 16) (by omega) h
      · exact ⟨n % 16, Nat.mod_lt _ (by decide), List.mem_singleton.1 h⟩

/-- **A new id** is not blank, has no white space and no byte order mark. -/
theorem trim_generate (head : Head) (n : ℕ) :
    generate head n ≠ [] ∧ trim (generate head n) = generate head n ∧ (generate head n).head? ≠ some mark := by
  have hdigit : ∀ m, ∀ c ∈ Nat.toDigits 16 m, isWhitespace c = false := by
    intro m c hc
    obtain ⟨d, hd, rfl⟩ := mem_toDigits hc
    have hall : ∀ d < 16, isWhitespace (Nat.digitChar d) = false := by decide
    exact hall d hd
  have hprefix : ∀ c ∈ "d-".toList, isWhitespace c = false := forall_of_all rfl
  refine ⟨by cases head <;> simp [generate], trimBy_eq_self fun c hc => ?_, by cases head <;> simp [generate, mark]⟩
  cases head with
  | rust =>
    rcases List.mem_append.1 hc with hc | hc
    · exact hprefix c hc
    · exact hdigit _ c hc
  | csharp =>
    rcases List.mem_append.1 hc with hc | hc
    · exact hprefix c hc
    · rw [List.leftpad] at hc
      rcases List.mem_append.1 hc with hc | hc
      · rw [List.eq_of_mem_replicate hc]
        decide
      · exact hdigit _ c hc

end NotifyAgent.DeviceId
