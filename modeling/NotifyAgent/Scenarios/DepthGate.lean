/-
The depth gate in front of the JSON parsers: is the flat byte scan exact on JSON?

- `depthExceedsFrom_eq`: the scan with its early exit is a comparison of the peak of the plain scan with the limit;
- `depth_gate_exact`: on every JSON text and for every limit, the Rust and the Go gate hold exactly when the text nests
  deeper than the limit; so a JSON text of admissible size is reported as too deep exactly when it nests deeper than 16,
  and no deeper text is accepted.
-/
import Mathlib.Tactic
import NotifyAgent.Lib.Json
import NotifyAgent.Core.HeadParsers

namespace NotifyAgent.DepthGate

open NotifyAgent.Text NotifyAgent.Parser
open NotifyAgent.Lib
open NotifyAgent.Notification (DateTime InboundNotification)

/-- the loop of `depth_exceeds` finds out whether the peak passes the limit -/
theorem depthExceedsFrom_eq (maxDepth : ℕ) (payload : List UInt8) {depth peak : ℕ} {inString escaped : Bool}
    (hd : depth ≤ maxDepth) (hp : peak ≤ maxDepth) :
    depthExceedsFrom maxDepth depth inString escaped payload = true ↔
      maxDepth < (Json.scan ⟨depth, peak, inString, escaped⟩ payload).peak := by
  induction payload generalizing depth peak inString escaped with
  | nil =>
    simp only [depthExceedsFrom, Json.scan_nil, Bool.false_eq_true, false_iff]
    omega
  | cons b rest ih =>
    rw [Json.scan_cons]
    unfold depthExceedsFrom Json.Scan.step
    cases inString with
    | true =>
      cases escaped with
      | true => exact ih hd hp
      | false =>
        simp only [if_true, Bool.false_eq_true, if_false]
        split_ifs <;> exact ih hd hp
    | false =>
      simp only [Bool.false_eq_true, if_false]
      split_ifs with hquote hopen hmax hclose
      · exact ih hd hp
      · -- the early exit: the peak has passed the limit and never falls
        have hpeak := Json.peak_le_scan ⟨depth + 1, max peak (depth + 1), false, escaped⟩ rest
        simp only at hpeak
        exact iff_of_true rfl (by omega)
      · exact ih (by omega) (by omega)
      · exact ih (by omega) hp
      · exact ih hd hp

/-- the gate of a JSON text compares its nesting depth with the limit -/
theorem depthExceeds_text {n : ℕ} {p : List UInt8} (h : Json.Text n p) (d : ℕ) : depthExceeds p d = true ↔ d < n := by
  unfold depthExceeds
  rw [depthExceedsFrom_eq d p (Nat.zero_le d) (Nat.zero_le d)]
  rw [show Json.scan ⟨0, 0, false, false⟩ p = Json.outside 0 n from Json.scan_text h]

/-- `TooDeep` comes from the gate alone -/
theorem parseEvent_tooDeep_iff {L : Libs} {payload : List UInt8} {receivedAt : DateTime} {seq : ℕ}
    (hne : payload ≠ []) (hlen : payload.length ≤ maxPayloadBytes) :
    parseEvent L payload receivedAt seq = .error .tooDeep ↔ depthExceeds payload maxJsonDepth = true := by
  have hnormal : ∀ wire, Parser.normalize L wire receivedAt seq ≠ .error .tooDeep := by
    intro wire h
    simp only [Parser.normalize, bind, Except.bind] at h
    split at h
    · rename_i e he
      cases h
      cases (require_error he).1
    split at h
    · rename_i e he
      cases h
      cases (require_error he).1
    split at h
    · rename_i e he
      cases h
      cases (require_error he).1
    split at h
    · rename_i e he
      cases h
      cases (require_error he).1
    cases h
  have hempty : payload.isEmpty = false := by simpa using hne
  unfold parseEvent
  rw [if_neg (by simp [hempty]), if_neg (by omega)]
  split_ifs with hdeep
  · exact iff_of_true rfl hdeep
  · refine iff_of_false ?_ hdeep
    cases L.fromSlice payload with
    | error e => simp
    | ok wire => exact hnormal wire

/-- **The depth gate is exact on JSON.** -/
theorem depth_gate_exact {n : ℕ} {p : List UInt8} (h : Json.Text n p) :
    (∀ d : ℕ, depthExceeds p d = true ↔ d < n) ∧
      (∀ d : ℕ, Go.depthExceeds p d = true ↔ d < n) ∧
      (∀ (L : Libs) (receivedAt : DateTime) (seq : ℕ), p.length ≤ maxPayloadBytes →
        (parseEvent L p receivedAt seq = .error .tooDeep ↔ 16 < n)) ∧
      ∀ (L : Libs) (receivedAt : DateTime) (seq : ℕ), 16 < n →
        ∀ event, parseEvent L p receivedAt seq ≠ .ok event := by
  have hrust := depthExceeds_text h
  refine ⟨hrust, ?_, ?_, ?_⟩
  · intro d
    rw [← hrust d]
    unfold Go.depthExceeds depthExceeds
    exact iff_of_eq (congrArg (· = true) (Go.depthExceedsFrom_eq d 0 false false p))
  · intro L receivedAt seq hlen
    rw [parseEvent_tooDeep_iff h.ne_nil hlen]
    exact hrust maxJsonDepth
  · intro L receivedAt seq hn event hok
    have hgate := (parseEvent_ok L hok).2.2.1
    rw [(hrust maxJsonDepth).2 hn] at hgate
    cases hgate

/-- an array that holds a string with an escaped quote and a bracket: one level deep -/
theorem depth_gate_exact_quoted :
    depthExceeds [0x5B, 0x22, 0x5C, 0x22, 0x5B, 0x22, 0x5D] 0 = true ∧
      ¬ depthExceeds [0x5B, 0x22, 0x5C, 0x22, 0x5B, 0x22, 0x5D] 1 = true := by
  have hstring : Json.StringLit [0x22, 0x5C, 0x22, 0x5B, 0x22] :=
    ⟨[0x5C, 0x22, 0x5B], .escape (by decide) (.unescaped (c := '[') (by decide) .nil), rfl⟩
  have hopen : Json.Token 0x5B [0x5B] := ⟨[], [], by simp [Json.Ws], by simp [Json.Ws], rfl⟩
  have hclose : Json.Token 0x5D [0x5D] := ⟨[], [], by simp [Json.Ws], by simp [Json.Ws], rfl⟩
  have htext : Json.Text 1 [0x5B, 0x22, 0x5C, 0x22, 0x5B, 0x22, 0x5D] :=
    ⟨[], _, [], by simp [Json.Ws], .array hopen (.element (.string hstring)) hclose, by simp [Json.Ws], rfl⟩
  have hexact := (depth_gate_exact htext).1
  exact ⟨(hexact 0).2 Nat.zero_lt_one, fun h => lt_irrefl 1 ((hexact 1).1 h)⟩

end NotifyAgent.DepthGate
