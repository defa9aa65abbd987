/-
Parsing of a received payload (`parser.rs`): size and depth limits, the JSON step, required fields, defaults.

Decoding JSON into the wire structs is `serde_json`'s, and case mapping, URL parsing and segmentation come from
libraries too: `Libs` is what the agent takes from outside this repository.

- `parseEvent_ok`: what is known of an accepted event (the payload passed every gate, the required fields are not blank,
  the stamps are the caller's);
- `require_error`: a missing field is reported under its own path.
-/
import Mathlib.Tactic
import NotifyAgent.Core.ActionUrl
import NotifyAgent.Core.Notification

namespace NotifyAgent.Parser

open NotifyAgent.Text NotifyAgent.Notification NotifyAgent.ActionUrl

/-! ## Wire structs -/

structure WireTarget where
  userId : Option Str
deriving DecidableEq, Repr

structure WireImage where
  url : Option Str
  shape : Option Str
deriving DecidableEq, Repr

structure WireContent where
  title : Option Str
  message : Option Str
  secondaryText : Option Str
  image : Option WireImage
deriving DecidableEq, Repr

structure WireAction where
  label : Option Str
  url : Option Str
deriving DecidableEq, Repr

structure WireClassification where
  priority : Option Str
  aggregationKey : Option Str
  deduplicationKey : Option Str
  replaceable : Option Bool
deriving DecidableEq, Repr

structure WireTimestamps where
  producerCreatedAt : Option DateTime
  serverPublishedAt : Option DateTime
deriving DecidableEq, Repr

structure WireEvent where
  eventId : Option Str
  notificationType : Option Str
  target : Option WireTarget
  content : Option WireContent
  action : Option WireAction
  classification : Option WireClassification
  timestamps : Option WireTimestamps
deriving DecidableEq, Repr

/-- what the agent takes from outside this repository -/
structure Libs where
  ucd : Ucd
  segmentation : Segmentation
  /-- `Url::parse` -/
  urlParse : Str → Option Url
  /-- `serde_json::from_slice::<WireEvent>` -/
  fromSlice : List UInt8 → Except Str WireEvent

/-! ## Errors -/

inductive ParseError where
  | empty
  | tooLarge (bytes : ℕ)
  | tooDeep
  | json (error : Str)
  | missingField (field : Str)
deriving DecidableEq, Repr

def maxPayloadBytes : ℕ := 32 * 1024
def maxJsonDepth : ℕ := 16

/-- the `Display` texts -/
def ParseError.message : ParseError → Str
  | .empty => "empty payload".toList
  | .tooLarge bytes =>
    "payload ".toList ++ Nat.toDigits 10 bytes ++ " bytes exceeds ".toList ++ Nat.toDigits 10 maxPayloadBytes
  | .tooDeep => "json depth exceeds ".toList ++ Nat.toDigits 10 maxJsonDepth
  | .json error => "invalid json: ".toList ++ error
  | .missingField field => "missing ".toList ++ field

/-! ## The parser -/

/-- `depth_exceeds` on what is left of the payload, from a depth and the two string flags -/
def depthExceedsFrom (maxDepth : ℕ) (depth : ℕ) (inString escaped : Bool) : List UInt8 → Bool
  | [] => false
  | b :: rest =>
    if inString then
      if escaped then depthExceedsFrom maxDepth depth true false rest
      else if b = 0x5C then depthExceedsFrom maxDepth depth true true rest
      else if b = 0x22 then depthExceedsFrom maxDepth depth false false rest
      else depthExceedsFrom maxDepth depth true false rest
    else if b = 0x22 then depthExceedsFrom maxDepth depth true escaped rest
    else if b = 0x7B ∨ b = 0x5B then
      if depth + 1 > maxDepth then true else depthExceedsFrom maxDepth (depth + 1) false escaped rest
    else if b = 0x7D ∨ b = 0x5D then depthExceedsFrom maxDepth (depth - 1) false escaped rest
    else depthExceedsFrom maxDepth depth false escaped rest

/-- `depth_exceeds` -/
def depthExceeds (payload : List UInt8) (maxDepth : ℕ) : Bool := depthExceedsFrom maxDepth 0 false false payload

/-- `non_blank` -/
def nonBlank (v : Option Str) : Option Str := v.filter fun s => !(trim s).isEmpty

/-- `require` -/
def require (v : Option Str) (field : Str) : Except ParseError Str :=
  match nonBlank v with
  | some s => .ok s
  | none => .error (.missingField field)

variable (L : Libs)

/-- `parse_image` -/
def parseImage (wire : Option WireImage) : Option ImageRef :=
  match wire with
  | none => none
  | some wire =>
    match wire.url.filter fun u => !(trim u).isEmpty with
    | none => none
    | some url =>
      match validate L.urlParse url with
      | none => none
      | some url =>
        some ⟨url.asStr, if wire.shape.map L.ucd.toLowercase = some "square".toList then .square else .circle⟩

/-- the `priority` match of `parse_event` -/
def parsePriority (priority : Option Str) : Priority :=
  let lowered := priority.map L.ucd.toLowercase
  if lowered = some "critical".toList then .critical
  else if lowered = some "important".toList then .important
  else .normal

/-- the part of `parse_event` after the JSON step -/
def normalize (wire : WireEvent) (receivedAt : DateTime) (seq : ℕ) : Except ParseError InboundNotification := do
  let eventId ← require wire.eventId "eventId".toList
  let userId ← require (wire.target.bind (·.userId)) "target.userId".toList
  let content := wire.content.getD ⟨none, none, none, none⟩
  let image := parseImage L content.image
  let title ← require content.title "content.title".toList
  let message ← require content.message "content.message".toList
  let notificationType := (nonBlank wire.notificationType).getD "unknown".toList
  let classification := wire.classification.getD ⟨none, none, none, none⟩
  let action := wire.action.getD ⟨none, none⟩
  let timestamps := wire.timestamps.getD ⟨none, none⟩
  return {
    seq := seq
    eventId := eventId
    userId := userId
    title := title
    message := message
    secondaryText := nonBlank content.secondaryText
    actionLabel := nonBlank action.label
    actionUrl := nonBlank action.url
    image := image
    priority := parsePriority L classification.priority
    aggregationKey := (nonBlank classification.aggregationKey).getD notificationType
    deduplicationKey := (nonBlank classification.deduplicationKey).getD eventId
    replaceable := classification.replaceable.getD false
    producerCreatedAt := timestamps.producerCreatedAt
    serverPublishedAt := timestamps.serverPublishedAt
    receivedAt := receivedAt }

/-- `parse_event` -/
def parseEvent (payload : List UInt8) (receivedAt : DateTime) (seq : ℕ) : Except ParseError InboundNotification :=
  if payload.isEmpty then .error .empty
  else if payload.length > maxPayloadBytes then .error (.tooLarge payload.length)
  else if depthExceeds payload maxJsonDepth then .error .tooDeep
  else
    match L.fromSlice payload with
    | .error e => .error (.json e)
    | .ok wire => normalize L wire receivedAt seq

/-! ## What is known of an accepted event -/

theorem nonBlank_eq_some {v : Option Str} {s : Str} : nonBlank v = some s ↔ v = some s ∧ trim s ≠ [] := by
  simp [nonBlank, Option.filter_eq_some_iff]

theorem require_eq_ok {v : Option Str} {field s : Str} : require v field = .ok s ↔ v = some s ∧ trim s ≠ [] := by
  rw [← nonBlank_eq_some]
  unfold require
  cases nonBlank v <;> simp

/-- a missing field is reported under its own path -/
theorem require_error {v : Option Str} {field : Str} {e : ParseError} (h : require v field = .error e) :
    e = .missingField field ∧ nonBlank v = none := by
  unfold require at h
  cases hv : nonBlank v with
  | none => rw [hv] at h; cases h; exact ⟨rfl, rfl⟩
  | some s => rw [hv] at h; cases h

/-- **Accepted events.** The payload passed the size, depth and JSON gates; the required fields are not blank; arrival
time and stamp are the caller's. -/
theorem parseEvent_ok {payload : List UInt8} {receivedAt : DateTime} {seq : ℕ} {n : InboundNotification}
    (h : parseEvent L payload receivedAt seq = .ok n) :
    payload ≠ [] ∧ payload.length ≤ maxPayloadBytes ∧ depthExceeds payload maxJsonDepth = false ∧
      (∃ wire, L.fromSlice payload = .ok wire ∧ normalize L wire receivedAt seq = .ok n) ∧
      n.seq = seq ∧ n.receivedAt = receivedAt ∧
      trim n.eventId ≠ [] ∧ trim n.userId ≠ [] ∧ trim n.title ≠ [] ∧ trim n.message ≠ [] := by
  unfold parseEvent at h
  split_ifs at h with h1 h2 h3
  have hgates : payload ≠ [] ∧ payload.length ≤ maxPayloadBytes ∧ depthExceeds payload maxJsonDepth = false :=
    ⟨by simpa using h1, Nat.le_of_not_lt h2, by simpa using h3⟩
  cases hw : L.fromSlice payload with
  | error e => rw [hw] at h; cases h
  | ok wire =>
    rw [hw] at h
    refine ⟨hgates.1, hgates.2.1, hgates.2.2, ⟨wire, rfl, h⟩, ?_⟩
    simp only [normalize, bind, Except.bind] at h
    split at h
    · cases h
    rename_i eventId he
    split at h
    · cases h
    rename_i userId hu
    split at h
    · cases h
    rename_i title ht
    split at h
    · cases h
    rename_i message hm
    simp only [pure, Except.pure, Except.ok.injEq] at h
    subst h
    exact ⟨rfl, rfl, (require_eq_ok.1 he).2, (require_eq_ok.1 hu).2, (require_eq_ok.1 ht).2, (require_eq_ok.1 hm).2⟩

end NotifyAgent.Parser
