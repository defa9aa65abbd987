/-
The parsers of the other two heads: Go (`internal/parser`) and C# (`EventParser`). Decoding JSON into the wire structs
is a library's in both; a text that is absent is the empty string in Go and null in C#. Errors are texts.

- `Go.depthExceedsFrom_eq`: the Go depth scan is the Rust one.
-/
import Mathlib.Tactic
import NotifyAgent.Core.HeadIdentity
import NotifyAgent.Core.HeadNotifications
import NotifyAgent.Core.HttpsUrl
import NotifyAgent.Core.Parser

/-! ## Go -/

namespace NotifyAgent.Go

open NotifyAgent.Text NotifyAgent.HttpsUrl
open NotifyAgent.Notification (DateTime Priority)
open NotifyAgent.HeadIdentity (goToLower)

structure WireTarget where
  userID : Str
deriving DecidableEq, Repr

structure WireImage where
  url : Str
  shape : Str
deriving DecidableEq, Repr

structure WireContent where
  title : Str
  message : Str
  secondaryText : Str
  image : Option WireImage
deriving DecidableEq, Repr

structure WireAction where
  label : Str
  url : Str
deriving DecidableEq, Repr

structure WireClassification where
  priority : Str
  aggregationKey : Str
  deduplicationKey : Str
  replaceable : Bool
deriving DecidableEq, Repr

structure WireTimestamps where
  producerCreatedAt : Option DateTime
  serverPublishedAt : Option DateTime
deriving DecidableEq, Repr

structure WireEvent where
  eventID : Str
  notificationType : Str
  target : Option WireTarget
  content : Option WireContent
  action : Option WireAction
  classification : Option WireClassification
  timestamps : Option WireTimestamps
deriving DecidableEq, Repr

/-- what the Go parser takes from outside this repository -/
structure Libs where
  ucd : Ucd
  /-- `url.Parse` -/
  urlParse : Str → Option URL
  /-- `json.Unmarshal` into a `wireEvent` -/
  unmarshal : List UInt8 → Except Str WireEvent

def maxPayloadBytes : ℕ := 32 * 1024
def maxJSONDepth : ℤ := 16

/-- the loop of `depthExceeds` on what is left of the payload -/
def depthExceedsFrom (maxDepth : ℤ) (depth : ℤ) (inString escaped : Bool) : List UInt8 → Bool
  | [] => false
  | b :: rest =>
    if inString then
      if escaped then depthExceedsFrom maxDepth depth true false rest
      else if b = 0x5C then depthExceedsFrom maxDepth depth true true rest
      else if b = 0x22 then depthExceedsFrom maxDepth depth false escaped rest
      else depthExceedsFrom maxDepth depth true escaped rest
    else if b = 0x22 then depthExceedsFrom maxDepth depth true escaped rest
    else if b = 0x7B ∨ b = 0x5B then
      if depth + 1 > maxDepth then true else depthExceedsFrom maxDepth (depth + 1) false escaped rest
    else if b = 0x7D ∨ b = 0x5D then
      depthExceedsFrom maxDepth (if depth > 0 then depth - 1 else depth) false escaped rest
    else depthExceedsFrom maxDepth depth false escaped rest

def depthExceeds (payload : List UInt8) (maxDepth : ℤ) : Bool := depthExceedsFrom maxDepth 0 false false payload

def nonBlank (s : Str) : Str := if trim s = [] then [] else s

def requireField (s field : Str) : Except Str Str :=
  let v := nonBlank s
  if v = [] then .error ("missing ".toList ++ field) else .ok v

variable (L : Libs)

def parseImage (wire : Option WireImage) : Option Image :=
  match wire with
  | none => none
  | some wire =>
    let imgURL := nonBlank wire.url
    if imgURL = [] then none
    else if ¬ valid L.urlParse imgURL then none
    else some ⟨imgURL, parseImageShape (goToLower L.ucd wire.shape)⟩

/-- the part of `Parse` after the JSON step -/
def normalize (wire : WireEvent) : Except Str InboundNotification := do
  let eventID ← requireField wire.eventID "eventId".toList
  let userID := (wire.target.map (·.userID)).getD []
  let userID ← requireField userID "target.userId".toList
  let content := wire.content.getD ⟨[], [], [], none⟩
  let title ← requireField content.title "content.title".toList
  let message ← requireField content.message "content.message".toList
  let notificationType := nonBlank wire.notificationType
  let classification := wire.classification.getD ⟨[], [], [], false⟩
  let priority := parsePriority (goToLower L.ucd classification.priority)
  let aggregationKey := nonBlank classification.aggregationKey
  let aggregationKey := if aggregationKey = [] then notificationType else aggregationKey
  let aggregationKey := if aggregationKey = [] then "unknown".toList else aggregationKey
  let deduplicationKey := nonBlank classification.deduplicationKey
  let deduplicationKey := if deduplicationKey = [] then eventID else deduplicationKey
  -- both parts are needed for an action; the other heads keep them apart
  let action := wire.action.bind fun a =>
    if nonBlank a.label ≠ [] ∧ nonBlank a.url ≠ [] then some (Action.mk (nonBlank a.label) (nonBlank a.url)) else none
  let image := parseImage L content.image
  return {
    eventID := eventID
    notificationType := notificationType
    userID := userID
    title := title
    message := message
    secondaryText := nonBlank content.secondaryText
    image := image
    action := action
    classification := ⟨priority, aggregationKey, deduplicationKey, classification.replaceable⟩
    producerCreatedAt := (wire.timestamps.bind (·.producerCreatedAt)).getD zeroTime
    serverPublishedAt := (wire.timestamps.bind (·.serverPublishedAt)).getD zeroTime
    agentReceivedAt := zeroTime }

/-- `Parse` -/
def parse (payload : List UInt8) : Except Str InboundNotification :=
  if payload.length = 0 then .error "empty payload".toList
  else if payload.length > maxPayloadBytes then
    .error ("payload ".toList ++ Nat.toDigits 10 payload.length ++ " bytes exceeds ".toList ++
      Nat.toDigits 10 maxPayloadBytes)
  else if depthExceeds payload maxJSONDepth then .error "json depth exceeds 16".toList
  else
    match L.unmarshal payload with
    | .error err => .error ("invalid json: ".toList ++ err)
    | .ok wire => normalize L wire

/-- the Go scan keeps its depth at zero or more, so it is the Rust scan -/
theorem depthExceedsFrom_eq (maxDepth depth : ℕ) (inString escaped : Bool) (payload : List UInt8) :
    depthExceedsFrom maxDepth depth inString escaped payload =
      Parser.depthExceedsFrom maxDepth depth inString escaped payload := by
  induction payload generalizing depth inString escaped with
  | nil => rfl
  | cons b rest ih =>
    have hopen : ((depth : ℤ) + 1 > maxDepth) ↔ depth + 1 > maxDepth := by omega
    have hclose : (if (depth : ℤ) > 0 then (depth : ℤ) - 1 else depth) = ((depth - 1 : ℕ) : ℤ) := by
      split_ifs <;> omega
    have hup : (depth : ℤ) + 1 = ((depth + 1 : ℕ) : ℤ) := by push_cast; rfl
    simp only [depthExceedsFrom, Parser.depthExceedsFrom, hclose, hopen]
    rw [hup]
    simp only [ih]
    cases inString <;> cases escaped <;> simp

end NotifyAgent.Go

/-! ## C# -/

namespace NotifyAgent.CSharp

open NotifyAgent.Text
open NotifyAgent.Notification (DateTime Priority)
open NotifyAgent.HeadIdentity (lowerInvariant)
open NotifyAgent.Parser (WireTarget WireAction WireClassification WireTimestamps)

structure WireImage where
  url : Option Str
deriving DecidableEq, Repr

structure WireContent where
  title : Option Str
  message : Option Str
  secondaryText : Option Str
  image : Option WireImage
deriving DecidableEq, Repr

/-- the class `WireEvent`; its other parts are those of the Rust agent -/
structure WireEvent where
  eventId : Option Str
  notificationType : Option Str
  target : Option WireTarget
  content : Option WireContent
  action : Option WireAction
  classification : Option WireClassification
  timestamps : Option WireTimestamps
deriving DecidableEq, Repr

/-- what the C# parser takes from outside this repository -/
structure Libs where
  ucd : Ucd
  /-- `JsonSerializer.Deserialize<WireEvent>` with the depth limit; a JSON null gives no object -/
  deserialize : List UInt8 → Except Str (Option WireEvent)

def maxPayloadBytes : ℕ := 32 * 1024

/-- `string.IsNullOrWhiteSpace` -/
def isNullOrWhiteSpace (value : Option Str) : Bool :=
  match value with
  | none => true
  | some s => s.all isWhitespace

/-- the `Priority` switch of `TryParse` -/
def parsePriority (U : Ucd) (priority : Option Str) : Priority :=
  let lowered := priority.map fun s => s.map (lowerInvariant U)
  if lowered = some "critical".toList then .critical
  else if lowered = some "important".toList then .important
  else .normal

/-- the part of `TryParse` after the JSON step; `getD []` stands for the null-forgiving `!` -/
def normalize (U : Ucd) (wire : WireEvent) (receivedAt : DateTime) : Except Str InboundNotification :=
  if isNullOrWhiteSpace wire.eventId then .error "missing eventId".toList
  else if isNullOrWhiteSpace (wire.target.bind (·.userId)) then .error "missing target.userId".toList
  else if isNullOrWhiteSpace (wire.content.bind (·.title)) then .error "missing content.title".toList
  else if isNullOrWhiteSpace (wire.content.bind (·.message)) then .error "missing content.message".toList
  else
    let type := if isNullOrWhiteSpace wire.notificationType then "unknown".toList else wire.notificationType.getD []
    let aggregationKey := wire.classification.bind (·.aggregationKey)
    let deduplicationKey := wire.classification.bind (·.deduplicationKey)
    .ok {
      eventId := wire.eventId.getD []
      userId := (wire.target.bind (·.userId)).getD []
      title := (wire.content.bind (·.title)).getD []
      message := (wire.content.bind (·.message)).getD []
      secondaryText := wire.content.bind (·.secondaryText)
      imageUrl := wire.content.bind fun c => c.image.bind (·.url)
      actionLabel := wire.action.bind (·.label)
      actionUrl := wire.action.bind (·.url)
      priority := parsePriority U (wire.classification.bind (·.priority))
      aggregationKey := if isNullOrWhiteSpace aggregationKey then type else aggregationKey.getD []
      deduplicationKey := if isNullOrWhiteSpace deduplicationKey then wire.eventId.getD [] else deduplicationKey.getD []
      replaceable := (wire.classification.bind (·.replaceable)).getD false
      producerCreatedAt := wire.timestamps.bind (·.producerCreatedAt)
      serverPublishedAt := wire.timestamps.bind (·.serverPublishedAt)
      receivedAt := receivedAt }

/-- `TryParse` -/
def tryParse (L : Libs) (payload : List UInt8) (receivedAt : DateTime) : Except Str InboundNotification :=
  if payload.length = 0 then .error "empty payload".toList
  else if payload.length > maxPayloadBytes then
    .error ("payload ".toList ++ Nat.toDigits 10 payload.length ++ " bytes exceeds ".toList ++
      Nat.toDigits 10 maxPayloadBytes)
  else
    match L.deserialize payload with
    | .error message => .error ("invalid json: ".toList ++ message)
    | .ok none => .error "payload is json null".toList
    | .ok (some wire) => normalize L.ucd wire receivedAt

/-- the time of receipt is the caller's -/
theorem tryParse_receivedAt {L : Libs} {payload : List UInt8} {receivedAt : DateTime} {n : InboundNotification}
    (h : tryParse L payload receivedAt = .ok n) : n.receivedAt = receivedAt := by
  have hnormalize : ∀ wire, normalize L.ucd wire receivedAt = .ok n → n.receivedAt = receivedAt := by
    intro wire hwire
    unfold normalize at hwire
    split_ifs at hwire <;> exact congrArg InboundNotification.receivedAt (Except.ok.inj hwire).symm
  unfold tryParse at h
  split_ifs at h
  split at h
  · cases h
  · cases h
  · exact hnormalize _ h

end NotifyAgent.CSharp
