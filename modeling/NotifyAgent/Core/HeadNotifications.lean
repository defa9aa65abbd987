/-
The notification and toast records of the other two heads: Go (`internal/model`, `internal/toast`) and C# (`Models`,
`Rendering`), with their toast factories. In Go an absent text is the empty string and the action is one optional part;
C# keeps optional texts and the image as a URL.

Segmentation into clusters is a library's in each head; `G` stands for it, as in the Rust model.

- `Go.truncate_eq`: the three truncations are one function.
-/
import Mathlib.Tactic
import NotifyAgent.Core.Notification

/-! ## Go -/

namespace NotifyAgent.Go

open NotifyAgent.Text
open NotifyAgent.Notification (DateTime Priority ImageShape Segmentation)

/-- the zero `time.Time`, in nanoseconds from the Unix epoch -/
def zeroTime : DateTime := -62135596800 * 10 ^ 9

structure Image where
  url : Str
  shape : ImageShape
deriving DecidableEq, Repr

structure Action where
  label : Str
  url : Str
deriving DecidableEq, Repr

structure Classification where
  priority : Priority
  aggregationKey : Str
  deduplicationKey : Str
  replaceable : Bool
deriving DecidableEq, Repr

/-- `model.InboundNotification` -/
structure InboundNotification where
  eventID : Str
  notificationType : Str
  userID : Str
  title : Str
  message : Str
  secondaryText : Str
  image : Option Image
  action : Option Action
  classification : Classification
  producerCreatedAt : DateTime
  serverPublishedAt : DateTime
  agentReceivedAt : DateTime
deriving DecidableEq, Repr

def parsePriority (s : Str) : Priority :=
  if s = "critical".toList then .critical else if s = "important".toList then .important else .normal

def parseImageShape (s : Str) : ImageShape := if s = "square".toList then .square else .circle

/-- `toast.ToastRequest` -/
structure ToastRequest where
  title : Str
  message : Str
  attribution : Str
  image : Option Image
  actionLabel : Str
  actionURL : Str
  sources : List InboundNotification
deriving DecidableEq, Repr

def maxTitleGraphemes : ℕ := 120
def maxMessageGraphemes : ℕ := 500

/-- `graphemetext.Truncate` -/
def truncate (G : Segmentation) (s : Str) (maxClusters : ℕ) : Str :=
  if maxClusters = 0 then []
  else if maxClusters < (G.graphemes s).length then ((G.graphemes s).take (maxClusters - 1)).flatten ++ ['…']
  else s

/-- `actionFields` -/
def actionFields (n : InboundNotification) : Str × Str :=
  match n.action with
  | none => ([], [])
  | some action => (action.label, action.url)

variable (G : Segmentation)

/-- `toast.FromSingle` -/
def fromSingle (n : InboundNotification) : ToastRequest where
  title := truncate G n.title maxTitleGraphemes
  message := truncate G n.message maxMessageGraphemes
  attribution := n.secondaryText
  image := n.image
  actionLabel := (actionFields n).1
  actionURL := (actionFields n).2
  sources := [n]

/-- `toast.FromBatch`; `none` is the panic on an empty batch -/
def fromBatch (batch : List InboundNotification) : Option ToastRequest :=
  match batch with
  | [] => none
  | [n] => some (fromSingle G n)
  | batch =>
    batch.getLast?.map fun latest =>
      { title := truncate G (Nat.toDigits 10 batch.length ++ " notifications — ".toList ++
          latest.classification.aggregationKey) maxTitleGraphemes
        message := truncate G ("Latest: ".toList ++ latest.message) maxMessageGraphemes
        attribution := latest.secondaryText
        image := latest.image
        actionLabel := (actionFields latest).1
        actionURL := (actionFields latest).2
        sources := batch }

/-- truncation to at least one cluster is the one of the Rust agent -/
theorem truncate_eq (s : Str) {n : ℕ} (hn : n ≠ 0) : truncate G s n = Notification.truncate G s n := by
  unfold truncate Notification.truncate
  rw [if_neg hn]
  split_ifs <;> first | rfl | omega

end NotifyAgent.Go

/-! ## C# -/

namespace NotifyAgent.CSharp

open NotifyAgent.Text
open NotifyAgent.Notification (DateTime Priority Segmentation)

/-- the record `InboundNotification`; `EventPriority` has the members of the other heads -/
structure InboundNotification where
  eventId : Str
  userId : Str
  title : Str
  message : Str
  secondaryText : Option Str
  imageUrl : Option Str
  actionLabel : Option Str
  actionUrl : Option Str
  priority : Priority
  aggregationKey : Str
  deduplicationKey : Str
  replaceable : Bool
  producerCreatedAt : Option DateTime
  serverPublishedAt : Option DateTime
  receivedAt : DateTime
deriving DecidableEq, Repr

/-- the record `ToastRequest` -/
structure ToastRequest where
  title : Str
  message : Str
  attribution : Option Str
  imageUrl : Option Str
  actionLabel : Option Str
  actionUrl : Option Str
  sources : List InboundNotification
deriving DecidableEq, Repr

def maxTitleGraphemes : ℕ := 120
def maxMessageGraphemes : ℕ := 500

/-- `GraphemeText.Truncate`, for a limit of at least one -/
def truncate (G : Segmentation) (value : Str) (maxGraphemes : ℕ) : Str :=
  if (G.graphemes value).length ≤ maxGraphemes then value
  else ((G.graphemes value).take (maxGraphemes - 1)).flatten ++ ['…']

variable (G : Segmentation)

/-- `ToastContentFactory.FromSingle` -/
def fromSingle (n : InboundNotification) : ToastRequest where
  title := truncate G n.title maxTitleGraphemes
  message := truncate G n.message maxMessageGraphemes
  attribution := n.secondaryText
  imageUrl := n.imageUrl
  actionLabel := n.actionLabel
  actionUrl := n.actionUrl
  sources := [n]

/-- `ToastContentFactory.FromBatch`; `none` is the exception on an empty batch -/
def fromBatch (batch : List InboundNotification) : Option ToastRequest :=
  match batch with
  | [] => none
  | [n] => some (fromSingle G n)
  | batch =>
    batch.getLast?.map fun latest =>
      { title := truncate G (Nat.toDigits 10 batch.length ++ " notifications — ".toList ++ latest.aggregationKey)
          maxTitleGraphemes
        message := truncate G ("Latest: ".toList ++ latest.message) maxMessageGraphemes
        attribution := latest.secondaryText
        imageUrl := latest.imageUrl
        actionLabel := latest.actionLabel
        actionUrl := latest.actionUrl
        sources := batch }

end NotifyAgent.CSharp
