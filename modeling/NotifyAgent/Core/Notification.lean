/-
The Rust agent's data model (`model.rs`) and the toasts built from it (`toast.rs`, `grapheme.rs`).

Toasts and everything downstream are generic in the type `E` that carries a notification (`Carries E`). The code is the
instance `E = InboundNotification`; runs use a carrier that also has a ghost ticket, so that one event can be told from
another with the same content. Nothing in the code reads the ticket.

- `truncate_clusters`: truncation keeps whole clusters of the text and adds only the ellipsis;
- `maxBySeq_spec`: `max_by_key` returns a member of largest sequence number;
- `fromBatch_isSome`: `from_batch` fails (its assertion) exactly on the empty batch;
- `fromBatch_sources`: a toast lists its batch as its sources, in order.
-/
import Mathlib.Tactic
import NotifyAgent.Core.Text

namespace NotifyAgent.Notification

open NotifyAgent.Text

/-- `DateTime<Utc>`, as an instant -/
abbrev DateTime := ℤ

inductive Priority where
  | normal
  | important
  | critical
deriving DecidableEq, Repr

inductive ImageShape where
  | circle
  | square
deriving DecidableEq, Repr

structure ImageRef where
  url : Str
  shape : ImageShape
deriving DecidableEq, Repr

structure InboundNotification where
  seq : ℕ
  eventId : Str
  userId : Str
  title : Str
  message : Str
  secondaryText : Option Str
  actionLabel : Option Str
  actionUrl : Option Str
  image : Option ImageRef
  priority : Priority
  aggregationKey : Str
  deduplicationKey : Str
  replaceable : Bool
  producerCreatedAt : Option DateTime
  serverPublishedAt : Option DateTime
  receivedAt : DateTime
deriving DecidableEq, Repr

/-- a value that carries a notification -/
class Carries (E : Type) where
  note : E → InboundNotification

export Carries (note)

instance : Carries InboundNotification := ⟨id⟩

/-- ghost: a value with the ordinal of the intake call that let it in -/
structure Ticketed (α : Type) where
  ticket : ℕ
  val : α
deriving DecidableEq, Repr

/-- a parsed event with its ticket -/
abbrev Note := Ticketed InboundNotification

instance : Carries Note := ⟨Ticketed.val⟩

@[simp] theorem note_ticketed (n : Note) : note n = n.val := rfl

/-! ## Truncation -/

/-- `graphemes(true)` of the segmentation library: non-empty clusters that concatenate to the text -/
structure Segmentation where
  graphemes : Str → List Str
  flatten_graphemes : ∀ s, (graphemes s).flatten = s
  ne_nil : ∀ s, ∀ g ∈ graphemes s, g ≠ []

/-- a segmentation into single characters -/
def singletons : Segmentation where
  graphemes s := s.map fun c => [c]
  flatten_graphemes s := by induction s with
    | nil => rfl
    | cons c s ih => simpa using ih
  ne_nil s g hg := by
    obtain ⟨c, _, rfl⟩ := List.mem_map.1 hg
    exact List.cons_ne_nil _ _

/-- `grapheme::truncate`, under its assertion that `maxGraphemes ≥ 1` -/
def truncate (G : Segmentation) (value : Str) (maxGraphemes : ℕ) : Str :=
  if (G.graphemes value).length ≤ maxGraphemes then value
  else ((G.graphemes value).take (maxGraphemes - 1)).flatten ++ ['…']

/-- the clusters of the text that truncation keeps -/
def kept (G : Segmentation) (value : Str) (maxGraphemes : ℕ) : List Str :=
  if (G.graphemes value).length ≤ maxGraphemes then G.graphemes value
  else (G.graphemes value).take (maxGraphemes - 1)

/-- truncation is the kept clusters, and an ellipsis if any cluster is not kept -/
theorem truncate_clusters (G : Segmentation) (s : Str) (n : ℕ) :
    truncate G s n = (kept G s n).flatten ++ if (G.graphemes s).length ≤ n then [] else ['…'] := by
  unfold truncate kept
  split_ifs
  · simp [G.flatten_graphemes]
  · rfl

/-! ## Toasts -/

def maxTitleGraphemes : ℕ := 120
def maxMessageGraphemes : ℕ := 500

structure ToastRequest (E : Type) where
  title : Str
  message : Str
  attribution : Option Str
  actionLabel : Option Str
  actionUrl : Option Str
  image : Option ImageRef
  sources : List E
deriving DecidableEq, Repr

section
variable {E : Type} [Carries E] (G : Segmentation)

def seqOf (n : E) : ℕ := (note n).seq

/-- `toast::from_single` -/
def fromSingle (n : E) : ToastRequest E where
  title := truncate G (note n).title maxTitleGraphemes
  message := truncate G (note n).message maxMessageGraphemes
  attribution := (note n).secondaryText
  actionLabel := (note n).actionLabel
  actionUrl := (note n).actionUrl
  image := (note n).image
  sources := [n]

/-- `max_by_key(|n| n.seq)`: the last of the elements with the largest sequence number -/
def maxBySeq : List E → Option E
  | [] => none
  | n :: rest =>
    match maxBySeq rest with
    | none => some n
    | some m => if seqOf n ≤ seqOf m then some m else some n

/-- the title of a batch before truncation: `"{} notifications — {}"` -/
def batchTitle (count : ℕ) (aggregationKey : Str) : Str :=
  Nat.toDigits 10 count ++ " notifications — ".toList ++ aggregationKey

/-- the message of a batch before truncation: `"Latest: {}"` -/
def batchMessage (message : Str) : Str := "Latest: ".toList ++ message

/-- `toast::from_batch`; `none` is the failed assertion on an empty batch -/
def fromBatch (batch : List E) : Option (ToastRequest E) :=
  match batch with
  | [] => none
  | [n] => some (fromSingle G n)
  | batch =>
    (maxBySeq batch).map fun latest =>
      { title := truncate G (batchTitle batch.length (note latest).aggregationKey) maxTitleGraphemes
        message := truncate G (batchMessage (note latest).message) maxMessageGraphemes
        attribution := (note latest).secondaryText
        actionLabel := (note latest).actionLabel
        actionUrl := (note latest).actionUrl
        image := (note latest).image
        sources := batch }

theorem maxBySeq_isSome {batch : List E} : (maxBySeq batch).isSome ↔ batch ≠ [] := by
  cases batch with
  | nil => simp [maxBySeq]
  | cons n rest =>
    unfold maxBySeq
    cases maxBySeq rest with
    | none => simp
    | some m => simp only; split_ifs <;> simp

theorem maxBySeq_spec {batch : List E} {m : E} (h : maxBySeq batch = some m) :
    m ∈ batch ∧ ∀ n ∈ batch, seqOf n ≤ seqOf m := by
  induction batch generalizing m with
  | nil => cases h
  | cons n rest ih =>
    unfold maxBySeq at h
    cases hr : maxBySeq rest with
    | none =>
      rw [hr] at h
      have hrest : rest = [] := by
        by_contra hne
        have := maxBySeq_isSome.2 hne
        simp [hr] at this
      simp only [Option.some.injEq] at h
      subst h hrest
      simp
    | some m' =>
      rw [hr] at h
      obtain ⟨hmem, hmax⟩ := ih hr
      simp only at h
      split_ifs at h with hle
      · simp only [Option.some.injEq] at h
        subst h
        refine ⟨List.mem_cons_of_mem _ hmem, fun x hx => ?_⟩
        rcases List.mem_cons.1 hx with rfl | hx
        · exact hle
        · exact hmax x hx
      · simp only [Option.some.injEq] at h
        subst h
        refine ⟨List.mem_cons_self, fun x hx => ?_⟩
        rcases List.mem_cons.1 hx with rfl | hx
        · exact le_rfl
        · exact (hmax x hx).trans (Nat.le_of_lt (Nat.lt_of_not_le hle))

/-- **The assertion.** `from_batch` fails exactly on the empty batch. -/
theorem fromBatch_isSome {batch : List E} : (fromBatch G batch).isSome ↔ batch ≠ [] := by
  match batch with
  | [] => simp [fromBatch]
  | [n] => simp [fromBatch]
  | a :: b :: l => simp [fromBatch, maxBySeq_isSome]

theorem fromBatch_sources {batch : List E} {t : ToastRequest E} (h : fromBatch G batch = some t) :
    t.sources = batch := by
  match batch with
  | [] => simp [fromBatch] at h
  | [n] => simp only [fromBatch, Option.some.injEq] at h; rw [← h]; rfl
  | a :: b :: l =>
    simp only [fromBatch, Option.map_eq_some_iff] at h
    obtain ⟨m, _, rfl⟩ := h
    rfl

@[simp] theorem fromSingle_sources (n : E) : (fromSingle G n).sources = [n] := rfl

end

end NotifyAgent.Notification
