/-
Do the three parsers make the same of one decoded wire event? The three sources call themselves ports of each other. The
events are those that the JSON step can give: each text absent or any Unicode text, each object absent or not.

- `rust_outcome`, `go_outcome`, `csharp_outcome`: all three report the same first missing field, or read the same
  record, up to the priority;
- `same_outcome_iff`: they agree EXACTLY when a required field is missing, or the priority is not `critical` or
  `important` in any mix of cases with a U+0130 for some `i`;
- `dotted_priority_disagrees`: such a priority is critical in Go and normal in Rust and C#.
-/
import Mathlib.Tactic
import NotifyAgent.Core.HeadParsers

namespace NotifyAgent.HeadParsing

open NotifyAgent.Text NotifyAgent.Parser
open NotifyAgent.Notification (DateTime Priority)
open NotifyAgent.HeadIdentity (goToLower lowerInvariant)

/-! ## One event, three wire forms -/

/-- the event as Go decodes it: what is absent is empty -/
def goWire (wire : WireEvent) : Go.WireEvent where
  eventID := wire.eventId.getD []
  notificationType := wire.notificationType.getD []
  target := wire.target.map fun t => ⟨t.userId.getD []⟩
  content := wire.content.map fun c => ⟨c.title.getD [], c.message.getD [], c.secondaryText.getD [],
    c.image.map fun i => ⟨i.url.getD [], i.shape.getD []⟩⟩
  action := wire.action.map fun a => ⟨a.label.getD [], a.url.getD []⟩
  classification := wire.classification.map fun c => ⟨c.priority.getD [], c.aggregationKey.getD [],
    c.deduplicationKey.getD [], c.replaceable.getD false⟩
  timestamps := wire.timestamps.map fun t => ⟨t.producerCreatedAt, t.serverPublishedAt⟩

/-- the event as C# decodes it -/
def csharpWire (wire : WireEvent) : CSharp.WireEvent where
  eventId := wire.eventId
  notificationType := wire.notificationType
  target := wire.target
  content := wire.content.map fun c => ⟨c.title, c.message, c.secondaryText, c.image.map fun i => ⟨i.url⟩⟩
  action := wire.action
  classification := wire.classification
  timestamps := wire.timestamps

/-! ## What is compared -/

/-- the fields by which an event is shown and routed -/
structure Routing where
  eventId : Str
  userId : Str
  title : Str
  message : Str
  priority : Priority
  aggregationKey : Str
  deduplicationKey : Str
  replaceable : Bool
deriving DecidableEq, Repr

/-- the record, or the text of the error -/
def rustOutcome (L : Libs) (wire : WireEvent) (receivedAt : DateTime) (seq : ℕ) : Except Str Routing :=
  match Parser.normalize L wire receivedAt seq with
  | .error e => .error e.message
  | .ok n => .ok ⟨n.eventId, n.userId, n.title, n.message, n.priority, n.aggregationKey, n.deduplicationKey,
      n.replaceable⟩

def goOutcome (L : Go.Libs) (wire : WireEvent) : Except Str Routing :=
  match Go.normalize L (goWire wire) with
  | .error e => .error e
  | .ok n => .ok ⟨n.eventID, n.userID, n.title, n.message, n.classification.priority,
      n.classification.aggregationKey, n.classification.deduplicationKey, n.classification.replaceable⟩

def csharpOutcome (U : Ucd) (wire : WireEvent) (receivedAt : DateTime) : Except Str Routing :=
  match CSharp.normalize U (csharpWire wire) receivedAt with
  | .error e => .error e
  | .ok n => .ok ⟨n.eventId, n.userId, n.title, n.message, n.priority, n.aggregationKey, n.deduplicationKey,
      n.replaceable⟩

/-- all three parsers have one outcome, whatever else they take from their libraries and callers -/
def SameOutcome (U : Ucd) (wire : WireEvent) : Prop :=
  ∀ (L : Libs) (M : Go.Libs), L.ucd = U → M.ucd = U → ∀ receivedAt seq,
    rustOutcome L wire receivedAt seq = goOutcome M wire ∧
      rustOutcome L wire receivedAt seq = csharpOutcome U wire receivedAt

/-! ## The common reading -/

/-- the priority text of an event -/
def priorityText (wire : WireEvent) : Option Str := wire.classification.bind (·.priority)

/-- an event read with a given priority: the first required field that is missing, or the record -/
def reading (priority : Priority) (wire : WireEvent) : Except Str Routing :=
  match nonBlank wire.eventId with
  | none => .error "missing eventId".toList
  | some eventId =>
    match nonBlank (wire.target.bind (·.userId)) with
    | none => .error "missing target.userId".toList
    | some userId =>
      match nonBlank (wire.content.bind (·.title)) with
      | none => .error "missing content.title".toList
      | some title =>
        match nonBlank (wire.content.bind (·.message)) with
        | none => .error "missing content.message".toList
        | some message =>
          .ok {
            eventId := eventId
            userId := userId
            title := title
            message := message
            priority := priority
            aggregationKey := (nonBlank (wire.classification.bind (·.aggregationKey))).getD
              ((nonBlank wire.notificationType).getD "unknown".toList)
            deduplicationKey := (nonBlank (wire.classification.bind (·.deduplicationKey))).getD eventId
            replaceable := (wire.classification.bind (·.replaceable)).getD false }

/-- a required field is absent or blank -/
def Rejected (wire : WireEvent) : Prop :=
  nonBlank wire.eventId = none ∨ nonBlank (wire.target.bind (·.userId)) = none ∨
    nonBlank (wire.content.bind (·.title)) = none ∨ nonBlank (wire.content.bind (·.message)) = none

theorem reading_eq_iff {p q : Priority} {wire : WireEvent} :
    reading p wire = reading q wire ↔ Rejected wire ∨ p = q := by
  unfold reading Rejected
  cases nonBlank wire.eventId with
  | none => simp
  | some eventId =>
    cases nonBlank (wire.target.bind (·.userId)) with
    | none => simp
    | some userId =>
      cases nonBlank (wire.content.bind (·.title)) with
      | none => simp
      | some title =>
        cases nonBlank (wire.content.bind (·.message)) with
        | none => simp
        | some message => simp

theorem nonBlank_cases (v : Option Str) :
    (nonBlank v = none ∧ trim (v.getD []) = []) ∨ ∃ s, v = some s ∧ nonBlank v = some s ∧ trim s ≠ [] := by
  cases hv : nonBlank v with
  | none =>
    refine Or.inl ⟨rfl, ?_⟩
    cases v with
    | none => rfl
    | some s =>
      by_contra ht
      have hs : nonBlank (some s) = some s := nonBlank_eq_some.2 ⟨rfl, ht⟩
      rw [hv] at hs
      cases hs
  | some s =>
    obtain ⟨rfl, ht⟩ := nonBlank_eq_some.1 hv
    exact Or.inr ⟨s, rfl, rfl, ht⟩

/-! ## Rust -/

theorem require_eq (v : Option Str) (field : Str) :
    require v field = match nonBlank v with
      | some s => .ok s
      | none => .error (.missingField field) := rfl

/-- **Rust** reads the event with its own priority match. -/
theorem rust_outcome (L : Libs) (wire : WireEvent) (receivedAt : DateTime) (seq : ℕ) :
    rustOutcome L wire receivedAt seq = reading (parsePriority L (priorityText wire)) wire := by
  have htitle : (wire.content.getD ⟨none, none, none, none⟩).title = wire.content.bind (·.title) := by
    cases wire.content <;> rfl
  have hmessage : (wire.content.getD ⟨none, none, none, none⟩).message = wire.content.bind (·.message) := by
    cases wire.content <;> rfl
  have hpriority : (wire.classification.getD ⟨none, none, none, none⟩).priority = priorityText wire := by
    unfold priorityText
    cases wire.classification <;> rfl
  have hkey : (wire.classification.getD ⟨none, none, none, none⟩).aggregationKey =
      wire.classification.bind (·.aggregationKey) := by cases wire.classification <;> rfl
  have hdedup : (wire.classification.getD ⟨none, none, none, none⟩).deduplicationKey =
      wire.classification.bind (·.deduplicationKey) := by cases wire.classification <;> rfl
  have hrep : (wire.classification.getD ⟨none, none, none, none⟩).replaceable =
      wire.classification.bind (·.replaceable) := by cases wire.classification <;> rfl
  unfold rustOutcome Parser.normalize reading
  simp only [bind, Except.bind, pure, Except.pure, require_eq, htitle, hmessage, hpriority, hkey, hdedup, hrep]
  cases nonBlank wire.eventId with
  | none => rfl
  | some eventId =>
    cases nonBlank (wire.target.bind (·.userId)) with
    | none => rfl
    | some userId =>
      cases nonBlank (wire.content.bind (·.title)) with
      | none => rfl
      | some title => cases nonBlank (wire.content.bind (·.message)) <;> rfl

/-! ## Go -/

theorem go_nonBlank (v : Option Str) : Go.nonBlank (v.getD []) = (nonBlank v).getD [] := by
  unfold Go.nonBlank
  rcases nonBlank_cases v with ⟨hn, ht⟩ | ⟨s, rfl, hs, ht⟩
  · rw [if_pos ht, hn]
    rfl
  · rw [hs]
    exact if_neg ht

theorem ne_nil_of_trim {s : Str} (h : trim s ≠ []) : s ≠ [] := by
  rintro rfl
  exact h rfl

theorem go_requireField (v : Option Str) (field : Str) :
    Go.requireField (v.getD []) field = match nonBlank v with
      | some s => .ok s
      | none => .error ("missing ".toList ++ field) := by
  unfold Go.requireField
  rw [go_nonBlank]
  rcases nonBlank_cases v with ⟨hn, -⟩ | ⟨s, rfl, hs, ht⟩
  · rw [hn]
    rfl
  · rw [hs]
    exact if_neg (ne_nil_of_trim ht)

/-- an empty text stands for an absent one in Go's fallbacks -/
theorem go_fallback (v : Option Str) (d : Str) :
    (if (nonBlank v).getD [] = [] then d else (nonBlank v).getD []) = (nonBlank v).getD d := by
  rcases nonBlank_cases v with ⟨hn, -⟩ | ⟨s, rfl, hs, ht⟩
  · rw [hn]
    rfl
  · rw [hs]
    exact if_neg (ne_nil_of_trim ht)

/-- **Go** reads the event with its own priority match. -/
theorem go_outcome (L : Go.Libs) (wire : WireEvent) :
    goOutcome L wire =
      reading (Go.parsePriority (goToLower L.ucd ((priorityText wire).getD []))) wire := by
  have huser : ((goWire wire).target.map (·.userID)).getD [] = (wire.target.bind (·.userId)).getD [] := by
    unfold goWire
    cases wire.target <;> rfl
  have htitle : ((goWire wire).content.getD ⟨[], [], [], none⟩).title = (wire.content.bind (·.title)).getD [] := by
    unfold goWire
    cases wire.content <;> rfl
  have hmessage : ((goWire wire).content.getD ⟨[], [], [], none⟩).message =
      (wire.content.bind (·.message)).getD [] := by
    unfold goWire
    cases wire.content <;> rfl
  have hpriority : ((goWire wire).classification.getD ⟨[], [], [], false⟩).priority =
      (priorityText wire).getD [] := by
    unfold goWire priorityText
    cases wire.classification <;> rfl
  have hkey : ((goWire wire).classification.getD ⟨[], [], [], false⟩).aggregationKey =
      (wire.classification.bind (·.aggregationKey)).getD [] := by
    unfold goWire
    cases wire.classification <;> rfl
  have hdedup : ((goWire wire).classification.getD ⟨[], [], [], false⟩).deduplicationKey =
      (wire.classification.bind (·.deduplicationKey)).getD [] := by
    unfold goWire
    cases wire.classification <;> rfl
  have hrep : ((goWire wire).classification.getD ⟨[], [], [], false⟩).replaceable =
      (wire.classification.bind (·.replaceable)).getD false := by
    unfold goWire
    cases wire.classification <;> rfl
  have hid : (goWire wire).eventID = wire.eventId.getD [] := rfl
  have htype : (goWire wire).notificationType = wire.notificationType.getD [] := rfl
  -- the key falls back to the type, and that to "unknown"
  have hchain : ∀ k t : Option Str,
      (if (nonBlank k).getD ((nonBlank t).getD []) = [] then "unknown".toList
        else (nonBlank k).getD ((nonBlank t).getD [])) =
        (nonBlank k).getD ((nonBlank t).getD "unknown".toList) := by
    intro k t
    rcases nonBlank_cases k with ⟨hn, -⟩ | ⟨s, rfl, hs, ht⟩
    · rw [hn]
      exact go_fallback t _
    · rw [hs]
      exact if_neg (ne_nil_of_trim ht)
  unfold goOutcome Go.normalize reading
  simp only [bind, Except.bind, pure, Except.pure, huser, htitle, hmessage, hpriority, hkey, hdedup, hrep, hid, htype,
    go_requireField, go_nonBlank, go_fallback, hchain]
  cases nonBlank wire.eventId with
  | none => rfl
  | some eventId =>
    cases nonBlank (wire.target.bind (·.userId)) with
    | none => rfl
    | some userId =>
      cases nonBlank (wire.content.bind (·.title)) with
      | none => rfl
      | some title => cases nonBlank (wire.content.bind (·.message)) <;> rfl

/-! ## C# -/

theorem csharp_blank (v : Option Str) : CSharp.isNullOrWhiteSpace v = (nonBlank v).isNone := by
  have hall : ∀ s : Str, s.all isWhitespace = true ↔ trim s = [] := by
    intro s
    rw [trim, trimBy_eq_nil, List.all_eq_true]
  rcases nonBlank_cases v with ⟨hn, ht⟩ | ⟨s, rfl, hs, ht⟩
  · rw [hn]
    cases v with
    | none => rfl
    | some s => exact (hall s).2 ht
  · rw [hs]
    exact Bool.eq_false_iff.2 fun h => ht ((hall s).1 h)

theorem csharp_fallback (v : Option Str) (d : Str) :
    (if (nonBlank v).isNone then d else v.getD []) = (nonBlank v).getD d := by
  rcases nonBlank_cases v with ⟨hn, -⟩ | ⟨s, rfl, hs, -⟩
  · rw [hn]
    rfl
  · rw [hs]
    rfl

/-- **C#** reads the event with its own priority match. -/
theorem csharp_outcome (U : Ucd) (wire : WireEvent) (receivedAt : DateTime) :
    csharpOutcome U wire receivedAt = reading (CSharp.parsePriority U (priorityText wire)) wire := by
  have htitle : (csharpWire wire).content.bind (·.title) = wire.content.bind (·.title) := by
    unfold csharpWire
    cases wire.content <;> rfl
  have hmessage : (csharpWire wire).content.bind (·.message) = wire.content.bind (·.message) := by
    unfold csharpWire
    cases wire.content <;> rfl
  have hid : (csharpWire wire).eventId = wire.eventId := rfl
  have htype : (csharpWire wire).notificationType = wire.notificationType := rfl
  have htarget : (csharpWire wire).target = wire.target := rfl
  have hclass : (csharpWire wire).classification = wire.classification := rfl
  unfold csharpOutcome CSharp.normalize reading
  simp only [csharp_blank, htitle, hmessage, hid, htype, htarget, hclass, csharp_fallback, priorityText]
  rcases nonBlank_cases wire.eventId with ⟨h1, -⟩ | ⟨eventId, hv1, h1, -⟩
  · rw [h1]
    rfl
  rcases nonBlank_cases (wire.target.bind (·.userId)) with ⟨h2, -⟩ | ⟨userId, hv2, h2, -⟩
  · rw [h1, h2]
    rfl
  rcases nonBlank_cases (wire.content.bind (·.title)) with ⟨h3, -⟩ | ⟨title, hv3, h3, -⟩
  · rw [h1, h2, h3]
    rfl
  rcases nonBlank_cases (wire.content.bind (·.message)) with ⟨h4, -⟩ | ⟨message, hv4, h4, -⟩
  · rw [h1, h2, h3, h4]
    rfl
  rw [h1, h2, h3, h4, hv1, hv2, hv3, hv4]
  rfl

/-! ## Priorities -/

/-- one character as Go lower-cases it, where the result is ASCII -/
def dottedLower (c : Char) : Char := if c = 'İ' then 'i' else c.toLower

/-- an ASCII text without the letter that a character outside ASCII also lower-cases to -/
def Plain (t : Str) : Prop := ∀ x ∈ t, x.toNat < 0x80 ∧ x ≠ 'k'

theorem plain_critical : Plain "critical".toList := List.forall_iff_forall_mem.1 (by decide)

theorem plain_important : Plain "important".toList := List.forall_iff_forall_mem.1 (by decide)

theorem ascii_of_toLower {c : Char} (h : c.toLower.toNat < 0x80) : c.toNat < 0x80 := by
  rw [toLower_toNat] at h
  split_ifs at h <;> omega

section
variable (U : Ucd)

theorem lower_eq_iff {c x : Char} (hx : x.toNat < 0x80 ∧ x ≠ 'k') : U.lower c = x ↔ dottedLower c = x := by
  unfold dottedLower
  constructor
  · rintro rfl
    rcases U.ascii_lower c hx.1 with hc | rfl | ⟨-, hk⟩
    · have hne : c ≠ 'İ' := by
        rintro rfl
        exact absurd hc (by decide)
      rw [if_neg hne, U.lower_ascii c hc]
    · rw [if_pos rfl, U.lower_dotted]
    · exact absurd hk hx.2
  · intro h
    by_cases hc : c = 'İ'
    · rw [if_pos hc] at h
      rw [hc, U.lower_dotted, h]
    · rw [if_neg hc] at h
      rw [U.lower_ascii c (ascii_of_toLower (h ▸ hx.1)), h]

theorem lowerInvariant_eq_iff {c x : Char} (hx : x.toNat < 0x80 ∧ x ≠ 'k') :
    lowerInvariant U c = x ↔ c.toLower = x := by
  unfold lowerInvariant
  by_cases hc : c = 'İ'
  · have hlow : 'İ'.toLower = 'İ' := by decide
    rw [if_pos hc, hc, hlow]
  · rw [if_neg hc, lower_eq_iff U hx, dottedLower, if_neg hc]

end

theorem map_eq_iff {P : Char → Prop} {f g : Char → Char} (h : ∀ c x, P x → (f c = x ↔ g c = x)) {s t : Str}
    (ht : ∀ x ∈ t, P x) : s.map f = t ↔ s.map g = t := by
  induction s generalizing t with
  | nil => rfl
  | cons c s ih =>
    cases t with
    | nil => simp
    | cons x t =>
      simp only [List.map_cons, List.cons.injEq]
      rw [h c x (ht x List.mem_cons_self), ih fun y hy => ht y (List.mem_cons_of_mem x hy)]

/-- Rust's full lower-casing gives a plain text only from its ASCII spellings -/
theorem toLowercaseFrom_eq_iff (U : Ucd) (before : Str) {s t : Str} (ht : Plain t) :
    U.toLowercaseFrom before s = t ↔ s.map Char.toLower = t := by
  induction s generalizing before t with
  | nil => rfl
  | cons c s ih =>
    have hself : ∀ x : Char, ¬ x.toNat < 0x80 → x ∉ t := fun x hx hmem => hx (ht x hmem).1
    unfold Ucd.toLowercaseFrom
    by_cases hsigma : c = 'Σ'
    · -- either sigma is outside ASCII
      subst hsigma
      rw [if_pos rfl]
      constructor <;> rintro rfl
      · rcases U.mapUppercaseSigma_cases before s with h | h <;> rw [h] at hself
        · exact absurd (by simp) (hself 'ς' (by decide))
        · exact absurd (by simp) (hself 'σ' (by decide))
      · exact absurd List.mem_cons_self (hself 'Σ'.toLower (by decide))
    rw [if_neg hsigma]
    unfold Ucd.toLower
    by_cases hdot : c = 'İ'
    · subst hdot
      rw [if_pos rfl]
      constructor <;> rintro rfl
      · exact absurd (by simp) (hself '\u0307' (by decide))
      · exact absurd List.mem_cons_self (hself 'İ'.toLower (by decide))
    rw [if_neg hdot, List.singleton_append, List.map_cons]
    cases t with
    | nil => simp
    | cons x t =>
      have hx := ht x List.mem_cons_self
      have hrest : Plain t := fun y hy => ht y (List.mem_cons_of_mem x hy)
      rw [List.cons.injEq, List.cons.injEq, lower_eq_iff U hx, dottedLower, if_neg hdot, ih _ hrest]

/-- the spellings of the two priorities that Go takes and the others do not -/
def Dotted (s : Str) : Prop :=
  'İ' ∈ s ∧ (s.map dottedLower = "critical".toList ∨ s.map dottedLower = "important".toList)

instance : DecidablePred Dotted := fun _ => inferInstanceAs (Decidable (_ ∧ _))

theorem parsePriority_congr {s t : Str} (hc : s = "critical".toList ↔ t = "critical".toList)
    (hi : s = "important".toList ↔ t = "important".toList) : Go.parsePriority s = Go.parsePriority t := by
  unfold Go.parsePriority
  simp only [hc, hi]

theorem rust_priority (L : Libs) (p : Option Str) :
    parsePriority L p = Go.parsePriority ((p.getD []).map Char.toLower) := by
  cases p with
  | none => rfl
  | some s =>
    refine Eq.trans ?_ (parsePriority_congr (toLowercaseFrom_eq_iff L.ucd [] plain_critical)
      (toLowercaseFrom_eq_iff L.ucd [] plain_important))
    simp only [parsePriority, Go.parsePriority, Option.map_some, Option.some.injEq, Option.getD_some, Ucd.toLowercase]

theorem csharp_priority (U : Ucd) (p : Option Str) :
    CSharp.parsePriority U p = Go.parsePriority ((p.getD []).map Char.toLower) := by
  cases p with
  | none => rfl
  | some s =>
    have hlow : ∀ c x : Char, (x.toNat < 0x80 ∧ x ≠ 'k') → (lowerInvariant U c = x ↔ c.toLower = x) :=
      fun c x hx => lowerInvariant_eq_iff U hx
    refine Eq.trans ?_ (parsePriority_congr (map_eq_iff hlow plain_critical) (map_eq_iff hlow plain_important))
    simp only [CSharp.parsePriority, Go.parsePriority, Option.map_some, Option.some.injEq, Option.getD_some]

theorem go_priority (U : Ucd) (s : Str) : Go.parsePriority (goToLower U s) = Go.parsePriority (s.map dottedLower) := by
  have hlow : ∀ c x : Char, (x.toNat < 0x80 ∧ x ≠ 'k') → (U.lower c = x ↔ dottedLower c = x) :=
    fun c x hx => lower_eq_iff U hx
  exact parsePriority_congr (map_eq_iff hlow plain_critical) (map_eq_iff hlow plain_important)

/-- the priorities differ exactly on the dotted spellings -/
theorem priority_eq_iff (s : Str) :
    Go.parsePriority (s.map Char.toLower) = Go.parsePriority (s.map dottedLower) ↔ ¬ Dotted s := by
  by_cases hdot : 'İ' ∈ s
  · have hmem : 'İ' ∈ s.map Char.toLower := List.mem_map.2 ⟨'İ', hdot, by decide⟩
    have hplain : ∀ t : Str, Plain t → s.map Char.toLower ≠ t := by
      rintro t ht rfl
      exact absurd (ht _ hmem).1 (by decide)
    have hnormal : Go.parsePriority (s.map Char.toLower) = .normal := by
      unfold Go.parsePriority
      rw [if_neg (hplain _ plain_critical), if_neg (hplain _ plain_important)]
    rw [hnormal]
    simp only [Dotted, hdot, true_and, Go.parsePriority]
    split_ifs <;> simp_all
  · have hsame : s.map Char.toLower = s.map dottedLower := by
      apply List.map_congr_left
      intro c hc
      rw [dottedLower, if_neg fun (h : c = 'İ') => hdot (h ▸ hc)]
    rw [hsame]
    simp only [Dotted, hdot, false_and, not_false_eq_true]

/-! ## Agreement -/

/-- libraries over a database -/
def someLibs (U : Ucd) : Libs := ⟨U, Notification.singletons, fun _ => none, fun _ => .error []⟩

def someGoLibs (U : Ucd) : Go.Libs := ⟨U, fun _ => none, fun _ => .error []⟩

/-- the parsers agree exactly when nothing is accepted or Rust and Go read one priority -/
theorem same_outcome_priority (U : Ucd) (wire : WireEvent) :
    SameOutcome U wire ↔ Rejected wire ∨
      Go.parsePriority (((priorityText wire).getD []).map Char.toLower) =
        Go.parsePriority (((priorityText wire).getD []).map dottedLower) := by
  constructor
  · intro h
    have hgo := (h (someLibs U) (someGoLibs U) rfl rfl 0 0).1
    rw [rust_outcome, go_outcome, reading_eq_iff, rust_priority, go_priority] at hgo
    exact hgo
  · rintro h L M rfl hM receivedAt seq
    rw [rust_outcome, go_outcome, csharp_outcome, reading_eq_iff, reading_eq_iff, rust_priority, csharp_priority,
      go_priority]
    exact ⟨h, Or.inr rfl⟩

/-- **Agreement of the parsers, characterised exactly.** -/
theorem same_outcome_iff (U : Ucd) (wire : WireEvent) :
    SameOutcome U wire ↔ Rejected wire ∨ ¬ Dotted ((priorityText wire).getD []) := by
  rw [same_outcome_priority, priority_eq_iff]

/-- an accepted event with the priority `CRİTICAL` -/
def dottedWire : WireEvent where
  eventId := some ['e']
  notificationType := none
  target := some ⟨some ['u']⟩
  content := some ⟨some ['t'], some ['m'], none, none⟩
  action := none
  classification := some ⟨some "CRİTICAL".toList, none, none, none⟩
  timestamps := none

/-- **A dotted capital in the priority.** Go takes `CRİTICAL` for critical, Rust and C# for normal. -/
theorem dotted_priority_disagrees : ¬ ∃ U, SameOutcome U dottedWire := by
  rintro ⟨U, h⟩
  rcases (same_outcome_priority U dottedWire).1 h with hrej | hprio
  · revert hrej
    unfold Rejected
    decide
  · revert hprio
    decide

end NotifyAgent.HeadParsing
