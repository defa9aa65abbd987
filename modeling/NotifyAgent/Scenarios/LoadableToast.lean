/-
Does every accepted event give a document that an XML processor loads?

The markup is always right (`ToastTree`), and escaping makes the five reserved characters safe, but nothing on the way
from the payload to the document removes the characters outside the XML `Char` production: a JSON string can hold
U+0001, the parser only asks for a character that is not white space, truncation keeps whole clusters, and escaping
passes it on.

- `clean_doc_iff`: the document has only legal characters exactly when its texts and attribute values do;
- `clean_fileUri`: the image source always has;
- `wellFormed_iff`: the document of a batch loads EXACTLY when the text of the batch that it shows (`shownText`) has
  only legal characters;
- `control_character_rejected`: an accepted payload whose title is U+0001.
-/
import Mathlib.Tactic
import NotifyAgent.Core.Parser
import NotifyAgent.Core.ToastXml

namespace NotifyAgent.LoadableToast

open NotifyAgent.Text NotifyAgent.Notification NotifyAgent.ActionUrl NotifyAgent.Parser NotifyAgent.ToastXml
open NotifyAgent.Lib.Xml

/-- only legal XML characters -/
def Clean (s : Str) : Prop := ∀ c ∈ s, XmlChar c

instance (s : Str) : Decidable (Clean s) := List.decidableBAll XmlChar s

theorem clean_append (a b : Str) : Clean (a ++ b) ↔ Clean a ∧ Clean b := by
  simp only [Clean, List.mem_append, or_imp, forall_and]

theorem clean_escape (s : Str) : Clean (escape s) ↔ Clean s := xmlChar_escape_iff s

theorem xmlChar_ascii {c : Char} (h : 0x20 ≤ c.toNat ∧ c.toNat ≤ 0x7E) : XmlChar c := by
  unfold XmlChar
  omega

/-! ## The document -/

theorem clean_image (shape : ImageShape) (src : Str) :
    Clean (emitAll (imageTokens (some (shape, src)))) ↔ Clean src := by
  have h1 : Clean "<image placement=\"appLogoOverride\"".toList := by decide
  have h2 : Clean (if shape = .circle then " hint-crop=\"circle\"".toList else []) := by cases shape <;> decide
  have h3 : Clean " src=\"".toList := by decide
  have h4 : Clean "\"/>".toList := by decide
  simp only [emit_image, clean_append, clean_escape, h1, h2, h3, h4, true_and, and_true]

theorem clean_attribution (s : Str) : Clean (emitAll (attributionTokens (some s))) ↔ Clean s := by
  have h1 : Clean "<text placement=\"attribution\">".toList := by decide
  have h2 : Clean "</text>".toList := by decide
  simp only [emit_attribution, clean_append, clean_escape, h1, h2, true_and, and_true]

theorem clean_action (label link : Str) :
    Clean (emitAll (actionTokens (some (label, link)))) ↔ Clean label ∧ Clean link := by
  have h1 : Clean "<actions><action content=\"".toList := by decide
  have h2 : Clean "\" arguments=\"".toList := by decide
  have h3 : Clean "\" activationType=\"protocol\"/></actions>".toList := by decide
  simp only [emit_action, clean_append, clean_escape, h1, h2, h3, true_and, and_true]

/-- **Legal characters of a document.** -/
theorem clean_doc_iff (d : Doc) :
    Clean (emitAll (docTokens d)) ↔
      (∀ i ∈ d.image, Clean i.2) ∧ Clean d.title ∧ Clean d.message ∧ (∀ a ∈ d.attribution, Clean a) ∧
        ∀ a ∈ d.action, Clean a.1 ∧ Clean a.2 := by
  have h1 : Clean "<toast><visual><binding template=\"ToastGeneric\">".toList := by decide
  have h2 : Clean "<text>".toList := by decide
  have h3 : Clean "</text><text>".toList := by decide
  have h4 : Clean "</text>".toList := by decide
  have h5 : Clean "</binding></visual>".toList := by decide
  have h6 : Clean "</toast>".toList := by decide
  have hempty : Clean (emitAll []) := by decide
  have himage : Clean (emitAll (imageTokens d.image)) ↔ ∀ i ∈ d.image, Clean i.2 := by
    cases d.image with
    | none => exact iff_of_true hempty (by simp)
    | some i => simpa using clean_image i.1 i.2
  have hattribution : Clean (emitAll (attributionTokens d.attribution)) ↔ ∀ a ∈ d.attribution, Clean a := by
    cases d.attribution with
    | none => exact iff_of_true hempty (by simp)
    | some a => simpa using clean_attribution a
  have haction : Clean (emitAll (actionTokens d.action)) ↔ ∀ a ∈ d.action, Clean a.1 ∧ Clean a.2 := by
    cases d.action with
    | none => exact iff_of_true hempty (by simp)
    | some a => simpa using clean_action a.1 a.2
  simp only [emit_doc, clean_append, clean_escape, himage, hattribution, haction, h1, h2, h3, h4, h5, h6, true_and,
    and_true, and_assoc]

/-- a document always reads to a tree, so it is well formed exactly when its characters are legal -/
theorem wellFormed_doc_iff (d : Doc) : WellFormed (emitAll (docTokens d)) ↔ Clean (emitAll (docTokens d)) := by
  rw [WellFormed, parse_docTokens]
  exact and_iff_right rfl

/-! ## Image sources -/

theorem ascii_percentByte (b : UInt8) : ∀ c ∈ percentByte b, 0x20 ≤ c.toNat ∧ c.toNat ≤ 0x7E := by
  have hdigits : ∀ n < 16, 0x20 ≤ (hexUpper n).toNat ∧ (hexUpper n).toNat ≤ 0x7E := by decide
  have hb := b.toNat_lt
  intro c hc
  unfold percentByte at hc
  split_ifs at hc with hu
  · rw [List.mem_singleton] at hc
    have hrange : 0x20 ≤ b.toNat ∧ b.toNat ≤ 0x7E := by
      simp only [unreserved, Bool.or_eq_true, Bool.and_eq_true, decide_eq_true_eq, beq_iff_eq, UInt8.le_iff_toNat_le,
        ← UInt8.toNat_inj] at hu
      simp only [UInt8.reduceToNat] at hu
      omega
    have hnat : (Char.ofNat b.toNat).toNat = b.toNat := by
      have hvalid : b.toNat.isValidChar := Or.inl (by omega)
      rw [Char.ofNat, dif_pos hvalid]
      rfl
    rw [hc, hnat]
    exact hrange
  · simp only [List.mem_cons, List.not_mem_nil, or_false] at hc
    rcases hc with rfl | rfl | rfl
    · decide
    · exact hdigits _ (by omega)
    · exact hdigits _ (by omega)

theorem clean_fileUri (path : Str) : Clean (fileUri path) := by
  have hscheme : Clean "file:///".toList := by decide
  unfold fileUri
  rw [clean_append]
  refine ⟨hscheme, fun c hc => ?_⟩
  obtain ⟨b, -, hc⟩ := List.mem_flatMap.1 hc
  exact xmlChar_ascii (ascii_percentByte b c hc)

/-! ## Batches -/

/-- the label of the button, if the toast of `n` has one -/
def shownLabel (L : Libs) (n : InboundNotification) : Option Str :=
  n.actionLabel.filter fun _ => (n.actionUrl.bind (validate L.urlParse)).isSome

/-- the texts of one event that its toast shows, given what its title and message are made of -/
def shownOf (L : Libs) (n : InboundNotification) (title message : Str) : List Str :=
  kept L.segmentation title maxTitleGraphemes ++ kept L.segmentation message maxMessageGraphemes ++
    n.secondaryText.toList ++ (shownLabel L n).toList

/-- the texts of a batch that its toast shows: the clusters that truncation keeps, the attribution and the label -/
def shownText (L : Libs) (batch : List InboundNotification) : List Str :=
  match batch with
  | [] => []
  | [n] => shownOf L n n.title n.message
  | batch =>
    match maxBySeq batch with
    | none => []
    | some latest =>
      shownOf L latest (batchTitle batch.length latest.aggregationKey) (batchMessage latest.message)

theorem clean_flatten (l : List Str) : Clean l.flatten ↔ ∀ s ∈ l, Clean s := by
  simp only [Clean, List.mem_flatten]
  exact ⟨fun h s hs c hc => h c ⟨s, hs, hc⟩, fun h c ⟨s, hs, hc⟩ => h s hs c hc⟩

theorem clean_truncate (G : Segmentation) (s : Str) (n : ℕ) : Clean (truncate G s n) ↔ ∀ g ∈ kept G s n, Clean g := by
  have hellipsis : Clean (if (G.graphemes s).length ≤ n then [] else ['…']) := by split_ifs <;> decide
  rw [truncate_clusters, clean_append, clean_flatten]
  exact and_iff_left hellipsis

/-- the documented serialization of an https URL with a host: ASCII without spaces and controls (that of other schemes
may have spaces, as for `data:a b`) -/
def AsciiUrls (parse : Str → Option Url) : Prop :=
  ∀ value u, validate parse value = some u → ∀ c ∈ u.asStr, 0x21 ≤ c.toNat ∧ c.toNat ≤ 0x7E

section
variable {L : Libs} (hurls : AsciiUrls L.urlParse)
include hurls

theorem clean_action_iff (n : InboundNotification) (toast : ToastRequest InboundNotification)
    (hlabel : toast.actionLabel = n.actionLabel) (hurl : toast.actionUrl = n.actionUrl) :
    (∀ a ∈ actionOf L.urlParse toast, Clean a.1 ∧ Clean a.2) ↔ ∀ l ∈ shownLabel L n, Clean l := by
  unfold actionOf shownLabel
  rw [hlabel, hurl]
  cases n.actionLabel with
  | none => simp
  | some label =>
    cases hv : n.actionUrl.bind (validate L.urlParse) with
    | none => simp
    | some v =>
      have hlink : Clean v.asStr := by
        obtain ⟨url, -, hval⟩ := Option.bind_eq_some_iff.1 hv
        intro c hc
        have := hurls _ _ hval c hc
        exact xmlChar_ascii (by omega)
      simp [hlink]

/-- a document whose parts come from `n` has legal characters exactly when the texts of `n` that it shows have -/
theorem wellFormed_of_parts (n : InboundNotification) {toast : ToastRequest InboundNotification} {title message : Str}
    (htitle : toast.title = truncate L.segmentation title maxTitleGraphemes)
    (hmessage : toast.message = truncate L.segmentation message maxMessageGraphemes)
    (hattr : toast.attribution = n.secondaryText) (hlabel : toast.actionLabel = n.actionLabel)
    (hurl : toast.actionUrl = n.actionUrl) (path : Option Str) :
    WellFormed (buildToastXml L.urlParse toast path) ↔ ∀ s ∈ shownOf L n title message, Clean s := by
  have himage : ∀ i ∈ (docOf L.urlParse toast path).image, Clean i.2 := by
    intro i hi
    simp only [docOf, Option.mem_def, Option.bind_eq_some_iff, Option.map_eq_some_iff] at hi
    obtain ⟨p, -, r, -, rfl⟩ := hi
    exact clean_fileUri p
  rw [buildToastXml_eq, wellFormed_doc_iff, clean_doc_iff, and_iff_right himage]
  simp only [docOf, htitle, hmessage, hattr, clean_truncate, clean_action_iff hurls n toast hlabel hurl]
  simp only [shownOf, List.mem_append, or_imp, forall_and, Option.mem_toList, Option.mem_def, and_assoc]

/-- **Loadable documents, characterised exactly.** For every non-empty batch of accepted events and every image path,
the document loads exactly when the texts of the batch that it shows have only legal characters. -/
theorem wellFormed_iff {batch : List InboundNotification} {toast : ToastRequest InboundNotification}
    (hbatch : fromBatch L.segmentation batch = some toast) (path : Option Str) :
    WellFormed (buildToastXml L.urlParse toast path) ↔ ∀ s ∈ shownText L batch, Clean s := by
  match batch with
  | [] => simp [fromBatch] at hbatch
  | [n] =>
    simp only [fromBatch, Option.some.injEq] at hbatch
    subst hbatch
    exact wellFormed_of_parts hurls n rfl rfl rfl rfl rfl path
  | a :: b :: rest =>
    simp only [fromBatch, Option.map_eq_some_iff] at hbatch
    obtain ⟨latest, hlatest, rfl⟩ := hbatch
    simp only [shownText, hlatest]
    exact wellFormed_of_parts hurls latest rfl rfl rfl rfl rfl path

end

/-! ## Witnesses -/

/-- the payload `{"eventId":"e1","target":{"userId":"u"},"content":{"title":"\u0001","message":"m"}}` -/
def controlPayload : List UInt8 :=
  utf8 ("\x7b\"eventId\":\"e1\",\"target\":\x7b\"userId\":\"u\"\x7d,".toList ++
    "\"content\":\x7b\"title\":\"\\u0001\",\"message\":\"m\"\x7d\x7d".toList)

def controlEvent : WireEvent where
  eventId := some "e1".toList
  notificationType := none
  target := some ⟨some ['u']⟩
  content := some ⟨some ['\x01'], some ['m'], none, none⟩
  action := none
  classification := none
  timestamps := none

/-- libraries that do on the payloads here what the real ones do -/
def libs : Libs where
  ucd := basicUcd
  segmentation := singletons
  urlParse _ := none
  fromSlice payload := if payload = controlPayload then .ok controlEvent else .error "expected value".toList

/-- the notification the payload is parsed to -/
def controlNotification : InboundNotification where
  seq := 1
  eventId := "e1".toList
  userId := ['u']
  title := ['\x01']
  message := ['m']
  secondaryText := none
  actionLabel := none
  actionUrl := none
  image := none
  priority := .normal
  aggregationKey := "unknown".toList
  deduplicationKey := "e1".toList
  replaceable := false
  producerCreatedAt := none
  serverPublishedAt := none
  receivedAt := 0

/-- **A control character.** The payload is accepted, and its document does not load. -/
theorem control_character_rejected :
    parseEvent libs controlPayload 0 1 = .ok controlNotification ∧
      ¬ WellFormed (buildToastXml libs.urlParse (fromSingle libs.segmentation controlNotification) none) := by
  refine ⟨by decide, fun h => ?_⟩
  have hillegal : ∃ c ∈ buildToastXml libs.urlParse (fromSingle libs.segmentation controlNotification) none,
      ¬ XmlChar c := ⟨'\x01', by decide, by decide⟩
  obtain ⟨c, hc, hx⟩ := hillegal
  exact hx (h.2 c hc)

/-- a URL that the policy accepts -/
def chatUrl : Url where
  asStr := "https://teams.example/chat?a=1&b=2".toList
  scheme := "https".toList
  hostStr := some "teams.example".toList
  host := some (.domain "teams.example".toList)
  username := []
  password := none

/-- the libraries with a parser for this URL, and for one with a space in it -/
def urlLibs : Libs :=
  { libs with urlParse := fun value =>
      if value = chatUrl.asStr then some chatUrl
      else if value = "data:a b".toList then some ⟨"data:a b".toList, "data".toList, none, none, [], none⟩
      else none }

theorem asciiUrls_urlLibs : AsciiUrls urlLibs.urlParse := by
  intro value u hval
  obtain ⟨-, -, hparse, hscheme, -⟩ := validate_eq_some.1 hval
  simp only [urlLibs] at hparse
  split_ifs at hparse
  · cases hparse
    have hall : (chatUrl.asStr.all fun c => 0x21 ≤ c.toNat ∧ c.toNat ≤ 0x7E) = true := by decide
    simpa using hall
  · cases hparse
    exact absurd hscheme (by decide)

/-- the same event with a plain title, a button and an image -/
def chatNotification : InboundNotification :=
  { controlNotification with
    title := "Tony & <Redmond>".toList
    actionLabel := some "Open <chat>".toList
    actionUrl := some chatUrl.asStr
    image := some ⟨chatUrl.asStr, .circle⟩ }

theorem wellFormed_iff_plain :
    WellFormed (buildToastXml urlLibs.urlParse (fromSingle urlLibs.segmentation chatNotification)
        (some "C:\\cache\\a b".toList)) ↔
      ∀ s ∈ shownText urlLibs [chatNotification], Clean s :=
  wellFormed_iff asciiUrls_urlLibs rfl _

/-- the toast has its button and its image, and loads -/
example : WellFormed (buildToastXml urlLibs.urlParse (fromSingle urlLibs.segmentation chatNotification)
    (some "C:\\cache\\a b".toList)) := by
  have hclean : Clean (buildToastXml urlLibs.urlParse (fromSingle urlLibs.segmentation chatNotification)
      (some "C:\\cache\\a b".toList)) := by
    decide +kernel
  exact ⟨by decide +kernel, hclean⟩

end NotifyAgent.LoadableToast
