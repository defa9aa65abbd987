/-
The toast document: Rust's `build_toast_xml` (`toast_xml.rs`) and Go's `BuildToastXML` (`windowstoast`). Both format one
document, and both escape the five reserved characters, Rust by five replacements one after the other, Go in one pass.

- `xmlEscape_eq`, `XMLEscape_eq`: both escapings are the escaping of the XML writer;
- `Doc`: what a toast document says; `docTokens`, `docTree`: its tokens and its tree;
- `buildToastXml_eq`, `BuildToastXML_eq`: both functions write the tokens of their `Doc`;
- `parse_docTokens`: whatever a document says, what is written of it reads to its tree.
-/
import Mathlib.Tactic
import NotifyAgent.Lib.Replace
import NotifyAgent.Lib.Xml
import NotifyAgent.Core.ActionUrl
import NotifyAgent.Core.Notification

namespace NotifyAgent.ToastXml

open NotifyAgent.Text NotifyAgent.Notification NotifyAgent.ActionUrl
open NotifyAgent.Lib.Replace (replace replace_single replace_single_flatMap replace_single_of_ne)
open NotifyAgent.Lib.Xml

/-! ## Rust -/

/-- `xml_escape` -/
def xmlEscape (s : Str) : Str :=
  replace ['\''] "&apos;".toList (replace ['"'] "&quot;".toList (replace ['>'] "&gt;".toList
    (replace ['<'] "&lt;".toList (replace ['&'] "&amp;".toList s))))

/-- the bytes `file_uri` leaves as they are -/
def unreserved (b : UInt8) : Bool :=
  (0x41 ≤ b && b ≤ 0x5A) || (0x61 ≤ b && b ≤ 0x7A) || (0x30 ≤ b && b ≤ 0x39) || b == 0x2D || b == 0x2E || b == 0x5F ||
    b == 0x7E || b == 0x2F || b == 0x3A

def percentByte (b : UInt8) : Str :=
  if unreserved b then [Char.ofNat b.toNat] else ['%', hexUpper (b.toNat / 16), hexUpper (b.toNat % 16)]

/-- `strip_prefix('/')` or all of it -/
def stripSlash (p : Str) : Str :=
  match p with
  | '/' :: rest => rest
  | p => p

/-- `file_uri` -/
def fileUri (path : Str) : Str :=
  let p := stripSlash (replace ['\\'] ['/'] path)
  "file:///".toList ++ (utf8 p).flatMap percentByte

section
variable {E : Type}

/-- `build_toast_xml`, over the URL parser of `action_url::validate` -/
def buildToastXml (parse : Str → Option Url) (toast : ToastRequest E) (imagePath : Option Str) : Str :=
  let image :=
    match imagePath, toast.image with
    | some path, some imageRef =>
      let crop := match imageRef.shape with
        | .circle => " hint-crop=\"circle\"".toList
        | .square => []
      "<image placement=\"appLogoOverride\"".toList ++ crop ++ " src=\"".toList ++ xmlEscape (fileUri path) ++
        "\"/>".toList
    | _, _ => []
  let attribution :=
    (toast.attribution.map fun a =>
      "<text placement=\"attribution\">".toList ++ xmlEscape a ++ "</text>".toList).getD []
  let actions :=
    match toast.actionLabel, toast.actionUrl with
    | some label, some url =>
      match validate parse url with
      | some valid =>
        "<actions><action content=\"".toList ++ xmlEscape label ++ "\" arguments=\"".toList ++ xmlEscape valid.asStr ++
          "\" activationType=\"protocol\"/></actions>".toList
      | none => []
    | _, _ => []
  "<toast><visual><binding template=\"ToastGeneric\">".toList ++ image ++ "<text>".toList ++ xmlEscape toast.title ++
    "</text><text>".toList ++ xmlEscape toast.message ++ "</text>".toList ++ attribution ++
    "</binding></visual>".toList ++ actions ++ "</toast>".toList

end

/-! ## Go -/

/-- `xmlEscaper`: a replacer of single characters works in one pass -/
def xmlEscaper (c : Char) : Str :=
  match c with
  | '&' => "&amp;".toList
  | '<' => "&lt;".toList
  | '>' => "&gt;".toList
  | '"' => "&quot;".toList
  | '\'' => "&apos;".toList
  | c => [c]

def XMLEscape (s : Str) : Str := s.flatMap xmlEscaper

/-- what `httpsurl.Valid` reads of a parsed `net/url.URL` -/
structure NetUrl where
  isAbs : Bool
  scheme : Str
  hostname : Str
  /-- `User != nil` -/
  hasUser : Bool

/-- `httpsurl.Valid`, over `net/url.Parse` -/
def valid (parse : Str → Option NetUrl) (rawURL : Str) : Bool :=
  if rawURL.isEmpty || decide (rawURL.length > maxUrlLength) then false
  else
    match parse rawURL with
    | none => false
    | some u =>
      if !u.isAbs || decide (u.scheme ≠ "https".toList) then false
      else if u.hostname.isEmpty then false
      else if u.hasUser then false
      else true

/-- Go's `ToastRequest`, without its sources; the empty string stands for an absent field -/
structure GoToastRequest where
  title : Str
  message : Str
  attribution : Str
  image : Option ImageRef
  actionLabel : Str
  actionURL : Str

/-- `fileURI` -/
def fileURI (path : Str) : Str :=
  let p := stripSlash (replace ['\\'] ['/'] path)
  "file:///".toList ++ (utf8 p).flatMap percentByte

/-- `BuildToastXML` -/
def BuildToastXML (parse : Str → Option NetUrl) (req : GoToastRequest) (cachedImagePath : Str) : Str :=
  let image :=
    match req.image with
    | some img =>
      if cachedImagePath ≠ [] then
        let crop := if img.shape = .circle then " hint-crop=\"circle\"".toList else []
        "<image placement=\"appLogoOverride\"".toList ++ crop ++ " src=\"".toList ++
          XMLEscape (fileURI cachedImagePath) ++ "\"/>".toList
      else []
    | none => []
  let attribution :=
    if req.attribution ≠ [] then
      "<text placement=\"attribution\">".toList ++ XMLEscape req.attribution ++ "</text>".toList
    else []
  let actions :=
    if req.actionLabel ≠ [] ∧ req.actionURL ≠ [] ∧ valid parse req.actionURL then
      "<actions><action content=\"".toList ++ XMLEscape req.actionLabel ++ "\" arguments=\"".toList ++
        XMLEscape req.actionURL ++ "\" activationType=\"protocol\"/></actions>".toList
    else []
  "<toast><visual><binding template=\"ToastGeneric\">".toList ++ image ++ "<text>".toList ++ XMLEscape req.title ++
    "</text><text>".toList ++ XMLEscape req.message ++ "</text>".toList ++ attribution ++
    "</binding></visual>".toList ++ actions ++ "</toast>".toList

/-! ## Escaping -/

/-- **Go's one pass is the writer's escaping.** -/
theorem XMLEscape_eq (s : Str) : XMLEscape s = escape s := by
  unfold XMLEscape escape
  congr 1
  funext c
  unfold escapeChar
  split_ifs with h1 h2 h3 h4 h5
  · subst h1; decide
  · subst h2; decide
  · subst h3; decide
  · subst h4; decide
  · subst h5; decide
  · unfold xmlEscaper
    split
    · exact absurd rfl h1
    · exact absurd rfl h2
    · exact absurd rfl h3
    · exact absurd rfl h4
    · exact absurd rfl h5
    · rfl

/-- **Rust's five replacements are the writer's escaping**: only the first can meet an ampersand, and no later pattern
is in a text that an earlier one put in. -/
theorem xmlEscape_eq (s : Str) : xmlEscape s = escape s := by
  have hchars : s = s.flatMap fun c => [c] := by simp
  unfold xmlEscape escape
  conv_lhs => rw [hchars]
  simp only [replace_single_flatMap]
  congr 1
  funext c
  unfold escapeChar
  split_ifs with h1 h2 h3 h4 h5
  · subst h1; decide
  · subst h2; decide
  · subst h3; decide
  · subst h4; decide
  · subst h5; decide
  · rw [replace_single_of_ne h1, replace_single_of_ne h2, replace_single_of_ne h3, replace_single_of_ne h4,
      replace_single_of_ne h5]

/-! ## The document -/

/-- what a toast document says -/
structure Doc where
  image : Option (ImageShape × Str)
  title : Str
  message : Str
  attribution : Option Str
  /-- label and link of the button -/
  action : Option (Str × Str)

def imageAttrs (shape : ImageShape) (src : Str) : Attrs :=
  ("placement".toList, "appLogoOverride".toList) ::
    ((if shape = .circle then [("hint-crop".toList, "circle".toList)] else []) ++ [("src".toList, src)])

def actionAttrs (label link : Str) : Attrs :=
  [("content".toList, label), ("arguments".toList, link), ("activationType".toList, "protocol".toList)]

def imageTokens (image : Option (ImageShape × Str)) : List Token :=
  (image.map fun i => [Token.empty "image".toList (imageAttrs i.1 i.2)]).getD []

def textTokens (attrs : Attrs) (s : Str) : List Token :=
  [.start "text".toList attrs, .text s, .close "text".toList]

def attributionTokens (attribution : Option Str) : List Token :=
  (attribution.map (textTokens [("placement".toList, "attribution".toList)])).getD []

def actionTokens (action : Option (Str × Str)) : List Token :=
  (action.map fun a =>
    [Token.start "actions".toList [], .empty "action".toList (actionAttrs a.1 a.2), .close "actions".toList]).getD []

/-- from the start of the document into the binding element -/
def opening : List Token :=
  [.start "toast".toList [], .start "visual".toList [],
    .start "binding".toList [("template".toList, "ToastGeneric".toList)]]

def bindingEnd : List Token := [.close "binding".toList, .close "visual".toList]

def ending : List Token := [.close "toast".toList]

def docTokens (d : Doc) : List Token :=
  opening ++ imageTokens d.image ++ textTokens [] d.title ++ textTokens [] d.message ++
    attributionTokens d.attribution ++ bindingEnd ++ actionTokens d.action ++ ending

def textNode (attrs : Attrs) (s : Str) : Node := .elem "text".toList attrs (textNodes s)

/-- the children of the binding element -/
def bindingNodes (d : Doc) : List Node :=
  (d.image.map fun i => Node.elem "image".toList (imageAttrs i.1 i.2) []).toList ++
    [textNode [] d.title, textNode [] d.message] ++
    (d.attribution.map (textNode [("placement".toList, "attribution".toList)])).toList

/-- the tree of the fixed shape -/
def docTree (d : Doc) : Node :=
  .elem "toast".toList []
    (.elem "visual".toList [] [.elem "binding".toList [("template".toList, "ToastGeneric".toList)] (bindingNodes d)] ::
      (d.action.map fun a =>
        Node.elem "actions".toList [] [.elem "action".toList (actionAttrs a.1 a.2) []]).toList)

/-- the button of a toast: label and link if both are given and the link passes the policy -/
def actionOf {E : Type} (parse : Str → Option Url) (toast : ToastRequest E) : Option (Str × Str) :=
  toast.actionLabel.bind fun label =>
    (toast.actionUrl.bind (validate parse)).map fun valid => (label, valid.asStr)

/-- what Rust's document says -/
def docOf {E : Type} (parse : Str → Option Url) (toast : ToastRequest E) (imagePath : Option Str) : Doc where
  image := imagePath.bind fun path => toast.image.map fun i => (i.shape, fileUri path)
  title := toast.title
  message := toast.message
  attribution := toast.attribution
  action := actionOf parse toast

/-- what Go's document says -/
def goDocOf (parse : Str → Option NetUrl) (req : GoToastRequest) (cachedImagePath : Str) : Doc where
  image := if cachedImagePath ≠ [] then req.image.map fun i => (i.shape, fileURI cachedImagePath) else none
  title := req.title
  message := req.message
  attribution := if req.attribution ≠ [] then some req.attribution else none
  action :=
    if req.actionLabel ≠ [] ∧ req.actionURL ≠ [] ∧ valid parse req.actionURL then
      some (req.actionLabel, req.actionURL)
    else none

/-! ## What is written -/

theorem emit_text (s : Str) : emitAll (textTokens [] s) = "<text>".toList ++ escape s ++ "</text>".toList := by
  rw [List.append_assoc]
  rfl

theorem emit_attribution (s : Str) :
    emitAll (attributionTokens (some s)) =
      "<text placement=\"attribution\">".toList ++ escape s ++ "</text>".toList := by
  rw [List.append_assoc]
  rfl

theorem emit_action (label link : Str) :
    emitAll (actionTokens (some (label, link))) =
      "<actions><action content=\"".toList ++ escape label ++ "\" arguments=\"".toList ++ escape link ++
        "\" activationType=\"protocol\"/></actions>".toList := by
  simp only [List.append_assoc]
  change emit _ ++ (emit (.empty "action".toList (actionAttrs label link)) ++ (emit _ ++ [])) = _
  rw [emit_empty_append, actionAttrs, emitAttrs_cons_append, emitAttrs_cons_append, emitAttrs_cons_append]
  rfl

theorem emit_image (shape : ImageShape) (src : Str) :
    emitAll (imageTokens (some (shape, src))) =
      "<image placement=\"appLogoOverride\"".toList ++
        (if shape = .circle then " hint-crop=\"circle\"".toList else []) ++ " src=\"".toList ++ escape src ++
        "\"/>".toList := by
  simp only [List.append_assoc]
  change emit (.empty "image".toList (imageAttrs shape src)) ++ [] = _
  rw [emit_empty_append, imageAttrs, emitAttrs_cons_append]
  cases shape with
  | circle =>
    rw [if_pos rfl, if_pos rfl, List.singleton_append, emitAttrs_cons_append, emitAttrs_cons_append]
    rfl
  | square =>
    rw [if_neg (by decide), if_neg (by decide), List.nil_append, emitAttrs_cons_append]
    rfl

/-- a document, piece by piece -/
theorem emit_doc (d : Doc) :
    emitAll (docTokens d) =
      "<toast><visual><binding template=\"ToastGeneric\">".toList ++ emitAll (imageTokens d.image) ++ "<text>".toList ++
        escape d.title ++ "</text><text>".toList ++ escape d.message ++ "</text>".toList ++
        emitAll (attributionTokens d.attribution) ++ "</binding></visual>".toList ++ emitAll (actionTokens d.action) ++
        "</toast>".toList := by
  have hfront : emitAll opening = "<toast><visual><binding template=\"ToastGeneric\">".toList := by decide
  have hmiddle : emitAll bindingEnd = "</binding></visual>".toList := by decide
  have hback : emitAll ending = "</toast>".toList := by decide
  have hjoin : "</text><text>".toList = "</text>".toList ++ "<text>".toList := by decide
  simp only [docTokens, emitAll_append, emit_text, hfront, hmiddle, hback, hjoin, List.append_assoc]

/-- **Rust writes the tokens of its document.** -/
theorem buildToastXml_eq {E : Type} (parse : Str → Option Url) (toast : ToastRequest E) (imagePath : Option Str) :
    buildToastXml parse toast imagePath = emitAll (docTokens (docOf parse toast imagePath)) := by
  have himage : (match imagePath, toast.image with
      | some path, some imageRef =>
        "<image placement=\"appLogoOverride\"".toList ++ (match imageRef.shape with
          | .circle => " hint-crop=\"circle\"".toList
          | .square => []) ++ " src=\"".toList ++ xmlEscape (fileUri path) ++ "\"/>".toList
      | _, _ => []) = emitAll (imageTokens (docOf parse toast imagePath).image) := by
    cases imagePath with
    | none => rfl
    | some path =>
      cases hi : toast.image with
      | none => simp [docOf, hi, imageTokens, emitAll]
      | some i =>
        simp only [docOf, hi, Option.bind_some, Option.map_some, emit_image, xmlEscape_eq]
        cases i.shape <;> rfl
  have hattr : (toast.attribution.map fun a =>
      "<text placement=\"attribution\">".toList ++ xmlEscape a ++ "</text>".toList).getD [] =
      emitAll (attributionTokens (docOf parse toast imagePath).attribution) := by
    cases ha : toast.attribution with
    | none => simp [docOf, ha, attributionTokens, emitAll]
    | some a => simp only [docOf, ha, Option.map_some, Option.getD_some, emit_attribution, xmlEscape_eq]
  have haction : (match toast.actionLabel, toast.actionUrl with
      | some label, some url =>
        match validate parse url with
        | some valid =>
          "<actions><action content=\"".toList ++ xmlEscape label ++ "\" arguments=\"".toList ++
            xmlEscape valid.asStr ++ "\" activationType=\"protocol\"/></actions>".toList
        | none => []
      | _, _ => []) = emitAll (actionTokens (docOf parse toast imagePath).action) := by
    cases hl : toast.actionLabel with
    | none => simp [docOf, actionOf, hl, actionTokens, emitAll]
    | some label =>
      cases hu : toast.actionUrl with
      | none => simp [docOf, actionOf, hl, hu, actionTokens, emitAll]
      | some url =>
        cases hv : validate parse url with
        | none => simp [docOf, actionOf, hl, hu, hv, actionTokens, emitAll]
        | some v =>
          simp only [docOf, actionOf, hl, hu, hv, Option.bind_some, Option.map_some, emit_action, xmlEscape_eq]
  rw [emit_doc, ← himage, ← hattr, ← haction]
  simp only [docOf, ← xmlEscape_eq]
  rfl

/-- **Go writes the tokens of its document.** -/
theorem BuildToastXML_eq (parse : Str → Option NetUrl) (req : GoToastRequest) (cachedImagePath : Str) :
    BuildToastXML parse req cachedImagePath = emitAll (docTokens (goDocOf parse req cachedImagePath)) := by
  have himage : (match req.image with
      | some img =>
        if cachedImagePath ≠ [] then
          "<image placement=\"appLogoOverride\"".toList ++
            (if img.shape = .circle then " hint-crop=\"circle\"".toList else []) ++ " src=\"".toList ++
            XMLEscape (fileURI cachedImagePath) ++ "\"/>".toList
        else []
      | none => []) = emitAll (imageTokens (goDocOf parse req cachedImagePath).image) := by
    change _ = emitAll (imageTokens
      (if cachedImagePath ≠ [] then req.image.map fun i => (i.shape, fileURI cachedImagePath) else none))
    cases req.image with
    | none => split_ifs <;> rfl
    | some i =>
      by_cases hp : cachedImagePath ≠ []
      · simp only [if_pos hp, Option.map_some, emit_image, XMLEscape_eq]
      · simp only [if_neg hp]
        rfl
  have hattr : (if req.attribution ≠ [] then
      "<text placement=\"attribution\">".toList ++ XMLEscape req.attribution ++ "</text>".toList
      else []) = emitAll (attributionTokens (goDocOf parse req cachedImagePath).attribution) := by
    change _ = emitAll (attributionTokens (if req.attribution ≠ [] then some req.attribution else none))
    split_ifs
    · rw [emit_attribution, XMLEscape_eq]
    · rfl
  have haction : (if req.actionLabel ≠ [] ∧ req.actionURL ≠ [] ∧ valid parse req.actionURL then
      "<actions><action content=\"".toList ++ XMLEscape req.actionLabel ++ "\" arguments=\"".toList ++
        XMLEscape req.actionURL ++ "\" activationType=\"protocol\"/></actions>".toList
      else []) = emitAll (actionTokens (goDocOf parse req cachedImagePath).action) := by
    change _ = emitAll (actionTokens (if req.actionLabel ≠ [] ∧ req.actionURL ≠ [] ∧ valid parse req.actionURL then
      some (req.actionLabel, req.actionURL) else none))
    split_ifs
    · rw [emit_action, XMLEscape_eq, XMLEscape_eq]
    · rfl
  rw [emit_doc, ← himage, ← hattr, ← haction]
  simp only [goDocOf, ← XMLEscape_eq]
  rfl

/-! ## What is read -/

theorem goodAttrs_image (shape : ImageShape) (src : Str) : GoodAttrs (imageAttrs shape src) := by
  have hnames : (imageAttrs shape src).map Prod.fst = if shape = .circle then
      ["placement".toList, "hint-crop".toList, "src".toList] else ["placement".toList, "src".toList] := by
    cases shape <;> rfl
  unfold GoodAttrs
  rw [hnames]
  cases shape <;> decide

theorem goodAttrs_action (label link : Str) : GoodAttrs (actionAttrs label link) := by
  have hnames : (actionAttrs label link).map Prod.fst =
      ["content".toList, "arguments".toList, "activationType".toList] := rfl
  unfold GoodAttrs
  rw [hnames]
  decide

theorem goodAttrs_nil : GoodAttrs [] := ⟨by simp, by simp⟩

theorem goodAttrs_attribution : GoodAttrs [("placement".toList, "attribution".toList)] := by
  unfold GoodAttrs
  decide

theorem goodAttrs_template : GoodAttrs [("template".toList, "ToastGeneric".toList)] := by
  unfold GoodAttrs
  decide

theorem good_textTokens {attrs : Attrs} (h : GoodAttrs attrs) (s : Str) : ∀ t ∈ textTokens attrs s, Good t := by
  intro t ht
  simp only [textTokens, List.mem_cons, List.not_mem_nil, or_false] at ht
  have hname : isName "text".toList = true := by decide
  rcases ht with rfl | rfl | rfl
  · exact ⟨hname, h⟩
  · trivial
  · exact hname

theorem good_docTokens (d : Doc) : ∀ t ∈ docTokens d, Good t := by
  have himage : ∀ t ∈ imageTokens d.image, Good t := by
    cases d.image with
    | none => simp [imageTokens]
    | some i =>
      intro t ht
      rw [List.mem_singleton.1 ht]
      exact ⟨by decide, goodAttrs_image _ _⟩
  have hattribution : ∀ t ∈ attributionTokens d.attribution, Good t := by
    cases d.attribution with
    | none => simp [attributionTokens]
    | some a => exact good_textTokens goodAttrs_attribution a
  have haction : ∀ t ∈ actionTokens d.action, Good t := by
    cases d.action with
    | none => simp [actionTokens]
    | some a =>
      intro t ht
      have hname : isName "actions".toList = true := by decide
      rcases List.mem_cons.1 ht with rfl | ht
      · exact ⟨hname, goodAttrs_nil⟩
      rcases List.mem_cons.1 ht with rfl | ht
      · exact ⟨by decide, goodAttrs_action _ _⟩
      · rw [List.mem_singleton.1 ht]
        exact hname
  have htext : ∀ s, ∀ t ∈ textTokens [] s, Good t := good_textTokens goodAttrs_nil
  have hnames : isName "toast".toList = true ∧ isName "visual".toList = true ∧ isName "binding".toList = true := by
    decide
  intro t ht
  simp only [docTokens, List.mem_append] at ht
  rcases ht with ((((((ht | ht) | ht) | ht) | ht) | ht) | ht) | ht
  · simp only [opening, List.mem_cons, List.not_mem_nil, or_false] at ht
    rcases ht with rfl | rfl | rfl
    · exact ⟨hnames.1, goodAttrs_nil⟩
    · exact ⟨hnames.2.1, goodAttrs_nil⟩
    · exact ⟨hnames.2.2, goodAttrs_template⟩
  · exact himage t ht
  · exact htext _ t ht
  · exact htext _ t ht
  · exact hattribution t ht
  · simp only [bindingEnd, List.mem_cons, List.not_mem_nil, or_false] at ht
    rcases ht with rfl | rfl
    · exact hnames.2.2
    · exact hnames.2.1
  · exact haction t ht
  · rw [List.mem_singleton.1 ht]
    exact hnames.1

/-! ## The tree -/

section
variable (ts : List Token)

theorem coalesce_text (attrs : Attrs) (s : Str) :
    coalesce [] (textTokens attrs s ++ ts) =
      (.start "text".toList attrs :: (flush s ++ [.close "text".toList])) ++ coalesce [] ts := by
  simp only [textTokens, List.cons_append, List.nil_append, coalesce, List.append_assoc]
  rfl

theorem coalesce_image (image : Option (ImageShape × Str)) :
    coalesce [] (imageTokens image ++ ts) = imageTokens image ++ coalesce [] ts := by
  cases image <;> rfl

theorem coalesce_action (action : Option (Str × Str)) :
    coalesce [] (actionTokens action ++ ts) = actionTokens action ++ coalesce [] ts := by
  cases action <;> rfl

end

section
variable (top : Frame) (rest : List Frame)

theorem build_image (image : Option (ImageShape × Str)) :
    buildFrom ⟨top :: rest, none⟩ (imageTokens image) =
      some ⟨{ top with children := top.children ++
        (image.map fun i => Node.elem "image".toList (imageAttrs i.1 i.2) []).toList } :: rest, none⟩ := by
  cases image with
  | none => simp [imageTokens, buildFrom]
  | some i => rfl

theorem build_text (s : Str) (ts : List Token) :
    buildFrom ⟨top :: rest, none⟩ (coalesce [] (textTokens [] s ++ ts)) =
      buildFrom ⟨{ top with children := top.children ++ [textNode [] s] } :: rest, none⟩ (coalesce [] ts) := by
  rw [coalesce_text, buildFrom_append, buildFrom_leaf, Option.bind_some]
  rfl

theorem build_attribution (attribution : Option Str) (ts : List Token) :
    buildFrom ⟨top :: rest, none⟩ (coalesce [] (attributionTokens attribution ++ ts)) =
      buildFrom ⟨{ top with children := top.children ++
        (attribution.map (textNode [("placement".toList, "attribution".toList)])).toList } :: rest, none⟩
        (coalesce [] ts) := by
  cases attribution with
  | none => simp [attributionTokens]
  | some a =>
    simp only [attributionTokens, Option.map_some, Option.getD_some, coalesce_text, buildFrom_append, buildFrom_leaf,
      Option.bind_some]
    rfl

theorem build_action (action : Option (Str × Str)) :
    buildFrom ⟨top :: rest, none⟩ (actionTokens action) =
      some ⟨{ top with children := top.children ++ (action.map fun a =>
        Node.elem "actions".toList [] [.elem "action".toList (actionAttrs a.1 a.2) []]).toList } :: rest, none⟩ := by
  cases action with
  | none => simp [actionTokens, buildFrom]
  | some a => rfl

end

/-- the frames inside the binding element, with what it holds -/
def inBinding (children : List Node) : Forest :=
  ⟨[⟨"binding".toList, [("template".toList, "ToastGeneric".toList)], children⟩, ⟨"visual".toList, [], []⟩,
    ⟨"toast".toList, [], []⟩], none⟩

/-- the end of the document, from inside the binding element -/
theorem build_end (children : List Node) (action : Option (Str × Str)) :
    buildFrom (inBinding children) (coalesce [] (bindingEnd ++ (actionTokens action ++ ending))) =
      some ⟨[], some (.elem "toast".toList []
        (.elem "visual".toList []
            [.elem "binding".toList [("template".toList, "ToastGeneric".toList)] children] ::
          (action.map fun a =>
            Node.elem "actions".toList [] [.elem "action".toList (actionAttrs a.1 a.2) []]).toList))⟩ := by
  have hsplit : coalesce [] (bindingEnd ++ (actionTokens action ++ ending)) =
      bindingEnd ++ coalesce [] (actionTokens action ++ ending) := rfl
  have hclose : buildFrom (inBinding children) bindingEnd = some ⟨[⟨"toast".toList, [], [.elem "visual".toList []
      [.elem "binding".toList [("template".toList, "ToastGeneric".toList)] children]]⟩], none⟩ := rfl
  rw [hsplit, buildFrom_append, hclose, Option.bind_some, coalesce_action, buildFrom_append, build_action]
  rfl

/-- **A written document reads to its tree.** -/
theorem parse_docTokens (d : Doc) : parse (emitAll (docTokens d)) = some (docTree d) := by
  have hsplit : coalesce [] (docTokens d) =
      opening ++ coalesce [] (imageTokens d.image ++ (textTokens [] d.title ++ (textTokens [] d.message ++
        (attributionTokens d.attribution ++ (bindingEnd ++ (actionTokens d.action ++ ending)))))) := by
    simp only [docTokens, List.append_assoc]
    rfl
  have hfront : buildFrom ⟨[], none⟩ opening = some (inBinding []) := rfl
  rw [parse, tokens_emit (good_docTokens d), Option.bind_some, build, hsplit, buildFrom_append, hfront,
    Option.bind_some, coalesce_image, buildFrom_append, inBinding, build_image, Option.bind_some, build_text,
    build_text,
    build_attribution]
  have hend := build_end (bindingNodes d) d.action
  obtain ⟨image, title, message, attribution, action⟩ := d
  have hkids : (([] : List Node) ++ (image.map fun i => Node.elem "image".toList (imageAttrs i.1 i.2) []).toList ++
      [textNode [] title] ++ [textNode [] message] ++
      (attribution.map (textNode [("placement".toList, "attribution".toList)])).toList) =
      bindingNodes ⟨image, title, message, attribution, action⟩ := by
    cases image <;> rfl
  simp only [hkids]
  rw [inBinding] at hend
  rw [hend]
  rfl

end NotifyAgent.ToastXml
