/-
Can the text of an event change the markup of its toast?

- `document_tree`: whatever the fields of a request are, what Rust and Go write reads to exactly one tree, the tree of
  the fixed shape (`docTree`), with the fields as decoded text and attribute values; and the two escapings agree on
  every string;
- `skeleton_docTree`: the elements and attribute names of that tree depend only on which parts are present, never on
  what they contain.
-/
import Mathlib.Tactic
import NotifyAgent.Core.ToastXml

namespace NotifyAgent.ToastTree

open NotifyAgent.Text NotifyAgent.Notification NotifyAgent.ActionUrl NotifyAgent.ToastXml
open NotifyAgent.Lib.Xml

/-- the elements of a tree and the names of their attributes, without texts and values -/
inductive Skeleton where
  | elem (name : Text) (attrs : List Text) (children : List Skeleton)

mutual

def skeleton : Node → List Skeleton
  | .text _ => []
  | .elem name attrs children => [.elem name (attrs.map Prod.fst) (skeletons children)]

def skeletons : List Node → List Skeleton
  | [] => []
  | n :: ns => skeleton n ++ skeletons ns

end

theorem skeletons_append (a b : List Node) : skeletons (a ++ b) = skeletons a ++ skeletons b := by
  induction a with
  | nil => rfl
  | cons n a ih => simp [skeletons, ih]

theorem skeleton_textNode (attrs : Attrs) (s : Str) :
    skeleton (textNode attrs s) = [.elem "text".toList (attrs.map Prod.fst) []] := by
  unfold textNode textNodes
  split_ifs <;> simp [skeleton, skeletons]

/-- which parts a document has -/
def parts (d : Doc) : Option ImageShape × Bool × Bool := (d.image.map Prod.fst, d.attribution.isSome, d.action.isSome)

theorem skeletons_image (image : Option (ImageShape × Str)) :
    skeletons (image.map fun i => Node.elem "image".toList (imageAttrs i.1 i.2) []).toList =
      ((image.map Prod.fst).map fun shape =>
        Skeleton.elem "image".toList ((imageAttrs shape []).map Prod.fst) []).toList
    := by
  cases image with
  | none => rfl
  | some i => obtain ⟨shape, src⟩ := i; cases shape <;> rfl

theorem skeletons_attribution (attribution : Option Str) :
    skeletons (attribution.map (textNode [("placement".toList, "attribution".toList)])).toList =
      if attribution.isSome then [.elem "text".toList ["placement".toList] []] else [] := by
  cases attribution with
  | none => rfl
  | some a =>
    simp only [Option.map_some, Option.toList_some, Option.isSome_some, if_true, skeletons, skeleton_textNode]
    rfl

theorem skeletons_action (action : Option (Str × Str)) :
    skeletons (action.map fun a =>
        Node.elem "actions".toList [] [.elem "action".toList (actionAttrs a.1 a.2) []]).toList =
      if action.isSome then
        [.elem "actions".toList [] [.elem "action".toList ["content".toList, "arguments".toList,
          "activationType".toList] []]]
      else [] := by
  cases action <;> rfl

/-- **Contents cannot change the markup.** -/
theorem skeleton_docTree {d d' : Doc} (h : parts d = parts d') : skeleton (docTree d) = skeleton (docTree d') := by
  simp only [parts, Prod.mk.injEq] at h
  obtain ⟨himage, hattribution, haction⟩ := h
  have hbinding : skeletons (bindingNodes d) = skeletons (bindingNodes d') := by
    simp only [bindingNodes, skeletons_append, skeletons_image, skeletons_attribution, himage, hattribution, skeletons,
      skeleton_textNode]
  simp only [docTree, skeleton, skeletons, skeletons_action, haction, hbinding]

/-- **One tree, of the fixed shape.** -/
theorem document_tree :
    (∀ (E : Type) (urlParse : Str → Option Url) (toast : ToastRequest E) (imagePath : Option Str),
      parse (buildToastXml urlParse toast imagePath) = some (docTree (docOf urlParse toast imagePath))) ∧
    (∀ (urlParse : Str → Option NetUrl) (req : GoToastRequest) (cachedImagePath : Str),
      parse (BuildToastXML urlParse req cachedImagePath) = some (docTree (goDocOf urlParse req cachedImagePath))) ∧
    (∀ d d' : Doc, parts d = parts d' → skeleton (docTree d) = skeleton (docTree d')) ∧
    ∀ s : Str, xmlEscape s = XMLEscape s := by
  refine ⟨fun E urlParse toast imagePath => ?_, fun urlParse req cachedImagePath => ?_,
    fun d d' => skeleton_docTree, fun s => ?_⟩
  · rw [buildToastXml_eq, parse_docTokens]
  · rw [BuildToastXML_eq, parse_docTokens]
  · rw [xmlEscape_eq, XMLEscape_eq]

end NotifyAgent.ToastTree
