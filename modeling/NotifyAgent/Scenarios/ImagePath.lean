/-
The path of a cached image as a `file:` URI, in Rust (`file_uri`) and Go (`fileURI`).

- `file_uri_round_trip`: a URI holds URI characters and escapes only and decodes to the bytes of the path, but for
  backslashes and one leading slash; paths that differ otherwise have different URIs; XML escaping leaves it alone.
-/
import Mathlib.Tactic
import NotifyAgent.Core.ToastXml
import NotifyAgent.Lib.Percent

namespace NotifyAgent.ImagePath

open NotifyAgent.Text NotifyAgent.ToastXml
open NotifyAgent.Lib
open NotifyAgent.Lib.Replace (replace_single)

/-! ## Specification -/

/-- letters, digits and `-._~/:` -/
def UriChar (c : Char) : Prop := c.isAlphanum = true ∨ c ∈ ['-', '.', '_', '~', '/', ':']

instance : DecidablePred UriChar := fun _ => inferInstanceAs (Decidable (_ ∨ _))

/-- forward slashes only, and one at the front removed -/
def normalized (path : Str) : Str := stripSlash (path.map fun c => if c = '\\' then '/' else c)

/-! ## The encoding -/

theorem replace_backslash (path : Str) :
    Replace.replace ['\\'] ['/'] path = path.map fun c => if c = '\\' then '/' else c := by
  rw [replace_single, List.map_eq_flatMap]
  congr 1
  funext c
  split_ifs <;> rfl

theorem fileUri_eq (path : Str) :
    fileUri path = "file:///".toList ++ Percent.encode unreserved (utf8 (normalized path)) := by
  unfold fileUri normalized
  rw [replace_backslash]
  rfl

theorem unreserved_cases {b : UInt8} (hb : unreserved b = true) :
    (0x41 ≤ b.toNat ∧ b.toNat ≤ 0x5A) ∨ (0x61 ≤ b.toNat ∧ b.toNat ≤ 0x7A) ∨ (0x30 ≤ b.toNat ∧ b.toNat ≤ 0x39) ∨
      b.toNat = 0x2D ∨ b.toNat = 0x2E ∨ b.toNat = 0x5F ∨ b.toNat = 0x7E ∨ b.toNat = 0x2F ∨ b.toNat = 0x3A := by
  simp only [unreserved, Bool.or_eq_true, Bool.and_eq_true, decide_eq_true_eq, beq_iff_eq, UInt8.le_iff_toNat_le,
    ← UInt8.toNat_inj] at hb
  simpa [or_assoc] using hb

theorem plain_unreserved : Percent.Plain unreserved := by
  intro b hb
  have hcases := unreserved_cases hb
  omega

theorem uriChar_ofNat {b : UInt8} (hb : unreserved b = true) : UriChar (Char.ofNat b.toNat) := by
  have hall : ∀ n < 0x80, ((0x41 ≤ n ∧ n ≤ 0x5A) ∨ (0x61 ≤ n ∧ n ≤ 0x7A) ∨ (0x30 ≤ n ∧ n ≤ 0x39) ∨
      n = 0x2D ∨ n = 0x2E ∨ n = 0x5F ∨ n = 0x7E ∨ n = 0x2F ∨ n = 0x3A) → UriChar (Char.ofNat n) := by
    decide
  exact hall b.toNat (plain_unreserved b hb).1 (unreserved_cases hb)

/-! ## Paths apart -/

theorem utf8_injective : Function.Injective utf8 := by
  intro a b h
  have hencode : a.utf8Encode = b.utf8Encode := by
    calc a.utf8Encode = (utf8 a).toByteArray := rfl
      _ = (utf8 b).toByteArray := by rw [h]
      _ = b.utf8Encode := rfl
  have hdecode := @List.utf8Decode?_utf8Encode a
  rw [hencode, List.utf8Decode?_utf8Encode] at hdecode
  simpa using hdecode.symm

theorem fileUri_inj {a b : Str} : fileUri a = fileUri b ↔ normalized a = normalized b := by
  rw [fileUri_eq, fileUri_eq, List.append_cancel_left_eq]
  constructor
  · intro h
    apply utf8_injective
    exact Percent.encode_injective plain_unreserved h
  · intro h
    rw [h]

/-! ## XML escaping -/

/-- no character that XML reserves -/
def XmlSafe (c : Char) : Prop := Xml.escapeChar c = [c]

theorem xmlEscape_of_safe {s : Str} (h : ∀ c ∈ s, XmlSafe c) : xmlEscape s = s := by
  rw [xmlEscape_eq]
  unfold Xml.escape
  induction s with
  | nil => rfl
  | cons c s ih =>
    rw [List.flatMap_cons, h c List.mem_cons_self, ih fun d hd => h d (List.mem_cons_of_mem _ hd)]
    rfl

theorem xmlSafe_of_uriChar {c : Char} (h : UriChar c ∨ c = '%' ∨ (Percent.digitValue c).isSome) : XmlSafe c := by
  have hne : c ≠ '&' ∧ c ≠ '<' ∧ c ≠ '>' ∧ c ≠ '"' ∧ c ≠ '\'' := by
    refine ⟨?_, ?_, ?_, ?_, ?_⟩ <;> (rintro rfl; revert h; decide)
  obtain ⟨hamp, hlt, hgt, hquote, hapos⟩ := hne
  unfold XmlSafe Xml.escapeChar
  rw [if_neg hamp, if_neg hlt, if_neg hgt, if_neg hquote, if_neg hapos]

theorem escaped_rest (path : Str) : Percent.Escaped UriChar (Percent.encode unreserved (utf8 (normalized path))) :=
  Percent.escaped_encode (fun _ hb => uriChar_ofNat hb) _

theorem xmlEscape_fileUri (path : Str) : xmlEscape (fileUri path) = fileUri path := by
  apply xmlEscape_of_safe
  intro c hc
  rw [fileUri_eq] at hc
  rcases List.mem_append.1 hc with hscheme | hrest
  · apply xmlSafe_of_uriChar
    left
    have hall : ∀ c ∈ "file:///".toList, UriChar c := forall_of_all (by decide)
    exact hall c hscheme
  · exact xmlSafe_of_uriChar ((escaped_rest path).forall c hrest)

/-! ## Result -/

/-- **File URIs keep the path.** Over every path: what follows the scheme is well formed and decodes to the bytes of the
normalised path, so that only paths that agree after normalisation share a URI; XML escaping changes nothing in it, and
Go writes the same one. -/
theorem file_uri_round_trip :
    (∀ path, ∃ rest, fileUri path = "file:///".toList ++ rest ∧ Percent.Escaped UriChar rest ∧
      Percent.decode rest = some (utf8 (normalized path)) ∧ xmlEscape (fileUri path) = fileUri path ∧
      fileURI path = fileUri path) ∧
    ∀ a b, fileUri a = fileUri b ↔ normalized a = normalized b := by
  refine ⟨fun path => ?_, fun a b => fileUri_inj⟩
  refine ⟨Percent.encode unreserved (utf8 (normalized path)), fileUri_eq path, escaped_rest path, ?_,
    xmlEscape_fileUri path, rfl⟩
  exact Percent.decode_encode plain_unreserved _

/-- a drive letter, backslashes and a space -/
example : String.ofList (fileUri "C:\\a b".toList) = "file:///C:/a%20b" := by decide

end NotifyAgent.ImagePath
