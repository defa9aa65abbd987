/-
What PowerShell gets of a toast. Whatever the texts of a toast are, nothing of them is on the command line, and the XML
that the script loads is the XML that was built. The application's name is read back from its literal unless it has a
typographic quote, which the script does not double.

- `commandText_encodeCommand`: the script survives the command line;
- `xmlText_buildStdinPayload`: the XML survives the pipe;
- `literal_iff`: when the literal is read back;
- `toast_transport`: all of it, for every toast.
-/
import Mathlib.Tactic
import NotifyAgent.Core.ToastScript

namespace NotifyAgent.ToastTransport

open NotifyAgent.Text NotifyAgent.ToastXml NotifyAgent.ToastScript
open NotifyAgent.Lib
open NotifyAgent.Lib.Replace (replace)

/-! ## The command line -/

theorem units_putUint16 (us : List UInt16) : units (us.flatMap putUint16) = some us := by
  induction us with
  | nil => rfl
  | cons u us ih =>
    have hu := u.toNat_lt
    have hlo : (UInt8.ofNat (u.toNat % 256)).toNat = u.toNat % 256 := by
      rw [UInt8.toNat_ofNat']
      exact Nat.mod_eq_of_lt (by omega)
    have hhi : (UInt8.ofNat (u.toNat / 256)).toNat = u.toNat / 256 := by
      rw [UInt8.toNat_ofNat']
      exact Nat.mod_eq_of_lt (by omega)
    rw [List.flatMap_cons, putUint16, List.cons_append, List.cons_append, List.nil_append, units, ih, hlo, hhi,
      Nat.mod_add_div, UInt16.ofNat_toNat]
    rfl

theorem mapM_getLeft {α β : Type} (s : List α) : (s.map (Sum.inl : α → α ⊕ β)).mapM Sum.getLeft? = some s := by
  induction s with
  | nil => rfl
  | cons a s ih =>
    rw [List.map_cons, List.mapM_cons, ih]
    rfl

/-- **The script survives the command line.** -/
theorem commandText_encodeCommand (script : Str) : commandText (encodeCommand script) = some script := by
  rw [commandText, encodeCommand, Base64.decode_encode (Base64.filter_encode _), Option.bind_some, units_putUint16,
    Option.bind_some, Utf16.decode_encode, mapM_getLeft]

/-! ## The pipe -/

theorem ascii_encode {bytes : List UInt8} {c : Char} (h : c ∈ Base64.encode bytes) : c.toNat < 0x80 := by
  have hall : Base64.alphabet.all (fun c => c.toNat < 0x80) = true := rfl
  rcases Base64.mem_encode h with h | rfl
  · exact of_decide_eq_true (List.all_eq_true.1 hall c h)
  · decide

theorem utf8EncodeChar_ascii {c : Char} (h : c.toNat < 0x80) : String.utf8EncodeChar c = [UInt8.ofNat c.toNat] := by
  have hval : c.val.toNat ≤ 0x7F := Nat.le_of_lt_succ h
  rw [String.utf8EncodeChar, if_pos hval]
  rfl

/-- an ASCII text is read as it was written -/
theorem readToEnd_utf8 {s : Str} (hs : ∀ c ∈ s, c.toNat < 0x80) :
    (∀ b ∈ utf8 s, b < 0x80) ∧ (utf8 s).map (fun b => Char.ofNat b.toNat) = s ∧ (utf8 s).length = s.length := by
  induction s with
  | nil => exact ⟨fun _ h => (nomatch h), rfl, rfl⟩
  | cons c s ih =>
    obtain ⟨h1, h2, h3⟩ := ih fun c hc => hs c (List.mem_cons_of_mem _ hc)
    have hc := hs c List.mem_cons_self
    have hbyte : (UInt8.ofNat c.toNat).toNat = c.toNat := by
      rw [UInt8.toNat_ofNat']
      exact Nat.mod_eq_of_lt (by omega)
    have hcons : utf8 (c :: s) = UInt8.ofNat c.toNat :: utf8 s := by
      rw [utf8, List.flatMap_cons, utf8EncodeChar_ascii hc]
      rfl
    rw [hcons]
    refine ⟨fun b hb => ?_, ?_, ?_⟩
    · rcases List.mem_cons.1 hb with rfl | hb
      · rw [UInt8.lt_iff_toNat_lt, hbyte]
        exact hc
      · exact h1 b hb
    · rw [List.map_cons, h2, hbyte, Char.ofNat_toNat]
    · rw [List.length_cons, List.length_cons, h3]

theorem utf8Decode_utf8 (s : Str) : (utf8 s).toByteArray.utf8Decode?.map Array.toList = some s := by
  have h : (utf8 s).toByteArray = s.utf8Encode := rfl
  rw [h, List.utf8Decode?_utf8Encode]
  rfl

/-- **The XML survives the pipe.** -/
theorem xmlText_buildStdinPayload (xml : Str) : xmlText (buildStdinPayload xml) = some xml := by
  obtain ⟨hascii, hchars, -⟩ := readToEnd_utf8 (s := Base64.encode (utf8 xml)) fun _ => ascii_encode
  rw [xmlText, buildStdinPayload, readToEnd, if_pos (by simpa using hascii), hchars, Option.bind_some,
    Base64.decode_encode (Base64.filter_encode _), Option.bind_some, utf8Decode_utf8]

/-! ## The literal -/

/-- **The application's name** is read back exactly if it has no typographic quote. -/
theorem literal_iff (aumidID : Str) :
    verbatim ((buildPowerShellScript aumidID).drop scriptBefore.length) = some (aumidID, scriptAfter) ↔
      ∀ c ∈ aumidID, ¬ Typographic c := by
  rw [buildPowerShellScript, List.append_assoc, List.drop_left]
  constructor
  · intro h
    have hquotes := verbatim_quotes h
    have hescaped := countP_escaped aumidID
    rw [List.countP_append, List.countP_cons, isSingleQuote_quote] at hquotes
    have hzero : aumidID.countP (fun c => decide (Typographic c)) = 0 := by
      simp only [if_true] at hquotes
      omega
    intro c hc ht
    exact List.countP_eq_zero.1 hzero c hc (decide_eq_true ht)
  · intro h
    refine verbatim_escaped h fun c hc => ?_
    cases Option.some.inj (hc.symm.trans (show scriptAfter.head? = some ')' by decide))
    decide

/-! ## The result -/

/-- **Transport.** For every toast, whatever its texts are:
- the encoded command is the script, and of the command line nothing depends on the toast;
- what the script loads is the XML that was built for the toast, which reads to the tree of its document;
- both channels carry ASCII only, and the pipe four bytes for every three of the XML;
- the script names the application exactly if the name has no typographic quote. -/
theorem toast_transport (parse : Str → Option NetUrl) (fetch : Str → Option Str) (aumidID : Str)
    (req : GoToastRequest) :
    (∃ command, (Show parse fetch aumidID req).args =
        ["-NoProfile".toList, "-NonInteractive".toList, "-WindowStyle".toList, "Hidden".toList,
          "-EncodedCommand".toList, command] ∧
      commandText command = some (buildPowerShellScript aumidID) ∧ (∀ c ∈ command, c.toNat < 0x80) ∧
      ∀ req', (Show parse fetch aumidID req').args = (Show parse fetch aumidID req).args) ∧
    (xmlText (Show parse fetch aumidID req).stdin = some (BuildToastXML parse req (imagePathOf fetch req)) ∧
      (xmlText (Show parse fetch aumidID req).stdin).bind Lib.Xml.parse =
        some (docTree (goDocOf parse req (imagePathOf fetch req)))) ∧
    ((∀ b ∈ (Show parse fetch aumidID req).stdin, b < 0x80) ∧
      (Show parse fetch aumidID req).stdin.length =
        4 * (((utf8 (BuildToastXML parse req (imagePathOf fetch req))).length + 2) / 3)) ∧
    (verbatim ((buildPowerShellScript aumidID).drop scriptBefore.length) = some (aumidID, scriptAfter) ↔
      ∀ c ∈ aumidID, ¬ Typographic c) := by
  have hxml :
      xmlText (Show parse fetch aumidID req).stdin = some (BuildToastXML parse req (imagePathOf fetch req)) := by
    rw [Show_stdin, xmlText_buildStdinPayload]
  obtain ⟨hascii, -, hlength⟩ :=
    readToEnd_utf8 (s := Base64.encode (utf8 (BuildToastXML parse req (imagePathOf fetch req)))) fun _ => ascii_encode
  refine ⟨⟨_, Show_args .., commandText_encodeCommand _, fun _ => ascii_encode, fun req' => ?_⟩, ⟨hxml, ?_⟩, ⟨?_, ?_⟩,
    literal_iff aumidID⟩
  · rw [Show_args, Show_args]
  · rw [hxml, Option.bind_some, BuildToastXML_eq, parse_docTokens]
  · rw [Show_stdin]
    exact hascii
  · rw [Show_stdin, ← Base64.length_encode]
    exact hlength

end NotifyAgent.ToastTransport
