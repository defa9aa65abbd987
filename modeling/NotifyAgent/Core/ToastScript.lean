/-
How the Go agent on Windows hands a toast to PowerShell (`toastscript.go`, `renderer.go`): a fixed script goes on the
command line, the XML goes through the standard input.

The second half is what PowerShell and the .NET calls of the script make of them: `-EncodedCommand` is Base64 of UTF-16,
the script decodes its input from Base64 and UTF-8, and a literal in single quotes ends at the next quote that is not
doubled, where the typographic quotes are quotes too.

- `verbatim_quotes`, `countP_escaped`: how many quotes a literal uses up, and how many an escaped text has;
- `verbatim_escaped`: a literal without typographic quotes is read back.
-/
import Mathlib.Tactic
import NotifyAgent.Lib.Base64
import NotifyAgent.Lib.Utf16
import NotifyAgent.Core.ToastXml

namespace NotifyAgent.ToastScript

open NotifyAgent.Text NotifyAgent.ToastXml
open NotifyAgent.Lib
open NotifyAgent.Lib.Replace (replace replace_single)

/-! ## The script and its input -/

def quote : Char := Char.ofNat 0x27

/-- the script up to the application's name -/
def scriptBefore : Str :=
  ("$ErrorActionPreference = 'Stop'\n" ++
    "[Windows.UI.Notifications.ToastNotificationManager, Windows.UI.Notifications, " ++
    "ContentType = WindowsRuntime] > $null\n" ++
    "[Windows.Data.Xml.Dom.XmlDocument, Windows.Data.Xml.Dom, ContentType = WindowsRuntime] > $null\n" ++
    "$b64 = [Console]::In.ReadToEnd()\n" ++
    "$xmlText = [System.Text.Encoding]::UTF8.GetString([Convert]::FromBase64String($b64))\n" ++
    "$xmlDoc = New-Object Windows.Data.Xml.Dom.XmlDocument\n" ++
    "$xmlDoc.LoadXml($xmlText)\n" ++
    "$toast = New-Object Windows.UI.Notifications.ToastNotification $xmlDoc\n" ++
    "[Windows.UI.Notifications.ToastNotificationManager]::CreateToastNotifier('").toList

/-- the script after the literal -/
def scriptAfter : Str := ").Show($toast)\n".toList

def buildPowerShellScript (aumidID : Str) : Str :=
  scriptBefore ++ replace [quote] [quote, quote] aumidID ++ quote :: scriptAfter

/-- `binary.LittleEndian.PutUint16` -/
def putUint16 (v : UInt16) : List UInt8 := [UInt8.ofNat (v.toNat % 256), UInt8.ofNat (v.toNat / 256)]

def encodeCommand (script : Str) : Str := Base64.encode ((Utf16.encode script).flatMap putUint16)

def buildStdinPayload (xml : Str) : List UInt8 := utf8 (Base64.encode (utf8 xml))

/-- the call of `powershell.exe` -/
structure Command where
  args : List Str
  stdin : List UInt8

def showToastViaPowerShell (aumid xml : Str) : Command where
  args := ["-NoProfile".toList, "-NonInteractive".toList, "-WindowStyle".toList, "Hidden".toList,
    "-EncodedCommand".toList, encodeCommand (buildPowerShellScript aumid)]
  stdin := buildStdinPayload xml

/-- `Show`, over the image cache -/
def imagePathOf (fetch : Str → Option Str) (req : GoToastRequest) : Str :=
  match req.image with
  | some img => (fetch img.url).getD []
  | none => []

def Show (parse : Str → Option NetUrl) (fetch : Str → Option Str) (aumid : Str) (req : GoToastRequest) : Command :=
  showToastViaPowerShell aumid (BuildToastXML parse req (imagePathOf fetch req))

section
variable (parse : Str → Option NetUrl) (fetch : Str → Option Str) (aumid : Str) (req : GoToastRequest)

theorem Show_args : (Show parse fetch aumid req).args =
    ["-NoProfile".toList, "-NonInteractive".toList, "-WindowStyle".toList, "Hidden".toList, "-EncodedCommand".toList,
      encodeCommand (buildPowerShellScript aumid)] := rfl

theorem Show_stdin : (Show parse fetch aumid req).stdin =
    buildStdinPayload (BuildToastXML parse req (imagePathOf fetch req)) := rfl

end

/-! ## What PowerShell makes of them -/

/-- `BitConverter`: the code units of the bytes, low byte first -/
def units : List UInt8 → Option (List UInt16)
  | [] => some []
  | [_] => none
  | lo :: hi :: rest => (units rest).map (UInt16.ofNat (lo.toNat + 256 * hi.toNat) :: ·)

/-- `-EncodedCommand`; `none` if it is no text -/
def commandText (command : Str) : Option Str :=
  ((Base64.decode command).bind units).bind fun us => (Utf16.decode us).mapM Sum.getLeft?

/-- `[Console]::In.ReadToEnd()`: below 0x80 every code page is ASCII -/
def readToEnd (stdin : List UInt8) : Option Str :=
  if stdin.all (· < 0x80) then some (stdin.map fun b => Char.ofNat b.toNat) else none

/-- what the script gives to `LoadXml`; `none` if `GetString` has to put in substitutes -/
def xmlText (stdin : List UInt8) : Option Str :=
  ((readToEnd stdin).bind Base64.decode).bind fun bytes => bytes.toByteArray.utf8Decode?.map Array.toList

def Typographic (c : Char) : Prop := 0x2018 ≤ c.toNat ∧ c.toNat ≤ 0x201B

instance : DecidablePred Typographic := fun c => inferInstanceAs (Decidable (0x2018 ≤ c.toNat ∧ c.toNat ≤ 0x201B))

def isSingleQuote (c : Char) : Bool := c = quote ∨ Typographic c

/-- a literal after its opening quote, and what follows the closing one; the second of two quotes is in the literal -/
def verbatim : Str → Option (Str × Str)
  | [] => none
  | [c] => if isSingleQuote c then some ([], []) else none
  | c :: d :: rest =>
    if isSingleQuote c then
      if isSingleQuote d then (verbatim rest).map fun r => (d :: r.1, r.2) else some ([], d :: rest)
    else (verbatim (d :: rest)).map fun r => (c :: r.1, r.2)

/-! ## Literals -/

/-- **Quotes of a literal.** Each quote in it takes two, and one closes it. -/
theorem verbatim_quotes {s v rest : Str} (h : verbatim s = some (v, rest)) :
    s.countP isSingleQuote = 2 * v.countP isSingleQuote + 1 + rest.countP isSingleQuote := by
  fun_induction verbatim s generalizing v rest with
  | case1 => cases h
  | case2 c hc =>
    cases h
    simp [hc]
  | case3 c hc => cases h
  | case4 c d tail hc hd ih =>
    obtain ⟨⟨v', rest'⟩, hr, heq⟩ := Option.map_eq_some_iff.1 h
    cases heq
    simp only [List.countP_cons, hc, hd, if_true, ih hr]
    omega
  | case5 c d tail hc hd =>
    cases h
    simp [List.countP_cons, hc]
    omega
  | case6 c d tail hc ih =>
    obtain ⟨⟨v', rest'⟩, hr, heq⟩ := Option.map_eq_some_iff.1 h
    cases heq
    have hc' : isSingleQuote c = false := by simpa using hc
    rw [List.countP_cons, ih hr, List.countP_cons]
    simp [hc']

theorem escaped_eq (s : Str) :
    replace [quote] [quote, quote] s = s.flatMap fun c => if c = quote then [quote, quote] else [c] :=
  replace_single _ _

theorem isSingleQuote_quote : isSingleQuote quote = true := by decide

/-- an escaped text has each of its quotes twice, but the typographic ones once -/
theorem countP_escaped (s : Str) :
    (replace [quote] [quote, quote] s).countP isSingleQuote + s.countP (fun c => decide (Typographic c)) =
      2 * s.countP isSingleQuote := by
  rw [escaped_eq]
  induction s with
  | nil => rfl
  | cons c s ih =>
    rw [List.flatMap_cons, List.countP_append, List.countP_cons, List.countP_cons]
    by_cases hc : c = quote
    · subst hc
      have hnot : ¬ Typographic quote := by decide
      simp only [
        if_true, List.countP_cons, List.countP_nil, isSingleQuote_quote, hnot, decide_false, Bool.false_eq_true,
        if_false]
      omega
    · by_cases ht : Typographic c
      · simp only [if_neg hc, List.countP_singleton, isSingleQuote, ht, or_true, decide_true, if_true]
        omega
      · simp only [List.countP_singleton, isSingleQuote, ht, hc, or_false, decide_false, Bool.false_eq_true, if_false]
        omega

/-- **A literal is read back** if it has no typographic quote. -/
theorem verbatim_escaped {s tail : Str} (hs : ∀ c ∈ s, ¬ Typographic c)
    (htail : ∀ c, tail.head? = some c → isSingleQuote c = false) :
    verbatim (replace [quote] [quote, quote] s ++ quote :: tail) = some (s, tail) := by
  rw [escaped_eq]
  induction s with
  | nil =>
    cases tail with
    | nil => rfl
    | cons c tail => simp [verbatim, isSingleQuote_quote, htail c rfl]
  | cons c s ih =>
    have ih := ih fun c hc => hs c (List.mem_cons_of_mem _ hc)
    rw [List.flatMap_cons, List.append_assoc]
    by_cases hc : c = quote
    · subst hc
      simp [verbatim, isSingleQuote_quote, ih]
    · have hnot : isSingleQuote c = false := by simp [isSingleQuote, hc, hs c List.mem_cons_self]
      obtain ⟨d, rest, heq⟩ :
          ∃ d rest, (s.flatMap fun c => if c = quote then [quote, quote] else [c]) ++ quote :: tail =
          d :: rest := List.exists_cons_of_ne_nil (by simp)
      rw [heq] at ih ⊢
      simp [hc, verbatim, hnot, ih]

end NotifyAgent.ToastScript
