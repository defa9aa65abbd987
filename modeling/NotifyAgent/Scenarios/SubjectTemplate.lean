/-
When a subject template formats cleanly. The check at startup asks for a `%s` and looks no further.

- `clean_iff`: exactly the templates with no second percent sign do;
- `second_placeholder_is_missing`: a template that passes the check and subscribes to an error text.
-/
import Mathlib.Tactic
import NotifyAgent.Core.GoHost
import NotifyAgent.Lib.SprintfText

namespace NotifyAgent.SubjectTemplate

open NotifyAgent.GoHost
open NotifyAgent.Lib NotifyAgent.Lib.Sprintf

/-! ## Specification -/

/-- every host that starts with the template has it as its subject, with the user id in place of a placeholder and with
nothing else changed -/
def FormatsCleanly (Q : Quoting) (template : Bytes) : Prop :=
  ∀ w opts h, opts.subjectTemplate = template → start Q w opts = .ok h →
    ∃ ident pre post, w.resolve = .ok ident ∧ template = pre ++ placeholder ++ post ∧
      h.subject = pre ++ ident.userID ++ post

/-! ## Starting -/

theorem validateSubjectTemplate_eq_ok {Q : Quoting} {template : Bytes} :
    validateSubjectTemplate Q template = .ok () ↔ ∃ pre post, template = pre ++ placeholder ++ post := by
  unfold validateSubjectTemplate
  have hascii : ascii "%s" = placeholder := by decide
  rw [hascii]
  split_ifs with hinfix
  · obtain ⟨pre, post, h⟩ := hinfix
    exact ⟨fun _ => ⟨pre, post, h.symm⟩, fun _ => rfl⟩
  · refine ⟨False.elim, fun h => ?_⟩
    obtain ⟨pre, post, h⟩ := h
    exact absurd ⟨pre, post, h.symm⟩ hinfix

/-- a world in which nothing fails -/
def helpful (userID : Bytes) : World := ⟨.ok ⟨userID, ascii "d1"⟩, none, .ok (), fun _ => .ok ()⟩

theorem start_helpful {Q : Quoting} {userID : Bytes} {opts : Options}
    (htemplate : validateSubjectTemplate Q opts.subjectTemplate = .ok ())
    (huser : validateUserIDForSubject Q userID = .ok ()) :
    start Q (helpful userID) opts =
      .ok ⟨opts.ackSubject, sprintf Q opts.subjectTemplate userID, ascii "d1"⟩ := by
  simp [start, helpful, wrap, authOptions, htemplate, huser, bind, Except.bind, pure, Except.pure]

theorem validate_z (Q : Quoting) : validateUserIDForSubject Q z = .ok () := by
  unfold validateUserIDForSubject
  rw [if_neg (by decide)]

/-! ## The exact condition -/

theorem count_placeholder {pre post : Bytes} :
    (pre ++ placeholder ++ post).count 0x25 = 1 ↔ 0x25 ∉ pre ∧ 0x25 ∉ post := by
  have hplaceholder : placeholder.count 0x25 = 1 := by decide
  rw [List.count_append, List.count_append, hplaceholder, ← List.count_eq_zero, ← List.count_eq_zero]
  omega

/-- **Clean formatting.** The accepted templates that format cleanly are those with exactly one percent sign. -/
theorem clean_iff (Q : Quoting) (template : Bytes) :
    FormatsCleanly Q template ↔ (validateSubjectTemplate Q template = .ok () → template.count 0x25 = 1) := by
  constructor
  · intro hclean haccepted
    obtain ⟨ident, pre, post, hident, rfl, hsubject⟩ :=
      hclean (helpful z) ⟨[], template, []⟩ _ rfl (start_helpful haccepted (validate_z Q))
    obtain rfl : _ = ident := Except.ok.inj hident
    exact count_placeholder.2 (only_placeholder Q hsubject)
  · intro hcount w opts h htemplate hstart
    subst htemplate
    obtain ⟨ident, hident, haccepted, -, hsubject⟩ := start_eq_ok hstart
    obtain ⟨pre, post, hsplit⟩ := validateSubjectTemplate_eq_ok.1 haccepted
    have hone := hcount haccepted
    rw [hsplit] at hone hsubject
    obtain ⟨hpre, hpost⟩ := count_placeholder.1 hone
    exact ⟨ident, pre, post, hident, hsplit, hsubject.trans (sprintf_placeholder Q hpre hpost ident.userID)⟩

/-- quoting of printable ASCII -/
def quoted : Quoting where
  quote s := 0x22 :: s ++ [0x22]
  quoteToASCII s := 0x22 :: s ++ [0x22]
  canBackquote s := !s.contains 0x60
  quote_plain _ _ := ⟨rfl, rfl⟩

/-- a template for a user and a device, but there is one argument -/
def twice : Options := ⟨[], ascii "notify.%s.%s", []⟩

theorem sprintf_twice : sprintf quoted twice.subjectTemplate (ascii "u1") = ascii "notify.u1.%!s(MISSING)" := by
  have hformat : twice.subjectTemplate = ascii "notify." ++ 0x25 :: 0x73 :: (ascii "." ++ 0x25 :: [0x73]) := by decide
  have hmissing : directive quoted (ascii "u1") ⟨1, false⟩ [0x73] = ⟨ascii "%!s(MISSING)", ⟨1, false⟩, []⟩ := by rfl
  rw [sprintf, hformat, printf_append _ _ _ (by decide), printf_directive, directive_string _ _ _ _ rfl,
    printf_append _ _ _ (by decide), printf_directive]
  simp only [hmissing, printf_nil, extra_spent (a := ⟨1, false⟩) (Or.inr le_rfl)]
  decide

theorem second_placeholder_is_missing :
    (∃ h, start quoted (helpful (ascii "u1")) twice = .ok h ∧ h.subject = ascii "notify.u1.%!s(MISSING)") ∧
      ¬ FormatsCleanly quoted twice.subjectTemplate := by
  have haccepted : validateSubjectTemplate quoted twice.subjectTemplate = .ok () := by decide
  have huser : validateUserIDForSubject quoted (ascii "u1") = .ok () := by decide
  have hstart := start_helpful haccepted huser
  rw [sprintf_twice] at hstart
  refine ⟨⟨_, hstart, rfl⟩, ?_⟩
  intro hclean
  obtain ⟨ident, pre, post, hident, hsplit, hsubject⟩ := hclean _ _ _ rfl hstart
  obtain rfl : _ = ident := Except.ok.inj hident
  -- the error text is longer than a user id
  have hlong := congrArg List.length hsplit
  have hlong' := congrArg List.length hsubject
  simp only [List.length_append] at hlong hlong'
  have h12 : twice.subjectTemplate.length = 12 := by decide
  have h22 : (ascii "notify.u1.%!s(MISSING)").length = 22 := by decide
  have h2 : placeholder.length = 2 ∧ (ascii "u1").length = 2 := by decide
  omega

end NotifyAgent.SubjectTemplate
