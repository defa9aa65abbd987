/-
What a call of `Sprintf` with one plain argument writes, compared with its format. A directive never writes its own
text, and what a call gets behind its format, or ahead of it, is never made up for by a later directive.
-/
import Mathlib.Tactic
import NotifyAgent.Lib.Sprintf

namespace NotifyAgent.Lib.Sprintf

/-! ## What a verb writes -/

/-- printable ASCII that quoting leaves alone, and no percent sign -/
def Plain (u : Bytes) : Prop := ∀ b ∈ u, 0x20 ≤ b ∧ b < 0x7F ∧ b ≠ 0x22 ∧ b ≠ 0x5C ∧ b ≠ 0x25

theorem Plain.notMem {u : Bytes} (h : Plain u) : 0x25 ∉ u := fun hm => (h _ hm).2.2.2.2 rfl

theorem mem_takeRunes {n : ℕ} {s : Bytes} {b : UInt8} (h : b ∈ takeRunes n s) : b ∈ s := by
  induction n generalizing s with
  | zero => cases h
  | succ n ih =>
    rw [takeRunes] at h
    rcases List.mem_append.1 h with h | h
    · exact List.mem_of_mem_take h
    · exact List.mem_of_mem_drop (ih h)

theorem Plain.truncate {u : Bytes} (h : Plain u) (f : Spec) : Plain (f.truncate u) := by
  unfold Spec.truncate
  cases f.prec with
  | none => exact h
  | some n => exact fun b hb => h b (mem_takeRunes hb)

theorem notMem_pad (f : Spec) (count : ℕ) {s : Bytes} (h : 0x25 ∉ s) : 0x25 ∉ f.pad count s := by
  have hpadding : ∀ n, 0x25 ∉ f.padding n := by
    intro n hm
    have := (List.mem_replicate.1 hm).2
    split_ifs at this <;> cases this
  unfold Spec.pad
  simp only
  split_ifs <;> simp [h, hpadding]

theorem notMem_fmtS {u : Bytes} (h : Plain u) (f : Spec) : 0x25 ∉ f.fmtS u := notMem_pad f _ (h.truncate f).notMem

theorem notMem_fmtQ (Q : Quoting) {u : Bytes} (h : Plain u) (f : Spec) : 0x25 ∉ f.fmtQ Q u := by
  have hplain := h.truncate f
  have hquote := Q.quote_plain (f.truncate u) fun b hb =>
    ⟨(hplain b hb).1, (hplain b hb).2.1, (hplain b hb).2.2.1, (hplain b hb).2.2.2.1⟩
  apply notMem_pad
  split_ifs
  · simp [hplain.notMem]
  · simp [hquote.2, hplain.notMem]
  · simp [hquote.1, hplain.notMem]

theorem hexDigit_ne {letters : UInt8} (hl : letters = 0x61 ∨ letters = 0x41) {n : UInt8} (hn : n.toNat < 16) :
    hexDigit letters n ≠ 0x25 := by
  have hofNat : n = UInt8.ofNat n.toNat := UInt8.ofNat_toNat.symm
  rw [hofNat]
  generalize n.toNat = k at hn
  rcases hl with rfl | rfl <;> interval_cases k <;> decide

theorem notMem_fmtSx (u : Bytes) (f : Spec) {letters x : UInt8} (hl : letters = 0x61 ∨ letters = 0x41) (hx : x ≠ 0x25) :
    0x25 ∉ f.fmtSx letters x u := by
  have hpair : ∀ h ∈ (u.take (f.prec.getD u.length)).map
      (fun b => [hexDigit letters (b / 16), hexDigit letters (b % 16)]), (0x25 : UInt8) ∉ h := by
    intro h hh
    obtain ⟨b, -, rfl⟩ := List.mem_map.1 hh
    have hb := b.toNat_lt
    have hhigh := @hexDigit_ne letters hl (b / 16) (by rw [UInt8.toNat_div]; simp; omega)
    have hlow := @hexDigit_ne letters hl (b % 16) (by rw [UInt8.toNat_mod]; simp; omega)
    simp [hhigh.symm, hlow.symm]
  have hpre : (0x25 : UInt8) ∉ (if f.sharp then [0x30, x] else [] : Bytes) := by
    split_ifs
    · simp [hx.symm]
    · simp
  unfold Spec.fmtSx
  apply notMem_pad
  generalize (if f.sharp then [0x30, x] else [] : Bytes) = pre at hpre ⊢
  split
  · simp
  · rename_i first rest heq
    rw [heq] at hpair
    simp only [List.mem_append, List.mem_flatMap, not_or, not_exists, not_and]
    refine ⟨⟨hpre, hpair first List.mem_cons_self⟩, ?_⟩
    intro h hh hm
    have hnot := hpair h (List.mem_cons_of_mem _ hh)
    split_ifs at hm
    · simp only [List.cons_append, List.mem_cons, List.mem_append] at hm
      rcases hm with hm | hm | hm
      · cases hm
      · exact hpre hm
      · exact hnot hm
    · exact hnot hm

/-- what a verb can write: a text, a percent sign, or an error text -/
def Main (m : Bytes) : Prop := 0x25 ∉ m ∨ m = [0x25] ∨ ∃ t, m = 0x25 :: 0x21 :: t ∧ 0x25 ∉ t

theorem main_printArg (Q : Quoting) (f : Spec) {verb u : Bytes} (hu : Plain u) (hverb : 0x25 ∉ verb) :
    Main (printArg Q f verb u) := by
  have hbad : ∀ plain, 0x25 ∉ plain → Main (badVerb verb plain) := by
    intro plain hplain
    refine Or.inr (Or.inr ⟨_, rfl, ?_⟩)
    have h₁ : (0x25 : UInt8) ∉ ascii "(string=" := by decide
    have h₂ : (0x25 : UInt8) ∉ ascii ")" := by decide
    simp [hverb, hplain, h₁, h₂]
  have hstring : Plain (ascii "string") := by
    intro b hb
    have hmem : b ∈ ([0x73, 0x74, 0x72, 0x69, 0x6E, 0x67] : Bytes) := hb
    simp only [List.mem_cons, List.not_mem_nil, or_false] at hmem
    rcases hmem with rfl | rfl | rfl | rfl | rfl | rfl <;> decide
  unfold printArg
  simp only
  split_ifs
  · exact Or.inl (notMem_fmtS hstring f)
  · exact Or.inl (notMem_fmtS hu f)
  · exact Or.inl (notMem_fmtQ Q hu _)
  · exact Or.inl (notMem_fmtS hu _)
  · exact hbad _ (notMem_fmtQ Q hu _)
  · exact hbad _ (notMem_fmtS hu _)
  · exact Or.inl (notMem_fmtQ Q hu f)
  · exact Or.inl (notMem_fmtSx u f (Or.inl rfl) (by decide))
  · exact Or.inl (notMem_fmtSx u f (Or.inr rfl) (by decide))
  · exact hbad _ (notMem_fmtS hu f)

theorem chain_of_notMem {s : Bytes} (h : 0x25 ∉ s) : s.IsChain Bang := by
  induction s with
  | nil => exact List.isChain_nil
  | cons b s ih =>
    have hb : b ≠ 0x25 := fun heq => h (heq ▸ List.mem_cons_self)
    have hs := ih fun hm => h (List.mem_cons_of_mem _ hm)
    cases s with
    | nil => exact List.isChain_singleton _
    | cons c s => exact List.isChain_cons_cons.2 ⟨fun heq => absurd heq hb, hs⟩

theorem Main.chain {m : Bytes} (h : Main m) : m.IsChain Bang := by
  rcases h with h | rfl | ⟨t, rfl, ht⟩
  · exact chain_of_notMem h
  · exact List.isChain_singleton _
  · refine List.isChain_cons_cons.2 ⟨fun _ => rfl, chain_of_notMem ?_⟩
    simp [ht]

theorem Main.tail {m : Bytes} (h : Main m) : 0x25 ∉ m.tail := by
  rcases h with h | rfl | ⟨t, rfl, ht⟩
  · exact fun hm => h (List.mem_of_mem_tail hm)
  · simp
  · simp [ht]

theorem main_banged {verb text : Bytes} (hverb : 0x25 ∉ verb) (htext : 0x25 ∉ text) : Main (banged verb text) :=
  Or.inr (Or.inr ⟨verb ++ text, rfl, by simp [hverb, htext]⟩)

/-! ## One directive -/

/-- the last stage takes a verb and writes it after the errors; it leaves the argument alone only for `%%` -/
theorem finish_cons {Q : Quoting} {u : Bytes} (hu : Plain u) {sc : Scan} {b : UInt8} {rest : Bytes}
    (hrest : sc.rest = b :: rest) (hgood : sc.good = false → sc.args.reordered = true) :
    ∃ raw m, sc.rest = raw ++ (finish Q u sc).rest ∧ raw ≠ [] ∧ (finish Q u sc).out = sc.errs ++ m ∧ Main m ∧
      (Spent sc.args → Spent (finish Q u sc).args) ∧
      (¬ Spent (finish Q u sc).args → raw = [0x25] ∧ m = [0x25]) := by
  obtain ⟨verb, rest', hdec⟩ : ∃ verb rest', decodeRune (b :: rest) = (verb, rest') := ⟨_, _, rfl⟩
  have hrune : ∃ raw, b :: rest = raw ++ rest' ∧ raw ≠ [] ∧ ((raw = verb ∧ raw = [b]) ∨ 0x25 ∉ verb) := by
    rcases decodeRune_cons b rest with h | ⟨raw, hraw, hne, -, hhigh⟩
    · rw [hdec, Prod.mk.injEq] at h
      exact ⟨[b], by rw [h.2]; rfl, by simp, Or.inl ⟨h.1.symm, rfl⟩⟩
    · rw [hdec] at hraw hhigh
      refine ⟨raw, hraw, hne, Or.inr fun hm => ?_⟩
      exact absurd (hhigh _ (List.mem_append_right _ hm)) (by decide)
  obtain ⟨raw, hraw, hne, hverb⟩ := hrune
  unfold finish
  rw [hrest]
  simp only [hdec]
  by_cases hpercent : verb = [0x25]
  · rw [if_pos hpercent]
    have hraw' : raw = [0x25] := by
      rcases hverb with ⟨hv, -⟩ | hv
      · exact hv.trans hpercent
      · rw [hpercent] at hv
        exact absurd List.mem_cons_self hv
    exact ⟨raw, [0x25], hraw, hne, rfl, Or.inr (Or.inl rfl), id, fun _ => ⟨hraw', rfl⟩⟩
  · rw [if_neg hpercent]
    have hnot : 0x25 ∉ verb := by
      rcases hverb with ⟨hv, hb⟩ | hv
      · intro hm
        rw [← hv, hb, List.mem_singleton] at hm
        rw [← hv, hb, hm] at hpercent
        exact hpercent rfl
      · exact hv
    have hBad : (0x25 : UInt8) ∉ ascii "(BADINDEX)" := by decide
    have hMissing : (0x25 : UInt8) ∉ ascii "(MISSING)" := by decide
    split_ifs with hg hlt
    · exact ⟨raw, _, hraw, hne, rfl, main_banged hnot hBad, id, fun hn => absurd (Or.inl (hgood hg)) hn⟩
    · exact ⟨raw, _, hraw, hne, rfl, main_banged hnot hMissing, id, fun hn => absurd (Or.inr hlt) hn⟩
    · exact ⟨raw, _, hraw, hne, rfl, main_printArg Q _ hu hnot, fun _ => Or.inr (Nat.le_add_left _ _),
        fun hn => absurd (Or.inr (Nat.le_add_left _ _)) hn⟩

/-- a directive with a verb; `c` is its text after the percent sign -/
structure Verbed (a : Args) (s c : Bytes) (w : Written) : Prop where
  text : s = c ++ w.rest
  nonempty : c ≠ []
  spent : Spent a → Spent w.args
  chain : w.out.IsChain Bang
  /-- a percent sign further in is that of a verb that comes after another error -/
  inner : 0x25 ∈ w.out.tail → c.head? ≠ some 0x21
  fresh : ¬ Spent w.args → w.out = [0x25] ∧ 0x21 ∉ c
  final : ∀ x y, c = x ++ 0x25 :: y → y = [] ∨ Spent w.args

/-- a directive without a verb, at the end of the format -/
structure Unverbed (s : Bytes) (w : Written) : Prop where
  rest : w.rest = []
  errs : Errs w.out
  nonempty : w.out ≠ []
  head : ∀ b, s.head? = some b → special b = true

theorem special_ne {b : UInt8} (h : special b = true) : b ≠ 0x21 ∧ b ≠ 0x25 ∧ b ≠ 0x73 := by
  refine ⟨?_, ?_, ?_⟩ <;> rintro rfl <;> exact absurd h (by decide)

/-- **What one directive takes and writes.** -/
theorem directive_cases (Q : Quoting) {u : Bytes} (hu : Plain u) (a : Args) (s : Bytes) :
    (∃ c, Verbed a s c (directive Q u a s)) ∨ Unverbed s (directive Q u a s) := by
  obtain ⟨c, sc, htook, hdir⟩ := took_stages a s
  rw [hdir]
  cases hrest : sc.rest with
  | nil =>
    right
    have hs : s = c := by rw [htook.text, hrest, List.append_nil]
    unfold finish
    rw [hrest]
    refine ⟨rfl, htook.errs.append (errs_bad (Or.inr (Or.inr rfl))), ?_, ?_⟩
    · intro hnil
      exact absurd (List.append_eq_nil_iff.1 hnil).2 (by decide)
    · rw [hs]
      exact htook.head
  | cons b rest =>
    left
    obtain ⟨raw, m, hraw, hne, hout, hmain, hspent, hfresh⟩ := finish_cons (Q := Q) hu hrest htook.good
    -- where the argument is still there, the text is flags, numbers and `%`
    have hkey : ¬ Spent (finish Q u sc).args → sc.errs = [] ∧ ∀ x ∈ c, special x = true := by
      intro hn
      have hn' : ¬ Spent sc.args := fun h => hn (hspent h)
      refine ⟨by_contra fun h => hn' (htook.star h).2, ?_⟩
      rcases htook.plain with h | h | h
      · exact absurd (Or.inl h) hn'
      · rw [hrest] at h
        cases h
      · exact h
    refine ⟨c ++ raw, ?_, by simp [hne], fun h => hspent (htook.spent h), ?_, ?_, ?_, ?_⟩
    · rw [List.append_assoc, ← hraw]
      exact htook.text
    · rw [hout]
      refine List.isChain_append.2 ⟨htook.errs.1, hmain.chain, ?_⟩
      intro x hx y _ hpercent
      rw [hpercent] at hx
      exact absurd hx htook.errs.2
    · intro hin hhead
      have herrs : sc.errs ≠ [] := by
        intro hnil
        rw [hout, hnil, List.nil_append] at hin
        exact hmain.tail hin
      obtain ⟨x, c', hc⟩ := List.exists_cons_of_ne_nil (htook.star herrs).1
      rw [hc] at hhead
      have hx := htook.head x (by rw [hc]; rfl)
      exact (special_ne hx).1 (by simpa using hhead)
    · intro hn
      obtain ⟨hnil, hall⟩ := hkey hn
      obtain ⟨hraw', hm⟩ := hfresh hn
      refine ⟨by rw [hout, hnil, hm]; rfl, ?_⟩
      intro hmem
      rcases List.mem_append.1 hmem with hmem | hmem
      · exact (special_ne (hall _ hmem)).1 rfl
      · rw [hraw'] at hmem
        exact absurd (List.mem_singleton.1 hmem) (by decide)
    · intro x y hxy
      by_cases hn : Spent (finish Q u sc).args
      · exact Or.inr hn
      · left
        obtain ⟨-, hall⟩ := hkey hn
        rw [(hfresh hn).1] at hxy
        by_contra hy
        obtain ⟨y', z, rfl⟩ := List.eq_nil_or_concat' y |>.resolve_left hy
        rw [← List.cons_append, ← List.append_assoc] at hxy
        have hc := (List.append_inj' hxy rfl).1
        have hmem : (0x25 : UInt8) ∈ c := by rw [hc]; simp
        exact (special_ne (hall _ hmem)).2.1 rfl

/-- a verb that follows the percent sign at once -/
theorem directive_verb (Q : Quoting) (u : Bytes) (a : Args) (s : Bytes) {b : UInt8} (hb : b = 0x21 ∨ b = 0x73) :
    directive Q u a (b :: s) =
      if 1 ≤ a.argNum then ⟨banged [b] (ascii "(MISSING)"), a, s⟩
      else ⟨printArg Q .clear [b] u, ⟨a.argNum + 1, a.reordered⟩, s⟩ := by
  rcases hb with rfl | rfl <;> rfl

theorem directive_string (Q : Quoting) (u s : Bytes) (a : Args) (h : a.argNum = 0) :
    directive Q u a (0x73 :: s) = ⟨u, ⟨1, a.reordered⟩, s⟩ := by
  rw [directive_verb Q u a s (Or.inr rfl), if_neg (by omega), h]
  have hprint : printArg Q .clear [0x73] u = u := by
    simp [printArg, ascii, Spec.fmtS, Spec.pad, Spec.truncate, Spec.clear, Spec.padding]
  rw [hprint]

/-! ## Whole formats -/

@[simp] theorem printf_nil (Q : Quoting) (u : Bytes) (a : Args) : printf Q u a [] = extra u a := by rw [printf]

theorem printf_literal (Q : Quoting) (u : Bytes) (a : Args) {b : UInt8} (hb : b ≠ 0x25) (s : Bytes) :
    printf Q u a (b :: s) = b :: printf Q u a s := by
  rw [printf, if_neg hb]

theorem printf_directive (Q : Quoting) (u : Bytes) (a : Args) (s : Bytes) :
    printf Q u a (0x25 :: s) =
      (directive Q u a s).out ++ printf Q u (directive Q u a s).args (directive Q u a s).rest := by
  rw [printf, if_pos rfl]

theorem printf_append (Q : Quoting) (u : Bytes) (a : Args) {e : Bytes} (he : 0x25 ∉ e) (s : Bytes) :
    printf Q u a (e ++ s) = e ++ printf Q u a s := by
  induction e with
  | nil => rfl
  | cons b e ih =>
    have hb : b ≠ 0x25 := fun heq => he (heq ▸ List.mem_cons_self)
    rw [List.cons_append, printf_literal Q u a hb, ih fun hm => he (List.mem_cons_of_mem _ hm)]
    rfl

theorem extra_spent {u : Bytes} {a : Args} (h : Spent a) : extra u a = [] := by
  unfold extra
  rw [if_neg]
  rintro ⟨hr, hn⟩
  rcases h with h | h
  · rw [hr] at h
    cases h
  · omega

/-! ## Falling behind -/

/-- the placeholder `%s` -/
def placeholder : Bytes := [0x25, 0x73]

/-- an argument that tells: the letter `z` is in no error text -/
def z : Bytes := [0x7A]

theorem plain_z : Plain z := by
  intro b hb
  rw [List.mem_singleton.1 hb]
  decide

/-- `x` is `s`, or `s` with one placeholder filled in -/
def Fill (s x : Bytes) : Prop := x = s ∨ ∃ p post, s = p ++ placeholder ++ post ∧ x = p ++ z ++ post

theorem Fill.nil {x : Bytes} (h : Fill [] x) : x = [] := by
  rcases h with h | ⟨p, post, h, -⟩
  · exact h
  · simp [placeholder] at h

theorem Fill.literal {b : UInt8} (hb : b ≠ 0x25) {s x : Bytes} (h : Fill (b :: s) x) :
    ∃ x', x = b :: x' ∧ Fill s x' := by
  rcases h with rfl | ⟨p, post, h, rfl⟩
  · exact ⟨s, rfl, Or.inl rfl⟩
  · cases p with
    | nil =>
      simp only [placeholder, List.nil_append, List.cons_append, List.cons.injEq] at h
      exact absurd h.1 hb
    | cons c p =>
      simp only [List.cons_append, List.cons.injEq] at h
      obtain ⟨rfl, rfl⟩ := h
      exact ⟨p ++ z ++ post, rfl, Or.inr ⟨p, post, rfl, rfl⟩⟩

/-- where the placeholder is when a directive takes `c`: elsewhere, the directive itself, inside of it, or across its
end -/
theorem Fill.directive {s c rest x : Bytes} (h : Fill (0x25 :: s) x) (hs : s = c ++ rest) :
    (∃ x', x = 0x25 :: c ++ x' ∧ Fill rest x') ∨
    (∃ post, s = 0x73 :: post ∧ x = z ++ post) ∨
    (∃ p r, c = p ++ 0x25 :: 0x73 :: r ∧ x = 0x25 :: (p ++ z ++ r) ++ rest) ∨
    ∃ p post, c = p ++ [0x25] ∧ rest = 0x73 :: post ∧ x = 0x25 :: (p ++ z) ++ post := by
  rcases h with rfl | ⟨p, post, h, rfl⟩
  · exact Or.inl ⟨rest, by rw [hs]; rfl, Or.inl rfl⟩
  · cases p with
    | nil =>
      simp only [placeholder, List.nil_append, List.cons_append, List.cons.injEq, true_and] at h
      exact Or.inr (Or.inl ⟨post, h, rfl⟩)
    | cons b p =>
      simp only [List.cons_append, List.cons.injEq] at h
      obtain ⟨rfl, h⟩ := h
      rw [hs, List.append_assoc] at h
      rcases List.append_eq_append_iff.1 h with ⟨p', hp, hrest⟩ | ⟨c', hc, hrest⟩
      · exact Or.inl ⟨p' ++ z ++ post, by rw [hp]; simp, Or.inr ⟨p', post, by rw [hrest, List.append_assoc], rfl⟩⟩
      · match c' with
        | [] =>
          rw [List.append_nil] at hc
          exact Or.inl ⟨z ++ post, by rw [hc]; simp,
            Or.inr ⟨[], post, by rw [← List.nil_append rest, ← hrest]; rfl, rfl⟩⟩
        | [b] =>
          simp only [placeholder, List.cons_append, List.nil_append, List.cons.injEq] at hrest
          obtain ⟨rfl, hrest⟩ := hrest
          exact Or.inr (Or.inr (Or.inr ⟨p, post, hc, hrest.symm, by simp⟩))
        | b :: b' :: r =>
          simp only [placeholder, List.cons_append, List.nil_append, List.cons.injEq] at hrest
          obtain ⟨rfl, rfl, hrest⟩ := hrest
          exact Or.inr (Or.inr (Or.inl ⟨p, r, hc, by rw [hrest]; simp⟩))

/-- what is written so far is compared with a text that is `w` ahead of it, over one directive whose text is `t` -/
theorem advance {out w t g x : Bytes} (hchain : out.IsChain Bang) (hinner : 0x25 ∈ out.tail → t.head? ≠ some 0x21)
    (hne : t ≠ []) (hw : w ≠ []) (h : out ++ g = w ++ (0x25 :: t ++ x)) :
    ∃ v, g = v ++ t ++ x ∧ ∀ b ∈ v, b ∈ w ∨ b = 0x25 := by
  rcases List.append_eq_append_iff.1 h with ⟨w', hw', hg⟩ | ⟨e, he, hg⟩
  · refine ⟨w' ++ [0x25], by rw [hg]; simp, ?_⟩
    intro b hb
    rcases List.mem_append.1 hb with hb | hb
    · exact Or.inl (hw' ▸ List.mem_append_right _ hb)
    · exact Or.inr (List.mem_singleton.1 hb)
  · match e with
    | [] =>
      exact ⟨[0x25], by simpa using hg.symm, by simp⟩
    | [b] =>
      simp only [List.cons_append, List.nil_append, List.cons.injEq] at hg
      exact ⟨[], by rw [← hg.2]; rfl, by simp⟩
    | b :: b' :: e =>
      -- another error, which starts with `%!`
      simp only [List.cons_append, List.cons.injEq] at hg
      obtain ⟨rfl, hg⟩ := hg
      have hb' : b' = 0x21 := by
        rw [he] at hchain
        exact (List.isChain_cons_cons.1 (List.isChain_append.1 hchain).2.1).1 rfl
      obtain ⟨c, t', rfl⟩ := List.exists_cons_of_ne_nil hne
      simp only [List.cons_append, List.cons.injEq] at hg
      obtain ⟨c', w', rfl⟩ := List.exists_cons_of_ne_nil hw
      refine absurd ?_ (hinner ?_)
      · rw [hg.1, hb']
        rfl
      · rw [he]
        simp

theorem Errs.head_of_percent {s w y : Bytes} (h : Errs s) (hs : s = w ++ 0x25 :: y) : y.head? = some 0x21 := by
  cases y with
  | nil =>
    rw [hs] at h
    exact absurd List.getLast?_concat h.2
  | cons b y =>
    rw [hs] at h
    have := (List.isChain_cons_cons.1 (List.isChain_append.1 h.1).2.1).1 rfl
    rw [this]
    rfl

theorem errs_extra (a : Args) : Errs (extra z a) := by
  unfold extra
  split_ifs
  · exact ⟨by decide, by decide⟩
  · exact ⟨List.isChain_nil, by simp⟩

/-- a directive without a verb ends the call with errors, where the format has something else -/
theorem unverbed_ne {Q : Quoting} {a : Args} {s x w : Bytes} (h : Unverbed s (directive Q z a s))
    (hfill : Fill (0x25 :: s) x) : printf Q z a (0x25 :: s) ≠ w ++ x := by
  intro heq
  rw [printf_directive, h.rest, printf_nil] at heq
  have herrs := h.errs.append (errs_extra (directive Q z a s).args)
  have hspecial : ∀ y, x = 0x25 :: y → y.head? = s.head? → False := by
    intro y hx hhead
    rw [hx] at heq
    have hbang := herrs.head_of_percent heq
    rw [hhead] at hbang
    exact (special_ne (h.head _ hbang)).1 rfl
  rcases hfill with rfl | ⟨p, post, hs, rfl⟩
  · exact hspecial s rfl rfl
  · match p with
    | [] =>
      simp only [placeholder, List.nil_append, List.cons_append, List.cons.injEq, true_and] at hs
      exact (special_ne (h.head 0x73 (by rw [hs]; rfl))).2.2 rfl
    | [b] =>
      simp only [placeholder, List.nil_append, List.cons_append, List.cons.injEq] at hs
      exact (special_ne (h.head 0x25 (by rw [hs.2]; rfl))).2.1 rfl
    | b :: b' :: p =>
      simp only [List.cons_append, List.cons.injEq] at hs
      obtain ⟨rfl, rfl⟩ := hs
      exact hspecial _ rfl rfl

theorem z_notMem_missing : (0x7A : UInt8) ∉ banged [0x73] (ascii "(MISSING)") := by decide

section
variable {Q : Quoting} {a : Args} {s c x w : Bytes} {d : Written}

/-- where a directive leaves the argument open, no `!` can be ahead after it -/
theorem Verbed.ahead {t : Bytes} (hc : Verbed a s c d) (ha : Spent a ∨ 0x21 ∉ w)
    (ht : ∀ b ∈ t, b ∈ w ∨ b ∈ c ∨ b = 0x7A ∨ b = 0x25) : Spent d.args ∨ 0x21 ∉ t := by
  by_cases hs : Spent d.args
  · exact Or.inl hs
  · right
    intro hm
    rcases ht _ hm with hm | hm | hm | hm
    · exact ha.resolve_left (fun h => hs (hc.spent h)) hm
    · exact (hc.fresh hs).2 hm
    · cases hm
    · cases hm

/-- after another error, a directive with the argument filled in does not start with `!` either -/
theorem Verbed.inner_filled {p r : Bytes} (hc : Verbed a s c d) (hp : c = p ++ 0x25 :: r) (hin : 0x25 ∈ d.out.tail)
    (t : Bytes) : (p ++ z ++ t).head? ≠ some 0x21 := by
  cases p with
  | nil => simp [z]
  | cons b p =>
    have hhead := hc.inner hin
    rw [hp] at hhead
    simpa using hhead

/-- shorter formats are not caught up with: what is left of the format is `s`, what it should give is `x`, and `w`
should have been written already -/
def LagsBelow (Q : Quoting) (n : ℕ) : Prop :=
  ∀ {s x w : Bytes} {a : Args}, s.length < n → Fill s x → w ≠ [] → Spent a ∨ 0x21 ∉ w → printf Q z a s ≠ w ++ x

theorem lag_nil (hfill : Fill [] x) (hw : w ≠ []) (ha : Spent a ∨ 0x21 ∉ w) : printf Q z a [] ≠ w ++ x := by
  rw [hfill.nil, printf_nil, List.append_nil]
  rcases ha with ha | ha
  · rw [extra_spent ha]
    exact hw.symm
  · intro heq
    unfold extra at heq
    split_ifs at heq
    · rw [← heq] at ha
      exact ha (by decide)
    · exact hw heq.symm

theorem lag_literal {b : UInt8} (ih : LagsBelow Q (b :: s).length) (hb : b ≠ 0x25) (hfill : Fill (b :: s) x)
    (hw : w ≠ []) (ha : Spent a ∨ 0x21 ∉ w) : printf Q z a (b :: s) ≠ w ++ x := by
  obtain ⟨x', rfl, hx'⟩ := hfill.literal hb
  obtain ⟨b', w, rfl⟩ := List.exists_cons_of_ne_nil hw
  rw [printf_literal Q z a hb]
  intro heq
  simp only [List.cons_append, List.cons.injEq] at heq
  obtain ⟨rfl, heq⟩ := heq
  have hahead : Spent a ∨ 0x21 ∉ w ++ [b] := by
    refine ha.imp_right fun hnot hm => hnot ?_
    simpa [or_comm] using hm
  apply ih (s := s) (x := x') (by simp) hx' (by simp) hahead
  rw [heq]
  simp

/-- the directive is the placeholder: its argument is written too late, or not at all -/
theorem lag_placeholder {post : Bytes} (ih : LagsBelow Q (0x25 :: 0x73 :: post).length) (hw : w ≠ []) :
    printf Q z a (0x25 :: 0x73 :: post) ≠ w ++ (z ++ post) := by
  have hlen : post.length < (0x25 :: 0x73 :: post).length := by
    simp only [List.length_cons]
    omega
  rw [printf_directive]
  intro heq
  by_cases harg : a.argNum = 0
  · rw [directive_string Q z post a harg] at heq
    obtain ⟨b, w, rfl⟩ := List.exists_cons_of_ne_nil hw
    simp only [z, List.cons_append, List.nil_append, List.cons.injEq] at heq
    have hspent : Spent ⟨1, a.reordered⟩ := Or.inr le_rfl
    apply ih (s := post) (w := w ++ z) hlen (Or.inl rfl) (by simp [z]) (Or.inl hspent)
    rw [List.append_assoc]
    exact heq.2
  · rw [directive_verb Q z a post (Or.inr rfl), if_pos (by omega), ← List.append_assoc] at heq
    have hz : (0x7A : UInt8) ∈ w ++ z := by simp [z]
    rcases List.append_eq_append_iff.1 heq with ⟨w', hw', hg⟩ | ⟨e, he, -⟩
    · have hne : w' ≠ [] := by
        intro hnil
        rw [hnil, List.append_nil] at hw'
        rw [hw'] at hz
        exact z_notMem_missing hz
      exact ih (s := post) hlen (Or.inl rfl) hne (Or.inl (Or.inr (by simp only; omega))) hg
    · have hmissing : banged [0x73] (ascii "(MISSING)") = w ++ z ++ e := he
      exact z_notMem_missing (hmissing ▸ List.mem_append_left _ hz)

/-- the directive ends in the percent sign of the placeholder, whose `s` is then literal text -/
theorem lag_across {v p post : Bytes} (ih : LagsBelow Q (d.rest.length + 1)) (hc : Verbed a s c d)
    (ha : Spent a ∨ 0x21 ∉ w) (hv : ∀ b ∈ v, b ∈ w ∨ b = 0x25) (hp : c = p ++ [0x25]) (hr : d.rest = 0x73 :: post) :
    printf Q z d.args d.rest ≠ v ++ (p ++ z) ++ post := by
  rw [hr, printf_literal Q z d.args (by decide), ← List.append_assoc v]
  intro heq
  cases hvp : v ++ p with
  | nil =>
    rw [hvp] at heq
    simp only [z, List.nil_append, List.cons_append, List.cons.injEq] at heq
    exact absurd heq.1 (by decide)
  | cons b u =>
    rw [hvp] at heq
    simp only [List.cons_append, List.cons.injEq] at heq
    have hlen : post.length < d.rest.length + 1 := by
      rw [hr, List.length_cons]
      omega
    refine ih (s := post) (w := u ++ z) hlen (Or.inl rfl) (by simp [z]) (hc.ahead ha fun b' hb' => ?_) heq.2
    rcases List.mem_append.1 hb' with hu | hz
    · have hmem : b' ∈ v ++ p := hvp ▸ List.mem_cons_of_mem _ hu
      rcases List.mem_append.1 hmem with hm | hm
      · exact (hv b' hm).imp_right fun h => Or.inr (Or.inr h)
      · exact Or.inr (Or.inl (hp ▸ List.mem_append_left _ hm))
    · exact Or.inr (Or.inr (Or.inl (List.mem_singleton.1 hz)))

theorem lag_directive (ih : LagsBelow Q (0x25 :: s).length) (hc : Verbed a s c (directive Q z a s))
    (hfill : Fill (0x25 :: s) x) (hw : w ≠ []) (ha : Spent a ∨ 0x21 ∉ w) : printf Q z a (0x25 :: s) ≠ w ++ x := by
  have hlen : (directive Q z a s).rest.length < s.length := by
    have hlength := congrArg List.length hc.text
    have hpos := List.length_pos_of_ne_nil hc.nonempty
    rw [List.length_append] at hlength
    omega
  have hshort : (directive Q z a s).rest.length < (0x25 :: s).length := by
    rw [List.length_cons]
    omega
  intro heq
  rcases hfill.directive hc.text with ⟨x', rfl, hx'⟩ | ⟨post, rfl, rfl⟩ | ⟨p, r, hp, rfl⟩ | ⟨p, post, hp, hr, rfl⟩
  · rw [printf_directive] at heq
    obtain ⟨v, hg, hv⟩ := advance hc.chain hc.inner hc.nonempty hw heq
    refine ih hshort hx' (by simp [hc.nonempty]) (hc.ahead ha fun b hb => ?_) hg
    rcases List.mem_append.1 hb with hb | hb
    · exact (hv b hb).imp_right fun h => Or.inr (Or.inr h)
    · exact Or.inr (Or.inl hb)
  · exact lag_placeholder ih hw heq
  · rw [printf_directive] at heq
    have hne : p ++ z ++ r ≠ [] := by simp [z]
    obtain ⟨v, hg, -⟩ := advance hc.chain (fun hin => hc.inner_filled hp hin r) hne hw heq
    have hspent := (hc.final p (0x73 :: r) hp).resolve_left (by simp)
    exact ih hshort (Or.inl rfl) (by simp [z]) (Or.inl hspent) hg
  · rw [printf_directive] at heq
    have hne : p ++ z ≠ [] := by simp [z]
    have hinner : 0x25 ∈ (directive Q z a s).out.tail → (p ++ z).head? ≠ some 0x21 := fun hin => by
      simpa using hc.inner_filled hp hin []
    obtain ⟨v, hg, hv⟩ := advance hc.chain hinner hne hw heq
    have ih' : LagsBelow Q ((directive Q z a s).rest.length + 1) := fun hlt => ih (by
      rw [List.length_cons]
      omega)
    exact lag_across ih' hc ha hv hp hr hg

end

/-- **A call that has fallen behind its format stays behind.** What is left of the format is `s`, what it should give is
`x`, and `w` should have been written already. -/
theorem lag (Q : Quoting) {s x w : Bytes} {a : Args} (hfill : Fill s x) (hw : w ≠ []) (ha : Spent a ∨ 0x21 ∉ w) :
    printf Q z a s ≠ w ++ x := by
  induction hn : s.length using Nat.strong_induction_on generalizing s x w a with
  | _ n ih =>
    subst hn
    have hbelow : LagsBelow Q s.length := fun hlt hfill hw ha => ih _ hlt hfill hw ha rfl
    cases s with
    | nil => exact lag_nil hfill hw ha
    | cons b s =>
      by_cases hb : b = 0x25
      · subst hb
        rcases directive_cases Q plain_z a s with ⟨c, hc⟩ | hc
        · exact lag_directive hbelow hc hfill hw ha
        · exact unverbed_ne hc hfill
      · exact lag_literal hbelow hb hfill hw ha

/-! ## Getting ahead -/

/-- a call that is a literal text ahead stays ahead -/
theorem ahead_literal (Q : Quoting) {s e : Bytes} {a : Args} (hne : e ≠ []) (he : 0x25 ∉ e) :
    e ++ printf Q z a s ≠ s := by
  induction hn : s.length using Nat.strong_induction_on generalizing s with
  | _ n ih =>
    subst hn
    intro heq
    obtain ⟨s', rfl⟩ : ∃ s', s = e ++ s' := ⟨_, heq.symm⟩
    rw [printf_append Q z a he] at heq
    refine ih s'.length ?_ rfl (List.append_cancel_left heq)
    have := List.length_pos_of_ne_nil hne
    rw [List.length_append]
    omega

/-- error texts that come out as error texts when they are read as a format -/
inductive Echoing : Bytes → Prop where
  | nil : Echoing []
  | literal {b : UInt8} {s : Bytes} (hb : b ≠ 0x25) (h : Echoing s) : Echoing (b :: s)
  | bang {s : Bytes} (h : Echoing s) : Echoing (0x25 :: 0x21 :: s)

theorem Echoing.append {s t : Bytes} (hs : Echoing s) (ht : Echoing t) : Echoing (s ++ t) := by
  induction hs with
  | nil => exact ht
  | literal hb _ ih => exact .literal hb ih
  | bang _ ih => exact .bang ih

theorem echoing_of_notMem {s : Bytes} (h : 0x25 ∉ s) : Echoing s := by
  induction s with
  | nil => exact .nil
  | cons b s ih => exact .literal (fun heq => h (heq ▸ List.mem_cons_self)) (ih fun hm => h (List.mem_cons_of_mem _ hm))

theorem printf_echoing (Q : Quoting) {e : Bytes} (he : Echoing e) {a : Args} (ha : 1 ≤ a.argNum) :
    ∃ e', Echoing e' ∧ (e ≠ [] → e' ≠ []) ∧ ∀ s, printf Q z a (e ++ s) = e' ++ printf Q z a s := by
  induction he with
  | nil => exact ⟨[], .nil, id, fun s => rfl⟩
  | @literal b e hb _ ih =>
    obtain ⟨e', he', -, hs⟩ := ih
    refine ⟨b :: e', .literal hb he', by simp, fun s => ?_⟩
    rw [List.cons_append, printf_literal Q z a hb, hs]
    rfl
  | @bang e _ ih =>
    obtain ⟨e', he', -, hs⟩ := ih
    refine ⟨banged [0x21] (ascii "(MISSING)") ++ e', ?_, by simp [banged], fun s => ?_⟩
    · have htext : (0x25 : UInt8) ∉ [0x21] ++ ascii "(MISSING)" := by decide
      exact (Echoing.bang (echoing_of_notMem htext)).append he'
    · rw [List.cons_append, printf_directive, List.cons_append, directive_verb Q z a _ (Or.inl rfl), if_pos ha,
        List.append_assoc]
      simp only
      rw [hs]

/-- and so does one that is ahead by error texts, with the argument used up -/
theorem ahead_echoing (Q : Quoting) {s e : Bytes} {a : Args} (hne : e ≠ []) (he : Echoing e) (ha : 1 ≤ a.argNum) :
    e ++ printf Q z a s ≠ s := by
  induction hn : s.length using Nat.strong_induction_on generalizing s e with
  | _ n ih =>
    subst hn
    intro heq
    obtain ⟨s', rfl⟩ : ∃ s', s = e ++ s' := ⟨_, heq.symm⟩
    obtain ⟨e', he', hne', hs⟩ := printf_echoing Q he ha
    rw [hs] at heq
    refine ih s'.length ?_ (hne' hne) he' rfl (List.append_cancel_left heq)
    have := List.length_pos_of_ne_nil hne
    rw [List.length_append]
    omega

/-- **A format that comes out unchanged has no directive**, with the argument used up. -/
theorem notMem_of_printf_self (Q : Quoting) {s : Bytes} {a : Args} (ha : 1 ≤ a.argNum) (h : printf Q z a s = s) :
    0x25 ∉ s := by
  induction s with
  | nil => simp
  | cons b s ih =>
    by_cases hb : b = 0x25
    · subst hb
      exfalso
      rcases directive_cases Q plain_z a s with ⟨c, hc⟩ | hc
      · rw [printf_directive] at h
        generalize hd : directive Q z a s = d at hc h
        have hspent : Spent d.args := hc.spent (Or.inr ha)
        match hout : d.out with
        | [] =>
          rw [hout, hc.text] at h
          exact lag Q (Or.inl rfl) (w := 0x25 :: c) (by simp) (Or.inl hspent) h
        | [b] =>
          rw [hout, hc.text] at h
          simp only [List.cons_append, List.nil_append, List.cons.injEq] at h
          exact lag Q (Or.inl rfl) hc.nonempty (Or.inl hspent) h.2
        | b :: b' :: out =>
          -- an error text against the format: the verb is `!`
          have hchain := hc.chain
          rw [hout] at h hchain
          simp only [List.cons_append, List.cons.injEq] at h
          obtain ⟨rfl, h⟩ := h
          have hb' : b' = 0x21 := (List.isChain_cons_cons.1 hchain).1 rfl
          obtain ⟨s', rfl⟩ : ∃ s', s = 0x21 :: s' := ⟨_, (hb' ▸ h).symm⟩
          rw [directive_verb Q z a s' (Or.inl rfl), if_pos ha] at hd
          subst hd
          simp only [banged, List.cons_append, List.cons.injEq] at hout
          rw [← hout.2.2] at h
          simp only [List.cons.injEq] at h
          exact ahead_literal Q (by simp) (by decide) h.2
      · exact unverbed_ne hc (Or.inl rfl) (w := []) h
    · rw [printf_literal Q z a hb, List.cons.injEq] at h
      simp [Ne.symm hb, ih h.2]

/-- what a bad verb `!` writes after the text of its directive -/
def badBang : Bytes := 0x21 :: ascii "(string=z)"

/-- a call that has got ahead by a bad verb does not come to its placeholder in step -/
theorem ahead_placeholder (Q : Quoting) (p post : Bytes) :
    badBang ++ printf Q z ⟨1, false⟩ (p ++ placeholder ++ post) ≠ p ++ z ++ post := by
  induction hn : p.length using Nat.strong_induction_on generalizing p with
  | _ n ih =>
    subst hn
    intro heq
    have hbad : (0x25 : UInt8) ∉ badBang := by decide
    rw [List.append_assoc p z] at heq
    rcases List.append_eq_append_iff.1 heq with ⟨p', rfl, hg⟩ | ⟨e, he, hg⟩
    · rw [List.append_assoc, List.append_assoc, printf_append Q z _ hbad, ← List.append_assoc p',
        ← List.append_assoc p']
        at hg
      refine ih p'.length ?_ p' rfl hg
      rw [List.length_append]
      have : badBang.length = 11 := by decide
      omega
    · -- the placeholder comes first, and the argument is used up
      have hp : 0x25 ∉ p := fun hm => hbad (he ▸ List.mem_append_left _ hm)
      rw [
        List.append_assoc p, printf_append Q z _ hp, placeholder, List.cons_append, printf_directive, List.cons_append,
        directive_verb Q z _ _ (Or.inr rfl), if_pos le_rfl] at hg
      cases e with
      | nil =>
        rw [List.append_nil] at he
        rw [← he] at hg
        simp only [z, badBang, List.cons_append, List.nil_append, List.cons.injEq] at hg
        exact absurd hg.1 (by decide)
      | cons b e =>
        simp only [z, List.cons_append, List.nil_append, List.cons.injEq] at hg
        have hecho : Echoing (e ++ p ++ banged [0x73] (ascii "(MISSING)")) := by
          refine (echoing_of_notMem ?_).append (.bang (echoing_of_notMem (by decide)))
          intro hm
          rcases List.mem_append.1 hm with hm | hm
          · exact hbad (he ▸ List.mem_append_right _ (List.mem_cons_of_mem _ hm))
          · exact hp hm
        refine ahead_echoing Q (s := post) (a := ⟨1, false⟩) (by simp [banged]) hecho le_rfl ?_
        rw [List.append_assoc, List.append_assoc]
        exact hg.2.symm

/-- a directive that starts with `!` is no longer than that -/
theorem bang_text {Q : Quoting} {a : Args} {s c : Bytes} {d : Written} (hd : directive Q z a s = d)
    (hc : Verbed a s c d) (hhead : c.head? = some 0x21) : c = [0x21] ∧ s = 0x21 :: d.rest := by
  obtain ⟨c', rfl⟩ : ∃ c', c = 0x21 :: c' := by
    cases c with
    | nil => cases hhead
    | cons b c' => exact ⟨c', by rw [Option.some.inj hhead]⟩
  have htext := hc.text
  have hrest : d.rest = c' ++ d.rest := by
    rw [htext, List.cons_append, directive_verb Q z a _ (Or.inl rfl)] at hd
    have hsame := congrArg Written.rest hd
    split_ifs at hsame <;> exact hsame.symm
  have hnil : c' = [] := by
    have := congrArg List.length hrest
    rw [List.length_append] at this
    exact List.length_eq_zero_iff.1 (by omega)
  rw [hnil] at htext ⊢
  exact ⟨rfl, htext⟩

/-- what is written starts with `%!` where the rest is behind neither by the text after a percent sign, nor by all of it
-/
theorem behind_bang {out g t y : Bytes} (hchain : out.IsChain Bang) (hne : t ≠ []) (hwhole : g ≠ 0x25 :: t ++ y)
    (htail : g ≠ t ++ y) (heq : out ++ g = 0x25 :: t ++ y) : t.head? = some 0x21 := by
  match out with
  | [] => exact absurd heq hwhole
  | [b] =>
    simp only [List.cons_append, List.nil_append, List.cons.injEq] at heq
    exact absurd heq.2 htail
  | b :: b' :: out =>
    simp only [List.cons_append, List.cons.injEq] at heq
    obtain ⟨b'', t, rfl⟩ := List.exists_cons_of_ne_nil hne
    simp only [List.cons_append, List.cons.injEq] at heq
    have hb' : b' = 0x21 := (List.isChain_cons_cons.1 hchain).1 heq.1
    rw [List.head?_cons, ← heq.2.1, hb']

section
variable {Q : Quoting} {a : Args} {s c : Bytes} {d : Written}

/-- the text before the placeholder starts with `!` only if it is the verb -/
theorem filled_head_ne {p r : Bytes} (hd : directive Q z a s = d) (hc : Verbed a s c d) (hp : c = p ++ 0x25 :: r)
    (t : Bytes) : (p ++ z ++ t).head? ≠ some 0x21 := by
  intro hhead
  cases p with
  | nil => simp [z] at hhead
  | cons b p =>
    have hc' := (bang_text hd hc (by rw [hp]; simpa using hhead)).1
    rw [hp] at hc'
    simp at hc'

/-- a text of the directive's own characters may be ahead -/
theorem Verbed.ahead_own {t : Bytes} (hc : Verbed ⟨0, false⟩ s c d) (ht : ∀ b ∈ t, b ∈ c ∨ b = 0x7A ∨ b = 0x25) :
    Spent d.args ∨ 0x21 ∉ t :=
  hc.ahead (w := []) (Or.inr (by simp)) fun b hb => Or.inr (ht b hb)

/-- the placeholder comes later: then the directive is a bad verb, and the call is ahead of it -/
theorem before_elsewhere {x : Bytes} (hd : directive Q z ⟨0, false⟩ s = d) (hc : Verbed ⟨0, false⟩ s c d)
    (hrest : Fill d.rest x) (hself : 0x25 :: c ++ x ≠ 0x25 :: s) :
    d.out ++ printf Q z d.args d.rest ≠ 0x25 :: c ++ x := by
  intro heq
  have hwhole : ∀ b ∈ 0x25 :: c, b ∈ c ∨ b = 0x7A ∨ b = 0x25 := by
    intro b hb
    rcases List.mem_cons.1 hb with rfl | hb
    · exact Or.inr (Or.inr rfl)
    · exact Or.inl hb
  have hhead := behind_bang hc.chain hc.nonempty (lag Q hrest (w := 0x25 :: c) (by simp) (hc.ahead_own hwhole))
    (lag Q hrest hc.nonempty (hc.ahead_own fun b hb => Or.inl hb)) heq
  obtain ⟨hc', hs⟩ := bang_text hd hc hhead
  rw [hs, directive_verb Q z _ _ (Or.inl rfl), if_neg (by decide)] at hd
  rw [hc', ← hd] at heq
  have hprint : printArg Q .clear [0x21] z = 0x25 :: 0x21 :: badBang := by
    simp [printArg, ascii, Spec.fmtS, Spec.pad, Spec.truncate, Spec.clear, Spec.padding, badVerb, banged, badBang, z]
  simp only [hprint, List.cons_append, List.nil_append, List.cons.injEq, true_and] at heq
  rcases hrest with rfl | ⟨p, post, hr, rfl⟩
  · apply hself
    rw [hc', hs]
    rfl
  · rw [hr] at heq
    exact ahead_placeholder Q p post heq

theorem before_inside {p r : Bytes} (hd : directive Q z ⟨0, false⟩ s = d) (hc : Verbed ⟨0, false⟩ s c d)
    (hp : c = p ++ 0x25 :: 0x73 :: r) : d.out ++ printf Q z d.args d.rest ≠ 0x25 :: (p ++ z ++ r) ++ d.rest := by
  intro heq
  have hmem : ∀ b ∈ 0x25 :: (p ++ z ++ r), b ∈ c ∨ b = 0x7A ∨ b = 0x25 := by
    intro b hb
    simp only [List.mem_cons, List.mem_append, z, List.not_mem_nil, or_false] at hb
    rw [hp]
    simp only [List.mem_append, List.mem_cons]
    tauto
  have hhead := behind_bang hc.chain (by simp [z])
    (lag Q (Or.inl rfl) (w := 0x25 :: (p ++ z ++ r)) (by simp) (hc.ahead_own hmem))
    (lag Q (Or.inl rfl) (by simp [z]) (hc.ahead_own fun b hb => hmem b (List.mem_cons_of_mem _ hb))) heq
  exact filled_head_ne hd hc hp r hhead

theorem before_across {p post : Bytes} (hd : directive Q z ⟨0, false⟩ s = d) (hc : Verbed ⟨0, false⟩ s c d)
    (hp : c = p ++ [0x25]) (hr : d.rest = 0x73 :: post) :
    d.out ++ printf Q z d.args d.rest ≠ 0x25 :: (p ++ z) ++ post := by
  intro heq
  have hmem : ∀ b ∈ p ++ z, b ∈ c ∨ b = 0x7A ∨ b = 0x25 := by
    intro b hb
    simp only [List.mem_append, z, List.mem_singleton] at hb
    rw [hp]
    simp only [List.mem_append]
    tauto
  have hwhole : printf Q z d.args d.rest ≠ 0x25 :: (p ++ z) ++ post := by
    rw [hr, printf_literal Q z _ (by decide)]
    intro h
    simp only [List.cons_append, List.cons.injEq] at h
    exact absurd h.1 (by decide)
  have htail : printf Q z d.args d.rest ≠ p ++ z ++ post := by
    rw [hr, printf_literal Q z _ (by decide)]
    intro h
    cases p with
    | nil =>
      simp only [z, List.cons_append, List.nil_append, List.cons.injEq] at h
      exact absurd h.1 (by decide)
    | cons b p =>
      simp only [List.cons_append, List.cons.injEq] at h
      exact lag Q (Or.inl rfl) (w := p ++ z) (by simp [z])
        (hc.ahead_own fun b hb => hmem b (List.mem_cons_of_mem _ hb)) h.2
  have hhead := behind_bang hc.chain (by simp [z]) hwhole htail heq
  exact filled_head_ne hd hc hp [] (by simpa using hhead)

end

/-- a format whose placeholder comes after another directive does not come out filled in -/
theorem directive_before (Q : Quoting) {s x : Bytes} (hfill : Fill (0x25 :: s) x) (hx : x.head? = some 0x25) :
    x = 0x25 :: s ∨ printf Q z ⟨0, false⟩ (0x25 :: s) ≠ x := by
  by_contra hnot
  push Not at hnot
  obtain ⟨hself, heq⟩ := hnot
  rcases directive_cases Q plain_z ⟨0, false⟩ s with ⟨c, hc⟩ | hc
  · rw [printf_directive] at heq
    rcases hfill.directive hc.text with ⟨x', rfl, hrest⟩ | ⟨post, -, rfl⟩ | ⟨p, r, hp, rfl⟩ | ⟨p, post, hp, hr, rfl⟩
    · exact before_elsewhere rfl hc hrest hself heq
    · cases hx
    · exact before_inside rfl hc hp heq
    · exact before_across rfl hc hp hr heq
  · exact unverbed_ne hc hfill (w := []) heq

/-- **Only the placeholder.** If a call with the argument `z` gives its format with the placeholder filled in, the
format has no other percent sign. -/
theorem only_placeholder (Q : Quoting) {pre post : Bytes}
    (h : sprintf Q (pre ++ placeholder ++ post) z = pre ++ z ++ post) : 0x25 ∉ pre ∧ 0x25 ∉ post := by
  unfold sprintf at h
  induction pre with
  | nil =>
    simp only [placeholder, List.nil_append, List.cons_append] at h
    rw [printf_directive, directive_string Q z post _ rfl] at h
    exact ⟨by simp, notMem_of_printf_self Q le_rfl (List.append_cancel_left h)⟩
  | cons b pre ih =>
    by_cases hb : b = 0x25
    · subst hb
      rcases directive_before Q (s := pre ++ placeholder ++ post) (Or.inr ⟨0x25 :: pre, post, rfl, rfl⟩) rfl with
        hx | hne
      · have := congrArg List.length hx
        simp [placeholder, z] at this
      · exact absurd h hne
    · rw [List.cons_append, List.cons_append, printf_literal Q z _ hb] at h
      obtain ⟨hpre, hpost⟩ := ih (List.cons.inj h).2
      exact ⟨by simp [Ne.symm hb, hpre], hpost⟩

/-- and where there is no other, every argument is filled in as it is -/
theorem sprintf_placeholder (Q : Quoting) {pre post : Bytes} (hpre : 0x25 ∉ pre) (hpost : 0x25 ∉ post) (u : Bytes) :
    sprintf Q (pre ++ placeholder ++ post) u = pre ++ u ++ post := by
  have hrest := printf_append Q u ⟨1, false⟩ hpost []
  rw [List.append_nil, printf_nil, extra_spent (Or.inr le_rfl), List.append_nil] at hrest
  rw [sprintf, List.append_assoc, printf_append Q u _ hpre, placeholder, List.cons_append, printf_directive,
    List.cons_append, directive_string Q u _ _ rfl]
  simp only [List.nil_append, hrest, List.append_assoc]

end NotifyAgent.Lib.Sprintf
