/-
Go's `fmt.Sprintf` with one argument, a string. Go strings are byte strings; a verb is one rune, width and precision
count runes, and what is not well-formed UTF-8 counts byte by byte. Every directive is defined, with its flags, width,
precision, argument index and errors. How `%q` quotes depends on the Unicode tables and is a parameter.

- `directive`: one directive, in stages each of which takes some text off the format;
- `sprintf`: the whole call.
-/
import Mathlib.Tactic
import NotifyAgent.Lib.Bytes

namespace NotifyAgent.Lib.Sprintf

/-! ## Runes -/

def continuation (b : UInt8) : Bool := 0x80 ≤ b ∧ b ≤ 0xBF

/-- the length of the well-formed rune at the front, if there is one; a byte that is absent continues no rune -/
def runeLen : Bytes → Option ℕ
  | [] => none
  | a :: rest =>
    let b := rest.getD 0 0
    let c := rest.getD 1 0
    let d := rest.getD 2 0
    if a < 0x80 then some 1
    else if 0xC2 ≤ a ∧ a ≤ 0xDF ∧ continuation b then some 2
    else if ((a = 0xE0 ∧ 0xA0 ≤ b ∧ b ≤ 0xBF) ∨ (a = 0xED ∧ 0x80 ≤ b ∧ b ≤ 0x9F) ∨
        (0xE1 ≤ a ∧ a ≤ 0xEF ∧ a ≠ 0xED ∧ continuation b)) ∧ continuation c then some 3
    else if ((a = 0xF0 ∧ 0x90 ≤ b ∧ b ≤ 0xBF) ∨ (a = 0xF4 ∧ 0x80 ≤ b ∧ b ≤ 0x8F) ∨
        (0xF1 ≤ a ∧ a ≤ 0xF3 ∧ continuation b)) ∧ continuation c ∧ continuation d then some 4
    else none

/-- `DecodeRuneInString`, as the rune's encoding and what follows; U+FFFD stands for a byte of no rune -/
def decodeRune (s : Bytes) : Bytes × Bytes :=
  match runeLen s with
  | some n => (s.take n, s.drop n)
  | none => ([0xEF, 0xBF, 0xBD], s.drop 1)

/-- the first `n` runes -/
def takeRunes : ℕ → Bytes → Bytes
  | 0, _ => []
  | n + 1, s => s.take ((runeLen s).getD 1) ++ takeRunes n (s.drop ((runeLen s).getD 1))

/-- `RuneCountInString`; each rune takes at least a byte, so the length is enough rounds -/
def runeCount (s : Bytes) : ℕ := go s.length s
where
  go : ℕ → Bytes → ℕ
    | 0, _ => 0
    | _, [] => 0
    | n + 1, s => go n (s.drop ((runeLen s).getD 1)) + 1

/-! ## Printing -/

/-- flags, width and precision -/
structure Spec where
  sharp : Bool
  zero : Bool
  plus : Bool
  minus : Bool
  space : Bool
  wid : Option ℕ
  prec : Option ℕ

def Spec.clear : Spec := ⟨false, false, false, false, false, none, none⟩

/-- `strconv`'s quoting -/
structure Quoting where
  quote : Bytes → Bytes
  quoteToASCII : Bytes → Bytes
  canBackquote : Bytes → Bool
  /-- a printable ASCII character other than quote and backslash stands for itself -/
  quote_plain : ∀ s : Bytes, (∀ b ∈ s, 0x20 ≤ b ∧ b < 0x7F ∧ b ≠ 0x22 ∧ b ≠ 0x5C) →
    quote s = 0x22 :: s ++ [0x22] ∧ quoteToASCII s = 0x22 :: s ++ [0x22]

/-- `writePadding` -/
def Spec.padding (f : Spec) (n : ℕ) : Bytes := List.replicate n (if f.zero && !f.minus then 0x30 else 0x20)

/-- pad a text that counts as `count` characters -/
def Spec.pad (f : Spec) (count : ℕ) (s : Bytes) : Bytes :=
  let p := f.padding (f.wid.getD 0 - count)
  if f.minus then s ++ p else p ++ s

def Spec.truncate (f : Spec) (s : Bytes) : Bytes := f.prec.elim s fun n => takeRunes n s

/-- `fmtS` -/
def Spec.fmtS (f : Spec) (s : Bytes) : Bytes :=
  let s := f.truncate s
  f.pad (runeCount s) s

/-- `fmtQ` -/
def Spec.fmtQ (f : Spec) (Q : Quoting) (s : Bytes) : Bytes :=
  let s := f.truncate s
  let q := if f.sharp && Q.canBackquote s then 0x60 :: s ++ [0x60] else if f.plus then Q.quoteToASCII s else Q.quote s
  f.pad (runeCount q) q

/-- `fmtSx`; `x` is the letter of the prefix -/
def Spec.fmtSx (f : Spec) (letters x : UInt8) (s : Bytes) : Bytes :=
  let s := s.take (f.prec.getD s.length)
  let pre : Bytes := if f.sharp then [0x30, x] else []
  let each : List Bytes := s.map fun b => [hexDigit letters (b / 16), hexDigit letters (b % 16)]
  let body := match each with
    | [] => []
    | first :: rest => pre ++ first ++ rest.flatMap fun h => if f.space then 0x20 :: pre ++ h else h
  f.pad body.length body

/-- an error text that starts with a verb -/
def banged (verb text : Bytes) : Bytes := 0x25 :: 0x21 :: verb ++ text

/-- `badVerb`, over what `%v` prints -/
def badVerb (verb plain : Bytes) : Bytes := banged verb (ascii "(string=" ++ plain ++ ascii ")")

/-- `printArg` of a string -/
def printArg (Q : Quoting) (f : Spec) (verb u : Bytes) : Bytes :=
  -- `%v` and `%w` have flags of their own
  let plain := { f with sharp := false, plus := false }
  if verb = ascii "T" then f.fmtS (ascii "string")
  else if verb = ascii "s" then f.fmtS u
  else if verb = ascii "v" then if f.sharp then plain.fmtQ Q u else plain.fmtS u
  else if verb = ascii "w" then badVerb verb (if f.sharp then plain.fmtQ Q u else plain.fmtS u)
  else if verb = ascii "q" then f.fmtQ Q u
  else if verb = ascii "x" then f.fmtSx 0x61 0x78 u
  else if verb = ascii "X" then f.fmtSx 0x41 0x58 u
  else badVerb verb (f.fmtS u)

/-! ## One directive -/

/-- where the call is with its arguments -/
structure Args where
  /-- the number of the next argument -/
  argNum : ℕ
  /-- an argument index was used -/
  reordered : Bool
deriving DecidableEq

/-- the state of one directive -/
structure Scan where
  args : Args
  /-- no argument index was bad -/
  good : Bool
  afterIndex : Bool
  spec : Spec
  /-- what is written before the verb -/
  errs : Bytes
  rest : Bytes

def badWidth : Bytes := ascii "%!(BADWIDTH)"

def badPrec : Bytes := ascii "%!(BADPREC)"

def noVerb : Bytes := ascii "%!(NOVERB)"

/-- `parsenum`: the number at the front, if there is one; a number that is too large takes the whole text -/
def parsenum (s : Bytes) : Option ℕ × Bytes := go none s
where
  go (num : Option ℕ) : Bytes → Option ℕ × Bytes
    | [] => (num, [])
    | b :: rest =>
      if 0x30 ≤ b ∧ b ≤ 0x39 then
        if 1000000 < num.getD 0 then (none, []) else go (some (num.getD 0 * 10 + (b.toNat - 0x30))) rest
      else (num, b :: rest)

def flag (b : UInt8) : Bool := b = 0x23 || b = 0x30 || b = 0x2B || b = 0x2D || b = 0x20

def scanFlags (sc : Scan) : Scan :=
  let flags := sc.rest.takeWhile flag
  { sc with
    spec := ⟨flags.contains 0x23, flags.contains 0x30, flags.contains 0x2B, flags.contains 0x2D, flags.contains 0x20,
      none, none⟩
    rest := sc.rest.dropWhile flag }

/-- the text between brackets, and what follows them; `parseArgNumber` wants three bytes -/
def bracketed (s : Bytes) : Option (Bytes × Bytes) :=
  match s with
  | 0x5B :: inner =>
    if s.length < 3 ∨ 0x5D ∉ inner then none
    else some (inner.takeWhile (· ≠ 0x5D), (inner.dropWhile (· ≠ 0x5D)).drop 1)
  | _ => none

/-- `argNumber`, with one argument -/
def argNumber (sc : Scan) : Scan :=
  match sc.rest with
  | 0x5B :: inner =>
    match bracketed sc.rest with
    | none => { sc with args := ⟨sc.args.argNum, true⟩, good := false, afterIndex := false, rest := inner }
    | some (index, rest) =>
      match parsenum index with
      | (some 1, []) => { sc with args := ⟨0, true⟩, afterIndex := true, rest := rest }
      | (some _, []) => { sc with args := ⟨sc.args.argNum, true⟩, good := false, afterIndex := true, rest := rest }
      | _ => { sc with args := ⟨sc.args.argNum, true⟩, good := false, afterIndex := false, rest := rest }
  | _ => { sc with afterIndex := false }

/-- `intFromArg`: a string is no width and no precision, but it is used up -/
def Args.next (a : Args) : Args := if a.argNum < 1 then { a with argNum := a.argNum + 1 } else a

def scanWidth (sc : Scan) : Scan :=
  match sc.rest with
  | 0x2A :: rest => { sc with args := sc.args.next, errs := sc.errs ++ badWidth, afterIndex := false, rest := rest }
  | _ =>
    let (num, rest) := parsenum sc.rest
    { sc with good := sc.good && !(sc.afterIndex && num.isSome), spec := { sc.spec with wid := num }, rest := rest }

def scanPrec (sc : Scan) : Scan :=
  match sc.rest with
  | 0x2E :: rest =>
    let sc := argNumber { sc with good := sc.good && !sc.afterIndex, rest := rest }
    match sc.rest with
    | 0x2A :: rest => { sc with args := sc.args.next, errs := sc.errs ++ badPrec, afterIndex := false, rest := rest }
    | _ =>
      let (num, rest) := parsenum sc.rest
      { sc with spec := { sc.spec with prec := some (num.getD 0) }, rest := rest }
  | _ => sc

/-- what a directive writes, and what follows it -/
structure Written where
  out : Bytes
  args : Args
  rest : Bytes

def finish (Q : Quoting) (u : Bytes) (sc : Scan) : Written :=
  match sc.rest with
  | [] => ⟨sc.errs ++ noVerb, sc.args, []⟩
  | _ =>
    let (verb, rest) := decodeRune sc.rest
    if verb = [0x25] then ⟨sc.errs ++ [0x25], sc.args, rest⟩
    else if sc.good = false then ⟨sc.errs ++ banged verb (ascii "(BADINDEX)"), sc.args, rest⟩
    else if 1 ≤ sc.args.argNum then ⟨sc.errs ++ banged verb (ascii "(MISSING)"), sc.args, rest⟩
    else ⟨sc.errs ++ printArg Q sc.spec verb u, ⟨sc.args.argNum + 1, sc.args.reordered⟩, rest⟩

/-- one directive, after its `%`. The fast path for lower-case verbs does the same. -/
def directive (Q : Quoting) (u : Bytes) (args : Args) (s : Bytes) : Written :=
  let sc := scanPrec (scanWidth (argNumber (scanFlags ⟨args, true, false, .clear, [], s⟩)))
  finish Q u (if sc.afterIndex then sc else argNumber sc)

/-- the report of an argument that was not used -/
def extra (u : Bytes) (args : Args) : Bytes :=
  if args.reordered = false ∧ args.argNum < 1 then ascii "%!(EXTRA string=" ++ u ++ ascii ")" else []

/-! ## The text of a directive -/

/-- an argument index was used, or the argument -/
def Spent (a : Args) : Prop := a.reordered = true ∨ 1 ≤ a.argNum

/-- what flags, width, precision and argument index start with -/
def special (b : UInt8) : Bool := flag b || (0x30 ≤ b && b ≤ 0x39) || b = 0x5B || b = 0x2A || b = 0x2E

/-- a percent sign is followed by an exclamation mark -/
def Bang (a b : UInt8) : Prop := a = 0x25 → b = 0x21

instance : DecidableRel Bang := fun a b => inferInstanceAs (Decidable (a = 0x25 → b = 0x21))

/-- error texts, one after the other -/
def Errs (s : Bytes) : Prop := s.IsChain Bang ∧ s.getLast? ≠ some 0x25

/-- a directive that has taken `c` off the text `s` -/
structure Took (a : Args) (s : Bytes) (sc : Scan) (c : Bytes) : Prop where
  text : s = c ++ sc.rest
  head : ∀ b, c.head? = some b → special b = true
  /-- only an argument index, or a number that is too large, takes other characters -/
  plain : sc.args.reordered = true ∨ sc.rest = [] ∨ ∀ b ∈ c, special b = true
  spent : Spent a → Spent sc.args
  good : sc.good = false → sc.args.reordered = true
  errs : Errs sc.errs
  star : sc.errs ≠ [] → c ≠ [] ∧ Spent sc.args

theorem Errs.append {s t : Bytes} (hs : Errs s) (ht : Errs t) : Errs (s ++ t) := by
  refine ⟨List.isChain_append.2 ⟨hs.1, ht.1, ?_⟩, ?_⟩
  · intro x hx y _ hpercent
    rw [hpercent] at hx
    exact absurd hx hs.2
  · rw [List.getLast?_append]
    cases hl : t.getLast? with
    | none => exact hs.2
    | some b =>
      have := ht.2
      rw [hl] at this
      exact this

/-- a stage takes `d` off what is left -/
theorem Took.then {a : Args} {s c d : Bytes} {sc sc' : Scan} (h : Took a s sc c) (hrest : sc.rest = d ++ sc'.rest)
    (hhead : ∀ b, d.head? = some b → special b = true)
    (hindex : sc.args.reordered = true → sc'.args.reordered = true)
    (hplain : sc'.args.reordered = true ∨ sc'.rest = [] ∨ ∀ b ∈ d, special b = true)
    (hspent : Spent sc.args → Spent sc'.args) (hgood : sc'.good = false → sc.good = false ∨ sc'.args.reordered = true)
    (herrs : sc'.errs = sc.errs ∨ ∃ e, sc'.errs = sc.errs ++ e ∧ Errs e ∧ d ≠ [] ∧ Spent sc'.args) :
    Took a s sc' (c ++ d) where
  text := by rw [List.append_assoc, ← hrest]; exact h.text
  head := by
    intro b hb
    cases c with
    | nil => exact hhead b hb
    | cons x c => exact h.head b hb
  plain := by
    rcases h.plain with hp | hp | hp
    · exact Or.inl (hindex hp)
    · rw [hp] at hrest
      exact Or.inr (Or.inl (List.append_eq_nil_iff.1 hrest.symm).2)
    · rcases hplain with hq | hq | hq
      · exact Or.inl hq
      · exact Or.inr (Or.inl hq)
      · exact Or.inr (Or.inr (List.forall_mem_append.2 ⟨hp, hq⟩))
  spent := fun ha => hspent (h.spent ha)
  good := by
    intro hg
    rcases hgood hg with hg | hg
    · exact hindex (h.good hg)
    · exact hg
  errs := by
    rcases herrs with he | ⟨e, he, hok, -⟩
    · rw [he]; exact h.errs
    · rw [he]; exact h.errs.append hok
  star := by
    intro hne
    rcases herrs with he | ⟨e, -, -, hd, hs⟩
    · rw [he] at hne
      obtain ⟨hc, hs⟩ := h.star hne
      exact ⟨by simp [hc], hspent hs⟩
    · exact ⟨by simp [hd], hs⟩

theorem special_of_flag {b : UInt8} (h : flag b = true) : special b = true := by simp [special, h]

theorem took_flags (a : Args) (s : Bytes) :
    Took a s (scanFlags ⟨a, true, false, .clear, [], s⟩) (s.takeWhile flag) where
  text := List.takeWhile_append_dropWhile.symm
  head := by
    intro b hb
    exact special_of_flag (List.mem_takeWhile_imp (List.mem_of_head? hb))
  plain := Or.inr (Or.inr fun b hb => special_of_flag (List.mem_takeWhile_imp hb))
  spent := id
  good := by intro h; cases h
  errs := ⟨List.isChain_nil, by simp [scanFlags]⟩
  star := by intro h; exact absurd rfl h

/-- what `parsenum` takes off is digits, or everything -/
theorem parsenum_rest (s : Bytes) : ∃ d, s = d ++ (parsenum s).2 ∧ (∀ b, d.head? = some b → special b = true) ∧
    ((parsenum s).2 = [] ∨ ∀ b ∈ d, special b = true) := by
  have hgo : ∀ (s : Bytes) (num : Option ℕ), ∃ d, s = d ++ (parsenum.go num s).2 ∧
      (num.isNone → ∀ b, d.head? = some b → special b = true) ∧
      ((parsenum.go num s).2 = [] ∨ ∀ b ∈ d, special b = true) := by
    intro s
    induction s with
    | nil => exact fun num => ⟨[], rfl, by simp, Or.inl rfl⟩
    | cons b s ih =>
      intro num
      simp only [parsenum.go]
      split_ifs with hdigit hlarge
      · refine ⟨b :: s, by simp, ?_, Or.inl rfl⟩
        intro hnone
        rw [Option.isNone_iff_eq_none.1 hnone] at hlarge
        simp at hlarge
      · have hb : special b = true := by simp [special, hdigit]
        obtain ⟨d, hd, -, hplain⟩ := ih (some (num.getD 0 * 10 + (b.toNat - 0x30)))
        refine ⟨b :: d, by rw [List.cons_append, ← hd], by simp [hb], ?_⟩
        rcases hplain with hp | hp
        · exact Or.inl hp
        · exact Or.inr (List.forall_mem_cons.2 ⟨hb, hp⟩)
      · exact ⟨[], rfl, by simp, Or.inr (by simp)⟩
  obtain ⟨d, hd, hhead, hplain⟩ := hgo s none
  exact ⟨d, hd, hhead rfl, hplain⟩

/-- what is between brackets is taken off with them -/
theorem bracketed_rest {s index rest : Bytes} (h : bracketed s = some (index, rest)) : ∃ d, s = 0x5B :: d ++ rest := by
  unfold bracketed at h
  split at h
  · rename_i inner
    split_ifs at h with hshort
    push Not at hshort
    simp only [Option.some.injEq, Prod.mk.injEq] at h
    obtain ⟨hi, hr⟩ := h
    cases hd : inner.dropWhile (· ≠ 0x5D) with
    | nil =>
      have := List.dropWhile_eq_nil_iff.1 hd _ hshort.2
      simp at this
    | cons b tail =>
      refine ⟨inner.takeWhile (· ≠ 0x5D) ++ [b], ?_⟩
      rw [hd, List.drop_one, List.tail_cons] at hr
      rw [← hr]
      have := List.takeWhile_append_dropWhile (p := fun x : UInt8 => decide (x ≠ 0x5D)) (l := inner)
      rw [hd] at this
      simp only [List.cons_append, List.append_assoc, List.nil_append, this]
  · cases h

theorem Took.argNumber {a : Args} {s c : Bytes} {sc : Scan} (h : Took a s sc c) :
    ∃ d, Took a s (argNumber sc) (c ++ d) := by
  have hbracket : ∀ (d : Bytes) (sc' : Scan), sc.rest = 0x5B :: d ++ sc'.rest → sc'.args.reordered = true →
      sc'.errs = sc.errs → Took a s sc' (c ++ 0x5B :: d) := by
    intro d sc' hrest hindex herrs
    refine h.then hrest ?_ (fun _ => hindex) (Or.inl hindex) (fun _ => Or.inl hindex) (fun _ => Or.inr hindex)
      (Or.inl herrs)
    intro b hb
    obtain rfl : 0x5B = b := by simpa using hb
    decide
  unfold Sprintf.argNumber
  split
  · rename_i inner hrest
    split
    · exact ⟨_, hbracket [] _ hrest rfl rfl⟩
    · rename_i index rest hb
      obtain ⟨d, hd⟩ := bracketed_rest hb
      split <;> exact ⟨_, hbracket d _ hd rfl rfl⟩
  · refine ⟨[], h.then rfl (by simp) id (Or.inr (Or.inr (by simp))) id (fun hg => Or.inl hg) (Or.inl rfl)⟩

theorem spent_next (a : Args) : Spent a.next := by
  unfold Args.next Spent
  split_ifs with hlt
  · right
    simp
  · right
    omega

theorem next_reordered (a : Args) : a.next.reordered = a.reordered := by
  unfold Args.next
  split_ifs <;> rfl

theorem errs_bad {e : Bytes} (h : e = badWidth ∨ e = badPrec ∨ e = noVerb) : Errs e := by
  rcases h with rfl | rfl | rfl <;> exact ⟨by decide, by decide⟩

/-- a star takes the argument and is reported -/
theorem Took.star_next {a : Args} {s c rest : Bytes} {sc sc' : Scan} (h : Took a s sc c)
    (hrest : sc.rest = 0x2A :: rest) {e : Bytes} (he : e = badWidth ∨ e = badPrec ∨ e = noVerb)
    (hsc : sc' = { sc with args := sc.args.next, errs := sc.errs ++ e, afterIndex := false, rest := rest }) :
    Took a s sc' (c ++ [0x2A]) := by
  subst hsc
  refine h.then hrest ?_ ?_ (Or.inr (Or.inr ?_)) ?_ (fun hg => Or.inl hg) (Or.inr ⟨e, rfl, errs_bad he, by simp, ?_⟩)
  · intro b hb
    obtain rfl : 0x2A = b := by simpa using hb
    decide
  · intro hr
    exact (next_reordered sc.args).trans hr
  · intro b hb
    rw [List.mem_singleton.1 hb]
    decide
  · exact fun _ => spent_next sc.args
  · exact spent_next sc.args

theorem Took.scanWidth {a : Args} {s c : Bytes} {sc : Scan} (h : Took a s sc c)
    (hindex : sc.afterIndex = true → sc.args.reordered = true) : ∃ d, Took a s (scanWidth sc) (c ++ d) := by
  unfold Sprintf.scanWidth
  split
  · rename_i rest hrest
    exact ⟨[0x2A], h.star_next hrest (Or.inl rfl) rfl⟩
  · obtain ⟨d, hd, hhead, hplain⟩ := parsenum_rest sc.rest
    refine ⟨d, h.then hd hhead id ?_ id ?_ (Or.inl rfl)⟩
    · exact Or.inr hplain
    · intro hg
      simp only [Bool.and_eq_false_iff] at hg
      rcases hg with hg | hg
      · exact Or.inl hg
      · have : sc.afterIndex = true := by
          by_contra hn
          simp [hn] at hg
        exact Or.inr (hindex this)

theorem Took.scanPrec {a : Args} {s c : Bytes} {sc : Scan} (h : Took a s sc c)
    (hindex : sc.afterIndex = true → sc.args.reordered = true) : ∃ d, Took a s (scanPrec sc) (c ++ d) := by
  unfold Sprintf.scanPrec
  split
  · rename_i rest hrest
    have hdot : Took a s { sc with good := sc.good && !sc.afterIndex, rest := rest } (c ++ [0x2E]) := by
      refine h.then hrest ?_ id (Or.inr (Or.inr ?_)) id ?_ (Or.inl rfl)
      · intro b hb
        obtain rfl : 0x2E = b := by simpa using hb
        decide
      · intro b hb
        rw [List.mem_singleton.1 hb]
        decide
      · intro hg
        simp only [Bool.and_eq_false_iff] at hg
        rcases hg with hg | hg
        · exact Or.inl hg
        · exact Or.inr (hindex (by simpa using hg))
    obtain ⟨d, hd⟩ := hdot.argNumber
    simp only
    split
    · rename_i rest' hrest'
      refine ⟨[0x2E] ++ d ++ [0x2A], ?_⟩
      rw [← List.append_assoc, ← List.append_assoc]
      exact hd.star_next hrest' (Or.inr (Or.inl rfl)) rfl
    · obtain ⟨d', hd', hhead, hplain⟩ := parsenum_rest (Sprintf.argNumber _).rest
      refine ⟨[0x2E] ++ d ++ d', ?_⟩
      rw [← List.append_assoc, ← List.append_assoc]
      exact hd.then hd' hhead id (Or.inr hplain) id (fun hg => Or.inl hg) (Or.inl rfl)
  · exact ⟨[], by simpa using h⟩

theorem argNumber_index (sc : Scan) :
    (argNumber sc).afterIndex = true → (argNumber sc).args.reordered = true := by
  unfold argNumber
  split
  · split
    · exact fun _ => rfl
    · split <;> exact fun _ => rfl
  · intro h'
    cases h'

theorem scanWidth_index (sc : Scan) (h : sc.afterIndex = true → sc.args.reordered = true) :
    (scanWidth sc).afterIndex = true → (scanWidth sc).args.reordered = true := by
  unfold scanWidth
  split
  · intro h'
    cases h'
  · exact h

/-- **The stages of a directive** take a text off the format. -/
theorem took_stages (a : Args) (s : Bytes) : ∃ c sc, Took a s sc c ∧ ∀ Q u, directive Q u a s = finish Q u sc := by
  have hflags := took_flags a s
  obtain ⟨c₁, h₁⟩ := hflags.argNumber
  have hi₁ := argNumber_index (scanFlags ⟨a, true, false, .clear, [], s⟩)
  obtain ⟨c₂, h₂⟩ := h₁.scanWidth hi₁
  obtain ⟨c₃, h₃⟩ := h₂.scanPrec (scanWidth_index _ hi₁)
  by_cases hafter : (scanPrec (scanWidth (argNumber (scanFlags ⟨a, true, false, .clear, [], s⟩)))).afterIndex = true
  · refine ⟨_, _, h₃, ?_⟩
    intro Q u
    simp only [directive, hafter, if_true]
  · obtain ⟨c₄, h₄⟩ := h₃.argNumber
    refine ⟨_, _, h₄, ?_⟩
    intro Q u
    simp only [directive, hafter, if_false, Bool.false_eq_true]

/-! ## The verb -/

theorem runeLen_high {b : UInt8} {rest : Bytes} (hb : 0x80 ≤ b) {n : ℕ} (h : runeLen (b :: rest) = some n) :
    1 ≤ n ∧ ∀ x ∈ (b :: rest).take n, 0x80 ≤ x := by
  have hmem : ∀ k x, x ∈ (b :: rest).take (k + 1) → x = b ∨ ∃ i < k, x = rest.getD i 0 := by
    intro k x hx
    rw [List.take_succ_cons] at hx
    rcases List.mem_cons.1 hx with hx | hx
    · exact Or.inl hx
    · obtain ⟨i, hi, hget⟩ := List.mem_take_iff_getElem.1 hx
      refine Or.inr ⟨i, by omega, ?_⟩
      rw [← hget, List.getD_eq_getElem?_getD, List.getElem?_eq_getElem (by omega), Option.getD_some]
  have hcont : ∀ x, continuation x = true → 0x80 ≤ x := by
    intro x hx
    exact (of_decide_eq_true hx).1
  have hlead : ∀ x y : UInt8, 0x80 ≤ y → y ≤ x → 0x80 ≤ x := fun x y hy hyx => UInt8.le_trans hy hyx
  simp only [runeLen] at h
  have hlow : ¬ b < 0x80 := UInt8.not_lt.2 hb
  rw [if_neg hlow] at h
  split_ifs at h with h₂ h₃ h₄ <;> obtain rfl := Option.some.inj h
  · refine ⟨by omega, fun x hx => ?_⟩
    rcases hmem 1 x hx with rfl | ⟨i, hi, rfl⟩
    · exact hb
    · obtain rfl : i = 0 := by omega
      exact hcont _ h₂.2.2
  · refine ⟨by omega, fun x hx => ?_⟩
    have hsecond : 0x80 ≤ rest.getD 0 0 := by
      rcases h₃.1 with h | h | h
      · exact hlead _ _ (by decide) h.2.1
      · exact h.2.1
      · exact hcont _ h.2.2.2
    rcases hmem 2 x hx with rfl | ⟨i, hi, rfl⟩
    · exact hb
    · obtain rfl | rfl : i = 0 ∨ i = 1 := by omega
      · exact hsecond
      · exact hcont _ h₃.2
  · refine ⟨by omega, fun x hx => ?_⟩
    have hsecond : 0x80 ≤ rest.getD 0 0 := by
      rcases h₄.1 with h | h | h
      · exact hlead _ _ (by decide) h.2.1
      · exact h.2.1
      · exact hcont _ h.2.2
    rcases hmem 3 x hx with rfl | ⟨i, hi, rfl⟩
    · exact hb
    · obtain rfl | rfl | rfl : i = 0 ∨ i = 1 ∨ i = 2 := by omega
      · exact hsecond
      · exact hcont _ h₄.2.1
      · exact hcont _ h₄.2.2

/-- the rune at the front is one ASCII character, or bytes beyond ASCII -/
theorem decodeRune_cons (b : UInt8) (rest : Bytes) :
    decodeRune (b :: rest) = ([b], rest) ∨
      ∃ raw, b :: rest = raw ++ (decodeRune (b :: rest)).2 ∧ raw ≠ [] ∧ (decodeRune (b :: rest)).1 ≠ [] ∧
        ∀ x ∈ raw ++ (decodeRune (b :: rest)).1, 0x80 ≤ x := by
  by_cases hb : b < 0x80
  · left
    have hlen : runeLen (b :: rest) = some 1 := by simp only [runeLen, if_pos hb]
    simp only [decodeRune, hlen]
    rfl
  · right
    have hb' : 0x80 ≤ b := UInt8.not_lt.1 hb
    cases hlen : runeLen (b :: rest) with
    | none =>
      simp only [decodeRune, hlen]
      refine ⟨[b], rfl, by simp, by simp, ?_⟩
      intro x hx
      simp only [List.cons_append, List.nil_append, List.mem_cons, List.not_mem_nil, or_false] at hx
      rcases hx with rfl | rfl | rfl | rfl
      · exact hb'
      all_goals decide
    | some n =>
      obtain ⟨hn, hall⟩ := runeLen_high hb' hlen
      obtain ⟨n, rfl⟩ : ∃ k, n = k + 1 := ⟨n - 1, by omega⟩
      simp only [decodeRune, hlen]
      refine ⟨(b :: rest).take (n + 1), (List.take_append_drop _ _).symm, by simp, by simp, ?_⟩
      intro x hx
      rcases List.mem_append.1 hx with hx | hx <;> exact hall x hx

/-! ## The whole call -/

/-- **A directive is a prefix of the format.** -/
theorem directive_rest (Q : Quoting) (u : Bytes) (a : Args) (s : Bytes) :
    ∃ c, s = c ++ (directive Q u a s).rest := by
  obtain ⟨c, sc, htook, hdir⟩ := took_stages a s
  rw [hdir]
  have hfinish : ∃ d, sc.rest = d ++ (finish Q u sc).rest := by
    unfold finish
    cases hrest : sc.rest with
    | nil => exact ⟨[], rfl⟩
    | cons b rest =>
      have hrune : ∃ d, b :: rest = d ++ (decodeRune (b :: rest)).2 := by
        rcases decodeRune_cons b rest with h | ⟨raw, h, -⟩
        · exact ⟨[b], by rw [h]; rfl⟩
        · exact ⟨raw, h⟩
      simp only
      split_ifs <;> exact hrune
  obtain ⟨d, hd⟩ := hfinish
  exact ⟨c ++ d, by rw [List.append_assoc, ← hd]; exact htook.text⟩

/-- `doPrintf` from some place on -/
def printf (Q : Quoting) (u : Bytes) (a : Args) : Bytes → Bytes
  | [] => extra u a
  | b :: s =>
    if b = 0x25 then (directive Q u a s).out ++ printf Q u (directive Q u a s).args (directive Q u a s).rest
    else b :: printf Q u a s
termination_by s => s.length
decreasing_by
  · obtain ⟨c, hc⟩ := directive_rest Q u a s
    have := congrArg List.length hc
    rw [List.length_append] at this
    simp only [List.length_cons]
    omega
  · simp

def sprintf (Q : Quoting) (format u : Bytes) : Bytes := printf Q u ⟨0, false⟩ format

end NotifyAgent.Lib.Sprintf
