/-
Writing and reading XML 1.0: elements, attributes, character data and the five predefined entities.

The reader takes one character at a time (`step`) and emits tokens; `build` makes a tree of the tokens. It does not
normalise white space. What it does not know (comments, CDATA, processing instructions, a prolog, character references,
names outside ASCII, white space around `=`) it refuses, so a text that it reads to a tree is well formed as far as
markup goes; `WellFormed` adds that every character is in the `Char` production.

- `run_escape`: escaped text is read back as the text, in character data and in a quoted attribute value;
- `tokens_emit`: reading what was written gives the tokens written, with neighbouring text joined and empty text left
  out, whatever the texts and attribute values are;
- `buildFrom_append`, `buildFrom_leaf`: building a tree token group by token group;
- `xmlChar_escape_iff`: escaping neither adds nor removes an illegal character.
-/
import Mathlib.Tactic
import NotifyAgent.Lib.Machine

namespace NotifyAgent.Lib.Xml

open NotifyAgent.Lib.Machine (run run_nil run_cons run_append run_gathered)

/-! ## Text -/

abbrev Text := List Char

/-- the `Char` production -/
def XmlChar (c : Char) : Prop :=
  c.toNat = 0x9 ∨ c.toNat = 0xA ∨ c.toNat = 0xD ∨ (0x20 ≤ c.toNat ∧ c.toNat ≤ 0xD7FF) ∨
    (0xE000 ≤ c.toNat ∧ c.toNat ≤ 0xFFFD) ∨ (0x10000 ≤ c.toNat ∧ c.toNat ≤ 0x10FFFF)

instance : DecidablePred XmlChar := fun c => by unfold XmlChar; infer_instance

def nameStart (c : Char) : Bool := c.isAlpha || c == '_' || c == ':'

def nameChar (c : Char) : Bool := nameStart c || c.isDigit || c == '-' || c == '.'

def isName : Text → Bool
  | [] => false
  | c :: s => nameStart c && s.all nameChar

def space (c : Char) : Bool := c == ' ' || c == '\t' || c == '\n' || c == '\r'

/-- the five predefined entities -/
def entity (name : Text) : Option Char :=
  if name = "amp".toList then some '&'
  else if name = "lt".toList then some '<'
  else if name = "gt".toList then some '>'
  else if name = "quot".toList then some '"'
  else if name = "apos".toList then some '\''
  else none

def escapeChar (c : Char) : Text :=
  if c = '&' then "&amp;".toList
  else if c = '<' then "&lt;".toList
  else if c = '>' then "&gt;".toList
  else if c = '"' then "&quot;".toList
  else if c = '\'' then "&apos;".toList
  else [c]

def escape (s : Text) : Text := s.flatMap escapeChar

abbrev Attrs := List (Text × Text)

inductive Token where
  | start (name : Text) (attrs : Attrs)
  | empty (name : Text) (attrs : Attrs)
  | close (name : Text)
  | text (s : Text)
deriving DecidableEq, Repr

/-! ## Writing -/

def emitAttrs (attrs : Attrs) : Text := attrs.flatMap fun a => ' ' :: (a.1 ++ '=' :: '"' :: (escape a.2 ++ ['"']))

def emit : Token → Text
  | .start name attrs => '<' :: (name ++ (emitAttrs attrs ++ ['>']))
  | .empty name attrs => '<' :: (name ++ (emitAttrs attrs ++ ['/', '>']))
  | .close name => '<' :: '/' :: (name ++ ['>'])
  | .text s => escape s

def emitAll (ts : List Token) : Text := ts.flatMap emit

section
variable (rest : Text)

theorem emitAll_append (a b : List Token) : emitAll (a ++ b) = emitAll a ++ emitAll b := List.flatMap_append

theorem emitAttrs_cons_append (a : Text × Text) (attrs : Attrs) :
    emitAttrs (a :: attrs) ++ rest =
      ' ' :: (a.1 ++ '=' :: '"' :: (escape a.2 ++ '"' :: (emitAttrs attrs ++ rest))) := by
  simp [emitAttrs]

theorem emit_empty_append (name : Text) (attrs : Attrs) :
    emit (.empty name attrs) ++ rest = '<' :: (name ++ (emitAttrs attrs ++ '/' :: '>' :: rest)) := by
  simp [emit]

end

/-! ## Reading -/

/-- where character data goes -/
inductive Sink where
  | content (s : Text)
  | value (name : Text) (attrs : Attrs) (attr : Text) (quote : Char) (s : Text)

def Sink.push : Sink → Text → Sink
  | .content s, t => .content (s ++ t)
  | .value name attrs attr quote s, t => .value name attrs attr quote (s ++ t)

inductive Mode where
  | data (k : Sink)
  /-- after `&` -/
  | reference (ref : Text) (k : Sink)
  /-- after `<` -/
  | tag
  | startName (name : Text)
  | closeName (name : Text)
  /-- in a start tag, after the name or an attribute -/
  | afterAttr (name : Text) (attrs : Attrs)
  /-- the same after white space -/
  | spaced (name : Text) (attrs : Attrs)
  | attrName (name : Text) (attrs : Attrs) (attr : Text)
  /-- after `=` -/
  | opening (name : Text) (attrs : Attrs) (attr : Text)
  /-- after `/` in a start tag -/
  | closing (name : Text) (attrs : Attrs)
  | failed

structure St where
  mode : Mode
  out : List Token

/-- the text token of what was read, none if nothing was -/
def flush (s : Text) : List Token := if s = [] then [] else [.text s]

/-- the rest of a start tag -/
def stepTag (out : List Token) (name : Text) (attrs : Attrs) (c : Char) : St :=
  if c = '>' then ⟨.data (.content []), out ++ [.start name attrs]⟩
  else if c = '/' then ⟨.closing name attrs, out⟩
  else if space c then ⟨.spaced name attrs, out⟩
  else ⟨.failed, out⟩

def step (st : St) (c : Char) : St :=
  match st.mode with
  | .data k =>
    if c = '&' then ⟨.reference [] k, st.out⟩
    else
      match k with
      | .content s =>
        if c = '<' then ⟨.tag, st.out ++ flush s⟩
        else if c = '>' ∧ [']', ']'] <:+ s then ⟨.failed, st.out⟩
        else ⟨.data (k.push [c]), st.out⟩
      | .value name attrs attr quote s =>
        if c = quote then
          if attr ∈ attrs.map Prod.fst then ⟨.failed, st.out⟩ else ⟨.afterAttr name (attrs ++ [(attr, s)]), st.out⟩
        else if c = '<' then ⟨.failed, st.out⟩
        else ⟨.data (k.push [c]), st.out⟩
  | .reference ref k =>
    if c = ';' then
      match entity ref with
      | some d => ⟨.data (k.push [d]), st.out⟩
      | none => ⟨.failed, st.out⟩
    else ⟨.reference (ref ++ [c]) k, st.out⟩
  | .tag =>
    if c = '/' then ⟨.closeName [], st.out⟩
    else if nameStart c then ⟨.startName [c], st.out⟩
    else ⟨.failed, st.out⟩
  | .startName name => if nameChar c then ⟨.startName (name ++ [c]), st.out⟩ else stepTag st.out name [] c
  | .closeName name =>
    if c = '>' then
      if isName name then ⟨.data (.content []), st.out ++ [.close name]⟩ else ⟨.failed, st.out⟩
    else ⟨.closeName (name ++ [c]), st.out⟩
  | .afterAttr name attrs => stepTag st.out name attrs c
  | .spaced name attrs =>
    if nameStart c then ⟨.attrName name attrs [c], st.out⟩ else stepTag st.out name attrs c
  | .attrName name attrs attr =>
    if nameChar c then ⟨.attrName name attrs (attr ++ [c]), st.out⟩
    else if c = '=' then ⟨.opening name attrs attr, st.out⟩
    else ⟨.failed, st.out⟩
  | .opening name attrs attr =>
    if c = '"' ∨ c = '\'' then ⟨.data (.value name attrs attr c []), st.out⟩ else ⟨.failed, st.out⟩
  | .closing name attrs =>
    if c = '>' then ⟨.data (.content []), st.out ++ [.empty name attrs]⟩ else ⟨.failed, st.out⟩
  | .failed => st

/-- the tokens of a text, if it ends between tokens -/
def tokens (doc : Text) : Option (List Token) :=
  let final := run step ⟨.data (.content []), []⟩ doc
  match final.mode with
  | .data (.content s) => some (final.out ++ flush s)
  | _ => none

/-! ## Reading back what was written -/

theorem escape_cons (c : Char) (s : Text) : escape (c :: s) = escapeChar c ++ escape s := rfl

/-- a sink that escaped text can be read into: content, or a value in double quotes -/
def Sink.Quoted : Sink → Prop
  | .content _ => True
  | .value _ _ _ quote _ => quote = '"'

theorem Sink.push_quoted {k : Sink} (h : k.Quoted) (t : Text) : (k.push t).Quoted := by
  cases k <;> exact h

theorem Sink.push_push (k : Sink) (s t : Text) : (k.push s).push t = k.push (s ++ t) := by
  cases k <;> simp [Sink.push]

@[simp] theorem Sink.push_nil (k : Sink) : k.push [] = k := by
  cases k <;> simp [Sink.push]

/-- a reference, up to its semicolon -/
theorem run_reference (out : List Token) (k : Sink) (ref : Text) {name : Text} (h : ';' ∉ name) :
    run step ⟨.reference ref k, out⟩ name = ⟨.reference (ref ++ name) k, out⟩ := by
  refine run_gathered step (f := fun ref => ⟨.reference ref k, out⟩) (fun acc c hc => ?_) ref
  have hne : c ≠ ';' := fun heq => h (heq ▸ hc)
  simp [step, hne]

theorem run_entity (out : List Token) (k : Sink) (name : Text) {d : Char} (hname : ';' ∉ name)
    (hd : entity name = some d) :
    run step ⟨.data k, out⟩ ('&' :: (name ++ [';'])) = ⟨.data (k.push [d]), out⟩ := by
  have hamp : step ⟨.data k, out⟩ '&' = ⟨.reference [] k, out⟩ := by simp [step]
  rw [run_cons, hamp, run_append, run_reference out k [] hname, run_cons]
  simp [step, hd]

theorem run_escapeChar (out : List Token) {k : Sink} (hk : k.Quoted) (c : Char) :
    run step ⟨.data k, out⟩ (escapeChar c) = ⟨.data (k.push [c]), out⟩ := by
  unfold escapeChar
  split_ifs with h1 h2 h3 h4 h5
  · subst h1; exact run_entity out k "amp".toList (by decide) (by decide)
  · subst h2; exact run_entity out k "lt".toList (by decide) (by decide)
  · subst h3; exact run_entity out k "gt".toList (by decide) (by decide)
  · subst h4; exact run_entity out k "quot".toList (by decide) (by decide)
  · subst h5; exact run_entity out k "apos".toList (by decide) (by decide)
  · cases k with
    | content s => simp [run_cons, step, h1, h2, h3]
    | value name attrs attr quote s =>
      have hq : quote = '"' := hk
      subst hq
      simp [run_cons, step, h1, h2, h4]

/-- **Escaped text is read back as the text.** -/
theorem run_escape (out : List Token) {k : Sink} (hk : k.Quoted) (s : Text) :
    run step ⟨.data k, out⟩ (escape s) = ⟨.data (k.push s), out⟩ := by
  induction s generalizing k with
  | nil => simp [escape]
  | cons c s ih =>
    rw [escape_cons, run_append, run_escapeChar out hk, ih (Sink.push_quoted hk [c]), Sink.push_push]
    rfl

theorem isName_cons {name : Text} (h : isName name = true) :
    ∃ c s, name = c :: s ∧ nameStart c = true ∧ ∀ d ∈ s, nameChar d = true := by
  cases name with
  | nil => cases h
  | cons c s => exact ⟨c, s, rfl, by simpa [isName] using h⟩

theorem nameStart_ne {c : Char} (h : nameStart c = true) : c ≠ '/' ∧ c ≠ '>' ∧ c ≠ '=' ∧ space c = false := by
  refine ⟨?_, ?_, ?_, ?_⟩
  · rintro rfl; revert h; decide
  · rintro rfl; revert h; decide
  · rintro rfl; revert h; decide
  · unfold space
    simp only [Bool.or_eq_false_iff, beq_eq_false_iff_ne]
    refine ⟨⟨⟨?_, ?_⟩, ?_⟩, ?_⟩ <;> rintro rfl <;> revert h <;> decide

theorem nameChar_ne {c : Char} (h : nameChar c = true) : c ≠ '>' ∧ c ≠ '=' := by
  constructor <;> rintro rfl <;> revert h <;> decide

theorem run_startName (out : List Token) (name : Text) {s : Text} (h : ∀ d ∈ s, nameChar d = true) :
    run step ⟨.startName name, out⟩ s = ⟨.startName (name ++ s), out⟩ :=
  run_gathered step (f := fun name => ⟨.startName name, out⟩) (fun acc c hc => by simp [step, h c hc]) name

theorem run_attrName (out : List Token) (name : Text) (attrs : Attrs) (attr : Text) {s : Text}
    (h : ∀ d ∈ s, nameChar d = true) :
    run step ⟨.attrName name attrs attr, out⟩ s = ⟨.attrName name attrs (attr ++ s), out⟩ :=
  run_gathered step (f := fun attr => ⟨.attrName name attrs attr, out⟩) (fun acc c hc => by simp [step, h c hc]) attr

theorem run_closeName (out : List Token) (name : Text) {s : Text} (h : ∀ d ∈ s, d ≠ '>') :
    run step ⟨.closeName name, out⟩ s = ⟨.closeName (name ++ s), out⟩ :=
  run_gathered step (f := fun name => ⟨.closeName name, out⟩) (fun acc c hc => by simp [step, h c hc]) name

/-- attribute lists that can be written: names, each once -/
def GoodAttrs (attrs : Attrs) : Prop :=
  (∀ n ∈ attrs.map Prod.fst, isName n = true) ∧ (attrs.map Prod.fst).Nodup

theorem run_attr (out : List Token) (name : Text) (attrs : Attrs) {a : Text × Text} (ha : isName a.1 = true)
    (hnew : a.1 ∉ attrs.map Prod.fst) :
    run step ⟨.afterAttr name attrs, out⟩ (' ' :: (a.1 ++ '=' :: '"' :: (escape a.2 ++ ['"']))) =
      ⟨.afterAttr name (attrs ++ [a]), out⟩ := by
  obtain ⟨c, s, hn, hc, hs⟩ := isName_cons ha
  have hspace : step ⟨.afterAttr name attrs, out⟩ ' ' = ⟨.spaced name attrs, out⟩ := rfl
  have hfirst : step ⟨.spaced name attrs, out⟩ c = ⟨.attrName name attrs [c], out⟩ := by simp [step, hc]
  have hequals : step ⟨.attrName name attrs (c :: s), out⟩ '=' = ⟨.opening name attrs (c :: s), out⟩ := rfl
  have hquote : step ⟨.opening name attrs (c :: s), out⟩ '"' = ⟨.data (.value name attrs (c :: s) '"' []), out⟩ := rfl
  have hend : step ⟨.data (.value name attrs (c :: s) '"' a.2), out⟩ '"' =
      ⟨.afterAttr name (attrs ++ [(c :: s, a.2)]), out⟩ := by
    rw [hn] at hnew
    simp [step, hnew]
  have hquoted : (Sink.value name attrs (c :: s) '"' []).Quoted := rfl
  rw [run_cons, hspace, hn, List.cons_append, run_cons, hfirst, run_append, run_attrName out name attrs [c] hs,
    List.singleton_append, run_cons, hequals, run_cons, hquote, run_append, run_escape out hquoted, run_cons, run_nil]
  rw [← hn] at hend ⊢
  exact hend

theorem run_attrs (out : List Token) (name : Text) (attrs : Attrs) {more : Attrs} (hgood : GoodAttrs (attrs ++ more)) :
    run step ⟨.afterAttr name attrs, out⟩ (emitAttrs more) = ⟨.afterAttr name (attrs ++ more), out⟩ := by
  induction more generalizing attrs with
  | nil => simp [emitAttrs]
  | cons a more ih =>
    have hnew : a.1 ∉ attrs.map Prod.fst := by
      have := hgood.2
      rw [List.map_append, List.nodup_append] at this
      exact fun hm => this.2.2 _ hm _ (by simp) rfl
    have happ : attrs ++ a :: more = (attrs ++ [a]) ++ more := by simp
    rw [happ] at hgood ⊢
    have hsplit : emitAttrs (a :: more) = (' ' :: (a.1 ++ '=' :: '"' :: (escape a.2 ++ ['"']))) ++ emitAttrs more := rfl
    rw [hsplit, run_append, run_attr out name attrs (hgood.1 a.1 (by simp)) hnew]
    exact ih _ hgood

/-- a name that ends here is a name that was read before -/
theorem run_startName_end (out : List Token) (name : Text) {s : Text} (h : ∀ c ∈ s.head?, nameChar c = false)
    (hs : s ≠ []) : run step ⟨.startName name, out⟩ s = run step ⟨.afterAttr name [], out⟩ s := by
  obtain ⟨c, s, rfl⟩ := List.exists_cons_of_ne_nil hs
  have hc : nameChar c = false := h c rfl
  have hstep : step ⟨.startName name, out⟩ c = step ⟨.afterAttr name [], out⟩ c := by simp [step, hc]
  rw [run_cons, run_cons, hstep]

theorem run_startTag (out : List Token) {name : Text} {attrs : Attrs} (hname : isName name = true)
    (hgood : GoodAttrs attrs) {rest : Text} (hrest : rest ≠ []) (hhead : ∀ c ∈ rest.head?, nameChar c = false) :
    run step ⟨.tag, out⟩ (name ++ (emitAttrs attrs ++ rest)) = run step ⟨.afterAttr name attrs, out⟩ rest := by
  obtain ⟨c, s, rfl, hc, hs⟩ := isName_cons hname
  have hfirst : step ⟨.tag, out⟩ c = ⟨.startName [c], out⟩ := by
    simp [step, hc, (nameStart_ne hc).1]
  rw [List.cons_append, run_cons, hfirst, run_append, run_startName out [c] hs, List.singleton_append,
    run_startName_end, run_append, run_attrs out (c :: s) [] hgood, List.nil_append]
  · intro d hd
    cases attrs with
    | nil => exact hhead d hd
    | cons a attrs =>
      have : d = ' ' := by simpa [emitAttrs, eq_comm] using hd
      rw [this]; decide
  · exact List.append_ne_nil_of_right_ne_nil _ hrest

/-- tokens that can be written -/
def Good : Token → Prop
  | .start name attrs => isName name = true ∧ GoodAttrs attrs
  | .empty name attrs => isName name = true ∧ GoodAttrs attrs
  | .close name => isName name = true
  | .text _ => True

/-- neighbouring texts joined and empty texts left out, `s` being the text so far -/
def coalesce (s : Text) : List Token → List Token
  | [] => flush s
  | .text t :: ts => coalesce (s ++ t) ts
  | .start name attrs :: ts => flush s ++ .start name attrs :: coalesce [] ts
  | .empty name attrs :: ts => flush s ++ .empty name attrs :: coalesce [] ts
  | .close name :: ts => flush s ++ .close name :: coalesce [] ts

section
variable (out : List Token) (s : Text)

theorem step_lt : step ⟨.data (.content s), out⟩ '<' = ⟨.tag, out ++ flush s⟩ := rfl

theorem run_start {name : Text} {attrs : Attrs} (h : Good (.start name attrs)) :
    run step ⟨.data (.content s), out⟩ (emit (.start name attrs)) =
      ⟨.data (.content []), out ++ flush s ++ [.start name attrs]⟩ := by
  rw [emit, run_cons, step_lt, run_startTag _ h.1 h.2 (by simp) (by rintro _ ⟨⟩; rfl)]
  rfl

theorem run_empty {name : Text} {attrs : Attrs} (h : Good (.empty name attrs)) :
    run step ⟨.data (.content s), out⟩ (emit (.empty name attrs)) =
      ⟨.data (.content []), out ++ flush s ++ [.empty name attrs]⟩ := by
  rw [emit, run_cons, step_lt, run_startTag _ h.1 h.2 (by simp) (by rintro _ ⟨⟩; rfl)]
  rfl

theorem run_close {name : Text} (h : Good (.close name)) :
    run step ⟨.data (.content s), out⟩ (emit (.close name)) =
      ⟨.data (.content []), out ++ flush s ++ [.close name]⟩ := by
  have hslash : step ⟨.tag, out ++ flush s⟩ '/' = ⟨.closeName [], out ++ flush s⟩ := rfl
  have hne : ∀ d ∈ name, d ≠ '>' := by
    obtain ⟨c, t, rfl, hc, ht⟩ := isName_cons h
    intro d hd
    rcases List.mem_cons.1 hd with rfl | hd
    · exact (nameStart_ne hc).2.1
    · exact (nameChar_ne (ht d hd)).1
  have hname : isName name = true := h
  rw [emit, run_cons, step_lt, run_cons, hslash, run_append, run_closeName _ [] hne, run_cons, run_nil]
  simp [step, hname]

theorem run_emitAll {ts : List Token} (h : ∀ t ∈ ts, Good t) :
    ∃ out' s', run step ⟨.data (.content s), out⟩ (emitAll ts) = ⟨.data (.content s'), out'⟩ ∧
      out' ++ flush s' = out ++ coalesce s ts := by
  induction ts generalizing out s with
  | nil => exact ⟨out, s, rfl, rfl⟩
  | cons t ts ih =>
    have ht := h t (by simp)
    have hts : ∀ t ∈ ts, Good t := fun t ht => h t (by simp [ht])
    have hsplit : emitAll (t :: ts) = emit t ++ emitAll ts := rfl
    rw [hsplit, run_append]
    cases t with
    | start name attrs =>
      rw [run_start out s ht]
      obtain ⟨out', s', hrun, heq⟩ := ih (out ++ flush s ++ [.start name attrs]) [] hts
      exact ⟨out', s', hrun, by rw [heq]; simp [coalesce]⟩
    | empty name attrs =>
      rw [run_empty out s ht]
      obtain ⟨out', s', hrun, heq⟩ := ih (out ++ flush s ++ [.empty name attrs]) [] hts
      exact ⟨out', s', hrun, by rw [heq]; simp [coalesce]⟩
    | close name =>
      rw [run_close out s ht]
      obtain ⟨out', s', hrun, heq⟩ := ih (out ++ flush s ++ [.close name]) [] hts
      exact ⟨out', s', hrun, by rw [heq]; simp [coalesce]⟩
    | text t =>
      have hquoted : (Sink.content s).Quoted := trivial
      rw [emit, run_escape out hquoted]
      exact ih out (s ++ t) hts

end

/-- **Reading back.** -/
theorem tokens_emit {ts : List Token} (h : ∀ t ∈ ts, Good t) : tokens (emitAll ts) = some (coalesce [] ts) := by
  obtain ⟨out', s', hrun, heq⟩ := run_emitAll [] [] h
  simp only [tokens, hrun]
  rw [heq, List.nil_append]

/-! ## Trees -/

inductive Node where
  | elem (name : Text) (attrs : Attrs) (children : List Node)
  | text (s : Text)

/-- an element that is still open: its name, attributes and children so far -/
structure Frame where
  name : Text
  attrs : Attrs
  children : List Node

/-- open elements, innermost first, and the root once it is closed -/
structure Forest where
  stack : List Frame
  root : Option Node

/-- put a node where the reader is -/
def place (f : Forest) (n : Node) : Option Forest :=
  match f.stack with
  | top :: rest => some ⟨{ top with children := top.children ++ [n] } :: rest, f.root⟩
  | [] => if f.root.isNone then some ⟨[], some n⟩ else none

def buildStep (f : Forest) : Token → Option Forest
  | .start name attrs => if f.stack.isEmpty && f.root.isSome then none else some ⟨⟨name, attrs, []⟩ :: f.stack, f.root⟩
  | .empty name attrs => place f (.elem name attrs [])
  | .close name =>
    match f.stack with
    | [] => none
    | top :: rest => if top.name = name then place ⟨rest, f.root⟩ (.elem top.name top.attrs top.children) else none
  | .text s => if f.stack.isEmpty then none else place f (.text s)

def buildFrom (f : Forest) (ts : List Token) : Option Forest := ts.foldlM buildStep f

/-- the tree of a token list: all elements closed, one root -/
def build (ts : List Token) : Option Node :=
  match buildFrom ⟨[], none⟩ ts with
  | some ⟨[], some root⟩ => some root
  | _ => none

/-- the tree that a text reads to -/
def parse (doc : Text) : Option Node := (tokens doc).bind build

/-- a text that an XML processor accepts -/
def WellFormed (doc : Text) : Prop := (parse doc).isSome ∧ ∀ c ∈ doc, XmlChar c

theorem buildFrom_append (f : Forest) (a b : List Token) :
    buildFrom f (a ++ b) = (buildFrom f a).bind fun f => buildFrom f b := List.foldlM_append

/-- the text node of a text, none if it is empty -/
def textNodes (s : Text) : List Node := if s = [] then [] else [.text s]

/-- an element that holds only text -/
theorem buildFrom_leaf (top : Frame) (rest : List Frame) (root : Option Node) (name : Text) (attrs : Attrs) (s : Text) :
    buildFrom ⟨top :: rest, root⟩ (.start name attrs :: (flush s ++ [.close name])) =
      some ⟨{ top with children := top.children ++ [.elem name attrs (textNodes s)] } :: rest, root⟩ := by
  unfold flush textNodes
  split_ifs <;> simp [buildFrom, buildStep, place]

/-! ## Characters of a written text -/

/-- a text is checked along its characters -/
theorem xmlChar_of_all {l : Text} (h : l.all (fun c => decide (XmlChar c)) = true) : ∀ c ∈ l, XmlChar c := by
  simpa using h

theorem xmlChar_escapeChar_iff (c : Char) : (∀ d ∈ escapeChar c, XmlChar d) ↔ XmlChar c := by
  have hclean : ∀ l : Text, (∀ d ∈ l, XmlChar d) → ∀ e : Char, XmlChar e → ((∀ d ∈ l, XmlChar d) ↔ XmlChar e) :=
    fun l hl e he => iff_of_true hl he
  unfold escapeChar
  split_ifs with h1 h2 h3 h4 h5
  · subst h1; exact hclean _ (xmlChar_of_all (by decide)) _ (by decide)
  · subst h2; exact hclean _ (xmlChar_of_all (by decide)) _ (by decide)
  · subst h3; exact hclean _ (xmlChar_of_all (by decide)) _ (by decide)
  · subst h4; exact hclean _ (xmlChar_of_all (by decide)) _ (by decide)
  · subst h5; exact hclean _ (xmlChar_of_all (by decide)) _ (by decide)
  · simp

theorem xmlChar_escape_iff (s : Text) : (∀ c ∈ escape s, XmlChar c) ↔ ∀ c ∈ s, XmlChar c := by
  induction s with
  | nil => simp [escape]
  | cons c s ih =>
    simp only [escape_cons, List.mem_append, or_imp, forall_and, xmlChar_escapeChar_iff, ih, List.mem_cons, forall_eq]

end NotifyAgent.Lib.Xml
