/-
What `redactedURL` hides. It reads the whole text as one URL, so that the credential of the first server is masked if
`net/url` takes it, and the text is returned as it is otherwise; later servers are a part of the path.

- `redactedURL_readable`, `redactedURL_unreadable`: what is logged;
- `hidden_iff`: when two addresses that differ in their credentials are logged alike;
- `second_server_leaks`: two servers, of which the second has a token.
-/
import Mathlib.Tactic
import NotifyAgent.Core.Text
import NotifyAgent.Core.GoHost

namespace NotifyAgent.UrlRedaction

open NotifyAgent.GoHost
open NotifyAgent.Text (forall_of_all)
open NotifyAgent.Lib NotifyAgent.Lib.NetUrl

/-! ## Server addresses -/

structure Credential where
  text : Bytes
  nonempty : text ≠ []
  plain : ∀ b ∈ text, b ∉ ascii "/,@"

structure Server where
  scheme : Bytes
  host : Bytes
  port : Bytes
  scheme_valid : ValidScheme scheme
  host_nonempty : host ≠ []
  host_plain : ∀ b ∈ host, b ∉ ascii "/,@?#"
  port_nonempty : port ≠ []
  port_digits : ∀ b ∈ port, digit b = true

structure Entry where
  server : Server
  credential : Option Credential

/-- one or more servers -/
structure Address where
  first : Entry
  others : List Entry

def login : Option Credential → Bytes
  | some c => c.text ++ ascii "@"
  | none => []

def Entry.afterScheme (e : Entry) : Bytes := login e.credential ++ (e.server.host ++ ascii ":" ++ e.server.port)

def Entry.text (e : Entry) : Bytes := e.server.scheme ++ ascii "://" ++ e.afterScheme

/-- separated by commas -/
def Address.text (a : Address) : Bytes := a.first.text ++ a.others.flatMap fun e => ascii "," ++ e.text

/-- the server, and whether it has a credential -/
def Entry.shape (e : Entry) : Server × Bool := (e.server, e.credential.isSome)

/-- the same schemes, hosts and ports, and credentials in the same entries -/
structure SameServers (a b : Address) : Prop where
  first : a.first.shape = b.first.shape
  others : a.others.map Entry.shape = b.others.map Entry.shape

theorem SameServers.symm {a b : Address} (h : SameServers a b) : SameServers b a := ⟨h.first.symm, h.others.symm⟩

/-- no credential anywhere -/
def Address.Bare (a : Address) : Prop := ∀ e ∈ a.first :: a.others, e.credential = none

/-! ## As one URL -/

/-- the first server as an authority: the scheme of the next one is read as a host with an empty port -/
def Address.hostport (a : Address) : Bytes :=
  a.first.server.host ++ ascii ":" ++ a.first.server.port ++
    match a.others with
    | [] => []
    | e :: _ => ascii "," ++ e.server.scheme ++ ascii ":"

/-- the text after the first authority -/
def Address.later (a : Address) : Bytes :=
  match a.others with
  | [] => []
  | e :: es => ascii "//" ++ (e.afterScheme ++ es.flatMap fun e => ascii "," ++ e.text)

def fragmentOf (later : Bytes) : Bytes := (cut 0x23 later).2

def pathOf (later : Bytes) : Bytes := (splitBefore 0x3F (cut 0x23 later).1).1

def queryOf (later : Bytes) : Bytes := (splitBefore 0x3F (cut 0x23 later).1).2

/-- the text after the first authority as it is printed: with its path and its fragment escaped where they need it -/
def reprint (later : Bytes) : Bytes :=
  normal .path (pathOf later) ++ queryOf later ++
    if fragmentOf later ≠ [] then 0x23 :: normal .fragment (fragmentOf later) else []

/-- `net/url` accepts the address, and takes the first credential for its user -/
structure Readable (bracketed : Bytes → Option Bytes) (a : Address) : Prop where
  user : ∃ c, a.first.credential = some c ∧ (parseUserinfo c.text).isSome
  host : (parseHost bracketed a.hostport).isSome
  control : stringContainsCTLByte (a.hostport ++ (cut 0x23 a.later).1) = false
  path : (unescape .path (pathOf a.later)).isSome
  fragment : (unescape .fragment (fragmentOf a.later)).isSome

theorem text_eq (a : Address) :
    a.text = a.first.server.scheme ++ ascii "://" ++ (login a.first.credential ++ a.hostport ++ a.later) := by
  unfold Address.text Address.hostport Address.later
  cases a.others with
  | nil => simp [Entry.text, Entry.afterScheme]
  | cons e es =>
    have hascii : ascii "://" = ascii ":" ++ ascii "//" := by decide
    simp [Entry.text, Entry.afterScheme, hascii]

theorem Server.notMem_hostport (s : Server) {x : UInt8} (hx : x ∈ ascii "/,@?#") :
    x ∉ s.host ++ ascii ":" ++ s.port := by
  have hother : x ∉ ascii ":" ∧ digit x = false := by
    have hascii : ascii "/,@?#" = [0x2F, 0x2C, 0x40, 0x3F, 0x23] := by decide
    rw [hascii] at hx
    simp only [List.mem_cons, List.not_mem_nil, or_false] at hx
    rcases hx with rfl | rfl | rfl | rfl | rfl <;> exact ⟨by decide, by decide⟩
  intro hmem
  rcases List.mem_append.1 hmem with hmem | hmem
  · rcases List.mem_append.1 hmem with hmem | hmem
    · exact s.host_plain x hmem hx
    · exact hother.1 hmem
  · have hdigit := s.port_digits x hmem
    rw [hother.2] at hdigit
    cases hdigit

theorem notMem_hostport (a : Address) {x : UInt8} (hx : x ∈ ascii "/@?#") : x ∉ a.hostport := by
  have hx' : x ∈ ascii "/,@?#" ∧ schemeChar x = false ∧ x ∉ ascii "," ∧ x ∉ ascii ":" := by
    have hascii : ascii "/@?#" = [0x2F, 0x40, 0x3F, 0x23] := by decide
    rw [hascii] at hx
    simp only [List.mem_cons, List.not_mem_nil, or_false] at hx
    rcases hx with rfl | rfl | rfl | rfl <;> exact ⟨by decide, by decide, by decide, by decide⟩
  obtain ⟨hserver, hscheme, hcomma, hcolon⟩ := hx'
  unfold Address.hostport
  cases a.others with
  | nil => simpa using a.first.server.notMem_hostport hserver
  | cons e es =>
    have hnext : x ∉ ascii "," ++ e.server.scheme ++ ascii ":" := by
      simp only [List.mem_append, not_or]
      exact ⟨⟨hcomma, e.server.scheme_valid.notMem hscheme⟩, hcolon⟩
    exact fun h => (List.mem_append.1 h).elim (a.first.server.notMem_hostport hserver) hnext

theorem SameServers.scheme {a b : Address} (h : SameServers a b) : a.first.server.scheme = b.first.server.scheme :=
  congrArg (fun x => x.1.scheme) h.first

theorem SameServers.hostport {a b : Address} (h : SameServers a b) : a.hostport = b.hostport := by
  have hserver : a.first.server = b.first.server := congrArg Prod.fst h.first
  have hothers := h.others
  unfold Address.hostport
  rw [hserver]
  cases ha : a.others with
  | nil =>
    rw [ha] at hothers
    rw [List.map_eq_nil_iff.1 hothers.symm]
  | cons e es =>
    rw [ha] at hothers
    obtain ⟨e', es', hb, he, -⟩ := List.map_eq_cons_iff.1 hothers.symm
    have hnext : e'.server = e.server := congrArg Prod.fst he
    rw [hb]
    simp only [hnext]

theorem starts_later (a : Address) : Starts 0x2F a.later := by
  unfold Address.later
  cases a.others with
  | nil => exact Starts.nil _
  | cons e es =>
    have hascii : ascii "//" = [0x2F, 0x2F] := by decide
    rw [hascii]
    exact Starts.cons _ _

theorem starts_pathOf {t : Bytes} (h : Starts 0x2F t) : Starts 0x2F (pathOf t) := h.splitBefore.splitBefore

theorem notMem_pathOf (t : Bytes) : 0x3F ∉ pathOf t := notMem_splitBefore _ _

theorem starts_queryOf (t : Bytes) : Starts 0x3F (queryOf t) := starts_splitBefore _ _

theorem pathOf_append_queryOf (t : Bytes) : pathOf t ++ queryOf t = (cut 0x23 t).1 := splitBefore_eq _ _

theorem Credential.notMem (c : Credential) {x : UInt8} (hx : x ∈ ascii "/,@") : x ∉ c.text := fun h => c.plain x h hx

theorem notMem_authority {a : Address} {x : UInt8} (hx : x ∈ ascii "/@?#") (hlogin : x ∉ login a.first.credential) :
    x ∉ login a.first.credential ++ a.hostport := by
  rw [List.mem_append]
  exact not_or.2 ⟨hlogin, notMem_hostport a hx⟩

/-- with no `#` in the first credential the fragment is in the later entries -/
theorem cut_text (a : Address) (h : 0x23 ∉ login a.first.credential) :
    cut 0x23 a.text =
      (a.first.server.scheme ++ ascii "://" ++
        (login a.first.credential ++ a.hostport ++ pathOf a.later ++ queryOf a.later), fragmentOf a.later) := by
  have hscheme : 0x23 ∉ a.first.server.scheme := a.first.server.scheme_valid.notMem (by decide)
  have hslashes : (0x23 : UInt8) ∉ ascii "://" := by decide
  have hhost : 0x23 ∉ a.hostport := notMem_hostport a (by decide)
  have hbefore : 0x23 ∉ a.first.server.scheme ++ ascii "://" ++ (login a.first.credential ++ a.hostport) := by
    simp only [List.mem_append, not_or]
    exact ⟨⟨hscheme, hslashes⟩, h, hhost⟩
  rw [text_eq, ← List.append_assoc, cut_append_left hbefore, List.append_assoc _ (pathOf _), pathOf_append_queryOf,
    List.append_assoc]
  rfl

section
variable {bracketed : Bytes → Option Bytes} {a : Address}

/-- a user that `net/url` finds is the first credential -/
theorem parseAuthority_login
    {x : Option Userinfo × Bytes} (h : parseAuthority bracketed (login a.first.credential ++ a.hostport) = some x)
    {v : Userinfo} (hv : x.1 = some v) :
    ∃ c, a.first.credential = some c ∧ parseUserinfo c.text = some v ∧ parseHost bracketed a.hostport = some x.2 := by
  have hhost : 0x40 ∉ a.hostport := notMem_hostport a (by decide)
  unfold parseAuthority at h
  cases hc : a.first.credential with
  | none =>
    simp only [hc, login, List.nil_append, lastCut_of_notMem hhost] at h
    obtain ⟨host, -, h⟩ := Option.bind_eq_some_iff.1 h
    obtain rfl := Option.some.inj h
    cases hv
  | some c =>
    have hascii : ascii "@" = [0x40] := by decide
    simp only [hc, login, hascii, List.append_assoc, List.cons_append, List.nil_append, lastCut_append _ hhost] at h
    obtain ⟨host, hhost, h⟩ := Option.bind_eq_some_iff.1 h
    obtain ⟨user, huser, h⟩ := Option.bind_eq_some_iff.1 h
    obtain rfl := Option.some.inj h
    obtain rfl := Option.some.inj hv
    exact ⟨c, rfl, huser, hhost⟩

/-- what stands before the fragment and the query of a first credential with a `#` or a `?` in it -/
theorem cut_credential (a : Address) {c : Credential} (hc : a.first.credential = some c)
    (hspecial : 0x23 ∈ c.text ∨ 0x3F ∈ c.text) :
    ∃ t q f, cut 0x23 a.text = (a.first.server.scheme ++ ascii "://" ++ (t ++ [] ++ q), f) ∧
      (∀ b ∈ t, b ∈ c.text) ∧ 0x3F ∉ t ∧ Starts 0x3F q := by
  have hscheme : 0x23 ∉ a.first.server.scheme ++ ascii "://" := by
    rw [List.mem_append]
    exact not_or.2 ⟨a.first.server.scheme_valid.notMem (by decide), by decide⟩
  let rest := login a.first.credential ++ a.hostport ++ a.later
  let r := (cut 0x23 rest).1
  refine ⟨(splitBefore 0x3F r).1, (splitBefore 0x3F r).2, (cut 0x23 rest).2, ?_, ?_, notMem_splitBefore _ _,
    starts_splitBefore _ _⟩
  · rw [text_eq, cut_append_left hscheme, List.append_nil, splitBefore_eq]
  · have hquery : (splitBefore 0x3F r).1 <+: r := List.takeWhile_prefix _
    have hfragment : r <+: rest := List.takeWhile_prefix _
    have hcredential : c.text <+: rest := by
      simp only [rest, hc, login, List.append_assoc]
      exact List.prefix_append _ _
    -- a longer text would have the special byte in it
    rcases List.prefix_or_prefix_of_prefix (hquery.trans hfragment) hcredential with h | h
    · exact fun b hb => h.subset hb
    · rcases hspecial with hspecial | hspecial
      · exact absurd (hquery.subset (h.subset hspecial)) (notMem_splitBefore _ _)
      · exact absurd (h.subset hspecial) (notMem_splitBefore _ _)

theorem notMem_login {a : Address} {x : UInt8} (hx : x ∉ ascii "@")
    (h : ∀ c, a.first.credential = some c → x ∉ c.text) : x ∉ login a.first.credential := by
  cases hc : a.first.credential with
  | none => exact List.not_mem_nil
  | some c =>
    rw [login, List.mem_append]
    exact not_or.2 ⟨h c hc, hx⟩

/-- only a readable address gets a user -/
theorem readable_of_user {u : URL} {v : Userinfo} (h : parseURL bracketed a.text = some u) (hv : u.user = some v) :
    Readable bracketed a := by
  have hscheme := a.first.server.scheme_valid
  by_cases hspecial : ∃ c, a.first.credential = some c ∧ (0x23 ∈ c.text ∨ 0x3F ∈ c.text)
  · obtain ⟨c, hc, hspecial⟩ := hspecial
    obtain ⟨t, q, f, hcut, ht, hquery, hq⟩ := cut_credential a hc hspecial
    have hslash : 0x2F ∉ t := fun hm => c.notMem (by decide) (ht _ hm)
    have hat : 0x40 ∉ t := fun hm => c.notMem (by decide) (ht _ hm)
    obtain ⟨-, -, -, x, hx, hread⟩ :=
      read_of_parseURL hscheme hslash hquery (Starts.nil _) List.not_mem_nil hq hcut h
    simp only [parseAuthority, lastCut_of_notMem hat] at hx
    obtain ⟨host, -, hx⟩ := Option.bind_eq_some_iff.1 hx
    obtain rfl := Option.some.inj hx
    rw [hread.user] at hv
    cases hv
  · push Not at hspecial
    have hhash := notMem_login (by decide) fun c hc => (hspecial c hc).1
    have hquery := notMem_login (by decide) fun c hc => (hspecial c hc).2
    have hslash : 0x2F ∉ login a.first.credential := notMem_login (by decide) fun c _ => c.notMem (by decide)
    obtain ⟨hctl, hpath, hfragment, x, hx, hread⟩ :=
      read_of_parseURL hscheme (notMem_authority (by decide) hslash) (notMem_authority (by decide) hquery)
        (starts_pathOf (starts_later a))
        (notMem_pathOf _) (starts_queryOf _) (cut_text a hhash) h
    rw [hread.user] at hv
    obtain ⟨c, hc, huser, hhost⟩ := parseAuthority_login hx hv
    refine ⟨⟨c, hc, Option.isSome_iff_exists.2 ⟨v, huser⟩⟩, Option.isSome_iff_exists.2 ⟨x.2, hhost⟩, ?_, hpath,
      hfragment⟩
    rw [List.append_assoc _ (pathOf _), pathOf_append_queryOf, List.append_assoc] at hctl
    simp only [stringContainsCTLByte_append, Bool.or_eq_false_iff] at hctl ⊢
    exact ⟨hctl.2.2.1.2, hctl.2.2.2⟩

theorem redactedURL_unreadable (h : ¬ Readable bracketed a) : redactedURL bracketed a.text = a.text := by
  unfold redactedURL
  cases hparse : parseURL bracketed a.text with
  | none => rfl
  | some u =>
    cases huser : u.user with
    | none => simp only [huser]
    | some v => exact absurd (readable_of_user hparse huser) h

/-- what is printed in place of a credential -/
def mask : Bytes := ascii "%2A%2A%2A:xxxxx"

theorem notMem_mask : 0x40 ∉ mask := by decide

theorem parseUserinfo_mask : (parseUserinfo mask).isSome := by
  have hcut : cut 0x3A mask = (escape .userPassword (ascii "***"), escape .userPassword (ascii "xxxxx")) := by decide
  have hvalid : validUserinfo mask = true := by decide
  have hcolon : 0x3A ∈ mask := by decide
  unfold parseUserinfo
  simp [hvalid, hcolon, hcut, unescape_escape]

/-- **Masking.** Of a readable address, the first credential is masked; all the rest is printed. -/
theorem redactedURL_readable (h : Readable bracketed a) :
    redactedURL bracketed a.text =
      toLower a.first.server.scheme ++ ascii "://" ++ (mask ++ ascii "@") ++
        escape .host ((parseHost bracketed a.hostport).getD []) ++ reprint a.later := by
  obtain ⟨c, hc, hinfo⟩ := h.user
  obtain ⟨v, hv⟩ := Option.isSome_iff_exists.1 hinfo
  obtain ⟨host, hhost⟩ := Option.isSome_iff_exists.1 h.host
  have hvalid := parseUserinfo_valid hinfo
  have hclean : ∀ x, (letter x || digit x || x ∈ ascii "-._:~!$&'()*+,;=%@") = false → x ∉ c.text := by
    intro x hx hm
    have := List.all_eq_true.1 hvalid x hm
    rw [hx] at this
    cases this
  have hlogin : ∀ x, (letter x || digit x || x ∈ ascii "-._:~!$&'()*+,;=%@") = false → x ∉ ascii "@" →
      x ∉ login a.first.credential := by
    intro x hx hat
    rw [hc, login, List.mem_append]
    exact not_or.2 ⟨hclean x hx, hat⟩
  have hslash : 0x2F ∉ login a.first.credential ++ a.hostport :=
    notMem_authority (by decide) (hlogin _ (by decide) (by decide))
  have hquery : 0x3F ∉ login a.first.credential ++ a.hostport :=
    notMem_authority (by decide) (hlogin _ (by decide) (by decide))
  have hcut := cut_text a (hlogin 0x23 (by decide) (by decide))
  have hascii : ascii "@" = [0x40] := by decide
  have hauthority : parseAuthority bracketed (login a.first.credential ++ a.hostport) = some (some v, host) := by
    have hat : 0x40 ∉ a.hostport := notMem_hostport a (by decide)
    simp only [parseAuthority, hc, login, hascii, List.append_assoc, List.cons_append, List.nil_append,
      lastCut_append _ hat, hhost, hv, bind, Option.bind_some, pure]
  have hctl : stringContainsCTLByte (a.first.server.scheme ++ ascii "://" ++
      (login a.first.credential ++ a.hostport ++ pathOf a.later ++ queryOf a.later)) = false := by
    have hcontrol := h.control
    rw [List.append_assoc _ (pathOf _), pathOf_append_queryOf, List.append_assoc (login _), hc, login]
    simp only [stringContainsCTLByte_append, Bool.or_eq_false_iff] at hcontrol ⊢
    exact ⟨⟨a.first.server.scheme_valid.noCTL, by decide⟩, ⟨userinfo_noCTL hvalid, by decide⟩, hcontrol⟩
  obtain ⟨u, hu⟩ := Option.isSome_iff_exists.1 (parseURL_isSome a.first.server.scheme_valid hslash hquery
    (starts_pathOf (starts_later a)) (notMem_pathOf _) (starts_queryOf _) hcut hctl h.path h.fragment
    (Option.isSome_iff_exists.2 ⟨_, hauthority⟩))
  obtain ⟨-, -, -, x, hx, hread⟩ := read_of_parseURL a.first.server.scheme_valid hslash hquery
    (starts_pathOf (starts_later a)) (notMem_pathOf _) (starts_queryOf _) hcut hu
  rw [hauthority] at hx
  obtain rfl := Option.some.inj hx
  have hmask : (⟨ascii "***", ascii "xxxxx", true⟩ : Userinfo).string = mask := by decide
  unfold redactedURL
  simp only [hu, hread.user, URL.redacted, if_true]
  rw [hread.string a.first.server.scheme_valid (starts_pathOf (starts_later a)), hmask, hhost, hascii]
  rfl

/-! ## Printed text reads the same again -/

theorem reprint_cut (t : Bytes) : cut 0x23 (reprint t) =
    (normal .path (pathOf t) ++ queryOf t, if fragmentOf t ≠ [] then normal .fragment (fragmentOf t) else []) := by
  have hbefore : 0x23 ∉ pathOf t ++ queryOf t := by
    rw [pathOf_append_queryOf]
    exact notMem_splitBefore _ _
  have hhash : 0x23 ∉ normal .path (pathOf t) ++ queryOf t := by
    rw [List.mem_append, not_or] at hbefore ⊢
    exact ⟨notMem_normal (by decide) (by decide) hbefore.1, hbefore.2⟩
  unfold reprint
  split_ifs
  · exact cut_append hhash _
  · rw [List.append_nil, cut_of_notMem hhash]

theorem pathOf_reprint (t : Bytes) : pathOf (reprint t) = normal .path (pathOf t) := by
  rw [pathOf, reprint_cut,
    splitBefore_append (notMem_normal (by decide) (by decide) (notMem_pathOf t)) (starts_queryOf t)]

theorem starts_reprint {t : Bytes} (ht : Starts 0x2F t) (hpath : (unescape .path (pathOf t)).isSome) :
    Starts 0x2F (reprint t) := by
  by_cases hne : pathOf t = []
  · have hnil : t = [] := by
      cases t with
      | nil => rfl
      | cons b t =>
        obtain rfl := ht b rfl
        cases hne
    subst hnil
    exact Starts.nil _
  · intro b hb
    refine starts_normal (starts_pathOf ht) b ?_
    obtain ⟨c, s, hcons⟩ := List.exists_cons_of_ne_nil (normal_ne_nil hpath hne)
    rw [reprint, hcons] at hb
    rw [hcons]
    exact hb

/-- an address that looks like a masked one is readable -/
theorem readable_of_printed {a b : Address} (h : SameServers a b) (ha : Readable bracketed a)
    (heq : redactedURL bracketed a.text = b.text) : Readable bracketed b := by
  obtain ⟨c, hc, -⟩ := ha.user
  obtain ⟨d, hd⟩ : ∃ d, b.first.credential = some d := by
    have hsome : a.first.credential.isSome = b.first.credential.isSome := congrArg Prod.snd h.first
    rw [hc] at hsome
    exact Option.isSome_iff_exists.1 hsome.symm
  have hascii : ascii "@" = [0x40] := by decide
  rw [redactedURL_readable ha, text_eq b, h.scheme, hd, login, hascii] at heq
  simp only [List.append_assoc] at heq
  -- up to the credential, up to the host, and from the path on
  obtain ⟨-, heq⟩ := List.append_inj heq (by simp [toLower])
  obtain ⟨hmask, heq⟩ := split_unique notMem_mask (d.notMem (by decide)) (Starts.cons _ _) (Starts.cons _ _)
    (List.append_cancel_left heq)
  obtain ⟨-, hlater⟩ :=
    split_unique (notMem_escape (x := 0x2F) (by decide) (by decide) _) (notMem_hostport b (by decide))
    (starts_reprint (starts_later a) ha.path) (starts_later b) (List.cons.inj heq).2
  have hcontrol := ha.control
  rw [h.hostport, stringContainsCTLByte_append, ← pathOf_append_queryOf, stringContainsCTLByte_append] at hcontrol
  simp only [Bool.or_eq_false_iff] at hcontrol
  refine ⟨⟨d, hd, ?_⟩, h.hostport ▸ ha.host, ?_, ?_, ?_⟩
  · rw [← hmask]
    exact parseUserinfo_mask
  · rw [← hlater, reprint_cut, stringContainsCTLByte_append, stringContainsCTLByte_append]
    simp [hcontrol, normal_noCTL hcontrol.2.1]
  · rw [← hlater, pathOf_reprint]
    exact unescape_normal (by decide) ha.path
  · rw [← hlater, fragmentOf, reprint_cut]
    split_ifs
    · exact unescape_normal (by decide) ha.fragment
    · rfl

/-! ## What is hidden -/

/-- the two addresses are logged alike, and as they are if they have no credential -/
def Hidden (bracketed : Bytes → Option Bytes) (a b : Address) : Prop :=
  redactedURL bracketed a.text = redactedURL bracketed b.text ∧ (a.Bare → redactedURL bracketed a.text = a.text)

theorem bare_unchanged (h : a.Bare) : redactedURL bracketed a.text = a.text := by
  refine redactedURL_unreadable fun hreadable => ?_
  obtain ⟨c, hc, -⟩ := hreadable.user
  rw [h a.first List.mem_cons_self] at hc
  cases hc

/-- **Hidden credentials.** Two addresses that differ in their credentials are logged alike only if each is readable,
and the credentials after the first print alike. -/
theorem hidden_iff (bracketed : Bytes → Option Bytes) {a b : Address} (h : SameServers a b) :
    Hidden bracketed a b ↔
      a.text = b.text ∨ (Readable bracketed a ∧ Readable bracketed b ∧ reprint a.later = reprint b.later) := by
  constructor
  · intro hhidden
    have heq := hhidden.1
    by_cases ha : Readable bracketed a
    · by_cases hb : Readable bracketed b
      · rw [redactedURL_readable ha, redactedURL_readable hb, h.scheme, h.hostport] at heq
        exact Or.inr ⟨ha, hb, List.append_cancel_left heq⟩
      · rw [redactedURL_unreadable hb] at heq
        exact absurd (readable_of_printed h ha heq) hb
    · rw [redactedURL_unreadable ha] at heq
      by_cases hb : Readable bracketed b
      · exact absurd (readable_of_printed h.symm hb heq.symm) ha
      · exact Or.inl (heq.trans (redactedURL_unreadable hb))
  · intro hcondition
    refine ⟨?_, bare_unchanged⟩
    rcases hcondition with htext | ⟨ha, hb, hlater⟩
    · rw [htext]
    · rw [redactedURL_readable ha, redactedURL_readable hb, h.scheme, h.hostport, hlater]

end

/-! ## Servers with a token -/

def h1 : Server where
  scheme := ascii "nats"
  host := ascii "h1"
  port := ascii "4222"
  scheme_valid := ⟨⟨_, _, rfl, by decide⟩, List.all_eq_true.1 (by decide)⟩
  host_nonempty := by decide
  host_plain := forall_of_all (by decide)
  port_nonempty := by decide
  port_digits := List.all_eq_true.1 (by decide)

def h2 : Server := { h1 with host := ascii "h2", host_nonempty := by decide, host_plain := forall_of_all (by decide) }

def s3cr3t : Credential := ⟨ascii "s3cr3t", by decide, forall_of_all (by decide)⟩

def t0k3n : Credential := ⟨ascii "t0k3n", by decide, forall_of_all (by decide)⟩

def noBrackets : Bytes → Option Bytes := fun _ => none

def alone (c : Credential) : Address := ⟨⟨h1, some c⟩, []⟩

/-- the second of two servers has the token -/
def second (c : Credential) : Address := ⟨⟨h1, none⟩, [⟨h2, some c⟩]⟩

theorem alone_hidden : Hidden noBrackets (alone s3cr3t) (alone t0k3n) := by
  have hsame : SameServers (alone s3cr3t) (alone t0k3n) := ⟨rfl, rfl⟩
  have hfirst : Readable noBrackets (alone s3cr3t) := by
    refine ⟨⟨s3cr3t, rfl, ?_⟩, ?_, ?_, ?_, ?_⟩ <;> decide +kernel
  have hsecond : Readable noBrackets (alone t0k3n) := by
    refine ⟨⟨t0k3n, rfl, ?_⟩, ?_, ?_, ?_, ?_⟩ <;> decide +kernel
  have hlater : reprint (alone s3cr3t).later = reprint (alone t0k3n).later := rfl
  exact (hidden_iff noBrackets hsame).2 (Or.inr ⟨hfirst, hsecond, hlater⟩)

theorem second_server_leaks :
    SameServers (second s3cr3t) (second t0k3n) ∧
      redactedURL noBrackets (second s3cr3t).text = ascii "nats://h1:4222,nats://s3cr3t@h2:4222" ∧
      ¬ Hidden noBrackets (second s3cr3t) (second t0k3n) := by
  have hunreadable : ∀ c, redactedURL noBrackets (second c).text = (second c).text := by
    intro c
    refine redactedURL_unreadable fun h => ?_
    obtain ⟨d, hd, -⟩ := h.user
    cases hd
  refine ⟨⟨rfl, rfl⟩, ?_, ?_⟩
  · rw [hunreadable]
    decide +kernel
  · intro h
    have htext := h.1
    rw [hunreadable, hunreadable] at htext
    exact absurd htext (by decide +kernel)

end NotifyAgent.UrlRedaction
