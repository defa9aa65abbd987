/-
Go's `net/url` on byte strings: `Parse`, `String` and `Redacted`. An error is only ever that there is one. What stands
between brackets in a host is left to `netip.ParseAddr` and is a parameter.

- `unescape_escape`: what is escaped in a path or a fragment is read back;
- `escapedPath_setPath`, `escapedFragment_setFragment`: how a path and a fragment are printed again;
- `parse_authority`: reading a URL that has a scheme and an authority;
- `string_authority`: and printing it.
-/
import Mathlib.Tactic
import NotifyAgent.Lib.Bytes

namespace NotifyAgent.Lib.NetUrl

/-! ## Escaping -/

/-- what is escaped differs between the parts of a URL -/
inductive Encoding
  | path
  | userPassword
  | host
  | fragment
deriving DecidableEq

def letter (c : UInt8) : Bool := (0x61 ≤ c ∧ c ≤ 0x7A) ∨ (0x41 ≤ c ∧ c ≤ 0x5A)

def digit (c : UInt8) : Bool := 0x30 ≤ c ∧ c ≤ 0x39

def shouldEscape (c : UInt8) (mode : Encoding) : Bool :=
  if letter c || digit c then false
  else if mode = .host ∧ c ∈ ascii "!$&'()*+,;=:[]<>\"" then false
  else if c ∈ ascii "-_.~" then false
  else if c ∈ ascii "$&+,/:;=?@" then
    match mode with
    | .path => c ∈ ascii "?"
    | .userPassword => c ∈ ascii "@/?:"
    | .fragment => false
    | .host => true
  else if mode = .fragment ∧ c ∈ ascii "!()*" then false
  else true

/-- a percent sign and two digits -/
def percent (c : UInt8) : Bytes := [0x25, hexDigit 0x41 (c / 16), hexDigit 0x41 (c % 16)]

def escape (mode : Encoding) (s : Bytes) : Bytes := s.flatMap fun c => if shouldEscape c mode then percent c else [c]

def unhex (c : UInt8) : Option UInt8 :=
  if digit c then some (c - 0x30)
  else if 0x61 ≤ c ∧ c ≤ 0x66 then some (c - 0x61 + 10)
  else if 0x41 ≤ c ∧ c ≤ 0x46 then some (c - 0x41 + 10)
  else none

def unescape (mode : Encoding) : Bytes → Option Bytes
  | [] => some []
  | c :: s =>
    if c = 0x25 then
      match s with
      | a :: b :: rest =>
        match unhex a, unhex b with
        | some x, some y =>
          -- in a host only bytes beyond ASCII, and the percent sign of a zone
          if mode = .host ∧ x < 8 ∧ [a, b] ≠ ascii "25" then none
          else (unescape mode rest).map fun t => (16 * x + y) :: t
        | _, _ => none
      | _ => none
    else if mode = .host ∧ c < 0x80 ∧ shouldEscape c mode then none
    else (unescape mode s).map fun t => c :: t

def validEncoded (mode : Encoding) (s : Bytes) : Bool :=
  s.all fun c => c ∈ ascii "!$&'()*+,;=:@[]%" || !shouldEscape c mode

/-! ## Values -/

structure Userinfo where
  username : Bytes
  password : Bytes
  passwordSet : Bool

structure URL where
  scheme : Bytes := []
  /-- `Opaque`, what a URL has that goes on without a slash -/
  rootless : Bytes := []
  user : Option Userinfo := none
  host : Bytes := []
  path : Bytes := []
  rawPath : Bytes := []
  omitHost : Bool := false
  forceQuery : Bool := false
  rawQuery : Bytes := []
  fragment : Bytes := []
  rawFragment : Bytes := []

/-! ## Parsing -/

section
variable (bracketed : Bytes → Option Bytes)

def validOptionalPort (port : Bytes) : Bool :=
  match port with
  | [] => true
  | c :: digits => c = 0x3A && digits.all digit

def parseHost (host : Bytes) : Option Bytes :=
  if 0x5B ∈ host then bracketed host
  else
    match lastCut 0x3A host with
    | some (_, port) => if validOptionalPort (0x3A :: port) then unescape .host host else none
    | none => unescape .host host

def validUserinfo (s : Bytes) : Bool := s.all fun c => letter c || digit c || c ∈ ascii "-._:~!$&'()*+,;=%@"

/-- what `parseAuthority` makes of the text before the last `@` -/
def parseUserinfo (userinfo : Bytes) : Option Userinfo :=
  if validUserinfo userinfo = false then none
  else if 0x3A ∈ userinfo then do
    let username ← unescape .userPassword (cut 0x3A userinfo).1
    let password ← unescape .userPassword (cut 0x3A userinfo).2
    return ⟨username, password, true⟩
  else do
    let username ← unescape .userPassword userinfo
    return ⟨username, [], false⟩

def parseAuthority (authority : Bytes) : Option (Option Userinfo × Bytes) :=
  match lastCut 0x40 authority with
  | none => do
    let host ← parseHost bracketed authority
    return (none, host)
  | some (userinfo, hostport) => do
    let host ← parseHost bracketed hostport
    let user ← parseUserinfo userinfo
    return (some user, host)

def schemeChar (c : UInt8) : Bool := letter c || digit c || c ∈ ascii "+-."

def getScheme (rawURL : Bytes) : Option (Bytes × Bytes) :=
  match rawURL with
  | [] => some ([], rawURL)
  | c :: _ =>
    if c = 0x3A then none
    else if letter c = false then some ([], rawURL)
    else
      match rawURL.dropWhile schemeChar with
      | 0x3A :: rest => some (rawURL.takeWhile schemeChar, rest)
      | _ => some ([], rawURL)

def toLower (s : Bytes) : Bytes := s.map fun c => if 0x41 ≤ c ∧ c ≤ 0x5A then c + 0x20 else c

def URL.setPath (u : URL) (p : Bytes) : Option URL := do
  let path ← unescape .path p
  return { u with path := path, rawPath := if p = escape .path path then [] else p }

def URL.setFragment (u : URL) (f : Bytes) : Option URL := do
  let fragment ← unescape .fragment f
  return { u with fragment := fragment, rawFragment := if f = escape .fragment fragment then [] else f }

/-- the query is taken off: `ForceQuery`, `RawQuery` and what is left -/
def cutQuery (rest : Bytes) : Bool × Bytes × Bytes :=
  if rest.getLast? = some 0x3F ∧ rest.count 0x3F = 1 then (true, [], rest.dropLast)
  else (false, (cut 0x3F rest).2, (cut 0x3F rest).1)

def stringContainsCTLByte (s : Bytes) : Bool := s.any fun c => c < 0x20 ∨ c = 0x7F

/-- `parse`, after the scheme -/
def parseRest (scheme rest : Bytes) : Option URL :=
  let (forceQuery, rawQuery, rest) := cutQuery rest
  let u : URL := { scheme := scheme, forceQuery := forceQuery, rawQuery := rawQuery }
  if rest.head? ≠ some 0x2F ∧ scheme ≠ [] then some { u with rootless := rest }
  else if rest.head? ≠ some 0x2F ∧ 0x3A ∈ (cut 0x2F rest).1 then none
  else if (scheme ≠ [] ∨ ¬ ascii "///" <+: rest) ∧ ascii "//" <+: rest then do
    let (authority, path) := splitBefore 0x2F (rest.drop 2)
    let (user, host) ← parseAuthority bracketed authority
    { u with user := user, host := host }.setPath path
  else { u with omitHost := scheme ≠ [] ∧ rest.head? = some 0x2F }.setPath rest

def parse (rawURL : Bytes) : Option URL :=
  if stringContainsCTLByte rawURL then none
  else if rawURL = ascii "*" then some { path := rawURL }
  else do
    let (scheme, rest) ← getScheme rawURL
    parseRest bracketed (toLower scheme) rest

/-- the exported `Parse` -/
def parseURL (rawURL : Bytes) : Option URL := do
  let (u, frag) := cut 0x23 rawURL
  let url ← parse bracketed u
  if frag = [] then return url else url.setFragment frag

end

/-! ## Printing -/

def Userinfo.string (u : Userinfo) : Bytes :=
  if u.username ≠ [] ∨ u.passwordSet then
    escape .userPassword u.username ++ if u.passwordSet then 0x3A :: escape .userPassword u.password else []
  else []

def URL.escapedPath (u : URL) : Bytes :=
  if u.rawPath ≠ [] ∧ validEncoded .path u.rawPath ∧ unescape .path u.rawPath = some u.path then u.rawPath
  else if u.path = ascii "*" then u.path
  else escape .path u.path

def URL.escapedFragment (u : URL) : Bytes :=
  if u.rawFragment ≠ [] ∧ validEncoded .fragment u.rawFragment ∧
    unescape .fragment u.rawFragment = some u.fragment then u.rawFragment
  else escape .fragment u.fragment

/-- user and host, after the slashes -/
def URL.authority (u : URL) : Bytes :=
  (u.user.elim [] fun user => user.string ++ [0x40]) ++ escape .host u.host

/-- what stands before the path -/
def URL.front (u : URL) : Bytes :=
  (if u.scheme ≠ [] then u.scheme ++ [0x3A] else []) ++
    if u.scheme = [] ∧ u.host = [] ∧ u.user.isNone then []
    else if u.omitHost ∧ u.host = [] ∧ u.user.isNone then []
    else (if u.host ≠ [] ∨ u.path ≠ [] ∨ u.user.isSome then ascii "//" else []) ++ u.authority

/-- the path, with what keeps it from being read as something else -/
def URL.pathText (u : URL) : Bytes :=
  let path := u.escapedPath
  let slash : Bytes := if path ≠ [] ∧ path.head? ≠ some 0x2F ∧ u.host ≠ [] then [0x2F] else []
  let dot : Bytes := if u.front ++ slash = [] ∧ 0x3A ∈ (cut 0x2F path).1 then ascii "./" else []
  slash ++ dot ++ path

def URL.query (u : URL) : Bytes := if u.forceQuery ∨ u.rawQuery ≠ [] then 0x3F :: u.rawQuery else []

def URL.string (u : URL) : Bytes :=
  (if u.rootless ≠ [] then (if u.scheme ≠ [] then u.scheme ++ [0x3A] else []) ++ u.rootless
    else u.front ++ u.pathText) ++
  u.query ++
  if u.fragment ≠ [] then 0x23 :: u.escapedFragment else []

/-- `Redacted`: a password is printed as `xxxxx` -/
def URL.redacted (u : URL) : Bytes :=
  match u.user with
  | some user =>
    if user.passwordSet then { u with user := some ⟨user.username, ascii "xxxxx", true⟩ }.string else u.string
  | none => u.string

/-! ## Escaping and reading back -/

theorem unhex_hexDigit {n : UInt8} (hn : n.toNat < 16) : unhex (hexDigit 0x41 n) = some n := by
  have hofNat : n = UInt8.ofNat n.toNat := UInt8.ofNat_toNat.symm
  rw [hofNat]
  generalize n.toNat = k at hn
  interval_cases k <;> decide

theorem percent_digits (c : UInt8) : (c / 16).toNat < 16 ∧ (c % 16).toNat < 16 ∧ 16 * (c / 16) + c % 16 = c := by
  have hc := c.toNat_lt
  refine ⟨?_, ?_, ?_⟩
  · rw [UInt8.toNat_div]
    simp only [UInt8.reduceToNat]
    omega
  · rw [UInt8.toNat_mod]
    simp only [UInt8.reduceToNat]
    omega
  · apply UInt8.toNat_inj.1
    simp only [UInt8.toNat_add, UInt8.toNat_mul, UInt8.toNat_div, UInt8.toNat_mod, UInt8.reduceToNat]
    omega

theorem unescape_percent {mode : Encoding} (hmode : mode ≠ .host) (c : UInt8) (s : Bytes) :
    unescape mode (percent c ++ s) = (unescape mode s).map fun t => c :: t := by
  obtain ⟨hhigh, hlow, hc⟩ := percent_digits c
  simp only [percent, List.cons_append, List.nil_append, unescape, if_true, unhex_hexDigit hhigh, unhex_hexDigit hlow,
    hmode, false_and, if_false, hc]

theorem unescape_cons {mode : Encoding} (hmode : mode ≠ .host) {c : UInt8} (hc : c ≠ 0x25) (s : Bytes) :
    unescape mode (c :: s) = (unescape mode s).map fun t => c :: t := by
  rw [unescape.eq_def]
  simp only [if_neg hc, hmode, false_and, if_false]

theorem escape_cons (mode : Encoding) (c : UInt8) (s : Bytes) :
    escape mode (c :: s) = (if shouldEscape c mode then percent c else [c]) ++ escape mode s := List.flatMap_cons

/-- **What is escaped is read back.** -/
theorem unescape_escape {mode : Encoding} (hmode : mode ≠ .host) (s : Bytes) :
    unescape mode (escape mode s) = some s := by
  induction s with
  | nil => rfl
  | cons c s ih =>
    rw [escape_cons]
    split_ifs with hc
    · rw [unescape_percent hmode, ih]
      rfl
    · have hpercent : c ≠ 0x25 := by
        intro h
        rw [h] at hc
        cases mode <;> exact hc (by decide)
      rw [List.cons_append, List.nil_append, unescape_cons hmode hpercent, ih]
      rfl

theorem letterDigit_hexDigit {n : UInt8} (hn : n.toNat < 16) (mode : Encoding) :
    shouldEscape (hexDigit 0x41 n) mode = false := by
  have hplain : (letter (hexDigit 0x41 n) || digit (hexDigit 0x41 n)) = true := by
    have hofNat : n = UInt8.ofNat n.toNat := UInt8.ofNat_toNat.symm
    rw [hofNat]
    generalize n.toNat = k at hn
    interval_cases k <;> decide
  unfold shouldEscape
  rw [if_pos hplain]

theorem mem_escape {mode : Encoding} {s : Bytes} {c : UInt8} (h : c ∈ escape mode s) :
    shouldEscape c mode = false ∨ c = 0x25 := by
  obtain ⟨b, -, hc⟩ := List.mem_flatMap.1 h
  obtain ⟨hhigh, hlow, -⟩ := percent_digits b
  split_ifs at hc with hb
  · simp only [percent, List.mem_cons, List.not_mem_nil, or_false] at hc
    rcases hc with rfl | rfl | rfl
    · exact Or.inr rfl
    · exact Or.inl (letterDigit_hexDigit hhigh mode)
    · exact Or.inl (letterDigit_hexDigit hlow mode)
  · rw [List.mem_singleton.1 hc]
    exact Or.inl (Bool.eq_false_iff.2 hb)

theorem notMem_escape {mode : Encoding} {x : UInt8} (hx : shouldEscape x mode = true) (hne : x ≠ 0x25) (s : Bytes) :
    x ∉ escape mode s := by
  intro h
  rcases mem_escape h with h | h
  · rw [hx] at h
    cases h
  · exact hne h

theorem unescape_slash {s t : Bytes} (h : unescape .path (0x2F :: s) = some t) : ∃ t', t = 0x2F :: t' := by
  rw [unescape_cons (by decide) (by decide)] at h
  obtain ⟨t', -, rfl⟩ := Option.map_eq_some_iff.1 h
  exact ⟨t', rfl⟩

/-! ## Printing again what was read -/

/-- how a text that was read is printed: as it is, or decoded and escaped -/
def normal (mode : Encoding) (s : Bytes) : Bytes :=
  if validEncoded mode s then s else ((unescape mode s).map (escape mode)).getD []

theorem notMem_normal {mode : Encoding} {x : UInt8} (hx : shouldEscape x mode = true) (hne : x ≠ 0x25) {s : Bytes}
    (hs : x ∉ s) : x ∉ normal mode s := by
  unfold normal
  split_ifs
  · exact hs
  · cases unescape mode s with
    | none => exact List.not_mem_nil
    | some t => exact notMem_escape hx hne t

theorem unescape_normal {mode : Encoding} (hmode : mode ≠ .host) {s : Bytes} (hs : (unescape mode s).isSome) :
    (unescape mode (normal mode s)).isSome := by
  obtain ⟨t, ht⟩ := Option.isSome_iff_exists.1 hs
  unfold normal
  split_ifs
  · exact hs
  · rw [ht, Option.map_some, Option.getD_some, unescape_escape hmode]
    rfl

theorem unescape_ne_nil {mode : Encoding} {s t : Bytes} (h : unescape mode s = some t) (hs : s ≠ []) : t ≠ [] := by
  obtain ⟨c, s, rfl⟩ := List.exists_cons_of_ne_nil hs
  rw [unescape.eq_def] at h
  simp only at h
  split_ifs at h
  · split at h
    · split at h
      · split_ifs at h
        obtain ⟨t', -, rfl⟩ := Option.map_eq_some_iff.1 h
        exact List.cons_ne_nil _ _
      · cases h
    · cases h
  · obtain ⟨t', -, rfl⟩ := Option.map_eq_some_iff.1 h
    exact List.cons_ne_nil _ _

theorem normal_ne_nil {mode : Encoding} {s : Bytes} (h : (unescape mode s).isSome) (hs : s ≠ []) :
    normal mode s ≠ [] := by
  obtain ⟨t, ht⟩ := Option.isSome_iff_exists.1 h
  unfold normal
  split_ifs
  · exact hs
  · obtain ⟨c, t', rfl⟩ := List.exists_cons_of_ne_nil (unescape_ne_nil ht hs)
    rw [ht, Option.map_some, Option.getD_some, escape_cons]
    split_ifs <;> simp [percent]

theorem starts_normal {s : Bytes} (hs : Starts 0x2F s) : Starts 0x2F (normal .path s) := by
  unfold normal
  split_ifs
  · exact hs
  · cases s with
    | nil => exact Starts.nil _
    | cons b s =>
      obtain rfl := hs b rfl
      cases ht : unescape .path (0x2F :: s) with
      | none => exact Starts.nil _
      | some t =>
        obtain ⟨t', rfl⟩ := unescape_slash ht
        exact Starts.cons _ _

theorem escapedPath_setPath {u u' : URL} {p : Bytes} (h : u.setPath p = some u') (hp : Starts 0x2F p) :
    u'.escapedPath = normal .path p := by
  unfold URL.setPath at h
  obtain ⟨path, hpath, h⟩ := Option.bind_eq_some_iff.1 h
  obtain rfl := Option.some.inj h
  have hstar : path ≠ ascii "*" := by
    cases p with
    | nil =>
      obtain rfl := Option.some.inj hpath
      decide
    | cons b p =>
      obtain rfl := hp b rfl
      obtain ⟨t, rfl⟩ := unescape_slash hpath
      intro h
      cases (List.cons.inj h).1
  unfold URL.escapedPath normal
  simp only [hpath, if_neg hstar, Option.map_some, Option.getD_some]
  by_cases hself : p = escape .path path
  · simp [← hself]
  · have hne : p ≠ [] := by
      intro h
      subst h
      obtain rfl := Option.some.inj hpath
      exact hself rfl
    simp [hself, hne, hpath]

theorem escapedFragment_setFragment {u u' : URL} {f : Bytes} (h : u.setFragment f = some u') (hf : f ≠ []) :
    u'.escapedFragment = normal .fragment f := by
  unfold URL.setFragment at h
  obtain ⟨fragment, hfragment, h⟩ := Option.bind_eq_some_iff.1 h
  obtain rfl := Option.some.inj h
  unfold URL.escapedFragment normal
  simp only [hfragment, Option.map_some, Option.getD_some]
  by_cases hself : f = escape .fragment fragment
  · simp [← hself]
  · simp [hself, hf, hfragment]

/-! ## A scheme and an authority -/

structure ValidScheme (s : Bytes) : Prop where
  head : ∃ c t, s = c :: t ∧ letter c = true
  chars : ∀ c ∈ s, schemeChar c = true

theorem ValidScheme.ne_nil {s : Bytes} (h : ValidScheme s) : s ≠ [] := by
  obtain ⟨c, t, rfl, -⟩ := h.head
  exact List.cons_ne_nil c t

theorem ValidScheme.notMem {s : Bytes} (h : ValidScheme s) {x : UInt8} (hx : schemeChar x = false) : x ∉ s := by
  intro hmem
  rw [h.chars x hmem] at hx
  cases hx

theorem getScheme_append {s : Bytes} (hs : ValidScheme s) (rest : Bytes) :
    getScheme (s ++ 0x3A :: rest) = some (s, rest) := by
  have htake : (s ++ 0x3A :: rest).takeWhile schemeChar = s ∧
      (s ++ 0x3A :: rest).dropWhile schemeChar = 0x3A :: rest := by
    rw [List.takeWhile_append_of_pos hs.chars, List.dropWhile_append_of_pos hs.chars]
    have hcolon : schemeChar 0x3A = false := by decide
    simp [hcolon]
  obtain ⟨c, t, rfl, hc⟩ := hs.head
  have hne : c ≠ 0x3A := by
    intro h
    rw [h] at hc
    exact absurd hc (by decide)
  rw [List.cons_append] at htake ⊢
  simp only [getScheme, if_neg hne, hc, Bool.true_eq_false, if_false, htake.1, htake.2]

theorem toLower_ne_nil {s : Bytes} (hs : s ≠ []) : toLower s ≠ [] := by
  unfold toLower
  exact fun h => hs (List.map_eq_nil_iff.1 h)

theorem cutQuery_append {p q : Bytes} (hp : 0x3F ∉ p) (hq : Starts 0x3F q) :
    cutQuery (p ++ q) = (decide (q = [0x3F]), q.tail, p) := by
  unfold cutQuery
  rw [List.count_append, List.count_eq_zero.2 hp, zero_add]
  cases q with
  | nil => simp [cut_of_notMem hp]
  | cons b q =>
    obtain rfl := hq b rfl
    cases q with
    | nil => simp
    | cons c q =>
      rw [if_neg, cut_append hp]
      · simp
      · intro h
        rw [List.getLast?_append_of_ne_nil _ (by simp), List.getLast?_cons_cons] at h
        have hmem := List.mem_of_getLast? h.1
        have hone := h.2
        rw [List.count_cons_self] at hone
        exact List.count_eq_zero.1 (Nat.succ.inj hone) hmem

theorem query_eq {u : URL} {q : Bytes} (hq : Starts 0x3F q) (hforce : u.forceQuery = decide (q = [0x3F]))
    (hraw : u.rawQuery = q.tail) : u.query = q := by
  unfold URL.query
  rw [hforce, hraw]
  cases q with
  | nil => rfl
  | cons b q =>
    obtain rfl := hq b rfl
    cases q <;> simp

theorem notMem_slashes {x : UInt8} (hx : x ≠ 0x2F) : x ∉ ascii "//" := by
  have hascii : ascii "//" = [0x2F, 0x2F] := by decide
  rw [hascii]
  simp [hx]

/-! ## Control bytes -/

/-- printable bytes, given as a check that control bytes fail -/
theorem noCTL {f : UInt8 → Bool} (hlow : ∀ n < 32, f (UInt8.ofNat n) = false) (hdel : f 0x7F = false) {s : Bytes}
    (hs : ∀ c ∈ s, f c = true) : stringContainsCTLByte s = false := by
  unfold stringContainsCTLByte
  rw [List.any_eq_false]
  intro c hc hctl
  have hf := hs c hc
  rcases of_decide_eq_true hctl with hlt | rfl
  · have hnat : c.toNat < 32 := UInt8.lt_iff_toNat_lt.1 hlt
    have hofNat := hlow c.toNat hnat
    rw [UInt8.ofNat_toNat, hf] at hofNat
    cases hofNat
  · rw [hf] at hdel
    cases hdel

theorem stringContainsCTLByte_append (s t : Bytes) :
    stringContainsCTLByte (s ++ t) = (stringContainsCTLByte s || stringContainsCTLByte t) := List.any_append

theorem ValidScheme.noCTL {s : Bytes} (h : ValidScheme s) : stringContainsCTLByte s = false :=
  NetUrl.noCTL (f := schemeChar) (by decide) (by decide) h.chars

theorem parseUserinfo_valid {s : Bytes} (h : (parseUserinfo s).isSome) : validUserinfo s = true := by
  unfold parseUserinfo at h
  split_ifs at h with hvalid
  · cases h
  all_goals exact Bool.not_eq_false _ |>.mp hvalid

theorem userinfo_noCTL {s : Bytes} (h : validUserinfo s = true) : stringContainsCTLByte s = false :=
  NetUrl.noCTL (f := fun c => letter c || digit c || c ∈ ascii "-._:~!$&'()*+,;=%@") (by decide) (by decide)
    (List.all_eq_true.1 h)

theorem normal_noCTL {s : Bytes} (h : stringContainsCTLByte s = false) :
    stringContainsCTLByte (normal .path s) = false := by
  unfold normal
  split_ifs
  · exact h
  · cases unescape .path s with
    | none => rfl
    | some t =>
      refine NetUrl.noCTL (f := fun c => !shouldEscape c .path || c = 0x25) (by decide) (by decide) ?_
      intro c hc
      rcases mem_escape hc with h | h <;> simp [h]

/-! ## Parsing and printing with an authority -/

/-- **Parsing.** A scheme, `//`, an authority, a path and a query are read as such. -/
theorem parse_authority (bracketed : Bytes → Option Bytes) {s a p q : Bytes} (hs : ValidScheme s) (ha : 0x2F ∉ a)
    (ha' : 0x3F ∉ a) (hp : Starts 0x2F p) (hp' : 0x3F ∉ p) (hq : Starts 0x3F q)
    (hctl : stringContainsCTLByte (s ++ ascii "://" ++ (a ++ p ++ q)) = false) :
    parse bracketed (s ++ ascii "://" ++ (a ++ p ++ q)) =
      (parseAuthority bracketed a).bind fun x =>
        URL.setPath { scheme := toLower s, user := x.1, host := x.2, forceQuery := decide (q = [0x3F]),
                      rawQuery := q.tail } p := by
  have hascii : ascii "://" = 0x3A :: ascii "//" := by decide
  have htext : s ++ ascii "://" ++ (a ++ p ++ q) = s ++ 0x3A :: (ascii "//" ++ a ++ p ++ q) := by
    rw [hascii]
    simp only [List.append_assoc, List.cons_append]
  have hstar : s ++ 0x3A :: (ascii "//" ++ a ++ p ++ q) ≠ ascii "*" := by
    intro h
    have hlen := congrArg List.length h
    have hone : (ascii "*").length = 1 := by decide
    have htwo : (ascii "//").length = 2 := by decide
    simp only [List.length_append, List.length_cons] at hlen
    omega
  rw [htext] at hctl ⊢
  have hquery := cutQuery_append (p := ascii "//" ++ a ++ p)
    (by simp only [List.mem_append, not_or]; exact ⟨⟨notMem_slashes (by decide), ha'⟩, hp'⟩) hq
  have hslashes : ascii "//" ++ a ++ p = 0x2F :: 0x2F :: (a ++ p) := by
    have h : ascii "//" = [0x2F, 0x2F] := by decide
    rw [h]
    rfl
  have hinfix : ascii "//" <+: 0x2F :: 0x2F :: (a ++ p) := ⟨a ++ p, hslashes ▸ List.append_assoc _ _ _ |>.symm⟩
  simp only [parse, hctl, Bool.false_eq_true, if_false, if_neg hstar, getScheme_append hs, bind, Option.bind_some,
    parseRest, hquery]
  rw [hslashes]
  simp only [List.head?_cons, ne_eq, not_true_eq_false, false_and, if_false, toLower_ne_nil hs.ne_nil,
    not_false_eq_true, true_or, true_and, hinfix, if_true, List.drop_succ_cons, List.drop_zero,
    splitBefore_append ha hp]

/-- **Printing** a URL with a scheme, an authority and a path that is empty or starts with a slash. -/
theorem string_authority {u : URL} {user : Userinfo} (hscheme : u.scheme ≠ []) (hrootless : u.rootless = [])
    (huser : u.user = some user) (hpath : Starts 0x2F u.escapedPath) :
    u.string = u.scheme ++ ascii "://" ++ (user.string ++ [0x40]) ++ escape .host u.host ++
      (u.escapedPath ++ u.query ++ if u.fragment ≠ [] then 0x23 :: u.escapedFragment else []) := by
  have hascii : ascii "://" = 0x3A :: ascii "//" := by decide
  have hfront : u.front = u.scheme ++ ascii "://" ++ (user.string ++ [0x40]) ++ escape .host u.host := by
    simp [URL.front, URL.authority, hscheme, huser, hascii]
  have hslash : ¬ (u.escapedPath ≠ [] ∧ u.escapedPath.head? ≠ some 0x2F ∧ u.host ≠ []) := by
    intro h
    obtain ⟨hne, hhead, -⟩ := h
    obtain ⟨c, t, hcons⟩ := List.exists_cons_of_ne_nil hne
    rw [hcons] at hhead
    exact hhead (congrArg some (hpath c (by rw [hcons]; rfl)))
  have htext : u.pathText = u.escapedPath := by
    unfold URL.pathText
    simp only [if_neg hslash, List.append_nil, List.nil_append]
    rw [if_neg, List.nil_append]
    intro h
    rw [hfront] at h
    simp [hscheme] at h
  unfold URL.string
  rw [if_neg (by simp [hrootless]), hfront, htext]
  simp only [List.append_assoc]

/-- what a URL with an authority was read from: scheme, user, host, path, query and fragment -/
structure Read (u : URL) (s : Bytes) (user : Option Userinfo) (host p q f : Bytes) : Prop where
  scheme : u.scheme = toLower s
  rootless : u.rootless = []
  user : u.user = user
  host : u.host = host
  path : u.escapedPath = normal .path p
  query : u.query = q
  fragment : (if u.fragment ≠ [] then 0x23 :: u.escapedFragment else []) =
    if f ≠ [] then 0x23 :: normal .fragment f else []

/-- printed with another user -/
theorem Read.string {u : URL} {s host p q f : Bytes} {user : Option Userinfo} (h : Read u s user host p q f)
    (hs : ValidScheme s) (hp : Starts 0x2F p) (other : Userinfo) :
    { u with user := some other }.string = toLower s ++ ascii "://" ++ (other.string ++ [0x40]) ++ escape .host host ++
      (normal .path p ++ q ++ if f ≠ [] then 0x23 :: normal .fragment f else []) := by
  have hpath : Starts 0x2F u.escapedPath := by
    rw [h.path]
    exact starts_normal hp
  have hscheme : u.scheme ≠ [] := by
    rw [h.scheme]
    exact toLower_ne_nil hs.ne_nil
  have hstring := @string_authority { u with user := some other } other hscheme h.rootless rfl hpath
  rw [← h.scheme, ← h.host, ← h.path, ← h.query, ← h.fragment]
  exact hstring

section
variable {bracketed : Bytes → Option Bytes} {text s a p q f : Bytes} (hs : ValidScheme s) (ha : 0x2F ∉ a)
  (ha' : 0x3F ∉ a) (hp : Starts 0x2F p) (hp' : 0x3F ∉ p) (hq : Starts 0x3F q)
  (hcut : cut 0x23 text = (s ++ ascii "://" ++ (a ++ p ++ q), f))
include hs ha ha' hp hp' hq hcut

/-- **What was read.** -/
theorem read_of_parseURL {u : URL} (h : parseURL bracketed text = some u) :
    stringContainsCTLByte (s ++ ascii "://" ++ (a ++ p ++ q)) = false ∧ (unescape .path p).isSome ∧
      (unescape .fragment f).isSome ∧
      ∃ x, parseAuthority bracketed a = some x ∧ Read u s x.1 x.2 p q f := by
  unfold parseURL at h
  rw [hcut] at h
  obtain ⟨v, hv, h⟩ := Option.bind_eq_some_iff.1 h
  have hctl : stringContainsCTLByte (s ++ ascii "://" ++ (a ++ p ++ q)) = false := by
    unfold parse at hv
    split_ifs at hv with hctl
    · exact Bool.eq_false_iff.2 hctl
    · exact Bool.eq_false_iff.2 hctl
  rw [parse_authority bracketed hs ha ha' hp hp' hq hctl] at hv
  obtain ⟨x, hx, hv⟩ := Option.bind_eq_some_iff.1 hv
  have hpath := escapedPath_setPath hv hp
  unfold URL.setPath at hv
  obtain ⟨path, hunescape, hv⟩ := Option.bind_eq_some_iff.1 hv
  obtain rfl := Option.some.inj hv
  refine ⟨hctl, Option.isSome_iff_exists.2 ⟨path, hunescape⟩, ?_⟩
  by_cases hf : f = []
  · rw [if_pos hf] at h
    obtain rfl := Option.some.inj h
    subst hf
    exact ⟨rfl, x, hx, rfl, rfl, rfl, rfl, hpath, query_eq hq rfl rfl, by simp⟩
  · rw [if_neg hf] at h
    have hescaped := escapedFragment_setFragment h hf
    unfold URL.setFragment at h
    obtain ⟨fragment, hfragment, h⟩ := Option.bind_eq_some_iff.1 h
    obtain rfl := Option.some.inj h
    refine ⟨Option.isSome_iff_exists.2 ⟨fragment, hfragment⟩, x, hx, rfl, rfl, rfl, rfl, hpath, query_eq hq rfl rfl, ?_⟩
    rw [hescaped, if_pos hf, if_pos (unescape_ne_nil hfragment hf)]

theorem parseURL_isSome (hctl : stringContainsCTLByte (s ++ ascii "://" ++ (a ++ p ++ q)) = false)
    (hpath : (unescape .path p).isSome) (hfragment : (unescape .fragment f).isSome)
    (hauthority : (parseAuthority bracketed a).isSome) : (parseURL bracketed text).isSome := by
  obtain ⟨path, hpath⟩ := Option.isSome_iff_exists.1 hpath
  obtain ⟨fragment, hfragment⟩ := Option.isSome_iff_exists.1 hfragment
  obtain ⟨x, hx⟩ := Option.isSome_iff_exists.1 hauthority
  unfold parseURL
  rw [hcut]
  simp only [parse_authority bracketed hs ha ha' hp hp' hq hctl, hx, URL.setPath, hpath, URL.setFragment, hfragment,
    bind, Option.bind_some, pure]
  split_ifs <;> rfl

end

end NotifyAgent.Lib.NetUrl
