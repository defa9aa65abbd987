/-
The image cache of the Go agent (`internal/imagecache`) with any number of `Fetch`es at a time, in one process or
several that share the directory. Fetches of one URL in one process share a run (`Lib.SingleFlight`; the key of a run
here is the process and the file name). Everything after the download is synchronous: its context stops the request and
the body only.

What the network and the file system do is given by the operations; the files are those of `Lib.Publishing`.

- `readAll_eq_some`, `receive_eq_some`: which answers are accepted, and with what body;
- `Went`, `go_cases`: everything a step of a run can do.

Premise: where `os.CreateTemp` draws the name of a temporary file that was removed while its download goes on, the two
downloads share a file here, as they do at the rename. Runs without such a draw are those whose steps are `Unrepeated`.
-/
import Mathlib.Tactic
import NotifyAgent.Core.HeadIdentity
import NotifyAgent.Core.HttpsUrl
import NotifyAgent.Core.ImageCache
import NotifyAgent.Lib.Publishing
import NotifyAgent.Lib.SingleFlight

namespace NotifyAgent.GoImageCache

open NotifyAgent.Text NotifyAgent.HttpsUrl
open NotifyAgent.HeadIdentity (Sha256)
open NotifyAgent.ImageCache (Bytes hexSha256)
open NotifyAgent.Lib.Publishing (Publisher)
open NotifyAgent.Lib.SingleFlight (Group)

abbrev Files := Lib.Publishing.St Str UInt8

/-! ## Options -/

/-- `math.MaxInt64` -/
def maxInt64 : ℤ := 2 ^ 63 - 1

structure Options where
  maxBytes : ℤ
  maxFiles : ℤ
  /-- an `int64` -/
  fits : maxBytes ≤ maxInt64
deriving DecidableEq

def defaultOptions : Options := ⟨3 * 1024 * 1024, 50, by decide⟩

def maxBytes (o : Options) : ℤ := if o.maxBytes ≤ 0 then defaultOptions.maxBytes else o.maxBytes

def maxFiles (o : Options) : ℤ := if o.maxFiles ≤ 0 then defaultOptions.maxFiles else o.maxFiles

theorem maxBytes_pos (o : Options) : 0 < maxBytes o := by
  unfold maxBytes
  split_ifs with h
  · decide
  · omega

theorem maxBytes_le (o : Options) : maxBytes o ≤ maxInt64 := by
  unfold maxBytes
  split_ifs
  · decide
  · exact o.fits

/-- `limit+1`, in 64 bits -/
def readLimit (o : Options) : ℤ := (maxBytes o + 1).bmod (2 ^ 64)

theorem readLimit_eq {o : Options} (h : maxBytes o < maxInt64) : readLimit o = maxBytes o + 1 := by
  have hpos := maxBytes_pos o
  rw [maxInt64] at h
  exact Int.bmod_eq_of_le (by omega) (by omega)

theorem readLimit_wraps {o : Options} (h : maxBytes o = maxInt64) : readLimit o = -2 ^ 63 := by
  rw [readLimit, h]
  decide

/-! ## The download up to the file -/

/-- what `client.Do` returns; the body is given read by read, and `none` is a read that fails -/
structure Response where
  statusCode : ℤ
  contentType : Str
  body : List (Option Bytes)
deriving DecidableEq, Repr

def isImageContentType (contentType : Str) : Bool :=
  let contentType := contentType.takeWhile (· ≠ ';')
  contentType.length > "image/".toList.length ∧ "image/".toList <+: contentType

/-- `io.ReadAll` of an `io.LimitReader`; the limit is checked before each read, and nothing is read if it is not
positive -/
def readAll : ℕ → List (Option Bytes) → Option Bytes
  | _, [] => some []
  | 0, _ :: _ => some []
  | n + 1, a :: rest =>
    match a with
    | none => none
    | some chunk =>
      if n + 1 ≤ chunk.length then some (chunk.take (n + 1))
      else (readAll (n + 1 - chunk.length) rest).map (chunk ++ ·)

/-- `download` up to `MkdirAll`; why it fails is not looked at by `Fetch` -/
def receive (o : Options) (resp : Option Response) : Option Bytes :=
  resp.bind fun resp =>
    if resp.statusCode < 200 ∨ resp.statusCode ≥ 300 then none
    else if ¬ isImageContentType resp.contentType then none
    else
      (readAll (readLimit o).toNat resp.body).bind fun body =>
        if (body.length : ℤ) > maxBytes o then none else some body

/-- the bytes that arrive before the first failure -/
def sent : List (Option Bytes) → Bytes
  | some chunk :: rest => chunk ++ sent rest
  | _ => []

/-- **What is read**: the first bytes of what is sent, and nothing fails before the limit. -/
theorem readAll_eq_some {n : ℕ} {stream : List (Option Bytes)} {body : Bytes} (hlen : body.length < n) :
    readAll n stream = some body ↔ (∀ a ∈ stream, a.isSome) ∧ body = sent stream := by
  induction stream generalizing n body with
  | nil =>
    simp only [readAll, sent, Option.some.injEq, List.not_mem_nil, false_implies, implies_true, true_and]
    exact eq_comm
  | cons a rest ih =>
    cases n with
    | zero => omega
    | succ n =>
      cases a with
      | none => simp [readAll]
      | some chunk =>
        simp only [readAll, sent, List.mem_cons, forall_eq_or_imp, Option.isSome_some, true_and]
        split_ifs with hfull
        · constructor
          · intro h
            rw [← Option.some.inj h, List.length_take] at hlen
            omega
          · rintro ⟨-, rfl⟩
            rw [List.length_append] at hlen
            omega
        · constructor
          · intro h
            obtain ⟨tail, htail, rfl⟩ := Option.map_eq_some_iff.1 h
            rw [List.length_append] at hlen
            obtain ⟨hall, rfl⟩ := (ih (by omega)).1 htail
            exact ⟨hall, rfl⟩
          · rintro ⟨hall, rfl⟩
            rw [List.length_append] at hlen
            rw [(ih (by omega)).2 ⟨hall, rfl⟩]
            rfl

theorem readAll_zero (stream : List (Option Bytes)) : readAll 0 stream = some [] := by
  cases stream <;> rfl

/-- the body that is read: all of it within the cap; where the limit wraps around, none of it -/
theorem limited_eq_some {o : Options} {stream : List (Option Bytes)} {body : Bytes} :
    ((readAll (readLimit o).toNat stream).bind fun body => if (body.length : ℤ) > maxBytes o then none else some body) =
        some body ↔
      if maxBytes o < maxInt64 then
        (∀ a ∈ stream, a.isSome) ∧ body = sent stream ∧ (body.length : ℤ) ≤ maxBytes o
      else body = [] := by
  have hpos := maxBytes_pos o
  split_ifs with hlimit
  · have hn : ((readLimit o).toNat : ℤ) = maxBytes o + 1 := by
      rw [readLimit_eq hlimit]
      omega
    rw [Option.bind_eq_some_iff]
    constructor
    · rintro ⟨b, hb, hcap⟩
      split_ifs at hcap with hlen
      cases hcap
      obtain ⟨hall, hbody⟩ := (readAll_eq_some (by omega)).1 hb
      exact ⟨hall, hbody, by omega⟩
    · rintro ⟨hall, hbody, hlen⟩
      exact ⟨body, (readAll_eq_some (by omega)).2 ⟨hall, hbody⟩, if_neg (by omega)⟩
  · have hmax : maxBytes o = maxInt64 := le_antisymm (maxBytes_le o) (not_lt.1 hlimit)
    have hn : (readLimit o).toNat = 0 := by
      rw [readLimit_wraps hmax]
      rfl
    have hempty : ¬ (([] : Bytes).length : ℤ) > maxBytes o := not_lt.2 hpos.le
    rw [hn, readAll_zero, Option.bind_some, if_neg hempty, Option.some.injEq]
    exact eq_comm

/-- **What is accepted**: an image, all of it, within the cap; where the limit wraps around, an image whose body nobody
has read. -/
theorem receive_eq_some {o : Options} {resp : Option Response} {body : Bytes} :
    receive o resp = some body ↔
      ∃ r, resp = some r ∧ 200 ≤ r.statusCode ∧ r.statusCode < 300 ∧ isImageContentType r.contentType = true ∧
        if maxBytes o < maxInt64 then
          (∀ a ∈ r.body, a.isSome) ∧ body = sent r.body ∧ (body.length : ℤ) ≤ maxBytes o
        else body = [] := by
  cases resp with
  | none => simp [receive]
  | some r =>
    simp only [receive, Option.bind_some, Option.some.injEq, exists_eq_left', ← limited_eq_some]
    by_cases hstatus : r.statusCode < 200 ∨ r.statusCode ≥ 300
    · rw [if_pos hstatus]
      refine iff_of_false (by simp) fun ⟨h1, h2, _⟩ => ?_
      omega
    · have h1 : 200 ≤ r.statusCode := by omega
      have h2 : r.statusCode < 300 := by omega
      simp only [hstatus, h1, h2, if_false, true_and]
      by_cases himage : isImageContentType r.contentType = true <;> simp [himage]

/-! ## One run -/

/-- what a run has come to -/
inductive Outcome where
  /-- the file was there, with this content -/
  | found (content : Bytes)
  | published (part : ℕ)
  /-- no image; `stuck`: the temporary file, if `os.Remove` could not remove it -/
  | failed (stuck : Option ℕ)
deriving DecidableEq, Repr

inductive Phase where
  /-- at the second `os.Stat` -/
  | checking
  | downloading
  /-- at `os.CreateTemp` -/
  | creating (body : Bytes)
  | writing (part : ℕ)
  | closing (part : ℕ)
  | renaming (part : ℕ)
  /-- at `os.Remove` of the temporary file -/
  | cleaning (part : ℕ)
  /-- in `evictBeyondCap` -/
  | listing (part : ℕ)
  | evicting (part : ℕ) (names : List Str)
  | ended (outcome : Outcome)
deriving DecidableEq, Repr

/-- what a run does next; `ok`: whether the call succeeds -/
inductive Act where
  | rechecked (ok : Bool)
  | received (resp : Option Response) (ok : Bool)
  /-- the number that `os.CreateTemp` draws -/
  | created (random : ℕ)
  | notCreated
  | wrote (k : ℕ)
  | written (ok : Bool)
  | closed (ok : Bool)
  | renamed (ok : Bool)
  | cleaned (ok : Bool)
  /-- the times and names of the files, as `os.ReadDir` and `Info` give them, and as `sort.Slice` leaves them -/
  | listed (entries : Option (List (ℕ × Str))) (sorted : List (ℕ × Str))
  | unlinked (ok : Bool)
  | evicted

def tempName (random : ℕ) : Str := ".imagecache-tmp-".toList ++ (toString random).toList

theorem dot_mem_tempName (random : ℕ) : '.' ∈ tempName random := List.mem_append_left _ (by decide)

/-- `os.CreateTemp` takes a name that no file has -/
def isFree (files : Files) (name : Str) : Bool := (files.dir name).isNone

/-- `os.Stat` -/
def stat (files : Files) (path : Str) (ok : Bool) : Option Bytes := if ok then files.dir path else none

/-- the files that are removed, in this order; `sort.Slice` is not stable, so `sorted` is some sorted order -/
def evictedNames (o : Options) (entries : Option (List (ℕ × Str))) (sorted : List (ℕ × Str)) : Option (List Str) :=
  match entries with
  | none => some []
  | some files =>
    if (files.length : ℤ) ≤ maxFiles o then some []
    else if sorted.Perm files ∧ sorted.Pairwise (fun a b => a.1 ≤ b.1) then
      some ((sorted.take (files.length - (maxFiles o).toNat)).map Prod.snd)
    else none

/-- the next step of a run, and what it does to the files; `none`: not the next step -/
def go (o : Options) (path : Str) (files : Files) : Phase → Act → Option (Files × Phase)
  | .checking, .rechecked ok =>
    match stat files path ok with
    | some content => some (files, .ended (.found content))
    | none => some (files, .downloading)
  | .downloading, .received resp ok =>
    match receive o resp with
    | some body => some (files, if ok then .creating body else .ended (.failed none))
    | none => some (files, .ended (.failed none))
  | .creating body, .created random =>
    if isFree files (tempName random) then
      let joined := Lib.Publishing.step files (.join (tempName random) path body)
      some (Lib.Publishing.step joined (.create files.publishers.length), .writing files.publishers.length)
    else none
  | .creating _, .notCreated => some (files, .ended (.failed none))
  | .writing part, .wrote k => some (Lib.Publishing.step files (.write part k), .writing part)
  | .writing part, .written true =>
    let files' := Lib.Publishing.step files (.written part)
    if (files'.publishers[part]?).map Publisher.phase = some .written then some (files', .closing part) else none
  | .closing part, .closed true => some (Lib.Publishing.step files (.ask part), .renaming part)
  | .renaming part, .renamed true =>
    let files' := Lib.Publishing.step files (.rename part)
    if (files'.publishers[part]?).map Publisher.phase = some .done then some (files', .listing part)
    else some (files', .cleaning part)
  | .writing part, .written false => some (Lib.Publishing.step files (.fail part), .cleaning part)
  | .closing part, .closed false => some (Lib.Publishing.step files (.fail part), .cleaning part)
  | .renaming part, .renamed false => some (Lib.Publishing.step files (.fail part), .cleaning part)
  | .cleaning part, .cleaned ok =>
    (files.publishers[part]?).map fun p =>
      if ok then (Lib.Publishing.step files (.remove p.tmp), .ended (.failed none))
      else (files, .ended (.failed (some part)))
  | .listing part, .listed entries sorted =>
    (evictedNames o entries sorted).map fun names => (files, .evicting part names)
  | .evicting part (name :: rest), .unlinked ok =>
    some (if ok then Lib.Publishing.step files (.remove name) else files, .evicting part rest)
  | .evicting part [], .evicted => some (files, .ended (.published part))
  | _, _ => none

/-! ## What a step of a run does -/

section
variable (o : Options) (path : Str) (files : Files) (act : Act)

/-- the steps of a run -/
inductive Went : Phase → Files → Phase → Prop where
  | found (content) (hfile : files.dir path = some content) : Went .checking files (.ended (.found content))
  | missing : Went .checking files .downloading
  | received (resp body) (hact : act = .received (some resp) true) (hbody : receive o (some resp) = some body) :
    Went .downloading files (.creating body)
  | gaveUp (phase) (hphase : phase = .downloading ∨ ∃ body, phase = .creating body) :
    Went phase files (.ended (.failed none))
  | created (body random) (hact : act = .created random) : Went (.creating body)
      (Lib.Publishing.step (Lib.Publishing.step files (.join (tempName random) path body))
        (.create files.publishers.length))
      (.writing files.publishers.length)
  | wrote (part k) : Went (.writing part) (Lib.Publishing.step files (.write part k)) (.writing part)
  | written (part) (hdone : ((Lib.Publishing.step files (.written part)).publishers[part]?).map Publisher.phase =
      some .written) : Went (.writing part) (Lib.Publishing.step files (.written part)) (.closing part)
  | closed (part) : Went (.closing part) (Lib.Publishing.step files (.ask part)) (.renaming part)
  | renamed (part) (hdone : ((Lib.Publishing.step files (.rename part)).publishers[part]?).map Publisher.phase =
      some .done) : Went (.renaming part) (Lib.Publishing.step files (.rename part)) (.listing part)
  | lost (part) (hdone : ((Lib.Publishing.step files (.rename part)).publishers[part]?).map Publisher.phase ≠
      some .done) : Went (.renaming part) (Lib.Publishing.step files (.rename part)) (.cleaning part)
  | dropped (phase part) (hphase : phase = .writing part ∨ phase = .closing part ∨ phase = .renaming part) :
    Went phase (Lib.Publishing.step files (.fail part)) (.cleaning part)
  | cleaned (part p) (hp : files.publishers[part]? = some p) :
    Went (.cleaning part) (Lib.Publishing.step files (.remove p.tmp)) (.ended (.failed none))
  | stuck (part) : Went (.cleaning part) files (.ended (.failed (some part)))
  | listed (part names) : Went (.listing part) files (.evicting part names)
  | unlinked (part name rest) :
    Went (.evicting part (name :: rest)) (Lib.Publishing.step files (.remove name)) (.evicting part rest)
  | skipped (part name rest) : Went (.evicting part (name :: rest)) files (.evicting part rest)
  | evicted (part) : Went (.evicting part []) files (.ended (.published part))

variable {o path files act} {files' : Files} {phase phase' : Phase}

/-- **What a step of a run does.** -/
theorem go_cases (h : go o path files phase act = some (files', phase')) :
    Went o path files act phase files' phase' := by
  unfold go at h
  split at h
  · -- the second `os.Stat`
    rename_i ok
    split at h <;> cases h
    · rename_i content hstat
      unfold stat at hstat
      split_ifs at hstat
      exact .found content hstat
    · exact .missing
  · rename_i resp ok
    split at h <;> cases h
    · rename_i body hbody
      cases ok with
      | true =>
        cases resp with
        | none => cases hbody
        | some resp => exact .received resp body rfl hbody
      | false => exact .gaveUp _ (Or.inl rfl)
    · exact .gaveUp _ (Or.inl rfl)
  · rename_i body random
    split_ifs at h
    cases h
    exact .created body random rfl
  · cases h
    exact .gaveUp _ (Or.inr ⟨_, rfl⟩)
  · cases h
    exact .wrote _ _
  · simp only at h
    split_ifs at h with hdone
    cases h
    exact .written _ hdone
  · cases h
    exact .closed _
  · simp only at h
    split_ifs at h with hdone <;> cases h
    · exact .renamed _ hdone
    · exact .lost _ hdone
  · cases h
    exact .dropped _ _ (Or.inl rfl)
  · cases h
    exact .dropped _ _ (Or.inr (Or.inl rfl))
  · cases h
    exact .dropped _ _ (Or.inr (Or.inr rfl))
  · rename_i part ok
    obtain ⟨p, hp, heq⟩ := Option.map_eq_some_iff.1 h
    cases ok with
    | true =>
      cases heq
      exact .cleaned part p hp
    | false =>
      cases heq
      exact .stuck part
  · obtain ⟨names, -, heq⟩ := Option.map_eq_some_iff.1 h
    cases heq
    exact .listed _ names
  · rename_i part name rest ok
    cases ok with
    | true =>
      cases h
      exact .unlinked part name rest
    | false =>
      cases h
      exact .skipped part name rest
  · cases h
    exact .evicted _
  · cases h

end

/-! ## The cache -/

/-- a run is about a file of a process, and is for the URL of the first caller -/
structure Run where
  url : Str
  phase : Phase
deriving DecidableEq, Repr

def Run.isEnded (r : Run) : Prop := ∃ outcome, r.phase = .ended outcome

inductive Stage where
  /-- at the first `os.Stat` -/
  | looking
  /-- before `group.Do` -/
  | joining
  | waiting (flight : ℕ)
  /-- the file was there, with this content -/
  | cached (content : Bytes)
  /-- the run is over -/
  | shared (flight : ℕ)
deriving DecidableEq, Repr

structure Call where
  process : ℕ
  rawURL : Str
  stage : Stage
deriving DecidableEq, Repr

structure St where
  files : Files
  group : Group (ℕ × Str) Run
  calls : List Call

inductive Op where
  | fetch (process : ℕ) (rawURL : Str)
  | looked (c : ℕ) (ok : Bool)
  | join (c : ℕ)
  | answered (c : ℕ)
  | run (f : ℕ) (act : Act)
  /-- somebody removes a file -/
  | remove (name : Str)

section
variable (parse : Str → Option URL) (S : Sha256) (o : Options) (s : St)

def Call.path (c : Call) : Str := hexSha256 S c.rawURL

def setCall (i : ℕ) (c : Call) (stage : Stage) : St := { s with calls := s.calls.set i { c with stage := stage } }

/-- a run that ends leaves the map -/
def setRun (f : ℕ) (key : ℕ × Str) (r : Run) (files : Files) (phase : Phase) : St :=
  match phase with
  | .ended outcome => { s with
      files := files
      group := Lib.SingleFlight.finish s.group f key { r with phase := .ended outcome } }
  | phase => { s with
      files := files
      group := Lib.SingleFlight.advance s.group f key { r with phase := phase } }

/-- one operation; one that is not enabled leaves the state unchanged -/
def step : Op → St
  | .fetch process rawURL =>
    if valid parse rawURL then { s with calls := s.calls ++ [⟨process, rawURL, .looking⟩] } else s
  | .looked i ok =>
    match s.calls[i]? with
    | some c =>
      if c.stage = .looking then
        match stat s.files (c.path S) ok with
        | some content => setCall s i c (.cached content)
        | none => setCall s i c .joining
      else s
    | none => s
  | .join i =>
    match s.calls[i]? with
    | some c =>
      if c.stage = .joining then
        { setCall s i c (.waiting (Lib.SingleFlight.flightOf s.group (c.process, c.path S))) with
          group := Lib.SingleFlight.join s.group (c.process, c.path S) ⟨c.rawURL, .checking⟩ }
      else s
    | none => s
  | .answered i =>
    match s.calls[i]? with
    | some c =>
      match c.stage with
      | .waiting f =>
        match (s.group.flights[f]?).map fun r => r.2.phase with
        | some (Phase.ended _) => setCall s i c (.shared f)
        | _ => s
      | _ => s
    | none => s
  | .run f act =>
    match s.group.flights[f]? with
    | some (key, r) =>
      match go o key.2 s.files r.phase act with
      | some (files, phase) => setRun s f key r files phase
      | none => s
    | none => s
  | .remove name => { s with files := Lib.Publishing.step s.files (.remove name) }

/-- what `Fetch` returns, once it does: the path of the file, if there is one -/
def result (c : Call) : Option (Option Str) :=
  match c.stage with
  | .cached _ => some (some (c.path S))
  | .shared f =>
    (s.group.flights[f]?).bind fun r =>
      match r.2.phase with
      | .ended (.failed _) => some none
      | .ended _ => some (some r.1.2)
      | _ => none
  | _ => none

end

/-- the number that `os.CreateTemp` draws in an operation -/
def drawn : Op → Option ℕ
  | .run _ (.created random) => some random
  | _ => none

/-- `os.CreateTemp` does not draw the name of a temporary file that a download still has in hand, be it there or not -/
def Unrepeated (s : St) (op : Op) : Prop :=
  ∀ random ∈ drawn op, ∀ p ∈ s.files.publishers, p.phase.live = true → p.tmp ≠ tempName random

instance (s : St) (op : Op) : Decidable (Unrepeated s op) :=
  inferInstanceAs
    (Decidable (∀ random ∈ drawn op, ∀ p ∈ s.files.publishers, p.phase.live = true → p.tmp ≠ tempName random))

/-- no fetch has begun -/
def init (d : Lib.Directory.Dir Str Bytes) : St := ⟨⟨d, []⟩, Lib.SingleFlight.empty, []⟩

end NotifyAgent.GoImageCache
