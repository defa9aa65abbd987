/-
The image cache of the Rust agent (`image_cache.rs`): one `fetch`. What the network and the file system do, and at which
await point the surrounding timeout strikes, is a parameter (`World`). A file operation of tokio runs on a thread of its
own and goes on when the future that awaits it is dropped; so a write or a rename that the timeout cancels may still
take place, and the directory is the one after that.

- `hexSha256_ne_tmpName`: the temporary file never has the name of a cached image;
- `collect_eq_ok`, `collect_tooLarge`: what becomes of the body, whatever its chunks.
-/
import Mathlib.Tactic
import NotifyAgent.Lib.Directory
import NotifyAgent.Core.ActionUrl
import NotifyAgent.Core.HeadIdentity

namespace NotifyAgent.ImageCache

open NotifyAgent.Text
open NotifyAgent.ActionUrl (Url)
open NotifyAgent.HeadIdentity (Sha256 hexByte lastIndexOf)
open NotifyAgent.Lib.Directory

abbrev Bytes := List UInt8

/-! ## What the world does -/

/-- the outcome of an awaited operation -/
inductive Await (α : Type) where
  | ready (a : α)
  | failed
  /-- the timeout strikes here -/
  | cancelled

/-- the outcome of the write; one that is not done leaves the first bytes of the file, or does not even create it -/
inductive Write where
  | done
  | failed (reach : Option ℕ)
  | cancelled (reach : Option ℕ)

inductive Rename where
  | done
  | failed
  | cancelled (took : Bool)

structure Response where
  status : ℕ
  contentType : Option Bytes

structure World where
  /-- `try_exists` -/
  lookup : Await Unit
  response : Await Response
  /-- what `stream.next()` gives, call by call -/
  stream : List (Await Bytes)
  createDir : Await Unit
  write : Write
  rename : Rename
  /-- the modification times and names of the files, as `read_dir` lists them -/
  listing : Option (List (ℕ × Str))
  /-- the files that `remove_file` cannot remove -/
  stuck : Str → Bool
  /-- the timeout strikes while files are evicted -/
  evictionCancelled : Bool

/-! ## Model -/

structure ImageCacheOptions where
  requireHttps : Bool
  maxBytes : ℕ
  maxFiles : ℕ

/-- the process id, and the value of `TMP_COUNTER` -/
structure Process where
  id : ℕ
  tmpCounter : ℕ

inductive Fault where
  /-- the request, its status or its body -/
  | http
  | io
  | ensure (text : Str)

/-- why `fetch` gives up -/
inductive Stop where
  | failed (fault : Fault)
  | elapsed

def Await.get {α : Type} (fault : Fault) : Await α → Except Stop α
  | .ready a => .ok a
  | .failed => .error (.failed fault)
  | .cancelled => .error .elapsed

/-- `parse_image_url`, over the URL parser -/
def parseImageUrl (parse : Str → Option Url) (value : Str) (requireHttps : Bool) : Option Url :=
  (parse value).bind fun url =>
    if (requireHttps && decide (url.scheme ≠ "https".toList)) || url.hostStr.isNone || !url.username.isEmpty ||
        url.password.isSome then none
    else some url

/-- `hex_sha256` -/
def hexSha256 (S : Sha256) (input : Str) : Str := (S.digest (utf8 input)).flatMap hexByte

/-- `Path::file_stem` of a file name -/
def fileStem (name : Str) : Str :=
  if name = ['.', '.'] then name
  else
    match lastIndexOf '.' name with
    | none | some 0 => name
    | some dot => name.take dot

/-- `Path::with_extension` -/
def withExtension (name ext : Str) : Str := fileStem name ++ if ext = [] then [] else '.' :: ext

def tmpName (P : Process) (path : Str) : Str :=
  withExtension path ("part-".toList ++ (toString P.id).toList ++ ['-'] ++ (toString P.tmpCounter).toList)

/-- `HeaderValue::to_str` -/
def toStr (value : Bytes) : Option Str :=
  if value.all fun b => (0x20 ≤ b.toNat ∧ b.toNat < 0x7F) ∨ b.toNat = 0x09 then
    some (value.map fun b => Char.ofNat b.toNat)
  else none

def Response.contentTypeText (resp : Response) : Str := (resp.contentType.bind toStr).getD []

/-- `error_for_status` -/
def Response.isError (resp : Response) : Bool := 400 ≤ resp.status ∧ resp.status < 600

def tooLarge (maxBytes : ℕ) : Fault :=
  .ensure ("image exceeds ".toList ++ (toString maxBytes).toList ++ " bytes".toList)

def notAnImage (contentType : Str) : Fault := .ensure ("not an image: ".toList ++ contentType)

/-- the loop over the chunks -/
def collect (maxBytes : ℕ) : Bytes → List (Await Bytes) → Except Stop Bytes
  | body, [] => .ok body
  | body, a :: rest =>
    match a.get .http with
    | .error stop => .error stop
    | .ok chunk =>
      if body.length + chunk.length ≤ maxBytes then collect maxBytes (body ++ chunk) rest
      else .error (.failed (tooLarge maxBytes))

/-- `download` up to the write: the body, if nothing stops it -/
def receive (o : ImageCacheOptions) (w : World) : Except Stop Bytes := do
  let resp ← w.response.get .http
  if resp.isError then .error (.failed .http)
  else if ¬ "image/".toList <+: resp.contentTypeText then .error (.failed (notAnImage resp.contentTypeText))
  else
    let body ← collect o.maxBytes [] w.stream
    let () ← w.createDir.get .io
    .ok body

/-- the directory after a write that reached so far -/
def reached (d : Dir Str Bytes) (tmp : Str) (body : Bytes) : Option ℕ → Dir Str Bytes
  | none => d
  | some k => put d tmp (body.take k)

/-- `download` from the write on -/
def store (w : World) (d : Dir Str Bytes) (tmp path : Str) (body : Bytes) : Dir Str Bytes × Except Stop Unit :=
  match w.write with
  | .failed reach => (reached d tmp body reach, .error (.failed .io))
  | .cancelled reach => (reached d tmp body reach, .error .elapsed)
  | .done =>
    match w.rename with
    | .failed => (put d tmp body, .error (.failed .io))
    | .cancelled took => (if took then rename (put d tmp body) tmp path else put d tmp body, .error .elapsed)
    | .done => (rename (put d tmp body) tmp path, .ok ())

def download (o : ImageCacheOptions) (P : Process) (w : World) (d : Dir Str Bytes) (path : Str) :
    Dir Str Bytes × Except Stop Unit :=
  match receive o w with
  | .error stop => (d, .error stop)
  | .ok body => store w d (tmpName P path) path body

/-- `evict_beyond_cap` -/
def evictBeyondCap (w : World) (d : Dir Str Bytes) (maxFiles : ℕ) : Dir Str Bytes :=
  match w.listing with
  | none => d
  | some files =>
    if files.length ≤ maxFiles then d
    else
      ((files.mergeSort fun a b => a.1 ≤ b.1).take (files.length - maxFiles)).foldl
        (fun d file => if w.stuck file.2 then d else remove d file.2) d

/-- what one `fetch` gives and leaves; the name is the file's in the cache directory -/
structure Fetched where
  result : Option Str
  beforeEviction : Dir Str Bytes
  dir : Dir Str Bytes

/-- the timed part of `fetch` -/
def fetchTimed (o : ImageCacheOptions) (P : Process) (w : World) (d : Dir Str Bytes) (path : Str) : Fetched :=
  match w.lookup with
  | .failed | .cancelled => ⟨none, d, d⟩
  | .ready () =>
    if (d path).isSome then ⟨some path, d, d⟩
    else
      match download o P w d path with
      | (d', .error _) => ⟨none, d', d'⟩
      | (d', .ok ()) => ⟨if w.evictionCancelled then none else some path, d', evictBeyondCap w d' o.maxFiles⟩

def fetch (parse : Str → Option Url) (S : Sha256) (o : ImageCacheOptions) (P : Process) (w : World)
    (d : Dir Str Bytes) (url : Str) : Fetched :=
  match parseImageUrl parse url o.requireHttps with
  | none => ⟨none, d, d⟩
  | some url => fetchTimed o P w d (hexSha256 S url.asStr)

/-! ## Names -/

theorem lastIndexOf_none {α : Type} [DecidableEq α] {a : α} {l : List α} (h : a ∉ l) : lastIndexOf a l = none := by
  induction l with
  | nil => rfl
  | cons x l ih =>
    have hx : ¬ x = a := fun heq => h (heq ▸ List.mem_cons_self)
    simp only [lastIndexOf, ih fun hl => h (List.mem_cons_of_mem _ hl), if_neg hx]

theorem dot_notMem_hexByte (b : UInt8) : '.' ∉ hexByte b := by
  have hdigit : ∀ n < 16, Nat.digitChar n ≠ '.' := by decide
  have hb := b.toNat_lt
  intro h
  rcases List.mem_cons.1 h with h | h
  · exact hdigit _ (by omega) h.symm
  · exact hdigit _ (by omega) (List.mem_singleton.1 h).symm

theorem withExtension_of_no_dot {name ext : Str} (h : '.' ∉ name) (hext : ext ≠ []) :
    withExtension name ext = name ++ '.' :: ext := by
  have hne : name ≠ ['.', '.'] := by
    intro heq
    rw [heq] at h
    exact h List.mem_cons_self
  rw [withExtension, fileStem, if_neg hne, if_neg hext, lastIndexOf_none h]

/-- **The temporary file is another file than the image.** -/
theorem hexSha256_ne_tmpName (S : Sha256) (P : Process) (input : Str) :
    hexSha256 S input ≠ tmpName P (hexSha256 S input) := by
  have hdot : '.' ∉ hexSha256 S input := by
    intro h
    obtain ⟨b, -, hb⟩ := List.mem_flatMap.1 h
    exact dot_notMem_hexByte b hb
  rw [tmpName, withExtension_of_no_dot hdot (by simp)]
  intro heq
  have hlen := congrArg List.length heq
  rw [List.length_append, List.length_cons] at hlen
  omega

/-! ## The body -/

/-- the chunks that arrive before the first failure, put together -/
def delivered : List (Await Bytes) → Bytes
  | .ready chunk :: rest => chunk ++ delivered rest
  | _ => []

/-- the chunks all arrive -/
def Await.isReady {α : Type} : Await α → Bool
  | .ready _ => true
  | _ => false

theorem collect_eq_ok {maxBytes : ℕ} {body : Bytes} {stream : List (Await Bytes)} {result : Bytes}
    (hbody : body.length ≤ maxBytes) :
    collect maxBytes body stream = .ok result ↔
      (∀ a ∈ stream, a.isReady = true) ∧ (body ++ delivered stream).length ≤ maxBytes ∧
        result = body ++ delivered stream := by
  induction stream generalizing body with
  | nil => simp [collect, delivered, hbody, @eq_comm _ body]
  | cons a rest ih =>
    cases a with
    | ready chunk =>
      simp only [collect, Await.get]
      split_ifs with hfits
      · rw [ih (by rwa [List.length_append])]
        simp [delivered, Await.isReady]
      · simp only [delivered, List.length_append, false_iff]
        intro h
        omega
    | _ => simp [collect, Await.get, Await.isReady]

/-- **The size cap.** It triggers exactly if more than `maxBytes` bytes arrive, whatever the chunks. -/
theorem collect_tooLarge {maxBytes : ℕ} {body : Bytes} {stream : List (Await Bytes)} (hbody : body.length ≤ maxBytes) :
    collect maxBytes body stream = .error (.failed (tooLarge maxBytes)) ↔
      maxBytes < (body ++ delivered stream).length := by
  induction stream generalizing body with
  | nil => simp [collect, delivered, hbody]
  | cons a rest ih =>
    cases a with
    | ready chunk =>
      simp only [collect, Await.get]
      split_ifs with hfits
      · rw [ih (by rwa [List.length_append])]
        simp [delivered]
      · simp only [delivered, List.length_append, true_iff]
        omega
    | _ => simp [collect, Await.get, delivered, tooLarge, hbody]

end NotifyAgent.ImageCache
