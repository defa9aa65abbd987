/-
Refresh-token rotation: any number of `AadTokenProvider::access_token` calls over one refresh-token cell. `fetch_auth`
runs each call on a task of its own, so a call goes on when whoever asked for the token is gone; there is no step that
cancels one. The mutex is held for one read or one write of the cell, never across the exchange with the endpoint.

The endpoint answers as it likes; `issued` records the refresh tokens it gave out, in order, and `stored` the calls that
wrote the cell, in order.

- `step_cases`: what one step can do;
- `Inv`, `inv_run`: a call that was issued a token holds it until it is finished, and the cell has the token of the
  last call that stored one;
- `cell_step`: only a call that then returns its access token changes the cell, and no step empties it.
-/
import Mathlib.Tactic
import NotifyAgent.Lib.Machine
import NotifyAgent.Core.Text

namespace NotifyAgent.RefreshToken

open NotifyAgent.Text
open NotifyAgent.Lib.Machine

/-! ## Model -/

/-- `AadTokenProvider`, but for the cell and the HTTP client -/
structure AadTokenProvider where
  clientId : Str
  tenant : Str
  scope : Str
  authorityBase : Str

structure Request where
  url : Str
  form : List (Str × Str)

/-- the `refresh_token` grant -/
def tokenRequest (P : AadTokenProvider) (refreshToken : Str) : Request where
  url := P.authorityBase ++ ['/'] ++ P.tenant ++ "/oauth2/v2.0/token".toList
  form := [("grant_type".toList, "refresh_token".toList), ("client_id".toList, P.clientId),
    ("refresh_token".toList, refreshToken), ("scope".toList, P.scope)]

structure RefreshTokenResponse where
  accessToken : Str
  refreshToken : Option Str

inductive Answer where
  | error
  | tokens (response : RefreshTokenResponse)

inductive Failure where
  | context (text : Str)
  /-- the request, its status or its body -/
  | http

def noRefreshToken : Failure :=
  .context ("no AAD refresh token available; device-code sign-in must complete " ++
    "before the NATS auth callback runs").toList

/-- where a call of `access_token` is -/
inductive Phase where
  | spawned
  | loaded (refreshToken : Str)
  | waiting (request : Request)
  /-- the endpoint has answered, and the answer is on its way -/
  | answered (answer : Answer)
  /-- about to write the cell -/
  | rotating (response : RefreshTokenResponse) (rotated : Str)
  | done (result : Except Failure Str)

structure St where
  cell : Option Str
  calls : List Phase
  /-- ghost: the refresh tokens the endpoint issued, each with the call it answered -/
  issued : List (ℕ × Str)
  /-- ghost -/
  stored : List ℕ

def St.init (cell : Option Str) : St := ⟨cell, [], [], []⟩

inductive Op where
  | spawn
  | read (c : ℕ)
  | request (c : ℕ)
  | answer (c : ℕ) (answer : Answer)
  | receive (c : ℕ)
  | write (c : ℕ)
  /-- the exchange breaks off, or runs into the client's timeout -/
  | fail (c : ℕ)

def Answer.fresh : Answer → Option Str
  | .error => none
  | .tokens response => response.refreshToken

def goto (s : St) (c : ℕ) (p : Phase) : St := { s with calls := s.calls.set c p }

/-- what a call does with the answer -/
def received : Answer → Phase
  | .error => .done (.error .http)
  | .tokens response =>
    match response.refreshToken with
    | none => .done (.ok response.accessToken)
    | some rotated => .rotating response rotated

def step (P : AadTokenProvider) (s : St) : Op → St
  | .spawn => { s with calls := s.calls ++ [.spawned] }
  | .read c =>
    match s.calls[c]? with
    | some .spawned => goto s c (s.cell.elim (.done (.error noRefreshToken)) .loaded)
    | _ => s
  | .request c =>
    match s.calls[c]? with
    | some (.loaded refreshToken) => goto s c (.waiting (tokenRequest P refreshToken))
    | _ => s
  | .answer c a =>
    match s.calls[c]? with
    | some (.waiting _) => { goto s c (.answered a) with issued := s.issued ++ (a.fresh.map (Prod.mk c)).toList }
    | _ => s
  | .receive c =>
    match s.calls[c]? with
    | some (.answered a) => goto s c (received a)
    | _ => s
  | .write c =>
    match s.calls[c]? with
    | some (.rotating response rotated) =>
      { goto s c (.done (.ok response.accessToken)) with cell := some rotated, stored := s.stored ++ [c] }
    | _ => s
  | .fail c =>
    match s.calls[c]? with
    | some (.loaded _) | some (.waiting _) | some (.answered _) => goto s c (.done (.error .http))
    | _ => s

/-! ## Calls -/

def Phase.finished : Phase → Bool
  | .done _ => true
  | _ => false

/-- the token that a call was issued and has not stored -/
def Phase.fresh : Phase → Option Str
  | .answered a => a.fresh
  | .rotating _ rotated => some rotated
  | _ => none

/-- call `c` has returned or failed -/
def Finished (s : St) (c : ℕ) : Prop := ∃ p, s.calls[c]? = some p ∧ p.finished = true

instance (s : St) (c : ℕ) : Decidable (Finished s c) :=
  inferInstanceAs (Decidable (∃ p ∈ s.calls[c]?, p.finished = true))

/-- the calls that were issued a token, in the order of the tokens -/
def St.issuers (s : St) : List ℕ := s.issued.map Prod.fst

theorem finished_fresh {p : Phase} (h : p.finished = true) : p.fresh = none := by
  cases p with
  | done r => rfl
  | _ => cases h

theorem received_fresh (a : Answer) : (received a).fresh = a.fresh := by
  cases a with
  | error => rfl
  | tokens r => cases hr : r.refreshToken <;> simp [received, hr, Phase.fresh, Answer.fresh]

/-- what one step can do: nothing, spawn a call, take a call on with the token it holds, have a token issued, store a
token, or break an exchange off -/
inductive Moves (s : St) : Op → St → Prop where
  | idle (o : Op) : Moves s o s
  | spawn : Moves s .spawn { s with calls := s.calls ++ [.spawned] }
  | on (o : Op) {c : ℕ} {p q : Phase} (hp : s.calls[c]? = some p) (hlive : p.finished = false)
      (hfresh : q.fresh = p.fresh) : Moves s o (goto s c q)
  | issue {c : ℕ} {r : Request} {a : Answer} {t : Str} (hp : s.calls[c]? = some (.waiting r)) (ht : a.fresh = some t) :
      Moves s (.answer c a) { goto s c (.answered a) with issued := s.issued ++ [(c, t)] }
  | store {c : ℕ} {r : RefreshTokenResponse} {t : Str} (hp : s.calls[c]? = some (.rotating r t)) :
      Moves s (.write c) { goto s c (.done (.ok r.accessToken)) with cell := some t, stored := s.stored ++ [c] }
  | lose {c : ℕ} {a : Answer} {t : Str} (hp : s.calls[c]? = some (.answered a)) (ht : a.fresh = some t) :
      Moves s (.fail c) (goto s c (.done (.error .http)))

theorem step_cases (P : AadTokenProvider) (s : St) (o : Op) : Moves s o (step P s o) := by
  cases o with
  | spawn => exact .spawn
  | read c =>
    simp only [step]
    split
    · rename_i hp
      apply Moves.on _ hp rfl
      cases s.cell <;> rfl
    · exact .idle _
  | request c =>
    simp only [step]
    split
    · rename_i hp
      exact .on _ hp rfl rfl
    · exact .idle _
  | answer c a =>
    simp only [step]
    split
    · rename_i hp
      cases ha : a.fresh with
      | none =>
        have hsame : { goto s c (.answered a) with issued := s.issued ++ [] } = goto s c (.answered a) := by
          rw [List.append_nil]; rfl
        simp only [Option.map_none, Option.toList_none, hsame]
        exact .on _ hp rfl ha
      | some t => exact .issue hp ha
    · exact .idle _
  | receive c =>
    simp only [step]
    split
    · rename_i a hp
      exact .on _ hp rfl (received_fresh a)
    · exact .idle _
  | write c =>
    simp only [step]
    split
    · rename_i hp
      exact .store hp
    · exact .idle _
  | fail c =>
    simp only [step]
    split
    · rename_i hp
      exact .on _ hp rfl rfl
    · rename_i hp
      exact .on _ hp rfl rfl
    · rename_i a hp
      cases ha : a.fresh with
      | none => exact .on _ hp rfl ha.symm
      | some t => exact .lose hp ha
    · exact .idle _

theorem goto_calls {s : St} {c d : ℕ} {p q : Phase} (hp : s.calls[c]? = some p) :
    (goto s c q).calls[d]? = if d = c then some q else s.calls[d]? := by
  obtain ⟨hlt, -⟩ := List.getElem?_eq_some_iff.1 hp
  unfold goto
  split_ifs with hd
  · rw [hd, List.getElem?_set_self hlt]
  · rw [List.getElem?_set_ne (fun h => hd h.symm)]

theorem spawn_old {calls : List Phase} {c : ℕ} {p : Phase} (hp : calls[c]? = some p) :
    (calls ++ [.spawned])[c]? = some p := by
  obtain ⟨hlt, -⟩ := List.getElem?_eq_some_iff.1 hp
  exact (List.getElem?_append_left hlt).trans hp

theorem spawn_calls {calls : List Phase} {c : ℕ} {p : Phase} (hp : (calls ++ [.spawned])[c]? = some p) :
    calls[c]? = some p ∨ p = .spawned := by
  by_cases hlt : c < calls.length
  · rw [List.getElem?_append_left hlt] at hp
    exact Or.inl hp
  · rw [List.getElem?_append_right (by omega), List.getElem?_singleton] at hp
    split_ifs at hp
    exact Or.inr (Option.some.inj hp).symm

/-- **A finished call stays as it is.** -/
theorem done_step (P : AadTokenProvider) {s : St} {o : Op} {c : ℕ} {p : Phase} (hc : s.calls[c]? = some p)
    (hp : p.finished = true) : (step P s o).calls[c]? = some p := by
  have hother : ∀ {d : ℕ} {p' q : Phase}, s.calls[d]? = some p' → p'.finished = false →
      (goto s d q).calls[c]? = some p := by
    intro d p' q hd hlive
    rw [goto_calls hd, if_neg, hc]
    intro hcd
    rw [← hcd, hc, Option.some.injEq] at hd
    rw [← hd, hp] at hlive
    cases hlive
  have hmoves := step_cases P s o
  generalize step P s o = s' at hmoves ⊢
  cases hmoves with
  | idle => exact hc
  | spawn => exact spawn_old hc
  | on _ hd hlive => exact hother hd hlive
  | issue hd => exact hother hd rfl
  | store hd => exact hother hd rfl
  | lose hd => exact hother hd rfl

theorem done_run (P : AadTokenProvider) {s : St} {c : ℕ} {p : Phase} (hc : s.calls[c]? = some p)
    (hp : p.finished = true) (ops : List Op) : (run (step P) s ops).calls[c]? = some p :=
  run_inv (step P) (I := fun s => s.calls[c]? = some p) (fun _ _ h => done_step P h hp) hc ops

/-- **Who changes the cell.** No step empties the cell, and one that changes it is the write of a call that thereby
returns its access token. -/
theorem cell_step (P : AadTokenProvider) (s : St) (o : Op) :
    (s.cell.isSome → (step P s o).cell.isSome) ∧
      ((step P s o).cell ≠ s.cell → ∃ c token, o = .write c ∧ (step P s o).calls[c]? = some (.done (.ok token))) := by
  have hmoves := step_cases P s o
  generalize step P s o = s' at hmoves ⊢
  cases hmoves with
  | @store c r t hd =>
    refine ⟨fun _ => rfl, fun _ => ⟨c, r.accessToken, rfl, ?_⟩⟩
    exact (goto_calls hd).trans (if_pos rfl)
  | _ => exact ⟨id, fun h => absurd rfl h⟩

/-! ## Invariant -/

/-- what holds in every reachable state, `cell` being what the cell held at the start -/
structure Inv (cell : Option Str) (s : St) : Prop where
  once : s.issuers.Nodup
  /-- a token is with its call until the call is finished -/
  held : ∀ c t, (c, t) ∈ s.issued → ∃ p, s.calls[c]? = some p ∧ (p.fresh = some t ∨ p.finished = true)
  issued : ∀ c p t, s.calls[c]? = some p → p.fresh = some t → (c, t) ∈ s.issued
  finished : ∀ c ∈ s.stored, Finished s c
  /-- the cell has what the last call to store a token was issued -/
  source : (s.stored.getLast? = none ∧ s.cell = cell) ∨
    ∃ h t, s.stored.getLast? = some h ∧ (h, t) ∈ s.issued ∧ s.cell = some t

theorem inv_init (cell : Option Str) : Inv cell (St.init cell) where
  once := List.nodup_nil
  held := by intro c t h; cases h
  issued := by intro c p t h; cases h
  finished := by intro c h; cases h
  source := Or.inl ⟨rfl, rfl⟩

theorem goto_finished {s : St} {c d : ℕ} {p q : Phase} (hp : s.calls[c]? = some p) (hlive : p.finished = false) :
    Finished (goto s c q) d ↔ Finished s d ∨ (d = c ∧ q.finished = true) := by
  unfold Finished
  rw [goto_calls hp]
  split_ifs with hd
  · subst hd
    simp [hp, hlive]
  · simp [hd]

/-- the part of the invariant about tokens held, when call `c` goes on -/
theorem held_goto {s : St} {c : ℕ} {p q : Phase}
    (h : ∀ c t, (c, t) ∈ s.issued → ∃ p, s.calls[c]? = some p ∧ (p.fresh = some t ∨ p.finished = true))
    (hp : s.calls[c]? = some p) (hlive : p.finished = false) (hq : q.fresh = p.fresh ∨ q.finished = true) :
    ∀ d t, (d, t) ∈ s.issued → ∃ p, (goto s c q).calls[d]? = some p ∧ (p.fresh = some t ∨ p.finished = true) := by
  intro d t hd
  obtain ⟨p', hp', hor⟩ := h d t hd
  rw [goto_calls hp]
  split_ifs with hdc
  · rw [hdc, hp, Option.some.injEq] at hp'
    subst hp'
    refine ⟨q, rfl, ?_⟩
    rcases hq with hq | hq
    · exact Or.inl (hq.trans (hor.resolve_right (by rw [hlive]; decide)))
    · exact Or.inr hq
  · exact ⟨p', hp', hor⟩

/-- the part about tokens in the log, when call `c` goes on and the log has become `log` -/
theorem issued_goto {s : St} {c : ℕ} {p q : Phase} {log : List (ℕ × Str)} (hp : s.calls[c]? = some p)
    (hold : ∀ d p' t, s.calls[d]? = some p' → p'.fresh = some t → (d, t) ∈ log)
    (hq : ∀ t, q.fresh = some t → (c, t) ∈ log) :
    ∀ d p' t, (goto s c q).calls[d]? = some p' → p'.fresh = some t → (d, t) ∈ log := by
  intro d p' t hd ht
  rw [goto_calls hp] at hd
  split_ifs at hd with hdc
  · rw [← Option.some.inj hd] at ht
    rw [hdc]
    exact hq t ht
  · exact hold d p' t hd ht

/-- one step keeps the invariant -/
theorem inv_spawn {cell : Option Str} {s : St} (h : Inv cell s) :
    Inv cell { s with calls := s.calls ++ [.spawned] } := by
  refine { h with held := ?_, issued := ?_, finished := ?_ }
  · intro c t hc
    obtain ⟨p, hp, hor⟩ := h.held c t hc
    exact ⟨p, spawn_old hp, hor⟩
  · intro c p t hp ht
    rcases spawn_calls hp with hp | rfl
    · exact h.issued c p t hp ht
    · -- the new call holds no token
      cases ht
  · intro c hc
    obtain ⟨p, hp, hf⟩ := h.finished c hc
    exact ⟨p, spawn_old hp, hf⟩

/-- a call that waits for its answer has been issued nothing yet -/
theorem waiting_not_issuer {cell : Option Str} {s : St} (h : Inv cell s) {c : ℕ} {r : Request}
    (hp : s.calls[c]? = some (.waiting r)) : c ∉ s.issuers := by
  intro hmem
  obtain ⟨⟨c', t⟩, hct, rfl⟩ := List.mem_map.1 hmem
  obtain ⟨p, hp', hor⟩ := h.held _ _ hct
  rw [hp, Option.some.injEq] at hp'
  rw [← hp'] at hor
  rcases hor with hor | hor <;> cases hor

theorem inv_issue {cell : Option Str} {s : St} (h : Inv cell s) {c : ℕ} {r : Request} {a : Answer} {t : Str}
    (hp : s.calls[c]? = some (.waiting r)) (ht : a.fresh = some t)
    (hfin : ∀ d ∈ s.stored, Finished (goto s c (.answered a)) d) :
    Inv cell { goto s c (.answered a) with issued := s.issued ++ [(c, t)] } := by
  have hnew := waiting_not_issuer h hp
  refine ⟨?_, ?_, ?_, hfin, ?_⟩
  · simp only [St.issuers, List.map_append, List.map_singleton]
    refine List.nodup_append.2 ⟨h.once, List.nodup_singleton _, ?_⟩
    intro d hd e he heq
    rw [List.mem_singleton.1 he] at heq
    exact hnew (heq ▸ hd)
  · intro d t' hd
    rcases List.mem_append.1 hd with hd | hd
    · have hne : d ≠ c := by
        intro heq
        exact hnew (heq ▸ List.mem_map_of_mem hd)
      obtain ⟨p, hp', hor⟩ := h.held d t' hd
      exact ⟨p, ((goto_calls hp).trans (if_neg hne)).trans hp', hor⟩
    · obtain ⟨rfl, rfl⟩ := Prod.mk.inj (List.mem_singleton.1 hd)
      exact ⟨_, (goto_calls hp).trans (if_pos rfl), Or.inl ht⟩
  · apply issued_goto hp
    · intro d p' t' hd ht'
      exact List.mem_append_left _ (h.issued d p' t' hd ht')
    · intro t' ht'
      rw [← Option.some.inj (ht.symm.trans ht')]
      exact List.mem_append_right _ List.mem_cons_self
  · rcases h.source with hsrc | ⟨k, t', hlast, hk, hcell⟩
    · exact Or.inl hsrc
    · exact Or.inr ⟨k, t', hlast, List.mem_append_left _ hk, hcell⟩

theorem inv_store {cell : Option Str} {s : St} (h : Inv cell s) {c : ℕ} {r : RefreshTokenResponse} {t : Str}
    (hp : s.calls[c]? = some (.rotating r t))
    (hfin : ∀ d ∈ s.stored, Finished (goto s c (.done (.ok r.accessToken))) d) :
    Inv cell { goto s c (.done (.ok r.accessToken)) with cell := some t, stored := s.stored ++ [c] } := by
  refine ⟨h.once, held_goto h.held hp rfl (Or.inr rfl), ?_, ?_, Or.inr ⟨c, t, List.getLast?_concat, ?_, rfl⟩⟩
  · apply issued_goto hp h.issued
    intro t' ht'
    cases ht'
  · intro d hd
    rcases List.mem_append.1 hd with hd | hd
    · exact hfin d hd
    · exact (goto_finished hp rfl).2 (Or.inr ⟨List.mem_singleton.1 hd, rfl⟩)
  · exact h.issued c _ t hp rfl

theorem inv_step (P : AadTokenProvider) {cell : Option Str} {s : St} (h : Inv cell s) (o : Op) :
    Inv cell (step P s o) := by
  have hfin : ∀ {c : ℕ} {p q : Phase}, s.calls[c]? = some p → p.finished = false →
      ∀ d ∈ s.stored, Finished (goto s c q) d :=
    fun hp hlive d hd => (goto_finished hp hlive).2 (Or.inl (h.finished d hd))
  have hmoves := step_cases P s o
  generalize step P s o = s' at hmoves ⊢
  cases hmoves with
  | idle => exact h
  | spawn => exact inv_spawn h
  | @on _ c p q hp hlive hfresh =>
    refine { h with held := held_goto h.held hp hlive (Or.inl hfresh), issued := ?_, finished := hfin hp hlive }
    apply issued_goto hp h.issued
    intro t ht
    exact h.issued c p t hp (hfresh ▸ ht)
  | issue hp ht => exact inv_issue h hp ht (hfin hp rfl)
  | store hp => exact inv_store h hp (hfin hp rfl)
  | @lose c a t hp ht =>
    refine { h with held := held_goto h.held hp rfl (Or.inr rfl), issued := ?_, finished := hfin hp rfl }
    apply issued_goto hp h.issued
    intro t' ht'
    cases ht'

theorem inv_run (P : AadTokenProvider) (cell : Option Str) (ops : List Op) :
    Inv cell (run (step P) (.init cell) ops) :=
  run_inv (step P) (I := Inv cell) (fun _ o h => inv_step P h o) (inv_init cell) ops

end NotifyAgent.RefreshToken
