/-
Latest-value replacement over a stream. Items carry a key in a linear order, and some of them replace: a replacing
item that is at least as new as everything held clears what is held and stays alone; an older one is ignored. Plain
items are appended. `absorb` takes one item, `absorbAll` a stream.

- `absorb_upper` / `absorbAll_upper`: what is held has the same upper bounds as everything absorbed, so a replacing
  item wins exactly when it is a running maximum of the stream;
- `absorbAll_record`: after a replacing running maximum that no later replacing item beats, exactly that item and the
  later plain items are held;
- `absorbAll_not_record`: a replacing item that is not a running maximum is not held;
- `absorbAll_plain`: a stream without replacing items is held as it is;
- `absorbAll_perm_iff_inOrder`: with distinct keys, an arrival order holds the same items as key order exactly when no
  plain item is on the wrong side of the newest replacing one (`InOrder`);
- `absorb_shape`: if a replacing item is held, it is the oldest in arrival order and everything else held is plain.
-/
import Mathlib.Tactic

namespace NotifyAgent.Lib.Replacement

variable {α κ : Type*} [LinearOrder κ] (key : α → κ) (replaces : α → Bool)

def absorb (held : List α) (x : α) : List α :=
  if replaces x then (if ∀ y ∈ held, key y ≤ key x then [x] else held) else held ++ [x]

def absorbAll (l : List α) : List α := l.foldl (absorb key replaces) []

theorem absorbAll_append (a b : List α) :
    absorbAll key replaces (a ++ b) = b.foldl (absorb key replaces) (absorbAll key replaces a) := by
  simp [absorbAll, List.foldl_append]

theorem absorbAll_snoc (a : List α) (x : α) :
    absorbAll key replaces (a ++ [x]) = absorb key replaces (absorbAll key replaces a) x := by
  simp [absorbAll_append]

/-! ## What is held -/

theorem absorb_subset (held : List α) (x : α) : ∀ y ∈ absorb key replaces held x, y ∈ held ∨ y = x := by
  intro y hy
  unfold absorb at hy
  split_ifs at hy
  · exact Or.inr (List.mem_singleton.1 hy)
  · exact Or.inl hy
  · simpa using hy

theorem foldl_absorb_subset (held l : List α) :
    ∀ y ∈ l.foldl (absorb key replaces) held, y ∈ held ∨ y ∈ l := by
  induction l generalizing held with
  | nil => intro y hy; exact Or.inl hy
  | cons x l ih =>
    intro y hy
    rcases ih _ y hy with hy | hy
    · rcases absorb_subset key replaces held x y hy with hy | rfl
      · exact Or.inl hy
      · exact Or.inr List.mem_cons_self
    · exact Or.inr (List.mem_cons_of_mem _ hy)

theorem absorb_ne_nil (held : List α) (x : α) (h : held ≠ []) : absorb key replaces held x ≠ [] := by
  unfold absorb
  split_ifs <;> simp [h]

/-- absorbing an item keeps every upper bound, and the item's key becomes bounded by it -/
theorem absorb_upper (held : List α) (x : α) (b : κ) :
    (∀ y ∈ absorb key replaces held x, key y ≤ b) ↔ (∀ y ∈ held, key y ≤ b) ∧ key x ≤ b := by
  unfold absorb
  split_ifs with hr hmax
  · simp only [List.mem_singleton, forall_eq]
    exact ⟨fun hx => ⟨fun y hy => (hmax y hy).trans hx, hx⟩, fun h => h.2⟩
  · push Not at hmax
    obtain ⟨z, hz, hlt⟩ := hmax
    exact ⟨fun h => ⟨h, hlt.le.trans (h z hz)⟩, fun h => h.1⟩
  · simp only [List.mem_append, List.mem_singleton, or_imp, forall_and, forall_eq]

/-- **The bucket keeps the running maximum.** -/
theorem absorbAll_upper (l : List α) (b : κ) :
    (∀ y ∈ absorbAll key replaces l, key y ≤ b) ↔ ∀ y ∈ l, key y ≤ b := by
  induction l using List.reverseRecOn with
  | nil => simp [absorbAll]
  | append_singleton l x ih =>
    rw [absorbAll_snoc, absorb_upper, ih]
    simp only [List.mem_append, List.mem_singleton, or_imp, forall_and, forall_eq]

/-! ## Which items survive -/

/-- replacing items that are older than something held leave only the plain items to be appended -/
theorem foldl_absorb_older (held l : List α)
    (h : ∀ x ∈ l, replaces x = true → ∃ y ∈ held, key x < key y) :
    l.foldl (absorb key replaces) held = held ++ l.filter (fun x => !replaces x) := by
  induction l generalizing held with
  | nil => simp
  | cons x l ih =>
    have hl : ∀ z ∈ l, replaces z = true → ∃ y ∈ held, key z < key y :=
      fun z hz => h z (List.mem_cons_of_mem _ hz)
    cases hx : replaces x with
    | true =>
      obtain ⟨y, hy, hlt⟩ := h x List.mem_cons_self hx
      have hkeep : absorb key replaces held x = held := by
        unfold absorb
        rw [if_pos hx, if_neg fun hmax => absurd (hmax y hy) (not_le.2 hlt)]
      rw [List.foldl_cons, hkeep, ih held hl]
      simp [hx]
    | false =>
      have happ : absorb key replaces held x = held ++ [x] := by
        unfold absorb
        rw [hx]; rfl
      rw [List.foldl_cons, happ, ih (held ++ [x]) fun z hz hrz => ?_]
      · simp [hx]
      · obtain ⟨y, hy, hlt⟩ := hl z hz hrz
        exact ⟨y, List.mem_append_left _ hy, hlt⟩

theorem absorbAll_plain {l : List α} (h : ∀ x ∈ l, replaces x = false) : absorbAll key replaces l = l := by
  rw [absorbAll, foldl_absorb_older key replaces [] l fun x hx hr => by simp [h x hx] at hr]
  simpa using fun x hx => h x hx

/-- **A winning item.** A replacing running maximum that no later replacing item reaches stays, with the plain items
after it. -/
theorem absorbAll_record {pre post : List α} {r : α} (hr : replaces r = true) (hrec : ∀ y ∈ pre, key y ≤ key r)
    (hlater : ∀ x ∈ post, replaces x = true → key x < key r) :
    absorbAll key replaces (pre ++ r :: post) = r :: post.filter (fun x => !replaces x) := by
  have hwin : absorb key replaces (absorbAll key replaces pre) r = [r] := by
    unfold absorb
    rw [if_pos hr, if_pos ((absorbAll_upper key replaces pre (key r)).2 hrec)]
  rw [absorbAll_append, List.foldl_cons, hwin,
    foldl_absorb_older key replaces [r] post fun x hx hx' => ⟨r, List.mem_singleton_self r, hlater x hx hx'⟩]
  rfl

/-- **A losing item.** A replacing item that comes after a newer one is not held, if it occurs once. -/
theorem absorbAll_not_record {pre post : List α} {r : α} (hr : replaces r = true) (hrec : ∃ y ∈ pre, key r < key y)
    (hpre : r ∉ pre) (hpost : r ∉ post) : r ∉ absorbAll key replaces (pre ++ r :: post) := by
  have hlose : absorb key replaces (absorbAll key replaces pre) r = absorbAll key replaces pre := by
    unfold absorb
    rw [if_pos hr, if_neg]
    intro hmax
    obtain ⟨y, hy, hlt⟩ := hrec
    exact absurd ((absorbAll_upper key replaces pre (key r)).1 hmax y hy) (not_le.2 hlt)
  rw [absorbAll_append, List.foldl_cons, hlose]
  intro hmem
  rcases foldl_absorb_subset key replaces _ post r hmem with hm | hm
  · rcases foldl_absorb_subset key replaces [] pre r hm with hm | hm
    · cases hm
    · exact hpre hm
  · exact hpost hm

/-- plain items are held at most where a replacing item is held first -/
def Shape (held : List α) : Prop := ∀ x ∈ held.tail, replaces x = false

/-- **Shape of what is held.** A replacing item can only be the first one held; everything after it is plain. -/
theorem absorb_shape {held : List α} (x : α) (hne : held ≠ []) (h : Shape replaces held) :
    Shape replaces (absorb key replaces held x) := by
  unfold absorb
  split_ifs with hr hmax
  · simp [Shape]
  · exact h
  · obtain ⟨a, l, rfl⟩ := List.exists_cons_of_ne_nil hne
    intro y hy
    simp only [List.cons_append, List.tail_cons, List.mem_append, List.mem_singleton] at hy
    rcases hy with hy | rfl
    · exact h y hy
    · simpa using hr

/-! ## Arrival order against key order -/

/-- every plain item arrives on the side of the newest replacing item on which its key is -/
def InOrder (l : List α) : Prop :=
  ∀ pre r post, l = pre ++ r :: post → replaces r = true → (∀ x ∈ l, replaces x = true → key x ≤ key r) →
    (∀ p ∈ pre, replaces p = false → key p < key r) ∧ ∀ p ∈ post, replaces p = false → key r < key p

/-- the newest replacing item, if any item replaces -/
theorem exists_newest (l : List α) :
    (∀ x ∈ l, replaces x = false) ∨
      ∃ r ∈ l, replaces r = true ∧ ∀ x ∈ l, replaces x = true → key x ≤ key r := by
  induction l with
  | nil => left; simp
  | cons a l ih =>
    cases ha : replaces a with
    | false =>
      rcases ih with h | ⟨r, hr, hrr, hmax⟩
      · left
        intro x hx
        rcases List.mem_cons.1 hx with rfl | hx
        · exact ha
        · exact h x hx
      · right
        refine ⟨r, List.mem_cons_of_mem _ hr, hrr, fun x hx hxr => ?_⟩
        rcases List.mem_cons.1 hx with rfl | hx
        · rw [ha] at hxr; cases hxr
        · exact hmax x hx hxr
    | true =>
      right
      rcases ih with h | ⟨r, hr, hrr, hmax⟩
      · refine ⟨a, List.mem_cons_self, ha, fun x hx hxr => ?_⟩
        rcases List.mem_cons.1 hx with rfl | hx
        · exact le_rfl
        · rw [h x hx] at hxr; cases hxr
      · rcases le_total (key a) (key r) with hle | hle
        · refine ⟨r, List.mem_cons_of_mem _ hr, hrr, fun x hx hxr => ?_⟩
          rcases List.mem_cons.1 hx with rfl | hx
          · exact hle
          · exact hmax x hx hxr
        · refine ⟨a, List.mem_cons_self, ha, fun x hx hxr => ?_⟩
          rcases List.mem_cons.1 hx with rfl | hx
          · exact le_rfl
          · exact (hmax x hx hxr).trans hle

omit [LinearOrder κ] in
/-- an item of a list with distinct keys shares its key with no item before or after it -/
theorem ne_of_split {pre post : List α} {r p : α} (hd : ((pre ++ r :: post).map key).Nodup) (hp : p ∈ pre ∨ p ∈ post) :
    key p ≠ key r := by
  intro heq
  simp only [List.map_append, List.map_cons, List.nodup_append, List.nodup_cons, List.mem_map, List.mem_cons] at hd
  rcases hp with hp | hp
  · exact hd.2.2 (key p) ⟨p, hp, rfl⟩ (key r) (Or.inl rfl) heq
  · exact hd.2.1.1 ⟨p, hp, heq⟩

section
variable {pre post : List α} {r : α} (hd : ((pre ++ r :: post).map key).Nodup)
  (hmax : ∀ x ∈ pre ++ r :: post, replaces x = true → key x ≤ key r)
include hd hmax

/-- replacing items other than the newest are strictly older -/
theorem older_of_replaces {x : α} (hx : x ∈ pre ∨ x ∈ post) (hxr : replaces x = true) : key x < key r :=
  lt_of_le_of_ne (hmax x (by rcases hx with h | h <;> simp [h]) hxr) (ne_of_split key hd hx)

/-- when plain items keep to their side of the newest replacing item, what is held is that item and the plain items
with larger keys -/
theorem absorbAll_of_sides (hr : replaces r = true) (hpre : ∀ p ∈ pre, replaces p = false → key p < key r)
    (hpost : ∀ p ∈ post, replaces p = false → key r < key p) :
    absorbAll key replaces (pre ++ r :: post) =
      r :: (pre ++ r :: post).filter (fun p => !replaces p && decide (key r < key p)) := by
  have hprelt : ∀ p ∈ pre, key p < key r := fun p hp => by
    cases hpr : replaces p with
    | true => exact older_of_replaces key replaces hd hmax (Or.inl hp) hpr
    | false => exact hpre p hp hpr
  have hnone : pre.filter (fun p => !replaces p && decide (key r < key p)) = [] :=
    List.filter_eq_nil_iff.2 fun p hp => by simp [(hprelt p hp).le]
  have hsome : post.filter (fun p => !replaces p && decide (key r < key p)) = post.filter (fun p => !replaces p) :=
    List.filter_congr fun p hp => by
      cases hpr : replaces p with
      | true => simp
      | false => simpa using hpost p hp hpr
  rw [absorbAll_record key replaces hr (fun y hy => (hprelt y hy).le)
    fun x hx hxr => older_of_replaces key replaces hd hmax (Or.inr hx) hxr]
  rw [List.filter_append, hnone, List.filter_cons_of_neg (by simp), hsome, List.nil_append]

end

/-- a sorted list is in order, so its newest replacing item is held with the plain items of larger keys -/
theorem absorbAll_sorted {sorted : List α} {r : α} (hd : (sorted.map key).Nodup)
    (hsorted : sorted.Pairwise (fun a b => key a ≤ key b)) (hmem : r ∈ sorted) (hr : replaces r = true)
    (hmax : ∀ x ∈ sorted, replaces x = true → key x ≤ key r) :
    absorbAll key replaces sorted = r :: sorted.filter (fun p => !replaces p && decide (key r < key p)) := by
  obtain ⟨pre, post, rfl⟩ := List.append_of_mem hmem
  rw [List.pairwise_append, List.pairwise_cons] at hsorted
  refine absorbAll_of_sides key replaces hd hmax hr (fun p hp _ => ?_) (fun p hp _ => ?_)
  · exact lt_of_le_of_ne (hsorted.2.2 p hp r List.mem_cons_self) (ne_of_split key hd (Or.inl hp))
  · exact lt_of_le_of_ne (hsorted.2.1.1 p hp) (ne_of_split key hd (Or.inr hp)).symm

/-- **Arrival order against key order.** For distinct keys, absorbing a list and absorbing it sorted by key hold the
same items exactly when the list is `InOrder`. -/
theorem absorbAll_perm_iff_inOrder {l sorted : List α} (hd : (l.map key).Nodup) (hperm : sorted.Perm l)
    (hsorted : sorted.Pairwise (fun a b => key a ≤ key b)) :
    (absorbAll key replaces l).Perm (absorbAll key replaces sorted) ↔ InOrder key replaces l := by
  have hds : (sorted.map key).Nodup := (hperm.map key).nodup_iff.2 hd
  constructor
  · intro h pre r post hl hr hmax
    subst hl
    have hnd : r ∉ pre ∧ r ∉ post :=
      ⟨fun hp => ne_of_split key hd (Or.inl hp) rfl, fun hp => ne_of_split key hd (Or.inr hp) rfl⟩
    have hsort := absorbAll_sorted key replaces hds hsorted (hperm.symm.subset (by simp)) hr
      fun x hx => hmax x (hperm.subset hx)
    -- the newest replacing item is held after the sorted run, so it also won in the arrival order
    have hheld : r ∈ absorbAll key replaces (pre ++ r :: post) :=
      h.symm.subset (by rw [hsort]; exact List.mem_cons_self)
    have hrec : ∀ y ∈ pre, key y ≤ key r := by
      by_contra hne
      push Not at hne
      exact absorbAll_not_record key replaces hr hne hnd.1 hnd.2 hheld
    have hthis : absorbAll key replaces (pre ++ r :: post) = r :: post.filter (fun x => !replaces x) :=
      absorbAll_record key replaces hr hrec fun x hx hxr => older_of_replaces key replaces hd hmax (Or.inr hx) hxr
    refine ⟨fun p hp _ => lt_of_le_of_ne (hrec p hp) (ne_of_split key hd (Or.inl hp)), fun p hp hpr => ?_⟩
    have hmem : p ∈ r :: sorted.filter (fun p => !replaces p && decide (key r < key p)) := by
      rw [← hsort]
      exact h.subset (by rw [hthis]; simp [hp, hpr])
    rw [List.mem_cons, List.mem_filter] at hmem
    rcases hmem with rfl | ⟨_, hp'⟩
    · exact absurd hp hnd.2
    · simpa [hpr] using hp'
  · intro h
    rcases exists_newest key replaces l with hplain | ⟨r, hrl, hr, hmax⟩
    · rw [absorbAll_plain key replaces hplain,
        absorbAll_plain key replaces fun x hx => hplain x (hperm.subset hx)]
      exact hperm.symm
    · obtain ⟨pre, post, rfl⟩ := List.append_of_mem hrl
      obtain ⟨hpre, hpost⟩ := h pre r post rfl hr hmax
      rw [absorbAll_of_sides key replaces hd hmax hr hpre hpost,
        absorbAll_sorted key replaces hds hsorted (hperm.symm.subset hrl) hr fun x hx => hmax x (hperm.subset hx)]
      exact (hperm.symm.filter _).cons r

end NotifyAgent.Lib.Replacement
