import Mathlib.Data.List.Sort

/-!
# Sorting by a key, and searching what is sorted

`desc key` sorts with the greatest key first.  When distinct elements have distinct keys there is
only one such order (`desc_eq_of_perm`), so a list however assembled is the sorted one as soon as
it has the same elements and its keys decrease.  `Unstable` is a sort of which nothing is known for
elements of one key, `search` is binary search over an index range.
-/

namespace Sorting

variable {α κ : Type} [LinearOrder κ] (key : α → κ)

/-- The list in decreasing order of key. -/
def desc (l : List α) : List α := l.mergeSort fun a b => key b ≤ key a

lemma desc_perm (l : List α) : (desc key l).Perm l := List.mergeSort_perm _ _

lemma desc_trans (a b c : α) (hab : decide (key b ≤ key a) = true)
    (hbc : decide (key c ≤ key b) = true) : decide (key c ≤ key a) = true := by
  rw [decide_eq_true_eq] at hab hbc ⊢
  exact hbc.trans hab

lemma desc_total (a b : α) : (decide (key b ≤ key a) || decide (key a ≤ key b)) = true := by
  rw [Bool.or_eq_true, decide_eq_true_eq, decide_eq_true_eq]
  exact le_total _ _

lemma pairwise_desc (l : List α) : (desc key l).Pairwise fun a b => key b ≤ key a := by
  simpa [desc] using List.pairwise_mergeSort (desc_trans key) (desc_total key) l

/-- **The decreasing order is unique** when the key tells the elements apart. -/
theorem desc_eq_of_perm {l l' : List α} (hperm : l.Perm l')
    (hsorted : l'.Pairwise fun a b => key b ≤ key a)
    (hinj : ∀ a ∈ l, ∀ b ∈ l, key a = key b → a = b) : desc key l = l' := by
  refine List.Perm.eq_of_pairwise ?_ (pairwise_desc key l) hsorted ((desc_perm key l).trans hperm)
  intro a b ha hb hba hab
  exact hinj a ((desc_perm key l).mem_iff.mp ha) b (hperm.mem_iff.mpr hb) (le_antisymm hab hba)

lemma desc_eq_desc {l l' : List α} (hperm : l.Perm l')
    (hinj : ∀ a ∈ l, ∀ b ∈ l, key a = key b → a = b) : desc key l = desc key l' :=
  desc_eq_of_perm key (hperm.trans (desc_perm key l').symm) (pairwise_desc key l') hinj

/-- The element with the greatest key comes first. -/
lemma desc_cons_of_max {a : α} {l l' : List α} (hperm : l.Perm (a :: l'))
    (hmax : ∀ b ∈ l', key b ≤ key a)
    (hinj : ∀ a ∈ l, ∀ b ∈ l, key a = key b → a = b) : desc key l = a :: desc key l' := by
  refine desc_eq_of_perm key (hperm.trans ((desc_perm key l').symm.cons a)) ?_ hinj
  rw [List.pairwise_cons]
  exact ⟨fun b hb => hmax b ((desc_perm key l').mem_iff.mp hb), pairwise_desc key l'⟩

/-- Sorting fewer elements leaves some out. -/
lemma desc_sublist {l l' : List α} (hnodup : l.Nodup) (hsub : l ⊆ l')
    (hinj : ∀ a ∈ l, ∀ b ∈ l, key a = key b → a = b) :
    (desc key l).Sublist (desc key l') := by
  obtain ⟨m, hperm, hm⟩ :=
    (List.subperm_of_subset hnodup hsub).trans (desc_perm key l').symm.subperm
  rw [desc_eq_of_perm key hperm.symm ((pairwise_desc key l').sublist hm) hinj]
  exact hm

/-- In a decreasing list what exceeds a bound is a prefix, and the search for its end may stop at
the first element that does not. -/
lemma takeWhile_eq_filter_of_pairwise {l : List α} (k : κ)
    (h : l.Pairwise fun a b => key b ≤ key a) :
    l.takeWhile (fun a => k ≤ key a) = l.filter fun a => k ≤ key a := by
  induction l with
  | nil => rfl
  | cons a l ih =>
      rw [List.pairwise_cons] at h
      by_cases ha : k ≤ key a
      · simp [ha, ih h.2]
      · have hnone : l.filter (fun a => decide (k ≤ key a)) = [] := by
          rw [List.filter_eq_nil_iff]
          intro b hb hkb
          exact ha ((of_decide_eq_true hkb).trans (h.1 b hb))
        simp [ha, hnone]

/-- Inserting into the beginning of a list and cutting it off again is inserting into the list. -/
lemma take_orderedInsert (r : α → α → Prop) [DecidableRel r] (a : α) (l : List α) (k : ℕ) :
    ((l.take k).orderedInsert r a).take k = (l.orderedInsert r a).take k := by
  induction l generalizing k with
  | nil => simp
  | cons b l ih =>
      cases k with
      | zero => simp
      | succ k =>
          rw [List.take_succ_cons, List.orderedInsert_cons, List.orderedInsert_cons]
          split_ifs
          · have hcut : (b :: l.take k).take k = (b :: l).take k := by
              rw [← List.take_succ_cons, List.take_take, Nat.min_eq_left (Nat.le_succ k)]
            rw [List.take_succ_cons, List.take_succ_cons, hcut]
          · rw [List.take_succ_cons, List.take_succ_cons, ih]

/-! ## Sorts that leave ties open -/

/-- `r` is `l` with the greatest key first.  Elements of one key stand in any order. -/
structure Arranges (l r : List α) : Prop where
  perm : r.Perm l
  ordered : r.Pairwise fun a b => key b ≤ key a

/-- A sort, greatest key first, that need not be stable. -/
structure Unstable where
  sort : List α → List α
  arranges : ∀ l, Arranges key l (sort l)

lemma arranges_desc (l : List α) : Arranges key l (desc key l) :=
  ⟨desc_perm key l, pairwise_desc key l⟩

/-- Insertion sort, which keeps elements of one key in the order they are in. -/
def insertion : Unstable key where
  sort l := l.insertionSort fun a b => key b ≤ key a
  arranges l :=
    have : Std.Total fun a b : α => key b ≤ key a := ⟨fun _ _ => le_total _ _⟩
    have : IsTrans α fun a b => key b ≤ key a := ⟨fun _ _ _ hab hbc => hbc.trans hab⟩
    ⟨List.perm_insertionSort _ l, List.pairwise_insertionSort _ l⟩

/-- Insertion sort of the reversed list, which turns elements of one key around. -/
def insertionReversed : Unstable key where
  sort l := (insertion key).sort l.reverse
  arranges l :=
    have h := (insertion key).arranges l.reverse
    ⟨h.perm.trans l.reverse_perm, h.ordered⟩

variable {key}

/-- Where the key tells the elements apart, insertion sort computes the decreasing order. -/
lemma desc_eq_insertion {l : List α} (hinj : ∀ a ∈ l, ∀ b ∈ l, key a = key b → a = b) :
    desc key l = (insertion key).sort l :=
  have h := (insertion key).arranges l
  desc_eq_of_perm key h.perm.symm h.ordered hinj

/-- Any arrangement of a list is what some sort makes of it. -/
lemma Arranges.exists_sort {l r : List α} (h : Arranges key l r) :
    ∃ by_ : Unstable key, by_.sort l = r := by
  classical
  refine ⟨⟨fun l' => if l' = l then r else desc key l', fun l' => ?_⟩, if_pos rfl⟩
  split_ifs with heq
  · rw [heq]
    exact h
  · exact arranges_desc key l'

lemma Arranges.filter {l r : List α} (h : Arranges key l r) (p : α → Bool) :
    Arranges key (l.filter p) (r.filter p) :=
  ⟨h.perm.filter p, h.ordered.filter p⟩

/-- Two neighbours of one key may change places. -/
lemma Arranges.swap {l u w : List α} {a b : α} (h : Arranges key l (u ++ a :: b :: w))
    (hkey : key a = key b) : Arranges key l (u ++ b :: a :: w) := by
  refine ⟨(List.Perm.append_left u (List.Perm.swap a b w)).trans h.perm, ?_⟩
  have hordered := h.ordered
  rw [List.pairwise_append, List.pairwise_cons, List.pairwise_cons] at hordered ⊢
  obtain ⟨hu, ⟨ha, hb, hw⟩, hcross⟩ := hordered
  refine ⟨hu, ⟨?_, fun c hc => ha c (List.mem_cons_of_mem b hc), hw⟩, ?_⟩
  · intro c hc
    rcases List.mem_cons.mp hc with rfl | hc
    · exact hkey.le
    · exact hb c hc
  · intro c hc d hd
    refine hcross c hc d ?_
    simp only [List.mem_cons] at hd ⊢
    tauto

/-- An arrangement of what `p` selects comes from one of the whole. -/
lemma Arranges.exists_filter {l r : List α} {p : α → Bool} (h : Arranges key (l.filter p) r) :
    ∃ whole, Arranges key l whole ∧ whole.filter p = r := by
  have hsplit : (r ++ l.filter fun a => !p a).Perm l :=
    (h.perm.append_right _).trans (List.filter_append_perm p l)
  have hwhole := arranges_desc key (r ++ l.filter fun a => !p a)
  refine ⟨_, ⟨hwhole.perm.trans hsplit, hwhole.ordered⟩, ?_⟩
  have hp : r.filter p = r := by
    rw [List.filter_eq_self]
    exact fun a ha => List.of_mem_filter (h.perm.mem_iff.mp ha)
  have hrest : (l.filter fun a => !p a).filter p = [] := by
    rw [List.filter_eq_nil_iff]
    intro a ha hpa
    simp [hpa] at ha
  -- the sort is stable, so what is in order stays a sublist of it
  have hsublist : r.Sublist (desc key (r ++ l.filter fun a => !p a)) := by
    refine List.sublist_mergeSort (desc_trans key) (desc_total key) ?_
      (List.sublist_append_left _ _)
    simpa using h.ordered
  have hfilter := hsublist.filter p
  rw [hp] at hfilter
  refine (hfilter.eq_of_length ?_).symm
  rw [(hwhole.perm.filter p).length_eq, List.filter_append, hp, hrest, List.append_nil]

/-! ## Binary search -/

/-- The least index of `[i, j)` at which `f` holds, `j` if there is none, for an `f` that once
true stays true. -/
def search (f : ℕ → Bool) (i j : ℕ) : ℕ :=
  if i < j then
    let h := (i + j) / 2
    if f h then search f i h else search f (h + 1) j
  else i
termination_by j - i

/-- **What binary search finds**: `f` fails below the result and holds from it on. -/
theorem search_spec {f : ℕ → Bool} (hmono : ∀ a b, a ≤ b → f a = true → f b = true) {n : ℕ} :
    ∀ i j, i ≤ j → (∀ k < i, f k = false) → (∀ k, j ≤ k → k < n → f k = true) →
      (∀ k < search f i j, f k = false) ∧ (∀ k, search f i j ≤ k → k < n → f k = true) := by
  intro i j
  induction i, j using search.induct f with
  | case1 i j hlt h hf ih =>
      intro _ hlow _
      rw [search, if_pos hlt]
      simp only [h] at hf
      rw [if_pos hf]
      exact ih (by omega) hlow (fun k hk _ => hmono _ k hk hf)
  | case2 i j hlt h hf ih =>
      intro _ _ hhigh
      rw [search, if_pos hlt]
      simp only [h] at hf
      rw [if_neg hf]
      refine ih (by omega) (fun k hk => ?_) hhigh
      by_contra hk'
      exact hf (hmono k _ (by omega) (by simpa using hk'))
  | case3 i j hlt =>
      intro hle hlow hhigh
      rw [search, if_neg hlt]
      exact ⟨hlow, fun k hk hkn => hhigh k (by omega) hkn⟩

end Sorting
