import Logthing.Core.Sorting

/-!
# Paging through a list that is sorted anew for every page

A list is read in pages of `limit` elements, and for each page it is sorted again by a sort that
puts the greatest key first and elements of one key in any order.  `Straddled` says that such
elements stand on both sides of a boundary between two pages.

**Main results.**  Without that, the pages together are the list in order (`arranges_pages`); with
it there are sorts for which they are not (`exists_not_perm_pages`).
-/

namespace Paging

open Sorting (Arranges)

variable {α κ : Type} [LinearOrder κ] {key : α → κ} {limit : ℕ} {l r r' : List α}

/-- The `k`-th page of `limit` elements. -/
def page (limit k : ℕ) (r : List α) : List α := (r.drop (k * limit)).take limit

/-- `n` pages from the `k`-th on, each cut from its own list. -/
def pages (limit : ℕ) (lists : ℕ → List α) : ℕ → ℕ → List α
  | _, 0 => []
  | k, n + 1 => page limit k (lists k) ++ pages limit lists (k + 1) n

/-- Elements of one key stand on both sides of a boundary between two pages. -/
def Straddled (key : α → κ) (limit : ℕ) (l : List α) : Prop :=
  ∃ t k, (l.countP fun a => t < key a) < k * limit ∧ k * limit < l.countP fun a => t ≤ key a

/-! ## Pages of one list -/

/-- A page whose bounds are cut off at the end of the list is the page. -/
lemma page_clamped (limit k : ℕ) (r : List α) :
    (r.drop (min (k * limit) r.length)).take
        (min (min (k * limit) r.length + limit) r.length - min (k * limit) r.length)
      = page limit k r := by
  rcases le_total (k * limit) r.length with h | h
  · rw [min_eq_left h, page, List.take_eq_take_iff, List.length_drop]
    omega
  · rw [min_eq_right h, page, List.drop_length, List.drop_of_length_le h, List.take_nil,
      List.take_nil]

lemma take_succ_page (limit k : ℕ) (r : List α) :
    r.take ((k + 1) * limit) = r.take (k * limit) ++ page limit k r := by
  rw [page, Nat.add_one_mul, List.take_add]

lemma pages_const (limit : ℕ) (r : List α) (k n : ℕ) :
    pages limit (fun _ => r) k n = (r.drop (k * limit)).take (n * limit) := by
  induction n generalizing k with
  | zero => simp [pages]
  | succ n ih =>
      rw [pages, ih, page, Nat.add_one_mul, Nat.add_one_mul, Nat.add_comm (n * limit), List.take_add,
        List.drop_drop]

/-- Two parts of the pages, one after the other. -/
lemma pages_add (limit : ℕ) (lists : ℕ → List α) (k m n : ℕ) :
    pages limit lists k (m + n) = pages limit lists k m ++ pages limit lists (k + m) n := by
  induction m generalizing k with
  | zero => simp [pages]
  | succ m ih =>
      rw [Nat.add_right_comm, pages, ih, pages, List.append_assoc, Nat.add_right_comm k 1 m,
        Nat.add_assoc k m 1]

lemma pages_congr {lists lists' : ℕ → List α} {k n : ℕ}
    (h : ∀ j, k ≤ j → j < k + n → lists j = lists' j) :
    pages limit lists k n = pages limit lists' k n := by
  induction n generalizing k with
  | zero => rfl
  | succ n ih =>
      rw [pages, pages, h k le_rfl (by omega), ih fun j hle hlt => h j (by omega) (by omega)]

/-! ## Pages of a list that grows -/

/-- A page and what comes after it. -/
lemma drop_page (limit k : ℕ) (r : List α) :
    r.drop (k * limit) = page limit k r ++ r.drop ((k + 1) * limit) := by
  rw [page, Nat.add_one_mul, ← List.drop_drop, List.take_append_drop]

/-- **Pages of a list that grows skip nothing**: what grows in is shown again, not what was there
left out. -/
theorem sublist_pages {lists : ℕ → List α} {n : ℕ}
    (hgrows : ∀ j < n, (lists j).Sublist (lists (j + 1)))
    (hlast : (lists n).length ≤ (n + 1) * limit) :
    (lists 0).Sublist (pages limit lists 0 (n + 1)) := by
  have hrest : ∀ m k, k + m = n →
      ((lists k).drop (k * limit)).Sublist (pages limit lists k (m + 1)) := by
    intro m
    induction m with
    | zero =>
        intro k hk
        rw [Nat.add_zero] at hk
        rw [hk, drop_page, List.drop_of_length_le hlast]
        exact .refl _
    | succ m ih =>
        intro k hk
        rw [drop_page, pages]
        exact (List.Sublist.refl _).append
          (((hgrows k (by omega)).drop _).trans (ih (k + 1) (by omega)))
  simpa using hrest n 0 (Nat.zero_add n)

/-! ## Without ties at the boundaries -/

/-- In order, what satisfies a condition that earlier elements satisfy too is the beginning. -/
lemma take_countP {p : α → Bool} (h : r.Pairwise fun a b => p b = true → p a = true) :
    r.take (r.countP p) = r.filter p := by
  induction r with
  | nil => rfl
  | cons a r ih =>
      rw [List.pairwise_cons] at h
      cases hp : p a with
      | true => simp [hp, ih h.2]
      | false =>
          have hnone : r.filter p = [] := by
            rw [List.filter_eq_nil_iff]
            intro b hb hpb
            rw [h.1 b hb hpb] at hp
            cases hp
          rw [List.countP_eq_length_filter, List.filter_cons_of_neg (by simp [hp]), hnone]
          rfl

/-- In order, whether an element satisfies such a condition is a matter of its position. -/
lemma lt_countP_iff {p : α → Bool} (h : r.Pairwise fun a b => p b = true → p a = true) {i : ℕ}
    (hi : i < r.length) : i < r.countP p ↔ p r[i] = true := by
  induction r generalizing i with
  | nil => exact absurd hi (Nat.not_lt_zero i)
  | cons a r ih =>
      rw [List.pairwise_cons] at h
      cases hp : p a with
      | true =>
          cases i with
          | zero => simp [hp]
          | succ i => simpa [hp] using ih h.2 (Nat.lt_of_succ_lt_succ hi)
      | false =>
          have hnone : ∀ b ∈ a :: r, ¬ p b = true := by
            intro b hb hpb
            rcases List.mem_cons.mp hb with rfl | hb
            · rw [hp] at hpb
              cases hpb
            · rw [h.1 b hb hpb] at hp
              cases hp
          rw [List.countP_eq_zero.mpr hnone]
          exact iff_of_false (Nat.not_lt_zero i) (hnone _ (List.getElem_mem hi))

/-- The position of an element among those with a greater key and those with one not less. -/
lemma countP_le_and_lt (h : Arranges key l r) (t : κ) {i : ℕ} (hi : i < r.length) :
    ((l.countP fun a => t < key a) ≤ i ↔ key r[i] ≤ t) ∧
      (i < (l.countP fun a => t ≤ key a) ↔ t ≤ key r[i]) := by
  rw [← h.perm.countP_eq, ← h.perm.countP_eq]
  constructor
  · rw [← not_lt, lt_countP_iff (h.ordered.imp fun hba hb => ?_) hi]
    · simp
    · rw [decide_eq_true_eq] at hb ⊢
      exact hb.trans_le hba
  · rw [lt_countP_iff (h.ordered.imp fun hba hb => ?_) hi]
    · simp
    · rw [decide_eq_true_eq] at hb ⊢
      exact hb.trans hba

/-- A boundary that is not straddled comes where the elements above some key end. -/
lemma exists_countP_eq (h : Arranges key l r) (hclean : ¬ Straddled key limit l) {k : ℕ}
    (hk : k * limit < l.length) : ∃ t, (l.countP fun a => t < key a) = k * limit := by
  rw [← h.perm.length_eq] at hk
  obtain ⟨hgreater, hnotless⟩ := countP_le_and_lt h (key (r[k * limit])) hk
  refine ⟨key (r[k * limit]), le_antisymm (hgreater.mpr le_rfl) ?_⟩
  by_contra hlt
  exact hclean ⟨_, k, not_le.mp hlt, hnotless.mpr le_rfl⟩

/-- What comes before such a boundary does not depend on the sort. -/
lemma take_perm (h : Arranges key l r) (h' : Arranges key l r') (hclean : ¬ Straddled key limit l)
    (k : ℕ) : (r.take (k * limit)).Perm (r'.take (k * limit)) := by
  rcases lt_or_ge (k * limit) l.length with hk | hk
  · obtain ⟨t, ht⟩ := exists_countP_eq h hclean hk
    have hcut : ∀ {r}, Arranges key l r → r.take (k * limit) = r.filter fun a => t < key a := by
      intro r hr
      rw [← ht, ← hr.perm.countP_eq]
      refine take_countP (hr.ordered.imp fun hba hb => ?_)
      rw [decide_eq_true_eq] at hb ⊢
      exact hb.trans_le hba
    rw [hcut h, hcut h']
    exact (h.perm.trans h'.perm.symm).filter _
  · rw [List.take_of_length_le (by rw [h.perm.length_eq]; exact hk),
      List.take_of_length_le (by rw [h'.perm.length_eq]; exact hk)]
    exact h.perm.trans h'.perm.symm

lemma page_perm (h : Arranges key l r) (h' : Arranges key l r') (hclean : ¬ Straddled key limit l)
    (k : ℕ) : (page limit k r).Perm (page limit k r') := by
  have hlonger := take_perm h h' hclean (k + 1)
  rw [take_succ_page, take_succ_page] at hlonger
  exact (List.perm_append_left_iff _).mp
    (hlonger.trans ((take_perm h h' hclean k).symm.append_right _))

lemma pages_perm {lists : ℕ → List α} (h : Arranges key l r) (hlists : ∀ n, Arranges key l (lists n))
    (hclean : ¬ Straddled key limit l) (k n : ℕ) :
    (pages limit lists k n).Perm ((r.drop (k * limit)).take (n * limit)) := by
  rw [← pages_const]
  induction n generalizing k with
  | zero => rfl
  | succ n ih => exact (page_perm (hlists k) h hclean k).append (ih (k + 1))

lemma pairwise_pages {lists : ℕ → List α} (hlists : ∀ n, Arranges key l (lists n))
    (hclean : ¬ Straddled key limit l) (k n : ℕ) :
    (pages limit lists k n).Pairwise fun a b => key b ≤ key a := by
  induction n generalizing k with
  | zero => exact List.Pairwise.nil
  | succ n ih =>
      rw [pages, List.pairwise_append]
      have hordered := (hlists k).ordered
      refine ⟨hordered.sublist ((List.take_sublist _ _).trans (List.drop_sublist _ _)), ih (k + 1),
        fun a ha b hb => ?_⟩
      -- later pages hold what this page's list has further down
      have hlater : b ∈ (lists k).drop ((k + 1) * limit) :=
        List.mem_of_mem_take ((pages_perm (hlists k) hlists hclean (k + 1) n).mem_iff.mp hb)
      have hhere : a ∈ (lists k).take ((k + 1) * limit) := by
        rw [take_succ_page]
        exact List.mem_append_right _ ha
      rw [← List.take_append_drop ((k + 1) * limit) (lists k), List.pairwise_append] at hordered
      exact hordered.2.2 a hhere b hlater

/-- **Pages with clean boundaries are the list.**  However it is sorted for each of them. -/
theorem arranges_pages {lists : ℕ → List α} (hlists : ∀ n, Arranges key l (lists n))
    (hclean : ¬ Straddled key limit l) {n : ℕ} (hn : l.length ≤ n * limit) :
    Arranges key l (pages limit lists 0 n) := by
  have hperm := pages_perm (hlists 0) hlists hclean 0 n
  rw [Nat.zero_mul, List.drop_zero,
    List.take_of_length_le (by rw [(hlists 0).perm.length_eq]; exact hn)] at hperm
  exact ⟨hperm.trans (hlists 0).perm, pairwise_pages hlists hclean 0 n⟩

/-! ## With a tie at a boundary -/

/-- The neighbours at a straddled boundary. -/
lemma exists_neighbours (h : Arranges key l r) {t : κ} {i : ℕ}
    (hfrom : (l.countP fun a => t < key a) < i) (hto : i < l.countP fun a => t ≤ key a) :
    ∃ u a b w, r = u ++ a :: b :: w ∧ u.length + 1 = i ∧ key a = key b := by
  have hi : i < r.length := by
    rw [h.perm.length_eq]
    exact hto.trans_le List.countP_le_length
  obtain ⟨j, rfl⟩ : ∃ j, i = j + 1 := ⟨i - 1, by omega⟩
  have hkey : ∀ {n}, (hn : n < r.length) → (l.countP fun a => t < key a) ≤ n →
      n < (l.countP fun a => t ≤ key a) → key r[n] = t := by
    intro n hn hge hlt
    obtain ⟨hgreater, hnotless⟩ := countP_le_and_lt h t hn
    exact le_antisymm (hgreater.mp hge) (hnotless.mp hlt)
  refine ⟨r.take j, r[j], r[j + 1], r.drop (j + 2), ?_, ?_, ?_⟩
  · rw [← List.drop_eq_getElem_cons hi, ← List.drop_eq_getElem_cons, List.take_append_drop]
  · rw [List.length_take, Nat.min_eq_left (by omega)]
  · rw [hkey (by omega) (by omega) (by omega), hkey hi (by omega) (by omega)]

/-- **Pages with a straddled boundary need not be the list.**  If the neighbours there change
places after the page that ends with one of them, that one is on the next page as well. -/
theorem exists_not_perm_pages (hnodup : l.Nodup) (h : Straddled key limit l) :
    ∃ lists : ℕ → List α, (∀ n, Arranges key l (lists n)) ∧
      ∀ n, l.length ≤ n * limit → ¬ (pages limit lists 0 n).Perm l := by
  obtain ⟨t, k, hfrom, hto⟩ := h
  have harranged := Sorting.arranges_desc key l
  obtain ⟨u, a, b, w, hsorted, hlength, hkey⟩ := exists_neighbours harranged hfrom hto
  rw [hsorted] at harranged
  have hswapped := harranged.swap hkey
  refine ⟨fun n => if n < k then u ++ a :: b :: w else u ++ b :: a :: w, fun n => ?_,
    fun n hn hperm => ?_⟩
  · dsimp only
    split_ifs
    · exact harranged
    · exact hswapped
  have htotal : l.length = u.length + 1 + (a :: w).length := by
    rw [← harranged.perm.length_eq]
    simp only [List.length_append, List.length_cons]
    omega
  obtain ⟨m, rfl⟩ : ∃ m, n = k + m := by
    have hlt : k * limit < n * limit := (hto.trans_le List.countP_le_length).trans_le hn
    exact ⟨n - k, by have := Nat.lt_of_mul_lt_mul_right hlt; omega⟩
  have hbefore : pages limit (fun n => if n < k then u ++ a :: b :: w else u ++ b :: a :: w) 0 k
      = pages limit (fun _ => u ++ a :: b :: w) 0 k :=
    pages_congr fun j _ hlt => if_pos (by omega)
  have hafter : pages limit (fun n => if n < k then u ++ a :: b :: w else u ++ b :: a :: w) k m
      = pages limit (fun _ => u ++ b :: a :: w) k m :=
    pages_congr fun j hle _ => if_neg (by omega)
  have hrest : (a :: w).length ≤ m * limit := by
    rw [Nat.add_mul, htotal] at hn
    omega
  have hfirst : (u ++ a :: b :: w).take (u.length + 1) = u ++ [a] := by
    rw [List.take_length_add_append]
    rfl
  have hlast : (u ++ b :: a :: w).drop (u.length + 1) = a :: w := by
    rw [List.drop_length_add_append]
    rfl
  rw [pages_add, Nat.zero_add, hbefore, hafter, pages_const, pages_const, Nat.zero_mul,
    List.drop_zero, ← hlength, hfirst, hlast, List.take_of_length_le hrest] at hperm
  -- so `a` is on both pages, and `b` on none
  have hcancel := hperm.trans harranged.perm.symm
  rw [List.append_assoc, List.perm_append_left_iff, List.singleton_append, List.perm_cons]
    at hcancel
  have hdistinct := harranged.perm.nodup_iff.mpr hnodup
  rw [List.nodup_append, List.nodup_cons] at hdistinct
  exact hdistinct.2.1.1 (hcancel.mem_iff.mp List.mem_cons_self)

end Paging
