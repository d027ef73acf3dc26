import Mathlib.Data.Finmap
import Mathlib.Data.Finset.Sort
import Mathlib.Order.Basic

/-!
# Dictionaries and the order in which a loop visits them

`Dict α β` is a finite map, extensional, on Mathlib's `Finmap`.  What `Finmap` does not have is a
loop over its entries whose order is *unspecified*: many languages visit a map in an order that
changes from one loop to the next.  `Traversal` is one such order — each entry exactly once and
nothing said about the sequence — and a result proved for every traversal holds whatever the
runtime does.

`Traversal.assign` is the loop "for each `(k, v)`, maybe store something under `k`"; its lookup
(`lookup_assign`) does not mention the order, which is how order-independence is used.
-/

/-- A finite map from `α` to `β`. -/
abbrev Dict (α β : Type) := Finmap fun _ : α => β

namespace Dict

variable {α β γ : Type} [DecidableEq α]

/-- One lookup law for `insert`, in the form a case split wants. -/
lemma lookup_insert_ite (m : Dict α β) (k k' : α) (v : β) :
    (m.insert k v).lookup k' = if k' = k then some v else m.lookup k' := by
  split_ifs with h
  · subst h; exact Finmap.lookup_insert m
  · exact Finmap.lookup_insert_of_ne m h

lemma lookup_erase_ite (m : Dict α β) (k k' : α) :
    (m.erase k).lookup k' = if k' = k then none else m.lookup k' := by
  split_ifs with h
  · subst h; exact Finmap.lookup_erase _ _
  · exact Finmap.lookup_erase_ne h

/-- The number of entries. -/
def size (m : Dict α β) : ℕ := m.keys.card

/-- Store unless the key is taken. -/
def insertNew (m : Dict α β) (k : α) (v : β) : Dict α β :=
  if k ∈ m then m else m.insert k v

lemma lookup_insertNew (m : Dict α β) (k k' : α) (v : β) :
    (m.insertNew k v).lookup k' = if k' = k ∧ k ∉ m then some v else m.lookup k' := by
  unfold insertNew
  by_cases hk : k ∈ m
  · simp [hk]
  · simp only [hk, if_false, not_false_eq_true, and_true]
    exact lookup_insert_ite m k k' v

/-- What is stored is never replaced by `insertNew`. -/
lemma lookup_insertNew_of_some {m : Dict α β} {k k' : α} {v w : β} (h : m.lookup k' = some w) :
    (m.insertNew k v).lookup k' = some w := by
  have hmem : k' ∈ m := Finmap.mem_of_lookup_eq_some h
  rw [lookup_insertNew, if_neg, h]
  rintro ⟨rfl, hk⟩
  exact hk hmem

/-- Storing `f k` under every key of a list. -/
lemma lookup_foldl_insert (f : α → β) (k : α) :
    ∀ (keys : List α) (m : Dict α β),
      (keys.foldl (fun m key => m.insert key (f key)) m).lookup k
        = if k ∈ keys then some (f k) else m.lookup k
  | [], m => by simp
  | key :: keys, m => by
      rw [List.foldl_cons, lookup_foldl_insert f k keys, lookup_insert_ite]
      by_cases hk : k = key
      · subst hk
        simp
      · simp [hk]

end Dict

/-! ## Traversals -/

/-- One order in which a loop may visit the entries of a dictionary: each entry exactly once. -/
structure Traversal (α : Type) [DecidableEq α] where
  visit : {β : Type} → Dict α β → List (α × β)
  nodup : ∀ {β : Type} (m : Dict α β), ((visit m).map Prod.fst).Nodup
  mem_visit : ∀ {β : Type} (m : Dict α β) (k : α) (v : β),
    (k, v) ∈ visit m ↔ m.lookup k = some v

namespace Traversal

variable {α β γ : Type} [DecidableEq α]

/-- The entries under some keys have no other keys. -/
lemma map_fst_filterMap_sublist (m : Dict α β) (l : List α) :
    ((l.filterMap fun k => (m.lookup k).map fun v => (k, v)).map Prod.fst).Sublist l := by
  induction l with
  | nil => simp
  | cons k l ih =>
      cases hk : m.lookup k with
      | none => simpa [List.filterMap_cons, hk] using ih.cons k
      | some v => simpa [List.filterMap_cons, hk] using ih

/-- The traversal in increasing key order, which shows that there is one. -/
def sorted (α : Type) [LinearOrder α] : Traversal α where
  visit m := (m.keys.sort (· ≤ ·)).filterMap fun k => (m.lookup k).map fun v => (k, v)
  nodup m := (map_fst_filterMap_sublist m _).nodup (Finset.sort_nodup _ _)
  mem_visit {β} m k v := by
    simp only [List.mem_filterMap, Finset.mem_sort, Finmap.mem_keys, Option.map_eq_some_iff,
      Prod.mk.injEq]
    constructor
    · rintro ⟨a, -, w, hw, rfl, rfl⟩
      exact hw
    · intro h
      exact ⟨k, Finmap.mem_of_lookup_eq_some h, v, h, rfl, rfl⟩

/-- The keys in increasing order, by insertion, which evaluates where a merge sort does not. -/
def insertKeys {α : Type} [LinearOrder α] (keys : Finset α) : List α :=
  Quot.liftOn keys.1 (List.insertionSort (· ≤ ·)) fun l l' h =>
    ((List.perm_insertionSort _ l).trans
      (h.trans (List.perm_insertionSort _ l').symm)).eq_of_pairwise'
      (List.pairwise_insertionSort _ l) (List.pairwise_insertionSort _ l')

lemma insertKeys_eq {α : Type} [LinearOrder α] (keys : Finset α) :
    insertKeys keys = keys.sort (· ≤ ·) := by
  obtain ⟨keys, hnodup⟩ := keys
  induction keys using Quot.inductionOn with
  | h l => exact (List.mergeSort_eq_insertionSort (· ≤ ·) l).symm

/-- The traversal in increasing key order once more. -/
def inserted (α : Type) [LinearOrder α] : Traversal α where
  visit m := (insertKeys m.keys).filterMap fun k => (m.lookup k).map fun v => (k, v)
  nodup m := by
    rw [insertKeys_eq]
    exact (sorted α).nodup m
  mem_visit m := by
    rw [insertKeys_eq]
    exact (sorted α).mem_visit m

lemma sorted_visit {α : Type} [LinearOrder α] (m : Dict α β) :
    (sorted α).visit m = (inserted α).visit m := by
  simp only [inserted, insertKeys_eq]
  rfl

/-- The same entries from the last to the first. -/
def reverse (T : Traversal α) : Traversal α where
  visit m := (T.visit m).reverse
  nodup m := by
    rw [List.map_reverse]
    exact List.nodup_reverse.mpr (T.nodup m)
  mem_visit m k v := by rw [List.mem_reverse, T.mem_visit]

/-- The entries under some keys first, in their order, and then the others. -/
def leading {α : Type} [LinearOrder α] (keys : List α) : Traversal α where
  visit m := (keys.dedup.filterMap fun k => (m.lookup k).map fun v => (k, v)) ++
    ((sorted α).visit m).filter fun kv => kv.1 ∉ keys
  nodup {β} m := by
    rw [List.map_append, List.nodup_append]
    refine ⟨(map_fst_filterMap_sublist m keys.dedup).nodup keys.nodup_dedup,
      ((List.filter_sublist).map Prod.fst).nodup ((sorted α).nodup m), ?_⟩
    rintro k hk _ hk' rfl
    obtain ⟨kv, hkv, rfl⟩ := List.mem_map.mp hk'
    have hkey := (map_fst_filterMap_sublist m keys.dedup).subset hk
    simp only [List.mem_filter, decide_eq_true_eq] at hkv
    exact hkv.2 (List.mem_dedup.mp hkey)
  mem_visit {β} m k v := by
    simp only [List.mem_append, List.mem_filterMap, List.mem_dedup, Option.map_eq_some_iff,
      Prod.mk.injEq, List.mem_filter, mem_visit, decide_eq_true_eq]
    constructor
    · rintro (⟨a, -, w, hw, rfl, rfl⟩ | ⟨hv, -⟩)
      · exact hw
      · exact hv
    · intro hv
      by_cases hk : k ∈ keys
      · exact Or.inl ⟨k, hk, v, hv, rfl, rfl⟩
      · exact Or.inr ⟨hv, hk⟩

/-- **Any order of the entries** is that of a traversal. -/
lemma leading_visit {α : Type} [LinearOrder α] (m : Dict α β) {l : List (α × β)}
    (hnodup : (l.map Prod.fst).Nodup) (hmem : ∀ k v, (k, v) ∈ l ↔ m.lookup k = some v) :
    (leading (l.map Prod.fst)).visit m = l := by
  have hfirst : ((l.map Prod.fst).filterMap fun k => (m.lookup k).map fun v => (k, v)) = l := by
    rw [List.filterMap_map]
    have hself : ∀ kv ∈ l, ((fun k => (m.lookup k).map fun v => (k, v)) ∘ Prod.fst) kv
        = some kv := by
      intro kv hkv
      simp only [Function.comp_apply, (hmem kv.1 kv.2).mp hkv, Option.map_some]
    rw [List.filterMap_congr hself, List.filterMap_some]
  have hrest : ((sorted α).visit m).filter (fun kv => kv.1 ∉ l.map Prod.fst) = [] := by
    rw [List.filter_eq_nil_iff]
    rintro ⟨k, v⟩ hkv
    have hl := (hmem k v).mpr (((sorted α).mem_visit m k v).mp hkv)
    simp only [decide_eq_true_eq, not_not]
    exact List.mem_map.mpr ⟨_, hl, rfl⟩
  simp only [leading]
  rw [hnodup.dedup, hfirst, hrest, List.append_nil]

/-- The loop "for each `(k, v)` of `m`, store `f k v` under `k` if it is something", writing into
`acc`. -/
def assign (T : Traversal α) (m : Dict α β) (f : α → β → Option γ) (acc : Dict α γ) : Dict α γ :=
  (T.visit m).foldl
    (fun acc kv => match f kv.1 kv.2 with
      | some w => acc.insert kv.1 w
      | none => acc) acc

/-- The loop of `assign` over any list of entries with distinct keys. -/
lemma lookup_foldl_assign (f : α → β → Option γ) (k : α) :
    ∀ (l : List (α × β)) (acc : Dict α γ), (l.map Prod.fst).Nodup →
      (l.foldl (fun acc kv => match f kv.1 kv.2 with
        | some w => acc.insert kv.1 w
        | none => acc) acc).lookup k
      = match l.find? (fun kv => kv.1 = k) with
        | some kv => (f k kv.2).or (acc.lookup k)
        | none => acc.lookup k
  | [], acc, _ => rfl
  | (a, b) :: l, acc, hnd => by
      rw [List.map_cons, List.nodup_cons] at hnd
      rw [List.foldl_cons, lookup_foldl_assign f k l _ hnd.2, List.find?_cons]
      by_cases hak : a = k
      · subst hak
        have hnone : l.find? (fun kv => kv.1 = a) = none := by
          rw [List.find?_eq_none]
          rintro ⟨a', b'⟩ hmem hdec
          simp only [decide_eq_true_eq] at hdec
          subst hdec
          exact hnd.1 (List.mem_map.mpr ⟨(a', b'), hmem, rfl⟩)
        cases hf : f a b <;> simp [hnone, hf]
      · have hka : ¬ k = a := fun h => hak h.symm
        cases f a b <;> simp [hak, hka]

/-- **The loop does not depend on the order.**  Under `k` there is what `f` stored for the entry
at `k`, and otherwise what was there before. -/
theorem lookup_assign (T : Traversal α) (m : Dict α β) (f : α → β → Option γ) (acc : Dict α γ)
    (k : α) : (T.assign m f acc).lookup k = ((m.lookup k).bind (f k)).or (acc.lookup k) := by
  rw [assign, lookup_foldl_assign f k _ _ (T.nodup m)]
  cases hfind : (T.visit m).find? (fun kv => kv.1 = k) with
  | some kv =>
      obtain ⟨a, b⟩ := kv
      have hak : a = k := by simpa using List.find?_some hfind
      subst hak
      have hlook : m.lookup a = some b := (T.mem_visit m a b).mp (List.mem_of_find?_eq_some hfind)
      simp [hlook]
  | none =>
      have hlook : m.lookup k = none := by
        by_contra hne
        obtain ⟨v, hv⟩ := Option.ne_none_iff_exists'.mp hne
        have := List.find?_eq_none.mp hfind (k, v) ((T.mem_visit m k v).mpr hv)
        simp at this
      simp [hlook]

lemma nodup_visit (T : Traversal α) (m : Dict α β) : (T.visit m).Nodup := (T.nodup m).of_map

/-- Two orders differ in nothing but the order. -/
lemma visit_perm (T T' : Traversal α) (m : Dict α β) : (T.visit m).Perm (T'.visit m) :=
  (List.perm_ext_iff_of_nodup (T.nodup_visit m) (T'.nodup_visit m)).mpr fun kv =>
    (T.mem_visit m kv.1 kv.2).trans (T'.mem_visit m kv.1 kv.2).symm

/-- A search that finds nothing means no entry qualifies. -/
lemma find?_visit_eq_none (T : Traversal α) (m : Dict α β) (p : α × β → Bool) :
    (T.visit m).find? p = none ↔ ∀ k v, m.lookup k = some v → p (k, v) = false := by
  rw [List.find?_eq_none]
  constructor
  · intro h k v hv
    simpa using h (k, v) ((T.mem_visit m k v).mpr hv)
  · rintro h ⟨k, v⟩ hmem
    simp [h k v ((T.mem_visit m k v).mp hmem)]

/-- A search that finds an entry finds one that is there and qualifies. -/
lemma of_find?_visit (T : Traversal α) {m : Dict α β} {p : α × β → Bool} {kv : α × β}
    (h : (T.visit m).find? p = some kv) : m.lookup kv.1 = some kv.2 ∧ p kv = true :=
  ⟨(T.mem_visit m _ _).mp (List.mem_of_find?_eq_some h), List.find?_some h⟩

end Traversal
