import Logthing.Core.Text

/-!
# Replacing every occurrence

`strings.ReplaceAll` over lists: occurrences are taken from the left and do not overlap.

**Main results.**

* `replaceAll_pieces`: the text falls into pieces that do not contain what is replaced, and the
  result is the same pieces with the new text between them.
* `not_infix_replaceAll_self` and `not_infix_replaceAll`: a text that shares no part with a
  bracketed replacement is gone once it has been replaced, and does not come back when something
  else is replaced by it.
-/

namespace Text

variable {α : Type*} [DecidableEq α]

/-- `replaceAll` inside an occurrence, of which `skip` elements are still to be passed over. -/
def replaceFrom (old new : List α) : ℕ → List α → List α
  | _, [] => []
  | skip + 1, _ :: s => replaceFrom old new skip s
  | 0, a :: s =>
      if old.isPrefixOf (a :: s) then new ++ replaceFrom old new (old.length - 1) s
      else a :: replaceFrom old new 0 s

/-- `strings.ReplaceAll(s, old, new)`, for an `old` that is not empty. -/
def replaceAll (s old new : List α) : List α := replaceFrom old new 0 s

example : replaceAll "aaaba".toList "aa".toList "[x]".toList = "[x]aba".toList := by decide

lemma replaceFrom_drop (old new : List α) (skip : ℕ) (s : List α) :
    replaceFrom old new skip s = replaceFrom old new 0 (s.drop skip) := by
  induction s generalizing skip with
  | nil => simp [replaceFrom]
  | cons a s ih =>
      cases skip with
      | zero => rfl
      | succ skip => exact ih skip

/-- At an occurrence the new text is put and the scan goes on behind it. -/
lemma replaceAll_append {old : List α} (hne : old ≠ []) (new s : List α) :
    replaceAll (old ++ s) old new = new ++ replaceAll s old new := by
  cases old with
  | nil => exact absurd rfl hne
  | cons a old =>
      have hpre : (a :: old).isPrefixOf (a :: (old ++ s)) = true :=
        List.isPrefixOf_iff_prefix.mpr (List.prefix_append (a :: old) s)
      rw [List.cons_append, replaceAll, replaceFrom, if_pos hpre, replaceFrom_drop]
      simp [replaceAll]

lemma replaceAll_cons {old new s : List α} {a : α} (h : ¬old <+: a :: s) :
    replaceAll (a :: s) old new = a :: replaceAll s old new := by
  rw [replaceAll, replaceFrom, if_neg (by rwa [List.isPrefixOf_iff_prefix])]
  rfl

omit [DecidableEq α] in
lemma prefix_intercalate (sep piece : List α) (pieces : List (List α)) :
    piece <+: sep.intercalate (piece :: pieces) := by
  cases pieces with
  | nil => simp
  | cons next pieces => simp

/-- **What replacing does**: the text is cut at the occurrences, and none is left in a piece. -/
theorem replaceAll_pieces {old : List α} (hne : old ≠ []) (new s : List α) :
    ∃ piece pieces, s = old.intercalate (piece :: pieces) ∧
      replaceAll s old new = new.intercalate (piece :: pieces) ∧
      ∀ p ∈ piece :: pieces, ¬old <:+: p := by
  induction hlength : s.length using Nat.strong_induction_on generalizing s with
  | _ n ih =>
      by_cases hpre : old <+: s
      · obtain ⟨rest, rfl⟩ := hpre
        have hshorter : rest.length < n := by
          have := List.length_pos_iff.mpr hne
          rw [List.length_append] at hlength
          omega
        obtain ⟨piece, pieces, hrest, hreplaced, hfree⟩ := ih _ hshorter rest rfl
        refine ⟨[], piece :: pieces, ?_, ?_, ?_⟩
        · rw [List.intercalate_cons_cons, ← hrest, List.nil_append]
        · rw [replaceAll_append hne, List.intercalate_cons_cons, ← hreplaced, List.nil_append]
        · exact List.forall_mem_cons.mpr ⟨by simpa using hne, hfree⟩
      · cases s with
        | nil => exact ⟨[], [], rfl, rfl, by simpa using hne⟩
        | cons a s =>
            obtain ⟨piece, pieces, hs, hreplaced, hfree⟩ := ih s.length (by simp [← hlength]) s rfl
            rw [List.forall_mem_cons] at hfree
            refine ⟨a :: piece, pieces, ?_, ?_, List.forall_mem_cons.mpr ⟨?_, hfree.2⟩⟩
            · rw [List.intercalate_cons_cons_left, ← hs]
            · rw [replaceAll_cons hpre, List.intercalate_cons_cons_left, ← hreplaced]
            · rw [List.infix_cons_iff, not_or]
              refine ⟨fun h => hpre (h.trans ?_), hfree.1⟩
              rw [hs]
              exact (List.cons_prefix_cons).mpr ⟨rfl, prefix_intercalate _ _ _⟩

/-! ## What is gone stays gone -/

omit [DecidableEq α] in
/-- A text without a separator's element lies on one side of it. -/
lemma infix_append_cons {sub x y : List α} {c : α} (hc : c ∉ sub) :
    sub <:+: x ++ c :: y ↔ sub <:+: x ∨ sub <:+: y := by
  rw [infix_append_iff]
  constructor
  · rintro (h | h | ⟨u, v, -, hv, rfl, -, hpre⟩)
    · exact Or.inl h
    · rcases List.infix_cons_iff.mp h with hpre | h
      · rcases List.prefix_cons_iff.mp hpre with rfl | ⟨t, rfl, -⟩
        · exact Or.inl (List.nil_infix)
        · exact absurd List.mem_cons_self hc
      · exact Or.inr h
    · rcases List.prefix_cons_iff.mp hpre with rfl | ⟨t, rfl, -⟩
      · exact absurd rfl hv
      · exact absurd (List.mem_append_right _ List.mem_cons_self) hc
  · rintro (h | h)
    · exact Or.inl h
    · exact Or.inr (Or.inl (List.infix_cons h))

/-- A replacement in brackets, as a text that has no bracket sees it. -/
def Bracketed (new sub : List α) : Prop :=
  ∃ left inner right, new = left :: inner ++ [right] ∧ left ∉ sub ∧ right ∉ sub ∧
    ¬sub <:+: inner

omit [DecidableEq α] in
lemma Bracketed.not_infix {new sub : List α} (h : Bracketed new sub) (piece : List α)
    (pieces : List (List α)) (hfree : ∀ p ∈ piece :: pieces, ¬sub <:+: p) :
    ¬sub <:+: new.intercalate (piece :: pieces) := by
  obtain ⟨left, inner, right, rfl, hleft, hright, hinner⟩ := h
  induction pieces generalizing piece with
  | nil => simpa using hfree
  | cons next pieces ih =>
      rw [List.forall_mem_cons] at hfree
      have htext : (left :: inner ++ [right]).intercalate (piece :: next :: pieces)
          = piece ++ left :: (inner ++ right ::
              (left :: inner ++ [right]).intercalate (next :: pieces)) := by
        simp
      rw [htext, infix_append_cons hleft, infix_append_cons hright, not_or, not_or]
      exact ⟨hfree.1, hinner, ih next hfree.2⟩

/-- A replaced text is gone. -/
lemma not_infix_replaceAll_self {sub new : List α} (hne : sub ≠ []) (h : Bracketed new sub)
    (s : List α) : ¬sub <:+: replaceAll s sub new := by
  obtain ⟨piece, pieces, -, hreplaced, hfree⟩ := replaceAll_pieces hne new s
  rw [hreplaced]
  exact h.not_infix piece pieces hfree

omit [DecidableEq α] in
lemma infix_intercalate {sep p : List α} {pieces : List (List α)} (hp : p ∈ pieces) :
    p <:+: sep.intercalate pieces := by
  induction pieces with
  | nil => exact absurd hp List.not_mem_nil
  | cons piece pieces ih =>
      cases pieces with
      | nil => simp [List.mem_singleton.mp hp]
      | cons next pieces =>
          rw [List.intercalate_cons_cons]
          rcases List.mem_cons.mp hp with rfl | hp
          · exact ⟨[], _, by rw [List.nil_append, List.append_assoc]⟩
          · exact List.infix_append_of_infix_right (ih hp)

/-- **A text that is gone does not come back** when another one is replaced. -/
theorem not_infix_replaceAll {sub old new s : List α} (hne : old ≠ []) (h : Bracketed new sub)
    (hs : ¬sub <:+: s) : ¬sub <:+: replaceAll s old new := by
  obtain ⟨piece, pieces, htext, hreplaced, -⟩ := replaceAll_pieces hne new s
  rw [hreplaced]
  refine h.not_infix piece pieces fun p hp hsub => hs ?_
  rw [htext]
  exact hsub.trans (infix_intercalate hp)

end Text
