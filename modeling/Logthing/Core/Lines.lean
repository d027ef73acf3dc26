import Mathlib.Data.List.Basic
import Mathlib.Order.Bounds.Basic

/-!
# Separator-terminated lines

A byte stream cut at a separator: the lines that end with it, each with its separator, and the
unterminated rest.  `split_flatten` says the cut is the only one there is, and
`terminated_append` that more bytes leave the lines already there alone, which is what a reader
that resumes at a line boundary relies on.
-/

namespace Lines

variable {α : Type} (nl : α)

/-- A line with its separator. -/
def IsLine (line : List α) : Prop := ∃ body, line = body ++ [nl] ∧ nl ∉ body

lemma IsLine.ne_nil {line : List α} (h : IsLine nl line) : line ≠ [] := by
  obtain ⟨body, rfl, -⟩ := h
  simp

lemma IsLine.singleton : IsLine nl [nl] := ⟨[], rfl, by simp⟩

lemma IsLine.cons {b : α} {line : List α} (hb : b ≠ nl) (h : IsLine nl line) :
    IsLine nl (b :: line) := by
  obtain ⟨body, rfl, hbody⟩ := h
  refine ⟨b :: body, rfl, ?_⟩
  rw [List.mem_cons, not_or]
  exact ⟨fun heq => hb heq.symm, hbody⟩

/-- Each line with the offset just past it, the first line starting at `offset`. -/
def ends : ℕ → List (List α) → List (List α × ℕ)
  | _, [] => []
  | offset, line :: lines => (line, offset + line.length) :: ends (offset + line.length) lines

lemma ends_append (offset : ℕ) (a b : List (List α)) :
    ends offset (a ++ b) = ends offset a ++ ends (offset + a.flatten.length) b := by
  induction a generalizing offset with
  | nil => simp [ends]
  | cons line a ih =>
      simp only [List.cons_append, ends, ih, List.flatten_cons, List.length_append, Nat.add_assoc]

lemma map_fst_ends (offset : ℕ) (lines : List (List α)) :
    (ends offset lines).map Prod.fst = lines := by
  induction lines generalizing offset with
  | nil => rfl
  | cons line lines ih => rw [ends, List.map_cons, ih]

variable [DecidableEq α]

/-- The terminated lines, separators included, and the unterminated rest. -/
def split : List α → List (List α) × List α
  | [] => ([], [])
  | b :: bs =>
      if b = nl then ([b] :: (split bs).1, (split bs).2)
      else match (split bs).1 with
        | [] => ([], b :: (split bs).2)
        | line :: lines => ((b :: line) :: lines, (split bs).2)

/-- The lines that end with the separator. -/
def terminated (bs : List α) : List (List α) := (split nl bs).1

/-- What follows the last separator. -/
def rest (bs : List α) : List α := (split nl bs).2

/-- Every line, an unterminated last one included. -/
def all (bs : List α) : List (List α) :=
  terminated nl bs ++ if rest nl bs = [] then [] else [rest nl bs]

/-- Nothing is lost by cutting. -/
lemma flatten_terminated_append_rest (bs : List α) :
    (terminated nl bs).flatten ++ rest nl bs = bs := by
  unfold terminated rest
  induction bs with
  | nil => rfl
  | cons b bs ih =>
      rw [split]
      split_ifs with hb
      · rw [List.flatten_cons, List.append_assoc, ih, List.singleton_append]
      · cases hs : (split nl bs).1 with
        | nil =>
            rw [hs] at ih
            simpa using ih
        | cons line lines =>
            rw [hs] at ih
            simpa using ih

lemma isLine_of_mem_terminated (bs : List α) :
    ∀ line ∈ terminated nl bs, IsLine nl line := by
  unfold terminated
  induction bs with
  | nil => simp [split]
  | cons b bs ih =>
      rw [split]
      split_ifs with hb
      · subst hb
        intro line hline
        rcases List.mem_cons.mp hline with rfl | hmem
        · exact IsLine.singleton b
        · exact ih line hmem
      · cases hs : (split nl bs).1 with
        | nil => simp
        | cons line lines =>
            rw [hs] at ih
            intro line' hline'
            rcases List.mem_cons.mp hline' with rfl | hmem
            · exact (ih line (by simp)).cons nl hb
            · exact ih line' (by simp [hmem])

lemma notMem_rest (bs : List α) : nl ∉ rest nl bs := by
  unfold rest
  induction bs with
  | nil => simp [split]
  | cons b bs ih =>
      rw [split]
      split_ifs with hb
      · exact ih
      · cases (split nl bs).1 with
        | nil =>
            rw [List.mem_cons, not_or]
            exact ⟨fun h => hb h.symm, ih⟩
        | cons line lines => exact ih

lemma split_of_notMem : ∀ {bs : List α}, nl ∉ bs → split nl bs = ([], bs)
  | [], _ => rfl
  | b :: bs, h => by
      rw [List.mem_cons, not_or] at h
      rw [split, if_neg (fun hb => h.1 hb.symm), split_of_notMem h.2]

lemma split_line_append {line : List α} (h : IsLine nl line) (bs : List α) :
    split nl (line ++ bs) = (line :: (split nl bs).1, (split nl bs).2) := by
  obtain ⟨body, rfl, hbody⟩ := h
  induction body with
  | nil => simp [split]
  | cons b body ih =>
      rw [List.mem_cons, not_or] at hbody
      rw [List.cons_append, List.cons_append, split, if_neg (fun hb => hbody.1 hb.symm),
        ih hbody.2]

/-- **The cut is unique**: lines followed by bytes without a separator are cut into exactly
these. -/
theorem split_flatten {lines : List (List α)} (hlines : ∀ line ∈ lines, IsLine nl line)
    {tail : List α} (htail : nl ∉ tail) : split nl (lines.flatten ++ tail) = (lines, tail) := by
  induction lines with
  | nil => exact split_of_notMem nl htail
  | cons line lines ih =>
      rw [List.flatten_cons, List.append_assoc, split_line_append nl (hlines line (by simp)),
        ih (fun l hl => hlines l (by simp [hl]))]

lemma split_append (a b : List α) :
    split nl (a ++ b)
      = (terminated nl a ++ terminated nl (rest nl a ++ b), rest nl (rest nl a ++ b)) := by
  have hb := flatten_terminated_append_rest nl (rest nl a ++ b)
  have hab : a ++ b
      = (terminated nl a ++ terminated nl (rest nl a ++ b)).flatten
          ++ rest nl (rest nl a ++ b) := by
    rw [List.flatten_append, List.append_assoc, hb, ← List.append_assoc,
      flatten_terminated_append_rest]
  conv_lhs => rw [hab]
  refine split_flatten nl ?_ (notMem_rest nl _)
  intro line hline
  rcases List.mem_append.mp hline with h | h
  · exact isLine_of_mem_terminated nl _ line h
  · exact isLine_of_mem_terminated nl _ line h

/-- **More bytes leave the terminated lines alone**: the new ones are those of the unterminated
rest completed. -/
theorem terminated_append (a b : List α) :
    terminated nl (a ++ b) = terminated nl a ++ terminated nl (rest nl a ++ b) := by
  conv_lhs => rw [terminated, split_append]

theorem rest_append (a b : List α) : rest nl (a ++ b) = rest nl (rest nl a ++ b) := by
  conv_lhs => rw [rest, split_append]

lemma terminated_flatten {lines : List (List α)} (hlines : ∀ line ∈ lines, IsLine nl line) :
    terminated nl lines.flatten = lines := by
  have h := split_flatten nl hlines (List.not_mem_nil : nl ∉ [])
  rw [List.append_nil] at h
  rw [terminated, h]

lemma rest_flatten {lines : List (List α)} (hlines : ∀ line ∈ lines, IsLine nl line) :
    rest nl lines.flatten = [] := by
  have h := split_flatten nl hlines (List.not_mem_nil : nl ∉ [])
  rw [List.append_nil] at h
  rw [rest, h]

lemma flatten_all (bs : List α) : (all nl bs).flatten = bs := by
  rw [all]
  split_ifs with h
  · have := flatten_terminated_append_rest nl bs
    rw [h] at this
    simpa using this
  · simpa using flatten_terminated_append_rest nl bs

lemma all_of_notMem {bs : List α} (h : nl ∉ bs) (hne : bs ≠ []) : all nl bs = [bs] := by
  simp [all, terminated, rest, split_of_notMem nl h, hne]

lemma all_line_append {line : List α} (h : IsLine nl line) (bs : List α) :
    all nl (line ++ bs) = line :: all nl bs := by
  have hterminated : terminated nl (line ++ bs) = line :: terminated nl bs := by
    rw [terminated, split_line_append nl h, terminated]
  have hrest : rest nl (line ++ bs) = rest nl bs := by
    rw [rest, split_line_append nl h, rest]
  rw [all, hterminated, hrest, all, List.cons_append]

/-- The lines of two pieces are those of the terminated part of the first, then those of what it
leaves unterminated completed by the second. -/
lemma all_append (a b : List α) : all nl (a ++ b) = terminated nl a ++ all nl (rest nl a ++ b) := by
  rw [all, all, terminated_append, rest_append, List.append_assoc]

lemma all_append_of_rest_eq_nil {a : List α} (h : rest nl a = []) (b : List α) :
    all nl (a ++ b) = all nl a ++ all nl b := by
  have ha : all nl a = terminated nl a := by rw [all, if_pos h, List.append_nil]
  rw [all_append, h, List.nil_append, ha]

/-- A line that others follow is terminated. -/
lemma isLine_of_all_eq {bs : List α} {first rest : List (List α)} {line : List α}
    (h : all nl bs = first ++ line :: rest) : ∀ l ∈ first, IsLine nl l := by
  have hlength := congrArg List.length h
  have hfirst : first <+: all nl bs := ⟨line :: rest, h.symm⟩
  have hterminated : terminated nl bs <+: all nl bs := List.prefix_append _ _
  have hleading : first <+: terminated nl bs := by
    refine List.prefix_of_prefix_length_le hfirst hterminated ?_
    rw [all, List.length_append, List.length_append, List.length_cons] at hlength
    split_ifs at hlength <;> simp only [List.length_nil, List.length_singleton] at hlength <;> omega
  exact fun l hl => isLine_of_mem_terminated nl bs l (List.IsPrefix.subset hleading hl)

lemma rest_mem_all {a : List α} (h : rest nl a ≠ []) : rest nl a ∈ all nl a := by
  rw [all, if_neg h]
  exact List.mem_append_right _ (List.mem_singleton.mpr rfl)

/-- Pieces that have the separator at their end if at all, after an unterminated start: the line
they complete consists of the start and some of the pieces, whole. -/
lemma start_append_mem_all {start : List α} (hstart : nl ∉ start) {pieces : List (List α)}
    (hne : pieces ≠ []) (hpieces : ∀ piece ∈ pieces, piece ≠ [] ∧ nl ∉ piece.dropLast) :
    ∃ k, 0 < k ∧ start ++ (pieces.take k).flatten ∈ all nl (start ++ pieces.flatten) := by
  induction pieces generalizing start with
  | nil => exact absurd rfl hne
  | cons piece pieces ih =>
      obtain ⟨hpiece, hbody⟩ := hpieces piece (by simp)
      have hsnoc := List.dropLast_append_getLast hpiece
      by_cases hlast : piece.getLast hpiece = nl
      · -- the piece completes the line
        have hline : IsLine nl (start ++ piece) := by
          refine ⟨start ++ piece.dropLast, ?_, ?_⟩
          · rw [List.append_assoc, ← hlast, hsnoc]
          · rw [List.mem_append, not_or]
            exact ⟨hstart, hbody⟩
        refine ⟨1, Nat.one_pos, ?_⟩
        rw [List.take_succ_cons, List.take_zero, List.flatten_singleton, List.flatten_cons,
          ← List.append_assoc, all, terminated, split_line_append nl hline]
        simp
      · have hclean : nl ∉ start ++ piece := by
          rw [← hsnoc, List.mem_append, List.mem_append, List.mem_singleton]
          rintro (h | h | h)
          · exact hstart h
          · exact hbody h
          · exact hlast h.symm
        by_cases hmore : pieces = []
        · subst hmore
          refine ⟨1, Nat.one_pos, ?_⟩
          have hne' : start ++ piece ≠ [] := by simp [hpiece]
          simp [all_of_notMem nl hclean hne']
        · obtain ⟨k, hk, hmem⟩ := ih hclean hmore fun p hp => hpieces p (by simp [hp])
          refine ⟨k + 1, Nat.succ_pos k, ?_⟩
          rw [List.take_succ_cons, List.flatten_cons, List.flatten_cons, ← List.append_assoc,
            ← List.append_assoc]
          exact hmem

/-- The length of the longest prefix that ends with the separator. -/
def completeLength (bs : List α) : ℕ := (terminated nl bs).flatten.length

lemma completeLength_le (bs : List α) : completeLength nl bs ≤ bs.length := by
  have h := congrArg List.length (flatten_terminated_append_rest nl bs)
  rw [List.length_append] at h
  unfold completeLength
  omega

lemma take_completeLength (bs : List α) :
    bs.take (completeLength nl bs) = (terminated nl bs).flatten := by
  have h : ((terminated nl bs).flatten ++ rest nl bs).take (completeLength nl bs)
      = (terminated nl bs).flatten := List.take_left' rfl
  rwa [flatten_terminated_append_rest] at h

lemma drop_completeLength (bs : List α) : bs.drop (completeLength nl bs) = rest nl bs := by
  have h : ((terminated nl bs).flatten ++ rest nl bs).drop (completeLength nl bs)
      = rest nl bs := List.drop_left' rfl
  rwa [flatten_terminated_append_rest] at h

/-- `completeLength` is the longest prefix that is empty or ends with the separator. -/
theorem isGreatest_completeLength (bs : List α) :
    IsGreatest {n | n ≤ bs.length ∧ (n = 0 ∨ (bs.take n).getLast? = some nl)}
      (completeLength nl bs) := by
  refine ⟨⟨completeLength_le nl bs, ?_⟩, ?_⟩
  · rw [take_completeLength, completeLength]
    rcases List.eq_nil_or_concat (terminated nl bs) with h | ⟨lines, line, h⟩
    · exact Or.inl (by rw [h]; rfl)
    · obtain ⟨body, hbody, -⟩ := isLine_of_mem_terminated nl bs line (by simp [h])
      exact Or.inr (by simp [h, hbody])
  · rintro n ⟨hle, hn⟩
    by_contra hlt
    have hlast : (bs.take n).getLast? = some nl := by
      rcases hn with h | h
      · omega
      · exact h
    -- past `completeLength` the prefix ends inside the rest, which has no separator
    have hsplit : bs.take n
        = (terminated nl bs).flatten ++ (rest nl bs).take (n - completeLength nl bs) := by
      conv_lhs => rw [← flatten_terminated_append_rest nl bs]
      rw [List.take_append, List.take_of_length_le (by unfold completeLength at hlt; omega)]
      rfl
    have hne : (rest nl bs).take (n - completeLength nl bs) ≠ [] := by
      have hlen := congrArg List.length (flatten_terminated_append_rest nl bs)
      rw [List.length_append] at hlen
      unfold completeLength at hlt ⊢
      intro hnil
      rw [List.take_eq_nil_iff] at hnil
      rcases hnil with h | h
      · omega
      · rw [h, List.length_nil] at hlen
        omega
    rw [hsplit, List.getLast?_append_of_ne_nil _ hne] at hlast
    exact notMem_rest nl bs (List.mem_of_mem_take (List.mem_of_getLast? hlast))

end Lines
