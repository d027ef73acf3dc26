import Mathlib.Data.List.DropRight
import Mathlib.Data.List.Infix
import Mathlib.Tactic.IntervalCases

/-!
# String functions over lists of characters

The handful of string operations a line-oriented recogniser is written with: trimming Unicode
white space, the first occurrence of a substring, and prefix and suffix removal.  Strings are
taken apart as lists of characters, so that slices are `take` and `drop`.
-/

namespace Text

-- A statement about the characters of a text is decided on them, not on all there are.

instance (priority := 2000) decidableForallMem (s : List Char) (p : Char → Prop) [DecidablePred p] :
    Decidable (∀ c ∈ s, p c) := List.decidableBAll p s

instance (priority := 2000) decidableExistsMem (s : List Char) (p : Char → Prop) [DecidablePred p] :
    Decidable (∃ c ∈ s, p c) := List.decidableBEx p s

instance (priority := 2000) decidableForallEqSome (o : Option Char) (p : Char → Prop)
    [DecidablePred p] : Decidable (∀ c, o = some c → p c) :=
  match o with
  | none => isTrue fun _ hc => nomatch hc
  | some a => decidable_of_iff (p a) ⟨fun h _ hc => Option.some.inj hc ▸ h, fun h => h a rfl⟩

/-- The Unicode `White_Space` property. -/
def isSpace (c : Char) : Bool :=
  c = ' ' || ('\t' ≤ c && c ≤ '\r') || c = '\u0085' || c = '\u00a0' || c = '\u1680' ||
    ('\u2000' ≤ c && c ≤ '\u200a') || c = '\u2028' || c = '\u2029' || c = '\u202f' ||
    c = '\u205f' || c = '\u3000'

/-- The control characters, `unicode.IsControl`. -/
def isControl (c : Char) : Bool := c < ' ' || ('\u007f' ≤ c && c ≤ '\u009f')

/-- Both ends without their white space. -/
def trimSpace (s : List Char) : List Char :=
  (s.dropWhile isSpace).rdropWhile isSpace

/-- Where `sub` first occurs in `s`. -/
def index (s sub : List Char) : Option ℕ :=
  s.tails.findIdx? fun t => sub.isPrefixOf t

def hasPrefix (s pre : List Char) : Bool := pre.isPrefixOf s

def hasSuffix (s suf : List Char) : Bool := suf.isSuffixOf s

def trimPrefix (s pre : List Char) : List Char :=
  if hasPrefix s pre then s.drop pre.length else s

def trimSuffix (s suf : List Char) : List Char :=
  if hasSuffix s suf then s.take (s.length - suf.length) else s

lemma isSpace_of_isDigit {c : Char} (h : c.isDigit = true) : isSpace c = false := by
  obtain ⟨hlow, hhigh⟩ := Char.isDigit_iff_toNat.mp h
  have hc : Char.ofNat c.toNat = c := Char.ofNat_toNat c
  change 48 ≤ c.toNat at hlow
  change c.toNat ≤ 57 at hhigh
  rw [← hc]
  interval_cases c.toNat <;> decide

/-- Decimal digits after an optional sign, of a value that fits in 64 bits. -/
def atoi (s : List Char) : Option ℤ :=
  let digits := if s.head? = some '-' ∨ s.head? = some '+' then s.tail else s
  if digits ≠ [] ∧ digits.all Char.isDigit then
    let magnitude : ℤ := Nat.ofDigitChars 10 digits 0
    let n := if s.head? = some '-' then -magnitude else magnitude
    if -2 ^ 63 ≤ n ∧ n < 2 ^ 63 then some n else none
  else none

lemma toString_negSucc (k : ℕ) :
    (toString (Int.negSucc k)).toList = '-' :: (toString (k + 1)).toList := by
  have hneg : toString (Int.negSucc k) = "-" ++ toString (k + 1) := rfl
  rw [hneg, String.toList_append]
  rfl

/-- A written number is made of digits and a sign. -/
lemma digit_or_minus_of_mem_toString {n : ℤ} {c : Char} (h : c ∈ (toString n).toList) :
    c.isDigit = true ∨ c = '-' := by
  have hdigits : ∀ {k : ℕ}, c ∈ (toString k).toList → c.isDigit = true := fun hc =>
    Nat.isDigit_of_mem_toDigits (by decide) (by decide) (Nat.toList_repr ▸ hc)
  cases n with
  | ofNat k => exact Or.inl (hdigits h)
  | negSucc k =>
      rw [toString_negSucc, List.mem_cons] at h
      exact h.symm.imp_left hdigits

lemma ofDigitChars_toString (k : ℕ) :
    (toString k).toList ≠ [] ∧ (toString k).toList.all Char.isDigit = true ∧
      Nat.ofDigitChars 10 (toString k).toList 0 = k := by
  have hdigits : (toString k).toList = Nat.toDigits 10 k := Nat.toList_repr
  rw [hdigits]
  exact ⟨Nat.toDigits_ne_nil,
    List.all_eq_true.mpr fun c hc => Nat.isDigit_of_mem_toDigits (by decide) (by decide) hc,
    Nat.ofDigitChars_ten_toDigits⟩

/-- A number that fits is read as it is written. -/
lemma atoi_toString_int {n : ℤ} (hlow : -2 ^ 63 ≤ n) (hhigh : n < 2 ^ 63) :
    atoi (toString n).toList = some n := by
  cases n with
  | ofNat k =>
      obtain ⟨hne, hall, hvalue⟩ := ofDigitChars_toString k
      have hsign : ∀ c, c.isDigit = false → (toString k).toList.head? ≠ some c := by
        intro c hc hhead
        rw [List.all_eq_true.mp hall c (List.mem_of_head? hhead)] at hc
        cases hc
      have htext : (toString (Int.ofNat k)).toList = (toString k).toList := rfl
      rw [atoi, htext, if_neg (not_or.mpr ⟨hsign '-' (by decide), hsign '+' (by decide)⟩),
        if_pos ⟨hne, hall⟩]
      simp only [if_neg (hsign '-' (by decide)), hvalue]
      exact if_pos ⟨hlow, hhigh⟩
  | negSucc k =>
      obtain ⟨hne, hall, hvalue⟩ := ofDigitChars_toString (k + 1)
      rw [atoi, toString_negSucc, List.head?_cons, if_pos (Or.inl rfl), List.tail_cons,
        if_pos ⟨hne, hall⟩]
      simp only [if_true, hvalue]
      exact if_pos ⟨hlow, hhigh⟩

lemma atoi_toString {n : ℕ} (h : n < 2 ^ 63) : atoi (toString n).toList = some (n : ℤ) :=
  atoi_toString_int (n := n) (by omega) (by exact_mod_cast h)

/-- A text has an index exactly where it occurs. -/
lemma index_isSome {s sub : List Char} : (index s sub).isSome ↔ sub <:+: s := by
  rw [index, List.findIdx?_isSome, List.any_eq_true, List.infix_iff_prefix_suffix]
  refine exists_congr fun t => ?_
  rw [List.mem_tails, List.isPrefixOf_iff_prefix, and_comm]

lemma index_eq_some_iff {s sub : List Char} {i : ℕ} :
    index s sub = some i ↔ i ≤ s.length ∧ sub <+: s.drop i ∧ ∀ j < i, ¬sub <+: s.drop j := by
  rw [index, List.findIdx?_eq_some_iff_getElem]
  simp only [List.getElem_tails, List.isPrefixOf_iff_prefix, List.length_tails]
  constructor
  · rintro ⟨hlt, hpre, hfirst⟩
    exact ⟨Nat.lt_succ_iff.mp hlt, hpre, hfirst⟩
  · rintro ⟨hle, hpre, hfirst⟩
    exact ⟨Nat.lt_succ_iff.mpr hle, hpre, hfirst⟩

/-- A text whose first character does not occur before it has its index there. -/
lemma index_append {pre sub : List Char} {c : Char} (hhead : sub.head? = some c) (hc : c ∉ pre)
    (rest : List Char) : index (pre ++ (sub ++ rest)) sub = some pre.length := by
  rw [index_eq_some_iff]
  refine ⟨by simp, by simp, fun j hj hpre => hc ?_⟩
  rw [List.drop_append_of_le_length hj.le] at hpre
  cases hdrop : pre.drop j with
  | nil =>
      have hlength := congrArg List.length hdrop
      rw [List.length_drop, List.length_nil] at hlength
      omega
  | cons a t =>
      obtain ⟨t', rfl⟩ := List.head?_eq_some_iff.mp hhead
      rw [hdrop, List.cons_append, List.cons_prefix_cons] at hpre
      rw [hpre.1]
      exact List.mem_of_mem_drop (hdrop ▸ List.mem_cons_self)

/-- A text is what precedes an occurrence, the occurrence and what follows it. -/
lemma eq_of_index {s sub : List Char} {i : ℕ} (h : index s sub = some i) :
    s = s.take i ++ (sub ++ s.drop (i + sub.length)) := by
  obtain ⟨rest, hrest⟩ := (index_eq_some_iff.mp h).2.1
  have hdrop : s.drop (i + sub.length) = rest := by
    rw [← List.drop_drop, ← hrest, List.drop_left]
  rw [hdrop, hrest, List.take_append_drop]

/-- A beginning and an end that do not overlap leave a middle. -/
lemma exists_middle {before after s : List Char} {c : Char} (hhead : after.head? = some c)
    (hc : c ∉ before) (hpre : before <+: s) (hsuf : after <:+ s) :
    ∃ middle, s = before ++ (middle ++ after) := by
  obtain ⟨rest, rfl⟩ := hpre
  obtain ⟨front, hfront⟩ := hsuf
  rcases List.append_eq_append_iff.mp hfront with ⟨overlap, hbefore, hafter⟩ | ⟨middle, -, hrest⟩
  · cases overlap with
    | nil => exact ⟨[], by rw [List.nil_append, hafter, List.nil_append]⟩
    | cons a overlap =>
        rw [hafter, List.cons_append, List.head?_cons, Option.some.injEq] at hhead
        exact absurd (by rw [hbefore, ← hhead]; simp) hc
  · exact ⟨middle, by rw [hrest]⟩

lemma trimSuffix_trimPrefix (before middle after : List Char) :
    trimSuffix (trimPrefix (before ++ (middle ++ after)) before) after = middle := by
  have hpre : hasPrefix (before ++ (middle ++ after)) before = true :=
    List.isPrefixOf_iff_prefix.mpr (List.prefix_append _ _)
  have hsuf : hasSuffix (middle ++ after) after = true :=
    List.isSuffixOf_iff_suffix.mpr (List.suffix_append _ _)
  rw [trimPrefix, if_pos hpre, List.drop_left, trimSuffix, if_pos hsuf, List.length_append,
    Nat.add_sub_cancel, List.take_left]

/-! ### Trimmed text -/

/-- White space does not end the text. -/
def Ends (s : List Char) : Prop := ∀ c, s.getLast? = some c → isSpace c = false

instance (s : List Char) : Decidable (Ends s) :=
  inferInstanceAs (Decidable (∀ c, s.getLast? = some c → isSpace c = false))

lemma ends_trimSpace (s : List Char) : Ends (trimSpace s) := by
  intro c hc
  have hne : trimSpace s ≠ [] := fun hnil => by simp [hnil] at hc
  rw [List.getLast?_eq_some_getLast hne, Option.some.injEq] at hc
  have hlast := List.rdropWhile_last_not _ _ hne
  simp only [trimSpace] at hc
  rw [hc] at hlast
  simpa using hlast

lemma Ends.of_append {pre s : List Char} (h : Ends (pre ++ s)) (hne : s ≠ []) : Ends s := by
  intro c hc
  exact h c (by rw [List.getLast?_append_of_ne_nil _ hne, hc])

lemma rdropWhile_of_ends {s : List Char} (h : Ends s) : s.rdropWhile isSpace = s := by
  rw [List.rdropWhile_eq_self_iff]
  intro hne
  simp [h _ (List.getLast?_eq_some_getLast hne)]

/-- Text whose end is not white space is trimmed at its beginning only. -/
lemma trimSpace_of_ends {s : List Char} (h : Ends s) : trimSpace s = s.dropWhile isSpace := by
  rw [trimSpace]
  by_cases hnil : s.dropWhile isSpace = []
  · rw [hnil]
    rfl
  · refine rdropWhile_of_ends ?_
    rw [← List.takeWhile_append_dropWhile (p := isSpace) (l := s)] at h
    exact h.of_append hnil

/-- **Leading white space** is all that trimming takes off. -/
lemma eq_append_of_trimSpace {s word : List Char} (h : Ends s) (htrim : trimSpace s = word) :
    ∃ spaces, (∀ c ∈ spaces, isSpace c = true) ∧ s = spaces ++ word := by
  rw [trimSpace_of_ends h] at htrim
  refine ⟨s.takeWhile isSpace, fun c hc => List.mem_takeWhile_imp hc, ?_⟩
  rw [← htrim, List.takeWhile_append_dropWhile]

lemma trimSpace_append {spaces word : List Char} (hspaces : ∀ c ∈ spaces, isSpace c = true)
    (hfirst : ∀ c, word.head? = some c → isSpace c = false) (hends : Ends word) :
    trimSpace (spaces ++ word) = word := by
  have hdrop : word.dropWhile isSpace = word := by
    cases word with
    | nil => rfl
    | cons c word => exact List.dropWhile_cons_of_neg (by simp [hfirst c rfl])
  rw [trimSpace, List.dropWhile_append_of_pos hspaces, hdrop, rdropWhile_of_ends hends]

/-- Text without white space is not trimmed. -/
lemma trimSpace_of_none {s : List Char} (h : ∀ c ∈ s, isSpace c = false) : trimSpace s = s := by
  have hends : Ends s := fun c hc => h c (List.mem_of_getLast? hc)
  have hnospace : ∀ c ∈ ([] : List Char), isSpace c = true := fun c hc => nomatch hc
  exact trimSpace_append hnospace (fun c hc => h c (List.mem_of_head? hc)) hends

/-- What occurs in two texts put together occurs in one of them, or begins in the first and ends
in the second. -/
lemma infix_append_iff {α : Type*} {sub a b : List α} :
    sub <:+: a ++ b ↔ sub <:+: a ∨ sub <:+: b ∨
      ∃ u v, u ≠ [] ∧ v ≠ [] ∧ sub = u ++ v ∧ u <:+ a ∧ v <+: b := by
  constructor
  · rintro ⟨pre, post, h⟩
    rcases List.append_eq_append_iff.mp h with ⟨rest, ha, -⟩ | ⟨v, hsub, rfl⟩
    · exact Or.inl ⟨pre, rest, ha.symm⟩
    · rcases List.append_eq_append_iff.mp hsub with ⟨u, rfl, rfl⟩ | ⟨rest, rfl, rfl⟩
      · by_cases hu : u = []
        · exact Or.inr (Or.inl ⟨[], post, by simp [hu]⟩)
        · by_cases hv : v = []
          · exact Or.inl ⟨pre, [], by simp [hv]⟩
          · exact Or.inr (Or.inr ⟨u, v, hu, hv, rfl, List.suffix_append _ _,
              List.prefix_append _ _⟩)
      · exact Or.inr (Or.inl (List.infix_append _ _ _))
  · rintro (h | h | ⟨u, v, -, -, rfl, ⟨pre, rfl⟩, ⟨post, rfl⟩⟩)
    · exact List.infix_append_of_infix_left h
    · exact List.infix_append_of_infix_right h
    · exact ⟨pre, post, by simp⟩

/-- `s` cut at its first `n` occurrences of `c`. -/
def splitN (c : Char) : ℕ → List Char → List (List Char)
  | 0, s => [s]
  | n + 1, s =>
      match s.dropWhile (· ≠ c) with
      | [] => [s]
      | _ :: rest => s.takeWhile (· ≠ c) :: splitN c n rest

lemma splitN_append {c : Char} {x : List Char} (hx : c ∉ x) (n : ℕ) (y : List Char) :
    splitN c (n + 1) (x ++ c :: y) = x :: splitN c n y := by
  have hkeep : ∀ a ∈ x, decide (a ≠ c) = true := fun a ha => by
    simp only [ne_eq, decide_eq_true_eq]
    rintro rfl
    exact hx ha
  have hdrop : (x ++ c :: y).dropWhile (· ≠ c) = c :: y := by
    rw [List.dropWhile_append_of_pos hkeep]
    simp
  have htake : (x ++ c :: y).takeWhile (· ≠ c) = x := by
    rw [List.takeWhile_append_of_pos hkeep]
    simp
  simp only [splitN, hdrop, htake]

/-- Fields without `c` in them are what the text they are joined to is cut into; the last field
is not cut. -/
lemma splitN_intercalate {c : Char} {fields : List (List Char)} (h : ∀ f ∈ fields, c ∉ f)
    (last : List Char) :
    splitN c fields.length ([c].intercalate (fields ++ [last])) = fields ++ [last] := by
  induction fields with
  | nil => simp [splitN]
  | cons field fields ih =>
      rw [List.cons_append, List.intercalate_cons_of_ne_nil (by simp), List.append_assoc,
        List.singleton_append, List.length_cons, splitN_append (h field List.mem_cons_self),
        ih fun f hf => h f (List.mem_cons_of_mem _ hf)]

/-- Two texts cut at their first `c` are equal piece by piece. -/
lemma cut_inj {c : Char} {x x' y y' : List Char} (hx : c ∉ x) (hx' : c ∉ x')
    (h : x ++ c :: y = x' ++ c :: y') : x = x' ∧ y = y' := by
  induction x generalizing x' with
  | nil =>
      cases x' with
      | nil => exact ⟨rfl, (List.cons.inj h).2⟩
      | cons a x' => exact absurd (List.mem_cons.mpr (Or.inl (List.cons.inj h).1)) hx'
  | cons a x ih =>
      cases x' with
      | nil => exact absurd (List.mem_cons.mpr (Or.inl (List.cons.inj h).1.symm)) hx
      | cons a' x' =>
          obtain ⟨rfl, htail⟩ := List.cons.inj h
          obtain ⟨rfl, hy⟩ := ih (fun hmem => hx (List.mem_cons_of_mem _ hmem))
            (fun hmem => hx' (List.mem_cons_of_mem _ hmem)) htail
          exact ⟨rfl, hy⟩

/-- Two texts cut at their last `c` are equal piece by piece. -/
lemma cut_last_inj {c : Char} {x x' y y' : List Char} (hy : c ∉ y) (hy' : c ∉ y')
    (h : x ++ c :: y = x' ++ c :: y') : x = x' ∧ y = y' := by
  have hreverse : y.reverse ++ c :: x.reverse = y'.reverse ++ c :: x'.reverse := by
    simpa using congrArg List.reverse h
  obtain ⟨h₁, h₂⟩ := cut_inj (by simpa using hy) (by simpa using hy') hreverse
  exact ⟨List.reverse_injective h₂, List.reverse_injective h₁⟩

/-- Two texts that agree before a field and right behind it, where the field ends at the first
`c`, are equal piece by piece. -/
lemma field_inj {c : Char} {pre mid x x' y y' : List Char} (hmid : mid.head? = some c)
    (hx : c ∉ x) (hx' : c ∉ x') (h : pre ++ x ++ mid ++ y = pre ++ x' ++ mid ++ y') :
    x = x' ∧ y = y' := by
  obtain ⟨t, rfl⟩ := List.head?_eq_some_iff.mp hmid
  simp only [List.append_assoc, List.cons_append, List.append_cancel_left_eq] at h
  obtain ⟨hfield, hrest⟩ := cut_inj hx hx' h
  exact ⟨hfield, List.append_cancel_left hrest⟩

/-- A field between quotes, in texts that go on with a space and then differently. -/
lemma quoted_inj {pre x x' s s' t t' : List Char} (hx : ' ' ∉ x) (hx' : ' ' ∉ x')
    (hs : s = '\'' :: ' ' :: t) (hs' : s' = '\'' :: ' ' :: t')
    (h : pre ++ x ++ s = pre ++ x' ++ s') : x = x' ∧ s = s' := by
  subst hs hs'
  have hcut : (x ++ ['\'']) ++ ' ' :: t = (x' ++ ['\'']) ++ ' ' :: t' := by
    simpa using h
  have hquote : ∀ {y : List Char}, ' ' ∉ y → ' ' ∉ y ++ ['\''] := fun hy hmem => by
    simp [hy] at hmem
  obtain ⟨hfield, hrest⟩ := cut_inj (hquote hx) (hquote hx') hcut
  exact ⟨List.append_cancel_right hfield, by rw [hrest]⟩

end Text
