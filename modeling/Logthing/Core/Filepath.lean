import Mathlib.Data.List.Basic
import Mathlib.Data.List.Induction

/-!
# Slash-separated paths

`filepath.Clean` and `filepath.Join` of a Unix system, over lists of characters.  A path is a flag,
whether it starts at the root of the file system, and the elements between its slashes; `clean`
works on these, and `elements` is what is left of them when empty elements and `.` are dropped and
each `..` has removed the element before it.

**Main results.**

* `join_proper`: joining elements that are plain names adds exactly these elements at the end.
* `elements_render`: a path written from its elements has these elements again.
* `foldl_join`: a tree walk, which joins one name at a time, reports the path that one `Join` of
  all names gives.
-/

namespace Filepath

/-- The parent directory's name. -/
def dotdot : List Char := ['.', '.']

/-- One element of a path, on top of the elements `Clean` has kept so far (the last one first). -/
def push (rooted : Bool) (kept : List (List Char)) (elem : List Char) : List (List Char) :=
  if elem = [] ∨ elem = ['.'] then kept
  else if elem = dotdot then
    match kept with
    | [] => if rooted then [] else [dotdot]
    | last :: rest => if last = dotdot then dotdot :: last :: rest else rest
  else elem :: kept

/-- Whether a path starts at the root of the file system. -/
def rooted (path : List Char) : Bool := path.head? = some '/'

/-- The elements `Clean` leaves of a path. -/
def elements (path : List Char) : List (List Char) :=
  ((path.splitOn '/').foldl (push (rooted path)) []).reverse

/-- The path with given elements. -/
def render (rooted : Bool) (elems : List (List Char)) : List Char :=
  if rooted then '/' :: ['/'].intercalate elems
  else if elems = [] then ['.'] else ['/'].intercalate elems

/-- `filepath.Clean`. -/
def clean (path : List Char) : List Char := render (rooted path) (elements path)

/-- `filepath.Join`: leading empty elements are skipped. -/
def join (elem : List (List Char)) : List Char :=
  let given := elem.dropWhile (· = [])
  if given = [] then [] else clean (['/'].intercalate given)

example : clean "/data//logs/./../x/".toList = "/data/x".toList := by decide
example : clean "../a/../../b".toList = "../../b".toList := by decide
example : join ["".toList, "a".toList, "..".toList] = ".".toList := by decide

lemma push_skip {flag : Bool} {kept : List (List Char)} {elem : List Char}
    (h : elem = [] ∨ elem = ['.']) : push flag kept elem = kept := if_pos h

lemma push_dotdot_nil (flag : Bool) : push flag [] dotdot = if flag then [] else [dotdot] := by
  cases flag <;> decide

lemma push_dotdot_cons (flag : Bool) (last : List Char) (rest : List (List Char)) :
    push flag (last :: rest) dotdot
      = if last = dotdot then dotdot :: last :: rest else rest := rfl

lemma push_name {flag : Bool} {kept : List (List Char)} {elem : List Char}
    (hskip : ¬(elem = [] ∨ elem = ['.'])) (hup : elem ≠ dotdot) :
    push flag kept elem = elem :: kept := by
  simp only [push, hskip, hup, if_false]

/-- An element that names an entry of its directory. -/
structure Proper (elem : List Char) : Prop where
  nonempty : elem ≠ []
  noSlash : '/' ∉ elem
  notDot : elem ≠ ['.']
  notDotdot : elem ≠ dotdot

/-- A path below a directory: the directory's elements, and then plain names. -/
def Below (dir path : List Char) (names : List (List Char)) : Prop :=
  rooted path = rooted dir ∧ elements path = elements dir ++ names ∧ ∀ name ∈ names, Proper name

/-! ## Cleaning keeps what is clean -/

/-- Elements as `Clean` leaves them, the last one first: no empty one, no `.`, and `..` only in
front of all names of a path that is not rooted. -/
def Settled (rooted : Bool) : List (List Char) → Prop
  | [] => True
  | elem :: rest =>
      elem ≠ [] ∧ elem ≠ ['.'] ∧ '/' ∉ elem ∧
        (elem = dotdot → rooted = false ∧ ∀ other ∈ rest, other = dotdot) ∧ Settled rooted rest

lemma Settled.push {flag : Bool} {kept : List (List Char)} (h : Settled flag kept)
    {elem : List Char} (helem : '/' ∉ elem) : Settled flag (push flag kept elem) := by
  by_cases hskip : elem = [] ∨ elem = ['.']
  · rwa [push_skip hskip]
  · by_cases hup : elem = dotdot
    · subst hup
      cases kept with
      | nil =>
          cases flag with
          | true => exact trivial
          | false => exact ⟨by decide, by decide, by decide, fun _ => ⟨rfl, by simp⟩, trivial⟩
      | cons last rest =>
          obtain ⟨-, -, -, hlast, hrest⟩ := id h
          rw [push_dotdot_cons]
          split_ifs with hdot
          · obtain ⟨hflag, hall⟩ := hlast hdot
            exact ⟨by decide, by decide, by decide,
              fun _ => ⟨hflag, by simpa [hdot] using hall⟩, h⟩
          · exact hrest
    · rw [push_name hskip hup]
      rw [not_or] at hskip
      exact ⟨hskip.1, hskip.2, helem, fun hdot => absurd hdot hup, h⟩

lemma Settled.foldl {flag : Bool} {elems : List (List Char)} (helems : ∀ e ∈ elems, '/' ∉ e) :
    ∀ {kept : List (List Char)}, Settled flag kept →
      Settled flag (elems.foldl (Filepath.push flag) kept) := by
  induction elems with
  | nil => exact fun h => h
  | cons elem elems ih =>
      intro kept h
      exact ih (fun e he => helems e (List.mem_cons_of_mem _ he))
        (h.push (helems elem List.mem_cons_self))

lemma not_mem_of_mem_splitOn (path : List Char) : ∀ e ∈ path.splitOn '/', '/' ∉ e := by
  induction path with
  | nil => simp
  | cons c path ih =>
      rw [List.splitOn_cons_eq_if_modifyHead]
      split_ifs with hc
      · simpa using ih
      · cases hsplit : path.splitOn '/' with
        | nil => exact absurd hsplit (List.splitOn_ne_nil _ _)
        | cons first rest =>
            rw [hsplit] at ih
            have hslash : '/' ≠ c := fun heq => hc (by rw [heq, beq_self_eq_true])
            simpa [List.modifyHead, hslash] using ih

/-- What `Clean` keeps of a path is settled. -/
lemma settled_elements (path : List Char) :
    Settled (rooted path) (elements path).reverse := by
  rw [elements, List.reverse_reverse]
  exact Settled.foldl (not_mem_of_mem_splitOn path) trivial

/-- Settled elements are all kept. -/
lemma foldl_push_settled {flag : Bool} {kept : List (List Char)} (h : Settled flag kept) :
    kept.reverse.foldl (push flag) [] = kept := by
  induction kept with
  | nil => rfl
  | cons elem rest ih =>
      obtain ⟨hne, hdot, -, hup, hrest⟩ := h
      rw [List.reverse_cons, List.foldl_append, ih hrest, List.foldl_cons, List.foldl_nil]
      by_cases hdd : elem = dotdot
      · subst hdd
        obtain ⟨hflag, hall⟩ := hup rfl
        cases rest with
        | nil => rw [push_dotdot_nil, hflag, if_neg (by simp)]
        | cons last rest => rw [push_dotdot_cons, if_pos (hall last List.mem_cons_self)]
      · exact push_name (by simp [hne, hdot]) hdd

lemma Settled.noSlash {flag : Bool} {kept : List (List Char)} (h : Settled flag kept) :
    ∀ elem ∈ kept, elem ≠ [] ∧ '/' ∉ elem := by
  induction kept with
  | nil => simp
  | cons elem rest ih =>
      obtain ⟨hne, -, hslash, -, hrest⟩ := h
      simpa [hne, hslash] using ih hrest

/-- The first character of non-empty elements is not a slash. -/
lemma rooted_intercalate {elems : List (List Char)} (h : ∀ e ∈ elems, e ≠ [] ∧ '/' ∉ e) :
    rooted (['/'].intercalate elems) = false := by
  cases elems with
  | nil => rfl
  | cons elem rest =>
      obtain ⟨hne, hslash⟩ := h elem List.mem_cons_self
      cases elem with
      | nil => exact absurd rfl hne
      | cons c cs =>
          have hc : c ≠ '/' := fun heq => hslash (by simp [heq])
          simp [rooted, hc]

lemma rooted_render {flag : Bool} {elems : List (List Char)}
    (h : ∀ e ∈ elems, e ≠ [] ∧ '/' ∉ e) : rooted (render flag elems) = flag := by
  rw [render]
  split_ifs with hflag hnil
  · simp [rooted, hflag]
  · simp [rooted, hflag]
  · rw [rooted_intercalate h]
    simp [hflag]

/-- The elements of a rendered path are the ones it was rendered from. -/
lemma elements_render {flag : Bool} {elems : List (List Char)} (h : Settled flag elems.reverse) :
    elements (render flag elems) = elems := by
  have hnames : ∀ e ∈ elems, e ≠ [] ∧ '/' ∉ e := fun e he =>
    h.noSlash e (List.mem_reverse.mpr he)
  have hfold : elems.foldl (push flag) [] = elems.reverse := by
    simpa using foldl_push_settled h
  have hskip : push flag [] [] = [] := by simp [push]
  have hsplit : elems ≠ [] → (['/'].intercalate elems).splitOn '/' = elems :=
    List.splitOn_intercalate '/' fun e he => (hnames e he).2
  rw [elements, rooted_render hnames, render]
  by_cases hnil : elems = []
  · subst hnil
    cases flag with
    | true => decide
    | false => decide
  · cases flag with
    | true =>
        rw [if_pos rfl, List.splitOn_cons_eq_if_modifyHead, if_pos (by simp), hsplit hnil,
          List.foldl_cons, hskip, hfold, List.reverse_reverse]
    | false =>
        rw [if_neg (by simp), if_neg hnil, hsplit hnil, hfold, List.reverse_reverse]

/-! ## Joining plain names -/

lemma foldl_push_proper (flag : Bool) {elems : List (List Char)} (h : ∀ e ∈ elems, Proper e) :
    ∀ kept, elems.foldl (push flag) kept = elems.reverse ++ kept := by
  induction elems with
  | nil => simp
  | cons elem elems ih =>
      intro kept
      have helem := h elem List.mem_cons_self
      rw [List.foldl_cons, ih (fun e he => h e (List.mem_cons_of_mem _ he)),
        push_name (by simp [helem.nonempty, helem.notDot]) helem.notDotdot,
        List.reverse_cons, List.append_assoc, List.singleton_append]

/-- **Joining plain names** to a directory adds them to its elements. -/
theorem join_proper (dir : List Char) {elems : List (List Char)} (hne : elems ≠ [])
    (h : ∀ e ∈ elems, Proper e) :
    join (dir :: elems) = render (rooted dir) (elements dir ++ elems) := by
  have hsplit : (['/'].intercalate elems).splitOn '/' = elems :=
    List.splitOn_intercalate '/' (fun e he => (h e he).noSlash) hne
  by_cases hdir : dir = []
  · subst hdir
    have hrooted : rooted (['/'].intercalate elems) = false :=
      rooted_intercalate fun e he => ⟨(h e he).nonempty, (h e he).noSlash⟩
    have hgiven : elems.dropWhile (· = []) = elems := by
      cases elems with
      | nil => rfl
      | cons e rest =>
          exact List.dropWhile_cons_of_neg (by simpa using (h e List.mem_cons_self).nonempty)
    rw [join, List.dropWhile_cons_of_pos (by simp), hgiven]
    simp only [hne, if_false]
    rw [clean, elements, hrooted, hsplit, foldl_push_proper false h]
    simp [elements, rooted, push]
  · have hrooted : rooted (dir ++ '/' :: ['/'].intercalate elems) = rooted dir := by
      cases dir with
      | nil => exact absurd rfl hdir
      | cons c cs => rfl
    rw [join, List.dropWhile_cons_of_neg (by simpa using hdir)]
    simp only [reduceCtorEq, if_false]
    rw [List.intercalate_cons_of_ne_nil hne, List.append_assoc, List.singleton_append, clean,
      elements, hrooted, List.splitOn_append_cons_self, hsplit, List.foldl_append,
      foldl_push_proper _ h, List.reverse_append, List.reverse_reverse, elements]

lemma Settled.append_proper {flag : Bool} {elems kept : List (List Char)} (h : Settled flag kept)
    (hproper : ∀ e ∈ elems, Proper e) : Settled flag (elems ++ kept) := by
  induction elems with
  | nil => exact h
  | cons elem elems ih =>
      have helem := hproper elem List.mem_cons_self
      exact ⟨helem.nonempty, helem.notDot, helem.noSlash,
        fun hdot => absurd hdot helem.notDotdot,
        ih fun e he => hproper e (List.mem_cons_of_mem _ he)⟩

/-- The joined path lies below the directory, under these names. -/
lemma below_join (dir : List Char) {elems : List (List Char)} (hne : elems ≠ [])
    (h : ∀ e ∈ elems, Proper e) : Below dir (join (dir :: elems)) elems := by
  have hsettled : Settled (rooted dir) (elements dir ++ elems).reverse := by
    rw [List.reverse_append]
    exact (settled_elements dir).append_proper fun e he => h e (List.mem_reverse.mp he)
  rw [join_proper dir hne h]
  exact ⟨rooted_render fun e he => hsettled.noSlash e (List.mem_reverse.mpr he),
    elements_render hsettled, h⟩

/-- **Walking a tree** joins one name at a time, with the same result. -/
theorem foldl_join (dir : List Char) {elems : List (List Char)} (hne : elems ≠ [])
    (h : ∀ e ∈ elems, Proper e) :
    elems.foldl (fun path name => join [path, name]) dir = join (dir :: elems) := by
  induction elems using List.reverseRecOn with
  | nil => exact absurd rfl hne
  | append_singleton elems name ih =>
      have hname : ∀ e ∈ [name], Proper e := by
        simpa using h name (by simp)
      rw [List.foldl_append, List.foldl_cons, List.foldl_nil]
      by_cases hnil : elems = []
      · rw [hnil]
        rfl
      · have hproper : ∀ e ∈ elems, Proper e := fun e he => h e (List.mem_append_left _ he)
        obtain ⟨hrooted, helements, -⟩ := below_join dir hnil hproper
        rw [ih hnil hproper, join_proper _ (by simp) hname, hrooted, helements,
          join_proper dir hne h, List.append_assoc]

end Filepath
