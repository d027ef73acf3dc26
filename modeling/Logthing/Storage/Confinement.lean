import Logthing.Core.Filepath
import Logthing.Storage.Partition

/-!
# Where `Append` writes

A message's `Source` and `Hostname` come from the network, and the partition is named after them.
The partition's path has four elements below the store's root: the year, the month and the day
the message was received on, and the sanitised source with its extension.  None of them can be
empty, lead out of its directory or be hidden, so the path stays below the root, and the walk of
`messageFiles` meets it again.

**Main results.**

* `plainName_sourceName`: what the sanitising makes of any source and any hostname.
* `append_confined`: the file an `Append` writes, and that it is listed afterwards.
-/

namespace Logthing

/-! ## The file name -/

/-- The characters `sourceFilename` leaves in a name. -/
def isNameChar (c : Char) : Bool := c.isAlphanum || c = '.' || c = '-' || c = '_'

/-- A file name without its extension: name characters, the outer ones a letter or a digit. -/
structure PlainName (name : List Char) : Prop where
  nonempty : name ≠ []
  chars : ∀ c ∈ name, isNameChar c = true
  first : ∀ c, name.head? = some c → c.isAlphanum = true
  last : ∀ c, name.getLast? = some c → c.isAlphanum = true

lemma plainName_unknown : PlainName "unknown".toList :=
  ⟨by decide, by decide, by decide, by decide⟩

/-- The letters and digits by their ranges. -/
lemma isAlphanum_eq (c : Char) : c.isAlphanum = (decide ('A' ≤ c ∧ c ≤ 'Z') ||
    decide ('a' ≤ c) && decide (c ≤ 'z') || decide ('0' ≤ c) && decide (c ≤ '9')) := rfl

lemma isNameChar_sanitizeRune (c : Char) : isNameChar (sanitizeRune c) = true := by
  rw [sanitizeRune]
  split_ifs with h
  · simp only [isNameChar, isAlphanum_eq]
    simp only [Bool.or_eq_true, Bool.and_eq_true, decide_eq_true_eq] at h ⊢
    tauto
  · decide

/-- What `strings.Trim(filename, "._-")` cuts off. -/
def isSeparator (c : Char) : Bool := c = '.' || c = '_' || c = '-'

lemma isAlphanum_of_not_separator {c : Char} (h : isNameChar c = true)
    (hsep : ¬isSeparator c = true) : c.isAlphanum = true := by
  simp only [isNameChar, isSeparator, Bool.or_eq_true, decide_eq_true_eq] at h hsep
  tauto

/-- Trimming separators off name characters leaves nothing, or a plain name. -/
lemma plainName_trimSeparators {s : List Char} (hs : ∀ c ∈ s, isNameChar c = true)
    (hne : trimSeparators s ≠ []) : PlainName (trimSeparators s) := by
  have htrim : trimSeparators s = (s.dropWhile isSeparator).rdropWhile isSeparator := rfl
  have hpre : trimSeparators s <+: s.dropWhile isSeparator := List.rdropWhile_prefix _ _
  have hchars : ∀ c ∈ trimSeparators s, isNameChar c = true := fun c hc =>
    hs c ((List.dropWhile_suffix _).subset (hpre.subset hc))
  refine ⟨hne, hchars, fun c hc => ?_, fun c hc => ?_⟩
  · obtain ⟨rest, hrest⟩ := hpre
    have hhead : (s.dropWhile isSeparator).head? = some c := by
      rw [← hrest, List.head?_append, hc]
      rfl
    have hnot := List.head?_dropWhile_not isSeparator s
    rw [hhead] at hnot
    exact isAlphanum_of_not_separator (hchars c (List.mem_of_head? hc)) (by simpa using hnot)
  · have hnot : ¬isSeparator ((trimSeparators s).getLast hne) = true := by
      simp only [htrim] at hne ⊢
      exact List.rdropWhile_last_not _ _ hne
    rw [List.getLast?_eq_some_getLast hne, Option.some.injEq] at hc
    rw [hc] at hnot
    exact isAlphanum_of_not_separator (hchars c (hc ▸ List.getLast_mem hne)) hnot

/-- **Whatever the source and the hostname are**, the partition has a plain name. -/
theorem plainName_sourceName (go : GoLib) (msg : Message) : PlainName (sourceName go msg) := by
  simp only [sourceName]
  split_ifs with hempty
  all_goals first
    | exact plainName_unknown
    | exact plainName_trimSeparators
        (fun c hc => by
          obtain ⟨r, -, rfl⟩ := List.mem_map.mp hc
          exact isNameChar_sanitizeRune r) ‹_›

lemma PlainName.noSlash {name : List Char} (h : PlainName name) : '/' ∉ name := fun hmem => by
  simpa [isNameChar] using h.chars '/' hmem

/-- An entry that is not hidden and whose name has no slash is an ordinary one. -/
lemma proper_of_not_hidden {elem : List Char} (hne : elem ≠ []) (hslash : '/' ∉ elem)
    (hhidden : elem.head? ≠ some '.') : Filepath.Proper elem where
  nonempty := hne
  noSlash := hslash
  notDot := by
    rintro rfl
    exact hhidden rfl
  notDotdot := by
    rintro rfl
    exact hhidden rfl

lemma not_hidden_sourceFilename (go : GoLib) (msg : Message) :
    (sourceFilename go msg).head? ≠ some '.' := by
  have hname := plainName_sourceName go msg
  rw [sourceFilename, List.head?_append_of_ne_nil _ hname.nonempty]
  intro hdot
  exact absurd (hname.first '.' hdot) (by decide)

lemma proper_sourceFilename (go : GoLib) (msg : Message) :
    Filepath.Proper (sourceFilename go msg) := by
  have hname := plainName_sourceName go msg
  refine proper_of_not_hidden (by simp [sourceFilename, hname.nonempty]) ?_
    (not_hidden_sourceFilename go msg)
  rw [sourceFilename, List.mem_append, not_or]
  exact ⟨hname.noSlash, by decide⟩

/-! ## The directories -/

/-- The year's, the month's and the day's directory of a time. -/
def dateDirs (t : Time) : List (List Char) :=
  let utc := Calendar.date (t / day)
  [Calendar.formatPadded 4 utc.year, Calendar.formatPadded 2 utc.month,
    Calendar.formatPadded 2 utc.day]

lemma not_hidden_of_isDecimal {s : List Char} (h : Calendar.IsDecimal s) : s.head? ≠ some '.' := by
  obtain ⟨digits, rfl | rfl, -, hdigits⟩ := h
  · exact fun hdot => absurd (hdigits '.' (List.mem_of_head? hdot)) (by decide)
  · simp

lemma proper_of_isDecimal {s : List Char} (h : Calendar.IsDecimal s) : Filepath.Proper s := by
  refine proper_of_not_hidden ?_ ?_ (not_hidden_of_isDecimal h)
  · obtain ⟨digits, rfl | rfl, hne, -⟩ := h
    · exact hne
    · exact List.cons_ne_nil _ _
  · obtain ⟨digits, rfl | rfl, -, hdigits⟩ := h
    · exact fun hmem => absurd (hdigits '/' hmem) (by decide)
    · simpa using fun hmem => absurd (hdigits '/' hmem) (by decide)

lemma isDecimal_dateDirs (t : Time) : ∀ dir ∈ dateDirs t, Calendar.IsDecimal dir := by
  intro dir hdir
  simp only [dateDirs, List.mem_cons, List.not_mem_nil, or_false] at hdir
  rcases hdir with rfl | rfl | rfl <;> exact Calendar.isDecimal_formatPadded _ _

/-! ## The path -/

/-- The elements of a partition's path below the root. -/
def partitionElements (go : GoLib) (msg : Message) : List (List Char) :=
  dateDirs msg.receivedAt ++ [sourceFilename go msg]

/-- `pathFor`, the root included. -/
def fullPathFor (root : String) (go : GoLib) (msg : Message) : List Char :=
  Filepath.join (root.toList :: partitionElements go msg)

/-- The path `filepath.WalkDir(root, ...)` reports for a file below the root: it starts with the
root as it was given and joins each entry's name. -/
def walkPath (root path : String) : List Char :=
  (path.toList.splitOn '/').foldl (fun dir name => Filepath.join [dir, name]) root.toList

lemma proper_partitionElements (go : GoLib) (msg : Message) :
    ∀ elem ∈ partitionElements go msg, Filepath.Proper elem := by
  intro elem helem
  rcases List.mem_append.mp helem with hdir | hfile
  · exact proper_of_isDecimal (isDecimal_dateDirs _ elem hdir)
  · rw [List.mem_singleton.mp hfile]
    exact proper_sourceFilename go msg

/-- The path below the root has these four elements. -/
lemma splitOn_pathFor (go : GoLib) (msg : Message) :
    (pathFor go msg).toList.splitOn '/' = partitionElements go msg := by
  have hjoined : (pathFor go msg).toList = ['/'].intercalate (partitionElements go msg) := by
    simp [pathFor, partitionElements, dateDirs]
  rw [hjoined]
  exact List.splitOn_intercalate '/' (fun e he => (proper_partitionElements go msg e he).noSlash)
    (by simp [partitionElements])

/-- The walk of `messageFiles` reports the path that `Append` opened. -/
lemma walkPath_pathFor (root : String) (go : GoLib) (msg : Message) :
    walkPath root (pathFor go msg) = fullPathFor root go msg := by
  rw [walkPath, splitOn_pathFor, fullPathFor]
  exact Filepath.foldl_join _ (by simp [partitionElements]) (proper_partitionElements go msg)

/-- An `Append`, failed or not, leaves every other file as it was. -/
lemma append_frame (go : GoLib) (now : Time) (fault : Fault) (disk : Disk) (msg : Message)
    {path : String} (hpath : path ≠ pathFor go (stamp now msg)) :
    (path ∈ (append go now fault disk msg).1.files ↔ path ∈ disk.files) ∧
      (append go now fault disk msg).1.data path = disk.data path := by
  rcases append_cases go now fault disk msg with
    ⟨record, -, -, happend⟩ | ⟨record, err, -, -, happend⟩ | ⟨err, -, happend⟩
  · rw [happend]
    exact ⟨by simp [mem_appended, hpath], by simp [data_appended, hpath]⟩
  · rw [happend]
    exact ⟨by simp [mem_appended, hpath], by simp [data_appended, hpath]⟩
  · rw [happend]
    exact ⟨Iff.rfl, rfl⟩

/-- A successful `Append` has its partition listed. -/
lemma mem_messageFiles_append (go : GoLib) (now : Time) (fault : Fault) (disk : Disk)
    (msg : Message) (hok : (append go now fault disk msg).2 = none) :
    pathFor go (stamp now msg) ∈ messageFiles (append go now fault disk msg).1 := by
  rcases append_cases go now fault disk msg with
    ⟨record, -, -, happend⟩ | ⟨record, err, -, -, happend⟩ | ⟨err, -, happend⟩
  · rw [happend, mem_messageFiles, mem_appended]
    exact ⟨Or.inl rfl, isPartition_pathFor _ _⟩
  · rw [happend] at hok
    exact absurd hok (by simp)
  · rw [happend] at hok
    exact absurd hok (by simp)

/-- **Partitions are confined and found again**: whatever the message says its source, its
hostname and its time are, an `Append` touches one file, `<year>/<month>/<day>/<name>.ndjson`
below the store's root, with a plain name and no hidden element; and once it has succeeded,
`messageFiles` lists that file under the path that was opened. -/
theorem append_confined (go : GoLib) (root : String) (now : Time) (fault : Fault) (disk : Disk)
    (msg : Message) :
    (∃ year month day name, dateDirs (stamp now msg).receivedAt = [year, month, day] ∧
      (∀ dir ∈ [year, month, day], Calendar.IsDecimal dir) ∧ PlainName name ∧
      Filepath.Below root.toList (fullPathFor root go (stamp now msg))
        [year, month, day, name ++ ".ndjson".toList] ∧
      ∀ elem ∈ [year, month, day, name ++ ".ndjson".toList], elem.head? ≠ some '.') ∧
    (∀ path, path ≠ pathFor go (stamp now msg) →
      (path ∈ (append go now fault disk msg).1.files ↔ path ∈ disk.files) ∧
        (append go now fault disk msg).1.data path = disk.data path) ∧
    walkPath root (pathFor go (stamp now msg)) = fullPathFor root go (stamp now msg) ∧
    ((append go now fault disk msg).2 = none →
      pathFor go (stamp now msg) ∈ messageFiles (append go now fault disk msg).1) := by
  refine ⟨⟨_, _, _, sourceName go (stamp now msg), rfl, isDecimal_dateDirs _,
    plainName_sourceName _ _, ?_, ?_⟩,
    fun path hpath => append_frame go now fault disk msg hpath, walkPath_pathFor root go _,
    mem_messageFiles_append go now fault disk msg⟩
  · exact Filepath.below_join root.toList (by simp [partitionElements])
      (proper_partitionElements go (stamp now msg))
  · intro elem helem
    have hcases : elem ∈ dateDirs (stamp now msg).receivedAt ∨
        elem = sourceFilename go (stamp now msg) := by
      simpa [dateDirs, sourceFilename, or_assoc] using helem
    rcases hcases with hdir | rfl
    · exact not_hidden_of_isDecimal (isDecimal_dateDirs _ elem hdir)
    · exact not_hidden_sourceFilename go _

end Logthing
