import Mathlib.Data.Finset.Sort
import Mathlib.Data.String.Basic
import Logthing.Core.Calendar
import Logthing.Core.Dict
import Logthing.Core.Text
import Logthing.Model.Message

/-!
# Partitions on disk and `FileStore.Append`

The store is a directory of `.ndjson` partitions, one JSON record a line, at
`<year>/<month>/<day>/<source>.ndjson`.  `Disk` is that directory; a path is relative to the
store's root, which changes neither the order of paths nor which of them are partitions.

`GoLib` collects the standard-library functions the store calls.  What a result relies on about
them is stated where it is used (`GoLib.Framed` and its neighbours), so that a theorem lists only
what it needs.

`append` is `FileStore.Append` with the failures the environment can inject: each system call may
fail, and a failing write may leave any prefix of the record behind.
-/

namespace Logthing

/-- The bytes of a file. -/
abbrev Bytes := List UInt8

/-- The byte `'\n'`. -/
def newline : UInt8 := 10

/-- The standard-library functions the store is written with. -/
structure GoLib where
  /-- `json.NewEncoder(&buf).Encode(msg)`, or the text of the error. -/
  encode : Message → Except String Bytes
  /-- `json.Unmarshal(line, &message)`. -/
  decode : Bytes → Except String Message
  /-- `json.Unmarshal(line, &key)` into the index key's two fields. -/
  decodeKey : Bytes → Except String (Time × String)
  /-- `net.SplitHostPort`: the host, when there is no error. -/
  splitHostPort : String → Option String
  /-- `fmt.Sprintf("%x", sha256.Sum256(data))`. -/
  sha256 : Bytes → String
  /-- `strings.ToLower`. -/
  toLower : String → String
  /-- `regexp.Compile("(?i)" + expression)` and its `MatchString`. -/
  regexp : String → Except String (String → Bool)
  /-- `json.Marshal` of a `map[string]any`. -/
  marshal : JsonMap → Option String

namespace GoLib

/-- `Encoder.Encode` writes one line: its only line feed is the one at the end. -/
def Framed (go : GoLib) : Prop :=
  ∀ msg record, go.encode msg = .ok record →
    ∃ body, record = body ++ [newline] ∧ newline ∉ body ∧ body ≠ []

/-- The two fields of the index key are decoded as the whole message's are. -/
def KeyAgrees (go : GoLib) : Prop :=
  ∀ line msg, go.decode line = .ok msg →
    go.decodeKey line = .ok (msg.receivedAt, msg.hostname)

/-- A non-empty prefix of a record that `Encode` wrote. -/
def Fragment (go : GoLib) (piece : Bytes) : Prop :=
  piece ≠ [] ∧ ∃ msg record, go.encode msg = .ok record ∧ piece <+: record

/-- Record fragments one after the other are not a JSON text: an object cannot be continued by
another one. -/
def RejectsGlued (go : GoLib) : Prop :=
  ∀ pieces : List Bytes, 2 ≤ pieces.length → (∀ piece ∈ pieces, go.Fragment piece) →
    ∃ cause, go.decodeKey pieces.flatten = .error cause

/-- A line that is a JSON text already is none any more once record fragments follow it. -/
def RejectsTrailing (go : GoLib) : Prop :=
  ∀ (line : Bytes) (key : Time × String) (pieces : List Bytes), go.decodeKey line = .ok key →
    newline ∉ line → pieces ≠ [] → (∀ piece ∈ pieces, go.Fragment piece) →
    ∃ cause, go.decodeKey (line ++ pieces.flatten) = .error cause

end GoLib

/-! ## Files -/

/-- One file, with what `os.Stat` shows of it: `os.SameFile` compares `inode`. -/
structure File where
  inode : ℕ
  modTime : Time
  data : Bytes

/-- The files under the store's root, by slash-separated relative path. -/
structure Disk where
  files : Dict String File
  nextInode : ℕ

namespace Disk

/-- An empty data directory. -/
def empty : Disk := ⟨∅, 0⟩

/-- The contents of a file; a file that does not exist has none. -/
def data (disk : Disk) (path : String) : Bytes :=
  ((disk.files.lookup path).map File.data).getD []

/-- `os.OpenFile(path, O_APPEND|O_CREATE|O_WRONLY)`: the file is there afterwards. -/
def openAppend (disk : Disk) (now : Time) (path : String) : Disk :=
  if path ∈ disk.files then disk
  else ⟨disk.files.insert path ⟨disk.nextInode, now, []⟩, disk.nextInode + 1⟩

/-- `file.Write(buf)` on a file opened with `O_APPEND`.  Writing nothing changes nothing. -/
def write (disk : Disk) (now : Time) (path : String) (buf : Bytes) : Disk :=
  match disk.files.lookup path with
  | none => disk
  | some file =>
      if buf = [] then disk
      else { disk with
        files := disk.files.insert path { file with modTime := now, data := file.data ++ buf } }

end Disk

/-! ## Names -/

/-- `sourceFilename`'s per-rune rewriting. -/
def sanitizeRune (r : Char) : Char :=
  if ('a' ≤ r && r ≤ 'z') || ('A' ≤ r && r ≤ 'Z') || ('0' ≤ r && r ≤ '9') ||
      r = '.' || r = '-' || r = '_' then r else '_'

/-- `strings.Trim(filename, "._-")`. -/
def trimSeparators (s : List Char) : List Char :=
  let separator := fun c : Char => c = '.' || c = '_' || c = '-'
  (s.dropWhile separator).rdropWhile separator

/-- `sourceFilename` without the extension it ends in. -/
def sourceName (go : GoLib) (msg : Message) : List Char :=
  let source := Text.trimSpace msg.source.toList
  let source := if source = [] then Text.trimSpace msg.hostname.toList else source
  let source := if source = [] then "unknown".toList else source
  let source := match go.splitHostPort (String.ofList source) with
    | some host => host.toList
    | none => source
  let cleaned := trimSeparators (source.map sanitizeRune)
  if cleaned = [] then "unknown".toList else cleaned

/-- `sourceFilename`. -/
def sourceFilename (go : GoLib) (msg : Message) : List Char :=
  sourceName go msg ++ ".ndjson".toList

/-- Nanoseconds in a day. -/
def day : ℤ := 86400 * 1000000000

/-- `pathFor`, below the root. -/
def pathFor (go : GoLib) (msg : Message) : String :=
  let utc := Calendar.date (msg.receivedAt / day)
  String.ofList <|
    Calendar.formatPadded 4 utc.year ++ ['/'] ++ Calendar.formatPadded 2 utc.month ++ ['/'] ++
      Calendar.formatPadded 2 utc.day ++ ['/'] ++ sourceFilename go msg

/-- `filepath.Ext`: from the last dot of the last path element. -/
def ext (path : List Char) : List Char :=
  let base := path.reverse.takeWhile (· ≠ '/')
  if '.' ∈ base then '.' :: (base.takeWhile (· ≠ '.')).reverse else []

/-- Whether `messageFiles` lists a path. -/
def isPartition (path : String) : Bool := ext path.toList = ".ndjson".toList

/-- `messageFiles`: every partition, the greatest path first. -/
def messageFiles (disk : Disk) : List String :=
  (disk.files.keys.filter (isPartition ·)).sort (· ≥ ·)

lemma mem_messageFiles (disk : Disk) (path : String) :
    path ∈ messageFiles disk ↔ path ∈ disk.files ∧ isPartition path = true := by
  simp [messageFiles, Finmap.mem_keys]

/-- The partitions of a directory, in the order they are listed in. -/
lemma messageFiles_eq {disk : Disk} {paths : List String} (hsorted : paths.Pairwise (· > ·))
    (hkeys : disk.files.keys.filter (isPartition ·) = paths.toFinset) :
    messageFiles disk = paths := by
  rw [messageFiles, hkeys, List.toFinset_sort _ (hsorted.imp ne_of_gt)]
  exact hsorted.imp le_of_lt

lemma messageFiles_nodup (disk : Disk) : (messageFiles disk).Nodup :=
  Finset.sort_nodup _ _

/-- Whatever precedes it, a path that ends in `.ndjson` has that extension. -/
lemma isPartition_of_suffix (stem : List Char) :
    isPartition (String.ofList (stem ++ ".ndjson".toList)) = true := by
  simp [isPartition, ext]

/-- Everything `Append` writes is found again by `messageFiles`. -/
lemma isPartition_pathFor (go : GoLib) (msg : Message) : isPartition (pathFor go msg) = true := by
  rw [pathFor, sourceFilename, ← List.append_assoc]
  exact isPartition_of_suffix _

/-! ## Append -/

/-- What the environment makes of one `Append`. -/
inductive Fault where
  | none
  | cancelled (cause : String)
  | mkdir (cause : String)
  | openFile (cause : String)
  | write (written : ℕ) (cause : String)

/-- The record a message is stored as: a zero `ReceivedAt` is replaced by the current time. -/
def stamp (now : Time) (msg : Message) : Message :=
  if msg.receivedAt.isZero then { msg with receivedAt := now } else msg

/-- `FileStore.Append`: the directory afterwards, and the text of the error if there is one. -/
def append (go : GoLib) (now : Time) (fault : Fault) (disk : Disk) (msg : Message) :
    Disk × Option String :=
  match fault with
  | .cancelled cause => (disk, some cause)
  | _ =>
    if msg.id = "" then (disk, some "message id is required")
    else
      let msg := stamp now msg
      let path := pathFor go msg
      match fault with
      | .mkdir cause => (disk, some ("create message partition: " ++ cause))
      | _ =>
        match go.encode msg with
        | .error cause => (disk, some ("encode message: " ++ cause))
        | .ok buf =>
          match fault with
          | .openFile cause => (disk, some ("open message partition: " ++ cause))
          | .write written cause =>
              ((disk.openAppend now path).write now path (buf.take written),
                some ("append message: " ++ cause))
          | _ => ((disk.openAppend now path).write now path buf, none)

/-- The partition an `Append` writes to, with `buf` added at its end. -/
def Disk.appended (disk : Disk) (now : Time) (path : String) (buf : Bytes) : Disk :=
  (disk.openAppend now path).write now path buf

/-- The bytes a failing `Append` leaves behind in the partition. -/
def torn (go : GoLib) (now : Time) (fault : Fault) (msg : Message) : Bytes :=
  match fault with
  | .write written _ =>
      match go.encode (stamp now msg) with
      | .ok record => if msg.id = "" then [] else record.take written
      | .error _ => []
  | _ => []

/-- **What an `Append` can do**: add the whole record to the message's partition and succeed, or
fail and leave a prefix of it there, or fail and change nothing. -/
lemma append_cases (go : GoLib) (now : Time) (fault : Fault) (disk : Disk) (msg : Message) :
    (∃ record, go.encode (stamp now msg) = .ok record ∧ torn go now fault msg = [] ∧
      append go now fault disk msg
        = (disk.appended now (pathFor go (stamp now msg)) record, none)) ∨
    (∃ record err, go.encode (stamp now msg) = .ok record ∧ torn go now fault msg <+: record ∧
      append go now fault disk msg
        = (disk.appended now (pathFor go (stamp now msg)) (torn go now fault msg), some err)) ∨
    (∃ err, torn go now fault msg = [] ∧ append go now fault disk msg = (disk, some err)) := by
  by_cases hid : msg.id = ""
  · refine Or.inr (Or.inr ?_)
    cases fault with
    | write written cause =>
        refine ⟨"message id is required", ?_, by simp only [append, hid, if_true]⟩
        cases hencode : go.encode (stamp now msg) with
        | error cause => simp [torn, hencode]
        | ok record => simp [torn, hencode, hid]
    | _ =>
        simp only [append, hid, if_true]
        exact ⟨_, rfl, rfl⟩
  · cases hencode : go.encode (stamp now msg) with
    | error cause =>
        refine Or.inr (Or.inr ?_)
        cases fault with
        | write written cause' =>
            simp only [append, torn, hid, hencode, if_false]
            exact ⟨_, trivial, rfl⟩
        | _ =>
            simp only [append, hid, hencode, if_false]
            exact ⟨_, rfl, rfl⟩
    | ok record =>
        cases fault with
        | none =>
            exact Or.inl ⟨record, rfl, rfl, by simp [append, hid, hencode, Disk.appended]⟩
        | write written cause =>
            have htorn : torn go now (.write written cause) msg = record.take written := by
              simp [torn, hencode, hid]
            refine Or.inr (Or.inl ⟨record, "append message: " ++ cause, rfl, ?_, ?_⟩)
            · rw [htorn]
              exact List.take_prefix written record
            · simp [append, hid, hencode, Disk.appended, htorn]
        | _ =>
            refine Or.inr (Or.inr ?_)
            simp only [append, hid, hencode, if_false]
            exact ⟨_, rfl, rfl⟩

lemma lookup_appended (disk : Disk) (now : Time) (path key : String) (buf : Bytes) {file : File}
    (h : disk.files.lookup key = some file) :
    ∃ file', (disk.appended now path buf).files.lookup key = some file' ∧
      file'.inode = file.inode ∧ file'.data = file.data ++ if key = path then buf else [] := by
  have hopen : (disk.openAppend now path).files.lookup key = some file := by
    rw [Disk.openAppend]
    split_ifs with hpath
    · exact h
    · rw [Dict.lookup_insert_ite, if_neg, h]
      rintro rfl
      exact hpath (Finmap.mem_of_lookup_eq_some h)
  rw [Disk.appended, Disk.write]
  cases hfile : (disk.openAppend now path).files.lookup path with
  | none =>
      refine ⟨file, hopen, rfl, ?_⟩
      rw [if_neg, List.append_nil]
      rintro rfl
      rw [hopen] at hfile
      exact absurd hfile (by simp)
  | some target =>
      by_cases hbuf : buf = []
      · exact ⟨file, by simpa [hbuf] using hopen, rfl, by simp [hbuf]⟩
      · simp only [hbuf, if_false, Dict.lookup_insert_ite]
        by_cases hkey : key = path
        · subst hkey
          rw [hopen] at hfile
          rw [Option.some.inj hfile]
          exact ⟨_, if_pos rfl, rfl, by simp⟩
        · exact ⟨file, by rw [if_neg hkey, hopen], rfl, by simp [hkey]⟩

lemma mem_appended (disk : Disk) (now : Time) (path key : String) (buf : Bytes) :
    key ∈ (disk.appended now path buf).files ↔ key = path ∨ key ∈ disk.files := by
  have hopen : ∀ k, k ∈ (disk.openAppend now path).files ↔ k = path ∨ k ∈ disk.files := by
    intro k
    rw [Disk.openAppend]
    split_ifs with hpath
    · constructor
      · exact Or.inr
      · rintro (rfl | h)
        · exact hpath
        · exact h
    · simp [Finmap.mem_insert]
  rw [Disk.appended, Disk.write]
  obtain ⟨file, hfile⟩ := Finmap.mem_iff.mp ((hopen path).mpr (Or.inl rfl))
  simp only [hfile]
  split_ifs with hbuf
  · exact hopen key
  · rw [Finmap.mem_insert, hopen key]
    tauto

lemma data_appended (disk : Disk) (now : Time) (path key : String) (buf : Bytes) :
    (disk.appended now path buf).data key = disk.data key ++ if key = path then buf else [] := by
  cases hkey : disk.files.lookup key with
  | some file =>
      obtain ⟨file', hfile', -, hdata⟩ := lookup_appended disk now path key buf hkey
      rw [Disk.data, Disk.data, hkey, hfile']
      exact hdata
  | none =>
      have hmem : key ∉ disk.files := Finmap.lookup_eq_none.mp hkey
      have hold : disk.data key = [] := by
        rw [Disk.data, hkey]
        rfl
      rw [hold, List.nil_append]
      split_ifs with heq
      · subst heq
        have hopen : (disk.openAppend now key).files.lookup key
            = some ⟨disk.nextInode, now, []⟩ := by
          rw [Disk.openAppend, if_neg hmem, Finmap.lookup_insert]
        rw [Disk.data, Disk.appended, Disk.write, hopen]
        by_cases hbuf : buf = []
        · simp [hbuf, hopen]
        · simp [hbuf, Finmap.lookup_insert]
      · have hnone : key ∉ (disk.appended now path buf).files := by
          rw [mem_appended]
          rintro (h | h)
          · exact heq h
          · exact hmem h
        rw [Disk.data, Finmap.lookup_eq_none.mpr hnone]
        rfl

end Logthing
