import Logthing.Core.Lines
import Logthing.Storage.Partition

/-!
# `FileStore.VisitAfter`

The cursor reader behind incident analysis: every partition is read from its cursor to the last
complete line, and a partition whose consumed prefix no longer has the cursor's fingerprint is
reported as changed.

The first half translates the reader.  The second gives it one specification per function, in
terms of what has been read so far: `AtEnd disk cursors` says the cursors are those of a reader
that has consumed every complete line of `disk`, and `visitAfter_of_grows` that on any later
state of the directory the reader returns exactly the lines completed since.
-/

namespace Logthing

/-- `storage.Cursor`. -/
structure Cursor where
  offset : ℤ := 0
  fingerprint : String := ""
  deriving DecidableEq

/-- `storage.StoredRecord`. -/
structure StoredRecord where
  message : Message
  file : String
  offset : ℤ

/-- How `VisitAfter` fails. -/
inductive VisitError where
  /-- `PartitionChangedError`. -/
  | partitionChanged (file : String)
  | decode (file : String) (offset : ℤ) (cause : String)

/-- `Error()`. -/
def VisitError.text : VisitError → String
  | .partitionChanged file => "message partition " ++ file ++ " was replaced or truncated"
  | .decode file offset cause =>
      "decode message partition " ++ file ++ " at " ++ toString offset ++ ": " ++ cause

/-- `file.ReadAt(buffer, offset)` into a zeroed buffer of `length` bytes, an early end of file
being no error. -/
def readAt (data : Bytes) (offset length : ℕ) : Bytes :=
  let got := (data.drop offset).take length
  got ++ List.replicate (length - got.length) 0

/-- `fileFingerprint`: the first and, past one window, the last 2048 bytes of the first `size`. -/
def fileFingerprint (go : GoLib) (data : Bytes) (size : ℕ) : String :=
  let windowSize := 2048
  let length := min size windowSize
  let first := readAt data 0 length
  let last := if size > windowSize then readAt data (size - length) length else []
  go.sha256 (first ++ last)

/-- The `ReadBytes('\n')` loop: the lines from offset `current` on, and the offset reached. -/
def visitLines (go : GoLib) (key : String) :
    ℤ → List Bytes → Except VisitError (List StoredRecord × ℤ)
  | current, [] => .ok ([], current)
  | current, line :: lines =>
      match go.decode line with
      | .error cause => .error (.decode key current cause)
      | .ok message =>
          let current := current + line.length
          match visitLines go key current lines with
          | .error err => .error err
          | .ok (records, last) => .ok (⟨message, key, current⟩ :: records, last)

/-- One partition: the checks against its cursor, the lines after it, and the next cursor. -/
def visitPartition (go : GoLib) (key : String) (data : Bytes) (cursor : Cursor) :
    Except VisitError (List StoredRecord × Cursor) :=
  if cursor.offset < 0 ∨ (data.length : ℤ) < cursor.offset then .error (.partitionChanged key)
  else if cursor.fingerprint ≠ "" ∧
      cursor.fingerprint ≠ fileFingerprint go data cursor.offset.toNat then
    .error (.partitionChanged key)
  else
    match visitLines go key cursor.offset
        (Lines.terminated newline (data.drop cursor.offset.toNat)) with
    | .error err => .error err
    | .ok (records, current) =>
        .ok (records, ⟨current, fileFingerprint go data current.toNat⟩)

/-- The loop over the partitions. -/
def visitFiles (go : GoLib) (disk : Disk) : List String → Dict String Cursor →
    Except VisitError (List StoredRecord × Dict String Cursor)
  | [], next => .ok ([], next)
  | key :: keys, next =>
      match visitPartition go key (disk.data key) ((next.lookup key).getD {}) with
      | .error err => .error err
      | .ok (records, cursor) =>
          match visitFiles go disk keys (next.insert key cursor) with
          | .error err => .error err
          | .ok (more, last) => .ok (records ++ more, last)

/-- `FileStore.VisitAfter` with a visitor that records what it is shown.  `order` is the order in
which the closing loop visits the cursors. -/
def visitAfter (go : GoLib) (order : Traversal String) (disk : Disk)
    (cursors : Dict String Cursor) :
    Except VisitError (List StoredRecord × Dict String Cursor) :=
  let files := (messageFiles disk).mergeSort (· ≤ ·)
  match visitFiles go disk files cursors with
  | .error err => .error err
  | .ok (records, next) =>
      match (order.visit cursors).find? fun kv => 0 < kv.2.offset && kv.1 ∉ files with
      | some kv => .error (.partitionChanged kv.1)
      | none => .ok (records, next)

/-! ## What the reader has consumed -/

/-- The records of the lines `lines`, the first of which starts at `offset`. -/
def recordsFrom (go : GoLib) (key : String) (offset : ℕ) (lines : List Bytes) :
    List StoredRecord :=
  (Lines.ends offset lines).filterMap fun le =>
    match go.decode le.1 with
    | .ok message => some ⟨message, key, le.2⟩
    | .error _ => none

/-- Every line of a list decodes. -/
def Decodable (go : GoLib) (lines : List Bytes) : Prop :=
  ∀ line ∈ lines, ∃ message, go.decode line = .ok message

/-- The cursor of a reader that has consumed every complete line of `data`. -/
def endCursor (go : GoLib) (data : Bytes) : Cursor :=
  ⟨Lines.completeLength newline data,
    fileFingerprint go data (Lines.completeLength newline data)⟩

/-- The cursors of a reader that has consumed every complete line of `disk`. -/
def AtEnd (go : GoLib) (disk : Disk) (cursors : Dict String Cursor) : Prop :=
  ∀ key, cursors.lookup key
    = if key ∈ messageFiles disk then some (endCursor go (disk.data key)) else none

/-- Partitions only appear or grow by appended bytes. -/
def Grows (disk disk' : Disk) : Prop :=
  ∀ key ∈ disk.files, key ∈ disk'.files ∧ disk.data key <+: disk'.data key

/-- The lines of a partition completed since the reader was at the end of `data`. -/
def newLines (data data' : Bytes) : List Bytes :=
  Lines.terminated newline (data'.drop (Lines.completeLength newline data))

/-- What a reader at the end of `disk` has still to read of `disk'`. -/
def newRecords (go : GoLib) (disk disk' : Disk) : List StoredRecord :=
  ((messageFiles disk').mergeSort (· ≤ ·)).flatMap fun key =>
    recordsFrom go key (Lines.completeLength newline (disk.data key))
      (newLines (disk.data key) (disk'.data key))

/-- The records that these cursors have not passed. -/
def unreadRecords (go : GoLib) (disk : Disk) (cursors : Dict String Cursor) :
    List StoredRecord :=
  ((messageFiles disk).mergeSort (· ≤ ·)).flatMap fun key =>
    let offset := ((cursors.lookup key).getD {}).offset.toNat
    recordsFrom go key offset (Lines.terminated newline ((disk.data key).drop offset))

/-- **Lines are read** if they all decode, and what is returned otherwise is a decoding error. -/
lemma visitLines_cases (go : GoLib) (key : String) (lines : List Bytes) (offset : ℕ) :
    Decodable go lines ∧ visitLines go key offset lines
        = .ok (recordsFrom go key offset lines, ((offset + lines.flatten.length : ℕ) : ℤ)) ∨
      ¬ Decodable go lines ∧
        ∃ at_ cause, visitLines go key offset lines = .error (.decode key at_ cause) := by
  induction lines generalizing offset with
  | nil =>
      exact Or.inl ⟨fun line hline => absurd hline List.not_mem_nil,
        by simp [visitLines, recordsFrom, Lines.ends]⟩
  | cons line lines ih =>
      cases hmessage : go.decode line with
      | error cause =>
          refine Or.inr ⟨fun hall => ?_, offset, cause, by simp only [visitLines, hmessage]⟩
          obtain ⟨message, hok⟩ := hall line List.mem_cons_self
          rw [hmessage] at hok
          cases hok
      | ok message =>
          have ih := ih (offset + line.length)
          rw [Int.natCast_add] at ih
          rcases ih with ⟨hall, hread⟩ | ⟨hnot, at_, cause, hread⟩
          · refine Or.inl ⟨List.forall_mem_cons.mpr ⟨⟨message, hmessage⟩, hall⟩, ?_⟩
            simp only [visitLines, hmessage, hread, recordsFrom, Lines.ends, List.filterMap_cons,
              List.flatten_cons, List.length_append, Int.natCast_add, Nat.add_assoc]
          · refine Or.inr ⟨fun hall => hnot fun l hl => hall l (List.mem_cons_of_mem _ hl), at_,
              cause, ?_⟩
            simp only [visitLines, hmessage, hread]

/-- A window of the consumed prefix does not see what was appended. -/
lemma readAt_append {data : Bytes} (more : Bytes) {offset length : ℕ}
    (h : offset + length ≤ data.length) :
    readAt (data ++ more) offset length = readAt data offset length := by
  have hdrop : (data ++ more).drop offset = data.drop offset ++ more :=
    List.drop_append_of_le_length (by omega)
  have htake : (data.drop offset ++ more).take length = (data.drop offset).take length :=
    List.take_append_of_le_length (by rw [List.length_drop]; omega)
  rw [readAt, readAt, hdrop, htake]

/-- **The fingerprint of a prefix is kept by appending.**  Both windows lie inside the first
`size` bytes, at every size: below 2048, where the second is absent, and above. -/
lemma fileFingerprint_append (go : GoLib) {data : Bytes} (more : Bytes) {size : ℕ}
    (h : size ≤ data.length) :
    fileFingerprint go (data ++ more) size = fileFingerprint go data size := by
  have hfirst : readAt (data ++ more) 0 (min size 2048) = readAt data 0 (min size 2048) :=
    readAt_append more (by omega)
  have hlast : readAt (data ++ more) (size - min size 2048) (min size 2048)
      = readAt data (size - min size 2048) (min size 2048) := readAt_append more (by omega)
  simp only [fileFingerprint, hfirst, hlast]

/-- Completed lines are those already complete, then the new ones. -/
lemma terminated_eq_append_newLines {data data' : Bytes} (h : data <+: data') :
    Lines.terminated newline data' = Lines.terminated newline data ++ newLines data data' := by
  obtain ⟨more, rfl⟩ := h
  have hdrop : (data ++ more).drop (Lines.completeLength newline data)
      = Lines.rest newline data ++ more := by
    rw [List.drop_append_of_le_length (Lines.completeLength_le newline data),
      Lines.drop_completeLength]
  rw [newLines, hdrop, Lines.terminated_append]

lemma completeLength_add_newLines {data data' : Bytes} (h : data <+: data') :
    Lines.completeLength newline data + (newLines data data').flatten.length
      = Lines.completeLength newline data' := by
  rw [Lines.completeLength, Lines.completeLength, terminated_eq_append_newLines h,
    List.flatten_append, List.length_append]

/-- **One partition, resumed.**  Neither check fires, and what is read is what was completed. -/
lemma visitPartition_cases (go : GoLib) (key : String) {data data' : Bytes} {cursor : Cursor}
    (hcursor : cursor = endCursor go data ∨ (cursor = {} ∧ data = []))
    (hgrow : data <+: data') :
    Decodable go (newLines data data') ∧ visitPartition go key data' cursor
        = .ok (recordsFrom go key (Lines.completeLength newline data) (newLines data data'),
            endCursor go data') ∨
      ¬ Decodable go (newLines data data') ∧
        ∃ at_ cause, visitPartition go key data' cursor = .error (.decode key at_ cause) := by
  have hoffset : cursor.offset = Lines.completeLength newline data := by
    rcases hcursor with rfl | ⟨rfl, rfl⟩
    · rfl
    · rfl
  have hle : Lines.completeLength newline data ≤ data.length := Lines.completeLength_le _ _
  have hlen : data.length ≤ data'.length := hgrow.length_le
  have hbound : ¬ (cursor.offset < 0 ∨ (data'.length : ℤ) < cursor.offset) := by
    rw [hoffset]
    omega
  have hfinger : ¬ (cursor.fingerprint ≠ "" ∧
      cursor.fingerprint ≠ fileFingerprint go data' cursor.offset.toNat) := by
    rintro ⟨hne, hdiff⟩
    rcases hcursor with rfl | ⟨rfl, -⟩
    · obtain ⟨more, rfl⟩ := hgrow
      exact hdiff (fileFingerprint_append go more hle).symm
    · exact hne rfl
  rw [visitPartition, if_neg hbound, if_neg hfinger, hoffset, Int.toNat_natCast, ← newLines]
  rcases visitLines_cases go key (newLines data data') (Lines.completeLength newline data) with
    ⟨hall, hread⟩ | ⟨hnot, at_, cause, hread⟩
  · refine Or.inl ⟨hall, ?_⟩
    rw [hread, completeLength_add_newLines hgrow]
    simp only [Int.toNat_natCast, endCursor]
  · exact Or.inr ⟨hnot, at_, cause, by simp only [hread]⟩

/-- The partitions of a list, resumed one after the other. -/
lemma visitFiles_cases (go : GoLib) (disk disk' : Disk) (keys : List String)
    (next : Dict String Cursor) (hnd : keys.Nodup)
    (hcursor : ∀ key ∈ keys, ((next.lookup key).getD {} = endCursor go (disk.data key) ∨
      (next.lookup key).getD {} = {} ∧ disk.data key = []))
    (hgrow : ∀ key ∈ keys, disk.data key <+: disk'.data key) :
    (∀ key ∈ keys, Decodable go (newLines (disk.data key) (disk'.data key))) ∧
        visitFiles go disk' keys next
          = .ok (keys.flatMap (fun key =>
                recordsFrom go key (Lines.completeLength newline (disk.data key))
                  (newLines (disk.data key) (disk'.data key))),
              keys.foldl (fun m key => m.insert key (endCursor go (disk'.data key))) next) ∨
      (¬ ∀ key ∈ keys, Decodable go (newLines (disk.data key) (disk'.data key))) ∧
        ∃ key at_ cause, visitFiles go disk' keys next = .error (.decode key at_ cause) := by
  induction keys generalizing next with
  | nil => exact Or.inl ⟨fun key hkey => absurd hkey List.not_mem_nil, rfl⟩
  | cons key keys ih =>
      rw [List.nodup_cons] at hnd
      rw [List.forall_mem_cons] at hcursor hgrow
      rcases visitPartition_cases go key hcursor.1 hgrow.1 with
        ⟨hhead, hread⟩ | ⟨hnot, at_, cause, hread⟩
      swap
      · refine Or.inr ⟨fun hall => hnot (hall key List.mem_cons_self), key, at_, cause, ?_⟩
        simp only [visitFiles, hread]
      -- the cursors of the partitions to come are as they were
      have hkeep : ∀ k ∈ keys,
          (next.insert key (endCursor go (disk'.data key))).lookup k = next.lookup k := by
        intro k hk
        rw [Dict.lookup_insert_ite, if_neg]
        rintro rfl
        exact hnd.1 hk
      rcases ih (next.insert key (endCursor go (disk'.data key))) hnd.2
          (fun k hk => by rw [hkeep k hk]; exact hcursor.2 k hk) hgrow.2 with
        ⟨hall, hrest⟩ | ⟨hnot, file, at_, cause, hrest⟩
      · refine Or.inl ⟨List.forall_mem_cons.mpr ⟨hhead, hall⟩, ?_⟩
        simp only [visitFiles, hread, hrest, List.flatMap_cons, List.foldl_cons]
      · refine Or.inr ⟨fun hall => hnot (List.forall_mem_cons.mp hall).2, file, at_, cause, ?_⟩
        simp only [visitFiles, hread, hrest]

lemma data_eq_nil_of_notMem {disk : Disk} {key : String} (h : key ∉ disk.files) :
    disk.data key = [] := by
  rw [Disk.data, Finmap.lookup_eq_none.mpr h]
  rfl

lemma Grows.data_prefix {disk disk' : Disk} (h : Grows disk disk') (key : String) :
    disk.data key <+: disk'.data key := by
  by_cases hkey : key ∈ disk.files
  · exact (h key hkey).2
  · rw [data_eq_nil_of_notMem hkey]
    exact List.nil_prefix

lemma Grows.messageFiles_subset {disk disk' : Disk} (h : Grows disk disk') {key : String}
    (hkey : key ∈ messageFiles disk) : key ∈ messageFiles disk' := by
  rw [mem_messageFiles] at hkey ⊢
  exact ⟨(h key hkey.1).1, hkey.2⟩

lemma grows_empty (disk : Disk) : Grows Disk.empty disk := fun _ h => absurd h Finmap.notMem_empty

lemma atEnd_empty (go : GoLib) : AtEnd go Disk.empty ∅ := by
  intro key
  have hkey : key ∉ messageFiles Disk.empty := by
    rw [mem_messageFiles]
    exact fun h => Finmap.notMem_empty h.1
  rw [if_neg hkey]
  exact Finmap.lookup_empty key

/-- The files in the order `VisitAfter` reads them. -/
lemma mem_sorted_messageFiles {disk : Disk} {key : String} :
    key ∈ (messageFiles disk).mergeSort (· ≤ ·) ↔ key ∈ messageFiles disk :=
  (List.mergeSort_perm _ _).mem_iff

/-- The cursor that a reader has for a partition. -/
lemma AtEnd.cursor {go : GoLib} {disk : Disk} {cursors : Dict String Cursor}
    (hat : AtEnd go disk cursors) {key : String} (hkey : isPartition key = true) :
    (cursors.lookup key).getD {} = endCursor go (disk.data key) ∨
      (cursors.lookup key).getD {} = {} ∧ disk.data key = [] := by
  rw [hat key]
  by_cases hmem : key ∈ messageFiles disk
  · exact Or.inl (by rw [if_pos hmem]; rfl)
  · refine Or.inr ⟨by rw [if_neg hmem]; rfl, data_eq_nil_of_notMem fun hin => hmem ?_⟩
    exact (mem_messageFiles disk key).mpr ⟨hin, hkey⟩

/-- What the cursors have not passed is what is new to the reader. -/
lemma unreadRecords_eq {go : GoLib} {disk disk' : Disk} {cursors : Dict String Cursor}
    (hat : AtEnd go disk cursors) :
    unreadRecords go disk' cursors = newRecords go disk disk' := by
  refine List.flatMap_congr fun key hkey => ?_
  have hpartition := ((mem_messageFiles _ _).mp (mem_sorted_messageFiles.mp hkey)).2
  have hoffset : ((cursors.lookup key).getD {}).offset
      = Lines.completeLength newline (disk.data key) := by
    rcases hat.cursor hpartition with hcursor | ⟨hcursor, hnil⟩
    · rw [hcursor]
      rfl
    · rw [hcursor, hnil]
      rfl
  simp only [hoffset, Int.toNat_natCast, newLines]

/-- **A resumed reader** returns exactly what was completed since, if all of it decodes, and the
cursors are again those of a reader at the end; otherwise a line fails to decode.  No partition is
reported as changed. -/
theorem visitAfter_cases (go : GoLib) (order : Traversal String) {disk disk' : Disk}
    {cursors : Dict String Cursor} (hat : AtEnd go disk cursors) (hgrow : Grows disk disk') :
    (∀ key ∈ messageFiles disk', Decodable go (newLines (disk.data key) (disk'.data key))) ∧
        (∃ next, visitAfter go order disk' cursors = .ok (newRecords go disk disk', next) ∧
          AtEnd go disk' next) ∨
      (¬ ∀ key ∈ messageFiles disk', Decodable go (newLines (disk.data key) (disk'.data key))) ∧
        ∃ key at_ cause, visitAfter go order disk' cursors = .error (.decode key at_ cause) := by
  have hnd : ((messageFiles disk').mergeSort (· ≤ ·)).Nodup :=
    (List.mergeSort_perm _ _).nodup_iff.mpr (messageFiles_nodup disk')
  have hall : (∀ key ∈ (messageFiles disk').mergeSort (· ≤ ·),
      Decodable go (newLines (disk.data key) (disk'.data key))) ↔
        ∀ key ∈ messageFiles disk', Decodable go (newLines (disk.data key) (disk'.data key)) := by
    simp only [mem_sorted_messageFiles]
  have hseen : (order.visit cursors).find? (fun kv =>
      0 < kv.2.offset && kv.1 ∉ (messageFiles disk').mergeSort (· ≤ ·)) = none := by
    rw [Traversal.find?_visit_eq_none]
    intro key cursor hlook
    rw [hat key] at hlook
    split_ifs at hlook with hmem
    have hmem' := mem_sorted_messageFiles.mpr (hgrow.messageFiles_subset hmem)
    simp [hmem']
  rcases visitFiles_cases go disk disk' _ cursors hnd (fun key hkey => hat.cursor
      ((mem_messageFiles _ _).mp (mem_sorted_messageFiles.mp hkey)).2)
      (fun key _ => hgrow.data_prefix key) with ⟨hdecode, hfiles⟩ | ⟨hnot, key, at_, cause, hfiles⟩
  swap
  · exact Or.inr ⟨fun h => hnot (hall.mpr h), key, at_, cause, by simp only [visitAfter, hfiles]⟩
  refine Or.inl ⟨hall.mp hdecode, _, by rw [visitAfter, hfiles]; simp only [hseen]; rfl, ?_⟩
  intro key
  rw [Dict.lookup_foldl_insert]
  by_cases hmem : key ∈ messageFiles disk'
  · rw [if_pos (mem_sorted_messageFiles.mpr hmem), if_pos hmem]
  · have hold : key ∉ messageFiles disk := fun h => hmem (hgrow.messageFiles_subset h)
    rw [if_neg (fun h => hmem (mem_sorted_messageFiles.mp h)), if_neg hmem, hat key, if_neg hold]

/-- Lines completed since are complete lines. -/
lemma Decodable.newLines {go : GoLib} {data data' : Bytes}
    (h : Decodable go (Lines.terminated newline data')) (hgrow : data <+: data') :
    Decodable go (Logthing.newLines data data') := by
  intro line hline
  refine h line ?_
  rw [terminated_eq_append_newLines hgrow]
  exact List.mem_append_right _ hline

/-- A reader of a directory whose complete lines decode does not fail. -/
lemma visitAfter_of_grows (go : GoLib) (order : Traversal String) {disk disk' : Disk}
    {cursors : Dict String Cursor} (hat : AtEnd go disk cursors) (hgrow : Grows disk disk')
    (hdecode : ∀ key ∈ messageFiles disk', Decodable go
      (Lines.terminated newline (disk'.data key))) :
    ∃ next, visitAfter go order disk' cursors = .ok (newRecords go disk disk', next) ∧
      AtEnd go disk' next := by
  rcases visitAfter_cases go order hat hgrow with ⟨-, hread⟩ | ⟨hnot, -⟩
  · exact hread
  · exact absurd (fun key hkey => (hdecode key hkey).newLines (hgrow.data_prefix key)) hnot

/-! ## Whatever is read is there -/

/-- A reader of the directory can be given a message, wherever in a partition it starts. -/
def Disk.Stores (go : GoLib) (disk : Disk) (message : Message) : Prop :=
  ∃ key ∈ messageFiles disk, ∃ offset,
    ∃ line ∈ Lines.terminated newline ((disk.data key).drop offset), go.decode line = .ok message

lemma mem_of_visitLines {go : GoLib} {key : String} {lines : List Bytes} {offset : ℤ}
    {read : List StoredRecord × ℤ} (h : visitLines go key offset lines = .ok read)
    {record : StoredRecord} (hrecord : record ∈ read.1) :
    ∃ line ∈ lines, go.decode line = .ok record.message := by
  induction lines generalizing offset read with
  | nil =>
      rw [visitLines, Except.ok.injEq] at h
      rw [← h] at hrecord
      exact absurd hrecord List.not_mem_nil
  | cons line lines ih =>
      rw [visitLines] at h
      cases hdecode : go.decode line with
      | error cause =>
          rw [hdecode] at h
          cases h
      | ok message =>
          rw [hdecode] at h
          simp only at h
          cases hrest : visitLines go key (offset + line.length) lines with
          | error err =>
              rw [hrest] at h
              cases h
          | ok rest =>
              rw [hrest] at h
              simp only [Except.ok.injEq] at h
              rw [← h] at hrecord
              rcases List.mem_cons.mp hrecord with rfl | hrecord
              · exact ⟨line, List.mem_cons_self, hdecode⟩
              · obtain ⟨l, hl, hmessage⟩ := ih hrest hrecord
                exact ⟨l, List.mem_cons_of_mem _ hl, hmessage⟩

/-- **Whatever is visited is stored.** -/
lemma stores_of_visitAfter {go : GoLib} {order : Traversal String} {disk : Disk}
    {cursors next : Dict String Cursor} {records : List StoredRecord}
    (h : visitAfter go order disk cursors = .ok (records, next)) {record : StoredRecord}
    (hrecord : record ∈ records) : disk.Stores go record.message := by
  have hfiles : ∀ (keys : List String) (cursors next : Dict String Cursor)
      (records : List StoredRecord), (∀ key ∈ keys, key ∈ messageFiles disk) →
      visitFiles go disk keys cursors = .ok (records, next) → record ∈ records →
        disk.Stores go record.message := by
    intro keys
    induction keys with
    | nil =>
        intro cursors next records _ h hrecord
        rw [visitFiles, Except.ok.injEq, Prod.mk.injEq] at h
        rw [← h.1] at hrecord
        exact absurd hrecord List.not_mem_nil
    | cons key keys ih =>
        intro cursors next records hkeys h hrecord
        rw [visitFiles] at h
        cases hpartition : visitPartition go key (disk.data key)
            ((cursors.lookup key).getD {}) with
        | error err =>
            rw [hpartition] at h
            cases h
        | ok read =>
            rw [hpartition] at h
            simp only at h
            cases hrest : visitFiles go disk keys (cursors.insert key read.2) with
            | error err =>
                rw [hrest] at h
                cases h
            | ok rest =>
                rw [hrest] at h
                simp only [Except.ok.injEq, Prod.mk.injEq] at h
                rw [← h.1] at hrecord
                rcases List.mem_append.mp hrecord with hrecord | hrecord
                swap
                · exact ih _ _ _ (fun k hk => hkeys k (List.mem_cons_of_mem _ hk)) hrest hrecord
                rw [visitPartition] at hpartition
                split_ifs at hpartition
                cases hlines : visitLines go key ((cursors.lookup key).getD {}).offset
                    (Lines.terminated newline ((disk.data key).drop
                      ((cursors.lookup key).getD {}).offset.toNat)) with
                | error err =>
                    rw [hlines] at hpartition
                    cases hpartition
                | ok lines =>
                    rw [hlines] at hpartition
                    simp only [Except.ok.injEq] at hpartition
                    rw [← hpartition] at hrecord
                    obtain ⟨line, hline, hdecode⟩ := mem_of_visitLines hlines hrecord
                    exact ⟨key, hkeys key List.mem_cons_self, _, line, hline, hdecode⟩
  rw [visitAfter] at h
  cases hvisit : visitFiles go disk ((messageFiles disk).mergeSort (· ≤ ·)) cursors with
  | error err =>
      simp only [hvisit] at h
      cases h
  | ok read =>
      simp only [hvisit] at h
      split at h
      · cases h
      · rw [Except.ok.injEq, Prod.mk.injEq] at h
        rw [← h.1] at hrecord
        exact hfiles _ _ _ _ (fun key hkey => mem_sorted_messageFiles.mp hkey) hvisit hrecord

end Logthing
