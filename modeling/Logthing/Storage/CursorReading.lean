import Logthing.Storage.AppendReader
import Logthing.Storage.RecordTable

/-!
# Cursor reading is exactly-once

A reader that starts from no cursors and feeds each `VisitAfter` the cursors the previous one
returned, over a directory that only grows between the calls.  `visitChain` is such a chain of
calls.  `AtEnd` is the invariant one call preserves (`visitAfter_of_grows`); what this file adds
is the sum over the chain, partition by partition: the pieces read by successive calls join to
the whole (`recordsFrom_newLines_append`).
-/

namespace Logthing

/-- A chain of `VisitAfter` calls: all the records visited, and the cursors of the last call. -/
def visitChain (go : GoLib) : List (Traversal String × Disk) → Dict String Cursor →
    Except VisitError (List StoredRecord × Dict String Cursor)
  | [], cursors => .ok ([], cursors)
  | (order, disk) :: calls, cursors =>
      match visitAfter go order disk cursors with
      | .error err => .error err
      | .ok (records, next) =>
          match visitChain go calls next with
          | .error err => .error err
          | .ok (more, last) => .ok (records ++ more, last)

/-- The directory only grows from one call to the next, and every complete line decodes. -/
def GrowingFrom (go : GoLib) : Disk → List (Traversal String × Disk) → Prop
  | _, [] => True
  | before, (_, disk) :: calls =>
      Grows before disk ∧
        (∀ key ∈ messageFiles disk, Decodable go (Lines.terminated newline (disk.data key))) ∧
        GrowingFrom go disk calls

/-! ## Records of one partition -/

lemma recordsFrom_append (go : GoLib) (key : String) (offset : ℕ) (a b : List Bytes) :
    recordsFrom go key offset (a ++ b)
      = recordsFrom go key offset a ++ recordsFrom go key (offset + a.flatten.length) b := by
  rw [recordsFrom, Lines.ends_append, List.filterMap_append]
  rfl

lemma file_of_mem_recordsFrom {go : GoLib} {key : String} {offset : ℕ} {lines : List Bytes}
    {record : StoredRecord} (h : record ∈ recordsFrom go key offset lines) :
    record.file = key := by
  obtain ⟨le, -, hle⟩ := List.mem_filterMap.mp h
  cases hdec : go.decode le.1 with
  | error cause => simp [hdec] at hle
  | ok message =>
      rw [hdec] at hle
      rw [← Option.some.inj hle]

lemma file_of_mem_newRecords {go : GoLib} {disk disk' : Disk} {record : StoredRecord}
    (h : record ∈ newRecords go disk disk') : record.file ∈ messageFiles disk' := by
  obtain ⟨key, hkey, hrecord⟩ := List.mem_flatMap.mp h
  rw [file_of_mem_recordsFrom hrecord]
  exact mem_sorted_messageFiles.mp hkey

lemma filter_recordsFrom (go : GoLib) (key key' : String) (offset : ℕ) (lines : List Bytes) :
    (recordsFrom go key' offset lines).filter (·.file = key)
      = if key' = key then recordsFrom go key' offset lines else [] := by
  split_ifs with h
  · rw [List.filter_eq_self]
    intro record hrecord
    simp [file_of_mem_recordsFrom hrecord, h]
  · rw [List.filter_eq_nil_iff]
    intro record hrecord
    simp [file_of_mem_recordsFrom hrecord, h]

/-- Of everything read, one partition's records are what was completed in it. -/
lemma filter_newRecords (go : GoLib) (disk disk' : Disk) (key : String) :
    (newRecords go disk disk').filter (·.file = key)
      = if key ∈ messageFiles disk' then
          recordsFrom go key (Lines.completeLength newline (disk.data key))
            (newLines (disk.data key) (disk'.data key))
        else [] := by
  have hsum : ∀ keys : List String, keys.Nodup →
      (keys.flatMap fun key => recordsFrom go key (Lines.completeLength newline (disk.data key))
        (newLines (disk.data key) (disk'.data key))).filter (·.file = key)
      = if key ∈ keys then recordsFrom go key (Lines.completeLength newline (disk.data key))
          (newLines (disk.data key) (disk'.data key)) else [] := by
    intro keys hnd
    induction keys with
    | nil => simp
    | cons k keys ih =>
        rw [List.nodup_cons] at hnd
        rw [List.flatMap_cons, List.filter_append, filter_recordsFrom, ih hnd.2]
        by_cases hk : k = key
        · subst hk
          simp [hnd.1]
        · have hk' : ¬ key = k := fun h => hk h.symm
          simp [hk, hk']
  have hnd : ((messageFiles disk').mergeSort (· ≤ ·)).Nodup :=
    (List.mergeSort_perm _ _).nodup_iff.mpr (messageFiles_nodup disk')
  rw [newRecords, hsum _ hnd]
  simp only [mem_sorted_messageFiles]

/-- What two successive calls read of a partition is what one call over both would have read. -/
lemma recordsFrom_newLines_append (go : GoLib) (key : String) {a b c : Bytes} (hab : a <+: b)
    (hbc : b <+: c) :
    recordsFrom go key (Lines.completeLength newline a) (newLines a b)
        ++ recordsFrom go key (Lines.completeLength newline b) (newLines b c)
      = recordsFrom go key (Lines.completeLength newline a) (newLines a c) := by
  have hlines : newLines a b ++ newLines b c = newLines a c := by
    have h := terminated_eq_append_newLines (hab.trans hbc)
    rw [terminated_eq_append_newLines hbc, terminated_eq_append_newLines hab,
      List.append_assoc] at h
    exact List.append_cancel_left h
  rw [← completeLength_add_newLines hab, ← recordsFrom_append, hlines]

/-- Records of lines that all decode, field by field. -/
lemma map_recordsFrom (go : GoLib) (key : String) (offset : ℕ) (lines : List Bytes)
    (h : Decodable go lines) :
    (recordsFrom go key offset lines).map (fun r => (Except.ok r.message, r.offset))
      = (Lines.ends offset lines).map fun le => (go.decode le.1, (le.2 : ℤ)) := by
  induction lines generalizing offset with
  | nil => rfl
  | cons line lines ih =>
      obtain ⟨message, hmessage⟩ := h line (by simp)
      have ih := ih (offset + line.length) (fun l hl => h l (by simp [hl]))
      rw [recordsFrom] at ih
      simp only [recordsFrom, Lines.ends, List.filterMap_cons, hmessage, List.map_cons, ih]

/-! ## A chain of calls -/

/-- The state of the directory at the last call of a chain. -/
def lastDisk (before : Disk) (calls : List (Traversal String × Disk)) : Disk :=
  (calls.getLast?.map Prod.snd).getD before

lemma lastDisk_cons (before : Disk) (call : Traversal String × Disk)
    (calls : List (Traversal String × Disk)) :
    lastDisk before (call :: calls) = lastDisk call.2 calls := by
  cases calls with
  | nil => rfl
  | cons next calls => simp [lastDisk, List.getLast?_eq_some_getLast]

lemma GrowingFrom.grows {go : GoLib} {before : Disk} {calls : List (Traversal String × Disk)}
    (h : GrowingFrom go before calls) : Grows before (lastDisk before calls) := by
  induction calls generalizing before with
  | nil => exact fun key hkey => ⟨hkey, List.prefix_rfl⟩
  | cons call calls ih =>
      obtain ⟨hgrow, -, hrest⟩ := h
      rw [lastDisk_cons]
      intro key hkey
      obtain ⟨hin, hpre⟩ := hgrow key hkey
      obtain ⟨hin', hpre'⟩ := ih hrest key hin
      exact ⟨hin', hpre.trans hpre'⟩

lemma GrowingFrom.decodable_last {go : GoLib} {before : Disk}
    {calls : List (Traversal String × Disk)} {order : Traversal String} {disk : Disk}
    (h : GrowingFrom go before (calls ++ [(order, disk)])) :
    ∀ key ∈ messageFiles disk, Decodable go (Lines.terminated newline (disk.data key)) := by
  induction calls generalizing before with
  | nil => exact h.2.1
  | cons call calls ih => exact ih h.2.2

/-- **The chain, summed up.**  No call fails; of each partition the chain visits what was
completed since it started, once and in order; and it ends with the cursors at the end. -/
theorem visitChain_of_growingFrom (go : GoLib) {before : Disk}
    {calls : List (Traversal String × Disk)} {cursors : Dict String Cursor}
    (hat : AtEnd go before cursors) (hgrow : GrowingFrom go before calls) :
    ∃ records last, visitChain go calls cursors = .ok (records, last) ∧
      AtEnd go (lastDisk before calls) last ∧
      (∀ record ∈ records, isPartition record.file = true) ∧
      ∀ key, isPartition key = true → records.filter (·.file = key)
        = recordsFrom go key (Lines.completeLength newline (before.data key))
            (newLines (before.data key) ((lastDisk before calls).data key)) := by
  induction calls generalizing before cursors with
  | nil =>
      refine ⟨[], cursors, rfl, hat, by simp, fun key _ => ?_⟩
      have hself : newLines (before.data key) (before.data key) = [] := by
        have h := terminated_eq_append_newLines (List.prefix_rfl : before.data key <+: _)
        exact List.append_cancel_left (h.symm.trans (List.append_nil _).symm)
      rw [lastDisk, List.getLast?_nil, Option.map_none, Option.getD_none, hself]
      rfl
  | cons call calls ih =>
      obtain ⟨order, disk⟩ := call
      obtain ⟨hstep, hdecode, hrest⟩ := hgrow
      obtain ⟨next, hvisit, hnext⟩ := visitAfter_of_grows go order hat hstep hdecode
      obtain ⟨more, last, hchain, hlast, hpart, hmore⟩ := ih hnext hrest
      rw [lastDisk_cons]
      refine ⟨newRecords go before disk ++ more, last, by simp [visitChain, hvisit, hchain],
        hlast, ?_, fun key hkey => ?_⟩
      · intro record hrecord
        rcases List.mem_append.mp hrecord with h | h
        · exact ((mem_messageFiles _ _).mp (file_of_mem_newRecords h)).2
        · exact hpart record h
      rw [List.filter_append, filter_newRecords, hmore key hkey]
      have hpre := hstep.data_prefix key
      have hpre' := hrest.grows.data_prefix key
      split_ifs with hmem
      · exact recordsFrom_newLines_append go key hpre hpre'
      · -- a partition that has not appeared yet has no bytes, before or now
        have hnil : disk.data key = [] := by
          refine data_eq_nil_of_notMem fun hin => hmem ?_
          exact (mem_messageFiles disk key).mpr ⟨hin, hkey⟩
        have hnil' : before.data key = [] := by
          rw [hnil] at hpre
          exact List.prefix_nil.mp hpre
        rw [hnil, hnil', List.nil_append]

/-- **Exactly once.**  A chain of calls from no cursors over a growing directory whose complete
lines decode never fails, so it never reports a changed partition.  At the end of it, whatever
its length and wherever the partial lines fell: of each partition it has visited the decoding of
the complete lines in order, once each, every one with the byte position just past its line feed;
of nothing else it has visited anything; and the cursor returned for a partition is the longest
prefix that ends with a line feed. -/
theorem cursorReading_exactlyOnce (go : GoLib) (calls : List (Traversal String × Disk))
    (order : Traversal String) (disk : Disk)
    (hgrow : GrowingFrom go Disk.empty (calls ++ [(order, disk)])) :
    ∃ records cursors, visitChain go (calls ++ [(order, disk)]) ∅ = .ok (records, cursors) ∧
      (∀ key ∈ messageFiles disk,
        (records.filter (·.file = key)).map (fun r => (Except.ok r.message, r.offset))
            = (Lines.ends 0 (Lines.terminated newline (disk.data key))).map
                (fun le => (go.decode le.1, (le.2 : ℤ))) ∧
          ∃ cursor : Cursor, cursors.lookup key = some cursor ∧ 0 ≤ cursor.offset ∧
            IsGreatest {n | n ≤ (disk.data key).length ∧
              (n = 0 ∨ ((disk.data key).take n).getLast? = some newline)}
              cursor.offset.toNat) ∧
      ∀ key, key ∉ messageFiles disk → records.filter (·.file = key) = [] := by
  obtain ⟨records, cursors, hchain, hat, hpart, hrecords⟩ :=
    visitChain_of_growingFrom go (atEnd_empty go) hgrow
  have hlast : lastDisk Disk.empty (calls ++ [(order, disk)]) = disk := by
    simp [lastDisk]
  rw [hlast] at hat hrecords
  have hempty : ∀ key, Disk.empty.data key = [] := fun key =>
    data_eq_nil_of_notMem Finmap.notMem_empty
  have hnew : ∀ data, newLines [] data = Lines.terminated newline data := fun _ => rfl
  refine ⟨records, cursors, hchain, fun key hkey => ⟨?_, ?_⟩, fun key hkey => ?_⟩
  · rw [hrecords key ((mem_messageFiles _ _).mp hkey).2, hempty, hnew]
    exact map_recordsFrom go key _ _ (hgrow.decodable_last key hkey)
  · refine ⟨endCursor go (disk.data key), by rw [hat key, if_pos hkey], Int.natCast_nonneg _, ?_⟩
    exact Lines.isGreatest_completeLength newline (disk.data key)
  · by_cases hk : isPartition key = true
    · have hdata : disk.data key = [] :=
        data_eq_nil_of_notMem fun hin => hkey ((mem_messageFiles _ _).mpr ⟨hin, hk⟩)
      rw [hrecords key hk, hempty, hdata]
      rfl
    · rw [List.filter_eq_nil_iff]
      intro record hrecord heq
      have hfile : record.file = key := by simpa using heq
      exact hk (hfile ▸ hpart record hrecord)

/-- Two calls, the first of which finds the second record torn after five bytes. -/
theorem cursorReading_exactlyOnce_torn :
    ∃ records cursors, visitChain sampleLib
        [(Traversal.sorted String, Disk.single "log.ndjson"
            (sampleLine ++ [newline] ++ sampleLine.take 5)),
          (Traversal.sorted String, Disk.single "log.ndjson"
            (sampleLine ++ [newline] ++ sampleLine ++ [newline]))] ∅ = .ok (records, cursors) ∧
      (records.filter (·.file = "log.ndjson")).map (fun r => (Except.ok r.message, r.offset))
        = [(sampleLib.decode (sampleLine ++ [newline]), (50 : ℤ)),
            (sampleLib.decode (sampleLine ++ [newline]), 100)] := by
  have hsplit : ∀ tail : Bytes, newline ∉ tail → ∀ lines : List Bytes,
      (∀ line ∈ lines, line = sampleLine ++ [newline]) → Decodable sampleLib
        (Lines.terminated newline (lines.flatten ++ tail)) := by
    intro tail htail lines hlines line hline
    have hisLine : ∀ line ∈ lines, Lines.IsLine newline line :=
      fun line hline => ⟨sampleLine, hlines line hline, by decide⟩
    rw [Lines.terminated, Lines.split_flatten newline hisLine htail] at hline
    exact ⟨sampleMessage, by rw [hlines line hline, sampleLib_decode]⟩
  have hgrow : GrowingFrom sampleLib Disk.empty
      ([(Traversal.sorted String, Disk.single "log.ndjson"
          (sampleLine ++ [newline] ++ sampleLine.take 5))]
        ++ [(Traversal.sorted String, Disk.single "log.ndjson"
          (sampleLine ++ [newline] ++ sampleLine ++ [newline]))]) := by
    refine ⟨grows_empty _, fun key hkey => ?_, fun key hkey => ?_, fun key hkey => ?_, trivial⟩
    · rw [mem_messageFiles, Disk.mem_single] at hkey
      rw [hkey.1, Disk.data_single]
      exact hsplit (sampleLine.take 5) (by decide) [sampleLine ++ [newline]] (by simp)
    · rw [Disk.mem_single] at hkey ⊢
      subst hkey
      refine ⟨rfl, ?_⟩
      rw [Disk.data_single, Disk.data_single]
      exact ⟨sampleLine.drop 5 ++ [newline], by decide⟩
    · rw [mem_messageFiles, Disk.mem_single] at hkey
      rw [hkey.1, Disk.data_single]
      have h := hsplit [] (by simp) [sampleLine ++ [newline], sampleLine ++ [newline]] (by simp)
      simpa using h
  obtain ⟨records, cursors, hchain, hread, -⟩ := cursorReading_exactlyOnce sampleLib _ _ _ hgrow
  refine ⟨records, cursors, hchain, ?_⟩
  have hmem : "log.ndjson" ∈ messageFiles (Disk.single "log.ndjson"
      (sampleLine ++ [newline] ++ sampleLine ++ [newline])) :=
    (mem_messageFiles _ _).mpr ⟨Disk.mem_single.mpr rfl, by decide⟩
  have hends : Lines.ends 0 (Lines.terminated newline
      (sampleLine ++ [newline] ++ sampleLine ++ [newline]))
        = [(sampleLine ++ [newline], 50), (sampleLine ++ [newline], 100)] := by decide
  rw [(hread _ hmem).1, Disk.data_single, hends]
  rfl

end Logthing
