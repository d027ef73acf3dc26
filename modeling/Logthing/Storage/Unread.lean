import Logthing.Storage.CursorReading

/-!
# A store that is appended to while it is read

A directory to which whole records are appended, and a reader that comes back to it with the
cursors of its last visit.  `HasRead` splits the records of the directory into those the reader has
been given and those it has not, as collections: it is kept by an append, which adds at most one
record to the second part (`HasRead.append`), and by a visit, which returns the second part and adds
it to the first, or fails because a line does not decode (`HasRead.visit`).  Not everything that is
encoded decodes again; a record is a line that does.
-/

namespace Logthing

/-! ## Records -/

/-- What is encoded and decodes again is the same in the sense of `same`. -/
def GoLib.Keeps (go : GoLib) (same : Message → Message → Prop) : Prop :=
  ∀ msg record stored, go.encode msg = .ok record → go.decode record = .ok stored → same msg stored

/-- Every partition ends with a line feed. -/
def WellKept (disk : Disk) : Prop := ∀ key, Lines.rest newline (disk.data key) = []

/-- All complete lines decode. -/
def Disk.Readable (go : GoLib) (disk : Disk) : Prop :=
  ∀ key ∈ messageFiles disk, Decodable go (Lines.terminated newline (disk.data key))

lemma Disk.readable_iff {go : GoLib} {disk : Disk} : disk.Readable go ↔ ∀ key ∈ messageFiles disk,
    ∀ line ∈ Lines.terminated newline (disk.data key), (go.decode line).isOk = true := by
  refine forall₄_congr fun key _ line _ => ?_
  cases go.decode line with
  | error cause => simp [Except.isOk, Except.toBool]
  | ok message => simp [Except.isOk, Except.toBool]

/-- The records of a directory, as a reader finds them that starts with no cursors. -/
def storedRecords (go : GoLib) (disk : Disk) : List StoredRecord := newRecords go Disk.empty disk

lemma data_empty (key : String) : Disk.empty.data key = [] :=
  data_eq_nil_of_notMem Finmap.notMem_empty

lemma wellKept_empty : WellKept Disk.empty := by
  intro key
  rw [data_empty]
  rfl

/-! ## One line more -/

section

variable {go : GoLib} {disk : Disk} {now : Time} {path : String} {record : Bytes}

/-- A line appended to a partition that ends with a line feed. -/
lemma terminated_append_line {data : Bytes} (hrest : Lines.rest newline data = [])
    (hline : Lines.IsLine newline record) :
    Lines.terminated newline (data ++ record) = Lines.terminated newline data ++ [record] := by
  have hsplit := Lines.split_line_append newline hline []
  rw [List.append_nil] at hsplit
  rw [Lines.terminated_append, hrest, List.nil_append, Lines.terminated, Lines.terminated, hsplit]
  rfl

/-- **Appending a record keeps the directory well kept.** -/
lemma WellKept.appended (h : WellKept disk) (hline : Lines.IsLine newline record) :
    WellKept (disk.appended now path record) := by
  intro key
  rw [data_appended]
  split_ifs with hkey
  swap
  · rw [List.append_nil]
    exact h key
  have hsplit := Lines.split_line_append newline hline []
  rw [List.append_nil] at hsplit
  rw [Lines.rest_append, h key, List.nil_append, Lines.rest, hsplit]
  rfl

/-- A directory that is appended to grows. -/
lemma grows_appended (disk : Disk) (now : Time) (path : String) (record : Bytes) :
    Grows disk (disk.appended now path record) := by
  intro key hkey
  refine ⟨(mem_appended disk now path key record).mpr (Or.inr hkey), ?_⟩
  rw [data_appended]
  exact List.prefix_append _ _

lemma Grows.refl (disk : Disk) : Grows disk disk := fun _ hkey => ⟨hkey, List.prefix_rfl⟩

lemma Grows.trans {a b c : Disk} (hab : Grows a b) (hbc : Grows b c) : Grows a c := by
  intro key hkey
  obtain ⟨hin, hpre⟩ := hab key hkey
  obtain ⟨hin', hpre'⟩ := hbc key hin
  exact ⟨hin', hpre.trans hpre'⟩

/-- The line appended is one new line to a reader that stopped before it. -/
lemma newLines_append {data data' : Bytes} (hgrow : data <+: data')
    (hrest : Lines.rest newline data' = []) (hline : Lines.IsLine newline record) :
    newLines data (data' ++ record) = newLines data data' ++ [record] := by
  have hall := terminated_eq_append_newLines (hgrow.trans (List.prefix_append data' record))
  rw [terminated_append_line hrest hline, terminated_eq_append_newLines hgrow,
    List.append_assoc] at hall
  exact (List.append_cancel_left hall).symm

/-- The record of one appended line, with the position just past it, if it decodes. -/
def appendedRecord (go : GoLib) (disk : Disk) (path : String) (record : Bytes) :
    List StoredRecord :=
  recordsFrom go path (Lines.completeLength newline (disk.data path)) [record]

lemma appendedRecord_of_ok {stored : Message} (hdecode : go.decode record = .ok stored) :
    appendedRecord go disk path record = [⟨stored, path,
      (Lines.completeLength newline (disk.data path) + record.length : ℕ)⟩] := by
  simp [appendedRecord, recordsFrom, Lines.ends, hdecode]

lemma appendedRecord_of_error {cause : String} (hdecode : go.decode record = .error cause) :
    appendedRecord go disk path record = [] := by
  simp [appendedRecord, recordsFrom, Lines.ends, hdecode]

lemma appendedRecord_length_le (go : GoLib) (disk : Disk) (path : String) (record : Bytes) :
    (appendedRecord go disk path record).length ≤ 1 :=
  List.length_filterMap_le _ _

/-- One partition after an append, as a reader finds it that stopped before. -/
lemma recordsFrom_appended {before : Disk} (hgrow : Grows before disk) (h : WellKept disk)
    (hline : Lines.IsLine newline record) (key : String) :
    recordsFrom go key (Lines.completeLength newline (before.data key))
        (newLines (before.data key) ((disk.appended now path record).data key))
      = recordsFrom go key (Lines.completeLength newline (before.data key))
          (newLines (before.data key) (disk.data key))
        ++ if key = path then appendedRecord go disk path record else [] := by
  rw [data_appended]
  split_ifs with hkey
  swap
  · rw [List.append_nil, List.append_nil]
  subst hkey
  have hpre := hgrow.data_prefix key
  rw [newLines_append hpre (h key) hline, recordsFrom_append, completeLength_add_newLines hpre,
    appendedRecord]

/-- Elements more in one part of a sum. -/
lemma flatMap_append_perm {α β : Type} [DecidableEq α] (f : α → List β) (a : α) (b : List β)
    {l : List α} (hnd : l.Nodup) (ha : a ∈ l) :
    (l.flatMap fun x => f x ++ if x = a then b else []).Perm (l.flatMap f ++ b) := by
  induction l with
  | nil => exact absurd ha List.not_mem_nil
  | cons x l ih =>
      rw [List.nodup_cons] at hnd
      rw [List.flatMap_cons, List.flatMap_cons, List.append_assoc]
      by_cases hx : x = a
      · subst hx
        have hrest : (l.flatMap fun y => f y ++ if y = x then b else []) = l.flatMap f := by
          refine List.flatMap_congr fun y hy => ?_
          rw [if_neg, List.append_nil]
          rintro rfl
          exact hnd.1 hy
        rw [hrest, if_pos rfl, List.append_assoc]
        exact List.perm_append_comm.append_left (f x)
      · have hmem : a ∈ l := (List.mem_cons.mp ha).resolve_left fun h => hx h.symm
        rw [if_neg hx, List.nil_append, List.append_assoc]
        exact (ih hnd.2 hmem).append_left (f x)

/-- **An append adds its record** to what a reader has still to read. -/
lemma newRecords_appended (go : GoLib) {before : Disk} (hgrow : Grows before disk)
    (h : WellKept disk) (hpath : isPartition path = true) (hline : Lines.IsLine newline record) :
    (newRecords go before (disk.appended now path record)).Perm
      (newRecords go before disk ++ appendedRecord go disk path record) := by
  have hin : path ∈ messageFiles (disk.appended now path record) :=
    (mem_messageFiles _ _).mpr ⟨(mem_appended disk now path path record).mpr (Or.inl rfl), hpath⟩
  have hnd := (List.mergeSort_perm (messageFiles (disk.appended now path record))
    (· ≤ ·)).nodup_iff.mpr (messageFiles_nodup _)
  have hsum := flatMap_append_perm (fun key => recordsFrom go key
    (Lines.completeLength newline (before.data key)) (newLines (before.data key) (disk.data key)))
    path (appendedRecord go disk path record) hnd (mem_sorted_messageFiles.mpr hin)
  rw [newRecords, List.flatMap_congr fun key _ => recordsFrom_appended hgrow h hline key]
  refine hsum.trans (List.Perm.append_right _ ?_)
  -- a partition that is new had nothing to read
  rw [newRecords]
  by_cases hold : path ∈ messageFiles disk
  · have hkeys : (messageFiles (disk.appended now path record)).Perm (messageFiles disk) := by
      refine (List.perm_ext_iff_of_nodup (messageFiles_nodup _) (messageFiles_nodup _)).mpr ?_
      intro key
      rw [mem_messageFiles, mem_messageFiles, mem_appended]
      refine ⟨?_, fun hkey => ⟨Or.inr hkey.1, hkey.2⟩⟩
      rintro ⟨rfl | hkey, hpartition⟩
      · exact (mem_messageFiles _ _).mp hold
      · exact ⟨hkey, hpartition⟩
    refine List.Perm.flatMap_right _ ?_
    exact ((List.mergeSort_perm _ _).trans hkeys).trans (List.mergeSort_perm _ _).symm
  · have hkeys : (messageFiles (disk.appended now path record)).Perm
        (path :: messageFiles disk) := by
      refine (List.perm_ext_iff_of_nodup (messageFiles_nodup _)
        (List.nodup_cons.mpr ⟨hold, messageFiles_nodup _⟩)).mpr ?_
      intro key
      rw [List.mem_cons, mem_messageFiles, mem_messageFiles, mem_appended]
      constructor
      · rintro ⟨rfl | hkey, hpartition⟩
        · exact Or.inl rfl
        · exact Or.inr ⟨hkey, hpartition⟩
      · rintro (rfl | ⟨hkey, hpartition⟩)
        · exact ⟨Or.inl rfl, hpath⟩
        · exact ⟨Or.inr hkey, hpartition⟩
    have hnil : disk.data path = [] :=
      data_eq_nil_of_notMem fun hfile => hold ((mem_messageFiles _ _).mpr ⟨hfile, hpath⟩)
    have hnone : recordsFrom go path (Lines.completeLength newline (before.data path))
        (newLines (before.data path) (disk.data path)) = [] := by
      have hpre := hgrow.data_prefix path
      rw [hnil] at hpre ⊢
      rw [List.prefix_nil.mp hpre]
      rfl
    have hsorted : ((messageFiles (disk.appended now path record)).mergeSort (· ≤ ·)).Perm
        (path :: (messageFiles disk).mergeSort (· ≤ ·)) :=
      ((List.mergeSort_perm _ _).trans hkeys).trans ((List.mergeSort_perm _ _).symm.cons path)
    refine (List.Perm.flatMap_right _ hsorted).trans ?_
    rw [List.flatMap_cons, hnone, List.nil_append]

/-- A sum over fewer keys, where the others add nothing. -/
lemma flatMap_perm_of_subset {α β : Type} [DecidableEq α] {f : α → List β} {l l' : List α}
    (hnd : l.Nodup) (hnd' : l'.Nodup) (hsub : l ⊆ l') (hnil : ∀ a ∈ l', a ∉ l → f a = []) :
    (l.flatMap f).Perm (l'.flatMap f) := by
  have hrest : (l'.filter (· ∉ l)).flatMap f = [] := by
    rw [List.flatMap_eq_nil_iff]
    intro a ha
    obtain ⟨hmem, hnot⟩ := List.mem_filter.mp ha
    exact hnil a hmem (by simpa using hnot)
  have hall : (l ++ l'.filter (· ∉ l)).Perm l' := by
    refine (List.perm_ext_iff_of_nodup ?_ hnd').mpr fun a => ?_
    · refine List.nodup_append'.mpr ⟨hnd, hnd'.filter _, fun a ha ha' => ?_⟩
      exact absurd ha (by simpa using (List.mem_filter.mp ha').2)
    · rw [List.mem_append, List.mem_filter, decide_eq_true_eq]
      exact ⟨fun h => h.elim (fun h => hsub h) And.left, fun h => by tauto⟩
  have hperm := hall.flatMap_right f
  rwa [List.flatMap_append, hrest, List.append_nil] at hperm

/-- **What two readers read** one after the other is what one would have read. -/
lemma newRecords_trans (go : GoLib) {a b c : Disk} (hab : Grows a b) (hbc : Grows b c) :
    (newRecords go a b ++ newRecords go b c).Perm (newRecords go a c) := by
  have hsub : (messageFiles b).mergeSort (· ≤ ·) ⊆ (messageFiles c).mergeSort (· ≤ ·) := by
    intro key hkey
    rw [mem_sorted_messageFiles, mem_messageFiles] at hkey ⊢
    exact ⟨(hbc key hkey.1).1, hkey.2⟩
  have hnd : ∀ disk : Disk, ((messageFiles disk).mergeSort (· ≤ ·)).Nodup := fun disk =>
    (List.mergeSort_perm _ _).nodup_iff.mpr (messageFiles_nodup disk)
  have hfirst := flatMap_perm_of_subset (f := fun key => recordsFrom go key
    (Lines.completeLength newline (a.data key)) (newLines (a.data key) (b.data key)))
    (hnd b) (hnd c) hsub fun key hkey hnot => by
      -- a partition that `b` does not have is empty in `a` and `b`
      have hnil : b.data key = [] := data_eq_nil_of_notMem fun hfile =>
        hnot (mem_sorted_messageFiles.mpr ((mem_messageFiles _ _).mpr
          ⟨hfile, ((mem_messageFiles _ _).mp (mem_sorted_messageFiles.mp hkey)).2⟩))
      have hpre := hab.data_prefix key
      rw [hnil] at hpre ⊢
      rw [List.prefix_nil.mp hpre]
      rfl
  refine (hfirst.append_right _).trans ((List.flatMap_append_perm _ _ _).trans ?_)
  refine List.Perm.of_eq (List.flatMap_congr fun key _ => ?_)
  exact recordsFrom_newLines_append go key (hab.data_prefix key) (hbc.data_prefix key)

end

/-- What has been read decodes, and so does what is new. -/
lemma Disk.Readable.grown {go : GoLib} {before disk : Disk} (h : before.Readable go)
    (hgrow : Grows before disk) (hnew : ∀ key ∈ messageFiles disk,
      Decodable go (newLines (before.data key) (disk.data key))) : disk.Readable go := by
  intro key hkey line hline
  rw [terminated_eq_append_newLines (hgrow.data_prefix key)] at hline
  rcases List.mem_append.mp hline with hline | hline
  swap
  · exact hnew key hkey line hline
  by_cases hold : key ∈ messageFiles before
  · exact h key hold line hline
  · have hnil : before.data key = [] := data_eq_nil_of_notMem fun hin =>
      hold ((mem_messageFiles _ _).mpr ⟨hin, ((mem_messageFiles _ _).mp hkey).2⟩)
    rw [hnil] at hline
    exact absurd hline List.not_mem_nil

/-- What is not there yet cannot fail to decode. -/
lemma Disk.Readable.of_grows {go : GoLib} {before disk : Disk} (h : disk.Readable go)
    (hgrow : Grows before disk) : before.Readable go := by
  intro key hkey line hline
  refine h key (hgrow.messageFiles_subset hkey) line ?_
  rw [terminated_eq_append_newLines (hgrow.data_prefix key)]
  exact List.mem_append_left _ hline

/-- A line that has just been appended decodes in a directory in which all lines do. -/
lemma Disk.Readable.appended {go : GoLib} {disk : Disk} {now : Time} {path : String}
    {record : Bytes} (h : (disk.appended now path record).Readable go) (hkept : WellKept disk)
    (hpath : isPartition path = true) (hline : Lines.IsLine newline record) :
    ∃ stored, go.decode record = .ok stored := by
  refine h path ((mem_messageFiles _ _).mpr ⟨(mem_appended _ _ _ _ _).mpr (Or.inl rfl), hpath⟩)
    record ?_
  rw [data_appended, if_pos rfl, terminated_append_line (hkept path) hline]
  exact List.mem_append_right _ (List.mem_singleton_self record)

/-! ## What has been read -/

/-- Of the records of a directory, a reader with these cursors has been given `done` and has still
to be given `unread`. -/
structure HasRead (go : GoLib) (disk : Disk) (cursors : Dict String Cursor)
    (done unread : List StoredRecord) : Prop where
  wellKept : WellKept disk
  reader : ∃ before, AtEnd go before cursors ∧ before.Readable go ∧ Grows before disk ∧
    unread.Perm (newRecords go before disk)
  stored : (storedRecords go disk).Perm (done ++ unread)

namespace HasRead

variable {go : GoLib} {disk : Disk} {cursors : Dict String Cursor}
  {done unread : List StoredRecord}

/-- Nothing has been stored or read. -/
lemma start (go : GoLib) : HasRead go Disk.empty ∅ [] [] := by
  have hnone : messageFiles Disk.empty = [] := by
    refine List.eq_nil_iff_forall_not_mem.mpr fun key hkey => ?_
    exact Finmap.notMem_empty ((mem_messageFiles _ _).mp hkey).1
  have hnothing : newRecords go Disk.empty Disk.empty = [] := by
    rw [newRecords, hnone, List.mergeSort_nil, List.flatMap_nil]
  refine ⟨wellKept_empty, ⟨Disk.empty, atEnd_empty go, ?_, grows_empty _, ?_⟩, ?_⟩
  · rw [Disk.Readable, hnone]
    exact fun key hkey => absurd hkey List.not_mem_nil
  · rw [hnothing]
  · rw [storedRecords, hnothing, List.append_nil]

/-- **An append** stores a line, and its record has not been read. -/
lemma appended (h : HasRead go disk cursors done unread) {now : Time} {path : String}
    {record : Bytes} (hpath : isPartition path = true) (hline : Lines.IsLine newline record) :
    HasRead go (disk.appended now path record) cursors done
      (unread ++ appendedRecord go disk path record) where
  wellKept := h.wellKept.appended hline
  reader := by
    obtain ⟨before, hat, hreadable, hgrow, hunread⟩ := h.reader
    refine ⟨before, hat, hreadable, hgrow.trans (grows_appended _ _ _ _), ?_⟩
    exact (hunread.append_right _).trans
      (newRecords_appended go hgrow h.wellKept hpath hline).symm
  stored := by
    rw [← List.append_assoc]
    exact (newRecords_appended go (grows_empty disk) h.wellKept hpath hline).trans
      (h.stored.append_right _)

/-- What has not been read is what the cursors have not passed. -/
lemma mem_unreadRecords (h : HasRead go disk cursors done unread) {r : StoredRecord} :
    r ∈ unreadRecords go disk cursors ↔ r ∈ unread := by
  obtain ⟨before, hat, -, -, hunread⟩ := h.reader
  rw [unreadRecords_eq hat, hunread.mem_iff]

/-- **A visit** fails because a line does not decode, or all lines do and it is given what has not
been read; then nothing is left. -/
lemma visit (h : HasRead go disk cursors done unread) (order : Traversal String) :
    (∃ key at_ cause, visitAfter go order disk cursors = .error (.decode key at_ cause)) ∨
      disk.Readable go ∧ ∃ visited next, visitAfter go order disk cursors = .ok (visited, next) ∧
        visited.Perm unread ∧ HasRead go disk next (done ++ visited) [] := by
  obtain ⟨before, hat, hreadable, hgrow, hunread⟩ := h.reader
  rcases visitAfter_cases go order hat hgrow with ⟨hnew, next, hvisit, hnext⟩ | ⟨-, herr⟩
  swap
  · exact Or.inl herr
  have hall := hreadable.grown hgrow hnew
  refine Or.inr ⟨hall, _, next, hvisit, hunread.symm, h.wellKept, ⟨disk, hnext, hall, ?_, ?_⟩, ?_⟩
  · exact Grows.refl disk
  · have hnone : newRecords go disk disk = [] := by
      rw [newRecords, List.flatMap_eq_nil_iff]
      intro key _
      have hself := terminated_eq_append_newLines (List.prefix_rfl : disk.data key <+: _)
      have hnil : newLines (disk.data key) (disk.data key) = [] :=
        List.append_cancel_left (hself.symm.trans (List.append_nil _).symm)
      rw [hnil]
      rfl
    rw [hnone]
  · rw [List.append_nil]
    exact h.stored.trans (hunread.append_left done)

/-- A visit of a directory in which all lines decode does not fail. -/
lemma visit_of_readable (h : HasRead go disk cursors done unread) (hreadable : disk.Readable go)
    (order : Traversal String) :
    ∃ visited next, visitAfter go order disk cursors = .ok (visited, next) ∧
      visited.Perm unread ∧ HasRead go disk next (done ++ visited) [] := by
  rcases h.visit order with ⟨key, at_, cause, herr⟩ | ⟨-, hvisit⟩
  · obtain ⟨before, hat, -, hgrow, -⟩ := h.reader
    obtain ⟨next, hok, -⟩ := visitAfter_of_grows go order hat hgrow hreadable
    rw [herr] at hok
    cases hok
  · exact hvisit

end HasRead

/-- **`Append` with a library that frames its records**: it fails and changes nothing, or stores one
line. -/
lemma append_stores {go : GoLib} (hframed : go.Framed) (disk : Disk) (now : Time) (msg : Message) :
    (append go now .none disk msg).1 = disk ∧ (append go now .none disk msg).2 ≠ none ∨
      ∃ record, (append go now .none disk msg)
          = (disk.appended now (pathFor go (stamp now msg)) record, none) ∧
        Lines.IsLine newline record ∧ go.encode (stamp now msg) = .ok record := by
  by_cases hid : msg.id = ""
  · exact Or.inl ⟨by simp [append, hid], by simp [append, hid]⟩
  cases hencode : go.encode (stamp now msg) with
  | error cause => exact Or.inl ⟨by simp [append, hid, hencode], by simp [append, hid, hencode]⟩
  | ok record =>
      obtain ⟨body, hbody, hfree, -⟩ := hframed _ _ hencode
      exact Or.inr ⟨record, by simp [append, hid, hencode, Disk.appended], ⟨body, hbody, hfree⟩, rfl⟩

/-- What an append has stored reads back as what was encoded, if it decodes. -/
lemma forall_appendedRecord {go : GoLib} {same : Message → Message → Prop} (hkeeps : go.Keeps same)
    {msg : Message} {record : Bytes} (hencode : go.encode msg = .ok record) (disk : Disk)
    (path : String) : ∀ r ∈ appendedRecord go disk path record, same msg r.message := by
  intro r hr
  cases hdecode : go.decode record with
  | error cause =>
      rw [appendedRecord_of_error hdecode] at hr
      exact absurd hr List.not_mem_nil
  | ok stored =>
      rw [appendedRecord_of_ok hdecode] at hr
      rw [List.mem_singleton.mp hr]
      exact hkeeps _ _ _ hencode hdecode

end Logthing
