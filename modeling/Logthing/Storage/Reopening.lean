import Logthing.Storage.IndexedQuery
import Logthing.Storage.WrittenPieces

/-!
# A reopened store answers as before

A store that has been running extends the index it has of a partition; one that was just opened
scans the partition from its first byte.  The two agree as long as every cached index ends where a
line ends, for then the extension is the rest of the whole scan (`Resumable`, `indexFile_eq`).

Nothing in the store sees to that.  A partition may come to the store with a last record that has
no line feed; a query indexes that record as a line of its own, and the next append to the
partition is glued to it.  From then on the running store answers with both records and a
reopened one fails (`unterminated_not_reopened`).

**Main results.**  `reopened_run`: along every run in which no append is made to a partition whose
indexed contents end inside a line, each query has the same result on the running store as on one
opened on the same directory.
-/

namespace Logthing

/-! ## Extending an index -/

/-- What an index knows of its partition when extending it is as good as scanning the whole of
it: it was scanned from the beginning of the file, and unless that is all of it still, it ends
where a line ends. -/
def Resumable (go : GoLib) (file : File) (index : FileIndex) : Prop :=
  index.info.inode = file.inode ∧ ∃ pre more entries, file.data = pre ++ more ∧
    index.info.size = pre.length ∧ scanIndex go 0 pre = .ok entries ∧
    index.entries = Sorting.desc entryKey entries ∧ (more = [] ∨ Lines.rest newline pre = [])

lemma scanFrom_of_ok {go : GoLib} (path : String) {file : File} {entries : List IndexEntry}
    (h : scanIndex go 0 file.data = .ok entries) :
    scanFrom go path file 0 [] = .ok ⟨file.info, Sorting.desc entryKey entries⟩ := by
  simp [scanFrom, h]

lemma scanFrom_of_error {go : GoLib} (path : String) {file : File} {cause : String}
    (h : scanIndex go 0 file.data = .error cause) :
    scanFrom go path file 0 []
      = .error ("index message partition " ++ path ++ ": " ++ cause) := by
  simp [scanFrom, h]

lemma scanIndex_append_error {go : GoLib} {pre more : Bytes} {entries : List IndexEntry}
    {cause : String} (hrest : Lines.rest newline pre = [])
    (hpre : scanIndex go 0 pre = .ok entries)
    (hmore : scanIndex go pre.length more = .error cause) :
    scanIndex go 0 (pre ++ more) = .error cause := by
  rw [scanIndex, Lines.all_append_of_rest_eq_nil newline hrest]
  refine scanLines_append_error hpre ?_
  rw [Lines.flatten_all, Nat.zero_add]
  exact hmore

/-- **Extending a resumable index is scanning the whole file**, failures included. -/
lemma indexFile_eq {go : GoLib} {path : String} {file : File} {previous : FileIndex}
    (h : Resumable go file previous) :
    indexFile go path (some previous) file = scanFrom go path file 0 [] := by
  obtain ⟨hinode, pre, more, entries, hdata, hsize, hscan, hentries, hboundary⟩ := h
  simp only [indexFile]
  split_ifs with hsame hgrown
  · -- nothing was written since
    have hnil : more = [] := by
      have hlen : pre.length = (pre ++ more).length := by
        rw [← hsize, ← hdata, hsame]
        rfl
      rw [List.length_append] at hlen
      exact List.length_eq_zero_iff.mp (by omega)
    have hwhole : scanIndex go 0 file.data = .ok entries := by
      rw [hdata, hnil, List.append_nil, hscan]
    rw [scanFrom_of_ok _ hwhole, ← hsame, ← hentries]
  · have hrest : Lines.rest newline pre = [] := by
      rcases hboundary with rfl | hrest
      · rw [hdata, List.append_nil, hsize] at hgrown
        exact absurd hgrown.2 (lt_irrefl _)
      · exact hrest
    have hdrop : file.data.drop previous.info.size = more := by
      rw [hdata, hsize, List.drop_left]
    cases hmore : scanIndex go pre.length more with
    | error cause =>
        have hwhole := scanIndex_append_error hrest hscan hmore
        rw [← hdata] at hwhole
        rw [scanFrom_of_error _ hwhole, scanFrom, hdrop, hsize, hmore]
    | ok added =>
        have hwhole := scanIndex_append hrest hscan hmore
        rw [← hdata] at hwhole
        rw [scanFrom_of_ok _ hwhole, scanFrom, hdrop, hsize]
        simp only [hmore, hentries, desc_append_scanned hwhole]
  · rfl

/-- A whole scan leaves a resumable index. -/
lemma resumable_of_scanFrom {go : GoLib} {path : String} {file : File} {index : FileIndex}
    (h : scanFrom go path file 0 [] = .ok index) : Resumable go file index := by
  cases hscan : scanIndex go 0 file.data with
  | error cause =>
      rw [scanFrom_of_error _ hscan] at h
      exact absurd h (by simp)
  | ok entries =>
      rw [scanFrom_of_ok _ hscan] at h
      rw [← Except.ok.inj h]
      exact ⟨rfl, file.data, [], entries, (List.append_nil _).symm, rfl, hscan, rfl, Or.inl rfl⟩

/-- Writing to a partition keeps its index resumable if the index ends where a line ends. -/
lemma Resumable.extended {go : GoLib} {file file' : File} {index : FileIndex} {piece : Bytes}
    (h : Resumable go file index) (hinode : file'.inode = file.inode)
    (hdata : file'.data = file.data ++ piece)
    (hends : piece = [] ∨ Lines.rest newline (file.data.take index.info.size) = []) :
    Resumable go file' index := by
  obtain ⟨hino, pre, more, entries, hpre, hsize, hscan, hentries, hboundary⟩ := h
  refine ⟨hino.trans hinode.symm, pre, more ++ piece, entries, ?_, hsize, hscan, hentries, ?_⟩
  · rw [hdata, hpre, List.append_assoc]
  · rcases hends with rfl | hends
    · rwa [List.append_nil]
    · rw [hpre, hsize, List.take_left] at hends
      exact Or.inr hends

/-! ## Along a run -/

/-- Every cached index is resumable. -/
def CacheResumes (go : GoLib) (disk : Disk) (store : FileStore) : Prop :=
  ∀ path index, store.indexes.lookup path = some index →
    ∃ file, disk.files.lookup path = some file ∧ Resumable go file index

/-- The condition on an append: as far as the store has indexed the partition it is made to, the
partition ends with a line feed. -/
def StoreCall.ContinuesLines (go : GoLib) (disk : Disk) (store : FileStore) : StoreCall → Prop
  | .append now _ msg =>
      ∀ index, store.indexes.lookup (pathFor go (stamp now msg)) = some index →
        Lines.rest newline ((disk.data (pathFor go (stamp now msg))).take index.info.size) = []
  | .query _ => True

/-- Every append of a run meets the condition in the state it is made in. -/
def continuesLines (go : GoLib) : Disk × FileStore → List StoreCall → Prop
  | _, [] => True
  | state, call :: calls =>
      call.ContinuesLines go state.1 state.2 ∧ continuesLines go (runCall go state call) calls

lemma CacheResumes.new (go : GoLib) (disk : Disk) : CacheResumes go disk FileStore.new := by
  intro path index h
  exact absurd h (by simp [FileStore.new, Finmap.lookup_empty])

/-- **`queryIndexes` on a cache that resumes** finds what it would find without a cache. -/
lemma CacheResumes.indexFiles_eq {go : GoLib} {disk : Disk} {store : FileStore}
    (h : CacheResumes go disk store) :
    ∀ paths, indexFiles go store.indexes disk paths = indexFiles go ∅ disk paths
  | [] => rfl
  | path :: paths => by
      rw [indexFiles, indexFiles, h.indexFiles_eq paths, Finmap.lookup_empty]
      cases hfile : disk.files.lookup path with
      | none => rfl
      | some file =>
          have hindex : indexFile go path (store.indexes.lookup path) file
              = indexFile go path none file := by
            cases hprevious : store.indexes.lookup path with
            | none => rfl
            | some previous =>
                obtain ⟨file', hfile', hresumes⟩ := h path previous hprevious
                rw [hfile] at hfile'
                rw [Option.some.inj hfile']
                exact indexFile_eq hresumes
          simp only [hindex]

/-- A query on a cache that resumes has the result it has on a new store. -/
lemma CacheResumes.query_eq {go : GoLib} {disk : Disk} {store : FileStore}
    (h : CacheResumes go disk store) (q : Query) :
    (query go store disk q).1 = (query go FileStore.new disk q).1 := by
  simp only [query, h.indexFiles_eq, FileStore.new]
  cases compileTextFilter go q.text with
  | error err => rfl
  | ok accepts =>
      cases indexFiles go ∅ disk (messageFiles disk) with
      | error err => rfl
      | ok indexes => rfl

/-- Each call that meets the condition keeps the cache resumable. -/
lemma CacheResumes.run {go : GoLib} {disk : Disk} {store : FileStore}
    (h : CacheResumes go disk store) {call : StoreCall}
    (hcall : call.ContinuesLines go disk store) :
    CacheResumes go (runCall go (disk, store) call).1 (runCall go (disk, store) call).2 := by
  cases call with
  | append now fault msg =>
      have hwritten : ∀ piece, CacheResumes go
          (disk.appended now (pathFor go (stamp now msg)) piece) store := by
        intro piece path index hindex
        obtain ⟨file, hfile, hresumes⟩ := h path index hindex
        obtain ⟨file', hfile', hinode, hdata⟩ :=
          lookup_appended disk now (pathFor go (stamp now msg)) path piece hfile
        refine ⟨file', hfile', hresumes.extended hinode hdata ?_⟩
        split_ifs with hpath
        · subst hpath
          refine Or.inr ?_
          have hends := hcall index hindex
          rwa [Disk.data, hfile] at hends
        · exact Or.inl rfl
      simp only [runCall]
      rcases append_cases go now fault disk msg with
        ⟨record, -, -, heq⟩ | ⟨record, err, -, -, heq⟩ | ⟨err, -, heq⟩
      · rw [heq]
        exact hwritten _
      · rw [heq]
        exact hwritten _
      · rw [heq]
        exact h
  | query q =>
      simp only [runCall, query, h.indexFiles_eq]
      cases compileTextFilter go q.text with
      | error err => exact h
      | ok accepts =>
          cases hindexes : indexFiles go ∅ disk (messageFiles disk) with
          | error err => exact h
          | ok indexes =>
              intro path index hindex
              obtain ⟨file, hfile, hscan⟩ := (lookup_indexFiles hindexes).2 index hindex
              rw [Finmap.lookup_empty] at hscan
              exact ⟨file, hfile, resumable_of_scanFrom hscan⟩

/-- The run lemma. -/
lemma CacheResumes.runCalls {go : GoLib} {disk : Disk} {store : FileStore} {calls : List StoreCall}
    (h : CacheResumes go disk store) (hcalls : continuesLines go (disk, store) calls) :
    CacheResumes go (Logthing.runCalls go (disk, store) calls).1
      (Logthing.runCalls go (disk, store) calls).2 := by
  induction calls generalizing disk store with
  | nil => exact h
  | cons call calls ih => exact ih (h.run hcalls.1) hcalls.2

/-! ## A partition that ends inside a line -/

/-- Appending to a partition that is there adds none. -/
lemma messageFiles_appended (disk : Disk) (now : Time) {path : String} (buf : Bytes)
    (hpath : path ∈ disk.files) :
    messageFiles (disk.appended now path buf) = messageFiles disk := by
  have hkeys : (disk.appended now path buf).files.keys = disk.files.keys := by
    ext key
    rw [Finmap.mem_keys, Finmap.mem_keys, mem_appended]
    constructor
    · rintro (rfl | h)
      · exact hpath
      · exact h
    · exact Or.inr
  rw [messageFiles, messageFiles, hkeys]

section

variable {go : GoLib} {disk : Disk} {store : FileStore} {path : String} {file : File}
  (hfiles : messageFiles disk = [path]) (hfile : disk.files.lookup path = some file) {q : Query}
  {accepts : Message → Bool} (hcompile : compileTextFilter go q.text = .ok accepts)

include hfiles hfile hcompile

/-- A query over one partition. -/
lemma query_of_single (hfits : fitsMemory q.limit = true) {index : FileIndex}
    (hindex : indexFile go path (store.indexes.lookup path) file = .ok index) :
    query go store disk q
      = (queryLoop go disk ⟨accepts, queryText go q.text, selectedHosts q.hosts,
          effectiveLimit q.limit, q.offset, q.since⟩
          (startCursors ((∅ : Dict String FileIndex).insert path index) q.until_ 0 [path]) 0 [],
        ⟨(∅ : Dict String FileIndex).insert path index⟩) := by
  simp [query, hcompile, hfiles, indexFiles, hfile, hindex, hfits]

lemma query_of_single_error {err : String}
    (hindex : indexFile go path (store.indexes.lookup path) file = .error err) :
    (query go store disk q).1 = .error err := by
  simp [query, hcompile, hfiles, indexFiles, hfile, hindex]

end

lemma startCursors_pair (path : String) (info : FileInfo) (a b : IndexEntry) :
    startCursors ((∅ : Dict String FileIndex).insert path ⟨info, [a, b]⟩) none 0 [path]
      = [⟨path, 0, a, [b]⟩] := by
  simp [startCursors, entriesUntil, entriesOf, Finmap.lookup_insert]

/-- The loop over one partition of two records that nothing filters. -/
lemma queryLoop_pair {go : GoLib} {disk : Disk} {path : String} {a b : IndexEntry}
    {dataA dataB : Bytes} {msgA msgB : Message} (accepts : Message → Bool)
    (ha : readEntry disk path a = .ok dataA) (hb : readEntry disk path b = .ok dataB)
    (hmsgA : go.decode dataA = .ok msgA) (hmsgB : go.decode dataB = .ok msgB) :
    queryLoop go disk ⟨accepts, "", [], 200, 0, none⟩ [⟨path, 0, a, [b]⟩] 0 []
      = .ok [msgA, msgB] := by
  have hdone : queryLoop go disk ⟨accepts, "", [], 200, 0, none⟩ [] 0 [msgA, msgB]
      = .ok [msgA, msgB] := by
    rw [queryLoop]
    simp [popMin]
  have hsecond : queryLoop go disk ⟨accepts, "", [], 200, 0, none⟩ [⟨path, 0, b, []⟩] 0 [msgA]
      = .ok [msgA, msgB] := by
    rw [queryLoop]
    simp [popMin, pushNext, hb, hmsgB, hdone]
  rw [queryLoop]
  simp [popMin, pushNext, ha, hmsgA, hsecond]

/-- The partition `sampleMessage` belongs to. -/
noncomputable def samplePath : String := pathFor sampleLib sampleMessage

/-- A directory that came to the store with a last record without its line feed. -/
noncomputable def unterminatedDisk : Disk := Disk.single samplePath sampleLine

/-- The entry of `sampleMessage` at an offset. -/
def sampleEntry (offset length : ℕ) : IndexEntry := ⟨1000000000, "", offset, length⟩

lemma sampleLib_decodeKey {line : Bytes} (h : sampleLib.decode line = .ok sampleMessage) :
    sampleLib.decodeKey line = .ok (1000000000, "") :=
  ofTable_keyAgrees line sampleMessage h

lemma sampleLib_decode_unterminated : sampleLib.decode sampleLine = .ok sampleMessage := by
  simp [sampleLib, GoLib.ofTable]

lemma scanIndex_sample (offset : ℕ) : scanIndex sampleLib offset (sampleLine ++ [newline])
    = .ok [sampleEntry offset (sampleLine.length + 1)] := by
  have hall : Lines.all newline (sampleLine ++ [newline]) = [sampleLine ++ [newline]] := by decide
  have hfits : fitsScanner (sampleLine ++ [newline]) = true := by decide
  rw [scanIndex, hall, scanLines, if_pos hfits, sampleLib_decodeKey sampleLib_decode]
  rfl

lemma scanIndex_unterminated :
    scanIndex sampleLib 0 sampleLine = .ok [sampleEntry 0 sampleLine.length] := by
  have hall : Lines.all newline sampleLine = [sampleLine] := by decide
  have hfits : fitsScanner sampleLine = true := by decide
  rw [scanIndex, hall, scanLines, if_pos hfits, sampleLib_decodeKey sampleLib_decode_unterminated]
  rfl

/-- A first query indexes the one record of a partition. -/
lemma query_sample {data : Bytes} {entry : IndexEntry}
    (h : scanIndex sampleLib 0 data = .ok [entry]) :
    (query sampleLib FileStore.new (Disk.single samplePath data) {}).2
      = ⟨(∅ : Dict String FileIndex).insert samplePath ⟨⟨0, data.length, 0⟩, [entry]⟩⟩ := by
  have hfiles : messageFiles (Disk.single samplePath data) = [samplePath] :=
    messageFiles_single (isPartition_pathFor _ _) _
  have hlookup : (Disk.single samplePath data).files.lookup samplePath = some ⟨0, 0, data⟩ :=
    Finmap.lookup_singleton_eq
  obtain ⟨accepts, hcompile⟩ : ∃ accepts,
      compileTextFilter sampleLib ({} : Query).text = .ok accepts := ⟨_, rfl⟩
  have hscan : scanIndex sampleLib 0 (File.mk 0 0 data).data = .ok [entry] := h
  have hindex : indexFile sampleLib samplePath (FileStore.new.indexes.lookup samplePath)
      ⟨0, 0, data⟩ = .ok ⟨⟨0, data.length, 0⟩, [entry]⟩ := by
    refine (scanFrom_of_ok _ hscan).trans ?_
    rw [Sorting.desc, List.mergeSort_singleton]
    rfl
  exact congrArg Prod.snd (query_of_single hfiles hlookup hcompile (by decide) hindex)

/-- Two records on one line are no index key. -/
lemma scanIndex_glued : ∃ cause,
    scanIndex sampleLib 0 (sampleLine ++ (sampleLine ++ [newline])) = .error cause := by
  have hflat : ∀ entry ∈ [(sampleMessage, sampleLine)], FlatLine entry.2 := by
    simp [flatLine_sampleLine]
  have hline : Lines.IsLine newline (sampleLine ++ (sampleLine ++ [newline])) :=
    ⟨sampleLine ++ sampleLine, (List.append_assoc _ _ _).symm, by decide⟩
  have hall : Lines.all newline (sampleLine ++ (sampleLine ++ [newline]))
      = [sampleLine ++ (sampleLine ++ [newline])] := by
    have h := Lines.all_line_append newline hline []
    rwa [List.append_nil] at h
  have hfits : fitsScanner (sampleLine ++ (sampleLine ++ [newline])) = true := by decide
  obtain ⟨cause, hcause⟩ := ofTable_rejectsTrailing hflat sampleLine _
    [sampleLine ++ [newline]] (sampleLib_decodeKey sampleLib_decode_unterminated) (by decide) (by simp) (by
      intro piece hpiece
      rw [List.mem_singleton.mp hpiece]
      exact ⟨by simp, sampleMessage, _, sampleLib_encode, List.prefix_rfl⟩)
  rw [List.flatten_singleton] at hcause
  refine ⟨cause, ?_⟩
  rw [scanIndex, hall, scanLines, if_pos hfits]
  have hcause : sampleLib.decodeKey (sampleLine ++ (sampleLine ++ [newline])) = .error cause :=
    hcause
  rw [hcause]

/-- The index of the partition as it came. -/
def unterminatedIndex : FileIndex := ⟨⟨0, sampleLine.length, 0⟩, [sampleEntry 0 sampleLine.length]⟩

/-- The index after the append, in the running store. -/
lemma indexFile_continued {file : File} (hinode : file.inode = 0)
    (hdata : file.data = sampleLine ++ (sampleLine ++ [newline])) :
    indexFile sampleLib samplePath (some unterminatedIndex) file
      = .ok ⟨file.info, [sampleEntry sampleLine.length (sampleLine.length + 1),
          sampleEntry 0 sampleLine.length]⟩ := by
  have hsame : unterminatedIndex.info ≠ file.info := by
    intro h
    have hsize : sampleLine.length = file.data.length := congrArg FileInfo.size h
    rw [hdata, List.length_append, List.length_append, List.length_singleton] at hsize
    omega
  have hgrown : unterminatedIndex.info.inode = file.inode ∧
      unterminatedIndex.info.size < file.data.length := by
    refine ⟨hinode.symm, ?_⟩
    rw [hdata, List.length_append, List.length_append, List.length_singleton]
    exact Nat.lt_add_of_pos_right (Nat.succ_pos _)
  have hdrop : file.data.drop unterminatedIndex.info.size = sampleLine ++ [newline] := by
    rw [hdata]
    exact List.drop_left
  have hsort : Sorting.desc entryKey ([sampleEntry 0 sampleLine.length] ++
      [sampleEntry sampleLine.length (sampleLine.length + 1)])
      = [sampleEntry sampleLine.length (sampleLine.length + 1),
        sampleEntry 0 sampleLine.length] := by
    have hlt : entryKey (sampleEntry 0 sampleLine.length)
        < entryKey (sampleEntry sampleLine.length (sampleLine.length + 1)) := by decide
    refine Sorting.desc_eq_of_perm entryKey (List.Perm.swap _ _ _) ?_ ?_
    · exact List.pairwise_pair.mpr hlt.le
    · intro a ha b hb heq
      simp only [List.cons_append, List.nil_append, List.mem_cons, List.not_mem_nil, or_false]
        at ha hb
      rcases ha with rfl | rfl <;> rcases hb with rfl | rfl
      · rfl
      · exact absurd heq hlt.ne
      · exact absurd heq hlt.ne'
      · rfl
  have hscan : scanIndex sampleLib unterminatedIndex.info.size (sampleLine ++ [newline])
      = .ok [sampleEntry sampleLine.length (sampleLine.length + 1)] := scanIndex_sample _
  simp only [indexFile, if_neg hsame, if_pos hgrown, scanFrom, hdrop, hscan]
  rw [← hsort]
  rfl

/-- **A restart does not change query results** along a run whose appends continue whole lines.
Take any directory, a new `FileStore` on it and any appends and queries of which no append is made
to a partition that ends inside a line where the store has indexed it up to.  Then every query has
the same result, or fails in the same way, on this store and on one opened on the directory as it
is then. -/
theorem reopened_run (go : GoLib) (initial : Disk) (calls : List StoreCall)
    (hcalls : continuesLines go (initial, FileStore.new) calls) (q : Query) :
    (query go (runCalls go (initial, FileStore.new) calls).2
        (runCalls go (initial, FileStore.new) calls).1 q).1
      = (query go FileStore.new (runCalls go (initial, FileStore.new) calls).1 q).1 :=
  ((CacheResumes.new go initial).runCalls hcalls).query_eq q

/-- A partition that ends with a line feed, queried and appended to. -/
theorem reopened_run_terminated :
    (query sampleLib (runCalls sampleLib
          (Disk.single samplePath (sampleLine ++ [newline]), FileStore.new)
          [.query {}, .append 0 .none sampleMessage]).2
        (runCalls sampleLib (Disk.single samplePath (sampleLine ++ [newline]), FileStore.new)
          [.query {}, .append 0 .none sampleMessage]).1 {}).1
      = (query sampleLib FileStore.new
        (runCalls sampleLib (Disk.single samplePath (sampleLine ++ [newline]), FileStore.new)
          [.query {}, .append 0 .none sampleMessage]).1 {}).1 := by
  refine reopened_run sampleLib _ _ ?_ {}
  refine And.intro trivial (And.intro (fun index hindex => ?_) trivial)
  have hstamp : stamp 0 sampleMessage = sampleMessage := by simp [stamp, sampleMessage]
  have hpath : pathFor sampleLib (stamp 0 sampleMessage) = samplePath := by rw [hstamp, samplePath]
  have hstore : (runCall sampleLib (Disk.single samplePath (sampleLine ++ [newline]),
      FileStore.new) (.query {})).2 = _ := query_sample (scanIndex_sample 0)
  rw [hpath, hstore] at hindex
  have hindex : index = ⟨⟨0, (sampleLine ++ [newline]).length, 0⟩, _⟩ :=
    (Option.some.inj ((Finmap.lookup_insert _).symm.trans hindex)).symm
  have hdata : (runCall sampleLib (Disk.single samplePath (sampleLine ++ [newline]),
      FileStore.new) (.query {})).1.data samplePath = sampleLine ++ [newline] :=
    Disk.data_single _ _
  rw [hpath, hdata, hindex, List.take_length]
  decide

/-- **The record that a restart takes away.**  The partition ends in a record without a line feed
when the first query indexes it; the second record is appended, with success, right behind it.
The running store then answers with both, a reopened one fails. -/
theorem unterminated_not_reopened :
    appendError sampleLib unterminatedDisk (.append 0 .none sampleMessage) = none ∧
      (query sampleLib
        (runCalls sampleLib (unterminatedDisk, FileStore.new)
          [.query {}, .append 0 .none sampleMessage]).2
        (runCalls sampleLib (unterminatedDisk, FileStore.new)
          [.query {}, .append 0 .none sampleMessage]).1 {}).1
        = .ok [sampleMessage, sampleMessage] ∧
      ∃ err, (query sampleLib FileStore.new
        (runCalls sampleLib (unterminatedDisk, FileStore.new)
          [.query {}, .append 0 .none sampleMessage]).1 {}).1 = .error err := by
  have hstamp : stamp 0 sampleMessage = sampleMessage := by simp [stamp, sampleMessage]
  have hfiles : messageFiles unterminatedDisk = [samplePath] :=
    messageFiles_single (isPartition_pathFor _ _) _
  have hlookup : unterminatedDisk.files.lookup samplePath = some ⟨0, 0, sampleLine⟩ :=
    Finmap.lookup_singleton_eq
  obtain ⟨accepts, hcompile⟩ : ∃ accepts,
      compileTextFilter sampleLib ({} : Query).text = .ok accepts := ⟨_, rfl⟩
  -- the first query indexes the record that has no line feed
  have hfirst : (query sampleLib FileStore.new unterminatedDisk {}).2
      = ⟨(∅ : Dict String FileIndex).insert samplePath unterminatedIndex⟩ :=
    query_sample scanIndex_unterminated
  -- the append goes right behind it
  have happend : append sampleLib 0 .none unterminatedDisk sampleMessage
      = (unterminatedDisk.appended 0 samplePath (sampleLine ++ [newline]), none) := by
    have hid : sampleMessage.id ≠ "" := by decide
    simp [append, hid, hstamp, sampleLib_encode, Disk.appended, samplePath]
  obtain ⟨file, hfile, hinode, hdata⟩ := lookup_appended unterminatedDisk 0 samplePath samplePath
    (sampleLine ++ [newline]) hlookup
  rw [if_pos rfl] at hdata
  have hfiles' := messageFiles_appended unterminatedDisk 0 (sampleLine ++ [newline])
    (Finmap.mem_of_lookup_eq_some hlookup)
  have hrun : runCalls sampleLib (unterminatedDisk, FileStore.new)
      [.query {}, .append 0 .none sampleMessage]
      = (unterminatedDisk.appended 0 samplePath (sampleLine ++ [newline]),
        (query sampleLib FileStore.new unterminatedDisk {}).2) := by
    simp [runCalls, runCall, happend]
  rw [hrun, hfirst]
  rw [hfiles] at hfiles'
  generalize unterminatedDisk.appended 0 samplePath (sampleLine ++ [newline]) = disk
    at happend hfile hfiles' ⊢
  refine ⟨by rw [appendError, happend], ?_, ?_⟩
  · have hindex : indexFile sampleLib samplePath
        (FileStore.indexes ⟨(∅ : Dict String FileIndex).insert samplePath
          unterminatedIndex⟩ |>.lookup samplePath) file
        = .ok ⟨file.info, [sampleEntry sampleLine.length (sampleLine.length + 1),
            sampleEntry 0 sampleLine.length]⟩ := by
      rw [Finmap.lookup_insert]
      exact indexFile_continued hinode hdata
    have hquery := query_of_single hfiles' hfile hcompile (by decide) hindex
    have hdisk : disk.data samplePath = sampleLine ++ (sampleLine ++ [newline]) := by
      rw [Disk.data, hfile, Option.map_some, Option.getD_some, hdata]
    have hfirstRead : readEntry disk samplePath (sampleEntry 0 sampleLine.length)
        = .ok sampleLine := by
      have h : ((disk.data samplePath).drop 0).take sampleLine.length = sampleLine := by
        rw [hdisk, List.drop_zero, List.take_left]
      simp only [readEntry, sampleEntry, h, if_true]
    have hsecondRead : readEntry disk samplePath
        (sampleEntry sampleLine.length (sampleLine.length + 1))
          = .ok (sampleLine ++ [newline]) := by
      have h : ((disk.data samplePath).drop sampleLine.length).take (sampleLine.length + 1)
          = sampleLine ++ [newline] := by
        rw [hdisk, List.drop_left, List.take_of_length_le]
        simp
      simp only [readEntry, sampleEntry, h, List.length_append, List.length_singleton, if_true]
    have hloop := queryLoop_pair accepts hsecondRead hfirstRead sampleLib_decode
      sampleLib_decode_unterminated
    rw [hquery, startCursors_pair]
    exact hloop
  · obtain ⟨cause, hcause⟩ := scanIndex_glued
    have hcause' : scanIndex sampleLib 0 file.data = .error cause := by rw [hdata, hcause]
    have hindex : indexFile sampleLib samplePath (FileStore.new.indexes.lookup samplePath) file
        = .error ("index message partition " ++ samplePath ++ ": " ++ cause) :=
      scanFrom_of_error _ hcause'
    exact ⟨_, query_of_single_error hfiles' hfile hcompile hindex⟩

end Logthing
