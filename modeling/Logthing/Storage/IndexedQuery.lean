import Logthing.Storage.IndexCache
import Logthing.Storage.QueryMerge
import Logthing.Storage.RecordTable

/-!
# The indexed query is the naive query

The heap `query` starts from offers exactly the rows not later than `Until`
(`merged_startCursors`), the cache is up to date (`indexFiles_eq_rows`) and the loop returns a
page of the rows it is offered (`queryLoop_eq`).

**Main result.**  `query_eq_naiveQuery`: after any appends and queries on a `FileStore`, whatever
failed among them, a query over partitions whose lines decode and fit returns `naiveQuery`.
-/

namespace Logthing

/-! ## The heap the loop starts from -/

/-- Whether an entry is not later than the bound. -/
def IndexEntry.notAfter (until_ : Option Time) (entry : IndexEntry) : Bool :=
  until_.all (entry.receivedAt ≤ ·)

/-- **The binary search cuts exactly the entries that are too late.** -/
lemma entriesUntil_eq_filter {until_ : Option Time} {entries : List IndexEntry}
    (hsorted : entries.Pairwise fun a b => entryKey b ≤ entryKey a) :
    entriesUntil until_ entries = entries.filter (IndexEntry.notAfter until_) := by
  cases until_ with
  | none =>
      have hall : entries.filter (IndexEntry.notAfter none) = entries := by
        rw [List.filter_eq_self]
        intro entry _
        rfl
      rw [hall]
      rfl
  | some bound =>
      have htime : entries.Pairwise fun a b => b.receivedAt ≤ a.receivedAt := by
        refine hsorted.imp fun {a b} h => ?_
        rw [entryKey, entryKey, Prod.Lex.toLex_le_toLex] at h
        rcases h with hlt | ⟨heq, -⟩
        · exact hlt.le
        · exact heq.le
      let f : ℕ → Bool := fun i => !(entries[i]?.any fun entry => bound < entry.receivedAt)
      have hmono : ∀ a b, a ≤ b → f a = true → f b = true := by
        intro a b hab ha
        rcases Nat.eq_or_lt_of_le hab with rfl | hlt
        · exact ha
        · cases hb : entries[b]? with
          | none => simp [f, hb]
          | some last =>
              obtain ⟨hblen, hlast⟩ := List.getElem?_eq_some_iff.mp hb
              have halen : a < entries.length := hlt.trans hblen
              have hle := List.pairwise_iff_getElem.mp htime a b halen hblen hlt
              simp only [f, List.getElem?_eq_getElem halen, hb, Option.any_some, Bool.not_eq_true',
                decide_eq_false_iff_not, not_lt] at ha ⊢
              rw [← hlast]
              exact hle.trans ha
      obtain ⟨hbelow, habove⟩ := Sorting.search_spec hmono (n := entries.length) 0 entries.length
        (Nat.zero_le _) (fun k hk => absurd hk (Nat.not_lt_zero k)) (fun k hk hk' => by omega)
      have hcut : entriesUntil (some bound) entries = entries.drop (Sorting.search f 0 entries.length) :=
        rfl
      generalize Sorting.search f 0 entries.length = cut at hbelow habove hcut
      rw [hcut]
      conv_rhs => rw [← List.take_append_drop cut entries, List.filter_append]
      have hdropped : (entries.take cut).filter (IndexEntry.notAfter (some bound)) = [] := by
        rw [List.filter_eq_nil_iff]
        intro entry hentry
        obtain ⟨i, hi, hget⟩ := List.mem_iff_getElem.mp hentry
        rw [List.length_take] at hi
        have h := hbelow i (by omega)
        simp only [f, List.getElem?_eq_getElem (show i < entries.length by omega), Option.any_some,
          Bool.not_eq_false', decide_eq_true_eq] at h
        rw [List.getElem_take] at hget
        rw [hget] at h
        simpa [IndexEntry.notAfter] using h
      have hkept : (entries.drop cut).filter (IndexEntry.notAfter (some bound))
          = entries.drop cut := by
        rw [List.filter_eq_self]
        intro entry hentry
        obtain ⟨i, hi, hget⟩ := List.mem_iff_getElem.mp hentry
        rw [List.length_drop] at hi
        have h := habove (cut + i) (by omega) (by omega)
        simp only [f, List.getElem?_eq_getElem (show cut + i < entries.length by omega),
          Option.any_some, Bool.not_eq_true', decide_eq_false_iff_not, not_lt] at h
        rw [List.getElem_drop] at hget
        rw [hget] at h
        simpa [IndexEntry.notAfter] using h
      rw [hdropped, hkept, List.nil_append]

lemma located_startCursors (indexes : Dict String FileIndex) (until_ : Option Time) :
    ∀ (paths : List String) (order : ℕ),
      (startCursors indexes until_ order paths).flatMap IndexCursor.located
        = paths.flatMap fun path =>
            (entriesUntil until_ (entriesOf indexes path)).map fun entry => (path, entry)
  | [], _ => rfl
  | path :: paths, order => by
      have ih := located_startCursors indexes until_ paths (order + 1)
      rw [startCursors, List.flatMap_cons, ← ih]
      cases entriesUntil until_ (entriesOf indexes path) with
      | nil => rfl
      | cons entry rest => rfl

lemma mem_startCursors {indexes : Dict String FileIndex} {until_ : Option Time}
    {cursor : IndexCursor} :
    ∀ {paths : List String} {order : ℕ}, cursor ∈ startCursors indexes until_ order paths →
      cursor.path ∈ paths ∧ order ≤ cursor.order ∧
        cursor.entry :: cursor.rest = entriesUntil until_ (entriesOf indexes cursor.path)
  | [], _, h => by simp [startCursors] at h
  | path :: paths, order, h => by
      rw [startCursors] at h
      have hrest : cursor ∈ startCursors indexes until_ (order + 1) paths →
          cursor.path ∈ path :: paths ∧ order ≤ cursor.order ∧
            cursor.entry :: cursor.rest
              = entriesUntil until_ (entriesOf indexes cursor.path) := by
        intro hmem
        obtain ⟨hpath, horder, hentries⟩ := mem_startCursors hmem
        exact ⟨List.mem_cons_of_mem _ hpath, by omega, hentries⟩
      split at h
      · exact hrest h
      · rename_i entry rest hentries
        rcases List.mem_cons.mp h with rfl | h
        · exact ⟨by simp, le_rfl, hentries.symm⟩
        · exact hrest h

/-- Cursors are numbered in the order of decreasing path. -/
lemma pairwise_startCursors (indexes : Dict String FileIndex) (until_ : Option Time) :
    ∀ (paths : List String) (order : ℕ), (paths.Pairwise fun a b => b < a) →
      (startCursors indexes until_ order paths).Pairwise fun a b =>
        a.order < b.order ∧ b.path < a.path
  | [], _, _ => List.Pairwise.nil
  | path :: paths, order, h => by
      rw [List.pairwise_cons] at h
      have ih := pairwise_startCursors indexes until_ paths (order + 1) h.2
      rw [startCursors]
      split
      · exact ih
      · refine List.Pairwise.cons (fun cursor hcursor => ?_) ih
        obtain ⟨hpath, horder, -⟩ := mem_startCursors hcursor
        exact ⟨Nat.lt_of_succ_le horder, h.1 _ hpath⟩

lemma pairwise_messageFiles (disk : Disk) : (messageFiles disk).Pairwise fun a b => b < a :=
  (Finset.sortedGT_sort _).pairwise

/-- The rows not later than `until`, in the order they are returned in. -/
def rowsUntil (go : GoLib) (disk : Disk) (until_ : Option Time) : List Row :=
  (Sorting.desc Row.key (storedRows go disk)).filter (IndexEntry.notAfter until_ ·.entry)

section

variable {go : GoLib} {disk : Disk} {indexes : Dict String FileIndex} (until_ : Option Time)
  (hindexes : ∀ path ∈ messageFiles disk, entriesOf indexes path
    = Sorting.desc entryKey ((partitionRows go disk path).map Row.entry))

include hindexes

/-- The heap offers the rows not later than `until`, and nothing else. -/
lemma located_start_perm :
    ((startCursors indexes until_ 0 (messageFiles disk)).flatMap IndexCursor.located).Perm
      (((storedRows go disk).filter (IndexEntry.notAfter until_ ·.entry)).map Row.located) := by
  rw [located_startCursors, storedRows, List.filter_flatMap, List.map_flatMap]
  refine List.Perm.flatMap_left _ fun path hpath => ?_
  rw [hindexes path hpath, entriesUntil_eq_filter (Sorting.pairwise_desc entryKey _)]
  have hperm := ((Sorting.desc_perm entryKey ((partitionRows go disk path).map Row.entry)).filter
    (IndexEntry.notAfter until_)).map fun entry => (path, entry)
  refine hperm.trans (List.Perm.of_eq ?_)
  rw [List.filter_map, List.map_map]
  refine List.map_congr_left fun row hrow => ?_
  rw [Row.located, path_of_mem_rowsFrom (List.mem_of_mem_filter hrow)]
  rfl

lemma exists_row_of_mem_located {located : String × IndexEntry}
    (h : located ∈ (startCursors indexes until_ 0 (messageFiles disk)).flatMap
      IndexCursor.located) : ∃ row ∈ storedRows go disk, row.located = located := by
  have hmem := (located_start_perm until_ hindexes).mem_iff.mp h
  obtain ⟨row, hrow, hlocated⟩ := List.mem_map.mp hmem
  exact ⟨row, List.mem_of_mem_filter hrow, hlocated⟩

lemma heap_startCursors : Heap (startCursors indexes until_ 0 (messageFiles disk)) := by
  have hpair := pairwise_startCursors indexes until_ _ 0 (pairwise_messageFiles disk)
  refine ⟨fun cursor hcursor => ?_, hpair.imp fun h => h.2.ne', fun a ha b hb => ?_,
    fun a ha b hb hab => ?_⟩
  · obtain ⟨hpath, -, hentries⟩ := mem_startCursors hcursor
    rw [hentries, hindexes _ hpath, entriesUntil_eq_filter (Sorting.pairwise_desc entryKey _)]
    exact (Sorting.pairwise_desc entryKey _).filter _
  · by_cases hab : a = b
    · subst hab
      exact ⟨fun h => absurd h (lt_irrefl _), fun h => absurd h (lt_irrefl _)⟩
    · have hsymm : Std.Symm fun a b : IndexCursor =>
          (a.order < b.order ∧ b.path < a.path) ∨ (b.order < a.order ∧ a.path < b.path) :=
        ⟨fun _ _ h => h.symm⟩
      have hpair' : (startCursors indexes until_ 0 (messageFiles disk)).Pairwise fun a b =>
          (a.order < b.order ∧ b.path < a.path) ∨ (b.order < a.order ∧ a.path < b.path) :=
        hpair.imp Or.inl
      rcases hpair'.forall ha hb hab with ⟨horder, hpath⟩ | ⟨horder, hpath⟩
      · exact ⟨fun _ => hpath, fun _ => horder⟩
      · exact ⟨fun h => absurd h horder.asymm, fun h => absurd h hpath.asymm⟩
  · obtain ⟨row, hrow, rfl⟩ := exists_row_of_mem_located until_ hindexes ha
    obtain ⟨row', hrow', rfl⟩ := exists_row_of_mem_located until_ hindexes hb
    rw [eq_of_key_eq hrow hrow' hab]

/-- **The heap offers the rows in order.** -/
lemma merged_startCursors : merged (startCursors indexes until_ 0 (messageFiles disk))
    = (rowsUntil go disk until_).map Row.located := by
  have hinj : ∀ a ∈ storedRows go disk, ∀ b ∈ storedRows go disk, a.key = b.key → a = b :=
    fun a ha b hb => eq_of_key_eq ha hb
  have hrows := located_start_perm until_ hindexes
  refine Sorting.desc_eq_of_perm locatedKey ?_ ?_ (heap_startCursors until_ hindexes).injective
  · refine hrows.trans (List.Perm.map _ ?_)
    exact ((Sorting.desc_perm Row.key _).filter _).symm
  · exact List.pairwise_map.mpr ((Sorting.pairwise_desc Row.key _).filter _)

end

/-! ## The query -/

/-- Where nothing is cut off by age, a page is a stretch of the selected rows. -/
lemma page_rowsUntil (go : GoLib) (disk : Disk) (q : Query) (accepts : Message → Bool)
    (text : String) :
    Selection.page ⟨accepts, text, selectedHosts q.hosts, effectiveLimit q.limit, q.offset,
      q.since⟩ (rowsUntil go disk q.until_) 0 0 = naiveQuery go disk q accepts := by
  have hsorted : (rowsUntil go disk q.until_).Pairwise fun a b =>
      b.message.receivedAt ≤ a.message.receivedAt := by
    refine ((Sorting.pairwise_desc Row.key _).filter _).imp fun {a b} h => ?_
    rw [Row.key, Row.key, Prod.Lex.toLex_le_toLex] at h
    rcases h with hlt | ⟨heq, -⟩
    · exact hlt.le
    · exact heq.le
  -- since the rows are latest first, stopping at the first that is too old loses none
  have hstop : (rowsUntil go disk q.until_).takeWhile
        (fun row => q.since.all (· ≤ row.message.receivedAt))
      = (rowsUntil go disk q.until_).filter
        (fun row => q.since.all (· ≤ row.message.receivedAt)) := by
    cases q.since with
    | none => simp
    | some bound =>
        exact Sorting.takeWhile_eq_filter_of_pairwise (fun row : Row => row.message.receivedAt)
          bound hsorted
  have hfilter : ((rowsUntil go disk q.until_).filter
        (fun row => q.since.all (· ≤ row.message.receivedAt))).map Row.message
      = (((Sorting.desc Row.key (storedRows go disk)).map Row.message).filter
          fun msg => q.until_.all (msg.receivedAt ≤ ·) && q.since.all (· ≤ msg.receivedAt)) := by
    rw [rowsUntil, List.filter_filter, List.filter_map]
    congr 1
    refine List.filter_congr fun row _ => ?_
    show (_ && q.until_.all _) = (q.until_.all _ && _)
    rw [Bool.and_comm]
    rfl
  rw [Selection.page, naiveQuery]
  have hoffset : q.offset - ((0 : ℕ) : ℤ) = q.offset := Int.sub_zero _
  simp only [hstop, hfilter, List.filter_filter, hoffset, Nat.sub_zero]
  congr 3
  funext msg
  simp only [Selection.selects, wanted]
  rw [Bool.and_comm, Bool.and_assoc, Bool.and_assoc, Bool.and_assoc]

/-- A query on a store whose cache tracks the directory. -/
lemma query_of_indexable {go : GoLib} (hframed : go.Framed) (hkey : go.KeyAgrees)
    (htrail : go.RejectsTrailing) (hlower : go.LowerKeepsBlank) {disk : Disk} {store : FileStore}
    (htracks : CacheTracks go disk store)
    (hlines : ∀ path ∈ messageFiles disk, Indexable go (Lines.all newline (disk.data path)))
    (q : Query) {accepts : Message → Bool} (hcompile : compileTextFilter go q.text = .ok accepts)
    (hfits : fitsMemory q.limit = true) :
    (query go store disk q).1 = .ok (naiveQuery go disk q accepts) := by
  obtain ⟨indexes, hindexes, hentries⟩ := indexFiles_eq_rows hframed hkey htrail htracks hlines
  simp only [query, hcompile, hindexes, hfits, if_true]
  rw [queryLoop_eq (fun htext msg => compileTextFilter_of_blank hlower hcompile htext msg)
    (rowsUntil go disk q.until_) _ 0 [] (heap_startCursors q.until_ hentries)
    (merged_startCursors q.until_ hentries) fun row hrow => ?_]
  · rw [List.nil_append]
    exact congrArg Except.ok (page_rowsUntil go disk q accepts (queryText go q.text))
  · have hstored := (Sorting.desc_perm Row.key _).mem_iff.mp (List.mem_of_mem_filter hrow)
    exact readEntry_row (mem_storedRows.mp hstored).2

/-- A query for more than memory has room for panics, once the partitions are indexed. -/
lemma query_of_unfit {go : GoLib} {disk : Disk} {store : FileStore} {q : Query}
    {accepts : Message → Bool} (hcompile : compileTextFilter go q.text = .ok accepts)
    {indexes : Dict String FileIndex}
    (hindexes : indexFiles go store.indexes disk (messageFiles disk) = .ok indexes)
    (hunfit : fitsMemory q.limit = false) :
    (query go store disk q).1 = .error "runtime error: makeslice: cap out of range" := by
  simp only [query, hcompile, hindexes, hunfit, Bool.false_eq_true, if_false]

/-- Lines that decode and are short are indexed. -/
lemma indexable_of_lines {go : GoLib} {lines : List Bytes}
    (h : ∀ line ∈ lines, (∃ msg, go.decode line = .ok msg) ∧ line.length < maxScannerToken) :
    Indexable go lines := by
  refine ⟨fun line hline => (h line hline).1, fun line hline => ?_⟩
  have hlt := (h line hline).2
  rw [fitsScanner]
  split_ifs
  · exact decide_eq_true hlt.le
  · exact decide_eq_true hlt

/-- **The indexed query is the naive query.**  Take any directory, a new `FileStore` on it and any
appends and queries, whatever fails among them.  If by then every line of every partition decodes
and is shorter than the scanner's limit, a query whose text filter compiles returns `naiveQuery`:
of all stored messages those it asks for, latest first, ties by decreasing path and offset, less
the first `Offset`, and at most `Limit` of them.  The page it is allocated must fit the memory. -/
theorem query_eq_naiveQuery (go : GoLib) (hframed : go.Framed) (hkey : go.KeyAgrees)
    (htrail : go.RejectsTrailing) (hlower : go.LowerKeepsBlank) (initial : Disk)
    (calls : List StoreCall) (disk : Disk) (store : FileStore)
    (hrun : runCalls go (initial, FileStore.new) calls = (disk, store))
    (hlines : ∀ path ∈ messageFiles disk, ∀ line ∈ Lines.all newline (disk.data path),
      (∃ msg, go.decode line = .ok msg) ∧ line.length < maxScannerToken)
    (q : Query) (accepts : Message → Bool) (hcompile : compileTextFilter go q.text = .ok accepts)
    (hfits : fitsMemory q.limit = true) :
    (query go store disk q).1 = .ok (naiveQuery go disk q accepts) := by
  have htracks := (CacheTracks.new go initial).runCalls hframed hkey htrail calls
  rw [hrun] at htracks
  exact query_of_indexable hframed hkey htrail hlower htracks
    (fun path hpath => indexable_of_lines (hlines path hpath)) q hcompile hfits

/-! ## A store of several partitions -/

/-- A message of a host, received so many seconds after the zero time. -/
def hostMessage (id hostname text : String) (seconds : ℕ) : Message :=
  { id, receivedAt := seconds * 1000000000, hostname, message := text }

/-- The line it is stored as. -/
def hostLine (id hostname text : String) (seconds : ℕ) : Bytes :=
  utf8Bytes ("\x7b\"id\":\"" ++ id ++ "\",\"received_at\":\"0001-01-01T00:00:0" ++
    toString seconds ++ "Z\",\"hostname\":\"" ++ hostname ++ "\",\"message\":\"" ++ text ++
    "\"\x7d")

/-- Six messages of three hosts. -/
def hostTable : List (Message × Bytes) :=
  [("one", "gw", "WAN down", 1), ("two", "gw", "WAN down", 2), ("three", "ap", "wan lost", 2),
    ("four", "ap", "wan up", 3), ("five", "nas", "wan up", 3), ("six", "gw", "lan up", 3)].map
      fun (id, hostname, text, seconds) =>
        (hostMessage id hostname text seconds, hostLine id hostname text seconds)

/-- They are appended neither in the order of time nor partition by partition, with queries in
between. -/
def hostCalls : List StoreCall :=
  [.append 9000000000 .none (hostMessage "two" "gw" "WAN down" 2), .query {},
    .append 9000000000 .none (hostMessage "four" "ap" "wan up" 3),
    .append 9000000000 .none (hostMessage "one" "gw" "WAN down" 1), .query { limit := 1 },
    .append 9000000000 .none (hostMessage "three" "ap" "wan lost" 2),
    .append 9000000000 .none (hostMessage "six" "gw" "lan up" 3),
    .append 9000000000 .none (hostMessage "five" "nas" "wan up" 3)]

/-- The second page of what two of the hosts said about `wan` within a second. -/
def hostQuery : Query :=
  { text := "wan", hosts := [" gw ", "ap", ""], limit := 2, offset := 1, since := some 2000000000
    until_ := some 3000000000 }

/-- The directory and the store then. -/
def hostState : Disk × FileStore :=
  runCalls (.ofLines hostTable) (Disk.empty, FileStore.new) hostCalls

/-- Its partitions. -/
def hostPaths : List String :=
  ["0001/01/01/nas.ndjson", "0001/01/01/gw.ndjson", "0001/01/01/ap.ndjson"]

/-- Whether a directory has these partitions, and every line of them decodes and is short. -/
def Disk.reads (go : GoLib) (disk : Disk) (paths : List String) : Bool :=
  decide (disk.files.keys.filter (isPartition ·) = paths.toFinset) &&
    paths.all fun path => (Lines.all newline (disk.data path)).all fun line =>
      (go.decode line).isOk && line.length < maxScannerToken

lemma messageFiles_of_reads {go : GoLib} {disk : Disk} {paths : List String}
    (hsorted : paths.Pairwise (· > ·)) (h : disk.reads go paths = true) :
    messageFiles disk = paths :=
  messageFiles_eq hsorted (of_decide_eq_true (Bool.and_eq_true_iff.mp h).1)

lemma lines_of_reads {go : GoLib} {disk : Disk} {paths : List String}
    (hsorted : paths.Pairwise (· > ·)) (h : disk.reads go paths = true) :
    ∀ path ∈ messageFiles disk, ∀ line ∈ Lines.all newline (disk.data path),
      (∃ msg, go.decode line = .ok msg) ∧ line.length < maxScannerToken := by
  intro path hpath line hline
  rw [messageFiles_of_reads hsorted h] at hpath
  have hread := List.all_eq_true.mp (Bool.and_eq_true_iff.mp h).2 path hpath
  have hcheck := List.all_eq_true.mp hread line hline
  rw [Bool.and_eq_true, decide_eq_true_eq] at hcheck
  refine ⟨?_, hcheck.2⟩
  cases hdecode : go.decode line with
  | error cause =>
      rw [hdecode] at hcheck
      cases hcheck.1
  | ok msg => exact ⟨msg, rfl⟩

/-- The messages of these partitions, latest first. -/
def messagesOf (go : GoLib) (disk : Disk) (paths : List String) : List Message :=
  ((Sorting.insertion Row.key).sort (paths.flatMap (partitionRows go disk))).map Row.message

lemma storedRows_messages {go : GoLib} {disk : Disk} {paths : List String}
    (hfiles : messageFiles disk = paths) :
    ((Sorting.desc Row.key (storedRows go disk)).map Row.message) = messagesOf go disk paths := by
  rw [Sorting.desc_eq_insertion fun a ha b hb => eq_of_key_eq ha hb, storedRows, hfiles, messagesOf]

/-- The filter for `wan`. -/
def wanFilter : Message → Bool := fun msg =>
  "wan" = "" || matchesText (.ofLines hostTable) msg "wan"

lemma compile_wan : compileTextFilter (.ofLines hostTable) "wan" = .ok wanFilter := by
  have htrim : Text.trimSpace "wan".toList = "wan".toList := by decide
  simp only [compileTextFilter, htrim]
  rfl

lemma hostPaths_sorted : hostPaths.Pairwise (· > ·) := by decide

lemma hostTable_framed : (GoLib.ofLines hostTable).Framed := ofLines_framed (by decide +kernel)

lemma hostState_reads : hostState.1.reads (.ofLines hostTable) hostPaths = true ∧
    ((((messagesOf (.ofLines hostTable) hostState.1 hostPaths).filter
      (wanted hostQuery wanFilter)).drop 1).take 2).map Message.id = ["two", "three"] ∧
    (messagesOf (.ofLines hostTable) hostState.1 hostPaths).map Message.id
      = ["five", "six", "four", "two", "three", "one"] := by
  decide +kernel

lemma hostState_lines : ∀ path ∈ messageFiles hostState.1,
    ∀ line ∈ Lines.all newline (hostState.1.data path),
      (∃ msg, (GoLib.ofLines hostTable).decode line = .ok msg) ∧ line.length < maxScannerToken :=
  lines_of_reads hostPaths_sorted hostState_reads.1

/-- A query with all its filters, over three partitions and a cache that is behind on two of them:
of the two messages of one time the one of the greater path comes first. -/
theorem query_eq_naiveQuery_cached :
    (query (.ofLines hostTable) hostState.2 hostState.1 hostQuery).1.map (List.map Message.id)
      = .ok ["two", "three"] := by
  rw [query_eq_naiveQuery (.ofLines hostTable) hostTable_framed ofLines_keyAgrees
    ofLines_rejectsTrailing ofLines_lowerKeepsBlank Disk.empty hostCalls hostState.1 hostState.2
    (Prod.eta hostState).symm hostState_lines hostQuery wanFilter compile_wan (by decide),
    naiveQuery, storedRows_messages (messageFiles_of_reads hostPaths_sorted hostState_reads.1)]
  exact congrArg Except.ok hostState_reads.2.1

/-- **A limit that no page has room for**: `make` panics, though six messages are stored. -/
theorem query_maxInt_panics :
    (query (.ofLines hostTable) hostState.2 hostState.1 { limit := 2 ^ 63 - 1 }).1
        = .error "runtime error: makeslice: cap out of range" ∧
      (naiveQuery (.ofLines hostTable) hostState.1 { limit := 2 ^ 63 - 1 } fun _ => true).map
        Message.id = ["five", "six", "four", "two", "three", "one"] := by
  constructor
  · have htracks := (CacheTracks.new (.ofLines hostTable) Disk.empty).runCalls hostTable_framed
      ofLines_keyAgrees ofLines_rejectsTrailing hostCalls
    obtain ⟨indexes, hindexes, -⟩ := indexFiles_eq_rows hostTable_framed ofLines_keyAgrees
      ofLines_rejectsTrailing htracks fun path hpath =>
        indexable_of_lines (hostState_lines path hpath)
    have hunfit : fitsMemory (2 ^ 63 - 1) = false := by decide
    exact query_of_unfit rfl hindexes hunfit
  · have hmessages := hostState_reads.2.2
    have hlength := congrArg List.length hmessages
    rw [List.length_map] at hlength
    have hwanted : wanted { limit := 2 ^ 63 - 1 } (fun _ => true) = fun _ => true := rfl
    rw [naiveQuery,
      storedRows_messages (messageFiles_of_reads hostPaths_sorted hostState_reads.1), hwanted,
      List.filter_true, List.take_of_length_le (by rw [List.length_drop, hlength]; decide)]
    exact hmessages

end Logthing
