import Logthing.Storage.CursorReading
import Logthing.Storage.IndexedQuery
import Logthing.Storage.WrittenPieces

/-!
# Reading back what was appended

When do both readers return exactly the records whose `Append` returned nil?  `readsBack_iff`
answers it for every run of a store that starts empty: exactly when no failed append left bytes
behind, every accepted record can be read at all, that is, decodes and fits the scanner of the
index, and the query does not ask for a page that no memory has room for.

One direction runs the readers on a directory of whole, readable lines.  The other counts: a query
that succeeds returns one message for every piece in the directory (`length_of_query`), so bytes
nobody accepted show as a message too many, if they do not make the query fail.

**Main results.**  `accepted_readsBack_iff` is the criterion for runs in which every append
returned nil, `failed_readsBack_iff` the one for runs with failures; both conditions can fail, as
`oversized_not_readsBack` and `torn_not_readsBack` show.
-/

namespace Logthing

/-- Both readers can read the record. -/
def Readable (go : GoLib) (record : Bytes) : Prop :=
  (∃ msg, go.decode record = .ok msg) ∧ record.length ≤ maxScannerToken

/-- Both readers succeed and return exactly the decodings of `records`: `Query` with this limit and
no filters, and `VisitAfter` without cursors. -/
def ReadsBack (go : GoLib) (disk : Disk) (store : FileStore) (records : List Bytes) (limit : ℤ) :
    Prop :=
  (∃ read, (query go store disk { limit }).1 = .ok read ∧
    (read.map Except.ok).Perm (records.map go.decode)) ∧
  ∀ order, ∃ visited next, visitAfter go order disk ∅ = .ok (visited, next) ∧
    (visited.map fun record => Except.ok record.message).Perm (records.map go.decode)

/-! ## A directory of whole, readable records -/

lemma flatMap_filter_perm :
    ∀ {paths : List String} {pieces : List Piece}, paths.Nodup →
      (∀ piece ∈ pieces, piece.path ∈ paths) →
      (paths.flatMap fun path => pieces.filter (·.path = path)).Perm pieces
  | [], pieces, _, hmem => by
      have hnil : pieces = [] := List.eq_nil_iff_forall_not_mem.mpr fun piece hpiece => by
        simpa using hmem piece hpiece
      simp [hnil]
  | path :: paths, pieces, hnd, hmem => by
      rw [List.nodup_cons] at hnd
      have hothersMem : ∀ piece ∈ pieces.filter (fun piece => !(piece.path = path)),
          piece.path ∈ paths := by
        intro piece hpiece
        rw [List.mem_filter] at hpiece
        rcases List.mem_cons.mp (hmem piece hpiece.1) with heq | h
        · simp [heq] at hpiece
        · exact h
      have hothers : (paths.flatMap fun p => pieces.filter (·.path = p))
          = paths.flatMap fun p =>
              (pieces.filter fun piece => !(piece.path = path)).filter (·.path = p) := by
        refine List.flatMap_congr fun p hp => ?_
        rw [List.filter_filter]
        refine List.filter_congr fun piece _ => ?_
        by_cases hpp : piece.path = p
        · have hne : p ≠ path := by
            rintro rfl
            exact hnd.1 hp
          simp [hpp, hne]
        · simp [hpp]
      rw [List.flatMap_cons, hothers]
      exact ((flatMap_filter_perm hnd.2 hothersMem).append_left _).trans
        (List.filter_append_perm _ _)

/-- Partition by partition the directory has every piece once. -/
lemma piecesAt_perm {go : GoLib} {disk : Disk} {pieces : List Piece} (h : Holds go disk pieces)
    {paths : List String} (hpaths : paths.Perm (messageFiles disk)) :
    (paths.flatMap (piecesAt pieces)).Perm (pieces.map Piece.bytes) := by
  have hperm := flatMap_filter_perm (hpaths.nodup_iff.mpr (messageFiles_nodup disk))
    fun piece hpiece => hpaths.mem_iff.mpr (h.listed piece hpiece)
  have hmap := hperm.map Piece.bytes
  rwa [List.map_flatMap] at hmap

lemma map_rowsFrom {go : GoLib} {path : String} :
    ∀ {lines : List Bytes} {offset : ℕ}, Decodable go lines →
      (rowsFrom go path offset lines).map (fun row => Except.ok row.message)
        = lines.map go.decode
  | [], _, _ => rfl
  | line :: lines, offset, h => by
      obtain ⟨message, hmessage⟩ := h line (by simp)
      rw [rowsFrom, hmessage, List.map_cons, List.map_cons, hmessage,
        map_rowsFrom fun l hl => h l (List.mem_cons_of_mem _ hl)]

section

variable {go : GoLib} (hframed : go.Framed)

include hframed

lemma isLine_of_encode {msg : Message} {record : Bytes} (h : go.encode msg = .ok record) :
    Lines.IsLine newline record := by
  obtain ⟨body, rfl, hbody, -⟩ := hframed msg record h
  exact ⟨body, rfl, hbody⟩

/-- A complete record fits the scanner up to and including its limit. -/
lemma fitsScanner_iff_of_encode {msg : Message} {record : Bytes}
    (h : go.encode msg = .ok record) :
    fitsScanner record = true ↔ record.length ≤ maxScannerToken := by
  obtain ⟨body, rfl, -⟩ := isLine_of_encode hframed h
  rw [fitsScanner, if_pos List.getLast?_concat, decide_eq_true_eq]

variable {disk : Disk} {pieces : List Piece} (hholds : Holds go disk pieces)
  (haccepted : ∀ piece ∈ pieces, piece.accepted = true)

include hholds haccepted

/-- Of a partition without remnants the lines are the records. -/
lemma lines_of_accepted (path : String) :
    Lines.terminated newline (disk.data path) = piecesAt pieces path ∧
      Lines.all newline (disk.data path) = piecesAt pieces path := by
  have hlines : ∀ line ∈ piecesAt pieces path, Lines.IsLine newline line := by
    intro line hline
    obtain ⟨piece, hpiece, rfl⟩ := List.mem_map.mp hline
    have hmem := List.mem_of_mem_filter hpiece
    obtain ⟨msg, hmsg⟩ := hholds.whole piece hmem (haccepted piece hmem)
    exact isLine_of_encode hframed hmsg
  rw [hholds.data, Lines.all, Lines.terminated_flatten newline hlines,
    Lines.rest_flatten newline hlines]
  exact ⟨rfl, by simp⟩

/-- **Whole, readable records are read back.** -/
lemma readsBack_of_readable (hkey : go.KeyAgrees) (htrail : go.RejectsTrailing)
    (hlower : go.LowerKeepsBlank) {store : FileStore} (htracks : CacheTracks go disk store)
    (hreadable : ∀ piece ∈ pieces, Readable go piece.bytes) {limit : ℤ}
    (hlimit : pieces.length ≤ limit) (hroom : fitsMemory limit = true) :
    ReadsBack go disk store (pieces.map Piece.bytes) limit := by
  have hpiece : ∀ path, ∀ bytes ∈ piecesAt pieces path, ∃ piece ∈ pieces, piece.bytes = bytes := by
    intro path bytes hbytes
    obtain ⟨piece, hpiece, rfl⟩ := List.mem_map.mp hbytes
    exact ⟨piece, List.mem_of_mem_filter hpiece, rfl⟩
  have hdecode : ∀ path, Decodable go (piecesAt pieces path) := by
    intro path bytes hbytes
    obtain ⟨piece, hmem, rfl⟩ := hpiece path bytes hbytes
    exact (hreadable piece hmem).1
  constructor
  · have hindexable : ∀ path ∈ messageFiles disk,
        Indexable go (Lines.all newline (disk.data path)) := by
      intro path _
      rw [(lines_of_accepted hframed hholds haccepted path).2]
      refine ⟨hdecode path, fun bytes hbytes => ?_⟩
      obtain ⟨piece, hmem, rfl⟩ := hpiece path bytes hbytes
      obtain ⟨msg, hmsg⟩ := hholds.whole piece hmem (haccepted piece hmem)
      exact (fitsScanner_iff_of_encode hframed hmsg).mpr (hreadable piece hmem).2
    obtain ⟨accepts, hcompile⟩ : ∃ accepts, compileTextFilter go "" = .ok accepts := ⟨_, rfl⟩
    refine ⟨_, query_of_indexable hframed hkey htrail hlower htracks hindexable { limit } hcompile
      hroom, ?_⟩
    have hblank : queryText go "" = "" := (hlower _).mpr rfl
    have hwanted : ∀ msg, wanted { limit } accepts msg = true := by
      intro msg
      simp [wanted, selectedHosts, compileTextFilter_of_blank hlower hcompile hblank msg]
    have hrows : ((storedRows go disk).map fun row => Except.ok row.message).Perm
        ((pieces.map Piece.bytes).map go.decode) := by
      rw [storedRows, List.map_flatMap]
      refine List.Perm.trans (List.Perm.of_eq ?_) ((piecesAt_perm hholds (.refl _)).map go.decode)
      rw [List.map_flatMap]
      refine List.flatMap_congr fun path _ => ?_
      rw [partitionRows, (lines_of_accepted hframed hholds haccepted path).2]
      exact map_rowsFrom (hdecode path)
    have hlength : (storedRows go disk).length ≤ effectiveLimit limit := by
      have hlen := hrows.length_eq
      rw [List.length_map, List.length_map, List.length_map] at hlen
      rw [hlen, effectiveLimit]
      split_ifs with hdefault
      · omega
      · omega
    have hall : naiveQuery go disk { limit } accepts
        = (Sorting.desc Row.key (storedRows go disk)).map Row.message := by
      rw [naiveQuery, List.filter_eq_self.mpr fun msg _ => hwanted msg]
      refine List.take_of_length_le ?_
      rw [List.length_drop, List.length_map, (Sorting.desc_perm Row.key _).length_eq]
      exact (Nat.sub_le _ _).trans hlength
    rw [hall, List.map_map]
    exact ((Sorting.desc_perm Row.key _).map _).trans hrows
  · intro order
    have hlines : ∀ path ∈ messageFiles disk,
        Decodable go (Lines.terminated newline (disk.data path)) := by
      intro path _
      rw [(lines_of_accepted hframed hholds haccepted path).1]
      exact hdecode path
    obtain ⟨next, hvisit, -⟩ :=
      visitAfter_of_grows go order (atEnd_empty go) (grows_empty disk) hlines
    refine ⟨_, next, hvisit, ?_⟩
    rw [newRecords, List.map_flatMap]
    refine List.Perm.trans (List.Perm.of_eq ?_)
      ((piecesAt_perm hholds (List.mergeSort_perm _ (· ≤ ·))).map go.decode)
    rw [List.map_flatMap]
    refine List.flatMap_congr fun path _ => ?_
    have hempty : Disk.empty.data path = [] := data_eq_nil_of_notMem Finmap.notMem_empty
    have hterminated := (lines_of_accepted hframed hholds haccepted path).1
    have hnew : newLines [] (disk.data path) = piecesAt pieces path := hterminated
    have hfields := congrArg (List.map Prod.fst) (map_recordsFrom go path
      (Lines.completeLength newline ([] : Bytes)) _ (hdecode path))
    rw [List.map_map, List.map_map] at hfields
    rw [hempty, hnew]
    refine hfields.trans ?_
    show (Lines.ends _ _).map (go.decode ∘ Prod.fst) = _
    rw [← List.map_map, Lines.map_fst_ends]

end

/-! ## Counting what a query returns -/

/-- Without filters and with room for all, the loop returns one message for each entry. -/
lemma length_of_queryLoop {go : GoLib} {disk : Disk} {sel : Selection} (hhosts : sel.hosts = [])
    (htext : sel.text = "") (hoffset : sel.offset = 0) (hsince : sel.since = none) :
    ∀ (n : ℕ) (pending : List IndexCursor) (messages out : List Message), remaining pending = n →
      messages.length + n ≤ sel.limit → queryLoop go disk sel pending 0 messages = .ok out →
      out.length = messages.length + n := by
  intro n
  induction n with
  | zero =>
      intro pending messages out hremaining _ hloop
      have hnil : pending = [] := by
        cases pending with
        | nil => rfl
        | cons cursor pending =>
            rw [remaining] at hremaining
            omega
      subst hnil
      rw [queryLoop] at hloop
      have hout : Except.ok messages = (Except.ok out : Except String (List Message)) := by
        rw [← hloop]
        simp [popMin]
      rw [← Except.ok.inj hout]
      rfl
  | succ n ih =>
      intro pending messages out hremaining hlimit hloop
      rw [queryLoop, if_pos (by omega)] at hloop
      split at hloop
      · rename_i hpop
        rw [popMin_eq_none hpop] at hremaining
        exact absurd hremaining (by simp [remaining])
      · rename_i cursor others hpop
        have hnext : remaining (pushNext cursor others) = n := by
          have := remaining_pushNext hpop
          omega
        simp only [hsince, hhosts, htext, hoffset, Option.any_none, Bool.false_eq_true, if_false,
          ne_eq, not_true_eq_false, false_and, true_and, Int.natCast_zero, lt_irrefl] at hloop
        cases hread : readEntry disk cursor.path cursor.entry with
        | error err =>
            rw [hread] at hloop
            exact absurd hloop (by simp)
        | ok data =>
            cases hdecode : go.decode data with
            | error err =>
                rw [hread] at hloop
                simp only [hdecode] at hloop
                exact absurd hloop (by simp)
            | ok msg =>
                rw [hread] at hloop
                simp only [hdecode] at hloop
                have hlen := ih _ _ out hnext (by rw [List.length_append, List.length_singleton]; omega)
                  hloop
                rw [hlen, List.length_append, List.length_singleton]
                omega

/-- How many entries the heap starts with. -/
lemma remaining_startCursors (indexes : Dict String FileIndex) (entries : String → List Bytes) :
    ∀ (paths : List String) (order : ℕ),
      (∀ path ∈ paths, (entriesOf indexes path).length = (entries path).length) →
      remaining (startCursors indexes none order paths) = (paths.flatMap entries).length
  | [], _, _ => rfl
  | path :: paths, order, h => by
      have ih := remaining_startCursors indexes entries paths (order + 1)
        fun p hp => h p (List.mem_cons_of_mem _ hp)
      have hlen : (entriesUntil none (entriesOf indexes path)).length = (entries path).length :=
        h path (by simp)
      rw [List.flatMap_cons, List.length_append, ← ih, ← hlen, startCursors]
      cases entriesUntil none (entriesOf indexes path) with
      | nil => simp
      | cons entry rest => simp [remaining]

section

variable {go : GoLib} (hframed : go.Framed) (hglued : go.RejectsGlued)
  (hlower : go.LowerKeepsBlank) {disk : Disk} {store : FileStore} {pieces : List Piece}

include hframed hglued hlower

/-- **A query that succeeds returns a message for every piece**, accepted or not; every piece fitted
the scanner, and the page fitted the memory. -/
lemma length_of_query (hholds : Holds go disk pieces) (hcounts : CacheCounts pieces store)
    {limit : ℤ} (hlimit : pieces.length ≤ limit) {read : List Message}
    (h : (query go store disk { limit }).1 = .ok read) :
    read.length = pieces.length ∧ (∀ piece ∈ pieces, fitsScanner piece.bytes = true) ∧
      fitsMemory limit = true := by
  obtain ⟨accepts, hcompile⟩ : ∃ accepts, compileTextFilter go "" = .ok accepts := ⟨_, rfl⟩
  have hblank : queryText go "" = "" := (hlower _).mpr rfl
  simp only [query, hcompile] at h
  cases hindexes : indexFiles go store.indexes disk (messageFiles disk) with
  | error err =>
      rw [hindexes] at h
      exact absurd h (by simp)
  | ok indexes =>
      simp only [hindexes] at h
      split_ifs at h with hfits
      have hentries : ∀ path ∈ messageFiles disk,
          (entriesOf indexes path).length = (piecesAt pieces path).length ∧
            ∀ bytes ∈ piecesAt pieces path, fitsScanner bytes = true := by
        intro path hpath
        obtain ⟨index, hindex⟩ := (lookup_indexFiles hindexes).1 hpath
        have hcounted := hcounts.indexFiles hframed hglued hholds hindexes hindex
        rw [entriesOf, hindex]
        exact hcounted.2
      have hremaining : remaining (startCursors indexes none 0 (messageFiles disk))
          = pieces.length := by
        rw [remaining_startCursors indexes (piecesAt pieces) _ 0 fun p hp => (hentries p hp).1,
          (piecesAt_perm hholds (.refl _)).length_eq, List.length_map]
      have hroom : ([] : List Message).length + pieces.length ≤ effectiveLimit limit := by
        rw [effectiveLimit, List.length_nil]
        split_ifs
        · omega
        · omega
      have hlen := length_of_queryLoop rfl hblank rfl rfl pieces.length _ [] read hremaining hroom h
      refine ⟨by simpa using hlen, fun piece hpiece => ?_, hfits⟩
      refine (hentries piece.path (hholds.listed piece hpiece)).2 piece.bytes ?_
      exact List.mem_map.mpr ⟨piece, List.mem_filter.mpr ⟨hpiece, by simp⟩, rfl⟩

/-- If the readers return the accepted records and nothing else, there is nothing else, and each
of them is readable. -/
lemma readable_of_readsBack (hholds : Holds go disk pieces) (hcounts : CacheCounts pieces store)
    {limit : ℤ} (hlimit : pieces.length ≤ limit)
    (h : ReadsBack go disk store ((pieces.filter (·.accepted)).map Piece.bytes) limit) :
    (∀ piece ∈ pieces, piece.accepted = true ∧ Readable go piece.bytes) ∧
      fitsMemory limit = true := by
  obtain ⟨read, hquery, hperm⟩ := h.1
  obtain ⟨hlen, hfits, hroom⟩ := length_of_query hframed hglued hlower hholds hcounts hlimit hquery
  refine ⟨?_, hroom⟩
  have haccepted : pieces.filter (·.accepted) = pieces := by
    refine List.filter_sublist.eq_of_length ?_
    have hlength := hperm.length_eq
    rw [List.length_map, List.length_map, List.length_map] at hlength
    omega
  rw [haccepted] at hperm
  intro piece hpiece
  have hacc : piece.accepted = true := by
    rw [← haccepted] at hpiece
    exact (List.mem_filter.mp hpiece).2
  obtain ⟨msg, hmsg⟩ := hholds.whole piece hpiece hacc
  have hmem : go.decode piece.bytes ∈ (pieces.map Piece.bytes).map go.decode :=
    List.mem_map_of_mem (List.mem_map_of_mem hpiece)
  obtain ⟨message, -, hmessage⟩ := List.mem_map.mp (hperm.mem_iff.mpr hmem)
  refine ⟨hacc, ⟨message, hmessage.symm⟩, ?_⟩
  exact (fitsScanner_iff_of_encode hframed hmsg).mp (hfits piece hpiece)

end

/-! ## Stores of one message -/

/-- The message of `sampleMessage` with a text of `n` letters. -/
def longMessage (n : ℕ) : Message :=
  { sampleMessage with message := String.ofList (List.replicate n 'a') }

/-- The line `longMessage n` is stored as. -/
def longLine (n : ℕ) : Bytes :=
  asciiBytes "\x7b\"id\":\"one\",\"received_at\":\"0001-01-01T00:00:01Z\",\"message\":\"" ++
    List.replicate n 97 ++ asciiBytes "\"\x7d"

/-- The library that knows `sampleMessage` and `longMessage n`. -/
noncomputable def longLib (n : ℕ) : GoLib :=
  GoLib.ofTable [(longMessage n, longLine n)]

lemma flatLine_longLine (n : ℕ) : FlatLine (longLine n) := by
  refine ⟨(asciiBytes
    "\"id\":\"one\",\"received_at\":\"0001-01-01T00:00:01Z\",\"message\":\"" ++
    List.replicate n 97) ++ asciiBytes "\"\x7d", rfl, ?_, ?_⟩
  · simp only [List.mem_append, List.mem_replicate, not_or]
    exact ⟨⟨by decide, fun h => absurd h.2 (by decide)⟩, by decide⟩
  · simp only [List.mem_append, List.mem_replicate, not_or]
    exact ⟨⟨by decide, fun h => absurd h.2 (by decide)⟩, by decide⟩

section

variable {msg : Message} {line : Bytes} (hid : msg.id ≠ "") (hstamp : stamp 0 msg = msg)

include hid hstamp

/-- Appending the one message a table knows. -/
lemma appendError_ofTable (disk : Disk) :
    appendError (GoLib.ofTable [(msg, line)]) disk (.append 0 .none msg) = none := by
  simp [appendError, append, hid, hstamp, GoLib.ofTable]

lemma acceptedRecord_ofTable (disk : Disk) :
    acceptedRecord (GoLib.ofTable [(msg, line)]) disk (.append 0 .none msg)
      = [line ++ [newline]] := by
  have herror : (append (GoLib.ofTable [(msg, line)]) 0 .none disk msg).2 = none :=
    appendError_ofTable hid hstamp disk
  rw [acceptedRecord, if_pos herror, hstamp]
  simp [GoLib.ofTable, Except.toOption]

end

lemma acceptedRecords_cons (go : GoLib) (state : Disk × FileStore) (call : StoreCall)
    (calls : List StoreCall) : acceptedRecords go state (call :: calls)
      = acceptedRecord go state.1 call ++ acceptedRecords go (runCall go state call) calls := rfl

/-! ## The criterion -/

/-- Where no failed append left anything behind, all that was written was accepted. -/
lemma accepted_of_clean {go : GoLib} {calls : List StoreCall}
    (hclean : ∀ call ∈ calls, tornBytes go call = []) :
    ∀ piece ∈ writtenBy go (Disk.empty, FileStore.new) calls, piece.accepted = true := by
  intro piece hpiece
  by_contra hrejected
  obtain ⟨call, hcall, hne⟩ :=
    (exists_torn_iff go _ calls).mp ⟨piece, hpiece, by simpa using hrejected⟩
  exact hne (hclean call hcall)

section

variable {go : GoLib} (hframed : go.Framed) (hkey : go.KeyAgrees) (hglued : go.RejectsGlued)
  (htrail : go.RejectsTrailing) (hlower : go.LowerKeepsBlank) {calls : List StoreCall}
  {disk : Disk} {store : FileStore}
  (hrun : runCalls go (Disk.empty, FileStore.new) calls = (disk, store)) {limit : ℤ}
  (hlimit : (writtenBy go (Disk.empty, FileStore.new) calls).length ≤ limit)

include hframed hglued hlower hrun hlimit

/-- A run that reads back has left nothing but readable accepted records behind. -/
lemma clean_of_readsBack
    (h : ReadsBack go disk store (acceptedRecords go (Disk.empty, FileStore.new) calls) limit) :
    (∀ call ∈ calls, tornBytes go call = []) ∧
      (∀ record ∈ acceptedRecords go (Disk.empty, FileStore.new) calls, Readable go record) ∧
      fitsMemory limit = true := by
  have hholds := (Holds.empty go).run hframed FileStore.new calls
  have hcounts : CacheCounts [] FileStore.new := by
    intro path index h
    exact absurd h (by simp [FileStore.new, Finmap.lookup_empty])
  have hcounts := hcounts.run hframed hglued (Holds.empty go) calls
  rw [hrun, List.nil_append] at hholds hcounts
  rw [← accepted_writtenBy] at h ⊢
  obtain ⟨hreadable, hroom⟩ :=
    readable_of_readsBack hframed hglued hlower hholds hcounts hlimit h
  refine ⟨fun call hcall => ?_, fun record hrecord => ?_, hroom⟩
  · by_contra hne
    obtain ⟨piece, hpiece, hrejected⟩ := (exists_torn_iff go _ calls).mpr ⟨call, hcall, hne⟩
    rw [(hreadable piece hpiece).1] at hrejected
    exact absurd hrejected (by simp)
  · obtain ⟨piece, hpiece, rfl⟩ := List.mem_map.mp hrecord
    exact (hreadable piece (List.mem_of_mem_filter hpiece)).2

omit hglued

include hkey htrail

/-- A run that left nothing but readable accepted records behind reads back. -/
lemma readsBack_of_clean (hclean : ∀ call ∈ calls, tornBytes go call = [])
    (hreadable : ∀ record ∈ acceptedRecords go (Disk.empty, FileStore.new) calls,
      Readable go record) (hroom : fitsMemory limit = true) :
    ReadsBack go disk store (acceptedRecords go (Disk.empty, FileStore.new) calls) limit := by
  have hholds := (Holds.empty go).run hframed FileStore.new calls
  have htracks := (CacheTracks.new go Disk.empty).runCalls hframed hkey htrail calls
  rw [hrun] at hholds htracks
  rw [List.nil_append] at hholds
  have haccepted := accepted_of_clean hclean
  rw [← accepted_writtenBy, List.filter_eq_self.mpr haccepted] at hreadable ⊢
  refine readsBack_of_readable hframed hholds haccepted hkey htrail hlower htracks ?_ hlimit hroom
  exact fun piece hpiece => hreadable piece.bytes (List.mem_map_of_mem hpiece)

end

/-- **When accepted appends read back.**  Along a run from the empty directory in which every
`Append` returned nil, both readers return exactly the records, for a limit that is at least their
number, if and only if each of them decodes and is at most as long as the scanner's limit and a page
of that limit fits the memory. -/
theorem accepted_readsBack_iff (go : GoLib) (hframed : go.Framed) (hkey : go.KeyAgrees)
    (hglued : go.RejectsGlued) (htrail : go.RejectsTrailing) (hlower : go.LowerKeepsBlank)
    (calls : List StoreCall)
    (hnil : ∀ step ∈ steps go (Disk.empty, FileStore.new) calls, appendError go step.1 step.2 = none)
    (disk : Disk) (store : FileStore)
    (hrun : runCalls go (Disk.empty, FileStore.new) calls = (disk, store)) (limit : ℤ)
    (hlimit : (acceptedRecords go (Disk.empty, FileStore.new) calls).length ≤ limit) :
    ReadsBack go disk store (acceptedRecords go (Disk.empty, FileStore.new) calls) limit ↔
      (∀ record ∈ acceptedRecords go (Disk.empty, FileStore.new) calls, Readable go record) ∧
        fitsMemory limit = true := by
  have hclean : ∀ call ∈ calls, tornBytes go call = [] := by
    intro call hcall
    obtain ⟨before, hstep⟩ := exists_step_of_mem go (Disk.empty, FileStore.new) hcall
    exact tornBytes_eq_nil_of_ok (hnil _ hstep)
  -- nothing else was written
  have hwritten : (writtenBy go (Disk.empty, FileStore.new) calls).length ≤ limit := by
    rwa [← accepted_writtenBy, List.filter_eq_self.mpr (accepted_of_clean hclean),
      List.length_map] at hlimit
  constructor
  · exact fun h => (clean_of_readsBack hframed hglued hlower hrun hwritten h).2
  · rintro ⟨hreadable, hroom⟩
    exact readsBack_of_clean hframed hkey htrail hlower hrun hwritten hclean hreadable hroom

/-- One accepted append, read back. -/
theorem accepted_readsBack_iff_single :
    ReadsBack sampleLib
      (runCalls sampleLib (Disk.empty, FileStore.new) [.append 0 .none sampleMessage]).1
      (runCalls sampleLib (Disk.empty, FileStore.new) [.append 0 .none sampleMessage]).2
      (acceptedRecords sampleLib (Disk.empty, FileStore.new) [.append 0 .none sampleMessage]) 1 := by
  have hflat : ∀ entry ∈ [(sampleMessage, sampleLine)], FlatLine entry.2 := by
    simp [flatLine_sampleLine]
  have hstamp : stamp 0 sampleMessage = sampleMessage := by simp [stamp, sampleMessage]
  have hrecord : acceptedRecords sampleLib (Disk.empty, FileStore.new)
      [.append 0 .none sampleMessage] = [sampleLine ++ [newline]] := by
    have hcall : acceptedRecord sampleLib Disk.empty (.append 0 .none sampleMessage)
        = [sampleLine ++ [newline]] := acceptedRecord_ofTable (by decide) hstamp _
    rw [acceptedRecords_cons, hcall]
    rfl
  refine (accepted_readsBack_iff sampleLib (ofTable_framed hflat) ofTable_keyAgrees
    (ofTable_rejectsGlued hflat) (ofTable_rejectsTrailing hflat) ofTable_lowerKeepsBlank _
    (fun step hstep => ?_) _ _ rfl 1 (by rw [hrecord]; exact le_rfl)).mpr
    ⟨fun record hmem => ?_, by decide⟩
  · have hstep : step = (Disk.empty, .append 0 .none sampleMessage) := by simpa [steps] using hstep
    rw [hstep]
    exact appendError_ofTable (by decide) hstamp Disk.empty
  · rw [hrecord, List.mem_singleton] at hmem
    rw [hmem]
    exact ⟨⟨sampleMessage, sampleLib_decode⟩, by decide⟩

/-- **A record one scanner's limit long is accepted and not read back.** -/
theorem oversized_not_readsBack :
    appendError (longLib maxScannerToken) Disk.empty
        (.append 0 .none (longMessage maxScannerToken)) = none ∧
      ¬ ReadsBack (longLib maxScannerToken)
        (runCalls (longLib maxScannerToken) (Disk.empty, FileStore.new)
          [.append 0 .none (longMessage maxScannerToken)]).1
        (runCalls (longLib maxScannerToken) (Disk.empty, FileStore.new)
          [.append 0 .none (longMessage maxScannerToken)]).2
        (acceptedRecords (longLib maxScannerToken) (Disk.empty, FileStore.new)
          [.append 0 .none (longMessage maxScannerToken)]) 1 := by
  have hflat : ∀ entry ∈ [(longMessage maxScannerToken, longLine maxScannerToken)],
      FlatLine entry.2 := by
    simp [flatLine_longLine]
  have hid : ∀ n, (longMessage n).id ≠ "" := fun n => by simp [longMessage, sampleMessage]
  have hstamp : ∀ n, stamp 0 (longMessage n) = longMessage n := fun n => by
    simp [stamp, longMessage, sampleMessage]
  refine ⟨appendError_ofTable (hid _) (hstamp _) _, fun h => ?_⟩
  have hreadable := (clean_of_readsBack (ofTable_framed hflat) (ofTable_rejectsGlued hflat)
    ofTable_lowerKeepsBlank rfl (Int.ofNat_le.mpr (length_writtenBy_le _ _ _)) h).2.1
  have hrecord : acceptedRecord (longLib maxScannerToken) Disk.empty
      (.append 0 .none (longMessage maxScannerToken)) = [longLine maxScannerToken ++ [newline]] :=
    acceptedRecord_ofTable (hid _) (hstamp _) _
  have hmem : longLine maxScannerToken ++ [newline] ∈ acceptedRecords (longLib maxScannerToken)
      (Disk.empty, FileStore.new) [.append 0 .none (longMessage maxScannerToken)] := by
    rw [acceptedRecords_cons, hrecord]
    exact List.mem_append_left _ (List.mem_singleton.mpr rfl)
  have hfits := (hreadable _ hmem).2
  have hlong : ∀ n, n < (longLine n ++ [newline]).length := by
    intro n
    simp only [longLine, List.length_append, List.length_replicate, List.length_singleton]
    omega
  exact absurd hfits (not_le.mpr (hlong _))

/-- **When a store survives failed appends.**  Along any run from the empty directory both readers
return exactly the records whose `Append` returned nil, for a limit that is at least the number of
calls, if and only if no failed `Append` had written anything, each accepted record is readable and
a page of that limit fits the memory. -/
theorem failed_readsBack_iff (go : GoLib) (hframed : go.Framed) (hkey : go.KeyAgrees)
    (hglued : go.RejectsGlued) (htrail : go.RejectsTrailing) (hlower : go.LowerKeepsBlank)
    (calls : List StoreCall) (disk : Disk) (store : FileStore)
    (hrun : runCalls go (Disk.empty, FileStore.new) calls = (disk, store)) (limit : ℤ)
    (hlimit : calls.length ≤ limit) :
    ReadsBack go disk store (acceptedRecords go (Disk.empty, FileStore.new) calls) limit ↔
      (∀ call ∈ calls, tornBytes go call = []) ∧
        (∀ record ∈ acceptedRecords go (Disk.empty, FileStore.new) calls, Readable go record) ∧
        fitsMemory limit = true := by
  have hwritten : (writtenBy go (Disk.empty, FileStore.new) calls).length ≤ limit :=
    (Int.ofNat_le.mpr (length_writtenBy_le go _ calls)).trans hlimit
  constructor
  · exact clean_of_readsBack hframed hglued hlower hrun hwritten
  · rintro ⟨hclean, hreadable, hroom⟩
    exact readsBack_of_clean hframed hkey htrail hlower hrun hwritten hclean hreadable hroom

/-- An append that failed before it wrote anything, and one that succeeded. -/
theorem failed_readsBack_iff_clean :
    ReadsBack sampleLib
      (runCalls sampleLib (Disk.empty, FileStore.new)
        [.append 0 (.openFile "permission denied") sampleMessage,
          .append 0 .none sampleMessage]).1
      (runCalls sampleLib (Disk.empty, FileStore.new)
        [.append 0 (.openFile "permission denied") sampleMessage,
          .append 0 .none sampleMessage]).2
      (acceptedRecords sampleLib (Disk.empty, FileStore.new)
        [.append 0 (.openFile "permission denied") sampleMessage,
          .append 0 .none sampleMessage]) 2 := by
  have hflat : ∀ entry ∈ [(sampleMessage, sampleLine)], FlatLine entry.2 := by
    simp [flatLine_sampleLine]
  have hstamp : stamp 0 sampleMessage = sampleMessage := by simp [stamp, sampleMessage]
  refine (failed_readsBack_iff sampleLib (ofTable_framed hflat) ofTable_keyAgrees
    (ofTable_rejectsGlued hflat) (ofTable_rejectsTrailing hflat) ofTable_lowerKeepsBlank _ _ _
    rfl 2 le_rfl).mpr ⟨fun call hcall => ?_, fun record hmem => ?_, by decide⟩
  · rcases List.mem_cons.mp hcall with rfl | hcall
    · rfl
    · rw [List.mem_singleton.mp hcall]
      rfl
  · have hid : sampleMessage.id ≠ "" := by decide
    have hfirst : acceptedRecord sampleLib Disk.empty
        (.append 0 (.openFile "permission denied") sampleMessage) = [] := by
      simp [acceptedRecord, append, hid, hstamp, sampleLib_encode]
    have hrecords : acceptedRecords sampleLib (Disk.empty, FileStore.new)
        [.append 0 (.openFile "permission denied") sampleMessage,
          .append 0 .none sampleMessage] = [sampleLine ++ [newline]] := by
      have hsecond : ∀ disk, acceptedRecord sampleLib disk (.append 0 .none sampleMessage)
          = [sampleLine ++ [newline]] := acceptedRecord_ofTable hid hstamp
      rw [acceptedRecords_cons, acceptedRecords_cons, hfirst, hsecond]
      rfl
    rw [hrecords, List.mem_singleton] at hmem
    rw [hmem]
    exact ⟨⟨sampleMessage, sampleLib_decode⟩, by decide⟩

/-- **One byte left behind by a failed append is enough**: the next append succeeds and neither
record is read back. -/
theorem torn_not_readsBack :
    acceptedRecords sampleLib (Disk.empty, FileStore.new)
        [.append 0 (.write 1 "no space left on device") sampleMessage,
          .append 0 .none sampleMessage] = [sampleLine ++ [newline]] ∧
      ¬ ReadsBack sampleLib
        (runCalls sampleLib (Disk.empty, FileStore.new)
          [.append 0 (.write 1 "no space left on device") sampleMessage,
            .append 0 .none sampleMessage]).1
        (runCalls sampleLib (Disk.empty, FileStore.new)
          [.append 0 (.write 1 "no space left on device") sampleMessage,
            .append 0 .none sampleMessage]).2
        (acceptedRecords sampleLib (Disk.empty, FileStore.new)
          [.append 0 (.write 1 "no space left on device") sampleMessage,
            .append 0 .none sampleMessage]) 2 := by
  have hflat : ∀ entry ∈ [(sampleMessage, sampleLine)], FlatLine entry.2 := by
    simp [flatLine_sampleLine]
  have hstamp : stamp 0 sampleMessage = sampleMessage := by simp [stamp, sampleMessage]
  have hsecond : ∀ disk, acceptedRecord sampleLib disk (.append 0 .none sampleMessage)
      = [sampleLine ++ [newline]] := acceptedRecord_ofTable (by decide) hstamp
  refine ⟨?_, fun h => ?_⟩
  · have hfirst : acceptedRecord sampleLib Disk.empty
        (.append 0 (.write 1 "no space left on device") sampleMessage) = [] := by
      have hid : sampleMessage.id ≠ "" := by decide
      simp [acceptedRecord, append, hid, hstamp, sampleLib_encode]
    rw [acceptedRecords_cons, acceptedRecords_cons, hfirst, hsecond]
    rfl
  · have hclean := (clean_of_readsBack (ofTable_framed hflat) (ofTable_rejectsGlued hflat)
      ofTable_lowerKeepsBlank rfl (Int.ofNat_le.mpr (length_writtenBy_le _ _ _)) h).1
      (.append 0 (.write 1 "no space left on device") sampleMessage)
      (by simp)
    have htorn : tornBytes sampleLib
        (.append 0 (.write 1 "no space left on device") sampleMessage) = sampleLine.take 1 := by
      have hid : sampleMessage.id ≠ "" := by decide
      rw [tornBytes, torn, hstamp]
      simp only [sampleLib_encode, hid, if_false]
      decide
    exact absurd (htorn.symm.trans hclean) (by decide)

end Logthing
