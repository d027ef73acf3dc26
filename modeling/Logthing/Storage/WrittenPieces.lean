import Logthing.Storage.IndexCache

/-!
# What a run of appends wrote

`Holds disk pieces` describes a directory by the pieces its appends wrote, in order: a whole
record for each `Append` that returned nil, and what a failed one left behind.  It holds along
every run from an empty directory (`Holds.run`).  Since no two record fragments make a JSON text,
lines whose keys all decode are exactly the pieces (`all_eq_pieces`), and an index that was built
without error has one entry for each of them (`Counts`).
-/

namespace Logthing

/-! ## Runs and what they accepted -/

/-- The calls of a run, each with the directory it was made on. -/
def steps (go : GoLib) : Disk × FileStore → List StoreCall → List (Disk × StoreCall)
  | _, [] => []
  | state, call :: calls => (state.1, call) :: steps go (runCall go state call) calls

/-- The error an append returned, if any. -/
def appendError (go : GoLib) (disk : Disk) : StoreCall → Option String
  | .append now fault msg => (append go now fault disk msg).2
  | .query _ => none

/-- The record encoded for an append that returned nil. -/
def acceptedRecord (go : GoLib) (disk : Disk) : StoreCall → List Bytes
  | .append now fault msg =>
      if (append go now fault disk msg).2 = none then (go.encode (stamp now msg)).toOption.toList
      else []
  | .query _ => []

/-- The records encoded for the appends of a run that returned nil. -/
def acceptedRecords (go : GoLib) (state : Disk × FileStore) (calls : List StoreCall) :
    List Bytes :=
  (steps go state calls).flatMap fun step => acceptedRecord go step.1 step.2

/-- What a failed append left behind. -/
def tornBytes (go : GoLib) : StoreCall → Bytes
  | .append now fault msg => torn go now fault msg
  | .query _ => []

lemma exists_step_of_mem (go : GoLib) (state : Disk × FileStore) {calls : List StoreCall}
    {call : StoreCall} (h : call ∈ calls) : ∃ disk, (disk, call) ∈ steps go state calls := by
  induction calls generalizing state with
  | nil => simp at h
  | cons first calls ih =>
      rcases List.mem_cons.mp h with rfl | h
      · exact ⟨state.1, by simp [steps]⟩
      · obtain ⟨disk, hmem⟩ := ih (runCall go state first) h
        exact ⟨disk, List.mem_cons_of_mem _ hmem⟩

lemma tornBytes_eq_nil_of_ok {go : GoLib} {disk : Disk} {call : StoreCall}
    (h : appendError go disk call = none) : tornBytes go call = [] := by
  cases call with
  | query q => rfl
  | append now fault msg =>
      rcases append_cases go now fault disk msg with
        ⟨record, -, htorn, -⟩ | ⟨record, err, -, -, heq⟩ | ⟨err, htorn, -⟩
      · exact htorn
      · rw [appendError, heq] at h
        exact absurd h (by simp)
      · exact htorn

/-! ## Pieces -/

/-- The bytes one append wrote, and whether it returned nil. -/
structure Piece where
  path : String
  bytes : Bytes
  accepted : Bool

/-- What was written to one partition, in order. -/
def piecesAt (pieces : List Piece) (path : String) : List Bytes :=
  (pieces.filter (·.path = path)).map Piece.bytes

/-- The directory is what these pieces made of an empty one. -/
structure Holds (go : GoLib) (disk : Disk) (pieces : List Piece) : Prop where
  data : ∀ path, disk.data path = (piecesAt pieces path).flatten
  fragment : ∀ piece ∈ pieces, go.Fragment piece.bytes
  listed : ∀ piece ∈ pieces, piece.path ∈ messageFiles disk
  whole : ∀ piece ∈ pieces, piece.accepted = true → ∃ msg, go.encode msg = .ok piece.bytes

lemma Holds.empty (go : GoLib) : Holds go Disk.empty [] :=
  ⟨fun _ => data_eq_nil_of_notMem Finmap.notMem_empty, by simp, by simp, by simp⟩

/-- What a call writes. -/
def written (go : GoLib) (disk : Disk) : StoreCall → List Piece
  | .append now fault msg =>
      let path := pathFor go (stamp now msg)
      (acceptedRecord go disk (.append now fault msg)).map (⟨path, ·, true⟩) ++
        if torn go now fault msg = [] then [] else [⟨path, torn go now fault msg, false⟩]
  | .query _ => []

lemma piecesAt_append (a b : List Piece) (path : String) :
    piecesAt (a ++ b) path = piecesAt a path ++ piecesAt b path := by
  simp [piecesAt]

/-- One more piece at the end of its partition. -/
lemma Holds.appended {go : GoLib} {disk : Disk} {pieces : List Piece} (h : Holds go disk pieces)
    (now : Time) (msg : Message) {bytes : Bytes} (accepted : Bool) (hfrag : go.Fragment bytes)
    (hwhole : accepted = true → ∃ msg, go.encode msg = .ok bytes) :
    Holds go (disk.appended now (pathFor go msg) bytes)
      (pieces ++ [⟨pathFor go msg, bytes, accepted⟩]) := by
  have hlisted : ∀ path, path = pathFor go msg ∨ path ∈ messageFiles disk →
      path ∈ messageFiles (disk.appended now (pathFor go msg) bytes) := by
    rintro path (rfl | hpath)
    · rw [mem_messageFiles, mem_appended]
      exact ⟨Or.inl rfl, isPartition_pathFor go msg⟩
    · rw [mem_messageFiles] at hpath ⊢
      rw [mem_appended]
      exact ⟨Or.inr hpath.1, hpath.2⟩
  refine ⟨fun path => ?_, fun piece hpiece => ?_, fun piece hpiece => ?_, fun piece hpiece => ?_⟩
  · rw [data_appended, h.data, piecesAt_append, List.flatten_append]
    by_cases hpath : path = pathFor go msg
    · simp [piecesAt, hpath]
    · have hpath' : ¬ pathFor go msg = path := fun heq => hpath heq.symm
      simp [piecesAt, hpath, hpath']
  · rcases List.mem_append.mp hpiece with hp | hp
    · exact h.fragment piece hp
    · rw [List.mem_singleton.mp hp]
      exact hfrag
  · rcases List.mem_append.mp hpiece with hp | hp
    · exact hlisted _ (Or.inr (h.listed piece hp))
    · rw [List.mem_singleton.mp hp]
      exact hlisted _ (Or.inl rfl)
  · rcases List.mem_append.mp hpiece with hp | hp
    · exact h.whole piece hp
    · rw [List.mem_singleton.mp hp]
      exact hwhole

/-- A file an append merely opened. -/
lemma Holds.opened {go : GoLib} {disk : Disk} {pieces : List Piece} (h : Holds go disk pieces)
    (now : Time) (path : String) : Holds go (disk.appended now path []) pieces := by
  refine ⟨fun key => ?_, h.fragment, fun piece hpiece => ?_, h.whole⟩
  · rw [data_appended, h.data]
    simp
  · have hpath := h.listed piece hpiece
    rw [mem_messageFiles] at hpath ⊢
    rw [mem_appended]
    exact ⟨Or.inr hpath.1, hpath.2⟩

/-- **The step lemma**: each call adds what it writes. -/
lemma Holds.step {go : GoLib} (hframed : go.Framed) {disk : Disk} {pieces : List Piece}
    (h : Holds go disk pieces) (store : FileStore) (call : StoreCall) :
    Holds go (runCall go (disk, store) call).1 (pieces ++ written go disk call) := by
  cases call with
  | query q =>
      simp only [written, List.append_nil]
      exact h
  | append now fault msg =>
      simp only [written, acceptedRecord, runCall]
      rcases append_cases go now fault disk msg with
        ⟨record, henc, htorn, heq⟩ | ⟨record, err, henc, hpre, heq⟩ | ⟨err, htorn, heq⟩
      · have hfrag : go.Fragment record := by
          obtain ⟨body, rfl, -, -⟩ := hframed _ record henc
          exact ⟨by simp, _, _, henc, List.prefix_rfl⟩
        simp only [heq, htorn, henc, if_true, List.append_nil]
        exact h.appended now (stamp now msg) true hfrag fun _ => ⟨_, henc⟩
      · simp only [heq, reduceCtorEq, if_false, List.map_nil, List.nil_append]
        by_cases htorn : torn go now fault msg = []
        · rw [if_pos htorn, List.append_nil, htorn]
          exact h.opened now _
        · rw [if_neg htorn]
          exact h.appended now (stamp now msg) false ⟨htorn, _, record, henc, hpre⟩ (by simp)
      · simp only [heq, htorn, reduceCtorEq, if_false, if_true, List.map_nil, List.append_nil]
        exact h

/-- What a run writes. -/
def writtenBy (go : GoLib) (state : Disk × FileStore) (calls : List StoreCall) : List Piece :=
  (steps go state calls).flatMap fun step => written go step.1 step.2

/-- An append writes one piece at most. -/
lemma length_written_le (go : GoLib) (disk : Disk) (call : StoreCall) :
    (written go disk call).length ≤ 1 := by
  cases call with
  | query q => exact Nat.zero_le 1
  | append now fault msg =>
      simp only [written, acceptedRecord]
      rcases append_cases go now fault disk msg with
        ⟨record, henc, htorn, heq⟩ | ⟨record, err, -, -, heq⟩ | ⟨err, htorn, heq⟩
      · simp [heq, htorn, henc, Except.toOption]
      · simp only [heq, reduceCtorEq, if_false, List.map_nil, List.nil_append]
        split_ifs
        · exact Nat.zero_le 1
        · exact le_rfl
      · simp [heq, htorn]

lemma length_writtenBy_le (go : GoLib) (state : Disk × FileStore) (calls : List StoreCall) :
    (writtenBy go state calls).length ≤ calls.length := by
  induction calls generalizing state with
  | nil => exact le_rfl
  | cons call calls ih =>
      have hsplit : writtenBy go state (call :: calls)
          = written go state.1 call ++ writtenBy go (runCall go state call) calls := rfl
      have hfirst := length_written_le go state.1 call
      have hrest := ih (runCall go state call)
      rw [hsplit, List.length_append, List.length_cons]
      omega

/-- **The run lemma.** -/
lemma Holds.run {go : GoLib} (hframed : go.Framed) {disk : Disk} {pieces : List Piece}
    (h : Holds go disk pieces) (store : FileStore) (calls : List StoreCall) :
    Holds go (runCalls go (disk, store) calls).1
      (pieces ++ writtenBy go (disk, store) calls) := by
  induction calls generalizing disk store pieces with
  | nil => simpa [runCalls, writtenBy, steps] using h
  | cons call calls ih =>
      have hstep := h.step hframed store call
      have hrest := ih hstep (runCall go (disk, store) call).2
      simpa [runCalls, writtenBy, steps, List.append_assoc] using hrest

/-- The accepted pieces of a run are its accepted records. -/
lemma accepted_writtenBy (go : GoLib) (state : Disk × FileStore) (calls : List StoreCall) :
    ((writtenBy go state calls).filter (·.accepted)).map Piece.bytes
      = acceptedRecords go state calls := by
  have hcall : ∀ disk call, ((written go disk call).filter (·.accepted)).map Piece.bytes
      = acceptedRecord go disk call := by
    intro disk call
    cases call with
    | query q => rfl
    | append now fault msg =>
        simp only [written]
        rw [List.filter_append, List.map_append]
        have htorn : ((if torn go now fault msg = [] then [] else
            [(⟨pathFor go (stamp now msg), torn go now fault msg, false⟩ : Piece)]).filter
              (·.accepted)).map Piece.bytes = [] := by
          split_ifs
          · rfl
          · rfl
        rw [htorn, List.append_nil]
        simp [List.filter_map, Function.comp_def]
  rw [writtenBy, acceptedRecords, List.filter_flatMap, List.map_flatMap]
  simp only [hcall]

/-- A piece that was not accepted is what a failed append left behind, and the other way round. -/
lemma exists_torn_iff (go : GoLib) (state : Disk × FileStore) (calls : List StoreCall) :
    (∃ piece ∈ writtenBy go state calls, piece.accepted = false) ↔
      ∃ call ∈ calls, tornBytes go call ≠ [] := by
  have hcall : ∀ disk call, (∃ piece ∈ written go disk call, piece.accepted = false) ↔
      tornBytes go call ≠ [] := by
    intro disk call
    cases call with
    | query q => simp [written, tornBytes]
    | append now fault msg =>
        by_cases htorn : torn go now fault msg = []
        · simp [written, tornBytes, htorn]
        · simp [written, tornBytes, htorn]
  induction calls generalizing state with
  | nil => simp [writtenBy, steps]
  | cons call calls ih =>
      have hsplit : writtenBy go state (call :: calls)
          = written go state.1 call ++ writtenBy go (runCall go state call) calls := rfl
      simp only [hsplit, List.mem_append, or_and_right, exists_or, hcall, ih, List.mem_cons,
        exists_eq_left]

/-! ## Lines and index entries, counted -/

/-- **Lines that decode are pieces**: of a line made of several pieces even the key does not
decode. -/
lemma all_eq_pieces {go : GoLib} (hframed : go.Framed) (hglued : go.RejectsGlued)
    {pieces : List Bytes} (hpieces : ∀ piece ∈ pieces, go.Fragment piece)
    (hkeys : ∀ line ∈ Lines.all newline pieces.flatten, ∃ key, go.decodeKey line = .ok key) :
    Lines.all newline pieces.flatten = pieces := by
  induction pieces with
  | nil => rfl
  | cons piece pieces ih =>
      obtain ⟨hne, hbody⟩ := (hpieces piece (by simp)).clean hframed
      have hsnoc := List.dropLast_append_getLast hne
      have hrest : ∀ p ∈ pieces, go.Fragment p := fun p hp => hpieces p (by simp [hp])
      rw [List.flatten_cons] at hkeys ⊢
      by_cases hlast : piece.getLast hne = newline
      · have hline : Lines.IsLine newline piece := ⟨piece.dropLast, by rw [← hlast, hsnoc], hbody⟩
        rw [Lines.all_line_append newline hline] at hkeys ⊢
        rw [ih hrest fun line hline => hkeys line (List.mem_cons_of_mem _ hline)]
      · have hclean : newline ∉ piece := by
          rw [← hsnoc, List.mem_append, List.mem_singleton]
          rintro (h | h)
          · exact hbody h
          · exact hlast h.symm
        by_cases hmore : pieces = []
        · subst hmore
          rw [List.flatten_nil, List.append_nil, Lines.all_of_notMem newline hclean hne]
        · exfalso
          obtain ⟨k, hk, hmem⟩ := Lines.start_append_mem_all newline hclean hmore
            fun p hp => (hrest p hp).clean hframed
          obtain ⟨key, hkey⟩ := hkeys _ hmem
          have hlen : 0 < (pieces.take k).length := by
            rw [List.length_take]
            have := List.length_pos_of_ne_nil hmore
            omega
          obtain ⟨cause, hcause⟩ := hglued (piece :: pieces.take k)
            (by rw [List.length_cons]; omega) fun p hp => by
              rcases List.mem_cons.mp hp with rfl | hp
              · exact hpieces p (by simp)
              · exact hrest p (List.mem_of_mem_take hp)
          rw [List.flatten_cons, hkey] at hcause
          exact absurd hcause (by simp)

/-- A scan that succeeds has an entry for every line, and every line fitted. -/
lemma scanLines_ok {go : GoLib} :
    ∀ {lines : List Bytes} {offset : ℕ} {entries : List IndexEntry},
      scanLines go offset lines = .ok entries →
      entries.length = lines.length ∧ ∀ line ∈ lines, fitsScanner line = true
  | [], _, entries, h => by
      rw [scanLines] at h
      rw [← Except.ok.inj h]
      simp
  | line :: lines, offset, entries, h => by
      rw [scanLines] at h
      split_ifs at h with hfits
      cases hkey : go.decodeKey line with
      | error cause => simp [hkey] at h
      | ok key =>
          cases hrest : scanLines go (offset + line.length) lines with
          | error err => simp [hkey, hrest] at h
          | ok more =>
              simp only [hkey, hrest] at h
              obtain ⟨hlen, hall⟩ := scanLines_ok hrest
              rw [← Except.ok.inj h]
              refine ⟨by simp [hlen], fun l hl => ?_⟩
              rcases List.mem_cons.mp hl with rfl | hl
              · exact hfits
              · exact hall l hl

/-- A scan of whole pieces has an entry for each. -/
lemma scanIndex_pieces {go : GoLib} (hframed : go.Framed) (hglued : go.RejectsGlued)
    {pieces : List Bytes} (hpieces : ∀ piece ∈ pieces, go.Fragment piece) {offset : ℕ}
    {entries : List IndexEntry} (h : scanIndex go offset pieces.flatten = .ok entries) :
    entries.length = pieces.length ∧ ∀ piece ∈ pieces, fitsScanner piece = true := by
  have hlines := all_eq_pieces hframed hglued hpieces (decodeKey_of_scanLines h)
  obtain ⟨hlen, hfits⟩ := scanLines_ok h
  rw [hlines] at hlen hfits
  exact ⟨hlen, hfits⟩

/-- An index has an entry for each of the pieces it was built from, all of which fitted. -/
def Counts (pieces : List Bytes) (index : FileIndex) : Prop :=
  ∃ seen later, pieces = seen ++ later ∧ index.info.size = seen.flatten.length ∧
    index.entries.length = seen.length ∧ ∀ piece ∈ seen, fitsScanner piece = true

lemma Counts.append {pieces more : List Bytes} {index : FileIndex} (h : Counts pieces index) :
    Counts (pieces ++ more) index := by
  obtain ⟨seen, later, rfl, hsize, hlen, hfits⟩ := h
  exact ⟨seen, later ++ more, List.append_assoc _ _ _, hsize, hlen, hfits⟩

lemma indexFile_counts {go : GoLib} (hframed : go.Framed) (hglued : go.RejectsGlued)
    {path : String} {previous : Option FileIndex} {file : File} {pieces : List Bytes}
    (hdata : file.data = pieces.flatten) (hpieces : ∀ piece ∈ pieces, go.Fragment piece)
    (hprevious : ∀ index, previous = some index → Counts pieces index) {index : FileIndex}
    (h : indexFile go path previous file = .ok index) :
    index.info = file.info ∧ index.entries.length = pieces.length ∧
      ∀ piece ∈ pieces, fitsScanner piece = true := by
  have hscanned : ∀ {seen later : List Bytes} {entries : List IndexEntry} {index : FileIndex},
      pieces = seen ++ later → entries.length = seen.length →
      (∀ piece ∈ seen, fitsScanner piece = true) →
      scanFrom go path file seen.flatten.length entries = .ok index →
      index.info = file.info ∧ index.entries.length = pieces.length ∧
        ∀ piece ∈ pieces, fitsScanner piece = true := by
    intro seen later entries index hsplit hlen hfits h
    have hdrop : file.data.drop seen.flatten.length = later.flatten := by
      rw [hdata, hsplit, List.flatten_append, List.drop_left]
    rw [scanFrom, hdrop] at h
    cases hscan : scanIndex go seen.flatten.length later.flatten with
    | error cause =>
        rw [hscan] at h
        exact absurd h (by simp)
    | ok added =>
        rw [hscan] at h
        obtain ⟨hadded, hfits'⟩ := scanIndex_pieces hframed hglued
          (fun piece hpiece => hpieces piece (by rw [hsplit]; simp [hpiece])) hscan
        rw [← Except.ok.inj h, hsplit]
        refine ⟨rfl, ?_, fun piece hpiece => ?_⟩
        · rw [(Sorting.desc_perm entryKey _).length_eq, List.length_append, List.length_append,
            hlen, hadded]
        · rcases List.mem_append.mp hpiece with hp | hp
          · exact hfits piece hp
          · exact hfits' piece hp
  have hwhole : scanFrom go path file 0 [] = .ok index → index.info = file.info ∧
      index.entries.length = pieces.length ∧ ∀ piece ∈ pieces, fitsScanner piece = true :=
    hscanned (List.nil_append pieces).symm rfl (by simp)
  cases previous with
  | none => exact hwhole h
  | some previous =>
      obtain ⟨seen, later, hsplit, hsize, hlen, hfits⟩ := hprevious previous rfl
      simp only [indexFile] at h
      split_ifs at h with hsame hgrown
      · -- nothing was written since the index was built
        have hlater : later = [] := by
          have hlength : file.data.length = seen.flatten.length := by
            rw [← hsize, hsame]
            rfl
          rw [hdata, hsplit, List.flatten_append, List.length_append] at hlength
          have hnil : later.flatten = [] := List.length_eq_zero_iff.mp (by omega)
          rw [List.flatten_eq_nil_iff] at hnil
          refine List.eq_nil_iff_forall_not_mem.mpr fun piece hpiece => ?_
          exact (hpieces piece (by rw [hsplit]; simp [hpiece])).1 (hnil piece hpiece)
        rw [hlater, List.append_nil] at hsplit
        rw [← Except.ok.inj h, hsplit]
        exact ⟨hsame, hlen, hfits⟩
      · rw [hsize] at h
        exact hscanned hsplit hlen hfits h
      · exact hwhole h

/-- Every index of the cache counts the pieces of its partition. -/
def CacheCounts (pieces : List Piece) (store : FileStore) : Prop :=
  ∀ path index, store.indexes.lookup path = some index → Counts (piecesAt pieces path) index

lemma Holds.fragment_piecesAt {go : GoLib} {disk : Disk} {pieces : List Piece}
    (h : Holds go disk pieces) (path : String) :
    ∀ piece ∈ piecesAt pieces path, go.Fragment piece := by
  intro bytes hbytes
  obtain ⟨piece, hpiece, rfl⟩ := List.mem_map.mp hbytes
  exact h.fragment piece (List.mem_of_mem_filter hpiece)

section

variable {go : GoLib} (hframed : go.Framed) (hglued : go.RejectsGlued) {disk : Disk}
  {pieces : List Piece} {store : FileStore}

include hframed hglued

/-- What `queryIndexes` returns has an entry for each piece, all of which fitted. -/
lemma CacheCounts.indexFiles (h : CacheCounts pieces store) (hholds : Holds go disk pieces)
    {paths : List String} {indexes : Dict String FileIndex}
    (hindexes : indexFiles go store.indexes disk paths = .ok indexes) {path : String}
    {index : FileIndex} (hindex : indexes.lookup path = some index) :
    index.info.size = (piecesAt pieces path).flatten.length ∧
      index.entries.length = (piecesAt pieces path).length ∧
      ∀ piece ∈ piecesAt pieces path, fitsScanner piece = true := by
  obtain ⟨file, hfile, hfileIndex⟩ := (lookup_indexFiles hindexes).2 index hindex
  have hdata : file.data = (piecesAt pieces path).flatten := by
    rw [← hholds.data, Disk.data, hfile]
    rfl
  obtain ⟨hinfo, hlen, hfits⟩ := indexFile_counts hframed hglued hdata
    (hholds.fragment_piecesAt path) (h path) hfileIndex
  refine ⟨?_, hlen, hfits⟩
  rw [hinfo, ← hdata]
  rfl

lemma CacheCounts.step (h : CacheCounts pieces store) (hholds : Holds go disk pieces)
    (call : StoreCall) :
    CacheCounts (pieces ++ written go disk call) (runCall go (disk, store) call).2 := by
  intro path index hindex
  rw [piecesAt_append]
  cases call with
  | append now fault msg => exact (h path index hindex).append
  | query q =>
      simp only [runCall, query] at hindex
      cases hcompile : compileTextFilter go q.text with
      | error err =>
          rw [hcompile] at hindex
          exact (h path index hindex).append
      | ok accepts =>
          cases hindexes : Logthing.indexFiles go store.indexes disk (messageFiles disk) with
          | error err =>
              rw [hcompile, hindexes] at hindex
              exact (h path index hindex).append
          | ok indexes =>
              rw [hcompile, hindexes] at hindex
              obtain ⟨hsize, hlen, hfits⟩ :=
                h.indexFiles hframed hglued hholds hindexes hindex
              exact ⟨piecesAt pieces path, _, rfl, hsize, hlen, hfits⟩

lemma CacheCounts.run (h : CacheCounts pieces store) (hholds : Holds go disk pieces)
    (calls : List StoreCall) :
    CacheCounts (pieces ++ writtenBy go (disk, store) calls)
      (runCalls go (disk, store) calls).2 := by
  induction calls generalizing disk store pieces with
  | nil => simpa [Logthing.runCalls, writtenBy, steps] using h
  | cons call calls ih =>
      have hstep := h.step hframed hglued hholds call
      have hrest := ih hstep (hholds.step hframed store call)
      simpa [Logthing.runCalls, writtenBy, steps, List.append_assoc] using hrest

end

end Logthing
