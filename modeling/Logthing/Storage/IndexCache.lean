import Logthing.Storage.StoredRows

/-!
# The cached index is up to date

`query` answers from an index that earlier calls left behind, extended where partitions grew.
`Tracks` says what such an index knows of its partition: it was scanned from an earlier state of
it, of which the present one is a continuation by record fragments.  Every successful
`indexFile` establishes it again for the present state (`indexFile_scannedFrom`), appends keep it,
and so it holds along any run of calls (`CacheTracks.runCalls`).

A partition that ends inside a line is the delicate case: what the index scanned as a line of its
own may be continued by the next append.  Such a line does not decode any more and never will
(`doomed_of_continued`), so the extended index is wrong only where the query has to fail anyway.
-/

namespace Logthing

/-! ## Scans of continued partitions -/

/-- A record fragment has its line feed, if any, at its end. -/
lemma GoLib.Fragment.clean {go : GoLib} (hframed : go.Framed) {piece : Bytes}
    (h : go.Fragment piece) : piece ≠ [] ∧ newline ∉ piece.dropLast := by
  obtain ⟨hne, msg, record, henc, more, hmore⟩ := h
  obtain ⟨body, rfl, hbody, -⟩ := hframed msg record henc
  refine ⟨hne, fun hmem => hbody ?_⟩
  have hlen := congrArg List.length hmore
  have hpos := List.length_pos_of_ne_nil hne
  simp only [List.length_append, List.length_singleton] at hlen
  have htake : piece.dropLast = body.take (piece.length - 1) := by
    have h := congrArg (List.take (piece.length - 1)) hmore
    rw [List.take_append_of_le_length (by omega), List.take_append_of_le_length (by omega)] at h
    rw [List.dropLast_eq_take, h]
  rw [htake] at hmem
  exact List.mem_of_mem_take hmem

lemma scanLines_append {go : GoLib} {b : List Bytes} {more : List IndexEntry} :
    ∀ {a : List Bytes} {offset : ℕ} {entries : List IndexEntry},
      scanLines go offset a = .ok entries →
      scanLines go (offset + a.flatten.length) b = .ok more →
      scanLines go offset (a ++ b) = .ok (entries ++ more)
  | [], offset, entries, ha, hb => by
      rw [scanLines] at ha
      rw [← Except.ok.inj ha]
      simpa using hb
  | line :: a, offset, entries, ha, hb => by
      rw [List.cons_append, scanLines]
      rw [scanLines] at ha
      split_ifs at ha ⊢ with hfits
      cases hkey : go.decodeKey line with
      | error cause => simp [hkey] at ha
      | ok key =>
          cases hrest : scanLines go (offset + line.length) a with
          | error err => simp [hkey, hrest] at ha
          | ok tail =>
              simp only [hkey, hrest] at ha
              rw [List.flatten_cons, List.length_append, ← Nat.add_assoc] at hb
              rw [← Except.ok.inj ha]
              simp only [scanLines_append hrest hb, List.cons_append]

/-- Where the lines that come after fail, so do all of them together. -/
lemma scanLines_append_error {go : GoLib} {b : List Bytes} {cause : String} :
    ∀ {a : List Bytes} {offset : ℕ} {entries : List IndexEntry},
      scanLines go offset a = .ok entries →
      scanLines go (offset + a.flatten.length) b = .error cause →
      scanLines go offset (a ++ b) = .error cause
  | [], _, _, _, hb => by simpa using hb
  | line :: a, offset, entries, ha, hb => by
      rw [List.cons_append, scanLines]
      rw [scanLines] at ha
      split_ifs at ha ⊢ with hfits
      cases hkey : go.decodeKey line with
      | error cause => simp [hkey] at ha
      | ok key =>
          cases hrest : scanLines go (offset + line.length) a with
          | error err => simp [hkey, hrest] at ha
          | ok tail =>
              rw [List.flatten_cons, List.length_append, ← Nat.add_assoc] at hb
              simp only [scanLines_append_error hrest hb]

/-- Bytes that no continuation by record fragments makes decodable again. -/
def Doomed (go : GoLib) (pre : Bytes) : Prop :=
  ∀ pieces : List Bytes, (∀ piece ∈ pieces, go.Fragment piece) →
    ¬ Decodable go (Lines.all newline (pre ++ pieces.flatten))

lemma Doomed.append {go : GoLib} {pre : Bytes} (h : Doomed go pre) {pieces : List Bytes}
    (hpieces : ∀ piece ∈ pieces, go.Fragment piece) : Doomed go (pre ++ pieces.flatten) := by
  intro more hmore hdecode
  refine h (pieces ++ more) (fun piece hpiece => ?_) ?_
  · rcases List.mem_append.mp hpiece with hp | hp
    · exact hpieces piece hp
    · exact hmore piece hp
  · rwa [List.flatten_append, ← List.append_assoc]

/-- **An unterminated record that was continued** by another stays undecodable for good. -/
lemma doomed_of_continued {go : GoLib} (hframed : go.Framed) (hkey : go.KeyAgrees)
    (htrail : go.RejectsTrailing) {pre : Bytes} {key : Time × String}
    (hrest : go.decodeKey (Lines.rest newline pre) = .ok key) {pieces : List Bytes}
    (hne : pieces ≠ []) (hpieces : ∀ piece ∈ pieces, go.Fragment piece) :
    Doomed go (pre ++ pieces.flatten) := by
  intro more hmore hdecode
  have hall : ∀ piece ∈ pieces ++ more, go.Fragment piece := by
    intro piece hpiece
    rcases List.mem_append.mp hpiece with hp | hp
    · exact hpieces piece hp
    · exact hmore piece hp
  obtain ⟨k, hk, hmem⟩ := Lines.start_append_mem_all newline (Lines.notMem_rest newline pre)
    (List.append_ne_nil_of_left_ne_nil hne more) fun piece hpiece => (hall piece hpiece).clean hframed
  rw [List.append_assoc, ← List.flatten_append, Lines.all_append] at hdecode
  obtain ⟨msg, hmsg⟩ := hdecode _ (List.mem_append_right _ hmem)
  have htake : (pieces ++ more).take k ≠ [] := by
    rw [Ne, List.take_eq_nil_iff, not_or]
    exact ⟨by omega, List.append_ne_nil_of_left_ne_nil hne more⟩
  obtain ⟨cause, hcause⟩ := htrail _ key _ hrest (Lines.notMem_rest newline pre) htake
    fun piece hpiece => hall piece (List.mem_of_mem_take hpiece)
  rw [hkey _ msg hmsg] at hcause
  exact absurd hcause (by simp)

/-! ## The cached index -/

/-- Scanning `pre` gives the index's entries, unless `pre` is past saving. -/
def ScannedFrom (go : GoLib) (pre : Bytes) (index : FileIndex) : Prop :=
  index.info.size = pre.length ∧
    (Doomed go pre ∨ ∃ entries, scanIndex go 0 pre = .ok entries ∧
      index.entries = Sorting.desc entryKey entries)

/-- What a cached index knows of its partition: it was scanned from an earlier state of the same
file, which has since been continued by record fragments. -/
def Tracks (go : GoLib) (file : File) (index : FileIndex) : Prop :=
  index.info.inode = file.inode ∧ ∃ pre pieces, file.data = pre ++ List.flatten pieces ∧
    (∀ piece ∈ pieces, go.Fragment piece) ∧ ScannedFrom go pre index

/-- Entries of one scan are told apart by their keys. -/
lemma scanLines_injective {go : GoLib} :
    ∀ {lines : List Bytes} {offset : ℕ} {entries : List IndexEntry},
      scanLines go offset lines = .ok entries → (∀ line ∈ lines, line ≠ []) →
      (∀ entry ∈ entries, offset ≤ entry.offset) ∧
        entries.Pairwise fun a b => a.offset < b.offset
  | [], _, entries, h, _ => by
      rw [scanLines] at h
      rw [← Except.ok.inj h]
      simp
  | line :: lines, offset, entries, h, hne => by
      rw [scanLines] at h
      split_ifs at h with hfits
      cases hkey : go.decodeKey line with
      | error cause => simp [hkey] at h
      | ok key =>
          cases hrest : scanLines go (offset + line.length) lines with
          | error err => simp [hkey, hrest] at h
          | ok more =>
              simp only [hkey, hrest] at h
              have hpos := List.length_pos_of_ne_nil (hne line (by simp))
              obtain ⟨hle, hpair⟩ := scanLines_injective hrest
                fun l hl => hne l (List.mem_cons_of_mem _ hl)
              rw [← Except.ok.inj h]
              refine ⟨fun entry hentry => ?_, List.Pairwise.cons (fun entry hentry => ?_) hpair⟩
              · rcases List.mem_cons.mp hentry with rfl | hentry
                · exact le_rfl
                · have := hle entry hentry
                  omega
              · have := hle entry hentry
                show offset < entry.offset
                omega

lemma entryKey_injective {entries : List IndexEntry}
    (h : entries.Pairwise fun a b => a.offset < b.offset) :
    ∀ a ∈ entries, ∀ b ∈ entries, entryKey a = entryKey b → a = b := by
  intro a ha b hb hab
  have hoffset : a.offset = b.offset := (Prod.mk.inj (toLex.injective hab)).2
  have hsymm : Std.Symm fun a b : IndexEntry => a.offset ≠ b.offset := ⟨fun _ _ h => h.symm⟩
  by_contra hne
  exact (h.imp fun hlt => hlt.ne).forall ha hb hne hoffset

/-- What a scan from a line boundary adds. -/
lemma scanIndex_append {go : GoLib} {pre more : Bytes} {entries added : List IndexEntry}
    (hrest : Lines.rest newline pre = []) (hpre : scanIndex go 0 pre = .ok entries)
    (hmore : scanIndex go pre.length more = .ok added) :
    scanIndex go 0 (pre ++ more) = .ok (entries ++ added) := by
  rw [scanIndex, Lines.all_append_of_rest_eq_nil newline hrest]
  refine scanLines_append hpre ?_
  rw [Lines.flatten_all, Nat.zero_add]
  exact hmore

/-- Sorting what was added into the sorted entries of one scan sorts the entries of both. -/
lemma desc_append_scanned {go : GoLib} {data : Bytes} {entries added : List IndexEntry}
    (h : scanIndex go 0 data = .ok (entries ++ added)) :
    Sorting.desc entryKey (Sorting.desc entryKey entries ++ added)
      = Sorting.desc entryKey (entries ++ added) := by
  have hperm := (Sorting.desc_perm entryKey entries).append_right added
  refine Sorting.desc_eq_desc entryKey hperm fun a ha b hb => ?_
  exact entryKey_injective (scanLines_injective h fun _ hline => ne_nil_of_mem_all hline).2
    a (hperm.mem_iff.mp ha) b (hperm.mem_iff.mp hb)

/-- An index scanned from a state of the file that ends inside a line and is continued is of no
use any more. -/
lemma ScannedFrom.doomed {go : GoLib} (hframed : go.Framed) (hkey : go.KeyAgrees)
    (htrail : go.RejectsTrailing) {pre : Bytes} {index : FileIndex} (h : ScannedFrom go pre index)
    (hrest : Lines.rest newline pre ≠ []) {pieces : List Bytes} (hne : pieces ≠ [])
    (hpieces : ∀ piece ∈ pieces, go.Fragment piece) : Doomed go (pre ++ pieces.flatten) := by
  rcases h.2 with hdoomed | ⟨entries, hscan, -⟩
  · exact hdoomed.append hpieces
  · obtain ⟨key, hdec⟩ := decodeKey_of_scanLines hscan _ (Lines.rest_mem_all newline hrest)
    exact doomed_of_continued hframed hkey htrail hdec hne hpieces

/-- **Every index the store keeps is up to date**: a partition indexed successfully is indexed as
a scan of all of it would have it. -/
lemma indexFile_scannedFrom {go : GoLib} (hframed : go.Framed) (hkey : go.KeyAgrees)
    (htrail : go.RejectsTrailing) {path : String} {previous : Option FileIndex} {file : File}
    (hprevious : ∀ index, previous = some index → Tracks go file index) {index : FileIndex}
    (h : indexFile go path previous file = .ok index) :
    index.info = file.info ∧ ScannedFrom go file.data index := by
  have hwhole : ∀ index, scanFrom go path file 0 [] = .ok index →
      index.info = file.info ∧ ScannedFrom go file.data index := by
    intro index h
    rw [scanFrom, List.drop_zero] at h
    cases hscan : scanIndex go 0 file.data with
    | error cause => simp [hscan] at h
    | ok entries =>
        rw [hscan] at h
        rw [← Except.ok.inj h]
        exact ⟨rfl, rfl, Or.inr ⟨entries, hscan, rfl⟩⟩
  cases previous with
  | none => exact hwhole index h
  | some previous =>
      obtain ⟨hinode, pre, pieces, hdata, hpieces, hscanned⟩ := hprevious previous rfl
      simp only [indexFile] at h
      split_ifs at h with hsame hgrown
      · -- nothing changed since the scan
        have hsize : previous.info.size = file.data.length := by rw [hsame]; rfl
        have hnil : pieces.flatten = [] := by
          have hlen := congrArg List.length hdata
          rw [List.length_append, ← hsize, hscanned.1] at hlen
          exact List.length_eq_zero_iff.mp (by omega)
        rw [← Except.ok.inj h]
        rw [hnil, List.append_nil] at hdata
        rw [hdata]
        exact ⟨hsame, hscanned⟩
      · -- the scan goes on where it left off
        have hdrop : file.data.drop previous.info.size = pieces.flatten := by
          rw [hscanned.1, hdata, List.drop_left]
        have hne : pieces ≠ [] := by
          rintro rfl
          rw [hdata, hscanned.1] at hgrown
          simp at hgrown
        rw [scanFrom, hdrop] at h
        cases hscan : scanIndex go previous.info.size pieces.flatten with
        | error cause => simp [hscan] at h
        | ok added =>
            rw [hscan] at h
            rw [← Except.ok.inj h, hdata]
            refine ⟨rfl, by rw [← hdata]; rfl, ?_⟩
            by_cases hrest : Lines.rest newline pre = []
            · rcases hscanned.2 with hdoomed | ⟨entries, hpre, hentries⟩
              · exact Or.inl (hdoomed.append hpieces)
              · rw [hscanned.1] at hscan
                have hwhole := scanIndex_append hrest hpre hscan
                refine Or.inr ⟨entries ++ added, hwhole, ?_⟩
                show Sorting.desc entryKey (previous.entries ++ added) = _
                rw [hentries, desc_append_scanned hwhole]
            · exact Or.inl (hscanned.doomed hframed hkey htrail hrest hne hpieces)
      · exact hwhole index h

lemma Indexable.of_append {go : GoLib} {a b : List Bytes} (h : Indexable go (a ++ b)) :
    Indexable go b :=
  ⟨fun line hline => h.1 line (List.mem_append_right _ hline),
    fun line hline => h.2 line (List.mem_append_right _ hline)⟩

/-- A partition whose lines decode and fit is indexed, whatever the cache has of it. -/
lemma indexFile_ok {go : GoLib} (hframed : go.Framed) (hkey : go.KeyAgrees)
    (htrail : go.RejectsTrailing) {path : String} {previous : Option FileIndex} {file : File}
    (hprevious : ∀ index, previous = some index → Tracks go file index)
    (hlines : Indexable go (Lines.all newline file.data)) :
    ∃ index, indexFile go path previous file = .ok index := by
  have hwhole : ∃ index, scanFrom go path file 0 [] = .ok index := by
    rw [scanFrom, List.drop_zero, scanIndex, scanLines_eq hkey path 0 hlines]
    exact ⟨_, rfl⟩
  cases previous with
  | none => exact hwhole
  | some previous =>
      obtain ⟨hinode, pre, pieces, hdata, hpieces, hscanned⟩ := hprevious previous rfl
      simp only [indexFile]
      split_ifs with hsame hgrown
      · exact ⟨previous, rfl⟩
      · have hdrop : file.data.drop previous.info.size = pieces.flatten := by
          rw [hscanned.1, hdata, List.drop_left]
        have hne : pieces ≠ [] := by
          rintro rfl
          rw [hdata, hscanned.1] at hgrown
          simp at hgrown
        have hrest : Lines.rest newline pre = [] := by
          by_contra hrest
          refine hscanned.doomed hframed hkey htrail hrest hne hpieces [] (by simp) ?_
          rw [List.flatten_nil, List.append_nil, ← hdata]
          exact hlines.1
        rw [hdata, Lines.all_append_of_rest_eq_nil newline hrest] at hlines
        rw [scanFrom, hdrop, scanIndex, scanLines_eq hkey path _ hlines.of_append]
        exact ⟨_, rfl⟩
      · exact hwhole

/-- The loop over the partitions succeeds when each of them does, and its result has each. -/
lemma indexFiles_ok {go : GoLib} {indexes : Dict String FileIndex} {disk : Disk} :
    ∀ {paths : List String}, (∀ path ∈ paths, ∃ file index, disk.files.lookup path = some file ∧
        indexFile go path (indexes.lookup path) file = .ok index) →
      ∃ next, indexFiles go indexes disk paths = .ok next
  | [], _ => ⟨∅, rfl⟩
  | path :: paths, h => by
      obtain ⟨file, index, hfile, hindex⟩ := h path (by simp)
      obtain ⟨next, hnext⟩ := indexFiles_ok fun p hp => h p (List.mem_cons_of_mem path hp)
      exact ⟨next.insert path index, by simp [indexFiles, hfile, hindex, hnext]⟩

lemma lookup_indexFiles {go : GoLib} {indexes : Dict String FileIndex} {disk : Disk}
    {key : String} :
    ∀ {paths : List String} {next : Dict String FileIndex},
      indexFiles go indexes disk paths = .ok next →
      (key ∈ paths → ∃ index, next.lookup key = some index) ∧
        ∀ index, next.lookup key = some index → ∃ file, disk.files.lookup key = some file ∧
          indexFile go key (indexes.lookup key) file = .ok index
  | [], next, h => by
      rw [indexFiles] at h
      rw [← Except.ok.inj h]
      exact ⟨by simp, by simp [Finmap.lookup_empty]⟩
  | path :: paths, next, h => by
      rw [indexFiles] at h
      cases hfile : disk.files.lookup path with
      | none => simp [hfile] at h
      | some file =>
          cases hindex : indexFile go path (indexes.lookup path) file with
          | error err => simp [hfile, hindex] at h
          | ok index =>
              cases hrest : indexFiles go indexes disk paths with
              | error err => simp [hfile, hindex, hrest] at h
              | ok rest =>
                  simp only [hfile, hindex, hrest] at h
                  obtain ⟨hmem, hsome⟩ : (key ∈ paths → _) ∧ _ := lookup_indexFiles hrest
                  rw [← Except.ok.inj h, Dict.lookup_insert_ite]
                  split_ifs with heq
                  · subst heq
                    refine ⟨fun _ => ⟨index, rfl⟩, fun index' hindex' => ⟨file, hfile, ?_⟩⟩
                    rw [hindex, Option.some.inj hindex']
                  · refine ⟨fun hkey => ?_, hsome⟩
                    rcases List.mem_cons.mp hkey with rfl | hkey
                    · exact absurd rfl heq
                    · exact hmem hkey

/-! ## Runs of a store -/

/-- A call on a `FileStore`, with what the environment makes of it. -/
inductive StoreCall where
  | append (now : Time) (fault : Fault) (msg : Message)
  | query (q : Query)

/-- The directory and the store after a call. -/
def runCall (go : GoLib) : Disk × FileStore → StoreCall → Disk × FileStore
  | (disk, store), .append now fault msg => ((append go now fault disk msg).1, store)
  | (disk, store), .query q => (disk, (query go store disk q).2)

/-- The directory and the store after a sequence of calls. -/
def runCalls (go : GoLib) (state : Disk × FileStore) (calls : List StoreCall) :
    Disk × FileStore :=
  calls.foldl (runCall go) state

/-- The invariant of the cache: every index it has tracks its partition. -/
def CacheTracks (go : GoLib) (disk : Disk) (store : FileStore) : Prop :=
  ∀ path index, store.indexes.lookup path = some index →
    ∃ file, disk.files.lookup path = some file ∧ Tracks go file index

lemma CacheTracks.new (go : GoLib) (disk : Disk) : CacheTracks go disk FileStore.new := by
  intro path index h
  exact absurd h (by simp [FileStore.new, Finmap.lookup_empty])

lemma Tracks.of_continued {go : GoLib} {file file' : File} {index : FileIndex} {piece : Bytes}
    (h : Tracks go file index) (hinode : file'.inode = file.inode)
    (hdata : file'.data = file.data ++ piece) (hpiece : piece = [] ∨ go.Fragment piece) :
    Tracks go file' index := by
  obtain ⟨hino, pre, pieces, hpre, hpieces, hscanned⟩ := h
  refine ⟨hino.trans hinode.symm, pre, ?_⟩
  rcases hpiece with rfl | hpiece
  · exact ⟨pieces, by rw [hdata, hpre, List.append_nil], hpieces, hscanned⟩
  · refine ⟨pieces ++ [piece], ?_, fun p hp => ?_, hscanned⟩
    · rw [hdata, hpre, List.flatten_append, List.flatten_singleton, List.append_assoc]
    · rcases List.mem_append.mp hp with hp | hp
      · exact hpieces p hp
      · rw [List.mem_singleton.mp hp]
        exact hpiece

lemma CacheTracks.appended {go : GoLib} {disk : Disk} {store : FileStore}
    (h : CacheTracks go disk store) (now : Time) (path : String) {piece : Bytes}
    (hpiece : piece = [] ∨ go.Fragment piece) :
    CacheTracks go (disk.appended now path piece) store := by
  intro key index hindex
  obtain ⟨file, hfile, htracks⟩ := h key index hindex
  obtain ⟨file', hfile', hinode, hdata⟩ := lookup_appended disk now path key piece hfile
  refine ⟨file', hfile', htracks.of_continued hinode hdata ?_⟩
  split_ifs
  · exact hpiece
  · exact Or.inl rfl

/-- A prefix of a record is a fragment unless it is empty. -/
lemma eq_nil_or_fragment {go : GoLib} {msg : Message} {record piece : Bytes}
    (henc : go.encode msg = .ok record) (hpiece : piece <+: record) :
    piece = [] ∨ go.Fragment piece := by
  by_cases h : piece = []
  · exact Or.inl h
  · exact Or.inr ⟨h, msg, record, henc, hpiece⟩

section

variable {go : GoLib} (hframed : go.Framed) (hkey : go.KeyAgrees) (htrail : go.RejectsTrailing)

include hframed hkey htrail

/-- Each call keeps the invariant. -/
lemma CacheTracks.run {disk : Disk} {store : FileStore} (h : CacheTracks go disk store)
    (call : StoreCall) :
    CacheTracks go (runCall go (disk, store) call).1 (runCall go (disk, store) call).2 := by
  cases call with
  | append now fault msg =>
      simp only [runCall]
      rcases append_cases go now fault disk msg with
        ⟨record, henc, -, heq⟩ | ⟨record, err, henc, hpre, heq⟩ | ⟨err, -, heq⟩
      · rw [heq]
        exact h.appended _ _ (eq_nil_or_fragment henc List.prefix_rfl)
      · rw [heq]
        exact h.appended _ _ (eq_nil_or_fragment henc hpre)
      · rw [heq]
        exact h
  | query q =>
      simp only [runCall, query]
      cases compileTextFilter go q.text with
      | error err => exact h
      | ok accepts =>
          cases hindexes : indexFiles go store.indexes disk (messageFiles disk) with
          | error err => exact h
          | ok indexes =>
              intro path index hindex
              obtain ⟨file, hfile, hfileIndex⟩ := (lookup_indexFiles hindexes).2 index hindex
              refine ⟨file, hfile, ?_⟩
              have hprevious : ∀ i, store.indexes.lookup path = some i → Tracks go file i := by
                intro i hi
                obtain ⟨file', hfile', htracks⟩ := h path i hi
                rw [hfile] at hfile'
                rwa [Option.some.inj hfile']
              obtain ⟨hinfo, hscanned⟩ :=
                indexFile_scannedFrom hframed hkey htrail hprevious hfileIndex
              exact ⟨by rw [hinfo]; rfl, file.data, [], by simp, by simp, hscanned⟩

/-- The run lemma: the cache tracks the directory after any calls. -/
lemma CacheTracks.runCalls {disk : Disk} {store : FileStore} (h : CacheTracks go disk store)
    (calls : List StoreCall) :
    CacheTracks go (runCalls go (disk, store) calls).1
      (Logthing.runCalls go (disk, store) calls).2 := by
  induction calls generalizing disk store with
  | nil => exact h
  | cons call calls ih => exact ih (h.run hframed hkey htrail call)

/-- What `queryIndexes` returns over partitions whose lines decode and fit. -/
lemma indexFiles_eq_rows {disk : Disk} {store : FileStore} (h : CacheTracks go disk store)
    (hlines : ∀ path ∈ messageFiles disk, Indexable go (Lines.all newline (disk.data path))) :
    ∃ indexes, indexFiles go store.indexes disk (messageFiles disk) = .ok indexes ∧
      ∀ path ∈ messageFiles disk, entriesOf indexes path
        = Sorting.desc entryKey ((partitionRows go disk path).map Row.entry) := by
  have hprevious : ∀ path file, disk.files.lookup path = some file → ∀ index,
      store.indexes.lookup path = some index → Tracks go file index := by
    intro path file hfile index hindex
    obtain ⟨file', hfile', htracks⟩ := h path index hindex
    rw [hfile] at hfile'
    rwa [Option.some.inj hfile']
  have hdata : ∀ {path file}, disk.files.lookup path = some file → disk.data path = file.data := by
    intro path file hfile
    rw [Disk.data, hfile]
    rfl
  obtain ⟨indexes, hindexes⟩ : ∃ indexes,
      indexFiles go store.indexes disk (messageFiles disk) = .ok indexes := by
    refine indexFiles_ok fun path hpath => ?_
    obtain ⟨file, hfile⟩ := Finmap.mem_iff.mp ((mem_messageFiles _ _).mp hpath).1
    have hfileLines := hlines path hpath
    rw [hdata hfile] at hfileLines
    obtain ⟨index, hindex⟩ :=
      indexFile_ok hframed hkey htrail (hprevious path file hfile) hfileLines
    exact ⟨file, index, hfile, hindex⟩
  refine ⟨indexes, hindexes, fun path hpath => ?_⟩
  obtain ⟨hmem, hsome⟩ := lookup_indexFiles hindexes
  obtain ⟨index, hindex⟩ := hmem hpath
  obtain ⟨file, hfile, hfileIndex⟩ := hsome index hindex
  obtain ⟨-, -, hscanned⟩ :=
    indexFile_scannedFrom hframed hkey htrail (hprevious path file hfile) hfileIndex
  have hpathLines := hlines path hpath
  rw [← hdata hfile] at hscanned
  rcases hscanned with hdoomed | ⟨entries, hscan, hentries⟩
  · refine absurd hpathLines.1 ?_
    have h := hdoomed [] (by simp)
    rwa [List.flatten_nil, List.append_nil] at h
  · rw [scanIndex, scanLines_eq hkey path 0 hpathLines] at hscan
    rw [entriesOf, hindex, partitionRows, Except.ok.inj hscan]
    exact hentries

end

end Logthing
