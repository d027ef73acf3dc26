import Logthing.Core.Lines
import Logthing.Core.Sorting
import Logthing.Storage.TextFilter
import Mathlib.Data.Prod.Lex

/-!
# The query index and `FileStore.Query`

The store keeps, for every partition, the positions and filter keys of its records, extends them
when a partition has grown and reads only the message bodies a page needs.  `query` merges the
partitions' entries, latest first, through a heap with one cursor a partition.

`container/heap` and `sort` are taken at their specification: `popMin` removes the least cursor
under `queryHeap.Less`, and a sort whose order is total has one result.
-/

namespace Logthing

/-- `storage.Query`. -/
structure Query where
  text : String := ""
  hosts : List String := []
  limit : ℤ := 0
  offset : ℤ := 0
  since : Option Time := none
  until_ : Option Time := none

def defaultQueryLimit : ℤ := 200

def maxScannerToken : ℕ := 4 * 1024 * 1024

/-- `indexEntry`. -/
structure IndexEntry where
  receivedAt : Time
  host : String
  offset : ℕ
  length : ℕ
  deriving DecidableEq

/-- What the index keeps of `os.FileInfo`. -/
structure FileInfo where
  inode : ℕ
  size : ℕ
  modTime : Time
  deriving DecidableEq

/-- `fileIndex`. -/
structure FileIndex where
  info : FileInfo
  entries : List IndexEntry

/-- The part of `FileStore` that outlives a call: the cached indexes. -/
structure FileStore where
  indexes : Dict String FileIndex := ∅

/-- `NewFileStore`. -/
def FileStore.new : FileStore := {}

/-- `Stat()`. -/
def File.info (file : File) : FileInfo := ⟨file.inode, file.data.length, file.modTime⟩

/-! ## Scanning -/

/-- Whether the scanner's buffer can hold a line.  The line feed counts, and without one the
buffer must not fill up before the end of the file is seen. -/
def fitsScanner (line : Bytes) : Bool :=
  if line.getLast? = some newline then line.length ≤ maxScannerToken
  else line.length < maxScannerToken

/-- The loop of `scanIndex` over the scanner's tokens. -/
def scanLines (go : GoLib) : ℕ → List Bytes → Except String (List IndexEntry)
  | _, [] => .ok []
  | offset, line :: lines =>
      if fitsScanner line then
        match go.decodeKey line with
        | .error cause => .error cause
        | .ok (receivedAt, host) =>
            match scanLines go (offset + line.length) lines with
            | .error err => .error err
            | .ok entries => .ok (⟨receivedAt, host, offset, line.length⟩ :: entries)
      else .error "bufio.Scanner: token too long"

/-- `scanIndex` of the bytes from `offset` on. -/
def scanIndex (go : GoLib) (offset : ℕ) (data : Bytes) : Except String (List IndexEntry) :=
  scanLines go offset (Lines.all newline data)

/-- The order of a partition's entries: latest first, later in the file first on ties. -/
def entryKey (entry : IndexEntry) : ℤ ×ₗ ℕ := toLex (entry.receivedAt, entry.offset)

/-- A new index: the entries there are, and those scanned from `offset` on. -/
def scanFrom (go : GoLib) (path : String) (file : File) (offset : ℕ) (entries : List IndexEntry) :
    Except String FileIndex :=
  match scanIndex go offset (file.data.drop offset) with
  | .error cause => .error ("index message partition " ++ path ++ ": " ++ cause)
  | .ok scanned => .ok ⟨file.info, Sorting.desc entryKey (entries ++ scanned)⟩

/-- One partition of `queryIndexes`: the cached index when nothing changed, the cached entries
extended when the same file has grown, and otherwise a scan of the whole file. -/
def indexFile (go : GoLib) (path : String) (previous : Option FileIndex) (file : File) :
    Except String FileIndex :=
  match previous with
  | none => scanFrom go path file 0 []
  | some previous =>
      if previous.info = file.info then .ok previous
      else if previous.info.inode = file.inode ∧ previous.info.size < file.data.length then
        scanFrom go path file previous.info.size previous.entries
      else scanFrom go path file 0 []

/-- The loop of `queryIndexes`. -/
def indexFiles (go : GoLib) (indexes : Dict String FileIndex) (disk : Disk) :
    List String → Except String (Dict String FileIndex)
  | [] => .ok ∅
  | path :: paths =>
      match disk.files.lookup path with
      | none => .error ("open " ++ path ++ ": no such file or directory")
      | some file =>
          match indexFile go path (indexes.lookup path) file with
          | .error err => .error err
          | .ok index =>
              match indexFiles go indexes disk paths with
              | .error err => .error err
              | .ok next => .ok (next.insert path index)

/-! ## Merging -/

/-- `indexCursor`, with the entry it stands on and those after it in place of the whole slice and
a position. -/
structure IndexCursor where
  path : String
  order : ℕ
  entry : IndexEntry
  rest : List IndexEntry

/-- `queryHeap.Less`. -/
def IndexCursor.less (a b : IndexCursor) : Bool :=
  if a.entry.receivedAt = b.entry.receivedAt then a.order < b.order
  else b.entry.receivedAt < a.entry.receivedAt

/-- `heap.Pop`: a least cursor, and the others. -/
def popMin : List IndexCursor → Option (IndexCursor × List IndexCursor)
  | [] => none
  | cursor :: cursors =>
      match popMin cursors with
      | none => some (cursor, [])
      | some (least, others) =>
          if least.less cursor then some (least, cursor :: others)
          else some (cursor, least :: others)

/-- The cursor at its next entry, if there is one, back on the heap. -/
def pushNext (cursor : IndexCursor) (pending : List IndexCursor) : List IndexCursor :=
  match cursor.rest with
  | [] => pending
  | entry :: rest => { cursor with entry, rest } :: pending

/-- How many entries are still to be popped. -/
def remaining : List IndexCursor → ℕ
  | [] => 0
  | cursor :: pending => cursor.rest.length + 1 + remaining pending

lemma popMin_perm {pending others : List IndexCursor} {least : IndexCursor}
    (h : popMin pending = some (least, others)) : pending.Perm (least :: others) := by
  induction pending generalizing least others with
  | nil => simp [popMin] at h
  | cons cursor cursors ih =>
      rw [popMin] at h
      cases hpop : popMin cursors with
      | none =>
          rw [hpop] at h
          obtain ⟨rfl, rfl⟩ := Prod.mk.inj (Option.some.inj h)
          cases cursors with
          | nil => exact List.Perm.refl _
          | cons c cs =>
              rw [popMin] at hpop
              split at hpop
              · exact absurd hpop (by simp)
              · split at hpop
                · exact absurd hpop (by simp)
                · exact absurd hpop (by simp)
      | some found =>
          obtain ⟨m, rest⟩ := found
          rw [hpop] at h
          simp only at h
          have hperm := (ih hpop).cons cursor
          split_ifs at h with hless
          · obtain ⟨rfl, rfl⟩ := Prod.mk.inj (Option.some.inj h)
            exact hperm.trans (List.Perm.swap _ _ _)
          · obtain ⟨rfl, rfl⟩ := Prod.mk.inj (Option.some.inj h)
            exact hperm

lemma remaining_perm {a b : List IndexCursor} (h : a.Perm b) : remaining a = remaining b := by
  induction h with
  | nil => rfl
  | cons cursor _ ih => simp only [remaining, ih]
  | swap a b _ =>
      simp only [remaining]
      omega
  | trans _ _ ih ih' => exact ih.trans ih'

/-- A pop takes one entry. -/
lemma remaining_pushNext {pending others : List IndexCursor} {least : IndexCursor}
    (h : popMin pending = some (least, others)) :
    remaining (pushNext least others) + 1 = remaining pending := by
  rw [remaining_perm (popMin_perm h), remaining, pushNext]
  cases hrest : least.rest with
  | nil =>
      simp only [List.length_nil]
      omega
  | cons entry rest =>
      simp only [remaining, List.length_cons]
      omega

/-! ## The query -/

/-- `selectedHosts`. -/
def selectedHosts (values : List String) : List String :=
  (values.map fun value => String.ofList (Text.trimSpace value.toList)).filter (· ≠ "")

/-- The query as the loop reads it. -/
structure Selection where
  accepts : Message → Bool
  text : String
  hosts : List String
  limit : ℕ
  offset : ℤ
  since : Option Time

/-- `f.ReadAt(data, entry.offset)` into a buffer of the entry's length. -/
def readEntry (disk : Disk) (path : String) (entry : IndexEntry) : Except String Bytes :=
  let data := ((disk.data path).drop entry.offset).take entry.length
  if data.length = entry.length then .ok data else .error "read indexed message: EOF"

/-- The loop of `Query`: pop the latest entry until the heap is empty, the page is full or the
entries are too old. -/
def queryLoop (go : GoLib) (disk : Disk) (sel : Selection) (pending : List IndexCursor)
    (skipped : ℕ) (messages : List Message) : Except String (List Message) :=
  if messages.length < sel.limit then
    match _ : popMin pending with
    | none => .ok messages
    | some (cursor, others) =>
        let entry := cursor.entry
        if sel.since.any (entry.receivedAt < ·) then .ok messages
        else
          let pending := pushNext cursor others
          if sel.hosts ≠ [] ∧ entry.host ∉ sel.hosts then
            queryLoop go disk sel pending skipped messages
          else if sel.text = "" ∧ (skipped : ℤ) < sel.offset then
            queryLoop go disk sel pending (skipped + 1) messages
          else
            match readEntry disk cursor.path entry with
            | .error err => .error err
            | .ok data =>
                match go.decode data with
                | .error err => .error err
                | .ok msg =>
                    if sel.text ≠ "" ∧ ¬ sel.accepts msg then
                      queryLoop go disk sel pending skipped messages
                    else if (skipped : ℤ) < sel.offset then
                      queryLoop go disk sel pending (skipped + 1) messages
                    else queryLoop go disk sel pending skipped (messages ++ [msg])
  else .ok messages
termination_by remaining pending
decreasing_by all_goals exact Nat.lt_of_succ_le (remaining_pushNext ‹_›).le

/-- The entries not later than `until`: `sort.Search` on entries that are latest first. -/
def entriesUntil (until_ : Option Time) (entries : List IndexEntry) : List IndexEntry :=
  match until_ with
  | none => entries
  | some bound =>
      entries.drop (Sorting.search
        (fun i => !(entries[i]?.any fun entry => bound < entry.receivedAt)) 0 entries.length)

/-- `indexes[path].entries`. -/
def entriesOf (indexes : Dict String FileIndex) (path : String) : List IndexEntry :=
  ((indexes.lookup path).map FileIndex.entries).getD []

/-- The heap before the loop: one cursor for each partition that has entries left. -/
def startCursors (indexes : Dict String FileIndex) (until_ : Option Time) :
    ℕ → List String → List IndexCursor
  | _, [] => []
  | order, path :: paths =>
      match entriesUntil until_ (entriesOf indexes path) with
      | [] => startCursors indexes until_ (order + 1) paths
      | entry :: rest => ⟨path, order, entry, rest⟩ :: startCursors indexes until_ (order + 1) paths

/-- The number of rows asked for. -/
def effectiveLimit (limit : ℤ) : ℕ := (if limit ≤ 0 then defaultQueryLimit else limit).toNat

/-- The bytes of a `model.Message` in a slice: nine strings, a time, six pointers and maps. -/
def messageSize : ℕ := 9 * 16 + 24 + 6 * 8

/-- The most bytes that Go's runtime allocates at once, on 64-bit platforms. -/
def maxAlloc : ℕ := 2 ^ 48

/-- `make([]model.Message, 0, limit)` has a capacity that is in range. -/
def fitsMemory (limit : ℤ) : Bool := messageSize * effectiveLimit limit ≤ maxAlloc

/-- `FileStore.Query`.  The cache changes only when every partition was indexed.  The page is
allocated for the whole limit then, and a panic of `make` is an error here. -/
def query (go : GoLib) (store : FileStore) (disk : Disk) (q : Query) :
    Except String (List Message) × FileStore :=
  match compileTextFilter go q.text with
  | .error err => (.error err, store)
  | .ok accepts =>
      let files := messageFiles disk
      match indexFiles go store.indexes disk files with
      | .error err => (.error err, store)
      | .ok indexes =>
          let sel : Selection :=
            { accepts, text := queryText go q.text, hosts := selectedHosts q.hosts
              limit := effectiveLimit q.limit, offset := q.offset, since := q.since }
          (if fitsMemory q.limit then
              queryLoop go disk sel (startCursors indexes q.until_ 0 files) 0 []
            else .error "runtime error: makeslice: cap out of range", ⟨indexes⟩)

/-- A page of so many messages is allocated. -/
lemma fitsMemory_of_le {limit : ℤ} (h : limit ≤ 10 ^ 12) : fitsMemory limit = true := by
  have hle : effectiveLimit limit ≤ 10 ^ 12 := by
    rw [effectiveLimit]
    split_ifs
    · decide
    · omega
  refine decide_eq_true ((Nat.mul_le_mul_left messageSize hle).trans ?_)
  decide

end Logthing
