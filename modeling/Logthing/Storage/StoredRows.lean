import Logthing.Storage.AppendReader
import Logthing.Storage.QueryIndex

/-!
# The rows a directory stores

The meaning of a directory for queries: one row for every line of every partition, with its
place and the message it decodes to.  `naiveQuery` is what a query means, said over these rows
without index, heap or early stop.

The rest connects rows to what the code handles instead of them: an index scan yields the rows'
entries (`scanLines_eq`), and reading an entry back yields the row's message (`readEntry_row`).
-/

namespace Logthing

/-- A stored message and its place. -/
structure Row where
  path : String
  offset : ℕ
  length : ℕ
  message : Message

/-- The rows of the lines of one partition, the first of which starts at `offset`. -/
def rowsFrom (go : GoLib) (path : String) : ℕ → List Bytes → List Row
  | _, [] => []
  | offset, line :: lines =>
      match go.decode line with
      | .error _ => rowsFrom go path (offset + line.length) lines
      | .ok message =>
          ⟨path, offset, line.length, message⟩ :: rowsFrom go path (offset + line.length) lines

/-- The rows of one partition. -/
def partitionRows (go : GoLib) (disk : Disk) (path : String) : List Row :=
  rowsFrom go path 0 (Lines.all newline (disk.data path))

/-- Every row of the directory. -/
def storedRows (go : GoLib) (disk : Disk) : List Row :=
  (messageFiles disk).flatMap (partitionRows go disk)

/-! ## What a query means -/

/-- Latest first, then the greater path, then the greater offset. -/
def Row.key (row : Row) : ℤ ×ₗ String ×ₗ ℕ :=
  toLex (row.message.receivedAt, toLex (row.path, row.offset))

/-- Whether a message is one the query asks for. -/
def wanted (q : Query) (accepts : Message → Bool) (msg : Message) : Bool :=
  q.until_.all (msg.receivedAt ≤ ·) && q.since.all (· ≤ msg.receivedAt) &&
    (selectedHosts q.hosts = [] || msg.hostname ∈ selectedHosts q.hosts) && accepts msg

/-- The answer to a query: the messages asked for in order, with the first `Offset` dropped and
at most `Limit` of the others kept. -/
def naiveQuery (go : GoLib) (disk : Disk) (q : Query) (accepts : Message → Bool) :
    List Message :=
  (((Sorting.desc Row.key (storedRows go disk)).map Row.message |>.filter (wanted q accepts)).drop
    q.offset.toNat).take (effectiveLimit q.limit)

/-! ## Rows and index entries -/

/-- What the index keeps of a row. -/
def Row.entry (row : Row) : IndexEntry :=
  ⟨row.message.receivedAt, row.message.hostname, row.offset, row.length⟩

/-- Lines the index scan and the reader both accept. -/
def Indexable (go : GoLib) (lines : List Bytes) : Prop :=
  Decodable go lines ∧ ∀ line ∈ lines, fitsScanner line = true

lemma Indexable.tail {go : GoLib} {line : Bytes} {lines : List Bytes}
    (h : Indexable go (line :: lines)) : Indexable go lines :=
  ⟨fun l hl => h.1 l (List.mem_cons_of_mem _ hl), fun l hl => h.2 l (List.mem_cons_of_mem _ hl)⟩

lemma path_of_mem_rowsFrom {go : GoLib} {path : String} {row : Row} :
    ∀ {lines : List Bytes} {offset : ℕ}, row ∈ rowsFrom go path offset lines → row.path = path
  | [], _, h => by simp [rowsFrom] at h
  | line :: lines, offset, h => by
      rw [rowsFrom] at h
      cases hdec : go.decode line with
      | error cause =>
          simp only [hdec] at h
          exact path_of_mem_rowsFrom h
      | ok message =>
          simp only [hdec, List.mem_cons] at h
          rcases h with rfl | h
          · rfl
          · exact path_of_mem_rowsFrom h

lemma le_offset_of_mem_rowsFrom {go : GoLib} {path : String} {row : Row} :
    ∀ {lines : List Bytes} {offset : ℕ}, row ∈ rowsFrom go path offset lines → offset ≤ row.offset
  | [], _, h => by simp [rowsFrom] at h
  | line :: lines, offset, h => by
      rw [rowsFrom] at h
      cases hdec : go.decode line with
      | error cause =>
          simp only [hdec] at h
          have := le_offset_of_mem_rowsFrom h
          omega
      | ok message =>
          simp only [hdec, List.mem_cons] at h
          rcases h with rfl | h
          · exact le_rfl
          · have := le_offset_of_mem_rowsFrom h
            omega

/-- Rows of one partition are told apart by their offsets. -/
lemma pairwise_rowsFrom {go : GoLib} {path : String} :
    ∀ {lines : List Bytes} {offset : ℕ}, (∀ line ∈ lines, line ≠ []) →
      (rowsFrom go path offset lines).Pairwise fun a b => a.offset < b.offset
  | [], _, _ => List.Pairwise.nil
  | line :: lines, offset, hne => by
      have ih : (rowsFrom go path (offset + line.length) lines).Pairwise _ :=
        pairwise_rowsFrom fun l hl => hne l (List.mem_cons_of_mem line hl)
      rw [rowsFrom]
      cases hdec : go.decode line with
      | error cause => exact ih
      | ok message =>
          refine List.Pairwise.cons (fun row hrow => ?_) ih
          have hpos : 0 < line.length := List.length_pos_of_ne_nil (hne line (by simp))
          have := le_offset_of_mem_rowsFrom hrow
          show offset < row.offset
          omega

lemma rowsFrom_append (go : GoLib) (path : String) (b : List Bytes) :
    ∀ (a : List Bytes) (offset : ℕ), rowsFrom go path offset (a ++ b)
      = rowsFrom go path offset a ++ rowsFrom go path (offset + a.flatten.length) b
  | [], offset => by simp [rowsFrom]
  | line :: a, offset => by
      rw [List.cons_append, rowsFrom, rowsFrom, rowsFrom_append go path b a, List.flatten_cons,
        List.length_append, Nat.add_assoc]
      cases go.decode line with
      | error cause => rfl
      | ok message => rfl

/-- **What an index scan yields**: the entries of the rows. -/
lemma scanLines_eq {go : GoLib} (hkey : go.KeyAgrees) (path : String) :
    ∀ {lines : List Bytes} (offset : ℕ), Indexable go lines →
      scanLines go offset lines = .ok ((rowsFrom go path offset lines).map Row.entry)
  | [], _, _ => rfl
  | line :: lines, offset, h => by
      obtain ⟨message, hmessage⟩ := h.1 line (by simp)
      have ih := scanLines_eq hkey path (offset + line.length) h.tail
      simp only [scanLines, h.2 line (by simp), if_true, hkey line message hmessage, ih, rowsFrom,
        hmessage, List.map_cons, Row.entry]

/-- A scan that succeeds has seen the keys of all its lines. -/
lemma decodeKey_of_scanLines {go : GoLib} :
    ∀ {lines : List Bytes} {offset : ℕ} {entries : List IndexEntry},
      scanLines go offset lines = .ok entries → ∀ line ∈ lines, ∃ key, go.decodeKey line = .ok key
  | [], _, _, _, line, hline => by simp at hline
  | first :: lines, offset, entries, h, line, hline => by
      rw [scanLines] at h
      split_ifs at h with hfits
      cases hkey : go.decodeKey first with
      | error cause => simp [hkey] at h
      | ok key =>
          cases hrest : scanLines go (offset + first.length) lines with
          | error err => simp [hkey, hrest] at h
          | ok more =>
              rcases List.mem_cons.mp hline with rfl | hline
              · exact ⟨key, hkey⟩
              · exact decodeKey_of_scanLines hrest line hline

/-- The bytes of a row's line, cut out of the bytes the lines were cut from. -/
lemma decode_of_mem_rowsFrom {go : GoLib} {path : String} {row : Row} {data : Bytes} :
    ∀ {lines : List Bytes} {offset : ℕ}, row ∈ rowsFrom go path offset lines →
      data.drop offset = lines.flatten →
      go.decode ((data.drop row.offset).take row.length) = .ok row.message ∧
        ((data.drop row.offset).take row.length).length = row.length
  | [], _, h, _ => by simp [rowsFrom] at h
  | line :: lines, offset, h, hdata => by
      have hnext : data.drop (offset + line.length) = lines.flatten := by
        rw [← List.drop_drop, hdata, List.flatten_cons, List.drop_left]
      rw [rowsFrom] at h
      cases hdec : go.decode line with
      | error cause =>
          simp only [hdec] at h
          exact decode_of_mem_rowsFrom h hnext
      | ok message =>
          simp only [hdec, List.mem_cons] at h
          rcases h with rfl | h
          · show go.decode ((data.drop offset).take line.length) = .ok message ∧
              ((data.drop offset).take line.length).length = line.length
            rw [hdata, List.flatten_cons, List.take_left]
            exact ⟨hdec, rfl⟩
          · exact decode_of_mem_rowsFrom h hnext

/-- **Reading an entry back** yields the row's message. -/
lemma readEntry_row {go : GoLib} {disk : Disk} {path : String} {row : Row}
    (h : row ∈ partitionRows go disk path) :
    ∃ data, readEntry disk row.path row.entry = .ok data ∧ go.decode data = .ok row.message := by
  have hall : (disk.data path).drop 0 = (Lines.all newline (disk.data path)).flatten := by
    rw [List.drop_zero, Lines.flatten_all]
  have hcut := decode_of_mem_rowsFrom h hall
  refine ⟨((disk.data path).drop row.offset).take row.length, ?_, hcut.1⟩
  rw [readEntry, path_of_mem_rowsFrom h]
  exact if_pos hcut.2

lemma ne_nil_of_mem_all {data line : Bytes} (h : line ∈ Lines.all newline data) : line ≠ [] := by
  rcases List.mem_append.mp h with h | h
  · exact (Lines.isLine_of_mem_terminated newline data line h).ne_nil
  · split_ifs at h with hrest
    · simp at h
    · rw [List.mem_singleton.mp h]
      exact hrest

lemma mem_storedRows {go : GoLib} {disk : Disk} {row : Row} :
    row ∈ storedRows go disk ↔
      row.path ∈ messageFiles disk ∧ row ∈ partitionRows go disk row.path := by
  rw [storedRows, List.mem_flatMap]
  constructor
  · rintro ⟨path, hpath, hrow⟩
    rw [path_of_mem_rowsFrom hrow]
    exact ⟨hpath, hrow⟩
  · rintro ⟨hpath, hrow⟩
    exact ⟨row.path, hpath, hrow⟩

lemma eq_of_offset_eq {go : GoLib} {disk : Disk} {path : String} {a b : Row}
    (ha : a ∈ partitionRows go disk path) (hb : b ∈ partitionRows go disk path)
    (h : a.offset = b.offset) : a = b := by
  have hpair : (partitionRows go disk path).Pairwise fun a b => a.offset ≠ b.offset :=
    (pairwise_rowsFrom fun line hline => ne_nil_of_mem_all hline).imp fun hlt => hlt.ne
  by_contra hne
  have hsymm : Std.Symm fun a b : Row => a.offset ≠ b.offset := ⟨fun _ _ h => h.symm⟩
  exact hpair.forall ha hb hne h

/-- The key tells the rows of a directory apart. -/
lemma eq_of_key_eq {go : GoLib} {disk : Disk} {a b : Row} (ha : a ∈ storedRows go disk)
    (hb : b ∈ storedRows go disk) (h : a.key = b.key) : a = b := by
  have hkey : a.path = b.path ∧ a.offset = b.offset := by
    have h := (Prod.mk.inj (toLex.injective h)).2
    exact Prod.mk.inj (toLex.injective h)
  rw [mem_storedRows] at ha hb
  rw [hkey.1] at ha
  exact eq_of_offset_eq ha.2 hb.2 hkey.2

end Logthing
