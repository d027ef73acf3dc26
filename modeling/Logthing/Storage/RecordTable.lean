import Logthing.Storage.TextFilter

/-!
# A library that knows a table of records

`GoLib.ofTable` is a `GoLib` whose JSON functions know the messages of a table and the lines they
are stored as, and reject everything else.  It is what the concrete runs of this development are
computed with, and its laws show that the hypotheses the results make about `encoding/json` can
be met together.
-/

namespace Logthing

/-- The bytes of an ASCII text. -/
def asciiBytes (text : String) : Bytes := text.toList.map fun c => UInt8.ofNat c.toNat

/-- The bytes of a text. -/
def utf8Bytes (text : String) : Bytes := text.toUTF8.data.toList

lemma mem_utf8Bytes {text : String} {c : Char} {b : UInt8} (hc : c ∈ text.toList)
    (hb : b ∈ String.utf8EncodeChar c) : b ∈ utf8Bytes text := by
  have hencode : text.toList.utf8Encode = text.toByteArray := String.utf8Encode_toList
  rw [utf8Bytes, String.toUTF8_eq_toByteArray, ← hencode, List.utf8Encode, List.data_toByteArray]
  exact List.mem_flatMap.mpr ⟨c, hc, hb⟩

/-- The byte `'{'`. -/
def openBrace : UInt8 := 123

/-- A table entry whose line is one flat JSON object: no line feed, and no brace but the first. -/
def FlatLine (line : Bytes) : Prop :=
  ∃ rest, line = openBrace :: rest ∧ openBrace ∉ rest ∧ newline ∉ rest

open Classical in
/-- The JSON functions of a table of messages and the lines, without their line feeds, that they
are stored as. -/
noncomputable def GoLib.ofTable (table : List (Message × Bytes)) : GoLib where
  encode msg := match table.find? (fun entry => entry.1 = msg) with
    | some entry => .ok (entry.2 ++ [newline])
    | none => .error "json: unsupported value"
  decode line := match table.find? (fun entry => entry.2 = line ∨ entry.2 ++ [newline] = line) with
    | some entry => .ok entry.1
    | none => .error "invalid character"
  decodeKey line :=
    match table.find? (fun entry => entry.2 = line ∨ entry.2 ++ [newline] = line) with
    | some entry => .ok (entry.1.receivedAt, entry.1.hostname)
    | none => .error "invalid character"
  splitHostPort _ := none
  sha256 data := String.ofList (data.map fun b => Char.ofNat b.toNat)
  toLower text := String.ofList (text.toList.map Char.toLower)
  regexp _ := .error "error parsing regexp"
  marshal
    | none => some "null"
    | some _ => none

section

variable {table : List (Message × Bytes)}

lemma ofTable_encode {msg : Message} {record : Bytes}
    (h : (GoLib.ofTable table).encode msg = .ok record) :
    ∃ line, (msg, line) ∈ table ∧ record = line ++ [newline] := by
  classical
  simp only [GoLib.ofTable] at h
  split at h
  · rename_i entry hfind
    have hmem := List.mem_of_find?_eq_some hfind
    have heq : entry.1 = msg := by simpa using List.find?_some hfind
    refine ⟨entry.2, by rw [← heq]; exact hmem, ?_⟩
    exact (Except.ok.inj h).symm
  · exact absurd h (by simp)

lemma ofTable_framed (hflat : ∀ entry ∈ table, FlatLine entry.2) :
    (GoLib.ofTable table).Framed := by
  intro msg record h
  obtain ⟨line, hmem, rfl⟩ := ofTable_encode h
  obtain ⟨rest, hline, -, hnl⟩ := hflat _ hmem
  have hline : line = openBrace :: rest := hline
  subst hline
  refine ⟨_, rfl, ?_, by simp⟩
  rw [List.mem_cons, not_or]
  exact ⟨by decide, hnl⟩

lemma ofTable_keyAgrees : (GoLib.ofTable table).KeyAgrees := by
  classical
  intro line msg h
  simp only [GoLib.ofTable] at h ⊢
  split at h
  · rw [← Except.ok.inj h]
  · exact absurd h (by simp)

/-- A fragment of a flat line begins with the brace. -/
lemma Fragment.exists_cons (hflat : ∀ entry ∈ table, FlatLine entry.2) {piece : Bytes}
    (h : (GoLib.ofTable table).Fragment piece) : ∃ rest, piece = openBrace :: rest := by
  obtain ⟨hne, msg, record, henc, hpre⟩ := h
  obtain ⟨line, hmem, rfl⟩ := ofTable_encode henc
  obtain ⟨rest, hline, -, -⟩ := hflat _ hmem
  obtain ⟨more, hmore⟩ := hpre
  have hline : line = openBrace :: rest := hline
  rw [hline] at hmore
  cases piece with
  | nil => exact absurd rfl hne
  | cons b piece =>
      rw [List.cons_append, List.cons_append] at hmore
      exact ⟨piece, by rw [(List.cons.inj hmore).1]⟩

lemma ofTable_rejectsGlued (hflat : ∀ entry ∈ table, FlatLine entry.2) :
    (GoLib.ofTable table).RejectsGlued := by
  classical
  intro pieces hlen hfrag
  have htwo : 2 ≤ pieces.flatten.count openBrace := by
    match pieces, hlen with
    | p :: q :: pieces, _ =>
        obtain ⟨p', rfl⟩ := Fragment.exists_cons hflat (hfrag p (by simp))
        obtain ⟨q', rfl⟩ := Fragment.exists_cons hflat (hfrag q (by simp))
        simp only [List.flatten_cons, List.count_append, List.count_cons_self]
        omega
  -- a line of the table has one brace, so it is not two fragments
  refine ⟨"invalid character", ?_⟩
  simp only [GoLib.ofTable]
  split
  · rename_i entry hfind
    exfalso
    obtain ⟨rest, hline, hbrace, -⟩ := hflat _ (List.mem_of_find?_eq_some hfind)
    have hone : entry.2.count openBrace = 1 := by
      rw [hline, List.count_cons_self, List.count_eq_zero_of_not_mem hbrace]
    have hcase : entry.2 = pieces.flatten ∨ entry.2 ++ [newline] = pieces.flatten := by
      simpa using List.find?_some hfind
    rcases hcase with h | h
    · rw [← h] at htwo
      omega
    · rw [← h, List.count_append] at htwo
      have hnl : ([newline] : Bytes).count openBrace = 0 := by decide
      omega
  · rfl

lemma ofTable_rejectsTrailing (hflat : ∀ entry ∈ table, FlatLine entry.2) :
    (GoLib.ofTable table).RejectsTrailing := by
  classical
  have hcount : ∀ {line : Bytes} {entry : Message × Bytes},
      table.find? (fun entry => entry.2 = line ∨ entry.2 ++ [newline] = line) = some entry →
      line.count openBrace = 1 := by
    intro line entry hfind
    obtain ⟨rest, hline, hbrace, -⟩ := hflat _ (List.mem_of_find?_eq_some hfind)
    have hone : entry.2.count openBrace = 1 := by
      rw [hline, List.count_cons_self, List.count_eq_zero_of_not_mem hbrace]
    have hcase : entry.2 = line ∨ entry.2 ++ [newline] = line := by
      simpa using List.find?_some hfind
    rcases hcase with rfl | rfl
    · exact hone
    · rw [List.count_append, hone]
      decide
  intro line key pieces hkey _ hne hfrag
  refine ⟨"invalid character", ?_⟩
  simp only [GoLib.ofTable] at hkey ⊢
  split at hkey
  · rename_i entry hfind
    split
    · rename_i entry' hfind'
      exfalso
      have hwhole := hcount hfind'
      obtain ⟨piece, pieces, rfl⟩ := List.exists_cons_of_ne_nil hne
      obtain ⟨rest, rfl⟩ := Fragment.exists_cons hflat (hfrag piece (by simp))
      rw [List.count_append, hcount hfind, List.flatten_cons, List.count_append,
        List.count_cons_self] at hwhole
      omega
    · rfl
  · exact absurd hkey (by simp)

lemma ofTable_lowerKeepsBlank : (GoLib.ofTable table).LowerKeepsBlank := by
  intro text
  show String.ofList (text.toList.map Char.toLower) = "" ↔ text = ""
  rw [← String.toList_inj, ← String.toList_inj]
  simp

end

/-! ## Libraries to compute with -/

/-- Two messages are the same as evidence. -/
def Message.alike (m m' : Message) : Bool :=
  m.id = m'.id && m.receivedAt = m'.receivedAt && m.transport = m'.transport &&
    m.hostname = m'.hostname && m.tag = m'.tag && m.message = m'.message

/-- The JSON functions of a table of messages and the lines they are stored as, for runs that are
computed. -/
def GoLib.ofLines (table : List (Message × Bytes)) : GoLib where
  encode msg := match table.find? (fun entry => entry.1.alike msg) with
    | some entry => .ok (entry.2 ++ [newline])
    | none => .error "json: unsupported value"
  decode line := match table.find? (fun entry => entry.2 ++ [newline] = line) with
    | some entry => .ok entry.1
    | none => .error "invalid character"
  decodeKey line := match table.find? (fun entry => entry.2 ++ [newline] = line) with
    | some entry => .ok (entry.1.receivedAt, entry.1.hostname)
    | none => .error "invalid character"
  splitHostPort _ := none
  sha256 data := String.ofList (data.map fun b => Char.ofNat b.toNat)
  toLower text := String.ofList (text.toList.map Char.toLower)
  regexp _ := .error "error parsing regexp"
  marshal
    | none => some "null"
    | some _ => none

/-- What such a library decodes is in its table. -/
lemma mem_of_ofLines_decode {table : List (Message × Bytes)} {line : Bytes} {message : Message}
    (h : (GoLib.ofLines table).decode line = .ok message) : ∃ entry ∈ table, entry.1 = message := by
  simp only [GoLib.ofLines] at h
  split at h
  · rename_i entry hfind
    exact ⟨entry, List.mem_of_find?_eq_some hfind, Except.ok.inj h⟩
  · cases h

lemma ofLines_framed {table : List (Message × Bytes)}
    (h : ∀ entry ∈ table, newline ∉ entry.2 ∧ entry.2 ≠ []) : (GoLib.ofLines table).Framed := by
  intro msg record hencode
  simp only [GoLib.ofLines] at hencode
  split at hencode
  · rename_i entry hfind
    obtain ⟨hfree, hne⟩ := h entry (List.mem_of_find?_eq_some hfind)
    exact ⟨entry.2, (Except.ok.inj hencode).symm, hfree, hne⟩
  · cases hencode

lemma ofLines_keyAgrees {table : List (Message × Bytes)} : (GoLib.ofLines table).KeyAgrees := by
  intro line msg h
  simp only [GoLib.ofLines] at h ⊢
  split at h
  · rw [← Except.ok.inj h]
  · cases h

/-- Such a library decodes nothing without a line feed. -/
lemma ofLines_rejectsTrailing {table : List (Message × Bytes)} :
    (GoLib.ofLines table).RejectsTrailing := by
  intro line key pieces hkey hfree
  simp only [GoLib.ofLines] at hkey
  split at hkey
  · rename_i entry hfind
    have hline := List.find?_some hfind
    rw [decide_eq_true_eq] at hline
    exact absurd (hline ▸ List.mem_append_right _ (List.mem_singleton_self newline)) hfree
  · cases hkey

lemma ofLines_lowerKeepsBlank {table : List (Message × Bytes)} :
    (GoLib.ofLines table).LowerKeepsBlank := by
  intro text
  show String.ofList (text.toList.map Char.toLower) = "" ↔ text = ""
  rw [← String.toList_inj, ← String.toList_inj]
  simp

/-! ## A directory with one record -/

/-- A directory with one partition. -/
def Disk.single (path : String) (data : Bytes) : Disk := ⟨Finmap.singleton path ⟨0, 0, data⟩, 1⟩

lemma Disk.mem_single {path key : String} {data : Bytes} :
    key ∈ (Disk.single path data).files ↔ key = path := Finmap.mem_singleton _ _ _

lemma Disk.data_single (path : String) (data : Bytes) :
    (Disk.single path data).data path = data := by
  rw [Disk.data, Disk.single, Finmap.lookup_singleton_eq]
  rfl

lemma messageFiles_single {path : String} (hpath : isPartition path = true) (data : Bytes) :
    messageFiles (Disk.single path data) = [path] := by
  have hkeys : (Disk.single path data).files.keys.filter (isPartition ·) = {path} := by
    ext key
    rw [Finset.mem_filter, Finmap.mem_keys, Disk.mem_single, Finset.mem_singleton]
    constructor
    · exact fun h => h.1
    · rintro rfl
      exact ⟨rfl, hpath⟩
  rw [messageFiles, hkeys, Finset.sort_singleton]

/-- A message with the two fields `Append` requires, received one second after the zero time. -/
def sampleMessage : Message := { id := "one", receivedAt := 1000000000 }

/-- The line `sampleMessage` is stored as. -/
def sampleLine : Bytes := asciiBytes "\x7b\"id\":\"one\",\"received_at\":\"0001-01-01T00:00:01Z\"\x7d"

/-- The library that knows `sampleMessage`. -/
noncomputable def sampleLib : GoLib := GoLib.ofTable [(sampleMessage, sampleLine)]

lemma flatLine_sampleLine : FlatLine sampleLine :=
  ⟨sampleLine.tail, by decide, by decide, by decide⟩

lemma sampleLib_encode : sampleLib.encode sampleMessage = .ok (sampleLine ++ [newline]) := by
  simp [sampleLib, GoLib.ofTable]

lemma sampleLib_decode : sampleLib.decode (sampleLine ++ [newline]) = .ok sampleMessage := by
  simp [sampleLib, GoLib.ofTable]

end Logthing
