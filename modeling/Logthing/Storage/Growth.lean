import Logthing.Storage.IndexedQuery

/-!
# Rows of a directory that grows

Calls add records and fragments of records at the ends of partitions.  As long as every line can be
decoded the rows that have been there stay where they are, and so does the order in which queries
return them: others come in between.

**Main results.**  `Grown.rows_sublist`: the sorted rows of a directory are a sublist of those of
the directory that it grows into.
-/

namespace Logthing

/-- Every line of every partition decodes and is shorter than the scanner's limit. -/
def Disk.Clean (go : GoLib) (disk : Disk) : Prop :=
  ∀ path ∈ messageFiles disk, ∀ line ∈ Lines.all newline (disk.data path),
    (∃ msg, go.decode line = .ok msg) ∧ line.length < maxScannerToken

lemma Disk.Clean.indexable {go : GoLib} {disk : Disk} (h : Disk.Clean go disk) {path : String}
    (hpath : path ∈ messageFiles disk) : Indexable go (Lines.all newline (disk.data path)) := by
  refine ⟨fun line hline => (h path hpath line hline).1, fun line hline => ?_⟩
  have hlt := (h path hpath line hline).2
  rw [fitsScanner]
  split_ifs
  · exact decide_eq_true hlt.le
  · exact decide_eq_true hlt

/-- What calls do to a directory does not depend on the cache. -/
lemma disk_runCalls (go : GoLib) (calls : List StoreCall) (disk : Disk) (store store' : FileStore) :
    (runCalls go (disk, store) calls).1 = (runCalls go (disk, store') calls).1 := by
  induction calls generalizing disk store store' with
  | nil => rfl
  | cons call calls ih =>
      cases call with
      | append now fault msg => exact ih _ _ _
      | query q => exact ih _ _ _

/-- A directory has no row twice. -/
lemma storedRows_nodup (go : GoLib) (disk : Disk) : (storedRows go disk).Nodup := by
  rw [storedRows, List.nodup_flatMap]
  refine ⟨fun path _ => ?_, (messageFiles_nodup disk).imp fun hne row hrow hrow' => hne ?_⟩
  · have hpair : (partitionRows go disk path).Pairwise fun a b => a.offset < b.offset :=
      pairwise_rowsFrom fun _ hline => ne_nil_of_mem_all hline
    exact hpair.imp fun hlt heq => by simp [heq] at hlt
  · exact (path_of_mem_rowsFrom hrow).symm.trans (path_of_mem_rowsFrom hrow')

/-- Record fragments have been added at the ends of partitions, and partitions to the directory. -/
structure Grown (go : GoLib) (disk disk' : Disk) : Prop where
  data : ∀ path, ∃ pieces : List Bytes, (∀ piece ∈ pieces, go.Fragment piece) ∧
    disk'.data path = disk.data path ++ pieces.flatten
  listed : ∀ path ∈ messageFiles disk, path ∈ messageFiles disk'

namespace Grown

variable {go : GoLib} {disk disk' disk'' : Disk}

lemma refl (go : GoLib) (disk : Disk) : Grown go disk disk :=
  ⟨fun _ => ⟨[], by simp, by simp⟩, fun _ hpath => hpath⟩

lemma trans (h : Grown go disk disk') (h' : Grown go disk' disk'') : Grown go disk disk'' where
  data path := by
    obtain ⟨pieces, hpieces, hdata⟩ := h.data path
    obtain ⟨pieces', hpieces', hdata'⟩ := h'.data path
    refine ⟨pieces ++ pieces', List.forall_mem_append.mpr ⟨hpieces, hpieces'⟩, ?_⟩
    rw [hdata', hdata, List.flatten_append, List.append_assoc]
  listed path hpath := h'.listed path (h.listed path hpath)

lemma appended (disk : Disk) (now : Time) (path : String) {piece : Bytes}
    (hpiece : piece = [] ∨ go.Fragment piece) : Grown go disk (disk.appended now path piece) where
  data key := by
    rw [data_appended]
    split_ifs
    · rcases hpiece with rfl | hpiece
      · exact ⟨[], by simp, rfl⟩
      · exact ⟨[piece], by simpa using hpiece, by simp⟩
    · exact ⟨[], by simp, rfl⟩
  listed key hkey := by
    rw [mem_messageFiles] at hkey ⊢
    exact ⟨(mem_appended disk now path key piece).mpr (Or.inr hkey.1), hkey.2⟩

/-- **Every call** lets the directory grow. -/
lemma runCall (go : GoLib) (disk : Disk) (store : FileStore) (call : StoreCall) :
    Grown go disk (runCall go (disk, store) call).1 := by
  cases call with
  | query q => exact .refl go disk
  | append now fault msg =>
      simp only [Logthing.runCall]
      rcases append_cases go now fault disk msg with
        ⟨record, henc, -, heq⟩ | ⟨record, err, henc, hpre, heq⟩ | ⟨err, -, heq⟩
      · rw [heq]
        exact .appended disk now _ (eq_nil_or_fragment henc List.prefix_rfl)
      · rw [heq]
        exact .appended disk now _ (eq_nil_or_fragment henc hpre)
      · rw [heq]
        exact .refl go disk

/-- **Calls** let the directory grow. -/
lemma runCalls (go : GoLib) (state : Disk × FileStore) (calls : List StoreCall) :
    Grown go state.1 (runCalls go state calls).1 := by
  induction calls generalizing state with
  | nil => exact .refl go state.1
  | cons call calls ih => exact (Grown.runCall go state.1 state.2 call).trans (ih _)

section

variable (hframed : go.Framed) (hkey : go.KeyAgrees) (htrail : go.RejectsTrailing)
  (h : Grown go disk disk')

include hframed hkey htrail h

/-- **The rows of a partition stay** as long as its lines can be decoded. -/
lemma partitionRows_prefix {path : String}
    (hlines : Decodable go (Lines.all newline (disk.data path)))
    (hlines' : Decodable go (Lines.all newline (disk'.data path))) :
    partitionRows go disk path <+: partitionRows go disk' path := by
  obtain ⟨pieces, hpieces, hdata⟩ := h.data path
  rw [partitionRows, partitionRows, hdata]
  by_cases hne : pieces = []
  · rw [hne, List.flatten_nil, List.append_nil]
  -- a line that was not terminated would have been continued
  have hrest : Lines.rest newline (disk.data path) = [] := by
    by_contra hrest
    obtain ⟨msg, hmsg⟩ := hlines _ (Lines.rest_mem_all newline hrest)
    refine doomed_of_continued hframed hkey htrail (hkey _ _ hmsg) hne hpieces [] (by simp) ?_
    rwa [List.flatten_nil, List.append_nil, ← hdata]
  rw [Lines.all_append_of_rest_eq_nil newline hrest, rowsFrom_append]
  exact List.prefix_append _ _

/-- **The rows of a directory stay.** -/
lemma storedRows_subset
    (hlines : ∀ path ∈ messageFiles disk, Decodable go (Lines.all newline (disk.data path)))
    (hlines' : ∀ path ∈ messageFiles disk', Decodable go (Lines.all newline (disk'.data path))) :
    storedRows go disk ⊆ storedRows go disk' := by
  intro row hrow
  rw [mem_storedRows] at hrow ⊢
  obtain ⟨hpath, hmem⟩ := hrow
  have hpath' := h.listed _ hpath
  exact ⟨hpath', (h.partitionRows_prefix hframed hkey htrail (hlines _ hpath)
    (hlines' _ hpath')).subset hmem⟩

end

/-- **The order of the rows stays.** -/
theorem rows_sublist (h : Grown go disk disk') (hframed : go.Framed) (hkey : go.KeyAgrees)
    (htrail : go.RejectsTrailing)
    (hlines : ∀ path ∈ messageFiles disk, Decodable go (Lines.all newline (disk.data path)))
    (hlines' : ∀ path ∈ messageFiles disk', Decodable go (Lines.all newline (disk'.data path))) :
    (Sorting.desc Row.key (storedRows go disk)).Sublist
      (Sorting.desc Row.key (storedRows go disk')) :=
  Sorting.desc_sublist Row.key (storedRows_nodup go disk)
    (h.storedRows_subset hframed hkey htrail hlines hlines') fun _ ha _ hb => eq_of_key_eq ha hb

end Grown

end Logthing
