import Logthing.Storage.StoredRows

/-!
# The merge visits rows in order

`query` never sorts across partitions: it keeps one cursor a partition on a heap and pops the
latest.  `Heap` is what holds of the heap throughout the loop, `merged` is the sorted list of the
entries still to come, and `merged_pop` says a pop takes its head.  With that the loop is a walk
down a sorted list of rows, and `queryLoop_eq` says which page of them it returns.
-/

namespace Logthing

/-! ## The heap -/

/-- The entries a cursor has still to offer, with their partition. -/
def IndexCursor.located (cursor : IndexCursor) : List (String × IndexEntry) :=
  (cursor.entry :: cursor.rest).map fun entry => (cursor.path, entry)

/-- The order rows are returned in, on located entries. -/
def locatedKey (located : String × IndexEntry) : ℤ ×ₗ String ×ₗ ℕ :=
  toLex (located.2.receivedAt, toLex (located.1, located.2.offset))

/-- What is still to be popped, latest first. -/
def merged (pending : List IndexCursor) : List (String × IndexEntry) :=
  Sorting.desc locatedKey (pending.flatMap IndexCursor.located)

/-- The heap of the loop: one cursor a partition, on entries that are latest first, numbered in
the order of decreasing path. -/
structure Heap (pending : List IndexCursor) : Prop where
  sorted : ∀ cursor ∈ pending,
    (cursor.entry :: cursor.rest).Pairwise fun a b => entryKey b ≤ entryKey a
  distinct : pending.Pairwise fun a b => a.path ≠ b.path
  order : ∀ a ∈ pending, ∀ b ∈ pending, a.order < b.order ↔ b.path < a.path
  injective : ∀ a ∈ pending.flatMap IndexCursor.located,
    ∀ b ∈ pending.flatMap IndexCursor.located, locatedKey a = locatedKey b → a = b

/-- What the heap compares cursors by. -/
def IndexCursor.headKey (cursor : IndexCursor) : ℤ ×ₗ String :=
  toLex (cursor.entry.receivedAt, cursor.path)

lemma Heap.less_iff {pending : List IndexCursor} (h : Heap pending) {a b : IndexCursor}
    (ha : a ∈ pending) (hb : b ∈ pending) : a.less b = true ↔ b.headKey < a.headKey := by
  rw [IndexCursor.less, IndexCursor.headKey, IndexCursor.headKey, Prod.Lex.toLex_lt_toLex]
  split_ifs with htime
  · simp [htime, h.order a ha b hb]
  · have htime' : b.entry.receivedAt ≠ a.entry.receivedAt := fun heq => htime heq.symm
    simp [htime']

/-- The cursor popped is not below any other. -/
lemma headKey_le_of_popMin {pending : List IndexCursor}
    (hless : ∀ a ∈ pending, ∀ b ∈ pending, a.less b = true ↔ b.headKey < a.headKey)
    {least : IndexCursor} {others : List IndexCursor} (h : popMin pending = some (least, others)) :
    ∀ c ∈ others, c.headKey ≤ least.headKey := by
  induction pending generalizing least others with
  | nil => simp [popMin] at h
  | cons cursor cursors ih =>
      rw [popMin] at h
      cases hpop : popMin cursors with
      | none =>
          rw [hpop] at h
          obtain ⟨rfl, rfl⟩ := Prod.mk.inj (Option.some.inj h)
          simp
      | some found =>
          obtain ⟨m, rest⟩ := found
          rw [hpop] at h
          have hm : m ∈ cursors := (popMin_perm hpop).mem_iff.mpr (by simp)
          have hrest := ih (fun a ha b hb => hless a (by simp [ha]) b (by simp [hb])) hpop
          have hcmp := hless m (by simp [hm]) cursor (by simp)
          simp only at h
          split_ifs at h with hlt
          · obtain ⟨rfl, rfl⟩ := Prod.mk.inj (Option.some.inj h)
            intro c hc
            rcases List.mem_cons.mp hc with rfl | hc
            · exact (hcmp.mp hlt).le
            · exact hrest c hc
          · obtain ⟨rfl, rfl⟩ := Prod.mk.inj (Option.some.inj h)
            have hle : m.headKey ≤ cursor.headKey := not_lt.mp fun hlt' => hlt (hcmp.mpr hlt')
            intro c hc
            rcases List.mem_cons.mp hc with rfl | hc
            · exact hle
            · exact (hrest c hc).trans hle

/-- A cursor's first entry is its latest. -/
lemma locatedKey_le_head {cursor : IndexCursor} {located : String × IndexEntry}
    (hsorted : (cursor.entry :: cursor.rest).Pairwise fun a b => entryKey b ≤ entryKey a)
    (h : located ∈ cursor.located) : locatedKey located ≤ locatedKey (cursor.path, cursor.entry) := by
  obtain ⟨entry, hentry, rfl⟩ := List.mem_map.mp h
  rcases List.mem_cons.mp hentry with rfl | hrest
  · exact le_rfl
  · have hle := (List.pairwise_cons.mp hsorted).1 entry hrest
    rw [entryKey, entryKey, Prod.Lex.toLex_le_toLex] at hle
    rw [locatedKey, locatedKey, Prod.Lex.toLex_le_toLex, Prod.Lex.toLex_le_toLex]
    rcases hle with hlt | ⟨heq, hle⟩
    · exact Or.inl hlt
    · exact Or.inr ⟨heq, Or.inr ⟨rfl, hle⟩⟩

/-- Between different partitions the heads decide. -/
lemma locatedKey_le_of_headKey {a b : IndexCursor} (h : a.headKey ≤ b.headKey)
    (hne : b.path ≠ a.path) :
    locatedKey (a.path, a.entry) ≤ locatedKey (b.path, b.entry) := by
  rw [IndexCursor.headKey, IndexCursor.headKey, Prod.Lex.toLex_le_toLex] at h
  rw [locatedKey, locatedKey, Prod.Lex.toLex_le_toLex, Prod.Lex.toLex_le_toLex]
  rcases h with hlt | ⟨heq, hle⟩
  · exact Or.inl hlt
  · exact Or.inr ⟨heq, Or.inl (lt_of_le_of_ne hle fun h => hne h.symm)⟩

lemma located_pushNext (cursor : IndexCursor) (others : List IndexCursor) :
    (cursor :: others).flatMap IndexCursor.located
      = (cursor.path, cursor.entry)
          :: (pushNext cursor others).flatMap IndexCursor.located := by
  rw [pushNext, List.flatMap_cons, IndexCursor.located, List.map_cons, List.cons_append]
  cases hrest : cursor.rest with
  | nil => rfl
  | cons entry rest => rfl

lemma mem_pushNext {cursor c : IndexCursor} {others : List IndexCursor}
    (h : c ∈ pushNext cursor others) :
    c ∈ others ∨ ∃ entry rest, cursor.rest = entry :: rest ∧ c = { cursor with entry, rest } := by
  rw [pushNext] at h
  cases hrest : cursor.rest with
  | nil =>
      rw [hrest] at h
      exact Or.inl h
  | cons entry rest =>
      rw [hrest] at h
      rcases List.mem_cons.mp h with rfl | h
      · exact Or.inr ⟨entry, rest, rfl, rfl⟩
      · exact Or.inl h

section

variable {pending others : List IndexCursor} {least : IndexCursor}

lemma Heap.located_perm (hpop : popMin pending = some (least, others)) :
    (pending.flatMap IndexCursor.located).Perm
      ((least.path, least.entry) :: (pushNext least others).flatMap IndexCursor.located) := by
  rw [← located_pushNext]
  exact (popMin_perm hpop).flatMap_right _

lemma Heap.path_ne (h : Heap pending) (hpop : popMin pending = some (least, others)) :
    (∀ c ∈ others, least.path ≠ c.path) ∧ others.Pairwise fun a b => a.path ≠ b.path := by
  have hsymm : Std.Symm fun a b : IndexCursor => a.path ≠ b.path := ⟨fun _ _ h => h.symm⟩
  have hpair := ((popMin_perm hpop).pairwise_iff fun h => h.symm).mp h.distinct
  exact List.pairwise_cons.mp hpair

/-- **A pop takes the latest entry of all.** -/
theorem merged_pop (h : Heap pending) (hpop : popMin pending = some (least, others)) :
    merged pending = (least.path, least.entry) :: merged (pushNext least others) := by
  have hperm := Heap.located_perm hpop
  have hmem : ∀ c ∈ least :: others, c ∈ pending := fun c hc =>
    (popMin_perm hpop).mem_iff.mpr hc
  refine Sorting.desc_cons_of_max locatedKey hperm ?_ h.injective
  intro located hlocated
  have hin : located ∈ (least :: others).flatMap IndexCursor.located := by
    rw [located_pushNext]
    exact List.mem_cons_of_mem _ hlocated
  obtain ⟨c, hc, hlc⟩ := List.mem_flatMap.mp hin
  have hle := locatedKey_le_head (h.sorted c (hmem c hc)) hlc
  rcases List.mem_cons.mp hc with rfl | hc
  · exact hle
  · have hhead := headKey_le_of_popMin (fun a ha b hb => h.less_iff ha hb) hpop c hc
    exact hle.trans (locatedKey_le_of_headKey hhead ((h.path_ne hpop).1 c hc))

lemma Heap.pushNext (h : Heap pending) (hpop : popMin pending = some (least, others)) :
    Heap (pushNext least others) := by
  have hleast : least ∈ pending := (popMin_perm hpop).mem_iff.mpr (by simp)
  have hothers : ∀ c ∈ others, c ∈ pending := fun c hc =>
    (popMin_perm hpop).mem_iff.mpr (List.mem_cons_of_mem _ hc)
  -- a cursor of the new heap is one of the old heap, or the popped one moved on
  have hkeep : ∀ c ∈ Logthing.pushNext least others,
      ∃ c' ∈ pending, c.path = c'.path ∧ c.order = c'.order := by
    intro c hc
    rcases mem_pushNext hc with hc | ⟨entry, rest, -, rfl⟩
    · exact ⟨c, hothers c hc, rfl, rfl⟩
    · exact ⟨least, hleast, rfl, rfl⟩
  refine ⟨fun c hc => ?_, ?_, fun a ha b hb => ?_, fun a ha b hb => ?_⟩
  · rcases mem_pushNext hc with hc | ⟨entry, rest, hrest, rfl⟩
    · exact h.sorted c (hothers c hc)
    · have hsorted := h.sorted least hleast
      rw [hrest] at hsorted
      exact (List.pairwise_cons.mp hsorted).2
  · obtain ⟨hne, hpair⟩ := h.path_ne hpop
    rw [Logthing.pushNext]
    cases least.rest with
    | nil => exact hpair
    | cons entry rest => exact List.Pairwise.cons hne hpair
  · obtain ⟨a', ha', hpa, hoa⟩ := hkeep a ha
    obtain ⟨b', hb', hpb, hob⟩ := hkeep b hb
    rw [hpa, hoa, hpb, hob]
    exact h.order a' ha' b' hb'
  · have hperm := Heap.located_perm hpop
    exact h.injective a (hperm.mem_iff.mpr (List.mem_cons_of_mem _ ha)) b
      (hperm.mem_iff.mpr (List.mem_cons_of_mem _ hb))

end

lemma popMin_eq_none {pending : List IndexCursor} (h : popMin pending = none) : pending = [] := by
  cases pending with
  | nil => rfl
  | cons cursor cursors =>
      rw [popMin] at h
      split at h
      · exact absurd h (by simp)
      · split at h
        · exact absurd h (by simp)
        · exact absurd h (by simp)

lemma merged_ne_nil {pending : List IndexCursor} (h : pending ≠ []) : merged pending ≠ [] := by
  intro hnil
  have hperm := Sorting.desc_perm locatedKey (pending.flatMap IndexCursor.located)
  rw [show Sorting.desc locatedKey _ = [] from hnil] at hperm
  cases pending with
  | nil => exact h rfl
  | cons cursor cursors =>
      rw [located_pushNext] at hperm
      exact absurd hperm.length_eq (by simp)

/-! ## The page -/

/-- Where a row is, as the index has it. -/
def Row.located (row : Row) : String × IndexEntry := (row.path, row.entry)

namespace Selection

variable (sel : Selection)

/-- Whether the loop returns a message it comes to. -/
def selects (msg : Message) : Bool :=
  (sel.hosts = [] || msg.hostname ∈ sel.hosts) && sel.accepts msg

/-- What the loop has yet to return of the rows to come: those before the first that is too old
and that are selected, less the ones to skip, as many as fit. -/
def page (rows : List Row) (skipped kept : ℕ) : List Message :=
  ((((rows.takeWhile fun row => sel.since.all (· ≤ row.message.receivedAt)).map
    Row.message).filter sel.selects).drop (sel.offset - skipped).toNat).take (sel.limit - kept)

variable {sel} {row : Row} {rows : List Row} {skipped kept : ℕ}

lemma page_full (h : sel.limit ≤ kept) : sel.page rows skipped kept = [] := by
  rw [page, Nat.sub_eq_zero_of_le h, List.take_zero]

lemma page_of_tooOld (h : ¬ sel.since.all (· ≤ row.message.receivedAt) = true) :
    sel.page (row :: rows) skipped kept = [] := by
  simp [page, h]

lemma page_of_not_selects (hnew : sel.since.all (· ≤ row.message.receivedAt) = true)
    (h : sel.selects row.message = false) :
    sel.page (row :: rows) skipped kept = sel.page rows skipped kept := by
  rw [page, page, List.takeWhile_cons, if_pos hnew, List.map_cons, List.filter_cons, h]
  rfl

lemma page_of_skip (hnew : sel.since.all (· ≤ row.message.receivedAt) = true)
    (h : sel.selects row.message = true) (hskip : (skipped : ℤ) < sel.offset) :
    sel.page (row :: rows) skipped kept = sel.page rows (skipped + 1) kept := by
  have hdrop : (sel.offset - skipped).toNat = (sel.offset - (skipped + 1 : ℕ)).toNat + 1 := by
    omega
  rw [page, page, List.takeWhile_cons, if_pos hnew, List.map_cons, List.filter_cons, if_pos h,
    hdrop, List.drop_succ_cons]

lemma page_of_keep (hnew : sel.since.all (· ≤ row.message.receivedAt) = true)
    (h : sel.selects row.message = true) (hskip : ¬ (skipped : ℤ) < sel.offset)
    (hroom : kept < sel.limit) :
    sel.page (row :: rows) skipped kept = row.message :: sel.page rows skipped (kept + 1) := by
  have hdrop : (sel.offset - skipped).toNat = 0 := by omega
  have htake : sel.limit - kept = sel.limit - (kept + 1) + 1 := by omega
  rw [page, page, List.takeWhile_cons, if_pos hnew, List.map_cons, List.filter_cons, if_pos h,
    hdrop, htake, List.drop_zero, List.drop_zero, List.take_succ_cons]

end Selection

/-- **One turn of the loop**, at a row that can be read back.  Whether the offset is counted
before or after the message is read makes no difference, since without text every message is
accepted. -/
lemma queryLoop_step {go : GoLib} {disk : Disk} {sel : Selection}
    (hblank : sel.text = "" → ∀ msg, sel.accepts msg = true) {row : Row}
    {pending others : List IndexCursor} {cursor : IndexCursor} {skipped : ℕ}
    {messages : List Message} (hroom : messages.length < sel.limit)
    (hpop : popMin pending = some (cursor, others)) (hrow : row.located = (cursor.path, cursor.entry))
    {data : Bytes} (hdata : readEntry disk row.path row.entry = .ok data)
    (hdecode : go.decode data = .ok row.message) :
    queryLoop go disk sel pending skipped messages
      = if sel.since.all (· ≤ row.message.receivedAt) = true then
          if sel.selects row.message = true then
            if (skipped : ℤ) < sel.offset then
              queryLoop go disk sel (pushNext cursor others) (skipped + 1) messages
            else queryLoop go disk sel (pushNext cursor others) skipped (messages ++ [row.message])
          else queryLoop go disk sel (pushNext cursor others) skipped messages
        else .ok messages := by
  obtain ⟨hpath, hentry⟩ := Prod.mk.inj hrow
  have hsince : sel.since.any (row.entry.receivedAt < ·)
      = !sel.since.all (· ≤ row.message.receivedAt) := by
    cases sel.since with
    | none => rfl
    | some bound =>
        show decide (row.message.receivedAt < bound) = !decide (bound ≤ row.message.receivedAt)
        rw [← decide_not]
        simp only [not_le]
  conv_lhs => rw [queryLoop, if_pos hroom]
  split
  · rename_i hnone
    rw [hpop] at hnone
    exact absurd hnone (by simp)
  · rename_i cursor' others' hpop'
    rw [hpop] at hpop'
    obtain ⟨rfl, rfl⟩ := Prod.mk.inj (Option.some.inj hpop')
    rw [← hpath, ← hentry]
    simp only [hdata, hdecode, hsince]
    by_cases hnew : sel.since.all (· ≤ row.message.receivedAt) = true
    · rw [if_neg (by simp [hnew]), if_pos hnew]
      by_cases hhost : sel.hosts ≠ [] ∧ row.entry.host ∉ sel.hosts
      · have hhost' : row.message.hostname ∉ sel.hosts := hhost.2
        rw [if_pos hhost, if_neg (by simp [Selection.selects, hhost.1, hhost'])]
      · have hsel : sel.selects row.message = sel.accepts row.message := by
          have hhost' : sel.hosts = [] ∨ row.message.hostname ∈ sel.hosts := by
            by_contra h
            rw [not_or] at h
            exact hhost h
          rcases hhost' with h | h
          · simp [Selection.selects, h]
          · simp [Selection.selects, h]
        rw [if_neg hhost, hsel]
        by_cases htext : sel.text = ""
        · rw [if_pos (hblank htext row.message)]
          by_cases hskip : (skipped : ℤ) < sel.offset
          · rw [if_pos ⟨htext, hskip⟩, if_pos hskip]
          · rw [if_neg fun h => hskip h.2, if_neg fun h => h.1 htext]
        · by_cases haccepts : sel.accepts row.message = true
          · simp [htext, haccepts]
          · simp [htext, haccepts]
    · rw [if_pos (by simpa using hnew), if_neg hnew]

/-- **What the loop returns.**  On a heap whose entries are those of `rows`, all of which can be
read back, the loop adds the page of `rows` to what it has. -/
theorem queryLoop_eq {go : GoLib} {disk : Disk} {sel : Selection}
    (hblank : sel.text = "" → ∀ msg, sel.accepts msg = true) (rows : List Row) :
    ∀ (pending : List IndexCursor) (skipped : ℕ) (messages : List Message),
      Heap pending → merged pending = rows.map Row.located →
      (∀ row ∈ rows, ∃ data, readEntry disk row.path row.entry = .ok data ∧
        go.decode data = .ok row.message) →
      queryLoop go disk sel pending skipped messages
        = .ok (messages ++ sel.page rows skipped messages.length) := by
  induction rows with
  | nil =>
      intro pending skipped messages _ hrows _
      have hnil : pending = [] := by
        by_contra hne
        exact merged_ne_nil hne hrows
      subst hnil
      rw [queryLoop]
      simp [popMin, Selection.page]
  | cons row rows ih =>
      intro pending skipped messages hheap hrows hread
      by_cases hroom : messages.length < sel.limit
      · cases hpop : popMin pending with
        | none =>
            rw [popMin_eq_none hpop] at hrows
            exact absurd hrows (by simp [merged, Sorting.desc])
        | some found =>
            obtain ⟨cursor, others⟩ := found
            have hhead := merged_pop hheap hpop
            rw [hrows, List.map_cons] at hhead
            obtain ⟨hrow, hrest⟩ := List.cons.inj hhead
            obtain ⟨data, hdata, hdecode⟩ := hread row (by simp)
            have hnext := fun skipped messages => ih _ skipped messages (hheap.pushNext hpop)
              hrest.symm fun r hr => hread r (List.mem_cons_of_mem _ hr)
            rw [queryLoop_step hblank hroom hpop hrow hdata hdecode]
            by_cases hnew : sel.since.all (· ≤ row.message.receivedAt) = true
            · rw [if_pos hnew]
              by_cases hsel : sel.selects row.message = true
              · rw [if_pos hsel]
                by_cases hskip : (skipped : ℤ) < sel.offset
                · rw [if_pos hskip, hnext, Selection.page_of_skip hnew hsel hskip]
                · rw [if_neg hskip, hnext, Selection.page_of_keep hnew hsel hskip hroom]
                  simp
              · rw [if_neg hsel, hnext, Selection.page_of_not_selects hnew (by simpa using hsel)]
            · rw [if_neg hnew, Selection.page_of_tooOld hnew, List.append_nil]
      · rw [queryLoop, if_neg hroom, Selection.page_full (not_lt.mp hroom), List.append_nil]

end Logthing
