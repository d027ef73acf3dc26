import Logthing.Api.MessagePages
import Logthing.Incidents.Dossier
import Logthing.Incidents.WakeLoop
import Logthing.Storage.AbsentFields

/-!
# Where the evidence of an incident is found

An incident names its evidence twice: by the ID of the message, which the front end searches the
messages for, and by the partition and the offset at which the message was read.  The engine, the
worker, the store, the text filter and the handler have a part in what becomes of it.

**Main results.**  `evidence_found`: in every state of the server, whatever the interleaving, each
reference of an incident names exactly one stored record, and the search for an ID gets to a page
that shows the message, which is about the host and the interface of the incident.
-/

namespace Logthing

/-! ## References -/

/-- How an incident refers to a record. -/
def StoredRecord.ref (r : StoredRecord) : String := r.file ++ ":" ++ toString r.offset

/-- Lines that are not empty end in different places. -/
lemma nodup_ends {α : Type} {lines : List (List α)} (hne : ∀ line ∈ lines, line ≠ []) (offset : ℕ) :
    ((Lines.ends offset lines).map Prod.snd).Nodup ∧
      ∀ a ∈ Lines.ends offset lines, offset < a.2 := by
  induction lines generalizing offset with
  | nil => exact ⟨List.nodup_nil, fun a ha => absurd ha List.not_mem_nil⟩
  | cons line lines ih =>
      have hpos : 0 < line.length := List.length_pos_of_ne_nil (hne line List.mem_cons_self)
      obtain ⟨hnodup, hlater⟩ := ih (fun l hl => hne l (List.mem_cons_of_mem _ hl))
        (offset + line.length)
      refine ⟨List.nodup_cons.mpr ⟨fun hmem => ?_, hnodup⟩, fun a ha => ?_⟩
      · obtain ⟨a, ha, hsame⟩ := List.mem_map.mp hmem
        exact absurd hsame (hlater a ha).ne'
      · rcases List.mem_cons.mp ha with rfl | ha
        · exact Nat.lt_add_of_pos_right hpos
        · exact (Nat.le_add_right _ _).trans_lt (hlater a ha)

/-- A stored record: its line is a line of its partition, and it ends at the offset. -/
lemma mem_storedRecords {go : GoLib} {disk : Disk} {r : StoredRecord} :
    r ∈ storedRecords go disk ↔ r.file ∈ messageFiles disk ∧
      ∃ line stop, (line, stop) ∈ Lines.ends 0 (Lines.terminated newline (disk.data r.file)) ∧
        go.decode line = .ok r.message ∧ r.offset = (stop : ℤ) := by
  have hstart : ∀ key, newLines (Disk.empty.data key) (disk.data key)
      = Lines.terminated newline (disk.data key) := by
    intro key
    rw [data_empty]
    rfl
  rw [storedRecords, newRecords, List.mem_flatMap]
  constructor
  · rintro ⟨key, hkey, hr⟩
    obtain rfl := file_of_mem_recordsFrom hr
    obtain ⟨⟨line, stop⟩, hends, hdecode⟩ := List.mem_filterMap.mp hr
    rw [hstart, data_empty] at hends
    refine ⟨mem_sorted_messageFiles.mp hkey, line, stop, hends, ?_⟩
    cases hdec : go.decode line with
    | error cause => simp [hdec] at hdecode
    | ok message =>
        simp only [hdec, Option.some.injEq] at hdecode
        rw [← hdecode]
        exact ⟨rfl, rfl⟩
  · rintro ⟨hfile, line, stop, hends, hdecode, hoffset⟩
    refine ⟨r.file, mem_sorted_messageFiles.mpr hfile,
      List.mem_filterMap.mpr ⟨(line, stop), ?_, ?_⟩⟩
    · rwa [hstart, data_empty]
    · obtain ⟨message, file, offset⟩ := r
      simp only at hdecode hoffset
      simp only [hdecode, hoffset]

/-- **A reference names one record.** -/
lemma StoredRecord.eq_of_ref {go : GoLib} {disk : Disk} {r r' : StoredRecord}
    (hr : r ∈ storedRecords go disk) (hr' : r' ∈ storedRecords go disk) (h : r.ref = r'.ref) :
    r = r' := by
  obtain ⟨-, line, stop, hends, hdecode, hoffset⟩ := mem_storedRecords.mp hr
  obtain ⟨-, line', stop', hends', hdecode', hoffset'⟩ := mem_storedRecords.mp hr'
  have hcolon : ∀ n : ℤ, ':' ∉ (toString n).toList := by
    intro n hmem
    rcases Text.digit_or_minus_of_mem_toString hmem with hdigit | hminus
    · exact absurd hdigit (by decide)
    · exact absurd hminus (by decide)
  obtain ⟨hfile, htext⟩ := Text.cut_last_inj (hcolon r.offset) (hcolon r'.offset)
    (by simpa [StoredRecord.ref] using congrArg String.toList h)
  have hsame : r.file = r'.file := String.toList_inj.mp hfile
  have hstop : stop = stop' := by
    rw [hoffset, hoffset'] at htext
    have hvalue := congrArg (fun digits => Nat.ofDigitChars 10 digits 0) htext
    have hread : ∀ n : ℕ, Nat.ofDigitChars 10 (toString (n : ℤ)).toList 0 = n := fun n =>
      (Text.ofDigitChars_toString n).2.2
    simpa only [hread] using hvalue
  rw [← hsame, ← hstop] at hends'
  have hnonempty : ∀ line ∈ Lines.terminated newline (disk.data r.file), line ≠ [] :=
    fun line hline => ne_nil_of_mem_all (List.mem_append_left _ hline)
  have hnodup := (nodup_ends hnonempty 0).1
  have hline := congrArg Prod.fst (List.inj_on_of_nodup_map hnodup hends hends' rfl)
  simp only at hline
  rw [hline, hdecode'] at hdecode
  have hmessage : r.message = r'.message := (Except.ok.inj hdecode).symm
  have hat : r.offset = r'.offset := by rw [hoffset, hoffset', hstop]
  obtain ⟨message, file, offset⟩ := r
  obtain ⟨message', file', offset'⟩ := r'
  simp only at hsame hmessage hat
  rw [hsame, hmessage, hat]

/-! ## What the engine has been told of -/

/-- The evidence of a record. -/
def Worker.evidenceOf (w : Worker) (r : StoredRecord) : Option Evidence :=
  w.eng.evidence (observation (fun _ => false) r)

lemma Worker.exists_evidenceOf {w : Worker} {eligible : StoredRecord → Bool}
    {records : List StoredRecord} {e : Evidence}
    (h : e ∈ (observations eligible records).filterMap w.eng.evidence) :
    ∃ r ∈ records, w.evidenceOf r = some e := by
  obtain ⟨o, ho, he⟩ := List.mem_filterMap.mp h
  obtain ⟨r, hr, rfl⟩ := List.mem_map.mp ho
  exact ⟨r, (List.mergeSort_perm _ _).mem_iff.mp hr, he⟩

/-- Every incident is documented by evidence of records that the engine has been handed. -/
structure Server.Traced (w : Worker) (s : Server) : Prop where
  consistent : Consistent w.eng s.world.svc.state.view
  documented : ∃ told, s.world.svc.state.view.Documented told ∧
    ∀ e ∈ told, ∃ r ∈ s.handed, w.evidenceOf r = some e

namespace Server.Traced

variable {w : Worker} {s : Server}

lemma start (hids : w.eng.ids.Injective) : Traced w {} where
  consistent := .empty hids
  documented := ⟨[], .empty, fun _ he => absurd he List.not_mem_nil⟩

/-- **A tick.** -/
lemma tick (h : s.Traced w) (env : TickEnv) (now : Time) :
    Traced w { s with world.svc := (w.tick env now s.world.svc).1 } := by
  obtain ⟨told, hdocumented, htold⟩ := h.documented
  obtain ⟨jobs, hstate, -⟩ := w.tick_state env now s.world.svc
  have hview : (w.tick env now s.world.svc).1.state.view = s.world.svc.state.view.settle now := by
    rw [hstate]
    exact advance_view h.consistent env.orders
  refine ⟨?_, told, ?_, htold⟩
  · rw [hview]
    exact h.consistent.settle now
  · rw [hview]
    exact hdocumented.settle h.consistent now

/-- What is derived from a reading. -/
lemma derive (h : s.Traced w) (env : ReconcileEnv) (now : Time) (reading : Reading) :
    Traced w { s with
      world.svc := (w.derive env now s.world.svc reading).1
      handed := s.handed ++ reading.records } := by
  obtain ⟨told, hdocumented, htold⟩ := h.documented
  cases reading with
  | news records next =>
      let op : Operation := .apply env.orders
        (Worker.observations (w.eligible s.world.svc.state) records) next now env.outcome
      refine ⟨h.consistent.call op, _, hdocumented.call h.consistent op, fun e he => ?_⟩
      rcases List.mem_append.mp he with he | he
      · obtain ⟨r, hr, hevidence⟩ := htold e he
        exact ⟨r, List.mem_append_left _ hr, hevidence⟩
      · obtain ⟨r, hr, hevidence⟩ := Worker.exists_evidenceOf he
        exact ⟨r, List.mem_append_right _ hr, hevidence⟩
  | anew changedFile records next =>
      let op : Operation := .rebuild env.orders env.rebuild
        (Worker.observations (w.eligibleAnew s.world.svc.state changedFile) records) next now
        env.outcome
      refine ⟨h.consistent.call op, _, hdocumented.call h.consistent op, fun e he => ?_⟩
      obtain ⟨r, hr, hevidence⟩ := Worker.exists_evidenceOf he
      exact ⟨r, List.mem_append_right _ hr, hevidence⟩

/-- **A reconcile.** -/
lemma reconcile (h : s.Traced w) (env : ReconcileEnv) (now : Time) (seen : Disk) :
    (s.next w (.reconcile env now seen)).Traced w := by
  rcases w.reconcile_cases env seen now s.world.svc with
    hsame | ⟨reading, hread, hderived | hticked⟩
  · obtain ⟨told, hdocumented, htold⟩ := h.documented
    refine ⟨?_, told, ?_, fun e he => ?_⟩
    · rw [Server.next, hsame]
      exact h.consistent
    · rw [Server.next, hsame]
      exact hdocumented
    · obtain ⟨r, hr, hevidence⟩ := htold e he
      exact ⟨r, List.mem_append_left _ hr, hevidence⟩
  · obtain ⟨hconsistent, hdocumented⟩ := h.derive env now reading
    refine ⟨?_, ?_⟩
    all_goals
      simp only [Server.next, hread, hderived, Except.toOption, Option.map_some, Option.getD_some]
    · exact hconsistent
    · exact hdocumented
  · obtain ⟨hconsistent, hdocumented⟩ := (h.derive env now reading).tick env.tick now
    refine ⟨?_, ?_⟩
    all_goals
      simp only [Server.next, hread, hticked, Except.toOption, Option.map_some, Option.getD_some]
    · exact hconsistent
    · exact hdocumented

/-- **Every step.** -/
lemma step (h : s.Traced w) (step : ServerStep) : (s.next w step).Traced w := by
  cases step with
  | append now msg =>
      rw [Server.next]
      split
      · exact ⟨h.consistent, h.documented⟩
      · exact ⟨h.consistent, h.documented⟩
  | reconcile env now seen => exact h.reconcile env now seen
  | tick env now => exact h.tick env now
  | publish | wake | timer | next | stop => exact ⟨h.consistent, h.documented⟩

end Server.Traced

/-- The run lemma. -/
lemma Server.Reached.traced {w : Worker} {s : Server} (h : s.Reached w)
    (hids : w.eng.ids.Injective) : s.Traced w := by
  induction h with
  | start => exact .start hids
  | step _ _ ih => exact ih.step _

/-! ## What an incident keeps -/

lemma mem_of_mem_appendEvidence {x : String} {xs ids : List String}
    (h : x ∈ xs.foldl appendEvidence ids) : x ∈ ids ∨ x ∈ xs := by
  induction xs generalizing ids with
  | nil => exact Or.inl h
  | cons y ys ih =>
      rcases ih h with hmem | hmem
      · rw [appendEvidence] at hmem
        split_ifs at hmem
        · exact Or.inl hmem
        · exact Or.inl hmem
        · exact (List.mem_append.mp hmem).imp_right fun hy =>
            List.mem_cons.mpr (Or.inl (List.mem_singleton.mp hy))
      · exact Or.inr (List.mem_cons_of_mem _ hmem)

/-- What comes first stays first. -/
lemma head?_appendEvidence {x : String} {ids : List String} (h : ids.head? = some x)
    (xs : List String) : (xs.foldl appendEvidence ids).head? = some x := by
  induction xs generalizing ids with
  | nil => exact h
  | cons y ys ih =>
      refine ih ?_
      rw [appendEvidence]
      split_ifs
      · exact h
      · exact h
      · rw [List.head?_append, h, Option.some_or]

namespace Dossier

variable {w : Worker} {told es : List Evidence} {i : Incident} {records : List StoredRecord}

/-- The records behind the evidence of an incident. -/
lemma record (h : Dossier told es i) (hnul : '\x00' ∉ w.eng.interface.toList)
    (hinterface : i.interface ∈ w.eng.interfaces)
    (htold : ∀ e ∈ told, ∃ r ∈ records, w.evidenceOf r = some e) {e : Evidence} (he : e ∈ es) :
    ∃ r ∈ records, e.messageID = r.message.id ∧ e.sourceRef = r.ref ∧
      e.at_ = r.message.receivedAt ∧
        r.message.reports w.eng i.hostname i.interface e.online = true := by
  obtain ⟨r, hr, hevidence⟩ := htold e (h.told.subset he)
  obtain ⟨hkey, honly⟩ := h.own e he
  rw [Worker.evidenceOf] at hevidence
  have hreports := reports_of_key hnul hinterface hevidence hkey honly
  refine ⟨r, hr, ?_, ?_, (evidence_eq_some hevidence).1, hreports⟩
  all_goals
    rw [Engine.evidence] at hevidence
    obtain ⟨e', he', rfl⟩ := Option.map_eq_some_iff.mp hevidence
  · exact (classify_eq_some he').2.2.2.1
  · simp only [Worker.observation, StoredRecord.ref]

end Dossier

/-! ## Searching for an ID -/

/-- **An ID is searched for**: the filter that is made of it accepts the message. -/
lemma accepts_of_id {go : GoLib} {lower : Char → Char} (hlower : go.LowersBy lower)
    {accepts : Message → Bool} {msg : Message} (hliteral : isExpression msg.id = false)
    (hcompile : compileTextFilter go msg.id = .ok accepts) : accepts msg = true := by
  by_cases hblank : (queryText go msg.id).toList = []
  · simp only [isExpression] at hliteral
    simp only [compileTextFilter, hliteral, Bool.false_eq_true, if_false] at hcompile
    rw [← Except.ok.inj hcompile]
    have hempty : queryText go msg.id = "" := String.toList_inj.mp hblank
    rw [queryText] at hempty
    simp [hempty]
  · obtain ⟨accepts', hcompile', haccepts⟩ := compileTextFilter_literal hliteral hblank
    obtain rfl := Except.ok.inj (hcompile'.symm.trans hcompile)
    refine (haccepts msg).mpr ?_
    rw [queryText_toList hlower, hlower.maps, String.toList_ofList]
    refine List.IsInfix.map _ (List.IsInfix.trans ?_ (?_ : msg.id.toList <:+: _))
    · rw [Text.trimSpace]
      exact (List.rdropWhile_prefix _ _).isInfix.trans (List.dropWhile_suffix _).isInfix
    · refine List.IsPrefix.isInfix ?_
      simp only [messageSearchText, String.toList_intercalate, List.map_cons,
        List.intercalate_cons_cons, List.append_assoc]
      exact List.prefix_append _ _

lemma GoLib.LowersBy.keepsBlank {go : GoLib} {lower : Char → Char} (h : go.LowersBy lower) :
    go.LowerKeepsBlank := by
  intro text
  rw [h.maps, ← String.toList_inj, String.toList_ofList, ← String.toList_inj]
  exact List.map_eq_nil_iff

lemma exists_mem_rowsFrom {go : GoLib} {path : String} {message : Message} {line : Bytes}
    (hdecode : go.decode line = .ok message) {lines : List Bytes} (hline : line ∈ lines)
    (offset : ℕ) : ∃ row ∈ rowsFrom go path offset lines, row.message = message := by
  induction lines generalizing offset with
  | nil => exact absurd hline List.not_mem_nil
  | cons first lines ih =>
      rw [rowsFrom]
      rcases List.mem_cons.mp hline with rfl | hline
      · simp only [hdecode]
        exact ⟨_, List.mem_cons_self, rfl⟩
      · obtain ⟨row, hrow, hmessage⟩ := ih hline (offset + first.length)
        cases go.decode first with
        | error cause => exact ⟨row, hrow, hmessage⟩
        | ok other => exact ⟨row, List.mem_cons_of_mem _ hrow, hmessage⟩

/-- A record of the engine is a row of the store. -/
lemma exists_mem_storedRows {go : GoLib} {disk : Disk} {r : StoredRecord}
    (hr : r ∈ storedRecords go disk) : ∃ row ∈ storedRows go disk, row.message = r.message := by
  obtain ⟨hfile, line, stop, hends, hdecode, -⟩ := mem_storedRecords.mp hr
  have hline := List.mem_map_of_mem (f := Prod.fst) hends
  rw [Lines.map_fst_ends] at hline
  obtain ⟨row, hrow, hmessage⟩ : ∃ row ∈ partitionRows go disk r.file, row.message = r.message :=
    exists_mem_rowsFrom hdecode (List.mem_append_left _ hline) 0
  exact ⟨row, List.mem_flatMap.mpr ⟨r.file, hfile, hrow⟩, hmessage⟩

namespace Api

/-- Everything of a list is on one of its pages. -/
lemma exists_mem_page {α : Type} {limit : ℕ} (hlimit : 0 < limit) {l : List α} {a : α} (h : a ∈ l) :
    ∃ k, k * limit < l.length ∧ a ∈ Paging.page limit k l := by
  obtain ⟨n, hn, rfl⟩ := List.getElem_of_mem h
  have hdiv : n / limit * limit ≤ n := Nat.div_mul_le_self n limit
  have hmod : n < (n / limit + 1) * limit := by
    rw [mul_comm]
    exact Nat.lt_mul_div_succ n hlimit
  refine ⟨n / limit, by omega, ?_⟩
  rw [Paging.page, List.mem_take_iff_getElem]
  refine ⟨n - n / limit * limit, ?_, ?_⟩
  · rw [List.length_drop, Nat.add_one_mul] at *
    omega
  · rw [List.getElem_drop]
    congr 1
    omega

/-- **The search for an ID** gets to a page that shows the message. -/
lemma exists_page_of_id (lib : QueryLib) {go : GoLib} (hframed : go.Framed) (hkey : go.KeyAgrees)
    (htrail : go.RejectsTrailing) {lower : Char → Char} (hlower : go.LowersBy lower) {disk : Disk}
    {store : FileStore} (htracks : CacheTracks go disk store) (hclean : disk.Clean go)
    (hfits : (storedRows go disk).length < 2 ^ 63) {r : StoredRecord}
    (hr : r ∈ storedRecords go disk) (hliteral : isExpression r.message.id = false) {limit : ℕ}
    (hlimit : 1 ≤ limit ∧ limit ≤ 2000) :
    ∃ k response, (handleMessages lib go store disk
        (({ q := r.message.id } : MessagesRequest).page limit k)).1 = .ok response ∧
      r.message ∈ response.data := by
  obtain ⟨accepts, hcompile⟩ : ∃ accepts, compileTextFilter go r.message.id = .ok accepts := by
    simp only [isExpression] at hliteral
    simp only [compileTextFilter, hliteral, Bool.false_eq_true, if_false]
    exact ⟨_, rfl⟩
  let q : Logthing.Query := { text := r.message.id, limit := 1 }
  have hparse : parseMessagesQuery lib (({ q := r.message.id } : MessagesRequest).page 1 0)
      = .ok q := by
    have hlimit := @parseQueryNumber_toString lib "limit" 1 (by decide) defaultMessageLimit
      (fun limit => 0 < limit && limit ≤ maxMessageLimit) (by decide)
      ("limit must be between 1 and " ++ toString maxMessageLimit)
    have hoffset := @parseQueryNumber_toString lib "offset" 0 (by decide) 0
      (fun offset => 0 ≤ offset) (by decide) "offset must be greater than or equal to 0"
    have hblank : parseOptionalTime lib "" = .ok none := by
      rw [parseOptionalTime, if_pos (by decide)]
    rw [parseMessagesQuery, MessagesRequest.page, hlimit, Nat.zero_mul, hoffset]
    simp only [hblank]
    rfl
  obtain ⟨row, hrow, hmessage⟩ := exists_mem_storedRows hr
  have hlisted : r.message ∈ listing go q accepts disk := by
    refine List.mem_filter.mpr ⟨List.mem_map.mpr ⟨row, ?_, hmessage⟩, ?_⟩
    · exact (List.mergeSort_perm _ _).mem_iff.mpr hrow
    · have haccepts := accepts_of_id hlower hliteral hcompile
      simp [wanted, q, selectedHosts, haccepts]
  have hlength : (listing go q accepts disk).length < 2 ^ 63 := by
    refine lt_of_le_of_lt (List.length_filter_le _ _) ?_
    rwa [List.length_map, Sorting.desc, List.length_mergeSort]
  obtain ⟨k, hk, hpage⟩ := exists_mem_page hlimit.1 hlisted
  obtain ⟨response, store', hok, hdata, -, -⟩ :=
    handleMessages_page hframed hkey htrail hlower.keepsBlank hparse hcompile hlimit htracks
      (fun path hpath => hclean.indexable hpath) (hk.trans hlength)
  exact ⟨k, response, by rw [hok], hdata ▸ hpage⟩

/-- **Evidence is found.**  In every state that a server reaches on a directory that was empty when
it started, with writers that store while the worker reads, take an incident.  The message that
opened it is stored, and is the first of its evidence if it has an ID.  Every reference of the
incident names one stored record and no other, which is a report about its host and interface.
Every ID is the ID of such a report; and unless the ID reads as a regular expression, a `FileStore`
on this directory that has been asked anything before answers the search for it with this message,
on one of the pages of any length. -/
theorem evidence_found (lib : QueryLib) (w : Worker) (hids : w.eng.ids.Injective)
    (hnul : '\x00' ∉ w.eng.interface.toList) (hframed : w.go.Framed) (hkey : w.go.KeyAgrees)
    (htrail : w.go.RejectsTrailing) {lower : Char → Char} (hlower : w.go.LowersBy lower)
    {s : Server} (hs : s.Reached w) {id : String} {i : Incident}
    (hi : s.world.svc.state.incidents.lookup id = some i) :
    let stored := storedRecords w.go s.world.disk
    let reports online (r : StoredRecord) :=
      r.message.reports w.eng i.hostname i.interface online = true
    (∃ r ∈ stored, reports false r ∧ r.message.receivedAt = i.startedAt ∧
      (r.message.id ≠ "" → i.evidenceIDs.head? = some r.message.id)) ∧
    (∀ ref ∈ i.evidenceRefs, ∃ r ∈ stored, r.ref = ref ∧ (∃ online, reports online r) ∧
      ∀ r' ∈ stored, r'.ref = ref → r' = r) ∧
    ∀ evidenceID ∈ i.evidenceIDs, ∃ r ∈ stored, r.message.id = evidenceID ∧
      (∃ online, reports online r) ∧
      (isExpression evidenceID = false → ∀ initial calls store,
        runCalls w.go (initial, FileStore.new) calls = (s.world.disk, store) →
        s.world.disk.Clean w.go → (storedRows w.go s.world.disk).length < 2 ^ 63 →
        ∀ limit, 1 ≤ limit ∧ limit ≤ 2000 →
          ∃ k response, (handleMessages lib w.go store s.world.disk
              (({ q := evidenceID } : MessagesRequest).page limit k)).1 = .ok response ∧
            r.message ∈ response.data) := by
  intro stored reports
  obtain ⟨before, hkept⟩ := hs.kept hframed
  obtain ⟨hconsistent, told, hdocumented, htold⟩ := hs.traced hids
  obtain ⟨-, es, hes⟩ := hdocumented.each hi
  have hinterface := (hconsistent.wellFormed hi).interface_mem
  -- what the engine has been handed is stored
  have hstored : ∀ r ∈ s.handed, r ∈ stored := by
    intro r hr
    have hread := (List.mem_filter.mp (hkept.handed.mem_iff.mp hr)).1
    exact (newRecords_trans w.go (grows_empty before) hkept.grows).mem_iff.mp
      (List.mem_append_left _ hread)
  have hrecord : ∀ e ∈ es, ∃ r ∈ stored, e.messageID = r.message.id ∧ e.sourceRef = r.ref ∧
      e.at_ = r.message.receivedAt ∧ reports e.online r := by
    intro e he
    obtain ⟨r, hr, hfacts⟩ := hes.record hnul hinterface htold he
    exact ⟨r, hstored r hr, hfacts⟩
  refine ⟨?_, fun ref href => ?_, fun evidenceID hid => ?_⟩
  · obtain ⟨first, hfirst, hoffline, hat⟩ := hes.opening
    obtain ⟨r, hr, hid, -, hreceived, hreports⟩ := hrecord first (List.mem_of_head? hfirst)
    refine ⟨r, hr, hoffline ▸ hreports, hreceived.symm.trans hat, fun hne => ?_⟩
    obtain ⟨rest, rfl⟩ : ∃ rest, es = first :: rest := by
      cases es with
      | nil => cases hfirst
      | cons e rest => exact ⟨rest, by rw [Option.some.inj hfirst]⟩
    rw [hes.ids, List.map_cons, List.foldl_cons, hid]
    refine head?_appendEvidence ?_ _
    rw [appendEvidence, if_neg hne]
    rfl
  · rw [hes.refs] at href
    obtain ⟨e, he, rfl⟩ := List.mem_map.mp
      ((mem_of_mem_appendEvidence href).resolve_left List.not_mem_nil)
    obtain ⟨r, hr, -, href, -, hreports⟩ := hrecord e he
    exact ⟨r, hr, href.symm, ⟨_, hreports⟩, fun r' hr' href' =>
      StoredRecord.eq_of_ref hr' hr (href'.trans href)⟩
  · rw [hes.ids] at hid
    obtain ⟨e, he, rfl⟩ := List.mem_map.mp
      ((mem_of_mem_appendEvidence hid).resolve_left List.not_mem_nil)
    obtain ⟨r, hr, hid, -, -, hreports⟩ := hrecord e he
    refine ⟨r, hr, hid.symm, ⟨_, hreports⟩, ?_⟩
    rw [hid]
    intro hliteral initial calls store hcalls hclean hfits limit hlimit
    have htracks := (CacheTracks.new w.go initial).runCalls hframed hkey htrail calls
    rw [hcalls] at htracks
    exact exists_page_of_id lib hframed hkey htrail hlower htracks hclean hfits hr hliteral hlimit

/-! ## A server to compute with -/

lemma ofLines_lowersBy {table : List (Message × Bytes)} :
    (GoLib.ofLines table).LowersBy Char.toLower where
  maps _ := rfl
  keeps := by decide
  spaces := isSpace_toLower

/-- The outage that the small server finds is traced to the record that it was told of. -/
theorem evidence_found_sampleServer :
    let s := sampleServer.next sampleWorker
      (.reconcile sampleReconcile 2000000000 sampleServer.world.disk)
    ∃ i, s.world.svc.state.incidents.lookup "8d4663d6450447b8" = some i ∧
      ∀ evidenceID ∈ i.evidenceIDs, ∃ r ∈ storedRecords sampleWorker.go s.world.disk,
        r.message.id = evidenceID := by
  intro s
  have hsome : (s.world.svc.state.incidents.lookup "8d4663d6450447b8").isSome = true := by
    decide +kernel
  obtain ⟨i, hi⟩ := Option.isSome_iff_exists.mp hsome
  have hgrows : Grows sampleServer.world.disk sampleServer.world.disk := Grows.refl _
  have hs : s.Reached sampleWorker := sampleServer_reached.step ⟨_, rfl, hgrows, hgrows⟩
  have hgo : sampleWorker.go = .ofLines [(wanDown.message, wanDownLine)] := rfl
  have hkey : sampleWorker.go.KeyAgrees := by rw [hgo]; exact ofLines_keyAgrees
  have htrail : sampleWorker.go.RejectsTrailing := by rw [hgo]; exact ofLines_rejectsTrailing
  have hlower : sampleWorker.go.LowersBy Char.toLower := by rw [hgo]; exact ofLines_lowersBy
  obtain ⟨-, -, hfound⟩ := evidence_found sampleQueryLib sampleWorker sampleIDs_injective
    (by decide) sampleWorker_framed hkey htrail hlower hs hi
  refine ⟨i, hi, fun evidenceID hid => ?_⟩
  obtain ⟨r, hr, hsame, -⟩ := hfound evidenceID hid
  exact ⟨r, hr, hsame⟩

end Api

end Logthing
