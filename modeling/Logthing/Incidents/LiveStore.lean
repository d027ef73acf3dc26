import Logthing.Incidents.Worker
import Logthing.Storage.Unread

/-!
# A worker over a store that is only appended to

The steps of a worker whose store is written by `Append` alone: records are appended, and the
worker reconciles and ticks, in any order.  No partition ever changes then, so that a reconcile
either fails and changes nothing, because the file system fails or a line does not decode, or reads
exactly what has not been read before, in the order of time.

**Main results.**  `Live.append`, `Live.reconcile` and `Live.tick` say what each step does to the
records that have been read and to those that have not, and to the trackers and incidents.
-/

namespace Logthing

/-! ## Steps -/

/-- A record is appended, or the worker reconciles or ticks, at the time of the clock. -/
inductive LiveStep where
  | append (now : Time) (msg : Message)
  | reconcile (env : ReconcileEnv) (now : Time)
  | tick (env : TickEnv) (now : Time)

/-- The time of the clock. -/
def LiveStep.now : LiveStep → Time
  | .append now _ => now
  | .reconcile _ now => now
  | .tick _ now => now

/-- A record is stamped with the clock at which it is appended. -/
def LiveStep.clocked : LiveStep → Prop
  | .append now msg => (stamp now msg).receivedAt = now
  | .reconcile _ _ | .tick _ _ => True

/-- The world after a step. -/
def World.live (w : Worker) (world : World) : LiveStep → World
  | .append now msg => { world with disk := (Logthing.append w.go now .none world.disk msg).1 }
  | .reconcile env now => world.step w (.reconcile env now)
  | .tick env now => world.step w (.tick env now)

/-- The world after a list of steps. -/
def World.liveRun (w : Worker) (world : World) (steps : List LiveStep) : World :=
  steps.foldl (World.live w) world

/-- An empty directory and a new engine. -/
def World.new : World := ⟨Disk.empty, {}⟩

/-- A record that is encoded and decodes again is the same evidence. -/
def GoLib.KeepsEvidence (go : GoLib) : Prop := go.Keeps fun msg stored => msg.alike stored = true

/-- The message is evidence about the interface of the host. -/
def Message.concerns (eng : Engine) (hostname interface : String) (message : Message) : Bool :=
  (classify message eng.interface).any fun e => e.hostname = hostname && e.iface = interface

/-- The message reports that the interface of the host came up, or that it went down. -/
def Message.reports (eng : Engine) (hostname interface : String) (online : Bool)
    (message : Message) : Bool :=
  (classify message eng.interface).any fun e =>
    e.hostname = hostname && e.iface = interface && !e.observeOnly && e.online = online

/-- Whatever is alike is the same evidence. -/
lemma classify_of_alike {m m' : Message} (h : m.alike m' = true) (iface : String) :
    classify m iface = classify m' iface := by
  simp only [Message.alike, Bool.and_eq_true, decide_eq_true_eq] at h
  obtain ⟨⟨⟨⟨⟨hid, hat⟩, -⟩, hhost⟩, htag⟩, htext⟩ := h
  simp only [classify, hid, hat, hhost, htag, htext]

section

variable {eng : Engine} {hostname interface : String}

lemma concerns_of_key (hnul : '\x00' ∉ eng.interface.toList) (hinterface : interface ∈ eng.interfaces)
    {o : Observation} {e : Evidence} (he : eng.evidence o = some e)
    (hkey : e.key = trackerKey hostname interface) :
    o.message.concerns eng hostname interface = true := by
  obtain ⟨-, -, hiface⟩ := evidence_eq_some he
  obtain ⟨hhost, hsame⟩ := trackerKey_inj hnul hiface hinterface hkey
  obtain ⟨e', he', rfl⟩ := Option.map_eq_some_iff.mp he
  simp only [Message.concerns, he', Option.any_some, Bool.and_eq_true, decide_eq_true_eq]
  exact ⟨hhost, hsame⟩

lemma reports_of_key (hnul : '\x00' ∉ eng.interface.toList) (hinterface : interface ∈ eng.interfaces)
    {o : Observation} {e : Evidence} (he : eng.evidence o = some e)
    (hkey : e.key = trackerKey hostname interface) (hcounts : e.observeOnly = false) :
    o.message.reports eng hostname interface e.online = true := by
  obtain ⟨-, -, hiface⟩ := evidence_eq_some he
  obtain ⟨hhost, hsame⟩ := trackerKey_inj hnul hiface hinterface hkey
  obtain ⟨e', he', rfl⟩ := Option.map_eq_some_iff.mp he
  simp only [Message.reports, he', Option.any_some, Bool.and_eq_true, decide_eq_true_eq,
    Bool.not_eq_true']
  exact ⟨⟨⟨hhost, hsame⟩, hcounts⟩, trivial⟩

lemma evidence_of_reports {online : Bool} {o : Observation}
    (h : o.message.reports eng hostname interface online = true) :
    ∃ e, eng.evidence o = some e ∧ e.key = trackerKey hostname interface ∧
      e.observeOnly = false ∧ e.online = online := by
  obtain ⟨e, he, hreports⟩ := Option.any_eq_true _ _ |>.mp h
  simp only [Bool.and_eq_true, decide_eq_true_eq, Bool.not_eq_true'] at hreports
  obtain ⟨⟨⟨hhost, hsame⟩, hcounts⟩, honline⟩ := hreports
  refine ⟨{ e with sourceRef := o.sourceRef }, ?_, ?_, hcounts, honline⟩
  · rw [Engine.evidence, he, Option.map_some]
  · rw [Evidence.key, hhost, hsame]

end

/-! ## What the worker is given -/

namespace Worker

/-- The observations a reconcile makes of what it is given. -/
def batch (w : Worker) (s : Snapshot) (visited : List StoredRecord) : List Observation :=
  observations (w.eligible s) (visited.filter w.supported)

/-- What a batch does to the trackers and incidents. -/
def batchView (w : Worker) (s : Snapshot) (visited : List StoredRecord) : View :=
  (w.batch s visited).foldl (View.take w.eng) s.view

section

variable {w : Worker} {s : Snapshot} {visited : List StoredRecord}

lemma mem_of_mem_batch {o : Observation} (h : o ∈ w.batch s visited) :
    ∃ r ∈ visited, o.message = r.message := by
  obtain ⟨r, hr, rfl⟩ := List.mem_map.mp h
  exact ⟨r, (List.mem_filter.mp ((List.mergeSort_perm _ _).mem_iff.mp hr)).1, rfl⟩

/-- Whatever is evidence is observed. -/
lemma exists_mem_batch {r : StoredRecord} (hr : r ∈ visited) (hsupported : w.supported r = true) :
    ∃ o ∈ w.batch s visited, o.message = r.message := by
  refine ⟨observation (w.eligible s) r, List.mem_map.mpr ⟨r, ?_, rfl⟩, rfl⟩
  exact (List.mergeSort_perm _ _).mem_iff.mpr (List.mem_filter.mpr ⟨hr, hsupported⟩)

/-- The records of a reconcile are in the order of time. -/
lemma pairwise_sortRecords (records : List StoredRecord) :
    (sortRecords records).Pairwise fun a b => a.message.receivedAt ≤ b.message.receivedAt := by
  have hbefore : ∀ a b : StoredRecord, (!b.before a) = true ↔
      a.message.receivedAt < b.message.receivedAt ∨
        a.message.receivedAt = b.message.receivedAt ∧
          (a.file < b.file ∨ a.file = b.file ∧ a.offset ≤ b.offset) := by
    intro a b
    rw [StoredRecord.before]
    split_ifs with htime hfile
    · simp [htime.symm, hfile.symm]
    · simp only [Bool.not_eq_true', decide_eq_false_iff_not, not_lt]
      constructor
      · exact fun hle => Or.inr ⟨htime.symm, Or.inl (lt_of_le_of_ne hle fun h => hfile h.symm)⟩
      · rintro (hlt | ⟨-, hlt | ⟨heq, -⟩⟩)
        · exact absurd htime.symm hlt.ne
        · exact hlt.le
        · exact absurd heq.symm hfile
    · simp only [Bool.not_eq_true', decide_eq_false_iff_not, not_lt]
      constructor
      · exact fun hle => Or.inl (lt_of_le_of_ne hle fun h => htime h.symm)
      · rintro (hlt | ⟨heq, -⟩)
        · exact hlt.le
        · exact heq.le
  have hsorted : (sortRecords records).Pairwise fun a b => (!b.before a) = true := by
    refine List.pairwise_mergeSort (fun a b c hab hbc => ?_) (fun a b => ?_) records
    · rw [hbefore] at hab hbc ⊢
      rcases hab with hab | ⟨hab, hab'⟩
      · rcases hbc with hbc | ⟨hbc, -⟩
        · exact Or.inl (hab.trans hbc)
        · exact Or.inl (hab.trans_eq hbc)
      · rcases hbc with hbc | ⟨hbc, hbc'⟩
        · exact Or.inl (hab.trans_lt hbc)
        refine Or.inr ⟨hab.trans hbc, ?_⟩
        rcases hab' with hab' | ⟨hab', hle⟩
        · rcases hbc' with hbc' | ⟨hbc', -⟩
          · exact Or.inl (hab'.trans hbc')
          · exact Or.inl (hab'.trans_eq hbc')
        · rcases hbc' with hbc' | ⟨hbc', hle'⟩
          · exact Or.inl (hab'.trans_lt hbc')
          · exact Or.inr ⟨hab'.trans hbc', hle.trans hle'⟩
    · rw [Bool.or_eq_true, hbefore, hbefore]
      rcases lt_trichotomy a.message.receivedAt b.message.receivedAt with h | h | h
      · exact Or.inl (Or.inl h)
      · rcases lt_trichotomy a.file b.file with hf | hf | hf
        · exact Or.inl (Or.inr ⟨h, Or.inl hf⟩)
        · rcases le_total a.offset b.offset with ho | ho
          · exact Or.inl (Or.inr ⟨h, Or.inr ⟨hf, ho⟩⟩)
          · exact Or.inr (Or.inr ⟨h.symm, Or.inr ⟨hf.symm, ho⟩⟩)
        · exact Or.inr (Or.inr ⟨h.symm, Or.inl hf⟩)
      · exact Or.inr (Or.inl h)
  refine hsorted.imp fun {a b} h => ?_
  rcases (hbefore a b).mp h with hlt | ⟨heq, -⟩
  · exact hlt.le
  · exact heq.le

lemma pairwise_batch (w : Worker) (s : Snapshot) (visited : List StoredRecord) :
    (w.batch s visited).Pairwise fun o o' => o.message.receivedAt ≤ o'.message.receivedAt :=
  List.pairwise_map.mpr (pairwise_sortRecords _)

end

end Worker

/-! ## The effect of each step -/

/-- The engine is consistent, and of the records stored it has been given `done`. -/
structure Live (w : Worker) (done unread : List StoredRecord) (world : World) : Prop where
  consistent : Consistent w.eng world.svc.state.view
  read : HasRead w.go world.disk world.svc.state.cursors done unread

/-- Timers change trackers, incidents and jobs, and nothing else. -/
lemma advance_frame (interface : String) (orders : Schedule) (now : Time) (s : Snapshot) :
    ∃ trackers incidents jobs,
      (advance interface orders now s).1 = { s with trackers, incidents, jobs } := by
  refine advance_rule (fun s' => ∃ trackers incidents jobs, s' = { s with trackers, incidents, jobs })
    (fun {s' orders key current} _ _ hP => ?_) orders s ⟨_, _, _, rfl⟩
  obtain ⟨trackers, incidents, jobs, rfl⟩ := hP
  rw [advanceOne]
  cases incidents.lookup current.incidentID with
  | none => exact ⟨_, _, _, rfl⟩
  | some incident =>
      simp only
      split_ifs
      · exact ⟨_, _, _, rfl⟩
      · exact ⟨_, _, _, rfl⟩

/-- So does evidence. -/
lemma observeAll_frame (eng : Engine) (orders : ℕ → Schedule) (os : List Observation)
    (s : Snapshot) : ∃ trackers incidents jobs,
      observeAll eng orders os s = { s with trackers, incidents, jobs } := by
  induction os generalizing orders s with
  | nil => exact ⟨_, _, _, rfl⟩
  | cons o os ih =>
      have hone : ∃ trackers incidents jobs, observeLocked eng (orders 0) o.message o.notifyEligible
          o.sourceRef s = { s with trackers, incidents, jobs } := by
        cases he : eng.evidence o with
        | none => exact ⟨_, _, _, observeLocked_of_none he⟩
        | some evidence =>
            rw [observeLocked_of_some he]
            obtain ⟨trackers, incidents, jobs, hadvance⟩ :=
              advance_frame eng.interface (orders 0) evidence.at_ s
            rw [hadvance]
            split_ifs
            · exact ⟨_, _, _, rfl⟩
            · exact ⟨_, _, _, rfl⟩
            · simp only [observeEvidence]
              split_ifs
              · exact ⟨_, _, _, rfl⟩
              · exact ⟨_, _, _, rfl⟩
      obtain ⟨trackers, incidents, jobs, hone⟩ := hone
      rw [observeAll, hone]
      obtain ⟨trackers', incidents', jobs', hrest⟩ :=
        ih (fun n => orders (n + 1)) { s with trackers, incidents, jobs }
      exact ⟨trackers', incidents', jobs', hrest⟩

lemma cursors_advance (interface : String) (orders : Schedule) (now : Time) (s : Snapshot) :
    (advance interface orders now s).1.cursors = s.cursors := by
  obtain ⟨trackers, incidents, jobs, hadvance⟩ := advance_frame interface orders now s
  rw [hadvance]

namespace Live

variable {w : Worker} {done unread : List StoredRecord} {world : World}

/-- Nothing has happened yet. -/
lemma new (hids : w.eng.ids.Injective) : Live w [] [] World.new where
  consistent := .empty hids
  read := .start w.go

/-- **An append** fails, or stores a line.  The engine has not been given its record; if there is
none, the directory cannot be read any more. -/
lemma append (h : Live w done unread world) (hframed : w.go.Framed) (hkeeps : w.go.KeepsEvidence)
    (now : Time) (msg : Message) :
    (world.live w (.append now msg) = world ∧
        (Logthing.append w.go now .none world.disk msg).2 ≠ none) ∨
      ∃ rs, (∀ r ∈ rs, (stamp now msg).alike r.message = true) ∧
        ((world.live w (.append now msg)).disk.Readable w.go → rs ≠ []) ∧
        Live w done (unread ++ rs) (world.live w (.append now msg)) ∧
        (world.live w (.append now msg)).svc = world.svc ∧
        (storedRecords w.go (world.live w (.append now msg)).disk).Perm
          (storedRecords w.go world.disk ++ rs) := by
  rcases append_stores hframed world.disk now msg with
    ⟨hsame, herr⟩ | ⟨record, happend, hline, hencode⟩
  · exact Or.inl ⟨by rw [World.live, hsame], herr⟩
  refine Or.inr ⟨appendedRecord w.go world.disk (pathFor w.go (stamp now msg)) record,
    forall_appendedRecord hkeeps hencode _ _, ?_, ⟨h.consistent, ?_⟩, rfl, ?_⟩
  · simp only [World.live, happend]
    intro hreadable
    obtain ⟨stored, hdecode⟩ :=
      hreadable.appended h.read.wellKept (isPartition_pathFor _ _) hline
    rw [appendedRecord_of_ok hdecode]
    exact List.cons_ne_nil _ _
  · simp only [World.live, happend]
    exact h.read.appended (isPartition_pathFor _ _) hline
  · simp only [World.live, happend]
    exact newRecords_appended w.go (grows_empty _) h.read.wellKept (isPartition_pathFor _ _) hline

/-- **A tick** lets timers run out. -/
lemma tick (h : Live w done unread world) (env : TickEnv) (now : Time) :
    Live w done unread (world.live w (.tick env now)) ∧
      (world.live w (.tick env now)).svc.state.view = world.svc.state.view.settle now := by
  obtain ⟨jobs, hstate, -⟩ := w.tick_state env now world.svc
  have hview : (world.live w (.tick env now)).svc.state.view
      = world.svc.state.view.settle now := by
    simp only [World.live, World.step, hstate]
    exact advance_view h.consistent env.orders
  refine ⟨⟨?_, ?_⟩, hview⟩
  · rw [hview]
    exact h.consistent.settle now
  · simp only [World.live, World.step, hstate, cursors_advance]
    exact h.read

/-- What a reconcile reads: nothing, or everything. -/
lemma worker_read (h : Live w done unread world) (env : ReconcileEnv) :
    (∃ err, w.read env world.disk world.svc.state.cursors = .error err) ∨
      world.disk.Readable w.go ∧ ∃ visited next, env.fault = none ∧ visited.Perm unread ∧
        HasRead w.go world.disk next (done ++ visited) [] ∧
        w.read env world.disk world.svc.state.cursors
          = .ok (.news (visited.filter w.supported) next) := by
  rw [Worker.read]
  cases hfault : env.fault with
  | some cause => exact Or.inl ⟨cause, rfl⟩
  | none =>
      rcases h.read.visit env.order with
        ⟨key, at_, cause, hvisit⟩ | ⟨hreadable, visited, next, hvisit, hperm, hread⟩
      · exact Or.inl ⟨_, by simp only [hvisit]; rfl⟩
      · exact Or.inr ⟨hreadable, visited, next, rfl, hperm, hread, by simp only [hvisit]⟩

/-- What a reconcile derives from what it has read. -/
lemma derive (h : Live w done unread world) (env : ReconcileEnv) (now : Time)
    {visited : List StoredRecord} {next : Dict String Cursor}
    (hread : HasRead w.go world.disk next (done ++ visited) []) :
    Live w (done ++ visited) []
        ⟨world.disk, (w.derive env now world.svc (.news (visited.filter w.supported) next)).1⟩ ∧
      (w.derive env now world.svc (.news (visited.filter w.supported) next)).1.state.view
        = w.batchView world.svc.state visited := by
  rw [Worker.derive, Service.apply_state]
  obtain ⟨hview, hcons⟩ :=
    view_observeAll env.orders (w.batch world.svc.state visited) h.consistent
  refine ⟨⟨?_, ?_⟩, hview⟩
  · rw [Service.apply_state]
    exact hcons
  · rw [Service.apply_state]
    exact hread

/-- **A reconcile** fails before it has read everything, or is given everything that is new; and if
it succeeds, it ticks then. -/
lemma reconcile (h : Live w done unread world) (env : ReconcileEnv) (now : Time) :
    (world.live w (.reconcile env now) = world ∧
        (w.reconcile env world.disk now world.svc).2 ≠ none) ∨
      world.disk.Readable w.go ∧ ∃ visited, env.fault = none ∧ visited.Perm unread ∧
        Live w (done ++ visited) [] (world.live w (.reconcile env now)) ∧
        ((world.live w (.reconcile env now)).svc.state.view = w.batchView world.svc.state visited ∧
            (w.reconcile env world.disk now world.svc).2 ≠ none ∨
          (world.live w (.reconcile env now)).svc.state.view
            = (w.batchView world.svc.state visited).settle now) := by
  rcases h.worker_read env with ⟨err, hworker⟩ | ⟨hreadable, visited, next, hfault, hperm, hread, hworker⟩
  · have hreconcile : w.reconcile env world.disk now world.svc
        = (world.svc, some ("reconcile incidents: " ++ err)) := by
      rw [Worker.reconcile, hworker]
    refine Or.inl ⟨?_, ?_⟩
    · rw [World.live, World.step, hreconcile]
    · rw [hreconcile]
      exact Option.some_ne_none _
  obtain ⟨hderived, hview⟩ := h.derive env now hread
  refine Or.inr ⟨hreadable, visited, hfault, hperm, ?_⟩
  simp only [World.live, World.step, Worker.reconcile, hworker]
  generalize w.derive env now world.svc (.news (visited.filter w.supported) next) = derived
    at hderived hview
  obtain ⟨derived, err⟩ := derived
  cases err with
  | some err => exact ⟨hderived, Or.inl ⟨hview, Option.some_ne_none _⟩⟩
  | none =>
      obtain ⟨hticked, hsettled⟩ := hderived.tick env.tick now
      refine ⟨hticked, Or.inr ?_⟩
      rw [← hview]
      exact hsettled

/-- **Every step** leaves a world of this kind, in which what was stored is stored. -/
lemma step (h : Live w done unread world) (hframed : w.go.Framed) (hkeeps : w.go.KeepsEvidence)
    (step : LiveStep) :
    (∃ done' unread', Live w done' unread' (world.live w step)) ∧
      ∀ r ∈ storedRecords w.go world.disk, r ∈ storedRecords w.go (world.live w step).disk := by
  cases step with
  | append now msg =>
      rcases h.append hframed hkeeps now msg with ⟨hsame, -⟩ | ⟨rs, -, -, hafter, -, hstored⟩
      · rw [hsame]
        exact ⟨⟨done, unread, h⟩, fun r hr => hr⟩
      · exact ⟨⟨done, _, hafter⟩, fun r' hr' =>
          hstored.mem_iff.mpr (List.mem_append_left _ hr')⟩
  | tick env now => exact ⟨⟨done, unread, (h.tick env now).1⟩, fun r hr => hr⟩
  | reconcile env now =>
      refine ⟨?_, fun r hr => hr⟩
      rcases h.reconcile env now with ⟨hsame, -⟩ | ⟨-, visited, -, -, hafter, -⟩
      · rw [hsame]
        exact ⟨done, unread, h⟩
      · exact ⟨_, [], hafter⟩

end Live

lemma liveRun_append (w : Worker) (world : World) (steps steps' : List LiveStep) :
    world.liveRun w (steps ++ steps') = (world.liveRun w steps).liveRun w steps' :=
  List.foldl_append

lemma liveRun_concat (w : Worker) (world : World) (steps : List LiveStep) (step : LiveStep) :
    world.liveRun w (steps ++ [step]) = (world.liveRun w steps).live w step := by
  rw [liveRun_append]
  rfl

/-- A store only grows. -/
lemma grows_live {w : Worker} (hframed : w.go.Framed) (world : World) (step : LiveStep) :
    Grows world.disk (world.live w step).disk := by
  cases step with
  | append now msg =>
      rcases append_stores hframed world.disk now msg with ⟨hsame, -⟩ | ⟨record, happend, -⟩
      · simp only [World.live, hsame]
        exact Grows.refl _
      · simp only [World.live, happend]
        exact grows_appended _ _ _ _
  | tick env now => exact Grows.refl _
  | reconcile env now => exact Grows.refl _

lemma grows_liveRun {w : Worker} (hframed : w.go.Framed) (world : World) (steps : List LiveStep) :
    Grows world.disk (world.liveRun w steps).disk := by
  induction steps using List.reverseRecOn with
  | nil => exact Grows.refl _
  | append_singleton steps step ih =>
      rw [liveRun_concat]
      exact ih.trans (grows_live hframed _ step)

/-- The run lemma. -/
lemma Live.run {w : Worker} (hids : w.eng.ids.Injective) (hframed : w.go.Framed)
    (hkeeps : w.go.KeepsEvidence) (steps : List LiveStep) :
    ∃ done unread, Live w done unread (World.new.liveRun w steps) := by
  induction steps using List.reverseRecOn with
  | nil => exact ⟨[], [], .new hids⟩
  | append_singleton steps step ih =>
      obtain ⟨done, unread, hlive⟩ := ih
      rw [liveRun_concat]
      exact (hlive.step hframed hkeeps step).1

/-! ## Libraries to compute with -/

lemma ofLines_keepsEvidence {table : List (Message × Bytes)} (h : (table.map Prod.snd).Nodup) :
    (GoLib.ofLines table).KeepsEvidence := by
  intro msg record stored hencode hdecode
  simp only [GoLib.ofLines] at hencode
  split at hencode
  swap
  · cases hencode
  rename_i entry hfind
  have hmem := List.mem_of_find?_eq_some hfind
  have halike : entry.1.alike msg = true := by simpa using List.find?_some hfind
  have hline : (GoLib.ofLines table).decode record = .ok entry.1 := by
    -- the line is found where it was written
    rw [← Except.ok.inj hencode]
    simp only [GoLib.ofLines]
    cases hline : table.find? fun e => e.2 ++ [newline] = entry.2 ++ [newline] with
    | none =>
        have hnone := List.find?_eq_none.mp hline entry hmem
        simp at hnone
    | some found =>
        have hfound := List.find?_some hline
        simp only [decide_eq_true_eq, List.append_cancel_right_eq] at hfound
        rw [List.inj_on_of_nodup_map h (List.mem_of_find?_eq_some hline) hmem hfound]
  rw [← Except.ok.inj (hline.symm.trans hdecode)]
  simp only [Message.alike, Bool.and_eq_true, decide_eq_true_eq] at halike ⊢
  obtain ⟨⟨⟨⟨⟨hid, hat⟩, htransport⟩, hhost⟩, htag⟩, htext⟩ := halike
  exact ⟨⟨⟨⟨⟨hid.symm, hat.symm⟩, htransport.symm⟩, hhost.symm⟩, htag.symm⟩, htext.symm⟩

lemma sampleWorker_framed : sampleWorker.go.Framed := by
  have hgo : sampleWorker.go = .ofLines [(wanDown.message, wanDownLine)] := rfl
  rw [hgo]
  exact ofLines_framed (by decide +kernel)

lemma sampleWorker_keepsEvidence : sampleWorker.go.KeepsEvidence := by
  have hgo : sampleWorker.go = .ofLines [(wanDown.message, wanDownLine)] := rfl
  rw [hgo]
  exact ofLines_keepsEvidence (List.nodup_singleton _)

end Logthing
