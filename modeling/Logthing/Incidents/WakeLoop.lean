import Logthing.Incidents.LiveStore

/-!
# Waking the worker

`PublishingStore.Append` stores a message and publishes it then, which wakes the worker through a
channel that holds one token and drops the others.  The worker's loop waits for a token or for its
timers.  Writers do not wait for a reconcile that is reading: it opens one partition after another,
and reads of each what it holds by then.

A `Server` is the store, the engine, the channel and the points at which the loop and the writers
are.  Its steps are atomic sections, in any order that these points allow.

**Main results.**  `wake_up_not_lost`: whatever the interleaving, the engine has been handed each
record once at most, no reading fails of itself, and while there are records that the engine has not
been handed a writer is about to wake the worker, or there is a token, or a reconcile has begun and
has still to read, or the last reading failed.
-/

namespace Logthing

/-! ## The process -/

/-- Where `Worker.Run` is: at its `select`, which the first reconcile comes before, in a reconcile
that began at this directory and is reading, or in one that has read. -/
inductive LoopPhase where
  | reading (began : Disk)
  | finishing
  | selecting
  | stopped

/-- The server: `wake` tells whether the channel of the worker holds a token, `publishing` counts
the calls of `PublishingStore.Append` that have stored their message and have still to wake the
worker, `failed` whether the last reading failed, and `handed` what the engine has been handed. -/
structure Server where
  world : World := .new
  wake : Bool := false
  publishing : ℕ := 0
  phase : LoopPhase := .reading Disk.empty
  failed : Bool := false
  handed : List StoredRecord := []

/-- The atomic sections of the writers and of the worker.  The one of a reconcile is taken when it
has read the last partition; `seen` is what it has read. -/
inductive ServerStep where
  | append (now : Time) (msg : Message)
  | publish
  | wake
  | timer
  | reconcile (env : ReconcileEnv) (now : Time) (seen : Disk)
  | next
  | tick (env : TickEnv) (now : Time)
  | stop

/-- What a step waits for.  What a reconcile has read of a partition is what the partition held at
some moment since the reconcile began, up to any byte of a record that was being written. -/
def Server.Enabled (s : Server) : ServerStep → Prop
  | .append _ _ => True
  | .publish => 0 < s.publishing
  | .wake => s.phase = .selecting ∧ s.wake = true
  | .timer => s.phase = .selecting
  | .reconcile _ _ seen => ∃ began, s.phase = .reading began ∧ Grows began seen ∧
      Grows seen s.world.disk
  | .next => s.phase = .finishing
  | .tick _ _ => s.phase = .selecting
  | .stop => s.phase = .selecting

/-- The records that a reading hands to the engine. -/
def Reading.records : Reading → List StoredRecord
  | .news records _ => records
  | .anew _ records _ => records

/-- A step. -/
def Server.next (w : Worker) (s : Server) : ServerStep → Server
  | .append now msg =>
      match Logthing.append w.go now .none s.world.disk msg with
      | (disk, none) => { s with world := { s.world with disk }, publishing := s.publishing + 1 }
      | (disk, some _) => { s with world := { s.world with disk } }
  | .publish => { s with wake := true, publishing := s.publishing - 1 }
  | .wake => { s with wake := false, phase := .reading s.world.disk }
  | .timer => { s with phase := .reading s.world.disk }
  | .reconcile env now seen =>
      let reading := w.read env seen s.world.svc.state.cursors
      { s with
        world.svc := (w.reconcile env seen now s.world.svc).1
        phase := .finishing
        failed := reading.toOption.isNone
        handed := s.handed ++ (reading.toOption.map Reading.records).getD [] }
  | .next => { s with phase := .selecting }
  | .tick env now => { s with world.svc := (w.tick env now s.world.svc).1 }
  | .stop => { s with phase := .stopped }

/-- The states of a server that starts on an empty directory. -/
inductive Server.Reached (w : Worker) : Server → Prop
  | start : Reached w {}
  | step {s : Server} (h : Reached w s) {step : ServerStep} (henabled : s.Enabled step) :
      Reached w (s.next w step)

/-! ## Cursors -/

namespace Worker

variable {w : Worker} {before seen : Disk}

/-- A tick leaves the cursors alone. -/
lemma cursors_tick (w : Worker) (env : TickEnv) (now : Time) (svc : Service) :
    (w.tick env now svc).1.state.cursors = svc.state.cursors := by
  obtain ⟨jobs, hstate, -⟩ := w.tick_state env now svc
  rw [hstate]
  exact cursors_advance _ _ _ _

/-- **A reading** of a directory that has grown: it fails if the file system does or a line does not
decode, and otherwise returns what is new. -/
lemma read_of_grows (w : Worker) (env : ReconcileEnv) {cursors : Dict String Cursor}
    (hat : AtEnd w.go before cursors) (hgrow : Grows before seen) :
    (∃ err, w.read env seen cursors = .error err) ∧ (env.fault ≠ none ∨ ¬ seen.Readable w.go) ∨
      ∃ next, AtEnd w.go seen next ∧ w.read env seen cursors
        = .ok (.news ((newRecords w.go before seen).filter w.supported) next) := by
  rw [Worker.read]
  cases hfault : env.fault with
  | some cause => exact Or.inl ⟨⟨cause, rfl⟩, Or.inl (Option.some_ne_none _)⟩
  | none =>
      rcases visitAfter_cases w.go env.order hat hgrow with
        ⟨-, next, hvisit, hnext⟩ | ⟨hnot, key, at_, cause, hvisit⟩
      · exact Or.inr ⟨next, hnext, by simp only [hvisit]⟩
      · refine Or.inl ⟨⟨_, by simp only [hvisit]; rfl⟩, Or.inr fun hreadable => hnot ?_⟩
        exact fun key hkey => (hreadable key hkey).newLines (hgrow.data_prefix key)

/-- A reconcile takes over the cursors of its reading. -/
lemma cursors_reconcile {env : ReconcileEnv} (now : Time) {svc : Service}
    {records : List StoredRecord} {next : Dict String Cursor}
    (hread : w.read env seen svc.state.cursors = .ok (.news records next)) :
    (w.reconcile env seen now svc).1.state.cursors = next := by
  have hderived : (w.derive env now svc (.news records next)).1.state.cursors = next := by
    rw [Worker.derive, Service.apply_state]
  simp only [Worker.reconcile, hread]
  generalize w.derive env now svc (.news records next) = derived at hderived ⊢
  obtain ⟨derived, err⟩ := derived
  cases err with
  | some err => exact hderived
  | none => exact (w.cursors_tick env.tick now derived).trans hderived

end Worker

/-! ## What is not lost -/

/-- The worker has been woken, or a writer is about to. -/
def Server.Signalled (s : Server) : Prop := 0 < s.publishing ∨ s.wake = true

/-- The engine has been handed the records of this directory, and the worker is going to know of
what came later. -/
structure Server.Kept (w : Worker) (s : Server) (before : Disk) : Prop where
  atEnd : AtEnd w.go before s.world.svc.state.cursors
  grows : Grows before s.world.disk
  handed : s.handed.Perm ((storedRecords w.go before).filter w.supported)
  reading : ∀ began, s.phase = .reading began → Grows before began ∧ Grows began s.world.disk ∧
    (newRecords w.go began s.world.disk = [] ∨ s.Signalled)
  promised : newRecords w.go before s.world.disk = [] ∨ s.Signalled ∨
    (∃ began, s.phase = .reading began) ∨ s.failed = true

/-- Nothing is new in a directory that has not changed. -/
lemma newRecords_self (go : GoLib) (disk : Disk) : newRecords go disk disk = [] := by
  have hperm := newRecords_trans go (Grows.refl disk) (Grows.refl disk)
  have hlength := hperm.length_eq
  rw [List.length_append] at hlength
  exact List.eq_nil_of_length_eq_zero (by omega)

namespace Server.Kept

variable {w : Worker} {s : Server} {before : Disk}

/-- Nothing has been stored or read. -/
lemma start (w : Worker) : Kept w {} Disk.empty where
  atEnd := atEnd_empty w.go
  grows := Grows.refl _
  handed := by rw [storedRecords, newRecords_self]; exact .refl _
  reading := by
    rintro began ⟨⟩
    exact ⟨Grows.refl _, Grows.refl _, Or.inl (newRecords_self _ _)⟩
  promised := Or.inl (newRecords_self _ _)

/-- **An append** adds a record, which its writer is going to publish. -/
lemma append (h : s.Kept w before) (hframed : w.go.Framed) (now : Time) (msg : Message) :
    (s.next w (.append now msg)).Kept w before := by
  rcases append_stores hframed s.world.disk now msg with ⟨hsame, herr⟩ | ⟨record, happend, -⟩
  · have hunchanged : s.next w (.append now msg) = s := by
      rw [Server.next]
      generalize Logthing.append w.go now .none s.world.disk msg = appended at hsame herr
      obtain ⟨disk, err⟩ := appended
      cases err with
      | none => exact absurd rfl herr
      | some err =>
          simp only at hsame
          rw [hsame]
    rwa [hunchanged]
  · have hgrow := grows_appended s.world.disk now (pathFor w.go (stamp now msg)) record
    have hsignalled : Signalled { s with
        world.disk := s.world.disk.appended now (pathFor w.go (stamp now msg)) record
        publishing := s.publishing + 1 } := Or.inl (Nat.succ_pos _)
    rw [Server.next, happend]
    exact ⟨h.atEnd, h.grows.trans hgrow, h.handed,
      fun began hbegan => ⟨(h.reading began hbegan).1, (h.reading began hbegan).2.1.trans hgrow,
        Or.inr hsignalled⟩, Or.inr (Or.inl hsignalled)⟩

/-- **A reconcile begins**: it is going to read whatever there is. -/
lemma begin (h : s.Kept w before) (wake : Bool) :
    Kept w { s with wake, phase := .reading s.world.disk } before where
  atEnd := h.atEnd
  grows := h.grows
  handed := h.handed
  reading := by
    rintro began ⟨⟩
    exact ⟨h.grows, Grows.refl _, Or.inl (newRecords_self _ _)⟩
  promised := Or.inr (Or.inr (Or.inl ⟨_, rfl⟩))

/-- **A reconcile has read**: it fails and changes nothing, or hands the engine what it has seen,
and of what it has not seen the worker is going to know. -/
lemma reconcile (h : s.Kept w before) (env : ReconcileEnv) (now : Time) {began seen : Disk}
    (hphase : s.phase = .reading began) (hbegan : Grows began seen)
    (hseen : Grows seen s.world.disk) :
    ((env.fault ≠ none ∨ ¬ seen.Readable w.go) ∧
        (s.next w (.reconcile env now seen)).failed = true ∧
        (s.next w (.reconcile env now seen)).Kept w before) ∨
      (s.next w (.reconcile env now seen)).failed = false ∧
        (s.next w (.reconcile env now seen)).Kept w seen := by
  obtain ⟨hbefore, -, hnew⟩ := h.reading began hphase
  have hgrow := hbefore.trans hbegan
  rcases w.read_of_grows env h.atEnd hgrow with ⟨⟨err, hread⟩, hwhy⟩ | ⟨next, hnext, hread⟩
  · have hsvc : (w.reconcile env seen now s.world.svc).1 = s.world.svc := by
      rw [Worker.reconcile, hread]
    refine Or.inl ⟨hwhy, ?_, ?_⟩
    · simp only [Server.next, hread, Except.toOption, Option.isNone_none]
    · simp only [Server.next, hread, hsvc, Except.toOption, Option.isNone_none, Option.map_none,
        Option.getD_none, List.append_nil]
      exact ⟨h.atEnd, h.grows, h.handed, fun _ h => LoopPhase.noConfusion h,
        Or.inr (Or.inr (Or.inr rfl))⟩
  · have hcursors := Worker.cursors_reconcile now hread
    refine Or.inr ⟨by simp only [Server.next, hread, Except.toOption, Option.isNone_some], ?_⟩
    simp only [Server.next, hread, Except.toOption, Option.isNone_some, Option.map_some,
      Option.getD_some, Reading.records]
    refine ⟨?_, hseen, ?_, fun _ h => LoopPhase.noConfusion h, ?_⟩
    · exact hcursors ▸ hnext
    · have hall := newRecords_trans w.go (grows_empty before) hgrow
      have hfilter := hall.filter w.supported
      rw [List.filter_append] at hfilter
      exact (h.handed.append_right _).trans hfilter
    · refine hnew.imp (fun hnil => ?_) Or.inl
      have hall := newRecords_trans w.go hbegan hseen
      rw [hnil] at hall
      exact (List.append_eq_nil_iff.mp hall.eq_nil).2

end Server.Kept

/-- **Every step**. -/
lemma Server.Kept.step {w : Worker} {s : Server} {before : Disk} (h : s.Kept w before)
    (hframed : w.go.Framed) {step : ServerStep} (henabled : s.Enabled step) : ∃ before, (s.next w step).Kept w before := by
  cases step with
  | append now msg => exact ⟨before, h.append hframed now msg⟩
  | publish =>
      have hsignalled : Server.Signalled { s with wake := true, publishing := s.publishing - 1 } :=
        Or.inr rfl
      exact ⟨before, h.atEnd, h.grows, h.handed, fun began hbegan =>
        ⟨(h.reading began hbegan).1, (h.reading began hbegan).2.1, Or.inr hsignalled⟩,
        Or.inr (Or.inl hsignalled)⟩
  | wake => exact ⟨before, h.begin false⟩
  | timer => exact ⟨before, h.begin s.wake⟩
  | reconcile env now seen =>
      obtain ⟨began, hphase, hbegan, hseen⟩ := henabled
      rcases h.reconcile env now hphase hbegan hseen with ⟨-, -, hkept⟩ | ⟨-, hkept⟩
      · exact ⟨before, hkept⟩
      · exact ⟨seen, hkept⟩
  | next =>
      have hphase : s.phase = .finishing := henabled
      refine ⟨before, h.atEnd, h.grows, h.handed, fun _ h => LoopPhase.noConfusion h, ?_⟩
      exact h.promised.imp_right (Or.imp_right fun hlater => Or.inr (hlater.resolve_left
        fun ⟨began, hbegan⟩ => by rw [hphase] at hbegan; cases hbegan))
  | tick env now =>
      refine ⟨before, ?_, h.grows, h.handed, h.reading, h.promised⟩
      rw [Server.next, Worker.cursors_tick]
      exact h.atEnd
  | stop =>
      have hphase : s.phase = .selecting := henabled
      refine ⟨before, h.atEnd, h.grows, h.handed, fun _ h => LoopPhase.noConfusion h, ?_⟩
      exact h.promised.imp_right (Or.imp_right fun hlater => Or.inr (hlater.resolve_left
        fun ⟨began, hbegan⟩ => by rw [hphase] at hbegan; cases hbegan))

/-- The run lemma. -/
lemma Server.Reached.kept {w : Worker} {s : Server} (h : s.Reached w) (hframed : w.go.Framed) :
    ∃ before, s.Kept w before := by
  induction h with
  | start => exact ⟨_, .start w⟩
  | step _ henabled ih =>
      obtain ⟨before, hkept⟩ := ih
      exact hkept.step hframed henabled

/-- **No wake-up is lost.**  In every state that a server reaches on a directory that was empty when
it started, with writers that store and wake while the worker reads: of the records stored that are
evidence the engine has been handed none twice, and if there are some that it has not been handed,
then a writer is about to wake the worker, or the channel holds a token, or a reconcile is reading,
or the last reading failed.  A reading fails only if the file system makes it or a line that is
stored does not decode; otherwise the engine has been handed then what was stored when the reconcile
began. -/
theorem wake_up_not_lost (w : Worker) (hframed : w.go.Framed) {s : Server} (h : s.Reached w) :
    (∃ rest, (s.handed ++ rest).Perm ((storedRecords w.go s.world.disk).filter w.supported) ∧
      (rest = [] ∨ 0 < s.publishing ∨ s.wake = true ∨ (∃ began, s.phase = .reading began) ∨
        s.failed = true)) ∧
    ∀ env now began seen, s.phase = .reading began → s.Enabled (.reconcile env now seen) →
      let read := s.next w (.reconcile env now seen)
      (read.failed = true → env.fault ≠ none ∨ ¬ s.world.disk.Readable w.go) ∧
        (read.failed = false → ∀ r ∈ storedRecords w.go began, w.supported r = true →
          r ∈ read.handed) := by
  obtain ⟨before, hkept⟩ := h.kept hframed
  constructor
  · refine ⟨(newRecords w.go before s.world.disk).filter w.supported, ?_, ?_⟩
    · have hall := newRecords_trans w.go (grows_empty before) hkept.grows
      have hfilter := hall.filter w.supported
      rw [List.filter_append] at hfilter
      exact (hkept.handed.append_right _).trans hfilter
    · rcases hkept.promised with hnil | hsignalled | hlater
      · exact Or.inl (by rw [hnil, List.filter_nil])
      · exact Or.inr (hsignalled.imp_right Or.inl)
      · exact Or.inr (Or.inr (Or.inr hlater))
  · intro env now began seen hphase henabled read
    obtain ⟨began', hphase', hbegan, hseen⟩ := henabled
    obtain rfl := LoopPhase.reading.inj (hphase.symm.trans hphase')
    rcases hkept.reconcile env now hphase hbegan hseen with ⟨hwhy, hfailed, -⟩ | ⟨hok, hkept⟩
    · refine ⟨fun _ => hwhy.imp_right fun hnot h => hnot (h.of_grows hseen), fun hok => ?_⟩
      rw [hfailed] at hok
      cases hok
    · refine ⟨fun hfailed => ?_, fun _ r hr hsupported => ?_⟩
      · rw [hok] at hfailed
        cases hfailed
      have hall := newRecords_trans w.go (grows_empty began) hbegan
      have hmem := hall.mem_iff.mp (List.mem_append_left _ hr)
      exact hkept.handed.mem_iff.mpr (List.mem_filter.mpr ⟨hmem, hsupported⟩)

lemma Server.phase_append (w : Worker) (s : Server) (now : Time) (msg : Message) :
    (s.next w (.append now msg)).phase = s.phase := by
  rw [Server.next]
  split <;> rfl

/-- The first reconcile finds nothing; a message is stored then, and the worker's timer fires before
its writer wakes it. -/
def sampleServer : Server :=
  (((({} : Server).next sampleWorker (.reconcile sampleReconcile 0 Disk.empty)).next sampleWorker
    .next).next sampleWorker (.append 1000000000 wanDown.message)).next sampleWorker .timer

lemma sampleServer_reached : sampleServer.Reached sampleWorker := by
  have hread : ({} : Server).Enabled (.reconcile sampleReconcile 0 Disk.empty) :=
    ⟨Disk.empty, rfl, Grows.refl _, Grows.refl _⟩
  have hfinishing : (({} : Server).next sampleWorker
      (.reconcile sampleReconcile 0 Disk.empty)).Enabled .next := rfl
  have hselecting := (Server.Reached.step .start hread).step hfinishing
  have hstored := hselecting.step
    (show Server.Enabled _ (.append 1000000000 wanDown.message) from trivial)
  exact hstored.step (show Server.Enabled _ .timer from Server.phase_append _ _ _ _)

theorem wake_up_not_lost_sampleServer :
    let read := sampleServer.next sampleWorker
      (.reconcile sampleReconcile 2000000000 sampleServer.world.disk)
    read.failed = false ∧ ∀ r ∈ storedRecords sampleWorker.go sampleServer.world.disk,
      sampleWorker.supported r = true → r ∈ read.handed := by
  intro read
  have hgrows : Grows sampleServer.world.disk sampleServer.world.disk := Grows.refl _
  obtain ⟨hwhy, hhanded⟩ := (wake_up_not_lost sampleWorker sampleWorker_framed
    sampleServer_reached).2 sampleReconcile 2000000000 sampleServer.world.disk
    sampleServer.world.disk rfl ⟨_, rfl, hgrows, hgrows⟩
  have hreadable : sampleServer.world.disk.Readable sampleWorker.go :=
    Disk.readable_iff.mpr (by decide +kernel)
  have hok : read.failed = false := by
    cases hfailed : read.failed with
    | false => rfl
    | true => exact ((hwhy hfailed).elim (fun hfault => hfault rfl) fun hnot => hnot hreadable).elim
  exact ⟨hok, hhanded hok⟩

end Logthing
