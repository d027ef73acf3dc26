import Logthing.Incidents.Service
import Logthing.Storage.RecordTable
import Mathlib.Order.Lattice.Nat

/-!
# The state file

`FilePersistence` writes a snapshot to a temporary file and renames that onto the state file.
Every system call may fail, and the process may stop before any of them; `SaveFaults` is what the
environment does to one `Save`.

**Main results.**  `save_atomic_iff`: the state file holds the old snapshot or the new one after
every ending of `Save`, unless `replaceFile` has removed it and does not get to rename again.
-/

namespace Logthing

/-! ## Files -/

/-- The files of the state directory and what they hold. -/
abbrev Directory := Dict String Bytes

/-- `os.Rename` of a file that is there: all or nothing. -/
def renameFile (dir : Directory) (source target : String) : Directory :=
  match dir.lookup source with
  | none => dir
  | some data => (dir.erase source).insert target data

/-- `encoding/json` on snapshots. -/
structure SnapshotCodec where
  /-- `json.MarshalIndent(state, "", "  ")`. -/
  marshal : Snapshot → Except String Bytes
  /-- `json.Unmarshal(data, &state)`. -/
  unmarshal : Bytes → Except String Snapshot

/-- What was encoded, with a line feed after it, decodes again. -/
def SnapshotCodec.RoundTrips (codec : SnapshotCodec) : Prop :=
  ∀ s data, codec.marshal s = .ok data → codec.unmarshal (data ++ [newline]) = .ok s

/-! ## `Load` -/

/-- `FilePersistence.Load`, where reading succeeds: without a file the state is empty. -/
def load (codec : SnapshotCodec) (path : String) (dir : Directory) : Except String Snapshot :=
  match dir.lookup path with
  | none => .ok { version := 0 }
  | some data =>
      match codec.unmarshal data with
      | .ok s => .ok s
      | .error cause => .error ("decode incident state: " ++ cause)

/-! ## `Save` -/

/-- What becomes of a step: it is done, it fails, or the process stops before it. -/
inductive StepOutcome where
  | ok
  | error (cause : String)
  | stop
  deriving DecidableEq

/-- What the environment does to the steps of a `Save`. -/
structure SaveFaults where
  cancelled : Option String := none
  mkdir : StepOutcome := .ok
  createTemp : StepOutcome := .ok
  /-- The name `os.CreateTemp` finds free. -/
  temporary : Directory → String
  fresh : ∀ dir, temporary dir ∉ dir
  chmod : StepOutcome := .ok
  write : StepOutcome := .ok
  /-- How much of the data a write leaves that is not done. -/
  written : ℕ := 0
  sync : StepOutcome := .ok
  close : StepOutcome := .ok
  rename : StepOutcome := .ok
  /-- `os.Remove` of the target; that it does not exist counts as done. -/
  remove : StepOutcome := .ok
  renameAgain : StepOutcome := .ok
  /-- `os.Remove` of the temporary file, which is deferred. -/
  cleanup : StepOutcome := .ok

/-- How `Save` ends: it returns, with an error or without, or the process stops. -/
inductive Ending where
  | returned (err : Option String)
  | stopped
  deriving DecidableEq

/-- A step that is in the way of the rest. -/
def attempt (outcome : StepOutcome) (what : String) (dir : Directory) (rest : Directory × Ending) :
    Directory × Ending :=
  match outcome with
  | .ok => rest
  | .error cause => (dir, .returned (some (what ++ cause)))
  | .stop => (dir, .stopped)

/-- `replaceFile`. -/
def replaceFile (faults : SaveFaults) (source target : String) (dir : Directory) :
    Directory × Ending :=
  match faults.rename with
  | .ok => (renameFile dir source target, .returned none)
  | .stop => (dir, .stopped)
  | .error _ =>
      attempt faults.remove "" dir <|
        attempt faults.renameAgain "" (dir.erase target)
          (renameFile (dir.erase target) source target, .returned none)

/-- `defer os.Remove(temporaryPath)`. -/
def withCleanup (faults : SaveFaults) (temporary : String) (result : Directory × Ending) :
    Directory × Ending :=
  match result.2, faults.cleanup with
  | .returned err, .ok => (result.1.erase temporary, .returned err)
  | .returned err, .error _ => (result.1, .returned err)
  | .returned _, .stop => (result.1, .stopped)
  | .stopped, _ => (result.1, .stopped)

/-- What `Save` says of an error of `replaceFile`. -/
def Ending.replacing : Ending → Ending
  | .returned (some cause) => .returned (some ("replace incident state: " ++ cause))
  | ending => ending

/-- `Save` from the temporary file on. -/
def saveThrough (faults : SaveFaults) (path temporary : String) (data : Bytes) (dir : Directory) :
    Directory × Ending :=
  let created := dir.insert temporary []
  let filled := dir.insert temporary data
  withCleanup faults temporary <|
    attempt faults.chmod "secure temporary incident state: " created <|
    attempt faults.write "write temporary incident state: "
      (dir.insert temporary (data.take faults.written)) <|
    attempt faults.sync "sync temporary incident state: " filled <|
    attempt faults.close "close temporary incident state: " filled <|
    let replaced := replaceFile faults temporary path filled
    (replaced.1, replaced.2.replacing)

/-- `FilePersistence.Save`. -/
def save (codec : SnapshotCodec) (faults : SaveFaults) (path : String) (s : Snapshot)
    (dir : Directory) : Directory × Ending :=
  match faults.cancelled with
  | some cause => (dir, .returned (some cause))
  | none =>
      attempt faults.mkdir "create incident state directory: " dir <|
        match codec.marshal s with
        | .error cause => (dir, .returned (some ("encode incident state: " ++ cause)))
        | .ok data =>
            attempt faults.createTemp "create temporary incident state: " dir <|
              saveThrough faults path (faults.temporary dir) (data ++ [newline]) dir

/-! ## What is lost -/

/-- `Save` comes to `replaceFile`. -/
def SaveFaults.Reaches (faults : SaveFaults) (codec : SnapshotCodec) (s : Snapshot) : Prop :=
  faults.cancelled = none ∧ faults.mkdir = .ok ∧ (∃ data, codec.marshal s = .ok data) ∧
    faults.createTemp = .ok ∧ faults.chmod = .ok ∧ faults.write = .ok ∧ faults.sync = .ok ∧
    faults.close = .ok

/-- `replaceFile` removes the target, and does not rename after that. -/
def SaveFaults.Drops (faults : SaveFaults) : Prop :=
  (∃ cause, faults.rename = .error cause) ∧ faults.remove = .ok ∧ faults.renameAgain ≠ .ok

section

variable {faults : SaveFaults} {path temporary : String} {dir : Directory} {data : Bytes}

lemma lookup_renameFile {source target : String} (h : dir.lookup source = some data) :
    (renameFile dir source target).lookup target = some data := by
  rw [renameFile, h]
  exact Finmap.lookup_insert _

/-- **A file that is dropped is gone.** -/
lemma replaceFile_of_drops (hdrops : faults.Drops) :
    (replaceFile faults temporary path dir).1.lookup path = none ∧
      (replaceFile faults temporary path dir).2 ≠ .returned none := by
  obtain ⟨⟨cause, hrename⟩, hremove, hagain⟩ := hdrops
  simp only [replaceFile, hrename, hremove, attempt]
  cases hfinal : faults.renameAgain with
  | ok => exact absurd hfinal hagain
  | error cause => exact ⟨Finmap.lookup_erase _ _, by simp⟩
  | stop => exact ⟨Finmap.lookup_erase _ _, by simp⟩

/-- **A file that is not dropped** is the old one or the new one, and the new one if there is no
error. -/
lemma replaceFile_of_not_drops (hdrops : ¬ faults.Drops) (hne : path ≠ temporary)
    (htemporary : dir.lookup temporary = some data) :
    let result := replaceFile faults temporary path dir
    result.1.lookup path = some data ∨
      (result.1.lookup path = dir.lookup path ∧ result.2 ≠ .returned none) := by
  simp only [replaceFile]
  cases hrename : faults.rename with
  | ok => exact Or.inl (lookup_renameFile htemporary)
  | stop => exact Or.inr ⟨rfl, by simp⟩
  | error cause =>
      simp only [attempt]
      cases hremove : faults.remove with
      | error cause => exact Or.inr ⟨rfl, by simp⟩
      | stop => exact Or.inr ⟨rfl, by simp⟩
      | ok =>
          have hagain : faults.renameAgain = .ok := by
            by_contra hagain
            exact hdrops ⟨⟨cause, hrename⟩, hremove, hagain⟩
          simp only [hagain]
          refine Or.inl (lookup_renameFile ?_)
          rw [Finmap.lookup_erase_ne hne.symm, htemporary]

lemma lookup_withCleanup (hne : path ≠ temporary) (result : Directory × Ending) :
    (withCleanup faults temporary result).1.lookup path = result.1.lookup path := by
  obtain ⟨dir, ending⟩ := result
  cases ending with
  | stopped => rfl
  | returned err =>
      simp only [withCleanup]
      cases faults.cleanup with
      | ok => exact Finmap.lookup_erase_ne hne
      | error cause => rfl
      | stop => rfl

lemma withCleanup_eq_returned {result : Directory × Ending}
    (h : (withCleanup faults temporary result).2 = .returned none) : result.2 = .returned none := by
  obtain ⟨dir, ending⟩ := result
  cases ending with
  | stopped => cases h
  | returned err =>
      simp only [withCleanup] at h
      cases hcleanup : faults.cleanup with
      | stop => rw [hcleanup] at h; cases h
      | ok => rw [hcleanup] at h; exact h
      | error cause => rw [hcleanup] at h; exact h

lemma replacing_eq_returned {ending : Ending} (h : ending.replacing = .returned none) :
    ending = .returned none := by
  cases ending with
  | stopped => cases h
  | returned err =>
      cases err with
      | none => rfl
      | some cause => cases h

/-- A step that is not done leaves things as they are there, and `Save` does not succeed. -/
lemma attempt_of_ne_ok {outcome : StepOutcome} (h : outcome ≠ .ok) (what : String) (dir : Directory)
    (rest : Directory × Ending) : (attempt outcome what dir rest).1 = dir ∧
      (attempt outcome what dir rest).2 ≠ .returned none := by
  cases outcome with
  | ok => exact absurd rfl h
  | error cause => exact ⟨rfl, by simp [attempt]⟩
  | stop => exact ⟨rfl, by simp [attempt]⟩

/-- What `Save` keeps: the new contents, or the old and no success. -/
def Kept (path : String) (data : Bytes) (dir : Directory) (result : Directory × Ending) : Prop :=
  result.1.lookup path = some data ∨
    (result.1.lookup path = dir.lookup path ∧ result.2 ≠ .returned none)

/-- A step that is not done keeps what there is. -/
lemma kept_attempt {outcome : StepOutcome} {what : String} {dir' : Directory}
    {rest : Directory × Ending} (hdir : dir'.lookup path = dir.lookup path)
    (hrest : outcome = .ok → Kept path data dir rest) :
    Kept path data dir (attempt outcome what dir' rest) := by
  by_cases hok : outcome = .ok
  · simp only [hok, attempt]
    exact hrest hok
  · obtain ⟨hsame, hending⟩ := attempt_of_ne_ok hok what dir' rest
    exact Or.inr ⟨by rw [hsame, hdir], hending⟩

lemma saveThrough_of_not_drops (hne : path ≠ temporary)
    (hdrops : faults.chmod = .ok → faults.write = .ok → faults.sync = .ok → faults.close = .ok →
      ¬ faults.Drops) :
    Kept path data dir (saveThrough faults path temporary data dir) := by
  have hinsert : ∀ contents : Bytes, (dir.insert temporary contents).lookup path = dir.lookup path :=
    fun contents => Finmap.lookup_insert_of_ne dir hne
  have hkept : ∀ result, Kept path data dir result →
      Kept path data dir (withCleanup faults temporary result) := by
    intro result hresult
    rw [Kept, lookup_withCleanup hne]
    exact hresult.imp id fun h => ⟨h.1, fun hreturned => h.2 (withCleanup_eq_returned hreturned)⟩
  refine hkept _ (kept_attempt (hinsert _) fun hchmod => kept_attempt (hinsert _) fun hwrite =>
    kept_attempt (hinsert _) fun hsync => kept_attempt (hinsert _) fun hclose => ?_)
  rcases replaceFile_of_not_drops (hdrops hchmod hwrite hsync hclose) hne
    (Finmap.lookup_insert dir) with hnew | ⟨hold, hending⟩
  · exact Or.inl hnew
  · refine Or.inr ⟨hold.trans (hinsert _), fun hreturned => ?_⟩
    exact hending (replacing_eq_returned hreturned)

end

/-! ## Atomicity -/

section

variable {codec : SnapshotCodec} {faults : SaveFaults} {path : String} {dir : Directory}
  {s : Snapshot}

/-- **`Save` keeps the state file** if it does not come to drop it. -/
lemma save_of_not_drops (hthere : path ∈ dir) (hdrops : faults.Reaches codec s → ¬ faults.Drops) :
    ((save codec faults path s dir).1.lookup path = dir.lookup path ∧
        (save codec faults path s dir).2 ≠ .returned none) ∨
      ∃ data, codec.marshal s = .ok data ∧
        (save codec faults path s dir).1.lookup path = some (data ++ [newline]) := by
  rw [save]
  cases hcancelled : faults.cancelled with
  | some cause => exact Or.inl ⟨rfl, by simp⟩
  | none =>
      cases hmarshal : codec.marshal s with
      | error cause =>
          simp only
          by_cases hmkdir : faults.mkdir = .ok
          · simp [hmkdir, attempt]
          · obtain ⟨hsame, hending⟩ := attempt_of_ne_ok hmkdir "create incident state directory: "
              dir (dir, .returned (some ("encode incident state: " ++ cause)))
            exact Or.inl ⟨by rw [hsame], hending⟩
      | ok data =>
          have hne : path ≠ faults.temporary dir := by
            intro heq
            exact faults.fresh dir (heq ▸ hthere)
          have hkept : Kept path (data ++ [newline]) dir
              (attempt faults.mkdir "create incident state directory: " dir <|
                attempt faults.createTemp "create temporary incident state: " dir <|
                  saveThrough faults path (faults.temporary dir) (data ++ [newline]) dir) :=
            kept_attempt rfl fun hmkdir => kept_attempt rfl fun hcreate =>
              saveThrough_of_not_drops hne fun hchmod hwrite hsync hclose =>
                hdrops ⟨hcancelled, hmkdir, ⟨data, hmarshal⟩, hcreate, hchmod, hwrite, hsync, hclose⟩
          rcases hkept with hnew | hold
          · exact Or.inr ⟨data, rfl, hnew⟩
          · exact Or.inl hold

/-- **`Save` loses the state file** if it drops it. -/
lemma save_of_drops (hthere : path ∈ dir) (hreaches : faults.Reaches codec s)
    (hdrops : faults.Drops) : (save codec faults path s dir).1.lookup path = none := by
  obtain ⟨hcancelled, hmkdir, ⟨data, hmarshal⟩, hcreate, hchmod, hwrite, hsync, hclose⟩ := hreaches
  have hne : path ≠ faults.temporary dir := by
    intro heq
    exact faults.fresh dir (heq ▸ hthere)
  simp only [save, hcancelled, hmkdir, hmarshal, hcreate, attempt, saveThrough, hchmod, hwrite, hsync,
    hclose]
  rw [lookup_withCleanup hne]
  exact (replaceFile_of_drops hdrops).1

end

/-- The state file holds what `Save` made of a snapshot. -/
def Saved (codec : SnapshotCodec) (path : String) (s : Snapshot) (dir : Directory) : Prop :=
  ∃ data, codec.marshal s = .ok data ∧ dir.lookup path = some (data ++ [newline])

lemma Saved.load_eq {codec : SnapshotCodec} (hcodec : codec.RoundTrips) {path : String}
    {s : Snapshot} {dir : Directory} (h : Saved codec path s dir) : load codec path dir = .ok s := by
  obtain ⟨data, hmarshal, hlookup⟩ := h
  rw [load, hlookup]
  simp only [hcodec s data hmarshal]

/-- `Load` finds the old snapshot or the new one, and the new one after a success. -/
def Atomic (codec : SnapshotCodec) (path : String) (s s' : Snapshot) (result : Directory × Ending) :
    Prop :=
  (load codec path result.1 = .ok s ∨ load codec path result.1 = .ok s') ∧
    (result.2 = .returned none → load codec path result.1 = .ok s')

/-! ## A small state -/

/-- A name that is longer than all there are. -/
def longName (dir : Directory) : String :=
  ".incidents-" ++ String.ofList (List.replicate (dir.keys.sup String.length) '1') ++ ".tmp"

lemma longName_fresh (dir : Directory) : longName dir ∉ dir := by
  intro hmem
  have hle : (longName dir).length ≤ dir.keys.sup String.length :=
    Finset.le_sup (Finmap.mem_keys.mpr hmem)
  simp only [longName, String.length_append, String.length_ofList, List.length_replicate] at hle
  have hpos : 0 < ".incidents-".length := by decide
  omega

/-- The text of a state without trackers, incidents and jobs. -/
def stateText (bootstrapped lastCheckpointAt : String) : Bytes :=
  asciiBytes ("\x7b\n  \"version\": 1,\n  \"bootstrapped\": " ++ bootstrapped ++
    ",\n  \"last_checkpoint_at\": \"" ++ lastCheckpointAt ++
    "\",\n  \"trackers\": \x7b\x7d,\n  \"incidents\": \x7b\x7d,\n  \"jobs\": \x7b\x7d\n\x7d")

/-- A state that was bootstrapped one second after the zero time. -/
def bootstrappedState : Snapshot := { bootstrapped := true, lastCheckpointAt := 1000000000 }

open Classical in
/-- The codec on the state of `New` and on `bootstrappedState`. -/
noncomputable def sampleCodec : SnapshotCodec where
  marshal s :=
    if s = {} then .ok (stateText "false" "0001-01-01T00:00:00Z")
    else if s = bootstrappedState then .ok (stateText "true" "0001-01-01T00:00:01Z")
    else .error "unsupported value"
  unmarshal data :=
    if data = stateText "false" "0001-01-01T00:00:00Z" ++ [newline] then .ok {}
    else if data = stateText "true" "0001-01-01T00:00:01Z" ++ [newline] then .ok bootstrappedState
    else .error "invalid character"

lemma sampleCodec_roundTrips : sampleCodec.RoundTrips := by
  intro s data hmarshal
  simp only [sampleCodec] at hmarshal ⊢
  split_ifs at hmarshal with hnew hbootstrapped
  · rw [← Except.ok.inj hmarshal, if_pos rfl, hnew]
  · have hne : stateText "true" "0001-01-01T00:00:01Z" ++ [newline]
        ≠ stateText "false" "0001-01-01T00:00:00Z" ++ [newline] := by
      intro heq
      have hlength := congrArg List.length heq
      simp only [stateText, asciiBytes, List.length_append, List.length_map, String.toList_append,
        String.length_toList] at hlength
      have htrue : "true".length = 4 := rfl
      have hfalse : "false".length = 5 := rfl
      have hzero : "0001-01-01T00:00:00Z".length = 20 := rfl
      have hone : "0001-01-01T00:00:01Z".length = 20 := rfl
      omega
    rw [← Except.ok.inj hmarshal, if_neg hne, if_pos rfl, hbootstrapped]

/-- A directory in which the state of `New` has been saved. -/
def sampleDirectory : Directory :=
  Finmap.singleton "incidents.json" (stateText "false" "0001-01-01T00:00:00Z" ++ [newline])

lemma saved_sampleDirectory : Saved sampleCodec "incidents.json" {} sampleDirectory :=
  ⟨_, by simp [sampleCodec], Finmap.lookup_singleton_eq⟩

/-! ## Every ending of `Save` -/

/-- **Replacing a snapshot is atomic exactly if `Save` does not drop the state file**: whatever
fails and wherever the process stops, unless the first rename fails, the removal of the target is
done and the second rename is not. -/
theorem save_atomic_iff (codec : SnapshotCodec) (hcodec : codec.RoundTrips) (faults : SaveFaults)
    (path : String) (dir : Directory) (s s' : Snapshot) (hs : s.version = 1) (hs' : s'.version = 1)
    (hsaved : Saved codec path s dir) :
    Atomic codec path s s' (save codec faults path s' dir) ↔
      ¬ (faults.Reaches codec s' ∧ faults.Drops) := by
  have hthere : path ∈ dir := by
    obtain ⟨data, -, hlookup⟩ := hsaved
    exact Finmap.mem_of_lookup_eq_some hlookup
  constructor
  · rintro ⟨hload, -⟩ ⟨hreaches, hdrops⟩
    have hempty : load codec path (save codec faults path s' dir).1 = .ok { version := 0 } := by
      rw [load, save_of_drops hthere hreaches hdrops]
    rw [hempty] at hload
    rcases hload with hload | hload
    · rw [← Except.ok.inj hload] at hs
      exact absurd hs (by simp)
    · rw [← Except.ok.inj hload] at hs'
      exact absurd hs' (by simp)
  · intro hdrops
    rcases save_of_not_drops (s := s') hthere
        (fun hreaches hd => hdrops ⟨hreaches, hd⟩) with ⟨hold, hending⟩ | hnew
    · have hload : load codec path (save codec faults path s' dir).1 = .ok s := by
        rw [← hsaved.load_eq hcodec, load, hold, load]
      exact ⟨Or.inl hload, fun hreturned => absurd hreturned hending⟩
    · have hload := Saved.load_eq hcodec hnew
      exact ⟨Or.inr hload, fun _ => hload⟩

/-- The second rename is done. -/
theorem save_atomic_iff_renamed :
    Atomic sampleCodec "incidents.json" {} bootstrappedState
      (save sampleCodec { temporary := longName, fresh := longName_fresh
                          rename := .error "access is denied" }
        "incidents.json" bootstrappedState sampleDirectory) := by
  refine (save_atomic_iff sampleCodec sampleCodec_roundTrips _ "incidents.json" sampleDirectory {}
    bootstrappedState rfl rfl saved_sampleDirectory).mpr ?_
  rintro ⟨-, -, -, hagain⟩
  exact hagain rfl

/-- **A state file that is in use can be lost**: it is removed after the first rename has failed,
and the second rename fails too. -/
theorem save_not_atomic :
    Saved sampleCodec "incidents.json" {} sampleDirectory ∧
      ¬ Atomic sampleCodec "incidents.json" {} bootstrappedState
        (save sampleCodec { temporary := longName, fresh := longName_fresh
                            rename := .error "access is denied"
                            renameAgain := .error "access is denied" }
          "incidents.json" bootstrappedState sampleDirectory) := by
  refine ⟨saved_sampleDirectory, ?_⟩
  rintro ⟨hload, -⟩
  have hempty : load sampleCodec "incidents.json"
      (save sampleCodec { temporary := longName, fresh := longName_fresh
                          rename := .error "access is denied"
                          renameAgain := .error "access is denied" }
        "incidents.json" bootstrappedState sampleDirectory).1 = .ok { version := 0 } := by
    rw [load, save_of_drops]
    · exact Finmap.mem_of_lookup_eq_some Finmap.lookup_singleton_eq
    · exact ⟨rfl, rfl, ⟨stateText "true" "0001-01-01T00:00:01Z", by
        simp [sampleCodec, bootstrappedState]⟩, rfl, rfl, rfl, rfl, rfl⟩
    · exact ⟨⟨_, rfl⟩, rfl, by simp⟩
  rw [hempty] at hload
  rcases hload with hload | hload
  · exact absurd (congrArg Snapshot.version (Except.ok.inj hload)) (by simp)
  · exact absurd (congrArg Snapshot.version (Except.ok.inj hload)) (by simp [bootstrappedState])

end Logthing
