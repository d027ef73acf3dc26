import Logthing.Incidents.Chronology
import Logthing.Incidents.Rebuilding

/-!
# Observations with fewer eligible messages

`NotifyEligible` decides who is told of an outage and nothing else.  `View.Below x w` says that two
views are the same but for `Notify`, which is set in `x` only where it is set in `w`; observing
keeps that up when the observations are the same but for their flags (`Below.takeAll`).

**Main results.**  `renotify_of_below`: giving the incidents of the lower view the flags of the
upper one makes them the same.
-/

namespace Logthing

/-! ## The same but for `Notify` -/

/-- The same tracker, with `Notify` at most that of the other. -/
def Tracker.Below (c' c : Tracker) : Prop :=
  ∃ notify, c = { c' with notify } ∧ (c'.notify = true → notify = true)

/-- The same incident, with `Notify` at most that of the other. -/
def Incident.Below (i' i : Incident) : Prop :=
  ∃ notify, i = { i' with notify } ∧ (i'.notify = true → notify = true)

/-- The same view, with `Notify` at most that of the other. -/
structure View.Below (x w : View) : Prop where
  trackers : ∀ key, Option.Rel Tracker.Below (x.trackers key) (w.trackers key)
  incidents : ∀ id, Option.Rel Incident.Below (x.incidents id) (w.incidents id)

/-- The same observation, eligible at most where the other is. -/
structure Observation.Below (o' o : Observation) : Prop where
  message_eq : o'.message = o.message
  sourceRef_eq : o'.sourceRef = o.sourceRef
  eligible : o'.notifyEligible = true → o.notifyEligible = true

lemma Tracker.Below.refl (c : Tracker) : c.Below c := ⟨c.notify, rfl, fun h => h⟩

lemma Incident.Below.refl (i : Incident) : i.Below i := ⟨i.notify, rfl, fun h => h⟩

/-- What is noted of evidence does not depend on `Notify`. -/
lemma Incident.Below.map {f' f : Incident → Incident} {i' i : Option Incident}
    (h : Option.Rel Incident.Below i' i) (hf : ∀ i' i, i'.Below i → (f' i').Below (f i)) :
    Option.Rel Incident.Below (i'.map f') (i.map f) := by
  cases h with
  | none => exact .none
  | some hbelow => exact .some (hf _ _ hbelow)

/-- **Reactions differ in `Notify` at most.** -/
lemma reaction_below (eng : Engine) (evidence : Evidence) {eligible' eligible : Bool}
    (heligible : eligible' = true → eligible = true) {c' c : Tracker} (hc : c'.Below c) :
    let r' := reaction eng evidence eligible' c'
    let r := reaction eng evidence eligible c
    r'.current.Below r.current ∧ r'.id = r.id ∧ ∀ i' i, Option.Rel Incident.Below i' i →
      Option.Rel Incident.Below (r'.incident i') (r.incident i) := by
  obtain ⟨notify, rfl, hnotify⟩ := hc
  have hor : (c'.notify || eligible') = true → (notify || eligible) = true := by
    rw [Bool.or_eq_true, Bool.or_eq_true]
    exact Or.imp hnotify heligible
  obtain ⟨phase, _, _, _, _, _, _, _, _⟩ := c'
  simp only [reaction]
  cases evidence.online <;> cases phase
  case false.unset | false.healthy =>
      exact ⟨⟨eligible, rfl, heligible⟩, rfl, fun _ _ _ => .some ⟨eligible, rfl, heligible⟩⟩
  case false.pendingFailure =>
      refine ⟨⟨_, rfl, hor⟩, rfl, fun i' i hi => Incident.Below.map hi ?_⟩
      rintro i' i ⟨_, rfl, -⟩
      exact ⟨_, rfl, hor⟩
  case true.pendingFailure => exact ⟨.refl _, rfl, fun _ _ _ => .none⟩
  case true.unset => exact ⟨.refl _, rfl, fun _ _ hi => hi⟩
  case true.healthy => exact ⟨⟨notify, rfl, hnotify⟩, rfl, fun _ _ hi => hi⟩
  all_goals
    refine ⟨⟨notify, rfl, hnotify⟩, rfl, fun i' i hi => Incident.Below.map hi ?_⟩
    rintro i' i ⟨inotify, rfl, hinotify⟩
    exact ⟨inotify, rfl, hinotify⟩

namespace View.Below

variable {x w : View}

lemma empty : View.Below ⟨fun _ => none, fun _ => none⟩ ⟨fun _ => none, fun _ => none⟩ :=
  ⟨fun _ => .none, fun _ => .none⟩

lemma current (h : View.Below x w) (key : String) : (x.current key).Below (w.current key) := by
  have hkey := h.trackers key
  rw [View.current, View.current]
  generalize x.trackers key = c' at hkey
  generalize w.trackers key = c at hkey
  cases hkey with
  | some hbelow => exact hbelow
  | none => exact .refl _

lemma set (h : View.Below x w) {key id : String} {c' c : Tracker} {i' i : Option Incident}
    (hc : c'.Below c) (hi : Option.Rel Incident.Below i' i) :
    View.Below (x.set key c' id i') (w.set key c id i) where
  trackers k := by
    simp only [View.set, Function.update_apply]
    split_ifs
    · exact .some hc
    · exact h.trackers k
  incidents k := by
    simp only [View.set, Function.update_apply]
    split_ifs
    · exact hi
    · exact h.incidents k

/-- **Timers run out alike.** -/
lemma settle (h : View.Below x w) (now : Time) : View.Below (x.settle now) (w.settle now) where
  trackers key := by
    have hkey := h.trackers key
    simp only [View.settle]
    generalize x.trackers key = c' at hkey
    generalize w.trackers key = c at hkey
    cases hkey with
    | none => exact .none
    | @some c' c hbelow =>
        obtain ⟨notify, rfl, hnotify⟩ := hbelow
        refine .some ?_
        have hid := h.incidents c'.incidentID
        simp only [View.settledTracker]
        generalize x.incidents c'.incidentID = i' at hid
        generalize w.incidents c'.incidentID = i at hid
        cases hid with
        | none => exact ⟨notify, rfl, hnotify⟩
        | @some i' i hi =>
            obtain ⟨inotify, rfl, -⟩ := hi
            have hdue : ({ c' with notify } : Tracker).dueBy now { i' with notify := inotify }
                ↔ c'.dueBy now i' := Iff.rfl
            simp only [hdue]
            split_ifs
            · rw [Tracker.fired, Tracker.fired]
              split_ifs
              · exact ⟨notify, rfl, hnotify⟩
              · exact .refl _
            · exact ⟨notify, rfl, hnotify⟩
  incidents id := by
    have hid := h.incidents id
    simp only [View.settle]
    generalize x.incidents id = i' at hid
    generalize w.incidents id = i at hid
    cases hid with
    | none => exact .none
    | @some i' i hbelow =>
        obtain ⟨notify, rfl, hnotify⟩ := hbelow
        refine .some ?_
        have hkey := h.trackers i'.key
        have hsame : ({ i' with notify } : Incident).key = i'.key := rfl
        simp only [View.settledIncident, hsame]
        generalize x.trackers i'.key = c' at hkey
        generalize w.trackers i'.key = c at hkey
        cases hkey with
        | none => exact ⟨notify, rfl, hnotify⟩
        | @some c' c hc =>
            obtain ⟨cnotify, rfl, hcnotify⟩ := hc
            have hdue : ({ c' with notify := cnotify } : Tracker).dueBy now { i' with notify }
                ↔ c'.dueBy now i' := Iff.rfl
            simp only [hdue]
            split_ifs
            · simp only [Incident.fired]
              split_ifs
              · exact ⟨cnotify, rfl, hcnotify⟩
              · exact ⟨notify, rfl, hnotify⟩
            · exact ⟨notify, rfl, hnotify⟩

lemma react (h : View.Below x w) (eng : Engine) (evidence : Evidence) {eligible' eligible : Bool}
    (heligible : eligible' = true → eligible = true) :
    View.Below (x.react eng evidence eligible') (w.react eng evidence eligible) := by
  have hcurrent := h.current evidence.key
  have hmasked : evidence.masked eng (w.current evidence.key)
      = evidence.masked eng (x.current evidence.key) := by
    obtain ⟨notify, heq, -⟩ := hcurrent
    rw [heq]
    rfl
  simp only [View.react, hmasked]
  split_ifs
  · exact h
  · have hseen : Tracker.Below { x.current evidence.key with lastEvidenceAt := evidence.at_ }
        { w.current evidence.key with lastEvidenceAt := evidence.at_ } := by
      obtain ⟨notify, heq, hnotify⟩ := hcurrent
      rw [heq]
      exact ⟨notify, rfl, hnotify⟩
    obtain ⟨htracker, hid, hincident⟩ := reaction_below eng evidence heligible hseen
    rw [← hid]
    exact h.set htracker (hincident _ _ (h.incidents _))

lemma sight (h : View.Below x w) (evidence : Evidence) :
    View.Below (x.sight evidence) (w.sight evidence) := by
  obtain ⟨notify, heq, hnotify⟩ := h.current evidence.key
  have hid : (w.current evidence.key).incidentID = (x.current evidence.key).incidentID := by
    rw [heq]
  rw [View.sight, View.sight, hid]
  refine h.set ?_ (h.incidents _)
  rw [heq, Tracker.sighted, Tracker.sighted]
  by_cases hphase : (x.current evidence.key).phase = .unset
  · rw [if_pos hphase, if_pos hphase]
    exact ⟨notify, rfl, hnotify⟩
  · rw [if_neg hphase, if_neg hphase]
    exact ⟨notify, rfl, hnotify⟩

/-- **Observations are taken alike.** -/
lemma take (h : View.Below x w) (eng : Engine) {o' o : Observation} (ho : o'.Below o) :
    View.Below (x.take eng o') (w.take eng o) := by
  have hevidence : eng.evidence o' = eng.evidence o := by
    rw [Engine.evidence, Engine.evidence, ho.message_eq, ho.sourceRef_eq]
  rw [View.take, View.take, hevidence]
  cases eng.evidence o with
  | none => exact h
  | some evidence =>
      have hstale : evidence.Stale (w.current evidence.key)
          ↔ evidence.Stale (x.current evidence.key) := by
        obtain ⟨notify, heq, -⟩ := h.current evidence.key
        rw [heq]
        exact Iff.rfl
      simp only [View.observe, hstale]
      split_ifs
      · exact h
      · exact h.sight evidence
      · exact (h.settle evidence.at_).react eng evidence ho.eligible

lemma takeAll (h : View.Below x w) (eng : Engine) {os' os : List Observation}
    (hos : List.Forall₂ Observation.Below os' os) :
    View.Below (os'.foldl (View.take eng) x) (os.foldl (View.take eng) w) := by
  induction hos generalizing x w with
  | nil => exact h
  | cons ho _ ih => exact ih (h.take eng ho)

end View.Below

/-! ## The flags given back -/

/-- **Giving the incidents of the lower view the flags of the upper one** makes the views the
same. -/
theorem renotify_of_below {eng : Engine} {x w : View} (h : View.Below x w)
    (hx : Consistent eng x) (hw : Consistent eng w) {notify : String → Incident → Bool}
    (hnotify : ∀ id i' i, x.incidents id = some i' → w.incidents id = some i → i'.Below i →
      notify id i' = i.notify) :
    x.renotify notify = w := by
  ext1
  · funext key
    have hkey := h.trackers key
    simp only [View.renotify]
    cases hc' : x.trackers key with
    | none =>
        rw [hc'] at hkey
        generalize w.trackers key = c at hkey
        cases hkey
        rfl
    | some c' =>
        rw [hc'] at hkey
        generalize hc : w.trackers key = c at hkey
        obtain ⟨flag, rfl, -⟩ : ∃ flag, c = some { c' with notify := flag } ∧ True := by
          cases hkey with
          | some hbelow => exact ⟨hbelow.choose, by rw [← hbelow.choose_spec.1], trivial⟩
        simp only [Option.map_some, Option.some.injEq]
        by_cases hopen : c'.phase.openState = none
        · -- both trackers are closed, and neither notifies
          have hclosed := hx.closed hc' hopen
          have hclosed' := hw.closed hc hopen
          rw [hclosed, hx.incidents_empty]
          rw [hclosed] at hclosed'
          exact hclosed'.symm
        · obtain ⟨i', hi', -⟩ := hx.names hc' hopen
          obtain ⟨i, hi, hagrees⟩ := hw.names hc hopen
          have hbelow : i'.Below i := by
            have hid := h.incidents c'.incidentID
            rw [hi', hi] at hid
            cases hid with
            | some hbelow => exact hbelow
          rw [hi']
          simp only [hnotify _ _ _ hi' hi hbelow, hagrees.notify]
  · funext id
    have hid := h.incidents id
    have hsame := hnotify id
    simp only [View.renotify]
    generalize x.incidents id = i' at hid hsame
    generalize w.incidents id = i at hid hsame
    cases hid with
    | none => rfl
    | @some i' i hbelow =>
        have heq := hsame i' i rfl rfl hbelow
        obtain ⟨flag, rfl, -⟩ := hbelow
        rw [Option.map_some, heq]

end Logthing
