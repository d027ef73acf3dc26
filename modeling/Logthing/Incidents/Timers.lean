import Logthing.Incidents.Engine
import Mathlib.Data.Prod.Lex

/-!
# Which timer goes first

`nextDueTrackerLocked` walks the trackers in no particular order and keeps the one to go first.
`Selects` says what it finds, whatever the order: nothing when nothing is due, and otherwise a due
tracker that no due tracker ranks before (`selects_selectDue`).
-/

namespace Logthing

/-- A tracker's timer has run out by `now`. -/
def Tracker.dueBy (now : Time) (current : Tracker) (incident : Incident) : Prop :=
  current.pending = true ∧ current.dueAt incident ≤ now

instance (now : Time) (current : Tracker) (incident : Incident) :
    Decidable (current.dueBy now incident) := inferInstanceAs (Decidable (_ ∧ _))

/-- What `nextDueTrackerLocked` compares: the time due, then the priority. -/
def Tracker.rank (interface : String) (current : Tracker) (incident : Incident) : ℤ ×ₗ ℕ :=
  toLex (current.dueAt incident, current.priority interface incident)

/-- The rank of what is selected. -/
def Selected.rank (s : Selected) : ℤ ×ₗ ℕ := toLex (s.at_, s.priority)

lemma Selected.improves_some (candidate selected : Selected) :
    candidate.improves (some selected) = true ↔ candidate.rank < selected.rank := by
  rw [Selected.improves, Selected.rank, Selected.rank, Prod.Lex.toLex_lt_toLex]
  simp

/-- What the loop finds among `l` when it starts with `selected`: nothing, if nothing is due;
otherwise a due tracker of least rank, or what it started with. -/
def Selects (interface : String) (incidents : Dict String Incident) (now : Time)
    (l : List (String × Tracker)) (selected : Option Selected) : Option (String × Tracker) → Prop
  | none => selected = none ∧ ∀ kv ∈ l, ∀ incident,
      incidents.lookup kv.2.incidentID = some incident → ¬ kv.2.dueBy now incident
  | some found => ∃ s : Selected, found = (s.key, s.current) ∧
      (selected = some s ∨ found ∈ l ∧ ∃ incident,
        incidents.lookup found.2.incidentID = some incident ∧ found.2.dueBy now incident ∧
          s.rank = found.2.rank interface incident) ∧
      (∀ before, selected = some before → s.rank ≤ before.rank) ∧
      ∀ kv ∈ l, ∀ incident, incidents.lookup kv.2.incidentID = some incident →
        kv.2.dueBy now incident → s.rank ≤ kv.2.rank interface incident

namespace Selects

variable {interface : String} {incidents : Dict String Incident} {now : Time}
  {l : List (String × Tracker)} {selected : Option Selected} {result : Option (String × Tracker)}
  {key : String} {current : Tracker} {incident : Incident}

/-- An entry that is passed over is not due, or ranks behind what is selected. -/
lemma skip (h : Selects interface incidents now l selected result)
    (hbehind : ∀ incident, incidents.lookup current.incidentID = some incident →
      current.dueBy now incident →
      ∃ before, selected = some before ∧ before.rank ≤ current.rank interface incident) :
    Selects interface incidents now ((key, current) :: l) selected result := by
  cases result with
  | none =>
      refine ⟨h.1, fun kv hkv incident hi hdue => ?_⟩
      rcases List.mem_cons.mp hkv with rfl | hkv
      · obtain ⟨before, hbefore, -⟩ := hbehind incident hi hdue
        rw [h.1] at hbefore
        cases hbefore
      · exact h.2 kv hkv incident hi hdue
  | some found =>
      obtain ⟨s, hs, horigin, hbefore, hfirst⟩ := h
      refine ⟨s, hs, horigin.imp_right fun ⟨hmem, h⟩ => ⟨List.mem_cons_of_mem _ hmem, h⟩,
        hbefore, fun kv hkv incident hi hdue => ?_⟩
      rcases List.mem_cons.mp hkv with rfl | hkv
      · obtain ⟨before, hsel, hle⟩ := hbehind incident hi hdue
        exact (hbefore before hsel).trans hle
      · exact hfirst kv hkv incident hi hdue

/-- A due entry that improves on what is selected takes its place. -/
lemma take {candidate : Selected} (hcandidate : candidate.key = key ∧ candidate.current = current)
    (hrank : candidate.rank = current.rank interface incident)
    (hi : incidents.lookup current.incidentID = some incident) (hdue : current.dueBy now incident)
    (himproves : candidate.improves selected = true)
    (h : Selects interface incidents now l (some candidate) result) :
    Selects interface incidents now ((key, current) :: l) selected result := by
  cases result with
  | none => nomatch h.1
  | some found =>
      obtain ⟨s, hs, horigin, hbefore, hfirst⟩ := h
      have hle := hbefore candidate rfl
      refine ⟨s, hs, Or.inr ?_, fun before hb => ?_, fun kv hkv incident' hi' hd => ?_⟩
      · rcases horigin with heq | ⟨hmem, h⟩
        · obtain rfl := Option.some.inj heq
          rw [hs, hcandidate.1, hcandidate.2]
          exact ⟨List.mem_cons_self, incident, hi, hdue, hrank⟩
        · exact ⟨List.mem_cons_of_mem _ hmem, h⟩
      · rw [hb, Selected.improves_some] at himproves
        exact hle.trans himproves.le
      · rcases List.mem_cons.mp hkv with rfl | hkv
        · rw [hi] at hi'
          rw [← Option.some.inj hi', ← hrank]
          exact hle
        · exact hfirst kv hkv incident' hi' hd

end Selects

/-- **What `nextDueTrackerLocked` finds**, if no pending tracker names an incident that is not
there. -/
lemma selects_selectDue {interface : String} {incidents : Dict String Incident} {now : Time}
    {l : List (String × Tracker)} {selected : Option Selected}
    (hall : ∀ kv ∈ l, kv.2.pending = true →
      ∃ incident, incidents.lookup kv.2.incidentID = some incident) :
    Selects interface incidents now l selected
      (selectDue interface incidents now l selected) := by
  induction l generalizing selected with
  | nil =>
      cases selected with
      | none => exact ⟨rfl, by simp⟩
      | some s => exact ⟨s, rfl, Or.inl rfl, fun before hb => by rw [Option.some.inj hb], by simp⟩
  | cons kv rest ih =>
      obtain ⟨key, current⟩ := kv
      have ih : ∀ {selected}, Selects interface incidents now rest selected
          (selectDue interface incidents now rest selected) :=
        ih fun kv hkv => hall kv (List.mem_cons_of_mem _ hkv)
      rw [selectDue]
      by_cases hpending : current.pending = true
      · obtain ⟨incident, hi⟩ := hall (key, current) List.mem_cons_self hpending
        simp only [hpending, if_true, hi]
        by_cases hlate : now < current.dueAt incident
        · rw [if_pos hlate]
          refine ih.skip fun incident' hi' hdue => ?_
          rw [hi] at hi'
          rw [← Option.some.inj hi'] at hdue
          exact absurd hdue.2 (not_le.mpr hlate)
        · rw [if_neg hlate]
          split_ifs with himproves
          · exact Selects.take ⟨rfl, rfl⟩ rfl hi ⟨hpending, not_lt.mp hlate⟩ himproves ih
          · refine ih.skip fun incident' hi' _ => ?_
            rw [hi] at hi'
            rw [← Option.some.inj hi']
            cases selected with
            | none => exact absurd rfl himproves
            | some before =>
                rw [Selected.improves_some] at himproves
                exact ⟨before, rfl, not_lt.mp himproves⟩
      · rw [if_neg hpending]
        exact ih.skip fun incident _ hdue => absurd hdue.1 hpending

end Logthing
