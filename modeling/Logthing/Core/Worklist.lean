import Mathlib.Data.Finset.Card

/-!
# Loops that work through a worklist

A loop that looks for its next turn anew each time, until it finds none.  `turn n s` is the turn it
takes in the state `s` after `n` turns: what there is to record of it and the state it leaves, or
nothing where the loop ends.

`within turn n s` is the loop cut off after `n` turns.  Its result, when it has one, is that of the
loop itself.

**Main results.**  `exists_within`: a loop whose turns each take something off a finite worklist
ends within as many turns as the worklist has entries.  `pairwise_within`: if every turn is the
first of those that wait, and no turn lets another one wait, the turns come in order.
-/

namespace Worklist

variable {σ τ ι : Type}

/-- The loop, cut off after `n` turns: the record of its turns and the state it ends in. -/
def within : (ℕ → σ → Option (τ × σ)) → ℕ → σ → Option (List τ × σ)
  | turn, 0, s =>
      match turn 0 s with
      | none => some ([], s)
      | some _ => none
  | turn, n + 1, s =>
      match turn 0 s with
      | none => some ([], s)
      | some (t, s') => (within (fun k => turn (k + 1)) n s').map fun r => (t :: r.1, r.2)

/-- **The induction over a loop that ended**: at its end, and at a turn with what follows it. -/
lemma within_induction (P : ℕ → (ℕ → σ → Option (τ × σ)) → σ → List τ → σ → Prop)
    (hdone : ∀ {n turn s}, turn 0 s = none → P n turn s [] s)
    (hturn : ∀ {n turn s t middle rest s'}, turn 0 s = some (t, middle) →
      P n (fun k => turn (k + 1)) middle rest s' → P (n + 1) turn s (t :: rest) s')
    {n : ℕ} {turn : ℕ → σ → Option (τ × σ)} {s s' : σ} {ts : List τ}
    (h : within turn n s = some (ts, s')) : P n turn s ts s' := by
  induction n generalizing turn s ts with
  | zero =>
      rw [within] at h
      cases hnext : turn 0 s with
      | none =>
          rw [hnext] at h
          obtain ⟨rfl, rfl⟩ := Prod.mk.inj (Option.some.inj h)
          exact hdone hnext
      | some next =>
          rw [hnext] at h
          cases h
  | succ n ih =>
      rw [within] at h
      cases hnext : turn 0 s with
      | none =>
          rw [hnext] at h
          obtain ⟨rfl, rfl⟩ := Prod.mk.inj (Option.some.inj h)
          exact hdone hnext
      | some next =>
          obtain ⟨t, middle⟩ := next
          rw [hnext] at h
          obtain ⟨⟨rest, last⟩, hrest, heq⟩ := Option.map_eq_some_iff.mp h
          obtain ⟨rfl, rfl⟩ := Prod.mk.inj heq
          exact hturn hnext (ih hrest)

/-- The loop is cut off after `n` turns. -/
lemma length_within {turn : ℕ → σ → Option (τ × σ)} {n : ℕ} {s s' : σ} {ts : List τ}
    (h : within turn n s = some (ts, s')) : ts.length ≤ n := by
  refine within_induction (fun n _ _ ts _ => ts.length ≤ n) (fun _ => ?_) (fun _ ih => ?_) h
  · exact Nat.zero_le _
  · exact Nat.succ_le_succ ih

/-- There is no turn left at the end. -/
lemma within_ends {turn : ℕ → σ → Option (τ × σ)} {n : ℕ} {s s' : σ} {ts : List τ}
    (h : within turn n s = some (ts, s')) : turn ts.length s' = none :=
  within_induction (fun _ turn _ ts s' => turn ts.length s' = none) id (fun _ ih => ih) h

/-- **A loop that empties a worklist ends** within as many turns as there are entries. -/
theorem exists_within (work : σ → Finset ι) {turn : ℕ → σ → Option (τ × σ)}
    (hturn : ∀ {k s t s'}, turn k s = some (t, s') → (work s').card < (work s).card) {n : ℕ}
    {s : σ} (hn : (work s).card ≤ n) : ∃ ts s', within turn n s = some (ts, s') := by
  induction n generalizing turn s with
  | zero =>
      cases hnext : turn 0 s with
      | none => exact ⟨[], s, by rw [within, hnext]⟩
      | some next => exact absurd (hturn hnext) (by omega)
  | succ n ih =>
      cases hnext : turn 0 s with
      | none => exact ⟨[], s, by rw [within, hnext]⟩
      | some next =>
          obtain ⟨t, middle⟩ := next
          have hless := hturn hnext
          have hshift : ∀ {k s t s'}, turn (k + 1) s = some (t, s') →
              (work s').card < (work s).card := fun h => hturn h
          obtain ⟨ts, s', hrest⟩ := @ih (fun k => turn (k + 1)) hshift middle (by omega)
          refine ⟨t :: ts, s', ?_⟩
          rw [within, hnext]
          simp only [hrest, Option.map_some]

/-- **Turns in order.**  `Waits s t` says that the turn `t` waits to be taken in the state `s`.  If
the turn taken is one that waits, none that waits belongs before it, and it lets no other turn wait
than those that did, then the turns of the loop are in order. -/
theorem pairwise_within (Step : σ → τ → σ → Prop) (Waits : σ → τ → Prop) {Inv : σ → Prop}
    {R : τ → τ → Prop} (hinv : ∀ {s t s'}, Inv s → Step s t s' → Inv s')
    (hwaits : ∀ {s t s'}, Inv s → Step s t s' → Waits s t)
    (hfirst : ∀ {s t s' u}, Inv s → Step s t s' → Waits s u → R t u)
    (hback : ∀ {s t s' u}, Inv s → Step s t s' → Waits s' u → Waits s u)
    {turn : ℕ → σ → Option (τ × σ)} (hturn : ∀ {k s t s'}, turn k s = some (t, s') → Step s t s')
    {n : ℕ} {s s' : σ} {ts : List τ} (h : within turn n s = some (ts, s')) (hs : Inv s) :
    ts.Pairwise R := by
  suffices hboth : (∀ t ∈ ts, Waits s t) ∧ ts.Pairwise R from hboth.2
  refine within_induction (fun _ turn s ts _ => (∀ {k s t s'}, turn k s = some (t, s') →
    Step s t s') → Inv s → (∀ t ∈ ts, Waits s t) ∧ ts.Pairwise R) (fun _ _ _ => ?_)
    (fun hnext ih hturn hs => ?_) h hturn hs
  · exact ⟨by simp, List.Pairwise.nil⟩
  · have hstep := hturn hnext
    obtain ⟨hrest, hpairs⟩ := ih (fun h => hturn h) (hinv hs hstep)
    have hwaiting := fun u hu => hback hs hstep (hrest u hu)
    refine ⟨fun u hu => ?_, .cons (fun u hu => hfirst hs hstep (hwaiting u hu)) hpairs⟩
    rcases List.mem_cons.mp hu with rfl | hu
    · exact hwaits hs hstep
    · exact hwaiting u hu

end Worklist
