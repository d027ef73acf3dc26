import Logthing.Incidents.Types
import Mathlib.Data.Prod.Lex

/-!
# Outages and the notifications they call for

A `History` is the activated incidents, each an outage that lasts from its activation to its
resolution.  `Expected` says which notifications a history calls for, without a word about how
they come about: by cases of the outage, and for a fallback by which outages of the primary
interface of its host it overlaps.

Outages activate and are resolved one after another.  `expected_activate_primary`,
`expected_activate_fallback` and `expected_resolve` say which notifications each of these adds, if
nothing of the host's history comes after it (`Behind`): nothing is ever taken back.
-/

namespace Logthing

/-! ## Histories -/

/-- What a history keeps of an activated incident. -/
structure Activation where
  hostname : String
  interface : String
  notify : Bool
  activatedAt : Time
  resolvedAt : Option Time

/-- The activated incidents, by ID. -/
abbrev History := String → Option Activation

/-- The outage lasts at that time: from its activation on, until before its resolution. -/
def Activation.downAt (a : Activation) (at_ : Time) : Prop :=
  a.activatedAt ≤ at_ ∧ ∀ resolved, a.resolvedAt = some resolved → at_ < resolved

/-- The outage of the primary interface of a fallback's host. -/
def Activation.primaryOf (interface : String) (fallback primary : Activation) : Prop :=
  primary.hostname = fallback.hostname ∧ primary.interface = interface

/-- What a job is about, beside its incident. -/
inductive Occasion where
  | opened
  | resolved
  | fallbackOpened
  | fallbackResolved
  | escalated (primaryID : String)

/-- A notification that a history calls for: the incident, the occasion and its time. -/
structure Notice where
  incidentID : String
  occasion : Occasion
  at_ : Time

/-- **The notifications a history calls for.**  `interface` is the primary one. -/
inductive Expected (interface : String) (H : History) : Notice → Prop
  | opened {id : String} {p : Activation} : H id = some p → p.notify = true →
      p.interface = interface → Expected interface H ⟨id, .opened, p.activatedAt⟩
  | resolved {id : String} {p : Activation} {r : Time} : H id = some p → p.notify = true →
      p.interface = interface → p.resolvedAt = some r → Expected interface H ⟨id, .resolved, r⟩
  | fallbackOpened {id : String} {f : Activation} : H id = some f → f.notify = true →
      f.interface ≠ interface →
      (∀ pid p, H pid = some p → f.primaryOf interface p → ¬ p.downAt f.activatedAt) →
      Expected interface H ⟨id, .fallbackOpened, f.activatedAt⟩
  | fallbackResolved {id : String} {f : Activation} {r : Time} : H id = some f →
      f.notify = true → f.interface ≠ interface → f.resolvedAt = some r →
      Expected interface H ⟨id, .fallbackResolved, r⟩
  | escalated {id pid : String} {f p : Activation} {t : Time} : H id = some f →
      f.notify = true → f.interface ≠ interface → H pid = some p → f.primaryOf interface p →
      f.downAt t → p.downAt t →
      Expected interface H ⟨id, .escalated pid, max f.activatedAt p.activatedAt⟩

/-- A notification comes from its incident, and its time is determined. -/
lemma Expected.at_unique {interface : String} {H : History} {id : String} {o : Occasion}
    {t t' : Time} (h : Expected interface H ⟨id, o, t⟩) (h' : Expected interface H ⟨id, o, t'⟩) :
    t = t' := by
  cases h with
  | opened hp _ _ =>
      cases h' with
      | opened hp' _ _ => rw [Option.some.inj (hp.symm.trans hp')]
  | resolved hp _ _ hr =>
      cases h' with
      | resolved hp' _ _ hr' =>
          rw [Option.some.inj (hp.symm.trans hp')] at hr
          exact Option.some.inj (hr.symm.trans hr')
  | fallbackOpened hf _ _ _ =>
      cases h' with
      | fallbackOpened hf' _ _ _ => rw [Option.some.inj (hf.symm.trans hf')]
  | fallbackResolved hf _ _ hr =>
      cases h' with
      | fallbackResolved hf' _ _ hr' =>
          rw [Option.some.inj (hf.symm.trans hf')] at hr
          exact Option.some.inj (hr.symm.trans hr')
  | escalated hf _ _ hp _ _ _ =>
      cases h' with
      | escalated hf' _ _ hp' _ _ _ =>
          rw [Option.some.inj (hf.symm.trans hf'), Option.some.inj (hp.symm.trans hp')]

lemma Expected.incident {interface : String} {H : History} {n : Notice}
    (h : Expected interface H n) : ∃ a, H n.incidentID = some a ∧ a.notify = true := by
  cases h with
  | opened hp hnotify _ => exact ⟨_, hp, hnotify⟩
  | resolved hp hnotify _ _ => exact ⟨_, hp, hnotify⟩
  | fallbackOpened hf hnotify _ _ => exact ⟨_, hf, hnotify⟩
  | fallbackResolved hf hnotify _ _ => exact ⟨_, hf, hnotify⟩
  | escalated hf hnotify _ _ _ _ _ => exact ⟨_, hf, hnotify⟩

lemma Activation.downAt_max {f p : Activation} {t : Time} (hf : f.downAt t) (hp : p.downAt t) :
    f.downAt (max f.activatedAt p.activatedAt) ∧ p.downAt (max f.activatedAt p.activatedAt) := by
  have hmax : max f.activatedAt p.activatedAt ≤ t := max_le hf.1 hp.1
  exact ⟨⟨le_max_left _ _, fun r hr => hmax.trans_lt (hf.2 r hr)⟩,
    ⟨le_max_right _ _, fun r hr => hmax.trans_lt (hp.2 r hr)⟩⟩

/-- `H'` continues `H`: it keeps every outage, with its times, and neither finds a fallback's
primary interface down where it was not nor separates two outages that overlapped. -/
structure Continues (interface : String) (H H' : History) : Prop where
  kept : ∀ {id a}, H id = some a → ∃ a', H' id = some a' ∧ a'.hostname = a.hostname ∧
    a'.interface = a.interface ∧ (a.notify = true → a'.notify = true) ∧
    a'.activatedAt = a.activatedAt ∧ ∀ r, a.resolvedAt = some r → a'.resolvedAt = some r
  primaries : ∀ {id f pid p'}, H id = some f → f.interface ≠ interface → H' pid = some p' →
    f.primaryOf interface p' → p'.downAt f.activatedAt →
    ∃ p, H pid = some p ∧ f.primaryOf interface p ∧ p.downAt f.activatedAt
  overlaps : ∀ {id f f' pid p p' t}, H id = some f → H' id = some f' → H pid = some p →
    H' pid = some p' → f.primaryOf interface p → f.downAt t → p.downAt t →
    ∃ t', f'.downAt t' ∧ p'.downAt t'

/-- **Nothing is taken back** when a history continues. -/
lemma Expected.continue {interface : String} {H H' : History} {n : Notice}
    (h : Expected interface H n) (hH : Continues interface H H') : Expected interface H' n := by
  cases h with
  | opened hp hnotify hinterface =>
      obtain ⟨p', hp', -, hinterface', hnotify', hat, -⟩ := hH.kept hp
      rw [← hat]
      exact .opened hp' (hnotify' hnotify) (hinterface'.trans hinterface)
  | resolved hp hnotify hinterface hr =>
      obtain ⟨p', hp', -, hinterface', hnotify', -, hresolved⟩ := hH.kept hp
      exact .resolved hp' (hnotify' hnotify) (hinterface'.trans hinterface) (hresolved _ hr)
  | @fallbackOpened id f hf hnotify hinterface hnone =>
      obtain ⟨f', hf', hhost, hinterface', hnotify', hat, -⟩ := hH.kept hf
      rw [← hat]
      refine .fallbackOpened hf' (hnotify' hnotify) (by rwa [hinterface']) fun pid p' hp' hof => ?_
      rw [hat]
      intro hdown
      obtain ⟨p, hp, hof', hdown'⟩ :=
        hH.primaries hf hinterface hp' ⟨hof.1.trans hhost, hof.2⟩ hdown
      exact hnone pid p hp hof' hdown'
  | fallbackResolved hf hnotify hinterface hr =>
      obtain ⟨f', hf', -, hinterface', hnotify', -, hresolved⟩ := hH.kept hf
      exact .fallbackResolved hf' (hnotify' hnotify) (by rwa [hinterface']) (hresolved _ hr)
  | escalated hf hnotify hinterface hp hof hfdown hpdown =>
      obtain ⟨f', hf', hhost, hinterface', hnotify', hat, -⟩ := hH.kept hf
      obtain ⟨p', hp', hhostp, hinterfacep, -, hatp, -⟩ := hH.kept hp
      obtain ⟨t', hfdown', hpdown'⟩ := hH.overlaps hf hf' hp hp' hof hfdown hpdown
      rw [← hat, ← hatp]
      exact .escalated hf' (hnotify' hnotify) (by rwa [hinterface']) hp'
        ⟨by rw [hhostp, hhost, hof.1], hinterfacep.trans hof.2⟩ hfdown' hpdown'

/-! ## One event after another -/

/-- What goes first at the same time: resolutions, then activations of the primary interface, then
those of fallbacks. -/
def Activation.rank (interface : String) (a : Activation) : ℤ ×ₗ ℕ :=
  toLex (a.activatedAt, if a.interface = interface then 1 else 2)

/-- Nothing of the host's history comes after `rank`. -/
def Behind (interface hostname : String) (H : History) (rank : ℤ ×ₗ ℕ) : Prop :=
  ∀ id a, H id = some a → a.hostname = hostname →
    a.rank interface ≤ rank ∧ ∀ r, a.resolvedAt = some r → toLex (r, 0) ≤ rank

/-- One interface of one host has one outage at a time, and every outage lasts for a while. -/
structure Orderly (H : History) : Prop where
  apart : ∀ ⦃id id' : String⦄ ⦃a a' : Activation⦄ ⦃t : Time⦄, H id = some a → H id' = some a' →
    a.hostname = a'.hostname → a.interface = a'.interface → a.downAt t → a'.downAt t → id = id'
  lasting : ∀ ⦃id : String⦄ ⦃a : Activation⦄ ⦃r : Time⦄, H id = some a → a.resolvedAt = some r →
    a.activatedAt < r

lemma le_of_toLex_le {t t' : Time} {n n' : ℕ} (h : (toLex (t, n) : ℤ ×ₗ ℕ) ≤ toLex (t', n')) :
    t ≤ t' := by
  rcases Prod.Lex.toLex_le_toLex.mp h with h | ⟨h, -⟩
  · exact h.le
  · exact h.le

lemma lt_of_toLex_le {t t' : Time} {n n' : ℕ} (h : (toLex (t, n) : ℤ ×ₗ ℕ) ≤ toLex (t', n'))
    (hn : n' < n) : t < t' := by
  rcases Prod.Lex.toLex_le_toLex.mp h with h | ⟨-, h⟩
  · exact h
  · exact absurd h (not_le.mpr hn)

section

variable {interface hostname id : String} {H : History} {a : Activation} {t : Time} {n : ℕ}

lemma Behind.activatedAt_le (h : Behind interface hostname H (toLex (t, n))) (ha : H id = some a)
    (hhost : a.hostname = hostname) : a.activatedAt ≤ t :=
  le_of_toLex_le (h id a ha hhost).1

lemma Behind.resolvedAt_le (h : Behind interface hostname H (toLex (t, n))) (ha : H id = some a)
    (hhost : a.hostname = hostname) {r : Time} (hr : a.resolvedAt = some r) : r ≤ t :=
  le_of_toLex_le ((h id a ha hhost).2 r hr)

/-- Every activation comes before a resolution. -/
lemma Behind.activatedAt_lt (h : Behind interface hostname H (toLex (t, 0))) (ha : H id = some a)
    (hhost : a.hostname = hostname) : a.activatedAt < t := by
  refine lt_of_toLex_le (h id a ha hhost).1 ?_
  split_ifs
  · exact Nat.one_pos
  · exact Nat.two_pos

/-- The activation of a fallback comes before one of the primary interface. -/
lemma Behind.fallback_lt (h : Behind interface hostname H (toLex (t, 1))) (ha : H id = some a)
    (hhost : a.hostname = hostname) (hfallback : a.interface ≠ interface) : a.activatedAt < t := by
  refine lt_of_toLex_le (h id a ha hhost).1 ?_
  rw [if_neg hfallback]
  exact Nat.one_lt_two

end

lemma history_update {H : History} {id k : String} {a x : Activation} (hnew : H id = none) :
    Function.update H id (some a) k = some x ↔ (k = id ∧ a = x) ∨ H k = some x := by
  rw [Function.update_apply]
  split_ifs with hk
  · rw [hk, hnew]
    simp
  · simp [hk]

/-- An activation continues the history if no fallback comes after it. -/
lemma continues_activate {interface id : String} {H : History} {a : Activation}
    (hnew : H id = none)
    (hlast : ∀ fid f, H fid = some f → f.interface ≠ interface → f.primaryOf interface a →
      f.activatedAt < a.activatedAt) :
    Continues interface H (Function.update H id (some a)) where
  kept hx := ⟨_, (history_update hnew).mpr (Or.inr hx), rfl, rfl, fun h => h, rfl, fun _ h => h⟩
  primaries {fid f pid p} hf hfallback hp hof hdown := by
    rcases (history_update hnew).mp hp with ⟨-, rfl⟩ | hp
    · exact absurd hdown.1 (not_le.mpr (hlast fid f hf hfallback hof))
    · exact ⟨p, hp, hof, hdown⟩
  overlaps hf hf' hp hp' _ hfdown hpdown := by
    rw [(history_update hnew).mpr (Or.inr hf)] at hf'
    rw [(history_update hnew).mpr (Or.inr hp)] at hp'
    rw [← Option.some.inj hf', ← Option.some.inj hp']
    exact ⟨_, hfdown, hpdown⟩

/-- **An activation of the primary interface** is announced, and escalates every fallback that is
down. -/
theorem expected_activate_primary {interface id : String} {H : History} {a : Activation}
    (hnew : H id = none) (hprimary : a.interface = interface) (hopen : a.resolvedAt = none)
    (hbehind : Behind interface a.hostname H (toLex (a.activatedAt, 1))) (n : Notice) :
    Expected interface (Function.update H id (some a)) n ↔
      Expected interface H n ∨ (a.notify = true ∧ n = ⟨id, .opened, a.activatedAt⟩) ∨
      ∃ fid f, H fid = some f ∧ f.notify = true ∧ f.interface ≠ interface ∧
        f.hostname = a.hostname ∧ f.resolvedAt = none ∧ n = ⟨fid, .escalated id, a.activatedAt⟩ := by
  have hself : Function.update H id (some a) id = some a := Function.update_self _ _ _
  have hkeep : ∀ {k x}, H k = some x → Function.update H id (some a) k = some x :=
    fun hx => (history_update hnew).mpr (Or.inr hx)
  constructor
  · intro h
    cases h with
    | opened hp hnotify hinterface =>
        rcases (history_update hnew).mp hp with ⟨rfl, rfl⟩ | hp
        · exact Or.inr (Or.inl ⟨hnotify, rfl⟩)
        · exact Or.inl (.opened hp hnotify hinterface)
    | resolved hp hnotify hinterface hr =>
        rcases (history_update hnew).mp hp with ⟨rfl, rfl⟩ | hp
        · rw [hopen] at hr
          cases hr
        · exact Or.inl (.resolved hp hnotify hinterface hr)
    | fallbackOpened hf hnotify hinterface hnone =>
        rcases (history_update hnew).mp hf with ⟨rfl, rfl⟩ | hf
        · exact absurd hprimary hinterface
        · exact Or.inl (.fallbackOpened hf hnotify hinterface fun pid p hp => hnone pid p (hkeep hp))
    | fallbackResolved hf hnotify hinterface hr =>
        rcases (history_update hnew).mp hf with ⟨rfl, rfl⟩ | hf
        · exact absurd hprimary hinterface
        · exact Or.inl (.fallbackResolved hf hnotify hinterface hr)
    | @escalated _ _ f p t hf' hnotify hinterface hp' hof hfdown hpdown =>
        rcases (history_update hnew).mp hf' with ⟨rfl, rfl⟩ | hf
        · exact absurd hprimary hinterface
        rcases (history_update hnew).mp hp' with ⟨rfl, rfl⟩ | hp
        · -- the fallback is down when the primary activates, so it is not resolved yet
          have hlasting : f.resolvedAt = none := by
            cases hr : f.resolvedAt with
            | none => rfl
            | some r =>
                have hle := hbehind.resolvedAt_le hf hof.1.symm hr
                exact absurd (hle.trans hpdown.1) (not_le.mpr (hfdown.2 r hr))
          refine Or.inr (Or.inr ⟨_, f, hf, hnotify, hinterface, hof.1.symm, hlasting, ?_⟩)
          rw [max_eq_right (hbehind.activatedAt_le hf hof.1.symm)]
        · exact Or.inl (.escalated hf hnotify hinterface hp hof hfdown hpdown)
  · rintro (h | ⟨hnotify, rfl⟩ | ⟨fid, f, hf, hnotify, hinterface, hhost, hlasting, rfl⟩)
    · exact h.continue (continues_activate hnew fun fid f hf hfallback hof =>
        hbehind.fallback_lt hf hof.1.symm hfallback)
    · exact .opened hself hnotify hprimary
    · have hle := hbehind.activatedAt_le hf hhost
      have hexpected := Expected.escalated (hkeep hf) hnotify hinterface hself
        ⟨hhost.symm, hprimary⟩ (t := a.activatedAt)
        ⟨hle, fun r hr => absurd (hlasting.symm.trans hr) (by simp)⟩
        ⟨le_rfl, fun r hr => absurd (hopen.symm.trans hr) (by simp)⟩
      rwa [max_eq_right hle] at hexpected

/-- **An activation of a fallback** escalates at once if the primary interface is down, and is
announced otherwise. -/
theorem expected_activate_fallback {interface id : String} {H : History} {a : Activation}
    (hnew : H id = none) (hfallback : a.interface ≠ interface) (hopen : a.resolvedAt = none)
    (hbehind : Behind interface a.hostname H (toLex (a.activatedAt, 2))) (n : Notice) :
    Expected interface (Function.update H id (some a)) n ↔
      Expected interface H n ∨ (a.notify = true ∧
        ((∃ pid p, H pid = some p ∧ a.primaryOf interface p ∧ p.downAt a.activatedAt ∧
            n = ⟨id, .escalated pid, a.activatedAt⟩) ∨
          ((∀ pid p, H pid = some p → a.primaryOf interface p → ¬ p.downAt a.activatedAt) ∧
            n = ⟨id, .fallbackOpened, a.activatedAt⟩))) := by
  have hself : Function.update H id (some a) id = some a := Function.update_self _ _ _
  have hkeep : ∀ {k x}, H k = some x → Function.update H id (some a) k = some x :=
    fun hx => (history_update hnew).mpr (Or.inr hx)
  -- the new outage is no primary's
  have hprimary : ∀ {k : String} {x f : Activation}, Function.update H id (some a) k = some x → f.primaryOf interface x →
      H k = some x := by
    intro k x f hx hof
    rcases (history_update hnew).mp hx with ⟨-, rfl⟩ | hx
    · exact absurd hof.2 hfallback
    · exact hx
  constructor
  · intro h
    cases h with
    | opened hp hnotify hinterface =>
        rcases (history_update hnew).mp hp with ⟨rfl, rfl⟩ | hp
        · exact absurd hinterface hfallback
        · exact Or.inl (.opened hp hnotify hinterface)
    | resolved hp hnotify hinterface hr =>
        rcases (history_update hnew).mp hp with ⟨rfl, rfl⟩ | hp
        · exact absurd hinterface hfallback
        · exact Or.inl (.resolved hp hnotify hinterface hr)
    | fallbackOpened hf hnotify hinterface hnone =>
        rcases (history_update hnew).mp hf with ⟨rfl, rfl⟩ | hf
        · exact Or.inr ⟨hnotify, Or.inr ⟨fun pid p hp => hnone pid p (hkeep hp), rfl⟩⟩
        · exact Or.inl (.fallbackOpened hf hnotify hinterface fun pid p hp => hnone pid p (hkeep hp))
    | fallbackResolved hf hnotify hinterface hr =>
        rcases (history_update hnew).mp hf with ⟨rfl, rfl⟩ | hf
        · rw [hopen] at hr
          cases hr
        · exact Or.inl (.fallbackResolved hf hnotify hinterface hr)
    | escalated hf' hnotify hinterface hp' hof hfdown hpdown =>
        have hp := hprimary hp' hof
        rcases (history_update hnew).mp hf' with ⟨rfl, rfl⟩ | hf
        · have hle := hbehind.activatedAt_le hp hof.1
          have hdown := (Activation.downAt_max hfdown hpdown).2
          rw [max_eq_left hle] at hdown ⊢
          exact Or.inr ⟨hnotify, Or.inl ⟨_, _, hp, hof, hdown, rfl⟩⟩
        · exact Or.inl (.escalated hf hnotify hinterface hp hof hfdown hpdown)
  · rintro (h | ⟨hnotify, ⟨pid, p, hp, hof, hdown, rfl⟩ | ⟨hnone, rfl⟩⟩)
    · exact h.continue (continues_activate hnew fun _ _ _ _ hof => absurd hof.2 hfallback)
    · have hexpected := Expected.escalated hself hnotify hfallback (hkeep hp) hof
        ⟨le_rfl, fun r hr => absurd (hopen.symm.trans hr) (by simp)⟩ hdown
      rwa [max_eq_left hdown.1] at hexpected
    · exact .fallbackOpened hself hnotify hfallback fun pid p hp hof =>
        hnone pid p (hprimary hp hof) hof

/-- The history after the outage `id` is resolved. -/
def History.resolve (H : History) (id : String) (r : Time) : History :=
  fun k => (H k).map fun a => { a with resolvedAt := if k = id then some r else a.resolvedAt }

section

variable {interface id : String} {H : History} {a : Activation} {r : Time} (ha : H id = some a)
  (hopen : a.resolvedAt = none)

include ha hopen

/-- An outage that lasts after a resolution lasted before. -/
lemma downAt_of_resolve {k : String} {x : Activation} {t : Time} (hx : H k = some x)
    (hdown : { x with resolvedAt := if k = id then some r else x.resolvedAt : Activation }.downAt t) :
    x.downAt t := by
  refine ⟨hdown.1, fun r' hr' => ?_⟩
  by_cases hk : k = id
  · rw [hk, ha] at hx
    rw [← Option.some.inj hx, hopen] at hr'
    cases hr'
  · exact hdown.2 r' (by rw [← hr']; exact if_neg hk)

/-- A resolution continues the history if nothing of the host comes after it. -/
lemma continues_resolve (hbehind : Behind interface a.hostname H (toLex (r, 0))) :
    Continues interface H (H.resolve id r) where
  kept {k x} hx := by
    refine ⟨_, Option.map_eq_some_iff.mpr ⟨x, hx, rfl⟩, rfl, rfl, fun h => h, rfl, fun r' hr' => ?_⟩
    split_ifs with hk
    · rw [hk, ha] at hx
      rw [← Option.some.inj hx, hopen] at hr'
      cases hr'
    · exact hr'
  primaries _ _ hp' hof hdown := by
    obtain ⟨p, hp, rfl⟩ := Option.map_eq_some_iff.mp hp'
    exact ⟨p, hp, hof, downAt_of_resolve ha hopen hp hdown⟩
  overlaps {k f f' k' p p' t} hf hf' hp hp' hof hfdown hpdown := by
    simp only [History.resolve, hf, Option.map_some, Option.some.injEq] at hf'
    simp only [History.resolve, hp, Option.map_some, Option.some.injEq] at hp'
    subst hf' hp'
    obtain ⟨hfmax, hpmax⟩ := Activation.downAt_max hfdown hpdown
    -- both are activated before the resolution, whichever of them it is
    have hbefore : k = id ∨ k' = id → max f.activatedAt p.activatedAt < r := by
      have hhost : k = id ∨ k' = id → f.hostname = a.hostname := by
        rintro (rfl | rfl)
        · rw [Option.some.inj (hf.symm.trans ha)]
        · rw [← hof.1, Option.some.inj (hp.symm.trans ha)]
      intro hid
      exact max_lt (hbehind.activatedAt_lt hf (hhost hid))
        (hbehind.activatedAt_lt hp (hof.1.trans (hhost hid)))
    refine ⟨max f.activatedAt p.activatedAt, ⟨hfmax.1, fun r' hr' => ?_⟩,
      ⟨hpmax.1, fun r' hr' => ?_⟩⟩
    · by_cases hk : k = id
      · simp only [if_pos hk] at hr'
        rw [← Option.some.inj hr']
        exact hbefore (Or.inl hk)
      · simp only [if_neg hk] at hr'
        exact hfmax.2 r' hr'
    · by_cases hk : k' = id
      · simp only [if_pos hk] at hr'
        rw [← Option.some.inj hr']
        exact hbefore (Or.inr hk)
      · simp only [if_neg hk] at hr'
        exact hpmax.2 r' hr'

/-- **A resolution** is announced. -/
theorem expected_resolve (hbehind : Behind interface a.hostname H (toLex (r, 0))) (n : Notice) :
    Expected interface (H.resolve id r) n ↔
      Expected interface H n ∨ (a.notify = true ∧
        n = ⟨id, if a.interface ≠ interface then .fallbackResolved else .resolved, r⟩) := by
  have hself : H.resolve id r id = some { a with resolvedAt := some r } := by
    simp [History.resolve, ha]
  constructor
  · intro h
    cases h with
    | opened hp' hnotify hinterface =>
        obtain ⟨p, hp, rfl⟩ := Option.map_eq_some_iff.mp hp'
        exact Or.inl (.opened (p := p) hp hnotify hinterface)
    | @resolved k _ r' hp' hnotify hinterface hr =>
        obtain ⟨p, hp, rfl⟩ := Option.map_eq_some_iff.mp hp'
        by_cases hk : k = id
        · obtain rfl := hk
          obtain rfl := Option.some.inj (hp.symm.trans ha)
          simp only [if_true] at hr
          rw [← Option.some.inj hr, if_neg (not_not.mpr hinterface)]
          exact Or.inr ⟨hnotify, rfl⟩
        · simp only [if_neg hk] at hr
          exact Or.inl (.resolved hp hnotify hinterface hr)
    | fallbackOpened hf' hnotify hinterface hnone =>
        obtain ⟨f, hf, rfl⟩ := Option.map_eq_some_iff.mp hf'
        refine Or.inl (.fallbackOpened (f := f) hf hnotify hinterface fun pid p hp hof hdown => ?_)
        refine hnone pid _ (Option.map_eq_some_iff.mpr ⟨p, hp, rfl⟩) hof
          ⟨hdown.1, fun r' hr' => ?_⟩
        by_cases hk : pid = id
        · simp only [if_pos hk] at hr'
          obtain rfl := hk
          obtain rfl := Option.some.inj (hp.symm.trans ha)
          rw [← Option.some.inj hr']
          exact hbehind.activatedAt_lt (a := f) hf hof.1.symm
        · simp only [if_neg hk] at hr'
          exact hdown.2 r' hr'
    | @fallbackResolved k _ r' hf' hnotify hinterface hr =>
        obtain ⟨f, hf, rfl⟩ := Option.map_eq_some_iff.mp hf'
        by_cases hk : k = id
        · obtain rfl := hk
          obtain rfl := Option.some.inj (hf.symm.trans ha)
          simp only [if_true] at hr
          rw [← Option.some.inj hr, if_pos hinterface]
          exact Or.inr ⟨hnotify, rfl⟩
        · simp only [if_neg hk] at hr
          exact Or.inl (.fallbackResolved hf hnotify hinterface hr)
    | escalated hf' hnotify hinterface hp' hof hfdown hpdown =>
        obtain ⟨f, hf, rfl⟩ := Option.map_eq_some_iff.mp hf'
        obtain ⟨p, hp, rfl⟩ := Option.map_eq_some_iff.mp hp'
        exact Or.inl (.escalated (f := f) (p := p) hf hnotify hinterface hp hof
          (downAt_of_resolve ha hopen hf hfdown) (downAt_of_resolve ha hopen hp hpdown))
  · rintro (h | ⟨hnotify, rfl⟩)
    · exact h.continue (continues_resolve ha hopen hbehind)
    · by_cases hinterface : a.interface = interface
      · rw [if_neg (not_not.mpr hinterface)]
        exact .resolved hself hnotify hinterface rfl
      · rw [if_pos hinterface]
        exact .fallbackResolved hself hnotify hinterface rfl

end

/-! ## One outage at a time -/

/-- An activation keeps a history orderly if the outages of its interface are resolved before
it. -/
lemma Orderly.activate {H : History} {id : String} {a : Activation} (h : Orderly H)
    (hnew : H id = none) (hopen : a.resolvedAt = none)
    (hbefore : ∀ id' a', H id' = some a' → a'.hostname = a.hostname → a'.interface = a.interface →
      ∃ r, a'.resolvedAt = some r ∧ r ≤ a.activatedAt) :
    Orderly (Function.update H id (some a)) := by
  have hapart : ∀ {id' a' t}, H id' = some a' → a'.hostname = a.hostname →
      a'.interface = a.interface → a.downAt t → ¬ a'.downAt t := by
    intro id' a' t ha' hhost hinterface hdown hdown'
    obtain ⟨r, hr, hle⟩ := hbefore id' a' ha' hhost hinterface
    exact absurd (hle.trans hdown.1) (not_le.mpr (hdown'.2 r hr))
  constructor
  · intro k k' x x' t hx hx' hhost hinterface hdown hdown'
    rcases (history_update hnew).mp hx with ⟨rfl, rfl⟩ | hold
    · rcases (history_update hnew).mp hx' with ⟨rfl, rfl⟩ | hold'
      · rfl
      · exact absurd hdown' (hapart hold' hhost.symm hinterface.symm hdown)
    · rcases (history_update hnew).mp hx' with ⟨rfl, rfl⟩ | hold'
      · exact absurd hdown (hapart hold hhost hinterface hdown')
      · exact h.apart hold hold' hhost hinterface hdown hdown'
  · intro k x r hx hr
    rcases (history_update hnew).mp hx with ⟨rfl, rfl⟩ | hold
    · rw [hopen] at hr
      cases hr
    · exact h.lasting hold hr

/-- A resolution keeps a history orderly if it comes after the activation. -/
lemma Orderly.resolve {H : History} {id : String} {a : Activation} {r : Time} (h : Orderly H)
    (ha : H id = some a) (hopen : a.resolvedAt = none) (hlt : a.activatedAt < r) :
    Orderly (H.resolve id r) := by
  constructor
  · intro k k' x x' t hx hx' hhost hinterface hdown hdown'
    obtain ⟨y, hy, rfl⟩ := Option.map_eq_some_iff.mp hx
    obtain ⟨y', hy', rfl⟩ := Option.map_eq_some_iff.mp hx'
    exact h.apart hy hy' hhost hinterface (downAt_of_resolve ha hopen hy hdown)
      (downAt_of_resolve ha hopen hy' hdown')
  · intro k x r' hx hr'
    obtain ⟨y, hy, rfl⟩ := Option.map_eq_some_iff.mp hx
    by_cases hk : k = id
    · simp only [if_pos hk] at hr'
      rw [hk, ha] at hy
      rw [← Option.some.inj hr', ← Option.some.inj hy]
      exact hlt
    · simp only [if_neg hk] at hr'
      exact h.lasting (a := y) hy hr'

/-! ## The notices of one outage -/

/-- What an outage of the primary interface calls for. -/
lemma expected_of_primary {interface id : String} {H : History} {a : Activation}
    (ha : H id = some a) (hnotify : a.notify = true) (hprimary : a.interface = interface)
    (n : Notice) :
    (Expected interface H n ∧ n.incidentID = id) ↔ n = ⟨id, .opened, a.activatedAt⟩ ∨
      ∃ r, a.resolvedAt = some r ∧ n = ⟨id, .resolved, r⟩ := by
  constructor
  · rintro ⟨h, rfl⟩
    cases h with
    | opened hp _ _ =>
        obtain rfl := Option.some.inj (hp.symm.trans ha)
        exact Or.inl rfl
    | resolved hp _ _ hr =>
        obtain rfl := Option.some.inj (hp.symm.trans ha)
        exact Or.inr ⟨_, hr, rfl⟩
    | fallbackOpened hf _ hinterface _ =>
        obtain rfl := Option.some.inj (hf.symm.trans ha)
        exact absurd hprimary hinterface
    | fallbackResolved hf _ hinterface _ =>
        obtain rfl := Option.some.inj (hf.symm.trans ha)
        exact absurd hprimary hinterface
    | escalated hf _ hinterface _ _ _ _ =>
        obtain rfl := Option.some.inj (hf.symm.trans ha)
        exact absurd hprimary hinterface
  · rintro (rfl | ⟨r, hr, rfl⟩)
    · exact ⟨.opened ha hnotify hprimary, rfl⟩
    · exact ⟨.resolved ha hnotify hprimary hr, rfl⟩

/-- **What an outage of a fallback calls for**: its announcement, by whether the primary interface
is down then; its resolution; and an escalation for every outage of the primary interface that
begins later and before it is resolved. -/
lemma expected_of_fallback {interface id : String} {H : History} {a : Activation}
    (horderly : Orderly H) (ha : H id = some a) (hnotify : a.notify = true)
    (hfallback : a.interface ≠ interface) (n : Notice) :
    (Expected interface H n ∧ n.incidentID = id) ↔
      ((∃ pid p, H pid = some p ∧ a.primaryOf interface p ∧ p.downAt a.activatedAt ∧
          n = ⟨id, .escalated pid, a.activatedAt⟩) ∨
        ((∀ pid p, H pid = some p → a.primaryOf interface p → ¬ p.downAt a.activatedAt) ∧
          n = ⟨id, .fallbackOpened, a.activatedAt⟩)) ∨
      (∃ r, a.resolvedAt = some r ∧ n = ⟨id, .fallbackResolved, r⟩) ∨
      ∃ pid p, H pid = some p ∧ a.primaryOf interface p ∧ a.activatedAt < p.activatedAt ∧
        (∀ r, a.resolvedAt = some r → p.activatedAt < r) ∧
        n = ⟨id, .escalated pid, p.activatedAt⟩ := by
  constructor
  · rintro ⟨h, rfl⟩
    cases h with
    | opened hp _ hinterface =>
        obtain rfl := Option.some.inj (hp.symm.trans ha)
        exact absurd hinterface hfallback
    | resolved hp _ hinterface _ =>
        obtain rfl := Option.some.inj (hp.symm.trans ha)
        exact absurd hinterface hfallback
    | fallbackOpened hf _ _ hnone =>
        obtain rfl := Option.some.inj (hf.symm.trans ha)
        exact Or.inl (Or.inr ⟨hnone, rfl⟩)
    | fallbackResolved hf _ _ hr =>
        obtain rfl := Option.some.inj (hf.symm.trans ha)
        exact Or.inr (Or.inl ⟨_, hr, rfl⟩)
    | @escalated _ pid _ p _ hf _ _ hp hof hfdown hpdown =>
        obtain rfl := Option.some.inj (ha.symm.trans hf)
        obtain ⟨hfmax, hpmax⟩ := Activation.downAt_max hfdown hpdown
        rcases le_or_gt p.activatedAt a.activatedAt with hle | hlt
        · rw [max_eq_left hle] at hpmax ⊢
          exact Or.inl (Or.inl ⟨pid, p, hp, hof, hpmax, rfl⟩)
        · rw [max_eq_right hlt.le] at hfmax ⊢
          exact Or.inr (Or.inr ⟨pid, p, hp, hof, hlt, hfmax.2, rfl⟩)
  · have hself : a.downAt a.activatedAt := ⟨le_rfl, fun r hr => horderly.lasting ha hr⟩
    rintro ((⟨pid, p, hp, hof, hdown, rfl⟩ | ⟨hnone, rfl⟩) | ⟨r, hr, rfl⟩ |
      ⟨pid, p, hp, hof, hlt, hbefore, rfl⟩)
    · have hexpected := Expected.escalated ha hnotify hfallback hp hof hself hdown
      rw [max_eq_left hdown.1] at hexpected
      exact ⟨hexpected, rfl⟩
    · exact ⟨.fallbackOpened ha hnotify hfallback hnone, rfl⟩
    · exact ⟨.fallbackResolved ha hnotify hfallback hr, rfl⟩
    · have hexpected := Expected.escalated ha hnotify hfallback hp hof ⟨hlt.le, hbefore⟩
        ⟨le_rfl, fun r hr => horderly.lasting hp hr⟩
      rw [max_eq_right hlt.le] at hexpected
      exact ⟨hexpected, rfl⟩

end Logthing
