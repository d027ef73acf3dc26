import Mathlib.Tactic.Linarith
import Logthing.Core.Paging
import Logthing.Core.Text
import Logthing.Incidents.Thresholds

/-!
# Pages of incidents

`handleIncidents` answers each request from a list it makes for that request: the incidents in the
order the map is visited in, sorted by a sort that is not stable, newest first.  `ListOrders` is
what the runtime makes of a request, and a client asks for page after page.

**Main results.**

* `Keyed.run`: every incident of every engine state is stored under its own ID.
* `incidents_paged_iff`: the pages hold every matching incident once, newest first, in every run of
  requests exactly where no two of them that started at the same instant stand on both sides of a
  boundary between pages.
-/

namespace Logthing.Api

open Sorting (Unstable Arranges)
open Paging

/-! ## The handler -/

/-- `incidents.Query`; the empty state is `none`. -/
structure Query where
  state : Option State := none
  limit : ℤ := 0
  offset : ℤ := 0

/-- What one request meets: the order each loop over a map visits it in, and what each sort makes
of elements it cannot tell apart. -/
structure ListOrders where
  incidents : Traversal String
  startedAt : Unstable Incident.startedAt
  jobs : String → Traversal String
  createdAt : String → Unstable fun job : NotificationJob => -job.createdAt

/-- `List`. -/
def list (orders : ListOrders) (query : Query) (svc : Service) : List Incident :=
  let items := orders.startedAt.sort
    (((orders.incidents.visit svc.state.incidents).map Prod.snd).filter
      fun incident => query.state.all (incident.state = ·))
  let start := query.offset.toNat
  if items.length ≤ start then []
  else
    let stop :=
      if 0 < query.limit ∧ start + query.limit < items.length then start + query.limit.toNat
      else items.length
    (items.drop start).take (stop - start)

/-- `NotificationsFor`. -/
def notificationsFor (orders : ListOrders) (svc : Service) (incidentID : String) :
    List NotificationJob :=
  (orders.createdAt incidentID).sort
    ((((orders.jobs incidentID).visit svc.state.jobs).map Prod.snd).filter
      fun job => job.incidentID = incidentID)

/-- The values of a request's query parameters, each empty where it is not given. -/
structure PageRequest where
  limit : String
  offset : String
  state : String

/-- `errorResponse`, with its status. -/
structure ErrorResponse where
  status : ℕ
  error : String
  deriving DecidableEq

/-- `messagesMeta`. -/
structure MessagesMeta where
  count : ℕ
  limit : ℤ
  offset : ℤ
  hasMore : Bool

/-- `incidentResponse`. -/
structure IncidentResponse where
  incident : Incident
  deliveries : List NotificationJob

/-- `incidentsResponse`. -/
structure IncidentsResponse where
  data : List IncidentResponse
  info : MessagesMeta

/-- A numeric query parameter: `default` where it is not given. -/
def parseParameter (value : String) (default : ℤ) (accepts : ℤ → Bool) (err : String) :
    Except String ℤ :=
  if value = "" then .ok default
  else
    match (Text.atoi value.toList).filter accepts with
    | some n => .ok n
    | none => .error err

/-- `parsePagination`. -/
def parsePagination (r : PageRequest) (defaultLimit maxLimit : ℤ) : Except String (ℤ × ℤ) := do
  let limit ← parseParameter r.limit defaultLimit (fun limit => 0 < limit && limit ≤ maxLimit)
    ("limit must be between 1 and " ++ toString maxLimit)
  let offset ← parseParameter r.offset 0 (fun offset => 0 ≤ offset) "offset must be zero or greater"
  return (limit, offset)

/-- Whether the handler takes a state to filter by. -/
def acceptsState (state : String) : Bool :=
  state = "" || state = "pending_failure" || state = "active" || state = "resolved"

/-- Whether an incident passes the loop's three `continue`s. -/
def selects (state : String) (incident : Incident) : Bool :=
  let active := incident.state = .active || incident.state = .pendingRecovery
  !(state = "pending_failure" && incident.state ≠ .pendingFailure) &&
    !(state = "active" && !active) &&
    !(state = "resolved" && incident.state ≠ .resolved)

/-- `handleIncidents`. -/
def handleIncidents (orders : ListOrders) (incidents : Option Service) (r : PageRequest) :
    Except ErrorResponse IncidentsResponse :=
  match incidents with
  | none => .error ⟨503, "incident processing unavailable"⟩
  | some svc =>
      match parsePagination r 100 1000 with
      | .error err => .error ⟨400, err⟩
      | .ok (limit, offset) =>
          let state := String.ofList (Text.trimSpace r.state.toList)
          if !acceptsState state then
            .error ⟨400, "state must be pending_failure, active, or resolved"⟩
          else
            let filtered := (list orders {} svc).filter (selects state)
            let start := min offset.toNat filtered.length
            let stop := min (start + limit.toNat) filtered.length
            .ok
              { data := ((filtered.drop start).take (stop - start)).map fun incident =>
                  ⟨incident, notificationsFor orders svc incident.id⟩
                info := ⟨stop - start, limit, offset, decide (stop < filtered.length)⟩ }

/-! ## A client that reads all pages -/

/-- The request for the `k`-th page. -/
def pageRequest (limit k : ℕ) (state : String) : PageRequest :=
  ⟨toString limit, toString (k * limit), state⟩

/-- The rows of the pages from the `k`-th on, if the last one comes within this many requests. -/
def readPages (orders : ℕ → ListOrders) (svc : Service) (limit : ℕ) (state : String) :
    ℕ → ℕ → Option (List IncidentResponse)
  | 0, _ => none
  | requests + 1, k =>
      match handleIncidents (orders k) (some svc) (pageRequest limit k state) with
      | .error _ => none
      | .ok response =>
          if response.info.hasMore then
            (readPages orders svc limit state requests (k + 1)).map (response.data ++ ·)
          else some response.data

/-- The incidents that match, in the order of their IDs. -/
def matching (state : String) (svc : Service) : List Incident :=
  (((Traversal.sorted String).visit svc.state.incidents).map Prod.snd).filter
    (selects (String.ofList (Text.trimSpace state.toList)))

/-- **Every matching incident exactly once, newest first**, in whatever a client reads that asks
for page after page. -/
def PagesCover (svc : Service) (limit : ℕ) (state : String) : Prop :=
  ∀ orders : ℕ → ListOrders, ∃ requests rows,
    readPages orders svc limit state requests 0 = some rows ∧
      Arranges Incident.startedAt (matching state svc) (rows.map IncidentResponse.incident)

/-! ## One page -/

/-- The list a request cuts its page from. -/
def filtered (orders : ListOrders) (svc : Service) (state : String) : List Incident :=
  (list orders {} svc).filter (selects (String.ofList (Text.trimSpace state.toList)))

lemma list_default (orders : ListOrders) (svc : Service) :
    list orders {} svc
      = orders.startedAt.sort ((orders.incidents.visit svc.state.incidents).map Prod.snd) := by
  simp only [list, Option.all_none, List.filter_true, Int.toNat_zero, List.drop_zero, lt_irrefl,
    false_and, if_false, Nat.sub_zero, List.take_length]
  split_ifs with hempty
  · exact (List.length_eq_zero_iff.mp (Nat.le_zero.mp hempty)).symm
  · rfl

/-- Every request finds the matching incidents, newest first. -/
lemma arranges_filtered (orders : ListOrders) (svc : Service) (state : String) :
    Arranges Incident.startedAt (matching state svc) (filtered orders svc state) := by
  have hsorted := orders.startedAt.arranges
    ((orders.incidents.visit svc.state.incidents).map Prod.snd)
  have hvisited := ((orders.incidents.visit_perm (.sorted String) svc.state.incidents).map Prod.snd)
  rw [filtered, list_default, matching]
  exact Arranges.filter ⟨hsorted.perm.trans hvisited, hsorted.ordered⟩ _

lemma parsePagination_pageRequest {limit k : ℕ} (hlimit : 1 ≤ limit ∧ limit ≤ 1000)
    (hk : k * limit < 2 ^ 63) (state : String) :
    parsePagination (pageRequest limit k state) 100 1000
      = .ok ((limit : ℤ), ((k * limit : ℕ) : ℤ)) := by
  have hgiven : ∀ n : ℕ, toString n ≠ "" := by
    intro n hn
    have hdigits := congrArg String.toList hn
    exact Nat.toDigits_ne_nil (Nat.toList_repr.symm.trans hdigits)
  have hpositive : (0 < (limit : ℤ) && (limit : ℤ) ≤ 1000) = true := by
    simp only [Bool.and_eq_true, decide_eq_true_eq]
    omega
  have hoffset : decide ((0 : ℤ) ≤ ((k * limit : ℕ) : ℤ)) = true := decide_eq_true (by omega)
  have hlimit63 : limit < 2 ^ 63 := by omega
  simp only [parsePagination, parseParameter, pageRequest, if_neg (hgiven _),
    Text.atoi_toString hlimit63, Text.atoi_toString hk, Option.filter_some, hpositive, hoffset,
    if_true]
  rfl

/-- **A page.**  It is cut from this request's list, and tells whether that goes on. -/
lemma handleIncidents_pageRequest {limit k : ℕ} (hlimit : 1 ≤ limit ∧ limit ≤ 1000)
    (hk : k * limit < 2 ^ 63) {state : String}
    (hstate : acceptsState (String.ofList (Text.trimSpace state.toList)) = true)
    (orders : ListOrders) (svc : Service) :
    ∃ response, handleIncidents orders (some svc) (pageRequest limit k state) = .ok response ∧
      response.data.map IncidentResponse.incident = page limit k (filtered orders svc state) ∧
      response.info.hasMore
        = decide ((k + 1) * limit < (filtered orders svc state).length) := by
  rw [handleIncidents, parsePagination_pageRequest hlimit hk]
  simp only [pageRequest, hstate, Bool.not_true, Bool.false_eq_true, if_false, Int.toNat_natCast]
  refine ⟨_, rfl, ?_, ?_⟩
  · rw [← page_clamped, List.map_map]
    exact List.map_id _
  · refine decide_eq_decide.mpr ?_
    simp only [filtered, Nat.add_one_mul]
    omega

/-! ## All pages -/

variable {orders : ℕ → ListOrders} {svc : Service} {limit : ℕ} {state : String}

/-- How many requests a client may make does not change what it reads. -/
lemma readPages_unique {requests requests' k : ℕ} {rows rows' : List IncidentResponse}
    (h : readPages orders svc limit state requests k = some rows)
    (h' : readPages orders svc limit state requests' k = some rows') : rows = rows' := by
  induction requests generalizing requests' k rows rows' with
  | zero => cases h
  | succ requests ih =>
      cases requests' with
      | zero => cases h'
      | succ requests' =>
          rw [readPages] at h h'
          cases hresponse : handleIncidents (orders k) (some svc) (pageRequest limit k state) with
          | error err =>
              rw [hresponse] at h
              cases h
          | ok response =>
              rw [hresponse] at h h'
              simp only at h h'
              split_ifs at h h'
              · obtain ⟨rest, hrest, rfl⟩ := Option.map_eq_some_iff.mp h
                obtain ⟨rest', hrest', rfl⟩ := Option.map_eq_some_iff.mp h'
                rw [ih hrest hrest']
              · exact Option.some.inj (h.symm.trans h')

/-- The client gets to the last page, and reads each from that request's list. -/
lemma exists_readPages (hlimit : 1 ≤ limit ∧ limit ≤ 1000)
    (hstate : acceptsState (String.ofList (Text.trimSpace state.toList)) = true)
    (hlen : (matching state svc).length < 2 ^ 63) (orders : ℕ → ListOrders) (n : ℕ) :
    ∀ k, ((k + n) * limit < (matching state svc).length ∨ k + n = 0) →
      (matching state svc).length ≤ (k + n + 1) * limit →
      ∃ rows, readPages orders svc limit state (n + 1) k = some rows ∧
        rows.map IncidentResponse.incident
          = pages limit (fun j => filtered (orders j) svc state) k (n + 1) := by
  induction n with
  | zero =>
      intro k hlow hhigh
      have hk : k * limit < 2 ^ 63 := by
        rcases hlow with hlow | hzero
        · exact hlow.trans hlen
        · simp only [Nat.add_zero] at hzero
          simp [hzero]
      obtain ⟨response, hok, hdata, hmore⟩ :=
        handleIncidents_pageRequest hlimit hk hstate (orders k) svc
      rw [(arranges_filtered (orders k) svc state).perm.length_eq,
        decide_eq_false (not_lt.mpr hhigh)] at hmore
      refine ⟨response.data, ?_, ?_⟩
      · simp [readPages, hok, hmore]
      · rw [hdata, pages, pages, List.append_nil]
  | succ n ih =>
      intro k hlow hhigh
      have hnext : (k + 1 + n) * limit < (matching state svc).length := by
        rw [Nat.add_assoc, Nat.add_comm 1 n]
        exact hlow.resolve_right (by omega)
      have hmore' : (k + 1) * limit < (matching state svc).length :=
        (Nat.mul_le_mul_right limit (by omega)).trans_lt hnext
      have hk : k * limit < 2 ^ 63 :=
        ((Nat.mul_le_mul_right limit (by omega)).trans_lt hmore').trans hlen
      obtain ⟨response, hok, hdata, hmore⟩ :=
        handleIncidents_pageRequest hlimit hk hstate (orders k) svc
      rw [(arranges_filtered (orders k) svc state).perm.length_eq, decide_eq_true hmore'] at hmore
      obtain ⟨rows, hrows, hpages⟩ := ih (k + 1) (Or.inl hnext) (by
        rw [Nat.add_right_comm k 1 n]
        exact hhigh)
      refine ⟨response.data ++ rows, ?_, ?_⟩
      · rw [readPages, hok]
        simp [hmore, hrows]
      · rw [List.map_append, hdata, hpages]
        rfl

/-- **What a client reads** is one page of each request's list, as many as there are. -/
lemma readPages_all (hlimit : 1 ≤ limit ∧ limit ≤ 1000)
    (hstate : acceptsState (String.ofList (Text.trimSpace state.toList)) = true)
    (hlen : (matching state svc).length < 2 ^ 63) :
    ∃ n, (matching state svc).length ≤ n * limit ∧ ∀ orders : ℕ → ListOrders,
      ∃ rows, readPages orders svc limit state n 0 = some rows ∧
        rows.map IncidentResponse.incident
          = pages limit (fun j => filtered (orders j) svc state) 0 n := by
  have hlow := Nat.div_mul_le_self ((matching state svc).length - 1) limit
  have hhigh := Nat.lt_div_mul_add (a := (matching state svc).length - 1) hlimit.1
  have henough : (matching state svc).length
      ≤ (((matching state svc).length - 1) / limit + 1) * limit := by
    rw [Nat.add_one_mul]
    omega
  refine ⟨_, henough, fun orders => exists_readPages hlimit hstate hlen orders _ 0 ?_ ?_⟩
  · rw [Nat.zero_add]
    rcases Nat.eq_zero_or_pos (matching state svc).length with hzero | hpos
    · exact Or.inr (by rw [hzero, Nat.zero_sub, Nat.zero_div])
    · exact Or.inl (by omega)
  · rw [Nat.zero_add]
    exact henough

/-! ## Incident IDs -/

/-- Every incident is stored under its own ID. -/
def Keyed (incidents : Dict String Incident) : Prop :=
  ∀ id incident, incidents.lookup id = some incident → incident.id = id

namespace Keyed

variable {incidents : Dict String Incident} {s : Snapshot}

lemma empty : Keyed ∅ := fun _ _ h => nomatch h

lemma insert (h : Keyed incidents) (incident : Incident) :
    Keyed (incidents.insert incident.id incident) := by
  intro id i hi
  rw [Dict.lookup_insert_ite] at hi
  split_ifs at hi with hid
  · rw [← Option.some.inj hi, hid]
  · exact h id i hi

lemma erase (h : Keyed incidents) (id : String) : Keyed (incidents.erase id) := by
  intro id' i hi
  rw [Dict.lookup_erase_ite] at hi
  split_ifs at hi
  exact h id' i hi

lemma updateIncident (h : Keyed incidents) (id : String) (f : Incident → Incident) :
    Keyed (updateIncident incidents id f) := by
  rw [Logthing.updateIncident]
  cases incidents.lookup id with
  | none => exact h
  | some incident => exact h.insert (f incident)

/-- A timer's turn stores incidents under their IDs. -/
lemma advanceOne (h : Keyed s.incidents) (interface : String) (orders : Orders) (key : String)
    (current : Tracker) : Keyed (advanceOne interface orders key current s).incidents := by
  rw [Logthing.advanceOne]
  cases s.incidents.lookup current.incidentID with
  | none => exact h
  | some incident =>
      dsimp only
      split_ifs
      · exact h.insert _
      · exact h.insert _

lemma advance (h : Keyed s.incidents) (interface : String) (orders : Schedule) (now : Time) :
    Keyed (advance interface orders now s).1.incidents :=
  advance_rule (fun s => Keyed s.incidents) (fun _ _ hs => hs.advanceOne _ _ _ _) orders s h

lemma react (h : Keyed incidents) (eng : Engine) (evidence : Evidence) (notifyEligible : Bool)
    (current : Tracker) : Keyed (react eng evidence notifyEligible current incidents).2 := by
  rw [Logthing.react]
  split
  · exact h.insert (openedIncident eng evidence notifyEligible _)
  · exact h.insert (openedIncident eng evidence notifyEligible _)
  · exact h.updateIncident _ _
  · exact h.updateIncident _ _
  · exact h.updateIncident _ _
  · exact h
  · exact h
  · exact h.erase _
  · exact h.updateIncident _ _
  · exact h.updateIncident _ _

lemma observeEvidence (h : Keyed s.incidents) (eng : Engine) (evidence : Evidence)
    (notifyEligible : Bool) : Keyed (observeEvidence eng evidence notifyEligible s).incidents := by
  simp only [Logthing.observeEvidence]
  split_ifs
  · exact h
  · exact h.react _ _ _ _

lemma observeLocked (h : Keyed s.incidents) (eng : Engine) (orders : Schedule) (message : Message)
    (notifyEligible : Bool) (sourceRef : String) :
    Keyed (observeLocked eng orders message notifyEligible sourceRef s).incidents := by
  rw [Logthing.observeLocked]
  cases classify message eng.interface with
  | none => exact h
  | some evidence =>
      dsimp only
      split_ifs
      · exact h
      · exact h
      · exact h
      · exact (h.advance eng.interface orders evidence.at_).observeEvidence _ _ _

lemma observeAll (eng : Engine) (orders : ℕ → Schedule) (os : List Observation)
    (h : Keyed s.incidents) : Keyed (observeAll eng orders os s).incidents := by
  induction os generalizing orders s with
  | nil => exact h
  | cons o os ih => exact ih _ (h.observeLocked eng (orders 0) o.message o.notifyEligible o.sourceRef)

lemma restoreNotify (h : Keyed incidents) (order : Traversal String)
    (previous : Dict String Incident) : Keyed (restoreNotify order previous incidents) := by
  intro id incident hi
  rw [lookup_restoreNotify, Option.map_eq_some_iff] at hi
  obtain ⟨before, hbefore, rfl⟩ := hi
  exact h id before hbefore

/-- **Every call keeps incidents under their IDs.** -/
lemma call {svc : Service} (h : Keyed svc.state.incidents) (eng : Engine) (op : Operation) :
    Keyed (svc.call eng op).state.incidents := by
  have hmark : ∀ id change outcome, Keyed (svc.markJob id change outcome).1.state.incidents := by
    intro id change outcome
    obtain ⟨jobs, hstate⟩ := svc.markJob_state id change outcome
    rw [hstate]
    exact h
  cases op with
  | observe orders message notifyEligible outcome =>
      rw [Service.call, Service.observe_state]
      exact h.observeLocked eng orders message notifyEligible ""
  | apply orders observations cursors checkpointAt outcome =>
      rw [Service.call, Service.apply_state]
      exact h.observeAll eng orders observations
  | tick orders now outcome =>
      rw [Service.call, Service.tick_state]
      exact h.advance eng.interface orders now
  | rebuild orders after observations cursors checkpointAt outcome =>
      rw [Service.call, Service.rebuild_state]
      exact (observeAll eng orders observations empty).restoreNotify after.incidents _
  | markNotificationSent id adapter externalID at_ outcome => exact hmark _ _ _
  | markNotificationFailed id message next permanent outcome => exact hmark _ _ _
  | setCursors cursors outcome =>
      rw [Service.call, Service.setCursors_state]
      exact h

lemma restart {svc : Service} (h : Keyed svc.state.incidents) (order : Traversal String) :
    Keyed ((svc.save none).1.restart order).state.incidents := by
  simp only [Service.restart, Service.load, Service.save]
  split_ifs
  · exact empty
  · exact empty
  · exact h

/-- **Every process keeps incidents under their IDs**, through calls and restarts. -/
lemma run {p : Process} (h : Keyed p.svc.state.incidents) (steps : List ProcessStep) :
    Keyed (p.run steps).svc.state.incidents := by
  induction steps generalizing p with
  | nil => exact h
  | cons step steps ih =>
      refine ih ?_
      cases step with
      | call op => exact h.call p.eng op
      | restart order downAfter recoveredAfter hdown hrecovered => exact h.restart order

/-- So no two entries are the same incident. -/
lemma nodup_matching {svc : Service} (h : Keyed svc.state.incidents) (state : String) :
    (matching state svc).Nodup := by
  rw [matching]
  refine List.Nodup.filter _ (List.Nodup.of_map Incident.id ?_)
  have hids : ((Traversal.sorted String).visit svc.state.incidents).map (Incident.id ∘ Prod.snd)
      = ((Traversal.sorted String).visit svc.state.incidents).map Prod.fst := by
    refine List.map_congr_left fun kv hkv => h kv.1 kv.2 ?_
    exact ((Traversal.sorted String).mem_visit _ _ _).mp hkv
  rw [List.map_map, hids]
  exact (Traversal.sorted String).nodup _

end Keyed

/-! ## Every state -/

/-- **Pages of incidents.**  In every state an engine can be in, for every limit and filter the
handler takes, the pages a client reads hold every matching incident exactly once, newest first,
whatever the orders of the loops and the sorts, if and only if no boundary between two pages comes
between matching incidents that started at the same instant. -/
theorem incidents_paged_iff (eng : Engine) (steps : List ProcessStep) (limit : ℕ)
    (hlimit : 1 ≤ limit ∧ limit ≤ 1000) (state : String)
    (hstate : acceptsState (String.ofList (Text.trimSpace state.toList)) = true)
    (hlen : (matching state (Process.run ⟨eng, {}⟩ steps).svc).length < 2 ^ 63) :
    PagesCover (Process.run ⟨eng, {}⟩ steps).svc limit state ↔
      ¬ Straddled Incident.startedAt limit (matching state (Process.run ⟨eng, {}⟩ steps).svc) := by
  have hkeyed : Keyed (Process.run ⟨eng, {}⟩ steps).svc.state.incidents :=
    Keyed.run (p := ⟨eng, {}⟩) Keyed.empty steps
  generalize (Process.run ⟨eng, {}⟩ steps).svc = svc at hlen hkeyed ⊢
  obtain ⟨n, henough, hread⟩ := readPages_all hlimit hstate hlen
  constructor
  · intro hcover hstraddled
    obtain ⟨lists, hlists, hnot⟩ := exists_not_perm_pages (hkeyed.nodup_matching state) hstraddled
    -- every list of pages is what some sorts make of the requests
    have hsort : ∀ k, ∃ orders, filtered orders svc state = lists k := by
      intro k
      obtain ⟨whole, hwhole, hfilter⟩ := (hlists k).exists_filter
      obtain ⟨startedAt, hsort⟩ := hwhole.exists_sort
      refine ⟨⟨.sorted String, startedAt, fun _ => .sorted String,
        fun _ => Sorting.insertion _⟩, ?_⟩
      rw [filtered, list_default]
      exact (congrArg _ hsort).trans hfilter
    choose orders horders using hsort
    obtain ⟨requests, rows, hrows, harranged⟩ := hcover orders
    obtain ⟨rows', hrows', hpages⟩ := hread orders
    rw [readPages_unique hrows hrows', hpages, funext horders] at harranged
    exact hnot n henough harranged.perm
  · intro hclean orders
    obtain ⟨rows, hrows, hpages⟩ := hread orders
    refine ⟨n, rows, hrows, ?_⟩
    rw [hpages]
    exact arranges_pages (fun k => arranges_filtered (orders k) svc state) hclean henough

/-! ## Two interfaces that fail at once -/

/-- `wwan` of `gw` goes down in the second in which `wan` does. -/
def wwanDown : Observation where
  message :=
    { id := "two", receivedAt := 1000000000, hostname := "gw", tag := "netifd"
      message := "Interface 'wwan' is now down" }
  notifyEligible := true
  sourceRef := "events/0001/01/events.ndjson:2"

/-- `incidentID` on the two failures, and on an earlier one of `tethering`. -/
def pairIDs : IncidentIDs where
  incidentID _ interface _ _ :=
    if interface = "wan" then "8d4663d6450447b8"
    else if interface = "tethering" then "1f2d7a4b90c35e68"
    else "45530ec478d66d54"
  nonempty h i s m := by split_ifs <;> decide
  noColon h i s m := by split_ifs <;> decide

/-- An engine that waits a minute for an outage and for a recovery. -/
def pairEngine : Engine := { sampleEngine with ids := pairIDs }

/-- Both failures are read. -/
def pairRun : List ProcessStep :=
  [.call (.apply (fun _ => sortedSchedule) [wanDown, wwanDown] ∅ 1000000000 none)]

/-- Requests that visit the map in the order of the IDs, and sort in turn keeping and turning
around what started at the same instant. -/
def pairOrders (k : ℕ) : ListOrders where
  incidents := .inserted String
  startedAt := if k % 2 = 0 then Sorting.insertion _ else Sorting.insertionReversed _
  jobs _ := .inserted String
  createdAt _ := Sorting.insertion _

/-- The engine once both failures are read. -/
def pairService : Service := (Process.run ⟨pairEngine, {}⟩ pairRun).svc

lemma matching_pair :
    (matching "" pairService).map Incident.id = ["45530ec478d66d54", "8d4663d6450447b8"] := by
  rw [matching, Traversal.sorted_visit]
  decide +kernel

/-- One incident is on both pages and the other on none. -/
lemma readPages_pair : ((readPages pairOrders pairService 1 "" 2 0).map fun rows =>
    rows.map fun row => row.incident.id) = some ["45530ec478d66d54", "45530ec478d66d54"] := by
  decide +kernel

/-- **Pages do not cover.**  `wan` and `wwan` of one host fail in the same second, and a client
reads them one by one. -/
theorem pair_not_covered : ¬ PagesCover (Process.run ⟨pairEngine, {}⟩ pairRun).svc 1 "" := by
  intro hcover
  obtain ⟨requests, rows, hrows, harranged⟩ := hcover pairOrders
  obtain ⟨rows', hrows', hids⟩ := Option.map_eq_some_iff.mp readPages_pair
  rw [readPages_unique hrows hrows'] at harranged
  have hperm := harranged.perm.map Incident.id
  rw [List.map_map] at hperm
  have := (hids ▸ matching_pair ▸ hperm : ["45530ec478d66d54", "45530ec478d66d54"].Perm
    ["45530ec478d66d54", "8d4663d6450447b8"])
  exact absurd this (by decide)

/-- `tethering` has failed half a second before, and the process starts anew in between. -/
def tripleRun : List ProcessStep :=
  [.call (.apply (fun _ => forwards)
      [sampleRecord "zero" "gw" "netifd" "Interface 'tethering' is now down" 500000000] ∅ 500000000
      none),
    .restart (.inserted String) _ _ sampleEngine.downAfter_pos sampleEngine.recoveredAfter_pos,
    .call (.apply (fun _ => forwards) [wanDown, wwanDown] ∅ 1000000000 none)]

/-- Two pages of two hold the three incidents; of pages of one, a boundary comes between the pair. -/
theorem incidents_paged_iff_pair :
    PagesCover (Process.run ⟨pairEngine, {}⟩ tripleRun).svc 2 "" ∧
      ¬ PagesCover (Process.run ⟨pairEngine, {}⟩ tripleRun).svc 1 "" := by
  have hstarted : (matching "" (Process.run ⟨pairEngine, {}⟩ tripleRun).svc).map Incident.startedAt
      = [500000000, 1000000000, 1000000000] := by
    rw [matching, Traversal.sorted_visit]
    decide +kernel
  have hlen : (matching "" (Process.run ⟨pairEngine, {}⟩ tripleRun).svc).length < 2 ^ 63 := by
    rw [← List.length_map Incident.startedAt, hstarted]
    decide
  have hcount : ∀ p : Time → Bool,
      (matching "" (Process.run ⟨pairEngine, {}⟩ tripleRun).svc).countP (fun i => p i.startedAt)
        = [500000000, 1000000000, 1000000000].countP p := by
    intro p
    rw [← hstarted, List.countP_map]
    rfl
  constructor
  · rw [incidents_paged_iff pairEngine tripleRun 2 (by decide) "" (by decide) hlen]
    rintro ⟨t, k, hbefore, hafter⟩
    rw [hcount (decide <| t < ·)] at hbefore
    rw [hcount (decide <| t ≤ ·)] at hafter
    simp only [List.countP_cons, List.countP_nil, decide_eq_true_eq] at hbefore hafter
    split_ifs at hbefore hafter <;> first | omega | linarith
  · rw [incidents_paged_iff pairEngine tripleRun 1 (by decide) "" (by decide) hlen, not_not]
    refine ⟨1000000000, 1, ?_, ?_⟩
    · rw [hcount (decide <| 1000000000 < ·)]
      decide
    · rw [hcount (decide <| 1000000000 ≤ ·)]
      decide

end Logthing.Api
