import Logthing.Core.Calendar
import Logthing.Core.Float64
import Logthing.Incidents.KeptJobs
import Logthing.Incidents.Runs

/-!
# Delivering notifications

`Worker.dispatch` passes every job that is due to the notifier and records what becomes of it.
`Delivery` is one turn of its loop, as the environment made it: the answer of the notifier and the
outcome of the save.

`Outlives` says what may become of a job between two states, given the deliveries between them, and
it composes (`Outlives.trans`), so that a run keeps what each of its steps keeps.

**Main results.**  `outbox_safe`: in every run a job stays what it is about, is sent only when it is
due and pending, and stops being pending only by a delivery that was recorded.
-/

namespace Logthing

/-! ## Notifications -/

/-- `notification.Notification`. -/
structure Notification where
  eventID : String
  kind : NotificationKind
  severity : String
  title : String
  body : String
  occurredAt : Time
  incidentID : String
  link : String := ""

/-- What the worker delivers with, besides the notifier. -/
structure Courier where
  publicURL : String
  /-- The verb `%q` of `fmt`. -/
  quote : String → String

/-- `fmtFrac`: the last `prec` digits of a number after a point, without the zeros at their end. -/
def fraction (v prec : ℕ) : List Char :=
  let digits := (Calendar.formatPadded prec (v % 10 ^ prec)).rdropWhile (· = '0')
  if digits = [] then [] else '.' :: digits

/-- `Duration.String`. -/
def Duration.text (d : Duration) : String :=
  let u := Int.natAbs d
  let second := 10 ^ 9
  let text :=
    if u = 0 then ['0', 's']
    else if u < 10 ^ 3 then Nat.toDigits 10 u ++ ['n', 's']
    else if u < 10 ^ 6 then Nat.toDigits 10 (u / 10 ^ 3) ++ fraction u 3 ++ ['µ', 's']
    else if u < second then Nat.toDigits 10 (u / 10 ^ 6) ++ fraction u 6 ++ ['m', 's']
    else
      let seconds := u / second
      let text := Nat.toDigits 10 (seconds % 60) ++ fraction u 9 ++ ['s']
      let minutes := seconds / 60
      if minutes = 0 then text
      else
        let text := Nat.toDigits 10 (minutes % 60) ++ 'm' :: text
        let hours := minutes / 60
        if hours = 0 then text else Nat.toDigits 10 hours ++ 'h' :: text
  String.ofList (if d < 0 then '-' :: text else text)

/-- A duration that an `int64` holds. -/
def Duration.saturate (d : Duration) : Duration := max (-2 ^ 63) (min d (2 ^ 63 - 1))

/-- `t.Sub(u)`. -/
def Time.sub (t u : Time) : Duration := Duration.saturate (t - u)

/-- `d.Round(time.Second)`: halves go away from zero. -/
def Duration.roundSecond (d : Duration) : Duration :=
  let second := 1000000000
  let rounded : ℤ := (Int.natAbs d + second / 2) / second * second
  Duration.saturate (if d < 0 then -rounded else rounded)

/-- `fallbackName`. -/
def fallbackName (iface : String) : String :=
  if iface = "wwan" then "Starlink"
  else if iface = "tethering" then "4G tethering"
  else iface

/-- `notificationFor`. -/
def notificationFor (c : Courier) (job : NotificationJob) (incident : Incident) :
    Except String Notification :=
  let message (kind : NotificationKind) (severity title body : String) : Notification :=
    { eventID := job.id, kind, severity, title, body, occurredAt := job.createdAt
      incidentID := incident.id }
  let subject := incident.hostname ++ " " ++ incident.interface
  let recovery := subject ++ " was healthy continuously for " ++
    Duration.text incident.recoveredAfter ++ ". Incident duration: " ++
    Duration.text (Duration.roundSecond (Time.sub job.createdAt incident.startedAt)) ++ "."
  match job.kind with
  | .fallbackResolved =>
      .ok (message .fallbackResolved "info"
        ("🟢 " ++ fallbackName incident.interface ++ " backup recovered") recovery)
  | .fallbackEscalated =>
      .ok (message .fallbackEscalated "critical"
        ("🔴 Primary WAN and " ++ fallbackName incident.interface ++ " backup down")
        (subject ++ " has also been offline for " ++ Duration.text incident.downAfter ++
          ". Remaining connectivity is unknown."))
  | .fallbackOpened =>
      .ok (message .fallbackOpened "warning"
        ("🟠 " ++ fallbackName incident.interface ++ " backup down")
        (subject ++ " has been offline for " ++ Duration.text incident.downAfter ++
          "; primary WAN remains healthy."))
  | .resolved => .ok (message .resolved "info" "🟢 Primary WAN recovered" recovery)
  | .opened =>
      .ok (message .opened "critical" "🔴 Primary WAN down"
        (subject ++ " has been offline for " ++ Duration.text incident.downAfter ++
          ". Backup connectivity is unknown."))
  | kind => .error ("unsupported notification kind " ++ c.quote kind.text)

/-! ## Dispatching -/

/-- The sum of `fnv.New32a`. -/
def fnv32a (data : List UInt8) : ℕ :=
  data.foldl (fun hash b => (hash ^^^ b.toNat) * 16777619 % 2 ^ 32) 2166136261

/-- `retryDelay`; attempts count from one. -/
def retryDelay (jobID : String) (attempt : ℕ) : Duration :=
  let minutes : ℕ := min (2 ^ (attempt - 1)) 60
  let base : ℕ := minutes * 60000000000
  let spread : ℕ := fnv32a jobID.toUTF8.data.toList % 2001
  let jitter := Float64.nearest (Float64.nearest (9 / 10) + Float64.nearest (spread / 10000))
  ⌊Float64.nearest (base * jitter)⌋

/-- A retry is put off. -/
lemma retryDelay_pos (jobID : String) (attempt : ℕ) : 0 < retryDelay jobID attempt := by
  have hminutes : 1 ≤ min (2 ^ (attempt - 1)) 60 := le_min (Nat.one_le_two_pow) (by decide)
  rw [retryDelay]
  generalize min (2 ^ (attempt - 1)) 60 = minutes at hminutes ⊢
  generalize fnv32a jobID.toUTF8.data.toList % 2001 = spread
  have hbase : (60000000000 : ℚ) ≤ ((minutes * 60000000000 : ℕ) : ℚ) := by
    exact_mod_cast Nat.le_mul_of_pos_left 60000000000 hminutes
  have hspread : 0 ≤ Float64.nearest ((spread : ℚ) / 10000) :=
    Float64.nearest_nonneg (by positivity)
  -- each rounding leaves more than a half, of a product of sixty thousand million
  have htenths := Float64.half_lt_nearest (q := 9 / 10) (by norm_num)
  have hsum : 0 < Float64.nearest (9 / 10) + Float64.nearest ((spread : ℚ) / 10000) := by linarith
  have hjitter := Float64.half_lt_nearest hsum
  have hproduct : 60000000000 * (1 / 5) ≤ ((minutes * 60000000000 : ℕ) : ℚ) *
      Float64.nearest (Float64.nearest (9 / 10) + Float64.nearest ((spread : ℚ) / 10000)) :=
    mul_le_mul hbase (by linarith) (by norm_num) (by linarith)
  have hrounded := Float64.half_lt_nearest (lt_of_lt_of_le (by norm_num) hproduct)
  exact Int.floor_pos.mpr (by linarith)

/-- `notification.SendError`, as far as the worker reads it. -/
structure SendError where
  permanent : Bool
  retryAfter : Duration

/-- What `notifier.Send` returns: a receipt, or an error that may be a `SendError`. -/
inductive SendResult where
  | receipt (adapter externalID : String)
  | error (text : String) (sendError : Option SendError)

/-- One turn of the loop of `dispatch`: the job, its incident and the job under its ID when the turn
comes, and what the environment makes of it. -/
structure Delivery where
  job : NotificationJob
  stored : Option NotificationJob
  incident : Option Incident
  now : Time
  result : SendResult
  outcome : SaveOutcome

/-- The message a turn sends, or why it sends none. -/
def Delivery.message (c : Courier) (d : Delivery) : Except String Notification :=
  match d.incident with
  | none => .error "incident not found"
  | some incident =>
      match notificationFor c d.job incident with
      | .error err => .error err
      | .ok message =>
          .ok (if c.publicURL ≠ "" then
            { message with link := c.publicURL ++ "/?incident=" ++ incident.id } else message)

/-- What a turn records. -/
def Delivery.record (c : Courier) (d : Delivery) (svc : Service) : Service × Option MarkError :=
  match d.message c with
  | .error text => svc.markNotificationFailed d.job.id text d.now true d.outcome
  | .ok _ =>
      match d.result with
      | .receipt adapter externalID =>
          svc.markNotificationSent d.job.id adapter externalID d.now d.outcome
      | .error text none =>
          svc.markNotificationFailed d.job.id text
            (d.now + retryDelay d.job.id (d.job.attempts + 1)) false d.outcome
      | .error text (some err) =>
          svc.markNotificationFailed d.job.id text
            (if 0 < err.retryAfter then d.now + err.retryAfter
              else d.now + retryDelay d.job.id (d.job.attempts + 1)) err.permanent d.outcome

/-- `DueNotifications`; `sort.Slice` may leave jobs of one time in any order, as `order` does. -/
def dueNotifications (order : Traversal String) (now : Time) (s : Snapshot) :
    List NotificationJob :=
  (((order.visit s.jobs).map Prod.snd).filter (·.isDue now)).mergeSort
    fun a b => a.createdAt ≤ b.createdAt

/-- What the environment makes of a turn. -/
structure Turn where
  result : SendResult
  outcome : SaveOutcome

/-- The loop of `dispatch`: the service afterwards, the turns taken, and the error of the last. -/
def dispatchAll (c : Courier) (now : Time) : (ℕ → Turn) → List NotificationJob → Service →
    Service × List Delivery × Option MarkError
  | _, [], svc => (svc, [], none)
  | turns, job :: jobs, svc =>
      let d : Delivery :=
        { job, stored := svc.state.jobs.lookup job.id
          incident := svc.state.incidents.lookup job.incidentID
          now, result := (turns 0).result, outcome := (turns 0).outcome }
      match d.record c svc with
      | (svc, some err) => (svc, [d], some err)
      | (svc, none) =>
          let rest := dispatchAll c now (fun n => turns (n + 1)) jobs svc
          (rest.1, d :: rest.2.1, rest.2.2)

/-- `dispatch`. -/
def Service.dispatch (c : Courier) (order : Traversal String) (turns : ℕ → Turn) (now : Time)
    (svc : Service) : Service × List Delivery × Option MarkError :=
  dispatchAll c now turns (dueNotifications order now svc.state) svc

example : Duration.text 60000000000 = "1m0s" := by decide +kernel

/-! ## What becomes of a job -/

/-- A turn passes its job to the notifier. -/
def Delivery.Sends (c : Courier) (d : Delivery) : Prop := ∃ message, d.message c = .ok message

/-- A turn after which its job is not pending any more: the receipt was saved, or the job was
recorded as permanent, because the notifier said so, its kind is unknown or its incident missing. -/
inductive Delivery.Settles (c : Courier) (d : Delivery) : Prop
  | received (hsaved : d.outcome = none) (hsends : d.Sends c) (adapter externalID : String)
      (hresult : d.result = .receipt adapter externalID)
  | refused (hsaved : d.outcome = none) (hsends : d.Sends c) (text : String) (err : SendError)
      (hresult : d.result = .error text (some err)) (hpermanent : err.permanent = true)
  | missing (hsaved : d.outcome = none) (h : d.incident = none)
  | unknown (hsaved : d.outcome = none) (h : d.job.kind = .test ∨ ∃ text, d.job.kind = .other text)

/-- **What becomes of a job** between two states, over the turns between them. -/
structure Outlives (c : Courier) (log : List Delivery) (job job' : NotificationJob) : Prop where
  fact_eq : job'.fact = job.fact
  left : job.isPending = true → job'.isPending = false →
    ∃ d ∈ log, d.job.id = job.id ∧ d.Settles c
  sends : ∀ d ∈ log, d.job.id = job.id → d.Sends c →
    d.stored = some d.job ∧ d.job.isPending = true ∧ d.job.nextAt ≤ d.now
  silent : job.isPending = false →
    job'.isPending = false ∧ ∀ d ∈ log, d.job.id = job.id → ¬ d.Sends c

namespace Outlives

variable {c : Courier}

lemma refl (job : NotificationJob) : Outlives c [] job job where
  fact_eq := rfl
  left h h' := absurd (h.symm.trans h') (by decide)
  sends _ hd := absurd hd List.not_mem_nil
  silent h := ⟨h, fun _ hd => absurd hd List.not_mem_nil⟩

lemma id_eq {log : List Delivery} {job job' : NotificationJob} (h : Outlives c log job job') :
    job'.id = job.id := congrArg JobFact.id h.fact_eq

/-- One after the other. -/
lemma trans {log log' : List Delivery} {job job' job'' : NotificationJob}
    (h : Outlives c log job job') (h' : Outlives c log' job' job'') :
    Outlives c (log ++ log') job job'' where
  fact_eq := h'.fact_eq.trans h.fact_eq
  left hpending hleft := by
    cases hmid : job'.isPending with
    | false =>
        obtain ⟨d, hd, hid, hsettles⟩ := h.left hpending hmid
        exact ⟨d, List.mem_append_left _ hd, hid, hsettles⟩
    | true =>
        obtain ⟨d, hd, hid, hsettles⟩ := h'.left hmid hleft
        exact ⟨d, List.mem_append_right _ hd, hid.trans h.id_eq, hsettles⟩
  sends d hd hid := by
    rcases List.mem_append.mp hd with hd | hd
    · exact h.sends d hd hid
    · exact h'.sends d hd (hid.trans h.id_eq.symm)
  silent hsilent := by
    obtain ⟨hmid, hlog⟩ := h.silent hsilent
    obtain ⟨hlast, hlog'⟩ := h'.silent hmid
    refine ⟨hlast, fun d hd hid => ?_⟩
    rcases List.mem_append.mp hd with hd | hd
    · exact hlog d hd hid
    · exact hlog' d hd (hid.trans h.id_eq.symm)

/-- Turns about other jobs do not matter. -/
lemma cons_of_ne {d : Delivery} {log : List Delivery} {job job' : NotificationJob}
    (hne : d.job.id ≠ job.id) (h : Outlives c log job job') : Outlives c (d :: log) job job' where
  fact_eq := h.fact_eq
  left hpending hleft := by
    obtain ⟨d', hd', hid, hsettles⟩ := h.left hpending hleft
    exact ⟨d', List.mem_cons_of_mem _ hd', hid, hsettles⟩
  sends d' hd' hid := by
    rcases List.mem_cons.mp hd' with rfl | hd'
    · exact absurd hid hne
    · exact h.sends d' hd' hid
  silent hsilent := by
    obtain ⟨hlast, hlog⟩ := h.silent hsilent
    refine ⟨hlast, fun d' hd' hid => ?_⟩
    rcases List.mem_cons.mp hd' with rfl | hd'
    · exact absurd hid hne
    · exact hlog d' hd' hid

end Outlives

/-! ## One turn -/

/-- Marking a job changes that job, if it can be saved, and nothing else. -/
lemma Service.lookup_markJob {svc : Service} {id : String} {job : NotificationJob}
    (hjob : svc.state.jobs.lookup id = some job) (change : NotificationJob → NotificationJob)
    (outcome : SaveOutcome) (k : String) :
    (svc.markJob id change outcome).1.state.jobs.lookup k
      = if k = id then some (if outcome.isNone then change job else job)
        else svc.state.jobs.lookup k := by
  rw [Service.markJob, hjob]
  cases outcome with
  | none => exact Dict.lookup_insert_ite _ _ _ _
  | some err =>
      simp only [Dict.lookup_insert_ite, Option.isNone_some, Bool.false_eq_true, if_false]
      split_ifs <;> rfl

/-- What a turn makes of its job, if that can be saved. -/
def Delivery.marked (c : Courier) (d : Delivery) : NotificationJob → NotificationJob :=
  match d.message c with
  | .error text => NotificationJob.failed text d.now true
  | .ok _ =>
      match d.result with
      | .receipt adapter externalID => NotificationJob.receipted adapter externalID d.now
      | .error text none =>
          NotificationJob.failed text (d.now + retryDelay d.job.id (d.job.attempts + 1)) false
      | .error text (some err) =>
          NotificationJob.failed text
            (if 0 < err.retryAfter then d.now + err.retryAfter
              else d.now + retryDelay d.job.id (d.job.attempts + 1)) err.permanent

lemma Delivery.record_eq (c : Courier) (d : Delivery) (svc : Service) :
    d.record c svc = svc.markJob d.job.id (d.marked c) d.outcome := by
  rw [Delivery.record, Delivery.marked]
  cases d.message c with
  | error text => rfl
  | ok message =>
      cases d.result with
      | receipt adapter externalID => rfl
      | error text err =>
          cases err with
          | none => rfl
          | some err => rfl

lemma Delivery.fact_marked (c : Courier) (d : Delivery) (job : NotificationJob) :
    (d.marked c job).fact = job.fact := by
  rw [Delivery.marked]
  cases d.message c with
  | error text => rfl
  | ok message =>
      cases d.result with
      | receipt adapter externalID => rfl
      | error text err =>
          cases err with
          | none => rfl
          | some err => rfl

/-- Why a turn sends nothing. -/
lemma Delivery.of_message_error {c : Courier} {d : Delivery} {text : String}
    (h : d.message c = .error text) :
    d.incident = none ∨ d.job.kind = .test ∨ ∃ kind, d.job.kind = .other kind := by
  rw [Delivery.message] at h
  cases hi : d.incident with
  | none => exact Or.inl rfl
  | some incident =>
      refine Or.inr ?_
      rw [hi] at h
      simp only [notificationFor] at h
      cases hkind : d.job.kind with
      | test => exact Or.inl rfl
      | other kind => exact Or.inr ⟨kind, rfl⟩
      | _ => simp only [hkind] at h; cases h

/-- **What a turn makes of its job.** -/
lemma outlives_turn {c : Courier} {d : Delivery} {job : NotificationJob} (hjob : d.job = job)
    (hstored : d.stored = some job) (hdue : job.isDue d.now = true) :
    Outlives c [d] job (if d.outcome.isNone then d.marked c job else job) := by
  have hpending : job.isPending = true := by
    simp only [NotificationJob.isDue, Bool.and_eq_true] at hdue
    exact hdue.1
  have hdueAt : job.nextAt ≤ d.now := by
    simp only [NotificationJob.isDue, Bool.and_eq_true, decide_eq_true_eq] at hdue
    exact hdue.2
  refine ⟨?_, fun _ hleft => ⟨d, List.mem_singleton_self d, by rw [hjob], ?_⟩,
    fun d' hd' _ _ => ?_, fun hsilent => absurd (hpending.symm.trans hsilent) (by decide)⟩
  · split_ifs
    · exact Delivery.fact_marked c d job
    · rfl
  · cases hsaved : d.outcome with
    | some err =>
        rw [hsaved] at hleft
        exact absurd (hpending.symm.trans hleft) (by decide)
    | none =>
        rw [hsaved, Option.isNone_none, if_pos rfl, Delivery.marked] at hleft
        cases hmessage : d.message c with
        | error text =>
            rcases Delivery.of_message_error hmessage with hmissing | hunknown
            · exact .missing hsaved hmissing
            · exact .unknown hsaved hunknown
        | ok message =>
            rw [hmessage] at hleft
            cases hresult : d.result with
            | receipt adapter externalID =>
                exact .received hsaved ⟨message, hmessage⟩ adapter externalID hresult
            | error text err =>
                rw [hresult] at hleft
                have hunsent : job.sentAt.isNone = true := by
                  simp only [NotificationJob.isPending, Bool.and_eq_true] at hpending
                  exact hpending.1
                cases err with
                | none =>
                    simp [NotificationJob.failed, NotificationJob.isPending, hunsent] at hleft
                | some err =>
                    refine .refused hsaved ⟨message, hmessage⟩ text err hresult ?_
                    simpa [NotificationJob.failed, NotificationJob.isPending, hunsent] using hleft
  · rw [List.mem_singleton.mp hd', hjob]
    exact ⟨hstored, hpending, hdueAt⟩

/-! ## The loop -/

/-- Jobs are stored under their own IDs. -/
def OwnIDs (jobs : Dict String NotificationJob) : Prop :=
  ∀ ⦃id job⦄, jobs.lookup id = some job → job.id = id

lemma OwnIDs.adds {P : String → Prop} {jobs jobs' : Dict String NotificationJob} (h : OwnIDs jobs)
    (hadds : Adds P jobs jobs') : OwnIDs jobs' :=
  fun _ _ hjob => (hadds.added hjob).elim (fun hbefore => h hbefore) And.left

/-- The rest of the jobs after a turn about another one. -/
lemma lookup_record_of_ne {c : Courier} {d : Delivery} {svc : Service} {job : NotificationJob}
    (hjob : svc.state.jobs.lookup d.job.id = some job) {id : String} (hne : id ≠ d.job.id) :
    (d.record c svc).1.state.jobs.lookup id = svc.state.jobs.lookup id := by
  rw [Delivery.record_eq, Service.lookup_markJob hjob, if_neg hne]

/-- **What the loop makes of a job.** -/
lemma outlives_dispatchAll (c : Courier) (now : Time) (turns : ℕ → Turn)
    {jobs : List NotificationJob} (hdistinct : (jobs.map NotificationJob.id).Nodup) {svc : Service}
    (hdue : ∀ job ∈ jobs, svc.state.jobs.lookup job.id = some job ∧ job.isDue now = true)
    {job : NotificationJob} (hjob : svc.state.jobs.lookup job.id = some job) :
    ∃ job', (dispatchAll c now turns jobs svc).1.state.jobs.lookup job.id = some job' ∧
      Outlives c (dispatchAll c now turns jobs svc).2.1 job job' := by
  induction jobs generalizing turns svc job with
  | nil => exact ⟨job, hjob, .refl job⟩
  | cons first jobs ih =>
      obtain ⟨hfirst, hfirstDue⟩ := hdue first List.mem_cons_self
      obtain ⟨hnotMem, hnd⟩ := List.nodup_cons.mp hdistinct
      rw [dispatchAll]
      generalize hd : (⟨first, svc.state.jobs.lookup first.id,
        svc.state.incidents.lookup first.incidentID, now, (turns 0).result,
        (turns 0).outcome⟩ : Delivery) = d
      have hdjob : d.job = first := by rw [← hd]
      have hdnow : d.now = now := by rw [← hd]
      have hdstored : d.stored = some first := by
        rw [← hd]
        exact hfirst
      have hstored : svc.state.jobs.lookup d.job.id = some first := by
        rw [hdjob]
        exact hfirst
      -- the other jobs are as they were when the turn is over
      have hdue' : ∀ other ∈ jobs, (d.record c svc).1.state.jobs.lookup other.id = some other ∧
          other.isDue now = true := by
        intro other hother
        obtain ⟨hlookup, hotherDue⟩ := hdue other (List.mem_cons_of_mem _ hother)
        refine ⟨?_, hotherDue⟩
        rw [lookup_record_of_ne hstored, hlookup]
        rw [hdjob]
        intro heq
        exact hnotMem (heq ▸ List.mem_map_of_mem hother)
      by_cases hsame : first.id = job.id
      · obtain rfl : first = job := by
          rw [hsame, hjob] at hfirst
          exact (Option.some.inj hfirst).symm
        have hturn := outlives_turn (c := c) hdjob hdstored (by rwa [hdnow])
        have hafter : (d.record c svc).1.state.jobs.lookup first.id
            = some (if d.outcome.isNone then d.marked c first else first) := by
          rw [Delivery.record_eq, Service.lookup_markJob hstored, hdjob, if_pos rfl]
        rw [← hturn.id_eq] at hafter
        cases hrecord : d.record c svc with
        | mk after err =>
            rw [hrecord] at hafter hdue'
            cases err with
            | some err =>
                refine ⟨_, ?_, hturn⟩
                rwa [hturn.id_eq] at hafter
            | none =>
                obtain ⟨job', hjob', houtlives⟩ := ih (fun n => turns (n + 1)) hnd hdue' hafter
                rw [hturn.id_eq] at hjob'
                exact ⟨job', hjob', hturn.trans houtlives⟩
      · have hne : d.job.id ≠ job.id := by rwa [hdjob]
        have hafter : (d.record c svc).1.state.jobs.lookup job.id = some job := by
          rw [lookup_record_of_ne hstored (Ne.symm hne), hjob]
        cases hrecord : d.record c svc with
        | mk after err =>
            rw [hrecord] at hafter hdue'
            cases err with
            | some err => exact ⟨job, hafter, .cons_of_ne hne (.refl job)⟩
            | none =>
                obtain ⟨job', hjob', houtlives⟩ := ih (fun n => turns (n + 1)) hnd hdue' hafter
                exact ⟨job', hjob', .cons_of_ne hne houtlives⟩

/-- The jobs that are due are stored as they are, each once. -/
lemma dueNotifications_spec {s : Snapshot} (h : OwnIDs s.jobs) (order : Traversal String)
    (now : Time) : ((dueNotifications order now s).map NotificationJob.id).Nodup ∧
      ∀ job ∈ dueNotifications order now s,
        s.jobs.lookup job.id = some job ∧ job.isDue now = true := by
  have hmem : ∀ job ∈ (order.visit s.jobs).map Prod.snd, s.jobs.lookup job.id = some job := by
    intro job hjob
    obtain ⟨kv, hkv, rfl⟩ := List.mem_map.mp hjob
    have hlookup := (order.mem_visit _ _ _).mp hkv
    rw [h hlookup]
    exact hlookup
  have hids : ((order.visit s.jobs).map Prod.snd).map NotificationJob.id
      = (order.visit s.jobs).map Prod.fst := by
    rw [List.map_map]
    refine List.map_congr_left fun kv hkv => ?_
    exact h ((order.mem_visit _ _ _).mp hkv)
  have hperm := List.mergeSort_perm (((order.visit s.jobs).map Prod.snd).filter (·.isDue now))
    fun a b => decide (a.createdAt ≤ b.createdAt)
  constructor
  · refine (hperm.map _).nodup_iff.mpr ?_
    refine (List.filter_sublist.map _).nodup ?_
    rw [hids]
    exact order.nodup _
  · intro job hjob
    obtain ⟨hvisited, hdue⟩ := List.mem_filter.mp (hperm.mem_iff.mp hjob)
    exact ⟨hmem job hvisited, hdue⟩

/-- The loop leaves jobs under their own IDs. -/
lemma OwnIDs.dispatchAll (c : Courier) (now : Time) (turns : ℕ → Turn)
    {jobs : List NotificationJob} {svc : Service} (h : OwnIDs svc.state.jobs) :
    OwnIDs (dispatchAll c now turns jobs svc).1.state.jobs := by
  have hrecord : ∀ (d : Delivery) (svc : Service), OwnIDs svc.state.jobs →
      OwnIDs (d.record c svc).1.state.jobs := by
    intro d svc h id job hjob
    rw [Delivery.record_eq] at hjob
    cases hstored : svc.state.jobs.lookup d.job.id with
    | none =>
        rw [Service.markJob, hstored] at hjob
        exact h hjob
    | some stored =>
        rw [Service.lookup_markJob hstored] at hjob
        split_ifs at hjob with hid
        · rw [← Option.some.inj hjob, hid, ← h hstored]
          exact congrArg JobFact.id (Delivery.fact_marked c d stored)
        · rw [← Option.some.inj hjob, hid]
          exact h hstored
        · exact h hjob
  induction jobs generalizing turns svc with
  | nil => exact h
  | cons first jobs ih =>
      rw [Logthing.dispatchAll]
      have hafter := hrecord ⟨first, svc.state.jobs.lookup first.id,
        svc.state.incidents.lookup first.incidentID, now, (turns 0).result, (turns 0).outcome⟩ svc h
      generalize Delivery.record c _ svc = after at hafter ⊢
      obtain ⟨after, err⟩ := after
      cases err with
      | some err => exact hafter
      | none => exact ih _ hafter

/-- The loop changes the delivery of jobs and nothing else. -/
lemma dispatchAll_state (c : Courier) (now : Time) (turns : ℕ → Turn)
    (due : List NotificationJob) (svc : Service) :
    ∃ jobs, (dispatchAll c now turns due svc).1.state = { svc.state with jobs } ∧
      ∀ id, (jobs.lookup id).map NotificationJob.fact
        = (svc.state.jobs.lookup id).map NotificationJob.fact := by
  have hrecord : ∀ (d : Delivery) (svc : Service), ∃ jobs,
      (d.record c svc).1.state = { svc.state with jobs } ∧
        ∀ id, (jobs.lookup id).map NotificationJob.fact
          = (svc.state.jobs.lookup id).map NotificationJob.fact := by
    intro d svc
    rw [Delivery.record_eq]
    obtain ⟨jobs, hstate⟩ := svc.markJob_state d.job.id (d.marked c) d.outcome
    refine ⟨jobs, hstate, fun id => ?_⟩
    have hjobs : (svc.markJob d.job.id (d.marked c) d.outcome).1.state.jobs = jobs := by
      rw [hstate]
    rw [← hjobs]
    cases hstored : svc.state.jobs.lookup d.job.id with
    | none => rw [Service.markJob, hstored]
    | some stored =>
        rw [Service.lookup_markJob hstored]
        split_ifs with hid
        · rw [hid, hstored, Option.map_some, Option.map_some, Delivery.fact_marked]
        · rw [hid, hstored]
        · rfl
  induction due generalizing turns svc with
  | nil => exact ⟨svc.state.jobs, rfl, fun _ => rfl⟩
  | cons first due ih =>
      rw [Logthing.dispatchAll]
      have hafter := hrecord ⟨first, svc.state.jobs.lookup first.id,
        svc.state.incidents.lookup first.incidentID, now, (turns 0).result, (turns 0).outcome⟩ svc
      generalize Delivery.record c _ svc = after at hafter ⊢
      obtain ⟨after, err⟩ := after
      cases err with
      | some err => exact hafter
      | none =>
          obtain ⟨jobs, hstate, hfacts⟩ := hafter
          obtain ⟨jobs', hstate', hfacts'⟩ := ih (fun n => turns (n + 1)) after
          simp only at hstate
          rw [hstate] at hstate' hfacts'
          exact ⟨jobs', hstate', fun id => (hfacts' id).trans (hfacts id)⟩

/-! ## Runs -/

/-- A call that derives state, not one of the two that mark a job. -/
def Operation.Derives : Operation → Prop
  | .markNotificationSent .. | .markNotificationFailed .. => False
  | _ => True

/-- A step of the engine and the worker's loop of deliveries. -/
inductive OutboxStep where
  | call (op : Operation) (derives : op.Derives)
  | dispatch (order : Traversal String) (turns : ℕ → Turn) (now : Time)

/-- The service after a step, and the deliveries of the step. -/
def Service.outboxStep (eng : Engine) (c : Courier) (svc : Service) :
    OutboxStep → Service × List Delivery
  | .call op _ => (svc.call eng op, [])
  | .dispatch order turns now =>
      ((svc.dispatch c order turns now).1, (svc.dispatch c order turns now).2.1)

/-- The service after a list of steps, and the deliveries of them all. -/
def Service.outboxRun (eng : Engine) (c : Courier) (svc : Service) :
    List OutboxStep → Service × List Delivery
  | [] => (svc, [])
  | step :: steps =>
      let after := svc.outboxStep eng c step
      ((after.1.outboxRun eng c steps).1, after.2 ++ (after.1.outboxRun eng c steps).2)

/-- Whether a step is a `Rebuild`. -/
def OutboxStep.Rebuilds : OutboxStep → Prop
  | .call (.rebuild ..) _ => True
  | _ => False

/-- No `Rebuild` of a run produces a state without an incident. -/
def Retains (eng : Engine) (c : Courier) (incidentID : String) : Service → List OutboxStep → Prop
  | _, [] => True
  | svc, step :: steps =>
      (step.Rebuilds → incidentID ∈ (svc.outboxStep eng c step).1.state.incidents) ∧
        Retains eng c incidentID (svc.outboxStep eng c step).1 steps

/-- **A call that derives state changes no job**, unless it is a `Rebuild` without its incident. -/
lemma keeps_call (eng : Engine) {svc : Service} (h : OwnIDs svc.state.jobs) {op : Operation}
    (hop : op.Derives) : OwnIDs (svc.call eng op).state.jobs ∧
      ∀ id job, svc.state.jobs.lookup id = some job →
        (OutboxStep.Rebuilds (.call op hop) →
          job.incidentID ∈ (svc.call eng op).state.incidents) →
        (svc.call eng op).state.jobs.lookup id = some job := by
  have hadds : ∀ {P : String → Prop}, Adds P svc.state.jobs (svc.call eng op).state.jobs →
      OwnIDs (svc.call eng op).state.jobs ∧ ∀ id job, svc.state.jobs.lookup id = some job →
        (OutboxStep.Rebuilds (.call op hop) →
          job.incidentID ∈ (svc.call eng op).state.incidents) →
        (svc.call eng op).state.jobs.lookup id = some job :=
    fun hadds => ⟨h.adds hadds, fun _ _ hjob _ => hadds.keeps hjob⟩
  cases op with
  | observe orders message notifyEligible outcome =>
      refine hadds (P := fun _ => True) ?_
      rw [Service.call, Service.observe_state]
      exact adds_observeLocked ⟨message, notifyEligible, ""⟩ fun _ _ => adds_advance_any _ _ _ _
  | apply orders os cursors checkpointAt outcome =>
      refine hadds (P := fun _ => True) ?_
      rw [Service.call, Service.apply_state]
      exact adds_observeAll_any eng orders os svc.state
  | tick orders now outcome =>
      refine hadds (P := fun _ => True) ?_
      rw [Service.call, Service.tick_state]
      exact adds_advance_any _ _ now _
  | setCursors cursors outcome =>
      refine hadds (P := fun _ => True) ?_
      rw [Service.call, Service.setCursors_state]
      exact .refl _
  | markNotificationSent id adapter externalID at_ outcome => exact hop.elim
  | markNotificationFailed id message next permanent outcome => exact hop.elim
  | rebuild orders after os cursors checkpointAt outcome =>
      rw [Service.call, Service.rebuild_state]
      generalize hs : observeAll eng orders os (emptySnapshot cursors checkpointAt) = s
      have hown : OwnIDs s.jobs := by
        rw [← hs]
        refine OwnIDs.adds (fun _ _ hjob => ?_) (adds_observeAll_any eng orders os _)
        cases hjob
      constructor
      · refine OwnIDs.adds (fun id job hjob => ?_)
          (adds_deriveAll (P := fun _ => True) _ _ _ _ (fun _ _ _ => trivial) _)
        rw [lookup_restoreJobs] at hjob
        rcases Option.or_eq_some_iff.mp hjob with hprevious | ⟨-, hjob⟩
        · exact h (Option.filter_eq_some_iff.mp hprevious).1
        · exact hown hjob
      · intro id job hjob hretained
        exact keeps_deriveAll _ _ _ _ _ _
          (lookup_restoreJobs_of_mem _ _ hjob (hretained trivial))

/-- **What a step makes of a job.** -/
lemma outlives_step (eng : Engine) (c : Courier) {svc : Service} (h : OwnIDs svc.state.jobs)
    (step : OutboxStep) : OwnIDs (svc.outboxStep eng c step).1.state.jobs ∧
      ∀ job, svc.state.jobs.lookup job.id = some job →
        (step.Rebuilds → job.incidentID ∈ (svc.outboxStep eng c step).1.state.incidents) →
        ∃ job', (svc.outboxStep eng c step).1.state.jobs.lookup job.id = some job' ∧
          Outlives c (svc.outboxStep eng c step).2 job job' := by
  cases step with
  | call op hop =>
      obtain ⟨hown, hkeeps⟩ := keeps_call eng h hop
      exact ⟨hown, fun job hjob hretained => ⟨job, hkeeps _ _ hjob hretained, .refl job⟩⟩
  | dispatch order turns now =>
      obtain ⟨hdistinct, hdue⟩ := dueNotifications_spec h order now
      exact ⟨h.dispatchAll c now turns,
        fun job hjob _ => outlives_dispatchAll c now turns hdistinct hdue hjob⟩

/-- **What a run makes of a job.** -/
lemma outlives_run (eng : Engine) (c : Courier) (steps : List OutboxStep) {svc : Service}
    (h : OwnIDs svc.state.jobs) : OwnIDs (svc.outboxRun eng c steps).1.state.jobs ∧
      ∀ job, svc.state.jobs.lookup job.id = some job → Retains eng c job.incidentID svc steps →
        ∃ job', (svc.outboxRun eng c steps).1.state.jobs.lookup job.id = some job' ∧
          Outlives c (svc.outboxRun eng c steps).2 job job' := by
  induction steps generalizing svc with
  | nil => exact ⟨h, fun job hjob _ => ⟨job, hjob, .refl job⟩⟩
  | cons step steps ih =>
      obtain ⟨hown, hstep⟩ := outlives_step eng c h step
      obtain ⟨hown', hrun⟩ := ih hown
      refine ⟨hown', fun job hjob hretains => ?_⟩
      obtain ⟨job', hjob', houtlives⟩ := hstep job hjob hretains.1
      rw [← houtlives.id_eq] at hjob'
      obtain ⟨job'', hjob'', houtlives'⟩ := hrun job' hjob' (by
        rw [show job'.incidentID = job.incidentID from
          congrArg JobFact.incidentID houtlives.fact_eq]
        exact hretains.2)
      rw [houtlives.id_eq] at hjob''
      exact ⟨job'', hjob'', houtlives.trans houtlives'⟩

/-- **The outbox is safe.**  Once a run has a job, whatever comes after: while no `Rebuild` loses
its incident, the job stays, about the same incident, of the same kind and from the same time; it
stops being pending only by a turn that saved a receipt or recorded it as permanent; whatever is
sent of it is sent as it is stored, pending and at a time not before its `NextAt`; and once it is
not pending, it stays so and is sent no more. -/
theorem outbox_safe (eng : Engine) (c : Courier) (before after : List OutboxStep) (id : String)
    (job : NotificationJob)
    (hjob : (Service.outboxRun eng c {} before).1.state.jobs.lookup id = some job)
    (hretains : Retains eng c job.incidentID (Service.outboxRun eng c {} before).1 after) :
    job.id = id ∧
      ∃ job', ((Service.outboxRun eng c {} before).1.outboxRun eng c after).1.state.jobs.lookup id
          = some job' ∧
        Outlives c ((Service.outboxRun eng c {} before).1.outboxRun eng c after).2 job job' := by
  have hempty : OwnIDs ({} : Service).state.jobs := fun _ _ hjob => by cases hjob
  have hown := (outlives_run eng c before hempty).1
  have hid := hown hjob
  rw [← hid] at hjob ⊢
  exact ⟨rfl, (outlives_run eng c after hown).2 job hjob hretains⟩

/-- A worker without links. -/
def sampleCourier : Courier where
  publicURL := ""
  quote text := text

/-- The small outage is read and lasts for a minute. -/
def sampleOutage : List OutboxStep :=
  [.call (.apply (fun _ => sortedSchedule) [wanDown] ∅ 1000000000 none) trivial,
    .call (.tick sortedSchedule 61000000000 none) trivial]

/-- Its notification is sent twice, since the first receipt cannot be saved. -/
def sampleDeliveries : List OutboxStep :=
  [.dispatch (.sorted String) (fun _ => ⟨.receipt "discord" "1", some "disk full"⟩) 61000000000,
    .dispatch (.sorted String) (fun _ => ⟨.receipt "discord" "2", none⟩) 62000000000]

theorem outbox_safe_wanDown :
    ∃ job, (Service.outboxRun sampleEngine sampleCourier {} sampleOutage).1.state.jobs.lookup
        "8d4663d6450447b8:incident_opened" = some job ∧
      job.id = "8d4663d6450447b8:incident_opened" ∧
      ∃ job', ((Service.outboxRun sampleEngine sampleCourier {} sampleOutage).1.outboxRun
          sampleEngine sampleCourier sampleDeliveries).1.state.jobs.lookup
            "8d4663d6450447b8:incident_opened" = some job' ∧
        Outlives sampleCourier ((Service.outboxRun sampleEngine sampleCourier {}
          sampleOutage).1.outboxRun sampleEngine sampleCourier sampleDeliveries).2 job job' := by
  have hsome : ((Service.outboxRun sampleEngine sampleCourier {} sampleOutage).1.state.jobs.lookup
      "8d4663d6450447b8:incident_opened").isSome = true := by
    decide +kernel
  obtain ⟨job, hjob⟩ := Option.isSome_iff_exists.mp hsome
  exact ⟨job, hjob, outbox_safe sampleEngine sampleCourier sampleOutage sampleDeliveries _ job hjob
    ⟨fun h => h.elim, fun h => h.elim, trivial⟩⟩

end Logthing
