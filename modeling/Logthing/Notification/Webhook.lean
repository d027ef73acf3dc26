import Logthing.Incidents.Backoff
import Logthing.Incidents.EveryJob
import Logthing.Notification.Discord

/-!
# Delivering through Discord

`DiscordNotifier.Send` posts one message to the webhook and tells the worker what to make of the
answer.  This file puts the notifier and the outbox together.

**Main results.**

* `webhook_decides`: a job is over only by an answer that accepts or refuses it, and tried again
  after any other, when the webhook allows it.
* `token_never_stored`: whatever goes wrong with the requests, the webhook's token gets into no job,
  in memory or saved.
-/

namespace Logthing.Notification

/-! ## Sending -/

/-- What the notifier is written with. -/
structure DiscordLib where
  /-- The text of a Go string. -/
  text : Bytes → String
  /-- `strconv.ParseFloat`, if it succeeds. -/
  parseFloat : String → Option Float64
  /-- What Go leaves to the processor: converting a number that no `int64` holds. -/
  overflow : Float64 → Duration
  /-- The `id` of an answer, if `json.Unmarshal` succeeds. -/
  unmarshalID : Bytes → Option String

/-- `retryAfter`. -/
def DiscordLib.retryAfter (lib : DiscordLib) (value : String) : Duration :=
  match lib.parseFloat (String.ofList (Text.trimSpace value.toList)) with
  | none => 0
  | some (.finite seconds) =>
      if seconds ≤ 0 then 0
      else
        let product := Float64.nearest (seconds * 1000000000)
        if product < 2 ^ 63 then ⌊product⌋ else lib.overflow (.finite product)
  | some (.infinite true) => 0
  | some seconds => lib.overflow seconds

/-- What becomes of the request of a `Send`; a status code has three digits. -/
inductive Exchange where
  /-- `http.NewRequestWithContext` fails. -/
  | uncreated
  /-- `n.client.Do` fails. -/
  | failed (err : TransportError)
  | answered (status : Fin 1000) (header : String → String) (body : Bytes)

/-- What `Send` makes of an exchange. -/
def DiscordNotifier.send (lib : DiscordLib) (notifier : DiscordNotifier) : Exchange → SendResult
  | .uncreated => .error "create Discord notification request" (some ⟨true, 0⟩)
  | .failed err =>
      .error ("send Discord notification: " ++ lib.text (safeTransportCause notifier err))
        (some ⟨false, 0⟩)
  | .answered status header body =>
      if status.val < 200 ∨ 300 ≤ status.val then
        .error ("Discord notification returned HTTP " ++ toString status.val)
          (some ⟨400 ≤ status.val && status.val < 500 && status.val ≠ 429,
            lib.retryAfter (header "Retry-After")⟩)
      else
        let externalID := header "X-Discord-Message-ID"
        .receipt "discord"
          (if status.val ≠ 204 then (lib.unmarshalID body).getD externalID else externalID)

/-- How long the notifier asks to wait. -/
def Exchange.retryAfter (lib : DiscordLib) : Exchange → Duration
  | .answered _ header _ => lib.retryAfter (header "Retry-After")
  | _ => 0

/-- A turn whose message goes through the webhook. -/
def Through (lib : DiscordLib) (notifier : DiscordNotifier) (c : Courier) (d : Delivery) : Prop :=
  d.Sends c → ∃ exchange, d.result = notifier.send lib exchange

section

variable {lib : DiscordLib} {notifier : DiscordNotifier} {exchange : Exchange}

end

/-! ## What is posted -/

section

variable {lib : DiscordLib} {notifier : DiscordNotifier} {c : Courier}

end

/-- A library that reads ASCII, and numbers of decimal digits. -/
def sampleDiscordLib : DiscordLib where
  text bytes := String.ofList (bytes.map fun b => Char.ofNat b.toNat)
  parseFloat value :=
    if value ≠ "" ∧ value.toList.all Char.isDigit = true then
      some (.finite (Float64.nearest (Nat.ofDigitChars 10 value.toList 0)))
    else none
  overflow _ := -2 ^ 63
  unmarshalID _ := some "1"

/-- Neither a date nor a number that is too large makes the worker wait. -/
example : ["5", "Wed, 21 Oct 2026 07:28:00 GMT", "10000000000"].map sampleDiscordLib.retryAfter
    = [5000000000, 0, -2 ^ 63] := by decide +kernel

/-- A loop whose requests all end in the same way. -/
lemma through_dispatchAll {lib : DiscordLib} {notifier : DiscordNotifier} {c : Courier} {now : Time}
    {exchange : Exchange} {outcome : SaveOutcome} {jobs : List NotificationJob} {svc : Service} :
    ∀ d ∈ (dispatchAll c now (fun _ => ⟨notifier.send lib exchange, outcome⟩) jobs svc).2.1,
      Through lib notifier c d := by
  induction jobs generalizing svc with
  | nil => exact fun d hd => absurd hd List.not_mem_nil
  | cons first jobs ih =>
      intro d hd
      rw [dispatchAll] at hd
      simp only at hd
      split at hd
      · rw [List.mem_singleton.mp hd]
        exact fun _ => ⟨exchange, rfl⟩
      · rcases List.mem_cons.mp hd with rfl | hd
        · exact fun _ => ⟨exchange, rfl⟩
        · exact ih d hd

/-- A character that tokens are written with. -/
def isTokenChar (ch : Char) : Bool := ch.toNat < 128 && isTokenByte (UInt8.ofNat ch.toNat)

/-- Reading bytes as text makes up no ASCII. -/
def DiscordLib.KeepsAscii (lib : DiscordLib) : Prop :=
  ∀ (token : String) (bytes : Bytes), (∀ ch ∈ token.toList, ch.toNat < 128) →
    token.toList <:+: (lib.text bytes).toList → asciiBytes token <:+: bytes

/-- A text of short words only has no long word in it. -/
lemma not_infix_of_short {α : Type} {p : α → Bool} {n : ℕ} {token text : List α}
    (htoken : ∀ a ∈ token, p a = true) (hlength : n ≤ token.length)
    (h : (text.tails.all fun rest => decide ((rest.takeWhile p).length < n)) = true) :
    ¬ token <:+: text := by
  intro hinfix
  obtain ⟨rest, hprefix, hsuffix⟩ := List.infix_iff_prefix_suffix.mp hinfix
  have hshort := List.all_eq_true.mp h rest ((List.mem_tails _ _).mpr hsuffix)
  obtain ⟨more, rfl⟩ := hprefix
  rw [decide_eq_true_eq, List.takeWhile_append_of_pos htoken, List.length_append] at hshort
  omega

lemma length_status (status : Fin 1000) : (toString status.val).toList.length ≤ 3 :=
  (Nat.length_repr_le_iff (by decide)).mpr status.isLt

section

variable {lib : DiscordLib} {notifier : DiscordNotifier} {token : String}
  (hlib : lib.KeepsAscii) (hsegment : asciiBytes token ∈ notifier.webhook.path.splitOn slash)
  (hlength : 13 ≤ token.toList.length) (htoken : ∀ ch ∈ token.toList, isTokenChar ch = true)

include hlib hsegment hlength htoken

/-- The token is not in the cause of a transport error, as it is returned. -/
lemma not_infix_safeTransportCause (err : TransportError) :
    ¬ token.toList <:+: (lib.text (safeTransportCause notifier err)).toList := by
  have hascii : ∀ ch ∈ token.toList, ch.toNat < 128 := fun ch hch =>
    of_decide_eq_true (Bool.and_eq_true_iff.mp (htoken ch hch)).1
  have hbytes : ∀ b ∈ asciiBytes token, isTokenByte b = true := by
    intro b hb
    obtain ⟨ch, hch, rfl⟩ := List.mem_map.mp hb
    exact (Bool.and_eq_true_iff.mp (htoken ch hch)).2
  have hlong : 13 ≤ (asciiBytes token).length := by rwa [asciiBytes, List.length_map]
  intro hinfix
  refine absurd (hlib token _ hascii hinfix) ?_
  rw [safeTransportCause]
  split_ifs
  · exact not_infix_of_short hbytes hlong (by decide)
  · exact not_infix_of_short hbytes hlong (by decide)
  · have hword : asciiBytes token ≠ asciiBytes "redacted" := by
      intro hword
      rw [hword] at hlong
      exact absurd hlong (by decide)
    have hne : asciiBytes token ≠ [] := List.ne_nil_of_length_pos (by omega)
    exact not_infix_of_mem (by omega) (bracketed_redaction (by omega) hbytes hword)
      (mem_secrets hne hsegment) _

/-- No error of `Send` has the token in it. -/
lemma not_infix_of_error {exchange : Exchange} {text : String} {err : Option SendError}
    (h : notifier.send lib exchange = .error text err) : ¬ token.toList <:+: text.toList := by
  have hspace : ' ' ∉ token.toList := fun hmem => absurd (htoken ' ' hmem) (by decide)
  cases exchange with
  | uncreated =>
      injection h with htext _
      rw [← htext]
      exact not_infix_of_short htoken hlength (by decide)
  | failed cause =>
      injection h with htext _
      have hwords : "send Discord notification: ".toList
          = "send Discord notification:".toList ++ [' '] := by decide
      rw [← htext, String.toList_append, hwords, List.append_assoc, List.singleton_append,
        Text.infix_append_cons hspace, not_or]
      exact ⟨not_infix_of_short htoken hlength (by decide),
        not_infix_safeTransportCause hlib hsegment hlength htoken cause⟩
  | answered status header body =>
      rw [DiscordNotifier.send] at h
      by_cases hstatus : status.val < 200 ∨ 300 ≤ status.val
      · rw [if_pos hstatus] at h
        injection h with htext _
        have hwords : "Discord notification returned HTTP ".toList
            = "Discord notification returned HTTP".toList ++ [' '] := by decide
        rw [← htext, String.toList_append, hwords, List.append_assoc, List.singleton_append,
          Text.infix_append_cons hspace, not_or]
        refine ⟨not_infix_of_short htoken hlength (by decide), fun hinfix => ?_⟩
        have hdigits := length_status status
        have hlong := hinfix.length_le
        omega
      · rw [if_neg hstatus] at h
        cases h

end

/-- **The token is never stored.**  Let the webhook's path have a segment that is a token of 13
characters or more.  In the whole life of a service from `New`, with restarts, failed saves and any
transport errors and answers, no job has the token in its `LastError`, in memory or saved. -/
theorem token_never_stored (eng : Engine) (c : Courier) (notifier : DiscordNotifier)
    (lib : DiscordLib) (hlib : lib.KeepsAscii) (token : String)
    (hsegment : asciiBytes token ∈ notifier.webhook.path.splitOn slash)
    (hlength : 13 ≤ token.toList.length) (htoken : ∀ ch ∈ token.toList, isTokenChar ch = true)
    (steps : List LifeStep)
    (hthrough : ∀ d ∈ (Service.life eng c {} steps).2, Through lib notifier c d) :
    (Service.life eng c {} steps).1.Every fun job => ¬ token.toList <:+: job.lastError.toList := by
  have hempty : ¬ token.toList <:+: [] := fun hinfix => by
    have := hinfix.length_le
    rw [List.length_nil] at this
    omega
  have hnew : Service.Every (fun job => job.kind.announced = true ∧
      ¬ token.toList <:+: job.lastError.toList) {} := ⟨.empty, fun s hs => by cases hs⟩
  suffices hlife : (Service.life eng c {} steps).1.Every (fun job => job.kind.announced = true ∧
      ¬ token.toList <:+: job.lastError.toList) from
    ⟨fun id job hjob => (hlife.state hjob).2, fun s hs id job hjob => (hlife.saved s hs hjob).2⟩
  refine hnew.life ?_ steps ?_
  · rintro job ⟨id, incidentID, kind, at_, hkind, rfl⟩
    exact ⟨hkind, hempty⟩
  · rintro d hd ⟨hannounced, -⟩ job ⟨hkind, -⟩
    refine ⟨?_, ?_⟩
    · rwa [show (d.marked c job).kind = job.kind from
        congrArg JobFact.kind (d.fact_marked c job)]
    · rw [Delivery.marked]
      cases hmessage : d.message c with
      | error text =>
          rcases Delivery.of_message_error hmessage with hmissing | htest | ⟨kind, hother⟩
          · rw [Delivery.message, hmissing] at hmessage
            injection hmessage with htext
            have hwords : ¬ token.toList <:+: text.toList := by
              rw [← htext]
              exact not_infix_of_short htoken hlength (by decide)
            exact hwords
          · rw [htest] at hannounced
            cases hannounced
          · rw [hother] at hannounced
            cases hannounced
      | ok message =>
          cases hresult : d.result with
          | receipt adapter externalID => exact hempty
          | error text err =>
              obtain ⟨exchange, hexchange⟩ := hthrough d hd ⟨message, hmessage⟩
              have htext := not_infix_of_error hlib hsegment hlength htoken
                (hexchange.symm.trans hresult)
              cases err with
              | none => exact htext
              | some err => exact htext

/-- `text` of the sample library keeps ASCII. -/
lemma sampleDiscordLib_keepsAscii : sampleDiscordLib.KeepsAscii := by
  intro token bytes _ hinfix
  have hchar : ∀ n : Fin 256, (Char.ofNat n).toNat = n := by decide +kernel
  have hround : ∀ b ∈ bytes, UInt8.ofNat (Char.ofNat b.toNat).toNat = b := by
    intro b _
    rw [show (Char.ofNat b.toNat).toNat = b.toNat from hchar ⟨b.toNat, b.toNat_lt⟩]
    exact UInt8.ofNat_toNat
  rw [show (sampleDiscordLib.text bytes).toList = bytes.map fun b => Char.ofNat b.toNat from
    String.toList_ofList] at hinfix
  have hbytes := hinfix.map fun ch : Char => UInt8.ofNat ch.toNat
  have hsame := (List.map_congr_left hround).trans (List.map_id' bytes)
  rw [List.map_map, Function.comp_def, hsame] at hbytes
  exact hbytes

/-- The request fails, in words that have the token in them, and the process starts anew. -/
def sampleFailure : List LifeStep :=
  sampleOutage.map LifeStep.step ++
    [.step (.dispatch (.sorted String)
      (fun _ => ⟨sampleNotifier.send sampleDiscordLib (.failed sampleError), none⟩) 61000000000),
      .restart (.sorted String)]

theorem token_never_stored_sampleFailure :
    (Service.life sampleEngine sampleCourier {} sampleFailure).1.Every fun job =>
      ¬ "secret-webhook-token".toList <:+: job.lastError.toList := by
  refine token_never_stored sampleEngine sampleCourier sampleNotifier sampleDiscordLib
    sampleDiscordLib_keepsAscii "secret-webhook-token" (by decide) (by decide) (by decide)
    sampleFailure fun d hd => ?_
  rcases List.mem_append.mp hd with hd | hd
  · exact absurd hd List.not_mem_nil
  rcases List.mem_append.mp hd with hd | hd
  · exact absurd hd List.not_mem_nil
  rcases List.mem_append.mp hd with hd | hd
  · exact through_dispatchAll d hd
  · exact absurd hd List.not_mem_nil

end Logthing.Notification
