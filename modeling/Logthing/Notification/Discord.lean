import Logthing.Core.Replace
import Logthing.Storage.RecordTable

/-!
# Transport errors of the Discord notifier

The webhook's URL is a secret: whoever has it may post.  Its path ends in the token, and the text
of a transport error may quote any part of it, so `safeTransportCause` replaces the URL, its parts
and the segments of its path before the text is stored with the job and served.

**Main results.**

* `segment_redacted`: no long segment of the path is in the text that is returned.
-/

namespace Logthing.Notification

/-- The byte `'/'`. -/
def slash : UInt8 := 47

/-- `url.URL`, with what its methods `String` and `EscapedPath` return. -/
structure URL where
  scheme : Bytes
  host : Bytes
  path : Bytes
  rawQuery : Bytes
  text : Bytes
  escapedPath : Bytes

/-- `DiscordNotifier`: a webhook that `newDiscord` accepted. -/
structure DiscordNotifier where
  webhook : URL
  https : webhook.scheme = asciiBytes "https"
  named : webhook.host ≠ []

/-- `newDiscord`, where `parse` is `url.Parse`. -/
def newDiscord (parse : List Char → Option URL) (webhookURL : List Char) :
    Except String DiscordNotifier :=
  match parse (Text.trimSpace webhookURL) with
  | none => .error "Discord webhook URL is invalid"
  | some parsed =>
      if parsed.scheme = [] then .error "Discord webhook URL is invalid"
      else if hhost : parsed.host = [] then .error "Discord webhook URL is invalid"
      else if hscheme : parsed.scheme = asciiBytes "https" then .ok ⟨parsed, hscheme, hhost⟩
      else .error "Discord webhook URL must use HTTPS"

/-- The error of an HTTP request, as `safeTransportCause` looks at it. -/
structure TransportError where
  /-- `errors.Is(err, context.DeadlineExceeded)`. -/
  deadlineExceeded : Bool
  /-- `errors.Is(err, context.Canceled)`. -/
  canceled : Bool
  /-- The text of `urlErr.Err`, if `errors.As` finds a `*url.Error`. -/
  wrapped : Option Bytes
  /-- `err.Error()`. -/
  text : Bytes

/-- `"[redacted]"`. -/
def redaction : Bytes := asciiBytes "[redacted]"

/-- `strings.Trim(path, "/")`. -/
def trimSlashes (path : Bytes) : Bytes := (path.dropWhile (· = slash)).rdropWhile (· = slash)

/-- What `safeTransportCause` looks for, in its order. -/
def secrets (webhook : URL) : List Bytes :=
  [webhook.text, webhook.escapedPath, webhook.path, webhook.rawQuery] ++
    (trimSlashes webhook.path).splitOn slash

/-- One round of the loop over the secrets: short ones are left. -/
def redact (cause secret : Bytes) : Bytes :=
  if 8 ≤ secret.length then Text.replaceAll cause secret redaction else cause

/-- `safeTransportCause`. -/
def safeTransportCause (notifier : DiscordNotifier) (err : TransportError) : Bytes :=
  if err.deadlineExceeded then asciiBytes "request timed out"
  else if err.canceled then asciiBytes "request canceled"
  else (secrets notifier.webhook).foldl redact (err.wrapped.getD err.text)

/-- The bytes a webhook's identifier and token are written with: `[A-Za-z0-9_-]`. -/
def isTokenByte (b : UInt8) : Bool :=
  (65 ≤ b && b ≤ 90) || (97 ≤ b && b ≤ 122) || (48 ≤ b && b ≤ 57) || b = 95 || b = 45

/-! ## Segments -/

/-- Leading slashes only separate empty segments from the rest. -/
lemma mem_splitOn_dropWhile {segment : Bytes} (hne : segment ≠ []) (path : Bytes) :
    segment ∈ path.splitOn slash → segment ∈ (path.dropWhile (· = slash)).splitOn slash := by
  induction path with
  | nil => exact fun h => h
  | cons b path ih =>
      intro h
      by_cases hb : b = slash
      · rw [List.splitOn_cons_eq_if_modifyHead, if_pos (by simp [hb])] at h
        rw [List.dropWhile_cons_of_pos (by simpa using hb)]
        exact ih ((List.mem_cons.mp h).resolve_left hne)
      · rwa [List.dropWhile_cons_of_neg (by simpa using hb)]

/-- So do trailing ones. -/
lemma mem_splitOn_rdropWhile {segment : Bytes} (hne : segment ≠ []) (path : Bytes) :
    segment ∈ path.splitOn slash → segment ∈ (path.rdropWhile (· = slash)).splitOn slash := by
  induction path using List.reverseRecOn with
  | nil => exact fun h => h
  | append_singleton path b ih =>
      intro h
      by_cases hb : b = slash
      · subst hb
        rw [List.splitOn_append_cons_self] at h
        rw [List.rdropWhile_concat_pos _ _ _ (by simp)]
        refine ih ((List.mem_append.mp h).resolve_right ?_)
        simpa using hne
      · rwa [List.rdropWhile_concat_neg _ _ _ (by simpa using hb)]

lemma mem_secrets {webhook : URL} {segment : Bytes} (hne : segment ≠ [])
    (h : segment ∈ webhook.path.splitOn slash) : segment ∈ secrets webhook :=
  List.mem_append_right _ (mem_splitOn_rdropWhile hne _ (mem_splitOn_dropWhile hne _ h))

/-! ## Redaction -/

/-- A token of eight bytes or more, other than `redacted`, has no part of a replacement in it. -/
lemma bracketed_redaction {token : Bytes} (hlength : 8 ≤ token.length)
    (hbytes : ∀ b ∈ token, isTokenByte b = true) (hword : token ≠ asciiBytes "redacted") :
    Text.Bracketed redaction token := by
  refine ⟨91, asciiBytes "redacted", 93, by decide, fun h => ?_, fun h => ?_, fun h => ?_⟩
  · exact absurd (hbytes 91 h) (by decide)
  · exact absurd (hbytes 93 h) (by decide)
  · exact hword (h.eq_of_length_le hlength)

/-- Redacting another secret does not bring a token back. -/
lemma not_infix_redact {token : Bytes} (h : Text.Bracketed redaction token) {cause : Bytes}
    (hcause : ¬token <:+: cause) (secret : Bytes) : ¬token <:+: redact cause secret := by
  rw [redact]
  split_ifs with hlength
  · exact Text.not_infix_replaceAll (List.ne_nil_of_length_pos (by omega)) h hcause
  · exact hcause

lemma not_infix_foldl_redact {token : Bytes} (h : Text.Bracketed redaction token)
    (others : List Bytes) {cause : Bytes} (hcause : ¬token <:+: cause) :
    ¬token <:+: others.foldl redact cause := by
  induction others generalizing cause with
  | nil => exact hcause
  | cons secret others ih => exact ih (not_infix_redact h hcause secret)

/-- A secret of the list is not in the text once the loop is over. -/
lemma not_infix_of_mem {token : Bytes} (hlength : 8 ≤ token.length)
    (h : Text.Bracketed redaction token) {all : List Bytes} (hmem : token ∈ all) (cause : Bytes) :
    ¬token <:+: all.foldl redact cause := by
  obtain ⟨before, after, rfl⟩ := List.append_of_mem hmem
  rw [List.foldl_append, List.foldl_cons]
  refine not_infix_foldl_redact h after ?_
  rw [redact, if_pos hlength]
  exact Text.not_infix_replaceAll_self (List.ne_nil_of_length_pos (by omega)) h _

/-- **Webhook secrets do not survive redaction**: whatever the error says, the text that is
returned on the path that quotes it has no segment of the webhook's path in it that is a token of
eight bytes or more, the word `redacted` apart. -/
theorem segment_redacted (notifier : DiscordNotifier) (err : TransportError)
    (hdeadline : err.deadlineExceeded = false) (hcanceled : err.canceled = false)
    (segment : Bytes) (hsegment : segment ∈ notifier.webhook.path.splitOn slash)
    (hlength : 8 ≤ segment.length) (hbytes : ∀ b ∈ segment, isTokenByte b = true)
    (hword : segment ≠ asciiBytes "redacted") :
    ¬segment <:+: safeTransportCause notifier err := by
  have hne : segment ≠ [] := List.ne_nil_of_length_pos (by omega)
  rw [safeTransportCause, if_neg (by simp [hdeadline]), if_neg (by simp [hcanceled])]
  exact not_infix_of_mem hlength (bracketed_redaction hlength hbytes hword)
    (mem_secrets hne hsegment) _

/-- A webhook in the form Discord gives them. -/
def sampleNotifier : DiscordNotifier where
  webhook :=
    { scheme := asciiBytes "https", host := asciiBytes "discord.example",
      path := asciiBytes "/api/webhooks/12345678/secret-webhook-token", rawQuery := [],
      text := asciiBytes "https://discord.example/api/webhooks/12345678/secret-webhook-token",
      escapedPath := asciiBytes "/api/webhooks/12345678/secret-webhook-token" }
  https := rfl
  named := by decide

/-- A transport error that names the token. -/
def sampleError : TransportError where
  deadlineExceeded := false
  canceled := false
  wrapped := some (asciiBytes "TLS verification failed for secret-webhook-token")
  text := asciiBytes "Post: TLS verification failed for secret-webhook-token"

theorem segment_redacted_token :
    ¬asciiBytes "secret-webhook-token" <:+: safeTransportCause sampleNotifier sampleError :=
  segment_redacted sampleNotifier sampleError rfl rfl (asciiBytes "secret-webhook-token")
    (by decide) (by decide) (List.all_eq_true.mp (by decide)) (by decide)

example : safeTransportCause sampleNotifier sampleError
    = asciiBytes "TLS verification failed for [redacted]" := by decide +kernel

end Logthing.Notification
