import Logthing.Api.IncidentPages
import Logthing.Core.EventStream
import Logthing.Realtime.Hub
import Logthing.Storage.RecordTable
import Logthing.Storage.TextFilter

/-!
# The message stream

`handleMessageStream` subscribes to the hub and writes each message that its filter accepts to the
connection as an event, until the client leaves or a write fails.  What it writes is read as an
event stream.

**Main results.**  `messages_streamed`: in every interleaving with the hub, a client is shown
messages that were published after it subscribed and that its filter accepts, in order and each
once; while the handler runs, it is shown all of them but those that found the buffer full and those
that are in the buffer still.
-/

namespace Logthing.Api

open EventStream Realtime

/-! ## The handler -/

/-- What a `select` of the loop comes to, with how many characters of what is written then the
connection takes before it fails, if it does. -/
inductive StreamCase where
  | done
  | closed
  | message (msg : Message) (fails : Option ℕ)
  | heartbeat (fails : Option ℕ)

/-- What the handler has written to the connection and read from its channel, and whether it has
returned. -/
structure MessageStream where
  written : List Char := []
  read : List Message := []
  returned : Bool := false

/-- A write to the connection. -/
def MessageStream.write (s : MessageStream) (text : List Char) (fails : Option ℕ) :
    MessageStream :=
  match fails with
  | none => { s with written := s.written ++ text }
  | some n => { s with written := s.written ++ text.take n, returned := true }

/-- `writeMessageEvent`, where `marshal` is `json.Marshal`. -/
def writeMessageEvent (marshal : Message → Option String) (s : MessageStream) (msg : Message)
    (fails : Option ℕ) : MessageStream :=
  match marshal msg with
  | none => { s with returned := true }
  | some data =>
      s.write ("event: message\ndata: ".toList ++ data.toList ++ "\n\n".toList) fails

/-- One turn of the loop. -/
def streamTurn (marshal : Message → Option String) (accepts : Message → Bool) (s : MessageStream) :
    StreamCase → MessageStream
  | .done => { s with returned := true }
  | .closed => { s with returned := true }
  | .message msg fails =>
      let s := { s with read := s.read ++ [msg] }
      if accepts msg then writeMessageEvent marshal s msg fails else s
  | .heartbeat fails => s.write ": keepalive\n\n".toList fails

/-- The loop. -/
def streamLoop (marshal : Message → Option String) (accepts : Message → Bool) :
    MessageStream → List StreamCase → MessageStream
  | s, [] => s
  | s, c :: cases =>
      if s.returned then s
      else streamLoop marshal accepts (streamTurn marshal accepts s c) cases

/-- `handleMessageStream`: whether the server has a hub, whether the connection can be flushed, and
whether the greeting fails. -/
def handleMessageStream (go : GoLib) (marshal : Message → Option String) (events flusher : Bool)
    (q : String) (greeting : Option ℕ) (cases : List StreamCase) :
    Except ErrorResponse MessageStream :=
  match compileTextFilter go q with
  | .error err => .error ⟨400, err⟩
  | .ok accepts =>
      if !events then .error ⟨503, "message stream is not configured"⟩
      else if !flusher then .error ⟨500, "message stream is not supported"⟩
      else .ok (streamLoop marshal accepts
        (MessageStream.write {} ": connected\n\n".toList greeting) cases)

/-! ## What is written -/

/-- The event of a message. -/
def IsEventOf (marshal : Message → Option String) (e : EventStream.Event) (msg : Message) : Prop :=
  ∃ data, marshal msg = some data ∧ e = ⟨"message".toList, data.toList⟩

/-- The events written are those of the messages read that the filter accepts, up to some point; up
to the last of them, and without a rest, while the handler runs. -/
def MessageStream.Shows (marshal : Message → Option String) (accepts : Message → Bool)
    (s : MessageStream) : Prop :=
  ∃ shown, List.Forall₂ (IsEventOf marshal) (events s.written) shown ∧
    shown <+: s.read.filter accepts ∧
    (s.returned = false → (run {} s.written).1 = {} ∧ shown = s.read.filter accepts)

section

variable {marshal : Message → Option String} {accepts : Message → Bool} {s : MessageStream}

/-- A handler that returns has shown what it had shown. -/
lemma MessageStream.Shows.return (h : s.Shows marshal accepts) (read : List Message) :
    MessageStream.Shows marshal accepts
      { s with read := s.read ++ read, returned := true } := by
  obtain ⟨shown, hshown, hprefix, -⟩ := h
  refine ⟨shown, hshown, hprefix.trans ?_, fun h => Bool.noConfusion h⟩
  rw [List.filter_append]
  exact List.prefix_append _ _

/-- A write of whole events. -/
lemma MessageStream.Shows.write (h : s.Shows marshal accepts) (hrunning : s.returned = false)
    {text : List Char} {es : List EventStream.Event} (htext : run {} text = ({}, es))
    (read : List Message) (hevents : List.Forall₂ (IsEventOf marshal) es (read.filter accepts))
    (fails : Option ℕ) :
    (MessageStream.write { s with read := s.read ++ read } text fails).Shows marshal accepts := by
  obtain ⟨shown, hshown, -, hwhole⟩ := h
  obtain ⟨hstate, rfl⟩ := hwhole hrunning
  cases fails with
  | none =>
      refine ⟨s.read.filter accepts ++ read.filter accepts, ?_, ?_, fun _ => ⟨?_, ?_⟩⟩
      · rw [MessageStream.write, events_append hstate, events, events, htext]
        exact List.rel_append hshown hevents
      · rw [MessageStream.write, List.filter_append]
      · rw [MessageStream.write, run_append, hstate, htext]
      · rw [MessageStream.write, List.filter_append]
  | some n =>
      have hcut : events (text.take n) <+: es := by
        have hprefix := run_prefix (List.take_prefix n text) {}
        rwa [htext] at hprefix
      obtain ⟨k, hk⟩ : ∃ k, events (text.take n) = es.take k :=
        ⟨_, List.prefix_iff_eq_take.mp hcut⟩
      refine ⟨s.read.filter accepts ++ (read.filter accepts).take k, ?_, ?_,
        fun h => Bool.noConfusion h⟩
      · rw [MessageStream.write, events_append hstate, hk]
        exact List.rel_append hshown (List.forall₂_take k hevents)
      · rw [MessageStream.write, List.filter_append]
        exact (List.prefix_append_right_inj _).mpr (List.take_prefix _ _)

/-- What `writeMessageEvent` writes is a frame. -/
lemma frame_message (data : String) :
    "event: message\ndata: ".toList ++ data.toList ++ "\n\n".toList
      = frame "message".toList data.toList := by
  simp [frame, field]

/-- **One turn** of the loop. -/
lemma MessageStream.Shows.turn
    (hflat : ∀ msg data, marshal msg = some data → Flat data.toList)
    (h : s.Shows marshal accepts) (hrunning : s.returned = false) (c : StreamCase) :
    (streamTurn marshal accepts s c).Shows marshal accepts := by
  cases c with
  | done =>
      have hturn : streamTurn marshal accepts s .done
          = { s with read := s.read ++ [], returned := true } := by simp [streamTurn]
      exact hturn ▸ h.return []
  | closed =>
      have hturn : streamTurn marshal accepts s .closed
          = { s with read := s.read ++ [], returned := true } := by simp [streamTurn]
      exact hturn ▸ h.return []
  | message msg fails =>
      rw [streamTurn]
      split_ifs with haccepts
      · cases hmarshal : marshal msg with
        | none =>
            simp only [writeMessageEvent, hmarshal]
            exact h.return [msg]
        | some data =>
            simp only [writeMessageEvent, hmarshal, frame_message]
            have htype : Flat "message".toList := ⟨by decide, by decide⟩
            have hframe := run_frame htype (hflat msg data hmarshal) (by decide)
            refine h.write hrunning hframe [msg] ?_ fails
            rw [List.filter_singleton, haccepts]
            exact .cons ⟨data, hmarshal, rfl⟩ .nil
      · obtain ⟨shown, hshown, hprefix, hwhole⟩ := h
        have hsame : (s.read ++ [msg]).filter accepts = s.read.filter accepts := by
          simp [haccepts]
        exact ⟨shown, hshown, hsame ▸ hprefix, fun hr => hsame ▸ hwhole hr⟩
  | heartbeat fails =>
      have htext : Flat " keepalive".toList := ⟨by decide, by decide⟩
      have hcomment : run {} ": keepalive\n\n".toList = ({}, []) := by
        rw [show ": keepalive\n\n".toList = comment " keepalive".toList by simp [comment]]
        exact run_comment htext
      have hturn : streamTurn marshal accepts s (.heartbeat fails)
          = MessageStream.write { s with read := s.read ++ [] } ": keepalive\n\n".toList fails := by
        simp [streamTurn]
      exact hturn ▸ h.write hrunning hcomment [] .nil fails

/-- **The loop**, turn after turn. -/
lemma MessageStream.Shows.loop
    (hflat : ∀ msg data, marshal msg = some data → Flat data.toList) (cases : List StreamCase)
    (h : s.Shows marshal accepts) : (streamLoop marshal accepts s cases).Shows marshal accepts := by
  induction cases generalizing s with
  | nil => exact h
  | cons c cases ih =>
      rw [streamLoop]
      split_ifs with hreturned
      · exact h
      · exact ih (h.turn hflat (by simpa using hreturned) c)

/-- The greeting. -/
lemma shows_greeting (marshal : Message → Option String) (accepts : Message → Bool)
    (greeting : Option ℕ) :
    (MessageStream.write {} ": connected\n\n".toList greeting).Shows marshal accepts := by
  have hnone : MessageStream.Shows marshal accepts {} :=
    ⟨[], .nil, List.prefix_rfl, fun _ => ⟨rfl, rfl⟩⟩
  have htext : Flat " connected".toList := ⟨by decide, by decide⟩
  have hcomment : run {} ": connected\n\n".toList = ({}, []) := by
    rw [show ": connected\n\n".toList = comment " connected".toList by simp [comment]]
    exact run_comment htext
  exact hnone.write rfl hcomment [] .nil greeting

/-- **The handler**, from the greeting on. -/
lemma shows_handler {go : GoLib} (hflat : ∀ msg data, marshal msg = some data → Flat data.toList)
    {events flusher : Bool} {q : String} {greeting : Option ℕ} {cases : List StreamCase}
    (hstream : handleMessageStream go marshal events flusher q greeting cases = .ok s) :
    ∃ accepts, compileTextFilter go q = .ok accepts ∧ s.Shows marshal accepts := by
  rw [handleMessageStream] at hstream
  cases hcompile : compileTextFilter go q with
  | error err => simp [hcompile] at hstream
  | ok accepts =>
      simp only [hcompile] at hstream
      split_ifs at hstream
      obtain rfl := Except.ok.inj hstream
      exact ⟨accepts, rfl, (shows_greeting marshal accepts greeting).loop hflat cases⟩

end

/-! ## The stream and the hub -/

/-- **The message stream**, in every interleaving with the hub.  `marshal` writes no line ends; what
the handler has read is what was received from its channel `ch`.  The events that its client makes
of what was written are those of accepted messages that were published since it subscribed, in
order, and none is left out in between but those that found the buffer full; and while the handler
runs, only those that are in the buffer still are left out at the end. -/
theorem messages_streamed (go : GoLib) (marshal : Message → Option String)
    (hflat : ∀ msg data, marshal msg = some data → Flat data.toList) (events flusher : Bool)
    (q : String) (greeting : Option ℕ) (cases : List StreamCase) (stream : MessageStream)
    (hstream : handleMessageStream go marshal events flusher q greeting cases = .ok stream)
    {t : List (System Message × Step Message)} {s : System Message} (h : Trace t s) (ch : ℕ)
    (hread : stream.read = received ch t) :
    ∃ accepts, compileTextFilter go q = .ok accepts ∧
      ∃ shown, List.Forall₂ (IsEventOf marshal) (EventStream.events stream.written) shown ∧
        shown <+: (kept ch t).filter accepts ∧
        (stream.returned = false →
          shown ++ (s.buffer ch).filter accepts = (kept ch t).filter accepts) := by
  obtain ⟨accepts, hcompile, shown, hshown, hprefix, hwhole⟩ := shows_handler hflat hstream
  have hkept : (kept ch t).filter accepts
      = (received ch t).filter accepts ++ (s.buffer ch).filter accepts := by
    rw [← (h.told ch).delivered, List.filter_append]
  rw [hread] at hprefix hwhole
  refine ⟨accepts, hcompile, shown, hshown, ?_, fun hrunning => ?_⟩
  · rw [hkept]
    exact hprefix.trans (List.prefix_append _ _)
  · rw [hkept, (hwhole hrunning).2]

/-- A hub with one channel that has these messages in its buffer. -/
def hubOf (buffer : List Message) : System Message :=
  ⟨[⟨buffer, false, .subscribed⟩], insert 0 ∅⟩

/-- A message is published to a client that has subscribed, which reads it. -/
def readTrace (msg : Message) : List (System Message × Step Message) :=
  [(.new, .subscribe), (hubOf [], .publish msg [0]), (hubOf [msg], .receive 0)]

lemma readTrace_trace (msg : Message) : Trace (readTrace msg) (hubOf []) := by
  have hsubscribe : Trace ((readTrace msg).take 1) (hubOf []) := Trace.start.step trivial rfl
  have hpublish : Trace ((readTrace msg).take 2) (hubOf [msg]) :=
    hsubscribe.step ⟨by simp, by simp [hubOf]⟩ rfl
  exact hpublish.step trivial rfl

/-- `sampleMessage` as it is served. -/
def sampleText : String := "\x7b\"id\":\"one\",\"received_at\":\"0001-01-01T00:00:01Z\"\x7d"

/-- The stream of a client that is shown `sampleMessage`. -/
def sampleStream : MessageStream where
  written := ": connected\n\n".toList
    ++ ("event: message\ndata: ".toList ++ sampleText.toList ++ "\n\n".toList)
    ++ ": keepalive\n\n".toList
  read := [sampleMessage]

theorem messages_streamed_sampleStream :
    ∃ accepts, compileTextFilter sampleLib "" = .ok accepts ∧
      ∃ shown, List.Forall₂ (IsEventOf fun _ => some sampleText)
          (events sampleStream.written) shown ∧
        shown <+: (kept 0 (readTrace sampleMessage)).filter accepts ∧
        (sampleStream.returned = false → shown ++ ((hubOf []).buffer 0).filter accepts
          = (kept 0 (readTrace sampleMessage)).filter accepts) := by
  have hflat : ∀ (msg : Message) (data : String), some sampleText = some data →
      Flat data.toList := by
    intro msg data hdata
    rw [← Option.some.inj hdata]
    exact ⟨by decide, by decide⟩
  have hstream : handleMessageStream sampleLib (fun _ => some sampleText) true true "" none
      [.message sampleMessage none, .heartbeat none] = .ok sampleStream := rfl
  exact messages_streamed sampleLib (fun _ => some sampleText) hflat true true "" none _ _ hstream
    (readTrace_trace sampleMessage) 0 rfl

end Logthing.Api
