import Mathlib.Data.Finset.Basic
import Mathlib.Data.List.TakeWhile

/-!
# The realtime hub

`Hub` hands every published message to its subscribers, each of which reads from a channel with a
buffer of 64.  `Publish` sends under the hub's mutex and drops what a full buffer does not take; a
subscriber leaves by its unsubscribe function, which deletes the channel from the hub under the
mutex and closes it afterwards.

A `System` is the hub and every channel it has made, by number.  A step is one atomic section: a
whole `Subscribe` or `Publish`, one receive, or one of the two halves of an unsubscribe.  A `Trace`
is any sequence of steps with the state each was taken in, in which no unsubscribe is called twice.

**Main results.**

* `Sound.publish`: in every state a trace reaches, a `Publish` comes to its end: it neither meets a
  closed channel nor waits.
* `hub_delivers`: what a subscriber has received, and what is in its buffer still, is what was
  published while it was subscribed, in order, except at the moments when its buffer was full.
-/

namespace Logthing.Realtime

/-- What comes of an operation on channels. -/
inductive Outcome (α : Type*) where
  | done (result : α)
  | panics (cause : String)
  | blocks

/-- How far a subscriber's unsubscribe function has come. -/
inductive Phase where
  | subscribed
  | removed
  | closed
  deriving DecidableEq

/-- A channel, and what its subscriber has done about leaving. -/
structure Channel (M : Type*) where
  buffer : List M
  closed : Bool
  phase : Phase

/-- The hub, and the channels made so far. -/
structure System (M : Type*) where
  channels : List (Channel M)
  subscribers : Finset ℕ

/-- `subscriberBuffer`. -/
def subscriberBuffer : ℕ := 64

variable {M : Type*}

/-! ## Channels -/

/-- `ch <- msg`. -/
def Channel.send (c : Channel M) (msg : M) : Outcome (Channel M) :=
  if c.closed then .panics "send on closed channel"
  else if c.buffer.length < subscriberBuffer then .done { c with buffer := c.buffer ++ [msg] }
  else .blocks

/-- The `select` of `Publish`: its `default` case is taken when the send would wait. -/
def Channel.selectSend (c : Channel M) (msg : M) : Outcome (Channel M) :=
  match c.send msg with
  | .done c' => .done c'
  | .panics cause => .panics cause
  | .blocks => .done c

/-- `<-ch`: what is in the buffer first; then a closed channel gives a zero value at once. -/
def Channel.receive (c : Channel M) : Outcome (Channel M) :=
  match c.buffer with
  | _ :: rest => .done { c with buffer := rest }
  | [] => if c.closed then .done c else .blocks

/-- `close(ch)`. -/
def Channel.close (c : Channel M) : Outcome (Channel M) :=
  if c.closed then .panics "close of closed channel"
  else .done { c with closed := true, phase := .closed }

/-! ## Steps -/

/-- The atomic sections.  `Publish` ranges over the map of subscribers in some order. -/
inductive Step (M : Type*) where
  | subscribe
  | publish (msg : M) (order : List ℕ)
  | receive (ch : ℕ)
  | remove (ch : ℕ)
  | close (ch : ℕ)

/-- An operation on one channel of the system. -/
def System.on (s : System M) (ch : ℕ) (op : Channel M → Outcome (Channel M)) :
    Outcome (System M) :=
  match s.channels[ch]? with
  | none => .blocks
  | some c =>
      match op c with
      | .done c' => .done { s with channels := s.channels.set ch c' }
      | .panics cause => .panics cause
      | .blocks => .blocks

/-- The loop of `Publish`. -/
def System.sendTo (msg : M) : List ℕ → System M → Outcome (System M)
  | [], s => .done s
  | ch :: order, s =>
      match s.on ch (·.selectSend msg) with
      | .done s' => sendTo msg order s'
      | .panics cause => .panics cause
      | .blocks => .blocks

/-- One step. -/
def System.step (s : System M) : Step M → Outcome (System M)
  | .subscribe =>
      .done ⟨s.channels ++ [⟨[], false, .subscribed⟩], insert s.channels.length s.subscribers⟩
  | .publish msg order => s.sendTo msg order
  | .receive ch => s.on ch Channel.receive
  | .remove ch =>
      { s with subscribers := s.subscribers.erase ch }.on ch
        fun c => .done { c with phase := .removed }
  | .close ch => s.on ch Channel.close

/-- A hub without subscribers. -/
def System.new : System M := ⟨[], ∅⟩

/-- What a step is taken for: a `Publish` ranges over the subscribers, each once, and a subscriber
removes its channel at most once and closes it then. -/
def Allowed (s : System M) : Step M → Prop
  | .subscribe => True
  | .publish _ order => order.Nodup ∧ ∀ ch, ch ∈ order ↔ ch ∈ s.subscribers
  | .receive _ => True
  | .remove ch => ∃ c, s.channels[ch]? = some c ∧ c.phase = .subscribed
  | .close ch => ∃ c, s.channels[ch]? = some c ∧ c.phase = .removed

/-- The steps of a run, each with the state it was taken in, and the state at the end. -/
inductive Trace : List (System M × Step M) → System M → Prop
  | start : Trace [] System.new
  | step {t : List (System M × Step M)} {s s' : System M} {st : Step M} (h : Trace t s)
      (hallowed : Allowed s st) (hstep : s.step st = .done s') : Trace (t ++ [(s, st)]) s'

/-! ## What a trace shows of one subscriber -/

/-- The step that makes channel `ch`. -/
def subscribes (ch : ℕ) (e : System M × Step M) : Bool :=
  match e.2 with
  | .subscribe => e.1.channels.length = ch
  | _ => false

/-- The step that takes channel `ch` from the hub. -/
def removes (ch : ℕ) (e : System M × Step M) : Bool :=
  match e.2 with
  | .remove ch' => ch' = ch
  | _ => false

/-- The messages in a channel's buffer. -/
def System.buffer (s : System M) (ch : ℕ) : List M :=
  ((s.channels[ch]?).map Channel.buffer).getD []

/-- The message a step hands to the reader of `ch`. -/
def receivedIn (ch : ℕ) (e : System M × Step M) : Option M :=
  match e.2 with
  | .receive ch' => if ch' = ch then (e.1.buffer ch).head? else none
  | _ => none

/-- The message a step publishes, with the number of messages that are in the buffer of `ch`. -/
def publishedIn (ch : ℕ) (e : System M × Step M) : Option (M × ℕ) :=
  match e.2 with
  | .publish msg _ => some (msg, (e.1.buffer ch).length)
  | _ => none

/-- The steps between the subscription of `ch` and its removal. -/
def window (ch : ℕ) (t : List (System M × Step M)) : List (System M × Step M) :=
  (t.dropWhile (!subscribes ch ·)).takeWhile (!removes ch ·)

/-- What the reader of `ch` has received. -/
def received (ch : ℕ) (t : List (System M × Step M)) : List M := t.filterMap (receivedIn ch)

/-- What was published while `ch` was subscribed. -/
def published (ch : ℕ) (t : List (System M × Step M)) : List (M × ℕ) :=
  (window ch t).filterMap (publishedIn ch)

/-- What was published while `ch` was subscribed, except when its buffer held 64 messages. -/
def kept (ch : ℕ) (t : List (System M × Step M)) : List M :=
  ((published ch t).filter (·.2 < subscriberBuffer)).map Prod.fst

/-! ## What a step does to a channel -/

/-- A channel after a message was offered to it. -/
def Channel.offered (c : Channel M) (msg : M) : Channel M :=
  if c.buffer.length < subscriberBuffer then { c with buffer := c.buffer ++ [msg] } else c

@[simp] lemma Channel.offered_phase (c : Channel M) (msg : M) :
    (c.offered msg).phase = c.phase := by
  rw [offered]
  split_ifs <;> rfl

@[simp] lemma Channel.offered_closed (c : Channel M) (msg : M) :
    (c.offered msg).closed = c.closed := by
  rw [offered]
  split_ifs <;> rfl

/-- Sending to an open channel with a `default` neither panics nor waits. -/
lemma Channel.selectSend_open {c : Channel M} (h : c.closed = false) (msg : M) :
    c.selectSend msg = .done (c.offered msg) := by
  rw [selectSend, send, offered, if_neg (by simp [h])]
  split_ifs <;> rfl

lemma System.on_done {s s' : System M} {ch : ℕ} {op : Channel M → Outcome (Channel M)}
    (h : s.on ch op = .done s') : ∃ c c', s.channels[ch]? = some c ∧ op c = .done c' ∧
      s' = { s with channels := s.channels.set ch c' } := by
  rw [on] at h
  cases hc : s.channels[ch]? with
  | none => simp [hc] at h
  | some c =>
      simp only [hc] at h
      cases hop : op c with
      | done c' =>
          simp only [hop, Outcome.done.injEq] at h
          exact ⟨c, c', rfl, hop, h.symm⟩
      | panics cause => simp [hop] at h
      | blocks => simp [hop] at h

/-- Another channel is as it was. -/
lemma getElem?_set_eq {l : List (Channel M)} {ch : ℕ} {c : Channel M} (hc : l[ch]? = some c)
    (c' : Channel M) (k : ℕ) : (l.set ch c')[k]? = if k = ch then some c' else l[k]? := by
  obtain ⟨hlt, -⟩ := List.getElem?_eq_some_iff.mp hc
  rw [List.getElem?_set]
  by_cases hk : ch = k
  · subst hk
    simp [hlt]
  · rw [if_neg hk, if_neg (Ne.symm hk)]

/-- **The loop of `Publish`** offers the message to each channel of its range, if all are open. -/
lemma System.sendTo_done (msg : M) {order : List ℕ} (hnodup : order.Nodup) (s : System M)
    (hopen : ∀ ch ∈ order, ∃ c, s.channels[ch]? = some c ∧ c.closed = false) :
    ∃ s', s.sendTo msg order = .done s' ∧ s'.subscribers = s.subscribers ∧
      ∀ k, s'.channels[k]?
        = (s.channels[k]?).map fun c => if k ∈ order then c.offered msg else c := by
  induction order generalizing s with
  | nil => exact ⟨s, rfl, rfl, by simp⟩
  | cons ch order ih =>
      obtain ⟨hfresh, hnodup⟩ := List.nodup_cons.mp hnodup
      obtain ⟨c, hc, hclosed⟩ := hopen ch List.mem_cons_self
      have hset : ∀ k, (s.channels.set ch (c.offered msg))[k]?
          = if k = ch then some (c.offered msg) else s.channels[k]? :=
        getElem?_set_eq hc (c.offered msg)
      obtain ⟨s', hsend, hsubs, hchannels⟩ :=
        ih hnodup { s with channels := s.channels.set ch (c.offered msg) } fun k hk => by
          obtain ⟨c', hc', hclosed'⟩ := hopen k (List.mem_cons_of_mem _ hk)
          have hne : k ≠ ch := fun heq => hfresh (heq ▸ hk)
          exact ⟨c', by rw [hset, if_neg hne, hc'], hclosed'⟩
      refine ⟨s', ?_, hsubs, fun k => ?_⟩
      · simp only [sendTo, on, hc, Channel.selectSend_open hclosed, hsend]
      · rw [hchannels, hset]
        by_cases hk : k = ch
        · subst hk
          simp [hc, hfresh]
        · simp [hk]

/-! ## Windows -/

section Windows

variable {ch : ℕ} {t : List (System M × Step M)}

/-- The steps from the subscription of `ch` on. -/
def since (ch : ℕ) (t : List (System M × Step M)) : List (System M × Step M) :=
  t.dropWhile (!subscribes ch ·)

lemma since_concat_of_made (hmade : ∃ e ∈ t, subscribes ch e = true) (e : System M × Step M) :
    since ch (t ++ [e]) = since ch t ++ [e] := by
  have hne : ¬(t.dropWhile (!subscribes ch ·)).isEmpty := by
    rw [List.isEmpty_iff, List.dropWhile_eq_nil_iff]
    obtain ⟨x, hx, hsub⟩ := hmade
    exact fun hall => by simpa [hsub] using hall x hx
  rw [since, List.dropWhile_append, if_neg hne, ← since]

lemma since_eq_nil (hnew : ¬∃ e ∈ t, subscribes ch e = true) : since ch t = [] := by
  rw [since, List.dropWhile_eq_nil_iff]
  intro x hx
  simpa using fun hsub => hnew ⟨x, hx, hsub⟩

lemma since_concat_of_not_made (hnew : ¬∃ e ∈ t, subscribes ch e = true)
    (e : System M × Step M) : since ch (t ++ [e]) = if subscribes ch e then [e] else [] := by
  have hnil : (t.dropWhile (!subscribes ch ·)) = [] := since_eq_nil hnew
  rw [since, List.dropWhile_append, hnil, if_pos List.isEmpty_nil, List.dropWhile_cons]
  cases subscribes ch e <;> rfl

lemma window_concat_open (hmade : ∃ e ∈ t, subscribes ch e = true)
    (hin : ¬∃ e ∈ since ch t, removes ch e = true) {e : System M × Step M}
    (he : removes ch e = false) : window ch (t ++ [e]) = window ch t ++ [e] := by
  have hall : ∀ x ∈ since ch t, (!removes ch x) = true := by
    intro x hx
    simpa using fun hrem => hin ⟨x, hx, hrem⟩
  change (since ch (t ++ [e])).takeWhile _ = (since ch t).takeWhile _ ++ [e]
  rw [since_concat_of_made hmade, List.takeWhile_append_of_pos hall, List.takeWhile_cons_of_pos
    (by simp [he]), List.takeWhile_nil, List.takeWhile_eq_self_iff.mpr hall]

lemma window_concat_closed (hgone : ∃ e ∈ since ch t, removes ch e = true)
    (e : System M × Step M) : window ch (t ++ [e]) = window ch t := by
  have hmade : ∃ e ∈ t, subscribes ch e = true := by
    by_contra hnew
    rw [since_eq_nil hnew] at hgone
    simp at hgone
  change (since ch (t ++ [e])).takeWhile _ = (since ch t).takeWhile _
  rw [since_concat_of_made hmade, List.takeWhile_append, if_neg]
  intro hlength
  obtain ⟨x, hx, hrem⟩ := hgone
  have hself := (List.takeWhile_prefix _).eq_of_length hlength
  have := List.takeWhile_eq_self_iff.mp hself x hx
  simp [hrem] at this

lemma window_concat_before (hnew : ¬∃ e ∈ t, subscribes ch e = true) {e : System M × Step M}
    (he : subscribes ch e = false) : window ch (t ++ [e]) = window ch t := by
  change (since ch (t ++ [e])).takeWhile _ = (since ch t).takeWhile _
  rw [since_concat_of_not_made hnew, since_eq_nil hnew, he]
  rfl

/-- A step that publishes nothing adds nothing to what was published. -/
lemma published_concat_none {e : System M × Step M} (he : publishedIn ch e = none) :
    published ch (t ++ [e]) = published ch t := by
  have hsingle : ([e].takeWhile (!removes ch ·)).filterMap (publishedIn ch) = [] := by
    rw [List.takeWhile_cons]
    split_ifs
    · simp [he]
    · rfl
  by_cases hmade : ∃ e ∈ t, subscribes ch e = true
  · change ((since ch (t ++ [e])).takeWhile _).filterMap _ = ((since ch t).takeWhile _).filterMap _
    rw [since_concat_of_made hmade, List.takeWhile_append]
    split_ifs with hlength
    · rw [List.filterMap_append, hsingle, List.append_nil,
        (List.takeWhile_prefix _).eq_of_length hlength]
    · rfl
  · change ((since ch (t ++ [e])).takeWhile _).filterMap _ = ((since ch t).takeWhile _).filterMap _
    rw [since_concat_of_not_made hmade, since_eq_nil hmade]
    split_ifs
    · exact hsingle
    · rfl

/-- A removal counts from the subscription on. -/
lemma gone_concat (e : System M × Step M) :
    (∃ x ∈ since ch (t ++ [e]), removes ch x = true) ↔
      (∃ x ∈ since ch t, removes ch x = true) ∨
        (∃ x ∈ t, subscribes ch x = true) ∧ removes ch e = true := by
  by_cases hmade : ∃ x ∈ t, subscribes ch x = true
  · rw [since_concat_of_made hmade]
    simp [hmade, or_and_right, exists_or]
  · rw [since_concat_of_not_made hmade, since_eq_nil hmade]
    split_ifs with hsub
    · have hrem : removes ch e = false := by
        simp only [subscribes] at hsub
        split at hsub
        · rename_i hst
          simp [removes, hst]
        · cases hsub
      simp [hmade, hrem]
    · simp [hmade]

end Windows

/-! ## The invariant -/

/-- What holds of the hub in every state a trace reaches. -/
structure Sound (s : System M) : Prop where
  listed : ∀ ch : ℕ,
    ch ∈ s.subscribers ↔ ∃ c : Channel M, s.channels[ch]? = some c ∧ c.phase = .subscribed
  shut : ∀ (ch : ℕ) (c : Channel M), s.channels[ch]? = some c → (c.closed = true ↔ c.phase = .closed)
  capacity : ∀ (ch : ℕ) (c : Channel M), s.channels[ch]? = some c → c.buffer.length ≤ subscriberBuffer

/-- What holds of a subscriber and the steps before. -/
structure Told (ch : ℕ) (t : List (System M × Step M)) (s : System M) : Prop where
  made : (∃ e ∈ t, subscribes ch e = true) ↔ ch < s.channels.length
  gone : (∃ e ∈ since ch t, removes ch e = true) ↔
    ∃ c : Channel M, s.channels[ch]? = some c ∧ c.phase ≠ .subscribed
  delivered : received ch t ++ s.buffer ch = kept ch t

lemma Sound.open_of_mem {s : System M} (h : Sound s) {ch : ℕ} (hch : ch ∈ s.subscribers) :
    ∃ c, s.channels[ch]? = some c ∧ c.closed = false := by
  obtain ⟨c, hc, hphase⟩ := (h.listed ch).mp hch
  refine ⟨c, hc, ?_⟩
  by_contra hclosed
  have := (h.shut ch c hc).mp (by simpa using hclosed)
  rw [hphase] at this
  cases this

/-- One channel changes, and with it whether it is among the subscribers. -/
lemma Sound.set {s : System M} (h : Sound s) {ch : ℕ} {c c' : Channel M}
    (hc : s.channels[ch]? = some c) {subscribers : Finset ℕ}
    (hlisted : ch ∈ subscribers ↔ c'.phase = .subscribed)
    (hothers : ∀ k, k ≠ ch → (k ∈ subscribers ↔ k ∈ s.subscribers))
    (hshut : c'.closed = true ↔ c'.phase = .closed)
    (hlength : c'.buffer.length ≤ subscriberBuffer) :
    Sound ⟨s.channels.set ch c', subscribers⟩ := by
  have hset : ∀ k, (s.channels.set ch c')[k]? = if k = ch then some c' else s.channels[k]? :=
    getElem?_set_eq hc c'
  refine ⟨fun k => ?_, fun k d hd => ?_, fun k d hd => ?_⟩
  · by_cases hk : k = ch
    · simp [hset, hk, hlisted]
    · simpa [hset, hk, hothers k hk] using h.listed k
  · simp only [hset] at hd
    split_ifs at hd with hk
    · rwa [← Option.some.inj hd]
    · exact h.shut k d hd
  · simp only [hset] at hd
    split_ifs at hd with hk
    · rwa [← Option.some.inj hd]
    · exact h.capacity k d hd

lemma getElem?_concat_eq (l : List (Channel M)) (c : Channel M) (k : ℕ) :
    (l ++ [c])[k]? = if k = l.length then some c else l[k]? := by
  rcases Nat.lt_trichotomy k l.length with hk | hk | hk
  · rw [List.getElem?_append_left hk, if_neg (by omega)]
  · simp [hk]
  · rw [if_neg (by omega), List.getElem?_eq_none (by simp; omega),
      List.getElem?_eq_none (by omega)]

lemma Channel.offered_length (c : Channel M) (msg : M) (h : c.buffer.length ≤ subscriberBuffer) :
    (c.offered msg).buffer.length ≤ subscriberBuffer := by
  rw [offered]
  split_ifs with hroom
  · rw [List.length_append, List.length_singleton]
    exact hroom
  · exact h

lemma Channel.receive_done {c c' : Channel M} (h : c.receive = .done c') :
    c'.buffer = c.buffer.tail ∧ c'.closed = c.closed ∧ c'.phase = c.phase := by
  rw [receive] at h
  split at h
  · rename_i msg rest hbuffer
    obtain rfl := Outcome.done.inj h
    exact ⟨by rw [hbuffer]; rfl, rfl, rfl⟩
  · rename_i hbuffer
    split_ifs at h
    obtain rfl := Outcome.done.inj h
    exact ⟨by rw [hbuffer]; rfl, rfl, rfl⟩

lemma Channel.close_done {c c' : Channel M} (h : c.close = .done c') :
    c'.buffer = c.buffer ∧ c'.closed = true ∧ c'.phase = .closed := by
  rw [close] at h
  split_ifs at h
  obtain rfl := Outcome.done.inj h
  exact ⟨rfl, rfl, rfl⟩

/-- **What a `Publish` does**: it comes to its end, and offers its message to every subscriber. -/
lemma Sound.publish {s : System M} (h : Sound s) {msg : M} {order : List ℕ}
    (hallowed : Allowed s (.publish msg order)) :
    ∃ s', s.step (.publish msg order) = .done s' ∧ s'.subscribers = s.subscribers ∧
      ∀ k, s'.channels[k]?
        = (s.channels[k]?).map fun c => if k ∈ s.subscribers then c.offered msg else c := by
  obtain ⟨hnodup, horder⟩ := hallowed
  obtain ⟨s', hsend, hsubs, hchannels⟩ := System.sendTo_done msg hnodup s fun ch hch =>
    h.open_of_mem ((horder ch).mp hch)
  exact ⟨s', hsend, hsubs, by simpa only [horder] using hchannels⟩

/-- Removing takes the channel out of the hub and changes nothing else of it. -/
lemma System.step_remove {s s' : System M} {ch : ℕ} (hallowed : Allowed s (.remove ch))
    (hstep : s.step (.remove ch) = .done s') :
    ∃ c, s.channels[ch]? = some c ∧ c.phase = .subscribed ∧
      s' = ⟨s.channels.set ch { c with phase := .removed }, s.subscribers.erase ch⟩ := by
  obtain ⟨c, hc, hphase⟩ := hallowed
  refine ⟨c, hc, hphase, ?_⟩
  simp only [step, on, hc, Outcome.done.injEq] at hstep
  exact hstep.symm

/-- **A step keeps the hub sound**. -/
lemma Sound.step {s s' : System M} {st : Step M} (h : Sound s) (hallowed : Allowed s st)
    (hstep : s.step st = .done s') : Sound s' := by
  cases st with
  | subscribe =>
      obtain rfl := Outcome.done.inj hstep
      refine ⟨fun k => ?_, fun k d hd => ?_, fun k d hd => ?_⟩
      · by_cases hk : k = s.channels.length
        · simp [hk]
        · simpa [getElem?_concat_eq, hk] using h.listed k
      · simp only [getElem?_concat_eq] at hd
        split_ifs at hd with hk
        · simp [← Option.some.inj hd]
        · exact h.shut k d hd
      · simp only [getElem?_concat_eq] at hd
        split_ifs at hd with hk
        · simp [← Option.some.inj hd]
        · exact h.capacity k d hd
  | publish msg order =>
      obtain ⟨s'', hpublish, hsubs, hchannels⟩ := h.publish hallowed
      obtain rfl := Outcome.done.inj (hpublish.symm.trans hstep)
      refine ⟨fun k => ?_, fun k d hd => ?_, fun k d hd => ?_⟩
      · rw [hsubs, h.listed, hchannels]
        cases s.channels[k]? with
        | none => simp
        | some c =>
            simp only [Option.map_some, Option.some.injEq, exists_eq_left']
            split_ifs <;> simp
      · rw [hchannels, Option.map_eq_some_iff] at hd
        obtain ⟨c, hc, rfl⟩ := hd
        split_ifs
        · simpa using h.shut k c hc
        · exact h.shut k c hc
      · rw [hchannels, Option.map_eq_some_iff] at hd
        obtain ⟨c, hc, rfl⟩ := hd
        split_ifs
        · exact c.offered_length msg (h.capacity k c hc)
        · exact h.capacity k c hc
  | receive ch =>
      obtain ⟨c, c', hc, hdone, rfl⟩ := System.on_done hstep
      obtain ⟨hbuffer, hclosed, hphase⟩ := Channel.receive_done hdone
      refine h.set hc ?_ (fun _ _ => Iff.rfl) ?_ ?_
      · rw [h.listed, hphase]
        simp [hc]
      · rw [hclosed, hphase]
        exact h.shut ch c hc
      · rw [hbuffer, List.length_tail]
        have := h.capacity ch c hc
        omega
  | remove ch =>
      obtain ⟨c, hc, hphase, rfl⟩ := System.step_remove hallowed hstep
      have hopen : c.closed = false := by
        have := h.shut ch c hc
        rw [hphase] at this
        simpa using this
      exact h.set hc (by simp) (fun k hk => by simp [hk]) (by simp [hopen]) (h.capacity ch c hc)
  | close ch =>
      obtain ⟨c, c', hc, hdone, rfl⟩ := System.on_done hstep
      obtain ⟨d, hd, hphase⟩ := hallowed
      obtain rfl := Option.some.inj (hc.symm.trans hd)
      obtain ⟨hbuffer, hclosed, hphase'⟩ := Channel.close_done hdone
      refine h.set hc ?_ (fun _ _ => Iff.rfl) (by simp [hclosed, hphase']) ?_
      · rw [h.listed, hphase']
        simp [hc, hphase]
      · rw [hbuffer]
        exact h.capacity ch c hc

lemma Sound.new : Sound (System.new : System M) where
  listed := by simp [System.new]
  shut := by simp [System.new]
  capacity := by simp [System.new]

lemma Trace.sound {t : List (System M × Step M)} {s : System M} (h : Trace t s) : Sound s := by
  induction h with
  | start => exact Sound.new
  | step _ hallowed hstep ih => exact ih.step hallowed hstep

/-! ## The story of a subscriber -/

section Told

variable {ch : ℕ} {t : List (System M × Step M)} {s : System M}

lemma received_concat (e : System M × Step M) :
    received ch (t ++ [e]) = received ch t ++ (receivedIn ch e).toList := by
  rw [received, List.filterMap_append, ← received]
  cases h : receivedIn ch e <;> simp [h]

lemma kept_concat_none {e : System M × Step M} (he : publishedIn ch e = none) :
    kept ch (t ++ [e]) = kept ch t := by
  rw [kept, published_concat_none he, kept]

lemma made_concat (e : System M × Step M) :
    (∃ x ∈ t ++ [e], subscribes ch x = true) ↔
      (∃ x ∈ t, subscribes ch x = true) ∨ subscribes ch e = true := by
  simp [or_and_right, exists_or]

/-- While a channel is subscribed, what is published is kept if there is room. -/
lemma kept_concat_publish (h : Told ch t s) {c : Channel M} (hc : s.channels[ch]? = some c)
    (hphase : c.phase = .subscribed) (msg : M) (order : List ℕ) :
    kept ch (t ++ [(s, .publish msg order)])
      = kept ch t ++ if c.buffer.length < subscriberBuffer then [msg] else [] := by
  have hmade := h.made.mpr (List.getElem?_eq_some_iff.mp hc).1
  have hin : ¬∃ e ∈ since ch t, removes ch e = true := by
    rw [h.gone]
    rintro ⟨d, hd, hne⟩
    obtain rfl := Option.some.inj (hc.symm.trans hd)
    exact hne hphase
  have hbuffer : s.buffer ch = c.buffer := by simp [System.buffer, hc]
  have hsingle : [(s, Step.publish msg order)].filterMap (publishedIn ch)
      = [(msg, c.buffer.length)] := by
    simp [publishedIn, hbuffer]
  rw [kept, published, window_concat_open hmade hin rfl, List.filterMap_append, ← published,
    hsingle, List.filter_append, List.map_append, ← kept]
  split_ifs with hroom <;> simp [hroom]

/-- Before the subscription and after the removal nothing is kept. -/
lemma kept_concat_outside (h : Told ch t s)
    (hout : ∀ c, s.channels[ch]? = some c → c.phase ≠ .subscribed) (msg : M) (order : List ℕ) :
    kept ch (t ++ [(s, .publish msg order)]) = kept ch t := by
  rw [kept, published, kept, published]
  cases hc : s.channels[ch]? with
  | none =>
      have hnew : ¬∃ e ∈ t, subscribes ch e = true := by
        rw [h.made, not_lt]
        exact List.getElem?_eq_none_iff.mp hc
      rw [window_concat_before hnew rfl]
  | some c => rw [window_concat_closed (h.gone.mpr ⟨c, hc, hout c hc⟩)]

/-- What is told of a subscriber goes on in a step that neither subscribes nor publishes. -/
lemma Told.next (h : Told ch t s) {s' : System M} {e : System M × Step M}
    (hlength : s'.channels.length = s.channels.length) (hsub : subscribes ch e = false)
    (hgone : (∃ c, s'.channels[ch]? = some c ∧ c.phase ≠ .subscribed) ↔
      (∃ c, s.channels[ch]? = some c ∧ c.phase ≠ .subscribed) ∨
        ch < s.channels.length ∧ removes ch e = true)
    (hpub : publishedIn ch e = none)
    (hbuffer : (receivedIn ch e).toList ++ s'.buffer ch = s.buffer ch) :
    Told ch (t ++ [e]) s' where
  made := by rw [made_concat, h.made, hsub, hlength]; simp
  gone := by rw [gone_concat, h.gone, h.made, hgone]
  delivered := by
    rw [received_concat, kept_concat_none hpub, List.append_assoc, hbuffer, h.delivered]

lemma buffer_set {k : ℕ} {c : Channel M} (hc : s.channels[k]? = some c) (c' : Channel M)
    (subscribers : Finset ℕ) (ch : ℕ) :
    (System.buffer ⟨s.channels.set k c', subscribers⟩ ch)
      = if ch = k then c'.buffer else s.buffer ch := by
  rw [System.buffer, getElem?_set_eq hc]
  split_ifs <;> rfl

/-- Whether another channel's reader has left does not change with `k`. -/
lemma gone_set {k : ℕ} {c : Channel M} (hc : s.channels[k]? = some c) (c' : Channel M)
    (ch : ℕ) :
    (∃ d, (s.channels.set k c')[ch]? = some d ∧ d.phase ≠ .subscribed) ↔
      if ch = k then c'.phase ≠ .subscribed
      else ∃ d, s.channels[ch]? = some d ∧ d.phase ≠ .subscribed := by
  rw [getElem?_set_eq hc]
  split_ifs <;> simp

/-- A `Publish` puts its message into the buffer of a subscriber, if there is room, and leaves
every other channel as it was. -/
lemma Told.publish {s' : System M} {msg : M} {order : List ℕ} (h : Told ch t s) (hs : Sound s)
    (hchannels : ∀ k, s'.channels[k]?
      = (s.channels[k]?).map fun c => if k ∈ s.subscribers then c.offered msg else c) :
    Told ch (t ++ [(s, .publish msg order)]) s' := by
  have hlookup := hchannels ch
  have hlength : ch < s'.channels.length ↔ ch < s.channels.length := by
    rw [← not_le, ← not_le, ← List.getElem?_eq_none_iff, ← List.getElem?_eq_none_iff, hlookup,
      Option.map_eq_none_iff]
  have hreceived : received ch (t ++ [(s, .publish msg order)]) = received ch t := by
    simp [received_concat, receivedIn]
  refine ⟨?_, ?_, ?_⟩
  · rw [made_concat, h.made, hlength]
    simp [subscribes]
  · rw [gone_concat, h.gone, hlookup]
    cases s.channels[ch]? with
    | none => simp [removes]
    | some c =>
        simp only [removes, Option.map_some, Option.some.injEq, exists_eq_left']
        split_ifs <;> simp
  · cases hc : s.channels[ch]? with
    | none =>
        have hbuffer : s'.buffer ch = s.buffer ch := by simp [System.buffer, hlookup, hc]
        rw [hreceived, hbuffer, kept_concat_outside h (by simp [hc]), h.delivered]
    | some c =>
        have hold : s.buffer ch = c.buffer := by simp [System.buffer, hc]
        have hmem : ch ∈ s.subscribers ↔ c.phase = .subscribed := by
          rw [hs.listed]
          simp [hc]
        by_cases hphase : c.phase = .subscribed
        · have hbuffer : s'.buffer ch
              = s.buffer ch ++ if c.buffer.length < subscriberBuffer then [msg] else [] := by
            rw [System.buffer, hlookup, hc, hold, Option.map_some, if_pos (hmem.mpr hphase),
              Option.map_some, Option.getD_some, Channel.offered]
            split_ifs <;> simp
          rw [hreceived, hbuffer, kept_concat_publish h hc hphase, ← List.append_assoc,
            h.delivered]
        · have hbuffer : s'.buffer ch = s.buffer ch := by
            rw [System.buffer, hlookup, hc, hold, Option.map_some,
              if_neg (mt hmem.mp hphase)]
            rfl
          have hout : ∀ d, s.channels[ch]? = some d → d.phase ≠ .subscribed := by
            simp [hc, hphase]
          rw [hreceived, hbuffer, kept_concat_outside h hout, h.delivered]

/-- **A step continues the story of every subscriber**. -/
lemma Told.step {s' : System M} {st : Step M} (h : Told ch t s) (hs : Sound s)
    (hallowed : Allowed s st) (hstep : s.step st = .done s') :
    Told ch (t ++ [(s, st)]) s' := by
  cases st with
  | subscribe =>
      obtain rfl := Outcome.done.inj hstep
      refine ⟨?_, ?_, ?_⟩
      · rw [made_concat, h.made]
        simp only [subscribes, decide_eq_true_eq, List.length_append, List.length_singleton]
        omega
      · rw [gone_concat, h.gone]
        simp only [removes, getElem?_concat_eq]
        by_cases hk : ch = s.channels.length
        · simp [hk]
        · simp [hk]
      · have hbuffer : System.buffer ⟨s.channels ++ [⟨[], false, .subscribed⟩],
            insert s.channels.length s.subscribers⟩ ch = s.buffer ch := by
          rw [System.buffer, getElem?_concat_eq, System.buffer]
          split_ifs with hk
          · simp [hk]
          · rfl
        rw [hbuffer, received_concat, kept_concat_none rfl, ← h.delivered]
        simp [receivedIn]
  | publish msg order =>
      obtain ⟨s'', hpublish, hsubs, hchannels⟩ := hs.publish hallowed
      obtain rfl := Outcome.done.inj (hpublish.symm.trans hstep)
      exact h.publish hs hchannels
  | receive k =>
      obtain ⟨c, c', hc, hdone, rfl⟩ := System.on_done hstep
      obtain ⟨hbuffer, -, hphase⟩ := Channel.receive_done hdone
      refine h.next (by simp) rfl ?_ rfl ?_
      · rw [gone_set hc]
        split_ifs with hk
        · simp [hk, hc, hphase, removes]
        · simp [removes]
      · rw [buffer_set hc]
        simp only [receivedIn]
        by_cases hk : ch = k
        · subst hk
          have hold : s.buffer ch = c.buffer := by simp [System.buffer, hc]
          rw [if_pos rfl, if_pos rfl, hold, hbuffer]
          cases c.buffer <;> rfl
        · rw [if_neg (Ne.symm hk), if_neg hk]
          rfl
  | remove k =>
      obtain ⟨c, hc, hphase, rfl⟩ := System.step_remove hallowed hstep
      refine h.next (by simp) rfl ?_ rfl ?_
      · rw [gone_set hc]
        split_ifs with hk
        · simp [hk, removes, (List.getElem?_eq_some_iff.mp hc).1]
        · simp [removes, Ne.symm hk]
      · rw [buffer_set hc]
        split_ifs with hk
        · simp [receivedIn, System.buffer, hk, hc]
        · simp [receivedIn]
  | close k =>
      obtain ⟨c, c', hc, hdone, rfl⟩ := System.on_done hstep
      obtain ⟨d, hd, hphase⟩ := hallowed
      obtain rfl := Option.some.inj (hc.symm.trans hd)
      obtain ⟨hbuffer, -, hphase'⟩ := Channel.close_done hdone
      refine h.next (by simp) rfl ?_ rfl ?_
      · rw [gone_set hc]
        split_ifs with hk
        · simp [hk, hc, hphase, hphase', removes]
        · simp [removes]
      · rw [buffer_set hc]
        split_ifs with hk
        · simp [receivedIn, System.buffer, hk, hc, hbuffer]
        · simp [receivedIn]

lemma Trace.told (h : Trace t s) (ch : ℕ) : Told ch t s := by
  induction h with
  | start => exact ⟨by simp [System.new], by simp [System.new, since],
      by simp [System.new, received, System.buffer, kept, published, window]⟩
  | step htrace hallowed hstep ih => exact ih.step htrace.sound hallowed hstep

end Told

/-! ## Delivery -/

/-- In a sound state no step panics: no channel is sent to when it is closed, or closed twice. -/
lemma Sound.step_ne_panics {s : System M} (h : Sound s) {st : Step M} (hallowed : Allowed s st)
    (cause : String) : s.step st ≠ .panics cause := by
  intro hpanic
  cases st with
  | subscribe => cases hpanic
  | publish msg order =>
      obtain ⟨s', hdone, -⟩ := h.publish hallowed
      rw [hdone] at hpanic
      cases hpanic
  | receive ch =>
      rw [System.step, System.on] at hpanic
      cases hc : s.channels[ch]? with
      | none => simp [hc] at hpanic
      | some c =>
          simp only [hc, Channel.receive] at hpanic
          split at hpanic
          · cases hpanic
          · rename_i cause' hreceive
            split at hreceive
            · cases hreceive
            · split_ifs at hreceive
          · cases hpanic
  | remove ch =>
      obtain ⟨c, hc, -⟩ := hallowed
      simp [System.step, System.on, hc] at hpanic
  | close ch =>
      obtain ⟨c, hc, hphase⟩ := hallowed
      have hopen : c.closed = false := by
        have := h.shut ch c hc
        rw [hphase] at this
        simpa using this
      simp [System.step, System.on, hc, Channel.close, hopen] at hpanic

lemma Trace.sound_of_mem {t : List (System M × Step M)} {s : System M} (h : Trace t s) :
    ∀ e ∈ t, Sound e.1 := by
  induction h with
  | start => simp
  | step htrace _ _ ih =>
      intro e he
      rcases List.mem_append.mp he with hold | hnew
      · exact ih e hold
      · rw [List.mem_singleton.mp hnew]
        exact htrace.sound

lemma Sound.buffer_length {s : System M} (h : Sound s) (ch : ℕ) :
    (s.buffer ch).length ≤ subscriberBuffer := by
  rw [System.buffer]
  cases hc : s.channels[ch]? with
  | none => simp
  | some c => exact h.capacity ch c hc

/-- No buffer ever held more than it has room for. -/
lemma Trace.published_le {t : List (System M × Step M)} {s : System M} (h : Trace t s) (ch : ℕ) :
    ∀ entry ∈ published ch t, entry.2 ≤ subscriberBuffer := by
  intro entry hentry
  obtain ⟨e, he, hpub⟩ := List.mem_filterMap.mp hentry
  have hmem : e ∈ t :=
    (List.dropWhile_suffix _).subset ((List.takeWhile_prefix _).subset he)
  have hlength := (h.sound_of_mem e hmem).buffer_length ch
  simp only [publishedIn] at hpub
  split at hpub
  · rwa [← Option.some.inj hpub]
  · cases hpub

/-- **The hub delivers.**  In every interleaving of subscriptions, publications, receives and
unsubscribing: a `Publish` comes to its end whatever order the map of subscribers is ranged over
in, so that it neither sends on a closed channel nor waits; and for every channel, what was
received from it and what it still holds is what was published between its subscription and its
removal, in order, except for what was published while it held 64 messages. -/
theorem hub_delivers {t : List (System M × Step M)} {s : System M} (h : Trace t s) :
    (∀ msg order, order.Nodup → (∀ ch, ch ∈ order ↔ ch ∈ s.subscribers) →
      ∃ s', s.step (.publish msg order) = .done s') ∧
    (∀ st cause, Allowed s st → s.step st ≠ .panics cause) ∧
    ∀ ch, received ch t ++ s.buffer ch
        = ((published ch t).filter (·.2 ≠ subscriberBuffer)).map Prod.fst ∧
      ∀ entry ∈ published ch t, entry.2 ≤ subscriberBuffer := by
  refine ⟨fun msg order hnodup horder => ?_, fun st cause hallowed =>
    h.sound.step_ne_panics hallowed cause, fun ch => ⟨?_, h.published_le ch⟩⟩
  · have hallowed : Allowed s (.publish msg order) := ⟨hnodup, horder⟩
    obtain ⟨s', hdone, -⟩ := h.sound.publish hallowed
    exact ⟨s', hdone⟩
  · rw [(h.told ch).delivered, kept]
    refine congrArg (List.map Prod.fst) (List.filter_congr fun entry hentry => ?_)
    have := h.published_le ch entry hentry
    rw [decide_eq_decide]
    omega

/-- A hub with one channel that has these messages in its buffer. -/
def oneChannel (buffer : List String) : System String :=
  ⟨[⟨buffer, false, .subscribed⟩], insert 0 ∅⟩

/-- A subscriber that reads a message and leaves with another one in its buffer. -/
def sampleTrace : List (System String × Step String) :=
  [(.new, .subscribe), (oneChannel [], .publish "one" [0]),
    (oneChannel ["one"], .publish "two" [0]), (oneChannel ["one", "two"], .receive 0),
    (oneChannel ["two"], .remove 0)]

/-- The hub after it. -/
def sampleEnd : System String := ⟨[⟨["two"], false, .removed⟩], (insert 0 ∅ : Finset ℕ).erase 0⟩

lemma sampleTrace_trace : Trace sampleTrace sampleEnd := by
  have horder : ∀ buffer, ∀ msg, Allowed (oneChannel buffer) (.publish msg [0]) := fun buffer msg =>
    ⟨by simp, by simp [oneChannel]⟩
  have hremove : Allowed (oneChannel ["two"]) (.remove 0) := ⟨_, rfl, rfl⟩
  have hsubscribe : Trace (sampleTrace.take 1) (oneChannel []) := Trace.start.step trivial rfl
  have hone : Trace (sampleTrace.take 2) (oneChannel ["one"]) :=
    hsubscribe.step (horder [] "one") rfl
  have htwo : Trace (sampleTrace.take 3) (oneChannel ["one", "two"]) :=
    hone.step (horder ["one"] "two") rfl
  have hreceive : Trace (sampleTrace.take 4) (oneChannel ["two"]) := htwo.step trivial rfl
  exact hreceive.step hremove rfl

theorem hub_delivers_sample :
    received 0 sampleTrace ++ sampleEnd.buffer 0
      = ((published 0 sampleTrace).filter (·.2 ≠ subscriberBuffer)).map Prod.fst :=
  ((hub_delivers sampleTrace_trace).2.2 0).1

example : received 0 sampleTrace = ["one"] ∧ sampleEnd.buffer 0 = ["two"] := by decide

end Logthing.Realtime
