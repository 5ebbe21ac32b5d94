import Reticulum.Interfaces.Hdlc

/-!
# Transmission on the streams of a backbone hub

The streams of a hub (`pkg/backbone/hub.go`) do not block.  `QueueSend` appends a frame to the
transmit buffer and asks the poller for **write interest**; `writeStream` takes the buffer out,
writes it *without the lock*, and puts back in front what was not written.  In Go mode `QueueSend`
writes by itself.

The poller knows a stream by the number of its descriptor only.  Once a stream is closed, the next
one may get the number, and a `writeStream` of the old one that is not over yet takes the write
interest away from the new one (`stalled_by_closed`).  **`Hub.transmits`** is what holds of all
runs.
-/

namespace Reticulum

open List

def maxStreamQueueBytes : ℕ := 8 * 2 ^ 20

/-- How far `writeStream` is with a stream: it has taken the buffer out, or the write has returned
and left the rest; then `quiet` says that it has failed without a byte. -/
inductive HubWrite where
  | idle
  | taken (buf : Bytes)
  | returned (rest : Bytes) (quiet : Bool)
deriving DecidableEq

/-- A stream, with the calls of `QueueSend` that are under way: those that have found the stream
open (`entered`), those that have still to ask for write interest (`arming`), and those that have
found the buffer too long and close the stream (`closing`). -/
structure HubStream where
  fd : ℕ
  closed : Bool
  txBuf : Bytes
  wantOut : Bool
  writing : HubWrite
  entered : ℕ
  arming : ℕ
  closing : ℕ
  /-- what the connection has taken -/
  written : Bytes

/-- The streams of a hub, closed ones too, and the write interest of the descriptors that the poller
has.  `accepted` records the payloads that calls of `QueueSend` have brought. -/
structure Hub where
  goMode : Bool
  streams : List HubStream
  interest : ℕ → Option Bool
  accepted : ℕ → List Bytes

/-- What happens to one stream.  A write, also that of `queue` in Go mode, takes as many bytes of
the buffer as it says. -/
inductive HubStreamEvent where
  | enter
  | queue (payload : Bytes) (taken : ℕ)
  | arm
  | takeBuffer
  | wrote (taken : ℕ) (failed : Bool)
  | finish
  | close

inductive HubEvent where
  | register (fd : ℕ)
  | stream (i : ℕ) (e : HubStreamEvent)

namespace HubStream

/-- `QueueSend` under the lock of the stream. -/
def queueSend (goMode : Bool) (s : HubStream) (payload : Bytes) (taken : ℕ) : HubStream :=
  let s := { s with entered := s.entered - 1, txBuf := appendFrameHDLC s.txBuf payload }
  if maxStreamQueueBytes < s.txBuf.length then { s with closing := s.closing + 1 }
  else if goMode then
    { s with txBuf := s.txBuf.drop taken, written := s.written ++ s.txBuf.take taken }
  else if !s.wantOut ∧ s.txBuf ≠ [] then { s with wantOut := true, arming := s.arming + 1 }
  else s

/-- What the write of `writeStream` has taken out and not written. -/
def pending (s : HubStream) : Bytes :=
  match s.writing with
  | .idle => []
  | .taken buf => buf
  | .returned rest _ => rest

/-- `writeStream` finds nothing to write, before it or after it, and gives up the write interest. -/
def disarms (goMode : Bool) (s : HubStream) : HubStreamEvent → Bool
  | .takeBuffer => !goMode ∧ s.writing = .idle ∧ s.txBuf = []
  | .finish => s.writing = .returned [] false ∧ s.txBuf = []
  | _ => false

/-- The stream after a step. -/
def step (goMode : Bool) (s : HubStream) : HubStreamEvent → HubStream
  | .enter => if s.closed then s else { s with entered := s.entered + 1 }
  | .queue payload taken => if s.entered = 0 then s else s.queueSend goMode payload taken
  | .arm => { s with arming := s.arming - 1 }
  | .takeBuffer =>
    if goMode ∨ s.writing ≠ .idle then s
    else if s.txBuf = [] then { s with wantOut := false }
    else { s with writing := .taken s.txBuf, txBuf := [] }
  | .wrote taken failed =>
    match s.writing with
    | .taken buf =>
      { s with
        written := s.written ++ buf.take taken
        writing := .returned (buf.drop taken) (failed ∧ buf.take taken = []) }
    | _ => s
  | .finish =>
    match s.writing with
    | .returned rest quiet =>
      { s with
        writing := .idle
        txBuf := rest ++ s.txBuf
        wantOut := if !quiet ∧ rest ++ s.txBuf = [] then false else s.wantOut }
    | _ => s
  | .close => { s with closed := true, closing := s.closing - 1 }

end HubStream

namespace Hub

def new (goMode : Bool) : Hub := ⟨goMode, [], fun _ => none, fun _ => []⟩

/-- `pollerMod`: the poller refuses a descriptor that it does not have. -/
def pollerMod (interest : ℕ → Option Bool) (fd : ℕ) (write : Bool) : ℕ → Option Bool :=
  Function.update interest fd ((interest fd).map fun _ => write)

/-- What the poller is told in a step of stream `s`. -/
def poll (h : Hub) (s : HubStream) (e : HubStreamEvent) : ℕ → Option Bool :=
  if s.disarms h.goMode e then pollerMod h.interest s.fd false
  else
    match e with
    | .arm => if s.arming = 0 then h.interest else pollerMod h.interest s.fd true
    | .close => if s.closed then h.interest else Function.update h.interest s.fd none
    | _ => h.interest

/-- The payloads after a step of stream `i`. -/
def accept (h : Hub) (i : ℕ) (s : HubStream) : HubStreamEvent → ℕ → List Bytes
  | .queue payload _ =>
    if s.entered = 0 then h.accepted
    else Function.update h.accepted i (h.accepted i ++ [payload])
  | _ => h.accepted

/-- A connection gets a descriptor that no open one has. -/
def step (h : Hub) : HubEvent → Hub
  | .register fd =>
    if ∃ s ∈ h.streams, s.fd = fd ∧ s.closed = false then h
    else
      { h with
        streams := h.streams ++ [⟨fd, false, [], false, .idle, 0, 0, 0, []⟩]
        interest := Function.update h.interest fd (some false)
        accepted := Function.update h.accepted h.streams.length [] }
  | .stream i e =>
    match h.streams[i]? with
    | none => h
    | some s =>
      { h with
        streams := h.streams.set i (s.step h.goMode e)
        interest := h.poll s e
        accepted := h.accept i s e }

/-- What has been written and what is to be written are the frames of the payloads, in the order in
which they were accepted; and while nothing is under way, bytes that wait have write interest. -/
structure Transmits (h : Hub) : Prop where
  stream : ∀ i s, h.streams[i]? = some s →
    s.written ++ s.pending ++ s.txBuf = (h.accepted i).flatMap (appendFrameHDLC [])
  interest : ∀ s ∈ h.streams, h.goMode = false → s.closed = false → s.entered = 0 →
    s.arming = 0 → s.closing = 0 → s.writing = .idle → s.txBuf ≠ [] → h.interest s.fd = some true

/-- No `writeStream` of a closed stream gives up the write interest of an open one that has asked
for it. -/
def Harmless (h : Hub) : HubEvent → Prop
  | .register _ => True
  | .stream i e =>
    ∀ s ∈ h.streams[i]?, s.closed = true → s.disarms h.goMode e = true →
      ∀ t ∈ h.streams, t.closed = false → t.fd = s.fd → t.wantOut = false ∨ 0 < t.arming

instance decidableHarmless (h : Hub) (e : HubEvent) : Decidable (h.Harmless e) := by
  cases e <;> unfold Harmless <;> infer_instance

end Hub

/-! ## One stream -/

namespace HubStream

/-- Nothing is lost, and bytes that wait are wanted or the stream will be closed. -/
structure Sound (goMode : Bool) (accepted : List Bytes) (s : HubStream) : Prop where
  stream : s.written ++ s.pending ++ s.txBuf = accepted.flatMap (appendFrameHDLC [])
  idle : goMode = true → s.writing = .idle
  wanted : goMode = false → s.closed = false → s.closing = 0 →
    s.txBuf ≠ [] ∨ s.writing ≠ .idle → s.wantOut = true

/-- What is wanted is armed at the poller, or will be. -/
structure Served (interest : Option Bool) (s : HubStream) : Prop where
  registered : interest.isSome
  armed : s.wantOut = true → interest = some true ∨ 0 < s.arming

variable {s t : HubStream} {goMode : Bool} {accepted : List Bytes} {fd : ℕ}
  {interest : ℕ → Option Bool} {e : HubStreamEvent}

lemma appendFrameHDLC_eq (dst payload : Bytes) :
    appendFrameHDLC dst payload = dst ++ appendFrameHDLC [] payload := by
  simp [appendFrameHDLC, appendEscapeHDLC_eq]

lemma Sound.queueSend (h : s.Sound goMode accepted) (payload : Bytes) (taken : ℕ) :
    (s.queueSend goMode payload taken).Sound goMode (accepted ++ [payload]) := by
  have hstream : s.written ++ s.pending ++ appendFrameHDLC s.txBuf payload =
      (accepted ++ [payload]).flatMap (appendFrameHDLC []) := by
    rw [appendFrameHDLC_eq, ← append_assoc, h.stream]
    simp
  have hne : appendFrameHDLC s.txBuf payload ≠ [] := by simp [appendFrameHDLC]
  rw [HubStream.queueSend]
  dsimp only
  split_ifs with hlong hgo hwant
  · exact ⟨hstream, h.idle, by simp⟩
  · refine ⟨?_, h.idle, by simp [hgo]⟩
    simpa [pending, h.idle hgo] using hstream
  · exact ⟨hstream, h.idle, by simp⟩
  · refine ⟨hstream, h.idle, ?_⟩
    intros
    simpa [hne] using hwant

lemma Sound.step (h : s.Sound goMode accepted)
    (he : ∀ payload taken, e ≠ .queue payload taken) : (s.step goMode e).Sound goMode accepted := by
  cases e with
  | enter =>
    rw [HubStream.step]
    split_ifs
    · exact h
    · exact { h with }
  | queue payload taken => exact absurd rfl (he payload taken)
  | arm => exact { h with }
  | takeBuffer =>
    rw [HubStream.step]
    split_ifs with hskip hnil
    · exact h
    · simp only [not_or, not_not] at hskip
      exact { h with wanted := by simp [hnil, hskip.2] }
    · simp only [not_or, Bool.not_eq_true, not_not] at hskip
      refine ⟨by simpa [pending, hskip.2] using h.stream, by simp [hskip.1], ?_⟩
      exact fun hgo hclosed hclosing _ => h.wanted hgo hclosed hclosing (.inl hnil)
  | wrote taken failed =>
    rw [HubStream.step]
    split
    · rename_i buf hbuf
      have hmode : goMode ≠ true := fun hgo => by simp [h.idle hgo] at hbuf
      refine ⟨?_, fun hgo => absurd hgo hmode, fun hgo hclosed hclosing _ => ?_⟩
      · rw [← h.stream, pending, pending, hbuf]
        simp
      · exact h.wanted hgo hclosed hclosing (.inr (by simp [hbuf]))
    · exact h
  | finish =>
    rw [HubStream.step]
    split
    · rename_i rest quiet hrest
      refine ⟨?_, fun _ => rfl, fun hgo hclosed hclosing hwaits => ?_⟩
      · rw [← h.stream, pending, pending, hrest]
        simp
      · have hne : rest ++ s.txBuf ≠ [] := by simpa using hwaits
        rw [if_neg fun hdisarm => hne hdisarm.2]
        exact h.wanted hgo hclosed hclosing (.inr (by simp [hrest]))
    · exact h
  | close => exact { h with wanted := by simp [HubStream.step] }

lemma wantOut_of_disarms (h : s.disarms goMode e) : (s.step goMode e).wantOut = false := by
  cases e <;> simp_all [disarms, step]

lemma Served.step {interest : Option Bool} (h : s.Served interest)
    (he : e ≠ .arm) : (s.step goMode e).Served interest := by
  refine ⟨h.registered, fun hwant => ?_⟩
  have harmed := h.armed
  cases e with
  | arm => exact absurd rfl he
  | queue payload taken =>
    simp only [HubStream.step, queueSend] at hwant ⊢
    split_ifs at hwant ⊢ <;> first | exact harmed hwant | exact .inr (Nat.succ_pos _)
  | enter | takeBuffer | wrote | finish | close =>
    simp only [HubStream.step] at hwant ⊢
    grind

/-- Another step on the same descriptor leaves a stream served, unless it disarms what is armed. -/
lemma Served.pollerMod (h : t.Served (interest t.fd)) {write : Bool}
    (hkeeps : t.fd = fd → write = false → t.wantOut = false ∨ 0 < t.arming) :
    t.Served (Hub.pollerMod interest fd write t.fd) := by
  by_cases hfd : t.fd = fd
  · subst hfd
    obtain ⟨b, hb⟩ := Option.isSome_iff_exists.1 h.registered
    have hmod : Hub.pollerMod interest t.fd write t.fd = some write := by
      simp [Hub.pollerMod, hb]
    refine hmod ▸ ⟨rfl, fun hwant => ?_⟩
    cases write with
    | true => exact .inl rfl
    | false => exact .inr ((hkeeps rfl rfl).resolve_left (by simp [hwant]))
  · have hmod : Hub.pollerMod interest fd write t.fd = interest t.fd := by
      simp [Hub.pollerMod, hfd]
    exact hmod ▸ h

end HubStream

/-! ## All streams -/

namespace Hub

/-- Every stream is sound; those that are open are served and have descriptors of their own. -/
structure Inv (h : Hub) : Prop where
  sound : ∀ (i : ℕ) (s : HubStream), h.streams[i]? = some s → s.Sound h.goMode (h.accepted i)
  served : ∀ s ∈ h.streams, h.goMode = false → s.closed = false → s.Served (h.interest s.fd)
  distinct : ∀ (i j : ℕ) (s t : HubStream), h.streams[i]? = some s → h.streams[j]? = some t →
    s.closed = false → t.closed = false → s.fd = t.fd → i = j

variable {h : Hub} {i : ℕ} {s : HubStream} {e : HubStreamEvent}

lemma step_fd (goMode : Bool) (s : HubStream) (e : HubStreamEvent) :
    (s.step goMode e).fd = s.fd := by
  cases e <;> simp only [HubStream.step, HubStream.queueSend] <;> (repeat' split) <;> rfl

lemma closed_of_step {goMode : Bool} (hclosed : (s.step goMode e).closed = false) :
    s.closed = false := by
  cases e <;> simp only [HubStream.step, HubStream.queueSend] at hclosed <;>
    (repeat' split at hclosed) <;> first | exact hclosed | cases hclosed

/-- What a step of an open stream does to the interest of its own descriptor. -/
lemma Inv.served_step (hinv : h.Inv) (hs : h.streams[i]? = some s) (hgo : h.goMode = false)
    (hclosed : (s.step h.goMode e).closed = false) :
    (s.step h.goMode e).Served (h.poll s e s.fd) := by
  have hserved := hinv.served s (mem_of_getElem? hs) hgo (closed_of_step hclosed)
  obtain ⟨b, hb⟩ := Option.isSome_iff_exists.1 hserved.registered
  unfold poll
  by_cases hdisarm : s.disarms h.goMode e
  · rw [if_pos hdisarm]
    exact ⟨by simp [pollerMod, hb], by simp [HubStream.wantOut_of_disarms hdisarm]⟩
  · rw [if_neg hdisarm]
    cases e with
    | arm =>
      simp only
      split_ifs with harming
      · exact ⟨hserved.registered, by simpa [HubStream.step, harming] using hserved.armed⟩
      · exact ⟨by simp [pollerMod, hb], by simp [pollerMod, hb]⟩
    | close => cases hclosed
    | enter | queue | takeBuffer | wrote | finish => exact hserved.step (by simp)

/-- What a step of a stream does to the others. -/
lemma Inv.served_other (hinv : h.Inv) (hs : h.streams[i]? = some s)
    (hharmless : h.Harmless (.stream i e)) {j : ℕ} {t : HubStream} (hj : j ≠ i)
    (ht : h.streams[j]? = some t) (hgo : h.goMode = false) (hopen : t.closed = false) :
    t.Served (h.poll s e t.fd) := by
  have hserved := hinv.served t (mem_of_getElem? ht) hgo hopen
  -- the descriptor is shared with closed streams only
  have hclosed (hfd : t.fd = s.fd) : s.closed := by
    by_contra hs'
    exact hj (hinv.distinct j i t s ht hs hopen (by simpa using hs') hfd)
  unfold poll
  by_cases hdisarm : s.disarms h.goMode e
  · rw [if_pos hdisarm]
    refine hserved.pollerMod fun hfd _ => ?_
    exact hharmless s hs (hclosed hfd) hdisarm t (mem_of_getElem? ht) hopen hfd
  · rw [if_neg hdisarm]
    cases e with
    | arm =>
      simp only
      split_ifs
      · exact hserved
      · exact hserved.pollerMod (by simp)
    | close =>
      simp only
      split_ifs with hs'
      · exact hserved
      · have hfd : t.fd ≠ s.fd := fun hfd => hs' (hclosed hfd)
        simpa [hfd] using hserved
    | enter | queue | takeBuffer | wrote | finish => exact hserved

lemma Inv.sound_step (hinv : h.Inv) (hs : h.streams[i]? = some s) :
    (s.step h.goMode e).Sound h.goMode (h.accept i s e i) := by
  have hsound := hinv.sound i s hs
  cases e with
  | queue payload taken =>
    simp only [HubStream.step, accept]
    split_ifs
    · exact hsound
    · simpa using hsound.queueSend payload taken
  | enter | arm | takeBuffer | wrote | finish | close => exact hsound.step (by simp)

lemma accept_of_ne {j : ℕ} (hj : j ≠ i) : h.accept i s e j = h.accepted j := by
  cases e <;> simp only [accept]
  split_ifs <;> simp [hj]

lemma Inv.stream (hinv : h.Inv) (hharmless : h.Harmless (.stream i e)) :
    (h.step (.stream i e)).Inv := by
  rw [step]
  cases hs : h.streams[i]? with
  | none => exact hinv
  | some s =>
    -- the stream at an index is the one that was there, or the one that has taken the step
    have hcases {j : ℕ} {t : HubStream} (ht : (h.streams.set i (s.step h.goMode e))[j]? = some t) :
        j = i ∧ t = s.step h.goMode e ∨ j ≠ i ∧ h.streams[j]? = some t := by
      rw [getElem?_set] at ht
      split_ifs at ht with hij
      · exact .inl ⟨hij.symm, (Option.some.inj ht).symm⟩
      · exact .inr ⟨Ne.symm hij, ht⟩
    have hold {j : ℕ} {t : HubStream}
        (ht : (h.streams.set i (s.step h.goMode e))[j]? = some t) (hopen : t.closed = false) :
        ∃ t', h.streams[j]? = some t' ∧ t'.closed = false ∧ t'.fd = t.fd := by
      rcases hcases ht with ⟨rfl, rfl⟩ | ⟨-, ht⟩
      · exact ⟨s, hs, closed_of_step hopen, (step_fd _ s e).symm⟩
      · exact ⟨t, ht, hopen, rfl⟩
    refine ⟨fun j t ht => ?_, fun t hmem hgo hopen => ?_, ?_⟩
    · rcases hcases ht with ⟨rfl, rfl⟩ | ⟨hj, ht⟩
      · exact hinv.sound_step hs
      · simpa only [accept_of_ne hj] using hinv.sound j t ht
    · obtain ⟨j, ht⟩ := mem_iff_getElem?.1 hmem
      rcases hcases ht with ⟨-, rfl⟩ | ⟨hj, ht⟩
      · rw [step_fd]
        exact hinv.served_step hs hgo hopen
      · exact hinv.served_other hs hharmless hj ht hgo hopen
    · intro j k t u ht hu htopen huopen hfd
      obtain ⟨t', ht', htopen', hfdt⟩ := hold ht htopen
      obtain ⟨u', hu', huopen', hfdu⟩ := hold hu huopen
      exact hinv.distinct j k t' u' ht' hu' htopen' huopen' (by rw [hfdt, hfdu, hfd])

lemma Inv.register (hinv : h.Inv) (fd : ℕ) : (h.step (.register fd)).Inv := by
  rw [step]
  split_ifs with hused
  · exact hinv
  · have hfree {t} (ht : t ∈ h.streams) (hopen : t.closed = false) : t.fd ≠ fd :=
      fun hfd => hused ⟨t, ht, hfd, hopen⟩
    have hcases {j t} (ht : (h.streams ++ [⟨fd, false, [], false, .idle, 0, 0, 0, []⟩])[j]? =
        some t) : j < h.streams.length ∧ h.streams[j]? = some t ∨
          j = h.streams.length ∧ t = ⟨fd, false, [], false, .idle, 0, 0, 0, []⟩ := by
      rcases lt_trichotomy j h.streams.length with hlt | rfl | hgt
      · exact .inl ⟨hlt, getElem?_append_left hlt ▸ ht⟩
      · exact .inr ⟨rfl, by simpa [eq_comm] using ht⟩
      · rw [getElem?_eq_none (by simp; omega)] at ht
        cases ht
    refine ⟨fun j t ht => ?_, fun t hmem hgo hopen => ?_, ?_⟩
    · rcases hcases ht with ⟨hlt, ht⟩ | ⟨rfl, rfl⟩
      · simpa [hlt.ne] using hinv.sound j t ht
      · exact ⟨by simp [HubStream.pending], fun _ => rfl, by simp⟩
    · rcases mem_append.1 hmem with ht | ht
      · simpa [hfree ht hopen] using hinv.served t ht hgo hopen
      · obtain rfl := mem_singleton.1 ht
        exact ⟨by simp, by simp⟩
    · intro j k t u ht hu htopen huopen hfd
      rcases hcases ht with ⟨-, ht⟩ | ⟨rfl, rfl⟩ <;> rcases hcases hu with ⟨-, hu⟩ | ⟨rfl, rfl⟩
      · exact hinv.distinct j k t u ht hu htopen huopen hfd
      · exact absurd hfd (hfree (mem_of_getElem? ht) htopen)
      · exact absurd hfd.symm (hfree (mem_of_getElem? hu) huopen)
      · rfl

lemma Inv.toTransmits (hinv : h.Inv) : h.Transmits where
  stream i s hs := (hinv.sound i s hs).stream
  interest s hs hgo hclosed _ harming hclosing _ hbuf := by
    obtain ⟨i, hi⟩ := mem_iff_getElem?.1 hs
    have hwant := (hinv.sound i s hi).wanted hgo hclosed hclosing (.inl hbuf)
    exact ((hinv.served s hs hgo hclosed).armed hwant).resolve_right (by omega)

/-- **A hub transmits what its streams accept**, in every state that any order of the steps leads
to, as long as no `writeStream` of a closed stream disarms an open one. -/
theorem transmits (goMode : Bool) (es : List HubEvent)
    (hharmless : Run.Along step Harmless (new goMode) es) :
    Run.Always step Transmits (new goMode) es := by
  have hnew : (new goMode).Inv := ⟨by simp [new], by simp [new], by simp [new]⟩
  have hinv := Run.always_of_along (I := Inv) ?_ hnew hharmless
  · exact hinv.mono fun _ h => h.toTransmits
  · intro h e hinv hharmless
    cases e with
    | register fd => exact hinv.register fd
    | stream i e => exact hinv.stream hharmless

/-- Two streams with one descriptor: the first one is closed while its write returns, and gives up
the write interest before the second one asks for it. -/
theorem transmits_of_two :
    let es := [.register 5, .stream 0 .enter, .stream 0 (.queue [1] 0), .stream 0 .arm,
      .stream 0 .takeBuffer, .stream 0 (.wrote 9 false), .stream 0 .close, .register 5,
      .stream 0 .finish, .stream 1 .enter, .stream 1 (.queue [2] 0), .stream 1 .arm]
    (Run.exec step (new false) es).interest 5 = some true ∧
      Run.Always step Transmits (new false) es := by
  refine ⟨by decide +kernel, transmits _ _ ?_⟩
  decide +kernel

/-- The same, but the second stream has asked before: its bytes wait, and nobody is told. -/
theorem stalled_by_closed :
    let es := [.register 5, .stream 0 .enter, .stream 0 (.queue [1] 0), .stream 0 .arm,
      .stream 0 .takeBuffer, .stream 0 (.wrote 9 false), .stream 0 .close, .register 5,
      .stream 1 .enter, .stream 1 (.queue [2] 0), .stream 1 .arm, .stream 0 .finish]
    let h := Run.exec step (new false) es
    (h.streams[1]?.map fun s => (s.fd, s.closed, s.txBuf, s.wantOut)) =
        some (5, false, appendFrameHDLC [] [2], true) ∧
      h.interest 5 = some false ∧ ¬ h.Transmits := by
  intro es h
  have hinterest : h.interest 5 = some false := by decide +kernel
  refine ⟨by decide +kernel, hinterest, fun htransmits => ?_⟩
  have harmed := htransmits.interest ⟨5, false, appendFrameHDLC [] [2], true, .idle, 0, 0, 0, []⟩
    (mem_of_getElem? (i := 1) rfl) rfl rfl rfl rfl rfl rfl (by decide)
  cases hinterest.symm.trans harmed

end Hub

end Reticulum
