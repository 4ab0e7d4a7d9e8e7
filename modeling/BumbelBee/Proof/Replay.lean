import BumbelBee.Lib.Cursor
import BumbelBee.Proof.Recorder

/-!
# The verdict of a replay

A replay holds the session's events in `replay_buffer` and walks down them: `Replaying es
start w t` says that the recorder's replay state is the walk `w` over the log `es`. Every
call of `trace_record` is a step of that walk, so what `trace_replay_end` decides, and what
`pit_ticks` shows on the way, are facts about walks.

The session is read by a drive that may fail; a replay that began has read all of it.

The verdict is a bit that is set on the first disagreement and looked at once, at the end, together
with the number of entries left. That it is right is a matter of what the walk does behind a
disagreement: it stands still, and no later call can make it come out even (`Walk.accepts_iff`).
-/

namespace BumbelBee
namespace Proof

open Lib Kernel

/-! ## What a read that succeeds has read -/

/-- **A session that was found and read was read as it is**, whatever the drive does. -/
theorem Finds.read_some {fs : Fs} {i : Fin fsMaxInodes} {id : UInt32} {data : List UInt8}
    {info : Option TraceSessionInfo} (h : Finds fs i id data info)
    (hlen : data.length < 2 ^ 32 - 511) {cap : Nat} {buf buf' : Buffer cap}
    (hcap : data.length ≤ cap) {bytes : UInt32} {fs' : Fs}
    (hread : fsReadTraceSession id buf fs = .ok (some bytes, buf', fs')) :
    fs.online = true ∧ bytes = bytesOf data ∧ buf'.contents data.length = data ∧
      ∃ ata, fs' = { fs with ata } := by
  rw [fsReadTraceSession, h.found] at hread
  exact h.stores.read_some hlen hcap hread

/-! ## The replay state as a walk

The replay compares four words of an event and keeps three things: how far it has come, whether a
call ever disagreed, and the last comparison. That is a walk down the log, and `Lib/Cursor.lean` has
what a walk decides.
-/

/-- What `trace_record` compares: pid, type, data0, data1. -/
def RecordCall.agrees (c : RecordCall) (e : TraceEvent) : Bool :=
  c.eventPid == e.pid && c.type == e.type && c.data0 == e.data0 && c.data1 == e.data1

/-- The recorder replaying the log `es`, at `w`. -/
structure Replaying (es : List TraceEvent) (start : UInt64) (w : Walk TraceEvent) (t : Trace) :
    Prop where
  active : t.replay.active = true
  failed : t.replay.failed = w.failed
  count : t.replay.eventCount.toNat = es.length
  index : t.replay.eventIndex.toNat ≤ es.length
  rest : w.rest = es.drop t.replay.eventIndex.toNat
  ticks : t.replay.virtualTicks = (w.last.map (·.timestamp)).getD start
  log : t.replayBuffer.contents (traceEventSize * es.length) = encodeEvents es

/-- A replay sees every call but the interrupts of a recording that is still on. -/
def RecordCall.Seen (c : RecordCall) (t : Trace) : Prop :=
  t.recording = false ∨ c.type ≠ TraceEventType.irq.code

/-- The recorder's filter lets the call through. -/
def RecordCall.seen (c : RecordCall) (t : Trace) : Bool :=
  !(t.recording && t.currentProfile != workloadProfileNone && c.type == TraceEventType.irq.code)

theorem RecordCall.Seen.seen {c : RecordCall} {t : Trace} (h : c.Seen t) : c.seen t = true := by
  rcases h with hrec | htype
  · simp [RecordCall.seen, hrec]
  · simp [RecordCall.seen, htype]

/-- The words of the event a call records. -/
def RecordCall.shown (c : RecordCall) : ShownEvent := ⟨c.type, c.eventPid, c.data0, c.data1⟩

/-- A call that is seen while a replay is active goes to its replay branch. -/
theorem RecordCall.run_replaying {c : RecordCall} {t : Trace} (hactive : t.replay.active = true)
    (hseen : c.seen t = true) : ∃ event : TraceEvent, event.shown = c.shown ∧
      c.run t = { t with
        nextEventId := t.nextEventId + 1
        replay := replayRecord event t.replayBuffer t.replay } := by
  have hpass : filtered t c = false := by
    rwa [RecordCall.seen, Bool.not_eq_true'] at hseen
  have hran := c.ran t
  generalize c.run t = t' at hran ⊢
  cases hran with
  | hidden hit =>
    rw [hpass] at hit
    cases hit
  | compared => exact ⟨_, rfl, rfl⟩
  | closed _ idle | full _ idle | stored _ idle =>
    rw [hactive] at idle
    cases idle

/-- **One call**: a step of the walk. -/
theorem Replaying.stepSeen {es : List TraceEvent} {start : UInt64} {w : Walk TraceEvent}
    {t : Trace} (h : Replaying es start w t) {c : RecordCall} (hseen : c.seen t = true) :
    Replaying es start (w.step RecordCall.agrees c) (c.run t) := by
  obtain ⟨event, hshown, hrun⟩ := c.run_replaying h.active hseen
  simp only [TraceEvent.shown, RecordCall.shown, ShownEvent.mk.injEq] at hshown
  obtain ⟨htype, hpid, hdata0, hdata1⟩ := hshown
  have hlast : t.replay.eventIndex ≥ t.replay.eventCount ↔
      es.length ≤ t.replay.eventIndex.toNat := by
    rw [ge_iff_le, UInt32.le_iff_toNat_le, h.count]
  rw [hrun]
  by_cases hend : es.length ≤ t.replay.eventIndex.toNat
  · -- no entry left
    have hrest : w.rest = [] := by rw [h.rest, List.drop_of_length_le hend]
    simp only [replayRecord, if_pos (hlast.mpr hend), Walk.step, hrest]
    exact ⟨h.active, rfl, h.count, h.index, by rw [List.drop_of_length_le hend],
      h.ticks, h.log⟩
  · have hlt : t.replay.eventIndex.toNat < es.length := by omega
    have hrest := h.rest.trans (List.drop_eq_getElem_cons hlt)
    have hexp : eventAt t.replayBuffer t.replay.eventIndex.toNat = es[t.replay.eventIndex.toNat] :=
      eventAt_of_contents h.log hlt
    simp only [replayRecord, if_neg (fun hge => hend (hlast.mp hge)), Walk.step, hrest, hexp,
      hpid, htype, hdata0, hdata1]
    have hagrees : (c.eventPid != es[t.replay.eventIndex.toNat].pid ||
        c.type != es[t.replay.eventIndex.toNat].type ||
        c.data0 != es[t.replay.eventIndex.toNat].data0 ||
        c.data1 != es[t.replay.eventIndex.toNat].data1) =
          !(c.agrees es[t.replay.eventIndex.toNat]) := by
      simp only [RecordCall.agrees, bne, Bool.not_and]
    rw [hagrees]
    cases c.agrees es[t.replay.eventIndex.toNat] with
    | false => exact ⟨h.active, rfl, h.count, h.index, hrest.symm ▸ h.rest, rfl, h.log⟩
    | true =>
      have hsucc : (t.replay.eventIndex + 1).toNat = t.replay.eventIndex.toNat + 1 := by
        have := t.replay.eventCount.toNat_lt
        have := h.count
        rw [UInt32.toNat_add]
        simp only [UInt32.reduceToNat]
        omega
      refine ⟨h.active, h.failed, h.count, ?_, ?_, rfl, h.log⟩
      · show (t.replay.eventIndex + 1).toNat ≤ es.length
        omega
      · simp [hsucc]

theorem Replaying.step {es : List TraceEvent} {start : UInt64} {w : Walk TraceEvent} {t : Trace}
    (h : Replaying es start w t) {c : RecordCall} (hseen : c.Seen t) :
    Replaying es start (w.step RecordCall.agrees c) (c.run t) := h.stepSeen hseen.seen

/-- **Every call**: the run of the walk. -/
theorem Replaying.run {es : List TraceEvent} {start : UInt64} :
    ∀ (cs : List RecordCall) {w : Walk TraceEvent} {t : Trace}, t.recording = false →
      Replaying es start w t → Replaying es start (w.run RecordCall.agrees cs) (recordAll cs t)
  | [], _, _, _, h => h
  | c :: cs, _, _, hrec, h =>
    Replaying.run cs ((c.run_kept _).recording.trans hrec) (h.step (Or.inl hrec))

/-- `trace_replay_end` asks for what `Walk.accepts` says. -/
theorem Replaying.ends {es : List TraceEvent} {start : UInt64} {w : Walk TraceEvent} {t : Trace}
    (h : Replaying es start w t) : (traceReplayEnd t).replay.failed = false ↔ w.accepts := by
  have hdone : t.replay.eventIndex = t.replay.eventCount ↔ w.rest = [] := by
    rw [h.rest, List.drop_eq_nil_iff, ← UInt32.toNat_inj, h.count]
    have := h.index
    omega
  simp only [traceReplayEnd, h.active, Bool.not_true, Bool.false_eq_true, if_false,
    Bool.or_eq_false_iff, bne_eq_false_iff_eq, h.failed, hdone, Walk.accepts]

theorem Replaying.pitTicks {es : List TraceEvent} {start : UInt64} {w : Walk TraceEvent}
    {t : Trace} (h : Replaying es start w t) (ticks : UInt64) :
    Kernel.pitTicks ticks t = (w.last.map (·.timestamp)).getD start := by
  rw [Kernel.pitTicks, if_pos h.active, h.ticks]

/-! ## A session replayed -/

/-- A replay that began stands before the first event of the session. -/
theorem Finds.replaying {fs : Fs} {i : Fin fsMaxInodes} {id : UInt32} {es : List TraceEvent}
    {info : Option TraceSessionInfo} (h : Finds fs i id (encodeEvents es) info) (hfit : es.length ≤ traceBufferCap)
    {t t₀ : Trace} {fs' : Fs} {session : TraceSessionInfo}
    (hbegin : traceReplayBegin id t fs = .ok (some session, t₀, fs')) :
    session = storedInfo id (encodeEvents es) info ∧ t₀.recording = t.recording ∧
      Replaying es session.startTicks (Walk.start es) t₀ := by
  have hcap : (encodeEvents es).length ≤ traceBufferCap * traceEventSize := by
    rw [length_encodeEvents, Nat.mul_comm]
    exact Nat.mul_le_mul_right _ hfit
  have hlen : (encodeEvents es).length < 2 ^ 32 - 511 := by
    have : traceBufferCap * traceEventSize = 163840 := by decide
    omega
  obtain ⟨bytes, buf, hread, ⟨-, hnone, -⟩ | ⟨size, found, rfl, hsome, hfound, rfl⟩⟩ :=
    traceReplayBegin_cases hbegin
  · cases hnone
  obtain rfl : session = found := Option.some.inj hsome
  obtain ⟨honline, rfl, hcontents, ata, rfl⟩ := h.read_some hlen hcap hread
  have hinfo : fsGetTraceSessionInfo id { fs with ata } =
      some (storedInfo id (encodeEvents es) info) := h.info honline
  rw [hinfo, Option.getD_some] at hfound
  rw [length_encodeEvents] at hcontents
  refine ⟨hfound, rfl, rfl, rfl, ?_, Nat.zero_le _, rfl, rfl, hcontents⟩
  exact encodeEvents_count (by omega)

/-- The replay of a session the store gives back does begin. -/
theorem Recalls.begins {fs : Fs} {i : Fin fsMaxInodes} {id : UInt32} {es : List TraceEvent}
    {info : Option TraceSessionInfo} (h : Recalls fs i id (encodeEvents es) info) (hfit : es.length ≤ traceBufferCap) (t : Trace) :
    ∃ t₀, traceReplayBegin id t fs =
      .ok (some (storedInfo id (encodeEvents es) info), t₀, fs) := by
  have hcap : (encodeEvents es).length ≤ traceBufferCap * traceEventSize := by
    rw [length_encodeEvents, Nat.mul_comm]
    exact Nat.mul_le_mul_right _ hfit
  have hsize : traceBufferCap * traceEventSize = 163840 := by decide
  obtain ⟨buf, hread, -⟩ := h.read (by omega) t.replayBuffer hcap
  simp only [traceReplayBegin, hread, bind, Except.bind, h.info h.online, Option.getD_some]
  exact ⟨_, rfl⟩

/-- **The verdict.** A replay ends without a failure exactly when the calls made since it
    began are the events of the session, one by one; on the way the clock shows the time of
    the entry the last call was compared with, and the session's start before that.

    `hfinds` ties the id that is replayed to the slot it is read from, and this to the events that
    were stored there; `hfit` is the recorder's own bound on a session. `hrec` says that no
    recording is under way, which would take the calls for itself. `hbegin` is the call of
    `trace_replay_begin` that succeeded: over a drive that may fail it is the evidence that the
    whole session was read. The calls are arbitrary, before and behind the first that disagrees. -/
theorem replay_verdict {fs : Fs} {i : Fin fsMaxInodes} {id : UInt32} {es : List TraceEvent}
    {info : Option TraceSessionInfo} (hfinds : Finds fs i id (encodeEvents es) info) (hfit : es.length ≤ traceBufferCap)
    {t t₀ : Trace} {fs' : Fs} {session : TraceSessionInfo} (hrec : t.recording = false)
    (hbegin : traceReplayBegin id t fs = .ok (some session, t₀, fs')) :
    session = storedInfo id (encodeEvents es) info ∧ ∀ calls,
      ((traceReplayEnd (recordAll calls t₀)).replay.failed = false ↔
        List.Forall₂ (fun c e => RecordCall.agrees c e = true) calls es) ∧
      ∀ ticks, pitTicks ticks (recordAll calls t₀) =
        ((((Walk.start es).run RecordCall.agrees calls).last.map (·.timestamp)).getD
          session.startTicks) := by
  obtain ⟨hsession, hsame, hstart⟩ := hfinds.replaying hfit hbegin
  refine ⟨hsession, fun calls => ?_⟩
  have hrun := hstart.run calls (hsame.trans hrec)
  exact ⟨hrun.ends.trans (Walk.accepts_iff rfl), hrun.pitTicks⟩

/-- A used store with the two sample events on it. -/
def sampleStore : Fs :=
  (fsWriteTraceSession (encodeEvents (recordedEvents 1 sampleCalls)) none usedStore).2

theorem sampleStore_recalls :
    ∃ i, Recalls sampleStore i 2 (encodeEvents (recordedEvents 1 sampleCalls)) none := by
  have hmounted : Mounted usedStore :=
    (Mounted.run _ (Mounted.boot rfl (Or.inl blankDrive_not_formatted))).1
  obtain ⟨hm, -, hheld⟩ :=
    hmounted.write (encodeEvents (recordedEvents 1 sampleCalls)) none
  obtain ⟨-, i, -, hholds⟩ := hheld 2 (by decide +kernel)
  exact ⟨i, hholds.recalls hm⟩

/-- The calls that were recorded pass; the same calls in the other order do not. -/
theorem replay_verdict_sample : ∃ session t₀ fs',
    traceReplayBegin 2 Trace.loaded sampleStore = .ok (some session, t₀, fs') ∧
      (traceReplayEnd (recordAll sampleCalls t₀)).replay.failed = false ∧
      (traceReplayEnd (recordAll sampleCalls.reverse t₀)).replay.failed = true := by
  obtain ⟨i, hrecalls⟩ := sampleStore_recalls
  obtain ⟨t₀, hbegin⟩ := hrecalls.begins (by decide) Trace.loaded
  have hverdict := (replay_verdict hrecalls.toFinds (by decide) rfl hbegin).2
  refine ⟨_, t₀, _, hbegin, (hverdict sampleCalls).1.mpr (by decide), ?_⟩
  rw [← Bool.not_eq_false, (hverdict sampleCalls.reverse).1]
  decide

end Proof
end BumbelBee
