import BumbelBee.Kernel.Fs

/-!
# The flight recorder (`kernel/trace.c`)

The recorder's statics, and one definition per function. What a function asks of the rest of
the kernel is an argument: the PIT's tick counter, the pid of the running task, the
filesystem. `trace_record` ends a stored event with `sched_set_current_event_count`; the
count it hands over is the second component of its result.

The replay's buffer is bytes, as it is in memory, and an event is decoded where the code looks at
one. So what a failed read has left in it is there, as it is in the kernel.
-/

namespace BumbelBee
namespace Kernel

open Lib

def traceSessionCap : Nat := 16
def traceHashInit : UInt64 := 1469598103934665603
def traceHashPrime : UInt64 := 1099511628211

/-- `WORKLOAD_PROFILE_NONE`. -/
def workloadProfileNone : UInt32 := 0

structure TraceStats where
  events : UInt64
  dropped : UInt64
  bytes : UInt64
  sessions : UInt64
  lastDurationTicks : UInt64
  lastHash : UInt64
  lastBufferPeak : UInt64
deriving DecidableEq, Repr

structure ReplayState where
  active : Bool
  failed : Bool
  sessionId : UInt32
  eventCount : UInt32
  eventIndex : UInt32
  virtualTicks : UInt64
  info : TraceSessionInfo
  expected : TraceEvent
  actual : TraceEvent
deriving DecidableEq, Repr

def TraceStats.zero : TraceStats := ⟨0, 0, 0, 0, 0, 0, 0⟩

def ReplayState.zero : ReplayState :=
  ⟨false, false, 0, 0, 0, 0, TraceSessionInfo.zero, TraceEvent.zero, TraceEvent.zero⟩

structure Trace where
  /-- `buffer[TRACE_BUFFER_CAP]`. -/
  buffer : Nat → TraceEvent
  /-- `replay_buffer[TRACE_BUFFER_CAP]`, as the bytes the filesystem reads into it. -/
  replayBuffer : TraceBuffer
  /-- `sessions[TRACE_SESSION_CAP]`. -/
  sessions : Nat → TraceSessionInfo
  stats : TraceStats
  recording : Bool
  nextEventId : UInt64
  currentEvents : UInt32
  recordStartTicks : UInt64
  bufferPeak : UInt32
  currentProfile : UInt32
  replay : ReplayState

/-- The statics as the kernel is loaded. -/
def Trace.loaded : Trace where
  buffer _ := TraceEvent.zero
  replayBuffer := ⟨fun _ => 0⟩
  sessions _ := TraceSessionInfo.zero
  stats := TraceStats.zero
  recording := false
  nextEventId := 1
  currentEvents := 0
  recordStartTicks := 0
  bufferPeak := 0
  currentProfile := workloadProfileNone
  replay := ReplayState.zero

/-! ## Hashing -/

def hashMix (hash value : UInt64) : UInt64 :=
  (List.range 8).foldl
    (fun hash i => (hash ^^^ ((value >>> UInt64.ofNat (i * 8)) &&& 0xff)) * traceHashPrime) hash

def hashEvent (hash : UInt64) (e : TraceEvent) : UInt64 :=
  let hash := hashMix hash e.eventId
  let hash := hashMix hash e.timestamp
  let hash := hashMix hash e.pid.toUInt64
  let hash := hashMix hash e.type.toUInt64
  let hash := hashMix hash e.data0
  hashMix hash e.data1

def traceHashEvents (events : List TraceEvent) : UInt64 := events.foldl hashEvent traceHashInit

/-! ## Recording -/

def traceInit (t : Trace) : Trace :=
  { t with
    stats := TraceStats.zero
    bufferPeak := 0
    currentProfile := workloadProfileNone
    replay := ReplayState.zero }

/-- `pit_ticks` (`kernel/pit.c`): a replay shows the session's time instead of the counter. -/
def pitTicks (ticks : UInt64) (t : Trace) : UInt64 :=
  if t.replay.active then t.replay.virtualTicks else ticks

/-- The replay branch of `trace_record`. -/
def replayRecord {cap : Nat} (event : TraceEvent) (buf : Buffer cap) (r : ReplayState) : ReplayState :=
  if r.eventIndex ≥ r.eventCount then { r with failed := true, actual := event }
  else
    let expected := eventAt buf r.eventIndex.toNat
    let event := { event with eventId := expected.eventId, timestamp := expected.timestamp }
    let r := { r with expected, virtualTicks := expected.timestamp, actual := event }
    if event.pid != expected.pid || event.type != expected.type ||
        event.data0 != expected.data0 || event.data1 != expected.data1 then
      { r with failed := true }
    else { r with eventIndex := r.eventIndex + 1 }

def traceRecord (ticks : UInt64) (currentPid : UInt32) (type : UInt16) (pid : UInt32)
    (data0 data1 : UInt64) (t : Trace) : Trace × Option UInt64 :=
  let pid := if pid = 0 then currentPid else pid
  if t.recording && t.currentProfile != workloadProfileNone && type == TraceEventType.irq.code then
    (t, none)
  else
    let event : TraceEvent := {
      eventId := t.nextEventId
      timestamp := pitTicks ticks t
      pid, type
      size := UInt16.ofNat traceEventSize
      data0, data1 }
    let t := { t with nextEventId := t.nextEventId + 1 }
    if t.replay.active then
      ({ t with replay := replayRecord event t.replayBuffer t.replay }, none)
    else if !t.recording then (t, none)
    else if t.currentEvents ≥ UInt32.ofNat traceBufferCap then
      ({ t with stats := { t.stats with dropped := t.stats.dropped + 1 } }, none)
    else
      let t := { t with
        buffer := Function.update t.buffer t.currentEvents.toNat event
        currentEvents := t.currentEvents + 1
        bufferPeak := if t.currentEvents + 1 > t.bufferPeak then t.currentEvents + 1
          else t.bufferPeak
        stats := { t.stats with
          events := t.stats.events + 1
          bytes := t.stats.bytes + UInt64.ofNat traceEventSize } }
      (t, some t.stats.events)

def traceStartProfile (ticks : UInt64) (profileId : UInt32) (t : Trace) : Trace :=
  { t with
    recording := true
    stats := { t.stats with sessions := t.stats.sessions + 1 }
    currentEvents := 0
    bufferPeak := 0
    recordStartTicks := pitTicks ticks t
    currentProfile := profileId }

def traceStart (ticks : UInt64) (t : Trace) : Trace :=
  traceStartProfile ticks workloadProfileNone t

/-- The events recorded so far, in order. -/
def Trace.events (t : Trace) : List TraceEvent :=
  (List.range t.currentEvents.toNat).map t.buffer

/-- The `info` `trace_stop` hands to the filesystem. -/
def traceStopInfo (ticks : UInt64) (t : Trace) : TraceSessionInfo where
  sessionId := 0
  sizeBytes := t.currentEvents * UInt32.ofNat traceEventSize
  eventCount := t.currentEvents
  profileId := t.currentProfile
  startTicks := t.recordStartTicks
  durationTicks := pitTicks ticks t - t.recordStartTicks
  sequenceHash := traceHashEvents t.events

/-- The third component is the write past `sessions` that a session counter of 0 makes. -/
def traceStop (ticks : UInt64) (t : Trace) (fs : Fs) : Trace × Fs × Option Overrun :=
  let info := traceStopInfo ticks t
  let stopped := { t with
    recording := false
    stats := { t.stats with
      lastDurationTicks := info.durationTicks
      lastHash := info.sequenceHash
      lastBufferPeak := t.bufferPeak.toUInt64 } }
  match fsWriteTraceSession (encodeEvents t.events) (some info) fs with
  | (none, fs) => (stopped, fs, none)
  | (some sessionId, fs) =>
    if t.stats.sessions ≤ UInt64.ofNat traceSessionCap then
      let index := (t.stats.sessions - 1).toNat
      if index < traceSessionCap then
        ({ stopped with sessions := Function.update t.sessions index { info with sessionId } },
          fs, none)
      else (stopped, fs, some ⟨index, 1, traceSessionCap⟩)
    else (stopped, fs, none)

/-- The entries `trace_list_sessions` prints. -/
def traceListSessions (t : Trace) : List TraceSessionInfo :=
  (List.range (min t.stats.sessions.toNat traceSessionCap)).map t.sessions

/-- What stopping does to the recorder and to the store. -/
theorem traceStop_spec (ticks : UInt64) (t : Trace) (fs : Fs) :
    (traceStop ticks t fs).2.1 =
        (fsWriteTraceSession (encodeEvents t.events) (some (traceStopInfo ticks t)) fs).2 ∧
      (traceStop ticks t fs).1.recording = false ∧
      (traceStop ticks t fs).1.replay = t.replay ∧
      (traceStop ticks t fs).1.nextEventId = t.nextEventId ∧
      (traceStop ticks t fs).1.currentEvents = t.currentEvents ∧
      (traceStop ticks t fs).1.stats.dropped = t.stats.dropped ∧
      (traceStop ticks t fs).1.events = t.events := by
  unfold traceStop
  simp only
  generalize fsWriteTraceSession (encodeEvents t.events) (some (traceStopInfo ticks t)) fs = w
  rcases w with ⟨_ | id, fs'⟩
  · exact ⟨rfl, rfl, rfl, rfl, rfl, rfl, rfl⟩
  · simp only
    split
    · split <;> exact ⟨rfl, rfl, rfl, rfl, rfl, rfl, rfl⟩
    · exact ⟨rfl, rfl, rfl, rfl, rfl, rfl, rfl⟩

/-! ## Checking and replaying a session -/

/-- What `trace_replay_session` prints: the event count, the hash recomputed, the hash stored,
    and the first eight events. -/
structure ReplayReport where
  count : UInt32
  replayHash : UInt64
  storedHash : UInt64
  shown : List TraceEvent
deriving DecidableEq, Repr

/-- `stack` is what `struct trace_event replay_buf[TRACE_BUFFER_CAP]` happens to hold. -/
def traceReplaySession (sessionId : UInt32) (stack : Nat → UInt8) (fs : Fs) :
    Except Overrun (Option ReplayReport × Fs) := do
  let (bytes, buf, fs) ← fsReadTraceSession sessionId (⟨stack⟩ : TraceBuffer) fs
  match bytes with
  | none => .ok (none, fs)
  | some bytes =>
    let info := (fsGetTraceSessionInfo sessionId fs).getD TraceSessionInfo.zero
    let count := bytes / UInt32.ofNat traceEventSize
    let events := (List.range count.toNat).map (eventAt buf)
    .ok (some ⟨count, traceHashEvents events, info.sequenceHash, events.take 8⟩, fs)

/-- The session's info, or `none` for -1. -/
def traceReplayBegin (sessionId : UInt32) (t : Trace) (fs : Fs) :
    Except Overrun (Option TraceSessionInfo × Trace × Fs) := do
  let (bytes, buf, fs) ← fsReadTraceSession sessionId t.replayBuffer fs
  let t := { t with replayBuffer := buf }
  match bytes with
  | none => .ok (none, t, fs)
  | some bytes =>
    let info := (fsGetTraceSessionInfo sessionId fs).getD TraceSessionInfo.zero
    .ok (some info, { t with
      nextEventId := 1
      replay := {
        active := true
        failed := false
        sessionId
        eventCount := bytes / UInt32.ofNat traceEventSize
        eventIndex := 0
        virtualTicks := info.startTicks
        info
        expected := TraceEvent.zero
        actual := TraceEvent.zero } }, fs)

/-- What a call that comes back did: it filled the replay buffer, and when there was a session
    to read it set the replay before its first entry. -/
theorem traceReplayBegin_cases {sessionId : UInt32} {t t' : Trace} {fs fs' : Fs}
    {session : Option TraceSessionInfo}
    (h : traceReplayBegin sessionId t fs = .ok (session, t', fs')) :
    ∃ bytes buf, fsReadTraceSession sessionId t.replayBuffer fs = .ok (bytes, buf, fs') ∧
      (bytes = none ∧ session = none ∧ t' = { t with replayBuffer := buf } ∨
        ∃ size info, bytes = some size ∧ session = some info ∧
          info = (fsGetTraceSessionInfo sessionId fs').getD TraceSessionInfo.zero ∧
          t' = { t with
            replayBuffer := buf
            nextEventId := 1
            replay := {
              active := true
              failed := false
              sessionId
              eventCount := size / UInt32.ofNat traceEventSize
              eventIndex := 0
              virtualTicks := info.startTicks
              info
              expected := TraceEvent.zero
              actual := TraceEvent.zero } }) := by
  cases hread : fsReadTraceSession sessionId t.replayBuffer fs with
  | error e =>
    rw [traceReplayBegin, hread] at h
    cases h
  | ok r =>
    obtain ⟨bytes, buf, fs₁⟩ := r
    rw [traceReplayBegin, hread] at h
    cases bytes with
    | none =>
      cases h
      exact ⟨none, buf, rfl, Or.inl ⟨rfl, rfl, rfl⟩⟩
    | some size =>
      cases h
      exact ⟨some size, buf, rfl, Or.inr ⟨size, _, rfl, rfl, rfl, rfl⟩⟩

/-- What beginning a replay does to the recording: it sets the id counter back. -/
theorem traceReplayBegin_spec {sessionId : UInt32} {t t' : Trace} {fs fs' : Fs}
    {session : Option TraceSessionInfo}
    (h : traceReplayBegin sessionId t fs = .ok (session, t', fs')) :
    t'.recording = t.recording ∧ t'.currentEvents = t.currentEvents ∧ t'.events = t.events ∧
      t'.nextEventId = if session.isSome then 1 else t.nextEventId := by
  obtain ⟨bytes, buf, -, ⟨-, rfl, rfl⟩ | ⟨size, info, -, rfl, -, rfl⟩⟩ := traceReplayBegin_cases h
  · exact ⟨rfl, rfl, rfl, rfl⟩
  · exact ⟨rfl, rfl, rfl, rfl⟩

/-- `(int)event->data1`, when the replay stands before a scheduler event. -/
def traceReplayExpectedNextTask (t : Trace) : Option Int :=
  if !t.replay.active || t.replay.eventIndex ≥ t.replay.eventCount then none
  else
    let event := eventAt t.replayBuffer t.replay.eventIndex.toNat
    if event.type != TraceEventType.sched.code then none
    else some event.data1.toUInt32.toBitVec.toInt

def traceReplayEnd (t : Trace) : Trace :=
  if !t.replay.active then t
  else { t with replay := { t.replay with
    failed := t.replay.failed || t.replay.eventIndex != t.replay.eventCount
    active := false } }

/-- The words of an event a report shows. -/
structure ShownEvent where
  type : UInt16
  pid : UInt32
  data0 : UInt64
  data1 : UInt64
deriving DecidableEq, Repr

def TraceEvent.shown (e : TraceEvent) : ShownEvent := ⟨e.type, e.pid, e.data0, e.data1⟩

structure DivergenceReport where
  sessionId : UInt32
  index : UInt32
  expected : ShownEvent
  actual : ShownEvent
deriving DecidableEq, Repr

/-- What `trace_replay_end` prints of a replay that has diverged. -/
def traceReplayDivergence (t : Trace) : Option DivergenceReport :=
  if t.replay.active && (traceReplayEnd t).replay.failed then
    some ⟨t.replay.sessionId, t.replay.eventIndex, t.replay.expected.shown, t.replay.actual.shown⟩
  else none

end Kernel
end BumbelBee
