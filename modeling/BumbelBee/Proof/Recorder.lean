import BumbelBee.Kernel.Trace
import BumbelBee.Proof.Durable

/-!
# From the recorder to the disk and back

`Recorded es t` is the recorder after the events `es` went through it since the session
started: the first 4096 of them are in its buffer, the rest is counted as dropped. Each call
that passes the filter appends one event (`Recorded.step`), so the session `trace_stop` hands
to the store is the one the calls describe, and what the store gives back hashes the same.

Three lengths meet here: what was recorded, what the buffer takes, and what the store has room for.
The recorder does not ask the store before it counts an event, so the room is a hypothesis on the
store as `trace_stop` finds it. The hash is taken over the events in memory when the session is
stored, and again over the bytes that come back, so that it checks out is a fact about the codec as
much as about the disk.
-/

namespace BumbelBee
namespace Proof

open Lib Kernel

/-- A call of `trace_record`, with the tick counter and the running task's pid it finds. -/
structure RecordCall where
  ticks : UInt64
  currentPid : UInt32
  type : UInt16
  pid : UInt32
  data0 : UInt64
  data1 : UInt64
deriving DecidableEq, Repr

def RecordCall.run (c : RecordCall) (t : Trace) : Trace :=
  (traceRecord c.ticks c.currentPid c.type c.pid c.data0 c.data1 t).1

def recordAll (cs : List RecordCall) (t : Trace) : Trace := cs.foldl (fun t c => c.run t) t

/-- The pid the event carries: 0 stands for the running task's. -/
def RecordCall.eventPid (c : RecordCall) : UInt32 := if c.pid = 0 then c.currentPid else c.pid

/-- The event a call records under the next free number. -/
def RecordCall.event (c : RecordCall) (eventId : UInt64) : TraceEvent where
  eventId
  timestamp := c.ticks
  pid := c.eventPid
  type := c.type
  size := UInt16.ofNat traceEventSize
  data0 := c.data0
  data1 := c.data1

/-- A workload profile filters interrupts out. -/
def RecordCall.Passes (profile : UInt32) (c : RecordCall) : Prop :=
  profile = workloadProfileNone ∨ c.type ≠ TraceEventType.irq.code

/-! ## One call

A call is filtered out, or it takes a number, whether or not there is room for its event: an event
that is dropped leaves a gap in the ids. What it does otherwise is in `Ran`, and nothing below
unfolds `trace_record` again.
-/

/-- The filter of `trace_record`. -/
def filtered (t : Trace) (c : RecordCall) : Bool :=
  t.recording && t.currentProfile != workloadProfileNone && c.type == TraceEventType.irq.code

/-- **What a call of `trace_record` does**: nothing, when it is filtered out; otherwise it takes
    a number, and its event is compared, left, counted as dropped or stored. -/
inductive RecordCall.Ran (c : RecordCall) (t : Trace) : Trace → Prop
  | hidden (hit : filtered t c = true) : Ran c t t
  | compared (pass : filtered t c = false) (active : t.replay.active = true) :
      Ran c t { t with
        nextEventId := t.nextEventId + 1
        replay := replayRecord { c.event t.nextEventId with timestamp := pitTicks c.ticks t }
          t.replayBuffer t.replay }
  | closed (pass : filtered t c = false) (idle : t.replay.active = false)
      (off : t.recording = false) :
      Ran c t { t with nextEventId := t.nextEventId + 1 }
  | full (pass : filtered t c = false) (idle : t.replay.active = false) (on : t.recording = true)
      (full : traceBufferCap ≤ t.currentEvents.toNat) :
      Ran c t { t with
        nextEventId := t.nextEventId + 1
        stats := { t.stats with dropped := t.stats.dropped + 1 } }
  | stored (pass : filtered t c = false) (idle : t.replay.active = false) (on : t.recording = true)
      (room : t.currentEvents.toNat < traceBufferCap) :
      Ran c t { t with
        nextEventId := t.nextEventId + 1
        buffer := Function.update t.buffer t.currentEvents.toNat (c.event t.nextEventId)
        currentEvents := t.currentEvents + 1
        bufferPeak := if t.currentEvents + 1 > t.bufferPeak then t.currentEvents + 1
          else t.bufferPeak
        stats := { t.stats with
          events := t.stats.events + 1
          bytes := t.stats.bytes + UInt64.ofNat traceEventSize } }

theorem RecordCall.ran (c : RecordCall) (t : Trace) : c.Ran t (c.run t) := by
  have hcap : t.currentEvents ≥ UInt32.ofNat traceBufferCap ↔
      traceBufferCap ≤ t.currentEvents.toNat := by
    rw [ge_iff_le, UInt32.le_iff_toNat_le]
    rfl
  simp only [RecordCall.run, traceRecord]
  split
  · rename_i hit
    exact .hidden hit
  rename_i hpass
  rw [Bool.not_eq_true] at hpass
  split
  · rename_i hactive
    exact .compared hpass hactive
  rename_i hidle
  rw [Bool.not_eq_true] at hidle
  split
  · rename_i hoff
    exact .closed hpass hidle (by simpa using hoff)
  rename_i hon
  have hrecording : t.recording = true := by simpa using hon
  split
  · rename_i hfull
    exact .full hpass hidle hrecording (hcap.mp hfull)
  · rename_i hroom
    -- no replay is active here, so the clock is the tick counter
    have hclock : pitTicks c.ticks t = c.ticks := by simp only [pitTicks, hidle]; rfl
    rw [hclock]
    exact .stored hpass hidle hrecording (Nat.lt_of_not_le fun hle => hroom (hcap.mpr hle))

/-- What every call leaves as it was. -/
structure RecordCall.Kept (t t' : Trace) : Prop where
  recording : t'.recording = t.recording
  currentProfile : t'.currentProfile = t.currentProfile
  sessions : t'.sessions = t.sessions
  active : t'.replay.active = t.replay.active
  /-- Without a replay none comes of it. -/
  replay : t.replay.active = false → t'.replay = t.replay

theorem RecordCall.run_kept (c : RecordCall) (t : Trace) : RecordCall.Kept t (c.run t) := by
  have hran := c.ran t
  generalize c.run t = t' at hran ⊢
  cases hran with
  | hidden => exact ⟨rfl, rfl, rfl, rfl, fun _ => rfl⟩
  | compared _ hactive =>
    refine ⟨rfl, rfl, rfl, ?_, fun hidle => absurd hactive (by rw [hidle]; exact Bool.false_ne_true)⟩
    simp only [replayRecord]
    split
    · rfl
    · split <;> rfl
  | closed => exact ⟨rfl, rfl, rfl, rfl, fun _ => rfl⟩
  | full => exact ⟨rfl, rfl, rfl, rfl, fun _ => rfl⟩
  | stored => exact ⟨rfl, rfl, rfl, rfl, fun _ => rfl⟩

theorem toNat_currentEvents_succ {t : Trace} (h : t.currentEvents.toNat < traceBufferCap) :
    (t.currentEvents + 1).toNat = t.currentEvents.toNat + 1 := by
  have hsmall : traceBufferCap < 2 ^ 31 := by decide
  rw [UInt32.toNat_add, UInt32.toNat_one, Nat.mod_eq_of_lt (by omega)]

/-- The events of a run of calls, numbered from `eventId` on. -/
def recordedEvents : UInt64 → List RecordCall → List TraceEvent
  | _, [] => []
  | eventId, c :: cs => c.event eventId :: recordedEvents (eventId + 1) cs

@[simp] theorem length_recordedEvents : ∀ (eventId : UInt64) (cs : List RecordCall),
    (recordedEvents eventId cs).length = cs.length
  | _, [] => rfl
  | eventId, c :: cs => by
    rw [recordedEvents, List.length_cons, length_recordedEvents (eventId + 1) cs, List.length_cons]

/-! ## Recording -/

/-- The recorder once the events `es` went through it, from these counters on. -/
structure Recorded (eventId dropped : UInt64) (profile : UInt32) (es : List TraceEvent)
    (t : Trace) : Prop where
  recording : t.recording = true
  noReplay : t.replay.active = false
  profile : t.currentProfile = profile
  eventId : t.nextEventId = eventId + UInt64.ofNat es.length
  count : t.currentEvents.toNat = min es.length traceBufferCap
  events : t.events = es.take traceBufferCap
  dropped : t.stats.dropped = dropped + UInt64.ofNat (es.length - traceBufferCap)

theorem Recorded.start (ticks : UInt64) (profile : UInt32) {t : Trace}
    (h : t.replay.active = false) :
    Recorded t.nextEventId t.stats.dropped profile [] (traceStartProfile ticks profile t) where
  recording := rfl
  noReplay := h
  profile := rfl
  eventId := by simp [traceStartProfile]
  count := rfl
  events := rfl
  dropped := by simp [traceStartProfile]

/-- Storing at the end of the buffer appends to its events. -/
theorem events_append {t : Trace} (e : TraceEvent) {t' : Trace}
    (hcount : t'.currentEvents.toNat = t.currentEvents.toNat + 1)
    (hbuf : t'.buffer = Function.update t.buffer t.currentEvents.toNat e) :
    t'.events = t.events ++ [e] := by
  rw [Trace.events, hcount, hbuf, List.range_succ, List.map_append, Trace.events]
  congr 1
  · refine List.map_congr_left fun i hi => Function.update_of_ne ?_ _ _
    exact Nat.ne_of_lt (List.mem_range.mp hi)
  · simp

/-- **One call**: its event is the next of the session. -/
theorem Recorded.step {eventId dropped : UInt64} {profile : UInt32} {es : List TraceEvent}
    {t : Trace} (h : Recorded eventId dropped profile es t) {c : RecordCall}
    (hc : c.Passes profile) :
    Recorded eventId dropped profile (es ++ [c.event (eventId + UInt64.ofNat es.length)])
      (c.run t) := by
  have hpass : filtered t c ≠ true := by
    rw [filtered, h.profile]
    rcases hc with hp | ht
    · simp [hp]
    · simp [ht]
  have hid : eventId + UInt64.ofNat es.length + 1 = eventId + UInt64.ofNat (es.length + 1) := by
    rw [UInt64.ofNat_add, UInt64.add_assoc]
    rfl
  have hcount := h.count
  have hran := c.ran t
  generalize c.run t = t' at hran ⊢
  cases hran with
  | hidden hit => exact absurd hit hpass
  | compared _ hactive =>
    rw [h.noReplay] at hactive
    cases hactive
  | closed _ _ off =>
    rw [h.recording] at off
    cases off
  | full _ _ _ hfull =>
    -- the call is counted and nothing else changes
    rw [hcount] at hfull
    refine ⟨h.recording, h.noReplay, h.profile, ?_, ?_, ?_, ?_⟩
    · rw [List.length_append, List.length_singleton, ← hid, h.eventId]
    · rw [List.length_append, hcount]
      omega
    · rw [List.take_append_of_le_length (hfull.trans (Nat.min_le_left _ _))]
      exact h.events
    · rw [List.length_append, List.length_singleton, h.dropped,
        show es.length + 1 - traceBufferCap = es.length - traceBufferCap + 1 by omega,
        UInt64.ofNat_add, ← UInt64.add_assoc]
      rfl
  | stored _ _ _ hroom =>
    have hsucc := toNat_currentEvents_succ hroom
    refine ⟨h.recording, h.noReplay, h.profile, ?_, ?_, ?_, ?_⟩
    · rw [List.length_append, List.length_singleton, ← hid, h.eventId]
    · rw [hsucc, List.length_append, List.length_singleton]
      omega
    · rw [events_append _ hsucc rfl, List.take_of_length_le (by simp; omega), ← h.eventId]
      refine congrArg (· ++ _) ?_
      exact h.events.trans (List.take_of_length_le (by omega))
    · rw [List.length_append, List.length_singleton, h.dropped,
        show es.length + 1 - traceBufferCap = es.length - traceBufferCap by omega]

/-- **A run of calls**. -/
theorem Recorded.run {eventId dropped : UInt64} {profile : UInt32} :
    ∀ {cs : List RecordCall} {es : List TraceEvent} {t : Trace},
      Recorded eventId dropped profile es t → (∀ c ∈ cs, c.Passes profile) →
      Recorded eventId dropped profile
        (es ++ recordedEvents (eventId + UInt64.ofNat es.length) cs) (recordAll cs t)
  | [], es, t, h, _ => by simpa [recordedEvents, recordAll] using h
  | c :: cs, es, t, h, hc => by
    have hstep := h.step (hc c List.mem_cons_self)
    have hrun := @Recorded.run _ _ _ cs _ _ hstep fun c' hc' => hc c' (List.mem_cons_of_mem _ hc')
    rw [List.length_append, List.length_singleton, UInt64.ofNat_add, ← UInt64.add_assoc,
      List.append_assoc] at hrun
    exact hrun

/-! ## Storing the session

`trace_stop` casts the buffer to bytes and hands these over. The events come back by the same
layout, in which every field is as wide as it is in memory.
-/

/-- The buffered events are what `trace_stop` hashes. -/
theorem Recorded.stopInfo {eventId dropped : UInt64} {profile : UInt32} {es : List TraceEvent}
    {t : Trace} (h : Recorded eventId dropped profile es t) (ticks : UInt64) :
    (traceStopInfo ticks t).sequenceHash = traceHashEvents (es.take traceBufferCap) := by
  rw [traceStopInfo, h.events]

/-- A mounted store with a free inode and enough sectors stores what it is given. -/
theorem Mounted.stores {fs : Fs} (h : Mounted fs) (data : List UInt8)
    (hinode : ∃ i, (fs.inodes i).used = 0)
    (hspace : fs.superblock.nextFreeLba.toNat + (sectorsOf data).toNat ≤ 6144)
    (info : Option TraceSessionInfo) :
    (fsWriteTraceSession data info fs).1 = some fs.superblock.nextSessionId := by
  rcases @fsWriteTraceSession_ok data info fs h.answers h.sound.mark_le with
    ⟨hrefused, -⟩ | ⟨i, t, -, -, -, hr⟩
  · obtain ⟨i, hi⟩ := hinode
    rcases hrefused with hoff | hfull | hnone
    · exact absurd h.online (by simp [hoff])
    · omega
    · exact absurd hi (hnone i)
  · rw [hr]

/-- The next id is nobody's yet. -/
theorem Mounted.nextId_fresh {fs : Fs} (h : Mounted fs) :
    fsFindSession fs.inodes fs.superblock.nextSessionId = none := by
  cases hf : fsFindSession fs.inodes fs.superblock.nextSessionId with
  | none => rfl
  | some i =>
    obtain ⟨htrace, hid⟩ := fsFindSession_some hf
    have hbelow := h.sound.issued.below i _ (sessionOf_trace htrace)
    rw [hid] at hbelow
    omega

/-- The event count the readers compute. -/
theorem encodeEvents_count {es : List TraceEvent} (hlen : (encodeEvents es).length < 2 ^ 32 - 511) :
    (bytesOf (encodeEvents es) / UInt32.ofNat traceEventSize).toNat = es.length := by
  have hsize : (UInt32.ofNat traceEventSize).toNat = traceEventSize := by decide
  rw [UInt32.toNat_div, bytesOf_toNat hlen, hsize, length_encodeEvents]
  exact Nat.mul_div_cancel_left _ (by decide)

/-- **Checking a held session**: the events read back are the ones stored, so the hash
    recomputed from them is the hash of those. -/
theorem Recalls.replay {fs : Fs} {i : Fin fsMaxInodes} {id : UInt32} {es : List TraceEvent}
    {info : TraceSessionInfo} (h : Recalls fs i id (encodeEvents es) (some info))
    (hlen : es.length ≤ traceBufferCap) (stack : Nat → UInt8) :
    traceReplaySession id stack fs = .ok (some
      ⟨UInt32.ofNat es.length, traceHashEvents es, info.sequenceHash, es.take 8⟩, fs) := by
  have hcap : (encodeEvents es).length ≤ traceBufferCap * traceEventSize := by
    rw [length_encodeEvents, Nat.mul_comm]
    exact Nat.mul_le_mul_right _ hlen
  have hsize : traceBufferCap * traceEventSize = 163840 := by decide
  obtain ⟨buf, hread, hcontents⟩ := h.read (by omega) (⟨stack⟩ : TraceBuffer) hcap
  rw [length_encodeEvents] at hcontents
  have hcount := encodeEvents_count (show (encodeEvents es).length < 2 ^ 32 - 511 by omega)
  have hback : bytesOf (encodeEvents es) / UInt32.ofNat traceEventSize =
      UInt32.ofNat es.length := by rw [← hcount, UInt32.ofNat_toNat]
  simp only [traceReplaySession, hread, bind, Except.bind, h.info h.online, Option.getD_some, hcount,
    map_eventAt hcontents]
  rw [hback]
  rfl

/-- **The round trip**: whatever the recorder is given between start and stop, the session on
    the disk is its first 4096 events, the rest was counted, and the session checks out now
    and after anything stored later.

    `hscript` and `hdisk` are as in `trace_store_durable`, of which this is an instance for the
    events of a recording. `hreplay` says that no replay is under way, for then `trace_record`
    compares and stores nothing; `hpass` that the calls are such as the profile lets through.
    `hinode` and `hspace` are the room that is left, in the table and on the disk, for as many
    events as will be stored: 4096 at most. -/
theorem recorder_round_trip (a : Ata) (hscript : a.script = [])
    (hdisk : ¬ Formatted a.sector ∨ Sound (diskSuperblock a.sector) (diskInodes a.sector))
    (before after : List FsOp) (fs : Fs) (hfs : fs = fsRun before (fsBoot a))
    (t : Trace) (hreplay : t.replay.active = false) (start stop : UInt64) (profile : UInt32)
    (calls : List RecordCall) (hpass : ∀ c ∈ calls, c.Passes profile)
    (hinode : ∃ i, (fs.inodes i).used = 0)
    (hspace : fs.superblock.nextFreeLba.toNat +
      max 1 ((traceEventSize * min calls.length traceBufferCap + 511) / 512) ≤
        (fsStartLba + fsTotalSectors).toNat) :
    let r := traceStop stop (recordAll calls (traceStartProfile start profile t)) fs
    let events := (recordedEvents t.nextEventId calls).take traceBufferCap
    r.1.stats.dropped =
        t.stats.dropped + UInt64.ofNat (calls.length - min calls.length traceBufferCap) ∧
      ∃ id, fsFindSession fs.inodes id = none ∧
        (∀ (cap : Nat) (buf : Buffer cap), traceEventSize * events.length ≤ cap → ∃ buf',
          fsReadTraceSession id buf (fsRun after r.2.1) =
              .ok (some (UInt32.ofNat (traceEventSize * events.length)), buf', fsRun after r.2.1) ∧
            buf'.contents (traceEventSize * events.length) = encodeEvents events) ∧
        ∀ stack, ∃ report, traceReplaySession id stack (fsRun after r.2.1) =
            .ok (some report, fsRun after r.2.1) ∧
          report.count = UInt32.ofNat events.length ∧ report.replayHash = report.storedHash := by
  intro r events
  -- the buffer the calls leave is what `trace_stop` hands to the store
  have hm : Mounted fs := hfs ▸ (Mounted.run before (Mounted.boot hscript hdisk)).1
  have hrec := (Recorded.start start profile hreplay).run hpass
  rw [List.nil_append, List.length_nil, show UInt64.ofNat 0 = 0 from rfl, UInt64.add_zero] at hrec
  obtain ⟨hstore, -, -, -, -, hdropped, -⟩ := traceStop_spec stop
    (recordAll calls (traceStartProfile start profile t)) fs
  rw [hrec.events] at hstore
  have hlen : events.length = min calls.length traceBufferCap := by
    simp only [events, List.length_take, length_recordedEvents, Nat.min_comm]
  have hbytes : (encodeEvents events).length = traceEventSize * min calls.length traceBufferCap := by
    rw [length_encodeEvents, hlen]
  have hsize : traceEventSize * traceBufferCap = 163840 := by decide
  have hmost : (encodeEvents events).length ≤ 163840 := by
    rw [hbytes, ← hsize]
    exact Nat.mul_le_mul_left _ (Nat.min_le_right _ _)
  -- there is an inode and there are sectors, so it is stored
  have hid := hm.stores (encodeEvents events) hinode
    (by rw [sectorsOf_toNat (by omega), hbytes]; exact hspace) (some (traceStopInfo stop
      (recordAll calls (traceStartProfile start profile t))))
  obtain ⟨hwrite, -, hheld⟩ := hm.write (encodeEvents events) (some (traceStopInfo stop
    (recordAll calls (traceStartProfile start profile t))))
  obtain ⟨-, i, -, hholds⟩ := hheld _ hid
  have hr : r.2.1 = _ := hstore
  rw [← hr] at hwrite hholds
  -- and later operations leave it
  have hheld' := hholds.later hwrite after
  refine ⟨?_, _, hm.nextId_fresh, fun cap buf hcap => ?_, fun stack => ?_⟩
  · rw [hdropped, hrec.dropped, length_recordedEvents]
    rw [show calls.length - traceBufferCap = calls.length - min calls.length traceBufferCap by omega]
  · obtain ⟨buf', hread, hcontents⟩ :=
      hheld'.read (by omega) buf (by rw [length_encodeEvents]; exact hcap)
    rw [length_encodeEvents] at hcontents
    refine ⟨buf', ?_, hcontents⟩
    rw [hread, bytesOf, length_encodeEvents]
  · exact ⟨_, hheld'.replay (by rw [hlen]; exact Nat.min_le_right _ _) stack, rfl,
      (hrec.stopInfo stop).symm⟩

/-- A shell command and a workload report, while task 1 runs. -/
def sampleCalls : List RecordCall :=
  [⟨5, 1, TraceEventType.shell.code, 0, 3, 0⟩, ⟨6, 1, TraceEventType.workload.code, 2, 0x400, 7⟩]

/-- The two events survive a reboot on a used store. -/
theorem recorder_round_trip_sample : ∃ id, ∀ stack, ∃ report,
    traceReplaySession id stack (fsRun [.reboot]
        (traceStop 9 (recordAll sampleCalls (traceStartProfile 4 2 Trace.loaded)) usedStore).2.1) =
      .ok (some report, fsRun [.reboot]
        (traceStop 9 (recordAll sampleCalls (traceStartProfile 4 2 Trace.loaded)) usedStore).2.1) ∧
      report.count = 2 ∧ report.replayHash = report.storedHash := by
  obtain ⟨-, id, -, -, hreplay⟩ := recorder_round_trip blankDrive rfl
    (Or.inl blankDrive_not_formatted) [.write ⟨[9], none⟩, .reboot] [.reboot] usedStore rfl
    Trace.loaded rfl 4 9 2 sampleCalls (by simp [RecordCall.Passes]; decide)
    ⟨⟨10, by decide⟩, by decide +kernel⟩ (by decide +kernel)
  exact ⟨id, hreplay⟩

/-- On a disk whose mark lies before the tables there is an inode and there is room, the recording
    is stored as session 1, and its hash is not the one that was stored. -/
theorem recorder_lost_earlyMark :
    (∀ c ∈ sampleCalls, c.Passes 2) ∧ ((fsBoot earlyMarkDrive).inodes ⟨10, by decide⟩).used = 0 ∧
      (fsBoot earlyMarkDrive).superblock.nextFreeLba.toNat + 1 ≤ (fsStartLba + fsTotalSectors).toNat ∧
      let r := traceStop 9 (recordAll sampleCalls (traceStartProfile 4 2 Trace.loaded))
        (fsBoot earlyMarkDrive)
      (r.1.sessions 0).sessionId = 1 ∧ (traceReplaySession 1 (fun _ => 0) r.2.1).map
        (fun s => s.1.map fun report => (report.count, report.replayHash == report.storedHash)) =
          .ok (some (2, false)) :=
  ⟨by simp [RecordCall.Passes]; decide, by decide +kernel, by decide +kernel, by decide +kernel,
    by decide +kernel⟩

end Proof
end BumbelBee
