import BumbelBee.Lib.Bytes
import BumbelBee.Lib.Buffer

/-!
# Trace records (`include/trace.h`)

The event and session records the recorder, the replayer and the filesystem exchange. An
event is stored as its 40 bytes of memory, so `encodeEvent` is `struct trace_event` laid
out field by field.
-/

namespace BumbelBee
namespace Kernel

open Lib

/-- `enum trace_event_type`. -/
inductive TraceEventType
  | irq | keyboard | sched | shell | pageFault | workload | net | power
deriving DecidableEq, Repr

/-- The number an event's `u16 type` field carries. -/
def TraceEventType.code : TraceEventType → UInt16
  | .irq => 1
  | .keyboard => 2
  | .sched => 3
  | .shell => 4
  | .pageFault => 5
  | .workload => 6
  | .net => 7
  | .power => 8

structure TraceEvent where
  eventId : UInt64
  timestamp : UInt64
  pid : UInt32
  type : UInt16
  size : UInt16
  data0 : UInt64
  data1 : UInt64
deriving DecidableEq, Repr

def TraceEvent.zero : TraceEvent := ⟨0, 0, 0, 0, 0, 0, 0⟩

structure TraceSessionInfo where
  sessionId : UInt32
  sizeBytes : UInt32
  eventCount : UInt32
  profileId : UInt32
  startTicks : UInt64
  durationTicks : UInt64
  sequenceHash : UInt64
deriving DecidableEq, Repr

def TraceSessionInfo.zero : TraceSessionInfo := ⟨0, 0, 0, 0, 0, 0, 0⟩

/-- `sizeof(struct trace_event)`. -/
def traceEventSize : Nat := 40

/-- `TRACE_BUFFER_CAP`. -/
def traceBufferCap : Nat := 4096

/-- `struct trace_event buf[TRACE_BUFFER_CAP]`, as bytes. -/
abbrev TraceBuffer := Buffer (traceBufferCap * traceEventSize)

def encodeEvent (e : TraceEvent) : List UInt8 :=
  putU64 e.eventId ++ putU64 e.timestamp ++ putU32 e.pid ++ putU16 e.type ++ putU16 e.size ++
    putU64 e.data0 ++ putU64 e.data1

def decodeEvent (bs : List UInt8) : TraceEvent :=
  let (eventId, bs) := takeU64 bs
  let (timestamp, bs) := takeU64 bs
  let (pid, bs) := takeU32 bs
  let (type, bs) := takeU16 bs
  let (size, bs) := takeU16 bs
  let (data0, bs) := takeU64 bs
  let (data1, _) := takeU64 bs
  { eventId, timestamp, pid, type, size, data0, data1 }

/-- The bytes of an array of events. -/
def encodeEvents (es : List TraceEvent) : List UInt8 := es.flatMap encodeEvent

/-- The `i`-th element of an array of events, read out of the buffer that holds it. -/
def eventAt {cap : Nat} (buf : Buffer cap) (i : Nat) : TraceEvent :=
  decodeEvent (buf.slice (traceEventSize * i) traceEventSize)

@[simp] theorem length_encodeEvent (e : TraceEvent) :
    (encodeEvent e).length = traceEventSize := by
  simp [encodeEvent, traceEventSize]

@[simp] theorem decodeEvent_encode (e : TraceEvent) (rest : List UInt8) :
    decodeEvent (encodeEvent e ++ rest) = e := by
  simp [decodeEvent, encodeEvent, List.append_assoc]

@[simp] theorem length_encodeEvents (es : List TraceEvent) :
    (encodeEvents es).length = traceEventSize * es.length := by
  induction es with
  | nil => rfl
  | cons e es ih =>
    simp only [encodeEvents, List.flatMap_cons, List.length_append, length_encodeEvent,
      List.length_cons] at *
    rw [ih, Nat.mul_add, Nat.mul_one, Nat.add_comm]

theorem take_drop_encodeEvents : ∀ (es : List TraceEvent) (i : Nat) (hi : i < es.length),
    ((encodeEvents es).drop (traceEventSize * i)).take traceEventSize = encodeEvent es[i]
  | [], _, hi => absurd hi (by simp)
  | e :: es, 0, _ => by
    rw [Nat.mul_zero, List.drop_zero, encodeEvents, List.flatMap_cons,
      List.take_left' (length_encodeEvent e)]
    rfl
  | e :: es, i + 1, hi => by
    have ih := take_drop_encodeEvents es i (by simpa using hi)
    rw [List.getElem_cons_succ, ← ih,
      show traceEventSize * (i + 1) = traceEventSize + traceEventSize * i by
        rw [Nat.mul_add, Nat.mul_one, Nat.add_comm],
      ← List.drop_drop, encodeEvents, List.flatMap_cons, List.drop_left' (length_encodeEvent e)]
    rfl

/-- An array of events reads back element by element. -/
theorem eventAt_of_contents {cap : Nat} {buf : Buffer cap} {es : List TraceEvent}
    (h : buf.contents (traceEventSize * es.length) = encodeEvents es) {i : Nat}
    (hi : i < es.length) : eventAt buf i = es[i] := by
  have hfit : traceEventSize * i + traceEventSize ≤ traceEventSize * es.length := by
    rw [← Nat.mul_succ]; exact Nat.mul_le_mul_left _ hi
  rw [eventAt, buf.slice_eq hfit, h, take_drop_encodeEvents es i hi,
    ← List.append_nil (encodeEvent _), decodeEvent_encode]

theorem map_eventAt {cap : Nat} {buf : Buffer cap} {es : List TraceEvent}
    (h : buf.contents (traceEventSize * es.length) = encodeEvents es) :
    (List.range es.length).map (eventAt buf) = es := by
  refine List.ext_getElem (by simp) fun i _ hi => ?_
  rw [List.getElem_map, List.getElem_range, eventAt_of_contents h hi]

end Kernel
end BumbelBee
