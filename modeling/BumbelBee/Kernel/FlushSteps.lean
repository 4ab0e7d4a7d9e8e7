import BumbelBee.Kernel.Isr

/-!
# `flush_tx_queue`, statement by statement (`kernel/netfs.c`)

The function as an interrupt finds it: its locals, and the statement it runs next. Nothing
masks interrupts, so between any two statements the timer may come in and flush the queue
itself.

The steps are as fine as the statements that touch a shared variable. The packet is sent in one of
them, the head moves on in another and the count goes down in a third, so that in between a packet
has been sent and is still counted.
-/

namespace BumbelBee
namespace Kernel

open Lib

/-- The statements, named by what they set, call or test. -/
inductive FlushStmt
  /-- `while (tx_count)`. -/
  | test
  | pkt
  | transmit
  | packets
  | bytes
  | head
  | count
  | pendingBytes
  | setPending
  | noteFlushed
  | done
deriving DecidableEq, Repr

/-- Between the loop's test and the end of its body. -/
def FlushStmt.inBody : FlushStmt → Bool
  | .pkt | .transmit | .packets | .bytes | .head | .count => true
  | _ => false

/-- The call on the stack: its locals and its next statement. -/
structure FlushFrame where
  /-- `pkt`, by its slot. -/
  slot : Nat
  packets : UInt32
  bytes : UInt32
  next : FlushStmt
deriving DecidableEq, Repr

/-- Behind `flushed_packets = 0` and `flushed_bytes = 0`. -/
def FlushFrame.enter : FlushFrame := ⟨0, 0, 0, .test⟩

/-- The next statement of the call on the stack. -/
def flushStep (s : FlushFrame × Devices) : FlushFrame × Devices :=
  let (f, d) := s
  match f.next with
  | .test => ({ f with next := if d.net.txCount = 0 then .pendingBytes else .pkt }, d)
  | .pkt => ({ f with slot := d.net.txHead.toNat, next := .transmit }, d)
  | .transmit =>
    let pkt := d.net.txQueue f.slot
    ({ f with next := .packets }, transmitNow pkt.data.bytes pkt.len d)
  | .packets => ({ f with packets := f.packets + 1, next := .bytes }, d)
  | .bytes => ({ f with bytes := f.bytes + (d.net.txQueue f.slot).len, next := .head }, d)
  | .head =>
    ({ f with next := .count }, { d with net := { d.net with
      txHead := (d.net.txHead + 1) % UInt32.ofNat netfsQueueCap } })
  | .count => ({ f with next := .test }, { d with net := { d.net with txCount := d.net.txCount - 1 } })
  | .pendingBytes =>
    ({ f with next := .setPending }, { d with net := { d.net with txPendingBytes := 0 } })
  | .setPending =>
    ({ f with next := .noteFlushed }, powerSetPendingNet d.net.txCount d.net.txPendingBytes d)
  | .noteFlushed => ({ f with next := .done }, powerNoteNetFlushed f.packets f.bytes d)
  | .done => (f, d)

end Kernel
end BumbelBee
