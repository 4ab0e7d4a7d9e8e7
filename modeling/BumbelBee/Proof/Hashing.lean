import BumbelBee.Kernel.Trace
import BumbelBee.Lib.Digest

/-!
# What the session hash sees

`trace_hash_events` runs over the bytes of the events' fields, all but the two of `size`, and
each byte goes in by an exclusive or and a multiplication by an odd number: neither loses
anything modulo 2⁶⁴.

That the multiplier is odd is all that is used of it, and what follows is more than for a hash in
general: one byte that differs is never lost again, whatever comes behind it, since each later step
is injective in the state.
-/

namespace BumbelBee
namespace Proof

open Lib Kernel

/-- The body of the loop in `hash_mix`. -/
def mixByte (hash : UInt64) (b : UInt8) : UInt64 := (hash ^^^ b.toUInt64) * traceHashPrime

/-- The prime is odd, and so has an inverse. -/
theorem traceHashPrime_inverse : traceHashPrime * 14886173955864302971 = 1 := by decide

theorem mul_traceHashPrime_injective : Function.Injective (· * traceHashPrime) := fun a b h => by
  have hinv : ∀ x : UInt64, x * traceHashPrime * 14886173955864302971 = x := fun x => by
    rw [UInt64.mul_assoc, traceHashPrime_inverse, UInt64.mul_one]
  rw [← hinv a, ← hinv b]
  exact congrArg (· * 14886173955864302971) h

theorem mixByte_mixing : Mixing mixByte where
  state _ _ _ h := (UInt64.xor_left_inj _).mp (mul_traceHashPrime_injective h)
  symbol hash _ _ h :=
    UInt8.toUInt64_inj.mp ((UInt64.xor_right_inj hash).mp (mul_traceHashPrime_injective h))

/-! ## The bytes that go in -/

/-- Byte `i` of a word. -/
theorem shift_byte (v : UInt64) {i : Nat} (hi : i < 8) :
    (v >>> UInt64.ofNat (i * 8)) &&& 0xff = (UInt8.ofNat (v.toNat / 256 ^ i)).toUInt64 := by
  have hshift : (UInt64.ofNat (i * 8)).toNat % 64 = i * 8 := by
    rw [UInt64.toNat_ofNat_of_lt' (show i * 8 < 18446744073709551616 by omega)]
    omega
  have hmask : (0xff : UInt64).toNat = 2 ^ 8 - 1 := rfl
  have hpow : 2 ^ (i * 8) = 256 ^ i := by rw [Nat.mul_comm, Nat.pow_mul]
  rw [← UInt64.toNat_inj, UInt64.toNat_and, UInt64.toNat_shiftRight, hshift, hmask,
    Nat.and_two_pow_sub_one_eq_mod, Nat.shiftRight_eq_div_pow, hpow, UInt8.toNat_toUInt64,
    UInt8.toNat_ofNat']

theorem hashMix_eq (hash v : UInt64) : hashMix hash v = (putU64 v).foldl mixByte hash := by
  rw [putU64, leEncode_eq_map, List.foldl_map, hashMix]
  refine List.foldl_ext _ _ _ fun h i hi => ?_
  rw [shift_byte v (List.mem_range.mp hi), mixByte]

theorem putU64_of_pid (pid : UInt32) : putU64 pid.toUInt64 = putU32 pid ++ List.replicate 4 0 := by
  rw [putU64, UInt32.toNat_toUInt64]
  exact leEncode_pad pid.toNat_lt 4

theorem putU64_of_type (type : UInt16) :
    putU64 type.toUInt64 = putU16 type ++ List.replicate 6 0 := by
  rw [putU64, UInt16.toNat_toUInt64]
  exact leEncode_pad type.toNat_lt 6

/-- The bytes of an event that the hash runs over: `pid` and `type` are widened, `size` is left
    out. -/
def hashedBytes (e : TraceEvent) : List UInt8 :=
  putU64 e.eventId ++ putU64 e.timestamp ++ putU64 e.pid.toUInt64 ++ putU64 e.type.toUInt64 ++
    putU64 e.data0 ++ putU64 e.data1

theorem hashEvent_eq (hash : UInt64) (e : TraceEvent) :
    hashEvent hash e = (hashedBytes e).foldl mixByte hash := by
  simp only [hashEvent, hashMix_eq, hashedBytes, List.foldl_append]

theorem traceHashEvents_eq (es : List TraceEvent) :
    traceHashEvents es = (es.flatMap hashedBytes).foldl mixByte traceHashInit := by
  rw [traceHashEvents, List.foldl_flatMap]
  refine List.foldl_ext _ _ _ fun h e _ => ?_
  exact hashEvent_eq h e

/-- They are the bytes of the event in memory, with zeroes between them. -/
theorem hashedBytes_eq (e : TraceEvent) :
    hashedBytes e = (encodeEvent e).take 20 ++ List.replicate 4 0 ++
      ((encodeEvent e).drop 20).take 2 ++ List.replicate 6 0 ++ (encodeEvent e).drop 24 := by
  have hfront : encodeEvent e = (putU64 e.eventId ++ putU64 e.timestamp ++ putU32 e.pid) ++
      (putU16 e.type ++ (putU16 e.size ++ (putU64 e.data0 ++ putU64 e.data1))) := by
    simp only [encodeEvent, List.append_assoc]
  have hlen : (putU64 e.eventId ++ putU64 e.timestamp ++ putU32 e.pid).length = 20 := by simp
  have hdrop : (encodeEvent e).drop 24 = putU64 e.data0 ++ putU64 e.data1 := by
    rw [show (24 : Nat) = 20 + (2 + 2) from rfl, ← List.drop_drop, hfront, List.drop_left' hlen,
      ← List.drop_drop, List.drop_left' (length_putU16 _), List.drop_left' (length_putU16 _)]
  rw [hdrop, hfront, List.take_left' hlen, List.drop_left' hlen, List.take_left' (length_putU16 _),
    hashedBytes, putU64_of_pid, putU64_of_type]
  simp only [List.append_assoc]

/-! ## One byte is corrupted -/

/-- The event's memory differs in one byte, and this is not one of `size`. -/
structure ByteCorrupted (e e' : TraceEvent) : Prop where
  changed : ∃ (k : Nat) (hk : k < (encodeEvent e).length) (b : UInt8), k ≠ 22 ∧ k ≠ 23 ∧
    (encodeEvent e)[k] ≠ b ∧ encodeEvent e' = (encodeEvent e).set k b

theorem ByteCorrupted.hashedBytes {e e' : TraceEvent} (h : ByteCorrupted e e') :
    OneApart (hashedBytes e) (hashedBytes e') := by
  obtain ⟨k, hk, b, hk22, hk23, hne, hset⟩ := h.changed
  have hsize : (encodeEvent e).length = 40 := length_encodeEvent e
  rw [hashedBytes_eq, hashedBytes_eq, hset, List.take_set, List.drop_set, List.drop_set]
  generalize encodeEvent e = bs at hk hne hsize
  have htake : (bs.take 20).length = 20 := by
    rw [List.length_take]
    omega
  have htake₂ : ((bs.drop 20).take 2).length = 2 := by
    rw [List.length_take, List.length_drop]
    omega
  by_cases hfirst : k < 20
  · rw [if_pos hfirst, if_pos (by omega)]
    have hset : OneApart (bs.take 20) ((bs.take 20).set k b) :=
      OneApart.set (by omega) (by rw [List.getElem_take]; exact hne)
    simpa only [List.append_assoc, List.nil_append] using hset.surround [] (List.replicate 4 (0 : UInt8) ++ (bs.drop 20).take 2 ++ List.replicate 6 (0 : UInt8) ++
      bs.drop 24)
  · rw [if_neg hfirst, List.set_eq_of_length_le (by omega), List.take_set]
    by_cases hsecond : k < 24
    · rw [if_pos hsecond]
      have hset : OneApart ((bs.drop 20).take 2) (((bs.drop 20).take 2).set (k - 20) b) := by
        refine OneApart.set (by omega) ?_
        rw [List.getElem_take, List.getElem_drop]
        simp only [show 20 + (k - 20) = k by omega]
        exact hne
      simpa only [List.append_assoc] using
        hset.surround (bs.take 20 ++ List.replicate 4 (0 : UInt8)) (List.replicate 6 (0 : UInt8) ++ bs.drop 24)
    · rw [if_neg hsecond, List.set_eq_of_length_le (by omega)]
      have hset : OneApart (bs.drop 24) ((bs.drop 24).set (k - 24) b) := by
        refine OneApart.set (by rw [List.length_drop]; omega) ?_
        rw [List.getElem_drop]
        simp only [show 24 + (k - 24) = k by omega]
        exact hne
      simpa only [List.append_assoc, List.append_nil] using hset.surround
        (bs.take 20 ++ List.replicate 4 (0 : UInt8) ++ (bs.drop 20).take 2 ++ List.replicate 6 (0 : UInt8)) []

/-- **The hash sees every corrupted byte**, whichever event of the session it is in, and
    wherever in the event but in `size`.

    `before` and `behind` are any events, so the byte may be anywhere in the session; `h` changes
    one byte of one event's memory, and not one of `size`, which is not hashed. There is no chance
    in it: a corrupted session hashes differently, always. -/
theorem hash_detects_byte (before behind : List TraceEvent) {e e' : TraceEvent}
    (h : ByteCorrupted e e') :
    traceHashEvents (before ++ e :: behind) ≠ traceHashEvents (before ++ e' :: behind) := by
  rw [traceHashEvents_eq, traceHashEvents_eq, List.flatMap_append, List.flatMap_append,
    List.flatMap_cons, List.flatMap_cons, ← List.append_assoc, ← List.append_assoc]
  exact mixByte_mixing.foldl_ne (h.hashedBytes.surround _ _) traceHashInit

/-- The second byte of the pid. -/
theorem hash_detects_byte_pid :
    traceHashEvents [TraceEvent.zero, ⟨7, 90, 3, 4, 40, 5, 6⟩] ≠
      traceHashEvents [TraceEvent.zero, ⟨7, 90, 0x203, 4, 40, 5, 6⟩] :=
  hash_detects_byte [TraceEvent.zero] []
    ⟨17, by decide, 2, by decide, by decide, by decide, by decide⟩

end Proof
end BumbelBee
