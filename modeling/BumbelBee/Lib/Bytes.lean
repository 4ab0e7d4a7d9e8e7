import Mathlib.Algebra.Group.Nat.Defs
import Mathlib.Data.List.Basic

/-!
# Little-endian fields and fixed-size byte blocks

A packed record is the concatenation of its fields, least significant byte first.
`takeU32`/`takeU64`/… read one field off the front of a byte string and hand back the
rest, so a record decoder is a chain of them in field order, and its round trip is one
`simp` with the `take_put` lemmas below.

A `Block n` is a byte string of exactly `n` bytes: the length is a field, so a sector or a
`char name[24]` of the wrong size cannot be built.
-/

namespace BumbelBee
namespace Lib

/-! ## Naturals as little-endian bytes -/

/-- The `n` low bytes of `v`, least significant first. -/
def leEncode : Nat → Nat → List UInt8
  | 0, _ => []
  | n + 1, v => UInt8.ofNat v :: leEncode n (v / 256)

/-- The natural a little-endian byte string denotes. -/
def leDecode : List UInt8 → Nat
  | [] => 0
  | b :: bs => b.toNat + 256 * leDecode bs

@[simp] theorem length_leEncode : ∀ (n v : Nat), (leEncode n v).length = n
  | 0, _ => rfl
  | n + 1, v => by simp [leEncode, length_leEncode n]

theorem leDecode_leEncode : ∀ (n v : Nat), leDecode (leEncode n v) = v % 256 ^ n
  | 0, v => by simp [leEncode, leDecode, Nat.mod_one]
  | n + 1, v => by
    have hbyte : (UInt8.ofNat v).toNat = v % 256 := UInt8.toNat_ofNat'
    rw [leEncode, leDecode, leDecode_leEncode n, hbyte, Nat.pow_succ', Nat.mod_mul]

/-- The low bytes come first. -/
theorem leEncode_add : ∀ (n m v : Nat), leEncode (n + m) v = leEncode n v ++ leEncode m (v / 256 ^ n)
  | 0, m, v => by rw [Nat.zero_add, Nat.pow_zero, Nat.div_one, leEncode, List.nil_append]
  | n + 1, m, v => by
    rw [Nat.add_right_comm, leEncode, leEncode, leEncode_add n m, List.cons_append,
      Nat.div_div_eq_div_mul, Nat.pow_succ']

theorem leEncode_zero : ∀ n : Nat, leEncode n 0 = List.replicate n 0
  | 0 => rfl
  | n + 1 => by
    rw [leEncode, Nat.zero_div, leEncode_zero n, List.replicate_succ]
    rfl

/-- A number that fits is followed by zeroes. -/
theorem leEncode_pad {n v : Nat} (h : v < 256 ^ n) (m : Nat) :
    leEncode (n + m) v = leEncode n v ++ List.replicate m 0 := by
  rw [leEncode_add, Nat.div_eq_of_lt h, leEncode_zero]

/-- Byte by byte. -/
theorem leEncode_eq_map : ∀ n v : Nat,
    leEncode n v = (List.range n).map fun i => UInt8.ofNat (v / 256 ^ i)
  | 0, _ => rfl
  | n + 1, v => by
    rw [leEncode, leEncode_eq_map n, List.range_succ_eq_map, List.map_cons, List.map_map,
      Nat.pow_zero, Nat.div_one]
    congr 1
    refine List.map_congr_left fun i _ => ?_
    rw [Function.comp_apply, Nat.div_div_eq_div_mul, Nat.pow_succ']

/-! ## Blocks -/

/-- Exactly `n` bytes. -/
@[ext] structure Block (n : Nat) where
  bytes : List UInt8
  size : bytes.length = n
deriving DecidableEq

/-- `memset(dst, 0, n)` followed by `memcpy(dst, src, min(n, length))`. -/
def Block.pad (n : Nat) (src : List UInt8) : Block n :=
  ⟨src.take n ++ List.replicate (n - src.length) 0, by simp; omega⟩

def Block.zero (n : Nat) : Block n := ⟨List.replicate n 0, by simp⟩

@[simp] theorem Block.length_bytes {n : Nat} (b : Block n) : b.bytes.length = n := b.size

theorem Block.pad_of_length {n : Nat} {src : List UInt8} (h : src.length = n) :
    (Block.pad n src).bytes = src := by
  simp [Block.pad, ← h]

@[simp] theorem Block.pad_bytes {n : Nat} (b : Block n) : Block.pad n b.bytes = b := by
  ext1; exact Block.pad_of_length b.size

/-- Padding keeps the source as a prefix. -/
theorem Block.take_pad {n k : Nat} {src : List UInt8} (hk : k ≤ src.length) (hn : k ≤ n) :
    (Block.pad n src).bytes.take k = src.take k := by
  simp only [Block.pad]
  rw [List.take_append_of_le_length (by simp; omega), List.take_take, Nat.min_eq_left hn]

/-- `memcpy(dst, src, length)` into an array of `n` bytes: what the source does not cover stays. -/
def Block.copyFront {n : Nat} (b : Block n) (src : List UInt8) : Block n :=
  ⟨src.take n ++ b.bytes.drop src.length, by simp; omega⟩

theorem Block.take_copyFront {n : Nat} (b : Block n) {src : List UInt8} (h : src.length ≤ n) :
    (b.copyFront src).bytes.take src.length = src := by
  simp only [copyFront]
  rw [List.take_of_length_le h, List.take_left]

/-! ## Reading one field off the front -/

def putU16 (v : UInt16) : List UInt8 := leEncode 2 v.toNat
def putU32 (v : UInt32) : List UInt8 := leEncode 4 v.toNat
def putU64 (v : UInt64) : List UInt8 := leEncode 8 v.toNat

def takeU16 (bs : List UInt8) : UInt16 × List UInt8 :=
  (UInt16.ofNat (leDecode (bs.take 2)), bs.drop 2)

def takeU32 (bs : List UInt8) : UInt32 × List UInt8 :=
  (UInt32.ofNat (leDecode (bs.take 4)), bs.drop 4)

def takeU64 (bs : List UInt8) : UInt64 × List UInt8 :=
  (UInt64.ofNat (leDecode (bs.take 8)), bs.drop 8)

def takeBlock (n : Nat) (bs : List UInt8) : Block n × List UInt8 :=
  (Block.pad n (bs.take n), bs.drop n)

@[simp] theorem length_putU16 (v : UInt16) : (putU16 v).length = 2 := length_leEncode ..
@[simp] theorem length_putU32 (v : UInt32) : (putU32 v).length = 4 := length_leEncode ..
@[simp] theorem length_putU64 (v : UInt64) : (putU64 v).length = 8 := length_leEncode ..

@[simp] theorem takeU16_put (v : UInt16) (rest : List UInt8) :
    takeU16 (putU16 v ++ rest) = (v, rest) := by
  have hlt := v.toNat_lt
  rw [takeU16, List.take_left' (length_putU16 v), List.drop_left' (length_putU16 v), putU16,
    leDecode_leEncode, Nat.mod_eq_of_lt (by omega), UInt16.ofNat_toNat]

@[simp] theorem takeU32_put (v : UInt32) (rest : List UInt8) :
    takeU32 (putU32 v ++ rest) = (v, rest) := by
  have hlt := v.toNat_lt
  rw [takeU32, List.take_left' (length_putU32 v), List.drop_left' (length_putU32 v), putU32,
    leDecode_leEncode, Nat.mod_eq_of_lt (by omega), UInt32.ofNat_toNat]

@[simp] theorem takeU64_put (v : UInt64) (rest : List UInt8) :
    takeU64 (putU64 v ++ rest) = (v, rest) := by
  have hlt := v.toNat_lt
  rw [takeU64, List.take_left' (length_putU64 v), List.drop_left' (length_putU64 v), putU64,
    leDecode_leEncode, Nat.mod_eq_of_lt (by omega), UInt64.ofNat_toNat]

@[simp] theorem takeBlock_put {n : Nat} (b : Block n) (rest : List UInt8) :
    takeBlock n (b.bytes ++ rest) = (b, rest) := by
  rw [takeBlock, List.take_left' b.size, List.drop_left' b.size, Block.pad_bytes]

end Lib
end BumbelBee
