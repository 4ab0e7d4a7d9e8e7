import BumbelBee.Kernel.Boot
import BumbelBee.Lib.Medium
import BumbelBee.Proof.Tables

/-!
# What the kernel is started with

Stage 2 works in a few hundred bytes between its list of the map and its stack, calls a firmware
that uses that stack too, and has the kernel read to where the segment registers can just reach. So
each of the three results (the image, the map, the tables) is about bytes the other two must not
touch. `Scratch` is what the firmware may use, `Listed` and `WroteAt` say what has been written so
far outside of it, and both are carried over every call. The map is the one `memory_init` then goes
through, and the tables are those of `boot_walk`.

Beyond `depth` the firmware is a parameter. `ReadsDisk` and `Reports` are what its two services are
documented to do, and `plainFirmware` is one that does it.
-/

namespace BumbelBee
namespace Proof

open Lib Kernel

variable {fw : Firmware} {depth : Nat} {mem mem' : UInt64 → UInt8}

/-! ## The firmware

Its stack is stage 2's own, so a call may write below the pointer. How far is `depth`, and
everything that is to be kept has to lie outside.
-/

/-- The part of the stack below stage 2's own that a firmware call may use. -/
def Scratch (depth : Nat) (a : UInt64) : Prop := 0x79fe - depth ≤ a.toNat ∧ a.toNat < 0x79fe

/-- A read without the carry flag has moved what the packet says. -/
def ReadsDisk (fw : Firmware) (disk : UInt8 → Nat → Block 512) (depth : Nat) : Prop :=
  ∀ p drive mem, (fw.int13 p drive mem).1 = false → ∀ a, ¬ Scratch depth a →
    (fw.int13 p drive mem).2 a = putBytes (linear p.segment p.offset)
      ((readSpan (disk drive) p.lba p.blocks.toNat).flatMap Block.bytes) mem a

/-- The firmware reports this map. Each call leaves an entry, and `ebx` for the next call; the
    last leaves zero there, or one more call says with the carry flag that there is none. -/
structure Reports (fw : Firmware) (map : List E820Entry) (next : Nat → UInt32) (depth : Nat) :
    Prop where
  first : next 0 = 0
  more : ∀ i, 0 < i → i < map.length → next i ≠ 0
  goesOn : ∀ i < map.length, ∀ (di : UInt16) mem, di.toNat + 24 + depth ≤ 0x79fe →
    (fw.int15 (next i) di mem).carry = false ∧ (fw.int15 (next i) di mem).eax = 0x534d4150 ∧
      (fw.int15 (next i) di mem).ebx = next (i + 1)
  leaves : ∀ i (h : i < map.length) (di : UInt16) mem, di.toNat + 24 + depth ≤ 0x79fe →
    e820EntryAt di.toUInt64 (fw.int15 (next i) di mem).mem = map[i]
  keeps : ∀ i < map.length, ∀ (di : UInt16) mem, di.toNat + 24 + depth ≤ 0x79fe →
    ∀ a, ¬ Scratch depth a → ¬ (di.toNat ≤ a.toNat ∧ a.toNat < di.toNat + 24) →
      (fw.int15 (next i) di mem).mem a = mem a
  ends : (map ≠ [] ∧ next map.length = 0) ∨ ∀ di mem,
    (fw.int15 (next map.length) di mem).carry = true ∧
      ∀ a, ¬ Scratch depth a → (fw.int15 (next map.length) di mem).mem a = mem a

/-! ## `load_kernel` -/

theorem length_sectors (d : Nat → Block 512) (lba : Nat) : ∀ n,
    ((readSpan d lba n).flatMap Block.bytes).length = 512 * n := by
  intro n
  induction n generalizing lba with
  | zero => rfl
  | succ n ih =>
    rw [readSpan_succ, List.flatMap_cons, List.length_append, ih, Block.length_bytes]
    omega

theorem readSpan_add {α : Type} (d : Nat → α) (s m n : Nat) :
    readSpan d s (m + n) = readSpan d s m ++ readSpan d (s + m) n := by
  induction m generalizing s with
  | zero =>
    rw [Nat.zero_add, Nat.add_zero]
    rfl
  | succ m ih =>
    rw [Nat.add_right_comm, readSpan_succ, readSpan_succ, ih, List.cons_append,
      Nat.add_right_comm, Nat.add_assoc s m 1]

theorem adc_toNat (a b : UInt16) (carry : Bool) :
    (adc a b carry).1.toNat + 2 ^ 16 * (adc a b carry).2.toNat =
      a.toNat + b.toNat + carry.toNat := by
  have ha := a.toNat_lt
  have hb := b.toNat_lt
  have hword : (if carry then (1 : UInt16) else 0).toNat = carry.toNat := by cases carry <;> rfl
  have hnat : (if carry then 1 else 0) = carry.toNat := by cases carry <;> rfl
  have hcarry : carry.toNat ≤ 1 := Bool.toNat_le carry
  rw [adc, hnat]
  simp only [UInt16.toNat_add, hword]
  by_cases hsum : 2 ^ 16 ≤ a.toNat + b.toNat + carry.toNat
  · rw [decide_eq_true hsum, Bool.toNat_true]
    omega
  · rw [decide_eq_false hsum, Bool.toNat_false]
    omega

/-- The four words count on as one. -/
theorem advance_lba {cx : UInt16} {p : Dap} (h : p.lba + cx.toNat < 2 ^ 64) :
    (p.advance cx).lba = p.lba + cx.toNat := by
  have h0 := adc_toNat p.lba0 cx false
  have h1 := adc_toNat p.lba1 0 (adc p.lba0 cx false).2
  have h2 := adc_toNat p.lba2 0 (adc p.lba1 0 (adc p.lba0 cx false).2).2
  have h3 := adc_toNat p.lba3 0 (adc p.lba2 0 (adc p.lba1 0 (adc p.lba0 cx false).2).2).2
  unfold Dap.lba at h ⊢
  simp only [Dap.advance]
  generalize adc p.lba0 cx false = r0 at *
  generalize adc p.lba1 0 r0.2 = r1 at *
  generalize adc p.lba2 0 r1.2 = r2 at *
  generalize adc p.lba3 0 r2.2 = r3 at *
  have hzero : (0 : UInt16).toNat = 0 := rfl
  have hfalse : false.toNat = 0 := rfl
  have hlast := Bool.toNat_le r3.2
  rw [hzero] at h1 h2 h3
  rw [hfalse] at h0
  omega

/-- The packet points behind so many sectors. -/
structure PacketAt (p : Dap) (lba done : Nat) : Prop where
  offset : p.offset = 0
  segment : p.segment = UInt16.ofNat (0x1000 + 32 * done)
  lba : p.lba = lba + done

theorem packet_advance {p : Dap} {lba done : Nat} (h : PacketAt p lba done) (cx : UInt16)
    (hlba : lba + done + cx.toNat < 2 ^ 64) : PacketAt (p.advance cx) lba (done + cx.toNat) := by
  refine ⟨h.offset, ?_, ?_⟩
  · have hshift : cx <<< 5 = UInt16.ofNat (32 * cx.toNat) := by
      apply UInt16.toNat_inj.mp
      have hpow : 2 ^ ((5 : UInt16).toNat % 16) = 32 := rfl
      rw [UInt16.toNat_shiftLeft, UInt16.toNat_ofNat', Nat.shiftLeft_eq, hpow, Nat.mul_comm]
    show p.segment + (cx <<< 5) = _
    rw [h.segment, hshift, ← UInt16.ofNat_add]
    congr 1
    omega
  · rw [advance_lba (by rw [h.lba]; exact hlba), h.lba, Nat.add_assoc]

/-- Where that is, below 1 MiB. -/
theorem packet_linear {p : Dap} {lba done : Nat} (h : PacketAt p lba done) (hdone : done < 1920) :
    linear p.segment p.offset = kernelLoadAddr + UInt64.ofNat (512 * done) := by
  have hsegment : p.segment.toNat = 0x1000 + 32 * done := by
    rw [h.segment, UInt16.toNat_ofNat_of_lt' (by rw [UInt16.size]; omega)]
  have hbase : kernelLoadAddr = UInt64.ofNat 0x10000 := rfl
  rw [linear, hsegment, h.offset, hbase, ← UInt64.ofNat_add]
  congr 1
  show (0x1000 + 32 * done) * 16 + 0 = _
  omega

theorem chunkSize_toNat (bx : UInt16) : (chunkSize bx).toNat = min bx.toNat 127 := by
  unfold chunkSize
  split
  · rename_i h
    have hle : bx.toNat ≤ 127 := UInt16.le_iff_toNat_le.mp h
    rw [Nat.min_eq_left hle]
  · rename_i h
    have hlt : 127 < bx.toNat := UInt16.lt_iff_toNat_lt.mp (UInt16.not_le.mp h)
    rw [Nat.min_eq_right hlt.le]
    rfl

/-- Outside the scratch, the memory differs by these bytes at most. -/
def WroteAt (depth : Nat) (addr : UInt64) (bytes : List UInt8) (mem mem' : UInt64 → UInt8) : Prop :=
  ∀ a, ¬ Scratch depth a → mem' a = putBytes addr bytes mem a

/-- The image of the kernel, so far. -/
def image (disk : Nat → Block 512) (lba done : Nat) : List UInt8 :=
  (readSpan disk lba done).flatMap Block.bytes

theorem length_image (disk : Nat → Block 512) (lba done : Nat) :
    (image disk lba done).length = 512 * done := length_sectors disk lba done

/-- A chunk goes behind the image. -/
theorem image_chunk {disk : Nat → Block 512} {lba done n : Nat} {mem₀ : UInt64 → UInt8}
    (hend : done + n ≤ 1920) (h : WroteAt depth kernelLoadAddr (image disk lba done) mem₀ mem)
    (hchunk : WroteAt depth (kernelLoadAddr + UInt64.ofNat (512 * done))
      (image disk (lba + done) n) mem mem') :
    WroteAt depth kernelLoadAddr (image disk lba (done + n)) mem₀ mem' := by
  intro a ha
  have hsplit : image disk lba (done + n) = image disk lba done ++ image disk (lba + done) n := by
    rw [image, readSpan_add, List.flatMap_append]
    rfl
  have hbase : kernelLoadAddr.toNat = 0x10000 := rfl
  have hat := length_image disk lba done
  have hput : putBytes (kernelLoadAddr + UInt64.ofNat (image disk lba done).length)
      (image disk (lba + done) n) (putBytes kernelLoadAddr (image disk lba done) mem₀) =
      putBytes kernelLoadAddr (image disk lba done ++ image disk (lba + done) n) mem₀ :=
    putBytes_append (by rw [List.length_append, length_image, length_image, hbase]; omega)
      (by rw [length_image, hbase]; omega)
  rw [hsplit, ← hput, hat, hchunk a ha]
  -- below the chunk the two memories agree at the address itself
  unfold putBytes
  split
  · rfl
  · exact h a ha

/-- The drive's number stays where stage 2 has put it. -/
theorem WroteAt.drive {bytes : List UInt8} (h : WroteAt depth kernelLoadAddr bytes mem mem')
    (hdepth : depth ≤ 0x5fe) (hend : bytes.length ≤ 512 * 1920) :
    mem' bootInfoAddr = mem bootInfoAddr := by
  have haddr : bootInfoAddr.toNat = 0x7000 := rfl
  have hbase : kernelLoadAddr.toNat = 0x10000 := rfl
  rw [h _ (fun hin => by
    have hlow := hin.1
    omega), putBytes_at (by omega), if_neg]
  intro hin
  omega

/-- **The whole image is loaded**, if the loop comes to its end. -/
theorem chunkLoop_image {disk : UInt8 → Nat → Block 512} (hread : ReadsDisk fw disk depth)
    (hdepth : depth ≤ 0x5fe) {lba : Nat} (hlba : lba + 1920 < 2 ^ 64) {mem₀ : UInt64 → UInt8} :
    ∀ (bx : UInt16) (p : Dap) (mem : UInt64 → UInt8) (done : Nat),
    PacketAt p lba done → done + bx.toNat ≤ 1920 →
    WroteAt depth kernelLoadAddr (image (disk (mem₀ bootInfoAddr)) lba done) mem₀ mem →
    (chunkLoop fw bx p mem).1 = true →
    WroteAt depth kernelLoadAddr (image (disk (mem₀ bootInfoAddr)) lba (done + bx.toNat)) mem₀
      (chunkLoop fw bx p mem).2 := by
  intro bx
  induction hn : bx.toNat using Nat.strongRecOn generalizing bx with
  | ind n ih =>
    intro p mem done hp hend himage hok
    subst hn
    unfold chunkLoop at hok ⊢
    by_cases hbx : bx = 0
    · subst hbx
      rw [dif_pos rfl]
      exact himage
    · rw [dif_neg hbx] at hok ⊢
      have hdrive := himage.drive hdepth (by rw [length_image]; omega)
      have hpos : bx.toNat ≠ 0 := fun hzero => hbx (UInt16.toNat_inj.mp hzero)
      have hsize := chunkSize_toNat bx
      have hp' : PacketAt { p with blocks := chunkSize bx } lba done :=
        ⟨hp.offset, hp.segment, hp.lba⟩
      have hmoved := hread { p with blocks := chunkSize bx } (mem bootInfoAddr) mem
      have hpacket := packet_linear hp' (by omega)
      have hnext := packet_advance hp' (chunkSize bx) (by omega)
      simp only [hpacket, hp'.lba, hdrive] at hmoved hok ⊢
      generalize fw.int13 { p with blocks := chunkSize bx } (mem₀ bootInfoAddr) mem = r at *
      obtain ⟨carry, mem'⟩ := r
      cases carry with
      | true => cases hok
      | false =>
        have hrest : (bx - chunkSize bx).toNat = bx.toNat - (chunkSize bx).toNat := by
          apply UInt16.toNat_sub_of_le
          rw [UInt16.le_iff_toNat_le]
          omega
        have hstep := ih _ (chunkSize_lt hbx) _ rfl _ mem' _ hnext (by omega)
          (image_chunk (by omega) himage (hmoved rfl)) hok
        rw [hrest, show done + (chunkSize bx).toNat + (bx.toNat - (chunkSize bx).toNat) =
          done + bx.toNat by omega] at hstep
        exact hstep

/-- It comes to its end, if every read does. -/
theorem chunkLoop_done (h : ∀ p drive mem, (fw.int13 p drive mem).1 = false) :
    ∀ (bx : UInt16) (p : Dap) (mem : UInt64 → UInt8), (chunkLoop fw bx p mem).1 = true := by
  intro bx
  induction hn : bx.toNat using Nat.strongRecOn generalizing bx with
  | ind n ih =>
    intro p mem
    subst hn
    unfold chunkLoop
    by_cases hbx : bx = 0
    · rw [dif_pos hbx]
    · rw [dif_neg hbx]
      have hok := h { p with blocks := chunkSize bx } (mem bootInfoAddr) mem
      simp only
      generalize fw.int13 { p with blocks := chunkSize bx } (mem bootInfoAddr) mem = r at *
      obtain ⟨carry, mem'⟩ := r
      subst hok
      exact ih _ (chunkSize_lt hbx) _ rfl _ mem'

/-! ## `detect_memory` -/

variable {map : List E820Entry} {next : Nat → UInt32}

/-- Where an entry is put. -/
def entryAddr (i : Nat) : UInt64 := 0x7400 + 24 * UInt64.ofNat i

theorem entryAddr_toNat {i : Nat} (hi : i < 64) : (entryAddr i).toNat = 0x7400 + 24 * i := by
  rw [entryAddr, UInt64.toNat_add, UInt64.toNat_mul, UInt64.toNat_ofNat']
  simp only [UInt64.reduceToNat]
  omega

theorem buffer_toNat {k : Nat} (hk : k < 64) :
    (UInt16.ofNat (0x7400 + 24 * k)).toNat = 0x7400 + 24 * k :=
  UInt16.toNat_ofNat_of_lt' (by rw [UInt16.size]; omega)

theorem buffer_entryAddr {k : Nat} (hk : k < 64) :
    (UInt16.ofNat (0x7400 + 24 * k)).toUInt64 = entryAddr k := by
  apply UInt64.toNat_inj.mp
  rw [UInt16.toNat_toUInt64, buffer_toNat hk, entryAddr_toNat hk]

theorem buffer_succ (k : Nat) :
    UInt16.ofNat (0x7400 + 24 * k) + 24 = UInt16.ofNat (0x7400 + 24 * (k + 1)) := by
  rw [Nat.mul_succ, ← Nat.add_assoc, UInt16.ofNat_add (0x7400 + 24 * k)]
  rfl

theorem count_succ (k : Nat) : UInt16.ofNat k + 1 = UInt16.ofNat (k + 1) := by
  rw [UInt16.ofNat_add]
  rfl

theorem not_full {k : Nat} (hk : k + 1 < 64) : ¬ UInt16.ofNat k + 1 ≥ e820MaxEntries := by
  rw [count_succ, ge_iff_le, UInt16.not_le, UInt16.lt_iff_toNat_lt,
    UInt16.toNat_ofNat_of_lt' (by rw [UInt16.size]; omega)]
  exact hk

theorem e820EntryAt_congr {addr : UInt64} (hend : addr.toNat + 24 ≤ 2 ^ 32)
    (h : ∀ a, addr.toNat ≤ a.toNat → a.toNat < addr.toNat + 24 → mem' a = mem a) :
    e820EntryAt addr mem' = e820EntryAt addr mem := by
  have h8 : (addr + 8).toNat = addr.toNat + 8 := by
    rw [UInt64.toNat_add]
    simp only [UInt64.reduceToNat]
    omega
  have h16 : (addr + 16).toNat = addr.toNat + 16 := by
    rw [UInt64.toNat_add]
    simp only [UInt64.reduceToNat]
    omega
  have hbase : getWord addr mem' = getWord addr mem := by
    apply getWord_congr (by omega)
    intro a hlow hhigh
    exact h a hlow (by omega)
  have hlength : getWord (addr + 8) mem' = getWord (addr + 8) mem := by
    apply getWord_congr (by omega)
    intro a hlow hhigh
    exact h a (by omega) (by omega)
  have htype : getBytes (addr + 16) 4 mem' = getBytes (addr + 16) 4 mem := by
    apply getBytes_congr (by omega)
    intro a hlow hhigh
    exact h a (by omega) (by omega)
  rw [e820EntryAt, hbase, hlength, htype]
  rfl

/-- So many entries of the map are listed. -/
structure Listed (map : List E820Entry) (depth k : Nat) (mem mem' : UInt64 → UInt8) : Prop where
  keeps : ∀ a, ¬ Scratch depth a → ¬ (0x7400 ≤ a.toNat ∧ a.toNat < 0x7400 + 24 * k) → mem' a = mem a
  entries : ∀ i (h : i < map.length), i < k → e820EntryAt (entryAddr i) mem' = map[i]

theorem Listed.start : Listed map depth 0 mem mem :=
  ⟨fun _ _ _ => rfl, fun _ _ h => absurd h (Nat.not_lt_zero _)⟩

/-- A call lists one more. -/
theorem Listed.call (hmap : Reports fw map next depth) (hroom : 24 * map.length + depth ≤ 0x5fe)
    {k : Nat} (hk : k < map.length) (h : Listed map depth k mem mem') :
    Listed map depth (k + 1) mem
      (fw.int15 (next k) (UInt16.ofNat (0x7400 + 24 * k)) mem').mem := by
  have hbuffer := buffer_toNat (k := k) (by omega)
  have hbelow : (UInt16.ofNat (0x7400 + 24 * k)).toNat + 24 + depth ≤ 0x79fe := by omega
  have hkeeps := hmap.keeps k hk _ mem' hbelow
  have hleaves := hmap.leaves k hk _ mem' hbelow
  rw [buffer_entryAddr (by omega)] at hleaves
  rw [hbuffer] at hkeeps
  refine ⟨fun a hscratch hout => ?_, fun i hi hlt => ?_⟩
  · rw [hkeeps a hscratch (by omega), h.keeps a hscratch (by omega)]
  · by_cases heq : i = k
    · subst heq
      exact hleaves
    · have haddr := entryAddr_toNat (i := i) (by omega)
      rw [e820EntryAt_congr (by omega) fun a hlow hhigh => hkeeps a ?_ ?_]
      · exact h.entries i hi (by omega)
      · intro hin
        have hfrom := hin.1
        omega
      · omega

theorem Listed.carried {k : Nat} {mem'' : UInt64 → UInt8} (hk : 24 * k + depth ≤ 0x5fe)
    (h : Listed map depth k mem mem') (hsame : ∀ a, ¬ Scratch depth a → mem'' a = mem' a) :
    Listed map depth k mem mem'' := by
  refine ⟨fun a hscratch hout => ?_, fun i hi hlt => ?_⟩
  · rw [hsame a hscratch, h.keeps a hscratch hout]
  · have haddr := entryAddr_toNat (i := i) (by omega)
    rw [e820EntryAt_congr (by omega) fun a hlow hhigh => hsame a ?_, h.entries i hi hlt]
    intro hin
    have hfrom := hin.1
    omega

theorem e820Next_carry {ebx : UInt32} {di bp : UInt16} (h : (fw.int15 ebx di mem).carry = true) :
    e820Next fw ebx di bp mem = (bp, (fw.int15 ebx di mem).mem) := by
  rw [e820Next]
  simp only [h, if_true]

theorem e820Next_entry {ebx : UInt32} {di bp : UInt16}
    (hcarry : (fw.int15 ebx di mem).carry = false) (heax : (fw.int15 ebx di mem).eax = 0x534d4150)
    (hbp : ¬ bp + 1 ≥ e820MaxEntries) :
    e820Next fw ebx di bp mem =
      if (fw.int15 ebx di mem).ebx ≠ 0 then
        e820Next fw (fw.int15 ebx di mem).ebx (di + 24) (bp + 1) (fw.int15 ebx di mem).mem
      else (bp + 1, (fw.int15 ebx di mem).mem) := by
  rw [e820Next]
  simp only [hcarry, heax, hbp, Bool.false_eq_true, if_false, ne_eq, not_true, dite_false]

/-- `.e820_next` lists what is left of the map. -/
theorem e820Next_lists (hmap : Reports fw map next depth)
    (hroom : 24 * map.length + depth ≤ 0x5fe) : ∀ left k : Nat, k + (left + 1) = map.length →
    ∀ mem', Listed map depth k mem mem' → ∃ mem'',
      e820Next fw (next k) (UInt16.ofNat (0x7400 + 24 * k)) (UInt16.ofNat k) mem' =
        (UInt16.ofNat map.length, mem'') ∧ Listed map depth map.length mem mem'' := by
  intro left
  induction left with
  | zero =>
    intro k hk mem' hlisted
    have hnext := hlisted.call hmap hroom (by omega)
    obtain ⟨hcarry, heax, hebx⟩ := hmap.goesOn k (by omega) _ mem' (by
      rw [buffer_toNat (k := k) (by omega)]
      omega)
    rw [e820Next_entry hcarry heax (not_full (k := k) (by omega)), hebx, count_succ, hk]
    rw [hk] at hnext
    obtain ⟨-, hzero⟩ | hends := hmap.ends
    · rw [hzero, if_neg (fun h => h rfl)]
      exact ⟨_, rfl, hnext⟩
    · by_cases hzero : next map.length = 0
      · rw [hzero, if_neg (fun h => h rfl)]
        exact ⟨_, rfl, hnext⟩
      · rw [if_pos hzero, e820Next_carry (hends _ _).1]
        exact ⟨_, rfl, hnext.carried hroom (hends _ _).2⟩
  | succ left ih =>
    intro k hk mem' hlisted
    have hnext := hlisted.call hmap hroom (by omega)
    obtain ⟨hcarry, heax, hebx⟩ := hmap.goesOn k (by omega) _ mem' (by
      rw [buffer_toNat (k := k) (by omega)]
      omega)
    have hmore := hmap.more (k + 1) (by omega) (by omega)
    rw [e820Next_entry hcarry heax (not_full (k := k) (by omega)), hebx, if_pos hmore, count_succ,
      buffer_succ]
    exact ih (k + 1) (by omega) _ hnext

/-- **The whole map is listed.** -/
theorem e820Next_all (hmap : Reports fw map next depth) (hroom : 24 * map.length + depth ≤ 0x5fe)
    (mem : UInt64 → UInt8) : ∃ mem', e820Next fw 0 e820BufAddr 0 mem =
      (UInt16.ofNat map.length, mem') ∧ Listed map depth map.length mem mem' := by
  by_cases hempty : map = []
  · obtain ⟨hne, -⟩ | hends := hmap.ends
    · exact absurd hempty hne
    · subst hempty
      have hfirst := hends e820BufAddr mem
      rw [List.length_nil, hmap.first] at hfirst
      rw [e820Next_carry hfirst.1]
      exact ⟨_, rfl, Listed.start.carried hroom hfirst.2⟩
  · have hpos := List.length_pos_iff.mpr hempty
    have hlists := e820Next_lists hmap hroom (map.length - 1) 0 (by omega) mem Listed.start
    rw [hmap.first] at hlists
    exact hlists

/-- A `struct boot_info` with this map. -/
structure InfoAt (map : List E820Entry) (mem : UInt64 → UInt8) : Prop where
  count : getBytes (bootInfoAddr + 2) 2 mem = putU16 (UInt16.ofNat map.length)
  offset : getBytes (bootInfoAddr + 4) 2 mem = putU16 0x400
  entries : ∀ i (h : i < map.length), e820EntryAt (entryAddr i) mem = map[i]

theorem takeU16_whole (v : UInt16) : (takeU16 (putU16 v)).1 = v := by
  have hput := takeU16_put v []
  rw [List.append_nil] at hput
  rw [hput]

/-! A word of memory is read back, and leaves what is beside it alone. -/

section Words

variable {addr addr' : UInt64} {v : UInt16}

theorem getBytes_putU16 (hend : addr.toNat + 2 ≤ 2 ^ 64) :
    getBytes addr 2 (putBytes addr (putU16 v) mem) = putU16 v := by
  have hput : getBytes addr (putU16 v).length (putBytes addr (putU16 v) mem) = putU16 v :=
    getBytes_putBytes (by rw [length_putU16]; exact hend)
  rwa [length_putU16] at hput

theorem putU16_out (hend : addr.toNat + 2 ≤ 2 ^ 64)
    (h : addr'.toNat < addr.toNat ∨ addr.toNat + 2 ≤ addr'.toNat) :
    putBytes addr (putU16 v) mem addr' = mem addr' :=
  putBytes_out (by rw [length_putU16]; exact hend) (by rw [length_putU16]; exact h)

theorem getBytes_putU16_beside (hend : addr.toNat + 2 ≤ 2 ^ 64) (hend' : addr'.toNat + 2 ≤ 2 ^ 64)
    (h : addr'.toNat + 2 ≤ addr.toNat ∨ addr.toNat + 2 ≤ addr'.toNat) :
    getBytes addr' 2 (putBytes addr (putU16 v) mem) = getBytes addr' 2 mem :=
  getBytes_putBytes_of_disjoint (by rw [length_putU16]; exact hend) hend'
    (by rw [length_putU16]; exact h)

end Words

/-- `memory_init` goes through the map. -/
theorem InfoAt.read (h : InfoAt map mem) (hfit : map.length < 64) :
    bootInfoEntries bootInfoAddr mem = map := by
  have hcount : (UInt16.ofNat map.length).toNat = map.length :=
    UInt16.toNat_ofNat_of_lt' (by rw [UInt16.size]; omega)
  rw [bootInfoEntries, h.count, h.offset, takeU16_whole, takeU16_whole, hcount]
  apply List.ext_getElem
  · rw [List.length_map, List.length_range]
  · intro i hi hi'
    rw [List.getElem_map, List.getElem_range]
    exact h.entries i hi'

theorem InfoAt.congr (h : InfoAt map mem) (hfit : map.length < 64)
    (hsame : ∀ a : UInt64, a.toNat < 0x7a00 → mem' a = mem a) : InfoAt map mem' := by
  have h2 : (bootInfoAddr + 2).toNat = 0x7002 := rfl
  have h4 : (bootInfoAddr + 4).toNat = 0x7004 := rfl
  refine ⟨?_, ?_, ?_⟩
  · rw [← h.count]
    exact getBytes_congr (by omega) fun a _ hhigh => hsame a (by omega)
  · rw [← h.offset]
    exact getBytes_congr (by omega) fun a _ hhigh => hsame a (by omega)
  · intro i hi
    have haddr := entryAddr_toNat (i := i) (by omega)
    rw [← h.entries i hi]
    exact e820EntryAt_congr (by omega) fun a _ hhigh => hsame a (by omega)

/-- **`detect_memory` comes back**, with the map, as long as the list stays clear of the stack. -/
theorem detectMemory_lists (hmap : Reports fw map next depth)
    (hroom : 24 * map.length + depth ≤ 0x5fe) (ret : UInt16) (mem : UInt64 → UInt8) :
    ∃ mem', detectMemory fw ret mem = (ret, mem') ∧ InfoAt map mem' ∧
      ∀ a : UInt64, a.toNat < 0x7002 ∨ 0x7a00 ≤ a.toNat → mem' a = mem a := by
  have hslot : returnSlot.toNat = 0x79fe := rfl
  have h2 : (bootInfoAddr + 2).toNat = 0x7002 := rfl
  have h4 : (bootInfoAddr + 4).toNat = 0x7004 := rfl
  have hoffset : e820BufAddr - 0x7000 = 0x400 := rfl
  obtain ⟨listed, hnext, hlisted⟩ :=
    e820Next_all hmap hroom (putBytes returnSlot (putU16 ret) mem)
  have hback : getBytes returnSlot 2 listed = putU16 ret := by
    have hput : getBytes returnSlot 2 (putBytes returnSlot (putU16 ret) mem) = putU16 ret :=
      getBytes_putU16 (by omega)
    rw [← hput]
    apply getBytes_congr (by omega)
    intro a hlow hhigh
    apply hlisted.keeps a
    · intro hscratch
      have hbelow := hscratch.2
      omega
    · omega
  refine ⟨putBytes (bootInfoAddr + 4) (putU16 0x400)
    (putBytes (bootInfoAddr + 2) (putU16 (UInt16.ofNat map.length)) listed), ?_, ⟨?_, ?_, ?_⟩, ?_⟩
  · simp only [detectMemory, hnext, hoffset]
    rw [getBytes_putU16_beside (by omega) (by omega) (by omega),
      getBytes_putU16_beside (by omega) (by omega) (by omega), hback, takeU16_whole]
  · rw [getBytes_putU16_beside (by omega) (by omega) (by omega)]
    exact getBytes_putU16 (by omega)
  · exact getBytes_putU16 (by omega)
  · intro i hi
    have haddr := entryAddr_toNat (i := i) (by omega)
    rw [← hlisted.entries i hi hi]
    apply e820EntryAt_congr (by omega)
    intro a hlow hhigh
    rw [putU16_out (by omega) (by omega), putU16_out (by omega) (by omega)]
  · intro a ha
    rw [putU16_out (by omega) (by omega), putU16_out (by omega) (by omega),
      hlisted.keeps a ?_ (by omega), putU16_out (by omega) (by omega)]
    intro hscratch
    have hlow := hscratch.1
    have hbelow := hscratch.2
    omega

/-! ## All of it -/

/-- The tables are all that `protected_mode_entry` writes. -/
theorem protectedModeEntry_out (m : Memory) {a : UInt64} (h : a.toNat < 0x9000 ∨ 0xc000 ≤ a.toNat) :
    (protectedModeEntry m).phys a = m.phys a := by
  obtain ⟨hpml4, hpdpt, hpd⟩ := isPage_boot
  have h9 : pml4Table.toNat = 0x9000 := rfl
  have ha' : pdptTable.toNat = 0xa000 := rfl
  have hb : pdTable.toNat = 0xb000 := rfl
  have hzero : (0 : UInt64).toNat < 512 := by decide
  have hpage := isPage_pageOf a
  have hin : InPage (pageOf a) a := by
    have hsize : pageBytes = 4096 := rfl
    rw [InPage, pageOf, toNat_page, hsize]
    omega
  have hne : ∀ q : UInt64, 0x9000 ≤ q.toNat → q.toNat + pageBytes ≤ 0xc000 → pageOf a ≠ q := by
    intro q hlow hhigh heq
    rw [heq] at hin
    have hfrom := hin.1
    have hto := hin.2
    omega
  have hne₁ := hne pml4Table (by omega) (by rw [h9]; decide)
  have hne₂ := hne pdptTable (by omega) (by rw [ha']; decide)
  have hne₃ := hne pdTable (by omega) (by rw [hb]; decide)
  let m₁ := ((m.clear pml4Table pageSize).clear pdptTable pageSize).clear pdTable pageSize
  let m₂ := m₁.setEntry pml4Table 0 (pdptTable ||| 0x007)
  let m₃ := m₂.setEntry pdptTable 0 (pdTable ||| 0x007)
  -- the number of rounds is kept away from the evaluator
  obtain ⟨n, hn⟩ : ∃ n, n = 512 := ⟨512, rfl⟩
  have hrun : protectedModeEntry m =
      { (List.range n).foldl mapEntry m₃ with cr3 := pml4Table } := by rw [hn]; rfl
  have hlast := (mapEntries n hn.le m₃).1 _ hpage hne₃
  generalize (List.range n).foldl mapEntry m₃ = m₄ at hrun hlast
  have hcleared : SamePage (pageOf a) m.phys m₁.phys :=
    ((clear_other hpml4 hpage hne₁).trans (clear_other hpdpt hpage hne₂)).trans
      (clear_other hpd hpage hne₃)
  have hlinked : SamePage (pageOf a) m₁.phys m₃.phys :=
    (setEntry_other hpml4 hzero hpage hne₁).trans (setEntry_other hpdpt hzero hpage hne₂)
  rw [hrun]
  exact ((hcleared.trans hlinked).trans hlast) a hin

theorem loadKernel_image {disk : UInt8 → Nat → Block 512} (hread : ReadsDisk fw disk depth)
    (hdepth : depth ≤ 0x5fe) {sectors : UInt16} (hsectors : sectors.toNat ≤ 1920) (lba : UInt32)
    (mem : UInt64 → UInt8) (hok : (loadKernel fw sectors lba mem).1 = true) :
    WroteAt depth kernelLoadAddr (image (disk (mem bootInfoAddr)) lba.toNat sectors.toNat) mem
      (loadKernel fw sectors lba mem).2 := by
  have hlba := lba.toNat_lt
  have hstart : PacketAt ⟨sectors, 0x0000, 0x1000, lba.toUInt16, (lba >>> 16).toUInt16, 0, 0⟩
      lba.toNat 0 := by
    refine ⟨rfl, rfl, ?_⟩
    have hpow : 2 ^ ((16 : UInt32).toNat % 32) = 2 ^ 16 := rfl
    have hzero : (0 : UInt16).toNat = 0 := rfl
    rw [Dap.lba, UInt32.toNat_toUInt16, UInt32.toNat_toUInt16, UInt32.toNat_shiftRight,
      Nat.shiftRight_eq_div_pow, hpow, hzero]
    omega
  have hnone : WroteAt depth kernelLoadAddr (image (disk (mem bootInfoAddr)) lba.toNat 0) mem
      mem := by
    intro a _
    rw [image, readSpan, List.range_zero, List.map_nil, List.flatMap_nil, putBytes_nil]
  have hrun := chunkLoop_image hread hdepth (by omega) sectors _ mem 0 hstart (by omega) hnone hok
  rw [Nat.zero_add] at hrun
  exact hrun

/-- **The kernel gets its image, its map and its tables.** When the firmware's calls do what they
    are for, stage 2 stops at a read that fails, or enters the kernel with all of its sectors in
    place, the boot drive and the firmware's map in `struct boot_info`, and the first gigabyte
    mapped onto itself.

    `hread` and `hmap` are the firmware's two services. `depth` is how far down they use the
    stack, and `hroom` says that the list of the map ends in front of that. `hsectors` keeps the
    image below the first megabyte, which is where the segment register goes round. `ret` is
    where `detect_memory` was called from: that it goes back there is part of the result, since
    the list grows towards the return address. -/
theorem stage2_hands_over {disk : UInt8 → Nat → Block 512} (hread : ReadsDisk fw disk depth)
    (hmap : Reports fw map next depth) (hroom : 24 * map.length + depth ≤ 0x5fe)
    {sectors : UInt16} (hsectors : sectors.toNat ≤ 1920) (lba : UInt32) (ret : UInt16) (dl : UInt8)
    (mem : UInt64 → UInt8) :
    (bootStage2 fw sectors lba ret dl mem = .diskFail ∨
      ∃ m, bootStage2 fw sectors lba ret dl mem = .kernel m ∧
        getBytes kernelLoadAddr (512 * sectors.toNat) m.phys =
          image (disk dl) lba.toNat sectors.toNat ∧
        m.phys bootInfoAddr = dl ∧ bootInfoEntries bootInfoAddr m.phys = map ∧
        ∀ vaddr, m.pageWalk m.cr3 vaddr =
          if vaddr.toNat < 2 ^ 30 then some ⟨vaddr, true⟩ else none) ∧
    ((∀ p d mem', (fw.int13 p d mem').1 = false) →
      bootStage2 fw sectors lba ret dl mem ≠ .diskFail) := by
  have hinfo : bootInfoAddr.toNat = 0x7000 := rfl
  have hbase : kernelLoadAddr.toNat = 0x10000 := rfl
  have hdl : putBytes bootInfoAddr [dl] mem bootInfoAddr = dl := by
    rw [putBytes_at (by rw [List.length_singleton]; omega), if_pos (by simp), Nat.sub_self]
    rfl
  have hload := loadKernel_image hread (by omega) hsectors lba (putBytes bootInfoAddr [dl] mem)
  have hdone := fun h : ∀ p d mem', (fw.int13 p d mem').1 = false => chunkLoop_done h sectors
    ⟨sectors, 0x0000, 0x1000, lba.toUInt16, (lba >>> 16).toUInt16, 0, 0⟩
    (putBytes bootInfoAddr [dl] mem)
  have hlength := length_image (disk dl) lba.toNat sectors.toNat
  rw [hdl] at hload
  unfold bootStage2
  rw [loadKernel] at *
  generalize chunkLoop fw sectors _ (putBytes bootInfoAddr [dl] mem) = r at hload hdone ⊢
  obtain ⟨ok, loaded⟩ := r
  cases ok with
  | false => exact ⟨.inl rfl, fun h => absurd (hdone h) Bool.false_ne_true⟩
  | true =>
    have hloaded := hload rfl
    have hdrive := hloaded.drive (by omega) (by rw [hlength]; omega)
    obtain ⟨listed, hdetect, htold, hkept⟩ := detectMemory_lists hmap hroom ret loaded
    simp only [hdetect, ne_eq, not_true, if_false]
    have hout := fun a h => protectedModeEntry_out ⟨0, 0, 0, 0, listed⟩ (a := a) h
    refine ⟨.inr ⟨_, rfl, ?_, ?_, ?_, ?_⟩, nofun⟩
    · have himage : getBytes kernelLoadAddr (512 * sectors.toNat)
          (putBytes kernelLoadAddr (image (disk dl) lba.toNat sectors.toNat)
            (putBytes bootInfoAddr [dl] mem)) = image (disk dl) lba.toNat sectors.toNat := by
        rw [← hlength]
        exact getBytes_putBytes (by omega)
      rw [← himage]
      apply getBytes_congr (by omega)
      intro a hlow hhigh
      rw [hout a (by omega)]
      refine (hkept a (by omega)).trans (hloaded a ?_)
      intro hscratch
      have hbelow := hscratch.2
      omega
    · rw [hout _ (by omega)]
      exact (hkept _ (by omega)).trans (hdrive.trans hdl)
    · exact (htold.congr (by omega) fun a ha => hout a (by omega)).read (by omega)
    · exact boot_walk (BootTables.built _)

/-! A firmware that reads what it is asked for, and knows one stretch of memory. -/

/-- An entry as the firmware leaves it. -/
def e820Bytes (e : E820Entry) : List UInt8 :=
  putU64 e.base ++ (putU64 e.length ++ (putU32 e.type ++ putU32 1))

def plainFirmware (disk : UInt8 → Nat → Block 512) (e : E820Entry) : Firmware where
  int13 p drive mem := (false, putBytes (linear p.segment p.offset)
    ((readSpan (disk drive) p.lba p.blocks.toNat).flatMap Block.bytes) mem)
  int15 _ di mem := ⟨false, 0x534d4150, 0, putBytes di.toUInt64 (e820Bytes e) mem⟩

theorem length_e820Bytes (e : E820Entry) : (e820Bytes e).length = 24 := by
  simp only [e820Bytes, List.length_append, length_putU64, length_putU32]

/-- An entry that was left is read back. -/
theorem e820EntryAt_put {addr : UInt64} (hend : addr.toNat + 24 ≤ 2 ^ 64) (e : E820Entry)
    (mem : UInt64 → UInt8) : e820EntryAt addr (putBytes addr (e820Bytes e) mem) = e := by
  have hlength := length_e820Bytes e
  have hslice : ∀ off n, off + n ≤ 24 → getBytes (addr + UInt64.ofNat off) n
      (putBytes addr (e820Bytes e) mem) = ((e820Bytes e).drop off).take n := fun off n h =>
    getBytes_putBytes_slice (by omega) (by omega)
  have hbase : getBytes addr 8 (putBytes addr (e820Bytes e) mem) = putU64 e.base := by
    have hfirst := hslice 0 8 (by omega)
    rw [show addr + UInt64.ofNat 0 = addr from UInt64.add_zero _, List.drop_zero] at hfirst
    exact hfirst.trans (List.take_left' (length_putU64 _))
  have hsize : getBytes (addr + 8) 8 (putBytes addr (e820Bytes e) mem) = putU64 e.length := by
    refine (hslice 8 8 (by omega)).trans ?_
    rw [e820Bytes, List.drop_left' (length_putU64 _)]
    exact List.take_left' (length_putU64 _)
  have htype : getBytes (addr + 16) 4 (putBytes addr (e820Bytes e) mem) = putU32 e.type := by
    refine (hslice 16 4 (by omega)).trans ?_
    rw [e820Bytes, ← List.append_assoc, List.drop_left' (by
      rw [List.length_append, length_putU64, length_putU64])]
    exact List.take_left' (length_putU32 _)
  have hbase' := takeU64_put e.base []
  have hsize' := takeU64_put e.length []
  have htype' := takeU32_put e.type []
  rw [List.append_nil] at hbase' hsize' htype'
  rw [e820EntryAt, getWord, getWord, hbase, hsize, htype, hbase', hsize', htype']

theorem plainFirmware_reports (disk : UInt8 → Nat → Block 512) (e : E820Entry) :
    Reports (plainFirmware disk e) [e] (fun _ => 0) 0 := by
  have hend : ∀ di : UInt16, di.toUInt64.toNat + 24 ≤ 2 ^ 64 := fun di => by
    have hlt := di.toNat_lt
    rw [UInt16.toNat_toUInt64]
    omega
  refine ⟨rfl, fun i hi hlt => ?_, fun i _ di mem _ => ⟨rfl, rfl, rfl⟩, ?_, ?_,
    Or.inl ⟨List.cons_ne_nil _ _, rfl⟩⟩
  · rw [List.length_singleton] at hlt
    omega
  · intro i hi di mem _
    rw [List.length_singleton] at hi
    obtain rfl : i = 0 := by omega
    exact e820EntryAt_put (hend di) e mem
  · intro i _ di mem _ a _ hout
    have hlength := length_e820Bytes e
    have hdi : di.toUInt64.toNat = di.toNat := UInt16.toNat_toUInt64 di
    have hput : putBytes di.toUInt64 (e820Bytes e) mem a = _ :=
      putBytes_at (hlength.symm ▸ hend di) a
    exact hput.trans (if_neg (by rw [hlength, hdi]; exact hout))

/-- 200 sectors are loaded in two chunks, by a firmware that knows of 128 MiB. -/
theorem stage2_hands_over_plain :
    let disk : UInt8 → Nat → Block 512 := fun _ lba => Block.pad 512 [UInt8.ofNat lba]
    ∃ m, bootStage2 (plainFirmware disk ⟨0, 0x8000000, 1⟩) 200 5 0x7e30 0x80 (fun _ => 0) =
        .kernel m ∧
      getBytes kernelLoadAddr (512 * 200) m.phys = image (disk 0x80) 5 200 ∧
      m.phys bootInfoAddr = 0x80 ∧
      bootInfoEntries bootInfoAddr m.phys = [⟨0, 0x8000000, 1⟩] := by
  intro disk
  have hread : ReadsDisk (plainFirmware disk ⟨0, 0x8000000, 1⟩) disk 0 := fun _ _ _ _ _ _ => rfl
  obtain ⟨hends, hreads⟩ := stage2_hands_over hread (plainFirmware_reports disk _) (by decide)
    (show (200 : UInt16).toNat ≤ 1920 by decide) 5 0x7e30 0x80 fun _ => 0
  obtain ⟨m, hkernel, himage, hdrive, hmap, -⟩ := hends.resolve_left (hreads fun _ _ _ => rfl)
  exact ⟨m, hkernel, himage, hdrive, hmap⟩

end Proof
end BumbelBee
