import BumbelBee.Kernel.Nodes
import BumbelBee.Proof.Addressable

/-!
# What `page_alloc` gives out

The allocator only ever moves up, one page a call, from the first page of the region
`memory_init` has picked to the region's end. `Allotted` says that of the state and the pages
given out so far; everything `page_alloc_sound` promises of a map is read off it.

The allocator has no list of free pages and takes nothing back, so that no page is given out twice
is a matter of one counter that must not go round. The region's bounds are rounded to pages, the
lower one up and the upper one down, and it is the rounding that can go wrong at the end of the
address space.
-/

namespace BumbelBee
namespace Proof

open Lib Kernel

variable {lo hi : Nat} {m : Memory} {given : List UInt64} {entries : List E820Entry}

/-- The memory after `n` calls of `page_alloc`. -/
def afterAllocs : Nat → Memory → Memory
  | 0, m => m
  | n + 1, m => afterAllocs n (pageAlloc m).2

/-! ## The state between two calls

Everything is determined by how many pages were given out. `given` is that list, and the counters
are functions of its length.
-/

/-- Where a region's pages can start and end. -/
structure RegionBounds (lo hi : Nat) : Prop where
  aligned : lo % pageBytes = 0
  above : 0x200000 ≤ lo
  start_lt : lo + 2 * pageBytes ≤ 2 ^ 64
  stop_lt : hi + 2 * pageBytes ≤ 2 ^ 64

/-- The pages given out are the first ones from `lo` on, and the next one follows them. -/
structure Allotted (lo hi : Nat) (m : Memory) (given : List UInt64) : Prop where
  limit : m.allocLimit.toNat = hi
  next : m.allocNext.toNat = lo + pageBytes * given.length
  inside : given ≠ [] → lo + pageBytes * given.length ≤ hi
  used : m.usedBytes.toNat = pageBytes * given.length
  pages : given.map UInt64.toNat = (List.range given.length).map fun i => lo + pageBytes * i

/-- **One call** gives out the next page, or none. -/
theorem Allotted.alloc (h : Allotted lo hi m given) (hb : RegionBounds lo hi) :
    Allotted lo hi (pageAlloc m).2
      (given ++ if (pageAlloc m).1 = 0 then [] else [(pageAlloc m).1]) := by
  have hbytes : pageBytes = 4096 := rfl
  have hnext := h.next
  have hlimit := h.limit
  -- either the next page is handed out, or nothing is and nothing changes
  by_cases hroom : m.allocNext.toNat + pageBytes ≤ m.allocLimit.toNat
  · obtain ⟨hcall, hsum⟩ := pageAlloc_page hroom
    have habove := hb.above
    have hne : m.allocNext ≠ 0 := fun h0 => by
      rw [h0, UInt64.toNat_zero] at hnext
      omega
    rw [hcall, if_neg hne]
    have hlength : (given ++ [m.allocNext]).length = given.length + 1 := List.length_append
    have hmore : pageBytes * (given.length + 1) = pageBytes * given.length + pageBytes :=
      Nat.mul_succ pageBytes given.length
    have hstop := hb.stop_lt
    refine ⟨hlimit, ?_, fun _ => ?_, ?_, ?_⟩
    · rw [hsum, hlength]
      omega
    · rw [hlength]
      omega
    · rw [UInt64.toNat_add, h.used, hlength, show (4096 : UInt64).toNat = pageBytes from rfl]
      omega
    · rw [hlength, List.range_succ, List.map_append, List.map_append, h.pages, List.map_singleton,
        List.map_singleton, hnext]
  · have hlow : m.allocNext.toNat + pageBytes < 2 ^ 64 := by
      have hstart := hb.start_lt
      have hstop := hb.stop_lt
      by_cases hnone : given = []
      · rw [hnone, List.length_nil] at hnext
        omega
      · have hinside := h.inside hnone
        omega
    rw [pageAlloc_none (Nat.not_le.mp hroom) hlow, if_pos rfl, List.append_nil]
    exact h

/-- **Every run of calls.** -/
theorem Allotted.allocs (hb : RegionBounds lo hi) (n : Nat) (h : Allotted lo hi m given) :
    Allotted lo hi (afterAllocs n m) (given ++ pageAllocs n m) := by
  induction n generalizing m given with
  | zero =>
    rw [pageAllocs, List.append_nil]
    exact h
  | succ n ih =>
    rw [pageAllocs, ← List.append_assoc]
    exact ih (h.alloc hb)

/-! ## What is read off it -/

theorem Allotted.mem (h : Allotted lo hi m given) {p : UInt64} (hp : p ∈ given) :
    ∃ i < given.length, p.toNat = lo + pageBytes * i := by
  have hmem := List.mem_map_of_mem (f := UInt64.toNat) hp
  rw [h.pages] at hmem
  obtain ⟨i, hi, heq⟩ := List.mem_map.mp hmem
  exact ⟨i, List.mem_range.mp hi, heq.symm⟩

/-- The pages come in order. -/
theorem Allotted.increasing (h : Allotted lo hi m given) :
    given.Pairwise fun p q => p.toNat < q.toNat := by
  have hrange : (given.map UInt64.toNat).Pairwise (· < ·) := by
    rw [h.pages, List.pairwise_map]
    exact List.pairwise_lt_range.imp fun hlt =>
      Nat.add_lt_add_left (Nat.mul_lt_mul_of_pos_left hlt (by decide)) lo
  exact List.pairwise_map.mp hrange

theorem freeBytes_toNat (m : Memory) :
    m.freeBytes.toNat = m.allocLimit.toNat - m.allocNext.toNat := by
  rw [Memory.freeBytes]
  split
  · rename_i hle
    rw [UInt64.le_iff_toNat_le] at hle
    rw [UInt64.toNat_zero]
    omega
  · rename_i hlt
    exact UInt64.toNat_sub_of_le _ _ (UInt64.le_of_lt (UInt64.not_le.mp hlt))

/-- A page that is returned is taken off the free bytes. -/
theorem Allotted.free (h : Allotted lo hi m given) (hb : RegionBounds lo hi)
    (hne : (pageAlloc m).1 ≠ 0) :
    (pageAlloc m).2.freeBytes.toNat + pageBytes = m.freeBytes.toNat := by
  have hstep := h.alloc hb
  rw [if_neg hne] at hstep
  have hlength : (given ++ [(pageAlloc m).1]).length = given.length + 1 := List.length_append
  have hinside := hstep.inside (by simp)
  have hnext := hstep.next
  rw [hlength, Nat.mul_succ] at hinside hnext
  rw [freeBytes_toNat, freeBytes_toNat, hstep.limit, h.limit, hnext, h.next]
  omega

/-! ## The region -/

/-- The bounds of the region that `memory_init` picks. -/
theorem regionBounds {e : E820Entry} (hend : regionStop e ≤ 2 ^ 64 - 8192)
    (hlength : 0 < e.length.toNat) : RegionBounds (regionStart e) (regionStop e) := by
  refine ⟨Nat.mul_mod_left _ _, ?_, ?_, ?_⟩
  · simp only [regionStart, pageBytes]
    omega
  · simp only [regionStart, regionStop, pageBytes] at hend ⊢
    omega
  · simp only [pageBytes]
    omega

/-- The allocator as `memory_init` leaves it. -/
theorem Allotted.init (cr3 : UInt64) (phys : UInt64 → UInt8)
    (hnext : (memoryInit entries).allocNext.toNat = lo)
    (hlimit : (memoryInit entries).allocLimit.toNat = hi) :
    Allotted lo hi ((memoryInit entries).memory cr3 phys) [] :=
  ⟨hlimit, hnext, fun h => absurd rfl h, rfl, rfl⟩

/-- What the pages of `n` calls are like, and what the counters say of them. -/
structure SoundPages (m : Memory) (n : Nat) : Prop where
  aligned : ∀ p ∈ pageAllocs n m, p.toNat % 4096 = 0
  increasing : (pageAllocs n m).Pairwise fun p q => p.toNat < q.toNat
  above : ∀ p ∈ pageAllocs n m, 0x200000 ≤ p.toNat
  used : (afterAllocs n m).usedBytes.toNat = 4096 * (pageAllocs n m).length
  free : (pageAlloc (afterAllocs n m)).1 ≠ 0 →
    (pageAlloc (afterAllocs n m)).2.freeBytes.toNat + 4096 = (afterAllocs n m).freeBytes.toNat

/-- They all lie in one entry of the map, and take no more than its length. -/
structure TakenFrom (e : E820Entry) (m : Memory) (n : Nat) : Prop where
  type : e.type = 1
  base : 0x100000 ≤ e.base.toNat
  inside : ∀ p ∈ pageAllocs n m,
    e.base.toNat ≤ p.toNat ∧ p.toNat + 4096 ≤ e.base.toNat + e.length.toNat
  used : (afterAllocs n m).usedBytes.toNat ≤ e.length.toNat

theorem Allotted.sound (h : Allotted lo hi m []) (hb : RegionBounds lo hi) (n : Nat) :
    SoundPages m n := by
  have hrun := h.allocs hb n
  rw [List.nil_append] at hrun
  have haligned := hb.aligned
  have habove := hb.above
  refine ⟨fun p hp => ?_, hrun.increasing, fun p hp => ?_, hrun.used, hrun.free hb⟩
  · obtain ⟨i, -, hi⟩ := hrun.mem hp
    rw [hi, pageBytes, Nat.add_mul_mod_self_left]
    exact haligned
  · obtain ⟨i, -, hi⟩ := hrun.mem hp
    omega

theorem Allotted.takenFrom {e : E820Entry} (h : Allotted (regionStart e) (regionStop e) m [])
    (hb : RegionBounds (regionStart e) (regionStop e)) (husable : usableEntry e = true) (n : Nat) :
    TakenFrom e m n := by
  have hrun := h.allocs hb n
  rw [List.nil_append] at hrun
  simp only [usableEntry, Bool.and_eq_true, beq_iff_eq, decide_eq_true_eq] at husable
  have hstart : e.base.toNat ≤ regionStart e := by
    simp only [regionStart, pageBytes]
    omega
  have hstop : regionStop e = e.base.toNat + e.length.toNat := rfl
  refine ⟨husable.1.1, UInt64.le_iff_toNat_le.mp husable.1.2, fun p hp => ?_, ?_⟩
  · obtain ⟨i, hi, heq⟩ := hrun.mem hp
    have hlast := hrun.inside (List.ne_nil_of_mem hp)
    have hbelow : pageBytes * (i + 1) ≤ pageBytes * (pageAllocs n m).length :=
      Nat.mul_le_mul_left pageBytes hi
    rw [Nat.mul_succ] at hbelow
    simp only [pageBytes] at *
    omega
  · rw [hrun.used]
    by_cases hnone : pageAllocs n m = []
    · rw [hnone]
      exact Nat.zero_le _
    · have hlast := hrun.inside hnone
      omega

/-- **The page allocator is sound** for every map whose entries stay clear of the end of the
    address space.

    `hend` keeps every entry two pages away from 2⁶⁴, so that neither the end of the region nor the
    next page of the allocator goes round. Nothing else is asked of the map: entries may overlap, be
    empty or be of any type. `cr3` and `phys` are the rest of the memory, which the allocator does
    not look at. -/
theorem page_alloc_sound (entries : List E820Entry)
    (hend : ∀ e ∈ entries, e.base.toNat + e.length.toNat ≤ 2 ^ 64 - 8192)
    (cr3 : UInt64) (phys : UInt64 → UInt8) :
    let m := (memoryInit entries).memory cr3 phys
    (∀ n, SoundPages m n) ∧
      ((∀ n, pageAllocs n m = []) ∨ ∃ e ∈ entries, ∀ n, TakenFrom e m n) := by
  intro m
  cases hchosen : chosenRegion entries with
  | none =>
    obtain ⟨hnext, hlimit⟩ := memoryInit_none hchosen
    have hstart : Allotted 0x200000 0 m [] :=
      Allotted.init cr3 phys (by rw [hnext]; rfl) (by rw [hlimit]; rfl)
    refine ⟨hstart.sound ⟨by decide, by decide, by decide, by decide⟩, Or.inl ?_⟩
    exact pageAllocs_nil (by rw [hstart.limit]; exact Nat.zero_lt_succ _)
      (by rw [hstart.next]; decide)
  | some e =>
    obtain ⟨hmem, husable⟩ := chosenRegion_mem hchosen
    have hfits := hend e hmem
    have hpos : 0 < e.length.toNat := by
      have hne : e.length ≠ 0 := by simp [usableEntry] at husable; exact husable.2
      exact Nat.pos_of_ne_zero fun h0 => hne (UInt64.toNat_inj.mp h0)
    have hb := regionBounds hfits hpos
    have hlo := hb.start_lt
    obtain ⟨hnext, hlimit⟩ := memoryInit_some hchosen (by rw [regionStop]; omega)
    rw [Nat.mod_eq_of_lt (Nat.lt_of_lt_of_le (Nat.lt_add_of_pos_right (by decide)) hlo)] at hnext
    have hstart : Allotted (regionStart e) (regionStop e) m [] := Allotted.init cr3 phys hnext hlimit
    exact ⟨hstart.sound hb, Or.inr ⟨e, hmem, hstart.takenFrom hb husable⟩⟩

/-- A map with a short region in front of a long one that starts off a page. -/
theorem page_alloc_sound_sample :
    let m := (memoryInit [⟨0x100000, 0x1000, 1⟩, ⟨0x300800, 0x3000, 1⟩]).memory 0x9000 fun _ => 0
    SoundPages m 3 ∧ pageAllocs 3 m = [0x301000, 0x302000] := by
  intro m
  exact ⟨(page_alloc_sound _ (by decide) 0x9000 fun _ => 0).1 3, by decide +kernel⟩

end Proof
end BumbelBee
