import BumbelBee.Kernel.ElfReads
import BumbelBee.Kernel.ExecImage
import BumbelBee.Lib.Lowest
import BumbelBee.Proof.Loading

/-!
# What `elf_parse_image` makes of the program headers

One comparison guards the two loops over the program headers: the end of the table, a sum of
64 bits, against the size of the image. `elf_reads_within` says for which images it is enough.
The lower end of the segments is kept in a variable that is 0 as long as there is none:
`elf_summary_iff` says for which headers the summary is right all the same.

Zero is a valid address and also the mark for none found yet. A first segment at zero is forgotten
as soon as a second one comes, whatever that one's address is. `ZeroLast` is the case in which this
does no harm, and it has to be stated with some care, for the summary has several fields and only
some of them go wrong.
-/

namespace BumbelBee
namespace Proof

open Lib Kernel

variable {mem : ImageMem} {size phoff : UInt64} {phnum : UInt16}

/-! ## The condition -/

/-- The checks that come before the one on the table. -/
structure HeaderAccepted (mem : ImageMem) (size : UInt64) : Prop where
  size : sizeofEhdr ≤ size
  ident : ∀ e ∈ elfIdent, mem e.1 = e.2
  machine : mem.field 18 2 = elfMachineX8664
  phentsize : mem.field 54 2 = sizeofPhdr

/-- The end of the table, where it would be without a carry. -/
def tableEnd (mem : ImageMem) : Nat :=
  (mem.field 32 8).toNat + 56 * (mem.field 56 2).toUInt16.toNat

/-- A table that ends past the address space and seems to end inside the image. -/
structure TableWraps (mem : ImageMem) (size : UInt64) : Prop where
  header : HeaderAccepted mem size
  wraps : 2 ^ 64 ≤ tableEnd mem
  passes : tableEnd mem - 2 ^ 64 ≤ size.toNat

/-! ## One field -/

/-- A field that ends inside is inside. -/
theorem within_readField {offset : UInt64} {n : Nat} (h : offset.toNat + n ≤ size.toNat) :
    Reads.Within (· < size) (readField mem offset n) := by
  intro at_ hread
  obtain ⟨i, hi, rfl⟩ := List.mem_map.mp hread
  rw [List.mem_range] at hi
  have hsize := UInt64.toNat_lt size
  rw [UInt64.lt_iff_toNat_lt, UInt64.toNat_add, UInt64.toNat_ofNat_of_lt' (by
    simp only [UInt64.size]; omega)]
  omega

/-- The identification lies in front of the first 64 bytes. -/
theorem within_readIdent (hsize : sizeofEhdr ≤ size) {bytes : List (UInt64 × UInt8)}
    (h : ∀ e ∈ bytes, e.1 < sizeofEhdr) : Reads.Within (· < size) (readIdent mem bytes) := by
  induction bytes with
  | nil => exact Reads.within_pure true
  | cons e rest ih =>
    refine Reads.within_bind.mpr ⟨fun i hi => ?_, Reads.within_ite
      (fun _ => Reads.within_pure false)
      fun _ => ih fun e' he' => h e' (List.mem_cons_of_mem e he')⟩
    rw [List.mem_singleton.mp hi]
    exact UInt64.lt_of_lt_of_le (h e List.mem_cons_self) hsize

/-! ## One header -/

/-- The header a round looks at ends inside. -/
structure HeaderInside (size phoff : UInt64) (i : Nat) : Prop where
  inside : phoff.toNat + 56 * i + 56 ≤ size.toNat

theorem phdrOffset_toNat {i : Nat} (h : phoff.toNat + 56 * i < 2 ^ 64) :
    (phdrOffset phoff i).toNat = phoff.toNat + 56 * i := by
  have hi : (UInt64.ofNat i).toNat = i :=
    UInt64.toNat_ofNat_of_lt' (by simp only [UInt64.size]; omega)
  have h56 : sizeofPhdr.toNat = 56 := rfl
  rw [phdrOffset, UInt64.toNat_add, UInt64.toNat_mul, hi, h56]
  omega

/-- **A field of the header.** -/
theorem HeaderInside.field {i n : Nat} {k : UInt64} (h : HeaderInside size phoff i)
    (hk : k.toNat + n ≤ 56) :
    Reads.Within (· < size) (readField mem (phdrOffset phoff i + k) n) := by
  have hsize := UInt64.toNat_lt size
  have hinside := h.inside
  have hoffset : (phdrOffset phoff i).toNat = phoff.toNat + 56 * i := phdrOffset_toNat (by omega)
  refine within_readField ?_
  rw [UInt64.toNat_add, hoffset]
  omega

theorem HeaderInside.type {i : Nat} (h : HeaderInside size phoff i) :
    Reads.Within (· < size) (readField mem (phdrOffset phoff i) 4) := by
  have htype : Reads.Within (· < size) (readField mem (phdrOffset phoff i + 0) 4) :=
    h.field (by decide)
  rwa [UInt64.add_zero] at htype

theorem HeaderInside.place {i : Nat} (h : HeaderInside size phoff i) :
    Reads.Within (· < size) (readPlace mem (phdrOffset phoff i)) :=
  Reads.within_bind.mpr ⟨h.field (by decide), Reads.within_bind.mpr ⟨h.field (by decide),
    Reads.within_bind.mpr ⟨h.field (by decide), Reads.within_pure _⟩⟩⟩

theorem HeaderInside.extent {i : Nat} (h : HeaderInside size phoff i)
    (extent : UInt64 × UInt64) :
    Reads.Within (· < size) (readExtent mem phoff extent i) := by
  refine Reads.within_bind.mpr ⟨h.type, Reads.within_ite (fun _ => Reads.within_pure _) fun _ => ?_⟩
  refine Reads.within_bind.mpr ⟨h.field (by decide), Reads.within_bind.mpr ⟨?_,
    Reads.within_bind.mpr ⟨h.field (by decide), Reads.within_pure _⟩⟩⟩
  exact Reads.within_ite
    (fun _ => Reads.within_bind.mpr ⟨h.place, Reads.within_pure _⟩) fun _ => Reads.within_pure _

theorem within_readLoad {is : List Nat} (h : ∀ i ∈ is, HeaderInside size phoff i)
    (firstVaddr : UInt64) : Reads.Within (· < size) (readLoad mem phoff firstVaddr is) := by
  induction is with
  | nil => exact Reads.within_pure _
  | cons i rest ih =>
    have hhere := h i List.mem_cons_self
    have hrest := ih fun j hj => h j (List.mem_cons_of_mem i hj)
    refine Reads.within_bind.mpr ⟨hhere.type, Reads.within_ite (fun _ => hrest) fun _ => ?_⟩
    exact Reads.within_bind.mpr ⟨hhere.field (by decide),
      Reads.within_ite (fun _ => hrest) fun _ => hhere.place⟩

/-! ## The whole image -/

/-- **A table that lies inside is read inside**, as is the header in front of it. -/
theorem within_readSegments (hsize : sizeofEhdr ≤ size)
    (hend : phoff.toNat + 56 * phnum.toNat ≤ size.toNat) :
    Reads.Within (· < size) (readSegments mem phoff phnum) := by
  have h64 : 64 ≤ size.toNat := UInt64.le_iff_toNat_le.mp hsize
  have hinside : ∀ i ∈ List.range phnum.toNat, HeaderInside size phoff i := fun i hi =>
    ⟨by rw [List.mem_range] at hi; omega⟩
  have hfield : ∀ (k : UInt64) (n : Nat), k.toNat + n ≤ 64 →
      Reads.Within (· < size) (readField mem k n) := fun k n h => within_readField (by omega)
  refine Reads.within_bind.mpr ⟨Reads.within_foldlM (fun i hi a => (hinside i hi).extent a) _, ?_⟩
  refine Reads.within_bind.mpr ⟨hfield 16 2 (by decide), Reads.within_bind.mpr
    ⟨hfield 18 2 (by decide), Reads.within_bind.mpr ⟨hfield 24 8 (by decide), ?_⟩⟩⟩
  refine Reads.within_bind.mpr ⟨within_readLoad (fun i hi => hinside i ?_) _, Reads.within_pure _⟩
  split at hi
  · exact absurd hi List.not_mem_nil
  · exact hi

/-- The sum the code compares. -/
theorem tableSum_toNat : (mem.field 32 8 + (mem.field 56 2).toUInt16.toUInt64 * sizeofPhdr).toNat =
    tableEnd mem % 2 ^ 64 := by
  have h56 : sizeofPhdr.toNat = 56 := rfl
  rw [UInt64.toNat_add, UInt64.toNat_mul, UInt16.toNat_toUInt64, h56, tableEnd]
  omega

theorem readIdent_accepts : (readIdent mem elfIdent).value = true ↔
    ∀ e ∈ elfIdent, mem e.1 = e.2 := by
  rw [readIdent_value, List.all_eq_true]
  exact forall₂_congr fun e _ => beq_iff_eq

/-- Every check is passed within the first 64 bytes; what is left are the loops. -/
theorem within_elfParseReads
    (h : HeaderAccepted mem size → tableEnd mem % 2 ^ 64 ≤ size.toNat →
      Reads.Within (· < size) (readSegments mem (mem.field 32 8) (mem.field 56 2).toUInt16)) :
    Reads.Within (· < size) (elfParseReads mem size) := by
  refine Reads.within_ite (fun _ => Reads.within_pure _) fun hsize => ?_
  have h64 : 64 ≤ size.toNat := UInt64.le_iff_toNat_le.mp (UInt64.not_lt.mp hsize)
  have hfield : ∀ (k : UInt64) (n : Nat), k.toNat + n ≤ 64 →
      Reads.Within (· < size) (readField mem k n) := fun k n h => within_readField (by omega)
  have hfirst : ∀ e ∈ elfIdent, e.1 < sizeofEhdr := by
    simp only [elfIdent, List.forall_mem_cons, List.not_mem_nil, false_implies, implies_true]
    decide
  refine Reads.within_bind.mpr ⟨within_readIdent (UInt64.not_lt.mp hsize) hfirst, ?_⟩
  refine Reads.within_ite (fun _ => Reads.within_pure _) fun hident => ?_
  refine Reads.within_bind.mpr ⟨hfield 18 2 (by decide), ?_⟩
  refine Reads.within_ite (fun _ => Reads.within_pure _) fun hmachine => ?_
  refine Reads.within_bind.mpr ⟨hfield 54 2 (by decide), ?_⟩
  refine Reads.within_ite (fun _ => Reads.within_pure _) fun hphentsize => ?_
  refine Reads.within_bind.mpr ⟨hfield 32 8 (by decide), ?_⟩
  refine Reads.within_bind.mpr ⟨hfield 56 2 (by decide), ?_⟩
  refine Reads.within_ite (fun _ => Reads.within_pure _) fun hpasses => ?_
  refine Reads.within_bind.mpr ⟨h ⟨UInt64.not_lt.mp hsize, ?_, not_not.mp hmachine,
    not_not.mp hphentsize⟩ ?_, Reads.within_pure _⟩
  · exact readIdent_accepts.mp (Bool.of_not_eq_false hident)
  · rw [← tableSum_toNat]
    exact UInt64.le_iff_toNat_le.mp (UInt64.not_lt.mp hpasses)

/-- An image that passes the checks is read by the loops. -/
theorem HeaderAccepted.segments {P : UInt64 → Prop} (h : HeaderAccepted mem size)
    (hpasses : tableEnd mem % 2 ^ 64 ≤ size.toNat)
    (hreads : Reads.Within P (elfParseReads mem size)) :
    Reads.Within P (readSegments mem (mem.field 32 8) (mem.field 56 2).toUInt16) := by
  rw [← tableSum_toNat] at hpasses
  rw [elfParseReads, if_neg (UInt64.not_lt.mpr h.size)] at hreads
  have hident := (Reads.within_bind.mp hreads).2
  rw [if_neg (by rw [readIdent_accepts.mpr h.ident]; decide)] at hident
  have hmachine := (Reads.within_bind.mp hident).2
  rw [readField_value, if_neg (not_not.mpr h.machine)] at hmachine
  have hphentsize := (Reads.within_bind.mp hmachine).2
  rw [readField_value, if_neg (not_not.mpr h.phentsize)] at hphentsize
  have htable := (Reads.within_bind.mp (Reads.within_bind.mp hphentsize).2).2
  rw [readField_value, readField_value,
    if_neg (UInt64.not_lt.mpr (UInt64.le_iff_toNat_le.mpr hpasses))] at htable
  exact (Reads.within_bind.mp htable).1

/-- The first header's first byte is read whenever there is a header. -/
theorem readSegments_first (hphnum : 0 < phnum.toNat)
    (h : Reads.Within (· < size) (readSegments mem phoff phnum)) : phoff < size := by
  obtain ⟨n, hn⟩ := Nat.exists_eq_succ_of_ne_zero (Nat.pos_iff_ne_zero.mp hphnum)
  have hround := (Reads.within_bind.mp h).1
  rw [hn, List.range_succ_eq_map, List.foldlM_cons] at hround
  have htype := (Reads.within_bind.mp (Reads.within_bind.mp hround).1).1
  have hfirst := htype (phdrOffset phoff 0 + UInt64.ofNat 0)
    (List.mem_map_of_mem (List.mem_range.mpr (by decide)))
  simpa [phdrOffset] using hfirst

/-- **The reads stay inside unless the end of the table wraps**, and where the image leaves room
    for a table behind it they leave the image when it does.

    `mem` is any image with any bytes and `size` what the caller says of it; the reads are logged in
    the order they are made. The converse needs room for a table behind the image: 65535 headers of
    56 bytes, without which a table that wraps may end where it began. -/
theorem elf_reads_within (mem : ImageMem) (size : UInt64) :
    (¬ TableWraps mem size → Reads.Within (· < size) (elfParseReads mem size)) ∧
    (size.toNat + 56 * 65535 ≤ 2 ^ 64 →
      Reads.Within (· < size) (elfParseReads mem size) → ¬ TableWraps mem size) := by
  have hoffset := UInt64.toNat_lt (mem.field 32 8)
  have hphnum := UInt16.toNat_lt (mem.field 56 2).toUInt16
  have hend : tableEnd mem = (mem.field 32 8).toNat + 56 * (mem.field 56 2).toUInt16.toNat := rfl
  refine ⟨fun hwraps => within_elfParseReads fun hheader hpasses =>
    within_readSegments hheader.size ?_, fun hroom hreads hwraps => ?_⟩
  · by_cases hcarry : 2 ^ 64 ≤ tableEnd mem
    · exact absurd ⟨hheader, hcarry, by omega⟩ hwraps
    · omega
  · have hwrap := hwraps.wraps
    have hpasses := hwraps.passes
    have hcarry : tableEnd mem % 2 ^ 64 ≤ size.toNat := by omega
    have hsome : 0 < (mem.field 56 2).toUInt16.toNat := by omega
    have hsegments := hwraps.header.segments hcarry hreads
    have hfirst : mem.field 32 8 < size := readSegments_first hsome hsegments
    rw [UInt64.lt_iff_toNat_lt] at hfirst
    omega

/-- An image of 64 bytes whose one program header seems to end where the image starts. -/
def wrappingImage : List UInt8 :=
  encodeEhdr { execEhdr 0 with phoff := 0xffffffffffffffc8 }

theorem elf_reads_outside :
    ¬ ∀ (image : List UInt8) (around : ImageMem), image.length < 2 ^ 64 →
      Reads.Within (· < UInt64.ofNat image.length)
        (elfParseReads (imageMem image around) (UInt64.ofNat image.length)) := by
  intro h
  have hreads := h wrappingImage (fun _ => 0) (by decide)
  refine absurd (hreads 0xffffffffffffffc8 ?_) (by decide)
  decide

/-! ## The summary -/

/-- The headers of the segments to load, in the table's order. -/
def loadHeaders (mem : ImageMem) : List ElfPhdr := (imagePhdrs mem).filter fun p => p.type == 1

/-- The extent of the segments, and the first one that starts lowest. -/
structure SumsUp (loads : List ElfPhdr) (info : ElfInfo) : Prop where
  first : IsLeast {v | v ∈ loads.map fun p => p.vaddr.toNat} info.firstVaddr.toNat
  last : IsGreatest {v | v ∈ loads.map fun p => p.vaddr.toNat + p.memsz.toNat}
    info.lastVaddr.toNat
  load : ∃ p, (loads.find? fun p => p.vaddr == info.firstVaddr) = some p ∧
    info.loadOffset = p.offset ∧ info.loadFilesz = p.filesz ∧ info.loadMemsz = p.memsz

/-- Segments at address 0 that leave the summary right: the last one is there, and the first
    one that is has nothing to say of its place. -/
structure ZeroLast (loads : List ElfPhdr) : Prop where
  last : ∃ p, loads.getLast? = some p ∧ p.vaddr = 0
  blank : ∃ p, (loads.find? fun p => p.vaddr == 0) = some p ∧
    p.offset = 0 ∧ p.filesz = 0 ∧ p.memsz = 0

/-- What one segment does to the extent. -/
def widen (extent : UInt64 × UInt64) (p : ElfPhdr) : UInt64 × UInt64 :=
  (if extent.1 = 0 ∨ p.vaddr < extent.1 then p.vaddr else extent.1,
    if p.vaddr + p.memsz > extent.2 then p.vaddr + p.memsz else extent.2)

/-- Headers of another type are passed over. -/
theorem elfExtent_imagePhdrs (mem : ImageMem) :
    elfExtent (imagePhdrs mem) = (loadHeaders mem).foldl widen (0, 0) := by
  rw [loadHeaders, List.foldl_filter, elfExtent]
  congr 1
  funext extent p
  by_cases htype : p.type = 1
  · simp [htype, widen]
  · simp [htype]

/-- **The lower end.** -/
theorem widen_first (loads : List ElfPhdr) : (loads.foldl widen (0, 0)).1.toNat =
    lowest 0 (loads.map fun p => p.vaddr.toNat) := by
  induction loads using List.reverseRecOn with
  | nil => rfl
  | append_singleton loads p ih =>
    rw [List.foldl_concat, List.map_append, List.map_singleton, lowest_concat, ← ih, widen,
      apply_ite UInt64.toNat]
    exact if_congr (or_congr UInt64.toNat_inj.symm UInt64.lt_iff_toNat_lt) rfl rfl

/-- **The upper end**, when no segment wraps. -/
theorem widen_last {loads : List ElfPhdr}
    (h : ∀ p ∈ loads, p.vaddr.toNat + p.memsz.toNat < 2 ^ 64) :
    (loads.foldl widen (0, 0)).2.toNat =
      highest 0 (loads.map fun p => p.vaddr.toNat + p.memsz.toNat) := by
  induction loads using List.reverseRecOn with
  | nil => rfl
  | append_singleton loads p ih =>
    have hsum : (p.vaddr + p.memsz).toNat = p.vaddr.toNat + p.memsz.toNat := by
      rw [UInt64.toNat_add]
      exact Nat.mod_eq_of_lt (h p (by simp))
    rw [List.foldl_concat, List.map_append, List.map_singleton, highest_concat,
      ← ih fun q hq => h q (List.mem_append_left [p] hq), widen, apply_ite UInt64.toNat, hsum]
    refine if_congr ?_ rfl rfl
    rw [gt_iff_lt, UInt64.lt_iff_toNat_lt, hsum]

/-- The segment the summary is taken from, among those to load. -/
theorem loadHeader_eq (mem : ImageMem) (hset : (elfExtent (imagePhdrs mem)).1 ≠ 0) :
    loadHeader mem =
      (loadHeaders mem).find? fun p => p.vaddr == (elfExtent (imagePhdrs mem)).1 := by
  rw [loadHeader, if_neg hset, loadHeaders, List.find?_filter]
  congr 1
  funext p
  rw [Bool.decide_and, Bool.decide_eq_true, Bool.decide_eq_true]

theorem vaddr_zero {p : ElfPhdr} : p.vaddr.toNat = 0 ↔ p.vaddr = 0 :=
  UInt64.toNat_inj (b := 0)

/-- The lower end is right when no segment starts at 0, or the last one does. -/
theorem first_isLeast_iff {loads : List ElfPhdr} (hne : loads ≠ []) :
    IsLeast {v | v ∈ loads.map fun p => p.vaddr.toNat} (loads.foldl widen (0, 0)).1.toNat ↔
      (∀ p ∈ loads, p.vaddr ≠ 0) ∨ ∃ p, loads.getLast? = some p ∧ p.vaddr = 0 := by
  rw [widen_first, lowest_isLeast_iff Nat.zero_le (by simpa using hne), List.getLast?_map,
    Option.map_eq_some_iff]
  refine or_congr ?_ (exists_congr fun p => and_congr_right fun _ => vaddr_zero)
  rw [List.mem_map, not_exists]
  exact forall_congr' fun p => not_and.trans (imp_congr_right fun _ => not_congr vaddr_zero)

/-- With a segment at 0, that is the lower end. -/
theorem first_eq_zero {loads : List ElfPhdr} {firstVaddr : UInt64} {p : ElfPhdr}
    (h : IsLeast {v | v ∈ loads.map fun p => p.vaddr.toNat} firstVaddr.toNat) (hp : p ∈ loads)
    (hzero : p.vaddr = 0) : firstVaddr = 0 := by
  have hle := h.2 (List.mem_map_of_mem hp)
  rw [hzero] at hle
  exact UInt64.toNat_inj.mp (Nat.le_zero.mp hle)

/-- **When the summary is right.**

    `haccept` says that the image is accepted. `hloads` keeps the end of each segment from going
    round, which is what the summary is about, and `hne` that there is a segment at all. On the
    right are the headers alone. -/
theorem elf_summary_iff {mem : ImageMem} {size : UInt64} {info : ElfInfo}
    (haccept : elfParseImage mem size = some info)
    (hloads : ∀ p ∈ loadHeaders mem, p.vaddr.toNat + p.memsz.toNat < 2 ^ 64)
    (hne : loadHeaders mem ≠ []) :
    SumsUp (loadHeaders mem) info ↔
      (∀ p ∈ loadHeaders mem, p.vaddr ≠ 0) ∨ ZeroLast (loadHeaders mem) := by
  obtain ⟨hfirst, hlast, hoffset, hfilesz, hmemsz⟩ := elfParseImage_some haccept
  have hgreatest : IsGreatest
      {v | v ∈ (loadHeaders mem).map fun p => p.vaddr.toNat + p.memsz.toNat}
      info.lastVaddr.toNat := by
    rw [hlast, elfExtent_imagePhdrs, widen_last hloads]
    exact highest_isGreatest Nat.zero_le (by simpa using hne)
  have hleast := first_isLeast_iff hne
  rw [← elfExtent_imagePhdrs, ← hfirst] at hleast
  -- with the lower end at 0 the second loop is left out
  have hskipped : info.firstVaddr = 0 →
      info.loadOffset = 0 ∧ info.loadFilesz = 0 ∧ info.loadMemsz = 0 := by
    intro hzero
    have hnone : loadHeader mem = none := by rw [loadHeader, if_pos (hfirst ▸ hzero)]
    rw [hoffset, hfilesz, hmemsz, hnone]
    exact ⟨rfl, rfl, rfl⟩
  constructor
  · intro h
    rcases hleast.mp h.first with hnot | ⟨p, hp, hzero⟩
    · exact Or.inl hnot
    · have hstart := first_eq_zero h.first (List.mem_of_getLast? hp) hzero
      obtain ⟨q, hq, hplace⟩ := h.load
      obtain ⟨h1, h2, h3⟩ := hskipped hstart
      rw [hstart] at hq
      rw [h1, h2, h3] at hplace
      exact Or.inr ⟨⟨p, hp, hzero⟩, q, hq, hplace.1.symm, hplace.2.1.symm, hplace.2.2.symm⟩
  · rintro (hnot | hzero)
    · have hfirst_least := hleast.mpr (Or.inl hnot)
      obtain ⟨p, hp, hpfirst⟩ := List.mem_map.mp hfirst_least.1
      have hset : (elfExtent (imagePhdrs mem)).1 ≠ 0 := by
        rw [← hfirst, ← UInt64.toNat_inj.mp hpfirst]
        exact hnot p hp
      have hpick : (p.vaddr == info.firstVaddr) = true :=
        beq_iff_eq.mpr (UInt64.toNat_inj.mp hpfirst)
      obtain ⟨q, hq⟩ := Option.isSome_iff_exists.mp (List.find?_isSome (p := fun p =>
        p.vaddr == info.firstVaddr).mpr ⟨p, hp, hpick⟩)
      have hheader : loadHeader mem = some q := by rw [loadHeader_eq mem hset, ← hfirst, hq]
      rw [hheader] at hoffset hfilesz hmemsz
      exact ⟨hfirst_least, hgreatest, q, hq, hoffset, hfilesz, hmemsz⟩
    · have hfirst_least := hleast.mpr (Or.inr hzero.last)
      obtain ⟨q, hq, h1, h2, h3⟩ := hzero.blank
      obtain ⟨p, hp, hpzero⟩ := hzero.last
      have hstart := first_eq_zero hfirst_least (List.mem_of_getLast? hp) hpzero
      obtain ⟨h4, h5, h6⟩ := hskipped hstart
      exact ⟨hfirst_least, hgreatest, q, by rw [hstart, hq], h4.trans h1.symm, h5.trans h2.symm,
        h6.trans h3.symm⟩

/-- An image of two segments of one byte each. -/
def twoSegments (first second : UInt64) : ImageMem :=
  imageMem (encodeEhdr { execEhdr 0 with phnum := 2 } ++ encodePhdr (execPhdr first 1) ++
    encodePhdr (execPhdr second 1)) fun _ => 0

/-- What the parser says of it. -/
def twoSegmentsInfo (firstVaddr lastVaddr : UInt64) : ElfInfo where
  type := 2
  machine := 62
  phnum := 2
  entry := 0
  firstVaddr := firstVaddr
  lastVaddr := lastVaddr
  loadOffset := 0
  loadFilesz := 1
  loadMemsz := 1

/-- The higher segment first. -/
theorem elf_summary_two : SumsUp (loadHeaders (twoSegments 5 3)) (twoSegmentsInfo 3 6) :=
  (@elf_summary_iff _ 176 _ (by decide +kernel) (by decide +kernel) (by decide +kernel)).mpr
    (Or.inl (by decide +kernel))

/-- A segment at address 0 is forgotten for the one behind it. -/
theorem elf_summary_forgets_zero :
    ¬ ∀ (mem : ImageMem) (size : UInt64) (info : ElfInfo), elfParseImage mem size = some info →
      tableEnd mem ≤ size.toNat →
      (∀ p ∈ loadHeaders mem, p.vaddr.toNat + p.memsz.toNat < 2 ^ 64) →
      loadHeaders mem ≠ [] → SumsUp (loadHeaders mem) info := by
  intro h
  have hsum := h (twoSegments 0 5) 176 (twoSegmentsInfo 5 6) (by decide +kernel)
    (by decide +kernel) (by decide +kernel) (by decide +kernel)
  obtain ⟨p, hp, hzero⟩ : ∃ p ∈ loadHeaders (twoSegments 0 5), p.vaddr = 0 := by decide +kernel
  have hfirst : (5 : UInt64) = 0 := first_eq_zero hsum.first hp hzero
  exact absurd hfirst (by decide)

end Proof
end BumbelBee
