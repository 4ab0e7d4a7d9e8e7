import BumbelBee.Kernel.Processes
import BumbelBee.Proof.Durable
import BumbelBee.Proof.Spaces

/-!
# What a ring-3 program finds in its window

`elf_parse_image` sums up the program headers in one segment, the one that starts lowest, and
`builtin_exec_run_sync` copies as many bytes as that asks for from behind the image, without a
look at the image's size. `loaded_window` says what the window holds when the load has worked,
and `run_sync_loads_iff` for which files that is what the headers ask for.

Two copies on the way have no bound. `fs_read_exec_file` fills `u8 image[256]` sector by sector with
no look at its size, so a file of more than 256 bytes goes over the frame of
`builtin_exec_run_sync`; and the load takes the segment's size from the headers, so a segment that
says more than the file holds is filled with what lies behind the image on the stack. The first is
an `Overrun` of the model and the second a read of `imageMem`, which is the image with the frame
behind it.
-/

namespace BumbelBee
namespace Proof

open Lib Kernel

variable {use : UInt64 → Option PageUse} {i : Fin aspaceMax} {a : AspaceSlot} {s : Aspaces}
  {root : KernelRoot} {file : List UInt8} {mem frame : ImageMem}

/-! ## What the headers ask for

An ELF file asks for bytes at addresses: those of the file up to the end of the file's part, and
zeroes from there to the end of the segment. The page's rest is nobody's. The stack's range is left
out, since it is cleared behind the load.
-/

/-- The program headers of an image. -/
def imagePhdrs (mem : ImageMem) : List ElfPhdr :=
  (List.range (mem.field 56 2).toUInt16.toNat).map (mem.phdr (mem.field 32 8))

/-- The header that `elf_parse_image` picks: the first of those that start lowest. -/
def loadHeader (mem : ImageMem) : Option ElfPhdr :=
  let firstVaddr := (elfExtent (imagePhdrs mem)).1
  if firstVaddr = 0 then none
  else (imagePhdrs mem).find? fun p => p.type == 1 && p.vaddr == firstVaddr

/-- The byte a header asks for at an address: one of the file's, or zero. -/
def askedByte (file : List UInt8) (p : ElfPhdr) (u : Nat) : Option UInt8 :=
  if p.vaddr.toNat ≤ u ∧ u < p.vaddr.toNat + p.filesz.toNat then
    some (file.getD (p.offset.toNat + (u - p.vaddr.toNat)) 0)
  else if p.vaddr.toNat ≤ u ∧ u < p.vaddr.toNat + p.memsz.toNat then some 0
  else none

/-- The stack, which is cleared last. -/
def InStack (u : Nat) : Prop := 0x401fc000 ≤ u ∧ u < 0x40200000

instance (u : Nat) : Decidable (InStack u) := inferInstanceAs (Decidable (_ ∧ _))

/-- The window holds what every `PT_LOAD` header asks for, and that is in the file. -/
structure LoadedFaithfully (file : List UInt8) (mem : ImageMem) (w : Nat → Option UInt8) : Prop where
  inside : ∀ p ∈ imagePhdrs mem, p.type = 1 → p.offset.toNat + p.filesz.toNat ≤ file.length
  bytes : ∀ p ∈ imagePhdrs mem, p.type = 1 → ∀ u b, ¬ InStack u → askedByte file p u = some b →
    w u = some b

/-- What the picked segment brings, with zeroes up to the ends of its pages. -/
def filledByte (file : List UInt8) (load : Option ElfPhdr) (before : Nat → Option UInt8) (u : Nat) :
    Option UInt8 :=
  match load with
  | none => before u
  | some p => (askedByte file p u).or
      (if Touches pageBytes p.vaddr.toNat (max p.filesz.toNat p.memsz.toNat) u then
        some ((before u).getD 0) else before u)

/-- The picked segment is all there is to load. -/
structure LoadsWhole (file : List UInt8) (mem : ImageMem) (before : Nat → Option UInt8) : Prop where
  inside : ∀ p ∈ imagePhdrs mem, p.type = 1 → p.offset.toNat + p.filesz.toNat ≤ file.length
  length : ∀ p, loadHeader mem = some p → p.memsz.toNat < p.filesz.toNat + 2 ^ 32
  others : ∀ p ∈ imagePhdrs mem, p.type = 1 → loadHeader mem ≠ some p → ∀ u b, ¬ InStack u →
    askedByte file p u = some b → filledByte file (loadHeader mem) before u = some b

theorem loadHeader_mem {p : ElfPhdr} (h : loadHeader mem = some p) :
    p ∈ imagePhdrs mem ∧ p.type = 1 ∧ p.vaddr = (elfExtent (imagePhdrs mem)).1 := by
  rw [loadHeader] at h
  split at h
  · exact absurd h (by simp)
  · have hfound := List.find?_some h
    rw [Bool.and_eq_true, beq_iff_eq, beq_iff_eq] at hfound
    exact ⟨List.mem_of_find?_eq_some h, hfound.1, hfound.2⟩

/-- What `elf_parse_image` says of an image it accepts. -/
theorem elfParseImage_some {size : UInt64} {info : ElfInfo} (h : elfParseImage mem size = some info) :
    info.firstVaddr = (elfExtent (imagePhdrs mem)).1 ∧
      info.lastVaddr = (elfExtent (imagePhdrs mem)).2 ∧
      info.loadOffset = ((loadHeader mem).map ElfPhdr.offset).getD 0 ∧
      info.loadFilesz = ((loadHeader mem).map ElfPhdr.filesz).getD 0 ∧
      info.loadMemsz = ((loadHeader mem).map ElfPhdr.memsz).getD 0 := by
  rw [elfParseImage] at h
  simp only at h
  split at h
  · exact absurd h (by simp)
  split at h
  · exact absurd h (by simp)
  split at h
  · exact absurd h (by simp)
  split at h
  · exact absurd h (by simp)
  split at h
  · exact absurd h (by simp)
  rw [Option.some.injEq] at h
  rw [← h]
  exact ⟨rfl, rfl, rfl, rfl, rfl⟩

/-! ## The segment

Three writes make up a load: the file's part, the zeroes up to the end of a page, and the stack.
Each may fail for want of pages, and then the program is not run; what is said is of a load in which
all three worked.
-/

theorem imageMem_inside {k : Nat} (hsize : file.length < 2 ^ 32) (hk : k < file.length) :
    imageMem file frame (UInt64.ofNat k) = file.getD k 0 := by
  have hexact : (UInt64.ofNat k).toNat = k :=
    UInt64.toNat_ofNat_of_lt' (by simp only [UInt64.size]; omega)
  rw [imageMem, hexact, if_pos hk]

/-- A segment that lies in the file is copied from there. -/
theorem segment_getD {r : SyncRun} {k : Nat} (himage : r.image = imageMem file frame)
    (hsize : file.length < 2 ^ 32)
    (hinside : r.info.loadOffset.toNat + r.info.loadFilesz.toNat ≤ file.length) :
    r.segment.length = r.info.loadFilesz.toNat ∧
      (k < r.info.loadFilesz.toNat →
        r.segment.getD k 0 = file.getD (r.info.loadOffset.toNat + k) 0) := by
  have hfilesz : r.info.loadFilesz.toUInt32.toNat = r.info.loadFilesz.toNat := by
    rw [UInt64.toNat_toUInt32]
    omega
  have hlength : r.segment.length = r.info.loadFilesz.toNat := by
    rw [SyncRun.segment, List.length_map, List.length_range, hfilesz]
  refine ⟨hlength, fun hk => ?_⟩
  have haddr : r.info.loadOffset + UInt64.ofNat k = UInt64.ofNat (r.info.loadOffset.toNat + k) := by
    rw [UInt64.ofNat_add, UInt64.ofNat_toNat]
  rw [List.getD_eq_getElem _ _ (by rw [hlength]; exact hk)]
  simp only [SyncRun.segment, List.getElem_map, List.getElem_range]
  rw [himage, haddr, imageMem_inside hsize (by omega)]

theorem findSlot_congr {s s' : Aspaces} (h : s'.table = s.table) (id : UInt32) :
    s'.findSlot id = s.findSlot id := by
  rw [Aspaces.findSlot, Aspaces.findSlot, h]

/-- The two parts of a segment, written one behind the other. -/
theorem segment_window {p : ElfPhdr} {seg : List UInt8} {before : Nat → Option UInt8} {zeroes : Nat}
    (hlength : seg.length = p.filesz.toNat) (hzeroes : zeroes = p.memsz.toNat - p.filesz.toNat)
    (hseg : ∀ k < p.filesz.toNat, seg.getD k 0 = file.getD (p.offset.toNat + k) 0) (u : Nat) :
    sparseWrite pageBytes 0 p.vaddr.toNat (seg ++ List.replicate zeroes 0) before u =
      filledByte file (some p) before u := by
  have hboth : (seg ++ List.replicate zeroes (0 : UInt8)).length =
      max p.filesz.toNat p.memsz.toNat := by
    rw [List.length_append, List.length_replicate, hlength, hzeroes]
    omega
  rw [filledByte, askedByte, sparseWrite, hboth]
  by_cases hfile : p.vaddr.toNat ≤ u ∧ u < p.vaddr.toNat + p.filesz.toNat
  · rw [if_pos (by omega), if_pos hfile, List.getD_append _ _ _ _ (by omega), hseg _ (by omega)]
    rfl
  by_cases hzero : p.vaddr.toNat ≤ u ∧ u < p.vaddr.toNat + p.memsz.toNat
  · rw [if_pos (by omega), if_neg hfile, if_pos hzero, List.getD_append_right _ _ _ _ (by omega),
      List.getD_eq_getElem?_getD, List.getElem?_replicate, if_pos (by omega)]
    rfl
  · rw [if_neg (by omega), if_neg hfile, if_neg hzero]
    rfl

theorem stack_window (w : Nat → Option UInt8) (u : Nat) :
    sparseWrite pageBytes 0 (aspaceUserStackTop - 0x4000).toNat
      (List.replicate (0x4000 : UInt32).toNat (0 : UInt8)) w u =
        if InStack u then some 0 else w u := by
  have haddr : (aspaceUserStackTop - 0x4000).toNat = 0x401fc000 := by decide
  have hpages : (0x4000 : UInt32).toNat = 4 * pageBytes := rfl
  rw [haddr, hpages, sparseWrite_pages (by decide) (by decide)]
  rfl

/-- What is zeroed behind the file's part of the segment. -/
def SyncRun.zeroes (r : SyncRun) : Nat :=
  if r.info.loadMemsz > r.info.loadFilesz then (r.info.loadMemsz - r.info.loadFilesz).toUInt32.toNat
  else 0

/-- The three writes of a load that works. -/
theorem load_steps {r : SyncRun} (hload : (r.load s).1 = true) : ∃ s₂ s₃,
    s.write r.aspaceId r.info.firstVaddr r.segment = (true, s₂) ∧
    (if r.info.loadMemsz > r.info.loadFilesz then
      s₂.zero r.aspaceId (r.info.firstVaddr + r.info.loadFilesz)
        (r.info.loadMemsz - r.info.loadFilesz).toUInt32
      else (true, s₂)) = (true, s₃) ∧
    r.load s = s₃.zero r.aspaceId (aspaceUserStackTop - 0x4000) 0x4000 := by
  simp only [SyncRun.load] at hload ⊢
  cases hfirst : s.write r.aspaceId r.info.firstVaddr r.segment with
  | mk ok s₂ =>
    rw [hfirst] at hload
    cases ok with
    | false => exact absurd hload (by simp)
    | true =>
      simp only at hload ⊢
      generalize hsecond : (if r.info.loadMemsz > r.info.loadFilesz then
        s₂.zero r.aspaceId (r.info.firstVaddr + r.info.loadFilesz)
          (r.info.loadMemsz - r.info.loadFilesz).toUInt32
        else (true, s₂)) = answer at hload ⊢
      cases answer with
      | mk ok s₃ =>
        cases ok with
        | false => exact absurd hload (by simp)
        | true => exact ⟨s₂, s₃, rfl, hsecond, rfl⟩

/-- The two writes of the segment are one. -/
theorem load_segment (h : SpacesMapped root use s) {r : SyncRun}
    (hfind : s.findSlot r.aspaceId = some i) (hslot : s.table i = some a)
    (hkind : a.info.kind ≠ .kernel) (hsegment : r.segment.length = r.info.loadFilesz.toNat)
    {s₂ s₃ : Aspaces} (hfirst : s.write r.aspaceId r.info.firstVaddr r.segment = (true, s₂))
    (hsecond : (if r.info.loadMemsz > r.info.loadFilesz then
      s₂.zero r.aspaceId (r.info.firstVaddr + r.info.loadFilesz)
        (r.info.loadMemsz - r.info.loadFilesz).toUInt32
      else (true, s₂)) = (true, s₃)) :
    s₃.table = s.table ∧ (∃ use₃, SpacesMapped root use₃ s₃) ∧
      userWindow a s₃.memory = sparseWrite pageBytes 0 r.info.firstVaddr.toNat
        (r.segment ++ List.replicate (SyncRun.zeroes r) 0) (userWindow a s.memory) := by
  obtain ⟨hok₂, htable₂, use₂, h₂, -, hwindow₂⟩ :=
    h.fills hfind hslot hkind r.info.firstVaddr r.segment
  rw [hfirst] at hok₂ htable₂ h₂ hwindow₂
  have hfits := (hok₂.mp rfl).1
  have hw₂ := (hwindow₂ rfl).1
  simp only at htable₂ h₂ hw₂
  rw [SyncRun.zeroes]
  split at hsecond
  · rename_i hmore
    obtain ⟨-, htable₃, use₃, h₃, -, hwindow₃⟩ :=
      h₂.fills (by rw [findSlot_congr htable₂]; exact hfind) (by rw [htable₂]; exact hslot) hkind
        (r.info.firstVaddr + r.info.loadFilesz)
        (List.replicate (r.info.loadMemsz - r.info.loadFilesz).toUInt32.toNat 0)
    rw [show s₂.write r.aspaceId _ _ = (true, s₃) from hsecond] at htable₃ h₃ hwindow₃
    refine ⟨htable₃.trans htable₂, ⟨use₃, h₃⟩, ?_⟩
    have haddr : (r.info.firstVaddr + r.info.loadFilesz).toNat =
        r.info.firstVaddr.toNat + r.segment.length := by
      rw [UInt64.toNat_add, ← hsegment]
      rcases Nat.eq_zero_or_pos r.segment.length with hnone | hsome
      · have := r.info.firstVaddr.toNat_lt
        omega
      · have := (hfits hsome).2
        rw [userBase_toNat, userWindowSize_toNat] at this
        omega
    rw [if_pos hmore, sparseWrite_append, ← haddr, ← hw₂]
    exact (hwindow₃ rfl).1
  · rename_i hnone
    have heq : s₂ = s₃ := (Prod.ext_iff.mp hsecond).2
    rw [if_neg hnone, List.replicate_zero, List.append_nil, ← heq]
    exact ⟨htable₂, ⟨use₂, h₂⟩, hw₂⟩

/-- **The window behind a load that worked.** -/
theorem loaded_window (h : SpacesMapped root use s) {r : SyncRun}
    (hfind : s.findSlot r.aspaceId = some i) (hslot : s.table i = some a)
    (hkind : a.info.kind ≠ .kernel) (himage : r.image = imageMem file frame)
    (hsize : file.length < 2 ^ 32) {n : UInt64} (hparse : elfParseImage r.image n = some r.info)
    (hinside : ∀ p, loadHeader r.image = some p → p.offset.toNat + p.filesz.toNat ≤ file.length)
    (hlength : ∀ p, loadHeader r.image = some p → p.memsz.toNat < p.filesz.toNat + 2 ^ 32)
    (hload : (r.load s).1 = true) (u : Nat) :
    userWindow a (r.load s).2.memory u =
      if InStack u then some 0
      else filledByte file (loadHeader r.image) (userWindow a s.memory) u := by
  -- three writes in a row: the segment, the zeroes behind it, and the stack
  obtain ⟨hvaddr, -, hoffset, hfilesz, hmemsz⟩ := elfParseImage_some hparse
  obtain ⟨s₂, s₃, hfirst, hsecond, hlast⟩ := load_steps hload
  have hin : r.info.loadOffset.toNat + r.info.loadFilesz.toNat ≤ file.length := by
    rw [hoffset, hfilesz]
    -- without a segment nothing is written in front of the stack
    cases hheader : loadHeader r.image with
    | none => exact Nat.zero_le _
    | some p => exact hinside p hheader
  have hsegment := fun k => @segment_getD file frame r k himage hsize hin
  obtain ⟨htable₃, ⟨use₃, h₃⟩, hw₃⟩ :=
    load_segment h hfind hslot hkind (hsegment 0).1 hfirst hsecond
  obtain ⟨-, -, -, -, -, hwindow⟩ :=
    h₃.fills (by rw [findSlot_congr htable₃]; exact hfind) (by rw [htable₃]; exact hslot) hkind
      (aspaceUserStackTop - 0x4000) (List.replicate (0x4000 : UInt32).toNat 0)
  rw [hlast] at hload ⊢
  rw [Aspaces.zero] at hload ⊢
  rw [(hwindow hload).1, stack_window, hw₃]
  refine if_congr Iff.rfl rfl ?_
  cases hheader : loadHeader r.image with
  | none =>
    rw [hheader] at hfilesz hmemsz
    have hempty : r.segment = [] := by
      rw [← List.length_eq_zero_iff, (hsegment 0).1, hfilesz]
      rfl
    have hzeroes : SyncRun.zeroes r = 0 := by
      rw [SyncRun.zeroes, if_neg]
      rw [hmemsz, hfilesz]
      exact UInt64.lt_irrefl _
    rw [hempty, hzeroes, List.replicate_zero, List.nil_append, sparseWrite_nil]
    rfl
  | some p =>
    rw [hheader, Option.map_some, Option.getD_some] at hoffset hfilesz hmemsz
    rw [hvaddr, ← (loadHeader_mem hheader).2.2]
    rw [hfilesz] at hsegment
    refine segment_window (hsegment 0).1 ?_ (fun k hk => ?_) u
    · rw [SyncRun.zeroes, hmemsz, hfilesz]
      have hsmall := hlength p hheader
      split
      · rename_i hmore
        rw [gt_iff_lt, UInt64.lt_iff_toNat_lt] at hmore
        rw [UInt64.toNat_toUInt32, UInt64.toNat_sub_of_le _ _ (UInt64.le_iff_toNat_le.mpr hmore.le)]
        omega
      · rename_i hnone
        rw [gt_iff_lt, UInt64.lt_iff_toNat_lt] at hnone
        omega
    · rw [(hsegment k).2 hk, hoffset]

/-! ## For which files

One segment is loaded and every header is asked, so the question is what the other headers want.
Their bytes must be those the picked segment happens to bring.
-/

/-- **The load is faithful** exactly when the picked segment is all there is to load. -/
theorem loads_faithfully_iff (h : SpacesMapped root use s) {r : SyncRun}
    (hfind : s.findSlot r.aspaceId = some i) (hslot : s.table i = some a)
    (hkind : a.info.kind ≠ .kernel) (himage : r.image = imageMem file frame)
    (hsize : file.length < 2 ^ 32) {n : UInt64} (hparse : elfParseImage r.image n = some r.info)
    (hload : (r.load s).1 = true) :
    LoadedFaithfully file r.image (userWindow a (r.load s).2.memory) ↔
      LoadsWhole file r.image (userWindow a s.memory) := by
  have hwindow := fun hinside hlength =>
    loaded_window h hfind hslot hkind himage hsize hparse hinside hlength hload
  constructor
  · rintro ⟨hinside, hbytes⟩
    have hlength : ∀ p, loadHeader r.image = some p → p.memsz.toNat < p.filesz.toNat + 2 ^ 32 := by
      intro p hheader
      obtain ⟨hp, htype, -⟩ := loadHeader_mem hheader
      by_contra hlong
      -- so many zeroes do not fit into the window
      have hlast := hbytes p hp htype (p.vaddr.toNat + p.filesz.toNat + (2 ^ 32 - 1)) 0
        (fun hstack => by have := hstack.2; omega)
        (by rw [askedByte, if_neg (by omega), if_pos (by omega)])
      rw [userWindow_outside (by rw [inUserWindow_iff]; omega)] at hlast
      exact absurd hlast (by simp)
    refine ⟨hinside, hlength, fun p hp htype _ u b hstack hasked => ?_⟩
    have hheld := hbytes p hp htype u b hstack hasked
    rwa [hwindow (fun p hheader => hinside p (loadHeader_mem hheader).1 (loadHeader_mem hheader).2.1)
      hlength, if_neg hstack] at hheld
  · rintro ⟨hinside, hlength, hothers⟩
    refine ⟨hinside, fun p hp htype u b hstack hasked => ?_⟩
    rw [hwindow (fun p hheader => hinside p (loadHeader_mem hheader).1 (loadHeader_mem hheader).2.1)
      hlength, if_neg hstack]
    by_cases hpicked : loadHeader r.image = some p
    · rw [hpicked, filledByte, hasked]
      rfl
    · exact hothers p hp htype hpicked u b hstack hasked

/-- A load that works has found the slot of a user space. -/
theorem load_slot (h : SpacesMapped root use s) {r : SyncRun} (hload : (r.load s).1 = true) :
    ∃ i a, s.findSlot r.aspaceId = some i ∧ s.table i = some a ∧ a.info.kind ≠ .kernel := by
  obtain ⟨s₂, s₃, hfirst, hsecond, hlast⟩ := load_steps hload
  cases hfind : s.findSlot r.aspaceId with
  | none =>
    rw [Aspaces.write, hfind] at hfirst
    exact absurd hfirst (by simp)
  | some i =>
    obtain ⟨a, hslot, -⟩ := Aspaces.findSlot_some hfind
    refine ⟨i, a, rfl, hslot, fun hkind => ?_⟩
    -- nothing can be written into the kernel's own space
    have hnull := ((h.slots i a hslot).kernel hkind).1
    rw [Aspaces.write_eq hfind hslot, fillUser_kernel hnull] at hfirst
    have hsame : s₂ = s := (Prod.ext_iff.mp hfirst).2.symm
    have hsame₃ : s₃ = s := by
      split at hsecond
      · rw [hsame, Aspaces.zero, Aspaces.write_eq hfind hslot, fillUser_kernel hnull] at hsecond
        exact (Prod.ext_iff.mp hsecond).2.symm
      · rw [← hsame]
        exact (Prod.ext_iff.mp hsecond).2.symm
    rw [hlast, hsame₃, Aspaces.zero, Aspaces.write_eq hfind hslot, fillUser_kernel hnull] at hload
    exact absurd hload (by simp)

/-- **A space whose id is new** is found by it, and its window is empty. -/
theorem create_empty (h : SpacesMapped root use s) (hfresh : FreshId s) (label : Option (List UInt8))
    (hmade : (s.create .userShared label).1 ≠ 0) {i : Fin aspaceMax} {a : AspaceSlot}
    (hfind : (s.create .userShared label).2.findSlot (s.create .userShared label).1 = some i)
    (hslot : (s.create .userShared label).2.table i = some a) (u : Nat) :
    userWindow a (s.create .userShared label).2.memory u = none := by
  rw [Aspaces.create] at hmade hfind hslot ⊢
  cases hfree : s.unusedSlot with
  | none =>
    rw [hfree] at hmade
    exact absurd rfl hmade
  | some j =>
    obtain ⟨-, -, hsome⟩ := cloneKernelRoot_tables h.fresh j (s.newInfo .userShared label)
      h.rootCopied
    rw [hfree] at hmade hfind hslot
    simp only at hmade hfind hslot ⊢
    cases hclone : cloneKernelRoot s.kernelCr3 (s.newInfo .userShared label) s.memory with
    | mk info memory =>
      rw [hclone] at hmade hfind hslot hsome
      cases info with
      | none => exact absurd rfl hmade
      | some info =>
        obtain ⟨use', hcloned⟩ := hsome info rfl
        simp only at hfind hslot ⊢
        obtain ⟨b, hb, hid⟩ := Aspaces.findSlot_some hfind
        have hnew : info.id = s.nextAspaceId := by
          rw [hcloned.fields]
          rfl
        by_cases hij : i = j
        · rw [hij, Function.update_self, Option.some.injEq] at hslot
          rw [← hslot]
          exact hcloned.empty u
        · -- no other slot has the id
          simp only [Function.update_of_ne hij] at hb
          exact absurd (hid.trans hnew) (hfresh.2 i b hb)

/-- **An image that was opened is loaded faithfully** exactly when it loads as a whole. -/
theorem opened_loads_iff (entries : List E820Entry) (cr3 : UInt64) (phys : UInt64 → UInt8)
    (honce : ∀ n, (pageAllocs n ((memoryInit entries).memory cr3 phys)).Nodup)
    (ops : List SpaceOp) (s : Processes)
    (hspaces : s.aspaces = runAll SpaceOp.run ops (aspaceInit ((memoryInit entries).memory cr3 phys)))
    (hidle : s.sync = none) (file : List UInt8) (hsize : file.length < 2 ^ 32) (frame : ImageMem)
    (r : SyncRun) (hopen : (runSyncOpen (some file) frame s).sync = some r)
    (hload : (r.load (runSyncOpen (some file) frame s).aspaces).1 = true) :
    let s₁ := (runSyncOpen (some file) frame s).aspaces
    ∃ i a, s₁.findSlot r.aspaceId = some i ∧ s₁.table i = some a ∧
      (FreshId s.aspaces → ∀ u, userWindow a s₁.memory u = none) ∧
      (LoadedFaithfully file (imageMem file frame) (userWindow a (r.load s₁).2.memory) ↔
        LoadsWhole file (imageMem file frame) (userWindow a s₁.memory)) := by
  intro s₁
  obtain ⟨use, hmapped⟩ := (spacesMapped_any _ _ honce).runAll ops
  rw [← hspaces] at hmapped
  have hs₁ : s₁ = (runSyncOpen (some file) frame s).aspaces := rfl
  rw [← hs₁] at hload
  rw [runSyncOpen] at hopen hs₁
  simp only at hopen hs₁
  -- a run that opened has parsed its image and made a space; the rest is that space's load
  cases hparse : elfParseImage (imageMem file frame) (UInt64.ofNat file.length) with
  | none =>
    rw [hparse] at hopen
    exact absurd (hidle.symm.trans hopen) (by simp)
  | some info =>
    rw [hparse] at hopen hs₁
    simp only at hopen hs₁
    obtain ⟨use₁, h₁⟩ := hmapped.create .userShared (some (cstr "ring3demo"))
    have hempty := fun hfresh hmade => @create_empty use s.aspaces _ hmapped hfresh
      (some (cstr "ring3demo")) hmade
    generalize s.aspaces.create .userShared (some (cstr "ring3demo")) = made at h₁ hempty hopen hs₁
    by_cases hfailed : made.1 = 0
    · rw [if_pos hfailed] at hopen
      exact absurd (hidle.symm.trans hopen) (by simp)
    · rw [if_neg hfailed] at hopen hs₁
      have hr : ⟨made.1, s.currentAspace, info, imageMem file frame, false⟩ = r :=
        Option.some.inj hopen
      have himage : r.image = imageMem file frame := by rw [← hr]
      have hinfo : r.info = info := by rw [← hr]
      have hid : r.aspaceId = made.1 := by rw [← hr]
      rw [show s₁ = made.2 from hs₁] at hload ⊢
      obtain ⟨i, a, hfind, hslot, hkind⟩ := load_slot h₁ hload
      refine ⟨i, a, hfind, hslot, fun hfresh => hempty hfresh hfailed (hid ▸ hfind) hslot, ?_⟩
      rw [← himage]
      exact loads_faithfully_iff h₁ hfind hslot hkind himage hsize
        (by rw [himage, hinfo]; exact hparse) hload

/-! ## The file

`builtin_exec_run_sync` reads the file into 256 bytes of its stack, and `fs_read_exec_file` is not
told so. What happens to a longer file has no meaning in the program's own terms: the copy goes
over `aspace_id` and the return address.
-/

/-- The path that is run. -/
def ring3demoPath : List UInt8 := cstr "/bin/ring3demo"

section
variable {fs fs₁ : Fs} {j : Fin fsMaxInodes} {s₁ : Processes} {stack : Nat → UInt8}

/-- The file as `builtin_exec_run_sync` reads it. -/
theorem runSyncImage_eq (hfound : fsFindExec fs.inodes ring3demoPath = some j) :
    runSyncImage ring3demoPath stack fs = (fsReadInode (some j) (⟨stack⟩ : ImageBuffer) fs).map
      fun r => (r.1.map fun n => r.2.1.contents n.toNat, r.2.2) := by
  rw [runSyncImage, if_neg (by simp [ring3demoPath]), readImage, fsReadExecFile, hfound]
  cases fsReadInode (some j) (⟨stack⟩ : ImageBuffer) fs <;> rfl

/-- When the copy stays in the image. -/
theorem runSync_isOk_iff (hfound : fsFindExec fs.inodes ring3demoPath = some j)
    (hstored : Stores fs j file) (hsize : file.length < 2 ^ 32 - 511) (s : Processes) :
    (runSync ring3demoPath stack frame fs s).isOk = true ↔ file.length ≤ 256 ∨
      fs.online = false ∨ (ataRead28 (fs.inodes j).startLba 1 fs.ata).1 = false := by
  rw [← hstored.read_isOk_iff hsize (show 256 < sectorSize by decide) (⟨stack⟩ : ImageBuffer),
    runSync, isOk_bind fun _ => rfl, runSyncImage_eq hfound]
  cases fsReadInode (some j) (⟨stack⟩ : ImageBuffer) fs <;> rfl

/-- What is opened is the file, or nothing. -/
theorem runSync_opened (hfound : fsFindExec fs.inodes ring3demoPath = some j)
    (hstored : Stores fs j file) (hsize : file.length < 2 ^ 32 - 511) {s : Processes}
    (hidle : s.sync = none) (hrun : runSync ring3demoPath stack frame fs s = .ok (s₁, fs₁))
    {r : SyncRun} (hopen : s₁.sync = some r) : s₁ = runSyncOpen (some file) frame s := by
  rw [runSync, runSyncImage_eq hfound] at hrun
  cases hread : fsReadInode (some j) (⟨stack⟩ : ImageBuffer) fs with
  | error o =>
    rw [hread] at hrun
    cases hrun
  | ok answer =>
    obtain ⟨bytes, buf, fs'⟩ := answer
    rw [hread] at hrun
    have hs₁ : runSyncOpen (bytes.map fun n => buf.contents n.toNat) frame s = s₁ :=
      congrArg (fun r : Processes × Fs => r.1) (Except.ok.inj hrun)
    cases bytes with
    | none =>
      rw [← hs₁] at hopen
      exact absurd (hidle.symm.trans hopen) (by simp)
    | some bytes =>
      have hfits := hstored.fits hsize (by decide) hread
      obtain ⟨-, rfl, hcontents, -⟩ := hstored.read_some hsize hfits hread
      rw [← hs₁, Option.map_some, bytesOf_toNat hsize, hcontents]

end

/-- **A ring-3 program is loaded faithfully** exactly when its file fits and loads as a whole.

    The file is whatever the disk has under `/bin/ring3demo`, read over any drive into any stack.
    A file of more than 256 bytes leaves `image` as soon as its first sector is read; one that does
    not is what is opened, and then its load, whatever has been done with the spaces before, is
    faithful if and only if `LoadsWhole`. `honce`, that `page_alloc` returns no page twice, is what
    keeps the windows of the spaces apart.

    `hspaces` is any history of the spaces from boot, and `hidle` that no other program is between
    its load and its end. `hfound` and `hstored` are the file as the store has it, with the sectors
    its size asks for; `hsize` keeps that size from going round when it is rounded up. -/
theorem run_sync_loads_iff (entries : List E820Entry) (cr3 : UInt64) (phys : UInt64 → UInt8)
    (honce : ∀ n, (pageAllocs n ((memoryInit entries).memory cr3 phys)).Nodup)
    (ops : List SpaceOp) (s : Processes)
    (hspaces : s.aspaces = runAll SpaceOp.run ops (aspaceInit ((memoryInit entries).memory cr3 phys)))
    (hidle : s.sync = none) (fs : Fs) {j : Fin fsMaxInodes}
    (hfound : fsFindExec fs.inodes ring3demoPath = some j) {file : List UInt8}
    (hstored : Stores fs j file) (hsize : file.length < 2 ^ 32 - 511) (stack : Nat → UInt8)
    (frame : ImageMem) :
    ((runSync ring3demoPath stack frame fs s).isOk = true ↔ file.length ≤ 256 ∨
      fs.online = false ∨ (ataRead28 (fs.inodes j).startLba 1 fs.ata).1 = false) ∧
    ∀ s₁ fs₁ r, runSync ring3demoPath stack frame fs s = .ok (s₁, fs₁) → s₁.sync = some r →
      (r.load s₁.aspaces).1 = true →
      ∃ i a, s₁.aspaces.findSlot r.aspaceId = some i ∧ s₁.aspaces.table i = some a ∧
        (FreshId s.aspaces → ∀ u, userWindow a s₁.aspaces.memory u = none) ∧
        (LoadedFaithfully file (imageMem file frame) (userWindow a (r.load s₁.aspaces).2.memory) ↔
          LoadsWhole file (imageMem file frame) (userWindow a s₁.aspaces.memory)) := by
  refine ⟨runSync_isOk_iff hfound hstored hsize s, fun s₁ fs₁ r hrun hopen hload => ?_⟩
  obtain rfl := runSync_opened hfound hstored hsize hidle hrun hopen
  exact opened_loads_iff entries cr3 phys honce ops s hspaces hidle file (by omega) frame r hopen
    hload

/-! ## One segment -/

/-- A file with one header loads as a whole when its bytes are in the file. -/
theorem loadsWhole_single {p : ElfPhdr} (hphdrs : imagePhdrs mem = [p]) (htype : p.type = 1)
    (hvaddr : p.vaddr ≠ 0) (hinside : p.offset.toNat + p.filesz.toNat ≤ file.length)
    (hlength : p.memsz.toNat < p.filesz.toNat + 2 ^ 32) (before : Nat → Option UInt8) :
    LoadsWhole file mem before := by
  have hfirst : (elfExtent [p]).1 = p.vaddr := by
    simp only [elfExtent, List.foldl_cons, List.foldl_nil, htype]
    rfl
  have hpicked : loadHeader mem = some p := by
    rw [loadHeader, hphdrs, hfirst, if_neg hvaddr, List.find?_cons_of_pos]
    simp [htype]
  refine ⟨fun q hq _ => ?_, fun q hq => ?_, fun q hq _ hne => ?_⟩
  · rw [hphdrs, List.mem_singleton] at hq
    rw [hq]
    exact hinside
  · rw [hpicked, Option.some.injEq] at hq
    rw [← hq]
    exact hlength
  · rw [hphdrs, List.mem_singleton] at hq
    rw [hq] at hne
    exact absurd hpicked hne

theorem imagePhdrs_one (h : (mem.field 56 2).toUInt16.toNat = 1) :
    imagePhdrs mem = [mem.phdr (mem.field 32 8) 0] := by
  rw [imagePhdrs, h]
  rfl

/-- Where the pages are there to have, a write into the window is answered with 0. -/
theorem SpacesMapped.fills_ok (h : SpacesMapped root use s) {id : UInt32}
    (hfind : s.findSlot id = some i) (hslot : s.table i = some a) (hkind : a.info.kind ≠ .kernel)
    (v : UInt64) (data : List UInt8) (hfits : 0 < data.length → FitsUserWindow v.toNat data.length)
    {n k : Nat} (hn : (touchedPages pageBytes v.toNat data.length).length ≤ n)
    (hpages : Affords (n + k) s.memory) :
    ∃ s' use', s.write id v data = (true, s') ∧ s'.table = s.table ∧ SpacesMapped root use' s' ∧
      Affords k s'.memory := by
  obtain ⟨hok, htable, use', hmapped, -, hwritten⟩ := h.fills hfind hslot hkind v data
  have hmissing : missingPages pageBytes v.toNat data.length (userWindow a s.memory) ≤ n :=
    Nat.le_trans List.countP_le_length hn
  generalize missingPages pageBytes v.toNat data.length (userWindow a s.memory) = missing
    at hok hwritten hmissing
  have henough : Affords (missing + k) s.memory := by
    rw [show n + k = missing + k + (n - missing) by omega] at hpages
    exact affords_of_le hpages
  have htrue := hok.mpr ⟨hfits, affords_of_le henough⟩
  exact ⟨_, use', Prod.ext htrue rfl, htable, hmapped, ((hwritten htrue).2 k).mp henough⟩

/-- A load works when the segment fits into the window and the pages are there. -/
theorem load_ok (h : SpacesMapped root use s) {r : SyncRun} (hfind : s.findSlot r.aspaceId = some i)
    (hslot : s.table i = some a) (hkind : a.info.kind ≠ .kernel) {n : Nat}
    (hmemsz : r.info.loadMemsz = r.info.loadFilesz)
    (hfits : 0 < r.segment.length → FitsUserWindow r.info.firstVaddr.toNat r.segment.length)
    (hn : (touchedPages pageBytes r.info.firstVaddr.toNat r.segment.length).length ≤ n)
    (hpages : Affords (n + 4) s.memory) : (r.load s).1 = true := by
  obtain ⟨s₂, use₂, hfirst, htable, h₂, hleft⟩ := h.fills_ok hfind hslot hkind _ _ hfits hn hpages
  have hstack : (List.replicate (0x4000 : UInt32).toNat (0 : UInt8)).length = 4 * pageBytes :=
    List.length_replicate
  have haddr : (aspaceUserStackTop - 0x4000).toNat = 0x401fc000 := by decide
  obtain ⟨s₃, -, hlast, -⟩ := h₂.fills_ok
    (by rw [findSlot_congr htable]; exact hfind) (by rw [htable]; exact hslot) hkind
    (aspaceUserStackTop - 0x4000) (List.replicate (0x4000 : UInt32).toNat 0) (n := 4) (k := 0)
    (fun _ => by rw [hstack, haddr]; decide) (by rw [hstack, haddr]; decide) hleft
  have hnomore : ¬ r.info.loadMemsz > r.info.loadFilesz := by
    rw [hmemsz]
    exact UInt64.lt_irrefl _
  simp only [SyncRun.load, hfirst, if_neg hnomore, Aspaces.zero, hlast]

/-- An image of 120 bytes: the ELF header, and one program header for the window's start. -/
def sampleElf (filesz memsz : UInt64) : List UInt8 :=
  [0x7f, 0x45, 0x4c, 0x46, 2, 1, 1, 0, 0, 0, 0, 0, 0, 0, 0, 0] ++
    putU16 2 ++ putU16 62 ++ putU32 1 ++ putU64 aspaceUserBase ++ putU64 64 ++ putU64 0 ++
    putU32 0 ++ putU16 64 ++ putU16 56 ++ putU16 1 ++ putU16 0 ++ putU16 0 ++ putU16 0 ++
    putU32 1 ++ putU32 5 ++ putU64 0 ++ putU64 aspaceUserBase ++ putU64 aspaceUserBase ++
    putU64 filesz ++ putU64 memsz ++ putU64 0x1000

/-- A machine with one megabyte of pages. -/
def sampleMap : List E820Entry := [⟨0x200000, 0x100000, 1⟩]

def sampleBoot : Memory := (memoryInit sampleMap).memory 0x9000 fun _ => 0

theorem sampleBoot_once (n : Nat) : (pageAllocs n sampleBoot).Nodup :=
  pageAllocs_nodup n (by decide) (by decide)

/-- An image whose segment fits into the window's first page is loaded there. -/
theorem sample_load (file : List UInt8) (info : ElfInfo)
    (hparse : elfParseImage (imageMem file fun _ => 0) (UInt64.ofNat file.length) = some info)
    (hvaddr : info.firstVaddr = aspaceUserBase) (hmemsz : info.loadMemsz = info.loadFilesz)
    (hfilesz : info.loadFilesz.toNat ≤ 4096) :
    let s₁ := runSyncOpen (some file) (fun _ => 0) (processesBoot sampleBoot)
    ∃ r i a, s₁.sync = some r ∧ s₁.aspaces.findSlot r.aspaceId = some i ∧
      s₁.aspaces.table i = some a ∧ (r.load s₁.aspaces).1 = true := by
  intro s₁
  have hmade : ((aspaceInit sampleBoot).create .userShared (some (cstr "ring3demo"))).1 = 2 ∧
      ((aspaceInit sampleBoot).create .userShared (some (cstr "ring3demo"))).2.findSlot 2 = some 1 ∧
      (((aspaceInit sampleBoot).create .userShared (some (cstr "ring3demo"))).2.table 1).any
        (fun a => a.info.kind == .userShared) = true ∧
      (pageAllocs (1 + 4) ((aspaceInit sampleBoot).create .userShared
        (some (cstr "ring3demo"))).2.memory).length = 1 + 4 := by decide +kernel
  obtain ⟨hid, hfind, hkind, hpages⟩ := hmade
  obtain ⟨use, hmapped⟩ := (spacesMapped_any sampleMap 0x9000 sampleBoot_once).create .userShared (some (cstr "ring3demo"))
  rw [show (memoryInit sampleMap).memory 0x9000 (fun _ => 0) = sampleBoot from rfl] at hmapped
  have hopen : runSyncOpen (some file) (fun _ => 0) (processesBoot sampleBoot) =
      let made := (aspaceInit sampleBoot).create .userShared (some (cstr "ring3demo"))
      { processesBoot sampleBoot with
        aspaces := made.2
        sync := some ⟨made.1, (processesBoot sampleBoot).currentAspace, info,
          imageMem file fun _ => 0, false⟩ } := by
    simp only [runSyncOpen, hparse]
    rw [show (processesBoot sampleBoot).aspaces = aspaceInit sampleBoot from rfl, if_neg]
    rw [hid]
    decide
  have hs₁ : s₁ = _ := hopen
  rw [hs₁]
  generalize (aspaceInit sampleBoot).create .userShared (some (cstr "ring3demo")) = made
    at hid hfind hkind hpages hmapped ⊢
  cases hslot : made.2.table 1 with
  | none =>
    rw [hslot] at hkind
    exact absurd hkind (by simp)
  | some a =>
    rw [hslot, Option.any_some, beq_iff_eq] at hkind
    have hlength : ∀ r : SyncRun, r.info = info → r.segment.length = info.loadFilesz.toNat := by
      intro r hinfo
      rw [SyncRun.segment, List.length_map, List.length_range, hinfo, UInt64.toNat_toUInt32]
      omega
    refine ⟨_, 1, a, rfl, by rw [hid]; exact hfind, hslot, ?_⟩
    refine load_ok hmapped (n := 1) (by rw [hid]; exact hfind) hslot (by rw [hkind]; decide) hmemsz ?_ ?_
      hpages
    · intro _
      rw [hlength _ rfl, hvaddr, FitsUserWindow, userBase_toNat, userWindowSize_toNat]
      omega
    · rw [hlength _ rfl, hvaddr, userBase_toNat, touchedPages]
      split
      · exact Nat.zero_le _
      · rw [List.length_range', pageBytes]
        omega

/-- A formatted disk with the file on it, stored the way `fs_init` seeds one. -/
def sampleDisk (file : List UInt8) : Fs :=
  (fsSeedExecFile ring3demoPath file ⟨formattedSuperblock, fun _ => Inode.zero, true,
    driveWith formattedSuperblock fun _ => Inode.zero⟩).2

/-- What is needed of it to run the file. -/
structure CarriesFile (file : List UInt8) : Prop where
  found : fsFindExec (sampleDisk file).inodes ring3demoPath = some ⟨0, by decide⟩
  stored : Stores (sampleDisk file) ⟨0, by decide⟩ file
  read : (runSyncImage ring3demoPath (fun _ => 0) (sampleDisk file)).map Prod.fst = .ok (some file)

theorem CarriesFile.opens {file : List UInt8} (h : CarriesFile file) (s : Processes) :
    ∃ fs₁, runSync ring3demoPath (fun _ => 0) (fun _ => 0) (sampleDisk file) s =
      .ok (runSyncOpen (some file) (fun _ => 0) s, fs₁) := by
  have hread := h.read
  rw [runSync]
  cases hanswer : runSyncImage ring3demoPath (fun _ => 0) (sampleDisk file) with
  | error o =>
    rw [hanswer] at hread
    cases hread
  | ok r =>
    rw [hanswer] at hread
    obtain ⟨image, fs₁⟩ := r
    obtain rfl : image = some file := Except.ok.inj hread
    exact ⟨fs₁, rfl⟩

theorem sampleDisk_whole : CarriesFile (sampleElf 120 120) :=
  ⟨by decide +kernel, ⟨by decide +kernel, by decide +kernel, by decide +kernel⟩, by decide +kernel⟩

theorem sampleDisk_past : CarriesFile (sampleElf 256 256) :=
  ⟨by decide +kernel, ⟨by decide +kernel, by decide +kernel, by decide +kernel⟩, by decide +kernel⟩

/-- The whole file, loaded as it is. -/
theorem run_sync_loads_sample : ∃ s₁ fs₁ r i a,
    runSync ring3demoPath (fun _ => 0) (fun _ => 0) (sampleDisk (sampleElf 120 120))
      (processesBoot sampleBoot) = .ok (s₁, fs₁) ∧ s₁.sync = some r ∧
    s₁.aspaces.findSlot r.aspaceId = some i ∧ s₁.aspaces.table i = some a ∧
    (r.load s₁.aspaces).1 = true ∧
    LoadedFaithfully (sampleElf 120 120) (imageMem (sampleElf 120 120) fun _ => 0)
      (userWindow a (r.load s₁.aspaces).2.memory) := by
  obtain ⟨r, -, -, hopen, -, -, hload⟩ := sample_load (sampleElf 120 120)
    ⟨2, 62, 1, aspaceUserBase, aspaceUserBase, aspaceUserBase + 120, 0, 120, 120⟩
    (by decide +kernel) rfl rfl (by decide)
  obtain ⟨fs₁, hrun⟩ := sampleDisk_whole.opens (processesBoot sampleBoot)
  obtain ⟨i, a, hfind, hslot, -, hiff⟩ := (run_sync_loads_iff sampleMap 0x9000 (fun _ => 0)
    sampleBoot_once [] (processesBoot sampleBoot) rfl rfl _ sampleDisk_whole.found
    sampleDisk_whole.stored (by decide) (fun _ => 0) (fun _ => 0)).2 _ fs₁ r hrun hopen hload
  refine ⟨_, fs₁, r, i, a, hrun, hopen, hfind, hslot, hload, hiff.mpr ?_⟩
  exact loadsWhole_single (imagePhdrs_one (by decide +kernel)) (by decide +kernel)
    (by decide +kernel) (by decide +kernel) (by decide +kernel) _

/-- A header that asks for 256 bytes of a file of 120: the load works, and takes the other
    136 from the kernel's stack. -/
theorem run_sync_loads_past : (∀ n, (pageAllocs n sampleBoot).Nodup) ∧ ∃ s₁ fs₁ r i a,
    runSync ring3demoPath (fun _ => 0) (fun _ => 0) (sampleDisk (sampleElf 256 256))
      (processesBoot sampleBoot) = .ok (s₁, fs₁) ∧ s₁.sync = some r ∧
    s₁.aspaces.findSlot r.aspaceId = some i ∧ s₁.aspaces.table i = some a ∧
    (r.load s₁.aspaces).1 = true ∧
    ¬ LoadedFaithfully (sampleElf 256 256) (imageMem (sampleElf 256 256) fun _ => 0)
      (userWindow a (r.load s₁.aspaces).2.memory) := by
  refine ⟨sampleBoot_once, ?_⟩
  obtain ⟨r, i, a, hopen, hfind, hslot, hload⟩ := sample_load (sampleElf 256 256)
    ⟨2, 62, 1, aspaceUserBase, aspaceUserBase, aspaceUserBase + 256, 0, 256, 256⟩
    (by decide +kernel) rfl rfl (by decide)
  obtain ⟨fs₁, hrun⟩ := sampleDisk_past.opens (processesBoot sampleBoot)
  refine ⟨_, fs₁, r, i, a, hrun, hopen, hfind, hslot, hload, fun hfaithful => ?_⟩
  have hinside := hfaithful.inside ((imageMem (sampleElf 256 256) fun _ => 0).phdr
    ((imageMem (sampleElf 256 256) fun _ => 0).field 32 8) 0)
    (by rw [imagePhdrs_one (by decide +kernel)]; exact List.mem_singleton_self _)
    (by decide +kernel)
  exact absurd hinside (by decide +kernel)

end Proof
end BumbelBee
