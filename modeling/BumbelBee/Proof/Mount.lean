import BumbelBee.Proof.Atomic
import BumbelBee.Proof.Durable

/-!
# Mounting, whatever the drive answers

`fs_init` over a drive that carries this filesystem: which of its sessions are still on the
drive afterwards? The exact condition is stated over the outcomes the drive has in store. A
read that fails makes `fs_init` format, and the format reaches the drive as far as its own
writes go (`FormatWipes`). And on a superblock whose mark is below the data area, a seeded
file may land on the tables and the flush that would put them right may fail (`SeedWipes`).

`fs_init` cannot tell a disk that has no filesystem from one it could not read, and it formats both.
So the question is how far a format gets on a drive that has just failed. The order of its writes
decides: the superblock comes first, then the table sector by sector, and sessions are lost from the
first table sector on that reaches the disk with an inode in it. The seeding that follows is the
other way to lose one, and it takes a superblock that points into the tables.
-/

namespace BumbelBee
namespace Proof

open Lib Kernel

/-! ## Seeding, outcome by outcome

Seeding writes a file for each of the executables that are missing, one sector each, and the sector
a file goes to depends on how many of those before it have failed. `seedHits` is this course,
computed from the outcomes alone.
-/

/-- The sectors seeding hits, and the command it stops before: `missing` files to seed, `free`
    inodes, the mark at `mark`, command `k` next. Every file is one sector; a failed one gives
    its inode back, and may have moved its sector all the same. -/
def seedHits (o : Nat → Outcome) : Nat → Nat → Nat → Nat → List Nat × Nat
  | 0, _, _, k => ([], k)
  | missing + 1, free, mark, k =>
    if free = 0 ∨ 6144 ≤ mark then ([], k)
    else match o k with
      | .ok =>
        let (hits, k) := seedHits o missing (free - 1) (mark + 1) (k + 1)
        (mark :: hits, k)
      | .fault moved =>
        let (hits, k) := seedHits o missing free mark (k + 1)
        (if moved = 0 then hits else mark :: hits, k)

/-- Seeding only goes up from the mark. -/
theorem seedHits_ge (o : Nat → Outcome) : ∀ (missing free mark k : Nat),
    ∀ x ∈ (seedHits o missing free mark k).1, mark ≤ x
  | 0, _, _, _, _, hx => absurd hx (by simp [seedHits])
  | missing + 1, free, mark, k, x, hx => by
    simp only [seedHits] at hx
    split at hx
    · exact absurd hx (by simp)
    · split at hx
      · rcases List.mem_cons.mp hx with rfl | hx
        · exact Nat.le_refl _
        · have := seedHits_ge o missing (free - 1) (mark + 1) (k + 1) x hx
          omega
      · have hrec := seedHits_ge o missing free mark (k + 1) x
        split at hx
        · exact hrec hx
        · rcases List.mem_cons.mp hx with rfl | hx
          · exact Nat.le_refl _
          · exact hrec hx

theorem seedHits_full (o : Nat → Outcome) {free mark : Nat} (h : free = 0 ∨ 6144 ≤ mark)
    (missing k : Nat) : seedHits o missing free mark k = ([], k) := by
  cases missing with
  | zero => rfl
  | succ missing => simp [seedHits, h]

/-- The files of a list a table does not have yet. -/
def missingFiles (files : List (List UInt8 × List UInt8)) (t : InodeTable) : Nat :=
  files.countP fun f => (fsFindExec t f.1).isNone

theorem fsFindExec_none {t : InodeTable} {path : List UInt8} :
    fsFindExec t path = none ↔ ∀ i, (t i).isExec = true → (t i).nameIs path = false := by
  simp [fsFindExec, List.find?_eq_none]

theorem isExec_free {n : Inode} (h : n.used = 0) : n.isExec = false := by
  simp [Inode.isExec, h]

/-- Updating an inode no lookup matches, before or after, changes no lookup. -/
theorem fsFindExec_update {t : InodeTable} {i : Fin fsMaxInodes} {n : Inode}
    {path : List UInt8} (hfree : (t i).used = 0)
    (hn : n.isExec = true → n.nameIs path = false) :
    (fsFindExec (Function.update t i n) path).isNone = (fsFindExec t path).isNone := by
  rw [Bool.eq_iff_iff, Option.isNone_iff_eq_none, Option.isNone_iff_eq_none, fsFindExec_none,
    fsFindExec_none]
  refine forall_congr' fun j => ?_
  by_cases hj : j = i
  · subst hj
    rw [Function.update_self, isExec_free hfree]
    exact iff_of_true hn fun h => absurd h (by simp)
  · rw [Function.update_of_ne hj]

theorem missingFiles_update {files : List (List UInt8 × List UInt8)} {t : InodeTable}
    {i : Fin fsMaxInodes} {n : Inode} (hfree : (t i).used = 0)
    (hn : ∀ f ∈ files, n.isExec = true → n.nameIs f.1 = false) :
    missingFiles files (Function.update t i n) = missingFiles files t :=
  List.countP_congr fun f hf => by rw [fsFindExec_update hfree (hn f hf)]

/-- One sector of data is one command. -/
theorem fsWriteData_one {data : List UInt8} (hne : data ≠ []) (hlen : data.length ≤ 512)
    (fs : Fs) :
    (sectorsOf data).toNat = 1 ∧
      fsWriteData data fs =
        ataWrite28 fs.superblock.nextFreeLba [Block.pad sectorSize data] fs.ata := by
  have hpos : 0 < data.length := List.length_pos_iff.mpr hne
  have hone : (sectorsOf data).toNat = 1 := by
    rw [sectorsOf_toNat (by omega)]; omega
  refine ⟨hone, ?_⟩
  have hsector : dataSector data (bytesOf data) 0 = Block.pad sectorSize data := by
    have h := @dataSector_eq data (by omega) 0 (by omega)
    simpa [List.take_of_length_le hlen] using h
  simp only [fsWriteData, hone, fsWriteSectors, UInt32.add_zero, hsector]
  rcases ataWrite28 fs.superblock.nextFreeLba [Block.pad sectorSize data] fs.ata with ⟨_ | _, a⟩ <;>
    rfl

/-- A table that differs in free inodes only. -/
structure SameFiles (t u : InodeTable) : Prop where
  kept : ∀ i, (t i).used ≠ 0 → u i = t i
  free : freeInodes u = freeInodes t
  missing : ∀ files, missingFiles files u = missingFiles files t

theorem SameFiles.refl (t : InodeTable) : SameFiles t t := ⟨fun _ _ => rfl, rfl, fun _ => rfl⟩

theorem SameFiles.release {t : InodeTable} {i : Fin fsMaxInodes} {n : Inode}
    (hfree : (t i).used = 0) (hn : n.used = 0) : SameFiles t (Function.update t i n) where
  kept := update_used hfree n
  free := freeInodes_release hfree hn
  missing _ := missingFiles_update hfree fun _ _ h => by rw [isExec_free hn] at h; cases h

/-- What seeding a one-sector file does, by what the table, the mark and the drive say. -/
inductive SeedStep (path data : List UInt8) (fs : Fs) : Fs → Prop
  | found (there : (fsFindExec fs.inodes path).isNone = false) : SeedStep path data fs fs
  | full (t : InodeTable)
      (missing : (fsFindExec fs.inodes path).isNone = true)
      (full : freeInodes fs.inodes = 0 ∨ 6144 ≤ fs.superblock.nextFreeLba.toNat)
      (same : SameFiles fs.inodes t) :
      SeedStep path data fs { fs with inodes := t }
  | fault (t : InodeTable) (moved : Nat)
      (missing : (fsFindExec fs.inodes path).isNone = true)
      (room : ¬ (freeInodes fs.inodes = 0 ∨ 6144 ≤ fs.superblock.nextFreeLba.toNat))
      (outcome : fs.ata.outcome 0 = .fault moved)
      (same : SameFiles fs.inodes t) :
      SeedStep path data fs
        { fs with
          inodes := t
          ata := (fs.ata.skip 1).log (if moved = 0 then [] else
            [(fs.superblock.nextFreeLba.toNat, Block.pad sectorSize data)]) }
  | seeded (i : Fin fsMaxInodes)
      (missing : (fsFindExec fs.inodes path).isNone = true)
      (room : ¬ (freeInodes fs.inodes = 0 ∨ 6144 ≤ fs.superblock.nextFreeLba.toNat))
      (outcome : fs.ata.outcome 0 = .ok)
      (free : (fs.inodes i).used = 0) :
      SeedStep path data fs
        { fs with
          inodes := Function.update fs.inodes i (seededInode path fs.superblock (bytesOf data))
          superblock := { fs.superblock with
            nextFreeLba := fs.superblock.nextFreeLba + sectorsOf data }
          ata := (fs.ata.skip 1).log
            [(fs.superblock.nextFreeLba.toNat, Block.pad sectorSize data)] }

theorem freeInodes_eq_zero {t : InodeTable} : freeInodes t = 0 ↔ ∀ i, (t i).used ≠ 0 := by
  simp [freeInodes, Finset.filter_eq_empty_iff]

/-- The space check of a one-sector file: only the largest mark of all wraps past it, and no
    drive accepts that address. -/
theorem fsNoSpace_one {s : Superblock} {sectors : UInt32} (hone : sectors.toNat = 1) :
    fsNoSpace s sectors = true ↔
      6144 ≤ s.nextFreeLba.toNat ∧ s.nextFreeLba.toNat ≠ 2 ^ 32 - 1 := by
  have hlim : (fsStartLba + fsTotalSectors).toNat = 6144 := by decide
  have hlt := s.nextFreeLba.toNat_lt
  rw [fsNoSpace, decide_eq_true_iff, gt_iff_lt, UInt32.lt_iff_toNat_lt, hlim, UInt32.toNat_add,
    hone]
  omega

theorem fsSeedExecFile_step {path data : List UInt8} (hne : data ≠ []) (hlen : data.length ≤ 512)
    {fs : Fs} (hr : fs.ata.ready = true) :
    SeedStep path data fs (fsSeedExecFile path data fs).2 := by
  obtain ⟨hone, hwrite⟩ := fsWriteData_one hne hlen fs
  have hres := fsSeedExecFile_result path data fs
  generalize fsSeedExecFile path data fs = r at hres ⊢
  -- the one command behind the space check, when the mark is on the device
  have hcmd : fs.superblock.nextFreeLba.toNat < 6144 → fsWriteData data fs =
      (fs.ata.outcome 0 == .ok, (fs.ata.skip 1).log (span fs.superblock.nextFreeLba.toNat
        ([Block.pad sectorSize data].take ((fs.ata.outcome 0).moved 1)))) := fun hlt => by
    rw [hwrite]
    exact ataWrite28_eq hr (ataSelect_of_lt (by omega) Nat.one_pos)
  have hroom : ∀ {i : Fin fsMaxInodes}, (fs.inodes i).used = 0 →
      fs.superblock.nextFreeLba.toNat < 6144 →
      ¬ (freeInodes fs.inodes = 0 ∨ 6144 ≤ fs.superblock.nextFreeLba.toNat) := fun hfree hlt => by
    rw [freeInodes_eq_zero]
    rintro (hnone | hhigh)
    · exact hnone _ hfree
    · omega
  have hrefused : ¬ fs.superblock.nextFreeLba.toNat < 6144 →
      fsNoSpace fs.superblock (sectorsOf data) = false →
      ataWrite28 fs.superblock.nextFreeLba [Block.pad sectorSize data] fs.ata =
        (false, fs.ata) := fun hhigh hspace => by
    have hmax : fs.superblock.nextFreeLba.toNat = 2 ^ 32 - 1 := by
      by_contra hne
      rw [(fsNoSpace_one hone).mpr ⟨by omega, hne⟩] at hspace
      cases hspace
    have hsel : ataSelectLba28 fs.superblock.nextFreeLba 1 = false := by
      have hgt : fs.superblock.nextFreeLba > 0x0fffffff := by
        rw [gt_iff_lt, UInt32.lt_iff_toNat_lt, hmax]; decide
      simp [ataSelectLba28, hgt]
    simp [ataWrite28, hsel]
  cases hres with
  | found i there => exact .found (by rw [there]; rfl)
  | noInode missing full =>
    exact .full fs.inodes (by rw [missing]; rfl) (Or.inl (freeInodes_eq_zero.mpr full))
      (SameFiles.refl _)
  | noSpace i t missing alloc space =>
    exact .full _ (by rw [missing]; rfl) (Or.inr ((fsNoSpace_one hone).mp space).1)
      (SameFiles.release (fsAllocInode_some alloc).1 rfl)
  | dataFault i t a missing alloc space wrote =>
    have hfree := (fsAllocInode_some alloc).1
    have hnone : (fsFindExec fs.inodes path).isNone = true := by rw [missing]; rfl
    have hsame := SameFiles.release (n := { seedInode path with used := 0 }) hfree rfl
    by_cases hlow : fs.superblock.nextFreeLba.toNat < 6144
    · rw [hcmd hlow, Prod.mk.injEq] at wrote
      obtain ⟨hout, rfl⟩ := wrote
      cases ho : fs.ata.outcome 0 with
      | ok => rw [ho] at hout; exact absurd hout (by decide)
      | fault moved =>
        have hspan : span fs.superblock.nextFreeLba.toNat
            ([Block.pad sectorSize data].take ((Outcome.fault moved).moved 1)) =
            if moved = 0 then [] else
              [(fs.superblock.nextFreeLba.toNat, Block.pad sectorSize data)] := by
          cases moved <;> simp [Outcome.moved, span]
        rw [hspan]
        exact .fault _ moved hnone (hroom hfree hlow) ho hsame
    · -- the largest mark: the address is refused and no command is sent
      rw [hwrite, hrefused hlow space, Prod.mk.injEq] at wrote
      obtain ⟨-, rfl⟩ := wrote
      exact .full _ hnone (Or.inr (by omega)) hsame
  | seeded i t a missing alloc space wrote =>
    have hfree := (fsAllocInode_some alloc).1
    by_cases hlow : fs.superblock.nextFreeLba.toNat < 6144
    · rw [hcmd hlow, Prod.mk.injEq] at wrote
      obtain ⟨hout, rfl⟩ := wrote
      have ho : fs.ata.outcome 0 = .ok := by simpa using hout
      rw [ho]
      exact .seeded i (by rw [missing]; rfl) (hroom hfree hlow) ho hfree
    · rw [hwrite, hrefused hlow space, Prod.mk.injEq] at wrote
      exact absurd wrote.1 (by simp)

/-- What seeding a list of files does, seen from the drive: it hits these sectors with images
    of the files, and disturbs nothing that was in use. -/
structure SeedRun (files : List (List UInt8 × List UInt8)) (fs fs' : Fs) (hits : List Nat) :
    Prop where
  writes : ∃ ws, fs'.ata.sector = applyWrites ws fs.ata.sector ∧ ws.map Prod.fst = hits ∧
    ∀ w ∈ ws, ∃ f ∈ files, w.2 = Block.pad sectorSize f.2
  ready : fs'.ata.ready = true
  kept : ∀ i, (fs.inodes i).used ≠ 0 → fs'.inodes i = fs.inodes i
  magic : fs'.superblock.magic = fs.superblock.magic
  version : fs'.superblock.version = fs.superblock.version

theorem SeedRun.cons {f : List UInt8 × List UInt8} {files : List (List UInt8 × List UInt8)}
    {fs fs₁ fs' : Fs} {hits : List Nat} (h : SeedRun files fs₁ fs' hits) (hw : Bool)
    {x : Nat} (hsec : fs₁.ata.sector =
      applyWrites (if hw then [(x, Block.pad sectorSize f.2)] else []) fs.ata.sector)
    (hkept : ∀ i, (fs.inodes i).used ≠ 0 → fs₁.inodes i = fs.inodes i)
    (hmagic : fs₁.superblock.magic = fs.superblock.magic)
    (hversion : fs₁.superblock.version = fs.superblock.version) :
    SeedRun (f :: files) fs fs' (if hw then x :: hits else hits) where
  writes := by
    obtain ⟨ws, hws, hfst, hmem⟩ := h.writes
    refine ⟨(if hw then [(x, Block.pad sectorSize f.2)] else []) ++ ws, ?_, ?_, ?_⟩
    · rw [applyWrites_append, hws, hsec]
    · cases hw <;> simp [hfst]
    · intro w hm
      rcases List.mem_append.mp hm with hm | hm
      · cases hw with
        | false => simp at hm
        | true => exact ⟨f, List.mem_cons_self, by rw [List.mem_singleton.mp hm]⟩
      · obtain ⟨g, hg, hval⟩ := hmem w hm
        exact ⟨g, List.mem_cons_of_mem _ hg, hval⟩
  ready := h.ready
  kept i hi := by
    have hsame := hkept i hi
    rw [h.kept i (by rwa [hsame]), hsame]
  magic := h.magic.trans hmagic
  version := h.version.trans hversion

/-- Seeding a list of files, one after the other. -/
def fsSeedFiles (files : List (List UInt8 × List UInt8)) (fs : Fs) : Fs :=
  files.foldl (fun fs f => if f.2 ≠ [] then (fsSeedExecFile f.1 f.2 fs).2 else fs) fs

/-- **Seeding, exactly**: over a drive with the outcomes `o` from command `k` on, one-sector
    files of distinct names hit the sectors `seedHits` says. -/
theorem fsSeedFiles_run (o : Nat → Outcome) :
    ∀ (files : List (List UInt8 × List UInt8)) (fs : Fs) (k : Nat),
      (∀ f ∈ files, f.2 ≠ [] ∧ f.2.length ≤ 512) →
      files.Pairwise (fun f g => (seedInode f.1).nameIs g.1 = false) →
      fs.ata.ready = true → (∀ l, fs.ata.outcome l = o (k + l)) →
      let r := seedHits o (missingFiles files fs.inodes) (freeInodes fs.inodes)
        fs.superblock.nextFreeLba.toNat k
      SeedRun files fs (fsSeedFiles files fs) r.1 ∧
        ∀ l, (fsSeedFiles files fs).ata.outcome l = o (r.2 + l)
  | [], fs, k, _, _, hr, ho => ⟨⟨⟨[], rfl, rfl, by simp⟩, hr, fun _ _ => rfl, rfl, rfl⟩, ho⟩
  | f :: files, fs, k, hfiles, hdist, hr, ho => by
    obtain ⟨hne, hlen⟩ := hfiles f List.mem_cons_self
    obtain ⟨hf, hdist⟩ := List.pairwise_cons.mp hdist
    have hrest := fun g hg => hfiles g (List.mem_cons_of_mem f hg)
    have hunfold : fsSeedFiles (f :: files) fs =
        fsSeedFiles files (fsSeedExecFile f.1 f.2 fs).2 := by
      simp only [fsSeedFiles, List.foldl_cons, if_pos hne]
    rw [hunfold]
    have hstep := @fsSeedExecFile_step f.1 f.2 hne hlen fs hr
    have hk : fs.ata.outcome 0 = o k := ho 0
    generalize (fsSeedExecFile f.1 f.2 fs).2 = fs₁ at hstep
    have hlater : ∀ a : Ata, (∀ l, a.outcome l = fs.ata.outcome (1 + l)) →
        ∀ l, a.outcome l = o (k + 1 + l) := fun a ha l => by
      rw [ha, ho, Nat.add_assoc]
    -- the rest is seeded over what this file left; a file that takes no sector leaves the count
    cases hstep with
    | found there =>
      have hcount : missingFiles (f :: files) fs.inodes = missingFiles files fs.inodes :=
        List.countP_cons_of_neg (by simp [there])
      rw [hcount]
      obtain ⟨hrun, hout⟩ := fsSeedFiles_run o files fs k hrest hdist hr ho
      exact ⟨hrun.cons false (x := 0) rfl (fun _ _ => rfl) rfl rfl, hout⟩
    | full t missing full same =>
      obtain ⟨hrun, hout⟩ :=
        fsSeedFiles_run o files { fs with inodes := t } k hrest hdist hr ho
      simp only [same.free, seedHits_full o full] at hrun hout
      simp only [seedHits_full o full]
      exact ⟨hrun.cons false (x := 0) rfl same.kept rfl rfl, hout⟩
    | fault t moved missing room outcome same =>
      have hcount : missingFiles (f :: files) fs.inodes = missingFiles files fs.inodes + 1 :=
        List.countP_cons_of_pos missing
      obtain ⟨hrun, hout⟩ := fsSeedFiles_run o files
        { fs with
          inodes := t
          ata := (fs.ata.skip 1).log (if moved = 0 then [] else
            [(fs.superblock.nextFreeLba.toNat, Block.pad sectorSize f.2)]) }
        (k + 1) hrest hdist hr (hlater _ fun l => by simp)
      simp only [same.free, same.missing] at hrun hout
      simp only [hcount, seedHits, if_neg room, ← hk, outcome]
      refine ⟨?_, hout⟩
      cases moved with
      | zero => exact hrun.cons false (x := 0) (Ata.sector_log _ _) same.kept rfl rfl
      | succ moved => exact hrun.cons true (Ata.sector_log _ _) same.kept rfl rfl
    | seeded i missing room outcome free =>
      have hcount : missingFiles (f :: files) fs.inodes = missingFiles files fs.inodes + 1 :=
        List.countP_cons_of_pos missing
      have hmark : (fs.superblock.nextFreeLba + sectorsOf f.2).toNat =
          fs.superblock.nextFreeLba.toNat + 1 := by
        rw [nextFreeLba_add_toNat (by omega), (fsWriteData_one hne hlen fs).1]
      have hleft := freeInodes_take (n := seededInode f.1 fs.superblock (bytesOf f.2)) free
        (by simp [seededInode, seedInode])
      have hmissing : missingFiles files (Function.update fs.inodes i
          (seededInode f.1 fs.superblock (bytesOf f.2))) = missingFiles files fs.inodes :=
        missingFiles_update free fun g hg _ => hf g hg
      obtain ⟨hrun, hout⟩ := fsSeedFiles_run o files
        { fs with
          inodes := Function.update fs.inodes i (seededInode f.1 fs.superblock (bytesOf f.2))
          superblock := { fs.superblock with
            nextFreeLba := fs.superblock.nextFreeLba + sectorsOf f.2 }
          ata := (fs.ata.skip 1).log
            [(fs.superblock.nextFreeLba.toNat, Block.pad sectorSize f.2)] }
        (k + 1) hrest hdist hr (hlater _ fun l => by simp)
      simp only [hmark, hmissing, Nat.eq_sub_of_add_eq hleft] at hrun hout
      simp only [hcount, seedHits, if_neg room, ← hk, outcome]
      exact ⟨hrun.cons true (Ata.sector_log _ _) (update_used free _) rfl rfl, hout⟩

theorem seedExecs_oneSector : ∀ f ∈ seedExecs, f.2 ≠ [] ∧ f.2.length ≤ 512 := by decide +kernel

theorem seedExecs_distinct :
    seedExecs.Pairwise fun f g => (seedInode f.1).nameIs g.1 = false := by decide +kernel

/-- No sector of a seeded file reads as a stored session, or as the superblock. -/
theorem seedExecs_image : ∀ f ∈ seedExecs,
    (∀ j : Fin 4, (inodeIn (Block.pad sectorSize f.2) j).isTrace = false) ∧
      (decodeSuperblock (Block.pad sectorSize f.2)).magic ≠ fsMagic := by decide +kernel

/-! ## Mounting, outcome by outcome

Behind the seeding both tables are flushed, whatever became of it. The flush of the table may stop
in any of its eight sectors, and the superblock is written only behind a whole one.
-/

theorem fsFlushInodes_eq {fs : Fs} (hr : fs.ata.ready = true) :
    fsFlushInodes fs = (fs.ata.outcome 0 == .ok, { fs with
      ata := (fs.ata.skip 1).log (span (fsStartLba.toNat + 1)
        ((encodeTable fs.inodes).take ((fs.ata.outcome 0).moved 8))) }) := by
  have hsel : ataSelectLba28 (fsStartLba + 1) (encodeTable fs.inodes).length = true := by
    rw [length_encodeTable]; decide
  have hlba : (fsStartLba + 1).toNat = fsStartLba.toNat + 1 := by decide
  rw [fsFlushInodes, ataWrite28_eq hr hsel, length_encodeTable, hlba]

theorem fsFlushSuperblock_eq {fs : Fs} (hr : fs.ata.ready = true) :
    fsFlushSuperblock fs = (fs.ata.outcome 0 == .ok, { fs with
      ata := (fs.ata.skip 1).log (span fsStartLba.toNat
        ([encodeSuperblock fs.superblock].take ((fs.ata.outcome 0).moved 1))) }) := by
  have hsel : ataSelectLba28 fsStartLba [encodeSuperblock fs.superblock].length = true := by
    rw [List.length_singleton]; decide
  rw [fsFlushSuperblock, ataWrite28_eq hr hsel, List.length_singleton]

/-- **A mount, as the drive sees it**: the seeded files, as much of the table as its flush
    moves, and the superblock if its flush moves it. -/
theorem fsMount_writes {o : Nat → Outcome} {k : Nat} {m : Fs} {r : List Nat × Nat}
    (hr : m.ata.ready = true) (ho : ∀ l, m.ata.outcome l = o (k + l))
    (hseed : seedHits o (missingFiles seedExecs m.inodes) (freeInodes m.inodes)
      m.superblock.nextFreeLba.toNat k = r) :
    ∃ ws, ws.map Prod.fst = r.1 ∧
      (∀ w ∈ ws, ∃ f ∈ seedExecs, w.2 = Block.pad sectorSize f.2) ∧
      (∀ i, (m.inodes i).used ≠ 0 → (fsMount m).inodes i = m.inodes i) ∧
      (fsMount m).superblock.magic = m.superblock.magic ∧
      (fsMount m).superblock.version = m.superblock.version ∧
      (fsMount m).ata.sector =
        applyWrites (span fsStartLba.toNat
            ([encodeSuperblock (fsMount m).superblock].take ((o (r.2 + 1)).moved 1)))
          (applyWrites (span (fsStartLba.toNat + 1)
              ((encodeTable (fsMount m).inodes).take ((o r.2).moved 8)))
            (applyWrites ws m.ata.sector)) := by
  obtain ⟨hrun, hout⟩ := fsSeedFiles_run o seedExecs { m with online := true } k
    seedExecs_oneSector seedExecs_distinct hr ho
  rw [hseed] at hrun hout
  obtain ⟨ws, hws, hhits, hval⟩ := hrun.writes
  have hino : (fsMount m).inodes = (fsSeedFiles seedExecs { m with online := true }).inodes :=
    fsMount_inodes m
  have hsup : (fsMount m).superblock =
      (fsSeedFiles seedExecs { m with online := true }).superblock := fsMount_superblock m
  generalize hfs : fsSeedFiles seedExecs { m with online := true } = fs at *
  have hmount : fsMount m = (fsFlushSuperblock (fsFlushInodes fs).2).2 := by rw [← hfs]; rfl
  refine ⟨ws, hhits, hval, by rw [hino]; exact hrun.kept, by rw [hsup]; exact hrun.magic,
    by rw [hsup]; exact hrun.version, ?_⟩
  have h0 : fs.ata.outcome 0 = o r.2 := hout 0
  have h1 : fs.ata.outcome 1 = o (r.2 + 1) := hout 1
  rw [hsup, hino, hmount, fsFlushInodes_eq hrun.ready, fsFlushSuperblock_eq (by exact hrun.ready)]
  simp only [Ata.sector_log, Ata.skip_sector, Ata.log_outcome, Ata.skip_outcome,
    Ata.log_skip, Ata.skip_skip, h0, h1, hws, Nat.add_zero]

/-! ## What a later boot finds

Whether a session has survived is asked of the next boot and not of this one, which may still have
it in memory. That boot has a drive that answers, so what it finds is a matter of the image alone.
-/

theorem fsSeedExecs_used {fs : Fs} {i : Fin fsMaxInodes} (h : (fs.inodes i).used ≠ 0) :
    (fsSeedExecs fs).inodes i = fs.inodes i := by
  refine fsSeedExecs_induction (P := fun m => m.inodes i = fs.inodes i) rfl
    fun path data m _ hm => ?_
  have hother : ∀ {j t} {n : Inode}, fsAllocInode m.inodes = some (j, t) →
      Function.update m.inodes j n i = fs.inodes i := fun halloc => by
    rw [update_used (fsAllocInode_some halloc).1 _ i (by rwa [hm]), hm]
  have hres := fsSeedExecFile_result path data m
  generalize fsSeedExecFile path data m = r at hres ⊢
  cases hres with
  | found => exact hm
  | noInode => exact hm
  | noSpace j t missing alloc => exact hother alloc
  | dataFault j t a missing alloc => exact hother alloc
  | seeded j t a missing alloc => exact hother alloc

/-- Seeding stores no sessions. -/
theorem fsSeedExecs_noTrace {fs : Fs} (h : ∀ i, (fs.inodes i).isTrace = false) :
    ∀ i, ((fsSeedExecs fs).inodes i).isTrace = false := by
  refine fsSeedExecs_induction (P := fun m => ∀ i, (m.inodes i).isTrace = false) h
    fun path data m _ hm => ?_
  have hother : ∀ (j : Fin fsMaxInodes) (n : Inode), n.isTrace = false →
      ∀ i, (Function.update m.inodes j n i).isTrace = false := fun j n hn i => by
    by_cases hi : i = j
    · subst hi; rwa [Function.update_self]
    · rw [Function.update_of_ne hi]; exact hm i
  have hres := fsSeedExecFile_result path data m
  generalize fsSeedExecFile path data m = r at hres ⊢
  cases hres with
  | found => exact hm
  | noInode => exact hm
  | noSpace j => exact hother j _ (isTrace_free rfl)
  | dataFault j => exact hother j _ (isTrace_free rfl)
  | seeded j => exact hother j _ (by
      simp [Inode.isTrace, seededInode, seedInode, inodeTypeExec, inodeTypeTrace])

/-- A failure-free boot finds every inode of the table it is given. -/
theorem fsBoot_finds {a : Ata} (hf : Formatted a.sector) {i : Fin fsMaxInodes}
    (hi : (diskInodes a.sector i).used ≠ 0) :
    (fsBoot (a.withScript [])).inodes i = diskInodes a.sector i := by
  have hboot : fsBoot (a.withScript []) = fsMount (loadedFs (a.withScript [])) := fsBoot_formatted rfl hf
  rw [hboot, fsMount_inodes]
  generalize hm : ({ loadedFs (a.withScript []) with online := true } : Fs) = m
  have hsame : m.inodes i = diskInodes a.sector i := by rw [← hm]; rfl
  rw [fsSeedExecs_used (by rw [hsame]; exact hi), hsame]

/-- And no session at all on a drive it does not recognise. -/
theorem fsBoot_finds_none {a : Ata} (hf : ¬ Formatted a.sector) (i : Fin fsMaxInodes) :
    ((fsBoot (a.withScript [])).inodes i).isTrace = false := by
  obtain ⟨b, -, hboot⟩ := fsBoot_unformatted (a := a.withScript []) rfl hf
  rw [hboot, fsMount_inodes]
  exact fsSeedExecs_noTrace (fun _ => by simp [Inode.isTrace, Inode.zero]) i

/-- A mount of a store without sessions, its mark in the data area, stores none. -/
theorem fsMount_noTrace {m : Fs} (hr : m.ata.ready = true)
    (hbase : fsDataStartLba ≤ m.superblock.nextFreeLba)
    (hmem : ∀ i, (m.inodes i).isTrace = false)
    (hdisk : ∀ i, (diskInodes m.ata.sector i).isTrace = false) (i : Fin fsMaxInodes) :
    (diskInodes (fsMount m).ata.sector i).isTrace = false := by
  obtain ⟨ws, hhits, -, -, -, -, hsec⟩ :=
    fsMount_writes hr (fun l => (congrArg m.ata.outcome (Nat.zero_add l)).symm) rfl
  have hbase : fsDataStartLba.toNat ≤ m.superblock.nextFreeLba.toNat := hbase
  have hws : ∀ w ∈ ws, w.1 < fsStartLba.toNat + 1 ∨ fsDataStartLba.toNat ≤ w.1 := fun w hw => by
    have hmemw : w.1 ∈ ws.map Prod.fst := List.mem_map_of_mem hw
    rw [hhits] at hmemw
    have := seedHits_ge _ _ _ _ _ _ hmemw
    exact Or.inr (by omega)
  have hsb : ∀ w ∈ span fsStartLba.toNat ([encodeSuperblock (fsMount m).superblock].take
      ((m.ata.outcome ((seedHits m.ata.outcome (missingFiles seedExecs m.inodes)
        (freeInodes m.inodes) m.superblock.nextFreeLba.toNat 0).2 + 1)).moved 1)),
      w.1 < fsStartLba.toNat + 1 ∨ fsDataStartLba.toNat ≤ w.1 := fun w hw => by
    have := mem_span hw
    simp only [List.length_take, List.length_singleton] at this
    omega
  rw [hsec, diskInodes_frame hsb, diskInodes_flush_take, diskInodes_frame hws]
  split
  · rw [fsMount_inodes]
    exact @fsSeedExecs_noTrace { m with online := true } hmem i
  · exact hdisk i

/-- **The sessions survive a boot**: each of them is still in the table on the drive, and a
    later failure-free mount finds it. -/
def SessionsSurvive (a : Ata) : Prop :=
  ∀ i, (diskInodes a.sector i).isTrace = true →
    diskInodes (fsBoot a).ata.sector i = diskInodes a.sector i ∧
      (fsBoot ((fsBoot a).ata.withScript [])).inodes i = diskInodes a.sector i

theorem sessionsSurvive_iff {a : Ata} : SessionsSurvive a ↔
    ∀ i, (diskInodes a.sector i).isTrace = true →
      diskInodes (fsBoot a).ata.sector i = diskInodes a.sector i ∧
        Formatted (fsBoot a).ata.sector := by
  refine forall_congr' fun i => imp_congr_right fun hi => and_congr_right fun hsame => ?_
  by_cases hf : Formatted (fsBoot a).ata.sector
  · refine iff_of_true ?_ hf
    rw [fsBoot_finds hf (by rw [hsame]; exact isTrace_used hi), hsame]
  · refine iff_of_false (fun h => ?_) hf
    have hnone := fsBoot_finds_none hf i
    rw [h, hi] at hnone
    cases hnone

/-! ## The exact condition

The two ways of losing a session exclude one another, since a boot that formats has not read a mark
to seed from. Each is a predicate on the drive before the boot and the outcomes it has in store.
-/

/-- The command the superblock's rewrite is, when the load of a format-happy boot failed. -/
def formatAt (a : Ata) : Nat := if Completes a 1 then 3 else 2

/-- A read of the load fails, the cleared superblock is written, and the cleared table is
    written at least up to a sector with a session in it. -/
structure FormatWipes (a : Ata) : Prop where
  ready : Completes a 0
  misread : ¬ (Completes a 1 ∧ Completes a 2)
  cleared : Completes a (formatAt a)
  reaches : ∃ i, (diskInodes a.sector i).isTrace = true ∧
    (inodeSector i).val < (a.outcome (formatAt a + 1)).moved 8

/-- The sectors a boot that read its tables seeds, and the command it flushes them with. -/
def bootSeedHits (a : Ata) : List Nat × Nat :=
  seedHits a.outcome (missingFiles seedExecs (diskInodes a.sector))
    (freeInodes (diskInodes a.sector)) (diskSuperblock a.sector).nextFreeLba.toNat 3

/-- A seeded file lands on the table sector of a session, or on the superblock, and the flush
    behind it does not get to rewrite it. -/
structure SeedWipes (a : Ata) : Prop where
  ready : Completes a 0
  loaded : Completes a 1 ∧ Completes a 2
  reaches : ∃ i, (diskInodes a.sector i).isTrace = true ∧
    (fsStartLba.toNat + 1 + inodeSector i ∈ (bootSeedHits a).1 ∧
        (a.outcome (bootSeedHits a).2).moved 8 ≤ inodeSector i ∨
      fsStartLba.toNat ∈ (bootSeedHits a).1 ∧
        (a.outcome ((bootSeedHits a).2 + 1)).moved 1 = 0)

/-- No seeded file reaches the tables from a mark in the data area. -/
theorem SeedWipes.lowMark {a : Ata} (h : SeedWipes a) :
    (diskSuperblock a.sector).nextFreeLba < fsDataStartLba := by
  obtain ⟨i, -, hhit⟩ := h.reaches
  have hsec : (inodeSector i).val < 8 := (inodeSector i).isLt
  have hstop : fsDataStartLba.toNat = fsStartLba.toNat + 1 + 8 := by decide
  rw [UInt32.lt_iff_toNat_lt]
  rcases hhit with ⟨hmem, -⟩ | ⟨hmem, -⟩
  · have := seedHits_ge _ _ _ _ _ _ hmem
    omega
  · have := seedHits_ge _ _ _ _ _ _ hmem
    omega

theorem ataInit_eq (a : Ata) :
    ataInit a = { a.skip 1 with ready := a.outcome 0 == .ok } := by
  simp only [ataInit, Ata.next_eq]
  cases a.outcome 0 <;> simp

/-- A load over a ready drive. -/
theorem fsLoad_eq {fs : Fs} (hr : fs.ata.ready = true) :
    (Completes fs.ata 0 ∧ Completes fs.ata 1 → fsLoad fs = (true, { fs with
      superblock := diskSuperblock fs.ata.sector, inodes := diskInodes fs.ata.sector
      ata := fs.ata.skip 2 })) ∧
    (¬ (Completes fs.ata 0 ∧ Completes fs.ata 1) → ∃ s t, fsLoad fs = (false, { fs with
      superblock := s, inodes := t
      ata := fs.ata.skip (if Completes fs.ata 0 then 2 else 1) })) := by
  obtain ⟨ss, hsb, hss⟩ := ataRead28_eq hr (show ataSelectLba28 fsStartLba 1 = true by decide)
  obtain ⟨ts, htab, hts⟩ := @ataRead28_eq (fs.ata.skip 1) hr (fsStartLba + 1) fsInodeSectors
    (by decide)
  have hlba : (fsStartLba + 1).toNat = fsStartLba.toNat + 1 := by decide
  rw [Ata.skip_outcome, Ata.skip_skip] at htab
  rw [Ata.skip_outcome, Ata.skip_sector, hlba] at hts
  by_cases h0 : Completes fs.ata 0
  · have hok : (fs.ata.outcome 0 == .ok) = true := by rw [h0]; rfl
    rw [hok] at hsb
    by_cases h1 : Completes fs.ata 1
    · have hok1 : (fs.ata.outcome (1 + 0) == .ok) = true := by
        rw [show fs.ata.outcome (1 + 0) = .ok from h1]; rfl
      refine ⟨fun _ => ?_, fun h => absurd ⟨h0, h1⟩ h⟩
      simp only [fsLoad, hsb, htab, hok1, hss h0, hts h1, loadInodes_readSpan]
      rfl
    · have hbad : (fs.ata.outcome (1 + 0) == .ok) = false := by simpa [Completes] using h1
      refine ⟨fun h => absurd h.2 h1, fun _ => ⟨loadSuperblock ss fs.superblock,
        loadInodes ts fs.inodes, ?_⟩⟩
      simp only [fsLoad, hsb, htab, hbad, if_pos h0]
  · have hbad : (fs.ata.outcome 0 == .ok) = false := by simpa [Completes] using h0
    rw [hbad] at hsb
    refine ⟨fun h => absurd h.1 h0, fun _ => ⟨loadSuperblock ss fs.superblock, fs.inodes, ?_⟩⟩
    simp only [fsLoad, hsb, if_neg h0]

/-- A format over a ready drive: the superblock, and behind it as much of the cleared table as
    its flush moves. -/
theorem fsFormat_eq {fs : Fs} (hr : fs.ata.ready = true) :
    (¬ Completes fs.ata 0 → fsFormat fs = (false, { fsCleared fs with
      ata := (fs.ata.skip 1).log (span fsStartLba.toNat
        ([encodeSuperblock formattedSuperblock].take ((fs.ata.outcome 0).moved 1))) })) ∧
    (Completes fs.ata 0 → fsFormat fs = (fs.ata.outcome 1 == .ok, { fsCleared fs with
      ata := (fs.ata.skip 2).log (span fsStartLba.toNat [encodeSuperblock formattedSuperblock] ++
        span (fsStartLba.toNat + 1)
          ((encodeTable fun _ => Inode.zero).take ((fs.ata.outcome 1).moved 8))) })) := by
  have hsb : fsFlushSuperblock (fsCleared fs) = _ := fsFlushSuperblock_eq hr
  have hata : (fsCleared fs).ata = fs.ata := rfl
  rw [fsFormat_cleared, hsb]
  constructor
  · intro h0
    have hbad : ((fsCleared fs).ata.outcome 0 == .ok) = false := by
      rw [hata]; simpa [Completes] using h0
    rw [hbad]
    rfl
  · intro h0
    have hok : ((fsCleared fs).ata.outcome 0 == .ok) = true := by
      rw [hata]; simpa [Completes] using h0
    rw [hok]
    simp only
    rw [fsFlushInodes_eq (by exact hr)]
    have hfirst : (fsCleared fs).ata.outcome 0 = .ok := h0
    simp only [hfirst, Outcome.moved, Ata.log_outcome, Ata.skip_outcome, Ata.log_skip,
      Ata.skip_skip, Ata.log_log]
    rfl

/-- Memory when `fs_load` is called at boot. -/
def fsStarting (a : Ata) : Fs where
  superblock := Superblock.zero
  inodes := fun _ => Inode.zero
  online := false
  ata := ataInit a

theorem fsBoot_eq (a : Ata) : fsBoot a =
    if !(ataInit a).ready then fsStarting a
    else
      let (loaded, fs) := fsLoad (fsStarting a)
      if !loaded || fs.superblock.magic != fsMagic || fs.superblock.version != fsVersion then
        match fsFormat fs with
        | (false, fs) => fs
        | (true, fs) =>
          match fsLoad fs with
          | (false, fs) => fs
          | (true, fs) => fsMount fs
      else fsMount fs := by
  simp only [fsBoot, fsInit, fsStarting, ataIsReady]
  rfl

theorem fsBoot_notReady {a : Ata} (h : ¬ Completes a 0) : (fsBoot a).ata.sector = a.sector := by
  have hbad : (a.outcome 0 == .ok) = false := by simpa [Completes] using h
  rw [fsBoot_eq, ataInit_eq, hbad, Bool.not_false, if_pos rfl]
  exact ataInit_sector a

/-- A boot that reads its tables mounts them. -/
theorem fsBoot_loaded {a : Ata} (hf : Formatted a.sector) (h0 : Completes a 0)
    (h1 : Completes a 1) (h2 : Completes a 2) :
    fsBoot a = fsMount
      { superblock := diskSuperblock a.sector, inodes := diskInodes a.sector, online := false
        ata := { a.skip 3 with ready := true } } := by
  have hok : (a.outcome 0 == .ok) = true := by simpa [Completes] using h0
  have hinit : ataInit a = { a.skip 1 with ready := true } := by rw [ataInit_eq, hok]
  have hstart : (fsStarting a).ata = { a.skip 1 with ready := true } := hinit
  have hcomp : ∀ l, Completes (fsStarting a).ata l ↔ Completes a (1 + l) := fun l => by
    rw [Completes, Completes, ← Ata.skip_outcome, hstart]; rfl
  have hload := (@fsLoad_eq (fsStarting a) (by rw [hstart])).1
    ⟨(hcomp 0).mpr h1, (hcomp 1).mpr h2⟩
  have hsec : (fsStarting a).ata.sector = a.sector := ataInit_sector a
  have hskip : (fsStarting a).ata.skip 2 = { a.skip 3 with ready := true } := by
    rw [hstart]; simp [Ata.skip]
  rw [hsec, hskip] at hload
  have hready : (ataInit a).ready = true := by rw [hinit]
  rw [fsBoot_eq, hready, Bool.not_true, if_neg (by simp), hload]
  simp only [hf.1, hf.2, bne_self_eq_false, Bool.or_self, Bool.not_true, Bool.false_eq_true,
    if_false]
  rfl

/-- **A boot that cannot read its tables** formats the drive, as far as its writes go. -/
theorem fsBoot_misread {a : Ata} (hf : Formatted a.sector) (h0 : Completes a 0)
    (hmis : ¬ (Completes a 1 ∧ Completes a 2)) :
    (¬ Completes a (formatAt a) → Formatted (fsBoot a).ata.sector ∧
      diskInodes (fsBoot a).ata.sector = diskInodes a.sector) ∧
    (Completes a (formatAt a) → ¬ Completes a (formatAt a + 1) →
      Formatted (fsBoot a).ata.sector ∧
      ∀ i, diskInodes (fsBoot a).ata.sector i =
        if (inodeSector i).val < (a.outcome (formatAt a + 1)).moved 8 then Inode.zero
        else diskInodes a.sector i) ∧
    (Completes a (formatAt a) → Completes a (formatAt a + 1) →
      ∀ i, (diskInodes (fsBoot a).ata.sector i).isTrace = false) := by
  have hok : (a.outcome 0 == .ok) = true := by simpa [Completes] using h0
  have hinit : ataInit a = { a.skip 1 with ready := true } := by rw [ataInit_eq, hok]
  have hstart : (fsStarting a).ata = { a.skip 1 with ready := true } := hinit
  have hcomp : ∀ l, Completes (fsStarting a).ata l ↔ Completes a (1 + l) := fun l => by
    rw [Completes, Completes, ← Ata.skip_outcome, hstart]; rfl
  have hready : (ataInit a).ready = true := by rw [hinit]
  obtain ⟨s, t, hload⟩ := (@fsLoad_eq (fsStarting a) (by rw [hstart])).2 fun h =>
    hmis ⟨(hcomp 0).mp h.1, (hcomp 1).mp h.2⟩
  have hskip : (fsStarting a).ata.skip (if Completes (fsStarting a).ata 0 then 2 else 1) =
      { a.skip (formatAt a) with ready := true } := by
    rw [hstart, formatAt]
    have := hcomp 0
    rw [hstart] at this
    by_cases h1 : Completes a 1
    · rw [if_pos (this.mpr h1), if_pos h1]; simp [Ata.skip]
    · rw [if_neg (fun h => h1 (this.mp h)), if_neg h1]; simp [Ata.skip]
  rw [hskip] at hload
  -- the filesystem `fs_format` is called on
  generalize hm : ({ fsStarting a with
    superblock := s, inodes := t, ata := { a.skip (formatAt a) with ready := true } } : Fs) = m
    at hload
  have hboot : fsBoot a = match fsFormat m with
      | (false, fs) => fs
      | (true, fs) =>
        match fsLoad fs with
        | (false, fs) => fs
        | (true, fs) => fsMount fs := by
    rw [fsBoot_eq, hready, Bool.not_true, if_neg (by simp), hload]
    simp
  have hmr : m.ata.ready = true := by rw [← hm]
  have hmsec : m.ata.sector = a.sector := by rw [← hm]; rfl
  have hmout : ∀ l, m.ata.outcome l = a.outcome (formatAt a + l) := fun l => by
    rw [← Ata.skip_outcome, ← hm]; rfl
  have hm0 : Completes m.ata 0 ↔ Completes a (formatAt a) := by
    rw [Completes, hmout]; rfl
  obtain ⟨hbad, hgood⟩ := fsFormat_eq hmr
  rw [hboot]
  refine ⟨fun h => ?_, fun h hn => ?_, fun h hn => ?_⟩
  · rw [hbad (fun hc => h (hm0.mp hc))]
    simp only [Ata.sector_log, Ata.skip_sector, hmsec]
    refine ⟨?_, diskInodes_frame (fun w hw => ?_) _⟩
    · cases (m.ata.outcome 0).moved 1 with
      | zero => exact hf
      | succ k =>
        rw [List.take_of_length_le (by simp), Formatted, diskSuperblock_flush]
        decide
    · have := mem_span hw
      simp only [List.length_take, List.length_singleton] at this
      omega
  · rw [hgood (hm0.mpr h), show (m.ata.outcome 1 == .ok) = false by
      rw [hmout]; simpa [Completes] using hn]
    simp only [Ata.sector_log, Ata.skip_sector, hmsec, applyWrites_append, hmout]
    refine ⟨?_, fun i => ?_⟩
    · rw [Formatted, diskSuperblock_frame (fun w hw => by have := mem_span hw; omega),
        diskSuperblock_flush]
      decide
    · rw [diskInodes_flush_take, diskInodes_frame fun w hw => ?_]
      have := mem_span hw
      simp only [List.length_singleton] at this
      omega
  · have hformat := fsFormat_spec m
    rw [hgood (hm0.mpr h), show (m.ata.outcome 1 == .ok) = true by
      rw [hmout]; simpa [Completes] using hn] at hformat ⊢
    obtain ⟨-, -, -, hfready, hdisk⟩ := hformat
    generalize ({ fsCleared m with ata := _ } : Fs) = m' at hfready hdisk ⊢
    obtain ⟨hdsup, hdino⟩ := hdisk rfl
    obtain ⟨-, hlsec, hlready, hlload⟩ := fsLoad_spec m'
    have hdnone : ∀ i, (diskInodes m'.ata.sector i).isTrace = false := fun i => by
      rw [hdino]; simp [Inode.isTrace, Inode.zero]
    cases hl : fsLoad m' with
    | mk ok m'' =>
    rw [hl] at hlsec hlready hlload
    simp only [hl]
    cases ok with
    | false => simp only at hlsec ⊢; rw [hlsec]; exact hdnone
    | true =>
      obtain ⟨hsup, hino⟩ := hlload rfl
      simp only at hlsec hlready hsup hino
      refine fsMount_noTrace (by rw [hlready, hfready, hmr]) (by rw [hsup, hdsup]; decide)
        (fun i => by rw [hino]; exact hdnone i) (by rw [hlsec]; exact hdnone)

theorem mem_hits {α : Type} {ws : List (Nat × α)} {hits : List Nat}
    (h : ws.map Prod.fst = hits) {x : Nat} : x ∈ hits ↔ ∃ w ∈ ws, w.1 = x := by
  rw [← h, List.mem_map]

theorem fsBoot_loaded_writes {a : Ata} (hf : Formatted a.sector) (h0 : Completes a 0)
    (h1 : Completes a 1) (h2 : Completes a 2) :
    ∃ ws, ws.map Prod.fst = (bootSeedHits a).1 ∧
      (∀ w ∈ ws, ∃ f ∈ seedExecs, w.2 = Block.pad sectorSize f.2) ∧
      (∀ i, (diskInodes a.sector i).used ≠ 0 → (fsBoot a).inodes i = diskInodes a.sector i) ∧
      (fsBoot a).superblock.magic = (diskSuperblock a.sector).magic ∧
      (fsBoot a).superblock.version = (diskSuperblock a.sector).version ∧
      (fsBoot a).ata.sector =
        applyWrites (span fsStartLba.toNat ([encodeSuperblock (fsBoot a).superblock].take
            ((a.outcome ((bootSeedHits a).2 + 1)).moved 1)))
          (applyWrites (span (fsStartLba.toNat + 1) ((encodeTable (fsBoot a).inodes).take
              ((a.outcome (bootSeedHits a).2).moved 8)))
            (applyWrites ws a.sector)) := by
  generalize hm : ({ superblock := diskSuperblock a.sector, inodes := diskInodes a.sector
                     online := false, ata := { a.skip 3 with ready := true } } : Fs) = m
  have hboot : fsBoot a = fsMount m := by rw [← hm]; exact fsBoot_loaded hf h0 h1 h2
  have hsup : m.superblock = diskSuperblock a.sector := by rw [← hm]
  have hino : m.inodes = diskInodes a.sector := by rw [← hm]
  have hsec : m.ata.sector = a.sector := by rw [← hm]; rfl
  have hout : ∀ l, m.ata.outcome l = a.outcome (3 + l) := fun l => by
    rw [← Ata.skip_outcome, ← hm]; rfl
  have hwrites := fsMount_writes (r := bootSeedHits a) (by rw [← hm]) hout
    (by rw [hsup, hino, bootSeedHits])
  rwa [hsup, hino, hsec, ← hboot] at hwrites

/-- The loaded case: which sessions the seeding and the flushes behind it leave. -/
theorem fsBoot_loaded_survives {a : Ata} (hf : Formatted a.sector) (h0 : Completes a 0)
    (h1 : Completes a 1) (h2 : Completes a 2) {i : Fin fsMaxInodes}
    (hi : (diskInodes a.sector i).isTrace = true) :
    (diskInodes (fsBoot a).ata.sector i = diskInodes a.sector i ∧
      Formatted (fsBoot a).ata.sector) ↔
    ¬ (fsStartLba.toNat + 1 + inodeSector i ∈ (bootSeedHits a).1 ∧
        (a.outcome (bootSeedHits a).2).moved 8 ≤ inodeSector i ∨
      fsStartLba.toNat ∈ (bootSeedHits a).1 ∧
        (a.outcome ((bootSeedHits a).2 + 1)).moved 1 = 0) := by
  obtain ⟨ws, hhits, hval, hkept, hmagic, hversion, hsec⟩ :=
    fsBoot_loaded_writes hf h0 h1 h2
  -- a cell the seeding did not hit, and one it did
  have hmiss : ∀ x, x ∉ (bootSeedHits a).1 → applyWrites ws a.sector x = a.sector x :=
    fun x hx => applyWrites_frame (fun w hw hwx => hx ((mem_hits hhits).mpr ⟨w, hw, hwx⟩)) _
  have hhit : ∀ x, x ∈ (bootSeedHits a).1 →
      ∃ f ∈ seedExecs, applyWrites ws a.sector x = Block.pad sectorSize f.2 := fun x hx => by
    obtain ⟨w, hw, -, hwv⟩ := applyWrites_hit ((mem_hits hhits).mp hx) a.sector
    obtain ⟨f, hfm, hfv⟩ := hval w hw
    exact ⟨f, hfm, hwv.trans hfv⟩
  have hinode : diskInodes (fsBoot a).ata.sector i = diskInodes a.sector i ↔
      ¬ (fsStartLba.toNat + 1 + inodeSector i ∈ (bootSeedHits a).1 ∧
        (a.outcome (bootSeedHits a).2).moved 8 ≤ inodeSector i) := by
    have hsb : ∀ w ∈ span fsStartLba.toNat
        (List.take ((a.outcome ((bootSeedHits a).2 + 1)).moved 1)
          [encodeSuperblock (fsBoot a).superblock]),
        w.1 < fsStartLba.toNat + 1 ∨ fsDataStartLba.toNat ≤ w.1 := fun w hw => by
      have := mem_span hw
      simp only [List.length_take, List.length_singleton] at this
      omega
    rw [hsec, diskInodes_frame hsb, diskInodes_flush_take]
    split
    · rename_i hlt
      exact iff_of_true (hkept i (isTrace_used hi)) fun h => by omega
    · rename_i hge
      by_cases hx : fsStartLba.toNat + 1 + inodeSector i ∈ (bootSeedHits a).1
      · obtain ⟨f, hfm, hfv⟩ := hhit _ hx
        refine iff_of_false (fun h => ?_) (not_not_intro ⟨hx, by omega⟩)
        rw [← h, diskInodes, hfv,
          (seedExecs_image f hfm).1 ⟨i % 4, Nat.mod_lt _ (by decide)⟩] at hi
        cases hi
      · refine iff_of_true ?_ fun h => hx h.1
        rw [diskInodes, hmiss _ hx, diskInodes]
  have hformatted : Formatted (fsBoot a).ata.sector ↔
      ¬ (fsStartLba.toNat ∈ (bootSeedHits a).1 ∧
        (a.outcome ((bootSeedHits a).2 + 1)).moved 1 = 0) := by
    rw [hsec]
    cases hm : (a.outcome ((bootSeedHits a).2 + 1)).moved 1 with
    | succ k =>
      rw [List.take_of_length_le (by simp), Formatted, diskSuperblock_flush, hmagic, hversion]
      exact iff_of_true hf (by simp)
    | zero =>
      have htable : diskSuperblock (applyWrites (span (fsStartLba.toNat + 1)
          ((encodeTable (fsBoot a).inodes).take ((a.outcome (bootSeedHits a).2).moved 8)))
            (applyWrites ws a.sector)) =
          decodeSuperblock (applyWrites ws a.sector fsStartLba.toNat) := by
        rw [diskSuperblock_frame, diskSuperblock]
        intro w hw
        have := mem_span hw
        omega
      rw [List.take_zero, span, applyWrites_nil, Formatted, htable]
      by_cases hx : fsStartLba.toNat ∈ (bootSeedHits a).1
      · obtain ⟨f, hfm, hfv⟩ := hhit _ hx
        refine iff_of_false (fun h => ?_) (not_not_intro ⟨hx, rfl⟩)
        rw [hfv] at h
        exact (seedExecs_image f hfm).2 h.1
      · rw [hmiss _ hx]
        exact iff_of_true hf fun h => hx h.1
  rw [hinode, hformatted, not_or]

/-- **Mounting destroys no recordings**, unless a misread makes it format up to one, or a mark
    below the data area makes it seed over one.

    `hf` says that there is something to lose. The drive's course is in `a`, and both conditions are
    read off it command by command; neither speaks of the sessions themselves but in so far as a
    write lands on one. -/
theorem sessionsSurvive_iff_not_wiped {a : Ata} (hf : Formatted a.sector) :
    SessionsSurvive a ↔ ¬ FormatWipes a ∧ ¬ SeedWipes a := by
  rw [sessionsSurvive_iff]
  -- the drive is there or not, the tables were read or not, and the format came so far
  by_cases h0 : Completes a 0
  · by_cases h12 : Completes a 1 ∧ Completes a 2
    · have hformat : ¬ FormatWipes a := fun h => h.misread h12
      refine ⟨fun h => ⟨hformat, fun hs => ?_⟩, fun h i hi => ?_⟩
      · obtain ⟨i, hi, hhit⟩ := hs.reaches
        exact (fsBoot_loaded_survives hf h0 h12.1 h12.2 hi).mp (h i hi) hhit
      · exact (fsBoot_loaded_survives hf h0 h12.1 h12.2 hi).mpr fun hhit =>
          h.2 ⟨h0, h12, i, hi, hhit⟩
    · have hseed : ¬ SeedWipes a := fun h => h12 h.loaded
      obtain ⟨hnone, hpart, hall⟩ := fsBoot_misread hf h0 h12
      by_cases hb : Completes a (formatAt a)
      · by_cases hn : Completes a (formatAt a + 1)
        · have hmoved : (a.outcome (formatAt a + 1)).moved 8 = 8 := by
            rw [show a.outcome (formatAt a + 1) = .ok from hn]; rfl
          refine ⟨fun h => ⟨fun hw => ?_, hseed⟩, fun h i hi => ?_⟩
          · obtain ⟨i, hi, -⟩ := hw.reaches
            have hgone := hall hb hn i
            rw [(h i hi).1, hi] at hgone
            cases hgone
          · exact absurd ⟨h0, h12, hb, i, hi, by rw [hmoved]; exact (inodeSector i).isLt⟩ h.1
        · obtain ⟨hformatted, htable⟩ := hpart hb hn
          refine ⟨fun h => ⟨fun hw => ?_, hseed⟩, fun h i hi => ⟨?_, hformatted⟩⟩
          · obtain ⟨i, hi, hlt⟩ := hw.reaches
            have hgone := (h i hi).1
            rw [htable, if_pos hlt] at hgone
            rw [← hgone] at hi
            exact absurd hi (by simp [Inode.isTrace, Inode.zero])
          · rw [htable, if_neg fun hlt => h.1 ⟨h0, h12, hb, i, hi, hlt⟩]
      · obtain ⟨hformatted, htable⟩ := hnone hb
        exact iff_of_true (fun i _ => ⟨congrFun htable i, hformatted⟩)
          ⟨fun h => hb h.cleared, hseed⟩
  · refine iff_of_true (fun i _ => ?_) ⟨fun h => h0 h.ready, fun h => h0 h.ready⟩
    rw [fsBoot_notReady h0]
    exact ⟨rfl, hf⟩

/-- A drive with one stored session on it, of three bytes. -/
def recordedDrive : Ata :=
  driveWith (storedSuperblock formattedSuperblock [1, 2, 3])
    (Function.update (fun _ => Inode.zero) ⟨0, by decide⟩ (storedInode formattedSuperblock 3 none))

theorem recordedDrive_formatted : Formatted recordedDrive.sector := by
  rw [Formatted, recordedDrive, driveWith_superblock]
  decide

theorem recordedDrive_session : (diskInodes recordedDrive.sector ⟨0, by decide⟩).isTrace = true := by
  rw [recordedDrive, driveWith_inodes, Function.update_self]
  decide

/-- Its superblock read fails once at boot: the format that follows takes the session with it. -/
theorem sessions_wiped_by_misread :
    Formatted (recordedDrive.withScript [.ok, .fault 0]).sector ∧
      ¬ SessionsSurvive (recordedDrive.withScript [.ok, .fault 0]) := by
  rw [SessionsSurvive, Ata.withScript_sector]
  refine ⟨recordedDrive_formatted, fun h => ?_⟩
  have hgone : (diskInodes (fsBoot (recordedDrive.withScript [.ok, .fault 0])).ata.sector
      ⟨0, by decide⟩).isTrace = false := by decide +kernel
  rw [(h _ recordedDrive_session).1, recordedDrive_session] at hgone
  cases hgone

/-- A boot of the same drive on which a seeded file fails. -/
theorem sessionsSurvive_seedFault :
    SessionsSurvive (recordedDrive.withScript [.ok, .ok, .ok, .fault 0]) := by
  refine (sessionsSurvive_iff_not_wiped ?_).mpr ⟨fun h => h.misread ?_, fun h => ?_⟩
  · rw [Ata.withScript_sector]
    exact recordedDrive_formatted
  · rw [Completes, Completes, Ata.withScript_outcome, Ata.withScript_outcome]
    exact ⟨rfl, rfl⟩
  · have hlow := h.lowMark
    rw [Ata.withScript_sector, recordedDrive, driveWith_superblock] at hlow
    exact absurd hlow (by decide)

end Proof
end BumbelBee
