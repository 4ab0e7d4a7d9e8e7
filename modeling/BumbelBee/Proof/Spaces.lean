import BumbelBee.Lib.Run
import BumbelBee.Proof.Addressable
import BumbelBee.Proof.Holders
import BumbelBee.Proof.UserWindow

/-!
# The tables of every space

`clone_kernel_root` makes four tables out of fresh pages; from then on only the lowest of them
changes, and only by its own space's writes. So every user space has tables of its own in every
state the operations reach (`SpacesMapped`), and a write to one window is seen in no other
(`user_writes_exact`).

Reading a window back goes through four tables that are in the same memory as the window's pages, so
a write to one page is harmless only if no table is in it. `SpaceTables` says of one space where its
tables are, and `SpacesMapped` of all together that these and the pages are all different; the
allocator is the only source of both.
-/

namespace BumbelBee
namespace Proof

open Lib Kernel

variable {use use' : UInt64 → Option PageUse} {m m₀ m' : Memory} {i j : Fin aspaceMax}
  {a b : AspaceSlot} {root : UInt64 → UInt64 → Prop} {s : Aspaces}

/-! ## One space

The four tables stand in a fixed relation: the upper three point to the next, and the lowest to the
pages of the window. `use` says that each lies in a page of its own kind, which keeps a store into
one of them out of the others.
-/

/-- The three tables above the user window's. Of what was copied from the kernel's, `root`
    holds. -/
structure UpperTables (root : UInt64 → UInt64 → Prop) (use : UInt64 → Option PageUse)
    (i : Fin aspaceMax) (a : AspaceSlot) (pdpt pd : UInt64) (m : Memory) : Prop where
  pages : IsPage a.info.cr3 ∧ IsPage pdpt ∧ IsPage pd
  uses : use a.info.cr3 = some (.pml4 i) ∧ use pdpt = some (.pdpt i) ∧ use pd = some (.pd i)
  pml4 : ∀ k : UInt64, k.toNat < 512 →
    m.entry a.info.cr3 k = if k = 0 then pdpt ||| 0x007 else 0
  window : m.entry pdpt 1 = pd ||| 0x007
  copied : ∀ k : UInt64, k.toNat < 512 → k ≠ 1 → root k (m.entry pdpt k)
  pd : ∀ k : UInt64, k.toNat < 512 → m.entry pd k = if k = 0 then a.userPt ||| 0x007 else 0

/-- All four tables of space `i`. -/
structure SpaceTables (root : UInt64 → UInt64 → Prop) (use : UInt64 → Option PageUse)
    (i : Fin aspaceMax) (a : AspaceSlot) (m : Memory) : Prop where
  pt : UserTable use i a.userPt m
  upper : ∃ pdpt pd, UpperTables root use i a pdpt pd m

/-- The tables are in their pages. -/
theorem UpperTables.keep {pdpt pd : UInt64} (h : UpperTables root use i a pdpt pd m)
    (hgrows : ∀ q o, use q = some o → use' q = some o)
    (hsame : ∀ q, IsPage q → use q = some (.pml4 i) ∨ use q = some (.pdpt i) ∨ use q = some (.pd i) →
      SamePage q m.phys m'.phys) : UpperTables root use' i a pdpt pd m' := by
  obtain ⟨hpml4, hpdpt, hpd⟩ := h.pages
  obtain ⟨hpml4use, hpdptuse, hpduse⟩ := h.uses
  have hroot := hsame _ hpml4 (Or.inl hpml4use)
  have hmid := hsame _ hpdpt (Or.inr (Or.inl hpdptuse))
  have hlow := hsame _ hpd (Or.inr (Or.inr hpduse))
  refine ⟨h.pages, ⟨hgrows _ _ hpml4use, hgrows _ _ hpdptuse, hgrows _ _ hpduse⟩, fun k hk => ?_, ?_,
    fun k hk hne => ?_, fun k hk => ?_⟩
  · rw [entry_same hroot hpml4 hk, h.pml4 k hk]
  · rw [entry_same hmid hpdpt (by decide), h.window]
  · rw [entry_same hmid hpdpt hk]
    exact h.copied k hk hne
  · rw [entry_same hlow hpd hk, h.pd k hk]

/-- So is the page table, and the pages it maps. -/
theorem UserTable.keep (h : UserTable use i a.userPt m)
    (hgrows : ∀ q o, use q = some o → use' q = some o)
    (hsame : ∀ q, IsPage q → use q = some (.pt i) → SamePage q m.phys m'.phys) :
    UserTable use' i a.userPt m' := by
  refine ⟨h.page, h.nonzero, hgrows _ _ h.used, fun k hk => ?_⟩
  rw [entry_same (hsame _ h.page h.used) h.page hk]
  rcases h.entries k hk with hempty | ⟨f, hf, huse, hmaps⟩
  · exact Or.inl hempty
  · exact Or.inr ⟨f, hf, hgrows _ _ huse, hmaps⟩

/-- **What fills one space's window** leaves the tables of the others. -/
theorem SpaceTables.filled_other (h : SpaceTables root use j b m) (hfill : Filled i use use' m m')
    (hne : j ≠ i) : SpaceTables root use' j b m' ∧ userWindow b m' = userWindow b m := by
  have hkeep : ∀ q o, IsPage q → use q = some o → o ≠ .pt i → (∀ k, o ≠ .frame i k) →
      SamePage q m.phys m'.phys := by
    intro q o hq huse hpt hframe
    refine hfill.keeps q hq (by rw [huse]; simp) ?_ fun k => ?_
    · rw [huse]
      simpa using hpt
    · rw [huse]
      simpa using hframe k
  have hptSame : ∀ q, IsPage q → use q = some (.pt j) → SamePage q m.phys m'.phys :=
    fun q hq huse => hkeep q _ hq huse (by simpa using hne) (by simp)
  obtain ⟨pdpt, pd, hupper⟩ := h.upper
  refine ⟨⟨h.pt.keep hfill.grows hptSame, pdpt, pd, hupper.keep hfill.grows fun q hq huse => ?_⟩, ?_⟩
  · rcases huse with huse | huse | huse
    all_goals exact hkeep q _ hq huse (by simp) (by simp)
  · funext u
    refine userWindow_congr h.pt (entry_same (hptSame _ h.pt.page h.pt.used) h.pt.page
      (windowIndex_lt u)) fun f hf huse => ?_
    exact hkeep f _ hf huse (by simp) (by simp [hne])

/-- It leaves the upper tables of the space itself. -/
theorem SpaceTables.filled_self (h : SpaceTables root use i a m) (hfill : Filled i use use' m m')
    (hpt : UserTable use' i a.userPt m') : SpaceTables root use' i a m' := by
  obtain ⟨pdpt, pd, hupper⟩ := h.upper
  refine ⟨hpt, pdpt, pd, hupper.keep hfill.grows fun q hq huse => ?_⟩
  rcases huse with huse | huse | huse
  all_goals exact hfill.keeps q hq (by rw [huse]; simp) (by rw [huse]; simp) (by rw [huse]; simp)

/-! ## A space is made

`clone_kernel_root` copies a page of the kernel's entries and hangs its own three tables under one
of them. What was copied is shared with every other space, and is where the kernel itself is mapped.
-/

/-- What `clone_kernel_root` writes, by page. -/
theorem clonedTables {pml4 pdpt pd pt : UInt64} (src : UInt64) (hpml4 : IsPage pml4)
    (hpdpt : IsPage pdpt) (hpd : IsPage pd) (hpt : IsPage pt) (h₁ : pdpt ≠ pml4) (h₂ : pd ≠ pml4 ∧ pd ≠ pdpt)
    (h₃ : pt ≠ pml4 ∧ pt ≠ pdpt ∧ pt ≠ pd) (m : Memory) :
    let m₁ := m.clear pml4 pageSize
    let m₂ := m₁.store pdpt (m₁.load (pageOf (m₁.entry src 0)) pageSize)
    let m₄ := (m₂.clear pd pageSize).clear pt pageSize
    let m' := ((m₄.setEntry pd 0 (pt ||| 0x007)).setEntry pdpt 1 (pd ||| 0x007)).setEntry pml4 0
      (pdpt ||| 0x007)
    (∀ q, IsPage q → q ≠ pml4 → SamePage q m.phys m₁.phys) ∧
    (∀ q, IsPage q → q ≠ pml4 → q ≠ pdpt → q ≠ pd → q ≠ pt → SamePage q m.phys m'.phys) ∧
    ∀ k : UInt64, k.toNat < 512 →
      m'.entry pml4 k = (if k = 0 then pdpt ||| 0x007 else 0) ∧
      m'.entry pdpt k = (if k = 1 then pd ||| 0x007 else m₁.entry (pageOf (m₁.entry src 0)) k) ∧
      m'.entry pd k = (if k = 0 then pt ||| 0x007 else 0) ∧ m'.entry pt k = 0 := by
  intro m₁ m₂ m₄ m'
  let m₃ := m₂.clear pd pageSize
  let m₅ := m₄.setEntry pd 0 (pt ||| 0x007)
  let m₆ := m₅.setEntry pdpt 1 (pd ||| 0x007)
  have hzero : (0 : UInt64).toNat < 512 := by decide
  have hone : (1 : UInt64).toNat < 512 := by decide
  -- each store changes one page
  have hs₁ : ∀ q, IsPage q → q ≠ pml4 → SamePage q m.phys m₁.phys := fun q hq hne => clear_other hpml4 hq hne
  have hs₂ : ∀ q, IsPage q → q ≠ pdpt → SamePage q m₁.phys m₂.phys := fun q hq hne => copy_other hpdpt hq hne
  have hs₃ : ∀ q, IsPage q → q ≠ pd → SamePage q m₂.phys m₃.phys := fun q hq hne => clear_other hpd hq hne
  have hs₄ : ∀ q, IsPage q → q ≠ pt → SamePage q m₃.phys m₄.phys := fun q hq hne => clear_other hpt hq hne
  have hs₅ : ∀ q, IsPage q → q ≠ pd → SamePage q m₄.phys m₅.phys :=
    fun q hq hne => setEntry_other hpd hzero hq hne
  have hs₆ : ∀ q, IsPage q → q ≠ pdpt → SamePage q m₅.phys m₆.phys :=
    fun q hq hne => setEntry_other hpdpt hone hq hne
  have hs₇ : ∀ q, IsPage q → q ≠ pml4 → SamePage q m₆.phys m'.phys :=
    fun q hq hne => setEntry_other hpml4 hzero hq hne
  refine ⟨hs₁, fun q hq hq₁ hq₂ hq₃ hq₄ => ?_, fun k hk => ⟨?_, ?_, ?_, ?_⟩⟩
  · exact (((((hs₁ q hq hq₁).trans (hs₂ q hq hq₂)).trans (hs₃ q hq hq₃)).trans
      (hs₄ q hq hq₄)).trans (hs₅ q hq hq₃)).trans ((hs₆ q hq hq₂).trans (hs₇ q hq hq₁))
  · have hsame : SamePage pml4 m₁.phys m₆.phys :=
      ((((hs₂ _ hpml4 h₁.symm).trans (hs₃ _ hpml4 h₂.1.symm)).trans (hs₄ _ hpml4 h₃.1.symm)).trans
        (hs₅ _ hpml4 h₂.1.symm)).trans (hs₆ _ hpml4 h₁.symm)
    rw [entry_setEntry hpml4 hzero hk, entry_same hsame hpml4 hk, entry_clear hpml4 hk]
  · have hsame : SamePage pdpt m₂.phys m₅.phys :=
      ((hs₃ _ hpdpt h₂.2.symm).trans (hs₄ _ hpdpt h₃.2.1.symm)).trans (hs₅ _ hpdpt h₂.2.symm)
    rw [entry_same (hs₇ _ hpdpt h₁) hpdpt hk, entry_setEntry hpdpt hone hk,
      entry_same hsame hpdpt hk, entry_copy hpdpt hk]
  · have hsame : SamePage pd m₃.phys m₄.phys := hs₄ _ hpd h₃.2.2.symm
    rw [entry_same ((hs₆ _ hpd h₂.2).trans (hs₇ _ hpd h₂.1)) hpd hk, entry_setEntry hpd hzero hk,
      entry_same hsame hpd hk, entry_clear hpd hk]
  · have hsame : SamePage pt m₄.phys m'.phys :=
      ((hs₅ _ hpt h₃.2.2).trans (hs₆ _ hpt h₃.2.1)).trans (hs₇ _ hpt h₃.1)
    rw [entry_same hsame hpt hk, entry_clear hpt hk]

/-- What is copied from the kernel's tables is good, whatever happens to pages nobody uses. -/
def RootCopied (root : UInt64 → UInt64 → Prop) (use : UInt64 → Option PageUse) (kernelCr3 : UInt64)
    (m : Memory) : Prop :=
  ∀ m' : Memory, (∀ q, IsPage q → use q ≠ none → SamePage q m.phys m'.phys) →
    ∀ k : UInt64, k.toNat < 512 → k ≠ 1 → root k (m'.entry (pageOf (m'.entry kernelCr3 0)) k)

/-- A space as `clone_kernel_root` makes it, in slot `i`. -/
structure Cloned (root : UInt64 → UInt64 → Prop) (i : Fin aspaceMax) (use use' : UInt64 → Option PageUse)
    (m m' : Memory) (info info' : AspaceInfo) : Prop where
  fields : info' = { info with
    isolated := true, cr3 := info'.cr3, userStackTop := aspaceUserStackTop }
  grows : ∀ q o, use q = some o → use' q = some o
  fresh : Fresh use' m'
  keeps : ∀ q, IsPage q → use q ≠ none → SamePage q m.phys m'.phys
  tables : SpaceTables root use' i ⟨info', userPtOf info'.cr3 m'⟩ m'
  /-- No page of the window is there yet. -/
  empty : ∀ u, userWindow ⟨info', userPtOf info'.cr3 m'⟩ m' u = none

/-- **`clone_kernel_root`** makes four tables, or fails for want of a page. -/
theorem cloneKernelRoot_tables (hfresh : Fresh use m) (i : Fin aspaceMax) (info : AspaceInfo)
    {kernelCr3 : UInt64} (hroot : RootCopied root use kernelCr3 m) :
    (cloneKernelRoot kernelCr3 info m).2.cr3 = m.cr3 ∧
    ((cloneKernelRoot kernelCr3 info m).1 = none → Fresh use (cloneKernelRoot kernelCr3 info m).2 ∧
      (cloneKernelRoot kernelCr3 info m).2.phys = m.phys) ∧
    ∀ info', (cloneKernelRoot kernelCr3 info m).1 = some info' →
      ∃ use', Cloned root i use use' m (cloneKernelRoot kernelCr3 info m).2 info info' := by
  cases h₁ : pageAlloc m with
  | mk pml4 m₁ =>
  cases h₂ : pageAlloc m₁ with
  | mk pdpt m₂ =>
  cases h₃ : pageAlloc m₂ with
  | mk pd m₃ =>
  cases h₄ : pageAlloc m₃ with
  | mk pt m₄ =>
  have hcr3 : m₄.cr3 = m.cr3 := by
    rw [show m₄ = (pageAlloc m₃).2 by rw [h₄], pageAlloc_cr3, show m₃ = (pageAlloc m₂).2 by rw [h₃],
      pageAlloc_cr3, show m₂ = (pageAlloc m₁).2 by rw [h₂], pageAlloc_cr3,
      show m₁ = (pageAlloc m).2 by rw [h₁], pageAlloc_cr3]
  have hphys : m₄.phys = m.phys := by
    rw [show m₄ = (pageAlloc m₃).2 by rw [h₄], pageAlloc_phys, show m₃ = (pageAlloc m₂).2 by rw [h₃],
      pageAlloc_phys, show m₂ = (pageAlloc m₁).2 by rw [h₂], pageAlloc_phys,
      show m₁ = (pageAlloc m).2 by rw [h₁], pageAlloc_phys]
  have hindex : tableIndex 30 aspaceUserBase = 1 ∧ tableIndex 21 aspaceUserBase = 0 := by decide
  simp only [cloneKernelRoot, h₁, h₂, h₃, h₄, hindex]
  by_cases hfail : kernelCr3 = 0 ∨ pml4 = 0 ∨ pdpt = 0 ∨ pd = 0 ∨ pt = 0
  · rw [if_pos hfail]
    refine ⟨hcr3, fun _ => ⟨?_, hphys⟩, fun info' h => absurd h (by simp)⟩
    have hlast := hfresh.alloc.1.alloc.1.alloc.1.alloc.1
    rwa [h₁, h₂, h₃, h₄] at hlast
  rw [if_neg hfail]
  simp only [not_or] at hfail
  obtain ⟨-, hne₁, hne₂, hne₃, hne₄⟩ := hfail
  obtain ⟨hpml4, hfree₁, hfresh₁, hgrows₁⟩ := hfresh.take h₁ hne₁ (.pml4 i)
  obtain ⟨hpdpt, hfree₂, hfresh₂, hgrows₂⟩ := hfresh₁.take h₂ hne₂ (.pdpt i)
  obtain ⟨hpd, hfree₃, hfresh₃, hgrows₃⟩ := hfresh₂.take h₃ hne₃ (.pd i)
  obtain ⟨hpt, hfree₄, hfresh₄, hgrows₄⟩ := hfresh₃.take h₄ hne₄ (.pt i)
  -- the uses tell the four pages apart, and from the pages in use before
  let use₄ := Function.update (Function.update (Function.update (Function.update use pml4
    (some (.pml4 i))) pdpt (some (.pdpt i))) pd (some (.pd i))) pt (some (.pt i))
  have huse : use₄ pml4 = some (.pml4 i) ∧ use₄ pdpt = some (.pdpt i) ∧ use₄ pd = some (.pd i) ∧
      use₄ pt = some (.pt i) := by
    refine ⟨?_, ?_, ?_, Function.update_self _ _ _⟩
    · exact hgrows₄ _ _ (hgrows₃ _ _ (hgrows₂ _ _ (Function.update_self _ _ _)))
    · exact hgrows₄ _ _ (hgrows₃ _ _ (Function.update_self _ _ _))
    · exact hgrows₄ _ _ (Function.update_self _ _ _)
  have hgrows : ∀ q o, use q = some o → use₄ q = some o :=
    fun q o hq => hgrows₄ q o (hgrows₃ q o (hgrows₂ q o (hgrows₁ q o hq)))
  have hapart : ∀ {q r : UInt64} {o o' : PageUse}, use₄ q = some o → use₄ r = some o' → o ≠ o' →
      q ≠ r := by
    intro q r o o' hq hr hne heq
    rw [heq, hr, Option.some.injEq] at hq
    exact hne hq.symm
  have hold : ∀ q, use q ≠ none → q ≠ pml4 ∧ q ≠ pdpt ∧ q ≠ pd ∧ q ≠ pt := by
    intro q hq
    obtain ⟨o, ho⟩ := Option.ne_none_iff_exists'.mp hq
    refine ⟨fun heq => ?_, fun heq => ?_, fun heq => ?_, fun heq => ?_⟩
    · rw [heq, hfree₁] at ho
      exact absurd ho (by simp)
    · have hused := hgrows₁ q o ho
      rw [heq, hfree₂] at hused
      exact absurd hused (by simp)
    · have hused := hgrows₂ q o (hgrows₁ q o ho)
      rw [heq, hfree₃] at hused
      exact absurd hused (by simp)
    · have hused := hgrows₃ q o (hgrows₂ q o (hgrows₁ q o ho))
      rw [heq, hfree₄] at hused
      exact absurd hused (by simp)
  obtain ⟨hpml4use, hpdptuse, hpduse, hptuse⟩ := huse
  obtain ⟨hclear, hother, hentries⟩ := clonedTables kernelCr3 hpml4 hpdpt hpd hpt
    (hapart hpdptuse hpml4use (by simp))
    ⟨hapart hpduse hpml4use (by simp), hapart hpduse hpdptuse (by simp)⟩
    ⟨hapart hptuse hpml4use (by simp), hapart hptuse hpdptuse (by simp),
      hapart hptuse hpduse (by simp)⟩ m₄
  refine ⟨?_, fun h => absurd h (by simp), fun info' h => ?_⟩
  · simp only [setEntry_cr3, clear_cr3, store_cr3, hcr3]
  rw [Option.some.injEq] at h
  generalize hmade : Memory.setEntry pml4 0 (pdpt ||| 0x007) _ = made at hother hentries ⊢
  have hzero : (0 : UInt64).toNat < 512 := by decide
  have hone : (1 : UInt64).toNat < 512 := by decide
  have hkeeps : ∀ q, IsPage q → use q ≠ none → SamePage q m.phys made.phys := by
    intro q hq hused
    obtain ⟨hq₁, hq₂, hq₃, hq₄⟩ := hold q hused
    rw [← hphys]
    exact hother q hq hq₁ hq₂ hq₃ hq₄
  have hpt' : userPtOf pml4 made = pt := by
    simp only [userPtOf, hindex]
    rw [(hentries 0 hzero).1, if_pos rfl, (entry_table hpdpt).2.2.2.1, (hentries 1 hone).2.1,
      if_pos rfl, (entry_table hpd).2.2.2.1, (hentries 0 hzero).2.2.1, if_pos rfl,
      (entry_table hpt).2.2.2.1]
  have hcopied : ∀ k : UInt64, k.toNat < 512 → k ≠ 1 → root k (made.entry pdpt k) := by
    intro k hk hne
    rw [(hentries k hk).2.1, if_neg hne]
    refine hroot _ (fun q hq hused => ?_) k hk hne
    rw [← hphys]
    exact hclear q hq (hold q hused).1
  rw [← h]
  simp only
  refine ⟨use₄, rfl, hgrows, ?_, hkeeps, ?_, fun u => userWindow_absent ?_⟩
  · refine hfresh₄.congr ?_ ?_
    · rw [← hmade]
      simp
    · rw [← hmade]
      simp
  · rw [hpt']
    refine ⟨⟨hpt, hne₄, hptuse, fun k hk => Or.inl (hentries k hk).2.2.2⟩, pdpt, pd,
      ⟨hpml4, hpdpt, hpd⟩, ⟨hpml4use, hpdptuse, hpduse⟩, fun k hk => (hentries k hk).1, ?_, hcopied,
      fun k hk => (hentries k hk).2.2.1⟩
    rw [(hentries 1 hone).2.1, if_pos rfl]
  · simp only [hpt']
    exact (hentries _ (windowIndex_lt u)).2.2.2

/-! ## The table of spaces

An operation on one slot may not touch the tables of another, and that is the same argument for each
of them: pages that were in use stay as they were but for the slot's own. `SpacesMapped.step` has it
once.
-/

/-- The root that every space is cloned from: pages reserved for it, with what they hold, and
    what that says about the table a space gets a copy of. -/
structure KernelRoot where
  cr3 : UInt64
  reserved : UInt64 → Prop
  phys : UInt64 → UInt8
  root : UInt64 → UInt64 → Prop
  copied : ∀ m : Memory, (∀ q, IsPage q → reserved q → SamePage q phys m.phys) →
    ∀ k : UInt64, k.toNat < 512 → k ≠ 1 → root k (m.entry (pageOf (m.entry cr3 0)) k)

/-- A slot of the table: only a user space is isolated, and it has its tables. -/
structure SlotMapped (root : UInt64 → UInt64 → Prop) (use : UInt64 → Option PageUse)
    (i : Fin aspaceMax) (a : AspaceSlot) (m : Memory) : Prop where
  kernel : a.info.kind = .kernel → a.userPt = 0 ∧ a.info.isolated = false
  user : a.info.kind ≠ .kernel → SpaceTables root use i a m

structure SpacesMapped (r : KernelRoot) (use : UInt64 → Option PageUse) (s : Aspaces) : Prop where
  kernelCr3 : s.kernelCr3 = r.cr3
  fresh : Fresh use s.memory
  reserved : ∀ q, r.reserved q → use q = some .reserved
  kept : ∀ q, IsPage q → r.reserved q → SamePage q r.phys s.memory.phys
  slots : ∀ i a, s.table i = some a → SlotMapped r.root use i a s.memory

variable {r : KernelRoot}

theorem SpacesMapped.rootCopied (h : SpacesMapped r use s) :
    RootCopied r.root use s.kernelCr3 s.memory := by
  intro m' hsame
  rw [h.kernelCr3]
  refine r.copied m' fun q hq hreserved => (h.kept q hq hreserved).trans (hsame q hq ?_)
  rw [h.reserved q hreserved]
  simp

/-- What a step has to keep. -/
theorem SpacesMapped.step (h : SpacesMapped r use s) {s' : Aspaces}
    (hcr3 : s'.kernelCr3 = s.kernelCr3) (hgrows : ∀ q o, use q = some o → use' q = some o)
    (hfresh : Fresh use' s'.memory)
    (hsame : ∀ q, IsPage q → use q = some .reserved → SamePage q s.memory.phys s'.memory.phys)
    (hslots : ∀ i a, s'.table i = some a → SlotMapped r.root use' i a s'.memory) :
    SpacesMapped r use' s' where
  kernelCr3 := hcr3.trans h.kernelCr3
  fresh := hfresh
  reserved q hq := hgrows q _ (h.reserved q hq)
  kept q hpage hq := (h.kept q hpage hq).trans (hsame q hpage (h.reserved q hq))
  slots := hslots

/-- A user space with another reference count has the same tables. -/
theorem SlotMapped.setRefcount (h : SlotMapped root use i a m) (refcount : UInt32) :
    SlotMapped root use i { a with info := { a.info with refcount } } m := by
  refine ⟨h.kernel, fun hkind => ?_⟩
  obtain ⟨hpt, pdpt, pd, hupper⟩ := h.user hkind
  exact ⟨hpt, pdpt, pd, ⟨hupper.pages, hupper.uses, hupper.pml4, hupper.window, hupper.copied, hupper.pd⟩⟩

/-- The slots of a table after one of them has changed. -/
theorem slots_update {P : Fin aspaceMax → AspaceSlot → Prop}
    {table : Fin aspaceMax → Option AspaceSlot} {slot : Option AspaceSlot} (i : Fin aspaceMax)
    (h : ∀ j b, j ≠ i → table j = some b → P j b) (hslot : ∀ b, slot = some b → P i b) :
    ∀ j b, Function.update table i slot j = some b → P j b := by
  intro j b hj
  by_cases hij : j = i
  · rw [hij, Function.update_self] at hj
    rw [hij]
    exact hslot b hj
  · rw [Function.update_of_ne hij] at hj
    exact h j b hij hj

/-- A reference more or less. -/
theorem SpacesMapped.setRefcount (h : SpacesMapped r use s) (hslot : s.table i = some a)
    (refcount : UInt32) : SpacesMapped r use (s.setRefcount i a refcount) := by
  refine h.step rfl (fun _ _ hq => hq) h.fresh (fun q _ _ => SamePage.refl q _) ?_
  refine slots_update i (fun j b _ hj => h.slots j b hj) fun b hb => ?_
  rw [← Option.some.inj hb]
  exact (h.slots i a hslot).setRefcount _

/-- **`aspace_release`** -/
theorem SpacesMapped.release (h : SpacesMapped r use s) (id : UInt32) :
    SpacesMapped r use (s.release id) := by
  rcases Aspaces.release_cases s id with hsame | ⟨i, a, hslot, -, hgone | ⟨refcount, hdown⟩⟩
  · rw [hsame]
    exact h
  · rw [hgone]
    refine h.step rfl (fun _ _ hq => hq) h.fresh (fun q _ _ => SamePage.refl q _) ?_
    exact slots_update i (fun j b _ hj => h.slots j b hj) fun b hb => absurd hb (by simp)
  · rw [hdown]
    exact h.setRefcount hslot refcount

/-- The tables of the other spaces stay when pages nobody used are put to use. -/
theorem SlotMapped.keep (h : SlotMapped root use j b m) (hgrows : ∀ q o, use q = some o → use' q = some o)
    (hsame : ∀ q, IsPage q → use q ≠ none → SamePage q m.phys m'.phys) :
    SlotMapped root use' j b m' := by
  refine ⟨h.kernel, fun hkind => ?_⟩
  obtain ⟨hpt, pdpt, pd, hupper⟩ := h.user hkind
  refine ⟨hpt.keep hgrows fun q hq huse => hsame q hq (by rw [huse]; simp), pdpt, pd,
    hupper.keep hgrows fun q hq huse => hsame q hq ?_⟩
  rcases huse with huse | huse | huse
  all_goals rw [huse]; simp

/-- **`aspace_create`** -/
theorem SpacesMapped.create (h : SpacesMapped r use s) (kind : AspaceKind)
    (label : Option (List UInt8)) : ∃ use', SpacesMapped r use' (s.create kind label).2 := by
  rw [Aspaces.create]
  cases hfree : s.unusedSlot with
  | none => exact ⟨use, h⟩
  | some i =>
    cases kind with
    | kernel =>
      refine ⟨use, h.step rfl (fun _ _ hq => hq) h.fresh (fun q _ _ => SamePage.refl q _) ?_⟩
      refine slots_update i (fun j b _ hj => h.slots j b hj) fun b hb => ?_
      rw [← Option.some.inj hb]
      exact ⟨fun _ => ⟨rfl, rfl⟩, fun hkind => absurd rfl hkind⟩
    | userShared =>
      obtain ⟨-, hnone, hsome⟩ := cloneKernelRoot_tables h.fresh i (s.newInfo .userShared label)
        h.rootCopied
      cases hclone : cloneKernelRoot s.kernelCr3 (s.newInfo .userShared label) s.memory with
      | mk info memory =>
        rw [hclone] at hnone hsome
        cases info with
        | none =>
          -- the pages it got are lost
          obtain ⟨hfresh, hphys⟩ := hnone rfl
          simp only [hclone]
          refine ⟨use, h.step rfl (fun _ _ hq => hq) hfresh (fun q _ _ => ?_) fun j b hj => ?_⟩
          · rw [hphys]
            exact SamePage.refl q _
          · refine (h.slots j b hj).keep (fun _ _ hq => hq) fun q _ _ => ?_
            rw [hphys]
            exact SamePage.refl q _
        | some info =>
          obtain ⟨use', hmade⟩ := hsome info rfl
          simp only [hclone]
          refine ⟨use', h.step rfl hmade.grows hmade.fresh (fun q hq huse => ?_) ?_⟩
          · exact hmade.keeps q hq (by rw [huse]; simp)
          · refine slots_update i (fun j b _ hj => (h.slots j b hj).keep hmade.grows hmade.keeps)
              fun b hb => ?_
            rw [← Option.some.inj hb]
            refine ⟨fun hkind => absurd hkind ?_, fun _ => hmade.tables⟩
            rw [hmade.fields]
            exact fun hfalse => absurd hfalse (by simp [Aspaces.newInfo])

/-- What a write does to the state around the window it is made to. -/
theorem SpacesMapped.filled (h : SpacesMapped r use s) {i : Fin aspaceMax} {a : AspaceSlot}
    (hslot : s.table i = some a) {memory : Memory} (hfill : Filled i use use' s.memory memory)
    (hpt : a.info.kind ≠ .kernel → UserTable use' i a.userPt memory) :
    SpacesMapped r use' { s with memory } ∧
      ∀ j b, j ≠ i → s.table j = some b → b.info.kind ≠ .kernel →
        userWindow b memory = userWindow b s.memory := by
  refine ⟨h.step rfl hfill.grows hfill.fresh (fun q hq huse => ?_) fun j b hj => ?_,
    fun j b hji hj hkind => (((h.slots j b hj).user hkind).filled_other hfill hji).2⟩
  · exact hfill.keeps q hq (by rw [huse]; simp) (by rw [huse]; simp) (by rw [huse]; simp)
  · refine ⟨(h.slots j b hj).kernel, fun hkind => ?_⟩
    have htables := (h.slots j b hj).user hkind
    by_cases hji : j = i
    · have hab : b = a := by
        rw [hji, hslot] at hj
        exact (Option.some.inj hj).symm
      rw [hji] at htables ⊢
      exact htables.filled_self hfill (hab ▸ hpt (hab ▸ hkind))
    · exact (htables.filled_other hfill hji).1

/-- Without a page table nothing can be stored. -/
theorem fillUser_kernel (h : a.userPt = 0) (v : UInt64) (data : List UInt8) (m : Memory) :
    fillUser a v data m = (data.isEmpty, m) := by
  by_cases hnil : data = []
  · rw [fillUser, dif_pos hnil, hnil]
    rfl
  · rw [fillUser_round hnil, ensureUserPage, List.isEmpty_eq_false_iff.mpr hnil]
    simp only [h, if_true]
    rfl

/-- What `aspace_write` does to a space that is there. -/
theorem Aspaces.write_eq {id : UInt32} (hfind : s.findSlot id = some i) (hslot : s.table i = some a)
    (v : UInt64) (data : List UInt8) : s.write id v data =
      ((fillUser a v data s.memory).1, { s with memory := (fillUser a v data s.memory).2 }) := by
  simp only [Aspaces.write, hfind, Option.bind_eq_bind, Option.bind_some, hslot]

/-- **`aspace_write`** -/
theorem SpacesMapped.write (h : SpacesMapped r use s) (id : UInt32) (v : UInt64)
    (data : List UInt8) : ∃ use', SpacesMapped r use' (s.write id v data).2 := by
  rw [Aspaces.write]
  cases hfind : s.findSlot id with
  | none => exact ⟨use, h⟩
  | some i =>
    cases hslot : s.table i with
    | none =>
      simp only [Option.bind_eq_bind, Option.bind_some, hslot]
      exact ⟨use, h⟩
    | some a =>
      simp only [Option.bind_eq_bind, Option.bind_some, hslot]
      by_cases hkind : a.info.kind = .kernel
      · rw [fillUser_kernel ((h.slots i a hslot).kernel hkind).1]
        exact ⟨use, h⟩
      · have htables := (h.slots i a hslot).user hkind
        obtain ⟨-, use', hfill, hpt, -⟩ := fillUser_spec a v data s.memory use htables.pt h.fresh
        exact ⟨use', (h.filled hslot hfill fun _ => hpt).1⟩

/-- What `aspace_write` comes to for the space its id names. -/
theorem SpacesMapped.fills (h : SpacesMapped r use s) {id : UInt32} (hfind : s.findSlot id = some i)
    (hslot : s.table i = some a) (hkind : a.info.kind ≠ .kernel) (v : UInt64) (data : List UInt8) :
    let answer := s.write id v data
    (answer.1 = true ↔ (0 < data.length → FitsUserWindow v.toNat data.length) ∧
      Affords (missingPages pageBytes v.toNat data.length (userWindow a s.memory)) s.memory) ∧
    answer.2.table = s.table ∧
    ∃ use', SpacesMapped r use' answer.2 ∧
      (∀ j b, j ≠ i → s.table j = some b → b.info.kind ≠ .kernel →
        userWindow b answer.2.memory = userWindow b s.memory) ∧
      (answer.1 = true → userWindow a answer.2.memory =
          sparseWrite pageBytes 0 v.toNat data (userWindow a s.memory) ∧
        ∀ k, Affords (missingPages pageBytes v.toNat data.length (userWindow a s.memory) + k)
          s.memory ↔ Affords k answer.2.memory) := by
  obtain ⟨hok, use', hfill, hpt, hwritten⟩ :=
    fillUser_spec a v data s.memory use ((h.slots i a hslot).user hkind).pt h.fresh
  obtain ⟨hmapped, hothers⟩ := h.filled hslot hfill fun _ => hpt
  rw [Aspaces.write_eq hfind hslot]
  exact ⟨hok, rfl, use', hmapped, hothers, hwritten⟩

/-! ## Runs -/

/-- The operations on the table and the windows. -/
inductive SpaceOp
  | create (kind : AspaceKind) (label : Option (List UInt8))
  | forkClone (parentId : UInt32)
  | retain (id : UInt32)
  | release (id : UInt32)
  | switch (id : UInt32)
  | write (id : UInt32) (vaddr : UInt64) (data : List UInt8)
  | zero (id : UInt32) (vaddr : UInt64) (bytes : UInt32)

def SpaceOp.run : SpaceOp → Aspaces → Aspaces
  | .create kind label, s => (s.create kind label).2
  | .forkClone parentId, s => (s.forkClone parentId).2
  | .retain id, s => (s.retain id).getD s
  | .release id, s => s.release id
  | .switch id, s => s.switch id
  | .write id vaddr data, s => (s.write id vaddr data).2
  | .zero id vaddr bytes, s => (s.zero id vaddr bytes).2

/-- `aspace_retain` finds a slot and counts, or does nothing. -/
theorem Aspaces.retain_cases (s : Aspaces) (id : UInt32) : s.retain id = none ∨
    ∃ i a, s.table i = some a ∧ s.retain id = some (s.setRefcount i a (a.info.refcount + 1)) := by
  cases hretain : s.retain id with
  | none => exact Or.inl rfl
  | some s' =>
    obtain ⟨i, a, -, hslot, -, rfl⟩ := Aspaces.retain_some hretain
    exact Or.inr ⟨i, a, hslot, rfl⟩

/-- `aspace_fork_clone` is a retain, a create or nothing. -/
theorem Aspaces.forkClone_cases (s : Aspaces) (parentId : UInt32) :
    (s.forkClone parentId).2 = s ∨ (s.forkClone parentId).2 = (s.retain parentId).getD s ∨
      ∃ kind label, (s.forkClone parentId).2 = (s.create kind label).2 := by
  rw [Aspaces.forkClone]
  cases s.findSlot parentId >>= s.table with
  | none => exact Or.inl rfl
  | some slot =>
    cases hkind : slot.info.kind with
    | kernel =>
      refine Or.inr (Or.inl ?_)
      simp only [hkind]
      cases s.retain parentId <;> rfl
    | userShared =>
      refine Or.inr (Or.inr ⟨.userShared, some slot.info.label, ?_⟩)
      simp only [hkind]

theorem SpacesMapped.retain (h : SpacesMapped r use s) (id : UInt32) :
    SpacesMapped r use ((s.retain id).getD s) := by
  rcases Aspaces.retain_cases s id with hnone | ⟨i, a, hslot, hsome⟩
  · rw [hnone]
    exact h
  · rw [hsome]
    exact h.setRefcount hslot _

/-- `aspace_switch`: only cr3 changes. -/
theorem SpacesMapped.switch (h : SpacesMapped r use s) (id : UInt32) :
    SpacesMapped r use (s.switch id) := by
  rw [Aspaces.switch]
  split
  · exact h
  · refine h.step rfl (fun _ _ hq => hq) (h.fresh.congr rfl rfl) (fun q _ _ => SamePage.refl q _) ?_
    exact fun j b hj => (h.slots j b hj).keep (fun _ _ hq => hq) fun q _ _ => SamePage.refl q _

theorem SpacesMapped.run (h : SpacesMapped r use s) (op : SpaceOp) :
    ∃ use', SpacesMapped r use' (op.run s) := by
  cases op with
  | create kind label => exact h.create kind label
  | forkClone parentId =>
    rcases Aspaces.forkClone_cases s parentId with hcall | hcall | ⟨kind, label, hcall⟩
    · exact ⟨use, by rw [SpaceOp.run, hcall]; exact h⟩
    · exact ⟨use, by rw [SpaceOp.run, hcall]; exact h.retain parentId⟩
    · rw [SpaceOp.run, hcall]
      exact h.create kind label
  | retain id => exact ⟨use, h.retain id⟩
  | release id => exact ⟨use, h.release id⟩
  | switch id => exact ⟨use, h.switch id⟩
  | write id vaddr data => exact h.write id vaddr data
  | zero id vaddr bytes => exact h.write id vaddr _

/-- `aspace_init`: the kernel's space, which has no tables of its own. -/
theorem SpacesMapped.init (hfresh : Fresh use m) (hreserved : ∀ q, r.reserved q → use q = some .reserved)
    (hkept : ∀ q, IsPage q → r.reserved q → SamePage q r.phys m.phys) (hcr3 : m.cr3 = r.cr3) :
    SpacesMapped r use (aspaceInit m) := by
  refine ⟨hcr3, hfresh, hreserved, hkept, ?_⟩
  have hslot : Aspaces.unusedSlot ⟨fun _ => none, 1, 0, m.cr3, m⟩ = some 0 := rfl
  rw [aspaceInit]
  simp only [Aspaces.create, hslot]
  refine slots_update 0 (fun j b _ hj => absurd hj (by simp)) fun b hb => ?_
  rw [← Option.some.inj hb]
  exact ⟨fun _ => ⟨rfl, rfl⟩, fun hkind => absurd rfl hkind⟩

/-- **Every user space has its tables** in every state a run comes to. -/
theorem SpacesMapped.runAll (h : SpacesMapped r use s) (ops : List SpaceOp) :
    ∃ use', SpacesMapped r use' (runAll SpaceOp.run ops s) := by
  induction ops generalizing use s with
  | nil => exact ⟨use, h⟩
  | cons op ops ih =>
    obtain ⟨use', h'⟩ := h.run op
    exact ih h'

/-! ## Ids

A call names a space by its id, and the id is looked up. Two spaces in use could have one id once
the counter has wrapped; until then each is found by its own.
-/

def SpaceOp.creates : SpaceOp → Bool
  | .create .. | .forkClone _ => true
  | _ => false

/-- The ids of a table whose next id has come at most `n` steps from boot, without a wrap. -/
structure IdsApart (n : Nat) (s : Aspaces) : Prop where
  next : s.nextAspaceId.toNat ≤ n + 2
  below : ∀ i a, s.table i = some a → a.info.id.toNat < s.nextAspaceId.toNat
  apart : ∀ i j a b, s.table i = some a → s.table j = some b → a.info.id = b.info.id → i = j

/-- A slot is cleared, or keeps its id. -/
theorem IdsApart.update {n : Nat} (h : IdsApart n s) {i : Fin aspaceMax} {slot : Option AspaceSlot}
    (hslot : ∀ b, slot = some b → ∃ a, s.table i = some a ∧ b.info.id = a.info.id) :
    IdsApart n { s with table := Function.update s.table i slot } := by
  have hold : ∀ j b, Function.update s.table i slot j = some b →
      ∃ a, s.table j = some a ∧ b.info.id = a.info.id :=
    slots_update i (fun j b _ hj => ⟨b, hj, rfl⟩) hslot
  refine ⟨h.next, fun j b hj => ?_, fun j k b c hj hk hid => ?_⟩
  · obtain ⟨a, ha, hid⟩ := hold j b hj
    rw [hid]
    exact h.below j a ha
  · obtain ⟨a, ha, hb⟩ := hold j b hj
    obtain ⟨d, hd, hc⟩ := hold k c hk
    exact h.apart j k a d ha hd (by rw [← hb, ← hc, hid])

/-- A slot gets the next id. -/
theorem IdsApart.add {n : Nat} (h : IdsApart n s) (hsmall : n + 3 < 2 ^ 32) {i : Fin aspaceMax}
    {b : AspaceSlot} (hid : b.info.id = s.nextAspaceId) (memory : Memory) :
    IdsApart (n + 1) { s with
      table := Function.update s.table i (some b), nextAspaceId := s.nextAspaceId + 1, memory } := by
  have hnext := h.next
  have hsucc : (s.nextAspaceId + 1).toNat = s.nextAspaceId.toNat + 1 := by
    rw [UInt32.toNat_add, show (1 : UInt32).toNat = 1 from rfl]
    omega
  have hnew : ∀ j c, Function.update s.table i (some b) j = some c →
      (j = i ∧ c.info.id = s.nextAspaceId) ∨ s.table j = some c := by
    refine slots_update (P := fun j c => (j = i ∧ c.info.id = s.nextAspaceId) ∨ s.table j = some c)
      i (fun j c _ hj => Or.inr hj) fun c hc => ?_
    rw [← Option.some.inj hc]
    exact Or.inl ⟨rfl, hid⟩
  have hfresh : ∀ j c, s.table j = some c → c.info.id ≠ s.nextAspaceId := fun j c hj heq =>
    Nat.ne_of_lt (h.below j c hj) (congrArg UInt32.toNat heq)
  refine ⟨by rw [hsucc]; omega, fun j c hj => ?_, fun j k c d hj hk heq => ?_⟩
  · rw [hsucc]
    rcases hnew j c hj with ⟨-, hc⟩ | hc
    · rw [hc]
      omega
    · have := h.below j c hc
      omega
  · rcases hnew j c hj with ⟨hji, hc⟩ | hc <;> rcases hnew k d hk with ⟨hki, hd⟩ | hd
    · rw [hji, hki]
    · exact absurd (heq.symm.trans hc) (hfresh k d hd)
    · exact absurd (heq.trans hd) (hfresh j c hc)
    · exact h.apart j k c d hc hd heq

theorem IdsApart.setRefcount {n : Nat} (h : IdsApart n s) (hslot : s.table i = some a)
    (refcount : UInt32) : IdsApart n (s.setRefcount i a refcount) := by
  refine h.update fun b hb => ⟨a, hslot, ?_⟩
  rw [← Option.some.inj hb]

theorem IdsApart.more {n : Nat} (h : IdsApart n s) : IdsApart (n + 1) s :=
  ⟨Nat.le_succ_of_le h.next, h.below, h.apart⟩

/-- `aspace_create` uses an id up, whether it comes to a space or not. -/
theorem IdsApart.create {n : Nat} (h : IdsApart n s) (hsmall : n + 3 < 2 ^ 32) (kind : AspaceKind)
    (label : Option (List UInt8)) : IdsApart (n + 1) (s.create kind label).2 := by
  rw [Aspaces.create]
  cases hfree : s.unusedSlot with
  | none => exact h.more
  | some i =>
    cases kind with
    | kernel => exact h.add hsmall rfl _
    | userShared =>
      have hspec := (cloneKernelRoot_spec s.kernelCr3 (s.newInfo .userShared label)
        (s.newInfo .userShared label) s.memory).1
      cases hclone : cloneKernelRoot s.kernelCr3 (s.newInfo .userShared label) s.memory with
      | mk info memory =>
        rw [hclone] at hspec
        cases info with
        | none =>
          have hnext := h.next
          have hsucc : (s.nextAspaceId + 1).toNat = s.nextAspaceId.toNat + 1 := by
            rw [UInt32.toNat_add, show (1 : UInt32).toNat = 1 from rfl]
            omega
          simp only [hclone]
          refine ⟨by simp only [hsucc]; omega, fun j b hj => ?_, h.apart⟩
          have := h.below j b hj
          simp only [hsucc]
          omega
        | some info =>
          simp only [hclone]
          exact h.add hsmall (hspec info rfl).1 memory

theorem IdsApart.retain {n : Nat} (h : IdsApart n s) (id : UInt32) :
    IdsApart n ((s.retain id).getD s) := by
  rcases Aspaces.retain_cases s id with hnone | ⟨i, a, hslot, hsome⟩
  · rw [hnone]
    exact h
  · rw [hsome]
    exact h.setRefcount hslot _

theorem IdsApart.release {n : Nat} (h : IdsApart n s) (id : UInt32) : IdsApart n (s.release id) := by
  rcases Aspaces.release_cases s id with hsame | ⟨i, a, hslot, -, hgone | ⟨refcount, hdown⟩⟩
  · rw [hsame]
    exact h
  · rw [hgone]
    exact h.update fun b hb => absurd hb (by simp)
  · rw [hdown]
    exact h.setRefcount hslot refcount

theorem IdsApart.run {n : Nat} (h : IdsApart n s) (op : SpaceOp)
    (hsmall : op.creates = true → n + 3 < 2 ^ 32) :
    IdsApart (if op.creates then n + 1 else n) (op.run s) := by
  have hwrite : ∀ id v data, IdsApart n (s.write id v data).2 := by
    intro id v data
    rw [Aspaces.write]
    split
    · exact h
    · exact ⟨h.next, h.below, h.apart⟩
  cases op with
  | create kind label => exact h.create (hsmall rfl) kind label
  | forkClone parentId =>
    simp only [SpaceOp.creates, if_true, SpaceOp.run]
    rcases Aspaces.forkClone_cases s parentId with hcall | hcall | ⟨kind, label, hcall⟩
    · rw [hcall]
      exact h.more
    · rw [hcall]
      exact (h.retain parentId).more
    · rw [hcall]
      exact h.create (hsmall rfl) kind label
  | retain id => exact h.retain id
  | release id => exact h.release id
  | switch id =>
    simp only [SpaceOp.creates, Bool.false_eq_true, if_false, SpaceOp.run, Aspaces.switch]
    split
    · exact h
    · exact ⟨h.next, h.below, h.apart⟩
  | write id v data => exact hwrite id v data
  | zero id v bytes => exact hwrite id v _

theorem IdsApart.init (m : Memory) : IdsApart 0 (aspaceInit m) := by
  have hslot : Aspaces.unusedSlot ⟨fun _ => none, 1, 0, m.cr3, m⟩ = some 0 := rfl
  have hone : ∀ j b, (aspaceInit m).table j = some b → j = 0 ∧ b.info.id = 1 := by
    rw [aspaceInit]
    simp only [Aspaces.create, hslot]
    refine slots_update 0 (fun j b _ hj => absurd hj (by simp)) fun b hb => ?_
    rw [← Option.some.inj hb]
    exact ⟨rfl, rfl⟩
  have hnext : (aspaceInit m).nextAspaceId = 2 := by
    rw [aspaceInit]
    simp only [Aspaces.create, hslot]
    rfl
  refine ⟨by rw [hnext]; decide, fun j b hj => ?_, fun j k b c hj hk _ => ?_⟩
  · rw [(hone j b hj).2, hnext]
    decide
  · rw [(hone j b hj).1, (hone k c hk).1]

theorem IdsApart.runAll {n : Nat} (h : IdsApart n s) (ops : List SpaceOp)
    (hsmall : n + ops.countP SpaceOp.creates + 2 < 2 ^ 32) :
    IdsApart (n + ops.countP SpaceOp.creates) (runAll SpaceOp.run ops s) := by
  induction ops generalizing n s with
  | nil => exact h
  | cons op ops ih =>
    rw [List.countP_cons] at hsmall ⊢
    have hstep := h.run op fun hcreates => by
      rw [if_pos hcreates] at hsmall
      omega
    rw [runAll_cons]
    by_cases hcreates : op.creates = true
    · rw [if_pos hcreates] at hsmall hstep ⊢
      have hrest := ih hstep (by omega)
      rwa [Nat.add_right_comm, Nat.add_assoc] at hrest
    · rw [if_neg hcreates] at hsmall hstep ⊢
      exact ih hstep (by omega)

/-- **Every space is found by its id**, until the ids have gone round. -/
theorem space_found {n : Nat} (h : IdsApart n s) (hslot : s.table i = some a) :
    s.findSlot a.info.id = some i := by
  have hsome : (s.findSlot a.info.id).isSome = true := by
    rw [Aspaces.findSlot, List.find?_isSome]
    exact ⟨i, List.mem_finRange i, by simp [hslot]⟩
  obtain ⟨j, hj⟩ := Option.isSome_iff_exists.mp hsome
  obtain ⟨b, hb, hid⟩ := Aspaces.findSlot_some hj
  rw [hj, h.apart j i b a hb hslot hid]

/-! ## Writing a window

Three things are said of one write: that it is answered exactly when the range and the pages allow
it, what the window holds behind it, and that no other window has changed.
-/

/-- A write of `data` at `v` into the window of the space in slot `i`: it is answered, made
    exactly, and seen in no other window. -/
structure WrittenExactly (s : Aspaces) (i : Fin aspaceMax) (a : AspaceSlot) (v : UInt64)
    (data : List UInt8) (answer : Bool × Aspaces) : Prop where
  ok_iff : answer.1 = true ↔ FitsUserWindow v.toNat data.length ∧
    Affords (missingPages pageBytes v.toNat data.length (userWindow a s.memory)) s.memory
  written : answer.1 = true → userWindow a answer.2.memory =
    sparseWrite pageBytes 0 v.toNat data (userWindow a s.memory)
  table : answer.2.table = s.table
  others : ∀ j b, j ≠ i → s.table j = some b →
    userWindow b answer.2.memory = userWindow b s.memory

theorem SpacesMapped.written (h : SpacesMapped r use s) {id : UInt32}
    (hfind : s.findSlot id = some i) (hslot : s.table i = some a) (hkind : a.info.kind ≠ .kernel)
    (v : UInt64) {data : List UInt8} (hne : data ≠ []) :
    WrittenExactly s i a v data (s.write id v data) := by
  have hpos := List.length_pos_iff.mpr hne
  obtain ⟨hok, htable, use', -, hothers, hwritten⟩ := h.fills hfind hslot hkind v data
  simp only [hpos, true_implies] at hok
  refine ⟨hok, fun h => (hwritten h).1, htable, fun j b hji hj => ?_⟩
  by_cases hb : b.info.kind = .kernel
  · -- the kernel's own space has no window
    have hnull := ((h.slots j b hj).kernel hb).1
    funext u
    rw [userWindow, userWindow, if_neg fun hin => hin.1 hnull, if_neg fun hin => hin.1 hnull]
  · exact hothers j b hji hj hb

/-- The kernel's root of which nothing is known. -/
def KernelRoot.any (cr3 : UInt64) (phys : UInt64 → UInt8) : KernelRoot :=
  ⟨cr3, fun _ => False, phys, fun _ _ => True, fun _ _ _ _ _ => trivial⟩

theorem memoryInit_aligned (entries : List E820Entry) : IsPage (memoryInit entries).allocNext :=
  isPage_pageOf _

theorem spacesMapped_any (entries : List E820Entry) (cr3 : UInt64) {phys : UInt64 → UInt8}
    (honce : ∀ n, (pageAllocs n ((memoryInit entries).memory cr3 phys)).Nodup) :
    SpacesMapped (KernelRoot.any cr3 phys) (fun _ => none)
      (aspaceInit ((memoryInit entries).memory cr3 phys)) :=
  SpacesMapped.init ⟨memoryInit_aligned entries, honce, fun _ _ _ => rfl⟩ (fun _ hq => hq.elim)
    (fun _ _ hq => hq.elim) rfl

/-- **Writes to a user window are exact and private**: in every state reached from boot, for
    every user space, address and data. `page_alloc` returns no page twice. The space is named by
    its id; until the ids have gone round every space is.

    `honce` is the allocator's promise, which `page_alloc_sound` gives for every map clear of the
    end of the address space. `ops` is any run of the calls on spaces from boot. The rest is
    quantified behind that: every space in use, every address, and every piece of data. -/
theorem user_writes_exact (entries : List E820Entry) (cr3 : UInt64) (phys : UInt64 → UInt8)
    (honce : ∀ n, (pageAllocs n ((memoryInit entries).memory cr3 phys)).Nodup)
    (ops : List SpaceOp) :
    let s := runAll SpaceOp.run ops (aspaceInit ((memoryInit entries).memory cr3 phys))
    (∀ id i a, s.findSlot id = some i → s.table i = some a → a.info.kind ≠ .kernel → ∀ v,
      (∀ data, data ≠ [] → WrittenExactly s i a v data (s.write id v data)) ∧
      ∀ bytes : UInt32, bytes ≠ 0 →
        WrittenExactly s i a v (List.replicate bytes.toNat 0) (s.zero id v bytes)) ∧
    (ops.countP SpaceOp.creates + 2 < 2 ^ 32 → ∀ i a, s.table i = some a →
      s.findSlot a.info.id = some i) := by
  intro s
  refine ⟨fun id i a hfind hslot hkind v => ?_, fun hsmall i a hslot => ?_⟩
  swap
  · exact space_found ((IdsApart.init _).runAll ops (by rwa [Nat.zero_add])) hslot
  obtain ⟨use, hmapped⟩ := (spacesMapped_any _ _ honce).runAll ops
  refine ⟨fun data hne => hmapped.written hfind hslot hkind v hne, fun bytes hne => ?_⟩
  refine hmapped.written hfind hslot hkind v fun hnil => hne ?_
  rw [List.replicate_eq_nil_iff] at hnil
  exact UInt32.toNat_inj.mp hnil

/-- Three bytes across the first page boundary of a new window. -/
theorem user_writes_exact_across :
    let s := runAll SpaceOp.run [.create .userShared none]
      (aspaceInit ((memoryInit [⟨0x200000, 0x10000, 1⟩]).memory 0x9000 fun _ => 0))
    ∃ i a, s.findSlot 2 = some i ∧ s.table i = some a ∧ a.info.kind = .userShared ∧
      WrittenExactly s i a 0x40000ffe [1, 2, 3] (s.write 2 0x40000ffe [1, 2, 3]) := by
  intro s
  have hfound : s.findSlot 2 = some 1 := by decide +kernel
  have hkind : (s.table 1).any (fun a => a.info.kind == .userShared) = true := by decide +kernel
  cases hslot : s.table 1 with
  | none =>
    rw [hslot] at hkind
    exact absurd hkind (by simp)
  | some a =>
    rw [hslot, Option.any_some, beq_iff_eq] at hkind
    refine ⟨1, a, hfound, hslot, hkind, ?_⟩
    exact (user_writes_exact [⟨0x200000, 0x10000, 1⟩] 0x9000 (fun _ => 0)
      (fun n => pageAllocs_nodup n (by decide) (by decide))
      [.create .userShared none]).1 2 1 a hfound hslot (by rw [hkind]; decide) 0x40000ffe |>.1 _ (by simp)

end Proof
end BumbelBee
