import BumbelBee.Lib.Sparse
import BumbelBee.Proof.Tables

/-!
# Who uses which page

`page_alloc` takes no page back, so a page belongs for good to what it was allocated for. That
is recorded beside the memory: `use` says what each page is, and a page has one use. Two tables
of different spaces are therefore different pages, and what is stored into the pages of one
space leaves every other space's as they were (`Filled.keeps`).

`ensureUserPage_spec` says what one page of a window takes.

The uses are not in the code, which keeps no record of what a page is for. But every page that is in
use was given out by one call of `page_alloc` to one caller, so that the record can be kept beside
the run, and it is never contradicted since nothing is taken back. That is all the isolation there
is.
-/

namespace BumbelBee
namespace Proof

open Lib Kernel

/-- What a page is used for. -/
inductive PageUse
  /-- It was in use before the first `page_alloc`. -/
  | reserved
  | pml4 (i : Fin aspaceMax)
  | pdpt (i : Fin aspaceMax)
  | pd (i : Fin aspaceMax)
  | pt (i : Fin aspaceMax)
  /-- The page of the user window that the entry maps. -/
  | frame (i : Fin aspaceMax) (index : UInt64)
deriving DecidableEq, Repr

variable {use use' use'' : UInt64 → Option PageUse} {m m' m'' : Memory} {i : Fin aspaceMax}
  {q : UInt64} {a : AspaceSlot}

/-! ## The pages `page_alloc` has left -/

/-- The pages `page_alloc` will return are nobody's, and each comes once. -/
structure Fresh (use : UInt64 → Option PageUse) (m : Memory) : Prop where
  aligned : IsPage m.allocNext
  once : ∀ n, (pageAllocs n m).Nodup
  unused : ∀ n, ∀ p ∈ pageAllocs n m, use p = none

/-- The next `n` calls of `page_alloc` all return a page. -/
def Affords (n : Nat) (m : Memory) : Prop := (pageAllocs n m).length = n

theorem pageAlloc_cases (m : Memory) : pageAlloc m = (0, m) ∨ pageAlloc m =
    (m.allocNext, { m with allocNext := m.allocNext + 4096, usedBytes := m.usedBytes + 4096 }) := by
  rw [pageAlloc]
  split
  · exact Or.inl rfl
  · exact Or.inr rfl

@[simp] theorem pageAlloc_phys (m : Memory) : (pageAlloc m).2.phys = m.phys := by
  rcases pageAlloc_cases m with h | h <;> rw [h]

@[simp] theorem pageAlloc_cr3 (m : Memory) : (pageAlloc m).2.cr3 = m.cr3 := by
  rcases pageAlloc_cases m with h | h <;> rw [h]

/-- What one call returns and leaves depends on where the allocator stands. -/
theorem pageAlloc_congr (hnext : m'.allocNext = m.allocNext) (hlimit : m'.allocLimit = m.allocLimit) :
    (pageAlloc m').1 = (pageAlloc m).1 ∧ (pageAlloc m').2.allocNext = (pageAlloc m).2.allocNext ∧
      (pageAlloc m').2.allocLimit = (pageAlloc m).2.allocLimit := by
  rw [pageAlloc, pageAlloc, hnext, hlimit]
  split
  · exact ⟨rfl, hnext, hlimit⟩
  · exact ⟨rfl, rfl, rfl⟩

theorem pageAllocs_succ (n : Nat) (m : Memory) : pageAllocs (n + 1) m =
    (if (pageAlloc m).1 = 0 then [] else [(pageAlloc m).1]) ++ pageAllocs n (pageAlloc m).2 := by
  cases hcall : pageAlloc m with
  | mk page m' => rw [pageAllocs, hcall]

theorem pageAllocs_congr (hnext : m'.allocNext = m.allocNext) (hlimit : m'.allocLimit = m.allocLimit) :
    ∀ n, pageAllocs n m' = pageAllocs n m := by
  intro n
  induction n generalizing m m' with
  | zero => rfl
  | succ n ih =>
    obtain ⟨hpage, hnext', hlimit'⟩ := pageAlloc_congr hnext hlimit
    rw [pageAllocs_succ, pageAllocs_succ, hpage, ih hnext' hlimit']

theorem affords_congr (hnext : m'.allocNext = m.allocNext) (hlimit : m'.allocLimit = m.allocLimit)
    (n : Nat) : Affords n m' ↔ Affords n m := by
  rw [Affords, Affords, pageAllocs_congr hnext hlimit]

theorem length_pageAllocs_le (n : Nat) (m : Memory) : (pageAllocs n m).length ≤ n := by
  induction n generalizing m with
  | zero => exact Nat.le_refl _
  | succ n ih =>
    have hrest := ih (pageAlloc m).2
    rw [pageAllocs_succ, List.length_append]
    split
    · rw [List.length_nil]
      omega
    · rw [List.length_singleton]
      omega

theorem affords_zero (m : Memory) : Affords 0 m := rfl

/-- One page, and then the others. -/
theorem affords_succ (n : Nat) (m : Memory) :
    Affords (n + 1) m ↔ (pageAlloc m).1 ≠ 0 ∧ Affords n (pageAlloc m).2 := by
  have hrest := length_pageAllocs_le n (pageAlloc m).2
  rw [Affords, Affords, pageAllocs_succ, List.length_append]
  by_cases hzero : (pageAlloc m).1 = 0
  · rw [if_pos hzero, List.length_nil]
    exact ⟨fun h => by omega, fun h => absurd hzero h.1⟩
  · rw [if_neg hzero, List.length_singleton]
    exact ⟨fun h => ⟨hzero, by omega⟩, fun h => by omega⟩

theorem Fresh.congr (h : Fresh use m) (hnext : m'.allocNext = m.allocNext)
    (hlimit : m'.allocLimit = m.allocLimit) : Fresh use m' where
  aligned := by rw [hnext]; exact h.aligned
  once n := by rw [pageAllocs_congr hnext hlimit]; exact h.once n
  unused n := by rw [pageAllocs_congr hnext hlimit]; exact h.unused n

/-- **`page_alloc`**: what it returns is a page that nobody uses, and can be put to a use. -/
theorem Fresh.alloc (h : Fresh use m) : Fresh use (pageAlloc m).2 ∧ ((pageAlloc m).1 ≠ 0 →
    IsPage (pageAlloc m).1 ∧ use (pageAlloc m).1 = none ∧
      ∀ o, Fresh (Function.update use (pageAlloc m).1 (some o)) (pageAlloc m).2) := by
  have haligned : IsPage (pageAlloc m).2.allocNext := by
    rcases pageAlloc_cases m with hcall | hcall
    · rw [hcall]
      exact h.aligned
    · rw [hcall]
      have hpage := h.aligned
      simp only [IsPage, pageBytes, UInt64.toNat_add, UInt64.reduceToNat] at hpage ⊢
      omega
  have hold : Fresh use (pageAlloc m).2 := by
    refine ⟨haligned, fun n => ?_, fun n p hp => h.unused (n + 1) p ?_⟩
    · have honce := h.once (n + 1)
      rw [pageAllocs_succ] at honce
      exact (List.nodup_append.mp honce).2.1
    · rw [pageAllocs_succ]
      exact List.mem_append_right _ hp
  refine ⟨hold, fun hne => ?_⟩
  have hfirst : (pageAlloc m).1 ∈ pageAllocs 1 m := by
    rw [pageAllocs_succ, if_neg hne]
    exact List.mem_append_left _ List.mem_cons_self
  refine ⟨?_, h.unused 1 _ hfirst, fun o => ⟨haligned, hold.once, fun n p hp => ?_⟩⟩
  · rcases pageAlloc_cases m with hcall | hcall
    · rw [hcall] at hne
      exact absurd rfl hne
    · rw [hcall]
      exact h.aligned
  · have honce := h.once (n + 1)
    rw [pageAllocs_succ, if_neg hne, List.singleton_append, List.nodup_cons] at honce
    rw [Function.update_of_ne fun heq => honce.1 (by rw [← heq]; exact hp)]
    exact hold.unused n p hp

/-- A page is taken, for a use. -/
theorem Fresh.take (h : Fresh use m) {p : UInt64} (hcall : pageAlloc m = (p, m')) (hne : p ≠ 0)
    (o : PageUse) : IsPage p ∧ use p = none ∧ Fresh (Function.update use p (some o)) m' ∧
      ∀ q o', use q = some o' → Function.update use p (some o) q = some o' := by
  have halloc := h.alloc
  rw [hcall] at halloc
  obtain ⟨hpage, hfree, hput⟩ := halloc.2 hne
  refine ⟨hpage, hfree, hput o, fun q o' hq => ?_⟩
  rw [Function.update_of_ne _ _ _, hq]
  intro heq
  rw [heq, hfree] at hq
  exact absurd hq (by simp)

/-! What is stored leaves the allocator and the root alone. -/

section
variable (addr : UInt64) (bytes : List UInt8) (n : Nat) (t k e : UInt64) (m : Memory)

@[simp] theorem store_cr3 : (m.store addr bytes).cr3 = m.cr3 := rfl
@[simp] theorem store_allocNext : (m.store addr bytes).allocNext = m.allocNext := rfl
@[simp] theorem store_allocLimit : (m.store addr bytes).allocLimit = m.allocLimit := rfl
@[simp] theorem clear_cr3 : (m.clear addr n).cr3 = m.cr3 := store_cr3 _ _ _
@[simp] theorem clear_allocNext : (m.clear addr n).allocNext = m.allocNext := store_allocNext _ _ _
@[simp] theorem clear_allocLimit : (m.clear addr n).allocLimit = m.allocLimit := store_allocLimit _ _ _
@[simp] theorem setEntry_cr3 : (m.setEntry t k e).cr3 = m.cr3 := store_cr3 _ _ _
@[simp] theorem setEntry_allocNext : (m.setEntry t k e).allocNext = m.allocNext := store_allocNext _ _ _
@[simp] theorem setEntry_allocLimit : (m.setEntry t k e).allocLimit = m.allocLimit :=
  store_allocLimit _ _ _

end

/-! ## The page table of a user window -/

/-- The page table of space `i`: every entry is empty or maps a page of the space. -/
structure UserTable (use : UInt64 → Option PageUse) (i : Fin aspaceMax) (pt : UInt64) (m : Memory) :
    Prop where
  page : IsPage pt
  nonzero : pt ≠ 0
  used : use pt = some (.pt i)
  entries : ∀ k : UInt64, k.toNat < 512 → m.entry pt k = 0 ∨
    ∃ f, IsPage f ∧ use f = some (.frame i k) ∧ m.entry pt k = f ||| 0x007

/-- The user window, by address. -/
def InUserWindow (u : Nat) : Prop :=
  aspaceUserBase.toNat ≤ u ∧ u < aspaceUserBase.toNat + aspaceUserWindowSize.toNat

instance (u : Nat) : Decidable (InUserWindow u) := inferInstanceAs (Decidable (_ ∧ _))

/-- The entry of the window's page table that an address of the window goes through. -/
def windowIndex (u : Nat) : UInt64 := tableIndex 12 (UInt64.ofNat u)

/-- What is read at an address of the window through `user_pt`: `none` where no page is. -/
def userWindow (a : AspaceSlot) (m : Memory) : Nat → Option UInt8 := fun u =>
  let e := m.entry a.userPt (windowIndex u)
  if a.userPt ≠ 0 ∧ InUserWindow u ∧ entryPresent e then
    some (m.phys (pageOf e + (UInt64.ofNat u &&& 0xfff)))
  else none

theorem userBase_toNat : aspaceUserBase.toNat = 0x40000000 := rfl
theorem userWindowSize_toNat : aspaceUserWindowSize.toNat = 0x200000 := rfl

theorem inUserWindow_iff (u : Nat) : InUserWindow u ↔ 0x40000000 ≤ u ∧ u < 0x40200000 := by
  rw [InUserWindow, userBase_toNat, userWindowSize_toNat]

theorem windowIndex_lt (u : Nat) : (windowIndex u).toNat < 512 := tableIndex_lt _ _

theorem toNat_windowIndex {u : Nat} (h : InUserWindow u) :
    (windowIndex u).toNat = (u - 0x40000000) / 4096 := by
  rw [inUserWindow_iff] at h
  rw [windowIndex, toNat_tableIndex (by decide), UInt64.toNat_ofNat_of_lt' (by simp [UInt64.size]; omega),
    show (12 : UInt64).toNat = 12 from rfl]
  omega

/-- In the window, an entry is a page. -/
theorem windowIndex_eq {u u' : Nat} (h : InUserWindow u) (h' : InUserWindow u') :
    windowIndex u = windowIndex u' ↔ u / pageBytes = u' / pageBytes := by
  rw [← UInt64.toNat_inj, toNat_windowIndex h, toNat_windowIndex h', pageBytes]
  rw [inUserWindow_iff] at h h'
  omega

theorem userWindow_outside {u : Nat} (h : ¬ InUserWindow u) : userWindow a m u = none :=
  if_neg fun hin => h hin.2.1

theorem userWindow_absent {u : Nat} (h : m.entry a.userPt (windowIndex u) = 0) :
    userWindow a m u = none := by
  refine if_neg fun hin => ?_
  have hpresent := hin.2.2
  rw [h] at hpresent
  exact absurd hpresent (by decide)

/-- The byte of a page that an address stands for. -/
def frameAddr (f : UInt64) (u : Nat) : UInt64 := f + UInt64.ofNat (u % pageBytes)

theorem toNat_frameAddr {f : UInt64} (hf : IsPage f) (u : Nat) :
    (frameAddr f u).toNat = f.toNat + u % pageBytes :=
  toNat_add_ofNat hf.stop_le (Nat.mod_lt _ (by decide))

theorem inPage_frameAddr {f : UInt64} (hf : IsPage f) (u : Nat) : InPage f (frameAddr f u) := by
  have hlt : u % pageBytes < pageBytes := Nat.mod_lt _ (by decide)
  rw [InPage, toNat_frameAddr hf]
  omega

theorem userWindow_present {u : Nat} {f : UInt64} (hpt : a.userPt ≠ 0) (hin : InUserWindow u)
    (hf : IsPage f) (h : m.entry a.userPt (windowIndex u) = f ||| 0x007) :
    userWindow a m u = some (m.phys (frameAddr f u)) := by
  have hsmall : u < UInt64.size := by
    rw [inUserWindow_iff] at hin
    simp only [UInt64.size]
    omega
  have hoff : UInt64.ofNat u &&& 0xfff = UInt64.ofNat (u % pageBytes) := by
    have hlt : u % pageBytes < pageBytes := Nat.mod_lt _ (by decide)
    rw [← UInt64.toNat_inj, toNat_offset, UInt64.toNat_ofNat_of_lt' hsmall,
      UInt64.toNat_ofNat_of_lt' (by simp only [UInt64.size, pageBytes] at hlt ⊢; omega)]
  obtain ⟨hpresent, -, -, hpage, -⟩ := entry_table hf
  simp only [userWindow, h]
  rw [if_pos ⟨hpt, hin, hpresent⟩, hpage, hoff]
  rfl

/-- An address reads the same when its entry and the page behind it are as they were. -/
theorem userWindow_congr (h : UserTable use i a.userPt m) {u : Nat}
    (hentry : m'.entry a.userPt (windowIndex u) = m.entry a.userPt (windowIndex u))
    (hframe : ∀ f, IsPage f → use f = some (.frame i (windowIndex u)) → SamePage f m.phys m'.phys) :
    userWindow a m' u = userWindow a m u := by
  by_cases hin : InUserWindow u
  · rcases h.entries _ (windowIndex_lt u) with hempty | ⟨f, hf, huse, hmaps⟩
    · rw [userWindow_absent hempty, userWindow_absent (hentry.trans hempty)]
    · rw [userWindow_present h.nonzero hin hf hmaps,
        userWindow_present h.nonzero hin hf (hentry.trans hmaps),
        hframe f hf huse _ (inPage_frameAddr hf u)]
  · rw [userWindow_outside hin, userWindow_outside hin]

theorem paged_userWindow (a : AspaceSlot) (m : Memory) : Paged pageBytes (userWindow a m) := by
  have hpresent : ∀ u, (userWindow a m u).isNone = !decide (a.userPt ≠ 0 ∧ InUserWindow u ∧
      entryPresent (m.entry a.userPt (windowIndex u))) := by
    intro u
    rw [userWindow]
    split
    · rename_i h
      rw [decide_eq_true h]
      rfl
    · rename_i h
      rw [decide_eq_false h]
      rfl
  intro u u' hsame
  have hin : InUserWindow u ↔ InUserWindow u' := by
    rw [inUserWindow_iff, inUserWindow_iff]
    rw [pageBytes] at hsame
    omega
  rw [hpresent, hpresent, Bool.not_inj_iff, decide_eq_decide]
  by_cases hw : InUserWindow u
  · rw [(windowIndex_eq hw (hin.mp hw)).mpr hsame, iff_true_intro hw, iff_true_intro (hin.mp hw)]
  · exact ⟨fun h => absurd h.2.1 hw, fun h => absurd (hin.mpr h.2.1) hw⟩

/-! ## One page -/

/-- What filling the window of space `i` does to everything else. -/
structure Filled (i : Fin aspaceMax) (use use' : UInt64 → Option PageUse) (m m' : Memory) : Prop where
  grows : ∀ q o, use q = some o → use' q = some o
  fresh : Fresh use' m'
  cr3 : m'.cr3 = m.cr3
  keeps : ∀ q, IsPage q → use q ≠ none → use q ≠ some (.pt i) →
    (∀ k, use q ≠ some (.frame i k)) → SamePage q m.phys m'.phys

theorem Filled.refl (h : Fresh use m) : Filled i use use m m :=
  ⟨fun _ _ hq => hq, h, rfl, fun q _ _ _ _ => SamePage.refl q _⟩

theorem Filled.trans (h : Filled i use use' m m') (h' : Filled i use' use'' m' m'') :
    Filled i use use'' m m'' where
  grows q o hq := h'.grows q o (h.grows q o hq)
  fresh := h'.fresh
  cr3 := h'.cr3.trans h.cr3
  keeps q hpage hused hpt hframe := by
    obtain ⟨o, ho⟩ := Option.ne_none_iff_exists'.mp hused
    have hsame : use' q = use q := by rw [h.grows q o ho, ho]
    refine (h.keeps q hpage hused hpt hframe).trans (h'.keeps q hpage ?_ ?_ ?_)
    · rw [hsame]
      exact hused
    · rw [hsame]
      exact hpt
    · rw [hsame]
      exact hframe

/-- A page that was not there comes in, full of zeroes. -/
theorem enterPage (h : UserTable use i a.userPt m) (hfresh : Fresh use m) {k f : UInt64}
    {m₁ : Memory} (hk : k.toNat < 512) (hcall : pageAlloc m = (f, m₁)) (hne : f ≠ 0) :
    let m' := (m₁.clear f pageSize).setEntry a.userPt k (f ||| 0x007)
    let use' := Function.update use f (some (.frame i k))
    Filled i use use' m m' ∧ UserTable use' i a.userPt m' ∧ IsPage f ∧
      m'.entry a.userPt k = f ||| 0x007 ∧
      ∀ u, userWindow a m' u =
        if InUserWindow u ∧ windowIndex u = k then some 0 else userWindow a m u := by
  intro m' use'
  have hphys : m₁.phys = m.phys := by rw [← pageAlloc_phys m, hcall]
  have hcr3 : m₁.cr3 = m.cr3 := by rw [← pageAlloc_cr3 m, hcall]
  obtain ⟨hf, hfree, htaken, hgrows⟩ := hfresh.take hcall hne (.frame i k)
  have hapart : ∀ q, use q ≠ none → q ≠ f := fun q hq heq => hq (by rw [heq]; exact hfree)
  have hpt : a.userPt ≠ f := hapart _ (by rw [h.used]; simp)
  -- only the new page and the page table are stored into
  have hsame : ∀ q, IsPage q → q ≠ f → q ≠ a.userPt → SamePage q m.phys m'.phys := by
    intro q hq hqf hqpt
    have hclear : SamePage q m₁.phys (m₁.clear f pageSize).phys := clear_other hf hq hqf
    rw [hphys] at hclear
    exact hclear.trans (setEntry_other h.page hk hq hqpt)
  have hzero : ∀ addr, InPage f addr → m'.phys addr = 0 := by
    intro addr haddr
    have hset : SamePage f (m₁.clear f pageSize).phys m'.phys := setEntry_other h.page hk hf hpt.symm
    rw [hset addr haddr, clear_zero hf haddr]
  have hentry : ∀ j : UInt64, j.toNat < 512 →
      m'.entry a.userPt j = if j = k then f ||| 0x007 else m.entry a.userPt j := by
    intro j hj
    have hclear : SamePage a.userPt m₁.phys (m₁.clear f pageSize).phys :=
      clear_other hf h.page hpt
    rw [hphys] at hclear
    rw [entry_setEntry h.page hk hj, entry_same hclear h.page hj]
  have hold : ∀ j : UInt64, ∀ g, use g = some (.frame i j) → IsPage g →
      SamePage g m.phys m'.phys := by
    intro j g hg hpage
    refine hsame g hpage (hapart g (by rw [hg]; simp)) fun heq => ?_
    rw [heq, h.used] at hg
    simp at hg
  refine ⟨⟨hgrows, ?_, ?_, ?_⟩, ⟨h.page, h.nonzero, hgrows _ _ h.used, ?_⟩, hf, ?_, ?_⟩
  · exact htaken.congr (by simp [m']) (by simp [m'])
  · rw [setEntry_cr3, clear_cr3, hcr3]
  · intro q hq hused hqpt _
    refine hsame q hq (hapart q hused) fun heq => hqpt ?_
    rw [heq, h.used]
  · intro j hj
    rw [hentry j hj]
    by_cases heq : j = k
    · rw [if_pos heq, heq]
      exact Or.inr ⟨f, hf, Function.update_self _ _ _, rfl⟩
    · rw [if_neg heq]
      rcases h.entries j hj with hnone | ⟨g, hg, hguse, hgmaps⟩
      · exact Or.inl hnone
      · exact Or.inr ⟨g, hg, hgrows g _ hguse, hgmaps⟩
  · rw [hentry k hk, if_pos rfl]
  · intro u
    split
    · rename_i hin
      have hmaps : m'.entry a.userPt (windowIndex u) = f ||| 0x007 := by
        rw [hentry _ (windowIndex_lt u), if_pos hin.2]
      rw [userWindow_present h.nonzero hin.1 hf hmaps, hzero _ (inPage_frameAddr hf u)]
    · rename_i hout
      by_cases hin : InUserWindow u
      · have hindex : windowIndex u ≠ k := fun heq => hout ⟨hin, heq⟩
        refine userWindow_congr h ?_ fun g hpage hg => hold _ g hg hpage
        rw [hentry _ (windowIndex_lt u), if_neg hindex]
      · rw [userWindow_outside hin, userWindow_outside hin]

/-- The pages a write of one byte would have to bring in. -/
def neededAt (a : AspaceSlot) (m : Memory) (u : Nat) : Nat :=
  if (userWindow a m u).isNone then 1 else 0

theorem windowIndex_pageOf (v : UInt64) : tableIndex 12 (pageOf v) = windowIndex v.toNat := by
  rw [windowIndex, UInt64.ofNat_toNat, ← UInt64.toNat_inj, toNat_tableIndex (by decide),
    toNat_tableIndex (by decide), pageOf, toNat_page, show (12 : UInt64).toNat = 12 from rfl, pageBytes]
  omega

theorem pageOf_pageOf (v : UInt64) : pageOf (pageOf v) = pageOf v := by
  rw [← UInt64.toNat_inj, pageOf, pageOf, toNat_page, toNat_page, pageBytes]
  omega

/-- `ensure_user_page` looks at the page; it is the address that is in the window. -/
theorem page_outside (v : UInt64) : (pageOf v < aspaceUserBase ∨
    pageOf v ≥ aspaceUserBase + aspaceUserWindowSize) ↔ ¬ InUserWindow v.toNat := by
  rw [inUserWindow_iff, ge_iff_le, UInt64.le_iff_toNat_le, UInt64.lt_iff_toNat_lt, pageOf, toNat_page,
    show (aspaceUserBase + aspaceUserWindowSize).toNat = 0x40200000 from rfl, userBase_toNat, pageBytes]
  omega

/-- **`ensure_user_page`**: the page of the address is there afterwards. -/
theorem ensureUserPage_spec (h : UserTable use i a.userPt m) (hfresh : Fresh use m) (v : UInt64) :
    ((ensureUserPage a (pageOf v) m).1 = true ↔
      InUserWindow v.toNat ∧ Affords (neededAt a m v.toNat) m) ∧
    ∃ use', Filled i use use' m (ensureUserPage a (pageOf v) m).2 ∧
      UserTable use' i a.userPt (ensureUserPage a (pageOf v) m).2 ∧
      ((ensureUserPage a (pageOf v) m).1 = true →
        (∀ n, Affords (neededAt a m v.toNat + n) m ↔ Affords n (ensureUserPage a (pageOf v) m).2) ∧
        (∃ f, IsPage f ∧ use' f = some (.frame i (windowIndex v.toNat)) ∧
          (ensureUserPage a (pageOf v) m).2.entry a.userPt (windowIndex v.toNat) = f ||| 0x007) ∧
        ∀ u, userWindow a (ensureUserPage a (pageOf v) m).2 u =
          if u / pageBytes = v.toNat / pageBytes then some ((userWindow a m u).getD 0)
          else userWindow a m u) := by
  rw [ensureUserPage]
  simp only [pageOf_pageOf, windowIndex_pageOf, if_neg h.nonzero, page_outside]
  by_cases hin : InUserWindow v.toNat
  swap
  · rw [if_pos hin]
    refine ⟨⟨fun hfalse => absurd hfalse (by simp), fun hboth => absurd hboth.1 hin⟩, use,
      Filled.refl hfresh, h, fun hfalse => absurd hfalse (by simp)⟩
  rw [if_neg (not_not.mpr hin)]
  have hlt := windowIndex_lt v.toNat
  have hsamePage : ∀ u, InUserWindow u ∧ windowIndex u = windowIndex v.toNat ↔
      u / pageBytes = v.toNat / pageBytes := by
    intro u
    constructor
    · exact fun hu => (windowIndex_eq hu.1 hin).mp hu.2
    · intro hpage
      have hu : InUserWindow u := by
        rw [inUserWindow_iff] at hin ⊢
        rw [pageBytes] at hpage
        omega
      exact ⟨hu, (windowIndex_eq hu hin).mpr hpage⟩
  rcases h.entries (windowIndex v.toNat) hlt with hempty | ⟨f, hf, huse, hmaps⟩
  · -- the page has to be allocated
    have hnone : ∀ u, u / pageBytes = v.toNat / pageBytes → userWindow a m u = none := by
      intro u hu
      apply userWindow_absent
      rw [((hsamePage u).mpr hu).2, hempty]
    have hneeded : neededAt a m v.toNat = 1 := by
      rw [neededAt, hnone _ rfl]
      rfl
    rw [hempty, if_neg (by decide), hneeded]
    cases hcall : pageAlloc m with
    | mk f m₁ =>
      have hone : Affords 1 m ↔ f ≠ 0 := by
        rw [affords_succ, hcall]
        exact and_iff_left (affords_zero _)
      simp only
      by_cases hzero : f = 0
      · rw [if_pos hzero]
        have halloc := hfresh.alloc.1
        have hphys : m₁.phys = m.phys := by rw [← pageAlloc_phys m, hcall]
        rw [hcall] at halloc
        refine ⟨⟨fun hfalse => absurd hfalse (by simp), fun hboth => absurd hzero (hone.mp hboth.2)⟩,
          use, ⟨fun _ _ hq => hq, halloc, ?_, fun q _ _ _ _ => ?_⟩, ⟨h.page, h.nonzero, h.used, ?_⟩,
          fun hfalse => absurd hfalse (by simp)⟩
        · exact (congrArg (fun r => r.2.cr3) hcall).symm.trans (pageAlloc_cr3 m)
        · rw [hphys]
          exact SamePage.refl q _
        · intro j hj
          have hsame : m₁.entry a.userPt j = m.entry a.userPt j :=
            entry_same (by rw [hphys]; exact SamePage.refl _ _) h.page hj
          rw [hsame]
          exact h.entries j hj
      · rw [if_neg hzero]
        obtain ⟨hfilled, htable, hf, hentry, hwindow⟩ := enterPage h hfresh hlt hcall hzero
        refine ⟨⟨fun _ => ⟨hin, hone.mpr hzero⟩, fun _ => rfl⟩, _, hfilled, htable, fun _ =>
          ⟨fun n => ?_, ⟨f, hf, Function.update_self _ _ _, hentry⟩, fun u => ?_⟩⟩
        · rw [Nat.add_comm, affords_succ, hcall]
          simp only [ne_eq, hzero, not_false_eq_true, true_and]
          exact (affords_congr (by simp) (by simp) n).symm
        · rw [hwindow u]
          by_cases hpage : u / pageBytes = v.toNat / pageBytes
          · rw [if_pos ((hsamePage u).mpr hpage), if_pos hpage, hnone u hpage]
            rfl
          · rw [if_neg fun hboth => hpage ((hsamePage u).mp hboth), if_neg hpage]
  · -- the page is there
    have hsome : ∀ u, u / pageBytes = v.toNat / pageBytes →
        userWindow a m u = some (m.phys (frameAddr f u)) := by
      intro u hu
      obtain ⟨huin, hentry⟩ := (hsamePage u).mpr hu
      exact userWindow_present h.nonzero huin hf (by rw [hentry, hmaps])
    have hneeded : neededAt a m v.toNat = 0 := by
      rw [neededAt, hsome _ rfl]
      rfl
    have hpresent : (f ||| 0x007) &&& 1 ≠ 0 := by
      have hbit := (entry_table hf).1
      rwa [entryPresent, bne_iff_ne] at hbit
    rw [hmaps, if_pos hpresent, hneeded]
    refine ⟨⟨fun _ => ⟨hin, affords_zero m⟩, fun _ => rfl⟩, use, Filled.refl hfresh, h, fun _ =>
      ⟨fun n => by rw [Nat.zero_add], ⟨f, hf, huse, hmaps⟩, fun u => ?_⟩⟩
    split
    · rename_i hpage
      rw [hsome u hpage]
      rfl
    · rfl

end Proof
end BumbelBee
