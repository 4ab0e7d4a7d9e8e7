import BumbelBee.Proof.Ownership

/-!
# The user windows

`aspace_write` and `aspace_zero` go page by page, with an allocation wherever a page is not
there yet. What comes of it is one `sparseWrite` into the window of the space, when the range
lies in the window and `page_alloc` has the pages (`fillUser_spec`).

The loop is not atomic: it may run out of pages half way, and then the pages before are filled and
stay. So the result is about a range for which there are pages, and how many it takes is counted
beforehand, page by page.
-/

namespace BumbelBee
namespace Proof

open Lib Kernel

variable {use use' : UInt64 → Option PageUse} {m : Memory} {i : Fin aspaceMax} {a : AspaceSlot}

/-! ## The loop -/

/-- What is stored into a page that is there. -/
theorem storeChunk (h : UserTable use i a.userPt m) (hfresh : Fresh use m) {v f : UInt64}
    {data : List UInt8} (hin : InUserWindow v.toNat) (hf : IsPage f)
    (huse : use f = some (.frame i (windowIndex v.toNat)))
    (hmaps : m.entry a.userPt (windowIndex v.toNat) = f ||| 0x007)
    (hfits : v.toNat % pageBytes + data.length ≤ pageBytes) :
    let m' := m.store (frameAddr f v.toNat) data
    Filled i use use m m' ∧ UserTable use i a.userPt m' ∧
      ∀ u, userWindow a m' u =
        if v.toNat ≤ u ∧ u < v.toNat + data.length then some (data.getD (u - v.toNat) 0)
        else userWindow a m u := by
  intro m'
  have haddr := toNat_frameAddr hf v.toNat
  have hwithin : Within f (frameAddr f v.toNat) data.length := by
    rw [Within, haddr]
    omega
  -- the store stays in its frame, so the table and every other page are as they were
  have hsame : ∀ q, IsPage q → q ≠ f → SamePage q m.phys m'.phys :=
    fun q hq hne => putBytes_other hf hq hne hwithin
  have hpt : a.userPt ≠ f := fun heq => by
    have hused := h.used
    rw [heq, huse] at hused
    simp at hused
  have hentry : ∀ k : UInt64, k.toNat < 512 → m'.entry a.userPt k = m.entry a.userPt k :=
    fun k hk => entry_same (hsame _ h.page hpt) h.page hk
  refine ⟨⟨fun _ _ hq => hq, hfresh.congr rfl rfl, rfl, fun q hq _ _ hframe => ?_⟩,
    ⟨h.page, h.nonzero, h.used, fun k hk => ?_⟩, fun u => ?_⟩
  · exact hsame q hq fun heq => hframe _ (by rw [heq]; exact huse)
  · rw [hentry k hk]
    exact h.entries k hk
  · by_cases hu : InUserWindow u
    swap
    · have hout : ¬ (v.toNat ≤ u ∧ u < v.toNat + data.length) := by
        rw [inUserWindow_iff] at hin hu
        rw [pageBytes] at hfits
        omega
      rw [if_neg hout, userWindow_outside hu, userWindow_outside hu]
    by_cases hpage : u / pageBytes = v.toNat / pageBytes
    · -- the page that is stored into
      have hindex := (windowIndex_eq hu hin).mpr hpage
      have hend : (frameAddr f v.toNat).toNat + data.length ≤ 2 ^ 64 := hwithin.end_le hf
      rw [userWindow_present h.nonzero hu hf (by rw [hentry _ (windowIndex_lt u), hindex, hmaps]),
        userWindow_present h.nonzero hu hf (by rw [hindex, hmaps]), Memory.store_phys,
        putBytes_at hend, haddr, toNat_frameAddr hf u]
      rw [pageBytes] at hpage hfits ⊢
      by_cases hinside : v.toNat ≤ u ∧ u < v.toNat + data.length
      · rw [if_pos hinside, if_pos (by omega)]
        congr 2
        omega
      · rw [if_neg hinside, if_neg (by omega)]
    · have hout : ¬ (v.toNat ≤ u ∧ u < v.toNat + data.length) := by
        rw [pageBytes] at hpage hfits
        omega
      rw [if_neg hout]
      refine userWindow_congr h (hentry _ (windowIndex_lt u)) fun g hg hguse => hsame g hg fun heq => ?_
      rw [heq, huse, Option.some.injEq, PageUse.frame.injEq] at hguse
      exact hpage ((windowIndex_eq hu hin).mp hguse.2.symm)

theorem affords_of_le {n k : Nat} (h : Affords (n + k) m) : Affords n m := by
  induction n generalizing m with
  | zero => exact affords_zero m
  | succ n ih =>
    rw [Nat.add_right_comm, affords_succ] at h
    rw [affords_succ]
    exact ⟨h.1, ih h.2⟩

/-- A range lies in the user window. -/
def FitsUserWindow (v n : Nat) : Prop :=
  aspaceUserBase.toNat ≤ v ∧ v + n ≤ aspaceUserBase.toNat + aspaceUserWindowSize.toNat

instance (v n : Nat) : Decidable (FitsUserWindow v n) := inferInstanceAs (Decidable (_ ∧ _))

theorem pageRest_eq (v : UInt64) : pageRest v = pageBytes - v.toNat % pageBytes := by
  rw [pageRest, toNat_offset]
  rfl

/-- A range lies in the window when its first page does and the rest of it does. -/
theorem fits_first {v : UInt64} {n : Nat} (hn : 0 < n) (hin : InUserWindow v.toNat) :
    let chunk := min (pageRest v) n
    (v + UInt64.ofNat chunk).toNat = v.toNat + chunk ∧
      (FitsUserWindow v.toNat n ↔
        (0 < n - chunk → FitsUserWindow (v.toNat + chunk) (n - chunk))) := by
  intro chunk
  have hchunk : chunk = min (pageBytes - v.toNat % pageBytes) n := by rw [← pageRest_eq]
  rw [inUserWindow_iff] at hin
  rw [pageBytes] at hchunk
  simp only [FitsUserWindow, userBase_toNat, userWindowSize_toNat]
  refine ⟨?_, by omega⟩
  rw [UInt64.toNat_add, UInt64.toNat_ofNat']
  omega

/-- One round of the loop. -/
theorem fillUser_round {v : UInt64} {data : List UInt8} (hne : data ≠ []) (m : Memory) :
    fillUser a v data m =
      let chunk := min (pageRest v) data.length
      let r := ensureUserPage a (pageOf v) m
      if r.1 then
        fillUser a (v + UInt64.ofNat chunk) (data.drop chunk)
          (r.2.store (pageOf (r.2.entry a.userPt (windowIndex v.toNat)) + (v &&& 0xfff))
            (data.take chunk))
      else (false, r.2) := by
  rw [fillUser, dif_neg hne]
  simp only [windowIndex_pageOf]
  cases ensureUserPage a (pageOf v) m with
  | mk ok m' => cases ok <;> rfl

/-- **The loop of `aspace_write` and `aspace_zero`** is one write into the window. -/
theorem fillUser_spec (a : AspaceSlot) (v : UInt64) (data : List UInt8) (m : Memory) :
    ∀ use : UInt64 → Option PageUse, UserTable use i a.userPt m → Fresh use m →
    ((fillUser a v data m).1 = true ↔ (0 < data.length → FitsUserWindow v.toNat data.length) ∧
        Affords (missingPages pageBytes v.toNat data.length (userWindow a m)) m) ∧
      ∃ use', Filled i use use' m (fillUser a v data m).2 ∧
        UserTable use' i a.userPt (fillUser a v data m).2 ∧
        ((fillUser a v data m).1 = true → userWindow a (fillUser a v data m).2 =
          sparseWrite pageBytes 0 v.toNat data (userWindow a m) ∧
          ∀ k, Affords (missingPages pageBytes v.toNat data.length (userWindow a m) + k) m ↔
            Affords k (fillUser a v data m).2) := by
  induction hlen : data.length using Nat.strongRecOn generalizing v data m with
  | ind n ih =>
    intro use htable hfresh
    by_cases hnil : data = []
    · rw [← hlen, hnil, fillUser, dif_pos rfl]
      refine ⟨⟨fun _ => ⟨fun h => absurd h (Nat.lt_irrefl _), affords_zero m⟩, fun _ => rfl⟩, use,
        Filled.refl hfresh, htable, fun _ => ⟨?_, fun k => ?_⟩⟩
      · rw [sparseWrite_nil]
      · rw [show missingPages pageBytes v.toNat ([] : List UInt8).length (userWindow a m) = 0 from rfl,
          Nat.zero_add]
    have hpos : 0 < n := by
      rw [← hlen]
      exact List.length_pos_iff.mpr hnil
    have hpages : 0 < pageBytes := by decide
    obtain ⟨hok, use₁, hfilled₁, htable₁, hpage⟩ := ensureUserPage_spec htable hfresh v
    -- what the first page takes, and what the rest does
    have hmissing : ∀ xs : List UInt8, xs.length = min (pageBytes - v.toNat % pageBytes) n →
        missingPages pageBytes v.toNat n (userWindow a m) = neededAt a m v.toNat +
          missingPages pageBytes (v.toNat + xs.length) (n - xs.length)
            (sparseWrite pageBytes 0 v.toNat xs (userWindow a m)) :=
      fun xs hxs => missingPages_first hpages (paged_userWindow a m) hpos hxs
    rw [fillUser_round hnil, hlen]
    simp only
    generalize hcall : ensureUserPage a (pageOf v) m = r at hok hfilled₁ htable₁ hpage ⊢
    have htake : (data.take (min (pageRest v) n)).length = min (pageRest v) n := by
      rw [List.length_take, hlen]
      omega
    rw [pageRest_eq] at htake ⊢
    generalize hxs : data.take (min (pageBytes - v.toNat % pageBytes) n) = xs at htake ⊢
    generalize hys : data.drop (min (pageBytes - v.toNat % pageBytes) n) = ys
    have hdata : data = xs ++ ys := by rw [← hxs, ← hys, List.take_append_drop]
    have hrest : ys.length = n - xs.length := by rw [← hlen, hdata, List.length_append]; omega
    specialize hmissing xs htake
    cases hr : r.1 with
    | false =>
      rw [if_neg (by simp)]
      refine ⟨⟨fun h => absurd h (by simp), fun hboth => ?_⟩, use₁, hfilled₁, htable₁,
        fun h => absurd h (by simp)⟩
      have hfits := hboth.1 hpos
      have hin : InUserWindow v.toNat := ⟨hfits.1, by have := hfits.2; omega⟩
      have hneeded : Affords (neededAt a m v.toNat) m := by
        rw [hmissing] at hboth
        exact affords_of_le hboth.2
      rw [hok.mpr ⟨hin, hneeded⟩] at hr
      exact absurd hr (by simp)
    | true =>
      obtain ⟨hafford, ⟨f, hf, hfuse, hmaps⟩, hwindow⟩ := hpage hr
      have hin := (hok.mp hr).1
      have hoff : v &&& 0xfff = UInt64.ofNat (v.toNat % pageBytes) := by
        rw [← toNat_offset, UInt64.ofNat_toNat]
      have hchunk : v.toNat % pageBytes + xs.length ≤ pageBytes := by
        have := Nat.mod_lt v.toNat hpages
        omega
      have hxspos : 0 < xs.length := by
        have := Nat.mod_lt v.toNat hpages
        omega
      obtain ⟨hfilled₂, htable₂, hwindow₂⟩ :=
        storeChunk htable₁ hfilled₁.fresh hin hf hfuse hmaps hchunk
      have hfirst : userWindow a (r.2.store (frameAddr f v.toNat) xs) =
          sparseWrite pageBytes 0 v.toNat xs (userWindow a m) := by
        funext u
        rw [hwindow₂ u, hwindow u, sparseWrite]
        simp only [touches_page hxspos hchunk]
      obtain ⟨hsum, hfits⟩ := fits_first hpos hin
      rw [pageRest_eq, ← htake] at hsum hfits
      rw [if_pos rfl, hmaps, (entry_table hf).2.2.2.1, hoff, ← htake]
      obtain ⟨hok₂, use₂, hfilled, htable₃, hlast⟩ := ih (n - xs.length) (by omega)
        (v + UInt64.ofNat xs.length) ys (r.2.store (frameAddr f v.toNat) xs) hrest use₁ htable₂
        hfilled₂.fresh
      rw [hfirst, hsum] at hok₂
      rw [hfirst, hsum] at hlast
      have hstored : ∀ k, Affords k (r.2.store (frameAddr f v.toNat) xs) ↔ Affords k r.2 :=
        affords_congr (store_allocNext _ _ _) (store_allocLimit _ _ _)
      rw [show f + UInt64.ofNat (v.toNat % pageBytes) = frameAddr f v.toNat from rfl]
      refine ⟨?_, use₂, (hfilled₁.trans hfilled₂).trans hfilled, htable₃, fun h => ⟨?_, fun k => ?_⟩⟩
      · rw [hok₂, hmissing, hafford, hstored]
        simp only [hpos, true_implies, hfits]
      · rw [hdata, sparseWrite_append]
        exact (hlast h).1
      · rw [← (hlast h).2 k, hmissing, Nat.add_assoc, hafford, hstored]

end Proof
end BumbelBee
