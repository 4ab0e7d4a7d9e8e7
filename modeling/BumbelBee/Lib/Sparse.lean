import Mathlib.Data.List.GetD
import Mathlib.Data.List.Range

/-!
# A memory with some of its pages there

`some` is a byte of a page that is there, `none` one of a page that is not. Writing brings in
every page it touches, filled with `zero`, and then puts the data: that is one operation here,
however many steps it takes. Writing in two parts comes to the same (`sparseWrite_append`), and
needs the pages the first part misses and then those the second does (`missingPages_first`).
-/

namespace BumbelBee
namespace Lib

variable {α : Type _} {page addr n u : Nat} {zero : α} {data : List α} {w : Nat → Option α}

/-- A write of `n` bytes touches the page of `u`. -/
def Touches (page addr n u : Nat) : Prop :=
  0 < n ∧ addr / page ≤ u / page ∧ u / page ≤ (addr + n - 1) / page

instance (page addr n u : Nat) : Decidable (Touches page addr n u) :=
  inferInstanceAs (Decidable (_ ∧ _ ∧ _))

def sparseWrite (page : Nat) (zero : α) (addr : Nat) (data : List α) (w : Nat → Option α) :
    Nat → Option α := fun u =>
  if addr ≤ u ∧ u < addr + data.length then some (data.getD (u - addr) zero)
  else if Touches page addr data.length u then some ((w u).getD zero)
  else w u

/-- The numbers of the pages a write touches. -/
def touchedPages (page addr n : Nat) : List Nat :=
  if n = 0 then [] else List.range' (addr / page) ((addr + n - 1) / page + 1 - addr / page)

/-- How many of them are not there yet. -/
def missingPages (page addr n : Nat) (w : Nat → Option α) : Nat :=
  (touchedPages page addr n).countP fun k => (w (k * page)).isNone

/-- A page is there as a whole or not at all. -/
def Paged (page : Nat) (w : Nat → Option α) : Prop :=
  ∀ u u', u / page = u' / page → (w u).isNone = (w u').isNone

/-! ## Writing -/

@[simp] theorem sparseWrite_nil : sparseWrite page zero addr [] w = w := by
  funext u
  simp [sparseWrite, Touches]

theorem touches_self (h : addr ≤ u ∧ u < addr + n) : Touches page addr n u := by
  refine ⟨by omega, Nat.div_le_div_right h.1, Nat.div_le_div_right ?_⟩
  omega

/-- What is put reads back. -/
theorem sparseWrite_inside (h : addr ≤ u ∧ u < addr + data.length) :
    sparseWrite page zero addr data w u = some (data.getD (u - addr) zero) := if_pos h

theorem sparseWrite_beside (h : ¬ (addr ≤ u ∧ u < addr + data.length))
    (ht : Touches page addr data.length u) :
    sparseWrite page zero addr data w u = some ((w u).getD zero) := by
  rw [sparseWrite, if_neg h, if_pos ht]

theorem sparseWrite_elsewhere (h : ¬ Touches page addr data.length u) :
    sparseWrite page zero addr data w u = w u := by
  rw [sparseWrite, if_neg fun hin => h (touches_self hin), if_neg h]

theorem isNone_sparseWrite (u : Nat) : (sparseWrite page zero addr data w u).isNone =
    (!decide (Touches page addr data.length u) && (w u).isNone) := by
  by_cases hin : addr ≤ u ∧ u < addr + data.length
  · rw [sparseWrite_inside hin, decide_eq_true (touches_self hin)]
    rfl
  · by_cases ht : Touches page addr data.length u
    · rw [sparseWrite_beside hin ht, decide_eq_true ht]
      rfl
    · rw [sparseWrite_elsewhere ht, decide_eq_false ht]
      rfl

/-- A write within a page touches that page. -/
theorem touches_page (hn : 0 < n) (hfits : addr % page + n ≤ page) :
    Touches page addr n u ↔ u / page = addr / page := by
  have hsplit := Nat.div_add_mod addr page
  have hlast : (addr + n - 1) / page = addr / page := by
    rw [Nat.div_eq_iff (by omega), Nat.mul_comm]
    omega
  rw [Touches, hlast]
  omega

/-- The pages two adjoining writes touch are those of the write they make up. -/
theorem touches_append {k : Nat} (hn : 0 < n) (hk : 0 < k) :
    Touches page addr (n + k) u ↔ Touches page addr n u ∨ Touches page (addr + n) k u := by
  have hmid : (addr + n - 1) / page ≤ (addr + n) / page := Nat.div_le_div_right (by omega)
  have hstart : addr / page ≤ (addr + n - 1) / page := Nat.div_le_div_right (by omega)
  have hstop : (addr + n) / page ≤ (addr + n + k - 1) / page := Nat.div_le_div_right (by omega)
  have hnext : (addr + n) / page ≤ (addr + n - 1) / page + 1 := by
    rcases Nat.eq_zero_or_pos page with hzero | hpos
    · rw [hzero, Nat.div_zero]
      omega
    · rw [← Nat.add_div_right _ hpos]
      exact Nat.div_le_div_right (by omega)
  rw [Touches, Touches, Touches, ← Nat.add_assoc]
  omega

/-- **Writing in two parts.** -/
theorem sparseWrite_append (xs ys : List α) : sparseWrite page zero addr (xs ++ ys) w =
    sparseWrite page zero (addr + xs.length) ys (sparseWrite page zero addr xs w) := by
  rcases Nat.eq_zero_or_pos xs.length with hxs | hxs
  · rw [List.length_eq_zero_iff.mp hxs]
    simp
  rcases Nat.eq_zero_or_pos ys.length with hys | hys
  · rw [List.length_eq_zero_iff.mp hys]
    simp
  funext u
  by_cases hright : addr + xs.length ≤ u ∧ u < addr + xs.length + ys.length
  · rw [sparseWrite_inside hright, sparseWrite_inside (by rw [List.length_append]; omega),
      List.getD_append_right _ _ _ _ (by omega), Nat.sub_add_eq]
  by_cases hleft : addr ≤ u ∧ u < addr + xs.length
  · rw [sparseWrite_inside (by rw [List.length_append]; omega),
      List.getD_append _ _ _ _ (by omega)]
    by_cases ht : Touches page (addr + xs.length) ys.length u
    · rw [sparseWrite_beside hright ht, sparseWrite_inside hleft, Option.getD_some]
    · rw [sparseWrite_elsewhere ht, sparseWrite_inside hleft]
  have hout : ¬ (addr ≤ u ∧ u < addr + (xs ++ ys).length) := by
    rw [List.length_append]
    omega
  have hboth := @touches_append page addr xs.length u ys.length hxs hys
  rw [← List.length_append] at hboth
  by_cases ht : Touches page (addr + xs.length) ys.length u
  · rw [sparseWrite_beside hout (hboth.mpr (Or.inr ht)), sparseWrite_beside hright ht]
    by_cases ht' : Touches page addr xs.length u
    · rw [sparseWrite_beside hleft ht', Option.getD_some]
    · rw [sparseWrite_elsewhere ht']
  · rw [sparseWrite_elsewhere ht]
    by_cases ht' : Touches page addr xs.length u
    · rw [sparseWrite_beside hout (hboth.mpr (Or.inl ht')), sparseWrite_beside hleft ht']
    · rw [sparseWrite_elsewhere ht', sparseWrite_elsewhere fun h => (hboth.mp h).elim ht' ht]

/-- Whole pages are filled. -/
theorem sparseWrite_pages {k : Nat} (hpage : 0 < page) (haddr : addr % page = 0) :
    sparseWrite page zero addr (List.replicate (k * page) zero) w u =
      if addr ≤ u ∧ u < addr + k * page then some zero else w u := by
  have hlength : (List.replicate (k * page) zero).length = k * page := List.length_replicate
  by_cases hin : addr ≤ u ∧ u < addr + k * page
  · rw [if_pos hin, sparseWrite_inside (by rw [hlength]; exact hin), List.getD_eq_getElem?_getD,
      List.getElem?_replicate, if_pos (by omega)]
    rfl
  · rw [if_neg hin, sparseWrite_elsewhere]
    rintro ⟨hpos, hlow, hhigh⟩
    rw [hlength] at hpos hhigh
    -- the pages touched are those that are filled
    have hstart : addr / page * page = addr := Nat.div_mul_cancel (Nat.dvd_of_mod_eq_zero haddr)
    have hbelow : addr ≤ u := by
      have hmul := Nat.mul_le_mul_right page hlow
      have hround := Nat.div_mul_le_self u page
      omega
    have hstop : (addr + k * page - 1) / page < addr / page + k := by
      rw [Nat.div_lt_iff_lt_mul hpage, Nat.add_mul, hstart]
      omega
    have habove : u < addr + k * page := by
      have hlt : u / page < addr / page + k := Nat.lt_of_le_of_lt hhigh hstop
      rw [Nat.div_lt_iff_lt_mul hpage, Nat.add_mul, hstart] at hlt
      exact hlt
    exact hin ⟨hbelow, habove⟩

/-! ## The pages a write needs

A loop that writes page by page asks for a page when it comes to it. The sum of what the rounds ask
for is what the write as a whole asks for, since no round touches a page of another.
-/

/-- How much of its page is left behind an address. -/
theorem page_rest (hpage : 0 < page) (addr : Nat) :
    (addr + (page - addr % page)) = (addr / page + 1) * page ∧ 0 < page - addr % page := by
  have hlt := Nat.mod_lt addr hpage
  have hsplit := Nat.div_add_mod addr page
  rw [Nat.add_mul, Nat.one_mul, Nat.mul_comm]
  omega

/-- The first page, and the others. -/
theorem touchedPages_first (hpage : 0 < page) (hn : 0 < n) :
    touchedPages page addr n = addr / page ::
      touchedPages page (addr + min (page - addr % page) n) (n - min (page - addr % page) n) := by
  obtain ⟨hrest, hpos⟩ := page_rest hpage addr
  have hlow : addr / page * page ≤ addr := Nat.div_mul_le_self addr page
  have hone : (addr / page + 1) * page = addr / page * page + page := by
    rw [Nat.add_mul, Nat.one_mul]
  rw [touchedPages, if_neg (by omega)]
  by_cases hfits : n ≤ page - addr % page
  · -- nothing is left for the pages behind
    have hsame : (addr + n - 1) / page = addr / page := by
      rw [Nat.div_eq_iff hpage]
      omega
    rw [Nat.min_eq_right hfits, Nat.sub_self, hsame, Nat.add_sub_cancel_left]
    rfl
  · have hmore : addr / page + 1 ≤ (addr + n - 1) / page := by
      rw [Nat.le_div_iff_mul_le hpage]
      omega
    rw [Nat.min_eq_left (by omega), touchedPages, if_neg (by omega), hrest,
      Nat.mul_div_cancel _ hpage,
      show (addr / page + 1) * page + (n - (page - addr % page)) - 1 = addr + n - 1 by omega,
      show (addr + n - 1) / page + 1 - addr / page =
        ((addr + n - 1) / page + 1 - (addr / page + 1)) + 1 by omega, List.range'_succ]

/-- The part of a write that lies in its first page touches none of the others. -/
theorem not_touches_behind (hpage : 0 < page) {k : Nat}
    (hk : k ∈ touchedPages page (addr + min (page - addr % page) n) (n - min (page - addr % page) n)) :
    ¬ Touches page addr (min (page - addr % page) n) (k * page) := by
  obtain ⟨hrest, hpos⟩ := page_rest hpage addr
  rintro ⟨hn, -, hle⟩
  rw [Nat.mul_div_cancel _ hpage] at hle
  rw [touchedPages] at hk
  split at hk
  · exact absurd hk List.not_mem_nil
  · have hfull : min (page - addr % page) n = page - addr % page := by omega
    rw [hfull, hrest] at hk hle
    rw [List.mem_range'_1, Nat.mul_div_cancel _ hpage] at hk
    have hlast : ((addr / page + 1) * page - 1) / page = addr / page := by
      rw [Nat.div_eq_iff hpage, Nat.add_mul, Nat.one_mul]
      omega
    omega

/-- **What the first page needs, and what the rest does** once the first is written. -/
theorem missingPages_first (hpage : 0 < page) (hw : Paged page w) (hn : 0 < n) {xs : List α}
    (hxs : xs.length = min (page - addr % page) n) :
    missingPages page addr n w = (if (w addr).isNone then 1 else 0) +
      missingPages page (addr + xs.length) (n - xs.length) (sparseWrite page zero addr xs w) := by
  have hfirst : (w (addr / page * page)).isNone = (w addr).isNone :=
    hw _ _ (Nat.mul_div_cancel _ hpage)
  rw [missingPages, touchedPages_first hpage hn, List.countP_cons, hfirst, Nat.add_comm, hxs]
  congr 1
  refine List.countP_congr fun k hk => ?_
  rw [isNone_sparseWrite, hxs, decide_eq_false (not_touches_behind hpage hk)]
  rfl

end Lib
end BumbelBee
