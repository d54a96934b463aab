import Mathlib.Data.List.Sort
import Mathlib.Data.Option.Basic
import Mathlib.Order.Lattice
import Mathlib.Tactic

/-!
# Pages of a list that is sorted by a key

A list without two rows of one key is read page by page in descending order.  A page ends in
a cursor, from which the next page is read: the first rows whose key is below the position
that the cursor names.  Following the cursors gives the whole list, once and in order,
exactly if the cursor of every row at the end of a page names the key of that row.
-/

namespace Awiki
namespace Paging

variable {α γ κ : Type*} {rows : List α} {cursor : Option γ}

/-! ## Lists in descending order of a key -/

section Sorted

variable [LinearOrder κ]

def Descending (key : α → κ) (rows : List α) : Prop :=
  rows.Pairwise fun a b => key b < key a

def sortDescending (key : α → κ) (rows : List α) : List α :=
  rows.insertionSort fun a b => key b ≤ key a

variable {key : α → κ}

theorem sortDescending_perm (rows : List α) : (sortDescending key rows).Perm rows :=
  List.perm_insertionSort _ rows

theorem sortDescending_sorted (rows : List α) :
    (sortDescending key rows).Pairwise fun a b => key b ≤ key a := by
  have htotal : Std.Total fun a b : α => key b ≤ key a := ⟨fun a b => le_total (key b) (key a)⟩
  have htrans : IsTrans α fun a b : α => key b ≤ key a := ⟨fun a b c hab hbc => hbc.trans hab⟩
  exact List.pairwise_insertionSort _ rows

theorem descending_of_sorted (hsorted : rows.Pairwise fun a b => key b ≤ key a)
    (hdistinct : rows.Pairwise fun a b => key a ≠ key b) : Descending key rows := by
  refine (hsorted.and hdistinct).imp ?_
  rintro a b ⟨hle, hne⟩
  exact lt_of_le_of_ne hle (Ne.symm hne)

theorem sortDescending_descending (hdistinct : rows.Pairwise fun a b => key a ≠ key b) :
    Descending key (sortDescending key rows) := by
  apply descending_of_sorted (sortDescending_sorted rows)
  exact ((sortDescending_perm rows).pairwise_iff (fun h => Ne.symm h)).mpr hdistinct

theorem sortDescending_eq_of_perm {sorted : List α} (hperm : sorted.Perm rows)
    (hsorted : Descending key sorted) : sortDescending key rows = sorted := by
  have hdistinct : rows.Pairwise fun a b => key a ≠ key b :=
    (hperm.pairwise_iff fun h => Ne.symm h).mp (hsorted.imp fun h => h.ne')
  apply ((sortDescending_perm rows).trans hperm.symm).eq_of_pairwise
  · intro a b _ _ hab hba
    exact absurd (hab : key b < key a) (lt_asymm hba)
  · exact sortDescending_descending hdistinct
  · exact hsorted

/-- Rows of different keys are selected before or after they are sorted. -/
theorem sortDescending_filter (p : α → Bool) (hdistinct : rows.Pairwise fun a b => key a ≠ key b) :
    sortDescending key (rows.filter p) = (sortDescending key rows).filter p :=
  sortDescending_eq_of_perm ((sortDescending_perm rows).filter p)
    ((sortDescending_descending hdistinct).sublist List.filter_sublist)

theorem Descending.filter_lt {front back : List α} {row : α}
    (h : Descending key (front ++ row :: back)) :
    (front ++ row :: back).filter (fun other => decide (key other < key row)) = back := by
  obtain ⟨-, hback, hfront⟩ := List.pairwise_append.mp h
  rw [List.filter_append, List.filter_eq_nil_iff.mpr, List.nil_append, List.filter_cons_of_neg]
  · rw [List.filter_eq_self]
    intro other hother
    exact decide_eq_true ((List.pairwise_cons.mp hback).1 other hother)
  · simp
  · intro other hother
    have hlt := hfront other hother row List.mem_cons_self
    simpa using hlt.le

end Sorted

/-! ## Following cursors -/

structure Page (α γ : Type*) where
  items : List α
  next : Option γ

def follow (fetch : Option γ → Option (Page α γ)) : Nat → Option γ → Option (List (Page α γ))
  | 0, _ => none
  | fuel + 1, cursor => do
      let page ← fetch cursor
      match page.next with
      | none => some [page]
      | some next => (follow fetch fuel (some next)).map (page :: ·)

def firstPage (size : Nat) (emit : α → Option γ) (rows : List α) : Page α γ where
  items := rows.take size
  next := if size < rows.length then (rows.take size).getLast?.bind emit else none

def IsBorder (size : Nat) (rows : List α) (row : α) : Prop :=
  ∃ k, (k + 1) * size < rows.length ∧ rows[(k + 1) * size - 1]? = some row

theorem isBorder_iff {size : Nat} (hsize : 0 < size) {row : α} :
    IsBorder size rows row ↔
      size < rows.length ∧ (rows[size - 1]? = some row ∨ IsBorder size (rows.drop size) row) := by
  constructor
  · rintro ⟨k, hlength, hrow⟩
    cases k with
    | zero =>
      rw [Nat.zero_add, Nat.one_mul] at hlength hrow
      exact ⟨hlength, .inl hrow⟩
    | succ k =>
      have hpos : 0 < (k + 1) * size := Nat.mul_pos (Nat.succ_pos k) hsize
      rw [Nat.succ_mul] at hlength hrow
      refine ⟨by omega, .inr ⟨k, ?_, ?_⟩⟩
      · rw [List.length_drop]
        omega
      · rw [List.getElem?_drop, ← hrow]
        congr 1
        omega
  · rintro ⟨hlength, hrow | ⟨k, hrest, hrow⟩⟩
    · refine ⟨0, ?_, ?_⟩
      · rw [Nat.zero_add, Nat.one_mul]
        exact hlength
      · rw [Nat.zero_add, Nat.one_mul]
        exact hrow
    · have hpos : 0 < (k + 1) * size := Nat.mul_pos (Nat.succ_pos k) hsize
      rw [List.length_drop] at hrest
      rw [List.getElem?_drop] at hrow
      refine ⟨k + 1, ?_, ?_⟩
      · rw [Nat.succ_mul]
        omega
      · rw [Nat.succ_mul, ← hrow]
        congr 1
        omega

section Follow

variable {key : α → κ} {size : Nat} {read : γ → Option κ} {emit : α → Option γ}
  {fetch : Option γ → Option (Page α γ)} {rows rest : List α} {pages : List (Page α γ)}
  {page : Page α γ}

structure Exact (key : α → κ) (read : γ → Option κ) (pages : List (Page α γ)) (rows : List α) :
    Prop where
  items : pages.flatMap (·.items) = rows
  cursors : ∀ page ∈ pages, ∀ cursor, page.next = some cursor →
    ∃ last, page.items.getLast? = some last ∧ read cursor = some (key last)

theorem getLast?_take (hsize : 0 < size) (hlength : size < rest.length) :
    (rest.take size).getLast? = rest[size - 1]? := by
  rw [List.getLast?_eq_getElem?, List.length_take, Nat.min_eq_left hlength.le,
    List.getElem?_take_of_lt (by omega)]

theorem follow_last {fuel : Nat} (hfetch : fetch cursor = some page) (hnext : page.next = none) :
    follow fetch (fuel + 1) cursor = some [page] := by
  simp [follow, hfetch, hnext]

theorem follow_next {fuel : Nat} {next : γ} (hfetch : fetch cursor = some page)
    (hnext : page.next = some next) :
    follow fetch (fuel + 1) cursor = (follow fetch fuel (some next)).map (page :: ·) := by
  simp [follow, hfetch, hnext]

theorem firstPage_next_of_le (h : rest.length ≤ size) :
    (firstPage size emit rest).next = none :=
  if_neg (by omega)

theorem firstPage_next_of_lt (hsize : 0 < size) (h : size < rest.length) :
    (firstPage size emit rest).next = rest[size - 1]?.bind emit := by
  unfold firstPage
  rw [if_pos h, getLast?_take hsize h]

theorem exact_singleton (h : rest.length ≤ size) :
    Exact key read [firstPage size emit rest] rest where
  items := by
    simp [firstPage, List.take_of_length_le h]
  cursors := by
    intro page hpage cursor hnext
    rw [List.mem_singleton] at hpage
    subst hpage
    rw [firstPage_next_of_le h] at hnext
    cases hnext

theorem exact_cons_iff (hsize : 0 < size) (hlength : size < rest.length) {last : α}
    (hlast : rest[size - 1]? = some last) {cursor : γ} (hemit : emit last = some cursor) :
    Exact key read (firstPage size emit rest :: pages) rest ↔
      read cursor = some (key last) ∧ Exact key read pages (rest.drop size) := by
  have hnext : (firstPage size emit rest).next = some cursor := by
    rw [firstPage_next_of_lt hsize hlength, hlast]
    exact hemit
  have hgetLast : (firstPage size emit rest).items.getLast? = some last :=
    (getLast?_take hsize hlength).trans hlast
  constructor
  · intro h
    refine ⟨?_, ?_, ?_⟩
    · obtain ⟨row, hrow, hread⟩ := h.cursors _ List.mem_cons_self cursor hnext
      rw [hgetLast] at hrow
      cases hrow
      exact hread
    · have hitems : rest.take size ++ pages.flatMap (·.items) = rest := h.items
      exact List.append_cancel_left (hitems.trans (List.take_append_drop size rest).symm)
    · intro page hpage
      exact h.cursors page (List.mem_cons_of_mem _ hpage)
  · rintro ⟨hread, hpages⟩
    refine ⟨?_, ?_⟩
    · rw [List.flatMap_cons, hpages.items]
      exact List.take_append_drop size rest
    · intro page hpage next hpageNext
      rcases List.mem_cons.mp hpage with rfl | hpage
      · rw [hnext] at hpageNext
        cases hpageNext
        exact ⟨last, hgetLast, hread⟩
      · exact hpages.cursors page hpage next hpageNext

variable [LinearOrder κ]

structure Fetches (key : α → κ) (size : Nat) (read : γ → Option κ) (emit : α → Option γ)
    (fetch : Option γ → Option (Page α γ)) (rows : List α) : Prop where
  first : fetch none = some (firstPage size emit rows)
  next : ∀ cursor position, read cursor = some position → fetch (some cursor) =
    some (firstPage size emit (rows.filter fun row => decide (key row < position)))

variable (h : Fetches key size read emit fetch rows)

include h

variable (hrows : Descending key rows)

include hrows

/-- The page after a cursor that names the last row of the page before. -/
theorem Fetches.drop (hsize : 0 < size) (hsuffix : rest <:+ rows) {last : α}
    (hlast : rest[size - 1]? = some last) {cursor : γ} (hcursor : read cursor = some (key last)) :
    fetch (some cursor) = some (firstPage size emit (rest.drop size)) := by
  obtain ⟨front, rfl⟩ := hsuffix
  have hsplit : rest = rest.take (size - 1) ++ last :: rest.drop size := by
    have hdrop : rest.drop (size - 1) = last :: rest.drop (size - 1 + 1) := by
      obtain ⟨hlt, hget⟩ := List.getElem?_eq_some_iff.mp hlast
      rw [List.drop_eq_getElem_cons hlt, hget]
    rw [Nat.sub_add_cancel hsize] at hdrop
    rw [← hdrop, List.take_append_drop]
  rw [h.next cursor (key last) hcursor]
  congr 2
  rw [hsplit, ← List.append_assoc] at hrows
  conv_lhs => rw [hsplit, ← List.append_assoc]
  exact hrows.filter_lt

theorem Fetches.exact_of_borders (hsize : 0 < size) (fuel : Nat) :
    ∀ rest cursor, rest.length ≤ fuel → rest <:+ rows →
      fetch cursor = some (firstPage size emit rest) →
      (∀ row, IsBorder size rest row → (emit row).bind read = some (key row)) →
      ∃ pages, follow fetch (fuel + 1) cursor = some pages ∧ Exact key read pages rest := by
  induction fuel with
  | zero =>
    intro rest cursor hle _ hfetch _
    have hlength : rest.length ≤ size := by omega
    exact ⟨_, follow_last hfetch (firstPage_next_of_le hlength), exact_singleton hlength⟩
  | succ fuel ih =>
    intro rest cursor hle hsuffix hfetch hborders
    by_cases hlength : size < rest.length
    · obtain ⟨last, hlast⟩ : ∃ last, rest[size - 1]? = some last :=
        ⟨_, List.getElem?_eq_getElem (by omega)⟩
      have hborder := hborders last ((isBorder_iff hsize).mpr ⟨hlength, .inl hlast⟩)
      obtain ⟨next, hemit, hread⟩ := Option.bind_eq_some_iff.mp hborder
      have hnext : (firstPage size emit rest).next = some next := by
        rw [firstPage_next_of_lt hsize hlength, hlast]
        exact hemit
      obtain ⟨pages, hfollow, hexact⟩ := ih (rest.drop size) (some next)
        (by rw [List.length_drop]; omega) ((List.drop_suffix size rest).trans hsuffix)
        (h.drop hrows hsize hsuffix hlast hread)
        (fun row hrow => hborders row ((isBorder_iff hsize).mpr ⟨hlength, .inr hrow⟩))
      refine ⟨firstPage size emit rest :: pages, ?_, ?_⟩
      · rw [follow_next hfetch hnext, hfollow]
        rfl
      · exact (exact_cons_iff hsize hlength hlast hemit).mpr ⟨hread, hexact⟩
    · exact ⟨_, follow_last hfetch (firstPage_next_of_le (by omega)),
        exact_singleton (by omega)⟩

theorem Fetches.borders_of_exact (hsize : 0 < size) (fuel : Nat) :
    ∀ rest cursor pages, rest <:+ rows → fetch cursor = some (firstPage size emit rest) →
      follow fetch fuel cursor = some pages → Exact key read pages rest →
      ∀ row, IsBorder size rest row → (emit row).bind read = some (key row) := by
  induction fuel with
  | zero =>
    intro rest cursor pages _ _ hfollow
    cases hfollow
  | succ fuel ih =>
    intro rest cursor pages hsuffix hfetch hfollow hexact row hrow
    obtain ⟨hlength, hrow⟩ := (isBorder_iff hsize).mp hrow
    obtain ⟨last, hlast⟩ : ∃ last, rest[size - 1]? = some last :=
      ⟨_, List.getElem?_eq_getElem (by omega)⟩
    have hnext : (firstPage size emit rest).next = emit last := by
      rw [firstPage_next_of_lt hsize hlength, hlast]
      rfl
    cases hemit : emit last with
    | none =>
      -- The list has more rows, but the page has no cursor.
      rw [hemit] at hnext
      rw [follow_last hfetch hnext] at hfollow
      cases hfollow
      have hitems := congrArg List.length hexact.items
      simp [firstPage] at hitems
      omega
    | some next =>
      rw [hemit] at hnext
      rw [follow_next hfetch hnext] at hfollow
      obtain ⟨others, hothers, rfl⟩ := Option.map_eq_some_iff.mp hfollow
      obtain ⟨hread, hrest⟩ := (exact_cons_iff hsize hlength hlast hemit).mp hexact
      rcases hrow with hrow | hrow
      · rw [hlast] at hrow
        cases hrow
        rw [hemit]
        exact hread
      · exact ih (rest.drop size) (some next) others
          ((List.drop_suffix size rest).trans hsuffix)
          (h.drop hrows hsize hsuffix hlast hread) hothers hrest row hrow

/-- Following the cursors lists the rows exactly if the cursors of the borders name them. -/
theorem Fetches.exact_iff (hsize : 0 < size) :
    (∃ fuel pages, follow fetch fuel none = some pages ∧ Exact key read pages rows) ↔
      ∀ row, IsBorder size rows row → (emit row).bind read = some (key row) := by
  constructor
  · rintro ⟨fuel, pages, hfollow, hexact⟩
    exact h.borders_of_exact hrows hsize fuel rows none pages (List.suffix_refl rows) h.first
      hfollow hexact
  · intro hborders
    obtain ⟨pages, hfollow, hexact⟩ := h.exact_of_borders hrows hsize rows.length rows none
      le_rfl (List.suffix_refl rows) h.first hborders
    exact ⟨_, pages, hfollow, hexact⟩

end Follow

end Paging
end Awiki
