import Mathlib.Data.List.Nodup
import Mathlib.Data.List.Sort

/-!
# Tables as lists of rows

A table is the list of its rows in insertion order.  `updateWhere`, `deleteWhere`
and `upsertWhere` are the SQL statements of the same shape, `rowNumber` is the
window function `ROW_NUMBER() OVER (PARTITION BY .. ORDER BY ..)`.  A key that no
two rows share identifies its row, and the statements keep such keys unique.
-/

namespace Awiki
namespace Rows

variable {α κ : Type*}

/-- `UPDATE .. SET .. WHERE`. -/
def updateWhere (p : α → Bool) (f : α → α) (rows : List α) : List α :=
  rows.map fun row => if p row then f row else row

/-- `DELETE .. WHERE`. -/
def deleteWhere (p : α → Bool) (rows : List α) : List α :=
  rows.filter fun row => !p row

/-- `INSERT .. ON CONFLICT DO UPDATE`, where `same` finds the conflicting row. -/
def upsertWhere (same : α → Bool) (row : α) (merge : α → α) (rows : List α) : List α :=
  if rows.any same then updateWhere same merge rows else rows ++ [row]

def rowNumber (same before : α → α → Bool) (rows : List α) (row : α) : Nat :=
  (rows.filter fun other => same other row && before other row).length + 1

variable {p : α → Bool} {f : α → α} {rows : List α} {row : α} {q same : α → Bool} {new : α}
  {merge : α → α}

theorem mem_updateWhere :
    row ∈ updateWhere p f rows ↔
      ∃ old ∈ rows, (if p old then f old else old) = row := by
  simp [updateWhere]

theorem updateWhere_cases (hrow : row ∈ updateWhere p f rows) :
    (row ∈ rows ∧ p row = false) ∨ ∃ old ∈ rows, p old = true ∧ f old = row := by
  obtain ⟨old, hold, heq⟩ := mem_updateWhere.mp hrow
  by_cases hp : p old = true
  · exact .inr ⟨old, hold, hp, by simpa [hp] using heq⟩
  · obtain rfl : old = row := by simpa [hp] using heq
    exact .inl ⟨hold, by simpa using hp⟩

theorem forall_mem_updateWhere {P : α → Prop} (h : ∀ row ∈ rows, P row)
    (hf : ∀ row, p row = true → P row → P (f row)) : ∀ row ∈ updateWhere p f rows, P row := by
  intro row hrow
  rcases updateWhere_cases hrow with ⟨hrow, -⟩ | ⟨old, hold, hp, rfl⟩
  · exact h row hrow
  · exact hf old hp (h old hold)

@[simp] theorem mem_deleteWhere :
    row ∈ deleteWhere p rows ↔ row ∈ rows ∧ p row = false := by
  simp [deleteWhere]

theorem map_updateWhere_of_pos {k : α → κ} (hk : ∀ row ∈ rows, p row = true → k (f row) = k row) :
    (updateWhere p f rows).map k = rows.map k := by
  simp only [updateWhere, List.map_map]
  refine List.map_congr_left fun row hrow => ?_
  by_cases hp : p row <;> simp [hp, hk row hrow]

theorem map_updateWhere {k : α → κ} (hk : ∀ row, k (f row) = k row) (rows : List α) :
    (updateWhere p f rows).map k = rows.map k :=
  map_updateWhere_of_pos fun row _ _ => hk row

section Maps

variable {β : Type*} {g : α → β} {q : β → Bool} {r : β → β} (hq : ∀ row, q (g row) = p row)
  (hf : ∀ row, g (f row) = r (g row))

include hq hf

theorem map_updateWhere_comm (rows : List α) :
    (updateWhere p f rows).map g = updateWhere q r (rows.map g) := by
  simp only [updateWhere, List.map_map, Function.comp_def, hq, ← hf, apply_ite g]

theorem map_upsertWhere_comm (new : α) (rows : List α) :
    (upsertWhere p new f rows).map g = upsertWhere q (g new) r (rows.map g) := by
  have hany : (rows.map g).any q = rows.any p := by simp [List.any_map, Function.comp_def, hq]
  unfold upsertWhere
  rw [hany]
  split
  · exact map_updateWhere_comm hq hf rows
  · simp

end Maps

theorem mem_updateWhere_of_not (hrow : row ∈ rows) (hp : p row = false) :
    row ∈ updateWhere p f rows :=
  mem_updateWhere.mpr ⟨row, hrow, by simp [hp]⟩

theorem mem_updateWhere_of_pos (hrow : row ∈ rows) (hp : p row = true) :
    f row ∈ updateWhere p f rows :=
  mem_updateWhere.mpr ⟨row, hrow, by simp [hp]⟩

theorem updateWhere_congr (h : ∀ row ∈ rows, p row = q row) :
    updateWhere p f rows = updateWhere q f rows := by
  refine List.map_congr_left fun row hrow => ?_
  simp only [h row hrow]

theorem updateWhere_of_none (h : rows.any p = false) (f : α → α) : updateWhere p f rows = rows := by
  unfold updateWhere
  rw [List.any_eq_false] at h
  refine (List.map_congr_left fun row hrow => ?_).trans (List.map_id _)
  simp [h row hrow]

theorem mem_upsertWhere (hrow : row ∈ upsertWhere same new merge rows) :
    row = new ∨ (row ∈ rows ∧ same row = false) ∨
      ∃ old ∈ rows, same old = true ∧ merge old = row := by
  unfold upsertWhere at hrow
  split at hrow
  · exact .inr (updateWhere_cases hrow)
  · rcases List.mem_append.mp hrow with h | h
    · rename_i hnone
      refine .inr (.inl ⟨h, ?_⟩)
      simpa using fun hs => hnone (List.any_eq_true.mpr ⟨row, h, hs⟩)
    · exact .inl (List.mem_singleton.mp h)

theorem mem_upsertWhere_of_mem (same : α → Bool) (new : α) (merge : α → α) (hrow : row ∈ rows) :
    row ∈ upsertWhere same new merge rows ∨ merge row ∈ upsertWhere same new merge rows := by
  unfold upsertWhere
  split
  · by_cases hsame : same row = true
    · exact .inr (mem_updateWhere_of_pos hrow hsame)
    · exact .inl (mem_updateWhere_of_not hrow (by simpa using hsame))
  · exact .inl (List.mem_append_left _ hrow)

theorem exists_mem_upsertWhere (same : α → Bool) (new : α) (merge : α → α) (rows : List α) :
    new ∈ upsertWhere same new merge rows ∨
      ∃ old ∈ rows, same old = true ∧ merge old ∈ upsertWhere same new merge rows := by
  unfold upsertWhere
  split
  · rename_i hany
    obtain ⟨old, hold, hsame⟩ := List.any_eq_true.mp hany
    exact .inr ⟨old, hold, hsame, mem_updateWhere_of_pos hold hsame⟩
  · exact .inl (List.mem_append_right _ List.mem_cons_self)

/-! ## Searches -/

/-- An upsert leaves a row with what both the new row and a merged row have. -/
theorem exists_upsertWhere {P : α → Prop} (hnew : P new)
    (hmerge : ∀ old, same old = true → P (merge old)) :
    ∃ row ∈ upsertWhere same new merge rows, P row := by
  rcases exists_mem_upsertWhere same new merge rows with h | ⟨old, -, hsame, h⟩
  · exact ⟨new, h, hnew⟩
  · exact ⟨merge old, h, hmerge old hsame⟩

theorem find?_updateWhere (hp : ∀ row, p (f row) = p row) (rows : List α) :
    (updateWhere q f rows).find? p =
      (rows.find? p).map fun row => if q row then f row else row := by
  have hsame : (p ∘ fun row => if q row then f row else row) = p := by
    funext row
    by_cases hq : q row = true <;> simp [hq, hp]
  rw [updateWhere, List.find?_map, hsame]

theorem find?_updateWhere_self (hnew : same new = true) (rows : List α) :
    (updateWhere same (fun _ => new) rows).find? same = (rows.find? same).map fun _ => new := by
  induction rows with
  | nil => rfl
  | cons row rows ih =>
    by_cases hrow : same row = true
    · simp [updateWhere, hrow, hnew]
    · simpa [updateWhere, hrow] using ih

theorem find?_updateWhere_of_ne (hq : ∀ row, q row = true → p row = false)
    (hf : ∀ row, q row = true → p (f row) = false) (rows : List α) :
    (updateWhere q f rows).find? p = rows.find? p := by
  induction rows with
  | nil => rfl
  | cons row rows ih =>
    by_cases hrow : q row = true
    · simpa [updateWhere, hrow, hq row hrow, hf row hrow] using ih
    · cases hp : p row with
      | true => simp [updateWhere, hrow, hp]
      | false => simpa [updateWhere, hrow, hp] using ih

theorem find?_upsertWhere_of_ne (hsame : ∀ row, same row = true → p row = false)
    (hnew : p new = false) (hmerge : ∀ row, same row = true → p (merge row) = false)
    (rows : List α) :
    (upsertWhere same new merge rows).find? p = rows.find? p := by
  unfold upsertWhere
  split
  · exact find?_updateWhere_of_ne hsame hmerge rows
  · simp [List.find?_append, hnew]

theorem find?_upsertWhere_key (hnew : same new = true)
    (hmerge : ∀ row, same row = true → same (merge row) = true) (rows : List α) :
    (upsertWhere same new merge rows).find? same = some ((rows.find? same).elim new merge) := by
  unfold upsertWhere
  split
  · rename_i hany
    induction rows with
    | nil => simp at hany
    | cons row rows ih =>
      by_cases hrow : same row = true
      · simp [updateWhere, hrow, hmerge row hrow]
      · have hrest : rows.any same = true := by simpa [hrow] using hany
        simpa [updateWhere, hrow] using ih hrest
  · rename_i hany
    have hnone : rows.find? same = none := by simpa using hany
    simp [List.find?_append, hnone, hnew]

theorem find?_upsertWhere_self (hnew : same new = true) (rows : List α) :
    (upsertWhere same new (fun _ => new) rows).find? same = some new := by
  rw [find?_upsertWhere_key hnew fun _ _ => hnew]
  cases rows.find? same <;> rfl

theorem mem_upsertWhere_replace (hnew : same new = true) :
    row ∈ upsertWhere same new (fun _ => new) rows ↔
      row = new ∨ row ∈ rows ∧ same row = false := by
  constructor
  · intro hrow
    rcases mem_upsertWhere hrow with h | h | ⟨old, -, -, h⟩
    · exact .inl h
    · exact .inr h
    · exact .inl h.symm
  · rintro (rfl | ⟨hrow, hsame⟩)
    · rcases exists_mem_upsertWhere same row (fun _ => row) rows with h | ⟨-, -, -, h⟩
      · exact h
      · exact h
    · rcases mem_upsertWhere_of_mem same new (fun _ => new) hrow with h | h
      · exact h
      · unfold upsertWhere
        split
        · exact mem_updateWhere_of_not hrow hsame
        · exact List.mem_append_left _ hrow

/-! ## Unique keys -/

/-- No two rows share the key `k`. -/
def UniqueKey (k : α → κ) (rows : List α) : Prop :=
  (rows.map k).Nodup

namespace UniqueKey

variable {k : α → κ} {rows : List α}

theorem nil (k : α → κ) : UniqueKey k [] := List.nodup_nil

variable {row : α} {p : α → Bool}

variable (h : UniqueKey k rows)

include h

theorem eq_of_key_eq {row' : α} (hrow : row ∈ rows) (hrow' : row' ∈ rows) (hk : k row = k row') :
    row = row' :=
  List.inj_on_of_nodup_map h hrow hrow' hk

theorem updateWhere {f : α → α} (hk : ∀ row, k (f row) = k row) :
    UniqueKey k (updateWhere p f rows) := by
  unfold UniqueKey
  rw [map_updateWhere hk]
  exact h

/-- An update may give one row a key that no other row has. -/
theorem updateWhere_fresh {f : α → α} (new : κ)
    (hone : ∀ row ∈ rows, ∀ row' ∈ rows, p row = true → p row' = true → k row = k row')
    (hnew : ∀ row ∈ rows, p row = true → k (f row) = new)
    (hfresh : ∀ row ∈ rows, p row = false → k row ≠ new) :
    UniqueKey k (Rows.updateWhere p f rows) := by
  unfold UniqueKey Rows.updateWhere
  rw [List.map_map]
  refine List.Nodup.map_on ?_ (List.Nodup.of_map k h)
  intro row hrow row' hrow' heq
  refine h.eq_of_key_eq hrow hrow' ?_
  dsimp only [Function.comp] at heq
  by_cases hp : p row = true <;> by_cases hp' : p row' = true
  · exact hone row hrow row' hrow' hp hp'
  · rw [if_pos hp, if_neg hp', hnew row hrow hp] at heq
    exact absurd heq.symm (hfresh row' hrow' (by simpa using hp'))
  · rw [if_neg hp, if_pos hp', hnew row' hrow' hp'] at heq
    exact absurd heq (hfresh row hrow (by simpa using hp))
  · rwa [if_neg hp, if_neg hp'] at heq

theorem deleteWhere (p : α → Bool) : UniqueKey k (deleteWhere p rows) :=
  h.sublist (List.filter_sublist.map k)

theorem append_singleton (hfresh : ∀ old ∈ rows, k old ≠ k row) : UniqueKey k (rows ++ [row]) := by
  unfold UniqueKey
  rw [List.map_append, List.map_singleton, List.nodup_append]
  refine ⟨h, List.nodup_singleton _, ?_⟩
  rintro a ha b hb rfl
  obtain ⟨old, hold, rfl⟩ := List.mem_map.mp ha
  exact hfresh old hold (List.mem_singleton.mp hb)

theorem upsertWhere {same : α → Bool} {merge : α → α}
    (hsame : ∀ old ∈ rows, same old = true ↔ k old = k row)
    (hmerge : ∀ old, k (merge old) = k old) : UniqueKey k (upsertWhere same row merge rows) := by
  unfold Rows.upsertWhere
  split
  · exact h.updateWhere hmerge
  · rename_i hnone
    refine h.append_singleton fun old hold heq => hnone ?_
    exact List.any_eq_true.mpr ⟨old, hold, (hsame old hold).mpr heq⟩

section Selected

variable (hrow : row ∈ rows) (hp : p row = true)
  (hkey : ∀ other ∈ rows, p other = true → k other = k row)

include hrow hp hkey

/-- A condition that only rows of one key meet selects the row of that key. -/
theorem filter_eq_singleton : rows.filter p = [row] := by
  apply List.perm_singleton.mp
  rw [List.perm_ext_iff_of_nodup ((List.Nodup.of_map k h).filter p) (List.nodup_singleton row)]
  intro other
  rw [List.mem_filter, List.mem_singleton]
  constructor
  · rintro ⟨hother, hpo⟩
    exact h.eq_of_key_eq hother hrow (hkey other hother hpo)
  · rintro rfl
    exact ⟨hrow, hp⟩

theorem find?_eq_some : rows.find? p = some row := by
  rw [← List.head?_filter, h.filter_eq_singleton hrow hp hkey, List.head?_cons]

theorem perm_deleteWhere : rows.Perm (row :: Rows.deleteWhere p rows) := by
  have hsplit := (List.filter_append_perm p rows).symm
  rwa [h.filter_eq_singleton hrow hp hkey] at hsplit

end Selected

end UniqueKey
end Rows
end Awiki
