import DeclMerge.Memo
import DeclMerge.Proofs.Association

/-!
# The cells of a memo

A key has no cell before it is asked for, an empty one while its computation runs, and a full one
from then on. A computation begins by making the cell and ends by filling it; it touches no other
cell, and the counter goes up by one between the two.

## Main definitions

* `Memo.cell?` — the cell of a key

## Main results

* `Memo.cell?_begin`, `Memo.cell?_finish` — the cells when a computation begins and ends
* `Memo.request_of_full`, `Memo.request_of_absent` — the two ways in which a request goes
* `Once.request_of_some`, `Once.request_of_none` — the same for a single value
-/

namespace DeclMerge.Memo

variable {κ α σ : Type} [DecidableEq κ] {memo : Memo κ α} {key : κ} {value : α}

/-- The cell of a key, if there is one. -/
def cell? (memo : Memo κ α) (key : κ) : Option (Option α) := memo.cells.lookup key

theorem get?_eq_join_cell? (memo : Memo κ α) (key : κ) : memo.get? key = (memo.cell? key).join :=
  rfl

theorem cell?_begin (h : memo.cell? key = none) (other : κ) :
    (memo.begin key).cell? other = if other = key then some none else memo.cell? other := by
  rw [cell?] at h
  rw [begin, cell?, openCell, h]
  simp only [Option.isSome_none, Bool.false_eq_true, if_false, lookup_concat, cell?]
  by_cases hkey : other = key
  · simp [hkey, h]
  · simp [hkey]

theorem lookup_fillCell (key other : κ) (value : α) (cells : List (κ × Option α)) :
    (fillCell key value cells).lookup other =
      if other = key then (cells.lookup other).map fun cell => some (cell.getD value)
      else cells.lookup other := by
  induction cells with
  | nil => simp [fillCell]
  | cons entry cells ih =>
    obtain ⟨k, cell⟩ := entry
    rw [fillCell]
    by_cases hk : k = key
    · subst hk
      by_cases ho : other = k
      · simp [ho]
      · simp [List.lookup_cons, ho, beq_eq_false_iff_ne.mpr ho]
    · rw [if_neg hk, List.lookup_cons, List.lookup_cons, ih]
      by_cases ho : other = k
      · subst ho
        simp [hk]
      · simp [beq_eq_false_iff_ne.mpr ho]

theorem cell?_finish (h : memo.cell? key = some none) (value : α) (other : κ) :
    (memo.finish key value).cell? other =
      if other = key then some (some value) else memo.cell? other := by
  rw [finish, cell?, lookup_fillCell, cell?]
  by_cases hkey : other = key
  · subst hkey
    rw [cell?] at h
    simp [h]
  · simp [hkey]

@[simp] theorem computations_begin (memo : Memo κ α) (key : κ) :
    (memo.begin key).computations = memo.computations + 1 := rfl

@[simp] theorem computations_finish (memo : Memo κ α) (key : κ) (value : α) :
    (memo.finish key value).computations = memo.computations := rfl

/-- A full cell is read, and nothing changes. -/
theorem request_of_full {part : Part σ (Memo κ α)} {compute : StateM σ α} {s : σ}
    (h : (part.read s).cell? key = some (some value)) : request part key compute s = (value, s) :=
  request_of_get?_eq_some (by rw [get?_eq_join_cell?, h]; rfl)

/-- Where there is no cell the computation runs between a beginning and an end. -/
theorem request_of_absent {part : Part σ (Memo κ α)} {compute : StateM σ α} {s s' : σ}
    (h : (part.read s).cell? key = none)
    (hcompute : compute (part.write ((part.read s).begin key) s) = (value, s')) :
    request part key compute s = (value, part.write ((part.read s').finish key value) s') := by
  have hget : (part.read s).get? key = none := by rw [get?_eq_join_cell?, h]; rfl
  rw [request, hget]
  simp only [hcompute]

end DeclMerge.Memo

namespace DeclMerge.Once

variable {α σ : Type} {part : Part σ (Once α)} {compute : StateM σ α} {s s' : σ} {value : α}

/-- A value that is there is read, and nothing changes. -/
theorem request_of_some (h : (part.read s).value? = some value) :
    request part compute s = (value, s) := by
  rw [request, h]

/-- Where there is no value it is computed and kept. -/
theorem request_of_none (h : (part.read s).value? = none) (hcompute : compute s = (value, s')) :
    request part compute s = (value, part.write ⟨some value⟩ s') := by
  rw [request, h]
  simp only [hcompute]

end DeclMerge.Once
