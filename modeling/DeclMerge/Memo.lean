import DeclMerge.Text.Quoted

/-!
# Values computed once

A memo keeps a value for each key that has been asked for. The first request for a key runs its
computation; every later one gets the same value. A computation may itself ask for other keys of
the same memo, so the memo is a part of a larger state that the computation may change.

## Main definitions

* `Memo` — cells by key, and the number of computations run
* `Part` — where a value lies in a larger state
* `Memo.request` — the value of a key, computed if this is the first request
* `Memo.get?` — the value of a key that has been computed
-/

namespace DeclMerge

/-- Cells by key, in order of creation. A cell is empty while its computation runs. -/
structure Memo (κ : Type) (α : Type) where
  label : String
  cells : List (κ × Option α) := []
  computations : Nat := 0

/-- Where a value of type `τ` lies in a state of type `σ`. -/
structure Part (σ : Type) (τ : Type) where
  read : σ → τ
  write : τ → σ → σ

namespace Memo

variable {κ α σ : Type} [DecidableEq κ]

/-- The value of a key, when it has been computed. -/
def get? (memo : Memo κ α) (key : κ) : Option α :=
  (memo.cells.lookup key).join

/-- The cells with an empty one for `key`, unless it has a cell already. -/
def openCell (key : κ) (cells : List (κ × Option α)) : List (κ × Option α) :=
  if (cells.lookup key).isSome then cells else cells ++ [(key, none)]

/-- The cells with `value` in the cell of `key`, unless that cell holds a value already. -/
def fillCell (key : κ) (value : α) : List (κ × Option α) → List (κ × Option α)
  | [] => []
  | (k, cell) :: cells =>
    if k = key then (k, some (cell.getD value)) :: cells
    else (k, cell) :: fillCell key value cells

/-- The memo while the computation for `key` runs. -/
def begin (memo : Memo κ α) (key : κ) : Memo κ α :=
  { memo with cells := openCell key memo.cells, computations := memo.computations + 1 }

/-- The memo after the computation for `key` has given `value`. -/
def finish (memo : Memo κ α) (key : κ) (value : α) : Memo κ α :=
  { memo with cells := fillCell key value memo.cells }

/-- The value of a key. The first request runs `compute`, which may change the whole state; later
requests run nothing. -/
def request (part : Part σ (Memo κ α)) (key : κ) (compute : StateM σ α) : StateM σ α := fun s =>
  match (part.read s).get? key with
  | some value => (value, s)
  | none =>
    let (value, s) := compute (part.write ((part.read s).begin key) s)
    (value, part.write ((part.read s).finish key value) s)

/-- The number of keys whose values have been computed. -/
def resolved (memo : Memo κ α) : Nat :=
  memo.cells.countP fun cell => cell.2.isSome

/-- The diagnostic text of a memo. -/
def debugText (memo : Memo κ α) : String :=
  "MemoizedFunction \x7b label: " ++ Text.quoted memo.label ++ ", slots: " ++
    memo.cells.length.repr ++ ", computations: " ++ memo.computations.repr ++ " \x7d"

/-- A computed value is returned and nothing changes. -/
theorem request_of_get?_eq_some {part : Part σ (Memo κ α)} {key : κ} {compute : StateM σ α}
    {s : σ} {value : α} (h : (part.read s).get? key = some value) :
    request part key compute s = (value, s) := by
  simp [request, h]

end Memo

/-- A single value computed once. -/
structure Once (α : Type) where
  value? : Option α := none

namespace Once

variable {α σ : Type}

/-- The value, computed if this is the first request. -/
def request (part : Part σ (Once α)) (compute : StateM σ α) : StateM σ α := fun s =>
  match (part.read s).value? with
  | some value => (value, s)
  | none =>
    let (value, s) := compute s
    (value, part.write ⟨some value⟩ s)

end Once

end DeclMerge
