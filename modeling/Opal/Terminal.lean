import Mathlib.Logic.Function.Basic

set_option autoImplicit false

namespace Text

-- A grid of characters with a cursor on one of its rows. The cursor may stand
-- behind the last column: the wrap waits for the next character.
structure Terminal (α : Type) (rows cols : Nat) where
  cell : Nat → Nat → α
  row : Fin rows
  col : Fin (cols + 1)

inductive Input (α : Type) where
  | newline
  | home
  | char (a : α)
  deriving DecidableEq, Repr

namespace Terminal

variable {α : Type} {rows cols : Nat}

def cleared (empty : α) (some_ : 0 < rows) : Terminal α rows cols := ⟨fun _ _ => empty, ⟨0, some_⟩, 0⟩

def scrolled (empty : α) (t : Terminal α rows cols) : Terminal α rows cols :=
  { t with cell := fun r c => if r + 1 < rows then t.cell (r + 1) c else empty }

def newline (empty : α) (t : Terminal α rows cols) : Terminal α rows cols :=
  if next : t.row.val + 1 < rows then { t with row := ⟨t.row.val + 1, next⟩, col := 0 }
  else { t.scrolled empty with col := 0 }

def home (t : Terminal α rows cols) : Terminal α rows cols := { t with col := 0 }

def overwrite (a : α) (t : Terminal α rows cols) : Terminal α rows cols :=
  { t with
    cell := Function.update t.cell t.row.val (Function.update (t.cell t.row.val) t.col.val a)
    col := if left : t.col.val < cols then ⟨t.col.val + 1, Nat.succ_lt_succ left⟩ else t.col }

def wrapped (empty : α) (t : Terminal α rows cols) : Terminal α rows cols :=
  if t.col.val < cols then t else t.newline empty

def feed (empty : α) (t : Terminal α rows cols) : Input α → Terminal α rows cols
  | .newline => t.newline empty
  | .home => t.home
  | .char a => (t.wrapped empty).overwrite a

def run (empty : α) (t : Terminal α rows cols) (inputs : List (Input α)) : Terminal α rows cols :=
  inputs.foldl (feed empty) t

section
variable (empty : α) (t : Terminal α rows cols)

theorem newline_row (next : t.row.val + 1 < rows) : t.newline empty = { t with row := ⟨t.row.val + 1, next⟩, col := 0 } :=
  dif_pos next

theorem newline_last (last : ¬ t.row.val + 1 < rows) : t.newline empty = { t.scrolled empty with col := 0 } := dif_neg last

theorem newline_col : (t.newline empty).col = 0 := by
  by_cases next : t.row.val + 1 < rows
  · rw [newline_row empty t next]
  · rw [newline_last empty t next]

theorem overwrite_col (a : α) (left : t.col.val < cols) : (t.overwrite a).col.val = t.col.val + 1 := by
  rw [overwrite]
  dsimp only
  rw [dif_pos left]

theorem overwrite_cell (a : α) (r c : Nat) :
    (t.overwrite a).cell r c = if r = t.row.val ∧ c = t.col.val then a else t.cell r c := by
  change Function.update t.cell t.row.val (Function.update (t.cell t.row.val) t.col.val a) r c = _
  by_cases row : r = t.row.val
  · subst row
    rw [Function.update_self, Function.update_apply]
    by_cases col : c = t.col.val
    · rw [if_pos col, if_pos ⟨rfl, col⟩]
    · rw [if_neg col, if_neg fun both => col both.2]
  · rw [Function.update_of_ne row, if_neg fun both => row both.1]

end

end Terminal

end Text
