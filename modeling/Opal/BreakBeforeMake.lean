import Opal.Run
import Mathlib.Logic.Function.Basic

set_option autoImplicit false

-- The rule for changing a table that a walker reads and caches from: a valid
-- entry is made invalid and the caches are flushed before another valid entry
-- takes its place.
namespace BreakBeforeMake

inductive Action (α ω : Type) where
  | write (a : α) (w : ω)
  | flush
  deriving DecidableEq, Repr

-- held is the last valid entry of each slot that a cache may still answer with.
structure View (α ω : Type) where
  mem : α → ω
  held : α → ω

variable {α ω : Type} [DecidableEq α] (valid : ω → Prop) [DecidablePred valid]

def View.quiet (mem : α → ω) : View α ω := ⟨mem, mem⟩

def after (view : View α ω) : Action α ω → View α ω
  | .write a w => ⟨Function.update view.mem a w, if valid w then Function.update view.held a w else view.held⟩
  | .flush => .quiet view.mem

def Allowed (view : View α ω) : Action α ω → Prop
  | .write a w => valid w → valid (view.held a) → w = view.held a
  | .flush => True

def Disciplined (view : View α ω) (actions : List (Action α ω)) : Prop := Run.Along (after valid) (Allowed valid) view actions

theorem quiet_write (mem : α → ω) (a : α) (w : ω) (made : valid w) :
    after valid (.quiet mem) (.write a w) = .quiet (Function.update mem a w) := by
  rw [after, if_pos made]
  rfl

theorem disciplined_append (view : View α ω) (first second : List (Action α ω)) :
    Disciplined valid view (first ++ second) ↔
      Disciplined valid view first ∧ Disciplined valid (Run.exec (after valid) view first) second :=
  Run.along_append (after valid) (Allowed valid) view first second

theorem make_allowed (mem : α → ω) (a : α) (w : ω) (made : valid w) :
    Disciplined valid (.quiet mem) [.write a w, .flush] ↔ (valid (mem a) → w = mem a) :=
  ⟨fun disciplined => disciplined.1 made, fun same => ⟨fun _ => same, trivial, trivial⟩⟩

end BreakBeforeMake
