import Mathlib.Data.List.Nodup
import Mathlib.Data.List.Perm.Subperm

set_option autoImplicit false

-- A change of a queue: something joins at the back, or the head leaves.
inductive Turn (ι : Type) where
  | joins (i : ι)
  | leaves (i : ι)
  deriving DecidableEq

namespace Turn

variable {ι : Type}

def joined (log : List (Turn ι)) : List ι :=
  log.filterMap fun turn =>
    match turn with
    | .joins i => some i
    | .leaves _ => none

def left (log : List (Turn ι)) : List ι :=
  log.filterMap fun turn =>
    match turn with
    | .joins _ => none
    | .leaves i => some i

theorem joined_append (a b : List (Turn ι)) : joined (a ++ b) = joined a ++ joined b := List.filterMap_append

theorem left_append (a b : List (Turn ι)) : left (a ++ b) = left a ++ left b := List.filterMap_append

end Turn

-- A queue of some of all, its whole log, and what is then in line. Nothing
-- joins while it is in line.
inductive Fifo {ι : Type} (all : List ι) : List (Turn ι) → List ι → Prop
  | start : Fifo all [] []
  | join (log : List (Turn ι)) (queue : List ι) (i : ι) (before : Fifo all log queue) (member : i ∈ all)
      (fresh : i ∉ queue) : Fifo all (log ++ [.joins i]) (queue ++ [i])
  | leave (log : List (Turn ι)) (i : ι) (rest : List ι) (before : Fifo all log (i :: rest)) :
      Fifo all (log ++ [.leaves i]) rest

namespace Fifo

variable {ι : Type} {all : List ι} {log : List (Turn ι)} {queue : List ι}

-- Things leave in the order in which they joined.
theorem in_order (fifo : Fifo all log queue) : Turn.joined log = Turn.left log ++ queue := by
  induction fifo with
  | start => rfl
  | join log queue i _ _ _ ih =>
      rw [Turn.joined_append, Turn.left_append, ih]
      simp [Turn.joined, Turn.left]
  | leave log i rest _ ih =>
      rw [Turn.joined_append, Turn.left_append, ih]
      simp [Turn.joined, Turn.left]

theorem subset (fifo : Fifo all log queue) : queue ⊆ all := by
  induction fifo with
  | start => exact List.nil_subset all
  | join _ queue i _ member _ ih =>
      intro j here
      rcases List.mem_append.mp here with waiting | last
      · exact ih waiting
      · exact List.mem_singleton.mp last ▸ member
  | leave _ i rest _ ih => exact fun j here => ih (List.mem_cons_of_mem i here)

theorem distinct (fifo : Fifo all log queue) : queue.Nodup := by
  induction fifo with
  | start => exact List.nodup_nil
  | join _ queue i _ _ fresh ih => exact List.nodup_append.mpr ⟨ih, List.nodup_singleton i, fun a here b last same =>
      fresh (List.mem_singleton.mp last ▸ same ▸ here)⟩
  | leave _ i rest _ ih => exact (List.nodup_cons.mp ih).2

-- While something waits, what leaves was in line before it, in line order.
theorem leaves_ahead (fifo : Fifo all log queue) (before between : List (Turn ι)) (i : ι)
    (split : log = before ++ .joins i :: between) (waits : i ∉ Turn.left between) :
    ∃ ahead, Fifo all before (Turn.left between ++ ahead) ∧ i ∈ all ∧ i ∉ Turn.left between ++ ahead ∧
      queue = ahead ++ i :: Turn.joined between := by
  induction fifo generalizing between with
  | start => exact absurd split.symm (by simp)
  | join log queue j kept member fresh ih =>
      rcases List.eq_nil_or_concat between with rfl | ⟨mid, last, rfl⟩
      · obtain ⟨rfl, same⟩ := List.append_inj' split rfl
        obtain rfl : j = i := by simpa using same
        exact ⟨queue, kept, member, fresh, rfl⟩
      · rw [List.concat_eq_append, ← List.cons_append, ← List.append_assoc] at split
        obtain ⟨earlier, same⟩ := List.append_inj' split rfl
        obtain rfl : Turn.joins j = last := by simpa using same
        have left_same : Turn.left (mid.concat (.joins j)) = Turn.left mid := by simp [Turn.left]
        have joined_more : Turn.joined (mid.concat (.joins j)) = Turn.joined mid ++ [j] := by simp [Turn.joined]
        rw [left_same] at waits ⊢
        obtain ⟨ahead, was, inside, apart, line⟩ := ih mid earlier waits
        exact ⟨ahead, was, inside, apart, by rw [line, joined_more]; simp⟩
  | leave log j rest kept ih =>
      rcases List.eq_nil_or_concat between with rfl | ⟨mid, last, rfl⟩
      · obtain ⟨_, same⟩ := List.append_inj' split rfl
        exact absurd same (by simp)
      · rw [List.concat_eq_append, ← List.cons_append, ← List.append_assoc] at split
        obtain ⟨earlier, same⟩ := List.append_inj' split rfl
        obtain rfl : Turn.leaves j = last := by simpa using same
        have left_more : Turn.left (mid.concat (.leaves j)) = Turn.left mid ++ [j] := by simp [Turn.left]
        have joined_same : Turn.joined (mid.concat (.leaves j)) = Turn.joined mid := by simp [Turn.joined]
        rw [left_more, List.mem_append, not_or] at waits
        obtain ⟨ahead, was, inside, apart, line⟩ := ih mid earlier waits.1
        rw [left_more, joined_same]
        cases ahead with
        | nil =>
            have head : j = i := (List.cons.inj line).1
            exact absurd (List.mem_singleton.mpr head.symm) waits.2
        | cons first others =>
            obtain ⟨rfl, same_rest⟩ := List.cons.inj line
            exact ⟨others, by simpa using was, inside, by simpa using apart, same_rest⟩

-- Bounded bypass: meanwhile nothing leaves twice, and fewer leave than there
-- are things at all.
theorem bypass (fifo : Fifo all log queue) (before between : List (Turn ι)) (i : ι)
    (split : log = before ++ .joins i :: between) (waits : i ∉ Turn.left between) :
    (Turn.left between).Nodup ∧ (Turn.left between).length + 1 ≤ all.length := by
  obtain ⟨ahead, was, inside, apart, _⟩ := fifo.leaves_ahead before between i split waits
  have distinct : (Turn.left between).Nodup := (List.nodup_append.mp was.distinct).1
  have fresh : i ∉ Turn.left between := fun here => apart (List.mem_append_left ahead here)
  have whole : (i :: Turn.left between).Nodup := List.nodup_cons.mpr ⟨fresh, distinct⟩
  have among : i :: Turn.left between ⊆ all := by
    intro j here
    rcases List.mem_cons.mp here with rfl | left
    · exact inside
    · exact was.subset (List.mem_append_left ahead left)
  exact ⟨distinct, (whole.subperm among).length_le⟩

end Fifo
