import Mathlib.Data.List.Range
import Mathlib.Data.List.TakeWhile

set_option autoImplicit false

-- Loops that count up, over any state.
namespace Loop

variable {σ : Type}

-- for i in start..stop
def range (start stop : Nat) (body : Nat → σ → σ) (state : σ) : σ :=
  (List.range' start (stop - start)).foldl (fun state i => body i state) state

-- for i in 0..stop that breaks at the first i that goes is false of
def rangeWhile (goes : Nat → Bool) (stop : Nat) (body : Nat → σ → σ) (state : σ) : σ :=
  ((List.range stop).takeWhile goes).foldl (fun state i => body i state) state

section
variable (body : Nat → σ → σ)

@[simp] theorem range_empty (start stop : Nat) (none : stop ≤ start) (state : σ) : range start stop body state = state := by
  rw [range, Nat.sub_eq_zero_of_le none]
  rfl

theorem range_succ (start stop : Nat) (some_ : start ≤ stop) (state : σ) :
    range start (stop + 1) body state = body stop (range start stop body state) := by
  have longer : stop + 1 - start = (stop - start) + 1 := by omega
  have last : start + (stop - start) = stop := by omega
  rw [range, longer, List.range'_1_concat, List.foldl_append, last]
  rfl

theorem range_rule (inv : Nat → σ → Prop) (start stop : Nat) (some_ : start ≤ stop)
    (step : ∀ i state, start ≤ i → i < stop → inv i state → inv (i + 1) (body i state)) (state : σ)
    (initial : inv start state) : inv stop (range start stop body state) := by
  induction stop, some_ using Nat.le_induction with
  | base =>
      rw [range_empty body start start (le_refl _)]
      exact initial
  | succ stop some_ ih =>
      rw [range_succ body start stop some_]
      exact step stop _ some_ (Nat.lt_succ_self _) (ih fun i state low high => step i state low (Nat.lt_succ_of_lt high))

theorem range_keeps (inv : σ → Prop) (start stop : Nat)
    (step : ∀ i state, start ≤ i → i < stop → inv state → inv (body i state)) (state : σ) (initial : inv state) :
    inv (range start stop body state) := by
  by_cases some_ : start ≤ stop
  · exact range_rule body (fun _ => inv) start stop some_ step state initial
  · rw [range_empty body start stop (by omega)]
    exact initial

theorem range_while_lt (at_ bound stop : Nat) (state : σ) :
    rangeWhile (fun i => decide (at_ + i < bound)) stop body state = range 0 (min stop (bound - at_)) body state := by
  have rounds : (List.range stop).takeWhile (fun i => decide (at_ + i < bound)) = List.range (min stop (bound - at_)) := by
    induction stop with
    | zero => simp
    | succ stop ih =>
        by_cases inside : at_ + stop < bound
        · have all : ∀ i ∈ List.range (stop + 1), decide (at_ + i < bound) = true := by
            intro i member
            have low := List.mem_range.mp member
            exact decide_eq_true (by omega)
          rw [List.takeWhile_eq_self_iff.mpr all, Nat.min_eq_left (by omega)]
        · rw [List.range_succ, List.takeWhile_append, ih]
          have short : (List.range (min stop (bound - at_))).length ≠ (List.range stop).length ∨
              min stop (bound - at_) = stop := by
            simp only [List.length_range]
            omega
          split
          · next whole =>
              simp only [List.length_range] at whole
              have falls : decide (at_ + stop < bound) = false := decide_eq_false inside
              rw [List.takeWhile_cons_of_neg (by rw [falls]; exact Bool.false_ne_true), List.append_nil]
              congr 1
              omega
          · congr 1
            omega
  rw [rangeWhile, rounds, range, Nat.sub_zero, List.range_eq_range']

end

end Loop
