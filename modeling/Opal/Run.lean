import Mathlib.Data.List.Basic

set_option autoImplicit false

-- Runs of a machine whose next state is a function of the state and the event.
namespace Run

variable {σ ε γ : Type}

def exec (next : σ → ε → σ) (start : σ) (events : List ε) : σ := events.foldl next start

def Along (next : σ → ε → σ) (cond : σ → ε → Prop) : σ → List ε → Prop
  | _, [] => True
  | state, event :: rest => cond state event ∧ Along next cond (next state event) rest

def Always (next : σ → ε → σ) (good : σ → Prop) : σ → List ε → Prop
  | state, [] => good state
  | state, event :: rest => good state ∧ Always next good (next state event) rest

-- A history variable: a value that is updated beside the state and that no
-- step of the machine reads.
def recorded (next : σ → ε → σ) (record : σ → ε → σ → γ → γ) (pair : σ × γ) (event : ε) : σ × γ :=
  (next pair.1 event, record pair.1 event (next pair.1 event) pair.2)

section
variable (next : σ → ε → σ)

@[simp] theorem exec_nil (state : σ) : exec next state [] = state := rfl

@[simp] theorem exec_cons (state : σ) (event : ε) (rest : List ε) :
    exec next state (event :: rest) = exec next (next state event) rest := rfl

theorem exec_append (state : σ) (a b : List ε) :
    exec next state (a ++ b) = exec next (exec next state a) b := by
  simp [exec]

@[simp] theorem along_nil (cond : σ → ε → Prop) (state : σ) : Along next cond state [] := trivial

@[simp] theorem along_cons (cond : σ → ε → Prop) (state : σ) (event : ε) (rest : List ε) :
    Along next cond state (event :: rest) ↔ cond state event ∧ Along next cond (next state event) rest := Iff.rfl

theorem along_append (cond : σ → ε → Prop) (state : σ) (a b : List ε) :
    Along next cond state (a ++ b) ↔ Along next cond state a ∧ Along next cond (exec next state a) b := by
  induction a generalizing state with
  | nil => simp
  | cons event rest ih => simp [ih, and_assoc]

theorem along_and (a b : σ → ε → Prop) (state : σ) (events : List ε) :
    Along next (fun s e => a s e ∧ b s e) state events ↔ Along next a state events ∧ Along next b state events := by
  induction events generalizing state with
  | nil => simp
  | cons event rest ih =>
      simp only [along_cons, ih]
      tauto

theorem along_imp (a b : σ → ε → Prop) (weaken : ∀ s e, a s e → b s e) (state : σ) (events : List ε)
    (meets : Along next a state events) : Along next b state events := by
  induction events generalizing state with
  | nil => trivial
  | cons event rest ih => exact ⟨weaken _ _ meets.1, ih _ meets.2⟩

theorem along_of_forall (cond : σ → ε → Prop) (meets : ∀ s e, cond s e) (state : σ) (events : List ε) :
    Along next cond state events := by
  induction events generalizing state with
  | nil => trivial
  | cons event rest ih => exact ⟨meets _ _, ih _⟩

theorem along_of_mem (cond : ε → Prop) (state : σ) (events : List ε) (all : ∀ event ∈ events, cond event) :
    Along next (fun _ event => cond event) state events := by
  induction events generalizing state with
  | nil => trivial
  | cons event rest ih =>
      exact ⟨all event List.mem_cons_self, ih _ fun other later => all other (List.mem_cons_of_mem event later)⟩

instance decidableAlong (cond : σ → ε → Prop) [∀ s e, Decidable (cond s e)] :
    ∀ state events, Decidable (Along next cond state events)
  | _, [] => .isTrue trivial
  | state, event :: rest =>
      haveI := decidableAlong cond (next state event) rest
      inferInstanceAs (Decidable (cond state event ∧ Along next cond (next state event) rest))

theorem invariant (cond : σ → ε → Prop) (inv : σ → Prop)
    (step : ∀ s e, inv s → cond s e → inv (next s e)) (state : σ) (events : List ε)
    (initial : inv state) (meets : Along next cond state events) : inv (exec next state events) := by
  induction events generalizing state with
  | nil => exact initial
  | cons event rest ih => exact ih _ (step _ _ initial meets.1) meets.2

theorem always_head (good : σ → Prop) (state : σ) (events : List ε)
    (all : Always next good state events) : good state := by
  cases events with
  | nil => exact all
  | cons event rest => exact all.1

theorem always_last (good : σ → Prop) (state : σ) (events : List ε)
    (all : Always next good state events) : good (exec next state events) := by
  induction events generalizing state with
  | nil => exact all
  | cons event rest ih => exact ih _ all.2

theorem always_append (good : σ → Prop) (state : σ) (a b : List ε) (all : Always next good state (a ++ b)) :
    Always next good state a ∧ Always next good (exec next state a) b := by
  induction a generalizing state with
  | nil => exact ⟨always_head next good state b all, all⟩
  | cons event rest ih =>
      obtain ⟨early, late⟩ := ih _ all.2
      exact ⟨⟨all.1, early⟩, late⟩

theorem along_of_always (good : σ → Prop) (state : σ) (events : List ε) (all : Always next good state events) :
    Along next (fun s _ => good s) state events := by
  induction events generalizing state with
  | nil => trivial
  | cons event rest ih => exact ⟨all.1, ih _ all.2⟩

theorem always_of_invariant (cond : σ → ε → Prop) (inv good : σ → Prop)
    (step : ∀ s e, inv s → cond s e → inv (next s e)) (enough : ∀ s, inv s → good s) (state : σ)
    (events : List ε) (initial : inv state) (meets : Along next cond state events) :
    Always next good state events := by
  induction events generalizing state with
  | nil => exact enough _ initial
  | cons event rest ih => exact ⟨enough _ initial, ih _ (step _ _ initial meets.1) meets.2⟩

theorem along_of_invariant (cond shows : σ → ε → Prop) (inv : σ → Prop)
    (step : ∀ s e, inv s → cond s e → inv (next s e) ∧ shows s e) (state : σ) (events : List ε) (initial : inv state)
    (meets : Along next cond state events) : Along next shows state events := by
  induction events generalizing state with
  | nil => trivial
  | cons event rest ih =>
      obtain ⟨kept, shown⟩ := step _ _ initial meets.1
      exact ⟨shown, ih _ kept meets.2⟩

-- Where, from a good state, a step leads to a good state and shows a property
-- exactly when it meets the condition, the run is good throughout and every
-- step shows the property exactly when every step meets the condition.
theorem always_and_along_iff (allowed shows cond : σ → ε → Prop) (inv good : σ → Prop)
    (keeps : ∀ s e, inv s → allowed s e → good s → cond s e → inv (next s e))
    (exact_step : ∀ s e, inv s → allowed s e → good s → (good (next s e) ∧ shows s e ↔ cond s e))
    (state : σ) (events : List ε) (initial : inv state) (start : good state)
    (admitted : Along next allowed state events) :
    Always next good state events ∧ Along next shows state events ↔ Along next cond state events := by
  induction events generalizing state with
  | nil => exact ⟨fun _ => trivial, fun _ => ⟨start, trivial⟩⟩
  | cons event rest ih =>
      have step := exact_step _ _ initial admitted.1 start
      constructor
      · rintro ⟨all, shown⟩
        have nextGood := always_head next good _ rest all.2
        have meets := step.mp ⟨nextGood, shown.1⟩
        exact ⟨meets, (ih _ (keeps _ _ initial admitted.1 start meets) nextGood admitted.2).mp ⟨all.2, shown.2⟩⟩
      · intro meets
        obtain ⟨nextGood, shown⟩ := step.mpr meets.1
        obtain ⟨all, later⟩ := (ih _ (keeps _ _ initial admitted.1 start meets.1) nextGood admitted.2).mpr meets.2
        exact ⟨⟨start, all⟩, ⟨shown, later⟩⟩

theorem always_iff_along (allowed cond : σ → ε → Prop) (inv good : σ → Prop)
    (keeps : ∀ s e, inv s → allowed s e → good s → cond s e → inv (next s e))
    (exact_step : ∀ s e, inv s → allowed s e → good s → (good (next s e) ↔ cond s e))
    (state : σ) (events : List ε) (initial : inv state) (start : good state)
    (admitted : Along next allowed state events) :
    Always next good state events ↔ Along next cond state events := by
  rw [← always_and_along_iff next allowed (fun _ _ => True) cond inv good keeps
    (fun s e kept allows now => by rw [and_true, exact_step s e kept allows now]) state events initial start admitted]
  exact ⟨fun all => ⟨all, along_of_forall next _ (fun _ _ => trivial) state events⟩, fun both => both.1⟩

theorem exec_recorded (record : σ → ε → σ → γ → γ) (pair : σ × γ) (events : List ε) :
    (exec (recorded next record) pair events).1 = exec next pair.1 events := by
  induction events generalizing pair with
  | nil => rfl
  | cons event rest ih => exact ih _

theorem exec_map {ε' : Type} (next' : σ → ε' → σ) (f : ε' → ε) (same : ∀ s e, next s (f e) = next' s e) (state : σ)
    (events : List ε') : exec next state (events.map f) = exec next' state events := by
  induction events generalizing state with
  | nil => rfl
  | cons event rest ih =>
      rw [List.map_cons, exec_cons, exec_cons, same]
      exact ih _

theorem along_recorded (record : σ → ε → σ → γ → γ) (cond : σ → ε → Prop) (pair : σ × γ) (events : List ε)
    (meets : Along next cond pair.1 events) :
    Along (recorded next record) (fun state event => cond state.1 event) pair events := by
  induction events generalizing pair with
  | nil => trivial
  | cons event rest ih => exact ⟨meets.1, ih _ meets.2⟩

end

end Run
