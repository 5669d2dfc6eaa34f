import Mathlib.Logic.Relation

set_option autoImplicit false

-- Machines that fetch an instruction and execute it.
namespace Straight

-- A state that the machine cannot go on from has no next one.
structure Machine (σ ι : Type) where
  fetch : σ → Option ι
  exec : ι → σ → Option σ

namespace Machine

variable {σ ι : Type} (machine : Machine σ ι)

def step (state : σ) : Option σ := (machine.fetch state).bind fun instr => machine.exec instr state

def Reaches : σ → σ → Prop := Relation.ReflTransGen fun state after => machine.step state = some after

theorem step_fetched (instr : ι) (state after : σ) (fetched : machine.fetch state = some instr)
    (executed : machine.exec instr state = some after) : machine.step state = some after := by
  rw [step, fetched]
  exact executed

theorem Reaches.keeps {machine : Machine σ ι} {state after : σ} (reached : machine.Reaches state after) (inv : σ → Prop)
    (kept : ∀ state after, inv state → machine.step state = some after → inv after) (holds : inv state) : inv after := by
  induction reached with
  | refl => exact holds
  | tail _ step ih => exact kept _ _ ih step

-- good holds of the states that the stretch leaves.
def Through (good : σ → Prop) : σ → σ → Prop :=
  Relation.ReflTransGen fun state after => good state ∧ machine.step state = some after

section
variable {machine} {good : σ → Prop} {a b c : σ}

theorem Through.trans (front : machine.Through good a b) (back : machine.Through good b c) : machine.Through good a c :=
  Relation.ReflTransGen.trans front back

theorem Through.one (holds : good a) (step : machine.step a = some b) : machine.Through good a b :=
  Relation.ReflTransGen.single ⟨holds, step⟩

theorem Through.weaken {weak : σ → Prop} (weaken : ∀ state, good state → weak state) (run : machine.Through good a b) :
    machine.Through weak a b :=
  Relation.ReflTransGen.mono (fun _ _ => And.imp_left (weaken _)) _ _ run

theorem Through.reaches (run : machine.Through good a b) : machine.Reaches a b :=
  Relation.ReflTransGen.mono (fun _ _ => And.right) _ _ run

theorem Through.split (run : machine.Through good a b) (other : machine.Reaches a c) :
    good c ∨ machine.Reaches b c := by
  induction run using Relation.ReflTransGen.head_induction_on with
  | refl => exact .inr other
  | head first rest ih =>
      rcases Relation.ReflTransGen.cases_head other with rfl | ⟨next, step, onward⟩
      · exact .inl first.1
      · have same := Option.some.inj (step.symm.trans first.2)
        rw [same] at onward
        exact ih onward

theorem Through.settled (stays : σ → Prop) (run : machine.Through good a b) (settles : stays b)
    (closed : ∀ state after, stays state → machine.step state = some after → stays after) (other : machine.Reaches a c) :
    good c ∨ stays c := by
  rcases run.split other with early | late
  · exact .inl early
  · exact .inr (late.keeps stays closed settles)

end

-- Code that lies in memory as a list, κ being its instructions. here n state
-- says that the next one is the n-th. eval is what an instruction does where it
-- goes on to the one behind it.
theorem straight {κ : Type} (code : List κ) (as : κ → ι) (here : Nat → σ → Prop) (eval : κ → σ → Option σ)
    (fetches : ∀ n instr state, here n state → code[n]? = some instr → machine.fetch state = some (as instr))
    (onward : ∀ n instr state after, here n state → eval instr state = some after →
      machine.exec (as instr) state = some after ∧ here (n + 1) after)
    (block : List κ) (n : Nat) (state after : σ) (starts : here n state) (placed : (code.drop n).take block.length = block)
    (runs : block.foldlM (fun state instr => eval instr state) state = some after) :
    machine.Through (fun state => ∃ k, k < code.length ∧ here k state) state after ∧ here (n + block.length) after := by
  induction block generalizing n state with
  | nil =>
      have same := Option.some.inj runs
      rw [← same]
      exact ⟨Relation.ReflTransGen.refl, starts⟩
  | cons instr rest ih =>
      rw [List.foldlM_cons] at runs
      obtain ⟨next, evaluated, remaining⟩ := Option.bind_eq_some_iff.mp runs
      cases behind : code.drop n with
      | nil =>
          rw [behind] at placed
          cases placed
      | cons first others =>
          rw [behind, List.length_cons, List.take_succ_cons] at placed
          obtain ⟨rfl, following⟩ := List.cons.inj placed
          have found : code[n]? = some first := by
            rw [← List.head?_drop, behind]
            rfl
          have later : code.drop (n + 1) = others := by
            rw [← List.tail_drop, behind]
            rfl
          obtain ⟨executed, reached⟩ := onward n first state next starts evaluated
          have stepped := machine.step_fetched (as first) state next (fetches n first state starts found) executed
          obtain ⟨onto, ends⟩ := ih (n + 1) next reached (by rw [later]; exact following) remaining
          refine ⟨(Through.one ⟨n, (List.getElem?_eq_some_iff.mp found).1, starts⟩ stepped).trans onto, ?_⟩
          rw [List.length_cons, Nat.add_comm rest.length 1, ← Nat.add_assoc]
          exact ends

theorem Through.rounds (good : σ → Prop) (inv : Nat → σ → Prop)
    (round : ∀ n state, inv (n + 1) state → ∃ after, machine.Through good state after ∧ inv n after) (n : Nat) (state : σ)
    (holds : inv n state) : ∃ after, machine.Through good state after ∧ inv 0 after := by
  induction n generalizing state with
  | zero => exact ⟨state, Relation.ReflTransGen.refl, holds⟩
  | succ n ih =>
      obtain ⟨next, first, kept⟩ := round n state holds
      obtain ⟨after, others, done⟩ := ih next kept
      exact ⟨after, first.trans others, done⟩

end Machine

end Straight
