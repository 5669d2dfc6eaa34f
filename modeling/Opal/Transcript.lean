import Mathlib.Logic.Relation
import Mathlib.Data.List.Infix

set_option autoImplicit false

-- A player that plays on its own until it comes to a question, and the
-- transcript of the questions it has asked.
namespace Transcript

-- step is none where the player makes no move of its own, and a question is
-- such a place.
structure Player (V : Type) where
  step : V → Option V
  asks : V → Bool
  pauses : ∀ v, asks v = true → step v = none

structure Record (V : Type) where
  asked : List V
  now : V

section
variable {V : Type} (p : Player V) (answers : V → V → Prop)

def Player.Plays : V → V → Prop := Relation.ReflTransGen fun v v' => p.step v = some v'

inductive Step : Record V → Record V → Prop where
  | plays (asked : List V) (v v' : V) (goes : p.step v = some v') : Step ⟨asked, v⟩ ⟨asked, v'⟩
  | answered (asked : List V) (v v' : V) (question : p.asks v = true) (answer : answers v v') :
      Step ⟨asked, v⟩ ⟨asked ++ [v], v'⟩

def Reaches : Record V → Record V → Prop := Relation.ReflTransGen (Step p answers)

-- Every question that a game from start can come to has at most one answer.
def Settled (start : V) : Prop :=
  ∀ r, Reaches p answers ⟨[], start⟩ r → p.asks r.now = true → ∀ a b, answers r.now a → answers r.now b → a = b

-- What may stand in the transcript of a game from start, a question that is
-- still open included.
def Writes (start : V) (questions : List V) : Prop :=
  ∃ r, Reaches p answers ⟨[], start⟩ r ∧ (questions = r.asked ∨ p.asks r.now = true ∧ questions = r.asked ++ [r.now])

variable {p answers}

theorem reaches_plays (asked : List V) (v v' : V) (plays : p.Plays v v') : Reaches p answers ⟨asked, v⟩ ⟨asked, v'⟩ := by
  induction plays with
  | refl => exact .refl
  | tail _ goes ih => exact ih.tail (.plays asked _ _ goes)

theorem reaches_answered (asked : List V) (start v v' : V) (reached : Reaches p answers ⟨[], start⟩ ⟨asked, v⟩)
    (question : p.asks v = true) (answer : answers v v') : Reaches p answers ⟨[], start⟩ ⟨asked ++ [v], v'⟩ :=
  reached.tail (.answered asked v v' question answer)

theorem writes_nothing (start : V) : Writes p answers start [] := ⟨⟨[], start⟩, .refl, .inl rfl⟩

theorem writes_asked (start v : V) (asked : List V) (reached : Reaches p answers ⟨[], start⟩ ⟨asked, v⟩) :
    Writes p answers start asked := ⟨_, reached, .inl rfl⟩

theorem writes_question (start v : V) (asked : List V) (reached : Reaches p answers ⟨[], start⟩ ⟨asked, v⟩)
    (question : p.asks v = true) : Writes p answers start (asked ++ [v]) := ⟨_, reached, .inr ⟨question, rfl⟩⟩

theorem step_grows (r r' : Record V) (step : Step p answers r r') : r.asked <+: r'.asked := by
  cases step with
  | plays asked v v' _ => exact List.prefix_rfl
  | answered asked v v' _ _ => exact List.prefix_append asked [v]

theorem asked_grows (r r' : Record V) (reached : Reaches p answers r r') : r.asked <+: r'.asked := by
  induction reached with
  | refl => exact List.prefix_rfl
  | tail _ step ih => exact ih.trans (step_grows _ _ step)

theorem question_first (r r' : Record V) (question : p.asks r.now = true) (reached : Reaches p answers r r') :
    r = r' ∨ r.asked ++ [r.now] <+: r'.asked := by
  rcases Relation.ReflTransGen.cases_head reached with same | ⟨middle, step, rest⟩
  · exact .inl same
  · cases step with
    | plays asked v v' goes =>
        have stuck := p.pauses v question
        rw [goes] at stuck
        cases stuck
    | answered asked v v' _ _ => exact .inr (asked_grows _ _ rest)

theorem step_unique (start : V) (settled : Settled p answers start) (r a b : Record V)
    (reached : Reaches p answers ⟨[], start⟩ r) (first : Step p answers r a) (second : Step p answers r b) : a = b := by
  cases first with
  | plays asked v v' goes =>
      cases second with
      | plays _ _ v'' also =>
          rw [Option.some.inj (goes.symm.trans also)]
      | answered _ _ v'' question _ =>
          have stuck := p.pauses v question
          rw [goes] at stuck
          cases stuck
  | answered asked v v' question answer =>
      cases second with
      | plays _ _ v'' goes =>
          have stuck := p.pauses v question
          rw [goes] at stuck
          cases stuck
      | answered _ _ v'' _ also =>
          rw [settled _ reached question v' v'' answer also]

theorem games_comparable (start : V) (settled : Settled p answers start) (r r' : Record V)
    (first : Reaches p answers ⟨[], start⟩ r) (second : Reaches p answers ⟨[], start⟩ r') :
    Reaches p answers r r' ∨ Reaches p answers r' r := by
  let played : Record V → Record V → Prop := fun a b => Step p answers a b ∧ Reaches p answers ⟨[], start⟩ a
  have confined : ∀ a, Reaches p answers ⟨[], start⟩ a → Relation.ReflTransGen played ⟨[], start⟩ a := by
    intro a reached
    induction reached with
    | refl => exact .refl
    | tail before step ih => exact ih.tail ⟨step, before⟩
  have unique : Relator.RightUnique played := fun a b c one other => step_unique start settled a b c one.2 one.1 other.1
  have free : ∀ a b, Relation.ReflTransGen played a b → Reaches p answers a b :=
    fun a b reached => reached.lift id fun _ _ both => both.1
  rcases Relation.ReflTransGen.total_of_right_unique unique (confined r first) (confined r' second) with forth | back
  · exact .inl (free r r' forth)
  · exact .inr (free r' r back)

theorem transcript_along (r r' : Record V) (reached : Reaches p answers r r') (a b : List V)
    (left : a = r.asked ∨ p.asks r.now = true ∧ a = r.asked ++ [r.now])
    (right : b = r'.asked ∨ p.asks r'.now = true ∧ b = r'.asked ++ [r'.now]) : a <+: b ∨ b <+: a := by
  have longer : r'.asked <+: b := by
    rcases right with rfl | ⟨_, rfl⟩
    · exact List.prefix_rfl
    · exact List.prefix_append _ _
  rcases left with rfl | ⟨question, rfl⟩
  · exact .inl ((asked_grows r r' reached).trans longer)
  · rcases question_first r r' question reached with rfl | asked
    · rcases right with rfl | ⟨_, rfl⟩
      · exact .inr (List.prefix_append _ _)
      · exact .inl List.prefix_rfl
    · exact .inl (asked.trans longer)

theorem transcripts_comparable (start : V) (settled : Settled p answers start) (a b : List V)
    (first : Writes p answers start a) (second : Writes p answers start b) : a <+: b ∨ b <+: a := by
  obtain ⟨r, reached, left⟩ := first
  obtain ⟨r', reached', right⟩ := second
  rcases games_comparable start settled r r' reached reached' with forth | back
  · exact transcript_along r r' forth a b left right
  · exact (transcript_along r' r back b a right left).symm

end

end Transcript
