import Opal.Enclosed

set_option autoImplicit false

namespace Opal

open Reading Relation

namespace Fdt

section
variable (fdt : Fdtr) (mem : Nat → UInt8)

-- From one token of a node's property list to the next. reads says which
-- properties the walk gets past.
inductive Fdtr.Passes (reads : Nat → Prop) : Nat → Nat → Prop where
  | prop (p : Nat) (inside : p + 4 ≤ fdt.structStop) (token : fdt.wordAt mem p = fdtProp) (read : reads p) :
      Fdtr.Passes reads p (p + 12 + mask4 (fdt.wordAt mem (p + 4) + 3))
  | nop (p : Nat) (inside : p + 4 ≤ fdt.structStop) (token : fdt.wordAt mem p = fdtNop) : Fdtr.Passes reads p (p + 4)

-- What first_child_offset reads of a property, and what prop reads.
def Fdtr.Measured (p : Nat) : Prop := p + 8 ≤ fdt.header.totalsize

structure Fdtr.Legible (p : Nat) : Prop where
  header : p + 12 ≤ fdt.header.totalsize
  data : p + 12 + fdt.wordAt mem (p + 4) ≤ fdt.header.totalsize
  name : ∃ pname, fdt.Labelled mem (fdt.wordAt mem (p + 8)) pname

-- The properties that prop gets past when it looks for this name.
structure Fdtr.Past (name : List UInt8) (p : Nat) : Prop where
  legible : fdt.Legible mem p
  other : ¬ fdt.Labelled mem (fdt.wordAt mem (p + 8)) name

-- The tokens behind the node's name that a walk over its properties comes to.
def Fdtr.Lists (reads : Nat → Prop) (node : Node) (p : Nat) : Prop :=
  ∃ name, fdt.Named mem (node.offset + 4) name ∧
    ReflTransGen (fdt.Passes mem reads) (node.offset + 4 + mask4 (name.length + 4)) p

-- From one token of the walk over the children to the next.
inductive Fdtr.Moves : NodeIter → NodeIter → Prop where
  | begins (p d : Nat) (name : List UInt8) (inside : p + 4 ≤ fdt.structStop) (token : fdt.wordAt mem p = fdtBeginNode)
      (named : fdt.Named mem (p + 4) name) :
      Fdtr.Moves ⟨p, d⟩ ⟨p + 4 + mask4 (name.length + 4), d + 1⟩
  | ends (p d : Nat) (inside : p + 4 ≤ fdt.structStop) (token : fdt.wordAt mem p = fdtEndNode) :
      Fdtr.Moves ⟨p, d + 1⟩ ⟨p + 4, d⟩
  | prop (p d : Nat) (inside : p + 4 ≤ fdt.structStop) (token : fdt.wordAt mem p = fdtProp) (read : fdt.Measured p) :
      Fdtr.Moves ⟨p, d⟩ ⟨p + 12 + mask4 (fdt.wordAt mem (p + 4) + 3), d⟩
  | nop (p d : Nat) (inside : p + 4 ≤ fdt.structStop) (token : fdt.wordAt mem p = fdtNop) : Fdtr.Moves ⟨p, d⟩ ⟨p + 4, d⟩

-- The token behind the node's properties, where its children begin.
structure Fdtr.Enters (node : Node) (p : Nat) : Prop where
  lists : fdt.Lists mem fdt.Measured node p
  inside : p + 4 ≤ fdt.structStop
  token : fdt.wordAt mem p = fdtBeginNode

def Fdtr.Tours (node : Node) (iter : NodeIter) : Prop := ∃ p, fdt.Enters mem node p ∧ ReflTransGen (fdt.Moves mem) ⟨p, 0⟩ iter

-- All that a node's walks read and that begins in the structure block ends
-- there, or is not in the blob. Of the properties of one name only the first
-- has its value read.
structure Fdtr.Encloses (node : Node) : Prop where
  name : fdt.NameEnds mem (node.offset + 4)
  values : ∀ name p, fdt.Lists mem (fdt.Past mem name) node p → fdt.PropEnds mem name p
  lengths : ∀ p, fdt.Lists mem fdt.Measured node p → fdt.LengthEnds mem p
  below : ∀ iter, fdt.Tours mem node iter → fdt.TokenEnds mem iter.offset

end

section
variable {fuel : Nat} {mem : Nat → UInt8} {fdt : Fdtr} (sound : fdt.Sound)
include sound

omit sound in
theorem word_at_small (off : Nat) : fdt.wordAt mem off < 2 ^ 32 := by
  have small := from_be_lt ((addresses (fdt.base + off) 4).map mem)
  have length : ((addresses (fdt.base + off) 4).map mem).length = 4 := by simp [addresses]
  rwa [length] at small

theorem read_word (off : Nat) (inside : off + 4 ≤ fdt.header.totalsize) :
    (fdt.structU32 off fuel mem).1 = .value (fdt.wordAt mem off) := (struct_u32_value_iff sound off _).mpr ⟨inside, rfl⟩

theorem word_then_iff {α : Type} (off : Nat) (f : Nat → Reading α) (a : α) :
    ((fdt.structU32 off >>= f) fuel mem).1 = .value a ↔
      off + 4 ≤ fdt.header.totalsize ∧ (f (fdt.wordAt mem off) fuel mem).1 = .value a := by
  simp only [bind_value_iff, struct_u32_value_iff sound, and_assoc, exists_and_left, exists_eq_left']

theorem labelled_unique (enough : fdt.header.totalsize < fuel) (nameoff : Nat) (first second : List UInt8)
    (one : fdt.Labelled mem nameoff first) (other : fdt.Labelled mem nameoff second) : first = second := by
  have value := (@string_at_value_iff fuel mem fdt sound nameoff first enough).mpr one
  rw [(string_at_value_iff sound nameoff second enough).mpr other] at value
  exact (Result.value.inj value).symm

-- A round goes on over a property of another name or a NOP, and is done with
-- the bytes of the property it looks for.
theorem prop_round_value (name : List UInt8) (enough : fdt.header.totalsize < fuel) (p : Nat) (round : Round Nat (List UInt8))
    (value : (fdt.propRound name fdt.structStop p fuel mem).1 = .value round) :
    (∃ q, fdt.Passes mem (fdt.Past mem name) p q ∧ round = .again q) ∨
      p + 4 ≤ fdt.structStop ∧ fdt.wordAt mem p = fdtProp ∧ fdt.Legible mem p ∧
        fdt.Labelled mem (fdt.wordAt mem (p + 8)) name ∧
          round = .done ((addresses (fdt.base + (p + 12)) (fdt.wordAt mem (p + 4))).map mem) := by
  unfold Fdtr.propRound at value
  obtain ⟨_, value⟩ := (checked_add_then_iff _ _ _ _).mp value
  by_cases inside : p + 4 ≤ fdt.structStop
  · rw [if_neg (Nat.not_lt.mpr inside)] at value
    obtain ⟨_, value⟩ := (word_then_iff sound _ _ _).mp value
    obtain ⟨_, value⟩ := (checked_add_then_iff _ _ _ _).mp value
    split_ifs at value with isProp isNop
    · obtain ⟨_, value⟩ := (word_then_iff sound _ _ _).mp value
      obtain ⟨_, value⟩ := (checked_add_then_iff _ _ _ _).mp value
      obtain ⟨header, value⟩ := (word_then_iff sound _ _ _).mp value
      obtain ⟨_, value⟩ := (checked_add_then_iff _ _ _ _).mp value
      obtain ⟨pname, found, value⟩ := (bind_value_iff _ _ _).mp value
      obtain ⟨data, read, value⟩ := (bind_value_iff _ _ _).mp value
      obtain ⟨fits, rfl⟩ := (struct_bytes_value_iff sound _ _ _).mp read
      have labelled := (string_at_value_iff sound _ _ enough).mp found
      have legible : fdt.Legible mem p := ⟨header, fits, pname, labelled⟩
      split_ifs at value with same
      · obtain ⟨bytes, loaded, value⟩ := (bind_value_iff _ _ _).mp value
        cases loaded
        cases value
        exact .inr ⟨inside, isProp, legible, same ▸ labelled, rfl⟩
      · obtain ⟨_, value⟩ := (checked_add_then_iff _ _ _ _).mp value
        obtain ⟨_, value⟩ := (checked_add_then_iff _ _ _ _).mp value
        cases value
        refine .inl ⟨_, .prop p inside isProp ⟨legible, fun named => ?_⟩, rfl⟩
        exact same (labelled_unique sound enough _ pname name labelled named)
    · cases value
      exact .inl ⟨_, .nop p inside isNop, rfl⟩
    · cases value
  · rw [if_pos (Nat.lt_of_not_le inside)] at value
    cases value

theorem prop_round_last (name : List UInt8) (enough : fdt.header.totalsize < fuel) (p : Nat)
    (inside : p + 4 ≤ fdt.structStop) (token : fdt.wordAt mem p = fdtProp) (legible : fdt.Legible mem p)
    (labelled : fdt.Labelled mem (fdt.wordAt mem (p + 8)) name) :
    eachByte (fdt.base + (p + 12)) (fdt.wordAt mem (p + 4)) <:+ (fdt.propRound name fdt.structStop p fuel mem).2 := by
  have limits := struct_stop_small sound
  have small := sound.small
  obtain ⟨header, fits, _⟩ := legible
  have first : checkedAdd p 4 = Pure.pure (p + 4) := if_pos (by unfold wordEnd; omega)
  have second : checkedAdd (p + 4) 4 = Pure.pure (p + 8) := if_pos (by unfold wordEnd; omega)
  have third : checkedAdd (p + 4) 8 = Pure.pure (p + 12) := if_pos (by unfold wordEnd; omega)
  have read := (@struct_bytes_value_iff fuel mem fdt sound (p + 12) (fdt.wordAt mem (p + 4)) _).mpr ⟨fits, rfl⟩
  unfold Fdtr.propRound
  simp only [first, second, third, Reading.pure_bind, if_neg (Nat.not_lt.mpr inside)]
  refine bind_last (read_word sound p (by omega)) ?_
  rw [if_pos token]
  refine bind_last (read_word sound (p + 4) (by omega)) (bind_last (read_word sound (p + 8) header) ?_)
  refine bind_last ((string_at_value_iff sound _ _ enough).mpr labelled) (bind_last read ?_)
  rw [if_pos rfl]
  exact ⟨[], (List.append_nil _).symm⟩

theorem prop_again_iff (name : List UInt8) (enough : fdt.header.totalsize < fuel) (p q : Nat) :
    Again fuel mem (fdt.propRound name fdt.structStop) p q ↔ fdt.Passes mem (fdt.Past mem name) p q := by
  have limits := struct_stop_small sound
  have small := sound.small
  constructor
  · intro again
    rcases prop_round_value sound name enough p _ again with ⟨_, passes, same⟩ | ⟨_, _, _, _, no⟩
    · cases same
      exact passes
    · cases no
  · intro passes
    unfold Again Fdtr.propRound
    cases passes with
    | prop inside token read =>
        obtain ⟨⟨header, data, pname, found⟩, apart⟩ := read
        have len := @word_at_small mem fdt (p + 4)
        have masked := mask4_le (fdt.wordAt mem (p + 4) + 3)
        have first : checkedAdd p 4 = Pure.pure (p + 4) := if_pos (by unfold wordEnd; omega)
        have second : checkedAdd (p + 4) 4 = Pure.pure (p + 8) := if_pos (by unfold wordEnd; omega)
        have third : checkedAdd (p + 4) 8 = Pure.pure (p + 12) := if_pos (by unfold wordEnd; omega)
        have padded : checkedAdd (fdt.wordAt mem (p + 4)) 3 = Pure.pure (fdt.wordAt mem (p + 4) + 3) :=
          if_pos (by unfold wordEnd; omega)
        have moved : checkedAdd (p + 12) (mask4 (fdt.wordAt mem (p + 4) + 3)) =
            Pure.pure (p + 12 + mask4 (fdt.wordAt mem (p + 4) + 3)) := if_pos (by unfold wordEnd; omega)
        have other : pname ≠ name := fun same => apart (same ▸ found)
        simp only [first, second, third, Reading.pure_bind, if_neg (Nat.not_lt.mpr inside)]
        rw [bind_value _ (read_word sound p (by omega)), if_pos token, bind_value _ (read_word sound (p + 4) (by omega)),
          bind_value _ (read_word sound (p + 8) header), bind_value _ ((string_at_value_iff sound _ _ enough).mpr found),
          bind_value _ ((struct_bytes_value_iff sound _ _ _).mpr ⟨data, rfl⟩), if_neg other, padded, Reading.pure_bind, moved]
        rfl
    | nop inside token =>
        have first : checkedAdd p 4 = Pure.pure (p + 4) := if_pos (by unfold wordEnd; omega)
        simp only [first, Reading.pure_bind, if_neg (Nat.not_lt.mpr inside)]
        rw [bind_value _ (read_word sound p (by omega)), if_neg (by rw [token]; decide), if_pos token]
        rfl

theorem first_child_round_iff (p : Nat) (round : Round Nat Nat) :
    (fdt.firstChildRound fdt.structStop p fuel mem).1 = .value round ↔
      (∃ q, fdt.Passes mem fdt.Measured p q ∧ round = .again q) ∨
        p + 4 ≤ fdt.structStop ∧ fdt.wordAt mem p = fdtBeginNode ∧ round = .done p := by
  have limits := struct_stop_small sound
  have small := sound.small
  unfold Fdtr.firstChildRound
  constructor
  · intro value
    obtain ⟨_, value⟩ := (checked_add_then_iff _ _ _ _).mp value
    by_cases inside : p + 4 ≤ fdt.structStop
    · rw [if_neg (Nat.not_lt.mpr inside)] at value
      obtain ⟨_, value⟩ := (word_then_iff sound _ _ _).mp value
      split_ifs at value with isProp isNop isBegin
      · obtain ⟨_, value⟩ := (checked_add_then_iff _ _ _ _).mp value
        obtain ⟨measured, value⟩ := (word_then_iff sound _ _ _).mp value
        obtain ⟨_, value⟩ := (checked_add_then_iff _ _ _ _).mp value
        obtain ⟨_, value⟩ := (checked_add_then_iff _ _ _ _).mp value
        obtain ⟨_, value⟩ := (checked_add_then_iff _ _ _ _).mp value
        obtain ⟨_, value⟩ := (checked_add_then_iff _ _ _ _).mp value
        cases value
        exact .inl ⟨_, .prop p inside isProp measured, rfl⟩
      · obtain ⟨_, value⟩ := (checked_add_then_iff _ _ _ _).mp value
        cases value
        exact .inl ⟨_, .nop p inside isNop, rfl⟩
      · cases value
        exact .inr ⟨inside, isBegin, rfl⟩
      · cases value
    · rw [if_pos (Nat.lt_of_not_le inside)] at value
      cases value
  · rintro (⟨q, passes, rfl⟩ | ⟨inside, token, rfl⟩)
    · have len := @word_at_small mem fdt (p + 4)
      have masked := mask4_le (fdt.wordAt mem (p + 4) + 3)
      have inside : p + 4 ≤ fdt.structStop := by
        cases passes with
        | prop inside _ _ => exact inside
        | nop inside _ => exact inside
      have first : checkedAdd p 4 = Pure.pure (p + 4) := if_pos (by unfold wordEnd; omega)
      have second : checkedAdd (p + 4) 8 = Pure.pure (p + 12) := if_pos (by unfold wordEnd; omega)
      have padded : checkedAdd (fdt.wordAt mem (p + 4)) 3 = Pure.pure (fdt.wordAt mem (p + 4) + 3) :=
        if_pos (by unfold wordEnd; omega)
      have moved : checkedAdd (p + 12) (mask4 (fdt.wordAt mem (p + 4) + 3)) =
          Pure.pure (p + 12 + mask4 (fdt.wordAt mem (p + 4) + 3)) := if_pos (by unfold wordEnd; omega)
      simp only [first, second, Reading.pure_bind, if_neg (Nat.not_lt.mpr inside)]
      rw [bind_value _ (read_word sound p (by omega))]
      cases passes with
      | prop _ token measured =>
          rw [if_pos token, bind_value _ (read_word sound (p + 4) measured), padded, Reading.pure_bind, moved]
          rfl
      | nop _ token =>
          rw [if_neg (by rw [token]; decide), if_pos token]
          rfl
    · have first : checkedAdd p 4 = Pure.pure (p + 4) := if_pos (by unfold wordEnd; omega)
      simp only [first, Reading.pure_bind, if_neg (Nat.not_lt.mpr inside)]
      rw [bind_value _ (read_word sound p (by omega)), if_neg (by rw [token]; decide), if_neg (by rw [token]; decide),
        if_pos token]
      rfl

-- A round of the walk over the children moves to the next token. Where that
-- enters a child, the round is done with it.
def Fdtr.roundTo (fdt : Fdtr) (mem : Nat → UInt8) (iter later : NodeIter) : Round NodeIter (Node × NodeIter) :=
  if iter.depth = 0 ∧ fdt.wordAt mem iter.offset = fdtBeginNode then .done (⟨iter.offset⟩, later) else .again later

theorem moves_of_round (iter : NodeIter) (round : Round NodeIter (Node × NodeIter)) (enough : fdt.header.totalsize < fuel)
    (value : (fdt.nextRound fdt.structStop iter fuel mem).1 = .value round) :
    ∃ later, fdt.Moves mem iter later ∧ round = fdt.roundTo mem iter later := by
  have small := sound.small
  obtain ⟨p, d⟩ := iter
  unfold Fdtr.nextRound at value
  unfold Fdtr.roundTo
  by_cases going : p = 0
  · rw [if_pos going] at value
    cases value
  · rw [if_neg going] at value
    obtain ⟨_, value⟩ := (add_then_iff _ _ _ _).mp value
    by_cases inside : p + 4 ≤ fdt.structStop
    · rw [if_neg (Nat.not_lt.mpr inside)] at value
      obtain ⟨_, value⟩ := (word_then_iff sound _ _ _).mp value
      obtain ⟨_, value⟩ := (add_then_iff _ _ _ _).mp value
      dsimp only at value
      by_cases isBegin : fdt.wordAt mem p = fdtBeginNode
      · rw [if_pos isBegin] at value
        obtain ⟨name, found, value⟩ := (bind_value_iff _ _ _).mp value
        have named := (struct_cstr_value_iff sound _ _ enough).mp found
        have short := named.inside
        rw [padded_name_run name (by omega), Reading.pure_bind] at value
        obtain ⟨_, value⟩ := (checked_add_then_iff _ _ _ _).mp value
        refine ⟨_, .begins p d name inside isBegin named, ?_⟩
        by_cases child : d = 0
        · rw [if_pos child] at value
          obtain ⟨_, value⟩ := (sub_then_iff _ _ _ _).mp value
          obtain ⟨_, value⟩ := (sub_then_iff _ _ _ _).mp value
          cases value
          have back : ∀ padded, p + 4 + padded - 4 - padded = p := fun padded => by omega
          rw [if_pos ⟨child, isBegin⟩, child, back]
        · rw [if_neg child] at value
          obtain ⟨_, value⟩ := (add_then_iff _ _ _ _).mp value
          cases value
          rw [if_neg fun both => child both.1]
      · have other : ¬ (d = 0 ∧ fdt.wordAt mem p = fdtBeginNode) := fun both => isBegin both.2
        rw [if_neg isBegin] at value
        split_ifs at value with isEnd outermost isProp isNop
        · cases value
        · obtain ⟨_, value⟩ := (sub_then_iff _ _ _ _).mp value
          cases value
          obtain ⟨e, rfl⟩ := Nat.exists_eq_succ_of_ne_zero outermost
          exact ⟨_, .ends p e inside isEnd, (if_neg other).symm⟩
        · obtain ⟨read, value⟩ := (word_then_iff sound _ _ _).mp value
          obtain ⟨_, value⟩ := (add_then_iff _ _ _ _).mp value
          obtain ⟨_, value⟩ := (add_then_iff _ _ _ _).mp value
          obtain ⟨_, value⟩ := (add_then_iff _ _ _ _).mp value
          cases value
          refine ⟨_, .prop p d inside isProp read, ?_⟩
          have skip : ∀ padded, p + 4 + (8 + padded) = p + 12 + padded := fun padded => by omega
          rw [if_neg other, skip]
        · cases value
          exact ⟨_, .nop p d inside isNop, (if_neg other).symm⟩
        · cases value
    · rw [if_pos (Nat.lt_of_not_le inside)] at value
      cases value

theorem moves_onward (iter later : NodeIter) (moves : fdt.Moves mem iter later) :
    iter.offset + 4 ≤ fdt.structStop ∧ iter.offset < later.offset ∧ later.offset ≤ 2 ^ 34 ∧
      (iter.depth ≤ iter.offset → later.depth ≤ later.offset) := by
  have limits := struct_stop_small sound
  have small := sound.small
  cases moves with
  | begins p d name inside token named =>
      have short := named.inside
      have masked := mask4_le (name.length + 4)
      exact ⟨inside, by dsimp only; omega, by dsimp only; omega, fun shallow => by dsimp only at shallow ⊢; omega⟩
  | ends p d inside token =>
      exact ⟨inside, by dsimp only; omega, by dsimp only; omega, fun shallow => by dsimp only at shallow ⊢; omega⟩
  | prop p d inside token read =>
      have len := @word_at_small mem fdt (p + 4)
      have masked := mask4_le (fdt.wordAt mem (p + 4) + 3)
      exact ⟨inside, by dsimp only; omega, by dsimp only; omega, fun shallow => by dsimp only at shallow ⊢; omega⟩
  | nop p d inside token =>
      exact ⟨inside, by dsimp only; omega, by dsimp only; omega, fun shallow => by dsimp only at shallow ⊢; omega⟩

theorem round_of_moves (iter later : NodeIter) (going : iter.offset ≠ 0) (shallow : iter.depth ≤ iter.offset)
    (enough : fdt.header.totalsize < fuel) (moves : fdt.Moves mem iter later) :
    (fdt.nextRound fdt.structStop iter fuel mem).1 = .value (fdt.roundTo mem iter later) := by
  have limits := struct_stop_small sound
  have small := sound.small
  have inside := (moves_onward sound iter later moves).1
  have first : add iter.offset 4 = Pure.pure (iter.offset + 4) := if_pos (by unfold wordEnd; omega)
  unfold Fdtr.nextRound Fdtr.roundTo
  simp only [if_neg going, first, Reading.pure_bind, if_neg (Nat.not_lt.mpr inside)]
  rw [bind_value _ (read_word sound iter.offset (by omega))]
  cases moves with
  | begins p d name inside token named =>
      dsimp only at token shallow ⊢
      have short := named.inside
      have masked := mask4_le (name.length + 4)
      have padded := le_mask4 (name.length + 1)
      rw [if_pos token, bind_value _ ((struct_cstr_value_iff sound _ _ enough).mpr named), padded_name_run name (by omega), Reading.pure_bind]
      refine (checked_add_then_iff _ _ _ _).mpr ⟨by unfold wordEnd; omega, ?_⟩
      by_cases child : d = 0
      · have back : p + 4 + mask4 (name.length + 4) - 4 - mask4 (name.length + 4) = p := by omega
        rw [if_pos child, if_pos ⟨child, token⟩]
        refine (sub_then_iff _ _ _ _).mpr ⟨by omega, (sub_then_iff _ _ _ _).mpr ⟨by omega, ?_⟩⟩
        rw [back, child]
        rfl
      · rw [if_neg child, if_neg fun both => child both.1]
        exact (add_then_iff _ _ _ _).mpr ⟨by unfold wordEnd; omega, rfl⟩
  | ends p d inside token =>
      have other : fdt.wordAt mem p ≠ fdtBeginNode := by
        rw [token]
        decide
      dsimp only at token ⊢
      rw [if_neg other, if_pos token, if_neg (Nat.succ_ne_zero d), if_neg fun both => other both.2]
      exact (sub_then_iff _ _ _ _).mpr ⟨by omega, rfl⟩
  | prop p d inside token read =>
      have len := @word_at_small mem fdt (p + 4)
      have masked := mask4_le (fdt.wordAt mem (p + 4) + 3)
      have other : fdt.wordAt mem p ≠ fdtBeginNode := by
        rw [token]
        decide
      have skip : p + 4 + (8 + mask4 (fdt.wordAt mem (p + 4) + 3)) = p + 12 + mask4 (fdt.wordAt mem (p + 4) + 3) := by omega
      dsimp only at token ⊢
      rw [if_neg other, if_neg (by rw [token]; decide), if_pos token, if_neg fun both => other both.2, ← skip]
      refine (word_then_iff sound _ _ _).mpr ⟨read, ?_⟩
      refine (add_then_iff _ _ _ _).mpr ⟨by unfold wordEnd; omega, ?_⟩
      refine (add_then_iff _ _ _ _).mpr ⟨by unfold wordEnd; omega, ?_⟩
      exact (add_then_iff _ _ _ _).mpr ⟨by unfold wordEnd; omega, rfl⟩
  | nop p d inside token =>
      have other : fdt.wordAt mem p ≠ fdtBeginNode := by
        rw [token]
        decide
      dsimp only at token ⊢
      rw [if_neg other, if_neg (by rw [token]; decide), if_neg (by rw [token]; decide), if_pos token,
        if_neg fun both => other both.2]
      rfl

end

end Fdt

end Opal
