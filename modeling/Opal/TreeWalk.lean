import Opal.StructBlock

set_option autoImplicit false

namespace Opal

open Reading Relation

namespace Fdt

def NodeIter.Going (iter : NodeIter) : Prop := iter.offset ≠ 0 ∧ iter.Bounded

section
variable (fdt : Fdtr) (mem : Nat → UInt8)

-- A child's token, on the level of the children.
def Fdtr.Opening (at_ : NodeIter) : Prop := at_.depth = 0 ∧ fdt.wordAt mem at_.offset = fdtBeginNode

-- The walk gets past this node's token.
def Fdtr.Meets (iter : NodeIter) (kid : Node) : Prop :=
  ∃ at_ later, ReflTransGen (fdt.Moves mem) iter at_ ∧ fdt.Opening mem at_ ∧ fdt.Moves mem at_ later ∧ kid = ⟨at_.offset⟩

def Fdtr.Kid (node kid : Node) : Prop := ∃ p, fdt.Enters mem node p ∧ fdt.Meets mem ⟨p, 0⟩ kid

-- Within one call of next, and from one call to the next one.
def Fdtr.Quiet (a b : NodeIter) : Prop := fdt.Moves mem a b ∧ ¬ fdt.Opening mem a

def Fdtr.Leads (a b : NodeIter) : Prop := ∃ at_, ReflTransGen (fdt.Quiet mem) a at_ ∧ fdt.Opening mem at_ ∧ fdt.Moves mem at_ b

end

-- A round of exhaust.
def Fdtr.collectRound (fdt : Fdtr) : NodeIter × List Node → Reading (Round (NodeIter × List Node) (List Node)) :=
  fdt.eachRound (fun child found => return .again (found ++ [child])) id

section
variable {fuel : Nat} {mem : Nat → UInt8} {fdt : Fdtr}

theorem moves_iff_leads (a b : NodeIter) :
    ReflTransGen (fdt.Moves mem) a b ↔ ∃ mid, ReflTransGen (fdt.Leads mem) a mid ∧ ReflTransGen (fdt.Quiet mem) mid b :=
  reached_iff_marked (fdt.Opening mem) a b

theorem round_to_again_iff (a b later : NodeIter) :
    fdt.roundTo mem a b = .again later ↔ ¬ fdt.Opening mem a ∧ b = later := by
  unfold Fdtr.roundTo Fdtr.Opening
  split_ifs with opening <;> simp [opening]

theorem round_to_done_iff (a b : NodeIter) (found : Node × NodeIter) :
    fdt.roundTo mem a b = .done found ↔ fdt.Opening mem a ∧ found = (⟨a.offset⟩, b) := by
  unfold Fdtr.roundTo Fdtr.Opening
  split_ifs with opening
  · simp [opening, eq_comm]
  · exact ⟨fun no => (by cases no), fun known => absurd known.1 opening⟩

section
variable (sound : fdt.Sound)
include sound

theorem moves_going (a b : NodeIter) (going : a.Going) (moves : fdt.Moves mem a b) : b.Going := by
  obtain ⟨_, onward, near, shallow⟩ := moves_onward sound a b moves
  exact ⟨Nat.ne_of_gt (Nat.lt_of_le_of_lt (Nat.zero_le _) onward), near, shallow going.2.2⟩

theorem leads_onward (a b : NodeIter) (going : a.Going) (leads : fdt.Leads mem a b) :
    b.Going ∧ fdt.structStop - b.offset < fdt.structStop - a.offset := by
  obtain ⟨at_, quiet, _, moves⟩ := leads
  have kept : at_.Going ∧ a.offset ≤ at_.offset := by
    refine reached_inv (fun iter => iter.Going ∧ a.offset ≤ iter.offset) (fun c d holds step => ?_) a at_
      ⟨going, le_refl _⟩ quiet
    have onward := (moves_onward sound c d step.1).2.1
    exact ⟨moves_going sound c d holds.1 step.1, by omega⟩
  obtain ⟨inside, onward, _⟩ := moves_onward sound at_ b moves
  exact ⟨moves_going sound at_ b kept.1 moves, by omega⟩

section
variable (enough : fdt.header.totalsize < fuel)
include enough

theorem next_round_iff (a : NodeIter) (going : a.Going) (round : Round NodeIter (Node × NodeIter)) :
    (fdt.nextRound fdt.structStop a fuel mem).1 = .value round ↔
      ∃ later, fdt.Moves mem a later ∧ round = fdt.roundTo mem a later := by
  constructor
  · exact moves_of_round sound a round enough
  · rintro ⟨later, moves, rfl⟩
    exact round_of_moves sound a later going.1 going.2.2 enough moves

theorem again_next_iff (a b : NodeIter) (going : a.Going) :
    Again fuel mem (fdt.nextRound fdt.structStop) a b ↔ fdt.Quiet mem a b := by
  refine (next_round_iff sound enough a going _).trans ?_
  unfold Fdtr.Quiet
  constructor
  · rintro ⟨later, moves, same⟩
    obtain ⟨quiet, rfl⟩ := (round_to_again_iff a later b).mp same.symm
    exact ⟨moves, quiet⟩
  · rintro ⟨moves, quiet⟩
    exact ⟨b, moves, ((round_to_again_iff a b b).mpr ⟨quiet, rfl⟩).symm⟩

theorem reached_next_iff (a b : NodeIter) (going : a.Going) :
    ReflTransGen (Again fuel mem (fdt.nextRound fdt.structStop)) a b ↔ ReflTransGen (fdt.Quiet mem) a b :=
  reached_congr NodeIter.Going (again_next_iff sound enough) (fun a b kept quiet => moves_going sound a b kept quiet.1) a b going

theorem next_onward (a b : NodeIter) (going : a.Going) (again : Again fuel mem (fdt.nextRound fdt.structStop) a b) :
    b.Going ∧ fdt.structStop - b.offset < fdt.structStop - a.offset := by
  have quiet := (again_next_iff sound enough a b going).mp again
  obtain ⟨inside, onward, _⟩ := moves_onward sound a b quiet.1
  exact ⟨moves_going sound a b going quiet.1, by omega⟩

omit enough in
theorem struct_end_run : fdt.structEnd = Pure.pure fdt.structStop := by
  have limits := struct_stop_small sound
  exact if_pos (by unfold Fdtr.structStop at limits; unfold wordEnd; omega)

omit enough in
theorem confined_end_run : fdt.confined.structEnd = Pure.pure fdt.structStop := by
  change fdt.structEnd = _
  exact struct_end_run sound

theorem next_value_iff (iter : NodeIter) (going : iter.Going) (kid : Node) (later : NodeIter) :
    (fdt.next iter fuel mem).1 = .value (kid, later) ↔
      ∃ at_, ReflTransGen (fdt.Quiet mem) iter at_ ∧ fdt.Opening mem at_ ∧ fdt.Moves mem at_ later ∧ kid = ⟨at_.offset⟩ := by
  have limits := struct_stop_small sound
  unfold Fdtr.next
  rw [struct_end_run sound, Reading.pure_bind]
  refine (loop_value_iff NodeIter.Going (fun at_ => fdt.structStop - at_.offset) (next_onward sound enough) iter going
    (by omega) (kid, later)).trans ?_
  refine exists_congr fun at_ => ?_
  rw [reached_next_iff sound enough iter at_ going]
  refine and_congr_right fun quiet => ?_
  have kept := reached_inv NodeIter.Going (fun a b holds step => moves_going sound a b holds step.1) iter at_ going quiet
  rw [next_round_iff sound enough at_ kept]
  constructor
  · rintro ⟨next, moves, same⟩
    obtain ⟨opening, found⟩ := (round_to_done_iff at_ next _).mp same.symm
    obtain ⟨rfl, rfl⟩ := Prod.mk.inj found
    exact ⟨opening, moves, rfl⟩
  · rintro ⟨opening, moves, rfl⟩
    exact ⟨later, moves, ((round_to_done_iff at_ later _).mpr ⟨opening, rfl⟩).symm⟩

theorem trims_next (iter : NodeIter) (going : iter.Going) :
    Trims never fuel mem (fdt.confined.next iter) (fdt.next iter)
      (∀ at_, ReflTransGen (fdt.Quiet mem) iter at_ → fdt.TokenEnds mem at_.offset) := by
  have limits := struct_stop_small sound
  unfold Fdtr.next
  rw [confined_end_run sound, struct_end_run sound, Reading.pure_bind, Reading.pure_bind]
  refine (trims_loop NodeIter.Going (fun at_ => fdt.structStop - at_.offset)
    (fun at_ kept => .inl (trims_next_round sound at_ kept.1 enough)) (next_onward sound enough) iter going (by omega)).iff ?_
  simp only [reached_next_iff sound enough iter _ going]

theorem next_leads_iff (a b : NodeIter) (going : a.Going) :
    (∃ kid, (fdt.next a fuel mem).1 = .value (kid, b)) ↔ fdt.Leads mem a b := by
  simp only [next_value_iff sound enough a going]
  constructor
  · rintro ⟨kid, at_, quiet, opening, moves, _⟩
    exact ⟨at_, quiet, opening, moves⟩
  · rintro ⟨at_, quiet, opening, moves⟩
    exact ⟨_, at_, quiet, opening, moves, rfl⟩

-- The walk that collects the children goes from one to the next.
omit sound enough in
theorem collect_again_iff (iter after : NodeIter) (found more : List Node) :
    Again fuel mem fdt.collectRound (iter, found) (after, more) ↔
      ∃ kid, (fdt.next iter fuel mem).1 = .value (kid, after) ∧ more = found ++ [kid] := by
  unfold Again Fdtr.collectRound Fdtr.eachRound
  rw [bind_value_iff]
  constructor
  · rintro ⟨_ | ⟨kid, at_⟩, tried, value⟩
    · cases value
    · cases value
      exact ⟨kid, (attempt_value_iff _ _).mp tried, rfl⟩
  · rintro ⟨kid, value, rfl⟩
    exact ⟨some (kid, after), (attempt_value_iff _ _).mpr value, rfl⟩

omit sound enough in
theorem collect_done_iff (iter : NodeIter) (found kids : List Node) :
    (fdt.collectRound (iter, found) fuel mem).1 = .value (.done kids) ↔
      (fdt.next iter fuel mem).1 = .missing ∧ kids = found := by
  unfold Fdtr.collectRound Fdtr.eachRound
  rw [bind_value_iff]
  constructor
  · rintro ⟨_ | ⟨kid, at_⟩, tried, value⟩
    · cases value
      exact ⟨(attempt_none_iff _).mp tried, rfl⟩
    · cases value
  · rintro ⟨ended, rfl⟩
    exact ⟨none, (attempt_none_iff _).mpr ended, rfl⟩

theorem collect_leads (a b : NodeIter × List Node) (going : a.1.Going) (again : Again fuel mem fdt.collectRound a b) :
    fdt.Leads mem a.1 b.1 := by
  obtain ⟨kid, value, _⟩ := (collect_again_iff a.1 b.1 a.2 b.2).mp again
  exact (next_leads_iff sound enough a.1 b.1 going).mp ⟨kid, value⟩

theorem collect_onward (a b : NodeIter × List Node) (going : a.1.Going) (again : Again fuel mem fdt.collectRound a b) :
    b.1.Going ∧ fdt.structStop - b.1.offset < fdt.structStop - a.1.offset :=
  leads_onward sound a.1 b.1 going (collect_leads sound enough a b going again)

theorem reached_collect_iff (a b : NodeIter) (found : List Node) (going : a.Going) :
    (∃ more, ReflTransGen (Again fuel mem fdt.collectRound) (a, found) (b, more)) ↔ ReflTransGen (fdt.Leads mem) a b := by
  constructor
  · rintro ⟨more, walk⟩
    have both : ∀ at_, ReflTransGen (Again fuel mem fdt.collectRound) (a, found) at_ →
        at_.1.Going ∧ ReflTransGen (fdt.Leads mem) a at_.1 := by
      intro at_ walk
      induction walk with
      | refl => exact ⟨going, .refl⟩
      | tail _ next ih =>
          exact ⟨(collect_onward sound enough _ _ ih.1 next).1, ih.2.tail (collect_leads sound enough _ _ ih.1 next)⟩
    exact (both _ walk).2
  · intro walk
    suffices both : b.Going ∧ ∃ more, ReflTransGen (Again fuel mem fdt.collectRound) (a, found) (b, more) from both.2
    induction walk with
    | refl => exact ⟨going, found, .refl⟩
    | @tail mid after _ leads ih =>
        obtain ⟨kept, more, walk⟩ := ih
        obtain ⟨kid, value⟩ := (next_leads_iff sound enough mid after kept).mpr leads
        exact ⟨(leads_onward sound mid after kept leads).1, _,
          walk.tail ((collect_again_iff mid after more _).mpr ⟨kid, value, rfl⟩)⟩

theorem trims_exhaust (iter : NodeIter) (going : iter.Going) :
    Trims (fun _ => True) fuel mem (fdt.confined.exhaust iter) (fdt.exhaust iter)
      (∀ at_, ReflTransGen (fdt.Moves mem) iter at_ → fdt.TokenEnds mem at_.offset) := by
  have limits := struct_stop_small sound
  have each : ∀ at_ : NodeIter × List Node, at_.1.Going → Trims (Round.Ends fun _ => True) fuel mem (fdt.confined.collectRound at_)
      (fdt.collectRound at_) (∀ j, ReflTransGen (fdt.Quiet mem) at_.1 j → fdt.TokenEnds mem j.offset) := by
    intro at_ kept
    refine (trims_bind (trims_attempt (trims_next sound enough at_.1 kept)) (fun found none_ => ?_)
      fun _ found _ => trims_refl _).iff ⟨And.left, fun ends => ⟨ends, fun _ _ => trivial⟩⟩
    subst none_
    refine ⟨rfl, fun round value => ?_⟩
    cases value
    trivial
  refine (trims_loop (fun at_ : NodeIter × List Node => at_.1.Going) (fun at_ => fdt.structStop - at_.1.offset)
    (fun at_ kept => .inl (each at_ kept))
    (collect_onward sound enough) (iter, []) going (by dsimp only; omega)).iff ?_
  constructor
  · intro all at_ walk
    obtain ⟨mid, leads, quiet⟩ := (moves_iff_leads iter at_).mp walk
    obtain ⟨more, reached⟩ := (reached_collect_iff sound enough iter mid [] going).mpr leads
    exact all (mid, more) reached at_ quiet
  · rintro all ⟨mid, more⟩ reached at_ quiet
    have leads := (reached_collect_iff sound enough iter mid [] going).mp ⟨more, reached⟩
    exact all at_ ((moves_iff_leads iter at_).mpr ⟨mid, leads, quiet⟩)

theorem meets_iff (iter : NodeIter) (going : iter.Going) (kid : Node) :
    fdt.Meets mem iter kid ↔
      ∃ mid later, ReflTransGen (fdt.Leads mem) iter mid ∧ (fdt.next mid fuel mem).1 = .value (kid, later) := by
  have kept : ∀ mid, ReflTransGen (fdt.Leads mem) iter mid → mid.Going := fun mid =>
    reached_inv NodeIter.Going (fun a b holds leads => (leads_onward sound a b holds leads).1) iter mid going
  constructor
  · rintro ⟨at_, later, walk, opening, moves, rfl⟩
    obtain ⟨mid, leads, quiet⟩ := (moves_iff_leads iter at_).mp walk
    exact ⟨mid, later, leads, (next_value_iff sound enough mid (kept mid leads) _ _).mpr ⟨at_, quiet, opening, moves, rfl⟩⟩
  · rintro ⟨mid, later, leads, value⟩
    obtain ⟨at_, quiet, opening, moves, rfl⟩ := (next_value_iff sound enough mid (kept mid leads) _ _).mp value
    exact ⟨at_, later, (moves_iff_leads iter at_).mpr ⟨mid, leads, quiet⟩, opening, moves, rfl⟩

theorem meets_next (iter after : NodeIter) (going : iter.Going) (child kid : Node)
    (value : (fdt.next iter fuel mem).1 = .value (child, after)) :
    fdt.Meets mem iter kid ↔ kid = child ∨ fdt.Meets mem after kid := by
  have leads := (next_leads_iff sound enough iter after going).mp ⟨child, value⟩
  rw [meets_iff sound enough iter going, meets_iff sound enough after (leads_onward sound iter after going leads).1]
  constructor
  · rintro ⟨mid, later, walk, found⟩
    rcases walk.cases_head with rfl | ⟨first, step, rest⟩
    · rw [value] at found
      cases found
      exact .inl rfl
    · obtain ⟨other, same⟩ := (next_leads_iff sound enough iter first going).mpr step
      rw [value] at same
      cases same
      exact .inr ⟨mid, later, rest, found⟩
  · rintro (rfl | ⟨mid, later, rest, found⟩)
    · exact ⟨iter, after, .refl, value⟩
    · exact ⟨mid, later, .head leads rest, found⟩

theorem meets_none (iter : NodeIter) (going : iter.Going) (kid : Node) (ended : (fdt.next iter fuel mem).1 = .missing) :
    ¬ fdt.Meets mem iter kid := by
  rw [meets_iff sound enough iter going]
  rintro ⟨mid, later, walk, found⟩
  rcases walk.cases_head with rfl | ⟨first, step, _⟩
  · rw [ended] at found
    cases found
  · obtain ⟨other, value⟩ := (next_leads_iff sound enough iter first going).mpr step
    rw [ended] at value
    cases value

-- exhaust lists the nodes that the walk meets, whatever the blob holds.
theorem exhaust_value (iter : NodeIter) (going : iter.Going) :
    ∃ kids, (fdt.exhaust iter fuel mem).1 = .value kids ∧ ∀ kid, kid ∈ kids ↔ fdt.Meets mem iter kid := by
  have limits := struct_stop_small sound
  have ends : ∀ room : Nat, ∀ (iter : NodeIter) (found : List Node), iter.Going → fdt.structStop - iter.offset < room →
      ∃ after kids, ReflTransGen (Again fuel mem fdt.collectRound) (iter, found) (after, kids) ∧
        (fdt.next after fuel mem).1 = .missing ∧ ∀ kid, kid ∈ kids ↔ kid ∈ found ∨ fdt.Meets mem iter kid := by
    intro room
    induction room with
    | zero => exact fun iter _ _ no => absurd no (Nat.not_lt_zero _)
    | succ room ih =>
        intro iter found going near
        have safe := @safe_next fuel mem fdt _ _ sound.fair iter going.2 (fun _ => onward_self _) enough
        cases result : (fdt.next iter fuel mem).1 with
        | value pair =>
            obtain ⟨child, later⟩ := pair
            have leads := (next_leads_iff sound enough iter later going).mp ⟨child, result⟩
            obtain ⟨kept, less⟩ := leads_onward sound iter later going leads
            obtain ⟨after, kids, walk, ended, lists⟩ := ih later (found ++ [child]) kept (by omega)
            refine ⟨after, kids, .head ((collect_again_iff iter later found _).mpr ⟨child, result, rfl⟩) walk, ended, ?_⟩
            intro kid
            rw [lists kid, meets_next sound enough iter later going child kid result, List.mem_append, List.mem_singleton, or_assoc]
        | missing =>
            refine ⟨iter, found, .refl, result, fun kid => ?_⟩
            simp [meets_none sound enough iter going kid result]
        | fault why =>
            have fine := safe.2
            rw [result] at fine
            exact fine.elim
  obtain ⟨after, kids, walk, ended, lists⟩ := ends _ iter [] going (Nat.lt_succ_self _)
  refine ⟨kids, ?_, by simpa using lists⟩
  refine (loop_value_iff (fun at_ : NodeIter × List Node => at_.1.Going) (fun at_ => fdt.structStop - at_.1.offset)
    (collect_onward sound enough) (iter, []) going (by dsimp only; omega) kids).mpr ?_
  exact ⟨(after, kids), walk, (collect_done_iff after kids kids).mpr ⟨ended, rfl⟩⟩

-- The calls on one node.
section
variable (node : Node) (holds : fdt.Holds node)
include holds

omit enough holds in
theorem name_behind (name : List UInt8) (named : fdt.Named mem (node.offset + 4) name) :
    name.length < 2 ^ 32 ∧ node.offset + 4 + mask4 (name.length + 4) < wordEnd := by
  have small := sound.small
  have masked := mask4_le (name.length + 4)
  have short := named.inside
  exact ⟨by omega, by unfold wordEnd; omega⟩

omit enough in
theorem name_starts : add node.offset 4 = Pure.pure (node.offset + 4) := by
  have small := sound.small
  unfold Fdtr.Holds at holds
  exact if_pos (by unfold wordEnd; omega)

omit holds enough in
theorem again_first_child_iff (a b : Nat) :
    Again fuel mem (fdt.firstChildRound fdt.structStop) a b ↔ fdt.Passes mem fdt.Measured a b := by
  refine (first_child_round_iff sound a _).trans ⟨?_, fun passes => .inl ⟨b, passes, rfl⟩⟩
  rintro (⟨_, passes, same⟩ | ⟨_, _, no⟩)
  · cases same
    exact passes
  · cases no

omit holds enough in
theorem reached_first_child_iff (a b : Nat) :
    ReflTransGen (Again fuel mem (fdt.firstChildRound fdt.structStop)) a b ↔ ReflTransGen (fdt.Passes mem fdt.Measured) a b :=
  reached_congr (fun _ => True) (fun a b _ => again_first_child_iff sound a b) (fun _ _ _ _ => trivial) a b trivial

omit holds sound enough in
theorem passes_onward (reads : Nat → Prop) (a b : Nat) (passes : fdt.Passes mem reads a b) :
    fdt.structStop - b < fdt.structStop - a := by
  cases passes with
  | prop inside _ _ => omega
  | nop inside _ => omega

omit holds enough in
theorem first_child_onward (a b : Nat) (_ : True) (again : Again fuel mem (fdt.firstChildRound fdt.structStop) a b) :
    True ∧ fdt.structStop - b < fdt.structStop - a :=
  ⟨trivial, passes_onward _ a b ((again_first_child_iff sound a b).mp again)⟩

theorem first_child_value_iff (p : Nat) : (fdt.firstChildOffset node fuel mem).1 = .value p ↔ fdt.Enters mem node p := by
  have limits := struct_stop_small sound
  have runs : ∀ name, fdt.Named mem (node.offset + 4) name →
      (((Fdtr.paddedName name >>= fun namePadded => checkedAdd (node.offset + 4) namePadded >>= fun off =>
        fdt.structEnd >>= fun structEnd => loop (fdt.firstChildRound structEnd) off : Reading Nat) fuel mem).1 = .value p ↔
          ReflTransGen (fdt.Passes mem fdt.Measured) (node.offset + 4 + mask4 (name.length + 4)) p ∧
            p + 4 ≤ fdt.structStop ∧ fdt.wordAt mem p = fdtBeginNode) := by
    intro name named
    obtain ⟨short, near⟩ := name_behind sound node name named
    rw [padded_name_run name short, Reading.pure_bind, checked_add_then_iff, struct_end_run sound, Reading.pure_bind]
    rw [loop_value_iff (fun _ => True) (fun off => fdt.structStop - off) (first_child_onward sound) _ trivial (by omega)]
    simp only [reached_first_child_iff sound, first_child_round_iff sound]
    constructor
    · rintro ⟨_, later, walk, ⟨_, _, no⟩ | ⟨inside, token, same⟩⟩
      · cases no
      · cases same
        exact ⟨walk, inside, token⟩
    · rintro ⟨walk, inside, token⟩
      exact ⟨near, p, walk, .inr ⟨inside, token, rfl⟩⟩
  unfold Fdtr.firstChildOffset
  rw [name_starts sound node holds, Reading.pure_bind, bind_value_iff]
  constructor
  · rintro ⟨name, found, value⟩
    have named := (struct_cstr_value_iff sound _ _ enough).mp found
    obtain ⟨walk, inside, token⟩ := (runs name named).mp value
    exact ⟨⟨name, named, walk⟩, inside, token⟩
  · rintro ⟨⟨name, named, walk⟩, inside, token⟩
    exact ⟨name, (struct_cstr_value_iff sound _ _ enough).mpr named, (runs name named).mpr ⟨walk, inside, token⟩⟩

theorem trims_first_child :
    Trims never fuel mem (fdt.confined.firstChildOffset node) (fdt.firstChildOffset node)
      (fdt.NameEnds mem (node.offset + 4) ∧ ∀ p, fdt.Lists mem fdt.Measured node p → fdt.LengthEnds mem p) := by
  have limits := struct_stop_small sound
  unfold Fdtr.firstChildOffset
  rw [name_starts sound node holds, Reading.pure_bind, Reading.pure_bind]
  refine (trims_then (trims_struct_cstr sound _ enough) fun _ name found => (?_ : Trims never fuel mem _ _
    (∀ p, ReflTransGen (fdt.Passes mem fdt.Measured) (node.offset + 4 + mask4 (name.length + 4)) p →
      fdt.LengthEnds mem p))).iff ?_
  · have named := (struct_cstr_value_iff sound _ _ enough).mp found
    obtain ⟨short, near⟩ := name_behind sound node name named
    have moved : checkedAdd (node.offset + 4) (mask4 (name.length + 4)) =
        Pure.pure (node.offset + 4 + mask4 (name.length + 4)) := if_pos near
    rw [padded_name_run name short, Reading.pure_bind, Reading.pure_bind, moved, Reading.pure_bind, Reading.pure_bind,
      confined_end_run sound,      struct_end_run sound, Reading.pure_bind, Reading.pure_bind]
    refine (trims_loop (fun _ => True) (fun off => fdt.structStop - off) (fun p _ => .inl (trims_first_child_round sound p))
      (first_child_onward sound) _ trivial (by omega)).iff ?_
    simp only [reached_first_child_iff sound]
  · refine and_congr_right fun _ => ?_
    simp only [struct_cstr_value_iff sound _ _ enough]
    exact ⟨fun all p ⟨name, named, walk⟩ => all name named p walk, fun all name named p walk => all p ⟨name, named, walk⟩⟩

omit sound holds enough in
theorem lists_above (reads : Nat → Prop) (p : Nat) (lists : fdt.Lists mem reads node p) : node.offset + 4 ≤ p := by
  obtain ⟨name, _, walk⟩ := lists
  refine reached_inv (fun at_ => node.offset + 4 ≤ at_) (fun a b above passes => ?_) _ p (Nat.le_add_right _ _) walk
  have onward := passes_onward reads a b passes
  omega

omit holds enough in
theorem enters_going (p : Nat) (enters : fdt.Enters mem node p) : (⟨p, 0⟩ : NodeIter).Going := by
  have limits := struct_stop_small sound
  have inside := enters.inside
  have above := lists_above node fdt.Measured p enters.lists
  exact ⟨by dsimp only; omega, by dsimp only; omega, Nat.zero_le _⟩

theorem children_value_iff (iter : NodeIter) :
    (fdt.children node fuel mem).1 = .value iter ↔
      (∃ p, fdt.Enters mem node p ∧ iter = ⟨p, 0⟩) ∨ (¬ ∃ p, fdt.Enters mem node p) ∧ iter = ⟨0, 0⟩ := by
  have safe := @safe_first_child_offset fuel mem fdt _ _ sound.fair node holds (onward_self _) enough
  unfold Fdtr.children
  simp only [bind_value_iff, ← first_child_value_iff sound enough node holds]
  constructor
  · rintro ⟨_ | p, tried, value⟩
    · cases value
      refine .inr ⟨?_, rfl⟩
      rintro ⟨p, found⟩
      rw [(attempt_none_iff _).mp tried] at found
      cases found
    · cases value
      exact .inl ⟨p, (attempt_value_iff _ _).mp tried, rfl⟩
  · rintro (⟨p, found, rfl⟩ | ⟨none_, rfl⟩)
    · exact ⟨some p, (attempt_value_iff _ _).mpr found, rfl⟩
    · refine ⟨none, (attempt_none_iff _).mpr ?_, rfl⟩
      cases result : (fdt.firstChildOffset node fuel mem).1 with
      | value p => exact absurd ⟨p, result⟩ none_
      | missing => rfl
      | fault why =>
          have fine := safe.2
          rw [result] at fine
          exact fine.elim

omit sound holds enough in
theorem next_ended (other : Fdtr) (stop : Nat) (ends : other.structEnd = Pure.pure stop) (some_ : 0 < fuel) (iter : NodeIter)
    (ended : iter.offset = 0) : other.next iter fuel mem = (.missing, []) := by
  obtain ⟨left, rfl⟩ := Nat.exists_eq_succ_of_ne_zero (Nat.ne_of_gt some_)
  have round : other.nextRound stop iter = missing := if_pos ended
  unfold Fdtr.next
  rw [ends, Reading.pure_bind]
  change Reading.bind (other.nextRound stop iter) _ (left + 1) mem = _
  rw [round]
  rfl

omit sound holds enough in
theorem exhaust_nothing (other : Fdtr) (stop : Nat) (ends : other.structEnd = Pure.pure stop) (some_ : 0 < fuel) :
    other.exhaust ⟨0, 0⟩ fuel mem = (.value [], []) := by
  have nothing := @next_ended fuel mem other stop ends some_ ⟨0, 0⟩ rfl
  obtain ⟨left, rfl⟩ := Nat.exists_eq_succ_of_ne_zero (Nat.ne_of_gt some_)
  have tried : attempt (other.next ⟨0, 0⟩) (left + 1) mem = (.value none, []) := by
    unfold attempt
    rw [nothing]
  have round : other.collectRound (⟨0, 0⟩, []) (left + 1) mem = (.value (.done []), []) := by
    change Reading.bind (attempt (other.next ⟨0, 0⟩)) _ (left + 1) mem = _
    unfold Reading.bind
    rw [tried]
    rfl
  change Reading.bind (other.collectRound (⟨0, 0⟩, [])) _ (left + 1) mem = _
  unfold Reading.bind
  rw [round]
  rfl

theorem trims_children :
    Trims (fun iter => iter = ⟨0, 0⟩) fuel mem (fdt.confined.children node) (fdt.children node)
      (fdt.NameEnds mem (node.offset + 4) ∧ ∀ p, fdt.Lists mem fdt.Measured node p → fdt.LengthEnds mem p) := by
  refine (trims_bind (trims_attempt (trims_first_child sound enough node holds)) (fun offset none_ => ?_)
    fun _ offset _ => trims_refl _).iff ⟨And.left, fun ends => ⟨ends, fun _ _ => trivial⟩⟩
  subst none_
  exact ⟨rfl, fun iter value => (Result.value.inj value).symm⟩

theorem trims_kids :
    Trims (fun _ => True) fuel mem (fdt.confined.children node >>= fdt.confined.exhaust) (fdt.children node >>= fdt.exhaust)
      ((fdt.NameEnds mem (node.offset + 4) ∧ ∀ p, fdt.Lists mem fdt.Measured node p → fdt.LengthEnds mem p) ∧
        ∀ iter, fdt.Tours mem node iter → fdt.TokenEnds mem iter.offset) := by
  have some_ : 0 < fuel := Nat.lt_of_le_of_lt (Nat.zero_le _) enough
  have short := @exhaust_nothing fuel mem fdt.confined fdt.structStop (confined_end_run sound) some_
  have long := @exhaust_nothing fuel mem fdt fdt.structStop (struct_end_run sound) some_
  refine (trims_bind (trims_children sound enough node holds) (fun iter none_ => ?_) fun _ iter value =>
    (?_ : Trims _ fuel mem _ _ (∀ p, fdt.Enters mem node p → iter = ⟨p, 0⟩ →
      ∀ at_, ReflTransGen (fdt.Moves mem) iter at_ → fdt.TokenEnds mem at_.offset))).iff ?_
  · subst none_
    rw [short]
    exact ⟨rfl, fun _ _ => trivial⟩
  · rcases (children_value_iff sound enough node holds iter).mp value with ⟨p, enters, rfl⟩ | ⟨none_, rfl⟩
    · refine (trims_exhaust sound enough _ (enters_going sound node p enters)).iff ⟨fun all _ _ _ => all, fun all => ?_⟩
      exact all p enters rfl
    · refine ⟨fun _ => by rw [short, long], fun no => absurd (fun p enters => absurd ⟨p, enters⟩ none_) no⟩
  · refine and_congr_right fun _ => ⟨fun all iter ⟨p, enters, walk⟩ => ?_, fun all iter _ p enters same at_ walk => ?_⟩
    · exact all _ ((children_value_iff sound enough node holds _).mpr (.inl ⟨p, enters, rfl⟩)) p enters rfl iter walk
    · subst same
      exact all at_ ⟨p, enters, walk⟩

theorem kids_value :
    ∃ kids, ((fdt.children node >>= fdt.exhaust) fuel mem).1 = .value kids ∧ ∀ kid, kid ∈ kids ↔ fdt.Kid mem node kid := by
  by_cases some_ : ∃ p, fdt.Enters mem node p
  · obtain ⟨p, enters⟩ := some_
    obtain ⟨kids, value, lists⟩ := exhaust_value sound enough _ (enters_going sound node p enters)
    have first := (children_value_iff sound enough node holds _).mpr (.inl ⟨p, enters, rfl⟩)
    refine ⟨kids, (bind_value_iff _ _ _).mpr ⟨_, first, value⟩, fun kid => (lists kid).trans ?_⟩
    refine ⟨fun meets => ⟨p, enters, meets⟩, ?_⟩
    rintro ⟨q, other, meets⟩
    have found := (first_child_value_iff sound enough node holds p).mpr enters
    rw [(first_child_value_iff sound enough node holds q).mpr other] at found
    cases found
    exact meets
  · have first := (children_value_iff sound enough node holds _).mpr (.inr ⟨some_, rfl⟩)
    have nothing := @exhaust_nothing fuel mem fdt fdt.structStop (struct_end_run sound)
      (Nat.lt_of_le_of_lt (Nat.zero_le _) enough)
    refine ⟨[], (bind_value_iff _ _ _).mpr ⟨_, first, by rw [nothing]⟩, fun kid => ⟨fun no => absurd no List.not_mem_nil, ?_⟩⟩
    rintro ⟨p, enters, _⟩
    exact absurd ⟨p, enters⟩ some_

omit holds in
theorem prop_onward (name : List UInt8) (a b : Nat) (_ : True)
    (again : Again fuel mem (fdt.propRound name fdt.structStop) a b) : True ∧ fdt.structStop - b < fdt.structStop - a :=
  ⟨trivial, passes_onward _ a b ((prop_again_iff sound name enough a b).mp again)⟩

omit holds in
theorem reached_prop_iff (name : List UInt8) (a b : Nat) :
    ReflTransGen (Again fuel mem (fdt.propRound name fdt.structStop)) a b ↔
      ReflTransGen (fdt.Passes mem (fdt.Past mem name)) a b :=
  reached_congr (fun _ => True) (fun a b _ => prop_again_iff sound name enough a b) (fun _ _ _ _ => trivial) a b trivial

theorem trims_prop (name : List UInt8) :
    Trims never fuel mem (fdt.confined.prop node name) (fdt.prop node name)
      (fdt.NameEnds mem (node.offset + 4) ∧ ∀ p, fdt.Lists mem (fdt.Past mem name) node p → fdt.PropEnds mem name p) := by
  have limits := struct_stop_small sound
  unfold Fdtr.prop
  rw [name_starts sound node holds, Reading.pure_bind, Reading.pure_bind]
  refine (trims_then (trims_struct_cstr sound _ enough) fun _ nodeName found => (?_ : Trims never fuel mem _ _
    (∀ p, ReflTransGen (fdt.Passes mem (fdt.Past mem name)) (node.offset + 4 + mask4 (nodeName.length + 4)) p →
      fdt.PropEnds mem name p))).iff ?_
  · obtain ⟨short, near⟩ := name_behind sound node nodeName ((struct_cstr_value_iff sound _ _ enough).mp found)
    have moved : add (node.offset + 4) (mask4 (nodeName.length + 4)) =
        Pure.pure (node.offset + 4 + mask4 (nodeName.length + 4)) := if_pos near
    rw [padded_name_run nodeName short, Reading.pure_bind, Reading.pure_bind, moved, Reading.pure_bind, Reading.pure_bind,
      confined_end_run sound, struct_end_run sound, Reading.pure_bind, Reading.pure_bind]
    refine (trims_loop (fun _ => True) (fun off => fdt.structStop - off) (fun p _ => trims_prop_round sound name p enough)
      (prop_onward sound enough name) _ trivial (by omega)).iff ?_
    simp only [reached_prop_iff sound enough]
  · refine and_congr_right fun _ => ?_
    simp only [struct_cstr_value_iff sound _ _ enough]
    exact ⟨fun all p ⟨nodeName, named, walk⟩ => all nodeName named p walk,
      fun all nodeName named p walk => all p ⟨nodeName, named, walk⟩⟩

-- Over all names prop comes to every property that it can read.
theorem props_same_iff :
    (∀ name, fdt.confined.prop node name fuel mem = fdt.prop node name fuel mem) ↔
      fdt.NameEnds mem (node.offset + 4) ∧ ∀ name p, fdt.Lists mem (fdt.Past mem name) node p → fdt.PropEnds mem name p := by
  have each := fun name => (@trims_prop fuel mem fdt sound enough node holds name).same_iff
  refine ⟨fun all => ⟨((each []).mp (all [])).1, fun name => ((each name).mp (all name)).2⟩, fun ends name => ?_⟩
  exact (each name).mpr ⟨ends.1, ends.2 name⟩

theorem prop_slice (name data : List UInt8) (value : (fdt.prop node name fuel mem).1 = .value data) :
    ∃ p, fdt.Lists mem (fdt.Past mem name) node p ∧ p + 4 ≤ fdt.structStop ∧ fdt.wordAt mem p = fdtProp ∧
      fdt.Legible mem p ∧ fdt.Labelled mem (fdt.wordAt mem (p + 8)) name ∧
        data = (addresses (fdt.base + (p + 12)) (fdt.wordAt mem (p + 4))).map mem ∧
          eachByte (fdt.base + (p + 12)) (fdt.wordAt mem (p + 4)) <:+ (fdt.prop node name fuel mem).2 := by
  have limits := struct_stop_small sound
  unfold Fdtr.prop at value ⊢
  rw [name_starts sound node holds, Reading.pure_bind] at value ⊢
  obtain ⟨nodeName, found, value⟩ := (bind_value_iff _ _ _).mp value
  have named := (struct_cstr_value_iff sound _ _ enough).mp found
  obtain ⟨short, near⟩ := name_behind sound node nodeName named
  have moved : add (node.offset + 4) (mask4 (nodeName.length + 4)) =
      Pure.pure (node.offset + 4 + mask4 (nodeName.length + 4)) := if_pos near
  rw [padded_name_run nodeName short, Reading.pure_bind, moved, Reading.pure_bind, struct_end_run sound, Reading.pure_bind] at value
  obtain ⟨p, walk, done, last⟩ := rounds_last fuel _ data value
  have lists : fdt.Lists mem (fdt.Past mem name) node p := ⟨nodeName, named, (reached_prop_iff sound enough name _ p).mp walk⟩
  rcases prop_round_value sound name enough p _ done with ⟨_, _, no⟩ | ⟨inside, token, legible, labelled, same⟩
  · cases no
  · cases same
    refine ⟨p, lists, inside, token, legible, labelled, rfl, bind_last found ?_⟩
    rw [padded_name_run nodeName short, Reading.pure_bind, moved, Reading.pure_bind, struct_end_run sound, Reading.pure_bind]
    exact (prop_round_last sound name enough p inside token legible labelled).trans last

end

end

end

end

end Fdt

end Opal
