import Opal.TreeWalk

set_option autoImplicit false

namespace Opal

open Reading Relation

namespace Fdt

-- The nodes that the bytes of the blob give, from the root down.
inductive Fdtr.Stands (fdt : Fdtr) (mem : Nat → UInt8) : Node → Prop where
  | root (inside : fdt.header.offDtStruct + 4 ≤ fdt.header.totalsize)
      (token : fdt.wordAt mem fdt.header.offDtStruct = fdtBeginNode) : Fdtr.Stands fdt mem ⟨fdt.header.offDtStruct⟩
  | kid (node kid : Node) (parent : Fdtr.Stands fdt mem node) (kin : fdt.Kid mem node kid) : Fdtr.Stands fdt mem kid

-- Where a loop over the node's children can stand.
def Fdtr.Walks (fdt : Fdtr) (mem : Nat → UInt8) (node : Node) (iter : NodeIter) : Prop :=
  iter.offset = 0 ∨ fdt.Tours mem node iter

-- The other parser's calls on these nodes run as fdt's do.
structure Fdtr.Alike (other fdt : Fdtr) (fuel : Nat) (mem : Nat → UInt8) : Prop where
  root : other.root fuel mem = fdt.root fuel mem
  fullName : ∀ node, fdt.Stands mem node → other.fullName node fuel mem = fdt.fullName node fuel mem
  prop : ∀ node name, fdt.Stands mem node → other.prop node name fuel mem = fdt.prop node name fuel mem
  children : ∀ node, fdt.Stands mem node → other.children node fuel mem = fdt.children node fuel mem
  next : ∀ node iter, fdt.Stands mem node → fdt.Walks mem node iter → other.next iter fuel mem = fdt.next iter fuel mem

theorem alike_self (fdt : Fdtr) (fuel : Nat) (mem : Nat → UInt8) : fdt.Alike fdt fuel mem where
  root := rfl
  fullName _ _ := rfl
  prop _ _ _ := rfl
  children _ _ := rfl
  next _ _ _ _ := rfl

section
variable {fuel : Nat} {mem : Nat → UInt8} {fdt : Fdtr} (sound : fdt.Sound)
include sound

theorem kid_holds (node kid : Node) (kin : fdt.Kid mem node kid) : kid.offset + 4 ≤ fdt.structStop ∧ node.offset < kid.offset := by
  obtain ⟨p, enters, at_, later, walk, _, moves, rfl⟩ := kin
  have above := lists_above node fdt.Measured p enters.lists
  have past : p ≤ at_.offset := by
    refine reached_inv (fun iter => p ≤ iter.offset) (fun a b past step => ?_) ⟨p, 0⟩ at_ (le_refl _) walk
    have onward := (moves_onward sound a b step).2.1
    omega
  exact ⟨(moves_onward sound at_ later moves).1, by dsimp only; omega⟩

theorem stands_holds (node : Node) (stands : fdt.Stands mem node) : fdt.Holds node := by
  cases stands with
  | root inside _ => exact inside
  | kid parent _ _ kin => exact holds_of_child sound.fair node (kid_holds sound parent node kin).1

theorem tours_going (node : Node) (iter : NodeIter) (tours : fdt.Tours mem node iter) : iter.Going := by
  obtain ⟨p, enters, walk⟩ := tours
  exact reached_inv NodeIter.Going (moves_going sound) _ iter (enters_going sound node p enters) walk

theorem root_value_iff (node : Node) :
    (fdt.root fuel mem).1 = .value node ↔
      fdt.header.offDtStruct + 4 ≤ fdt.header.totalsize ∧ fdt.wordAt mem fdt.header.offDtStruct = fdtBeginNode ∧
        node = ⟨fdt.header.offDtStruct⟩ := by
  unfold Fdtr.root
  rw [word_then_iff sound]
  refine and_congr_right fun _ => ?_
  by_cases token : fdt.wordAt mem fdt.header.offDtStruct = fdtBeginNode
  · rw [if_neg (not_not.mpr token)]
    exact ⟨fun value => ⟨token, (Result.value.inj value).symm⟩, fun known => congrArg Result.value known.2.symm⟩
  · rw [if_pos token]
    exact ⟨fun no => (by cases no), fun known => absurd known.1 token⟩

section
variable (enough : fdt.header.totalsize < fuel)
include enough

section
variable {other : Fdtr} (alike : other.Alike fdt fuel mem)
include alike

omit enough in
theorem mirrors_root : Mirrors fuel mem other.root fdt.root (fdt.Stands mem) := by
  refine ⟨alike.root, fun node value => ?_⟩
  obtain ⟨inside, token, rfl⟩ := (root_value_iff sound node).mp value
  exact .root inside token

theorem mirrors_children (node : Node) (stands : fdt.Stands mem node) :
    Mirrors fuel mem (other.children node) (fdt.children node) (fdt.Walks mem node) := by
  refine ⟨alike.children node stands, fun iter value => ?_⟩
  rcases (children_value_iff sound enough node (stands_holds sound node stands) iter).mp value with ⟨p, enters, rfl⟩ | ⟨_, rfl⟩
  · exact .inr ⟨p, enters, .refl⟩
  · exact .inl rfl

theorem mirrors_next (node : Node) (stands : fdt.Stands mem node) (iter : NodeIter) (walks : fdt.Walks mem node iter) :
    Mirrors fuel mem (other.next iter) (fdt.next iter) fun found => fdt.Kid mem node found.1 ∧ fdt.Walks mem node found.2 := by
  refine ⟨alike.next node iter stands walks, ?_⟩
  rintro ⟨kid, later⟩ value
  rcases walks with ended | tours
  · rw [next_ended fdt fdt.structStop (struct_end_run sound) (Nat.lt_of_le_of_lt (Nat.zero_le _) enough) iter ended] at value
    cases value
  · obtain ⟨at_, quiet, opening, moves, rfl⟩ := (next_value_iff sound enough iter (tours_going sound node iter tours) kid later).mp value
    obtain ⟨p, enters, walk⟩ := tours
    have reached := walk.trans (quiet.lift id fun _ _ step => step.1)
    exact ⟨⟨p, enters, at_, later, reached, opening, moves, rfl⟩, .inr ⟨p, enters, reached.tail moves⟩⟩

theorem mirrors_for_each {σ β : Type} (node : Node) (stands : fdt.Stands mem node) (body body' : Node → σ → Reading (Round σ β))
    (finish : σ → β) (post : β → Prop) (ends : ∀ state, post (finish state))
    (step : ∀ kid state, fdt.Kid mem node kid → Mirrors fuel mem (body kid state) (body' kid state) fun round =>
      match round with
      | .again _ => True
      | .done b => post b)
    (iter : NodeIter) (walks : fdt.Walks mem node iter) (start : σ) :
    Mirrors fuel mem (other.forEach body finish iter start) (fdt.forEach body' finish iter start) post := by
  refine mirrors_loop (fun at_ : NodeIter × σ => fdt.Walks mem node at_.1) ?_ (iter, start) walks
  rintro ⟨iter, state⟩ walks
  refine mirrors_bind (mirrors_attempt (mirrors_next sound enough alike node stands iter walks)) fun found known => ?_
  cases found with
  | none => exact mirrors_pure _ (ends state)
  | some pair =>
      obtain ⟨kid, later⟩ := pair
      obtain ⟨kin, behind⟩ := known (kid, later) rfl
      refine mirrors_bind (step kid state kin) fun round kept => ?_
      cases round with
      | again state => exact mirrors_pure _ behind
      | done b => exact mirrors_pure _ kept

theorem mirrors_find_child (node : Node) (stands : fdt.Stands mem node) (component : List UInt8) :
    Mirrors fuel mem (other.findChild node component) (fdt.findChild node component) fun found =>
      ∀ child, found = some child → fdt.Stands mem child := by
  refine mirrors_bind (mirrors_children sound enough alike node stands) fun iter walks => ?_
  refine mirrors_for_each sound enough alike node stands _ _ _ _ (fun _ _ no => (by cases no)) (fun kid _ kin => ?_) iter walks ()
  have child : fdt.Stands mem kid := .kid node kid stands kin
  have names : Mirrors fuel mem (other.fullName kid) (fdt.fullName kid) fun _ => True := ⟨alike.fullName kid child, ensures_all _⟩
  refine mirrors_bind names fun full _ => ?_
  refine mirrors_bind (mirrors_self _) fun hit _ => ?_
  split_ifs
  · exact mirrors_pure _ fun other same => Option.some.inj same ▸ child
  · exact mirrors_pure _ trivial

theorem mirrors_find (path : List UInt8) : Mirrors fuel mem (other.find path) (fdt.find path) (fdt.Stands mem) := by
  refine mirrors_bind (mirrors_root sound alike) fun root stands => ?_
  generalize Fdtr.components path = components
  induction components generalizing root with
  | nil => exact mirrors_pure _ stands
  | cons component rest ih =>
      rw [List.foldlM_cons, List.foldlM_cons]
      refine mirrors_bind ?_ ih
      refine mirrors_bind (mirrors_find_child sound enough alike root stands component) fun found known => ?_
      cases found with
      | none => exact mirrors_missing
      | some child => exact mirrors_pure _ (known child rfl)

omit enough sound in
theorem mirrors_compatible (node : Node) (stands : fdt.Stands mem node) :
    Mirrors fuel mem (other.compatible node) (fdt.compatible node) fun _ => True := by
  have values : Mirrors fuel mem (other.prop node Fdtr.compatibleName) (fdt.prop node Fdtr.compatibleName) fun _ => True :=
    ⟨alike.prop node _ stands, ensures_all _⟩
  exact mirrors_bind (mirrors_attempt values) fun found _ => mirrors_self _

theorem mirrors_find_by_compatible (substr : List UInt8) :
    Mirrors fuel mem (other.findByCompatible substr) (fdt.findByCompatible substr) (fdt.Stands mem) := by
  refine mirrors_bind (mirrors_root sound alike) fun root stands => ?_
  have search : Mirrors fuel mem (other.findByCompatibleIn substr root) (fdt.findByCompatibleIn substr root) fun found =>
      ∀ hit, found = some hit → fdt.Stands mem hit := by
    refine mirrors_recurse (p := fun _ found => ∀ hit, found = some hit → fdt.Stands mem hit) (fdt.Stands mem) ?_ root stands
    rintro call call' below node stands
    refine mirrors_bind (mirrors_compatible alike node stands) fun text _ => ?_
    split_ifs
    · exact mirrors_pure _ fun hit same => Option.some.inj same ▸ stands
    · refine mirrors_bind (mirrors_children sound enough alike node stands) fun iter walks => ?_
      refine mirrors_for_each sound enough alike node stands _ _ _ _ (fun _ _ no => (by cases no)) (fun kid _ kin => ?_) iter walks ()
      refine mirrors_bind (below kid (.kid node kid stands kin)) fun found known => ?_
      cases found with
      | none => exact mirrors_pure _ trivial
      | some hit => exact mirrors_pure _ known
  refine mirrors_bind search fun found known => ?_
  cases found with
  | none => exact mirrors_missing
  | some hit => exact mirrors_pure _ (known hit rfl)

end

theorem obtained_iff_stands (node : Node) : fdt.Obtains fuel mem node ↔ fdt.Stands mem node := by
  have alike := alike_self fdt fuel mem
  constructor
  · intro obtained
    induction obtained with
    | root node got => exact (mirrors_root sound alike).returns node got
    | child node kids kid _ got member stands =>
        obtain ⟨all, value, lists⟩ := @kids_value fuel mem fdt sound enough node (stands_holds sound node stands)
        rw [value] at got
        cases got
        exact .kid node kid stands ((lists kid).mp member)
    | find path node got => exact (mirrors_find sound enough alike path).returns node got
    | compatible substr node got => exact (mirrors_find_by_compatible sound enough alike substr).returns node got
  · intro stands
    induction stands with
    | root inside token => exact .root _ ((root_value_iff sound _).mpr ⟨inside, token, rfl⟩)
    | kid node kid parent kin obtained =>
        obtain ⟨kids, value, lists⟩ := @kids_value fuel mem fdt sound enough node (stands_holds sound node parent)
        exact .child node kids kid obtained value ((lists kid).mpr kin)

end

end

end Fdt

end Opal
