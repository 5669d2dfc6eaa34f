import Opal.Standing

set_option autoImplicit false

namespace Opal

open Reading Relation

namespace Fdt

section
variable (fdt : Fdtr)

-- Within the structure block, or a byte of the string block.
def Fdtr.InBlocks (read : Load) : Prop :=
  fdt.base + fdt.header.offDtStruct ≤ read.start ∧ read.start + read.width ≤ fdt.base + fdt.structStop ∨
    read.width = 1 ∧ fdt.base + fdt.header.offDtStrings ≤ read.start ∧
      read.start < fdt.base + (fdt.header.offDtStrings + fdt.header.sizeDtStrings)

-- A call that runs as the confined parser's does: what it takes from the
-- structure block ends there, and it reads nothing but property names elsewhere.
structure Fdtr.Keeps {α : Type} (fuel : Nat) (mem : Nat → UInt8) (confined call : Reading α) : Prop where
  same : confined fuel mem = call fuel mem
  reads : ∀ read ∈ (call fuel mem).2, fdt.InBlocks read

structure Fdtr.Contained (fuel : Nat) (mem : Nat → UInt8) : Prop where
  root : fdt.Keeps fuel mem fdt.confined.root fdt.root
  find : ∀ path, fdt.Keeps fuel mem (fdt.confined.find path) (fdt.find path)
  findByCompatible : ∀ substr, fdt.Keeps fuel mem (fdt.confined.findByCompatible substr) (fdt.findByCompatible substr)
  prop : ∀ node name, fdt.Obtains fuel mem node → fdt.Keeps fuel mem (fdt.confined.prop node name) (fdt.prop node name)
  children : ∀ node, fdt.Obtains fuel mem node →
    fdt.Keeps fuel mem (fdt.confined.children node >>= fdt.confined.exhaust) (fdt.children node >>= fdt.exhaust)
  -- A value that prop returns is a slice of the block, the last that it reads.
  value : ∀ node name data, fdt.Obtains fuel mem node → (fdt.prop node name fuel mem).1 = .value data →
    ∃ start len, fdt.header.offDtStruct ≤ start ∧ start + len ≤ fdt.structStop ∧
      data = (addresses (fdt.base + start) len).map mem ∧ eachByte (fdt.base + start) len <:+ (fdt.prop node name fuel mem).2
  empty : fdt.header.sizeDtStruct = 0 → (fdt.root fuel mem).1 = .missing

end

section
variable {fuel : Nat} {mem : Nat → UInt8} {fdt : Fdtr} (sound : fdt.Sound)
include sound

theorem confined_fair : fdt.confined.Fair fdt.header.totalsize where
  small := sound.small
  room := sound.room
  structEnd := le_refl _
  blob := sound.structEnd
  strings := sound.stringsEnd

theorem trims_root : Trims never fuel mem fdt.confined.root fdt.root (fdt.Ends (fdt.header.offDtStruct + 4)) := by
  unfold Fdtr.root
  exact (trims_word sound fdt.header.offDtStruct (fun _ => trivial) fun _ _ => trims_refl _).iff (iff_of_eq (and_true _))

theorem full_name_same (enough : fdt.header.totalsize < fuel) (node : Node) (holds : fdt.Holds node)
    (ends : fdt.NameEnds mem (node.offset + 4)) : fdt.confined.fullName node fuel mem = fdt.fullName node fuel mem := by
  have raw : fdt.confined.nodeNameRaw node fuel mem = fdt.nodeNameRaw node fuel mem := by
    unfold Fdtr.nodeNameRaw
    rw [name_starts sound node holds, Reading.pure_bind, Reading.pure_bind]
    exact (trims_struct_cstr sound _ enough).kept ends
  refine bind_same ?_ fun _ _ => rfl
  unfold attempt
  rw [raw]

-- Where all that begins in the block ends there, the confined parser finds the
-- same nodes.
section
variable (tokens : fdt.Ends (fdt.header.offDtStruct + 4)) (encloses : ∀ node, fdt.Stands mem node → fdt.Encloses mem node)

include encloses tokens in
theorem confined_alike (enough : fdt.header.totalsize < fuel) : fdt.confined.Alike fdt fuel mem where
  root := (trims_root sound).kept tokens
  fullName node stands := full_name_same sound enough node (stands_holds sound node stands) (encloses node stands).name
  prop node name stands :=
    (props_same_iff sound enough node (stands_holds sound node stands)).mpr
      ⟨(encloses node stands).name, (encloses node stands).values⟩ name
  children node stands :=
    (trims_children sound enough node (stands_holds sound node stands)).kept ⟨(encloses node stands).name, (encloses node stands).lengths⟩
  next node iter stands walks := by
    have some_ : 0 < fuel := Nat.lt_of_le_of_lt (Nat.zero_le _) enough
    rcases walks with ended | tours
    · rw [next_ended fdt.confined fdt.structStop (confined_end_run sound) some_ iter ended,
        next_ended fdt fdt.structStop (struct_end_run sound) some_ iter ended]
    · refine (trims_next sound enough iter (tours_going sound node iter tours)).kept fun at_ quiet => ?_
      obtain ⟨p, enters, walk⟩ := tours
      exact (encloses node stands).below at_ ⟨p, enters, walk.trans (quiet.lift id fun _ _ step => step.1)⟩

include tokens in
theorem stands_inside (node : Node) (stands : fdt.Stands mem node) :
    node.offset + 4 ≤ fdt.structStop := by
  cases stands with
  | root inside _ =>
      rcases tokens with inside | beyond
      · exact inside
      · exact absurd inside (Nat.not_le.mpr beyond)
  | kid parent _ _ kin => exact (kid_holds sound parent node kin).1

end

end

theorem ends_whole (fdt : Fdtr) (whole : fdt.structStop = fdt.header.totalsize) (stop : Nat) : fdt.Ends stop := by
  unfold Fdtr.Ends
  omega

theorem encloses_whole (fdt : Fdtr) (mem : Nat → UInt8) (whole : fdt.structStop = fdt.header.totalsize) (node : Node) :
    fdt.Encloses mem node where
  name := .inl whole
  values _ _ _ _ _ := ⟨ends_whole fdt whole _, ends_whole fdt whole _, fun _ => ends_whole fdt whole _⟩
  lengths _ _ _ _ := ends_whole fdt whole _
  below _ _ _ := ⟨fun _ => .inl whole, fun _ => ends_whole fdt whole _⟩

-- On an accepted blob the parser keeps to the structure block exactly when every
-- item that its walks come to and that begins in the block also ends there, or
-- does not end in the blob at all.
theorem contained_iff (dtbPa enough : Nat) (mem : Nat → UInt8) (fdt : Fdtr)
    (accepted : (Fdtr.new dtbPa enough mem).1 = .value fdt) (allocated : fdt.base + fdt.header.totalsize < wordEnd)
    (fuel : Nat) (rounds : fdt.header.totalsize < fuel) :
    fdt.Contained fuel mem ↔
      fdt.Ends (fdt.header.offDtStruct + 4) ∧ ∀ node, fdt.Stands mem node → fdt.Encloses mem node := by
  have sound := new_sound dtbPa fdt accepted allocated
  constructor
  · intro contained
    refine ⟨(trims_root sound).same_iff.mp contained.root.same, fun node stands => ?_⟩
    have holds := stands_holds sound node stands
    have obtained := (obtained_iff_stands sound rounds node).mpr stands
    have values := (props_same_iff sound rounds node holds).mp fun name => (contained.prop node name obtained).same
    have kids := (trims_kids sound rounds node holds).same_iff.mp (contained.children node obtained).same
    exact ⟨values.1, values.2, kids.1.2, kids.2⟩
  · rintro ⟨tokens, encloses⟩
    have alike := confined_alike sound tokens encloses rounds
    have fair := confined_fair sound
    have keeps : ∀ {α : Type} {confined call : Reading α} {post : α → Prop}, confined fuel mem = call fuel mem →
        Safe (fdt.confined.From fdt.header.offDtStruct) fuel mem confined post → fdt.Keeps fuel mem confined call :=
      fun same safe => ⟨same, fun read member => (safe.1 read (same ▸ member)).imp_left fun word => ⟨word.starts, word.ends⟩⟩
    have stands : ∀ node, fdt.Obtains fuel mem node → fdt.Stands mem node := fun node =>
      (obtained_iff_stands sound rounds node).mp
    have inside : ∀ node, fdt.Obtains fuel mem node → node.offset + 4 ≤ fdt.structStop ∧ Onward fdt.header.offDtStruct node.offset :=
      fun node obtained => ⟨stands_inside sound tokens node (stands node obtained), (obtained_lies sound rounds node obtained).2⟩
    exact
      { root := keeps alike.root (safe_root fair (onward_self _))
        find := fun path => keeps (mirrors_find sound rounds alike path).same (safe_find fair path (onward_self _) rounds)
        findByCompatible := fun substr =>
          keeps (mirrors_find_by_compatible sound rounds alike substr).same (safe_find_by_compatible fair substr (onward_self _) rounds)
        prop := fun node name obtained => keeps (alike.prop node name (stands node obtained))
          (safe_prop fair node name (inside node obtained).1 (inside node obtained).2 rounds)
        children := fun node obtained => by
          have all := encloses node (stands node obtained)
          have holds := stands_holds sound node (stands node obtained)
          exact keeps ((trims_kids sound rounds node holds).kept ⟨⟨all.name, all.lengths⟩, all.below⟩)
            (safe_exhaust fair node (inside node obtained).1 (inside node obtained).2 rounds)
        value := fun node name data obtained value => by
          have holds := stands_holds sound node (stands node obtained)
          obtain ⟨p, lists, starts, token, legible, labelled, same, last⟩ := prop_slice sound rounds node holds name data value
          have above := lists_above node _ p lists
          have low := (inside node obtained).2.1
          refine ⟨p + 12, fdt.wordAt mem (p + 4), by omega, ?_, same, last⟩
          rcases ((encloses node (stands node obtained)).values name p lists starts token).value labelled with ends | beyond
          · exact ends
          · exact absurd legible.data (Nat.not_le.mpr beyond)
        empty := fun nothing => by
          cases result : (fdt.root fuel mem).1 with
          | value node =>
              obtain ⟨starts, token, rfl⟩ := (root_value_iff sound node).mp result
              have inside := stands_inside sound tokens _ (.root starts token)
              unfold Fdtr.structStop at inside
              dsimp only at inside
              omega
          | missing => rfl
          | fault why =>
              have fine := (@safe_root fuel mem fdt _ _ sound.fair (onward_self _)).2
              rw [result] at fine
              exact fine.elim }

-- A tree of one property, with the string block before the structure block.
def lastBlock : List UInt8 :=
  [fdtMagic, 76, 44, 40, 40, 17, 16, 0, 4, 32, 0x61000000, fdtBeginNode, 0, fdtProp, 4, 0, 7, fdtEndNode, fdtEnd].flatMap be32

def lastBlockFdt : Fdtr := ⟨0xFFFF000040000000, ⟨fdtMagic, 76, 44, 40, 40, 17, 16, 0, 4, 32⟩⟩

theorem contained_last_block : lastBlockFdt.Contained 77 (memoryAt 0x40000000 lastBlock) :=
  (contained_iff 0x40000000 0 (memoryAt 0x40000000 lastBlock) lastBlockFdt (by decide +kernel) (by decide) 77 (by decide)).mpr
    ⟨ends_whole lastBlockFdt rfl _, fun node _ => encloses_whole lastBlockFdt _ rfl node⟩

-- The structure block ends behind a property's header, and the string block
-- begins there.
def overrun (sizeDtStruct : Nat) : List UInt8 :=
  [fdtMagic, 64, 40, 60, 40, 17, 16, 0, 4, sizeDtStruct, fdtBeginNode, 0, fdtProp, 4, 0, 0x61000000].flatMap be32

def overrunFdt (sizeDtStruct : Nat) : Fdtr := ⟨0xFFFF000040000000, ⟨fdtMagic, 64, 40, 60, 40, 17, 16, 0, 4, sizeDtStruct⟩⟩

-- The value is the string block's bytes. With an empty block there is a root.
theorem value_overruns :
    (Fdtr.new 0x40000000 0 (memoryAt 0x40000000 (overrun 20))).1 = .value (overrunFdt 20) ∧
      ((overrunFdt 20).root 65 (memoryAt 0x40000000 (overrun 20))).1 = .value ⟨40⟩ ∧
      ((overrunFdt 20).prop ⟨40⟩ [0x61] 65 (memoryAt 0x40000000 (overrun 20))).1 = .value [0x61, 0, 0, 0] ∧
      eachByte ((overrunFdt 20).base + (overrunFdt 20).structStop) 4 <:+
        ((overrunFdt 20).prop ⟨40⟩ [0x61] 65 (memoryAt 0x40000000 (overrun 20))).2 ∧
      ¬ (overrunFdt 20).Contained 65 (memoryAt 0x40000000 (overrun 20)) ∧
      (Fdtr.new 0x40000000 0 (memoryAt 0x40000000 (overrun 0))).1 = .value (overrunFdt 0) ∧
      (overrunFdt 0).header.sizeDtStruct = 0 ∧
      ((overrunFdt 0).root 65 (memoryAt 0x40000000 (overrun 0))).1 = .value ⟨40⟩ := by
  have root : ((overrunFdt 20).root 65 (memoryAt 0x40000000 (overrun 20))).1 = .value ⟨40⟩ := by decide +kernel
  refine ⟨by decide +kernel, root, by decide +kernel, by decide +kernel, fun contained => ?_, by decide +kernel, rfl,
    by decide +kernel⟩
  have same := congrArg Prod.fst (contained.prop ⟨40⟩ [0x61] (.root _ root)).same
  have apart : ((overrunFdt 20).confined.prop ⟨40⟩ [0x61] 65 (memoryAt 0x40000000 (overrun 20))).1 ≠
      ((overrunFdt 20).prop ⟨40⟩ [0x61] 65 (memoryAt 0x40000000 (overrun 20))).1 := by decide +kernel
  exact apart same

end Fdt

end Opal
