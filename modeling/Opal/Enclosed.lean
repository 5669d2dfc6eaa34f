import Opal.Devicetree
import Opal.Trims

set_option autoImplicit false

namespace Opal

open Reading

namespace Fdt

-- A parser to which the blob ends where its structure block does. What it
-- reads of the string block is bounded as before.
def Fdtr.confined (fdt : Fdtr) : Fdtr := { fdt with header := { fdt.header with totalsize := fdt.structStop } }

section
variable (fdt : Fdtr) (mem : Nat → UInt8)

def Fdtr.wordAt (off : Nat) : Nat := fromBe ((addresses (fdt.base + off) 4).map mem)

-- The text at off, whose NUL lies before bound.
structure Fdtr.TextAt (off bound : Nat) (text : List UInt8) : Prop where
  plain : Text text
  bytes : fdt.At mem off (text ++ [0])
  inside : off + text.length < bound

-- A node's name in the blob, and a property's in the string block.
def Fdtr.Named (off : Nat) (name : List UInt8) : Prop := fdt.TextAt mem off fdt.header.totalsize name

def Fdtr.Labelled (nameoff : Nat) (pname : List UInt8) : Prop :=
  fdt.TextAt mem (fdt.header.offDtStrings + nameoff) (fdt.header.offDtStrings + fdt.header.sizeDtStrings) pname

-- What ends at stop stays in the structure block, or is not in the blob.
def Fdtr.Ends (stop : Nat) : Prop := stop ≤ fdt.structStop ∨ fdt.header.totalsize < stop

-- So does the string at off.
def Fdtr.NameEnds (off : Nat) : Prop :=
  fdt.structStop = fdt.header.totalsize ∨ fdt.header.totalsize ≤ off ∨
    ∃ nul, off ≤ nul ∧ nul < fdt.structStop ∧ mem (fdt.base + nul) = 0

end

section
variable {fuel : Nat} {mem : Nat → UInt8}

theorem read_be_u32_run (base offset bound : Nat) (room : base + bound < wordEnd) :
    readBeU32 base offset bound fuel mem =
      if offset + 4 ≤ bound then (.value (fromBe ((addresses (base + offset) 4).map mem)), [⟨base + offset, 4⟩])
      else (.missing, []) := by
  unfold readBeU32
  by_cases inside : offset + 4 ≤ bound
  · have first : checkedAdd offset 4 = Pure.pure (offset + 4) := if_pos (by omega)
    have second : add base offset = Pure.pure (base + offset) := if_pos (by omega)
    rw [if_pos inside, first]
    change (if offset + 4 > bound then missing else _ : Reading Nat) fuel mem = _
    rw [if_neg (Nat.not_lt.mpr inside), second]
    rfl
  · rw [if_neg inside]
    by_cases small : offset + 4 < wordEnd
    · have first : checkedAdd offset 4 = Pure.pure (offset + 4) := if_pos small
      rw [first]
      change (if offset + 4 > bound then missing else _ : Reading Nat) fuel mem = _
      rw [if_pos (Nat.lt_of_not_le inside)]
      rfl
    · have first : checkedAdd offset 4 = missing := if_neg small
      rw [first]
      rfl

theorem struct_bytes_run (fdt : Fdtr) (off len : Nat) (room : fdt.base + fdt.header.totalsize < wordEnd) :
    fdt.structBytes off len fuel mem =
      if off + len ≤ fdt.header.totalsize then (.value (fdt.base + off), []) else (.missing, []) := by
  unfold Fdtr.structBytes
  by_cases inside : off + len ≤ fdt.header.totalsize
  · have first : checkedAdd off len = Pure.pure (off + len) := if_pos (by omega)
    have second : add fdt.base off = Pure.pure (fdt.base + off) := if_pos (by omega)
    rw [if_pos inside, first]
    change (if off + len > fdt.header.totalsize ∨ off > fdt.header.totalsize then missing else _ : Reading _) fuel mem = _
    rw [if_neg (by omega), second]
    rfl
  · rw [if_neg inside]
    by_cases small : off + len < wordEnd
    · have first : checkedAdd off len = Pure.pure (off + len) := if_pos small
      rw [first]
      change (if off + len > fdt.header.totalsize ∨ off > fdt.header.totalsize then missing else _ : Reading _) fuel mem = _
      rw [if_pos (.inl (Nat.lt_of_not_le inside))]
      rfl
    · have first : checkedAdd off len = missing := if_neg small
      rw [first]
      rfl

variable {fdt : Fdtr} (sound : fdt.Sound)
include sound

theorem confined_room : fdt.base + fdt.structStop < wordEnd := by
  have room := sound.room
  have inside := sound.structEnd
  unfold Fdtr.structStop
  omega

theorem struct_u32_value_iff (off n : Nat) :
    (fdt.structU32 off fuel mem).1 = .value n ↔ off + 4 ≤ fdt.header.totalsize ∧ fdt.wordAt mem off = n := by
  unfold Fdtr.structU32
  rw [read_be_u32_run _ _ _ sound.room]
  by_cases inside : off + 4 ≤ fdt.header.totalsize
  · rw [if_pos inside]
    exact ⟨fun value => ⟨inside, Result.value.inj value⟩, fun known => congrArg Result.value known.2⟩
  · rw [if_neg inside]
    exact ⟨fun no => (by cases no), fun known => absurd known.1 inside⟩

theorem trims_struct_u32 (off : Nat) :
    Trims never fuel mem (fdt.confined.structU32 off) (fdt.structU32 off) (fdt.Ends (off + 4)) := by
  have stops := sound.structEnd
  have short : fdt.confined.structU32 off fuel mem = _ := read_be_u32_run fdt.base off fdt.structStop (confined_room sound)
  have long : fdt.structU32 off fuel mem = _ := read_be_u32_run fdt.base off _ sound.room
  unfold Fdtr.Ends
  refine ⟨fun ends => ?_, fun strays => ?_⟩
  · rw [short, long]
    rcases ends with inside | beyond
    · rw [if_pos inside, if_pos (le_trans inside stops)]
    · rw [if_neg (Nat.not_le.mpr beyond), if_neg (by unfold Fdtr.structStop; omega)]
  · rw [not_or, Nat.not_lt] at strays
    rw [short, long, if_neg strays.1, if_pos strays.2]
    exact ⟨fun _ no => (by cases no), _, _, rfl⟩

theorem struct_bytes_value_iff (off len address : Nat) :
    (fdt.structBytes off len fuel mem).1 = .value address ↔
      off + len ≤ fdt.header.totalsize ∧ fdt.base + off = address := by
  rw [struct_bytes_run fdt off len sound.room]
  by_cases inside : off + len ≤ fdt.header.totalsize
  · rw [if_pos inside]
    exact ⟨fun value => ⟨inside, Result.value.inj value⟩, fun known => congrArg Result.value known.2⟩
  · rw [if_neg inside]
    exact ⟨fun no => (by cases no), fun known => absurd known.1 inside⟩

theorem struct_bytes_same (off len : Nat) (ends : fdt.Ends (off + len)) :
    fdt.confined.structBytes off len fuel mem = fdt.structBytes off len fuel mem := by
  have stops : fdt.structStop ≤ fdt.header.totalsize := sound.structEnd
  have room := confined_room sound
  have short : fdt.confined.structBytes off len fuel mem = _ := struct_bytes_run fdt.confined off len room
  have long : fdt.structBytes off len fuel mem = _ := struct_bytes_run fdt off len sound.room
  have bound : fdt.confined.header.totalsize = fdt.structStop := rfl
  rw [bound] at short
  rw [short, long]
  rcases ends with inside | beyond
  · rw [if_pos inside, if_pos (le_trans inside stops)]
    rfl
  · rw [if_neg (Nat.not_le.mpr (Nat.lt_of_le_of_lt stops beyond)), if_neg (Nat.not_le.mpr beyond)]

theorem trims_slice {α : Type} {final : α → Prop} (off len : Nat) (starts : off ≤ fdt.structStop)
    (f : List UInt8 → Reading α) :
    Trims final fuel mem (fdt.confined.structBytes off len >>= fun data => load data len >>= f)
      (fdt.structBytes off len >>= fun data => load data len >>= f) (fdt.Ends (off + len)) := by
  have stops : fdt.structStop ≤ fdt.header.totalsize := sound.structEnd
  have room := confined_room sound
  have short : fdt.confined.structBytes off len fuel mem = _ := struct_bytes_run fdt.confined off len room
  have long : fdt.structBytes off len fuel mem = _ := struct_bytes_run fdt off len sound.room
  have bound : fdt.confined.header.totalsize = fdt.structStop := rfl
  rw [bound] at short
  refine ⟨fun ends => bind_same (struct_bytes_same sound off len ends) fun _ _ => rfl, fun strays => ?_⟩
  · rw [Fdtr.Ends, not_or, Nat.not_lt] at strays
    obtain ⟨more, rfl⟩ : ∃ more, len = more + 1 := ⟨len - 1, by omega⟩
    rw [if_neg strays.1] at short
    rw [if_pos strays.2] at long
    have nothing : ∀ a, (fdt.confined.structBytes off (more + 1) fuel mem).1 ≠ .value a := by
      rw [short]
      exact fun _ no => (by cases no)
    have found : (fdt.structBytes off (more + 1) fuel mem).1 = .value (fdt.base + off) := by rw [long]
    obtain ⟨quiet, none_⟩ := bind_stops (fun data => load data (more + 1) >>= f) nothing
    refine ⟨fun a value => absurd value (none_ a), ?_⟩
    obtain ⟨rest, log⟩ := @bind_log _ _ fuel mem (load (fdt.base + off) (more + 1)) f
    rw [quiet, bind_log_value _ found, short, long, log]
    exact ⟨_, _, rfl⟩

omit sound in
theorem scan_round_run (base bound stop : Nat) (room : base + bound < wordEnd) :
    scanRound base bound stop fuel mem =
      if stop < bound then
        if mem (base + stop) = 0 then (.value (.done stop), [⟨base + stop, 1⟩]) else (.value (.again (stop + 1)), [⟨base + stop, 1⟩])
      else (.value (.done stop), []) := by
  unfold scanRound
  by_cases before : stop < bound
  · have first : add base stop = Pure.pure (base + stop) := if_pos (by omega)
    have second : add stop 1 = Pure.pure (stop + 1) := if_pos (by omega)
    rw [if_pos before, if_pos before, first, second, Reading.pure_bind]
    change Reading.bind (load (base + stop) 1) _ fuel mem = _
    by_cases nul : mem (base + stop) = 0
    · have byte : (addresses (base + stop) 1).map mem = [0] := by simp [addresses, nul]
      rw [if_pos nul]
      unfold Reading.bind load
      dsimp only
      rw [if_pos byte]
      rfl
    · have byte : (addresses (base + stop) 1).map mem ≠ [0] := by simp [addresses, nul]
      rw [if_neg nul]
      unfold Reading.bind load
      dsimp only
      rw [if_neg byte]
      rfl
  · rw [if_neg before, if_neg before]
    rfl

omit sound in
theorem scan_again_iff (base bound stop later : Nat) (room : base + bound < wordEnd) :
    Again fuel mem (scanRound base bound) stop later ↔ stop < bound ∧ mem (base + stop) ≠ 0 ∧ later = stop + 1 := by
  unfold Again
  rw [scan_round_run base bound stop room]
  split_ifs with before nul
  · simp [nul]
  · simp [before, nul, eq_comm]
  · simp [before]

-- The scan goes on to the first NUL.
omit sound in
theorem scan_reached_iff (base bound off later : Nat) (room : base + bound < wordEnd) :
    Relation.ReflTransGen (Again fuel mem (scanRound base bound)) off later ↔
      off ≤ later ∧ (later ≤ bound ∨ later = off) ∧ ∀ before, off ≤ before → before < later → mem (base + before) ≠ 0 := by
  constructor
  · intro reached
    induction reached with
    | refl => exact ⟨le_refl _, .inr rfl, fun before low high => absurd low (Nat.not_le.mpr high)⟩
    | @tail stop later _ again ih =>
        obtain ⟨within, byte, rfl⟩ := (scan_again_iff base bound _ _ room).mp again
        refine ⟨Nat.le_succ_of_le ih.1, .inl within, fun before low high => ?_⟩
        by_cases last : before < stop
        · exact ih.2.2 before low last
        · rwa [Nat.le_antisymm (Nat.le_of_lt_succ high) (Nat.le_of_not_lt last)]
  · rintro ⟨ordered, inside, nonzero⟩
    induction later, ordered using Nat.le_induction with
    | base => exact .refl
    | succ stop ordered ih =>
        have within : stop + 1 ≤ bound := by omega
        refine (ih (.inl (by omega)) fun before low high => nonzero before low (by omega)).tail ?_
        exact (scan_again_iff base bound _ _ room).mpr ⟨within, nonzero stop ordered (by omega), rfl⟩

omit sound in
theorem scan_value_iff (base bound off stop : Nat) (room : base + bound < wordEnd) (enough : bound < fuel) :
    (scanCstr base bound off fuel mem).1 = .value stop ↔
      (off ≤ stop ∧ (stop ≤ bound ∨ stop = off) ∧ ∀ before, off ≤ before → before < stop → mem (base + before) ≠ 0) ∧
        (stop < bound → mem (base + stop) = 0) := by
  have onward : ∀ state later, True → Again fuel mem (scanRound base bound) state later →
      True ∧ bound - later < bound - state := by
    intro state later _ again
    obtain ⟨within, _, rfl⟩ := (scan_again_iff _ _ _ _ room).mp again
    exact ⟨trivial, by omega⟩
  have ends : ∀ at_, (scanRound base bound at_ fuel mem).1 = .value (.done stop) ↔
      at_ = stop ∧ (stop < bound → mem (base + stop) = 0) := by
    intro at_
    rw [scan_round_run base bound at_ room]
    split_ifs with before nul
    · exact ⟨by rintro ⟨⟩; exact ⟨rfl, fun _ => nul⟩, by rintro ⟨rfl, _⟩; rfl⟩
    · exact ⟨by rintro ⟨⟩, by rintro ⟨rfl, zero⟩; exact absurd (zero before) nul⟩
    · exact ⟨by rintro ⟨⟩; exact ⟨rfl, fun no => absurd no before⟩, by rintro ⟨rfl, _⟩; rfl⟩
  refine (loop_value_iff (fun _ => True) (fun stop => bound - stop) onward off trivial (by omega) stop).trans ?_
  simp only [ends, scan_reached_iff base bound off _ room]
  constructor
  · rintro ⟨_, reached, rfl, zero⟩
    exact ⟨reached, zero⟩
  · rintro ⟨reached, zero⟩
    exact ⟨stop, reached, rfl, zero⟩

omit sound in
theorem text_at_iff (off bound : Nat) (text : List UInt8) :
    fdt.TextAt mem off bound text ↔
      off + text.length < bound ∧ Text text ∧ (addresses (fdt.base + off) text.length).map mem = text ∧
        mem (fdt.base + (off + text.length)) = 0 := by
  have nul : fdt.At mem (off + text.length) [0] ↔ mem (fdt.base + (off + text.length)) = 0 := by
    simp [Fdtr.At, addresses]
  constructor
  · rintro ⟨plain, bytes, inside⟩
    obtain ⟨here, zero⟩ := (at_append off text [0]).mp bytes
    exact ⟨inside, plain, here, nul.mp zero⟩
  · rintro ⟨inside, plain, here, zero⟩
    exact ⟨plain, (at_append off text [0]).mpr ⟨here, nul.mpr zero⟩, inside⟩

omit sound in
theorem read_cstr_value_iff (off bound : Nat) (text : List UInt8) (room : fdt.base + bound < wordEnd) (enough : bound < fuel) :
    (readCstr fdt.base off bound fuel mem).1 = .value text ↔ fdt.TextAt mem off bound text := by
  rw [text_at_iff]
  unfold readCstr
  by_cases starts : off ≥ bound
  · rw [if_pos starts]
    exact ⟨fun no => (by cases no), fun known => by omega⟩
  rw [if_neg starts, bind_value_iff]
  simp only [scan_value_iff _ _ _ _ room enough]
  constructor
  · rintro ⟨stop, ⟨⟨low, _, nonzero⟩, zero⟩, value⟩
    by_cases past : stop ≥ bound
    · rw [if_pos past] at value
      cases value
    rw [if_neg past] at value
    obtain ⟨_, value⟩ := (add_then_iff _ _ _ _).mp value
    obtain ⟨_, value⟩ := (sub_then_iff _ _ _ _).mp value
    obtain ⟨bytes, loaded, value⟩ := (bind_value_iff _ _ _).mp value
    obtain rfl := Result.value.inj loaded
    unfold fromUtf8 at value
    split_ifs at value with valid
    · obtain rfl := Result.value.inj value
      have length : ((addresses (fdt.base + off) (stop - off)).map mem).length = stop - off := by simp [addresses]
      have here : off + (stop - off) = stop := by omega
      rw [length, here]
      refine ⟨by omega, ⟨valid, fun member => ?_⟩, rfl, zero (by omega)⟩
      obtain ⟨address, inside, byte⟩ := List.mem_map.mp member
      obtain ⟨above, below⟩ := List.mem_range'_1.mp inside
      refine nonzero (address - fdt.base) (by omega) (by omega) ?_
      rwa [Nat.add_sub_cancel' (by omega)]
    · cases value
  · rintro ⟨inside, plain, here, zero⟩
    refine ⟨off + text.length, ⟨⟨Nat.le_add_right _ _, .inl (Nat.le_of_lt inside), fun before low high nul => ?_⟩,
      fun _ => zero⟩, ?_⟩
    · refine plain.2 ?_
      rw [← here, List.mem_map]
      exact ⟨fdt.base + before, List.mem_range'_1.mpr ⟨by omega, by omega⟩, nul⟩
    · rw [if_neg (Nat.not_le.mpr inside)]
      refine (add_then_iff _ _ _ _).mpr ⟨by omega, (sub_then_iff _ _ _ _).mpr ⟨Nat.le_add_right _ _, ?_⟩⟩
      rw [Nat.add_sub_cancel_left]
      refine (bind_value_iff _ _ _).mpr ⟨text, congrArg Result.value here, ?_⟩
      rw [fromUtf8, if_pos plain.1]
      rfl

theorem struct_cstr_value_iff (off : Nat) (name : List UInt8) (enough : fdt.header.totalsize < fuel) :
    (fdt.structCstr off fuel mem).1 = .value name ↔ fdt.Named mem off name :=
  read_cstr_value_iff off fdt.header.totalsize name sound.room enough

theorem string_at_value_iff (nameoff : Nat) (pname : List UInt8) (enough : fdt.header.totalsize < fuel) :
    (fdt.stringAt nameoff fuel mem).1 = .value pname ↔ fdt.Labelled mem nameoff pname := by
  have room := sound.room
  have strings := sound.stringsEnd
  unfold Fdtr.stringAt Fdtr.Labelled
  rw [checked_add_then_iff, add_then_iff]
  by_cases starts : fdt.header.offDtStrings + nameoff ≥ fdt.header.offDtStrings + fdt.header.sizeDtStrings
  · rw [if_pos starts]
    exact ⟨fun no => (by cases no.2.2), fun known => absurd known.inside (by omega)⟩
  · rw [if_neg starts, read_cstr_value_iff _ _ _ (by omega) (by omega)]
    exact ⟨fun known => known.2.2, fun known => ⟨by omega, by omega, known⟩⟩

theorem name_ends_iff (off : Nat) :
    fdt.NameEnds mem off ↔
      ∀ later, Relation.ReflTransGen (Again fuel mem (scanRound fdt.base fdt.header.totalsize)) off later →
        later < fdt.structStop ∨ fdt.header.totalsize ≤ later := by
  have stops : fdt.structStop ≤ fdt.header.totalsize := sound.structEnd
  simp only [scan_reached_iff fdt.base _ off _ sound.room]
  unfold Fdtr.NameEnds
  constructor
  · rintro (same | beyond | ⟨nul, low, inside, zero⟩) later ⟨ordered, _, nonzero⟩
    · omega
    · omega
    · have stopped : later ≤ nul := by
        by_contra past
        exact nonzero nul low (Nat.lt_of_not_le past) zero
      omega
  · intro all
    by_contra strays
    push Not at strays
    obtain ⟨apart, starts, nonzero⟩ := strays
    have reaches := all (max off fdt.structStop)
      ⟨le_max_left _ _, by omega, fun before low high => nonzero before low (by omega)⟩
    omega

theorem trims_scan (off : Nat) (enough : fdt.header.totalsize < fuel) :
    Trims (fun stop => fdt.structStop ≤ stop) fuel mem (scanCstr fdt.base fdt.structStop off)
      (scanCstr fdt.base fdt.header.totalsize off) (fdt.NameEnds mem off) := by
  have stops : fdt.structStop ≤ fdt.header.totalsize := sound.structEnd
  have room := confined_room sound
  refine (trims_loop (fun _ => True) (fun stop => fdt.header.totalsize - stop)
    (fun stop _ => .inl (?_ : Trims _ fuel mem _ _ (stop < fdt.structStop ∨ fdt.header.totalsize ≤ stop)))
    (fun stop later _ again => ?_) off trivial (by omega)).iff ?_
  · have short := @scan_round_run fuel mem fdt.base fdt.structStop stop room
    have long := @scan_round_run fuel mem fdt.base fdt.header.totalsize stop sound.room
    refine ⟨fun same => ?_, fun differs => ?_⟩
    · rw [short, long]
      rcases same with inside | beyond
      · rw [if_pos inside, if_pos (Nat.lt_of_lt_of_le inside stops)]
      · rw [if_neg (by omega), if_neg (by omega)]
    · rw [not_or, Nat.not_lt, Nat.not_le] at differs
      rw [short, long, if_neg (Nat.not_lt.mpr differs.1), if_pos differs.2]
      refine ⟨fun round value => ?_, ⟨fdt.base + stop, 1⟩, [], by split_ifs <;> rfl⟩
      obtain rfl := Result.value.inj value
      exact differs.1
  · obtain ⟨within, _, rfl⟩ := (scan_again_iff _ _ _ _ sound.room).mp again
    exact ⟨trivial, by omega⟩
  · exact (name_ends_iff sound off).symm

theorem trims_struct_cstr (off : Nat) (enough : fdt.header.totalsize < fuel) :
    Trims never fuel mem (fdt.confined.structCstr off) (fdt.structCstr off) (fdt.NameEnds mem off) := by
  have stops : fdt.structStop ≤ fdt.header.totalsize := sound.structEnd
  have short : fdt.confined.structCstr off = readCstr fdt.base off fdt.structStop := rfl
  have long : fdt.structCstr off = readCstr fdt.base off fdt.header.totalsize := rfl
  have scan := @trims_scan fuel mem fdt sound off enough
  rw [short, long]
  unfold readCstr
  by_cases beyond : off ≥ fdt.header.totalsize
  · rw [if_pos beyond, if_pos (le_trans stops beyond)]
    exact (trims_refl _).iff ⟨fun _ => .inr (.inl beyond), fun _ => trivial⟩
  · rw [if_neg beyond]
    by_cases starts : off ≥ fdt.structStop
    · rw [if_pos starts]
      have strays : ¬ fdt.NameEnds mem off := by
        rintro (same | outside | ⟨nul, low, inside, _⟩) <;> omega
      refine ⟨fun ends => absurd ends strays, fun _ => ⟨fun _ no => (by cases no), ?_⟩⟩
      obtain ⟨_, address, more, log⟩ := scan.cut strays
      obtain ⟨rest, whole⟩ := @bind_log _ _ fuel mem (scanCstr fdt.base fdt.header.totalsize off) _
      rw [whole, log]
      cases (scanCstr fdt.base fdt.structStop off fuel mem).2 with
      | nil => exact ⟨_, _, rfl⟩
      | cons first others => exact ⟨_, _, rfl⟩
    · rw [if_neg starts]
      refine (trims_bind scan (fun stop outside => ?_)
        (fun ends stop value => (?_ : Trims never fuel mem _ _ True))).iff ⟨And.left, fun ends => ⟨ends, fun _ _ => trivial⟩⟩
      · rw [if_pos outside]
        exact ⟨rfl, fun _ no => (by cases no)⟩
      · obtain ⟨reached, _⟩ := (scan_value_iff fdt.base fdt.header.totalsize off stop sound.room enough).mp value
        have reached := (@scan_reached_iff fuel mem fdt.base fdt.header.totalsize off stop sound.room).mpr reached
        rcases (name_ends_iff sound off).mp ends stop reached with inside | outside
        · rw [if_neg (Nat.not_le.mpr inside), if_neg (by omega)]
          exact trims_refl _
        · rw [if_pos (le_trans stops outside), if_pos outside]
          exact trims_refl _

theorem trims_word {α : Type} {final : α → Prop} {f g : Nat → Reading α} {later : Prop} (off : Nat)
    (absent : fdt.header.totalsize < off + 4 → later)
    (second : fdt.Ends (off + 4) → off + 4 ≤ fdt.header.totalsize →
      Trims final fuel mem (f (fdt.wordAt mem off)) (g (fdt.wordAt mem off)) later) :
    Trims final fuel mem (fdt.confined.structU32 off >>= f) (fdt.structU32 off >>= g) (fdt.Ends (off + 4) ∧ later) := by
  refine (trims_then (trims_struct_u32 sound off) fun ends n value => (?_ : Trims final fuel mem (f n) (g n) later)).iff ?_
  · obtain ⟨inside, rfl⟩ := (struct_u32_value_iff sound off n).mp value
    exact second ends inside
  · refine and_congr_right fun _ => ⟨fun all => ?_, fun holds _ _ => holds⟩
    by_cases inside : off + 4 ≤ fdt.header.totalsize
    · exact all _ ((struct_u32_value_iff sound off _).mpr ⟨inside, rfl⟩)
    · exact absent (Nat.lt_of_not_le inside)

theorem trims_token {α : Type} {final : α → Prop} {f g : Nat → Reading α} {later : Prop} (off : Nat)
    (inside : off + 4 ≤ fdt.structStop)
    (second : Trims final fuel mem (f (fdt.wordAt mem off)) (g (fdt.wordAt mem off)) later) :
    Trims final fuel mem (fdt.confined.structU32 off >>= f) (fdt.structU32 off >>= g) later := by
  have stops : fdt.structStop ≤ fdt.header.totalsize := sound.structEnd
  refine (trims_word sound off (fun beyond => by omega) fun _ _ => second).iff ⟨And.right, fun holds => ⟨.inl inside, holds⟩⟩

omit sound in
theorem trims_beyond {α : Type} {final : α → Prop} {m m' : Reading α} (p stop : Nat) (beyond : ¬ p + 4 ≤ stop) :
    Trims final fuel mem (checkedAdd p 4 >>= fun offEnd => if offEnd > stop then missing else m)
      (checkedAdd p 4 >>= fun offEnd => if offEnd > stop then missing else m') True := by
  refine (trims_after (checkedAdd p 4) fun offEnd value => (?_ : Trims final fuel mem _ _ True)).iff (by simp)
  obtain ⟨_, rfl⟩ := (checked_add_value_iff p 4 offEnd).mp value
  simp only [if_pos (Nat.lt_of_not_le beyond)]
  exact trims_refl _

-- A round of prop: what is read behind a property's token, and the value of the
-- property that it looks for.
structure Fdtr.ValueEnds (fdt : Fdtr) (mem : Nat → UInt8) (name : List UInt8) (p : Nat) : Prop where
  length : fdt.Ends (p + 8)
  nameoff : fdt.Ends (p + 12)
  value : fdt.Labelled mem (fdt.wordAt mem (p + 8)) name → fdt.Ends (p + 12 + fdt.wordAt mem (p + 4))

def Fdtr.PropEnds (fdt : Fdtr) (mem : Nat → UInt8) (name : List UInt8) (p : Nat) : Prop :=
  p + 4 ≤ fdt.structStop → fdt.wordAt mem p = fdtProp → fdt.ValueEnds mem name p

theorem prop_round_trims (name : List UInt8) (p : Nat) (enough : fdt.header.totalsize < fuel) (inside : p + 4 ≤ fdt.structStop)
    (isProp : fdt.wordAt mem p = fdtProp)
    (others : p + 12 ≤ fdt.structStop → ∀ pname, fdt.Labelled mem (fdt.wordAt mem (p + 8)) pname → pname ≠ name →
      fdt.Ends (p + 12 + fdt.wordAt mem (p + 4))) :
    Trims (Round.Ends never) fuel mem (fdt.confined.propRound name fdt.structStop p) (fdt.propRound name fdt.structStop p)
      (fdt.PropEnds mem name p) := by
  have limits := struct_stop_small sound
  have strings : fdt.confined.stringAt = fdt.stringAt := rfl
  have first : checkedAdd p 4 = Pure.pure (p + 4) := if_pos (by unfold wordEnd; omega)
  have second : checkedAdd (p + 4) 4 = Pure.pure (p + 8) := if_pos (by unfold wordEnd; omega)
  have third : checkedAdd (p + 4) 8 = Pure.pure (p + 12) := if_pos (by unfold wordEnd; omega)
  suffices trims : Trims (Round.Ends never) fuel mem (fdt.confined.propRound name fdt.structStop p)
      (fdt.propRound name fdt.structStop p) (fdt.Ends (p + 8) ∧ fdt.Ends (p + 12) ∧
        ∀ pname, fdt.Labelled mem (fdt.wordAt mem (p + 8)) pname → pname = name →
          fdt.Ends (p + 12 + fdt.wordAt mem (p + 4))) by
    refine trims.iff ⟨fun ⟨len, nameoff, value⟩ _ _ => ⟨len, nameoff, fun labelled => value name labelled rfl⟩, fun all => ?_⟩
    obtain ⟨len, nameoff, value⟩ := all inside isProp
    exact ⟨len, nameoff, fun pname labelled same => value (same ▸ labelled)⟩
  unfold Fdtr.propRound
  simp only [first, second, third, Reading.pure_bind, if_neg (Nat.not_lt.mpr inside), strings]
  refine trims_token sound p inside ?_
  simp only [isProp, if_true]
  refine trims_word sound (p + 4) (fun beyond => ⟨.inr (by omega), fun _ _ _ => .inr (by omega)⟩) fun _ _ => ?_
  refine trims_word sound (p + 8) (fun beyond _ _ _ => .inr (by omega)) fun ends blob => ?_
  have starts : p + 12 ≤ fdt.structStop := by
    rcases ends with within | beyond <;> omega
  simp only [← string_at_value_iff sound _ _ enough] at others ⊢
  refine trims_after _ fun pname found => ?_
  by_cases same : pname = name
  · simp only [same, if_true, forall_const]
    exact trims_slice sound (p + 12) _ starts _
  · simp only [same, if_false, false_implies]
    have ends := others starts pname found same
    exact ⟨fun _ => bind_same (struct_bytes_same sound _ _ ends) fun _ _ => rfl, fun no => absurd trivial no⟩

-- The value of a property of another name is skipped. One that ends behind the
-- block ends the walk either way.
theorem prop_round_skips (name pname : List UInt8) (p : Nat) (enough : fdt.header.totalsize < fuel)
    (isProp : fdt.wordAt mem p = fdtProp) (starts : p + 12 ≤ fdt.structStop)
    (labelled : fdt.Labelled mem (fdt.wordAt mem (p + 8)) pname) (other : pname ≠ name)
    (strays : ¬ fdt.Ends (p + 12 + fdt.wordAt mem (p + 4))) :
    Anticipates fuel mem (fdt.confined.propRound name fdt.structStop) (fdt.propRound name fdt.structStop)
      (fdt.PropEnds mem name) p (p + 12 + mask4 (fdt.wordAt mem (p + 4) + 3)) := by
  have limits := struct_stop_small sound
  have small := sound.small
  have strings : fdt.confined.stringAt = fdt.stringAt := rfl
  rw [Fdtr.Ends, not_or, Nat.not_lt] at strays
  have masked := mask4_le (fdt.wordAt mem (p + 4) + 3)
  have padded := le_mask4 (fdt.wordAt mem (p + 4))
  have first : checkedAdd p 4 = Pure.pure (p + 4) := if_pos (by unfold wordEnd; omega)
  have second : checkedAdd (p + 4) 4 = Pure.pure (p + 8) := if_pos (by unfold wordEnd; omega)
  have third : checkedAdd (p + 4) 8 = Pure.pure (p + 12) := if_pos (by unfold wordEnd; omega)
  have fourth : checkedAdd (fdt.wordAt mem (p + 4)) 3 = Pure.pure (fdt.wordAt mem (p + 4) + 3) :=
    if_pos (by unfold wordEnd; omega)
  have fifth : checkedAdd (p + 12) (mask4 (fdt.wordAt mem (p + 4) + 3)) =
      Pure.pure (p + 12 + mask4 (fdt.wordAt mem (p + 4) + 3)) := if_pos (by unfold wordEnd; omega)
  have word : ∀ off, off + 4 ≤ fdt.structStop → fdt.confined.structU32 off fuel mem = fdt.structU32 off fuel mem ∧
      (fdt.structU32 off fuel mem).1 = .value (fdt.wordAt mem off) := fun off inside =>
    ⟨(trims_struct_u32 sound off).kept (.inl inside), (struct_u32_value_iff sound off _).mpr ⟨by omega, rfl⟩⟩
  have token := word p (by omega)
  have len := word (p + 4) (by omega)
  have nameoff := word (p + 8) (by omega)
  have named := (@string_at_value_iff fuel mem fdt sound _ _ enough).mpr labelled
  have found := (@struct_bytes_value_iff fuel mem fdt sound (p + 12) (fdt.wordAt mem (p + 4)) _).mpr ⟨strays.2, rfl⟩
  have inside : ¬ p + 4 > fdt.structStop := by omega
  refine ⟨?_, ?_, ?_, fun _ _ => ⟨.inl (by omega), .inl starts, fun same => ?_⟩, fun no => ?_⟩
  · unfold Fdtr.propRound
    simp only [first, second, third, Reading.pure_bind, if_neg inside, strings]
    refine gives_bind token.1 token.2 ?_
    rw [if_pos isProp, if_pos isProp]
    refine gives_bind len.1 len.2 ?_
    refine gives_bind nameoff.1 nameoff.2 ?_
    refine gives_bind rfl named ?_
    simp only [if_neg other, fourth, fifth, Reading.pure_bind]
    have room := confined_room sound
    have short : fdt.confined.structBytes (p + 12) (fdt.wordAt mem (p + 4)) fuel mem = _ :=
      struct_bytes_run fdt.confined _ _ room
    have long := @struct_bytes_run fuel mem fdt (p + 12) (fdt.wordAt mem (p + 4)) sound.room
    have bound : fdt.confined.header.totalsize = fdt.structStop := rfl
    rw [bound, if_neg strays.1] at short
    rw [if_pos strays.2] at long
    change Reading.bind _ _ fuel mem = (_, (Reading.bind _ _ fuel mem).2)
    unfold Reading.bind
    rw [short, long]
    rfl
  · unfold Again Fdtr.propRound
    simp only [first, second, third, Reading.pure_bind, if_neg inside]
    rw [bind_value _ token.2, if_pos isProp, bind_value _ len.2, bind_value _ nameoff.2, bind_value _ named,
      bind_value _ found, if_neg other, fourth, Reading.pure_bind, fifth]
    rfl
  · unfold Fdtr.propRound
    have past : checkedAdd (p + 12 + mask4 (fdt.wordAt mem (p + 4) + 3)) 4 =
        Pure.pure (p + 12 + mask4 (fdt.wordAt mem (p + 4) + 3) + 4) := if_pos (by unfold wordEnd; omega)
    rw [past, Reading.pure_bind, if_pos (by omega)]
    rfl
  · have one := (@string_at_value_iff fuel mem fdt sound _ _ enough).mpr same
    rw [named] at one
    exact absurd (Result.value.inj one) other
  · omega

theorem trims_prop_round (name : List UInt8) (p : Nat) (enough : fdt.header.totalsize < fuel) :
    Trims (Round.Ends never) fuel mem (fdt.confined.propRound name fdt.structStop p) (fdt.propRound name fdt.structStop p)
        (fdt.PropEnds mem name p) ∨
      ∃ later, Anticipates fuel mem (fdt.confined.propRound name fdt.structStop) (fdt.propRound name fdt.structStop)
        (fdt.PropEnds mem name) p later := by
  have limits := struct_stop_small sound
  by_cases inside : p + 4 ≤ fdt.structStop
  · by_cases isProp : fdt.wordAt mem p = fdtProp
    · by_cases skips : p + 12 ≤ fdt.structStop ∧ ∃ pname, fdt.Labelled mem (fdt.wordAt mem (p + 8)) pname ∧ pname ≠ name ∧
          ¬ fdt.Ends (p + 12 + fdt.wordAt mem (p + 4))
      · obtain ⟨starts, pname, labelled, other, strays⟩ := skips
        exact .inr ⟨_, prop_round_skips sound name pname p enough isProp starts labelled other strays⟩
      · refine .inl (prop_round_trims sound name p enough inside isProp fun starts pname labelled other => ?_)
        by_contra strays
        exact skips ⟨starts, pname, labelled, other, strays⟩
    · refine .inl ?_
      have first : checkedAdd p 4 = Pure.pure (p + 4) := if_pos (by unfold wordEnd; omega)
      unfold Fdtr.propRound Fdtr.PropEnds
      simp only [first, Reading.pure_bind, if_neg (Nat.not_lt.mpr inside)]
      refine trims_token sound p inside ?_
      simp only [isProp, if_false, false_implies, implies_true]
      exact trims_refl _
  · refine .inl (Trims.iff (trims_beyond p fdt.structStop inside) ?_)
    exact iff_of_true trivial fun no => absurd no inside

def Fdtr.LengthEnds (fdt : Fdtr) (mem : Nat → UInt8) (p : Nat) : Prop :=
  p + 4 ≤ fdt.structStop → fdt.wordAt mem p = fdtProp → fdt.Ends (p + 8)

theorem trims_first_child_round (p : Nat) :
    Trims (Round.Ends never) fuel mem (fdt.confined.firstChildRound fdt.structStop p) (fdt.firstChildRound fdt.structStop p)
      (fdt.LengthEnds mem p) := by
  have limits := struct_stop_small sound
  unfold Fdtr.firstChildRound Fdtr.LengthEnds
  by_cases inside : p + 4 ≤ fdt.structStop
  · have first : checkedAdd p 4 = Pure.pure (p + 4) := if_pos (by unfold wordEnd; omega)
    simp only [first, Reading.pure_bind, if_neg (Nat.not_lt.mpr inside), forall_const, inside]
    refine trims_token sound p inside ?_
    by_cases isProp : fdt.wordAt mem p = fdtProp
    · simp only [isProp, if_true, forall_const]
      exact (trims_word sound (p + 4) (fun _ => trivial) fun _ _ => trims_refl _).iff (iff_of_eq (and_true _))
    · simp only [isProp, if_false, false_implies]
      exact trims_refl _
  · refine Trims.iff (trims_beyond p fdt.structStop inside) ?_
    exact iff_of_true trivial fun no => absurd no inside

-- A round of the walk over the children: the name behind a node's token, the
-- length behind a property's.
def Fdtr.TokenEnds (fdt : Fdtr) (mem : Nat → UInt8) (p : Nat) : Prop :=
  p + 4 ≤ fdt.structStop →
    (fdt.wordAt mem p = fdtBeginNode → fdt.NameEnds mem (p + 4)) ∧ (fdt.wordAt mem p = fdtProp → fdt.Ends (p + 8))

theorem trims_next_round (iter : NodeIter) (going : iter.offset ≠ 0) (enough : fdt.header.totalsize < fuel) :
    Trims (Round.Ends never) fuel mem (fdt.confined.nextRound fdt.structStop iter) (fdt.nextRound fdt.structStop iter)
      (fdt.TokenEnds mem iter.offset) := by
  have limits := struct_stop_small sound
  unfold Fdtr.nextRound Fdtr.TokenEnds
  simp only [if_neg going]
  by_cases inside : iter.offset + 4 ≤ fdt.structStop
  · have first : add iter.offset 4 = Pure.pure (iter.offset + 4) := if_pos (by unfold wordEnd; omega)
    simp only [first, Reading.pure_bind, if_neg (Nat.not_lt.mpr inside), forall_const, inside]
    refine trims_token sound iter.offset inside ?_
    by_cases isBegin : fdt.wordAt mem iter.offset = fdtBeginNode
    · have other : fdtBeginNode ≠ fdtProp := by decide
      simp only [isBegin, if_true, forall_const, other, false_implies, and_true]
      refine (trims_then (trims_struct_cstr sound (iter.offset + 4) enough) fun _ name _ => trims_refl _).iff ?_
      exact ⟨And.left, fun ends => ⟨ends, fun _ _ => trivial⟩⟩
    · simp only [isBegin, if_false, false_implies, true_and]
      by_cases isProp : fdt.wordAt mem iter.offset = fdtProp
      · have other : fdtProp ≠ fdtEndNode := by decide
        simp only [isProp, other, if_true, if_false, forall_const]
        exact (trims_word sound (iter.offset + 4) (fun _ => trivial) fun _ _ => trims_refl _).iff (iff_of_eq (and_true _))
      · simp only [isProp, if_false, false_implies]
        exact trims_refl _
  · refine Trims.iff (trims_after (add iter.offset 4) fun offEnd value => (?_ : Trims _ fuel mem _ _ True)) ?_
    · obtain ⟨_, rfl⟩ := (add_value_iff iter.offset 4 offEnd).mp value
      simp only [if_pos (Nat.lt_of_not_le inside)]
      exact trims_refl _
    · exact iff_of_true (fun _ _ => trivial) fun no => absurd no inside

-- What follows the name at off: the padded name, and the walk behind it.
omit sound in
theorem padded_name_run (name : List UInt8) (short : name.length < 2 ^ 32) :
    Fdtr.paddedName name = Pure.pure (mask4 (name.length + 4)) := by
  have first : add name.length 1 = Pure.pure (name.length + 1) := if_pos (by unfold wordEnd; omega)
  have second : add (name.length + 1) 3 = Pure.pure (name.length + 4) := if_pos (by unfold wordEnd; omega)
  unfold Fdtr.paddedName
  rw [first, Reading.pure_bind, second, Reading.pure_bind]

end

end Fdt

end Opal
