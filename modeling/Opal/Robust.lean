import Opal.Fdt
import Mathlib.Data.List.Induction

set_option autoImplicit false

namespace Opal

open Reading

namespace Fdt

theorem from_be_lt (bytes : List UInt8) : fromBe bytes < 256 ^ bytes.length := by
  have whole : ∀ acc, bytes.foldl (fun acc byte => 256 * acc + byte.toNat) acc < (acc + 1) * 256 ^ bytes.length := by
    induction bytes with
    | nil =>
        intro acc
        simp
    | cons byte rest ih =>
        intro acc
        have small := byte.toNat_lt
        have step : 256 * acc + byte.toNat + 1 ≤ (acc + 1) * 256 := by omega
        calc rest.foldl (fun acc byte => 256 * acc + byte.toNat) (256 * acc + byte.toNat)
            < (256 * acc + byte.toNat + 1) * 256 ^ rest.length := ih _
          _ ≤ (acc + 1) * 256 * 256 ^ rest.length := Nat.mul_le_mul_right _ step
          _ = (acc + 1) * 256 ^ (byte :: rest).length := by rw [List.length_cons, Nat.pow_succ', Nat.mul_assoc]
  simpa [fromBe] using whole 0

theorem from_be_snoc (bytes : List UInt8) (byte : UInt8) : fromBe (bytes ++ [byte]) = 256 * fromBe bytes + byte.toNat := by
  simp [fromBe]

theorem from_be_append (bytes rest : List UInt8) : fromBe (bytes ++ rest) = fromBe bytes * 256 ^ rest.length + fromBe rest := by
  induction rest using List.reverseRecOn with
  | nil => simp [fromBe]
  | append_singleton rest byte ih =>
      rw [← List.append_assoc, from_be_snoc, ih, from_be_snoc, List.length_append, List.length_singleton, Nat.pow_succ,
        Nat.mul_add, Nat.mul_comm (256 ^ rest.length) 256, Nat.mul_left_comm (fromBe bytes), Nat.add_assoc]

theorem mask4_le (n : Nat) : mask4 n ≤ n := Nat.div_mul_le_self n 4

theorem le_mask4 (n : Nat) : n ≤ mask4 (n + 3) := by
  unfold mask4
  omega

theorem mask4_mod (n : Nat) : mask4 n % 4 = 0 := Nat.mul_mod_left _ 4

-- What new has checked about an accepted blob, and what its caller answers
-- for: the blob ends, as every Rust allocation does, below the last address.
structure Fdtr.Sound (fdt : Fdtr) : Prop where
  small : fdt.header.totalsize < 2 ^ 32
  structEnd : fdt.header.offDtStruct + fdt.header.sizeDtStruct ≤ fdt.header.totalsize
  stringsEnd : fdt.header.offDtStrings + fdt.header.sizeDtStrings ≤ fdt.header.totalsize
  pastHeader : headerSize ≤ fdt.header.offDtStruct
  reserves : fdt.header.offMemRsvmap < 2 ^ 32
  room : fdt.base + fdt.header.totalsize < wordEnd

def Fdtr.Inside (fdt : Fdtr) (read : Load) : Prop :=
  fdt.base ≤ read.start ∧ read.start + read.width ≤ fdt.base + fdt.header.totalsize

def Fdtr.structStop (fdt : Fdtr) : Nat := fdt.header.offDtStruct + fdt.header.sizeDtStruct

-- A node whose token lies in the blob. The root's need not lie in the
-- structure block.
def Fdtr.Holds (fdt : Fdtr) (node : Node) : Prop := node.offset + 4 ≤ fdt.header.totalsize

-- An iterator that no addition of a walk can carry past the word.
def NodeIter.Bounded (iter : NodeIter) : Prop := iter.offset ≤ 2 ^ 34 ∧ iter.depth ≤ iter.offset

-- What the walks rest on. limit bounds all that they read.
structure Fdtr.Fair (fdt : Fdtr) (limit : Nat) : Prop where
  small : limit < 2 ^ 32
  room : fdt.base + limit < wordEnd
  structEnd : fdt.structStop ≤ fdt.header.totalsize
  blob : fdt.header.totalsize ≤ limit
  strings : fdt.header.offDtStrings + fdt.header.sizeDtStrings ≤ limit

theorem Fdtr.Sound.fair {fdt : Fdtr} (sound : fdt.Sound) : fdt.Fair fdt.header.totalsize where
  small := sound.small
  room := sound.room
  structEnd := sound.structEnd
  blob := le_refl _
  strings := sound.stringsEnd

-- Whole words on from low.
abbrev Onward (low off : Nat) : Prop := low ≤ off ∧ off % 4 = low % 4

theorem onward_self (low : Nat) : Onward low low := ⟨le_refl _, rfl⟩

theorem Onward.trans {low mid off : Nat} (first : Onward low mid) (second : Onward mid off) : Onward low off :=
  ⟨le_trans first.1 second.1, second.2.trans first.2⟩

-- A word of the blob, in step with low, or one of its bytes.
structure Fdtr.Word (fdt : Fdtr) (low : Nat) (read : Load) : Prop where
  starts : fdt.base + low ≤ read.start
  ends : read.start + read.width ≤ fdt.base + fdt.header.totalsize
  step : read.width = 1 ∨ read.width = 4 ∧ read.start % 4 = (fdt.base + low) % 4

-- Such a load, or a byte of the string block.
def Fdtr.From (fdt : Fdtr) (low : Nat) (read : Load) : Prop :=
  fdt.Word low read ∨ read.width = 1 ∧ fdt.base + fdt.header.offDtStrings ≤ read.start ∧
    read.start < fdt.base + (fdt.header.offDtStrings + fdt.header.sizeDtStrings)

theorem Fdtr.Sound.inside {fdt : Fdtr} (sound : fdt.Sound) {low : Nat} {read : Load} (from_ : fdt.From low read) :
    fdt.Inside read := by
  have strings := sound.stringsEnd
  rcases from_ with word | inside
  · exact ⟨by have starts := word.starts; omega, word.ends⟩
  · exact ⟨by omega, by omega⟩

theorem Fdtr.From.aligned {fdt : Fdtr} {low : Nat} {read : Load} (from_ : fdt.From low read)
    (starts : low + 4 ≤ fdt.header.totalsize → (fdt.base + low) % 4 = 0) : read.Aligned := by
  unfold Load.Aligned
  rcases from_ with word | inside
  · rcases word.step with byte | ⟨width, same⟩
    · rw [byte, Nat.mod_one]
    · have first := word.starts
      have last := word.ends
      rw [width, same]
      exact starts (by omega)
  · rw [inside.1, Nat.mod_one]

section
variable {fuel : Nat} {mem : Nat → UInt8} {fdt : Fdtr}

theorem safe_read_be_u32 {good : Load → Prop} (base offset bound : Nat) (room : base + bound < wordEnd)
    (fine : offset + 4 ≤ bound → good ⟨base + offset, 4⟩) :
    Safe good fuel mem (readBeU32 base offset bound) fun n => n < 2 ^ 32 ∧ offset + 4 ≤ bound := by
  refine safe_bind (safe_checked_add offset 4) fun stop fits => ?_
  split_ifs with high
  · exact safe_missing _
  · refine safe_bind (safe_add base offset (by omega)) fun address at_ => ?_
    subst at_
    refine safe_bind (safe_fetch (base + offset) 4 (fine (by omega))) fun raw length => ?_
    have small := from_be_lt raw
    rw [length] at small
    exact safe_pure _ _ ⟨small, by omega⟩

theorem safe_scan_cstr {good : Load → Prop} (base offset bound : Nat) (room : base + bound < wordEnd) (starts : offset ≤ bound)
    (enough : bound < fuel) (all : ∀ a, base + offset ≤ a → a < base + bound → good ⟨a, 1⟩) :
    Safe good fuel mem (scanCstr base bound offset) fun stop => offset ≤ stop ∧ stop ≤ bound := by
  refine safe_loop (fun stop => offset ≤ stop ∧ stop ≤ bound) (fun stop => bound - stop) ?_ offset ⟨le_refl _, starts⟩
    (by omega)
  intro stop kept
  unfold scanRound
  split_ifs with before
  · refine safe_bind (safe_add base stop (by omega)) fun address at_ => ?_
    refine safe_bind (safe_load address 1 fun a low below => all a (by omega) (by omega)) fun byte _ => ?_
    split_ifs with ends
    · exact safe_pure _ _ kept
    · refine safe_bind (safe_add stop 1 (by omega)) fun later next => ?_
      exact safe_pure _ _ ⟨⟨by omega, by omega⟩, by omega⟩
  · exact safe_pure _ _ kept

theorem safe_read_cstr {good : Load → Prop} (base offset bound : Nat) (room : base + bound < wordEnd) (enough : bound < fuel)
    (all : ∀ a, base + offset ≤ a → a < base + bound → good ⟨a, 1⟩) :
    Safe good fuel mem (readCstr base offset bound) fun text => offset + text.length < bound := by
  unfold readCstr
  split_ifs with high
  · exact safe_missing _
  · refine safe_bind (safe_scan_cstr base offset bound room (by omega) enough all) fun stop found => ?_
    split_ifs with past
    · exact safe_missing _
    · refine safe_bind (safe_add base offset (by omega)) fun address at_ => ?_
      refine safe_bind (safe_sub stop offset found.1) fun len short => ?_
      refine safe_bind (safe_load address len fun a low below => all a (by omega) (by omega)) fun bytes length => ?_
      unfold fromUtf8
      split_ifs
      · exact safe_pure _ _ (by omega)
      · exact safe_missing _

section
variable {limit low : Nat} (fair : fdt.Fair limit)
include fair

theorem safe_struct_u32 (off : Nat) (above : Onward low off) :
    Safe (fdt.From low) fuel mem (fdt.structU32 off) fun n => n < 2 ^ 32 ∧ off + 4 ≤ fdt.header.totalsize := by
  have room := fair.room
  have blob := fair.blob
  obtain ⟨past, step⟩ := above
  refine safe_read_be_u32 fdt.base off _ (by omega) fun inside => .inl ⟨?_, ?_, .inr ⟨rfl, ?_⟩⟩
  · exact Nat.add_le_add_left past _
  · dsimp only
    omega
  · dsimp only
    omega

theorem safe_struct_cstr (off : Nat) (above : low ≤ off) (enough : limit < fuel) :
    Safe (fdt.From low) fuel mem (fdt.structCstr off) fun text => off + text.length < fdt.header.totalsize := by
  have room := fair.room
  have blob := fair.blob
  exact safe_read_cstr fdt.base off _ (by omega) (by omega) fun a high below => .inl ⟨by dsimp only; omega, by dsimp only; omega, .inl rfl⟩

theorem safe_string_at (nameoff : Nat) (enough : limit < fuel) :
    Safe (fdt.From low) fuel mem (fdt.stringAt nameoff) fun text => text.length < limit := by
  have small := fair.small
  have room := fair.room
  have strings := fair.strings
  refine safe_bind (safe_checked_add _ nameoff) fun off starts => ?_
  refine safe_bind (safe_add _ _ (by unfold wordEnd; omega)) fun stop ends => ?_
  split_ifs
  · exact safe_missing _
  · refine (safe_read_cstr fdt.base off stop (by omega) (by omega) fun a high below => .inr ⟨rfl, by dsimp only; omega, by dsimp only; omega⟩).weaken ?_
    exact fun text short => by omega

theorem safe_struct_bytes (off len : Nat) :
    Safe (fdt.From low) fuel mem (fdt.structBytes off len) fun address =>
      address = fdt.base + off ∧ off + len ≤ fdt.header.totalsize := by
  have room := fair.room
  have blob := fair.blob
  refine safe_bind (safe_checked_add off len) fun stop fits => ?_
  split_ifs with high
  · exact safe_missing _
  · exact (safe_add fdt.base off (by omega)).weaken fun address at_ => ⟨at_, by omega⟩

omit fair in
theorem safe_slice_bytes (off len : Nat) (above : low ≤ off) (inside : off + len ≤ fdt.header.totalsize) :
    Safe (fdt.From low) fuel mem (load (fdt.base + off) len) fun data => data.length = len :=
  safe_load _ _ fun a high below => .inl ⟨by dsimp only; omega, by dsimp only; omega, .inl rfl⟩

theorem safe_struct_end : Safe (fdt.From low) fuel mem fdt.structEnd fun stop => stop = fdt.structStop := by
  have small := fair.small
  have blob := fair.blob
  have ends := fair.structEnd
  unfold Fdtr.structStop at ends
  exact safe_add _ _ (by unfold wordEnd; omega)

theorem fair_limits : fdt.structStop ≤ fdt.header.totalsize ∧ fdt.header.totalsize ≤ limit ∧ limit < 2 ^ 32 :=
  ⟨fair.structEnd, fair.blob, fair.small⟩

theorem safe_root (above : Onward low fdt.header.offDtStruct) :
    Safe (fdt.From low) fuel mem fdt.root fun node => fdt.Holds node ∧ Onward fdt.header.offDtStruct node.offset := by
  refine safe_bind (safe_struct_u32 fair _ above) fun token inside => ?_
  split_ifs
  · exact safe_missing _
  · exact safe_pure _ _ ⟨inside.2, onward_self _⟩

omit fair in
theorem safe_padded_name (name : List UInt8) (short : name.length < 2 ^ 32) :
    Safe (fdt.From low) fuel mem (Fdtr.paddedName name) fun padded =>
      name.length + 1 ≤ padded ∧ padded ≤ name.length + 4 ∧ padded % 4 = 0 := by
  refine safe_bind (safe_add _ 1 (by unfold wordEnd; omega)) fun len one => ?_
  refine safe_bind (safe_add len 3 (by unfold wordEnd; omega)) fun len three => ?_
  have low := le_mask4 (name.length + 1)
  have high := mask4_le (name.length + 4)
  subst three one
  exact safe_pure _ _ ⟨low, high, mask4_mod _⟩

theorem safe_full_name (node : Node) (holds : fdt.Holds node) (above : Onward low node.offset) (enough : limit < fuel) :
    Safe (fdt.From low) fuel mem (fdt.fullName node) fun name => name.length < 2 ^ 32 := by
  have stops := fair_limits fair
  refine safe_bind (safe_attempt (p := fun name => name.length < 2 ^ 32) ?_) fun raw short => ?_
  · unfold Fdtr.Holds at holds
    refine safe_bind (safe_add node.offset 4 (by unfold wordEnd; omega)) fun nameOff _ => ?_
    exact (safe_struct_cstr fair nameOff (by omega) enough).weaken fun text below => by omega
  · refine safe_pure _ _ ?_
    cases raw with
    | none => exact Nat.two_pow_pos 32
    | some name => exact short name rfl

theorem safe_prop (node : Node) (name : List UInt8) (holds : fdt.Holds node) (above : Onward low node.offset) (enough : limit < fuel) :
    Safe (fdt.From low) fuel mem (fdt.prop node name) fun data => data.length < 2 ^ 32 := by
  have stops := fair_limits fair
  unfold Fdtr.Holds at holds
  refine safe_bind (safe_add node.offset 4 (by unfold wordEnd; omega)) fun nameOff starts => ?_
  refine safe_bind (safe_struct_cstr fair nameOff (by omega) enough) fun nodeName below => ?_
  refine safe_bind (safe_padded_name nodeName (by omega)) fun padded wide => ?_
  refine safe_bind (safe_add nameOff padded (by unfold wordEnd; omega)) fun off behind => ?_
  refine safe_bind (safe_struct_end fair) fun stop same => ?_
  subst same
  refine safe_loop (Onward low) (fun off => fdt.structStop - off) ?_ off (by omega) (by omega)
  intro off past_low
  refine safe_bind (safe_checked_add off 4) fun offEnd ends => ?_
  split_ifs with past
  · exact safe_missing _
  · refine safe_bind (safe_struct_u32 fair off (by omega)) fun token _ => ?_
    refine safe_bind (safe_checked_add off 4) fun after passed => ?_
    split_ifs with isProp isNop
    · refine safe_bind (safe_struct_u32 fair after (by omega)) fun len narrow => ?_
      refine safe_bind (safe_checked_add after 4) fun nameoffAt _ => ?_
      refine safe_bind (safe_struct_u32 fair nameoffAt (by omega)) fun nameoff _ => ?_
      refine safe_bind (safe_checked_add after 8) fun body headed => ?_
      refine safe_bind (safe_string_at fair nameoff enough) fun pname _ => ?_
      refine safe_bind (safe_struct_bytes fair body len) fun data lies => ?_
      split_ifs
      · rw [lies.1]
        refine safe_bind (safe_slice_bytes body len (by omega) lies.2) fun bytes length => ?_
        exact safe_pure _ _ (by omega)
      · refine safe_bind (safe_checked_add len 3) fun padded _ => ?_
        have whole := mask4_mod padded
        refine safe_bind (safe_checked_add body (mask4 padded)) fun next moved => ?_
        exact safe_pure _ _ ⟨by omega, by omega⟩
    · exact safe_pure _ _ ⟨by omega, by omega⟩
    · exact safe_missing _

theorem safe_compatible (node : Node) (holds : fdt.Holds node) (above : Onward low node.offset) (enough : limit < fuel) :
    Safe (fdt.From low) fuel mem (fdt.compatible node) fun _ => True := by
  refine safe_bind (safe_attempt (safe_prop fair node _ holds above enough)) fun found _ => ?_
  cases found with
  | none => exact safe_pure _ _ trivial
  | some data =>
      dsimp only
      cases nul : data.findIdx? (· = 0) with
      | none => exact safe_pure _ _ trivial
      | some stop =>
          obtain ⟨inside, _⟩ := List.findIdx?_eq_some_iff_getElem.mp nul
          refine safe_bind (safe_slice data 0 stop (Nat.zero_le _) (Nat.le_of_lt inside)) fun first _ => ?_
          exact safe_pure _ _ trivial

theorem safe_first_child_offset (node : Node) (holds : fdt.Holds node) (above : Onward low node.offset) (enough : limit < fuel) :
    Safe (fdt.From low) fuel mem (fdt.firstChildOffset node) fun off =>
      Onward (node.offset + 4) off ∧ off + 4 ≤ fdt.structStop := by
  have stops := fair_limits fair
  unfold Fdtr.Holds at holds
  refine safe_bind (safe_add node.offset 4 (by unfold wordEnd; omega)) fun nameOff starts => ?_
  refine safe_bind (safe_struct_cstr fair nameOff (by omega) enough) fun name below => ?_
  refine safe_bind (safe_padded_name name (by omega)) fun padded wide => ?_
  refine safe_bind (safe_checked_add nameOff padded) fun off behind => ?_
  refine safe_bind (safe_struct_end fair) fun stop same => ?_
  subst same
  refine safe_loop (Onward (node.offset + 4)) (fun off => fdt.structStop - off) ?_ off (by omega) (by omega)
  intro off past
  refine safe_bind (safe_checked_add off 4) fun offEnd ends => ?_
  split_ifs with high
  · exact safe_missing _
  · refine safe_bind (safe_struct_u32 fair off (by omega)) fun token _ => ?_
    split_ifs with isProp isNop isBegin
    · refine safe_bind (safe_checked_add off 4) fun lenAt _ => ?_
      refine safe_bind (safe_struct_u32 fair lenAt (by omega)) fun len _ => ?_
      refine safe_bind (safe_checked_add len 3) fun padded _ => ?_
      have whole := mask4_mod padded
      refine safe_bind (safe_checked_add off 4) fun a first => ?_
      refine safe_bind (safe_checked_add a 8) fun b second => ?_
      refine safe_bind (safe_checked_add b (mask4 padded)) fun c third => ?_
      exact safe_pure _ _ ⟨by omega, by omega⟩
    · refine safe_bind (safe_checked_add off 4) fun a first => ?_
      exact safe_pure _ _ ⟨by omega, by omega⟩
    · exact safe_pure _ _ ⟨past, by omega⟩
    · exact safe_missing _

theorem safe_children (node : Node) (holds : fdt.Holds node) (above : Onward low node.offset) (enough : limit < fuel) :
    Safe (fdt.From low) fuel mem (fdt.children node) fun iter =>
      iter.Bounded ∧ (iter.offset ≠ 0 → Onward (node.offset + 4) iter.offset) := by
  have stops := fair_limits fair
  refine safe_bind (safe_attempt (safe_first_child_offset fair node holds above enough)) fun first found => ?_
  cases first with
  | none => exact safe_pure _ _ ⟨⟨Nat.zero_le _, le_refl _⟩, fun no => absurd rfl no⟩
  | some off =>
      have known := found off rfl
      refine safe_pure _ _ ⟨⟨?_, Nat.zero_le _⟩, fun _ => known.1⟩
      change off ≤ 2 ^ 34
      omega

theorem safe_next (iter : NodeIter) (bounded : iter.Bounded) (above : iter.offset ≠ 0 → Onward low iter.offset)
    (enough : limit < fuel) :
    Safe (fdt.From low) fuel mem (fdt.next iter) fun found =>
      iter.offset ≠ 0 ∧ Onward iter.offset found.1.offset ∧ found.1.offset + 4 ≤ fdt.structStop ∧
        Onward (found.1.offset + 4) found.2.offset ∧ found.2.Bounded := by
  have stops := fair_limits fair
  refine safe_bind (safe_struct_end fair) fun stop same => ?_
  subst same
  refine safe_loop (fun at_ : NodeIter => at_.Bounded ∧ Onward iter.offset at_.offset ∧ (at_.offset ≠ 0 → iter.offset ≠ 0))
    (fun at_ => fdt.structStop - at_.offset) ?_ iter ⟨bounded, onward_self _, id⟩ (by omega)
  rintro ⟨offset, depth⟩ ⟨⟨low, shallow⟩, forward, started⟩
  unfold Fdtr.nextRound
  dsimp only at low shallow forward started ⊢
  by_cases ended : offset = 0
  · rw [if_pos ended]
    exact safe_missing _
  · rw [if_neg ended]
    have start := started ended
    have high_enough := above start
    refine safe_bind (safe_add offset 4 (by unfold wordEnd; omega)) fun offEnd ends => ?_
    by_cases high : offEnd > fdt.structStop
    · rw [if_pos high]
      exact safe_missing _
    · rw [if_neg high]
      refine safe_bind (safe_struct_u32 fair offset (by omega)) fun token _ => ?_
      refine safe_bind (safe_add offset 4 (by unfold wordEnd; omega)) fun after passed => ?_
      have onward : ∀ later : NodeIter, Onward after later.offset → later.offset ≤ 2 ^ 34 → later.depth ≤ later.offset →
          (later.Bounded ∧ Onward iter.offset later.offset ∧ (later.offset ≠ 0 → iter.offset ≠ 0)) ∧
            fdt.structStop - later.offset < fdt.structStop - offset :=
        fun later moves far deep => ⟨⟨⟨far, deep⟩, by omega, fun _ => start⟩, by omega⟩
      by_cases isBegin : token = fdtBeginNode
      · rw [if_pos isBegin]
        refine safe_bind (safe_struct_cstr fair after (by omega) enough) fun name below => ?_
        refine safe_bind (safe_padded_name name (by omega)) fun padded wide => ?_
        refine safe_bind (safe_checked_add after padded) fun later moved => ?_
        by_cases child : depth = 0
        · rw [if_pos child]
          refine safe_bind (safe_sub later 4 (by omega)) fun back less => ?_
          refine safe_bind (safe_sub back padded (by omega)) fun first same => ?_
          exact safe_pure _ _ ⟨start, by dsimp only; omega, by dsimp only; omega, by dsimp only; omega,
            by dsimp only; omega, by dsimp only; omega⟩
        · rw [if_neg child]
          refine safe_bind (safe_add depth 1 (by unfold wordEnd; omega)) fun deeper more => ?_
          exact safe_pure _ _ (onward ⟨later, deeper⟩ (by dsimp only; omega) (by dsimp only; omega) (by dsimp only; omega))
      rw [if_neg isBegin]
      by_cases isEnd : token = fdtEndNode
      · rw [if_pos isEnd]
        by_cases closes : depth = 0
        · rw [if_pos closes]
          exact safe_missing _
        · rw [if_neg closes]
          refine safe_bind (safe_sub depth 1 (by omega)) fun higher less => ?_
          exact safe_pure _ _ (onward ⟨after, higher⟩ (by dsimp only; omega) (by dsimp only; omega) (by dsimp only; omega))
      rw [if_neg isEnd]
      by_cases isProp : token = fdtProp
      · rw [if_pos isProp]
        refine safe_bind (safe_struct_u32 fair after (by omega)) fun len narrow => ?_
        refine safe_bind (safe_add len 3 (by unfold wordEnd; omega)) fun padded wide => ?_
        have masked := mask4_le padded
        have whole := mask4_mod padded
        refine safe_bind (safe_add 8 (mask4 padded) (by unfold wordEnd; omega)) fun skip far => ?_
        refine safe_bind (safe_add after skip (by unfold wordEnd; omega)) fun later moved => ?_
        exact safe_pure _ _ (onward ⟨later, depth⟩ (by dsimp only; omega) (by dsimp only; omega) (by dsimp only; omega))
      rw [if_neg isProp]
      by_cases isNop : token = fdtNop
      · rw [if_pos isNop]
        exact safe_pure _ _ (onward ⟨after, depth⟩ (by dsimp only; omega) (by dsimp only; omega) (by dsimp only; omega))
      · rw [if_neg isNop]
        exact safe_missing _

-- A loop over a node's children: each child lies behind the node and before
-- the end of the structure block.
theorem safe_for_each {σ β : Type} (node : Node) (iter : NodeIter) (above : Onward low node.offset) (bounded : iter.Bounded)
    (behind : iter.offset ≠ 0 → Onward (node.offset + 4) iter.offset) (enough : limit < fuel)
    (body : Node → σ → Reading (Round σ β)) (finish : σ → β) (inv : σ → Prop) (post : β → Prop) (start : σ)
    (holds : inv start) (ends : ∀ state, inv state → post (finish state))
    (step : ∀ child state, inv state → Onward (node.offset + 4) child.offset → child.offset + 4 ≤ fdt.structStop →
      Safe (fdt.From low) fuel mem (body child state) fun round =>
        match round with
        | .again later => inv later
        | .done b => post b) :
    Safe (fdt.From low) fuel mem (fdt.forEach body finish iter start) post := by
  have stops := fair_limits fair
  refine safe_loop
    (fun at_ : NodeIter × σ => at_.1.Bounded ∧ (at_.1.offset ≠ 0 → Onward (node.offset + 4) at_.1.offset) ∧ inv at_.2)
    (fun at_ => fdt.structStop - at_.1.offset) ?_ (iter, start) ⟨bounded, behind, holds⟩
    (by dsimp only; omega)
  rintro ⟨iter, state⟩ ⟨bounded, behind, holds⟩
  have lowest : iter.offset ≠ 0 → Onward low iter.offset := fun going => by
    have past := behind going
    dsimp only at past
    omega
  refine safe_bind (safe_attempt (safe_next fair iter bounded lowest enough)) fun found known => ?_
  cases found with
  | none => exact safe_pure _ _ (ends state holds)
  | some pair =>
      obtain ⟨child, after⟩ := pair
      obtain ⟨going, forward, inside, beyond, further⟩ := known (child, after) rfl
      dsimp only at forward inside beyond further
      have past := (behind going).trans forward
      refine safe_bind (step child state holds past inside) fun round kept => ?_
      cases round with
      | again later =>
          have later_on := (onward_self (node.offset + 4)).trans past
          exact safe_pure _ _ ⟨⟨further, fun _ => by dsimp only; omega, kept⟩, by dsimp only; omega⟩
      | done b => exact safe_pure _ _ kept

theorem holds_of_child (child : Node) (inside : child.offset + 4 ≤ fdt.structStop) : fdt.Holds child :=
  le_trans inside (fair_limits fair).1

theorem safe_exhaust (node : Node) (holds : fdt.Holds node) (above : Onward low node.offset) (enough : limit < fuel) :
    Safe (fdt.From low) fuel mem (fdt.children node >>= fdt.exhaust) fun kids =>
      ∀ kid ∈ kids, Onward (node.offset + 4) kid.offset ∧ kid.offset + 4 ≤ fdt.structStop := by
  refine safe_bind (safe_children fair node holds above enough) fun iter known => ?_
  refine safe_for_each fair node iter above known.1 known.2 enough _ _
    (fun kids => ∀ kid ∈ kids, Onward (node.offset + 4) kid.offset ∧ kid.offset + 4 ≤ fdt.structStop) _ []
    (fun _ no => absurd no List.not_mem_nil) (fun kids all kid member => all kid member) fun child kids all past inside => ?_
  refine safe_pure _ _ fun kid member => ?_
  rcases List.mem_append.mp member with before | last
  · exact all kid before
  · exact List.mem_singleton.mp last ▸ ⟨past, inside⟩

omit fair in
theorem safe_matches_component (full component : List UInt8) :
    Safe (fdt.From low) fuel mem (Fdtr.matchesComponent full component) fun _ => True := by
  unfold Fdtr.matchesComponent
  split_ifs
  · exact safe_pure _ _ trivial
  · exact safe_pure _ _ trivial
  · cases found : full.findIdx? (· = Fdtr.atSign) with
    | none => exact safe_pure _ _ trivial
    | some atPos =>
        obtain ⟨inside, hit, _⟩ := List.findIdx?_eq_some_iff_getElem.mp found
        have boundary : (full[atPos]?).any continuation = false := by
          rw [List.getElem?_eq_getElem inside, of_decide_eq_true hit]
          rfl
        refine safe_bind (p := fun _ => True) ?_ fun bare _ => safe_pure _ _ trivial
        rw [Fdtr.sliceStr, boundary, if_neg Bool.false_ne_true]
        exact (safe_slice full 0 atPos (Nat.zero_le _) (Nat.le_of_lt inside)).weaken fun _ _ => trivial

theorem safe_find_child (node : Node) (component : List UInt8) (holds : fdt.Holds node) (above : Onward low node.offset)
    (enough : limit < fuel) :
    Safe (fdt.From low) fuel mem (fdt.findChild node component) fun found =>
      ∀ child, found = some child → fdt.Holds child ∧ Onward (node.offset + 4) child.offset := by
  refine safe_bind (safe_children fair node holds above enough) fun iter known => ?_
  refine safe_for_each fair node iter above known.1 known.2 enough _ _ (fun _ => True) _ () trivial
    (fun _ _ _ no => (by cases no)) fun child _ _ past inside => ?_
  have kept := holds_of_child fair child inside
  refine safe_bind (safe_full_name fair child kept (by omega) enough) fun full _ => ?_
  refine safe_bind (safe_matches_component full component) fun hit _ => ?_
  split_ifs
  · exact safe_pure _ _ fun other same => Option.some.inj same ▸ ⟨kept, past⟩
  · exact safe_pure _ _ trivial

theorem safe_find (path : List UInt8) (above : Onward low fdt.header.offDtStruct) (enough : limit < fuel) :
    Safe (fdt.From low) fuel mem (fdt.find path) fun node => fdt.Holds node ∧ Onward fdt.header.offDtStruct node.offset := by
  refine safe_bind (safe_root fair above) fun root starts => ?_
  generalize Fdtr.components path = components
  induction components generalizing root with
  | nil => exact safe_pure _ _ starts
  | cons component rest ih =>
      rw [List.foldlM_cons]
      refine safe_bind ?_ ih
      refine safe_bind (safe_find_child fair root component starts.1 (above.trans starts.2) enough) fun found known => ?_
      cases found with
      | none => exact safe_missing _
      | some child =>
          obtain ⟨kept, past⟩ := known child rfl
          exact safe_pure _ _ ⟨kept, by omega⟩

theorem safe_find_by_compatible_in (substr : List UInt8) (node : Node) (holds : fdt.Holds node) (above : Onward low node.offset)
    (enough : limit < fuel) :
    Safe (fdt.From low) fuel mem (fdt.findByCompatibleIn substr node) fun found =>
      ∀ hit, found = some hit → fdt.Holds hit ∧ Onward low hit.offset := by
  have stops := fair_limits fair
  refine safe_recurse (p := fun _ found => ∀ hit, found = some hit → fdt.Holds hit ∧ Onward low hit.offset)
    (fun node => fdt.Holds node ∧ Onward low node.offset) (fun node => fdt.structStop - node.offset) ?_ node ⟨holds, above⟩ (by omega)
  rintro call node ⟨holds, above⟩ below
  refine safe_bind (safe_compatible fair node holds above enough) fun text _ => ?_
  split_ifs
  · exact safe_pure _ _ fun hit same => Option.some.inj same ▸ ⟨holds, above⟩
  · refine safe_bind (safe_children fair node holds above enough) fun iter known => ?_
    refine safe_for_each fair node iter above known.1 known.2 enough _ _ (fun _ => True) _ () trivial
      (fun _ _ _ no => (by cases no)) fun child _ _ past inside => ?_
    refine safe_bind (below child ⟨holds_of_child fair child inside, by omega⟩ (by omega)) fun found kept => ?_
    cases found with
    | none => exact safe_pure _ _ trivial
    | some hit => exact safe_pure _ _ kept

theorem safe_find_by_compatible (substr : List UInt8) (above : Onward low fdt.header.offDtStruct) (enough : limit < fuel) :
    Safe (fdt.From low) fuel mem (fdt.findByCompatible substr) fun node => fdt.Holds node ∧ Onward low node.offset := by
  refine safe_bind (safe_root fair above) fun root starts => ?_
  refine safe_bind (safe_find_by_compatible_in fair substr root starts.1 (above.trans starts.2) enough) fun found known => ?_
  cases found with
  | none => exact safe_missing _
  | some hit => exact safe_pure _ _ (known hit rfl)

omit fair in
theorem safe_shown_string (data : List UInt8) :
    Safe (fdt.From low) fuel mem (Fdtr.shownString data) fun _ => True := by
  unfold Fdtr.shownString
  by_cases ends : data.getLast? = some 0
  · rw [if_pos ends]
    have some_ : 0 < data.length := by
      refine List.length_pos_of_ne_nil ?_
      rintro rfl
      cases ends
    refine safe_bind (safe_sub data.length 1 some_) fun len less => ?_
    refine safe_bind (safe_slice data 0 len (Nat.zero_le _) (by omega)) fun text _ => ?_
    split_ifs
    · exact safe_pure _ _ trivial
    · exact safe_pure _ _ trivial
    · exact safe_pure _ _ trivial
  · rw [if_neg ends]
    exact safe_pure _ _ trivial

omit fair in
theorem safe_cells_of (data : List UInt8) (short : data.length < 2 ^ 32) (cells : List Nat)
    (all : ∀ i ∈ cells, i * 4 + 4 ≤ data.length) : Safe (fdt.From low) fuel mem (Fdtr.cellsOf data cells) fun _ => True := by
  induction cells with
  | nil => exact safe_pure _ _ trivial
  | cons i rest ih =>
      have inside := all i List.mem_cons_self
      refine safe_bind (safe_mul i 4 (by unfold wordEnd; omega)) fun start first => ?_
      refine safe_bind (safe_add start 4 (by unfold wordEnd; omega)) fun stop last => ?_
      refine safe_bind (safe_slice data start stop (by omega) (by omega)) fun cell _ => ?_
      refine safe_bind (ih fun j later => all j (List.mem_cons_of_mem i later)) fun words _ => ?_
      exact safe_pure _ _ trivial

omit fair in
theorem safe_print_prop_value (data : List UInt8) (short : data.length < 2 ^ 32) :
    Safe (fdt.From low) fuel mem (Fdtr.printPropValue data) fun _ => True := by
  unfold Fdtr.printPropValue
  by_cases empty : data = []
  · rw [if_pos empty]
    exact safe_pure _ _ trivial
  · rw [if_neg empty]
    refine safe_bind (safe_shown_string data) fun text _ => ?_
    cases text with
    | some shown => exact safe_pure _ _ trivial
    | none =>
        dsimp only
        split_ifs
        · refine safe_bind (safe_cells_of data short _ fun i member => ?_) fun words _ => safe_pure _ _ trivial
          have low := List.mem_range.mp member
          omega
        · exact safe_pure _ _ trivial

theorem safe_dump_prop (off : Nat) (above : Onward low off) (near : off ≤ 2 ^ 34) (enough : limit < fuel) :
    Safe (fdt.From low) fuel mem (fdt.dumpProp off) fun found =>
      ∀ prop, found = some prop → prop.2.1.length < 2 ^ 32 ∧ Onward (off + 4) prop.2.2 ∧ prop.2.2 ≤ 2 ^ 34 := by
  have stops := fair_limits fair
  have nothing : ∀ prop : List UInt8 × List UInt8 × Nat, (none : Option _) = some prop →
      prop.2.1.length < 2 ^ 32 ∧ Onward (off + 4) prop.2.2 ∧ prop.2.2 ≤ 2 ^ 34 := fun _ no => (by cases no)
  refine safe_bind (safe_attempt (safe_struct_u32 fair off above)) fun token inside => ?_
  split_ifs with isProp
  · exact safe_pure _ _ nothing
  · refine safe_bind (safe_add off 4 (by unfold wordEnd; omega)) fun after passed => ?_
    refine safe_bind (safe_attempt (safe_struct_u32 fair after (by omega))) fun len narrow => ?_
    cases len with
    | none => exact safe_pure _ _ nothing
    | some len =>
        obtain ⟨narrow, _⟩ := narrow len rfl
        refine safe_bind (safe_add after 4 (by unfold wordEnd; omega)) fun nameoffAt _ => ?_
        refine safe_bind (safe_attempt (safe_struct_u32 fair nameoffAt (by omega))) fun nameoff _ => ?_
        cases nameoff with
        | none => exact safe_pure _ _ nothing
        | some nameoff =>
            refine safe_bind (safe_add after 8 (by unfold wordEnd; omega)) fun body headed => ?_
            refine safe_bind (safe_attempt (safe_string_at fair nameoff enough)) fun pname _ => ?_
            refine safe_bind (safe_attempt (safe_struct_bytes fair body len)) fun data lies => ?_
            cases data with
            | none => exact safe_pure _ _ nothing
            | some data =>
                obtain ⟨at_, fits⟩ := lies data rfl
                subst at_
                refine safe_bind (safe_slice_bytes body len (by omega) fits) fun bytes same => ?_
                refine safe_bind (safe_add len 3 (by unfold wordEnd; omega)) fun padded wide => ?_
                have masked := mask4_le padded
                have whole := mask4_mod padded
                refine safe_bind (safe_add body (mask4 padded) (by unfold wordEnd; omega)) fun next moved => ?_
                refine safe_pure _ _ fun prop here => ?_
                obtain rfl := Option.some.inj here
                exact ⟨by dsimp only; omega, by dsimp only; omega, by dsimp only; omega⟩

theorem safe_dump_props (depth off : Nat) (shallow : depth ≤ 2 ^ 32) (above : Onward low off) (near : off ≤ 2 ^ 34)
    (enough : limit < fuel) :
    Safe (fdt.From low) fuel mem (fdt.dumpProps depth fdt.structStop off) fun _ => True := by
  have stops := fair_limits fair
  refine safe_loop (fun at_ : Nat × List Fdtr.Line => Onward low at_.1 ∧ at_.1 ≤ 2 ^ 34) (fun at_ => fdt.structStop - at_.1)
    ?_ (off, []) ⟨above, near⟩ (by dsimp only; omega)
  rintro ⟨off, lines⟩ ⟨above, near⟩
  unfold Fdtr.dumpRound
  dsimp only at above near ⊢
  refine safe_bind (safe_add off 4 (by unfold wordEnd; omega)) fun offEnd ends => ?_
  split_ifs with inside
  · refine safe_bind (safe_dump_prop fair off above near enough) fun found known => ?_
    cases found with
    | none => exact safe_pure _ _ trivial
    | some prop =>
        obtain ⟨pname, data, next⟩ := prop
        obtain ⟨short, moves, far⟩ := known _ rfl
        refine safe_bind (safe_add depth 1 (by unfold wordEnd; omega)) fun deeper one => ?_
        refine safe_bind (p := fun _ => True) ?_ fun indent _ => ?_
        · refine safe_bind (safe_mul deeper 2 (by unfold wordEnd; omega)) fun wide _ => safe_pure _ _ trivial
        · refine safe_bind (safe_print_prop_value data short) fun value _ => ?_
          dsimp only at moves
          exact safe_pure _ _ ⟨⟨by dsimp only; omega, far⟩, by dsimp only; omega⟩
  · exact safe_pure _ _ trivial

theorem safe_dump_node (node : Node) (holds : fdt.Holds node) (above : Onward low node.offset) (enough : limit < fuel) :
    Safe (fdt.From low) fuel mem (fdt.dumpNode (node, 0)) fun _ => True := by
  have stops := fair_limits fair
  refine safe_recurse (p := fun _ _ => True) (fun at_ : Node × Nat => fdt.Holds at_.1 ∧ at_.2 ≤ at_.1.offset ∧ Onward low at_.1.offset)
    (fun at_ => fdt.structStop - at_.1.offset) ?_ (node, 0) ⟨holds, Nat.zero_le _, above⟩ (by dsimp only; omega)
  rintro call ⟨node, depth⟩ ⟨holds, shallow, above⟩ below
  have inside := holds
  unfold Fdtr.Holds at inside
  unfold Fdtr.dumpCall
  dsimp only at inside shallow above below ⊢
  refine safe_bind (p := fun _ => True) ?_ fun indent _ => ?_
  · refine safe_bind (safe_mul depth 2 (by unfold wordEnd; omega)) fun wide _ => safe_pure _ _ trivial
  refine safe_bind (safe_full_name fair node holds above enough) fun name _ => ?_
  refine safe_bind (safe_add node.offset 4 (by unfold wordEnd; omega)) fun nameOff starts => ?_
  refine safe_bind (safe_attempt (safe_struct_cstr fair nameOff (by omega) enough)) fun nodeName known => ?_
  have short : (nodeName.getD []).length < 2 ^ 32 := by
    cases nodeName with
    | none => exact Nat.two_pow_pos 32
    | some text =>
        have within := known text rfl
        change text.length < 2 ^ 32
        omega
  refine safe_bind (safe_padded_name _ short) fun padded wide => ?_
  refine safe_bind (safe_add nameOff padded (by unfold wordEnd; omega)) fun off behind => ?_
  refine safe_bind (safe_struct_end fair) fun stop same => ?_
  subst same
  refine safe_bind (safe_dump_props fair depth off (by omega) (by omega) (by omega) enough) fun props _ => ?_
  refine safe_bind (safe_children fair node holds above enough) fun iter known => ?_
  refine safe_bind (p := fun _ => True) ?_ fun lines _ => safe_pure _ _ trivial
  refine safe_for_each fair node iter above known.1 known.2 enough _ _ (fun _ => True) _ [] trivial (fun _ _ => trivial)
    fun child lines _ past within => ?_
  refine safe_bind (safe_add depth 1 (by unfold wordEnd; omega)) fun deeper one => ?_
  refine safe_bind (below (child, deeper) ⟨holds_of_child fair child within, by dsimp only; omega, by dsimp only; omega⟩
    (by dsimp only; omega)) fun more _ => safe_pure _ _ trivial

theorem safe_dump (above : Onward low fdt.header.offDtStruct) (enough : limit < fuel) :
    Safe (fdt.From low) fuel mem fdt.dump fun _ => True := by
  refine safe_bind (safe_attempt (safe_root fair above)) fun root known => ?_
  cases root with
  | none => exact safe_pure _ _ trivial
  | some root =>
      refine safe_bind (safe_dump_node fair root (known root rfl).1 (above.trans (known root rfl).2) enough) fun lines _ => safe_pure _ _ trivial

end

-- A double word of the blob, in step with the reserve map.
structure Fdtr.Entry (fdt : Fdtr) (read : Load) : Prop where
  inside : fdt.Inside read
  starts : fdt.base + fdt.header.offMemRsvmap ≤ read.start
  width : read.width = 8
  step : read.start % 8 = (fdt.base + fdt.header.offMemRsvmap) % 8

theorem Fdtr.Entry.aligned {fdt : Fdtr} {read : Load} (entry : fdt.Entry read)
    (starts : fdt.header.offMemRsvmap + 8 ≤ fdt.header.totalsize → (fdt.base + fdt.header.offMemRsvmap) % 8 = 0) :
    read.Aligned := by
  have last := entry.inside.2
  have first := entry.starts
  have width := entry.width
  rw [Load.Aligned, width, entry.step]
  exact starts (by omega)

section
variable (sound : fdt.Sound)
include sound

theorem struct_stop_small : fdt.structStop ≤ fdt.header.totalsize ∧ fdt.structStop < 2 ^ 32 :=
  ⟨sound.structEnd, Nat.lt_of_le_of_lt sound.structEnd sound.small⟩

theorem safe_read_be_u64 (offset : Nat) (past : fdt.header.offMemRsvmap ≤ offset)
    (step : offset % 8 = fdt.header.offMemRsvmap % 8) :
    Safe fdt.Entry fuel mem (fdt.structU64 offset) fun _ => offset + 8 ≤ fdt.header.totalsize := by
  have room := sound.room
  refine safe_bind (safe_checked_add offset 8) fun stop fits => ?_
  split_ifs with high
  · exact safe_missing _
  · refine safe_bind (safe_add fdt.base offset (by omega)) fun address at_ => ?_
    subst at_
    refine safe_bind (safe_fetch (fdt.base + offset) 8 ⟨⟨?_, ?_⟩, Nat.add_le_add_left past _, rfl, ?_⟩) fun raw _ => ?_
    · exact Nat.le_add_right _ _
    · dsimp only
      omega
    · dsimp only
      omega
    exact safe_pure _ _ (by omega)

theorem safe_reserves (enough : fdt.header.totalsize < fuel) :
    Safe fdt.Entry fuel mem fdt.reserves fun _ => True := by
  have small := sound.small
  have near := sound.reserves
  refine safe_loop
    (fun at_ : Nat × List ReserveEntry =>
      at_.1 < 2 ^ 33 ∧ fdt.header.offMemRsvmap ≤ at_.1 ∧ at_.1 % 8 = fdt.header.offMemRsvmap % 8)
    (fun at_ => fdt.header.totalsize - at_.1) ?_ (fdt.header.offMemRsvmap, []) ⟨by dsimp only; omega, le_refl _, rfl⟩
    (by dsimp only; omega)
  rintro ⟨offset, entries⟩ ⟨low, past, step⟩
  unfold Fdtr.reserveRound
  dsimp only at low past step ⊢
  refine safe_bind (safe_attempt
    (p := fun found : ReserveEntry × Nat => offset + 16 ≤ fdt.header.totalsize ∧ found.2 = offset + 16) ?_)
    fun found known => ?_
  · refine safe_bind (safe_read_be_u64 sound offset past step) fun address _ => ?_
    refine safe_bind (safe_add offset 8 (by unfold wordEnd; omega)) fun sizeAt second => ?_
    refine safe_bind (safe_read_be_u64 sound sizeAt (by omega) (by omega)) fun size inside => ?_
    split_ifs
    · exact safe_missing _
    · refine safe_bind (safe_add offset 16 (by unfold wordEnd; omega)) fun later moved => ?_
      exact safe_pure _ _ ⟨by omega, moved⟩
  · cases found with
    | none => exact safe_pure _ _ trivial
    | some pair =>
        obtain ⟨inside, moved⟩ := known pair rfl
        exact safe_pure _ _ ⟨⟨by dsimp only; omega, by dsimp only; omega, by dsimp only; omega⟩, by dsimp only; omega⟩

end

theorem ensures_read_be_u32 (base offset totalsize : Nat) :
    Ensures fuel mem (readBeU32 base offset totalsize) fun n => n < 2 ^ 32 := by
  refine ensures_bind (ensures_all _) fun stop _ => ?_
  split_ifs
  · exact ensures_missing _
  · refine ensures_bind (ensures_all _) fun address _ => ?_
    refine ensures_bind (ensures_fetch address 4) fun raw same => ensures_pure _ _ ?_
    have small := from_be_lt raw
    have length : raw.length = 4 := by simp [same, addresses]
    rw [length] at small
    exact small

theorem ensures_checked_add (a b : Nat) : Ensures fuel mem (checkedAdd a b) fun s => s = a + b := by
  unfold checkedAdd
  split_ifs
  · exact ensures_pure _ _ rfl
  · exact ensures_missing _

theorem new_sound (dtbPa : Nat) :
    Ensures fuel mem (Fdtr.new dtbPa) fun fdt => fdt.base + fdt.header.totalsize < wordEnd → fdt.Sound := by
  refine ensures_bind (ensures_all _) fun base _ => ?_
  refine ensures_bind (ensures_all _) fun magic _ => ?_
  split_ifs
  · exact ensures_missing _
  refine ensures_bind (ensures_read_be_u32 base 4 headerSize) fun totalsize small => ?_
  refine ensures_bind (ensures_all _) fun offDtStruct _ => ?_
  refine ensures_bind (ensures_all _) fun offDtStrings _ => ?_
  refine ensures_bind (ensures_read_be_u32 base 16 totalsize) fun offMemRsvmap near => ?_
  refine ensures_bind (ensures_all _) fun version _ => ?_
  refine ensures_bind (ensures_all _) fun lastCompVersion _ => ?_
  refine ensures_bind (ensures_all _) fun bootCpuidPhys _ => ?_
  refine ensures_bind (ensures_all _) fun sizeDtStrings _ => ?_
  refine ensures_bind (ensures_all _) fun sizeDtStruct _ => ?_
  refine ensures_bind (ensures_checked_add _ _) fun structEnd ends => ?_
  refine ensures_bind (ensures_checked_add _ _) fun stringsEnd stops => ?_
  split_ifs with outside early
  · exact ensures_missing _
  · exact ensures_missing _
  · refine ensures_pure _ _ fun room => ⟨small, ?_, ?_, ?_, near, room⟩ <;> dsimp only <;> omega

end

-- The nodes a caller can hold: what the calls on the blob have returned.
inductive Fdtr.Obtains (fdt : Fdtr) (fuel : Nat) (mem : Nat → UInt8) : Node → Prop
  | root (node : Node) (got : (fdt.root fuel mem).1 = .value node) : Obtains fdt fuel mem node
  | child (node : Node) (kids : List Node) (kid : Node) (parent : Obtains fdt fuel mem node)
      (got : ((fdt.children node >>= fdt.exhaust) fuel mem).1 = .value kids) (member : kid ∈ kids) :
      Obtains fdt fuel mem kid
  | find (path : List UInt8) (node : Node) (got : (fdt.find path fuel mem).1 = .value node) :
      Obtains fdt fuel mem node
  | compatible (substr : List UInt8) (node : Node) (got : (fdt.findByCompatible substr fuel mem).1 = .value node) :
      Obtains fdt fuel mem node

section
variable {fuel : Nat} {mem : Nat → UInt8} {fdt : Fdtr} (sound : fdt.Sound) (enough : fdt.header.totalsize < fuel)
include sound enough

theorem obtained_lies (node : Node) (obtained : fdt.Obtains fuel mem node) :
    fdt.Holds node ∧ Onward fdt.header.offDtStruct node.offset := by
  induction obtained with
  | root node got => exact (safe_root sound.fair (onward_self _)).ensures node got
  | child node kids kid _ got member lies =>
      obtain ⟨past, inside⟩ := (safe_exhaust sound.fair node lies.1 (onward_self _) enough).ensures kids got kid member
      exact ⟨holds_of_child sound.fair kid inside, by omega⟩
  | find path node got => exact (safe_find sound.fair path (onward_self _) enough).ensures node got
  | compatible substr node got => exact (safe_find_by_compatible sound.fair substr (onward_self _) enough).ensures node got

theorem obtained_holds (node : Node) (obtained : fdt.Obtains fuel mem node) : fdt.Holds node :=
  (obtained_lies sound enough node obtained).1

end

def be32 (n : Nat) : List UInt8 := [.ofNat (n / 2 ^ 24), .ofNat (n / 2 ^ 16), .ofNat (n / 2 ^ 8), .ofNat n]

def memoryAt (dtbPa : Nat) (bytes : List UInt8) (address : Nat) : UInt8 := bytes.getD (address - (kernelBase + dtbPa)) 0

-- A blob whose only property claims four gigabytes.
def hugeProperty : List UInt8 :=
  [fdtMagic, 60, 40, 56, 0xFFFFFFFF, 17, 16, 0, 4, 16, fdtBeginNode, 0, fdtProp, 0xFFFFFFFF, 0].flatMap be32

def hugePropertyFdt : Fdtr where
  base := 0xFFFF000040000000
  header := ⟨fdtMagic, 60, 40, 56, 0xFFFFFFFF, 17, 16, 0, 4, 16⟩

end Fdt

end Opal
