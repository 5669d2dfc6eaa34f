import Opal.Protection
import Mathlib.Tactic.Ring

set_option autoImplicit false

namespace Opal

namespace Mmu

def loadByte (mem : Memory) (pa : Nat) : UInt8 := .ofNat (mem (pa / 8 * 8) / 256 ^ (pa % 8))

-- USER_TABLES at 0, and the two task slots behind it.
def Layout.buildAt (layout : Layout) (mem : Memory) : Nat → Image → Option (Nat × Memory)
  | 0, prog => some (layout.buildUserSpaceWith mem prog)
  | slot + 1, prog => layout.buildTaskUserSpace mem slot prog

def Layout.spaceOf (layout : Layout) : Nat → Option UserSpace
  | 0 => some layout.singleSpace
  | slot + 1 => (layout.taskMem slot).map Layout.spaceAt

-- A store with these tables in TTBR0, by the task or by a handler on its
-- behalf. Where it is not allowed it faults.
def userStore (mem : Memory) (root va : Nat) (byte : UInt8) : Memory :=
  match translate mem root va with
  | some (pa, rights) => if rights.el0Write || rights.el1Write then storeByte mem pa byte else mem
  | none => mem

-- What happens to the user pages after boot: builds, and the stores of the
-- tasks that run.
inductive UserEvent where
  | build (k : Nat) (prog : Image)
  | store (k va : Nat) (byte : UInt8)

def UserEvent.next (layout : Layout) (mem : Memory) : UserEvent → Memory
  | build k prog =>
      match layout.buildAt mem k prog with
      | none => mem
      | some (_, mem) => mem
  | store k va byte =>
      match layout.spaceOf k with
      | none => mem
      | some space => if va >>> 48 = 0 then userStore mem space.l0 va byte else mem

-- What a task reads at an address, and what it may do there.
def seen (mem : Memory) (root va : Nat) : Option (UInt8 × Access) :=
  (translate mem root va).map fun hit => (loadByte mem hit.1, hit.2)

-- A program over what was in the code page, and what was in the stack page.
def imageOver (code stack : Nat → UInt8) (prog : Image) (va : Nat) : Option (UInt8 × Access) :=
  if userCode ≤ va ∧ va < userCode + granule then
    some (if va - userCode < prog.bytes.length then prog.bytes.getD (va - userCode) 0 else code (va - userCode),
      Attr.userRx.access)
  else if userStack ≤ va ∧ va < userStack + granule then some (stack (va - userStack), Attr.userRw.access)
  else none

-- The program and zeroes in the code page, zeroes in the stack page, and
-- nothing else.
def freshImage : Image → Nat → Option (UInt8 × Access) := imageOver (fun _ => 0) fun _ => 0

-- What is left in the two pages where this program does not overwrite it.
def Alike (prog : Image) (code stack code' stack' : Nat → UInt8) : Prop :=
  (∀ i, prog.bytes.length ≤ i → i < granule → code i = code' i) ∧ ∀ i, i < granule → stack i = stack' i

-- What a page of a user space holds.
def leftIn (mem : Memory) (page i : Nat) : UInt8 := loadByte mem (page + i)

-- A word of which the k-th byte is replaced, byte by byte.
theorem word_byte (word k m byte : Nat) (small : byte < 256) :
    (word / (256 ^ k * 256) * (256 ^ k * 256) + byte * 256 ^ k + word % 256 ^ k) / 256 ^ m % 256 =
      if m = k then byte else word / 256 ^ m % 256 := by
  have positive : ∀ n, 0 < 256 ^ n := fun n => Nat.pow_pos (by decide)
  have low : word % 256 ^ k < 256 ^ k := Nat.mod_lt _ (positive k)
  generalize top : word / (256 ^ k * 256) = high
  rcases Nat.lt_trichotomy m k with lower | rfl | higher
  · obtain ⟨d, rfl⟩ := Nat.exists_eq_add_of_lt lower
    rw [if_neg (by omega)]
    have split : 256 ^ (m + d + 1) = 256 ^ m * (256 * 256 ^ d) := by
      rw [Nat.pow_succ, Nat.pow_add]
      ring
    have whole := Nat.div_add_mod word (256 ^ (m + d + 1))
    generalize word % 256 ^ (m + d + 1) = rest at *
    have new : high * (256 ^ (m + d + 1) * 256) + byte * 256 ^ (m + d + 1) + rest =
        rest + 256 ^ m * (256 * (256 ^ d * (high * 256 + byte))) := by
      rw [split]
      ring
    have old : word = rest + 256 ^ m * (256 * (256 ^ d * (word / 256 ^ (m + d + 1)))) := by
      generalize word / 256 ^ (m + d + 1) = part at whole
      rw [← whole, split]
      ring
    rw [new, Nat.add_mul_div_left _ _ (positive m), Nat.add_mul_mod_self_left]
    conv_rhs => rw [old, Nat.add_mul_div_left _ _ (positive m), Nat.add_mul_mod_self_left]
  · have new : high * (256 ^ m * 256) + byte * 256 ^ m + word % 256 ^ m =
        word % 256 ^ m + 256 ^ m * (byte + 256 * high) := by ring
    rw [if_pos rfl, new, Nat.add_mul_div_left _ _ (positive m), Nat.div_eq_of_lt low, Nat.zero_add,
      Nat.add_mul_mod_self_left]
    exact Nat.mod_eq_of_lt small
  · obtain ⟨d, rfl⟩ := Nat.exists_eq_add_of_lt higher
    have split : 256 ^ (k + d + 1) = 256 ^ k * 256 * 256 ^ d := by
      rw [Nat.pow_succ, Nat.pow_add]
      ring
    have rest : byte * 256 ^ k + word % 256 ^ k < 256 ^ k * 256 := by
      calc byte * 256 ^ k + word % 256 ^ k < byte * 256 ^ k + 256 ^ k := Nat.add_lt_add_left low _
        _ = (byte + 1) * 256 ^ k := by ring
        _ ≤ 256 * 256 ^ k := Nat.mul_le_mul_right _ small
        _ = 256 ^ k * 256 := Nat.mul_comm ..
    have new : high * (256 ^ k * 256) + byte * 256 ^ k + word % 256 ^ k =
        byte * 256 ^ k + word % 256 ^ k + 256 ^ k * 256 * high := by ring
    rw [if_neg (by omega), split, ← Nat.div_div_eq_div_mul, ← Nat.div_div_eq_div_mul _ (256 ^ k * 256), top, new,
      Nat.add_mul_div_left _ _ (Nat.mul_pos (positive k) (by decide)), Nat.div_eq_of_lt rest, Nat.zero_add]

theorem load_store (mem : Memory) (a b : Nat) (byte : UInt8) :
    loadByte (storeByte mem a byte) b = if b = a then byte else loadByte mem b := by
  unfold loadByte storeByte store
  refine UInt8.toNat_inj.mp ?_
  by_cases word : b / 8 * 8 = a / 8 * 8
  · rw [word, Function.update_self, UInt8.toNat_ofNat', word_byte _ _ _ _ byte.toNat_lt]
    by_cases same : b = a
    · rw [if_pos same, if_pos (by rw [same])]
    · rw [if_neg same, if_neg (by omega), UInt8.toNat_ofNat']
  · rw [Function.update_of_ne word, if_neg fun same => word (by rw [same])]

theorem load_copied (mem : Memory) (pa a : Nat) (bytes : List UInt8) :
    loadByte (copyBytes mem pa bytes) a =
      if pa ≤ a ∧ a < pa + bytes.length then bytes.getD (a - pa) 0 else loadByte mem a := by
  induction bytes generalizing mem pa with
  | nil => rw [if_neg (by simp), copyBytes]
  | cons byte rest ih =>
      rw [copyBytes, ih, load_store, List.length_cons]
      by_cases first : a = pa
      · subst first
        rw [if_neg (by omega), if_pos rfl, if_pos (by omega), Nat.sub_self]
        rfl
      · by_cases inside : pa + 1 ≤ a ∧ a < pa + 1 + rest.length
        · rw [if_pos inside, if_pos (by omega), show a - pa = a - (pa + 1) + 1 by omega]
          rfl
        · rw [if_neg inside, if_neg first, if_neg (by omega)]

section
variable (prog : Image) (code stack code' stack' : Nat → UInt8)

theorem image_code (i : Nat) (inside : i < granule) : imageOver code stack prog (userCode + i) =
    some (if i < prog.bytes.length then prog.bytes.getD i 0 else code i, Attr.userRx.access) := by
  rw [imageOver, if_pos ⟨Nat.le_add_right _ _, Nat.add_lt_add_left inside _⟩, Nat.add_sub_cancel_left]

theorem image_stack (i : Nat) (inside : i < granule) : imageOver code stack prog (userStack + i) =
    some (stack i, Attr.userRw.access) := by
  have base : userCode = 0x100000 := rfl
  have top : userStack = 0x200000 := rfl
  have size : granule = 2 ^ 14 := rfl
  rw [imageOver, if_neg (by omega), if_pos ⟨Nat.le_add_right _ _, Nat.add_lt_add_left inside _⟩, Nat.add_sub_cancel_left]

theorem image_over_iff :
    (∀ va, va >>> 48 = 0 → imageOver code stack prog va = imageOver code' stack' prog va) ↔
      Alike prog code stack code' stack' := by
  have base : userCode = 0x100000 := rfl
  have top : userStack = 0x200000 := rfl
  have size : granule = 2 ^ 14 := rfl
  constructor
  · intro same
    refine ⟨fun i past inside => ?_, fun i inside => ?_⟩
    · have here := same (userCode + i) (by rw [Nat.shiftRight_eq_div_pow]; omega)
      rw [image_code prog code stack i inside, image_code prog code' stack' i inside, if_neg (by omega),
        if_neg (by omega)] at here
      exact congrArg Prod.fst (Option.some.inj here)
    · have here := same (userStack + i) (by rw [Nat.shiftRight_eq_div_pow]; omega)
      rw [image_stack prog code stack i inside, image_stack prog code' stack' i inside] at here
      exact congrArg Prod.fst (Option.some.inj here)
  · rintro ⟨same_code, same_stack⟩ va _
    unfold imageOver
    by_cases inCode : userCode ≤ va ∧ va < userCode + granule
    · rw [if_pos inCode, if_pos inCode]
      by_cases written : va - userCode < prog.bytes.length
      · rw [if_pos written, if_pos written]
      · rw [if_neg written, if_neg written, same_code _ (by omega) (by omega)]
    · rw [if_neg inCode, if_neg inCode]
      by_cases inStack : userStack ≤ va ∧ va < userStack + granule
      · rw [if_pos inStack, if_pos inStack, same_stack _ (by omega)]
      · rw [if_neg inStack, if_neg inStack]

end

section
variable (layout : Layout)

theorem space_of_cases (k : Nat) (space : UserSpace) (found : layout.spaceOf k = some space) :
    k < 3 ∧ space = layout.space k := by
  match k with
  | 0 => exact ⟨by omega, (Option.some.inj found).symm⟩
  | 1 => exact ⟨by omega, (Option.some.inj found).symm⟩
  | 2 => exact ⟨by omega, (Option.some.inj found).symm⟩
  | _ + 3 => cases found

theorem build_at_cases (mem : Memory) (k : Nat) (prog : Image) (made : Nat × Memory)
    (built : layout.buildAt mem k prog = some made) : k < 3 ∧ made = (layout.space k).build mem prog := by
  match k with
  | 0 => exact ⟨by omega, (Option.some.inj built).symm⟩
  | 1 => exact ⟨by omega, (Option.some.inj built).symm⟩
  | 2 => exact ⟨by omega, (Option.some.inj built).symm⟩
  | _ + 3 => cases built

theorem load_frame (mem : Memory) (k f i : Nat) :
    loadByte mem (layout.frame k f + i) = .ofNat (mem (layout.frame k f + i / 8 * 8) / 256 ^ (i % 8)) := by
  have aligned := frame_aligned layout k f
  unfold loadByte
  rw [show (layout.frame k f + i) / 8 * 8 = layout.frame k f + i / 8 * 8 by omega,
    show (layout.frame k f + i) % 8 = i % 8 by omega]

theorem build_page (mem : Memory) (k : Nat) (k_small : k < 3) (prog : Image) (f i : Nat) (page : f = 4 ∨ f = 5)
    (inside : i < granule) :
    loadByte ((layout.space k).build mem prog).2 (layout.frame k f + i) =
      if f = 4 ∧ i < prog.bytes.length then prog.bytes.getD i 0 else loadByte mem (layout.frame k f + i) := by
  have size : granule = 2 ^ 14 := rfl
  have miss : ∀ mem g n desc, g < 4 → n < 2048 → loadByte (writeTable mem (layout.frame k g) n desc) (layout.frame k f + i) =
      loadByte mem (layout.frame k f + i) := by
    intro mem g n desc g_small n_small
    rw [load_frame, load_frame, write_frame layout mem k g n desc k f (i / 8) k_small (by omega) n_small k_small (by omega)
      (by omega), if_neg (by omega)]
  rw [build_writes, miss _ 3 128 _ (by omega) (by omega), miss _ 3 64 _ (by omega) (by omega),
    miss _ 2 0 _ (by omega) (by omega), miss _ 1 0 _ (by omega) (by omega), miss _ 0 0 _ (by omega) (by omega),
    load_copied]
  have fits := prog.fits
  have code := frame_aligned layout k 4
  have stack := frame_aligned layout k 5
  have apart : layout.frame k 4 ≠ layout.frame k 5 := fun same => by
    have no := (frame_injective layout k 4 k 5 k_small k_small (by omega) (by omega) same).2
    omega
  rcases page with rfl | rfl
  · by_cases written : i < prog.bytes.length
    · rw [if_pos (by omega), if_pos ⟨rfl, written⟩, Nat.add_sub_cancel_left]
    · rw [if_neg (by omega), if_neg (by omega)]
  · rw [if_neg (by omega), if_neg (by omega)]

theorem seen_built (made : List Nat) (mem : Memory) (furnished : Furnished layout made mem) (k : Nat) (k_small : k < 3)
    (prog : Image) (va : Nat) (low : va >>> 48 = 0) :
    seen ((layout.space k).build mem prog).2 (layout.space k).l0 va =
      imageOver (leftIn mem (layout.space k).code) (leftIn mem (layout.space k).stack) prog va := by
  have top : (layout.space k).l0 = layout.frame k 0 := rfl
  have after := build_space layout made mem furnished k k_small prog
  have code : (layout.space k).code = layout.frame k 4 := rfl
  have stack : (layout.space k).stack = layout.frame k 5 := rfl
  rw [Nat.shiftRight_eq_div_pow] at low
  rw [seen, top, user_translate layout _ _ after k k_small List.mem_cons_self va (by omega), UserSpace.maps, imageOver,
    code, stack]
  by_cases inCode : userCode ≤ va ∧ va < userCode + granule
  · rw [if_pos inCode, if_pos inCode, Option.map_some, build_page layout mem k k_small prog 4 _ (.inl rfl) (by omega)]
    by_cases written : va - userCode < prog.bytes.length
    · rw [if_pos ⟨rfl, written⟩, if_pos written]
    · rw [if_neg fun both => written both.2, if_neg written]
      rfl
  · rw [if_neg inCode, if_neg inCode]
    by_cases inStack : userStack ≤ va ∧ va < userStack + granule
    · rw [if_pos inStack, if_pos inStack, Option.map_some,
        build_page layout mem k k_small prog 5 _ (.inr rfl) (by omega), if_neg (by omega)]
      rfl
    · rw [if_neg inStack, if_neg inStack]
      rfl

theorem nothing_translates (made : List Nat) (mem : Memory) (furnished : Furnished layout made mem) (j : Nat) (j_small : j < 3)
    (unmade : j ∉ made) (va : Nat) : translate mem (layout.frame j 0) va = none := by
  have root := furnished j 0 (va / 2 ^ 47 % 2) j_small (by omega) (by omega)
  rw [if_neg unmade] at root
  rw [translate, indices_eq, TableTree.lookup, entry, if_pos (by omega), root, decode_zero]
  rfl

theorem store_furnished (made : List Nat) (mem : Memory) (furnished : Furnished layout made mem) (j : Nat) (j_small : j < 3)
    (va : Nat) (low : va < 2 ^ 48) (byte : UInt8) : Furnished layout made (userStore mem (layout.frame j 0) va byte) := by
  by_cases built : j ∈ made
  · rw [userStore, user_translate layout made mem furnished j j_small built va low, UserSpace.maps]
    by_cases inCode : userCode ≤ va ∧ va < userCode + granule
    · rw [if_pos inCode]
      exact furnished
    · rw [if_neg inCode]
      by_cases inStack : userStack ≤ va ∧ va < userStack + granule
      · rw [if_pos inStack]
        change Furnished layout made (storeByte mem (layout.frame j 5 + (va - userStack)) byte)
        have size : granule = 2 ^ 14 := rfl
        have aligned := frame_aligned layout j 5
        intro k f i k_small f_small i_small
        rw [← furnished k f i k_small f_small i_small]
        unfold storeByte store
        refine Function.update_of_ne (fun hit => ?_) ..
        have other := frame_aligned layout k f
        have frames : layout.frame k f = layout.frame j 5 := by omega
        have same := (frame_injective layout k f j 5 k_small j_small (by omega) (by omega) frames).2
        omega
      · rw [if_neg inStack]
        exact furnished
  · rw [userStore, nothing_translates layout made mem furnished j j_small built va]
    exact furnished

theorem user_step (mem : Memory) (event : UserEvent) (furnished : ∃ made, Furnished layout made mem) :
    ∃ made, Furnished layout made (event.next layout mem) := by
  obtain ⟨made, furnished⟩ := furnished
  cases event with
  | build k prog =>
      unfold UserEvent.next
      dsimp only
      cases built : layout.buildAt mem k prog with
      | none => exact ⟨made, furnished⟩
      | some pair =>
          obtain ⟨k_small, rfl⟩ := build_at_cases layout mem k prog pair built
          exact ⟨k :: made, build_space layout made mem furnished k k_small prog⟩
  | store k va byte =>
      unfold UserEvent.next
      dsimp only
      cases found : layout.spaceOf k with
      | none => exact ⟨made, furnished⟩
      | some space =>
          obtain ⟨k_small, rfl⟩ := space_of_cases layout k space found
          dsimp only
          split_ifs with low
          · rw [Nat.shiftRight_eq_div_pow] at low
            exact ⟨made, store_furnished layout made mem furnished k k_small va (by omega) byte⟩
          · exact ⟨made, furnished⟩

theorem user_run (mem : Memory) (zeroed : UserZeroed layout mem) (events : List UserEvent) :
    ∃ made, Furnished layout made (Run.exec (UserEvent.next layout) mem events) := by
  refine Run.invariant _ (fun _ _ => True) _ (fun mem event furnished _ => user_step layout mem event furnished) mem events
    ⟨[], fun j f i j_small f_small i_small => ?_⟩ (Run.along_of_forall _ _ (fun _ _ => trivial) _ _)
  rw [if_neg List.not_mem_nil]
  exact user_zeroed_frames layout mem zeroed j f i j_small f_small i_small

end

-- After any builds and stores, a build gives the program's own image exactly
-- when the slot's pages hold nothing but zeroes where it writes nothing, and
-- two histories give one image exactly when they leave the same there.
theorem image_fresh_iff (layout : Layout) (mem mem' : Memory) (zeroed : UserZeroed layout mem)
    (zeroed' : UserZeroed layout mem') (events events' : List UserEvent) (k : Nat) (space : UserSpace)
    (slot : layout.spaceOf k = some space) (prog : Image) (root root' : Nat) (built built' : Memory)
    (builds : layout.buildAt (Run.exec (UserEvent.next layout) mem events) k prog = some (root, built))
    (builds' : layout.buildAt (Run.exec (UserEvent.next layout) mem' events') k prog = some (root', built')) :
    ((∀ va, va >>> 48 = 0 → seen built root va = freshImage prog va) ↔
      Alike prog (leftIn (Run.exec (UserEvent.next layout) mem events) space.code)
        (leftIn (Run.exec (UserEvent.next layout) mem events) space.stack) (fun _ => 0) fun _ => 0) ∧
    ((∀ va, va >>> 48 = 0 → seen built root va = seen built' root' va) ↔
      Alike prog (leftIn (Run.exec (UserEvent.next layout) mem events) space.code)
        (leftIn (Run.exec (UserEvent.next layout) mem events) space.stack)
        (leftIn (Run.exec (UserEvent.next layout) mem' events') space.code)
        (leftIn (Run.exec (UserEvent.next layout) mem' events') space.stack)) := by
  obtain ⟨k_small, rfl⟩ := space_of_cases layout k space slot
  obtain ⟨made, furnished⟩ := user_run layout mem zeroed events
  obtain ⟨made', furnished'⟩ := user_run layout mem' zeroed' events'
  have same := (build_at_cases layout _ k prog _ builds).2
  have same' := (build_at_cases layout _ k prog _ builds').2
  have tree : root = (layout.space k).l0 := congrArg Prod.fst same
  have tree' : root' = (layout.space k).l0 := congrArg Prod.fst same'
  have memory : built = ((layout.space k).build _ prog).2 := congrArg Prod.snd same
  have memory' : built' = ((layout.space k).build _ prog).2 := congrArg Prod.snd same'
  have here := seen_built layout made _ furnished k k_small prog
  have there := seen_built layout made' _ furnished' k k_small prog
  rw [tree, tree', memory, memory', ← image_over_iff, ← image_over_iff]
  refine ⟨forall₂_congr fun va low => ?_, forall₂_congr fun va low => ?_⟩
  · rw [here va low, freshImage]
  · rw [here va low, there va low]

def longProgram : Image := ⟨[1, 2, 3, 4, 5, 6, 7, 8], Nat.le_of_ble_eq_true rfl⟩

def shortProgram : Image := ⟨[9, 10, 11, 12], Nat.le_of_ble_eq_true rfl⟩

-- The first build of a slot gives the program's own image.
theorem image_fresh_at_boot : ∃ root built,
    sampleLayout.buildAt (fun _ => 0) 1 shortProgram = some (root, built) ∧
      ∀ va, va >>> 48 = 0 → seen built root va = freshImage shortProgram va := by
  refine ⟨_, _, rfl, (image_fresh_iff sampleLayout (fun _ => 0) (fun _ => 0) (fun _ _ _ _ _ _ => rfl)
    (fun _ _ _ _ _ _ => rfl) [] [] 1 _ rfl shortProgram _ _ _ _ rfl rfl).1.mpr ⟨fun i _ _ => ?_, fun i _ => ?_⟩⟩
  · exact UInt8.toNat_inj.mp (congrArg (· % 2 ^ 8) (Nat.zero_div _))
  · exact UInt8.toNat_inj.mp (congrArg (· % 2 ^ 8) (Nat.zero_div _))

-- The second build shows the tail of the longer program before it.
theorem longer_program_shines_through : ∃ root built,
    sampleLayout.buildAt (Run.exec (UserEvent.next sampleLayout) (fun _ => 0) [.build 1 longProgram]) 1 shortProgram =
        some (root, built) ∧
      seen built root (userCode + 4) = some (5, Attr.userRx.access) ∧
        freshImage shortProgram (userCode + 4) = some (0, Attr.userRx.access) := by
  obtain ⟨made, furnished⟩ := user_run sampleLayout (fun _ => 0) (fun _ _ _ _ _ _ => rfl) [.build 1 longProgram]
  refine ⟨_, _, rfl, ?_, rfl⟩
  refine (seen_built sampleLayout made _ furnished 1 (by decide) shortProgram (userCode + 4) rfl).trans ?_
  rw [image_code _ _ _ 4 (by decide), if_neg (by decide)]
  have left := build_page sampleLayout (fun _ => 0) 1 (by decide) longProgram 4 4 (.inl rfl) (by decide)
  rw [if_pos (by decide)] at left
  exact congrArg (fun byte => some (byte, Attr.userRx.access)) left

end Mmu

end Opal
