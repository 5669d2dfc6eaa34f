import Opal.Ioremap
import Opal.UserTables

set_option autoImplicit false

namespace Opal

namespace Mmu

-- The granules of the three user spaces: four tables, the code page, the stack.
def Layout.frame (layout : Layout) (j f : Nat) : Nat :=
  if j = 0 then
    if f < 4 then layout.userTables + f * 2 ^ 14 else if f = 4 then layout.userCodePage else layout.userStackPage
  else if j = 1 then layout.taskMemA + f * 2 ^ 14
  else layout.taskMemB + f * 2 ^ 14

def Layout.space (layout : Layout) (j : Nat) : UserSpace :=
  ⟨layout.frame j 0, layout.frame j 1, layout.frame j 2, layout.frame j 3, layout.frame j 4, layout.frame j 5⟩

section
variable (layout : Layout)

theorem frame_aligned (j f : Nat) : layout.frame j f % 2 ^ 14 = 0 := by
  have aligned := layout.aligned
  have size : granule = 2 ^ 14 := rfl
  simp only [List.forall_mem_cons, size] at aligned
  obtain ⟨-, tables, code, stack, a, b, -⟩ := aligned
  unfold Layout.frame
  split_ifs <;> omega

theorem frame_outside (j f : Nat) (f_small : f < 6) :
    layout.frame j f < 2 ^ 48 ∧ (layout.frame j f + 2 ^ 14 ≤ layout.table 0 ∨ layout.table 14 ≤ layout.frame j f) := by
  have placed := layout.placed
  obtain ⟨fits, top, bottom⟩ := And.intro placed.fits (And.intro placed.stack_top placed.stack_bottom)
  have bss := layout.in_bss
  have apart := layout.apart
  have size : granule = 2 ^ 14 := rfl
  simp only [List.forall_mem_cons, List.pairwise_cons, size] at bss apart
  obtain ⟨-, tables, code, stack, a, b, -⟩ := bss
  obtain ⟨⟨from_tables, from_code, from_stack, from_a, from_b, -⟩, -⟩ := apart
  unfold Layout.frame Layout.table tableAt
  split_ifs <;> omega

theorem frame_injective (j f k g : Nat) (j_small : j < 3) (k_small : k < 3) (f_small : f < 6) (g_small : g < 6)
    (same : layout.frame j f = layout.frame k g) : j = k ∧ f = g := by
  have apart := layout.apart
  have size : granule = 2 ^ 14 := rfl
  simp only [List.forall_mem_cons, List.pairwise_cons, size] at apart
  obtain ⟨-, ⟨tables_code, tables_stack, tables_a, tables_b, -⟩, ⟨code_stack, code_a, code_b, -⟩, ⟨stack_a, stack_b, -⟩,
    ⟨a_b, -⟩, -⟩ := apart
  unfold Layout.frame at same
  split_ifs at same <;> omega

theorem write_frame (mem : Memory) (j f i desc k g n : Nat) (j_small : j < 3) (f_small : f < 6) (i_small : i < 2048)
    (k_small : k < 3) (g_small : g < 6) (n_small : n < 2048) :
    writeTable mem (layout.frame j f) i desc (layout.frame k g + n * 8) =
      if k = j ∧ g = f ∧ n = i then desc else mem (layout.frame k g + n * 8) := by
  have aligned := frame_aligned layout j f
  have aligned' := frame_aligned layout k g
  unfold writeTable store
  by_cases same : k = j ∧ g = f ∧ n = i
  · obtain ⟨rfl, rfl, rfl⟩ := same
    rw [if_pos ⟨rfl, rfl, rfl⟩, Function.update_self]
  · rw [if_neg same, Function.update_of_ne]
    intro hit
    have frames : layout.frame j f = layout.frame k g := by omega
    obtain ⟨rfl, rfl⟩ := frame_injective layout j f k g j_small k_small f_small g_small frames
    exact same ⟨rfl, rfl, by omega⟩

end

theorem copy_elsewhere (mem : Memory) (pa a : Nat) (bytes : List UInt8) (away : a < pa / 8 * 8 ∨ pa + bytes.length ≤ a) :
    copyBytes mem pa bytes a = mem a := by
  induction bytes generalizing mem pa with
  | nil => rfl
  | cons byte rest ih =>
      rw [List.length_cons] at away
      rw [copyBytes, ih _ _ (by omega)]
      unfold storeByte store
      exact Function.update_of_ne (by omega) ..

-- What stands in the tables of a user space that is built.
def userWord (space : UserSpace) : Nat → Nat → Nat
  | 0, i => if i = 0 then tableDesc space.l1 else 0
  | 1, i => if i = 0 then tableDesc space.l2 else 0
  | 2, i => if i = 0 then tableDesc space.l3 else 0
  | _, i => if i = 64 then pageDesc space.code .userRx else if i = 128 then pageDesc space.stack .userRw else 0

theorem user_word_leaf (space : UserSpace) (i : Nat) :
    userWord space 3 i =
      if i = 64 then pageDesc space.code .userRx else if i = 128 then pageDesc space.stack .userRw else 0 := rfl

-- The user tables hold what belongs into them, or zeroes.
def Furnished (layout : Layout) (made : List Nat) (mem : Memory) : Prop :=
  ∀ j f i, j < 3 → f < 4 → i < 2048 →
    mem (layout.frame j f + i * 8) = if j ∈ made then userWord (layout.space j) f i else 0

section
variable (layout : Layout)

theorem build_writes (k : Nat) (mem : Memory) (prog : Image) :
    ((layout.space k).build mem prog).2 =
      writeTable (writeTable (writeTable (writeTable (writeTable (copyBytes mem (layout.frame k 4) prog.bytes)
        (layout.frame k 0) 0 (tableDesc (layout.frame k 1))) (layout.frame k 1) 0 (tableDesc (layout.frame k 2)))
        (layout.frame k 2) 0 (tableDesc (layout.frame k 3))) (layout.frame k 3) 64 (pageDesc (layout.frame k 4) .userRx))
        (layout.frame k 3) 128 (pageDesc (layout.frame k 5) .userRw) := rfl

theorem build_space (made : List Nat) (mem : Memory) (furnished : Furnished layout made mem) (k : Nat) (k_small : k < 3)
    (prog : Image) : Furnished layout (k :: made) ((layout.space k).build mem prog).2 := by
  intro j f i j_small f_small i_small
  have copied : copyBytes mem (layout.frame k 4) prog.bytes (layout.frame j f + i * 8) = mem (layout.frame j f + i * 8) := by
    have aligned := frame_aligned layout j f
    have page := frame_aligned layout k 4
    have fits := prog.fits
    have size : granule = 2 ^ 14 := rfl
    refine copy_elsewhere mem _ _ _ ?_
    by_contra inside
    have frames : layout.frame j f = layout.frame k 4 := by omega
    have same := frame_injective layout j f k 4 j_small k_small (by omega) (by omega) frames
    omega
  have before := furnished j f i j_small f_small i_small
  rw [← copied] at before
  rw [build_writes, write_frame layout _ k 3 128 _ j f i k_small (by omega) (by omega) j_small (by omega) i_small,
    write_frame layout _ k 3 64 _ j f i k_small (by omega) (by omega) j_small (by omega) i_small,
    write_frame layout _ k 2 0 _ j f i k_small (by omega) (by omega) j_small (by omega) i_small,
    write_frame layout _ k 1 0 _ j f i k_small (by omega) (by omega) j_small (by omega) i_small,
    write_frame layout _ k 0 0 _ j f i k_small (by omega) (by omega) j_small (by omega) i_small, before]
  by_cases own : j = k
  · subst own
    rw [if_pos List.mem_cons_self]
    interval_cases f
    all_goals
      simp only [userWord, true_and, OfNat.ofNat_ne_zero, OfNat.zero_ne_ofNat, OfNat.ofNat_ne_one, OfNat.one_ne_ofNat,
        one_ne_zero, zero_ne_one, false_and, Nat.reduceEqDiff, if_false]
      split_ifs <;> first | rfl | omega
  · have others : j ∈ k :: made ↔ j ∈ made := by
      rw [List.mem_cons]
      exact ⟨fun either => either.resolve_left own, .inr⟩
    simp only [own, false_and, if_false, others]

theorem build_elsewhere (mem : Memory) (k : Nat) (prog : Image) (a : Nat) (above : layout.table 0 ≤ a)
    (below : a < layout.table 14) : ((layout.space k).build mem prog).2 a = mem a := by
  have away := frame_outside layout k
  have fits := prog.fits
  have size : granule = 2 ^ 14 := rfl
  have miss : ∀ mem f i desc, f < 6 → i < 2048 → writeTable mem (layout.frame k f) i desc a = mem a := by
    intro mem f i desc f_small i_small
    have off := (away f f_small).2
    exact Function.update_of_ne (by omega) ..
  rw [build_writes, miss _ 3 128 _ (by omega) (by omega), miss _ 3 64 _ (by omega) (by omega),
    miss _ 2 0 _ (by omega) (by omega), miss _ 1 0 _ (by omega) (by omega), miss _ 0 0 _ (by omega) (by omega)]
  have off := (away 4 (by omega)).2
  have page := frame_aligned layout k 4
  have tables := table_aligned layout 0
  exact copy_elsewhere mem _ _ _ (by omega)

variable {layout}

theorem Wired.elsewhere {s : State} {place : Nat → Option (List Nat)} (wired : Wired layout s place) (mem : Memory)
    (same : ∀ a, layout.table 0 ≤ a → a < layout.table 14 → mem a = s.mem a) :
    Wired layout { s with mem := mem } place ∧
      ∀ va, translate mem (layout.table 0) va = translate s.mem (layout.table 0) va := by
  have word : ∀ k i, k < 14 → i < 2048 → mem (layout.table k + i * 8) = s.mem (layout.table k + i * 8) := fun k i _ _ =>
    same _ (by unfold Layout.table tableAt; omega) (by unfold Layout.table tableAt; omega)
  have entries : ∀ t path i, place t = some path → entry mem path.length t i = entry s.mem path.length t i := by
    intro t path i hangs
    obtain ⟨k, within, rfl, _⟩ := wired.hung t path hangs
    unfold entry
    split_ifs with inside
    · rw [word k i within inside]
    · rfl
  refine ⟨{ wired with
    rooted := wired.rooted.agree entries
    blank := fun k i within spare inside => (word k i within inside).trans (wired.blank k i within spare inside) }, ?_⟩
  intro va
  rw [translate, translate, TableTree.lookup_unchanged wired.rooted entries]

end

-- The two pages of a user space.
def UserSpace.maps (space : UserSpace) (va : Nat) : Option (Nat × Access) :=
  if userCode ≤ va ∧ va < userCode + granule then some (space.code + (va - userCode), Attr.userRx.access)
  else if userStack ≤ va ∧ va < userStack + granule then some (space.stack + (va - userStack), Attr.userRw.access)
  else none

theorem user_touchable (space : UserSpace) (va pa : Nat) (rights : Access) (maps : space.maps va = some (pa, rights)) :
    rights.touchable = true := by
  unfold UserSpace.maps at maps
  split_ifs at maps
  all_goals
    obtain ⟨_, rfl⟩ := Prod.mk.inj (Option.some.inj maps)
    rfl

section
variable (layout : Layout) (made : List Nat) (mem : Memory) (furnished : Furnished layout made mem) (j : Nat)
  (j_small : j < 3) (built : j ∈ made)
include furnished j_small built

theorem user_entry (level f i : Nat) (f_small : f < 4) (i_small : i < 2048) :
    entry mem level (layout.frame j f) i = decode level (userWord (layout.space j) f i) := by
  rw [entry, if_pos i_small, furnished j f i j_small f_small i_small, if_pos built]

theorem user_trunk (a b c i : Nat) (a_small : a < 2048) (b_small : b < 2048) (c_small : c < 2048) :
    TableTree.lookup (entry mem) 0 (layout.frame j 0) [a, b, c, i] =
      if a = 0 ∧ b = 0 ∧ c = 0 then TableTree.lookup (entry mem) 3 (layout.frame j 3) [i] else none := by
  have small := fun f within => (frame_outside layout j f within).1
  have aligned := frame_aligned layout j
  have step := user_entry layout made mem furnished j j_small built
  have l1 : (layout.space j).l1 = layout.frame j 1 := rfl
  have l2 : (layout.space j).l2 = layout.frame j 2 := rfl
  have l3 : (layout.space j).l3 = layout.frame j 3 := rfl
  by_cases first : a = 0
  · rw [TableTree.lookup, step 0 0 a (by omega) a_small, userWord, if_pos first, l1,
      decode_table 0 _ (by omega) (small 1 (by omega)) (aligned 1)]
    dsimp only
    by_cases second : b = 0
    · rw [TableTree.lookup, step _ 1 b (by omega) b_small, userWord, if_pos second, l2,
        decode_table _ _ (by omega) (small 2 (by omega)) (aligned 2)]
      dsimp only
      by_cases third : c = 0
      · rw [TableTree.lookup, step _ 2 c (by omega) c_small, userWord, if_pos third, l3,
          decode_table _ _ (by omega) (small 3 (by omega)) (aligned 3), if_pos ⟨first, second, third⟩]
      · rw [TableTree.lookup, step _ 2 c (by omega) c_small, userWord, if_neg third, decode_zero,
          if_neg fun all => third all.2.2]
    · rw [TableTree.lookup, step _ 1 b (by omega) b_small, userWord, if_neg second, decode_zero,
        if_neg fun all => second all.2.1]
  · rw [TableTree.lookup, step 0 0 a (by omega) a_small, userWord, if_neg first, decode_zero, if_neg fun all => first all.1]

theorem user_translate (va : Nat) (low : va < 2 ^ 48) :
    translate mem (layout.frame j 0) va = (layout.space j).maps va := by
  have small := fun f within => (frame_outside layout j f within).1
  have aligned := frame_aligned layout j
  have code : userCode = 0x100000 := rfl
  have stack : userStack = 0x200000 := rfl
  have size : granule = 2 ^ 14 := rfl
  rw [translate, indices_eq, UserSpace.maps,
    user_trunk layout made mem furnished j j_small built _ _ _ _ (by omega) (Nat.mod_lt _ (by decide))
      (Nat.mod_lt _ (by decide))]
  by_cases trunk : va < 2 ^ 25
  · rw [if_pos (by omega)]
    generalize slot : va / 2 ^ 14 % 2048 = i
    have page4 := decode_page (layout.space j).code .userRx (aligned 4)
    have page5 := decode_page (layout.space j).stack .userRw (aligned 5)
    rw [TableTree.lookup, user_entry layout made mem furnished j j_small built 3 3 i (by omega) (by omega), user_word_leaf]
    by_cases first : i = 64
    · rw [if_pos first, page4, if_pos (by omega)]
      refine congrArg some ((target_page va (layout.frame j 4) .userRx (small 4 (by omega)) (aligned 4)).trans ?_)
      rw [show va % 2 ^ 14 = va - userCode by omega]
      rfl
    · by_cases second : i = 128
      · rw [if_neg first, if_pos second, page5, if_neg (by omega), if_pos (by omega)]
        refine congrArg some ((target_page va (layout.frame j 5) .userRw (small 5 (by omega)) (aligned 5)).trans ?_)
        rw [show va % 2 ^ 14 = va - userStack by omega]
        rfl
      · rw [if_neg first, if_neg second, if_neg (by omega), if_neg (by omega), decode_zero]
        rfl
  · rw [if_neg (by omega), if_neg (by omega), if_neg (by omega)]
    rfl

end

-- What writes to page tables after boot.
inductive MapEvent where
  | ioremap (call : IoremapCall)
  | buildUserSpace (prog : Image)
  | buildTaskUserSpace (slot : Nat) (prog : Image)

namespace MapEvent

def next (layout : Layout) (s : State) : MapEvent → State
  | ioremap call => call.next layout s
  | buildUserSpace prog => { s with mem := (layout.buildUserSpaceWith s.mem prog).2 }
  | buildTaskUserSpace slot prog =>
      match layout.buildTaskUserSpace s.mem slot prog with
      | none => s
      | some (_, mem) => { s with mem := mem }

-- The user space that a step builds.
def space (layout : Layout) : MapEvent → Option UserSpace
  | ioremap _ => none
  | buildUserSpace _ => some layout.singleSpace
  | buildTaskUserSpace slot _ => (layout.taskMem slot).map Layout.spaceAt

-- History: the user spaces built so far.
def record (layout : Layout) (_ : State) (event : MapEvent) (_ : State) (made : List UserSpace) : List UserSpace :=
  match event.space layout with
  | none => made
  | some space => space :: made

-- Every mapping call is made with va = phys_to_virt(pa).
def Linear : MapEvent → Prop
  | ioremap call => call.pa < 2 ^ 64 ∧ call.va = physToVirt call.pa
  | _ => True

def Wraps (s : State) : MapEvent → Prop
  | ioremap call => s.Wraps call.va call.pa
  | _ => False

end MapEvent

-- What holds of the kernel's half in every state.
structure Protected (s : State) : Prop where
  confined : ∀ va pa rights, va >>> 48 = 0xFFFF → (s.hardwareWalk va).translation = some (pa, rights) →
    rights.el0Read = false ∧ rights.el0Write = false ∧ rights.el0Execute = false
  write_or_execute : ∀ va va' pa pa' rights rights', va >>> 48 = 0xFFFF → va' >>> 48 = 0xFFFF →
    (s.hardwareWalk va).translation = some (pa, rights) → (s.hardwareWalk va').translation = some (pa', rights') →
    pa / granule = pa' / granule → rights.el1Write = true → rights'.el1Execute = false

-- Through the root of a user space nothing translates but its two pages.
def TwoPages (s : State) (space : UserSpace) : Prop :=
  ∀ va, va >>> 48 = 0 → ({ s with ttbr0 := space.l0 }.hardwareWalk va).translation = space.maps va

def kernelAttrs : List Attr := [.textRx, .ro, .rw, .device, .framebuffer]

-- The kernel's half is linear, with the kernel's own rights.
def LinearMap (layout : Layout) (s : State) : Prop :=
  ∀ va pa rights, va >>> 48 = 0xFFFF → translate s.mem (layout.table 0) va = some (pa, rights) →
    pa = va - kernelBase ∧ ∃ a ∈ kernelAttrs, rights = a.access

theorem kernel_rights (a : Attr) (kernel : a ∈ kernelAttrs) :
    (a.access.el0Read = false ∧ a.access.el0Write = false ∧ a.access.el0Execute = false) ∧
      (a.access.el1Write = true → a.access.el1Execute = false) := by
  revert a
  decide

section
variable {layout : Layout} {s : State} {place : Nat → Option (List Nat)}

theorem Wired.protects (wired : Wired layout s place) (linear : LinearMap layout s) : Protected s := by
  have walk : ∀ va hit, va >>> 48 = 0xFFFF → (s.hardwareWalk va).translation = some hit →
      translate s.mem (layout.table 0) va = some hit := fun va hit high found =>
    (wired.walk_high (fun _ => true) (fun _ _ => rfl) va high).symm.trans (touched_found _ hit found)
  refine ⟨fun va pa rights high found => ?_, fun va va' pa pa' rights rights' high high' found found' page writes => ?_⟩
  · obtain ⟨_, a, kernel, rfl⟩ := linear va pa rights high (walk va _ high found)
    exact (kernel_rights a kernel).1
  · replace found := walk va _ high found
    replace found' := walk va' _ high' found'
    obtain ⟨at_, a, kernel, rfl⟩ := linear va pa rights high found
    obtain ⟨at_', _⟩ := linear va' pa' rights' high' found'
    -- The map is linear: what leads to one page is one page.
    have same : va / 2 ^ 14 = va' / 2 ^ 14 := by
      rw [Nat.shiftRight_eq_div_pow] at high high'
      have base : kernelBase = 0xFFFF * 2 ^ 48 := rfl
      have size : granule = 2 ^ 14 := rfl
      rw [at_, at_', size] at page
      omega
    have shared := translate_page s.mem (layout.table 0) va va' same
    rw [found, found'] at shared
    have rights_eq : a.access = rights' := Option.some.inj shared
    rw [← rights_eq]
    exact (kernel_rights a kernel).2 writes

theorem linear_ioremap (linear : LinearMap layout s) (attr : Attr) (kernel : attr ∈ kernelAttrs) (va pa : Nat)
    (small : pa < 2 ^ 64) (at_ : va = physToVirt pa) (result : Except IoremapError Unit) (s' : State)
    (remaps : Remaps layout s attr va pa result s') : LinearMap layout s' := by
  intro query leads rights high found
  rw [translate] at found
  by_cases done : result = .ok ()
  · obtain ⟨va_high, va_aligned, pa_aligned, leaf⟩ := remaps.mapped done
    rw [leaf] at found
    by_cases page : indices va <+: indices query
    · rw [if_pos page] at found
      have same := (indices_page va query va_high high).mp page
      rw [Nat.shiftRight_eq_div_pow] at va_high
      have base : kernelBase = 0xFFFF * 2 ^ 48 := rfl
      unfold physToVirt at at_
      have below : pa < 2 ^ 48 := by omega
      have reached := Option.some.inj found
      have target := target_page query pa attr below pa_aligned
      rw [show List.drop 4 (indices query) = [] from rfl, target] at reached
      cases reached
      exact ⟨by omega, attr, kernel, rfl⟩
    · rw [if_neg page] at found
      exact linear query leads rights high found
  · rw [remaps.failed done] at found
    exact linear query leads rights high found

-- The invariant: the kernel's tree and its map, and the user tables.
structure Guarded (layout : Layout) (s : State) (made : List Nat) : Prop where
  wired : ∃ place, Wired layout s place
  linear : LinearMap layout s
  furnished : Furnished layout made s.mem

theorem Guarded.build {made : List Nat} (guarded : Guarded layout s made) (k : Nat) (k_small : k < 3) (prog : Image) :
    Guarded layout { s with mem := ((layout.space k).build s.mem prog).2 } (k :: made) := by
  obtain ⟨place, wired⟩ := guarded.wired
  obtain ⟨kept, same⟩ := wired.elsewhere _ (build_elsewhere layout s.mem k prog)
  refine ⟨⟨place, kept⟩, fun va pa rights high found => ?_, build_space layout made s.mem guarded.furnished k k_small prog⟩
  rw [same va] at found
  exact guarded.linear va pa rights high found

theorem Guarded.ioremap {made : List Nat} (guarded : Guarded layout s made) (call : IoremapCall) (small : call.pa < 2 ^ 64)
    (at_ : call.va = physToVirt call.pa) (fits : ¬ s.Wraps call.va call.pa) :
    Guarded layout (call.next layout s) made := by
  obtain ⟨place, wired⟩ := guarded.wired
  have remaps := ioremap_step wired call.attr call.va call.pa fits
  rw [← call.run_eq layout s] at remaps
  have kernel : call.attr ∈ kernelAttrs := by cases call <;> simp [IoremapCall.attr, kernelAttrs]
  refine ⟨remaps.wired, linear_ioremap guarded.linear call.attr kernel call.va call.pa small at_ _ _ remaps, ?_⟩
  intro j f i j_small f_small i_small
  have away := (frame_outside layout j f (by omega)).2
  exact (remaps.outside _ (by omega)).trans (guarded.furnished j f i j_small f_small i_small)

theorem Guarded.two_pages {made : List Nat} (guarded : Guarded layout s made) (j : Nat) (j_small : j < 3) (built : j ∈ made) :
    TwoPages s (layout.space j) := by
  intro va low
  have below : va < 2 ^ 48 := by
    rw [Nat.shiftRight_eq_div_pow] at low
    omega
  have found := Mmu.walk_low (fun _ => true) { s with ttbr0 := (layout.space j).l0 } va low (fun _ _ => True)
    (fun _ _ _ _ _ _ => trivial) (fun _ _ _ => rfl)
    (root_kept _ (frame_outside layout j 0 (by omega)).1 (frame_aligned layout j 0)) trivial
  have maps := found.trans (user_translate layout made s.mem guarded.furnished j j_small built va below)
  rw [hardware_walk_eq _ _ fun pa rights granted => user_touchable (layout.space j) va pa rights (maps.symm.trans granted)]
  exact maps

end

-- The user tables are in .bss like TABLES.
def UserZeroed (layout : Layout) (mem : Memory) : Prop :=
  ∀ space ∈ [layout.singleSpace, Layout.spaceAt layout.taskMemA, Layout.spaceAt layout.taskMemB],
    ∀ t ∈ [space.l0, space.l1, space.l2, space.l3], ∀ i, i < 2048 → mem (t + i * 8) = 0

theorem user_zeroed_frames (layout : Layout) (mem : Memory) (zeroed : UserZeroed layout mem) (j f i : Nat) (j_small : j < 3)
    (f_small : f < 4) (i_small : i < 2048) : mem (layout.frame j f + i * 8) = 0 := by
  have table : ∀ space : UserSpace, (∀ t ∈ [space.l0, space.l1, space.l2, space.l3], ∀ i, i < 2048 → mem (t + i * 8) = 0) →
      space = layout.space j → mem (layout.frame j f + i * 8) = 0 := by
    rintro space zeroes rfl
    refine zeroes (layout.frame j f) ?_ i i_small
    interval_cases f <;> simp [Layout.space]
  interval_cases j
  · exact table _ (zeroed _ List.mem_cons_self) rfl
  · exact table _ (zeroed _ (List.mem_cons_of_mem _ List.mem_cons_self)) rfl
  · exact table _ (zeroed _ (List.mem_cons_of_mem _ (List.mem_cons_of_mem _ List.mem_cons_self))) rfl

theorem attrs_ite (c : Prop) [Decidable c] (shown other : Option Attr) (here : ∀ a ∈ shown, a ∈ kernelAttrs)
    (there : ∀ a ∈ other, a ∈ kernelAttrs) : ∀ a ∈ (if c then shown else other), a ∈ kernelAttrs := by
  by_cases holds : c
  · rwa [if_pos holds]
  · rwa [if_neg holds]

theorem documented_kernel (layout : Layout) (pa : Nat) (a : Attr) (shown : documented layout pa = some a) :
    a ∈ kernelAttrs := by
  have regions : ∀ a ∈ documented layout pa, a ∈ kernelAttrs := by
    unfold documented
    repeat' apply attrs_ite
    all_goals simp [kernelAttrs]
  exact regions a shown

theorem boot_guarded (layout : Layout) (mem : Memory) (zeroed : Zeroed layout mem) (user : UserZeroed layout mem) :
    Guarded layout ((opalMmuEnable (layout.table 0) (bootMemory layout mem)).condemnLowHalf layout) [] where
  wired := ⟨bootPlace layout, boot_wired zeroed⟩
  linear := fun va pa rights high found => by
    have maps := (boot_translate layout mem zeroed va high).symm.trans found
    obtain ⟨a, shown, pair⟩ := Option.map_eq_some_iff.mp maps
    obtain ⟨at_, granted⟩ := Prod.mk.inj pair
    exact ⟨at_.symm, a, documented_kernel layout _ a shown, granted.symm⟩
  furnished := fun j f i j_small f_small i_small => by
    have away := (frame_outside layout j f (by omega)).2
    rw [if_neg List.not_mem_nil]
    exact (boot_memory_outside layout mem _ (by omega)).trans
      (user_zeroed_frames layout mem user j f i j_small f_small i_small)

section
variable (layout : Layout)

-- The state with its history of user spaces, by their indices.
def Standing (pair : State × List UserSpace) : Prop :=
  ∃ made, (∀ j ∈ made, j < 3) ∧ pair.2 = made.map layout.space ∧ Guarded layout pair.1 made

theorem standing_build (s : State) (made : List UserSpace) (standing : Standing layout (s, made)) (k : Nat) (k_small : k < 3)
    (prog : Image) :
    Standing layout ({ s with mem := ((layout.space k).build s.mem prog).2 }, layout.space k :: made) := by
  obtain ⟨indices, small, history, guarded⟩ := standing
  refine ⟨k :: indices, List.forall_mem_cons.mpr ⟨k_small, small⟩, ?_, guarded.build k k_small prog⟩
  rw [List.map_cons, ← history]

theorem standing_step (pair : State × List UserSpace) (event : MapEvent) (standing : Standing layout pair)
    (meets : event.Linear ∧ ¬ event.Wraps pair.1) :
    Standing layout (Run.recorded (MapEvent.next layout) (MapEvent.record layout) pair event) := by
  obtain ⟨s, made⟩ := pair
  cases event with
  | ioremap call =>
      obtain ⟨indices, small, history, guarded⟩ := standing
      exact ⟨indices, small, history, guarded.ioremap call meets.1.1 meets.1.2 meets.2⟩
  | buildUserSpace prog => exact standing_build layout s made standing 0 (by omega) prog
  | buildTaskUserSpace slot prog =>
      match slot with
      | 0 => exact standing_build layout s made standing 1 (by omega) prog
      | 1 => exact standing_build layout s made standing 2 (by omega) prog
      | _ + 2 => exact standing

theorem standing_holds (pair : State × List UserSpace) (standing : Standing layout pair) :
    Protected pair.1 ∧ ∀ space ∈ pair.2, TwoPages pair.1 space := by
  obtain ⟨indices, small, history, guarded⟩ := standing
  obtain ⟨place, wired⟩ := guarded.wired
  refine ⟨wired.protects guarded.linear, fun space member => ?_⟩
  rw [history] at member
  obtain ⟨j, listed, rfl⟩ := List.mem_map.mp member
  exact guarded.two_pages j (small j listed) listed

end

-- Mapping calls in the linear map and user spaces built, in any order, with the
-- low half condemned at the start. As long as RUNTIME_IDX does not wrap around,
-- the kernel's half is closed to EL0 and to writing what executes, and every
-- user root built shows its two pages alone.
theorem protection_kept (layout : Layout) (mmfr0 : Nat) (mem : Memory) (root : Nat) (built : Memory)
    (zeroed : Zeroed layout mem) (user : UserZeroed layout mem)
    (builds : opalBuildTables layout 0 mmfr0 mem = some (root, built)) (events : List MapEvent)
    (linear : ∀ event ∈ events, event.Linear)
    (unwrapped : Run.Along (MapEvent.next layout) (fun s event => ¬ event.Wraps s)
      ((opalMmuEnable root built).condemnLowHalf layout) events) :
    Run.Always (Run.recorded (MapEvent.next layout) (MapEvent.record layout))
      (fun pair => Protected pair.1 ∧ ∀ space ∈ pair.2, TwoPages pair.1 space)
      ((opalMmuEnable root built).condemnLowHalf layout, []) events := by
  obtain ⟨rfl, rfl⟩ := build_succeeds layout mmfr0 mem root built builds
  have initial : Standing layout ((opalMmuEnable (layout.table 0) (bootMemory layout mem)).condemnLowHalf layout, []) :=
    ⟨[], fun _ none => absurd none List.not_mem_nil, rfl, boot_guarded layout mem zeroed user⟩
  have meets := (Run.along_and _ _ _ _ _).mpr
    ⟨Run.along_of_mem (MapEvent.next layout) MapEvent.Linear _ events linear, unwrapped⟩
  have along := Run.along_recorded _ (MapEvent.record layout) _
    ((opalMmuEnable (layout.table 0) (bootMemory layout mem)).condemnLowHalf layout, []) events meets
  exact Run.always_of_invariant _ _ _ _ (standing_step layout) (standing_holds layout) _ _ initial along

theorem protection_kept_sample :
    ∃ root built, opalBuildTables sampleLayout 0 0x100000 (fun _ => 0) = some (root, built) ∧
      Run.Always (Run.recorded (MapEvent.next sampleLayout) (MapEvent.record sampleLayout))
        (fun pair => Protected pair.1 ∧ ∀ space ∈ pair.2, TwoPages pair.1 space)
        ((opalMmuEnable root built).condemnLowHalf sampleLayout, [])
        [.ioremap (linearCall 0x10000000), .buildUserSpace ⟨[], Nat.zero_le _⟩] := by
  have builds := build_tables sampleLayout 0x100000 (fun _ => 0) (by decide)
  refine ⟨_, _, builds, protection_kept sampleLayout 0x100000 (fun _ => 0) _ _ (fun _ _ _ => rfl)
    (fun _ _ _ _ _ _ => rfl) builds _ ?_ ⟨?_, fun wraps => wraps, trivial⟩⟩
  · exact List.forall_mem_cons.mpr ⟨⟨by decide, rfl⟩, List.forall_mem_cons.mpr ⟨trivial, List.forall_mem_nil _⟩⟩
  · exact fun wraps => absurd wraps.1.symm (Nat.add_one_ne_zero (2 ^ 64 - 2))

theorem linear_call (pa : Nat) (addressable : pa < 2 ^ 64) : (MapEvent.ioremap (linearCall pa)).Linear :=
  ⟨addressable, rfl⟩

theorem fill_linear : ∀ call ∈ fillPool, (MapEvent.ioremap call).Linear :=
  List.forall_mem_cons.mpr ⟨linear_call _ (by decide), List.forall_mem_cons.mpr ⟨linear_call _ (by decide),
    List.forall_mem_cons.mpr ⟨linear_call _ (by decide), List.forall_mem_cons.mpr ⟨linear_call _ (by decide),
      List.forall_mem_nil _⟩⟩⟩⟩

-- A frame buffer whose first pixel is white and whose second is black.
def frameBuffer : Nat := 1 <<< 36 ||| 1 <<< 25 ||| 2 <<< 14

def painted : Memory := fun a => if a = frameBuffer then 0x00FFFFFF else 0

def showCall : IoremapCall := .framebuffer (physToVirt frameBuffer) frameBuffer

def paintedRelinked : State := showCall.next sampleLayout { filledOn painted with runtimeIdx := 0 }

theorem painted_zeroed : Zeroed sampleLayout painted ∧ UserZeroed sampleLayout painted := by
  have far : ∀ a, a < 2 ^ 36 → painted a = 0 := fun a low => if_neg fun same => by
    have high : frameBuffer = 2 ^ 36 + 2 ^ 25 + 2 ^ 15 := by decide
    omega
  constructor
  · intro a _ below
    have top : sampleLayout.table 14 < 2 ^ 36 := by decide
    exact far a (by omega)
  · intro space member t table i small
    refine far _ ?_
    have low : ∀ space ∈ [sampleLayout.singleSpace, Layout.spaceAt sampleLayout.taskMemA, Layout.spaceAt sampleLayout.taskMemB],
        ∀ t ∈ [space.l0, space.l1, space.l2, space.l3], t < 2 ^ 35 := by decide
    have below := low space member t table
    omega

-- The run that links runtime[0] a second time, below itself and as a level 3
-- table. The page that the last call maps through it is a level 3 table for the
-- addresses above, and its first two pixels are a leaf open to EL0.
theorem relinked_table_unprotected :
    ∃ root built, opalBuildTables sampleLayout 0 0x100000 painted = some (root, built) ∧
      (Zeroed sampleLayout painted ∧ UserZeroed sampleLayout painted) ∧
      (∀ call ∈ fillPool ++ List.replicate (2 ^ 64 - 8) beyondPool ++ [showCall], (MapEvent.ioremap call).Linear) ∧
      ¬ Run.Always (Run.recorded (MapEvent.next sampleLayout) (MapEvent.record sampleLayout))
        (fun pair => Protected pair.1 ∧ ∀ space ∈ pair.2, TwoPages pair.1 space)
        ((opalMmuEnable root built).condemnLowHalf sampleLayout, [])
        ((fillPool ++ List.replicate (2 ^ 64 - 8) beyondPool ++ [showCall]).map .ioremap) := by
  refine ⟨_, _, build_tables sampleLayout 0x100000 painted (by decide), painted_zeroed, fun call member => ?_, fun always => ?_⟩
  · rcases List.mem_append.mp member with earlier | last
    · rcases List.mem_append.mp earlier with filling | failing
      · exact fill_linear call filling
      · rw [List.eq_of_mem_replicate failing]
        exact linear_call _ (by decide)
    · rw [List.mem_singleton.mp last]
      exact ⟨by decide, rfl⟩
  · have last := (Run.always_last _ _ _ _ always).1.confined
    rw [Run.exec_recorded, Run.exec_map _ (IoremapCall.next sampleLayout) MapEvent.ioremap fun _ _ => rfl] at last
    change ∀ va pa rights, _ → (State.hardwareWalk (Run.exec _ (startOn painted) _) va).translation = _ → _ at last
    rw [sample_relinked _ _ (by decide +kernel)] at last
    change ∀ va pa rights, _ → (State.hardwareWalk paintedRelinked va).translation = _ → _ at last
    have leaf : (paintedRelinked.hardwareWalk (kernelBase + 1 <<< 36 + 2 <<< 25)).translation =
        some (0x00FFC000, ⟨.device, false, true, true, false, true, true⟩) := by decide +kernel
    exact absurd (last _ _ _ (by decide) leaf).1 (by decide)

end Mmu

end Opal
