import Opal.Mmu
import Opal.TableTree
import Mathlib.Tactic.IntervalCases

set_option autoImplicit false

namespace Opal

namespace Mmu

theorem and_field (x low width : Nat) : x &&& (2 ^ width - 1) <<< low = x / 2 ^ low % 2 ^ width * 2 ^ low := by
  refine Nat.eq_of_testBit_eq fun i => ?_
  rw [Nat.testBit_and, Nat.testBit_shiftLeft, Nat.testBit_two_pow_sub_one, Nat.testBit_mul_two_pow,
    Nat.testBit_mod_two_pow, Nat.testBit_div_two_pow]
  by_cases above : low ≤ i
  · simp [above, Bool.and_comm]
  · simp [above]

theorem page_field (x : Nat) : x &&& 0x0000FFFFFFFFC000 = x / 2 ^ 14 % 2 ^ 34 * 2 ^ 14 := and_field x 14 34

theorem page_field_aligned (pa : Nat) (small : pa < 2 ^ 48) (aligned : pa % 2 ^ 14 = 0) :
    pa &&& 0x0000FFFFFFFFC000 = pa := by
  rw [page_field]
  omega

theorem and_clear (pa mask : Nat) (small : pa < 2 ^ 48) (aligned : pa % 2 ^ 14 = 0)
    (outside : 0x0000FFFFFFFFC000 &&& mask = 0) : pa &&& mask = 0 := by
  rw [← page_field_aligned pa small aligned, Nat.and_assoc, outside, Nat.and_zero]

theorem index_eq (va k : Nat) : va >>> k &&& 0x7FF = va / 2 ^ k % 2048 := by
  rw [Nat.shiftRight_eq_div_pow]
  exact Nat.and_two_pow_sub_one_eq_mod _ 11

theorem index_top (va k : Nat) : va >>> k &&& 0x1 = va / 2 ^ k % 2 := by
  rw [Nat.shiftRight_eq_div_pow]
  exact Nat.and_two_pow_sub_one_eq_mod _ 1

theorem indices_eq (va : Nat) :
    indices va = [va / 2 ^ 47 % 2, va / 2 ^ 36 % 2048, va / 2 ^ 25 % 2048, va / 2 ^ 14 % 2048] := by
  rw [indices, index_top, index_eq, index_eq, index_eq]

theorem indices_small (va i : Nat) (member : i ∈ indices va) : i < 2048 := by
  simp only [indices_eq, List.mem_cons, List.not_mem_nil, or_false] at member
  omega

theorem kind_lt (desc : Nat) : desc &&& 0b11 < 4 := Nat.lt_succ_of_le Nat.and_le_right

theorem kind_or (pa bits : Nat) (aligned : pa % 2 ^ 14 = 0) : (pa ||| bits) &&& 0b11 = bits &&& 0b11 := by
  have none : pa &&& 0b11 = 0 := by
    rw [show (0b11 : Nat) = 2 ^ 2 - 1 from rfl, Nat.and_two_pow_sub_one_eq_mod]
    omega
  rw [Nat.and_or_distrib_right, none, Nat.zero_or]

theorem table_desc_kind (pa : Nat) (aligned : pa % 2 ^ 14 = 0) : tableDesc pa &&& 0b11 = 0b11 := kind_or pa _ aligned

theorem table_desc_field (pa : Nat) (small : pa < 2 ^ 48) (aligned : pa % 2 ^ 14 = 0) :
    tableDesc pa &&& 0x0000FFFFFFFFC000 = pa := by
  rw [tableDesc, Nat.and_or_distrib_right, page_field_aligned pa small aligned]
  exact Nat.or_zero pa

theorem page_desc_kind (pa : Nat) (a : Attr) (aligned : pa % 2 ^ 14 = 0) : pageDesc pa a &&& 0b11 = 0b11 := by
  rw [pageDesc, Nat.or_assoc, kind_or pa _ aligned]
  cases a <;> rfl

theorem page_desc_field (pa : Nat) (a : Attr) (small : pa < 2 ^ 48) (aligned : pa % 2 ^ 14 = 0) :
    pageDesc pa a &&& 0x0000FFFFFFFFC000 = pa := by
  rw [pageDesc, Nat.or_assoc, Nat.and_or_distrib_right, page_field_aligned pa small aligned]
  cases a <;> exact Nat.or_zero pa

theorem block_desc_kind (pa : Nat) (a : Attr) (aligned : pa % 2 ^ 14 = 0) : blockDesc pa a &&& 0b11 = 0b01 := by
  rw [blockDesc, Nat.or_assoc, kind_or pa _ aligned]
  cases a <;> rfl

theorem block_desc_field (pa : Nat) (a : Attr) (small : pa < 2 ^ 48) (aligned : pa % 2 ^ 25 = 0) :
    blockDesc pa a &&& 0x0000FFFFFE000000 = pa := by
  have kept : pa &&& 0x0000FFFFFE000000 = pa := (and_field pa 25 23).trans (by omega)
  rw [blockDesc, Nat.or_assoc, Nat.and_or_distrib_right, kept]
  cases a <;> exact Nat.or_zero pa

-- What each bundle is for.
def Attr.access : Attr → Access
  | .textRx => ⟨.normal, false, true, false, false, false, true⟩
  | .ro => ⟨.normal, false, false, false, false, false, true⟩
  | .rw => ⟨.normal, true, false, false, false, false, true⟩
  | .device => ⟨.device, true, false, false, false, false, true⟩
  | .userRw => ⟨.normal, true, false, true, true, false, true⟩
  | .userRx => ⟨.normal, false, false, true, false, true, true⟩
  | .framebuffer => ⟨.nonCacheable, true, false, false, false, false, true⟩

theorem access_or (pa bits : Nat) (small : pa < 2 ^ 48) (aligned : pa % 2 ^ 14 = 0) :
    access (pa ||| bits) = access bits := by
  have clear : ∀ mask, 0x0000FFFFFFFFC000 &&& mask = 0 → (pa ||| bits) &&& mask = bits &&& mask := fun mask outside => by
    rw [Nat.and_or_distrib_right, and_clear pa mask small aligned outside, Nat.zero_or]
  unfold access
  rw [clear _ rfl, clear _ rfl, clear _ rfl, clear _ rfl, clear _ rfl, clear _ rfl, clear _ rfl]

theorem page_desc_access (pa : Nat) (a : Attr) (small : pa < 2 ^ 48) (aligned : pa % 2 ^ 14 = 0) :
    access (pageDesc pa a) = a.access := by
  rw [pageDesc, Nat.or_assoc, access_or pa _ small aligned]
  cases a <;> decide

theorem block_desc_access (pa : Nat) (a : Attr) (small : pa < 2 ^ 48) (aligned : pa % 2 ^ 14 = 0) :
    access (blockDesc pa a) = a.access := by
  rw [blockDesc, Nat.or_assoc, access_or pa _ small aligned]
  cases a <;> decide

-- What a descriptor says at a level, as walk decides it.
def decode (level desc : Nat) : TableEntry Nat Nat :=
  match desc &&& 0b11, level with
  | 0b01, 2 => .leaf desc
  | 0b11, 3 => .leaf desc
  | 0b11, _ => .table (desc &&& 0x0000FFFFFFFFC000)
  | _, _ => .absent

-- The tables in memory as a store of the library: named by their addresses,
-- 2048 entries each.
def entry (mem : Memory) (level tablePa i : Nat) : TableEntry Nat Nat :=
  if i < 2048 then decode level (mem (tablePa + i * 8)) else .absent

-- Where a leaf leads: a path that ends early ends in a block.
def target (va : Nat) (hit : Nat × List Nat) : Nat × Access :=
  let field := match hit.2 with
    | [] => hit.1 &&& 0x0000FFFFFFFFC000 ||| va &&& 0x3FFF
    | _ :: _ => hit.1 &&& 0x0000FFFFFE000000 ||| va &&& 0x1FFFFFF
  (field, access hit.1)

def translate (mem : Memory) (root va : Nat) : Option (Nat × Access) :=
  (TableTree.lookup (entry mem) 0 root (indices va)).map (target va)

theorem decode_absent (level desc : Nat) (kind : desc &&& 0b11 = 0 ∨ desc &&& 0b11 = 2) :
    decode level desc = .absent := by
  unfold decode
  rcases kind with kind | kind
  all_goals
    rw [kind]
    rfl

theorem decode_zero (level : Nat) : decode level 0 = .absent := decode_absent level 0 (.inl rfl)

theorem decode_table (level pa : Nat) (above : level < 3) (small : pa < 2 ^ 48) (aligned : pa % 2 ^ 14 = 0) :
    decode level (tableDesc pa) = .table pa := by
  unfold decode
  rw [table_desc_kind pa aligned, table_desc_field pa small aligned]
  interval_cases level <;> rfl

theorem decode_descend (level desc : Nat) (above : level < 3) (kind : desc &&& 0b11 = 0b11) :
    decode level desc = .table (desc &&& 0x0000FFFFFFFFC000) := by
  unfold decode
  rw [kind]
  interval_cases level <;> rfl

theorem decode_page (pa : Nat) (a : Attr) (aligned : pa % 2 ^ 14 = 0) :
    decode 3 (pageDesc pa a) = .leaf (pageDesc pa a) := by
  unfold decode
  rw [page_desc_kind pa a aligned]
  rfl

theorem decode_block (pa : Nat) (a : Attr) (aligned : pa % 2 ^ 14 = 0) :
    decode 2 (blockDesc pa a) = .leaf (blockDesc pa a) := by
  unfold decode
  rw [block_desc_kind pa a aligned]
  rfl

-- The walk reports what the lookup finds, as long as it knows every table that
-- it comes to.
theorem walk_finds (known : Nat → Bool) (mem : Memory) (va : Nat) (comes : Nat → Nat → Prop)
    (onward : ∀ level t i u, comes level t → entry mem level t i = .table u → comes (level + 1) u)
    (knows : ∀ level t, comes level t → known t = true) (rest : List Nat) (level t : Nat)
    (shape : level + rest.length = 4) (under : level < 4) (small : ∀ i ∈ rest, i < 2048) (here : comes level t) :
    match TableTree.lookup (entry mem) level t rest with
    | some hit => walkLevels known mem va level rest t = .leaf (target va hit).1 hit.1
    | none => ∃ last desc, walkLevels known mem va level rest t = .fault last desc := by
  induction rest generalizing level t with
  | nil =>
      rw [List.length_nil] at shape
      omega
  | cons i rest ih =>
      rw [List.length_cons] at shape
      have inside := small i List.mem_cons_self
      have next := onward level t i
      have below := fun u under comes => ih (level + 1) u (by omega) under
        (fun j member => small j (List.mem_cons_of_mem i member)) comes
      have bound := kind_lt (mem (t + i * 8))
      rw [entry, if_pos inside] at next
      rw [walkLevels, knows level t here, if_neg (by decide), TableTree.lookup, entry, if_pos inside]
      unfold decode at next ⊢
      generalize mem (t + i * 8) = desc at bound next
      dsimp only
      generalize desc &&& 0b11 = k at bound next ⊢
      interval_cases k <;> interval_cases level
      all_goals first
        | exact ⟨_, _, rfl⟩
        | exact below _ (by omega) (next _ here rfl)
        | skip
      -- What is left of the path tells a block at level 2 from a page.
      · obtain ⟨j, rfl⟩ := List.length_eq_one_iff.mp (by omega : rest.length = 1)
        rfl
      · obtain rfl := List.length_eq_zero_iff.mp (by omega : rest.length = 0)
        rfl

theorem walk_translates (known : Nat → Bool) (mem : Memory) (va : Nat) (comes : Nat → Nat → Prop)
    (onward : ∀ level t i u, comes level t → entry mem level t i = .table u → comes (level + 1) u)
    (knows : ∀ level t, comes level t → known t = true) (t : Nat) (here : comes 0 t) :
    (walkLevels known mem va 0 (indices va) t).translation = translate mem t va := by
  have found := walk_finds known mem va comes onward knows (indices va) 0 t rfl (by omega) (indices_small va) here
  unfold translate
  cases result : TableTree.lookup (entry mem) 0 t (indices va) with
  | none =>
      rw [result] at found
      obtain ⟨last, desc, ends⟩ := found
      rw [ends]
      rfl
  | some hit =>
      rw [result] at found
      rw [found]
      rfl

theorem target_page (va pa : Nat) (a : Attr) (small : pa < 2 ^ 48) (aligned : pa % 2 ^ 14 = 0) :
    target va (pageDesc pa a, []) = (pa + va % 2 ^ 14, a.access) := by
  have offset : va &&& 0x3FFF = va % 2 ^ 14 := Nat.and_two_pow_sub_one_eq_mod va 14
  have joined := Nat.two_pow_add_eq_or_of_lt (Nat.mod_lt va (Nat.two_pow_pos 14)) (pa / 2 ^ 14)
  have whole : 2 ^ 14 * (pa / 2 ^ 14) = pa := by omega
  rw [target, page_desc_access pa a small aligned, page_desc_field pa a small aligned, offset]
  rw [whole] at joined
  rw [joined]

theorem target_block (va pa i : Nat) (a : Attr) (small : pa < 2 ^ 48) (aligned : pa % 2 ^ 25 = 0) :
    target va (blockDesc pa a, [i]) = (pa + va % 2 ^ 25, a.access) := by
  have offset : va &&& 0x1FFFFFF = va % 2 ^ 25 := Nat.and_two_pow_sub_one_eq_mod va 25
  have joined := Nat.two_pow_add_eq_or_of_lt (Nat.mod_lt va (Nat.two_pow_pos 25)) (pa / 2 ^ 25)
  have whole : 2 ^ 25 * (pa / 2 ^ 25) = pa := by omega
  rw [target, block_desc_access pa a small (by omega), block_desc_field pa a small aligned, offset]
  rw [whole] at joined
  rw [joined]

theorem translate_page (mem : Memory) (root va va' : Nat) (page : va / 2 ^ 14 = va' / 2 ^ 14) :
    (translate mem root va).map Prod.snd = (translate mem root va').map Prod.snd := by
  have same : indices va = indices va' := by
    rw [indices_eq, indices_eq, page, show va / 2 ^ 25 = va' / 2 ^ 25 by omega,
      show va / 2 ^ 36 = va' / 2 ^ 36 by omega, show va / 2 ^ 47 = va' / 2 ^ 47 by omega]
  rw [translate, translate, same, Option.map_map, Option.map_map]
  rfl

theorem root_kept (pa : Nat) (small : pa < 2 ^ 48) (aligned : pa % 2 ^ 14 = 0) : pa &&& 0x0000FFFFFFFFFFFE = pa :=
  (and_field pa 1 47).trans (by omega)

theorem walk_high (known : Nat → Bool) (s : State) (va : Nat) (high : va >>> 48 = 0xFFFF) (comes : Nat → Nat → Prop)
    (onward : ∀ level t i u, comes level t → entry s.mem level t i = .table u → comes (level + 1) u)
    (knows : ∀ level t, comes level t → known t = true) (top : s.ttbr1 &&& 0x0000FFFFFFFFFFFE = s.ttbr1)
    (here : comes 0 s.ttbr1) : (s.walkWith known va).translation = translate s.mem s.ttbr1 va := by
  rw [State.walkWith, if_pos high, top]
  exact walk_translates known s.mem va comes onward knows s.ttbr1 here

theorem walk_low (known : Nat → Bool) (s : State) (va : Nat) (low : va >>> 48 = 0) (comes : Nat → Nat → Prop)
    (onward : ∀ level t i u, comes level t → entry s.mem level t i = .table u → comes (level + 1) u)
    (knows : ∀ level t, comes level t → known t = true) (top : s.ttbr0 &&& 0x0000FFFFFFFFFFFE = s.ttbr0)
    (here : comes 0 s.ttbr0) : (s.walkWith known va).translation = translate s.mem s.ttbr0 va := by
  rw [State.walkWith, if_neg (by omega), if_pos low, top]
  exact walk_translates known s.mem va comes onward knows s.ttbr0 here

theorem touched_found (walk : Walk) (hit : Nat × Access) (found : walk.touched.translation = some hit) :
    walk.translation = some hit := by
  cases walk with
  | leaf softPa desc =>
      by_cases clear : desc &&& af = 0
      · rw [Walk.touched, if_pos clear] at found
        cases found
      · rwa [Walk.touched, if_neg clear] at found
  | _ => exact found

theorem hardware_walk_eq (s : State) (va : Nat)
    (flagged : ∀ pa rights, (s.walkWith (fun _ => true) va).translation = some (pa, rights) → rights.touchable = true) :
    s.hardwareWalk va = s.walkWith (fun _ => true) va := by
  unfold State.hardwareWalk
  cases found : s.walkWith (fun _ => true) va with
  | leaf softPa desc =>
      rw [found] at flagged
      have set : desc &&& af ≠ 0 := of_decide_eq_true (flagged softPa (access desc) rfl)
      rw [Walk.touched, if_neg set]
  | _ => rfl

theorem hardware_walk_shown (s : State) (va pa : Nat) (shown : Option Attr)
    (maps : (s.walkWith (fun _ => true) va).translation = shown.map fun a => (pa, a.access)) :
    s.hardwareWalk va = s.walkWith (fun _ => true) va := by
  refine hardware_walk_eq s va fun found rights granted => ?_
  obtain ⟨a, _, pair⟩ := Option.map_eq_some_iff.mp (maps.symm.trans granted)
  obtain ⟨_, rfl⟩ := Prod.mk.inj pair
  cases a <;> rfl

theorem entry_write (mem : Memory) (t i desc level u j : Nat) (t_aligned : t % 2 ^ 14 = 0) (u_aligned : u % 2 ^ 14 = 0)
    (inside : i < 2048) :
    entry (writeTable mem t i desc) level u j = if u = t ∧ j = i then decode level desc else entry mem level u j := by
  unfold entry writeTable store
  by_cases small : j < 2048
  · rw [if_pos small, if_pos small, Function.update_apply]
    by_cases same : u = t ∧ j = i
    · rw [if_pos same, if_pos (by rw [same.1, same.2])]
    · rw [if_neg same, if_neg (by omega)]
  · rw [if_neg small, if_neg small, if_neg (by omega)]

end Mmu

end Opal
