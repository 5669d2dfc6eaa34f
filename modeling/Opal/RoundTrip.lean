import Opal.Devicetree

set_option autoImplicit false

namespace Opal

open Reading

namespace Fdt

theorem from_be_be32 (n : Nat) : fromBe (be32 n) = n % 2 ^ 32 := by
  simp only [fromBe, be32, List.foldl_cons, List.foldl_nil, UInt8.toNat_ofNat']
  omega

theorem from_be_be64 (n : Nat) (small : n < 2 ^ 64) : fromBe (be64 n) = n := by
  rw [be64, from_be_append, from_be_be32, from_be_be32]
  have length : (be32 n).length = 4 := rfl
  rw [length]
  omega

section
variable {fdt : Fdtr} {mem : Nat → UInt8}

theorem at_words (off : Nat) (words : List Nat) (here : fdt.At mem off (words.flatMap be32)) (i : Nat)
    (inside : i < words.length) : fdt.At mem (off + 4 * i) (be32 words[i]) := by
  induction words generalizing off i with
  | nil => exact absurd inside (Nat.not_lt_zero i)
  | cons word rest ih =>
      rw [List.flatMap_cons, at_append] at here
      cases i with
      | zero => exact here.1
      | succ i =>
          have later := ih (off + 4) here.2 i (Nat.lt_of_succ_lt_succ inside)
          rw [Nat.add_assoc, Nat.add_comm 4 (4 * i)] at later
          exact later

theorem yields_at (off : Nat) (bytes : List UInt8) (here : fdt.At mem off bytes) :
    Yields mem (load (fdt.base + off) bytes.length) (.value bytes) := by
  have loaded : Yields mem _ _ := yields_load (fdt.base + off) bytes.length
  rwa [here] at loaded

theorem yields_word (off : Nat) (bytes : List UInt8) (here : fdt.At mem off bytes) :
    Yields mem (fetch (fdt.base + off) bytes.length) (.value bytes) := by
  have fetched : Yields mem _ _ := yields_fetch (fdt.base + off) bytes.length
  rwa [here] at fetched

section
variable (room : fdt.base + fdt.header.totalsize < wordEnd)
include room

theorem yields_read_be_u32 (off bound n : Nat) (small : n < 2 ^ 32) (here : fdt.At mem off (be32 n))
    (fits : off + 4 ≤ bound) (within : bound ≤ fdt.header.totalsize) :
    Yields mem (readBeU32 fdt.base off bound) (.value n) := by
  refine (yields_checked_add off 4 (by omega)).bind ?_
  rw [if_neg (by omega)]
  refine (yields_add fdt.base off (by omega)).bind ?_
  refine (yields_word off (be32 n) here).bind ?_
  have whole : fromBe (be32 n) = n := (from_be_be32 n).trans (Nat.mod_eq_of_lt small)
  rw [whole]
  exact yields_pure n

theorem yields_read_be_u64 (off bound n : Nat) (small : n < 2 ^ 64) (here : fdt.At mem off (be64 n))
    (fits : off + 8 ≤ bound) (within : bound ≤ fdt.header.totalsize) :
    Yields mem (readBeU64 fdt.base off bound) (.value n) := by
  refine (yields_checked_add off 8 (by omega)).bind ?_
  rw [if_neg (by omega)]
  refine (yields_add fdt.base off (by omega)).bind ?_
  refine (yields_word off (be64 n) here).bind ?_
  rw [from_be_be64 n small]
  exact yields_pure n

theorem yields_read_cstr (off bound : Nat) (text : List UInt8) (plain : Text text)
    (here : fdt.At mem off (text ++ [0])) (fits : off + text.length < bound) (within : bound ≤ fdt.header.totalsize) :
    Yields mem (readCstr fdt.base off bound) (.value text) := by
  have scan : ∀ done rest : List UInt8, text = done ++ rest →
      Unrolls mem (scanRound fdt.base bound) (off + done.length) (.value (off + text.length)) := by
    intro done rest
    induction rest generalizing done with
    | nil =>
        intro whole
        rw [List.append_nil] at whole
        subst whole
        refine .done _ _ ?_
        have nul := ((at_append off text [0]).mp here).2
        unfold scanRound
        rw [if_pos fits]
        refine (yields_add fdt.base _ (by omega)).bind ?_
        refine (yields_at _ [0] nul).bind ?_
        rw [if_pos rfl]
        exact yields_pure _
    | cons byte rest ih =>
        intro whole
        have length : text.length = done.length + (rest.length + 1) := by
          rw [whole, List.length_append, List.length_cons]
        have split : text ++ [0] = done ++ ([byte] ++ (rest ++ [0])) := by simp [whole]
        rw [split, at_append, at_append] at here
        have character : byte ≠ 0 := by
          rintro rfl
          exact plain.2 (by simp [whole])
        have later := ih (done ++ [byte]) (by simp [whole])
        rw [List.length_append, List.length_singleton, ← Nat.add_assoc] at later
        refine .again _ _ _ ?_ later
        unfold scanRound
        rw [if_pos (by omega)]
        refine (yields_add fdt.base _ (by omega)).bind ?_
        refine (yields_at _ [byte] here.2.1).bind ?_
        rw [if_neg (by simpa using character)]
        exact (yields_add _ 1 (by omega)).bind (yields_pure _)
  have stops : Yields mem (scanCstr fdt.base bound off) (.value (off + text.length)) :=
    yields_loop (scan [] text rfl)
  unfold readCstr
  rw [if_neg (by omega)]
  refine stops.bind ?_
  rw [if_neg (by omega)]
  refine (yields_add fdt.base off (by omega)).bind ?_
  refine (yields_sub _ off (Nat.le_add_right _ _)).bind ?_
  rw [Nat.add_sub_cancel_left]
  refine (yields_at off text ((at_append off text [0]).mp here).1).bind ?_
  rw [fromUtf8, if_pos plain.1]
  exact yields_pure text

end

theorem yields_padded_name (name : List UInt8) (short : name.length < 2 ^ 32) :
    Yields mem (Fdtr.paddedName name) (.value (mask4 (name.length + 1 + 3))) :=
  (yields_add _ 1 (by unfold wordEnd; omega)).bind
    ((yields_add _ 3 (by unfold wordEnd; omega)).bind (yields_pure _))

theorem body_le {off stop : Nat} {props : List Property} {children : List Tree}
    (body : fdt.Body mem off props children stop) : off + 4 ≤ stop := by
  induction body with
  | close off _ => exact le_refl _
  | nop off _ _ stop _ _ ih => omega
  | prop off next p _ _ stop gives _ ih =>
      have next_eq := gives.next
      omega
  | child off inner name _ _ after _ stop opens _ _ within rest =>
      have inner_eq := opens.next
      omega

section
variable (sound : fdt.Sound)
include sound

theorem yields_token (off n : Nat) (small : n < 2 ^ 32) (here : fdt.At mem off (be32 n))
    (fits : off + 4 ≤ fdt.structStop) : Yields mem (fdt.structU32 off) (.value n) :=
  yields_read_be_u32 sound.room off _ n small here (le_trans fits sound.structEnd) (le_refl _)

theorem yields_struct_end : Yields mem fdt.structEnd (.value fdt.structStop) := by
  have stops := struct_stop_small sound
  exact yields_add _ _ (by unfold wordEnd Fdtr.structStop at *; omega)

theorem yields_string_at (nameoff : Nat) (name : List UInt8) (plain : Text name)
    (here : fdt.At mem (fdt.header.offDtStrings + nameoff) (name ++ [0]))
    (inside : nameoff + name.length < fdt.header.sizeDtStrings) :
    Yields mem (fdt.stringAt nameoff) (.value name) := by
  have small := sound.small
  have ends := sound.stringsEnd
  refine (yields_checked_add _ nameoff (by unfold wordEnd; omega)).bind ?_
  refine (yields_add _ _ (by unfold wordEnd; omega)).bind ?_
  rw [if_neg (by omega)]
  exact yields_read_cstr sound.room _ _ name plain here (by omega) ends

theorem yields_struct_bytes (off len : Nat) (fits : off + len ≤ fdt.header.totalsize) :
    Yields mem (fdt.structBytes off len) (.value (fdt.base + off)) := by
  have room := sound.room
  refine (yields_checked_add off len (by omega)).bind ?_
  rw [if_neg (by omega)]
  exact yields_add fdt.base off (by omega)

theorem yields_bounds {α : Type} (off : Nat) (fits : off + 4 ≤ fdt.structStop) (rest : Reading α) (result : Result α)
    (goes : Yields mem rest result) :
    Yields mem (checkedAdd off 4 >>= fun offEnd => if offEnd > fdt.structStop then missing else rest) result := by
  have stops := struct_stop_small sound
  refine (yields_checked_add off 4 (by unfold wordEnd; omega)).bind ?_
  rw [if_neg (by omega)]
  exact goes

theorem prop_unrolls (name : List UInt8) {off stop : Nat} {props : List Property} {children : List Tree}
    (body : fdt.Body mem off props children stop) (inside : stop ≤ fdt.structStop) :
    Unrolls mem (fdt.propRound name fdt.structStop) off
      (orMissing ((props.find? fun p => decide (p.name = name)).map Property.value)) := by
  have small := sound.small
  have stops := struct_stop_small sound
  have low := body_le body
  induction body with
  | close off token =>
      refine .missing off (yields_bounds sound off (by omega) _ _ ?_)
      refine (yields_token sound off fdtEndNode (by decide) token (by omega)).bind ?_
      refine (yields_checked_add off 4 (by unfold wordEnd; omega)).bind ?_
      exact yields_missing
  | nop off props children stop token rest ih =>
      have later := body_le rest
      refine .again off (off + 4) _ (yields_bounds sound off (by omega) _ _ ?_) (ih inside later)
      refine (yields_token sound off fdtNop (by decide) token (by omega)).bind ?_
      refine (yields_checked_add off 4 (by unfold wordEnd; omega)).bind ?_
      exact yields_pure _
  | prop off next p props children stop gives rest ih =>
      have later := body_le rest
      have next_eq := gives.next
      have padded := le_mask4 p.value.length
      obtain ⟨nameoff, near, bytes, string, short⟩ := gives.bytes
      rw [at_append, at_append, at_append] at bytes
      obtain ⟨token, len, nameoffHere, value⟩ := bytes
      change fdt.At mem (off + 4) _ at len
      change fdt.At mem (off + 4 + 4) _ at nameoffHere
      change fdt.At mem (off + 4 + 8) _ at value
      have round : Yields mem (fdt.propRound name fdt.structStop off)
          (.value (if p.name = name then .done p.value else .again next)) := by
        refine yields_bounds sound off (by omega) _ _ ?_
        refine (yields_token sound off fdtProp (by decide) token (by omega)).bind ?_
        refine (yields_checked_add off 4 (by unfold wordEnd; omega)).bind ?_
        rw [if_pos rfl]
        refine (yields_token sound (off + 4) _ gives.short len (by omega)).bind ?_
        refine (yields_checked_add (off + 4) 4 (by unfold wordEnd; omega)).bind ?_
        refine (yields_token sound (off + 4 + 4) _ near nameoffHere (by omega)).bind ?_
        refine (yields_checked_add (off + 4) 8 (by unfold wordEnd; omega)).bind ?_
        refine (yields_string_at sound nameoff p.name gives.text string short).bind ?_
        refine (yields_struct_bytes sound (off + 4 + 8) p.value.length (by omega)).bind ?_
        by_cases hit : p.name = name
        · rw [if_pos hit, if_pos hit]
          exact (yields_at (off + 4 + 8) p.value value).bind (yields_pure _)
        · rw [if_neg hit, if_neg hit, next_eq]
          refine (yields_checked_add _ 3 (by unfold wordEnd; omega)).bind ?_
          refine (yields_checked_add (off + 4 + 8) _ (by unfold wordEnd; omega)).bind ?_
          exact yields_pure _
      by_cases hit : p.name = name
      · rw [if_pos hit] at round
        rw [List.find?_cons_of_pos (by simpa using hit)]
        exact .done off p.value round
      · rw [if_neg hit] at round
        rw [List.find?_cons_of_neg (by simpa using hit)]
        exact .again off next _ round (ih inside later)
  | child off inner name _ _ after _ stop opens _ _ _ _ =>
      refine .missing off (yields_bounds sound off (by omega) _ _ ?_)
      refine (yields_token sound off fdtBeginNode (by decide) ((at_append off _ _).mp opens.bytes).1 (by omega)).bind ?_
      refine (yields_checked_add off 4 (by unfold wordEnd; omega)).bind ?_
      exact yields_missing

theorem first_child_unrolls {off stop : Nat} {props : List Property} {children : List Tree}
    (body : fdt.Body mem off props children stop) (inside : stop ≤ fdt.structStop) :
    (children = [] ∧ Unrolls mem (fdt.firstChildRound fdt.structStop) off .missing) ∨
      ∃ first, Unrolls mem (fdt.firstChildRound fdt.structStop) off (.value first) ∧
        off ≤ first ∧ fdt.Body mem first [] children stop := by
  have small := sound.small
  have stops := struct_stop_small sound
  have low := body_le body
  induction body with
  | close off token =>
      refine .inl ⟨rfl, .missing off (yields_bounds sound off (by omega) _ _ ?_)⟩
      refine (yields_token sound off fdtEndNode (by decide) token (by omega)).bind ?_
      exact yields_missing
  | nop off props children stop token rest ih =>
      have later := body_le rest
      have round : Yields mem (fdt.firstChildRound fdt.structStop off) (.value (.again (off + 4))) := by
        refine yields_bounds sound off (by omega) _ _ ?_
        refine (yields_token sound off fdtNop (by decide) token (by omega)).bind ?_
        exact (yields_checked_add off 4 (by unfold wordEnd; omega)).bind (yields_pure _)
      rcases ih inside later with ⟨none_, goes⟩ | ⟨first, goes, past, body⟩
      · exact .inl ⟨none_, .again off _ _ round goes⟩
      · exact .inr ⟨first, .again off _ _ round goes, by omega, body⟩
  | prop off next p props children stop gives rest ih =>
      have later := body_le rest
      have next_eq := gives.next
      have padded := le_mask4 p.value.length
      obtain ⟨nameoff, _, bytes, _⟩ := gives.bytes
      rw [at_append, at_append] at bytes
      obtain ⟨token, len, _⟩ := bytes
      change fdt.At mem (off + 4) _ at len
      have round : Yields mem (fdt.firstChildRound fdt.structStop off) (.value (.again next)) := by
        refine yields_bounds sound off (by omega) _ _ ?_
        refine (yields_token sound off fdtProp (by decide) token (by omega)).bind ?_
        rw [if_pos rfl]
        refine (yields_checked_add off 4 (by unfold wordEnd; omega)).bind ?_
        refine (yields_token sound (off + 4) _ gives.short len (by omega)).bind ?_
        refine (yields_checked_add _ 3 (by unfold wordEnd; omega)).bind ?_
        refine (yields_checked_add off 4 (by unfold wordEnd; omega)).bind ?_
        refine (yields_checked_add (off + 4) 8 (by unfold wordEnd; omega)).bind ?_
        refine (yields_checked_add (off + 4 + 8) _ (by unfold wordEnd; omega)).bind ?_
        rw [next_eq]
        exact yields_pure _
      rcases ih inside later with ⟨none_, goes⟩ | ⟨first, goes, past, body⟩
      · exact .inl ⟨none_, .again off _ _ round goes⟩
      · exact .inr ⟨first, .again off _ _ round goes, by omega, body⟩
  | child off inner name props kids after children stop opens within rest _ _ =>
      refine .inr ⟨off, .done off off (yields_bounds sound off (by omega) _ _ ?_), le_refl _,
        .child off inner name props kids after children stop opens within rest⟩
      refine (yields_token sound off fdtBeginNode (by decide) ((at_append off _ _).mp opens.bytes).1 (by omega)).bind ?_
      exact yields_pure _

theorem yields_started {α : Type} (off : Nat) (started : 0 < off) (fits : off + 4 ≤ fdt.structStop) (rest : Reading α)
    (result : Result α) (goes : Yields mem rest result) :
    Yields mem (if off = 0 then missing
      else add off 4 >>= fun offEnd => if offEnd > fdt.structStop then missing else rest) result := by
  have stops := struct_stop_small sound
  rw [if_neg (Nat.ne_of_gt started)]
  refine (yields_add off 4 (by unfold wordEnd; omega)).bind ?_
  rw [if_neg (by omega)]
  exact goes

theorem next_round_nop (off depth : Nat) (started : 0 < off) (fits : off + 4 ≤ fdt.structStop)
    (token : fdt.At mem off (be32 fdtNop)) :
    Yields mem (fdt.nextRound fdt.structStop ⟨off, depth⟩) (.value (.again ⟨off + 4, depth⟩)) := by
  have stops := struct_stop_small sound
  refine yields_started sound off started fits _ _ ?_
  refine (yields_token sound off fdtNop (by decide) token fits).bind ?_
  exact (yields_add off 4 (by unfold wordEnd; omega)).bind (yields_pure _)

theorem next_round_prop (off next depth : Nat) (p : Property) (started : 0 < off) (gives : fdt.Gives mem off p next)
    (fits : next ≤ fdt.structStop) :
    Yields mem (fdt.nextRound fdt.structStop ⟨off, depth⟩) (.value (.again ⟨next, depth⟩)) := by
  have stops := struct_stop_small sound
  have next_eq := gives.next
  have short := gives.short
  obtain ⟨nameoff, _, bytes, _⟩ := gives.bytes
  rw [at_append, at_append] at bytes
  obtain ⟨token, len, _⟩ := bytes
  change fdt.At mem (off + 4) _ at len
  refine yields_started sound off started (by omega) _ _ ?_
  refine (yields_token sound off fdtProp (by decide) token (by omega)).bind ?_
  refine (yields_add off 4 (by unfold wordEnd; omega)).bind ?_
  rw [if_neg (by decide), if_neg (by decide), if_pos rfl]
  refine (yields_token sound (off + 4) _ short len (by omega)).bind ?_
  refine (yields_add _ 3 (by unfold wordEnd; omega)).bind ?_
  refine (yields_add 8 _ (by unfold wordEnd; omega)).bind ?_
  have same : off + 4 + (8 + mask4 (p.value.length + 3)) = next := by omega
  refine (yields_add (off + 4) _ (by unfold wordEnd; omega)).bind ?_
  rw [same]
  exact yields_pure _

theorem next_round_begin (off inner depth : Nat) (name : List UInt8) (started : 0 < off) (shallow : depth ≤ off)
    (opens : fdt.Opens mem off name inner) (fits : inner ≤ fdt.structStop) :
    Yields mem (fdt.nextRound fdt.structStop ⟨off, depth⟩)
      (.value (if depth = 0 then .done (⟨off⟩, ⟨inner, 1⟩) else .again ⟨inner, depth + 1⟩)) := by
  have stops := struct_stop_small sound
  have inner_eq := opens.next
  have padded := le_mask4 (name.length + 1)
  have bytes := opens.bytes
  rw [at_append] at bytes
  obtain ⟨token, text⟩ := bytes
  change fdt.At mem (off + 4) _ at text
  refine yields_started sound off started (by omega) _ _ ?_
  refine (yields_token sound off fdtBeginNode (by decide) token (by omega)).bind ?_
  refine (yields_add off 4 (by unfold wordEnd; omega)).bind ?_
  rw [if_pos rfl]
  refine (yields_read_cstr sound.room (off + 4) _ name opens.text text (by omega) (le_refl _)).bind ?_
  refine (yields_padded_name name (by omega)).bind ?_
  refine (yields_checked_add (off + 4) _ (by unfold wordEnd; omega)).bind ?_
  rw [← inner_eq]
  by_cases top : depth = 0
  · rw [if_pos top, if_pos top]
    refine (yields_sub inner 4 (by omega)).bind ?_
    refine (yields_sub _ _ (by omega)).bind ?_
    have same : inner - 4 - mask4 (name.length + 1 + 3) = off := by omega
    rw [same]
    exact yields_pure _
  · rw [if_neg top, if_neg top]
    exact (yields_add depth 1 (by unfold wordEnd; omega)).bind (yields_pure _)

theorem next_round_end (off depth : Nat) (started : 0 < off) (fits : off + 4 ≤ fdt.structStop)
    (token : fdt.At mem off (be32 fdtEndNode)) :
    Yields mem (fdt.nextRound fdt.structStop ⟨off, depth⟩)
      (if depth = 0 then .missing else .value (.again ⟨off + 4, depth - 1⟩)) := by
  have stops := struct_stop_small sound
  refine yields_started sound off started fits _ _ ?_
  refine (yields_token sound off fdtEndNode (by decide) token fits).bind ?_
  refine (yields_add off 4 (by unfold wordEnd; omega)).bind ?_
  rw [if_neg (by decide), if_pos rfl]
  by_cases top : depth = 0
  · rw [if_pos top, if_pos top]
    exact yields_missing
  · rw [if_neg top, if_neg top]
    exact (yields_sub depth 1 (by omega)).bind (yields_pure _)

-- Inside a node the iterator passes all that is left of it and comes out one
-- level higher.
theorem skip_unrolls {off stop : Nat} {props : List Property} {children : List Tree}
    (body : fdt.Body mem off props children stop) (inside : stop ≤ fdt.structStop) (started : 0 < off) (depth : Nat)
    (shallow : depth < off) (result : Result (Node × NodeIter))
    (out : Unrolls mem (fdt.nextRound fdt.structStop) ⟨stop, depth⟩ result) :
    Unrolls mem (fdt.nextRound fdt.structStop) ⟨off, depth + 1⟩ result := by
  have low := body_le body
  induction body generalizing depth with
  | close off token =>
      have round := next_round_end sound off (depth + 1) started inside token
      rw [if_neg (Nat.succ_ne_zero depth)] at round
      exact .again _ _ _ round out
  | nop off props children stop token rest ih =>
      have later := body_le rest
      have round := next_round_nop sound off (depth + 1) started (by omega) token
      exact .again _ _ _ round (ih inside (by omega) depth (by omega) out later)
  | prop off next p props children stop gives rest ih =>
      have later := body_le rest
      have next_eq := gives.next
      have round := next_round_prop sound off next (depth + 1) p started gives (by omega)
      exact .again _ _ _ round (ih inside (by omega) depth (by omega) out later)
  | child off inner name props kids after children stop opens within rest deep ih =>
      have first := body_le within
      have later := body_le rest
      have inner_eq := opens.next
      have padded := le_mask4 (name.length + 1)
      have round := next_round_begin sound off inner (depth + 1) name started (by omega) opens (by omega)
      rw [if_neg (Nat.succ_ne_zero depth)] at round
      have back := ih inside (by omega) depth (by omega) out later
      exact .again _ _ _ round (deep (by omega) (by omega) (depth + 1) (by omega) back first)

-- At the child level it yields the next child, if there is one, and stands
-- inside it.
theorem next_unrolls {off stop : Nat} {props : List Property} {children : List Tree}
    (body : fdt.Body mem off props children stop) (inside : stop ≤ fdt.structStop) (started : 0 < off) :
    (children = [] ∧ Unrolls mem (fdt.nextRound fdt.structStop) ⟨off, 0⟩ .missing) ∨
      ∃ child rest inner after, children = child :: rest ∧
        Unrolls mem (fdt.nextRound fdt.structStop) ⟨off, 0⟩ (.value (child.handle, ⟨inner, 1⟩)) ∧ 0 < inner ∧
          fdt.Body mem inner child.props child.children after ∧ 0 < after ∧ fdt.Body mem after [] rest stop := by
  have low := body_le body
  induction body with
  | close off token =>
      have round := next_round_end sound off 0 started inside token
      exact .inl ⟨rfl, .missing _ round⟩
  | nop off props children stop token rest ih =>
      have later := body_le rest
      have round := next_round_nop sound off 0 started (by omega) token
      rcases ih inside (by omega) later with ⟨none_, goes⟩ | ⟨child, others, inner, after, same, goes, more⟩
      · exact .inl ⟨none_, .again _ _ _ round goes⟩
      · exact .inr ⟨child, others, inner, after, same, .again _ _ _ round goes, more⟩
  | prop off next p props children stop gives rest ih =>
      have later := body_le rest
      have next_eq := gives.next
      have round := next_round_prop sound off next 0 p started gives (by omega)
      rcases ih inside (by omega) later with ⟨none_, goes⟩ | ⟨child, others, inner, after, same, goes, more⟩
      · exact .inl ⟨none_, .again _ _ _ round goes⟩
      · exact .inr ⟨child, others, inner, after, same, .again _ _ _ round goes, more⟩
  | child off inner name props kids after children stop opens within rest _ _ =>
      have first := body_le within
      have later := body_le rest
      have inner_eq := opens.next
      have round := next_round_begin sound off inner 0 name started (by omega) opens (by omega)
      exact .inr ⟨.node off name props kids, children, inner, after, rfl, .done _ _ round, by omega, within, by omega,
        rest⟩

theorem yields_next {iter : NodeIter} {result : Result (Node × NodeIter)}
    (goes : Unrolls mem (fdt.nextRound fdt.structStop) iter result) : Yields mem (fdt.next iter) result :=
  (yields_struct_end sound).bind (yields_loop goes)

-- The iterator yields these nodes and then None.
inductive Enumerates (fdt : Fdtr) (mem : Nat → UInt8) : NodeIter → List Node → Prop
  | nil (iter : NodeIter) (ends : Yields mem (fdt.next iter) .missing) : Enumerates fdt mem iter []
  | cons (iter after : NodeIter) (child : Node) (rest : List Node) (first : Yields mem (fdt.next iter) (.value (child, after)))
      (later : Enumerates fdt mem after rest) : Enumerates fdt mem iter (child :: rest)

theorem body_enumerates (children : List Tree) (off stop : Nat) (props : List Property) (iter : NodeIter)
    (body : fdt.Body mem off props children stop) (inside : stop ≤ fdt.structStop) (started : 0 < off)
    (joins : ∀ result, Unrolls mem (fdt.nextRound fdt.structStop) ⟨off, 0⟩ result →
      Unrolls mem (fdt.nextRound fdt.structStop) iter result) :
    Enumerates fdt mem iter (children.map Tree.handle) := by
  induction children generalizing off props iter with
  | nil =>
      rcases next_unrolls sound body inside started with ⟨_, goes⟩ | ⟨_, _, _, _, no, _⟩
      · exact .nil iter (yields_next sound (joins _ goes))
      · cases no
  | cons child rest ih =>
      rcases next_unrolls sound body inside started with
        ⟨no, _⟩ | ⟨child, rest, inner, after, same, goes, deep, within, further, more⟩
      · cases no
      · cases same
        refine .cons iter ⟨inner, 1⟩ child.handle _ (yields_next sound (joins _ goes)) ?_
        have fits := body_le more
        refine ih after [] ⟨inner, 1⟩ more further fun result out => ?_
        exact skip_unrolls sound within (by omega) deep 0 deep result out

-- A node as it lies in the blob.
def Lies (fdt : Fdtr) (mem : Nat → UInt8) (tree : Tree) : Prop :=
  ∃ inner stop, fdt.Opens mem tree.handle.offset tree.name inner ∧ fdt.Body mem inner tree.props tree.children stop ∧
    stop ≤ fdt.structStop

omit sound in
theorem child_lies {off stop : Nat} {props : List Property} {children : List Tree}
    (body : fdt.Body mem off props children stop) (inside : stop ≤ fdt.structStop) (child : Tree)
    (member : child ∈ children) : Lies fdt mem child := by
  induction body with
  | close off _ => exact absurd member List.not_mem_nil
  | nop _ _ _ _ _ _ ih => exact ih inside member
  | prop _ _ _ _ _ _ _ _ ih => exact ih inside member
  | child off inner name props kids after children stop opens within rest _ ih =>
      rcases List.mem_cons.mp member with rfl | later
      · have fits := body_le rest
        exact ⟨inner, after, opens, within, by omega⟩
      · exact ih inside later

section
variable (tree : Tree) (lies : Lies fdt mem tree)
include lies

theorem yields_inner : ∃ inner stop, 0 < inner ∧ fdt.Body mem inner tree.props tree.children stop ∧
    stop ≤ fdt.structStop ∧ inner = tree.handle.offset + 4 + mask4 (tree.name.length + 1 + 3) ∧
      tree.name.length < 2 ^ 32 ∧ tree.handle.offset < inner ∧ inner < 2 ^ 32 ∧
        Yields mem (fdt.structCstr (tree.handle.offset + 4)) (.value tree.name) := by
  have stops := struct_stop_small sound
  obtain ⟨inner, stop, opens, body, inside⟩ := lies
  have inner_eq := opens.next
  have padded := le_mask4 (tree.name.length + 1)
  have low := body_le body
  have text := ((at_append tree.handle.offset _ _).mp opens.bytes).2
  change fdt.At mem (tree.handle.offset + 4) _ at text
  refine ⟨inner, stop, by omega, body, inside, inner_eq, by omega, by omega, by omega, ?_⟩
  exact yields_read_cstr sound.room _ _ tree.name opens.text text (by omega) (le_refl _)

theorem yields_full_name : Yields mem (fdt.fullName tree.handle) (.value tree.name) := by
  obtain ⟨inner, _, _, _, _, _, _, past, small, name⟩ := yields_inner sound tree lies
  have raw : Yields mem (fdt.nodeNameRaw tree.handle) (.value tree.name) :=
    (yields_add _ 4 (by unfold wordEnd; omega)).bind name
  exact raw.attempt.bind (yields_pure _)

theorem yields_prop (name : List UInt8) :
    Yields mem (fdt.prop tree.handle name) (orMissing (tree.firstProp name)) := by
  obtain ⟨inner, stop, _, body, inside, inner_eq, short, past, small, text⟩ := yields_inner sound tree lies
  refine (yields_add _ 4 (by unfold wordEnd; omega)).bind ?_
  refine text.bind ?_
  refine (yields_padded_name _ short).bind ?_
  refine (yields_add _ _ (by unfold wordEnd; omega)).bind ?_
  refine (yields_struct_end sound).bind (yields_loop ?_)
  rw [← inner_eq]
  exact prop_unrolls sound name body inside

theorem yields_children :
    ∃ iter, Yields mem (fdt.children tree.handle) (.value iter) ∧
      Enumerates fdt mem iter (tree.children.map Tree.handle) := by
  obtain ⟨inner, stop, started, body, inside, inner_eq, short, past, small, text⟩ := yields_inner sound tree lies
  have walks : ∀ result, Unrolls mem (fdt.firstChildRound fdt.structStop) inner result →
      Yields mem (fdt.firstChildOffset tree.handle) result := fun result goes => by
    refine (yields_add _ 4 (by unfold wordEnd; omega)).bind ?_
    refine text.bind ?_
    refine (yields_padded_name _ short).bind ?_
    refine (yields_checked_add _ _ (by unfold wordEnd; omega)).bind ?_
    refine (yields_struct_end sound).bind (yields_loop ?_)
    rw [← inner_eq]
    exact goes
  rcases first_child_unrolls sound body inside with ⟨none_, goes⟩ | ⟨first, goes, past, from_⟩
  · refine ⟨⟨0, 0⟩, (walks _ goes).attempt_missing.bind (yields_pure _), ?_⟩
    rw [none_]
    exact .nil _ ((yields_struct_end sound).bind (yields_loop (.missing _ yields_missing)))
  · refine ⟨⟨first, 0⟩, (walks _ goes).attempt.bind (yields_pure _), ?_⟩
    exact body_enumerates sound tree.children first stop [] ⟨first, 0⟩ from_ inside (by omega) fun _ goes => goes

end

end

section
variable {σ β : Type} (body : Node → σ → Reading (Round σ β)) (finish : σ → β) {iter : NodeIter} (state : σ)

theorem each_round_last (ends : Yields mem (fdt.next iter) .missing) :
    Yields mem (fdt.eachRound body finish (iter, state)) (.value (.done (finish state))) :=
  ends.attempt_missing.bind (yields_pure _)

theorem each_round_again {after : NodeIter} {child : Node} {later : σ}
    (first : Yields mem (fdt.next iter) (.value (child, after)))
    (goes : Yields mem (body child state) (.value (.again later))) :
    Yields mem (fdt.eachRound body finish (iter, state)) (.value (.again (after, later))) :=
  first.attempt.bind (goes.bind (yields_pure _))

theorem each_round_done {after : NodeIter} {child : Node} {b : β}
    (first : Yields mem (fdt.next iter) (.value (child, after)))
    (goes : Yields mem (body child state) (.value (.done b))) :
    Yields mem (fdt.eachRound body finish (iter, state)) (.value (.done b)) :=
  first.attempt.bind (goes.bind (yields_pure _))

end

theorem yields_exhaust {iter : NodeIter} {kids : List Node} (lists : Enumerates fdt mem iter kids) :
    Yields mem (fdt.exhaust iter) (.value kids) := by
  have whole : ∀ found, Unrolls mem (fdt.eachRound (fun child found => return .again (found ++ [child])) id)
      (iter, found) (.value (found ++ kids)) := by
    induction lists with
    | nil iter ends =>
        intro found
        rw [List.append_nil]
        exact .done _ _ (each_round_last _ _ found ends)
    | cons iter after child rest first later ih =>
        intro found
        have next := ih (found ++ [child])
        rw [List.append_assoc, List.singleton_append] at next
        exact .again _ _ _ (each_round_again _ _ found first (yields_pure _)) next
  exact yields_loop (whole [])

theorem yields_matches (full component : List UInt8) :
    Yields mem (Fdtr.matchesComponent full component)
      (.value (decide (full = component) ||
        (decide (Fdtr.atSign ∉ component) && decide (full.takeWhile (· ≠ Fdtr.atSign) = component)))) := by
  unfold Fdtr.matchesComponent
  by_cases same : full = component
  · rw [if_pos same, decide_eq_true same, Bool.true_or]
    exact yields_pure _
  · rw [if_neg same, decide_eq_false same, Bool.false_or]
    by_cases unit : Fdtr.atSign ∈ component
    · rw [if_pos unit, decide_eq_false (not_not_intro unit), Bool.false_and]
      exact yields_pure _
    · rw [if_neg unit, decide_eq_true unit, Bool.true_and]
      have bare : full.takeWhile (· ≠ Fdtr.atSign) = full.take (full.findIdx (· = Fdtr.atSign)) := by
        rw [List.takeWhile_eq_take_findIdx_not]
        simp
      cases found : full.findIdx? (· = Fdtr.atSign) with
      | none =>
          have beyond := List.findIdx?_eq_none_iff_findIdx_eq.mp found
          rw [bare, beyond, List.take_length, decide_eq_false same]
          exact yields_pure _
      | some atPos =>
          obtain ⟨inside, here⟩ := List.findIdx?_eq_some_iff_findIdx_eq.mp found
          have hit : full[atPos] = Fdtr.atSign := by
            have first := List.findIdx?_eq_some_iff_getElem.mp found
            exact of_decide_eq_true first.2.1
          have boundary : (full[atPos]?).any continuation = false := by
            rw [List.getElem?_eq_getElem inside, hit]
            rfl
          have sliced : Yields mem (Fdtr.sliceStr full atPos) (.value (full.take atPos)) := by
            rw [Fdtr.sliceStr, boundary, if_neg Bool.false_ne_true, slice,
              if_pos ⟨Nat.zero_le _, Nat.le_of_lt inside⟩, List.drop_zero]
            exact yields_pure _
          rw [bare, here]
          exact sliced.bind (yields_pure _)

section
variable (sound : fdt.Sound)
include sound

theorem find_child_unrolls (component : List UInt8) (children : List Tree) (iter : NodeIter)
    (lists : Enumerates fdt mem iter (children.map Tree.handle)) (lie : ∀ child ∈ children, Lies fdt mem child) :
    Unrolls mem (fdt.eachRound (fdt.findRound component) fun _ => none) (iter, ())
      (.value ((children.find? (Tree.answersTo component)).map Tree.handle)) := by
  induction children generalizing iter with
  | nil =>
      cases lists with
      | nil _ ends => exact .done _ _ (each_round_last _ _ () ends)
  | cons child rest ih =>
      cases lists with
      | cons _ after _ _ first later =>
          have named := yields_full_name sound child (lie child List.mem_cons_self)
          have looked : Yields mem (fdt.findRound component child.handle ())
              (.value (if child.answersTo component then .done (some child.handle) else .again ())) := by
            refine named.bind ((yields_matches child.name component).bind ?_)
            change Yields mem (if child.answersTo component then _ else _) _
            by_cases hit : child.answersTo component
            · rw [if_pos hit, if_pos hit]
              exact yields_pure _
            · rw [if_neg hit, if_neg hit]
              exact yields_pure _
          by_cases hit : child.answersTo component
          · rw [if_pos hit] at looked
            rw [List.find?_cons_of_pos hit]
            exact .done _ _ (each_round_done _ _ () first looked)
          · rw [if_neg hit] at looked
            rw [List.find?_cons_of_neg hit]
            exact .again _ _ _ (each_round_again _ _ () first looked)
              (ih after later fun other member => lie other (List.mem_cons_of_mem child member))

omit sound in
theorem children_lie (tree : Tree) (lies : Lies fdt mem tree) : ∀ child ∈ tree.children, Lies fdt mem child := by
  obtain ⟨inner, stop, _, body, inside⟩ := lies
  exact fun child member => child_lies body inside child member

theorem yields_find_child (tree : Tree) (lies : Lies fdt mem tree) (component : List UInt8) :
    Yields mem (fdt.findChild tree.handle component)
      (.value ((tree.children.find? (Tree.answersTo component)).map Tree.handle)) := by
  obtain ⟨iter, starts, lists⟩ := yields_children sound tree lies
  exact starts.bind (yields_loop (find_child_unrolls sound component _ iter lists (children_lie tree lies)))

theorem yields_descent (components : List (List UInt8)) (tree : Tree) (lies : Lies fdt mem tree) :
    Yields mem
      (components.foldlM (fun node component => do
        let found ← fdt.findChild node component
        match found with
        | none => missing
        | some child => return child) tree.handle)
      (orMissing ((tree.find components).map Tree.handle)) := by
  induction components generalizing tree with
  | nil =>
      cases tree with
      | node offset name props children => exact yields_pure _
  | cons component rest ih =>
      have step := yields_find_child sound tree lies component
      rw [List.foldlM_cons]
      cases found : tree.children.find? (Tree.answersTo component) with
      | none =>
          rw [found] at step
          have lost : tree.find (component :: rest) = none := by
            cases tree with
            | node _ _ _ _ => simp [Tree.find, found]
          rw [lost]
          exact Yields.bind_missing _ (step.bind yields_missing)
      | some child =>
          rw [found] at step
          have onward : tree.find (component :: rest) = child.find rest := by
            cases tree with
            | node _ _ _ _ => simp [Tree.find, found]
          rw [onward]
          have below := ih child (children_lie tree lies child (List.mem_of_find?_eq_some found))
          exact Yields.bind (a := child.handle) (step.bind (yields_pure _)) below

theorem reserve_unrolls (entries : List ReserveEntry) (off : Nat) (found : List ReserveEntry)
    (here : fdt.At mem off (entries.flatMap ReserveEntry.bytes ++ (be64 0 ++ be64 0)))
    (fits : off + 16 * (entries.length + 1) ≤ fdt.header.totalsize)
    (fine : ∀ entry ∈ entries, entry.address < 2 ^ 64 ∧ entry.size < 2 ^ 64 ∧ ¬ (entry.address = 0 ∧ entry.size = 0)) :
    Unrolls mem fdt.reserveRound (off, found) (.value (found ++ entries)) := by
  have small := sound.small
  induction entries generalizing off found with
  | nil =>
      rw [List.flatMap_nil, List.nil_append, at_append] at here
      obtain ⟨address, size⟩ := here
      change fdt.At mem (off + 8) _ at size
      have low : off + 16 ≤ fdt.header.totalsize := fits
      have ends : Yields mem (fdt.nextReserve off) .missing := by
        refine (yields_read_be_u64 sound.room off _ 0 (by decide) address (by omega) (le_refl _)).bind ?_
        refine (yields_add off 8 (by unfold wordEnd; omega)).bind ?_
        refine (yields_read_be_u64 sound.room (off + 8) _ 0 (by decide) size (by omega) (le_refl _)).bind ?_
        exact yields_missing
      rw [List.append_nil]
      exact .done _ _ (ends.attempt_missing.bind (yields_pure _))
  | cons entry rest ih =>
      obtain ⟨address_small, size_small, some_⟩ := fine entry List.mem_cons_self
      rw [List.flatMap_cons, List.append_assoc, at_append, ReserveEntry.bytes, at_append] at here
      obtain ⟨⟨address, size⟩, later⟩ := here
      change fdt.At mem (off + 8) _ at size
      change fdt.At mem (off + 16) _ at later
      rw [List.length_cons] at fits
      have taken : Yields mem (fdt.nextReserve off) (.value (entry, off + 16)) := by
        refine (yields_read_be_u64 sound.room off _ _ address_small address (by omega) (le_refl _)).bind ?_
        refine (yields_add off 8 (by unfold wordEnd; omega)).bind ?_
        refine (yields_read_be_u64 sound.room (off + 8) _ _ size_small size (by omega) (le_refl _)).bind ?_
        rw [if_neg some_]
        exact (yields_add off 16 (by unfold wordEnd; omega)).bind (yields_pure _)
      have next := ih (off + 16) (found ++ [entry]) later (by omega)
        fun other member => fine other (List.mem_cons_of_mem entry member)
      rw [List.append_assoc, List.singleton_append] at next
      exact .again _ _ _ (taken.attempt.bind (yields_pure _)) next

end

theorem encodes_sound {dtbPa : Nat} {tree : Tree} {entries : List ReserveEntry}
    (encodes : Encodes fdt mem dtbPa tree entries) : fdt.Sound where
  small := encodes.words _ (by simp [Header.words])
  structEnd := encodes.structEnd
  stringsEnd := encodes.stringsEnd
  pastHeader := encodes.pastHeader
  reserves := encodes.words _ (by simp [Header.words])
  room := encodes.allocated

theorem yields_header {dtbPa : Nat} (sound : fdt.Sound) (base : fdt.base = kernelBase + dtbPa)
    (words : ∀ word ∈ fdt.header.words, word < 2 ^ 32) (magic : fdt.header.magic = fdtMagic)
    (header : fdt.At mem 0 (fdt.header.words.flatMap be32)) : Yields mem (Fdtr.new dtbPa) (.value fdt) := by
  have small := sound.small
  have room := sound.room
  have past := sound.pastHeader
  have ends := sound.structEnd
  have strings := sound.stringsEnd
  have wide : headerSize ≤ fdt.header.totalsize := by omega
  have ten : fdt.header.words.length = 10 := rfl
  have word : ∀ i (inside : i < fdt.header.words.length) (bound : Nat), 40 ≤ bound → bound ≤ fdt.header.totalsize →
      Yields mem (readBeU32 fdt.base (4 * i) bound) (.value fdt.header.words[i]) := by
    intro i inside bound above below
    have here := at_words 0 _ header i inside
    rw [Nat.zero_add] at here
    exact yields_read_be_u32 room (4 * i) bound _ (words _ (List.getElem_mem inside)) here (by omega) below
  have field : ∀ i (inside : i < fdt.header.words.length) (value : Nat), fdt.header.words[i] = value →
      Yields mem (readBeU32 fdt.base (4 * i) fdt.header.totalsize) (.value value) := fun i inside value same =>
    same ▸ word i inside _ wide (le_refl _)
  have first : Yields mem (readBeU32 fdt.base 0 headerSize) (.value fdt.header.magic) :=
    word 0 (by omega) headerSize (le_refl _) wide
  have totalsize : Yields mem (readBeU32 fdt.base 4 headerSize) (.value fdt.header.totalsize) :=
    word 1 (by omega) headerSize (le_refl _) wide
  refine (yields_add kernelBase dtbPa (by rw [← base]; omega)).bind ?_
  rw [← base]
  refine first.bind ?_
  rw [if_neg (not_not_intro magic)]
  refine totalsize.bind ?_
  refine (field 2 (by omega) fdt.header.offDtStruct rfl).bind ?_
  refine (field 3 (by omega) fdt.header.offDtStrings rfl).bind ?_
  refine (field 4 (by omega) fdt.header.offMemRsvmap rfl).bind ?_
  refine (field 5 (by omega) fdt.header.version rfl).bind ?_
  refine (field 6 (by omega) fdt.header.lastCompVersion rfl).bind ?_
  refine (field 7 (by omega) fdt.header.bootCpuidPhys rfl).bind ?_
  refine (field 8 (by omega) fdt.header.sizeDtStrings rfl).bind ?_
  refine (field 9 (by omega) fdt.header.sizeDtStruct rfl).bind ?_
  refine (yields_checked_add fdt.header.offDtStruct fdt.header.sizeDtStruct (by omega)).bind ?_
  refine (yields_checked_add fdt.header.offDtStrings fdt.header.sizeDtStrings (by omega)).bind ?_
  have inside : ¬ (fdt.header.offDtStruct + fdt.header.sizeDtStruct > fdt.header.totalsize ∨
      fdt.header.offDtStrings + fdt.header.sizeDtStrings > fdt.header.totalsize) := by omega
  have after : ¬ fdt.header.offDtStruct < headerSize := by omega
  rw [if_neg inside, if_neg after]
  exact yields_pure fdt

theorem yields_new {dtbPa : Nat} {tree : Tree} {entries : List ReserveEntry}
    (encodes : Encodes fdt mem dtbPa tree entries) : Yields mem (Fdtr.new dtbPa) (.value fdt) :=
  yields_header (encodes_sound encodes) encodes.base encodes.words encodes.magic encodes.header

theorem encodes_lies {dtbPa : Nat} {tree : Tree} {entries : List ReserveEntry}
    (encodes : Encodes fdt mem dtbPa tree entries) : Lies fdt mem tree := by
  obtain ⟨inner, stop, opens, body, _, whole⟩ := encodes.tree
  exact ⟨inner, stop, opens, body, by omega⟩

theorem encodes_root {dtbPa : Nat} {tree : Tree} {entries : List ReserveEntry}
    (encodes : Encodes fdt mem dtbPa tree entries) : Yields mem fdt.root (.value tree.handle) := by
  have sound := encodes_sound encodes
  obtain ⟨inner, stop, opens, body, _, whole⟩ := encodes.tree
  have token := ((at_append tree.handle.offset _ _).mp opens.bytes).1
  have inner_eq := opens.next
  have low := body_le body
  rw [encodes.root] at token inner_eq
  refine (yields_token sound _ fdtBeginNode (by decide) token (by omega)).bind ?_
  rw [if_neg (not_not_intro rfl), ← encodes.root]
  exact yields_pure _

theorem children_ascend {off stop : Nat} {props : List Property} {children : List Tree}
    (body : fdt.Body mem off props children stop) :
    (children.map fun child => child.handle.offset).Pairwise (· < ·) ∧
      ∀ child ∈ children, off ≤ child.handle.offset := by
  induction body with
  | close off _ => exact ⟨.nil, fun _ no => absurd no List.not_mem_nil⟩
  | nop off _ _ _ _ _ ih => exact ⟨ih.1, fun child member => le_trans (Nat.le_add_right off 4) (ih.2 child member)⟩
  | prop off next p _ _ _ gives _ ih =>
      have next_eq := gives.next
      exact ⟨ih.1, fun child member => le_trans (by omega) (ih.2 child member)⟩
  | child off inner name props kids after children stop opens within _ _ ih =>
      have inner_eq := opens.next
      have first := body_le within
      refine ⟨List.pairwise_cons.mpr ⟨fun other member => ?_, ih.1⟩, fun child member => ?_⟩
      · obtain ⟨child, here, rfl⟩ := List.mem_map.mp member
        have beyond := ih.2 child here
        change off < child.handle.offset
        omega
      · rcases List.mem_cons.mp member with rfl | later
        · exact le_refl _
        · have beyond := ih.2 child later
          omega

theorem part_lies (part tree : Tree) (inside : Tree.Part part tree) (lies : Lies fdt mem tree) : Lies fdt mem part := by
  induction inside with
  | self => exact lies
  | under child tree member _ ih => exact ih (children_lie tree lies child member)

end

-- What the calls on one node give. The handles of its children all differ.
structure Fdtr.Reads (fdt : Fdtr) (mem : Nat → UInt8) (tree : Tree) : Prop where
  fullName : Yields mem (fdt.fullName tree.handle) (.value tree.name)
  children : Yields mem (fdt.children tree.handle >>= fdt.exhaust) (.value (tree.children.map Tree.handle))
  apart : (tree.children.map fun child => child.handle.offset).Pairwise (· < ·)
  prop : ∀ name, Yields mem (fdt.prop tree.handle name) (orMissing (tree.firstProp name))

-- Reading an encoding gives back the tree and the reserve map it encodes.
theorem devicetree_round_trip (fdt : Fdtr) (mem : Nat → UInt8) (dtbPa : Nat) (tree : Tree)
    (entries : List ReserveEntry) (encodes : Encodes fdt mem dtbPa tree entries) :
    Yields mem (Fdtr.new dtbPa) (.value fdt) ∧ Yields mem fdt.root (.value tree.handle) ∧
      Yields mem fdt.reserves (.value entries) ∧ (∀ part, Tree.Part part tree → fdt.Reads mem part) ∧
        ∀ path, Yields mem (fdt.find path) (orMissing ((tree.find (Fdtr.components path)).map Tree.handle)) := by
  have sound := encodes_sound encodes
  have lies := encodes_lies encodes
  have root := encodes_root encodes
  refine ⟨yields_new encodes, root, ?_, fun part inside => ?_, fun path => root.bind (yields_descent sound _ tree lies)⟩
  · exact yields_loop (reserve_unrolls sound entries _ [] encodes.reserveMap encodes.reserveEnd encodes.entries)
  · have here : Lies fdt mem part := part_lies part tree inside lies
    obtain ⟨iter, starts, lists⟩ := yields_children sound part here
    have apart : (part.children.map fun child => child.handle.offset).Pairwise (· < ·) := by
      obtain ⟨_, _, _, within, _⟩ := here
      exact (children_ascend within).1
    exact
      { fullName := yields_full_name sound part here
        children := starts.bind (yields_exhaust lists)
        apart := apart
        prop := yields_prop sound part here }

-- The root has a NOP, a property named by the tail of a longer string, and a
-- child; one region is reserved.
def sampleBlob : List UInt8 :=
  [fdtMagic, 129, 72, 124, 40, 17, 16, 0, 5, 52].flatMap be32 ++ be64 0x48000000 ++ be64 0x1000 ++ be64 0 ++ be64 0 ++
    be32 fdtBeginNode ++ [0, 0, 0, 0] ++ be32 fdtNop ++ be32 fdtProp ++ be32 2 ++ be32 1 ++ [7, 8, 0, 0] ++
      be32 fdtBeginNode ++ [0x61, 0x40, 0x31, 0] ++ be32 fdtEndNode ++ be32 fdtNop ++ be32 fdtEndNode ++ be32 fdtEnd ++
        [0x78, 0x72, 0x65, 0x67, 0]

def sampleFdt : Fdtr := ⟨0xFFFF000040000000, ⟨fdtMagic, 129, 72, 124, 40, 17, 16, 0, 5, 52⟩⟩

def sampleTree : Tree := .node 72 [] [⟨[0x72, 0x65, 0x67], [7, 8]⟩] [.node 100 [0x61, 0x40, 0x31] [] []]

theorem sample_encodes :
    Encodes sampleFdt (memoryAt 0x40000000 sampleBlob) 0x40000000 sampleTree [⟨0x48000000, 0x1000⟩] where
  base := rfl
  allocated := by decide
  words := by decide
  magic := rfl
  header := by decide +kernel
  pastHeader := by decide
  root := rfl
  tree := by
    have opens : sampleFdt.Opens (memoryAt 0x40000000 sampleBlob) 72 [] 80 :=
      ⟨⟨by decide, by decide⟩, by decide +kernel, by decide⟩
    have child : sampleFdt.Opens (memoryAt 0x40000000 sampleBlob) 100 [0x61, 0x40, 0x31] 108 :=
      ⟨⟨by decide, by decide⟩, by decide +kernel, by decide⟩
    have gives : sampleFdt.Gives (memoryAt 0x40000000 sampleBlob) 84 ⟨[0x72, 0x65, 0x67], [7, 8]⟩ 100 :=
      ⟨⟨by decide, by decide⟩, by decide, ⟨1, by decide, by decide +kernel, by decide +kernel, by decide⟩, by decide⟩
    refine ⟨80, 120, opens, ?_, by decide +kernel, by decide⟩
    refine .nop 80 _ _ _ (by decide +kernel) (.prop 84 100 _ _ _ _ gives ?_)
    refine .child 100 108 _ _ _ 112 _ _ child (.close 108 (by decide +kernel)) ?_
    exact .nop 112 _ _ _ (by decide +kernel) (.close 116 (by decide +kernel))
  structEnd := by decide
  stringsEnd := by decide
  reserveMap := by decide +kernel
  reserveEnd := by decide
  entries := by decide

theorem devicetree_round_trip_sample :
    Yields (memoryAt 0x40000000 sampleBlob) (sampleFdt.find [0x2F, 0x61]) (.value ⟨100⟩) :=
  (devicetree_round_trip sampleFdt (memoryAt 0x40000000 sampleBlob) 0x40000000 sampleTree [⟨0x48000000, 0x1000⟩]
    sample_encodes).2.2.2.2 [0x2F, 0x61]

end Fdt

end Opal
