import Mathlib.Data.List.Nodup
import Mathlib.Logic.Function.Basic

set_option autoImplicit false

-- What one party sends another.
structure Letter (ι μ : Type) where
  sender : ι
  receiver : ι
  body : μ

-- Mailboxes with room for one letter each. A letter is known by its place in
-- the order in which they were sent. One that lies in a mailbox is addressed to
-- its owner and has not been delivered, and none is delivered twice.
structure Post (ι μ : Type) where
  sent : List (Letter ι μ)
  delivered : List Nat
  slot : ι → Option Nat
  addressed : ∀ i n, slot i = some n → ∃ letter, sent[n]? = some letter ∧ letter.receiver = i
  waiting : ∀ i n, slot i = some n → n ∉ delivered
  known : ∀ n ∈ delivered, n < sent.length
  once : delivered.Nodup

namespace Post

variable {ι μ : Type}

def empty : Post ι μ where
  sent := []
  delivered := []
  slot := fun _ => none
  addressed := fun _ _ no => (by cases no)
  waiting := fun _ _ no => (by cases no)
  known := fun _ no => absurd no List.not_mem_nil
  once := List.nodup_nil

variable (post : Post ι μ)

def content (i : ι) : Option (Letter ι μ) := (post.slot i).bind fun n => post.sent[n]?

theorem addressed_lt (i : ι) (n : Nat) (lies : post.slot i = some n) : n < post.sent.length := by
  obtain ⟨letter, found, _⟩ := post.addressed i n lies
  exact (List.getElem?_eq_some_iff.mp found).1

theorem content_none (i : ι) : post.content i = none ↔ post.slot i = none := by
  unfold content
  cases lies : post.slot i with
  | none => exact ⟨fun _ => rfl, fun _ => rfl⟩
  | some n =>
      obtain ⟨letter, found, _⟩ := post.addressed i n lies
      rw [Option.bind_some, found]
      exact ⟨fun no => (by cases no), fun no => (by cases no)⟩

theorem content_some (i : ι) (letter : Letter ι μ) (holds : post.content i = some letter) :
    ∃ n, post.slot i = some n ∧ post.sent[n]? = some letter ∧ letter.receiver = i := by
  obtain ⟨n, lies, found⟩ := Option.bind_eq_some_iff.mp holds
  obtain ⟨other, same, owner⟩ := post.addressed i n lies
  cases found.symm.trans same
  exact ⟨n, lies, found, owner⟩

theorem apart (i j : ι) (n : Nat) (here : post.slot i = some n) (there : post.slot j = some n) : i = j := by
  obtain ⟨letter, found, owner⟩ := post.addressed i n here
  obtain ⟨other, same, owner'⟩ := post.addressed j n there
  cases found.symm.trans same
  exact owner.symm.trans owner'

variable [DecidableEq ι]

-- A mailbox takes a letter if it has none.
def put (letter : Letter ι μ) : Post ι μ :=
  if free : post.slot letter.receiver = none then
    { sent := post.sent ++ [letter]
      delivered := post.delivered
      slot := Function.update post.slot letter.receiver (some post.sent.length)
      addressed := fun i n lies => by
        by_cases here : i = letter.receiver
        · rw [here, Function.update_self] at lies
          cases lies
          exact ⟨letter, List.getElem?_concat_length, here.symm⟩
        · rw [Function.update_of_ne here] at lies
          rw [List.getElem?_append_left (post.addressed_lt i n lies)]
          exact post.addressed i n lies
      waiting := fun i n lies => by
        by_cases here : i = letter.receiver
        · rw [here, Function.update_self] at lies
          cases lies
          exact fun member => Nat.lt_irrefl _ (post.known _ member)
        · rw [Function.update_of_ne here] at lies
          exact post.waiting i n lies
      known := fun n member => by
        rw [List.length_append]
        exact Nat.lt_of_lt_of_le (post.known n member) (Nat.le_add_right _ _)
      once := post.once }
  else post

-- The owner takes the letter out.
def take (i : ι) : Post ι μ :=
  match lies : post.slot i with
  | none => post
  | some n =>
      { sent := post.sent
        delivered := post.delivered ++ [n]
        slot := Function.update post.slot i none
        addressed := fun j m there => by
          by_cases here : j = i
          · rw [here, Function.update_self] at there
            cases there
          · rw [Function.update_of_ne here] at there
            exact post.addressed j m there
        waiting := fun j m there => by
          by_cases here : j = i
          · rw [here, Function.update_self] at there
            cases there
          · rw [Function.update_of_ne here] at there
            rw [List.mem_append, List.mem_singleton]
            rintro (earlier | rfl)
            · exact post.waiting j m there earlier
            · exact here (post.apart j i m there lies)
        known := fun m member => by
          rcases List.mem_append.mp member with earlier | last
          · exact post.known m earlier
          · rw [List.mem_singleton.mp last]
            exact post.addressed_lt i n lies
        once := by
          refine List.nodup_append.mpr ⟨post.once, List.nodup_singleton n, ?_⟩
          intro m earlier k last same
          rw [same, List.mem_singleton.mp last] at earlier
          exact post.waiting i n lies earlier }

-- What lies in the mailbox is lost.
def drop (i : ι) : Post ι μ where
  sent := post.sent
  delivered := post.delivered
  slot := Function.update post.slot i none
  addressed := fun j m there => by
    by_cases here : j = i
    · rw [here, Function.update_self] at there
      cases there
    · rw [Function.update_of_ne here] at there
      exact post.addressed j m there
  waiting := fun j m there => by
    by_cases here : j = i
    · rw [here, Function.update_self] at there
      cases there
    · rw [Function.update_of_ne here] at there
      exact post.waiting j m there
  known := post.known
  once := post.once

section
variable (letter : Letter ι μ) (free : post.slot letter.receiver = none)
include free

theorem put_sent : (post.put letter).sent = post.sent ++ [letter] := by
  rw [put, dif_pos free]

theorem put_delivered : (post.put letter).delivered = post.delivered := by
  rw [put, dif_pos free]

theorem put_slot : (post.put letter).slot = Function.update post.slot letter.receiver (some post.sent.length) := by
  rw [put, dif_pos free]

theorem put_content (i : ι) : (post.put letter).content i = if i = letter.receiver then some letter else post.content i := by
  unfold content
  rw [put_slot post letter free, put_sent post letter free]
  by_cases here : i = letter.receiver
  · rw [if_pos here, here, Function.update_self]
    exact List.getElem?_concat_length
  · rw [if_neg here, Function.update_of_ne here]
    cases lies : post.slot i with
    | none => rfl
    | some n => exact List.getElem?_append_left (post.addressed_lt i n lies)

end

-- A letter that lies in a mailbox stays there while others are sent, and while
-- others take theirs.
theorem put_lies (letter : Letter ι μ) (i : ι) (n : Nat) (lies : post.slot i = some n) : (post.put letter).slot i = some n := by
  by_cases free : post.slot letter.receiver = none
  · rw [put_slot post letter free, Function.update_of_ne]
    · exact lies
    · intro here
      rw [here, free] at lies
      cases lies
  · rw [put, dif_neg free]
    exact lies

section
variable (i : ι)

theorem take_sent : (post.take i).sent = post.sent := by
  unfold take
  split <;> rfl

theorem take_delivered (n : Nat) (lies : post.slot i = some n) : (post.take i).delivered = post.delivered ++ [n] := by
  unfold take
  split
  · next no => cases no.symm.trans lies
  · next m same =>
      cases same.symm.trans lies
      rfl

theorem take_slot : (post.take i).slot = Function.update post.slot i none := by
  unfold take
  split
  · next no => rw [← no, Function.update_eq_self]
  · rfl

theorem take_content (j : ι) : (post.take i).content j = if j = i then none else post.content j := by
  unfold content
  rw [take_slot, take_sent]
  by_cases here : j = i
  · rw [if_pos here, here, Function.update_self]
    rfl
  · rw [if_neg here, Function.update_of_ne here]

theorem drop_slot : (post.drop i).slot = Function.update post.slot i none := rfl

theorem drop_sent : (post.drop i).sent = post.sent := rfl

theorem drop_content (j : ι) : (post.drop i).content j = if j = i then none else post.content j := by
  unfold content
  rw [drop_slot, drop_sent]
  by_cases here : j = i
  · rw [if_pos here, here, Function.update_self]
    rfl
  · rw [if_neg here, Function.update_of_ne here]

end

-- How many letters a party has sent, and how many it has been delivered.
def sentBy (i : ι) : Nat := post.sent.countP fun letter => letter.sender = i

def deliveredTo (i : ι) : Nat := post.delivered.countP fun n => (post.sent[n]?).any fun letter => letter.receiver = i

theorem put_sent_by (letter : Letter ι μ) (free : post.slot letter.receiver = none) (i : ι) :
    (post.put letter).sentBy i = post.sentBy i + if letter.sender = i then 1 else 0 := by
  rw [sentBy, put_sent post letter free, List.countP_append, List.countP_singleton]
  simp [sentBy]

theorem put_sent_other (letter : Letter ι μ) (i : ι) (other : letter.sender ≠ i) : (post.put letter).sentBy i = post.sentBy i := by
  by_cases free : post.slot letter.receiver = none
  · rw [put_sent_by post letter free, if_neg other, Nat.add_zero]
  · rw [put, dif_neg free]

theorem put_delivered_to (letter : Letter ι μ) (i : ι) : (post.put letter).deliveredTo i = post.deliveredTo i := by
  by_cases free : post.slot letter.receiver = none
  · rw [deliveredTo, put_sent post letter free, put_delivered post letter free]
    refine List.countP_congr fun n member => ?_
    rw [List.getElem?_append_left (post.known n member)]
  · rw [put, dif_neg free]

theorem take_sent_by (i j : ι) : (post.take i).sentBy j = post.sentBy j := by
  rw [sentBy, take_sent]
  rfl

theorem take_delivered_to (i j : ι) (letter : Letter ι μ) (holds : post.content i = some letter) :
    (post.take i).deliveredTo j = post.deliveredTo j + if i = j then 1 else 0 := by
  obtain ⟨n, lies, found, owner⟩ := post.content_some i letter holds
  rw [deliveredTo, take_sent, take_delivered post i n lies, List.countP_append, List.countP_singleton]
  simp [deliveredTo, found, owner]

theorem take_delivered_other (i j : ι) (other : i ≠ j) : (post.take i).deliveredTo j = post.deliveredTo j := by
  cases holds : post.content i with
  | some letter => rw [take_delivered_to post i j letter holds, if_neg other, Nat.add_zero]
  | none =>
      have lies := (post.content_none i).mp holds
      unfold take
      split
      · rfl
      · next n same => cases lies.symm.trans same

end Post
