import Mathlib.Data.List.Nodup
import Mathlib.Data.List.Perm.Subperm

set_option autoImplicit false

-- A queue that holds each thing with a property once, and nothing else.
structure Listing {ι : Type} (queue : List ι) (due : ι → Prop) : Prop where
  distinct : queue.Nodup
  mem_iff : ∀ i, i ∈ queue ↔ due i

namespace Listing

variable {ι : Type} {queue : List ι} {due later : ι → Prop}

theorem congr (lists : Listing queue due) (same : ∀ i, due i ↔ later i) : Listing queue later :=
  ⟨lists.distinct, fun i => (lists.mem_iff i).trans (same i)⟩

theorem append (lists : Listing queue due) (fresh : List ι) (distinct : fresh.Nodup) (new : ∀ i ∈ fresh, ¬ due i) :
    Listing (queue ++ fresh) (fun i => due i ∨ i ∈ fresh) where
  distinct := by
    refine List.nodup_append.mpr ⟨lists.distinct, distinct, ?_⟩
    intro a member b joins same
    exact new b joins (same ▸ (lists.mem_iff a).mp member)
  mem_iff := fun i => by
    rw [List.mem_append, lists.mem_iff]

theorem push (lists : Listing queue due) (i : ι) (new : ¬ due i) : Listing (queue ++ [i]) (fun j => due j ∨ j = i) :=
  (lists.append [i] (List.nodup_singleton i) (fun j member => by
    rw [List.mem_singleton.mp member]
    exact new)).congr (fun j => by rw [List.mem_singleton])

theorem pop (i : ι) (rest : List ι) (lists : Listing (i :: rest) due) : Listing rest (fun j => due j ∧ j ≠ i) where
  distinct := (List.nodup_cons.mp lists.distinct).2
  mem_iff := fun j => by
    have absent := (List.nodup_cons.mp lists.distinct).1
    have member := lists.mem_iff j
    rw [List.mem_cons] at member
    constructor
    · intro stays
      exact ⟨member.mp (.inr stays), fun same => absent (same ▸ stays)⟩
    · rintro ⟨still, apart⟩
      exact (member.mpr still).resolve_left apart

theorem length_le (lists : Listing queue due) (all : List ι) (confined : ∀ i, due i → i ∈ all) :
    queue.length ≤ all.length :=
  (lists.distinct.subperm fun i member => confined i ((lists.mem_iff i).mp member)).length_le

end Listing
