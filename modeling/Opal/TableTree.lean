import Mathlib.Data.List.Basic
import Mathlib.Data.List.Infix
import Mathlib.Logic.Function.Basic

set_option autoImplicit false

-- Trees of lookup tables in a store. Tables have names; what an entry means
-- may depend on the depth at which its table is used.
inductive TableEntry (τ α : Type) where
  | absent
  | table (t : τ)
  | leaf (x : α)
  deriving DecidableEq

namespace TableTree

variable {τ α : Type}

-- A leaf may end a path early: what is left of the path comes with it.
def lookup (store : Nat → τ → Nat → TableEntry τ α) : Nat → τ → List Nat → Option (α × List Nat)
  | _, _, [] => none
  | depth, t, i :: rest =>
      match store depth t i with
      | .absent => none
      | .leaf x => some (x, rest)
      | .table u => lookup store (depth + 1) u rest

-- place says on which path from the root a table hangs, if it hangs anywhere.
-- Every table has at most one parent entry, which place names.
structure Rooted (store : Nat → τ → Nat → TableEntry τ α) (root : τ) (place : τ → Option (List Nat)) : Prop where
  root : ∀ t, place t = some [] ↔ t = root
  links : ∀ t path i u, place t = some path → store path.length t i = .table u → place u = some (path ++ [i])
  linked : ∀ u path i, place u = some (path ++ [i]) → ∃ t, place t = some path ∧ store path.length t i = .table u

-- The tables that can be reached from the root, with the path to them.
inductive Hangs (store : Nat → τ → Nat → TableEntry τ α) (root : τ) : List Nat → τ → Prop where
  | root : Hangs store root [] root
  | child (path : List Nat) (t : τ) (i : Nat) (u : τ) (hangs : Hangs store root path t)
      (entry : store path.length t i = .table u) : Hangs store root (path ++ [i]) u

-- Entry i of the reachable table t is a parent of u.
def Parent (store : Nat → τ → Nat → TableEntry τ α) (root : τ) (t : τ) (i : Nat) (u : τ) : Prop :=
  ∃ path, Hangs store root path t ∧ store path.length t i = .table u

section
variable {store later : Nat → τ → Nat → TableEntry τ α} {root : τ} {place : τ → Option (List Nat)}

theorem Rooted.hangs (rooted : Rooted store root place) (path : List Nat) (t : τ) (hangs : Hangs store root path t) :
    place t = some path := by
  induction hangs with
  | root => exact (rooted.root root).mpr rfl
  | child path t i u _ entry ih => exact rooted.links t path i u ih entry

theorem Rooted.distinct (rooted : Rooted store root place) (path : List Nat) (t u : τ) (first : place t = some path)
    (second : place u = some path) : t = u := by
  induction path using List.reverseRecOn generalizing t u with
  | nil => exact ((rooted.root t).mp first).trans ((rooted.root u).mp second).symm
  | append_singleton path i ih =>
      obtain ⟨a, at_a, to_t⟩ := rooted.linked t path i first
      obtain ⟨b, at_b, to_u⟩ := rooted.linked u path i second
      rw [ih a b at_a at_b, to_u] at to_t
      exact (TableEntry.table.inj to_t).symm

-- What the lookups of a path depend on: the entries of hanging tables off one
-- spot decide all paths that do not pass it.
theorem lookup_apart (rooted : Rooted store root place) (spot : List Nat)
    (same : ∀ t path i, place t = some path → path ++ [i] ≠ spot → later path.length t i = store path.length t i)
    (rest : List Nat) (t : τ) (path : List Nat) (hangs : place t = some path) (passes : ¬ spot <+: path ++ rest) :
    lookup later path.length t rest = lookup store path.length t rest := by
  induction rest generalizing t path with
  | nil => rfl
  | cons i rest ih =>
      have apart : path ++ [i] ≠ spot := fun hit => passes ⟨rest, by rw [← hit, List.append_assoc, List.singleton_append]⟩
      have entry := same t path i hangs apart
      unfold lookup
      rw [entry]
      cases found : store path.length t i with
      | absent => rfl
      | leaf x => rfl
      | table u =>
          have below := ih u (path ++ [i]) (rooted.links t path i u hangs found)
            (by rwa [List.append_assoc, List.singleton_append])
          rw [List.length_append, List.length_singleton] at below
          exact below

theorem lookup_unchanged (rooted : Rooted store root place)
    (same : ∀ t path i, place t = some path → later path.length t i = store path.length t i) (path : List Nat) :
    lookup later 0 root path = lookup store 0 root path := by
  have whole : ∀ rest t path, place t = some path →
      lookup later path.length t rest = lookup store path.length t rest := by
    intro rest
    induction rest with
    | nil => exact fun _ _ _ => rfl
    | cons i rest ih =>
        intro t path hangs
        unfold lookup
        rw [same t path i hangs]
        cases found : store path.length t i with
        | absent => rfl
        | leaf x => rfl
        | table u =>
            have below := ih u (path ++ [i]) (rooted.links t path i u hangs found)
            rw [List.length_append, List.length_singleton] at below
            exact below
  exact whole path root [] ((rooted.root root).mpr rfl)

theorem lookup_reaches (rooted : Rooted store root place) (path rest : List Nat) (t : τ) (hangs : place t = some path) :
    lookup store 0 root (path ++ rest) = lookup store path.length t rest := by
  induction path using List.reverseRecOn generalizing t rest with
  | nil =>
      rw [(rooted.root t).mp hangs]
      rfl
  | append_singleton path i ih =>
      obtain ⟨parent, above, entry⟩ := rooted.linked t path i hangs
      rw [List.append_assoc, List.singleton_append, ih (i :: rest) parent above, lookup, entry, List.length_append,
        List.length_singleton]

theorem Rooted.agree (rooted : Rooted store root place)
    (same : ∀ t path i, place t = some path → later path.length t i = store path.length t i) :
    Rooted later root place := by
  refine ⟨rooted.root, fun t path i u hangs entry => ?_, fun u path i hangs => ?_⟩
  · rw [same t path i hangs] at entry
    exact rooted.links t path i u hangs entry
  · obtain ⟨t, above, entry⟩ := rooted.linked u path i hangs
    exact ⟨t, above, by rw [same t path i above, entry]⟩

theorem same_spot (rooted : Rooted store root place) (t u : τ) (path other : List Nat) (i j : Nat)
    (hangs : place t = some path) (also : place u = some other) (hit : other ++ [j] = path ++ [i]) :
    u = t ∧ other = path ∧ j = i := by
  obtain ⟨paths, last⟩ := List.append_inj' hit rfl
  subst paths
  exact ⟨rooted.distinct other u t also hangs, rfl, List.singleton_inj.mp last⟩

theorem Rooted.one_parent (rooted : Rooted store root place) (t u v : τ) (i j : Nat) (first : Parent store root t i v)
    (second : Parent store root u j v) : t = u ∧ i = j := by
  obtain ⟨path, hangs, entry⟩ := first
  obtain ⟨other, also, entry'⟩ := second
  have at_t := rooted.hangs path t hangs
  have at_u := rooted.hangs other u also
  have places := (rooted.links t path i v at_t entry).symm.trans (rooted.links u other j v at_u entry')
  obtain ⟨same, _, last⟩ := same_spot rooted t u path other i j at_t at_u (Option.some.inj places).symm
  exact ⟨same.symm, last.symm⟩

theorem Rooted.set (rooted : Rooted store root place) (t : τ) (path : List Nat) (i : Nat) (x : α)
    (hangs : place t = some path) (set : later path.length t i = .leaf x)
    (not_table : ∀ u, store path.length t i ≠ .table u)
    (same : ∀ u other j, place u = some other → other ++ [j] ≠ path ++ [i] →
      later other.length u j = store other.length u j) : Rooted later root place := by
  refine ⟨rooted.root, fun u other j v at_u entry => ?_, fun v other j at_v => ?_⟩
  · by_cases hit : other ++ [j] = path ++ [i]
    · obtain ⟨rfl, rfl, rfl⟩ := same_spot rooted t u path other i j hangs at_u hit
      rw [set] at entry
      cases entry
    · rw [same u other j at_u hit] at entry
      exact rooted.links u other j v at_u entry
  · obtain ⟨u, at_u, entry⟩ := rooted.linked v other j at_v
    have apart : other ++ [j] ≠ path ++ [i] := fun hit => by
      obtain ⟨rfl, rfl, rfl⟩ := same_spot rooted t u path other i j hangs at_u hit
      exact not_table v entry
    exact ⟨u, at_u, by rw [same u other j at_u apart, entry]⟩

theorem lookup_set (rooted : Rooted store root place) (t : τ) (path : List Nat) (i : Nat) (x : α)
    (hangs : place t = some path) (set : later path.length t i = .leaf x)
    (not_table : ∀ u, store path.length t i ≠ .table u)
    (same : ∀ u other j, place u = some other → other ++ [j] ≠ path ++ [i] →
      later other.length u j = store other.length u j) (query : List Nat) :
    lookup later 0 root query =
      if path ++ [i] <+: query then some (x, query.drop (path.length + 1)) else lookup store 0 root query := by
  have base := (rooted.root root).mpr rfl
  have again := rooted.set t path i x hangs set not_table same
  by_cases through : path ++ [i] <+: query
  · rw [if_pos through]
    obtain ⟨rest, rfl⟩ := through
    rw [List.append_assoc, List.singleton_append, lookup_reaches again path (i :: rest) t hangs, lookup, set]
    simp
  · rw [if_neg through]
    exact lookup_apart rooted (path ++ [i]) same query root [] base through

variable [DecidableEq τ]

-- A spare table without entries is hung on an absent entry.
theorem Rooted.link (rooted : Rooted store root place) (t u : τ) (path : List Nat) (i : Nat) (hangs : place t = some path)
    (absent : store path.length t i = .absent) (spare : place u = none) (blank : ∀ depth j, later depth u j = .absent)
    (linked : later path.length t i = .table u)
    (same : ∀ v other j, place v = some other → other ++ [j] ≠ path ++ [i] →
      later other.length v j = store other.length v j) :
    Rooted later root (Function.update place u (some (path ++ [i]))) := by
  refine ⟨fun v => ?_, fun v other j w at_v entry => ?_, fun w other j at_w => ?_⟩
  · by_cases fresh : v = u
    · subst fresh
      rw [Function.update_self]
      refine ⟨fun no => absurd (Option.some.inj no) (by simp), fun top => ?_⟩
      rw [(rooted.root v).mpr top] at spare
      cases spare
    · rw [Function.update_of_ne fresh]
      exact rooted.root v
  · have old : v ≠ u := fun fresh => by
      rw [fresh, blank] at entry
      cases entry
    rw [Function.update_of_ne old] at at_v
    by_cases hit : other ++ [j] = path ++ [i]
    · obtain ⟨rfl, rfl, rfl⟩ := same_spot rooted t v path other i j hangs at_v hit
      rw [linked] at entry
      cases entry
      exact Function.update_self ..
    · rw [same v other j at_v hit] at entry
      have at_w := rooted.links v other j w at_v entry
      rw [Function.update_of_ne (fun fresh => by rw [fresh, spare] at at_w; cases at_w), at_w]
  · have apart : t ≠ u := fun fresh => by
      rw [fresh, spare] at hangs
      cases hangs
    by_cases fresh : w = u
    · subst fresh
      rw [Function.update_self] at at_w
      obtain ⟨paths, last⟩ := List.append_inj' (Option.some.inj at_w) rfl
      subst paths
      obtain rfl := List.singleton_inj.mp last
      exact ⟨t, (Function.update_of_ne apart ..).trans hangs, linked⟩
    · rw [Function.update_of_ne fresh] at at_w
      obtain ⟨v, at_v, entry⟩ := rooted.linked w other j at_w
      have old : v ≠ u := fun hit => by
        rw [hit, spare] at at_v
        cases at_v
      have elsewhere : other ++ [j] ≠ path ++ [i] := fun hit => by
        obtain ⟨rfl, rfl, rfl⟩ := same_spot rooted t v path other i j hangs at_v hit
        rw [absent] at entry
        cases entry
      exact ⟨v, (Function.update_of_ne old ..).trans at_v, by rw [same v other j at_v elsewhere, entry]⟩

-- It changes no answer: below the new table is nothing, and nothing was there.
theorem lookup_link (rooted : Rooted store root place) (t u : τ) (path : List Nat) (i : Nat) (hangs : place t = some path)
    (absent : store path.length t i = .absent) (spare : place u = none) (blank : ∀ depth j, later depth u j = .absent)
    (linked : later path.length t i = .table u)
    (same : ∀ v other j, place v = some other → other ++ [j] ≠ path ++ [i] →
      later other.length v j = store other.length v j) (query : List Nat) :
    lookup later 0 root query = lookup store 0 root query := by
  have again := rooted.link t u path i hangs absent spare blank linked same
  by_cases through : path ++ [i] <+: query
  · obtain ⟨rest, rfl⟩ := through
    have apart : t ≠ u := fun fresh => by
      rw [fresh, spare] at hangs
      cases hangs
    rw [List.append_assoc, List.singleton_append, lookup_reaches rooted path (i :: rest) t hangs,
      lookup_reaches again path (i :: rest) t ((Function.update_of_ne apart ..).trans hangs), lookup, lookup, linked,
      absent]
    cases rest with
    | nil => rfl
    | cons j rest =>
        dsimp only
        rw [lookup, blank]
  · exact lookup_apart rooted (path ++ [i]) same query root [] ((rooted.root root).mpr rfl) through

end

end TableTree
