import Mathlib.Algebra.Group.Nat.Defs
import Mathlib.Data.List.Basic
import Mathlib.Order.Lattice
import Mathlib.Order.Nat

set_option autoImplicit false

-- Programs that read a memory of bytes with checked arithmetic. Nothing here
-- depends on what they read.

inductive Fault where
  | overflow
  | bounds
  | fuel
  deriving DecidableEq, Repr

-- missing is the absent value that a caller passes on to its own caller.
inductive Result (α : Type) where
  | value (a : α)
  | missing
  | fault (why : Fault)
  deriving DecidableEq, Repr

-- One load instruction, of width bytes from start on.
structure Load where
  start : Nat
  width : Nat
  deriving DecidableEq, Repr

def Load.Covers (read : Load) (address : Nat) : Prop :=
  read.start ≤ address ∧ address < read.start + read.width

def Load.Aligned (read : Load) : Prop := read.start % read.width = 0

-- The first argument bounds the rounds of each loop and the depth of each
-- recursion. The list names every load, in order.
def Reading (α : Type) : Type := Nat → (Nat → UInt8) → Result α × List Load

-- What a loop does after a round.
inductive Round (σ α : Type) where
  | again (state : σ)
  | done (a : α)

namespace Reading

variable {α β σ : Type}

def pure (a : α) : Reading α := fun _ _ => (.value a, [])

def bind (m : Reading α) (f : α → Reading β) : Reading β := fun fuel mem =>
  match m fuel mem with
  | (.value a, log) => ((f a fuel mem).1, log ++ (f a fuel mem).2)
  | (.missing, log) => (.missing, log)
  | (.fault why, log) => (.fault why, log)

instance : Monad Reading where
  pure := pure
  bind := bind

theorem pure_bind (a : α) (f : α → Reading β) : (Pure.pure a >>= f) = f a := rfl

def missing : Reading α := fun _ _ => (.missing, [])

def stop (why : Fault) : Reading α := fun _ _ => (.fault why, [])

-- An absent value becomes one to look at.
def attempt (m : Reading α) : Reading (Option α) := fun fuel mem =>
  match m fuel mem with
  | (.value a, log) => (.value (some a), log)
  | (.missing, log) => (.value none, log)
  | (.fault why, log) => (.fault why, log)

def wordEnd : Nat := 2 ^ 64

def add (a b : Nat) : Reading Nat := if a + b < wordEnd then pure (a + b) else stop .overflow

def checkedAdd (a b : Nat) : Reading Nat := if a + b < wordEnd then pure (a + b) else missing

def sub (a b : Nat) : Reading Nat := if b ≤ a then pure (a - b) else stop .overflow

def mul (a b : Nat) : Reading Nat := if a * b < wordEnd then pure (a * b) else stop .overflow

def addresses (start len : Nat) : List Nat := List.range' start len

-- A word, in one load.
def fetch (start width : Nat) : Reading (List UInt8) := fun _ mem =>
  (.value ((addresses start width).map mem), [⟨start, width⟩])

-- Bytes, one by one.
def eachByte (start len : Nat) : List Load := (addresses start len).map fun address => ⟨address, 1⟩

def load (start len : Nat) : Reading (List UInt8) := fun _ mem =>
  (.value ((addresses start len).map mem), eachByte start len)

def slice (data : List α) (start stop_ : Nat) : Reading (List α) :=
  if start ≤ stop_ ∧ stop_ ≤ data.length then pure ((data.take stop_).drop start) else stop .bounds

def rounds (body : σ → Reading (Round σ α)) : Nat → σ → Reading α
  | 0, _ => stop .fuel
  | left + 1, state => bind (body state) fun round =>
      match round with
      | .again state => rounds body left state
      | .done a => pure a

def loop (body : σ → Reading (Round σ α)) (state : σ) : Reading α := fun fuel mem =>
  rounds body fuel state fuel mem

def descend (body : (σ → Reading α) → σ → Reading α) : Nat → σ → Reading α
  | 0, _ => stop .fuel
  | left + 1, state => body (descend body left) state

def recurse (body : (σ → Reading α) → σ → Reading α) (state : σ) : Reading α := fun fuel mem =>
  descend body fuel state fuel mem

-- Every load is a good one, nothing faults, and a value that comes back is as
-- promised.
def Safe (good : Load → Prop) (fuel : Nat) (mem : Nat → UInt8) (m : Reading α) (post : α → Prop) : Prop :=
  (∀ read ∈ (m fuel mem).2, good read) ∧
    match (m fuel mem).1 with
    | .value a => post a
    | .missing => True
    | .fault _ => False

section
variable {good : Load → Prop} {fuel : Nat} {mem : Nat → UInt8}

theorem Safe.weaken {m : Reading α} {post later : α → Prop} (safe : Safe good fuel mem m post)
    (weaker : ∀ a, post a → later a) : Safe good fuel mem m later := by
  refine ⟨safe.1, ?_⟩
  have ends := safe.2
  cases result : (m fuel mem).1 with
  | value a =>
      rw [result] at ends
      exact weaker a ends
  | missing => trivial
  | fault why =>
      rw [result] at ends
      exact ends

theorem Safe.widen {m : Reading α} {post : α → Prop} {wider : Load → Prop} (safe : Safe good fuel mem m post)
    (more : ∀ read, good read → wider read) : Safe wider fuel mem m post :=
  ⟨fun read member => more read (safe.1 read member), safe.2⟩

theorem safe_pure (a : α) (post : α → Prop) (holds : post a) : Safe good fuel mem (Pure.pure a) post :=
  ⟨fun _ member => absurd member List.not_mem_nil, holds⟩

theorem safe_missing (post : α → Prop) : Safe good fuel mem missing post :=
  ⟨fun _ member => absurd member List.not_mem_nil, trivial⟩

theorem safe_bind {m : Reading α} {f : α → Reading β} {p : α → Prop} {q : β → Prop}
    (first : Safe good fuel mem m p) (second : ∀ a, p a → Safe good fuel mem (f a) q) :
    Safe good fuel mem (m >>= f) q := by
  obtain ⟨reads, ends⟩ := first
  change Safe good fuel mem (bind m f) q
  unfold Safe bind
  revert reads ends
  rcases m fuel mem with ⟨a | _ | why, log⟩
  · intro reads ends
    obtain ⟨later, ended⟩ := second a ends
    refine ⟨fun read member => ?_, ended⟩
    rcases List.mem_append.mp member with before | after
    · exact reads read before
    · exact later read after
  · exact fun reads _ => ⟨reads, trivial⟩
  · exact fun _ ends => ends.elim

theorem safe_attempt {m : Reading α} {p : α → Prop} (safe : Safe good fuel mem m p) :
    Safe good fuel mem (attempt m) fun o => ∀ a, o = some a → p a := by
  obtain ⟨reads, ends⟩ := safe
  unfold Safe attempt
  revert reads ends
  rcases m fuel mem with ⟨a | _ | why, log⟩
  · exact fun reads ends => ⟨reads, fun b same => Option.some.inj same ▸ ends⟩
  · exact fun reads _ => ⟨reads, fun _ no => (by cases no)⟩
  · exact fun _ ends => ends.elim

theorem safe_add (a b : Nat) (small : a + b < wordEnd) : Safe good fuel mem (add a b) fun s => s = a + b := by
  rw [add, if_pos small]
  exact safe_pure (a + b) _ rfl

theorem safe_checked_add (a b : Nat) :
    Safe good fuel mem (checkedAdd a b) fun s => s = a + b ∧ s < wordEnd := by
  unfold checkedAdd
  by_cases small : a + b < wordEnd
  · rw [if_pos small]
    exact safe_pure (a + b) _ ⟨rfl, small⟩
  · rw [if_neg small]
    exact safe_missing _

theorem safe_sub (a b : Nat) (less : b ≤ a) : Safe good fuel mem (sub a b) fun s => s = a - b := by
  rw [sub, if_pos less]
  exact safe_pure (a - b) _ rfl

theorem safe_mul (a b : Nat) (small : a * b < wordEnd) : Safe good fuel mem (mul a b) fun s => s = a * b := by
  rw [mul, if_pos small]
  exact safe_pure (a * b) _ rfl

theorem mem_each_byte (start len : Nat) (read : Load) :
    read ∈ eachByte start len ↔ read.width = 1 ∧ start ≤ read.start ∧ read.start < start + len := by
  unfold eachByte addresses
  rw [List.mem_map]
  constructor
  · rintro ⟨address, member, rfl⟩
    exact ⟨rfl, List.mem_range'_1.mp member⟩
  · rintro ⟨one, inside⟩
    exact ⟨read.start, List.mem_range'_1.mpr inside, by rw [← one]⟩

theorem safe_load (start len : Nat) (all : ∀ address, start ≤ address → address < start + len → good ⟨address, 1⟩) :
    Safe good fuel mem (load start len) fun bytes => bytes.length = len := by
  refine ⟨fun read member => ?_, ?_⟩
  · obtain ⟨address, width⟩ := read
    obtain ⟨one, low, high⟩ := (mem_each_byte start len _).mp member
    subst one
    exact all address low high
  · change ((addresses start len).map mem).length = len
    simp [addresses]

theorem safe_fetch (start width : Nat) (fine : good ⟨start, width⟩) :
    Safe good fuel mem (fetch start width) fun bytes => bytes.length = width := by
  refine ⟨fun read member => List.mem_singleton.mp member ▸ fine, ?_⟩
  change ((addresses start width).map mem).length = width
  simp [addresses]

theorem safe_slice (data : List α) (start stop_ : Nat) (ordered : start ≤ stop_) (short : stop_ ≤ data.length) :
    Safe good fuel mem (slice data start stop_) fun part => part.length = stop_ - start := by
  rw [slice, if_pos ⟨ordered, short⟩]
  refine safe_pure _ _ ?_
  rw [List.length_drop, List.length_take, Nat.min_eq_left short]

theorem safe_rounds {body : σ → Reading (Round σ α)} {post : α → Prop} (inv : σ → Prop) (measure : σ → Nat)
    (step : ∀ state, inv state → Safe good fuel mem (body state) fun round =>
      match round with
      | .again later => inv later ∧ measure later < measure state
      | .done a => post a)
    (left : Nat) (state : σ) (holds : inv state) (room : measure state < left) :
    Safe good fuel mem (rounds body left state) post := by
  induction left generalizing state with
  | zero => exact absurd room (Nat.not_lt_zero _)
  | succ left ih =>
      refine safe_bind (step state holds) fun round kept => ?_
      cases round with
      | again later => exact ih later kept.1 (Nat.lt_of_lt_of_le kept.2 (Nat.le_of_lt_succ room))
      | done a => exact safe_pure a post kept

-- An invariant, and a measure that falls in every round but the last.
theorem safe_loop {body : σ → Reading (Round σ α)} {post : α → Prop} (inv : σ → Prop) (measure : σ → Nat)
    (step : ∀ state, inv state → Safe good fuel mem (body state) fun round =>
      match round with
      | .again later => inv later ∧ measure later < measure state
      | .done a => post a)
    (state : σ) (holds : inv state) (room : measure state < fuel) : Safe good fuel mem (loop body state) post :=
  safe_rounds inv measure step fuel state holds room

theorem safe_recurse {body : (σ → Reading α) → σ → Reading α} {p : σ → α → Prop} (inv : σ → Prop)
    (measure : σ → Nat)
    (step : ∀ (call : σ → Reading α) (state : σ), inv state →
      (∀ later, inv later → measure later < measure state → Safe good fuel mem (call later) (p later)) →
        Safe good fuel mem (body call state) (p state))
    (state : σ) (holds : inv state) (room : measure state < fuel) :
    Safe good fuel mem (recurse body state) (p state) := by
  have whole : ∀ left state, inv state → measure state < left →
      Safe good fuel mem (descend body left state) (p state) := by
    intro left
    induction left with
    | zero => exact fun state _ room => absurd room (Nat.not_lt_zero _)
    | succ left ih =>
        intro state holds room
        refine step (descend body left) state holds fun later kept less => ih later kept ?_
        exact Nat.lt_of_lt_of_le less (Nat.le_of_lt_succ room)
  exact whole fuel state holds room

-- What a run promises of the value it returns, if it returns one.
def Ensures (fuel : Nat) (mem : Nat → UInt8) (m : Reading α) (p : α → Prop) : Prop :=
  ∀ a, (m fuel mem).1 = .value a → p a

theorem Safe.ensures {m : Reading α} {post : α → Prop} (safe : Safe good fuel mem m post) :
    Ensures fuel mem m post := by
  intro a same
  have ends := safe.2
  rw [same] at ends
  exact ends

theorem ensures_all (m : Reading α) : Ensures fuel mem m fun _ => True := fun _ _ => trivial

theorem ensures_pure (a : α) (post : α → Prop) (holds : post a) : Ensures fuel mem (Pure.pure a) post :=
  fun _ same => Result.value.inj same ▸ holds

theorem ensures_missing (post : α → Prop) : Ensures fuel mem missing post := fun _ no => (by cases no)

theorem ensures_fetch (start width : Nat) :
    Ensures fuel mem (fetch start width) fun bytes => bytes = (addresses start width).map mem :=
  fun _ same => (Result.value.inj same).symm

theorem bind_result (m : Reading α) (f : α → Reading β) :
    ((m >>= f) fuel mem).1 =
      match (m fuel mem).1 with
      | .value a => (f a fuel mem).1
      | .missing => .missing
      | .fault why => .fault why := by
  change (bind m f fuel mem).1 = _
  unfold bind
  rcases m fuel mem with ⟨a | _ | why, log⟩ <;> rfl

theorem bind_value {m : Reading α} (f : α → Reading β) {a : α} (first : (m fuel mem).1 = .value a) :
    ((m >>= f) fuel mem).1 = (f a fuel mem).1 := by
  simp only [bind_result, first]

theorem bind_value_iff (m : Reading α) (f : α → Reading β) (b : β) :
    ((m >>= f) fuel mem).1 = .value b ↔ ∃ a, (m fuel mem).1 = .value a ∧ (f a fuel mem).1 = .value b := by
  rw [bind_result]
  cases (m fuel mem).1 <;> simp

@[simp] theorem pure_value_iff (a b : α) : ((Pure.pure a : Reading α) fuel mem).1 = .value b ↔ a = b :=
  ⟨Result.value.inj, congrArg Result.value⟩

@[simp] theorem missing_value_iff (b : α) : ((missing : Reading α) fuel mem).1 = .value b ↔ False :=
  ⟨fun no => (by cases no), False.elim⟩

theorem add_value_iff (a b c : Nat) : (add a b fuel mem).1 = .value c ↔ a + b < wordEnd ∧ a + b = c := by
  unfold add
  by_cases small : a + b < wordEnd
  · rw [if_pos small]
    exact ⟨fun value => ⟨small, Result.value.inj value⟩, fun known => congrArg Result.value known.2⟩
  · rw [if_neg small]
    exact ⟨fun no => (by cases no), fun known => absurd known.1 small⟩

theorem checked_add_value_iff (a b c : Nat) : (checkedAdd a b fuel mem).1 = .value c ↔ a + b < wordEnd ∧ a + b = c := by
  unfold checkedAdd
  by_cases small : a + b < wordEnd
  · rw [if_pos small]
    exact ⟨fun value => ⟨small, Result.value.inj value⟩, fun known => congrArg Result.value known.2⟩
  · rw [if_neg small]
    exact ⟨fun no => (by cases no), fun known => absurd known.1 small⟩

theorem add_then_iff (a b : Nat) (f : Nat → Reading α) (c : α) :
    ((add a b >>= f) fuel mem).1 = .value c ↔ a + b < wordEnd ∧ (f (a + b) fuel mem).1 = .value c := by
  simp only [bind_value_iff, add_value_iff, and_assoc, exists_and_left, exists_eq_left']

theorem checked_add_then_iff (a b : Nat) (f : Nat → Reading α) (c : α) :
    ((checkedAdd a b >>= f) fuel mem).1 = .value c ↔ a + b < wordEnd ∧ (f (a + b) fuel mem).1 = .value c := by
  simp only [bind_value_iff, checked_add_value_iff, and_assoc, exists_and_left, exists_eq_left']

theorem sub_then_iff (a b : Nat) (f : Nat → Reading α) (c : α) :
    ((sub a b >>= f) fuel mem).1 = .value c ↔ b ≤ a ∧ (f (a - b) fuel mem).1 = .value c := by
  unfold sub
  by_cases less : b ≤ a
  · rw [if_pos less]
    exact ⟨fun value => ⟨less, value⟩, And.right⟩
  · rw [if_neg less]
    exact ⟨fun no => (by cases no), fun known => absurd known.1 less⟩

theorem attempt_result (m : Reading α) :
    (attempt m fuel mem).1 =
      match (m fuel mem).1 with
      | .value a => .value (some a)
      | .missing => .value none
      | .fault why => .fault why := by
  unfold attempt
  rcases m fuel mem with ⟨a | _ | why, log⟩ <;> rfl

theorem attempt_value_iff (m : Reading α) (a : α) :
    (attempt m fuel mem).1 = .value (some a) ↔ (m fuel mem).1 = .value a := by
  rw [attempt_result]
  cases (m fuel mem).1 <;> simp

theorem attempt_none_iff (m : Reading α) : (attempt m fuel mem).1 = .value none ↔ (m fuel mem).1 = .missing := by
  rw [attempt_result]
  cases (m fuel mem).1 <;> simp

theorem reads_left {m : Reading α} (f : α → Reading β) {read : Load} (member : read ∈ (m fuel mem).2) :
    read ∈ ((m >>= f) fuel mem).2 := by
  change read ∈ (bind m f fuel mem).2
  unfold bind
  revert member
  rcases m fuel mem with ⟨a | _ | why, log⟩
  · exact fun member => List.mem_append_left _ member
  · exact fun member => member
  · exact fun member => member

theorem reads_right {m : Reading α} {f : α → Reading β} {read : Load} {a : α} (value : (m fuel mem).1 = .value a)
    (member : read ∈ (f a fuel mem).2) : read ∈ ((m >>= f) fuel mem).2 := by
  change read ∈ (bind m f fuel mem).2
  unfold bind
  revert value
  rcases m fuel mem with ⟨b | _ | why, log⟩
  · intro same
    cases same
    exact List.mem_append_right _ member
  · exact fun no => (by cases no)
  · exact fun no => (by cases no)

theorem attempt_log (m : Reading α) : (attempt m fuel mem).2 = (m fuel mem).2 := by
  unfold attempt
  rcases m fuel mem with ⟨a | _ | why, log⟩ <;> rfl

theorem ensures_bind {m : Reading α} {f : α → Reading β} {mid : α → Prop} {post : β → Prop}
    (first : Ensures fuel mem m mid) (second : ∀ a, mid a → Ensures fuel mem (f a) post) :
    Ensures fuel mem (m >>= f) post := by
  intro b same
  rw [bind_result] at same
  cases result : (m fuel mem).1 with
  | value a =>
      rw [result] at same
      exact second a (first a result) b same
  | missing =>
      rw [result] at same
      cases same
  | fault why =>
      rw [result] at same
      cases same

end

-- A run that returns or faults, but is not missing.
def Present (fuel : Nat) (mem : Nat → UInt8) (m : Reading α) : Prop := (m fuel mem).1 ≠ .missing

section
variable {fuel : Nat} {mem : Nat → UInt8}

theorem present_pure (a : α) : Present fuel mem (Pure.pure a : Reading α) := fun no => (by cases no)

theorem present_stop (why : Fault) : Present fuel mem (stop why : Reading α) := fun no => (by cases no)

theorem present_load (start len : Nat) : Present fuel mem (load start len) := fun no => (by cases no)

theorem present_attempt (m : Reading α) : Present fuel mem (attempt m) := by
  unfold Present
  rw [attempt_result]
  cases (m fuel mem).1 <;> exact fun no => (by cases no)

theorem present_bind {m : Reading α} {f : α → Reading β} (first : Present fuel mem m)
    (second : ∀ a, Present fuel mem (f a)) : Present fuel mem (m >>= f) := by
  unfold Present at first ⊢
  rw [bind_result]
  cases result : (m fuel mem).1 with
  | value a => exact second a
  | missing => exact absurd result first
  | fault why => exact fun no => (by cases no)

theorem present_add (a b : Nat) : Present fuel mem (add a b) := by
  unfold add
  split_ifs
  · exact present_pure _
  · exact present_stop _

theorem present_sub (a b : Nat) : Present fuel mem (sub a b) := by
  unfold sub
  split_ifs
  · exact present_pure _
  · exact present_stop _

theorem present_mul (a b : Nat) : Present fuel mem (mul a b) := by
  unfold mul
  split_ifs
  · exact present_pure _
  · exact present_stop _

theorem present_slice (data : List α) (start stop_ : Nat) : Present fuel mem (slice data start stop_) := by
  unfold slice
  split_ifs
  · exact present_pure _
  · exact present_stop _

theorem present_loop {body : σ → Reading (Round σ α)} (each : ∀ state, Present fuel mem (body state)) (state : σ) :
    Present fuel mem (loop body state) := by
  have whole : ∀ left state, Present fuel mem (rounds body left state) := by
    intro left
    induction left with
    | zero => exact fun _ => present_stop _
    | succ left ih =>
        refine fun state => present_bind (each state) fun round => ?_
        cases round with
        | again later => exact ih later
        | done a => exact present_pure a
  exact whole fuel state

theorem present_descend {body : (σ → Reading α) → σ → Reading α}
    (each : ∀ call : σ → Reading α, (∀ state, Present fuel mem (call state)) → ∀ state, Present fuel mem (body call state))
    (depth : Nat) (state : σ) : Present fuel mem (descend body depth state) := by
  induction depth generalizing state with
  | zero => exact present_stop _
  | succ depth ih => exact each _ ih state

end

-- Without a bound on rounds and depth the program ends with this result.
def Yields (mem : Nat → UInt8) (m : Reading α) (result : Result α) : Prop :=
  ∃ enough, ∀ fuel, enough ≤ fuel → (m fuel mem).1 = result

section
variable {mem : Nat → UInt8}

theorem yields_pure (a : α) : Yields mem (Pure.pure a) (.value a) := ⟨0, fun _ _ => rfl⟩

theorem yields_missing : Yields mem (missing : Reading α) .missing := ⟨0, fun _ _ => rfl⟩

theorem Yields.unique {m : Reading α} {result other : Result α} (first : Yields mem m result)
    (second : Yields mem m other) : result = other := by
  obtain ⟨n, first⟩ := first
  obtain ⟨k, second⟩ := second
  exact (first (max n k) (le_max_left n k)).symm.trans (second (max n k) (le_max_right n k))

theorem Yields.bind {m : Reading α} {f : α → Reading β} {a : α} {result : Result β}
    (first : Yields mem m (.value a)) (second : Yields mem (f a) result) : Yields mem (m >>= f) result := by
  obtain ⟨n, first⟩ := first
  obtain ⟨k, second⟩ := second
  refine ⟨max n k, fun fuel enough => ?_⟩
  rw [bind_result, first fuel (le_trans (le_max_left n k) enough)]
  exact second fuel (le_trans (le_max_right n k) enough)

theorem Yields.bind_missing {m : Reading α} (f : α → Reading β) (first : Yields mem m .missing) :
    Yields mem (m >>= f) .missing := by
  obtain ⟨n, first⟩ := first
  exact ⟨n, fun fuel enough => by rw [bind_result, first fuel enough]⟩

theorem Yields.attempt {m : Reading α} {a : α} (first : Yields mem m (.value a)) :
    Yields mem (attempt m) (.value (some a)) := by
  obtain ⟨n, first⟩ := first
  refine ⟨n, fun fuel enough => ?_⟩
  have here := first fuel enough
  unfold Reading.attempt
  revert here
  rcases m fuel mem with ⟨b | _ | why, log⟩
  · intro here
    cases here
    rfl
  · exact fun no => (by cases no)
  · exact fun no => (by cases no)

theorem Yields.attempt_missing {m : Reading α} (first : Yields mem m .missing) :
    Yields mem (Reading.attempt m) (.value none) := by
  obtain ⟨n, first⟩ := first
  refine ⟨n, fun fuel enough => ?_⟩
  have here := first fuel enough
  unfold Reading.attempt
  revert here
  rcases m fuel mem with ⟨b | _ | why, log⟩
  · exact fun no => (by cases no)
  · exact fun _ => rfl
  · exact fun no => (by cases no)

theorem yields_add (a b : Nat) (small : a + b < wordEnd) : Yields mem (add a b) (.value (a + b)) := by
  rw [add, if_pos small]
  exact yields_pure _

theorem yields_checked_add (a b : Nat) (small : a + b < wordEnd) :
    Yields mem (checkedAdd a b) (.value (a + b)) := by
  rw [checkedAdd, if_pos small]
  exact yields_pure _

theorem yields_sub (a b : Nat) (less : b ≤ a) : Yields mem (sub a b) (.value (a - b)) := by
  rw [sub, if_pos less]
  exact yields_pure _

theorem yields_mul (a b : Nat) (small : a * b < wordEnd) : Yields mem (mul a b) (.value (a * b)) := by
  rw [mul, if_pos small]
  exact yields_pure _

theorem yields_slice (data : List α) (start stop_ : Nat) (ordered : start ≤ stop_) (short : stop_ ≤ data.length) :
    Yields mem (slice data start stop_) (.value ((data.take stop_).drop start)) := by
  rw [slice, if_pos ⟨ordered, short⟩]
  exact yields_pure _

theorem yields_load (start len : Nat) : Yields mem (load start len) (.value ((addresses start len).map mem)) :=
  ⟨0, fun _ _ => rfl⟩

theorem yields_fetch (start width : Nat) :
    Yields mem (fetch start width) (.value ((addresses start width).map mem)) := ⟨0, fun _ _ => rfl⟩

def Returns (mem : Nat → UInt8) (m : Reading α) : Prop := ∃ a, Yields mem m (.value a)

theorem returns_pure (a : α) : Returns mem (Pure.pure a : Reading α) := ⟨a, yields_pure a⟩

theorem Yields.returns {m : Reading α} {f : α → Reading β} {a : α} (first : Yields mem m (.value a))
    (second : Returns mem (f a)) : Returns mem (m >>= f) := by
  obtain ⟨b, second⟩ := second
  exact ⟨b, first.bind second⟩

theorem Returns.bind {m : Reading α} {f : α → Reading β} (first : Returns mem m) (second : ∀ a, Returns mem (f a)) :
    Returns mem (m >>= f) := by
  obtain ⟨a, first⟩ := first
  exact first.returns (second a)

-- The loop, round by round.
inductive Unrolls (mem : Nat → UInt8) (body : σ → Reading (Round σ α)) : σ → Result α → Prop
  | done (state : σ) (a : α) (round : Yields mem (body state) (.value (.done a))) : Unrolls mem body state (.value a)
  | missing (state : σ) (round : Yields mem (body state) .missing) : Unrolls mem body state .missing
  | again (state later : σ) (result : Result α) (round : Yields mem (body state) (.value (.again later)))
      (rest : Unrolls mem body later result) : Unrolls mem body state result

theorem yields_loop {body : σ → Reading (Round σ α)} {state : σ} {result : Result α}
    (unrolls : Unrolls mem body state result) : Yields mem (loop body state) result := by
  have whole : ∃ enough, ∀ left fuel, enough ≤ left → enough ≤ fuel →
      (rounds body left state fuel mem).1 = result := by
    induction unrolls with
    | done state a round =>
        obtain ⟨n, round⟩ := round
        refine ⟨n + 1, fun left fuel many enough => ?_⟩
        obtain ⟨left, rfl⟩ : ∃ k, left = k + 1 := ⟨left - 1, by omega⟩
        exact (@bind_result _ _ fuel mem (body state) _).trans (by rw [round fuel (by omega)]; rfl)
    | missing state round =>
        obtain ⟨n, round⟩ := round
        refine ⟨n + 1, fun left fuel many enough => ?_⟩
        obtain ⟨left, rfl⟩ : ∃ k, left = k + 1 := ⟨left - 1, by omega⟩
        exact (@bind_result _ _ fuel mem (body state) _).trans (by rw [round fuel (by omega)])
    | again state later result round _ ih =>
        obtain ⟨n, round⟩ := round
        obtain ⟨k, rest⟩ := ih
        refine ⟨max n k + 1, fun left fuel many enough => ?_⟩
        have n_le := le_max_left n k
        have k_le := le_max_right n k
        obtain ⟨left, rfl⟩ : ∃ k, left = k + 1 := ⟨left - 1, by omega⟩
        refine (@bind_result _ _ fuel mem (body state) _).trans ?_
        rw [round fuel (by omega)]
        exact rest left fuel (by omega) (by omega)
  obtain ⟨enough, whole⟩ := whole
  exact ⟨enough, fun fuel many => whole fuel fuel many many⟩

-- A reading that runs the calls it is given on its own fuel and memory alone.
def Local (m : (σ → Reading α) → Reading β) : Prop :=
  ∀ (call other : σ → Reading α) (fuel : Nat) (mem : Nat → UInt8),
    (∀ state, call state fuel mem = other state fuel mem) → m call fuel mem = m other fuel mem

omit mem in
theorem local_const (m : Reading β) : Local fun _ : σ → Reading α => m := fun _ _ _ _ _ => rfl

omit mem in
theorem local_call (state : σ) : Local fun call : σ → Reading α => call state :=
  fun _ _ _ _ same => same state

omit mem in
theorem local_bind {γ : Type} {m : (σ → Reading α) → Reading β} {f : (σ → Reading α) → β → Reading γ}
    (first : Local m) (second : ∀ b, Local fun call => f call b) : Local fun call => m call >>= f call := by
  intro call other fuel mem same
  change bind (m call) (f call) fuel mem = bind (m other) (f other) fuel mem
  unfold bind
  rw [first call other fuel mem same]
  rcases m other fuel mem with ⟨b | _ | why, log⟩
  · have later := second b call other fuel mem same
    dsimp only at later ⊢
    rw [later]
  · rfl
  · rfl

omit mem in
theorem local_loop {τ : Type} {body : (σ → Reading α) → τ → Reading (Round τ β)}
    (each : ∀ at_, Local fun call => body call at_) (start : τ) : Local fun call => loop (body call) start := by
  intro call other fuel mem same
  have whole : ∀ left at_, rounds (body call) left at_ fuel mem = rounds (body other) left at_ fuel mem := by
    intro left
    induction left with
    | zero => exact fun _ => rfl
    | succ left ih =>
        intro at_
        unfold rounds bind
        have round := each at_ call other fuel mem same
        dsimp only at round
        rw [round]
        rcases body other at_ fuel mem with ⟨(later | b) | _ | why, log⟩
        · dsimp only
          rw [ih later]
        · rfl
        · rfl
        · rfl
  exact whole fuel start

-- The recursion at a depth.
def descent (body : (σ → Reading α) → σ → Reading α) (depth : Nat) (state : σ) : Reading α := fun fuel mem =>
  descend body (fuel - depth) state fuel mem

theorem yields_deeper {body : (σ → Reading α) → σ → Reading α} (each : ∀ state, Local fun call => body call state)
    (depth : Nat) (state : σ) {result : Result α}
    (goes : Yields mem (body (descent body (depth + 1)) state) result) : Yields mem (descent body depth state) result := by
  obtain ⟨n, goes⟩ := goes
  refine ⟨max n (depth + 1), fun fuel enough => ?_⟩
  have above := le_trans (le_max_right n (depth + 1)) enough
  have left : fuel - depth = fuel - (depth + 1) + 1 := by omega
  have inner := each state (descend body (fuel - (depth + 1))) (descent body (depth + 1)) fuel mem fun _ => rfl
  unfold descent
  rw [left]
  exact (congrArg Prod.fst inner).trans (goes fuel (le_trans (le_max_left n (depth + 1)) enough))

end

end Reading
