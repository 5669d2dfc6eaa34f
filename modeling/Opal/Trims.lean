import Opal.Reading
import Mathlib.Logic.Relation

set_option autoImplicit false

-- Two readings of which the first may stop where the second reads on. Nothing
-- here depends on what they read.
namespace Reading

variable {α β σ : Type} {fuel : Nat} {mem : Nat → UInt8}

-- The short one runs as the long one does where same holds. Elsewhere it has
-- read less, and what it returns, if it returns anything, is final.
structure Trims (final : α → Prop) (fuel : Nat) (mem : Nat → UInt8) (short long : Reading α) (same : Prop) : Prop where
  kept : same → short fuel mem = long fuel mem
  cut : ¬ same → (∀ a, (short fuel mem).1 = .value a → final a) ∧
    ∃ address more, (long fuel mem).2 = (short fuel mem).2 ++ address :: more

def never (_ : α) : Prop := False

section
variable {final mid : α → Prop} {short long : Reading α} {same : Prop}

theorem Trims.same_iff (trims : Trims final fuel mem short long same) : short fuel mem = long fuel mem ↔ same := by
  refine ⟨fun equal => ?_, trims.kept⟩
  by_contra different
  obtain ⟨_, address, more, log⟩ := trims.cut different
  rw [equal] at log
  have length := congrArg List.length log
  simp at length

theorem Trims.iff {other : Prop} (trims : Trims final fuel mem short long same) (iff : same ↔ other) :
    Trims final fuel mem short long other :=
  ⟨fun holds => trims.kept (iff.mpr holds), fun fails => trims.cut fun holds => fails (iff.mp holds)⟩

theorem trims_refl (m : Reading α) : Trims final fuel mem m m True := ⟨fun _ => rfl, fun no => absurd trivial no⟩

theorem trims_attempt (first : Trims never fuel mem short long same) :
    Trims (fun o => o = none) fuel mem (attempt short) (attempt long) same := by
  refine ⟨fun holds => ?_, fun fails => ?_⟩
  · unfold attempt
    rw [first.kept holds]
  · obtain ⟨stops, address, more, log⟩ := first.cut fails
    refine ⟨fun o result => ?_, address, more, by rw [attempt_log, attempt_log, log]⟩
    cases o with
    | none => rfl
    | some a => exact (stops a ((attempt_value_iff short a).mp result)).elim

end

theorem bind_log (m : Reading α) (f : α → Reading β) : ∃ more, ((m >>= f) fuel mem).2 = (m fuel mem).2 ++ more := by
  change ∃ more, (bind m f fuel mem).2 = _
  unfold bind
  rcases m fuel mem with ⟨a | _ | why, log⟩
  · exact ⟨_, rfl⟩
  · exact ⟨[], by simp⟩
  · exact ⟨[], by simp⟩

theorem bind_log_value {m : Reading α} (f : α → Reading β) {a : α} (first : (m fuel mem).1 = .value a) :
    ((m >>= f) fuel mem).2 = (m fuel mem).2 ++ (f a fuel mem).2 := by
  change (bind m f fuel mem).2 = _
  unfold bind
  revert first
  rcases m fuel mem with ⟨b | _ | why, log⟩
  · rintro ⟨⟩
    rfl
  · rintro ⟨⟩
  · rintro ⟨⟩

theorem bind_last {m : Reading α} {f : α → Reading β} {a : α} {log : List Load} (first : (m fuel mem).1 = .value a)
    (last : log <:+ (f a fuel mem).2) : log <:+ ((m >>= f) fuel mem).2 := by
  rw [bind_log_value f first]
  exact last.trans (List.suffix_append _ _)

theorem bind_stops {m : Reading α} (f : α → Reading β) (stops : ∀ a, (m fuel mem).1 ≠ .value a) :
    ((m >>= f) fuel mem).2 = (m fuel mem).2 ∧ ∀ b, ((m >>= f) fuel mem).1 ≠ .value b := by
  change (bind m f fuel mem).2 = _ ∧ ∀ b, (bind m f fuel mem).1 ≠ _
  unfold bind
  revert stops
  rcases m fuel mem with ⟨a | _ | why, log⟩
  · exact fun stops => absurd rfl (stops a)
  · exact fun _ => ⟨rfl, fun b no => (by cases no)⟩
  · exact fun _ => ⟨rfl, fun b no => (by cases no)⟩

theorem bind_same {m : Reading α} {m' : Reading α} {f f' : α → Reading β} (first : m' fuel mem = m fuel mem)
    (second : ∀ a, (m fuel mem).1 = .value a → f' a fuel mem = f a fuel mem) : (m' >>= f') fuel mem = (m >>= f) fuel mem := by
  change bind m' f' fuel mem = bind m f fuel mem
  unfold bind
  rw [first]
  revert second
  rcases m fuel mem with ⟨a | _ | why, log⟩
  · intro second
    dsimp only
    rw [second a rfl]
  · exact fun _ => rfl
  · exact fun _ => rfl

theorem trims_bind {final : β → Prop} {mid : α → Prop} {short long : Reading α} {same : Prop} {f g : α → Reading β}
    {later : α → Prop} (first : Trims mid fuel mem short long same)
    (ends : ∀ a, mid a → (f a fuel mem).2 = [] ∧ ∀ b, (f a fuel mem).1 = .value b → final b)
    (second : same → ∀ a, (long fuel mem).1 = .value a → Trims final fuel mem (f a) (g a) (later a)) :
    Trims final fuel mem (short >>= f) (long >>= g) (same ∧ ∀ a, (long fuel mem).1 = .value a → later a) := by
  refine ⟨fun ⟨holds, rest⟩ => ?_, fun fails => ?_⟩
  · exact bind_same (first.kept holds) fun a value => (second holds a value).kept (rest a value)
  · by_cases holds : same
    · have equal := first.kept holds
      have some_ : ∃ a, (long fuel mem).1 = .value a ∧ ¬ later a := by
        by_contra none_
        push Not at none_
        exact fails ⟨holds, none_⟩
      obtain ⟨a, value, ends_here⟩ := some_
      obtain ⟨stops, address, more, log⟩ := (second holds a value).cut ends_here
      have value' : (short fuel mem).1 = .value a := by rw [equal, value]
      refine ⟨fun b result => stops b ?_, address, more, ?_⟩
      · rwa [bind_value f value'] at result
      · rw [bind_log_value f value', bind_log_value g value, log, equal, List.append_assoc]
    · obtain ⟨stops, address, more, log⟩ := first.cut holds
      obtain ⟨rest, long_log⟩ := @bind_log _ _ fuel mem long g
      have silent : ((short >>= f) fuel mem).2 = (short fuel mem).2 ∧ ∀ b, ((short >>= f) fuel mem).1 = .value b → final b := by
        by_cases value : ∃ a, (short fuel mem).1 = .value a
        · obtain ⟨a, value⟩ := value
          obtain ⟨quiet, is_final⟩ := ends a (stops a value)
          rw [bind_log_value f value, bind_value f value, quiet]
          exact ⟨List.append_nil _, is_final⟩
        · push Not at value
          obtain ⟨log, none_⟩ := bind_stops f value
          exact ⟨log, fun b result => absurd result (none_ b)⟩
      refine ⟨silent.2, address, more ++ rest, ?_⟩
      rw [long_log, log, silent.1, List.append_assoc, List.cons_append]

theorem trims_then {final : β → Prop} {short long : Reading α} {same : Prop} {f g : α → Reading β} {later : α → Prop}
    (first : Trims never fuel mem short long same)
    (second : same → ∀ a, (long fuel mem).1 = .value a → Trims final fuel mem (f a) (g a) (later a)) :
    Trims final fuel mem (short >>= f) (long >>= g) (same ∧ ∀ a, (long fuel mem).1 = .value a → later a) :=
  trims_bind first (fun _ no => no.elim) second

theorem trims_after {final : β → Prop} (m : Reading α) {f g : α → Reading β} {later : α → Prop}
    (second : ∀ a, (m fuel mem).1 = .value a → Trims final fuel mem (f a) (g a) (later a)) :
    Trims final fuel mem (m >>= f) (m >>= g) (∀ a, (m fuel mem).1 = .value a → later a) :=
  (trims_then (trims_refl m) fun _ => second).iff (iff_of_eq (true_and _))

-- One round of a loop leads to the next.
def Again (fuel : Nat) (mem : Nat → UInt8) (body : σ → Reading (Round σ α)) (state later : σ) : Prop :=
  (body state fuel mem).1 = .value (.again later)

def Round.Ends (final : α → Prop) : Round σ α → Prop
  | .again _ => False
  | .done a => final a

section
variable {body : σ → Reading (Round σ α)}

theorem rounds_last (left : Nat) (state : σ) (a : α) (value : (rounds body left state fuel mem).1 = .value a) :
    ∃ later, Relation.ReflTransGen (Again fuel mem body) state later ∧ (body later fuel mem).1 = .value (.done a) ∧
      (body later fuel mem).2 <:+ (rounds body left state fuel mem).2 := by
  induction left generalizing state with
  | zero => cases value
  | succ left ih =>
      obtain ⟨round, found, rest⟩ := (bind_value_iff (body state) _ a).mp value
      cases round with
      | again next =>
          obtain ⟨later, reached, done, last⟩ := ih next rest
          exact ⟨later, .head found reached, done, bind_last found last⟩
      | done b =>
          obtain rfl := Result.value.inj rest
          refine ⟨state, .refl, found, ?_⟩
          change _ <:+ ((body state >>= _) fuel mem).2
          rw [bind_log_value _ found]
          exact ⟨[], (List.append_nil _).symm⟩

theorem rounds_value_iff (inv : σ → Prop) (measure : σ → Nat)
    (onward : ∀ state later, inv state → Again fuel mem body state later → inv later ∧ measure later < measure state)
    (left : Nat) (state : σ) (holds : inv state) (room : measure state < left) (a : α) :
    (rounds body left state fuel mem).1 = .value a ↔
      ∃ later, Relation.ReflTransGen (Again fuel mem body) state later ∧ (body later fuel mem).1 = .value (.done a) := by
  induction left generalizing state with
  | zero => exact absurd room (Nat.not_lt_zero _)
  | succ left ih =>
      refine (bind_value_iff (body state) _ a).trans ⟨?_, ?_⟩
      · rintro ⟨round, value, rest⟩
        cases round with
        | again next =>
            obtain ⟨kept, less⟩ := onward state next holds value
            obtain ⟨later, reached, ends⟩ := (ih next kept (Nat.lt_of_lt_of_le less (Nat.le_of_lt_succ room))).mp rest
            exact ⟨later, .head value reached, ends⟩
        | done b =>
            obtain rfl := Result.value.inj rest
            exact ⟨state, .refl, value⟩
      · rintro ⟨later, reached, ends⟩
        rcases reached.cases_head with rfl | ⟨next, again, reached⟩
        · exact ⟨_, ends, rfl⟩
        · obtain ⟨kept, less⟩ := onward state next holds again
          exact ⟨_, again, (ih next kept (Nat.lt_of_lt_of_le less (Nat.le_of_lt_succ room))).mpr ⟨later, reached, ends⟩⟩

theorem loop_value_iff (inv : σ → Prop) (measure : σ → Nat)
    (onward : ∀ state later, inv state → Again fuel mem body state later → inv later ∧ measure later < measure state)
    (state : σ) (holds : inv state) (room : measure state < fuel) (a : α) :
    (loop body state fuel mem).1 = .value a ↔
      ∃ later, Relation.ReflTransGen (Again fuel mem body) state later ∧ (body later fuel mem).1 = .value (.done a) :=
  rounds_value_iff inv measure onward fuel state holds room a

end

-- The short one is missing where the long one reads no more.
def Gives (fuel : Nat) (mem : Nat → UInt8) (short : Reading α) (long : Reading β) : Prop :=
  short fuel mem = (.missing, (long fuel mem).2)

theorem gives_bind {γ : Type} {short long : Reading α} {f : α → Reading β} {g : α → Reading γ} {a : α}
    (first : short fuel mem = long fuel mem) (value : (long fuel mem).1 = .value a) (rest : Gives fuel mem (f a) (g a)) :
    Gives fuel mem (short >>= f) (long >>= g) := by
  have value' : (short fuel mem).1 = .value a := by rw [first, value]
  have result : ((short >>= f) fuel mem).1 = .missing := by rw [bind_value f value', rest]
  have log : ((short >>= f) fuel mem).2 = ((long >>= g) fuel mem).2 := by
    rw [bind_log_value f value', bind_log_value g value, first, rest]
  exact Prod.ext result log

section
variable {final : α → Prop} {short long : σ → Reading (Round σ α)} {same : σ → Prop}

-- A round that is missing where the long one goes on to a round that is.
structure Anticipates (fuel : Nat) (mem : Nat → UInt8) (short long : σ → Reading (Round σ α)) (same : σ → Prop)
    (state later : σ) : Prop where
  gives : Gives fuel mem (short state) (long state)
  again : Again fuel mem long state later
  ends : long later fuel mem = (.missing, [])
  here : same state
  there : same later

theorem anticipates_same {state later : σ} (soon : Anticipates fuel mem short long same state later) (at_ : σ)
    (reached : Relation.ReflTransGen (Again fuel mem long) state at_) : same at_ := by
  rcases reached.cases_head with rfl | ⟨next, again, reached⟩
  · exact soon.here
  · have one := soon.again.symm.trans again
    cases one
    rcases reached.cases_head with rfl | ⟨past, again, _⟩
    · exact soon.there
    · unfold Again at again
      rw [soon.ends] at again
      cases again

theorem anticipates_rounds {state later : σ} (soon : Anticipates fuel mem short long same state later) (left : Nat)
    (some_ : 0 < left) : rounds short (left + 1) state fuel mem = rounds long (left + 1) state fuel mem := by
  obtain ⟨left, rfl⟩ := Nat.exists_eq_succ_of_ne_zero (Nat.ne_of_gt some_)
  change (short state >>= _) fuel mem = (long state >>= _) fuel mem
  have last : rounds long (left + 1) later fuel mem = (.missing, []) := by
    change Reading.bind (long later) _ fuel mem = _
    unfold Reading.bind
    rw [soon.ends]
  have nothing : ∀ a, (short state fuel mem).1 ≠ .value a := by
    rw [soon.gives]
    exact fun _ no => (by cases no)
  refine Prod.ext ?_ ?_
  · rw [bind_value _ soon.again, bind_result, soon.gives]
    exact (congrArg Prod.fst last).symm
  · rw [bind_log_value _ soon.again, (bind_stops _ nothing).1, soon.gives]
    dsimp only
    rw [last, List.append_nil]

theorem trims_rounds (inv : σ → Prop) (measure : σ → Nat)
    (each : ∀ state, inv state → Trims (Round.Ends final) fuel mem (short state) (long state) (same state) ∨
      ∃ later, Anticipates fuel mem short long same state later)
    (onward : ∀ state later, inv state → Again fuel mem long state later → inv later ∧ measure later < measure state)
    (left : Nat) (state : σ) (holds : inv state) (room : measure state < left) :
    Trims final fuel mem (rounds short left state) (rounds long left state)
      (∀ later, Relation.ReflTransGen (Again fuel mem long) state later → same later) := by
  induction left generalizing state with
  | zero => exact absurd room (Nat.not_lt_zero _)
  | succ left ih =>
      rcases each state holds with trims | ⟨later, soon⟩
      · let rest : Round σ α → Prop := fun round =>
          match round with
          | .again later => ∀ at_, Relation.ReflTransGen (Again fuel mem long) later at_ → same at_
          | .done _ => True
        have step : Trims final fuel mem (rounds short (left + 1) state) (rounds long (left + 1) state)
            (same state ∧ ∀ round, (long state fuel mem).1 = .value round → rest round) := by
          refine trims_bind trims (fun round ends => ?_) fun _ round value => ?_
          · cases round with
            | again _ => exact ends.elim
            | done a => exact ⟨rfl, fun b value => Result.value.inj value ▸ ends⟩
          · cases round with
            | again later =>
                obtain ⟨kept, less⟩ := onward state later holds value
                exact ih later kept (Nat.lt_of_lt_of_le less (Nat.le_of_lt_succ room))
            | done a => exact trims_refl _
        refine step.iff ⟨fun ⟨here, further⟩ later reached => ?_, fun all => ⟨all state .refl, fun round value => ?_⟩⟩
        · rcases reached.cases_head with rfl | ⟨next, again, reached⟩
          · exact here
          · exact further _ again later reached
        · cases round with
          | again next => exact fun later reached => all later (.head value reached)
          | done a => trivial
      · obtain ⟨_, less⟩ := onward state later holds soon.again
        refine ⟨fun _ => anticipates_rounds soon left (by omega), fun no => absurd (anticipates_same soon) no⟩

theorem trims_loop (inv : σ → Prop) (measure : σ → Nat)
    (each : ∀ state, inv state → Trims (Round.Ends final) fuel mem (short state) (long state) (same state) ∨
      ∃ later, Anticipates fuel mem short long same state later)
    (onward : ∀ state later, inv state → Again fuel mem long state later → inv later ∧ measure later < measure state)
    (state : σ) (holds : inv state) (room : measure state < fuel) :
    Trims final fuel mem (loop short state) (loop long state)
      (∀ later, Relation.ReflTransGen (Again fuel mem long) state later → same later) := by
  obtain ⟨kept, cut⟩ := trims_rounds inv measure each onward fuel state holds room
  exact ⟨kept, cut⟩

end

theorem reached_congr {first second : σ → σ → Prop} (inv : σ → Prop) (same : ∀ a b, inv a → (first a b ↔ second a b))
    (kept : ∀ a b, inv a → second a b → inv b) (a b : σ) (holds : inv a) :
    Relation.ReflTransGen first a b ↔ Relation.ReflTransGen second a b := by
  have both : ∀ p q : σ → σ → Prop, (∀ a b, inv a → p a b → q a b ∧ inv b) → Relation.ReflTransGen p a b →
      Relation.ReflTransGen q a b ∧ inv b := by
    intro p q each walk
    induction walk with
    | refl => exact ⟨.refl, holds⟩
    | tail _ next ih =>
        obtain ⟨step, later⟩ := each _ _ ih.2 next
        exact ⟨ih.1.tail step, later⟩
  refine ⟨fun walk => (both first second (fun a b here step => ?_) walk).1,
    fun walk => (both second first (fun a b here step => ?_) walk).1⟩
  · exact ⟨(same a b here).mp step, kept a b here ((same a b here).mp step)⟩
  · exact ⟨(same a b here).mpr step, kept a b here step⟩

theorem reached_inv {step : σ → σ → Prop} (inv : σ → Prop) (kept : ∀ a b, inv a → step a b → inv b) (a b : σ) (holds : inv a)
    (walk : Relation.ReflTransGen step a b) : inv b := by
  induction walk with
  | refl => exact holds
  | tail _ next ih => exact kept _ _ ih next

-- A loop over what another loop finds: the inner one walks to a marked state,
-- the outer one goes on behind it. Together they come to every state there is.
theorem reached_iff_marked {step : σ → σ → Prop} (marked : σ → Prop) (first last : σ) :
    Relation.ReflTransGen step first last ↔
      ∃ mid, Relation.ReflTransGen
          (fun a b => ∃ at_, Relation.ReflTransGen (fun c d => step c d ∧ ¬ marked c) a at_ ∧ marked at_ ∧ step at_ b) first mid ∧
        Relation.ReflTransGen (fun c d => step c d ∧ ¬ marked c) mid last := by
  constructor
  · intro reached
    induction reached with
    | refl => exact ⟨first, .refl, .refl⟩
    | @tail before after _ next ih =>
        obtain ⟨mid, outer, inner⟩ := ih
        by_cases here : marked before
        · exact ⟨after, outer.tail ⟨before, inner, here, next⟩, .refl⟩
        · exact ⟨mid, outer, inner.tail ⟨next, here⟩⟩
  · rintro ⟨mid, outer, inner⟩
    have plain : ∀ a b, Relation.ReflTransGen (fun c d => step c d ∧ ¬ marked c) a b → Relation.ReflTransGen step a b :=
      fun a b walk => walk.lift id fun _ _ both => both.1
    suffices reached : Relation.ReflTransGen step first mid from reached.trans (plain mid last inner)
    clear inner
    induction outer with
    | refl => exact .refl
    | tail _ next ih =>
        obtain ⟨at_, walk, _, step⟩ := next
        exact ih.trans ((plain _ _ walk).tail step)

-- The first runs as the second does, which returns what post promises.
structure Mirrors (fuel : Nat) (mem : Nat → UInt8) (first second : Reading α) (post : α → Prop) : Prop where
  same : first fuel mem = second fuel mem
  returns : Ensures fuel mem second post

section
variable {first second : Reading α} {post : α → Prop}

theorem mirrors_pure (a : α) (holds : post a) : Mirrors fuel mem (Pure.pure a) (Pure.pure a) post :=
  ⟨rfl, ensures_pure a post holds⟩

theorem mirrors_missing : Mirrors fuel mem missing missing post := ⟨rfl, ensures_missing post⟩

theorem mirrors_self (m : Reading α) : Mirrors fuel mem m m fun _ => True := ⟨rfl, ensures_all m⟩

theorem mirrors_bind {f g : α → Reading β} {later : β → Prop} (start : Mirrors fuel mem first second post)
    (rest : ∀ a, post a → Mirrors fuel mem (f a) (g a) later) : Mirrors fuel mem (first >>= f) (second >>= g) later :=
  ⟨bind_same start.same fun a value => (rest a (start.returns a value)).same,
    ensures_bind start.returns fun a holds => (rest a holds).returns⟩

theorem mirrors_attempt (start : Mirrors fuel mem first second post) :
    Mirrors fuel mem (attempt first) (attempt second) fun o => ∀ a, o = some a → post a := by
  refine ⟨?_, fun o value a some_ => ?_⟩
  · unfold attempt
    rw [start.same]
  · subst some_
    exact start.returns a ((attempt_value_iff second a).mp value)

theorem mirrors_loop {short long : σ → Reading (Round σ α)} (inv : σ → Prop)
    (step : ∀ state, inv state → Mirrors fuel mem (short state) (long state) fun round =>
      match round with
      | .again later => inv later
      | .done a => post a)
    (state : σ) (holds : inv state) : Mirrors fuel mem (loop short state) (loop long state) post := by
  have whole : ∀ left state, inv state → Mirrors fuel mem (rounds short left state) (rounds long left state) post := by
    intro left
    induction left with
    | zero => exact fun state _ => ⟨rfl, fun _ no => (by cases no)⟩
    | succ left ih =>
        intro state holds
        refine mirrors_bind (step state holds) fun round kept => ?_
        cases round with
        | again later => exact ih later kept
        | done a => exact mirrors_pure a kept
  exact ⟨(whole fuel state holds).same, (whole fuel state holds).returns⟩

theorem mirrors_recurse {short long : (σ → Reading α) → σ → Reading α} {p : σ → α → Prop} (inv : σ → Prop)
    (step : ∀ call call' : σ → Reading α, (∀ later, inv later → Mirrors fuel mem (call later) (call' later) (p later)) →
      ∀ state, inv state → Mirrors fuel mem (short call state) (long call' state) (p state))
    (state : σ) (holds : inv state) : Mirrors fuel mem (recurse short state) (recurse long state) (p state) := by
  have whole : ∀ left state, inv state → Mirrors fuel mem (descend short left state) (descend long left state) (p state) := by
    intro left
    induction left with
    | zero => exact fun state _ => ⟨rfl, fun _ no => (by cases no)⟩
    | succ left ih => exact step _ _ ih
  exact ⟨(whole fuel state holds).same, (whole fuel state holds).returns⟩

end

end Reading
