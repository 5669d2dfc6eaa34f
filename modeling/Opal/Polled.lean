import Opal.Run
import Mathlib.Data.Nat.Init

set_option autoImplicit false

-- A program behind a port with a queue each way, both of which it polls. It
-- reads one symbol at a time and answers it before it reads on. Nothing here
-- depends on what the program is or how the port shows that it is ready.
namespace Polled

variable {σ δ β : Type}

-- The state after an input, and the whole output on it.
def answers (react : σ → β → σ × List β) : σ → List β → σ × List β
  | state, [] => (state, [])
  | state, b :: rest =>
      let (after, out) := react state b
      let (last, more) := answers react after rest
      (last, out ++ more)

-- What a device does on each access, and by itself: it puts a waiting symbol
-- on the wire, or takes one from it while it has the room.
structure Port (δ β : Type) where
  inbox : δ → List β
  outbox : δ → List β
  wire : δ → List β
  mayStore : δ → Bool
  mayLoad : δ → Bool
  store : δ → β → δ
  load : δ → β × δ
  shift : δ → δ
  arrive : δ → β → δ
  takes : δ → Bool
  empty_ready : ∀ d, outbox d = [] → mayStore d = true
  load_ready : ∀ d, mayLoad d = true ↔ inbox d ≠ []
  stored : ∀ d b, mayStore d = true →
    outbox (store d b) = outbox d ++ [b] ∧ inbox (store d b) = inbox d ∧ wire (store d b) = wire d
  loaded : ∀ d b rest, inbox d = b :: rest →
    (load d).1 = b ∧ inbox (load d).2 = rest ∧ outbox (load d).2 = outbox d ∧ wire (load d).2 = wire d
  shifted : ∀ d, wire (shift d) ++ outbox (shift d) = wire d ++ outbox d ∧
    outbox (shift d) = (outbox d).tail ∧ inbox (shift d) = inbox d
  arrived : ∀ d b, inbox (arrive d b) = (if takes d then inbox d ++ [b] else inbox d) ∧
    outbox (arrive d b) = outbox d ∧ wire (arrive d b) = wire d
  -- Readiness to take a symbol ends only with a store.
  shift_ready : ∀ d, mayStore d = true → mayStore (shift d) = true
  arrive_ready : ∀ d b, mayStore d = true → mayStore (arrive d b) = true

-- output is what the program has still to write. polled says that its last
-- read of the status found the port ready. taken and arrived are history.
structure Link (σ δ β : Type) where
  state : σ
  output : List β
  polled : Bool
  device : δ
  taken : List β
  arrived : List β

inductive Event (β : Type) where
  | cpu
  | shift
  | arrive (b : β)

namespace Link

section
variable (react : σ → β → σ × List β) (port : Port δ β)

def boot (start : σ) (greeting : List β) (device : δ) : Link σ δ β :=
  ⟨start, greeting, false, device, [], port.inbox device⟩

-- One access to the port. Between two of them the program computes.
def cpu (s : Link σ δ β) : Link σ δ β :=
  match s.output with
  | b :: rest =>
      if s.polled then { s with output := rest, polled := false, device := port.store s.device b }
      else { s with polled := port.mayStore s.device }
  | [] =>
      if s.polled then
        let (b, device) := port.load s.device
        let (state, out) := react s.state b
        { s with state := state, output := out, polled := false, device := device, taken := s.taken ++ [b] }
      else { s with polled := port.mayLoad s.device }

def next (s : Link σ δ β) : Event β → Link σ δ β
  | .cpu => s.cpu react port
  | .shift => { s with device := port.shift s.device }
  | .arrive b =>
      { s with device := port.arrive s.device b, arrived := if port.takes s.device then s.arrived ++ [b] else s.arrived }

-- No symbol is lost, doubled or out of order, on the way in or on the way out.
structure Faithful (start : σ) (greeting : List β) (s : Link σ δ β) : Prop where
  input : s.taken ++ port.inbox s.device = s.arrived
  state : s.state = (answers react start s.taken).1
  output : port.wire s.device ++ port.outbox s.device ++ s.output = greeting ++ (answers react start s.taken).2
  polled : s.polled = true → (if s.output = [] then port.mayLoad s.device else port.mayStore s.device) = true

end

end Link

section
variable (react : σ → β → σ × List β) (port : Port δ β)

theorem answers_append (state : σ) (a b : List β) :
    answers react state (a ++ b) =
      ((answers react (answers react state a).1 b).1,
        (answers react state a).2 ++ (answers react (answers react state a).1 b).2) := by
  induction a generalizing state with
  | nil => rfl
  | cons x rest ih => simp [answers, ih]

theorem answers_mono (state : σ) (a b : List β) (shorter : a <+: b) :
    (answers react state a).2 <+: (answers react state b).2 := by
  obtain ⟨more, rfl⟩ := shorter
  rw [answers_append]
  exact List.prefix_append _ _

variable {start : σ} {greeting : List β} {s : Link σ δ β}

theorem boot_faithful (device : δ) (fresh : port.wire device = []) (idle : port.outbox device = []) :
    (Link.boot port start greeting device).Faithful react port start greeting := by
  refine ⟨List.nil_append _, rfl, ?_, fun ready => by cases ready⟩
  simp [Link.boot, fresh, idle, answers]

theorem cpu_faithful (faithful : s.Faithful react port start greeting) :
    (s.cpu react port).Faithful react port start greeting := by
  unfold Link.cpu
  split
  · next b rest out =>
    have writes : ¬ s.output = [] := by simp [out]
    split
    · next ready =>
      have room := faithful.polled ready
      rw [if_neg writes] at room
      obtain ⟨more, same, wire⟩ := port.stored s.device b room
      have whole := faithful.output
      rw [out] at whole
      refine ⟨by simpa [same] using faithful.input, faithful.state, ?_, fun no => by cases no⟩
      simpa [more, wire] using whole
    · refine ⟨faithful.input, faithful.state, faithful.output, fun found => ?_⟩
      rw [if_neg writes]
      exact found
  · next out =>
    split
    · next ready =>
      have waits := faithful.polled ready
      rw [if_pos out, port.load_ready] at waits
      obtain ⟨b, rest, inbox⟩ := List.exists_cons_of_ne_nil waits
      obtain ⟨read, left, outbox, wire⟩ := port.loaded s.device b rest inbox
      have whole := faithful.output
      rw [out, List.append_nil] at whole
      have input := faithful.input
      rw [inbox] at input
      refine ⟨?_, ?_, ?_, fun no => by cases no⟩
      · simpa [read, left] using input
      · simp [read, answers_append, answers, faithful.state]
      · simp [read, outbox, wire, whole, answers_append, answers, faithful.state]
    · refine ⟨faithful.input, faithful.state, faithful.output, fun found => ?_⟩
      rw [if_pos out]
      exact found

theorem next_faithful (event : Event β) (faithful : s.Faithful react port start greeting) :
    (s.next react port event).Faithful react port start greeting := by
  cases event with
  | cpu => exact cpu_faithful react port faithful
  | shift =>
      obtain ⟨same, _, inbox⟩ := port.shifted s.device
      refine ⟨?_, faithful.state, ?_, fun ready => ?_⟩
      · simpa [Link.next, inbox] using faithful.input
      · simpa [Link.next, same] using faithful.output
      · have before := faithful.polled ready
        by_cases out : s.output = []
        · rw [if_pos out, port.load_ready] at before
          simpa [Link.next, out, port.load_ready, inbox] using before
        · rw [if_neg out] at before
          simpa [Link.next, out] using port.shift_ready s.device before
  | arrive b =>
      obtain ⟨inbox, outbox, wire⟩ := port.arrived s.device b
      have input := faithful.input
      refine ⟨?_, faithful.state, ?_, fun ready => ?_⟩
      · by_cases takes : port.takes s.device = true
        · simp [Link.next, inbox, takes, ← input]
        · simp [Link.next, inbox, takes, ← input]
      · simpa [Link.next, outbox, wire] using faithful.output
      · have before := faithful.polled ready
        by_cases out : s.output = []
        · rw [if_pos out, port.load_ready] at before
          by_cases takes : port.takes s.device = true
          · simp [Link.next, out, port.load_ready, inbox, takes]
          · simpa [Link.next, out, port.load_ready, inbox, takes] using before
        · rw [if_neg out] at before
          simpa [Link.next, out] using port.arrive_ready s.device b before

theorem run_faithful (events : List (Event β)) (faithful : s.Faithful react port start greeting) :
    (Run.exec (Link.next react port) s events).Faithful react port start greeting :=
  Run.invariant _ (fun _ _ => True) _ (fun _ event kept _ => next_faithful react port event kept) s events faithful
    (Run.along_of_forall _ _ (fun _ _ => trivial) _ _)

-- The states of an endless run.
def trace (s : Link σ δ β) (events : Nat → Event β) : Nat → Link σ δ β
  | 0 => s
  | n + 1 => (trace s events n).next react port (events n)

-- The program gets to run again and again, and so does the far end of the wire.
structure Fair (events : Nat → Event β) : Prop where
  cpu : ∀ n, ∃ m, n ≤ m ∧ events m = .cpu
  shift : ∀ n, ∃ m, n ≤ m ∧ events m = .shift

-- What holds until an event comes that has to come leads to what that event does.
theorem leads_to (events : Nat → Event β) (event : Event β) (comes : ∀ n, ∃ m, n ≤ m ∧ events m = event)
    (holds goal : Nat → Prop) (stays : ∀ n, holds n → events n ≠ event → holds (n + 1) ∨ goal (n + 1))
    (fires : ∀ n, holds n → events n = event → goal (n + 1)) (n : Nat) (now : holds n) : ∃ m, n ≤ m ∧ goal m := by
  obtain ⟨m, later, is⟩ := comes n
  obtain ⟨wait, rfl⟩ := Nat.exists_eq_add_of_le later
  clear later
  induction wait generalizing n with
  | zero => exact ⟨n + 1, Nat.le_succ n, fires n now is⟩
  | succ wait ih =>
      by_cases here : events n = event
      · exact ⟨n + 1, Nat.le_succ n, fires n now here⟩
      · rcases stays n now here with next | reached
        · obtain ⟨m, later, reached⟩ := ih (n + 1) next (by rwa [Nat.add_right_comm])
          exact ⟨m, by omega, reached⟩
        · exact ⟨n + 1, Nat.le_succ n, reached⟩

-- What is left of an input of inputs symbols and of its answer of outputs
-- symbols: to be read, to be stored and to be sent.
def Link.left (inputs outputs : Nat) (s : Link σ δ β) : Nat :=
  (inputs - s.taken.length) + (outputs - (port.wire s.device ++ port.outbox s.device).length) +
    (outputs - (port.wire s.device).length)

-- The next access to the port, once it is ready, leaves less.
def Link.Useful (inputs outputs : Nat) (s : Link σ δ β) : Prop :=
  if s.output = [] then s.taken.length < inputs
  else (port.wire s.device ++ port.outbox s.device).length < outputs

def Link.Drains (outputs : Nat) (s : Link σ δ β) : Prop :=
  port.outbox s.device ≠ [] ∧ (port.wire s.device).length < outputs

theorem access_left {inputs outputs : Nat} (faithful : s.Faithful react port start greeting) (useful : s.Useful port inputs outputs) (ready : s.polled = true) : (s.cpu react port).left port inputs outputs < s.left port inputs outputs := by
  have now := faithful.polled ready
  unfold Link.Useful at useful
  unfold Link.cpu Link.left
  split
  · next b rest out =>
    rw [if_neg (by simp [out])] at now useful
    obtain ⟨more, _, wire⟩ := port.stored s.device b now
    simp only [ready, if_true, more, wire, List.length_append, List.length_singleton] at useful ⊢
    omega
  · next out =>
    rw [if_pos out] at now useful
    obtain ⟨b, rest, inbox⟩ := List.exists_cons_of_ne_nil ((port.load_ready s.device).mp now)
    obtain ⟨_, _, outbox, wire⟩ := port.loaded s.device b rest inbox
    simp only [ready, if_true, outbox, wire, List.length_append, List.length_singleton] at useful ⊢
    omega

theorem cpu_left (inputs outputs : Nat) (faithful : s.Faithful react port start greeting) : (s.cpu react port).left port inputs outputs ≤ s.left port inputs outputs := by
  by_cases ready : s.polled = true
  · have now := faithful.polled ready
    unfold Link.cpu Link.left
    split
    · next b rest out =>
      rw [if_neg (by simp [out])] at now
      obtain ⟨more, _, wire⟩ := port.stored s.device b now
      simp only [ready, if_true, more, wire, List.length_append, List.length_singleton]
      omega
    · next out =>
      rw [if_pos out] at now
      obtain ⟨b, rest, inbox⟩ := List.exists_cons_of_ne_nil ((port.load_ready s.device).mp now)
      obtain ⟨_, _, outbox, wire⟩ := port.loaded s.device b rest inbox
      simp only [ready, if_true, outbox, wire, List.length_append, List.length_singleton]
      omega
  · unfold Link.cpu Link.left
    split <;> simp [ready]

theorem shift_length (d : δ) : (port.wire (port.shift d)).length + (port.outbox (port.shift d)).length =
    (port.wire d).length + (port.outbox d).length := by
  simpa using congrArg List.length (port.shifted d).1

theorem shift_left (inputs outputs : Nat) :
    (s.next react port .shift).left port inputs outputs ≤ s.left port inputs outputs := by
  have same := shift_length port s.device
  have rest := congrArg List.length (port.shifted s.device).2.1
  rw [List.length_tail] at rest
  simp only [Link.next, Link.left, List.length_append]
  omega

theorem drain_left (inputs outputs : Nat) (drains : s.Drains port outputs) :
    (s.next react port .shift).left port inputs outputs < s.left port inputs outputs := by
  have same := shift_length port s.device
  have rest := congrArg List.length (port.shifted s.device).2.1
  rw [List.length_tail] at rest
  have waits := List.length_pos_iff.mpr drains.1
  have short := drains.2
  simp only [Link.next, Link.left, List.length_append]
  omega

theorem arrive_left (inputs outputs : Nat) (b : β) :
    (s.next react port (.arrive b)).left port inputs outputs = s.left port inputs outputs := by
  obtain ⟨_, outbox, wire⟩ := port.arrived s.device b
  simp only [Link.next, Link.left, outbox, wire]

theorem next_left (inputs outputs : Nat) (event : Event β) (faithful : s.Faithful react port start greeting) :
    (s.next react port event).left port inputs outputs ≤ s.left port inputs outputs := by
  cases event with
  | cpu => exact cpu_left react port inputs outputs faithful
  | shift => exact shift_left react port inputs outputs
  | arrive b => exact Nat.le_of_eq (arrive_left react port inputs outputs b)

theorem next_useful (inputs outputs : Nat) (event : Event β) (other : event ≠ .cpu) (useful : s.Useful port inputs outputs) :
    (s.next react port event).Useful port inputs outputs ∧ (s.next react port event).polled = s.polled := by
  cases event with
  | cpu => exact absurd rfl other
  | shift =>
      have same := (port.shifted s.device).1
      refine ⟨?_, rfl⟩
      simpa only [Link.next, Link.Useful, same] using useful
  | arrive b =>
      obtain ⟨_, outbox, wire⟩ := port.arrived s.device b
      refine ⟨?_, rfl⟩
      simpa only [Link.next, Link.Useful, outbox, wire] using useful

theorem next_drains (outputs : Nat) (event : Event β) (other : event ≠ .shift)
    (faithful : s.Faithful react port start greeting) (drains : s.Drains port outputs) :
    (s.next react port event).Drains port outputs := by
  obtain ⟨waits, short⟩ := drains
  cases event with
  | cpu =>
      unfold Link.next Link.cpu Link.Drains
      dsimp only
      by_cases ready : s.polled = true
      · have now := faithful.polled ready
        split
        · next b rest out =>
          rw [if_neg (by simp [out])] at now
          obtain ⟨more, _, wire⟩ := port.stored s.device b now
          simpa [ready, more, wire] using short
        · next out =>
          rw [if_pos out] at now
          obtain ⟨b, rest, inbox⟩ := List.exists_cons_of_ne_nil ((port.load_ready s.device).mp now)
          obtain ⟨_, _, outbox, wire⟩ := port.loaded s.device b rest inbox
          simpa [ready, outbox, wire] using And.intro waits short
      · split <;> simpa [ready] using And.intro waits short
  | shift => exact absurd rfl other
  | arrive b =>
      obtain ⟨_, outbox, wire⟩ := port.arrived s.device b
      simpa only [Link.next, Link.Drains, outbox, wire] using And.intro waits short

theorem poll_useful (inputs outputs : Nat) (faithful : s.Faithful react port start greeting)
    (useful : s.Useful port inputs outputs) (more : inputs ≤ s.arrived.length) (idle : ¬ s.polled = true) :
    ((s.cpu react port).Useful port inputs outputs ∧ (s.cpu react port).polled = true) ∨
      (s.cpu react port).Drains port outputs := by
  unfold Link.Useful at useful
  unfold Link.cpu
  split
  · next b rest out =>
    have writes : ¬ s.output = [] := by simp [out]
    rw [if_neg writes] at useful
    by_cases room : port.mayStore s.device = true
    · refine .inl ⟨?_, by simpa [idle] using room⟩
      simpa [idle, Link.Useful, writes] using useful
    · refine .inr ⟨?_, ?_⟩
      · simpa [idle] using fun empty => room (port.empty_ready s.device empty)
      · simp only [idle, List.length_append] at useful ⊢
        simp only [Bool.false_eq_true, if_false]
        omega
  · next out =>
    rw [if_pos out] at useful
    refine .inl ⟨by simpa [idle, Link.Useful, out] using useful, ?_⟩
    have waits : port.inbox s.device ≠ [] := by
      intro empty
      have input := faithful.input
      rw [empty, List.append_nil] at input
      rw [← input] at more
      omega
    simpa [idle] using (port.load_ready s.device).mpr waits

theorem unfinished (input : List β) (faithful : s.Faithful react port start greeting) (come : input <+: s.arrived)
    (short : s.taken.length < input.length ∨ (port.wire s.device).length < (greeting ++ (answers react start input).2).length) :
    s.Useful port input.length (greeting ++ (answers react start input).2).length ∨
      s.Drains port (greeting ++ (answers react start input).2).length := by
  have reads : s.taken <+: s.arrived := ⟨_, faithful.input⟩
  have total := congrArg List.length faithful.output
  simp only [List.length_append] at total
  by_cases behind : s.taken.length < input.length
  · have shorter := (answers_mono react start _ _ (List.prefix_of_prefix_length_le reads come (Nat.le_of_lt behind))).length_le
    by_cases out : s.output = []
    · exact .inl (by simpa [Link.Useful, out] using behind)
    · have writes := List.length_pos_iff.mpr out
      refine .inl ?_
      simp only [Link.Useful, out, if_false, List.length_append]
      omega
  · have longer := (answers_mono react start _ _ (List.prefix_of_prefix_length_le come reads (by omega))).length_le
    have wire := short.resolve_left behind
    simp only [List.length_append] at wire
    by_cases room : (port.wire s.device ++ port.outbox s.device).length < (greeting ++ (answers react start input).2).length
    · by_cases out : s.output = []
      · simp only [out, List.length_nil, List.length_append] at total room
        omega
      · exact .inl (by simpa [Link.Useful, out] using room)
    · refine .inr ⟨fun empty => ?_, by simpa using wire⟩
      simp only [empty, List.length_append, List.length_nil] at room
      omega

section
variable (s : Link σ δ β) (events : Nat → Event β)

theorem trace_faithful (faithful : s.Faithful react port start greeting) (n : Nat) :
    (trace react port s events n).Faithful react port start greeting := by
  induction n with
  | zero => exact faithful
  | succ n ih => exact next_faithful react port (events n) ih

theorem trace_arrived (m n : Nat) (later : n ≤ m) :
    (trace react port s events n).arrived <+: (trace react port s events m).arrived := by
  induction m, later using Nat.le_induction with
  | base => exact List.prefix_rfl
  | succ m _ ih =>
      refine ih.trans ?_
      change _ <+: ((trace react port s events m).next react port (events m)).arrived
      cases events m with
      | cpu =>
          unfold Link.next Link.cpu
          dsimp only
          repeat' split
          all_goals exact List.prefix_rfl
      | shift => exact List.prefix_rfl
      | arrive b =>
          unfold Link.next
          dsimp only
          split
          · exact List.prefix_append _ _
          · exact List.prefix_rfl

theorem trace_left (inputs outputs : Nat) (faithful : s.Faithful react port start greeting) (m n : Nat) (later : n ≤ m) :
    (trace react port s events m).left port inputs outputs ≤ (trace react port s events n).left port inputs outputs := by
  induction m, later using Nat.le_induction with
  | base => exact Nat.le_refl _
  | succ m _ ih =>
      have kept := trace_faithful react port s events faithful m
      exact Nat.le_trans (next_left react port inputs outputs (events m) kept) ih

variable {s events}

theorem drains_progress (fair : Fair events) (inputs outputs : Nat) (faithful : s.Faithful react port start greeting) (n : Nat)
    (drains : (trace react port s events n).Drains port outputs) :
    ∃ m, n ≤ m ∧ (trace react port s events m).left port inputs outputs <
      (trace react port s events n).left port inputs outputs := by
  refine leads_to events .shift fair.shift
    (fun m => n ≤ m ∧ (trace react port s events m).Drains port outputs) _ (fun m now other => ?_) (fun m now is => ?_) n
    ⟨Nat.le_refl n, drains⟩
  · have kept := trace_faithful react port s events faithful m
    exact .inl ⟨Nat.le_succ_of_le now.1, next_drains react port outputs (events m) other kept now.2⟩
  · have less := drain_left react port inputs outputs now.2
    rw [← is] at less
    exact Nat.lt_of_lt_of_le less (trace_left react port s events inputs outputs faithful m n now.1)

theorem ready_progress (fair : Fair events) (inputs outputs : Nat) (faithful : s.Faithful react port start greeting) (n : Nat)
    (useful : (trace react port s events n).Useful port inputs outputs) (ready : (trace react port s events n).polled = true) :
    ∃ m, n ≤ m ∧ (trace react port s events m).left port inputs outputs <
      (trace react port s events n).left port inputs outputs := by
  refine leads_to events .cpu fair.cpu
    (fun m => n ≤ m ∧ (trace react port s events m).Useful port inputs outputs ∧ (trace react port s events m).polled = true) _
    (fun m now other => ?_) (fun m now is => ?_) n ⟨Nat.le_refl n, useful, ready⟩
  · obtain ⟨still, same⟩ := next_useful react port inputs outputs (events m) other now.2.1
    exact .inl ⟨Nat.le_succ_of_le now.1, still, same.trans now.2.2⟩
  · have less := access_left react port (trace_faithful react port s events faithful m) now.2.1 now.2.2
    rw [show (trace react port s events m).cpu react port = trace react port s events (m + 1) by
      rw [trace, is]
      rfl] at less
    exact Nat.lt_of_lt_of_le less (trace_left react port s events inputs outputs faithful m n now.1)

theorem useful_progress (fair : Fair events) (inputs outputs : Nat) (faithful : s.Faithful react port start greeting) (n : Nat)
    (useful : (trace react port s events n).Useful port inputs outputs)
    (more : inputs ≤ (trace react port s events n).arrived.length) :
    ∃ m, n ≤ m ∧ (trace react port s events m).left port inputs outputs <
      (trace react port s events n).left port inputs outputs := by
  by_cases ready : (trace react port s events n).polled = true
  · exact ready_progress react port fair inputs outputs faithful n useful ready
  · have later (m : Nat) (after : n ≤ m)
        (then_ : ((trace react port s events m).Useful port inputs outputs ∧ (trace react port s events m).polled = true) ∨
          (trace react port s events m).Drains port outputs) :
        ∃ m, n ≤ m ∧ (trace react port s events m).left port inputs outputs <
          (trace react port s events n).left port inputs outputs := by
      have below := trace_left react port s events inputs outputs faithful m n after
      rcases then_ with now | now
      · obtain ⟨k, far, less⟩ := ready_progress react port fair inputs outputs faithful m now.1 now.2
        exact ⟨k, Nat.le_trans after far, Nat.lt_of_lt_of_le less below⟩
      · obtain ⟨k, far, less⟩ := drains_progress react port fair inputs outputs faithful m now
        exact ⟨k, Nat.le_trans after far, Nat.lt_of_lt_of_le less below⟩
    obtain ⟨m, after, then_⟩ := leads_to events .cpu fair.cpu
      (fun m => n ≤ m ∧ (trace react port s events m).Useful port inputs outputs ∧ ¬ (trace react port s events m).polled = true)
      (fun m => n ≤ m ∧ (((trace react port s events m).Useful port inputs outputs ∧ (trace react port s events m).polled = true) ∨
        (trace react port s events m).Drains port outputs))
      (fun m now other => by
        obtain ⟨still, same⟩ := next_useful react port inputs outputs (events m) other now.2.1
        exact .inl ⟨Nat.le_succ_of_le now.1, still, fun no => now.2.2 (same.symm.trans no)⟩)
      (fun m now is => by
        have enough := Nat.le_trans more (trace_arrived react port s events m n now.1).length_le
        have found := poll_useful react port inputs outputs (trace_faithful react port s events faithful m) now.2.1 enough now.2.2
        refine ⟨Nat.le_succ_of_le now.1, ?_⟩
        rw [show (trace react port s events m).cpu react port = trace react port s events (m + 1) by
          rw [trace, is]
          rfl] at found
        exact found) n ⟨Nat.le_refl n, useful, ready⟩
    exact later m then_.1 then_.2

-- In a fair run all that has arrived is read and answered, and the answer sent.
theorem eventually_answered (fair : Fair events) (faithful : s.Faithful react port start greeting) (n : Nat) :
    ∃ m, n ≤ m ∧ (trace react port s events n).arrived <+: (trace react port s events m).taken ∧
      greeting ++ (answers react start (trace react port s events n).arrived).2 <+:
        port.wire (trace react port s events m).device := by
  generalize input_eq : (trace react port s events n).arrived = input
  generalize outputs_eq : (greeting ++ (answers react start input).2).length = outputs
  have done : ∃ m, n ≤ m ∧ (trace react port s events m).left port input.length outputs = 0 := by
    have down : ∀ bound k, n ≤ k → (trace react port s events k).left port input.length outputs ≤ bound →
        ∃ m, n ≤ m ∧ (trace react port s events m).left port input.length outputs = 0 := by
      intro bound
      induction bound with
      | zero => exact fun k after least => ⟨k, after, Nat.le_zero.mp least⟩
      | succ bound ih =>
          intro k after least
          have come := trace_arrived react port s events k n after
          rw [input_eq] at come
          have kept := trace_faithful react port s events faithful k
          have progress : (trace react port s events k).left port input.length outputs = 0 ∨
              ∃ m, k ≤ m ∧ (trace react port s events m).left port input.length outputs <
                (trace react port s events k).left port input.length outputs := by
            by_cases short : (trace react port s events k).taken.length < input.length ∨
                (port.wire (trace react port s events k).device).length < outputs
            · rw [← outputs_eq] at short ⊢
              rcases unfinished react port input kept come short with useful | drains
              · exact .inr (useful_progress react port fair _ _ faithful k useful come.length_le)
              · exact .inr (drains_progress react port fair _ _ faithful k drains)
            · refine .inl ?_
              simp only [Link.left, List.length_append]
              omega
          rcases progress with finished | ⟨m, later, less⟩
          · exact ⟨k, after, finished⟩
          · exact ih m (Nat.le_trans after later) (by omega)
    exact down _ n (Nat.le_refl n) (Nat.le_refl _)
  obtain ⟨m, after, finished⟩ := done
  have kept := trace_faithful react port s events faithful m
  have come := trace_arrived react port s events m n after
  rw [input_eq] at come
  simp only [Link.left] at finished
  have read : input <+: (trace react port s events m).taken :=
    List.prefix_of_prefix_length_le come ⟨_, kept.input⟩ (by omega)
  refine ⟨m, after, read, ?_⟩
  refine List.prefix_of_prefix_length_le ((List.prefix_append_right_inj greeting).mpr (answers_mono react start _ _ read))
    ⟨port.outbox (trace react port s events m).device ++ (trace react port s events m).output, ?_⟩ (by omega)
  rw [← List.append_assoc]
  exact kept.output

end

end

end Polled
