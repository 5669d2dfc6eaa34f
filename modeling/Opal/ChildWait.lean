import Opal.Retry

set_option autoImplicit false

namespace Opal

-- Nobody sleeps in a wait for a task that has ended.
def WaitersWoken : Kernel → (Nat → Option Pending) → Prop :=
  Asleep fun k _ p => ∀ child, p.call = .wait child → (k.table child).state ≠ .exited

section
variable (spaces : AddressSpaces) (k : Kernel) (mem : UserMem) (frame : TrapFrame)

-- A wait for a live task wants to block, and one for an ended task is answered
-- with its code.
theorem wait_alive (child : Nat) (nr : frame.x 8 = sysWait) (asks : (frame.x 0).toNat = child)
    (inside : 0 < child ∧ child < maxTasks) (alive : (k.table child).state ≠ .exited) :
    blockingCall spaces k mem frame = some (.wait child) := by
  have refused : k.tryWait child = .error Kernel.eagain := (Kernel.try_wait_alive k child).mpr ⟨inside, alive⟩
  rw [wait_arm spaces k mem frame nr, asks, refused]
  exact if_pos rfl

theorem wait_stays_awake (child : Nat) (nr : frame.x 8 = sysWait) (asks : (frame.x 0).toNat = child)
    (inside : 0 < child ∧ child < maxTasks) (alive : (k.table child).state ≠ .exited) (user : k.currentTid ≠ 0) :
    fallsAsleep spaces k mem frame = none ↔ ∀ next, k.ready.head? = some next → k.task next = none := by
  have finds := block_finds_iff k frame (.wait child) user
  rw [fallsAsleep, wait_alive spaces k mem frame child nr asks inside alive]
  dsimp only
  constructor
  · intro awake next head
    split_ifs at awake with found
    by_contra some_
    exact found (finds.mpr ⟨next, head, Option.isSome_iff_ne_none.mpr some_⟩)
  · intro nobody
    refine if_neg fun found => ?_
    obtain ⟨next, head, some_⟩ := finds.mp found
    rw [nobody next head] at some_
    cases some_

theorem wait_ended (child : Nat) (nr : frame.x 8 = sysWait) (asks : (frame.x 0).toNat = child)
    (inside : 0 < child ∧ child < maxTasks) (gone : (k.table child).state = .exited) :
    blockingCall spaces k mem frame = none ∧
      handleSvcFromEl0 spaces k mem frame = .resumed k mem (frame.setX 0 (k.table child).exitCode.toUInt64) := by
  have ended : k.tryWait child = .ok (k.table child).exitCode := (Kernel.try_wait_ok k child _).mpr ⟨inside, gone, rfl⟩
  refine ⟨?_, ?_⟩
  · rw [wait_arm spaces k mem frame nr, asks, ended]
  · rw [handled_waits spaces k mem frame nr, svcWait]
    simp only [asks, ended, reply]

end

-- The code with which a trap of the current task's own ends it, if it does.
def endCode (t : Trap) : Option Int64 :=
  if isSvc t = true then if t.x 8 = sysExit ∨ t.x 8 = sysExitCode then some (t.x 0).toInt64 else none else some (-1)

namespace Machine

-- The history of how the task of each slot ended: with the code it passed to
-- exit, or with -1 if a fault killed it.
def ends (m : Machine) (event : Event) (_ : Machine) (ended : Nat → Option Int64) : Nat → Option Int64 :=
  match event with
  | .trap t =>
      if m.serves t = true ∧ t.kind = .synchronous ∧ m.kernel.currentTid ≠ 0 then
        match endCode t with
        | some code => Function.update ended m.kernel.currentTid (some code)
        | none => ended
      else ended
  | .spawn _ =>
      match m.kernel.allocTask.1 with
      | some fresh => if m.enabled event = true then Function.update ended fresh none else ended
      | none => ended
  | _ => ended

-- What is outstanding, and how tasks have ended.
def waitHistory (spaces : AddressSpaces) (m : Machine) (event : Event) (after : Machine)
    (history : (Nat → Option Pending) × (Nat → Option Int64)) : (Nat → Option Pending) × (Nat → Option Int64) :=
  (pends spaces m event after history.1, ends m event after history.2)

-- The current task stands in an unanswered wait and makes it again. The call
-- blocks once more, or returns the code with which the child ended.
def WaitAnswered (spaces : AddressSpaces) (address : Static → UInt64) (m : Machine) (pend : Nat → Option Pending)
    (ended : Nat → Option Int64) : Event → Prop
  | .trap t =>
      m.serves t = true → t.kind = .synchronous → ∀ p child, pend m.kernel.currentTid = some p → p.call = .wait child →
        (isSvc t = true ∧ t.x = p.frame.x ∧ t.pc = p.frame.elr) ∧
          (fallsAsleep spaces m.kernel (m.memAt t) (t.frame m.cpu.spEl1) = none →
            ∃ code, ended child = some code ∧ (m.next spaces address (.trap t)).mode = .el0 ∧
              (m.next spaces address (.trap t)).kernel.currentTid = m.kernel.currentTid ∧
              (m.next spaces address (.trap t)).cpu.x 0 = code.toUInt64)
  | _ => True

-- A fault ends a task that another is asleep waiting for, and nobody tells it.
def StrandsWaiter (m : Machine) (pend : Nat → Option Pending) : Event → Prop
  | .trap t =>
      m.serves t = true ∧ t.kind = .synchronous ∧ isSvc t = false ∧
        ∃ tid p, pend tid = some p ∧ p.call = .wait m.kernel.currentTid ∧ (m.kernel.table tid).state = .blocked ∧
          m.kernel.ready.head? ≠ some tid
  | _ => False

-- A waiter that something else has woken makes its call again while the child
-- lives and nobody else can run.
def RefusesWaiter (m : Machine) (pend : Nat → Option Pending) : Event → Prop
  | .trap t =>
      m.serves t = true ∧ t.kind = .synchronous ∧
        ∃ p child, pend m.kernel.currentTid = some p ∧ p.call = .wait child ∧ (m.kernel.table child).state ≠ .exited ∧
          ∀ next, m.kernel.ready.head? = some next → m.kernel.task next = none
  | _ => False

section
variable (spaces : AddressSpaces) (address : Static → UInt64) (m : Machine) (pend : Nat → Option Pending)
  (ended : Nat → Option Int64)

theorem waiters_others (grounded : m.Grounded) (sleepers : Sleepers m.kernel pend) (t : Trap)
    (serves : m.serves t = true) (sync : t.kind = .synchronous) (spared : ¬ m.StrandsWaiter pend (.trap t)) (tid : Nat)
    (p : Pending) (child : Nat) (other : tid ≠ m.kernel.currentTid) (waits : pend tid = some p)
    (sends : p.call = .wait child) (slept : (m.kernel.table tid).state = .blocked)
    (sleeps : ((m.handled spaces .lowerAArch64 t).kernel.table tid).state = .blocked)
    (alive : (m.kernel.table child).state ≠ .exited) :
    ((m.handled spaces .lowerAArch64 t).kernel.table child).state ≠ .exited := by
  have left := handled_leaves spaces m (.trap t) _ t rfl
  have inside := grounded.confined tid (sleepers.live tid p waits)
  by_cases own : child = m.kernel.currentTid
  · have user := grounded.confined _ (own ▸ alive)
    cases call : isSvc t with
    | true =>
        have handled := svc_handled spaces m.kernel (m.memAt t) (t.frame m.cpu.spEl1)
        have marked := sleepers.marked tid p waits slept
        rw [sends] at marked
        rw [m.handled_svc spaces t call] at sleeps ⊢
        by_cases nr : t.x 8 = sysExit ∨ t.x 8 = sysExitCode
        · rw [handled_exits spaces m.kernel _ (t.frame m.cpu.spEl1) nr] at sleeps
          obtain ⟨_, waiting, _⟩ :=
            (exit_still_blocked spaces m.kernel _ _ tid inside other (Nat.ne_of_gt user.1)).mp sleeps
          exact absurd (Eq.trans marked own) waiting
        · exact handled_spares spaces m.kernel _ _ handled nr child alive
    | false =>
        rw [m.handled_fault spaces t sync call] at sleeps
        obtain ⟨_, head⟩ := (kill_still_blocked spaces m.kernel _ _ tid inside.2 other user).mp sleeps
        exact absurd ⟨serves, sync, call, tid, p, waits, own ▸ sends, slept, head⟩ spared
  · exact left.alive child own alive

theorem waiters_step (grounded : m.Grounded) (sleepers : Sleepers m.kernel pend) (woken : WaitersWoken m.kernel pend)
    (event : Event) :
    WaitersWoken (m.next spaces address event).kernel (pends spaces m event (m.next spaces address event) pend) ↔
      ¬ m.StrandsWaiter pend event := by
  refine ⟨fun good strands => ?_, fun spared => ?_⟩
  · cases event with
    | trap t =>
        obtain ⟨serves, sync, call, tid, p, waits, sends, slept, head⟩ := strands
        have alive := woken tid p waits slept _ sends
        have user := grounded.confined _ alive
        have inside := grounded.confined tid (sleepers.live tid p waits)
        have other : tid ≠ m.kernel.currentTid := by
          rintro rfl
          exact sleepers.awake p waits slept
        obtain ⟨stack, kernel⟩ := served_kernel spaces address m t serves
        rw [kernel, pends_sync spaces m pend t _ serves sync, m.handled_fault spaces t sync call] at good
        have sleeps := (kill_still_blocked spaces m.kernel (m.memAt t) (t.frame m.cpu.spEl1) tid inside.2 other user).mpr
          ⟨slept, head⟩
        exact good tid p (by rw [Function.update_of_ne other]; exact waits) sleeps _ sends
          (kill_ends spaces m.kernel _ _ user alive).1
    | _ => exact strands
  · refine asleep_step spaces address m pend _ event woken (fun _ _ _ _ alive => alive) ?_ ?_ ?_ ?_
    · exact fun quiet _ _ alive child sends => fire_spares spaces address m event quiet child (alive child sends)
    · exact fun mem frame _ _ alive child sends => tick_spares m.kernel mem frame child (alive child sends)
    · intro t p _ call sleeps child sends
      obtain ⟨blocks, _, _, _⟩ := falls_asleep m.kernel _ _ spaces p sleeps
      have alive := (blocking_asks spaces m.kernel _ _ _ blocks).2
      rw [sends] at alive
      rw [m.handled_svc spaces t call, handled_blocks _ _ _ _ _ blocks]
      exact block_spares m.kernel _ _ p.call child alive
    · rintro t rfl serves sync tid p other waits slept sleeps alive child sends
      exact waiters_others spaces m pend grounded sleepers t serves sync spared tid p child other waits sends slept sleeps
        (alive child sends)

theorem ends_sync (t : Trap) (after : Machine) (serves : m.serves t = true) (sync : t.kind = .synchronous)
    (user : m.kernel.currentTid ≠ 0) :
    ends m (.trap t) after ended =
      match endCode t with
      | some code => Function.update ended m.kernel.currentTid (some code)
      | none => ended := by
  rw [ends, if_pos ⟨serves, sync, user⟩]

theorem ends_async (event : Event) (after : Machine) (old : ∀ args, event ≠ .spawn args)
    (async : ∀ t, event = .trap t → ¬ (m.serves t = true ∧ t.kind = .synchronous ∧ m.kernel.currentTid ≠ 0)) :
    ends m event after ended = ended := by
  cases event with
  | trap t => rw [ends, if_neg (async t rfl)]
  | spawn args => exact absurd rfl (old args)
  | _ => rfl

end

end Machine

-- The slot of a task that ended keeps the code it ended with, and a child that
-- is waited for lives or is known to have ended.
structure Reaped (k : Kernel) (pend : Nat → Option Pending) (ended : Nat → Option Int64) : Prop where
  codes : ∀ tid code, ended tid = some code → (k.table tid).state = .exited ∧ (k.table tid).exitCode = code
  children : ∀ tid p child, pend tid = some p → p.call = .wait child →
    (k.table child).state ≠ .exited ∨ ended child ≠ none

namespace Reaped

variable {k k' : Kernel} {pend : Nat → Option Pending} {ended : Nat → Option Int64}

theorem spared (reaped : Reaped k pend ended) (left : Kernel.Leaves k.currentTid k k') (spares : Kernel.Spares k k') :
    Reaped k' pend ended := by
  refine ⟨fun tid code known => ?_, fun tid p child waits sends => ?_⟩
  · obtain ⟨gone, same⟩ := reaped.codes tid code known
    obtain ⟨still, kept⟩ := left.ended tid gone
    exact ⟨still, kept.trans same⟩
  · exact (reaped.children tid p child waits sends).imp_left (spares child)

theorem died (reaped : Reaped k pend ended) (left : Kernel.Leaves k.currentTid k k') (code : Int64)
    (gone : (k'.table k.currentTid).state = .exited ∧ (k'.table k.currentTid).exitCode = code) :
    Reaped k' (Function.update pend k.currentTid none) (Function.update ended k.currentTid (some code)) := by
  refine ⟨fun tid code' known => ?_, fun tid p child waits sends => ?_⟩
  · by_cases own : tid = k.currentTid
    · rw [own, Function.update_self] at known
      rw [own, ← Option.some.inj known]
      exact gone
    · rw [Function.update_of_ne own] at known
      obtain ⟨was, same⟩ := reaped.codes tid code' known
      obtain ⟨still, kept⟩ := left.ended tid was
      exact ⟨still, kept.trans same⟩
  · have other : tid ≠ k.currentTid := by
      rintro rfl
      rw [Function.update_self] at waits
      cases waits
    rw [Function.update_of_ne other] at waits
    by_cases own : child = k.currentTid
    · rw [own, Function.update_self]
      exact .inr (fun no => (by cases no))
    · rw [Function.update_of_ne own]
      exact (reaped.children tid p child waits sends).imp_left (left.alive child own)

theorem answer (reaped : Reaped k pend ended) (own : Option Pending)
    (fresh : ∀ p child, own = some p → p.call = .wait child → (k.table child).state ≠ .exited) :
    Reaped k (Function.update pend k.currentTid own) ended := by
  refine ⟨reaped.codes, fun tid p child waits sends => ?_⟩
  by_cases here : tid = k.currentTid
  · rw [here, Function.update_self] at waits
    exact .inl (fresh p child waits sends)
  · rw [Function.update_of_ne here] at waits
    exact reaped.children tid p child waits sends

end Reaped

namespace Machine

section
variable (spaces : AddressSpaces) (address : Static → UInt64) (m : Machine) (pend : Nat → Option Pending)
  (ended : Nat → Option Int64)

theorem boot_reaped (spaces : AddressSpaces) (cpu : Cpu) :
    Reaped (boot spaces cpu).kernel (fun _ => none) fun _ => none :=
  ⟨fun _ _ no => (by cases no), fun _ _ _ no => (by cases no)⟩

theorem reaped_spawn (reaped : Reaped m.kernel pend ended) (args : Kernel.SpawnArgs)
    (enabled : m.enabled (.spawn args) = true) (after : Machine) :
    Reaped (m.fire spaces address (.spawn args)).kernel pend (ends m (.spawn args) after ended) := by
  simp only [fire, ends]
  rcases spawn_cases m.kernel args with ⟨full, same⟩ | ⟨fresh, free, _, gone, same⟩
  · rw [full, same]
    exact reaped
  · rw [free, same]
    dsimp only
    rw [if_pos enabled]
    refine ⟨fun tid code known => ?_, fun tid p child waits sends => ?_⟩
    · have apart : tid ≠ fresh := by
        rintro rfl
        rw [Function.update_self] at known
        cases known
      rw [Function.update_of_ne apart] at known
      rw [Kernel.enqueue_table, Kernel.set_task_table, Function.update_of_ne apart]
      exact reaped.codes tid code known
    · rw [Kernel.enqueue_table, Kernel.set_task_table]
      by_cases here : child = fresh
      · rw [here, Function.update_self]
        exact .inl (fun no => (by cases no))
      · rw [Function.update_of_ne here, Function.update_of_ne here]
        exact reaped.children tid p child waits sends

theorem reaped_sync (grounded : m.Grounded) (reaped : Reaped m.kernel pend ended) (t : Trap)
    (serves : m.serves t = true) (sync : t.kind = .synchronous) (after : Machine) :
    Reaped (m.handled spaces .lowerAArch64 t).kernel (pends spaces m (.trap t) after pend)
      (ends m (.trap t) after ended) := by
  have left := handled_leaves spaces m (.trap t) _ t rfl
  obtain ⟨_, down⟩ := (m.serves_iff t).mp serves
  rw [pends_sync spaces m pend t after serves sync]
  have asleep : ∀ p child, (if isSvc t = true then fallsAsleep spaces m.kernel (m.memAt t) (t.frame m.cpu.spEl1) else none) =
      some p → p.call = .wait child → (m.kernel.table child).state ≠ .exited := by
    intro p child sleeps sends
    split_ifs at sleeps
    have awaits := (blocking_asks spaces m.kernel _ _ _ (falls_asleep m.kernel _ _ spaces p sleeps).1).2
    rw [sends] at awaits
    exact awaits
  by_cases user : m.kernel.currentTid = 0
  · rw [ends_async m ended (.trap t) after (fun _ no => (by cases no)) fun u same both => both.2.2 user]
    refine (reaped.answer _ asleep).spared left fun tid live => left.alive tid ?_ live
    exact fun here => absurd (here.trans user) (Nat.ne_of_gt (grounded.confined tid live).1)
  · have live := grounded.current down user
    have inside := grounded.confined _ live
    rw [ends_sync m ended t after serves sync user]
    cases call : isSvc t with
    | true =>
        rw [m.handled_svc spaces t call] at left ⊢
        by_cases nr : t.x 8 = sysExit ∨ t.x 8 = sysExitCode
        · have code : endCode t = some (t.x 0).toInt64 := by rw [endCode, if_pos call, if_pos nr]
          rw [code, if_pos rfl, exit_stays_awake m.kernel _ (t.frame m.cpu.spEl1) spaces nr]
          rw [handled_exits spaces m.kernel _ (t.frame m.cpu.spEl1) nr] at left ⊢
          exact reaped.died left _ (exit_ends spaces m.kernel _ _ inside live)
        · have code : endCode t = none := by rw [endCode, if_pos call, if_neg nr]
          rw [call] at asleep
          rw [code]
          exact (reaped.answer _ asleep).spared left
            (handled_spares spaces m.kernel _ _ (svc_handled spaces m.kernel _ _) nr)
    | false =>
        have code : endCode t = some (-1) := by rw [endCode, call]; rfl
        rw [m.handled_fault spaces t sync call] at left ⊢
        rw [code, if_neg (fun no => (by cases no))]
        exact reaped.died left _ (kill_ends spaces m.kernel _ _ inside live)

theorem reaped_step (grounded : m.Grounded) (reaped : Reaped m.kernel pend ended) (event : Event) :
    Reaped (m.next spaces address event).kernel (pends spaces m event (m.next spaces address event) pend)
      (ends m event (m.next spaces address event) ended) := by
  have step := kernel_step spaces address m event
  generalize m.next spaces address event = after at step
  cases step with
  | still unserved kernel =>
      have idle : ∀ t, event = .trap t → ¬ m.serves t = true :=
        fun t same => m.not_serves t (same ▸ unserved.imp_right And.left)
      rw [pends_other spaces m pend event after fun t same both => idle t same both.1, kernel]
      by_cases old : ∀ args, event ≠ .spawn args
      · rw [ends_async m ended event after old fun t same both => idle t same both.1]
        exact reaped
      · obtain ⟨args, rfl⟩ : ∃ args, event = .spawn args := by simpa only [ne_eq, not_forall, not_not] using old
        have disabled : ¬ m.enabled (.spawn args) = true := by
          rcases unserved with disabled | ⟨_, taken⟩
          · rw [disabled]
            exact fun no => (by cases no)
          · exact absurd rfl taken
        simp only [ends, if_neg disabled]
        split
        · exact reaped
        · exact reaped
  | calm enabled quiet fired =>
      rw [pends_other spaces m pend event _ (fun t same => by rw [same] at quiet; cases quiet)]
      by_cases old : ∀ args, event ≠ .spawn args
      · rw [ends_async m ended event after old (fun t same => by rw [same] at quiet; cases quiet), fired]
        exact reaped.spared (fire_leaves spaces address m event quiet old) (fire_spares spaces address m event quiet)
      · obtain ⟨args, rfl⟩ : ∃ args, event = .spawn args := by simpa only [ne_eq, not_forall, not_not] using old
        have born := reaped_spawn spaces address m pend ended reaped args enabled after
        rwa [← fired] at born
  | handled enabled source t taken down stack kernel =>
      have shown : Reaped (m.handled spaces source t).kernel (pends spaces m event after pend) (ends m event after ended) := by
        rcases handled_pends spaces m pend event source t taken enabled down after with
          ⟨rfl, rfl, serves, sync⟩ | ⟨async, still⟩
        · exact reaped_sync spaces m pend ended grounded reaped t serves sync after
        · have left := handled_leaves spaces m event source t taken
          have idle : ends m event after ended = ended := by
            refine ends_async m ended event after (fun args same => ?_) fun u same both => ?_
            · rw [same] at taken
              cases taken
            · rw [same] at taken
              cases taken
              exact absurd both.2.1 (async.resolve_left (by decide))
          rw [still, idle]
          rcases handled_async spaces m event source t taken async with same | same
          · rw [same]
            exact reaped
          · rw [same] at left ⊢
            exact reaped.spared left (tick_spares m.kernel _ _)
      rw [kernel]
      exact ⟨shown.codes, shown.children⟩

theorem retried_wait (grounded : m.Grounded) (sleepers : Sleepers m.kernel pend) (retries : m.Retries pend) (t : Trap)
    (possible : m.PossibleTrap t) (serves : m.serves t = true) (sync : t.kind = .synchronous) (p : Pending) (child : Nat)
    (waits : pend m.kernel.currentTid = some p) (sends : p.call = .wait child) :
    (isSvc t = true ∧ t.x = p.frame.x ∧ t.pc = p.frame.elr) ∧ t.x 8 = sysWait ∧ (t.x 0).toNat = child ∧
      0 < child ∧ child < maxTasks := by
  have rewinds : p.call.rewinds = true := by rw [sends]; rfl
  have asks := retries.asks _ p waits
  rw [sends] at asks
  obtain ⟨_, x, ⟨async, _⟩ | ⟨call, pc⟩⟩ :=
    retry_trap m pend grounded sleepers retries t ((m.serves_iff t).mp serves).2 possible p waits rewinds
  · exact absurd sync async
  · rw [x]
    exact ⟨⟨call, rfl, pc⟩, asks⟩

theorem answered_step (grounded : m.Grounded) (sleepers : Sleepers m.kernel pend) (retries : m.Retries pend)
    (reaped : Reaped m.kernel pend ended) (event : Event) (possible : m.Possible event) :
    WaitAnswered spaces address m pend ended event ↔ ¬ m.RefusesWaiter pend event := by
  cases event with
  | trap t =>
      constructor
      · rintro answered ⟨serves, sync, p, child, waits, sends, alive, nobody⟩
        obtain ⟨_, nr, asks, inside⟩ :=
          retried_wait m pend grounded sleepers retries t possible serves sync p child waits sends
        have user := (grounded.confined _ (sleepers.live _ p waits)).1
        have awake := (wait_stays_awake spaces m.kernel (m.memAt t) (t.frame m.cpu.spEl1) child nr asks inside alive
          (Nat.ne_of_gt user)).mpr nobody
        obtain ⟨code, known, _⟩ := (answered serves sync p child waits sends).2 awake
        exact alive (reaped.codes child code known).1
      · intro spared serves sync p child waits sends
        obtain ⟨retry, nr, asks, inside⟩ :=
          retried_wait m pend grounded sleepers retries t possible serves sync p child waits sends
        refine ⟨retry, fun awake => ?_⟩
        by_cases gone : (m.kernel.table child).state = .exited
        · obtain ⟨code, known⟩ : ∃ code, ended child = some code :=
            Option.ne_none_iff_exists'.mp ((reaped.children _ p child waits sends).resolve_left (fun alive => alive gone))
          have kept := (reaped.codes child code known).2
          have outcome := (wait_ended spaces m.kernel (m.memAt t) (t.frame m.cpu.spEl1) child nr asks inside gone).2
          rw [← m.handled_svc spaces t retry.1] at outcome
          have resumed := served_resumed spaces address m t serves _ _ _ outcome
          refine ⟨code, known, ?_, ?_, ?_⟩
          · rw [resumed.mode, resumeMode]
            exact if_pos (m.trap_pstate t ((m.serves_iff t).mp serves).1)
          · rw [resumed.kernel]
          · rw [resumed.x, TrapFrame.set_x_same, kept]
        · have user := (grounded.confined _ (sleepers.live _ p waits)).1
          have nobody := (wait_stays_awake spaces m.kernel (m.memAt t) (t.frame m.cpu.spEl1) child nr asks inside gone
            (Nat.ne_of_gt user)).mp awake
          exact absurd ⟨serves, sync, p, child, waits, sends, gone, nobody⟩ spared
  | _ => exact ⟨fun _ no => no, fun _ => trivial⟩

end

-- In a run every wait ends as it should exactly if no fault ends a task that
-- somebody sleeps on, and no waiter woken before its time has to be refused.
theorem no_lost_wait (spaces : AddressSpaces) (address : Static → UInt64) (cpu : Cpu) (events : List Event)
    (possible : Run.Along (next spaces address) Possible (boot spaces cpu) events) :
    Run.Always (Run.recorded (next spaces address) (waitHistory spaces))
          (fun state => WaitersWoken state.1.kernel state.2.1) (boot spaces cpu, fun _ => none, fun _ => none) events ∧
        Run.Along (Run.recorded (next spaces address) (waitHistory spaces))
          (fun state event => WaitAnswered spaces address state.1 state.2.1 state.2.2 event)
          (boot spaces cpu, fun _ => none, fun _ => none) events ↔
      Run.Along (Run.recorded (next spaces address) (waitHistory spaces))
        (fun state event => ¬ state.1.StrandsWaiter state.2.1 event ∧ ¬ state.1.RefusesWaiter state.2.1 event)
        (boot spaces cpu, fun _ => none, fun _ => none) events := by
  refine Run.always_and_along_iff _ (fun state event => state.1.Possible event) _ _
    (fun state => (state.1.Grounded ∧ Sleepers state.1.kernel state.2.1) ∧ state.1.Retries state.2.1 ∧
      Reaped state.1.kernel state.2.1 state.2.2) _ ?_ ?_ _ events ?_ (fun _ _ no => (by cases no)) ?_
  · rintro ⟨m, pend, ended⟩ event ⟨⟨grounded, sleepers⟩, retries, reaped⟩ allowed _ _
    exact ⟨⟨grounded_step spaces address m grounded event, sleepers_step spaces address m pend grounded sleepers event⟩,
      retries_step spaces address m pend grounded sleepers retries event allowed,
      reaped_step spaces address m pend ended grounded reaped event⟩
  · rintro ⟨m, pend, ended⟩ event ⟨⟨grounded, sleepers⟩, retries, reaped⟩ allowed woken
    exact and_congr (waiters_step spaces address m pend grounded sleepers woken event)
      (answered_step spaces address m pend ended grounded sleepers retries reaped event allowed)
  · exact ⟨⟨boot_grounded spaces cpu, boot_sleepers spaces cpu⟩, boot_retries spaces cpu, boot_reaped spaces cpu⟩
  · exact Run.along_recorded _ _ _ _ events possible

-- Task 1 waits for task 2.
def waitsForSecond : List Event :=
  [ .buildAt 1, .buildAt 2, .spawnAt 1 one_root, .spawnAt 2 two_root, .drop false, .enter fun _ => 0,
    .trap (Trap.svc (registers sysWait [2]) svcVa) ]

-- It is woken by the exit of task 2 with code 7, and makes its call again.
def secondExits : List Event := waitsForSecond ++ [.trap (Trap.svc (registers sysExitCode [7]) svcVa)]

def firstAgain : Event := .trap (Run.exec (next flat fun _ => 0) (boot flat coldCpu) secondExits).again

theorem no_lost_wait_answered :
    (Run.exec (next flat fun _ => 0) (boot flat coldCpu) (secondExits ++ [firstAgain])).cpu.x 0 = 7 ∧
      (Run.Always (Run.recorded (next flat fun _ => 0) (waitHistory flat))
            (fun state => WaitersWoken state.1.kernel state.2.1) (boot flat coldCpu, fun _ => none, fun _ => none)
            (secondExits ++ [firstAgain]) ∧
          Run.Along (Run.recorded (next flat fun _ => 0) (waitHistory flat))
            (fun state event => WaitAnswered flat (fun _ => 0) state.1 state.2.1 state.2.2 event)
            (boot flat coldCpu, fun _ => none, fun _ => none) (secondExits ++ [firstAgain]) ↔
        Run.Along (Run.recorded (next flat fun _ => 0) (waitHistory flat))
          (fun state event => ¬ state.1.StrandsWaiter state.2.1 event ∧ ¬ state.1.RefusesWaiter state.2.1 event)
          (boot flat coldCpu, fun _ => none, fun _ => none) (secondExits ++ [firstAgain])) := by
  refine ⟨by rw [firstAgain, next_direct]; decide +kernel, no_lost_wait flat (fun _ => 0) coldCpu _ ?_⟩
  refine (Run.along_append _ _ _ secondExits [firstAgain]).mpr ⟨?_, again_possible _ ?_, trivial⟩
  · refine Run.along_imp _ OffSvc _ off_svc_possible _ _ ?_
    rw [next_direct]
    decide +kernel
  · rw [next_direct]
    decide +kernel

-- Or task 2 faults.
theorem fault_strands_waiter :
    Run.Along (next flat fun _ => 0) Possible (boot flat coldCpu) (waitsForSecond ++ [.trap (Trap.fault userCodeVa)]) ∧
      ¬ Run.Always (Run.recorded (next flat fun _ => 0) (waitHistory flat))
        (fun state => WaitersWoken state.1.kernel state.2.1) (boot flat coldCpu, fun _ => none, fun _ => none)
        (waitsForSecond ++ [.trap (Trap.fault userCodeVa)]) := by
  refine ⟨Run.along_imp _ OffSvc _ off_svc_possible _ _ (by rw [next_direct]; decide +kernel), fun always => ?_⟩
  have last := Run.always_last _ _ _ _ always
  have machine := Run.exec_recorded (next flat fun _ => 0) (waitHistory flat) (boot flat coldCpu, fun _ => none, fun _ => none)
    (waitsForSecond ++ [.trap (Trap.fault userCodeVa)])
  have outstanding : ((Run.exec (Run.recorded (next flat fun _ => 0) (waitHistory flat))
      (boot flat coldCpu, fun _ => none, fun _ => none)
      (waitsForSecond ++ [.trap (Trap.fault userCodeVa)])).2.1 1).map (·.call) = some (.wait 2) := by
    rw [next_direct]
    decide +kernel
  obtain ⟨p, waits, sends⟩ := Option.map_eq_some_iff.mp outstanding
  have alive := last 1 p waits
  rw [machine, next_direct] at alive
  exact absurd (by decide +kernel) (alive (by decide +kernel) 2 sends)

end Machine

end Opal
