import Opal.Console
import Opal.Lasting

set_option autoImplicit false

namespace Opal

-- Any two live tasks have an address space and a kernel stack each.
def Kernel.Apart (k : Kernel) : Prop :=
  ∀ a b, a ≠ b → (k.table a).state ≠ .exited → (k.table b).state ≠ .exited →
    (k.table a).ttbr0Pa ≠ (k.table b).ttbr0Pa ∧ (k.table a).kstackTop ≠ (k.table b).kstackTop

-- A build that writes the tables, the code page and the stack page of a live
-- task.
def Kernel.Rewrites (k : Kernel) : Event → Prop
  | .build root _ _ => ∃ tid, (k.table tid).state ≠ .exited ∧ (k.table tid).ttbr0Pa = root
  | _ => False

def Event.Takes (root stack : UInt64) : Event → Prop
  | .build other _ _ => other = root
  | .spawn args => args.ttbr0Pa = root ∨ args.kstackTop = stack
  | _ => False

namespace Console

-- The build the running command makes next spares the live tasks, and so do all
-- the builds of a command that is just typed.
def SparesLive (statics : UserStatics) (c : Console) : Input → Prop
  | .proceed => ∀ event, c.todo.head? = some event → ¬ c.machine.kernel.Rewrites event
  | .command cmd => c.accepts = true → ∀ event ∈ cmd.script statics, ¬ c.machine.kernel.Rewrites event
  | _ => True

def StartsClean (c : Console) : Input → Prop
  | .command (.scheduled _ _ _) => c.accepts = true → ∀ tid, (c.machine.kernel.table tid).state = .exited
  | _ => True

-- What the command still has to do takes nothing of a live task's, and nothing
-- twice, and every task has what it runs on from one of the two slots.
structure Reserved (statics : UserStatics) (c : Console) : Prop where
  seated : ∀ tid, (c.machine.kernel.table tid).state ≠ .exited →
    ∃ slot, (c.machine.kernel.table tid).ttbr0Pa = statics.taskMem slot ∧
      (c.machine.kernel.table tid).kstackTop = statics.kstackTop slot
  clear : ∀ event ∈ c.todo, ∀ tid, (c.machine.kernel.table tid).state ≠ .exited →
    ¬ event.Takes (c.machine.kernel.table tid).ttbr0Pa (c.machine.kernel.table tid).kstackTop
  once : c.todo.Pairwise fun first later =>
    ∀ args, first = .spawn args → ¬ later.Takes args.ttbr0Pa args.kstackTop
  own : ∀ args, .spawn args ∈ c.todo → ∃ slot, args.ttbr0Pa = statics.taskMem slot ∧ args.kstackTop = statics.kstackTop slot

section
variable (spaces : AddressSpaces) (address : Static → UInt64) (statics : UserStatics) (c : Console)

theorem apart_slots (a b : Fin 2) (other : a ≠ b) :
    statics.taskMem a ≠ statics.taskMem b ∧ statics.kstackTop a ≠ statics.kstackTop b := by
  have both : (a = 0 ∧ b = 1) ∨ (a = 1 ∧ b = 0) := by omega
  rcases both with ⟨rfl, rfl⟩ | ⟨rfl, rfl⟩
  · exact ⟨statics.mem_apart, statics.stacks_apart⟩
  · exact ⟨statics.mem_apart.symm, statics.stacks_apart.symm⟩

theorem rewrites_takes (k : Kernel) (event : Event) (rewrites : k.Rewrites event) :
    ∃ tid, (k.table tid).state ≠ .exited ∧ event.Takes (k.table tid).ttbr0Pa (k.table tid).kstackTop := by
  cases event with
  | build root image code =>
      obtain ⟨tid, live, same⟩ := rewrites
      exact ⟨tid, live, same.symm⟩
  | _ => exact absurd rewrites id

theorem leaves_reserved (statics : UserStatics) (k : Kernel) (todo : List Event) (cur : Nat)
    (left : Kernel.Leaves cur c.machine.kernel k) (fewer : todo.Sublist c.todo) (reserved : Reserved statics c)
    (machine : Machine) (kernel : machine.kernel = k) (spawned : Bool) : Reserved statics ⟨machine, todo, spawned⟩ := by
  have alive : ∀ tid, (k.table tid).state ≠ .exited → (c.machine.kernel.table tid).state ≠ .exited :=
    fun tid live gone => live (left.ended tid gone).1
  subst kernel
  refine ⟨fun tid live => ?_, fun event member tid live => ?_, reserved.once.sublist fewer, fun args member => ?_⟩
  · rw [left.space, left.stack]
    exact reserved.seated tid (alive tid live)
  · rw [left.space, left.stack]
    exact reserved.clear event (fewer.subset member) tid (alive tid live)
  · exact reserved.own args (fewer.subset member)

theorem leaves_apart (k k' : Kernel) (cur : Nat) (left : Kernel.Leaves cur k k') (apart : k.Apart) : k'.Apart := by
  intro a b other liveA liveB
  rw [left.space, left.space, left.stack, left.stack]
  exact apart a b other (fun gone => liveA (left.ended a gone).1) fun gone => liveB (left.ended b gone).1

theorem spawn_reserved (args : Kernel.SpawnArgs) (rest : List Event) (waiting : c.todo = .spawn args :: rest)
    (reserved : Reserved statics c) (apart : c.machine.kernel.Apart) (spawned : Bool) :
    Reserved statics ⟨c.machine.next spaces address (.spawn args), rest, spawned⟩ ∧
      (c.machine.next spaces address (.spawn args)).kernel.Apart := by
  have here : Event.spawn args ∈ c.todo := by
    rw [waiting]
    exact List.mem_cons_self
  have later : ∀ event ∈ rest, event ∈ c.todo := fun event member => by
    rw [waiting]
    exact List.mem_cons_of_mem _ member
  have once := reserved.once
  rw [waiting, List.pairwise_cons] at once
  have fits : ∀ machine : Machine,
      (∀ tid, (machine.kernel.table tid).state ≠ .exited →
        ((c.machine.kernel.table tid).state ≠ .exited ∧ machine.kernel.table tid = c.machine.kernel.table tid) ∨
          machine.kernel.table tid = args.initial ∧ ∀ other, other ≠ tid →
            machine.kernel.table other = c.machine.kernel.table other) →
        Reserved statics ⟨machine, rest, spawned⟩ ∧ machine.kernel.Apart := by
    intro machine slots
    have free : ∀ tid, (c.machine.kernel.table tid).state ≠ .exited →
        args.ttbr0Pa ≠ (c.machine.kernel.table tid).ttbr0Pa ∧ args.kstackTop ≠ (c.machine.kernel.table tid).kstackTop :=
      fun tid live => not_or.mp (reserved.clear _ here tid live)
    refine ⟨⟨fun tid live => ?_, fun event member tid live => ?_, once.2, fun more member => reserved.own more (later _ member)⟩,
      fun a b other liveA liveB => ?_⟩
    · rcases slots tid live with ⟨was, same⟩ | ⟨same, _⟩
      · rw [same]
        exact reserved.seated tid was
      · rw [same]
        exact reserved.own args here
    · rcases slots tid live with ⟨was, same⟩ | ⟨same, _⟩
      · rw [same]
        exact reserved.clear event (later _ member) tid was
      · rw [same]
        exact once.1 event member args rfl
    · rcases slots a liveA with ⟨wasA, sameA⟩ | ⟨sameA, othersA⟩
      · rcases slots b liveB with ⟨wasB, sameB⟩ | ⟨sameB, _⟩
        · rw [sameA, sameB]
          exact apart a b other wasA wasB
        · rw [sameA, sameB]
          exact ⟨(free a wasA).1.symm, (free a wasA).2.symm⟩
      · have sameB := othersA b other.symm
        rw [sameB] at liveB
        rw [sameA, sameB]
        exact free b liveB
  refine fits _ fun tid live => ?_
  by_cases enabled : c.machine.enabled (.spawn args) = true
  · rw [Machine.next_enabled spaces address c.machine _ enabled] at live ⊢
    simp only [Machine.fire] at live ⊢
    rcases Machine.spawn_cases c.machine.kernel args with ⟨_, same⟩ | ⟨fresh, _, _, _, same⟩
    · rw [same] at live ⊢
      exact .inl ⟨live, rfl⟩
    · rw [same, Kernel.enqueue_table, Kernel.set_task_table] at live ⊢
      by_cases own : tid = fresh
      · subst own
        rw [Function.update_self]
        exact .inr ⟨rfl, fun other apart => Function.update_of_ne apart _ _⟩
      · rw [Function.update_of_ne own] at live ⊢
        exact .inl ⟨live, rfl⟩
  · rw [Machine.next_disabled spaces address c.machine _ enabled] at live ⊢
    exact .inl ⟨live, rfl⟩

theorem script_once (cmd : Command) :
    (cmd.script statics).Pairwise fun first later => ∀ args, first = .spawn args → ¬ later.Takes args.ttbr0Pa args.kstackTop := by
  obtain ⟨mem, tops⟩ := apart_slots statics 0 1 (by decide)
  cases cmd with
  | el0 program => simp [Command.script]
  | ticks => simp [Command.script]
  | scheduled demo a b =>
      have apart : ∀ args, Event.spawn (statics.spawnArgs 0 demo.nameA) = .spawn args →
          ¬ (Event.spawn (statics.spawnArgs 1 demo.nameB)).Takes args.ttbr0Pa args.kstackTop := by
        intro args same
        cases same
        rintro (root | stack)
        · exact mem root.symm
        · exact tops stack.symm
      cases armed : demo.preempts with
      | false => simpa [Command.script, armed, Event.Takes] using apart
      | true => simpa [Command.script, armed, Event.Takes] using apart

theorem script_own (cmd : Command) (args : Kernel.SpawnArgs) (member : .spawn args ∈ cmd.script statics) :
    ∃ slot, args.ttbr0Pa = statics.taskMem slot ∧ args.kstackTop = statics.kstackTop slot := by
  cases cmd with
  | el0 program => simp [Command.script] at member
  | ticks => simp [Command.script] at member
  | scheduled demo a b =>
      have either : args = statics.spawnArgs 0 demo.nameA ∨ args = statics.spawnArgs 1 demo.nameB := by
        cases armed : demo.preempts with
        | false => simpa [Command.script, armed] using member
        | true => simpa [Command.script, armed] using member
      rcases either with rfl | rfl
      · exact ⟨0, rfl, rfl⟩
      · exact ⟨1, rfl, rfl⟩

-- A demo builds both slots, so it spares the live tasks only if there are none.
theorem demo_spares_iff (reserved : Reserved statics c) (demo : Demo) (a b : Program) :
    (∀ event ∈ (Command.scheduled demo a b).script statics, ¬ c.machine.kernel.Rewrites event) ↔
      ∀ tid, (c.machine.kernel.table tid).state = .exited := by
  refine ⟨fun spares tid => ?_, fun exited event _ rewrites => ?_⟩
  · by_contra live
    obtain ⟨slot, root, _⟩ := reserved.seated tid live
    have built : slot = 0 ∨ slot = 1 := by omega
    rcases built with rfl | rfl
    · exact spares (.build (statics.taskMem 0) a.image a.code) (by simp [Command.script]) ⟨tid, live, root⟩
    · exact spares (.build (statics.taskMem 1) b.image b.code) (by simp [Command.script]) ⟨tid, live, root⟩
  · obtain ⟨tid, live, _⟩ := rewrites_takes _ event rewrites
    exact live (exited tid)

theorem el0_spares (reserved : Reserved statics c) (program : Program) (event : Event)
    (member : event ∈ (Command.el0 program).script statics) (tid : Nat)
    (live : (c.machine.kernel.table tid).state ≠ .exited) :
    ¬ event.Takes (c.machine.kernel.table tid).ttbr0Pa (c.machine.kernel.table tid).kstackTop := by
  obtain ⟨slot, root, _⟩ := reserved.seated tid live
  simp only [Command.script, List.mem_cons, List.not_mem_nil, or_false] at member
  rcases member with rfl | rfl
  · intro takes
    exact statics.tables_apart slot (root.symm.trans takes.symm)
  · exact id

theorem command_clear (reserved : Reserved statics c) (cmd : Command) (clean : c.StartsClean (.command cmd))
    (accepted : c.accepts = true) (event : Event) (member : event ∈ cmd.script statics) (tid : Nat)
    (live : (c.machine.kernel.table tid).state ≠ .exited) :
    ¬ event.Takes (c.machine.kernel.table tid).ttbr0Pa (c.machine.kernel.table tid).kstackTop := by
  cases cmd with
  | el0 program => exact el0_spares statics c reserved program event member tid live
  | scheduled demo a b => exact absurd (clean accepted tid) live
  | ticks =>
      simp only [Command.script, List.mem_singleton] at member
      subst member
      exact id

-- A typed command spares the live tasks exactly if it is not a demo started
-- with a task left.
theorem command_spares_iff (reserved : Reserved statics c) (cmd : Command) :
    c.SparesLive statics (.command cmd) ↔ c.StartsClean (.command cmd) := by
  cases cmd with
  | scheduled demo a b =>
      have exact_ := demo_spares_iff statics c reserved demo a b
      exact ⟨fun spares accepted => exact_.mp (spares accepted), fun clean accepted => exact_.mpr (clean accepted)⟩
  | _ =>
      refine ⟨fun _ => trivial, fun clean accepted event member rewrites => ?_⟩
      obtain ⟨tid, live, takes⟩ := rewrites_takes _ event rewrites
      exact command_clear statics c reserved _ clean accepted event member tid live takes

theorem proceed_reserved (reserved : Reserved statics c) (apart : c.machine.kernel.Apart) :
    Reserved statics (c.proceed spaces address) ∧ (c.proceed spaces address).machine.kernel.Apart := by
  have quiet : ∀ event rest spawned, c.todo = event :: rest → (∀ args, event ≠ .spawn args) →
      Reserved statics ⟨c.machine.next spaces address event, rest, spawned⟩ ∧
        (c.machine.next spaces address event).kernel.Apart := by
    intro event rest spawned waiting old
    have left := Machine.next_leaves spaces address c.machine event old
    have fewer : rest.Sublist c.todo := by
      rw [waiting]
      exact List.sublist_cons_self event rest
    exact ⟨leaves_reserved c statics _ rest _ left fewer reserved _ rfl spawned, leaves_apart _ _ _ left apart⟩
  have given_up : Reserved statics { c with todo := [] } ∧ c.machine.kernel.Apart := by
    have same : Kernel.Leaves 0 c.machine.kernel c.machine.kernel := Kernel.Leaves.refl _
    exact ⟨leaves_reserved c statics _ [] _ same (List.nil_sublist _) reserved _ rfl c.spawned, apart⟩
  unfold proceed
  split
  · exact ⟨reserved, apart⟩
  · next args rest waiting => exact spawn_reserved spaces address statics c args rest waiting reserved apart _
  · next rest waiting =>
      split_ifs
      · exact quiet _ rest _ waiting fun _ => Event.noConfusion
      · exact given_up
  · next unmask rest waiting =>
      split_ifs
      · exact quiet _ rest _ waiting fun _ => Event.noConfusion
      · exact given_up
  · next event rest old _ _ waiting => exact quiet event rest _ waiting old

theorem step_reserved (input : Input) (reserved : Reserved statics c) (apart : c.machine.kernel.Apart)
    (clean : c.StartsClean input) :
    Reserved statics (c.step spaces address statics input) ∧ (c.step spaces address statics input).machine.kernel.Apart := by
  have outside : ∀ event, (∀ args, event ≠ .spawn args) →
      Reserved statics { c with machine := c.machine.next spaces address event } ∧
        (c.machine.next spaces address event).kernel.Apart := by
    intro event old
    have left := Machine.next_leaves spaces address c.machine event old
    exact ⟨leaves_reserved c statics _ c.todo _ left (List.Sublist.refl _) reserved _ rfl c.spawned,
      leaves_apart _ _ _ left apart⟩
  cases input with
  | command cmd =>
      unfold step
      dsimp only
      split_ifs with accepted
      · exact ⟨⟨reserved.seated, command_clear statics c reserved cmd clean accepted, script_once statics cmd,
          script_own statics cmd⟩, apart⟩
      · exact ⟨reserved, apart⟩
  | proceed =>
      unfold step
      dsimp only
      split_ifs
      · exact proceed_reserved spaces address statics c reserved apart
      · exact ⟨reserved, apart⟩
  | el1 t => exact outside (.el1 t) fun _ => Event.noConfusion
  | enter residue => exact outside (.enter residue) fun _ => Event.noConfusion
  | trap t => exact outside (.trap t) fun _ => Event.noConfusion

theorem step_spares_iff (input : Input) (reserved : Reserved statics c) :
    c.SparesLive statics input ↔ c.StartsClean input := by
  cases input with
  | command cmd => exact command_spares_iff statics c reserved cmd
  | proceed =>
      refine ⟨fun _ => trivial, fun _ event first rewrites => ?_⟩
      obtain ⟨tid, live, takes⟩ := rewrites_takes _ event rewrites
      exact reserved.clear event (List.mem_of_head? first) tid live takes
  | _ => exact Iff.rfl

end

-- In every sequence of commands, with anything the tasks and the timer do in
-- between, no two live tasks share an address space or a stack and no build
-- rewrites a live task's, exactly if every scheduled demo is started with all
-- slots Exited.
theorem resources_apart_iff_started_clean (spaces : AddressSpaces) (address : Static → UInt64) (statics : UserStatics)
    (cpu : Cpu) (inputs : List Input) :
    Run.Always (step spaces address statics) (fun c => c.machine.kernel.Apart) (boot spaces cpu) inputs ∧
      Run.Along (step spaces address statics) (SparesLive statics) (boot spaces cpu) inputs ↔
    Run.Along (step spaces address statics) StartsClean (boot spaces cpu) inputs := by
  refine Run.always_and_along_iff _ (fun _ _ => True) _ _ (Reserved statics) _ ?_ ?_ _ inputs ?_ ?_
    (Run.along_of_forall _ _ (fun _ _ => trivial) _ _)
  · intro c input reserved _ apart clean
    exact (step_reserved spaces address statics c input reserved apart clean).1
  · intro c input reserved _ apart
    rw [step_spares_iff statics c input reserved]
    exact ⟨fun both => both.2, fun clean => ⟨(step_reserved spaces address statics c input reserved apart clean).2, clean⟩⟩
  · exact ⟨fun _ live => absurd rfl live, fun _ no => (by cases no), List.Pairwise.nil, fun _ no => (by cases no)⟩
  · exact fun _ _ _ live => absurd rfl live

def oneSvc : Program := ⟨fun _ => 0, fun va => decide (va = svcVa)⟩

def twoSlots : UserStatics where
  taskMem := fun slot => if slot = 0 then 0x4000 else 0x8000
  kstackTop := fun slot => if slot = 0 then 0x14000 else 0x18000
  userTables := 0xc000
  mem_apart := by decide
  tables_apart := by decide
  stacks_apart := by decide
  mem_somewhere := by decide

-- In one demo task 1 blocks for a message and task 2 exits. Then the same demo
-- is typed again.
def leftBlocked : List Input :=
  [ .command (.scheduled dropToEl0Blkipc oneSvc oneSvc), .proceed, .proceed, .proceed, .proceed, .proceed,
    .enter fun _ => 0, .trap (Trap.svc (registers sysRecvblk [0x200000, 8]) svcVa),
    .trap (Trap.svc (registers sysExit []) svcVa) ]

theorem second_demo_rewrites_blocked :
    ¬ (Run.Always (step flat (fun _ => 0) twoSlots) (fun c => c.machine.kernel.Apart) (boot flat coldCpu)
        (leftBlocked ++ [.command (.scheduled dropToEl0Blkipc oneSvc oneSvc), .proceed]) ∧
      Run.Along (step flat (fun _ => 0) twoSlots) (SparesLive twoSlots) (boot flat coldCpu)
        (leftBlocked ++ [.command (.scheduled dropToEl0Blkipc oneSvc oneSvc), .proceed])) := by
  rintro ⟨_, along⟩
  obtain ⟨_, _, spares, _⟩ := (Run.along_append _ _ _ _ _).mp along
  have accepted : (Run.exec (step flat (fun _ => 0) twoSlots) (boot flat coldCpu) leftBlocked).accepts = true := by
    decide +kernel
  simp only [step, if_pos accepted] at spares
  refine spares (.build 0x4000 oneSvc.image oneSvc.code) rfl ⟨1, ?_, ?_⟩
  · decide +kernel
  · decide +kernel

end Console

end Opal
