import Mathlib
import Emos.Lib.Checked
import Emos.Lib.Extent
import Emos.Lib.SortedMap
import Emos.Lib.VirtAddr
import Emos.Process.Context
import Emos.Process.Pcb
import Emos.Services.ProcessService

set_option autoImplicit false

/- What every run of the process service keeps, from `new().init()` on: where each process's
   stack and heap lie, and that the current process is a Running one. Every call but
   `create_process` rewrites one PCB through `modify` with a setter that touches neither the
   placement nor, apart from the state setters, the state; the invariants are proved once for
   such rewrites and once for `create_process`. -/
namespace Emos.Services

open Checked Emos.Process

-- The addresses [stackPointer - stackSize, stackPointer); a stack that would reach below
-- address 0 is cut there.
def stackExtent (pcb : ProcessControlBlock) : Extent := ⟨pcb.stackPointer - pcb.stackSize, min pcb.stackSize pcb.stackPointer⟩

def heapExtent (pcb : ProcessControlBlock) : Extent := ⟨pcb.heapStart, pcb.heapSize⟩

structure Placement where
  stackPointer : Nat
  stackSize : Nat
  heapStart : Nat
  heapSize : Nat

def placement (pcb : ProcessControlBlock) : Placement := ⟨pcb.stackPointer, pcb.stackSize, pcb.heapStart, pcb.heapSize⟩

def KeepsPlacement (f : ProcessControlBlock → ProcessControlBlock) : Prop := ∀ pcb, placement (f pcb) = placement pcb

theorem keepsPlacement_setState (state : ProcessState) : KeepsPlacement (ProcessControlBlock.setState state) :=
  fun _ => rfl

theorem keepsPlacement_terminate (exitCode : Int) : KeepsPlacement (ProcessControlBlock.terminate exitCode) :=
  fun _ => rfl

theorem keepsPlacement_setPriority (priority : ProcessPriority) :
    KeepsPlacement (ProcessControlBlock.setPriority priority) :=
  fun _ => rfl

theorem keepsPlacement_setCpuTime (cpuTime : Nat) : KeepsPlacement (ProcessControlBlock.setCpuTime cpuTime) :=
  fun _ => rfl

namespace ProcessService

-- The kernel keeps the stack `init` gave it; a user process's stack ends `pid * stack_size` below
-- the top, and its heap, unless sign extension moved it into the upper half, begins `pid *
-- heap_size` above the base.
structure PlacedAt (pid : Nat) (place : Placement) : Prop where
  kernel : pid = 0 → place.stackPointer = kernelStackPointer ∧ place.stackSize = kernelStackSize
  stack : pid ≠ 0 → pid * place.stackSize ≤ userStackTop ∧ place.stackPointer = userStackTop - pid * place.stackSize
  heap : pid ≠ 0 → place.heapStart < 2 ^ 47 → place.heapStart = userHeapBase + pid * place.heapSize

structure Placed (s : ProcessService) : Prop where
  counter : 0 < s.nextPid
  placed : ∀ pid pcb, s.processes.get? pid = some pcb → PlacedAt pid (placement pcb)

section Placing

theorem placed_modify {s s' : ProcessService} {pid : Nat} {f : ProcessControlBlock → ProcessControlBlock}
    (placed : Placed s) (keeps : KeepsPlacement f) (processes : s'.processes = s.processes.modify pid f)
    (counter : s'.nextPid = s.nextPid) : Placed s' := by
  refine ⟨counter ▸ placed.counter, fun key pcb found => ?_⟩
  rw [processes] at found
  obtain ⟨old, before, rfl⟩ := SortedMap.get?_modify_eq_some found
  have same : placement (if key = pid then f old else old) = placement old := by
    split
    · exact keeps old
    · rfl
  rw [same]
  exact placed.placed key old before

theorem placed_createProcess {s s' : ProcessService} {name : String} {priority : ProcessPriority}
    {stackSize heapSize pid : Nat} (placed : Placed s)
    (created : s.createProcess name priority stackSize heapSize = .ok (pid, s')) : Placed s' := by
  obtain ⟨heapStart, -, fits, heap, rfl⟩ := createProcess_eq_ok created
  refine ⟨Nat.succ_pos _, fun key pcb found => ?_⟩
  rw [SortedMap.get?_insert] at found
  split at found
  · -- the new process, placed from its own pid, which is not the kernel's
    rename_i fresh
    subst fresh
    cases found
    have user : s.nextPid ≠ 0 := Nat.pos_iff_ne_zero.mp placed.counter
    exact ⟨fun kernel => absurd kernel user, fun _ => ⟨fits, rfl⟩, fun _ low => heap low⟩
  · exact placed.placed key pcb found

theorem placed_init {s : ProcessService} (initialized : new.init = .ok s) : Placed s := by
  rw [init_eq_ok] at initialized
  subst initialized
  refine ⟨Nat.one_pos, fun key pcb found => ?_⟩
  rw [SortedMap.get?_insert] at found
  split at found
  · rename_i kernel
    subst kernel
    cases found
    exact ⟨fun _ => ⟨rfl, rfl⟩, fun user => absurd rfl user, fun user => absurd rfl user⟩
  · cases found

theorem placed_step {s s' : ProcessService} (placed : Placed s) (step : Step s s') : Placed s' := by
  cases step with
  | createProcess name priority stackSize heapSize pid created => exact placed_createProcess placed created
  | terminateProcess pid exitCode terminated =>
      obtain ⟨-, rfl⟩ := terminateProcess_eq_ok.mp terminated
      exact placed_modify placed (keepsPlacement_terminate exitCode) rfl rfl
  | scheduleNext context context' next scheduled =>
      rcases scheduleNext_eq scheduled with same | ⟨pid, -, processes, counter, -⟩
      · exact same ▸ placed
      · exact placed_modify placed (keepsPlacement_setState .running) processes counter
  | blockCurrentProcess blocked =>
      obtain ⟨pid, -, -, rfl⟩ := blockCurrentProcess_eq_ok.mp blocked
      exact placed_modify placed (keepsPlacement_setState .blocked) rfl rfl
  | unblockProcess pid unblocked =>
      obtain ⟨pcb, -, -, rfl⟩ := unblockProcess_eq_ok.mp unblocked
      exact placed_modify placed (keepsPlacement_setState .ready) rfl rfl
  | updateCpuTime pid timeDelta updated =>
      rcases updateCpuTime_eq_ok updated with same | ⟨cpuTime, rfl⟩
      · exact same ▸ placed
      · exact placed_modify placed (keepsPlacement_setCpuTime cpuTime) rfl rfl
  | setPriority pid priority prioritized =>
      obtain ⟨-, rfl⟩ := setPriority_eq_ok.mp prioritized
      exact placed_modify placed (keepsPlacement_setPriority priority) rfl rfl

theorem reachable_placed {initial s : ProcessService} (initialized : new.init = .ok initial)
    (reachable : Relation.ReflTransGen Step initial s) : Placed s := by
  induction reachable with
  | refl => exact placed_init initialized
  | tail _ step ih => exact placed_step ih step

end Placing

section Apart

variable {p q : Nat} {a b : ProcessControlBlock}

theorem stacks_apart_of_placed (first : PlacedAt p (placement a)) (second : PlacedAt q (placement b))
    (user : p ≠ 0) (other : q ≠ 0) (different : p ≠ q) (sameSize : a.stackSize = b.stackSize) :
    (stackExtent a).Apart (stackExtent b) := by
  obtain ⟨fitsA, pointerA⟩ := first.stack user
  obtain ⟨fitsB, pointerB⟩ := second.stack other
  simp only [placement] at fitsA pointerA fitsB pointerB
  rw [Extent.apart_iff]
  unfold stackExtent
  dsimp only
  rw [← sameSize] at fitsB pointerB ⊢
  rcases Nat.lt_or_gt_of_ne different with less | greater
  · have slots := Extent.mul_add_le_of_lt a.stackSize less
    omega
  · have slots := Extent.mul_add_le_of_lt a.stackSize greater
    omega

theorem kernel_stack_apart_of_placed (kernel : PlacedAt 0 (placement a)) (second : PlacedAt q (placement b))
    (other : q ≠ 0) : (stackExtent a).Apart (stackExtent b) := by
  obtain ⟨pointerA, sizeA⟩ := kernel.kernel rfl
  obtain ⟨-, pointerB⟩ := second.stack other
  simp only [placement] at pointerA sizeA pointerB
  rw [Extent.apart_iff]
  unfold stackExtent kernelStackPointer kernelStackSize userStackTop at *
  dsimp only
  omega

theorem heaps_apart_of_placed (first : PlacedAt p (placement a)) (second : PlacedAt q (placement b))
    (user : p ≠ 0) (other : q ≠ 0) (different : p ≠ q) (sameSize : a.heapSize = b.heapSize)
    (lowA : a.heapStart < 2 ^ 47) (lowB : b.heapStart < 2 ^ 47) : (heapExtent a).Apart (heapExtent b) := by
  have startA : a.heapStart = userHeapBase + p * a.heapSize := first.heap user lowA
  have startB : b.heapStart = userHeapBase + q * b.heapSize := second.heap other lowB
  have slotA : heapExtent a = ⟨userHeapBase + p * a.heapSize, a.heapSize⟩ := by
    rw [heapExtent, startA]
  have slotB : heapExtent b = ⟨userHeapBase + q * a.heapSize, a.heapSize⟩ := by
    rw [heapExtent, startB, sameSize]
  rw [slotA, slotB]
  exact Extent.slots_apart userHeapBase a.heapSize different

end Apart

theorem process_stacks_and_heaps_apart {initial s : ProcessService} (initialized : new.init = .ok initial)
    (reachable : Relation.ReflTransGen Step initial s) {p q : Nat} {a b : ProcessControlBlock} (different : p ≠ q)
    (first : s.getProcess p = some a) (second : s.getProcess q = some b) :
    (p = 0 → (stackExtent a).Apart (stackExtent b)) ∧
    (p ≠ 0 → q ≠ 0 → a.stackSize = b.stackSize → (stackExtent a).Apart (stackExtent b)) ∧
    (p ≠ 0 → q ≠ 0 → a.heapSize = b.heapSize → a.heapStart < 2 ^ 47 → b.heapStart < 2 ^ 47 →
      (heapExtent a).Apart (heapExtent b)) := by
  have placed := reachable_placed initialized reachable
  have placedA := placed.placed p a first
  have placedB := placed.placed q b second
  refine ⟨fun kernel => ?_, fun user other => stacks_apart_of_placed placedA placedB user other different,
    fun user other => heaps_apart_of_placed placedA placedB user other different⟩
  subst kernel
  exact kernel_stack_apart_of_placed placedA placedB (Ne.symm different)

theorem equal_sized_processes_apart :
    ∃ initial first second : ProcessService, ∃ a b : ProcessControlBlock,
      new.init = .ok initial ∧
      initial.createProcess "a" .normal 4096 8192 = .ok (1, first) ∧
      first.createProcess "b" .normal 4096 8192 = .ok (2, second) ∧
      second.getProcess 1 = some a ∧ second.getProcess 2 = some b ∧
      (stackExtent a).Apart (stackExtent b) ∧ (heapExtent a).Apart (heapExtent b) := by
  obtain ⟨initial, first, second, a, b, initialized, createdA, createdB, foundA, foundB, sameStack, sameHeap, lowA, lowB⟩ :
      ∃ initial first second : ProcessService, ∃ a b : ProcessControlBlock,
        new.init = .ok initial ∧
        initial.createProcess "a" .normal 4096 8192 = .ok (1, first) ∧
        first.createProcess "b" .normal 4096 8192 = .ok (2, second) ∧
        second.getProcess 1 = some a ∧ second.getProcess 2 = some b ∧
        a.stackSize = b.stackSize ∧ a.heapSize = b.heapSize ∧ a.heapStart < 2 ^ 47 ∧ b.heapStart < 2 ^ 47 :=
    ⟨_, _, _, _, _, eq_ok_of_toOption rfl, eq_ok_of_toOption rfl, eq_ok_of_toOption rfl, rfl, rfl, rfl, rfl,
      by decide, by decide⟩
  have reachable : Relation.ReflTransGen Step initial second :=
    (Relation.ReflTransGen.single (Step.createProcess _ _ _ _ _ createdA)).tail (Step.createProcess _ _ _ _ _ createdB)
  have apart := process_stacks_and_heaps_apart initialized reachable (by decide) foundA foundB
  exact ⟨initial, first, second, a, b, initialized, createdA, createdB, foundA, foundB,
    apart.2.1 (by decide) (by decide) sameStack, apart.2.2 (by decide) (by decide) sameHeap lowA lowB⟩

theorem kernel_and_user_memory_overlap :
    ∃ initial first second : ProcessService, ∃ kernel a b : ProcessControlBlock,
      new.init = .ok initial ∧
      initial.createProcess "a" .normal 12288 8192 = .ok (1, first) ∧
      first.createProcess "b" .normal 8192 4096 = .ok (2, second) ∧
      second.getProcess 0 = some kernel ∧ second.getProcess 1 = some a ∧ second.getProcess 2 = some b ∧
      ¬ (heapExtent kernel).Apart (heapExtent a) ∧ ¬ (stackExtent a).Apart (stackExtent b) ∧
      ¬ (heapExtent a).Apart (heapExtent b) := by
  refine ⟨_, _, _, _, _, _, eq_ok_of_toOption rfl, eq_ok_of_toOption rfl, eq_ok_of_toOption rfl, rfl, rfl, rfl,
    ?_, ?_, ?_⟩ <;> decide

-- The current process is a Running one, and no pid at or above the counter is in use, so a new
-- process never replaces the current one.
structure CurrentRunning (s : ProcessService) : Prop where
  fresh : ∀ pid, (s.processes.get? pid).isSome → pid < s.nextPid
  running : ∀ pid, s.currentProcess = some pid → ∃ pcb, s.processes.get? pid = some pcb ∧ pcb.state = .running

section Current

theorem running_modify {processes : SortedMap Nat ProcessControlBlock} {pid current : Nat}
    {f : ProcessControlBlock → ProcessControlBlock}
    (running : ∃ pcb, processes.get? current = some pcb ∧ pcb.state = .running)
    (keeps : current = pid → ∀ pcb, pcb.state = .running → (f pcb).state = .running) :
    ∃ pcb, (processes.modify pid f).get? current = some pcb ∧ pcb.state = .running := by
  obtain ⟨pcb, found, state⟩ := running
  refine ⟨_, SortedMap.get?_modify_of_eq_some found, ?_⟩
  split
  · rename_i same
    exact keeps same pcb state
  · exact state

theorem state_of_found {s : ProcessService} {pid : Nat} {pcb other : ProcessControlBlock} {state : ProcessState}
    (found : s.processes.get? pid = some pcb) (present : s.processes.get? pid = some other) (is : other.state = state) :
    pcb.state = state := by
  rw [found, Option.some.injEq] at present
  rw [present, is]

theorem fresh_modify {s : ProcessService} {pid : Nat} {f : ProcessControlBlock → ProcessControlBlock}
    (inv : CurrentRunning s) : ∀ key, ((s.processes.modify pid f).get? key).isSome → key < s.nextPid := by
  intro key found
  rw [SortedMap.get?_modify_isSome] at found
  exact inv.fresh key found

theorem currentRunning_createProcess {s s' : ProcessService} {name : String} {priority : ProcessPriority}
    {stackSize heapSize pid : Nat} (inv : CurrentRunning s)
    (created : s.createProcess name priority stackSize heapSize = .ok (pid, s')) : CurrentRunning s' := by
  obtain ⟨heapStart, -, -, -, rfl⟩ := createProcess_eq_ok created
  constructor
  · intro key found
    rw [SortedMap.get?_insert] at found
    split at found
    · rename_i fresh
      dsimp only
      omega
    · exact Nat.lt_succ_of_lt (inv.fresh key found)
  · intro current chosen
    obtain ⟨pcb, found, state⟩ := inv.running current chosen
    have older : current ≠ s.nextPid := Nat.ne_of_lt (inv.fresh current (by simp [found]))
    exact ⟨pcb, by rw [SortedMap.get?_insert_of_ne _ _ _ _ older, found], state⟩

theorem currentRunning_init {s : ProcessService} (initialized : new.init = .ok s) : CurrentRunning s := by
  rw [init_eq_ok] at initialized
  subst initialized
  constructor
  · intro key found
    rw [SortedMap.get?_insert] at found
    split at found
    · rename_i kernel
      exact kernel ▸ Nat.one_pos
    · cases found
  · intro current chosen
    cases chosen
    exact ⟨_, SortedMap.get?_insert_self _ _ _, rfl⟩

theorem currentRunning_modify {s : ProcessService} {pid : Nat} {f : ProcessControlBlock → ProcessControlBlock}
    (inv : CurrentRunning s) (keeps : ∀ pcb, pcb.state = .running → (f pcb).state = .running) :
    CurrentRunning { s with processes := s.processes.modify pid f } :=
  ⟨fresh_modify inv, fun current chosen => running_modify (inv.running current chosen) fun _ => keeps⟩

theorem currentRunning_terminateProcess {s s' : ProcessService} {pid : Nat} {exitCode : Int}
    (inv : CurrentRunning s) (terminated : s.terminateProcess pid exitCode = .ok s') : CurrentRunning s' := by
  obtain ⟨-, rfl⟩ := terminateProcess_eq_ok.mp terminated
  refine ⟨fresh_modify inv, fun current chosen => ?_⟩
  split at chosen
  · cases chosen
  · rename_i other
    exact running_modify (inv.running current chosen) fun same => absurd (same ▸ chosen) other

theorem currentRunning_scheduleNext {s s' : ProcessService} {context context' : ContextManager} {next : Option Nat}
    (inv : CurrentRunning s) (scheduled : s.scheduleNext context = (next, s', context')) : CurrentRunning s' := by
  rcases scheduleNext_eq scheduled with same | ⟨pid, ready, processes, counter, current⟩
  · exact same ▸ inv
  refine ⟨fun key found => ?_, fun chosen picked => ?_⟩
  · rw [processes] at found
    rw [counter]
    exact fresh_modify inv key found
  · rw [processes]
    rcases current with switched | kept
    · -- the switch went through: the chosen process was Ready and is now Running
      rw [switched, Option.some.injEq] at picked
      subst picked
      obtain ⟨pcb, found, -⟩ := mem_readyProcesses.mp ready
      exact ⟨_, SortedMap.get?_modify_of_eq_some found, by simp [ProcessControlBlock.setState]⟩
    · exact running_modify (inv.running chosen (kept ▸ picked)) fun _ _ _ => rfl

theorem currentRunning_unblockProcess {s s' : ProcessService} {pid : Nat} (inv : CurrentRunning s)
    (unblocked : s.unblockProcess pid = .ok s') : CurrentRunning s' := by
  obtain ⟨pcb, found, blocked, rfl⟩ := unblockProcess_eq_ok.mp unblocked
  refine ⟨fresh_modify inv, fun current chosen => running_modify (inv.running current chosen) ?_⟩
  intro same
  obtain ⟨running, present, state⟩ := inv.running current chosen
  rw [same] at present
  have stillBlocked := state_of_found present found blocked
  rw [state] at stillBlocked
  cases stillBlocked

theorem currentRunning_step {s s' : ProcessService} (inv : CurrentRunning s) (step : Step s s') :
    CurrentRunning s' := by
  cases step with
  | createProcess name priority stackSize heapSize pid created => exact currentRunning_createProcess inv created
  | terminateProcess pid exitCode terminated => exact currentRunning_terminateProcess inv terminated
  | scheduleNext context context' next scheduled => exact currentRunning_scheduleNext inv scheduled
  | blockCurrentProcess blocked =>
      obtain ⟨pid, -, -, rfl⟩ := blockCurrentProcess_eq_ok.mp blocked
      exact ⟨fresh_modify inv, fun current chosen => by cases chosen⟩
  | unblockProcess pid unblocked => exact currentRunning_unblockProcess inv unblocked
  | updateCpuTime pid timeDelta updated =>
      rcases updateCpuTime_eq_ok updated with same | ⟨cpuTime, rfl⟩
      · exact same ▸ inv
      · exact currentRunning_modify inv fun _ state => state
  | setPriority pid priority prioritized =>
      obtain ⟨-, rfl⟩ := setPriority_eq_ok.mp prioritized
      exact currentRunning_modify inv fun _ state => state

theorem currentRunning_new : CurrentRunning new :=
  ⟨fun pid found => by simp [new] at found, fun pid chosen => by cases chosen⟩

theorem currentRunning_of_reachable {initial s : ProcessService} (holds : CurrentRunning initial)
    (reachable : Relation.ReflTransGen Step initial s) : CurrentRunning s := by
  induction reachable with
  | refl => exact holds
  | tail _ step ih => exact currentRunning_step ih step

theorem reachable_currentRunning {initial s : ProcessService} (initialized : new.init = .ok initial)
    (reachable : Relation.ReflTransGen Step initial s) : CurrentRunning s :=
  currentRunning_of_reachable (currentRunning_init initialized) reachable

end Current

theorem createProcess_fresh {s s' : ProcessService} (inv : CurrentRunning s) {name : String}
    {priority : ProcessPriority} {stackSize heapSize pid : Nat}
    (created : s.createProcess name priority stackSize heapSize = .ok (pid, s')) : s.getProcess pid = none := by
  obtain ⟨-, rfl, -⟩ := createProcess_eq_ok created
  cases found : s.processes.get? s.nextPid with
  | none => exact found
  | some pcb => exact absurd (inv.fresh _ (by simp [found])) (Nat.lt_irrefl _)

theorem current_process_is_running {initial s : ProcessService} (initialized : new.init = .ok initial)
    (reachable : Relation.ReflTransGen Step initial s) :
    (∀ pid, (s.getProcess pid).isSome → pid < s.nextPid) ∧
    (∀ pid, s.getCurrentProcess = some pid → ∃ pcb, s.getProcess pid = some pcb ∧ pcb.state = .running) ∧
    ∀ name priority stackSize heapSize pid s', s.createProcess name priority stackSize heapSize = .ok (pid, s') →
      s.getProcess pid = none := by
  have inv := reachable_currentRunning initialized reachable
  exact ⟨inv.fresh, inv.running, fun _ _ _ _ _ _ created => createProcess_fresh inv created⟩

theorem kernel_current_after_init :
    ∃ initial : ProcessService, new.init = .ok initial ∧ initial.getCurrentProcess = some 0 ∧
      (∀ pid, (initial.getProcess pid).isSome → pid < initial.nextPid) ∧
      (∀ pid, initial.getCurrentProcess = some pid →
        ∃ pcb, initial.getProcess pid = some pcb ∧ pcb.state = .running) ∧
      ∀ name priority stackSize heapSize pid s',
        initial.createProcess name priority stackSize heapSize = .ok (pid, s') → initial.getProcess pid = none := by
  obtain ⟨initial, initialized, current⟩ :
      ∃ initial : ProcessService, new.init = .ok initial ∧ initial.getCurrentProcess = some 0 :=
    ⟨_, eq_ok_of_toOption rfl, rfl⟩
  exact ⟨initial, initialized, current, current_process_is_running initialized .refl⟩

theorem contextSwitch_of_ready {s : ProcessService} (inv : CurrentRunning s) (context : ContextManager) {pid : Nat}
    (ready : pid ∈ s.readyProcesses) :
    context.contextSwitch s.currentProcess pid (s.processes.modify pid (ProcessControlBlock.setState .running)) =
      .ok { context with currentProcess := some pid } := by
  obtain ⟨pcb, found, -⟩ := mem_readyProcesses.mp ready
  refine ContextManager.contextSwitch_ok_of_mem context (fun current picked => ?_) (by simp [found])
  obtain ⟨running, present, -⟩ := inv.running current picked
  simp [present]

theorem scheduleNext_of_ready {s : ProcessService} (inv : CurrentRunning s) (context : ContextManager) {first : Nat}
    {rest : List Nat} (listed : s.readyProcesses = first :: rest) :
    let next := nextReady (first :: rest) first s.currentProcess
    s.scheduleNext context =
      (some next, ⟨s.processes.modify next (ProcessControlBlock.setState .running), some next, s.nextPid⟩,
        { context with currentProcess := some next }) := by
  intro next
  have chosen : next ∈ s.readyProcesses := listed ▸ nextReady_mem s.currentProcess List.mem_cons_self
  unfold scheduleNext
  rw [listed]
  dsimp only
  rw [contextSwitch_of_ready inv context chosen]

theorem savedContextSwitch_of_ready {s : ProcessService} (inv : CurrentRunning s) {pid : Nat}
    (ready : pid ∈ s.readyProcesses) (self : Context.ContextManager) {processes : SortedMap Nat Context.SavedPcb}
    (samePids : ∀ p, (s.processes.get? p).isSome = (processes.get? p).isSome) :
    ∃ self' processes', (Context.ContextManager.contextSwitch s.currentProcess pid).run (self, processes) =
      .ok () (self', processes') ∧ self'.currentProcess = some pid := by
  have refined := @Context.ContextManager.contextSwitch_refines s.currentProcess pid self processes
    (s.processes.modify pid (ProcessControlBlock.setState .running))
    fun p => by rw [SortedMap.get?_modify_isSome, samePids]
  rw [contextSwitch_of_ready inv _ ready] at refined
  cases switched : (Context.ContextManager.contextSwitch s.currentProcess pid).run (self, processes) with
  | ok done state =>
      rw [switched] at refined
      obtain ⟨self', processes'⟩ := state
      cases done
      exact ⟨self', processes', rfl, (ContextManager.mk.inj (Except.ok.inj refined)).symm⟩
  | error e state =>
      rw [switched] at refined
      cases refined

theorem schedule_next_runs_ready_process {initial s : ProcessService} (initialized : new.init = .ok initial)
    (reachable : Relation.ReflTransGen Step initial s) (context : ContextManager) {pid : Nat}
    {pcb : ProcessControlBlock} (found : s.getProcess pid = some pcb) (ready : pcb.state = .ready) :
    ∃ next s' context', s.scheduleNext context = (some next, s', context') ∧
      (∃ old, s.getProcess next = some old ∧ old.state = .ready) ∧
      s'.getCurrentProcess = some next ∧ (∃ pcb', s'.getProcess next = some pcb' ∧ pcb'.state = .running) ∧
      ∀ (self : Context.ContextManager) (processes : SortedMap Nat Context.SavedPcb),
        (∀ p, (s.getProcess p).isSome = (processes.get? p).isSome) →
        ∃ self' processes', (Context.ContextManager.contextSwitch s.currentProcess next).run (self, processes) =
          .ok () (self', processes') ∧ self'.currentProcess = some next := by
  have inv := reachable_currentRunning initialized reachable
  have listed : pid ∈ s.readyProcesses := mem_readyProcesses.mpr ⟨pcb, found, ready⟩
  obtain ⟨first, rest, nonempty⟩ := List.exists_cons_of_ne_nil (List.ne_nil_of_mem listed)
  have chosen : nextReady (first :: rest) first s.currentProcess ∈ s.readyProcesses := by
    rw [nonempty]
    exact nextReady_mem s.currentProcess List.mem_cons_self
  obtain ⟨old, present, wasReady⟩ := mem_readyProcesses.mp chosen
  refine ⟨_, _, _, scheduleNext_of_ready inv context nonempty, ⟨old, present, wasReady⟩, rfl, ?_,
    fun self processes samePids => savedContextSwitch_of_ready inv chosen self samePids⟩
  exact ⟨_, SortedMap.get?_modify_of_eq_some present, by simp [ProcessControlBlock.setState]⟩

theorem first_process_scheduled_after_init :
    ∃ initial created : ProcessService, new.init = .ok initial ∧
      initial.createProcess "p" .normal 4096 8192 = .ok (1, created) ∧
      ∃ next s' context', created.scheduleNext ContextManager.new = (some next, s', context') ∧
        (∃ old, created.getProcess next = some old ∧ old.state = .ready) ∧
        s'.getCurrentProcess = some next ∧ (∃ pcb', s'.getProcess next = some pcb' ∧ pcb'.state = .running) ∧
        ∀ (self : Context.ContextManager) (processes : SortedMap Nat Context.SavedPcb),
          (∀ p, (created.getProcess p).isSome = (processes.get? p).isSome) →
          ∃ self' processes', (Context.ContextManager.contextSwitch created.currentProcess next).run (self, processes) =
            .ok () (self', processes') ∧ self'.currentProcess = some next := by
  obtain ⟨initial, created, pcb, initialized, creating, found, ready⟩ :
      ∃ initial created : ProcessService, ∃ pcb : ProcessControlBlock, new.init = .ok initial ∧
        initial.createProcess "p" .normal 4096 8192 = .ok (1, created) ∧
        created.getProcess 1 = some pcb ∧ pcb.state = .ready :=
    ⟨_, _, _, eq_ok_of_toOption rfl, eq_ok_of_toOption rfl, rfl, rfl⟩
  exact ⟨initial, created, initialized, creating, schedule_next_runs_ready_process initialized
    (.single (Step.createProcess _ _ _ _ _ creating)) ContextManager.new found ready⟩

-- The switch never fails, so `None` comes only from an empty Ready list, and then nothing has
-- changed.
theorem schedule_next_switch_never_fails {initial s : ProcessService} (start : initial = new ∨ new.init = .ok initial)
    (reachable : Relation.ReflTransGen Step initial s) (context : ContextManager) :
    (∀ pid ∈ s.readyProcesses, context.contextSwitch s.currentProcess pid
        (s.processes.modify pid (ProcessControlBlock.setState .running)) = .ok { context with currentProcess := some pid }) ∧
    ∀ s' context', s.scheduleNext context = (none, s', context') → s.readyProcesses = [] ∧ s' = s ∧ context' = context := by
  have inv : CurrentRunning s := by
    refine currentRunning_of_reachable ?_ reachable
    rcases start with rfl | initialized
    · exact currentRunning_new
    · exact currentRunning_init initialized
  refine ⟨fun pid ready => contextSwitch_of_ready inv context ready, fun s' context' scheduled => ?_⟩
  cases listed : s.readyProcesses with
  | nil =>
      unfold scheduleNext at scheduled
      rw [listed, Prod.mk.injEq, Prod.mk.injEq] at scheduled
      exact ⟨rfl, scheduled.2.1.symm, scheduled.2.2.symm⟩
  | cons first rest =>
      rw [scheduleNext_of_ready inv context listed, Prod.mk.injEq] at scheduled
      cases scheduled.1

theorem switch_never_fails_with_one_ready_process :
    ∃ initial created : ProcessService, new.init = .ok initial ∧
      initial.createProcess "p" .normal 4096 8192 = .ok (1, created) ∧ created.readyProcesses = [1] ∧
      (∀ pid ∈ created.readyProcesses, ContextManager.new.contextSwitch created.currentProcess pid
          (created.processes.modify pid (ProcessControlBlock.setState .running)) =
            .ok { ContextManager.new with currentProcess := some pid }) ∧
      ∀ s' context', created.scheduleNext ContextManager.new = (none, s', context') →
        created.readyProcesses = [] ∧ s' = created ∧ context' = ContextManager.new := by
  obtain ⟨initial, created, initialized, creating, listed⟩ :
      ∃ initial created : ProcessService, new.init = .ok initial ∧
        initial.createProcess "p" .normal 4096 8192 = .ok (1, created) ∧ created.readyProcesses = [1] :=
    ⟨_, _, eq_ok_of_toOption rfl, eq_ok_of_toOption rfl, rfl⟩
  exact ⟨initial, created, initialized, creating, listed, schedule_next_switch_never_fails (.inr initialized)
    (.single (Step.createProcess _ _ _ _ _ creating)) ContextManager.new⟩

end ProcessService

end Emos.Services
