import Mathlib
import Emos.Lib.SortedMap
import Emos.Process.Pcb
import Emos.Services.ProcessService
import Emos.Services.ProcessInvariants

set_option autoImplicit false

/- The life of a PCB in the process service: which moves of its state each call may make.
   `schedule_next` marks a Ready process Running, `block_current_process` blocks the current
   process, which is Running, `unblock_process` readies a Blocked one and `terminate_process`
   ends any; no call removes a PCB and the other calls keep every state. -/
namespace Emos.Services

open Emos.Process

namespace ProcessService

-- Every PCB of `s` is still in `s'`, in its old state or in one `allowed` from it.
def Moves (allowed : ProcessState → ProcessState → Prop) (s s' : ProcessService) : Prop :=
  ∀ pid pcb, s.processes.get? pid = some pcb →
    ∃ pcb', s'.processes.get? pid = some pcb' ∧ (pcb'.state = pcb.state ∨ allowed pcb.state pcb'.state)

inductive Lifecycle : ProcessState → ProcessState → Prop
  | schedule : Lifecycle .ready .running
  | block : Lifecycle .running .blocked
  | unblock : Lifecycle .blocked .ready
  | terminate (state : ProcessState) : Lifecycle state .terminated

theorem Lifecycle.eq_terminated {after : ProcessState} (move : Lifecycle .terminated after) : after = .terminated := by
  cases move
  rfl

section Moves

variable {s s' : ProcessService} {allowed : ProcessState → ProcessState → Prop}

theorem Moves.mono {wider : ProcessState → ProcessState → Prop} (moves : Moves allowed s s')
    (widen : ∀ before after, allowed before after → wider before after) : Moves wider s s' := by
  intro pid pcb found
  obtain ⟨pcb', found', move⟩ := moves pid pcb found
  exact ⟨pcb', found', move.imp_right (widen _ _)⟩

theorem moves_refl : Moves allowed s s :=
  fun _ pcb found => ⟨pcb, found, .inl rfl⟩

theorem moves_modify {pid : Nat} {f : ProcessControlBlock → ProcessControlBlock}
    (processes : s'.processes = s.processes.modify pid f)
    (move : ∀ pcb, s.processes.get? pid = some pcb → (f pcb).state = pcb.state ∨ allowed pcb.state (f pcb).state) :
    Moves allowed s s' := by
  intro key pcb found
  rw [processes]
  refine ⟨_, SortedMap.get?_modify_of_eq_some found, ?_⟩
  split
  · rename_i same
    subst same
    exact move pcb found
  · exact .inl rfl

theorem moves_createProcess (inv : CurrentRunning s) {name : String} {priority : ProcessPriority}
    {stackSize heapSize pid : Nat} (created : s.createProcess name priority stackSize heapSize = .ok (pid, s')) :
    Moves (fun _ _ => False) s s' := by
  obtain ⟨heapStart, -, -, -, rfl⟩ := createProcess_eq_ok created
  intro key pcb found
  have older : key ≠ s.nextPid := Nat.ne_of_lt (inv.fresh key (by simp [found]))
  exact ⟨pcb, by rw [SortedMap.get?_insert_of_ne _ _ _ _ older, found], .inl rfl⟩

theorem moves_terminateProcess {pid : Nat} {exitCode : Int} (terminated : s.terminateProcess pid exitCode = .ok s') :
    Moves (fun _ after => after = .terminated) s s' := by
  obtain ⟨-, rfl⟩ := terminateProcess_eq_ok.mp terminated
  exact moves_modify rfl fun _ _ => .inr rfl

theorem moves_scheduleNext {context context' : ContextManager} {next : Option Nat}
    (scheduled : s.scheduleNext context = (next, s', context')) :
    Moves (fun before after => before = .ready ∧ after = .running) s s' := by
  rcases scheduleNext_eq scheduled with rfl | ⟨pid, ready, processes, -, -⟩
  · exact moves_refl
  refine moves_modify processes fun pcb found => .inr ⟨?_, rfl⟩
  obtain ⟨listed, present, state⟩ := mem_readyProcesses.mp ready
  exact state_of_found found present state

theorem moves_blockCurrentProcess (inv : CurrentRunning s) (blocked : s.blockCurrentProcess = .ok s') :
    Moves (fun before after => before = .running ∧ after = .blocked) s s' := by
  obtain ⟨pid, current, -, rfl⟩ := blockCurrentProcess_eq_ok.mp blocked
  refine moves_modify rfl fun pcb found => .inr ⟨?_, rfl⟩
  obtain ⟨running, present, state⟩ := inv.running pid current
  exact state_of_found found present state

theorem moves_unblockProcess {pid : Nat} (unblocked : s.unblockProcess pid = .ok s') :
    Moves (fun before after => before = .blocked ∧ after = .ready) s s' := by
  obtain ⟨blocked, present, state, rfl⟩ := unblockProcess_eq_ok.mp unblocked
  exact moves_modify rfl fun pcb found => .inr ⟨state_of_found found present state, rfl⟩

theorem moves_updateCpuTime {pid timeDelta : Nat} (updated : s.updateCpuTime pid timeDelta = .ok s') :
    Moves (fun _ _ => False) s s' := by
  rcases updateCpuTime_eq_ok updated with rfl | ⟨cpuTime, rfl⟩
  · exact moves_refl
  · exact moves_modify rfl fun _ _ => .inl rfl

theorem moves_setPriority {pid : Nat} {priority : ProcessPriority} (prioritized : s.setPriority pid priority = .ok s') :
    Moves (fun _ _ => False) s s' := by
  obtain ⟨-, rfl⟩ := setPriority_eq_ok.mp prioritized
  exact moves_modify rfl fun _ _ => .inl rfl

theorem moves_step (inv : CurrentRunning s) (step : Step s s') : Moves Lifecycle s s' := by
  cases step with
  | createProcess name priority stackSize heapSize pid created =>
      exact (moves_createProcess inv created).mono fun _ _ => False.elim
  | terminateProcess pid exitCode terminated =>
      exact (moves_terminateProcess terminated).mono fun before _ ended => ended ▸ .terminate before
  | scheduleNext context context' next scheduled =>
      exact (moves_scheduleNext scheduled).mono fun _ _ ⟨ready, running⟩ => ready ▸ running ▸ .schedule
  | blockCurrentProcess blocked =>
      exact (moves_blockCurrentProcess inv blocked).mono fun _ _ ⟨running, blocked⟩ => running ▸ blocked ▸ .block
  | unblockProcess pid unblocked =>
      exact (moves_unblockProcess unblocked).mono fun _ _ ⟨blocked, ready⟩ => blocked ▸ ready ▸ .unblock
  | updateCpuTime pid timeDelta updated => exact (moves_updateCpuTime updated).mono fun _ _ => False.elim
  | setPriority pid priority prioritized => exact (moves_setPriority prioritized).mono fun _ _ => False.elim

end Moves

section Terminated

variable {s s' : ProcessService} {pid : Nat} {pcb : ProcessControlBlock}

theorem terminated_step (inv : CurrentRunning s) (step : Step s s') (found : s.processes.get? pid = some pcb)
    (ended : pcb.state = .terminated) : ∃ pcb', s'.processes.get? pid = some pcb' ∧ pcb'.state = .terminated := by
  obtain ⟨pcb', found', move⟩ := moves_step inv step pid pcb found
  refine ⟨pcb', found', ?_⟩
  rcases move with same | lawful
  · rw [same, ended]
  · rw [ended] at lawful
    exact lawful.eq_terminated

theorem CurrentRunning.not_current (inv : CurrentRunning s) (found : s.processes.get? pid = some pcb)
    (ended : pcb.state = .terminated) : s.currentProcess ≠ some pid := by
  intro current
  obtain ⟨running, present, state⟩ := inv.running pid current
  have stillRunning := state_of_found found present state
  rw [ended] at stillRunning
  cases stillRunning

theorem terminated_forever (inv : CurrentRunning s) (later : Relation.ReflTransGen Step s s')
    (found : s.processes.get? pid = some pcb) (ended : pcb.state = .terminated) :
    ∃ pcb', s'.processes.get? pid = some pcb' ∧ pcb'.state = .terminated ∧ s'.currentProcess ≠ some pid := by
  induction later with
  | refl => exact ⟨pcb, found, ended, inv.not_current found ended⟩
  | @tail mid last earlier step ih =>
      obtain ⟨midPcb, midFound, midEnded, -⟩ := ih
      have midInv := currentRunning_of_reachable inv earlier
      obtain ⟨pcb', found', ended'⟩ := terminated_step midInv step midFound midEnded
      exact ⟨pcb', found', ended', (currentRunning_step midInv step).not_current found' ended'⟩

end Terminated

-- What each call may do to the states of the PCBs of `s`, and what no run from `s` undoes.
structure FollowsLifecycle (s : ProcessService) : Prop where
  createProcess : ∀ name priority stackSize heapSize pid s',
    s.createProcess name priority stackSize heapSize = .ok (pid, s') → Moves (fun _ _ => False) s s'
  terminateProcess : ∀ pid exitCode s', s.terminateProcess pid exitCode = .ok s' →
    Moves (fun _ after => after = .terminated) s s'
  scheduleNext : ∀ context next s' context', s.scheduleNext context = (next, s', context') →
    Moves (fun before after => before = .ready ∧ after = .running) s s'
  blockCurrentProcess : ∀ s', s.blockCurrentProcess = .ok s' →
    Moves (fun before after => before = .running ∧ after = .blocked) s s'
  unblockProcess : ∀ pid s', s.unblockProcess pid = .ok s' →
    Moves (fun before after => before = .blocked ∧ after = .ready) s s'
  updateCpuTime : ∀ pid timeDelta s', s.updateCpuTime pid timeDelta = .ok s' → Moves (fun _ _ => False) s s'
  setPriority : ∀ pid priority s', s.setPriority pid priority = .ok s' → Moves (fun _ _ => False) s s'
  terminated : ∀ pid pcb, s.processes.get? pid = some pcb → pcb.state = .terminated →
    ∀ s', Relation.ReflTransGen Step s s' →
      ∃ pcb', s'.processes.get? pid = some pcb' ∧ pcb'.state = .terminated ∧ s'.currentProcess ≠ some pid

theorem process_states_follow_lifecycle {initial s : ProcessService} (initialized : new.init = .ok initial)
    (reachable : Relation.ReflTransGen Step initial s) : FollowsLifecycle s := by
  have inv := reachable_currentRunning initialized reachable
  exact ⟨fun _ _ _ _ _ _ created => moves_createProcess inv created,
    fun _ _ _ terminated => moves_terminateProcess terminated,
    fun _ _ _ _ scheduled => moves_scheduleNext scheduled,
    fun _ blocked => moves_blockCurrentProcess inv blocked,
    fun _ _ unblocked => moves_unblockProcess unblocked,
    fun _ _ _ updated => moves_updateCpuTime updated,
    fun _ _ _ prioritized => moves_setPriority prioritized,
    fun _ _ found ended _ later => terminated_forever inv later found ended⟩

theorem lifecycle_after_init : ∃ initial, new.init = .ok initial ∧ FollowsLifecycle initial := by
  obtain ⟨initial, initialized⟩ : ∃ initial, new.init = .ok initial := ⟨_, Checked.eq_ok_of_toOption rfl⟩
  exact ⟨initial, initialized, process_states_follow_lifecycle initialized .refl⟩

section Stats

theorem countP_states (pcbs : List ProcessControlBlock) :
    pcbs.countP (fun pcb => pcb.state = .running) + pcbs.countP (fun pcb => pcb.state = .ready) +
      pcbs.countP (fun pcb => pcb.state = .blocked) + pcbs.countP (fun pcb => pcb.state = .terminated) +
      pcbs.countP (fun pcb => pcb.state = .zombie) = pcbs.length := by
  induction pcbs with
  | nil => rfl
  | cons pcb rest ih =>
      simp only [List.countP_cons, List.length_cons]
      cases pcb.state <;> simp <;> omega

theorem countInState_sum (s : ProcessService) :
    s.countInState .running + s.countInState .ready + s.countInState .blocked + s.countInState .terminated +
      s.countInState .zombie = s.processes.size := by
  unfold countInState SortedMap.size
  rw [← List.length_map (f := Prod.snd)]
  exact countP_states s.processes.values

theorem countInState_pos {s : ProcessService} {pid : Nat} {pcb : ProcessControlBlock} {state : ProcessState}
    (found : s.processes.get? pid = some pcb) (inState : pcb.state = state) : 0 < s.countInState state := by
  unfold countInState SortedMap.values
  refine List.countP_pos_iff.mpr ⟨pcb, ?_, by simp [inState]⟩
  exact List.mem_map.mpr ⟨(pid, pcb), (SortedMap.get?_eq_some_iff _ _ _).mp found, rfl⟩

theorem countInState_eq_zero {s : ProcessService} {state : ProcessState}
    (absent : ∀ pid pcb, s.processes.get? pid = some pcb → pcb.state ≠ state) : s.countInState state = 0 := by
  unfold countInState SortedMap.values
  refine List.countP_eq_zero.mpr fun pcb member => ?_
  obtain ⟨⟨pid, pcb'⟩, entry, rfl⟩ := List.mem_map.mp member
  simpa using absent pid _ ((SortedMap.get?_eq_some_iff _ _ _).mpr entry)

def NoZombie (s : ProcessService) : Prop :=
  ∀ pid pcb, s.processes.get? pid = some pcb → pcb.state ≠ .zombie

theorem noZombie_modify {s s' : ProcessService} {pid : Nat} {f : ProcessControlBlock → ProcessControlBlock}
    (held : NoZombie s) (processes : s'.processes = s.processes.modify pid f)
    (sets : ∀ pcb, (f pcb).state = pcb.state ∨ (f pcb).state ≠ .zombie) : NoZombie s' := by
  intro key pcb found
  rw [processes] at found
  obtain ⟨old, oldFound, rfl⟩ := SortedMap.get?_modify_eq_some found
  split
  · rcases sets old with same | other
    · rw [same]
      exact held key old oldFound
    · exact other
  · exact held key old oldFound

theorem noZombie_init {s : ProcessService} (initialized : new.init = .ok s) : NoZombie s := by
  rw [init_eq_ok] at initialized
  subst initialized
  intro key pcb found
  rw [SortedMap.get?_insert] at found
  split at found
  · cases found
    simp
  · cases found

theorem noZombie_step {s s' : ProcessService} (held : NoZombie s) (step : Step s s') : NoZombie s' := by
  cases step with
  | createProcess name priority stackSize heapSize pid created =>
      obtain ⟨heapStart, -, -, -, rfl⟩ := createProcess_eq_ok created
      intro key pcb found
      rw [SortedMap.get?_insert] at found
      split at found
      · -- the new process starts Ready
        cases found
        simp
      · exact held key pcb found
  | terminateProcess pid exitCode terminated =>
      obtain ⟨-, rfl⟩ := terminateProcess_eq_ok.mp terminated
      exact noZombie_modify held rfl fun _ => .inr (by simp)
  | scheduleNext context context' next scheduled =>
      rcases scheduleNext_eq scheduled with rfl | ⟨pid, -, processes, -, -⟩
      · exact held
      · exact noZombie_modify held processes fun _ => .inr (by simp)
  | blockCurrentProcess blocked =>
      obtain ⟨pid, -, -, rfl⟩ := blockCurrentProcess_eq_ok.mp blocked
      exact noZombie_modify held rfl fun _ => .inr (by simp)
  | unblockProcess pid unblocked =>
      obtain ⟨pcb, -, -, rfl⟩ := unblockProcess_eq_ok.mp unblocked
      exact noZombie_modify held rfl fun _ => .inr (by simp)
  | updateCpuTime pid timeDelta updated =>
      rcases updateCpuTime_eq_ok updated with rfl | ⟨cpuTime, rfl⟩
      · exact held
      · exact noZombie_modify held rfl fun _ => .inl rfl
  | setPriority pid priority prioritized =>
      obtain ⟨-, rfl⟩ := setPriority_eq_ok.mp prioritized
      exact noZombie_modify held rfl fun _ => .inl rfl

end Stats

-- No call makes a process a Zombie, so the four counts cover every process.
theorem system_stats_account_for_every_process {initial s : ProcessService} (initialized : new.init = .ok initial)
    (reachable : Relation.ReflTransGen Step initial s) :
    s.getSystemStats.runningProcesses + s.getSystemStats.readyProcesses + s.getSystemStats.blockedProcesses +
        s.getSystemStats.terminatedProcesses = s.getSystemStats.totalProcesses ∧
      (s.getSystemStats.currentProcess.isSome → 0 < s.getSystemStats.runningProcesses) := by
  have noZombie : NoZombie s := by
    induction reachable with
    | refl => exact noZombie_init initialized
    | tail _ step ih => exact noZombie_step ih step
  have zombies := countInState_eq_zero noZombie
  have sum := countInState_sum s
  refine ⟨by simp only [getSystemStats]; omega, fun current => ?_⟩
  obtain ⟨pid, chosen⟩ := Option.isSome_iff_exists.mp current
  obtain ⟨pcb, found, running⟩ := (reachable_currentRunning initialized reachable).running pid chosen
  exact countInState_pos found running

theorem stats_after_init :
    ∃ initial, new.init = .ok initial ∧
      initial.getSystemStats.runningProcesses + initial.getSystemStats.readyProcesses +
          initial.getSystemStats.blockedProcesses + initial.getSystemStats.terminatedProcesses =
        initial.getSystemStats.totalProcesses ∧
      (initial.getSystemStats.currentProcess.isSome → 0 < initial.getSystemStats.runningProcesses) := by
  obtain ⟨initial, initialized⟩ : ∃ initial, new.init = .ok initial := ⟨_, Checked.eq_ok_of_toOption rfl⟩
  exact ⟨initial, initialized, system_stats_account_for_every_process initialized .refl⟩

end ProcessService

end Emos.Services
