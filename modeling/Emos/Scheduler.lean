import Mathlib
import Emos.Lib.Checked

set_option autoImplicit false

/- The timer-driven task queue of scheduler.rs and the PIT set-up before it. A task is a pinned
   future; what `on_tick` needs of it is what one poll prints, whether the poll returned `Ready`
   or `Pending`, and the future as the poll left it, so a task type comes with a `poll` giving
   those three. The `VecDeque` is a list (`pop_front` takes the head, `push_back` appends), and
   the console is the list of the texts `print!` wrote. -/
namespace Emos.Scheduler

open Checked

inductive Poll where
  | ready
  | pending
deriving DecidableEq, Repr

structure Polled (Task : Type) where
  printed : List String
  result : Poll
  task : Task

section Queue

variable {Task : Type} (poll : Task → Polled Task)

def spawn (queue : List Task) (task : Task) : List Task := queue ++ [task]

-- `on_tick`: the front task is polled once; a finished one is dropped, a pending one goes to
-- the back.
def onTick (queue : List Task) : List String × List Task :=
  match queue with
  | [] => ([], [])
  | task :: rest =>
      let polled := poll task
      match polled.result with
      | .ready => (polled.printed ++ ["[task done]"], rest)
      | .pending => (polled.printed, rest ++ [polled.task])

def ticks : Nat → List Task → List String × List Task
  | 0, queue => ([], queue)
  | n + 1, queue =>
      let tick := onTick poll queue
      let later := ticks n tick.2
      (tick.1 ++ later.1, later.2)

def report (polled : Polled Task) : List String :=
  match polled.result with
  | .ready => polled.printed ++ ["[task done]"]
  | .pending => polled.printed

def requeued (polled : Polled Task) : List Task :=
  match polled.result with
  | .ready => []
  | .pending => [polled.task]

theorem onTick_cons (task : Task) (rest : List Task) :
    onTick poll (task :: rest) = (report (poll task), rest ++ requeued (poll task)) := by
  simp only [onTick, report, requeued]
  cases (poll task).result <;> simp

@[simp] theorem ticks_zero (queue : List Task) : ticks poll 0 queue = ([], queue) := rfl

theorem ticks_add (m n : Nat) (queue : List Task) :
    ticks poll (m + n) queue =
      ((ticks poll m queue).1 ++ (ticks poll n (ticks poll m queue).2).1, (ticks poll n (ticks poll m queue).2).2) := by
  induction m generalizing queue with
  | zero => simp
  | succ m ih =>
      rw [Nat.succ_add]
      simp [ticks, ih]

theorem ticks_round (queue : List Task) (n : Nat) (within : n ≤ queue.length) :
    ticks poll n queue =
      ((queue.take n).flatMap (fun task => report (poll task)),
        queue.drop n ++ (queue.take n).flatMap (fun task => requeued (poll task))) := by
  induction n generalizing queue with
  | zero => simp
  | succ n ih =>
      cases queue with
      | nil => simp at within
      | cons task rest =>
          have fits : n ≤ rest.length := by simpa using within
          have later := ih (rest ++ requeued (poll task)) (by simp; omega)
          simp only [ticks, onTick_cons, later, List.take_succ_cons, List.drop_succ_cons,
            List.flatMap_cons, List.take_append_of_le_length fits, List.drop_append_of_le_length fits,
            List.append_assoc]

theorem ticks_idle (queue : List Task) (idle : ∀ task ∈ queue, poll task = ⟨[], .pending, task⟩) (n : Nat) :
    ticks poll n queue = ([], queue.rotate n) := by
  induction n generalizing queue with
  | zero => simp
  | succ n ih =>
      cases queue with
      | nil => simp [ticks, onTick, ih [] (by simp)]
      | cons task rest =>
          have polled := idle task (by simp)
          have moved : ∀ other ∈ rest ++ [task], poll other = ⟨[], .pending, other⟩ := by
            intro other member
            apply idle
            simp only [List.mem_append, List.mem_singleton] at member
            rcases member with inRest | rfl
            · exact List.mem_cons_of_mem task inRest
            · exact List.mem_cons_self
          simp [ticks, onTick_cons, polled, report, requeued, ih _ moved, List.rotate_cons_succ]

theorem on_tick_round_polls_each_task_once (queue : List Task) :
    ticks poll queue.length queue =
      (queue.flatMap (fun task => report (poll task)), queue.flatMap (fun task => requeued (poll task))) := by
  have round := ticks_round poll queue queue.length le_rfl
  simpa using round

end Queue

-- The futures of `spawn_demo_tasks`: before their first poll, or stopped at `yield_task().await`
-- with the loop counter `i`.
inductive DemoTask where
  | start (letter : String)
  | yielding (letter : String) (i : Nat)
deriving DecidableEq, Repr

namespace DemoTask

-- One pass of the loop up to its await: `print!`, `i += 1`, and the first poll of a fresh
-- `yield_task`, which is `poll_fn(|_| Poll::Pending)` and so Pending.
def iteration (letter : String) (i : Nat) : Polled DemoTask :=
  ⟨["[" ++ letter ++ toString i ++ "]"], .pending, .yielding letter (i + 1)⟩

-- A later poll resumes at the await and polls the same `yield_task`, Pending again: the loop
-- never gets past its first await.
def poll : DemoTask → Polled DemoTask
  | .start letter => iteration letter 0
  | .yielding letter i => ⟨[], .pending, .yielding letter i⟩

end DemoTask

def spawnDemoTasks (queue : List DemoTask) : List DemoTask :=
  spawn (spawn queue (.start "A")) (.start "B")

-- From the empty queue, the first two interrupts print the first pass of each loop and every
-- later one only rotates the two tasks: the output stays "[A0][B0]" and no task finishes.
theorem demo_tasks_print_once (n : Nat) :
    ticks DemoTask.poll (n + 2) (spawnDemoTasks []) =
      (["[A0]", "[B0]"], [DemoTask.yielding "A" 1, .yielding "B" 1].rotate n) := by
  have first := ticks_round DemoTask.poll (spawnDemoTasks []) 2 le_rfl
  have waiting : ∀ task ∈ [DemoTask.yielding "A" 1, .yielding "B" 1], DemoTask.poll task = ⟨[], .pending, task⟩ := by
    simp [DemoTask.poll]
  rw [Nat.add_comm, ticks_add, first]
  simp [spawnDemoTasks, spawn, DemoTask.poll, DemoTask.iteration, report, requeued,
    ticks_idle DemoTask.poll _ waiting]
  exact ⟨by decide, by decide⟩

def pitFrequency : Nat := 1193180

-- `init_pit`: the bytes written to the command port and to channel 0, in order, and the text
-- printed. `hz` is a `u32`, and `as u16` keeps the low 16 bits of the quotient.
def initPit (hz : Nat) : Except Panic (List (Nat × Nat) × List String) := do
  let divisor := (← div pitFrequency hz) % 2 ^ 16
  pure ([(0x43, 0x36), (0x40, (divisor &&& 0xFF) % 2 ^ 8), (0x40, (divisor >>> 8) % 2 ^ 8)],
    ["[PIT init " ++ toString hz ++ " Hz]"])

theorem bytes_recombine (divisor : Nat) (word : divisor < 2 ^ 16) :
    (divisor >>> 8) % 2 ^ 8 * 2 ^ 8 + (divisor &&& 0xFF) % 2 ^ 8 = divisor := by
  have low : divisor &&& 0xFF = divisor % 2 ^ 8 := Nat.and_two_pow_sub_one_eq_mod divisor 8
  have high : divisor >>> 8 = divisor / 2 ^ 8 := Nat.shiftRight_eq_div_pow divisor 8
  rw [low, high]
  omega

theorem quotient_fits_iff (hz : Nat) (positive : 0 < hz) : pitFrequency / hz < 2 ^ 16 ↔ 19 ≤ hz := by
  rw [Nat.div_lt_iff_lt_mul positive, pitFrequency]
  omega

-- Below 19 Hz the quotient no longer fits 16 bits and `as u16` cuts it.
theorem init_pit_reload_exact_from_nineteen_hz (hz : Nat) :
    (hz = 0 ∧ initPit hz = .error divideByZero) ∨
    (0 < hz ∧ ∃ low high, initPit hz = .ok ([(0x43, 0x36), (0x40, low), (0x40, high)], ["[PIT init " ++ toString hz ++ " Hz]"]) ∧
      low < 2 ^ 8 ∧ high < 2 ^ 8 ∧ high * 2 ^ 8 + low = pitFrequency / hz % 2 ^ 16 ∧
      (high * 2 ^ 8 + low = pitFrequency / hz ↔ 19 ≤ hz)) := by
  rcases Nat.eq_zero_or_pos hz with rfl | positive
  · exact .inl ⟨rfl, rfl⟩
  · right
    set divisor := pitFrequency / hz % 2 ^ 16 with divisor_def
    have word : divisor < 2 ^ 16 := Nat.mod_lt _ (by decide)
    refine ⟨positive, (divisor &&& 0xFF) % 2 ^ 8, (divisor >>> 8) % 2 ^ 8, ?_, Nat.mod_lt _ (by decide),
      Nat.mod_lt _ (by decide), bytes_recombine divisor word, ?_⟩
    · simp [initPit, positive, divisor_def, bind, Except.bind, pure, Except.pure]
    · rw [bytes_recombine divisor word, divisor_def, Nat.mod_eq_iff_lt (by decide)]
      exact quotient_fits_iff hz positive

end Emos.Scheduler
