import Mathlib
import Emos.Lib.BoundedQueue
import Emos.Lib.Checked
import Emos.Lib.SortedMap
import Emos.Lib.Trace

set_option autoImplicit false

/- The async executor of task/executor.rs and the tasks of task/mod.rs. A task is a future
   behind its id; what polling it does is the future's own code, so a poll is given as a function
   of the future and the waker it is handed, and every run below quantifies over it. The wake
   queue is the `ArrayQueue` of capacity 100, and a waker is the id it pushes: wakers are cloned
   freely and outlive their task, so a wake of any id may come at any time, also in the middle of
   a poll, where it commutes with the poll's own updates of the two maps. `NEXT_ID` is the
   counter of `TaskId::new`, an atomic `fetch_add` that wraps. -/
namespace Emos.Tasks

open Checked

inductive Poll where
  | ready
  | pending
deriving DecidableEq, Repr

structure Task (Future : Type) where
  id : Nat
  future : Future

structure TaskWaker where
  taskId : Nat
deriving DecidableEq, Repr

def taskQueueCapacity : Nat := 100

structure Executor (Future : Type) where
  tasks : SortedMap Nat (Task Future)
  taskQueue : BoundedQueue Nat taskQueueCapacity
  wakerCache : SortedMap Nat TaskWaker

inductive Label where
  | created (taskId : Nat)
  | spawned (taskId : Nat)
  | woken (taskId : Nat)
  | skipped (taskId : Nat)
  | polled (taskId : Nat) (result : Poll)
deriving DecidableEq, Repr

def Label.createdId : Label → Option Nat
  | .created taskId => some taskId
  | _ => none

def Label.queuedId : Label → Option Nat
  | .spawned taskId => some taskId
  | .woken taskId => some taskId
  | _ => none

def Label.handledId : Label → Option Nat
  | .skipped taskId => some taskId
  | .polled taskId _ => some taskId
  | _ => none

variable {Future : Type}

-- `TaskId::new`: the id is the counter before the increment.
def Task.new (nextId : Nat) (future : Future) : Task Future × Nat :=
  (⟨nextId, future⟩, wrappingAdd 64 nextId 1)

-- `Result::expect` on a push: the message, then the id handed back, as `{:?}` prints it.
def expectPushed (message : String) : Except Nat (BoundedQueue Nat taskQueueCapacity) →
    Except Panic (BoundedQueue Nat taskQueueCapacity)
  | .ok queue => .ok queue
  | .error taskId => .error ⟨message ++ ": TaskId(" ++ toString taskId ++ ")"⟩

def duplicateTask : Panic := ⟨"task with same ID already in tasks"⟩

namespace Executor

def new : Executor Future := ⟨.empty, .empty, .empty⟩

-- The task is inserted first, and the id was taken when `insert` hands back an old task.
def spawn (self : Executor Future) (task : Task Future) : Except Panic (Executor Future) := do
  let taskId := task.id
  let replaced := (self.tasks.get? task.id).isSome
  let self := { self with tasks := self.tasks.insert task.id task }
  if replaced then throw duplicateTask
  let taskQueue ← expectPushed "queue full" (self.taskQueue.push taskId)
  pure { self with taskQueue := taskQueue }

def wakeTask (self : Executor Future) (waker : TaskWaker) : Except Panic (Executor Future) := do
  let taskQueue ← expectPushed "task_queue full" (self.taskQueue.push waker.taskId)
  pure { self with taskQueue := taskQueue }

-- One pass of the `while let` loop of `run_ready_tasks`, none once the queue is empty. A
-- finished task goes with its cached waker; a pending one keeps the future as the poll left it.
def runReadyTask (self : Executor Future) (poll : Future → TaskWaker → Poll × Future) :
    Option (Label × Executor Future) :=
  match self.taskQueue.pop with
  | (none, _) => none
  | (some taskId, taskQueue) =>
      match self.tasks.get? taskId with
      | none => some (.skipped taskId, { self with taskQueue := taskQueue })
      | some task =>
          -- `waker_cache.entry(task_id).or_insert_with(...)`
          let wakerCache :=
            if (self.wakerCache.get? taskId).isSome then self.wakerCache else self.wakerCache.insert taskId ⟨taskId⟩
          let waker := (wakerCache.get? taskId).getD ⟨taskId⟩
          match poll task.future waker with
          | (.ready, _) => some (.polled taskId .ready, ⟨self.tasks.erase taskId, taskQueue, wakerCache.erase taskId⟩)
          | (.pending, future) =>
              some (.polled taskId .pending, ⟨self.tasks.insert taskId { task with future := future }, taskQueue, wakerCache⟩)

section Effects

def Live (self : Executor Future) (taskId : Nat) : Prop := (self.tasks.get? taskId).isSome

def Cached (self : Executor Future) (taskId : Nat) : Prop := (self.wakerCache.get? taskId).isSome

theorem spawn_effect {self self' : Executor Future} {task : Task Future} (spawned : self.spawn task = .ok self') :
    ¬self.Live task.id ∧ (∀ taskId, self'.Live taskId ↔ self.Live taskId ∨ taskId = task.id) ∧
      ∀ taskId, self'.Cached taskId ↔ self.Cached taskId := by
  unfold spawn at spawned
  by_cases replaced : (self.tasks.get? task.id).isSome
  · simp [replaced, throw, throwThe, MonadExceptOf.throw, bind, Except.bind] at spawned
  · cases pushed : expectPushed "queue full" (self.taskQueue.push task.id) with
    | error e => simp [replaced, pushed, bind, Except.bind] at spawned
    | ok queue =>
        simp only [replaced, pushed, bind, Except.bind, pure, Except.pure, Bool.false_eq_true, if_false,
          Except.ok.injEq] at spawned
        subst spawned
        refine ⟨replaced, fun taskId => ?_, fun taskId => Iff.rfl⟩
        by_cases same : taskId = task.id
        · simp [Live, same]
        · simp [Live, same, SortedMap.get?_insert_of_ne _ _ _ _ same]

theorem spawn_ok {self : Executor Future} {task : Task Future} (fresh : ¬self.Live task.id)
    (room : self.taskQueue.items.length < taskQueueCapacity) : ∃ self', self.spawn task = .ok self' := by
  simp only [Live, Bool.not_eq_true, Option.isSome_eq_false_iff, Option.isNone_iff_eq_none] at fresh
  simp [spawn, fresh, BoundedQueue.push, room, expectPushed, bind, Except.bind, pure, Except.pure]

theorem wakeTask_effect {self self' : Executor Future} {waker : TaskWaker} (woken : self.wakeTask waker = .ok self') :
    (∀ taskId, self'.Live taskId ↔ self.Live taskId) ∧ ∀ taskId, self'.Cached taskId ↔ self.Cached taskId := by
  unfold wakeTask at woken
  cases pushed : expectPushed "task_queue full" (self.taskQueue.push waker.taskId) with
  | error e => simp [pushed, bind, Except.bind] at woken
  | ok queue =>
      simp only [pushed, bind, Except.bind, pure, Except.pure, Except.ok.injEq] at woken
      subst woken
      exact ⟨fun _ => Iff.rfl, fun _ => Iff.rfl⟩

theorem cached_orInsert (cache : SortedMap Nat TaskWaker) (taskId k : Nat) :
    ((if (cache.get? taskId).isSome then cache else cache.insert taskId ⟨taskId⟩).get? k).isSome ↔
      (cache.get? k).isSome ∨ k = taskId := by
  by_cases same : k = taskId
  · subst same
    split_ifs with present <;> simp [present]
  · split_ifs <;> simp [same, SortedMap.get?_insert_of_ne _ _ _ _ same]

theorem runReadyTask_effect {self self' : Executor Future} {poll : Future → TaskWaker → Poll × Future}
    {label : Label} (ran : self.runReadyTask poll = some (label, self')) :
    ∃ taskId,
      (label = .skipped taskId ∧ ¬self.Live taskId ∧
        ∀ k, (self'.Live k ↔ self.Live k) ∧ (self'.Cached k ↔ self.Cached k)) ∨
      (label = .polled taskId .pending ∧ self.Live taskId ∧
        ∀ k, (self'.Live k ↔ self.Live k) ∧ (self'.Cached k ↔ self.Cached k ∨ k = taskId)) ∨
      (label = .polled taskId .ready ∧ self.Live taskId ∧
        ∀ k, (self'.Live k ↔ self.Live k ∧ k ≠ taskId) ∧ (self'.Cached k ↔ self.Cached k ∧ k ≠ taskId)) := by
  unfold runReadyTask at ran
  rcases popped : self.taskQueue.pop with ⟨_ | taskId, queue⟩ <;> simp only [popped] at ran
  · cases ran
  refine ⟨taskId, ?_⟩
  rcases found : self.tasks.get? taskId with _ | task <;> simp only [found] at ran
  · -- a stale id: the task has finished and only the queue changes
    obtain ⟨rfl, rfl⟩ := Prod.mk.inj (Option.some.inj ran)
    exact .inl ⟨rfl, by simp [Live, found], fun k => ⟨Iff.rfl, Iff.rfl⟩⟩
  have live : self.Live taskId := by simp [Live, found]
  split at ran
  · -- the future returned `Ready`
    obtain ⟨rfl, rfl⟩ := Prod.mk.inj (Option.some.inj ran)
    refine .inr (.inr ⟨rfl, live, fun k => ⟨?_, ?_⟩⟩)
    · by_cases same : k = taskId
      · simp [Live, same]
      · simp [Live, same, SortedMap.get?_erase_of_ne _ _ _ same]
    · by_cases same : k = taskId
      · simp [Cached, same]
      · simp only [Cached, SortedMap.get?_erase_of_ne _ _ _ same, cached_orInsert]
        simp [same]
  · obtain ⟨rfl, rfl⟩ := Prod.mk.inj (Option.some.inj ran)
    refine .inr (.inl ⟨rfl, live, fun k => ⟨?_, cached_orInsert _ _ _⟩⟩)
    by_cases same : k = taskId
    · simp [Live, same, found]
    · simp [Live, SortedMap.get?_insert_of_ne _ _ _ _ same]

theorem spawn_pushed {self self' : Executor Future} {task : Task Future} (spawned : self.spawn task = .ok self') :
    self.taskQueue.push task.id = .ok self'.taskQueue := by
  unfold spawn at spawned
  by_cases replaced : (self.tasks.get? task.id).isSome
  · simp [replaced, throw, throwThe, MonadExceptOf.throw, bind, Except.bind] at spawned
  · cases pushed : self.taskQueue.push task.id with
    | error taskId => simp [replaced, pushed, expectPushed, bind, Except.bind] at spawned
    | ok queue =>
        simp only [replaced, pushed, expectPushed, bind, Except.bind, pure, Except.pure, Bool.false_eq_true,
          if_false, Except.ok.injEq] at spawned
        subst spawned
        rfl

theorem wakeTask_pushed {self self' : Executor Future} {waker : TaskWaker} (woken : self.wakeTask waker = .ok self') :
    self.taskQueue.push waker.taskId = .ok self'.taskQueue := by
  unfold wakeTask at woken
  cases pushed : self.taskQueue.push waker.taskId with
  | error taskId => simp [pushed, expectPushed, bind, Except.bind] at woken
  | ok queue =>
      simp only [pushed, expectPushed, bind, Except.bind, pure, Except.pure, Except.ok.injEq] at woken
      subst woken
      rfl

theorem runReadyTask_popped {self self' : Executor Future} {poll : Future → TaskWaker → Poll × Future}
    {label : Label} (ran : self.runReadyTask poll = some (label, self')) :
    self.taskQueue.pop = (label.handledId, self'.taskQueue) := by
  unfold runReadyTask at ran
  rcases popped : self.taskQueue.pop with ⟨_ | taskId, queue⟩ <;> simp only [popped] at ran
  · cases ran
  rcases found : self.tasks.get? taskId with _ | task <;> simp only [found] at ran
  · obtain ⟨rfl, rfl⟩ := Prod.mk.inj (Option.some.inj ran)
    rfl
  split at ran <;>
  · obtain ⟨rfl, rfl⟩ := Prod.mk.inj (Option.some.inj ran)
    rfl

theorem runReadyTask_eq_none_iff {self : Executor Future} {poll : Future → TaskWaker → Poll × Future} :
    self.runReadyTask poll = none ↔ self.taskQueue.items = [] := by
  rw [← BoundedQueue.pop_eq_none_iff]
  unfold runReadyTask
  rcases self.taskQueue.pop with ⟨_ | taskId, queue⟩
  · simp
  · refine iff_of_false ?_ (by simp)
    dsimp only
    split
    · simp
    · split <;> simp

end Effects

end Executor

-- The executor together with the counter of `TaskId::new` and the tasks made and not yet spawned.
structure World (Future : Type) where
  executor : Executor Future
  nextId : Nat
  unspawned : List (Task Future)

def World.initial : World Future := ⟨Executor.new, 0, []⟩

-- Any interleaving of `Task::new`, `spawn` of a task made and not yet spawned, a wake of any id,
-- and a pass of `run_ready_tasks` with any poll; a push to a full queue is a panic and ends the
-- run.
inductive Step : World Future → Label → World Future → Prop
  | create (world : World Future) (future : Future) :
      Step world (.created world.nextId)
        { world with nextId := (Task.new world.nextId future).2,
                     unspawned := world.unspawned ++ [(Task.new world.nextId future).1] }
  | spawn (world : World Future) (before after : List (Task Future)) (task : Task Future)
      (made : world.unspawned = before ++ task :: after) (executor : Executor Future)
      (spawned : world.executor.spawn task = .ok executor) :
      Step world (.spawned task.id) { world with executor := executor, unspawned := before ++ after }
  | wake (world : World Future) (waker : TaskWaker) (executor : Executor Future)
      (woken : world.executor.wakeTask waker = .ok executor) :
      Step world (.woken waker.taskId) { world with executor := executor }
  | run (world : World Future) (poll : Future → TaskWaker → Poll × Future) (label : Label)
      (executor : Executor Future) (ran : world.executor.runReadyTask poll = some (label, executor)) :
      Step world label { world with executor := executor }

section Safety

-- What every reachable world keeps: wakers are cached only for live tasks, every id in use was
-- handed out by the counter, and each task made and not yet spawned has an id of its own.
structure Invariant (world : World Future) : Prop where
  cached : ∀ taskId, world.executor.Cached taskId → world.executor.Live taskId
  liveBelow : ∀ taskId, world.executor.Live taskId → taskId < world.nextId
  unspawnedBelow : ∀ task ∈ world.unspawned, task.id < world.nextId
  unspawnedDistinct : (world.unspawned.map Task.id).Nodup
  unspawnedNotLive : ∀ task ∈ world.unspawned, ¬world.executor.Live task.id

-- An id that is done with: handed out, and no task of it in the executor or waiting to be spawned.
def Retired (world : World Future) (taskId : Nat) : Prop :=
  taskId < world.nextId ∧ ¬world.executor.Live taskId ∧ ∀ task ∈ world.unspawned, task.id ≠ taskId

def PolledAfterReady (labels : List Label) : Prop :=
  ∃ pre taskId post result, labels = pre ++ [.polled taskId .ready] ++ post ∧ .polled taskId result ∈ post

-- What holds after every trace from the initial world: the ids handed out are 0, 1, and so on in
-- order, the invariant holds, every finished id is retired, and no finished task was polled again.
structure Safe (labels : List Label) (world : World Future) : Prop where
  created : labels.filterMap Label.createdId = List.range world.nextId
  invariant : Invariant world
  retired : ∀ taskId, .polled taskId .ready ∈ labels → Retired world taskId
  noRepoll : ¬PolledAfterReady labels

theorem Invariant.of_executor {world : World Future} {executor : Executor Future} (invariant : Invariant world)
    (live : ∀ taskId, executor.Live taskId → world.executor.Live taskId)
    (cached : ∀ taskId, executor.Cached taskId → executor.Live taskId) :
    Invariant { world with executor := executor } where
  cached := cached
  liveBelow taskId alive := invariant.liveBelow taskId (live taskId alive)
  unspawnedBelow := invariant.unspawnedBelow
  unspawnedDistinct := invariant.unspawnedDistinct
  unspawnedNotLive task made alive := invariant.unspawnedNotLive task made (live task.id alive)

theorem Retired.of_executor {world : World Future} {executor : Executor Future} {taskId : Nat}
    (retired : Retired world taskId) (live : ∀ taskId, executor.Live taskId → world.executor.Live taskId) :
    Retired { world with executor := executor } taskId :=
  ⟨retired.1, fun alive => retired.2.1 (live taskId alive), retired.2.2⟩

theorem not_polledAfterReady_append {labels : List Label} {label : Label} (before : ¬PolledAfterReady labels)
    (fresh : ∀ taskId result, label = .polled taskId result → .polled taskId .ready ∉ labels) :
    ¬PolledAfterReady (labels ++ [label]) := by
  rintro ⟨pre, taskId, post, result, split, member⟩
  rcases List.eq_nil_or_concat post with rfl | ⟨post, last, rfl⟩
  · simp at member
  · rw [List.concat_eq_append, ← List.append_assoc] at split
    rw [List.concat_eq_append] at member
    obtain ⟨earlier, same⟩ := List.append_inj' split rfl
    rcases List.mem_append.mp member with inPost | isLast
    · exact before ⟨pre, taskId, post, result, earlier, inPost⟩
    · simp only [List.mem_singleton] at isLast
      simp only [List.cons.injEq, and_true] at same
      exact fresh taskId result (same.trans isLast.symm) (by simp [earlier])

theorem createdId_append_of_none {labels : List Label} {label : Label} (other : label.createdId = none) :
    (labels ++ [label]).filterMap Label.createdId = labels.filterMap Label.createdId := by
  simp [List.filterMap_append, other]

theorem Safe.noRepoll_append {labels : List Label} {world : World Future} (safe : Safe labels world)
    {label : Label} (live : ∀ taskId result, label = .polled taskId result → world.executor.Live taskId) :
    ¬PolledAfterReady (labels ++ [label]) :=
  not_polledAfterReady_append safe.noRepoll fun taskId result polled earlier =>
    (safe.retired taskId earlier).2.1 (live taskId result polled)

theorem Safe.of_executor {labels : List Label} {world : World Future} (safe : Safe labels world)
    {label : Label} {executor : Executor Future} (other : label.createdId = none)
    (unfinished : ∀ taskId, label ≠ .polled taskId .ready)
    (polledLive : ∀ taskId result, label = .polled taskId result → world.executor.Live taskId)
    (kept : ∀ taskId, executor.Live taskId → world.executor.Live taskId)
    (cached : ∀ taskId, executor.Cached taskId → executor.Live taskId) :
    Safe (labels ++ [label]) { world with executor := executor } where
  created := by rw [createdId_append_of_none other, safe.created]
  invariant := safe.invariant.of_executor kept cached
  retired taskId finished := by
    rcases List.mem_append.mp finished with earlier | now
    · exact (safe.retired taskId earlier).of_executor kept
    · exact absurd (List.mem_singleton.mp now).symm (unfinished taskId)
  noRepoll := safe.noRepoll_append polledLive

theorem safe_create {labels : List Label} {world : World Future} (safe : Safe labels world) (future : Future)
    (fewer : ((labels ++ [Label.created world.nextId]).filterMap Label.createdId).length < 2 ^ 64) :
    Safe (labels ++ [Label.created world.nextId])
      { world with nextId := (Task.new world.nextId future).2,
                   unspawned := world.unspawned ++ [(Task.new world.nextId future).1] } := by
  have handed : (labels ++ [Label.created world.nextId]).filterMap Label.createdId = List.range (world.nextId + 1) := by
    simp [List.filterMap_append, safe.created, Label.createdId, List.range_succ]
  have bumped : (Task.new world.nextId future).2 = world.nextId + 1 := by
    rw [handed, List.length_range] at fewer
    exact wrappingAdd_of_lt 64 _ 1 fewer
  have invariant := safe.invariant
  refine ⟨by rw [handed, bumped], ⟨invariant.cached, ?_, ?_, ?_, ?_⟩, ?_, ?_⟩
  · intro taskId alive
    have below := invariant.liveBelow taskId alive
    dsimp only
    omega
  · intro task made
    rcases List.mem_append.mp made with old | new
    · have below := invariant.unspawnedBelow task old
      dsimp only
      omega
    · simp only [List.mem_singleton] at new
      subst new
      rw [bumped]
      exact Nat.lt_succ_self _
  · show ((world.unspawned ++ [(Task.new world.nextId future).1]).map Task.id).Nodup
    rw [List.map_append]
    refine List.nodup_append.mpr ⟨invariant.unspawnedDistinct, List.nodup_singleton _, ?_⟩
    intro id old id' fresh same
    obtain ⟨task, made, rfl⟩ := List.mem_map.mp old
    have below := invariant.unspawnedBelow task made
    simp [Task.new] at fresh
    omega
  · intro task made
    rcases List.mem_append.mp made with old | new
    · exact invariant.unspawnedNotLive task old
    · simp only [List.mem_singleton] at new
      subst new
      exact fun alive => Nat.lt_irrefl _ (invariant.liveBelow _ alive)
  · intro taskId finished
    have ready : Label.polled taskId .ready ∈ labels := by simpa using finished
    obtain ⟨below, dead, unmade⟩ := safe.retired taskId ready
    refine ⟨by dsimp only; omega, dead, fun task made => ?_⟩
    rcases List.mem_append.mp made with old | new
    · exact unmade task old
    · simp only [List.mem_singleton] at new
      simp only [new, Task.new]
      omega
  · exact safe.noRepoll_append fun _ _ poll => by cases poll

theorem safe_spawn {labels : List Label} {world : World Future} (safe : Safe labels world)
    {before after : List (Task Future)} {task : Task Future} (made : world.unspawned = before ++ task :: after)
    {executor : Executor Future} (spawned : world.executor.spawn task = .ok executor) :
    Safe (labels ++ [Label.spawned task.id]) { world with executor := executor, unspawned := before ++ after } := by
  obtain ⟨fresh, live, cached⟩ := Executor.spawn_effect spawned
  have invariant := safe.invariant
  have member : task ∈ world.unspawned := by simp [made]
  have stays : ∀ other ∈ before ++ after, other ∈ world.unspawned := by
    intro other kept
    rw [made]
    rcases List.mem_append.mp kept with early | late
    · exact List.mem_append_left _ early
    · exact List.mem_append_right _ (List.mem_cons_of_mem _ late)
  have distinct : (task.id :: (before ++ after).map Task.id).Nodup := by
    have waiting := invariant.unspawnedDistinct
    rw [made, List.map_append, List.map_cons] at waiting
    rw [List.map_append]
    exact List.nodup_middle.mp waiting
  have apart : ∀ other ∈ before ++ after, other.id ≠ task.id := fun other kept same =>
    (List.nodup_cons.mp distinct).1 (same ▸ List.mem_map_of_mem kept)
  refine ⟨?_, ⟨?_, ?_, ?_, (List.nodup_cons.mp distinct).2, ?_⟩, ?_, ?_⟩
  · rw [createdId_append_of_none rfl]
    exact safe.created
  · intro taskId isCached
    exact (live taskId).mpr (.inl (invariant.cached taskId ((cached taskId).mp isCached)))
  · intro taskId alive
    rcases (live taskId).mp alive with old | rfl
    · exact invariant.liveBelow taskId old
    · exact invariant.unspawnedBelow task member
  · intro other kept
    exact invariant.unspawnedBelow other (stays other kept)
  · intro other kept alive
    rcases (live other.id).mp alive with old | same
    · exact invariant.unspawnedNotLive other (stays other kept) old
    · exact apart other kept same
  · intro taskId finished
    obtain ⟨below, dead, unmade⟩ := safe.retired taskId (by simpa using finished)
    refine ⟨below, fun alive => ?_, fun other kept => unmade other (stays other kept)⟩
    rcases (live taskId).mp alive with old | same
    · exact dead old
    · exact unmade task member same.symm
  · exact safe.noRepoll_append fun _ _ poll => by cases poll

theorem safe_wake {labels : List Label} {world : World Future} (safe : Safe labels world) {waker : TaskWaker}
    {executor : Executor Future} (woken : world.executor.wakeTask waker = .ok executor) :
    Safe (labels ++ [Label.woken waker.taskId]) { world with executor := executor } := by
  obtain ⟨live, cached⟩ := Executor.wakeTask_effect woken
  refine safe.of_executor rfl (fun _ poll => by cases poll) (fun _ _ poll => by cases poll)
    (fun taskId => (live taskId).mp) fun taskId isCached => ?_
  exact (live taskId).mpr (safe.invariant.cached taskId ((cached taskId).mp isCached))

theorem safe_run {labels : List Label} {world : World Future} (safe : Safe labels world)
    {poll : Future → TaskWaker → Poll × Future} {label : Label} {executor : Executor Future}
    (ran : world.executor.runReadyTask poll = some (label, executor)) :
    Safe (labels ++ [label]) { world with executor := executor } := by
  have invariant := safe.invariant
  obtain ⟨taskId, ⟨rfl, -, effect⟩ | ⟨rfl, alive, effect⟩ | ⟨rfl, alive, effect⟩⟩ := Executor.runReadyTask_effect ran
  · -- a stale id from the queue is skipped
    refine safe.of_executor rfl (fun _ poll => by cases poll) (fun _ _ poll => by cases poll)
      (fun k => (effect k).1.mp) fun k isCached => ?_
    exact (effect k).1.mpr (invariant.cached k ((effect k).2.mp isCached))
  · -- a pending task stays, with its waker cached
    refine safe.of_executor rfl (fun _ poll => by cases poll) (fun _ _ same => by cases same; exact alive)
      (fun k => (effect k).1.mp) fun k isCached => ?_
    rcases (effect k).2.mp isCached with old | rfl
    · exact (effect k).1.mpr (invariant.cached k old)
    · exact (effect k).1.mpr alive
  · -- a finished task leaves with its waker, and its id is retired
    have kept : ∀ k, executor.Live k → world.executor.Live k := fun k alive => ((effect k).1.mp alive).1
    refine ⟨by rw [createdId_append_of_none rfl, safe.created], invariant.of_executor kept fun k isCached => ?_,
      fun k finished => ?_, safe.noRepoll_append fun _ _ same => by cases same; exact alive⟩
    · obtain ⟨old, other⟩ := (effect k).2.mp isCached
      exact (effect k).1.mpr ⟨invariant.cached k old, other⟩
    · rcases List.mem_append.mp finished with earlier | now
      · exact (safe.retired k earlier).of_executor kept
      · obtain rfl : k = taskId := by simpa using now
        exact ⟨invariant.liveBelow k alive, fun again => ((effect k).1.mp again).2 rfl,
          fun task made same => invariant.unspawnedNotLive task made (same ▸ alive)⟩

theorem safe_step {labels : List Label} {world world' : World Future} {label : Label} (safe : Safe labels world)
    (step : Step world label world') (fewer : ((labels ++ [label]).filterMap Label.createdId).length < 2 ^ 64) :
    Safe (labels ++ [label]) world' := by
  cases step with
  | create future => exact safe_create safe future fewer
  | spawn before after task made executor spawned => exact safe_spawn safe made spawned
  | wake waker executor woken => exact safe_wake safe woken
  | run poll label executor ran => exact safe_run safe ran

theorem invariant_initial : Invariant (World.initial : World Future) where
  cached _ isCached := by simp [Executor.Cached, World.initial, Executor.new] at isCached
  liveBelow _ alive := by simp [Executor.Live, World.initial, Executor.new] at alive
  unspawnedBelow := by simp [World.initial]
  unspawnedDistinct := List.nodup_nil
  unspawnedNotLive := by simp [World.initial]

theorem safe_initial : Safe [] (World.initial : World Future) where
  created := rfl
  invariant := invariant_initial
  retired := by simp
  noRepoll := by
    rintro ⟨pre, _, post, _, split, _⟩
    simp at split

theorem safe_of_run {labels : List Label} {world : World Future} (run : Trace.Run Step World.initial labels world) :
    (labels.filterMap Label.createdId).length < 2 ^ 64 → Safe labels world :=
  @Trace.Run.invariant (World Future) Label Step
    (fun labels world => (labels.filterMap Label.createdId).length < 2 ^ 64 → Safe labels world) _ _ _
    (fun _ => safe_initial) (fun labels _ label _ before step fewer => by
    have shorter : (labels.filterMap Label.createdId).length ≤ ((labels ++ [label]).filterMap Label.createdId).length := by
      simp [List.filterMap_append]
    exact safe_step (before (by omega)) step fewer) run

theorem executor_never_polls_finished_task {labels : List Label} {world : World Future}
    (run : Trace.Run Step World.initial labels world)
    (fewer : (labels.filterMap Label.createdId).length < 2 ^ 64) :
    (∀ pre taskId post result, labels = pre ++ [Label.polled taskId .ready] ++ post →
      Label.polled taskId result ∉ post) ∧
    (∀ taskId ∈ world.executor.wakerCache.keys, taskId ∈ world.executor.tasks.keys) ∧
    (labels.filterMap Label.createdId).Nodup ∧
    ∀ task ∈ world.unspawned, world.executor.taskQueue.items.length < taskQueueCapacity →
      ∃ executor, world.executor.spawn task = .ok executor := by
  have safe := safe_of_run run fewer
  refine ⟨fun pre taskId post result split member => safe.noRepoll ⟨pre, taskId, post, result, split, member⟩,
    fun taskId cached => ?_, ?_, fun task made room => Executor.spawn_ok (safe.invariant.unspawnedNotLive task made) room⟩
  · rw [SortedMap.mem_keys] at cached ⊢
    exact safe.invariant.cached taskId cached
  · rw [safe.created]
    exact List.nodup_range

theorem stale_wake_after_finish_skipped :
    ∃ world : World Unit,
      Trace.Run Step World.initial [.created 0, .spawned 0, .polled 0 .ready, .woken 0, .skipped 0] world ∧
      ([Label.created 0, .spawned 0, .polled 0 .ready, .woken 0, .skipped 0].filterMap Label.createdId).length < 2 ^ 64 ∧
      ((∀ pre taskId post result, [Label.created 0, .spawned 0, .polled 0 .ready, .woken 0, .skipped 0] =
          pre ++ [Label.polled taskId .ready] ++ post → Label.polled taskId result ∉ post) ∧
        (∀ taskId ∈ world.executor.wakerCache.keys, taskId ∈ world.executor.tasks.keys) ∧
        ([Label.created 0, .spawned 0, .polled 0 .ready, .woken 0, .skipped 0].filterMap Label.createdId).Nodup ∧
        ∀ task ∈ world.unspawned, world.executor.taskQueue.items.length < taskQueueCapacity →
          ∃ executor, world.executor.spawn task = .ok executor) := by
  have run : Trace.Run Step World.initial [.created 0, .spawned 0, .polled 0 .ready, .woken 0, .skipped 0] _ :=
    .snoc (.snoc (.snoc (.snoc (.snoc (.nil _) (.create _ ())) (.spawn _ [] [] ⟨0, ()⟩ rfl _ rfl))
      (.run _ (fun _ _ => (.ready, ())) _ _ rfl)) (.wake _ ⟨0⟩ _ rfl)) (.run _ (fun _ _ => (.ready, ())) _ _ rfl)
  exact ⟨_, run, by decide, executor_never_polls_finished_task run (by decide)⟩

end Safety

section Queue

-- What the passes of `run_ready_tasks` took off the wake queue, followed by what is still on it, is
-- what was on it at the start followed by every id spawned or woken since.
def Handles (start : List Nat) (labels : List Label) (world : World Future) : Prop :=
  world.executor.taskQueue.Conserves (labels.filterMap Label.handledId) (start ++ labels.filterMap Label.queuedId)

theorem handles_step {start : List Nat} {labels : List Label} {world world' : World Future} {label : Label}
    (handles : Handles start labels world) (step : Step world label world') :
    Handles start (labels ++ [label]) world' := by
  cases step with
  | create future =>
      simpa only [Handles, List.filterMap_append, List.filterMap_cons_none (rfl : Label.handledId (.created _) = none),
        List.filterMap_cons_none (rfl : Label.queuedId (.created _) = none), List.filterMap_nil, List.append_nil]
        using handles
  | spawn before after task made executor spawned =>
      have pushed := handles.push (Executor.spawn_pushed spawned)
      simpa only [Handles, List.filterMap_append, List.filterMap_cons_none (rfl : Label.handledId (.spawned _) = none),
        List.filterMap_cons_some (rfl : Label.queuedId (.spawned task.id) = some task.id), List.filterMap_nil,
        List.append_nil, List.append_assoc] using pushed
  | wake waker executor woken =>
      have pushed := handles.push (Executor.wakeTask_pushed woken)
      simpa only [Handles, List.filterMap_append, List.filterMap_cons_none (rfl : Label.handledId (.woken _) = none),
        List.filterMap_cons_some (rfl : Label.queuedId (.woken waker.taskId) = some waker.taskId), List.filterMap_nil,
        List.append_nil, List.append_assoc] using pushed
  | run poll label executor ran =>
      have taken := handles.pop
      rw [Executor.runReadyTask_popped ran] at taken
      have quiet : label.queuedId = none := by
        obtain ⟨taskId, ⟨rfl, -⟩ | ⟨rfl, -⟩ | ⟨rfl, -⟩⟩ := Executor.runReadyTask_effect ran <;> rfl
      rw [Handles, List.filterMap_append, List.filterMap_append, List.filterMap_cons_none quiet, List.filterMap_nil,
        List.append_nil]
      cases handled : label.handledId with
      | none =>
          simpa only [List.filterMap_cons_none handled, List.filterMap_nil, handled, Option.toList_none,
            List.append_nil] using taken
      | some taskId =>
          simpa only [List.filterMap_cons_some handled, List.filterMap_nil, handled, Option.toList_some] using taken

theorem handles_of_run {world world' : World Future} {labels : List Label} (run : Trace.Run Step world labels world') :
    Handles world.executor.taskQueue.items labels world' :=
  run.invariant (by simp [Handles, BoundedQueue.Conserves]) fun _ _ _ _ handles step => handles_step handles step

theorem wake_queue_handles_each_push_once_in_order {world world' : World Future} {labels : List Label}
    (run : Trace.Run Step world labels world') :
    labels.filterMap Label.handledId ++ world'.executor.taskQueue.items =
      world.executor.taskQueue.items ++ labels.filterMap Label.queuedId ∧
    ∀ poll, world'.executor.runReadyTask poll = none →
      labels.filterMap Label.handledId = world.executor.taskQueue.items ++ labels.filterMap Label.queuedId := by
  have handles : labels.filterMap Label.handledId ++ world'.executor.taskQueue.items =
      world.executor.taskQueue.items ++ labels.filterMap Label.queuedId := handles_of_run run
  refine ⟨handles, fun poll stopped => ?_⟩
  rw [← handles, Executor.runReadyTask_eq_none_iff.mp stopped, List.append_nil]

theorem spawn_finish_and_stale_wake_handled_in_order :
    ∃ world : World Unit,
      Trace.Run Step World.initial [.created 0, .spawned 0, .polled 0 .ready, .woken 0, .skipped 0] world ∧
      [Label.created 0, .spawned 0, .polled 0 .ready, .woken 0, .skipped 0].filterMap Label.handledId ++
          world.executor.taskQueue.items =
        (World.initial : World Unit).executor.taskQueue.items ++
          [Label.created 0, .spawned 0, .polled 0 .ready, .woken 0, .skipped 0].filterMap Label.queuedId ∧
      ∀ poll, world.executor.runReadyTask poll = none →
        [Label.created 0, .spawned 0, .polled 0 .ready, .woken 0, .skipped 0].filterMap Label.handledId =
          (World.initial : World Unit).executor.taskQueue.items ++
            [Label.created 0, .spawned 0, .polled 0 .ready, .woken 0, .skipped 0].filterMap Label.queuedId := by
  have run : Trace.Run Step World.initial [.created 0, .spawned 0, .polled 0 .ready, .woken 0, .skipped 0] _ :=
    .snoc (.snoc (.snoc (.snoc (.snoc (.nil _) (.create _ ())) (.spawn _ [] [] ⟨0, ()⟩ rfl _ rfl))
      (.run _ (fun _ _ => (.ready, ())) _ _ rfl)) (.wake _ ⟨0⟩ _ rfl)) (.run _ (fun _ _ => (.ready, ())) _ _ rfl)
  exact ⟨_, run, wake_queue_handles_each_push_once_in_order run⟩

end Queue

end Emos.Tasks
