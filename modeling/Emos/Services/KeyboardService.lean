import Mathlib
import Emos.Lib.BoundedQueue
import Emos.Lib.Checked
import Emos.Lib.Trace

set_option autoImplicit false

/- The scancode queue of services/keyboard_service.rs. The keyboard interrupt pushes each
   scancode into a `OnceCell<ArrayQueue<u8>>`; the read-byte syscall and the scancode stream pop
   from it. `WAKER` only wakes the stream's task and is left out, as is the decoding and printing
   of `print_keypresses`, which nothing spawns. An interrupt between the two pops of `poll_next`
   leaves the queue and the result as one just before the call would, since the first pop found
   the queue empty, so a call of `poll_next` is one step. -/
namespace Emos.Services

open Checked

inductive Poll (α : Type) where
  | ready (value : α)
  | pending
deriving DecidableEq, Repr

-- `ArrayQueue::new(100)` in `ScancodeStream::new`.
def scancodeCapacity : Nat := 100

structure KeyboardService where
  scancodeQueue : Option (BoundedQueue UInt8 scancodeCapacity)

namespace KeyboardService

-- The `OnceCell` before `ScancodeStream::new` runs.
def new : KeyboardService := ⟨none⟩

def queueFullWarning : String := "WARNING: scancode queue full; dropping keyboard input"
def uninitializedWarning : String := "WARNING: scancode queue uninitialized"

def addScancode (self : KeyboardService) (scancode : UInt8) : KeyboardService × Option String :=
  match self.scancodeQueue with
  | some queue =>
      match queue.push scancode with
      | .ok queue => (⟨some queue⟩, none)
      | .error _ => (self, some queueFullWarning)
  | none => (self, some uninitializedWarning)

def tryGetScancode (self : KeyboardService) : Option UInt8 × KeyboardService :=
  match self.scancodeQueue with
  | some queue => (queue.pop.1, ⟨some queue.pop.2⟩)
  | none => (none, self)

-- `Result::expect` prints its message, then the `Debug` form of conquer-once's error.
def alreadyInitPanic : Panic := ⟨"ScancodeStream::new should only be called once: AlreadyInit"⟩
def uninitPanic : Panic := ⟨"scancode queue not initialized: Uninit"⟩

def ScancodeStream.new (self : KeyboardService) : Except Panic KeyboardService :=
  match self.scancodeQueue with
  | some _ => .error alreadyInitPanic
  | none => .ok ⟨some .empty⟩

def ScancodeStream.pollNext (self : KeyboardService) : Except Panic (Poll (Option UInt8) × KeyboardService) :=
  match self.scancodeQueue with
  | some queue =>
      match queue.pop with
      | (some scancode, queue) => .ok (.ready (some scancode), ⟨some queue⟩)
      | (none, queue) =>
          -- after `WAKER.register`
          match queue.pop with
          | (some scancode, queue) => .ok (.ready (some scancode), ⟨some queue⟩)
          | (none, queue) => .ok (.pending, ⟨some queue⟩)
  | none => .error uninitPanic

def pending (self : KeyboardService) : List UInt8 :=
  match self.scancodeQueue with
  | some queue => queue.items
  | none => []

theorem eq_of_scancodeQueue {self : KeyboardService} {queue : Option (BoundedQueue UInt8 scancodeCapacity)}
    (found : self.scancodeQueue = queue) : self = ⟨queue⟩ := by
  cases self
  cases found
  rfl

theorem pending_length_le (self : KeyboardService) : self.pending.length ≤ scancodeCapacity := by
  unfold pending
  split
  · rename_i queue _
    exact queue.bounded
  · exact Nat.zero_le _

theorem addScancode_cases (self : KeyboardService) (scancode : UInt8) :
    (∃ queue queue', self.scancodeQueue = some queue ∧ queue.push scancode = .ok queue' ∧
      self.addScancode scancode = (⟨some queue'⟩, none)) ∨
    (∃ queue, self.scancodeQueue = some queue ∧ queue.items.length = scancodeCapacity ∧
      self.addScancode scancode = (self, some queueFullWarning)) ∨
    (self.scancodeQueue = none ∧ self.addScancode scancode = (self, some uninitializedWarning)) := by
  cases found : self.scancodeQueue with
  | none => exact .inr (.inr ⟨rfl, by simp [addScancode, found]⟩)
  | some queue =>
      cases pushed : queue.push scancode with
      | ok queue' => exact .inl ⟨queue, queue', rfl, pushed, by simp [addScancode, found, pushed]⟩
      | error value =>
          have full := (BoundedQueue.push_eq_error.mp pushed).1
          exact .inr (.inl ⟨queue, rfl, Nat.le_antisymm queue.bounded full, by simp [addScancode, found, pushed]⟩)

theorem addScancode_pending (self : KeyboardService) (scancode : UInt8) :
    ((self.addScancode scancode).2 = none ∧ (self.addScancode scancode).1.pending = self.pending ++ [scancode]) ∨
    (self.pending.length = scancodeCapacity ∧ self.addScancode scancode = (self, some queueFullWarning)) ∨
    (self.scancodeQueue = none ∧ self.addScancode scancode = (self, some uninitializedWarning)) := by
  rcases addScancode_cases self scancode with ⟨queue, queue', found, pushed, added⟩ | ⟨queue, found, full, added⟩ |
    missing
  · rw [added]
    refine .inl ⟨rfl, ?_⟩
    simp only [pending, found]
    exact (BoundedQueue.push_eq_ok.mp pushed).2
  · refine .inr (.inl ⟨?_, added⟩)
    simp only [pending, found]
    exact full
  · exact .inr (.inr missing)

def pollResult : Option UInt8 → Poll (Option UInt8)
  | some scancode => .ready (some scancode)
  | none => .pending

theorem pollNext_eq_ok {self self' : KeyboardService} {result : Poll (Option UInt8)} :
    ScancodeStream.pollNext self = .ok (result, self') ↔
      ∃ queue, self.scancodeQueue = some queue ∧ self' = ⟨some queue.pop.2⟩ ∧ result = pollResult queue.pop.1 := by
  unfold ScancodeStream.pollNext
  cases found : self.scancodeQueue with
  | none => simp only [reduceCtorEq, false_and, exists_false]
  | some queue =>
      obtain ⟨_ | ⟨scancode, rest⟩, bounded⟩ := queue
      · simp only [BoundedQueue.pop, pollResult, Except.ok.injEq, Prod.mk.injEq, Option.some.injEq, exists_eq_left']
        exact ⟨fun polled => ⟨polled.2.symm, polled.1.symm⟩, fun polled => ⟨polled.2.symm, polled.1.symm⟩⟩
      · simp only [BoundedQueue.pop, pollResult, Except.ok.injEq, Prod.mk.injEq, Option.some.injEq, exists_eq_left']
        exact ⟨fun polled => ⟨polled.2.symm, polled.1.symm⟩, fun polled => ⟨polled.2.symm, polled.1.symm⟩⟩

theorem scancodeStreamNew_eq_ok {self self' : KeyboardService} :
    ScancodeStream.new self = .ok self' ↔ self.scancodeQueue = none ∧ self' = ⟨some .empty⟩ := by
  unfold ScancodeStream.new
  cases self.scancodeQueue with
  | none => simp [eq_comm]
  | some queue => simp

inductive Event where
  -- the keyboard interrupt's `add_scancode`, with what it printed
  | interrupt (scancode : UInt8) (printed : Option String)
  -- `try_get_scancode`, as the read-byte syscall calls it
  | readByte (scancode : Option UInt8)
  | streamNew
  | pollNext (result : Poll (Option UInt8))
deriving DecidableEq, Repr

-- The calls that touch the queue, in any interleaving; a call that panics has no successor.
inductive Step : KeyboardService → Event → KeyboardService → Prop
  | interrupt (s : KeyboardService) (scancode : UInt8) :
      Step s (.interrupt scancode (s.addScancode scancode).2) (s.addScancode scancode).1
  | readByte (s : KeyboardService) : Step s (.readByte s.tryGetScancode.1) s.tryGetScancode.2
  | streamNew {s s' : KeyboardService} : ScancodeStream.new s = .ok s' → Step s .streamNew s'
  | pollNext {s s' : KeyboardService} {result : Poll (Option UInt8)} :
      ScancodeStream.pollNext s = .ok (result, s') → Step s (.pollNext result) s'

def Event.accepted : Event → Option UInt8
  | .interrupt scancode none => some scancode
  | _ => none

def Event.delivered : Event → Option UInt8
  | .readByte scancode => scancode
  | .pollNext (.ready scancode) => scancode
  | _ => none

-- Everything delivered so far, followed by what is pending, is everything accepted so far.
def Delivers (events : List Event) (s : KeyboardService) : Prop :=
  events.filterMap Event.delivered ++ s.pending = events.filterMap Event.accepted

section Delivery

variable {events : List Event} {s : KeyboardService}

theorem delivers_some_iff {queue : BoundedQueue UInt8 scancodeCapacity} :
    Delivers events ⟨some queue⟩ ↔
      queue.Conserves (events.filterMap Event.delivered) (events.filterMap Event.accepted) :=
  Iff.rfl

theorem delivers_quiet {e : Event} (delivers : Delivers events s) (notAccepted : e.accepted = none)
    (notDelivered : e.delivered = none) : Delivers (events ++ [e]) s := by
  simpa only [Delivers, List.filterMap_append, List.filterMap_cons_none notAccepted,
    List.filterMap_cons_none notDelivered, List.filterMap_nil, List.append_nil] using delivers

theorem delivers_pop {e : Event} {queue : BoundedQueue UInt8 scancodeCapacity}
    (delivers : Delivers events ⟨some queue⟩) (notAccepted : e.accepted = none)
    (delivered : e.delivered = queue.pop.1) : Delivers (events ++ [e]) ⟨some queue.pop.2⟩ := by
  have taken := BoundedQueue.Conserves.pop (delivers_some_iff.mp delivers)
  rw [delivers_some_iff, List.filterMap_append, List.filterMap_append, List.filterMap_cons_none notAccepted,
    List.filterMap_nil, List.append_nil]
  cases popped : queue.pop.1 with
  | none =>
      rw [popped, Option.toList_none, List.append_nil] at taken
      rw [popped] at delivered
      simpa only [List.filterMap_cons_none delivered, List.filterMap_nil, List.append_nil] using taken
  | some scancode =>
      rw [popped, Option.toList_some] at taken
      rw [popped] at delivered
      simpa only [List.filterMap_cons_some delivered, List.filterMap_nil] using taken

theorem delivers_interrupt (delivers : Delivers events s) (scancode : UInt8) :
    Delivers (events ++ [.interrupt scancode (s.addScancode scancode).2]) (s.addScancode scancode).1 := by
  rcases addScancode_cases s scancode with ⟨queue, queue', found, pushed, added⟩ | ⟨queue, -, -, added⟩ | ⟨-, added⟩
  · -- taken in: the queue grows at its back
    rw [added]
    obtain rfl := eq_of_scancodeQueue found
    have taken := BoundedQueue.Conserves.push (delivers_some_iff.mp delivers) pushed
    rw [delivers_some_iff, List.filterMap_append, List.filterMap_append,
      List.filterMap_cons_some (rfl : Event.accepted (.interrupt scancode none) = some scancode),
      List.filterMap_cons_none (rfl : Event.delivered (.interrupt scancode none) = none), List.filterMap_nil,
      List.filterMap_nil, List.append_nil]
    exact taken
  · rw [added]
    exact delivers_quiet delivers rfl rfl
  · rw [added]
    exact delivers_quiet delivers rfl rfl

theorem delivers_readByte (delivers : Delivers events s) :
    Delivers (events ++ [.readByte s.tryGetScancode.1]) s.tryGetScancode.2 := by
  unfold tryGetScancode
  cases found : s.scancodeQueue with
  | none => exact delivers_quiet delivers rfl rfl
  | some queue =>
      obtain rfl := eq_of_scancodeQueue found
      exact delivers_pop delivers rfl rfl

theorem delivers_streamNew (delivers : Delivers events s) {s' : KeyboardService}
    (created : ScancodeStream.new s = .ok s') : Delivers (events ++ [.streamNew]) s' := by
  obtain ⟨missing, rfl⟩ := scancodeStreamNew_eq_ok.mp created
  obtain rfl := eq_of_scancodeQueue missing
  have moved : Delivers events ⟨some .empty⟩ := delivers
  exact delivers_quiet moved rfl rfl

theorem delivers_pollNext (delivers : Delivers events s) {s' : KeyboardService} {result : Poll (Option UInt8)}
    (polled : ScancodeStream.pollNext s = .ok (result, s')) : Delivers (events ++ [.pollNext result]) s' := by
  obtain ⟨queue, found, rfl, rfl⟩ := pollNext_eq_ok.mp polled
  obtain rfl := eq_of_scancodeQueue found
  apply delivers_pop delivers rfl
  cases queue.pop.1 <;> rfl

theorem delivers_step {e : Event} {s' : KeyboardService} (delivers : Delivers events s) (step : Step s e s') :
    Delivers (events ++ [e]) s' := by
  cases step with
  | interrupt scancode => exact delivers_interrupt delivers scancode
  | readByte => exact delivers_readByte delivers
  | streamNew created => exact delivers_streamNew delivers created
  | pollNext polled => exact delivers_pollNext delivers polled

end Delivery

theorem scancodes_delivered_in_order {events : List Event} {s : KeyboardService}
    (run : Trace.Run Step new events s) :
    events.filterMap Event.delivered ++ s.pending = events.filterMap Event.accepted ∧
      s.pending.length ≤ scancodeCapacity ∧
      ∀ scancode,
        ((s.addScancode scancode).2 = none ∧ (s.addScancode scancode).1.pending = s.pending ++ [scancode]) ∨
        (s.pending.length = scancodeCapacity ∧ s.addScancode scancode = (s, some queueFullWarning)) ∨
        (s.scancodeQueue = none ∧ s.addScancode scancode = (s, some uninitializedWarning)) := by
  have start : Delivers [] new := rfl
  have delivers : Delivers events s :=
    Trace.Run.invariant start (fun _ _ _ _ delivers step => delivers_step delivers step) run
  exact ⟨delivers, pending_length_le s, addScancode_pending s⟩

theorem two_keys_read_in_order :
    let events : List Event := [.streamNew, .interrupt 0x1e none, .interrupt 0x30 none, .readByte (some 0x1e)]
    ∃ s, Trace.Run Step new events s ∧
      events.filterMap Event.delivered ++ s.pending = events.filterMap Event.accepted ∧
        s.pending.length ≤ scancodeCapacity ∧
        ∀ scancode,
          ((s.addScancode scancode).2 = none ∧ (s.addScancode scancode).1.pending = s.pending ++ [scancode]) ∨
          (s.pending.length = scancodeCapacity ∧ s.addScancode scancode = (s, some queueFullWarning)) ∨
          (s.scancodeQueue = none ∧ s.addScancode scancode = (s, some uninitializedWarning)) := by
  intro events
  have created : ScancodeStream.new new = .ok ⟨some .empty⟩ := rfl
  have run : Trace.Run Step new events
      (((((⟨some .empty⟩ : KeyboardService).addScancode 0x1e).1.addScancode 0x30).1).tryGetScancode.2) :=
    (((Trace.Run.single (Step.streamNew created)).snoc (Step.interrupt _ 0x1e)).snoc (Step.interrupt _ 0x30)).snoc
      (Step.readByte _)
  exact ⟨_, run, scancodes_delivered_in_order run⟩

end KeyboardService

end Emos.Services
