import Mathlib
import Emos.Lib.Checked

set_option autoImplicit false

/- The 4 KiB paging interface of the x86_64 crate as kernel code drives it: the flags of a page
   table entry, the `FrameAllocator` trait and the `Mapper` trait, with pages and frames given
   by their start addresses. The page tables themselves are not modelled: a mapper is any state
   with a translation of pages, and `Mapper.Sound` is the contract the crate documents for
   `map_to_with_table_flags`. A loop that maps pages one by one, each to a frame it has just
   taken from the allocator, is `MapRun`; `MapRun.mapped` says what such a loop has done. -/
namespace Paging

open Checked

structure PageTableFlags where
  bits : UInt64
deriving DecidableEq, Repr

namespace PageTableFlags

def present : PageTableFlags := ⟨1⟩
def writable : PageTableFlags := ⟨(1 : UInt64) <<< 1⟩
def userAccessible : PageTableFlags := ⟨(1 : UInt64) <<< 2⟩
def noExecute : PageTableFlags := ⟨(1 : UInt64) <<< 63⟩

instance : OrOp PageTableFlags := ⟨fun a b => ⟨a.bits ||| b.bits⟩⟩
instance : AndOp PageTableFlags := ⟨fun a b => ⟨a.bits &&& b.bits⟩⟩

def contains (self other : PageTableFlags) : Bool := self.bits &&& other.bits == other.bits

end PageTableFlags

inductive MapToError where
  | frameAllocationFailed
  | parentEntryHugePage
  | pageAlreadyMapped (frame : Nat)
deriving DecidableEq, Repr

-- `{:?}` of the error; a frame prints as `PhysFrame[4KiB](0x...)`.
def MapToError.debug : MapToError → String
  | .frameAllocationFailed => "FrameAllocationFailed"
  | .parentEntryHugePage => "ParentEntryHugePage"
  | .pageAlreadyMapped frame => "PageAlreadyMapped(PhysFrame[4KiB](0x" ++ String.ofList (Nat.toDigits 16 frame) ++ "))"

structure FrameAllocator (A : Type) where
  allocateFrame : A → Except Panic (Option Nat × A)

variable {M A : Type}

inductive Allocates (allocator : FrameAllocator A) : A → List (Option Nat) → A → Prop
  | nil (a : A) : Allocates allocator a [] a
  | call {a b c : A} {frame : Option Nat} {frames : List (Option Nat)} :
      allocator.allocateFrame a = .ok (frame, b) → Allocates allocator b frames c →
      Allocates allocator a (frame :: frames) c

theorem Allocates.append {allocator : FrameAllocator A} {a b c : A} {first second : List (Option Nat)}
    (before : Allocates allocator a first b) (after : Allocates allocator b second c) :
    Allocates allocator a (first ++ second) c := by
  induction before with
  | nil => exact after
  | call called _ ih => exact .call called (ih after)

-- `Mapper<Size4KiB>` as a state: what a page translates to, with the flags of its entry, and
-- `map_to_with_table_flags`, which is handed the frame allocator for the tables it creates.
structure Mapper (M A : Type) where
  translate : M → Nat → Option (Nat × PageTableFlags)
  mapToWithTableFlags : FrameAllocator A → M → Nat → Nat → PageTableFlags → PageTableFlags → A →
    Except Panic (Except MapToError (M × A))

namespace Mapper

open PageTableFlags

-- `map_to`: the parent tables get the page's present, writable and user bits.
def mapTo (mapper : Mapper M A) (allocator : FrameAllocator A) (m : M) (page frame : Nat) (flags : PageTableFlags)
    (a : A) : Except Panic (Except MapToError (M × A)) :=
  let parentTableFlags := flags &&& (present ||| writable ||| userAccessible)
  mapper.mapToWithTableFlags allocator m page frame flags parentTableFlags a

-- The contract of `map_to_with_table_flags`: a mapping that succeeds found the page unmapped, maps
-- it to the frame with the flags, leaves every other page as it was, and took frames for its tables
-- only by calling the allocator.
structure Sound (mapper : Mapper M A) : Prop where
  mapped : ∀ allocator m page frame flags parentTableFlags a m' a',
    mapper.mapToWithTableFlags allocator m page frame flags parentTableFlags a = .ok (.ok (m', a')) →
      mapper.translate m page = none ∧ mapper.translate m' page = some (frame, flags) ∧
      (∀ other, other ≠ page → mapper.translate m' other = mapper.translate m other) ∧
      ∃ tables, Allocates allocator a tables a'

-- Every page table a mapping needs is already there: a page that is not mapped yet is mapped
-- without taking a frame from the allocator, and no parent entry is a huge page.
structure TablesInPlace (mapper : Mapper M A) : Prop where
  maps : ∀ allocator m page frame flags parentTableFlags a, mapper.translate m page = none →
    ∃ m', mapper.mapToWithTableFlags allocator m page frame flags parentTableFlags a = .ok (.ok (m', a))

-- Page tables kept as the list of their mappings, newest first, with every table already in place:
-- the least mapper that meets the contract.
def table (A : Type) : Mapper (List (Nat × Nat × PageTableFlags)) A where
  translate m page := m.lookup page
  mapToWithTableFlags _ m page frame flags _ a :=
    match m.lookup page with
    | some (old, _) => .ok (.error (.pageAlreadyMapped old))
    | none => .ok (.ok ((page, frame, flags) :: m, a))

theorem table_lookup_cons_of_ne {m : List (Nat × Nat × PageTableFlags)} {page other : Nat} (entry : Nat × PageTableFlags)
    (different : other ≠ page) : ((page, entry) :: m).lookup other = m.lookup other := by
  simp [List.lookup_cons, beq_false_of_ne different]

theorem table_sound (A : Type) : (table A).Sound where
  mapped := by
    intro allocator m page frame flags parentTableFlags a m' a' result
    simp only [table] at result ⊢
    cases unmapped : m.lookup page with
    | some entry => simp [unmapped] at result
    | none =>
        simp only [unmapped, Except.ok.injEq, Prod.mk.injEq] at result
        obtain ⟨rfl, rfl⟩ := result
        exact ⟨rfl, by simp, fun other different => table_lookup_cons_of_ne _ different, [], .nil a⟩

theorem table_mapToWithTableFlags {m : List (Nat × Nat × PageTableFlags)} {page : Nat} (unmapped : m.lookup page = none)
    (allocator : FrameAllocator A) (frame : Nat) (flags parentTableFlags : PageTableFlags) (a : A) :
    (table A).mapToWithTableFlags allocator m page frame flags parentTableFlags a = .ok (.ok ((page, frame, flags) :: m, a)) := by
  simp [table, unmapped]

theorem TablesInPlace.maps_keeping {mapper : Mapper M A} (inPlace : mapper.TablesInPlace) (sound : mapper.Sound)
    (allocator : FrameAllocator A) {m : M} {page : Nat} (frame : Nat) (flags parentTableFlags : PageTableFlags) (a : A)
    (unmapped : mapper.translate m page = none) :
    ∃ m', mapper.mapToWithTableFlags allocator m page frame flags parentTableFlags a = .ok (.ok (m', a)) ∧
      ∀ other, other ≠ page → mapper.translate m' other = mapper.translate m other := by
  obtain ⟨m', mapped⟩ := inPlace.maps allocator m page frame flags parentTableFlags a unmapped
  obtain ⟨-, -, others, -⟩ := sound.mapped _ _ _ _ _ _ _ _ _ mapped
  exact ⟨m', mapped, others⟩

theorem table_tablesInPlace (A : Type) : (table A).TablesInPlace where
  maps _ _ _ _ _ _ _ unmapped := ⟨_, table_mapToWithTableFlags unmapped _ _ _ _ _⟩

end Mapper

def passOutputs (frames : List Nat) (tables : List (List (Option Nat))) : List (Option Nat) :=
  (frames.zip tables).flatMap fun pass => some pass.1 :: pass.2

theorem passOutputs_cons (frame : Nat) (frames : List Nat) (table : List (Option Nat))
    (tables : List (List (Option Nat))) :
    passOutputs (frame :: frames) (table :: tables) = some frame :: (table ++ passOutputs frames tables) := by
  simp [passOutputs]

theorem passOutputs_append {frames frames' : List Nat} {tables tables' : List (List (Option Nat))}
    (same : frames.length = tables.length) :
    passOutputs (frames ++ frames') (tables ++ tables') = passOutputs frames tables ++ passOutputs frames' tables' := by
  simp [passOutputs, List.zip_append same]

inductive MapRun (mapper : Mapper M A) (allocator : FrameAllocator A) :
    List (Nat × PageTableFlags × PageTableFlags) → M → A → List Nat → M → A → Prop
  | nil (m : M) (a : A) : MapRun mapper allocator [] m a [] m a
  | pass {page frame : Nat} {flags parentTableFlags : PageTableFlags}
      {passes : List (Nat × PageTableFlags × PageTableFlags)} {m m₁ m' : M} {a a₁ a₂ a' : A} {frames : List Nat} :
      allocator.allocateFrame a = .ok (some frame, a₁) →
      mapper.mapToWithTableFlags allocator m page frame flags parentTableFlags a₁ = .ok (.ok (m₁, a₂)) →
      MapRun mapper allocator passes m₁ a₂ frames m' a' →
      MapRun mapper allocator ((page, flags, parentTableFlags) :: passes) m a (frame :: frames) m' a'

theorem MapRun.append {mapper : Mapper M A} {allocator : FrameAllocator A}
    {first second : List (Nat × PageTableFlags × PageTableFlags)} {m m₁ m' : M} {a a₁ a' : A}
    {frames frames' : List Nat} (before : MapRun mapper allocator first m a frames m₁ a₁)
    (after : MapRun mapper allocator second m₁ a₁ frames' m' a') :
    MapRun mapper allocator (first ++ second) m a (frames ++ frames') m' a' := by
  induction before with
  | nil => exact after
  | pass allocated mapped _ ih => exact .pass allocated mapped (ih after)

-- What a run of passes has done, under the mapper's contract: the pages were distinct and unmapped,
-- each now translates to its frame with its flags, no other page changed, and the allocator handed
-- out each page's frame followed by the frames of that pass's tables.
structure Mapped (mapper : Mapper M A) (allocator : FrameAllocator A)
    (passes : List (Nat × PageTableFlags × PageTableFlags)) (m : M) (a : A) (frames : List Nat) (m' : M) (a' : A) :
    Prop where
  length : frames.length = passes.length
  distinct : (passes.map Prod.fst).Nodup
  fresh : ∀ page ∈ passes.map Prod.fst, mapper.translate m page = none
  translated : ∀ pass ∈ passes.zip frames, mapper.translate m' pass.1.1 = some (pass.2, pass.1.2.1)
  kept : ∀ page, page ∉ passes.map Prod.fst → mapper.translate m' page = mapper.translate m page
  handed : ∃ tables : List (List (Option Nat)), tables.length = passes.length ∧
    Allocates allocator a (passOutputs frames tables) a'

section Runs

variable {mapper : Mapper M A} {allocator : FrameAllocator A}

theorem mapped_nil (m : M) (a : A) : Mapped mapper allocator [] m a [] m a where
  length := rfl
  distinct := List.nodup_nil
  fresh _ member := absurd member List.not_mem_nil
  translated _ member := absurd member List.not_mem_nil
  kept _ _ := rfl
  handed := ⟨[], rfl, by simpa [passOutputs] using Allocates.nil a⟩

theorem Mapped.cons (sound : mapper.Sound) {page frame : Nat} {flags parentTableFlags : PageTableFlags}
    {passes : List (Nat × PageTableFlags × PageTableFlags)} {m m₁ m' : M} {a a₁ a₂ a' : A} {frames : List Nat}
    (allocated : allocator.allocateFrame a = .ok (some frame, a₁))
    (mapped : mapper.mapToWithTableFlags allocator m page frame flags parentTableFlags a₁ = .ok (.ok (m₁, a₂)))
    (rest : Mapped mapper allocator passes m₁ a₂ frames m' a') :
    Mapped mapper allocator ((page, flags, parentTableFlags) :: passes) m a (frame :: frames) m' a' := by
  obtain ⟨unmapped, placed, others, table, taken⟩ := sound.mapped allocator m page frame flags parentTableFlags a₁ m₁ a₂ mapped
  have later : page ∉ passes.map Prod.fst := fun member => by
    rw [rest.fresh page member] at placed
    cases placed
  have apart : ∀ p ∈ passes.map Prod.fst, p ≠ page := fun p member same => later (same ▸ member)
  obtain ⟨tables, count, handed⟩ := rest.handed
  refine ⟨by simp [rest.length], ?_, ?_, ?_, ?_, ⟨table :: tables, by simp [count], ?_⟩⟩
  · exact List.nodup_cons.mpr ⟨later, rest.distinct⟩
  · intro p member
    rcases List.mem_cons.mp member with rfl | member
    · exact unmapped
    · rw [← others p (apart p member)]
      exact rest.fresh p member
  · intro pass member
    rcases List.mem_cons.mp member with rfl | member
    · rw [rest.kept page later]
      exact placed
    · exact rest.translated pass member
  · intro p absent
    have notHere : p ≠ page := fun same => absent (same ▸ List.mem_cons_self)
    rw [rest.kept p fun member => absent (List.mem_cons_of_mem _ member)]
    exact others p notHere
  · rw [passOutputs_cons]
    exact .call allocated (taken.append handed)

theorem Mapped.translated_of_mem {passes : List (Nat × PageTableFlags × PageTableFlags)} {m m' : M} {a a' : A}
    {frames : List Nat} (mapped : Mapped mapper allocator passes m a frames m' a') {page : Nat}
    {flags parentTableFlags : PageTableFlags} (member : (page, flags, parentTableFlags) ∈ passes) :
    ∃ frame, mapper.translate m' page = some (frame, flags) := by
  obtain ⟨k, lt, found⟩ := List.getElem_of_mem member
  have paired : k < (passes.zip frames).length := by simp [mapped.length, lt]
  have translated := mapped.translated _ (List.getElem_mem paired)
  rw [List.getElem_zip, found] at translated
  exact ⟨_, translated⟩

theorem MapRun.mapped (sound : mapper.Sound) {passes : List (Nat × PageTableFlags × PageTableFlags)} {m m' : M}
    {a a' : A} {frames : List Nat} (run : MapRun mapper allocator passes m a frames m' a') :
    Mapped mapper allocator passes m a frames m' a' := by
  induction run with
  | nil m a => exact mapped_nil m a
  | pass allocated mapped _ ih => exact ih.cons sound allocated mapped

theorem mem_passOutputs_of_frame {frames : List Nat} {tables : List (List (Option Nat))}
    (count : frames.length = tables.length) {frame : Nat} (member : frame ∈ frames) :
    some frame ∈ passOutputs frames tables := by
  induction frames generalizing tables with
  | nil => exact absurd member List.not_mem_nil
  | cons f frames ih =>
      obtain ⟨table, tables, rfl⟩ := List.exists_cons_of_length_eq_add_one count.symm
      rw [passOutputs_cons]
      rcases List.mem_cons.mp member with rfl | later
      · exact List.mem_cons_self
      · exact List.mem_cons_of_mem _ (List.mem_append_right _ (ih (by simpa using count) later))

theorem mem_passOutputs_of_table {frames : List Nat} {tables : List (List (Option Nat))}
    (count : frames.length = tables.length) {x : Option Nat} (member : x ∈ tables.flatten) :
    x ∈ passOutputs frames tables := by
  induction frames generalizing tables with
  | nil =>
      rw [List.length_eq_zero_iff.mp count.symm] at member
      exact absurd member List.not_mem_nil
  | cons f frames ih =>
      obtain ⟨table, tables, rfl⟩ := List.exists_cons_of_length_eq_add_one count.symm
      rw [passOutputs_cons]
      rcases List.mem_append.mp (List.flatten_cons ▸ member) with own | later
      · exact List.mem_cons_of_mem _ (List.mem_append_left _ own)
      · exact List.mem_cons_of_mem _ (List.mem_append_right _ (ih (by simpa using count) later))

theorem length_le_reduceOption_passOutputs {frames : List Nat} {tables : List (List (Option Nat))}
    (count : frames.length = tables.length) : frames.length ≤ (passOutputs frames tables).reduceOption.length := by
  induction frames generalizing tables with
  | nil => exact Nat.zero_le _
  | cons frame frames ih =>
      obtain ⟨table, tables, rfl⟩ := List.exists_cons_of_length_eq_add_one count.symm
      rw [passOutputs_cons, List.reduceOption_cons_of_some, List.reduceOption_append, List.length_cons,
        List.length_cons, List.length_append]
      have later : frames.length ≤ (passOutputs frames tables).reduceOption.length := ih (by simpa using count)
      omega

theorem passOutputs_frames_apart {frames : List Nat} {tables : List (List (Option Nat))}
    (count : frames.length = tables.length) (once : (passOutputs frames tables).reduceOption.Nodup) :
    frames.Nodup ∧ ∀ frame ∈ frames, some frame ∉ tables.flatten := by
  induction frames generalizing tables with
  | nil => exact ⟨List.nodup_nil, fun _ member => absurd member List.not_mem_nil⟩
  | cons frame frames ih =>
      obtain ⟨table, tables, rfl⟩ := List.exists_cons_of_length_eq_add_one count.symm
      have later : frames.length = tables.length := by simpa using count
      rw [passOutputs_cons, List.reduceOption_cons_of_some, List.reduceOption_append] at once
      obtain ⟨fresh, rest⟩ := List.nodup_cons.mp once
      obtain ⟨-, laterOnce, apart⟩ := List.nodup_append.mp rest
      obtain ⟨distinct, away⟩ := ih later laterOnce
      have notOwn : some frame ∉ table := fun own =>
        fresh (List.mem_append_left _ (List.reduceOption_mem_iff.mpr own))
      have notLater : some frame ∉ passOutputs frames tables := fun output =>
        fresh (List.mem_append_right _ (List.reduceOption_mem_iff.mpr output))
      refine ⟨List.nodup_cons.mpr ⟨fun member => notLater (mem_passOutputs_of_frame later member), distinct⟩, ?_⟩
      intro f member inTables
      rw [List.flatten_cons] at inTables
      rcases List.mem_cons.mp member with rfl | member
      · rcases List.mem_append.mp inTables with own | inLater
        · exact notOwn own
        · exact notLater (mem_passOutputs_of_table later inLater)
      · rcases List.mem_append.mp inTables with own | inLater
        · exact apart f (List.reduceOption_mem_iff.mpr own) f
            (List.reduceOption_mem_iff.mpr (mem_passOutputs_of_frame later member)) rfl
        · exact away f member inLater

end Runs

end Paging
