import Mathlib
import Emos.Lib.Checked
import Emos.Lib.Loop

set_option autoImplicit false

/- `vga_write_byte` of syscalls.rs, the writer behind user syscall 1. It writes through a raw
   pointer to 0xb8000 and keeps its cursor in `static mut`s. The text buffer there is
   `BUFFER_WIDTH * BUFFER_HEIGHT * 2` bytes, a character byte and an attribute byte per cell; an
   access past its end is undefined behaviour, modelled as a fault that ends the run. -/
namespace Emos.Vga

def bufferWidth : Nat := 80
def bufferHeight : Nat := 25

def bufferBytes : Nat := bufferWidth * bufferHeight * 2

structure OutOfBounds where
  offset : Nat
deriving DecidableEq, Repr

-- The text buffer and the statics `CURSOR_ROW`, `CURSOR_COL` and `INITIALIZED`.
structure Screen where
  buffer : Nat → UInt8
  cursorRow : Nat
  cursorCol : Nat
  initialized : Bool

namespace Screen

-- The statics before the first call; the buffer holds whatever was on the screen.
def boot (buffer : Nat → UInt8) : Screen := ⟨buffer, 0, 0, false⟩

def read (buffer : Nat → UInt8) (offset : Nat) : Except OutOfBounds UInt8 :=
  if offset < bufferBytes then .ok (buffer offset) else .error ⟨offset⟩

def write (buffer : Nat → UInt8) (offset : Nat) (value : UInt8) : Except OutOfBounds (Nat → UInt8) :=
  if offset < bufferBytes then .ok (Function.update buffer offset value) else .error ⟨offset⟩

-- The offset of the character byte of a cell; its attribute byte follows it.
def charOffset (row col : Nat) : Nat := (row * bufferWidth + col) * 2

-- What a clear writes: spaces in the character bytes, white on black in the attribute bytes.
def blankByte (i : Nat) : UInt8 := if i % 2 = 0 then 32 else 0x0f

def clearScreen (buffer : Nat → UInt8) : Except OutOfBounds (Nat → UInt8) :=
  (List.range (bufferWidth * bufferHeight * 2)).foldlM (fun buffer i => write buffer i (blankByte i)) buffer

def moveCell (buffer : Nat → UInt8) (row col : Nat) : Except OutOfBounds (Nat → UInt8) := do
  let srcPos := (row * bufferWidth + col) * 2
  let dstPos := ((row - 1) * bufferWidth + col) * 2
  let buffer ← write buffer dstPos (← read buffer srcPos)
  write buffer (dstPos + 1) (← read buffer (srcPos + 1))

def moveRow (buffer : Nat → UInt8) (row : Nat) : Except OutOfBounds (Nat → UInt8) :=
  (List.range bufferWidth).foldlM (fun buffer col => moveCell buffer row col) buffer

def clearLastRow (buffer : Nat → UInt8) : Except OutOfBounds (Nat → UInt8) :=
  let lastRowStart := (bufferHeight - 1) * bufferWidth * 2
  (List.range (bufferWidth * 2)).foldlM (fun buffer i => write buffer (lastRowStart + i) (blankByte i)) buffer

def scrollUp (buffer : Nat → UInt8) : Except OutOfBounds (Nat → UInt8) := do
  let buffer ← (List.range' 1 (bufferHeight - 1)).foldlM moveRow buffer
  clearLastRow buffer

def clearOnFirstCall (screen : Screen) : Except OutOfBounds Screen :=
  if screen.initialized then .ok screen
  else do
    let buffer ← clearScreen screen.buffer
    pure ⟨buffer, 0, 0, true⟩

-- The `match byte` of `vga_write_byte`. A newline scrolls on the bottom row; a character that
-- fills the bottom row only keeps the cursor on it.
def put (screen : Screen) (byte : UInt8) : Except OutOfBounds Screen :=
  if byte = 10 then
    if screen.cursorRow + 1 ≥ bufferHeight then do
      let buffer ← scrollUp screen.buffer
      pure { screen with buffer := buffer, cursorCol := 0, cursorRow := bufferHeight - 1 }
    else pure { screen with cursorCol := 0, cursorRow := screen.cursorRow + 1 }
  else if byte = 13 then pure { screen with cursorCol := 0 }
  else if byte = 8 then
    if screen.cursorCol > 0 then do
      let col := screen.cursorCol - 1
      let pos := (screen.cursorRow * bufferWidth + col) * 2
      let buffer ← write screen.buffer pos 32
      let buffer ← write buffer (pos + 1) 0x0f
      pure { screen with buffer := buffer, cursorCol := col }
    else pure screen
  else if 32 ≤ byte ∧ byte ≤ 126 then do
    let pos := (screen.cursorRow * bufferWidth + screen.cursorCol) * 2
    let buffer ← write screen.buffer pos byte
    let buffer ← write buffer (pos + 1) 0x0f
    if screen.cursorCol + 1 ≥ bufferWidth then
      let row := if screen.cursorRow + 1 ≥ bufferHeight then bufferHeight - 1 else screen.cursorRow + 1
      pure { screen with buffer := buffer, cursorCol := 0, cursorRow := row }
    else pure { screen with buffer := buffer, cursorCol := screen.cursorCol + 1 }
  else pure screen

def vgaWriteByte (screen : Screen) (byte : UInt8) : Except OutOfBounds Screen := do
  put (← clearOnFirstCall screen) byte

def writeBytes (screen : Screen) (bytes : List UInt8) : Except OutOfBounds Screen :=
  bytes.foldlM vgaWriteByte screen

section Bounds

theorem bufferWidth_eq : bufferWidth = 80 := rfl
theorem bufferHeight_eq : bufferHeight = 25 := rfl
theorem bufferBytes_eq : bufferBytes = 4000 := rfl

theorem write_ok {offset : Nat} (inside : offset < bufferBytes) (buffer : Nat → UInt8) (value : UInt8) :
    write buffer offset value = .ok (Function.update buffer offset value) :=
  if_pos inside

theorem read_ok {offset : Nat} (inside : offset < bufferBytes) (buffer : Nat → UInt8) :
    read buffer offset = .ok (buffer offset) :=
  if_pos inside

theorem cell_inside {row col : Nat} (onScreen : row < bufferHeight) (inRow : col < bufferWidth) :
    (row * bufferWidth + col) * 2 + 1 < bufferBytes := by
  rw [bufferBytes_eq]
  rw [bufferHeight_eq] at onScreen
  rw [bufferWidth_eq] at inRow ⊢
  omega

theorem clearScreen_ok (buffer : Nat → UInt8) : ∃ cleared, clearScreen buffer = .ok cleared := by
  obtain ⟨cleared, done, -⟩ := Loop.foldlM_ok (fun _ => True) buffer trivial fun acc i member _ =>
    ⟨_, write_ok (List.mem_range.mp member) acc (blankByte i), trivial⟩
  exact ⟨cleared, done⟩

theorem moveCell_ok (buffer : Nat → UInt8) {row col : Nat} (below : 1 ≤ row) (onScreen : row < bufferHeight)
    (inRow : col < bufferWidth) : ∃ moved, moveCell buffer row col = .ok moved := by
  have source := cell_inside onScreen inRow
  have target := cell_inside (show row - 1 < bufferHeight by omega) inRow
  simp only [moveCell, read_ok (Nat.lt_of_succ_lt source), read_ok source, write_ok (Nat.lt_of_succ_lt target),
    write_ok target, bind, Except.bind]
  exact ⟨_, rfl⟩

theorem moveRow_ok (buffer : Nat → UInt8) {row : Nat} (below : 1 ≤ row) (onScreen : row < bufferHeight) :
    ∃ moved, moveRow buffer row = .ok moved := by
  obtain ⟨moved, done, -⟩ := Loop.foldlM_ok (fun _ => True) buffer trivial fun acc col member _ =>
    ⟨_, (moveCell_ok acc below onScreen (List.mem_range.mp member)).choose_spec, trivial⟩
  exact ⟨moved, done⟩

theorem clearLastRow_ok (buffer : Nat → UInt8) : ∃ cleared, clearLastRow buffer = .ok cleared := by
  have inside : ∀ i, i ∈ List.range (bufferWidth * 2) → (bufferHeight - 1) * bufferWidth * 2 + i < bufferBytes := by
    intro i member
    rw [List.mem_range, bufferWidth_eq] at member
    rw [bufferBytes_eq, bufferHeight_eq, bufferWidth_eq]
    omega
  obtain ⟨cleared, done, -⟩ := Loop.foldlM_ok (fun _ => True) buffer trivial fun acc i member _ =>
    ⟨_, write_ok (inside i member) acc (blankByte i), trivial⟩
  exact ⟨cleared, done⟩

theorem scrollUp_ok (buffer : Nat → UInt8) : ∃ scrolled, scrollUp buffer = .ok scrolled := by
  obtain ⟨moved, rowsMoved, -⟩ := Loop.foldlM_ok (fun _ => True) buffer trivial
      fun acc row (member : row ∈ List.range' 1 (bufferHeight - 1)) _ => by
    rw [List.mem_range'_1, bufferHeight_eq] at member
    exact ⟨_, (moveRow_ok acc member.1 (by rw [bufferHeight_eq]; omega)).choose_spec, trivial⟩
  obtain ⟨cleared, lastCleared⟩ := clearLastRow_ok moved
  exact ⟨cleared, Checked.bind_eq_ok.mpr ⟨moved, rowsMoved, lastCleared⟩⟩

structure InBounds (screen : Screen) : Prop where
  row : screen.cursorRow < bufferHeight
  col : screen.cursorCol < bufferWidth

theorem home_inBounds (buffer : Nat → UInt8) (row : Nat) (onScreen : row < bufferHeight) (initialized : Bool) :
    InBounds ⟨buffer, row, 0, initialized⟩ :=
  ⟨onScreen, show 0 < bufferWidth by decide⟩

theorem clearOnFirstCall_ok {screen : Screen} (bounded : InBounds screen) :
    ∃ screen', clearOnFirstCall screen = .ok screen' ∧ InBounds screen' ∧ screen'.initialized = true := by
  unfold clearOnFirstCall
  cases initialized : screen.initialized with
  | true => exact ⟨screen, rfl, bounded, initialized⟩
  | false =>
      obtain ⟨cleared, done⟩ := clearScreen_ok screen.buffer
      refine ⟨⟨cleared, 0, 0, true⟩, ?_, home_inBounds cleared 0 (by rw [bufferHeight_eq]; decide) true, rfl⟩
      rw [if_neg Bool.false_ne_true, done]
      rfl

theorem put_ok {screen : Screen} (bounded : InBounds screen) (byte : UInt8) :
    ∃ screen', put screen byte = .ok screen' ∧ InBounds screen' := by
  have inside := cell_inside bounded.row bounded.col
  have row := bounded.row
  have col := bounded.col
  have height := bufferHeight_eq
  unfold put
  by_cases newline : byte = 10
  · rw [if_pos newline]
    by_cases bottom : screen.cursorRow + 1 ≥ bufferHeight
    · obtain ⟨scrolled, done⟩ := scrollUp_ok screen.buffer
      rw [if_pos bottom, done]
      exact ⟨_, rfl, home_inBounds scrolled (bufferHeight - 1) (by omega) screen.initialized⟩
    · rw [if_neg bottom]
      exact ⟨_, rfl, home_inBounds screen.buffer (screen.cursorRow + 1) (by omega) screen.initialized⟩
  rw [if_neg newline]
  by_cases carriage : byte = 13
  · rw [if_pos carriage]
    exact ⟨_, rfl, home_inBounds screen.buffer screen.cursorRow bounded.row screen.initialized⟩
  rw [if_neg carriage]
  by_cases backspace : byte = 8
  · rw [if_pos backspace]
    by_cases moved : screen.cursorCol > 0
    · -- the cell left of the cursor is blanked
      have left := cell_inside bounded.row (show screen.cursorCol - 1 < bufferWidth by omega)
      rw [if_pos moved]
      simp only [write_ok (Nat.lt_of_succ_lt left), write_ok left, bind, Except.bind, pure, Except.pure]
      exact ⟨_, rfl, ⟨bounded.row, show screen.cursorCol - 1 < bufferWidth by omega⟩⟩
    · rw [if_neg moved]
      exact ⟨screen, rfl, bounded⟩
  rw [if_neg backspace]
  by_cases printable : 32 ≤ byte ∧ byte ≤ 126
  · rw [if_pos printable]
    simp only [write_ok (Nat.lt_of_succ_lt inside), write_ok inside, bind, Except.bind]
    by_cases wraps : screen.cursorCol + 1 ≥ bufferWidth
    · -- the row below, or the bottom row again
      rw [if_pos wraps]
      refine ⟨_, rfl, home_inBounds _ _ ?_ screen.initialized⟩
      split <;> omega
    · rw [if_neg wraps]
      exact ⟨_, rfl, ⟨bounded.row, show screen.cursorCol + 1 < bufferWidth by omega⟩⟩
  · rw [if_neg printable]
    exact ⟨screen, rfl, bounded⟩

theorem vgaWriteByte_ok {screen : Screen} (bounded : InBounds screen) (byte : UInt8) :
    ∃ screen', vgaWriteByte screen byte = .ok screen' ∧ InBounds screen' := by
  obtain ⟨ready, cleared, readyBounded, -⟩ := clearOnFirstCall_ok bounded
  obtain ⟨screen', written, bounded'⟩ := put_ok readyBounded byte
  exact ⟨screen', by simp [vgaWriteByte, cleared, written, bind, Except.bind], bounded'⟩

theorem writeBytes_ok {screen : Screen} (bounded : InBounds screen) (bytes : List UInt8) :
    ∃ screen', writeBytes screen bytes = .ok screen' ∧ InBounds screen' :=
  Loop.foldlM_ok InBounds screen bounded fun _ byte _ accBounded => vgaWriteByte_ok accBounded byte

theorem boot_inBounds (buffer : Nat → UInt8) : InBounds (boot buffer) :=
  home_inBounds buffer 0 (show 0 < bufferHeight by decide) false

theorem vga_write_byte_stays_in_buffer :
    (∀ (screen : Screen) (byte : UInt8), screen.cursorRow < bufferHeight → screen.cursorCol < bufferWidth →
      ∃ screen', vgaWriteByte screen byte = .ok screen' ∧
        screen'.cursorRow < bufferHeight ∧ screen'.cursorCol < bufferWidth) ∧
    ∀ (buffer : Nat → UInt8) (bytes : List UInt8), ∃ screen, writeBytes (boot buffer) bytes = .ok screen ∧
      screen.cursorRow < bufferHeight ∧ screen.cursorCol < bufferWidth := by
  constructor
  · intro screen byte onScreen inRow
    obtain ⟨screen', written, bounded⟩ := vgaWriteByte_ok ⟨onScreen, inRow⟩ byte
    exact ⟨screen', written, bounded.row, bounded.col⟩
  · intro buffer bytes
    obtain ⟨screen, written, bounded⟩ := writeBytes_ok (boot_inBounds buffer) bytes
    exact ⟨screen, written, bounded.row, bounded.col⟩

end Bounds

section Layout

def written (screen : Screen) (byte : UInt8) : Nat → UInt8 :=
  Function.update (Function.update screen.buffer (charOffset screen.cursorRow screen.cursorCol) byte)
    (charOffset screen.cursorRow screen.cursorCol + 1) 0x0f

theorem written_apply (screen : Screen) (byte : UInt8) (offset : Nat) :
    written screen byte offset =
      if offset = charOffset screen.cursorRow screen.cursorCol + 1 then 0x0f
      else if offset = charOffset screen.cursorRow screen.cursorCol then byte else screen.buffer offset := by
  simp only [written, Function.update_apply]

theorem not_control {byte : UInt8} (printable : 32 ≤ byte ∧ byte ≤ 126) : byte ≠ 10 ∧ byte ≠ 13 ∧ byte ≠ 8 := by
  refine ⟨?_, ?_, ?_⟩ <;> rintro rfl <;> exact absurd printable.1 (by decide)

theorem vgaWriteByte_of_initialized {screen : Screen} (initialized : screen.initialized = true) (byte : UInt8) :
    vgaWriteByte screen byte = put screen byte := by
  simp [vgaWriteByte, clearOnFirstCall, initialized, bind, Except.bind]

theorem put_newline {screen : Screen} (notBottom : screen.cursorRow + 1 < bufferHeight) :
    put screen 10 = .ok { screen with cursorCol := 0, cursorRow := screen.cursorRow + 1 } := by
  simp [put, Nat.not_le.mpr notBottom, pure, Except.pure]

theorem put_printable_inside {screen : Screen} {byte : UInt8} (printable : 32 ≤ byte ∧ byte ≤ 126)
    (onScreen : screen.cursorRow < bufferHeight) (inRow : screen.cursorCol + 1 < bufferWidth) :
    put screen byte = .ok { screen with buffer := written screen byte, cursorCol := screen.cursorCol + 1 } := by
  have inside := cell_inside onScreen (Nat.lt_of_succ_lt inRow)
  obtain ⟨notNewline, notReturn, notBackspace⟩ := not_control printable
  unfold put
  rw [if_neg notNewline, if_neg notReturn, if_neg notBackspace, if_pos printable]
  simp only [write_ok (Nat.lt_of_succ_lt inside), write_ok inside, bind, Except.bind, if_neg (Nat.not_le.mpr inRow)]
  rfl

theorem put_printable_wrap {screen : Screen} {byte : UInt8} (printable : 32 ≤ byte ∧ byte ≤ 126)
    (bottom : screen.cursorRow + 1 = bufferHeight) (last : screen.cursorCol + 1 = bufferWidth) :
    put screen byte = .ok { screen with buffer := written screen byte, cursorCol := 0 } := by
  have inside := cell_inside (show screen.cursorRow < bufferHeight by omega) (show screen.cursorCol < bufferWidth by omega)
  obtain ⟨notNewline, notReturn, notBackspace⟩ := not_control printable
  unfold put
  rw [if_neg notNewline, if_neg notReturn, if_neg notBackspace, if_pos printable]
  simp only [write_ok (Nat.lt_of_succ_lt inside), write_ok inside, bind, Except.bind, last, bottom, le_refl, if_true]
  cases screen
  simp only at bottom ⊢
  congr
  omega

theorem writeBytes_cons {screen screen' : Screen} {byte : UInt8} {bytes : List UInt8}
    (first : vgaWriteByte screen byte = .ok screen') : writeBytes screen (byte :: bytes) = writeBytes screen' bytes := by
  simp only [writeBytes, List.foldlM_cons, first]
  rfl

theorem writeBytes_append {screen screen' : Screen} {bytes bytes' : List UInt8}
    (first : writeBytes screen bytes = .ok screen') : writeBytes screen (bytes ++ bytes') = writeBytes screen' bytes' :=
  Loop.foldlM_append_ok first

theorem writeBytes_newlines (count : Nat) (screen : Screen) (initialized : screen.initialized = true)
    (home : screen.cursorCol = 0) (room : screen.cursorRow + count < bufferHeight) :
    writeBytes screen (List.replicate count 10) = .ok { screen with cursorRow := screen.cursorRow + count } := by
  induction count generalizing screen with
  | zero => rfl
  | succ count ih =>
      have moved := @put_newline screen (by omega)
      rw [← vgaWriteByte_of_initialized initialized] at moved
      rw [List.replicate_succ, writeBytes_cons moved,
        ih { screen with cursorCol := 0, cursorRow := screen.cursorRow + 1 } initialized rfl (by simp only; omega)]
      cases screen
      simp only at home ⊢
      rw [home, Nat.add_assoc, Nat.add_comm 1 count]

theorem writeBytes_printable_run (bytes : List UInt8) (screen : Screen) (initialized : screen.initialized = true)
    (onScreen : screen.cursorRow < bufferHeight) (inRow : screen.cursorCol + bytes.length < bufferWidth)
    (printable : ∀ byte ∈ bytes, 32 ≤ byte ∧ byte ≤ 126) :
    ∃ screen', writeBytes screen bytes = .ok screen' ∧ screen'.initialized = true ∧
      screen'.cursorRow = screen.cursorRow ∧ screen'.cursorCol = screen.cursorCol + bytes.length ∧
      (∀ i (inside : i < bytes.length),
        screen'.buffer (charOffset screen.cursorRow (screen.cursorCol + i)) = bytes[i]) ∧
      ∀ offset, offset < charOffset screen.cursorRow screen.cursorCol → screen'.buffer offset = screen.buffer offset := by
  induction bytes generalizing screen with
  | nil => exact ⟨screen, rfl, initialized, rfl, rfl, fun _ inside => absurd inside (Nat.not_lt_zero _), fun _ _ => rfl⟩
  | cons byte rest ih =>
      have moved := put_printable_inside (printable byte List.mem_cons_self) onScreen
        (show screen.cursorCol + 1 < bufferWidth by simp at inRow; omega)
      rw [← vgaWriteByte_of_initialized initialized] at moved
      obtain ⟨screen', run, initialized', row', col', cells, kept⟩ :=
        ih { screen with buffer := written screen byte, cursorCol := screen.cursorCol + 1 } initialized onScreen
          (by simp at inRow ⊢; omega) fun b member => printable b (List.mem_cons_of_mem byte member)
      have keptFrom : ∀ offset, offset < charOffset screen.cursorRow (screen.cursorCol + 1) →
          screen'.buffer offset = written screen byte offset := kept
      refine ⟨screen', by rw [writeBytes_cons moved, run], initialized', row', by simp [col']; omega, ?_, ?_⟩
      · intro i inside
        cases i with
        | zero =>
            rw [Nat.add_zero, keptFrom _ (by unfold charOffset; omega), written_apply, if_neg (by omega), if_pos rfl]
            rfl
        | succ j =>
            rw [show screen.cursorCol + (j + 1) = screen.cursorCol + 1 + j by omega]
            exact cells j (by simpa using inside)
      · intro offset before
        rw [keptFrom offset (by unfold charOffset at before ⊢; omega), written_apply, if_neg (by omega),
          if_neg (by omega)]

theorem writeBytes_fill_bottom_row (bytes : List UInt8) (screen : Screen) (initialized : screen.initialized = true)
    (bottom : screen.cursorRow + 1 = bufferHeight) (inRow : screen.cursorCol < bufferWidth)
    (fills : screen.cursorCol + bytes.length = bufferWidth) (printable : ∀ byte ∈ bytes, 32 ≤ byte ∧ byte ≤ 126) :
    ∃ screen', writeBytes screen bytes = .ok screen' ∧ screen'.initialized = true ∧
      screen'.cursorRow = screen.cursorRow ∧ screen'.cursorCol = 0 ∧
      (∀ i (inside : i < bytes.length),
        screen'.buffer (charOffset screen.cursorRow (screen.cursorCol + i)) = bytes[i]) ∧
      ∀ offset, offset < charOffset screen.cursorRow screen.cursorCol → screen'.buffer offset = screen.buffer offset := by
  rcases List.eq_nil_or_concat bytes with rfl | ⟨line, last, rfl⟩
  · simp only [List.length_nil, Nat.add_zero] at fills
    omega
  rw [List.concat_eq_append] at fills printable ⊢
  rw [List.length_append, List.length_singleton] at fills
  obtain ⟨full, run, initialized', row', col', cells, kept⟩ :=
    writeBytes_printable_run line screen initialized (by omega) (by omega)
      fun byte member => printable byte (List.mem_append_left _ member)
  have wrapped := put_printable_wrap (printable last (by simp)) (by rw [row']; exact bottom)
    (by rw [col', Nat.add_assoc]; exact fills)
  rw [← vgaWriteByte_of_initialized initialized'] at wrapped
  refine ⟨{ full with buffer := written full last, cursorCol := 0 },
    by rw [writeBytes_append run, writeBytes_cons wrapped]; rfl, initialized', row', rfl, fun i inside => ?_,
    fun offset before => ?_⟩
  · show written full last _ = _
    rw [written_apply, row', col', if_neg (by unfold charOffset; omega)]
    by_cases earlier : i < line.length
    · rw [if_neg (by unfold charOffset; omega), cells i earlier, List.getElem_append_left earlier]
    · obtain rfl : i = line.length := by simp at inside; omega
      rw [if_pos rfl, List.getElem_concat_length rfl]
  · show written full last offset = _
    rw [written_apply, row', col', if_neg (by unfold charOffset at before ⊢; omega),
      if_neg (by unfold charOffset at before ⊢; omega), kept offset before]

-- Printable bytes and newlines laid out as text: a line ends at each newline and right after its
-- 80th byte.
def referenceLines (bytes : List UInt8) : List (List UInt8) :=
  bytes.foldl (fun lines byte =>
    if byte = 10 then lines ++ [[]]
    else
      let line := lines.getLastD [] ++ [byte]
      if line.length = bufferWidth then lines.dropLast ++ [line, []] else lines.dropLast ++ [line]) [[]]

-- The character of a cell of that text on the screen: its last lines, top-aligned, blank past the
-- end of a line.
def referenceChar (bytes : List UInt8) (row col : Nat) : UInt8 :=
  let lines := referenceLines bytes
  (((lines.drop (lines.length - bufferHeight))[row]?).bind (·[col]?)).getD 32

-- On the bottom row, the 80th character leaves the cursor at the start of that same row: the
-- next character lands on the first one, and the row keeps the rest of the earlier line, where
-- the text has moved that line up and started a new one.
theorem bottom_row_wrap_overwrites_without_scrolling (buffer : Nat → UInt8) :
    ∃ wrapped overwritten : Screen,
      writeBytes (boot buffer) (List.replicate 24 10 ++ List.replicate 80 97) = .ok wrapped ∧
      wrapped.cursorRow = 24 ∧ wrapped.cursorCol = 0 ∧ wrapped.buffer (charOffset 24 0) = 97 ∧
      vgaWriteByte wrapped 98 = .ok overwritten ∧ overwritten.buffer (charOffset 24 0) = 98 ∧
      overwritten.buffer (charOffset 24 1) = 97 ∧
      referenceChar (List.replicate 24 10 ++ List.replicate 80 97 ++ [98]) 24 1 = 32 := by
  obtain ⟨cleared, clearedEq⟩ := clearScreen_ok buffer
  have first : vgaWriteByte (boot buffer) 10 = .ok ⟨cleared, 1, 0, true⟩ := by
    have home : clearOnFirstCall (boot buffer) = .ok ⟨cleared, 0, 0, true⟩ := by
      simp [clearOnFirstCall, boot, clearedEq, bind, Except.bind, pure, Except.pure]
    simp only [vgaWriteByte, home, bind, Except.bind]
    exact @put_newline ⟨cleared, 0, 0, true⟩ (show 0 + 1 < bufferHeight by decide)
  let bottom : Screen := ⟨cleared, 24, 0, true⟩
  have toBottom : writeBytes (boot buffer) (List.replicate 24 10) = .ok bottom := by
    show writeBytes (boot buffer) (10 :: List.replicate 23 10) = _
    rw [writeBytes_cons first]
    exact writeBytes_newlines 23 ⟨cleared, 1, 0, true⟩ rfl rfl (show 1 + 23 < bufferHeight by decide)
  obtain ⟨wrapped, filled, wrappedInitialized, wrappedRow, wrappedCol, cells, -⟩ :=
    writeBytes_fill_bottom_row (List.replicate 80 97) bottom rfl (show 24 + 1 = bufferHeight by decide)
      (show 0 < bufferWidth by decide) (show 0 + 80 = bufferWidth by decide)
      fun byte member => by rw [List.eq_of_mem_replicate member]; decide
  replace wrappedRow : wrapped.cursorRow = 24 := wrappedRow
  have firstCell : wrapped.buffer (charOffset 24 0) = 97 := cells 0 (by decide)
  have secondCell : wrapped.buffer (charOffset 24 1) = 97 := cells 1 (by decide)
  let overwritten : Screen := { wrapped with buffer := written wrapped 98, cursorCol := wrapped.cursorCol + 1 }
  have next : vgaWriteByte wrapped 98 = .ok overwritten := by
    rw [vgaWriteByte_of_initialized wrappedInitialized]
    exact put_printable_inside (by decide) (show wrapped.cursorRow < bufferHeight by rw [wrappedRow]; decide)
      (show wrapped.cursorCol + 1 < bufferWidth by rw [wrappedCol]; decide)
  refine ⟨wrapped, overwritten, by rw [writeBytes_append toBottom, filled], wrappedRow, wrappedCol, firstCell, next,
    ?_, ?_, by decide +kernel⟩
  · show written wrapped 98 (charOffset 24 0) = 98
    rw [written_apply, wrappedRow, wrappedCol, if_neg (by decide), if_pos rfl]
  · show written wrapped 98 (charOffset 24 1) = 97
    rw [written_apply, wrappedRow, wrappedCol, if_neg (by decide), if_neg (by decide), secondCell]

end Layout

end Screen

end Emos.Vga
