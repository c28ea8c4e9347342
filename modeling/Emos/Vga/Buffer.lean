import Mathlib
import Emos.Lib.Checked
import Emos.Lib.Loop

set_option autoImplicit false

/- The text-mode writer of vga_buffer.rs behind print! and println!: a grid of 25 rows of 80
   (character, colour) cells of which only the bottom row is written, and a newline that moves
   every row up one and blanks the bottom row. The grid is the `[[_; 80]; 25]` of the source as a
   function on `Fin`, indexed with Rust's bounds check, and `column_position += 1` panics on
   overflow of a `usize`; the results below show that neither happens. A string is the list of
   its bytes, what `s.bytes()` iterates. -/
namespace Emos.VgaBuffer

open Checked

-- The VGA palette, `#[repr(u8)]` with the discriminants 0 to 15 in this order.
inductive Color where
  | black | blue | green | cyan | red | magenta | brown | lightGray
  | darkGray | lightBlue | lightGreen | lightCyan | lightRed | pink | yellow | white
deriving DecidableEq, Repr

def Color.toU8 : Color → UInt8
  | .black => 0 | .blue => 1 | .green => 2 | .cyan => 3 | .red => 4 | .magenta => 5 | .brown => 6
  | .lightGray => 7 | .darkGray => 8 | .lightBlue => 9 | .lightGreen => 10 | .lightCyan => 11
  | .lightRed => 12 | .pink => 13 | .yellow => 14 | .white => 15

structure ColorCode where
  code : UInt8
deriving DecidableEq, Repr

def ColorCode.new (foreground background : Color) : ColorCode :=
  ⟨background.toU8 <<< 4 ||| foreground.toU8⟩

structure ScreenChar where
  asciiCharacter : UInt8
  colorCode : ColorCode
deriving DecidableEq, Repr

def bufferHeight : Nat := 25
def bufferWidth : Nat := 80

abbrev Buffer := Fin bufferHeight → Fin bufferWidth → ScreenChar

structure Writer where
  columnPosition : Nat
  colorCode : ColorCode
  buffer : Buffer

-- The writer behind the global `WRITER`: yellow on black, at the start of the bottom row.
def writerInit (buffer : Buffer) : Writer := ⟨0, ColorCode.new .yellow .black, buffer⟩

namespace Writer

def read (buffer : Buffer) (row col : Nat) : Except Panic ScreenChar := do
  index (← index buffer row) col

def write (buffer : Buffer) (row col : Nat) (character : ScreenChar) : Except Panic Buffer := do
  let line ← index buffer row
  setIndex buffer row (← setIndex line col character)

def clearRow (self : Writer) (row : Nat) : Except Panic Writer := do
  let blank : ScreenChar := ⟨32, self.colorCode⟩
  let buffer ← (List.range bufferWidth).foldlM (fun buffer col => write buffer row col blank) self.buffer
  pure { self with buffer := buffer }

def moveUp (buffer : Buffer) (row col : Nat) : Except Panic Buffer := do
  let character ← read buffer row col
  write buffer (← sub row 1) col character

def newLine (self : Writer) : Except Panic Writer := do
  let buffer ← (List.range' 1 (bufferHeight - 1)).foldlM
    (fun buffer row => (List.range bufferWidth).foldlM (fun buffer col => moveUp buffer row col) buffer)
    self.buffer
  let self ← clearRow { self with buffer := buffer } (bufferHeight - 1)
  pure { self with columnPosition := 0 }

-- A byte other than a newline goes to the bottom row, after a new line once the row is full.
def writeByte (self : Writer) (byte : UInt8) : Except Panic Writer :=
  if byte = 10 then newLine self
  else do
    let self ← if self.columnPosition ≥ bufferWidth then newLine self else pure self
    let buffer ← write self.buffer (bufferHeight - 1) self.columnPosition ⟨byte, self.colorCode⟩
    let columnPosition ← add 64 self.columnPosition 1
    pure { self with buffer := buffer, columnPosition := columnPosition }

-- Printable ASCII and newlines are written as they are, every other byte as 0xfe.
def writeString (self : Writer) (s : List UInt8) : Except Panic Writer :=
  s.foldlM (fun self byte =>
    if (0x20 ≤ byte ∧ byte ≤ 0x7e) ∨ byte = 10 then writeByte self byte else writeByte self 0xfe) self

section Cells

def bottomRow : Fin bufferHeight := ⟨bufferHeight - 1, Nat.le_of_ble_eq_true rfl⟩

def blankRow (colorCode : ColorCode) : Fin bufferWidth → ScreenChar := fun _ => ⟨32, colorCode⟩

def setCell (buffer : Buffer) (row : Fin bufferHeight) (col : Fin bufferWidth) (character : ScreenChar) : Buffer :=
  Function.update buffer row (Function.update (buffer row) col character)

theorem read_ok (buffer : Buffer) {row col : Nat} (onScreen : row < bufferHeight) (inRow : col < bufferWidth) :
    read buffer row col = .ok (buffer ⟨row, onScreen⟩ ⟨col, inRow⟩) := by
  simp [read, onScreen, inRow, bind, Except.bind]

theorem write_ok (buffer : Buffer) {row col : Nat} (onScreen : row < bufferHeight) (inRow : col < bufferWidth)
    (character : ScreenChar) :
    write buffer row col character = .ok (setCell buffer ⟨row, onScreen⟩ ⟨col, inRow⟩ character) := by
  simp [write, setCell, onScreen, inRow, bind, Except.bind]

theorem fillRow_ok (buffer : Buffer) (target : Fin bufferHeight) (line : Fin bufferWidth → ScreenChar)
    (body : Buffer → Nat → Except Panic Buffer)
    (writes : ∀ current (col : Fin bufferWidth), (∀ row, row ≠ target → current row = buffer row) →
      body current col = .ok (setCell current target col (line col))) :
    (List.range bufferWidth).foldlM body buffer = .ok (Function.update buffer target line) := by
  let filled (k : Nat) : Buffer :=
    Function.update buffer target fun col => if col.val < k then line col else buffer target col
  obtain ⟨result, ran, last⟩ := Loop.foldlM_range'_ok (fun k current => current = filled k) 0 bufferWidth buffer
    (by simp [filled]) fun k current _ inside same => by
      subst same
      refine ⟨_, writes (filled k) ⟨k, inside⟩ fun row other => Function.update_of_ne other _ _, ?_⟩
      simp only [filled, setCell, Function.update_self, Function.update_idem]
      congr 1
      exact Loop.update_prefix line (buffer target) inside
  rw [List.range_eq_range', ran, last]
  simp [filled]

theorem clearRow_ok (self : Writer) {row : Nat} (onScreen : row < bufferHeight) :
    clearRow self row =
      .ok { self with buffer := Function.update self.buffer ⟨row, onScreen⟩ (blankRow self.colorCode) } := by
  have cleared := fillRow_ok self.buffer ⟨row, onScreen⟩ (blankRow self.colorCode)
    (fun buffer col => write buffer row col ⟨32, self.colorCode⟩)
    fun current col _ => write_ok current onScreen col.isLt _
  simp only [clearRow, cleared, bind, Except.bind, pure, Except.pure]

-- The grid once the passes of `new_line`'s outer loop below row `k` have run: each row above `k -
-- 1` holds the row below it, and the others are as they were.
def movedUpTo (buffer : Buffer) (k : Nat) : Buffer := fun row =>
  if below : row.val + 1 < k ∧ row.val + 1 < bufferHeight then buffer ⟨row.val + 1, below.2⟩ else buffer row

theorem movedUpTo_succ (buffer : Buffer) {k : Nat} (low : 1 ≤ k) (onScreen : k < bufferHeight) :
    Function.update (movedUpTo buffer k) ⟨k - 1, by omega⟩ (movedUpTo buffer k ⟨k, onScreen⟩) =
      movedUpTo buffer (k + 1) := by
  funext row
  by_cases target : row = ⟨k - 1, by omega⟩
  · subst target
    have above : k - 1 + 1 < k + 1 ∧ k - 1 + 1 < bufferHeight := by omega
    simp only [Function.update_self, movedUpTo, dif_neg (show ¬(k + 1 < k ∧ k + 1 < bufferHeight) by omega),
      dif_pos above]
    congr 1
    ext
    simp only
    omega
  · have other : row.val ≠ k - 1 := fun same => target (Fin.ext same)
    rw [Function.update_of_ne target]
    by_cases moved : row.val + 1 < k
    · simp [movedUpTo, moved, show row.val + 1 < k + 1 by omega]
    · simp [movedUpTo, moved, show ¬row.val + 1 < k + 1 by omega]

theorem moveUp_ok (current : Buffer) {row : Nat} (low : 1 ≤ row) (onScreen : row < bufferHeight)
    (col : Fin bufferWidth) :
    moveUp current row col =
      .ok (setCell current ⟨row - 1, by omega⟩ col (current ⟨row, onScreen⟩ col)) := by
  simp only [moveUp, read_ok current onScreen col.isLt, sub_of_le row 1 low, bind, Except.bind]
  exact write_ok current _ col.isLt _

theorem moveRows_ok (buffer : Buffer) :
    (List.range' 1 (bufferHeight - 1)).foldlM
        (fun buffer row => (List.range bufferWidth).foldlM (fun buffer col => moveUp buffer row col) buffer) buffer =
      .ok (movedUpTo buffer bufferHeight) := by
  have loop : ∃ result, (List.range' 1 (bufferHeight - 1)).foldlM
      (fun buffer row => (List.range bufferWidth).foldlM (fun buffer col => moveUp buffer row col) buffer) buffer =
        .ok result ∧ result = movedUpTo buffer (1 + (bufferHeight - 1)) :=
    Loop.foldlM_range'_ok (fun k current => current = movedUpTo buffer k)
      1 (bufferHeight - 1) buffer (by funext row; simp [movedUpTo]) fun k current low inside same => by
      subst same
      have onScreen : k < bufferHeight := by simp [bufferHeight] at inside ⊢; omega
      refine ⟨_, fillRow_ok (movedUpTo buffer k) ⟨k - 1, by omega⟩ (movedUpTo buffer k ⟨k, onScreen⟩) _
        fun current col frame => ?_, movedUpTo_succ buffer low onScreen⟩
      have untouched : current ⟨k, onScreen⟩ = movedUpTo buffer k ⟨k, onScreen⟩ :=
        frame _ fun same => by simp [Fin.ext_iff] at same; omega
      rw [moveUp_ok current low onScreen col, untouched]
  obtain ⟨result, ran, last⟩ := loop
  rw [ran, last]
  rfl

-- What `new_line` leaves: every row moved up one, the bottom row blank.
def scrolled (buffer : Buffer) (colorCode : ColorCode) : Buffer := fun row =>
  if below : row.val + 1 < bufferHeight then buffer ⟨row.val + 1, below⟩ else blankRow colorCode

theorem scrolled_bottom (buffer : Buffer) (colorCode : ColorCode) :
    scrolled buffer colorCode bottomRow = blankRow colorCode := by
  simp [scrolled, bottomRow, bufferHeight]

theorem scrolled_above (buffer : Buffer) (colorCode : ColorCode) {row : Fin bufferHeight}
    (above : row.val + 1 < bufferHeight) : scrolled buffer colorCode row = buffer ⟨row.val + 1, above⟩ := by
  simp [scrolled, above]

theorem newLine_ok (self : Writer) :
    newLine self = .ok { self with buffer := scrolled self.buffer self.colorCode, columnPosition := 0 } := by
  have cleared := clearRow_ok { self with buffer := movedUpTo self.buffer bufferHeight }
    (show bufferHeight - 1 < bufferHeight by decide)
  unfold newLine
  rw [moveRows_ok]
  simp only [cleared, bind, Except.bind, pure, Except.pure]
  congr 2
  funext row
  by_cases bottom : row = ⟨bufferHeight - 1, Nat.le_of_ble_eq_true rfl⟩
  · subst bottom
    rw [Function.update_self]
    exact (scrolled_bottom _ _).symm
  · have above : row.val + 1 < bufferHeight := by
      have := row.isLt
      simp [Fin.ext_iff] at bottom
      omega
    rw [Function.update_of_ne bottom, scrolled_above _ _ above]
    simp [movedUpTo, above]

theorem scrolled_aboveBottom (buffer : Buffer) (colorCode : ColorCode) :
    scrolled buffer colorCode ⟨bufferHeight - 2, Nat.le_of_ble_eq_true rfl⟩ = buffer bottomRow :=
  rfl

end Cells

section Bytes

theorem writeByte_newline (self : Writer) : writeByte self 10 = newLine self := by
  simp [writeByte]

theorem writeByte_put (self : Writer) {byte : UInt8} (notNewline : byte ≠ 10)
    (inRow : self.columnPosition < bufferWidth) :
    writeByte self byte = .ok { self with
      buffer := setCell self.buffer bottomRow ⟨self.columnPosition, inRow⟩ ⟨byte, self.colorCode⟩,
      columnPosition := self.columnPosition + 1 } := by
  have fits : self.columnPosition + 1 < 2 ^ 64 := by simp [bufferWidth] at inRow; omega
  unfold writeByte
  rw [if_neg notNewline, if_neg (Nat.not_le.mpr inRow)]
  simp only [pure, Except.pure, bind, Except.bind,
    write_ok self.buffer (show bufferHeight - 1 < bufferHeight by decide) inRow, add_of_lt 64 _ 1 fits]
  rfl

theorem writeByte_wrap (self : Writer) {byte : UInt8} (notNewline : byte ≠ 10)
    (full : bufferWidth ≤ self.columnPosition) :
    writeByte self byte = .ok { self with
      buffer := setCell (scrolled self.buffer self.colorCode) bottomRow ⟨0, Nat.le_of_ble_eq_true rfl⟩
        ⟨byte, self.colorCode⟩,
      columnPosition := 1 } := by
  unfold writeByte
  rw [if_neg notNewline, if_pos full, newLine_ok]
  simp only [bind, Except.bind,
    write_ok _ (show bufferHeight - 1 < bufferHeight by decide) (show 0 < bufferWidth by decide),
    add_of_lt 64 0 1 (by decide)]
  rfl

theorem writeByte_ok (self : Writer) (byte : UInt8) :
    ∃ self', writeByte self byte = .ok self' ∧ self'.columnPosition ≤ bufferWidth ∧
      self'.colorCode = self.colorCode := by
  by_cases newline : byte = 10
  · subst newline
    exact ⟨_, (writeByte_newline self).trans (newLine_ok self), Nat.zero_le _, rfl⟩
  · by_cases inRow : self.columnPosition < bufferWidth
    · exact ⟨_, writeByte_put self newline inRow, inRow, rfl⟩
    · exact ⟨_, writeByte_wrap self newline (Nat.le_of_not_lt inRow), by simp [bufferWidth], rfl⟩

theorem writeString_cons {self self' : Writer} {byte : UInt8} {rest : List UInt8}
    (kept : (0x20 ≤ byte ∧ byte ≤ 0x7e) ∨ byte = 10) (first : writeByte self byte = .ok self') :
    writeString self (byte :: rest) = writeString self' rest := by
  simp only [writeString, List.foldlM_cons, if_pos kept, first]
  rfl

theorem writeString_append {self self' : Writer} {s t : List UInt8} (first : writeString self s = .ok self') :
    writeString self (s ++ t) = writeString self' t :=
  Loop.foldlM_append_ok first

theorem writeString_newline (self : Writer) :
    writeString self [10] = .ok { self with buffer := scrolled self.buffer self.colorCode, columnPosition := 0 } := by
  rw [writeString_cons (.inr rfl) ((writeByte_newline self).trans (newLine_ok self))]
  rfl

def typedRow (line : Fin bufferWidth → ScreenChar) (start : Nat) (s : List UInt8) (colorCode : ColorCode) :
    Fin bufferWidth → ScreenChar := fun col =>
  if start ≤ col.val ∧ col.val < start + s.length then ⟨s.getD (col.val - start) 0, colorCode⟩ else line col

theorem typedRow_nil (line : Fin bufferWidth → ScreenChar) (start : Nat) (colorCode : ColorCode) :
    typedRow line start [] colorCode = line := by
  funext col
  simp [typedRow]

theorem typedRow_cons (line : Fin bufferWidth → ScreenChar) {start : Nat} (inRow : start < bufferWidth)
    (byte : UInt8) (rest : List UInt8) (colorCode : ColorCode) :
    typedRow (Function.update line ⟨start, inRow⟩ ⟨byte, colorCode⟩) (start + 1) rest colorCode =
      typedRow line start (byte :: rest) colorCode := by
  funext col
  by_cases here : col = ⟨start, inRow⟩
  · subst here
    simp [typedRow]
  · have other : col.val ≠ start := fun same => here (Fin.ext same)
    by_cases after : start + 1 ≤ col.val ∧ col.val < start + 1 + rest.length
    · have shifted : col.val - start = col.val - (start + 1) + 1 := by omega
      simp only [typedRow]
      rw [if_pos after, if_pos (by simp; omega), shifted]
      simp
    · simp only [typedRow]
      rw [if_neg after, if_neg (by simp; omega), Function.update_of_ne here]

theorem writeString_printable_run (s : List UInt8) (self : Writer)
    (fits : self.columnPosition + s.length ≤ bufferWidth) (printable : ∀ byte ∈ s, 0x20 ≤ byte ∧ byte ≤ 0x7e) :
    writeString self s = .ok { self with
      buffer := Function.update self.buffer bottomRow
        (typedRow (self.buffer bottomRow) self.columnPosition s self.colorCode),
      columnPosition := self.columnPosition + s.length } := by
  induction s generalizing self with
  | nil =>
      simp only [writeString, typedRow_nil, Function.update_eq_self, List.length_nil, Nat.add_zero]
      rfl
  | cons byte rest ih =>
      have inRow : self.columnPosition < bufferWidth := by simp at fits; omega
      have notNewline : byte ≠ 10 := by
        rintro rfl
        exact absurd (printable 10 List.mem_cons_self).1 (by decide)
      rw [writeString_cons (.inl (printable byte List.mem_cons_self)) (writeByte_put self notNewline inRow),
        ih _ (by simp at fits ⊢; omega) fun b member => printable b (List.mem_cons_of_mem byte member)]
      simp only [setCell, Function.update_self, Function.update_idem, typedRow_cons, List.length_cons]
      congr 2
      omega

-- At 80 bytes the deferred wrap never fires: the newline comes first.
theorem println_leaves_line_above_blank_bottom_row :
    (∀ (writer : Writer) (bytes : List UInt8), writer.columnPosition ≤ bufferWidth →
      ∃ writer', bytes.foldlM writeByte writer = .ok writer' ∧ writer'.columnPosition ≤ bufferWidth) ∧
    ∀ (writer : Writer) (s : List UInt8), writer.columnPosition ≤ bufferWidth → s.length ≤ bufferWidth →
      (∀ byte ∈ s, 0x20 ≤ byte ∧ byte ≤ 0x7e) →
      ∃ writer', writeString writer ([10] ++ s ++ [10]) = .ok writer' ∧
        (∀ (col : Fin bufferWidth) (inLine : col.val < s.length),
          writer'.buffer ⟨bufferHeight - 2, Nat.le_of_ble_eq_true rfl⟩ col = ⟨s[col.val], writer.colorCode⟩) ∧
        (∀ col, writer'.buffer ⟨bufferHeight - 1, Nat.le_of_ble_eq_true rfl⟩ col = ⟨32, writer.colorCode⟩) ∧
        writer'.columnPosition = 0 := by
  refine ⟨fun writer bytes bounded => ?_, fun writer s _ short printable => ?_⟩
  · -- the invariant needs no hypothesis of its own: every call leaves the column within the row
    obtain ⟨writer', ran, inRow⟩ := Loop.foldlM_ok (fun self : Writer => self.columnPosition ≤ bufferWidth)
      writer bounded fun self byte _ _ => (writeByte_ok self byte).imp fun _ written => ⟨written.1, written.2.1⟩
    exact ⟨writer', ran, inRow⟩
  · let opened : Writer := { writer with buffer := scrolled writer.buffer writer.colorCode, columnPosition := 0 }
    have typed := writeString_printable_run s opened (by simpa [opened] using short) printable
    have line : writeString writer ([10] ++ s) = .ok { opened with
        buffer := Function.update opened.buffer bottomRow (typedRow (opened.buffer bottomRow) 0 s writer.colorCode),
        columnPosition := 0 + s.length } := by
      rw [writeString_append (writeString_newline writer), typed]
    refine ⟨_, by rw [writeString_append line, writeString_newline], fun col inLine => ?_, fun col => ?_, rfl⟩
    · dsimp only
      rw [scrolled_aboveBottom, Function.update_self]
      simp [typedRow, inLine]
    · dsimp only
      exact congrFun (scrolled_bottom _ _) col

theorem println_output_at_full_width :
    let writer := writerInit fun _ _ => ⟨32, ColorCode.new .yellow .black⟩
    let s := List.replicate 80 (97 : UInt8)
    ∃ writer', writeString writer ([10] ++ s ++ [10]) = .ok writer' ∧
      (∀ (col : Fin bufferWidth) (inLine : col.val < s.length),
        writer'.buffer ⟨bufferHeight - 2, Nat.le_of_ble_eq_true rfl⟩ col = ⟨s[col.val], writer.colorCode⟩) ∧
      (∀ col, writer'.buffer ⟨bufferHeight - 1, Nat.le_of_ble_eq_true rfl⟩ col = ⟨32, writer.colorCode⟩) ∧
      writer'.columnPosition = 0 :=
  println_leaves_line_above_blank_bottom_row.2 _ _ (Nat.zero_le _) (by simp [bufferWidth])
    fun byte member => by rw [List.eq_of_mem_replicate member]; decide

end Bytes

section Lines

-- The screen after `lines` were printed, each followed by a newline, by a writer at column `column`
-- over `buffer`: the bottom row blank, above it the lines in order with the last one lowest, and
-- above those the rows that were on screen before, moved up one row per line. The first line was
-- written over what the bottom row held from `column` on, the others over blank rows; lines moved
-- past the top are gone.
def printedRow (buffer : Buffer) (column : Nat) (colorCode : ColorCode) (lines : List (List UInt8))
    (row : Fin bufferHeight) : Fin bufferWidth → ScreenChar :=
  if row = bottomRow then blankRow colorCode
  else if above : row.val + lines.length < bufferHeight - 1 then buffer ⟨row.val + lines.length, by omega⟩
  else if row.val + lines.length = bufferHeight - 1 then typedRow (buffer bottomRow) column (lines.getD 0 []) colorCode
  else typedRow (blankRow colorCode) 0 (lines.getD (row.val + lines.length - (bufferHeight - 1)) []) colorCode

theorem writeString_line (self : Writer) (line : List UInt8) (fits : self.columnPosition + line.length ≤ bufferWidth)
    (printable : ∀ byte ∈ line, 0x20 ≤ byte ∧ byte ≤ 0x7e) :
    writeString self (line ++ [10]) = .ok { self with
      buffer := scrolled (Function.update self.buffer bottomRow
        (typedRow (self.buffer bottomRow) self.columnPosition line self.colorCode)) self.colorCode,
      columnPosition := 0 } := by
  rw [writeString_append (writeString_printable_run line self fits printable), writeString_newline]

theorem ne_bottomRow {row : Fin bufferHeight} (above : row.val < bufferHeight - 1) : row ≠ bottomRow :=
  fun same => by
    rw [same] at above
    exact absurd above (Nat.lt_irrefl _)

theorem lt_of_ne_bottomRow {row : Fin bufferHeight} (other : row ≠ bottomRow) : row.val < bufferHeight - 1 := by
  have := row.isLt
  have different : row.val ≠ bufferHeight - 1 := fun same => other (Fin.ext same)
  omega

theorem printedRow_nil {buffer : Buffer} {colorCode : ColorCode} (blank : buffer bottomRow = blankRow colorCode)
    (column : Nat) : printedRow buffer column colorCode [] = buffer := by
  funext row
  unfold printedRow
  by_cases bottom : row = bottomRow
  · rw [if_pos bottom, bottom, blank]
  · rw [if_neg bottom, dif_pos (by simpa using lt_of_ne_bottomRow bottom)]
    rfl

theorem printedRow_cons (buffer : Buffer) (column : Nat) (colorCode : ColorCode) (line : List UInt8)
    (rest : List (List UInt8)) (row : Fin bufferHeight) :
    printedRow (scrolled (Function.update buffer bottomRow (typedRow (buffer bottomRow) column line colorCode)) colorCode)
        0 colorCode rest row =
      printedRow buffer column colorCode (line :: rest) row := by
  unfold printedRow
  by_cases bottom : row = bottomRow
  · rw [if_pos bottom, if_pos bottom]
  rw [if_neg bottom, if_neg bottom]
  have below := lt_of_ne_bottomRow bottom
  simp only [List.length_cons]
  by_cases oldRow : row.val + rest.length < bufferHeight - 1
  · -- on the screen before this line: one row further down, or the line's own row
    rw [dif_pos oldRow, scrolled_above _ _ (show row.val + rest.length + 1 < bufferHeight by omega)]
    by_cases older : row.val + (rest.length + 1) < bufferHeight - 1
    · rw [dif_pos older, Function.update_of_ne (ne_bottomRow (show row.val + rest.length + 1 < bufferHeight - 1 by omega))]
      congr 1
    · have here : (⟨row.val + rest.length + 1, by omega⟩ : Fin bufferHeight) = bottomRow := Fin.ext (by
        show row.val + rest.length + 1 = bufferHeight - 1
        omega)
      rw [dif_neg older, if_pos (by omega), here, Function.update_self]
      rfl
  · -- one of the later lines, written over a row that `new_line` had blanked
    have later : ¬ row.val + (rest.length + 1) = bufferHeight - 1 := by omega
    rw [dif_neg oldRow, dif_neg (by omega), if_neg later, scrolled_bottom]
    have shifted : row.val + (rest.length + 1) - (bufferHeight - 1) =
        row.val + rest.length - (bufferHeight - 1) + 1 := by omega
    rw [shifted, List.getD_cons_succ]
    split
    · rename_i first
      rw [first, Nat.sub_self]
    · rfl

theorem printed_lines_scroll_up_the_screen (self : Writer) (lines : List (List UInt8)) (nonempty : lines ≠ [])
    (first : self.columnPosition + (lines.headD []).length ≤ bufferWidth)
    (short : ∀ line ∈ lines, line.length ≤ bufferWidth)
    (printable : ∀ line ∈ lines, ∀ byte ∈ line, 0x20 ≤ byte ∧ byte ≤ 0x7e) :
    writeString self (lines.flatMap (· ++ [10])) = .ok { self with
      buffer := fun row => printedRow self.buffer self.columnPosition self.colorCode lines row,
      columnPosition := 0 } := by
  induction lines generalizing self with
  | nil => exact absurd rfl nonempty
  | cons line rest ih =>
      have printed := writeString_line self line first (printable line List.mem_cons_self)
      rw [List.flatMap_cons, writeString_append printed]
      by_cases done : rest = []
      · subst done
        simp only [List.flatMap_nil, writeString, List.foldlM_nil, pure, Except.pure, Except.ok.injEq]
        congr 1
        funext row
        rw [← printedRow_cons, printedRow_nil (scrolled_bottom _ _)]
      · have nextFits : 0 + (rest.headD []).length ≤ bufferWidth := by
          obtain ⟨next, others, rfl⟩ := List.exists_cons_of_ne_nil done
          simpa using short next (List.mem_cons_of_mem line List.mem_cons_self)
        rw [ih { self with
            buffer := scrolled (Function.update self.buffer bottomRow
              (typedRow (self.buffer bottomRow) self.columnPosition line self.colorCode)) self.colorCode,
            columnPosition := 0 } done nextFits
          (fun l member => short l (List.mem_cons_of_mem line member))
          (fun l member => printable l (List.mem_cons_of_mem line member))]
        congr 2
        funext row
        exact printedRow_cons _ _ _ _ _ row

theorem hi_ok_printed_on_blank_screen :
    let writer := writerInit fun _ _ => ⟨32, ColorCode.new .yellow .black⟩
    let lines : List (List UInt8) := [[104, 105], [111, 107]]
    lines ≠ [] ∧ writer.columnPosition + (lines.headD []).length ≤ bufferWidth ∧
    (∀ line ∈ lines, line.length ≤ bufferWidth) ∧ (∀ line ∈ lines, ∀ byte ∈ line, 0x20 ≤ byte ∧ byte ≤ 0x7e) ∧
    writeString writer (lines.flatMap (· ++ [10])) = .ok { writer with
      buffer := fun row => printedRow writer.buffer writer.columnPosition writer.colorCode lines row,
      columnPosition := 0 } := by
  intro writer lines
  have nonempty : lines ≠ [] := by decide
  have first : writer.columnPosition + (lines.headD []).length ≤ bufferWidth := by decide
  have short : ∀ line ∈ lines, line.length ≤ bufferWidth := by decide
  have printable : ∀ line ∈ lines, ∀ byte ∈ line, 0x20 ≤ byte ∧ byte ≤ 0x7e := by
    intro line member byte inLine
    simp only [lines, List.mem_cons, List.mem_nil_iff, or_false] at member
    rcases member with rfl | rfl <;>
    · simp only [List.mem_cons, List.mem_nil_iff, or_false] at inLine
      rcases inLine with rfl | rfl <;> decide
  exact ⟨nonempty, first, short, printable,
    printed_lines_scroll_up_the_screen writer lines nonempty first short printable⟩

end Lines

end Writer

end Emos.VgaBuffer
