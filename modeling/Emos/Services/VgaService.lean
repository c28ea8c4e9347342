import Mathlib
import Emos.Lib.Checked
import Emos.Lib.Loop
import Emos.Vga.Buffer

set_option autoImplicit false

/- The display service of services/vga_service.rs. Its types and its `write_byte`,
   `write_string`, `new_line` and `clear_row` repeat those of vga_buffer.rs over the same text
   buffer, so they are the writer's applied to the service's own fields; `clear_screen` and
   `set_color` are its own. -/
namespace Emos.Services

open Checked VgaBuffer

structure VgaService where
  columnPosition : Nat
  colorCode : ColorCode
  buffer : Buffer

namespace VgaService

def new (buffer : Buffer) : VgaService := ⟨0, ColorCode.new .yellow .black, buffer⟩

def toWriter (self : VgaService) : Writer := ⟨self.columnPosition, self.colorCode, self.buffer⟩

def ofWriter (writer : Writer) : VgaService := ⟨writer.columnPosition, writer.colorCode, writer.buffer⟩

def writeString (self : VgaService) (s : List UInt8) : Except Panic VgaService :=
  ofWriter <$> Writer.writeString self.toWriter s

def writeByte (self : VgaService) (byte : UInt8) : Except Panic VgaService :=
  ofWriter <$> Writer.writeByte self.toWriter byte

def newLine (self : VgaService) : Except Panic VgaService :=
  ofWriter <$> Writer.newLine self.toWriter

def clearRow (self : VgaService) (row : Nat) : Except Panic VgaService :=
  ofWriter <$> Writer.clearRow self.toWriter row

def clearScreen (self : VgaService) : Except Panic VgaService := do
  let self ← (List.range bufferHeight).foldlM (fun self row => self.clearRow row) self
  pure { self with columnPosition := 0 }

def setColor (self : VgaService) (foreground background : Color) : VgaService :=
  { self with colorCode := ColorCode.new foreground background }

theorem clearRow_ok (self : VgaService) {row : Nat} (onScreen : row < bufferHeight) :
    clearRow self row =
      .ok { self with buffer := Function.update self.buffer ⟨row, onScreen⟩ (Writer.blankRow self.colorCode) } := by
  simp only [clearRow, Writer.clearRow_ok self.toWriter onScreen]
  rfl

theorem clearScreen_ok (self : VgaService) :
    clearScreen self = .ok { self with buffer := fun _ => Writer.blankRow self.colorCode, columnPosition := 0 } := by
  let cleared (k : Nat) : VgaService :=
    { self with buffer := fun row => if row.val < k then Writer.blankRow self.colorCode else self.buffer row }
  have loop : ∃ result, (List.range' 0 bufferHeight).foldlM (fun self row => self.clearRow row) self = .ok result ∧
      result = cleared (0 + bufferHeight) :=
    Loop.foldlM_range'_ok (fun k current => current = cleared k) 0 bufferHeight self
      (by simp only [cleared, Nat.not_lt_zero, if_false]) fun k current _ inside same => by
        subst same
        refine ⟨_, clearRow_ok (cleared k) (by omega), ?_⟩
        simp only [cleared, VgaService.mk.injEq, true_and]
        exact Loop.update_prefix (fun _ => Writer.blankRow self.colorCode) self.buffer _
  obtain ⟨result, ran, rfl⟩ := loop
  rw [clearScreen, List.range_eq_range', ran]
  simp only [cleared, Nat.zero_add, Fin.is_lt, if_true]
  rfl

theorem writeString_printable_run (s : List UInt8) (self : VgaService)
    (fits : self.columnPosition + s.length ≤ bufferWidth) (printable : ∀ byte ∈ s, 0x20 ≤ byte ∧ byte ≤ 0x7e) :
    writeString self s = .ok { self with
      buffer := Function.update self.buffer Writer.bottomRow
        (Writer.typedRow (self.buffer Writer.bottomRow) self.columnPosition s self.colorCode),
      columnPosition := self.columnPosition + s.length } := by
  rw [writeString, Writer.writeString_printable_run s self.toWriter fits printable]
  rfl

-- The writer has a single output row: after `clear_screen` homes the column, a line still goes to
-- the bottom row.
theorem clear_screen_then_line_on_bottom_row (self : VgaService) (foreground background : Color)
    (s : List UInt8) (short : s.length ≤ bufferWidth) (printable : ∀ byte ∈ s, 0x20 ≤ byte ∧ byte ≤ 0x7e) :
    ∃ self', (self.clearScreen >>= fun cleared => (cleared.setColor foreground background).writeString s) = .ok self' ∧
      (∀ row col, self'.buffer row col =
        if row = Writer.bottomRow ∧ col.val < s.length then ⟨s.getD col.val 0, ColorCode.new foreground background⟩
        else ⟨32, self.colorCode⟩) ∧
      self'.columnPosition = s.length ∧ self'.colorCode = ColorCode.new foreground background := by
  let cleared : VgaService := { self with buffer := fun _ => Writer.blankRow self.colorCode, columnPosition := 0 }
  have typed := writeString_printable_run s (cleared.setColor foreground background) (by simpa [cleared, setColor] using short)
    printable
  refine ⟨_, by rw [clearScreen_ok]; exact typed, fun row col => ?_, Nat.zero_add _, rfl⟩
  by_cases bottom : row = Writer.bottomRow
  · subst bottom
    simp [cleared, setColor, Writer.typedRow, Writer.blankRow]
  · simp [cleared, setColor, bottom, Writer.blankRow]

theorem hi_on_bottom_row_after_clear :
    [104, 105].length ≤ bufferWidth ∧ (∀ byte ∈ ([104, 105] : List UInt8), 0x20 ≤ byte ∧ byte ≤ 0x7e) ∧
      ∃ self', ((new fun _ _ => ⟨0, ⟨0⟩⟩).clearScreen >>= fun cleared =>
          (cleared.setColor .white .blue).writeString [104, 105]) = .ok self' ∧
        (∀ row col, self'.buffer row col =
          if row = Writer.bottomRow ∧ col.val < 2 then ⟨[104, 105].getD col.val 0, ColorCode.new .white .blue⟩
          else ⟨32, ColorCode.new .yellow .black⟩) ∧
        self'.columnPosition = 2 ∧ self'.colorCode = ColorCode.new .white .blue :=
  ⟨by decide, by simp, clear_screen_then_line_on_bottom_row _ _ _ _ (by decide) (by simp)⟩

end VgaService

end Emos.Services
