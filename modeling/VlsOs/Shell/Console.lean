import VlsOs.Libc.Itoa
import VlsOs.Net.Wire

/-! What the shell commands do to the outside.

    A command prints characters, has `itoa` write into its local arrays, and calls the network layer.
    Its model records these as events: what is on the screen afterwards is the printed characters in
    order, and whether a local array is large enough is a statement about each store. -/

namespace VlsOs.Shell
open Patterns.Trace VlsOs.Libc VlsOs.Net

/-- What a command does, in order. -/
inductive CmdEvent
  /-- Characters go to the screen. -/
  | print (characters : List UInt8)
  /-- `itoa` writes `bytes` from the start of a local array of `size` characters on. -/
  | store (size : ℕ) (bytes : List UInt8)
  /-- The network layer does something. -/
  | net (event : RxEvent)
  deriving DecidableEq

/-- `vga_write_string`: the characters up to the NUL. -/
def vgaWriteString (s : List UInt8) : Traced CmdEvent Unit := emit (.print (text s))

def vgaWriteChar (c : UInt8) : Traced CmdEvent Unit := emit (.print [c])

/-- `itoa(value, buf, base)` on a local array of `size` characters: what starts at `buf` afterwards. -/
def itoaInto (size : ℕ) (buf : List UInt8) (value base : Int32) : Traced CmdEvent (List UInt8) := do
  emit (.store size (itoa value [] base))
  return itoa value buf base

/-- `itoa` into an array of `size` characters, and `vga_write_string` of the array. -/
def printNumber (size : ℕ) (buf : List UInt8) (value base : Int32) : Traced CmdEvent (List UInt8) := do
  let buf ← itoaInto size buf value base
  vgaWriteString buf
  return buf

/-- The characters that an event puts on the screen. -/
def CmdEvent.shown : CmdEvent → List UInt8
  | .print characters => characters
  | _ => []

/-- What a command puts on the screen. -/
def output {α : Type} (x : Traced CmdEvent α) : List UInt8 := x.events.flatMap CmdEvent.shown

section Output
variable {α β : Type}

@[simp] theorem output_pure (a : α) : output (pure a) = [] := rfl

@[simp] theorem output_bind (x : Traced CmdEvent α) (f : α → Traced CmdEvent β) :
    output (x >>= f) = output x ++ output (f x.val) := List.flatMap_append

@[simp] theorem output_vgaWriteString (s : List UInt8) : output (vgaWriteString s) = text s :=
  List.flatMap_singleton CmdEvent.shown _

@[simp] theorem output_vgaWriteChar (c : UInt8) : output (vgaWriteChar c) = [c] := rfl

@[simp] theorem output_itoaInto (size : ℕ) (buf : List UInt8) (value base : Int32) :
    output (itoaInto size buf value base) = [] := rfl

@[simp] theorem val_itoaInto (size : ℕ) (buf : List UInt8) (value base : Int32) :
    (itoaInto size buf value base).val = itoa value buf base := rfl

theorem output_loop (body : ℕ → α → Traced CmdEvent α) (n : ℕ) (a : α) :
    output (loop body n a) = (List.range n).flatMap fun i => output (body i (loop body i a).val) := by
  induction n with
  | zero => rfl
  | succ n ih =>
    rw [loop, output_bind, ih, List.range_succ, List.flatMap_append, List.flatMap_singleton]

end Output

/-- A literal without a NUL in it is printed whole. -/
theorem text_chars {s : String} (h : 0 ∉ chars s) : text (chars s) = chars s := text_of_no_nul h

/-! ### Numbers on the screen -/

theorem output_printNumber {b : ℕ} (hlow : 2 ≤ b) (hhigh : b ≤ 36) (size : ℕ) (buf : List UInt8)
    (value : Int32) :
    output (printNumber size buf value (Int32.ofNat b)) = itoaText value (Int32.ofNat b) := by
  simp [printNumber, text_itoa hlow hhigh]

@[simp] theorem output_printDecimal (size : ℕ) (buf : List UInt8) (value : Int32) :
    output (printNumber size buf value 10) = itoaText value 10 :=
  output_printNumber (b := 10) (by decide) (by decide) size buf value

@[simp] theorem output_printHex (size : ℕ) (buf : List UInt8) (value : Int32) :
    output (printNumber size buf value 16) = itoaText value 16 :=
  output_printNumber (b := 16) (by decide) (by decide) size buf value

@[simp] theorem text_printDecimal (size : ℕ) (buf : List UInt8) (value : Int32) :
    text (printNumber size buf value 10).val = itoaText value 10 :=
  text_itoa (b := 10) (by decide) (by decide) value buf

end VlsOs.Shell
