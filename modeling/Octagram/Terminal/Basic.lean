/-
`terminal/mod.rs` and `graphics/mod.rs`: pixels, glyphs and scrolling in the framebuffer. Addresses
are offsets from `framebuffer.addr()`; an access outside of the framebuffer has no result, as has an
index outside of the font. The framebuffer lies in memory, so no `u64` sum here overflows.
-/
import Octagram.Lib.Raster
import Octagram.Terminal.Font

namespace Octagram.Terminal

open Octagram.Lib

/-- The framebuffer of the response to `FRAMEBUFFER_REQUEST`, with 32 bits per pixel. -/
structure Framebuffer where
  width : Nat
  height : Nat
  pitch : Nat

/-- The framebuffer's bytes, `POSITION_X` and `POSITION_Y`. -/
structure Screen where
  bytes : Ram
  positionX : Nat
  positionY : Nat

namespace Framebuffer

variable (fb : Framebuffer)

/-- The bytes of the framebuffer. -/
def size : Nat := fb.pitch * fb.height

/-- `ptr::write` of a `u32`, least significant byte first. -/
def write (offset : Nat) (pixel : BitVec 32) (m : Ram) : Option Ram :=
  if offset + 4 ≤ fb.size then
    some (m.setBytes offset ((List.range 4).map fun i => UInt8.ofNat (pixel.toNat / 256 ^ i)))
  else
    none

/-- `ptr::copy` inside the framebuffer. -/
def copy (src dst n : Nat) (m : Ram) : Option Ram :=
  if src + n ≤ fb.size ∧ dst + n ≤ fb.size then some (m.copy src dst n) else none

/-- `ptr::write_bytes`. -/
def writeBytes (offset n : Nat) (b : UInt8) (m : Ram) : Option Ram :=
  if offset + n ≤ fb.size then some (m.fill offset n b) else none

/-- `write_pixel`: every pixel from one position up to the other. -/
def writePixel (fromPosition toPosition : Nat × Nat) (pixel : BitVec 32 × BitVec 32 × BitVec 32)
    (m : Ram) : Option Ram :=
  (List.range' fromPosition.2 (toPosition.2 - fromPosition.2)).foldlM (fun m y =>
    (List.range' fromPosition.1 (toPosition.1 - fromPosition.1)).foldlM (fun m x =>
      fb.write (y * fb.pitch + x * 4) (pixel.1 <<< 16 ||| pixel.2.1 <<< 8 ||| pixel.2.2) m) m) m

/-- `scroll_framebuffer`; the subtraction of `usize` values panics below 0. -/
def scroll (lineHeight : Nat) (m : Ram) : Option Ram := do
  let scrollBytes := fb.pitch * lineHeight
  let totalBytes := fb.pitch * fb.height
  if scrollBytes ≤ totalBytes then
    let m ← fb.copy scrollBytes 0 (totalBytes - scrollBytes) m
    fb.writeBytes (totalBytes - scrollBytes) scrollBytes 0 m
  else
    none

/-- A new line: the lines are 16 pixels high, and the screen scrolls when the next one does not fit. -/
def newLine (s : Screen) : Option Screen := do
  let y := s.positionY + 16
  if y + 16 > fb.height then
    let m ← fb.scroll 16 s.bytes
    some ⟨m, 0, y - 16⟩
  else
    some ⟨s.bytes, 0, y⟩

/-- The two loops over the bits of a glyph. -/
def drawGlyph (index x y : Nat) (m : Ram) : Option Ram :=
  (List.range 16).foldlM (fun m line => do
    let rows ← FONT8X16[index]?
    let bits ← rows[line]?
    (List.range 8).foldlM (fun m i =>
      if bits &&& (0x80 >>> UInt8.ofNat i) ≠ 0 then
        fb.writePixel (x + i, y + line) (x + i + 1, y + line + 1) (255, 255, 255) m
      else
        some m) m) m

/-- A new line before a character that does not fit. -/
def wrap (s : Screen) : Option Screen := if s.positionX + 16 > fb.width then fb.newLine s else some s

/-- The body of the loop of `terminal_print`. -/
def printChar (s : Screen) (c : Char) : Option Screen :=
  if c = '\n' then
    fb.newLine s
  else do
    let s ← fb.wrap s
    let m ← fb.drawGlyph c.toNat s.positionX s.positionY s.bytes
    some ⟨m, s.positionX + 8, s.positionY⟩

end Framebuffer

/-- `terminal_print`, which does nothing without a framebuffer. -/
def terminalPrint (response : Option Framebuffer) (s : Screen) (string : String) : Option Screen :=
  match response with
  | none => some s
  | some fb => string.toList.foldlM fb.printChar s

/-- A sequence of calls. -/
def terminalPrints (response : Option Framebuffer) (s : Screen) (strings : List String) : Option Screen :=
  strings.foldlM (terminalPrint response) s

end Octagram.Terminal
