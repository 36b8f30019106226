/-
`terminal_print` one statement at a time, with a record of what its writes touch: the statements
that read or write `POSITION_X`, `POSITION_Y` or the framebuffer are the operations, and a handler
can come between any two. Run by itself it is the `terminalPrint` of one step, function by function
(`terminalPrint_takes`). `Preempted` puts the handler's calls in between.
-/
import Octagram.Lib.Preempt
import Octagram.Terminal.Grid

namespace Octagram.Terminal

open Octagram.Lib

/-- What a write touches: a pixel, or bytes at an offset in the framebuffer. -/
inductive Access
  | pixel (x y : Nat)
  | bytes (offset n : Nat)

/-- The access is inside of the framebuffer. -/
def Access.Inside (fb : Framebuffer) : Access → Prop
  | pixel x y => x < fb.width ∧ y < fb.height
  | bytes offset n => offset + n ≤ fb.size

/-- The screen, and every access so far. -/
structure Display extends Screen where
  accesses : List Access

/-- The statements of `terminal_print` that read or write its statics or the framebuffer. -/
inductive Statement
  /-- `POSITION_Y += 16` -/
  | down
  /-- `POSITION_X = 0` -/
  | home
  /-- `POSITION_Y + 16 > framebuffer.height()` -/
  | below
  | scroll
  /-- `POSITION_Y -= 16` -/
  | up
  /-- `POSITION_X + 16 > framebuffer.width()`, before the characters `rest` -/
  | full (rest : List Char)
  /-- `write_pixel` for a bit of a row -/
  | light (line i : Nat)
  /-- `POSITION_X += 8`, before the characters `rest` -/
  | advance (rest : List Char)
  /-- an index outside of the font -/
  | outOfBounds

/-- What a statement answers. -/
abbrev Statement.Ret : Statement → Type
  | below | full _ => Bool
  | _ => Unit

/-- Programs over the statements. -/
abbrev PrintProg (α : Type) := Prog Statement Statement.Ret α

/-- The program of one statement. -/
abbrev Statement.step (o : Statement) : PrintProg o.Ret := Prog.call o

namespace Framebuffer

variable (fb : Framebuffer)

/-- What `scroll_framebuffer` reads and writes. -/
def scrollAccesses : List Access :=
  [.bytes (fb.pitch * 16) (fb.size - fb.pitch * 16), .bytes 0 (fb.size - fb.pitch * 16),
    .bytes (fb.size - fb.pitch * 16) (fb.pitch * 16)]

/-- The display after `scroll_framebuffer`. -/
def scrolled (d : Display) : Display :=
  { d with bytes := (fb.scroll 16 d.bytes).getD d.bytes, accesses := d.accesses ++ fb.scrollAccesses }

/-- The display after `write_pixel` of one pixel. -/
def lit (x y : Nat) (d : Display) : Display :=
  { d with
    bytes := (fb.writePixel (x, y) (x + 1, y + 1) (255, 255, 255) d.bytes).getD d.bytes
    accesses := d.accesses ++ [.pixel x y] }

/-- What a statement does; `none` is a panic. A write outside of the framebuffer is one to memory that is
not the screen's. -/
def exec : (o : Statement) → Display → Option (o.Ret × Display)
  | .down, d => some ((), { d with positionY := d.positionY + 16 })
  | .home, d => some ((), { d with positionX := 0 })
  | .below, d => some (decide (d.positionY + 16 > fb.height), d)
  | .scroll, d => if fb.pitch * 16 ≤ fb.size then some ((), fb.scrolled d) else none
  | .up, d => if 16 ≤ d.positionY then some ((), { d with positionY := d.positionY - 16 }) else none
  | .full _, d => some (decide (d.positionX + 16 > fb.width), d)
  | .light line i, d => some ((), fb.lit (d.positionX + i) (d.positionY + line) d)
  | .advance _, d => some ((), { d with positionX := d.positionX + 8 })
  | .outOfBounds, _ => none

end Framebuffer

namespace Steps

open Prog

/-- A new line. -/
def newLine : PrintProg Unit := do
  Statement.step .down
  Statement.step .home
  if ← Statement.step .below then
    Statement.step .scroll
    Statement.step .up

/-- The loop over the bits of a row. -/
def drawRow (line : Nat) (bits : UInt8) : PrintProg Unit :=
  forM (List.range 8) fun i => if bits &&& (0x80 >>> UInt8.ofNat i) ≠ 0 then Statement.step (.light line i) else pure ()

/-- `FONT8X16[index][line]` -/
def fontRow (index line : Nat) : Option UInt8 := FONT8X16[index]?.bind fun rows => rows[line]?

/-- The two loops over the bits of a glyph. -/
def drawGlyph (index : Nat) : PrintProg Unit :=
  forM (List.range 16) fun line =>
    match fontRow index line with
    | some bits => drawRow line bits
    | none => Statement.step .outOfBounds

/-- A new line before a character that does not fit. -/
def wrap (rest : List Char) : PrintProg Unit := do
  if ← Statement.step (.full rest) then
    newLine

/-- The body of the loop of `terminal_print`, before the characters `rest`. -/
def printChar (c : Char) (rest : List Char) : PrintProg Unit :=
  if c = '\n' then
    newLine
  else do
    wrap rest
    drawGlyph c.toNat
    Statement.step (.advance rest)

/-- `terminal_print`, where there is a framebuffer. -/
def terminalPrint : List Char → PrintProg Unit
  | [] => pure ()
  | c :: rest => do
    printChar c rest
    terminalPrint rest

/-! ## Without interference -/

section Alone

variable {fb : Framebuffer} {d : Display} {s : Screen} {m : Ram}

/-- The program takes the display from one screen to the other. -/
def Takes (fb : Framebuffer) (p : PrintProg Unit) (d : Display) (s : Screen) : Prop :=
  ∃ accesses, p.eval fb.exec d = some ((), ⟨s, accesses⟩)

theorem Takes.seq {p : PrintProg Unit} {f : Unit → PrintProg Unit} {s' : Screen} (hp : Takes fb p d s)
    (hf : ∀ accesses, Takes fb (f ()) ⟨s, accesses⟩ s') : Takes fb (p >>= f) d s' := by
  obtain ⟨accesses, he⟩ := hp
  obtain ⟨accesses', he'⟩ := hf accesses
  exact ⟨accesses', by rw [eval_seq he, he']⟩

/-- The display after a new line. -/
def newLined (fb : Framebuffer) (d : Display) : Display :=
  if d.positionY + 16 + 16 > fb.height then { fb.scrolled d with positionX := 0 }
  else { d with positionX := 0, positionY := d.positionY + 16 }

theorem exec_scroll (h : fb.pitch * 16 ≤ fb.size) (d : Display) :
    fb.exec .scroll d = some ((), fb.scrolled d) := if_pos h

theorem exec_up (h : 16 ≤ d.positionY) : fb.exec .up d = some ((), { d with positionY := d.positionY - 16 }) := if_pos h

theorem newLine_eval (h : fb.pitch * 16 ≤ fb.size) (d : Display) :
    newLine.eval fb.exec d = some ((), newLined fb d) := by
  unfold newLine newLined
  rw [eval_call rfl, eval_call rfl, eval_call rfl]
  by_cases hb : d.positionY + 16 + 16 > fb.height
  · rw [if_pos (decide_eq_true hb), if_pos hb, eval_call (exec_scroll h _)]
    exact eval_op (exec_up (Nat.le_add_left 16 d.positionY))
  · rw [if_neg (by simpa using hb), if_neg hb]
    rfl

theorem newLine_takes (h : fb.newLine d.toScreen = some s) : Takes fb newLine d s := by
  unfold Framebuffer.newLine at h
  change (if d.positionY + 16 + 16 > fb.height then _ else _) = _ at h
  by_cases hb : d.positionY + 16 + 16 > fb.height
  · rw [if_pos hb] at h
    obtain ⟨m, hm, hs⟩ := Option.bind_eq_some_iff.1 h
    cases hs
    have hsize : fb.pitch * 16 ≤ fb.size := by
      unfold Framebuffer.scroll at hm
      by_contra hn
      cases (if_neg hn).symm.trans hm
    refine ⟨d.accesses ++ fb.scrollAccesses, ?_⟩
    rw [newLine_eval hsize]
    unfold newLined Framebuffer.scrolled
    rw [if_pos hb, hm]
    rfl
  · rw [if_neg hb] at h
    cases h
    unfold newLine
    rw [Takes, eval_call rfl, eval_call rfl, eval_call rfl, if_neg (by simpa using hb)]
    exact ⟨_, rfl⟩

theorem drawRow_takes {line : Nat} {bits : UInt8}
    (h : (List.range 8).foldlM (fun m i => if bits &&& (0x80 >>> UInt8.ofNat i) ≠ 0 then
      fb.writePixel (d.positionX + i, d.positionY + line) (d.positionX + i + 1, d.positionY + line + 1)
        (255, 255, 255) m
      else some m) d.bytes = some m) : Takes fb (drawRow line bits) d ⟨m, d.positionX, d.positionY⟩ := by
  unfold drawRow
  generalize List.range 8 = l at h ⊢
  induction l generalizing d with
  | nil =>
    cases h
    exact ⟨_, rfl⟩
  | cons i l ih =>
    rw [List.foldlM_cons] at h
    obtain ⟨m₁, h₁, h⟩ := Option.bind_eq_some_iff.1 h
    rw [List.forM_cons]
    refine Takes.seq (s := ⟨m₁, d.positionX, d.positionY⟩) ?_ fun accesses => ih h
    by_cases hb : bits &&& (0x80 >>> UInt8.ofNat i) ≠ 0
    · rw [if_pos hb] at h₁ ⊢
      refine ⟨d.accesses ++ [.pixel (d.positionX + i) (d.positionY + line)], ?_⟩
      show some ((), fb.lit (d.positionX + i) (d.positionY + line) d) = _
      unfold Framebuffer.lit
      rw [h₁]
      rfl
    · rw [if_neg hb] at h₁ ⊢
      cases h₁
      exact ⟨_, rfl⟩

theorem drawGlyph_takes {index : Nat} (h : fb.drawGlyph index d.positionX d.positionY d.bytes = some m) :
    Takes fb (drawGlyph index) d ⟨m, d.positionX, d.positionY⟩ := by
  unfold Framebuffer.drawGlyph at h
  unfold drawGlyph
  generalize List.range 16 = l at h ⊢
  induction l generalizing d with
  | nil =>
    cases h
    exact ⟨_, rfl⟩
  | cons line l ih =>
    rw [List.foldlM_cons] at h
    obtain ⟨m₁, h₁, h⟩ := Option.bind_eq_some_iff.1 h
    obtain ⟨rows, hrows, h₁⟩ := Option.bind_eq_some_iff.1 h₁
    obtain ⟨bits, hbits, h₁⟩ := Option.bind_eq_some_iff.1 h₁
    have hrow : fontRow index line = some bits := by rw [fontRow, hrows, Option.bind_some, hbits]
    rw [List.forM_cons, hrow]
    exact Takes.seq (drawRow_takes h₁) fun accesses => ih (d := ⟨⟨m₁, d.positionX, d.positionY⟩, accesses⟩) h

theorem wrap_takes (rest : List Char) (h : fb.wrap d.toScreen = some s) : Takes fb (wrap rest) d s := by
  unfold Framebuffer.wrap at h
  unfold wrap
  rw [Takes, eval_call rfl]
  by_cases hf : d.positionX + 16 > fb.width
  · rw [if_pos hf] at h
    rw [if_pos (decide_eq_true hf)]
    exact newLine_takes h
  · rw [if_neg hf] at h
    cases h
    rw [if_neg (by simpa using hf)]
    exact ⟨_, rfl⟩

theorem printChar_takes {c : Char} (rest : List Char) (h : fb.printChar d.toScreen c = some s) :
    Takes fb (printChar c rest) d s := by
  unfold Framebuffer.printChar at h
  unfold printChar
  by_cases hn : c = '\n'
  · rw [if_pos hn] at h ⊢
    exact newLine_takes h
  · rw [if_neg hn] at h ⊢
    obtain ⟨s₁, h₁, h⟩ := Option.bind_eq_some_iff.1 h
    obtain ⟨m, hm, h⟩ := Option.bind_eq_some_iff.1 h
    cases h
    refine Takes.seq (wrap_takes rest h₁) fun accesses => ?_
    exact Takes.seq (drawGlyph_takes (d := ⟨s₁, accesses⟩) hm) fun accesses => ⟨_, rfl⟩

/-- Without a handler in between, the statements are those of `terminalPrint`. -/
theorem terminalPrint_takes {string : String} (h : Terminal.terminalPrint (some fb) d.toScreen string = some s) :
    Takes fb (terminalPrint string.toList) d s := by
  change string.toList.foldlM fb.printChar d.toScreen = some s at h
  generalize string.toList = l at h ⊢
  induction l generalizing d with
  | nil =>
    cases h
    exact ⟨_, rfl⟩
  | cons c rest ih =>
    rw [List.foldlM_cons] at h
    obtain ⟨s₁, h₁, h⟩ := Option.bind_eq_some_iff.1 h
    exact Takes.seq (printChar_takes rest h₁) fun accesses => ih (d := ⟨s₁, accesses⟩) h

end Alone

end Steps

end Octagram.Terminal
