/-
The terminal as a text grid: the text broken into lines, of which the framebuffer shows the last
ones that fit, and nothing else (`terminal_refines_grid`). `Grid` relates the two: the picture of
the lines is in the framebuffer, and the cursor is at the end of the last one. A new line, scrolling
or not, and a character each keep it (`newLine_grid`, `type_grid`), and with them a call and a
sequence of calls; the pixels of a glyph are followed row by row by `Lib.Raster`.
-/
import Mathlib.Data.List.GetD
import Octagram.Lib.Loop
import Octagram.Terminal.Basic

namespace Octagram.Terminal

open Octagram.Lib

/-! ## Lines of text -/

/-- The lines that are complete, and the current one. -/
structure Layout where
  before : List (List Char)
  current : List Char

namespace Layout

/-- No text. -/
def empty : Layout := ⟨[], []⟩

/-- All lines, the current one last. -/
def lines (l : Layout) : List (List Char) := l.before ++ [l.current]

/-- The current line is complete. -/
def newLine (l : Layout) : Layout := ⟨l.before ++ [l.current], []⟩

/-- A character at the end of the current line. -/
def type (l : Layout) (c : Char) : Layout := ⟨l.before, l.current ++ [c]⟩

/-- A newline ends the line, and so does a character whose cell does not fit into it. -/
def put (width : Nat) (l : Layout) (c : Char) : Layout :=
  if c = '\n' then l.newLine
  else if 8 * l.current.length + 16 > width then l.newLine.type c
  else l.type c

end Layout

/-- The text broken into lines. -/
def layout (width : Nat) (text : List Char) : Layout := text.foldl (Layout.put width) Layout.empty

/-- The last `n` lines, or all of them. -/
def lastLines (n : Nat) (ls : List (List Char)) : List (List Char) := ls.drop (ls.length - n)

/-! ## Pictures of text -/

/-- A bit of a character's bitmap. -/
def glyphBit (index line i : Nat) : Bool := ((FONT8X16.getD index []).getD line 0) &&& (0x80 >>> UInt8.ofNat i) ≠ 0

/-- Character `k` of a line at column `8 * k`, lines 16 rows apart. -/
def picture (rows : List (List Char)) : Picture := fun r c =>
  match (rows.getD (r / 16) [])[c / 8]? with
  | none => false
  | some ch => glyphBit ch.toNat (r % 16) (c % 8)

/-- The bytes of a white pixel. -/
def white : List UInt8 := [255, 255, 255, 0]

/-- One memory shows the picture, and is the other one outside of the framebuffer. -/
def Draws (fb : Framebuffer) (m m' : Ram) (p : Picture) : Prop :=
  Shows white fb.pitch fb.height m' p ∧ ∀ a, fb.size ≤ a → m' a = m a

/-- The framebuffer shows the last lines that fit and nothing else, and the cursor is at the end of the
last one. -/
structure Grid (fb : Framebuffer) (m : Ram) (l : Layout) (s : Screen) : Prop where
  draws : Draws fb m s.bytes (picture (lastLines (fb.height / 16) l.lines))
  positionX : s.positionX = 8 * l.current.length
  positionY : s.positionY = 16 * ((lastLines (fb.height / 16) l.lines).length - 1)

/-! ## Pictures and lines -/

theorem picture_nil : picture [[]] = Picture.blank := by
  funext r c
  cases h : r / 16 <;> simp [picture, Picture.blank, h]

/-- An empty line shows nothing. -/
theorem picture_newLine (rows : List (List Char)) : picture (rows ++ [[]]) = picture rows := by
  funext r c
  have hrow : (rows ++ [[]]).getD (r / 16) [] = rows.getD (r / 16) [] := by
    rcases Nat.lt_trichotomy (r / 16) rows.length with h | h | h
    · simp [List.getElem?_append_left h]
    · simp [h]
    · rw [List.getD_eq_default _ _ (by simp; omega), List.getD_eq_default _ _ (Nat.le_of_lt h)]
  unfold picture
  rw [hrow]

/-- Scrolling by a line drops the first one. -/
theorem picture_up (first : List Char) (rest : List (List Char)) {height : Nat} (h : 16 * (rest.length + 1) ≤ height) :
    (picture (first :: rest)).up 16 height = picture rest := by
  funext r c
  unfold Picture.up
  by_cases hr : r + 16 < height
  · rw [decide_eq_true hr, Bool.true_and]
    unfold picture
    rw [show (r + 16) / 16 = r / 16 + 1 by omega, Nat.add_mod_right, List.getD_cons_succ]
  · rw [decide_eq_false hr, Bool.false_and]
    unfold picture
    rw [List.getD_eq_default _ _ (by omega)]
    rfl

/-- A character at the end of the last line is one more block of pixels. -/
theorem picture_type (rows : List (List Char)) (line : List Char) (c : Char) :
    picture (rows ++ [line ++ [c]]) =
      (picture (rows ++ [line])).block (16 * rows.length) (8 * line.length) 16 8 (glyphBit c.toNat) := by
  funext r col
  unfold Picture.block
  rcases Nat.lt_trichotomy (r / 16) rows.length with h | h | h
  · -- a line before the last
    have hout : ¬ (16 * rows.length ≤ r ∧ r < 16 * rows.length + 16) := by omega
    rw [decide_eq_false hout, Bool.false_and, Bool.false_and, Bool.or_false]
    unfold picture
    rw [List.getD_append _ _ _ _ h, List.getD_append _ _ _ _ h]
  · -- in the last line: left of the character, in it, or right of it
    have hin : 16 * rows.length ≤ r ∧ r < 16 * rows.length + 16 := by omega
    have hlast : ∀ l : List Char, (rows ++ [l]).getD (r / 16) [] = l := fun l => by simp [h]
    unfold picture
    rw [decide_eq_true hin, Bool.true_and, hlast, hlast]
    rcases Nat.lt_trichotomy (col / 8) line.length with hc | hc | hc
    · have hout : ¬ (8 * line.length ≤ col ∧ col < 8 * line.length + 8) := by omega
      rw [decide_eq_false hout, Bool.false_and, Bool.or_false, List.getElem?_append_left hc]
    · have hcol : 8 * line.length ≤ col ∧ col < 8 * line.length + 8 := by omega
      rw [decide_eq_true hcol, Bool.true_and, hc, List.getElem?_concat_length, List.getElem?_eq_none (Nat.le_refl _)]
      rw [show r % 16 = r - 16 * rows.length by omega, show col % 8 = col - 8 * line.length by omega]
      rfl
    · have hout : ¬ (8 * line.length ≤ col ∧ col < 8 * line.length + 8) := by omega
      rw [decide_eq_false hout, Bool.false_and, Bool.or_false, List.getElem?_eq_none (by simp; omega),
        List.getElem?_eq_none (Nat.le_of_lt hc)]
  · -- below the last line
    have hout : ¬ (16 * rows.length ≤ r ∧ r < 16 * rows.length + 16) := by omega
    rw [decide_eq_false hout, Bool.false_and, Bool.false_and, Bool.or_false]
    unfold picture
    rw [List.getD_eq_default _ _ (by simp; omega), List.getD_eq_default _ _ (by simp; omega)]

/-! ## Glyphs -/

section Glyphs

variable {fb : Framebuffer} {m : Ram} {p : Picture} {x y : Nat}

theorem writePixel_draws {m₀ : Ram} (h : Draws fb m₀ m p) (hx : 4 * x + 4 ≤ fb.pitch) (hy : y < fb.height) :
    ∃ m', fb.writePixel (x, y) (x + 1, y + 1) (255, 255, 255) m = some m' ∧ Draws fb m₀ m' (p.light y x) := by
  have hin : y * fb.pitch + x * 4 + 4 ≤ fb.size := pixel_lt hx hy
  have hwhite : (List.range 4).map
    (fun i => UInt8.ofNat ((255#32 <<< 16 ||| 255#32 <<< 8 ||| 255#32).toNat / 256 ^ i)) = white := by
    decide
  refine ⟨m.setBytes (y * fb.pitch + x * 4) white, ?_, h.1.light rfl hx, fun a ha => ?_⟩
  · unfold Framebuffer.writePixel
    simp only [Nat.add_sub_cancel_left, List.range'_one, List.foldlM_cons, List.foldlM_nil, bind_pure]
    unfold Framebuffer.write
    rw [if_pos hin]
    exact congrArg (fun l => some (m.setBytes _ l)) hwhite
  · rw [Ram.setBytes_outside _ (.inr (Nat.le_trans hin ha))]
    exact h.2 a ha

/-- The inner loop: the bits of one row. -/
theorem drawRow_draws {m₀ : Ram} (h : Draws fb m₀ m p) (bits : UInt8) (hx : 4 * (x + 8) ≤ fb.pitch)
    (hy : y < fb.height) : ∃ m', (List.range 8).foldlM (fun m i => if bits &&& (0x80 >>> UInt8.ofNat i) ≠ 0 then
        fb.writePixel (x + i, y) (x + i + 1, y + 1) (255, 255, 255) m else some m) m = some m' ∧
      Draws fb m₀ m' (p.stripe y x 8 fun i => bits &&& (0x80 >>> UInt8.ofNat i) ≠ 0) := by
  refine foldlM_range (fun i m' => Draws fb m₀ m' (p.stripe y x i fun i => bits &&& (0x80 >>> UInt8.ofNat i) ≠ 0)) ?_ ?_
  · rw [Picture.stripe_zero]
    exact h
  · intro i hi m₁ h₁
    rw [Picture.stripe_succ]
    by_cases hb : bits &&& (0x80 >>> UInt8.ofNat i) ≠ 0
    · rw [if_pos hb, if_pos (decide_eq_true hb)]
      exact writePixel_draws h₁ (by omega) hy
    · rw [if_neg hb, if_neg (by simpa using hb)]
      exact ⟨m₁, rfl, h₁⟩

/-- A glyph is the block of its bits. -/
theorem drawGlyph_draws {m₀ : Ram} (h : Draws fb m₀ m p) {index : Nat} (hi : index < 128) (hx : 4 * (x + 8) ≤ fb.pitch)
    (hy : y + 16 ≤ fb.height) :
    ∃ m', fb.drawGlyph index x y m = some m' ∧ Draws fb m₀ m' (p.block y x 16 8 (glyphBit index)) := by
  refine foldlM_range (fun line m' => Draws fb m₀ m' (p.block y x line 8 (glyphBit index))) ?_ ?_
  · rw [Picture.block_zero]
    exact h
  · intro line hl m₁ h₁
    obtain ⟨hlen, hrows⟩ := font_size
    have hindex : index < FONT8X16.length := by rw [hlen]; exact hi
    have hline : line < FONT8X16[index].length := by rw [hrows _ (List.getElem_mem hindex)]; exact hl
    have hbit : glyphBit index line = fun i => FONT8X16[index][line] &&& (0x80 >>> UInt8.ofNat i) ≠ 0 := by
      unfold glyphBit
      rw [List.getD_eq_getElem _ _ hindex, List.getD_eq_getElem _ _ hline]
    rw [Picture.block_succ, hbit, List.getElem?_eq_getElem hindex]
    show ∃ m', (FONT8X16[index][line]?.bind _) = some m' ∧ _
    rw [List.getElem?_eq_getElem hline]
    exact drawRow_draws h₁ _ hx (by omega)

end Glyphs

/-! ## The terminal -/

section Terminal

variable {fb : Framebuffer} {m : Ram} {l : Layout} {s : Screen}

/-- The lines before the current one that the framebuffer shows. -/
def Layout.shown (l : Layout) (n : Nat) : List (List Char) := l.before.drop (l.before.length + 1 - n)

theorem lastLines_lines {n : Nat} (hn : 0 < n) : lastLines n l.lines = l.shown n ++ [l.current] := by
  unfold lastLines Layout.lines Layout.shown
  rw [List.length_append, List.length_singleton, List.drop_append_of_le_length (by omega)]

theorem shown_length (n : Nat) : (l.shown n).length = min l.before.length (n - 1) := by
  unfold Layout.shown
  rw [List.length_drop]
  omega

/-- A new line is one more line shown, or takes the place of the first one. -/
theorem shown_newLine {n : Nat} (hn : 0 < n) :
    l.newLine.shown n = if (l.shown n).length + 1 < n then l.shown n ++ [l.current]
      else (l.shown n ++ [l.current]).tail := by
  have hlen := shown_length (l := l) n
  have happ : l.shown n ++ [l.current] = (l.before ++ [l.current]).drop (l.before.length + 1 - n) := by
    unfold Layout.shown
    rw [List.drop_append_of_le_length (by omega)]
  have hnew : l.newLine.shown n = (l.before ++ [l.current]).drop (l.before.length + 2 - n) := by
    unfold Layout.shown Layout.newLine
    rw [List.length_append, List.length_singleton]
  rw [hnew, happ]
  split
  · rw [show l.before.length + 2 - n = 0 by omega, show l.before.length + 1 - n = 0 by omega]
  · rw [List.tail_drop]
    congr 1
    omega

/-- What `Grid` says, by the lines before the current one. -/
theorem grid_iff (hh : 16 ≤ fb.height) : Grid fb m l s ↔
    Draws fb m s.bytes (picture (l.shown (fb.height / 16) ++ [l.current])) ∧ s.positionX = 8 * l.current.length ∧
      s.positionY = 16 * (l.shown (fb.height / 16)).length := by
  have hlines := lastLines_lines (l := l) (n := fb.height / 16) (by omega)
  constructor
  · rintro ⟨hd, hx, hy⟩
    rw [hlines] at hd hy
    rw [List.length_append, List.length_singleton, Nat.add_sub_cancel] at hy
    exact ⟨hd, hx, hy⟩
  · rintro ⟨hd, hx, hy⟩
    refine ⟨?_, hx, ?_⟩
    · rw [hlines]
      exact hd
    · rw [hlines, List.length_append, List.length_singleton, Nat.add_sub_cancel]
      exact hy

theorem scroll_draws {p : Picture} {b : Ram} (h : Draws fb m b p) (hh : 16 ≤ fb.height) (hp : 0 < fb.pitch) :
    ∃ b', fb.scroll 16 b = some b' ∧ Draws fb m b' (p.up 16 fb.height) := by
  have hle : fb.pitch * 16 ≤ fb.pitch * fb.height := Nat.mul_le_mul_left _ hh
  refine ⟨_, ?_, h.1.scroll hh hp, fun a ha => ?_⟩
  · unfold Framebuffer.scroll Framebuffer.copy Framebuffer.writeBytes Framebuffer.size
    show (if fb.pitch * 16 ≤ fb.pitch * fb.height then _ else none) = _
    rw [if_pos hle, if_pos (by omega)]
    exact if_pos (by omega)
  · unfold Framebuffer.size at ha
    rw [Ram.fill_outside _ _ (.inr (by omega)), Ram.copy_outside _ (.inr (by omega))]
    exact h.2 a ha

/-- A new line. -/
theorem newLine_grid (h : Grid fb m l s) (hh : 16 ≤ fb.height) (hp : 0 < fb.pitch) :
    ∃ s', fb.newLine s = some s' ∧ Grid fb m l.newLine s' := by
  obtain ⟨hd, -, hy⟩ := (grid_iff hh).1 h
  have hlen := shown_length (l := l) (fb.height / 16)
  have hnew := shown_newLine (l := l) (n := fb.height / 16) (by omega)
  unfold Framebuffer.newLine
  show ∃ s', (if s.positionY + 16 + 16 > fb.height then _ else _) = some s' ∧ _
  split
  · -- the screen is full, and the first line goes
    rename_i hfull
    rw [if_neg (by omega)] at hnew
    obtain ⟨b, hb, hdraws⟩ := scroll_draws hd hh hp
    refine ⟨⟨b, 0, s.positionY + 16 - 16⟩, by rw [hb]; rfl, (grid_iff hh).2 ⟨?_, rfl, ?_⟩⟩
    · rw [hnew]
      cases happ : l.shown (fb.height / 16) ++ [l.current] with
      | nil => exact absurd happ (by simp)
      | cons first rest =>
        have hrest : rest.length = (l.shown (fb.height / 16)).length := by
          have := congrArg List.length happ
          rw [List.length_append, List.length_singleton, List.length_cons] at this
          omega
        rw [happ, picture_up first rest (by omega)] at hdraws
        show Draws fb m b (picture (rest ++ [[]]))
        rw [picture_newLine]
        exact hdraws
    · rw [hnew, List.length_tail, List.length_append, List.length_singleton]
      show s.positionY + 16 - 16 = _
      omega
  · rename_i hroom
    rw [if_pos (by omega)] at hnew
    refine ⟨_, rfl, (grid_iff hh).2 ⟨?_, rfl, ?_⟩⟩
    · rw [hnew]
      show Draws fb m s.bytes (picture (_ ++ [[]]))
      rw [picture_newLine]
      exact hd
    · rw [hnew, List.length_append, List.length_singleton]
      show s.positionY + 16 = _
      omega

/-- A character whose cell fits into the line. -/
theorem type_grid (h : Grid fb m l s) (hh : 16 ≤ fb.height) {c : Char} (hc : c.toNat < 128)
    (hx : 4 * (8 * l.current.length + 8) ≤ fb.pitch) :
    ∃ b, fb.drawGlyph c.toNat s.positionX s.positionY s.bytes = some b ∧
      Grid fb m (l.type c) ⟨b, s.positionX + 8, s.positionY⟩ := by
  obtain ⟨hd, hpx, hpy⟩ := (grid_iff hh).1 h
  have hlen := shown_length (l := l) (fb.height / 16)
  obtain ⟨b, hb, hdraws⟩ :=
    drawGlyph_draws hd hc (x := s.positionX) (y := s.positionY) (by rw [hpx]; exact hx) (by omega)
  refine ⟨b, hb, (grid_iff hh).2 ⟨?_, ?_, hpy⟩⟩
  · show Draws fb m b (picture (l.shown (fb.height / 16) ++ [l.current ++ [c]]))
    rw [picture_type, ← hpx, ← hpy]
    exact hdraws
  · show s.positionX + 8 = 8 * (l.current ++ [c]).length
    rw [List.length_append, List.length_singleton, hpx]
    omega

/-- One character. -/
theorem printChar_grid (hw : 16 ≤ fb.width) (hh : 16 ≤ fb.height) (hp : 4 * fb.width ≤ fb.pitch) (h : Grid fb m l s)
    {c : Char} (hc : c.toNat < 128) : ∃ s', fb.printChar s c = some s' ∧ Grid fb m (l.put fb.width c) s' := by
  unfold Framebuffer.printChar Layout.put
  by_cases hn : c = '\n'
  · rw [if_pos hn, if_pos hn]
    exact newLine_grid h hh (by omega)
  · rw [if_neg hn, if_neg hn]
    -- the line that the character goes to
    have hwrap : ∃ s₁ l₁, fb.wrap s = some s₁ ∧ Grid fb m l₁ s₁ ∧ 4 * (8 * l₁.current.length + 8) ≤ fb.pitch ∧
        (if 8 * l.current.length + 16 > fb.width then l.newLine.type c else l.type c) = l₁.type c := by
      unfold Framebuffer.wrap
      rw [h.positionX]
      by_cases hfull : 8 * l.current.length + 16 > fb.width
      · rw [if_pos hfull, if_pos hfull]
        obtain ⟨s₁, h₁, hg⟩ := newLine_grid h hh (by omega)
        refine ⟨s₁, l.newLine, h₁, hg, ?_, rfl⟩
        show 4 * (8 * 0 + 8) ≤ fb.pitch
        omega
      · rw [if_neg hfull, if_neg hfull]
        exact ⟨s, l, rfl, h, by omega, rfl⟩
    obtain ⟨s₁, l₁, h₁, hg, hfits, hput⟩ := hwrap
    obtain ⟨b, hb, hg'⟩ := type_grid hg hh hc hfits
    refine ⟨⟨b, s₁.positionX + 8, s₁.positionY⟩, ?_, ?_⟩
    · show Option.bind (fb.wrap s) _ = _
      rw [h₁]
      show Option.bind (fb.drawGlyph _ _ _ _) _ = _
      rw [hb]
      rfl
    · rw [hput]
      exact hg'

/-- A call of `terminal_print`. -/
theorem terminalPrint_grid (hw : 16 ≤ fb.width) (hh : 16 ≤ fb.height) (hp : 4 * fb.width ≤ fb.pitch) (h : Grid fb m l s)
    {string : String} (hc : ∀ c ∈ string.toList, c.toNat < 128) :
    ∃ s', terminalPrint (some fb) s string = some s' ∧ Grid fb m (string.toList.foldl (Layout.put fb.width) l) s' :=
  foldlM_refines (Grid fb m) h fun c hm _ _ hg => printChar_grid hw hh hp hg (hc c hm)

end Terminal

/-- After any calls of `terminal_print` the framebuffer, black at first, shows the last lines of the text
that fit, and nothing else. -/
theorem terminal_refines_grid {fb : Framebuffer} (hw : 16 ≤ fb.width) (hh : 16 ≤ fb.height)
    (hp : 4 * fb.width ≤ fb.pitch) {s : Screen} (hblack : ∀ a, a < fb.size → s.bytes a = 0)
    (hx : s.positionX = 0) (hy : s.positionY = 0) {strings : List String}
    (hc : ∀ string ∈ strings, ∀ c ∈ string.toList, c.toNat < 128) :
    ∃ s', terminalPrints (some fb) s strings = some s' ∧
      Grid fb s.bytes (layout fb.width (strings.flatMap String.toList)) s' := by
  have hstart : Grid fb s.bytes Layout.empty s := by
    refine (grid_iff hh).2 ⟨⟨?_, fun _ _ => rfl⟩, hx, ?_⟩
    · show Shows white fb.pitch fb.height s.bytes (picture ([].drop _ ++ [[]]))
      rw [List.drop_nil, List.nil_append, picture_nil]
      exact shows_blank hblack
    · rw [shown_length, hy]
      rfl
  have htext : layout fb.width (strings.flatMap String.toList) =
      strings.foldl (fun l string => string.toList.foldl (Layout.put fb.width) l) Layout.empty := by
    unfold layout
    rw [List.foldl_flatMap]
  rw [htext]
  exact foldlM_refines (Grid fb s.bytes) hstart fun string hm _ _ hg => terminalPrint_grid hw hh hp hg (hc string hm)

/-- `terminal_refines_grid` for a screen of one line and two characters, on which text wraps and scrolls. -/
theorem terminal_refines_grid_small :
    ∃ s', terminalPrints (some ⟨24, 24, 100⟩) ⟨fun _ => 0, 0, 0⟩ ["ab", "c\nd"] = some s' ∧
      Grid ⟨24, 24, 100⟩ (fun _ => 0) (layout 24 ['a', 'b', 'c', '\n', 'd']) s' :=
  @terminal_refines_grid ⟨24, 24, 100⟩ (by decide) (by decide) (by decide) ⟨fun _ => 0, 0, 0⟩ (fun _ _ => rfl) rfl rfl
    ["ab", "c\nd"] (by simp)

end Octagram.Terminal
