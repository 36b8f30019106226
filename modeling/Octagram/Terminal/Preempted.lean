/-
`terminal_print` of the main context with calls of the vector-44 handler between its statements: where
both share `POSITION_X` and `POSITION_Y`, and which calls leave the writes inside of the framebuffer
(`preempted_in_bounds`). There are two places that a call with a character in it must not come into: within
a new line that scrolls, and within the last character of a call. The invariant is that the cursor is below
the screen in the first place only (`Between`), that a cell is left for it, and in the second one two
(`Room`); a handler's call that only ends lines keeps both (`Nested`).
-/
import Octagram.Terminal.Steps

namespace Octagram.Terminal

open Octagram.Lib Octagram.Terminal.Steps

/-- A string of characters that the font has. -/
structure Text where
  chars : List Char
  ascii : ∀ c ∈ chars, c.toNat < 128

/-- A call of `terminal_print`. -/
def Text.print (t : Text) : PrintProg Unit := Steps.terminalPrint t.chars

/-- After boot. -/
structure Display.Start (d : Display) : Prop where
  positionX : d.positionX = 0
  positionY : d.positionY = 0
  accesses : d.accesses = []

/-- Every access lies inside of the framebuffer. -/
def AllInside (fb : Framebuffer) (d : Display) : Prop := ∀ a ∈ d.accesses, a.Inside fb

/-- The cursor is at a cell that the framebuffer has. -/
structure AtCell (fb : Framebuffer) (d : Display) : Prop where
  right : d.positionX + 8 ≤ fb.width
  bottom : d.positionY + 16 ≤ fb.height

/-- The rows of a character that have white pixels, drawn from row `y` on, are above the lower edge. -/
def Shown (fb : Framebuffer) (y index : Nat) : Prop :=
  ∀ line, line < 16 → ∀ i, i < 8 → glyphBit index line i = true → y + line < fb.height

/-- This holds of each character of a text. -/
def Fits (fb : Framebuffer) (y : Nat) (l : List Char) : Prop := ∀ c ∈ l, c ≠ '\n' → Shown fb y c.toNat

/-- Where a call is: `scrolling` from the `POSITION_Y += 16` of a new line that scrolls to its `POSITION_Y -= 16`, and
`last` from the check for room of the last character to its `POSITION_X += 8`. -/
structure Place where
  scrolling : Bool
  last : Bool

/-- Where a statement leads. -/
def Place.next (fb : Framebuffer) : Statement → Display → Place → Place
  | .down, d, w => { w with scrolling := decide (d.positionY + 16 + 16 > fb.height) }
  | .up, _, w => { w with scrolling := false }
  | .full rest, _, w => { w with last := rest.isEmpty }
  | .advance _, _, w => { w with last := false }
  | _, _, w => w

/-- After boot, in neither of the two places. -/
def Booted (c : Display × Place) : Prop := c.1.Start ∧ c.2 = ⟨false, false⟩

/-- The handler's calls come between any two statements. -/
def preempted (fb : Framebuffer) : Machine Statement Statement.Ret (Display × Place) :=
  preemptible fb.exec (Place.next fb) Text.print fun _ _ => True

/-- In a new line that scrolls, and in the last character of a call, the handler prints new lines only. -/
def LinesOnly (t : Text) (c : Display × Place) : Prop :=
  c.2.scrolling = true ∨ c.2.last = true → ∀ x ∈ t.chars, x = '\n'

/-- The same, where every call of the handler keeps to that. -/
def orderly (fb : Framebuffer) : Machine Statement Statement.Ret (Display × Place) :=
  preemptible fb.exec (Place.next fb) Text.print LinesOnly

/-! ## A call of the handler -/

section Nested

variable {fb : Framebuffer} {d d' d'' : Display} {l l' : List Char}

theorem shown_of_room {y : Nat} (h : y + 16 ≤ fb.height) (index : Nat) : Shown fb y index :=
  fun line hl _ _ _ => by omega

/-- What a call does to the cursor, and when all that it writes is inside. -/
structure Nested (fb : Framebuffer) (l : List Char) (d d' : Display) : Prop where
  down : d.positionY ≤ d'.positionY
  bottom : d.positionY + 16 ≤ fb.height → d'.positionY + 16 ≤ fb.height
  below : fb.height < d.positionY + 16 → d'.positionY = d.positionY
  right : d.positionX + 8 ≤ fb.width → d'.positionX + 8 ≤ fb.width
  lines : (∀ c ∈ l, c = '\n') → d.positionX + 16 ≤ fb.width → d'.positionX + 16 ≤ fb.width
  inside : AllInside fb d' ↔ AllInside fb d ∧ Fits fb d.positionY l

theorem Nested.refl (d : Display) : Nested fb [] d d :=
  ⟨Nat.le_refl _, id, fun _ => rfl, id, fun _ => id, by simp [Fits]⟩

/-- A line that has room for a character has it after a call too, and the line below the screen stays it. -/
theorem Nested.fits_iff (h : Nested fb l d d') : Fits fb d'.positionY l' ↔ Fits fb d.positionY l' := by
  rcases Nat.lt_or_ge fb.height (d.positionY + 16) with hb | hb
  · rw [h.below hb]
  · constructor
    · exact fun _ c _ _ => shown_of_room hb c.toNat
    · exact fun _ c _ _ => shown_of_room (h.bottom hb) c.toNat

theorem Nested.append (h : Nested fb l d d') (h' : Nested fb l' d' d'') : Nested fb (l ++ l') d d'' where
  down := Nat.le_trans h.down h'.down
  bottom := fun hb => h'.bottom (h.bottom hb)
  below := fun hb => by
    have heq := h.below hb
    rw [h'.below (by omega), heq]
  right := fun hr => h'.right (h.right hr)
  lines := fun hl hr => by
    have hfirst := h.lines (fun c hc => hl c (List.mem_append_left _ hc)) hr
    exact h'.lines (fun c hc => hl c (List.mem_append_right _ hc)) hfirst
  inside := by
    rw [h'.inside, h.inside, h.fits_iff, and_assoc]
    refine and_congr_right fun _ => ?_
    constructor
    · rintro ⟨h₁, h₂⟩ c hc
      rcases List.mem_append.1 hc with hc | hc
      · exact h₁ c hc
      · exact h₂ c hc
    · exact fun hf => ⟨fun c hc => hf c (List.mem_append_left _ hc), fun c hc => hf c (List.mem_append_right _ hc)⟩

theorem allInside_append {as : List Access} (ha : d'.accesses = d.accesses ++ as) :
    AllInside fb d' ↔ AllInside fb d ∧ ∀ a ∈ as, a.Inside fb := by
  unfold AllInside
  rw [ha]
  exact List.forall_mem_append

theorem scrollAccesses_inside (hsize : fb.pitch * 16 ≤ fb.size) : ∀ a ∈ fb.scrollAccesses, a.Inside fb := by
  unfold Framebuffer.scrollAccesses
  simp only [List.forall_mem_cons, List.not_mem_nil, false_implies, implies_true, and_true, Access.Inside]
  omega

theorem scrolled_inside (hsize : fb.pitch * 16 ≤ fb.size) (d : Display) :
    AllInside fb (fb.scrolled d) ↔ AllInside fb d := by
  rw [allInside_append (d := d) rfl]
  exact and_iff_left (scrollAccesses_inside hsize)

theorem size_of_height (hh : 16 ≤ fb.height) : fb.pitch * 16 ≤ fb.size := Nat.mul_le_mul_left _ hh

theorem newLined_nested (hw : 16 ≤ fb.width) (hh : 16 ≤ fb.height) (d : Display) :
    Nested fb [] d (newLined fb d) ∧ (newLined fb d).positionX = 0 := by
  have hnil : ∀ y, Fits fb y [] := fun y c hc => by cases hc
  unfold newLined
  split
  · refine ⟨⟨Nat.le_refl _, id, fun _ => rfl,
      fun _ => by show 0 + 8 ≤ _; omega, fun _ _ => by show 0 + 16 ≤ _; omega, ?_⟩, rfl⟩
    rw [and_iff_left (hnil _)]
    exact scrolled_inside (size_of_height hh) d
  · rename_i hroom
    refine ⟨⟨Nat.le_add_right _ _, fun _ => ?_, fun hb => ?_, fun _ => by show 0 + 8 ≤ _; omega,
      fun _ _ => by show 0 + 16 ≤ _; omega, ?_⟩, rfl⟩
    · show d.positionY + 16 + 16 ≤ _
      omega
    · omega
    · rw [and_iff_left (hnil _)]
      exact Iff.rfl

theorem newLine_nested (hw : 16 ≤ fb.width) (hh : 16 ≤ fb.height) (d : Display) :
    ∃ d', newLine.eval fb.exec d = some ((), d') ∧ Nested fb [] d d' ∧ d'.positionX = 0 :=
  ⟨_, newLine_eval (size_of_height hh) d, newLined_nested hw hh d⟩

theorem wrap_nested (hw : 16 ≤ fb.width) (hh : 16 ≤ fb.height) (rest : List Char) (d : Display) :
    ∃ d', (wrap rest).eval fb.exec d = some ((), d') ∧ Nested fb [] d d' ∧ d'.positionX + 16 ≤ fb.width := by
  unfold wrap
  rw [Prog.eval_call rfl]
  by_cases hf : d.positionX + 16 > fb.width
  · rw [if_pos (decide_eq_true hf)]
    obtain ⟨d', he, hn, hx⟩ := newLine_nested hw hh d
    exact ⟨d', he, hn, by omega⟩
  · rw [if_neg (by simpa using hf)]
    exact ⟨d, rfl, Nested.refl d, by omega⟩

theorem fontRow_some {index line : Nat} (hi : index < 128) (hl : line < 16) :
    ∃ bits, fontRow index line = some bits ∧
      ∀ i, glyphBit index line i = decide (bits &&& (0x80 >>> UInt8.ofNat i) ≠ 0) := by
  obtain ⟨hlen, hrows⟩ := font_size
  have hindex : index < FONT8X16.length := by rw [hlen]; exact hi
  have hline : line < FONT8X16[index].length := by rw [hrows _ (List.getElem_mem hindex)]; exact hl
  refine ⟨FONT8X16[index][line], ?_, fun i => ?_⟩
  · rw [fontRow, List.getElem?_eq_getElem hindex, Option.bind_some, List.getElem?_eq_getElem hline]
  · unfold glyphBit
    rw [List.getD_eq_getElem _ _ hindex, List.getD_eq_getElem _ _ hline]

/-- Where the writes of a glyph are inside: the rounds of the two loops so far. -/
structure Drawn (fb : Framebuffer) (d : Display) (rows : Prop) (d' : Display) : Prop where
  positionX : d'.positionX = d.positionX
  positionY : d'.positionY = d.positionY
  inside : AllInside fb d' ↔ AllInside fb d ∧ rows

theorem drawRow_drawn (line : Nat) (bits : UInt8) (hx : d.positionX + 8 ≤ fb.width) :
    ∃ d', (drawRow line bits).eval fb.exec d = some ((), d') ∧
      Drawn fb d (∀ i, i < 8 → bits &&& (0x80 >>> UInt8.ofNat i) ≠ 0 → d.positionY + line < fb.height) d' := by
  -- the loop keeps the place of the pen, and the pixels lit so far are inside as their line is
  refine Prog.eval_range
    (fun k => Drawn fb d (∀ i, i < k → bits &&& (0x80 >>> UInt8.ofNat i) ≠ 0 → d.positionY + line < fb.height)) ?_ ?_
  · exact ⟨rfl, rfl, by simp⟩
  · rintro i hi d₁ ⟨h₁x, h₁y, h₁⟩
    by_cases hb : bits &&& (0x80 >>> UInt8.ofNat i) ≠ 0
    · rw [if_pos hb]
      refine ⟨fb.lit (d₁.positionX + i) (d₁.positionY + line) d₁, rfl, h₁x, h₁y, ?_⟩
      rw [allInside_append (d := d₁) rfl, h₁, and_assoc]
      refine and_congr_right fun _ => ?_
      rw [List.forall_mem_singleton]
      show (_ ∧ d₁.positionX + i < fb.width ∧ d₁.positionY + line < fb.height) ↔ _
      rw [h₁x, h₁y]
      constructor
      · rintro ⟨-, -, hy⟩ j _ _
        exact hy
      · exact fun h => ⟨fun j hj => h j (by omega), by omega, h i (by omega) hb⟩
    · rw [if_neg hb]
      refine ⟨d₁, rfl, h₁x, h₁y, ?_⟩
      rw [h₁]
      refine and_congr_right fun _ => ?_
      constructor
      · intro h j hj hbit
        rcases Nat.lt_succ_iff_lt_or_eq.1 hj with hj | rfl
        · exact h j hj hbit
        · exact absurd hbit hb
      · exact fun h j hj => h j (by omega)

theorem drawGlyph_drawn {index : Nat} (hi : index < 128) (hx : d.positionX + 8 ≤ fb.width) :
    ∃ d', (drawGlyph index).eval fb.exec d = some ((), d') ∧ Drawn fb d (Shown fb d.positionY index) d' := by
  refine Prog.eval_range (fun k => Drawn fb d
    (∀ line, line < k → ∀ i, i < 8 → glyphBit index line i = true → d.positionY + line < fb.height)) ?_ ?_
  · exact ⟨rfl, rfl, by simp⟩
  · rintro line hl d₁ ⟨h₁x, h₁y, h₁⟩
    obtain ⟨bits, hrow, hbits⟩ := fontRow_some hi hl
    rw [hrow]
    obtain ⟨d₂, he, h₂⟩ := drawRow_drawn line bits (d := d₁) (by rw [h₁x]; exact hx)
    refine ⟨d₂, he, h₂.positionX.trans h₁x, h₂.positionY.trans h₁y, ?_⟩
    rw [h₂.inside, h₁, and_assoc, h₁y]
    refine and_congr_right fun _ => ?_
    constructor
    · rintro ⟨hrows, hlast⟩ j hj i hi' hbit
      rcases Nat.lt_succ_iff_lt_or_eq.1 hj with hj | rfl
      · exact hrows j hj i hi' hbit
      · rw [hbits, decide_eq_true_eq] at hbit
        exact hlast i hi' hbit
    · refine fun h => ⟨fun j hj => h j (by omega), fun i hi' hbit => h line (by omega) i hi' ?_⟩
      rw [hbits]
      exact decide_eq_true hbit

theorem printChar_nested (hw : 16 ≤ fb.width) (hh : 16 ≤ fb.height) {c : Char} (hc : c.toNat < 128) (rest : List Char)
    (d : Display) : ∃ d', (printChar c rest).eval fb.exec d = some ((), d') ∧ Nested fb [c] d d' := by
  unfold printChar
  by_cases hn : c = '\n'
  · rw [if_pos hn]
    obtain ⟨d', he, h, -⟩ := newLine_nested hw hh d
    refine ⟨d', he, h.down, h.bottom, h.below, h.right, fun _ => h.lines fun _ hc => absurd hc List.not_mem_nil, ?_⟩
    rw [h.inside]
    simp [Fits, hn]
  · rw [if_neg hn]
    obtain ⟨d₁, he₁, h₁, hx⟩ := wrap_nested hw hh rest d
    have hcell : d₁.positionX + 8 ≤ fb.width := by omega
    obtain ⟨d₂, he₂, h₂⟩ := drawGlyph_drawn hc hcell
    have h : Nested fb [c] d₁ { d₂ with positionX := d₂.positionX + 8 } := by
      refine ⟨Nat.le_of_eq h₂.positionY.symm, fun hb => ?_, fun _ => h₂.positionY, fun _ => ?_,
        fun hl => absurd (hl c (List.mem_singleton.2 rfl)) hn, ?_⟩
      · show d₂.positionY + 16 ≤ _
        rw [h₂.positionY]
        exact hb
      · show d₂.positionX + 8 + 8 ≤ _
        rw [h₂.positionX]
        exact hx
      · refine h₂.inside.trans (and_congr_right fun _ => ?_)
        simp [Fits, hn]
    refine ⟨_, ?_, h₁.append h⟩
    rw [Prog.eval_seq he₁, Prog.eval_seq he₂]
    rfl

/-- A whole call. -/
theorem print_nested (hw : 16 ≤ fb.width) (hh : 16 ≤ fb.height) (t : Text) (d : Display) :
    ∃ d', t.print.eval fb.exec d = some ((), d') ∧ Nested fb t.chars d d' := by
  obtain ⟨l, hl⟩ := t
  unfold Text.print
  induction l generalizing d with
  | nil => exact ⟨d, rfl, Nested.refl d⟩
  | cons c rest ih =>
    obtain ⟨d₁, he₁, h₁⟩ := printChar_nested hw hh (hl c (List.mem_cons_self ..)) rest d
    obtain ⟨d₂, he₂, h₂⟩ := ih d₁ fun b hb => hl b (List.mem_cons_of_mem _ hb)
    exact ⟨d₂, by rw [← he₂]; exact Prog.eval_seq he₁, h₁.append h₂⟩

theorem nested_of_eval (hw : 16 ≤ fb.width) (hh : 16 ≤ fb.height) {t : Text}
    (h : t.print.eval fb.exec d = some ((), d')) : Nested fb t.chars d d' := by
  obtain ⟨d₁, he, hn⟩ := print_nested hw hh t d
  rw [he] at h
  cases h
  exact hn

end Nested

/-! ## Calls of the main context -/

section Main

variable {fb : Framebuffer}

/-- Everything is inside so far, and `POSITION_Y` is between the two rows, below the screen only in a new line
that scrolls. -/
structure Between (fb : Framebuffer) (low high : Nat) (c : Display × Place) : Prop where
  inside : AllInside fb c.1
  low : low ≤ c.1.positionY
  high : c.1.positionY ≤ high
  place : fb.height < c.1.positionY + 16 → c.2.scrolling = true

/-- The character at the cursor ends before the right edge; in the last character of a call so does the next one. -/
structure Room (fb : Framebuffer) (c : Display × Place) : Prop where
  cell : c.1.positionX + 8 ≤ fb.width
  next : c.2.last = true → c.1.positionX + 16 ≤ fb.width

/-- On a line of the screen. -/
abbrev OnLine (fb : Framebuffer) : Display × Place → Prop := Between fb 0 (fb.height - 16)

theorem room_stable (hw : 16 ≤ fb.width) (hh : 16 ≤ fb.height) : (orderly fb).Stable (Room fb) := by
  refine Machine.stable_preemptible fun t d d' w hp hm he => ?_
  have h := nested_of_eval hw hh he
  exact ⟨h.right hp.cell, fun hl => h.lines (hm (.inr hl)) (hp.next hl)⟩

/-- No call takes the cursor up, nor below the screen if it is not there already. -/
theorem between_stable (hw : 16 ≤ fb.width) (hh : 16 ≤ fb.height) {low high : Nat} (hlow : fb.height ≤ high + 16) :
    (orderly fb).Stable (Between fb low high) := by
  refine Machine.stable_preemptible fun t d d' w hp hm he => ?_
  have h := nested_of_eval hw hh he
  have hplow : low ≤ d.positionY := hp.low
  have hphigh : d.positionY ≤ high := hp.high
  have hdown := h.down
  rcases Nat.lt_or_ge fb.height (d.positionY + 16) with hb | hb
  · -- below the screen: the call prints new lines, and stays there
    have hlines := hm (.inl (hp.place hb))
    have hy := h.below hb
    refine ⟨h.inside.2 ⟨hp.inside, fun c hc hn => absurd (hlines c hc) hn⟩, ?_, ?_, fun _ => hp.place hb⟩
    · show low ≤ d'.positionY
      omega
    · show d'.positionY ≤ high
      omega
  · -- on the screen: all that the call prints is shown
    have hy := h.bottom hb
    refine ⟨h.inside.2 ⟨hp.inside, fun c _ _ => shown_of_room hb c.toNat⟩, ?_, ?_, fun hb' => ?_⟩
    · show low ≤ d'.positionY
      omega
    · show d'.positionY ≤ high
      omega
    · exact absurd hy (Nat.not_le.2 hb')

/-- The characters `rest` are left, and the place says if there are none. -/
def Marked (rest : List Char) (c : Display × Place) : Prop := rest = [] → c.2.last = true

/-- The statements of a character between its check for room and its `POSITION_X += 8`. -/
def Statement.within : Statement → Bool
  | .full _ | .advance _ => false
  | _ => true

theorem framed_marked (rest : List Char) : (orderly fb).Framed (fun o => o.within = true) (Marked rest) where
  stable := Machine.stable_preemptible fun _ _ _ _ hp _ _ => hp
  frame o c r c' ho _ he hm := by
    obtain ⟨⟨r', d'⟩, -, hr⟩ := Option.map_eq_some_iff.1 he
    cases hr
    refine fun hrest => ?_
    show (Place.next fb o c.1 c.2).last = true
    cases o
    case full | advance => cases ho
    all_goals exact hm hrest

variable (hw : 16 ≤ fb.width) (hh : 16 ≤ fb.height)

include hw hh

theorem onLine_stable : (orderly fb).Stable (OnLine fb) := between_stable hw hh (by omega)

/-- Below the last row of the screen. -/
abbrev Below (fb : Framebuffer) : Display × Place → Prop := Between fb (max 16 (fb.height - 15)) fb.height

/-- The step back up, to which no call has taken the cursor further down. -/
theorem scrollUp_spec : (orderly fb).Spec (fun c => Below fb c ∧ Room fb c)
    (do Statement.scroll.step; Statement.up.step) (fun _ c => OnLine fb c ∧ Room fb c) (fun c => AllInside fb c.1) := by
  have hroom := room_stable hw hh
  have hbelow : (orderly fb).Stable (Below fb) := between_stable hw hh (by omega)
  refine Machine.spec_op (hbelow.and hroom) (fun _ h => h.1.inside) (fun _ c => Below fb c ∧ Room fb c) ?_ fun _ => ?_
  · rintro ⟨d, w⟩ _ c' ⟨hp, hr⟩ - he
    cases (congrArg (Option.map _) (exec_scroll (size_of_height hh) d)).symm.trans he
    exact ⟨⟨(scrolled_inside (size_of_height hh) d).2 hp.inside, hp.low, hp.high, hp.place⟩, hr.cell, hr.next⟩
  refine Machine.spec_op (hbelow.and hroom) (fun _ h => h.1.inside) (fun _ c => OnLine fb c ∧ Room fb c) ?_ fun _ => ?_
  · rintro ⟨d, w⟩ _ c' ⟨hp, hr⟩ - he
    have hlow : max 16 (fb.height - 15) ≤ d.positionY := hp.low
    have hhigh : d.positionY ≤ fb.height := hp.high
    cases (congrArg (Option.map _) (@exec_up fb d (by omega))).symm.trans he
    refine ⟨⟨hp.inside, Nat.zero_le _, ?_, fun hb => ?_⟩, hr.cell, hr.next⟩
    · show d.positionY - 16 ≤ _
      omega
    · replace hb : fb.height < d.positionY - 16 + 16 := hb
      omega
  · exact Machine.spec_ret ((onLine_stable hw hh).and hroom) (fun _ h => h.1.inside) fun _ h => h

/-- A new line, also if calls come between the step down and the step back up. -/
theorem newLine_spec :
    (orderly fb).Spec (OnLine fb) newLine (fun _ c => OnLine fb c ∧ Room fb c) (fun c => AllInside fb c.1) := by
  have hroom := room_stable hw hh
  have hline := onLine_stable hw hh
  have hstep : (orderly fb).Stable (Between fb 16 fb.height) := between_stable hw hh (by omega)
  unfold newLine
  refine Machine.spec_op hline (fun _ h => h.inside) (fun _ => Between fb 16 fb.height) ?_ fun _ => ?_
  · -- `POSITION_Y += 16`: from here on the place is `scrolling` if the line does not fit
    rintro ⟨d, w⟩ _ c' hp - he
    cases he
    have hhigh : d.positionY ≤ fb.height - 16 := hp.high
    refine ⟨hp.inside, Nat.le_add_left _ _, ?_, fun hb => decide_eq_true hb⟩
    show d.positionY + 16 ≤ _
    omega
  refine Machine.spec_op hstep (fun _ h => h.inside) (fun _ c => Between fb 16 fb.height c ∧ Room fb c) ?_ fun _ => ?_
  · -- `POSITION_X = 0`
    rintro ⟨d, w⟩ _ c' hp - he
    cases he
    refine ⟨⟨hp.inside, hp.low, hp.high, hp.place⟩, ?_, fun _ => ?_⟩
    · show 0 + 8 ≤ _
      omega
    · show 0 + 16 ≤ _
      omega
  -- the test of `POSITION_Y`: below the screen it scrolls
  refine Machine.spec_op (hstep.and hroom) (fun _ h => h.1.inside)
    (fun b c => (if b then Below fb c else OnLine fb c) ∧ Room fb c) ?_ fun b => ?_
  · rintro ⟨d, w⟩ b c' ⟨hp, hr⟩ - he
    cases he
    refine ⟨?_, hr.cell, hr.next⟩
    have hlow : 16 ≤ d.positionY := hp.low
    by_cases hb : d.positionY + 16 > fb.height
    · rw [if_pos (decide_eq_true hb)]
      exact ⟨hp.inside, by show max 16 (fb.height - 15) ≤ d.positionY; omega, hp.high, hp.place⟩
    · rw [if_neg (by simpa using hb)]
      exact ⟨hp.inside, Nat.zero_le _, by show d.positionY ≤ fb.height - 16; omega, hp.place⟩
  cases b with
  | false =>
    simp only [Bool.false_eq_true, if_false]
    exact Machine.spec_ret (hline.and hroom) (fun _ h => h.1.inside) fun _ h => h
  | true =>
    simp only [if_true]
    exact scrollUp_spec hw hh

omit hw hh in
theorem newLine_within : newLine.All fun o => o.within = true :=
  ⟨rfl, fun _ => ⟨rfl, fun _ => ⟨rfl, fun b => by
    cases b with
    | false => exact trivial
    | true => exact ⟨rfl, fun _ => ⟨rfl, fun _ => trivial⟩⟩⟩⟩⟩

/-- After the check there is room, and the place says if the character is the last one. -/
theorem wrap_spec (rest : List Char) : (orderly fb).Spec (OnLine fb) (wrap rest)
    (fun _ c => (OnLine fb c ∧ Room fb c) ∧ Marked rest c) (fun c => AllInside fb c.1) := by
  have hline := onLine_stable hw hh
  have hroom := room_stable hw hh
  have hmark := (@framed_marked fb rest).stable
  unfold wrap
  -- the test of `POSITION_X`: if it fails there is room for this character
  refine Machine.spec_op hline (fun _ h => h.inside)
    (fun b c => (OnLine fb c ∧ (b = false → Room fb c)) ∧ Marked rest c) ?_ fun b => ?_
  · rintro ⟨d, w⟩ b c' hp - he
    cases he
    refine ⟨⟨⟨hp.inside, hp.low, hp.high, hp.place⟩, fun hb => ?_⟩, fun hrest => ?_⟩
    · have hfit : ¬ d.positionX + 16 > fb.width := of_decide_eq_false hb
      refine ⟨?_, fun _ => ?_⟩
      · show d.positionX + 8 ≤ _
        omega
      · show d.positionX + 16 ≤ _
        omega
    · show rest.isEmpty = true
      rw [hrest]
      rfl
  cases b with
  | true =>
    exact ((newLine_spec hw hh).frame (framed_marked rest) newLine_within).conseq (fun _ h => ⟨h.1.1, h.2⟩)
      fun _ _ h => h
  | false =>
    simp only [forall_const]
    exact Machine.spec_ret ((hline.and hroom).and hmark) (fun _ h => h.1.1.inside) fun _ h => h

/-- The statements that draw a glyph. -/
def Statement.Drawing : Statement → Prop
  | .light line i => line < 16 ∧ i < 8
  | .outOfBounds => True
  | _ => False

omit hw hh in
theorem within_of_drawing {o : Statement} (h : o.Drawing) : o.within = true := by
  cases o
  case full | advance => cases h
  all_goals rfl

omit hw hh in
theorem drawGlyph_drawing (index : Nat) : (drawGlyph index).All Statement.Drawing := by
  refine Prog.All.forM fun line hl => ?_
  cases fontRow index line with
  | none => exact (Prog.all_call _ _).2 trivial
  | some bits =>
    refine Prog.All.forM fun i hi => ?_
    split
    · exact (Prog.all_call _ _).2 ⟨List.mem_range.1 hl, List.mem_range.1 hi⟩
    · exact Prog.all_ret _ _

/-- Drawing a glyph, also if calls move the cursor between two pixels. -/
theorem drawGlyph_spec (index : Nat) : (orderly fb).Spec (fun c => OnLine fb c ∧ Room fb c) (drawGlyph index)
    (fun _ c => OnLine fb c ∧ Room fb c) (fun c => AllInside fb c.1) := by
  refine Machine.Framed.spec ⟨(onLine_stable hw hh).and (room_stable hw hh), ?_⟩ (drawGlyph_drawing index) fun _ h =>
    h.1.inside
  rintro o ⟨d, w⟩ r c' ho - he ⟨hp, hr⟩
  cases o with
  | light line i =>
    obtain ⟨hline, hi⟩ := ho
    cases he
    have hhigh : d.positionY ≤ fb.height - 16 := hp.high
    have hcell : d.positionX + 8 ≤ fb.width := hr.cell
    refine ⟨⟨(allInside_append rfl).2 ⟨hp.inside, ?_⟩, hp.low, hp.high, hp.place⟩, hr.cell, hr.next⟩
    rw [List.forall_mem_singleton]
    refine ⟨?_, ?_⟩
    · show d.positionX + i < fb.width
      omega
    · show d.positionY + line < fb.height
      omega
  | outOfBounds => cases he
  | _ => exact ho.elim

/-- A character: the last one leaves a cell for the cursor. -/
theorem printChar_spec (c : Char) (rest : List Char) : (orderly fb).Spec (OnLine fb) (printChar c rest)
    (fun _ c => OnLine fb c ∧ (rest = [] → Room fb c)) (fun c => AllInside fb c.1) := by
  have hline := onLine_stable hw hh
  have hroom := room_stable hw hh
  have hmark := (@framed_marked fb rest).stable
  unfold printChar
  by_cases hn : c = '\n'
  · rw [if_pos hn]
    exact (newLine_spec hw hh).conseq (fun _ h => h) fun _ _ h => ⟨h.1, fun _ => h.2⟩
  · rw [if_neg hn]
    have hrest : (orderly fb).Stable fun c => OnLine fb c ∧ (rest = [] → Room fb c) :=
      fun c c' h he => ⟨hline c c' h.1 he, fun hr => hroom c c' (h.2 hr) he⟩
    have hglyph := (drawGlyph_spec hw hh c.toNat).frame (framed_marked rest)
      ((drawGlyph_drawing c.toNat).mono fun _ => within_of_drawing)
    refine Machine.spec_bind (wrap_spec hw hh rest) fun _ => Machine.spec_bind hglyph fun _ => ?_
    refine Machine.spec_op ((hline.and hroom).and hmark) (fun _ h => h.1.1.inside)
      (fun _ c => OnLine fb c ∧ (rest = [] → Room fb c)) ?_ fun _ =>
        Machine.spec_ret hrest (fun _ h => h.1.inside) fun _ h => h
    rintro ⟨d, w⟩ _ c' ⟨⟨hp, hr⟩, hm⟩ - he
    cases he
    refine ⟨⟨hp.inside, hp.low, hp.high, hp.place⟩, fun he => ⟨?_, fun hl => by cases hl⟩⟩
    have hnext : d.positionX + 16 ≤ fb.width := hr.next (hm he)
    show d.positionX + 8 + 8 ≤ _
    omega

/-- A call. -/
theorem terminalPrint_spec (l : List Char) :
    (orderly fb).Spec (fun c => OnLine fb c ∧ (l = [] → Room fb c)) (Steps.terminalPrint l)
      (fun _ c => OnLine fb c ∧ Room fb c) (fun c => AllInside fb c.1) := by
  induction l with
  | nil =>
    simp only [forall_const]
    exact Machine.spec_ret ((onLine_stable hw hh).and (room_stable hw hh)) (fun _ h => h.1.inside) fun _ h => h
  | cons c rest ih =>
    have hchar := printChar_spec hw hh c rest
    exact Machine.spec_bind (hchar.conseq (fun _ h => h.1) fun _ _ h => h) fun _ => ih

end Main

/-! ## Runs -/

/-- What holds between the calls of the main context, and at every step of one. -/
structure InBounds (fb : Framebuffer) (M : Machine Statement Statement.Ret (Display × Place))
    (c : Display × Place) : Prop where
  inside : AllInside fb c.1
  atCell : AtCell fb c.1
  throughout : ∀ (t : Text) c', M.Runs (t.print, c) c' → AllInside fb c'.2.1

/-- In every run in which the handler prints new lines only in the two places, a new line that scrolls and the last
character of a call, every access is inside, and the cursor is at a cell between the calls. -/
theorem preempted_in_bounds {fb : Framebuffer} (hw : 16 ≤ fb.width) (hh : 16 ≤ fb.height)
    {hist : List (Machine.Return (Display × Place) fun _ : Text => Unit)} {c : Display × Place}
    (h : Machine.Session (orderly fb) Text.print Booted hist c) : InBounds fb (orderly fb) c := by
  -- between two calls the pen is on a line, with room for a character
  have hinv : OnLine fb c ∧ Room fb c := by
    refine h.invariant (I := fun c => OnLine fb c ∧ Room fb c) ?_
      ((onLine_stable hw hh).and (room_stable hw hh)) fun t => ?_
    · rintro ⟨d, w⟩ ⟨⟨hx, hy, ha⟩, rfl⟩
      replace hx : d.positionX = 0 := hx
      replace hy : d.positionY = 0 := hy
      replace ha : d.accesses = [] := ha
      refine ⟨⟨?_, Nat.zero_le _, ?_, fun hb => ?_⟩, ?_, fun hl => by cases hl⟩
      · show AllInside fb d
        unfold AllInside
        rw [ha]
        simp
      · show d.positionY ≤ _
        omega
      · replace hb : fb.height < d.positionY + 16 := hb
        omega
      · show d.positionX + 8 ≤ _
        omega
    · exact ((terminalPrint_spec hw hh t.chars).conseq (fun _ h => ⟨h.1, fun _ => h.2⟩) fun _ _ h => h).triple
  obtain ⟨hline, hroom⟩ := hinv
  have hhigh := hline.high
  refine ⟨hline.inside, ⟨hroom.cell, by omega⟩, fun t c' hr => ?_⟩
  exact (terminalPrint_spec hw hh t.chars).throughout c ⟨hline, fun _ => hroom⟩ c' hr

/-- What a call of the handler writes is inside exactly if the rows that it lights are above the lower edge. -/
theorem call_inside_iff {fb : Framebuffer} (hw : 16 ≤ fb.width) (hh : 16 ≤ fb.height) {t : Text} {d d' : Display}
    (hd : AllInside fb d) (h : t.print.eval fb.exec d = some ((), d')) :
    AllInside fb d' ↔ Fits fb d.positionY t.chars := by
  rw [(nested_of_eval hw hh h).inside]
  exact and_iff_right hd

/-! ## Interrupted -/

section Interrupted

/-- A new line. -/
def newline : Text := ⟨['\n'], by simp⟩

/-- A letter. -/
def letter : Text := ⟨['a'], by simp⟩

/-- A black screen, with the cursor at the origin. -/
def booted : Display := ⟨⟨fun _ => 0, 0, 0⟩, []⟩

theorem booted_start : Booted (booted, ⟨false, false⟩) := ⟨⟨rfl, rfl, rfl⟩, rfl⟩

/-- A new line of the main context on the last line of a screen, with a new line of the handler between
`POSITION_Y += 16` and `POSITION_Y -= 16`, and a letter of it before. -/
theorem newline_runs : ∃ c, (orderly ⟨24, 16, 96⟩).Runs (newline.print, (booted, ⟨false, false⟩)) (.ret (), c) := by
  obtain ⟨d, he, -⟩ := @print_nested ⟨24, 16, 96⟩ (by decide) (by decide) letter booted
  have hletter : (orderly ⟨24, 16, 96⟩).env (booted, ⟨false, false⟩) (d, ⟨false, false⟩) :=
    ⟨letter, fun h => by simp at h, he, rfl⟩
  -- the handler's new line finds the cursor below the screen, and leaves it there
  have hlined : newLined ⟨24, 16, 96⟩ { d with positionY := d.positionY + 16 } =
      { Framebuffer.scrolled ⟨24, 16, 96⟩ { d with positionY := d.positionY + 16 } with positionX := 0 } :=
    if_pos (by show d.positionY + 16 + 16 + 16 > 16; omega)
  have hcall := @newLine_eval ⟨24, 16, 96⟩ (by decide) { d with positionY := d.positionY + 16 }
  rw [hlined] at hcall
  have hline : ∀ w, (orderly ⟨24, 16, 96⟩).env ({ d with positionY := d.positionY + 16 }, w)
      ({ Framebuffer.scrolled ⟨24, 16, 96⟩ { d with positionY := d.positionY + 16 } with positionX := 0 }, w) :=
    fun w => ⟨newline, fun _ _ hx => List.mem_singleton.1 hx, Prog.eval_seq hcall, rfl⟩
  have hbelow : ∀ d' : Display, d'.positionY = d.positionY + 16 →
      Framebuffer.exec ⟨24, 16, 96⟩ .below d' = some (true, d') := fun d' hy =>
    congrArg (fun b => some (b, d')) (decide_eq_true (by show d'.positionY + 16 > 16; omega))
  have hscroll := @exec_scroll ⟨24, 16, 96⟩ (by decide)
  have hup : ∀ d' : Display, d'.positionY = d.positionY + 16 →
      Framebuffer.exec ⟨24, 16, 96⟩ .up d' = some ((), { d' with positionY := d'.positionY - 16 }) := fun d' hy =>
    exec_up (by omega)
  exact ⟨_, .head (.env hletter) <| .head (.op trivial rfl) <| .head (.env (hline _)) <| .head (.op trivial rfl) <|
    .head (Machine.step_preemptible (hbelow _ rfl) _) <| .head (Machine.step_preemptible (hscroll _) _) <|
    .head (Machine.step_preemptible (hup _ rfl) _) .refl⟩

/-- `preempted_in_bounds` for that new line. -/
theorem preempted_in_bounds_newLine : ∃ c,
    Machine.Session (orderly ⟨24, 16, 96⟩) Text.print Booted [⟨newline, (booted, ⟨false, false⟩), (), c⟩] c ∧
      InBounds ⟨24, 16, 96⟩ (orderly ⟨24, 16, 96⟩) c := by
  obtain ⟨c, hr⟩ := newline_runs
  have hs : Machine.Session (orderly ⟨24, 16, 96⟩) Text.print Booted [⟨newline, (booted, ⟨false, false⟩), (), c⟩] c :=
    .call (.boot booted_start) newline hr
  exact ⟨c, hs, preempted_in_bounds (by decide) (by decide) hs⟩

/-- A letter that the handler prints between `POSITION_Y += 16` and `POSITION_Y -= 16` on the last line is
below the screen. -/
theorem newline_interrupted :
    ¬ ∀ fb : Framebuffer, 16 ≤ fb.width → 16 ≤ fb.height →
      ∀ (hist : List (Machine.Return (Display × Place) fun _ : Text => Unit)) (c : Display × Place),
        Machine.Session (preempted fb) Text.print Booted hist c → InBounds fb (preempted fb) c := by
  intro h
  have hin := (h ⟨24, 16, 96⟩ (by decide) (by decide) [] _ (.boot booted_start)).throughout newline
  obtain ⟨d, he, hn⟩ := @print_nested ⟨24, 16, 96⟩ (by decide) (by decide) letter { booted with positionY := 16 }
  have hletter : ∀ w, (preempted ⟨24, 16, 96⟩).env ({ booted with positionY := 16 }, w) (d, w) :=
    fun w => ⟨letter, trivial, he, rfl⟩
  have hall : AllInside ⟨24, 16, 96⟩ d := hin _ (.head (.op trivial rfl) (.head (.env (hletter _)) .refl))
  have hshown := (hn.inside.1 hall).2 'a' (List.mem_cons_self ..) (by decide) 5 (by decide) 1 (by decide) (by decide)
  exact absurd hshown (by decide)

/-- The statements of a letter after the check for room. -/
theorem letter_drawn {fb : Framebuffer} {d : Display} (hx : d.positionX + 8 ≤ fb.width) :
    ∃ d', (do drawGlyph 97; Statement.step (.advance [])).eval fb.exec d = some ((), d') ∧
      d'.positionX = d.positionX + 8 := by
  obtain ⟨d', he, h⟩ := drawGlyph_drawn (show 97 < 128 by decide) hx
  refine ⟨{ d' with positionX := d'.positionX + 8 }, ?_, congrArg (· + 8) h.positionX⟩
  rw [Prog.eval_seq he]
  rfl

/-- A letter that the handler prints between the check for room and `POSITION_X += 8` leaves the cursor
where no cell is. -/
theorem letter_interrupted {fb : Framebuffer} {d : Display} (hx : d.positionX + 16 ≤ fb.width) (w : Place) :
    ∃ d' w', (preempted fb).Runs (letter.print, (d, w)) (.ret (), (d', w')) ∧ d'.positionX = d.positionX + 16 := by
  have hfull : fb.exec (.full []) d = some (false, d) := congrArg (fun b => some (b, d)) (decide_eq_false (by omega))
  have hcell : d.positionX + 8 ≤ fb.width := by omega
  obtain ⟨d₁, he₁, hx₁⟩ := letter_drawn hcell
  have hcell₁ : d₁.positionX + 8 ≤ fb.width := by omega
  obtain ⟨d₂, he₂, hx₂⟩ := letter_drawn hcell₁
  have hwrap : (wrap []).eval fb.exec d = some ((), d) := Prog.eval_call hfull
  have hcall : letter.print.eval fb.exec d = some ((), d₁) := by
    have hchar : (printChar 'a' []).eval fb.exec d = some ((), d₁) := (Prog.eval_seq hwrap).trans he₁
    exact Prog.eval_seq hchar
  -- the call comes after the check, and before the letter is drawn
  have hletter : (preempted fb).env (d, { w with last := true }) (d₁, { w with last := true }) :=
    ⟨letter, trivial, hcall, rfl⟩
  have hcheck : (preempted fb).Runs (wrap [], (d, w)) (.ret (), (d₁, { w with last := true })) :=
    .head (Machine.step_preemptible hfull w) (.head (.env hletter) .refl)
  obtain ⟨w₂, hdraw⟩ :
    ∃ w₂, (preempted fb).Runs ((do drawGlyph 97; Statement.step (.advance [])), (d₁, { w with last := true }))
      (.ret (), (d₂, w₂)) := Machine.runs_of_eval he₂ _
  have hchar : (preempted fb).Runs (printChar 'a' [], (d, w)) (.ret (), (d₂, w₂)) := Machine.runs_seq hcheck hdraw
  exact ⟨d₂, w₂, Machine.runs_seq hchar .refl, by omega⟩

end Interrupted

end Octagram.Terminal
