import Opal.Framebuffer
import Opal.Terminal

set_option autoImplicit false

namespace Opal

namespace Fb

theorem load_store_same (mem : Nat → UInt8) (off : Nat) (val : UInt32) : load32 (store32 mem off val) off = val := by
  have byte : ∀ i, i < 4 → store32 mem off val (off + i) = byteOf val i := by
    intro i low
    rw [store32, if_pos ⟨by omega, by omega⟩, Nat.add_sub_cancel_left]
  have first : store32 mem off val off = byteOf val 0 := byte 0 (by decide)
  have word := val.toNat_lt
  apply UInt32.toNat.inj
  rw [load32, first, byte 1 (by decide), byte 2 (by decide), byte 3 (by decide)]
  simp only [byteOf, UInt32.toNat_ofNat', UInt8.toNat_ofNat']
  omega

theorem load_store_apart (mem : Nat → UInt8) (off other : Nat) (val : UInt32) (apart : off + 4 ≤ other ∨ other + 4 ≤ off) :
    load32 (store32 mem off val) other = load32 mem other := by
  have byte : ∀ i, i < 4 → store32 mem off val (other + i) = mem (other + i) := by
    intro i low
    exact if_neg (by omega)
  have first : store32 mem off val other = mem other := byte 0 (by decide)
  rw [load32, first, byte 1 (by decide), byte 2 (by decide), byte 3 (by decide)]
  rfl

namespace Geometry

section
variable (g : Geometry)

def pixel (s : Screen) (x y : Nat) : UInt32 := load32 s.mem (g.offset x y)

theorem offset_apart (stride : g.width * 4 ≤ g.stride) (x y x' y' : Nat) (left : x < g.width) (left' : x' < g.width)
    (apart : ¬ (x' = x ∧ y' = y)) : g.offset x y + 4 ≤ g.offset x' y' ∨ g.offset x' y' + 4 ≤ g.offset x y := by
  unfold offset
  rcases Nat.lt_trichotomy y y' with above | same | below
  · have line : (y + 1) * g.stride ≤ y' * g.stride := Nat.mul_le_mul_right g.stride above
    rw [Nat.succ_mul] at line
    omega
  · subst same
    omega
  · have line : (y' + 1) * g.stride ≤ y * g.stride := Nat.mul_le_mul_right g.stride below
    rw [Nat.succ_mul] at line
    omega

theorem write_pixel (stride : g.width * 4 ≤ g.stride) (s : Screen) (x y : Nat) (c : UInt32) (x' y' : Nat) (left : x < g.width)
    (left' : x' < g.width) : g.pixel (s.write (g.offset x y) c) x' y' = if x' = x ∧ y' = y then c else g.pixel s x' y' := by
  by_cases same : x' = x ∧ y' = y
  · rw [if_pos same, same.1, same.2]
    exact load_store_same s.mem _ c
  · rw [if_neg same]
    exact load_store_apart s.mem _ _ c (offset_apart g stride x y x' y' left left' same)

theorem paint_line (stride : g.width * 4 ≤ g.stride) (c : Nat → UInt32) (px y n : Nat) (fits : px + n ≤ g.width) (s : Screen)
    (x' y' : Nat) (left' : x' < g.width) :
    g.pixel (Loop.range 0 n (fun col s => s.write (g.offset (px + col) y) (c col)) s) x' y' =
      if y' = y ∧ px ≤ x' ∧ x' < px + n then c (x' - px) else g.pixel s x' y' := by
  induction n with
  | zero => rw [Loop.range_empty _ 0 0 (le_refl _), if_neg (by omega)]
  | succ n ih =>
      rw [Loop.range_succ _ 0 n (Nat.zero_le _), write_pixel g stride _ _ _ _ _ _ (by omega) left', ih (by omega)]
      by_cases here : x' = px + n ∧ y' = y
      · rw [if_pos here, if_pos ⟨here.2, by omega, by omega⟩, here.1, Nat.add_sub_cancel_left]
      · rw [if_neg here]
        by_cases painted : y' = y ∧ px ≤ x' ∧ x' < px + n
        · rw [if_pos painted, if_pos ⟨painted.1, painted.2.1, by omega⟩]
        · rw [if_neg painted, if_neg (by omega)]

theorem paint_block (stride : g.width * 4 ≤ g.stride) (c : Nat → Nat → UInt32) (px py n start stop : Nat)
    (fits : px + n ≤ g.width) (order : start ≤ stop) (s : Screen) (x' y' : Nat) (left' : x' < g.width) :
    g.pixel (Loop.range start stop
        (fun row s => Loop.range 0 n (fun col s => s.write (g.offset (px + col) (py + row)) (c row col)) s) s) x' y' =
      if (py + start ≤ y' ∧ y' < py + stop) ∧ px ≤ x' ∧ x' < px + n then c (y' - py) (x' - px) else g.pixel s x' y' := by
  induction stop, order using Nat.le_induction with
  | base => rw [Loop.range_empty _ start start (le_refl _), if_neg (by omega)]
  | succ stop order ih =>
      rw [Loop.range_succ _ start stop order, paint_line g stride (c stop) px _ n fits _ _ _ left', ih]
      by_cases here : y' = py + stop ∧ px ≤ x' ∧ x' < px + n
      · rw [if_pos here, if_pos ⟨by omega, here.2⟩, here.1, Nat.add_sub_cancel_left]
      · rw [if_neg here]
        by_cases painted : (py + start ≤ y' ∧ y' < py + stop) ∧ px ≤ x' ∧ x' < px + n
        · rw [if_pos painted, if_pos ⟨by omega, painted.2⟩]
        · rw [if_neg painted, if_neg (by omega)]

theorem blank_lines (stride : g.width * 4 ≤ g.stride) (start stop : Nat) (order : start ≤ stop) (s : Screen) (x' y' : Nat)
    (left' : x' < g.width) :
    g.pixel (Loop.range start stop (fun y s => Loop.range 0 g.width (fun x s => s.write (g.offset x y) bg) s) s) x' y' =
      if start ≤ y' ∧ y' < stop then bg else g.pixel s x' y' := by
  have painted := paint_block g stride (fun _ _ => bg) 0 0 g.width start stop (by omega) order s x' y' left'
  simp only [Nat.zero_add] at painted
  rw [painted]
  by_cases inside : start ≤ y' ∧ y' < stop
  · rw [if_pos ⟨inside, Nat.zero_le _, left'⟩, if_pos inside]
  · rw [if_neg fun both => inside both.1, if_neg inside]

theorem copy_pixel (stride : g.width * 4 ≤ g.stride) (s : Screen) (x src dst x' y' : Nat) (left : x < g.width)
    (left' : x' < g.width) :
    g.pixel (s.copy (g.offset x src) (g.offset x dst)) x' y' = if x' = x ∧ y' = dst then g.pixel s x src else g.pixel s x' y' :=
  write_pixel g stride (s.touch (.pixel (g.offset x src))) x dst (g.pixel s x src) x' y' left left'

theorem copy_line (stride : g.width * 4 ≤ g.stride) (src dst n : Nat) (apart : src ≠ dst) (fits : n ≤ g.width) (s : Screen)
    (x' y' : Nat) (left' : x' < g.width) :
    g.pixel (Loop.range 0 n (fun x s => s.copy (g.offset x src) (g.offset x dst)) s) x' y' =
      if y' = dst ∧ x' < n then g.pixel s x' src else g.pixel s x' y' := by
  induction n generalizing x' y' with
  | zero => rw [Loop.range_empty _ 0 0 (le_refl _), if_neg (by omega)]
  | succ n ih =>
      rw [Loop.range_succ _ 0 n (Nat.zero_le _), copy_pixel g stride _ n src dst x' y' (by omega) left',
        ih (by omega) n src (by omega), ih (by omega) x' y' left', if_neg (fun both : src = dst ∧ n < n => apart both.1)]
      by_cases here : x' = n ∧ y' = dst
      · rw [if_pos here, if_pos ⟨here.2, by omega⟩, here.1]
      · rw [if_neg here]
        by_cases copied : y' = dst ∧ x' < n
        · rw [if_pos copied, if_pos ⟨copied.1, by omega⟩]
        · rw [if_neg copied, if_neg (by omega)]

-- The copy runs down the screen, so no scanline is overwritten before it has
-- been copied.
theorem copy_lines (stride : g.width * 4 ≤ g.stride) (stop : Nat) (order : glyphH ≤ stop) (s : Screen) (x' y' : Nat)
    (left' : x' < g.width) :
    g.pixel (Loop.range glyphH stop
        (fun y s => Loop.range 0 g.width (fun x s => s.copy (g.offset x y) (g.offset x (y - glyphH))) s) s) x' y' =
      if y' + glyphH < stop then g.pixel s x' (y' + glyphH) else g.pixel s x' y' := by
  induction stop, order using Nat.le_induction generalizing x' y' with
  | base => rw [Loop.range_empty _ glyphH glyphH (le_refl _), if_neg (by omega)]
  | succ stop order ih =>
      have below : stop ≠ stop - glyphH := Nat.ne_of_gt (Nat.sub_lt (Nat.lt_of_lt_of_le (by decide) order) (by decide))
      have fresh : ¬ stop + glyphH < stop := by omega
      rw [Loop.range_succ _ glyphH stop order, copy_line g stride stop (stop - glyphH) g.width below (le_refl _) _ _ _ left',
        ih x' stop left', ih x' y' left', if_neg fresh]
      by_cases here : y' + glyphH = stop
      · rw [if_pos ⟨by omega, left'⟩, if_pos (by omega), here]
      · rw [if_neg (by omega)]
        by_cases copied : y' + glyphH < stop
        · rw [if_pos copied, if_pos (by omega)]
        · rw [if_neg copied, if_neg (by omega)]

-- One bit of a glyph as a pixel.
def glyphPixel (ch : UInt8) (row col : Nat) : UInt32 := if lit ((font ch).getD row 0) col then fg else bg

def space : UInt8 := 0x20

-- What stands on the screen for a byte.
def shown (ch : UInt8) : UInt8 := if ch < 128 then ch else 0x3F

def inputOf (ch : UInt8) : Text.Input UInt8 :=
  if ch = 0x0A then .newline
  else if ch = 0x0D then .home
  else .char (shown ch)

-- The grid's glyphs over the text area, and background around it.
def render (t : Text.Terminal UInt8 g.rows g.cols) (x y : Nat) : UInt32 :=
  if x < g.cols * glyphW ∧ y < g.rows * glyphH then
    glyphPixel (t.cell (y / glyphH) (x / glyphW)) (y % glyphH) (x % glyphW)
  else bg

structure Shows (s : Screen) (t : Text.Terminal UInt8 g.rows g.cols) : Prop where
  row : s.row = t.row.val
  col : s.col = t.col.val
  picture : ∀ x y, x < g.width → y < g.height → g.pixel s x y = g.render t x y

theorem glyph_for_shown (ch : UInt8) : glyphFor ch = font (shown ch) := by
  unfold glyphFor shown
  split_ifs <;> rfl

theorem space_blank (row col : Nat) : glyphPixel space row col = bg := by
  have glyph : font space = List.replicate glyphH 0 := by decide
  have line : (List.replicate glyphH (0 : UInt8)).getD row 0 = 0 := by
    rw [List.getD_eq_getElem?_getD, List.getElem?_replicate]
    split_ifs <;> rfl
  have dark : lit 0 col = false := by
    change decide (0 >>> (7 - col) &&& 1 ≠ 0) = false
    rw [Nat.zero_shiftRight]
    rfl
  rw [glyphPixel, glyph, line, dark]
  rfl

theorem render_cleared (some_ : 0 < g.rows) (x y : Nat) : g.render (Text.Terminal.cleared space some_) x y = bg := by
  unfold render
  split_ifs
  · exact space_blank _ _
  · rfl

-- A scroll moves the picture one text row up. What comes in from below, the
-- scanlines under the last text row included, is background.
theorem render_scrolled (t : Text.Terminal UInt8 g.rows g.cols) (x y : Nat) :
    g.render (t.scrolled space) x y = if y + glyphH < g.height then g.render t x (y + glyphH) else bg := by
  have next : (y + glyphH) / glyphH = y / glyphH + 1 := Nat.add_div_right y (by decide)
  have same : (y + glyphH) % glyphH = y % glyphH := Nat.add_mod_right y glyphH
  have whole : y / glyphH + 1 < g.rows ↔ y + glyphH < g.rows * glyphH := by
    rw [← next]
    exact Nat.div_lt_iff_lt_mul (by decide)
  have text : g.rows * glyphH ≤ g.height := Nat.div_mul_le_self g.height glyphH
  unfold render
  change (if x < g.cols * glyphW ∧ y < g.rows * glyphH then
    glyphPixel (if y / glyphH + 1 < g.rows then t.cell (y / glyphH + 1) (x / glyphW) else space) (y % glyphH) (x % glyphW)
    else bg) = _
  rw [next, same]
  by_cases inside : y + glyphH < g.rows * glyphH
  · rw [if_pos (whole.mpr inside), if_pos (Nat.lt_of_lt_of_le inside text)]
    by_cases left : x < g.cols * glyphW
    · rw [if_pos ⟨left, Nat.lt_of_le_of_lt (Nat.le_add_right _ _) inside⟩, if_pos ⟨left, inside⟩]
    · rw [if_neg fun both => left both.1, if_neg fun both => left both.1]
  · rw [if_neg fun less => inside (whole.mp less), space_blank,
      if_neg (fun both : x < g.cols * glyphW ∧ y + glyphH < g.rows * glyphH => inside both.2)]
    split_ifs <;> rfl

theorem render_overwrite (t : Text.Terminal UInt8 g.rows g.cols) (a : UInt8) (left : t.col.val < g.cols) (x y : Nat) :
    g.render (t.overwrite a) x y =
      if (t.row.val * glyphH ≤ y ∧ y < t.row.val * glyphH + glyphH) ∧
          t.col.val * glyphW ≤ x ∧ x < t.col.val * glyphW + glyphW then
        glyphPixel a (y - t.row.val * glyphH) (x - t.col.val * glyphW)
      else g.render t x y := by
  have row := t.row.isLt
  have text : (t.row.val + 1) * glyphH ≤ g.rows * glyphH := Nat.mul_le_mul_right glyphH row
  have line : (t.col.val + 1) * glyphW ≤ g.cols * glyphW := Nat.mul_le_mul_right glyphW left
  unfold render
  rw [Text.Terminal.overwrite_cell]
  by_cases here : (t.row.val * glyphH ≤ y ∧ y < t.row.val * glyphH + glyphH) ∧
      t.col.val * glyphW ≤ x ∧ x < t.col.val * glyphW + glyphW
  · have cell : y / glyphH = t.row.val ∧ x / glyphW = t.col.val := by
      simp only [glyphH, glyphW] at here ⊢
      omega
    have bit : y % glyphH = y - t.row.val * glyphH ∧ x % glyphW = x - t.col.val * glyphW := by
      simp only [glyphH, glyphW] at here ⊢
      omega
    rw [Nat.succ_mul] at text line
    rw [if_pos here, if_pos ⟨by omega, by omega⟩, if_pos cell, bit.1, bit.2]
  · have other : ¬ (y / glyphH = t.row.val ∧ x / glyphW = t.col.val) := by
      simp only [glyphH, glyphW] at here ⊢
      omega
    rw [if_neg here, if_neg other]

theorem clear_shows (roomy : g.Roomy) (active : g.va ≠ 0) (s : Screen) :
    Shows g (g.clear s) (Text.Terminal.cleared space roomy.cells.2) := by
  rw [clear, if_neg active]
  refine ⟨rfl, rfl, fun x y left above => ?_⟩
  refine (blank_lines g roomy.stride 0 g.height (Nat.zero_le _) s x y left).trans ?_
  rw [if_pos ⟨Nat.zero_le _, above⟩, render_cleared]

theorem scroll_picture (roomy : g.Roomy) (active : g.va ≠ 0) (s s' : Screen) (scrolled : g.scroll s = some s') (x y : Nat)
    (left : x < g.width) (above : y < g.height) :
    g.pixel s' x y = if y + glyphH < g.height then g.pixel s x (y + glyphH) else bg := by
  have tall := roomy.height
  rw [scroll_eq g active tall] at scrolled
  rw [← Option.some.inj scrolled, blank_lines g roomy.stride _ _ (Nat.sub_le _ _) _ x y left,
    copy_lines g roomy.stride g.height tall s x y left]
  by_cases moved : y + glyphH < g.height
  · rw [if_neg (by omega), if_pos moved, if_pos moved]
  · rw [if_pos (by omega), if_neg moved]

theorem next_row_shows (roomy : g.Roomy) (active : g.va ≠ 0) (s : Screen) (t : Text.Terminal UInt8 g.rows g.cols)
    (shows_ : Shows g s t) : ∃ s', g.nextRow s = some s' ∧ Shows g s' (t.newline space) := by
  have row := shows_.row
  rcases next_row_cases g active roomy.height s with ⟨room, moved⟩ | ⟨last, scrolled, scrolls, moved⟩
  · refine ⟨_, moved, ?_⟩
    rw [row] at room
    rw [Text.Terminal.newline_row space t room]
    exact ⟨congrArg (· + 1) row, rfl, shows_.picture⟩
  · refine ⟨_, moved, ?_⟩
    rw [row] at last
    have bottom := t.row.isLt
    rw [Text.Terminal.newline_last space t (by omega)]
    have cursor := scroll_cursor g active _ scrolled scrolls
    refine ⟨by change g.rows - 1 = t.row.val; omega, cursor.col, fun x y left above => ?_⟩
    refine (scroll_picture g roomy active _ scrolled scrolls x y left above).trans ?_
    refine Eq.trans ?_ (render_scrolled g t x y).symm
    by_cases inside : y + glyphH < g.height
    · rw [if_pos inside, if_pos inside]
      exact shows_.picture x (y + glyphH) left inside
    · rw [if_neg inside, if_neg inside]

theorem blit_picture (roomy : g.Roomy) (active : g.va ≠ 0) (ch : UInt8) (col row : Nat) (inside : col < g.cols ∧ row < g.rows)
    (s : Screen) (x y : Nat) (left : x < g.width) :
    g.pixel (g.blitGlyph ch (col * glyphW) (row * glyphH) s) x y =
      if (row * glyphH ≤ y ∧ y < row * glyphH + glyphH) ∧ col * glyphW ≤ x ∧ x < col * glyphW + glyphW then
        glyphPixel (shown ch) (y - row * glyphH) (x - col * glyphW)
      else g.pixel s x y := by
  have text : (row + 1) * glyphH ≤ g.rows * glyphH := Nat.mul_le_mul_right glyphH inside.2
  have line : (col + 1) * glyphW ≤ g.cols * glyphW := Nat.mul_le_mul_right glyphW inside.1
  have tall : g.rows * glyphH ≤ g.height := Nat.div_mul_le_self g.height glyphH
  have wide : g.cols * glyphW ≤ g.width := Nat.div_mul_le_self g.width glyphW
  rw [Nat.succ_mul] at text line
  rw [blit_eq g active, Nat.min_eq_left (by omega), Nat.min_eq_left (by omega), glyph_for_shown]
  have painted := paint_block g roomy.stride (fun i j => glyphPixel (shown ch) i j) (col * glyphW) (row * glyphH) glyphW 0 glyphH
    (by omega) (Nat.zero_le _) s x y left
  rw [Nat.add_zero] at painted
  exact painted

theorem draw_shows (roomy : g.Roomy) (active : g.va ≠ 0) (ch : UInt8) (s : Screen) (t : Text.Terminal UInt8 g.rows g.cols)
    (shows_ : Shows g s t) (left : t.col.val < g.cols) :
    Shows g { g.blitGlyph ch (s.col * glyphW) (s.row * glyphH) (s.touch (.glyph s.col s.row)) with col := s.col + 1 }
      (t.overwrite (shown ch)) := by
  have cursor := blit_cursor g active ch (s.col * glyphW) (s.row * glyphH) (s.touch (.glyph s.col s.row))
  have row : s.row < g.rows := by rw [shows_.row]; exact t.row.isLt
  have col : s.col < g.cols := by rw [shows_.col]; exact left
  refine ⟨cursor.row.trans shows_.row, ?_, fun x y inside above => ?_⟩
  · rw [Text.Terminal.overwrite_col t (shown ch) left, ← shows_.col]
  · refine (blit_picture g roomy active ch s.col s.row ⟨col, row⟩ _ x y inside).trans ?_
    rw [render_overwrite g t (shown ch) left x y, ← shows_.row, ← shows_.col]
    congr 1
    exact shows_.picture x y inside above

-- One byte moves the screen and the terminal alike.
theorem write_char_shows (roomy : g.Roomy) (active : g.va ≠ 0) (ch : UInt8) (s : Screen) (t : Text.Terminal UInt8 g.rows g.cols)
    (shows_ : Shows g s t) : ∃ s', g.writeChar ch s = some s' ∧ Shows g s' (t.feed space (inputOf ch)) := by
  unfold writeChar inputOf
  rw [if_neg active]
  by_cases feed : ch = 0x0A
  · rw [if_pos feed, if_pos feed]
    exact next_row_shows g roomy active s t shows_
  rw [if_neg feed, if_neg feed]
  by_cases home : ch = 0x0D
  · rw [if_pos home, if_pos home]
    exact ⟨_, rfl, shows_.row, rfl, shows_.picture⟩
  rw [if_neg home, if_neg home]
  change ∃ s', _ ∧ Shows g s' ((t.wrapped space).overwrite (shown ch))
  by_cases full : s.col ≥ g.cols
  · obtain ⟨s', moved, shows'⟩ := next_row_shows g roomy active s t shows_
    have wraps : t.wrapped space = t.newline space := if_neg (by rw [← shows_.col]; omega)
    have first : (t.newline space).col.val < g.cols := by
      rw [Text.Terminal.newline_col]
      exact roomy.cells.1
    rw [if_pos full, moved, wraps]
    exact ⟨_, rfl, draw_shows g roomy active ch s' _ shows' first⟩
  · have stays : t.wrapped space = t := if_pos (by rw [← shows_.col]; omega)
    rw [if_neg full, stays]
    exact ⟨_, rfl, draw_shows g roomy active ch s t shows_ (by rw [← shows_.col]; omega)⟩

theorem newline_home (t : Text.Terminal UInt8 g.rows g.cols) : t.home.newline space = t.newline space := by
  by_cases next : t.row.val + 1 < g.rows
  · rw [Text.Terminal.newline_row space t next]
    exact Text.Terminal.newline_row space t.home next
  · rw [Text.Terminal.newline_last space t next]
    exact Text.Terminal.newline_last space t.home next

theorem write_str_shows (roomy : g.Roomy) (active : g.va ≠ 0) (bytes : List UInt8) (s : Screen)
    (t : Text.Terminal UInt8 g.rows g.cols) (shows_ : Shows g s t) :
    ∃ s', g.writeStr bytes s = some s' ∧ Shows g s' (t.run space (bytes.map inputOf)) := by
  induction bytes generalizing s t with
  | nil => exact ⟨s, rfl, shows_⟩
  | cons b rest ih =>
      by_cases feed : b = 0x0A
      · subst feed
        obtain ⟨s1, first, shows1⟩ := write_char_shows g roomy active 0x0D s t shows_
        obtain ⟨s2, second, shows2⟩ := write_char_shows g roomy active 0x0A s1 _ shows1
        have line : (t.feed space (inputOf 0x0D)).feed space (inputOf 0x0A) = t.feed space (inputOf 0x0A) := newline_home g t
        rw [line] at shows2
        obtain ⟨s3, last, shows3⟩ := ih s2 _ shows2
        refine ⟨s3, ?_, shows3⟩
        rw [writeStr, if_pos rfl, first]
        dsimp only
        rw [second]
        exact last
      · obtain ⟨s1, first, shows1⟩ := write_char_shows g roomy active b s t shows_
        obtain ⟨s2, last, shows2⟩ := ih s1 _ shows1
        refine ⟨s2, ?_, shows2⟩
        rw [writeStr, if_neg feed]
        dsimp only
        rw [first]
        exact last

theorem covers_aligned (base : 4 ∣ g.va) (stride : 4 ∣ g.stride) : g.Covers g.Aligned where
  pixels := fun x y _ _ => by
    change 4 ∣ g.va + (y * g.stride + x * 4)
    exact Nat.dvd_add base (Nat.dvd_add (Nat.dvd_mul_left_of_dvd stride y) (Nat.dvd_mul_left 4 x))
  cells := fun _ _ _ _ => trivial

theorem clear_touches (P : Touch → Prop) (covers : g.Covers P) (active : g.va ≠ 0) (s : Screen) (before : Touches P s) :
    Touches P (g.clear s) := by
  rw [clear, if_neg active]
  refine Loop.range_keeps _ (Touches P) 0 _ (fun y s' _ low kept => ?_) s before
  exact Loop.range_keeps _ (Touches P) 0 _ (fun x s'' _ left kept => touches_write P s'' _ _ kept (covers.pixels x y left low)) s' kept

-- A clear touches every pixel.
theorem clear_touched (active : g.va ≠ 0) (s : Screen) (x y : Nat) (left : x < g.width) (above : y < g.height) :
    .pixel (g.offset x y) ∈ (g.clear s).touched := by
  have line (n : Nat) (s : Screen) : ∀ x < g.width,
      .pixel (g.offset x n) ∈ (Loop.range 0 g.width (fun x s => s.write (g.offset x n) bg) s).touched := by
    refine Loop.range_rule _ (fun n' s' => ∀ x < n', .pixel (g.offset x n) ∈ s'.touched) 0 g.width (Nat.zero_le _)
      (fun i s' _ _ earlier x low => ?_) s (fun x none => absurd none (Nat.not_lt_zero x))
    rcases Nat.lt_succ_iff_lt_or_eq.mp low with before | rfl
    · exact List.mem_cons_of_mem _ (earlier x before)
    · exact List.mem_cons_self
  have keeps (n : Nat) (s : Screen) (touch : Touch) (before : touch ∈ s.touched) :
      touch ∈ (Loop.range 0 g.width (fun x s => s.write (g.offset x n) bg) s).touched :=
    Loop.range_keeps _ (fun s' : Screen => touch ∈ s'.touched) 0 _ (fun x s' _ _ kept => List.mem_cons_of_mem _ kept) s before
  rw [clear, if_neg active]
  refine Loop.range_rule _ (fun n s' => ∀ y < n, .pixel (g.offset x y) ∈ s'.touched) 0 g.height (Nat.zero_le _)
    (fun i s' _ _ earlier y low => ?_) s (fun y none => absurd none (Nat.not_lt_zero y)) y above
  rcases Nat.lt_succ_iff_lt_or_eq.mp low with before | rfl
  · exact keeps i s' _ (earlier y before)
  · exact line y s' x left

theorem scroll_keeps (active : g.va ≠ 0) (tall : glyphH ≤ g.height) (s s' : Screen) (scrolled : g.scroll s = some s')
    (touch : Touch) (before : touch ∈ s.touched) : touch ∈ s'.touched := by
  rw [scroll_eq g active tall] at scrolled
  rw [← Option.some.inj scrolled]
  refine Loop.range_keeps _ (fun s' : Screen => touch ∈ s'.touched) _ _ (fun y s' _ _ kept => ?_) _ ?_
  · exact Loop.range_keeps _ (fun s' : Screen => touch ∈ s'.touched) 0 _ (fun x s'' _ _ kept => List.mem_cons_of_mem _ kept) s' kept
  · refine Loop.range_keeps _ (fun s' : Screen => touch ∈ s'.touched) _ _ (fun y s' _ _ kept => ?_) s before
    refine Loop.range_keeps _ (fun s' : Screen => touch ∈ s'.touched) 0 _ (fun x s'' _ _ kept => ?_) s' kept
    exact List.mem_cons_of_mem _ (List.mem_cons_of_mem _ kept)

theorem next_row_keeps (active : g.va ≠ 0) (tall : glyphH ≤ g.height) (s s' : Screen) (moved : g.nextRow s = some s')
    (touch : Touch) (before : touch ∈ s.touched) : touch ∈ s'.touched := by
  rcases next_row_cases g active tall s with ⟨_, same⟩ | ⟨_, scrolled, scrolls, same⟩
  · rw [same] at moved
    rw [← Option.some.inj moved]
    exact before
  · rw [same] at moved
    rw [← Option.some.inj moved]
    exact scroll_keeps g active tall _ scrolled scrolls touch before

theorem write_char_keeps (active : g.va ≠ 0) (tall : glyphH ≤ g.height) (ch : UInt8) (s s' : Screen)
    (written : g.writeChar ch s = some s') (touch : Touch) (before : touch ∈ s.touched) : touch ∈ s'.touched := by
  unfold writeChar at written
  rw [if_neg active] at written
  split_ifs at written with feed home full
  · exact next_row_keeps g active tall s s' written touch before
  · rw [← Option.some.inj written]
    exact before
  · cases moved : g.nextRow s with
    | none =>
        rw [moved] at written
        cases written
    | some s1 =>
        rw [moved] at written
        rw [← Option.some.inj written]
        exact blit_keeps g active ch _ _ _ _ (List.mem_cons_of_mem _ (next_row_keeps g active tall s s1 moved touch before))
  · rw [← Option.some.inj written]
    exact blit_keeps g active ch _ _ _ _ (List.mem_cons_of_mem _ before)

theorem write_str_keeps (active : g.va ≠ 0) (tall : glyphH ≤ g.height) (bytes : List UInt8) (s s' : Screen)
    (written : g.writeStr bytes s = some s') (touch : Touch) (before : touch ∈ s.touched) : touch ∈ s'.touched := by
  induction bytes generalizing s with
  | nil =>
      rw [← Option.some.inj written]
      exact before
  | cons b rest ih =>
      rw [writeStr] at written
      cases first : if b = 0x0A then g.writeChar 0x0D s else some s with
      | none =>
          rw [first] at written
          cases written
      | some s1 =>
          rw [first] at written
          have early : touch ∈ s1.touched := by
            split_ifs at first
            · exact write_char_keeps g active tall 0x0D s s1 first touch before
            · rw [← Option.some.inj first]
              exact before
          dsimp only at written
          cases second : g.writeChar b s1 with
          | none =>
              rw [second] at written
              cases written
          | some s2 =>
              rw [second] at written
              exact ih s2 written (write_char_keeps g active tall b s1 s2 second touch early)

-- The first two scanlines tell whether all are aligned.
theorem aligned_of_cleared (roomy : g.Roomy) (active : g.va ≠ 0) (s : Screen) (aligned : Touches g.Aligned (g.clear s)) :
    4 ∣ g.va ∧ 4 ∣ g.stride := by
  have wide : 0 < g.width := Nat.lt_of_lt_of_le (by decide) roomy.width
  have first : 4 ∣ g.va + (0 * g.stride + 0 * 4) :=
    aligned _ (clear_touched g active s 0 0 wide (Nat.lt_of_lt_of_le (by decide) roomy.height))
  have second : 4 ∣ g.va + (1 * g.stride + 0 * 4) :=
    aligned _ (clear_touched g active s 0 1 wide (Nat.lt_of_lt_of_le (by decide) roomy.height))
  rw [Nat.zero_mul, Nat.zero_mul, Nat.add_zero] at first
  rw [Nat.one_mul, Nat.zero_mul, Nat.add_zero] at second
  exact ⟨first, (Nat.dvd_add_iff_right first).mpr second⟩

-- A clear and then the bytes fault nowhere, and leave the picture of a terminal
-- fed the same bytes.
def Refines (roomy : g.Roomy) (bytes : List UInt8) (s : Screen) : Prop :=
  ∃ s', g.writeStr bytes (g.clear { s with touched := [] }) = some s' ∧ Touches g.Aligned s' ∧
    Shows g s' ((Text.Terminal.cleared space roomy.cells.2).run space (bytes.map inputOf))

theorem aligned_of_refines (roomy : g.Roomy) (active : g.va ≠ 0) (bytes : List UInt8) (s : Screen)
    (refines : g.Refines roomy bytes s) : 4 ∣ g.va ∧ 4 ∣ g.stride := by
  obtain ⟨s', written, aligned, _⟩ := refines
  refine aligned_of_cleared g roomy active { s with touched := [] } fun touch member => ?_
  exact aligned touch (write_str_keeps g active roomy.height bytes _ s' written touch member)

end

-- The console is a text terminal exactly where the base and the scanlines of the
-- buffer are aligned.
theorem console_shows_terminal (g : Geometry) (active : g.va ≠ 0) (roomy : g.Roomy) (bytes : List UInt8) (s : Screen) :
    g.Refines roomy bytes s ↔ 4 ∣ g.va ∧ 4 ∣ g.stride := by
  constructor
  · exact aligned_of_refines g roomy active bytes s
  · rintro ⟨base, stride⟩
    have covers := covers_aligned g base stride
    have cleared := clear_shows g roomy active { s with touched := [] }
    have settled : g.Settled g.Aligned (g.clear { s with touched := [] }) := by
      refine ⟨?_, ?_, clear_touches g g.Aligned covers active _ fun touch none => absurd none List.not_mem_nil⟩
      · rw [cleared.row]
        exact roomy.cells.2
      · rw [cleared.col]
        exact Nat.zero_le _
    obtain ⟨s', written, shows_⟩ := write_str_shows g roomy active bytes _ _ cleared
    obtain ⟨same, again, aligned⟩ := write_str_settled g g.Aligned covers roomy active bytes _ settled
    rw [written] at again
    obtain rfl := Option.some.inj again
    exact ⟨s', written, aligned.touched, shows_⟩

-- A display of one text row and a third, written past its edge.
theorem console_shows_terminal_low :
    Refines ⟨0x1000, 17, 21, 72⟩ ⟨by decide, by decide, by decide⟩ [0x41, 0x42, 0x43, 0x0A] (.start fun _ => 7) ↔
      4 ∣ (0x1000 : Nat) ∧ 4 ∣ (72 : Nat) :=
  console_shows_terminal ⟨0x1000, 17, 21, 72⟩ (by decide) ⟨by decide, by decide, by decide⟩ _ _

-- A byte of padding behind each scanline: the clear faults on the second one.
theorem padded_scanline_faults :
    ¬ ∀ (g : Geometry) (roomy : g.Roomy), g.va ≠ 0 → ∀ bytes s, g.Refines roomy bytes s := by
  intro all
  have refines := all ⟨0x1000, 8, 16, 33⟩ ⟨by decide, by decide, by decide⟩ (by decide) [] (.start fun _ => 0)
  exact absurd (aligned_of_refines _ _ (by decide) _ _ refines).2 (by decide)

end Geometry

end Fb

end Opal
