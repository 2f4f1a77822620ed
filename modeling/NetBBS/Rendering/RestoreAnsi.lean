import NetBBS.Rendering.ArtRoundTrip
import NetBBS.Rendering.ScreenRuns

/-! # What repaints a terminal -/

namespace NetBBS.Rendering

open Foundation List
open WireJson (digitsValue)

/-- Parameters as they are written in a sequence. -/
def paramsText (params : List Nat) : PyStr := [semicolon].intercalate (params.map digitsText)

/-- `CSI params final`. -/
def csiText (params : List Nat) (final : CodePoint) : PyStr :=
  esc :: .ofChar '[' :: (paramsText params ++ [final])

/-- `move_cursor`, of positions that count from 1. -/
def moveCursor (row col : Nat) : PyStr := csiText [row, col] (.ofChar 'H')

def clearScreen : PyStr := csiText [2] (.ofChar 'J') ++ csiText [] (.ofChar 'H')

/-- `set_scroll_region`; `none` where it raises. -/
def setScrollRegion (top bottom : Nat) : Option PyStr :=
  if top < 1 ∨ bottom < top then none else some (csiText [top, bottom] (.ofChar 'r'))

def coloredStart (style : Pen) : PyStr :=
  (if style.bold = true then sgrText [1] else []) ++
    (if style.underline = true then sgrText [4] else []) ++
    (if style.reverse = true then sgrText [7] else []) ++ colorText 38 style.fg ++
    colorText 48 style.bg

def colored (text : PyStr) (style : Pen) : PyStr :=
  if coloredStart style = [] then text else coloredStart style ++ text ++ resetText

/-- `CSI ?25h` and `CSI ?25l`. -/
def cursorText (visible : Bool) : PyStr :=
  esc :: .ofChar '[' :: 0x3F :: (digitsText 25 ++ [if visible = true then .ofChar 'h' else .ofChar 'l'])

def colorCodes (base : Nat) : Option Color → List Nat
  | none => []
  | some (.indexed index) => [base, 5, index]
  | some (.rgb r g b) => [base, 2, r, g, b]

def penCodes (pen : Pen) : List Nat :=
  0 :: ((if pen.bold = true then [1] else []) ++ (if pen.underline = true then [4] else []) ++
    (if pen.reverse = true then [7] else []) ++ colorCodes 38 pen.fg ++ colorCodes 48 pen.bg)

def penSgr (pen : Pen) : PyStr := csiText (penCodes pen) (.ofChar 'm')

def inRun (first cell : Cell) : Bool := decide (cell ≠ blankCell ∧ cell.toPen = first.toPen)

def renderRow (row col : Nat) (cells : Row) : PyStr :=
  match cells with
  | [] => []
  | first :: rest =>
    if first = blankCell then renderRow row (col + 1) rest
    else
      let run := first :: rest.takeWhile (inRun first)
      moveCursor (row + 1) (col + 1) ++ colored (run.flatMap Cell.char) first.toPen ++
        renderRow row (col + run.length) (rest.dropWhile (inRun first))
termination_by cells.length
decreasing_by
  · exact Nat.lt_succ_self _
  · exact Nat.lt_succ_of_le (dropWhile_suffix _).length_le

def renderRows (row : Nat) : List Row → PyStr
  | [] => []
  | cells :: rest => renderRow row 0 cells ++ renderRows (row + 1) rest

def fullRenderAnsi (rows : List Row) : PyStr := clearScreen ++ renderRows 0 rows

def Terminal.regionText (t : Terminal) : Option PyStr :=
  if (t.top, t.bottom) ≠ (0, t.height - 1) then setScrollRegion (t.top + 1) (t.bottom + 1)
  else some []

def Terminal.reprintText (t : Terminal) : Option PyStr :=
  if t.wrapPending = true then do
    let shown ← t.rows[t.row]?
    let last ← shown[t.col]?
    -- A wide glyph ended the row.
    if 0 < t.col ∧ last.char = [] then do
      let cell ← shown[t.col - 1]?
      some (moveCursor (t.row + 1) (t.col - 1 + 1) ++
        if cell.char ≠ [] then colored cell.char cell.toPen else [])
    else some (if last.char ≠ [] then colored last.char last.toPen else [])
  else some []

def Terminal.restoreAnsi (t : Terminal) : Option PyStr := do
  let region ← t.regionText
  let reprinted ← t.reprintText
  some (csiText [] (.ofChar 'r') ++ fullRenderAnsi t.rows ++ region ++
    moveCursor (t.row + 1) (t.col + 1) ++ reprinted ++ penSgr t.pen ++ cursorText t.cursorVisible)

variable {data : UnicodeData} {t : Terminal} {params : List Nat} {s : Terminal}

theorem length_paramsText (h : ∀ n ∈ params, n < 1000) :
    (paramsText params).length ≤ 4 * params.length := by
  unfold paramsText
  induction params with
  | nil => exact Nat.le_refl 0
  | cons n rest ih =>
    have hdigits := length_digitsText (h n (.head _))
    have hrest := ih fun m hm => h m (mem_cons_of_mem n hm)
    cases rest with
    | nil =>
      simp only [map_cons, map_nil, intercalate_singleton, length_singleton]
      omega
    | cons m rest =>
      rw [map_cons, intercalate_cons_of_ne_nil (by simp), length_append,
        length_append]
      simp only [length_cons, length_nil] at hrest ⊢
      omega

theorem csiParams_paramsText (params : List Nat) : csiParams (paramsText params) = params := by
  by_cases hnone : params = []
  · subst hnone
    rfl
  · unfold csiParams paramsText
    rw [if_neg (params_ne_nil hnone), splitOn_params hnone, map_map]
    conv_rhs => rw [← map_id params]
    apply map_congr_left
    intro n _
    obtain ⟨hnumber, hvalue⟩ := number_digitsText n
    show (if isAsciiNumber (digitsText n) = true then _ else _) = _
    rw [if_pos hnumber, hvalue]
    rfl

theorem plain_paramsText {c : CodePoint} (h : c ∈ paramsText params) :
    isParameter c = true ∧ c ≠ colon ∧ c.val < 0x3C := by
  rcases mem_params h with hdigit | rfl
  · unfold CodePoint.isDigit at hdigit
    simp only [Bool.and_eq_true, decide_eq_true_eq] at hdigit
    refine ⟨decide_eq_true ⟨hdigit.1, ?_⟩, ?_, by omega⟩
    · show c.val ≤ 0x3F
      omega
    · rintro rfl
      exact absurd hdigit.2 (by decide)
  · decide

theorem csi_paramsText (t : Terminal) (params : List Nat) (final : CodePoint) :
    t.csi (paramsText params) final =
      if final = .ofChar 'm' then some { t with pen := applySgr t.pen params }
      else t.command params final := by
  have hplain : (paramsText params).any (fun ch => decide (0x20 ≤ ch ∧ ch ≤ 0x2F)) ≠ true := by
    rw [Ne, any_eq_true]
    rintro ⟨c, hc, hlow⟩
    obtain ⟨hparameter, -⟩ := plain_paramsText hc
    have hhigh := (of_decide_eq_true hparameter).1
    exact absurd (Fin.le_trans hhigh (of_decide_eq_true hlow).2) (by decide)
  have hpublic : isPrivate (paramsText params) = false := by
    unfold isPrivate
    rw [any_eq_false]
    intro marker hmarker hhead
    obtain ⟨-, -, hlow⟩ := plain_paramsText (mem_of_head? (of_decide_eq_true hhead))
    have hhigh : 0x3C ≤ marker.val := by
      simp only [mem_cons, not_mem_nil, or_false] at hmarker
      rcases hmarker with rfl | rfl | rfl | rfl <;> decide
    omega
  have hcolon : colon ∉ paramsText params := fun hc => (plain_paramsText hc).2.1 rfl
  unfold Terminal.csi
  simp only
  rw [if_neg hplain, hpublic, if_neg Bool.false_ne_true, if_neg hcolon, csiParams_paramsText]
  simp

def Fed (data : UnicodeData) (t : Terminal) (text : PyStr) (s : Terminal) : Prop :=
  text.foldlM (Terminal.feedChar data) t = some s

theorem fed_nil (data : UnicodeData) (t : Terminal) : Fed data t [] t := rfl

theorem Fed.append {u : Terminal} {first second : PyStr} (hfirst : Fed data t first s)
    (hsecond : Fed data s second u) : Fed data t (first ++ second) u := by
  unfold Fed
  rw [foldlM_append, hfirst]
  exact hsecond

theorem Fed.shape {text : PyStr} (hfed : Fed data t text s) (h : Shape data t) :
    Shape data s := by
  obtain ⟨u, hu, hshape⟩ := sound_foldlM h text
  obtain rfl := Option.some.inj (hfed.symm.trans hu)
  exact hshape

variable {final : CodePoint} {base code : Nat}

theorem fed_csi (hstate : t.state = .ground)
    (hparams : ∀ n ∈ params, n < 1000) (hcount : params.length ≤ 16) (hfinal : isFinal final = true)
    (hcsi : t.csi (paramsText params) final = some s) : Fed data t (csiText params final) s := by
  have hlength : (paramsText params).length ≤ maxSequence :=
    Nat.le_trans (length_paramsText hparams) (Nat.mul_le_mul_left 4 hcount)
  unfold Fed csiText
  rw [foldlM_feedChar_csi hstate hlength hfinal (fun c hc => (plain_paramsText hc).1), hcsi]
  rfl

theorem fed_command (hstate : t.state = .ground)
    (hparams : ∀ n ∈ params, n < 1000) (hcount : params.length ≤ 16) (hfinal : isFinal final = true)
    (hsgr : final ≠ .ofChar 'm') (hcommand : t.command params final = some s) :
    Fed data t (csiText params final) s := by
  apply fed_csi hstate hparams hcount hfinal
  rw [csi_paramsText, if_neg hsgr]
  exact hcommand

def mergePen (pen style : Pen) : Pen where
  fg := style.fg.or pen.fg
  bg := style.bg.or pen.bg
  bold := style.bold || pen.bold
  underline := style.underline || pen.underline
  reverse := style.reverse || pen.reverse

theorem default_mergePen (style : Pen) : mergePen {} style = style := by
  unfold mergePen
  simp

theorem coloredStart_eq_nil (style : Pen) : coloredStart style = [] ↔ style = {} := by
  obtain ⟨fg, bg, bold, underline, reverse⟩ := style
  constructor
  · intro hempty
    unfold coloredStart at hempty
    simp only [append_eq_nil_iff] at hempty
    obtain ⟨⟨⟨⟨hbold, hunderline⟩, hreverse⟩, hfg⟩, hbg⟩ := hempty
    have hflag : ∀ {on : Bool} {code : Nat}, (if on = true then sgrText [code] else []) = [] →
        on = false := by
      intro on code hnil
      cases on with
      | false => rfl
      | true => cases hnil
    have hcolor : ∀ {code : Nat} {color : Option Color}, colorText code color = [] →
        color = none := by
      intro code color hnil
      cases color with
      | none => rfl
      | some color => cases color <;> cases hnil
    obtain rfl := hflag hbold
    obtain rfl := hflag hunderline
    obtain rfl := hflag hreverse
    obtain rfl := hcolor hfg
    obtain rfl := hcolor hbg
    rfl
  · rintro hdefault
    rw [hdefault]
    rfl

theorem fed_sgrText (hstate : t.state = .ground) {params : List Nat}
    (hparams : ∀ n ∈ params, n < 1000) (hcount : params.length ≤ 16) :
    Fed data t (sgrText params) { t with pen := applySgr t.pen params } := by
  have hfinal : (0x6D : CodePoint) = .ofChar 'm' := rfl
  apply fed_csi hstate hparams hcount (by decide)
  rw [csi_paramsText, if_pos hfinal]

theorem applySgrLoop_code (pen : Pen) (hcode : code < 38) (codes : List Nat) :
    applySgrLoop pen (code :: codes) = applySgrLoop (sgrCode pen code) codes := by
  rw [applySgrLoop.eq_def]
  exact if_neg (by omega)

theorem fed_flag (hstate : t.state = .ground) (on : Bool) (hcode : code < 38) :
    Fed data t (if on = true then sgrText [code] else [])
      { t with pen := if on = true then sgrCode t.pen code else t.pen } := by
  cases on with
  | false => rfl
  | true =>
    have hplain : applySgr t.pen [code] = sgrCode t.pen code := by
      unfold applySgr
      rw [if_neg (cons_ne_nil _ _), applySgrLoop_code _ hcode]
      rfl
    rw [if_pos rfl, if_pos rfl, ← hplain]
    exact fed_sgrText hstate (by simp; omega) (by simp)

theorem clampByte_val (byte : Fin 256) : clampByte byte = byte :=
  Fin.ext (Nat.min_eq_right (Nat.le_of_lt_succ byte.isLt))

def Pen.colored (pen : Pen) (base : Nat) : Option Color → Pen
  | none => pen
  | some color => pen.setColor base color

theorem applySgrLoop_colorCodes (hbase : base = 38 ∨ base = 48) (color : Option Color)
    (pen : Pen) (codes : List Nat) :
    applySgrLoop pen (colorCodes base color ++ codes) = applySgrLoop (pen.colored base color) codes := by
  cases color with
  | none => rfl
  | some color =>
    cases color with
    | indexed index =>
      show applySgrLoop pen (base :: 5 :: index :: codes) = _
      rw [applySgrLoop, if_pos hbase]
      simp only [clampByte_val]
      rfl
    | rgb r g b =>
      show applySgrLoop pen (base :: 2 :: r :: g :: b :: codes) = _
      rw [applySgrLoop, if_pos hbase]
      simp only [clampByte_val]
      rfl

theorem fed_colorText (hstate : t.state = .ground) (hbase : base = 38 ∨ base = 48)
    (color : Option Color) :
    Fed data t (colorText base color) { t with pen := t.pen.colored base color } := by
  cases color with
  | none => rfl
  | some color =>
    have htext : colorText base (some color) = sgrText (colorCodes base (some color)) := by
      cases color <;> rfl
    have hcodes : ∀ n ∈ colorCodes base (some color), n < 1000 := by
      intro n hn
      cases color with
      | indexed index =>
        simp only [colorCodes, mem_cons, not_mem_nil, or_false] at hn
        omega
      | rgb r g b =>
        simp only [colorCodes, mem_cons, not_mem_nil, or_false] at hn
        omega
    have hcount : (colorCodes base (some color)).length ≤ 16 := by
      cases color <;> simp [colorCodes]
    have hpen := applySgrLoop_colorCodes hbase (some color) t.pen []
    rw [append_nil] at hpen
    have hsome : colorCodes base (some color) ≠ [] := by
      cases color <;> exact cons_ne_nil _ _
    have happly : applySgr t.pen (colorCodes base (some color)) = t.pen.colored base (some color) := by
      unfold applySgr
      rw [if_neg hsome, hpen]
      rfl
    rw [htext, ← happly]
    exact fed_sgrText hstate hcodes hcount

theorem fed_coloredStart (hstate : t.state = .ground) (style : Pen) :
    Fed data t (coloredStart style) { t with pen := mergePen t.pen style } := by
  have hflag : ∀ (s : Terminal) (on : Bool) (code : Nat), s.state = .ground → code < 38 →
      Fed data s (if on = true then sgrText [code] else [])
        { s with pen := if on = true then sgrCode s.pen code else s.pen } :=
    fun s on code hs hcode => fed_flag hs on hcode
  have hcolor : ∀ (s : Terminal) (base : Nat) (color : Option Color), s.state = .ground →
      base = 38 ∨ base = 48 → Fed data s (colorText base color) { s with pen := s.pen.colored base color } :=
    fun s base color hs hbase => fed_colorText hs hbase color
  have hstart := ((((hflag t style.bold 1 hstate (by omega)).append
    (hflag _ style.underline 4 (by exact hstate) (by omega))).append
    (hflag _ style.reverse 7 (by exact hstate) (by omega))).append
    (hcolor _ 38 style.fg (by exact hstate) (.inl rfl))).append
    (hcolor _ 48 style.bg (by exact hstate) (.inr rfl))
  have hpen : (((if style.reverse = true then
        sgrCode (if style.underline = true then
          sgrCode (if style.bold = true then sgrCode t.pen 1 else t.pen) 4
        else if style.bold = true then sgrCode t.pen 1 else t.pen) 7
      else if style.underline = true then
        sgrCode (if style.bold = true then sgrCode t.pen 1 else t.pen) 4
      else if style.bold = true then sgrCode t.pen 1 else t.pen).colored 38 style.fg).colored 48
        style.bg) = mergePen t.pen style := by
    obtain ⟨fg, bg, bold, underline, reverse⟩ := style
    cases bold <;> cases underline <;> cases reverse <;> cases fg <;> cases bg <;> rfl
  rw [← hpen]
  exact hstart

theorem applySgr_penCodes (pen style : Pen) : applySgr pen (penCodes style) = style := by
  unfold applySgr penCodes
  rw [if_neg (cons_ne_nil _ _), applySgrLoop_code _ (by omega)]
  have hreset : sgrCode pen 0 = {} := rfl
  have hflag : ∀ (on : Bool) (code : Nat) (pen : Pen) (codes : List Nat), code < 38 →
      applySgrLoop pen ((if on = true then [code] else []) ++ codes) =
        applySgrLoop (if on = true then sgrCode pen code else pen) codes := by
    intro on code pen codes hcode
    cases on with
    | false => rfl
    | true => exact applySgrLoop_code pen hcode codes
  have hend := applySgrLoop_colorCodes (.inr rfl : (48 : Nat) = 38 ∨ (48 : Nat) = 48) style.bg
  simp only [append_assoc]
  rw [hreset, hflag _ 1 _ _ (by omega), hflag _ 4 _ _ (by omega), hflag _ 7 _ _ (by omega),
    applySgrLoop_colorCodes (.inl rfl), ← append_nil (colorCodes 48 style.bg), hend]
  obtain ⟨fg, bg, bold, underline, reverse⟩ := style
  cases bold <;> cases underline <;> cases reverse <;> cases fg <;> cases bg <;> rfl

theorem fed_penSgr (hstate : t.state = .ground) (pen : Pen) :
    Fed data t (penSgr pen) { t with pen } := by
  have hcodes : ∀ n ∈ penCodes pen, n < 1000 := by
    have hcolor : ∀ (base : Nat) (color : Option Color), base < 1000 →
        ∀ n ∈ colorCodes base color, n < 1000 := by
      intro base color hbase n hn
      cases color with
      | none => cases hn
      | some color =>
        cases color <;> simp only [colorCodes, mem_cons, not_mem_nil, or_false] at hn <;>
          omega
    have hflag : ∀ (on : Bool) (code : Nat), code < 1000 →
        ∀ n ∈ (if on = true then [code] else []), n < 1000 := by
      intro on code hcode n hn
      split at hn
      · rw [mem_singleton.mp hn]
        exact hcode
      · cases hn
    intro n hn
    simp only [penCodes, mem_cons, mem_append] at hn
    rcases hn with rfl | (((hn | hn) | hn) | hn) | hn
    · omega
    · exact hflag _ 1 (by omega) n hn
    · exact hflag _ 4 (by omega) n hn
    · exact hflag _ 7 (by omega) n hn
    · exact hcolor 38 _ (by omega) n hn
    · exact hcolor 48 _ (by omega) n hn
  have hcount : (penCodes pen).length ≤ 16 := by
    have hflag : ∀ (on : Bool) (code : Nat), (if on = true then [code] else []).length ≤ 1 := by
      intro on code
      cases on <;> simp
    have hcolor : ∀ (base : Nat) (color : Option Color), (colorCodes base color).length ≤ 5 := by
      intro base color
      cases color with
      | none => exact Nat.zero_le 5
      | some color => cases color <;> simp [colorCodes]
    have hbold := hflag pen.bold 1
    have hunderline := hflag pen.underline 4
    have hreverse := hflag pen.reverse 7
    have hfg := hcolor 38 pen.fg
    have hbg := hcolor 48 pen.bg
    simp only [penCodes, length_cons, length_append]
    omega
  apply fed_csi hstate hcodes hcount (by decide)
  rw [csi_paramsText, if_pos rfl, applySgr_penCodes]

/-- The cleared screen: its cells have the background of the pen that was left. -/
def Terminal.blanked (t : Terminal) : Terminal :=
  { t with
    rows := List.replicate t.height (List.replicate t.width t.erased)
    row := 0
    col := 0
    top := 0
    bottom := t.height - 1
    wrapPending := false }

theorem command_region (h : Shape data t) : t.command [] (.ofChar 'r') =
      some { t with top := 0, bottom := t.height - 1, row := 0, col := 0, wrapPending := false } := by
  have hheight := h.height_pos
  have hargs : t.command [] (.ofChar 'r') = some (t.setMargins 0 (t.height - 1)) := by
    have hbottom : csiArg [] 1 t.height = t.height := rfl
    show some (t.setMargins (csiArg [] 0 1 - 1) (csiArg [] 1 t.height - 1)) = _
    rw [hbottom]
    rfl
  have hmargins : (if 0 < t.height - 1 ∧ t.height - 1 < t.height then
      { t with top := 0, bottom := t.height - 1 } else { t with top := 0, bottom := t.height - 1 }) =
      { t with top := 0, bottom := t.height - 1 } := ite_self _
  rw [hargs]
  unfold Terminal.setMargins
  simp only [hmargins]
  unfold Terminal.moveTo
  simp only [Option.some.injEq, Terminal.mk.injEq, true_and, and_true]
  exact ⟨by omega, by omega⟩

theorem fed_clear (h : Shape data t) (hstate : t.state = .ground) :
    Fed data t (csiText [] (.ofChar 'r') ++ clearScreen) t.blanked := by
  have hwidth := h.width_pos
  have hheight := h.height_pos
  have hregion : Fed data t (csiText [] (.ofChar 'r')) _ := fed_command hstate (by simp) (by simp)
    (by decide) (by decide) (command_region h)
  have herased : ∀ s : Terminal, s.state = .ground → Fed data s (csiText [2] (.ofChar 'J')) { s with
      rows := List.replicate s.height (List.replicate s.width s.erased), wrapPending := false } :=
    fun s hs => fed_command hs (by simp) (by simp) (by decide) (by decide) rfl
  have hhome : ∀ s : Terminal, s.state = .ground → Fed data s (csiText [] (.ofChar 'H')) (s.moveTo 0 0) :=
    fun s hs => fed_command hs (by simp) (by simp) (by decide) (by decide) rfl
  have hblanked : ({ t with
      rows := List.replicate t.height (List.replicate t.width t.erased)
      row := 0
      col := 0
      top := 0
      bottom := t.height - 1
      wrapPending := false } : Terminal).moveTo 0 0 = t.blanked := by
    unfold Terminal.moveTo Terminal.blanked
    simp only [Terminal.mk.injEq, true_and, and_true]
    exact ⟨by omega, by omega⟩
  unfold clearScreen
  rw [← hblanked]
  exact hregion.append ((herased _ (by exact hstate)).append (hhome _ (by exact hstate)))

section

variable (hstate : t.state = .ground)

include hstate

theorem fed_moveCursor {row col : Nat} (hrow : row < t.height)
    (hcol : col < t.width) (hrowBound : row < 500) (hcolBound : col < 500) :
    Fed data t (moveCursor (row + 1) (col + 1)) { t with row, col, wrapPending := false } := by
  have hargs : t.command [row + 1, col + 1] (.ofChar 'H') =
      some (t.moveTo ((row + 1 : Nat) - 1 : Int) ((col + 1 : Nat) - 1 : Int)) := rfl
  apply fed_command hstate (by simp; omega) (by simp) (by decide) (by decide)
  rw [hargs]
  unfold Terminal.moveTo
  simp only [Option.some.injEq, Terminal.mk.injEq, true_and, and_true]
  exact ⟨by omega, by omega⟩

theorem fed_region {top bottom : Nat} (hlt : top < bottom)
    (hbottom : bottom < t.height) (hbound : bottom < 500) :
    Fed data t (csiText [top + 1, bottom + 1] (.ofChar 'r'))
      { t with top, bottom, row := 0, col := 0, wrapPending := false } := by
  have hargs : t.command [top + 1, bottom + 1] (.ofChar 'r') = some (t.setMargins top bottom) := rfl
  apply fed_command hstate (by simp; omega) (by simp) (by decide) (by decide)
  rw [hargs]
  unfold Terminal.setMargins
  rw [if_pos ⟨hlt, hbottom⟩]
  unfold Terminal.moveTo
  simp only [Option.some.injEq, Terminal.mk.injEq, true_and, and_true]
  exact ⟨by omega, by omega⟩

theorem fed_cursorText (visible : Bool) :
    Fed data t (cursorText visible) { t with cursorVisible := visible } := by
  have hcsi : ∀ final : CodePoint, final = .ofChar 'h' ∨ final = .ofChar 'l' →
      t.csi (0x3F :: digitsText 25) final =
        some { t with cursorVisible := decide (final = .ofChar 'h') } := by
    rintro final (rfl | rfl) <;> rfl
  have htext : cursorText visible = esc :: .ofChar '[' :: ((0x3F :: digitsText 25) ++
      (if visible = true then CodePoint.ofChar 'h' else .ofChar 'l') :: []) := rfl
  unfold Fed
  rw [htext, foldlM_feedChar_csi hstate (by decide) (by cases visible <;> decide)
    (all_eq_true.mp (by decide)), hcsi _ (by cases visible <;> simp)]
  cases visible <;> rfl

end

end NetBBS.Rendering
