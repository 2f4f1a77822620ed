import NetBBS.Rendering.RestoreAnsi

/-! # A grid that is painted -/

namespace NetBBS.Rendering

open Foundation List Option

variable {data : UnicodeData} {t : Terminal}

section Printing

def inked (pen : Pen) (cell : Cell) : Cell := { pen with char := cell.char }

theorem put_edge {cells : Row} (hedge : t.col + cells.length = t.width)
    (hwaits : t.wrapsImmediately = false) :
    t.put data cells =
      { t.overwrite data cells with col := t.width - 1, wrapPending := true } := by
  have hpast : t.width ≤ t.col + cells.length := Nat.le_of_eq hedge.symm
  have hnot : ¬t.wrapsImmediately = true := by
    rw [hwaits]
    decide
  unfold Terminal.put
  simp only
  apply (if_pos hpast).trans
  unfold Terminal.lastColumnWritten
  exact if_neg hnot

theorem feedChar_drawable (hstate : t.state = .ground) {ch : CodePoint} (h : Drawable data ch) :
    t.feedChar data ch = t.print data ch := by
  unfold Terminal.feedChar
  rw [hstate]
  simp only
  rw [if_neg, if_neg (by rw [h.1]; decide)]
  rintro rfl
  exact absurd h.1 (by decide)

theorem set_modify {α : Type} {items : List α} {i : Nat} (f g : α → α) {item : α}
    (hheld : items[i]? = some item) : (items.modify i f).set i (g item) = items.modify i g := by
  have hlt : i < items.length := (List.getElem?_eq_some_iff.mp hheld).1
  apply List.ext_getElem?
  intro j
  rw [List.getElem?_set, List.getElem?_modify, List.getElem?_modify, List.length_modify]
  by_cases hij : i = j
  · subst hij
    rw [if_pos rfl, if_pos hlt, hheld]
    simp
  · rw [if_neg hij]
    simp [hij]

variable {cell : Cell} {columns : Nat}

theorem joinMark_overwrite (h : Shape data t) (hpos : 0 < columns)
    (hle : columns ≤ 2) (hroom : t.col + columns ≤ t.width) (hsome : cell.char ≠ [])
    (hshort : cell.char.length < maxCellChars) {col : Nat} {wrapPending : Bool}
    (hcol : (if wrapPending = true then col else col - 1) = t.col + columns - 1)
    (hnot : ¬(wrapPending = false ∧ col = 0)) (mark : CodePoint) :
    ({ t.overwrite data (glyphCells cell columns) with col, wrapPending } : Terminal).joinMark mark =
      some { t.overwrite data (glyphCells { cell with char := cell.char ++ [mark] } columns) with
        col, wrapPending } := by
  obtain ⟨shown, hheld, hline⟩ := h.heldRow
  have hlength := hline.length
  have hcells : ∀ cell : Cell, (glyphCells cell columns).length = columns :=
    fun cell => length_glyphCells cell hpos hle
  -- The row is the same left and right of the glyph.
  obtain ⟨left, right, hleft, hoverwrite⟩ : ∃ left right : Row, left.length = t.col ∧
      ∀ cell, (glyphs data).overwrite t.erased shown t.col (glyphCells cell columns) =
        left ++ (glyphCells cell columns ++ right) := by
    refine ⟨((glyphs data).split t.erased t.col (t.col + columns) shown).take t.col,
      ((glyphs data).split t.erased t.col (t.col + columns) shown).drop (t.col + columns), ?_, ?_⟩
    · rw [length_take, Glyphs.length_split]
      omega
    · intro cell
      unfold Glyphs.overwrite
      rw [hcells, append_assoc]
  have hrow : (t.rows.modify t.row fun shown =>
      (glyphs data).overwrite t.erased shown t.col (glyphCells cell columns))[t.row]? =
      some (left ++ (glyphCells cell columns ++ right)) := by
    rw [getElem?_modify, hheld, ← hoverwrite]
    simp
  have hset : (t.rows.modify t.row fun shown =>
      (glyphs data).overwrite t.erased shown t.col (glyphCells cell columns)).set t.row
        (left ++ (glyphCells { cell with char := cell.char ++ [mark] } columns ++ right)) =
      t.rows.modify t.row fun shown => (glyphs data).overwrite t.erased shown t.col
        (glyphCells { cell with char := cell.char ++ [mark] } columns) := by
    rw [← hoverwrite]
    exact set_modify _ (fun shown => (glyphs data).overwrite t.erased shown t.col
      (glyphCells { cell with char := cell.char ++ [mark] } columns)) hheld
  -- The cell of the cursor, or the one before it where that is a continuation cell.
  have hfound : ∃ here, (left ++ (glyphCells cell columns ++ right))[t.col + columns - 1]? = some here ∧
      (if 0 < t.col + columns - 1 ∧ here.char = [] then t.col + columns - 1 - 1
        else t.col + columns - 1) = t.col ∧
      (left ++ (glyphCells cell columns ++ right))[t.col]? = some cell ∧
      (left ++ (glyphCells cell columns ++ right)).set t.col
        { cell with char := cell.char ++ [mark] } =
        left ++ (glyphCells { cell with char := cell.char ++ [mark] } columns ++ right) := by
    have hcases : columns = 1 ∨ columns = 2 := by omega
    rcases hcases with rfl | rfl
    · refine ⟨cell, ?_, ?_, ?_, ?_⟩
      · rw [Nat.add_sub_cancel, getElem?_append_right (by omega), hleft, Nat.sub_self]
        rfl
      · rw [if_neg (fun hboth => hsome hboth.2), Nat.add_sub_cancel]
      · rw [getElem?_append_right (by omega), hleft, Nat.sub_self]
        rfl
      · rw [set_append_right _ _ (by omega), hleft, Nat.sub_self]
        rfl
    · refine ⟨{ cell with char := [] }, ?_, ?_, ?_, ?_⟩
      · rw [getElem?_append_right (by omega), hleft, show t.col + 2 - 1 - t.col = 1 by omega]
        rfl
      · rw [if_pos ⟨by omega, rfl⟩]
        omega
      · rw [getElem?_append_right (by omega), hleft, Nat.sub_self]
        rfl
      · rw [set_append_right _ _ (by omega), hleft, Nat.sub_self]
        rfl
  obtain ⟨here, hhere, hback, hcell, hchanged⟩ := hfound
  have hwidth : t.col < (t.overwrite data (glyphCells cell columns)).width := by
    show t.col < t.width
    omega
  unfold Terminal.joinMark Terminal.onRow
  rw [if_neg hnot]
  simp only [hcol]
  show (do
    let shown ← (t.rows.modify t.row fun shown =>
      (glyphs data).overwrite t.erased shown t.col (glyphCells cell columns))[t.row]?
    _) = _
  rw [hrow]
  simp only [bind_eq_bind, bind_some, hhere, hback]
  rw [if_pos hwidth, hcell]
  simp only [bind_some]
  rw [if_pos ⟨hsome, hshort⟩, bind_some, hchanged]
  exact congrArg (fun rows => some { t with rows, col, wrapPending }) hset

theorem joinMark_put (h : Shape data t) (hpending : t.wrapPending = false)
    (hpos : 0 < columns) (hle : columns ≤ 2) (hroom : t.col + columns ≤ t.width)
    (hsome : cell.char ≠ []) (hshort : cell.char.length < maxCellChars)
    (hkept : t.wrapsImmediately = true → t.col + columns < t.width) (mark : CodePoint) :
    (t.put data (glyphCells cell columns)).joinMark mark =
      some (t.put data (glyphCells { cell with char := cell.char ++ [mark] } columns)) := by
  have hcells : ∀ cell : Cell, (glyphCells cell columns).length = columns :=
    fun cell => length_glyphCells cell hpos hle
  by_cases hinside : t.col + columns < t.width
  · have hput : ∀ cell : Cell, t.put data (glyphCells cell columns) =
        { t.overwrite data (glyphCells cell columns) with
          col := t.col + columns, wrapPending := false } := by
      intro cell
      rw [put_inside (by rw [hcells]; exact hinside), hcells, ← hpending]
      rfl
    rw [hput, hput]
    exact joinMark_overwrite h hpos hle hroom hsome hshort (by simp) (by omega) mark
  · have hwaits : t.wrapsImmediately = false :=
      Bool.eq_false_iff.mpr fun himmediate => hinside (hkept himmediate)
    have hput : ∀ cell : Cell, t.put data (glyphCells cell columns) =
        { t.overwrite data (glyphCells cell columns) with
          col := t.width - 1, wrapPending := true } :=
      fun cell => put_edge (by rw [hcells]; omega) hwaits
    rw [hput, hput]
    exact joinMark_overwrite h hpos hle hroom hsome hshort (by rw [if_pos rfl]; omega)
      (fun hboth => by cases hboth.1) mark

theorem isGlyph_mark {char : PyStr} {mark : CodePoint} (h : IsGlyph data columns char)
    (hdrawable : Drawable data mark) (hzero : charWidth data mark = 0)
    (hshort : char.length < maxCellChars) : IsGlyph data columns (char ++ [mark]) := by
  obtain ⟨base, marks, rfl, hbase, hwidth, hmarks, -⟩ := h
  refine ⟨base, marks ++ [mark], rfl, hbase, hwidth, ?_, ?_⟩
  · intro other hother
    rcases mem_append.mp hother with hold | hnew
    · exact hmarks other hold
    · rw [mem_singleton.mp hnew]
      exact ⟨hdrawable, hzero⟩
  · rw [length_append, length_singleton]
    exact hshort

theorem whole_glyph (hpos : 0 < columns) (hle : columns ≤ 2)
    (h : IsGlyph data columns cell.char) : (glyphs data).Whole (glyphCells cell columns) := by
  have hcases : columns = 1 ∨ columns = 2 := by omega
  rcases hcases with rfl | rfl
  · exact .single h .nil
  · exact .double ⟨h, rfl⟩ .nil

theorem fed_marks (h : Shape data t) (hstate : t.state = .ground) (hpending : t.wrapPending = false)
    (hpos : 0 < columns) (hle : columns ≤ 2)
    (hroom : t.col + columns ≤ t.width) (hglyph : IsGlyph data columns cell.char) {marks : PyStr}
    (hmarks : ∀ mark ∈ marks, Drawable data mark ∧ charWidth data mark = 0)
    (hshort : (cell.char ++ marks).length ≤ maxCellChars)
    (hkept : t.wrapsImmediately = true → t.col + columns < t.width) :
    Fed data (t.put data (glyphCells cell columns)) marks
      (t.put data (glyphCells { cell with char := cell.char ++ marks } columns)) := by
  induction marks generalizing cell with
  | nil =>
    rw [append_nil]
    exact fed_nil data _
  | cons mark rest ih =>
    obtain ⟨hdrawable, hzero⟩ := hmarks mark (.head _)
    have hlength : cell.char.length + (rest.length + 1) ≤ maxCellChars := by
      rw [length_append, length_cons] at hshort
      exact hshort
    have hshape := shape_put h hpending (whole_glyph hpos hle hglyph)
      (by rw [length_glyphCells cell hpos hle]; exact hroom)
    have hfirst : Fed data (t.put data (glyphCells cell columns)) [mark]
        (t.put data (glyphCells { cell with char := cell.char ++ [mark] } columns)) := by
      unfold Fed
      rw [foldlM_cons, feedChar_drawable ((state_put t _).trans hstate) hdrawable,
        print_eq hshape hdrawable, if_pos hzero,
        joinMark_put h hpending hpos hle hroom hglyph.ne_nil (by omega) hkept]
      rfl
    have hrest := @ih { cell with char := cell.char ++ [mark] }
      (isGlyph_mark hglyph hdrawable hzero (by omega))
      (fun other hother => hmarks other (mem_cons_of_mem mark hother)) (by
        rw [append_assoc]
        exact hshort)
    have hboth := hfirst.append hrest
    rw [append_assoc] at hboth
    exact hboth

theorem fed_glyph (h : Shape data t) (hstate : t.state = .ground) (hpending : t.wrapPending = false)
    (hpos : 0 < columns) (hle : columns ≤ 2)
    (hroom : t.col + columns ≤ t.width) (hglyph : IsGlyph data columns cell.char)
    (hkept : t.wrapsImmediately = true → t.col + columns = t.width → cell.char.length = 1) :
    Fed data t cell.char (t.put data (glyphCells (inked t.pen cell) columns)) := by
  obtain ⟨base, marks, hchar, hbase, hwidth, hmarks, hlength⟩ := hglyph
  have hfirst : Fed data t [base] (t.put data (glyphCells (penCell t.pen base) columns)) := by
    unfold Fed
    rw [foldlM_cons, feedChar_drawable hstate hbase, print_eq h hbase, hwidth,
      wrapNow_of_not_pending hpending, if_neg (by omega), if_neg (by omega)]
    rfl
  have hinked : inked t.pen cell = { penCell t.pen base with char := [base] ++ marks } := by
    unfold inked penCell
    rw [hchar]
    rfl
  rw [hinked, hchar]
  show Fed data t ([base] ++ marks) _
  cases marks with
  | nil => exact hfirst
  | cons mark rest =>
    apply hfirst.append
    apply fed_marks h hstate hpending hpos hle hroom (isGlyph_single hbase hwidth) hmarks
      (by rw [hchar] at hlength; exact hlength)
    intro himmediate
    by_contra hedge
    have hone := hkept himmediate (by omega)
    rw [hchar] at hone
    simp at hone

def PlainEnd (cells : Row) : Prop :=
  ∀ cell, (cells.filter fun cell => !cell.char.isEmpty).getLast? = some cell → cell.char.length = 1

theorem PlainEnd.tail {first rest : Row} (h : PlainEnd (first ++ rest)) : PlainEnd rest := by
  intro cell hcell
  apply h
  have hsome : (rest.filter fun cell => !cell.char.isEmpty) ≠ [] := by
    intro hnone
    rw [hnone] at hcell
    cases hcell
  rw [filter_append, getLast?_append_of_ne_nil _ hsome]
  exact hcell

theorem plainEnd_glyph (hsome : cell.char ≠ [])
    (h : PlainEnd (glyphCells cell columns)) : cell.char.length = 1 := by
  apply h
  unfold glyphCells
  split <;> simp [hsome]

theorem fed_glyph_then (h : Shape data t) (hstate : t.state = .ground)
    (hpending : t.wrapPending = false) {rest : Row}
    (hpos : 0 < columns) (hle : columns ≤ 2) (hglyph : IsGlyph data columns cell.char)
    (hroom : t.col + (columns + rest.length) ≤ t.width)
    (hend : t.wrapsImmediately = true → t.col + (columns + rest.length) = t.width →
      PlainEnd (glyphCells cell columns ++ rest))
    (hnext : ∀ {s : Terminal}, Shape data s → s.state = .ground → s.wrapPending = false →
      rest ≠ [] → s.col + rest.length ≤ s.width →
      (s.wrapsImmediately = true → s.col + rest.length = s.width → PlainEnd rest) →
      Fed data s (rest.flatMap Cell.char) (s.put data (rest.map (inked s.pen)))) :
    Fed data t (cell.char ++ rest.flatMap Cell.char)
      (t.put data (glyphCells (inked t.pen cell) columns ++ rest.map (inked t.pen))) := by
  by_cases hempty : rest = []
  · subst hempty
    have hplain : t.wrapsImmediately = true → t.col + columns = t.width → cell.char.length = 1 := by
      intro himmediate hedge
      have hglyphEnd := hend himmediate hedge
      rw [append_nil] at hglyphEnd
      exact plainEnd_glyph hglyph.ne_nil hglyphEnd
    rw [flatMap_nil, map_nil, append_nil, append_nil]
    exact fed_glyph h hstate hpending hpos hle hroom hglyph hplain
  · have hlength : 0 < rest.length := length_pos_of_ne_nil hempty
    have hcells : (glyphCells (inked t.pen cell) columns).length = columns :=
      length_glyphCells _ hpos hle
    have hwhole : (glyphs data).Whole (glyphCells (inked t.pen cell) columns) :=
      whole_glyph hpos hle hglyph
    have hfirst := fed_glyph h hstate hpending hpos hle (by omega) hglyph
      (fun _ hedge => by omega)
    have hshape := shape_put h hpending hwhole (by omega)
    have hput : t.put data (glyphCells (inked t.pen cell) columns) =
        { t.overwrite data (glyphCells (inked t.pen cell) columns) with col := t.col + columns } := by
      rw [put_inside (by omega), hcells]
    have hrestFed := hnext hshape ((state_put t _).trans hstate) (by rw [hput]; exact hpending) hempty
      (by rw [hput]; show t.col + columns + rest.length ≤ t.width; omega) (by
        rw [hput]
        intro himmediate hedge
        have hwhole : t.col + (columns + rest.length) = t.width := (Nat.add_assoc _ _ _).symm.trans hedge
        exact (hend himmediate hwhole).tail)
    have hpen : (t.put data (glyphCells (inked t.pen cell) columns)).pen = t.pen := by
      rw [hput]
      rfl
    have hmap : (rest.map (inked t.pen)).length = rest.length := length_map _
    rw [hpen, put_put h hwhole (by omega) (by omega) (by omega)] at hrestFed
    exact hfirst.append hrestFed

theorem fed_run {run : Row} (hrun : (glyphs data).Whole run) (h : Shape data t)
    (hstate : t.state = .ground) (hpending : t.wrapPending = false) (hsome : run ≠ [])
    (hroom : t.col + run.length ≤ t.width)
    (hend : t.wrapsImmediately = true → t.col + run.length = t.width → PlainEnd run) :
    Fed data t (run.flatMap Cell.char) (t.put data (run.map (inked t.pen))) := by
  induction hrun generalizing t with
  | nil => exact absurd rfl hsome
  | @single cell rest hcell hrest ih =>
    rw [length_cons, Nat.add_comm rest.length] at hroom hend
    have hthen := fed_glyph_then h hstate hpending Nat.one_pos (by omega) hcell hroom hend ih
    have hcells : glyphCells (inked t.pen cell) 1 = [inked t.pen cell] := rfl
    rw [hcells, singleton_append] at hthen
    rw [flatMap_cons, map_cons]
    exact hthen
  | @double lead tail rest hpair hrest ih =>
    obtain ⟨hlead, rfl⟩ := hpair
    rw [length_cons, length_cons, Nat.add_assoc, Nat.add_comm rest.length] at hroom hend
    have hthen := fed_glyph_then h hstate hpending Nat.two_pos (by omega) hlead hroom hend ih
    have hcells : glyphCells (inked t.pen lead) 2 =
        [inked t.pen lead, inked t.pen { lead with char := [] }] := rfl
    rw [hcells, cons_append, singleton_append] at hthen
    rw [flatMap_cons, flatMap_cons, map_cons, map_cons, nil_append]
    exact hthen

end Printing

section Runs

theorem pen_put (t : Terminal) (cells : Row) : (t.put data cells).pen = t.pen := by
  unfold Terminal.put Terminal.lastColumnWritten
  simp only
  split
  · split
    · exact (linefeed_keeps _).2.2
    · rfl
  · rfl

variable {run rest cells : Row} {pen : Pen} {row count : Nat}

theorem put_next (hedge : t.col + cells.length = t.width)
    (himmediate : t.wrapsImmediately = true) (hbottom : t.row ≠ t.bottom)
    (hrow : t.row + 1 < t.height) :
    t.put data cells =
      { t.overwrite data cells with row := t.row + 1, col := 0, wrapPending := false } := by
  have hpast : t.width ≤ t.col + cells.length := Nat.le_of_eq hedge.symm
  unfold Terminal.put
  simp only
  apply (if_pos hpast).trans
  unfold Terminal.lastColumnWritten
  apply (if_pos himmediate).trans
  unfold Terminal.linefeed
  simp only
  rw [if_neg (show ¬(t.overwrite data cells).row = (t.overwrite data cells).bottom from hbottom),
    if_pos (show (t.overwrite data cells).row + 1 < (t.overwrite data cells).height from hrow)]
  rfl

theorem rows_overwrite {cells line : Row} (hline : t.rows[t.row]? = some line)
    (hstart : ¬(glyphs data).IsTail line t.col)
    (hstop : ¬(glyphs data).IsTail line (t.col + cells.length)) :
    t.overwrite data cells = { t with
      rows := t.rows.set t.row (line.take t.col ++ cells ++ line.drop (t.col + cells.length)) } := by
  have hsplit : (glyphs data).split t.erased t.col (t.col + cells.length) line = line := by
    unfold Glyphs.split
    rw [Glyphs.cut_of_not_isTail hstart, Glyphs.cut_of_not_isTail hstop]
  have hchanged : (glyphs data).overwrite t.erased line t.col cells =
      line.take t.col ++ cells ++ line.drop (t.col + cells.length) := by
    unfold Glyphs.overwrite
    rw [hsplit]
  have hset := set_modify id (fun shown => (glyphs data).overwrite t.erased shown t.col cells) hline
  rw [modify_id, hchanged] at hset
  exact congrArg (fun rows => { t with rows }) hset.symm

theorem put_plain {cells line : Row} (hline : t.rows[t.row]? = some line)
    (hstart : ¬(glyphs data).IsTail line t.col)
    (hstop : ¬(glyphs data).IsTail line (t.col + cells.length))
    (hroom : t.col + cells.length ≤ t.width) (hbottom : t.bottom = t.height - 1)
    (hlast : t.wrapsImmediately = true → t.col + cells.length = t.width → t.row + 1 < t.height) :
    ∃ row col wrapPending, t.put data cells = { t with
      rows := t.rows.set t.row (line.take t.col ++ cells ++ line.drop (t.col + cells.length))
      row, col, wrapPending } := by
  have hrows := rows_overwrite hline hstart hstop
  by_cases hinside : t.col + cells.length < t.width
  · exact ⟨t.row, t.col + cells.length, t.wrapPending, by rw [put_inside hinside, hrows]⟩
  · have hedge : t.col + cells.length = t.width := by omega
    by_cases himmediate : t.wrapsImmediately = true
    · have hrow := hlast himmediate hedge
      exact ⟨t.row + 1, 0, false, by rw [put_next hedge himmediate (by omega) hrow, hrows]⟩
    · exact ⟨t.row, t.width - 1, true, by
        rw [put_edge hedge (Bool.eq_false_iff.mpr himmediate), hrows]⟩

variable {style : Pen} {blank first : Cell} {painted : Row}

theorem inked_self {cell : Cell} (h : cell.toPen = style) : inked style cell = cell := by
  rw [← h]
  rfl

theorem withPen_self (h : t.pen = pen) : { t with pen } = t := by
  rw [← h]

theorem fed_resetText (hstate : t.state = .ground) : Fed data t resetText { t with pen := {} } :=
  fed_sgrText hstate (by simp) (by simp)

theorem fed_colored (hrun : (glyphs data).Whole run) (h : Shape data t)
    (hstate : t.state = .ground) (hpending : t.wrapPending = false) (hsome : run ≠ [])
    (hroom : t.col + run.length ≤ t.width)
    (hend : t.wrapsImmediately = true → t.col + run.length = t.width → PlainEnd run)
    (hstyle : ∀ cell ∈ run, cell.toPen = style) (hpen : mergePen t.pen style = style) :
    Fed data t (colored (run.flatMap Cell.char) style)
      { { t with pen := style }.put data run with pen := {} } := by
  have hinked : run.map (inked style) = run := by
    conv_rhs => rw [← map_id run]
    exact map_congr_left fun cell hcell => inked_self (hstyle cell hcell)
  have htext : Fed data { t with pen := style } (run.flatMap Cell.char)
      ({ t with pen := style }.put data run) := by
    have hfed := fed_run hrun (h.withPen style) hstate hpending hsome hroom hend
    rw [hinked] at hfed
    exact hfed
  unfold colored
  by_cases hdefault : style = {}
  · subst hdefault
    have hkept := withPen_self (hpen : t.pen = {})
    rw [hkept] at htext ⊢
    rw [if_pos ((coloredStart_eq_nil {}).mpr rfl), withPen_self ((pen_put t run).trans hpen)]
    exact htext
  · have hstart : Fed data t (coloredStart style) _ := fed_coloredStart hstate style
    rw [hpen] at hstart
    have hground : ({ t with pen := style }.put data run).state = .ground :=
      (state_put _ _).trans hstate
    have hreset : Fed data _ resetText _ := fed_resetText hground
    rw [if_neg (fun hnone => hdefault ((coloredStart_eq_nil style).mp hnone))]
    exact (hstart.append htext).append hreset

def firstInked (cells : Row) : Option Cell := cells.find? fun cell => decide (cell ≠ blankCell)

def penAfter (pen : Pen) (cells : Row) : Pen := if (firstInked cells).isSome = true then {} else pen

def PenFits (pen : Pen) (cells : Row) : Prop :=
  ∀ cell, firstInked cells = some cell → mergePen pen cell.toPen = cell.toPen

theorem firstInked_blank (rest : Row) : firstInked (blankCell :: rest) = firstInked rest := by
  unfold firstInked
  exact find?_cons_of_neg (by simp)

theorem firstInked_inked (h : first ≠ blankCell) (rest : Row) :
    firstInked (first :: rest) = some first := by
  unfold firstInked
  exact find?_cons_of_pos (by simpa using h)

theorem firstInked_append (first rest : Row) :
    firstInked (first ++ rest) = (firstInked first).or (firstInked rest) := by
  unfold firstInked
  exact find?_append

theorem penFits_default (cells : Row) : PenFits {} cells := fun cell _ => default_mergePen cell.toPen

theorem penAfter_default (cells : Row) : penAfter {} cells = {} := ite_self _

theorem penAfter_append (pen : Pen) (first rest : Row) :
    penAfter pen (first ++ rest) = penAfter (penAfter pen first) rest := by
  unfold penAfter
  rw [firstInked_append]
  cases firstInked first <;> cases firstInked rest <;> rfl

theorem PenFits.parts {first : Row} (h : PenFits pen (first ++ rest)) :
    PenFits pen first ∧ PenFits (penAfter pen first) rest := by
  unfold PenFits at h
  rw [firstInked_append] at h
  constructor
  · intro cell hcell
    exact h cell (by rw [hcell]; rfl)
  · unfold penAfter
    cases hfirst : firstInked first with
    | none =>
      rw [hfirst, none_or] at h
      exact h
    | some cell => exact penFits_default rest

theorem whole_of_blank (h : (glyphs data).Whole (blankCell :: rest)) :
    (glyphs data).Whole rest := by
  cases h with
  | single _ hrest => exact hrest
  | double hpair _ =>
    obtain ⟨⟨base, marks, hchar, -, hwide, -⟩, -⟩ := hpair
    obtain ⟨rfl, -⟩ := List.cons.inj hchar
    have hone := (@drawable_ascii data 0x20 (by decide)).2
    omega

theorem inRun_first (h : first ≠ blankCell) : inRun first first = true :=
  decide_eq_true ⟨h, rfl⟩

theorem whole_run (h : (glyphs data).Whole (first :: rest)) (hfirst : first ≠ blankCell) :
    (glyphs data).Whole (first :: rest.takeWhile (inRun first)) ∧
      (glyphs data).Whole (rest.dropWhile (inRun first)) := by
  have hsplit : first :: rest =
      first :: rest.takeWhile (inRun first) ++ rest.dropWhile (inRun first) := by
    rw [cons_append, takeWhile_append_dropWhile]
  have hrun : ∀ cell ∈ first :: rest.takeWhile (inRun first), inRun first cell = true := by
    intro cell hcell
    rcases mem_cons.mp hcell with rfl | htaken
    · exact inRun_first hfirst
    · exact mem_takeWhile_imp htaken
  have hcut : ¬(glyphs data).IsTail (first :: rest)
      (first :: rest.takeWhile (inRun first)).length := by
    intro htail
    obtain ⟨before, lead, tail, hbefore, hlead, htailCell, hpair⟩ := h.isTail htail
    obtain ⟨hglyph, rfl⟩ := hpair
    -- A continuation cell has the style of its lead, so it is in the run as well.
    have hin : inRun first lead = true := by
      apply hrun
      rw [hsplit, getElem?_append_left (by omega)] at hlead
      exact mem_of_getElem? hlead
    have hnext : (rest.dropWhile (inRun first)).head? = some { lead with char := [] } := by
      rw [hsplit, getElem?_append_right (le_rfl), Nat.sub_self] at htailCell
      rw [head?_eq_getElem?]
      exact htailCell
    have hout := head?_dropWhile_not (inRun first) rest
    rw [hnext] at hout
    have hinTail : inRun first { lead with char := [] } = true := by
      refine decide_eq_true ⟨?_, (of_decide_eq_true hin).2⟩
      intro hblank
      cases congrArg Cell.char hblank
    have hstopped : inRun first { lead with char := [] } = false := hout
    rw [hinTail] at hstopped
    cases hstopped
  obtain ⟨hleft, hright⟩ := h.parts _ hcut
  rw [hsplit, take_left] at hleft
  rw [hsplit, drop_left] at hright
  exact ⟨hleft, hright⟩

/-- A screen whose margins are its edges, ready for the next character. -/
structure Paintable (data : UnicodeData) (t : Terminal) : Prop where
  shape : Shape data t
  ground : t.state = .ground
  bottom : t.bottom = t.height - 1
  width : t.width ≤ maxWidth
  height : t.height ≤ maxHeight

def Paints (data : UnicodeData) (t : Terminal) (text : PyStr) (rows : List Row) (pen : Pen) : Prop :=
  ∃ row col wrapPending, Fed data t text { t with rows, pen, row, col, wrapPending }

theorem Paints.append {first second : PyStr} {rows rows' : List Row} {pen' : Pen}
    (h : Paintable data t) (hfirst : Paints data t first rows pen)
    (hsecond : ∀ row col wrapPending, Paintable data { t with rows, pen, row, col, wrapPending } →
      Paints data { t with rows, pen, row, col, wrapPending } second rows' pen') :
    Paints data t (first ++ second) rows' pen' := by
  obtain ⟨row, col, wrapPending, hfed⟩ := hfirst
  obtain ⟨row', col', wrapPending', hnext⟩ := hsecond row col wrapPending
    ⟨hfed.shape h.shape, h.ground, h.bottom, h.width, h.height⟩
  exact ⟨row', col', wrapPending', hfed.append hnext⟩

theorem not_isTail_blank {edge : Nat} (hblank : blank.char ≠ []) (hedge : painted.length ≤ edge) :
    ¬(glyphs data).IsTail (painted ++ List.replicate count blank) edge := by
  unfold Glyphs.IsTail
  rw [getElem?_append_right hedge, getElem?_replicate]
  split
  · rw [map_some]
    intro htail
    exact hblank (isEmpty_iff.mp (Option.some.inj htail))
  · intro htail
    cases htail

theorem Shape.length_line (h : Shape data t) {line : Row} (hline : t.rows[row]? = some line) :
    line.length = t.width :=
  (h.grid.rows line (mem_of_getElem? hline)).length

theorem paints_run (h : Paintable data t)
    (hrow : row < t.height) (hline : t.rows[row]? = some (painted ++ List.replicate count blank))
    (hblank : blank.char ≠ []) (hrun : (glyphs data).Whole run) (hsome : run ≠ [])
    (hroom : run.length ≤ count) (hstyle : ∀ cell ∈ run, cell.toPen = style)
    (hpen : mergePen t.pen style = style)
    (hend : t.wrapsImmediately = true → run.length = count → PlainEnd run ∧ row + 1 < t.height) :
    Paints data t (moveCursor (row + 1) (painted.length + 1) ++ colored (run.flatMap Cell.char) style)
      (t.rows.set row (painted ++ run ++ List.replicate (count - run.length) blank)) {} := by
  have hlength := h.shape.length_line hline
  rw [length_append, length_replicate] at hlength
  have hpositive := length_pos_of_ne_nil hsome
  have hwidth : t.width ≤ 500 := h.width
  have hheight : t.height ≤ 200 := h.height
  have hmoved : Fed data t (moveCursor (row + 1) (painted.length + 1))
      { t with row, col := painted.length, wrapPending := false } :=
    fed_moveCursor h.ground hrow (by omega) (by omega) (by omega)
  have hcolored := fed_colored hrun (hmoved.shape h.shape) h.ground rfl hsome
    (show painted.length + run.length ≤ t.width by omega)
    (fun himmediate hedge => (hend himmediate (by
      have hreached : painted.length + run.length = t.width := hedge
      omega)).1) hstyle hpen
  obtain ⟨row', col', wrapPending, hput⟩ := @put_plain data
    { t with row, col := painted.length, wrapPending := false, pen := style } run _ hline
    (not_isTail_blank hblank (le_rfl)) (not_isTail_blank hblank (Nat.le_add_right _ _))
    (show painted.length + run.length ≤ t.width by omega) h.bottom
    (fun himmediate hedge => (hend himmediate (by
      have hreached : painted.length + run.length = t.width := hedge
      omega)).2)
  refine ⟨row', col', wrapPending, ?_⟩
  have hfed := hmoved.append hcolored
  rw [hput] at hfed
  have hleft : (painted ++ List.replicate count blank).take painted.length = painted := take_left
  have hright : (painted ++ List.replicate count blank).drop (painted.length + run.length) =
      List.replicate (count - run.length) blank := by
    rw [← drop_drop, drop_left, drop_replicate]
  simp only [hleft, hright] at hfed
  exact hfed

theorem set_held {α : Type} {items : List α} {i : Nat} {item : α} (h : items[i]? = some item) :
    items.set i item = items := by
  obtain ⟨hlt, rfl⟩ := List.getElem?_eq_some_iff.mp h
  exact List.set_getElem_self hlt

theorem paints_renderRow {col : Nat} (h : Paintable data t) (hrow : row < t.height)
    (hline : t.rows[row]? = some (painted ++ List.replicate cells.length blank))
    (hcol : painted.length = col) (hblank : blank.char ≠ []) (hcells : (glyphs data).Whole cells)
    (hpen : PenFits t.pen cells) (hsame : blankCell ∈ cells → blank = blankCell)
    (hend : t.wrapsImmediately = true → PlainEnd cells ∧
      (row + 1 = t.height → ∀ cell, cells.getLast? = some cell → cell = blankCell)) :
    Paints data t (renderRow row col cells) (t.rows.set row (painted ++ cells))
      (penAfter t.pen cells) := by
  fun_induction renderRow row col cells generalizing t painted with
  | case1 col =>
    rw [append_nil]
    rw [length_nil, replicate_zero, append_nil] at hline
    rw [set_held hline]
    exact ⟨t.row, t.col, t.wrapPending, fed_nil data t⟩
  | case2 col rest ih =>
    obtain rfl := hsame (.head _)
    have hrest := @ih t (painted ++ [blankCell]) h hrow (by
        rw [append_assoc]
        exact hline) (by rw [length_append, hcol]; rfl) (whole_of_blank hcells) (by
        unfold PenFits at hpen ⊢
        rw [firstInked_blank] at hpen
        exact hpen) (fun hmem => hsame (.tail _ hmem)) (by
        intro himmediate
        obtain ⟨hplain, hlast⟩ := hend himmediate
        refine ⟨@PlainEnd.tail [blankCell] rest hplain, ?_⟩
        intro hbottom cell hcell
        apply hlast hbottom
        rw [getLast?_cons, hcell]
        rfl)
    rw [append_assoc] at hrest
    unfold penAfter at hrest ⊢
    rw [firstInked_blank]
    exact hrest
  | case3 col first rest hfirst run =>
    rename_i ih
    subst hcol
    have hdef : first :: rest.takeWhile (inRun first) = run := rfl
    obtain ⟨hrun, hrest⟩ := whole_run hcells hfirst
    rw [hdef] at hrun
    clear_value run
    have hsplit : first :: rest = run ++ rest.dropWhile (inRun first) := by
      rw [← hdef, cons_append, takeWhile_append_dropWhile]
    have hlength : (first :: rest).length = run.length + (rest.dropWhile (inRun first)).length := by
      rw [hsplit, length_append]
    have hinRun : ∀ cell ∈ run, inRun first cell = true := by
      rw [← hdef]
      intro cell hcell
      rcases mem_cons.mp hcell with rfl | htaken
      · exact inRun_first hfirst
      · exact mem_takeWhile_imp htaken
    have hsome : run ≠ [] := hdef ▸ cons_ne_nil _ _
    have hpainted := paints_run h hrow hline hblank hrun hsome (by omega)
      (fun cell hcell => (of_decide_eq_true (hinRun cell hcell)).2)
      (hpen first (firstInked_inked hfirst rest)) (by
        intro himmediate hall
        obtain ⟨hplain, hlast⟩ := hend himmediate
        have hnone : rest.dropWhile (inRun first) = [] := length_eq_zero_iff.mp (by omega)
        rw [hnone, append_nil] at hsplit
        refine ⟨hsplit ▸ hplain, ?_⟩
        -- The last row does not end in a run.
        by_contra hbottom
        have hlastCell := getLast?_eq_some_getLast (cons_ne_nil first rest)
        have hblankEnd := hlast (by omega) _ hlastCell
        have hmem : (first :: rest).getLast (cons_ne_nil first rest) ∈ run :=
          hsplit ▸ getLast_mem (cons_ne_nil first rest)
        exact (of_decide_eq_true (hinRun _ hmem)).1 hblankEnd)
    have hleft : (first :: rest).length - run.length = (rest.dropWhile (inRun first)).length := by
      omega
    rw [hleft] at hpainted
    apply Paints.append h hpainted
    intro row' col' wrapPending hnext
    have hheld : (t.rows.set row (painted ++ run ++
        List.replicate (rest.dropWhile (inRun first)).length blank))[row]? =
        some (painted ++ run ++ List.replicate (rest.dropWhile (inRun first)).length blank) :=
      getElem?_set_self (by rw [h.shape.grid.length]; exact hrow)
    have hmore := ih hnext hrow hheld length_append hrest (penFits_default _)
      (fun hmem => hsame (by rw [hsplit]; exact mem_append_right run hmem)) (by
        intro himmediate
        obtain ⟨hplain, hlast⟩ := hend himmediate
        rw [hsplit] at hplain
        refine ⟨hplain.tail, ?_⟩
        intro hbottom cell hcell
        apply hlast hbottom
        rw [hsplit, getLast?_append, hcell]
        rfl)
    have hpenAfter : penAfter t.pen (first :: rest) = {} := by
      unfold penAfter
      rw [firstInked_inked hfirst]
      rfl
    rw [hpenAfter, hsplit, ← append_assoc]
    simp only [set_set, penAfter_default] at hmore
    exact hmore

theorem paints_renderRows {row : Nat} {lines painted : List Row} {blank : Cell}
    (h : Paintable data t)
    (hrows : t.rows = painted ++ List.replicate lines.length (List.replicate t.width blank))
    (hrow : painted.length = row) (hblank : blank.char ≠ [])
    (hlines : ∀ line ∈ lines, RowOk data t.width line) (hpen : PenFits t.pen lines.flatten)
    (hsame : ∀ line ∈ lines, blankCell ∈ line → blank = blankCell)
    (hend : t.wrapsImmediately = true → (∀ line ∈ lines, PlainEnd line) ∧
      ∀ line cell, lines.getLast? = some line → line.getLast? = some cell → cell = blankCell) :
    Paints data t (renderRows row lines) (painted ++ lines) (penAfter t.pen lines.flatten) := by
  induction lines generalizing t row painted with
  | nil =>
    rw [length_nil, replicate_zero] at hrows
    rw [← hrows]
    exact ⟨t.row, t.col, t.wrapPending, fed_nil data t⟩
  | cons line rest ih =>
    subst hrow
    have hheight := h.shape.grid.length
    have hlength := (hlines line (.head _)).length
    rw [flatten_cons] at hpen ⊢
    rw [penAfter_append]
    obtain ⟨hfits, hfitsRest⟩ := hpen.parts
    have hheld : t.rows[painted.length]? = some ([] ++ List.replicate line.length blank) := by
      rw [hrows, getElem?_append_right (le_rfl), Nat.sub_self, hlength]
      rfl
    have hcount : t.rows.length = painted.length + (rest.length + 1) := by
      rw [hrows, length_append, length_replicate, length_cons]
    have hfirst := paints_renderRow h (by omega) hheld rfl hblank
      (hlines line (.head _)).whole hfits (hsame line (.head _)) (by
        intro himmediate
        obtain ⟨hplain, hlast⟩ := hend himmediate
        refine ⟨hplain line (.head _), ?_⟩
        intro hbottom cell hcell
        have hnone : rest = [] := length_eq_zero_iff.mp (by omega)
        exact hlast line cell (by rw [hnone]; rfl) hcell)
    have hset : t.rows.set painted.length ([] ++ line) = painted ++ [line] ++
        List.replicate rest.length (List.replicate t.width blank) := by
      rw [hrows, set_append_right _ _ (le_rfl), Nat.sub_self, append_assoc]
      rfl
    rw [hset] at hfirst
    apply Paints.append h hfirst
    intro row' col' wrapPending hnext
    have hrest := ih hnext rfl length_append
      (fun other hother => hlines other (.tail _ hother)) hfitsRest
      (fun other hother => hsame other (.tail _ hother)) (by
        intro himmediate
        obtain ⟨hplain, hlast⟩ := hend himmediate
        refine ⟨fun other hother => hplain other (.tail _ hother), ?_⟩
        intro other cell hother hcell
        apply hlast other cell _ hcell
        rw [getLast?_cons, hother]
        rfl)
    have hassoc : painted ++ [line] ++ rest = painted ++ line :: rest := append_assoc _ _ _
    rw [hassoc] at hrest
    exact hrest

end Runs

end NetBBS.Rendering
