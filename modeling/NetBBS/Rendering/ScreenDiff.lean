import NetBBS.Rendering.RestoredScreen

/-! # The difference of two screens -/

namespace NetBBS.Rendering

open Foundation List

variable {data : UnicodeData} {t : Terminal}

def inDiffRun (first cells : Cell × Cell) : Bool :=
  decide (cells.2 ≠ cells.1 ∧ cells.2.toPen = first.2.toPen)

/-- `diff_ansi` in a row, from a column on. -/
def diffRow (row col : Nat) (cells : List (Cell × Cell)) : PyStr :=
  match cells with
  | [] => []
  | first :: rest =>
    if first.2 = first.1 then diffRow row (col + 1) rest
    else
      let run := first :: rest.takeWhile (inDiffRun first)
      moveCursor (row + 1) (col + 1) ++ colored (run.flatMap fun cells => cells.2.char) first.2.toPen ++
        diffRow row (col + run.length) (rest.dropWhile (inDiffRun first))
termination_by cells.length
decreasing_by
  · exact Nat.lt_succ_self _
  · exact Nat.lt_succ_of_le (dropWhile_suffix _).length_le

def diffRows (row : Nat) : List (Row × Row) → PyStr
  | [] => []
  | (prev, cur) :: rest => diffRow row 0 (prev.zip cur) ++ diffRows (row + 1) rest

def diffAnsi (previous current : List Row) : PyStr := diffRows 0 (previous.zip current)

/-- A terminal that waits at the end of a row, with nothing begun and no attribute left on. -/
structure Resting (data : UnicodeData) (t : Terminal) : Prop where
  shape : Shape data t
  ground : t.state = .ground
  pen : t.pen = {}
  waits : t.wrapsImmediately = false
  width : t.width ≤ maxWidth
  height : t.height ≤ maxHeight

theorem paints_nil (h : Resting data t) {rows : List Row} (hrows : t.rows = rows) :
    Paints data t [] rows {} := by
  subst hrows
  refine ⟨t.row, t.col, t.wrapPending, ?_⟩
  rw [← h.pen]
  exact fed_nil data t

theorem Paints.next {first second : PyStr} {rows rows' : List Row} (h : Resting data t)
    (hfirst : Paints data t first rows {})
    (hsecond : ∀ row col wrapPending, Resting data { t with rows, pen := {}, row, col, wrapPending } →
      Paints data { t with rows, pen := {}, row, col, wrapPending } second rows' {}) :
    Paints data t (first ++ second) rows' {} := by
  obtain ⟨row, col, wrapPending, hfed⟩ := hfirst
  obtain ⟨row', col', wrapPending', hnext⟩ := hsecond row col wrapPending
    ⟨hfed.shape h.shape, h.ground, rfl, h.waits, h.width, h.height⟩
  exact ⟨row', col', wrapPending', hfed.append hnext⟩

theorem put_waits {cells shown : Row} (hline : t.rows[t.row]? = some shown)
    (hroom : t.col + cells.length ≤ t.width) (hwaits : t.wrapsImmediately = false) :
    ∃ col wrapPending, t.put data cells = { t with
      rows := t.rows.set t.row ((glyphs data).overwrite t.erased shown t.col cells)
      col, wrapPending } := by
  have hset := set_modify id (fun shown => (glyphs data).overwrite t.erased shown t.col cells) hline
  rw [modify_id] at hset
  rw [hset]
  by_cases hinside : t.col + cells.length < t.width
  · exact ⟨_, _, put_inside hinside⟩
  · exact ⟨_, _, put_edge (by omega) hwaits⟩

theorem paints_changed (h : Resting data t) {row col : Nat} {shown run : Row} {style : Pen}
    (hrow : row < t.height) (hline : t.rows[row]? = some shown) (hrun : (glyphs data).Whole run)
    (hsome : run ≠ []) (hroom : col + run.length ≤ t.width)
    (hstyle : ∀ cell ∈ run, cell.toPen = style) :
    ∃ blank, (glyphs data).narrow blank ∧ Paints data t
      (moveCursor (row + 1) (col + 1) ++ colored (run.flatMap Cell.char) style)
      (t.rows.set row ((glyphs data).overwrite blank shown col run)) {} := by
  have hpositive := length_pos_of_ne_nil hsome
  have hwidth : t.width ≤ 500 := h.width
  have hheight : t.height ≤ 200 := h.height
  have hmoved : Fed data t (moveCursor (row + 1) (col + 1))
      { t with row, col, wrapPending := false } :=
    fed_moveCursor h.ground hrow (by omega) (by omega) (by omega)
  have hcolored := fed_colored hrun (hmoved.shape h.shape) h.ground rfl hsome hroom
    (fun himmediate => absurd (h.waits.symm.trans himmediate) (by decide)) hstyle
    (by rw [h.pen]; exact default_mergePen style)
  obtain ⟨col', wrapPending, hput⟩ := @put_waits data
    { t with row, col, wrapPending := false, pen := style } run shown hline hroom h.waits
  have hfed := hmoved.append hcolored
  rw [hput] at hfed
  exact ⟨_, narrow_erased data _, row, col', wrapPending, hfed⟩

/-- Left of the column, and wherever the two pictures agree, the row shows the new one. -/
def Shown (prev cur shown : Row) (col : Nat) : Prop :=
  ∀ i, i < col ∨ prev[i]? = cur[i]? → shown[i]? = cur[i]?

variable {prev cur shown : Row} {row col : Nat} {first : Cell × Cell} {rest cells : List (Cell × Cell)}

theorem not_narrow_of_wide {char : PyStr} (h : IsGlyph data 2 char) : ¬IsGlyph data 1 char := by
  rintro ⟨base, marks, rfl, -, hone, -⟩
  obtain ⟨base', marks', heq, -, htwo, -⟩ := h
  obtain ⟨rfl, -⟩ := List.cons.inj heq
  omega

theorem isTail_next (hline : (glyphs data).Whole shown) (hcur : (glyphs data).Whole cur)
    (hsame : shown[col]? = cur[col]?) (htail : (glyphs data).IsTail cur (col + 1)) :
    shown[col + 1]? = cur[col + 1]? := by
  obtain ⟨before, lead, tail, hbefore, hlead, hheld, hglyph, rfl⟩ := hcur.isTail htail
  obtain rfl : before = col := by omega
  obtain ⟨other, hother, -, rfl⟩ := hline.follows (hsame.trans hlead) (not_narrow_of_wide hglyph)
    (isEmpty_eq_false_iff.mpr hglyph.ne_nil)
  exact hother.trans hheld.symm

theorem Shown.not_isTail (hshown : Shown prev cur shown col) (hline : (glyphs data).Whole shown)
    (hcur : (glyphs data).Whole cur) (hstart : ¬(glyphs data).IsTail cur col) :
    ¬(glyphs data).IsTail shown col := by
  intro htail
  obtain ⟨before, -, -, rfl, -⟩ := hline.isTail htail
  have hsame : cur[before]? = shown[before]? := (hshown before (.inl (Nat.lt_succ_self _))).symm
  apply hstart
  unfold Glyphs.IsTail at htail ⊢
  rw [isTail_next hcur hline hsame htail]
  exact htail

theorem held_pair (hcells : cells = (prev.zip cur).drop col) {i : Nat} {pair : Cell × Cell} :
    cells[i]? = some pair ↔ prev[col + i]? = some pair.1 ∧ cur[col + i]? = some pair.2 := by
  rw [hcells, getElem?_drop, getElem?_zip_eq_some]

/-- The cells painted for a run: those of the run, and the tail of a wide glyph at its end. -/
theorem diffRun_ends {run : List (Cell × Cell)} (hlength : prev.length = cur.length)
    (hcur : (glyphs data).Whole cur) (hcells : first :: rest = (prev.zip cur).drop col)
    (hchanged : first.2 ≠ first.1) (hrun : run = first :: rest.takeWhile (inDiffRun first)) :
    ∃ stop, col + run.length ≤ stop ∧ stop ≤ cur.length ∧ ¬(glyphs data).IsTail cur stop ∧
      (∀ cell ∈ (cur.drop col).take (stop - col), cell.toPen = first.2.toPen) ∧
      ((cur.drop col).take (stop - col)).flatMap Cell.char = run.flatMap (fun cells => cells.2.char) ∧
      ((glyphs data).IsTail cur (col + run.length) →
        prev[col + run.length]? = cur[col + run.length]?) := by
  have hsplit : first :: rest = run ++ rest.dropWhile (inDiffRun first) := by
    rw [hrun, cons_append, takeWhile_append_dropWhile]
  have hnew : (first :: rest).map Prod.snd = cur.drop col := by
    rw [hcells, map_drop, map_snd_zip (Nat.le_of_eq hlength.symm)]
  have htake : (cur.drop col).take run.length = run.map Prod.snd := by
    rw [← hnew, hsplit, map_append, take_left' (length_map _)]
  have hpositive : 0 < run.length := by
    rw [hrun]
    exact Nat.succ_pos _
  have hinside : ∀ cells ∈ run, inDiffRun first cells = true := by
    intro cells hmem
    rw [hrun] at hmem
    rcases mem_cons.mp hmem with rfl | htaken
    · exact decide_eq_true ⟨hchanged, rfl⟩
    · exact mem_takeWhile_imp htaken
  have hstyle : ∀ cell ∈ (cur.drop col).take run.length, cell.toPen = first.2.toPen := by
    intro cell hcell
    rw [htake] at hcell
    obtain ⟨cells, hmem, rfl⟩ := mem_map.mp hcell
    exact (of_decide_eq_true (hinside cells hmem)).2
  have htext : ((cur.drop col).take run.length).flatMap Cell.char =
      run.flatMap (fun cells => cells.2.char) := by
    rw [htake, flatMap_map]
  have hroom : col + run.length ≤ cur.length := by
    have hle := congrArg List.length hnew
    rw [length_map, hsplit, length_append, length_drop] at hle
    omega
  by_cases htail : (glyphs data).IsTail cur (col + run.length)
  · obtain ⟨before, lead, tail, hbefore, hlead, hheld, hglyph, rfl⟩ := hcur.isTail htail
    have hlt : col + run.length < cur.length := (List.getElem?_eq_some_iff.mp hheld).1
    -- The lead is the last cell of the run, so that its tail has the style of the run.
    have hpen : lead.toPen = first.2.toPen := by
      apply hstyle
      apply mem_of_getElem? (i := before - col)
      rw [getElem?_take, if_pos (by omega), getElem?_drop, Nat.add_sub_cancel' (by omega)]
      exact hlead
    have hmore : (cur.drop col).take (col + run.length + 1 - col) =
        (cur.drop col).take run.length ++ [{ lead with char := [] }] := by
      rw [show col + run.length + 1 - col = run.length + 1 by omega, take_add_one, getElem?_drop, hheld]
      rfl
    refine ⟨col + run.length + 1, Nat.le_succ _, hlt, ?_, ?_, ?_, fun _ => ?_⟩
    · intro hnext
      obtain ⟨_, other, _, hplace, hother, -, hwide, -⟩ := hcur.isTail hnext
      obtain rfl := Nat.succ.inj hplace
      obtain rfl := Option.some.inj (hheld.symm.trans hother)
      exact hwide.ne_nil rfl
    · rw [hmore]
      intro cell hcell
      rcases mem_append.mp hcell with hin | hlast
      · exact hstyle cell hin
      · rw [mem_singleton.mp hlast]
        exact hpen
    · rw [hmore, flatMap_append, htext]
      simp
    · have hold : col + run.length < prev.length := by omega
      have hpair := (@held_pair prev cur col _ hcells run.length (prev[col + run.length], _)).mpr
        ⟨getElem?_eq_getElem hold, hheld⟩
      rw [hsplit, getElem?_append_right (le_rfl), Nat.sub_self, ← head?_eq_getElem?] at hpair
      have hout := head?_dropWhile_not (inDiffRun first) rest
      rw [hpair] at hout
      have hnot := of_decide_eq_false hout
      rw [getElem?_eq_getElem hold, hheld]
      by_contra hne
      exact hnot ⟨fun heq => hne (congrArg some heq.symm), hpen⟩
  · refine ⟨col + run.length, le_rfl, hroom, htail, ?_, ?_, fun h => absurd h htail⟩
    · rw [Nat.add_sub_cancel_left]
      exact hstyle
    · rw [Nat.add_sub_cancel_left]
      exact htext

theorem Shown.overwrite {blank : Cell} {stop : Nat} (hshown : Shown prev cur shown col)
    (hline : (glyphs data).Whole shown) (hcur : (glyphs data).Whole cur)
    (hblank : (glyphs data).narrow blank) (hstart : ¬(glyphs data).IsTail cur col)
    (hstop : ¬(glyphs data).IsTail cur stop) (hlt : col < stop) (hroom : stop ≤ cur.length)
    (hlength : shown.length = cur.length) :
    Shown prev cur ((glyphs data).overwrite blank shown col ((cur.drop col).take (stop - col))) stop := by
  have hcells : ((cur.drop col).take (stop - col)).length = stop - col := by
    rw [length_take, length_drop]
    omega
  intro i hi
  rw [hline.getElem?_overwrite hblank (by omega) (by omega), hcells, Nat.add_sub_cancel' (by omega)]
  split
  · rw [getElem?_take, if_pos (by omega), getElem?_drop, Nat.add_sub_cancel' (by omega)]
  · split
    · rename_i hcut
      rcases hcut with ⟨htail, -⟩ | ⟨htail, rfl⟩
      · exact absurd htail (hshown.not_isTail hline hcur hstart)
      · -- The cell is the tail of an old glyph, so that the new picture has another one there.
        have hsame := hshown i (.inr (hi.resolve_left (Nat.lt_irrefl _)))
        unfold Glyphs.IsTail at htail hstop
        rw [hsame] at htail
        exact absurd htail hstop
    · exact hshown i (hi.imp_left fun hbefore => by omega)

theorem paints_diffRow (h : Resting data t) (hrow : row < t.height) (hprev : RowOk data t.width prev)
    (hcur : RowOk data t.width cur) (hline : t.rows[row]? = some shown)
    (hcells : cells = (prev.zip cur).drop col)
    (hstart : (glyphs data).IsTail cur col → prev[col]? = cur[col]?)
    (hshown : Shown prev cur shown col) :
    Paints data t (diffRow row col cells) (t.rows.set row cur) {} := by
  fun_induction diffRow row col cells generalizing t shown with
  | case1 col =>
    have hlineOk := h.shape.grid.rows shown (mem_of_getElem? hline)
    have hend : t.width ≤ col := by
      have hlength := congrArg List.length hcells
      rw [length_nil, length_drop, length_zip, hprev.length, hcur.length] at hlength
      omega
    have hdone : shown = cur := by
      apply ext_getElem?
      intro i
      by_cases hi : i < col
      · exact hshown i (.inl hi)
      · rw [getElem?_eq_none (by rw [hlineOk.length]; omega),
          getElem?_eq_none (by rw [hcur.length]; omega)]
    subst hdone
    exact paints_nil h (set_held hline).symm
  | case2 col first rest hsame ih =>
    have heq : prev[col]? = cur[col]? := by
      obtain ⟨hold, hnew⟩ := (@held_pair prev cur col _ hcells 0 first).mp rfl
      exact hold.trans (hsame ▸ hnew.symm)
    refine ih h hrow hprev hcur hline ?_ (isTail_next hprev.whole hcur.whole heq) ?_
    · rw [← tail_drop, ← hcells]
      rfl
    · rintro i (hi | hi)
      · rcases Nat.lt_succ_iff_lt_or_eq.mp hi with hlt | rfl
        · exact hshown i (.inl hlt)
        · exact hshown i (.inr heq)
      · exact hshown i (.inr hi)
  | case3 col first rest hchanged run =>
    rename_i ih
    have hlineOk := h.shape.grid.rows shown (mem_of_getElem? hline)
    have hstart : ¬(glyphs data).IsTail cur col := by
      intro htail
      obtain ⟨hold, hnew⟩ := (@held_pair prev cur col _ hcells 0 first).mp rfl
      exact hchanged (Option.some.inj ((hnew.symm.trans (hstart htail).symm).trans hold))
    have hlength : prev.length = cur.length := hprev.length.trans hcur.length.symm
    obtain ⟨stop, hle, hroom, hstop, hstyle, htext, htail⟩ :=
      diffRun_ends hlength hcur.whole hcells hchanged (show run = _ from rfl)
    have hpositive : 0 < run.length := Nat.succ_pos _
    have hwidth := hcur.length
    have hpainted : ((cur.drop col).take (stop - col)).length = stop - col := by
      rw [length_take, length_drop]
      omega
    obtain ⟨blank, hblank, hpaints⟩ := paints_changed h hrow hline
      (hcur.whole.between (by omega) hstart hstop) (ne_nil_of_length_pos (by rw [hpainted]; omega))
      (show col + _ ≤ t.width by rw [hpainted]; omega) hstyle
    rw [htext] at hpaints
    apply Paints.next h hpaints
    intro row' col' wrapPending hnext
    have hheight := h.shape.grid.length
    have hrest : rest.dropWhile (inDiffRun first) = (prev.zip cur).drop (col + run.length) := by
      rw [← drop_drop, ← hcells, show first :: rest = run ++ rest.dropWhile (inDiffRun first) by
        rw [cons_append, takeWhile_append_dropWhile], drop_left]
    have hmore := ih hnext hrow hprev hcur (getElem?_set_self (by rw [hheight]; exact hrow)) hrest htail
      fun i hi => hshown.overwrite hlineOk.whole hcur.whole hblank hstart hstop (by omega) hroom
        (hlineOk.length.trans hwidth.symm) i (hi.imp_left fun hlt => by omega)
    simpa only [set_set] using hmore

theorem paints_diffRows {painted : List Row} {pairs : List (Row × Row)} (h : Resting data t)
    (hrows : t.rows = painted ++ pairs.map Prod.fst) (hrow : painted.length = row)
    (hpairs : ∀ pair ∈ pairs, RowOk data t.width pair.1 ∧ RowOk data t.width pair.2) :
    Paints data t (diffRows row pairs) (painted ++ pairs.map Prod.snd) {} := by
  induction pairs generalizing t row painted with
  | nil => exact paints_nil h hrows
  | cons pair pairs ih =>
    subst hrow
    obtain ⟨hprev, hcur⟩ := hpairs pair (.head _)
    have hline : t.rows[painted.length]? = some pair.1 := by
      rw [hrows, map_cons, getElem?_append_right (le_rfl), Nat.sub_self]
      rfl
    have hlt : painted.length < t.height := by
      rw [← h.shape.grid.length]
      exact (List.getElem?_eq_some_iff.mp hline).1
    have hfirst := @paints_diffRow _ _ _ _ _ _ 0 _ h hlt hprev hcur hline drop_zero.symm
      (fun htail => absurd htail hcur.whole.not_isTail_zero)
      (fun i hi => hi.resolve_left (Nat.not_lt_zero i))
    have hset : t.rows.set painted.length pair.2 = painted ++ [pair.2] ++ pairs.map Prod.fst := by
      rw [hrows, set_append_right _ _ (le_rfl), Nat.sub_self, append_assoc]
      rfl
    rw [hset] at hfirst
    apply Paints.next h hfirst
    intro row' col' wrapPending hnext
    have hrest := ih hnext rfl length_append fun other hother => hpairs other (.tail _ hother)
    have hassoc : painted ++ [pair.2] ++ pairs.map Prod.snd = painted ++ (pair :: pairs).map Prod.snd :=
      append_assoc _ _ _
    rw [hassoc] at hrest
    exact hrest

/-- A new terminal of any size that shows a picture. -/
theorem resting_new {width height : Int} {prev : List Row}
    (h : GridOk data (clampSize maxWidth width) (clampSize maxHeight height) prev) :
    Resting data { Terminal.new width height false with rows := prev } :=
  have hplaced := placed_new width height false
  ⟨(shape_new data width height false).withRows h, rfl, rfl, rfl, hplaced.width, hplaced.height⟩

/-- What `_CallerScreen` keeps of the frame it drew last. -/
structure CallerScreen where
  previous : Option (List Row) := none
  size : Int × Int := (0, 0)

def CallerScreen.frame (screen : CallerScreen) (size : Int × Int) (snapshot : List Row) : PyStr :=
  match screen.previous with
  | some previous => if size = screen.size then diffAnsi previous snapshot else redraw
  | none => redraw
where
  redraw : PyStr := csiText [] (.ofChar 'r') ++ cursorText false ++ fullRenderAnsi snapshot

/-- `_CallerScreen.render` on a terminal that was given its size. -/
def CallerScreen.render (data : UnicodeData) (shown : CallerScreen × Terminal)
    (drawn : (Int × Int) × List Row) : Option (CallerScreen × Terminal) :=
  ((shown.2.resize drawn.1.1 drawn.1.2).feed data (shown.1.frame drawn.1 drawn.2)).map
    (⟨some drawn.2, drawn.1⟩, ·)

def OfSize (size : Int × Int) (t : Terminal) : Prop :=
  t.width = clampSize maxWidth size.1 ∧ t.height = clampSize maxHeight size.2

/-- The terminal shows the frame that was drawn last, and waits. -/
structure Mirrors (data : UnicodeData) (screen : CallerScreen) (t : Terminal) : Prop where
  resting : Resting data t
  shown : ∀ previous, screen.previous = some previous → t.rows = previous ∧ OfSize screen.size t

theorem Resting.resize (h : Resting data t) (width height : Int) :
    Resting data (t.resize width height) ∧ OfSize (width, height) (t.resize width height) := by
  have hshape := shape_resize h.shape width height
  have hplaced := placed_new width height false
  unfold Terminal.resize at hshape ⊢
  dsimp only at hshape ⊢
  split
  · next hsame => exact ⟨h, hsame.1.symm, hsame.2.symm⟩
  · next hother =>
    rw [if_neg hother] at hshape
    exact ⟨⟨hshape, h.ground, h.pen, h.waits, hplaced.width, hplaced.height⟩, rfl, rfl⟩

theorem fed_redraw (h : Resting data t) {rows : List Row} (hrows : GridOk data t.width t.height rows) :
    ∃ s, Fed data t (CallerScreen.frame.redraw rows) s ∧ s.rows = rows ∧ Resting data s ∧
      s.width = t.width ∧ s.height = t.height := by
  have hregion {u : Terminal} (hu : Shape data u) (hground : u.state = .ground) :
      Fed data u (csiText [] (.ofChar 'r')) _ := fed_command hground (by simp) (by simp)
    (by decide) (by decide) (command_region hu)
  have hhidden := (hregion h.shape h.ground).append (fed_cursorText (by exact h.ground) false)
  have hshape := hhidden.shape h.shape
  have hclear := fed_clear hshape h.ground
  have hagain := hregion hshape h.ground
  unfold Fed at hclear hagain
  rw [foldlM_append, hagain] at hclear
  have hcleared := hhidden.append (show Fed data _ clearScreen _ from hclear)
  have hpaintable : Paintable data _ :=
    ⟨hcleared.shape h.shape, h.ground, rfl, h.width, h.height⟩
  obtain ⟨row, col, wrapPending, hpainted⟩ := @paints_renderRows data _ 0 rows [] blankCell hpaintable
    (by
      rw [hrows.length]
      show List.replicate t.height (List.replicate t.width ({ bg := t.pen.bg } : Cell)) = _
      rw [h.pen]
      rfl) rfl (cons_ne_nil _ _) hrows.rows
    (show PenFits t.pen _ from h.pen ▸ penFits_default _) (fun _ _ _ => rfl)
    (fun himmediate => absurd (h.waits.symm.trans himmediate) Bool.false_ne_true)
  have hfed := hcleared.append hpainted
  refine ⟨_, ?_, rfl, ⟨hfed.shape h.shape, h.ground, ?_, h.waits, h.width, h.height⟩, rfl, rfl⟩
  · unfold CallerScreen.frame.redraw fullRenderAnsi
    rw [← append_assoc]
    exact hfed
  · show penAfter t.pen _ = {}
    rw [h.pen]
    exact penAfter_default _

/-- A frame leaves the terminal with the new picture on it. -/
theorem Mirrors.render {screen : CallerScreen} (h : Mirrors data screen t)
    {drawn : (Int × Int) × List Row}
    (hdrawn : GridOk data (clampSize maxWidth drawn.1.1) (clampSize maxHeight drawn.1.2) drawn.2) :
    ∃ s, CallerScreen.render data (screen, t) drawn = some (⟨some drawn.2, drawn.1⟩, s) ∧
      Mirrors data ⟨some drawn.2, drawn.1⟩ s := by
  obtain ⟨size, snapshot⟩ := drawn
  obtain ⟨hresting, hsize⟩ := h.resting.resize size.1 size.2
  have hgrid : GridOk data (t.resize size.1 size.2).width (t.resize size.1 size.2).height snapshot := by
    rw [hsize.1, hsize.2]
    exact hdrawn
  have hframe : ∃ s, Fed data (t.resize size.1 size.2) (screen.frame size snapshot) s ∧
      s.rows = snapshot ∧ Resting data s ∧ s.width = (t.resize size.1 size.2).width ∧
      s.height = (t.resize size.1 size.2).height := by
    unfold CallerScreen.frame
    cases hprevious : screen.previous with
    | none => exact fed_redraw hresting hgrid
    | some previous =>
      dsimp only
      split
      · next hsame =>
        obtain ⟨hrows, hshown⟩ := h.shown previous hprevious
        have hstays : t.resize screen.size.1 screen.size.2 = t := if_pos ⟨hshown.1.symm, hshown.2.symm⟩
        rw [hsame, hstays] at hgrid ⊢
        subst hrows
        have hlength : t.rows.length = snapshot.length :=
          h.resting.shape.grid.length.trans hgrid.length.symm
        have hpaints := @paints_diffRows data t 0 [] (t.rows.zip snapshot) h.resting
          (map_fst_zip (Nat.le_of_eq hlength)).symm rfl fun pair hpair =>
            ⟨h.resting.shape.grid.rows _ (of_mem_zip hpair).1, hgrid.rows _ (of_mem_zip hpair).2⟩
        rw [nil_append, map_snd_zip (Nat.le_of_eq hlength.symm)] at hpaints
        obtain ⟨row, col, wrapPending, hfed⟩ := hpaints
        exact ⟨_, hfed, rfl, ⟨hfed.shape h.resting.shape, h.resting.ground, rfl, h.resting.waits,
          h.resting.width, h.resting.height⟩, rfl, rfl⟩
      · exact fed_redraw hresting hgrid
  obtain ⟨s, hfed, hrows, hrests, hwidth, hheight⟩ := hframe
  refine ⟨s, ?_, hrests, ?_⟩
  · unfold CallerScreen.render
    rw [(feed_eq hresting.shape _).trans hfed]
    rfl
  · rintro previous ⟨⟩
    exact ⟨hrows, hwidth.trans hsize.1, hheight.trans hsize.2⟩

end NetBBS.Rendering
