import NetBBS.Rendering.TerminalEmulator

/-! # The shape of the screen -/

namespace NetBBS.Rendering

open Foundation List Option

variable {data : UnicodeData}

/-- A character that is kept when it is printed. -/
def Drawable (data : UnicodeData) (ch : CodePoint) : Prop :=
  isControl ch = false ∧ (data.isPrintable ch = true ∨ data.combining ch = true)

def IsGlyph (data : UnicodeData) (columns : Nat) (char : PyStr) : Prop :=
  ∃ base marks, char = base :: marks ∧ Drawable data base ∧ charWidth data base = columns ∧
    (∀ mark ∈ marks, Drawable data mark ∧ charWidth data mark = 0) ∧ char.length ≤ maxCellChars

def WidePair (data : UnicodeData) (lead tail : Cell) : Prop :=
  IsGlyph data 2 lead.char ∧ tail = { lead with char := [] }

variable {start columns newWidth : Nat} {α : Type}

theorem IsGlyph.ne_nil {char : PyStr} (h : IsGlyph data columns char) : char ≠ [] := by
  obtain ⟨base, marks, rfl, -⟩ := h
  exact cons_ne_nil base marks

def glyphs (data : UnicodeData) : Glyphs Cell where
  narrow cell := IsGlyph data 1 cell.char
  pair := WidePair data
  tail cell := cell.char.isEmpty
  narrow_tail cell h := isEmpty_eq_false_iff.mpr h.ne_nil
  pair_tail lead tail h := by
    obtain ⟨hlead, rfl⟩ := h
    exact ⟨isEmpty_eq_false_iff.mpr hlead.ne_nil, rfl⟩

theorem charWidth_le (data : UnicodeData) (ch : CodePoint) : charWidth data ch ≤ 2 := by
  unfold charWidth
  split
  · omega
  · split
    · omega
    · split <;> omega

theorem drawable_ascii (data : UnicodeData) {ch : CodePoint} (h : isPrintableAscii ch = true) :
    Drawable data ch ∧ charWidth data ch = 1 := by
  obtain ⟨hlow, hhigh⟩ := of_decide_eq_true h
  obtain ⟨hprintable, hcombining, hformat, hwide⟩ := data.ascii ch hlow hhigh
  refine ⟨⟨?_, .inl hprintable⟩, ?_⟩
  · apply decide_eq_false
    rintro (hcontrol | rfl)
    · exact absurd hlow (Fin.not_le.mpr hcontrol)
    · exact absurd hhigh (by decide)
  · unfold charWidth
    rw [hcombining, hformat, hwide]
    rfl

theorem isGlyph_single {ch : CodePoint} (hdrawable : Drawable data ch)
    (hwidth : charWidth data ch = columns) : IsGlyph data columns [ch] :=
  ⟨ch, [], rfl, hdrawable, hwidth, fun _ hmark => absurd hmark not_mem_nil,
    show 1 ≤ 8 by decide⟩

theorem isGlyph_space (data : UnicodeData) : IsGlyph data 1 [0x20] := by
  obtain ⟨hdrawable, hwidth⟩ := @drawable_ascii data 0x20 (by decide)
  exact isGlyph_single hdrawable hwidth

theorem narrow_blankCell (data : UnicodeData) : (glyphs data).narrow blankCell := isGlyph_space data

theorem narrow_erased (data : UnicodeData) (t : Terminal) : (glyphs data).narrow t.erased :=
  isGlyph_space data

structure RowOk (data : UnicodeData) (width : Nat) (shown : Row) : Prop where
  length : shown.length = width
  whole : (glyphs data).Whole shown

structure GridOk (data : UnicodeData) (width height : Nat) (rows : List Row) : Prop where
  length : rows.length = height
  rows : ∀ shown ∈ rows, RowOk data width shown

/-- What holds of every screen. -/
structure Shape (data : UnicodeData) (t : Terminal) : Prop where
  width_pos : 0 < t.width
  height_pos : 0 < t.height
  grid : GridOk data t.width t.height t.rows
  main : ∀ rows, t.mainRows = some rows → GridOk data t.width t.height rows
  row_lt : t.row < t.height
  col_lt : t.col < t.width
  margins : t.top ≤ t.bottom ∧ t.bottom < t.height
  mainMargins : t.mainMargins.1 ≤ t.mainMargins.2 ∧ t.mainMargins.2 < t.height
  pending : t.wrapPending = true → t.col + 1 = t.width

def Sound (data : UnicodeData) (result : Option Terminal) : Prop :=
  ∃ t, result = some t ∧ Shape data t

theorem Sound.bind {result : Option Terminal} {next : Terminal → Option Terminal}
    (h : Sound data result) (hnext : ∀ t, Shape data t → Sound data (next t)) :
    Sound data (result.bind next) := by
  obtain ⟨t, rfl, ht⟩ := h
  exact hnext t ht

variable {width : Nat} {shown : Row} {cell : Cell} {col : Nat} {change : Row → Option Row}

theorem rowOk_replicate (hcell : (glyphs data).narrow cell) (width : Nat) :
    RowOk data width (List.replicate width cell) :=
  ⟨length_replicate, Glyphs.whole_replicate hcell width⟩

theorem isTail_iff {edge : Nat} {here : Cell} (hhere : shown[edge]? = some here) :
    (glyphs data).IsTail shown edge ↔ here.char = [] := by
  unfold Glyphs.IsTail
  rw [hhere, map_some, Option.some.injEq]
  exact isEmpty_iff

theorem splitEdge_eq (h : RowOk data width shown) (blank : Cell) (edge : Nat) :
    splitEdge width blank edge shown = some ((glyphs data).cut blank edge shown) := by
  unfold splitEdge
  by_cases hedge : 0 < edge ∧ edge < width
  · rw [if_pos hedge]
    have hlt : edge < shown.length := by
      rw [h.length]
      exact hedge.2
    have hhere : shown[edge]? = some shown[edge] := getElem?_eq_getElem hlt
    have hbefore : shown[edge - 1]? = some (shown.get ⟨edge - 1, by omega⟩) :=
      getElem?_eq_getElem (by omega)
    rw [hhere, hbefore]
    simp only [bind_eq_bind, bind_some]
    unfold Glyphs.cut
    by_cases htail : (glyphs data).IsTail shown edge
    · obtain ⟨before, lead, tail, rfl, hlead, -, hpair⟩ := h.whole.isTail htail
      rw [if_pos htail, if_pos]
      refine ⟨(isTail_iff hhere).mp htail, ?_⟩
      obtain rfl := Option.some.inj (hlead.symm.trans hbefore)
      exact hpair.1.ne_nil
    · rw [if_neg htail, if_neg]
      intro hboth
      exact htail ((isTail_iff hhere).mpr hboth.1)
  · rw [if_neg hedge, Glyphs.cut_of_not_isTail]
    rcases Nat.eq_zero_or_pos edge with rfl | hpos
    · exact h.whole.not_isTail_zero
    · apply Glyphs.not_isTail_of_le
      rw [h.length]
      omega

theorem rowOk_cut (h : RowOk data width shown) (t : Terminal) (edge : Nat) :
    RowOk data width ((glyphs data).cut t.erased edge shown) :=
  ⟨Glyphs.length_cut.trans h.length, h.whole.whole_cut (narrow_erased data t) edge⟩

theorem splitWide_eq {t : Terminal} (h : RowOk data t.width shown) (start stop : Nat) :
    t.splitWide start stop shown = some ((glyphs data).split t.erased start stop shown) := by
  unfold Terminal.splitWide
  rw [splitEdge_eq h]
  exact splitEdge_eq (rowOk_cut h t start) t.erased stop

theorem rowOk_replace {t : Terminal} {stop : Nat} {cells : List Cell}
    (h : RowOk data t.width shown) (hle : start ≤ stop) (hstop : stop ≤ t.width)
    (hcells : (glyphs data).Whole cells) (hlength : cells.length = stop - start) :
    RowOk data t.width (((glyphs data).split t.erased start stop shown).take start ++ cells ++
      ((glyphs data).split t.erased start stop shown).drop stop) := by
  obtain ⟨hleft, -, -, hright⟩ :=
    h.whole.split_parts (narrow_erased data t) start stop
  refine ⟨?_, (hleft.append hcells).append hright⟩
  rw [length_append, length_append, length_take, length_drop,
    Glyphs.length_split, h.length, hlength]
  omega

theorem whole_erased (t : Terminal) (count : Nat) :
    (glyphs data).Whole (List.replicate count t.erased) :=
  Glyphs.whole_replicate (narrow_erased data t) count

theorem rowOk_join (h : RowOk data width shown) {mark : CodePoint}
    (hheld : shown[col]? = some cell) (hchar : cell.char ≠ [])
    (hroom : cell.char.length < maxCellChars) (hmark : Drawable data mark) (hzero : charWidth data mark = 0) :
    RowOk data width (shown.set col { cell with char := cell.char ++ [mark] }) := by
  have hjoined : ∀ columns, IsGlyph data columns cell.char →
      IsGlyph data columns (cell.char ++ [mark]) := by
    rintro columns ⟨base, marks, hbase, hdrawable, hwidth, hmarks, -⟩
    refine ⟨base, marks ++ [mark], by rw [hbase, cons_append], hdrawable, hwidth, ?_, ?_⟩
    · intro other hother
      rcases mem_append.mp hother with hother | hother
      · exact hmarks other hother
      · rw [mem_singleton.mp hother]
        exact ⟨hmark, hzero⟩
    · rw [length_append]
      exact hroom
  refine ⟨by rw [length_set, h.length], ?_⟩
  apply h.whole.set hheld
  · exact isEmpty_eq_false_iff.mpr hchar
  · exact hjoined 1
  · rintro tail ⟨hlead, rfl⟩
    exact ⟨hjoined 2 hlead, rfl⟩

theorem rowOk_reshape (h : RowOk data width shown) (hpos : 0 < newWidth) :
    RowOk data newWidth (reshapeRow newWidth shown) := by
  have hreshaped : reshapeRow newWidth shown =
      ((glyphs data).cut blankCell newWidth shown).take newWidth ++
        List.replicate (newWidth - shown.length) blankCell := by
    unfold reshapeRow
    simp only
    by_cases htail : (glyphs data).IsTail shown newWidth
    · obtain ⟨before, lead, tail, rfl, hlead, hheld, hpair⟩ := h.whole.isTail htail
      have hlength : before + 1 < shown.length := (List.getElem?_eq_some_iff.mp hheld).1
      have htaken : shown.take (before + 1) = shown.take before ++ [lead] := by
        rw [List.take_add_one, hlead]
        rfl
      have hbefore : (shown.take before).length = before := by
        rw [length_take]
        omega
      have hcut : ((glyphs data).cut blankCell (before + 1) shown).take (before + 1) =
          shown.take before ++ [blankCell] := by
        unfold Glyphs.cut
        rw [if_pos htail, Nat.add_sub_cancel, take_set, take_set, htaken,
          set_append_right _ _ (Nat.le_of_eq hbefore), hbefore, Nat.sub_self, set_cons_zero]
        apply set_eq_of_length_le
        rw [length_append, hbefore]
        exact Nat.le_refl _
      have hedge : shown[before + 1]?.map (fun cell => decide (cell.char = [])) = some true := by
        rw [hheld, map_some, decide_eq_true ((isTail_iff hheld).mp htail)]
      have hlast : ((shown.take before ++ [lead]).getLast?).map
          (fun cell => decide (cell.char = [])) = some false := by
        rw [getLast?_concat, map_some, decide_eq_false hpair.1.ne_nil]
      rw [Nat.sub_eq_zero_of_le (by omega), replicate_zero, append_nil, append_nil,
        htaken, if_pos ⟨hedge, hlast⟩, dropLast_concat, hcut]
    · rw [Glyphs.cut_of_not_isTail htail, if_neg]
      rintro ⟨hheld, -⟩
      apply htail
      unfold Glyphs.IsTail
      rw [← hheld]
      congr 1
      funext cell
      show cell.char.isEmpty = _
      rw [Bool.eq_iff_iff, List.isEmpty_iff, decide_eq_true_iff]
  obtain ⟨hleft, -⟩ := (h.whole.whole_cut (narrow_blankCell data) newWidth).parts newWidth
    (h.whole.not_isTail_cut (narrow_blankCell data))
  rw [hreshaped]
  refine ⟨?_, hleft.append (Glyphs.whole_replicate (narrow_blankCell data) _)⟩
  rw [length_append, length_take, Glyphs.length_cut, length_replicate]
  omega

variable {t : Terminal} {rows : List Row} {height : Nat}

theorem GridOk.update (h : GridOk data width height rows) {changed : List Row}
    (hlength : changed.length = rows.length)
    (hrows : ∀ shown ∈ changed, shown ∈ rows ∨ RowOk data width shown) :
    GridOk data width height changed := by
  refine ⟨hlength.trans h.length, ?_⟩
  intro shown hline
  rcases hrows shown hline with hold | hnew
  · exact h.rows shown hold
  · exact hnew

theorem gridOk_replicate {shown : Row} (hline : RowOk data width shown) (height : Nat) :
    GridOk data width height (List.replicate height shown) := by
  refine ⟨length_replicate, ?_⟩
  intro other hother
  rw [eq_of_mem_replicate hother]
  exact hline

theorem gridOk_reshape (h : GridOk data width height rows) {newHeight : Nat}
    (hpos : 0 < newWidth) : GridOk data newWidth newHeight (reshape newWidth newHeight rows) := by
  unfold reshape
  constructor
  · rw [length_append, length_map, length_take, length_replicate]
    omega
  · intro shown hline
    rcases mem_append.mp hline with hkept | hnew
    · obtain ⟨old, hold, rfl⟩ := mem_map.mp hkept
      exact rowOk_reshape (h.rows old (mem_of_mem_take hold)) hpos
    · rw [eq_of_mem_replicate hnew]
      exact rowOk_replicate (narrow_blankCell data) newWidth

section

variable (h : Shape data t)

include h

theorem Shape.withRows {rows : List Row}
    (hrows : GridOk data t.width t.height rows) : Shape data { t with rows } :=
  ⟨h.width_pos, h.height_pos, hrows, h.main, h.row_lt, h.col_lt, h.margins, h.mainMargins, h.pending⟩

theorem Shape.cursor {row : Nat} {wrapPending : Bool}
    (hrow : row < t.height) (hcol : col < t.width) (hpending : wrapPending = true → col + 1 = t.width) :
    Shape data { t with row, col, wrapPending } :=
  ⟨h.width_pos, h.height_pos, h.grid, h.main, hrow, hcol, h.margins, h.mainMargins, hpending⟩

theorem Shape.keep (pen : Pen) (cursorVisible : Bool)
    (saved mainSaved : Option SavedCursor) (state : ParserState) (wrapsImmediately : Bool) :
    Shape data { t with pen, cursorVisible, saved, mainSaved, state, wrapsImmediately } :=
  ⟨h.width_pos, h.height_pos, h.grid, h.main, h.row_lt, h.col_lt, h.margins, h.mainMargins, h.pending⟩

theorem Shape.withPen (pen : Pen) : Shape data { t with pen } :=
  h.keep pen t.cursorVisible t.saved t.mainSaved t.state t.wrapsImmediately

theorem Shape.withState (state : ParserState) : Shape data { t with state } :=
  h.keep t.pen t.cursorVisible t.saved t.mainSaved state t.wrapsImmediately

theorem Shape.col_zero : Shape data { t with col := 0, wrapPending := false } :=
  h.cursor h.row_lt h.width_pos nofun

end

def Terminal.mapRow (t : Terminal) (change : Row → Row) : Terminal :=
  { t with rows := t.rows.modify t.row change }

theorem modify_congr {items : List α} {i : Nat} {f g : α → α}
    (h : ∀ item, items[i]? = some item → f item = g item) : items.modify i f = items.modify i g := by
  apply ext_getElem?
  intro j
  rw [getElem?_modify, getElem?_modify]
  by_cases hij : i = j
  · subst hij
    cases hheld : items[i]? with
    | none => rfl
    | some item => simp [h item hheld]
  · simp only [if_neg hij]

section

variable (h : Shape data t)

include h

theorem Shape.heldRow : ∃ shown, t.rows[t.row]? = some shown ∧ RowOk data t.width shown := by
  have hlt : t.row < t.rows.length := by
    rw [h.grid.length]
    exact h.row_lt
  exact ⟨t.rows[t.row], getElem?_eq_getElem hlt, h.grid.rows _ (getElem_mem hlt)⟩

theorem Shape.mapRow {change : Row → Row}
    (hchange : ∀ shown, RowOk data t.width shown → RowOk data t.width (change shown)) :
    Shape data (t.mapRow change) := by
  apply h.withRows
  refine ⟨(length_modify _ _ _).trans h.grid.length, ?_⟩
  intro shown hline
  obtain ⟨i, hi⟩ := getElem?_of_mem hline
  rw [getElem?_modify] at hi
  cases hheld : t.rows[i]? with
  | none =>
    rw [hheld] at hi
    cases hi
  | some old =>
    rw [hheld] at hi
    obtain rfl := Option.some.inj hi
    have hold := h.grid.rows old (mem_of_getElem? hheld)
    split
    · exact hchange old hold
    · exact hold

theorem onRow_eq {changed : Row → Row}
    (hchange : ∀ shown, RowOk data t.width shown → change shown = some (changed shown)) :
    t.onRow change = some (t.mapRow changed) := by
  obtain ⟨shown, hheld, hline⟩ := h.heldRow
  unfold Terminal.onRow Terminal.mapRow
  rw [hheld]
  simp only [bind_eq_bind, bind_some, hchange shown hline]
  rw [modify_eq_set_getElem? , hheld]
  rfl

theorem onRow_sound (hchange : ∀ shown, RowOk data t.width shown →
      ∃ changed, change shown = some changed ∧ RowOk data t.width changed) :
    Sound data (t.onRow change) := by
  obtain ⟨shown, hheld, hline⟩ := h.heldRow
  obtain ⟨changed, hchanged, hok⟩ := hchange shown hline
  refine ⟨{ t with rows := t.rows.set t.row changed }, ?_, h.withRows ?_⟩
  · unfold Terminal.onRow
    rw [hheld]
    simp [hchanged]
  · apply h.grid.update length_set
    intro other hother
    rcases mem_or_eq_of_mem_set hother with hold | rfl
    · exact .inl hold
    · exact .inr hok

end

theorem rowOk_erased (t : Terminal) : RowOk data t.width (List.replicate t.width t.erased) :=
  rowOk_replicate (narrow_erased data t) t.width

theorem mem_scrolled {rows : List α} {blank shown : α} {first last count cut : Nat}
    (h : shown ∈ (rows.take first ++ rows.drop last).take cut ++ List.replicate count blank ++
      (rows.take first ++ rows.drop last).drop cut) : shown ∈ rows ∨ shown = blank := by
  have hregion : shown ∈ rows.take first ++ rows.drop last → shown ∈ rows := by
    intro hkept
    rcases mem_append.mp hkept with hold | hold
    · exact mem_of_mem_take hold
    · exact mem_of_mem_drop hold
  rcases mem_append.mp h with hupper | hlower
  · rcases mem_append.mp hupper with hkept | hblank
    · exact .inl (hregion (mem_of_mem_take hkept))
    · exact .inr (eq_of_mem_replicate hblank)
  · exact .inl (hregion (mem_of_mem_drop hlower))

theorem shape_scrollUp (h : Shape data t) (count top : Nat) : Shape data (t.scrollUp count top) := by
  have hheight := h.grid.length
  have hmargins := h.margins
  unfold Terminal.scrollUp
  simp only
  split
  · exact h
  · apply h.withRows
    apply h.grid.update
    · simp only [length_append, length_take, length_drop, length_replicate]
      omega
    · intro shown hline
      rcases mem_scrolled hline with hkept | rfl
      · exact .inl hkept
      · exact .inr (rowOk_erased t)

theorem shape_scrollDown (h : Shape data t) (count top : Nat) :
    Shape data (t.scrollDown count top) := by
  have hheight := h.grid.length
  have hmargins := h.margins
  unfold Terminal.scrollDown
  simp only
  split
  · exact h
  · apply h.withRows
    apply h.grid.update
    · simp only [length_append, length_take, length_drop, length_replicate]
      omega
    · intro shown hline
      rcases mem_scrolled hline with hkept | rfl
      · exact .inl hkept
      · exact .inr (rowOk_erased t)

theorem Shape.cleared (h : Shape data t) : Shape data { t with wrapPending := false } :=
  h.cursor h.row_lt h.col_lt nofun

theorem shape_linefeed (h : Shape data { t with wrapPending := false }) :
    Shape data t.linefeed := by
  unfold Terminal.linefeed
  simp only
  split
  · exact shape_scrollUp h 1 t.top
  · split
    · rename_i hroom
      exact h.cursor hroom h.col_lt nofun
    · exact h

section

variable (h : Shape data t)

include h

theorem shape_wrapNow : Shape data t.wrapNow := by
  unfold Terminal.wrapNow
  split
  · exact (shape_linefeed (t := { t with col := 0 }) h.col_zero).cleared
  · exact h

theorem shape_reverseIndex : Shape data t.reverseIndex := by
  have hcleared := h.cleared
  have hrow := h.row_lt
  unfold Terminal.reverseIndex
  simp only
  split
  · exact shape_scrollDown hcleared 1 t.top
  · split
    · exact h.cursor (by omega) h.col_lt nofun
    · exact hcleared

theorem shape_restoreCursor : Shape data t.restoreCursor := by
  have hwidth := h.width_pos
  have hheight := h.height_pos
  have hmoved : ∀ {row col : Nat}, row < t.height → col < t.width →
      Shape data { t with row, col, wrapPending := false } :=
    fun hrow hcol => h.cursor hrow hcol nofun
  unfold Terminal.restoreCursor
  cases t.saved with
  | none =>
    exact (hmoved hheight hwidth).keep t.pen t.cursorVisible none t.mainSaved t.state
      t.wrapsImmediately
  | some saved =>
    have hrow : min saved.row (t.height - 1) < t.height := by omega
    have hcol : min saved.col (t.width - 1) < t.width := by omega
    exact (hmoved hrow hcol).keep saved.pen t.cursorVisible (some saved) t.mainSaved t.state
      t.wrapsImmediately

theorem shape_moveTo (row col : Int) : Shape data (t.moveTo row col) := by
  have hwidth := h.width_pos
  have hheight := h.height_pos
  unfold Terminal.moveTo
  exact h.cursor (by omega) (by omega) nofun

theorem shape_reset : Shape data t.reset := by
  have hheight := h.height_pos
  refine ⟨h.width_pos, h.height_pos,
    gridOk_replicate (rowOk_replicate (narrow_blankCell data) t.width) t.height, ?_, hheight,
    h.width_pos, ?_, ?_, nofun⟩
  · intro rows hrows
    cases hrows
  · exact ⟨Nat.zero_le _, Nat.sub_lt hheight Nat.one_pos⟩
  · exact ⟨Nat.zero_le _, Nat.sub_lt hheight Nat.one_pos⟩

theorem shape_saveCursor : Shape data t.saveCursor :=
  h.keep t.pen t.cursorVisible _ t.mainSaved t.state t.wrapsImmediately

theorem shape_setMargins (top bottom : Nat) : Shape data (t.setMargins top bottom) := by
  have hheight := h.height_pos
  unfold Terminal.setMargins
  apply shape_moveTo
  split
  · rename_i hinside
    exact ⟨h.width_pos, h.height_pos, h.grid, h.main, h.row_lt, h.col_lt,
      ⟨Nat.le_of_lt hinside.1, hinside.2⟩, h.mainMargins, h.pending⟩
  · exact ⟨h.width_pos, h.height_pos, h.grid, h.main, h.row_lt, h.col_lt,
      ⟨Nat.zero_le _, Nat.sub_lt hheight Nat.one_pos⟩, h.mainMargins, h.pending⟩

theorem shape_alternateScreen (enter saveCursor : Bool) :
    Shape data (t.alternateScreen enter saveCursor) := by
  have hheight := h.height_pos
  unfold Terminal.alternateScreen
  cases hmain : t.mainRows with
  | none =>
    simp only
    split
    · refine ⟨h.width_pos, h.height_pos,
        gridOk_replicate (rowOk_replicate (narrow_blankCell data) t.width) t.height, ?_, h.row_lt,
        h.col_lt, ⟨Nat.zero_le _, Nat.sub_lt hheight Nat.one_pos⟩, h.margins, nofun⟩
      intro rows hrows
      obtain rfl := Option.some.inj hrows
      exact h.grid
    · exact h
  | some rows =>
    simp only
    split
    · exact h
    · have hleft : Shape data { t with
          rows, mainRows := none, saved := t.mainSaved, mainSaved := none
          top := t.mainMargins.1, bottom := t.mainMargins.2 } := by
        refine ⟨h.width_pos, h.height_pos, h.main rows hmain, ?_, h.row_lt, h.col_lt,
          h.mainMargins, h.mainMargins, h.pending⟩
        intro other hother
        cases hother
      split
      · exact shape_restoreCursor hleft
      · exact hleft

theorem shape_privateMode (params : List Nat) (final : CodePoint) :
    Shape data (t.privateMode params final) := by
  unfold Terminal.privateMode
  simp only
  split
  · have hshown : Shape data
        (if 25 ∈ params then { t with cursorVisible := decide (final = .ofChar 'h') } else t) := by
      split
      · exact h.keep t.pen _ t.saved t.mainSaved t.state t.wrapsImmediately
      · exact h
    split
    · exact shape_alternateScreen hshown _ _
    · exact hshown
  · exact h

theorem shape_control (ch : CodePoint) : Shape data (t.control ch) := by
  have hwidth := h.width_pos
  have hcol := h.col_lt
  unfold Terminal.control
  split
  · exact h.col_zero
  · split
    · exact shape_linefeed h.cleared
    · split
      · exact h.cursor h.row_lt (by omega) nofun
      · split
        · exact h.cursor h.row_lt (by omega) nofun
        · exact h

theorem shape_escape (ch : CodePoint) : Shape data (t.escape ch) := by
  have hground := h.withState .ground
  unfold Terminal.escape
  simp only
  split
  · exact h.withState _
  split
  · exact h.withState _
  split
  · exact h.withState _
  split
  · exact shape_saveCursor hground
  split
  · exact shape_restoreCursor hground
  split
  · exact shape_linefeed hground.cleared
  split
  · exact shape_linefeed hground.col_zero
  split
  · exact shape_reverseIndex hground
  split
  · exact shape_reset hground
  · exact hground

end

theorem shape_lastColumnWritten (h : Shape data { t with col := 0, wrapPending := false }) :
    Shape data t.lastColumnWritten := by
  unfold Terminal.lastColumnWritten
  split
  · exact (shape_linefeed (t := { t with col := 0 }) h).cleared
  · have hwidth : 0 < t.width := h.width_pos
    exact h.cursor h.row_lt (Nat.sub_lt hwidth Nat.one_pos) (fun _ => Nat.sub_add_cancel hwidth)

theorem shape_advance (h : Shape data { t with col := 0, wrapPending := false })
    (hpending : t.wrapPending = false) :
    Shape data (if t.width ≤ t.col then t.lastColumnWritten else t) := by
  split
  · exact shape_lastColumnWritten h
  · rename_i hroom
    have hcol : Shape data { t with col := t.col, wrapPending := false } :=
      h.cursor h.row_lt (Nat.not_le.mp hroom) nofun
    rw [← hpending] at hcol
    exact hcol

theorem setCell_eq {shown : Row} (h : col < shown.length) :
    setCell shown col cell = some (shown.set col cell) := if_pos h

theorem set_pair {shown : Row} (lead tail : Cell) (h : col + 1 < shown.length) :
    (shown.set col lead).set (col + 1) tail = shown.take col ++ [lead, tail] ++ shown.drop (col + 2) := by
  induction shown generalizing col with
  | nil => cases h
  | cons first rest ih =>
    cases col with
    | zero =>
      cases rest with
      | nil => exact absurd h (Nat.lt_irrefl 1)
      | cons second rest => rfl
    | succ col => exact congrArg (first :: ·) (ih (Nat.lt_of_succ_lt_succ h))

variable {ch : CodePoint} {cells : Row}

theorem sound_joinMark (h : Shape data t) (hdrawable : Drawable data ch)
    (hzero : charWidth data ch = 0) : Sound data (t.joinMark ch) := by
  have hcolumn := h.col_lt
  unfold Terminal.joinMark
  split
  · exact ⟨t, rfl, h⟩
  · simp only
    apply onRow_sound h
    intro shown hline
    have hlength := hline.length
    generalize hcol : (if t.wrapPending = true then t.col else t.col - 1) = col
    have hlt : col < t.width := by
      rw [← hcol]
      split <;> omega
    have hhere : shown[col]? = some (shown.get ⟨col, by omega⟩) := getElem?_eq_getElem (by omega)
    rw [hhere]
    simp only [bind_eq_bind, bind_some]
    generalize hback : (if 0 < col ∧ (shown.get ⟨col, by omega⟩).char = [] then col - 1 else col) =
      back
    have hbackLt : back < t.width := by
      rw [← hback]
      split <;> omega
    have hcell : shown[back]? = some (shown.get ⟨back, by omega⟩) :=
      getElem?_eq_getElem (by omega)
    rw [if_pos hbackLt, hcell]
    simp only [bind_some]
    split
    · rename_i hboth
      exact ⟨_, rfl, rowOk_join hline hcell hboth.1 hboth.2 hdrawable hzero⟩
    · exact ⟨shown, rfl, hline⟩

def glyphCells (cell : Cell) (width : Nat) : Row :=
  if width = 2 then [cell, { cell with char := [] }] else [cell]

theorem length_glyphCells (cell : Cell) {width : Nat} (hpos : 0 < width) (hle : width ≤ 2) :
    (glyphCells cell width).length = width := by
  unfold glyphCells
  by_cases htwo : width = 2
  · rw [if_pos htwo, htwo]
    rfl
  · rw [if_neg htwo]
    show 1 = width
    omega

def Terminal.overwrite (t : Terminal) (data : UnicodeData) (cells : Row) : Terminal :=
  t.mapRow fun shown => (glyphs data).overwrite t.erased shown t.col cells

def Terminal.put (t : Terminal) (data : UnicodeData) (cells : Row) : Terminal :=
  let moved := { t.overwrite data cells with col := t.col + cells.length }
  if moved.width ≤ moved.col then moved.lastColumnWritten else moved

theorem put_inside (hroom : t.col + cells.length < t.width) :
    t.put data cells = { t.overwrite data cells with col := t.col + cells.length } := by
  unfold Terminal.put
  simp only
  apply if_neg
  show ¬t.width ≤ t.col + cells.length
  omega

theorem rowOk_overwrite {shown : Row} (h : RowOk data t.width shown)
    (hcells : (glyphs data).Whole cells) (hroom : start + cells.length ≤ t.width) :
    RowOk data t.width ((glyphs data).overwrite t.erased shown start cells) :=
  ⟨(Glyphs.length_overwrite (h.length ▸ hroom)).trans h.length,
    h.whole.overwrite (narrow_erased data t) hcells⟩

theorem shape_overwrite (h : Shape data t) (hcells : (glyphs data).Whole cells)
    (hroom : t.col + cells.length ≤ t.width) : Shape data (t.overwrite data cells) :=
  h.mapRow fun _ hline => rowOk_overwrite hline hcells hroom

theorem shape_put (h : Shape data t) (hpending : t.wrapPending = false)
    (hcells : (glyphs data).Whole cells) (hroom : t.col + cells.length ≤ t.width) :
    Shape data (t.put data cells) := by
  have hwritten := shape_overwrite h hcells hroom
  exact shape_advance (t := { t.overwrite data cells with col := t.col + cells.length })
    (hwritten.cursor hwritten.row_lt hwritten.width_pos nofun) hpending

theorem putGlyph_eq (h : Shape data t) (ch : CodePoint) {width : Nat} (hpos : 0 < width)
    (hwidth : width ≤ 2) (hroom : t.col + width ≤ t.width) :
    t.putGlyph ch width = some (t.put data (glyphCells (penCell t.pen ch) width)) := by
  have hchange : ∀ shown, RowOk data t.width shown →
      (do
        let shown ← t.splitWide t.col (t.col + width) shown
        let shown ← setCell shown t.col (penCell t.pen ch)
        if width = 2 then setCell shown (t.col + 1) { penCell t.pen ch with char := [] }
        else some shown) =
      some ((glyphs data).overwrite t.erased shown t.col (glyphCells (penCell t.pen ch) width)) := by
    intro shown hline
    rw [splitWide_eq hline]
    simp only [bind_eq_bind, bind_some]
    have hlength : ((glyphs data).split t.erased t.col (t.col + width) shown).length = t.width := by
      rw [Glyphs.length_split, hline.length]
    rw [setCell_eq (by omega)]
    simp only [bind_some]
    unfold glyphCells Glyphs.overwrite
    by_cases htwo : width = 2
    · subst htwo
      rw [if_pos rfl, if_pos rfl, setCell_eq (by rw [length_set]; omega),
        set_pair _ _ (by omega)]
      rfl
    · obtain rfl : width = 1 := by omega
      rw [if_neg htwo, if_neg htwo, set_eq_take_append_cons_drop, if_pos (by omega),
        append_assoc]
      rfl
  have hlength := length_glyphCells (penCell t.pen ch) hpos hwidth
  unfold Terminal.putGlyph
  simp only
  rw [onRow_eq h hchange]
  unfold Terminal.put
  rw [hlength]
  rfl

theorem putSlice_eq (h : Shape data t) (slice : PyStr) :
    t.putSlice slice = some (t.put data (slice.map (penCell t.pen))) := by
  have hchange : ∀ shown, RowOk data t.width shown →
      (do
        let shown ← t.splitWide t.col (t.col + slice.length) shown
        some (shown.take t.col ++ slice.map (penCell t.pen) ++ shown.drop (t.col + slice.length))) =
      some ((glyphs data).overwrite t.erased shown t.col (slice.map (penCell t.pen))) := by
    intro shown hline
    rw [splitWide_eq hline]
    unfold Glyphs.overwrite
    rw [length_map]
    rfl
  unfold Terminal.putSlice
  rw [onRow_eq h hchange]
  unfold Terminal.put
  rw [length_map]
  rfl

theorem whole_glyphCells (pen : Pen) (hdrawable : Drawable data ch) (hnonzero : charWidth data ch ≠ 0) :
    (glyphs data).Whole (glyphCells (penCell pen ch) (charWidth data ch)) := by
  have hle := charWidth_le data ch
  unfold glyphCells
  by_cases htwo : charWidth data ch = 2
  · rw [if_pos htwo]
    exact .double ⟨isGlyph_single hdrawable htwo, rfl⟩ .nil
  · rw [if_neg htwo]
    exact .single (isGlyph_single hdrawable (by omega)) .nil

def Terminal.blankEdge (t : Terminal) (data : UnicodeData) : Terminal :=
  { t.overwrite data [t.erased] with col := 0 }.linefeed

theorem wrapPending_linefeed (t : Terminal) : t.linefeed.wrapPending = false := by
  unfold Terminal.linefeed Terminal.scrollUp
  simp only
  split
  · split <;> rfl
  · split <;> rfl

theorem wrapPending_wrapNow (t : Terminal) : t.wrapNow.wrapPending = false := by
  unfold Terminal.wrapNow
  split
  · rfl
  · rename_i hpending
    exact Bool.eq_false_iff.mpr hpending

theorem onRow_blankEdge (h : Shape data t) : t.onRow (fun shown => do
      let shown ← t.splitWide t.col (t.col + 1) shown
      setCell shown t.col t.erased) = some (t.overwrite data [t.erased]) := by
  apply onRow_eq h
  intro shown hline
  have hcol := h.col_lt
  have hlength : ((glyphs data).split t.erased t.col (t.col + 1) shown).length = t.width := by
    rw [Glyphs.length_split, hline.length]
  rw [splitWide_eq hline]
  simp only [bind_eq_bind, bind_some]
  unfold Glyphs.overwrite
  rw [setCell_eq (by omega), set_eq_take_append_cons_drop, if_pos (by omega),
    append_assoc]
  rfl

theorem shape_blankEdge (h : Shape data t) : Shape data (t.blankEdge data) := by
  have hwritten := shape_overwrite h (.single (narrow_erased data t) .nil) h.col_lt
  exact shape_linefeed (t := { t.overwrite data [t.erased] with col := 0 }) hwritten.col_zero

theorem size_scrollUp (t : Terminal) (count top : Nat) :
    (t.scrollUp count top).width = t.width ∧ (t.scrollUp count top).col = t.col ∧
      (t.scrollUp count top).pen = t.pen := by
  unfold Terminal.scrollUp
  simp only
  split <;> exact ⟨rfl, rfl, rfl⟩

theorem linefeed_keeps (t : Terminal) :
    t.linefeed.width = t.width ∧ t.linefeed.col = t.col ∧ t.linefeed.pen = t.pen := by
  unfold Terminal.linefeed
  simp only
  split
  · exact size_scrollUp _ 1 t.top
  · split <;> exact ⟨rfl, rfl, rfl⟩

theorem blankEdge_keeps (t : Terminal) :
    (t.blankEdge data).width = t.width ∧ (t.blankEdge data).col = 0 ∧
      (t.blankEdge data).pen = t.pen :=
  linefeed_keeps { t.overwrite data [t.erased] with col := 0 }

theorem print_eq (h : Shape data t) (hdrawable : Drawable data ch) : t.print data ch =
      if charWidth data ch = 0 then t.joinMark ch
      else if charWidth data ch = 2 ∧ t.wrapNow.col + 1 = t.wrapNow.width then
        if t.wrapNow.width < 2 then some t.wrapNow
        else some ((t.wrapNow.blankEdge data).put data
          (glyphCells (penCell (t.wrapNow.blankEdge data).pen ch) 2))
      else some (t.wrapNow.put data
        (glyphCells (penCell t.wrapNow.pen ch) (charWidth data ch))) := by
  have hwrapped := shape_wrapNow h
  have hcol := hwrapped.col_lt
  have hle := charWidth_le data ch
  unfold Terminal.print
  rw [if_neg (by
    rintro ⟨hprintable, hcombining⟩
    rcases hdrawable.2 with hyes | hyes
    · rw [hprintable] at hyes
      cases hyes
    · rw [hcombining] at hyes
      cases hyes)]
  simp only
  by_cases hzero : charWidth data ch = 0
  · rw [if_pos hzero, if_pos hzero]
  · rw [if_neg hzero, if_neg hzero]
    by_cases hedge : charWidth data ch = 2 ∧ t.wrapNow.col + 1 = t.wrapNow.width
    · rw [if_pos hedge, if_pos hedge]
      by_cases hnarrow : t.wrapNow.width < 2
      · rw [if_pos hnarrow, if_pos hnarrow]
      · obtain ⟨hwidth, hzeroCol, -⟩ := @blankEdge_keeps data t.wrapNow
        rw [if_neg hnarrow, if_neg hnarrow, onRow_blankEdge hwrapped, hedge.1]
        exact putGlyph_eq (shape_blankEdge hwrapped) ch (by decide) (by decide) (by omega)
    · rw [if_neg hedge, if_neg hedge]
      exact putGlyph_eq hwrapped ch (Nat.pos_of_ne_zero hzero) hle (by omega)

theorem print_dropped (hcontrol : isControl ch = false)
    (h : ¬Drawable data ch) : t.print data ch = some t := by
  unfold Terminal.print
  apply if_pos
  constructor
  · by_contra hprintable
    exact h ⟨hcontrol, .inl (by simpa using hprintable)⟩
  · by_contra hcombining
    exact h ⟨hcontrol, .inr (by simpa using hcombining)⟩

theorem sound_print (h : Shape data t) (hcontrol : isControl ch = false) :
    Sound data (t.print data ch) := by
  by_cases hdrawable : Drawable data ch
  · have hwrapped := shape_wrapNow h
    have hcol := hwrapped.col_lt
    have hle := charWidth_le data ch
    rw [print_eq h hdrawable]
    by_cases hzero : charWidth data ch = 0
    · rw [if_pos hzero]
      exact sound_joinMark h hdrawable hzero
    · have hlength : ∀ pen, (glyphCells (penCell pen ch) (charWidth data ch)).length =
          charWidth data ch :=
        fun pen => length_glyphCells (penCell pen ch) (Nat.pos_of_ne_zero hzero) hle
      rw [if_neg hzero]
      by_cases hedge : charWidth data ch = 2 ∧ t.wrapNow.col + 1 = t.wrapNow.width
      · rw [if_pos hedge]
        split
        · exact ⟨_, rfl, hwrapped⟩
        · obtain ⟨hwidth, hzeroCol, -⟩ := @blankEdge_keeps data t.wrapNow
          rw [← hedge.1]
          refine ⟨_, rfl, shape_put (shape_blankEdge hwrapped) (wrapPending_linefeed _)
            (whole_glyphCells _ hdrawable hzero) ?_⟩
          rw [hlength]
          omega
      · rw [if_neg hedge]
        refine ⟨_, rfl, shape_put hwrapped (wrapPending_wrapNow t) (whole_glyphCells _ hdrawable hzero) ?_⟩
        rw [hlength]
        omega
  · rw [print_dropped hcontrol hdrawable]
    exact ⟨t, rfl, h⟩

end NetBBS.Rendering
