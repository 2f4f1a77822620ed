import NetBBS.Rendering.Repaint

/-! # A screen is restored -/

namespace NetBBS.Rendering

open Foundation List Option

variable {data : UnicodeData} {t : Terminal}

theorem fed_lastGlyph (h : Shape data t) (hstate : t.state = .ground) (hpending : t.wrapPending = false)
    (hwaits : t.wrapsImmediately = false) {run line : Row} (hline : t.rows[t.row]? = some line)
    (hrun : (glyphs data).Whole run) (hsome : run ≠ []) (hsplit : line.take t.col ++ run = line)
    (hstart : ¬(glyphs data).IsTail line t.col) {style : Pen}
    (hstyle : ∀ cell ∈ run, cell.toPen = style) (hpen : mergePen t.pen style = style) :
    Fed data t (colored (run.flatMap Cell.char) style)
      { t with col := t.width - 1, wrapPending := true, pen := {} } := by
  have hcol := h.col_lt
  have hlength := h.length_line hline
  have hedge : t.col + run.length = t.width := by
    have hparts := congrArg List.length hsplit
    rw [length_append, length_take] at hparts
    omega
  have hcolored := fed_colored hrun h hstate hpending hsome (Nat.le_of_eq hedge)
    (fun himmediate => by rw [hwaits] at himmediate; cases himmediate) hstyle hpen
  have hrows := @rows_overwrite data { t with pen := style } run line hline hstart
    (Glyphs.not_isTail_of_le (by show line.length ≤ t.col + run.length; omega))
  have hdrop : line.drop (t.col + run.length) = [] := drop_eq_nil_of_le (by omega)
  simp only [hdrop, append_nil, hsplit, set_held hline] at hrows
  have hput := @put_edge data { t with pen := style } run hedge hwaits
  rw [hrows] at hput
  rw [hput] at hcolored
  exact hcolored

def Terminal.reprinted (t : Terminal) : Option Cell :=
  if t.wrapPending = true then do
    let shown ← t.rows[t.row]?
    let last ← shown[t.col]?
    if last.char = [] then shown[t.col - 1]? else some last
  else none

variable {e : Terminal} {α : Type}

theorem fed_reprintText (he : Shape data e) (h : Shape data t)
    (hstate : t.state = .ground) (hpending : t.wrapPending = false) (hrows : t.rows = e.rows)
    (hrow : t.row = e.row) (hcol : t.col = e.col) (hwidth : t.width = e.width)
    (hwidthBound : t.width ≤ maxWidth) (hheightBound : t.height ≤ maxHeight)
    (hwaits : e.wrapPending = true → t.wrapsImmediately = false)
    (hpen : ∀ cell, e.reprinted = some cell → mergePen t.pen cell.toPen = cell.toPen) :
    ∃ text pen, e.reprintText = some text ∧
      Fed data t text { t with pen, wrapPending := e.wrapPending } := by
  cases hwrap : e.wrapPending with
  | false =>
    refine ⟨[], t.pen, ?_, ?_⟩
    · unfold Terminal.reprintText
      rw [hwrap]
      rfl
    · rw [← hpending]
      exact fed_nil data t
  | true =>
    have hedge := he.pending hwrap
    obtain ⟨shown, hheld, hok⟩ := he.heldRow
    have hlength := hok.length
    have hheldHere : t.rows[t.row]? = some shown := by
      rw [hrows, hrow]
      exact hheld
    obtain ⟨last, hlast⟩ : ∃ last, shown[e.col]? = some last :=
      ⟨_, getElem?_eq_getElem (by omega)⟩
    have hsplitLast : shown.take e.col ++ [last] = shown := by
      have hdrop : shown.drop e.col = [last] := by
        obtain ⟨hlt, hget⟩ := List.getElem?_eq_some_iff.mp hlast
        rw [List.drop_eq_getElem_cons hlt, hget, List.drop_eq_nil_of_le (by omega)]
      rw [← hdrop, List.take_append_drop]
    by_cases htail : last.char = []
    · obtain ⟨before, lead, hbefore, hheldLead, hpair⟩ :=
        hok.whole.lead hlast (isEmpty_iff.mpr htail)
      obtain ⟨hglyph, rfl⟩ := hpair
      have hleadEdge : e.col - 1 = before := by omega
      have hsplitLead : shown.take before ++ [lead, { lead with char := [] }] = shown := by
        have htake : shown.take e.col = shown.take before ++ [lead] := by
          rw [hbefore, take_add_one, hheldLead]
          rfl
        rw [htake, append_assoc] at hsplitLast
        exact hsplitLast
      have htext : e.reprintText = some (moveCursor (e.row + 1) (before + 1) ++
          colored lead.char lead.toPen) := by
        unfold Terminal.reprintText
        rw [if_pos hwrap, hheld]
        simp only [bind_eq_bind, bind_some, hlast]
        rw [if_pos ⟨by omega, trivial⟩, hleadEdge, hheldLead, bind_some, if_pos hglyph.ne_nil]
      have hreprinted : e.reprinted = some lead := by
        unfold Terminal.reprinted
        rw [if_pos hwrap, hheld]
        simp only [bind_eq_bind, bind_some, hlast]
        rw [if_pos trivial, hleadEdge, hheldLead]
      have hheight : t.height ≤ 200 := hheightBound
      have hwidthAll : t.width ≤ 500 := hwidthBound
      have hrowLt := h.row_lt
      have hmoved : Fed data t (moveCursor (e.row + 1) (before + 1))
          { t with row := e.row, col := before, wrapPending := false } :=
        fed_moveCursor hstate (by omega) (by omega) (by omega) (by omega)
      have hfed := @fed_lastGlyph data { t with row := e.row, col := before, wrapPending := false }
        (hmoved.shape h) hstate rfl (hwaits hwrap) [lead, { lead with char := [] }] shown
        (by rw [← hrow]; exact hheldHere) (.double ⟨hglyph, rfl⟩ .nil) (cons_ne_nil _ _)
        hsplitLead (by
          unfold Glyphs.IsTail
          rw [hheldLead]
          intro hempty
          exact hglyph.ne_nil (isEmpty_iff.mp (Option.some.inj hempty))) lead.toPen (by
          intro cell hcell
          simp only [mem_cons, not_mem_nil, or_false] at hcell
          rcases hcell with rfl | rfl <;> rfl) (hpen lead hreprinted)
      have hboth := hmoved.append hfed
      have hback : t.width - 1 = t.col := by omega
      simp only [flatMap_cons, flatMap_nil, append_nil, hback, ← hrow] at hboth
      exact ⟨_, _, hrow ▸ htext, hboth⟩
    · have hnarrow : (glyphs data).narrow last := by
        by_contra hwide
        obtain ⟨tail, hnext, -⟩ := hok.whole.follows hlast hwide
          (List.isEmpty_eq_false_iff.mpr htail)
        have hbeyond := (List.getElem?_eq_some_iff.mp hnext).1
        omega
      have htext : e.reprintText = some (colored last.char last.toPen) := by
        unfold Terminal.reprintText
        rw [if_pos hwrap, hheld]
        simp only [bind_eq_bind, bind_some, hlast]
        rw [if_neg (fun hboth => htail hboth.2), if_pos htail]
      have hreprinted : e.reprinted = some last := by
        unfold Terminal.reprinted
        rw [if_pos hwrap, hheld]
        simp only [bind_eq_bind, bind_some, hlast]
        exact if_neg htail
      have hfed := fed_lastGlyph h hstate hpending (hwaits hwrap) hheldHere (.single hnarrow .nil)
        (cons_ne_nil _ _) (by rw [hcol]; exact hsplitLast) (by
          unfold Glyphs.IsTail
          rw [hcol, hlast]
          intro hempty
          exact htail (isEmpty_iff.mp (Option.some.inj hempty)))
        (fun cell hcell => by rw [mem_singleton.mp hcell]) (hpen last hreprinted)
      have hback : t.width - 1 = t.col := by omega
      rw [flatMap_singleton, hback] at hfed
      exact ⟨_, _, htext, hfed⟩

structure Covers (style pen : Pen) : Prop where
  fg : style.fg = none → pen.fg = none
  bg : style.bg = none → pen.bg = none
  bold : style.bold = false → pen.bold = false
  underline : style.underline = false → pen.underline = false
  reverse : style.reverse = false → pen.reverse = false

theorem Covers.mergePen {style pen : Pen} (h : Covers style pen) : mergePen pen style = style := by
  have hcolor : ∀ {named held : Option Color}, (named = none → held = none) →
      named.or held = named := by
    intro named held hnone
    cases named with
    | none => exact hnone rfl
    | some color => rfl
  have hflag : ∀ {on held : Bool}, (on = false → held = false) → (on || held) = on := by
    intro on held hoff
    cases on with
    | false => exact hoff rfl
    | true => rfl
  unfold NetBBS.Rendering.mergePen
  rw [hcolor h.fg, hcolor h.bg, hflag h.bold, hflag h.underline, hflag h.reverse]

structure SameScreen (s e : Terminal) : Prop where
  rows : s.rows = e.rows
  row : s.row = e.row
  col : s.col = e.col
  pen : s.pen = e.pen
  top : s.top = e.top
  bottom : s.bottom = e.bottom
  cursorVisible : s.cursorVisible = e.cursorVisible
  wrapPending : s.wrapPending = e.wrapPending

def Restores (data : UnicodeData) (e t : Terminal) : Prop :=
  ∃ text s, e.restoreAnsi = some text ∧ t.feed data text = some s ∧ SameScreen s e

structure Restorable (e t : Terminal) : Prop where
  pen : ∀ cell, (firstInked e.rows.flatten).or e.reprinted = some cell → Covers cell.toPen t.pen
  background : ∀ shown ∈ e.rows, blankCell ∈ shown → t.pen.bg = none
  waits : e.wrapsImmediately = true → e.wrapPending = false
  edge : e.wrapsImmediately = true → ∀ shown ∈ e.rows, PlainEnd shown
  corner : e.wrapsImmediately = true → ∀ shown cell, e.rows.getLast? = some shown →
    shown.getLast? = some cell → cell = blankCell

/-- The scroll region is a part of the screen of two rows or more, or all of it. -/
def MarginsSet (height top bottom : Nat) : Prop := top < bottom ∨ (top = 0 ∧ bottom = height - 1)

structure Placed (t : Terminal) : Prop where
  width : t.width ≤ maxWidth
  height : t.height ≤ maxHeight
  margins : MarginsSet t.height t.top t.bottom
  mainMargins : MarginsSet t.height t.mainMargins.1 t.mainMargins.2

theorem fed_regionText {e : Terminal} (he : Shape data e) (hplaced : Placed e)
    (hstate : t.state = .ground) (hheight : t.height = e.height) (htop : t.top = 0)
    (hbottom : t.bottom = t.height - 1) :
    ∃ text row col wrapPending, e.regionText = some text ∧
      Fed data t text { t with top := e.top, bottom := e.bottom, row, col, wrapPending } := by
  have hbound : e.height ≤ 200 := hplaced.height
  have hmargins := he.margins
  unfold Terminal.regionText
  by_cases hfull : (e.top, e.bottom) = (0, e.height - 1)
  · obtain ⟨hzero, hlast⟩ := Prod.mk.inj hfull
    refine ⟨[], t.row, t.col, t.wrapPending, if_neg (fun hnot => hnot hfull), ?_⟩
    rw [hzero, hlast, ← hheight, ← hbottom, ← htop]
    exact fed_nil data t
  · have hlt : e.top < e.bottom := by
      rcases hplaced.margins with hlt | ⟨hzero, hlast⟩
      · exact hlt
      · rw [hzero, hlast] at hfull
        exact absurd rfl hfull
    refine ⟨_, 0, 0, false, (if_pos hfull).trans (if_neg (by omega)), ?_⟩
    exact fed_region hstate hlt (by omega) (by omega)

theorem restores_of_restorable (he : Shape data e) (hplaced : Placed e)
    (ht : Shape data t) (hstate : t.state = .ground) (hwidth : t.width = e.width)
    (hheight : t.height = e.height) (hwraps : t.wrapsImmediately = e.wrapsImmediately)
    (h : Restorable e t) : Restores data e t := by
  have hwidthBound : t.width ≤ maxWidth := hwidth ▸ hplaced.width
  have hheightBound : t.height ≤ maxHeight := hheight ▸ hplaced.height
  have hwidthAll : t.width ≤ 500 := hwidthBound
  have hheightAll : t.height ≤ 200 := hheightBound
  have hrow := he.row_lt
  have hcol := he.col_lt
  have hclear := fed_clear ht hstate
  have hblanked : Paintable data t.blanked :=
    ⟨hclear.shape ht, hstate, rfl, hwidthBound, hheightBound⟩
  have hpen : PenFits t.pen e.rows.flatten := by
    intro cell hcell
    exact (h.pen cell (by rw [hcell]; rfl)).mergePen
  have hwaits : e.wrapPending = true → t.wrapsImmediately = false := by
    intro hwrap
    apply Bool.eq_false_iff.mpr
    intro himmediate
    rw [h.waits (hwraps ▸ himmediate)] at hwrap
    cases hwrap
  have hpenAgain : ∀ cell, e.reprinted = some cell →
      mergePen (penAfter t.pen e.rows.flatten) cell.toPen = cell.toPen := by
    intro cell hcell
    unfold penAfter
    split
    · exact default_mergePen _
    · rename_i hnone
      apply (h.pen cell _).mergePen
      rw [not_isSome_iff_eq_none.mp hnone]
      exact hcell
  -- The grid.
  obtain ⟨row, col, wrapPending, hpainted⟩ := @paints_renderRows data t.blanked 0 e.rows [] t.erased
    hblanked (by rw [he.grid.length, ← hheight]; rfl) rfl (cons_ne_nil _ _)
    (by rw [show t.blanked.width = e.width from hwidth]; exact he.grid.rows) hpen (by
      intro shown hshown hblank
      unfold Terminal.erased
      rw [h.background shown hshown hblank]
      rfl) (fun himmediate => by
      have hsame : e.wrapsImmediately = true := hwraps ▸ himmediate
      exact ⟨h.edge hsame, h.corner hsame⟩)
  -- The scroll region and the cursor.
  obtain ⟨region, row', col', wrapPending', hregion, hfedRegion⟩ := @fed_regionText data
    { t.blanked with
      rows := [] ++ e.rows, pen := penAfter t.blanked.pen e.rows.flatten, row, col, wrapPending }
    e he hplaced hstate hheight rfl rfl
  have hbefore := (hclear.append hpainted).append hfedRegion
  have hrowLt : e.row < t.height := by omega
  have hcolLt : e.col < t.width := by omega
  have hmoved := hbefore.append (fed_moveCursor (by exact hstate) (by exact hrowLt) (by exact hcolLt)
    (by omega) (by omega))
  -- The pending wrap.
  obtain ⟨reprinted, pen, hreprinted, hfedReprinted⟩ := fed_reprintText he (hmoved.shape ht) hstate rfl
    (nil_append e.rows) rfl rfl hwidth hwidthBound hheightBound hwaits hpenAgain
  have hall := ((hmoved.append hfedReprinted).append (fed_penSgr (by exact hstate) e.pen)).append
    (fed_cursorText (by exact hstate) e.cursorVisible)
  refine ⟨_, _, ?_, (feed_eq ht _).trans hall, ⟨rfl, rfl, rfl, rfl, rfl, rfl, rfl, rfl⟩⟩
  unfold Terminal.restoreAnsi fullRenderAnsi
  rw [hregion, hreprinted, ← append_assoc]
  rfl

/-- What only a resize, a reset, the scroll region and the alternate screen change. -/
def Terminal.frame (t : Terminal) : Nat × Nat × Nat × Nat × Nat × Nat :=
  (t.width, t.height, t.top, t.bottom, t.mainMargins)

def KeepsFrame (t : Terminal) (result : Option Terminal) : Prop :=
  ∀ s, result = some s → s.frame = t.frame

variable {s : Terminal} {result : Option Terminal}

theorem keeps_some (h : s.frame = t.frame) : KeepsFrame t (some s) := by
  intro u hu
  obtain rfl := Option.some.inj hu
  exact h

theorem keeps_bind {result : Option α} {next : α → Option Terminal}
    (hnext : ∀ a, result = some a → KeepsFrame t (next a)) : KeepsFrame t (result.bind next) := by
  intro s hs
  obtain ⟨a, ha, hsome⟩ := bind_eq_some_iff.mp hs
  exact hnext a ha s hsome

theorem keeps_ite {c : Prop} [Decidable c] {yes no : Option Terminal} (hyes : KeepsFrame t yes)
    (hno : KeepsFrame t no) : KeepsFrame t (if c then yes else no) := by
  split
  · exact hyes
  · exact hno

theorem keeps_onRow (t : Terminal) (change : Row → Option Row) : KeepsFrame t (t.onRow change) := by
  apply keeps_bind
  intro shown _
  apply keeps_bind
  intro changed _
  exact keeps_some rfl

theorem frame_scrollUp (t : Terminal) (count top : Nat) : (t.scrollUp count top).frame = t.frame := by
  unfold Terminal.scrollUp
  simp only
  split <;> rfl

theorem frame_scrollDown (t : Terminal) (count top : Nat) :
    (t.scrollDown count top).frame = t.frame := by
  unfold Terminal.scrollDown
  simp only
  split <;> rfl

theorem frame_moveTo (t : Terminal) (row col : Int) : (t.moveTo row col).frame = t.frame := rfl

theorem frame_linefeed (t : Terminal) : t.linefeed.frame = t.frame := by
  unfold Terminal.linefeed
  simp only
  split
  · exact frame_scrollUp _ 1 t.top
  · split <;> rfl

theorem frame_reverseIndex (t : Terminal) : t.reverseIndex.frame = t.frame := by
  unfold Terminal.reverseIndex
  simp only
  split
  · exact frame_scrollDown _ 1 t.top
  · split <;> rfl

theorem frame_restoreCursor (t : Terminal) : t.restoreCursor.frame = t.frame := by
  unfold Terminal.restoreCursor
  split <;> rfl

theorem frame_lastColumnWritten (t : Terminal) : t.lastColumnWritten.frame = t.frame := by
  unfold Terminal.lastColumnWritten
  split
  · exact frame_linefeed { t with col := 0 }
  · rfl

theorem frame_wrapNow (t : Terminal) : t.wrapNow.frame = t.frame := by
  unfold Terminal.wrapNow
  split
  · exact frame_linefeed { t with col := 0 }
  · rfl

theorem keeps_joinMark (t : Terminal) (ch : CodePoint) : KeepsFrame t (t.joinMark ch) := by
  unfold Terminal.joinMark
  exact keeps_ite (keeps_some rfl) (keeps_onRow t _)

theorem keeps_putGlyph (t : Terminal) (ch : CodePoint) (width : Nat) :
    KeepsFrame t (t.putGlyph ch width) := by
  unfold Terminal.putGlyph
  apply keeps_bind
  intro written hwritten
  have hframe := keeps_onRow t _ written hwritten
  apply keeps_some
  split
  · exact (frame_lastColumnWritten _).trans hframe
  · exact hframe

theorem KeepsFrame.trans (h : KeepsFrame s result)
    (hs : s.frame = t.frame) : KeepsFrame t result :=
  fun u hu => (h u hu).trans hs

theorem keeps_print (data : UnicodeData) (t : Terminal) (ch : CodePoint) :
    KeepsFrame t (t.print data ch) := by
  unfold Terminal.print
  have hwrapped := frame_wrapNow t
  apply keeps_ite (keeps_some rfl)
  simp only
  apply keeps_ite (keeps_joinMark t ch)
  apply keeps_ite
  · apply keeps_ite (keeps_some hwrapped)
    apply keeps_bind
    intro edge hedge
    have hframe := keeps_onRow t.wrapNow _ edge hedge
    exact (keeps_putGlyph _ ch _).trans
      ((frame_linefeed { edge with col := 0 }).trans (hframe.trans hwrapped))
  · exact (keeps_putGlyph _ ch _).trans hwrapped

theorem keeps_eraseRows (t : Terminal) (start stop : Nat) : KeepsFrame t (eraseRows t start stop) := by
  unfold eraseRows
  exact keeps_ite (keeps_some rfl) (keeps_ite (keeps_some rfl) (fun s hs => by cases hs))

theorem keeps_eraseLine (t : Terminal) (mode : Nat) : KeepsFrame t (t.eraseLine mode) := by
  unfold Terminal.eraseLine
  apply keeps_ite (keeps_some rfl)
  apply keeps_bind
  intro erased herased
  exact keeps_some (keeps_onRow t _ erased herased)

theorem keeps_eraseDisplay (t : Terminal) (mode : Nat) : KeepsFrame t (t.eraseDisplay mode) := by
  have hline : ∀ (mode : Nat) (next : Terminal → Option Terminal), (∀ s, KeepsFrame s (next s)) →
      KeepsFrame t ((t.eraseLine mode).bind next) := by
    intro mode next hnext
    apply keeps_bind
    intro erased herased
    exact (hnext erased).trans (keeps_eraseLine t mode erased herased)
  unfold Terminal.eraseDisplay
  intro s hs
  obtain ⟨erased, herased, rfl⟩ := map_eq_some_iff.mp hs
  refine (?_ : KeepsFrame t _) erased herased
  apply keeps_ite (hline 0 _ fun erased => keeps_eraseRows erased _ _)
  apply keeps_ite (hline 1 _ fun erased => keeps_eraseRows erased _ _)
  exact keeps_ite (keeps_some rfl) (keeps_some rfl)

theorem Placed.of_frame (h : Placed t) (hs : s.frame = t.frame) : Placed s := by
  obtain ⟨hwidth, hrest⟩ := Prod.mk.inj hs
  obtain ⟨hheight, hrest⟩ := Prod.mk.inj hrest
  obtain ⟨htop, hrest⟩ := Prod.mk.inj hrest
  obtain ⟨hbottom, hmain⟩ := Prod.mk.inj hrest
  refine ⟨hwidth ▸ h.width, hheight ▸ h.height, ?_, ?_⟩
  · rw [hheight, htop, hbottom]
    exact h.margins
  · rw [hheight, hmain]
    exact h.mainMargins

def StaysPlaced (result : Option Terminal) : Prop := ∀ s, result = some s → Placed s

theorem KeepsFrame.placed (h : KeepsFrame t result) (ht : Placed t) : StaysPlaced result :=
  fun s hs => ht.of_frame (h s hs)

theorem placed_some (h : Placed s) : StaysPlaced (some s) := by
  intro u hu
  obtain rfl := Option.some.inj hu
  exact h

section

variable (h : Placed t)

include h

theorem placed_setMargins (top bottom : Nat) : Placed (t.setMargins top bottom) := by
  unfold Terminal.setMargins
  simp only
  split
  · rename_i hinside
    exact ⟨h.width, h.height, .inl hinside.1, h.mainMargins⟩
  · exact ⟨h.width, h.height, .inr ⟨rfl, rfl⟩, h.mainMargins⟩

theorem placed_alternateScreen (enter saveCursor : Bool) :
    Placed (t.alternateScreen enter saveCursor) := by
  unfold Terminal.alternateScreen
  split
  · split
    · exact ⟨h.width, h.height, .inr ⟨rfl, rfl⟩, h.margins⟩
    · exact h
  · split
    · exact h
    · rename_i rows _ _
      have hleft : Placed { t with
          rows, mainRows := none, saved := t.mainSaved, mainSaved := none,
          top := t.mainMargins.1, bottom := t.mainMargins.2 } :=
        ⟨h.width, h.height, h.mainMargins, h.mainMargins⟩
      simp only
      split
      · exact hleft.of_frame (frame_restoreCursor _)
      · exact hleft

theorem placed_privateMode (params : List Nat) (final : CodePoint) :
    Placed (t.privateMode params final) := by
  have hshown : Placed
      (if 25 ∈ params then { t with cursorVisible := decide (final = .ofChar 'h') } else t) := by
    split
    · exact h.of_frame rfl
    · exact h
  unfold Terminal.privateMode
  simp only
  split
  · split
    · exact placed_alternateScreen hshown _ _
    · exact hshown
  · exact h

theorem placed_command (params : List Nat) (final : CodePoint) :
    StaysPlaced (t.command params final) := by
  by_cases hregion : final = .ofChar 'r'
  · subst hregion
    exact placed_some (placed_setMargins h _ _)
  · apply KeepsFrame.placed _ h
    unfold Terminal.command
    iterate 9 apply keeps_ite (keeps_some rfl)
    apply keeps_ite (keeps_eraseDisplay t _)
    apply keeps_ite (keeps_eraseLine t _)
    apply keeps_ite (keeps_ite (keeps_some ((frame_moveTo _ _ _).trans (frame_scrollDown t _ _)))
      (keeps_some rfl))
    apply keeps_ite (keeps_ite (keeps_some ((frame_moveTo _ _ _).trans (frame_scrollUp t _ _)))
      (keeps_some rfl))
    iterate 3 apply keeps_ite (keeps_onRow t _)
    apply keeps_ite (keeps_some (frame_scrollUp t _ _))
    apply keeps_ite (keeps_some (frame_scrollDown t _ _))
    rw [if_neg hregion]
    apply keeps_ite (keeps_some rfl)
    exact keeps_ite (keeps_some (frame_restoreCursor t)) (keeps_some rfl)

theorem placed_csi (sequence : PyStr) (final : CodePoint) :
    StaysPlaced (t.csi sequence final) := by
  unfold Terminal.csi
  simp only
  generalize (if isPrivate sequence = true then sequence.tail else sequence) = body
  split
  · exact placed_some h
  split
  · split
    · exact placed_some h
    · exact placed_some (h.of_frame rfl)
  split
  · exact placed_some (h.of_frame rfl)
  split
  · exact placed_some (placed_privateMode h _ _)
  · exact placed_command h _ _

end

theorem frame_control (t : Terminal) (ch : CodePoint) : (t.control ch).frame = t.frame := by
  unfold Terminal.control
  split
  · rfl
  split
  · exact frame_linefeed t
  split
  · rfl
  split <;> rfl

theorem placed_escape (h : Placed t) (ch : CodePoint) : Placed (t.escape ch) := by
  unfold Terminal.escape
  simp only
  split
  · exact h.of_frame rfl
  split
  · exact h.of_frame rfl
  split
  · exact h.of_frame rfl
  split
  · exact h.of_frame rfl
  split
  · exact h.of_frame (frame_restoreCursor { t with state := .ground })
  split
  · exact h.of_frame (frame_linefeed { t with state := .ground })
  split
  · exact h.of_frame (frame_linefeed { t with state := .ground, col := 0 })
  split
  · exact h.of_frame (frame_reverseIndex { t with state := .ground })
  split
  · exact ⟨h.width, h.height, .inr ⟨rfl, rfl⟩, .inr ⟨rfl, rfl⟩⟩
  · exact h.of_frame rfl

theorem placed_feedChar (data : UnicodeData) (h : Placed t) (ch : CodePoint) :
    StaysPlaced (t.feedChar data ch) := by
  have hframed : ∀ {s : Terminal}, s.frame = t.frame → StaysPlaced (some s) :=
    fun hs => placed_some (h.of_frame hs)
  unfold Terminal.feedChar
  split
  · split
    · exact hframed rfl
    split
    · exact hframed (frame_control t ch)
    · exact (keeps_print data t ch).placed h
  · exact placed_some (placed_escape h ch)
  · have hground : Placed { t with state := .ground } := h.of_frame rfl
    split
    · exact placed_csi hground _ _
    split
    · exact hframed rfl
    · exact hframed rfl
  · apply hframed
    split <;> rfl
  · split
    · exact hframed rfl
    split
    · exact hframed rfl
    · exact hframed rfl
  · exact hframed rfl
  · split
    · exact hframed rfl
    split
    · exact hframed rfl
    · exact hframed rfl

theorem placed_foldlM {step : Terminal → α → Option Terminal} {items : List α}
    (hstep : ∀ {s : Terminal}, Placed s → ∀ a, StaysPlaced (step s a)) (h : Placed t) :
    StaysPlaced (items.foldlM step t) := by
  induction items generalizing t with
  | nil => exact placed_some h
  | cons a rest ih =>
    intro s hs
    rw [foldlM_cons] at hs
    obtain ⟨next, hnext, hrest⟩ := bind_eq_some_iff.mp hs
    exact ih (hstep h a next hnext) s hrest

theorem clampSize_le {limit : Nat} (hlimit : 0 < limit) (size : Int) : clampSize limit size ≤ limit := by
  unfold clampSize
  omega

theorem placed_new (width height : Int) (wrapsImmediately : Bool) :
    Placed (Terminal.new width height wrapsImmediately) :=
  ⟨clampSize_le (by decide) width, clampSize_le (by decide) height, .inr ⟨rfl, rfl⟩,
    .inr ⟨rfl, rfl⟩⟩

theorem placed_resize (h : Placed t) (width height : Int) : Placed (t.resize width height) := by
  unfold Terminal.resize
  simp only
  split
  · exact h
  · exact ⟨clampSize_le (by decide) width, clampSize_le (by decide) height, .inr ⟨rfl, rfl⟩,
      .inr ⟨rfl, rfl⟩⟩

theorem reached_spec {width height : Int} {wrapsImmediately : Bool} {ops : List ScreenOp}
    (hrun : screenRun data width height wrapsImmediately ops = some t) : Shape data t ∧ Placed t := by
  have hstep : ∀ {s u : Terminal} {op : ScreenOp}, Shape data s ∧ Placed s →
      screenStep data s op = some u → Shape data u ∧ Placed u := by
    rintro s u op ⟨hshape, hplaced⟩ hu
    obtain ⟨next, hnext, hsound⟩ := sound_screenStep hshape op
    obtain rfl := Option.some.inj (hnext.symm.trans hu)
    refine ⟨hsound, ?_⟩
    cases op with
    | feed text =>
      have hfed : s.feed data text = some next := hu
      rw [feed_eq hshape] at hfed
      exact placed_foldlM (fun h ch => placed_feedChar data h ch) hplaced next hfed
    | resize width height =>
      obtain rfl := Option.some.inj hu
      exact placed_resize hplaced width height
    | setWraps immediately =>
      obtain rfl := Option.some.inj hu
      exact hplaced.of_frame rfl
  have hops : ∀ {s : Terminal}, Shape data s ∧ Placed s →
      ops.foldlM (screenStep data) s = some t → Shape data t ∧ Placed t := by
    clear hrun
    induction ops with
    | nil =>
      intro s hs hdone
      obtain rfl := Option.some.inj hdone
      exact hs
    | cons op rest ih =>
      intro s hs hrest
      rw [foldlM_cons] at hrest
      obtain ⟨next, hnext, hmore⟩ := bind_eq_some_iff.mp hrest
      exact ih (hstep hs hnext) hmore
  exact hops ⟨shape_new data width height wrapsImmediately, placed_new width height wrapsImmediately⟩
    hrun

/-- What `restore_ansi` returns for any screen that was reached, fed to any terminal of its size that was
reached and waits for a character, restores it wherever the one is restorable on the other. -/
theorem restoreAnsi_restores {width height width' height' : Int} {immediately immediately' : Bool}
    {ops ops' : List ScreenOp} {e t : Terminal} (he : screenRun data width height immediately ops = some e)
    (ht : screenRun data width' height' immediately' ops' = some t) (hground : t.state = .ground)
    (hwidth : t.width = e.width) (hheight : t.height = e.height)
    (hwraps : t.wrapsImmediately = e.wrapsImmediately) (h : Restorable e t) : Restores data e t := by
  obtain ⟨hshape, hplaced⟩ := reached_spec he
  obtain ⟨hshape', -⟩ := reached_spec ht
  exact restores_of_restorable hshape hplaced hshape' hground hwidth hheight hwraps h

def asciiData : UnicodeData where
  isPrintable := isPrintableAscii
  combining _ := false
  controlOrFormat _ := false
  eastAsianWide _ := false
  ascii _ hlow hhigh := ⟨decide_eq_true ⟨hlow, hhigh⟩, rfl, rfl, rfl⟩

def letterScreen : Terminal :=
  { Terminal.new 2 1 false with rows := [[penCell {} 0x41, blankCell]], col := 1 }

def boldScreen : Terminal := { Terminal.new 2 1 false with pen := { bold := true } }

theorem letterScreen_reached :
    screenRun asciiData 2 1 false [.feed [0x41]] = some letterScreen := by
  have hfed := feed_eq (shape_new asciiData 2 1 false) [0x41]
  show (Terminal.new 2 1 false).feed asciiData [0x41] >>= some = _
  rw [hfed]
  rfl

theorem boldScreen_reached :
    screenRun asciiData 2 1 false [.feed (sgrText [1])] = some boldScreen := by
  have hfed := feed_eq (shape_new asciiData 2 1 false) (sgrText [1])
  show (Terminal.new 2 1 false).feed asciiData (sgrText [1]) >>= some = _
  rw [hfed]
  rfl

theorem letterScreen_restored : Restores asciiData letterScreen (Terminal.new 2 1 false) := by
  apply restoreAnsi_restores letterScreen_reached (rfl : screenRun asciiData 2 1 false [] = some _) rfl
    rfl rfl rfl
  have hwaits : letterScreen.wrapsImmediately ≠ true := by decide
  refine ⟨?_, fun _ _ _ => rfl, fun h => absurd h hwaits, fun h => absurd h hwaits,
    fun h => absurd h hwaits⟩
  intro cell _
  exact ⟨fun _ => rfl, fun _ => rfl, fun _ => rfl, fun _ => rfl, fun _ => rfl⟩

theorem restoreAnsi_letterScreen :
    letterScreen.restoreAnsi = some (csiText [] (.ofChar 'r') ++ (clearScreen ++ (moveCursor 1 1 ++
      [0x41])) ++ moveCursor 1 2 ++ penSgr {} ++ cursorText true) := by
  have hrow : renderRow 0 0 [penCell {} 0x41, blankCell] = moveCursor 1 1 ++ [0x41] := by
    rw [renderRow, if_neg (by decide)]
    show moveCursor 1 1 ++ [0x41] ++ renderRow 0 1 [blankCell] = _
    rw [renderRow, if_pos rfl, renderRow, append_nil]
  have hrows : renderRows 0 letterScreen.rows = moveCursor 1 1 ++ [0x41] := by
    show renderRow 0 0 [penCell {} 0x41, blankCell] ++ [] = _
    rw [hrow, append_nil]
  unfold Terminal.restoreAnsi fullRenderAnsi
  rw [hrows]
  rfl

/-- The letter comes out bold on the terminal whose pen is. -/
theorem boldScreen_unrestored : ∃ e t, screenRun asciiData 2 1 false [.feed [0x41]] = some e ∧
      screenRun asciiData 2 1 false [.feed (sgrText [1])] = some t ∧ e.mainRows = none ∧
      t.mainRows = none ∧ t.state = .ground ∧ t.width = e.width ∧ t.height = e.height ∧
      t.wrapsImmediately = e.wrapsImmediately ∧ ¬Restores asciiData e t := by
  refine ⟨letterScreen, boldScreen, letterScreen_reached, boldScreen_reached, rfl, rfl, rfl, rfl, rfl, rfl,
    ?_⟩
  rintro ⟨text, s, htext, hfed, hsame⟩
  obtain rfl := Option.some.inj (restoreAnsi_letterScreen.symm.trans htext)
  have hbold : Shape asciiData boldScreen := (reached_spec boldScreen_reached).1
  rw [feed_eq hbold] at hfed
  have hshown := congrArg (Option.map Terminal.rows) hfed
  rw [map_some, hsame.rows] at hshown
  exact absurd hshown (by decide)

end NetBBS.Rendering
