import Mathlib.Data.List.TakeWhile
import NetBBS.Rendering.ScreenShape

/-! # What is fed to the screen -/

namespace NetBBS.Rendering

open Foundation List Option

variable {data : UnicodeData} {t : Terminal}
variable {left right : Row} {ch final : CodePoint} {run sequence : PyStr}

theorem overwrite_overwrite (h : Shape data t) (hleft : (glyphs data).Whole left)
    (hleftSome : 0 < left.length) (hrightSome : 0 < right.length)
    (hroom : t.col + left.length + right.length ≤ t.width) :
    { t.overwrite data left with col := t.col + left.length }.overwrite data right =
      { t.overwrite data (left ++ right) with col := t.col + left.length } := by
  have hrows : (t.rows.modify t.row fun shown =>
        (glyphs data).overwrite t.erased shown t.col left).modify t.row (fun shown =>
          (glyphs data).overwrite t.erased shown (t.col + left.length) right) =
      t.rows.modify t.row fun shown => (glyphs data).overwrite t.erased shown t.col (left ++ right) := by
    rw [modify_modify_eq]
    apply modify_congr
    intro shown hline
    have hok := h.grid.rows shown (mem_of_getElem? hline)
    exact hok.whole.overwrite_overwrite (narrow_erased data t) hleft hleftSome hrightSome
      (hok.length ▸ hroom)
  exact congrArg (fun rows => { t with rows, col := t.col + left.length }) hrows

theorem put_put (h : Shape data t) (hleft : (glyphs data).Whole left)
    (hleftSome : 0 < left.length) (hrightSome : 0 < right.length)
    (hroom : t.col + left.length + right.length ≤ t.width) :
    (t.put data left).put data right = t.put data (left ++ right) := by
  rw [@put_inside data t left (by omega)]
  unfold Terminal.put
  simp only
  rw [overwrite_overwrite h hleft hleftSome hrightSome hroom, length_append, Nat.add_assoc]

theorem whole_slice {slice : PyStr} (pen : Pen) (h : ∀ ch ∈ slice, isPrintableAscii ch = true) :
    (glyphs data).Whole (slice.map (penCell pen)) := by
  apply Glyphs.whole_of_narrow
  intro cell hcell
  obtain ⟨ch, hch, rfl⟩ := mem_map.mp hcell
  obtain ⟨hdrawable, hwidth⟩ := drawable_ascii data (h ch hch)
  exact isGlyph_single hdrawable hwidth

theorem print_ascii (h : Shape data t) (hch : isPrintableAscii ch = true) :
    t.print data ch = some (t.wrapNow.put data [penCell t.wrapNow.pen ch]) := by
  obtain ⟨hdrawable, hwidth⟩ := drawable_ascii data hch
  rw [print_eq h hdrawable, hwidth, if_neg (by decide), if_neg (fun hboth => by cases hboth.1)]
  rfl

theorem wrapNow_of_not_pending (h : t.wrapPending = false) : t.wrapNow = t := by
  unfold Terminal.wrapNow
  rw [h]
  rfl

section

variable (h : Shape data t)

include h

theorem foldlM_print_slice (hpending : t.wrapPending = false) (ch : CodePoint)
    (slice : PyStr) (hslice : ∀ c ∈ ch :: slice, isPrintableAscii c = true)
    (hroom : t.col + (slice.length + 1) ≤ t.width) :
    (ch :: slice).foldlM (Terminal.print data) t =
      some (t.put data ((ch :: slice).map (penCell t.pen))) := by
  induction slice generalizing t ch with
  | nil =>
    rw [foldlM_cons, print_ascii h (hslice ch (.head _)), wrapNow_of_not_pending hpending]
    rfl
  | cons next rest ih =>
    have hfirst := hslice ch (.head _)
    have hwhole : (glyphs data).Whole [penCell t.pen ch] := by
      obtain ⟨hdrawable, hwidth⟩ := drawable_ascii data hfirst
      exact .single (isGlyph_single hdrawable hwidth) .nil
    have hroom' : t.col + (rest.length + 1 + 1) ≤ t.width := hroom
    have hput : t.put data [penCell t.pen ch] =
        { t.overwrite data [penCell t.pen ch] with col := t.col + 1 } :=
      put_inside (by show t.col + 1 < t.width; omega)
    rw [foldlM_cons, print_ascii h hfirst, wrapNow_of_not_pending hpending]
    show (next :: rest).foldlM (Terminal.print data) (t.put data [penCell t.pen ch]) = _
    rw [ih (shape_put h hpending hwhole (by show t.col + 1 ≤ t.width; omega))
      (by rw [hput]; exact hpending) next (fun c hc => hslice c (mem_cons_of_mem ch hc))
      (by rw [hput]; show t.col + 1 + (rest.length + 1) ≤ t.width; omega)]
    have hpen : (t.put data [penCell t.pen ch]).pen = t.pen := by
      rw [hput]
      rfl
    have hrest : ((next :: rest).map (penCell t.pen)).length = rest.length + 1 := by
      rw [length_map, length_cons]
    rw [hpen, put_put h hwhole Nat.one_pos (by omega)
      (by rw [hrest]; show t.col + 1 + (rest.length + 1) ≤ t.width; omega)]
    rfl

theorem foldlM_print_wrapNow (ch : CodePoint) (slice : PyStr) (hch : isPrintableAscii ch = true) :
    (ch :: slice).foldlM (Terminal.print data) t =
      (ch :: slice).foldlM (Terminal.print data) t.wrapNow := by
  rw [foldlM_cons, foldlM_cons, print_ascii h hch, print_ascii (shape_wrapNow h) hch,
    wrapNow_of_not_pending (wrapPending_wrapNow t)]

/-- `_print_ascii` is `_print` of each character. -/
theorem printAscii_eq (hrun : ∀ ch ∈ run, isPrintableAscii ch = true) :
    t.printAscii run = run.foldlM (Terminal.print data) t := by
  induction hlength : run.length using Nat.strongRecOn generalizing t run with
  | ind length ih =>
    cases run with
    | nil =>
      rw [Terminal.printAscii, if_pos rfl]
      rfl
    | cons ch rest =>
      have hwrapped := shape_wrapNow h
      have hcol := hwrapped.col_lt
      rw [Terminal.printAscii, if_neg (cons_ne_nil ch rest)]
      simp only
      generalize hcount : min (ch :: rest).length (t.wrapNow.width - t.wrapNow.col) = count
      have hsome : 0 < count := by
        rw [← hcount, length_cons]
        omega
      have hfits : count ≤ t.wrapNow.width - t.wrapNow.col := hcount ▸ Nat.min_le_right _ _
      have hshort : count ≤ rest.length + 1 := hcount ▸ Nat.min_le_left _ _
      obtain ⟨more, rfl⟩ : ∃ more, count = more + 1 := ⟨count - 1, by omega⟩
      have htaken : ∀ c ∈ (ch :: rest).take (more + 1), isPrintableAscii c = true :=
        fun c hc => hrun c (mem_of_mem_take hc)
      have hlengthTaken : (rest.take more).length = more := by
        rw [length_take]
        omega
      have hslice := foldlM_print_slice hwrapped (wrapPending_wrapNow t) ch (rest.take more) htaken
        (by omega)
      have hnext := shape_put hwrapped (wrapPending_wrapNow t)
        (whole_slice t.wrapNow.pen htaken) (by
          rw [length_map, take_succ_cons, length_cons, hlengthTaken]
          omega)
      rw [if_neg (Nat.succ_ne_zero more), @putSlice_eq data _ hwrapped,
        foldlM_print_wrapNow h ch rest (hrun ch (.head _))]
      conv_rhs => rw [← take_append_drop (more + 1) (ch :: rest), foldlM_append]
      rw [take_succ_cons, hslice]
      apply ih ((ch :: rest).drop (more + 1)).length _ hnext _ rfl
      · rw [length_drop, ← hlength, length_cons]
        omega
      · intro c hc
        exact hrun c (mem_of_mem_drop hc)

theorem sound_eraseRows (start : Nat) {stop : Nat} (hstop : stop ≤ t.height) :
    Sound data (eraseRows t start stop) := by
  have hlength := h.grid.length
  unfold eraseRows
  split
  · exact ⟨t, rfl, h⟩
  · rw [if_pos (by omega)]
    refine ⟨_, rfl, h.withRows (h.grid.update ?_ ?_)⟩
    · simp only [length_append, length_take, length_replicate, length_drop]
      omega
    · intro shown hline
      simp only [mem_append] at hline
      rcases hline with (hkept | hblank) | hkept
      · exact .inl (mem_of_mem_take hkept)
      · rw [eq_of_mem_replicate hblank]
        exact .inr (rowOk_erased t)
      · exact .inl (mem_of_mem_drop hkept)

theorem sound_eraseLine (mode : Nat) : Sound data (t.eraseLine mode) := by
  have hcol := h.col_lt
  unfold Terminal.eraseLine
  split
  · exact ⟨t, rfl, h⟩
  · apply Sound.bind
    · apply onRow_sound h
      intro shown hline
      split
      · rw [splitWide_eq hline]
        refine ⟨_, rfl, ?_⟩
        have hreplaced := rowOk_replace hline (Nat.le_of_lt hcol) (Nat.le_refl t.width)
          (whole_erased t (t.width - t.col)) length_replicate
        rw [drop_eq_nil_of_le (by rw [Glyphs.length_split, hline.length]),
          append_nil] at hreplaced
        exact hreplaced
      · split
        · rw [splitWide_eq hline]
          have hlength : (List.replicate (t.col + 1) t.erased).length = t.col + 1 - 0 := by
            rw [length_replicate, Nat.sub_zero]
          exact ⟨_, rfl, rowOk_replace hline (Nat.zero_le _) hcol (whole_erased t (t.col + 1)) hlength⟩
        · split
          · exact ⟨_, rfl, rowOk_erased t⟩
          · exact ⟨shown, rfl, hline⟩
    · intro erased herased
      exact ⟨_, rfl, herased.cleared⟩

theorem sound_eraseDisplay (mode : Nat) : Sound data (t.eraseDisplay mode) := by
  have hcleared : ∀ {result : Option Terminal}, Sound data result →
      Sound data (result.map fun erased => { erased with wrapPending := false }) := by
    rintro result ⟨erased, rfl, herased⟩
    exact ⟨_, rfl, herased.cleared⟩
  unfold Terminal.eraseDisplay
  apply hcleared
  split
  · apply (sound_eraseLine h 0).bind
    intro erased herased
    exact sound_eraseRows herased _ (le_rfl)
  split
  · apply (sound_eraseLine h 1).bind
    intro erased herased
    exact sound_eraseRows herased _ (Nat.le_of_lt herased.row_lt)
  split
  · exact ⟨_, rfl, h.withRows (gridOk_replicate (rowOk_erased t) t.height)⟩
  · exact ⟨t, rfl, h⟩

theorem sound_insertChars (count : Nat) : Sound data (t.insertChars count) := by
  have hcol := h.col_lt
  unfold Terminal.insertChars
  simp only
  apply onRow_sound h
  intro shown hline
  generalize hshort : min count (t.width - t.col) = moved
  have hsplit : RowOk data t.width ((glyphs data).split t.erased t.col t.col shown) :=
    ⟨Glyphs.length_split.trans hline.length, hline.whole.whole_split (narrow_erased data t) t.col t.col⟩
  rw [splitWide_eq hline]
  simp only [bind_eq_bind, bind_some]
  rw [splitWide_eq hsplit]
  refine ⟨_, rfl, ?_⟩
  have hwhole := hsplit.whole.whole_cut (narrow_erased data t) (t.width - moved)
  have hcut := hsplit.whole.whole_split (narrow_erased data t) (t.width - moved) t.width
  have hlength : ((glyphs data).split t.erased (t.width - moved) t.width
      ((glyphs data).split t.erased t.col t.col shown)).length = t.width := by
    rw [Glyphs.length_split, hsplit.length]
  -- The row is cut at the cursor and where it is pushed off the edge.
  have hcursor : ¬(glyphs data).IsTail ((glyphs data).split t.erased (t.width - moved) t.width
      ((glyphs data).split t.erased t.col t.col shown)) t.col := by
    apply hwhole.not_isTail_cut_of_le (narrow_erased data t)
    apply hsplit.whole.not_isTail_cut_of_le (narrow_erased data t)
    exact (hline.whole.whole_cut (narrow_erased data t) t.col).not_isTail_cut (narrow_erased data t)
  have hedge : ¬(glyphs data).IsTail ((glyphs data).split t.erased (t.width - moved) t.width
      ((glyphs data).split t.erased t.col t.col shown)) (t.width - moved) := by
    apply hwhole.not_isTail_cut_of_le (narrow_erased data t)
    exact hsplit.whole.not_isTail_cut (narrow_erased data t)
  generalize (glyphs data).split t.erased (t.width - moved) t.width
    ((glyphs data).split t.erased t.col t.col shown) = changed at hcut hlength hcursor hedge ⊢
  obtain ⟨hleft, -⟩ := hcut.parts t.col hcursor
  have hmiddle := hcut.between (by omega) hcursor hedge
  have hbefore : (changed.take t.col ++ List.replicate moved t.erased).length = t.col + moved := by
    rw [length_append, length_take, length_replicate]
    omega
  rw [take_append, take_of_length_le (by omega), hbefore,
    show t.width - (t.col + moved) = t.width - moved - t.col by omega]
  refine ⟨?_, (hleft.append (whole_erased t moved)).append hmiddle⟩
  rw [length_append, hbefore, length_take, length_drop]
  omega

theorem sound_deleteChars (count : Nat) : Sound data (t.deleteChars count) := by
  have hcol := h.col_lt
  unfold Terminal.deleteChars
  simp only
  apply onRow_sound h
  intro shown hline
  rw [splitWide_eq hline]
  refine ⟨_, rfl, ?_⟩
  obtain ⟨hleft, -, -, hright⟩ := hline.whole.split_parts (narrow_erased data t) t.col
    (t.col + min count (t.width - t.col))
  refine ⟨?_, (hleft.append hright).append (whole_erased t _)⟩
  simp only [length_append, length_take, length_drop, length_replicate,
    Glyphs.length_split, hline.length]
  omega

theorem sound_eraseChars (count : Nat) : Sound data (t.eraseChars count) := by
  have hcol := h.col_lt
  unfold Terminal.eraseChars
  simp only
  apply onRow_sound h
  intro shown hline
  rw [splitWide_eq hline]
  refine ⟨_, rfl, ?_⟩
  apply rowOk_replace hline (Nat.le_add_right _ _) (by omega) (whole_erased t _)
  rw [length_replicate, Nat.add_sub_cancel_left]

end

theorem sound_ite {c : Prop} [Decidable c] {yes no : Option Terminal} (hyes : Sound data yes)
    (hno : Sound data no) : Sound data (if c then yes else no) := by
  split
  · exact hyes
  · exact hno

theorem sound_command (h : Shape data t) (params : List Nat) (final : CodePoint) :
    Sound data (t.command params final) := by
  have hmoved : ∀ row col : Int, Sound data (some (t.moveTo row col)) :=
    fun row col => ⟨_, rfl, shape_moveTo h row col⟩
  have hsame : Sound data (some t) := ⟨t, rfl, h⟩
  unfold Terminal.command
  iterate 9 apply sound_ite (hmoved _ _)
  apply sound_ite (sound_eraseDisplay h _)
  apply sound_ite (sound_eraseLine h _)
  apply sound_ite (sound_ite ⟨_, rfl, shape_moveTo (shape_scrollDown h _ _) _ _⟩ hsame)
  apply sound_ite (sound_ite ⟨_, rfl, shape_moveTo (shape_scrollUp h _ _) _ _⟩ hsame)
  apply sound_ite (sound_insertChars h _)
  apply sound_ite (sound_deleteChars h _)
  apply sound_ite (sound_eraseChars h _)
  apply sound_ite ⟨_, rfl, shape_scrollUp h _ _⟩
  apply sound_ite ⟨_, rfl, shape_scrollDown h _ _⟩
  apply sound_ite ⟨_, rfl, shape_setMargins h _ _⟩
  apply sound_ite ⟨_, rfl, shape_saveCursor h⟩
  exact sound_ite ⟨_, rfl, shape_restoreCursor h⟩ hsame

theorem sound_csi (h : Shape data t) (sequence : PyStr) (final : CodePoint) :
    Sound data (t.csi sequence final) := by
  unfold Terminal.csi
  simp only
  generalize (if isPrivate sequence = true then sequence.tail else sequence) = body
  split
  · exact ⟨t, rfl, h⟩
  split
  · split
    · exact ⟨t, rfl, h⟩
    · exact ⟨_, rfl, h.withPen _⟩
  split
  · exact ⟨_, rfl, h.withPen _⟩
  split
  · exact ⟨_, rfl, shape_privateMode h _ _⟩
  · exact sound_command h _ _

theorem sound_feedChar (h : Shape data t) (ch : CodePoint) : Sound data (t.feedChar data ch) := by
  unfold Terminal.feedChar
  split
  · split
    · exact ⟨_, rfl, h.withState _⟩
    split
    · exact ⟨_, rfl, shape_control h ch⟩
    · rename_i hcontrol
      exact sound_print h (Bool.eq_false_iff.mpr hcontrol)
  · exact ⟨_, rfl, shape_escape h ch⟩
  · split
    · exact sound_csi (h.withState _) _ _
    split
    · exact ⟨_, rfl, h.withState _⟩
    · exact ⟨_, rfl, h.withState _⟩
  · refine ⟨_, rfl, ?_⟩
    split
    · exact h.withState _
    · exact h
  · split
    · exact ⟨_, rfl, h.withState _⟩
    split
    · exact ⟨_, rfl, h.withState _⟩
    · exact ⟨t, rfl, h⟩
  · exact ⟨_, rfl, h.withState _⟩
  · split
    · exact ⟨_, rfl, h.withState _⟩
    split
    · exact ⟨t, rfl, h⟩
    · exact ⟨_, rfl, h.withState _⟩

theorem state_scrollUp (t : Terminal) (count top : Nat) :
    (t.scrollUp count top).state = t.state := by
  unfold Terminal.scrollUp
  simp only
  split <;> rfl

theorem state_linefeed (t : Terminal) : t.linefeed.state = t.state := by
  unfold Terminal.linefeed
  simp only
  split
  · exact state_scrollUp _ 1 t.top
  · split <;> rfl

theorem state_wrapNow (t : Terminal) : t.wrapNow.state = t.state := by
  unfold Terminal.wrapNow
  split
  · exact state_linefeed { t with col := 0 }
  · rfl

theorem state_put (t : Terminal) (cells : Row) : (t.put data cells).state = t.state := by
  unfold Terminal.put Terminal.lastColumnWritten
  simp only
  split
  · split
    · exact state_linefeed _
    · rfl
  · rfl

theorem feedChar_ascii (hstate : t.state = .ground)
    (hch : isPrintableAscii ch = true) : t.feedChar data ch = t.print data ch := by
  have hcontrol := (drawable_ascii data hch).1.1
  unfold Terminal.feedChar
  rw [hstate]
  simp only
  rw [if_neg, if_neg (by rw [hcontrol]; decide)]
  rintro rfl
  exact absurd hch (by decide)

theorem foldlM_feedChar_ascii (h : Shape data t) (hstate : t.state = .ground)
    (hrun : ∀ ch ∈ run, isPrintableAscii ch = true) :
    run.foldlM (Terminal.feedChar data) t = run.foldlM (Terminal.print data) t := by
  induction run generalizing t with
  | nil => rfl
  | cons ch rest ih =>
    have hch := hrun ch (.head _)
    obtain ⟨next, hnext, hshape⟩ := sound_print h (drawable_ascii data hch).1.1
    have hnextState : next.state = .ground := by
      rw [print_ascii h hch] at hnext
      obtain rfl := Option.some.inj hnext
      rw [state_put, state_wrapNow, hstate]
    rw [foldlM_cons, foldlM_cons, feedChar_ascii hstate hch, hnext]
    exact ih hshape hnextState fun c hc => hrun c (mem_cons_of_mem ch hc)

theorem foldlM_feedChar_params (sequence params : PyStr)
    (hlength : sequence.length + params.length ≤ maxSequence)
    (hparams : ∀ ch ∈ params, isParameter ch = true) :
    params.foldlM (Terminal.feedChar data) { t with state := .csi sequence } =
      some { t with state := .csi (sequence ++ params) } := by
  induction params generalizing sequence with
  | nil =>
    rw [append_nil]
    rfl
  | cons ch rest ih =>
    rw [length_cons] at hlength
    obtain ⟨hlow, hhigh⟩ := of_decide_eq_true (hparams ch (.head _))
    have hfinal : isFinal ch = false := by
      apply decide_eq_false
      intro hboth
      exact absurd (Fin.le_trans hboth.1 hhigh) (by decide)
    have hstep : ({ t with state := .csi sequence } : Terminal).feedChar data ch =
        some { t with state := .csi (sequence ++ [ch]) } := by
      unfold Terminal.feedChar
      simp only
      rw [hfinal, if_neg (by decide), if_neg (by omega)]
    rw [foldlM_cons, hstep]
    have hrest := ih (sequence ++ [ch]) (by
        rw [length_append, length_singleton]
        omega) fun c hc => hparams c (mem_cons_of_mem ch hc)
    rw [append_assoc] at hrest
    exact hrest

theorem wholeCsi_text {text rest : PyStr} (h : wholeCsi text = some (sequence, final, rest)) :
    text = esc :: .ofChar '[' :: (sequence ++ final :: rest) ∧ sequence.length ≤ maxSequence ∧
      isFinal final = true ∧ ∀ ch ∈ sequence, isParameter ch = true := by
  unfold wholeCsi at h
  split at h
  · rename_i hstart
    split at h
    · rename_i final' rest' hrest
      simp only at h
      split at h
      · rename_i hboth
        obtain ⟨rfl, rfl, rfl⟩ : _ ∧ _ ∧ _ := by
          simpa only [Option.some.injEq, Prod.mk.injEq] using h
        refine ⟨?_, hboth.1, hboth.2, ?_⟩
        · have hsplit := take_append_drop 2 text
          rw [hstart] at hsplit
          rw [← hrest, takeWhile_append_dropWhile]
          exact hsplit.symm
        · intro ch hch
          exact mem_takeWhile_imp hch
      · cases h
    · cases h
  · cases h

theorem foldlM_feedChar_csi (hstate : t.state = .ground)
    (hlength : sequence.length ≤ maxSequence) (hfinal : isFinal final = true)
    (hsequence : ∀ ch ∈ sequence, isParameter ch = true) (rest : PyStr) :
    (esc :: .ofChar '[' :: (sequence ++ final :: rest)).foldlM (Terminal.feedChar data) t =
      (t.csi sequence final).bind fun next => rest.foldlM (Terminal.feedChar data) next := by
  have hescape : t.feedChar data esc = some { t with state := .escape } := by
    unfold Terminal.feedChar
    rw [hstate]
    rfl
  have hground : ({ t with state := .ground } : Terminal) = t := by
    rw [← hstate]
  have hlast : ({ t with state := .csi sequence } : Terminal).feedChar data final =
      t.csi sequence final := by
    unfold Terminal.feedChar
    simp only
    rw [if_pos hfinal, hground]
  rw [foldlM_cons, hescape]
  show (CodePoint.ofChar '[' :: (sequence ++ final :: rest)).foldlM (Terminal.feedChar data)
    { t with state := .escape } = _
  rw [foldlM_cons]
  show (sequence ++ final :: rest).foldlM (Terminal.feedChar data) { t with state := .csi [] } = _
  rw [foldlM_append, foldlM_feedChar_params [] sequence (by simpa using hlength) hsequence,
    nil_append]
  show (final :: rest).foldlM (Terminal.feedChar data) { t with state := .csi sequence } = _
  rw [foldlM_cons, hlast]
  rfl

theorem sound_foldlM (h : Shape data t) (text : PyStr) :
    Sound data (text.foldlM (Terminal.feedChar data) t) := by
  induction text generalizing t with
  | nil => exact ⟨t, rfl, h⟩
  | cons ch rest ih =>
    rw [foldlM_cons]
    exact (sound_feedChar h ch).bind fun next hnext => ih hnext

/-- `feed` is its state machine, one character at a time. -/
theorem feed_eq (h : Shape data t) (text : PyStr) :
    t.feed data text = text.foldlM (Terminal.feedChar data) t := by
  induction hlength : text.length using Nat.strongRecOn generalizing t text with
  | ind length ih =>
    have hnext : ∀ {result : Option Terminal} {rest : PyStr}, Sound data result →
        rest.length < length →
        (result.bind fun next => next.feed data rest) =
          result.bind fun next => rest.foldlM (Terminal.feedChar data) next := by
      rintro _ rest ⟨next, rfl, hshape⟩ hless
      exact ih rest.length hless hshape rest rfl
    rw [Terminal.feed]
    split
    · rename_i htext
      rw [htext]
      rfl
    split
    · rename_i htext hground
      have hrun : ∀ ch ∈ asciiRun text, isPrintableAscii ch = true :=
        fun ch hch => mem_takeWhile_imp hch
      have hsplit : asciiRun text ++ text.drop (asciiRun text).length = text :=
        prefix_iff_eq_append.mp (List.takeWhile_prefix isPrintableAscii)
      have hfold : (asciiRun text).foldlM (Terminal.feedChar data) t =
          t.printAscii (asciiRun text) := by
        rw [printAscii_eq h hrun, foldlM_feedChar_ascii h hground.1 hrun]
      have hsound := sound_foldlM h (asciiRun text)
      rw [hfold] at hsound
      conv_rhs => rw [← hsplit, foldlM_append, hfold]
      apply hnext hsound
      rw [length_drop, ← hlength]
      exact Nat.sub_lt (length_pos_of_ne_nil htext) (length_pos_of_ne_nil hground.2)
    · split
      · rename_i sequence final rest hwhole
        split at hwhole
        · rename_i hground
          obtain ⟨rfl, hshort, hfinal, hsequence⟩ := wholeCsi_text hwhole
          rw [foldlM_feedChar_csi hground hshort hfinal hsequence]
          apply hnext (sound_csi h sequence final)
          rw [← hlength]
          exact wholeCsi_length hwhole
        · cases hwhole
      · cases text with
        | nil => contradiction
        | cons ch rest =>
          rw [foldlM_cons]
          apply hnext (sound_feedChar h ch)
          rw [← hlength]
          exact Nat.lt_succ_self _

inductive ScreenOp where
  | feed (text : PyStr)
  | resize (width height : Int)
  | setWraps (immediately : Bool)

def screenStep (data : UnicodeData) (t : Terminal) : ScreenOp → Option Terminal
  | .feed text => t.feed data text
  | .resize width height => some (t.resize width height)
  | .setWraps immediately => some { t with wrapsImmediately := immediately }

def screenRun (data : UnicodeData) (width height : Int) (wrapsImmediately : Bool)
    (ops : List ScreenOp) : Option Terminal :=
  ops.foldlM (screenStep data) (Terminal.new width height wrapsImmediately)

theorem clampSize_pos (limit : Nat) (size : Int) : 0 < clampSize limit size := by
  unfold clampSize
  omega

theorem shape_new (data : UnicodeData) (width height : Int) (wrapsImmediately : Bool) :
    Shape data (Terminal.new width height wrapsImmediately) := by
  have hwidth := clampSize_pos maxWidth width
  have hheight := clampSize_pos maxHeight height
  have hmargin : clampSize maxHeight height - 1 < clampSize maxHeight height :=
    Nat.sub_lt hheight Nat.one_pos
  refine ⟨hwidth, hheight, gridOk_replicate (rowOk_replicate (narrow_blankCell data) _) _, ?_,
    hheight, hwidth, ⟨Nat.zero_le _, hmargin⟩, ⟨Nat.zero_le _, hmargin⟩, nofun⟩
  intro rows hrows
  cases hrows

theorem shape_resize (h : Shape data t) (width height : Int) : Shape data (t.resize width height) := by
  have hwidth := clampSize_pos maxWidth width
  have hheight := clampSize_pos maxHeight height
  have hmargin : clampSize maxHeight height - 1 < clampSize maxHeight height :=
    Nat.sub_lt hheight Nat.one_pos
  unfold Terminal.resize
  simp only
  split
  · exact h
  · refine ⟨hwidth, hheight, gridOk_reshape h.grid hwidth, ?_, ?_, ?_, ⟨Nat.zero_le _, hmargin⟩,
      ⟨Nat.zero_le _, hmargin⟩, nofun⟩
    · intro rows hrows
      obtain ⟨old, hold, rfl⟩ := map_eq_some_iff.mp hrows
      exact gridOk_reshape (h.main old hold) hwidth
    · exact Nat.lt_of_le_of_lt (Nat.min_le_right _ _) hmargin
    · exact Nat.lt_of_le_of_lt (Nat.min_le_right _ _) (Nat.sub_lt hwidth Nat.one_pos)

theorem sound_screenStep (h : Shape data t) (op : ScreenOp) : Sound data (screenStep data t op) := by
  cases op with
  | feed text =>
    show Sound data (t.feed data text)
    rw [feed_eq h]
    exact sound_foldlM h text
  | resize width height => exact ⟨_, rfl, shape_resize h width height⟩
  | setWraps immediately =>
    exact ⟨_, rfl, h.keep t.pen t.cursorVisible t.saved t.mainSaved t.state immediately⟩

theorem sound_screenRun (data : UnicodeData) (width height : Int) (wrapsImmediately : Bool)
    (ops : List ScreenOp) : Sound data (screenRun data width height wrapsImmediately ops) := by
  have hops : ∀ {t : Terminal}, Shape data t → Sound data (ops.foldlM (screenStep data) t) := by
    induction ops with
    | nil => exact fun h => ⟨_, rfl, h⟩
    | cons op rest ih =>
      intro t h
      rw [foldlM_cons]
      exact (sound_screenStep h op).bind fun next hnext => ih hnext
  exact hops (shape_new data width height wrapsImmediately)

/-- How output was cut into writes makes no difference: a screen does with a text what its state machine
does with the characters one at a time. -/
theorem feed_append (data : UnicodeData) (width height : Int) (wrapsImmediately : Bool)
    (ops : List ScreenOp) :
    ∃ t, screenRun data width height wrapsImmediately ops = some t ∧
      (∀ a b, t.feed data (a ++ b) = (t.feed data a).bind fun next => next.feed data b) ∧
      (∀ text, t.feed data text = text.foldlM (Terminal.feedChar data) t) ∧
      ∀ text, t.printAscii (asciiRun text) =
        (asciiRun text).foldlM (Terminal.print data) t := by
  obtain ⟨t, hrun, h⟩ := sound_screenRun data width height wrapsImmediately ops
  refine ⟨t, hrun, ?_, fun text => feed_eq h text, fun text => printAscii_eq h fun ch hch =>
    mem_takeWhile_imp hch⟩
  intro a b
  obtain ⟨next, hnext, hshape⟩ := sound_foldlM h a
  rw [feed_eq h, feed_eq h, foldlM_append, hnext]
  exact (feed_eq hshape b).symm

def IsWide (data : UnicodeData) (cell : Cell) : Prop :=
  ∃ base, cell.char.head? = some base ∧ charWidth data base = 2

def WideWhole (data : UnicodeData) (shown : Row) : Prop :=
  ∀ i cell, shown[i]? = some cell →
    (cell.char = [] → ∃ before lead, i = before + 1 ∧ shown[before]? = some lead ∧ IsWide data lead) ∧
    (IsWide data cell → ∃ tail, shown[i + 1]? = some tail ∧ tail.char = [])

def GridFits (data : UnicodeData) (width height : Nat) (rows : List Row) : Prop :=
  rows.length = height ∧ ∀ shown ∈ rows, shown.length = width ∧ WideWhole data shown

structure WellFormed (data : UnicodeData) (t : Terminal) : Prop where
  cursor : t.row < t.height ∧ t.col < t.width
  margins : t.top ≤ t.bottom ∧ t.bottom < t.height
  grid : GridFits data t.width t.height t.rows
  main : ∀ rows, t.mainRows = some rows → GridFits data t.width t.height rows

theorem wideWhole_of_whole {shown : Row} (h : (glyphs data).Whole shown) : WideWhole data shown := by
  have hwide : ∀ {cell : Cell}, IsGlyph data 2 cell.char → IsWide data cell := by
    rintro cell ⟨base, marks, hchar, -, hwidth, -⟩
    exact ⟨base, by rw [hchar]; rfl, hwidth⟩
  intro i cell hcell
  constructor
  · intro hempty
    obtain ⟨before, lead, hi, hlead, hpair⟩ := h.lead hcell (isEmpty_iff.mpr hempty)
    exact ⟨before, lead, hi, hlead, hwide hpair.1⟩
  · rintro ⟨base, hbase, hwidth⟩
    obtain ⟨tail, htail, hpair⟩ := h.follows hcell (by
        rintro ⟨other, marks, hchar, -, hother, -⟩
        rw [hchar] at hbase
        obtain rfl := Option.some.inj hbase
        omega) (by
        apply isEmpty_eq_false_iff.mpr
        intro hempty
        rw [hempty] at hbase
        cases hbase)
    exact ⟨tail, htail, by rw [hpair.2]⟩

theorem GridOk.fits {width height : Nat} {rows : List Row} (h : GridOk data width height rows) :
    GridFits data width height rows :=
  ⟨h.length, fun shown hline => ⟨(h.rows shown hline).length,
    wideWhole_of_whole (h.rows shown hline).whole⟩⟩

/-- Whatever is fed to a screen and however it is resized, nothing raises and it is well formed. -/
theorem screenRun_wellFormed (data : UnicodeData) (width height : Int) (wrapsImmediately : Bool)
    (ops : List ScreenOp) :
    ∃ t, screenRun data width height wrapsImmediately ops = some t ∧ WellFormed data t := by
  obtain ⟨t, hrun, h⟩ := sound_screenRun data width height wrapsImmediately ops
  exact ⟨t, hrun, ⟨h.row_lt, h.col_lt⟩, h.margins, h.grid.fits, fun rows hrows =>
    (h.main rows hrows).fits⟩

end NetBBS.Rendering
