import Mathlib.Data.List.GetD
import NetBBS.Rendering.ArtFiles

/-! # Saved art opens as it was drawn -/

namespace NetBBS.Rendering

open Foundation List
open WireJson (digitsValue maxStrDigits)

theorem artByte_artChar (byte : UInt8) : artByte (artChar byte) = byte := by
  have hall : ∀ n : Fin 256, artByte (artChar (UInt8.ofNat n)) = UInt8.ofNat n := by
    decide +kernel
  have h := hall ⟨byte.toNat, byte.toNat_lt⟩
  rwa [UInt8.ofNat_toNat] at h

variable {c : CodePoint} {text : PyStr} {params : List Nat} {rows : List (List Cell)}

theorem cp437Char_cp437Byte {byte : UInt8} (h : cp437Byte c = some byte) :
    cp437Char byte = c := by
  unfold cp437Byte at h
  split at h
  · rename_i hascii
    obtain rfl := Option.some.inj h
    have hbyte : (UInt8.ofNat c.val).toNat = c.val := UInt8.toNat_ofNat_of_lt' (by
      show c.val < 256
      omega)
    unfold cp437Char
    rw [if_pos (by rw [UInt8.lt_iff_toNat_lt, hbyte]; exact hascii), hbyte]
    exact Fin.ofNat_val_eq_self c
  · obtain ⟨index, hfound, rfl⟩ := Option.map_eq_some_iff.mp h
    obtain ⟨hlt, hsame, -⟩ := findIdx?_eq_some_iff_getElem.mp hfound
    have hlength : cp437Upper.length = 128 := rfl
    have hbyte : (UInt8.ofNat (0x80 + index)).toNat = 0x80 + index := UInt8.toNat_ofNat_of_lt' (by
      show 0x80 + index < 256
      omega)
    unfold cp437Char
    rw [if_neg (by rw [UInt8.lt_iff_toNat_lt, hbyte]; show ¬0x80 + index < 0x80; omega), hbyte]
    rw [Nat.add_sub_cancel_left, getD_eq_getElem _ _ hlt]
    simpa using hsame

def IsArtChar (c : CodePoint) : Prop := ∃ byte, artChar byte = c

theorem decode_encodeCp437Art (h : ∀ c ∈ text, IsArtChar c) :
    decodeCp437Art (encodeCp437Art text) = text := by
  unfold decodeCp437Art encodeCp437Art
  rw [map_map]
  conv_rhs => rw [← map_id text]
  apply map_congr_left
  intro c hc
  obtain ⟨byte, rfl⟩ := h c hc
  exact congrArg artChar (artByte_artChar byte)

def isGlyphByte (byte : UInt8) : Bool :=
  0x20 ≤ byte || (artPictographs.lookup (cp437Char byte)).isSome

def IsArtGlyph (c : CodePoint) : Prop := ∃ byte, isGlyphByte byte = true ∧ artChar byte = c

theorem IsArtGlyph.ne (h : IsArtGlyph c) {control : CodePoint} {code : UInt8}
    (hcode : artByte control = code) (hcontrol : isGlyphByte code = false) : c ≠ control := by
  obtain ⟨byte, hbyte, rfl⟩ := h
  rintro rfl
  rw [artByte_artChar] at hcode
  rw [hcode, hcontrol] at hbyte
  cases hbyte

theorem IsArtGlyph.plain (h : IsArtGlyph c) : c ≠ 0x1B ∧ c ≠ 0x0D ∧ c ≠ 0x0A := by
  have hesc : artByte 0x1B = 0x1B := by decide +kernel
  have hcr : artByte 0x0D = 0x0D := by decide +kernel
  have hlf : artByte 0x0A = 0x0A := by decide +kernel
  exact ⟨h.ne hesc (by decide +kernel), h.ne hcr (by decide +kernel), h.ne hlf (by decide +kernel)⟩

variable {n code size : Nat}

theorem digitsText_isDigit (h : c ∈ digitsText n) : c.isDigit = true := by
  obtain ⟨d, hd, rfl⟩ := mem_map.mp h
  have hdigit := Nat.isDigit_of_mem_toDigits (by omega) (by omega) hd
  have hcode : 48 ≤ d.toNat ∧ d.toNat ≤ 57 := by
    simpa [Char.isDigit, UInt32.le_iff_toNat_le] using hdigit
  unfold CodePoint.isDigit CodePoint.ofChar
  simpa using hcode

theorem number_digitsText (n : Nat) :
    isAsciiNumber (digitsText n) = true ∧ digitsValue (digitsText n) = n := by
  constructor
  · unfold isAsciiNumber
    rw [Bool.and_eq_true]
    constructor
    · simp [digitsText, Nat.toDigits_ne_nil]
    · exact all_eq_true.mpr fun c hc => digitsText_isDigit hc
  · unfold digitsValue digitsText
    rw [foldl_map]
    exact Nat.ofDigitChars_ten_toDigits

theorem length_digitsText (h : n < 1000) : (digitsText n).length ≤ 3 := by
  unfold digitsText
  rw [length_map]
  exact (Nat.length_toDigits_le_iff (b := 10) (n := n) (k := 3) (by omega) (by omega)).mpr h

theorem int_digitsText (reader : NumberReader) (h : n < 256) :
    reader.int (digitsText n) = some n := by
  obtain ⟨hnumber, hvalue⟩ := number_digitsText n
  have hlength : (digitsText n).length ≤ maxStrDigits :=
    Nat.le_trans (length_digitsText (by omega)) (by decide)
  rw [reader.int_digits _ hnumber hlength, hvalue]

theorem splitOn_params (hne : params ≠ []) :
    ([semicolon].intercalate (params.map digitsText)).splitOn semicolon = params.map digitsText := by
  apply splitOn_intercalate
  · intro part hpart hmem
    obtain ⟨n, -, rfl⟩ := mem_map.mp hpart
    exact absurd (digitsText_isDigit hmem) (by decide)
  · simpa using hne

theorem params_ne_nil (hne : params ≠ []) :
    [semicolon].intercalate (params.map digitsText) ≠ [] := by
  have hsplit := splitOn_params hne
  intro hnil
  rw [hnil] at hsplit
  cases params with
  | nil => exact hne rfl
  | cons n rest =>
    have hhead := congrArg List.head? hsplit
    simp [digitsText, Nat.toDigits_ne_nil] at hhead

theorem artParams_digits (reader : NumberReader) (hne : params ≠ []) (h : ∀ n ∈ params, n < 256) :
    artParams reader ([semicolon].intercalate (params.map digitsText)) =
      params.map Int.ofNat := by
  unfold artParams
  rw [if_neg (params_ne_nil hne), splitOn_params hne, map_map]
  apply map_congr_left
  intro n hn
  show (reader.int (digitsText n)).getD 0 = _
  rw [int_digitsText reader (h n hn)]
  rfl

section

variable (h : c ∈ [semicolon].intercalate (params.map digitsText))

include h

theorem mem_params : c.isDigit = true ∨ c = semicolon := by
  induction params with
  | nil => cases h
  | cons n rest ih =>
    cases rest with
    | nil =>
      simp only [map_cons, map_nil, intercalate_singleton] at h
      exact .inl (digitsText_isDigit h)
    | cons m rest =>
      rw [map_cons, intercalate_cons_of_ne_nil (by simp)] at h
      rcases mem_append.mp h with h | h
      · rcases mem_append.mp h with h | h
        · exact .inl (digitsText_isDigit h)
        · exact .inr (mem_singleton.mp h)
      · exact ih h

theorem not_final_of_mem : isCsiFinal c = false := by
  rcases mem_params h with hdigit | rfl
  · unfold CodePoint.isDigit at hdigit
    unfold isCsiFinal
    simp only [Bool.and_eq_true, decide_eq_true_eq] at hdigit
    rw [Bool.and_eq_false_iff]
    left
    simp only [decide_eq_false_iff_not]
    omega
  · rfl

end

theorem parse_sgrText (reader : NumberReader) (s : ArtParser) {params : List Nat} (hne : params ≠ [])
    (h : ∀ n ∈ params, n < 256) (rest : PyStr) :
    s.parse reader (sgrText params ++ rest) =
      { s with style := artSgr s.style (params.map Int.ofNat) }.parse reader rest := by
  have hnot : ∀ c ∈ [semicolon].intercalate (params.map digitsText), (!isCsiFinal c) = true := by
    intro c hc
    rw [not_final_of_mem hc]
    rfl
  have hfinal : (!isCsiFinal 0x6D) = false := rfl
  have htake : ([semicolon].intercalate (params.map digitsText) ++ 0x6D :: rest).takeWhile
      (fun c => !isCsiFinal c) = [semicolon].intercalate (params.map digitsText) := by
    rw [takeWhile_append_of_pos hnot, takeWhile_cons_of_neg (by simp [hfinal]),
      append_nil]
  have hdrop : ([semicolon].intercalate (params.map digitsText) ++ 0x6D :: rest).dropWhile
      (fun c => !isCsiFinal c) = 0x6D :: rest := by
    rw [dropWhile_append_of_pos hnot, dropWhile_cons_of_neg (by simp [hfinal])]
  have htext : sgrText params ++ rest =
      0x1B :: 0x5B :: ([semicolon].intercalate (params.map digitsText) ++ 0x6D :: rest) := by
    unfold sgrText
    rw [cons_append, cons_append, append_assoc]
    rfl
  rw [htext, ArtParser.parse, if_pos rfl, if_pos head?_cons]
  split
  · rename_i hnone
    rw [tail_cons, hdrop] at hnone
    cases hnone
  · rename_i final after hfound
    rw [tail_cons, hdrop] at hfound
    obtain ⟨rfl, rfl⟩ := List.cons.inj hfound
    rw [tail_cons, htake, artParams_digits reader hne h]
    rfl

theorem parse_cr (reader : NumberReader) (s : ArtParser) (rest : PyStr) :
    s.parse reader (0x0D :: rest) =
      { s with col := 0, pendingWrap := false }.parse reader rest := by
  rw [ArtParser.parse, if_neg (by decide), if_pos rfl]

theorem parse_lf (reader : NumberReader) (s : ArtParser) (rest : PyStr) :
    s.parse reader (0x0A :: rest) =
      { s with row := s.row + 1, pendingWrap := false }.parse reader rest := by
  rw [ArtParser.parse, if_neg (by decide), if_neg (by decide), if_pos rfl]

theorem parse_put (reader : NumberReader) {s after : ArtParser} (hesc : c ≠ 0x1B)
    (hcr : c ≠ 0x0D) (hlf : c ≠ 0x0A) (hput : s.put c = some after) (rest : PyStr) :
    s.parse reader (c :: rest) = after.parse reader rest := by
  rw [ArtParser.parse, if_neg hesc, if_neg hcr, if_neg hlf, hput]

theorem parse_colorText (reader : NumberReader) (s : ArtParser)
    (hcode : code = 38 ∨ code = 48) (color : Option Color) (rest : PyStr) :
    s.parse reader (colorText code color ++ rest) =
      { s with style := (color.map (s.style.setColor code)).getD s.style }.parse reader rest := by
  have hlt : code < 256 := by omega
  have hclamp (index : Fin 256) : clampColor ((index.val : Nat) : Int) = index := by
    unfold clampColor clampByte
    apply Fin.ext
    show min 255 ((index.val : Int)).toNat = index.val
    rw [Int.toNat_natCast]
    omega
  cases color with
  | none => rfl
  | some color =>
    cases color with
    | indexed index =>
      unfold colorText
      rw [parse_sgrText reader s (by simp) (by simp [hlt])]
      congr 2
      rcases hcode with rfl | rfl
      · exact congrArg (fun i => s.style.setColor 38 (.indexed i)) (hclamp index)
      · exact congrArg (fun i => s.style.setColor 48 (.indexed i)) (hclamp index)
    | rgb r g b =>
      unfold colorText
      rw [parse_sgrText reader s (by simp) (by simp [hlt])]
      congr 2
      have hall : Color.rgb (clampColor r.val) (clampColor g.val) (clampColor b.val) =
          Color.rgb r g b := by
        rw [hclamp, hclamp, hclamp]
      rcases hcode with rfl | rfl
      · exact congrArg (fun color => s.style.setColor 38 color) hall
      · exact congrArg (fun color => s.style.setColor 48 color) hall

theorem parse_styleText (reader : NumberReader) (s : ArtParser) (style : Style) (rest : PyStr) :
    s.parse reader (styleText style ++ rest) = { s with style }.parse reader rest := by
  obtain ⟨fg, bg, bold⟩ := style
  unfold styleText resetText
  simp only [append_assoc]
  rw [parse_sgrText reader s (by simp) (by simp)]
  have hbold : ArtParser.parse reader { s with style := {} }
      ((if bold = true then sgrText [1] else []) ++
        (colorText 38 fg ++ (colorText 48 bg ++ rest))) =
      ArtParser.parse reader { s with style := ⟨none, none, bold⟩ }
        (colorText 38 fg ++ (colorText 48 bg ++ rest)) := by
    cases bold with
    | false => rfl
    | true =>
      rw [if_pos rfl, parse_sgrText reader _ (by simp) (by simp)]
      rfl
  have hreset : artSgr s.style ([0].map Int.ofNat) = {} := rfl
  rw [hreset, hbold, parse_colorText reader _ (.inl rfl), parse_colorText reader _ (.inr rfl)]
  cases fg <;> cases bg <;> rfl

section Canvas

structure IsDrawn (cell : Cell) : Prop where
  glyph : ∃ c, IsArtGlyph c ∧ cell.char = [c]
  underline : cell.underline = false
  reverse : cell.reverse = false

def placedAt (width height : Nat) (done : List (List Cell)) (placed : List Cell)
    (below : List (List Cell)) (style : Style) : ArtParser where
  buffer := ⟨width, height, done ++ (placed ++ List.replicate (width - placed.length) blankCell) :: below⟩
  row := done.length
  col := (min placed.length (width - 1) : Nat)
  style := style
  pendingWrap := decide (placed.length = width)

variable {width height : Nat} {done below : List (List Cell)} {style : Style}
variable {placed : List Cell}

theorem put_placedAt (hdone : done.length < height)
    (hplaced : placed.length < width) {cell : Cell} (hstyle : cell.style = style) {c : CodePoint}
    (hchar : cell.char = [c]) (hunderline : cell.underline = false) (hreverse : cell.reverse = false) :
    (placedAt width height done placed below style).put c =
      some (placedAt width height done (placed ++ [cell]) below style) := by
  have hcell : cell = { fg := style.fg, bg := style.bg, bold := style.bold, char := [c] } := by
    obtain ⟨⟨fg, bg, bold, underline, reverse⟩, char⟩ := cell
    subst hstyle
    simp only at hchar hunderline hreverse
    rw [hchar, hunderline, hreverse]
    rfl
  have hpending : decide (placed.length = width) = false := decide_eq_false (by omega)
  have hmin : min placed.length (width - 1) = placed.length := by omega
  have hwrap : (placedAt width height done placed below style).wrap =
      placedAt width height done placed below style := by
    unfold ArtParser.wrap placedAt
    rw [if_neg (by rw [hpending]; exact Bool.false_ne_true)]
  have hset : (placed ++ List.replicate (width - placed.length) blankCell).set placed.length cell =
      (placed ++ [cell]) ++ List.replicate (width - (placed ++ [cell]).length) blankCell := by
    obtain ⟨room, hroom⟩ : ∃ room, width - placed.length = room + 1 :=
      ⟨width - placed.length - 1, by omega⟩
    have hrest : width - (placed ++ [cell]).length = room := by
      rw [length_append, length_singleton]
      omega
    rw [hroom, hrest, replicate_succ, set_append_right _ _ (le_rfl), Nat.sub_self,
      set_cons_zero, append_assoc]
    rfl
  have hwrite : (placedAt width height done placed below style).buffer.writeCell done.length
      (placed.length : Nat) cell =
      some (placedAt width height done (placed ++ [cell]) below style).buffer := by
    unfold ArtBuffer.writeCell placedAt
    simp only
    rw [if_pos (by omega), Int.toNat_natCast, Int.toNat_natCast, take_left, drop_left]
    simp only [hset]
  unfold ArtParser.put
  rw [hwrap]
  have hroom : (placedAt width height done placed below style).row <
        (placedAt width height done placed below style).buffer.height ∧
      (placedAt width height done placed below style).col <
        (placedAt width height done placed below style).buffer.width := by
    unfold placedAt
    simp only
    omega
  have hpen : (placedAt width height done placed below style).style = style := rfl
  simp only [hpen]
  rw [if_pos hroom, ← hcell]
  have hcol : (placedAt width height done placed below style).col = (placed.length : Nat) := by
    unfold placedAt
    rw [hmin]
  have hrow : (placedAt width height done placed below style).row = (done.length : Nat) := rfl
  rw [hcol, hrow, hwrite]
  simp only [bind, Option.bind]
  have hlength : (placed ++ [cell]).length = placed.length + 1 := by simp
  split
  · rename_i hlast
    have hlast' : (width : Int) - 1 ≤ placed.length := hlast
    have hfull : placed.length + 1 = width := by omega
    unfold placedAt
    congr 2
    · rw [hlength]
      omega
    · exact (decide_eq_true (hlength.trans hfull)).symm
  · rename_i hlast
    have hlast' : ¬(width : Int) - 1 ≤ placed.length := hlast
    unfold placedAt
    congr 2
    · rw [hlength]
      omega
    · rw [hlength]
      rw [decide_eq_false (by omega), decide_eq_false (by omega)]

theorem parse_rowText (reader : NumberReader) {current : Option Style} {cells : List Cell}
    (hdone : done.length < height) (hlength : placed.length + cells.length = width)
    (hdrawn : ∀ cell ∈ cells, IsDrawn cell) (hcurrent : current = none ∨ current = some style)
    (rest : PyStr) :
    ∃ last, (placedAt width height done placed below style).parse reader
        (rowText current cells ++ rest) =
      (placedAt width height done (placed ++ cells) below last).parse reader rest := by
  induction cells generalizing placed current style with
  | nil => exact ⟨style, by rw [append_nil]; rfl⟩
  | cons cell cells ih =>
    obtain ⟨⟨c, hglyph, hchar⟩, hunderline, hreverse⟩ := hdrawn cell (.head _)
    rw [length_cons] at hlength
    have hstyled : (placedAt width height done placed below style).parse reader
        ((if current = some cell.style then [] else styleText cell.style) ++
          (c :: (rowText (some cell.style) cells ++ rest))) =
        (placedAt width height done placed below cell.style).parse reader
          (c :: (rowText (some cell.style) cells ++ rest)) := by
      by_cases hsame : current = some cell.style
      · rw [if_pos hsame]
        rcases hcurrent with hnone | hsome
        · rw [hnone] at hsame
          cases hsame
        · rw [hsome] at hsame
          rw [Option.some.inj hsame]
          rfl
      · rw [if_neg hsame, parse_styleText]
        rfl
    obtain ⟨last, hrest⟩ :
        ∃ last, (placedAt width height done (placed ++ [cell]) below cell.style).parse reader
            (rowText (some cell.style) cells ++ rest) =
          (placedAt width height done ((placed ++ [cell]) ++ cells) below last).parse reader rest :=
      ih (by rw [length_append, length_singleton]; omega)
        (fun other hother => hdrawn other (mem_cons_of_mem cell hother)) (.inr rfl)
    refine ⟨last, ?_⟩
    have hput : (placedAt width height done placed below cell.style).put c =
        some (placedAt width height done (placed ++ [cell]) below cell.style) :=
      put_placedAt hdone (by omega) rfl hchar hunderline hreverse
    obtain ⟨hesc, hcr, hlf⟩ := hglyph.plain
    unfold rowText
    rw [hchar]
    simp only [append_assoc, cons_append, nil_append] at hrest ⊢
    rw [hstyled, parse_put reader hesc hcr hlf hput, hrest]

def rowStart (width height : Nat) (done below : List (List Cell)) (style : Style) : ArtParser where
  buffer := ⟨width, height, done ++ below⟩
  row := done.length
  style := style

theorem rowStart_blank (hwidth : 0 < width) :
    rowStart width height done (blankRow width :: below) style =
      placedAt width height done [] below style := by
  unfold rowStart placedAt blankRow
  congr 1
  exact (decide_eq_false (by simp only [length_nil]; omega)).symm

theorem parse_lineEnd (reader : NumberReader) {row : List Cell} (hrow : row.length = width) (rest : PyStr) :
    (placedAt width height done row below style).parse reader (0x0D :: 0x0A :: rest) =
      (rowStart width height (done ++ [row]) below style).parse reader rest := by
  rw [parse_cr, parse_lf]
  congr 1
  unfold placedAt rowStart
  congr 1
  · rw [hrow, Nat.sub_self, replicate_zero, append_nil, append_assoc]
    rfl
  · show (done.length : Int) + 1 = ((done ++ [row]).length : Nat)
    rw [length_append, length_singleton]
    omega

theorem parse_rows (reader : NumberReader) {rows : List (List Cell)} (hwidth : 0 < width)
    (hheight : done.length + rows.length = height) (hrows : ∀ row ∈ rows, row.length = width)
    (hdrawn : ∀ row ∈ rows, ∀ cell ∈ row, IsDrawn cell) (rest : PyStr) :
    ∃ last, (rowStart width height done (List.replicate rows.length (blankRow width)) style).parse
        reader ((rows.flatMap fun row => rowText none row ++ [0x0D, 0x0A]) ++ rest) =
      (rowStart width height (done ++ rows) [] last).parse reader rest := by
  induction rows generalizing done style with
  | nil => exact ⟨style, by rw [append_nil]; rfl⟩
  | cons row rows ih =>
    rw [length_cons] at hheight
    have hwidth' := hrows row (.head _)
    let others := List.replicate rows.length (blankRow width)
    let text := (rows.flatMap fun row => rowText none row ++ [0x0D, 0x0A]) ++ rest
    obtain ⟨last, hrow⟩ :
        ∃ last, (placedAt width height done [] others style).parse reader
            (rowText none row ++ 0x0D :: 0x0A :: text) =
          (placedAt width height done ([] ++ row) others last).parse reader
            (0x0D :: 0x0A :: text) :=
      parse_rowText reader (by omega) (by rw [length_nil, Nat.zero_add]; exact hwidth')
        (hdrawn row (.head _)) (.inl rfl) _
    obtain ⟨final, hrest⟩ :
        ∃ final, (rowStart width height (done ++ [row]) others last).parse reader text =
          (rowStart width height ((done ++ [row]) ++ rows) [] final).parse reader rest :=
      ih (by rw [length_append, length_singleton]; omega)
        (fun other hother => hrows other (mem_cons_of_mem row hother))
        (fun other hother => hdrawn other (mem_cons_of_mem row hother))
    refine ⟨final, ?_⟩
    rw [length_cons, replicate_succ, rowStart_blank hwidth, flatMap_cons]
    simp only [append_assoc, cons_append, nil_append, others, text] at hrow hrest ⊢
    rw [hrow, parse_lineEnd reader hwidth', hrest]

theorem parse_canvasText (reader : NumberReader) {rows : List (List Cell)} (hwidth : 0 < width)
    (hheight : rows.length = height) (hrows : ∀ row ∈ rows, row.length = width)
    (hdrawn : ∀ row ∈ rows, ∀ cell ∈ row, IsDrawn cell) :
    ((ArtParser.parse reader ⟨.blank width height, 0, 0, {}, false⟩ (canvasText rows)).map
      fun s => s.buffer.rows) = some rows := by
  obtain ⟨last, hparse⟩ :
      ∃ last, (rowStart width height [] (List.replicate rows.length (blankRow width)) {}).parse
          reader ((rows.flatMap fun row => rowText none row ++ [0x0D, 0x0A]) ++ resetText) =
        (rowStart width height ([] ++ rows) [] last).parse reader resetText :=
    parse_rows reader hwidth (by rw [length_nil, Nat.zero_add]; exact hheight) hrows hdrawn _
  have hstart : (⟨.blank width height, 0, 0, {}, false⟩ : ArtParser) =
      rowStart width height [] (List.replicate rows.length (blankRow width)) {} := by
    unfold rowStart ArtBuffer.blank
    rw [hheight]
    rfl
  have hreset := @parse_sgrText reader (rowStart width height ([] ++ rows) [] last) [0] (by simp)
    (by simp) []
  rw [append_nil] at hreset
  unfold canvasText
  rw [hstart, hparse]
  unfold resetText
  rw [hreset, ArtParser.parse]
  unfold rowStart
  simp

end Canvas

/-- A character whose byte reads back, and is no EOF. -/
def IsSavedChar (c : CodePoint) : Prop := IsArtChar c ∧ artByte c ≠ eof

theorem IsArtGlyph.saved (h : IsArtGlyph c) : IsSavedChar c := by
  obtain ⟨byte, hbyte, rfl⟩ := h
  refine ⟨⟨byte, rfl⟩, ?_⟩
  rw [artByte_artChar]
  rintro rfl
  exact absurd hbyte (by decide +kernel)

/-- What sequences and line ends are written with. -/
def sequenceBytes : List UInt8 :=
  [0x1B, 0x5B, 0x3B, 0x6D, 0x0D, 0x0A, 0x30, 0x31, 0x32, 0x33, 0x34, 0x35, 0x36, 0x37, 0x38, 0x39]

def sequenceChars : List CodePoint :=
  [0x1B, 0x5B, 0x3B, 0x6D, 0x0D, 0x0A, 0x30, 0x31, 0x32, 0x33, 0x34, 0x35, 0x36, 0x37, 0x38, 0x39]

theorem saved_sequenceChars : ∀ c ∈ sequenceChars, IsSavedChar c := by
  have hchars : sequenceChars = sequenceBytes.map artChar := by decide +kernel
  intro c hc
  rw [hchars] at hc
  obtain ⟨byte, hbyte, rfl⟩ := mem_map.mp hc
  refine ⟨⟨byte, rfl⟩, ?_⟩
  rw [artByte_artChar]
  rintro rfl
  exact absurd hbyte (by decide)

theorem params_saved
    (h : c ∈ [semicolon].intercalate (params.map digitsText)) : c ∈ sequenceChars := by
  rcases mem_params h with hdigit | rfl
  · unfold CodePoint.isDigit at hdigit
    simp only [Bool.and_eq_true, decide_eq_true_eq] at hdigit
    have hall : ∀ n < 10, (Fin.ofNat 0x110000 (0x30 + n) : CodePoint) ∈ sequenceChars := by
      decide +kernel
    have hc : c = Fin.ofNat 0x110000 (0x30 + (c.val - 0x30)) := by
      rw [Nat.add_sub_cancel' hdigit.1]
      exact (Fin.ofNat_val_eq_self c).symm
    rw [hc]
    exact hall _ (by omega)
  · decide +kernel

theorem sgrText_saved (h : c ∈ sgrText params) : c ∈ sequenceChars := by
  rcases mem_cons.mp h with rfl | h
  · decide +kernel
  · rcases mem_cons.mp h with rfl | h
    · decide +kernel
    · rcases mem_append.mp h with h | h
      · exact params_saved h
      · rw [mem_singleton.mp h]
        decide +kernel

theorem colorText_saved {color : Option Color}
    (h : c ∈ colorText code color) : c ∈ sequenceChars := by
  cases color with
  | none => cases h
  | some color => cases color <;> exact sgrText_saved h

theorem styleText_saved {style : Style} (h : c ∈ styleText style) : c ∈ sequenceChars := by
  rcases mem_append.mp h with h | h
  · rcases mem_append.mp h with h | h
    · rcases mem_append.mp h with h | h
      · exact sgrText_saved h
      · split at h
        · exact sgrText_saved h
        · cases h
    · exact colorText_saved h
  · exact colorText_saved h

theorem rowText_saved {current : Option Style} {cells : List Cell}
    (hdrawn : ∀ cell ∈ cells, IsDrawn cell) (h : c ∈ rowText current cells) :
    IsSavedChar c := by
  induction cells generalizing current with
  | nil => cases h
  | cons cell cells ih =>
    unfold rowText at h
    rcases mem_append.mp h with h | h
    · rcases mem_append.mp h with h | h
      · split at h
        · cases h
        · exact saved_sequenceChars c (styleText_saved h)
      · obtain ⟨glyph, hglyph, hchar⟩ := (hdrawn cell (.head _)).glyph
        rw [hchar] at h
        rw [mem_singleton.mp h]
        exact hglyph.saved
    · exact ih (fun other hother => hdrawn other (mem_cons_of_mem cell hother)) h

section

variable (hdrawn : ∀ row ∈ rows, ∀ cell ∈ row, IsDrawn cell)

include hdrawn

theorem canvasText_saved (h : c ∈ canvasText rows) :
    IsSavedChar c := by
  rcases mem_append.mp h with h | h
  · obtain ⟨row, hrow, h⟩ := mem_flatMap.mp h
    rcases mem_append.mp h with h | h
    · exact rowText_saved (hdrawn row hrow) h
    · apply saved_sequenceChars
      rcases mem_cons.mp h with rfl | h
      · decide +kernel
      · rw [mem_singleton.mp h]
        decide +kernel
  · exact saved_sequenceChars c (sgrText_saved h)

theorem cutAtEof_encodeAnsiBytes : cutAtEof (encodeAnsiBytes rows) = encodeAnsiBytes rows := by
  unfold cutAtEof
  apply takeWhile_eq_self_iff.mpr
  intro byte hbyte
  obtain ⟨c, hc, rfl⟩ := mem_map.mp hbyte
  simpa using (canvasText_saved hdrawn hc).2

theorem decode_encodeAnsiBytes : decodeCp437Art (encodeAnsiBytes rows) = canvasText rows :=
  decode_encodeCp437Art fun _ hc => (canvasText_saved hdrawn hc).1

end

theorem decodeUtf8_ascii {data : List UInt8} (h : ∀ byte ∈ data, byte < 0x80) :
    (PyStr.decodeUtf8 false data).map (fun text => text.map pictographToGlyph) =
      some (decodeCp437Art data) := by
  have hdecoded : PyStr.decodeUtf8 false data = some (data.map cp437Char) := by
    induction data with
    | nil => rfl
    | cons byte data ih =>
      have hbyte := h byte (.head _)
      unfold PyStr.decodeUtf8
      rw [if_pos hbyte, ih fun other hother => h other (mem_cons_of_mem byte hother)]
      have hchar : cp437Char byte = CodePoint.ofBits byte.toNat [] := by
        unfold cp437Char
        rw [if_pos hbyte]
        rfl
      rw [map_cons, hchar]
      rfl
  rw [hdecoded, Option.map_some, map_map]
  rfl

theorem length_padded (bytes : List UInt8) (size : Nat) (fill : UInt8) :
    (padded bytes size fill).length = size := by
  unfold padded
  rw [length_append, length_replicate, length_take]
  omega

theorem length_sauceField (value : PyStr) (size : Nat) : (sauceField value size).length = size :=
  length_padded _ _ _

theorem clampWord_lt (value : Int) : clampWord value < 65536 := by
  unfold clampWord
  omega

theorem take_filled {value : List UInt8} (h : value.length = size) :
    (value ++ List.replicate size 0).take size = value := by
  rw [← h, take_left]

theorem length_record (args : SauceArgs) :
    (PackedRecord.encode sauceLayout (sauceRecord args)).length = sauceRecordSize :=
  PackedRecord.length_encode _ _

theorem decode_record (args : SauceArgs) :
    PackedRecord.decode sauceLayout (PackedRecord.encode sauceLayout (sauceRecord args)) =
      sauceRecord args := by
  have hrange : PackedRecord.InRange sauceLayout (sauceRecord args) := by
    have hcount : (args.comments.take 255).length < 256 := by
      rw [length_take]
      omega
    have hflags : (if args.iceColors = true then 1 else 0) < 256 := by split <;> omega
    refine ⟨trivial, trivial, trivial, trivial, trivial, trivial, ?_, ?_, ?_, ?_, clampWord_lt _,
      clampWord_lt _, ?_, ?_, hcount, hflags, trivial, trivial⟩
    · exact Nat.mod_lt _ (by omega)
    · exact Nat.mod_lt _ (by omega)
    all_goals show (_ : Nat) < _; omega
  have hread := PackedRecord.decode_encode sauceLayout (sauceRecord args) [] hrange
  rw [append_nil] at hread
  rw [hread]
  unfold sauceRecord sauceLayout
  simp only [PackedRecord.stored, PackedField.stored, take_filled (length_sauceField _ _),
    take_filled (length_padded _ _ _), fontField]
  rfl

theorem recordId_prefix (args : SauceArgs) :
    recordId <+: PackedRecord.encode sauceLayout (sauceRecord args) :=
  ⟨PackedRecord.encode sauceLayout.tail (sauceRecord args).2, rfl⟩

theorem cutAtEof_append (data rest : List UInt8) : cutAtEof (data ++ eof :: rest) = cutAtEof data := by
  unfold cutAtEof
  induction data with
  | nil => rfl
  | cons byte data ih =>
    rw [cons_append, takeWhile_cons, takeWhile_cons, ih]

theorem length_commentLines (lines : List PyStr) :
    (lines.flatMap fun line => sauceField line commentLineSize).length =
      commentLineSize * lines.length := by
  induction lines with
  | nil => rfl
  | cons line lines ih =>
    rw [flatMap_cons, length_append, length_sauceField, ih, length_cons, Nat.mul_succ,
      Nat.add_comm]

theorem commentTexts_lines (lines : List PyStr) :
    commentTexts lines.length (lines.flatMap fun line => sauceField line commentLineSize) =
      lines.map fun line => sauceText (sauceField line commentLineSize) := by
  induction lines with
  | nil => rfl
  | cons line lines ih =>
    have hlength := length_sauceField line commentLineSize
    rw [flatMap_cons, length_cons, commentTexts, take_left' hlength,
      drop_left' hlength, ih, map_cons]

theorem splitComments_block (body : List UInt8) (lines : List PyStr) :
    splitComments (body ++ commentBlock lines) lines.length =
      (body, lines.map fun line => sauceText (sauceField line commentLineSize)) := by
  unfold splitComments commentBlock
  cases lines with
  | nil => simp
  | cons line lines =>
    have hblock : (commentId ++ ((line :: lines).flatMap fun line =>
        sauceField line commentLineSize)).length =
        commentId.length + commentLineSize * (line :: lines).length := by
      rw [length_append, length_commentLines]
    have hlength : (body ++ (commentId ++ ((line :: lines).flatMap fun line =>
        sauceField line commentLineSize))).length -
        (commentId.length + commentLineSize * (line :: lines).length) = body.length := by
      rw [length_append, hblock]
      omega
    have hne : line :: lines ≠ [] := cons_ne_nil line lines
    simp only [if_neg hne, hlength]
    rw [if_pos, take_left, ← drop_drop, drop_left, drop_left, commentTexts_lines]
    refine ⟨Nat.succ_ne_zero _, ?_, ?_⟩
    · rw [length_append, hblock]
      omega
    · rw [drop_left]
      exact prefix_append _ _

/-- The record that is read of one that was built. -/
def sauceOf (args : SauceArgs) : Sauce where
  title := sauceText (sauceField args.title 35)
  author := sauceText (sauceField args.author 20)
  group := sauceText (sauceField args.group 20)
  date := sauceText (sauceField args.date 8)
  fileSize := args.fileSize % 65536 + 65536 * (args.fileSize / 65536 % 65536)
  dataType := 1
  fileType := 1
  tinfo1 := clampWord args.width
  tinfo2 := clampWord args.lines
  tinfo3 := 0
  tinfo4 := 0
  tflags := if args.iceColors = true then 1 else 0
  font := sauceText (fontField args.font)
  comments := (args.comments.take 255).map fun line => sauceText (sauceField line commentLineSize)

theorem splitSauce_buildSauce (data : List UInt8) (args : SauceArgs) :
    splitSauce (data ++ buildSauce args) = (cutAtEof data, some (sauceOf args)) := by
  have hlength := length_record args
  have hwhole : data ++ buildSauce args = (data ++ [eof] ++ commentBlock (args.comments.take 255)) ++
      PackedRecord.encode sauceLayout (sauceRecord args) := by
    unfold buildSauce
    simp
  have hstart : (data ++ buildSauce args).length - sauceRecordSize =
      (data ++ [eof] ++ commentBlock (args.comments.take 255)).length := by
    rw [hwhole, length_append, hlength, Nat.add_sub_cancel]
  have hroom : sauceRecordSize ≤ (data ++ buildSauce args).length := by
    rw [hwhole, length_append, hlength]
    omega
  have hdrop : (data ++ buildSauce args).drop ((data ++ buildSauce args).length - sauceRecordSize) =
      PackedRecord.encode sauceLayout (sauceRecord args) := by
    rw [hstart, hwhole, drop_left]
  have htake : (data ++ buildSauce args).take ((data ++ buildSauce args).length - sauceRecordSize) =
      data ++ [eof] ++ commentBlock (args.comments.take 255) := by
    rw [hstart, hwhole, take_left]
  unfold splitSauce
  simp only
  rw [if_pos ⟨hroom, hdrop ▸ recordId_prefix args⟩, hdrop, htake, decode_record]
  unfold sauceRecord
  simp only
  rw [splitComments_block]
  simp only [cutAtEof_append]
  rfl

structure FitsField (text : PyStr) (size : Nat) : Prop where
  length : text.length ≤ size
  encodable : ∀ c ∈ text, (cp437Byte c).isSome = true
  last : ∀ h : text ≠ [], text.getLast h ≠ 0 ∧ text.getLast h ≠ 0x20

theorem rdropWhile_filled {fill : CodePoint} (hfill : fill = 0 ∨ fill = 0x20)
    (hlast : ∀ h : text ≠ [], text.getLast h ≠ 0 ∧ text.getLast h ≠ 0x20) (count : Nat) :
    (text ++ List.replicate count fill).rdropWhile (fun c => c = 0 || c = 0x20) = text := by
  induction count with
  | zero =>
    rw [replicate_zero, append_nil, rdropWhile_eq_self_iff]
    intro hne
    simpa using hlast hne
  | succ count ih =>
    have hdropped : (fill = 0 || fill = 0x20 : Bool) = true := by simpa using hfill
    have hstrip := rdropWhile_concat_pos (fun c : CodePoint => c = 0 || c = 0x20)
      (text ++ List.replicate count fill) fill hdropped
    rw [replicate_succ', ← append_assoc, hstrip, ih]

theorem sauceText_padded {bytes : List UInt8} {fill : UInt8}
    (hbytes : bytes.map cp437Char = text) (hlength : text.length ≤ size)
    (hfill : cp437Char fill = 0 ∨ cp437Char fill = 0x20)
    (hlast : ∀ h : text ≠ [], text.getLast h ≠ 0 ∧ text.getLast h ≠ 0x20) :
    sauceText (padded bytes size fill) = text := by
  have hsize : bytes.length ≤ size := by
    rw [← hbytes, length_map] at hlength
    exact hlength
  unfold sauceText padded
  rw [take_of_length_le hsize, map_append, hbytes, map_replicate]
  exact rdropWhile_filled hfill hlast _

theorem sauceText_sauceField (h : FitsField text size) :
    sauceText (sauceField text size) = text := by
  apply sauceText_padded _ h.length (.inr (by decide +kernel)) h.last
  rw [map_map]
  conv_rhs => rw [← map_id text]
  apply map_congr_left
  intro c hc
  obtain ⟨byte, hbyte⟩ := Option.isSome_iff_exists.mp (h.encodable c hc)
  show cp437Char ((cp437Byte c).getD 0x3F) = c
  rw [hbyte]
  exact cp437Char_cp437Byte hbyte

theorem sauceText_fontField (h : FitsField text 22) (hascii : ∀ c ∈ text, c.val < 0x80) :
    sauceText (fontField text) = text := by
  apply sauceText_padded _ h.length (.inl (by decide +kernel)) h.last
  rw [map_map]
  conv_rhs => rw [← map_id text]
  apply map_congr_left
  intro c hc
  have hbyte : cp437Byte c = some (UInt8.ofNat c.val) := by
    unfold cp437Byte
    rw [if_pos (hascii c hc)]
  show cp437Char (if c.val < 0x80 then UInt8.ofNat c.val else 0x3F) = c
  rw [if_pos (hascii c hc)]
  exact cp437Char_cp437Byte hbyte

/-- Arguments that a record holds as they are. -/
structure SauceArgs.Fits (args : SauceArgs) : Prop where
  width : 0 ≤ args.width ∧ args.width ≤ 0xFFFF
  lines : 0 ≤ args.lines ∧ args.lines ≤ 0xFFFF
  title : FitsField args.title 35
  author : FitsField args.author 20
  group : FitsField args.group 20
  date : FitsField args.date 8
  font : FitsField args.font 22
  fontAscii : ∀ c ∈ args.font, c.val < 0x80
  fileSize : args.fileSize < 2 ^ 32
  count : args.comments.length ≤ 255
  comments : ∀ line ∈ args.comments, FitsField line commentLineSize

structure SameFields (args : SauceArgs) (sauce : Sauce) : Prop where
  width : (sauce.tinfo1 : Int) = args.width
  lines : (sauce.tinfo2 : Int) = args.lines
  title : sauce.title = args.title
  author : sauce.author = args.author
  group : sauce.group = args.group
  date : sauce.date = args.date
  iceColors : sauce.tflags = if args.iceColors = true then 1 else 0
  font : sauce.font = args.font
  fileSize : sauce.fileSize = args.fileSize
  comments : sauce.comments = args.comments

theorem sameFields_sauceOf {args : SauceArgs} (h : args.Fits) : SameFields args (sauceOf args) where
  width := by
    obtain ⟨hlow, hhigh⟩ := h.width
    show ((clampWord args.width : Nat) : Int) = args.width
    unfold clampWord
    omega
  lines := by
    obtain ⟨hlow, hhigh⟩ := h.lines
    show ((clampWord args.lines : Nat) : Int) = args.lines
    unfold clampWord
    omega
  title := sauceText_sauceField h.title
  author := sauceText_sauceField h.author
  group := sauceText_sauceField h.group
  date := sauceText_sauceField h.date
  iceColors := rfl
  font := sauceText_fontField h.font h.fontAscii
  fileSize := by
    have hsize := h.fileSize
    show args.fileSize % 65536 + 65536 * (args.fileSize / 65536 % 65536) = args.fileSize
    omega
  comments := by
    show (args.comments.take 255).map (fun line => sauceText (sauceField line commentLineSize)) = _
    rw [take_of_length_le h.count]
    conv_rhs => rw [← map_id args.comments]
    apply map_congr_left
    intro line hline
    exact sauceText_sauceField (h.comments line hline)

structure Canvas where
  width : Nat
  rows : List (List Cell)
  positive : 0 < width
  rectangular : ∀ row ∈ rows, row.length = width
  drawn : ∀ row ∈ rows, ∀ cell ∈ row, IsDrawn cell

def LooksSauced (data : List UInt8) : Prop :=
  sauceRecordSize ≤ data.length ∧ recordId <+: data.drop (data.length - sauceRecordSize)

/-- Saved art opens as it was drawn: with a SAUCE record always, without one where the bytes do not pass
for UTF-8 and do not end like a record. -/
theorem savedArt_spec (reader : NumberReader) :
    (∀ (canvas : Canvas) (args : SauceArgs), loadArt reader canvas.width canvas.rows.length
        (encodeAnsiBytes canvas.rows ++ buildSauce args) = some canvas.rows) ∧
    (∀ canvas : Canvas, ¬LooksSauced (encodeAnsiBytes canvas.rows) →
      (PyStr.decodeUtf8 false (encodeAnsiBytes canvas.rows) = none ∨
        ∀ byte ∈ encodeAnsiBytes canvas.rows, byte < 0x80) →
      loadArt reader canvas.width canvas.rows.length (encodeAnsiBytes canvas.rows) = some canvas.rows) ∧
    (∀ (data : List UInt8) (args : SauceArgs),
      splitSauce (data ++ buildSauce args) = (cutAtEof data, some (sauceOf args)) ∧
        (eof ∉ data → cutAtEof data = data) ∧ (args.Fits → SameFields args (sauceOf args))) := by
  have hload (canvas : Canvas) := parse_canvasText reader canvas.positive rfl canvas.rectangular
    canvas.drawn
  refine ⟨?record, ?plain, ?split⟩
  case record =>
    intro canvas args
    have hsplit := splitSauce_buildSauce (encodeAnsiBytes canvas.rows) args
    rw [cutAtEof_encodeAnsiBytes canvas.drawn] at hsplit
    unfold loadArt decodeArtBytes
    simp only [hsplit]
    rw [if_pos (show (some (sauceOf args)).isSome = true from rfl),
      decode_encodeAnsiBytes canvas.drawn]
    exact hload canvas
  case plain =>
    intro canvas hplain hguess
    have hsplit : splitSauce (encodeAnsiBytes canvas.rows) = (encodeAnsiBytes canvas.rows, none) := by
      unfold LooksSauced at hplain
      unfold splitSauce
      simp only
      rw [if_neg hplain, cutAtEof_encodeAnsiBytes canvas.drawn]
    unfold loadArt decodeArtBytes
    simp only [hsplit]
    rw [if_neg (by simp)]
    rcases hguess with hnone | hascii
    · rw [hnone]
      simp only
      rw [decode_encodeAnsiBytes canvas.drawn]
      exact hload canvas
    · obtain ⟨text, hdecoded, htext⟩ := Option.map_eq_some_iff.mp (decodeUtf8_ascii hascii)
      rw [hdecoded]
      simp only
      rw [htext, decode_encodeAnsiBytes canvas.drawn]
      exact hload canvas
  case split =>
    intro data args
    refine ⟨splitSauce_buildSauce data args, ?_, sameFields_sauceOf⟩
    intro hnone
    apply takeWhile_eq_self_iff.mpr
    intro byte hbyte
    have hne : byte ≠ eof := fun hsame => hnone (hsame ▸ hbyte)
    simpa using hne

/-- `├⌐`, whose bytes are `é` in UTF-8. -/
def accentCanvas : List (List Cell) := [[{ char := [0x251C] }, { char := [0x2310] }]]

/-- `int` of ASCII digits. -/
def digitReader : NumberReader where
  int text :=
    if isAsciiNumber text = true ∧ text.length ≤ maxStrDigits then some (digitsValue text) else none
  int_digits _ hnumber hlength := if_pos ⟨hnumber, hlength⟩

/-- Without a SAUCE record the two glyphs open as one other character. -/
theorem accentCanvas_misread : loadArt digitReader 2 1 (encodeAnsiBytes accentCanvas) =
      some [[{ char := [0xE9] }, blankCell]] := by
  have hbytes : encodeAnsiBytes accentCanvas =
      [0x1B, 0x5B, 0x30, 0x6D, 0xC3, 0xA9, 0x0D, 0x0A, 0x1B, 0x5B, 0x30, 0x6D] := by
    decide +kernel
  have hdecoded : (decodeArtBytes
      [0x1B, 0x5B, 0x30, 0x6D, 0xC3, 0xA9, 0x0D, 0x0A, 0x1B, 0x5B, 0x30, 0x6D]).1 =
      sgrText [0] ++ (0xE9 :: 0x0D :: 0x0A :: (sgrText [0] ++ [])) := by
    decide +kernel
  unfold loadArt
  rw [hbytes, hdecoded, parse_sgrText digitReader _ (by simp) (by simp),
    parse_put digitReader (by decide) (by decide) (by decide) rfl, parse_cr, parse_lf,
    parse_sgrText digitReader _ (by simp) (by simp), ArtParser.parse]
  rfl

end NetBBS.Rendering
