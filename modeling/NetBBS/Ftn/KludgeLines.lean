import NetBBS.Ftn.EncodedText
import NetBBS.Ftn.NetNodeLines

/-! # Kludge lines read back -/

namespace NetBBS

open Foundation List Text

variable {lib : TextLibrary}

structure ReadableKludge (kludge : Text × Text) : Prop where
  name : ∀ c ∈ kludge.1, Text.isSpace c = false ∧ c ≠ ':'
  value : strip kludge.2 = kludge.2
  cr : '\r' ∉ kludge.2
  lf : '\n' ∉ kludge.2

variable (lib) in
structure CleanKludge (kludge : Text × Text) : Prop extends ReadableKludge kludge where
  notPath : lib.upper kludge.1 ≠ "PATH".toList

variable {line : Text} {kludge : Text × Text} {lines : List Text}

theorem readableKludge_split (hcr : '\r' ∉ line) (hlf : '\n' ∉ line) :
    ReadableKludge (splitKludge line) := by
  have hvalue : ∀ c ∈ (splitKludge line).2, c ∈ line := by
    intro c hc
    unfold splitKludge at hc
    have hrest := dropWhile_sublist (p := Text.isSpace) |>.subset
      ((List.rdropWhile_prefix _ _).subset hc)
    have hin : c ∈ line.dropWhile fun c => !Text.isSpace c && c != ':' := by
      split at hrest
      · exact mem_of_mem_tail hrest
      · exact hrest
    exact (dropWhile_sublist _).subset hin
  refine ⟨fun c hc => ?_, strip_idempotent _, fun h => hcr (hvalue _ h), fun h => hlf (hvalue _ h)⟩
  have hname := mem_takeWhile_imp hc
  simpa using hname

variable (lib) in
theorem splitKludge_format (h : ReadableKludge kludge) :
    splitKludge (formatKludge lib kludge).tail = kludge := by
  obtain ⟨name, value⟩ := kludge
  have hname : ∀ c ∈ name, (!Text.isSpace c && c != ':') = true := by
    intro c hc
    obtain ⟨hspace, hcolon⟩ := h.name c hc
    simp [hspace, hcolon]
  have hstrip : strip (' ' :: value) = value := h.value
  unfold formatKludge splitKludge
  simp only [cons_append, tail_cons, append_assoc]
  rw [takeWhile_append_of_pos hname, dropWhile_append_of_pos hname]
  split
  · simp [hstrip, Text.isSpace]
  · simp [hstrip]

theorem not_mem_formatKludge (h : ReadableKludge kludge) :
    '\r' ∉ formatKludge lib kludge ∧ '\n' ∉ formatKludge lib kludge := by
  have hname : ∀ c ∈ kludge.1, Text.isSpace c = false := fun c hc => (h.name c hc).1
  have hcr : '\r' ∉ kludge.1 := fun hmem => absurd (hname _ hmem) (by decide)
  have hlf : '\n' ∉ kludge.1 := fun hmem => absurd (hname _ hmem) (by decide)
  have hmark : kludgeMark ≠ '\r' ∧ kludgeMark ≠ '\n' := by decide
  unfold formatKludge
  simp only [mem_append, mem_cons, not_or]
  constructor
  · refine ⟨⟨⟨hmark.1.symm, hcr⟩, ?_⟩, h.cr⟩
    split <;> decide
  · refine ⟨⟨⟨hmark.2.symm, hlf⟩, ?_⟩, h.lf⟩
    split <;> decide

theorem sortLines_clean {inBody : Bool} {sorted : SortedLines}
    (h : sortLines lib inBody lines = .ok sorted) (hlines : ∀ line ∈ lines, '\r' ∉ line ∧ '\n' ∉ line) :
    ∀ kludge ∈ sorted.kludges ++ sorted.trailingKludges, CleanKludge lib kludge := by
  induction lines generalizing inBody sorted with
  | nil =>
    rw [← Except.ok.inj h]
    exact fun kludge hmem => absurd hmem not_mem_nil
  | cons line rest ih =>
    obtain ⟨⟨hcr, hlf⟩, hrest⟩ := forall_mem_cons.mp hlines
    by_cases hmark : line.head? = some kludgeMark
    · by_cases hpath : lib.upper (splitKludge line.tail).1 = "PATH".toList
      · rw [sortLines_cons_path inBody rest hmark hpath] at h
        simp only [bind_eq_ok, pure_eq_ok] at h
        obtain ⟨_, _, _, hsorted, rfl⟩ := h
        have hkludges := ih hsorted hrest
        exact hkludges
      · rw [sortLines_cons_kludge inBody rest hmark hpath] at h
        simp only [bind_eq_ok] at h
        obtain ⟨more, hmore, hsorted⟩ := h
        have hclean : CleanKludge lib (splitKludge line.tail) :=
          ⟨readableKludge_split (fun hmem => hcr (mem_of_mem_tail hmem))
            (fun hmem => hlf (mem_of_mem_tail hmem)), hpath⟩
        have hkludges := ih hmore hrest
        cases inBody with
        | true =>
          rw [if_pos rfl, pure_eq_ok] at hsorted
          subst hsorted
          intro kludge hkludge
          rcases mem_append.mp hkludge with hkludge | hkludge
          · exact hkludges kludge (mem_append_left _ hkludge)
          · rcases mem_cons.mp hkludge with rfl | hkludge
            · exact hclean
            · exact hkludges kludge (mem_append_right _ hkludge)
        | false =>
          rw [if_neg Bool.false_ne_true, pure_eq_ok] at hsorted
          subst hsorted
          exact forall_mem_cons.mpr ⟨hclean, hkludges⟩
    · rw [sortLines_cons_content inBody rest hmark] at h
      simp only [bind_eq_ok, pure_eq_ok] at h
      obtain ⟨more, hmore, rfl⟩ := h
      have hkludges := ih hmore hrest
      exact hkludges

def SortedLines.withKludges (inBody : Bool) (kludges : List (Text × Text)) (sorted : SortedLines) :
    SortedLines :=
  if inBody = true then { sorted with trailingKludges := kludges ++ sorted.trailingKludges }
  else { sorted with kludges := kludges ++ sorted.kludges }

theorem sortLines_kludges (inBody : Bool) {kludges : List (Text × Text)} (rest : List Text)
    (h : ∀ kludge ∈ kludges, CleanKludge lib kludge) :
    sortLines lib inBody (kludges.map (formatKludge lib) ++ rest) = (do
      let sorted ← sortLines lib inBody rest
      pure (sorted.withKludges inBody kludges)) := by
  induction kludges with
  | nil =>
    rw [map_nil, nil_append]
    cases sortLines lib inBody rest <;> cases inBody <;> rfl
  | cons kludge kludges ih =>
    obtain ⟨hkludge, hkludges⟩ := forall_mem_cons.mp h
    have hsplit := splitKludge_format lib hkludge.toReadableKludge
    rw [map_cons, cons_append, sortLines_cons_kludge inBody _ rfl
      (by rw [hsplit]; exact hkludge.notPath), ih hkludges, hsplit]
    cases sortLines lib inBody rest <;> cases inBody <;> rfl

theorem sortLines_content (inBody : Bool) {content : List Text} (rest : List Text)
    (h : ∀ line ∈ content, line.head? ≠ some kludgeMark) :
    sortLines lib inBody (content ++ rest) = (do
      let sorted ← sortLines lib (inBody || !content.isEmpty) rest
      pure { sorted with content := content ++ sorted.content }) := by
  induction content generalizing inBody with
  | nil =>
    rw [nil_append, isEmpty_nil, Bool.not_true, Bool.or_false]
    cases sortLines lib inBody rest <;> rfl
  | cons line content ih =>
    obtain ⟨hline, hcontent⟩ := forall_mem_cons.mp h
    rw [cons_append, sortLines_cons_content inBody _ hline, ih true hcontent]
    simp only [Bool.true_or, isEmpty_cons, Bool.not_false, Bool.or_true]
    cases sortLines lib true rest <;> rfl

private theorem upper_path (hlib : lib.Standard) : lib.upper "PATH".toList = "PATH".toList :=
  (hlib.upper_ascii _ (all_iff_forall_prop.mp (by decide))).trans (by decide)

private theorem splitKludge_path (hlib : lib.Standard) {entries : List (Nat × Nat)}
    (h : SpelledLine "PATH: ".toList line entries) :
    splitKludge line = ("PATH".toList, line.drop "PATH: ".toList.length) := by
  obtain ⟨tokens, last, -, hspelled, rfl⟩ := h
  rw [drop_left]
  have hwords := hspelled.isWord
  have hin : ∀ {c : Char}, c ∈ join ' ' tokens → c = ' ' ∨ Text.isSpace c = false := by
    intro c hc
    rcases mem_join hc with hc | ⟨word, hword, hc⟩
    · exact .inl hc
    · exact .inr ((hwords word hword).2 c hc)
  have hname : ∀ c ∈ "PATH".toList, Text.isSpace c = false ∧ c ≠ ':' :=
    all_iff_forall_prop.mp (by decide)
  have hreadable : ReadableKludge ("PATH".toList, join ' ' tokens) :=
    { name := hname
      value := strip_join hwords
      cr := fun hmem => (hin hmem).elim (by decide) (by decide)
      lf := fun hmem => (hin hmem).elim (by decide) (by decide) }
  have hsplit := splitKludge_format lib hreadable
  have hbare : lib.upper "PATH".toList ∉ bareKludges := by
    rw [upper_path hlib]
    decide
  unfold formatKludge at hsplit
  simp only [if_neg hbare] at hsplit
  exact hsplit

theorem sortLines_paths (hlib : lib.Standard) (inBody : Bool)
    {parts : List (List (Nat × Nat))} (h : List.Forall₂ (SpelledLine "PATH: ".toList) lines parts)
    (hrange : ∀ entry ∈ parts.flatten, InRange entry) :
    sortLines lib inBody (lines.map (kludgeMark :: ·)) = .ok ⟨[], [], parts.flatten, []⟩ := by
  induction h with
  | nil => rfl
  | @cons line part lines parts hline hlines ih =>
    rw [flatten_cons] at hrange ⊢
    obtain ⟨hpart, hparts⟩ := forall_mem_append.mp hrange
    have hsplit : splitKludge (kludgeMark :: line).tail =
        ("PATH".toList, line.drop "PATH: ".toList.length) := splitKludge_path hlib hline
    rw [map_cons, sortLines_cons_path inBody _ rfl (by rw [hsplit]; exact upper_path hlib),
      hsplit, (hline.parse hlib.decimal_digit hpart).1, ok_bind, ih hparts, ok_bind]
    rfl

end NetBBS
