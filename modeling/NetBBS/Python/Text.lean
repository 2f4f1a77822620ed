import Mathlib.Data.List.DropRight

/-! # Text as the program takes it apart -/

namespace NetBBS

open List

abbrev Text := List Char

namespace Text

/-- `str.isspace` of one character. -/
def isSpace (c : Char) : Bool :=
  let code := c.toNat
  (0x09 ≤ code && code ≤ 0x0D) || (0x1C ≤ code && code ≤ 0x20) || code == 0x85 || code == 0xA0 ||
    code == 0x1680 || (0x2000 ≤ code && code ≤ 0x200A) || code == 0x2028 || code == 0x2029 ||
    code == 0x202F || code == 0x205F || code == 0x3000

def lstrip (text : Text) : Text := text.dropWhile isSpace

def rstrip (text : Text) : Text := text.rdropWhile isSpace

def strip (text : Text) : Text := rstrip (lstrip text)

/-- `text.split()`, with the word being read. -/
def splitFrom (word : Text) : Text → List Text
  | [] => if word = [] then [] else [word]
  | c :: rest =>
    if isSpace c then
      if word = [] then splitFrom [] rest else word :: splitFrom [] rest
    else splitFrom (word ++ [c]) rest

def split (text : Text) : List Text := splitFrom [] text

/-- `text.split(sep, 1)[0]`, and the head of `text.partition(sep)`. -/
def before (sep : Char) (text : Text) : Text := text.takeWhile (· ≠ sep)

/-- `text.split(sep, 1)[1]` of a text with a `sep`, and the tail of `text.partition(sep)`. -/
def after (sep : Char) (text : Text) : Text := (text.dropWhile (· ≠ sep)).tail

/-- `text.startswith(start)`. -/
def startsWith (text : Text) (start : String) : Bool := start.toList.isPrefixOf text

/-- `text.replace(c, "")`. -/
def remove (c : Char) (text : Text) : Text := text.filter (· ≠ c)

/-- `sep.join(lines)`. -/
def join (sep : Char) (lines : List Text) : Text := [sep].intercalate lines

/-- What `str.split` returns a list of. -/
def IsWord (word : Text) : Prop := word ≠ [] ∧ ∀ c ∈ word, isSpace c = false

variable {c sep : Char} {lines : List Text} {text : Text}

theorem join_cons (line : Text) (h : lines ≠ []) :
    join sep (line :: lines) = line ++ sep :: join sep lines := by
  unfold join
  rw [intercalate_cons_of_ne_nil h, append_assoc]
  rfl

theorem join_snoc (line : Text) (h : lines ≠ []) :
    join sep (lines ++ [line]) = join sep lines ++ sep :: line := by
  induction lines with
  | nil => exact absurd rfl h
  | cons first rest ih =>
    cases rest with
    | nil => simp [join, intercalate_cons_cons]
    | cons second rest =>
      rw [cons_append, join_cons first (by simp), ih (by simp), join_cons first (by simp)]
      simp

private theorem splitFrom_append {word : Text} (h : ∀ c ∈ word, isSpace c = false)
    (held rest : Text) : splitFrom held (word ++ rest) = splitFrom (held ++ word) rest := by
  induction word generalizing held with
  | nil => simp
  | cons c word ih =>
    obtain ⟨hc, hword⟩ := forall_mem_cons.mp h
    rw [cons_append, splitFrom, if_neg (by simp [hc]), ih hword, append_assoc]
    rfl

theorem split_cons_space (text : Text) : split (' ' :: text) = split text := by
  have hspace : isSpace ' ' = true := by decide
  rw [split, splitFrom, if_pos hspace, if_pos rfl]
  rfl

theorem split_join {words : List Text} (h : ∀ word ∈ words, IsWord word) :
    split (join ' ' words) = words := by
  induction words with
  | nil => rfl
  | cons word rest ih =>
    obtain ⟨⟨hne, hword⟩, hrest⟩ := forall_mem_cons.mp h
    cases rest with
    | nil =>
      have hjoin : join ' ' [word] = word ++ [] := by simp [join]
      rw [hjoin, split, splitFrom_append hword, nil_append, splitFrom, if_neg hne]
    | cons next rest =>
      have hspace : isSpace ' ' = true := by decide
      rw [join_cons word (by simp), split, splitFrom_append hword, nil_append, splitFrom,
        if_pos hspace, if_neg hne]
      exact congrArg (word :: ·) (ih hrest)

theorem rstrip_eq_self (h : ∀ c, text.getLast? = some c → isSpace c = false) :
    rstrip text = text := by
  unfold rstrip
  rw [rdropWhile_eq_self_iff]
  intro hne
  rw [h _ (getLast?_eq_some_getLast hne)]
  exact Bool.false_ne_true

theorem lstrip_eq_self (h : ∀ c, text.head? = some c → isSpace c = false) :
    lstrip text = text := by
  cases text with
  | nil => rfl
  | cons c rest => exact dropWhile_cons_of_neg (by simp [h c rfl])

theorem rstrip_append (a b : Text) :
    rstrip (a ++ b) = if rstrip b = [] then rstrip a else a ++ rstrip b := by
  unfold rstrip List.rdropWhile
  rw [reverse_append, dropWhile_append]
  by_cases hb : b.reverse.dropWhile isSpace = [] <;> simp [hb]

theorem rstrip_idempotent (text : Text) : rstrip (rstrip text) = rstrip text :=
  rdropWhile_idempotent _ _

theorem strip_idempotent (text : Text) : strip (strip text) = strip text := by
  have hhead : ∀ c, (strip text).head? = some c → isSpace c = false := by
    intro c hc
    have hlstrip : (lstrip text).head? = some c := by
      obtain ⟨rest, hrest⟩ := rdropWhile_prefix isSpace (l := lstrip text)
      cases hstrip : strip text with
      | nil => simp [hstrip] at hc
      | cons d more =>
        rw [hstrip] at hc
        unfold strip rstrip at hstrip
        rw [← hrest, hstrip]
        exact hc
    have hdrop := head?_dropWhile_not isSpace text
    unfold lstrip at hlstrip
    rw [hlstrip] at hdrop
    simpa using hdrop
  have hlstrip : lstrip (strip text) = strip text := lstrip_eq_self hhead
  unfold strip at *
  rw [hlstrip]
  exact rdropWhile_idempotent _ _

theorem mem_of_mem_rstrip (h : c ∈ rstrip text) : c ∈ text :=
  (List.rdropWhile_prefix _ _).subset h

theorem remove_append (c : Char) (a b : Text) : remove c (a ++ b) = remove c a ++ remove c b := by
  unfold remove
  exact filter_append a b

theorem mem_remove {d : Char} : d ∈ remove c text ↔ d ∈ text ∧ d ≠ c := by
  simp [remove]

theorem remove_eq_self (h : c ∉ text) : remove c text = text :=
  filter_eq_self.mpr fun d hd => by
    simpa using fun heq : d = c => h (heq ▸ hd)

theorem mem_join (h : c ∈ join sep lines) : c = sep ∨ ∃ line ∈ lines, c ∈ line := by
  induction lines with
  | nil => exact absurd h not_mem_nil
  | cons line rest ih =>
    cases rest with
    | nil => exact .inr ⟨line, .head _, by simpa [join] using h⟩
    | cons next rest =>
      rw [join_cons line (by simp), mem_append, mem_cons] at h
      rcases h with h | h | h
      · exact .inr ⟨line, .head _, h⟩
      · exact .inl h
      · rcases ih h with h | ⟨other, hother, hc⟩
        · exact .inl h
        · exact .inr ⟨other, .tail _ hother, hc⟩

theorem strip_join {words : List Text} (h : ∀ word ∈ words, IsWord word) :
    strip (join ' ' words) = join ' ' words := by
  have hhead : ∀ c, (join ' ' words).head? = some c → isSpace c = false := by
    intro c hc
    cases words with
    | nil => simp [join] at hc
    | cons word rest =>
      obtain ⟨hne, hword⟩ := h word (.head _)
      obtain ⟨first, more, rfl⟩ := exists_cons_of_ne_nil hne
      have hfirst : (join ' ' ((first :: more) :: rest)).head? = some first := by
        cases rest with
        | nil => simp [join]
        | cons next rest => rw [join_cons _ (by simp)]; rfl
      rw [hfirst] at hc
      exact hword c (Option.some.inj hc ▸ mem_cons_self)
  have hlast : ∀ c, (join ' ' words).getLast? = some c → isSpace c = false := by
    intro c hc
    rcases eq_nil_or_concat words with rfl | ⟨front, word, rfl⟩
    · simp [join] at hc
    · obtain ⟨hne, hword⟩ := h word (by simp)
      have hend : (join ' ' (front ++ [word])).getLast? = word.getLast? := by
        cases front with
        | nil => simp [join]
        | cons first front =>
          rw [join_snoc word (by simp), getLast?_append_of_ne_nil _ (by simp),
            getLast?_cons, getLast?_eq_some_getLast hne, Option.getD_some]
      rw [concat_eq_append, hend] at hc
      exact hword c (mem_of_getLast? hc)
  unfold strip
  rw [lstrip_eq_self hhead, rstrip_eq_self hlast]

end Text

end NetBBS
