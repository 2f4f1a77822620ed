import NetBBS.Ftn.Message

/-! # What a SEEN-BY or PATH list says -/

namespace NetBBS

open Foundation List Text

variable (lib : TextLibrary)

/-- `int` reads the text. -/
def IntReads (text : Text) : Prop :=
  text.length ≤ maxIntDigits ∧ ∀ c ∈ text, (lib.decimal c).isSome = true

instance (text : Text) : Decidable (IntReads lib text) :=
  @instDecidableAnd _ _ (Nat.decLe _ _) (List.decidableBAll _ _)

def IsPairToken (token : Text) : Prop :=
  '/' ∈ netNodeToken token ∧ isDigitText lib (before '/' (netNodeToken token)) = true ∧
    isDigitText lib (after '/' (netNodeToken token)) = true

def IsBareToken (token : Text) : Prop :=
  '/' ∉ netNodeToken token ∧ isDigitText lib (netNodeToken token) = true

instance (token : Text) : Decidable (IsPairToken lib token) := by
  unfold IsPairToken
  infer_instance

instance (token : Text) : Decidable (IsBareToken lib token) := by
  unfold IsBareToken
  infer_instance

structure TokensReadable (held : Prop) (tokens : List Text) : Prop where
  pairs : ∀ token ∈ tokens, IsPairToken lib token →
    IntReads lib (before '/' (netNodeToken token)) ∧
      IntReads lib (after '/' (netNodeToken token))
  bare : ∀ first token rest, tokens = first ++ token :: rest →
    (held ∨ ∃ pair ∈ first, IsPairToken lib pair) → IsBareToken lib token →
    IntReads lib (netNodeToken token)

inductive NetNodeToken where
  | pair (net node : Nat)
  | bare (node : Nat)
  | unreadable

def decimalNumber (text : Text) : Option Nat :=
  if text = [] then none
  else (text.mapM lib.decimal).map fun digits => digits.foldl (fun n digit => 10 * n + digit) 0

def readToken (token : Text) : NetNodeToken :=
  let token := netNodeToken token
  if '/' ∈ token then
    match decimalNumber lib (before '/' token), decimalNumber lib (after '/' token) with
    | some net, some node => .pair net node
    | _, _ => .unreadable
  else
    match decimalNumber lib token with
    | some node => .bare node
    | none => .unreadable

def entriesFrom (net : Option Nat) : List NetNodeToken → List (Nat × Nat)
  | [] => []
  | .pair net node :: rest => keepNetNode net node (entriesFrom (some net) rest)
  | .bare node :: rest =>
    match net with
    | some held => keepNetNode held node (entriesFrom net rest)
    | none => entriesFrom net rest
  | .unreadable :: rest => entriesFrom net rest

def readNetNodes (text : Text) : List (Nat × Nat) :=
  entriesFrom none ((split text).map (readToken lib))

variable {lib}

theorem mapM_decimal_isSome (text : Text) :
    (text.mapM lib.decimal).isSome = true ↔ ∀ c ∈ text, (lib.decimal c).isSome = true := by
  induction text with
  | nil => simp
  | cons c rest ih =>
    rw [mapM_cons]
    cases hc : lib.decimal c with
    | none => simp [hc]
    | some digit => cases hrest : rest.mapM lib.decimal <;> simp_all

variable {text token : Text} {net : Option Nat}

theorem intOfDigits_of_reads (hreads : IntReads lib text) (hne : text ≠ []) :
    ∃ n, decimalNumber lib text = some n ∧ intOfDigits lib text = .ok n := by
  obtain ⟨hlength, hdecimal⟩ := hreads
  obtain ⟨digits, hdigits⟩ := Option.isSome_iff_exists.mp ((mapM_decimal_isSome text).mpr hdecimal)
  refine ⟨digits.foldl (fun n digit => 10 * n + digit) 0, ?_, ?_⟩
  · unfold decimalNumber
    rw [if_neg hne, hdigits, Option.map_some]
  · unfold intOfDigits
    rw [refuseIf_neg (by omega), ok_bind, hdigits, orRefuse_some, ok_bind]
    rfl

variable {n node : Nat} {tokens : List Text}

theorem reads_of_intOfDigits (h : intOfDigits lib text = .ok n) : IntReads lib text := by
  simp only [intOfDigits, bind_eq_ok, refuseIf_eq_ok, orRefuse_eq_ok, not_lt] at h
  obtain ⟨-, hlength, digits, hdigits, -⟩ := h
  exact ⟨hlength, (mapM_decimal_isSome text).mp (Option.isSome_iff_exists.mpr ⟨digits, hdigits⟩)⟩

theorem ne_nil_of_isDigitText (h : isDigitText lib text = true) : text ≠ [] := by
  rintro rfl
  exact absurd h Bool.false_ne_true

theorem tokensReadable_cons (held : Prop) (token : Text) (rest : List Text) :
    TokensReadable lib held (token :: rest) ↔
      (IsPairToken lib token → IntReads lib (before '/' (netNodeToken token)) ∧
        IntReads lib (after '/' (netNodeToken token))) ∧
      (held → IsBareToken lib token → IntReads lib (netNodeToken token)) ∧
      TokensReadable lib (held ∨ IsPairToken lib token) rest := by
  constructor
  · rintro ⟨hpairs, hbare⟩
    refine ⟨hpairs token (.head _), fun hheld => hbare [] token rest rfl (.inl hheld), ?_⟩
    refine ⟨fun other hother => hpairs other (.tail _ hother), ?_⟩
    intro first other after hrest hbefore
    refine hbare (token :: first) other after (by rw [hrest, cons_append]) ?_
    rcases hbefore with (hheld | htoken) | ⟨pair, hpair, his⟩
    · exact .inl hheld
    · exact .inr ⟨token, .head _, htoken⟩
    · exact .inr ⟨pair, .tail _ hpair, his⟩
  · rintro ⟨hpair, hbare, hrest⟩
    refine ⟨fun other hother => ?_, fun first other after hsplit hbefore => ?_⟩
    · rcases mem_cons.mp hother with rfl | hother
      · exact hpair
      · exact hrest.pairs other hother
    · cases first with
      | nil =>
        obtain ⟨rfl, rfl⟩ := List.cons.inj hsplit
        rcases hbefore with hheld | ⟨pair, hmem, -⟩
        · exact hbare hheld
        · exact absurd hmem not_mem_nil
      | cons head first =>
        obtain ⟨rfl, hafter⟩ := List.cons.inj hsplit
        refine hrest.bare first other after hafter ?_
        rcases hbefore with hheld | ⟨pair, hmem, his⟩
        · exact .inl (.inl hheld)
        · rcases mem_cons.mp hmem with rfl | hmem
          · exact .inl (.inr his)
          · exact .inr ⟨pair, hmem, his⟩

theorem isDigitText_of_decimalNumber (h : decimalNumber lib text = some n) :
    isDigitText lib text = true := by
  unfold decimalNumber at h
  split at h
  · exact absurd h (by simp)
  · rename_i hne
    obtain ⟨digits, hdigits, -⟩ := Option.map_eq_some_iff.mp h
    have hall := (mapM_decimal_isSome text).mp (Option.isSome_iff_exists.mpr ⟨digits, hdigits⟩)
    unfold isDigitText
    rw [Bool.and_eq_true, all_eq_true]
    exact ⟨by simpa using hne, fun c hc => lib.isDigit_of_decimal c (hall c hc)⟩

private theorem readToken_pair {net : Nat} (hpair : IsPairToken lib token)
    (hnet : decimalNumber lib (before '/' (netNodeToken token)) = some net)
    (hnode : decimalNumber lib (after '/' (netNodeToken token)) = some node) :
    readToken lib token = .pair net node := by
  unfold readToken
  simp only [if_pos hpair.1, hnet, hnode]

private theorem readToken_bare (hbare : IsBareToken lib token)
    (hnode : decimalNumber lib (netNodeToken token) = some node) :
    readToken lib token = .bare node := by
  unfold readToken
  simp only [if_neg hbare.1, hnode]

private theorem entriesFrom_skip (rest : List NetNodeToken)
    (hpair : ¬ IsPairToken lib token) (hbare : net ≠ none → ¬ IsBareToken lib token) :
    entriesFrom net (readToken lib token :: rest) = entriesFrom net rest := by
  cases hread : readToken lib token with
  | unreadable => rfl
  | pair n m =>
    unfold readToken at hread
    simp only at hread
    split at hread
    · rename_i hslash
      split at hread
      · rename_i hnet hnode
        exact absurd ⟨hslash, isDigitText_of_decimalNumber hnet, isDigitText_of_decimalNumber hnode⟩
          hpair
      · exact absurd hread (by simp)
    · split at hread <;> exact absurd hread (by simp)
  | bare n =>
    cases hheld : net with
    | none => rfl
    | some held =>
      unfold readToken at hread
      simp only at hread
      split at hread
      · split at hread <;> exact absurd hread (by simp)
      · rename_i hslash
        split at hread
        · rename_i hnode
          exact absurd ⟨hslash, isDigitText_of_decimalNumber hnode⟩ (hbare (by simp [hheld]))
        · exact absurd hread (by simp)

theorem parseTokens_pair (net : Option Nat) (rest : List Text) (h : IsPairToken lib token) :
    parseTokens lib net (token :: rest) = (do
      let net ← intOfDigits lib (before '/' (netNodeToken token))
      let node ← intOfDigits lib (after '/' (netNodeToken token))
      pure (keepNetNode net node (← parseTokens lib (some net) rest))) := by
  rw [parseTokens.eq_def]
  simp only [if_pos h.1, if_pos h.2]

theorem parseTokens_bare (held : Nat) (rest : List Text) (h : IsBareToken lib token) :
    parseTokens lib (some held) (token :: rest) = (do
      let node ← intOfDigits lib (netNodeToken token)
      pure (keepNetNode held node (← parseTokens lib (some held) rest))) := by
  rw [parseTokens]
  simp only [if_neg h.1, if_pos h.2]

private theorem parseTokens_skip (rest : List Text)
    (hpair : ¬ IsPairToken lib token) (hbare : net ≠ none → ¬ IsBareToken lib token) :
    parseTokens lib net (token :: rest) = parseTokens lib net rest := by
  rw [parseTokens.eq_def]
  by_cases hslash : '/' ∈ netNodeToken token
  · simp only [if_pos hslash, if_neg fun h => hpair ⟨hslash, h⟩]
  · cases net with
    | none => simp only [if_neg hslash]
    | some held =>
      simp only [if_neg hslash, if_neg fun h => hbare (Option.some_ne_none held) ⟨hslash, h⟩]

theorem parseTokens_of_readable (h : TokensReadable lib (net ≠ none) tokens) :
    parseTokens lib net tokens = .ok (entriesFrom net (tokens.map (readToken lib))) := by
  induction tokens generalizing net with
  | nil => rfl
  | cons token rest ih =>
    obtain ⟨hpairReads, hbareReads, hrest⟩ := (tokensReadable_cons _ _ _).mp h
    rw [map_cons]
    by_cases hpair : IsPairToken lib token
    · obtain ⟨hnetReads, hnodeReads⟩ := hpairReads hpair
      obtain ⟨newNet, hnet, hnetInt⟩ :=
        intOfDigits_of_reads hnetReads (ne_nil_of_isDigitText hpair.2.1)
      obtain ⟨node, hnode, hnodeInt⟩ :=
        intOfDigits_of_reads hnodeReads (ne_nil_of_isDigitText hpair.2.2)
      have hnext : TokensReadable lib (some newNet ≠ none) rest := by simpa [hpair] using hrest
      rw [parseTokens_pair net rest hpair, hnetInt, ok_bind, hnodeInt, ok_bind, ih hnext, ok_bind,
        readToken_pair hpair hnet hnode]
      rfl
    · have hrest' : TokensReadable lib (net ≠ none) rest := by simpa [hpair] using hrest
      by_cases hbare : net ≠ none ∧ IsBareToken lib token
      · obtain ⟨hheld, hbare⟩ := hbare
        obtain ⟨held, rfl⟩ := Option.ne_none_iff_exists'.mp hheld
        obtain ⟨node, hnode, hnodeInt⟩ :=
          intOfDigits_of_reads (hbareReads hheld hbare) (ne_nil_of_isDigitText hbare.2)
        rw [parseTokens_bare held rest hbare, hnodeInt, ok_bind, ih hrest', ok_bind,
          readToken_bare hbare hnode]
        rfl
      · have hskip : net ≠ none → ¬ IsBareToken lib token := fun hheld h => hbare ⟨hheld, h⟩
        rw [parseTokens_skip rest hpair hskip, ih hrest', entriesFrom_skip _ hpair hskip]

theorem readable_of_parseTokens
    {entries : List (Nat × Nat)} (h : parseTokens lib net tokens = .ok entries) :
    TokensReadable lib (net ≠ none) tokens := by
  induction tokens generalizing net entries with
  | nil =>
    refine ⟨fun token htoken => absurd htoken not_mem_nil, fun first token rest hsplit => ?_⟩
    exact absurd hsplit (by simp)
  | cons token rest ih =>
    rw [tokensReadable_cons]
    by_cases hpair : IsPairToken lib token
    · rw [parseTokens_pair net rest hpair] at h
      simp only [bind_eq_ok, pure_eq_ok] at h
      obtain ⟨newNet, hnet, node, hnode, more, hmore, -⟩ := h
      refine ⟨fun _ => ⟨reads_of_intOfDigits hnet, reads_of_intOfDigits hnode⟩,
        fun _ hbare => absurd hpair.1 hbare.1, ?_⟩
      have hrest := ih hmore
      simpa [hpair] using hrest
    · by_cases hbare : net ≠ none ∧ IsBareToken lib token
      · obtain ⟨hheld, hbare⟩ := hbare
        obtain ⟨held, rfl⟩ := Option.ne_none_iff_exists'.mp hheld
        rw [parseTokens_bare held rest hbare] at h
        simp only [bind_eq_ok, pure_eq_ok] at h
        obtain ⟨node, hnode, more, hmore, -⟩ := h
        exact ⟨fun h => absurd h hpair, fun _ _ => reads_of_intOfDigits hnode,
          by simpa [hpair] using ih hmore⟩
      · have hskip : net ≠ none → ¬ IsBareToken lib token := fun hheld h => hbare ⟨hheld, h⟩
        rw [parseTokens_skip rest hpair hskip] at h
        exact ⟨fun h => absurd h hpair, fun hheld h => absurd h (hskip hheld),
          by simpa [hpair] using ih h⟩

/-- `parse_net_nodes` returns exactly where it asks `int` for nothing it cannot read. -/
theorem parseNetNodes_eq_ok (text : Text) (entries : List (Nat × Nat)) :
    parseNetNodes lib text = .ok entries ↔
      TokensReadable lib False (split text) ∧ entries = readNetNodes lib text := by
  have hnone : (none ≠ (none : Option Nat)) = False := by simp
  unfold parseNetNodes readNetNodes
  constructor
  · intro h
    have hreadable := readable_of_parseTokens h
    rw [parseTokens_of_readable hreadable] at h
    exact ⟨hnone ▸ hreadable, (Except.ok.inj h).symm⟩
  · rintro ⟨hreadable, rfl⟩
    exact parseTokens_of_readable (hnone ▸ hreadable)

end NetBBS
