import NetBBS.Foundation.Runs
import NetBBS.Link.Rotation.KeyHistory

/-! # Signing again what a leaked key signed -/

namespace NetBBS.Rotation

open Foundation List

structure Signatures (κ ε ς : Type) where
  sign : κ → ε → ς
  verify : κ → ε → ς → Bool
  verify_sign : ∀ key envelope, verify key envelope (sign key envelope) = true
  verify_unique : ∀ {key key' : κ} {envelope : ε} {signature : ς}, verify key envelope signature = true →
    verify key' envelope signature = true → key = key'

inductive Stored (ε ς : Type) where
  | signed (envelope : ε) (signature : ς)
  | unreadable (text : String)
deriving DecidableEq

variable {κ ε ς : Type}

structure Row (ε ς : Type) where
  id : Nat
  raw : Option (Stored ε ς)
deriving DecidableEq

def Row.content (row : Row ε ς) : Nat × Option (ε ⊕ String) :=
  (row.id, row.raw.map fun
    | .signed envelope _ => .inl envelope
    | .unreadable text => .inr text)

@[ext]
structure Table (ε ς : Type) where
  rows : List (Row ε ς)
  ascending : rows.Pairwise fun a b => a.id < b.id
  positive : ∀ row ∈ rows, 0 < row.id

structure Column where
  table : String
  column : String
deriving DecidableEq

abbrev Db (ε ς : Type) := Column → Table ε ς

def ownSignedColumns : List Column :=
  [⟨"boards", "link_genesis_json"⟩, ⟨"boards", "link_lifecycle_json"⟩, ⟨"posts", "link_event_json"⟩,
    ⟨"channels", "link_genesis_json"⟩, ⟨"channels", "link_lifecycle_json"⟩,
    ⟨"channel_messages", "link_event_json"⟩, ⟨"file_areas", "link_genesis_json"⟩, ⟨"files", "link_event_json"⟩,
    ⟨"mail_messages", "link_event_json"⟩, ⟨"link_mail_acknowledgements", "ack_event_json"⟩,
    ⟨"board_poll_votes", "event_json"⟩]

def servedColumns : List Column :=
  ownSignedColumns ++
    [ -- `load_own_board_events`, `_all_board_events`
      ⟨"boards", "link_posting_json"⟩,
      -- `_all_community_events`
      ⟨"communities", "link_genesis_json"⟩, ⟨"communities", "link_members_json"⟩,
      ⟨"communities", "link_closure_json"⟩,
      -- `roster_events_for`, `load_own_restrictions`, `load_own_topics`
      ⟨"link_moderator_rosters", "envelope_json"⟩, ⟨"link_channel_restrictions", "envelope_json"⟩,
      ⟨"link_channel_topics", "envelope_json"⟩, ⟨"link_events", "envelope_json"⟩]

/-- `_RESIGN_PAGE`. -/
def resignPageSize : Nat := 500

def Stored.resigned (signatures : Signatures κ ε ς) (compromised : List κ) (signer : κ) :
    Stored ε ς → Option (Stored ε ς)
  | .signed envelope signature =>
    if compromised.any fun key => signatures.verify key envelope signature then
      some (.signed envelope (signatures.sign signer envelope))
    else none
  | .unreadable _ => none

/-- `UPDATE … WHERE id = ?`. -/
def Table.update (t : Table ε ς) (id : Nat) (raw : Stored ε ς) : Table ε ς where
  rows := t.rows.map fun row => if row.id = id then { row with raw := some raw } else row
  ascending := by
    rw [pairwise_map]
    refine t.ascending.imp ?_
    intro a b hab
    split <;> split <;> exact hab
  positive := by
    intro row hrow
    obtain ⟨old, hold, rfl⟩ := mem_map.mp hrow
    split <;> exact t.positive old hold

/-- `SELECT … WHERE … IS NOT NULL AND id > ? ORDER BY id LIMIT ?`. -/
def Table.page (t : Table ε ς) (afterId : Nat) : List (Row ε ς) :=
  (t.rows.filter fun row => row.raw.isSome && decide (afterId < row.id)).take resignPageSize

def resignRow (signatures : Signatures κ ε ς) (compromised : List κ) (signer : κ) (done : Table ε ς × Nat)
    (row : Row ε ς) : Table ε ς × Nat :=
  match row.raw.bind (Stored.resigned signatures compromised signer) with
  | some raw => (done.1.update row.id raw, done.2 + 1)
  | none => done

def resignPage (signatures : Signatures κ ε ς) (compromised : List κ) (signer : κ) (t : Table ε ς)
    (rows : List (Row ε ς)) : Table ε ς × Nat :=
  rows.foldl (resignRow signatures compromised signer) (t, 0)

structure Resigning (ε ς : Type) where
  db : Db ε ς
  todo : List Column
  afterId : Nat := 0
  resigned : Nat := 0

def resignOwnContent (compromised : List κ) (db : Db ε ς) : Resigning ε ς where
  db
  todo := if compromised = [] then [] else ownSignedColumns

def Resigning.turn (signatures : Signatures κ ε ς) (compromised : List κ) (signer : κ) (s : Resigning ε ς) :
    Resigning ε ς :=
  match s.todo with
  | [] => s
  | column :: rest =>
    let rows := (s.db column).page s.afterId
    match rows.getLast? with
    | none => { s with todo := rest, afterId := 0 }
    | some last =>
      let page := resignPage signatures compromised signer (s.db column) rows
      { s with
        db := Function.update s.db column page.1
        afterId := last.id
        resigned := s.resigned + page.2 }

inductive Passing where
  | turn
  | restart

def pass (signatures : Signatures κ ε ς) (compromised : List κ) (signer : κ) (s : Resigning ε ς) :
    Passing → Resigning ε ς
  | .turn => s.turn signatures compromised signer
  | .restart => resignOwnContent compromised s.db

variable {signatures : Signatures κ ε ς} {compromised : List κ} {signer : κ}

def Row.resigned (signatures : Signatures κ ε ς) (compromised : List κ) (signer : κ) (row : Row ε ς) :
    Row ε ς :=
  match row.raw.bind (Stored.resigned signatures compromised signer) with
  | some raw => { row with raw := some raw }
  | none => row

@[simp] theorem Row.resigned_id (row : Row ε ς) :
    (row.resigned signatures compromised signer).id = row.id := by
  unfold Row.resigned
  split <;> rfl

variable {row : Row ε ς} {before : Db ε ς}

theorem Row.resigned_of_signed {envelope : ε} {signature : ς}
    (hraw : row.raw = some (.signed envelope signature)) :
    row.resigned signatures compromised signer =
      if compromised.any fun key => signatures.verify key envelope signature then
        ⟨row.id, some (.signed envelope (signatures.sign signer envelope))⟩
      else row := by
  unfold Row.resigned
  rw [hraw, Option.bind_some, Stored.resigned]
  split <;> simp_all

theorem Row.resigned_of_unsigned
    (hraw : ∀ envelope signature, row.raw ≠ some (.signed envelope signature)) :
    row.resigned signatures compromised signer = row := by
  unfold Row.resigned
  cases hrow : row.raw with
  | none => simp
  | some stored =>
    cases stored with
    | signed envelope signature => exact absurd hrow (hraw envelope signature)
    | unreadable text => simp [Stored.resigned]

theorem Row.resigned_eq_self
    (h : ∀ envelope signature, row.raw = some (.signed envelope signature) →
      ∀ key ∈ compromised, signatures.verify key envelope signature = false) :
    row.resigned signatures compromised signer = row := by
  by_cases hsigned : ∃ envelope signature, row.raw = some (.signed envelope signature)
  · obtain ⟨envelope, signature, hraw⟩ := hsigned
    rw [Row.resigned_of_signed hraw, if_neg]
    intro hany
    obtain ⟨key, hkey, hverify⟩ := any_eq_true.mp hany
    rw [h envelope signature hraw key hkey] at hverify
    cases hverify
  · exact Row.resigned_of_unsigned fun envelope signature hraw => hsigned ⟨envelope, signature, hraw⟩

theorem Row.resigned_resigned (hsigner : signer ∉ compromised) (row : Row ε ς) :
    (row.resigned signatures compromised signer).resigned signatures compromised signer =
      row.resigned signatures compromised signer := by
  by_cases hsigned : ∃ envelope signature, row.raw = some (.signed envelope signature)
  · obtain ⟨envelope, signature, hraw⟩ := hsigned
    rw [Row.resigned_of_signed hraw]
    split
    · refine Row.resigned_eq_self ?_
      intro envelope' signature' hraw' key hkey
      simp only [Option.some.injEq, Stored.signed.injEq] at hraw'
      obtain ⟨rfl, rfl⟩ := hraw'
      by_contra hverify
      rw [Bool.not_eq_false] at hverify
      have hsame := signatures.verify_unique hverify (signatures.verify_sign signer envelope)
      exact hsigner (hsame ▸ hkey)
    · rename_i hnone
      rw [Row.resigned_of_signed hraw, if_neg hnone]
  · have hsame : row.resigned signatures compromised signer = row :=
      Row.resigned_of_unsigned fun envelope signature hraw => hsigned ⟨envelope, signature, hraw⟩
    rw [hsame, hsame]

variable (signatures : Signatures κ ε ς) (compromised : List κ) (signer : κ)

theorem Table.rows_nodup (t : Table ε ς) : (t.rows.map Row.id).Nodup := by
  rw [List.Nodup, pairwise_map]
  exact t.ascending.imp fun hab => Nat.ne_of_lt hab

theorem Table.eq_of_id (t : Table ε ς) {a b : Row ε ς} (ha : a ∈ t.rows) (hb : b ∈ t.rows)
    (hid : a.id = b.id) : a = b :=
  inj_on_of_nodup_map t.rows_nodup ha hb hid

theorem resignRow_rows (done : Table ε ς × Nat) (hrow : row ∈ done.1.rows) :
    (resignRow signatures compromised signer done row).1.rows = done.1.rows.map fun old =>
      if old.id = row.id then old.resigned signatures compromised signer else old := by
  unfold resignRow
  split
  · rename_i raw hraw
    refine map_congr_left ?_
    intro old hold
    split
    · rename_i hid
      have hsame := done.1.eq_of_id hold hrow hid
      rw [hsame, Row.resigned, hraw]
    · rfl
  · rename_i hraw
    have hkept : ∀ old ∈ done.1.rows,
        (if old.id = row.id then old.resigned signatures compromised signer else old) = old := by
      intro old hold
      split
      · rename_i hid
        rw [done.1.eq_of_id hold hrow hid, Row.resigned, hraw]
      · rfl
    exact (map_congr_left hkept).symm ▸ (map_id' done.1.rows).symm

theorem foldl_resignRow_rows (done : Table ε ς × Nat) {rows : List (Row ε ς)}
    (hsubset : ∀ row ∈ rows, row ∈ done.1.rows) (hnodup : (rows.map Row.id).Nodup) :
    (rows.foldl (resignRow signatures compromised signer) done).1.rows = done.1.rows.map fun old =>
      if old.id ∈ rows.map Row.id then old.resigned signatures compromised signer else old := by
  induction rows generalizing done with
  | nil => simp
  | cons row rest ih =>
    obtain ⟨hrow, hnodup⟩ := nodup_cons.mp hnodup
    have hfirst := resignRow_rows signatures compromised signer done (hsubset row (.head _))
    have hrest : ∀ later ∈ rest, later ∈ (resignRow signatures compromised signer done row).1.rows := by
      intro later hlater
      rw [hfirst]
      refine mem_map.mpr ⟨later, hsubset later (.tail _ hlater), if_neg ?_⟩
      exact fun hid => hrow (hid ▸ mem_map_of_mem hlater)
    rw [foldl_cons, ih _ hrest hnodup, hfirst, map_map]
    refine map_congr_left ?_
    intro old _
    by_cases hid : old.id = row.id
    · have hnew : (old.resigned signatures compromised signer).id ∉ rest.map Row.id := by
        rw [Row.resigned_id, hid]
        exact hrow
      rw [Function.comp_apply, if_pos hid, if_neg hnew, if_pos]
      rw [hid]
      exact mem_cons_self
    · simp [hid]

theorem Table.page_sublist (t : Table ε ς) (afterId : Nat) : (t.page afterId).Sublist t.rows :=
  (take_sublist _ _).trans filter_sublist

theorem resignPage_rows (t : Table ε ς) (afterId : Nat) :
    (resignPage signatures compromised signer t (t.page afterId)).1.rows = t.rows.map fun old =>
      if old.id ∈ (t.page afterId).map Row.id then old.resigned signatures compromised signer else old :=
  foldl_resignRow_rows signatures compromised signer (t, 0) (fun _ hrow => (t.page_sublist afterId).subset hrow)
    (((t.page_sublist afterId).map _).nodup t.rows_nodup)

variable {t : Table ε ς} {afterId : Nat} {s : Resigning ε ς}

theorem Table.raw_of_page_nil (h : t.page afterId = [])
    (hrow : row ∈ t.rows) (hafter : afterId < row.id) : row.raw = none := by
  rw [Table.page, take_eq_nil_iff] at h
  have hnil := h.resolve_left (by decide)
  cases hraw : row.raw with
  | none => rfl
  | some stored =>
    have hmem : row ∈ t.rows.filter fun row => row.raw.isSome && decide (afterId < row.id) :=
      mem_filter.mpr ⟨hrow, by simp [hraw, hafter]⟩
    rw [hnil] at hmem
    cases hmem

theorem Table.page_covers {last : Row ε ς} (hlast : (t.page afterId).getLast? = some last) :
    last ∈ t.rows ∧ afterId < last.id ∧
      ∀ row ∈ t.rows, row.raw.isSome = true → afterId < row.id → row.id ≤ last.id → row ∈ t.page afterId := by
  have hmem := mem_of_getLast? hlast
  have hkept := (take_subset _ _) hmem
  obtain ⟨hrow, htest⟩ := mem_filter.mp hkept
  refine ⟨hrow, by simpa using (Bool.and_eq_true_iff.mp htest).2, ?_⟩
  intro row hrow hraw hafter hle
  have hfiltered : row ∈ t.rows.filter fun row => row.raw.isSome && decide (afterId < row.id) :=
    mem_filter.mpr ⟨hrow, by simp [hraw, hafter]⟩
  rw [← take_append_drop resignPageSize (t.rows.filter _)] at hfiltered
  rcases mem_append.mp hfiltered with hpage | hlater
  · exact hpage
  · have hsorted := t.ascending.filter fun row => row.raw.isSome && decide (afterId < row.id)
    rw [← take_append_drop resignPageSize (t.rows.filter _), pairwise_append] at hsorted
    have hlt := hsorted.2.2 last hmem row hlater
    omega

variable {signatures : Signatures κ ε ς} {compromised : List κ} {signer : κ}

def Settled (signatures : Signatures κ ε ς) (compromised : List κ) (signer : κ) (row : Row ε ς) : Prop :=
  row.resigned signatures compromised signer = row

structure Walking (signatures : Signatures κ ε ς) (compromised : List κ) (signer : κ) (before : Db ε ς)
    (s : Resigning ε ς) : Prop where
  rows : ∀ column, List.Forall₂ (fun old new => new = old ∨ new = old.resigned signatures compromised signer)
    (before column).rows (s.db column).rows
  others : ∀ column, column ∉ ownSignedColumns → s.db column = before column
  todo : ∀ column ∈ s.todo, column ∈ ownSignedColumns
  done : ∀ column ∈ ownSignedColumns, column ∈ s.todo ∨
    ∀ row ∈ (s.db column).rows, Settled signatures compromised signer row
  upTo : ∀ column rest, s.todo = column :: rest → ∀ row ∈ (s.db column).rows, row.id ≤ s.afterId →
    Settled signatures compromised signer row

theorem walking_start {db : Db ε ς} (hrows : ∀ column, List.Forall₂ (fun old new => new = old ∨
      new = old.resigned signatures compromised signer) (before column).rows (db column).rows)
    (hothers : ∀ column, column ∉ ownSignedColumns → db column = before column) :
    Walking signatures compromised signer before (resignOwnContent compromised db) where
  rows := hrows
  others := hothers
  todo column hcolumn := by
    unfold resignOwnContent at hcolumn
    split at hcolumn
    · cases hcolumn
    · exact hcolumn
  done column hcolumn := by
    by_cases hnone : compromised = []
    · subst hnone
      exact .inr fun row _ => Row.resigned_eq_self fun _ _ _ _ hkey => by cases hkey
    · left
      unfold resignOwnContent
      rw [if_neg hnone]
      exact hcolumn
  upTo column rest _ row hrow hle := by
    have hpos := (db column).positive row hrow
    exact absurd hle (Nat.not_le.mpr hpos)

theorem settled_of_none (h : row.raw = none) : Settled signatures compromised signer row :=
  Row.resigned_of_unsigned fun _ _ hraw => by simp [h] at hraw

theorem Walking.turn (hsigner : signer ∉ compromised)
    (h : Walking signatures compromised signer before s) :
    Walking signatures compromised signer before (s.turn signatures compromised signer) := by
  unfold Resigning.turn
  split
  · exact h
  · rename_i column rest htodo
    have hown : column ∈ ownSignedColumns := h.todo column (by simp [htodo])
    simp only
    split
    · rename_i hnone
      have hnil := getLast?_eq_none_iff.mp hnone
      refine ⟨h.rows, h.others, fun c hc => h.todo c (by simp [htodo, hc]), ?_, ?_⟩
      · intro c hc
        rcases h.done c hc with hwaits | hsettled
        · rw [htodo] at hwaits
          rcases mem_cons.mp hwaits with rfl | hrest
          · right
            intro row hrow
            by_cases hle : row.id ≤ s.afterId
            · exact h.upTo c rest htodo row hrow hle
            · exact settled_of_none (Table.raw_of_page_nil hnil hrow (by omega))
          · exact .inl hrest
        · exact .inr hsettled
      · intro c rest' _ row hrow hle
        have hpos := (s.db c).positive row hrow
        exact absurd hle (Nat.not_le.mpr hpos)
    · rename_i last hlast
      obtain ⟨-, hafter, hcovers⟩ := Table.page_covers hlast
      have hpage := resignPage_rows signatures compromised signer (s.db column) s.afterId
      refine ⟨?_, ?_, h.todo, ?_, ?_⟩
      · intro c
        dsimp only
        by_cases hc : c = column
        · subst hc
          rw [Function.update_self, hpage, forall₂_map_right_iff]
          refine (h.rows c).imp ?_
          rintro old new (rfl | rfl)
          · split
            · exact .inr rfl
            · exact .inl rfl
          · split
            · exact .inr (Row.resigned_resigned hsigner old)
            · exact .inr rfl
        · rw [Function.update_of_ne hc]
          exact h.rows c
      · intro c hc
        have hne : c ≠ column := by
          rintro rfl
          exact hc hown
        dsimp only
        rw [Function.update_of_ne hne]
        exact h.others c hc
      · intro c hc
        dsimp only
        by_cases hsame : c = column
        · exact .inl (by simp [htodo, hsame])
        · rw [Function.update_of_ne hsame]
          exact h.done c hc
      · intro c rest' hhead row hrow hle
        obtain ⟨rfl, -⟩ := List.cons.inj (htodo.symm.trans hhead)
        dsimp only at hrow hle
        rw [Function.update_self, hpage] at hrow
        obtain ⟨old, hold, rfl⟩ := mem_map.mp hrow
        have hid : old.id ≤ last.id := by
          split at hle <;> simpa using hle
        split
        · exact Row.resigned_resigned hsigner old
        · rename_i hnot
          by_cases hearlier : old.id ≤ s.afterId
          · exact h.upTo column rest htodo old hold hearlier
          · cases hraw : old.raw with
            | none => exact settled_of_none hraw
            | some stored =>
              have hmem := hcovers old hold (by simp [hraw]) (by omega) hid
              exact absurd (mem_map_of_mem hmem) hnot

theorem Walking.pass {before : Db ε ς} {s : Resigning ε ς} (hsigner : signer ∉ compromised)
    (h : Walking signatures compromised signer before s) (passing : Passing) :
    Walking signatures compromised signer before (pass signatures compromised signer s passing) := by
  cases passing with
  | turn => exact h.turn hsigner
  | restart => exact walking_start h.rows h.others

def Table.resigned (signatures : Signatures κ ε ς) (compromised : List κ) (signer : κ) (t : Table ε ς) :
    Table ε ς where
  rows := t.rows.map (Row.resigned signatures compromised signer)
  ascending := by
    rw [pairwise_map]
    simpa using t.ascending
  positive := by
    intro row hrow
    obtain ⟨old, hold, rfl⟩ := mem_map.mp hrow
    rw [Row.resigned_id]
    exact t.positive old hold

def resignedDb (signatures : Signatures κ ε ς) (compromised : List κ) (signer : κ) (before : Db ε ς) : Db ε ς :=
  fun column =>
    if column ∈ ownSignedColumns then (before column).resigned signatures compromised signer else before column

theorem Walking.db_eq (h : Walking signatures compromised signer before s) (htodo : s.todo = []) :
    s.db = resignedDb signatures compromised signer before := by
  funext column
  unfold resignedDb
  split
  · rename_i hown
    have hsettled := (h.done column hown).resolve_left (by simp [htodo])
    refine Table.ext ?_
    have hrows := h.rows column
    show (s.db column).rows = (before column).rows.map (Row.resigned signatures compromised signer)
    revert hrows hsettled
    generalize (s.db column).rows = after
    generalize (before column).rows = rows
    intro hsettled hrows
    induction hrows with
    | nil => rfl
    | @cons old new rows after hrow _ ih =>
      rw [map_cons, ← ih fun row hmem => hsettled row (.tail _ hmem)]
      congr 1
      rcases hrow with rfl | rfl
      · exact (hsettled _ (.head _)).symm
      · rfl
  · rename_i hother
    exact h.others column hother

theorem pass_completed (hsigner : signer ∉ compromised) (before : Db ε ς) (passings : List Passing)
    (hdone : (passings.foldl (pass signatures compromised signer)
      (resignOwnContent compromised before)).todo = []) :
    (passings.foldl (pass signatures compromised signer) (resignOwnContent compromised before)).db =
      resignedDb signatures compromised signer before := by
  have hstart : Walking signatures compromised signer before (resignOwnContent compromised before) :=
    walking_start (fun column => forall₂_same.mpr fun _ _ => .inl rfl) fun _ _ => rfl
  have hwalking := foldl_invariant (P := Walking signatures compromised signer before) passings _ hstart
    fun v _ hv => hv.pass hsigner v.2
  exact hwalking.db_eq hdone

section Complete

structure MissesNothing (signatures : Signatures κ ε ς) (authorized compromised : List κ) (signer : κ)
    (serves : Column → Nat → Prop) (before after : Db ε ς) : Prop where
  verified : ∀ column ∈ servedColumns, ∀ row ∈ (before column).rows, serves column row.id →
    ∀ envelope signature, row.raw = some (.signed envelope signature) →
      ∀ key ∈ authorized, signatures.verify key envelope signature = true →
        ∃ signature', ⟨row.id, some (.signed envelope signature')⟩ ∈ (after column).rows ∧
          ∃ key' ∈ authorized, key' ∉ compromised ∧ signatures.verify key' envelope signature' = true
  contentIds : ∀ column, (after column).rows.map Row.content = (before column).rows.map Row.content
  others : ∀ column, ∀ row ∈ (before column).rows,
    (∀ envelope signature, row.raw = some (.signed envelope signature) →
      ∀ key ∈ authorized, signatures.verify key envelope signature = false) → row ∈ (after column).rows
  again : ∀ passings : List Passing,
    (passings.foldl (pass signatures compromised signer) (resignOwnContent compromised after)).todo = [] →
      (passings.foldl (pass signatures compromised signer) (resignOwnContent compromised after)).db = after

def Covered (signatures : Signatures κ ε ς) (compromised : List κ) (serves : Column → Nat → Prop)
    (before : Db ε ς) : Prop :=
  ∀ column ∈ servedColumns, column ∉ ownSignedColumns → ∀ row ∈ (before column).rows, serves column row.id →
    ∀ envelope signature, row.raw = some (.signed envelope signature) →
      ∀ key ∈ compromised, signatures.verify key envelope signature = false

theorem Row.resigned_content (signatures : Signatures κ ε ς) (compromised : List κ) (signer : κ)
    (row : Row ε ς) : (row.resigned signatures compromised signer).content = row.content := by
  by_cases hsigned : ∃ envelope signature, row.raw = some (.signed envelope signature)
  · obtain ⟨envelope, signature, hraw⟩ := hsigned
    rw [Row.resigned_of_signed hraw]
    split
    · simp [Row.content, hraw]
    · rfl
  · rw [Row.resigned_of_unsigned fun envelope signature hraw => hsigned ⟨envelope, signature, hraw⟩]

theorem resignedDb_content (signatures : Signatures κ ε ς) (compromised : List κ) (signer : κ)
    (before : Db ε ς) (column : Column) :
    (resignedDb signatures compromised signer before column).rows.map Row.content =
      (before column).rows.map Row.content := by
  unfold resignedDb
  split
  · show ((before column).rows.map _).map Row.content = _
    rw [map_map]
    exact map_congr_left fun row _ => Row.resigned_content signatures compromised signer row
  · rfl

theorem resignedDb_resignedDb {signatures : Signatures κ ε ς} {compromised : List κ} {signer : κ}
    (hsigner : signer ∉ compromised) (before : Db ε ς) :
    resignedDb signatures compromised signer (resignedDb signatures compromised signer before) =
      resignedDb signatures compromised signer before := by
  funext column
  unfold resignedDb
  split
  · refine Table.ext ?_
    show ((before column).rows.map _).map _ = (before column).rows.map _
    rw [map_map]
    exact map_congr_left fun row _ => Row.resigned_resigned hsigner row
  · rfl

theorem mem_resignedDb {signatures : Signatures κ ε ς} {compromised : List κ} (signer : κ) {before : Db ε ς}
    {column : Column} {row : Row ε ς} (hrow : row ∈ (before column).rows)
    (h : ∀ envelope signature, row.raw = some (.signed envelope signature) →
      ∀ key ∈ compromised, signatures.verify key envelope signature = false) :
    row ∈ (resignedDb signatures compromised signer before column).rows := by
  unfold resignedDb
  split
  · exact mem_map.mpr ⟨row, hrow, Row.resigned_eq_self h⟩
  · exact hrow

variable {φ ι σ : Type} [DecidableEq κ] [DecidableEq φ] [DecidableEq ι] {crypto : Crypto κ φ ι σ}
    {root : κ}

/-- Signing again, in one go or started over after any stops, misses nothing exactly when no served object
outside its columns was signed by a compromised key. -/
theorem misses_nothing_iff {transitions : List (KeyTransition κ φ ι σ)} {current : Purpose → κ}
    (hbuilt : Built crypto root transitions current)
    (hfresh : (authorizedKeys transitions .signing).Nodup) {compromised : List κ}
    (hcompromised : compromisedOwnKeys crypto transitions root = .ok compromised)
    (signatures : Signatures κ ε ς) (serves : Column → Nat → Prop) (before : Db ε ς) (passings : List Passing)
    (hdone : (passings.foldl (pass signatures compromised (current .signing))
      (resignOwnContent compromised before)).todo = []) :
    MissesNothing signatures (authorizedKeys transitions .signing) compromised (current .signing) serves before
        (passings.foldl (pass signatures compromised (current .signing))
          (resignOwnContent compromised before)).db ↔
      Covered signatures compromised serves before := by
  obtain ⟨keys, hkeys, hauthorized, hsigner⟩ := hbuilt.compromisedOwnKeys_eq_ok hfresh
  rw [hcompromised, Except.ok.injEq] at hkeys
  subst hkeys
  rw [pass_completed hsigner before passings hdone]
  constructor
  · intro h column hserved homitted row hrow hserves envelope signature hraw key hkey
    by_contra hverify
    rw [Bool.not_eq_false] at hverify
    obtain ⟨signature', hmem, key', -, hclean, hverify'⟩ := h.verified column hserved row hrow hserves envelope
      signature hraw key (hauthorized key hkey) hverify
    -- The row is the one from before, and its signature has one key only.
    have hsame : (⟨row.id, some (.signed envelope signature')⟩ : Row ε ς) = row := by
      rw [resignedDb, if_neg homitted] at hmem
      exact (before column).eq_of_id hmem hrow rfl
    rw [← hsame] at hraw
    simp only [Option.some.injEq, Stored.signed.injEq, true_and] at hraw
    rw [hraw] at hverify'
    exact hclean (signatures.verify_unique hverify hverify' ▸ hkey)
  · intro hcovered
    refine ⟨?_, resignedDb_content signatures compromised (current .signing) before, ?_, ?_⟩
    · intro column hserved row hrow hserves envelope signature hraw key hkey hverify
      by_cases hany : compromised.any (fun key => signatures.verify key envelope signature) = true
      · have hown : column ∈ ownSignedColumns := by
          by_contra homitted
          obtain ⟨leaked, hleaked, hsigned⟩ := any_eq_true.mp hany
          rw [hcovered column hserved homitted row hrow hserves envelope signature hraw leaked hleaked] at hsigned
          cases hsigned
        refine ⟨signatures.sign (current .signing) envelope, ?_, current .signing, hbuilt.current_mem .signing,
          hsigner, signatures.verify_sign _ _⟩
        rw [resignedDb, if_pos hown]
        refine mem_map.mpr ⟨row, hrow, ?_⟩
        rw [Row.resigned_of_signed hraw, if_pos hany]
      · have hclean : ∀ leaked ∈ compromised, signatures.verify leaked envelope signature = false := by
          intro leaked hleaked
          by_contra hsigned
          exact hany (any_eq_true.mpr ⟨leaked, hleaked, by simpa using hsigned⟩)
        refine ⟨signature, ?_, key, hkey, ?_, hverify⟩
        · rw [← hraw]
          refine mem_resignedDb (current .signing) hrow ?_
          intro envelope' signature' hraw'
          rw [hraw, Option.some.injEq, Stored.signed.injEq] at hraw'
          rw [← hraw'.1, ← hraw'.2]
          exact hclean
        · intro hleaked
          rw [hclean key hleaked] at hverify
          cases hverify
    · intro column row hrow hother
      refine mem_resignedDb (current .signing) hrow ?_
      intro envelope signature hraw key hkey
      exact hother envelope signature hraw key (hauthorized key hkey)
    · intro later hlater
      rw [pass_completed hsigner _ later hlater, resignedDb_resignedDb hsigner]

def plainSignatures : Signatures Nat String Nat where
  sign key _ := key
  verify key _ signature := decide (signature = key)
  verify_sign := by simp
  verify_unique := by
    intro key key' _ signature h h'
    exact (of_decide_eq_true h).symm.trans (of_decide_eq_true h')

def leakedTransitions : List (KeyTransition Nat Nat (List Spelled) (Nat × Payload Nat Nat (List Spelled))) :=
  bootstrapTransitions plainCrypto 0 1 2 "2026-01-01T00:00:00Z" ++
    rotationTransitions plainCrypto 0 .signing [⟨0, .signing, .authorize, 1, "2026-01-01T00:00:00Z", false, false⟩]
      1 3 "2026-01-02T00:00:00Z" true

def leakedCurrent : Purpose → Nat := Function.update (fun | .signing => 1 | .transport => 2) .signing 3

theorem leakedTransitions_built : Built plainCrypto 0 leakedTransitions leakedCurrent :=
  .rotate .signing _ 3 "2026-01-02T00:00:00Z" true (.bootstrap 1 2 "2026-01-01T00:00:00Z") rfl

theorem leakedTransitions_compromised : compromisedOwnKeys plainCrypto leakedTransitions 0 = .ok [1] := by
  decide +kernel

def onlyColumn (column : Column) (t : Table String Nat) : Db String Nat := fun other =>
  if other = column then t else ⟨[], by simp, by simp⟩

def leakedCommunity : Db String Nat :=
  onlyColumn ⟨"communities", "link_genesis_json"⟩ ⟨[⟨1, some (.signed "genesis" 1)⟩], by simp, by simp⟩

/-- The Community's genesis keeps the leaked key's signature. -/
theorem community_keeps_leaked_signature :
    compromisedOwnKeys plainCrypto leakedTransitions 0 = .ok [1] ∧
    ((List.replicate 11 Passing.turn).foldl (pass plainSignatures [1] 3)
      (resignOwnContent [1] leakedCommunity)).todo = [] ∧
    ¬MissesNothing plainSignatures (authorizedKeys leakedTransitions .signing) [1] 3 (fun _ _ => True)
      leakedCommunity ((List.replicate 11 Passing.turn).foldl (pass plainSignatures [1] 3)
        (resignOwnContent [1] leakedCommunity)).db := by
  refine ⟨leakedTransitions_compromised, by decide +kernel, ?_⟩
  intro h
  obtain ⟨signature, hmem, key, -, hclean, hverify⟩ := h.verified ⟨"communities", "link_genesis_json"⟩
    (by decide) ⟨1, some (.signed "genesis" 1)⟩ mem_cons_self trivial "genesis" 1 rfl 1 (by decide) rfl
  have hrows : (((List.replicate 11 Passing.turn).foldl (pass plainSignatures [1] 3)
      (resignOwnContent [1] leakedCommunity)).db ⟨"communities", "link_genesis_json"⟩).rows =
        [⟨1, some (.signed "genesis" 1)⟩] := by decide +kernel
  rw [hrows, mem_singleton] at hmem
  simp only [Row.mk.injEq, Option.some.injEq, Stored.signed.injEq, true_and] at hmem
  have hkey : signature = key := of_decide_eq_true hverify
  exact hclean (by simp [← hkey, hmem])

def leakedPosts : Db String Nat :=
  onlyColumn ⟨"posts", "link_event_json"⟩
    ⟨[⟨1, some (.signed "post" 1)⟩, ⟨2, none⟩, ⟨3, some (.signed "reply" 9)⟩], by simp, by simp⟩

def stoppedOnce : List Passing := List.replicate 3 .turn ++ .restart :: List.replicate 12 .turn

theorem leakedPosts_signed_again :
    MissesNothing plainSignatures (authorizedKeys leakedTransitions .signing) [1] (leakedCurrent .signing)
      (fun _ _ => True) leakedPosts (stoppedOnce.foldl (pass plainSignatures [1] (leakedCurrent .signing))
        (resignOwnContent [1] leakedPosts)).db := by
  have hdone : (stoppedOnce.foldl (pass plainSignatures [1] (leakedCurrent .signing))
      (resignOwnContent [1] leakedPosts)).todo = [] := by decide +kernel
  refine (misses_nothing_iff leakedTransitions_built (by decide) leakedTransitions_compromised plainSignatures
    (fun _ _ => True) leakedPosts stoppedOnce hdone).mpr ?_
  intro column _ homitted row hrow
  have hother : column ≠ ⟨"posts", "link_event_json"⟩ := by
    rintro rfl
    exact homitted (by decide)
  simp [leakedPosts, onlyColumn, hother] at hrow

end Complete

end NetBBS.Rotation
