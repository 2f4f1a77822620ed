import Mathlib.Order.WithBot
import NetBBS.Foundation.Register
import NetBBS.Link.Sample
import NetBBS.Link.Store.Rows

/-! # Who may post on a board -/

namespace NetBBS

open Foundation List

variable {env : Env}

abbrev PostingSetting := Register (WithBot String) (Option String)

namespace BoardRow

/-- `link_posting` and `link_posting_at`. -/
def postingSetting (row : BoardRow) : PostingSetting where
  value := row.linkPosting
  stamp := row.linkPostingAt

def applyPosting (row : BoardRow) (boardId posting createdAt : Option String) : BoardRow :=
  if boardId = some row.boardId ∧
      (row.linkPostingAt = none ∨ sqlLt row.linkPostingAt createdAt = true) then
    { row with linkPosting := posting, linkPostingAt := createdAt }
  else row

end BoardRow

def postingParameters (posting : Filed env) :
    Except PyError (Option String × Option String × Option String) := do
  let mode ← posting.getItem "posting"
  let createdAt ← posting.getItem "created_at"
  let boardId ← posting.getItem "board_id"
  let mode ← sqlText mode
  let createdAt ← sqlText createdAt
  let boardId ← sqlText boardId
  pure (mode, createdAt, boardId)

def materializeCarriedBoardPosting (row : BoardRow) (posting : Filed env) :
    Except PyError BoardRow := do
  let (mode, createdAt, boardId) ← postingParameters posting
  pure (row.applyPosting boardId mode createdAt)

def deliverPosting (row : BoardRow) (posting : Filed env) : BoardRow :=
  match materializeCarriedBoardPosting row posting with
  | .ok row => row
  | .error _ => row

def broughtSetting (boardId : String) (posting : Filed env) : Option PostingSetting :=
  match postingParameters posting with
  | .ok (mode, createdAt, named) =>
    if named = some boardId then some { value := mode, stamp := createdAt } else none
  | .error _ => none

def NewestAgree (row : BoardRow) (postings : List (Filed env)) : Prop :=
  let brought := postings.filterMap (broughtSetting row.boardId)
  ∀ a b, row.postingSetting.Decisive brought a → row.postingSetting.Decisive brought b →
    a.value = b.value

private theorem yields_iff (row : BoardRow) (createdAt : Option String) :
    row.postingSetting.Yields (createdAt : WithBot String) ↔
      row.linkPostingAt = none ∨ sqlLt row.linkPostingAt createdAt = true := by
  unfold Register.Yields BoardRow.postingSetting
  cases row.linkPostingAt with
  | none => exact ⟨fun _ => .inl rfl, fun _ => .inl rfl⟩
  | some held =>
    refine or_congr Iff.rfl ?_
    cases createdAt with
    | none => exact ⟨fun h => absurd h not_lt_bot, fun h => absurd h (by simp [sqlLt])⟩
    | some made => exact WithBot.coe_lt_coe.trans decide_eq_true_iff.symm

theorem applyPosting_setting (row : BoardRow) (boardId mode createdAt : Option String) :
    (row.applyPosting boardId mode createdAt).postingSetting =
      if boardId = some row.boardId then row.postingSetting.write ⟨mode, createdAt⟩
      else row.postingSetting := by
  unfold BoardRow.applyPosting Register.write
  by_cases hboard : boardId = some row.boardId
  · by_cases hnewer : row.linkPostingAt = none ∨ sqlLt row.linkPostingAt createdAt = true
    · rw [if_pos ⟨hboard, hnewer⟩, if_pos hboard, if_pos ((yields_iff row createdAt).mpr hnewer)]
      rfl
    · rw [if_neg fun h => hnewer h.2, if_pos hboard,
        if_neg fun h => hnewer ((yields_iff row createdAt).mp h)]
  · rw [if_neg fun h => hboard h.1, if_neg hboard]

theorem applyPosting_boardId (row : BoardRow) (boardId mode createdAt : Option String) :
    (row.applyPosting boardId mode createdAt).boardId = row.boardId := by
  unfold BoardRow.applyPosting
  split <;> rfl

theorem deliverPosting_spec (row : BoardRow) (posting : Filed env) :
    (deliverPosting row posting).boardId = row.boardId ∧
      (deliverPosting row posting).postingSetting =
        match broughtSetting row.boardId posting with
        | some brought => row.postingSetting.write brought
        | none => row.postingSetting := by
  unfold deliverPosting materializeCarriedBoardPosting broughtSetting
  cases hparameters : postingParameters posting with
  | error e => exact ⟨rfl, rfl⟩
  | ok parameters =>
    obtain ⟨mode, createdAt, named⟩ := parameters
    refine ⟨applyPosting_boardId row named mode createdAt, ?_⟩
    refine (applyPosting_setting row named mode createdAt).trans ?_
    simp only
    split <;> rfl

theorem foldl_deliverPosting (postings : List (Filed env)) (row : BoardRow) :
    (postings.foldl deliverPosting row).postingSetting =
      (postings.filterMap (broughtSetting row.boardId)).foldl Register.write
        row.postingSetting := by
  induction postings generalizing row with
  | nil => rfl
  | cons posting rest ih =>
    obtain ⟨hboard, hsetting⟩ := deliverPosting_spec row posting
    rw [foldl_cons, ih, hboard, hsetting]
    cases hbrought : broughtSetting row.boardId posting with
    | none => rw [filterMap_cons_none hbrought]
    | some brought => rw [filterMap_cons_some hbrought, foldl_cons]

/-- Every two orders of delivering a set of postings, redeliveries included, leave the same setting
in force exactly when its newest postings agree. -/
theorem posting_order_irrelevant_iff (row : BoardRow) (postings : List (Filed env)) :
    (∀ order order' : List (Filed env), (∀ p, p ∈ order ↔ p ∈ postings) → (∀ p, p ∈ order' ↔ p ∈ postings) →
        (order.foldl deliverPosting row).linkPosting = (order'.foldl deliverPosting row).linkPosting ∧
          (order.foldl deliverPosting row).linkPostingAt = (order'.foldl deliverPosting row).linkPostingAt) ↔
      NewestAgree row postings := by
  constructor
  · intro horders a b ha hb
    -- Each of the two wins when it is delivered both first and last.
    have hends : ∀ c, row.postingSetting.Decisive
        (postings.filterMap (broughtSetting row.boardId)) c →
        ∃ order : List (Filed env), (∀ p, p ∈ order ↔ p ∈ postings) ∧
          (order.foldl deliverPosting row).postingSetting = c := by
      intro c hc
      obtain ⟨posting, hposting, hbrought⟩ := mem_filterMap.mp hc.mem
      refine ⟨(posting :: postings) ++ [posting], fun p => ?_, ?_⟩
      · simp only [cons_append, mem_cons, mem_append, not_mem_nil, or_false]
        constructor
        · rintro (rfl | h | rfl)
          · exact hposting
          · exact h
          · exact hposting
        · exact fun h => .inr (.inl h)
      · rw [foldl_deliverPosting, filterMap_append, filterMap_cons_some hbrought,
          filterMap_cons_some hbrought, filterMap_nil]
        exact Register.foldl_write_decisive hc
    obtain ⟨order, horder, hfinal⟩ := hends a ha
    obtain ⟨order', horder', hfinal'⟩ := hends b hb
    rw [← hfinal, ← hfinal']
    exact (horders order order' horder horder').1
  · intro hagree order order' horder horder'
    have hdecisive : ∀ a b : PostingSetting,
        row.postingSetting.Decisive (postings.filterMap (broughtSetting row.boardId)) a →
        row.postingSetting.Decisive (postings.filterMap (broughtSetting row.boardId)) b →
        a = b := by
      intro a b ha hb
      have hvalue := hagree a b ha hb
      have hstamp : a.stamp = b.stamp := le_antisymm (hb.latest a ha.mem) (ha.latest b hb.mem)
      obtain ⟨value, stamp⟩ := a
      obtain ⟨value', stamp'⟩ := b
      simp only at hvalue hstamp
      rw [hvalue, hstamp]
    have hbrought : ∀ {list : List (Filed env)}, (∀ p, p ∈ list ↔ p ∈ postings) →
        ∀ e, e ∈ list.filterMap (broughtSetting row.boardId) ↔
          e ∈ postings.filterMap (broughtSetting row.boardId) := by
      intro list hlist e
      simp only [mem_filterMap, hlist]
    have hsame : (order.foldl deliverPosting row).postingSetting =
        (order'.foldl deliverPosting row).postingSetting := by
      rw [foldl_deliverPosting, foldl_deliverPosting]
      exact Register.foldl_write_congr hdecisive (hbrought horder) (hbrought horder')
    exact ⟨congrArg Register.value hsame, congrArg Register.stamp hsame⟩

section Sample

open Sample

def boardPosting (mode createdAt : String) : Json :=
  raw "board_posting" 1 [("origin_fingerprint", .str "origin"), ("board_id", .str "board"),
    ("posting", .str mode), ("created_at", .str createdAt)]

def tiedPostings : List Json :=
  [boardPosting "anyone" "2026-09-01T00:00:00.000000Z",
    boardPosting "origin_only" "2026-09-01T00:00:00.000000Z"]

def filed (raws : List Json) : List (Filed Sample.env) :=
  raws.filterMap fun raw => (Filed.fromDict Sample.env raw).toOption

/-- Both are accepted from their origin in either order, and the one delivered first stays. -/
theorem tied_posting_delivered_first_stays :
    ((node.handleEvents "origin" 0 (boardGenesis :: tiedPostings)).1.toOption.map List.length) = some 3 ∧
      ((node.handleEvents "origin" 0 (boardGenesis :: tiedPostings.reverse)).1.toOption.map
        List.length) = some 3 ∧
      ((filed tiedPostings).foldl deliverPosting ⟨"board", none, none, none, none, none, none,
        none, none⟩).linkPosting = some "anyone" ∧
      ((filed tiedPostings.reverse).foldl deliverPosting ⟨"board", none, none, none, none, none,
        none, none, none⟩).linkPosting = some "origin_only" := by
  decide +kernel

end Sample

end NetBBS
