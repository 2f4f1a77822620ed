import NetBBS.Foundation.Runs
import NetBBS.Qwknet.Toss

/-! # No message vanishes -/

namespace NetBBS.Qwknet

open Foundation List

variable {machine : Machine} {clock : Clock} {network : QwknetNetwork} {node : Option QwknetNode}
    {message : Incoming} {db : Db} {state after : Db × TossResult}

def OutOfDate (machine : Machine) (clock : Clock) (message : Incoming) : Prop :=
  ∃ moment, message.moment machine clock = some moment ∧ instant moment ≤ clock.now ∧ moment.toUtc = none

/-- Neither a vote nor a loop nor a duplicate. -/
def Arrives (machine : Machine) (network : QwknetNetwork) (node : Option QwknetNode) (message : Incoming) (db : Db) :
    Prop :=
  message.status ≠ 'V' ∧ isAmong (message.route machine (sourceOf network node)) network.ourId = false ∧
    seen db network.id (message.key machine) = false

def Carried (machine : Machine) (network : QwknetNetwork) (node : Option QwknetNode) (message : Incoming) (db : Db) :
    Prop :=
  if message.conference = mailConference then
    node = none ∧ ∃ recipient, mailRecipient machine db network message.toName = .ok recipient
  else (networkConference db network.id message.conference).isSome = true

def Stops (machine : Machine) (clock : Clock) (network : QwknetNetwork) (node : Option QwknetNode)
    (message : Incoming) (db : Db) : Prop :=
  Arrives machine network node message db ∧ Carried machine network node message db ∧
    OutOfDate machine clock message

def Skips (machine : Machine) (network : QwknetNetwork) (node : Option QwknetNode) (message : Incoming) (db : Db) :
    Prop :=
  message.status = 'V' ∨
    Arrives machine network node message db ∧ message.conference = mailConference ∧ node.isSome = true

theorem writtenAt_eq_none : writtenAt machine clock message = none ↔ OutOfDate machine clock message := by
  unfold writtenAt OutOfDate
  cases message.moment machine clock with
  | none => simp
  | some moment =>
    by_cases hlate : clock.now < instant moment
    · simp [hlate]
    · simp [hlate, Int.not_lt.mp hlate]

private theorem reword_eq_error {α ε ε' : Type} {f : ε → ε'} {x : Except ε α} {e : ε'} :
    reword f x = .error e ↔ ∃ refusal, x = .error refusal ∧ f refusal = e := by
  cases x with
  | ok a => simp [reword]
  | error refusal => simp [reword]

theorem deliverMail_overflow (route : List Text) :
    deliverMail machine clock db network message route = .error .overflowError ↔
      (∃ recipient, mailRecipient machine db network message.toName = .ok recipient) ∧
        writtenAt machine clock message = none := by
  simp only [deliverMail, bind_eq_error, reword_eq_error, reword_eq_ok, orRefuse_eq_error, orRefuse_eq_ok,
    reduceCtorEq, and_false, exists_false, false_or, or_false, pure_ne_error, and_true, exists_and_right]

theorem writePost_overflow (route : List Text) (board : Boards.Board) :
    writePost machine clock db network node message route board = .error .overflowError ↔
      writtenAt machine clock message = none := by
  simp only [writePost, bind_eq_error, reword_eq_error, orRefuse_eq_error, reduceCtorEq, and_false, exists_false,
    or_false, pure_ne_error, and_true]

theorem toss_overflow : toss machine clock network node message db = .error .overflowError ↔
      Stops machine clock network node message db := by
  unfold toss Stops Arrives Carried
  dsimp only
  by_cases hvote : message.status = 'V'
  · simp [hvote]
  rw [if_neg hvote]
  cases hloop : isAmong (message.route machine (sourceOf network node)) network.ourId with
  | true => simp
  | false =>
    cases hseen : seen db network.id (message.key machine) with
    | true => simp
    | false =>
      rw [if_neg (by decide), if_neg (by decide)]
      by_cases hmail : message.conference = mailConference
      · rw [if_pos hmail, if_pos hmail]
        cases node with
        | some node => simp
        | none =>
          rw [if_neg (by decide), bind_eq_error, deliverMail_overflow, writtenAt_eq_none]
          simp [hvote]
      · rw [if_neg hmail, if_neg hmail]
        cases networkConference db network.id message.conference with
        | none => simp [orRefuse, error_bind]
        | some board =>
          rw [orRefuse_some, ok_bind, bind_eq_error, writePost_overflow, writtenAt_eq_none]
          simp [hvote]

variable {route : List Text} {stored : Db} {reason : HoldReason} {networkId : Nat}

theorem deliverMail_held
    (h : deliverMail machine clock db network message route = .ok stored) : stored.held = db.held := by
  simp only [deliverMail, bind_eq_ok, pure_eq_ok] at h
  obtain ⟨_, -, _, -, _, -, rfl⟩ := h
  rfl

theorem writePost_held {board : Boards.Board}
    (h : writePost machine clock db network node message route board = .ok stored) : stored.held = db.held := by
  simp only [writePost, bind_eq_ok, pure_eq_ok] at h
  obtain ⟨_, -, _, -, rfl⟩ := h
  rfl

theorem toss_ok {outcome : Outcome}
    (h : toss machine clock network node message db = .ok (stored, outcome)) :
    stored.held = db.held ∧ outcome ≠ .held ∧ (outcome = .skipped ↔ Skips machine network node message db) := by
  unfold toss at h
  unfold Skips Arrives
  dsimp only at h
  by_cases hvote : message.status = 'V'
  · rw [if_pos hvote] at h
    cases h
    simp [hvote]
  rw [if_neg hvote] at h
  cases hloop : isAmong (message.route machine (sourceOf network node)) network.ourId with
  | true =>
    rw [hloop, if_pos rfl] at h
    cases h
    simp [hvote]
  | false =>
    rw [hloop, if_neg (by decide)] at h
    cases hseen : seen db network.id (message.key machine) with
    | true =>
      rw [hseen, if_pos rfl] at h
      cases h
      simp [hvote]
    | false =>
      rw [hseen, if_neg (by decide)] at h
      by_cases hmail : message.conference = mailConference
      · rw [if_pos hmail] at h
        cases node with
        | some node =>
          cases h
          simp [hvote, hmail]
        | none =>
          simp only [Option.isSome_none, Bool.false_eq_true, if_false, bind_eq_ok, pure_eq_ok] at h
          obtain ⟨delivered, hdelivered, hsame⟩ := h
          obtain ⟨rfl, rfl⟩ := Prod.mk.inj hsame
          exact ⟨deliverMail_held hdelivered, by decide, by simp [hvote]⟩
      · rw [if_neg hmail] at h
        simp only [bind_eq_ok, pure_eq_ok] at h
        obtain ⟨board, -, written, hwritten, hsame⟩ := h
        obtain ⟨rfl, rfl⟩ := Prod.mk.inj hsame
        exact ⟨writePost_held hwritten, by decide, by simp [hvote, hmail]⟩

theorem toss_hold (h : toss machine clock network node message db = .error (.hold reason)) :
    ¬Skips machine network node message db := by
  unfold toss at h
  unfold Skips Arrives
  dsimp only at h
  rintro (hvote | ⟨⟨hvote, hloop, hseen⟩, hmail, hnode⟩)
  · rw [if_pos hvote] at h
    cases h
  · rw [if_neg hvote, hloop, if_neg (by decide), hseen, if_neg (by decide), if_pos hmail, if_pos hnode] at h
    cases h

structure HeldSound (held : List Held) : Prop where
  ids : (held.map Held.id).Nodup
  room : ∀ networkId, (held.filter (isHeldMessage networkId)).length ≤ maxHeldMessages
  written : ∀ row ∈ held, ∀ conference, row.conference = some conference →
    ∃ message : Incoming, row.content = .message message.asJson ∧ message.conference = conference

variable {held : List Held} {kind : Held → Bool} {limit : Nat} {row : Held}

theorem HeldSound.sublist {less : List Held} (h : HeldSound held) (hless : less.Sublist held) : HeldSound less where
  ids := h.ids.sublist (hless.map Held.id)
  room networkId := (hless.filter _).length_le.trans (h.room networkId)
  written row hrow := h.written row (hless.subset hrow)

theorem nodup_next (h : (held.map Held.id).Nodup) (row : Held) :
    ((held ++ [{ row with id := maxNumber Held.id held + 1 }]).map Held.id).Nodup := by
  rw [map_append, nodup_append]
  refine ⟨h, by simp, ?_⟩
  intro id hid other hother
  obtain ⟨old, hold, rfl⟩ := mem_map.mp hid
  simp only [map_cons, map_nil, mem_singleton] at hother
  have hle : old.id ≤ maxNumber Held.id held := le_maxNumber hold
  omega

theorem HeldSound.hold (h : HeldSound held) (hkind : ∀ networkId, isHeldMessage networkId row = true →
      kind = isHeldMessage networkId ∧ limit = maxHeldMessages)
    (hwritten : ∀ conference, row.conference = some conference →
      ∃ message : Incoming, row.content = .message message.asJson ∧ message.conference = conference) :
    HeldSound (hold held kind limit row) where
  ids := (nodup_next h.ids row).sublist ((keepNewest_sublist _ _ _ _).map Held.id)
  room networkId := by
    cases hmessage : isHeldMessage networkId row with
    | true =>
      obtain ⟨rfl, rfl⟩ := hkind networkId hmessage
      exact length_keepNewest (nodup_next h.ids row)
    | false =>
      have hnot : isHeldMessage networkId { row with id := maxNumber Held.id held + 1 } = false := hmessage
      have hsub := (keepNewest_sublist Held.id kind limit
        (held ++ [{ row with id := maxNumber Held.id held + 1 }])).filter (isHeldMessage networkId)
      rw [filter_append, filter_cons_of_neg (by simp [hnot]), filter_nil, append_nil] at hsub
      exact hsub.length_le.trans (h.room networkId)
  written other hother := by
    have hin := (keepNewest_sublist _ _ _ _).subset hother
    rcases mem_append.mp hin with hin | hin
    · exact h.written other hin
    · rw [mem_singleton.mp hin]
      exact hwritten

theorem isHeldMessage_message {id other : Nat} {source : Text} {conference : Number}
    {content : Content} (h : isHeldMessage other ⟨id, networkId, source, some conference, reason, content⟩ = true) :
    other = networkId := by
  simp [isHeldMessage] at h
  exact h.symm

theorem sound_holdMessage (h : HeldSound db.held) (networkId : Nat) (source : Text) (message : Incoming)
    (reason : HoldReason) : HeldSound (holdMessage db networkId source message reason).held := by
  refine h.hold (fun other hother => ?_) fun conference hconference => ?_
  · rw [isHeldMessage_message hother]
    exact ⟨rfl, rfl⟩
  · exact ⟨message, rfl, Option.some.inj hconference⟩

theorem sound_holdPacket (h : HeldSound db.held) (networkId : Nat) (source : Text) (data : List UInt8)
    (reason : HoldReason) : HeldSound (holdPacket db networkId source data reason).held := by
  refine h.hold (fun other hother => ?_) nofun
  simp [isHeldMessage] at hother

theorem holdMessage_stored (db : Db) (networkId : Nat) (source : Text) (message : Incoming) (reason : HoldReason) :
    ⟨maxNumber Held.id db.held + 1, networkId, source, some message.conference, reason,
      .message message.asJson⟩ ∈ (holdMessage db networkId source message reason).held := by
  refine mem_keepNewest (by simp) ?_ (by decide)
  intro other hother
  rcases mem_append.mp hother with hother | hother
  · have hle : other.id ≤ maxNumber Held.id db.held := le_maxNumber hother
    exact Nat.le_succ_of_le hle
  · rw [mem_singleton.mp hother]

theorem holdMessage_keeps
    (hroom : (db.held.filter (isHeldMessage networkId)).length < maxHeldMessages) (source : Text)
    (message : Incoming) (reason : HoldReason) :
    ∀ row ∈ db.held, row ∈ (holdMessage db networkId source message reason).held := by
  intro row hrow
  have hfits : ∀ new : Held, ((db.held ++ [new]).filter (isHeldMessage networkId)).length ≤ maxHeldMessages := by
    intro new
    have hone : ([new].filter (isHeldMessage networkId)).length ≤ 1 := length_filter_le _ _
    rw [filter_append, length_append]
    omega
  show row ∈ keepNewest Held.id (isHeldMessage networkId) maxHeldMessages _
  rw [keepNewest_of_fits (hfits _)]
  exact mem_append_left _ hrow

end NetBBS.Qwknet
