import Mathlib.Data.List.Induction
import NetBBS.Qwk.OfflineMail

/-! # Runs of offline mail -/

namespace NetBBS.Qwk

open Foundation List

abbrev Numbered (rows : Rows) : Prop := Numbering ConferenceRow.number ConferenceRow.boardKey rows

abbrev Kept (rows later : Rows) : Prop :=
  Foundation.Extends ConferenceRow.number ConferenceRow.boardKey rows later

def Holds (rows : Rows) (number : Nat) (boardKey : String) : Prop :=
  ∃ row ∈ rows, row.number = number ∧ row.boardKey = boardKey

variable {rows later : Rows} {number : Nat} {boardKey : String}

theorem Holds.kept (h : Holds rows number boardKey) (hkept : Kept rows later) :
    Holds later number boardKey := by
  obtain ⟨row, hrow, rfl, rfl⟩ := h
  exact hkept row hrow

theorem Holds.sameBoard (h : Holds rows number boardKey) {other : String}
    (hother : Holds rows number other) (hrows : Numbered rows) : boardKey = other := by
  obtain ⟨row, hrow, hnumber, rfl⟩ := h
  obtain ⟨row', hrow', hnumber', rfl⟩ := hother
  exact hrows.sameKey hrow hrow' (hnumber.trans hnumber'.symm)

theorem rechosen_number (boardKey : String) (choice : Choice) (other : ConferenceRow) :
    (if other.boardKey = boardKey then { other with choice } else other).number = other.number := by
  split <;> rfl

theorem rechosen_boardKey (boardKey : String) (choice : Choice) (other : ConferenceRow) :
    (if other.boardKey = boardKey then { other with choice } else other).boardKey =
      other.boardKey := by
  split <;> rfl

theorem setChoice_spec (hrows : Numbered rows) {choice : Choice}
    (h : setChoice rows boardKey choice = .ok (number, later)) :
    Numbered later ∧ Kept rows later ∧ Holds later number boardKey := by
  unfold setChoice at h
  cases hfound : rows.find? fun row => decide (row.boardKey = boardKey) with
  | some row =>
    rw [hfound] at h
    obtain ⟨rfl, rfl⟩ : _ ∧ _ := by simpa only [Except.ok.injEq, Prod.mk.injEq] using h
    have hmem := mem_of_find?_eq_some hfound
    have hkey : row.boardKey = boardKey := by simpa using find?_some hfound
    obtain ⟨hnumbered, hkept⟩ := hrows.map (rechosen_number boardKey choice)
      (rechosen_boardKey boardKey choice)
    obtain ⟨kept, hin, hnumber, hsame⟩ := hkept row hmem
    exact ⟨hnumbered, hkept, kept, hin, hnumber, hsame.trans hkey⟩
  | none =>
    rw [hfound] at h
    unfold nextNumber at h
    by_cases hfull : 65535 ≤ maxNumber ConferenceRow.number rows
    · simp only [if_pos hfull] at h
      cases h
    · simp only [if_neg hfull] at h
      obtain ⟨rfl, rfl⟩ : _ ∧ _ := by
        simpa only [bind, Except.bind, Except.ok.injEq, Prod.mk.injEq] using h
      refine ⟨hrows.snoc rfl ?_, extends_append rows _, _, mem_append_right rows
        (mem_singleton_self _), rfl, rfl⟩
      intro old hold hsame
      exact absurd (find?_eq_none.mp hfound old hold) (by simpa using hsame)

theorem listConferences_holds {boards : List Board} {conference : QwkConference}
    (h : conference ∈ listConferences rows boards) (hnumber : conference.number = some number) :
    Holds rows number conference.board.boardId := by
  obtain ⟨board, -, hboard⟩ := mem_map.mp h
  cases hfound : rows.find? fun row => decide (row.boardKey = board.boardId) with
  | none =>
    rw [hfound] at hboard
    obtain rfl := hboard
    cases hnumber
  | some row =>
    rw [hfound] at hboard
    obtain rfl := hboard
    exact ⟨row, mem_of_find?_eq_some hfound, Option.some.inj hnumber,
      by simpa using find?_some hfound⟩

def AllHold (rows : Rows) (conferences : List QwkConference) : Prop :=
  ∀ conference ∈ conferences, ∀ number, conference.number = some number →
    Holds rows number conference.board.boardId

theorem AllHold.kept {conferences : List QwkConference} (h : AllHold rows conferences)
    (hkept : Kept rows later) : AllHold later conferences :=
  fun conference hconference number hnumber => (h conference hconference number hnumber).kept hkept

theorem numberChosen_spec {chosen : List QwkConference} (hrows : Numbered rows)
    (hchosen : AllHold rows chosen) :
    Numbered (numberChosen rows chosen).2 ∧ Kept rows (numberChosen rows chosen).2 ∧
      ∀ conferences, (numberChosen rows chosen).1 = .ok conferences →
        AllHold (numberChosen rows chosen).2 conferences := by
  induction chosen generalizing rows with
  | nil =>
    refine ⟨hrows, extends_refl rows, ?_⟩
    intro conferences hok
    obtain rfl := Except.ok.inj hok
    intro conference hconference
    cases hconference
  | cons first rest ih =>
    have hrest : AllHold rows rest :=
      fun conference hconference => hchosen conference (mem_cons_of_mem first hconference)
    unfold numberChosen
    cases hnumber : first.number with
    | some number =>
      obtain ⟨hnumbered, hkept, hall⟩ := ih hrows hrest
      refine ⟨hnumbered, hkept, ?_⟩
      intro conferences hok
      cases hresult : (numberChosen rows rest).1 with
      | error e =>
        simp only [hresult, Except.map] at hok
        cases hok
      | ok others =>
        simp only [hresult, Except.map] at hok
        obtain rfl := Except.ok.inj hok
        intro conference hconference n hn
        rcases mem_cons.mp hconference with rfl | hother
        · exact (hchosen conference (.head _) n hn).kept hkept
        · exact hall others hresult conference hother n hn
    | none =>
      simp only
      cases hset : setChoice rows first.board.boardId first.choice with
      | error e => exact ⟨hrows, extends_refl rows, fun conferences hok => by cases hok⟩
      | ok given =>
        obtain ⟨number, given⟩ := given
        obtain ⟨hgiven, hgivenKept, hholds⟩ := setChoice_spec hrows hset
        obtain ⟨hnumbered, hkept, hall⟩ := ih hgiven (hrest.kept hgivenKept)
        refine ⟨hnumbered, hgivenKept.trans hkept, ?_⟩
        intro conferences hok
        cases hresult : (numberChosen given rest).1 with
        | error e =>
          simp only [hresult, Except.map] at hok
          cases hok
        | ok others =>
          simp only [hresult, Except.map] at hok
          obtain rfl := Except.ok.inj hok
          intro conference hconference n hn
          rcases mem_cons.mp hconference with rfl | hother
          · obtain rfl := Option.some.inj hn
            exact hholds.kept hkept
          · exact hall others hresult conference hother n hn

theorem boardByNumber_holds {boards : List Board} {board : Board}
    (h : boardByNumber rows boards number = some board) : Holds rows number board.boardId := by
  obtain ⟨conference, hfound, rfl⟩ := Option.map_eq_some_iff.mp h
  have hmem := mem_reverse.mp (mem_of_find?_eq_some hfound)
  exact listConferences_holds hmem (by simpa using find?_some hfound)

def Grows (rows : Rows) (result : Except QwkError Rows) : Prop :=
  ∀ later, result = .ok later → Numbered later ∧ Kept rows later

theorem grows_foldlM {wish : Type} {change : Rows → wish → Except QwkError Rows}
    (hchange : ∀ rows w, Numbered rows → Grows rows (change rows w)) (wishes : List wish)
    {rows : Rows} (hrows : Numbered rows) : Grows rows (wishes.foldlM change rows) := by
  induction wishes generalizing rows with
  | nil =>
    intro later hok
    obtain rfl := Except.ok.inj hok
    exact ⟨hrows, extends_refl rows⟩
  | cons w rest ih =>
    intro later hok
    rw [foldlM_cons] at hok
    cases hfirst : change rows w with
    | error e =>
      rw [hfirst] at hok
      cases hok
    | ok changed =>
      rw [hfirst] at hok
      obtain ⟨hchanged, hkept⟩ := hchange rows w hrows changed hfirst
      obtain ⟨hlater, hkept'⟩ := ih hchanged later hok
      exact ⟨hlater, hkept.trans hkept'⟩

theorem grows_setChoice {rows : Rows} (hrows : Numbered rows) (boardKey : String) (choice : Choice) :
    Grows rows (do let changed ← setChoice rows boardKey choice; .ok changed.2) := by
  intro later hok
  cases hset : setChoice rows boardKey choice with
  | error e =>
    rw [hset] at hok
    cases hok
  | ok changed =>
    rw [hset] at hok
    obtain rfl := Except.ok.inj hok
    obtain ⟨hnumbered, hkept, -⟩ := setChoice_spec hrows hset
    exact ⟨hnumbered, hkept⟩

theorem grows_same {rows : Rows} (hrows : Numbered rows) : Grows rows (.ok rows) := by
  intro later hok
  obtain rfl := Except.ok.inj hok
  exact ⟨hrows, extends_refl rows⟩

theorem grows_saveChoice (current : List QwkConference) (boardId : Nat) (wanted : Bool)
    {rows : Rows} (hrows : Numbered rows) : Grows rows (saveChoice current rows boardId wanted) := by
  unfold saveChoice
  split
  · exact grows_same hrows
  · split
    · exact grows_same hrows
    · exact grows_setChoice hrows _ _

theorem grows_readerChoice (current : List QwkConference) (number : Nat) (wanted : Bool)
    {rows : Rows} (hrows : Numbered rows) :
    Grows rows (readerChoice current rows number wanted) := by
  unfold readerChoice
  split
  · exact grows_same hrows
  · split
    · exact grows_same hrows
    · exact grows_setChoice hrows _ _

structure Consistent (s : CallerMail) : Prop where
  rows : Numbered s.rows
  committed : Numbered s.committed
  kept : Kept s.committed s.rows
  packets : ∀ packet ∈ s.packets, ∀ entry ∈ packet, Holds s.committed entry.1 entry.2

structure Advances (s next : CallerMail) : Prop where
  consistent : Consistent next
  kept : Kept s.committed next.committed

variable {s : CallerMail}

theorem advances_packetConferences (h : Consistent s) (boards : List Board) :
    Advances s (packetConferences s boards).2 ∧
      (packetConferences s boards).2.packets = s.packets ∧
      ∀ conferences, (packetConferences s boards).1 = .ok conferences →
        AllHold (packetConferences s boards).2.rows conferences := by
  have hchosen : AllHold s.rows ((listConferences s.rows boards).filter QwkConference.included) :=
    fun conference hconference number hnumber =>
      listConferences_holds (mem_filter.mp hconference).1 hnumber
  obtain ⟨hnumbered, hkept, hall⟩ := numberChosen_spec h.rows hchosen
  unfold packetConferences
  simp only
  split
  · split
    · rename_i e herror
      exact ⟨⟨⟨hnumbered, h.committed, h.kept.trans hkept, h.packets⟩, extends_refl _⟩, rfl,
        fun conferences hok => by cases hok⟩
    · rename_i numbered hok
      refine ⟨⟨⟨hnumbered, hnumbered, extends_refl _, ?_⟩, h.kept.trans hkept⟩, rfl, ?_⟩
      · intro packet hpacket entry hentry
        exact (h.packets packet hpacket entry hentry).kept (h.kept.trans hkept)
      · intro conferences hsame
        obtain rfl := Except.ok.inj hsame
        exact hall _ hok
  · refine ⟨⟨h, extends_refl _⟩, rfl, ?_⟩
    intro conferences hsame
    obtain rfl := Except.ok.inj hsame
    exact hchosen

theorem Consistent.stored {next : CallerMail} (h : Consistent s) (hrows : Numbered next.rows)
    (hkept : Kept s.rows next.rows) (hstored : next.committed = next.rows)
    (hpackets : next.packets = s.packets) : Advances s next := by
  have hkept' : Kept s.committed next.rows := h.kept.trans hkept
  refine ⟨⟨hrows, ?_, ?_, ?_⟩, ?_⟩
  · rw [hstored]
    exact hrows
  · rw [hstored]
    exact extends_refl _
  · intro packet hpacket entry hentry
    rw [hpackets] at hpacket
    rw [hstored]
    exact (h.packets packet hpacket entry hentry).kept hkept'
  · rw [hstored]
    exact hkept'

theorem Consistent.stays (h : Consistent s) : Advances s s :=
  ⟨h, extends_refl _⟩

theorem Advances.trans {next last : CallerMail} (h : Advances s next)
    (hlast : Advances next last) : Advances s last :=
  ⟨hlast.consistent, h.kept.trans hlast.kept⟩

section

variable (h : Consistent s)

include h

theorem advances_buildCallerPacket (boards : List Board) :
    Advances s (buildCallerPacket s boards) := by
  obtain ⟨hnumbered, -, hall⟩ := advances_packetConferences h boards
  unfold buildCallerPacket
  cases hresult : packetConferences s boards with
  | mk result numbered =>
    rw [hresult] at hnumbered hall
    cases result with
    | error e => exact hnumbered
    | ok conferences =>
      have hrows := hnumbered.consistent.rows
      have hkept := hnumbered.consistent.kept
      refine ⟨⟨hrows, hrows, extends_refl _, ?_⟩, hnumbered.kept.trans hkept⟩
      intro packet hpacket entry hentry
      rcases mem_append.mp hpacket with hold | hnew
      · exact (hnumbered.consistent.packets packet hold entry hentry).kept hkept
      · obtain rfl := mem_singleton.mp hnew
        obtain ⟨conference, hconference, hentry⟩ := mem_filterMap.mp hentry
        obtain ⟨number, hnumber, rfl⟩ := Option.map_eq_some_iff.mp hentry
        exact hall conferences rfl conference hconference number hnumber

theorem advances_rollback : Advances s { s with rows := s.committed } :=
  ⟨⟨h.committed, h.committed, extends_refl _, h.packets⟩, extends_refl _⟩

theorem advances_saveConferenceChoices (boards : List Board)
    (included : List (Nat × Bool)) : Advances s (saveConferenceChoices s boards included) := by
  have hgrows := @grows_foldlM _ (fun rows wish =>
    saveChoice (listConferences s.rows boards) rows wish.1 wish.2)
    (fun rows wish hrows => grows_saveChoice _ wish.1 wish.2 hrows) included s.rows h.rows
  unfold saveConferenceChoices
  simp only
  split
  · exact advances_rollback h
  · rename_i rows hok
    obtain ⟨hrows, hkept⟩ := hgrows rows hok
    exact h.stored hrows hkept rfl rfl

theorem advances_applyReaderChoices (boards : List Board)
    (dropped added : List Nat) : Advances s (applyReaderChoices s boards dropped added) := by
  have hgrows := @grows_foldlM _ (fun rows wish =>
    readerChoice (listConferences s.rows boards) rows wish.1 wish.2)
    (fun rows wish hrows => grows_readerChoice _ wish.1 wish.2 hrows)
    (dropped.map (·, false) ++ added.map (·, true)) s.rows h.rows
  unfold applyReaderChoices
  simp only
  split
  · exact h.stays
  · split
    · exact h.stays
    · rename_i rows hok
      obtain ⟨hrows, hkept⟩ := hgrows rows hok
      exact h.stored hrows hkept rfl rfl

end

theorem advances_applyRep (lib : TextHashing) (h : Consistent s)
    (upload : Upload) : Advances s (applyRep lib s upload) := by
  have hreplied : Advances s { s with
      committed := s.rows
      seen := (applyReplies lib s.rows upload.boards (trimSeen s.seen upload.now) upload.replies).2
      outcomes := s.outcomes ++
        (applyReplies lib s.rows upload.boards (trimSeen s.seen upload.now) upload.replies).1 } :=
    h.stored h.rows (extends_refl _) rfl rfl
  exact hreplied.trans (advances_applyReaderChoices hreplied.consistent _ _ _)

theorem advances_mailStep (lib : TextHashing) (h : Consistent s) (op : MailOp) :
    Advances s (mailStep lib s op) := by
  cases op with
  | packet boards => exact advances_buildCallerPacket h boards
  | number boards => exact (advances_packetConferences h boards).1
  | save boards included => exact advances_saveConferenceChoices h boards included
  | upload upload => exact advances_applyRep lib h upload
  | commit => exact h.stored h.rows (extends_refl _) rfl rfl
  | rollback => exact advances_rollback h

theorem advances_run (lib : TextHashing) (ops : List MailOp) (h : Consistent s) :
    Advances s (ops.foldl (mailStep lib) s) := by
  induction ops generalizing s with
  | nil => exact h.stays
  | cons op rest ih =>
    have hstep := advances_mailStep lib h op
    exact hstep.trans (ih hstep.consistent)

theorem consistent_start : Consistent {} :=
  ⟨numbering_nil, numbering_nil, extends_refl _, fun packet hpacket => by cases hpacket⟩

theorem mailRun_append (lib : TextHashing) (before after : List MailOp) :
    mailRun lib (before ++ after) = after.foldl (mailStep lib) (mailRun lib before) :=
  foldl_append

theorem consistent_mailRun (lib : TextHashing) (ops : List MailOp) : Consistent (mailRun lib ops) :=
  (advances_run lib ops consistent_start).consistent

def wentOut (lib : TextHashing) (outcomes : List ReplyOutcome) : List String :=
  (outcomes.filter fun outcome => decide (outcome.status ≠ .refused)).map fun outcome =>
    digest lib outcome.message

theorem wentOut_append (lib : TextHashing) (first others : List ReplyOutcome) :
    wentOut lib (first ++ others) = wentOut lib first ++ wentOut lib others := by
  unfold wentOut
  rw [filter_append, map_append]

theorem answer_message (rows : Rows) (boards : List Board) (reply : Reply) :
    (answer rows boards reply).message = reply.message := by
  unfold answer
  split
  · rfl
  · split <;> rfl

variable {reply : Reply} {seen : List SeenRow}

theorem answer_board {rows : Rows} {boards : List Board} {boardKey : String}
    (h : (answer rows boards reply).board = some boardKey) :
    Holds rows reply.message.conference boardKey := by
  unfold answer at h
  split at h
  · cases h
  · split at h
    · cases h
    · rename_i board hboard
      obtain rfl := Option.some.inj h
      exact boardByNumber_holds hboard

variable (lib : TextHashing) (rows : Rows) (boards : List Board)

theorem applyReply_known (h : digest lib reply.message ∈ seen.map SeenRow.digest) :
    applyReply lib rows boards seen reply = (⟨reply.message, none, .refused⟩, seen) := by
  obtain ⟨row, hrow, hdigest⟩ := mem_map.mp h
  unfold applyReply
  rw [if_pos]
  exact any_eq_true.mpr ⟨row, hrow, decide_eq_true hdigest⟩

theorem applyReply_new (h : digest lib reply.message ∉ seen.map SeenRow.digest) :
    applyReply lib rows boards seen reply = (answer rows boards reply,
      if (answer rows boards reply).status ≠ .refused then
        seen ++ [⟨digest lib reply.message, reply.time⟩] else seen) := by
  unfold applyReply
  rw [if_neg]
  intro hany
  obtain ⟨row, hrow, hdigest⟩ := any_eq_true.mp hany
  exact h (mem_map.mpr ⟨row, hrow, of_decide_eq_true hdigest⟩)

theorem applyReply_remembers (seen : List SeenRow) (reply : Reply) :
    let applied := applyReply lib rows boards seen reply
    applied.2.map SeenRow.digest = seen.map SeenRow.digest ++ wentOut lib [applied.1] ∧
      ((seen.map SeenRow.digest).Nodup → (applied.2.map SeenRow.digest).Nodup) := by
  intro applied
  by_cases hknown : digest lib reply.message ∈ seen.map SeenRow.digest
  · have happlied : applied = _ := applyReply_known lib rows boards hknown
    rw [happlied]
    exact ⟨(append_nil _).symm, id⟩
  · have happlied : applied = _ := applyReply_new lib rows boards hknown
    by_cases hrefused : (answer rows boards reply).status = .refused
    · rw [happlied, if_neg (by simpa using hrefused)]
      refine ⟨?_, id⟩
      simp [wentOut, hrefused]
    · rw [happlied, if_pos hrefused]
      constructor
      · simp [wentOut, hrefused, answer_message]
      · intro hnodup
        rw [map_append, map_singleton, nodup_append]
        refine ⟨hnodup, nodup_singleton _, ?_⟩
        intro known hin new hnew hsame
        have hsame' : known = digest lib reply.message := hsame.trans (mem_singleton.mp hnew)
        exact hknown (hsame' ▸ hin)

theorem applyReplies_remembers (seen : List SeenRow) (replies : List Reply) :
    let applied := applyReplies lib rows boards seen replies
    applied.2.map SeenRow.digest = seen.map SeenRow.digest ++ wentOut lib applied.1 ∧
      ((seen.map SeenRow.digest).Nodup → (applied.2.map SeenRow.digest).Nodup) := by
  induction replies generalizing seen with
  | nil => exact ⟨(append_nil _).symm, id⟩
  | cons reply rest ih =>
    intro applied
    obtain ⟨hfirst, hnodup⟩ := applyReply_remembers lib rows boards seen reply
    obtain ⟨hrest, hnodup'⟩ := ih (applyReply lib rows boards seen reply).2
    refine ⟨?_, fun h => hnodup' (hnodup h)⟩
    show ((applyReplies lib rows boards (applyReply lib rows boards seen reply).2 rest).2).map
        SeenRow.digest = _ ++ wentOut lib ([(applyReply lib rows boards seen reply).1] ++
          (applyReplies lib rows boards (applyReply lib rows boards seen reply).2 rest).1)
    rw [hrest, hfirst, wentOut_append, append_assoc]

theorem applyReplies_board {replies : List Reply} {outcome : ReplyOutcome}
    (h : outcome ∈ (applyReplies lib rows boards seen replies).1) {boardKey : String}
    (hboard : outcome.board = some boardKey) : Holds rows outcome.message.conference boardKey := by
  induction replies generalizing seen with
  | nil => cases h
  | cons reply rest ih =>
    rcases mem_cons.mp h with rfl | hrest
    · by_cases hknown : digest lib reply.message ∈ seen.map SeenRow.digest
      · rw [applyReply_known lib rows boards hknown] at hboard
        cases hboard
      · rw [applyReply_new lib rows boards hknown] at hboard ⊢
        rw [answer_message]
        exact answer_board hboard
    · exact ih hrest

theorem applyReplies_length (seen : List SeenRow) (replies : List Reply) :
    (applyReplies lib rows boards seen replies).1.length = replies.length := by
  induction replies generalizing seen with
  | nil => rfl
  | cons reply rest ih => exact congrArg (· + 1) (ih _)

theorem applyReplies_append (seen : List SeenRow) (earlier later : List Reply) :
    applyReplies lib rows boards seen (earlier ++ later) =
      ((applyReplies lib rows boards seen earlier).1 ++
        (applyReplies lib rows boards (applyReplies lib rows boards seen earlier).2 later).1,
        (applyReplies lib rows boards (applyReplies lib rows boards seen earlier).2 later).2) := by
  induction earlier generalizing seen with
  | nil => rfl
  | cons reply rest ih =>
    simp only [cons_append, applyReplies, ih]

theorem trimSeen_sublist (seen : List SeenRow) (now : Int) : (trimSeen seen now).Sublist seen :=
  (filter_sublist).trans filter_sublist

def Remembered (seen : List SeenRow) (now : Int) : Prop :=
  (∀ row ∈ seen, now - repSeenPeriod ≤ row.seenAt) ∧ seen.length ≤ maxRepSeen

theorem trimSeen_remembered {now : Int} (h : Remembered seen now) : trimSeen seen now = seen := by
  obtain ⟨hperiod, hcount⟩ := h
  have hkept : (seen.filter fun row => decide (now - repSeenPeriod ≤ row.seenAt)) = seen :=
    filter_eq_self.mpr fun row hrow => decide_eq_true (hperiod row hrow)
  unfold trimSeen
  simp only [hkept]
  apply filter_eq_self.mpr
  intro row hrow
  apply decide_eq_true
  rw [take_of_length_le (by rw [length_insertionSort]; exact hcount)]
  exact mem_map_of_mem ((mem_insertionSort _).mpr hrow)

structure Remembers (s : CallerMail) : Prop where
  sent : ∀ row ∈ s.seen, row.digest ∈ wentOut lib s.outcomes

structure RemembersAll (s : CallerMail) : Prop where
  sent : s.seen.map SeenRow.digest = wentOut lib s.outcomes
  once : (s.seen.map SeenRow.digest).Nodup

def applied (s : CallerMail) (upload : Upload) (replies : List Reply) :
    List ReplyOutcome × List SeenRow :=
  applyReplies lib s.rows upload.boards (trimSeen s.seen upload.now) replies

theorem applyReaderChoices_frame (s : CallerMail) (dropped added : List Nat) :
    (applyReaderChoices s boards dropped added).seen = s.seen ∧
      (applyReaderChoices s boards dropped added).outcomes = s.outcomes := by
  unfold applyReaderChoices
  simp only
  split
  · exact ⟨rfl, rfl⟩
  · split <;> exact ⟨rfl, rfl⟩

theorem packetConferences_frame (s : CallerMail) : (packetConferences s boards).2.seen = s.seen ∧
      (packetConferences s boards).2.outcomes = s.outcomes := by
  unfold packetConferences
  simp only
  split
  · split <;> exact ⟨rfl, rfl⟩
  · exact ⟨rfl, rfl⟩

theorem buildCallerPacket_frame (s : CallerMail) : (buildCallerPacket s boards).seen = s.seen ∧
      (buildCallerPacket s boards).outcomes = s.outcomes := by
  have hframe := packetConferences_frame boards s
  unfold buildCallerPacket
  split
  · rename_i heq
    rw [heq] at hframe
    exact hframe
  · rename_i heq
    rw [heq] at hframe
    exact hframe

theorem saveConferenceChoices_frame (s : CallerMail) (included : List (Nat × Bool)) :
    (saveConferenceChoices s boards included).seen = s.seen ∧
      (saveConferenceChoices s boards included).outcomes = s.outcomes := by
  unfold saveConferenceChoices
  simp only
  split <;> exact ⟨rfl, rfl⟩

theorem mailStep_cases (s : CallerMail) (op : MailOp) : (∃ upload, op = .upload upload ∧
      (mailStep lib s op).seen = (applied lib s upload upload.replies).2 ∧
      (mailStep lib s op).outcomes = s.outcomes ++ (applied lib s upload upload.replies).1) ∨
    ((mailStep lib s op).seen = s.seen ∧ (mailStep lib s op).outcomes = s.outcomes) := by
  cases op with
  | packet boards => exact .inr (buildCallerPacket_frame boards s)
  | number boards => exact .inr (packetConferences_frame boards s)
  | save boards included => exact .inr (saveConferenceChoices_frame boards s included)
  | upload upload => exact .inl ⟨upload, rfl, applyReaderChoices_frame _ _ _ _⟩
  | commit => exact .inr ⟨rfl, rfl⟩
  | rollback => exact .inr ⟨rfl, rfl⟩

theorem applied_remembers (h : Remembers lib s) (upload : Upload) (replies : List Reply) :
    ∀ row ∈ (applied lib s upload replies).2,
      row.digest ∈ wentOut lib (s.outcomes ++ (applied lib s upload replies).1) := by
  intro row hrow
  obtain ⟨hdigests, -⟩ := applyReplies_remembers lib s.rows upload.boards
    (trimSeen s.seen upload.now) replies
  have hin : row.digest ∈ (applied lib s upload replies).2.map SeenRow.digest :=
    mem_map_of_mem hrow
  rw [wentOut_append, mem_append]
  rcases mem_append.mp (hdigests ▸ hin) with hold | hnew
  · obtain ⟨old, hold, hsame⟩ := mem_map.mp hold
    exact .inl (hsame ▸ h.sent old ((trimSeen_sublist s.seen upload.now).subset hold))
  · exact .inr hnew

theorem remembers_mailStep (h : Remembers lib s) (op : MailOp) :
    Remembers lib (mailStep lib s op) := by
  constructor
  rcases mailStep_cases lib s op with ⟨upload, -, hseen, houtcomes⟩ | ⟨hseen, houtcomes⟩
  · rw [hseen, houtcomes]
    exact applied_remembers lib h upload upload.replies
  · rw [hseen, houtcomes]
    exact h.sent

theorem remembers_mailRun (ops : List MailOp) : Remembers lib (mailRun lib ops) := by
  induction ops using List.reverseRecOn with
  | nil => exact ⟨fun row hrow => by cases hrow⟩
  | append_singleton before op ih =>
    rw [mailRun_append]
    exact remembers_mailStep lib ih op

theorem remembersAll_mailStep (h : RemembersAll lib s) {op : MailOp}
    (hwithin : ∀ upload, op = .upload upload → Remembered s.seen upload.now) :
    RemembersAll lib (mailStep lib s op) := by
  rcases mailStep_cases lib s op with ⟨upload, hop, hseen, houtcomes⟩ | ⟨hseen, houtcomes⟩
  · obtain ⟨hdigests, hnodup⟩ := applyReplies_remembers lib s.rows upload.boards
      (trimSeen s.seen upload.now) upload.replies
    have hall := trimSeen_remembered (hwithin upload hop)
    constructor
    · rw [hseen, houtcomes, wentOut_append, ← h.sent]
      rw [hall] at hdigests
      unfold applied
      rw [hall]
      exact hdigests
    · rw [hseen]
      exact hnodup (by rw [hall]; exact h.once)
  · constructor
    · rw [hseen, houtcomes]
      exact h.sent
    · rw [hseen]
      exact h.once

def Within (ops : List MailOp) : Prop :=
  ∀ before upload after, ops = before ++ .upload upload :: after →
    Remembered (mailRun lib before).seen upload.now

theorem remembersAll_mailRun {ops : List MailOp} (hwithin : Within lib ops) :
    RemembersAll lib (mailRun lib ops) := by
  induction ops using List.reverseRecOn with
  | nil => exact ⟨rfl, nodup_nil⟩
  | append_singleton before op ih =>
    rw [mailRun_append]
    apply remembersAll_mailStep lib
    · apply ih
      intro earlier upload later hbefore
      exact hwithin earlier upload (later ++ [op]) (by rw [hbefore, append_assoc]; rfl)
    · intro upload hop
      exact hwithin before upload [] (by rw [hop])

theorem applied_new (h : Remembers lib s) {upload : Upload} {earlier later : List Reply}
    (hnew : digest lib reply.message ∉ wentOut lib (s.outcomes ++ (applied lib s upload earlier).1)) :
    (applied lib s upload (earlier ++ reply :: later)).1[earlier.length]? =
      some (answer s.rows upload.boards reply) := by
  have hunseen : digest lib reply.message ∉
      (applied lib s upload earlier).2.map SeenRow.digest := by
    intro hin
    obtain ⟨row, hrow, hsame⟩ := mem_map.mp hin
    exact hnew (hsame ▸ applied_remembers lib h upload earlier row hrow)
  unfold applied at hunseen ⊢
  rw [applyReplies_append, getElem?_append_right (by rw [applyReplies_length])]
  rw [applyReplies_length, Nat.sub_self]
  show some (applyReply lib s.rows upload.boards _ reply).1 = _
  rw [applyReply_new lib s.rows upload.boards hunseen]

/-- In every run a number stands for one board and a board keeps its number, so that a reply is posted on
the board that had its number in the packet. -/
theorem mailRun_spec (lib : TextHashing) (ops : List MailOp) :
    Numbered (mailRun lib ops).rows ∧ Numbered (mailRun lib ops).committed ∧
      (∀ before after, ops = before ++ after →
        Kept (mailRun lib before).committed (mailRun lib ops).committed) ∧
      (∀ packet ∈ (mailRun lib ops).packets, ∀ entry ∈ packet,
        Holds (mailRun lib ops).committed entry.1 entry.2) ∧
      (∀ before upload after, ops = before ++ .upload upload :: after →
        ∀ outcome ∈ (applied lib (mailRun lib before) upload upload.replies).1,
        ∀ boardKey, outcome.board = some boardKey → ∀ packet ∈ (mailRun lib before).packets, ∀ entry ∈ packet,
          entry.1 = outcome.message.conference → entry.2 = boardKey) ∧
      (Within lib ops →
        (((mailRun lib ops).outcomes.filter fun outcome =>
          decide (outcome.status ≠ .refused)).map ReplyOutcome.message).Nodup) ∧
      (∀ before upload after, ops = before ++ .upload upload :: after →
        ∀ earlier reply later, upload.replies = earlier ++ reply :: later →
        digest lib reply.message ∉ wentOut lib
          ((mailRun lib before).outcomes ++ (applied lib (mailRun lib before) upload earlier).1) →
        (applied lib (mailRun lib before) upload upload.replies).1[earlier.length]? =
          some (answer (mailRun lib before).rows upload.boards reply)) := by
  have hrun := consistent_mailRun lib ops
  refine ⟨hrun.rows, hrun.committed, ?kept, hrun.packets, ?board, ?once, ?again⟩
  case kept =>
    rintro before after rfl
    rw [mailRun_append]
    exact (advances_run lib after (consistent_mailRun lib before)).kept
  case board =>
    intro before upload after _ outcome houtcome boardKey hboard packet hpacket entry hentry hnumber
    have hbefore := consistent_mailRun lib before
    have hposted := applyReplies_board lib _ _ houtcome hboard
    have hpacked := (hbefore.packets packet hpacket entry hentry).kept hbefore.kept
    rw [hnumber] at hpacked
    exact hpacked.sameBoard hposted hbefore.rows
  case once =>
    intro hwithin
    have hall := remembersAll_mailRun lib hwithin
    have honce : (wentOut lib (mailRun lib ops).outcomes).Nodup := hall.sent ▸ hall.once
    unfold wentOut at honce
    apply List.Nodup.of_map (digest lib)
    rw [map_map]
    exact honce
  case again =>
    intro before upload after _ earlier reply later hreplies hnew
    rw [hreplies]
    exact applied_new lib (remembers_mailRun lib before) hnew

def bobHashing : TextHashing :=
  ⟨fun name => if name = "Bob" then "bob" else name, fun text =>
    if text = "\x000\x00bob\x00hi\x00text\x00" then
      "e6668f961aa0f1b6ea7c496348103bd9c5f968a7cf2a07b465ded09001f53516"
    else ""⟩

def letterTo (name : String) : Upload :=
  { boards := [], now := 0, dropped := [], added := []
    replies := [{ message := ⟨0, name, "hi", "text", none⟩, time := 0
                  judgePost := fun _ => .refused, judgeLetter := .sent }] }

/-- A letter to bob is refused for a letter to Bob, though no letter to bob went out. -/
theorem letterToBob_refused :
    (mailRun bobHashing [.upload (letterTo "Bob"), .upload (letterTo "bob")]).outcomes =
      [⟨⟨0, "Bob", "hi", "text", none⟩, none, .sent⟩, ⟨⟨0, "bob", "hi", "text", none⟩, none, .refused⟩] ∧
      (mailRun bobHashing [.upload (letterTo "bob")]).outcomes =
        [⟨⟨0, "bob", "hi", "text", none⟩, none, .sent⟩] := by
  have hdigest : digest bobHashing ⟨0, "bob", "hi", "text", none⟩ =
      digest bobHashing ⟨0, "Bob", "hi", "text", none⟩ := by
    simp [digest, bobHashing]
  have hkept (d : String) : trimSeen [⟨d, 0⟩] 0 = [⟨d, 0⟩] :=
    trimSeen_remembered ⟨by simp [repSeenPeriod], by simp [maxRepSeen]⟩
  have hnone : trimSeen [] 0 = [] := rfl
  constructor
  · simp [mailRun, mailStep, applyRep, applyReplies, applyReply, applyReaderChoices, answer,
      mailConference, letterTo, hkept, hnone, hdigest]
  · rfl

end NetBBS.Qwk
