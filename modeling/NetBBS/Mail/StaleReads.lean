import NetBBS.Foundation.Runs
import NetBBS.Mail.Letters

/-! # Actions on letters read earlier -/

namespace NetBBS.Mail

open Foundation PyStr List Option

/-- What a session read, and for whom. -/
structure View where
  reader : User
  letters : List MailRow

inductive Action where
  | deleteForRecipient (message : MailRow)
  | deleteForSender (message : MailRow)
  | deleteLetters (mailIds : List Nat) (sent : Bool)
  | setKept (mailIds : List Nat) (kept : Bool)
  | markRead (message : MailRow)
  | markUnread (message : MailRow)

def Action.ids : Action → List Nat
  | .deleteForRecipient message | .deleteForSender message => [message.id]
  | .deleteLetters mailIds _ | .setKept mailIds _ => mailIds
  | .markRead message | .markUnread message => [message.id]

def Action.apply (box : Mailbox) (user : User) (now : String) : Action → Mailbox
  | .deleteForRecipient message => (Mail.deleteForRecipient box user message now).toOption.getD box
  | .deleteForSender message => (Mail.deleteForSender box user message now).toOption.getD box
  | .deleteLetters mailIds sent => Mail.deleteLetters box user mailIds sent now
  | .setKept mailIds kept => (Mail.setKept box user mailIds kept now).toOption.getD box
  | .markRead message => (Mail.markRead box user message now).2
  | .markUnread message => (Mail.markUnread box user message).2

def readable (box : Mailbox) (user : User) : List MailRow :=
  box.rows.filter fun row =>
    decide (row.senderUserId = some user.id ∨ row.recipientUserId = some user.id)

/-- The tables, and what the sessions have read of them. -/
structure World where
  box : Mailbox := {}
  views : List View := []

inductive Step where
  | sendMail (sender recipient : User) (subject body : PyStr) (group : Option LetterGroup)
  | sendSystemMail (recipient : User) (subject body : PyStr) (group : Option LetterGroup)
  | deliverExternal (recipient : User) (senderLabel subject body : PyStr) (createdAt : String)
  | deliverLink (recipient : User) (senderAddress subject body : PyStr) (createdAt contentId : String)
      (group : Option LetterGroup)
  | composeLink (sender : User) (address subject body : PyStr) (contentId : String)
      (group : Option LetterGroup)
  | deleteAccount (user : User)
  | settings (blocks : List (Nat × Nat)) (receiptsOff : List Nat)
  | look (user : User)
  | act (user : User) (action : Action)

/-- The tables after a delivery. -/
def World.delivered (world : World) (result : Except MailError Mailbox) : World :=
  { world with box := result.toOption.getD world.box }

def World.step (world : World) : String × Step → World
  | (now, .sendMail sender recipient subject body group) =>
    world.delivered (sendMail world.box sender recipient subject body group now)
  | (now, .sendSystemMail recipient subject body group) =>
    world.delivered (sendSystemMail world.box recipient subject body group now)
  | (now, .deliverExternal recipient senderLabel subject body createdAt) =>
    world.delivered (deliverExternalMail world.box recipient senderLabel subject body createdAt now)
  | (now, .deliverLink recipient senderAddress subject body createdAt contentId group) =>
    world.delivered
      (deliverLinkLetter world.box recipient senderAddress subject body createdAt contentId group now)
  | (now, .composeLink sender address subject body contentId group) =>
    world.delivered (composeLinkLetter world.box sender address subject body contentId group now)
  | (now, .deleteAccount user) => { world with box := releaseMail world.box user now }
  | (_, .settings blocks receiptsOff) => { world with box := { world.box with blocks, receiptsOff } }
  | (_, .look user) => { world with views := world.views ++ [⟨user, readable world.box user⟩] }
  | (now, .act user action) => { world with box := action.apply world.box user now }

def mailRun (steps : List (String × Step)) : World := steps.foldl World.step {}

def View.named (view : View) (action : Action) : List MailRow :=
  view.letters.filter fun row => decide (row.id ∈ action.ids)

def SparesOthers (box : Mailbox) (view : View) (action : Action) (now : String) : Prop :=
  ∀ row ∈ box.rows, row ∉ (action.apply box view.reader now).rows →
    row.letter ∈ (view.named action).map MailRow.letter

instance (box : Mailbox) (view : View) (action : Action) (now : String) :
    Decidable (SparesOthers box view action now) := by unfold SparesOthers; infer_instance

def PassesDelete (sent : Bool) (user : User) (message row : MailRow) : Prop :=
  (message.own sent).1 = some user.id ∧
    (row.senderUserId = some user.id ∨ row.recipientUserId = some user.id) ∧ (row.own sent).2 = none

def Action.Passes (box : Mailbox) (user : User) (now : String) (row : MailRow) : Action → Prop
  | .deleteForRecipient message => PassesDelete false user message row
  | .deleteForSender message => PassesDelete true user message row
  | .deleteLetters _ sent => row.own sent = (some user.id, none)
  | .setKept mailIds kept =>
    row.heldBy user.id = true ∧ row.keptAt.isSome ≠ kept ∧
      (kept = true → (toKeep box user mailIds).length ≤ maxKeptPerRecipient - keptCount box user.id)
  | .markRead message =>
    message.recipientUserId = some user.id ∧ message.readAt = none ∧
      (row.readAt ≠ some now ∨ row.firstReadAt = none)
  | .markUnread message =>
    message.recipientUserId = some user.id ∧ message.readAt ≠ none ∧
      row.recipientUserId = some user.id ∧ row.readAt ≠ none

structure Rewrites (box after : Mailbox) (pass : MailRow → Option MailRow) : Prop where
  id_eq : ∀ row new, pass row = some new → new.id = row.id
  letter_eq : ∀ row new, pass row = some new → new.letter = row.letter
  rows_eq : after.rows = box.rows.filterMap pass
  stored_eq : after.stored = box.stored

variable {pass : MailRow → Option MailRow} {change : MailRow → MailRow} {now : String}

theorem Rewrites.trans {box middle after : Mailbox} {next : MailRow → Option MailRow}
    (h : Rewrites box middle pass) (hnext : Rewrites middle after next) :
    Rewrites box after fun row => (pass row).bind next where
  id_eq row new hnew := by
    obtain ⟨between, hpass, hbetween⟩ := bind_eq_some_iff.mp hnew
    exact (hnext.id_eq between new hbetween).trans (h.id_eq row between hpass)
  letter_eq row new hnew := by
    obtain ⟨between, hpass, hbetween⟩ := bind_eq_some_iff.mp hnew
    exact (hnext.letter_eq between new hbetween).trans (h.letter_eq row between hpass)
  rows_eq := by rw [hnext.rows_eq, h.rows_eq, filterMap_filterMap]
  stored_eq := hnext.stored_eq.trans h.stored_eq

theorem rewrites_self {box after : Mailbox} (hrows : after.rows = box.rows)
    (hstored : after.stored = box.stored) : Rewrites box after some where
  id_eq row new hnew := by rw [← Option.some.inj hnew]
  letter_eq row new hnew := by rw [← Option.some.inj hnew]
  rows_eq := by rw [hrows, filterMap_some]
  stored_eq := hstored

def Keeps (change : MailRow → MailRow) : Prop :=
  ∀ row, (change row).id = row.id ∧ (change row).letter = row.letter

theorem keeps_marked (senderDeletedAt recipientDeletedAt : Option String) :
    Keeps (MailRow.marked senderDeletedAt recipientDeletedAt) := fun _ => ⟨rfl, rfl⟩

theorem keeps_markOwn (sent : Bool) (now : String) : Keeps (MailRow.markOwn sent now) := fun row => by
  cases sent <;> exact ⟨rfl, rfl⟩

theorem keeps_placed (keptAt : Option String) : Keeps (MailRow.placed keptAt) := fun _ => ⟨rfl, rfl⟩

theorem keeps_opened (shared : Bool) (now : String) : Keeps (MailRow.opened shared now) :=
  fun _ => ⟨rfl, rfl⟩

theorem keeps_released (user : User) (now : String) : Keeps (MailRow.released user now) :=
  fun _ => ⟨rfl, rfl⟩

theorem keeps_withRecipient (recipientUserId : Option Nat) : Keeps (MailRow.withRecipient recipientUserId) :=
  fun _ => ⟨rfl, rfl⟩

theorem keeps_withSender (senderUserId : Option Nat) : Keeps (MailRow.withSender senderUserId) :=
  fun _ => ⟨rfl, rfl⟩

theorem keeps_unopened : Keeps MailRow.unopened := fun _ => ⟨rfl, rfl⟩

variable {which : MailRow → Bool} {message : MailRow} {recipient : User} {world : World}

theorem rewrites_update (box : Mailbox) (hkeeps : Keeps change) :
    Rewrites box (box.update which change)
      fun row => some (if which row = true then change row else row) where
  id_eq row new hnew := by
    rw [← Option.some.inj hnew]
    split
    · exact (hkeeps row).1
    · rfl
  letter_eq row new hnew := by
    rw [← Option.some.inj hnew]
    split
    · exact (hkeeps row).2
    · rfl
  rows_eq := by rw [filterMap_eq_map']; rfl
  stored_eq := rfl

theorem rewrites_removeLetters (box : Mailbox) (ids : List Nat) :
    Rewrites box (removeLetters box ids) (Option.guard fun row => decide (row.id ∉ ids)) where
  id_eq row new hnew := by rw [(guard_eq_some_iff.mp hnew).1]
  letter_eq row new hnew := by rw [(guard_eq_some_iff.mp hnew).1]
  rows_eq := by rw [filterMap_eq_filter]; rfl
  stored_eq := rfl

abbrev Numbered (box : Mailbox) : Prop := Numbering MailRow.id MailRow.letter box.rows

theorem Rewrites.not_mem_iff {box after : Mailbox}
    (h : Rewrites box after pass) (hnumbered : Numbered box) {row : MailRow} (hrow : row ∈ box.rows) :
    row ∉ after.rows ↔ pass row ≠ some row := by
  rw [h.rows_eq]
  exact not_mem_filterMap_iff hnumbered.numbers hrow h.id_eq

theorem not_mem_update_iff {box : Mailbox} (hnumbered : Numbered box) {row : MailRow}
    (hrow : row ∈ box.rows) (hkeeps : Keeps change) :
    row ∉ (box.update which change).rows ↔ which row = true ∧ change row ≠ row := by
  rw [(rewrites_update box hkeeps).not_mem_iff hnumbered hrow, Ne, Option.some.injEq]
  by_cases hwhich : which row = true <;> simp [hwhich]

theorem not_mem_removeLetters_iff {box : Mailbox} (hnumbered : Numbered box) {row : MailRow}
    (hrow : row ∈ box.rows) (ids : List Nat) : row ∉ (removeLetters box ids).rows ↔ row.id ∈ ids := by
  rw [(rewrites_removeLetters box ids).not_mem_iff hnumbered hrow, Ne, guard_eq_some_iff]
  simp

theorem not_mem_hardDeleteOrMark_iff {box : Mailbox} (hnumbered : Numbered box) {row : MailRow}
    (hrow : row ∈ box.rows) (mailId : Nat) (senderDeletedAt recipientDeletedAt : Option String) :
    row ∉ (hardDeleteOrMark box mailId senderDeletedAt recipientDeletedAt).rows ↔
      row.id = mailId ∧ (senderDeletedAt ≠ none ∧ recipientDeletedAt ≠ none ∨
        (row.senderDeletedAt, row.recipientDeletedAt) ≠ (senderDeletedAt, recipientDeletedAt)) := by
  unfold hardDeleteOrMark
  split
  · rename_i hboth
    rw [not_mem_removeLetters_iff hnumbered hrow]
    simp [hboth]
  · rename_i hboth
    rw [not_mem_update_iff hnumbered hrow (keeps_marked _ _)]
    have hchange : row.marked senderDeletedAt recipientDeletedAt ≠ row ↔
        (row.senderDeletedAt, row.recipientDeletedAt) ≠ (senderDeletedAt, recipientDeletedAt) := by
      rw [not_iff_not, Prod.mk.injEq]
      constructor
      · intro hsame
        rw [← hsame]
        exact ⟨rfl, rfl⟩
      · rintro ⟨rfl, rfl⟩
        rfl
    simp [hchange, hboth]

variable {box : Mailbox} {row : MailRow}

section

variable (hnumbered : Numbered box)

include hnumbered

theorem find_row (hrow : row ∈ box.rows) :
    box.rows.find? (fun other => decide (other.id = row.id)) = some row := by
  cases hfind : box.rows.find? fun other => decide (other.id = row.id) with
  | none =>
    rw [find?_eq_none] at hfind
    exact absurd (decide_eq_true rfl) (hfind row hrow)
  | some other =>
    have hsame : other.id = row.id := by simpa using find?_some hfind
    rw [inj_on_of_nodup_map hnumbered.numbers (mem_of_find?_eq_some hfind) hrow hsame]

/-- `get_mail` under the id of a stored row. -/
theorem getMail_row (hrow : row ∈ box.rows) (user : User) : getMail box user row.id =
      if row.senderUserId = some user.id ∨ row.recipientUserId = some user.id then .ok row
      else .error (.notAParty user.username) := by
  unfold getMail
  rw [find_row hnumbered hrow]
  by_cases hsender : row.senderUserId = some user.id <;>
    by_cases hrecipient : row.recipientUserId = some user.id <;>
    simp [orRefuse, refuseIf, hsender, hrecipient, pure, Except.pure, bind, Except.bind]

theorem mem_of_other_id (hrow : row ∈ box.rows) {mailId : Nat}
    (hid : row.id ≠ mailId) (senderDeletedAt recipientDeletedAt : Option String) :
    row ∈ (hardDeleteOrMark box mailId senderDeletedAt recipientDeletedAt).rows := by
  by_contra hgone
  exact hid ((not_mem_hardDeleteOrMark_iff hnumbered hrow _ _ _).mp hgone).1

theorem deleteSide_other (hrow : row ∈ box.rows) (sent : Bool)
    (refusal : PyStr → MailError) (user : User) (now : String)
    (hid : row.id ≠ message.id) :
    row ∈ ((deleteSide sent refusal box user message now).toOption.getD box).rows := by
  cases hdone : deleteSide sent refusal box user message now with
  | error e => exact hrow
  | ok after =>
    simp only [deleteSide, bind_eq_ok] at hdone
    obtain ⟨-, -, current, -, hafter⟩ := hdone
    split at hafter
    · rw [← (pure_eq_ok _ _).mp hafter]
      exact hrow
    · rw [← (pure_eq_ok _ _).mp hafter]
      exact mem_of_other_id hnumbered hrow hid _ _

end

theorem marks_differ (row : MailRow) (sent : Bool) (now : String) (h : (row.own sent).2 = none) :
    (row.senderDeletedAt, row.recipientDeletedAt) ≠
      ((row.markOwn sent now).senderDeletedAt, (row.markOwn sent now).recipientDeletedAt) := by
  cases sent with
  | false =>
    have h : row.recipientDeletedAt = none := h
    simp [MailRow.markOwn, h]
  | true =>
    have h : row.senderDeletedAt = none := h
    simp [MailRow.markOwn, h]

section

variable (hnumbered : Numbered box)

include hnumbered

theorem changed_deleteSide (hrow : row ∈ box.rows) (sent : Bool)
    (refusal : PyStr → MailError) (user : User) (now : String) (message : MailRow) :
    row ∉ ((deleteSide sent refusal box user message now).toOption.getD box).rows ↔
      row.id = message.id ∧ PassesDelete sent user message row := by
  unfold PassesDelete
  by_cases hid : row.id = message.id
  · unfold deleteSide
    rw [← hid, getMail_row hnumbered hrow]
    by_cases hmine : (message.own sent).1 = some user.id
    · by_cases hparty : row.senderUserId = some user.id ∨ row.recipientUserId = some user.id
      · by_cases hgone : (row.own sent).2 = none
        · simp [hmine, hparty, hgone, refuseIf, bind, Except.bind, pure, Except.pure, Except.toOption,
            not_mem_hardDeleteOrMark_iff hnumbered hrow, marks_differ row sent now hgone]
        · simp [hmine, hparty, hgone, refuseIf, bind, Except.bind, pure, Except.pure, Except.toOption, hrow]
      · simp [hmine, hparty, refuseIf, bind, Except.bind, Except.toOption, hrow]
    · simp [hmine, refuseIf, bind, Except.bind, Except.toOption, hrow]
  · simp [hid, deleteSide_other hnumbered hrow sent refusal user now hid]

theorem mem_ids_filter (hrow : row ∈ box.rows) (which : MailRow → Bool) :
    row.id ∈ (box.rows.filter which).map MailRow.id ↔ which row = true := by
  constructor
  · intro hid
    obtain ⟨other, hother, hsame⟩ := mem_map.mp hid
    obtain ⟨hmem, hwhich⟩ := mem_filter.mp hother
    rwa [inj_on_of_nodup_map hnumbered.numbers hmem hrow hsame] at hwhich
  · exact fun hwhich => mem_map_of_mem (mem_filter.mpr ⟨hrow, hwhich⟩)

theorem changed_deleteLetters (hrow : row ∈ box.rows) (user : User)
    (mailIds : List Nat) (sent : Bool) (now : String) :
    row ∉ (deleteLetters box user mailIds sent now).rows ↔
      row.id ∈ mailIds ∧ row.own sent = (some user.id, none) := by
  unfold deleteLetters
  have hheld := mem_ids_filter hnumbered hrow
    fun row => decide (row.id ∈ mailIds ∧ row.own sent = (some user.id, none))
  rw [decide_eq_true_iff] at hheld
  generalize (box.rows.filter fun row =>
    decide (row.id ∈ mailIds ∧ row.own sent = (some user.id, none))).map MailRow.id = ids at hheld ⊢
  have hgone := mem_ids_filter hnumbered hrow
    fun row => decide (row.id ∈ ids ∧ (row.own (!sent)).2 ≠ none)
  rw [decide_eq_true_iff] at hgone
  dsimp only
  generalize (box.rows.filter fun row =>
    decide (row.id ∈ ids ∧ (row.own (!sent)).2 ≠ none)).map MailRow.id = gone at hgone ⊢
  rw [((rewrites_removeLetters box gone).trans
    (rewrites_update _ (keeps_markOwn sent now))).not_mem_iff hnumbered hrow, ← hheld]
  by_cases hout : row.id ∈ gone
  · simp [Option.guard, hout, (hgone.mp hout).1]
  · by_cases hmine : row.id ∈ ids
    · have hown : (row.own sent).2 = none := by rw [(hheld.mp hmine).2]
      have hchanged : row.markOwn sent now ≠ row := fun hsame =>
        marks_differ row sent now hown (by rw [hsame])
      simp [Option.guard, hout, hmine, hchanged]
    · simp [Option.guard, hout, hmine]

theorem changed_setKept (hrow : row ∈ box.rows) (user : User)
    (mailIds : List Nat) (kept : Bool) (now : String) :
    row ∉ ((Mail.setKept box user mailIds kept now).toOption.getD box).rows ↔
      row.id ∈ mailIds ∧ (Action.setKept mailIds kept).Passes box user now row := by
  unfold Mail.setKept Action.Passes
  by_cases hfull : kept = true ∧
      maxKeptPerRecipient - keptCount box user.id < (toKeep box user mailIds).length
  · have hover : ¬ (toKeep box user mailIds).length ≤ maxKeptPerRecipient - keptCount box user.id :=
      Nat.not_le.mpr hfull.2
    simp [refuseIf, hfull, hover, bind, Except.bind, Except.toOption, hrow]
  · have hfits : kept = true →
        (toKeep box user mailIds).length ≤ maxKeptPerRecipient - keptCount box user.id :=
      fun hkept => Nat.not_lt.mp fun hover => hfull ⟨hkept, hover⟩
    have hmoved : row.keptAt.isSome ≠ kept →
        row.placed (if kept = true then some now else none) ≠ row := by
      intro hside hsame
      apply hside
      rw [← hsame]
      cases kept <;> rfl
    simp only [refuseIf, hfull, if_false, bind, Except.bind, pure, Except.pure, Except.toOption,
      getD_some]
    rw [not_mem_update_iff hnumbered hrow (keeps_placed _), Bool.and_eq_true, Bool.and_eq_true,
      decide_eq_true_iff, decide_eq_true_iff]
    constructor
    · exact fun h => ⟨h.1.2, h.1.1.1, h.1.1.2, hfits⟩
    · exact fun h => ⟨⟨⟨h.2.1, h.2.2.1⟩, h.1⟩, hmoved h.2.2.1⟩

end

theorem opened_eq_self_iff (shared : Bool) (now : String) :
    row.opened shared now = row ↔ row.readAt = some now ∧ row.firstReadAt ≠ none := by
  obtain ⟨first⟩ | ⟨first, hfirst⟩ : row.firstReadAt = none ∨ ∃ first, row.firstReadAt = some first := by
    cases row.firstReadAt <;> simp
  · constructor
    · intro hsame
      have hopened : (row.opened shared now).firstReadAt = row.firstReadAt.or (some now) := rfl
      rw [hsame, first] at hopened
      cases hopened
    · exact fun h => absurd first h.2
  · cases row
    simp_all [MailRow.opened, eq_comm]

theorem unopened_eq_self_iff : row.unopened = row ↔ row.readAt = none := by
  cases row
  simp [MailRow.unopened, eq_comm]

theorem changed_markRead (hnumbered : Numbered box) (hrow : row ∈ box.rows) (user : User)
    (message : MailRow) (now : String) :
    row ∉ (Mail.markRead box user message now).2.rows ↔
      row.id = message.id ∧ (Action.markRead message).Passes box user now row := by
  unfold Mail.markRead Action.Passes
  split
  · rename_i hskip
    simp only [hrow, not_true_eq_false, false_iff]
    rintro ⟨-, hmine, hunread, -⟩
    exact hskip.elim (fun h => h hmine) fun h => h hunread
  · rename_i hdone
    obtain ⟨hmine, hunread⟩ := not_or.mp hdone
    rw [not_mem_update_iff hnumbered hrow (keeps_opened _ _), decide_eq_true_iff]
    rw [Ne, opened_eq_self_iff]
    rw [not_not] at hmine hunread
    simp only [hmine, hunread, true_and]
    tauto

theorem changed_markUnread (hnumbered : Numbered box) (hrow : row ∈ box.rows) (user : User)
    (message : MailRow) (now : String) :
    row ∉ (Mail.markUnread box user message).2.rows ↔
      row.id = message.id ∧ (Action.markUnread message).Passes box user now row := by
  unfold Mail.markUnread Action.Passes
  split
  · rename_i hskip
    simp only [hrow, not_true_eq_false, false_iff]
    rintro ⟨-, hmine, hread, -⟩
    exact hskip.elim (fun h => h hmine) fun h => hread h
  · rename_i hdone
    obtain ⟨hmine, hread⟩ := not_or.mp hdone
    rw [not_not] at hmine
    rw [not_mem_update_iff hnumbered hrow keeps_unopened, decide_eq_true_iff]
    rw [Ne, unopened_eq_self_iff]
    constructor
    · exact fun h => ⟨h.1.1, hmine, hread, h.1.2, h.2⟩
    · exact fun h => ⟨⟨h.1, h.2.2.2.1⟩, h.2.2.2.2⟩

theorem changed_iff (hnumbered : Numbered box) (hrow : row ∈ box.rows) (user : User) (now : String)
    (action : Action) :
    row ∉ (action.apply box user now).rows ↔ row.id ∈ action.ids ∧ action.Passes box user now row := by
  cases action with
  | deleteForRecipient message =>
    rw [Action.ids, mem_singleton]
    exact changed_deleteSide hnumbered hrow false _ user now message
  | deleteForSender message =>
    rw [Action.ids, mem_singleton]
    exact changed_deleteSide hnumbered hrow true _ user now message
  | deleteLetters mailIds sent => exact changed_deleteLetters hnumbered hrow user mailIds sent now
  | setKept mailIds kept => exact changed_setKept hnumbered hrow user mailIds kept now
  | markRead message =>
    rw [Action.ids, mem_singleton]
    exact changed_markRead hnumbered hrow user message now
  | markUnread message =>
    rw [Action.ids, mem_singleton]
    exact changed_markUnread hnumbered hrow user message now

structure Sound (box : Mailbox) : Prop where
  numbered : Numbered box
  counted : ∀ row ∈ box.rows, row.letter < box.stored

def Rewritten (box after : Mailbox) : Prop := ∃ pass, Rewrites box after pass

variable {middle after : Mailbox}

theorem rewritten_self (box : Mailbox) : Rewritten box box := ⟨some, rewrites_self rfl rfl⟩

theorem Rewritten.trans (h : Rewritten box middle) (hnext : Rewritten middle after) :
    Rewritten box after := by
  obtain ⟨pass, hpass⟩ := h
  obtain ⟨next, hnextPass⟩ := hnext
  exact ⟨_, hpass.trans hnextPass⟩

theorem rewritten_update (box : Mailbox) (which : MailRow → Bool)
    (hkeeps : Keeps change) : Rewritten box (box.update which change) :=
  ⟨_, rewrites_update box hkeeps⟩

theorem rewritten_removeLetters (box : Mailbox) (ids : List Nat) :
    Rewritten box (removeLetters box ids) := ⟨_, rewrites_removeLetters box ids⟩

theorem rewritten_hardDeleteOrMark (box : Mailbox) (mailId : Nat)
    (senderDeletedAt recipientDeletedAt : Option String) :
    Rewritten box (hardDeleteOrMark box mailId senderDeletedAt recipientDeletedAt) := by
  unfold hardDeleteOrMark
  split
  · exact rewritten_removeLetters _ _
  · exact rewritten_update _ _ (keeps_marked _ _)

theorem rewritten_makeRoom
    (h : makeRoom box recipient now = some after) : Rewritten box after := by
  unfold makeRoom at h
  split at h
  · rw [← Option.some.inj h]
    exact rewritten_self box
  · dsimp only at h
    split at h
    · cases h
    · rw [← Option.some.inj h]
      refine Rewritten.trans ?_ (rewritten_hardDeleteOrMark _ _ _ _)
      exact ⟨some, rewrites_self rfl rfl⟩

theorem rewritten_deleteSide {sent : Bool} {refusal : PyStr → MailError} {user : User} :
    Rewritten box ((deleteSide sent refusal box user message now).toOption.getD box) := by
  cases hdone : deleteSide sent refusal box user message now with
  | error e => exact rewritten_self box
  | ok after =>
    simp only [deleteSide, bind_eq_ok] at hdone
    obtain ⟨-, -, current, -, hafter⟩ := hdone
    split at hafter
    · rw [← (pure_eq_ok _ _).mp hafter]
      exact rewritten_self box
    · rw [← (pure_eq_ok _ _).mp hafter]
      exact rewritten_hardDeleteOrMark _ _ _ _

theorem rewritten_apply (box : Mailbox) (user : User) (now : String) (action : Action) :
    Rewritten box (action.apply box user now) := by
  cases action with
  | deleteForRecipient message => exact rewritten_deleteSide
  | deleteForSender message => exact rewritten_deleteSide
  | deleteLetters mailIds sent =>
    exact (rewritten_removeLetters _ _).trans (rewritten_update _ _ (keeps_markOwn _ _))
  | setKept mailIds kept =>
    show Rewritten box ((Mail.setKept box user mailIds kept now).toOption.getD box)
    cases hdone : Mail.setKept box user mailIds kept now with
    | error e => exact rewritten_self box
    | ok after =>
      simp only [Mail.setKept, bind_eq_ok, pure_eq_ok] at hdone
      obtain ⟨-, -, rfl⟩ := hdone
      exact rewritten_update _ _ (keeps_placed _)
  | markRead message =>
    show Rewritten box (Mail.markRead box user message now).2
    unfold Mail.markRead
    split
    · exact rewritten_self box
    · exact rewritten_update _ _ (keeps_opened _ _)
  | markUnread message =>
    show Rewritten box (Mail.markUnread box user message).2
    unfold Mail.markUnread
    split
    · exact rewritten_self box
    · exact rewritten_update _ _ keeps_unopened

theorem rewritten_releaseMail (box : Mailbox) (user : User) (now : String) :
    Rewritten box (releaseMail box user now) := by
  unfold releaseMail
  dsimp only
  refine Rewritten.trans ?_ (rewritten_update _ _ (keeps_withSender none))
  refine Rewritten.trans ?_ (rewritten_update _ _ (keeps_withRecipient none))
  refine Rewritten.trans ?_ (rewritten_update _ _ (keeps_markOwn true now))
  refine Rewritten.trans ?_ (rewritten_removeLetters _ _)
  refine Rewritten.trans ?_ (rewritten_update _ _ (keeps_released user now))
  exact rewritten_removeLetters _ _

theorem Rewritten.sound (h : Rewritten box after) (hsound : Sound box) : Sound after := by
  obtain ⟨pass, hpass⟩ := h
  constructor
  · unfold Numbered
    rw [hpass.rows_eq]
    exact hsound.numbered.filterMap hpass.id_eq hpass.letter_eq
  · intro new hnew
    rw [hpass.rows_eq] at hnew
    obtain ⟨row, hrow, hkept⟩ := mem_filterMap.mp hnew
    rw [hpass.letter_eq row new hkept, hpass.stored_eq]
    exact hsound.counted row hrow

theorem Sound.insert (h : Sound box) (row : MailRow) : Sound (box.insert row) := by
  constructor
  · apply h.numbered.snoc rfl
    intro old hold
    exact (h.counted old hold).ne
  · intro new hnew
    rcases mem_append.mp hnew with hold | hlast
    · exact Nat.lt_succ_of_lt (h.counted new hold)
    · rw [mem_singleton.mp hlast]
      exact Nat.lt_succ_self _

theorem Sound.delivered {result : Except MailError Mailbox} (h : Sound world.box)
    (hresult : ∀ after, result = .ok after → ∃ room row, Rewritten world.box room ∧ after = room.insert row) :
    Sound (world.delivered result).box := by
  cases result with
  | error e => exact h
  | ok after =>
    obtain ⟨room, row, hroom, rfl⟩ := hresult after rfl
    exact (hroom.sound h).insert row

theorem room_of_orRefuse {e : MailError}
    (h : orRefuse (makeRoom box recipient now) e = .ok after) : Rewritten box after :=
  rewritten_makeRoom ((orRefuse_eq_ok _ _ _).mp h)

theorem sound_step (h : Sound world.box) (step : String × Step) :
    Sound (world.step step).box := by
  obtain ⟨now, step⟩ := step
  cases step with
  | sendMail sender recipient subject body group =>
    apply h.delivered
    intro after hafter
    simp only [sendMail, bind_eq_ok, pure_eq_ok] at hafter
    obtain ⟨_, -, _, -, _, -, room, hroom, rfl⟩ := hafter
    exact ⟨room, _, room_of_orRefuse hroom, rfl⟩
  | sendSystemMail recipient subject body group =>
    apply h.delivered
    intro after hafter
    simp only [sendSystemMail, bind_eq_ok, pure_eq_ok] at hafter
    obtain ⟨_, -, _, -, room, hroom, rfl⟩ := hafter
    exact ⟨room, _, room_of_orRefuse hroom, rfl⟩
  | deliverExternal recipient senderLabel subject body createdAt =>
    apply h.delivered
    intro after hafter
    simp only [deliverExternalMail, bind_eq_ok, pure_eq_ok] at hafter
    obtain ⟨_, -, _, -, _, -, room, hroom, rfl⟩ := hafter
    exact ⟨room, _, room_of_orRefuse hroom, rfl⟩
  | deliverLink recipient senderAddress subject body createdAt contentId group =>
    apply h.delivered
    intro after hafter
    simp only [deliverLinkLetter, bind_eq_ok, pure_eq_ok] at hafter
    obtain ⟨room, hroom, rfl⟩ := hafter
    exact ⟨room, _, room_of_orRefuse hroom, rfl⟩
  | composeLink sender address subject body contentId group =>
    apply h.delivered
    intro after hafter
    simp only [composeLinkLetter, bind_eq_ok, pure_eq_ok] at hafter
    obtain ⟨_, -, rfl⟩ := hafter
    exact ⟨world.box, _, rewritten_self _, rfl⟩
  | deleteAccount user => exact (rewritten_releaseMail _ _ _).sound h
  | settings blocks receiptsOff => exact ⟨h.numbered, h.counted⟩
  | look user => exact h
  | act user action => exact (rewritten_apply _ _ _ _).sound h

theorem sound_mailRun (steps : List (String × Step)) : Sound (mailRun steps).box := by
  have hstart : Sound (World.box {}) := ⟨numbering_nil, by simp⟩
  exact @foldl_invariant _ _ World.step (fun world => Sound world.box) steps {} hstart
    fun v _ h => sound_step h v.2

/-- An action on what a session read spares every other letter exactly where none of those stands under
one of its ids and passes its checks. -/
theorem action_spares_others_iff (steps : List (String × Step)) (view : View) (action : Action)
    (now : String) :
    SparesOthers (mailRun steps).box view action now ↔
      ∀ row ∈ (mailRun steps).box.rows, row.id ∈ action.ids →
        row.letter ∉ (view.named action).map MailRow.letter →
        ¬ action.Passes (mailRun steps).box view.reader now row := by
  have hnumbered := (sound_mailRun steps).numbered
  constructor
  · intro hspares row hrow hid hother hpasses
    exact hother (hspares row hrow ((changed_iff hnumbered hrow _ _ _).mpr ⟨hid, hpasses⟩))
  · intro hchecks row hrow hchanged
    obtain ⟨hid, hpasses⟩ := (changed_iff hnumbered hrow _ _ _).mp hchanged
    by_contra hother
    exact hchecks row hrow hid hother hpasses

def Action.From (view : View) : Action → Prop
  | .deleteForRecipient message | .deleteForSender message => message ∈ view.letters
  | .deleteLetters mailIds _ | .setKept mailIds _ => ∀ id ∈ mailIds, id ∈ view.letters.map MailRow.id
  | .markRead message | .markUnread message => message ∈ view.letters

instance (view : View) (action : Action) : Decidable (action.From view) := by
  cases action <;> unfold Action.From <;> infer_instance

def sue : User := { id := 1, username := ofString "sue" }

def tom : User := { id := 2, username := ofString "tom" }

def ann : User := { id := 3, username := ofString "ann" }

def reusedRun : List (String × Step) :=
  [("t1", .sendSystemMail sue (ofString "Notice") [] none), ("t2", .look sue),
    ("t3", .act sue (.deleteLetters [1] false)), ("t4", .sendMail sue tom (ofString "Hello") [] none)]

/-- Sue's first session deletes the notice it read, and Tom's letter leaves his inbox. -/
theorem reused_id_deletes_other : ∃ view ∈ (mailRun reusedRun).views, ∃ message ∈ view.letters,
    (Action.deleteForRecipient message).From view ∧
      ¬ SparesOthers (mailRun reusedRun).box view (.deleteForRecipient message) "t5" := by
  decide

end NetBBS.Mail
