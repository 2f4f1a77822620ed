import NetBBS.Mail.LinkDelivery
import NetBBS.Mail.StaleReads

/-! # One answer for each letter -/

namespace NetBBS.Mail

open Foundation PyStr

variable {machine : Machine} {node : Node} {message : LinkMessage}

structure Opens (machine : Machine) (node : Node) (message : LinkMessage) (sender : String) (name : PyStr)
    (recipient : User) (plaintext : List UInt8) : Prop where
  senderUser : validUserPart message.senderUser = some sender
  recipientUser : message.recipientUser = .str name
  reaches : getRecipientByName node name = .ok (some recipient)
  takesMail : mailRecipientBounceReason recipient = none
  unblocked : blocksLinkSender node recipient sender message.homeNode = false
  opens : machine.openSealed message.ciphertext = some plaintext

structure NothingRaises (machine : Machine) (node : Node) (message : LinkMessage) : Prop where
  name : ∀ name, (validUserPart message.senderUser).isSome = true → message.recipientUser = .str name →
    hasSurrogate name = false
  depth : ∀ sender name recipient plaintext, Opens machine node message sender name recipient plaintext →
    machine.loads plaintext ≠ .recursionError

variable {name : PyStr} {recipient : User}

theorem getRecipientByName_of_surrogate (h : hasSurrogate name = true) :
    getRecipientByName node name = .error .unicodeEncodeError := by
  simp [getRecipientByName, bindText, h]

theorem getRecipientByName_of_bindable (h : hasSurrogate name = false) :
    getRecipientByName node name =
      .ok ((userByUsername node name).or (accountFormerlyNamed node name)) := by
  simp [getRecipientByName, bindText, h]

theorem judge_of_surrogate (hsender : (validUserPart message.senderUser).isSome = true)
    (hname : message.recipientUser = .str name) (hsurrogate : hasSurrogate name = true) :
    judge machine node message = .error .unicodeEncodeError := by
  obtain ⟨sender, hvalid⟩ := Option.isSome_iff_exists.mp hsender
  simp only [judge, hvalid, hname, getRecipientByName_of_surrogate hsurrogate]
  rfl

theorem judge_of_opens {sender : String} {plaintext : List UInt8}
    (h : Opens machine node message sender name recipient plaintext)
    (hdeep : machine.loads plaintext = .recursionError) :
    judge machine node message = .error .recursionError := by
  simp only [judge, h.senderUser, h.recipientUser, h.reaches, bind, Except.bind, h.takesMail, h.unblocked,
    h.opens, hdeep]
  rfl

theorem judge_error_cases {raised : Raised} (h : judge machine node message = .error raised) :
    (∃ name, (validUserPart message.senderUser).isSome = true ∧ message.recipientUser = .str name ∧
      hasSurrogate name = true) ∨
    ∃ sender name recipient plaintext, Opens machine node message sender name recipient plaintext ∧
      machine.loads plaintext = .recursionError := by
  unfold judge at h
  split at h
  · rename_i sender name hsender hname
    cases hsurrogate : hasSurrogate name with
    | true => exact .inl ⟨name, by rw [hsender]; rfl, hname, hsurrogate⟩
    | false =>
      right
      rw [getRecipientByName_of_bindable hsurrogate] at h
      cases hreached : (userByUsername node name).or (accountFormerlyNamed node name) with
      | none =>
        rw [hreached] at h
        cases h
      | some recipient =>
        rw [hreached] at h
        cases htakes : mailRecipientBounceReason recipient with
        | some reason =>
          simp only [htakes, bind, Except.bind] at h
          cases h
        | none =>
          cases hblocked : blocksLinkSender node recipient sender message.homeNode with
          | true =>
            simp only [htakes, hblocked, bind, Except.bind] at h
            cases h
          | false =>
            cases hopens : machine.openSealed message.ciphertext with
            | none =>
              simp only [htakes, hblocked, hopens, bind, Except.bind] at h
              cases h
            | some plaintext =>
              have hreaches : getRecipientByName node name = .ok (some recipient) := by
                rw [getRecipientByName_of_bindable hsurrogate, hreached]
              have hall : Opens machine node message sender name recipient plaintext :=
                ⟨hsender, hname, hreaches, htakes, hblocked, hopens⟩
              cases hloads : machine.loads plaintext with
              | recursionError => exact ⟨sender, name, recipient, plaintext, hall, hloads⟩
              | valueError =>
                simp only [htakes, hblocked, hopens, hloads, bind, Except.bind] at h
                cases h
              | value decoded =>
                simp only [htakes, hblocked, hopens, hloads, bind, Except.bind] at h
                cases hfields : letterFields decoded with
                | none =>
                  rw [hfields] at h
                  cases h
                | some fields =>
                  rw [hfields] at h
                  cases h
  · cases h

theorem judge_ok_iff : (∃ verdict, judge machine node message = .ok verdict) ↔
    NothingRaises machine node message := by
  constructor
  · rintro ⟨verdict, hverdict⟩
    refine ⟨fun name hsender hname => ?_, fun sender name recipient plaintext hopens hdeep => ?_⟩
    · by_contra hsurrogate
      rw [judge_of_surrogate hsender hname (Bool.not_eq_false _ ▸ hsurrogate)] at hverdict
      cases hverdict
    · rw [judge_of_opens hopens hdeep] at hverdict
      cases hverdict
  · intro hnothing
    cases hjudge : judge machine node message with
    | ok verdict => exact ⟨verdict, rfl⟩
    | error raised =>
      exfalso
      rcases judge_error_cases hjudge with
        ⟨name, hsender, hname, hsurrogate⟩ | ⟨sender, name, recipient, plaintext, hopens, hdeep⟩
      · have hnone := hnothing.name name hsender hname
        rw [hsurrogate] at hnone
        cases hnone
      · exact hnothing.depth sender name recipient plaintext hopens hdeep

def Queued (node after : Node) (message : LinkMessage) (answer : Answer) : Prop :=
  ∃ acknowledgement, after.acknowledgements = node.acknowledgements ++ [acknowledgement] ∧
    acknowledgement.messageContentId = message.contentId ∧
    acknowledgement.target = message.homeNode ∧ acknowledgement.answer = answer ∧
    (∀ old ∈ node.acknowledgements, old.id ≠ acknowledgement.id) ∧
    ⟨"link_mail_ack", acknowledgement.id, message.homeNode⟩ ∈ after.workItems

def StoredOnce (machine : Machine) (node after : Node) (message : LinkMessage) (now : Int) : Prop :=
  ∃ name recipient roomed row, message.recipientUser = .str name ∧
    getRecipientByName node name = .ok (some recipient) ∧
    makeRoom node.box recipient (machine.utcIso now) = some roomed ∧ after.box = roomed.insert row ∧
    after.box.stored = node.box.stored + 1 ∧ row.recipientUserId = some recipient.id ∧
    row.linkSourceEventId = some message.contentId

def AnsweredOnce (machine : Machine) (node after : Node) (message : LinkMessage) (now : Int)
    (answer : Answer) : Prop :=
  Queued node after message answer ∧
    (answer = .accepted ∧ StoredOnce machine node after message now ∨
      ∃ reason, answer = .bounced reason ∧ after.box = node.box)

theorem queued_queueAcknowledgement {before : Node} (answer : Answer)
    (hbefore : before.acknowledgements = node.acknowledgements) :
    Queued node (queueAcknowledgement before message.contentId message.homeNode answer) message answer := by
  refine ⟨_, by rw [← hbefore]; rfl, rfl, rfl, rfl, ?_, ?_⟩
  · intro old hold hsame
    rw [← hbefore] at hold
    have hle : old.id ≤ maxNumber Acknowledgement.id before.acknowledgements := le_maxNumber hold
    rw [hsame] at hle
    exact absurd hle (Nat.not_succ_le_self _)
  · simp only [queueAcknowledgement]
    split
    · rename_i hthere
      exact hthere
    · exact List.mem_append_right _ (.head _)

theorem judge_deliver {senderAddress : String} {subject body : PyStr} {group : Option LetterGroup}
    (h : judge machine node message = .ok (.deliver recipient senderAddress subject body group)) :
    ∃ name, message.recipientUser = .str name ∧ getRecipientByName node name = .ok (some recipient) := by
  unfold judge at h
  split at h
  · rename_i sender name hsender hname
    refine ⟨name, hname, ?_⟩
    cases hreached : getRecipientByName node name with
    | error raised =>
      rw [hreached] at h
      cases h
    | ok found =>
      rw [hreached] at h
      simp only [bind, Except.bind] at h
      cases found with
      | none => cases h
      | some reached =>
        simp only at h
        split at h
        · cases h
        · split at h
          · cases h
          · split at h
            · cases h
            · split at h
              · cases h
              · cases h
              · split at h
                · cases h
                · cases h
                  rfl
  · cases h

theorem deliver_of_verdict {verdict : Verdict} (hverdict : judge machine node message = .ok verdict) (now : Int) :
    ∃ after answer, deliverLinkMessage machine node message now = .ok (after, answer) ∧
      AnsweredOnce machine node after message now answer := by
  simp only [deliverLinkMessage, hverdict, bind, Except.bind]
  cases verdict with
  | bounce reason =>
    exact ⟨_, _, rfl, queued_queueAcknowledgement _ rfl, .inr ⟨reason, rfl, rfl⟩⟩
  | deliver recipient senderAddress subject body group =>
    simp only
    split
    · exact ⟨_, _, rfl, queued_queueAcknowledgement _ rfl, .inr ⟨_, rfl, rfl⟩⟩
    · rename_i box hbox
      obtain ⟨name, hname, hreaches⟩ := judge_deliver hverdict
      refine ⟨_, _, rfl, queued_queueAcknowledgement _ rfl, .inl ⟨rfl, ?_⟩⟩
      unfold deliverLinkLetter at hbox
      cases hroom : makeRoom node.box recipient (machine.utcIso now) with
      | none =>
        rw [hroom] at hbox
        cases hbox
      | some roomed =>
        rw [hroom] at hbox
        cases hbox
        obtain ⟨pass, hpass⟩ := rewritten_makeRoom hroom
        exact ⟨name, recipient, roomed, _, hname, hreaches, hroom, rfl,
          congrArg (· + 1) hpass.stored_eq, rfl, rfl⟩

/-- An accepted letter gets its one answer exactly when nothing raises. -/
theorem answered_once_iff (machine : Machine) (node : Node) (message : LinkMessage) (now : Int) :
    (∃ after answer, deliverLinkMessage machine node message now = .ok (after, answer) ∧
      AnsweredOnce machine node after message now answer) ↔ NothingRaises machine node message := by
  rw [← judge_ok_iff]
  constructor
  · rintro ⟨after, answer, hdeliver, -⟩
    cases hjudge : judge machine node message with
    | ok verdict => exact ⟨verdict, rfl⟩
    | error raised =>
      simp only [deliverLinkMessage, hjudge, bind, Except.bind] at hdeliver
      cases hdeliver
  · rintro ⟨verdict, hverdict⟩
    exact deliver_of_verdict hverdict now

def sampleMachine : Machine where
  openSealed _ := some []
  loads _ := .value (.obj [(ofString "subject", .str (ofString "Hi")), (ofString "body", .str (ofString "text"))])
  parseUtcIso _ := none
  utcIso _ := "2026-11-19T00:00:00.000000Z"
  isAlnum _ := false
  lower text := text
  encodeGroupTo _ := "[]"

def sampleNode : Node where
  fingerprint := "home"
  users := [{ id := 1, username := ofString "bob" }]
  aliases := ⟨⟨{}, .empty, []⟩, .empty⟩

def surrogateLetter : LinkMessage where
  contentId := "letter"
  homeNode := "peer"
  senderUser := .str (ofString "ada")
  recipientUser := .str [0xD800]
  ciphertext := none
  createdAt := .null

/-- It gets no answer. -/
theorem surrogateLetter_raises :
    ¬∃ after answer, deliverLinkMessage sampleMachine sampleNode surrogateLetter 0 = .ok (after, answer) ∧
      AnsweredOnce sampleMachine sampleNode after surrogateLetter 0 answer := by
  rintro ⟨after, answer, hdeliver, -⟩
  have hraises : deliverLinkMessage sampleMachine sampleNode surrogateLetter 0 = .error .unicodeEncodeError := by
    have hjudge : judge sampleMachine sampleNode surrogateLetter = .error .unicodeEncodeError :=
      judge_of_surrogate (by decide +kernel) rfl (by decide +kernel)
    simp only [deliverLinkMessage, hjudge]
    rfl
  rw [hraises] at hdeliver
  cases hdeliver

end NetBBS.Mail
