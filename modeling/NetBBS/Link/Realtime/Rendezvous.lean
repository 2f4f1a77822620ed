import Mathlib.Data.List.Perm.Basic
import NetBBS.Foundation.Runs
import NetBBS.Link.Realtime.RelayClient

/-! # What a peer can do to a rendezvous -/

set_option linter.unusedSectionVars false

namespace NetBBS

open Foundation List

namespace RelayClient

variable {φ ι η ω : Type}

def Wait.FromRelay (wait : Wait φ ι) (sender : φ) (requestId : Option ι) : Prop :=
  sender = wait.relay ∧ ∀ id ∈ requestId, id = wait.messageId

def Attach.AskedFor (attach : Attach φ ι η) (wait : Wait φ ι) : Prop :=
  wait.FromRelay attach.sender attach.payload.requestId ∧
    ∀ future ∈ attach.answered, future = wait.future

/-- A node that knows the addresses its relays advertise. -/
structure Party (φ η ω : Type) where
  own : φ
  timeout : Nat
  lower : η → η
  advertised : ω → φ → List (η × Int)

def Party.config (party : Party φ η ω) : Config φ η ω :=
  ⟨party.own, party.timeout, party.lower, some party.advertised⟩

def Party.Advertises (party : Party φ η ω) (around : Surroundings φ ω) (relay : φ)
    (payload : ReadyPayload φ ι η) : Prop :=
  ∃ host, (host, payload.attachPort) ∈ party.advertised around.node relay ∧
    party.lower host = party.lower payload.attachAddress

/-- What happens next, and where. -/
abbrev Met (φ ι η ω : Type) : Type := Surroundings φ ω × Event φ ι η

namespace Client

variable [DecidableEq φ]

def Invited (s : Client φ ι η) (now : Nat) (peer relay : φ) : Prop :=
  ∃ deadline, s.accepted.get? peer = some (relay, deadline) ∧ now ≤ deadline

def StartsRightly (party : Party φ η ω) (s : Client φ ι η) (met : Met φ ι η ω)
    (attach : Attach φ ι η) : Prop :=
  met.2 = .frame attach.sender (.relayReady attach.payload) ∧
    party.Advertises met.1 attach.sender attach.payload ∧
    ((∃ wait, s.waiting.get? attach.peer = some wait ∧
        wait.FromRelay attach.sender attach.payload.requestId) ∨
      s.Invited met.1.now attach.peer attach.sender)

def EndsRightly (party : Party φ η ω) (s : Client φ ι η) (met : Met φ ι η ω) (target : φ)
    (wait : Wait φ ι) : Prop :=
  match met.2 with
  | .frame sender (.relayReject other _ origin requestId) =>
    other = target ∧ origin = .relay ∧ wait.FromRelay sender requestId
  | .frame sender (.relayReady payload) =>
    payload.peerFingerprint = target ∧ wait.FromRelay sender payload.requestId ∧
      ¬party.Advertises met.1 sender payload
  | .attachEnds i .session => ∃ attach, s.running[i]? = some attach ∧ attach.peer = target
  | .attachEnds i .failed =>
    ∃ attach, s.running[i]? = some attach ∧ attach.peer = target ∧ attach.AskedFor wait
  | .call i .timedOut =>
    ∃ call, s.calls[i]? = some call ∧ call.sending = false ∧ call.future = wait.future
  | _ => False

variable [DecidableEq ι] [DecidableEq η]

structure Kept (party : Party φ η ω) (s : Client φ ι η) (met : Met φ ι η ω) : Prop where
  starts : ∀ attach ∈ (step party.config s met).running, attach ∉ s.running →
    s.StartsRightly party met attach
  ends : ∀ target wait, s.waiting.get? target = some wait →
    (step party.config s met).waiting.get? target ≠ some wait → s.EndsRightly party met target wait
  one : ((step party.config s met).running.map Attach.peer).Nodup

def MeetsItsOwn (party : Party φ η ω) (s : Client φ ι η) (met : Met φ ι η ω) : Prop :=
  match met.2 with
  | .frame sender (.relayReady payload) =>
    ∀ wait, s.waiting.get? payload.peerFingerprint = some wait →
      s.attaching.contains payload.peerFingerprint = false →
      s.Invited met.1.now payload.peerFingerprint sender →
      wait.FromRelay sender payload.requestId ∨
        (party.Advertises met.1 sender payload ∧ party.Advertises met.1 wait.relay payload)
  | .attachEnds i .failed =>
    ∀ attach, s.running[i]? = some attach →
      ∀ wait, s.waiting.get? attach.peer = some wait → attach.AskedFor wait
  | .call i .sendFailed =>
    ∀ call, s.calls[i]? = some call → call.sending = true → s.waiting.get? call.target = none
  | .call i .timedOut =>
    ∀ call, s.calls[i]? = some call → call.sending = false →
      ∀ wait, s.waiting.get? call.target = some wait → call.future = wait.future
  | _ => True

variable (s : Client φ ι η) (relay target : φ) (frame : Frame φ ι η) (now : Nat)
    (result : Except RendezvousError φ)

@[simp] theorem send_waiting : (s.send relay frame).waiting = s.waiting := rfl

@[simp] theorem expireAccepted_waiting : (s.expireAccepted now).waiting = s.waiting := rfl
@[simp] theorem expireAccepted_running : (s.expireAccepted now).running = s.running := rfl
@[simp] theorem expireAccepted_attaching : (s.expireAccepted now).attaching = s.attaching := rfl

@[simp] theorem settle_running : (s.settle target result).running = s.running := by
  rw [settle]
  split <;> rfl

@[simp] theorem settle_finished : (s.settle target result).finished = s.finished := by
  rw [settle]
  split <;> rfl

@[simp] theorem settle_attaching : (s.settle target result).attaching = s.attaching := by
  rw [settle]
  split <;> rfl

@[simp] theorem settle_accepted : (s.settle target result).accepted = s.accepted := by
  rw [settle]
  split <;> rfl

@[simp] theorem settle_waiting (other : φ) : (s.settle target result).waiting.get? other =
    if target = other then none else s.waiting.get? other := by
  rw [settle]
  split
  · rename_i hnone
    by_cases hother : target = other
    · subst hother
      rw [if_pos rfl, hnone]
    · rw [if_neg hother]
  · simp

structure TasksOk (s : Client φ ι η) : Prop where
  nodup : (s.running.map Attach.peer ++ s.finished).Nodup
  held : ∀ peer ∈ s.running.map Attach.peer ++ s.finished, s.attaching.contains peer = true

variable {party : Party φ η ω} {c : Config φ η ω} {around : Surroundings φ ω}
    {s s' : Client φ ι η} {sender peer : φ} {payload : ReadyPayload φ ι η} {met : Met φ ι η ω}

theorem tasksOk_init : (init : Client φ ι η).TasksOk := by
  constructor <;> simp [init]

theorem TasksOk.congr (h : s.TasksOk) (hrunning : s'.running = s.running)
    (hfinished : s'.finished = s.finished) (hattaching : s'.attaching = s.attaching) :
    s'.TasksOk := by
  constructor
  · rw [hrunning, hfinished]
    exact h.nodup
  · rw [hrunning, hfinished, hattaching]
    exact h.held

theorem TasksOk.not_running (h : s.TasksOk) (hfree : s.attaching.contains peer = false) :
    peer ∉ s.running.map Attach.peer ++ s.finished := by
  intro hmem
  rw [h.held peer hmem] at hfree
  cases hfree

theorem TasksOk.start (h : s.TasksOk) (hfree : s.attaching.contains payload.peerFingerprint = false) :
    (s.start sender payload).TasksOk := by
  have hperm : ((s.start sender payload).running.map Attach.peer ++
      (s.start sender payload).finished).Perm
      (payload.peerFingerprint :: (s.running.map Attach.peer ++ s.finished)) := by
    simp only [Client.start, map_append, map_cons, map_nil, append_assoc,
      singleton_append]
    exact perm_middle
  constructor
  · rw [hperm.nodup_iff, nodup_cons]
    exact ⟨h.not_running hfree, h.nodup⟩
  · intro peer hpeer
    rw [hperm.mem_iff, mem_cons] at hpeer
    rw [Dict.contains_iff]
    simp only [Client.start, Dict.get?_set]
    by_cases hsame : payload.peerFingerprint = peer
    · simp [hsame]
    · rw [if_neg hsame, ← Dict.contains_iff]
      exact h.held peer (hpeer.resolve_left (Ne.symm hsame))

theorem TasksOk.refuse (h : s.TasksOk) : (s.refuse peer).TasksOk := by
  apply h.congr <;> simp [Client.refuse]

theorem spawnAttach_cases (c : Config φ η ω) (around : Surroundings φ ω) (s : Client φ ι η)
    (sender : φ) (payload : ReadyPayload φ ι η) :
    (s.attaching.contains payload.peerFingerprint = true ∧ s.spawnAttach c around sender payload = s) ∨
    (s.attaching.contains payload.peerFingerprint = false ∧ (∀ relay ∈ s.relayFor payload.peerFingerprint,
        attachAddressAllowed c around relay payload = true) ∧
      s.spawnAttach c around sender payload = s.start sender payload) ∨
    (s.attaching.contains payload.peerFingerprint = false ∧ (∃ relay ∈ s.relayFor payload.peerFingerprint,
        attachAddressAllowed c around relay payload = false) ∧
      s.spawnAttach c around sender payload = s.refuse payload.peerFingerprint) := by
  rw [spawnAttach]
  cases hin : s.attaching.contains payload.peerFingerprint with
  | true => exact .inl ⟨rfl, rfl⟩
  | false =>
    right
    cases hrelay : s.relayFor payload.peerFingerprint with
    | none => exact .inl ⟨rfl, by simp, rfl⟩
    | some relay =>
      cases hallowed : attachAddressAllowed c around relay payload with
      | true => exact .inl ⟨rfl, by simp [hallowed], by simp [hallowed]⟩
      | false => exact .inr ⟨rfl, by simp [hallowed], by simp [hallowed]⟩

section

variable (h : s.TasksOk)

include h

theorem TasksOk.spawnAttach : (s.spawnAttach c around sender payload).TasksOk := by
  rcases spawnAttach_cases c around s sender payload with ⟨_, hs⟩ | ⟨hfree, _, hs⟩ | ⟨_, _, hs⟩
  · rw [hs]
    exact h
  · rw [hs]
    exact h.start hfree
  · rw [hs]
    exact h.refuse

theorem TasksOk.handleInvitation (relay requester : φ) (invitationId : ι) :
    (s.handleInvitation c around relay requester invitationId).TasksOk := by
  rw [Client.handleInvitation]
  split <;> exact h.congr rfl rfl rfl

theorem TasksOk.onFrame (frame : Frame φ ι η) : (s.onFrame c around sender frame).TasksOk := by
  rw [Client.onFrame]
  split
  · have hexpired : (s.expireAccepted around.now).TasksOk := h.congr rfl rfl rfl
    cases frame with
    | relayRequest messageId target requester viaRelay requestId =>
      exact hexpired.handleInvitation _ _ _
    | relayWaiting target requestId => exact hexpired
    | relayReject target reason origin requestId =>
      exact hexpired.congr (settle_running ..) (settle_finished ..) (settle_attaching ..)
    | relayReady payload =>
      simp only [Client.handleFrame]
      split
      · exact hexpired.spawnAttach
      · exact hexpired
    | other => exact hexpired
  · exact h

theorem TasksOk.attachEnds (i : Nat) (outcome : AttachOutcome) :
    (s.attachEnds i outcome).TasksOk := by
  rw [Client.attachEnds]
  cases hi : s.running[i]? with
  | none => exact h
  | some attach =>
    have hperm : ((s.running.eraseIdx i).map Attach.peer ++ (s.finished ++ [attach.peer])).Perm
        (s.running.map Attach.peer ++ s.finished) := by
      rw [← append_assoc]
      apply (perm_append_singleton _ _).trans
      have hrunning : (attach :: s.running.eraseIdx i).Perm s.running := by
        rw [getElem?_eq_some_iff] at hi
        rcases hi with ⟨hlt, rfl⟩
        exact getElem_cons_eraseIdx_perm hlt
      exact (hrunning.map Attach.peer).append_right s.finished
    have hended : TasksOk { s with
        running := s.running.eraseIdx i, finished := s.finished ++ [attach.peer] } := by
      constructor
      · exact hperm.nodup_iff.mpr h.nodup
      · intro peer hpeer
        exact h.held peer (hperm.mem_iff.mp hpeer)
    cases outcome with
    | failed => exact hended.congr (settle_running ..) (settle_finished ..) (settle_attaching ..)
    | session => exact hended.congr (settle_running ..) (settle_finished ..) (settle_attaching ..)
    | raised => exact hended

theorem TasksOk.attachDone (i : Nat) : (s.attachDone i).TasksOk := by
  rw [Client.attachDone]
  cases hi : s.finished[i]? with
  | none => exact h
  | some peer =>
    have hperm : (peer :: (s.running.map Attach.peer ++ s.finished.eraseIdx i)).Perm
        (s.running.map Attach.peer ++ s.finished) := by
      have hfinished : (peer :: s.finished.eraseIdx i).Perm s.finished := by
        rw [getElem?_eq_some_iff] at hi
        rcases hi with ⟨hlt, rfl⟩
        exact getElem_cons_eraseIdx_perm hlt
      exact perm_middle.symm.trans (hfinished.append_left _)
    have hnodup := hperm.nodup_iff.mpr h.nodup
    rw [nodup_cons] at hnodup
    constructor
    · exact hnodup.2
    · intro other hother
      have hne : peer ≠ other := by
        rintro rfl
        exact hnodup.1 hother
      rw [Dict.contains_iff]
      simp only [Dict.get?_erase, if_neg hne]
      rw [← Dict.contains_iff]
      exact h.held other (hperm.mem_iff.mp (.tail _ hother))

theorem TasksOk.step (met : Met φ ι η ω) : (step c s met).TasksOk := by
  rcases met with ⟨around, event⟩
  cases event with
  | requestBridge relay target viaRelay messageId =>
    simp only [RelayClient.step, Client.requestBridge]
    split
    · exact h.congr rfl rfl rfl
    · split
      · exact h
      · exact h.congr rfl rfl rfl
  | call i progress =>
    simp only [RelayClient.step, Client.callGoesOn]
    split
    · exact h
    · cases progress with
      | sent => exact h.congr rfl rfl rfl
      | sendFailed =>
        simp only
        split
        · apply h.congr <;> simp
        · exact h
      | timedOut =>
        simp only
        split
        · exact h
        · apply h.congr <;> simp
      | returned =>
        simp only
        split
        · exact h.congr rfl rfl rfl
        · exact h
  | frame sender frame => exact h.onFrame frame
  | decided i allowed messageId =>
    simp only [RelayClient.step, Client.decided]
    split
    · exact h
    · split <;> exact h.congr rfl rfl rfl
  | attachEnds i outcome => exact h.attachEnds i outcome
  | attachDone i => exact h.attachDone i

end

end Client

end RelayClient

end NetBBS

/-! # When a rendezvous is left alone -/

namespace NetBBS

open Foundation

namespace RelayClient

variable {φ ι η ω : Type} [DecidableEq φ] [DecidableEq ι] [DecidableEq η]

theorem attachAddressAllowed_iff (party : Party φ η ω) (around : Surroundings φ ω) (relay : φ)
    (payload : ReadyPayload φ ι η) :
    Client.attachAddressAllowed party.config around relay payload = true ↔
      party.Advertises around relay payload := by
  simp only [Client.attachAddressAllowed, Party.config, Client.inAddresses, List.any_eq_true,
    Bool.and_eq_true, Party.Advertises]
  constructor
  · rintro ⟨⟨host, port⟩, hmem, hhost, hport⟩
    have hsame : port = payload.attachPort := of_decide_eq_true hport
    subst hsame
    exact ⟨host, hmem, of_decide_eq_true hhost⟩
  · rintro ⟨host, hmem, hhost⟩
    exact ⟨(host, payload.attachPort), hmem, decide_eq_true hhost, decide_eq_true rfl⟩

namespace Client

variable {party : Party φ η ω} {around : Surroundings φ ω} {s s' : Client φ ι η} {sender : φ}
    {payload : ReadyPayload φ ι η} {met : Met φ ι η ω}

theorem answersCurrentWait_iff (s : Client φ ι η) (sender target : φ) (requestId : Option ι) :
    s.answersCurrentWait sender target requestId = true ↔
      ∃ wait, s.waiting.get? target = some wait ∧ wait.FromRelay sender requestId := by
  rw [answersCurrentWait]
  cases hwait : s.waiting.get? target with
  | none => simp
  | some wait =>
    have hrelay : sender = wait.relay ↔ wait.relay = sender := eq_comm
    cases requestId with
    | none => simp [Wait.FromRelay, hrelay]
    | some id => simp [Wait.FromRelay, hrelay]

theorem relayFor_waiting {peer : φ} {wait : Wait φ ι} (h : s.waiting.get? peer = some wait) :
    s.relayFor peer = some wait.relay := by
  rw [relayFor, h]

theorem ownsFrame_ready_iff (c : Config φ η ω) (s : Client φ ι η) (now : Nat) (sender : φ)
    (payload : ReadyPayload φ ι η) :
    (s.expireAccepted now).ownsFrame c sender (.relayReady payload) = true ↔
      (∃ wait, s.waiting.get? payload.peerFingerprint = some wait ∧ wait.FromRelay sender payload.requestId) ∨
      s.Invited now payload.peerFingerprint sender := by
  rw [ownsFrame, Bool.or_eq_true, answersCurrentWait_iff, expireAccepted_waiting]
  apply or_congr_right
  constructor
  · intro h
    cases hentry : (s.expireAccepted now).accepted.get? payload.peerFingerprint with
    | none => simp [hentry] at h
    | some entry =>
      have hrelay : entry.1 = sender := by simpa [hentry] using h
      rw [expireAccepted, Dict.get?_filter_eq_some] at hentry
      exact ⟨entry.2, by rw [hentry.1, ← hrelay], by simpa using hentry.2⟩
  · rintro ⟨deadline, hentry, hnow⟩
    have hkept : (s.expireAccepted now).accepted.get? payload.peerFingerprint =
        some (sender, deadline) := by
      rw [expireAccepted, Dict.get?_filter_eq_some]
      exact ⟨hentry, by simpa using hnow⟩
    simp [hkept]

theorem ownsFrame_of_expired {c : Config φ η ω} {now : Nat}
    (h : (s.expireAccepted now).ownsFrame c sender (.relayReady payload) = true) :
    s.ownsFrame c sender (.relayReady payload) = true := by
  rw [ownsFrame, Bool.or_eq_true, answersCurrentWait_iff]
  rcases (ownsFrame_ready_iff ..).mp h with hanswers | ⟨deadline, hentry, _⟩
  · exact .inl hanswers
  · exact .inr (by simp [hentry])

theorem running_step_subset (c : Config φ η ω) (s : Client φ ι η) (met : Met φ ι η ω)
    (hready : ∀ sender payload, met.2 ≠ .frame sender (.relayReady payload)) :
    ∀ attach ∈ (step c s met).running, attach ∈ s.running := by
  rcases met with ⟨around, event⟩
  intro attach hattach
  cases event with
  | requestBridge relay target viaRelay messageId =>
    simp only [step, requestBridge] at hattach
    split at hattach
    · exact hattach
    · split at hattach <;> exact hattach
  | call i progress =>
    simp only [step, callGoesOn] at hattach
    split at hattach
    · exact hattach
    · cases progress with
      | sent => exact hattach
      | sendFailed =>
        simp only at hattach
        split at hattach <;> simpa using hattach
      | timedOut =>
        simp only at hattach
        split at hattach <;> simpa using hattach
      | returned =>
        simp only at hattach
        split at hattach <;> exact hattach
  | frame sender frame =>
    simp only [step, onFrame] at hattach
    split at hattach
    · cases frame with
      | relayRequest messageId target requester viaRelay requestId =>
        simp only [handleFrame, handleInvitation] at hattach
        split at hattach <;> exact hattach
      | relayWaiting target requestId => exact hattach
      | relayReject target reason origin requestId => simpa [handleFrame] using hattach
      | relayReady payload => exact absurd rfl (hready sender payload)
      | other => exact hattach
    · exact hattach
  | decided i allowed messageId =>
    simp only [step, decided] at hattach
    split at hattach
    · exact hattach
    · split at hattach <;> exact hattach
  | attachEnds i outcome =>
    simp only [step, attachEnds] at hattach
    split at hattach
    · exact hattach
    · cases outcome with
      | failed => exact List.mem_of_mem_eraseIdx (by simpa using hattach)
      | session => exact List.mem_of_mem_eraseIdx (by simpa using hattach)
      | raised => exact List.mem_of_mem_eraseIdx hattach
  | attachDone i =>
    simp only [step, attachDone] at hattach
    split at hattach <;> exact hattach

theorem Kept.of_quiet (h : s.TasksOk)
    (hrunning : ∀ attach ∈ (step party.config s met).running, attach ∈ s.running)
    (hwaiting : ∀ target wait, s.waiting.get? target = some wait →
      (step party.config s met).waiting.get? target = some wait) : s.Kept party met where
  starts attach hattach hnew := absurd (hrunning attach hattach) hnew
  ends target wait hwait hended := absurd (hwaiting target wait hwait) hended
  one := (List.nodup_append.mp (h.step met).nodup).1

theorem kept_iff_of_settles (target : φ) (h : s.TasksOk)
    (hrunning : ∀ attach ∈ (step party.config s met).running, attach ∈ s.running)
    (hwaiting : ∀ other, (step party.config s met).waiting.get? other =
      if target = other then none else s.waiting.get? other) :
    s.Kept party met ↔
      ∀ wait, s.waiting.get? target = some wait → s.EndsRightly party met target wait := by
  constructor
  · intro hkept wait hwait
    exact hkept.ends target wait hwait (by rw [hwaiting, if_pos rfl]; simp)
  · intro hends
    constructor
    · intro attach hattach hnew
      exact absurd (hrunning attach hattach) hnew
    · intro other wait hwait hended
      rw [hwaiting] at hended
      by_cases hsame : target = other
      · subst hsame
        exact hends wait hwait
      · exact absurd hwait (by simpa [hsame] using hended)
    · exact (List.nodup_append.mp (h.step met).nodup).1

theorem start_running {attach : Attach φ ι η} (hmem : attach ∈ (s.start sender payload).running)
    (hnew : attach ∉ s.running) :
    attach = ⟨payload, sender, s.answered sender payload⟩ := by
  simp only [start, List.mem_append, List.mem_singleton] at hmem
  exact hmem.resolve_left hnew

theorem kept_iff_of_started (h : s.TasksOk)
    (hstep : step party.config s (around, .frame sender (.relayReady payload)) =
      (s.expireAccepted around.now).start sender payload)
    (howns : (s.expireAccepted around.now).ownsFrame party.config sender (.relayReady payload) = true)
    (hfree : s.attaching.contains payload.peerFingerprint = false)
    (hallowed : ∀ relay ∈ (s.expireAccepted around.now).relayFor payload.peerFingerprint,
      party.Advertises around relay payload) :
    s.Kept party (around, .frame sender (.relayReady payload)) ↔
      s.MeetsItsOwn party (around, .frame sender (.relayReady payload)) := by
  have hsource := (ownsFrame_ready_iff party.config s around.now sender payload).mp howns
  have hrelay : ∀ wait, s.waiting.get? payload.peerFingerprint = some wait →
      party.Advertises around wait.relay payload := by
    intro wait hwait
    exact hallowed wait.relay (relayFor_waiting hwait)
  constructor
  · intro hkept wait hwait _ _
    have hnew : (⟨payload, sender, (s.expireAccepted around.now).answered sender payload⟩ :
        Attach φ ι η) ∉ s.running := by
      intro hmem
      exact h.not_running hfree (List.mem_append_left _ (List.mem_map_of_mem hmem))
    have hright := hkept.starts _ (by rw [hstep]; simp [start]) hnew
    exact .inr ⟨hright.2.1, hrelay wait hwait⟩
  · intro hmeets
    constructor
    · intro attach hattach hnew
      rw [hstep] at hattach
      rw [start_running hattach hnew]
      refine ⟨rfl, ?_, hsource⟩
      -- Who the ready is checked against is its sender, unless another relay is waited on.
      rcases hsource with ⟨wait, hwait, hfrom⟩ | hinvited
      · rw [hfrom.1]
        exact hrelay wait hwait
      · cases hpending : s.waiting.get? payload.peerFingerprint with
        | none =>
          apply hallowed sender
          rcases hinvited with ⟨deadline, hentry, hnow⟩
          have hkept : (s.expireAccepted around.now).accepted.get? payload.peerFingerprint =
              some (sender, deadline) := by
            rw [expireAccepted, Dict.get?_filter_eq_some]
            exact ⟨hentry, by simpa using hnow⟩
          simp [relayFor, hpending, hkept]
        | some wait =>
          rcases hmeets wait hpending hfree hinvited with hfrom | hboth
          · rw [hfrom.1]
            exact hrelay wait hpending
          · exact hboth.1
    · intro target wait hwait hended
      rw [hstep] at hended
      exact absurd hwait hended
    · exact (List.nodup_append.mp (h.step _).nodup).1

theorem kept_iff_of_refused (h : s.TasksOk)
    (hstep : step party.config s (around, .frame sender (.relayReady payload)) =
      (s.expireAccepted around.now).refuse payload.peerFingerprint)
    (howns : (s.expireAccepted around.now).ownsFrame party.config sender (.relayReady payload) = true)
    (hfree : s.attaching.contains payload.peerFingerprint = false)
    (hrefused : ∃ relay ∈ (s.expireAccepted around.now).relayFor payload.peerFingerprint,
      ¬party.Advertises around relay payload) :
    s.Kept party (around, .frame sender (.relayReady payload)) ↔
      s.MeetsItsOwn party (around, .frame sender (.relayReady payload)) := by
  have hsource := (ownsFrame_ready_iff party.config s around.now sender payload).mp howns
  have hrelay : ∀ wait, s.waiting.get? payload.peerFingerprint = some wait →
      ¬party.Advertises around wait.relay payload := by
    intro wait hwait
    rcases hrefused with ⟨relay, hmem, hnot⟩
    rw [relayFor_waiting (s := s.expireAccepted around.now) hwait, Option.mem_some_iff] at hmem
    rw [hmem]
    exact hnot
  rw [kept_iff_of_settles payload.peerFingerprint h]
  · constructor
    · intro hends wait hwait _ _
      exact .inl (hends wait hwait).2.1
    · intro hmeets wait hwait
      have hfrom : wait.FromRelay sender payload.requestId := by
        rcases hsource with ⟨wait', hwait', hfrom⟩ | hinvited
        · rw [hwait] at hwait'
          cases hwait'
          exact hfrom
        · exact (hmeets wait hwait hfree hinvited).resolve_right
            fun hboth => hrelay wait hwait hboth.2
      refine ⟨rfl, hfrom, ?_⟩
      rw [hfrom.1]
      exact hrelay wait hwait
  · intro attach hattach
    rw [hstep, refuse, settle_running] at hattach
    exact hattach
  · intro other
    rw [hstep, refuse, settle_waiting]
    rfl

theorem kept_iff_ready (h : s.TasksOk) (around : Surroundings φ ω) (sender : φ)
    (payload : ReadyPayload φ ι η) :
    s.Kept party (around, .frame sender (.relayReady payload)) ↔
      s.MeetsItsOwn party (around, .frame sender (.relayReady payload)) := by
  cases howns : (s.expireAccepted around.now).ownsFrame party.config sender (.relayReady payload) with
  | true =>
    have hstep : step party.config s (around, .frame sender (.relayReady payload)) =
        (s.expireAccepted around.now).spawnAttach party.config around sender payload := by
      simp [step, onFrame, handleFrame, howns, ownsFrame_of_expired howns]
    rcases spawnAttach_cases party.config around (s.expireAccepted around.now) sender payload with
      ⟨hin, hspawn⟩ | ⟨hfree, hallowed, hspawn⟩ | ⟨hfree, hrefused, hspawn⟩
    · rw [hspawn] at hstep
      constructor
      · intro _ wait _ hfree _
        rw [expireAccepted_attaching, hfree] at hin
        cases hin
      · intro _
        apply Kept.of_quiet h
        · rw [hstep]
          exact fun _ hattach => hattach
        · rw [hstep]
          exact fun _ _ hwait => hwait
    · exact kept_iff_of_started h (hstep.trans hspawn) howns hfree
        fun relay hrelay => (attachAddressAllowed_iff ..).mp (hallowed relay hrelay)
    · rcases hrefused with ⟨relay, hrelay, hnot⟩
      exact kept_iff_of_refused h (hstep.trans hspawn) howns hfree
        ⟨relay, hrelay, fun hadvertised => by
          rw [(attachAddressAllowed_iff ..).mpr hadvertised] at hnot
          cases hnot⟩
  | false =>
    constructor
    · intro _ wait _ _ hinvited
      rw [(ownsFrame_ready_iff ..).mpr (.inr hinvited)] at howns
      cases howns
    · intro _
      apply Kept.of_quiet h
      · intro attach hattach
        simp only [step, onFrame, handleFrame, howns] at hattach
        split at hattach <;> exact hattach
      · intro target wait hwait
        simp only [step, onFrame, handleFrame, howns]
        split <;> exact hwait

end Client

end RelayClient

end NetBBS
