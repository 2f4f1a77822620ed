import Mathlib.Data.List.Induction
import NetBBS.Link.Realtime.Rendezvous

/-! # Runs of the relay client -/

set_option linter.unusedSectionVars false

namespace NetBBS

open Foundation List Dict

namespace RelayClient

variable {φ ι η ω : Type} [DecidableEq φ] [DecidableEq ι] [DecidableEq η]

namespace Client

variable {party : Party φ η ω} {around : Surroundings φ ω} {s : Client φ ι η}

section

variable (h : s.TasksOk)

include h

theorem kept_requestBridge (relay target : φ) (viaRelay : Option φ) (messageId : ι) :
    s.Kept party (around, .requestBridge relay target viaRelay messageId) := by
  apply Kept.of_quiet h
  · exact running_step_subset _ _ _ (by simp)
  · intro other wait hwait
    simp only [step, requestBridge]
    split
    · exact hwait
    · rename_i hnone
      split
      · exact hwait
      · have hne : target ≠ other := by
          rintro rfl
          rw [hnone] at hwait
          cases hwait
        simpa [hne] using hwait

theorem kept_iff_call (i : Nat) (progress : CallProgress) :
    s.Kept party (around, .call i progress) ↔ s.MeetsItsOwn party (around, .call i progress) := by
  have hrunning := running_step_subset party.config s (around, .call i progress) (by simp)
  cases hcall : s.calls[i]? with
  | none =>
    constructor
    · intro _
      cases progress <;> simp [MeetsItsOwn, hcall]
    · intro _
      apply Kept.of_quiet h hrunning
      intro target wait hwait
      simpa [step, callGoesOn, hcall] using hwait
  | some call =>
    cases progress with
    | sent =>
      refine ⟨fun _ => trivial, fun _ => Kept.of_quiet h hrunning ?_⟩
      intro target wait hwait
      simpa [step, callGoesOn, hcall] using hwait
    | returned =>
      refine ⟨fun _ => trivial, fun _ => Kept.of_quiet h hrunning ?_⟩
      intro target wait hwait
      simp only [step, callGoesOn, hcall]
      split <;> exact hwait
    | sendFailed =>
      cases hsending : call.sending with
      | false =>
        constructor
        · intro _ call' hcall' hsending'
          rw [hcall, Option.some.injEq] at hcall'
          rw [← hcall', hsending] at hsending'
          cases hsending'
        · intro _
          apply Kept.of_quiet h hrunning
          intro target wait hwait
          simpa [step, callGoesOn, hcall, hsending] using hwait
      | true =>
        rw [kept_iff_of_settles call.target h hrunning]
        · constructor
          · intro hends call' hcall' _
            rw [hcall, Option.some.injEq] at hcall'
            rw [← hcall', Option.eq_none_iff_forall_ne_some]
            exact hends
          · intro hmeets wait hwait
            rw [hmeets call hcall hsending] at hwait
            cases hwait
        · intro other
          simp [step, callGoesOn, hcall, hsending]
    | timedOut =>
      cases hsending : call.sending with
      | true =>
        constructor
        · intro _ call' hcall' hsending'
          rw [hcall, Option.some.injEq] at hcall'
          rw [← hcall', hsending] at hsending'
          cases hsending'
        · intro _
          apply Kept.of_quiet h hrunning
          intro target wait hwait
          simpa [step, callGoesOn, hcall, hsending] using hwait
      | false =>
        rw [kept_iff_of_settles call.target h hrunning]
        · constructor
          · intro hends call' hcall' _ wait hwait
            rw [hcall, Option.some.injEq] at hcall'
            subst hcall'
            rcases hends wait hwait with ⟨call', hcall', _, hfuture⟩
            rw [hcall, Option.some.injEq] at hcall'
            rw [hcall']
            exact hfuture
          · intro hmeets wait hwait
            exact ⟨call, hcall, hsending, hmeets call hcall hsending wait hwait⟩
        · intro other
          simp [step, callGoesOn, hcall, hsending]

theorem kept_frame (sender : φ) (frame : Frame φ ι η)
    (hready : ∀ payload, frame ≠ .relayReady payload) :
    s.Kept party (around, .frame sender frame) := by
  have hrunning := running_step_subset party.config s (around, .frame sender frame) (by
    rintro _ payload hframe
    exact hready payload (Event.frame.inj hframe).2)
  cases howns : s.ownsFrame party.config sender frame with
  | false =>
    apply Kept.of_quiet h hrunning
    intro target wait hwait
    simpa [step, onFrame, howns] using hwait
  | true =>
    cases frame with
    | relayRequest messageId target requester viaRelay requestId =>
      apply Kept.of_quiet h hrunning
      intro other wait hwait
      simp only [step, onFrame, howns, if_true, handleFrame, handleInvitation]
      split <;> exact hwait
    | relayWaiting target requestId =>
      apply Kept.of_quiet h hrunning
      intro other wait hwait
      simpa [step, onFrame, howns, handleFrame] using hwait
    | relayReject target reason origin requestId =>
      rw [kept_iff_of_settles target h hrunning]
      · intro wait hwait
        rw [ownsFrame, Bool.and_eq_true, answersCurrentWait_iff] at howns
        rcases howns with ⟨horigin, wait', hwait', hfrom⟩
        rw [hwait, Option.some.injEq] at hwait'
        subst hwait'
        exact ⟨rfl, of_decide_eq_true horigin, hfrom⟩
      · intro other
        simp [step, onFrame, howns, handleFrame]
    | relayReady payload => exact absurd rfl (hready payload)
    | other =>
      apply Kept.of_quiet h hrunning
      intro other wait hwait
      simpa [step, onFrame, howns, handleFrame] using hwait

theorem kept_iff_attachEnds (i : Nat) (outcome : AttachOutcome) :
    s.Kept party (around, .attachEnds i outcome) ↔
      s.MeetsItsOwn party (around, .attachEnds i outcome) := by
  have hrunning := running_step_subset party.config s (around, .attachEnds i outcome) (by simp)
  cases hattach : s.running[i]? with
  | none =>
    constructor
    · intro _
      cases outcome <;> simp [MeetsItsOwn, hattach]
    · intro _
      apply Kept.of_quiet h hrunning
      intro target wait hwait
      simpa [step, attachEnds, hattach] using hwait
  | some attach =>
    cases outcome with
    | raised =>
      refine ⟨fun _ => trivial, fun _ => Kept.of_quiet h hrunning ?_⟩
      intro target wait hwait
      simpa [step, attachEnds, hattach] using hwait
    | session =>
      refine ⟨fun _ => trivial, fun _ => ?_⟩
      rw [kept_iff_of_settles attach.peer h hrunning]
      · intro wait _
        exact ⟨attach, hattach, rfl⟩
      · intro other
        simp [step, attachEnds, hattach]
    | failed =>
      rw [kept_iff_of_settles attach.peer h hrunning]
      · constructor
        · intro hends attach' hattach' wait hwait
          rw [hattach, Option.some.injEq] at hattach'
          subst hattach'
          rcases hends wait hwait with ⟨attach', hattach', _, hasked⟩
          rw [hattach, Option.some.injEq] at hattach'
          rw [hattach']
          exact hasked
        · intro hmeets wait hwait
          exact ⟨attach, hattach, rfl, hmeets attach hattach wait hwait⟩
      · intro other
        simp [step, attachEnds, hattach]

theorem kept_iff_meetsItsOwn (met : Met φ ι η ω) :
    s.Kept party met ↔ s.MeetsItsOwn party met := by
  rcases met with ⟨around, event⟩
  cases event with
  | requestBridge relay target viaRelay messageId =>
    exact ⟨fun _ => trivial, fun _ => kept_requestBridge h ..⟩
  | call i progress => exact kept_iff_call h i progress
  | frame sender frame =>
    cases frame with
    | relayReady payload => exact kept_iff_ready h around sender payload
    | relayRequest messageId target requester viaRelay requestId =>
      exact ⟨fun _ => trivial, fun _ => kept_frame h _ _ (by simp)⟩
    | relayWaiting target requestId => exact ⟨fun _ => trivial, fun _ => kept_frame h _ _ (by simp)⟩
    | relayReject target reason origin requestId =>
      exact ⟨fun _ => trivial, fun _ => kept_frame h _ _ (by simp)⟩
    | other => exact ⟨fun _ => trivial, fun _ => kept_frame h _ _ (by simp)⟩
  | decided i allowed messageId =>
    refine ⟨fun _ => trivial, fun _ => Kept.of_quiet h ?_ ?_⟩
    · exact running_step_subset _ _ _ (by simp)
    · intro target wait hwait
      simp only [step, decided]
      split
      · exact hwait
      · split <;> exact hwait
  | attachEnds i outcome => exact kept_iff_attachEnds h i outcome
  | attachDone i =>
    refine ⟨fun _ => trivial, fun _ => Kept.of_quiet h ?_ ?_⟩
    · exact running_step_subset _ _ _ (by simp)
    · intro target wait hwait
      simp only [step, attachDone]
      split <;> exact hwait

end

theorem tasksOk_visited (c : Config φ η ω) (run : List (Met φ ι η ω)) :
    ∀ v ∈ visited (step c) init run, v.1.TasksOk :=
  visited_invariant run init tasksOk_init fun v _ h => h.step v.2

end Client

def CameOver (party : Party φ η ω) (run : List (Met φ ι η ω)) (peer relay : φ) (id : ι) : Prop :=
  ∃ met ∈ run, ∃ viaRelay requestId,
    met.2 = .frame relay (.relayRequest id party.own peer viaRelay requestId)

structure Client.Grounded (party : Party φ η ω) (run : List (Met φ ι η ω)) (s : Client φ ι η) :
    Prop where
  asked : ∀ target wait, s.waiting.get? target = some wait → ∃ met ∈ run, ∃ viaRelay,
    met.2 = .requestBridge wait.relay target viaRelay wait.messageId
  judged : ∀ invitation ∈ s.deciding,
    CameOver party run invitation.requester invitation.relay invitation.messageId
  agreed : ∀ peer relay deadline, s.accepted.get? peer = some (relay, deadline) →
    (∃ id, CameOver party run peer relay id) ∧
      ∃ met ∈ run, (∃ i id, met.2 = .decided i true id) ∧ deadline = met.1.now + party.timeout

/-- What the one holds, the other holds too. -/
structure Client.Within (s' s : Client φ ι η) : Prop where
  waiting : ∀ target wait, s'.waiting.get? target = some wait → s.waiting.get? target = some wait
  deciding : ∀ invitation ∈ s'.deciding, invitation ∈ s.deciding
  accepted : ∀ peer entry, s'.accepted.get? peer = some entry → s.accepted.get? peer = some entry

namespace Client

variable {party : Party φ η ω} {c : Config φ η ω} {around : Surroundings φ ω}
  {s s' s'' : Client φ ι η} {sender : φ} {run run' : List (Met φ ι η ω)}

theorem Within.of_eq (hwaiting : s'.waiting = s.waiting) (hdeciding : s'.deciding = s.deciding)
    (haccepted : s'.accepted = s.accepted) : s'.Within s := by
  constructor
  · simp [hwaiting]
  · simp [hdeciding]
  · simp [haccepted]

theorem Within.trans (h : s''.Within s') (h' : s'.Within s) : s''.Within s where
  waiting target wait hwait := h'.waiting target wait (h.waiting target wait hwait)
  deciding invitation hmem := h'.deciding invitation (h.deciding invitation hmem)
  accepted peer entry hentry := h'.accepted peer entry (h.accepted peer entry hentry)

@[simp] theorem settle_deciding (s : Client φ ι η) (target : φ)
    (result : Except RendezvousError φ) : (s.settle target result).deciding = s.deciding := by
  rw [settle]
  split <;> rfl

theorem within_settle (s : Client φ ι η) (target : φ) (result : Except RendezvousError φ) :
    (s.settle target result).Within s := by
  constructor
  · intro other wait hwait
    rw [settle_waiting] at hwait
    split at hwait
    · cases hwait
    · exact hwait
  · simp
  · simp

theorem within_expireAccepted (s : Client φ ι η) (now : Nat) : (s.expireAccepted now).Within s := by
  constructor
  · exact fun _ _ h => h
  · exact fun _ h => h
  · intro peer entry hentry
    rw [expireAccepted, get?_filter_eq_some] at hentry
    exact hentry.1

theorem within_accepted_erase (s : Client φ ι η) (peer : φ) :
    Within { s with accepted := s.accepted.erase peer } s := by
  constructor
  · exact fun _ _ h => h
  · exact fun _ h => h
  · intro other entry hentry
    rw [get?_erase] at hentry
    split at hentry
    · cases hentry
    · exact hentry

theorem within_spawnAttach (s : Client φ ι η) (sender : φ) (payload : ReadyPayload φ ι η) :
    (s.spawnAttach c around sender payload).Within s := by
  have herased := within_accepted_erase s payload.peerFingerprint
  rcases spawnAttach_cases c around s sender payload with ⟨_, hs⟩ | ⟨_, _, hs⟩ | ⟨_, _, hs⟩
  · rw [hs]
    exact .of_eq rfl rfl rfl
  · rw [hs]
    exact ⟨herased.waiting, herased.deciding, herased.accepted⟩
  · rw [hs, refuse]
    exact (within_settle ..).trans herased

theorem within_callGoesOn (s : Client φ ι η) (i : Nat) (progress : CallProgress) :
    (s.callGoesOn i progress).Within s := by
  rw [callGoesOn]
  split
  · exact .of_eq rfl rfl rfl
  · cases progress with
    | sent => exact .of_eq rfl rfl rfl
    | sendFailed =>
      simp only
      split
      · exact (within_settle ..).trans (.of_eq rfl rfl rfl)
      · exact .of_eq rfl rfl rfl
    | timedOut =>
      simp only
      split
      · exact .of_eq rfl rfl rfl
      · exact (within_settle ..).trans (.of_eq rfl rfl rfl)
    | returned =>
      simp only
      split <;> exact .of_eq rfl rfl rfl

theorem within_attachEnds (s : Client φ ι η) (i : Nat) (outcome : AttachOutcome) :
    (s.attachEnds i outcome).Within s := by
  rw [attachEnds]
  split
  · exact .of_eq rfl rfl rfl
  · rename_i attach _
    cases outcome with
    | failed =>
      exact (within_settle ..).trans (.of_eq rfl rfl rfl)
    | session =>
      exact (within_settle ..).trans (.of_eq rfl rfl rfl)
    | raised => exact .of_eq rfl rfl rfl

theorem within_attachDone (s : Client φ ι η) (i : Nat) : (s.attachDone i).Within s := by
  rw [attachDone]
  split <;> exact .of_eq rfl rfl rfl

theorem CameOver.mono {peer relay : φ} {id : ι} (h : CameOver party run peer relay id)
    (hrun : run ⊆ run') : CameOver party run' peer relay id := by
  rcases h with ⟨met, hmet, hsaid⟩
  exact ⟨met, hrun hmet, hsaid⟩

section

variable (h : s.Grounded party run)

include h

theorem Grounded.mono (hrun : run ⊆ run') : s.Grounded party run' where
  asked target wait hwait := by
    rcases h.asked target wait hwait with ⟨met, hmet, hsaid⟩
    exact ⟨met, hrun hmet, hsaid⟩
  judged invitation hmem := CameOver.mono (h.judged invitation hmem) hrun
  agreed peer relay deadline hentry := by
    rcases h.agreed peer relay deadline hentry with ⟨⟨id, hcame⟩, met, hmet, hsaid⟩
    exact ⟨⟨id, CameOver.mono hcame hrun⟩, met, hrun hmet, hsaid⟩

theorem Grounded.within (hs : s'.Within s) : s'.Grounded party run where
  asked target wait hwait := h.asked target wait (hs.waiting target wait hwait)
  judged invitation hmem := h.judged invitation (hs.deciding invitation hmem)
  agreed peer relay deadline hentry :=
    h.agreed peer relay deadline (hs.accepted peer (relay, deadline) hentry)

theorem Grounded.requestBridge {relay target : φ} {viaRelay : Option φ}
    {messageId : ι} {met : Met φ ι η ω} (hmem : met ∈ run)
    (hmet : met.2 = .requestBridge relay target viaRelay messageId) :
    (s.requestBridge party.config relay target viaRelay messageId).Grounded party run := by
  rw [Client.requestBridge]
  split
  · exact h.within (.of_eq rfl rfl rfl)
  · split
    · exact h
    · constructor
      · intro other wait hwait
        simp only [send_waiting, get?_set] at hwait
        split at hwait
        · rename_i hsame
          cases hwait
          subst hsame
          exact ⟨met, hmem, viaRelay, hmet⟩
        · exact h.asked other wait hwait
      · exact h.judged
      · exact h.agreed

theorem Grounded.decided (around : Surroundings φ ω) {i : Nat}
    {allowed : Bool} {messageId : ι} (hmem : (around, .decided i allowed messageId) ∈ run) :
    (s.decided party.config around i allowed messageId).Grounded party run := by
  rw [Client.decided]
  split
  · exact h
  · rename_i invitation hinvitation
    have hrest : ∀ other ∈ s.deciding.eraseIdx i, other ∈ s.deciding :=
      fun other hother => mem_of_mem_eraseIdx hother
    split
    · rename_i hallowed
      subst hallowed
      constructor
      · exact h.asked
      · intro other hother
        exact h.judged other (hrest other hother)
      · intro peer relay deadline hentry
        simp only [send, get?_set] at hentry
        split at hentry
        · rename_i hsame
          cases hentry
          subst hsame
          exact ⟨⟨_, h.judged invitation (mem_of_getElem? hinvitation)⟩,
            (around, .decided i true messageId), hmem, ⟨i, messageId, rfl⟩, rfl⟩
        · exact h.agreed peer relay deadline hentry
    · constructor
      · exact h.asked
      · intro other hother
        exact h.judged other (hrest other hother)
      · exact h.agreed

theorem Grounded.onFrame (around : Surroundings φ ω)
    {frame : Frame φ ι η} (hmem : (around, .frame sender frame) ∈ run) :
    (s.onFrame party.config around sender frame).Grounded party run := by
  rw [Client.onFrame]
  split
  · rename_i howns
    have hexpired := h.within (within_expireAccepted s around.now)
    cases frame with
    | relayRequest messageId target requester viaRelay requestId =>
      simp only [handleFrame, handleInvitation]
      split
      · exact hexpired.within (.of_eq rfl rfl rfl)
      · constructor
        · exact hexpired.asked
        · intro invitation hinvitation
          simp only [mem_append, mem_singleton] at hinvitation
          rcases hinvitation with hold | rfl
          · exact hexpired.judged invitation hold
          · have htarget : target = party.own := of_decide_eq_true howns
            subst htarget
            exact ⟨_, hmem, viaRelay, requestId, rfl⟩
        · exact hexpired.agreed
    | relayWaiting target requestId => exact hexpired
    | relayReject target reason origin requestId => exact hexpired.within (within_settle ..)
    | relayReady payload =>
      simp only [handleFrame]
      split
      · exact hexpired.within (within_spawnAttach ..)
      · exact hexpired
    | other => exact hexpired
  · exact h

theorem Grounded.step (met : Met φ ι η ω) :
    (step party.config s met).Grounded party (run ++ [met]) := by
  have hrun : s.Grounded party (run ++ [met]) := h.mono (subset_append_left run [met])
  have hmem : met ∈ run ++ [met] := by simp
  rcases met with ⟨around, event⟩
  cases event with
  | requestBridge relay target viaRelay messageId => exact hrun.requestBridge hmem rfl
  | call i progress => exact hrun.within (within_callGoesOn s i progress)
  | frame sender frame => exact hrun.onFrame around hmem
  | decided i allowed messageId => exact hrun.decided around hmem
  | attachEnds i outcome => exact hrun.within (within_attachEnds s i outcome)
  | attachDone i => exact hrun.within (within_attachDone s i)

end

theorem grounded_foldl (party : Party φ η ω) (run : List (Met φ ι η ω)) :
    (run.foldl (RelayClient.step party.config) init).Grounded party run := by
  induction run using List.reverseRecOn with
  | nil => constructor <;> simp [init]
  | append_singleton run met ih =>
    rw [foldl_append]
    exact ih.step met

theorem tasksOk_foldl (c : Config φ η ω) (run : List (Met φ ι η ω)) :
    (run.foldl (RelayClient.step c) init).TasksOk :=
  foldl_invariant run init tasksOk_init fun v _ h => h.step v.2

end Client

/-- After every run, whatever the frames, their senders and the order of events, the client holds
only what it asked for or agreed to and at most one attach for each counterpart. -/
theorem rendezvous_kept_iff (party : Party φ η ω) (run : List (Met φ ι η ω)) :
    (run.foldl (step party.config) .init).Grounded party run ∧
      ((run.foldl (step party.config) .init).running.map Attach.peer).Nodup ∧
      ((∀ v ∈ visited (step party.config) .init run, v.1.Kept party v.2) ↔
        ∀ v ∈ visited (step party.config) .init run, v.1.MeetsItsOwn party v.2) := by
  refine ⟨Client.grounded_foldl party run, (nodup_append.mp (Client.tasksOk_foldl _ run).nodup).1, ?_⟩
  constructor
  · intro hkept v hv
    exact (Client.kept_iff_meetsItsOwn (Client.tasksOk_visited _ run v hv) v.2).mp (hkept v hv)
  · intro hmeets v hv
    exact (Client.kept_iff_meetsItsOwn (Client.tasksOk_visited _ run v hv) v.2).mpr (hmeets v hv)

def twoRelays : Party Nat Nat Unit := ⟨0, 30, id, fun _ relay => [(relay, 4000)]⟩

def quietly : Surroundings Nat Unit := ⟨0, fun _ => false, ()⟩

def crossedInvitation : List (Met Nat Nat Nat Unit) :=
  [(quietly, .requestBridge 2 1 none 10), (quietly, .frame 3 (.relayRequest 20 0 1 none none)),
    (quietly, .decided 0 true 21), (quietly, .frame 3 (.relayReady ⟨1, .responder, 30, 3, 4000, none⟩))]

/-- The ready is checked against the addresses of relay `2`, refused, and ends the wait for it. -/
theorem not_kept_crossedInvitation :
    ¬∀ v ∈ visited (step twoRelays.config) .init crossedInvitation, v.1.Kept twoRelays v.2 := by
  intro h
  have hready := h
    ((crossedInvitation.take 3).foldl (step twoRelays.config) .init,
      (quietly, .frame 3 (.relayReady ⟨1, .responder, 30, 3, 4000, none⟩)))
    (.tail _ (.tail _ (.tail _ (.head _))))
  have hends := hready.ends 1 ⟨2, 0, 10⟩ (by decide) (by decide)
  have hrelay : (3 : Nat) = 2 := hends.2.1.1
  cases hrelay

end RelayClient

end NetBBS
