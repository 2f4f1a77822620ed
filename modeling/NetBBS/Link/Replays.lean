import NetBBS.Link.Requests
import NetBBS.Link.Sample

/-! # Replayed requests -/

namespace NetBBS

open Foundation

variable {env : Env} {kind : PullKind}

section Caches

variable (node : LinkNode env) (seen : Dict (String × Key) Int)

@[simp] theorem LinkNode.seenNonces_withSeenNonces :
    (node.withSeenNonces kind seen).seenNonces kind = seen := by
  cases kind <;> rfl

@[simp] theorem LinkNode.seenNonces_lastKeyResolvedFor (signer : Option String) :
    { node with lastKeyResolvedFor := signer }.seenNonces kind = node.seenNonces kind := by
  cases kind <;> rfl

@[simp] theorem LinkNode.withSeenNonces_peerDirectory :
    (node.withSeenNonces kind seen).peerDirectory = node.peerDirectory := by
  cases kind <;> rfl

@[simp] theorem LinkNode.withSeenNonces_fingerprint :
    (node.withSeenNonces kind seen).fingerprint = node.fingerprint := by
  cases kind <;> rfl

end Caches

@[simp] theorem LinkNode.recentNonces_lastKeyResolvedFor (node : LinkNode env)
    (signer : Option String) (receivedAt : Int) :
    { node with lastKeyResolvedFor := signer }.recentNonces kind receivedAt =
      node.recentNonces kind receivedAt := by
  simp [LinkNode.recentNonces]

variable {request : PullRequest} {now sender : String} {seenAt createdAt receivedAt : Int}

theorem freshPull_eq_ok {refusal : PullRefusals} :
    freshPull env kind refusal request now = .ok receivedAt ↔
      currentTime env now = .ok receivedAt ∧
      ∃ createdAt, kind.createdTime env request = .ok createdAt ∧
        ((receivedAt - createdAt).natAbs : Int) ≤ freshnessMicros := by
  simp only [freshPull, bind_eq_ok, refuseIf_eq_ok, pure_eq_ok, exists_const, not_lt]
  constructor
  · rintro ⟨_, hreceived, createdAt, hcreated, hfresh, rfl⟩
    exact ⟨hreceived, createdAt, hcreated, hfresh⟩
  · rintro ⟨hreceived, createdAt, hcreated, hfresh⟩
    exact ⟨_, hreceived, createdAt, hcreated, hfresh, rfl⟩

structure Accepted (kind : PullKind) (node : LinkNode env) (sender : String)
    (request : PullRequest) (now : String) (record : PeerRecord) (receivedAt : Int) (nonce : Key) : Prop where
  addressed :
    addressedPull (kind.refusals node.fingerprint sender request) node sender request = .ok record
  signed : signedPull env kind (kind.refusals node.fingerprint sender request) sender record
    request = .ok ()
  fresh : freshPull env kind (kind.refusals node.fingerprint sender request) request now =
    .ok receivedAt
  hashable : request.nonce.toKey = .ok nonce
  new : (node.recentNonces kind receivedAt).contains (sender, nonce) = false

variable {later : String} {laterAt : Int} {nonce : Key} {key : String × Key} {accepted : Nat}

theorem Accepted.again {node node' : LinkNode env} {record : PeerRecord}
    (h : Accepted kind node sender request now record receivedAt nonce)
    (hown : node'.fingerprint = node.fingerprint) (hpeers : node'.peerDirectory = node.peerDirectory)
    (hlater : currentTime env later = .ok laterAt) (hcreated : kind.createdTime env request = .ok createdAt)
    (hfresh : ((laterAt - createdAt).natAbs : Int) ≤ freshnessMicros)
    (hnew : (node'.recentNonces kind laterAt).contains (sender, nonce) = false) :
    Accepted kind node' sender request later record laterAt nonce where
  addressed := by simpa [addressedPull, hown, hpeers] using h.addressed
  signed := by simpa [hown] using h.signed
  fresh := freshPull_eq_ok.mpr ⟨hlater, createdAt, hcreated, hfresh⟩
  hashable := h.hashable
  new := hnew

inductive Pulled (kind : PullKind) (node : LinkNode env) (sender : String)
    (request : PullRequest) (now : String) : LinkNode env × Except PyError Unit → Prop where
  | turnedAway {node' e} : node'.seenNonces kind = node.seenNonces kind →
      Pulled kind node sender request now (node', .error e)
  | reused {node' e receivedAt} : currentTime env now = .ok receivedAt →
      node'.seenNonces kind = node.recentNonces kind receivedAt →
      Pulled kind node sender request now (node', .error e)
  | accepted {record receivedAt nonce} :
      Accepted kind node sender request now record receivedAt nonce →
      Pulled kind node sender request now
        ({ node with lastKeyResolvedFor := some sender }.withSeenNonces kind
          (ReplayWindow.remember maxSeenNonces (sender, nonce) receivedAt
            (node.recentNonces kind receivedAt)), .ok ())

theorem handlePull_pulled (kind : PullKind) (node : LinkNode env) (sender : String)
    (request : PullRequest) (now : String) :
    Pulled kind node sender request now (handlePull kind node sender request now) := by
  unfold handlePull
  simp only
  split
  · exact .turnedAway rfl
  rename_i record haddressed
  split
  · exact .turnedAway (by simp)
  rename_i hsigned
  split
  · exact .turnedAway (by simp)
  rename_i receivedAt hfresh
  have hreceived := (freshPull_eq_ok.mp hfresh).1
  unfold tryNonce
  simp only [LinkNode.recentNonces_lastKeyResolvedFor]
  split
  · exact .reused hreceived (by simp)
  rename_i nonce hnonce
  split
  · exact .reused hreceived (by simp)
  rename_i hnew
  exact .accepted ⟨haddressed, hsigned, hfresh, hnonce, by simpa using hnew⟩

theorem Accepted.handlePull {node : LinkNode env} {sender now : String} {request : PullRequest}
    {record : PeerRecord} {receivedAt : Int} {nonce : Key}
    (h : Accepted kind node sender request now record receivedAt nonce) :
    (handlePull kind node sender request now).2 = .ok () := by
  unfold NetBBS.handlePull
  simp [h.addressed, h.signed, h.fresh, tryNonce, h.hashable, h.new]

inductive Meanwhile (kind : PullKind) (start : LinkNode env) (clock : Int) :
    Nat → LinkNode env → Int → Prop where
  | start : Meanwhile kind start clock 0 start clock
  | request {accepted node time receivedAt} (sender : String) (request : PullRequest)
      (now : String) : Meanwhile kind start clock accepted node time →
      currentTime env now = .ok receivedAt → time ≤ receivedAt →
      Meanwhile kind start clock
        (accepted + if (handlePull kind node sender request now).2.isOk then 1 else 0)
        (handlePull kind node sender request now).1 receivedAt
  | elsewhere {accepted node time} (node' : LinkNode env) :
      Meanwhile kind start clock accepted node time →
      node'.seenNonces kind = node.seenNonces kind →
      Meanwhile kind start clock accepted node' time

variable {outcome : LinkNode env × Except PyError Unit}

theorem Pulled.remembered {node : LinkNode env} (h : Pulled kind node sender request now outcome)
    (hclock : currentTime env now = .ok receivedAt) (hopen : receivedAt ≤ seenAt + freshnessMicros)
    (hroom : accepted + (if outcome.2.isOk then 1 else 0) < maxSeenNonces)
    (hseen : ReplayWindow.Remembered key seenAt accepted (node.seenNonces kind)) :
    ReplayWindow.Remembered key seenAt (accepted + if outcome.2.isOk then 1 else 0)
      (outcome.1.seenNonces kind) := by
  cases h with
  | turnedAway hsame => simpa [hsame, Except.isOk, Except.toBool] using hseen
  | reused hread hsame =>
    rw [hclock, Except.ok.injEq] at hread
    subst hread
    have hpruned := hseen.prune (show receivedAt - freshnessMicros ≤ seenAt by omega)
    simpa [hsame, LinkNode.recentNonces, Except.isOk, Except.toBool] using hpruned
  | accepted hpassed =>
    have hread := (freshPull_eq_ok.mp hpassed.fresh).1
    rw [hclock, Except.ok.injEq] at hread
    subst hread
    have hpruned := hseen.prune (show receivedAt - freshnessMicros ≤ seenAt by omega)
    simp only [Except.isOk, Except.toBool, if_true] at hroom ⊢
    rw [LinkNode.seenNonces_withSeenNonces]
    exact hpruned.remember hroom hpassed.new

theorem Meanwhile.remembered {start node : LinkNode env} {clock time : Int}
    (h : Meanwhile kind start clock accepted node time)
    (hstart : ReplayWindow.Remembered key seenAt 0 (start.seenNonces kind))
    (hroom : accepted < maxSeenNonces) (hopen : time ≤ seenAt + freshnessMicros) :
    ReplayWindow.Remembered key seenAt accepted (node.seenNonces kind) := by
  induction h with
  | start => exact hstart
  | request sender request now hrun hclock hle ih =>
    have hbefore := ih (by omega) (by omega)
    exact (handlePull_pulled kind _ sender request now).remembered hclock hopen hroom hbefore
  | elsewhere node' hrun hsame ih =>
    rw [hsame]
    exact ih hroom hopen


theorem Pulled.refused {node : LinkNode env}
    {later : Nat} (h : Pulled kind node sender request now outcome)
    (hclock : currentTime env now = .ok receivedAt) (hopen : receivedAt ≤ seenAt + freshnessMicros)
    (hnonce : request.nonce.toKey = .ok nonce)
    (hseen : ReplayWindow.Remembered (sender, nonce) seenAt later (node.seenNonces kind)) :
    ∃ e, outcome.2 = .error e := by
  cases h with
  | turnedAway _ => exact ⟨_, rfl⟩
  | reused _ _ => exact ⟨_, rfl⟩
  | accepted hpassed =>
    have hread := (freshPull_eq_ok.mp hpassed.fresh).1
    have hkey := hpassed.hashable
    rw [hclock, Except.ok.injEq] at hread
    rw [hnonce, Except.ok.injEq] at hkey
    subst hread hkey
    have hstill := (hseen.prune (show receivedAt - freshnessMicros ≤ seenAt by omega)).contains
    have hnew := hpassed.new
    rw [LinkNode.recentNonces, hstill] at hnew
    simp at hnew

theorem Pulled.remembers {node : LinkNode env}
    (h : Pulled kind node sender request now outcome) (hok : outcome.2 = .ok ())
    (hclock : currentTime env now = .ok receivedAt) :
    ∃ nonce, request.nonce.toKey = .ok nonce ∧
      ReplayWindow.Remembered (sender, nonce) receivedAt 0 (outcome.1.seenNonces kind) := by
  cases h with
  | turnedAway _ => simp at hok
  | reused _ _ => simp at hok
  | accepted hpassed =>
    have hread := (freshPull_eq_ok.mp hpassed.fresh).1
    rw [hclock, Except.ok.injEq] at hread
    subst hread
    refine ⟨_, hpassed.hashable, ?_⟩
    rw [LinkNode.seenNonces_withSeenNonces]
    exact ReplayWindow.remembered_remember hpassed.new

theorem Pulled.fresh {node : LinkNode env}
    (h : Pulled kind node sender request now outcome) (hok : outcome.2 = .ok ())
    (hclock : currentTime env now = .ok receivedAt)
    (hcreated : kind.createdTime env request = .ok createdAt) :
    ((receivedAt - createdAt).natAbs : Int) ≤ freshnessMicros := by
  cases h with
  | turnedAway _ => simp at hok
  | reused _ _ => simp at hok
  | accepted hpassed =>
    obtain ⟨hread, made, hmade, hfresh⟩ := freshPull_eq_ok.mp hpassed.fresh
    rw [hclock, Except.ok.injEq] at hread
    rw [hcreated, Except.ok.injEq] at hmade
    subst hread hmade
    exact hfresh

theorem Pulled.repeated {node : LinkNode env}
    (h : Pulled kind node sender request now outcome) (hok : outcome.2 = .ok ())
    (hclock : currentTime env now = .ok receivedAt) (hcreated : kind.createdTime env request = .ok createdAt)
    (hlater : currentTime env later = .ok laterAt) (hover : receivedAt + freshnessMicros < laterAt)
    (hfresh : ((laterAt - createdAt).natAbs : Int) ≤ freshnessMicros) :
    (handlePull kind outcome.1 sender request later).2 = .ok () := by
  obtain ⟨nonce, hnonce, hseen⟩ := h.remembers hok hclock
  have hnew : (outcome.1.recentNonces kind laterAt).contains (sender, nonce) = false :=
    ReplayWindow.contains_prune_of_lt hseen.get? (by omega)
  cases h with
  | turnedAway _ => simp at hok
  | reused _ _ => simp at hok
  | accepted hpassed =>
    have hkey := hpassed.hashable
    rw [hnonce, Except.ok.injEq] at hkey
    subst hkey
    exact (hpassed.again (by simp) (by simp) hlater hcreated hfresh hnew).handlePull

/-- A request accepted once is refused at every later time at which it is still fresh, if and only
if it was not made after it was first received. -/
theorem replay_refused_iff {node : LinkNode env} {sender now later : String}
    {request : PullRequest} {receivedAt createdAt : Int}
    (haccepted : (handlePull kind node sender request now).2 = .ok ())
    (hreceived : currentTime env now = .ok receivedAt)
    (hcreated : kind.createdTime env request = .ok createdAt)
    (hlater : currentTime env later = .ok (receivedAt + freshnessMicros + 1)) :
    (∀ accepted after time again againAt,
      Meanwhile kind (handlePull kind node sender request now).1 receivedAt accepted after time →
      accepted < maxSeenNonces → currentTime env again = .ok againAt → time ≤ againAt →
      ((againAt - createdAt).natAbs : Int) ≤ freshnessMicros →
      ∃ e, (handlePull kind after sender request again).2 = .error e) ↔
    createdAt ≤ receivedAt := by
  have hfirst := handlePull_pulled kind node sender request now
  constructor
  · intro hrefused
    by_contra hahead
    have hpassed := hfirst.fresh haccepted hreceived hcreated
    have hstill : ((receivedAt + freshnessMicros + 1 - createdAt).natAbs : Int) ≤
        freshnessMicros := by
      omega
    have hagain := hfirst.repeated haccepted hreceived hcreated hlater (by omega) hstill
    obtain ⟨e, herror⟩ := hrefused 0 _ receivedAt later _ .start (by decide) hlater
      (by unfold freshnessMicros; omega) hstill
    rw [hagain] at herror
    simp at herror
  · intro hmade accepted after time again againAt hrun hroom hagain hle hfresh
    have hopen : againAt ≤ receivedAt + freshnessMicros := by omega
    obtain ⟨nonce, hnonce, hseen⟩ := hfirst.remembers haccepted hreceived
    have hstill := hrun.remembered hseen hroom (by omega)
    exact (handlePull_pulled kind after sender request again).refused hagain hopen hnonce hstill

section Sample

open Sample

def inventoryRequest : InventoryRequest where
  requesterFingerprint := .str "origin"
  responderFingerprint := .str "here"
  createdAt := .str "2026-09-01T00:04:00+00:00"
  nonce := .str "0123456789abcdef0123456789abcdef"
  signature := [1]
  boards := []

private def inventoryFirst : LinkNode Sample.env × Except PyError Unit :=
  handleInventoryRequest node "origin" inventoryRequest "2026-09-01T00:00:00+00:00"

/-- Received at midnight and again five minutes later, it is accepted both times, though it is
fresh at both. -/
theorem inventory_replayed : inventoryFirst.2.toOption = some () ∧
      (handleInventoryRequest inventoryFirst.1 "origin" inventoryRequest
        "2026-09-01T00:05:00.000001+00:00").2.toOption = some () ∧
      (currentTime Sample.env "2026-09-01T00:05:00.000001+00:00").toOption =
        some 63923817900000001 ∧
      (PullKind.inventory.createdTime Sample.env inventoryRequest.pull).toOption =
        some 63923817840000000 := by
  decide +kernel

/-- The law for a request of the origin's. -/
theorem replay_refused_inventory : (∀ accepted after time again againAt,
      Meanwhile .inventory inventoryFirst.1 63923817600000000 accepted after time →
      accepted < maxSeenNonces → currentTime Sample.env again = .ok againAt → time ≤ againAt →
      ((againAt - 63923817840000000).natAbs : Int) ≤ freshnessMicros →
      ∃ e, (handlePull .inventory after "origin" inventoryRequest.pull again).2 = .error e) ↔
    (63923817840000000 : Int) ≤ 63923817600000000 := by
  have hlater : currentTime Sample.env "2026-09-01T00:05:00.000001+00:00" =
      .ok (63923817600000000 + freshnessMicros + 1) :=
    (toOption_eq_some _ _).mp (by decide +kernel)
  exact replay_refused_iff ((toOption_eq_some _ _).mp (by decide +kernel))
    ((toOption_eq_some _ _).mp (by decide +kernel))
    ((toOption_eq_some _ _).mp (by decide +kernel)) hlater

end Sample

end NetBBS
