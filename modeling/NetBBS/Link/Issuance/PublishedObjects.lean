import NetBBS.Foundation.Runs
import NetBBS.Link.Issuance.AttestationPass
import NetBBS.Link.Issuance.VouchPass

/-! # Issuing over whole runs -/

namespace NetBBS.Issuance

open Foundation List Option Dict Text

set_option linter.unusedSectionVars false

variable {ι κ σ υ τ : Type} [DecidableEq ι] [DecidableEq κ] [DecidableEq υ]

structure Node (ι κ σ υ τ : Type) where
  db : Db ι κ σ := {}
  vouches : VouchDb υ τ := {}
  signingKey : κ

inductive Event (κ : Type) where
  | createUser (user : Nat) (username : String)
  | renameUser (user : Nat) (username : String)
  | deleteUser (user : Nat)
  | verify (subject : Nat) (attr : Attribute) (value : Text) (verifier : Nat)
  | revokeVerification (subject : Nat) (attr : Attribute)
  | setLinkVisible (subject : Nat) (attr : Attribute) (visible : Bool)
  | meet (subject : TrustSubject)
  | restrict (subject : TrustSubject)
  | lift (subject : TrustSubject)
  | recordIntent (subject : TrustSubject) (explanation : Text) (ownNodeFingerprint : Option String)
  | withdrawIntent (subject : TrustSubject)
  | rotate (key : κ)
  | reconcileAttestations (now today : Int)
  | reconcileVouches (now today : Int)

/-- `COLLATE NOCASE`. -/
def nocase (username : String) : List Char := username.toList.map Char.toLower

def Db.NameTaken (db : Db ι κ σ) (user : Nat) (username : String) : Prop :=
  ∃ entry ∈ db.users.entries, entry.1 ≠ user ∧ nocase entry.2 = nocase username

instance (db : Db ι κ σ) (user : Nat) (username : String) : Decidable (db.NameTaken user username) := by
  unfold Db.NameTaken
  infer_instance

/-- `_upsert_attestation_without_commit`, for a value `attest_identity` strips. -/
def Db.verify (db : Db ι κ σ) (subject : Nat) (attr : Attribute) (value : Text) (verifier : Nat) : Db ι κ σ :=
  if db.users.contains subject = false ∨ db.users.contains verifier = false ∨ strip value = [] then db
  else { db with
    attestations := db.attestations.set (subject, attr)
      { attestedValue := strip value, verifierUserId := some verifier } }

/-- `set_attestation_link_visible`. -/
def Db.setLinkVisible (db : Db ι κ σ) (subject : Nat) (attr : Attribute) (visible : Bool) : Db ι κ σ :=
  match db.attestations.get? (subject, attr) with
  | none => db
  | some current =>
    if visible = true ∧ current.selfAttested subject = true then db
    else { db with attestations := db.attestations.set (subject, attr) { current with linkVisible := visible } }

/-- Deleting an account takes its verifications along, and its ID out of the rows that name it. -/
def Db.deleteUser (db : Db ι κ σ) (user : Nat) : Db ι κ σ :=
  { users := db.users.erase user
    attestations := (db.attestations.filter fun entry => entry.1.1 ≠ user).mapValues fun attestation =>
      if attestation.verifierUserId = some user then { attestation with verifierUserId := none } else attestation
    issued := db.issued.map fun row => if row.userId = some user then { row with userId := none } else row }

variable (platform : Platform ι κ σ) (vouching : VouchPlatform υ κ τ) (home : String)

def Node.pass (node : Node ι κ σ υ τ) (now today : Int) : Pass κ :=
  ⟨home, node.signingKey, now, today⟩

def step (node : Node ι κ σ υ τ) (event : Event κ) : Node ι κ σ υ τ :=
  match event with
  | .createUser user username =>
    if node.db.users.contains user = true ∨ node.db.NameTaken user username then node
    else { node with db := { node.db with users := node.db.users.set user username } }
  | .renameUser user username =>
    if node.db.users.contains user = false ∨ node.db.NameTaken user username then node
    else { node with db := { node.db with users := node.db.users.set user username } }
  | .deleteUser user => { node with db := node.db.deleteUser user }
  | .verify subject attr value verifier => { node with db := node.db.verify subject attr value verifier }
  | .revokeVerification subject attr =>
    { node with db := { node.db with attestations := node.db.attestations.erase (subject, attr) } }
  | .setLinkVisible subject attr visible => { node with db := node.db.setLinkVisible subject attr visible }
  | .meet subject =>
    { node with vouches := { node.vouches with subjects := subject :: node.vouches.subjects } }
  | .restrict subject =>
    { node with vouches := { node.vouches with restricted := subject :: node.vouches.restricted } }
  | .lift subject =>
    { node with vouches := { node.vouches with
      restricted := node.vouches.restricted.filter fun other => other ≠ subject } }
  | .recordIntent subject explanation ownNodeFingerprint =>
    match node.vouches.recordVouchIntent subject explanation ownNodeFingerprint with
    | .error _ => node
    | .ok vouches => { node with vouches }
  | .withdrawIntent subject => { node with vouches := node.vouches.withdrawVouchIntent subject }
  | .rotate key => { node with signingKey := key }
  | .reconcileAttestations now today =>
    match reconcileIssuedAttestations platform (node.pass home now today) node.db with
    | none => node
    | some (db, _) => { node with db }
  | .reconcileVouches now today =>
    { node with vouches := (reconcileIssuedVouches vouching (node.pass home now today) node.vouches).1 }

def run (key : κ) (events : List (Event κ)) : Node ι κ σ υ τ :=
  events.foldl (step platform vouching home) { signingKey := key }

def attestationTimes (events : List (Event κ)) : List Int :=
  events.filterMap fun event =>
    match event with
    | .reconcileAttestations now _ => some now
    | _ => none

def Advancing (events : List (Event κ)) : Prop :=
  (attestationTimes events).Pairwise (· < ·)

variable {platform : Platform ι κ σ} {vouching : VouchPlatform υ κ τ} {home : String}
    {pass : Pass κ}

variable {db : Db ι κ σ} {user : Nat} {attr : Attribute} {bound : Int}

theorem local_empty : Local ({} : Db ι κ σ) where
  names := by simp
  stripped := by simp
  subjects := by simp

theorem Local.setUser (h : Local db) {username : String} (hfree : ¬db.NameTaken user username) :
    Local { db with users := db.users.set user username } where
  names first second name hfirst hsecond := by
    have hother : ∀ other, user ≠ other → db.users.get? other ≠ some username := fun other hne hname =>
      hfree ⟨(other, username), (get?_eq_some _ _ _).mp hname, Ne.symm hne, rfl⟩
    simp only [get?_set] at hfirst hsecond
    split at hfirst <;> split at hsecond
    · rename_i hsame hsame'
      exact hsame.symm.trans hsame'
    · rename_i hne
      cases hfirst
      exact absurd hsecond (hother second hne)
    · rename_i hne _
      cases hsecond
      exact absurd hfirst (hother first hne)
    · exact h.names first second name hfirst hsecond
  stripped := h.stripped
  subjects key attestation hget := by
    obtain ⟨name, hname⟩ := h.subjects key attestation hget
    simp only [get?_set]
    split
    · exact ⟨username, rfl⟩
    · exact ⟨name, hname⟩

theorem strip_strip (text : Text) : strip (strip text) = strip text := by
  have hl : lstrip (strip text) = strip text := by
    refine lstrip_eq_self fun c hc => ?_
    obtain ⟨after, hafter⟩ : strip text <+: lstrip text := rdropWhile_prefix _ _
    have hhead : (lstrip text).head? = some c := by
      rw [← hafter, head?_append, hc]
      rfl
    have hnot := head?_dropWhile_not Text.isSpace text
    rw [show List.dropWhile Text.isSpace text = lstrip text from rfl, hhead] at hnot
    simpa using hnot
  unfold strip at hl ⊢
  rw [hl]
  exact rdropWhile_idempotent _ _

variable {attestation : UserAttestation} {events : List (Event κ)} {node : Node ι κ σ υ τ}

theorem Local.setAttestation (h : Local db) (hsubject : db.users.contains user = true)
    (hstripped : strip attestation.attestedValue = attestation.attestedValue) :
    Local { db with attestations := db.attestations.set (user, attr) attestation } where
  names := h.names
  stripped key other hget := by
    simp only [get?_set] at hget
    split at hget
    · cases hget
      exact hstripped
    · exact h.stripped key other hget
  subjects key other hget := by
    simp only [get?_set] at hget
    split at hget
    · rename_i hsame
      rw [← hsame]
      exact (contains_iff _ _).mp hsubject
    · exact h.subjects key other hget

theorem Local.verify (h : Local db) (subject : Nat) (attr : Attribute) (value : Text) (verifier : Nat) :
    Local (db.verify subject attr value verifier) := by
  unfold Db.verify
  split
  · exact h
  · rename_i hcan
    simp only [not_or, Bool.not_eq_false] at hcan
    exact h.setAttestation hcan.1 (strip_strip value)

theorem Local.setLinkVisible (h : Local db) (subject : Nat) (attr : Attribute) (visible : Bool) :
    Local (db.setLinkVisible subject attr visible) := by
  unfold Db.setLinkVisible
  split
  · exact h
  · rename_i current hcurrent
    split
    · exact h
    · have hstripped := h.stripped _ _ hcurrent
      exact h.setAttestation ((contains_iff _ _).mpr (h.subjects _ _ hcurrent)) hstripped

theorem Local.erase (h : Local db) (key : Nat × Attribute) :
    Local { db with attestations := db.attestations.erase key } where
  names := h.names
  stripped other attestation hget := by
    simp only [get?_erase] at hget
    split at hget
    · cases hget
    · exact h.stripped other attestation hget
  subjects other attestation hget := by
    simp only [get?_erase] at hget
    split at hget
    · cases hget
    · exact h.subjects other attestation hget

theorem get?_deleteUser {key : Nat × Attribute}
    (hget : (db.deleteUser user).attestations.get? key = some attestation) :
    ∃ old, db.attestations.get? key = some old ∧ attestation.attestedValue = old.attestedValue ∧
      key.1 ≠ user := by
  unfold Db.deleteUser at hget
  rw [get?_mapValues, map_eq_some_iff] at hget
  obtain ⟨old, hold, rfl⟩ := hget
  obtain ⟨hold, hother⟩ := (get?_filter_eq_some _ _ _ _).mp hold
  refine ⟨old, hold, ?_, by simpa using hother⟩
  split <;> rfl

theorem Local.deleteUser (h : Local db) (user : Nat) : Local (db.deleteUser user) where
  names first second name hfirst hsecond := by
    simp only [Db.deleteUser, get?_erase] at hfirst hsecond
    split at hfirst
    · cases hfirst
    · split at hsecond
      · cases hsecond
      · exact h.names first second name hfirst hsecond
  stripped key attestation hget := by
    obtain ⟨old, hold, hsame, -⟩ := get?_deleteUser hget
    rw [hsame]
    exact h.stripped key old hold
  subjects key attestation hget := by
    obtain ⟨old, hold, -, hother⟩ := get?_deleteUser hget
    obtain ⟨name, hname⟩ := h.subjects key old hold
    refine ⟨name, ?_⟩
    simp only [Db.deleteUser, get?_erase]
    rw [if_neg (Ne.symm hother)]
    exact hname

theorem sound_deleteUser (h : Sound platform home bound db.issued) (user : Nat) :
    Sound platform home bound (db.deleteUser user).issued := by
  refine sound_map h (fun row => ?_) ?_
  · split <;> constructor <;> simp
  · intro row _ _ hmarked hstood
    refine absurd ?_ hmarked
    split <;> exact hstood

structure Reached (platform : Platform ι κ σ) (vouching : VouchPlatform υ κ τ) (home : String)
    (events : List (Event κ)) (node : Node ι κ σ υ τ) : Prop where
  tables : Local node.db
  sound : ∀ later, (∀ now ∈ attestationTimes events, now < later) →
    ∃ bound < later, Sound platform home bound node.db.issued
  stocked : Stocked vouching node.vouches.objects

theorem attestationTimes_snoc (events : List (Event κ)) (event : Event κ) :
    attestationTimes (events ++ [event]) = attestationTimes events ++ attestationTimes [event] :=
  filterMap_append

theorem Reached.quiet {node' : Node ι κ σ υ τ}
    (h : Reached platform vouching home events node) (event : Event κ) (hquiet : attestationTimes [event] = [])
    (htables : Local node'.db)
    (hsound : ∀ bound, Sound platform home bound node.db.issued → Sound platform home bound node'.db.issued)
    (hstocked : Stocked vouching node'.vouches.objects) :
    Reached platform vouching home (events ++ [event]) node' := by
  refine ⟨htables, fun later hlater => ?_, hstocked⟩
  rw [attestationTimes_snoc, hquiet, append_nil] at hlater
  obtain ⟨bound, hbound, hold⟩ := h.sound later hlater
  exact ⟨bound, hbound, hsound bound hold⟩

theorem recordVouchIntent_objects {db db' : VouchDb υ τ} {subject : TrustSubject} {explanation : Text}
    {own : Option String} (h : db.recordVouchIntent subject explanation own = .ok db') : db'.objects = db.objects := by
  unfold VouchDb.recordVouchIntent at h
  dsimp only at h
  split at h
  · cases h
  · split at h
    · cases h
    · split at h
      · cases h
      · split at h
        · cases h
        · split at h
          · cases h
          · rw [← Except.ok.inj h]

theorem reached_step (hhash : platform.Collisionless) (hlawful : vouching.Lawful)
    (h : Reached platform vouching home events node) (event : Event κ)
    (hadvancing : Advancing (events ++ [event])) :
    Reached platform vouching home (events ++ [event]) (step platform vouching home node event) := by
  cases event with
  | createUser user username =>
    unfold step
    dsimp only
    split
    · exact h.quiet _ rfl h.tables (fun _ hold => hold) h.stocked
    · rename_i hcan
      rw [not_or] at hcan
      exact h.quiet _ rfl (h.tables.setUser hcan.2) (fun _ hold => hold) h.stocked
  | renameUser user username =>
    unfold step
    dsimp only
    split
    · exact h.quiet _ rfl h.tables (fun _ hold => hold) h.stocked
    · rename_i hcan
      rw [not_or] at hcan
      exact h.quiet _ rfl (h.tables.setUser hcan.2) (fun _ hold => hold) h.stocked
  | deleteUser user =>
    exact h.quiet _ rfl (h.tables.deleteUser user) (fun _ hold => sound_deleteUser hold user) h.stocked
  | verify subject attr value verifier =>
    refine h.quiet _ rfl (h.tables.verify subject attr value verifier) (fun _ hold => ?_) h.stocked
    have hsame : (node.db.verify subject attr value verifier).issued = node.db.issued := by
      unfold Db.verify
      split <;> rfl
    unfold step
    dsimp only
    rw [hsame]
    exact hold
  | revokeVerification subject attr =>
    exact h.quiet _ rfl (h.tables.erase (subject, attr)) (fun _ hold => hold) h.stocked
  | setLinkVisible subject attr visible =>
    refine h.quiet _ rfl (h.tables.setLinkVisible subject attr visible) (fun _ hold => ?_) h.stocked
    have hsame : (node.db.setLinkVisible subject attr visible).issued = node.db.issued := by
      unfold Db.setLinkVisible
      split
      · rfl
      · split <;> rfl
    unfold step
    dsimp only
    rw [hsame]
    exact hold
  | meet subject => exact h.quiet _ rfl h.tables (fun _ hold => hold) h.stocked
  | restrict subject => exact h.quiet _ rfl h.tables (fun _ hold => hold) h.stocked
  | lift subject => exact h.quiet _ rfl h.tables (fun _ hold => hold) h.stocked
  | recordIntent subject explanation own =>
    unfold step
    dsimp only
    split
    · exact h.quiet _ rfl h.tables (fun _ hold => hold) h.stocked
    · rename_i vouches hrecorded
      refine h.quiet _ rfl h.tables (fun _ hold => hold) ?_
      dsimp only
      rw [recordVouchIntent_objects hrecorded]
      exact h.stocked
  | withdrawIntent subject => exact h.quiet _ rfl h.tables (fun _ hold => hold) h.stocked
  | rotate key => exact h.quiet _ rfl h.tables (fun _ hold => hold) h.stocked
  | reconcileAttestations now today =>
    have hpast : ∀ past ∈ attestationTimes events, past < now := by
      unfold Advancing at hadvancing
      rw [attestationTimes_snoc, pairwise_append] at hadvancing
      exact fun past hin => hadvancing.2.2 past hin now (.head _)
    obtain ⟨bound, hbound, hsound⟩ := h.sound now hpast
    obtain ⟨issued, changes, hpassed, hsettled, -⟩ := reconciles (node.pass home now today) hhash h.tables
      hsound hbound
    unfold step
    dsimp only
    rw [hpassed]
    refine ⟨⟨h.tables.names, h.tables.stripped, h.tables.subjects⟩, fun later hlater => ?_, h.stocked⟩
    refine ⟨now, hlater now ?_, hsettled.sound⟩
    rw [attestationTimes_snoc]
    exact mem_append_right _ (.head _)
  | reconcileVouches now today =>
    exact h.quiet _ rfl h.tables (fun _ hold => hold)
      (vouches_settled (node.pass home now today) hlawful h.stocked).issuing.stocked

theorem reached_run (platform : Platform ι κ σ) (home : String) (hhash : platform.Collisionless) (hlawful : vouching.Lawful) (key : κ) (events : List (Event κ))
    (hadvancing : Advancing events) :
    Reached platform vouching home events (run platform vouching home key events) := by
  induction events using List.reverseRecOn with
  | nil =>
    refine ⟨local_empty, fun later _ => ⟨later - 1, by omega, sound_nil⟩, stocked_empty⟩
  | append_singleton events event ih =>
    have hbefore : Advancing events := by
      unfold Advancing at hadvancing ⊢
      rw [attestationTimes_snoc] at hadvancing
      exact (pairwise_append.mp hadvancing).1
    have hstep := reached_step hhash hlawful (ih hbefore) event hadvancing
    unfold run at hstep ⊢
    rw [foldl_append]
    exact hstep

theorem stocked_run (platform : Platform ι κ σ) (home : String) (hlawful : vouching.Lawful) (key : κ) (events : List (Event κ)) :
    Stocked vouching (run platform vouching home key events).vouches.objects := by
  unfold run
  refine foldl_invariant (P := fun node : Node ι κ σ υ τ => Stocked vouching node.vouches.objects) events _
    stocked_empty ?_
  rintro ⟨node, event⟩ - h
  cases event <;> unfold step <;> dsimp only at h ⊢ <;> try exact h
  · split <;> exact h
  · split <;> exact h
  · split
    · exact h
    · rename_i vouches hrecorded
      dsimp only
      rw [recordVouchIntent_objects hrecorded]
      exact h
  · split <;> exact h
  · rename_i now today
    exact (vouches_settled (node.pass home now today) hlawful h).issuing.stocked

def Issued.SignedBy (platform : Platform ι κ σ) (key : κ) (envelope : Envelope ι) (row : Issued ι κ σ) : Prop :=
  row.envelope = some envelope ∧ row.signature = some (platform.sign key envelope) ∧
    row.signingKeyFingerprint = key

structure Published (platform : Platform ι κ σ) (pass : Pass κ) (db : Db ι κ σ) : Prop where
  consented : ∀ row ∈ db.issued, row.Live pass.now → ∃ user attr value username issuedAt expiresAt,
    db.consented.get? (user, attr) = some value ∧ db.users.get? user = some username ∧
    row.attestedValue = some value ∧
    row.envelope = some (.attestation pass.homeNodeFingerprint username attr value issuedAt expiresAt)
  exported : ∀ user attr value, db.consented.get? (user, attr) = some value →
    Exportable platform pass db user attr → ∃ row ∈ db.issued, row.Live pass.now ∧
      ∃ username issuedAt expiresAt, db.users.get? user = some username ∧
        row.SignedBy platform pass.signingKey
          (.attestation pass.homeNodeFingerprint username attr value issuedAt expiresAt) ∧
        row.expiresAt = some expiresAt ∧ pass.now + issuedAttestationRenewWithin < expiresAt
  revoked : ∀ row ∈ db.issued, row.objectType = .attestation → row.revokedAt ≠ none →
    (∃ expiresAt ∈ row.expiresAt, pass.now < expiresAt) → ∃ other ∈ db.issued, ∃ issuedAt,
      other.SignedBy platform pass.signingKey (.revocation pass.homeNodeFingerprint row.contentId issuedAt)
  blank : ∀ row ∈ db.issued, row.Retired pass.now →
    row.attestedValue = none ∧ row.envelope = none ∧ row.signature = none

theorem Settled.live {db : Db ι κ σ} (h : Settled platform pass db) {row : Issued ι κ σ} (hrow : row ∈ db.issued)
    (hlive : row.Live pass.now) : ∃ user attr value username issuedAt expiresAt,
      db.consented.get? (user, attr) = some value ∧ db.users.get? user = some username ∧
      row.userId = some user ∧ row.attr = some attr ∧ row.expiresAt = some expiresAt ∧
      row.attestedValue = some value ∧ row.SignedBy platform row.signingKeyFingerprint
        (.attestation pass.homeNodeFingerprint username attr value issuedAt expiresAt) := by
  obtain ⟨user, attr, value, huser, hattr, hconsent, hvalue, hname⟩ :=
    staleReason_eq_none.mp (h.agreed row hrow hlive)
  obtain ⟨username, verified, said, hasserts⟩ := h.sound.asserts row hrow hlive.1
  obtain ⟨hsaid, henvelope, hsignature⟩ := hasserts.kept (h.sound.not_redacted hrow hlive)
  rw [hasserts.attr] at hattr
  rw [hsaid] at hvalue
  cases hattr
  cases hvalue
  refine ⟨user, attr, value, username, _, _, hconsent, hname username ?_, huser, hasserts.attr,
    hasserts.expiresAt, hsaid, henvelope, hsignature, rfl⟩
  rw [henvelope]
  rfl

theorem Settled.published {db : Db ι κ σ} (h : Settled platform pass db) : Published platform pass db where
  consented row hrow hlive := by
    obtain ⟨user, attr, value, username, issuedAt, expiresAt, hconsent, hname, -, -, -, hvalue, hsigned⟩ :=
      h.live hrow hlive
    exact ⟨user, attr, value, username, issuedAt, expiresAt, hconsent, hname, hvalue, hsigned.1⟩
  exported user attr value hconsent hexport := by
    obtain ⟨row, hactive, -, hkey, expiresAt, hexpires, hlasts⟩ :=
      neededAction_eq_none (h.served user attr value hconsent hexport)
    obtain ⟨hrow, hstands, -⟩ := issuedActiveRow_spec hactive
    obtain ⟨owner, which, said, username, issuedAt, until', hsaid, hname, howner, hwhich, huntil, -, hsigned⟩ :=
      h.live hrow hstands.1
    rw [hstands.2.1] at howner
    rw [hstands.2.2] at hwhich
    cases howner
    cases hwhich
    rw [hconsent] at hsaid
    cases hsaid
    rw [mem_def.mp hexpires] at huntil
    cases huntil
    rw [hkey] at hsigned
    exact ⟨row, hrow, hstands.1, username, issuedAt, expiresAt, hname, hsigned, hexpires, hlasts⟩
  revoked row hrow htype hrevoked hlasts := by
    obtain ⟨other, hother, hnames, hkey⟩ := h.covered row hrow ⟨htype, hrevoked, hlasts⟩
    obtain ⟨target, hwithdraws⟩ := h.sound.withdraws other hother hnames.1
    have htarget := hnames.2
    rw [hwithdraws.envelope] at htarget
    have hsame : target = row.contentId := Option.some.inj htarget
    subst hsame
    refine ⟨other, hother, other.issuedAt, hwithdraws.envelope, ?_, hkey⟩
    rw [hwithdraws.signature, hkey]
  blank row hrow hretired := by
    obtain ⟨_, _, _, hasserts⟩ := h.sound.asserts row hrow hretired.1
    exact hasserts.blank (h.blank row hrow hretired)

structure VouchesPublished (vouching : VouchPlatform υ κ τ) (pass : Pass κ) (db : VouchDb υ τ) : Prop where
  intended : ∀ row ∈ db.objects.rows, row.Live pass.now → ∃ subject explanation,
    row.envelope.subject = some subject ∧ row.envelope.explanation = some explanation ∧
    db.intents.get? subject = some explanation ∧ subject ∉ db.restricted ∧
    subject.nodeFingerprint ≠ pass.homeNodeFingerprint
  vouched : ∀ subject explanation, db.intents.get? subject = some explanation → subject ∉ db.restricted →
    subject.nodeFingerprint ≠ pass.homeNodeFingerprint → ∃ row ∈ db.objects.rows, row.Live pass.now ∧
      row.envelope.subject = some subject ∧ row.envelope.explanation = some explanation ∧
      vouching.verify pass.signingKey row.envelope row.signature = true ∧
      ∃ expiresAt ∈ row.envelope.expiresAt, pass.now + issuedVouchRenewWithin < expiresAt
  revoked : ∀ row ∈ db.objects.rows, row.revokedAt ≠ none → (∃ expiresAt ∈ row.expiresAt, pass.now < expiresAt) →
    ∃ other ∈ db.objects.rows, other.envelope.revokedContentId = some row.contentId ∧
      vouching.verify pass.signingKey other.envelope other.signature = true

theorem agreed_vouch {db : VouchDb υ τ} {row : WireObject υ τ} (h : db.staleReason pass row = none) :
    ∃ subject explanation, row.subject = some subject ∧ db.intents.get? subject = some explanation ∧
      ¬db.Restricted pass subject ∧ row.envelope.explanation = some explanation := by
  obtain ⟨subject, hsubject⟩ := agreed_subject h
  unfold VouchDb.staleReason at h
  rw [hsubject] at h
  dsimp only at h
  split at h
  · cases h
  · rename_i explanation hintent
    split at h
    · cases h
    · rename_i hfree
      split at h
      · cases h
      · rename_i hsays
        exact ⟨subject, explanation, hsubject, hintent, hfree, not_not.mp hsays⟩

theorem VouchesSettled.published {db : VouchDb υ τ} (h : VouchesSettled vouching pass db) :
    VouchesPublished vouching pass db where
  intended row hrow hlive := by
    obtain ⟨subject, explanation, hsubject, hintent, hfree, hsays⟩ :=
      agreed_vouch (h.issuing.agreed row (mem_liveOwnVouches.mpr ⟨hrow, hlive⟩))
    rw [(h.issuing.stocked.spelled row hrow).subject] at hsubject
    exact ⟨subject, explanation, hsubject, hsays, hintent, fun hin => hfree (.inl hin), fun hown => hfree (.inr hown)⟩
  vouched subject explanation hintent hfree hother := by
    have hvouched := h.vouched subject explanation hintent fun hrestricted => hrestricted.elim hfree hother
    obtain ⟨row, hfound, hverified, hlasts⟩ := neededVouch_eq_none hvouched
    have hmem := mem_of_find?_eq_some hfound
    have hsubject : row.subject = some subject := by simpa using find?_some hfound
    obtain ⟨hrow, hlive⟩ := mem_liveOwnVouches.mp hmem
    obtain ⟨other, said, hsame, hsaid, -, hsays⟩ := agreed_vouch (h.issuing.agreed row hmem)
    rw [hsubject] at hsame
    cases hsame
    rw [hintent] at hsaid
    cases hsaid
    have hspelled := h.issuing.stocked.spelled row hrow
    rw [hspelled.subject] at hsubject
    rw [hspelled.expiresAt] at hlasts
    exact ⟨row, hrow, hlive, hsubject, hsays, hverified, hlasts⟩
  revoked row hrow hrevoked hlasts :=
    h.covered row.contentId (mem_revocationTargets.mpr
      ⟨h.issuing.stocked.revoked row hrow hrevoked, row, hrow, rfl, hlasts⟩)

def ReconcilesTo (platform : Platform ι κ σ) (pass : Pass κ) (db : Db ι κ σ) : Prop :=
  ∃ after changes, reconcileIssuedAttestations platform pass db = some (after, changes) ∧
    after.users = db.users ∧ after.attestations = db.attestations ∧ Published platform pass after ∧
    reconcileIssuedAttestations platform pass after =
      some (after, changes.filter fun change => change.action = .refused)

/-- What a node publishes is what was agreed to, and reconciling is idempotent: for the attestations when no pass
over them is dated before or with an earlier one, for the vouches always. -/
theorem publishes_what_was_agreed (hhash : platform.Collisionless) (hlawful : vouching.Lawful) (home : String)
    (key : κ) (events : List (Event κ)) (now today : Int) :
    (Advancing (events ++ [.reconcileAttestations now today]) →
      ReconcilesTo platform ((run platform vouching home key events).pass home now today)
        (run platform vouching home key events).db) ∧
    ∀ after changes, reconcileIssuedVouches vouching ((run platform vouching home key events).pass home now today)
        (run platform vouching home key events).vouches = (after, changes) →
      VouchesPublished vouching ((run platform vouching home key events).pass home now today) after ∧
      reconcileIssuedVouches vouching ((run platform vouching home key events).pass home now today) after =
        (after, []) := by
  constructor
  · intro hadvancing
    unfold Advancing at hadvancing
    rw [attestationTimes_snoc, pairwise_append] at hadvancing
    have hreached := reached_run platform home hhash hlawful key events hadvancing.1
    obtain ⟨bound, hbound, hsound⟩ := hreached.sound now fun past hpast =>
      hadvancing.2.2 past hpast now (.head _)
    obtain ⟨issued, changes, hpassed, hsettled, hagain⟩ :=
      reconciles ((run platform vouching home key events).pass home now today) hhash hreached.tables hsound
        hbound
    exact ⟨_, changes, hpassed, rfl, rfl, hsettled.published, hagain⟩
  · intro after changes hpassed
    have hsettled := vouches_settled ((run platform vouching home key events).pass home now today) hlawful
      (stocked_run platform home hlawful key events)
    rw [hpassed] at hsettled
    exact ⟨hsettled.published, hsettled.again hlawful⟩

/-- Content IDs that spell out what they are of. -/
inductive PlainId where
  | attestation (issuer username : String) (attr : Attribute) (value : Text) (issuedAt expiresAt : Int)
  | revocation (issuer : String) (revoked : PlainId) (issuedAt : Int)
deriving DecidableEq

inductive PlainVouchId where
  | vouch (issuer token : String) (subject : TrustSubject) (issuedAt expiresAt : Int) (explanation : Text)
  | revocation (issuer token : String) (revoked : PlainVouchId) (issuedAt : Int)
deriving DecidableEq

def plainPlatform : Platform PlainId Nat (Nat × Envelope PlainId) where
  contentId
    | .attestation issuer username attr value issuedAt expiresAt =>
      .attestation issuer username attr value issuedAt expiresAt
    | .revocation issuer revoked issuedAt => .revocation issuer revoked issuedAt
  before _ _ := false
  sign key envelope := (key, envelope)
  fromisoformat _ := none

def plainVouching : VouchPlatform PlainVouchId Nat (Nat × VouchEnvelope PlainVouchId) where
  contentId
    | .vouch issuer token subject issuedAt expiresAt explanation =>
      .vouch issuer token subject issuedAt expiresAt explanation
    | .revocation issuer token revoked issuedAt => .revocation issuer token revoked issuedAt
  sign key envelope := (key, envelope)
  verify key envelope signature := decide (signature = (key, envelope))
  tokenHex n := String.ofList (List.replicate n '0')

theorem plainPlatform_collisionless : plainPlatform.Collisionless := by
  intro first second h
  cases first <;> cases second <;> simp_all [plainPlatform]

theorem plainVouching_lawful : plainVouching.Lawful where
  collisionless first second h := by
    cases first <;> cases second <;> simp_all [plainVouching]
  distinct first second h := by
    have hlength := congrArg (fun token => token.toList.length) h
    simpa [plainVouching] using hlength
  verifies key envelope := by simp [plainVouching]

def shared : List (Event Nat) :=
  [.createUser 1 "alice", .createUser 2 "sysop", .verify 1 .name "Alice Liddell".toList 2,
    .setLinkVisible 1 .name true, .reconcileAttestations 0 0]

/-- The clock runs ahead by a hundred days, and is set right again a day later. -/
theorem clock_set_back_stops_reconcile :
    ¬∀ (events : List (Event Nat)) (now today : Int), ReconcilesTo plainPlatform
      ((run plainPlatform plainVouching "home" 0 events).pass "home" now today)
      (run plainPlatform plainVouching "home" 0 events).db := by
  intro h
  obtain ⟨_, _, hpassed, -⟩ := h (shared ++ [.reconcileAttestations (100 * day) 100]) day 1
  have hraises : reconcileIssuedAttestations plainPlatform
      ((run plainPlatform plainVouching "home" 0 (shared ++ [.reconcileAttestations (100 * day) 100])).pass "home" day
        1)
      (run plainPlatform plainVouching "home" 0 (shared ++ [.reconcileAttestations (100 * day) 100])).db = none :=
    isNone_iff_eq_none.mp (by decide +kernel)
  rw [hraises] at hpassed
  cases hpassed

/-- A hundred days later the name is published anew. -/
theorem shared_publishes :
    ReconcilesTo plainPlatform ((run plainPlatform plainVouching "home" 0 shared).pass "home" (100 * day) 100)
      (run plainPlatform plainVouching "home" 0 shared).db :=
  (publishes_what_was_agreed plainPlatform_collisionless plainVouching_lawful "home" 0 shared (100 * day) 100).1
    (by unfold Advancing; decide +kernel)

end NetBBS.Issuance
