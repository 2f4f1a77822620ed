import NetBBS.Link.Issuance.Vouches

/-! # One pass over the issued vouches -/

namespace NetBBS.Issuance

open Foundation List

set_option linter.unusedSectionVars false

variable {ι κ σ : Type} [DecidableEq ι] {platform : VouchPlatform ι κ σ} {pass : Pass κ} {db : VouchDb ι σ}
  {objects : WireObjects ι σ} {row : WireObject ι σ}

structure VouchPlatform.Lawful (platform : VouchPlatform ι κ σ) : Prop where
  collisionless : Function.Injective platform.contentId
  distinct : Function.Injective platform.tokenHex
  verifies : ∀ key envelope, platform.verify key envelope (platform.sign key envelope) = true

structure Spelled (platform : VouchPlatform ι κ σ) (row : WireObject ι σ) : Prop where
  contentId : row.contentId = platform.contentId row.envelope
  subject : row.subject = row.envelope.subject
  expiresAt : row.expiresAt = row.envelope.expiresAt

structure Stocked (platform : VouchPlatform ι κ σ) (objects : WireObjects ι σ) : Prop where
  nodup : (objects.rows.map WireObject.contentId).Nodup
  spelled : ∀ row ∈ objects.rows, Spelled platform row
  drawn : ∀ row ∈ objects.rows, ∃ n < objects.drawn, row.envelope.token = platform.tokenHex n
  revoked : ∀ row ∈ objects.rows, row.revokedAt ≠ none →
    ∃ other ∈ objects.rows, other.envelope.revokedContentId = some row.contentId

theorem stocked_empty : Stocked platform {} where
  nodup := nodup_nil
  spelled := by simp
  drawn := by simp
  revoked := by simp

section Sign

variable {envelope : String → VouchEnvelope ι}

def nextRow (platform : VouchPlatform ι κ σ) (pass : Pass κ) (objects : WireObjects ι σ)
    (envelope : String → VouchEnvelope ι) : WireObject ι σ :=
  signedRow platform pass (envelope (platform.tokenHex objects.drawn))

variable (h : Stocked platform objects) (hlawful : platform.Lawful) (htoken : ∀ token, (envelope token).token = token)

include h hlawful htoken

theorem next_fresh : ∀ row ∈ objects.rows, row.contentId ≠ objects.nextId platform envelope := by
  intro row hrow hid
  obtain ⟨n, hn, hdrawn⟩ := h.drawn row hrow
  have hsame := hlawful.collisionless ((h.spelled row hrow).contentId.symm.trans hid)
  rw [hsame, htoken] at hdrawn
  have hlast := hlawful.distinct hdrawn
  omega

theorem rows_sign : (objects.sign platform pass envelope).rows =
    objects.rows ++ [nextRow platform pass objects envelope] :=
  insertOrIgnore_of_fresh (next_fresh h hlawful htoken)

theorem stocked_sign : Stocked platform (objects.sign platform pass envelope) where
  nodup := nodup_insertOrIgnore _ h.nodup
  spelled row hrow := by
    rw [rows_sign h hlawful htoken] at hrow
    rcases mem_append.mp hrow with hrow | hrow
    · exact h.spelled row hrow
    · rw [mem_singleton.mp hrow]
      exact ⟨rfl, rfl, rfl⟩
  drawn row hrow := by
    rw [rows_sign h hlawful htoken] at hrow
    rcases mem_append.mp hrow with hrow | hrow
    · obtain ⟨n, hn, hdrawn⟩ := h.drawn row hrow
      exact ⟨n, Nat.lt_succ_of_lt hn, hdrawn⟩
    · rw [mem_singleton.mp hrow]
      exact ⟨objects.drawn, Nat.lt_succ_self _, htoken _⟩
  revoked row hrow hrevoked := by
    rw [rows_sign h hlawful htoken] at hrow ⊢
    rcases mem_append.mp hrow with hrow | hrow
    · obtain ⟨other, hother, hnames⟩ := h.revoked row hrow hrevoked
      exact ⟨other, mem_append_left _ hother, hnames⟩
    · rw [mem_singleton.mp hrow] at hrevoked
      exact absurd rfl hrevoked

end Sign

theorem markRevoked_cases (revocation target : ι) (now : Int) (row : WireObject ι σ) :
    (row.markRevoked revocation target now = row ∧ ¬(row.contentId = target ∧ row.revokedAt = none)) ∨
      (row.contentId = target ∧ row.markRevoked revocation target now =
        { row with revokedByContentId := some revocation, revokedAt := some now }) := by
  unfold WireObject.markRevoked
  split
  · rename_i h
    exact .inr ⟨h.1, rfl⟩
  · rename_i h
    exact .inl ⟨rfl, h⟩

theorem stocked_revoke (h : Stocked platform objects) (hlawful : platform.Lawful) (row : WireObject ι σ) :
    Stocked platform (objects.revoke platform pass row) := by
  have hstored : Stocked platform (objects.sign platform pass (revocationOf pass row.contentId)) :=
    stocked_sign h hlawful fun _ => rfl
  have hfield : ∀ other : WireObject ι σ, ∀ revocation target : ι,
      (other.markRevoked revocation target pass.now).contentId = other.contentId ∧
      (other.markRevoked revocation target pass.now).envelope = other.envelope ∧
      (other.markRevoked revocation target pass.now).subject = other.subject ∧
      (other.markRevoked revocation target pass.now).expiresAt = other.expiresAt := by
    intro other revocation target
    rcases markRevoked_cases revocation target pass.now other with ⟨hsame, -⟩ | ⟨-, hmarked⟩
    · rw [hsame]
      exact ⟨rfl, rfl, rfl, rfl⟩
    · rw [hmarked]
      exact ⟨rfl, rfl, rfl, rfl⟩
  refine ⟨?_, ?_, ?_, ?_⟩
  · unfold WireObjects.revoke
    dsimp only
    have hids : WireObject.contentId ∘ WireObject.markRevoked
        (objects.nextId platform (revocationOf pass row.contentId)) row.contentId pass.now =
        (WireObject.contentId : WireObject ι σ → ι) := funext fun other => (hfield other _ _).1
    rw [map_map, hids]
    exact hstored.nodup
  · intro other hother
    obtain ⟨old, hold, rfl⟩ := mem_map.mp hother
    obtain ⟨hid, henvelope, hsubject, hexpires⟩ := hfield old
      (objects.nextId platform (revocationOf pass row.contentId)) row.contentId
    have hspelled := hstored.spelled old hold
    exact ⟨by rw [hid, henvelope, hspelled.contentId], by rw [hsubject, henvelope, hspelled.subject],
      by rw [hexpires, henvelope, hspelled.expiresAt]⟩
  · intro other hother
    obtain ⟨old, hold, rfl⟩ := mem_map.mp hother
    rw [(hfield old _ _).2.1]
    exact hstored.drawn old hold
  · intro other hother hrevoked
    obtain ⟨old, hold, rfl⟩ := mem_map.mp hother
    have hfound : ∃ revocation ∈ (objects.sign platform pass (revocationOf pass row.contentId)).rows,
        revocation.envelope.revokedContentId = some old.contentId := by
      rcases markRevoked_cases (objects.nextId platform (revocationOf pass row.contentId)) row.contentId pass.now old
        with ⟨hsame, -⟩ | ⟨htarget, -⟩
      · rw [hsame] at hrevoked
        exact hstored.revoked old hold hrevoked
      · refine ⟨nextRow platform pass objects (revocationOf pass row.contentId), ?_, ?_⟩
        · rw [rows_sign h hlawful fun _ => rfl]
          exact mem_append_right _ (.head _)
        · rw [htarget]
          rfl
    obtain ⟨revocation, hmem, hnames⟩ := hfound
    refine ⟨_, mem_map_of_mem hmem, ?_⟩
    rw [(hfield revocation _ _).2.1, (hfield old _ _).1]
    exact hnames

variable {kept rows remaining : List (WireObject ι σ)}
variable {now : Int} {sweep : Sweep ι σ} {target : ι}

theorem mem_liveOwnVouches : row ∈ liveOwnVouches now rows ↔ row ∈ rows ∧ row.Live now := by
  unfold liveOwnVouches
  rw [mem_reverse, mem_filter, decide_eq_true_eq]

theorem liveOwnVouches_append (rows : List (WireObject ι σ)) (row : WireObject ι σ) :
    liveOwnVouches now (rows ++ [row]) =
      if row.Live now then row :: liveOwnVouches now rows else liveOwnVouches now rows := by
  unfold liveOwnVouches
  rw [filter_append, reverse_append]
  by_cases hlive : row.Live now <;> simp [hlive]

theorem liveOwnVouches_mark (revocation target : ι) (now : Int) (rows : List (WireObject ι σ)) :
    liveOwnVouches now (rows.map (WireObject.markRevoked revocation target now)) =
      (liveOwnVouches now rows).filter fun row => decide (row.contentId ≠ target) := by
  have hfilter : (rows.map (WireObject.markRevoked revocation target now)).filter
      (fun row => decide (row.Live now)) =
      (rows.filter fun row => decide (row.Live now)).filter fun row => decide (row.contentId ≠ target) := by
    induction rows with
    | nil => rfl
    | cons row rest ih =>
      rw [map_cons]
      rcases markRevoked_cases revocation target now row with ⟨hsame, hnot⟩ | ⟨htarget, hmarked⟩
      · rw [hsame]
        by_cases hlive : row.Live now
        · have hother : row.contentId ≠ target := fun hid => hnot ⟨hid, hlive.2.1⟩
          rw [filter_cons_of_pos (by simpa using hlive), filter_cons_of_pos (by simpa using hlive),
            filter_cons_of_pos (by simpa using hother), ih]
        · rw [filter_cons_of_neg (by simpa using hlive), filter_cons_of_neg (by simpa using hlive), ih]
      · have hdead : ¬(row.markRevoked revocation target now).Live now := by
          rw [hmarked]
          exact fun hlive => nomatch hlive.2.1
        rw [filter_cons_of_neg (by simpa using hdead), ih]
        by_cases hlive : row.Live now
        · rw [filter_cons_of_pos (by simpa using hlive), filter_cons_of_neg (by simpa using htarget)]
        · rw [filter_cons_of_neg (by simpa using hlive)]
  unfold liveOwnVouches
  rw [hfilter, filter_reverse]

theorem not_live_revocation (target : ι) (objects : WireObjects ι σ) :
    ¬(nextRow platform pass objects (revocationOf pass target)).Live pass.now := by
  rintro ⟨hsubject, -⟩
  cases hsubject

theorem liveOwnVouches_sign_revocation (h : Stocked platform objects) (hlawful : platform.Lawful) (target : ι) :
    liveOwnVouches pass.now (objects.sign platform pass (revocationOf pass target)).rows =
      liveOwnVouches pass.now objects.rows := by
  rw [rows_sign h hlawful fun _ => rfl, liveOwnVouches_append, if_neg (not_live_revocation target objects)]

theorem Stocked.live_nodup (h : Stocked platform objects) (now : Int) :
    ((liveOwnVouches now objects.rows).map WireObject.contentId).Nodup := by
  unfold liveOwnVouches
  rw [map_reverse, nodup_reverse]
  exact h.nodup.sublist (filter_sublist.map _)

def newestVouch (kept : List (WireObject ι σ)) (subject : TrustSubject) : Option (WireObject ι σ) :=
  kept.find? fun row => decide (row.subject = some subject)

structure SweepingVouches (platform : VouchPlatform ι κ σ) (pass : Pass κ) (db : VouchDb ι σ)
    (kept remaining : List (WireObject ι σ)) (sweep : Sweep ι σ) : Prop where
  stocked : Stocked platform sweep.objects
  live : liveOwnVouches pass.now sweep.objects.rows = kept ++ remaining
  agreed : ∀ row ∈ kept, db.staleReason pass row = none
  current : ∀ subject, sweep.current.get? subject = newestVouch kept subject

theorem agreed_subject (h : db.staleReason pass row = none) : ∃ subject, row.subject = some subject := by
  unfold VouchDb.staleReason at h
  split at h
  · cases h
  · rename_i subject hsubject
    exact ⟨subject, hsubject⟩

theorem sweeping_sweepVouch (hlawful : platform.Lawful)
    (h : SweepingVouches platform pass db kept (row :: remaining) sweep) :
    ∃ kept', SweepingVouches platform pass db kept' remaining (sweepVouch platform pass db sweep row) := by
  unfold sweepVouch
  cases hreason : db.staleReason pass row with
  | none =>
    obtain ⟨subject, hsubject⟩ := agreed_subject hreason
    rw [hsubject]
    refine ⟨kept ++ [row], h.stocked, by simpa using h.live, ?_, ?_⟩
    · intro other hother
      rcases mem_append.mp hother with hother | hother
      · exact h.agreed other hother
      · rw [mem_singleton.mp hother]
        exact hreason
    · intro other
      rw [Dict.get?_setDefault, h.current]
      unfold newestVouch
      rw [find?_append]
      by_cases hsame : subject = other
      · subst hsame
        cases hfound : kept.find? fun row => decide (row.subject = some subject) with
        | none => simp [hsubject]
        | some first => simp
      · have hother : ¬row.subject = some other := by
          rw [hsubject]
          exact fun hsome => hsame (Option.some.inj hsome)
        simp [hsame, hother, h.current, newestVouch]
  | some reason =>
    refine ⟨kept, stocked_revoke h.stocked hlawful row, ?_, h.agreed, h.current⟩
    have hnodup := h.stocked.live_nodup pass.now
    unfold WireObjects.revoke
    dsimp only
    rw [liveOwnVouches_mark, liveOwnVouches_sign_revocation h.stocked hlawful, h.live]
    rw [h.live, map_append, map_cons, nodup_append, nodup_cons] at hnodup
    rw [filter_append, filter_cons_of_neg (by simp), filter_eq_self.mpr, filter_eq_self.mpr]
    · intro other hother
      have hne : other.contentId ≠ row.contentId := fun hid =>
        hnodup.2.1.1 (hid ▸ mem_map_of_mem hother)
      simpa using hne
    · intro other hother
      have hne : other.contentId ≠ row.contentId :=
        hnodup.2.2 _ (mem_map_of_mem hother) _ (.head _)
      simpa using hne

theorem vouches_swept (hlawful : platform.Lawful)
    (h : SweepingVouches platform pass db kept remaining sweep) :
    ∃ kept', SweepingVouches platform pass db kept' [] (remaining.foldl (sweepVouch platform pass db) sweep) := by
  induction remaining generalizing kept sweep with
  | nil => exact ⟨kept, h⟩
  | cons row rest ih =>
    obtain ⟨kept', hnext⟩ := sweeping_sweepVouch hlawful h
    exact ih hnext

def Vouched (platform : VouchPlatform ι κ σ) (pass : Pass κ) (objects : WireObjects ι σ) (subject : TrustSubject) :
    Prop :=
  neededVouch platform pass (newestVouch (liveOwnVouches pass.now objects.rows) subject) = none

theorem neededVouch_eq_none {active : Option (WireObject ι σ)} (h : neededVouch platform pass active = none) :
    ∃ row, active = some row ∧ platform.verify pass.signingKey row.envelope row.signature = true ∧
      ∃ expiresAt ∈ row.expiresAt, pass.now + issuedVouchRenewWithin < expiresAt := by
  cases active with
  | none => cases h
  | some row =>
    unfold neededVouch at h
    dsimp only at h
    split at h
    · cases h
    · rename_i hverified
      split at h
      · rename_i hlasts
        exact ⟨row, rfl, Bool.eq_true_of_not_eq_false hverified, hlasts⟩
      · cases h

theorem live_vouchFor (subject : TrustSubject) (explanation : Text) (objects : WireObjects ι σ) :
    (nextRow platform pass objects (vouchFor pass subject explanation)).Live pass.now := by
  refine ⟨rfl, rfl, _, rfl, ?_⟩
  unfold issuedVouchLifetime day
  omega

theorem needed_vouchFor (hlawful : platform.Lawful) (subject : TrustSubject) (explanation : Text)
    (objects : WireObjects ι σ) :
    neededVouch platform pass (some (nextRow platform pass objects (vouchFor pass subject explanation))) = none := by
  unfold neededVouch
  dsimp only
  rw [if_neg, if_pos]
  · refine ⟨_, rfl, ?_⟩
    unfold issuedVouchLifetime issuedVouchRenewWithin day
    omega
  · have hverified := hlawful.verifies pass.signingKey
      (nextRow platform pass objects (vouchFor pass subject explanation)).envelope
    exact fun hfalse => nomatch hverified.symm.trans hfalse

structure IssuingVouches (platform : VouchPlatform ι κ σ) (pass : Pass κ) (db : VouchDb ι σ)
    (objects : WireObjects ι σ) : Prop where
  stocked : Stocked platform objects
  agreed : ∀ row ∈ liveOwnVouches pass.now objects.rows, db.staleReason pass row = none

theorem issuing_vouchFor (h : IssuingVouches platform pass db objects) (hlawful : platform.Lawful)
    {subject : TrustSubject} {explanation : Text} (hintent : db.intents.get? subject = some explanation)
    (hfree : ¬db.Restricted pass subject) :
    IssuingVouches platform pass db (objects.sign platform pass (vouchFor pass subject explanation)) where
  stocked := stocked_sign h.stocked hlawful fun _ => rfl
  agreed row hrow := by
    rw [rows_sign h.stocked hlawful fun _ => rfl, liveOwnVouches_append,
      if_pos (live_vouchFor subject explanation objects)] at hrow
    rcases mem_cons.mp hrow with rfl | hrow
    · have hsubject : (nextRow platform pass objects (vouchFor pass subject explanation)).subject = some subject := rfl
      have hsays : (nextRow platform pass objects (vouchFor pass subject explanation)).envelope.explanation =
          some explanation := rfl
      unfold VouchDb.staleReason
      rw [hsubject]
      dsimp only
      rw [hintent]
      dsimp only
      rw [if_neg hfree, hsays, if_neg (not_not.mpr rfl)]
    · exact h.agreed row hrow

/-- What the loop over the intents leads to. -/
structure IssuedVouches (platform : VouchPlatform ι κ σ) (pass : Pass κ) (db : VouchDb ι σ)
    (items : List (TrustSubject × Text)) (before after : WireObjects ι σ) : Prop where
  issuing : IssuingVouches platform pass db after
  vouched : ∀ item ∈ items, ¬db.Restricted pass item.1 → Vouched platform pass after item.1
  others : ∀ subject, subject ∉ items.map Prod.fst →
    newestVouch (liveOwnVouches pass.now after.rows) subject =
      newestVouch (liveOwnVouches pass.now before.rows) subject

theorem issueVouch_cases (platform : VouchPlatform ι κ σ) (pass : Pass κ) (db : VouchDb ι σ)
    (current : Dict TrustSubject (WireObject ι σ)) (objects : WireObjects ι σ)
    (changes : List (VouchChange ι)) (subject : TrustSubject) (explanation : Text) :
    (issueVouch platform pass db current (objects, changes) (subject, explanation) = (objects, changes) ∧
        (db.Restricted pass subject ∨ neededVouch platform pass (current.get? subject) = none)) ∨
      (¬db.Restricted pass subject ∧ ∃ changes',
        issueVouch platform pass db current (objects, changes) (subject, explanation) =
          (objects.sign platform pass (vouchFor pass subject explanation), changes')) := by
  unfold issueVouch
  dsimp only
  split
  · rename_i hrestricted
    exact .inl ⟨rfl, .inl hrestricted⟩
  · rename_i hfree
    split
    · rename_i hnone
      exact .inl ⟨rfl, .inr hnone⟩
    · exact .inr ⟨hfree, _, rfl⟩

theorem newestVouch_vouchFor (pass : Pass κ) (h : Stocked platform objects) (hlawful : platform.Lawful) (subject : TrustSubject)
    (explanation : Text) (other : TrustSubject) : newestVouch (liveOwnVouches pass.now
        (objects.sign platform pass (vouchFor pass subject explanation)).rows) other =
      if subject = other then some (nextRow platform pass objects (vouchFor pass subject explanation))
      else newestVouch (liveOwnVouches pass.now objects.rows) other := by
  rw [rows_sign h hlawful fun _ => rfl, liveOwnVouches_append, if_pos (live_vouchFor subject explanation objects)]
  by_cases hsame : subject = other
  · rw [if_pos hsame]
    exact find?_cons_of_pos (decide_eq_true (congrArg some hsame))
  · rw [if_neg hsame]
    refine find?_cons_of_neg ?_
    rw [decide_eq_true_eq]
    exact fun hsome => hsame (Option.some.inj hsome)

theorem vouches_issued (hlawful : platform.Lawful) (current : Dict TrustSubject (WireObject ι σ))
    (items : List (TrustSubject × Text)) (hitems : ∀ item ∈ items, db.intents.get? item.1 = some item.2)
    (hnodup : (items.map Prod.fst).Nodup) (h : IssuingVouches platform pass db objects)
    (hcurrent : ∀ item ∈ items, current.get? item.1 =
      newestVouch (liveOwnVouches pass.now objects.rows) item.1) (changes : List (VouchChange ι)) :
    IssuedVouches platform pass db items objects
      (items.foldl (issueVouch platform pass db current) (objects, changes)).1 := by
  induction items generalizing objects changes with
  | nil => exact ⟨h, by simp, fun _ _ => rfl⟩
  | cons item rest ih =>
    obtain ⟨subject, explanation⟩ := item
    obtain ⟨hnew, hnodup⟩ := nodup_cons.mp hnodup
    have hrestItems : ∀ item ∈ rest, db.intents.get? item.1 = some item.2 := fun item hitem =>
      hitems item (.tail _ hitem)
    have hrestCurrent := fun item hitem => hcurrent item (.tail _ hitem)
    rw [foldl_cons]
    rcases issueVouch_cases platform pass db current objects changes subject explanation with ⟨hstep, hidle⟩ | ⟨hfree, changes', hstep⟩
    · rw [hstep]
      have hrest := ih hrestItems hnodup h hrestCurrent changes
      refine ⟨hrest.issuing, ?_, fun other hother =>
        hrest.others other fun hin => hother (.tail _ hin)⟩
      intro item hitem hitemFree
      rcases mem_cons.mp hitem with rfl | hitem
      · rcases hidle with hrestricted | hnone
        · exact absurd hrestricted hitemFree
        · unfold Vouched
          rw [hrest.others subject hnew, ← hcurrent _ (.head _)]
          exact hnone
      · exact hrest.vouched item hitem hitemFree
    · rw [hstep]
      have hnext := issuing_vouchFor h hlawful (hitems _ (.head _)) hfree
      have hnewest := newestVouch_vouchFor pass h.stocked hlawful subject explanation
      have hrest := ih hrestItems hnodup hnext (fun item hitem => by
        rw [hnewest, if_neg]
        · exact hrestCurrent item hitem
        · exact fun hsame => hnew (mem_map.mpr ⟨item, hitem, hsame.symm⟩)) changes'
      refine ⟨hrest.issuing, ?_, ?_⟩
      · intro item hitem hitemFree
        rcases mem_cons.mp hitem with rfl | hitem
        · unfold Vouched
          rw [hrest.others subject hnew, hnewest, if_pos rfl]
          exact needed_vouchFor hlawful subject explanation objects
        · exact hrest.vouched item hitem hitemFree
      · intro other hnot
        rw [map_cons, mem_cons, not_or] at hnot
        rw [hrest.others other hnot.2, hnewest, if_neg (Ne.symm hnot.1)]

theorem mem_revocationTargets : target ∈ revocationTargets now rows ↔
      (∃ row ∈ rows, row.envelope.revokedContentId = some target) ∧
      ∃ named ∈ rows, named.contentId = target ∧ ∃ expiresAt ∈ named.expiresAt, now < expiresAt := by
  unfold revocationTargets
  rw [mem_eraseDups, mem_filterMap]
  simp only [Option.filter_eq_some_iff, decide_eq_true_eq]
  constructor
  · rintro ⟨row, hrow, hnames, hnamed⟩
    exact ⟨⟨row, hrow, hnames⟩, hnamed⟩
  · rintro ⟨⟨row, hrow, hnames⟩, hnamed⟩
    exact ⟨row, hrow, hnames, hnamed⟩

def CoveredBy (platform : VouchPlatform ι κ σ) (pass : Pass κ) (objects : WireObjects ι σ) (target : ι) : Prop :=
  ∃ row ∈ objects.rows, row.envelope.revokedContentId = some target ∧
    platform.verify pass.signingKey row.envelope row.signature = true

theorem mem_orphanedVouches : target ∈ orphanedVouches platform pass objects.rows ↔
    target ∈ revocationTargets pass.now objects.rows ∧ ¬CoveredBy platform pass objects target := by
  unfold orphanedVouches CoveredBy
  rw [mem_filter, decide_eq_true_eq]

structure ResignedVouches (platform : VouchPlatform ι κ σ) (pass : Pass κ) (targets : List ι)
    (before after : WireObjects ι σ) : Prop where
  stocked : Stocked platform after
  live : liveOwnVouches pass.now after.rows = liveOwnVouches pass.now before.rows
  kept : ∀ row ∈ before.rows, row ∈ after.rows
  added : ∀ row ∈ after.rows, row ∈ before.rows ∨
    ∃ target ∈ targets, row.envelope.revokedContentId = some target ∧ row.expiresAt = none
  covered : ∀ target ∈ targets, CoveredBy platform pass after target

theorem vouches_resigned (pass : Pass κ) (hlawful : platform.Lawful) (targets : List ι) (h : Stocked platform objects)
    (changes : List (VouchChange ι)) :
    ResignedVouches platform pass targets objects
      (targets.foldl (resignVouch platform pass) (objects, changes)).1 := by
  induction targets generalizing objects changes with
  | nil => exact ⟨h, rfl, fun _ hrow => hrow, fun _ hrow => .inl hrow, by simp⟩
  | cons target rest ih =>
    have hrows : (objects.sign platform pass (revocationOf pass target)).rows =
        objects.rows ++ [nextRow platform pass objects (revocationOf pass target)] :=
      rows_sign h hlawful fun _ => rfl
    have hnext : Stocked platform (objects.sign platform pass (revocationOf pass target)) :=
      stocked_sign h hlawful fun _ => rfl
    have hrest := ih hnext
      (changes ++ [⟨.revoked, objects.nextId platform (revocationOf pass target), none, "signing_key_rotated"⟩])
    have hnew : nextRow platform pass objects (revocationOf pass target) ∈
        (objects.sign platform pass (revocationOf pass target)).rows := by
      rw [hrows]
      exact mem_append_right _ (.head _)
    refine ⟨hrest.stocked, hrest.live.trans (liveOwnVouches_sign_revocation h hlawful target), ?_, ?_, ?_⟩
    · intro row hrow
      refine hrest.kept row ?_
      rw [hrows]
      exact mem_append_left _ hrow
    · intro row hrow
      rcases hrest.added row hrow with hrow | ⟨other, hother, hnames, hlasting⟩
      · rw [hrows] at hrow
        rcases mem_append.mp hrow with hrow | hrow
        · exact .inl hrow
        · rw [mem_singleton.mp hrow]
          exact .inr ⟨target, .head _, rfl, rfl⟩
      · exact .inr ⟨other, .tail _ hother, hnames, hlasting⟩
    · intro other hother
      rcases mem_cons.mp hother with rfl | hother
      · exact ⟨_, hrest.kept _ hnew, rfl, hlawful.verifies _ _⟩
      · exact hrest.covered other hother

structure VouchesSettled (platform : VouchPlatform ι κ σ) (pass : Pass κ) (db : VouchDb ι σ) : Prop where
  issuing : IssuingVouches platform pass db db.objects
  vouched : ∀ subject explanation, db.intents.get? subject = some explanation → ¬db.Restricted pass subject →
    Vouched platform pass db.objects subject
  covered : ∀ target ∈ revocationTargets pass.now db.objects.rows, CoveredBy platform pass db.objects target

theorem vouches_start (pass : Pass κ) (h : Stocked platform db.objects) :
    SweepingVouches platform pass db [] (liveOwnVouches pass.now db.objects.rows) { objects := db.objects } where
  stocked := h
  live := rfl
  agreed := by simp
  current := by simp [newestVouch]

theorem intents_keys (db : VouchDb ι σ) : (db.intents.entries.map Prod.fst).Nodup := db.intents.nodup

theorem mem_intents {item : TrustSubject × Text} : item ∈ db.intents.entries ↔ db.intents.get? item.1 = some item.2 :=
  (Dict.get?_eq_some _ _ _).symm

theorem vouches_settled (pass : Pass κ) (hlawful : platform.Lawful) (h : Stocked platform db.objects) :
    VouchesSettled platform pass (reconcileIssuedVouches platform pass db).1 := by
  unfold reconcileIssuedVouches
  dsimp only
  obtain ⟨kept, hswept⟩ := vouches_swept hlawful (vouches_start pass h)
  generalize (liveOwnVouches pass.now db.objects.rows).foldl (sweepVouch platform pass db) { objects := db.objects } =
    sweep at hswept ⊢
  have hkept : liveOwnVouches pass.now sweep.objects.rows = kept := by simpa using hswept.live
  have hissuing : IssuingVouches platform pass db sweep.objects := ⟨hswept.stocked, hkept ▸ hswept.agreed⟩
  have hissued := vouches_issued hlawful sweep.current db.intents.entries (fun _ hitem => mem_intents.mp hitem)
    (intents_keys db) hissuing (fun item _ => by rw [hkept, hswept.current]) sweep.changes
  generalize db.intents.entries.foldl (issueVouch platform pass db sweep.current) (sweep.objects, sweep.changes) =
    signed at hissued ⊢
  obtain ⟨objects, changes⟩ := signed
  have hresigned := vouches_resigned pass hlawful (orphanedVouches platform pass objects.rows)
    hissued.issuing.stocked changes
  generalize ((orphanedVouches platform pass objects.rows).foldl (resignVouch platform pass) (objects, changes)) =
    again at hresigned ⊢
  refine ⟨⟨hresigned.stocked, ?_⟩, ?_, ?_⟩
  · intro row hrow
    rw [hresigned.live] at hrow
    exact hissued.issuing.agreed row hrow
  · intro subject explanation hintent hfree
    unfold Vouched
    rw [hresigned.live]
    exact hissued.vouched (subject, explanation) (mem_intents.mpr hintent) hfree
  · intro target htarget
    obtain ⟨⟨row, hrow, hnames⟩, named, hnamed, hid, expiresAt, hexpires, hlasts⟩ :=
      mem_revocationTargets.mp htarget
    have hbefore : named ∈ objects.rows := by
      rcases hresigned.added named hnamed with hnamed | ⟨_, _, -, hnone⟩
      · exact hnamed
      · rw [hnone] at hexpires
        cases hexpires
    rcases hresigned.added row hrow with hrow | ⟨other, hother, hagain, -⟩
    · by_cases hcovered : CoveredBy platform pass objects target
      · obtain ⟨other, hmem, hother⟩ := hcovered
        exact ⟨other, hresigned.kept other hmem, hother⟩
      · exact hresigned.covered target (mem_orphanedVouches.mpr ⟨mem_revocationTargets.mpr
          ⟨⟨row, hrow, hnames⟩, named, hbefore, hid, expiresAt, hexpires, hlasts⟩, hcovered⟩)
    · rw [hnames] at hagain
      cases hagain
      exact hresigned.covered target hother

theorem sweepVouch_agreed (platform : VouchPlatform ι κ σ) (rows : List (WireObject ι σ)) (sweep : Sweep ι σ)
    (h : ∀ row ∈ rows, db.staleReason pass row = none) :
    (rows.foldl (sweepVouch platform pass db) sweep).objects = sweep.objects ∧
      (rows.foldl (sweepVouch platform pass db) sweep).changes = sweep.changes := by
  induction rows generalizing sweep with
  | nil => exact ⟨rfl, rfl⟩
  | cons row rest ih =>
    obtain ⟨hobjects, hchanges⟩ := ih (sweepVouch platform pass db sweep row) fun other hother =>
      h other (.tail _ hother)
    have hfirst : (sweepVouch platform pass db sweep row).objects = sweep.objects ∧
        (sweepVouch platform pass db sweep row).changes = sweep.changes := by
      obtain ⟨subject, hsubject⟩ := agreed_subject (h row (.head _))
      unfold sweepVouch
      rw [h row (.head _), hsubject]
      exact ⟨rfl, rfl⟩
    exact ⟨hobjects.trans hfirst.1, hchanges.trans hfirst.2⟩

theorem issueVouch_vouched (current : Dict TrustSubject (WireObject ι σ)) (items : List (TrustSubject × Text))
    (acc : WireObjects ι σ × List (VouchChange ι))
    (h : ∀ item ∈ items, ¬db.Restricted pass item.1 → neededVouch platform pass (current.get? item.1) = none) :
    items.foldl (issueVouch platform pass db current) acc = acc := by
  induction items with
  | nil => rfl
  | cons item rest ih =>
    have hfirst : issueVouch platform pass db current acc item = acc := by
      unfold issueVouch
      split
      · rfl
      · rename_i hfree
        rw [h item (.head _) hfree]
    rw [foldl_cons, hfirst]
    exact ih fun other hother => h other (.tail _ hother)

theorem VouchesSettled.again (h : VouchesSettled platform pass db) (hlawful : platform.Lawful) :
    reconcileIssuedVouches platform pass db = (db, []) := by
  obtain ⟨kept, hswept⟩ := vouches_swept hlawful (vouches_start pass h.issuing.stocked)
  obtain ⟨hobjects, hchanges⟩ := sweepVouch_agreed platform
    (liveOwnVouches pass.now db.objects.rows) { objects := db.objects } h.issuing.agreed
  have hkept : liveOwnVouches pass.now db.objects.rows = kept := by
    rw [← append_nil kept, ← hswept.live, hobjects]
  have hissue : db.intents.entries.foldl (issueVouch platform pass db
      ((liveOwnVouches pass.now db.objects.rows).foldl (sweepVouch platform pass db) { objects := db.objects }).current)
      (db.objects, []) = (db.objects, []) := by
    refine issueVouch_vouched _ _ _ fun item hitem hfree => ?_
    rw [hswept.current, ← hkept]
    exact h.vouched item.1 item.2 (mem_intents.mp hitem) hfree
  have htargets : orphanedVouches platform pass db.objects.rows = [] := by
    rw [eq_nil_iff_forall_not_mem]
    intro target htarget
    obtain ⟨hmem, hnone⟩ := mem_orphanedVouches.mp htarget
    exact hnone (h.covered target hmem)
  unfold reconcileIssuedVouches
  dsimp only
  rw [hobjects, hchanges, hissue, htargets]
  rfl

end NetBBS.Issuance
