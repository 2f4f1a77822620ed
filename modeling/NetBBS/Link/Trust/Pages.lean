import Mathlib.Algebra.Order.BigOperators.Group.List
import Mathlib.Algebra.Order.Ring.Nat
import NetBBS.Foundation.Keyset
import NetBBS.Link.Trust.PullRuns

/-! # Pages of an issuer's trust objects -/

namespace NetBBS.Trust

open Foundation List Dict

structure StoredObject where
  contentId : String
  issuerFingerprint : String
  objectType : TrustObjectType
  revokes : Option String
  encodedSize : Nat
deriving DecidableEq

inductive PageError where
  | unknownTrustPullCursor (message : String)
  | trustWireError (message : String)

def TrustObjectType.isRevocation : TrustObjectType → Bool
  | .trustRevocation | .trustVouchRevocation => true
  | .trustSignal | .trustVouch => false

def WireRow.stored (contentId : String) (row : WireRow) : StoredObject :=
  { contentId
    issuerFingerprint := row.issuerFingerprint
    objectType := row.objectType
    revokes := row.revokes
    encodedSize := row.encodedSize }

def SignedTrustObject.stored (obj : SignedTrustObject) : StoredObject :=
  obj.wireRow.stored obj.contentId

/-- The rows in the order of their `rowid`. -/
def storedObjects (db : WireDb) : List StoredObject :=
  db.wireObjects.entries.map fun entry => entry.2.stored entry.1

variable (issuer : String) (revocationsOnly : Bool)

def isServed (row : StoredObject) : Bool :=
  decide (row.issuerFingerprint = issuer) && (!revocationsOnly || row.objectType.isRevocation)

def rowsAfter (rows : List StoredObject) : Option String → Except PageError (List StoredObject)
  | none => .ok rows
  | some after =>
    if after = "" then .ok rows
    else if rows.any fun row => decide (row.contentId = after ∧ row.issuerFingerprint = issuer) then
      .ok (itemsAfter StoredObject.contentId after rows)
    else .error (.unknownTrustPullCursor "unknown trust pull cursor")

def fillPage (more : Bool) (result : List StoredObject) (total : Nat) :
    List StoredObject → Except PageError (List StoredObject × Bool)
  | [] => .ok (result, more)
  | row :: rest =>
    let itemSize := row.encodedSize + 1
    if result ≠ [] ∧ maxTrustResponseBytes < total + itemSize then .ok (result, true)
    else if maxTrustResponseBytes < itemSize then
      .error (.trustWireError "stored trust object exceeds response byte limit")
    else fillPage more (result ++ [row]) (total + itemSize) rest

def loadTrustObjectPage (db : WireDb) (after : Option String) (limit : Nat) :
    Except PageError (List StoredObject × Bool) := do
  let limit := max 1 (min limit maxTrustObjectsPerResponse)
  let rest ← rowsAfter issuer (storedObjects db) after
  let rows := (rest.filter (isServed issuer revocationsOnly)).take (limit + 1)
  fillPage (decide (limit < rows.length)) [] 2 (rows.take limit)

def servedObjects (db : WireDb) : List StoredObject :=
  (storedObjects db).filter (isServed issuer revocationsOnly)

def pageSize (page : List StoredObject) : Nat :=
  (page.map StoredObject.encodedSize).sum + 2 + (page.length - 1)

variable {row : StoredObject} {rows result page : List StoredObject} {more more' : Bool}
    {total : Nat}

structure StoredObject.Deliverable (row : StoredObject) : Prop where
  named : row.contentId ≠ ""
  fits : row.encodedSize + 2 ≤ maxTrustResponseBytes

def countedSize (page : List StoredObject) : Nat := 2 + (page.map fun row => row.encodedSize + 1).sum

theorem countedSize_snoc : countedSize (page ++ [row]) = countedSize page + (row.encodedSize + 1) := by
  simp [countedSize]
  omega

theorem countedSize_eq (h : page ≠ []) : countedSize page = pageSize page + 1 := by
  have hsum : (page.map fun row => row.encodedSize + 1).sum =
      (page.map StoredObject.encodedSize).sum + page.length := by
    induction page with
    | nil => exact absurd rfl h
    | cons row rest ih =>
      cases rest with
      | nil => simp
      | cons next rest =>
        have hrest := ih (cons_ne_nil _ _)
        simp only [map_cons, sum_cons, length_cons] at hrest ⊢
        omega
  have hlength := length_pos_iff.mpr h
  unfold countedSize pageSize
  omega

theorem pageSize_snoc (hrow : row.Deliverable)
    (hfits : ¬(result ≠ [] ∧ maxTrustResponseBytes < countedSize result + (row.encodedSize + 1))) :
    pageSize (result ++ [row]) ≤ maxTrustResponseBytes := by
  have hcounted := @countedSize_eq (result ++ [row]) (by simp)
  rw [countedSize_snoc] at hcounted
  by_cases hempty : result = []
  · subst hempty
    have hrowFits := hrow.fits
    simp only [countedSize, map_nil, sum_nil] at hcounted
    omega
  · have hle := Nat.not_lt.mp fun hlt => hfits ⟨hempty, hlt⟩
    omega

theorem fillPage_spec (hrows : ∀ row ∈ rows, row.Deliverable)
    (hsize : pageSize result ≤ maxTrustResponseBytes) :
    ∃ page more', fillPage more result (countedSize result) rows = .ok (result ++ page, more') ∧
      page <+: rows ∧ (more' = false → page = rows ∧ more = false) ∧
      (more' = true → more = true ∧ page = rows ∨ result ++ page ≠ []) ∧
      pageSize (result ++ page) ≤ maxTrustResponseBytes := by
  induction rows generalizing result with
  | nil =>
    refine ⟨[], more, ?_, nil_prefix, fun h => ⟨rfl, h⟩, fun h => .inl ⟨h, rfl⟩, ?_⟩
    · rw [fillPage, append_nil]
    · rwa [append_nil]
  | cons row rest ih =>
    have hrow := hrows row (.head _)
    by_cases hbreak : result ≠ [] ∧ maxTrustResponseBytes < countedSize result + (row.encodedSize + 1)
    · refine ⟨[], true, ?_, nil_prefix, fun h => (Bool.noConfusion h), ?_, ?_⟩
      · rw [fillPage]
        rw [if_pos hbreak, append_nil]
      · intro _
        rw [append_nil]
        exact .inr hbreak.1
      · rwa [append_nil]
    · have hsize' := pageSize_snoc hrow hbreak
      obtain ⟨page, more', hfill, hcut, hwhole, hmoves, hpage⟩ := @ih (result ++ [row])
        (fun other hother => hrows other (.tail _ hother)) hsize'
      refine ⟨row :: page, more', ?_, ?_, ?_, ?_, ?_⟩
      · have hfits := hrow.fits
        rw [fillPage]
        rw [if_neg hbreak, if_neg (by omega), ← countedSize_snoc, hfill, append_assoc]
        rfl
      · exact cons_prefix_cons.mpr ⟨rfl, hcut⟩
      · intro hno
        obtain ⟨hsame, hmore⟩ := hwhole hno
        exact ⟨by rw [hsame], hmore⟩
      · intro _
        exact .inr (by simp)
      · rw [append_assoc] at hpage
        exact hpage

variable {host : WireHost} {home : String} {now : Instant} {keys : KnownKeys} {db : WireDb}
    {obj : SignedTrustObject} {batch : List SignedTrustObject} {result : TrustIngestResult}
    {Q : List StoredObject → Prop}

def RevokesStored (objects : List StoredObject) (new : StoredObject) : Prop :=
  ∀ target, new.revokes = some target → ∃ held ∈ objects, held.contentId = target ∧
    held.issuerFingerprint = new.issuerFingerprint

theorem storedObjects_storeWireObject : storedObjects (storeWireObject db obj) =
    if db.wireObjects.contains obj.contentId = true then storedObjects db
    else storedObjects db ++ [obj.stored] := by
  unfold storedObjects storeWireObject setDefault
  split
  · rfl
  · rename_i hnew
    show ((db.wireObjects.set obj.contentId obj.wireRow).entries).map _ = _
    rw [entries_set_of_not_contains _ _ _ (Bool.eq_false_iff.mpr hnew), map_append]
    rfl

@[simp] theorem storedObjects_revokeWireObject {target revocation : String} :
    storedObjects (revokeWireObject db target revocation now) = storedObjects db := by
  unfold storedObjects revokeWireObject
  split
  · rename_i row hrow
    exact map_entries_set hrow rfl
  · rfl

variable {contentId : String} {objects : List StoredObject}

theorem mem_storedObjects {row : WireRow}
    (h : db.wireObjects.get? contentId = some row) : row.stored contentId ∈ storedObjects db :=
  mem_map.mpr ⟨(contentId, row), (get?_eq_some _ _ _).mp h, rfl⟩

theorem storedObjects_nodup : ((storedObjects db).map StoredObject.contentId).Nodup := by
  unfold storedObjects
  rw [map_map]
  exact db.wireObjects.nodup

theorem storeWireObject_stored (h : Q (storedObjects db))
    (hnew : Q (storedObjects db ++ [obj.stored])) : Q (storedObjects (storeWireObject db obj)) := by
  rw [storedObjects_storeWireObject]
  split
  · exact h
  · exact hnew

theorem revokesStored_of_admitted (h : judgeObject host now db obj = .ok .admitted) :
    RevokesStored (storedObjects db) obj.stored := by
  intro target htarget
  cases hpayload : obj.payload with
  | signal payload =>
    simp [SignedTrustObject.stored, WireRow.stored, SignedTrustObject.wireRow, hpayload,
      TrustPayload.revokes?] at htarget
  | vouch subject expiresAt =>
    simp [SignedTrustObject.stored, WireRow.stored, SignedTrustObject.wireRow, hpayload,
      TrustPayload.revokes?] at htarget
  | revocation ofVouch revoked =>
    obtain ⟨row, hrow, hissuer, -⟩ := target_of_admitted h hpayload
    simp only [SignedTrustObject.stored, WireRow.stored, SignedTrustObject.wireRow, hpayload,
      TrustPayload.revokes?, Option.some.injEq] at htarget
    exact ⟨_, mem_storedObjects hrow, htarget, hissuer⟩

theorem carryObject_stored (h : Q (storedObjects db))
    (hnew : Q (storedObjects db ++ [obj.stored])) : Q (storedObjects (carryObject now db obj)) := by
  unfold carryObject
  cases obj.payload with
  | signal payload => exact storeWireObject_stored h hnew
  | vouch subject expiresAt => exact storeWireObject_stored h hnew
  | revocation ofVouch target =>
    apply storeWireObject_stored
    · rw [storedObjects_revokeWireObject]
      exact h
    · rw [storedObjects_revokeWireObject]
      exact hnew

theorem ingestEach_stored {c : Connection WireDb} (hstep : ∀ db, ∀ obj ∈ batch, Q (storedObjects db) →
      judgeObject host now db obj = .ok .admitted → Q (storedObjects db ++ [obj.stored]))
    (hcommitted : Q (storedObjects c.committed)) (hworking : Q (storedObjects c.working)) :
    (∀ result' c', ingestEach host now keys result batch c = .ok result' c' → Q (storedObjects c'.working)) ∧
    ∀ e c', ingestEach host now keys result batch c = .error e c' →
      Q (storedObjects c'.committed) := by
  induction batch generalizing c result with
  | nil =>
    constructor
    · intro result' c' hrun
      injection hrun with _ hafter
      rw [← hafter]
      exact hworking
    · intro e c' hrun
      cases hrun
  | cons obj rest ih =>
    have hrest : ∀ db, ∀ obj ∈ rest, Q (storedObjects db) →
        judgeObject host now db obj = .ok .admitted → Q (storedObjects db ++ [obj.stored]) :=
      fun db other hother => hstep db other (.tail _ hother)
    cases hreach : obj.reach host now c.working with
    | raises =>
      obtain ⟨e', after, hobj, hsame⟩ := @ingestObject_raises host now keys obj c result hreach
      rw [ingestEach_cons_error hobj]
      constructor
      · intro result' c' hrun
        cases hrun
      · intro e c' hrun
        injection hrun with _ hafter
        rw [← hafter, hsame]
        exact hcommitted
    | leaves =>
      obtain ⟨result', hobj⟩ := @ingestObject_leaves host now keys obj c result hreach
      rw [ingestEach_cons_ok hobj]
      exact ih hrest hcommitted hworking
    | carries =>
      obtain ⟨result', hobj⟩ := @ingestObject_carries host now keys obj c result hreach
      have hnew := hstep _ obj (.head _) hworking (admitted_of_reach (.inl hreach))
      rw [ingestEach_cons_ok hobj]
      exact ih (c := ⟨c.committed, carryObject now c.working obj⟩) hrest hcommitted
        (carryObject_stored hworking hnew)
    | applies =>
      obtain ⟨result', trust, -, hobj⟩ := @ingestObject_applies host now keys obj c result hreach
      have hnew := hstep _ obj (.head _) hworking (admitted_of_reach (.inr hreach))
      rw [ingestEach_cons_ok hobj]
      apply ih hrest
      · exact hworking
      · exact @carryObject_stored _ { c.working with trust } _ _ hworking hnew

theorem pull_stored (h : Q (storedObjects db))
    (hstep : ¬Oversized batch → ∀ db, ∀ obj ∈ batch, Q (storedObjects db) →
      judgeObject host now db obj = .ok .admitted → Q (storedObjects db ++ [obj.stored])) :
    Q (storedObjects (pull host now keys batch db).2) := by
  by_cases hsize : Oversized batch
  · rw [pull_oversized hsize]
    exact h
  · rw [pull_of_size hsize]
    have hkept := @ingestEach_stored host now keys batch {} Q (Connection.resting db) (hstep hsize) h h
    cases hrun : ingestEach host now keys {} batch (Connection.resting db) with
    | ok result c =>
      rw [Connection.finish_within_ok hrun]
      exact hkept.1 _ _ hrun
    | error e c =>
      rw [Connection.finish_within_error hrun]
      exact hkept.2 _ _ hrun

def WireOp.Fits : WireOp → Prop
  | .trust _ => True
  | .pull _ batch => ∀ obj ∈ batch, obj.contentId ≠ ""
  | .issue obj => obj.1.stored.Deliverable
  | .retire target revocation => (revocation.object "" target).stored.Deliverable
  | .resign target revocation => (revocation.object "" target).stored.Deliverable

theorem deliverable_of_mem (hsize : ¬Oversized batch) (hobj : obj ∈ batch) (hnamed : obj.contentId ≠ "") :
    obj.stored.Deliverable := by
  constructor
  · exact hnamed
  · have hle := le_sum_of_mem (mem_map_of_mem (f := SignedTrustObject.encodedSize) hobj)
    have hbatch := Nat.not_lt.mp fun hlt => hsize (.inr hlt)
    unfold encodedSize at hbatch
    show obj.encodedSize + 2 ≤ _
    omega

private theorem own_revokesStored
    {revocation : OwnRevocation} {wire : WireRow} (h : wire.stored contentId ∈ objects)
    (hown : wire.issuerFingerprint = home) :
    RevokesStored objects (revocation.object home contentId).stored := by
  intro target htarget
  obtain rfl := Option.some.inj htarget
  exact ⟨_, h, rfl, hown⟩

theorem wireStep_stored {op : Instant × WireOp} (h : Q (storedObjects db))
    (hstep : ∀ objects new, Q objects → RevokesStored objects new →
      (op.2.Fits → new.Deliverable) → Q (objects ++ [new])) :
    Q (storedObjects (wireStep host home db op)) := by
  obtain ⟨now, op⟩ := op
  cases op with
  | trust trustOp => exact h
  | pull keys batch =>
    apply pull_stored h
    intro hsize db' obj hobj hstored hadmitted
    apply hstep _ _ hstored (revokesStored_of_admitted hadmitted)
    intro hfits
    exact deliverable_of_mem hsize hobj (hfits obj hobj)
  | issue obj =>
    apply storeWireObject_stored h
    apply hstep _ _ h
    · intro target htarget
      have hnone : obj.1.payload.revokes? = some target := htarget
      rw [obj.2] at hnone
      cases hnone
    · intro hfits
      exact ⟨hfits.named, hfits.fits⟩
  | retire target revocation =>
    unfold wireStep
    simp only
    split
    · rename_i hlive
      obtain ⟨wire, hwire, hown⟩ := (Option.any_eq_true _ _).mp hlive
      rw [storedObjects_revokeWireObject]
      apply storeWireObject_stored h
      apply hstep _ _ h (own_revokesStored (mem_storedObjects hwire) (of_decide_eq_true hown).1)
      intro hfits
      exact ⟨hfits.named, hfits.fits⟩
    · exact h
  | resign target revocation =>
    unfold wireStep
    simp only
    split
    · rename_i hheld
      obtain ⟨wire, hwire, hown⟩ := (Option.any_eq_true _ _).mp hheld
      apply storeWireObject_stored h
      apply hstep _ _ h (own_revokesStored (mem_storedObjects hwire) (of_decide_eq_true hown))
      intro hfits
      exact ⟨hfits.named, hfits.fits⟩
    · exact h

def RevokedBefore (objects : List StoredObject) : Prop :=
  ∀ before revocation after, objects = before ++ revocation :: after →
    RevokesStored before revocation

theorem RevokedBefore.snoc {new : StoredObject}
    (h : RevokedBefore objects) (hnew : RevokesStored objects new) :
    RevokedBefore (objects ++ [new]) := by
  intro before revocation after hsplit
  rcases eq_nil_or_concat after with rfl | ⟨later, last, rfl⟩
  · obtain ⟨rfl, hlast⟩ := append_inj' hsplit rfl
    obtain rfl := (List.cons.inj hlast).1
    exact hnew
  · rw [concat_eq_append, ← cons_append, ← append_assoc] at hsplit
    exact h before revocation later (append_inj' hsplit rfl).1

theorem wireRun_revokedBefore {run : List (Instant × WireOp)} :
    RevokedBefore (storedObjects (wireRun host home run)) := by
  induction run using List.reverseRecOn with
  | nil =>
    intro before revocation after hsplit
    have hlength := congrArg List.length hsplit
    simp [wireRun, storedObjects, emptyDb, empty] at hlength
  | append_singleton run op ih =>
    rw [wireRun_snoc]
    exact wireStep_stored ih fun objects new hobjects hnew _ => hobjects.snoc hnew

variable {issuer : String} {revocationsOnly : Bool} {start : WireDb}
    {received : List StoredObject} {limit : Nat}

inductive PullWalk (host : WireHost) (home issuer : String) (revocationsOnly : Bool)
    (start : WireDb) : WireDb → List StoredObject → Prop
  | start : PullWalk host home issuer revocationsOnly start start []
  | change {db : WireDb} {received : List StoredObject} (op : Instant × WireOp)
      (fits : op.2.Fits) (walk : PullWalk host home issuer revocationsOnly start db received) :
      PullWalk host home issuer revocationsOnly start (wireStep host home db op) received
  | page {db : WireDb} {received page : List StoredObject} {more : Bool} (limit : Nat)
      (loaded : loadTrustObjectPage issuer revocationsOnly db
        (received.getLast?.map StoredObject.contentId) limit = .ok (page, more))
      (walk : PullWalk host home issuer revocationsOnly start db received) :
      PullWalk host home issuer revocationsOnly start db (received ++ page)

section

variable (hrows : ∀ row ∈ storedObjects db, row.Deliverable)

include hrows

theorem rowsAfter_received (hreceived : received <+: servedObjects issuer revocationsOnly db) :
    ∃ rest, rowsAfter issuer (storedObjects db) (received.getLast?.map StoredObject.contentId) =
        .ok rest ∧
      servedObjects issuer revocationsOnly db =
        received ++ rest.filter (isServed issuer revocationsOnly) := by
  rcases eq_nil_or_concat received with rfl | ⟨before, last, rfl⟩
  · exact ⟨storedObjects db, rfl, rfl⟩
  · obtain ⟨later, hlater⟩ := hreceived
    rw [concat_eq_append] at hlater ⊢
    rw [append_assoc, singleton_append] at hlater
    have hlast : last ∈ servedObjects issuer revocationsOnly db := by
      rw [← hlater]
      simp
    obtain ⟨hstored, hserved⟩ := mem_filter.mp hlast
    have hissuer := of_decide_eq_true (Bool.and_eq_true_iff.mp hserved).1
    have hheld : ((storedObjects db).any fun row =>
        decide (row.contentId = last.contentId ∧ row.issuerFingerprint = issuer)) = true :=
      any_eq_true.mpr ⟨last, hstored, decide_eq_true ⟨rfl, hissuer⟩⟩
    refine ⟨itemsAfter StoredObject.contentId last.contentId (storedObjects db), ?_, ?_⟩
    · rw [getLast?_concat, Option.map_some, rowsAfter, if_neg (hrows last hstored).named, if_pos hheld]
    · rw [filter_itemsAfter storedObjects_nodup hlater.symm, append_assoc, singleton_append, hlater]

theorem loadTrustObjectPage_spec
    (hreceived : received <+: servedObjects issuer revocationsOnly db) (limit : Nat) :
    ∃ rest page more, servedObjects issuer revocationsOnly db = received ++ rest ∧
      loadTrustObjectPage issuer revocationsOnly db
        (received.getLast?.map StoredObject.contentId) limit = .ok (page, more) ∧
      IsPage rest page more ∧ page.length ≤ maxTrustObjectsPerResponse ∧
      pageSize page ≤ maxTrustResponseBytes := by
  obtain ⟨rows, hafter, hserved⟩ := rowsAfter_received hrows hreceived
  generalize hrest : rows.filter (isServed issuer revocationsOnly) = rest at hserved
  generalize hbound : max 1 (min limit maxTrustObjectsPerResponse) = bound
  have hpositive : 0 < bound := by omega
  have hdeliverable : ∀ row ∈ (rest.take (bound + 1)).take bound, row.Deliverable := by
    intro row hrow
    have hmem : row ∈ servedObjects issuer revocationsOnly db := by
      rw [hserved]
      exact mem_append_right _ (mem_of_mem_take (mem_of_mem_take hrow))
    exact hrows row (mem_filter.mp hmem).1
  obtain ⟨page, more, hfill, hcut, hwhole, hmoves, hsize⟩ := @fillPage_spec
    ((rest.take (bound + 1)).take bound) [] (decide (bound < (rest.take (bound + 1)).length))
    hdeliverable (by decide)
  rw [take_take, min_eq_left (Nat.le_succ _)] at hcut hwhole hmoves
  rw [nil_append] at hfill hmoves hsize
  refine ⟨rest, page, more, hserved, ?_, ⟨?_, ?_, ?_⟩, ?_, hsize⟩
  · unfold loadTrustObjectPage
    rw [hafter]
    simp only [hbound]
    show fillPage _ _ _ _ = _
    rw [hrest]
    exact hfill
  · exact hcut.trans (List.take_prefix _ _)
  · intro hno
    obtain ⟨hpage, hfew⟩ := hwhole hno
    rw [hpage]
    apply take_of_length_le
    have hlength := of_decide_eq_false hfew
    rw [length_take] at hlength
    omega
  · intro hyes
    rcases hmoves hyes with ⟨hmany, hpage⟩ | hpage
    · have hlength := of_decide_eq_true hmany
      rw [length_take] at hlength
      intro hempty
      rw [hempty] at hpage
      have hnone := congrArg List.length hpage
      rw [length_nil, length_take] at hnone
      omega
    · exact hpage
  · have hlength := hcut.length_le
    rw [length_take] at hlength
    have hle : bound ≤ maxTrustObjectsPerResponse := by
      rw [← hbound]
      exact max_le (by decide) (min_le_right _ _)
    omega

end

theorem PullWalk.invariant (hstart : ∀ row ∈ storedObjects start, row.Deliverable)
    (h : PullWalk host home issuer revocationsOnly start db received) :
    (∀ row ∈ storedObjects db, row.Deliverable) ∧
      received <+: servedObjects issuer revocationsOnly db := by
  induction h with
  | start => exact ⟨hstart, nil_prefix⟩
  | change op fits walk ih =>
    refine ⟨wireStep_stored (Q := fun rows => ∀ row ∈ rows, row.Deliverable) ih.1 ?_,
      wireStep_stored (Q := fun rows => _ <+: rows.filter _) ih.2 ?_⟩
    · intro objects new hobjects _ hnew row hrow
      rcases mem_append.mp hrow with hrow | hrow
      · exact hobjects row hrow
      · rw [mem_singleton.mp hrow]
        exact hnew fits
    · intro objects new hobjects _ _
      rw [filter_append]
      exact hobjects.trans (prefix_append _ _)
  | page limit loaded walk ih =>
    refine ⟨ih.1, ?_⟩
    obtain ⟨rest, page', more', hserved, hloaded, hpage, -⟩ :=
      loadTrustObjectPage_spec ih.1 ih.2 limit
    rw [loaded] at hloaded
    obtain ⟨rfl, rfl⟩ := Prod.mk.inj (Except.ok.inj hloaded)
    rw [hserved]
    exact (prefix_append_right_inj _).mpr hpage.cut

theorem PullWalk.revokedBefore (hstart : RevokedBefore (storedObjects start))
    (h : PullWalk host home issuer revocationsOnly start db received) :
    RevokedBefore (storedObjects db) := by
  induction h with
  | start => exact hstart
  | change op fits walk ih =>
    exact wireStep_stored ih fun objects new hobjects hnew _ => hobjects.snoc hnew
  | page limit loaded walk ih => exact ih

theorem RevokedBefore.served {before after : List StoredObject} {revocation : StoredObject}
    (h : RevokedBefore (storedObjects db))
    (hserved : servedObjects issuer false db = before ++ revocation :: after) :
    RevokesStored before revocation := by
  obtain ⟨first, tail, hstored, hfirst, htail⟩ := filter_eq_append_iff.mp hserved
  obtain ⟨skipped, later, rfl, hskipped, hkept, -⟩ := filter_eq_cons_iff.mp htail
  intro target htarget
  rw [← append_assoc] at hstored
  obtain ⟨held, hheld, hsame, hissuer⟩ := h _ _ _ hstored target htarget
  have hkeptHeld : isServed issuer false held = true := by
    simp only [isServed, Bool.not_false, Bool.true_or, Bool.and_true, decide_eq_true_eq] at hkept ⊢
    rw [hissuer, hkept]
  refine ⟨held, ?_, hsame, hissuer⟩
  rcases mem_append.mp hheld with hheld | hheld
  · rw [← hfirst]
    exact mem_filter.mpr ⟨hheld, hkeptHeld⟩
  · exact absurd hkeptHeld (hskipped held hheld)

def withdrawnRun : List (Instant × WireOp) :=
  [(days 1, .issue ⟨vouchOf "me" "first", rfl⟩), (days 1, .issue ⟨vouchOf "me" "second", rfl⟩),
   (days 2, .retire "first" ⟨"withdrawn", days 2, true, 300⟩)]

private def withdrawnRows : List StoredObject :=
  [⟨"first", "me", .trustVouch, none, 500⟩, ⟨"second", "me", .trustVouch, none, 500⟩,
   ⟨"withdrawn", "me", .trustVouchRevocation, some "first", 300⟩]

private theorem storedObjects_withdrawnRun :
    storedObjects (wireRun plainWireHost "me" withdrawnRun) = withdrawnRows := by
  decide +kernel

private theorem withdrawn_walk : PullWalk plainWireHost "me" "me" false
    (wireRun plainWireHost "me" withdrawnRun) (wireRun plainWireHost "me" withdrawnRun)
    [⟨"first", "me", .trustVouch, none, 500⟩] := by
  apply @PullWalk.page _ _ _ _ _ _ _ _ true 1 _ .start
  unfold loadTrustObjectPage
  rw [storedObjects_withdrawnRun]
  rfl

end NetBBS.Trust
