import Mathlib.Algebra.BigOperators.Group.List.Basic
import Mathlib.Algebra.GroupWithZero.Nat
import NetBBS.Foundation.Keyset

/-! # Carrying an issuer's trust objects -/

namespace NetBBS.TrustCarriage

open Foundation List Option

structure SignedTrustObject where
  contentId : Nat
  issuer : String
  signedBy : Nat
  revocation : Bool
  expiresAt : Option Int
  itemSize : Nat
  envelopeLength : Nat
deriving DecidableEq

def maxTrustObjectsPerResponse : Nat := 100

def maxTrustResponseBytes : Nat := 1024 * 1024

def maxCarriedTrustObjectsPerIssuer : Nat := 4000

def maxCarriedTrustBytesPerIssuer : Nat := 32 * 1024 * 1024

inductive TrustWireError where
  | outOfStep
  | full
  | notItsOwn
  | unknownTrustPullCursor
deriving DecidableEq

def fillPage : List SignedTrustObject → Nat → List SignedTrustObject → List SignedTrustObject × Bool
  | [], _, result => (result, false)
  | object :: rest, total, result =>
    if result ≠ [] ∧ maxTrustResponseBytes < total + (object.itemSize + 1) then (result, true)
    else fillPage rest (total + (object.itemSize + 1)) (result ++ [object])

structure RelayDb where
  carried : List SignedTrustObject := []
  mark : Option Nat := none
  knownKey : Nat := 0

def SignedTrustObject.expired (object : SignedTrustObject) (now : Int) : Bool :=
  match object.expiresAt with
  | some expiresAt => decide (expiresAt ≤ now)
  | none => false

structure Storing where
  carried : List SignedTrustObject
  count : Nat
  size : Nat
  stored : List Nat := []
  held : List Nat := []

def storeObject (issuer : String) (now : Int) (s : Storing) (object : SignedTrustObject) :
    Except TrustWireError Storing :=
  if object.issuer ≠ issuer then .error .notItsOwn
  else if s.carried.any (fun other => other.contentId = object.contentId) || object.expired now then
    .ok { s with held := s.held ++ [object.contentId] }
  else if maxCarriedTrustObjectsPerIssuer < s.count + 1 ∨
      maxCarriedTrustBytesPerIssuer < s.size + object.envelopeLength then .error .full
  else .ok { s with
    carried := s.carried ++ [object]
    count := s.count + 1
    size := s.size + object.envelopeLength
    stored := s.stored ++ [object.contentId] }

def storeDepositedTrustObjects (issuer : String) (db : RelayDb) (objects : List SignedTrustObject)
    (afterContentId lastSentContentId : Option Nat) (now : Int) :
    Except TrustWireError (RelayDb × List Nat × List Nat) := do
  if afterContentId.isSome && decide (db.mark ≠ afterContentId) then .error .outOfStep
  else
    let carried := db.carried.filter fun object => !object.expired now
    let s ← objects.foldlM (storeObject issuer now)
      { carried, count := carried.length, size := (carried.map SignedTrustObject.envelopeLength).sum }
    let handedOver := lastSentContentId.or (objects.getLast?.map SignedTrustObject.contentId)
    .ok ({ db with carried := s.carried, mark := handedOver.or db.mark }, s.stored, s.held)

def rowsAfterCursor (carried : List SignedTrustObject) : Option Nat → Except TrustWireError (List SignedTrustObject)
  | none => .ok carried
  | some after =>
    if carried.any fun object => object.contentId = after then
      .ok (itemsAfter SignedTrustObject.contentId after carried)
    else .error .unknownTrustPullCursor

/-- `load_trust_page_for_pull`; where nothing is carried for the issuer the page is the admitted store's. -/
def loadTrustPageForPull (admitted : Option Nat → Except TrustWireError (List SignedTrustObject × Bool))
    (carried : List SignedTrustObject) (afterContentId : Option Nat) (limit : Nat) (revocationsOnly : Bool) :
    Except TrustWireError (List SignedTrustObject × Bool) := do
  if carried = [] then admitted afterContentId
  else
    let rest ← rowsAfterCursor carried afterContentId
    let limit := max 1 (min limit maxTrustObjectsPerResponse)
    let rows := (rest.filter fun object => !revocationsOnly || object.revocation).take (limit + 1)
    let page := fillPage (rows.take limit) 2 []
    .ok (page.1, decide (limit < rows.length) || page.2)

def pullPages (admitted : Option Nat → Except TrustWireError (List SignedTrustObject × Bool))
    (carried : List SignedTrustObject) (limit : Nat) : Nat → Option Nat → List SignedTrustObject
  | 0, _ => []
  | pages + 1, cursor =>
    match loadTrustPageForPull admitted carried cursor limit false with
    | .error _ => []
    | .ok (page, more) =>
      page ++ if more then pullPages admitted carried limit pages (page.getLast?.map SignedTrustObject.contentId)
        else []

structure OwnRow where
  rowid : Nat
  object : SignedTrustObject

structure DepositorDb where
  own : List OwnRow
  lastRowid : Nat := 0
  ascending : own.Pairwise fun a b => a.rowid < b.rowid
  positive : ∀ row ∈ own, 0 < row.rowid

def DepositorDb.objects (db : DepositorDb) : List SignedTrustObject := db.own.map OwnRow.object

/-- `load_own_trust_objects_to_deposit`: the objects, the position after them and what they continue from. -/
def loadOwnTrustObjectsToDeposit (db : DepositorDb) (limit : Nat) :
    List SignedTrustObject × Option Nat × Option Nat :=
  let before := (db.own.find? fun row => row.rowid = db.lastRowid).map fun row => row.object.contentId
  let afterRowid := if db.lastRowid ≠ 0 && before.isNone then 0 else db.lastRowid
  let rows := (db.own.filter fun row => afterRowid < row.rowid).take
    (max 1 (min limit maxTrustObjectsPerResponse))
  let objects := (fillPage (rows.map OwnRow.object) 2 []).1
  (objects, (rows.take objects.length).getLast?.map OwnRow.rowid, before)

structure Deposit where
  objects : List SignedTrustObject
  afterContentId : Option Nat
  key : Nat
  own : List SignedTrustObject
  answer : Option (Option TrustWireError) := none

structure Pending where
  deposit : Nat
  position : Option Nat

structure World where
  issuer : String
  now : Int
  depositor : DepositorDb := { own := [], ascending := .nil, positive := by simp }
  key : Nat := 0
  pending : Option Pending := none
  deposits : List Deposit := []
  relay : RelayDb := {}
  depositorBackups : List DepositorDb := []
  relayBackups : List RelayDb := []
  /-- Every object ever signed, with the objects that preceded it in the depositor's database. -/
  signed : List (SignedTrustObject × List SignedTrustObject) := []

inductive Happening where
  | pass (time : Nat)
  /-- The depositor signs an object. -/
  | sign (revocation : Bool) (expiresAt : Option Int) (itemSize envelopeLength skipped : Nat)
  | rotateKey
  /-- The relay learns a later key of the depositor. -/
  | learnKey (key : Nat)
  | send
  /-- A deposit comes to the relay, late or repeated or neither. -/
  | deliver (deposit : Nat)
  /-- The relay's reply to the last deposit sent. -/
  | reply
  | restartDepositor
  | backUpDepositor
  | restoreDepositor (backup : Nat)
  | backUpRelay
  | restoreRelay (backup : Nat)
  /-- Another issuer's deposit drops what has expired. -/
  | prune

def DepositorDb.maxRowid (db : DepositorDb) : Nat := (db.own.getLast?.map OwnRow.rowid).getD 0

theorem DepositorDb.le_maxRowid (db : DepositorDb) {row : OwnRow} (hrow : row ∈ db.own) :
    row.rowid ≤ db.maxRowid := by
  have hascending := db.ascending
  unfold DepositorDb.maxRowid
  rcases eq_nil_or_concat db.own with hnil | ⟨before, last, hown⟩
  · rw [hnil] at hrow
    cases hrow
  · rw [hown, concat_eq_append] at hrow hascending ⊢
    simp only [getLast?_append, getLast?_singleton, some_or, map_some, getD_some]
    rcases mem_append.mp hrow with hbefore | hlast
    · exact Nat.le_of_lt ((pairwise_append.mp hascending).2.2 row hbefore last (by simp))
    · exact Nat.le_of_eq (by rw [mem_singleton.mp hlast])

def DepositorDb.insert (db : DepositorDb) (object : SignedTrustObject) (skipped : Nat) : DepositorDb where
  own := db.own ++ [⟨db.maxRowid + 1 + skipped, object⟩]
  lastRowid := db.lastRowid
  ascending := by
    rw [pairwise_append]
    refine ⟨db.ascending, by simp, ?_⟩
    intro row hrow last hlast
    have hle := db.le_maxRowid hrow
    rw [mem_singleton.mp hlast]
    exact Nat.lt_of_le_of_lt hle (by simp only []; omega)
  positive row hrow := by
    rcases mem_append.mp hrow with hrow | hrow
    · exact db.positive row hrow
    · rw [mem_singleton.mp hrow]
      exact Nat.lt_of_lt_of_le (Nat.succ_pos db.maxRowid) (Nat.le_add_right _ skipped)

/-- `handle_trust_deposit` and what follows it: only what the sender's current key signed is kept, and the last
object as it was sent is remembered. -/
def RelayDb.take (issuer : String) (db : RelayDb) (deposit : Deposit) (now : Int) :
    Option (Except TrustWireError RelayDb) :=
  if deposit.key ≠ db.knownKey then none
  else
    let verified := deposit.objects.filter fun object => object.signedBy = db.knownKey
    let lastSent := deposit.objects.getLast?.map SignedTrustObject.contentId
    some ((storeDepositedTrustObjects issuer db verified deposit.afterContentId lastSent now).map Prod.fst)

def step (w : World) : Happening → World
  | .pass time => { w with now := w.now + time }
  | .sign revocation expiresAt itemSize envelopeLength skipped =>
    let object : SignedTrustObject :=
      ⟨w.signed.length, w.issuer, w.key, revocation, expiresAt, itemSize, envelopeLength⟩
    { w with
      depositor := w.depositor.insert object skipped
      signed := w.signed ++ [(object, w.depositor.objects)] }
  | .rotateKey => { w with key := w.key + 1 }
  | .learnKey key =>
    if w.relay.knownKey ≤ key ∧ key ≤ w.key then { w with relay := { w.relay with knownKey := key } } else w
  | .send =>
    let (objects, position, before) := loadOwnTrustObjectsToDeposit w.depositor maxTrustObjectsPerResponse
    { w with
      pending := some ⟨w.deposits.length, position⟩
      deposits := w.deposits ++ [⟨objects, before, w.key, w.depositor.objects, none⟩] }
  | .deliver index =>
    match w.deposits[index]? with
    | none => w
    | some deposit =>
      match w.relay.take w.issuer deposit w.now with
      | some (.ok relay) =>
        { w with relay, deposits := w.deposits.set index { deposit with answer := some none } }
      | some (.error refusal) =>
        { w with deposits := w.deposits.set index { deposit with answer := some (some refusal) } }
      | none => w
  | .reply =>
    match w.pending with
    | none => w
    | some pending =>
      match w.deposits[pending.deposit]?.bind Deposit.answer with
      | none => w
      | some none => { w with
          depositor := { w.depositor with lastRowid := pending.position.getD w.depositor.lastRowid }
          pending := none }
      -- Everything again, in the next pass.
      | some (some .outOfStep) => { w with depositor := { w.depositor with lastRowid := 0 }, pending := none }
      | some (some _) => { w with pending := none }
  | .restartDepositor => { w with pending := none }
  | .backUpDepositor => { w with depositorBackups := w.depositorBackups ++ [w.depositor] }
  | .restoreDepositor backup =>
    match w.depositorBackups[backup]? with
    | some depositor => { w with depositor, pending := none }
    | none => w
  | .backUpRelay => { w with relayBackups := w.relayBackups ++ [w.relay] }
  | .restoreRelay backup =>
    match w.relayBackups[backup]? with
    | some relay => { w with relay }
    | none => w
  | .prune =>
    { w with relay := { w.relay with carried := w.relay.carried.filter fun object => !object.expired w.now } }

end NetBBS.TrustCarriage
