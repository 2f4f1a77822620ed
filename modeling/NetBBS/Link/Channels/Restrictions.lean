import Mathlib.Data.Finset.Max
import Mathlib.Data.List.Sort
import Mathlib.Data.Prod.Lex
import Mathlib.Data.String.Basic
import NetBBS.Foundation.Dict

/-! # Mutes and bans of a linked channel -/

namespace NetBBS.Channels

open Foundation

def maxRestrictionsPerChannel : Nat := 500

/-- `LINK_EVENT_FUTURE_SKEW_SECONDS`, in microseconds. -/
def linkEventFutureSkew : Nat := 300000000

inductive RestrictionKind where
  | mute
  | ban
deriving DecidableEq

inductive Until where
  | forever
  | instant (at' : Nat)
  | unreadable
deriving DecidableEq

structure ChannelRestriction where
  contentId : String
  channelId : String
  homeNodeFingerprint : String
  localUserId : String
  kind : RestrictionKind
  imposes : Bool
  until' : Until
  reason : Option String
  createdAt : Option Nat
  /-- No `moderator` acts. -/
  isOrigin : Bool
deriving DecidableEq

structure RestrictionRow where
  active : Bool
  until' : Until
  reason : Option String
  isOrigin : Bool
  effectiveAt : Nat
  contentId : String
  targetLocal : Bool

abbrev RestrictionKey := String × String × String × RestrictionKind

structure ChannelDb where
  carried : String → Bool
  restrictions : Dict RestrictionKey RestrictionRow

inductive Outcome where
  | stored
  | stale
  | notCarried
  | full

def effectiveTime (createdAt : Option Nat) (arrived : Nat) : Nat :=
  match createdAt with
  | none => arrived
  | some made => if arrived + linkEventFutureSkew < made then arrived else made

namespace RestrictionRow

/-- `_active`. -/
def inForce (row : RestrictionRow) (now : Nat) : Bool :=
  row.active &&
    match row.until' with
    | .forever => true
    | .instant moment => decide (now < moment)
    | .unreadable => true

def rank (row : RestrictionRow) : ℕ ×ₗ Bool ×ₗ String :=
  toLex (row.effectiveAt, toLex (row.isOrigin, row.contentId))

end RestrictionRow

def replaces (current : Option RestrictionRow) (new : RestrictionRow) (now : Nat) : Bool :=
  match current with
  | none => true
  | some held =>
    if held.isOrigin = true ∧ new.isOrigin = false ∧ held.inForce now = true then false
    else decide (held.rank < new.rank)

variable (casefold : String → String) (ownFingerprint : Option String)

def ChannelRestriction.key (event : ChannelRestriction) : RestrictionKey :=
  (event.channelId, event.homeNodeFingerprint, casefold event.localUserId, event.kind)

def ChannelRestriction.row (event : ChannelRestriction) (arrived : Nat) : RestrictionRow :=
  { active := event.imposes
    until' := event.until'
    reason := event.reason
    isOrigin := event.isOrigin
    effectiveAt := effectiveTime event.createdAt arrived
    contentId := event.contentId
    targetLocal := ownFingerprint.any fun own => decide (event.homeNodeFingerprint = own) }

def restrictionsOf (db : ChannelDb) (channelId : String) : List (RestrictionKey × RestrictionRow) :=
  db.restrictions.entries.filter fun entry => decide (entry.1.1 = channelId)

/-- `_make_room`: whether there is room, and what is left. -/
def makeRoom (db : ChannelDb) (channelId : String) (now : Nat) : Bool × ChannelDb :=
  let rows := restrictionsOf db channelId
  if rows.length < maxRestrictionsPerChannel then (true, db)
  else
    let spent := List.insertionSort
      (fun a b : RestrictionKey × RestrictionRow => a.2.effectiveAt ≤ b.2.effectiveAt)
      (rows.filter fun entry => !entry.2.inForce now)
    let dropped := (spent.take (rows.length - maxRestrictionsPerChannel + 1)).map Prod.fst
    (decide (rows.length - spent.length < maxRestrictionsPerChannel),
      { db with restrictions := dropped.foldl Dict.erase db.restrictions })

/-- `store_received_restriction`; `now` is what the clock says, `arrived` when the event came in. -/
def storeReceivedRestriction (db : ChannelDb) (event : ChannelRestriction) (arrived now : Nat) :
    Outcome × ChannelDb :=
  if db.carried event.channelId = false then (.notCarried, db)
  else
    let current := db.restrictions.get? (event.key casefold)
    let new := event.row ownFingerprint arrived
    if replaces current new now = false then (.stale, db)
    else
      let room := if current = none then makeRoom db event.channelId now else (true, db)
      if room.1 = false then (.full, db)
      else (.stored,
        { room.2 with restrictions := room.2.restrictions.set (event.key casefold) new })

structure Delivery where
  event : ChannelRestriction
  arrived : Nat
  now : Nat

def deliver (casefold : String → String) (ownFingerprint : Option String) (db : ChannelDb)
    (delivery : Delivery) : ChannelDb :=
  (storeReceivedRestriction casefold ownFingerprint db delivery.event delivery.arrived delivery.now).2

def deliverAll (casefold : String → String) (ownFingerprint : Option String) (db : ChannelDb)
    (deliveries : List Delivery) : ChannelDb :=
  deliveries.foldl (deliver casefold ownFingerprint) db

end NetBBS.Channels

namespace NetBBS.Channels

open Foundation List

def ChannelRestriction.made (event : ChannelRestriction) : Nat := event.createdAt.getD 0

def ChannelRestriction.rank (event : ChannelRestriction) : ℕ ×ₗ Bool ×ₗ String :=
  toLex (event.made, toLex (event.isOrigin, event.contentId))

def ChannelRestriction.endedAt (event : ChannelRestriction) (now : Nat) : Prop :=
  ∃ moment, event.until' = .instant moment ∧ moment ≤ now

structure OneTarget (casefold : String → String) (events : Finset ChannelRestriction) : Prop where
  nonempty : events.Nonempty
  sameKey : ∀ a ∈ events, ∀ b ∈ events, a.key casefold = b.key casefold
  distinct : ∀ a ∈ events, ∀ b ∈ events, a.contentId = b.contentId → a = b
  dated : ∀ event ∈ events, event.createdAt ≠ none
  timely : ∃ moment, ∀ event ∈ events, event.made ≤ moment ∧ ¬event.endedAt moment

structure Deliver (events : Finset ChannelRestriction) (deliveries : List Delivery) : Prop where
  all : ∀ event ∈ events, ∃ delivery ∈ deliveries, delivery.event = event
  only : ∀ delivery ∈ deliveries, delivery.event ∈ events
  made : ∀ delivery ∈ deliveries, delivery.event.made ≤ delivery.arrived
  running : ∀ delivery ∈ deliveries, ∀ event ∈ events, ¬event.endedAt delivery.now

structure Vacant (casefold : String → String) (events : Finset ChannelRestriction)
    (db : ChannelDb) : Prop where
  carried : ∀ event ∈ events, db.carried event.channelId = true
  none : ∀ event ∈ events, db.restrictions.get? (event.key casefold) = none
  room : ∀ event ∈ events, (restrictionsOf db event.channelId).length < maxRestrictionsPerChannel

def Newest (events : Finset ChannelRestriction) (event : ChannelRestriction) : Prop :=
  event ∈ events ∧ ∀ other ∈ events, other.rank ≤ event.rank

def ofOrigin (events : Finset ChannelRestriction) : Finset ChannelRestriction :=
  events.filter fun event => event.isOrigin = true

def Stays (events : Finset ChannelRestriction) (event : ChannelRestriction) : Prop :=
  (Newest (ofOrigin events) event ∧ event.imposes = true) ∨
    ((∀ origin, Newest (ofOrigin events) origin → origin.imposes = false) ∧ Newest events event)

def Settles (casefold : String → String) (ownFingerprint : Option String)
    (events : Finset ChannelRestriction) : Prop :=
  ∀ db, Vacant casefold events db → ∀ deliveries, Deliver events deliveries →
    ∃ event, Stays events event ∧
      (deliverAll casefold ownFingerprint db deliveries).restrictions.get? (event.key casefold) =
        some (event.row ownFingerprint event.made)

variable {casefold : String → String} {ownFingerprint : Option String}
    {events : Finset ChannelRestriction} {a b : ChannelRestriction}

variable {event newest : ChannelRestriction} {arrived : Nat}

theorem effectiveTime_of_made (hdated : event.createdAt ≠ none) (hmade : event.made ≤ arrived) :
    effectiveTime event.createdAt arrived = event.made := by
  unfold ChannelRestriction.made at hmade ⊢
  cases hcreated : event.createdAt with
  | none => exact absurd hcreated hdated
  | some made =>
    rw [hcreated] at hmade
    rw [effectiveTime, if_neg]
    · rfl
    · exact Nat.not_lt.mpr (hmade.trans (Nat.le_add_right _ _))

theorem row_of_made {event : ChannelRestriction} {arrived : Nat} (hdated : event.createdAt ≠ none)
    (hmade : event.made ≤ arrived) :
    event.row ownFingerprint arrived = event.row ownFingerprint event.made := by
  unfold ChannelRestriction.row
  rw [effectiveTime_of_made hdated hmade, effectiveTime_of_made hdated le_rfl]

theorem rank_row (hdated : event.createdAt ≠ none) :
    (event.row ownFingerprint event.made).rank = event.rank := by
  unfold RestrictionRow.rank ChannelRestriction.row
  simp only
  rw [effectiveTime_of_made hdated le_rfl]
  rfl

theorem contentId_of_rank (h : a.rank = b.rank) : a.contentId = b.contentId := by
  have hpair := toLex.injective h
  exact (Prod.mk.inj (toLex.injective (Prod.mk.inj hpair).2)).2

section

variable (htarget : OneTarget casefold events)

include htarget

theorem rank_injective (ha : a ∈ events) (hb : b ∈ events) (h : a.rank = b.rank) : a = b :=
  htarget.distinct a ha b hb (contentId_of_rank h)

theorem Newest.unique (ha : Newest events a) (hb : Newest events b) : a = b :=
  rank_injective htarget ha.1 hb.1 (le_antisymm (hb.2 a ha.1) (ha.2 b hb.1))

theorem Newest.unique_origin
    (ha : Newest (ofOrigin events) a) (hb : Newest (ofOrigin events) b) : a = b :=
  rank_injective htarget (Finset.mem_filter.mp ha.1).1 (Finset.mem_filter.mp hb.1).1
    (le_antisymm (hb.2 a ha.1) (ha.2 b hb.1))

end

theorem Stays.mem (h : Stays events a) : a ∈ events := by
  rcases h with ⟨h, -⟩ | ⟨-, h⟩
  · exact (Finset.mem_filter.mp h.1).1
  · exact h.1

theorem Stays.unique (htarget : OneTarget casefold events) (ha : Stays events a)
    (hb : Stays events b) : a = b := by
  rcases ha with ⟨ha, himposes⟩ | ⟨hlifted, ha⟩
  · rcases hb with ⟨hb, -⟩ | ⟨hlifted, -⟩
    · exact ha.unique_origin htarget hb
    · rw [hlifted a ha] at himposes
      cases himposes
  · rcases hb with ⟨hb, himposes⟩ | ⟨-, hb⟩
    · rw [hlifted b hb] at himposes
      cases himposes
    · exact ha.unique htarget hb

theorem exists_newest (h : events.Nonempty) : ∃ event, Newest events event := by
  obtain ⟨event, hmem, hmax⟩ := events.exists_max_image ChannelRestriction.rank h
  exact ⟨event, hmem, hmax⟩

variable {start db : ChannelDb} {key : RestrictionKey}

structure Ready (casefold : String → String) (events : Finset ChannelRestriction)
    (db : ChannelDb) : Prop where
  carried : ∀ event ∈ events, db.carried event.channelId = true
  room : ∀ event ∈ events, db.restrictions.get? (event.key casefold) = none →
    (restrictionsOf db event.channelId).length < maxRestrictionsPerChannel

theorem Vacant.ready (h : Vacant casefold events db) : Ready casefold events db where
  carried := h.carried
  room event hevent _ := h.room event hevent

theorem deliver_ready {delivery : Delivery} (htarget : OneTarget casefold events)
    (hready : Ready casefold events db) (hevent : delivery.event ∈ events)
    (hmade : delivery.event.made ≤ delivery.arrived) :
    Ready casefold events (deliver casefold ownFingerprint db delivery) ∧
    (deliver casefold ownFingerprint db delivery).restrictions.get?
        (delivery.event.key casefold) =
      if replaces (db.restrictions.get? (delivery.event.key casefold))
          (delivery.event.row ownFingerprint delivery.event.made) delivery.now = true then
        some (delivery.event.row ownFingerprint delivery.event.made)
      else db.restrictions.get? (delivery.event.key casefold) := by
  have hrow := @row_of_made ownFingerprint _ _ (htarget.dated _ hevent) hmade
  unfold deliver storeReceivedRestriction
  rw [if_neg (by simp [hready.carried _ hevent])]
  simp only [hrow]
  by_cases hreplaces : replaces (db.restrictions.get? (delivery.event.key casefold))
      (delivery.event.row ownFingerprint delivery.event.made) delivery.now = true
  · rw [if_neg (by rw [hreplaces]; decide), if_pos hreplaces]
    have hroom : (if db.restrictions.get? (delivery.event.key casefold) = none then
        makeRoom db delivery.event.channelId delivery.now else (true, db)) = (true, db) := by
      split
      · rename_i hnone
        unfold makeRoom
        simp only
        rw [if_pos (hready.room _ hevent hnone)]
      · rfl
    rw [hroom, if_neg (by simp)]
    refine ⟨⟨hready.carried, ?_⟩, Dict.get?_set_self _ _ _⟩
    intro event hother hnone
    rw [htarget.sameKey _ hother _ hevent] at hnone
    rw [show (Dict.set db.restrictions (delivery.event.key casefold) _).get? _ = _ from
      Dict.get?_set_self _ _ _] at hnone
    cases hnone
  · rw [if_pos (Bool.eq_false_iff.mpr hreplaces), if_neg hreplaces]
    exact ⟨hready, rfl⟩

def Ranked (events : Finset ChannelRestriction) : Prop :=
  (∃ event, Newest events event ∧ event.isOrigin = true) ∨
    ∀ event ∈ events, event.isOrigin = true → event.imposes = false

variable {now : Nat}

theorem inForce_imposes
    (h : (event.row ownFingerprint arrived).inForce now = true) : event.imposes = true :=
  (Bool.and_eq_true_iff.mp h).1

theorem inForce_of_running (himposes : event.imposes = true) (hrunning : ¬event.endedAt now) :
    (event.row ownFingerprint arrived).inForce now = true := by
  unfold RestrictionRow.inForce ChannelRestriction.row
  simp only [himposes, Bool.true_and]
  cases huntil : event.until' with
  | forever => rfl
  | unreadable => rfl
  | instant moment =>
    apply decide_eq_true
    exact Nat.not_le.mp fun hle => hrunning ⟨moment, huntil, hle⟩

theorem Newest.replaces_of_ranked {held : ChannelRestriction}
    (htarget : OneTarget casefold events) (hnewest : Newest events newest)
    (hranked : Ranked events) (hheld : held ∈ events) (hother : held ≠ newest) :
    replaces (some (held.row ownFingerprint held.made))
      (newest.row ownFingerprint newest.made) now = true := by
  unfold replaces
  simp only
  rw [if_neg]
  · apply decide_eq_true
    rw [rank_row (htarget.dated _ hheld), rank_row (htarget.dated _ hnewest.1)]
    apply lt_of_le_of_ne (hnewest.2 held hheld)
    intro hsame
    exact hother (rank_injective htarget hheld hnewest.1 hsame)
  · rintro ⟨horigin, hdelegate, hforce⟩
    rcases hranked with ⟨event, hevent, hisOrigin⟩ | hlifted
    · obtain rfl := hevent.unique htarget hnewest
      rw [show event.isOrigin = false from hdelegate] at hisOrigin
      cases hisOrigin
    · have himposes := inForce_imposes hforce
      rw [hlifted held hheld horigin] at himposes
      cases himposes

theorem Newest.kept {newest other : ChannelRestriction} {now : Nat}
    (htarget : OneTarget casefold events) (hnewest : Newest events newest) (hother : other ∈ events) :
    replaces (some (newest.row ownFingerprint newest.made))
      (other.row ownFingerprint other.made) now = false := by
  unfold replaces
  simp only
  split
  · rfl
  · apply decide_eq_false
    rw [rank_row (htarget.dated _ hother), rank_row (htarget.dated _ hnewest.1)]
    exact not_lt.mpr (hnewest.2 other hother)

def OnFile (casefold : String → String) (ownFingerprint : Option String)
    (db : ChannelDb) (event : ChannelRestriction) : Prop :=
  db.restrictions.get? (event.key casefold) = some (event.row ownFingerprint event.made)

theorem Newest.stays {newest : ChannelRestriction} {deliveries : List Delivery}
    (htarget : OneTarget casefold events) (hnewest : Newest events newest)
    (hready : Ready casefold events db) (honFile : OnFile casefold ownFingerprint db newest)
    (honly : ∀ delivery ∈ deliveries, delivery.event ∈ events ∧ delivery.event.made ≤ delivery.arrived) :
    OnFile casefold ownFingerprint (deliverAll casefold ownFingerprint db deliveries) newest := by
  induction deliveries generalizing db with
  | nil => exact honFile
  | cons delivery rest ih =>
    obtain ⟨hevent, hmade⟩ := honly delivery (.head _)
    obtain ⟨hready', hafter⟩ :=
      @deliver_ready casefold ownFingerprint events db delivery htarget hready hevent hmade
    apply ih hready'
    · rw [htarget.sameKey _ hevent _ hnewest.1, honFile, hnewest.kept htarget hevent] at hafter
      exact hafter
    · exact fun other hother => honly other (.tail _ hother)

section

variable (htarget : OneTarget casefold events)

include htarget

theorem Newest.settles {deliveries : List Delivery} (hnewest : Newest events newest)
    (hranked : Ranked events) (hready : Ready casefold events db)
    (hfound : db.restrictions.get? (newest.key casefold) = none ∨
      ∃ event ∈ events, OnFile casefold ownFingerprint db event)
    (honly : ∀ delivery ∈ deliveries, delivery.event ∈ events ∧ delivery.event.made ≤ delivery.arrived)
    (hcomes : ∃ delivery ∈ deliveries, delivery.event = newest) :
    OnFile casefold ownFingerprint (deliverAll casefold ownFingerprint db deliveries) newest := by
  induction deliveries generalizing db with
  | nil =>
    obtain ⟨delivery, hmem, -⟩ := hcomes
    cases hmem
  | cons delivery rest ih =>
    obtain ⟨hevent, hmade⟩ := honly delivery (.head _)
    have hrest : ∀ other ∈ rest, other.event ∈ events ∧ other.event.made ≤ other.arrived :=
      fun other hother => honly other (.tail _ hother)
    obtain ⟨hready', hafter⟩ :=
      @deliver_ready casefold ownFingerprint events db delivery htarget hready hevent hmade
    by_cases hnow : delivery.event = newest
    · apply @Newest.stays casefold ownFingerprint _ _ _ rest htarget hnewest hready' _ hrest
      unfold OnFile
      rw [hnow] at hafter
      rcases hfound with hnone | ⟨held, hheld, honFile⟩
      · rw [hafter, hnone]
        rfl
      · unfold OnFile at honFile
        rw [htarget.sameKey _ hheld _ hnewest.1] at honFile
        rw [hafter, honFile]
        by_cases hsame : held = newest
        · rw [hsame]
          split <;> rfl
        · rw [if_pos (hnewest.replaces_of_ranked htarget hranked hheld hsame)]
    · apply ih hready' _ hrest
      · obtain ⟨later, hlater, hcome⟩ := hcomes
        rcases mem_cons.mp hlater with rfl | hlater
        · exact absurd hcome hnow
        · exact ⟨later, hlater, hcome⟩
      · rw [htarget.sameKey _ hevent _ hnewest.1] at hafter
        rw [hafter]
        split
        · right
          refine ⟨delivery.event, hevent, ?_⟩
          unfold OnFile
          rw [htarget.sameKey _ hevent _ hnewest.1, hafter]
          rename_i hreplaces
          rw [if_pos hreplaces]
        · rename_i hrefused
          rcases hfound with hnone | ⟨held, hheld, honFile⟩
          · exact .inl hnone
          · right
            refine ⟨held, hheld, ?_⟩
            unfold OnFile at honFile ⊢
            rw [htarget.sameKey _ hheld _ hnewest.1] at honFile ⊢
            rw [hafter, if_neg hrefused]
            exact honFile

theorem Newest.stays_of_ranked
    (hnewest : Newest events newest) (hranked : Ranked events) : Stays events newest := by
  have hlift : (∀ origin, Newest (ofOrigin events) origin → origin.imposes = false) →
      Stays events newest := fun hlifted => .inr ⟨hlifted, hnewest⟩
  rcases hranked with ⟨event, hevent, horigin⟩ | hlifted
  · obtain rfl := hevent.unique htarget hnewest
    have hnewestOrigin : Newest (ofOrigin events) event :=
      ⟨Finset.mem_filter.mpr ⟨hevent.1, horigin⟩,
        fun other hother => hevent.2 other (Finset.mem_filter.mp hother).1⟩
    cases himposes : event.imposes with
    | true => exact .inl ⟨hnewestOrigin, himposes⟩
    | false =>
      apply hlift
      intro origin hother
      rw [hother.unique_origin htarget hnewestOrigin]
      exact himposes
  · apply hlift
    intro origin hother
    obtain ⟨hmem, horigin⟩ := Finset.mem_filter.mp hother.1
    exact hlifted origin hmem horigin

theorem OnFile.unique {a b : ChannelRestriction}
    (ha : a ∈ events) (hb : b ∈ events) (hfileA : OnFile casefold ownFingerprint db a)
    (hfileB : OnFile casefold ownFingerprint db b) : a = b := by
  unfold OnFile at hfileA hfileB
  rw [htarget.sameKey a ha b hb, hfileB] at hfileA
  exact htarget.distinct a ha b hb
    (congrArg RestrictionRow.contentId (Option.some.inj hfileA)).symm

end

theorem other_stays {absent : ChannelRestriction} {deliveries : List Delivery}
    (htarget : OneTarget casefold events) (hready : Ready casefold events db)
    (hfound : ∃ held ∈ events, held ≠ absent ∧ OnFile casefold ownFingerprint db held)
    (honly : ∀ delivery ∈ deliveries, delivery.event ∈ events ∧ delivery.event ≠ absent ∧
      delivery.event.made ≤ delivery.arrived) :
    ∃ held ∈ events, held ≠ absent ∧
      OnFile casefold ownFingerprint (deliverAll casefold ownFingerprint db deliveries) held := by
  induction deliveries generalizing db with
  | nil => exact hfound
  | cons delivery rest ih =>
    obtain ⟨hevent, hother, hmade⟩ := honly delivery (.head _)
    obtain ⟨hready', hafter⟩ :=
      @deliver_ready casefold ownFingerprint events db delivery htarget hready hevent hmade
    apply ih hready' _ fun other hmem => honly other (.tail _ hmem)
    by_cases hreplaces : replaces (db.restrictions.get? (delivery.event.key casefold))
        (delivery.event.row ownFingerprint delivery.event.made) delivery.now = true
    · rw [if_pos hreplaces] at hafter
      exact ⟨delivery.event, hevent, hother, hafter⟩
    · rw [if_neg hreplaces] at hafter
      obtain ⟨held, hheld, hne, honFile⟩ := hfound
      refine ⟨held, hheld, hne, ?_⟩
      unfold OnFile at honFile ⊢
      rw [htarget.sameKey _ hheld _ hevent] at honFile ⊢
      rw [hafter]
      exact honFile

def deliveriesAt (moment : Nat) (order : List ChannelRestriction) : List Delivery :=
  order.map fun event => ⟨event, moment, moment⟩

theorem deliver_deliveriesAt {moment : Nat} {order : List ChannelRestriction}
    (hmoment : ∀ event ∈ events, event.made ≤ moment ∧ ¬event.endedAt moment)
    (horder : ∀ event, event ∈ order ↔ event ∈ events) :
    Deliver events (deliveriesAt moment order) where
  all event hevent :=
    ⟨_, mem_map.mpr ⟨event, (horder event).mpr hevent, rfl⟩, rfl⟩
  only delivery hdelivery := by
    obtain ⟨event, hevent, rfl⟩ := mem_map.mp hdelivery
    exact (horder event).mp hevent
  made delivery hdelivery := by
    obtain ⟨event, hevent, rfl⟩ := mem_map.mp hdelivery
    exact (hmoment event ((horder event).mp hevent)).1
  running delivery hdelivery event hevent := by
    obtain ⟨other, -, rfl⟩ := mem_map.mp hdelivery
    exact (hmoment event hevent).2

def vacantDb : ChannelDb := { carried := fun _ => true, restrictions := .empty }

theorem vacantDb_vacant : Vacant casefold events vacantDb where
  carried _ _ := rfl
  none _ _ := rfl
  room _ _ := Nat.zero_lt_succ _

theorem onFile_first {event : ChannelRestriction} {moment : Nat}
    (htarget : OneTarget casefold events) (hevent : event ∈ events) (hmade : event.made ≤ moment) :
    Ready casefold events (deliver casefold ownFingerprint vacantDb ⟨event, moment, moment⟩) ∧
      OnFile casefold ownFingerprint
        (deliver casefold ownFingerprint vacantDb ⟨event, moment, moment⟩) event :=
  @deliver_ready casefold ownFingerprint events vacantDb ⟨event, moment, moment⟩ htarget
    vacantDb_vacant.ready hevent hmade

theorem not_settles {origin : ChannelRestriction} (htarget : OneTarget casefold events)
    (hnewest : Newest events newest) (hdelegate : newest.isOrigin = false)
    (horigin : origin ∈ events) (hisOrigin : origin.isOrigin = true)
    (himposes : origin.imposes = true) : ¬Settles casefold ownFingerprint events := by
  classical
  intro hsettles
  obtain ⟨moment, hmoment⟩ := htarget.timely
  have hne : origin ≠ newest := by
    rintro rfl
    rw [hisOrigin] at hdelegate
    cases hdelegate
  have hat : ∀ order : List ChannelRestriction, (∀ event ∈ order, event ∈ events) →
      ∀ delivery ∈ deliveriesAt moment order, delivery.event ∈ order ∧ delivery.event ∈ events ∧
        delivery.event.made ≤ delivery.arrived := by
    intro order horder delivery hdelivery
    obtain ⟨event, hevent, rfl⟩ := mem_map.mp hdelivery
    exact ⟨hevent, horder event hevent, (hmoment event (horder event hevent)).1⟩
  -- The newest first: it stays.
  have hfirst : OnFile casefold ownFingerprint (deliverAll casefold ownFingerprint vacantDb
      (deliveriesAt moment (newest :: events.toList))) newest := by
    obtain ⟨hready, honFile⟩ :=
      @onFile_first casefold ownFingerprint events newest moment htarget hnewest.1
        (hmoment _ hnewest.1).1
    apply @Newest.stays casefold ownFingerprint _ _ _ (deliveriesAt moment events.toList)
      htarget hnewest hready honFile
    intro delivery hdelivery
    exact (hat events.toList (fun event => Finset.mem_toList.mp) delivery hdelivery).2
  -- The origin's first: the newest is refused, and does not come again.
  have hsecond : ∃ held ∈ events, held ≠ newest ∧ OnFile casefold ownFingerprint
      (deliverAll casefold ownFingerprint vacantDb
        (deliveriesAt moment (origin :: newest :: events.toList.filter (· ≠ newest)))) held := by
    obtain ⟨hready, honFile⟩ :=
      @onFile_first casefold ownFingerprint events origin moment htarget horigin
        (hmoment _ horigin).1
    obtain ⟨hready', hafter⟩ := @deliver_ready casefold ownFingerprint events _
      ⟨newest, moment, moment⟩ htarget hready hnewest.1 (hmoment _ hnewest.1).1
    have hrefused : replaces (some (origin.row ownFingerprint origin.made))
        (newest.row ownFingerprint newest.made) moment = false := by
      unfold replaces
      simp only
      rw [if_pos ⟨hisOrigin, hdelegate, inForce_of_running himposes (hmoment _ horigin).2⟩]
    have hkept : OnFile casefold ownFingerprint
        (deliver casefold ownFingerprint (deliver casefold ownFingerprint vacantDb ⟨origin, moment, moment⟩)
          ⟨newest, moment, moment⟩) origin := by
      unfold OnFile at honFile ⊢
      rw [htarget.sameKey _ horigin _ hnewest.1] at honFile ⊢
      rw [hafter]
      simp only [honFile, hrefused, Bool.false_eq_true, if_false]
    apply @other_stays casefold ownFingerprint _ _ _
      (deliveriesAt moment (events.toList.filter (· ≠ newest))) htarget hready' ⟨origin, horigin, hne, hkept⟩
    intro delivery hdelivery
    obtain ⟨hlisted, hmem, hmade⟩ := hat (events.toList.filter (· ≠ newest))
      (fun event hevent => Finset.mem_toList.mp (mem_of_mem_filter hevent)) delivery hdelivery
    exact ⟨hmem, of_decide_eq_true (mem_filter.mp hlisted).2, hmade⟩
  obtain ⟨a, hstaysA, hfileA⟩ := hsettles vacantDb vacantDb_vacant _
    (@deliver_deliveriesAt events moment (newest :: events.toList) hmoment (by
      intro event
      rw [mem_cons, Finset.mem_toList]
      exact ⟨fun h => h.elim (fun hsame => hsame ▸ hnewest.1) id, .inr⟩))
  obtain ⟨b, hstaysB, hfileB⟩ := hsettles vacantDb vacantDb_vacant _
    (@deliver_deliveriesAt events moment (origin :: newest :: events.toList.filter (· ≠ newest))
      hmoment (by
        intro event
        simp only [mem_cons, mem_filter, Finset.mem_toList, decide_eq_true_eq]
        constructor
        · rintro (rfl | rfl | ⟨hmem, -⟩)
          · exact horigin
          · exact hnewest.1
          · exact hmem
        · intro hmem
          by_cases hsame : event = newest
          · exact .inr (.inl hsame)
          · exact .inr (.inr ⟨hmem, hsame⟩)))
  obtain ⟨held, hheld, hother, hfile⟩ := hsecond
  have hisNewest : a = newest := OnFile.unique htarget hstaysA.mem hnewest.1 hfileA hfirst
  have hisHeld : b = held := OnFile.unique htarget hstaysB.mem hheld hfileB hfile
  exact hother (hisHeld.symm.trans ((hstaysB.unique htarget hstaysA).trans hisNewest))

/-- The restriction in force does not depend on the order exactly where the origin imposed none, or
made the newest. -/
theorem settles_iff (casefold : String → String) (ownFingerprint : Option String)
    (events : Finset ChannelRestriction) (htarget : OneTarget casefold events) :
    Settles casefold ownFingerprint events ↔ Ranked events := by
  obtain ⟨newest, hnewest⟩ := exists_newest htarget.nonempty
  constructor
  · intro hsettles
    cases horigin : newest.isOrigin with
    | true => exact .inl ⟨newest, hnewest, horigin⟩
    | false =>
      right
      intro event hevent hisOrigin
      cases himposes : event.imposes with
      | false => rfl
      | true =>
        exact absurd hsettles (not_settles htarget hnewest horigin hevent hisOrigin himposes)
  · intro hranked db hvacant deliveries hdeliver
    refine ⟨newest, hnewest.stays_of_ranked htarget hranked, ?_⟩
    apply hnewest.settles htarget hranked hvacant.ready (.inl (hvacant.none _ hnewest.1))
    · exact fun delivery hmem => ⟨hdeliver.only delivery hmem, hdeliver.made delivery hmem⟩
    · exact hdeliver.all newest hnewest.1

def originBan : ChannelRestriction :=
  { contentId := "origin"
    channelId := "channel"
    homeNodeFingerprint := "home"
    localUserId := "user"
    kind := .ban
    imposes := true
    until' := .forever
    reason := none
    createdAt := some 1
    isOrigin := true }

def delegateBan : ChannelRestriction :=
  { originBan with contentId := "delegate", createdAt := some 2, isOrigin := false }

private theorem bans_oneTarget : OneTarget id {originBan, delegateBan} where
  nonempty := ⟨originBan, by simp⟩
  sameKey := by
    intro a ha b hb
    simp only [Finset.mem_insert, Finset.mem_singleton] at ha hb
    rcases ha with rfl | rfl <;> rcases hb with rfl | rfl <;> rfl
  distinct := by
    intro a ha b hb h
    simp only [Finset.mem_insert, Finset.mem_singleton] at ha hb
    rcases ha with rfl | rfl <;> rcases hb with rfl | rfl <;> first | rfl | exact absurd h (by decide)
  dated := by
    intro event hevent
    simp only [Finset.mem_insert, Finset.mem_singleton] at hevent
    rcases hevent with rfl | rfl <;> decide
  timely := by
    refine ⟨2, ?_⟩
    intro event hevent
    simp only [Finset.mem_insert, Finset.mem_singleton] at hevent
    rcases hevent with rfl | rfl
    · exact ⟨by decide, fun ⟨moment, h, _⟩ => nomatch h⟩
    · exact ⟨by decide, fun ⟨moment, h, _⟩ => nomatch h⟩

theorem bans_settle_iff :
    Settles id none {originBan, delegateBan} ↔ Ranked {originBan, delegateBan} :=
  settles_iff id none {originBan, delegateBan} bans_oneTarget

private theorem delegateBan_newest : Newest {originBan, delegateBan} delegateBan := by
  refine ⟨by simp, ?_⟩
  intro other hother
  simp only [Finset.mem_insert, Finset.mem_singleton] at hother
  rcases hother with rfl | rfl
  · exact (Prod.Lex.toLex_lt_toLex.mpr (.inl (by decide))).le
  · exact le_rfl

/-- The delegate's ban stays where it comes first. -/
theorem bans_unsettled : ¬∀ (casefold : String → String) (ownFingerprint : Option String)
    (events : Finset ChannelRestriction), OneTarget casefold events →
    Settles casefold ownFingerprint events := by
  intro h
  have horigin : originBan ∈ ({originBan, delegateBan} : Finset ChannelRestriction) := by simp
  exact not_settles bans_oneTarget delegateBan_newest rfl horigin rfl rfl
    (h id none _ bans_oneTarget)

end NetBBS.Channels
