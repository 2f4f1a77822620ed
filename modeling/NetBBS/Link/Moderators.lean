import Mathlib.Data.List.Pairwise
import Mathlib.Data.Prod.Lex
import Mathlib.Order.WithBot
import NetBBS.Foundation.Register
import NetBBS.Link.Sample

/-! # The roster of moderators in force -/

namespace NetBBS

open Foundation List Option

variable {env : Env}

structure AcceptedRoster (env : Env) where
  event : Filed env
  origin : String
  entries : List RosterEntry
  named : event.field "origin_fingerprint" = .str origin
  read : readRoster (event.field "entries") = .ok (.ok entries)

namespace AcceptedRoster

def ofEvent? (event : Filed env) : Option (AcceptedRoster env) :=
  match named : event.field "origin_fingerprint", read : readRoster (event.field "entries") with
  | .str origin, .ok (.ok entries) => some ⟨event, origin, entries, named, read⟩
  | _, _ => none

def createdAt (roster : AcceptedRoster env) : Json := roster.event.field "created_at"

def effectiveAt (roster : AcceptedRoster env) (now : Int) : String :=
  effectiveTime env roster.createdAt now

def SameEvent (a b : AcceptedRoster env) : Prop := a.event.event.envelope = b.event.event.envelope

def InTime (roster : AcceptedRoster env) (now : Int) : Prop :=
  roster.createdAt.isStr = true ∧
    ∃ made ∈ (parseUtcIso env roster.createdAt).toOption, made ≤ now + linkEventFutureSkewMicros

instance (roster : AcceptedRoster env) (now : Int) : Decidable (roster.InTime now) :=
  inferInstanceAs (Decidable (_ ∧ _))

end AcceptedRoster

structure RosterRow (env : Env) where
  roster : AcceptedRoster env
  effectiveAt : String
  receivedAt : String

structure HeldGrant where
  localUserId : String
  scope : RosterScope
  permissions : List String

structure RosterTables (env : Env) where
  linkModeratorRosters : Dict String (RosterRow env) := .empty
  linkModeratorHeld : Dict String (List HeldGrant) := .empty

inductive RosterOutcome where
  | stale | stored

def heldGrants (ownFingerprint : String) (entries : List RosterEntry) : List HeldGrant :=
  (entries.filter fun e => e.homeNodeFingerprint = ownFingerprint).map fun e =>
    { localUserId := e.localUserId, scope := e.scope, permissions := e.permissions }

/-- `(a, b) < (c, d)`, of an effective time and a content ID. -/
def newerRoster (held new : String × String) : Prop :=
  held.1 < new.1 ∨ (held.1 = new.1 ∧ held.2 < new.2)

instance (held new : String × String) : Decidable (newerRoster held new) :=
  inferInstanceAs (Decidable (_ ∨ _))

def storeReceivedRoster (tables : RosterTables env) (ownFingerprint : Option String)
    (roster : AcceptedRoster env) (arrived : Int) : RosterOutcome × RosterTables env :=
  let effective := roster.effectiveAt arrived
  let row : RosterRow env := { roster, effectiveAt := effective, receivedAt := env.utcIso arrived }
  let stored : RosterTables env :=
    { linkModeratorRosters := tables.linkModeratorRosters.set roster.origin row
      linkModeratorHeld := match ownFingerprint with
        | some own =>
          if roster.origin ≠ own then
            tables.linkModeratorHeld.set roster.origin (heldGrants own roster.entries)
          else tables.linkModeratorHeld
        | none => tables.linkModeratorHeld }
  match tables.linkModeratorRosters.get? roster.origin with
  | some current =>
    if newerRoster (current.effectiveAt, current.roster.event.contentId)
        (effective, roster.event.contentId) then (.stored, stored)
    else (.stale, tables)
  | none => (.stored, stored)

structure RosterDelivery (env : Env) where
  roster : AcceptedRoster env
  arrived : Int

namespace RosterDelivery

def row (delivery : RosterDelivery env) : RosterRow env where
  roster := delivery.roster
  effectiveAt := delivery.roster.effectiveAt delivery.arrived
  receivedAt := env.utcIso delivery.arrived

end RosterDelivery

def deliverRosters (tables : RosterTables env) (ownFingerprint : Option String)
    (deliveries : List (RosterDelivery env)) : RosterTables env :=
  deliveries.foldl (fun tables d =>
    (storeReceivedRoster tables ownFingerprint d.roster d.arrived).2) tables

def RosterRow.inMemory (row : RosterRow env) : ModeratorRoster where
  effectiveAt := row.effectiveAt
  contentId := row.roster.event.contentId
  entries := row.roster.entries

def recordRosters (rosters : Dict String ModeratorRoster)
    (deliveries : List (RosterDelivery env)) : Dict String ModeratorRoster :=
  deliveries.foldl (fun rosters d =>
    recordModeratorRoster rosters d.roster.origin d.row.inMemory) rosters

abbrev RosterInForce (env : Env) := Register (WithBot (String ×ₗ String)) (Option (RosterRow env))

def RosterRow.stamp (row : RosterRow env) : String ×ₗ String :=
  toLex (row.effectiveAt, row.roster.event.contentId)

def rosterInForce (row : Option (RosterRow env)) : RosterInForce env where
  value := row
  stamp := row.map RosterRow.stamp

private theorem yields_row (held : Option (RosterRow env)) (row : RosterRow env) :
    (rosterInForce held).Yields (rosterInForce (some row)).stamp ↔
      ∀ current ∈ held, newerRoster (current.effectiveAt, current.roster.event.contentId)
        (row.effectiveAt, row.roster.event.contentId) := by
  unfold Register.Yields rosterInForce
  cases held with
  | none => exact ⟨fun _ current h => absurd h (by simp), fun _ => .inl rfl⟩
  | some current =>
    have hlt : ((current.stamp : WithBot (String ×ₗ String)) < row.stamp) ↔
        newerRoster (current.effectiveAt, current.roster.event.contentId)
          (row.effectiveAt, row.roster.event.contentId) :=
      WithBot.coe_lt_coe.trans Prod.Lex.toLex_lt_toLex
    constructor
    · rintro (hbot | h) other hother
      · exact absurd hbot (WithBot.coe_ne_bot)
      · rw [mem_some_iff] at hother
        exact hother ▸ hlt.mp h
    · exact fun h => .inr (hlt.mpr (h current rfl))

theorem storeReceivedRoster_inForce (tables : RosterTables env) (ownFingerprint : Option String)
    (delivery : RosterDelivery env) (origin : String) :
    rosterInForce ((storeReceivedRoster tables ownFingerprint delivery.roster
        delivery.arrived).2.linkModeratorRosters.get? origin) =
      if delivery.roster.origin = origin then
        (rosterInForce (tables.linkModeratorRosters.get? origin)).write
          (rosterInForce (some delivery.row))
      else rosterInForce (tables.linkModeratorRosters.get? origin) := by
  unfold storeReceivedRoster
  by_cases horigin : delivery.roster.origin = origin
  · subst horigin
    rw [if_pos rfl, Register.write]
    simp only [yields_row]
    cases hcurrent : tables.linkModeratorRosters.get? delivery.roster.origin with
    | none => simp [RosterDelivery.row]
    | some current =>
      simp only [mem_some_iff, forall_eq', RosterDelivery.row]
      split <;> simp [hcurrent]
  · rw [if_neg horigin]
    cases hcurrent : tables.linkModeratorRosters.get? delivery.roster.origin with
    | none => simp [horigin]
    | some current =>
      simp only
      split <;> simp [horigin]

theorem deliverRosters_inForce (deliveries : List (RosterDelivery env))
    (tables : RosterTables env) (ownFingerprint : Option String) (origin : String) :
    rosterInForce ((deliverRosters tables ownFingerprint deliveries).linkModeratorRosters.get? origin) =
      ((deliveries.filter fun d => d.roster.origin = origin).map fun d =>
        rosterInForce (some d.row)).foldl Register.write
          (rosterInForce (tables.linkModeratorRosters.get? origin)) := by
  unfold deliverRosters
  induction deliveries generalizing tables with
  | nil => rfl
  | cons delivery rest ih =>
    rw [foldl_cons, ih, storeReceivedRoster_inForce]
    by_cases horigin : delivery.roster.origin = origin
    · rw [if_pos horigin, filter_cons_of_pos (by simpa using horigin), map_cons,
        foldl_cons]
    · rw [if_neg horigin, filter_cons_of_neg (by simpa using horigin)]

variable {deliveries : List (RosterDelivery env)} {origin : String}

theorem inForce_delivered {tables : RosterTables env}
    {ownFingerprint : Option String} {row : RosterRow env}
    (hempty : tables.linkModeratorRosters.get? origin = none)
    (hrow : (deliverRosters tables ownFingerprint deliveries).linkModeratorRosters.get? origin = some row) :
    ∃ d ∈ deliveries, d.row = row := by
  have hrun := deliverRosters_inForce deliveries tables ownFingerprint origin
  rw [hrow, hempty] at hrun
  rcases Register.foldl_write_cases ((deliveries.filter fun d => d.roster.origin = origin).map
    fun d => rosterInForce (some d.row)) (rosterInForce none) with hdecisive | ⟨hsame, -⟩
  · have hmem := hdecisive.mem
    rw [← hrun] at hmem
    obtain ⟨d, hd, hvalue⟩ := mem_map.mp hmem
    have hvalue' := congrArg Register.value hvalue
    simp only [rosterInForce, Option.some.injEq] at hvalue'
    exact ⟨d, (mem_filter.mp hd).1, hvalue'⟩
  · have hvalue := congrArg Register.value (hrun.trans hsame)
    simp [rosterInForce] at hvalue

theorem inForce_replaced (first second : List (RosterDelivery env)) (tables : RosterTables env)
    (ownFingerprint : Option String) {a b : RosterRow env}
    (ha : (deliverRosters tables ownFingerprint first).linkModeratorRosters.get? origin = some a)
    (hb : (deliverRosters tables ownFingerprint (first ++ second)).linkModeratorRosters.get?
      origin = some b) : a = b ∨ a.stamp < b.stamp := by
  have happend : deliverRosters tables ownFingerprint (first ++ second) =
      deliverRosters (deliverRosters tables ownFingerprint first) ownFingerprint second :=
    foldl_append
  rw [happend] at hb
  have hrun := deliverRosters_inForce second (deliverRosters tables ownFingerprint first)
    ownFingerprint origin
  rw [ha, hb] at hrun
  rcases Register.foldl_write_cases ((second.filter fun d => d.roster.origin = origin).map
    fun d => rosterInForce (some d.row)) (rosterInForce (some a)) with hdecisive | ⟨hsame, -⟩
  · have hyields := hdecisive.yields
    rw [← hrun] at hyields
    rcases hyields with hbot | hlt
    · exact absurd hbot WithBot.coe_ne_bot
    · exact .inr (WithBot.coe_lt_coe.mp hlt)
  · have hvalue := congrArg Register.value (hrun.trans hsame)
    simp only [rosterInForce, Option.some.injEq] at hvalue
    exact .inl hvalue.symm

theorem AcceptedRoster.InTime.effectiveAt_eq {roster again : AcceptedRoster env}
    {arrived later : Int} (h : roster.InTime arrived) (hsame : roster.SameEvent again)
    (hlater : arrived ≤ later) :
    roster.effectiveAt arrived = again.effectiveAt later := by
  obtain ⟨hstr, made, hmade, hskew⟩ := h
  rw [mem_def, toOption_eq_some] at hmade
  have hcreated : again.createdAt = roster.createdAt := by
    unfold AcceptedRoster.createdAt Filed.field
    rw [hsame]
  have heffective : ∀ now, arrived ≤ now →
      effectiveTime env roster.createdAt now = env.utcIso made := by
    intro now hnow
    obtain ⟨text, htext⟩ : ∃ text, roster.createdAt = .str text := by
      cases hvalue : roster.createdAt with
      | str text => exact ⟨text, rfl⟩
      | _ => simp [hvalue, Json.isStr] at hstr
    rw [htext] at hmade ⊢
    unfold effectiveTime
    simp only [hmade]
    rw [if_neg (by omega)]
  unfold AcceptedRoster.effectiveAt
  rw [hcreated, heffective arrived le_rfl, heffective later hlater]

def OnlyTimelyReturn (deliveries : List (RosterDelivery env)) : Prop :=
  deliveries.Pairwise fun d again =>
    d.roster.SameEvent again.roster → d.roster.InTime d.arrived

private theorem SameEvent.contentId {a b : AcceptedRoster env} (h : a.SameEvent b) :
    a.event.contentId = b.event.contentId := by
  have ha := a.event.addressed
  have hb := b.event.addressed
  unfold SignedEvent.contentId at ha hb
  rw [h] at ha
  exact Except.ok.inj (ha.symm.trans hb)

private theorem same_stamp
    (hsorted : deliveries.Pairwise fun d later => d.arrived ≤ later.arrived)
    (htimely : OnlyTimelyReturn deliveries) :
    ∀ ⦃d⦄, d ∈ deliveries → ∀ ⦃again⦄, again ∈ deliveries → d.roster.SameEvent again.roster →
      d.row.stamp = again.row.stamp := by
  have hpairs : deliveries.Pairwise fun d again =>
      d.roster.SameEvent again.roster → d.row.stamp = again.row.stamp := by
    refine (hsorted.and htimely).imp ?_
    rintro d again ⟨hlater, htime⟩ hsame
    have heffective := (htime hsame).effectiveAt_eq hsame hlater
    unfold RosterRow.stamp RosterDelivery.row
    rw [heffective, SameEvent.contentId hsame]
  have hsymm : Std.Symm fun d again : RosterDelivery env =>
      d.roster.SameEvent again.roster → d.row.stamp = again.row.stamp :=
    ⟨fun d again h hsame => (h hsame.symm).symm⟩
  exact List.Pairwise.forall_of_forall (fun _ _ _ => rfl) hpairs

private theorem recordModeratorRoster_cases (rosters : Dict String ModeratorRoster)
    (origin : String) (roster : ModeratorRoster) :
    ((∀ held ∈ rosters.get? origin, newerRoster (held.effectiveAt, held.contentId)
        (roster.effectiveAt, roster.contentId)) ∧
      recordModeratorRoster rosters origin roster = rosters.set origin roster) ∨
    (∃ held ∈ rosters.get? origin, ¬newerRoster (held.effectiveAt, held.contentId)
        (roster.effectiveAt, roster.contentId)) ∧
      recordModeratorRoster rosters origin roster = rosters := by
  unfold recordModeratorRoster
  cases hheld : rosters.get? origin with
  | none => exact .inl ⟨by simp, rfl⟩
  | some held =>
    simp only
    split
    · rename_i hnewer
      refine .inl ⟨fun other hother => ?_, rfl⟩
      rw [mem_some_iff] at hother
      exact hother ▸ hnewer
    · rename_i holder
      exact .inr ⟨⟨held, rfl, holder⟩, rfl⟩

private theorem storeReceivedRoster_cases (tables : RosterTables env)
    (ownFingerprint : Option String) (delivery : RosterDelivery env) :
    let stored := (storeReceivedRoster tables ownFingerprint delivery.roster
      delivery.arrived).2.linkModeratorRosters
    ((∀ held ∈ tables.linkModeratorRosters.get? delivery.roster.origin,
        newerRoster (held.effectiveAt, held.roster.event.contentId)
          (delivery.row.effectiveAt, delivery.roster.event.contentId)) ∧
      stored = tables.linkModeratorRosters.set delivery.roster.origin delivery.row) ∨
    (∃ held ∈ tables.linkModeratorRosters.get? delivery.roster.origin,
        ¬newerRoster (held.effectiveAt, held.roster.event.contentId)
          (delivery.row.effectiveAt, delivery.roster.event.contentId)) ∧
      stored = tables.linkModeratorRosters := by
  unfold storeReceivedRoster
  cases hheld : tables.linkModeratorRosters.get? delivery.roster.origin with
  | none => exact .inl ⟨by simp, rfl⟩
  | some held =>
    simp only
    split
    · rename_i hnewer
      refine .inl ⟨fun other hother => ?_, rfl⟩
      rw [mem_some_iff] at hother
      exact hother ▸ hnewer
    · rename_i holder
      exact .inr ⟨⟨held, rfl, holder⟩, rfl⟩

theorem recordRosters_eq (deliveries : List (RosterDelivery env)) (tables : RosterTables env)
    (ownFingerprint : Option String) (rosters : Dict String ModeratorRoster)
    (hsame : ∀ origin, rosters.get? origin =
      (tables.linkModeratorRosters.get? origin).map RosterRow.inMemory) (origin : String) :
    (recordRosters rosters deliveries).get? origin =
      ((deliverRosters tables ownFingerprint deliveries).linkModeratorRosters.get? origin).map
        RosterRow.inMemory := by
  unfold recordRosters deliverRosters
  induction deliveries generalizing tables rosters with
  | nil => exact hsame origin
  | cons delivery rest ih =>
    refine ih _ _ fun other => ?_
    rcases storeReceivedRoster_cases tables ownFingerprint delivery with
      ⟨hnewer, hstored⟩ | ⟨⟨held, hheld, holder⟩, hstored⟩
    · rcases recordModeratorRoster_cases rosters delivery.roster.origin delivery.row.inMemory with
        ⟨-, hrecorded⟩ | ⟨⟨held, hheld, holder⟩, -⟩
      · simp only [hstored, hrecorded, Dict.get?_set, hsame]
        split <;> rfl
      · rw [hsame] at hheld
        obtain ⟨row, hrow, rfl⟩ := mem_map.mp hheld
        exact absurd (hnewer row hrow) holder
    · rcases recordModeratorRoster_cases rosters delivery.roster.origin delivery.row.inMemory with
        ⟨hnewer, -⟩ | ⟨-, hrecorded⟩
      · have hmemory : held.inMemory ∈ rosters.get? delivery.roster.origin := by
          rw [hsame]
          exact mem_map_of_mem _ hheld
        exact absurd (hnewer held.inMemory hmemory) holder
      · simp only [hstored, hrecorded, hsame]

/-- In every series of deliveries in which only timely rosters return, a roster that was replaced
never comes back, and the rosters in memory are those on file. -/
theorem replaced_roster_stays_out (tables : RosterTables env) (ownFingerprint : Option String)
    (rosters : Dict String ModeratorRoster) (deliveries : List (RosterDelivery env))
    (hempty : tables.linkModeratorRosters = .empty) (hmemory : rosters = .empty)
    (hsorted : deliveries.Pairwise fun d later => d.arrived ≤ later.arrived)
    (htimely : OnlyTimelyReturn deliveries) :
    (∀ first second third : List (RosterDelivery env), deliveries = first ++ second ++ third → ∀ origin a b c,
        (deliverRosters tables ownFingerprint first).linkModeratorRosters.get? origin = some a →
        (deliverRosters tables ownFingerprint (first ++ second)).linkModeratorRosters.get? origin = some b →
        ¬a.roster.SameEvent b.roster →
        (deliverRosters tables ownFingerprint deliveries).linkModeratorRosters.get? origin = some c →
        ¬a.roster.SameEvent c.roster) ∧
    ∀ origin, (recordRosters rosters deliveries).get? origin =
      ((deliverRosters tables ownFingerprint deliveries).linkModeratorRosters.get? origin).map
        RosterRow.inMemory := by
  constructor
  · rintro first second third rfl origin a b c ha hb hne hc hback
    have hnone : tables.linkModeratorRosters.get? origin = none := by rw [hempty]; rfl
    obtain ⟨da, hda, rfl⟩ := inForce_delivered hnone ha
    obtain ⟨dc, hdc, rfl⟩ := inForce_delivered hnone hc
    have hreplaced : da.row.stamp < b.stamp := by
      rcases inForce_replaced first second tables ownFingerprint ha hb with rfl | hlt
      · exact absurd rfl hne
      · exact hlt
    have hkept : b.stamp ≤ dc.row.stamp := by
      rcases inForce_replaced (first ++ second) third tables ownFingerprint hb hc with rfl | hlt
      · exact le_rfl
      · exact hlt.le
    have hsame : da.row.stamp = dc.row.stamp :=
      same_stamp hsorted htimely (by simp [hda]) hdc hback
    exact absurd (hreplaced.trans_le hkept) (hsame ▸ lt_irrefl _)
  · exact recordRosters_eq deliveries tables ownFingerprint rosters
      (by intro origin; rw [hempty, hmemory]; rfl)

section Sample

open Sample

/-- `utc_iso` of the instants the sample reads. -/
def clockText (micros : Int) : String :=
  ((clockReadings.find? fun reading => reading.2 = micros).map Prod.fst).getD ""

def clockEnv : Env := { Sample.env with utcIso := clockText }

def rosterDeliveries (times : List (String × Int)) : List (RosterDelivery clockEnv) :=
  times.filterMap fun (createdAt, arrived) => do
    let roster := raw "link_moderators" 1 [("origin_fingerprint", .str "origin"),
      ("entries", .arr []), ("created_at", .str createdAt)]
    let event ← (Filed.fromDict clockEnv roster).toOption
    let roster ← AcceptedRoster.ofEvent? event
    pure { roster, arrived }

def inForceSince (deliveries : List (RosterDelivery clockEnv)) : Option String :=
  ((deliverRosters {} none deliveries).linkModeratorRosters.get? "origin").bind
    fun row => row.roster.createdAt.str?

def timelyDeliveries : List (RosterDelivery clockEnv) :=
  rosterDeliveries [("2026-09-01T00:00:00+00:00", 63923817600000000),
    ("2026-09-01T00:04:00+00:00", 63923817600000000), ("2026-09-01T00:00:00+00:00", 63923817840000000)]

theorem replaced_roster_stays_out_timely :
    inForceSince timelyDeliveries = some "2026-09-01T00:04:00+00:00" ∧
      ∀ origin, (recordRosters .empty timelyDeliveries).get? origin =
        ((deliverRosters {} none timelyDeliveries).linkModeratorRosters.get? origin).map
          RosterRow.inMemory := by
  refine ⟨by decide +kernel, ?_⟩
  refine (replaced_roster_stays_out {} none .empty timelyDeliveries rfl rfl (by decide +kernel)
    ?_).2
  have htimely : ∀ d ∈ timelyDeliveries, d.roster.InTime d.arrived := by decide +kernel
  exact List.Pairwise.imp_of_mem (fun hd _ _ _ => htimely _ hd) (by decide +kernel :
    timelyDeliveries.Pairwise fun d again => d.arrived ≤ again.arrived)

/-- A roster dated ahead of the clock comes back once the clock has caught up with it. -/
theorem early_roster_returns :
    inForceSince (rosterDeliveries [("2026-09-01T00:05:00.000001+00:00", 63923817600000000)]) =
        some "2026-09-01T00:05:00.000001+00:00" ∧
      inForceSince (rosterDeliveries [("2026-09-01T00:05:00.000001+00:00", 63923817600000000),
        ("2026-09-01T00:04:00+00:00", 63923817600000000)]) = some "2026-09-01T00:04:00+00:00" ∧
      inForceSince (rosterDeliveries [("2026-09-01T00:05:00.000001+00:00", 63923817600000000),
        ("2026-09-01T00:04:00+00:00", 63923817600000000),
        ("2026-09-01T00:05:00.000001+00:00", 63923817840000000)]) =
          some "2026-09-01T00:05:00.000001+00:00" := by
  decide +kernel

end Sample

end NetBBS
