import NetBBS.Link.Sample
import NetBBS.Link.Trust.Wire
import NetBBS.Qwknet.Incoming

/-! # The spelling of an expiry -/

namespace NetBBS.Trust

open Foundation Qwknet List Option

def daysBeforeYear (year : Nat) : Nat :=
  365 * (year - 1) + (year - 1) / 4 - (year - 1) / 100 + (year - 1) / 400

def daysBeforeMonth (year month : Nat) : Nat :=
  ((List.range (month - 1)).map fun before => daysInMonth year (before + 1)).sum

def yearOf (day : Nat) : Nat :=
  Nat.findGreatest (fun year => daysBeforeYear year ≤ day) (day / 365 + 1)

def dayOfYear (day : Nat) : Nat := day - daysBeforeYear (yearOf day)

def monthOf (day : Nat) : Nat :=
  Nat.findGreatest (fun month => daysBeforeMonth (yearOf day) month ≤ dayOfYear day) 12

def dayOfMonth (day : Nat) : Nat := dayOfYear day - daysBeforeMonth (yearOf day) (monthOf day) + 1

def isoDate (day : Nat) (rest : Text) : Text :=
  padded 4 (yearOf day) ++ '-' :: (padded 2 (monthOf day) ++ '-' :: (padded 2 (dayOfMonth day) ++ rest))

def isoTime (time : Nat) : Text :=
  padded 2 (time / 3600000000) ++ ':' :: (padded 2 (time / 60000000 % 60) ++ ':' ::
    (padded 2 (time / 1000000 % 60) ++ '.' :: (padded 6 (time % 1000000) ++ ['Z'])))

/-- `utc_now_iso` at an instant: microseconds of UTC since the start of year 1. -/
def utcNowIso (instant : Nat) : String :=
  String.ofList (isoDate (instant / 86400000000) ('T' :: isoTime (instant % 86400000000)))

theorem padded_lt {width a b : Nat} (ha : a < 10 ^ width) (hb : b < 10 ^ width) (r s : Text) :
    padded width a ++ r < padded width b ++ s ↔ a < b ∨ a = b ∧ r < s := by
  have hdigit : ∀ c < 10, ∀ d < 10, (Nat.digitChar c < Nat.digitChar d ↔ c < d) ∧
      (Nat.digitChar c = Nat.digitChar d ↔ c = d) := by decide
  induction width generalizing a b r s with
  | zero =>
    rw [Nat.pow_zero] at ha hb
    have hsame : a = b := by omega
    simp [padded, hsame]
  | succ width ih =>
    rw [Nat.pow_succ] at ha hb
    obtain ⟨hless, hequal⟩ := hdigit (a % 10) (Nat.mod_lt _ (by decide)) (b % 10) (Nat.mod_lt _ (by decide))
    have hprefix := ih (a := a / 10) (b := b / 10) (by omega) (by omega)
      (Nat.digitChar (a % 10) :: r) (Nat.digitChar (b % 10) :: s)
    rw [padded, padded, append_assoc, append_assoc, singleton_append, singleton_append]
    refine hprefix.trans ?_
    rw [cons_lt_cons_iff, hless, hequal]
    by_cases hrest : r < s
    · simp only [hrest, and_true]
      omega
    · simp only [hrest, and_false, or_false]
      omega

theorem daysBeforeYear_yearOf_le (day : Nat) : daysBeforeYear (yearOf day) ≤ day :=
  Nat.findGreatest_spec (P := fun year => daysBeforeYear year ≤ day) (Nat.zero_le _) (Nat.zero_le _)

theorem lt_daysBeforeYear (day : Nat) : day < daysBeforeYear (yearOf day + 1) := by
  by_cases hbound : yearOf day + 1 ≤ day / 365 + 1
  · exact Nat.lt_of_not_le (Nat.findGreatest_is_greatest
      (P := fun year => daysBeforeYear year ≤ day) (Nat.lt_add_one _) hbound)
  · unfold daysBeforeYear
    omega

variable {day later : Nat}

theorem yearOf_mono (h : day ≤ later) : yearOf day ≤ yearOf later :=
  Nat.findGreatest_mono (fun _ hyear => Nat.le_trans hyear h) (by omega)

theorem daysBeforeMonth_monthOf_le (day : Nat) :
    daysBeforeMonth (yearOf day) (monthOf day) ≤ dayOfYear day :=
  Nat.findGreatest_spec (P := fun month => daysBeforeMonth (yearOf day) month ≤ dayOfYear day)
    (Nat.zero_le _) (Nat.zero_le _)

theorem yearOf_lt (h : day < 3652059) : yearOf day < 10000 := by
  have hle := daysBeforeYear_yearOf_le day
  unfold daysBeforeYear at hle
  omega

theorem monthOf_le (day : Nat) : monthOf day ≤ 12 := Nat.findGreatest_le 12

theorem dayOfMonth_lt (day : Nat) : dayOfMonth day < 100 := by
  unfold dayOfMonth
  by_cases hlast : monthOf day < 12
  · have hnext := Nat.findGreatest_is_greatest (Nat.lt_add_one (monthOf day)) hlast
    have hstep : daysBeforeMonth (yearOf day) (monthOf day + 1) ≤
        daysBeforeMonth (yearOf day) (monthOf day) + 31 := by
      unfold daysBeforeMonth
      cases hmonth : monthOf day with
      | zero => simp
      | succ month =>
        have hdays := daysInMonth_le (yearOf day) (month + 1)
        simp only [Nat.add_sub_cancel, range_succ, map_append, sum_append, map_cons,
          map_nil, sum_cons, sum_nil]
        omega
    omega
  · have hmonth : monthOf day = 12 := by
      have hle := monthOf_le day
      omega
    have hsum : 308 ≤ daysBeforeMonth (yearOf day) 12 := by
      unfold daysBeforeMonth daysInMonth
      cases isLeapYear (yearOf day) <;> decide
    have hyear := lt_daysBeforeYear day
    have hstep : daysBeforeYear (yearOf day + 1) ≤ daysBeforeYear (yearOf day) + 366 := by
      unfold daysBeforeYear
      omega
    rw [hmonth]
    unfold dayOfYear
    omega

theorem isoDate_lt (h : day < later) (hlast : later < 3652059) (r s : Text) :
    isoDate day r < isoDate later s := by
  unfold isoDate
  rw [padded_lt (yearOf_lt (by omega)) (yearOf_lt hlast)]
  rcases Nat.lt_or_eq_of_le (yearOf_mono (Nat.le_of_lt h)) with hyear | hyear
  · exact .inl hyear
  · refine .inr ⟨hyear, ?_⟩
    have hstart := daysBeforeYear_yearOf_le day
    have hof : dayOfYear day < dayOfYear later := by
      unfold dayOfYear
      rw [← hyear]
      omega
    have hmonths : monthOf day ≤ monthOf later := by
      unfold monthOf
      rw [hyear]
      exact Nat.findGreatest_mono (fun _ hmonth => Nat.le_trans hmonth (Nat.le_of_lt hof)) le_rfl
    have hshort : ∀ day, monthOf day < 10 ^ 2 := fun day => Nat.lt_of_le_of_lt (monthOf_le day) (by decide)
    rw [cons_lt_cons_self, padded_lt (hshort day) (hshort later)]
    rcases Nat.lt_or_eq_of_le hmonths with hmonth | hmonth
    · exact .inl hmonth
    · refine .inr ⟨hmonth, ?_⟩
      rw [cons_lt_cons_self, padded_lt (dayOfMonth_lt day) (dayOfMonth_lt later)]
      have hbefore := daysBeforeMonth_monthOf_le day
      left
      unfold dayOfMonth
      rw [← hyear, ← hmonth]
      omega

theorem isoTime_lt {time : Nat} (h : time < later) (hlast : later < 86400000000) :
    isoTime time < isoTime later := by
  unfold isoTime
  rw [padded_lt (by omega) (by omega), cons_lt_cons_self, padded_lt (by omega) (by omega),
    cons_lt_cons_self, padded_lt (by omega) (by omega), cons_lt_cons_self,
    padded_lt (by omega) (by omega)]
  omega

theorem utcNowIso_lt {instant : Nat} (h : instant < later) (hlast : (later : Int) ≤ maxInstant) :
    utcNowIso instant < utcNowIso later := by
  unfold maxInstant at hlast
  rw [String.lt_iff_toList_lt, utcNowIso, utcNowIso, String.toList_ofList, String.toList_ofList]
  by_cases hday : instant / 86400000000 < later / 86400000000
  · exact isoDate_lt hday (by omega) _ _
  · have hsame : instant / 86400000000 = later / 86400000000 := by omega
    unfold isoDate
    rw [hsame]
    have htime : isoTime (instant % 86400000000) < isoTime (later % 86400000000) :=
      isoTime_lt (by omega) (by omega)
    refine append_left_lt (cons_lt_cons_self.mpr (append_left_lt (cons_lt_cons_self.mpr
      (append_left_lt (cons_lt_cons_self.mpr htime)))))

theorem utcNowIso_le {instant : Nat} (h : instant ≤ later) (hlast : (later : Int) ≤ maxInstant) :
    utcNowIso instant ≤ utcNowIso later := by
  rcases Nat.lt_or_eq_of_le h with h | rfl
  · exact le_of_lt (utcNowIso_lt h hlast)
  · exact le_rfl

/-- `_parse_timestamp`; the `OverflowError` of an instant no `datetime` holds is a refusal, too. -/
def parseTimestamp (env : Env) (value : String) : Except TrustError Nat := do
  let parsed ← orRefuse (env.fromIsoformat (zuluAsOffset value))
    (.valueError "%s must be an ISO-8601 timestamp")
  refuseIf (parsed.utcOffset = none) (.valueError "%s must include a UTC offset")
  let instant ← orRefuse parsed.toUtc (.valueError "date value out of range")
  pure instant.toNat

structure SpelledOverride where
  overrideId : Nat
  subject : TrustSubject
  dimension : TrustDimension
  state : TrustState
  reason : String
  createdAt : String
  expiresAt : Option String
  clearedAt : Option String := none
deriving DecidableEq

/-- `UPDATE link_trust_overrides SET cleared_at = ?` of what is in force in a dimension of a subject. -/
def clearCurrent (overrides : List SpelledOverride) (subject : TrustSubject) (dimension : TrustDimension)
    (now : Nat) : List SpelledOverride :=
  overrides.map fun row =>
    if row.subject = subject ∧ row.dimension = dimension ∧ row.clearedAt = none then
      { row with clearedAt := some (utcNowIso now) }
    else row

def spellTrustOverride (env : Env) (inputs : TrustInputs) (overrides : List SpelledOverride)
    (subject : TrustSubject) (dimension : TrustDimension) (state : TrustState) (reason : String)
    (expiresAt : Option String) (now : Nat) : Except TrustError (SpelledOverride × List SpelledOverride) := do
  let subject := canonical inputs subject
  refuseIf (stripText reason = "") (.valueError "trust override reason must not be empty")
  let expiry ← expiresAt.mapM (parseTimestamp env)
  refuseIf (expiry.any (fun expiry => decide (expiry ≤ now)) = true)
    (.valueError "override expiry must be in the future")
  refuseIf (inputs.subjects.contains subject = false)
    (.valueError "trust subject must be registered before recording inputs")
  let row : SpelledOverride :=
    { overrideId := (overrides.map (·.overrideId)).foldl max 0 + 1
      subject, dimension, state, reason, expiresAt
      createdAt := utcNowIso now }
  pure (row, clearCurrent overrides subject dimension now ++ [row])

/-- `_active_override` as SQL decides it: an expiry has passed unless its text sorts behind the clock's. -/
def activeSpelled (overrides : List SpelledOverride) (subject : TrustSubject) (dimension : TrustDimension)
    (now : Nat) : Option SpelledOverride :=
  let active := overrides.filter fun row =>
    decide (row.subject = subject ∧ row.dimension = dimension ∧ row.clearedAt = none) &&
      row.expiresAt.all fun expiry => decide (utcNowIso now < expiry)
  (active.filter fun row => decide (row.state = .blocked)).getLast?.or active.getLast?

def SortsAsInstant (text : String) (instant : Nat) : Prop :=
  text ≤ utcNowIso instant ∧ ∀ before, before + 1 = instant → utcNowIso before < text

variable {now instant : Nat} {env : Env} {overrides : List SpelledOverride}
    {subject : TrustSubject} {dimension : TrustDimension} {row : SpelledOverride}

theorem sortsAsInstant_iff {text : String} (h : (instant : Int) ≤ maxInstant) :
    (∀ now : Nat, (now : Int) ≤ maxInstant → (utcNowIso now < text ↔ now < instant)) ↔
      SortsAsInstant text instant := by
  constructor
  · intro hall
    refine ⟨not_lt.mp fun hlate => ?_, fun before hbefore => ?_⟩
    · exact Nat.lt_irrefl _ ((hall instant h).mp hlate)
    · exact (hall before (by omega)).mpr (by omega)
  · rintro ⟨hown, hbefore⟩ now hnow
    constructor
    · intro hlate
      by_contra hpassed
      exact not_lt.mpr (hown.trans (utcNowIso_le (Nat.le_of_not_lt hpassed) hnow)) hlate
    · intro hlater
      refine lt_of_le_of_lt ?_ (hbefore (instant - 1) (by omega))
      exact utcNowIso_le (by omega) (by omega)

theorem parseTimestamp_le {value : String}
    (h : parseTimestamp env value = .ok instant) : (instant : Int) ≤ maxInstant := by
  simp only [parseTimestamp, bind_eq_ok, orRefuse_eq_ok, refuseIf_eq_ok, exists_const, pure_eq_ok] at h
  obtain ⟨parsed, -, -, utc, hutc, rfl⟩ := h
  simp only [WallTime.toUtc, ite_none_right_eq_some, Option.some.injEq] at hutc
  obtain ⟨hrange, rfl⟩ := hutc
  omega

theorem clearedAt_clearCurrent
        (h : row ∈ clearCurrent overrides subject dimension now) (hsubject : row.subject = subject)
    (hdimension : row.dimension = dimension) : row.clearedAt ≠ none := by
  obtain ⟨old, -, rfl⟩ := mem_map.mp h
  split at hsubject <;> rename_i hcurrent
  · simp [hcurrent]
  · rw [if_neg hcurrent] at hdimension ⊢
    exact fun hopen => hcurrent ⟨hsubject, hdimension, hopen⟩

variable {after : List SpelledOverride} {expiresAt : Option String}
variable {inputs : TrustInputs} {state : TrustState} {reason : String}

section

variable (h : spellTrustOverride env inputs overrides subject dimension state reason expiresAt now = .ok (row, after))

include h

theorem spellTrustOverride_eq_some :
    after = clearCurrent overrides (canonical inputs subject) dimension now ++ [row] ∧
      row.subject = canonical inputs subject ∧ row.dimension = dimension ∧ row.clearedAt = none ∧
        row.expiresAt = expiresAt := by
  simp only [spellTrustOverride, bind_eq_ok, refuseIf_eq_ok, exists_const, pure_eq_ok, Prod.mk.injEq] at h
  obtain ⟨-, expiry, -, -, -, rfl, rfl⟩ := h
  exact ⟨rfl, rfl, rfl, rfl, rfl⟩

theorem activeSpelled_spellTrustOverride
        (later : Nat) :
    activeSpelled after (canonical inputs subject) dimension later =
      if expiresAt.all (fun expiry => decide (utcNowIso later < expiry)) = true then some row else none := by
  obtain ⟨rfl, hsubject, hdimension, hcleared, hexpires⟩ := spellTrustOverride_eq_some h
  have hold : (clearCurrent overrides (canonical inputs subject) dimension now).filter (fun row =>
      decide (row.subject = canonical inputs subject ∧ row.dimension = dimension ∧ row.clearedAt = none) &&
        row.expiresAt.all fun expiry => decide (utcNowIso later < expiry)) = [] := by
    refine filter_eq_nil_iff.mpr fun old hmem hactive => ?_
    simp only [Bool.and_eq_true, decide_eq_true_eq] at hactive
    exact clearedAt_clearCurrent hmem hactive.1.1 hactive.1.2.1 hactive.1.2.2
  simp only [activeSpelled, filter_append, hold, nil_append, filter_singleton, hsubject,
    hdimension, hcleared, hexpires, and_self, decide_true, Bool.true_and]
  generalize expiresAt.all (fun expiry => decide (utcNowIso later < expiry)) = active
  cases active <;> by_cases hstate : row.state = .blocked <;> simp [hstate]

end

/-- An expiry is decided by its instant, at every reading of the clock, exactly where its text sorts as its
instant does: of an override and of a signal or vouch that counts toward its issuer's quota alike. -/
theorem expiry_by_instant_iff {env : Env} {expiresAt : String} {instant : Nat}
    (h : parseTimestamp env expiresAt = .ok instant) :
    (∀ (inputs : TrustInputs) (overrides after : List SpelledOverride) (subject : TrustSubject)
        (dimension : TrustDimension) (state : TrustState) (reason : String) (now : Nat)
        (row : SpelledOverride),
      spellTrustOverride env inputs overrides subject dimension state reason (some expiresAt) now =
        .ok (row, after) → ((∀ later : Nat, (later : Int) ≤ maxInstant →
          (activeSpelled after (canonical inputs subject) dimension later = some row ↔ later < instant)) ↔
        SortsAsInstant expiresAt instant)) ∧
      ∀ (host : WireHost) (db : WireDb) (row : WireRow), host.isoText = utcNowIso →
        row ∈ db.wireObjects.values → row.revoked = none → row.expiresAt = some expiresAt →
        ((∀ now : Nat, (now : Int) ≤ maxInstant →
            (row ∈ activeObjects host db row.issuerFingerprint row.objectType now ↔ now < instant)) ↔
          SortsAsInstant expiresAt instant) := by
  have hiff : (∀ now : Nat, (now : Int) ≤ maxInstant → (utcNowIso now < expiresAt ↔ now < instant)) ↔
      SortsAsInstant expiresAt instant :=
    sortsAsInstant_iff (parseTimestamp_le h)
  constructor
  · intro inputs overrides after subject dimension state reason now row hset
    simp only [activeSpelled_spellTrustOverride hset, all_some, decide_eq_true_eq,
      ite_none_right_eq_some, and_true]
    exact hiff
  · intro host db row hclock hmem hrevoked hexpires
    simp only [activeObjects, mem_filter, hmem, hrevoked, hexpires, hclock, true_and, and_self,
      decide_true, Bool.true_and, any_some, decide_eq_true_eq]
    exact hiff

def readings : List (String × WallTime) :=
  [("2026-09-01T12:00:00+00:00", ⟨63923860800000000, some 0⟩),
    ("2026-09-01T12:00:00-05:00", ⟨63923860800000000, some (-18000000000)⟩)]

def sampleEnv : Env := { Sample.env with fromIsoformat := fun s => readings.lookup s }

def registered : TrustInputs := { subjects := .ofList [(.node "peer", ⟨0, none⟩)] }

def blockUntil (expiresAt : String) : Except TrustError (SpelledOverride × List SpelledOverride) :=
  spellTrustOverride sampleEnv registered [] (.node "peer") .resourceBehavior .blocked "flood"
    (some expiresAt) 63923817600000000

def blockRow (expiresAt : String) : SpelledOverride :=
  ⟨1, .node "peer", .resourceBehavior, .blocked, "flood", "2026-09-01T00:00:00.000000Z", some expiresAt, none⟩

theorem expiry_by_instant_iff_noon :
    parseTimestamp sampleEnv "2026-09-01T12:00:00+00:00" = .ok 63923860800000000 ∧
      ∀ later : Nat, (later : Int) ≤ maxInstant →
        (activeSpelled [blockRow "2026-09-01T12:00:00+00:00"] (.node "peer") .resourceBehavior later =
            some (blockRow "2026-09-01T12:00:00+00:00") ↔ later < 63923860800000000) := by
  have hparsed : parseTimestamp sampleEnv "2026-09-01T12:00:00+00:00" = .ok 63923860800000000 := by
    decide +kernel
  have hset : blockUntil "2026-09-01T12:00:00+00:00" =
      .ok (blockRow "2026-09-01T12:00:00+00:00", [blockRow "2026-09-01T12:00:00+00:00"]) := by
    decide +kernel
  have hsorts : SortsAsInstant "2026-09-01T12:00:00+00:00" 63923860800000000 := by
    refine ⟨by decide +kernel, fun before hbefore => ?_⟩
    obtain rfl : before = 63923860799999999 := by omega
    decide +kernel
  exact ⟨hparsed, ((expiry_by_instant_iff hparsed).1 registered [] _ (.node "peer") .resourceBehavior
    .blocked "flood" 63923817600000000 _ hset).mpr hsorts⟩

/-- At one in the afternoon in UTC a block until noon in Chicago has four hours to go and has ended. -/
theorem expiry_not_by_instant :
    parseTimestamp sampleEnv "2026-09-01T12:00:00-05:00" = .ok 63923878800000000 ∧
      blockUntil "2026-09-01T12:00:00-05:00" =
        .ok (blockRow "2026-09-01T12:00:00-05:00", [blockRow "2026-09-01T12:00:00-05:00"]) ∧
      utcNowIso 63923864400000000 = "2026-09-01T13:00:00.000000Z" ∧
      ¬(activeSpelled [blockRow "2026-09-01T12:00:00-05:00"] (.node "peer") .resourceBehavior
          63923864400000000 = some (blockRow "2026-09-01T12:00:00-05:00") ↔
        63923864400000000 < 63923878800000000) ∧
      parseTimestamp sampleEnv "2026-09-01T12:00:00Z" = .ok 63923860800000000 ∧
      blockUntil "2026-09-01T12:00:00Z" =
        .ok (blockRow "2026-09-01T12:00:00Z", [blockRow "2026-09-01T12:00:00Z"]) ∧
      ¬(activeSpelled [blockRow "2026-09-01T12:00:00Z"] (.node "peer") .resourceBehavior
          63923860800500000 = some (blockRow "2026-09-01T12:00:00Z") ↔
        63923860800500000 < 63923860800000000) := by
  decide +kernel

end NetBBS.Trust
