import NetBBS.Link.Sample
import NetBBS.Link.Trust.UserRenames

/-! # Votes that come in late -/

namespace NetBBS.Polls

open Foundation Trust List Dict

def maxCountedVotersPerNode : Nat := 50
def maxVoterRowsPerPoll : Nat := 5000

structure Poll where
  optionCount : Nat
  maxChoices : Nat
  closesAt : String
  closedAt : Option String
  droppedVotes : Nat

structure VoteRow where
  id : Nat
  homeNode : Option String
  voterName : String
  choices : List Int
  votedAt : String
  eventId : Option String

structure BoardPollVote where
  contentId : String
  homeNode : String
  localUserId : String
  choices : List Int
  createdAt : String
  envelope : Json

structure Ballots where
  poll : Poll
  rows : List VoteRow
  linkEvents : Dict String Json

structure PollTally where
  counts : List Nat
  voters : Nat
  notCounted : Nat
deriving DecidableEq

variable (env : Env) (aliases : AliasDb)

/-- `parse_utc_iso` of a text; `none` where it raises `ValueError`. -/
def moment (text : String) : Option Int := (parseUtcIso env (.str text)).toOption

def laterVote (a b : Int × String) : Prop := b.1 < a.1 ∨ b.1 = a.1 ∧ b.2 < a.2

instance (a b : Int × String) : Decidable (laterVote a b) := by
  unfold laterVote
  infer_instance

def parseChoices (choices : List Int) (optionCount : Nat) : Option (List Int) :=
  if choices = [] ∨ (choices.any fun choice => decide (¬(0 ≤ choice ∧ choice < optionCount))) = true ∨
      ¬choices.Nodup then none
  else some (choices.insertionSort (· ≤ ·))

def closes (poll : Poll) : Option Int := do
  let closesAt ← moment env poll.closesAt
  match poll.closedAt with
  | none => pure closesAt
  | some text =>
    let closedAt ← moment env text
    pure (if closedAt < closesAt then closedAt else closesAt)

inductive VoterKey where
  | localRow (id : Nat)
  | carried (homeNode name : String)
deriving DecidableEq

def VoteRow.voterKey (row : VoteRow) : VoterKey :=
  match row.homeNode with
  | none => .localRow row.id
  | some home => .carried home (currentUserName aliases home row.voterName)

/-- `_vote_order` of the tally. -/
def VoteRow.tallyOrder (row : VoteRow) : Int × String :=
  ((moment env row.votedAt).getD 0, row.eventId.getD "")

def keepLatest (kept : Dict VoterKey VoteRow) (row : VoteRow) : Dict VoterKey VoteRow :=
  match kept.get? (row.voterKey aliases) with
  | none => kept.set (row.voterKey aliases) row
  | some held =>
    if laterVote (row.tallyOrder env) (held.tallyOrder env) then kept.set (row.voterKey aliases) row else kept

def keptVotes (rows : List VoteRow) : Dict VoterKey VoteRow :=
  rows.foldl (keepLatest env aliases) .empty

def VoteRow.inTime (closing : Int) (row : VoteRow) : Bool :=
  (moment env row.votedAt).any fun voted => decide (voted ≤ closing)

structure Counting where
  counts : List Nat
  voters : Nat
  notCounted : Nat
  perNode : Dict String Nat

def countVote (poll : Poll) (closing : Int) (linkEvents : Dict String Json) (visible : Json → Bool)
    (counting : Counting) (row : VoteRow) : Counting :=
  let leftOut := { counting with notCounted := counting.notCounted + 1 }
  let counted (choices : List Int) (perNode : Dict String Nat) : Counting :=
    { counting with
      counts := choices.foldl (fun counts choice => counts.modify choice.toNat (· + 1)) counting.counts
      voters := counting.voters + 1
      perNode }
  match parseChoices row.choices poll.optionCount with
  | none => leftOut
  | some choices =>
    if poll.maxChoices < choices.length ∨ row.inTime env closing = false then leftOut
    else
      match row.homeNode with
      | none => counted choices counting.perNode
      | some home =>
        let shown := (row.eventId.bind linkEvents.get?).any visible
        let before := (counting.perNode.get? home).getD 0
        if shown = false ∨ maxCountedVotersPerNode ≤ before then leftOut
        else counted choices (counting.perNode.set home (before + 1))

/-- `tally`; `none` where a date of the poll raises. -/
def tally (visible : Json → Bool) (ballots : Ballots) : Option PollTally :=
  (closes env ballots.poll).map fun closing =>
    let counting := (keptVotes env aliases ballots.rows).values.foldl
      (countVote env ballots.poll closing ballots.linkEvents visible)
      ⟨List.replicate ballots.poll.optionCount 0, 0, ballots.poll.droppedVotes, .empty⟩
    ⟨counting.counts, counting.voters, counting.notCounted⟩

/-- `parse_utc_iso("1970-01-01T00:00:00Z")`. -/
def epoch : Int := 62135596800000000

def VoteRow.rowOrder (row : VoteRow) : Int × String :=
  ((moment env row.votedAt).getD epoch, row.eventId.getD "")

def voterNames (vote : BoardPollVote) : List String :=
  let voter := currentUserName aliases vote.homeNode vote.localUserId
  voter :: formerUserNames aliases vote.homeNode voter

def sameVoter (vote : BoardPollVote) (row : VoteRow) : Bool :=
  decide (row.homeNode = some vote.homeNode ∧ row.voterName ∈ voterNames aliases vote)

def latestRow (rows : List VoteRow) : Option VoteRow :=
  rows.foldl (fun existing row =>
    match existing with
    | none => some row
    | some held => if laterVote (row.rowOrder env) (held.rowOrder env) then some row else some held) none

/-- `DELETE FROM link_events WHERE content_id = ?`, for a row that has signed bytes. -/
def dropEvent (linkEvents : Dict String Json) (row : VoteRow) : Dict String Json :=
  match row.eventId with
  | none => linkEvents
  | some contentId => if contentId = "" then linkEvents else linkEvents.erase contentId

/-- `_keep_event_without_commit`. -/
def keepEvent (ballots : Ballots) (vote : BoardPollVote) : Ballots :=
  { ballots with linkEvents := ballots.linkEvents.setDefault vote.contentId vote.envelope }

def BoardPollVote.row (vote : BoardPollVote) (id : Nat) : VoteRow where
  id
  homeNode := some vote.homeNode
  voterName := currentUserName aliases vote.homeNode vote.localUserId
  choices := vote.choices.insertionSort (· ≤ ·)
  votedAt := vote.createdAt
  eventId := some vote.contentId

def keepOne (vote : BoardPollVote) (existing written : VoteRow) (rows : List VoteRow) : List VoteRow :=
  rows.filterMap fun row =>
    if sameVoter aliases vote row = false then some row
    else if row.id = existing.id then some written
    else none

/-- `newer`: so is any vote where a date raises `ValueError`. -/
def isNewer (vote : BoardPollVote) (existing : VoteRow) : Bool :=
  match moment env vote.createdAt, moment env existing.votedAt with
  | some created, some voted => decide (laterVote (created, vote.contentId) (voted, existing.eventId.getD ""))
  | _, _ => true

/-- `_project_without_commit`; a new row gets the given id. -/
def project (vote : BoardPollVote) (freshId : Nat) (ballots : Ballots) : Bool × Ballots :=
  let same := ballots.rows.filter (sameVoter aliases vote)
  match latestRow env same with
  | some existing =>
    let linkEvents := (same.filter fun row => decide (row.id ≠ existing.id)).foldl dropEvent
      ballots.linkEvents
    let left (written : VoteRow) : Ballots :=
      { ballots with rows := keepOne aliases vote existing written ballots.rows, linkEvents }
    if existing.eventId = some vote.contentId then (true, left existing)
    else if isNewer env vote existing = false then
      (false, { left existing with linkEvents := linkEvents.erase vote.contentId })
    else
      let replaced := left (vote.row aliases existing.id)
      (true, keepEvent { replaced with linkEvents := dropEvent linkEvents existing } vote)
  | none =>
    if maxVoterRowsPerPoll ≤ ballots.rows.length then
      (false, { ballots with
        poll := { ballots.poll with droppedVotes := ballots.poll.droppedVotes + 1 }
        linkEvents := ballots.linkEvents.erase vote.contentId })
    else (true, keepEvent { ballots with rows := ballots.rows ++ [vote.row aliases freshId] } vote)

structure Gates where
  takesIn : BoardPollVote → Bool
  pollIsHere : Bool

/-- `materialize_carried_board_poll_vote`. -/
def materialize (gates : Gates) (vote : BoardPollVote) (freshId : Nat) (ballots : Ballots) : Bool × Ballots :=
  if gates.takesIn vote = false then (false, ballots)
  else if gates.pollIsHere = false then (true, keepEvent ballots vote)
  else project env aliases vote freshId ballots

section Counted

variable {env aliases}

def Counting.heard (counting : Counting) : List Nat × Nat × Dict String Nat :=
  (counting.counts, counting.voters, counting.perNode)

variable {poll : Poll} {closing : Int} {linkEvents linkEvents' : Dict String Json}
    {visible : Json → Bool}

variable {counting : Counting} {row : VoteRow} {rows : List VoteRow}

theorem countVote_late (h : row.inTime env closing = false) :
    (countVote env poll closing linkEvents visible counting row).heard = counting.heard := by
  unfold countVote
  cases parseChoices row.choices poll.optionCount <;> simp [h, Counting.heard]

variable {counting' : Counting}

theorem countVote_heard (hheard : counting.heard = counting'.heard)
    (hevent : row.homeNode ≠ none → row.eventId.bind linkEvents.get? = row.eventId.bind linkEvents'.get?) :
    (countVote env poll closing linkEvents visible counting row).heard =
      (countVote env poll closing linkEvents' visible counting' row).heard := by
  simp only [Counting.heard, Prod.mk.injEq] at hheard
  obtain ⟨hcounts, hvoters, hnodes⟩ := hheard
  unfold countVote
  cases parseChoices row.choices poll.optionCount with
  | none => simp [Counting.heard, hcounts, hvoters, hnodes]
  | some choices =>
    cases hhome : row.homeNode with
    | none =>
      simp only [hnodes]
      split <;> simp [Counting.heard, hcounts, hvoters]
    | some home =>
      simp only [hevent (by simp [hhome]), hnodes]
      split
      · simp [Counting.heard, hcounts, hvoters]
      · split
        · simp [Counting.heard, hcounts, hvoters]
        · simp [Counting.heard, hcounts, hvoters]

theorem foldl_countVote_inTime (hheard : counting.heard = counting'.heard)
    (hevent : ∀ row ∈ rows, row.inTime env closing = true → row.homeNode ≠ none →
      row.eventId.bind linkEvents.get? = row.eventId.bind linkEvents'.get?) :
    (rows.foldl (countVote env poll closing linkEvents visible) counting).heard =
      ((rows.filter (·.inTime env closing)).foldl
        (countVote env poll closing linkEvents' visible) counting').heard := by
  induction rows generalizing counting counting' with
  | nil => exact hheard
  | cons row rest ih =>
    obtain ⟨hrow, hrest⟩ := forall_mem_cons.mp hevent
    cases htime : row.inTime env closing with
    | true =>
      rw [filter_cons_of_pos htime, foldl_cons, foldl_cons]
      exact ih (countVote_heard hheard (hrow htime)) hrest
    | false =>
      rw [filter_cons_of_neg (by simp [htime]), foldl_cons]
      exact ih ((countVote_late htime).trans hheard) hrest

theorem keptVotes_snoc (rows : List VoteRow) (row : VoteRow) :
    keptVotes env aliases (rows ++ [row]) = keepLatest env aliases (keptVotes env aliases rows) row := by
  rw [keptVotes, foldl_append]
  rfl

theorem keptVotes_get? {key : VoterKey}
    (h : (keptVotes env aliases rows).get? key = some row) : row ∈ rows ∧ row.voterKey aliases = key := by
  induction rows using List.reverseRecOn with
  | nil => simp [keptVotes] at h
  | append_singleton rows last ih =>
    have hset : ((keptVotes env aliases rows).set (last.voterKey aliases) last).get? key = some row →
        row ∈ rows ++ [last] ∧ row.voterKey aliases = key := by
      rw [get?_set]
      split
      · rintro ⟨⟩
        exact ⟨by simp, by assumption⟩
      · intro hold
        exact ⟨mem_append_left _ (ih hold).1, (ih hold).2⟩
    rw [keptVotes_snoc, keepLatest] at h
    split at h
    · exact hset h
    · split at h
      · exact hset h
      · exact ⟨mem_append_left _ (ih h).1, (ih h).2⟩

theorem keptVotes_filter (p : VoterKey → Bool) (rows : List VoteRow) :
    (keptVotes env aliases rows).filter (fun entry => p entry.1) =
      keptVotes env aliases (rows.filter fun row => p (row.voterKey aliases)) := by
  induction rows using List.reverseRecOn with
  | nil => rfl
  | append_singleton rows last ih =>
    rw [keptVotes_snoc, filter_append]
    cases hlast : p (last.voterKey aliases) with
    | true =>
      have hone : [last].filter (fun row => p (row.voterKey aliases)) = [last] := by simp [hlast]
      rw [hone, keptVotes_snoc, ← ih, keepLatest, keepLatest, get?_filter_key, if_pos hlast]
      split
      · exact filter_set_key _ _ hlast
      · split
        · exact filter_set_key _ _ hlast
        · rfl
    | false =>
      have hset : ((keptVotes env aliases rows).set (last.voterKey aliases) last).filter
          (fun entry => p entry.1) = (keptVotes env aliases rows).filter fun entry => p entry.1 :=
        ext_entries (filter_entries_set hlast fun _ _ => hlast)
      have hnone : [last].filter (fun row => p (row.voterKey aliases)) = [] := by simp [hlast]
      rw [hnone, append_nil, ← ih, keepLatest]
      split
      · exact hset
      · split
        · exact hset
        · rfl

theorem keptVotes_inTime {p : VoterKey → Bool}
    (h : ∀ row ∈ rows, p (row.voterKey aliases) = false → row.inTime env closing = false) :
    (keptVotes env aliases rows).values.filter (·.inTime env closing) =
      (keptVotes env aliases (rows.filter fun row => p (row.voterKey aliases))).values.filter
        (·.inTime env closing) := by
  rw [← keptVotes_filter]
  unfold Dict.values Dict.filter
  rw [filter_map, filter_map, filter_filter]
  congr 1
  refine filter_congr fun entry hentry => ?_
  obtain ⟨hmem, hkey⟩ := keptVotes_get? ((get?_eq_some _ entry.1 entry.2).mpr hentry)
  cases hp : p entry.1 with
  | true => simp
  | false => simp [h entry.2 hmem (by rw [hkey, hp])]

end Counted

section Late

variable {env aliases} {vote : BoardPollVote} {ballots : Ballots}

def VoterKey.isOf (aliases : AliasDb) (vote : BoardPollVote) : VoterKey → Bool
  | .localRow _ => false
  | .carried home name => decide (home = vote.homeNode ∧
      name ∈ (voterNames aliases vote).map (currentUserName aliases vote.homeNode))

variable {row : VoteRow} {rows : List VoteRow}

theorem isOf_of_sameVoter (h : sameVoter aliases vote row = true) :
    (row.voterKey aliases).isOf aliases vote = true := by
  simp only [sameVoter, decide_eq_true_eq] at h
  simp only [VoteRow.voterKey, h.1, VoterKey.isOf, decide_eq_true_eq, true_and]
  exact mem_map_of_mem h.2

theorem sameVoter_row (id : Nat) : sameVoter aliases vote (vote.row aliases id) = true := by
  simp [sameVoter, BoardPollVote.row, voterNames]

theorem latestRow_mem (h : latestRow env rows = some row) : row ∈ rows := by
  induction rows using List.reverseRecOn with
  | nil => simp [latestRow] at h
  | append_singleton rows last ih =>
    rw [latestRow, foldl_append, ← latestRow] at h
    simp only [foldl_cons, foldl_nil] at h
    cases hheld : latestRow env rows with
    | none => simp_all
    | some held =>
      rw [hheld] at h ih
      simp only at h
      split at h
      · simp_all
      · exact mem_append_left _ (ih h)

variable {written existing : VoteRow}

theorem keepOne_others (h : sameVoter aliases vote written = true) (rows : List VoteRow) :
    (keepOne aliases vote existing written rows).filter (fun row => !sameVoter aliases vote row) =
      rows.filter fun row => !sameVoter aliases vote row := by
  induction rows with
  | nil => rfl
  | cons row rest ih =>
    unfold keepOne at ih ⊢
    cases hsame : sameVoter aliases vote row with
    | false => simp [hsame, ih]
    | true =>
      by_cases hid : row.id = existing.id <;> simp [hsame, hid, h, ih]

theorem mem_keepOne
    (h : row ∈ keepOne aliases vote existing written rows) : row ∈ rows ∨ row = written := by
  obtain ⟨old, hold, hrow⟩ := mem_filterMap.mp h
  split at hrow
  · exact .inl (Option.some.inj hrow ▸ hold)
  · split at hrow
    · exact .inr (Option.some.inj hrow).symm
    · simp at hrow

theorem foldl_dropEvent_get? {linkEvents : Dict String Json} {contentId : String}
    (h : ∀ row ∈ rows, row.eventId ≠ some contentId) :
    (rows.foldl dropEvent linkEvents).get? contentId = linkEvents.get? contentId := by
  induction rows generalizing linkEvents with
  | nil => rfl
  | cons row rest ih =>
    obtain ⟨hrow, hrest⟩ := forall_mem_cons.mp h
    rw [foldl_cons, ih hrest, dropEvent]
    cases hid : row.eventId with
    | none => rfl
    | some dropped =>
      simp only
      split
      · rfl
      · exact (get?_erase _ _ _).trans (if_neg fun hsame => hrow (by rw [hid, hsame]))

structure TakesIn (aliases : AliasDb) (vote : BoardPollVote) (ballots after : Ballots) : Prop where
  poll : ∃ droppedVotes, after.poll = { ballots.poll with droppedVotes }
  others : after.rows.filter (fun row => !sameVoter aliases vote row) =
    ballots.rows.filter fun row => !sameVoter aliases vote row
  rows : ∀ row ∈ after.rows, row ∈ ballots.rows ∨
    row.votedAt = vote.createdAt ∧ sameVoter aliases vote row = true
  linkEvents : ∀ contentId, contentId ≠ vote.contentId →
    (∀ row ∈ ballots.rows, sameVoter aliases vote row = true → row.eventId ≠ some contentId) →
      after.linkEvents.get? contentId = ballots.linkEvents.get? contentId

theorem TakesIn.unchanged : TakesIn aliases vote ballots ballots :=
  ⟨⟨ballots.poll.droppedVotes, rfl⟩, rfl, fun _ h => .inl h, fun _ _ _ => rfl⟩

theorem TakesIn.keepEvent {after : Ballots} (h : TakesIn aliases vote ballots after) :
    TakesIn aliases vote ballots (keepEvent after vote) := by
  refine ⟨h.poll, h.others, h.rows, fun contentId hother hrows => ?_⟩
  rw [← h.linkEvents contentId hother hrows]
  exact (get?_setDefault _ _ _ _).trans (by simp [Ne.symm hother])

theorem project_takesIn (freshId : Nat) :
    TakesIn aliases vote ballots (project env aliases vote freshId ballots).2 := by
  unfold project
  simp only
  cases hlatest : latestRow env (ballots.rows.filter (sameVoter aliases vote)) with
  | some existing =>
    obtain ⟨hmem, hsame⟩ := mem_filter.mp (latestRow_mem hlatest)
    have hdropped : ∀ contentId,
        (∀ row ∈ ballots.rows, sameVoter aliases vote row = true → row.eventId ≠ some contentId) →
        (((ballots.rows.filter (sameVoter aliases vote)).filter fun row =>
          decide (row.id ≠ existing.id)).foldl dropEvent ballots.linkEvents).get? contentId =
            ballots.linkEvents.get? contentId := by
      intro contentId hrows
      refine foldl_dropEvent_get? fun row hrow => ?_
      obtain ⟨hrow, hof⟩ := mem_filter.mp (mem_filter.mp hrow).1
      exact hrows row hrow hof
    have hleft : ∀ written, (written = existing ∨ written.votedAt = vote.createdAt) →
        sameVoter aliases vote written = true → ∀ row ∈ keepOne aliases vote existing written ballots.rows,
          row ∈ ballots.rows ∨ row.votedAt = vote.createdAt ∧ sameVoter aliases vote row = true := by
      intro written hwritten hof row hrow
      rcases mem_keepOne hrow with hrow | rfl
      · exact .inl hrow
      · rcases hwritten with rfl | hdate
        · exact .inl hmem
        · exact .inr ⟨hdate, hof⟩
    simp only
    split
    · exact ⟨⟨_, rfl⟩, keepOne_others hsame _, hleft existing (.inl rfl) hsame,
        fun contentId _ hrows => hdropped contentId hrows⟩
    · split
      · refine ⟨⟨_, rfl⟩, keepOne_others hsame _, hleft existing (.inl rfl) hsame, ?_⟩
        intro contentId hother hrows
        exact (get?_erase _ _ _).trans (by rw [if_neg (Ne.symm hother)]; exact hdropped contentId hrows)
      · refine TakesIn.keepEvent ⟨⟨_, rfl⟩, keepOne_others (sameVoter_row existing.id) _,
          hleft _ (.inr rfl) (sameVoter_row existing.id), ?_⟩
        intro contentId _ hrows
        rw [← hdropped contentId hrows]
        have hexisting : ∀ row ∈ [existing], row.eventId ≠ some contentId := by
          simpa using hrows existing hmem hsame
        exact foldl_dropEvent_get? hexisting
  | none =>
    simp only
    split
    · refine ⟨⟨_, rfl⟩, rfl, fun _ h => .inl h, fun contentId hother _ => ?_⟩
      exact (get?_erase _ _ _).trans (if_neg (Ne.symm hother))
    · refine TakesIn.keepEvent ⟨⟨_, rfl⟩, ?_, ?_, fun _ _ _ => rfl⟩
      · simp [filter_append, sameVoter_row]
      · intro row hrow
        rcases mem_append.mp hrow with hrow | hrow
        · exact .inl hrow
        · rw [mem_singleton.mp hrow]
          exact .inr ⟨rfl, sameVoter_row freshId⟩

theorem materialize_takesIn (gates : Gates) (freshId : Nat) :
    TakesIn aliases vote ballots (materialize env aliases gates vote freshId ballots).2 := by
  unfold materialize
  split
  · exact .unchanged
  · split
    · exact TakesIn.unchanged.keepEvent
    · exact project_takesIn freshId

def PollTally.shown (result : PollTally) : List Nat × Nat := (result.counts, result.voters)

theorem TakesIn.tally {after : Ballots} {closing : Int} {visible : Json → Bool} {dated : String → String}
    (h : TakesIn aliases vote ballots after) (hcloses : closes env ballots.poll = some closing)
    (hdated : ∀ row ∈ ballots.rows, row.homeNode ≠ none → ∀ contentId, row.eventId = some contentId →
      row.votedAt = dated contentId) (hvote : vote.createdAt = dated vote.contentId)
    (hlate : ∀ row : VoteRow, row.votedAt = vote.createdAt → row.inTime env closing = false)
    (hnone : ∀ row ∈ ballots.rows, (row.voterKey aliases).isOf aliases vote = true →
      row.inTime env closing = false) :
    (tally env aliases visible after).map PollTally.shown =
      (tally env aliases visible ballots).map PollTally.shown := by
  obtain ⟨droppedVotes, hpoll⟩ := h.poll
  have hothers : ∀ rows : List VoteRow, (rows.filter fun row => !(row.voterKey aliases).isOf aliases vote) =
      (rows.filter fun row => !sameVoter aliases vote row).filter fun row =>
        !(row.voterKey aliases).isOf aliases vote := by
    intro rows
    rw [filter_filter]
    refine filter_congr fun row _ => ?_
    cases hof : sameVoter aliases vote row with
    | true => simp [isOf_of_sameVoter hof]
    | false => simp
  have hafter : ∀ row ∈ after.rows, (!(row.voterKey aliases).isOf aliases vote) = false →
      row.inTime env closing = false := by
    intro row hrow hof
    rcases h.rows row hrow with hold | ⟨hdate, -⟩
    · exact hnone row hold (by simpa using hof)
    · exact hlate row hdate
  have hkept : (keptVotes env aliases after.rows).values.filter (·.inTime env closing) =
      (keptVotes env aliases ballots.rows).values.filter (·.inTime env closing) := by
    rw [keptVotes_inTime (p := fun key => !key.isOf aliases vote) hafter,
      keptVotes_inTime (p := fun key => !key.isOf aliases vote) fun row hrow hof =>
        hnone row hrow (by simpa using hof), hothers after.rows, h.others, ← hothers]
  -- A vote in time has other signed bytes than a late one.
  have hevent : ∀ row ∈ (keptVotes env aliases after.rows).values, row.inTime env closing = true →
      row.homeNode ≠ none →
        row.eventId.bind after.linkEvents.get? = row.eventId.bind ballots.linkEvents.get? := by
    intro row hrow htime hhome
    obtain ⟨entry, hentry, rfl⟩ := mem_map.mp hrow
    have hmem := (keptVotes_get? ((get?_eq_some _ entry.1 entry.2).mpr hentry)).1
    rcases h.rows entry.2 hmem with hold | ⟨hdate, -⟩
    · cases hid : entry.2.eventId with
      | none => rfl
      | some contentId =>
        have hdate := hdated entry.2 hold hhome contentId hid
        refine h.linkEvents contentId ?_ ?_
        · rintro rfl
          rw [hlate entry.2 (hdate.trans hvote.symm)] at htime
          simp at htime
        · intro row hrow hof hsame
          have hhome' : row.homeNode ≠ none := by
            simp only [sameVoter, decide_eq_true_eq] at hof
            simp [hof.1]
          have hrowLate := hnone row hrow (isOf_of_sameVoter hof)
          rw [VoteRow.inTime, hdated row hrow hhome' contentId hsame, ← hdate] at hrowLate
          rw [VoteRow.inTime, hrowLate] at htime
          simp at htime
    · rw [hlate entry.2 hdate] at htime
      simp at htime
  have hcloses' : closes env after.poll = some closing := by rw [hpoll]; exact hcloses
  have hcount : countVote env after.poll closing = countVote env ballots.poll closing := by rw [hpoll]; rfl
  have hoptions : after.poll.optionCount = ballots.poll.optionCount := by rw [hpoll]
  simp only [Polls.tally, hcloses, hcloses', Option.map_some, hcount, hoptions, PollTally.shown,
    Option.some.injEq]
  let start (droppedVotes : Nat) : Counting :=
    ⟨List.replicate ballots.poll.optionCount 0, 0, droppedVotes, .empty⟩
  have hrun : ((keptVotes env aliases after.rows).values.foldl
      (countVote env ballots.poll closing after.linkEvents visible) (start after.poll.droppedVotes)).heard =
        (((keptVotes env aliases after.rows).values.filter (·.inTime env closing)).foldl
          (countVote env ballots.poll closing ballots.linkEvents visible)
            (start ballots.poll.droppedVotes)).heard :=
    foldl_countVote_inTime rfl hevent
  have hbefore : ((keptVotes env aliases ballots.rows).values.foldl
      (countVote env ballots.poll closing ballots.linkEvents visible) (start ballots.poll.droppedVotes)).heard =
        (((keptVotes env aliases ballots.rows).values.filter (·.inTime env closing)).foldl
          (countVote env ballots.poll closing ballots.linkEvents visible)
            (start ballots.poll.droppedVotes)).heard :=
    foldl_countVote_inTime rfl fun _ _ _ _ => rfl
  rw [hkept, ← hbefore] at hrun
  simp only [Counting.heard, Prod.mk.injEq] at hrun ⊢
  exact ⟨hrun.1, hrun.2.1⟩

end Late

/-- A late vote is never counted. -/
theorem lateVote_uncounted {env : Env} {aliases : AliasDb} {vote : BoardPollVote} {ballots : Ballots}
    {closing created : Int} {dated : String → String} (hcloses : closes env ballots.poll = some closing)
    (hcreated : moment env vote.createdAt = some created) (hlate : closing < created)
    (hdated : ∀ row ∈ ballots.rows, row.homeNode ≠ none → ∀ contentId, row.eventId = some contentId →
      row.votedAt = dated contentId)
    (hvote : vote.createdAt = dated vote.contentId) (gates : Gates) (freshId : Nat) (visible : Json → Bool) :
    ((∀ row ∈ ballots.rows, (row.voterKey aliases).isOf aliases vote = true →
        row.inTime env closing = false) →
      (tally env aliases visible (materialize env aliases gates vote freshId ballots).2).map PollTally.shown =
        (tally env aliases visible ballots).map PollTally.shown) ∧
      (materialize env aliases gates vote freshId ballots).2.rows.filter
          (fun row => !sameVoter aliases vote row) =
        ballots.rows.filter (fun row => !sameVoter aliases vote row) ∧
      ∀ row ∈ (materialize env aliases gates vote freshId ballots).2.rows,
        row.inTime env closing = true → row ∈ ballots.rows := by
  have htakes : TakesIn aliases vote ballots (materialize env aliases gates vote freshId ballots).2 :=
    materialize_takesIn gates freshId
  have hout : ∀ row : VoteRow, row.votedAt = vote.createdAt → row.inTime env closing = false := by
    intro row hrow
    rw [VoteRow.inTime, hrow, hcreated, Option.any_some, decide_eq_false_iff_not]
    omega
  refine ⟨htakes.tally hcloses hdated hvote hout, htakes.others, fun row hrow htime => ?_⟩
  rcases htakes.rows row hrow with hold | ⟨hdate, -⟩
  · exact hold
  · rw [hout row hdate] at htime
    simp at htime

def samplePoll : Poll := ⟨2, 1, "2026-09-01T00:04:00+00:00", none, 0⟩

def lateVote : BoardPollVote :=
  ⟨"late", "home", "ann", [1], "2026-09-01T00:05:00.000001+00:00", .null⟩

def votedBy (name : String) : Ballots where
  poll := samplePoll
  rows := [⟨1, some "home", name, [0], "2026-09-01T00:00:00+00:00", some "early"⟩]
  linkEvents := .ofList [("early", .null)]

def noRenames : AliasDb := { trust := { inputs := {} } }

def openGates : Gates := ⟨fun _ => true, true⟩

theorem lateVote_uncounted_bob : (tally Sample.env noRenames (fun _ => true)
        (materialize Sample.env noRenames openGates lateVote 2 (votedBy "bob")).2).map PollTally.shown =
      (tally Sample.env noRenames (fun _ => true) (votedBy "bob")).map PollTally.shown := by
  have hnames : ∀ row ∈ (votedBy "bob").rows, row.homeNode ≠ none → ∀ contentId,
      row.eventId = some contentId → row.votedAt =
        if contentId = "late" then "2026-09-01T00:05:00.000001+00:00" else "2026-09-01T00:00:00+00:00" := by
    intro row hrow _ contentId hid
    obtain rfl := mem_singleton.mp hrow
    obtain rfl := Option.some.inj hid
    rfl
  have hcloses : closes Sample.env (votedBy "bob").poll = some 63923817840000000 := by decide +kernel
  have hcreated : moment Sample.env lateVote.createdAt = some 63923817900000001 := by decide +kernel
  refine (lateVote_uncounted hcloses hcreated (by decide) hnames rfl openGates 2 fun _ => true).1 ?_
  decide +kernel

/-- A late vote takes the place of the vote its voter cast in time, and the count of it away. -/
theorem lateVote_replaces : moment Sample.env samplePoll.closesAt = some 63923817840000000 ∧
      moment Sample.env lateVote.createdAt = some 63923817900000001 ∧
      tally Sample.env noRenames (fun _ => true) (votedBy "ann") = some ⟨[1, 0], 1, 0⟩ ∧
      tally Sample.env noRenames (fun _ => true)
        (materialize Sample.env noRenames openGates lateVote 2 (votedBy "ann")).2 = some ⟨[0, 0], 0, 1⟩ := by
  decide +kernel

end NetBBS.Polls
