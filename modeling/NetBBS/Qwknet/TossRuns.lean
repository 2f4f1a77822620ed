import NetBBS.Qwknet.HeldMessages

/-! # Runs of tosses -/

namespace NetBBS.Qwknet

open Foundation List

variable {machine : Machine} {network : QwknetNetwork} {node : Option QwknetNode}
    {message : Incoming}

variable {clock : Clock} {state after : Db × TossResult} {outcome : Outcome}

structure Tossed (machine : Machine) (clock : Clock) (network : QwknetNetwork) (node : Option QwknetNode)
    (message : Incoming) (state after : Db × TossResult) (outcome : Outcome) : Prop where
  tossed : tossMessage machine clock network node message state = .ok after
  counted : after.2 = state.2.count outcome
  stored : outcome = .held → ∃ row ∈ after.1.held, row.networkId = network.id ∧
    row.source = sourceOf network node ∧ row.conference = some message.conference ∧
      row.content = .message message.asJson ∧ readBack machine row.content = some message

theorem readBack_asJson (machine : Machine) (message : Incoming) :
    readBack machine (.message message.asJson) = some message :=
  Incoming.fromJson_asJson machine.otherIsoformat message

theorem count_injective (result : TossResult) : Function.Injective result.count := by
  intro a b h
  cases a <;> cases b <;> simp [TossResult.count] at h ⊢

theorem tossMessage_cases (h : ¬Stops machine clock network node message state.1) :
    (∃ stored outcome, tossMessage machine clock network node message state =
        .ok (stored, state.2.count outcome) ∧ stored.held = state.1.held ∧ outcome ≠ .held ∧
          (outcome = .skipped ↔ Skips machine network node message state.1)) ∨
      ∃ reason, tossMessage machine clock network node message state =
        .ok (holdMessage state.1 network.id (sourceOf network node) message reason, state.2.count .held) ∧
          ¬Skips machine network node message state.1 := by
  unfold tossMessage
  cases htoss : toss machine clock network node message state.1 with
  | ok result =>
    obtain ⟨hheld, hnot, hskips⟩ := toss_ok htoss
    exact .inl ⟨result.1, result.2, rfl, hheld, hnot, hskips⟩
  | error stop =>
    cases stop with
    | hold reason => exact .inr ⟨reason, rfl, toss_hold htoss⟩
    | overflowError => exact absurd (toss_overflow.mp htoss) h

theorem tossMessage_stops (h : Stops machine clock network node message state.1) :
    tossMessage machine clock network node message state = .error state.1 := by
  unfold tossMessage
  rw [toss_overflow.mpr h]

theorem exists_tossed (h : ¬Stops machine clock network node message state.1) :
    ∃ after outcome, Tossed machine clock network node message state after outcome := by
  rcases tossMessage_cases h with ⟨stored, outcome, htossed, -, hnot, -⟩ | ⟨reason, htossed, -⟩
  · exact ⟨_, outcome, htossed, rfl, fun hheld => absurd hheld hnot⟩
  · exact ⟨_, .held, htossed, rfl, fun _ => ⟨_, holdMessage_stored _ _ _ _ _, rfl, rfl, rfl, rfl,
      readBack_asJson machine message⟩⟩

section

variable (h : Tossed machine clock network node message state after outcome)

include h

theorem Tossed.not_stops : ¬Stops machine clock network node message state.1 := by
  intro hstops
  have htossed := h.tossed
  rw [tossMessage_stops hstops] at htossed
  cases htossed

theorem Tossed.skipped_iff : outcome = .skipped ↔ Skips machine network node message state.1 := by
  rcases tossMessage_cases h.not_stops with ⟨stored, other, htossed, -, -, hskips⟩ | ⟨reason, htossed, hskips⟩
  · have hafter := Except.ok.inj (h.tossed.symm.trans htossed)
    have hsame := count_injective state.2 (h.counted.symm.trans (congrArg Prod.snd hafter))
    rw [hsame, hskips]
  · have hafter := Except.ok.inj (h.tossed.symm.trans htossed)
    have hsame : outcome = .held := count_injective state.2 (h.counted.symm.trans (congrArg Prod.snd hafter))
    simp [hsame, hskips]

end

def EachTossed (machine : Machine) (network : QwknetNetwork) (node : Option QwknetNode) :
    (Nat → Clock) → List Incoming → Db × TossResult → Db × TossResult → Prop
  | _, [], state, final => state = final
  | clock, message :: rest, state, final =>
    ∃ after outcome, Tossed machine (clock 0) network node message state after outcome ∧
      EachTossed machine network node (fun i => clock (i + 1)) rest after final

def Harmless (machine : Machine) (network : QwknetNetwork) (node : Option QwknetNode) :
    (Nat → Clock) → List Incoming → Db × TossResult → Prop
  | _, [], _ => True
  | clock, message :: rest, state =>
    ¬Stops machine (clock 0) network node message state.1 ∧
      ∀ after, tossMessage machine (clock 0) network node message state = .ok after →
        Harmless machine network node (fun i => clock (i + 1)) rest after

theorem tossAll_iff (messages : List Incoming) (clock : Nat → Clock) (state : Db × TossResult) :
    (∃ final, tossAll machine network node clock messages state = .ok final ∧
      EachTossed machine network node clock messages state final) ↔
        Harmless machine network node clock messages state := by
  induction messages generalizing clock state with
  | nil => exact ⟨fun _ => trivial, fun _ => ⟨state, rfl, rfl⟩⟩
  | cons message rest ih =>
    constructor
    · rintro ⟨final, hfinal, after, outcome, htossed, heach⟩
      refine ⟨htossed.not_stops, fun other hother => ?_⟩
      obtain rfl := Except.ok.inj (htossed.tossed.symm.trans hother)
      rw [tossAll, htossed.tossed, ok_bind] at hfinal
      exact (ih _ _).mp ⟨final, hfinal, heach⟩
    · rintro ⟨hstops, hrest⟩
      obtain ⟨after, outcome, htossed⟩ := exists_tossed hstops
      obtain ⟨final, hfinal, heach⟩ := (ih _ _).mpr (hrest after htossed.tossed)
      refine ⟨final, ?_, after, outcome, htossed, heach⟩
      rw [tossAll, htossed.tossed, ok_bind]
      exact hfinal

variable {messages : List Incoming} {kept : Held} {rows : List Held}

theorem EachTossed.heldPacket {clock : Nat → Clock} {state final : Db × TossResult}
    (h : EachTossed machine network node clock messages state final) :
    final.2.heldPacket = state.2.heldPacket := by
  induction messages generalizing clock state with
  | nil => rw [show state = final from h]
  | cons message rest ih =>
    obtain ⟨after, outcome, htossed, heach⟩ := h
    rw [ih heach, htossed.counted]
    cases outcome <;> rfl

def Counted (machine : Machine) (network : QwknetNetwork) (node : Option QwknetNode) (clock : Nat → Clock)
    (messages : List Incoming) (state final : Db × TossResult) : Prop :=
  messages = [] ∨ EachTossed machine network node clock messages state final

theorem tossHubPacket_iff (clock : Nat → Clock) (data : List UInt8) (packet : ReadPacket) (db : Db) :
    (∃ final, tossHubPacket machine clock network data packet db = .ok final ∧
      Counted machine network none clock packet.messages (db, {}) final) ↔
        (packet.messages = [] ∨ machine.upper packet.bbsId = network.hubId) ∧
          Harmless machine network none clock packet.messages (db, {}) := by
  unfold tossHubPacket Counted
  by_cases hown : machine.upper packet.bbsId = network.hubId
  · rw [if_neg (by simp [hown]), ← tossAll_iff]
    constructor
    · rintro ⟨final, hfinal, hnone | heach⟩
      · rw [hnone] at hfinal ⊢
        exact ⟨.inl rfl, final, hfinal, Except.ok.inj hfinal⟩
      · exact ⟨.inr hown, final, hfinal, heach⟩
    · rintro ⟨-, final, hfinal, heach⟩
      exact ⟨final, hfinal, .inr heach⟩
  · rw [if_pos hown]
    constructor
    · rintro ⟨final, hfinal, hnone | heach⟩
      · rw [hnone]
        exact ⟨.inl rfl, trivial⟩
      · have hheld := heach.heldPacket
        rw [← Except.ok.inj hfinal] at hheld
        cases hheld
    · rintro ⟨hnone | hsame, -⟩
      · exact ⟨_, rfl, .inl hnone⟩
      · exact absurd hsame hown

variable {clock : Nat → Clock} {row : Held} {rest : List Held} {db : Db} {result : TossResult}
    {final : Db × TossResult}

def EachRetossed (machine : Machine) (network : QwknetNetwork) :
    (Nat → Clock) → List Held → Db × TossResult → Db × TossResult → Prop
  | _, [], state, final => state = final
  | clock, row :: rest, (db, result), final =>
    ∃ message after outcome, readBack machine row.content = some message ∧
      Tossed machine (clock 0) network (nodeNamed (db.deleteHeld row.id) network row.source) message
        (db.deleteHeld row.id, result) after outcome ∧ outcome ≠ .skipped ∧
          (outcome = .held → ∃ kept ∈ final.1.held, kept.networkId = row.networkId ∧
            kept.conference = row.conference ∧ kept.content = row.content) ∧
              EachRetossed machine network (fun i => clock (i + 1)) rest after final

def HarmlessRows (machine : Machine) (network : QwknetNetwork) :
    (Nat → Clock) → List Held → Db × TossResult → Prop
  | _, [], _ => True
  | clock, row :: rest, (db, result) =>
    ∀ message, readBack machine row.content = some message →
      let deleted := db.deleteHeld row.id
      let node := nodeNamed deleted network row.source
      (¬Stops machine (clock 0) network node message deleted ∧ ¬Skips machine network node message deleted) ∧
        ∀ after, tossMessage machine (clock 0) network node message (deleted, result) = .ok after →
          HarmlessRows machine network (fun i => clock (i + 1)) rest after

structure Pending (network : QwknetNetwork) (rows : List Held) (held : List Held) : Prop where
  sound : HeldSound held
  ids : (rows.map Held.id).Nodup
  rows : ∀ row ∈ rows, row ∈ held ∧ isHeldMessage network.id row = true

theorem Pending.first (h : Pending network (row :: rest) db.held) (machine : Machine) :
    ∃ message : Incoming, readBack machine row.content = some message ∧ row.networkId = network.id ∧
      row.conference = some message.conference ∧ row.content = .message message.asJson := by
  obtain ⟨hrow, hkind⟩ := h.rows row (.head _)
  simp only [isHeldMessage, Bool.and_eq_true, decide_eq_true_eq, Option.isSome_iff_exists] at hkind
  obtain ⟨hnetwork, conference, hconference⟩ := hkind
  obtain ⟨message, hcontent, hsame⟩ := h.sound.written row hrow conference hconference
  refine ⟨message, ?_, hnetwork, by rw [hconference, hsame], hcontent⟩
  rw [hcontent, readBack_asJson]

theorem Pending.room (h : Pending network (row :: rest) db.held) :
    ((db.deleteHeld row.id).held.filter (isHeldMessage network.id)).length < maxHeldMessages := by
  obtain ⟨hrow, hkind⟩ := h.rows row (.head _)
  refine Nat.lt_of_lt_of_le ?_ (h.sound.room network.id)
  have hswap : (db.deleteHeld row.id).held.filter (isHeldMessage network.id) =
      (db.held.filter (isHeldMessage network.id)).filter fun other => decide (other.id ≠ row.id) := by
    rw [Db.deleteHeld, filter_filter, filter_filter]
    simp only [Bool.and_comm]
  rw [hswap, length_filter_lt_length_iff_exists]
  exact ⟨row, mem_filter.mpr ⟨hrow, hkind⟩, by simp⟩

theorem mem_deleteHeld {id : Nat} (h : kept ∈ db.held) (hid : kept.id ≠ id) :
    kept ∈ (db.deleteHeld id).held := mem_filter.mpr ⟨h, by simp [hid]⟩

theorem Pending.round (h : Pending network (row :: rest) db.held)
    (hread : readBack machine row.content = some message) {after : Db × TossResult} {outcome : Outcome}
    (htossed : Tossed machine (clock 0) network (nodeNamed (db.deleteHeld row.id) network row.source) message
      (db.deleteHeld row.id, result) after outcome) :
    Pending network rest after.1.held ∧
      (∀ kept ∈ db.held, kept.id ∉ (row :: rest).map Held.id → kept ∈ after.1.held) ∧
        (outcome = .held → ∃ kept ∈ after.1.held, kept.id ∉ rest.map Held.id ∧ kept.networkId = row.networkId ∧
          kept.conference = row.conference ∧ kept.content = row.content) := by
  obtain ⟨hfresh, hids⟩ := nodup_cons.mp h.ids
  have hother : ∀ other ∈ rest, other.id ≠ row.id :=
    fun other hrest hsame => hfresh (hsame ▸ mem_map_of_mem hrest)
  have hdeleted : HeldSound (db.deleteHeld row.id).held := h.sound.sublist filter_sublist
  have hrest : ∀ other ∈ rest, other ∈ (db.deleteHeld row.id).held ∧ isHeldMessage network.id other = true :=
    fun other hin => ⟨mem_deleteHeld (h.rows other (.tail _ hin)).1 (hother other hin),
      (h.rows other (.tail _ hin)).2⟩
  have hkept : ∀ kept ∈ db.held, kept.id ∉ (row :: rest).map Held.id → kept ∈ (db.deleteHeld row.id).held :=
    fun kept hin hnot => mem_deleteHeld hin fun hsame => hnot (by simp [hsame])
  rcases tossMessage_cases htossed.not_stops with
    ⟨stored, other, hsame, hheld, hnot, -⟩ | ⟨reason, hsame, -⟩
  · have hafter := Except.ok.inj (htossed.tossed.symm.trans hsame)
    have houtcome : outcome = other :=
      count_injective result (htossed.counted.symm.trans (congrArg Prod.snd hafter))
    have hrows : after.1.held = (db.deleteHeld row.id).held := by
      rw [hafter]
      exact hheld
    rw [hrows]
    exact ⟨⟨hdeleted, hids, hrest⟩, hkept, fun hagain => absurd (houtcome ▸ hagain) hnot⟩
  · have hafter := Except.ok.inj (htossed.tossed.symm.trans hsame)
    have hstays := holdMessage_keeps h.room (sourceOf network (nodeNamed (db.deleteHeld row.id) network row.source))
      message reason
    rw [hafter]
    refine ⟨⟨sound_holdMessage hdeleted _ _ _ _, hids, fun other hin => ⟨hstays other (hrest other hin).1,
      (hrest other hin).2⟩⟩, fun kept hin hnot => hstays kept (hkept kept hin hnot), fun _ => ?_⟩
    obtain ⟨written, hwritten, hnetwork, hconference, hcontent⟩ := h.first machine
    obtain rfl := Option.some.inj (hread.symm.trans hwritten)
    refine ⟨_, holdMessage_stored _ _ _ _ _, ?_, hnetwork.symm, hconference.symm, hcontent.symm⟩
    intro hin
    obtain ⟨other, hother, hid⟩ := mem_map.mp hin
    have hle : other.id ≤ maxNumber Held.id (db.deleteHeld row.id).held := le_maxNumber (hrest other hother).1
    simp only at hid
    omega

theorem EachRetossed.keeps (h : EachRetossed machine network clock rows state final)
    (hpending : Pending network rows state.1.held) (hkept : kept ∈ state.1.held)
    (hnot : kept.id ∉ rows.map Held.id) : kept ∈ final.1.held := by
  induction rows generalizing clock state with
  | nil => rwa [← show state = final from h]
  | cons row rest ih =>
    obtain ⟨message, after, outcome, hread, htossed, -, -, heach⟩ := h
    obtain ⟨hlater, hstays, -⟩ := hpending.round hread htossed
    exact ih heach hlater (hstays kept hkept hnot) fun hin => hnot (.tail _ hin)

theorem retossRows_iff (rows : List Held) (clock : Nat → Clock) (state : Db × TossResult)
    (hpending : Pending network rows state.1.held) :
    (∃ final, retossRows machine network clock rows state = .ok final ∧
      EachRetossed machine network clock rows state final) ↔ HarmlessRows machine network clock rows state := by
  induction rows generalizing clock state with
  | nil => exact ⟨fun _ => trivial, fun _ => ⟨state, rfl, rfl⟩⟩
  | cons row rest ih =>
    obtain ⟨db, result⟩ := state
    constructor
    · rintro ⟨final, hfinal, message, after, outcome, hread, htossed, hskipped, -, heach⟩ other hother
      obtain rfl := Option.some.inj (hread.symm.trans hother)
      refine ⟨⟨htossed.not_stops, fun hskips => hskipped (htossed.skipped_iff.mpr hskips)⟩, fun later hlater => ?_⟩
      obtain rfl := Except.ok.inj (htossed.tossed.symm.trans hlater)
      rw [retossRows, hread] at hfinal
      dsimp only at hfinal
      rw [htossed.tossed, ok_bind] at hfinal
      exact (ih _ _ (hpending.round hread htossed).1).mp ⟨final, hfinal, heach⟩
    · intro h
      obtain ⟨message, hread, -, -, -⟩ := hpending.first machine
      obtain ⟨⟨hstops, hskips⟩, hrest⟩ := h message hread
      obtain ⟨after, outcome, htossed⟩ : ∃ after outcome,
          Tossed machine (clock 0) network (nodeNamed (db.deleteHeld row.id) network row.source) message
            (db.deleteHeld row.id, result) after outcome := exists_tossed hstops
      obtain ⟨hlater, -, hagain⟩ := hpending.round hread htossed
      obtain ⟨final, hfinal, heach⟩ := (ih _ _ hlater).mpr (hrest after htossed.tossed)
      refine ⟨final, ?_, message, after, outcome, hread, htossed, fun hskipped =>
        hskips (htossed.skipped_iff.mp hskipped), fun hheld => ?_, heach⟩
      · rw [retossRows, hread]
        dsimp only
        rw [htossed.tossed, ok_bind]
        exact hfinal
      · obtain ⟨kept, hkept, hnot, hsame⟩ := hagain hheld
        exact ⟨kept, heach.keeps hlater hkept hnot, hsame⟩

theorem pending_heldOf (h : HeldSound db.held) (network : QwknetNetwork) (conference : Number) :
    Pending network (heldOf db network conference) db.held := by
  have hperm := perm_insertionSort (fun a b : Held => a.id ≤ b.id)
    (db.held.filter fun row => decide (row.networkId = network.id ∧ row.conference = some conference))
  refine ⟨h, ?_, fun row hrow => ?_⟩
  · exact ((hperm.map Held.id).nodup_iff).mpr (h.ids.sublist (filter_sublist.map Held.id))
  · obtain ⟨hin, hkind⟩ := mem_filter.mp (hperm.mem_iff.mp hrow)
    refine ⟨hin, ?_⟩
    obtain ⟨hnetwork, hconference⟩ := of_decide_eq_true hkind
    simp [isHeldMessage, hnetwork, hconference]

inductive Happening where
  | tossHubPacket (clock : Nat → Clock) (network : QwknetNetwork) (data : List UInt8) (packet : ReadPacket)
  | tossNodeRep (clock : Nat → Clock) (network : QwknetNetwork) (node : QwknetNode) (problems : Nat)
      (messages : List RepMessage)
  | retossConference (clock : Nat → Clock) (network : QwknetNetwork) (conference : Number)
  | elsewhere (after : Db) (keep : Held → Bool)

def left : Except Db (Db × TossResult) → Db
  | .ok state => state.1
  | .error db => db

def step (machine : Machine) (db : Db) : Happening → Db
  | .tossHubPacket clock network data packet => left (tossHubPacket machine clock network data packet db)
  | .tossNodeRep clock network node problems messages =>
    left (tossNodeRep machine clock network node problems messages db)
  | .retossConference clock network conference => left (retossConference machine clock network conference db)
  | .elsewhere after keep => { after with held := db.held.filter keep }

theorem sound_tossMessage (machine : Machine) (clock : Clock) (network : QwknetNetwork) (node : Option QwknetNode)
    (message : Incoming) {state : Db × TossResult} (h : HeldSound state.1.held) :
    HeldSound (left (tossMessage machine clock network node message state)).held := by
  by_cases hstops : Stops machine clock network node message state.1
  · rw [tossMessage_stops hstops]
    exact h
  · rcases tossMessage_cases hstops with ⟨stored, outcome, htossed, hheld, -, -⟩ | ⟨reason, htossed, -⟩
    · rw [htossed]
      show HeldSound stored.held
      rwa [hheld]
    · rw [htossed]
      exact sound_holdMessage h _ _ _ _

theorem sound_tossAll {clock : Nat → Clock} {state : Db × TossResult}
    (h : HeldSound state.1.held) : HeldSound (left (tossAll machine network node clock messages state)).held := by
  induction messages generalizing clock state with
  | nil => exact h
  | cons message rest ih =>
    have hfirst := sound_tossMessage machine (clock 0) network node message h
    rw [tossAll]
    cases htossed : tossMessage machine (clock 0) network node message state with
    | error db =>
      rw [htossed] at hfirst
      exact hfirst
    | ok after =>
      rw [htossed] at hfirst
      exact ih hfirst

theorem sound_retossRows {clock : Nat → Clock} {state : Db × TossResult}
    (h : HeldSound state.1.held) : HeldSound (left (retossRows machine network clock rows state)).held := by
  induction rows generalizing clock state with
  | nil => exact h
  | cons row rest ih =>
    obtain ⟨db, result⟩ := state
    have hdeleted : HeldSound (db.deleteHeld row.id).held := h.sublist filter_sublist
    rw [retossRows]
    cases readBack machine row.content with
    | none => exact ih hdeleted
    | some message =>
      have hfirst : HeldSound (left (tossMessage machine (clock 0) network
          (nodeNamed (db.deleteHeld row.id) network row.source) message (db.deleteHeld row.id, result))).held :=
        sound_tossMessage machine (clock 0) network _ message hdeleted
      dsimp only
      cases htossed : tossMessage machine (clock 0) network (nodeNamed (db.deleteHeld row.id) network row.source)
          message (db.deleteHeld row.id, result) with
      | error db =>
        rw [htossed] at hfirst
        exact hfirst
      | ok after =>
        rw [htossed] at hfirst
        exact ih hfirst

theorem sound_step {db : Db} (h : HeldSound db.held) (happening : Happening) :
    HeldSound (step machine db happening).held := by
  cases happening with
  | tossHubPacket clock network data packet =>
    show HeldSound (left (tossHubPacket machine clock network data packet db)).held
    unfold tossHubPacket
    split
    · exact sound_holdPacket h _ _ _ _
    · exact sound_tossAll h
  | tossNodeRep clock network node problems messages => exact sound_tossAll h
  | retossConference clock network conference => exact sound_retossRows h
  | elsewhere after keep => exact h.sublist filter_sublist

theorem sound_run (run : List Happening) : HeldSound (run.foldl (step machine) {}).held :=
  foldl_invariant (P := fun db : Db => HeldSound db.held) run {} ⟨nodup_nil, fun _ => Nat.zero_le _, by simp⟩
    fun v _ h => sound_step h v.2

/-- In every state that tosses and whatever else can bring about: a hub's packet, a node's reply packet and a
conference tossed again return with every message counted once, and with those that are held in rows that give
them back, exactly when no message comes to a date that cannot be written, the packet is the hub's own, and no
message that is tossed again is skipped. -/
theorem messages_counted_iff (machine : Machine) (run : List Happening) :
    (∀ clock network data packet,
      (∃ final, tossHubPacket machine clock network data packet (run.foldl (step machine) {}) = .ok final ∧
        Counted machine network none clock packet.messages (run.foldl (step machine) {}, {}) final) ↔
          (packet.messages = [] ∨ machine.upper packet.bbsId = network.hubId) ∧
            Harmless machine network none clock packet.messages (run.foldl (step machine) {}, {})) ∧
    (∀ clock network node problems messages,
      (∃ final, tossNodeRep machine clock network node problems messages (run.foldl (step machine) {}) = .ok final ∧
        EachTossed machine network (some node) clock (messages.map (·.incoming node))
          (run.foldl (step machine) {}, { problems }) final) ↔
            Harmless machine network (some node) clock (messages.map (·.incoming node))
              (run.foldl (step machine) {}, { problems })) ∧
    ∀ clock network conference,
      (∃ final, retossConference machine clock network conference (run.foldl (step machine) {}) = .ok final ∧
        EachRetossed machine network clock (heldOf (run.foldl (step machine) {}) network conference)
          (run.foldl (step machine) {}, {}) final) ↔
            HarmlessRows machine network clock (heldOf (run.foldl (step machine) {}) network conference)
              (run.foldl (step machine) {}, {}) := by
  refine ⟨fun clock network data packet => tossHubPacket_iff clock data packet _, ?_, ?_⟩
  · intro clock network node problems messages
    exact tossAll_iff _ clock _
  · intro clock network conference
    exact retossRows_iff _ clock _ (pending_heldOf (sound_run run) network conference)

def asciiMachine : Machine where
  isPrintable c := decide (' ' ≤ c ∧ c ≤ '~')
  upper := List.map Char.toUpper
  casefold := List.map Char.toLower
  isDecimal := Char.isDigit
  decimal := numeral
  strptime digits :=
    let field (start width : Nat) : Nat := numeral ((digits.drop start).take width)
    DateTime.make (field 0 4) (field 4 2) (field 6 2) (field 8 2) (field 10 2) (field 12 2)
  otherIsoformat _ := none
  sha256 text := text
  contentId board _ author subject body createdAt := board ++ author ++ subject ++ body ++ createdAt
  utcIso micros := toString micros

def inUtc : Nat → Clock := fun _ => ⟨63900000000000000, fun _ => 0⟩

def vertNet : QwknetNetwork := ⟨1, "OURS".toList, "VERT".toList⟩

/-- From 1 January of the year 1, an hour east of UTC. -/
def oldest : Incoming where
  conference := toNumber 7
  number := some (toNumber 1)
  when := none
  toName := "ALL".toList
  sender := "A Caller".toList
  subject := "Hello".toList
  body := "Hello".toList
  reference := none
  isPrivate := false
  headers := Dict.empty.set "whenwritten".toList "00010101000000 +0100".toList
  status := ' '

/-- A board is made to carry conference 7. -/
def mapped : Happening :=
  .elsewhere { boards := { boards := [⟨1, "general", false, none, false, false⟩] }
               conferences := [⟨1, toNumber 7, "general"⟩] } fun _ => true

/-- The hub's packet stops at the message. -/
theorem oldest_stops_toss :
    (¬∃ final, tossHubPacket asciiMachine inUtc vertNet [] ⟨"VERT".toList, [oldest]⟩
      ([mapped].foldl (step asciiMachine) {}) = .ok final) ∧
      (([.tossHubPacket inUtc vertNet [] ⟨"VERT".toList, [oldest]⟩, mapped] : List Happening).foldl
        (step asciiMachine) {}).held.length = 1 ∧
      (([.tossHubPacket inUtc vertNet [] ⟨"VERT".toList, [oldest]⟩, mapped,
        .retossConference inUtc vertNet (toNumber 7)] : List Happening).foldl (step asciiMachine) {}).held.length = 0 := by
  have hraises : (tossHubPacket asciiMachine inUtc vertNet [] ⟨"VERT".toList, [oldest]⟩
      ([mapped].foldl (step asciiMachine) {})).toOption.isSome = false := by decide +kernel
  refine ⟨?_, by decide +kernel, by decide +kernel⟩
  rintro ⟨final, hfinal⟩
  rw [hfinal] at hraises
  cases hraises

end NetBBS.Qwknet
