import Mathlib.Data.List.Induction
import NetBBS.Link.Realtime.LiveLineChecks

/-! # A network of nodes that show lines live -/

set_option linter.unusedSectionVars false

namespace NetBBS

open Foundation List

namespace LiveLines

variable {φ σ : Type} [DecidableEq φ] [DecidableEq σ] {run : List (Event φ σ)} {own peer : φ}
  {line : Line φ σ} {origin : Option φ} {task : Task φ σ} {node : Node φ σ} {world : World φ σ}
  {number : Nat} {net : Network φ σ}

@[simp] theorem frame_line (line : Line φ σ) (peer : φ) :
    (line.frame (some line.authorNode)).line peer = line := rfl

theorem ownFrame_line {line : Line φ σ} (h : line.authorNode = own) :
    (line.frame none).line own = line := by
  subst h
  rfl

theorem nodup_liveSubscribers (world : World φ σ) (channelId : σ) :
    (world.liveSubscribers channelId).Nodup := Dict.nodup _

theorem nodup_relayReceivers (world : World φ σ) (line : Line φ σ) :
    (world.relayReceivers line).Nodup := (nodup_liveSubscribers world line.channelId).filter _

theorem mem_relayReceivers {receiver : φ} (h : receiver ∈ world.relayReceivers line) :
    receiver ∈ world.liveSubscribers line.channelId ∧ receiver ≠ line.authorNode ∧
      world.peerCapable receiver = true := by
  simpa [World.relayReceivers] using h

theorem Admitted.direct (h : Admitted run own peer line (some own)) : line.authorNode = peer := by
  rcases h.source with hpeer | horigin
  · exact hpeer
  · exact absurd (Option.some.inj horigin).symm h.apart

namespace NodeOk

theorem afterOrigin (h : NodeOk run own node) (hapart : peer ≠ own) (hwritten : .write line ∈ run)
    (hread : ∃ frame world, Passed run own (.readingOrigin peer frame) world ∧
      frame.line peer = line ∧ world.origin line.channelId = origin) :
    NodeOk run own (node.afterOrigin own peer line origin) := by
  rw [Node.afterOrigin]
  split
  · exact h
  · rename_i hsource
    split
    · exact h
    · rename_i hnotOwn
      refine h.await_plain ?_ rfl rfl
      constructor
      · exact hapart
      · exact hwritten
      · by_cases hpeer : line.authorNode = peer
        · exact .inl hpeer
        · exact .inr (not_not.mp fun horigin => hsource ⟨hpeer, horigin⟩)
      · exact hnotOwn
      · exact hread

theorem goOn (h : NodeOk run own node) (hok : TaskOk run own node.remembered task)
    (hpassed : Passed run own task world) (hshow : ∀ n ∈ task.toShow, n ∉ node.tasks.filterMap Task.toShow ++
      node.broadcasts.map Broadcast.number)
    (hrelay : ∀ n ∈ task.toRelay, n ∉ node.tasks.filterMap Task.toRelay ∧
      ∀ relay ∈ node.relays, relay.number ≠ n) :
    NodeOk run own (Node.goOn own world node task).1 := by
  cases task with
  | authorizing peer frame =>
    simp only [Node.goOn]
    split
    · exact h.await_plain hok rfl rfl
    · exact h
  | readingOrigin peer frame =>
    exact h.afterOrigin hok.1 hok.2 ⟨frame, world, hpassed, rfl, rfl⟩
  | judgingAuthor peer line origin =>
    simp only [Node.goOn]
    split
    · rename_i hallowed
      have hnext : TaskOk run own node.remembered (.checkingRestriction peer line origin) :=
        ⟨hok, world, hpassed, hallowed⟩
      exact h.await_plain hnext rfl rfl
    · exact h
  | checkingRestriction peer line origin =>
    simp only [Node.goOn]
    split
    · exact h
    · rename_i hfree
      apply h.showOnce
      · intro keys n hn
        exact ⟨⟨hok, world, hpassed, by simpa using hfree⟩, hn⟩
      · exact fun n => rfl
      · intro n m hm
        cases hm
        rfl
  | naming peer line origin number =>
    have hshown : NodeOk run own (node.show' ⟨line, number, some (peer, origin)⟩) := by
      refine h.show' ⟨hok.1.written, hok.2, ?_⟩ (hshow number rfl)
      intro peer' origin' hlive
      cases hlive
      exact hok.1
    simp only [Node.goOn]
    split
    · rename_i horigin
      subst horigin
      have hnext : TaskOk run own _ (.relaying peer line number) := hok
      refine hshown.await hnext (by simp [Task.toShow]) ?_
      intro n hn
      cases hn
      exact hrelay number rfl
    · exact hshown
  | relaying peer line number =>
    refine h.relay (nodup_relayReceivers world line) ?_ (hrelay number rfl)
    intro receiver hreceiver
    rcases mem_relayReceivers hreceiver with ⟨hlive, hauthor, hcapable⟩
    exact ⟨hok.1, hok.1.direct, hok.2, hauthor, world, hpassed, hcapable, hlive⟩
  | checkingVisible line number =>
    simp only [Node.goOn]
    split
    · exact h.show' ⟨hok.1, hok.2, by simp⟩ (hshow number rfl)
    · exact h
  | announcing line =>
    simp only [Node.goOn]
    split
    · exact h
    · rename_i hnew
      exact h.remember fun hin => hnew (.inr hin)

end NodeOk

theorem goOn_sent (hok : TaskOk run own node.remembered task) :
    ∀ message ∈ (Node.goOn own world node task).2, .write (message.2.line own) ∈ run := by
  intro message hmessage
  cases task with
  | relaying peer line number =>
    rcases mem_map.mp hmessage with ⟨receiver, _, rfl⟩
    rw [frame_line]
    exact hok.1.written
  | announcing line =>
    rcases mem_map.mp hmessage with ⟨receiver, _, rfl⟩
    rw [ownFrame_line hok.1]
    exact hok.2
  | _ => exact absurd hmessage not_mem_nil

structure NetOk (run : List (Event φ σ)) (net : Network φ σ) : Prop where
  nodes : ∀ own, NodeOk run own (net.nodes own)
  inFlight : ∀ envelope ∈ net.inFlight, .write (envelope.frame.line envelope.sender) ∈ run
  written : ∀ line ∈ net.written, .write line ∈ run

namespace NetOk

theorem init : NetOk [] (.init : Network φ σ) where
  nodes _ := nodeOk_init
  inFlight := by simp [Network.init]
  written := by simp [Network.init]

section

variable (h : NetOk run net)

include h

theorem mono (more : List (Event φ σ)) : NetOk (run ++ more) net where
  nodes own := (h.nodes own).mono more
  inFlight envelope hmem := mem_append_left _ (h.inFlight envelope hmem)
  written line hmem := mem_append_left _ (h.written line hmem)

theorem set (hnode : NodeOk run own node) : NetOk run (net.set own node) where
  nodes other := by
    simp only [Network.set]
    split
    · rename_i hsame
      rw [hsame]
      exact hnode
    · exact h.nodes other
  inFlight := h.inFlight
  written := h.written

theorem deliver (i : Nat) : NetOk run (step net (.deliver i)) := by
  rw [step]
  split
  · exact h
  · rename_i envelope hi
    have hmem : envelope ∈ net.inFlight := mem_of_getElem? hi
    have hauthorizing : TaskOk run envelope.receiver (net.nodes envelope.receiver).remembered
        (.authorizing envelope.sender envelope.frame) :=
      ⟨envelope.apart, h.inFlight envelope hmem⟩
    have hawait := h.set ((h.nodes envelope.receiver).await_plain hauthorizing rfl rfl)
    exact ⟨hawait.nodes, fun other hother => h.inFlight other (mem_of_mem_eraseIdx hother),
      hawait.written⟩

theorem materialize (own : φ) (line : Line φ σ) :
    NetOk run (step net (.materialize own line)) := by
  rw [step]
  split
  · rename_i hwritten
    apply h.set
    apply (h.nodes own).showOnce
    · intro keys n hn
      exact ⟨h.written line hwritten, hn⟩
    · exact fun n => rfl
    · intro n m hm
      cases hm
  · exact h

theorem goOn (hpassed : ∀ own i world task,
      (net.nodes own).tasks[i]? = some task → Passed (run ++ [.goOn own i world]) own task world)
    (own : φ) (i : Nat) (world : World φ σ) :
    NetOk (run ++ [.goOn own i world]) (step net (.goOn own i world)) := by
  have hlonger := h.mono [Event.goOn own i world]
  rw [step]
  split
  · exact hlonger
  · rename_i task htask
    have hok := (hlonger.nodes own).tasks task (mem_of_getElem? htask)
    rcases (hlonger.nodes own).without htask with ⟨hwithout, hshow, hrelay⟩
    have hnode := hlonger.set (hwithout.goOn hok (hpassed own i world task htask) hshow hrelay)
    refine ⟨hnode.nodes, ?_, hnode.written⟩
    intro envelope henvelope
    rcases mem_append.mp henvelope with hold | hnew
    · exact hlonger.inFlight envelope hold
    · rcases mem_filterMap.mp hnew with ⟨message, hmessage, hpost⟩
      split at hpost
      · cases hpost
        exact @goOn_sent _ _ _ _ _ _ _ { net.nodes own with tasks := (net.nodes own).tasks.eraseIdx i }
          _ hok message hmessage
      · cases hpost

theorem step (hnet : net = run.foldl LiveLines.step .init)
    (event : Event φ σ) : NetOk (run ++ [event]) (step net event) := by
  have hlonger := h.mono [event]
  cases event with
  | write line =>
    have hwritten : Event.write line ∈ run ++ [Event.write line] := by simp
    have hannouncing : TaskOk (run ++ [Event.write line]) line.authorNode
        (net.nodes line.authorNode).remembered (.announcing line) := ⟨rfl, hwritten⟩
    have hawait := hlonger.set ((hlonger.nodes line.authorNode).await_plain hannouncing rfl rfl)
    refine ⟨hawait.nodes, hawait.inFlight, ?_⟩
    intro other hother
    rcases mem_append.mp hother with hold | hnew
    · exact hlonger.written other hold
    · rw [mem_singleton.mp hnew]
      exact hwritten
  | deliver i => exact hlonger.deliver i
  | lose i =>
    exact ⟨hlonger.nodes,
      fun other hother => hlonger.inFlight other (mem_of_mem_eraseIdx hother),
      hlonger.written⟩
  | goOn own i world =>
    apply h.goOn
    intro own i world task htask
    exact ⟨run, [], i, rfl, by rw [← hnet]; exact htask⟩
  | materialize own line => exact hlonger.materialize own line

end

theorem foldl (run : List (Event φ σ)) : NetOk run (run.foldl LiveLines.step .init) := by
  induction run using List.reverseRecOn with
  | nil => exact .init
  | append_singleton run event ih =>
    rw [foldl_append]
    exact ih.step rfl event

end NetOk

structure ShowsOnce (run : List (Event φ σ)) (own : φ) (node : Node φ σ) : Prop where
  recent : HoldsLast maxShownLive node.shownLive node.remembered
  shown : ∀ broadcast ∈ node.broadcasts, ShownRightly run own node.remembered broadcast
  once : (node.broadcasts.map Broadcast.number).Nodup
  /-- The same line is shown again only after so many others. -/
  apart : ∀ b ∈ node.broadcasts, ∀ b' ∈ node.broadcasts, b.line.shownKey = b'.line.shownKey →
    b.number < b'.number → b.number + maxShownLive < b'.number
  relayed : ∀ relay ∈ node.relays, RelayedRightly run own node.remembered relay
  /-- No number is passed on twice to the same peer. -/
  relayedOnce : (node.relays.map fun relay => (relay.number, relay.receiver)).Nodup
  /-- The same line is passed on again only after so many others. -/
  relayedApart : ∀ r ∈ node.relays, ∀ r' ∈ node.relays, r.line.shownKey = r'.line.shownKey →
    r.number < r'.number → r.number + maxShownLive < r'.number

/-- For every network, every order in which lines are written, frames arrive or are lost, events
come in and handlers go on, and whatever each handler reads. -/
theorem lines_shown_once (run : List (Event φ σ)) (own : φ) :
    ShowsOnce run own ((run.foldl step .init).nodes own) := by
  have h := (NetOk.foldl run).nodes own
  constructor
  · exact h.recent
  · exact h.broadcasts
  · exact (nodup_append.mp h.shownOnce).2.1
  · intro b hb b' hb' hsame hlt
    exact h.spaced.apart (h.broadcasts b hb).numbered (h.broadcasts b' hb').numbered hsame hlt
  · exact h.relays
  · exact h.relayedOnce
  · intro r hr r' hr' hsame hlt
    exact h.spaced.apart (h.relays r hr).numbered (h.relays r' hr').numbered hsame hlt

end LiveLines

end NetBBS
