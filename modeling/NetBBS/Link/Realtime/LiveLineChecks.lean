import Mathlib.Data.List.Perm.Basic
import NetBBS.Link.Realtime.LiveLines

/-! # What a node shows and passes on -/

namespace NetBBS

open Foundation List

namespace LiveLines

variable {φ σ : Type} [DecidableEq φ] [DecidableEq σ]

def Passed (run : List (Event φ σ)) (own : φ) (task : Task φ σ) (world : World φ σ) : Prop :=
  ∃ before after i, run = before ++ .goOn own i world :: after ∧
    ((before.foldl step .init).nodes own).tasks[i]? = some task

structure Attributed (run : List (Event φ σ)) (own peer : φ) (line : Line φ σ) (origin : Option φ) :
    Prop where
  apart : peer ≠ own
  written : .write line ∈ run
  source : line.authorNode = peer ∨ origin = some peer
  notOwn : line.authorNode ≠ own
  read : ∃ frame world, Passed run own (.readingOrigin peer frame) world ∧ frame.line peer = line ∧
    world.origin line.channelId = origin

structure Judged (run : List (Event φ σ)) (own peer : φ) (line : Line φ σ) (origin : Option φ) :
    Prop extends Attributed run own peer line origin where
  judged : ∃ world, Passed run own (.judgingAuthor peer line origin) world ∧
    world.liveAuthorAllowed line.authorNode line.userId (line.authorNode ≠ peer) = true

structure Admitted (run : List (Event φ σ)) (own peer : φ) (line : Line φ σ) (origin : Option φ) :
    Prop extends Judged run own peer line origin where
  unrestricted : ∃ world, Passed run own (.checkingRestriction peer line origin) world ∧
    world.restricted line.channelId line.authorNode line.userId = false

structure ShownRightly (run : List (Event φ σ)) (own : φ) (remembered : List (ShownKey φ σ))
    (broadcast : Broadcast φ σ) : Prop where
  written : .write broadcast.line ∈ run
  numbered : remembered[broadcast.number]? = some broadcast.line.shownKey
  admitted : ∀ peer origin, broadcast.live = some (peer, origin) →
    Admitted run own peer broadcast.line origin

structure RelayedRightly (run : List (Event φ σ)) (own : φ) (remembered : List (ShownKey φ σ))
    (relay : Relayed φ σ) : Prop where
  admitted : Admitted run own relay.peer relay.line (some own)
  direct : relay.line.authorNode = relay.peer
  numbered : remembered[relay.number]? = some relay.line.shownKey
  notAuthor : relay.receiver ≠ relay.line.authorNode
  capable : ∃ world, Passed run own (.relaying relay.peer relay.line relay.number) world ∧
    world.peerCapable relay.receiver = true ∧
    relay.receiver ∈ world.liveSubscribers relay.line.channelId

/-- What a handler knows when it stops. -/
def TaskOk (run : List (Event φ σ)) (own : φ) (remembered : List (ShownKey φ σ)) :
    Task φ σ → Prop
  | .authorizing peer frame => peer ≠ own ∧ .write (frame.line peer) ∈ run
  | .readingOrigin peer frame => peer ≠ own ∧ .write (frame.line peer) ∈ run
  | .judgingAuthor peer line origin => Attributed run own peer line origin
  | .checkingRestriction peer line origin => Judged run own peer line origin
  | .naming peer line origin number =>
    Admitted run own peer line origin ∧ remembered[number]? = some line.shownKey
  | .relaying peer line number =>
    Admitted run own peer line (some own) ∧ remembered[number]? = some line.shownKey
  | .checkingVisible line number => .write line ∈ run ∧ remembered[number]? = some line.shownKey
  | .announcing line => line.authorNode = own ∧ .write line ∈ run

def Task.toShow : Task φ σ → Option Nat
  | .naming _ _ _ number => some number
  | .checkingVisible _ number => some number
  | _ => none

def Task.toRelay : Task φ σ → Option Nat
  | .naming _ _ _ number => some number
  | .relaying _ _ number => some number
  | _ => none

structure NodeOk (run : List (Event φ σ)) (own : φ) (node : Node φ σ) : Prop where
  recent : HoldsLast maxShownLive node.shownLive node.remembered
  spaced : Spaced maxShownLive node.remembered
  tasks : ∀ task ∈ node.tasks, TaskOk run own node.remembered task
  broadcasts : ∀ broadcast ∈ node.broadcasts, ShownRightly run own node.remembered broadcast
  relays : ∀ relay ∈ node.relays, RelayedRightly run own node.remembered relay
  shownOnce : (node.tasks.filterMap Task.toShow ++ node.broadcasts.map Broadcast.number).Nodup
  relayOnce : (node.tasks.filterMap Task.toRelay).Nodup
  relayNew : ∀ relay ∈ node.relays, relay.number ∉ node.tasks.filterMap Task.toRelay
  relayedOnce : (node.relays.map fun relay => (relay.number, relay.receiver)).Nodup

variable {run more : List (Event φ σ)} {own peer : φ} {line : Line φ σ} {origin : Option φ}
  {remembered : List (ShownKey φ σ)} {key : ShownKey φ σ} {task : Task φ σ} {node : Node φ σ}
  {world : World φ σ} {number : Nat}

theorem nodeOk_init : NodeOk run own (Node.init : Node φ σ) where
  recent := holdsLast_nil
  spaced := spaced_nil
  tasks := by simp [Node.init]
  broadcasts := by simp [Node.init]
  relays := by simp [Node.init]
  shownOnce := by simp [Node.init]
  relayOnce := by simp [Node.init]
  relayNew := by simp [Node.init]
  relayedOnce := by simp [Node.init]

theorem Passed.mono (h : Passed run own task world) (more : List (Event φ σ)) :
    Passed (run ++ more) own task world := by
  rcases h with ⟨before, after, i, rfl, htask⟩
  exact ⟨before, after ++ more, i, by simp, htask⟩

theorem Attributed.mono (h : Attributed run own peer line origin) (more : List (Event φ σ)) :
    Attributed (run ++ more) own peer line origin where
  apart := h.apart
  written := mem_append_left _ h.written
  source := h.source
  notOwn := h.notOwn
  read := by
    rcases h.read with ⟨frame, world, hpassed, hread⟩
    exact ⟨frame, world, hpassed.mono more, hread⟩

theorem Judged.mono (h : Judged run own peer line origin) (more : List (Event φ σ)) :
    Judged (run ++ more) own peer line origin where
  toAttributed := h.toAttributed.mono more
  judged := by
    rcases h.judged with ⟨world, hpassed, hallowed⟩
    exact ⟨world, hpassed.mono more, hallowed⟩

theorem Admitted.mono (h : Admitted run own peer line origin) (more : List (Event φ σ)) :
    Admitted (run ++ more) own peer line origin where
  toJudged := h.toJudged.mono more
  unrestricted := by
    rcases h.unrestricted with ⟨world, hpassed, hfree⟩
    exact ⟨world, hpassed.mono more, hfree⟩

theorem getElem?_append_of_some {α : Type} {xs : List α} {i : Nat} {x : α} (h : xs[i]? = some x)
    (ys : List α) : (xs ++ ys)[i]? = some x := by
  rw [List.getElem?_append_left (List.getElem?_eq_some_iff.mp h).1]
  exact h

theorem TaskOk.mono (h : TaskOk run own remembered task) (more : List (Event φ σ))
    (keys : List (ShownKey φ σ)) : TaskOk (run ++ more) own (remembered ++ keys) task := by
  cases task with
  | authorizing peer frame => exact ⟨h.1, mem_append_left _ h.2⟩
  | readingOrigin peer frame => exact ⟨h.1, mem_append_left _ h.2⟩
  | judgingAuthor peer line origin => exact Attributed.mono h more
  | checkingRestriction peer line origin => exact Judged.mono h more
  | naming peer line origin number =>
    exact ⟨h.1.mono more, getElem?_append_of_some h.2 keys⟩
  | relaying peer line number => exact ⟨h.1.mono more, getElem?_append_of_some h.2 keys⟩
  | checkingVisible line number =>
    exact ⟨mem_append_left _ h.1, getElem?_append_of_some h.2 keys⟩
  | announcing line => exact ⟨h.1, mem_append_left _ h.2⟩

theorem ShownRightly.mono {broadcast : Broadcast φ σ}
    (h : ShownRightly run own remembered broadcast) (more : List (Event φ σ)) (keys : List (ShownKey φ σ)) :
    ShownRightly (run ++ more) own (remembered ++ keys) broadcast where
  written := mem_append_left _ h.written
  numbered := getElem?_append_of_some h.numbered keys
  admitted peer origin hlive := (h.admitted peer origin hlive).mono more

theorem RelayedRightly.mono {relay : Relayed φ σ} (h : RelayedRightly run own remembered relay)
    (more : List (Event φ σ)) (keys : List (ShownKey φ σ)) :
    RelayedRightly (run ++ more) own (remembered ++ keys) relay where
  admitted := h.admitted.mono more
  direct := h.direct
  numbered := getElem?_append_of_some h.numbered keys
  notAuthor := h.notAuthor
  capable := by
    rcases h.capable with ⟨world, hpassed, hcapable⟩
    exact ⟨world, hpassed.mono more, hcapable⟩

namespace NodeOk

section

variable (h : NodeOk run own node)

include h

theorem mono (more : List (Event φ σ)) : NodeOk (run ++ more) own node where
  recent := h.recent
  spaced := h.spaced
  tasks task htask := by simpa using (h.tasks task htask).mono more []
  broadcasts broadcast hmem := by simpa using (h.broadcasts broadcast hmem).mono more []
  relays relay hmem := by simpa using (h.relays relay hmem).mono more []
  shownOnce := h.shownOnce
  relayOnce := h.relayOnce
  relayNew := h.relayNew
  relayedOnce := h.relayedOnce

theorem toShow_lt :
    ∀ n ∈ node.tasks.filterMap Task.toShow ++ node.broadcasts.map Broadcast.number,
      n < node.remembered.length := by
  intro n hn
  have hlength : ∀ {key : ShownKey φ σ} {m : Nat}, node.remembered[m]? = some key →
      m < node.remembered.length := fun hkey => (List.getElem?_eq_some_iff.mp hkey).1
  rcases List.mem_append.mp hn with hn | hn
  · rcases List.mem_filterMap.mp hn with ⟨task, htask, hshow⟩
    have hok := h.tasks task htask
    cases task with
    | naming peer line origin number =>
      cases hshow
      exact hlength hok.2
    | checkingVisible line number =>
      cases hshow
      exact hlength hok.2
    | _ => cases hshow
  · rcases mem_map.mp hn with ⟨broadcast, hmem, rfl⟩
    exact hlength (h.broadcasts broadcast hmem).numbered

theorem toRelay_lt : ∀ n ∈ node.tasks.filterMap Task.toRelay, n < node.remembered.length := by
  intro n hn
  rcases mem_filterMap.mp hn with ⟨task, htask, hrelay⟩
  have hok := h.tasks task htask
  cases task with
  | naming peer line origin number =>
    cases hrelay
    exact (List.getElem?_eq_some_iff.mp hok.2).1
  | relaying peer line number =>
    cases hrelay
    exact (List.getElem?_eq_some_iff.mp hok.2).1
  | _ => cases hrelay

theorem without {i : Nat} (htask : node.tasks[i]? = some task) :
    NodeOk run own { node with tasks := node.tasks.eraseIdx i } ∧
      (∀ n ∈ task.toShow, n ∉ (node.tasks.eraseIdx i).filterMap Task.toShow ++
        node.broadcasts.map Broadcast.number) ∧
      (∀ n ∈ task.toRelay, n ∉ (node.tasks.eraseIdx i).filterMap Task.toRelay ∧
        ∀ relay ∈ node.relays, relay.number ≠ n) := by
  have hperm : (task :: node.tasks.eraseIdx i).Perm node.tasks := by
    rw [getElem?_eq_some_iff] at htask
    rcases htask with ⟨hlt, rfl⟩
    exact getElem_cons_eraseIdx_perm hlt
  have hshow : ((task :: node.tasks.eraseIdx i).filterMap Task.toShow ++
      node.broadcasts.map Broadcast.number).Nodup :=
    ((hperm.filterMap Task.toShow).append_right _).nodup_iff.mpr h.shownOnce
  have hrelay : ((task :: node.tasks.eraseIdx i).filterMap Task.toRelay).Nodup :=
    (hperm.filterMap Task.toRelay).nodup_iff.mpr h.relayOnce
  have hnew : ∀ relay ∈ node.relays,
      relay.number ∉ (task :: node.tasks.eraseIdx i).filterMap Task.toRelay := by
    intro relay hmem hin
    exact h.relayNew relay hmem ((hperm.filterMap Task.toRelay).mem_iff.mp hin)
  have hrest : ∀ {f : Task φ σ → Option Nat},
      ((node.tasks.eraseIdx i).filterMap f).Sublist
        ((task :: node.tasks.eraseIdx i).filterMap f) :=
    fun {f} => (sublist_cons_self task (node.tasks.eraseIdx i)).filterMap f
  refine ⟨?_, ?_, ?_⟩
  · exact {
      recent := h.recent
      spaced := h.spaced
      tasks := fun other hother => h.tasks other (mem_of_mem_eraseIdx hother)
      broadcasts := h.broadcasts
      relays := h.relays
      shownOnce := (hrest.append_right _).nodup hshow
      relayOnce := hrest.nodup hrelay
      relayNew := fun relay hmem hin => hnew relay hmem (hrest.subset hin)
      relayedOnce := h.relayedOnce }
  · intro n hn
    rw [filterMap_cons_some hn, cons_append, nodup_cons] at hshow
    exact hshow.1
  · intro n hn
    rw [filterMap_cons_some hn] at hrelay hnew
    rw [nodup_cons] at hrelay
    refine ⟨hrelay.1, ?_⟩
    rintro relay hmem rfl
    exact hnew relay hmem (.head _)

theorem await (hok : TaskOk run own node.remembered task)
    (hshow : ∀ n ∈ task.toShow, n ∉ node.tasks.filterMap Task.toShow ++ node.broadcasts.map Broadcast.number)
    (hrelay : ∀ n ∈ task.toRelay, n ∉ node.tasks.filterMap Task.toRelay ∧
      ∀ relay ∈ node.relays, relay.number ≠ n) : NodeOk run own (node.await task) := by
  have hperm : (node.tasks ++ [task]).Perm (task :: node.tasks) := perm_append_singleton ..
  have hshowPerm := (hperm.filterMap Task.toShow).append_right
    (node.broadcasts.map Broadcast.number)
  have hrelayPerm := hperm.filterMap Task.toRelay
  constructor
  · exact h.recent
  · exact h.spaced
  · intro other hother
    rcases mem_append.mp hother with hold | hnew
    · exact h.tasks other hold
    · rw [mem_singleton.mp hnew]
      exact hok
  · exact h.broadcasts
  · exact h.relays
  · refine hshowPerm.nodup_iff.mpr ?_
    cases hn : task.toShow with
    | none =>
      rw [filterMap_cons_none hn]
      exact h.shownOnce
    | some n =>
      rw [filterMap_cons_some hn, cons_append, nodup_cons]
      exact ⟨hshow n hn, h.shownOnce⟩
  · refine hrelayPerm.nodup_iff.mpr ?_
    cases hn : task.toRelay with
    | none =>
      rw [filterMap_cons_none hn]
      exact h.relayOnce
    | some n =>
      rw [filterMap_cons_some hn, nodup_cons]
      exact ⟨(hrelay n hn).1, h.relayOnce⟩
  · intro relay hmem hin
    rw [Node.await, hrelayPerm.mem_iff] at hin
    cases hn : task.toRelay with
    | none =>
      rw [filterMap_cons_none hn] at hin
      exact h.relayNew relay hmem hin
    | some n =>
      rw [filterMap_cons_some hn, mem_cons] at hin
      rcases hin with hsame | hold
      · exact (hrelay n hn).2 relay hmem hsame
      · exact h.relayNew relay hmem hold
  · exact h.relayedOnce

theorem await_plain (hok : TaskOk run own node.remembered task)
    (hshow : task.toShow = none) (hrelay : task.toRelay = none) : NodeOk run own (node.await task) :=
  h.await hok (by simp [hshow]) (by simp [hrelay])

theorem remember (hnew : key ∉ node.shownLive) : NodeOk run own (node.remember key) := by
  have hrecent : HoldsLast maxShownLive (node.remember key).shownLive (node.remember key).remembered :=
    HoldsLast.remember h.recent key
  have hspaced : Spaced maxShownLive (node.remember key).remembered :=
    Spaced.remember h.spaced h.recent hnew
  constructor
  · exact hrecent
  · exact hspaced
  · intro task htask
    have hmono := (h.tasks task htask).mono [] [key]
    rwa [append_nil] at hmono
  · intro broadcast hmem
    have hmono := (h.broadcasts broadcast hmem).mono [] [key]
    rwa [append_nil] at hmono
  · intro relay hmem
    have hmono := (h.relays relay hmem).mono [] [key]
    rwa [append_nil] at hmono
  · exact h.shownOnce
  · exact h.relayOnce
  · exact h.relayNew
  · exact h.relayedOnce

theorem showOnce {toTask : Nat → Task φ σ}
    (hok : ∀ keys : List (ShownKey φ σ), ∀ n, keys[n]? = some line.shownKey → TaskOk run own keys (toTask n))
    (hshow : ∀ n, (toTask n).toShow = some n)
    (hrelay : ∀ n m, m ∈ (toTask n).toRelay → m = n) : NodeOk run own (node.showOnce line toTask) := by
  rw [Node.showOnce]
  split
  · exact h
  · rename_i hnew
    refine (h.remember hnew).await (hok _ _ ?_) ?_ ?_
    · simp [Node.remember]
    · intro n hn hin
      rw [hshow] at hn
      cases hn
      exact absurd (h.toShow_lt _ hin) (Nat.lt_irrefl _)
    · intro n hn
      rw [hrelay _ n hn]
      constructor
      · intro hin
        exact absurd (h.toRelay_lt _ hin) (Nat.lt_irrefl _)
      · intro relay hmem hsame
        have hlt := (List.getElem?_eq_some_iff.mp (h.relays relay hmem).numbered).1
        omega

theorem show' {broadcast : Broadcast φ σ} (hok : ShownRightly run own node.remembered broadcast)
    (hnew : broadcast.number ∉ node.tasks.filterMap Task.toShow ++
      node.broadcasts.map Broadcast.number) : NodeOk run own (node.show' broadcast) where
  recent := h.recent
  spaced := h.spaced
  tasks := h.tasks
  broadcasts other hmem := by
    rcases mem_append.mp hmem with hold | hsame
    · exact h.broadcasts other hold
    · rw [mem_singleton.mp hsame]
      exact hok
  relays := h.relays
  shownOnce := by
    simp only [Node.show', map_append, map_cons, map_nil]
    rw [← append_assoc, (perm_append_singleton _ _).nodup_iff, nodup_cons]
    exact ⟨hnew, h.shownOnce⟩
  relayOnce := h.relayOnce
  relayNew := h.relayNew
  relayedOnce := h.relayedOnce

theorem relay {receivers : List φ} (hreceivers : receivers.Nodup)
    (hok : ∀ receiver ∈ receivers, RelayedRightly run own node.remembered ⟨peer, line, number, receiver⟩)
    (hnew : number ∉ node.tasks.filterMap Task.toRelay ∧ ∀ relay ∈ node.relays, relay.number ≠ number) :
    NodeOk run own { node with
      relays := node.relays ++ receivers.map (Relayed.mk peer line number) } where
  recent := h.recent
  spaced := h.spaced
  tasks := h.tasks
  broadcasts := h.broadcasts
  relays relay hmem := by
    rcases mem_append.mp hmem with hold | hin
    · exact h.relays relay hold
    · rcases mem_map.mp hin with ⟨receiver, hreceiver, rfl⟩
      exact hok receiver hreceiver
  shownOnce := h.shownOnce
  relayOnce := h.relayOnce
  relayNew relay hmem := by
    rcases mem_append.mp hmem with hold | hin
    · exact h.relayNew relay hold
    · rcases mem_map.mp hin with ⟨receiver, _, rfl⟩
      exact hnew.1
  relayedOnce := by
    simp only [map_append, map_map]
    rw [nodup_append]
    refine ⟨h.relayedOnce, ?_, ?_⟩
    · apply hreceivers.map
      intro a b hab
      exact (Prod.mk.inj hab).2
    · intro a ha b hb hab
      rcases mem_map.mp ha with ⟨relay, hrelay, rfl⟩
      rcases mem_map.mp hb with ⟨receiver, _, rfl⟩
      exact hnew.2 relay hrelay (Prod.mk.inj hab).1

end

end NodeOk

end LiveLines

end NetBBS
