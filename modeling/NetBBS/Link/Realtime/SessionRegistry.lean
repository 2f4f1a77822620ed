import Mathlib
import NetBBS.Foundation.Runs

/-! # One session for each pair of nodes -/

namespace NetBBS.SessionRegistry

open List Foundation

variable {φ : Type} [LinearOrder φ]

structure Connection (φ : Type) where
  initiator : φ
  number : Nat
deriving DecidableEq

/-- What a registry holds of one peer, and the connections to it that it was given or that closed. -/
structure Peer (φ : Type) where
  session : Option (Connection φ) := none
  /-- Those whose `admit` waits for another session to close. -/
  waiting : List (Connection φ) := []
  admitted : List (Connection φ) := []
  closed : List (Connection φ) := []

def Peer.close (peer : Peer φ) (c : Connection φ) : Peer φ := { peer with closed := c :: peer.closed }

/-- `admit`, up to where it waits. -/
def Peer.admits (own remote : φ) (retired : Bool) (c : Connection φ) (peer : Peer φ) : Peer φ :=
  let given := { peer with admitted := c :: peer.admitted }
  if retired = true then given.close c
  else
    match peer.session with
    | none => { given with session := some c }
    | some existing =>
      let replaced := { given.close existing with waiting := c :: peer.waiting }
      if existing = c then given
      else if existing.initiator = own ↔ c.initiator = own then replaced
      else if c.initiator = own ↔ own < remote then replaced
      else given.close c

inductive Action (φ : Type) where
  | admits (retired : Bool) (c : Connection φ)
  /-- The other session is closed: `admit` goes on. -/
  | register (c : Connection φ)
  /-- The dialler gives up while `admit` waits. -/
  | abandon (c : Connection φ)
  /-- The connection fails, or the peer closed it. -/
  | close (c : Connection φ)
  /-- The watcher of a closed session ends. -/
  | watched (c : Connection φ)

def Peer.step (own remote : φ) (peer : Peer φ) : Action φ → Peer φ
  | .admits retired c => peer.admits own remote retired c
  | .register c =>
    if c ∈ peer.waiting then { peer with session := some c, waiting := peer.waiting.erase c } else peer
  | .abandon c => { peer.close c with waiting := peer.waiting.erase c }
  | .close c => peer.close c
  | .watched c => if peer.session = some c ∧ c ∈ peer.closed then { peer with session := none } else peer

abbrev Network (φ : Type) := φ → φ → Peer φ

def start : Network φ := fun _ _ => {}

def step (network : Network φ) (event : φ × φ × Action φ) : Network φ := fun own remote =>
  if own = event.1 ∧ remote = event.2.1 then (network own remote).step own remote event.2.2
  else network own remote

/-- No connection is given to a registry while another waits there. -/
def OneAtATime (run : List (φ × φ × Action φ)) : Prop :=
  ∀ v ∈ visited step start run, ∀ retired c, v.2.2.2 = .admits retired c →
    (v.1 v.2.1 v.2.2.1).waiting = []

/-- Every open connection is on file or waits for the one on file to close. -/
structure Kept (peer : Peer φ) : Prop where
  kept : ∀ c ∈ peer.admitted, c ∈ peer.closed ∨ peer.session = some c ∨ c ∈ peer.waiting
  session : ∀ c, peer.session = some c → c ∈ peer.admitted
  admitted : ∀ c ∈ peer.waiting, c ∈ peer.admitted
  waiting : ∀ c ∈ peer.waiting, peer.waiting = [c] ∧ ∀ s, peer.session = some s → s ∈ peer.closed

theorem Kept.step {own remote : φ} {peer : Peer φ} (h : Kept peer) (action : Action φ)
    (hgiven : ∀ retired c, action = .admits retired c → peer.waiting = []) :
    Kept (peer.step own remote action) := by
  obtain ⟨hkept, hsession, hadmitted, hwaiting⟩ := h
  cases action with
  | admits retired c =>
    have hnone := hgiven retired c rfl
    unfold Peer.step Peer.admits Peer.close
    constructor <;> grind
  | register c | abandon c | close c | watched c =>
    simp only [Peer.step, Peer.close]
    constructor <;> grind

theorem kept_run {run : List (φ × φ × Action φ)} (hrun : OneAtATime run) (own remote : φ) :
    Kept (run.foldl step start own remote) := by
  refine foldl_invariant (P := fun network => Kept (network own remote)) run start ?_ fun v hv hkept => ?_
  · constructor <;> simp [start]
  · unfold SessionRegistry.step
    split
    · next hsame =>
      obtain ⟨rfl, rfl⟩ := hsame
      exact hkept.step _ (hrun v hv)
    · exact hkept

/-- Both ends know of the same connections and of what is closed, and nothing is under way. -/
structure Settled (here there : Peer φ) : Prop where
  admitted : ∀ c, c ∈ here.admitted ↔ c ∈ there.admitted
  closed : ∀ c, c ∈ here.closed ↔ c ∈ there.closed
  waiting : here.waiting = [] ∧ there.waiting = []
  watched : ∀ c ∈ here.closed, here.session ≠ some c ∧ there.session ≠ some c

/-- However connections are dialled, given to the registries at their ends and lost: none leaves two to
one peer open, and once all is settled both ends hold the same one, if any. -/
theorem sessions_agree {run : List (φ × φ × Action φ)} (hrun : OneAtATime run) (own remote : φ) :
    let here := run.foldl step start own remote
    let there := run.foldl step start remote own
    (here.waiting = [] → ∀ c ∈ here.admitted, c ∉ here.closed → here.session = some c) ∧
      (Settled here there → here.session = there.session) := by
  intro here there
  have hhere : Kept here := kept_run hrun own remote
  have hthere : Kept there := kept_run hrun remote own
  refine ⟨fun hwaiting c hc hopen => ?_, fun ⟨hadmitted, hclosed, hwaiting, hwatched⟩ => ?_⟩
  · have hkept := hhere.kept c hc
    simp_all
  · ext c
    constructor
    · intro hc
      have hkept := hthere.kept c ((hadmitted c).mp (hhere.session c hc))
      grind
    · intro hc
      have hkept := hhere.kept c ((hadmitted c).mpr (hthere.session c hc))
      grind

/-- Node `0` dials node `1` while node `1` dials node `0`. -/
def crossedDials : List (Nat × Nat × Action Nat) :=
  [(0, 1, .admits false ⟨1, 0⟩), (1, 0, .admits false ⟨0, 0⟩), (0, 1, .admits false ⟨0, 0⟩),
    (1, 0, .admits false ⟨1, 0⟩), (0, 1, .register ⟨0, 0⟩)]

theorem sessions_agree_crossedDials : (crossedDials.foldl step start 0 1).session =
    (crossedDials.foldl step start 1 0).session := by
  refine (sessions_agree ?_ 0 1).2 ?_
  · simp [OneAtATime, crossedDials, visited, start, step, Peer.step, Peer.admits]
  · constructor <;>
      simp [crossedDials, start, step, Peer.step, Peer.admits, Peer.close, or_comm]

/-- Only these two connections are given to a registry, and the first does not fail. -/
def Undisturbed (winner loser : Connection φ) : Action φ → Prop
  | .admits retired c => retired = false ∧ (c = winner ∨ c = loser)
  | .abandon c | .close c => c ≠ winner
  | .register _ | .watched _ => True

structure Wins (winner loser : Connection φ) (peer : Peer φ) : Prop where
  stays : winner ∉ peer.closed
  session : ∀ c, peer.session = some c → c = winner ∨ c = loser
  waiting : ∀ c ∈ peer.waiting, c = winner ∧ loser ∈ peer.closed
  kept : winner ∈ peer.admitted → peer.session = some winner ∨ winner ∈ peer.waiting
  beaten : loser ∈ peer.admitted → loser ∈ peer.closed ∨ peer.session = some loser

theorem Wins.step {own remote : φ} {winner loser : Connection φ} {peer : Peer φ}
    (h : Wins winner loser peer) (hwinner : winner.initiator = own ↔ own < remote)
    (hloser : ¬(loser.initiator = own ↔ own < remote)) {action : Action φ}
    (haction : Undisturbed winner loser action) : Wins winner loser (peer.step own remote action) := by
  obtain ⟨hstays, hsession, hwaiting, hkept, hbeaten⟩ := h
  have hne : winner ≠ loser := by rintro rfl; exact hloser hwinner
  cases action with
  | admits retired c =>
    obtain ⟨rfl, rfl | rfl⟩ := haction <;>
      · simp only [Peer.step, Peer.admits, Peer.close]
        constructor <;> grind
  | register c | abandon c | close c | watched c =>
    simp only [Undisturbed] at haction
    simp only [Peer.step, Peer.close]
    constructor <;> grind [mem_of_mem_erase]

/-- Of two nodes that dial each other, the lower one's dial stays at both ends, in whatever order the two
dials are admitted there, and the other is closed. -/
theorem lowerDial_stays {low high : φ} (hlt : low < high) {i j : Nat} {own remote : φ}
    (hends : own = low ∧ remote = high ∨ own = high ∧ remote = low) {run : List (φ × φ × Action φ)}
    (hrun : ∀ event ∈ run, event.1 = own → event.2.1 = remote →
      Undisturbed ⟨low, i⟩ ⟨high, j⟩ event.2.2) :
    let peer := run.foldl step start own remote
    ⟨low, i⟩ ∉ peer.closed ∧ (peer.waiting = [] → ⟨low, i⟩ ∈ peer.admitted →
      peer.session = some ⟨low, i⟩ ∧ (⟨high, j⟩ ∈ peer.admitted → ⟨high, j⟩ ∈ peer.closed)) := by
  intro peer
  have hwins : Wins ⟨low, i⟩ ⟨high, j⟩ peer := by
    refine foldl_invariant (P := fun network => Wins _ _ (network own remote)) run start ?_ fun v hv hwins => ?_
    · constructor <;> simp [start]
    · unfold SessionRegistry.step
      split
      · next hsame =>
        refine hwins.step ?_ ?_ (hrun v.2 (visited_input _ _ v hv) hsame.1.symm hsame.2.symm) <;> grind
      · exact hwins
  obtain ⟨hstays, -, -, hkept, hbeaten⟩ := hwins
  refine ⟨hstays, fun hwaiting hadmitted => ?_⟩
  have hsession : peer.session = some ⟨low, i⟩ := by simpa [hwaiting] using hkept hadmitted
  exact ⟨hsession, fun hgiven => by simpa [hsession, hlt.ne] using hbeaten hgiven⟩

theorem lowerDial_stays_crossedDials : (crossedDials.foldl step start 1 0).session = some ⟨0, 0⟩ := by
  refine ((lowerDial_stays (j := 0) Nat.zero_lt_one (.inr ⟨rfl, rfl⟩) ?_).2 ?_ ?_).1
  · simp [crossedDials, Undisturbed]
  all_goals simp [crossedDials, start, step, Peer.step, Peer.admits, Peer.close]

end NetBBS.SessionRegistry
