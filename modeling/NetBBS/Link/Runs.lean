import NetBBS.Foundation.Runs
import NetBBS.Link.Handled

/-! # Runs of a node over pushed batches -/

namespace NetBBS

open Foundation List

variable {env : Env}

structure Push where
  sender : String
  now : Int
  rawEvents : List Json

structure Visit (env : Env) where
  node : LinkNode env
  sender : String
  now : Int
  raw : Json

namespace Visit

def result (visit : Visit env) : Except PyError (Option String) :=
  (visit.node.handleEvent visit.sender visit.now visit.raw).1

def after (visit : Visit env) : LinkNode env :=
  (visit.node.handleEvent visit.sender visit.now visit.raw).2

theorem handled (visit : Visit env) :
    Handled visit.node visit.sender visit.raw visit.result visit.after :=
  handleEvent_handled visit.node visit.sender visit.now visit.raw

end Visit

namespace LinkNode

def visitsEach (node : LinkNode env) (sender : String) (now : Int) : List Json → List (Visit env)
  | [] => []
  | raw :: rest =>
    { node, sender, now, raw } ::
      match node.handleEvent sender now raw with
      | (.error _, _) => []
      | (.ok _, node) => node.visitsEach sender now rest

def visits (node : LinkNode env) (push : Push) : List (Visit env) :=
  match node.peerDirectory.peers.get? push.sender with
  | none => []
  | some _ =>
    if maxEventsPerRequest < push.rawEvents.length then []
    else node.visitsEach push.sender push.now push.rawEvents

def receive (node : LinkNode env) (push : Push) : LinkNode env :=
  (node.handleEvents push.sender push.now push.rawEvents).2

def receiveAll (node : LinkNode env) (pushes : List Push) : LinkNode env :=
  pushes.foldl receive node

def visitsAll (node : LinkNode env) (pushes : List Push) : List (Visit env) :=
  (visited receive node pushes).flatMap fun (node, push) => node.visits push

variable {sender : String} {P : LinkNode env → Prop} {now : Int}

private theorem visitsEach_pushed (rawEvents : List Json)
    (node : LinkNode env) : ∀ v ∈ node.visitsEach sender now rawEvents,
      v.sender = sender ∧ v.now = now ∧ v.raw ∈ rawEvents := by
  induction rawEvents generalizing node with
  | nil => simp [visitsEach]
  | cons raw rest ih =>
    intro v hv
    simp only [visitsEach, mem_cons] at hv
    rcases hv with rfl | hv
    · simp
    · split at hv
      · simp at hv
      · obtain ⟨hsender, hnow, hraw⟩ := ih _ v hv
        exact ⟨hsender, hnow, .tail _ hraw⟩

theorem visits_pushed {node : LinkNode env} {push : Push} : ∀ v ∈ node.visits push,
      v.sender = push.sender ∧ v.now = push.now ∧ v.raw ∈ push.rawEvents := by
  intro v hv
  unfold visits at hv
  cases hpeer : node.peerDirectory.peers.get? push.sender with
  | none => simp [hpeer] at hv
  | some record =>
    simp only [hpeer] at hv
    split at hv
    · simp at hv
    · exact visitsEach_pushed push.rawEvents node v hv

theorem visitsAll_pushed (node : LinkNode env) (pushes : List Push) : ∀ v ∈ node.visitsAll pushes,
      ∃ push ∈ pushes, v.sender = push.sender ∧ v.now = push.now ∧ v.raw ∈ push.rawEvents := by
  intro v hv
  obtain ⟨w, hw, hv⟩ := mem_flatMap.mp hv
  exact ⟨w.2, visited_input pushes node w hw, visits_pushed v hv⟩

private theorem handleEach_invariant (rawEvents : List Json) (node : LinkNode env) (h : P node)
    (hstep : ∀ v ∈ node.visitsEach sender now rawEvents, P v.node → P v.after) :
    P (node.handleEach sender now rawEvents).2 := by
  induction rawEvents generalizing node with
  | nil => exact h
  | cons raw rest ih =>
    have hafter : P (node.handleEvent sender now raw).2 :=
      hstep { node, sender, now, raw } (by simp [visitsEach]) h
    simp only [visitsEach, mem_cons] at hstep
    simp only [handleEach]
    split
    · rename_i e node' heq
      rw [heq] at hafter
      exact hafter
    · rename_i accepted node' heq
      rw [heq] at hafter
      simp only [heq] at hstep
      exact ih node' hafter fun v hv => hstep v (.inr hv)

private theorem visitsEach_invariant (rawEvents : List Json) (node : LinkNode env) (h : P node)
    (hstep : ∀ v ∈ node.visitsEach sender now rawEvents, P v.node → P v.after) :
    ∀ v ∈ node.visitsEach sender now rawEvents, P v.node := by
  induction rawEvents generalizing node with
  | nil => simp [visitsEach]
  | cons raw rest ih =>
    have hafter : P (node.handleEvent sender now raw).2 :=
      hstep { node, sender, now, raw } (by simp [visitsEach]) h
    simp only [visitsEach, mem_cons] at hstep ⊢
    rintro v (rfl | hv)
    · exact h
    · split at hv
      · simp at hv
      · rename_i accepted node' heq
        rw [heq] at hafter
        simp only [heq] at hstep
        exact ih node' hafter (fun v hv => hstep v (.inr hv)) v hv

theorem receive_invariant (node : LinkNode env) (push : Push)
    (h : P node) (hstep : ∀ v ∈ node.visits push, P v.node → P v.after) :
    P (node.receive push) := by
  unfold receive handleEvents
  unfold visits at hstep
  cases hpeer : node.peerDirectory.peers.get? push.sender with
  | none => exact h
  | some record =>
    simp only [hpeer] at hstep ⊢
    split
    · exact h
    · rename_i hlength
      rw [if_neg hlength] at hstep
      exact handleEach_invariant push.rawEvents node h hstep

private theorem visits_invariant (node : LinkNode env) (push : Push)
    (h : P node) (hstep : ∀ v ∈ node.visits push, P v.node → P v.after) :
    ∀ v ∈ node.visits push, P v.node := by
  unfold visits at hstep ⊢
  cases hpeer : node.peerDirectory.peers.get? push.sender with
  | none => simp
  | some record =>
    simp only [hpeer] at hstep ⊢
    split
    · simp
    · rename_i hlength
      rw [if_neg hlength] at hstep
      exact visitsEach_invariant push.rawEvents node h hstep

theorem receiveAll_invariant (node : LinkNode env) (pushes : List Push)
    (h : P node) (hstep : ∀ v ∈ node.visitsAll pushes, P v.node → P v.after) :
    P (node.receiveAll pushes) := by
  refine foldl_invariant pushes node h fun w hw hP => receive_invariant w.1 w.2 hP fun v hv => ?_
  exact hstep v (mem_flatMap.mpr ⟨w, hw, hv⟩)

theorem visitsAll_invariant (node : LinkNode env) (pushes : List Push)
    (h : P node) (hstep : ∀ v ∈ node.visitsAll pushes, P v.node → P v.after) :
    ∀ v ∈ node.visitsAll pushes, P v.node := by
  intro v hv
  obtain ⟨w, hw, hv⟩ := mem_flatMap.mp hv
  have hvisits : ∀ w ∈ visited receive node pushes, ∀ v ∈ w.1.visits w.2, P v.node → P v.after :=
    fun w hw v hv => hstep v (mem_flatMap.mpr ⟨w, hw, hv⟩)
  have hstart := visited_invariant pushes node h
    (fun w hw hP => receive_invariant w.1 w.2 hP (hvisits w hw)) w hw
  exact visits_invariant w.1 w.2 hstart (hvisits w hw) v hv

end LinkNode

end NetBBS
