import NetBBS.Foundation.StableSort
import NetBBS.Link.Store.SavedEvents

/-! # A revision chain after a restart -/

namespace NetBBS

open Foundation List

variable {env : Env}

structure StoredRevision (env : Env) where
  own : Bool
  createdAt : String
  revision : Revision env

structure StoredChain (linkEvents : List EventRow) (posts : List PostRow) (root : String)
    (chain : List (StoredRevision env)) : Prop where
  chained : RevisionChain root (chain.map StoredRevision.revision)
  received : (linkEvents.map EventRow.envelopeJson).filterMap (revisionOfRoot env root) =
    (chain.filter fun entry => !entry.own).map StoredRevision.revision
  own : (ownRevisionRows posts).filterMap (fun row =>
      (revisionOfRoot env root row.2).map fun revision => (row.1, revision)) =
    (chain.filter StoredRevision.own).map fun entry => (entry.createdAt, entry.revision)

structure Readable (env : Env) (linkEvents : List EventRow) (posts : List PostRow) : Prop where
  received : ∀ row ∈ linkEvents, ∃ found, revisionOf env row.envelopeJson = .ok found
  own : ∀ row ∈ ownRevisionRows posts, ∃ found, revisionOf env row.2 = .ok found

def ReadInOrder (first second : StoredRevision env) : Prop :=
  first.own = true → second.own = true ∧ first.createdAt ≤ second.createdAt

variable {α β : Type} {node' : LinkNode env} {other sender : String}

theorem map_snd_filterMap {γ : Type} (pick : β → Option γ) (entries : List (α × β)) :
    (entries.map Prod.snd).filterMap pick =
      (entries.filterMap fun entry => (pick entry.2).map fun picked => (entry.1, picked)).map
        Prod.snd := by
  induction entries with
  | nil => rfl
  | cons entry rest ih =>
    cases hpicked : pick entry.2 <;> simp [hpicked, ih]

theorem map_left_cancel {f : α → β} {xs ys : List α}
    (hf : ∀ a ∈ xs, ∀ b ∈ ys, f a = f b → a = b) (h : xs.map f = ys.map f) : xs = ys := by
  induction xs generalizing ys with
  | nil => simpa using h.symm
  | cons x xs ih =>
    cases ys with
    | nil => simp at h
    | cons y ys =>
      simp only [map_cons, List.cons.injEq] at h
      have hhead := hf x (.head _) y (.head _) h.1
      have htail := ih (fun a ha b hb => hf a (.tail _ ha) b (.tail _ hb))
        h.2
      rw [hhead, htail]

section Loaded

variable {linkEvents : List EventRow} {posts : List PostRow} {root : String}
    {chain : List (StoredRevision env)}

def readOrder (chain : List (StoredRevision env)) : List (StoredRevision env) :=
  chain.filter (fun entry => !entry.own) ++
    (chain.filter StoredRevision.own).insertionSort fun a b => a.createdAt ≤ b.createdAt

theorem readOrder_perm (chain : List (StoredRevision env)) : (readOrder chain).Perm chain := by
  unfold readOrder
  have hsorted := perm_insertionSort
    (fun a b : StoredRevision env => a.createdAt ≤ b.createdAt) (chain.filter StoredRevision.own)
  have hparts := filter_append_perm StoredRevision.own chain
  exact (perm_append_comm.trans (hsorted.append_right _)).trans hparts

instance instIsTransStored : IsTrans (StoredRevision env) fun a b => a.createdAt ≤ b.createdAt :=
  ⟨fun _ _ _ => String.le_trans⟩

instance instTotalStored : Std.Total fun a b : StoredRevision env => a.createdAt ≤ b.createdAt :=
  ⟨fun a b => String.le_total a.createdAt b.createdAt⟩

instance instIsTransKeyed {β : Type} : IsTrans (String × β) fun a b => a.1 ≤ b.1 :=
  ⟨fun _ _ _ => String.le_trans⟩

instance instTotalKeyed {β : Type} : Std.Total fun a b : String × β => a.1 ≤ b.1 :=
  ⟨fun a b => String.le_total a.1 b.1⟩

theorem StoredChain.selected (h : StoredChain linkEvents posts root chain) :
    (((ownRevisionRows posts).insertionSort fun a b => a.1 ≤ b.1).map Prod.snd).filterMap
        (revisionOfRoot env root) =
      ((chain.filter StoredRevision.own).insertionSort fun a b => a.createdAt ≤ b.createdAt).map
        StoredRevision.revision := by
  have hkeyed : ∀ {a b : String × Json} {a' b' : String × Revision env},
      (revisionOfRoot env root a.2).map (fun revision => (a.1, revision)) = some a' →
      (revisionOfRoot env root b.2).map (fun revision => (b.1, revision)) = some b' →
      (a.1 ≤ b.1 ↔ a'.1 ≤ b'.1) := by
    intro a b a' b' ha hb
    obtain ⟨_, -, rfl⟩ := Option.map_eq_some_iff.mp ha
    obtain ⟨_, -, rfl⟩ := Option.map_eq_some_iff.mp hb
    rfl
  rw [map_snd_filterMap, filterMap_insertionSort (fun a b : String × Json => a.1 ≤ b.1)
    (fun a b : String × Revision env => a.1 ≤ b.1) hkeyed, h.own]
  rw [← map_insertionSort (fun a b : StoredRevision env => a.createdAt ≤ b.createdAt)
    (fun a b : String × Revision env => a.1 ≤ b.1) _ _ (fun _ _ _ _ => Iff.rfl), map_map]
  rfl

theorem loadRevisions_readOrder (hreadable : Readable env linkEvents posts) :
    ∃ state, loadRevisions env linkEvents posts = .ok state ∧
      ∀ root (chain : List (StoredRevision env)), StoredChain linkEvents posts root chain →
        state.editChain root = (readOrder chain).map StoredRevision.revision := by
  have hreceivedRows : ∀ raw ∈ linkEvents.map EventRow.envelopeJson,
      ∃ found, revisionOf env raw = .ok found := by
    intro raw hraw
    obtain ⟨row, hrow, rfl⟩ := mem_map.mp hraw
    exact hreadable.received row hrow
  have hownRows : ∀ raw ∈ ((ownRevisionRows posts).insertionSort fun a b => a.1 ≤ b.1).map Prod.snd,
      ∃ found, revisionOf env raw = .ok found := by
    intro raw hraw
    obtain ⟨row, hrow, rfl⟩ := mem_map.mp hraw
    exact hreadable.own row ((mem_insertionSort _).mp hrow)
  obtain ⟨received, hreceived, hreceivedChain⟩ := replayRevisions_ok {} hreceivedRows
  obtain ⟨state, hstate, hchain⟩ := replayOwnRevisions_ok received hownRows
  refine ⟨state, ?_, ?_⟩
  · unfold loadRevisions
    rw [hreceived, ok_bind]
    exact hstate
  · intro root chain hstored
    have hread : received.editChain root ++ (((ownRevisionRows posts).insertionSort
        fun a b => a.1 ≤ b.1).map Prod.snd).filterMap (revisionOfRoot env root) =
        (readOrder chain).map StoredRevision.revision := by
      rw [hreceivedChain root, hstored.received, hstored.selected]
      unfold readOrder
      rw [map_append]
      rfl
    have hnodup : (((readOrder chain).map StoredRevision.revision).map Revision.contentId).Nodup :=
      (((readOrder_perm chain).map _).map _).nodup_iff.mpr hstored.chained.nodup
    rw [hchain root (hread ▸ hnodup)]
    exact hread

theorem readOrder_eq_iff (chain : List (StoredRevision env)) :
    readOrder chain = chain ↔ chain.Pairwise ReadInOrder :=
  parted_insertionSort_eq (fun a b : StoredRevision env => a.createdAt ≤ b.createdAt)
    StoredRevision.own chain

theorem StoredChain.loaded_iff (h : StoredChain linkEvents posts root chain) {state : BoardEventState env}
    (hstate : state.editChain root = (readOrder chain).map StoredRevision.revision) :
    state.editChain root = chain.map StoredRevision.revision ↔ chain.Pairwise ReadInOrder := by
  rw [hstate, ← readOrder_eq_iff]
  constructor
  · intro hsame
    have hinjective := inj_on_of_nodup_map (List.Nodup.of_map _ h.chained.nodup)
    apply map_left_cancel _ hsame
    intro a ha b hb hab
    exact hinjective ((readOrder_perm chain).mem_iff.mp ha) hb hab
  · intro hsame
    rw [hsame]

end Loaded

variable {raw : Json} {node : LinkNode env} {revision : Revision env}

theorem Handled.revised {contentId : String}
    {kind : RevisionKind} (h : Handled node sender raw (.ok (some contentId)) node')
    (hkind : (rawType raw).bind ObjectType.revisionKind = some kind) :
    ∃ root revision, Revised node raw root revision ∧
      node'.boardEvents = node.boardEvents.extendEditChain root revision := by
  cases h with
  | kept _ _ hnone => simp [hnone] at hkind
  | @signed event t signer change hverified =>
    rw [hverified.type, Option.bind_some] at hkind
    have hadmitted := hverified.admitted
    cases t <;> simp only [ObjectType.revisionKind, reduceCtorEq] at hkind
    all_goals
      obtain ⟨root, rootRaw, hrevises, rfl⟩ := hadmitted
      exact ⟨root, _, ⟨⟨_, signer, hverified, rfl⟩, rootRaw, hrevises⟩, rfl⟩
  | extended hextends => simp [hextends.type, ObjectType.revisionKind] at hkind
  | compromised hextends => simp [hextends.type, ObjectType.revisionKind] at hkind

theorem Revised.revisionOf_eq {root : String} (h : Revised node raw root revision) :
    revisionOf env raw = .ok (some (root, revision)) := by
  obtain ⟨⟨t, signer, hverified, hkind⟩, rootRaw, hrevises⟩ := h
  have htype : (rawType raw).bind ObjectType.revisionKind = some revision.kind := by
    rw [hverified.type, Option.bind_some, hkind]
  unfold revisionOf
  simp only [htype, hverified.filed, ok_bind, Filed.getItem_of_field_eq_str hrevises.names]
  rfl

theorem Handled.postEdits_unaccepted
    {result : Except PyError (Option String)} (h : Handled node sender raw result node')
    (hnone : ∀ contentId, result ≠ .ok (some contentId)) :
    node'.boardEvents = node.boardEvents := by
  cases h with
  | refused => rfl
  | unverified => rfl
  | passedBy => rfl
  | refreshed => rfl
  | healed => rfl
  | kept => exact absurd rfl (hnone _)
  | signed => exact absurd rfl (hnone _)
  | extended => exact absurd rfl (hnone _)
  | compromised => exact absurd rfl (hnone _)

structure RevisionStore (env : Env) where
  node : LinkNode env
  /-- By `id`. -/
  posts : List PostRow := []
  /-- By `received_at`. -/
  linkEvents : List EventRow := []
  /-- Every revision as it joined the chain of its root. -/
  chains : String → List (StoredRevision env) := fun _ => []

namespace RevisionStore

def join (store : RevisionStore env) (root : String) (entry : StoredRevision env) :
    String → List (StoredRevision env) :=
  fun other => if root = other then store.chains other ++ [entry] else store.chains other

def sign (store : RevisionStore env) (row : PostRow) (raw : Json) (root : String)
    (revision : Revision env) : RevisionStore env where
  node := { store.node.heal revision.contentId raw with
    boardEvents := store.node.boardEvents.extendEditChain root revision }
  posts := store.posts ++ [row]
  linkEvents := store.linkEvents
  chains := store.join root ⟨true, row.createdAt, revision⟩

def receive (store : RevisionStore env) (sender : String) (now : Int) (raw : Json) :
    RevisionStore env :=
  match store.node.handleEvent sender now raw with
  | (.ok (some contentId), node) =>
    match revisionOf env raw with
    | .ok (some (root, revision)) =>
      { store with
        node
        linkEvents := saveEvent store.linkEvents
          ⟨contentId, (rawField raw "board_id").str?, raw⟩
        chains := store.join root ⟨false, "", revision⟩ }
    | _ => { store with node }
  | (_, node) => { store with node }

end RevisionStore

theorem revisionOf_eq_some {raw : Json} {root : String}
    (h : revisionOf env raw = .ok (some (root, revision))) :
    revision.filed.field "root_post_id" = .str root := by
  unfold revisionOf at h
  split at h
  · simp at h
  · simp only [bind_eq_ok] at h
    obtain ⟨event, -, value, hvalue, h⟩ := h
    split at h
    · rw [pure_eq_ok, Option.some.injEq, Prod.mk.injEq] at h
      obtain ⟨rfl, rfl⟩ := h
      exact Filed.getItem_eq_field hvalue
    · simp at h

inductive StoreStep : RevisionStore env → RevisionStore env → Prop where
  | sign (store : RevisionStore env) {row : PostRow} {raw : Json} {root : String}
      {revision : Revision env} : row.linkEventJson = some raw → row.postId ≠ row.rootPostId →
      revisionOf env raw = .ok (some (root, revision)) →
      Extends store.node root revision.filed → StoreStep store (store.sign row raw root revision)
  | receive (store : RevisionStore env) (sender : String) (now : Int) (raw : Json) :
      StoreStep store (store.receive sender now raw)
  | elsewhere {store store' : RevisionStore env} (morePosts : List PostRow)
      (moreEvents : List EventRow) : store'.chains = store.chains →
      store'.node.boardEvents.postEdits = store.node.boardEvents.postEdits →
      (∀ contentId, store.node.Accounted contentId → store'.node.Accounted contentId) →
      store'.posts = store.posts ++ morePosts → store'.linkEvents = store.linkEvents ++ moreEvents →
      (∀ row ∈ ownRevisionRows morePosts, revisionOf env row.2 = .ok none) →
      (∀ row ∈ moreEvents, revisionOf env row.envelopeJson = .ok none ∧
        store'.node.Accounted row.contentId) → StoreStep store store'

structure Blank (store : RevisionStore env) : Prop where
  chains : ∀ root, store.chains root = []
  postEdits : ∀ root, store.node.boardEvents.editChain root = []
  posts : store.posts = []
  linkEvents : store.linkEvents = []

structure StoresChains (store : RevisionStore env) : Prop where
  held : ∀ root, store.node.boardEvents.editChain root =
    (store.chains root).map StoredRevision.revision
  stored : ∀ root, StoredChain store.linkEvents store.posts root (store.chains root)
  readable : Readable env store.linkEvents store.posts
  accounted : ∀ row ∈ store.linkEvents, store.node.Accounted row.contentId

variable {store store' : RevisionStore env}

theorem Blank.storesChains (h : Blank store) : StoresChains store where
  held root := by rw [h.postEdits, h.chains]; rfl
  stored root := by
    rw [h.chains, h.posts, h.linkEvents]
    exact ⟨.nil root, rfl, rfl⟩
  readable := by
    rw [h.posts, h.linkEvents]
    exact ⟨by simp, by simp [ownRevisionRows]⟩
  accounted := by simp [h.linkEvents]

theorem ownRevisionRows_append (posts more : List PostRow) :
    ownRevisionRows (posts ++ more) = ownRevisionRows posts ++ ownRevisionRows more :=
  filterMap_append

variable {row : PostRow} {raw : Json}

theorem ownRevisionRows_singleton (hraw : row.linkEventJson = some raw)
    (hedit : row.postId ≠ row.rootPostId) : ownRevisionRows [row] = [(row.createdAt, raw)] := by
  simp [ownRevisionRows, hraw, hedit]

private theorem StoredChain.sign {linkEvents : List EventRow} {posts : List PostRow}
    {root : String} {chain : List (StoredRevision env)} (h : StoredChain linkEvents posts other chain)
    (hraw : row.linkEventJson = some raw) (hedit : row.postId ≠ row.rootPostId)
    (hrevision : revisionOf env raw = .ok (some (root, revision))) (hchain : root = other →
      RevisionChain root (chain.map StoredRevision.revision ++ [revision])) :
    StoredChain linkEvents (posts ++ [row]) other
      (if root = other then chain ++ [⟨true, row.createdAt, revision⟩] else chain) := by
  have hrows := ownRevisionRows_append posts [row]
  rw [ownRevisionRows_singleton hraw hedit] at hrows
  have hpicked := revisionOfRoot_some hrevision other
  by_cases hroot : root = other
  · rw [if_pos hroot] at hpicked ⊢
    refine ⟨?_, ?_, ?_⟩
    · rw [map_append]
      exact hroot ▸ hchain hroot
    · rw [h.received]
      simp
    · rw [hrows, filterMap_append, h.own]
      simp [hpicked]
  · rw [if_neg hroot] at hpicked ⊢
    refine ⟨h.chained, h.received, ?_⟩
    rw [hrows, filterMap_append, h.own]
    simp [hpicked]

private theorem StoredChain.receive {linkEvents : List EventRow} {posts : List PostRow}
    {root : String} {chain : List (StoredRevision env)}
    (h : StoredChain linkEvents posts other chain) {row : EventRow}
    (hrevision : revisionOf env row.envelopeJson = .ok (some (root, revision))) (hchain : root = other →
      RevisionChain root (chain.map StoredRevision.revision ++ [revision])) :
    StoredChain (linkEvents ++ [row]) posts other
      (if root = other then chain ++ [⟨false, "", revision⟩] else chain) := by
  have hpicked := revisionOfRoot_some hrevision other
  by_cases hroot : root = other
  · rw [if_pos hroot] at hpicked ⊢
    refine ⟨?_, ?_, ?_⟩
    · rw [map_append]
      exact hroot ▸ hchain hroot
    · rw [map_append, filterMap_append, h.received]
      simp [hpicked]
    · rw [h.own]
      simp
  · rw [if_neg hroot] at hpicked ⊢
    refine ⟨h.chained, ?_, h.own⟩
    rw [map_append, filterMap_append, h.received]
    simp [hpicked]

section

variable (h : StoresChains store)

include h

private theorem StoresChains.held_join {root : String}
    (entry : StoredRevision env) {boardEvents : BoardEventState env}
    (hextended : boardEvents = store.node.boardEvents.extendEditChain root entry.revision)
    (other : String) : boardEvents.editChain other =
      (store.join root entry other).map StoredRevision.revision := by
  rw [hextended, BoardEventState.editChain_extendEditChain, h.held other]
  unfold RevisionStore.join
  split
  · rw [map_append]
    rfl
  · rfl

private theorem StoresChains.sign {root : String} (hraw : row.linkEventJson = some raw)
    (hedit : row.postId ≠ row.rootPostId) (hrevision : revisionOf env raw = .ok (some (root, revision)))
    (hchain : RevisionChain root (store.node.boardEvents.editChain root ++ [revision])) :
    StoresChains (store.sign row raw root revision) where
  held other := h.held_join ⟨true, row.createdAt, revision⟩ rfl other
  stored other := by
    refine (h.stored other).sign hraw hedit hrevision fun hroot => ?_
    subst hroot
    exact h.held root ▸ hchain
  readable := by
    refine ⟨h.readable.received, ?_⟩
    unfold RevisionStore.sign
    rw [ownRevisionRows_append, ownRevisionRows_singleton hraw hedit]
    intro held hheld
    rcases mem_append.mp hheld with hold | hnew
    · exact h.readable.own held hold
    · obtain rfl := mem_singleton.mp hnew
      exact ⟨_, hrevision⟩
  accounted := by
    intro held hheld
    have hinsert : (store.sign row raw root revision).node.Accounted held.contentId ↔ _ :=
      accounted_insert store.node rfl rfl
    exact hinsert.mpr (.inr (h.accounted held hheld))

private theorem StoresChains.unrevised
    (hsame : node.boardEvents.postEdits = store.node.boardEvents.postEdits)
    (haccounted : ∀ contentId, store.node.Accounted contentId → node.Accounted contentId) :
    StoresChains { store with node } where
  held root := by
    unfold BoardEventState.editChain
    rw [hsame]
    exact h.held root
  stored := h.stored
  readable := h.readable
  accounted row hrow := haccounted _ (h.accounted row hrow)

private theorem StoresChains.receive (sender : String) (now : Int)
    (raw : Json) : StoresChains (store.receive sender now raw) := by
  have hhandled := handleEvent_handled store.node sender now raw
  unfold RevisionStore.receive
  split
  · rename_i contentId node heq
    rw [heq] at hhandled
    have hkept : ∀ other, store.node.Accounted other → node.Accounted other :=
      fun other hother => hhandled.accounted (.inl hother)
    cases hkind : (rawType raw).bind ObjectType.revisionKind with
    | none =>
      have hnone : revisionOf env raw = .ok none := by
        unfold revisionOf
        simp only [hkind]
      simp only [hnone]
      apply h.unrevised _ hkept
      rcases hhandled.postEdits with hsame | ⟨root, revision, hrevised, -⟩
      · exact hsame
      · rw [hrevised.revisionOf_eq] at hnone
        exact absurd hnone (by simp)
    | some kind =>
      obtain ⟨root, revision, hrevised, hextended⟩ := hhandled.revised hkind
      have hrevision := hrevised.revisionOf_eq
      have hnew := hhandled.unaccounted
      have happended : saveEvent store.linkEvents
          ⟨contentId, (rawField raw "board_id").str?, raw⟩ =
            store.linkEvents ++ [⟨contentId, (rawField raw "board_id").str?, raw⟩] := by
        apply saveEvent_eq_append
        intro held hheld hsame
        have hid : held.contentId = contentId := hsame
        exact hnew (hid ▸ h.accounted held hheld)
      simp only [hrevision, happended]
      obtain ⟨rootRaw, hrevises⟩ := hrevised.revises
      have hchain : RevisionChain root (store.node.boardEvents.editChain root ++ [revision]) := by
        refine RevisionChain.extend ?_ hrevises.extends_chain hrevises.names
        rw [h.held root]
        exact (h.stored root).chained
      refine ⟨h.held_join ⟨false, "", revision⟩ hextended, fun other => ?_, ⟨?_, h.readable.own⟩, ?_⟩
      · refine (h.stored other).receive hrevision fun hroot => ?_
        subst hroot
        exact h.held root ▸ hchain
      · intro held hheld
        rcases mem_append.mp hheld with hold | hlast
        · exact h.readable.received held hold
        · obtain rfl := mem_singleton.mp hlast
          exact ⟨_, hrevision⟩
      · intro held hheld
        rcases mem_append.mp hheld with hold | hlast
        · exact hkept _ (h.accounted held hold)
        · obtain rfl := mem_singleton.mp hlast
          exact hhandled.accounted (.inr rfl)
  · rename_i result node hnone heq
    rw [heq] at hhandled
    have hsame := hhandled.postEdits_unaccepted (by
      rintro contentId rfl
      exact hnone contentId rfl)
    exact h.unrevised (congrArg _ hsame) fun other hother => hhandled.accounted (.inl hother)

end

private theorem StoresChains.elsewhere (h : StoresChains store) {morePosts : List PostRow}
    {moreEvents : List EventRow} (hchains : store'.chains = store.chains)
    (hpostEdits : store'.node.boardEvents.postEdits = store.node.boardEvents.postEdits)
    (hkept : ∀ contentId, store.node.Accounted contentId → store'.node.Accounted contentId)
    (hposts : store'.posts = store.posts ++ morePosts)
    (hevents : store'.linkEvents = store.linkEvents ++ moreEvents)
    (hown : ∀ row ∈ ownRevisionRows morePosts, revisionOf env row.2 = .ok none)
    (hreceived : ∀ row ∈ moreEvents, revisionOf env row.envelopeJson = .ok none ∧
      store'.node.Accounted row.contentId) : StoresChains store' where
  held root := by
    unfold BoardEventState.editChain
    rw [hpostEdits, hchains]
    exact h.held root
  stored root := by
    rw [hchains, hposts, hevents]
    refine ⟨(h.stored root).chained, ?_, ?_⟩
    · rw [map_append, filterMap_append, (h.stored root).received]
      refine append_right_eq_self.mpr (filterMap_eq_nil_iff.mpr ?_)
      intro raw hraw
      obtain ⟨row, hrow, rfl⟩ := mem_map.mp hraw
      exact revisionOfRoot_none (hreceived row hrow).1 root
    · rw [ownRevisionRows_append, filterMap_append, (h.stored root).own]
      refine append_right_eq_self.mpr (filterMap_eq_nil_iff.mpr ?_)
      intro row hrow
      rw [revisionOfRoot_none (hown row hrow) root]
      rfl
  readable := by
    rw [hposts, hevents]
    constructor
    · intro row hrow
      rcases mem_append.mp hrow with hold | hnew
      · exact h.readable.received row hold
      · exact ⟨_, (hreceived row hnew).1⟩
    · rw [ownRevisionRows_append]
      intro row hrow
      rcases mem_append.mp hrow with hold | hnew
      · exact h.readable.own row hold
      · exact ⟨_, hown row hnew⟩
  accounted := by
    rw [hevents]
    intro row hrow
    rcases mem_append.mp hrow with hold | hnew
    · exact hkept _ (h.accounted row hold)
    · exact (hreceived row hnew).2

theorem StoreStep.storesChains (hstep : StoreStep store store') (h : StoresChains store) :
    StoresChains store' := by
  cases hstep with
  | sign hraw hedit hrevision hextends =>
    apply h.sign hraw hedit hrevision
    refine RevisionChain.extend ?_ hextends (revisionOf_eq_some hrevision)
    rw [h.held]
    exact (h.stored _).chained
  | receive sender now raw => exact h.receive sender now raw
  | elsewhere morePosts moreEvents hchains hpostEdits hkept hposts hevents hown hreceived =>
    exact h.elsewhere hchains hpostEdits hkept hposts hevents hown hreceived

/-- In every state a node's revisions can come to, a restart gives the chain of a post as it was
exactly when no own revision in it was followed by a received one, and the own ones were made in the
order their times say. -/
theorem revisions_restored_iff {start store : RevisionStore env} (hstart : Blank start)
    (hrun : Relation.ReflTransGen StoreStep start store) (root : String) :
    ∃ state, loadRevisions env store.linkEvents store.posts = .ok state ∧
      (state.editChain root = store.node.boardEvents.editChain root ↔
        (store.chains root).Pairwise ReadInOrder) := by
  have hstores : StoresChains store := by
    induction hrun with
    | refl => exact hstart.storesChains
    | tail _ hstep ih => exact hstep.storesChains ih
  obtain ⟨state, hstate, hloaded⟩ := loadRevisions_readOrder hstores.readable
  refine ⟨state, hstate, ?_⟩
  rw [hstores.held root]
  exact (hstores.stored root).loaded_iff (hloaded root _ (hstores.stored root))

section Sample

open Sample

def extendsChain (node : LinkNode env) (root : String) (revision : Revision env) : Bool :=
  (node.boardEvents.editChain root).all (fun existing => existing.contentId ≠ revision.contentId) &&
    !node.boardEvents.isTombstoned root &&
    decide (revision.previousEventId.str? =
      some (((node.boardEvents.editChain root).getLast?.map Revision.contentId).getD root))

theorem extendsChain_extends {node : LinkNode env} {root : String} {revision : Revision env}
    (h : extendsChain node root revision = true) : Extends node root revision.filed := by
  unfold extendsChain at h
  simp only [Bool.and_eq_true, Bool.not_eq_true', decide_eq_true_eq] at h
  obtain ⟨⟨hnew, hopen⟩, hhead⟩ := h
  refine ⟨fun existing hexisting => ?_, hopen, ?_⟩
  · exact of_decide_eq_true (all_eq_true.mp hnew existing hexisting)
  · rw [chainHead_eq_getLast]
    refine (Json.str?_eq_some.mp hhead).trans ?_
    cases (node.boardEvents.editChain root).getLast? <;> rfl

def signRow (store : RevisionStore env) (row : PostRow) : RevisionStore env :=
  match row.linkEventJson with
  | none => store
  | some raw =>
    match revisionOf env raw with
    | .ok (some (root, revision)) =>
      if row.postId ≠ row.rootPostId ∧ extendsChain store.node root revision = true then
        store.sign row raw root revision
      else store
    | _ => store

theorem signRow_run (store : RevisionStore env) (row : PostRow) :
    Relation.ReflTransGen StoreStep store (signRow store row) := by
  unfold signRow
  split
  · exact .refl
  · rename_i raw hraw
    split
    · rename_i root revision hrevision
      split
      · rename_i hsigns
        exact .single (.sign store hraw hsigns.1 hrevision (extendsChain_extends hsigns.2))
      · exact .refl
    · exact .refl

def authorStore : RevisionStore Sample.env where
  node := { carrier "heir" ("origin", peer "origin" 1) with
    knownEventIds := {boardPostId}
    events := .ofList [(boardPostId, boardPost)] }

def editRow : PostRow :=
  ⟨"edit", "post", "2026-09-02", some (boardPostEdit boardPostId boardPostId "board")⟩

theorem authorStore_blank : Blank authorStore := ⟨fun _ => rfl, fun _ => rfl, rfl, rfl⟩

def takenDown : RevisionStore Sample.env :=
  (signRow authorStore editRow).receive "origin" 0 (boardTombstone boardPostId boardEditId)

/-- After a restart the tombstone stands before the author's edit, and the post is not taken down
any more. -/
theorem takenDown_not_restored : takenDown.node.boardEvents.isTombstoned boardPostId = true ∧
      ∃ state, loadRevisions Sample.env takenDown.linkEvents takenDown.posts = .ok state ∧
        (state.editChain boardPostId).length =
          (takenDown.node.boardEvents.editChain boardPostId).length ∧
        state.isTombstoned boardPostId = false := by
  have hloaded : ((loadRevisions Sample.env takenDown.linkEvents takenDown.posts).toOption.any
      fun state => decide ((state.editChain boardPostId).length =
        (takenDown.node.boardEvents.editChain boardPostId).length ∧
          state.isTombstoned boardPostId = false)) = true := by
    decide +kernel
  obtain ⟨state, hstate, hdiffers⟩ := (Option.any_eq_true _ _).mp hloaded
  exact ⟨by decide +kernel, state, (toOption_eq_some _ _).mp hstate, of_decide_eq_true hdiffers⟩

/-- The author's edit alone is restored. -/
theorem revisions_restored_own :
    ∃ state, loadRevisions Sample.env (signRow authorStore editRow).linkEvents
        (signRow authorStore editRow).posts = .ok state ∧
      state.editChain boardPostId =
        (signRow authorStore editRow).node.boardEvents.editChain boardPostId := by
  obtain ⟨state, hstate, hiff⟩ := revisions_restored_iff authorStore_blank
    (signRow_run authorStore editRow) boardPostId
  refine ⟨state, hstate, hiff.mpr ?_⟩
  have hlength : ((signRow authorStore editRow).chains boardPostId).length = 1 := by
    decide +kernel
  obtain ⟨entry, hentry⟩ := length_eq_one_iff.mp hlength
  rw [hentry]
  exact pairwise_singleton _ _

end Sample

end NetBBS
