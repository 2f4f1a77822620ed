import NetBBS.Foundation.Runs
import NetBBS.Foundation.Transaction
import NetBBS.Link.Rotation.Directory

/-! # Rotations that are interrupted -/

namespace NetBBS.Rotation

open Foundation List Dict

set_option linter.unusedSectionVars false

variable {κ φ ι σ : Type} [DecidableEq κ] [DecidableEq φ] [DecidableEq ι]

structure NodeIdentity.Same (a b : NodeIdentity κ φ ι σ) : Prop where
  root : a.root = b.root
  key : a.key = b.key
  transitions : a.transitions = b.transitions
  retired : a.retiredSigningKeys.Perm b.retiredSigningKeys

def Numbered (retired : Dict Nat κ) (keys : List κ) : Prop := ∀ i, retired.get? i = keys[i]?

variable {keys : List κ} {identity : NodeIdentity κ φ ι σ}

theorem Numbered.values_perm {retired : Dict Nat κ} (h : Numbered retired keys) :
    retired.values.Perm keys := by
  have hentries : retired.entries.Perm (keys.zipIdx.map Prod.swap) := by
    refine (perm_ext_iff_of_nodup retired.nodup.of_map ?_).mpr ?_
    · refine List.Nodup.of_map Prod.fst ?_
      rw [map_map]
      have hnumbers : Prod.fst ∘ Prod.swap = (Prod.snd : κ × Nat → Nat) := rfl
      rw [hnumbers, zipIdx_map_snd]
      exact nodup_range'
    · rintro ⟨i, key⟩
      rw [← get?_eq_some, h i, mem_map]
      constructor
      · intro hkey
        exact ⟨(key, i), mem_zipIdx_iff_getElem?.mpr hkey, rfl⟩
      · rintro ⟨⟨key', i'⟩, hmem, heq⟩
        obtain ⟨rfl, rfl⟩ := Prod.mk.inj heq
        exact mem_zipIdx_iff_getElem?.mp hmem
  have hkeys := hentries.map Prod.snd
  rw [map_map] at hkeys
  have hswap : Prod.snd ∘ Prod.swap = (Prod.fst : κ × Nat → κ) := rfl
  rwa [hswap, zipIdx_map_fst] at hkeys

theorem loadRetired_perm (dir : Directory κ φ ι σ) : dir.loadRetired.Perm dir.retired.values :=
  (perm_insertionSort _ _).map Prod.snd

theorem perform_saveRetired_old {dir : Directory κ φ ι σ} (h : Numbered dir.retired keys)
    {index : Nat} (hindex : index < keys.length) (key : κ) : dir.perform (.saveRetired index key) = dir := by
  have hthere : dir.retired.contains index = true :=
    (contains_iff _ _).mpr ⟨keys[index], by rw [h index, getElem?_eq_getElem hindex]⟩
  rw [Directory.perform, if_pos hthere]

theorem perform_saveRetired_new {dir : Directory κ φ ι σ} (h : Numbered dir.retired keys)
    (key : κ) : dir.perform (.saveRetired keys.length key) =
      { dir with retired := dir.retired.set keys.length key } ∧
        Numbered (dir.retired.set keys.length key) (keys ++ [key]) := by
  have hnone : dir.retired.contains keys.length = false := by
    rw [contains_eq_false, h keys.length, getElem?_eq_none le_rfl]
  constructor
  · rw [Directory.perform, if_neg (by simp [hnone])]
  · intro i
    rw [get?_set]
    split
    · rename_i hlast
      rw [← hlast, getElem?_concat_length]
    · rename_i hother
      rw [h i]
      rcases Nat.lt_or_gt_of_ne (Ne.symm hother) with hlt | hgt
      · rw [getElem?_append_left hlt]
      · rw [getElem?_eq_none (by omega), getElem?_eq_none (by simp; omega)]

theorem saveRetired_append (index : Nat) (before after : List κ) :
    (saveRetired index (before ++ after) : List (FileOp κ φ ι σ)) =
      saveRetired index before ++ saveRetired (index + before.length) after := by
  induction before generalizing index with
  | nil => rfl
  | cons key rest ih =>
    rw [cons_append, saveRetired, ih, saveRetired, cons_append, length_cons]
    congr 3
    omega

theorem saveRetired_unchanged {dir : Directory κ φ ι σ} (h : Numbered dir.retired keys)
    (again : List κ) (index : Nat) (hlength : index + again.length ≤ keys.length) :
    ∀ op ∈ (saveRetired index again : List (FileOp κ φ ι σ)), dir.perform op = dir := by
  induction again generalizing index with
  | nil => simp [saveRetired]
  | cons key rest ih =>
    rw [length_cons] at hlength
    intro op hop
    rcases mem_cons.mp hop with rfl | hop
    · exact perform_saveRetired_old h (by omega) key
    · exact ih (index + 1) (by omega) op hop

variable {crypto : Crypto κ φ ι σ} {root : κ}

def RetiredFiles (dir : Directory κ φ ι σ) (identity : NodeIdentity κ φ ι σ) : Prop :=
  ∃ keys, keys.Perm identity.retiredSigningKeys ∧
    (Numbered dir.retired keys ∨ Numbered dir.retired (keys ++ [identity.key .signing]))

structure Kept (crypto : Crypto κ φ ι σ) (root : κ) (dir : Directory κ φ ι σ)
    (identity : NodeIdentity κ φ ι σ) : Prop where
  dirRoot : dir.root = root
  sameRoot : identity.root = root
  built : Built crypto root identity.transitions identity.key
  transitions : dir.transitions = identity.transitions
  key : ∀ purpose, dir.next purpose = some (identity.key purpose) ∨ dir.key purpose = identity.key purpose
  retiredFiles : RetiredFiles dir identity
  current : identity.key .signing ∉ identity.retiredSigningKeys
  retired : ∀ key, key ∈ identity.retiredSigningKeys ∨ key = identity.key .signing ↔
    key ∈ authorizedKeys identity.transitions .signing

theorem Kept.of_same {dir : Directory κ φ ι σ} {a b : NodeIdentity κ φ ι σ} (h : Kept crypto root dir b)
    (hsame : a.Same b) : Kept crypto root dir a where
  dirRoot := h.dirRoot
  sameRoot := hsame.root.trans h.sameRoot
  built := by
    rw [hsame.transitions, hsame.key]
    exact h.built
  transitions := h.transitions.trans hsame.transitions.symm
  key := by
    rw [hsame.key]
    exact h.key
  retiredFiles := by
    obtain ⟨keys, hperm, hfiles⟩ := h.retiredFiles
    exact ⟨keys, hperm.trans hsame.retired.symm, by rwa [hsame.key]⟩
  current := by
    rw [hsame.key, hsame.retired.mem_iff]
    exact h.current
  retired key := by
    rw [hsame.key, hsame.retired.mem_iff, hsame.transitions]
    exact h.retired key

theorem Kept.loadOperational {dir : Directory κ φ ι σ} {identity : NodeIdentity κ φ ι σ}
    (h : Kept crypto root dir identity) (purpose : Purpose) :
    loadOperational crypto dir purpose = .ok (identity.key purpose) := by
  have hresolve := h.built.resolve purpose
  rw [← h.transitions, ← h.dirRoot] at hresolve
  unfold Rotation.loadOperational
  cases hnext : dir.next purpose with
  | none =>
    rcases h.key purpose with hstaged | hplace
    · rw [hnext] at hstaged
      cases hstaged
    · simp only [hplace]
  | some candidate =>
    simp only [hresolve, bind, Except.bind]
    split
    · rename_i hcurrent
      exact congrArg Except.ok (Option.some.inj hcurrent).symm
    · rename_i hother
      rcases h.key purpose with hstaged | hplace
      · rw [hnext] at hstaged
        exact absurd hstaged.symm hother
      · rw [hplace]

theorem Kept.load {dir : Directory κ φ ι σ} {identity : NodeIdentity κ φ ι σ}
    (h : Kept crypto root dir identity) : ∃ loaded, load crypto dir = .ok loaded ∧ loaded.Same identity := by
  have hverified : ∀ (loaded : NodeIdentity κ φ ι σ) (purpose : Purpose), loaded.root = dir.root →
      loaded.transitions = dir.transitions → loaded.key purpose = identity.key purpose →
        loaded.verifyKey crypto purpose = .ok () := by
    intro loaded purpose hroot htransitions hkey
    have hresolve := h.built.resolve purpose
    rw [← h.transitions, ← h.dirRoot, ← hroot, ← htransitions] at hresolve
    simp only [NodeIdentity.verifyKey, hresolve, bind, Except.bind, hkey, ne_eq, not_true_eq_false, if_false]
  unfold Rotation.load
  simp only [h.loadOperational, bind, Except.bind, hverified]
  refine ⟨_, rfl, h.dirRoot.trans h.sameRoot.symm, ?_, h.transitions, ?_⟩
  · funext purpose
    cases purpose <;> rfl
  · show (dir.loadRetired.filter fun key => key ≠ identity.key .signing).Perm identity.retiredSigningKeys
    obtain ⟨keys, hperm, hfiles⟩ := h.retiredFiles
    have hothers : keys.filter (fun key => key ≠ identity.key .signing) = keys := by
      refine filter_eq_self.mpr ?_
      intro key hkey
      have hretired := hperm.mem_iff.mp hkey
      have hne : key ≠ identity.key .signing := fun heq => h.current (heq ▸ hretired)
      simpa using hne
    rcases hfiles with hfiles | hfiles
    · have hloaded := (loadRetired_perm dir).trans hfiles.values_perm
      have hfiltered := hloaded.filter fun key => key ≠ identity.key .signing
      rw [hothers] at hfiltered
      exact hfiltered.trans hperm
    · have hloaded := (loadRetired_perm dir).trans hfiles.values_perm
      have hfiltered := hloaded.filter fun key => key ≠ identity.key .signing
      rw [filter_append, hothers] at hfiltered
      simp only [ne_eq, decide_not, decide_true, Bool.not_true, Bool.false_eq_true, not_false_eq_true,
        filter_cons_of_neg, filter_nil, append_nil] at hfiltered
      simpa using hfiltered.trans hperm

def FileOp.mayFail : FileOp κ φ ι σ → Prop
  | .moveStaged _ => True
  | _ => False

def Directory.Grows (before after : Directory κ φ ι σ) : Prop := before.transitions <+: after.transitions

structure Rotated (crypto : Crypto κ φ ι σ) (root : κ) (before : NodeIdentity κ φ ι σ) (purpose : Purpose)
    (new : κ) (after : NodeIdentity κ φ ι σ) : Prop where
  sameRoot : after.root = before.root
  key : after.key = Function.update before.key purpose new
  built : Built crypto root after.transitions after.key
  grown : before.transitions <+: after.transitions
  authorized : ∀ other, authorizedKeys after.transitions other =
    authorizedKeys before.transitions other ++ if purpose = other then [new] else []
  retired : after.retiredSigningKeys =
    before.retiredSigningKeys ++ if purpose = .signing then [before.key .signing] else []

theorem Kept.rotated {dir : Directory κ φ ι σ}
    (h : Kept crypto root dir identity) (purpose : Purpose) (new : κ) (createdAt : String)
    (compromised : Bool) :
    ∃ after, rotateOperationalKey crypto identity purpose new createdAt compromised = .ok after ∧
      Rotated crypto root identity purpose new after := by
  obtain ⟨last, -, hhead⟩ := (h.built.oneChain purpose).verified.2
  unfold rotateOperationalKey
  rw [h.sameRoot, hhead]
  refine ⟨_, rfl, h.sameRoot.symm, rfl, ?_, prefix_append _ _, ?_, ?_⟩
  · exact h.built.rotate purpose (last.contentId crypto) new createdAt compromised hhead
  · intro other
    exact authorizedKeys_rotate identity.transitions purpose other _ _ new createdAt compromised
  · cases purpose <;> simp

variable {dir : Directory κ φ ι σ} {before after : NodeIdentity κ φ ι σ} {purpose : Purpose}
    {new : κ}

section

variable (h : Kept crypto root dir before)

include h

theorem throughout_saveRetired (hr : Rotated crypto root before purpose new after)
    (hnext : dir.next purpose = none) :
    Throughout Directory.perform FileOp.mayFail Directory.Grows
      (fun dir => Kept crypto root dir before ∨ Kept crypto root dir after)
      (fun dir => Kept crypto root dir before ∧ dir.next purpose = none ∧ RetiredFiles dir after)
      (saveRetired 0 after.retiredSigningKeys) dir := by
  obtain ⟨keys, hperm, hfiles⟩ := h.retiredFiles
  have hlength := hperm.length_eq
  have hold : ∀ op ∈ saveRetired 0 before.retiredSigningKeys, dir.perform op = dir := by
    rcases hfiles with hfiles | hfiles
    · exact saveRetired_unchanged hfiles before.retiredSigningKeys 0 (by omega)
    · refine saveRetired_unchanged hfiles before.retiredSigningKeys 0 ?_
      rw [length_append]
      omega
  rw [hr.retired, saveRetired_append, throughout_append]
  refine throughout_of_unchanged (prefix_refl _) (.inl h) ?_ hold
  cases purpose with
  | transport =>
    have hkey : after.key .signing = before.key .signing := by
      rw [hr.key, Function.update_of_ne (by decide)]
    refine ⟨h, hnext, keys, ?_, ?_⟩
    · rw [hr.retired]
      simpa using hperm
    · rwa [hkey]
  | signing =>
    have hretired : (keys ++ [before.key .signing]).Perm after.retiredSigningKeys := by
      rw [hr.retired, if_pos rfl]
      exact hperm.append_right _
    rw [if_pos rfl, Nat.zero_add, ← hlength]
    rcases hfiles with hfiles | hfiles
    · obtain ⟨hperform, hnumbered⟩ := perform_saveRetired_new hfiles (before.key .signing)
      have hkept : Kept crypto root (dir.perform (.saveRetired keys.length (before.key .signing))) before := by
        rw [hperform]
        exact ⟨h.dirRoot, h.sameRoot, h.built, h.transitions, h.key, ⟨keys, hperm, .inr hnumbered⟩, h.current,
          h.retired⟩
      refine ⟨.inl h, ?_, ⟨hkept, ?_, keys ++ [before.key .signing], hretired, .inl ?_⟩, nofun⟩
      · rw [hperform]
        exact prefix_refl _
      · rw [hperform]
        exact hnext
      · rw [hperform]
        exact hnumbered
    · have hthere := perform_saveRetired_old hfiles (by simp : keys.length < _) (before.key .signing)
      have hready : Kept crypto root dir before ∧ dir.next .signing = none ∧ RetiredFiles dir after :=
        ⟨h, hnext, keys ++ [before.key .signing], hretired, .inl hfiles⟩
      exact throughout_of_unchanged (prefix_refl _) (.inl h) hready (by simpa [saveRetired] using hthere)

theorem throughout_replace (hr : Rotated crypto root before purpose new after)
    (hfresh : new ∉ authorizedKeys before.transitions .signing) (hnext : dir.next purpose = none)
    (hfiles : RetiredFiles dir after) :
    Throughout Directory.perform FileOp.mayFail Directory.Grows
      (fun dir => Kept crypto root dir before ∨ Kept crypto root dir after)
      (fun dir => Kept crypto root dir after)
      [.stage purpose (after.key purpose), .writeTransitions after.transitions, .replaceTransitions,
        .moveStaged purpose] dir := by
  have hplace : dir.key purpose = before.key purpose := by
    rcases h.key purpose with hstaged | hplace
    · rw [hnext] at hstaged
      cases hstaged
    · exact hplace
  have hothers : ∀ other, other ≠ purpose → after.key other = before.key other := by
    intro other hother
    rw [hr.key, Function.update_of_ne hother]
  have hnew : after.key purpose = new := by rw [hr.key, Function.update_self]
  have hretired : ∀ key, key ∈ after.retiredSigningKeys ∨ key = after.key .signing ↔
      key ∈ authorizedKeys after.transitions .signing := by
    intro key
    rw [hr.authorized, mem_append, ← h.retired, hr.retired, mem_append]
    by_cases hsigning : purpose = .signing
    · subst hsigning
      rw [hnew]
      simp
    · rw [hothers .signing (Ne.symm hsigning)]
      simp [hsigning]
  have hcurrent : after.key .signing ∉ after.retiredSigningKeys := by
    by_cases hsigning : purpose = .signing
    · subst hsigning
      rw [hnew, hr.retired, if_pos rfl]
      intro hmem
      apply hfresh
      rw [← h.retired]
      simpa using hmem
    · rw [hothers .signing (Ne.symm hsigning), hr.retired, if_neg hsigning, append_nil]
      exact h.current
  have hstaged : Kept crypto root (dir.perform (.stage purpose (after.key purpose))) before := by
    refine ⟨h.dirRoot, h.sameRoot, h.built, h.transitions, ?_, h.retiredFiles, h.current, h.retired⟩
    intro other
    by_cases hother : other = purpose
    · exact .inr (hother ▸ hplace)
    · have hkey := h.key other
      simpa [Directory.perform, Function.update_of_ne hother] using hkey
  have hreplaced : Kept crypto root (((dir.perform (.stage purpose (after.key purpose))).perform
      (.writeTransitions after.transitions)).perform .replaceTransitions) after := by
    refine ⟨h.dirRoot, hr.sameRoot.trans h.sameRoot, hr.built, rfl, ?_, hfiles, hcurrent, hretired⟩
    intro other
    by_cases hother : other = purpose
    · subst hother
      exact .inl (by simp [Directory.perform])
    · have hkey := h.key other
      rw [← hothers other hother] at hkey
      simpa [Directory.perform, Function.update_of_ne hother] using hkey
  have hmoved : Kept crypto root ((((dir.perform (.stage purpose (after.key purpose))).perform
      (.writeTransitions after.transitions)).perform .replaceTransitions).perform (.moveStaged purpose))
        after := by
    have hperform : ((((dir.perform (.stage purpose (after.key purpose))).perform
        (.writeTransitions after.transitions)).perform .replaceTransitions).perform (.moveStaged purpose)) =
          (((dir.perform (.stage purpose (after.key purpose))).perform
            (.writeTransitions after.transitions)).perform .replaceTransitions).move purpose
              (after.key purpose) := by
      simp [Directory.perform]
    rw [hperform]
    refine ⟨h.dirRoot, hr.sameRoot.trans h.sameRoot, hr.built, rfl, ?_, hfiles, hcurrent, hretired⟩
    intro other
    by_cases hother : other = purpose
    · subst hother
      exact .inr (by simp [Directory.move])
    · have hkey := hreplaced.key other
      simpa [Directory.move, Function.update_of_ne hother] using hkey
  have hwritten : Kept crypto root ((dir.perform (.stage purpose (after.key purpose))).perform
      (.writeTransitions after.transitions)) before :=
    ⟨h.dirRoot, h.sameRoot, h.built, h.transitions, hstaged.key, h.retiredFiles, h.current, h.retired⟩
  refine ⟨.inl h, prefix_refl _, ?_, nofun⟩
  refine ⟨.inl hstaged, prefix_refl _, ?_, nofun⟩
  refine ⟨.inl hwritten, ?_, ?_, nofun⟩
  · have htransitions : dir.transitions <+: after.transitions := h.transitions ▸ hr.grown
    exact htransitions
  · refine ⟨.inr hreplaced, ?_, hmoved, fun _ => hreplaced⟩
    unfold Directory.Grows
    simp only [hreplaced.transitions, hmoved.transitions]
    exact prefix_refl _

theorem throughout_saveRotation (hr : Rotated crypto root before purpose new after)
    (hfresh : new ∉ authorizedKeys before.transitions .signing) (hnext : dir.next purpose = none) :
    Throughout Directory.perform FileOp.mayFail Directory.Grows
      (fun dir => Kept crypto root dir before ∨ Kept crypto root dir after)
      (fun dir => Kept crypto root dir after) (after.saveRotation purpose) dir := by
  unfold NodeIdentity.saveRotation
  rw [throughout_append]
  refine (throughout_saveRetired h hr hnext).mono (fun _ hgood => hgood) ?_
  rintro saved ⟨hkept, hnone, hfiles⟩
  exact throughout_replace hkept hr hfresh hnone hfiles

theorem Kept.finish (purpose : Purpose) :
    Kept crypto root (dir.perform (.finish purpose (before.key purpose))) before ∧
      dir.Grows (dir.perform (.finish purpose (before.key purpose))) ∧
        (dir.perform (.finish purpose (before.key purpose))).next purpose = none ∧
          ∀ other, dir.next other = none →
            (dir.perform (.finish purpose (before.key purpose))).next other = none := by
  have hcleared : ∀ other, dir.next other = none → Function.update dir.next purpose none other = none := by
    intro other hnone
    rw [Function.update_apply]
    split
    · rfl
    · exact hnone
  cases hnext : dir.next purpose with
  | none =>
    have hperform : dir.perform (.finish purpose (before.key purpose)) = dir := by
      simp only [Directory.perform, hnext]
    rw [hperform]
    exact ⟨h, prefix_refl _, hnext, fun _ hnone => hnone⟩
  | some staged =>
    by_cases hcurrent : staged = before.key purpose
    · have hperform : dir.perform (.finish purpose (before.key purpose)) =
          dir.move purpose (before.key purpose) := by
        simp [Directory.perform, hnext, hcurrent]
      rw [hperform]
      refine ⟨?_, prefix_refl _, by simp [Directory.move], hcleared⟩
      refine ⟨h.dirRoot, h.sameRoot, h.built, h.transitions, ?_, h.retiredFiles, h.current, h.retired⟩
      intro other
      by_cases hother : other = purpose
      · subst hother
        exact .inr (by simp [Directory.move])
      · have hkey := h.key other
        simpa [Directory.move, Function.update_of_ne hother] using hkey
    · have hperform : dir.perform (.finish purpose (before.key purpose)) =
          { dir with next := Function.update dir.next purpose none } := by
        simp [Directory.perform, hnext, hcurrent]
      rw [hperform]
      refine ⟨?_, prefix_refl _, by simp, hcleared⟩
      refine ⟨h.dirRoot, h.sameRoot, h.built, h.transitions, ?_, h.retiredFiles, h.current, h.retired⟩
      intro other
      have hkey := h.key other
      by_cases hother : other = purpose
      · subst hother
        rw [hnext, Option.some.injEq] at hkey
        exact .inr (hkey.resolve_left hcurrent)
      · simpa [Function.update_of_ne hother] using hkey

theorem throughout_finish :
    Throughout Directory.perform FileOp.mayFail Directory.Grows (fun dir => Kept crypto root dir before)
      (fun dir => Kept crypto root dir before ∧ ∀ purpose, dir.next purpose = none)
      before.finishInterruptedRotation dir := by
  obtain ⟨hsigning, hgrows, hnone, -⟩ := h.finish .signing
  obtain ⟨htransport, hgrows', hnone', hstays⟩ := hsigning.finish .transport
  refine ⟨h, hgrows, ⟨hsigning, hgrows', ⟨htransport, ?_⟩, nofun⟩, nofun⟩
  intro purpose
  cases purpose with
  | signing => exact hstays .signing hnone
  | transport => exact hnone'

end

variable {w : World κ φ ι σ}

def Unstaged (w : World κ φ ι σ) : Happening κ → Prop
  | .rotate purpose .. => ∀ process ∈ w.process, process.todo = [] → w.dir.next purpose = none
  | _ => True

def Process.outcome (process : Process κ φ ι σ) : NodeIdentity κ φ ι σ := process.after.getD process.identity

def Known (generated : List κ) (identity : NodeIdentity κ φ ι σ) : Prop :=
  ∀ purpose, ∀ key ∈ authorizedKeys identity.transitions purpose, key ∈ generated

structure Underway (crypto : Crypto κ φ ι σ) (root : κ) (w : World κ φ ι σ) (process : Process κ φ ι σ) :
    Prop where
  known : Known w.generated process.identity
  knownAfter : Known w.generated process.outcome
  grown : process.identity.transitions <+: process.outcome.transitions
  saved : ∀ saved ∈ w.saved, saved.transitions <+: process.identity.transitions
  safe : Throughout Directory.perform FileOp.mayFail Directory.Grows
    (fun dir => Kept crypto root dir process.identity ∨ Kept crypto root dir process.outcome)
    (fun dir => Kept crypto root dir process.outcome) process.todo w.dir

def Sound (crypto : Crypto κ φ ι σ) (root : κ) (w : World κ φ ι σ) : Prop :=
  ∃ process, Underway crypto root w process ∧ ∀ running ∈ w.process, running = process

theorem Underway.kept {process : Process κ φ ι σ} (h : Underway crypto root w process) :
    Kept crypto root w.dir process.identity ∨ Kept crypto root w.dir process.outcome :=
  h.safe.stopped fun _ hdone => .inr hdone

theorem Sound.kept (h : Sound crypto root w) :
    ∃ identity, Kept crypto root w.dir identity ∧ Known w.generated identity ∧
      ∀ saved ∈ w.saved, saved.transitions <+: identity.transitions := by
  obtain ⟨process, hunder, -⟩ := h
  rcases hunder.kept with hkept | hkept
  · exact ⟨_, hkept, hunder.known, hunder.saved⟩
  · exact ⟨_, hkept, hunder.knownAfter, fun saved hsaved => (hunder.saved saved hsaved).trans hunder.grown⟩

theorem underway_idle {todo : List (FileOp κ φ ι σ)} (hknown : Known w.generated identity)
    (hsaved : ∀ saved ∈ w.saved, saved.transitions <+: identity.transitions)
    (hsafe : Throughout Directory.perform FileOp.mayFail Directory.Grows
      (fun dir => Kept crypto root dir identity) (fun dir => Kept crypto root dir identity) todo w.dir) :
    Underway crypto root w { identity, todo } where
  known := hknown
  knownAfter := hknown
  grown := prefix_refl _
  saved := hsaved
  safe := hsafe.mono (fun _ => .inl) fun _ hdone => hdone

theorem goOn_dir (w : World κ φ ι σ) (process : Process κ φ ι σ) : (w.goOn process).dir = w.dir := by
  unfold World.goOn
  split <;> rfl

theorem Underway.goOn {process : Process κ φ ι σ} (h : Underway crypto root w process) :
    Sound crypto root (w.goOn process) := by
  unfold World.goOn
  split
  · rename_i after htodo hafter
    have houtcome : process.outcome = after := by rw [Process.outcome, hafter, Option.getD_some]
    have hkept : Kept crypto root w.dir after := by
      have hsafe := h.safe
      rw [htodo] at hsafe
      exact houtcome ▸ hsafe
    refine ⟨{ identity := after, todo := [] }, ?_, ?_⟩
    · refine underway_idle (houtcome ▸ h.knownAfter) ?_ hkept
      intro saved hsaved
      rcases mem_cons.mp hsaved with rfl | hsaved
      · exact prefix_refl _
      · exact (h.saved saved hsaved).trans (houtcome ▸ h.grown)
    · intro running hrunning
      cases hoffline : process.offline with
      | true => simp [hoffline] at hrunning
      | false => simpa [hoffline, eq_comm] using hrunning
  · exact ⟨process, ⟨h.known, h.knownAfter, h.grown, h.saved, h.safe⟩,
      fun running hrunning => (Option.some.inj hrunning).symm⟩

theorem startRotation_dir (identity : NodeIdentity κ φ ι σ) (first : List (FileOp κ φ ι σ)) (purpose : Purpose)
    (new : κ) (createdAt : String) (compromised offline : Bool) :
    (w.startRotation crypto identity first purpose new createdAt compromised offline).dir = w.dir := by
  unfold World.startRotation
  split <;> rfl

theorem sound_startRotation (hkept : Kept crypto root w.dir identity)
    (hknown : Known w.generated identity)
    (hsaved : ∀ saved ∈ w.saved, saved.transitions <+: identity.transitions) {purpose : Purpose} {new : κ}
    (hfresh : new ∉ w.generated) {first : List (FileOp κ φ ι σ)}
    (hfirst : Throughout Directory.perform FileOp.mayFail Directory.Grows
      (fun dir => Kept crypto root dir identity)
      (fun dir => Kept crypto root dir identity ∧ dir.next purpose = none) first w.dir)
    (createdAt : String) (compromised offline : Bool) :
    Sound crypto root (w.startRotation crypto identity first purpose new createdAt compromised offline) := by
  obtain ⟨after, hrotate, hr⟩ := hkept.rotated purpose new createdAt compromised
  unfold World.startRotation
  rw [hrotate]
  refine ⟨_, ⟨?_, ?_, hr.grown, hsaved, ?_⟩, fun running hrunning => (Option.some.inj hrunning).symm⟩
  · exact fun other key hkey => .tail _ (hknown other key hkey)
  · intro other key hkey
    rw [show Process.outcome _ = after from rfl, hr.authorized, mem_append] at hkey
    rcases hkey with hold | hnew
    · exact .tail _ (hknown other key hold)
    · have hsame : key = new := by
        split at hnew
        · exact mem_singleton.mp hnew
        · cases hnew
      exact hsame ▸ mem_cons_self
  · refine (throughout_append _ _ _).mpr (hfirst.mono (fun _ => .inl) ?_)
    rintro dir ⟨hkept, hnext⟩
    exact throughout_saveRotation hkept hr (fun hmem => hfresh (hknown .signing new hmem)) hnext

theorem sound_step (h : Sound crypto root w) {happening : Happening κ} (hunstaged : Unstaged w happening) :
    Sound crypto root (step crypto w happening) ∧ w.dir.Grows (step crypto w happening).dir := by
  have hstays : Sound crypto root w ∧ w.dir.Grows w.dir := ⟨h, prefix_refl _⟩
  obtain ⟨identity, hkept, hknown, hsaved⟩ := h.kept
  obtain ⟨loaded, hload, hsame⟩ := hkept.load
  have hkept := hkept.of_same hsame
  have hknown : Known w.generated loaded := by
    unfold Known
    rw [hsame.transitions]
    exact hknown
  rw [← hsame.transitions] at hsaved
  have hgrowsStart : ∀ (identity : NodeIdentity κ φ ι σ) (first : List (FileOp κ φ ι σ)) (purpose : Purpose)
      (new : κ) (createdAt : String) (compromised offline : Bool), w.dir.Grows
        (w.startRotation crypto identity first purpose new createdAt compromised offline).dir := by
    intro identity first purpose new createdAt compromised offline
    rw [startRotation_dir]
    exact prefix_refl _
  cases happening with
  | start =>
    simp only [step, hload]
    split
    · rename_i hloaded
      rw [← Except.ok.inj hloaded]
      refine ⟨⟨_, underway_idle hknown hsaved ?_, fun running hrunning => (Option.some.inj hrunning).symm⟩,
        prefix_refl _⟩
      exact (throughout_finish hkept).mono (fun _ hgood => hgood) fun _ hdone => hdone.1
    · exact hstays
  | rotate purpose new createdAt compromised linkOff =>
    simp only [step]
    split
    · rename_i held hprocess
      split
      · exact hstays
      · rename_i hfresh
        have hnext : w.dir.next purpose = none := hunstaged _ hprocess rfl
        split
        · rw [hload]
          refine ⟨sound_startRotation hkept hknown hsaved hfresh ?_ createdAt compromised false, hgrowsStart ..⟩
          exact ⟨hkept, hnext⟩
        · obtain ⟨process, hunder, hrunning⟩ := h
          obtain rfl := hrunning _ hprocess
          have hheld : Kept crypto root w.dir held := hunder.safe
          refine ⟨sound_startRotation hheld hunder.known hunder.saved hfresh ?_ createdAt compromised false,
            hgrowsStart ..⟩
          exact ⟨hheld, hnext⟩
    · exact hstays
  | rotateOffline purpose new createdAt compromised =>
    simp only [step, hload]
    split
    · rename_i hloaded
      rw [← Except.ok.inj hloaded]
      split
      · exact hstays
      · rename_i hfresh
        have hfinish := (throughout_finish hkept).mono (fun _ hgood => hgood)
          fun _ hdone => And.intro hdone.1 (hdone.2 purpose)
        exact ⟨sound_startRotation hkept hknown hsaved hfresh hfinish createdAt compromised true, hgrowsStart ..⟩
    · exact hstays
  | work =>
    simp only [step]
    split
    · rename_i held op todo after offline hprocess
      obtain ⟨process, hunder, hrunning⟩ := h
      obtain rfl := hrunning _ hprocess
      obtain ⟨-, hgrows, hperformed, -⟩ := hunder.safe
      have hunder' : Underway crypto root { w with dir := w.dir.perform op } ⟨held, todo, after, offline⟩ :=
        ⟨hunder.known, hunder.knownAfter, hunder.grown, hunder.saved, hperformed⟩
      refine ⟨hunder'.goOn, ?_⟩
      rw [goOn_dir]
      exact hgrows
    · exact hstays
  | replaceFails =>
    simp only [step]
    split
    · rename_i held purpose todo after offline hprocess
      obtain ⟨process, hunder, hrunning⟩ := h
      obtain rfl := hrunning _ hprocess
      obtain ⟨-, -, -, hfailed⟩ := hunder.safe
      have hunder' : Underway crypto root w ⟨held, todo, after, offline⟩ :=
        ⟨hunder.known, hunder.knownAfter, hunder.grown, hunder.saved, hfailed trivial⟩
      refine ⟨hunder'.goOn, ?_⟩
      rw [goOn_dir]
      exact prefix_refl _
    · exact hstays
  | stop =>
    obtain ⟨process, hunder, -⟩ := h
    exact ⟨⟨process, ⟨hunder.known, hunder.knownAfter, hunder.grown, hunder.saved, hunder.safe⟩, nofun⟩,
      prefix_refl _⟩

theorem Sound.loads (h : Sound crypto root w) :
    ∃ loaded, load crypto w.dir = .ok loaded ∧ Kept crypto root w.dir loaded ∧
      (∀ process ∈ w.process, loaded.Same process.identity ∨ ∃ after ∈ process.after, loaded.Same after) ∧
        ∀ saved ∈ w.saved, saved.transitions <+: loaded.transitions := by
  obtain ⟨process, hunder, hrunning⟩ := h
  rcases hunder.kept with hkept | hkept
  · obtain ⟨loaded, hload, hsame⟩ := hkept.load
    refine ⟨loaded, hload, hkept.of_same hsame, ?_, ?_⟩
    · intro running hrun
      exact .inl (hrunning running hrun ▸ hsame)
    · rw [hsame.transitions]
      exact hunder.saved
  · obtain ⟨loaded, hload, hsame⟩ := hkept.load
    refine ⟨loaded, hload, hkept.of_same hsame, ?_, ?_⟩
    · intro running hrun
      rw [hrunning running hrun]
      cases hafter : process.after with
      | none =>
        rw [Process.outcome, hafter, Option.getD_none] at hsame
        exact .inl hsame
      | some after =>
        rw [Process.outcome, hafter, Option.getD_some] at hsame
        exact .inr ⟨after, rfl, hsame⟩
    · rw [hsame.transitions]
      exact fun saved hsaved => (hunder.saved saved hsaved).trans hunder.grown

def World.bootstrapped (crypto : Crypto κ φ ι σ) (root signing transport : κ) (createdAt : String) :
    World κ φ ι σ where
  dir := {
    root
    key := fun | .signing => signing | .transport => transport
    next := fun _ => none
    transitions := bootstrapTransitions crypto root signing transport createdAt }
  generated := [root, signing, transport]

def NodeIdentity.bootstrapped (crypto : Crypto κ φ ι σ) (root signing transport : κ) (createdAt : String) :
    NodeIdentity κ φ ι σ where
  root
  key := fun | .signing => signing | .transport => transport
  transitions := bootstrapTransitions crypto root signing transport createdAt
  retiredSigningKeys := []

theorem sound_bootstrapped (crypto : Crypto κ φ ι σ) (root signing transport : κ) (createdAt : String) :
    Sound crypto root (World.bootstrapped crypto root signing transport createdAt) := by
  have hkept : Kept crypto root (World.bootstrapped crypto root signing transport createdAt).dir
      (NodeIdentity.bootstrapped crypto root signing transport createdAt) := by
    refine ⟨rfl, rfl, .bootstrap signing transport createdAt, rfl, fun _ => .inr rfl, ?_,
      by simp [NodeIdentity.bootstrapped], ?_⟩
    · exact ⟨[], List.Perm.refl _, .inl fun i => by simp [World.bootstrapped]⟩
    · intro key
      simp [NodeIdentity.bootstrapped, authorizedKeys, bootstrapTransitions, buildKeyTransition]
  refine ⟨{ identity := _, todo := [] }, underway_idle ?_ (by simp [World.bootstrapped]) hkept,
    by simp [World.bootstrapped]⟩
  intro purpose key hkey
  cases purpose with
  | signing =>
    have hsame : key = signing := by
      simpa [NodeIdentity.bootstrapped, authorizedKeys, bootstrapTransitions, buildKeyTransition] using hkey
    simp [World.bootstrapped, hsame]
  | transport =>
    have hsame : key = transport := by
      simpa [NodeIdentity.bootstrapped, authorizedKeys, bootstrapTransitions, buildKeyTransition] using hkey
    simp [World.bootstrapped, hsame]

theorem authorizedKeys_mono {before after : List (KeyTransition κ φ ι σ)} (h : before <+: after)
    (purpose : Purpose) : ∀ key ∈ authorizedKeys before purpose, key ∈ authorizedKeys after purpose := by
  intro key hkey
  exact ((h.sublist.filter _).map _).subset hkey

/-- In a run whose rotations on the running node find nothing of their purpose staged, the directory loads in
every state: as the identity before or after the rotation in progress, with the keys its chain names. -/
theorem rotations_survive (crypto : Crypto κ φ ι σ) (root signing transport : κ) (createdAt : String)
    (happenings : List (Happening κ))
    (hrun : ∀ v ∈ visited (step crypto) (World.bootstrapped crypto root signing transport createdAt) happenings,
      Unstaged v.1 v.2) :
    ∃ loaded, load crypto (happenings.foldl (step crypto)
        (World.bootstrapped crypto root signing transport createdAt)).dir = .ok loaded ∧
      (∀ purpose, resolveCurrentOperationalKey crypto loaded.transitions loaded.root purpose =
        .ok (some (loaded.key purpose))) ∧
      (∀ process ∈ (happenings.foldl (step crypto)
          (World.bootstrapped crypto root signing transport createdAt)).process,
        loaded.Same process.identity ∨ ∃ after ∈ process.after, loaded.Same after) ∧
      (∀ saved ∈ (happenings.foldl (step crypto)
          (World.bootstrapped crypto root signing transport createdAt)).saved,
        saved.transitions <+: loaded.transitions) ∧
      ∀ v ∈ visited (step crypto) (World.bootstrapped crypto root signing transport createdAt) happenings,
        ∃ earlier, load crypto v.1.dir = .ok earlier ∧ earlier.transitions <+: loaded.transitions ∧
          (earlier.key .signing = loaded.key .signing ∨
            earlier.key .signing ∈ loaded.retiredSigningKeys) := by
  have hstart := sound_bootstrapped crypto root signing transport createdAt
  have hsteps : ∀ v ∈ visited (step crypto) (World.bootstrapped crypto root signing transport createdAt)
      happenings, Sound crypto root v.1 → Sound crypto root (step crypto v.1 v.2) :=
    fun v hv hsound => (sound_step hsound (hrun v hv)).1
  have hvisited := visited_invariant happenings _ hstart hsteps
  obtain ⟨-, hgrows⟩ := visited_related (R := fun a b => a.dir.Grows b.dir)
    (fun _ => prefix_refl _) (fun _ _ _ hab hbc => hab.trans hbc) happenings
      (World.bootstrapped crypto root signing transport createdAt)
        fun v hv => (sound_step (hvisited v hv) (hrun v hv)).2
  obtain ⟨loaded, hload, hkept, hrunning, hsaved⟩ := (foldl_invariant happenings _ hstart hsteps).loads
  refine ⟨loaded, hload, ?_, hrunning, hsaved, ?_⟩
  · intro purpose
    rw [hkept.sameRoot]
    exact hkept.built.resolve purpose
  · intro v hv
    obtain ⟨earlier, hearlier, hkept', -, -⟩ := (hvisited v hv).loads
    have hgrown : earlier.transitions <+: loaded.transitions := by
      have h := hgrows v hv
      unfold Directory.Grows at h
      rwa [hkept'.transitions, hkept.transitions] at h
    refine ⟨earlier, hearlier, hgrown, ?_⟩
    have hauthorized := authorizedKeys_mono hgrown .signing _ (hkept'.built.current_mem .signing)
    exact ((hkept.retired _).mpr hauthorized).symm

instance (w : World κ φ ι σ) (happening : Happening κ) : Decidable (Unstaged w happening) :=
  match happening with
  | .rotate purpose _ _ _ _ =>
    inferInstanceAs (Decidable (∀ process ∈ w.process, process.todo = [] → w.dir.next purpose = none))
  | .start | .rotateOffline .. | .work | .replaceFails | .stop => .isTrue trivial

def stagedOver : List (Happening Nat) :=
  [.start, .work, .work, .rotate .signing 3 "2026-01-01T00:00:00Z" false false, .work, .work, .work, .work,
    .replaceFails, .rotate .signing 4 "2026-01-02T00:00:00Z" false false, .work, .work, .work, .stop, .start]

/-- The staged key the chain named is lost: the directory does not load, and the node does not start. -/
theorem current_key_is_staged_over :
    (∀ loaded, load plainCrypto (stagedOver.foldl (step plainCrypto)
      (World.bootstrapped plainCrypto 0 1 2 "2026-01-01T00:00:00Z")).dir ≠ .ok loaded) ∧
    (stagedOver.foldl (step plainCrypto)
      (World.bootstrapped plainCrypto 0 1 2 "2026-01-01T00:00:00Z")).process.isNone = true := by
  have hfails : (load plainCrypto (stagedOver.foldl (step plainCrypto)
      (World.bootstrapped plainCrypto 0 1 2 "2026-01-01T00:00:00Z")).dir).toBool = false := by decide +kernel
  refine ⟨?_, by decide +kernel⟩
  intro loaded hload
  rw [hload] at hfails
  cases hfails

def finishedBetween : List (Happening Nat) :=
  [.start, .work, .work, .rotate .signing 3 "2026-01-01T00:00:00Z" false false, .work, .work, .work, .work,
    .replaceFails, .stop, .start, .work, .work, .rotate .signing 4 "2026-01-02T00:00:00Z" false false, .work,
    .work, .work, .stop, .rotateOffline .transport 5 "2026-01-03T00:00:00Z" false]

theorem finishedBetween_loads :
    ∃ loaded, load plainCrypto (finishedBetween.foldl (step plainCrypto)
      (World.bootstrapped plainCrypto 0 1 2 "2026-01-01T00:00:00Z")).dir = .ok loaded := by
  have hrun : ∀ v ∈ visited (step plainCrypto)
      (World.bootstrapped plainCrypto 0 1 2 "2026-01-01T00:00:00Z") finishedBetween, Unstaged v.1 v.2 := by
    decide +kernel
  obtain ⟨loaded, hload, -⟩ :=
    rotations_survive plainCrypto 0 1 2 "2026-01-01T00:00:00Z" finishedBetween hrun
  exact ⟨loaded, hload⟩

end NetBBS.Rotation
