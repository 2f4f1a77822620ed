import NetBBS.Files.Storage
import NetBBS.Foundation.Runs

/-! # What a collection pass may remove -/

namespace NetBBS.FileStore

open Foundation List Dict

variable {β : Type} {sha : Sha256 β} {size : β → Nat} {s : Node β}

def Whole (sha : Sha256 β) (s : Node β) : Prop :=
  ∀ row ∈ s.rows, ∃ blob, s.files.get? row.sha256 = some blob ∧ sha.hexdigest blob.content = row.sha256

def Addressed (sha : Sha256 β) (files : Dict String (Blob β)) : Prop :=
  ∀ name blob, isContentAddressedName name = true → files.get? name = some blob →
    sha.hexdigest blob.content = name

def Pass.Spares (sha : Sha256 β) (s : Node β) (pass : Pass) : Prop :=
  match pass.looking with
  | .unreferenced name _ =>
    name ∉ liveSha256Hashes s.rows ∧
      (∀ entry ∈ s.arrivals.entries, entry.2.stage = .stored true → sha.hexdigest entry.2.content ≠ name) ∧
      (s.files.get? name).all (fun blob => decide (defaultMinAge ≤ pass.now - blob.mtime)) = true
  | .next => True
  | .old _ _ => True

def Harmless (sha : Sha256 β) (s : Node β) : Happening β → Prop
  | .advance id => ∀ pass ∈ (s.passes.get? id).toList, pass.Spares sha s
  | _ => True

section Storing

variable {files : Dict String (Blob β)} {blob temp : Blob β} {name sha256 : String}

theorem get?_moveTempFileIntoStorage (h : files.get? name = some blob) :
    (moveTempFileIntoStorage files temp sha256).get? name = some blob := by
  unfold moveTempFileIntoStorage
  split
  · exact h
  · rename_i hnew
    rw [get?_set, if_neg, h]
    rintro rfl
    exact hnew ((contains_iff _ _).mpr ⟨blob, h⟩)

theorem get?_stored (files : Dict String (Blob β)) (temp : Blob β) (sha256 : String) :
    ∃ blob, (moveTempFileIntoStorage files temp sha256).get? sha256 = some blob ∧
      (files.contains sha256 = false → blob = temp) := by
  unfold moveTempFileIntoStorage
  split
  · rename_i hfound
    obtain ⟨blob, hblob⟩ := (contains_iff _ _).mp hfound
    exact ⟨blob, hblob, fun hnew => absurd (hfound.symm.trans hnew) (by decide)⟩
  · exact ⟨temp, get?_set_self _ _ _, fun _ => rfl⟩

theorem addressed_moveTempFileIntoStorage (h : Addressed sha files) :
    Addressed sha (moveTempFileIntoStorage files temp (sha.hexdigest temp.content)) := by
  intro name blob hname hblob
  unfold moveTempFileIntoStorage at hblob
  split at hblob
  · exact h name blob hname hblob
  · rw [get?_set] at hblob
    split at hblob
    · rename_i hsame
      rw [← Option.some.inj hblob, hsame]
    · exact h name blob hname hblob

end Storing

theorem advance_cases (size : β → Nat) (s : Node β) (pass : Pass) :
    (pass.advance size s).2.now = pass.now ∧ ((pass.advance size s).1 = s.files ∨
      ∃ name bytes, pass.looking = .unreferenced name bytes ∧
        (pass.advance size s).1 = s.files.erase name) := by
  unfold Pass.advance
  split
  · split
    · exact ⟨rfl, .inl rfl⟩
    · split
      · exact ⟨rfl, .inl rfl⟩
      · split <;> exact ⟨rfl, .inl rfl⟩
  · split
    · exact ⟨rfl, .inl rfl⟩
    · split <;> exact ⟨rfl, .inl rfl⟩
  · rename_i name bytes hlooking
    split
    · exact ⟨rfl, .inr ⟨name, bytes, hlooking, rfl⟩⟩
    · exact ⟨rfl, .inl rfl⟩

structure Kept (sha : Sha256 β) (s : Node β) : Prop where
  whole : Whole sha s
  addressed : Addressed sha s.files
  scanned : ∀ id pass, s.passes.get? id = some pass → pass.now ≤ s.now
  begun : ∀ session arrival, s.arrivals.get? session = some arrival → arrival.begun ≤ s.now
  stored : ∀ session arrival found, s.arrivals.get? session = some arrival →
    arrival.stage = .stored found → (found = true ∨ s.now < arrival.begun + defaultMinAge) →
      ∃ blob, s.files.get? (sha.hexdigest arrival.content) = some blob ∧
        (found = false → arrival.begun ≤ blob.mtime)

variable {session : Nat}

section

variable (h : Kept sha s)

include h

theorem kept_wait (time : Nat) : Kept sha (step sha size s (.wait time)) where
  whole := h.whole
  addressed := h.addressed
  scanned id pass hpass := by
    have hle := h.scanned id pass hpass
    simp only [step]
    omega
  begun session arrival harrival := by
    have hle := h.begun session arrival harrival
    simp only [step]
    omega
  stored session arrival found harrival hstage hopen := by
    refine h.stored session arrival found harrival hstage (hopen.imp_right fun hlate => ?_)
    simp only [step] at hlate
    omega

theorem kept_begin (fileId : String) (content : β) :
    Kept sha (step sha size s (.begin session fileId content)) := by
  simp only [step]
  split
  · exact h
  · refine ⟨h.whole, h.addressed, h.scanned, ?_, ?_⟩
    · intro other arrival harrival
      rw [get?_set] at harrival
      split at harrival
      · exact Int.le_of_eq (by rw [← Option.some.inj harrival])
      · exact h.begun other arrival harrival
    · intro other arrival found harrival hstage
      rw [get?_set] at harrival
      split at harrival
      · rw [← Option.some.inj harrival] at hstage
        cases hstage
      · exact h.stored other arrival found harrival hstage

theorem kept_stored {fileId : String} {content : β} {begun mtime : Int}
    (harrival : s.arrivals.get? session = some ⟨fileId, content, begun, .receiving⟩)
    (hmtime : begun ≤ mtime) :
    Kept sha { s with
      arrivals := s.arrivals.set session
        ⟨fileId, content, begun, .stored (s.files.contains (sha.hexdigest content))⟩
      files := moveTempFileIntoStorage s.files ⟨content, mtime⟩ (sha.hexdigest content) } := by
  refine ⟨?_, addressed_moveTempFileIntoStorage h.addressed, h.scanned, ?_, ?_⟩
  · intro row hrow
    obtain ⟨blob, hblob, hhash⟩ := h.whole row hrow
    exact ⟨blob, get?_moveTempFileIntoStorage hblob, hhash⟩
  · intro other arrival hother
    rw [get?_set] at hother
    split at hother
    · have hbegun := h.begun session _ harrival
      rw [← Option.some.inj hother]
      exact hbegun
    · exact h.begun other arrival hother
  · intro other arrival found hother hstage hopen
    rw [get?_set] at hother
    split at hother
    · rw [← Option.some.inj hother] at hstage ⊢
      obtain ⟨blob, hblob, hnew⟩ := get?_stored s.files ⟨content, mtime⟩ (sha.hexdigest content)
      refine ⟨blob, hblob, fun hfound => ?_⟩
      rw [hnew ((Stage.stored.inj hstage).trans hfound)]
      exact hmtime
    · obtain ⟨blob, hblob, hage⟩ := h.stored other arrival found hother hstage hopen
      exact ⟨blob, get?_moveTempFileIntoStorage hblob, hage⟩

theorem kept_store (lastWritten : Option Int) :
    Kept sha (step sha size s (.store session lastWritten)) := by
  simp only [step]
  split
  · rename_i fileId content begun harrival
    cases lastWritten with
    | none => exact kept_stored h harrival (h.begun session _ harrival)
    | some mtime =>
      simp only
      split
      · rename_i hbetween
        exact kept_stored h harrival hbetween.1
      · exact h
  · exact h

end

variable {rows : List FileRow} {pass : Pass} {rest : List String}

theorem mem_insertRow {row new : FileRow} (h : row ∈ insertRow rows new) :
    row ∈ rows ∨ row = new := by
  unfold insertRow at h
  split at h
  · exact .inl h
  · simpa using h

section

variable (h : Kept sha s)

include h

theorem kept_left : Kept sha { s with arrivals := s.arrivals.erase session } := by
  have hleft : ∀ other arrival, (s.arrivals.erase session).get? other = some arrival →
      s.arrivals.get? other = some arrival := by
    intro other arrival hother
    rw [get?_erase] at hother
    split at hother
    · cases hother
    · exact hother
  exact ⟨h.whole, h.addressed, h.scanned,
    fun other arrival hother => h.begun other arrival (hleft other arrival hother),
    fun other arrival found hother => h.stored other arrival found (hleft other arrival hother)⟩

theorem kept_rows (hrows : ∀ row ∈ rows, ∃ blob, s.files.get? row.sha256 = some blob ∧
      sha.hexdigest blob.content = row.sha256) : Kept sha { s with rows } :=
  ⟨hrows, h.addressed, h.scanned, h.begun, h.stored⟩

theorem kept_finalize : Kept sha (step sha size s (.finalize session)) := by
  simp only [step]
  split
  · rename_i fileId content begun found harrival
    split
    · rename_i hopen
      refine kept_left (s := { s with
        rows := insertRow s.rows ⟨fileId, sha.hexdigest content⟩ }) (kept_rows h ?_)
      intro row hrow
      rcases mem_insertRow hrow with hrow | rfl
      · exact h.whole row hrow
      · obtain ⟨blob, hblob, -⟩ := h.stored session _ found harrival rfl (.inr hopen)
        exact ⟨blob, hblob, h.addressed _ blob (sha.named content) hblob⟩
    · exact h
  · exact h

theorem kept_unlinked {name : String} (hrows : name ∉ liveSha256Hashes s.rows)
    (harrivals : ∀ session arrival found, s.arrivals.get? session = some arrival →
      arrival.stage = .stored found → (found = true ∨ s.now < arrival.begun + defaultMinAge) →
        sha.hexdigest arrival.content ≠ name) :
    Kept sha { s with files := s.files.erase name } := by
  refine ⟨?_, ?_, h.scanned, h.begun, ?_⟩
  · intro row hrow
    obtain ⟨blob, hblob, hhash⟩ := h.whole row hrow
    refine ⟨blob, ?_, hhash⟩
    rw [get?_erase, if_neg, hblob]
    rintro rfl
    exact hrows (mem_map_of_mem hrow)
  · intro other blob hother hblob
    rw [get?_erase] at hblob
    split at hblob
    · cases hblob
    · exact h.addressed other blob hother hblob
  · intro session arrival found harrival hstage hopen
    obtain ⟨blob, hblob, hage⟩ := h.stored session arrival found harrival hstage hopen
    refine ⟨blob, ?_, hage⟩
    rw [get?_erase, if_neg (harrivals session arrival found harrival hstage hopen).symm, hblob]

theorem kept_passes {passes : Dict Nat Pass}
    (hpasses : ∀ id pass, passes.get? id = some pass → pass.now ≤ s.now) :
    Kept sha { s with passes } :=
  ⟨h.whole, h.addressed, hpasses, h.begun, h.stored⟩

theorem scanned_set (id : Nat) (hnow : pass.now ≤ s.now) :
    ∀ other current, (s.passes.set id pass).get? other = some current → current.now ≤ s.now := by
  intro other current hcurrent
  rw [get?_set] at hcurrent
  split at hcurrent
  · rw [← Option.some.inj hcurrent]
    exact hnow
  · exact h.scanned other current hcurrent

theorem harmless_unlink {id : Nat} (hharmless : Harmless sha s (.advance id))
    (hpass : s.passes.get? id = some pass) {name : String} {bytes : Nat}
    (hlooking : pass.looking = .unreferenced name bytes) :
    Kept sha { s with files := s.files.erase name } := by
  have hspares := hharmless pass (by simp [hpass])
  unfold Pass.Spares at hspares
  rw [hlooking] at hspares
  obtain ⟨hrows, hfound, hold⟩ := hspares
  apply kept_unlinked h hrows
  intro session arrival found harrival hstage hopen hsame
  obtain ⟨blob, hblob, hage⟩ := h.stored session arrival found harrival hstage hopen
  cases found with
  | true =>
    exact hfound (session, arrival) ((get?_eq_some _ _ _).mp harrival) hstage hsame
  | false =>
    have hscanned := h.scanned id _ hpass
    rw [← hsame, hblob, Option.all_some, decide_eq_true_iff] at hold
    have hwritten := hage rfl
    rcases hopen with hopen | hopen
    · cases hopen
    · omega

theorem kept_advance {id : Nat} (hharmless : Harmless sha s (.advance id)) :
    Kept sha (step sha size s (.advance id)) := by
  simp only [step]
  split
  · rename_i pass hpass
    obtain ⟨hnow, hfiles⟩ := advance_cases size s pass
    have hscanned := scanned_set h id (hnow ▸ h.scanned id pass hpass)
    rcases hfiles with hfiles | ⟨name, bytes, hlooking, hfiles⟩
    · rw [hfiles]
      exact kept_passes h hscanned
    · rw [hfiles]
      exact kept_passes (harmless_unlink h hharmless hpass hlooking) hscanned
  · exact h

theorem kept_step {happening : Happening β} (hharmless : Harmless sha s happening) :
    Kept sha (step sha size s happening) := by
  cases happening with
  | wait time => exact kept_wait h time
  | begin session fileId content => exact kept_begin h fileId content
  | store session lastWritten => exact kept_store h lastWritten
  | finalize session => exact kept_finalize h
  | giveUp session => exact kept_left h
  | delete fileIds => exact kept_rows h fun row hrow => h.whole row (mem_filter.mp hrow).1
  | scan pass dryRun => exact kept_passes h (scanned_set h pass (Int.le_refl _))
  | advance pass => exact kept_advance h hharmless

end

variable {id : Nat}

def alone (sha : Sha256 β) (size : β → Nat) (id looks : Nat) (s : Node β) : Node β :=
  (List.replicate looks (Happening.advance id)).foldl (step sha size) s

@[simp] theorem alone_succ (looks : Nat) :
    alone sha size id (looks + 1) s = alone sha size id looks (step sha size s (.advance id)) := rfl

structure Looked (id : Nat) (now : Int) (orphans : List String) (s s' : Node β) : Prop where
  rows : s'.rows = s.rows
  files : ∀ name, s'.files.get? name =
    if name ∈ orphans ∧ ∃ blob, s.files.get? name = some blob ∧ defaultMinAge ≤ now - blob.mtime
    then none else s.files.get? name
  done : ∃ report, s'.passes.get? id = some ⟨now, [], .next, report⟩

theorem step_advance (h : s.passes.get? id = some pass) : step sha size s (.advance id) =
      { s with
        files := (pass.advance size s).1
        passes := s.passes.set id (pass.advance size s).2 } := by
  simp only [step, h]

variable {now : Int} {report : GCReport}

theorem alone_done (h : s.passes.get? id = some ⟨now, [], .next, report⟩)
    (looks : Nat) : alone sha size id looks s = s := by
  induction looks with
  | zero => rfl
  | succ looks ih =>
    have hsame : step sha size s (.advance id) = s := by
      rw [step_advance h]
      simp only [Pass.advance]
      rw [set_eq_self h]
    rw [alone_succ, hsame, ih]

theorem step_young {name : String} {blob : Blob β}
    (h : s.passes.get? id = some ⟨now, name :: rest, .next, report⟩) (hblob : s.files.get? name = some blob)
    (hyoung : now - blob.mtime < defaultMinAge) :
    step sha size s (.advance id) = { s with
      passes := s.passes.set id
        ⟨now, rest, .next, { report with skippedRecent := report.skippedRecent + 1 }⟩ } := by
  rw [step_advance h]
  simp only [Pass.advance, hblob, if_pos hyoung]

theorem step_old (sha : Sha256 β) (size : β → Nat) {name : String} {blob : Blob β}
    (h : s.passes.get? id = some ⟨now, name :: rest, .next, report⟩) (hblob : s.files.get? name = some blob)
    (hold : ¬now - blob.mtime < defaultMinAge) (hdry : report.dryRun = false)
    (hrows : name ∉ liveSha256Hashes s.rows) :
    ∃ s', (∀ looks, alone sha size id (looks + 3) s = alone sha size id looks s') ∧ s'.rows = s.rows ∧
      s'.files = s.files.erase name ∧
      s'.passes.get? id = some ⟨now, rest, .next, report.reclaim (size blob.content)⟩ := by
  have hfirst : step sha size s (.advance id) = { s with
      passes := s.passes.set id ⟨now, rest, .old name (size blob.content), report⟩ } := by
    rw [step_advance h]
    simp only [Pass.advance, hblob, if_neg hold]
  have hsecond : step sha size (step sha size s (.advance id)) (.advance id) = { s with
      passes := (s.passes.set id ⟨now, rest, .old name (size blob.content), report⟩).set id
        ⟨now, rest, .unreferenced name (size blob.content), report⟩ } := by
    rw [hfirst, step_advance (get?_set_self _ _ _)]
    simp [Pass.advance, hdry, hrows]
  have hthere : s.files.contains name = true := (contains_iff _ _).mpr ⟨blob, hblob⟩
  refine ⟨step sha size (step sha size (step sha size s (.advance id)) (.advance id)) (.advance id),
    fun looks => rfl, ?_⟩
  rw [hsecond, step_advance (get?_set_self _ _ _)]
  simp only [Pass.advance, hthere, if_true]
  exact ⟨trivial, trivial, get?_set_self _ _ _⟩

theorem looked_alone (sha : Sha256 β) (size : β → Nat) {orphans : List String} (hnodup : orphans.Nodup)
    (h : s.passes.get? id = some ⟨now, orphans, .next, report⟩) (hdry : report.dryRun = false)
    (hthere : ∀ name ∈ orphans, ∃ blob, s.files.get? name = some blob)
    (hrows : ∀ name ∈ orphans, name ∉ liveSha256Hashes s.rows) {looks : Nat}
    (hlooks : 3 * orphans.length ≤ looks) :
    Looked id now orphans s (alone sha size id looks s) := by
  induction orphans generalizing s report looks with
  | nil =>
    rw [alone_done h]
    exact ⟨rfl, by simp, report, h⟩
  | cons name rest ih =>
    obtain ⟨hnew, hnodup⟩ := nodup_cons.mp hnodup
    obtain ⟨blob, hblob⟩ := hthere name (.head _)
    rw [length_cons] at hlooks
    by_cases hyoung : now - blob.mtime < defaultMinAge
    · obtain ⟨looks, rfl⟩ : ∃ fewer, looks = fewer + 1 := ⟨looks - 1, by omega⟩
      rw [alone_succ, step_young h hblob hyoung]
      obtain ⟨hsame, hfiles, hdone⟩ := ih hnodup (s := { s with
          passes := s.passes.set id
            ⟨now, rest, .next, { report with skippedRecent := report.skippedRecent + 1 }⟩ })
        (get?_set_self _ _ _) hdry
        (fun other hother => hthere other (.tail _ hother))
        (fun other hother => hrows other (.tail _ hother)) (show 3 * rest.length ≤ looks by omega)
      refine ⟨hsame, fun other => ?_, hdone⟩
      rw [hfiles other]
      by_cases hother : other = name
      · subst hother
        have hkept : ¬∃ found, s.files.get? other = some found ∧ defaultMinAge ≤ now - found.mtime := by
          rintro ⟨found, hfound, hold⟩
          rw [hblob, Option.some.injEq] at hfound
          subst hfound
          omega
        rw [if_neg fun hboth => hnew hboth.1, if_neg fun hboth => hkept hboth.2]
      · simp [hother]
    · obtain ⟨looks, rfl⟩ : ∃ fewer, looks = fewer + 3 := ⟨looks - 3, by omega⟩
      obtain ⟨s', halone, hsame, herased, hpass⟩ := step_old sha size h hblob hyoung hdry
        (hrows name (.head _))
      have hget : ∀ other, other ≠ name → s'.files.get? other = s.files.get? other := by
        intro other hother
        rw [herased, get?_erase, if_neg hother.symm]
      have hrest : ∀ other ∈ rest, other ≠ name := fun other hother heq => hnew (heq ▸ hother)
      rw [halone]
      obtain ⟨hrows', hfiles, hdone⟩ := ih hnodup (s := s') hpass hdry
        (fun other hother => by
          rw [hget other (hrest other hother)]
          exact hthere other (.tail _ hother))
        (fun other hother => hsame ▸ hrows other (.tail _ hother)) (show 3 * rest.length ≤ looks by omega)
      refine ⟨hrows'.trans hsame, fun other => ?_, hdone⟩
      rw [hfiles other]
      by_cases hother : other = name
      · subst hother
        have hold : ∃ found, s.files.get? other = some found ∧ defaultMinAge ≤ now - found.mtime :=
          ⟨blob, hblob, by omega⟩
        rw [if_neg fun hboth => hnew hboth.1, if_pos ⟨.head _, hold⟩, herased, get?_erase,
          if_pos rfl]
      · simp [hother, hget other hother]

theorem mem_findOrphanedBlobs {name : String} :
    name ∈ findOrphanedBlobs s ↔ (∃ blob, s.files.get? name = some blob) ∧
      isContentAddressedName name = true ∧ name ∉ liveSha256Hashes s.rows := by
  simp [findOrphanedBlobs, Dict.mem_keys, Dict.contains_iff]

def Fresh (sha : Sha256 β) (s : Node β) : Prop :=
  Whole sha s ∧ Addressed sha s.files ∧ s.arrivals = .empty ∧ s.passes = .empty

theorem Fresh.kept (h : Fresh sha s) : Kept sha s := by
  obtain ⟨hwhole, haddressed, harrivals, hpasses⟩ := h
  refine ⟨hwhole, haddressed, ?_, ?_, ?_⟩
  · intro id pass hpass
    rw [hpasses] at hpass
    cases hpass
  · intro session arrival harrival
    rw [harrivals] at harrival
    cases harrival
  · intro session arrival found harrival
    rw [harrivals] at harrival
    cases harrival

/-- In a run whose removals all meet the condition every row has its blob in every state. -/
theorem rows_keep_their_blobs (sha : Sha256 β) (size : β → Nat) :
    (∀ start : Node β, Fresh sha start → ∀ run : List (Happening β),
      (∀ v ∈ visited (step sha size) start run, Harmless sha v.1 v.2) →
        (∀ v ∈ visited (step sha size) start run, Whole sha v.1) ∧
          Whole sha (run.foldl (step sha size) start)) ∧
      ∀ (s : Node β) (id looks : Nat), 3 * (findOrphanedBlobs s).length ≤ looks →
        let after := alone sha size id looks (step sha size s (.scan id false))
        after.rows = s.rows ∧ (∃ report, after.passes.get? id = some ⟨s.now, [], .next, report⟩) ∧
          ∀ name, after.files.get? name =
            if isContentAddressedName name = true ∧ name ∉ liveSha256Hashes s.rows ∧
              ∃ blob, s.files.get? name = some blob ∧ defaultMinAge ≤ s.now - blob.mtime
            then none else s.files.get? name := by
  constructor
  · intro start hfresh run hrun
    have hstep : ∀ v ∈ visited (step sha size) start run, Kept sha v.1 → Kept sha (step sha size v.1 v.2) :=
      fun v hv hkept => kept_step hkept (hrun v hv)
    exact ⟨fun v hv => (visited_invariant run start hfresh.kept hstep v hv).whole,
      (foldl_invariant run start hfresh.kept hstep).whole⟩
  · intro s id looks hlooks
    have hnodup : (findOrphanedBlobs s).Nodup := s.files.nodup.filter _
    obtain ⟨hrows, hfiles, hdone⟩ := looked_alone sha size
      (s := step sha size s (.scan id false)) hnodup (get?_set_self _ _ _) rfl
      (fun name hname => (mem_findOrphanedBlobs.mp hname).1)
      (fun name hname => (mem_findOrphanedBlobs.mp hname).2.2) hlooks
    refine ⟨hrows, hdone, fun name => ?_⟩
    rw [hfiles name]
    congr 1
    rw [eq_iff_iff, mem_findOrphanedBlobs]
    constructor
    · rintro ⟨⟨-, hname, hlive⟩, hold⟩
      exact ⟨hname, hlive, hold⟩
    · rintro ⟨hname, hlive, blob, hblob, hold⟩
      exact ⟨⟨⟨blob, hblob⟩, hname, hlive⟩, blob, hblob, hold⟩

instance (s : Node β) (pass : Pass) : Decidable (pass.Spares sha s) := by
  unfold Pass.Spares
  cases pass.looking <;> infer_instance

instance (s : Node β) (happening : Happening β) : Decidable (Harmless sha s happening) := by
  cases happening <;> unfold Harmless <;> infer_instance

def emptyHash : String := "e3b0c44298fc1c149afbf4c8996fb92427ae41e4649b934ca495991b7852b855"

def emptyFiles : Sha256 Unit := ⟨fun _ => emptyHash, fun _ => by decide +kernel⟩

/-- One empty file, stored a day ago, whose row is gone. -/
def abandoned : Node Unit :=
  { now := 24 * defaultMinAge, files := empty.set emptyHash ⟨(), 0⟩, rows := [] }

theorem fresh_abandoned : Fresh emptyFiles abandoned := by
  refine ⟨fun row hrow => absurd hrow not_mem_nil, fun name blob _ hblob => ?_, rfl, rfl⟩
  rw [abandoned, get?_set] at hblob
  split at hblob
  · rename_i hsame
    exact hsame
  · cases hblob

def lastMoment : List (Happening Unit) :=
  [.scan 0 false, .advance 0, .advance 0, .begin 1 "upload" (), .store 1 none, .finalize 1, .advance 0]

/-- No upload is under way, and the row has no blob. -/
theorem upload_loses_its_blob : Fresh emptyFiles abandoned ∧
      ((lastMoment.foldl (step emptyFiles fun _ => 0) abandoned).arrivals.size = 0 ∧
        ¬Whole emptyFiles (lastMoment.foldl (step emptyFiles fun _ => 0) abandoned)) := by
  refine ⟨fresh_abandoned, by decide +kernel, fun hwhole => ?_⟩
  have hrow : (lastMoment.foldl (step emptyFiles fun _ => 0) abandoned).rows = [⟨"upload", emptyHash⟩] := rfl
  obtain ⟨blob, hblob, -⟩ := hwhole ⟨"upload", emptyHash⟩ (by rw [hrow]; exact mem_singleton_self _)
  have hgone : (lastMoment.foldl (step emptyFiles fun _ => 0) abandoned).files.get? emptyHash = none := by
    decide +kernel
  rw [hgone] at hblob
  cases hblob

def afterwards : List (Happening Unit) :=
  [.scan 0 false, .advance 0, .advance 0, .advance 0, .begin 1 "upload" (), .store 1 none, .finalize 1]

theorem afterwards_keeps_its_blob :
    ((afterwards.foldl (step emptyFiles fun _ => 0) abandoned).files.get? emptyHash).isSome = true := by
  have hrow : (afterwards.foldl (step emptyFiles fun _ => 0) abandoned).rows = [⟨"upload", emptyHash⟩] := rfl
  obtain ⟨blob, hblob, -⟩ := ((rows_keep_their_blobs emptyFiles fun _ => 0).1 abandoned fresh_abandoned afterwards
    (by decide +kernel)).2 ⟨"upload", emptyHash⟩ (by rw [hrow]; exact mem_singleton_self _)
  rw [hblob]
  rfl

end NetBBS.FileStore
