import Mathlib.Algebra.GroupWithZero.Nat
import Mathlib.Algebra.Order.BigOperators.Group.List
import Mathlib.Algebra.Order.Group.Nat
import Mathlib.Data.List.Nodup
import Mathlib.Data.List.Perm.Subperm
import NetBBS.Python.Text

/-! # Files that go with a session -/

namespace NetBBS.Ftn

open List

def maxFileBytes : Nat := 64 * 1024 * 1024

def maxSessionFileBytes : Nat := 256 * 1024 * 1024

def pairedKinds : List String := ["hatch", "publish", "ticfwd"]

structure OutboundFile where
  id : Nat
  sendName : Text
  referenceKind : String
  referenceId : String
deriving DecidableEq

structure Waiting where
  rows : List OutboundFile
  ids : (rows.map OutboundFile.id).Nodup

structure Source where
  path : String
  size : Nat
  mtime : Int

inductive DropReason where
  | gone
  | tooBig (size : Nat)
  | partner

def OutboundFile.isPaired (row : OutboundFile) : Bool := decide (row.referenceKind ∈ pairedKinds)

variable (casefold : Text → Text) (sourceOf : OutboundFile → Option Source)

/-- `_prepare` after some rows. -/
structure Preparing where
  files : List (OutboundFile × Source) := []
  dropped : List (OutboundFile × DropReason) := []
  names : List Text := []
  budget : Nat := maxSessionFileBytes

def considerRow (so : Preparing) (row : OutboundFile) : Preparing :=
  match sourceOf row with
  | none => { so with dropped := so.dropped ++ [(row, .gone)] }
  | some source =>
    if maxFileBytes < source.size then { so with dropped := so.dropped ++ [(row, .tooBig source.size)] }
    else if so.names.any (fun name => decide (name = casefold row.sendName)) = true ∨ so.budget < source.size then so
    else
      { so with
        files := so.files ++ [(row, source)]
        names := casefold row.sendName :: so.names
        budget := so.budget - source.size }

/-- `broken`: the references that lost a row. -/
def brokenReferences (dropped : List (OutboundFile × DropReason)) : List String :=
  (dropped.filter fun entry => entry.1.isPaired).map fun entry => entry.1.referenceId

def inBroken (broken : List String) (row : OutboundFile) : Bool :=
  row.isPaired && decide (row.referenceId ∈ broken)

def dropPartner (dropped : List (OutboundFile × DropReason)) (row : OutboundFile) :
    List (OutboundFile × DropReason) :=
  if dropped.all (fun entry => decide (row.id ≠ entry.1.id)) then dropped ++ [(row, .partner)] else dropped

structure Prepared where
  files : List (OutboundFile × Source)
  dropped : List (OutboundFile × DropReason)

/-- `_prepare`. With no reference broken both passes over the pairs change nothing. -/
def prepare (rows : List OutboundFile) : Prepared :=
  let so := rows.foldl (considerRow casefold sourceOf) {}
  let broken := brokenReferences so.dropped
  { dropped := (rows.filter (inBroken broken)).foldl dropPartner so.dropped
    files := so.files.filter fun entry => !inBroken broken entry.1 }

namespace Prepared

variable (plan : Prepared) (rows : List OutboundFile)

def sent : List OutboundFile := plan.files.map Prod.fst

def lost : List OutboundFile := plan.dropped.map Prod.fst

def left : List OutboundFile := rows.filter fun row => row ∉ plan.sent ∧ row ∉ plan.lost

end Prepared

def Partners (row other : OutboundFile) : Prop :=
  row.isPaired = true ∧ row.referenceKind = other.referenceKind ∧ row.referenceId = other.referenceId

structure Prepared.Keeps (casefold : Text → Text) (plan : Prepared) (rows : List OutboundFile) : Prop where
  fates : (plan.sent ++ plan.lost ++ plan.left rows).Perm rows
  order : plan.sent.Sublist rows
  bytes : (plan.files.map fun entry => entry.2.size).sum ≤ maxSessionFileBytes
  names : (plan.sent.map fun row => casefold row.sendName).Nodup
  pairs : ∀ row ∈ rows, ∀ other ∈ rows, Partners row other →
    (row ∈ plan.sent ↔ other ∈ plan.sent) ∧ (row ∈ plan.lost ↔ other ∈ plan.lost)

variable (casefold : Text → Text) (sourceOf : OutboundFile → Option Source)

def Sendable (row : OutboundFile) : Prop := ∃ source ∈ sourceOf row, source.size ≤ maxFileBytes

instance (row : OutboundFile) : Decidable (Sendable sourceOf row) := by
  unfold Sendable
  infer_instance

def sizeOf (row : OutboundFile) : Nat := ((sourceOf row).map Source.size).getD 0

def RoomFor (taken : List OutboundFile) (row : OutboundFile) : Prop :=
  (taken.map (sizeOf sourceOf)).sum + sizeOf sourceOf row ≤ maxSessionFileBytes ∧
    ∀ other ∈ taken, casefold other.sendName ≠ casefold row.sendName

instance (taken : List OutboundFile) (row : OutboundFile) :
    Decidable (RoomFor casefold sourceOf taken row) := by
  unfold RoomFor
  infer_instance

def withRoom (rows : List OutboundFile) : List OutboundFile :=
  rows.foldl (fun taken row =>
    if Sendable sourceOf row ∧ RoomFor casefold sourceOf taken row then taken ++ [row] else taken) []

def Whole (rows : List OutboundFile) (row : OutboundFile) : Prop :=
  ∀ other ∈ rows, other.isPaired = true → other.referenceId = row.referenceId → Sendable sourceOf other

def RoomForPairs (rows : List OutboundFile) : Prop :=
  ∀ row ∈ rows, ∀ other ∈ rows, Partners row other → Whole sourceOf rows row →
    (row ∈ withRoom casefold sourceOf rows ↔ other ∈ withRoom casefold sourceOf rows)

variable {casefold : Text → Text} {sourceOf : OutboundFile → Option Source}
    {rows : List OutboundFile}

theorem withRoom_snoc (row : OutboundFile) : withRoom casefold sourceOf (rows ++ [row]) =
      if Sendable sourceOf row ∧ RoomFor casefold sourceOf (withRoom casefold sourceOf rows) row then
        withRoom casefold sourceOf rows ++ [row]
      else withRoom casefold sourceOf rows := by
  rw [withRoom, foldl_append]
  rfl

theorem withRoom_spec (rows : List OutboundFile) :
    (withRoom casefold sourceOf rows).Sublist rows ∧
      (∀ row ∈ withRoom casefold sourceOf rows, Sendable sourceOf row) ∧
      ((withRoom casefold sourceOf rows).map (sizeOf sourceOf)).sum ≤ maxSessionFileBytes ∧
      ((withRoom casefold sourceOf rows).map fun row => casefold row.sendName).Nodup := by
  induction rows using List.reverseRecOn with
  | nil => exact ⟨.slnil, fun row hrow => absurd hrow not_mem_nil, Nat.zero_le _, nodup_nil⟩
  | append_singleton rows row ih =>
    obtain ⟨horder, hsendable, hbytes, hnames⟩ := ih
    rw [withRoom_snoc]
    split
    · rename_i htaken
      obtain ⟨hthere, hroom, hname⟩ := htaken
      refine ⟨horder.append_right [row], ?_, ?_, ?_⟩
      · intro other hother
        rcases mem_append.mp hother with hold | hlast
        · exact hsendable other hold
        · rw [mem_singleton.mp hlast]
          exact hthere
      · simpa using hroom
      · rw [map_append, nodup_append]
        refine ⟨hnames, by simp, ?_⟩
        intro folded hfolded last hlast
        obtain ⟨other, hother, rfl⟩ := mem_map.mp hfolded
        rw [map_singleton, mem_singleton] at hlast
        exact hlast ▸ hname other hother
    · exact ⟨horder.trans (sublist_append_left rows [row]), hsendable, hbytes, hnames⟩

structure Tracks (casefold : Text → Text) (sourceOf : OutboundFile → Option Source)
    (rows : List OutboundFile) (so : Preparing) : Prop where
  files : so.files.map Prod.fst = withRoom casefold sourceOf rows
  sources : ∀ entry ∈ so.files, sourceOf entry.1 = some entry.2
  names : ∀ folded, folded ∈ so.names ↔
    ∃ row ∈ withRoom casefold sourceOf rows, casefold row.sendName = folded
  budget : so.budget + ((withRoom casefold sourceOf rows).map (sizeOf sourceOf)).sum = maxSessionFileBytes
  dropped : so.dropped.map Prod.fst = rows.filter fun row => ¬ Sendable sourceOf row

variable {so : Preparing} {row : OutboundFile}

theorem Tracks.snoc (h : Tracks casefold sourceOf rows so) (row : OutboundFile) :
    Tracks casefold sourceOf (rows ++ [row]) (considerRow casefold sourceOf so row) := by
  have hunsendable : ∀ reason, ¬ Sendable sourceOf row → Tracks casefold sourceOf (rows ++ [row])
      { so with dropped := so.dropped ++ [(row, reason)] } := by
    intro reason hnot
    have hsame : withRoom casefold sourceOf (rows ++ [row]) = withRoom casefold sourceOf rows := by
      rw [withRoom_snoc, if_neg fun hroom => hnot hroom.1]
    refine ⟨hsame ▸ h.files, h.sources, hsame ▸ h.names, hsame ▸ h.budget, ?_⟩
    simp [h.dropped, hnot]
  unfold considerRow
  split
  · rename_i hnone
    exact hunsendable _ fun ⟨source, hsource, _⟩ => by simp [hnone] at hsource
  · rename_i source hsource
    split
    · rename_i hbig
      apply hunsendable
      rintro ⟨other, hother, hsmall⟩
      rw [Option.mem_def, hsource, Option.some.injEq] at hother
      subst hother
      omega
    · rename_i hsmall
      have hthere : Sendable sourceOf row := ⟨source, hsource, Nat.le_of_not_lt hsmall⟩
      have hsize : sizeOf sourceOf row = source.size := by rw [sizeOf, hsource]; rfl
      have hdropped : so.dropped.map Prod.fst = (rows ++ [row]).filter fun row => ¬ Sendable sourceOf row := by
        simp [h.dropped, hthere]
      have hbudget := h.budget
      have hname : so.names.any (fun name => decide (name = casefold row.sendName)) = true ↔
          casefold row.sendName ∈ so.names := by simp
      have hroom : (so.names.any (fun name => decide (name = casefold row.sendName)) = true ∨
          so.budget < source.size) ↔ ¬ RoomFor casefold sourceOf (withRoom casefold sourceOf rows) row := by
        rw [hname, RoomFor, not_and_or, h.names, hsize, not_le, or_comm]
        refine or_congr (by omega) ?_
        push Not
        rfl
      split
      · rename_i hfull
        have hsame : withRoom casefold sourceOf (rows ++ [row]) = withRoom casefold sourceOf rows := by
          rw [withRoom_snoc, if_neg fun htaken => hroom.mp hfull htaken.2]
        exact ⟨hsame ▸ h.files, h.sources, hsame ▸ h.names, hsame ▸ h.budget, hdropped⟩
      · rename_i hfits
        have htaken := not_not.mp fun hnot => hfits (hroom.mpr hnot)
        have hmore : withRoom casefold sourceOf (rows ++ [row]) = withRoom casefold sourceOf rows ++ [row] := by
          rw [withRoom_snoc, if_pos ⟨hthere, htaken⟩]
        refine ⟨by simp [h.files, hmore], ?_, ?_, ?_, hdropped⟩
        · intro entry hentry
          rcases mem_append.mp hentry with hold | hlast
          · exact h.sources entry hold
          · rw [mem_singleton.mp hlast]
            exact hsource
        · intro folded
          rw [hmore, mem_cons, h.names]
          simp only [mem_append, mem_singleton, or_and_right, exists_or, exists_eq_left]
          rw [or_comm, eq_comm (a := folded)]
        · have hlow := not_or.mp hfits
          simp only [hmore, map_append, map_cons, map_nil, sum_append, sum_cons,
            sum_nil, hsize]
          omega

theorem Tracks.sizes (h : Tracks casefold sourceOf rows so) :
    so.files.map (fun entry => entry.2.size) =
      (withRoom casefold sourceOf rows).map (sizeOf sourceOf) := by
  rw [← h.files, map_map]
  apply map_congr_left
  intro entry hentry
  rw [Function.comp_apply, sizeOf, h.sources entry hentry]
  rfl

theorem tracks_foldl (rows : List OutboundFile) :
    Tracks casefold sourceOf rows (rows.foldl (considerRow casefold sourceOf) {}) := by
  induction rows using List.reverseRecOn with
  | nil =>
    exact ⟨rfl, fun entry hentry => absurd hentry not_mem_nil, by simp [withRoom], Nat.add_zero _, rfl⟩
  | append_singleton rows row ih =>
    rw [foldl_append]
    exact ih.snoc row

theorem foldl_dropPartner {partners : List OutboundFile} {dropped : List (OutboundFile × DropReason)}
    (hids : ∀ row ∈ partners, ∀ other ∈ partners ++ dropped.map Prod.fst, row.id = other.id → row = other)
    (hnodup : (dropped.map Prod.fst).Nodup) :
    ((partners.foldl dropPartner dropped).map Prod.fst).Nodup ∧
      ∀ row, row ∈ (partners.foldl dropPartner dropped).map Prod.fst ↔
        row ∈ partners ∨ row ∈ dropped.map Prod.fst := by
  induction partners generalizing dropped with
  | nil => exact ⟨hnodup, fun row => by simp⟩
  | cons partner partners ih =>
    rw [foldl_cons]
    have hfresh : dropped.all (fun entry => decide (partner.id ≠ entry.1.id)) = true ↔
        partner ∉ dropped.map Prod.fst := by
      rw [all_eq_true]
      constructor
      · intro hall hmem
        obtain ⟨entry, hentry, rfl⟩ := mem_map.mp hmem
        exact of_decide_eq_true (hall entry hentry) rfl
      · intro hnot entry hentry
        apply decide_eq_true
        intro hsame
        have hmem := mem_map_of_mem (f := Prod.fst) hentry
        exact hnot (hids partner (.head _) _ (mem_append_right _ hmem) hsame ▸ hmem)
    have hrest : ∀ row ∈ partners, ∀ other ∈ partners ++ (dropPartner dropped partner).map Prod.fst,
        row.id = other.id → row = other := by
      intro row hrow other hother
      apply hids row (.tail _ hrow) other
      unfold dropPartner at hother
      split at hother
      · simp only [map_append, map_cons, map_nil, mem_append, cons_append,
          mem_cons] at hother ⊢
        tauto
      · exact .tail _ hother
    by_cases hall : dropped.all (fun entry => decide (partner.id ≠ entry.1.id)) = true
    · have hstep : dropPartner dropped partner = dropped ++ [(partner, .partner)] := if_pos hall
      have hnot := hfresh.mp hall
      rw [hstep] at hrest ⊢
      have hmore : ((dropped ++ [(partner, DropReason.partner)]).map Prod.fst).Nodup := by
        rw [map_append, map_singleton, nodup_append]
        refine ⟨hnodup, nodup_singleton _, ?_⟩
        rintro row hrow other hother rfl
        rw [mem_singleton.mp hother] at hrow
        exact hnot hrow
      obtain ⟨hlost, hmem⟩ := ih hrest hmore
      refine ⟨hlost, fun row => ?_⟩
      rw [hmem, map_append, mem_append, map_singleton, mem_singleton, mem_cons]
      tauto
    · have hstep : dropPartner dropped partner = dropped := if_neg hall
      have hold := not_not.mp fun hnot => hall (hfresh.mpr hnot)
      rw [hstep] at hrest ⊢
      obtain ⟨hlost, hmem⟩ := ih hrest hnodup
      refine ⟨hlost, fun row => ?_⟩
      rw [hmem, mem_cons]
      constructor
      · tauto
      · rintro ((rfl | hrow) | hrow)
        · exact .inr hold
        · exact .inl hrow
        · exact .inr hrow

variable {waiting : Waiting}

theorem Waiting.eq_of_id (waiting : Waiting) {other : OutboundFile} (hrow : row ∈ waiting.rows)
    (hother : other ∈ waiting.rows) (hid : row.id = other.id) : row = other :=
  inj_on_of_nodup_map waiting.ids hrow hother hid

theorem inBroken_iff {rows : List OutboundFile} :
    inBroken (brokenReferences (rows.foldl (considerRow casefold sourceOf) {}).dropped) row = true ↔
      row.isPaired = true ∧ ¬ Whole sourceOf rows row := by
  have hdropped := (@tracks_foldl casefold sourceOf rows).dropped
  rw [inBroken, Bool.and_eq_true, decide_eq_true_eq, brokenReferences, Whole]
  refine and_congr_right fun _ => ?_
  push Not
  rw [mem_map]
  constructor
  · rintro ⟨entry, hentry, hreference⟩
    obtain ⟨hentry, hpaired⟩ := mem_filter.mp hentry
    have hmem := mem_map_of_mem (f := Prod.fst) hentry
    rw [hdropped, mem_filter, decide_eq_true_eq] at hmem
    exact ⟨entry.1, hmem.1, hpaired, hreference, hmem.2⟩
  · rintro ⟨other, hother, hpaired, hreference, hnot⟩
    have hmem : other ∈ rows.filter fun row => ¬ Sendable sourceOf row :=
      mem_filter.mpr ⟨hother, decide_eq_true hnot⟩
    rw [← hdropped] at hmem
    obtain ⟨entry, hentry, rfl⟩ := mem_map.mp hmem
    exact ⟨entry, mem_filter.mpr ⟨hentry, hpaired⟩, hreference⟩

theorem sent_eq (rows : List OutboundFile) :
    (prepare casefold sourceOf rows).sent = (withRoom casefold sourceOf rows).filter fun row =>
      !inBroken (brokenReferences (rows.foldl (considerRow casefold sourceOf) {}).dropped) row := by
  rw [← (tracks_foldl rows).files, filter_map]
  rfl

theorem mem_sent {rows : List OutboundFile} :
    row ∈ (prepare casefold sourceOf rows).sent ↔ row ∈ withRoom casefold sourceOf rows ∧
      (row.isPaired = true → Whole sourceOf rows row) := by
  rw [sent_eq, mem_filter, Bool.not_eq_true', ← Bool.not_eq_true, inBroken_iff, not_and, not_not]

theorem lost_spec (waiting : Waiting) : (prepare casefold sourceOf waiting.rows).lost.Nodup ∧
      ∀ row, row ∈ (prepare casefold sourceOf waiting.rows).lost ↔ row ∈ waiting.rows ∧
        (¬ Sendable sourceOf row ∨ row.isPaired = true ∧ ¬ Whole sourceOf waiting.rows row) := by
  have hdropped := (@tracks_foldl casefold sourceOf waiting.rows).dropped
  obtain ⟨hnodup, hmem⟩ := @foldl_dropPartner (waiting.rows.filter (inBroken (brokenReferences
      (waiting.rows.foldl (considerRow casefold sourceOf) {}).dropped))) _
    (by
      intro row hrow other hother
      apply waiting.eq_of_id (mem_filter.mp hrow).1
      rcases mem_append.mp hother with hpartner | hold
      · exact (mem_filter.mp hpartner).1
      · rw [hdropped] at hold
        exact (mem_filter.mp hold).1)
    (by
      rw [hdropped]
      exact (List.Nodup.of_map _ waiting.ids).filter _)
  refine ⟨hnodup, fun row => (hmem row).trans ?_⟩
  rw [hdropped, mem_filter, mem_filter, inBroken_iff, decide_eq_true_eq]
  tauto

/-- A plan keeps its promises exactly where there is room for both rows of a pair or for neither. -/
theorem prepare_keeps_iff (casefold : Text → Text) (sourceOf : OutboundFile → Option Source)
    (waiting : Waiting) :
    (prepare casefold sourceOf waiting.rows).Keeps casefold waiting.rows ↔
      RoomForPairs casefold sourceOf waiting.rows := by
  have hpairing : ∀ row other, Partners row other → (row.isPaired = true ∧ other.isPaired = true) ∧
      (Whole sourceOf waiting.rows row ↔ Whole sourceOf waiting.rows other) := by
    rintro row other ⟨hpaired, hkind, hreference⟩
    refine ⟨⟨hpaired, ?_⟩, ?_⟩
    · rwa [OutboundFile.isPaired, ← hkind]
    · rw [Whole, hreference, Whole]
  obtain ⟨horder, hthere, hbytes, hnames⟩ := @withRoom_spec casefold sourceOf waiting.rows
  constructor
  · intro h row hrow other hother hpartners hwhole
    obtain ⟨-, hsame⟩ := hpairing row other hpartners
    have hsent := (h.pairs row hrow other hother hpartners).1
    rwa [mem_sent, mem_sent, and_iff_left fun _ => hwhole, and_iff_left fun _ => hsame.mp hwhole] at hsent
  · intro hroom
    have hsublist : (prepare casefold sourceOf waiting.rows).sent.Sublist
        (withRoom casefold sourceOf waiting.rows) := sent_eq waiting.rows ▸ filter_sublist
    obtain ⟨hlost, hmemLost⟩ := @lost_spec casefold sourceOf waiting
    have hrows : waiting.rows.Nodup := List.Nodup.of_map _ waiting.ids
    have hsentRows := (hsublist.trans horder)
    refine ⟨?_, hsentRows, ?_, ?_, ?_⟩
    · rw [perm_ext_iff_of_nodup ?_ hrows]
      · intro row
        simp only [mem_append, Prepared.left, mem_filter, decide_eq_true_eq]
        have := hmemLost row
        have hin : row ∈ (prepare casefold sourceOf waiting.rows).sent → row ∈ waiting.rows :=
          fun hsent => hsentRows.subset hsent
        tauto
      · rw [nodup_append, nodup_append]
        refine ⟨⟨hsentRows.nodup hrows, hlost, ?_⟩, hrows.filter _, ?_⟩
        · rintro row hsent _ hgone rfl
          obtain ⟨hmem, hwhole⟩ := mem_sent.mp hsent
          rcases ((hmemLost row).mp hgone).2 with hnot | ⟨hpaired, hnot⟩
          · exact hnot (hthere row hmem)
          · exact hnot (hwhole hpaired)
        · rintro row hfate _ hleft rfl
          obtain ⟨-, hneither⟩ := mem_filter.mp hleft
          have hneither := of_decide_eq_true hneither
          exact (mem_append.mp hfate).elim hneither.1 hneither.2
    · have hsizes := hbytes
      rw [← (tracks_foldl waiting.rows).sizes] at hsizes
      exact Nat.le_trans ((filter_sublist.map _).sum_le_sum fun size _ => Nat.zero_le size) hsizes
    · exact (hsublist.map _).nodup hnames
    · intro row hrow other hother hpartners
      obtain ⟨⟨hpaired, hpaired'⟩, hsame⟩ := hpairing row other hpartners
      rw [mem_sent, mem_sent, hmemLost, hmemLost]
      by_cases hwhole : Whole sourceOf waiting.rows row
      · have hwhole' := hsame.mp hwhole
        have hthere := hwhole row hrow hpaired rfl
        have hthere' := hwhole' other hother hpaired' rfl
        constructor
        · simp only [hwhole, hwhole', implies_true, and_true]
          exact hroom row hrow other hother hpartners hwhole
        · simp [hthere, hthere', hwhole, hwhole']
      · have hbroken' : ¬ Whole sourceOf waiting.rows other := fun h => hwhole (hsame.mpr h)
        constructor
        · simp [hpaired, hpaired', hwhole, hbroken']
        · simp [hrow, hother, hpaired, hpaired', hwhole, hbroken']

def takenName : Waiting where
  rows := [⟨1, "x.zip".toList, "attach", "7"⟩, ⟨2, "a.tic".toList, "hatch", "4"⟩,
    ⟨3, "x.zip".toList, "hatch", "4"⟩]
  ids := by decide

/-- The TIC goes alone. -/
theorem not_keeps_takenName :
    ¬ (prepare id (fun _ => some ⟨"spool", 10, 0⟩) takenName.rows).Keeps id takenName.rows := by
  intro h
  have hpair := h.pairs ⟨2, "a.tic".toList, "hatch", "4"⟩ (by decide) ⟨3, "x.zip".toList, "hatch", "4"⟩
    (by decide) ⟨by decide, rfl, rfl⟩
  revert hpair
  decide +kernel

end NetBBS.Ftn
