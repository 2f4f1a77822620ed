import NetBBS.Foundation.Chain
import NetBBS.Foundation.Runs
import NetBBS.Link.Trust.Carriage

/-! # What a relay serves of what it was handed -/

namespace NetBBS.TrustCarriage

open Foundation List

theorem fillPage_spec (rows : List SignedTrustObject) (total : Nat) (result : List SignedTrustObject) :
    ∃ taken left, rows = taken ++ left ∧ (fillPage rows total result).1 = result ++ taken ∧
      ((fillPage rows total result).2 = false → left = []) ∧
        (result ≠ [] ∨ rows ≠ [] → result ++ taken ≠ []) := by
  induction rows generalizing total result with
  | nil => exact ⟨[], [], rfl, by simp [fillPage], fun _ => rfl, by simp⟩
  | cons object rest ih =>
    rw [fillPage]
    split
    · rename_i hfull
      exact ⟨[], object :: rest, rfl, by simp, by simp, fun _ => by simpa using hfull.1⟩
    · obtain ⟨taken, left, hrest, hpage, hwhole, -⟩ :=
        ih (total + (object.itemSize + 1)) (result ++ [object])
      refine ⟨object :: taken, left, by rw [hrest, cons_append], ?_, hwhole, fun _ => by simp⟩
      rw [hpage, append_assoc, singleton_append]

variable {past rest before carried objects : List SignedTrustObject}
    {x object : SignedTrustObject} {deposit : Deposit}

theorem loadTrustPageForPull_spec
    (admitted : Option Nat → Except TrustWireError (List SignedTrustObject × Bool)) (limit : Nat)
    (hcarried : carried = before ++ rest) (hsome : carried ≠ [])
    (hnodup : (carried.map SignedTrustObject.contentId).Nodup) :
    ∃ page left more, loadTrustPageForPull admitted carried
        (before.getLast?.map SignedTrustObject.contentId) limit false = .ok (page, more) ∧
      rest = page ++ left ∧ (more = false → left = []) ∧ (more = true → page ≠ []) := by
  have hrest : rowsAfterCursor carried (before.getLast?.map SignedTrustObject.contentId) = .ok rest := by
    rcases eq_nil_or_concat before with rfl | ⟨front, last, rfl⟩
    · simp [hcarried, rowsAfterCursor]
    · rw [concat_eq_append] at hcarried ⊢
      have hsplit : carried = front ++ last :: rest := by simpa using hcarried
      have hthere : (carried.any fun object => object.contentId = last.contentId) = true :=
        any_eq_true.mpr ⟨last, by simp [hsplit], by simp⟩
      simp only [getLast?_append, getLast?_singleton, Option.some_or, Option.map_some,
        rowsAfterCursor, hthere, if_true]
      rw [hsplit, itemsAfter_append]
      rw [hsplit, map_append, map_cons, nodup_append] at hnodup
      exact fun hmem => hnodup.2.2 _ hmem _ (.head _) rfl
  generalize hk : max 1 (min limit maxTrustObjectsPerResponse) = k
  have hpos : 0 < k := by omega
  have htake : (rest.take (k + 1)).take k = rest.take k := by
    rw [take_take]
    congr 1
    omega
  obtain ⟨taken, left, hrows, hpage, hwhole, hmoves⟩ := fillPage_spec (rest.take k) 2 []
  refine ⟨taken, left ++ rest.drop k, decide (k < (rest.take (k + 1)).length) || (fillPage (rest.take k) 2 []).2,
    ?_, ?_, ?_, ?_⟩
  · unfold loadTrustPageForPull
    rw [if_neg hsome, hrest]
    simp only [bind, Except.bind, Bool.not_false, Bool.true_or, filter_true, hk, htake, hpage,
      nil_append]
  · rw [← append_assoc, ← hrows, take_append_drop]
  · intro hmore
    obtain ⟨hlimit, hbroke⟩ := Bool.or_eq_false_iff.mp hmore
    have hlength : rest.length ≤ k := by
      have h := of_decide_eq_false hlimit
      rw [length_take] at h
      omega
    rw [hwhole hbroke, drop_of_length_le hlength, append_nil]
  · intro hmore
    have hnil : rest ≠ [] := by
      rintro rfl
      simp [fillPage] at hmore
    refine fun htaken => hmoves (.inr ?_) (by simp [htaken])
    simp only [ne_eq, take_eq_nil_iff, hnil, or_false]
    omega

theorem pullPages_eq (admitted : Option Nat → Except TrustWireError (List SignedTrustObject × Bool))
    (limit : Nat) (hcarried : carried = before ++ rest)
    (hsome : carried ≠ []) (hnodup : (carried.map SignedTrustObject.contentId).Nodup) {pages : Nat}
    (hpages : rest.length < pages) :
    pullPages admitted carried limit pages (before.getLast?.map SignedTrustObject.contentId) = rest := by
  induction pages generalizing before rest with
  | zero => omega
  | succ pages ih =>
    obtain ⟨page, left, more, hload, hrest, hwhole, hmoves⟩ :=
      loadTrustPageForPull_spec admitted limit hcarried hsome hnodup
    rw [pullPages, hload]
    simp only
    cases more with
    | false => simp [hrest, hwhole rfl]
    | true =>
      have hpage := hmoves rfl
      have hlast : page.getLast?.map SignedTrustObject.contentId =
          (before ++ page).getLast?.map SignedTrustObject.contentId := by
        rw [getLast?_append_of_ne_nil _ hpage]
      have hlength : left.length < pages := by
        have hpos := length_pos_iff.mpr hpage
        rw [hrest, length_append] at hpages
        omega
      rw [if_pos rfl, hlast, ih (by rw [hcarried, hrest, append_assoc]) hlength, hrest]

theorem loadOwnTrustObjectsToDeposit_spec (db : DepositorDb) (limit : Nat) :
    ∃ earlier later, db.objects = earlier ++ ((loadOwnTrustObjectsToDeposit db limit).1 ++ later) ∧
      ((loadOwnTrustObjectsToDeposit db limit).2.2 = none → earlier = []) ∧
        ∀ m, (loadOwnTrustObjectsToDeposit db limit).2.2 = some m →
          ∃ front x, earlier = front ++ [x] ∧ x.contentId = m := by
  generalize hk : max 1 (min limit maxTrustObjectsPerResponse) = k
  have hstretch : ∀ rows : List OwnRow, ∃ later, rows.map OwnRow.object =
      (fillPage ((rows.take k).map OwnRow.object) 2 []).1 ++ later := by
    intro rows
    obtain ⟨taken, left, hrows, hpage, -⟩ := fillPage_spec ((rows.take k).map OwnRow.object) 2 []
    refine ⟨left ++ (rows.drop k).map OwnRow.object, ?_⟩
    rw [hpage, nil_append, ← append_assoc, ← hrows, ← map_append, take_append_drop]
  unfold loadOwnTrustObjectsToDeposit
  simp only [hk]
  cases hfind : db.own.find? fun row => row.rowid = db.lastRowid with
  | none =>
    have hfrom : (if (db.lastRowid ≠ 0 && (none : Option Nat).isNone) = true then 0 else db.lastRowid) = 0 := by
      by_cases hzero : db.lastRowid = 0 <;> simp [hzero]
    have hall : (db.own.filter fun row => decide (0 < row.rowid)) = db.own :=
      filter_eq_self.mpr fun row hrow => by simpa using db.positive row hrow
    obtain ⟨later, hlater⟩ := hstretch db.own
    refine ⟨[], later, ?_, fun _ => rfl, by simp⟩
    simp only [Option.map_none, hfrom, hall, nil_append]
    exact hlater
  | some row =>
    obtain ⟨hrowid, before, rest, hown, -⟩ := find?_eq_some_iff_append.mp hfind
    have hrowid : row.rowid = db.lastRowid := by simpa using hrowid
    have hascending := db.ascending
    rw [hown, pairwise_append, pairwise_cons] at hascending
    have hafter : (db.own.filter fun r => decide (db.lastRowid < r.rowid)) = rest := by
      rw [hown, filter_append, filter_cons]
      have hbefore : (before.filter fun r => decide (db.lastRowid < r.rowid)) = [] := by
        refine filter_eq_nil_iff.mpr ?_
        intro r hr
        have hlt := hascending.2.2 r hr row (.head _)
        simp only [decide_eq_true_eq]
        omega
      have hrest : (rest.filter fun r => decide (db.lastRowid < r.rowid)) = rest := by
        refine filter_eq_self.mpr ?_
        intro r hr
        have hlt := hascending.2.1.1 r hr
        simp only [decide_eq_true_eq]
        omega
      rw [hbefore, hrest, if_neg (by simp [hrowid]), nil_append]
    obtain ⟨later, hlater⟩ := hstretch rest
    refine ⟨(before ++ [row]).map OwnRow.object, later, ?_, by simp, ?_⟩
    · simp only [Option.map_some, Option.isNone_some, Bool.and_false, Bool.false_eq_true, if_false, hafter]
      rw [← hlater, ← map_append, DepositorDb.objects, hown, append_assoc, singleton_append]
    · intro m hm
      refine ⟨before.map OwnRow.object, row.object, by simp, ?_⟩
      simpa using hm

abbrev Signed := List (SignedTrustObject × List SignedTrustObject)

structure SignedOk (signed : Signed) (key : Nat) : Prop where
  ids : ∀ (i : Nat) (y : SignedTrustObject) (past : List SignedTrustObject), signed[i]? = some (y, past) →
    y.contentId = i
  keys : ∀ y past, (y, past) ∈ signed → y.signedBy ≤ key ∧ ∀ x ∈ past, x.signedBy ≤ y.signedBy
  past : ∀ y past, (y, past) ∈ signed → ∀ x ∈ past, x.contentId < y.contentId

def StreamOk (signed : Signed) (own : List SignedTrustObject) : Prop :=
  ∀ before y after, own = before ++ y :: after → (y, before) ∈ signed

structure DepositOk (signed : Signed) (key : Nat) (deposit : Deposit) : Prop where
  key : deposit.key ≤ key
  own : StreamOk signed deposit.own
  keys : ∀ x ∈ deposit.own, x.signedBy ≤ deposit.key
  stretch : ∃ earlier later, deposit.own = earlier ++ (deposit.objects ++ later) ∧
    (deposit.afterContentId = none → earlier = []) ∧
      ∀ m, deposit.afterContentId = some m → ∃ front x, earlier = front ++ [x] ∧ x.contentId = m

structure RelayOk (signed : Signed) (key : Nat) (now : Int) (db : RelayDb) : Prop where
  key : db.knownKey ≤ key
  nodup : (db.carried.map SignedTrustObject.contentId).Nodup
  known : ∀ y ∈ db.carried, y.signedBy ≤ db.knownKey ∧ ∃ past, (y, past) ∈ signed
  closed : ∀ before y after, db.carried = before ++ y :: after → ∀ past, (y, past) ∈ signed → ∀ x ∈ past,
    (x.expired now = false → x.signedBy = db.knownKey → x ∈ before) ∧ (x ∈ db.carried → x ∈ before)
  mark : ∀ m, db.mark = some m → ∃ y past, (y, past) ∈ signed ∧ y.contentId = m ∧ y.signedBy ≤ db.knownKey ∧
    ∀ x ∈ past ++ [y], x.expired now = false → x.signedBy = db.knownKey → x ∈ db.carried

variable {signed : Signed} {key : Nat} {now : Int} {db : RelayDb}

theorem SignedOk.unique (h : SignedOk signed key) {y y' : SignedTrustObject}
    {past' : List SignedTrustObject} (hy : (y, past) ∈ signed) (hy' : (y', past') ∈ signed)
    (hid : y.contentId = y'.contentId) : y = y' ∧ past = past' := by
  obtain ⟨i, hi, hentry⟩ := mem_iff_getElem.mp hy
  obtain ⟨j, hj, hentry'⟩ := mem_iff_getElem.mp hy'
  have hfirst := h.ids i _ _ (by rw [getElem?_eq_getElem hi, hentry])
  have hsecond := h.ids j _ _ (by rw [getElem?_eq_getElem hj, hentry'])
  have hij : i = j := by omega
  subst hij
  rw [hentry, Prod.mk.injEq] at hentry'
  exact hentry'

theorem expired_mono {later : Int} (hle : now ≤ later)
    (h : x.expired later = false) : x.expired now = false := by
  unfold SignedTrustObject.expired at *
  cases hexpires : x.expiresAt with
  | none => rfl
  | some expiresAt =>
    simp only [hexpires, decide_eq_false_iff_not] at h ⊢
    omega

section

variable (h : RelayOk signed key now db)

include h

theorem RelayOk.later {key' : Nat} {now' : Int} (hkey : key ≤ key')
    (hnow : now ≤ now') : RelayOk signed key' now' db where
  key := Nat.le_trans h.key hkey
  nodup := h.nodup
  known := h.known
  closed before y after hsplit past hpast x hx :=
    ⟨fun hlive => (h.closed before y after hsplit past hpast x hx).1 (expired_mono hnow hlive),
      (h.closed before y after hsplit past hpast x hx).2⟩
  mark m hm := by
    obtain ⟨y, past, hpast, hid, hsigned, hcarried⟩ := h.mark m hm
    exact ⟨y, past, hpast, hid, hsigned, fun x hx hlive => hcarried x hx (expired_mono hnow hlive)⟩

theorem RelayOk.sign (hsigned : SignedOk signed key)
    (hid : object.contentId = signed.length) (past : List SignedTrustObject) :
    RelayOk (signed ++ [(object, past)]) key now db where
  key := h.key
  nodup := h.nodup
  known y hy := by
    obtain ⟨hkey, past', hpast'⟩ := h.known y hy
    exact ⟨hkey, past', mem_append_left _ hpast'⟩
  closed before y after hsplit past' hpast' := by
    have hy : y ∈ db.carried := by simp [hsplit]
    rcases mem_append.mp hpast' with hold | hnew
    · exact h.closed before y after hsplit past' hold
    · obtain ⟨-, past₀, hpast₀⟩ := h.known y hy
      obtain ⟨i, hi, hentry⟩ := mem_iff_getElem.mp hpast₀
      have hnumber := hsigned.ids i _ _ (by rw [getElem?_eq_getElem hi, hentry])
      rw [mem_singleton, Prod.mk.injEq] at hnew
      rw [hnew.1] at hnumber
      omega
  mark m hm := by
    obtain ⟨y, past', hpast', hrest⟩ := h.mark m hm
    exact ⟨y, past', mem_append_left _ hpast', hrest⟩

theorem RelayOk.learn (hsigned : SignedOk signed key) {knownKey : Nat}
    (hlater : db.knownKey ≤ knownKey) (hkey : knownKey ≤ key) :
    RelayOk signed key now { db with knownKey } := by
  rcases Nat.eq_or_lt_of_le hlater with rfl | hlt
  · exact h
  · refine ⟨hkey, h.nodup, ?_, ?_, ?_⟩
    · exact fun y hy => ⟨Nat.le_trans (h.known y hy).1 hlater, (h.known y hy).2⟩
    · intro before y after hsplit past hpast x hx
      refine ⟨fun _ hcurrent => ?_, (h.closed before y after hsplit past hpast x hx).2⟩
      have hyKey := (h.known y (by simp [show db.carried = _ from hsplit])).1
      have hxKey := (hsigned.keys y past hpast).2 x hx
      simp only at hcurrent
      omega
    · intro m hm
      obtain ⟨y, past, hpast, hid, hyKey, -⟩ := h.mark m hm
      refine ⟨y, past, hpast, hid, Nat.le_trans hyKey hlater, ?_⟩
      intro x hx _ hcurrent
      have hxKey : x.signedBy ≤ y.signedBy := by
        rcases mem_append.mp hx with hx | hx
        · exact (hsigned.keys y past hpast).2 x hx
        · exact Nat.le_of_eq (by rw [mem_singleton.mp hx])
      simp only at hcurrent
      omega

theorem RelayOk.prune :
    RelayOk signed key now { db with carried := db.carried.filter fun object => !object.expired now } where
  key := h.key
  nodup := (filter_sublist.map _).nodup h.nodup
  known y hy := h.known y (mem_of_mem_filter hy)
  closed before y after hsplit past hpast x hx := by
    obtain ⟨before', rest, hcarried, rfl, hrest⟩ := filter_eq_append_iff.mp hsplit
    obtain ⟨skipped, after', rfl, hskipped, hy, rfl⟩ := filter_eq_cons_iff.mp hrest
    rw [← append_assoc] at hcarried
    obtain ⟨hcurrent, hordered⟩ := h.closed _ y after' hcarried past hpast x hx
    have hkept : x ∈ before' ++ skipped → x.expired now = false →
        x ∈ before'.filter fun object => !object.expired now := by
      intro hmem hlive
      rcases mem_append.mp hmem with hmem | hmem
      · exact mem_filter.mpr ⟨hmem, by simp [hlive]⟩
      · exact absurd (by simp [hlive]) (hskipped x hmem)
    refine ⟨fun hlive hsignedBy => hkept (hcurrent hlive hsignedBy) hlive, ?_⟩
    intro hmem
    obtain ⟨hmem, hlive⟩ := mem_filter.mp hmem
    exact hkept (hordered hmem) (by simpa using hlive)
  mark m hm := by
    obtain ⟨y, past, hpast, hid, hsigned, hcarried⟩ := h.mark m hm
    refine ⟨y, past, hpast, hid, hsigned, ?_⟩
    intro x hx hlive hcurrent
    exact mem_filter.mpr ⟨hcarried x hx hlive hcurrent, by simp [hlive]⟩

end

variable {issuer : String} {knownKey : Nat}

theorem storeObject_ok (hsigned : SignedOk signed key) {s s' : Storing}
    (h : RelayOk signed key now ⟨s.carried, none, knownKey⟩)
    (hpast : (object, past) ∈ signed) (hcurrent : object.signedBy = knownKey)
    (hbefore : ∀ x ∈ past, x.expired now = false → x.signedBy = knownKey → x ∈ s.carried)
    (hstore : storeObject issuer now s object = .ok s') :
    RelayOk signed key now ⟨s'.carried, none, knownKey⟩ ∧ (∀ x ∈ s.carried, x ∈ s'.carried) ∧
      (object.expired now = false → object ∈ s'.carried) := by
  unfold storeObject at hstore
  split at hstore
  · cases hstore
  · split at hstore
    · rename_i hheld
      rw [← Except.ok.inj hstore]
      refine ⟨h, fun _ hx => hx, ?_⟩
      intro hlive
      rw [hlive, Bool.or_false, any_eq_true] at hheld
      obtain ⟨other, hother, hid⟩ := hheld
      obtain ⟨-, past', hpast'⟩ := h.known other hother
      have hsame := (hsigned.unique hpast' hpast (by simpa using hid)).1
      exact hsame ▸ hother
    · rename_i hnew
      rw [Bool.or_eq_true, not_or, Bool.not_eq_true, Bool.not_eq_true] at hnew
      obtain ⟨habsent, hlive⟩ := hnew
      split at hstore
      · cases hstore
      · rw [← Except.ok.inj hstore]
        have hnotIn : object.contentId ∉ s.carried.map SignedTrustObject.contentId := by
          intro hmem
          obtain ⟨other, hother, hid⟩ := mem_map.mp hmem
          exact any_eq_false.mp habsent other hother (by simpa using hid)
        refine ⟨⟨h.key, ?_, ?_, ?_, by simp⟩, fun _ hx => mem_append_left _ hx, fun _ => by simp⟩
        · rw [map_append, nodup_append]
          refine ⟨h.nodup, by simp, ?_⟩
          rintro _ hold _ hlast rfl
          rw [map_singleton, mem_singleton] at hlast
          exact hnotIn (hlast ▸ hold)
        · intro y hy
          rcases mem_append.mp hy with hy | hy
          · exact h.known y hy
          · rw [mem_singleton.mp hy]
            exact ⟨Nat.le_of_eq hcurrent, past, hpast⟩
        · intro before y after hsplit past' hpast' x hx
          rcases snoc_split hsplit with ⟨-, rfl, rfl⟩ | ⟨after', -, hcarried⟩
          · -- The new object itself.
            have hsame := (hsigned.unique hpast hpast' rfl).2
            subst hsame
            refine ⟨hbefore x hx, ?_⟩
            intro hmem
            rcases mem_append.mp hmem with hmem | hmem
            · exact hmem
            · have hlt := hsigned.past _ _ hpast x hx
              rw [mem_singleton.mp hmem] at hlt
              exact absurd hlt (Nat.lt_irrefl _)
          · obtain ⟨hclosed, hordered⟩ := h.closed before y after' hcarried past' hpast' x hx
            refine ⟨hclosed, ?_⟩
            intro hmem
            rcases mem_append.mp hmem with hmem | hmem
            · exact hordered hmem
            · -- It would have been here already.
              rw [mem_singleton.mp hmem] at hclosed ⊢
              exact hclosed hlive hcurrent

theorem storeObjects_ok (hsigned : SignedOk signed key) {earlier later : List SignedTrustObject}
    (hown : StreamOk signed (earlier ++ (objects ++ later))) {s s' : Storing}
    (h : RelayOk signed key now ⟨s.carried, none, knownKey⟩)
    (hbefore : ∀ x ∈ earlier, x.expired now = false → x.signedBy = knownKey → x ∈ s.carried)
    (hstore : (objects.filter fun object => object.signedBy = knownKey).foldlM (storeObject issuer now) s =
      .ok s') :
    RelayOk signed key now ⟨s'.carried, none, knownKey⟩ ∧ (∀ x ∈ s.carried, x ∈ s'.carried) ∧
      ∀ x ∈ earlier ++ objects, x.expired now = false → x.signedBy = knownKey → x ∈ s'.carried := by
  induction objects generalizing earlier s with
  | nil =>
    rw [← Except.ok.inj hstore]
    exact ⟨h, fun _ hx => hx, by simpa using hbefore⟩
  | cons object rest ih =>
    have hpast : (object, earlier) ∈ signed := hown earlier object (rest ++ later) rfl
    have hown' : StreamOk signed ((earlier ++ [object]) ++ (rest ++ later)) := by
      rw [append_assoc]
      exact hown
    have hregroup : earlier ++ object :: rest = (earlier ++ [object]) ++ rest := by simp
    rw [hregroup]
    by_cases hcurrent : object.signedBy = knownKey
    · rw [filter_cons_of_pos (by simpa using hcurrent), foldlM_cons] at hstore
      cases hone : storeObject issuer now s object with
      | error refusal => simp [hone, bind, Except.bind] at hstore
      | ok next =>
        simp only [hone, bind, Except.bind] at hstore
        obtain ⟨hnext, hkept, hobject⟩ := storeObject_ok hsigned h hpast hcurrent hbefore hone
        obtain ⟨hok, hlater, hall⟩ := ih hown' hnext (by
          intro x hx hlive hsignedBy
          rcases mem_append.mp hx with hx | hx
          · exact hkept x (hbefore x hx hlive hsignedBy)
          · rw [mem_singleton.mp hx] at hlive ⊢
            exact hobject hlive) hstore
        exact ⟨hok, fun x hx => hlater x (hkept x hx), hall⟩
    · rw [filter_cons_of_neg (by simpa using hcurrent)] at hstore
      refine ih hown' h ?_ hstore
      intro x hx hlive hsignedBy
      rcases mem_append.mp hx with hx | hx
      · exact hbefore x hx hlive hsignedBy
      · rw [mem_singleton.mp hx] at hsignedBy
        exact absurd hsignedBy hcurrent

theorem storeDepositedTrustObjects_cases {db : RelayDb}
    {afterContentId lastSent : Option Nat} {result : RelayDb × List Nat × List Nat}
    (h : storeDepositedTrustObjects issuer db objects afterContentId lastSent now = .ok result) :
    (∀ m, afterContentId = some m → db.mark = some m) ∧
      ∃ s₀ s : Storing, s₀.carried = (db.carried.filter fun object => !object.expired now) ∧
        objects.foldlM (storeObject issuer now) s₀ = .ok s ∧ result.1 = { db with
          carried := s.carried
          mark := (lastSent.or (objects.getLast?.map SignedTrustObject.contentId)).or db.mark } := by
  unfold storeDepositedTrustObjects at h
  split at h
  · cases h
  · rename_i hstep
    rw [Bool.and_eq_true, not_and, decide_eq_true_eq, not_ne_iff] at hstep
    refine ⟨fun m hm => (hstep (by simp [hm])).trans hm, ?_⟩
    simp only [bind, Except.bind] at h
    split at h
    · cases h
    · rename_i s hfold
      exact ⟨_, s, rfl, hfold, by rw [← Except.ok.inj h]⟩

def Deposit.endsAt (deposit : Deposit) : Option Nat :=
  (deposit.objects.getLast?.map SignedTrustObject.contentId).or deposit.afterContentId

theorem take_ok (hsigned : SignedOk signed key) {db db' : RelayDb} (h : RelayOk signed key now db)
    (hdeposit : DepositOk signed key deposit)
    (htake : db.take issuer deposit now = some (.ok db')) :
    RelayOk signed key now db' ∧ db'.knownKey = deposit.key ∧
      (∀ x ∈ db.carried, x.expired now = false → x ∈ db'.carried) ∧
      ∀ before y after, deposit.own = before ++ y :: after → deposit.endsAt = some y.contentId →
        ∀ x ∈ before ++ [y], x.expired now = false → x.signedBy = deposit.key → x ∈ db'.carried := by
  unfold RelayDb.take at htake
  split at htake
  · cases htake
  · rename_i hkey
    have hkey : deposit.key = db.knownKey := not_ne_iff.mp hkey
    obtain ⟨earlier, later, hown, hstart, hcontinues⟩ := hdeposit.stretch
    have hstream := hdeposit.own
    rw [hown] at hstream
    obtain ⟨result, hstored, hresult⟩ : ∃ result, storeDepositedTrustObjects issuer db
        (deposit.objects.filter fun object => object.signedBy = db.knownKey) deposit.afterContentId
          (deposit.objects.getLast?.map SignedTrustObject.contentId) now = .ok result ∧ result.1 = db' := by
      simp only [Option.some.injEq] at htake
      cases hstored : storeDepositedTrustObjects issuer db
          (deposit.objects.filter fun object => object.signedBy = db.knownKey) deposit.afterContentId
            (deposit.objects.getLast?.map SignedTrustObject.contentId) now with
      | error refusal =>
        rw [hstored] at htake
        cases htake
      | ok result =>
        rw [hstored] at htake
        exact ⟨result, rfl, Except.ok.inj htake⟩
    obtain ⟨hstep, s₀, s, hs₀, hfold, hdb'⟩ := storeDepositedTrustObjects_cases hstored
    rw [hresult] at hdb'
    have hpruned : RelayOk signed key now ⟨s₀.carried, none, db.knownKey⟩ := by
      have hprune := h.prune
      rw [hs₀]
      exact ⟨hprune.key, hprune.nodup, hprune.known, hprune.closed, by simp⟩
    have hearlier : ∀ x ∈ earlier, x.expired now = false → x.signedBy = db.knownKey → x ∈ s₀.carried := by
      intro x hx hlive hcurrent
      cases hafter : deposit.afterContentId with
      | none =>
        rw [hstart hafter] at hx
        cases hx
      | some m =>
        obtain ⟨y, past, hpast, hid, -, hcarried⟩ := h.mark m (hstep m hafter)
        obtain ⟨front, x₀, rfl, hx₀⟩ := hcontinues m hafter
        have hpast₀ : (x₀, front) ∈ signed := hstream front x₀ (deposit.objects ++ later) (by simp)
        obtain ⟨rfl, rfl⟩ := hsigned.unique hpast hpast₀ (hid.trans hx₀.symm)
        rw [hs₀]
        exact mem_filter.mpr ⟨hcarried x hx hlive hcurrent, by simp [hlive]⟩
    obtain ⟨hok, hkept, hall⟩ := storeObjects_ok hsigned hstream hpruned hearlier hfold
    have hcarried : db'.carried = s.carried := by rw [hdb']
    have hknown : db'.knownKey = db.knownKey := by rw [hdb']
    have hgone : ∀ x ∈ db.carried, x.expired now = false → x ∈ db'.carried := by
      intro x hx hlive
      rw [hcarried]
      refine hkept x ?_
      rw [hs₀]
      exact mem_filter.mpr ⟨hx, by simp [hlive]⟩
    rcases eq_nil_or_concat deposit.objects with hnil | ⟨front, last, hobjects⟩
    · -- A probe: the mark stays.
      have hmark : db'.mark = db.mark := by
        rw [hdb', hnil]
        simp
      refine ⟨⟨?_, ?_, ?_, ?_, ?_⟩, hknown.trans hkey.symm, hgone, ?_⟩
      · rw [hknown]
        exact h.key
      · rw [hcarried]
        exact hok.nodup
      · rw [hcarried, hknown]
        exact hok.known
      · rw [hcarried, hknown]
        exact hok.closed
      · intro m hm
        rw [hmark] at hm
        obtain ⟨y, past, hpast, hid, hyKey, hmarked⟩ := h.mark m hm
        refine ⟨y, past, hpast, hid, by rw [hknown]; exact hyKey, ?_⟩
        intro x hx hlive hcurrent
        rw [hknown] at hcurrent
        exact hgone x (hmarked x hx hlive hcurrent) hlive
      · intro before y after hsplit hend x hx hlive hcurrent
        have hafter : deposit.afterContentId = some y.contentId := by simpa [Deposit.endsAt, hnil] using hend
        obtain ⟨front, x₀, rfl, hx₀⟩ := hcontinues _ hafter
        have hpast₀ : (x₀, front) ∈ signed := hstream front x₀ (deposit.objects ++ later) (by simp)
        obtain ⟨rfl, rfl⟩ := hsigned.unique hpast₀ (hdeposit.own before y after hsplit) hx₀
        rw [hcarried]
        exact hall x (mem_append_left _ hx) hlive (hcurrent.trans hkey)
    · rw [concat_eq_append] at hobjects
      have hmark : db'.mark = some last.contentId := by
        rw [hdb', hobjects]
        simp
      have hlast : (last, earlier ++ front) ∈ signed := by
        refine hstream (earlier ++ front) last later ?_
        rw [hobjects]
        simp
      have hupTo : earlier ++ deposit.objects = (earlier ++ front) ++ [last] := by rw [hobjects, append_assoc]
      rw [hupTo] at hall
      refine ⟨⟨?_, ?_, ?_, ?_, ?_⟩, hknown.trans hkey.symm, hgone, ?_⟩
      · rw [hknown]
        exact h.key
      · rw [hcarried]
        exact hok.nodup
      · rw [hcarried, hknown]
        exact hok.known
      · rw [hcarried, hknown]
        exact hok.closed
      · intro m hm
        rw [hmark, Option.some.injEq] at hm
        refine ⟨last, earlier ++ front, hlast, hm, ?_, ?_⟩
        · rw [hknown, ← hkey]
          refine hdeposit.keys last ?_
          rw [hown, hobjects]
          simp
        · rw [hcarried, hknown]
          exact hall
      · intro before y after hsplit hend x hx hlive hcurrent
        have hid : last.contentId = y.contentId := by simpa [Deposit.endsAt, hobjects] using hend
        obtain ⟨rfl, rfl⟩ := hsigned.unique hlast (hdeposit.own before y after hsplit) hid
        rw [hcarried]
        exact hall x hx hlive (hcurrent.trans hkey)

structure Ok (w : World) : Prop where
  signed : SignedOk w.signed w.key
  depositor : StreamOk w.signed w.depositor.objects
  depositorBackups : ∀ db ∈ w.depositorBackups, StreamOk w.signed db.objects
  deposits : ∀ deposit ∈ w.deposits, DepositOk w.signed w.key deposit
  relay : RelayOk w.signed w.key w.now w.relay
  relayBackups : ∀ db ∈ w.relayBackups, RelayOk w.signed w.key w.now db

variable {own : List SignedTrustObject} {w : World}

theorem StreamOk.mono {signed signed' : Signed} (h : StreamOk signed own)
    (hmono : ∀ entry ∈ signed, entry ∈ signed') : StreamOk signed' own :=
  fun before y after hsplit => hmono _ (h before y after hsplit)

theorem StreamOk.mem {signed : Signed} (h : StreamOk signed own)
    (hx : x ∈ own) : ∃ past, (x, past) ∈ signed := by
  obtain ⟨before, after, rfl⟩ := append_of_mem hx
  exact ⟨before, h before x after rfl⟩

theorem DepositOk.mono {signed signed' : Signed} {key key' : Nat}
    (h : DepositOk signed key deposit) (hmono : ∀ entry ∈ signed, entry ∈ signed') (hkey : key ≤ key') :
    DepositOk signed' key' deposit :=
  ⟨Nat.le_trans h.key hkey, h.own.mono hmono, h.keys, h.stretch⟩

theorem SignedOk.later {signed : Signed} {key key' : Nat} (h : SignedOk signed key) (hkey : key ≤ key') :
    SignedOk signed key' :=
  ⟨h.ids, fun y past hy => ⟨Nat.le_trans (h.keys y past hy).1 hkey, (h.keys y past hy).2⟩, h.past⟩

theorem SignedOk.sign {signed : Signed} {key : Nat} (h : SignedOk signed key)
    (hown : StreamOk signed own) (hid : object.contentId = signed.length)
    (hkey : object.signedBy = key) : SignedOk (signed ++ [(object, own)]) key where
  ids i y past hy := by
    rcases Nat.lt_trichotomy i signed.length with hlt | heq | hgt
    · rw [getElem?_append_left hlt] at hy
      exact h.ids i y past hy
    · rw [heq, getElem?_concat_length, Option.some.injEq, Prod.mk.injEq] at hy
      rw [← hy.1, hid, heq]
    · rw [getElem?_eq_none (by simp; omega)] at hy
      cases hy
  keys y past hy := by
    rcases mem_append.mp hy with hy | hy
    · exact h.keys y past hy
    · rw [mem_singleton, Prod.mk.injEq] at hy
      obtain ⟨rfl, rfl⟩ := hy
      refine ⟨Nat.le_of_eq hkey, ?_⟩
      intro x hx
      obtain ⟨past', hpast'⟩ := hown.mem hx
      exact hkey ▸ (h.keys x past' hpast').1
  past y past hy := by
    rcases mem_append.mp hy with hy | hy
    · exact h.past y past hy
    · rw [mem_singleton, Prod.mk.injEq] at hy
      obtain ⟨rfl, rfl⟩ := hy
      intro x hx
      obtain ⟨past', hpast'⟩ := hown.mem hx
      obtain ⟨i, hi, hentry⟩ := mem_iff_getElem.mp hpast'
      have hnumber := h.ids i _ _ (by rw [getElem?_eq_getElem hi, hentry])
      omega

theorem StreamOk.sign {signed : Signed} (h : StreamOk signed own)
    (object : SignedTrustObject) : StreamOk (signed ++ [(object, own)]) (own ++ [object]) := by
  intro before y after hsplit
  rcases snoc_split hsplit with ⟨-, rfl, rfl⟩ | ⟨after', -, hown⟩
  · simp
  · exact mem_append_left _ (h before y after' hown)

theorem depositOk_send (h : Ok w) : DepositOk w.signed w.key
    ⟨(loadOwnTrustObjectsToDeposit w.depositor maxTrustObjectsPerResponse).1,
      (loadOwnTrustObjectsToDeposit w.depositor maxTrustObjectsPerResponse).2.2, w.key, w.depositor.objects,
        none⟩ where
  key := le_rfl
  own := h.depositor
  keys x hx := by
    obtain ⟨past, hpast⟩ := h.depositor.mem hx
    exact (h.signed.keys x past hpast).1
  stretch := loadOwnTrustObjectsToDeposit_spec w.depositor maxTrustObjectsPerResponse

theorem depositsOk_set (h : Ok w) {index : Nat}
    (hdeposit : w.deposits[index]? = some deposit) (answer : Option (Option TrustWireError)) :
    ∀ other ∈ w.deposits.set index { deposit with answer }, DepositOk w.signed w.key other := by
  intro other hother
  rcases mem_or_eq_of_mem_set hother with hother | rfl
  · exact h.deposits other hother
  · have hok := h.deposits deposit (mem_of_getElem? hdeposit)
    exact ⟨hok.key, hok.own, hok.keys, hok.stretch⟩

theorem ok_step (h : Ok w) (happening : Happening) : Ok (step w happening) := by
  cases happening with
  | pass time =>
    have hnow : w.now ≤ w.now + time := by omega
    exact ⟨h.signed, h.depositor, h.depositorBackups, h.deposits, h.relay.later (le_rfl) hnow,
      fun db hdb => (h.relayBackups db hdb).later (le_rfl) hnow⟩
  | sign revocation expiresAt itemSize envelopeLength skipped =>
    have hmono : ∀ (own : List SignedTrustObject) (object : SignedTrustObject), ∀ entry ∈ w.signed,
        entry ∈ w.signed ++ [(object, own)] := fun _ _ _ hentry => mem_append_left _ hentry
    refine ⟨h.signed.sign h.depositor rfl rfl, ?_, fun db hdb => (h.depositorBackups db hdb).mono (hmono _ _),
      fun deposit hdeposit => (h.deposits deposit hdeposit).mono (hmono _ _) (le_rfl),
      h.relay.sign h.signed rfl _, fun db hdb => (h.relayBackups db hdb).sign h.signed rfl _⟩
    have hobjects : ∀ object, (w.depositor.insert object skipped).objects = w.depositor.objects ++ [object] := by
      intro object
      simp [DepositorDb.objects, DepositorDb.insert]
    simp only [step]
    rw [hobjects]
    exact h.depositor.sign _
  | rotateKey =>
    have hkey : w.key ≤ w.key + 1 := Nat.le_succ _
    exact ⟨h.signed.later hkey, h.depositor, h.depositorBackups,
      fun deposit hdeposit => (h.deposits deposit hdeposit).mono (fun _ hentry => hentry) hkey,
      h.relay.later hkey (Int.le_refl _), fun db hdb => (h.relayBackups db hdb).later hkey (Int.le_refl _)⟩
  | learnKey key =>
    simp only [step]
    split
    · rename_i hlater
      exact ⟨h.signed, h.depositor, h.depositorBackups, h.deposits, h.relay.learn h.signed hlater.1 hlater.2,
        h.relayBackups⟩
    · exact h
  | send =>
    have hsent := depositOk_send h
    refine ⟨h.signed, h.depositor, h.depositorBackups, ?_, h.relay, h.relayBackups⟩
    intro deposit hdeposit
    rcases mem_append.mp hdeposit with hdeposit | hdeposit
    · exact h.deposits deposit hdeposit
    · rw [mem_singleton.mp hdeposit]
      exact hsent
  | deliver index =>
    simp only [step]
    split
    · exact h
    · rename_i deposit hdeposit
      have hok := h.deposits deposit (mem_of_getElem? hdeposit)
      split
      · rename_i relay htake
        exact ⟨h.signed, h.depositor, h.depositorBackups, depositsOk_set h hdeposit _,
          (take_ok h.signed h.relay hok htake).1, h.relayBackups⟩
      · exact ⟨h.signed, h.depositor, h.depositorBackups, depositsOk_set h hdeposit _, h.relay, h.relayBackups⟩
      · exact h
  | reply =>
    simp only [step]
    split
    · exact h
    · split
      · exact h
      · exact ⟨h.signed, h.depositor, h.depositorBackups, h.deposits, h.relay, h.relayBackups⟩
      · exact ⟨h.signed, h.depositor, h.depositorBackups, h.deposits, h.relay, h.relayBackups⟩
      · exact ⟨h.signed, h.depositor, h.depositorBackups, h.deposits, h.relay, h.relayBackups⟩
  | restartDepositor => exact ⟨h.signed, h.depositor, h.depositorBackups, h.deposits, h.relay, h.relayBackups⟩
  | backUpDepositor =>
    refine ⟨h.signed, h.depositor, ?_, h.deposits, h.relay, h.relayBackups⟩
    intro db hdb
    rcases mem_append.mp hdb with hdb | hdb
    · exact h.depositorBackups db hdb
    · rw [mem_singleton.mp hdb]
      exact h.depositor
  | restoreDepositor backup =>
    simp only [step]
    split
    · rename_i db hdb
      exact ⟨h.signed, h.depositorBackups db (mem_of_getElem? hdb), h.depositorBackups, h.deposits, h.relay,
        h.relayBackups⟩
    · exact h
  | backUpRelay =>
    refine ⟨h.signed, h.depositor, h.depositorBackups, h.deposits, h.relay, ?_⟩
    intro db hdb
    rcases mem_append.mp hdb with hdb | hdb
    · exact h.relayBackups db hdb
    · rw [mem_singleton.mp hdb]
      exact h.relay
  | restoreRelay backup =>
    simp only [step]
    split
    · rename_i db hdb
      exact ⟨h.signed, h.depositor, h.depositorBackups, h.deposits, h.relayBackups db (mem_of_getElem? hdb),
        h.relayBackups⟩
    · exact h
  | prune =>
    exact ⟨h.signed, h.depositor, h.depositorBackups, h.deposits, h.relay.prune, h.relayBackups⟩

/-- Two nodes before the first object is signed. -/
def World.fresh (issuer : String) (now : Int) : World :=
  { issuer, now }

theorem ok_fresh (issuer : String) (now : Int) : Ok (World.fresh issuer now) where
  signed := ⟨by simp [World.fresh], by simp [World.fresh], by simp [World.fresh]⟩
  depositor := by
    intro before y after hsplit
    simp [World.fresh, DepositorDb.objects] at hsplit
  depositorBackups := by simp [World.fresh]
  deposits := by simp [World.fresh]
  relay := ⟨le_rfl, by simp [World.fresh], by simp [World.fresh], by
    intro before y after hsplit
    simp [World.fresh] at hsplit, by simp [World.fresh]⟩
  relayBackups := by simp [World.fresh]

def Reachable (w : World) : Prop :=
  ∃ (issuer : String) (now : Int) (happenings : List Happening),
    w = happenings.foldl step (World.fresh issuer now)

theorem Reachable.ok (h : Reachable w) : Ok w := by
  obtain ⟨issuer, now, happenings, rfl⟩ := h
  exact foldl_invariant happenings _ (ok_fresh issuer now) fun v _ hv => ok_step hv v.2

structure Serves (w : World) (deposit : Deposit) (served : List SignedTrustObject) : Prop where
  upTo : ∀ before y after, deposit.own = before ++ y :: after → deposit.endsAt = some y.contentId →
    ∀ x ∈ before ++ [y], x.expired w.now = false → x.signedBy = deposit.key → x ∈ served
  inOrder : ∀ before y after, served = before ++ y :: after → ∀ past, (y, past) ∈ w.signed → ∀ x ∈ past,
    (x.expired w.now = false → x.signedBy = deposit.key → x ∈ before) ∧ (x ∈ served → x ∈ before)

theorem carried_step (h : Ok w) {happening : Happening}
    (hnot : ∀ backup, happening ≠ .restoreRelay backup) (hx : x ∈ w.relay.carried)
    (hlive : x.expired (step w happening).now = false) : x ∈ (step w happening).relay.carried := by
  cases happening with
  | pass | sign | rotateKey | send | restartDepositor | backUpDepositor | backUpRelay => exact hx
  | learnKey key =>
    simp only [step]
    split
    · exact hx
    · exact hx
  | deliver index =>
    simp only [step] at hlive ⊢
    split
    · exact hx
    · rename_i deposit hdeposit
      split
      · rename_i relay htake
        simp only [hdeposit, htake] at hlive
        exact (take_ok h.signed h.relay (h.deposits deposit (mem_of_getElem? hdeposit)) htake).2.2.1 x hx hlive
      · exact hx
      · exact hx
  | reply =>
    simp only [step]
    split
    · exact hx
    · split <;> exact hx
  | restoreDepositor backup =>
    simp only [step]
    split <;> exact hx
  | restoreRelay backup => exact absurd rfl (hnot backup)
  | prune => exact mem_filter.mpr ⟨hx, by simpa [step] using hlive⟩

/-- Whenever the relay takes a deposit its pages serve what they should, page by page and in the depositor's
order. -/
theorem taken_deposit_is_served {w : World} (hw : Reachable w) {index : Nat} {deposit : Deposit}
    (hdeposit : w.deposits[index]? = some deposit)
    (admitted : Option Nat → Except TrustWireError (List SignedTrustObject × Bool)) (limit : Nat) :
    (∀ refusal, w.relay.take w.issuer deposit w.now = some (.error refusal) →
      (step w (.deliver index)).relay = w.relay) ∧
    (∀ relay, w.relay.take w.issuer deposit w.now = some (.ok relay) →
      (step w (.deliver index)).relay = relay ∧ Serves w deposit relay.carried ∧ (relay.carried ≠ [] →
          pullPages admitted relay.carried limit (relay.carried.length + 1) none = relay.carried)) ∧
    ∀ happening, (∀ backup, happening ≠ .restoreRelay backup) → ∀ x ∈ w.relay.carried,
      x.expired (step w happening).now = false → x ∈ (step w happening).relay.carried := by
  have hok := hw.ok
  refine ⟨?_, ?_, fun happening hnot x hx hlive => carried_step hok hnot hx hlive⟩
  · intro refusal htake
    simp only [step, hdeposit, htake]
  · intro relay htake
    obtain ⟨hrelay, hkey, -, hserved⟩ :=
      take_ok hok.signed hok.relay (hok.deposits deposit (mem_of_getElem? hdeposit)) htake
    refine ⟨by simp only [step, hdeposit, htake], ⟨hserved, ?_⟩, ?_⟩
    · intro before y after hsplit past hpast x hx
      rw [← hkey]
      exact hrelay.closed before y after hsplit past hpast x hx
    · intro hsome
      exact pullPages_eq admitted limit (nil_append _).symm hsome hrelay.nodup (Nat.lt_succ_self _)

def restoredRelay : List Happening :=
  .backUpRelay :: List.replicate 200 (.sign false none 900 600 0) ++
    [.sign true none 900 600 0, .send, .deliver 0, .reply, .send, .deliver 1, .reply, .send, .deliver 2, .reply,
      .restoreRelay 0, .send, .deliver 3, .reply, .send, .deliver 4, .reply, .send, .deliver 5]

/-- The relay took the last deposit, which continues from the one before it, and serves the vouch without the
revocation it was handed earlier. -/
theorem revocation_handed_over_is_missing :
    (fun w : World => (w.deposits.map fun deposit => (deposit.answer, deposit.afterContentId),
      w.deposits[2]?.map Deposit.objects, w.relay.carried.map SignedTrustObject.contentId))
        (restoredRelay.foldl step (World.fresh "issuer" 0)) =
      ([(some none, none), (some none, some 99), (some none, some 199), (some (some .outOfStep), some 200),
        (some none, none), (some none, some 99)],
      some [⟨200, "issuer", 0, true, none, 900, 600⟩], List.range 200) := by
  decide +kernel

def lostReply : List Happening :=
  [.sign false none 900 600 0, .sign true none 900 600 3, .send, .deliver 0, .restartDepositor, .send]

theorem lostReply_reachable : Reachable (lostReply.foldl step (World.fresh "issuer" 0)) :=
  ⟨"issuer", 0, lostReply, rfl⟩

theorem lostReply_served :
    pullPages (fun _ => .ok ([], false)) ((lostReply ++ [Happening.deliver 1]).foldl step
      (World.fresh "issuer" 0)).relay.carried 1 3 none =
        [⟨0, "issuer", 0, false, none, 900, 600⟩, ⟨1, "issuer", 0, true, none, 900, 600⟩] := by
  have hdeposit : (lostReply.foldl step (World.fresh "issuer" 0)).deposits[1]? = some
      ⟨[⟨0, "issuer", 0, false, none, 900, 600⟩, ⟨1, "issuer", 0, true, none, 900, 600⟩], none, 0,
        [⟨0, "issuer", 0, false, none, 900, 600⟩, ⟨1, "issuer", 0, true, none, 900, 600⟩], none⟩ := by
    rfl
  obtain ⟨-, htaken, -⟩ := taken_deposit_is_served lostReply_reachable hdeposit (fun _ => .ok ([], false)) 1
  obtain ⟨hrelay, -, hpages⟩ := htaken
    ⟨[⟨0, "issuer", 0, false, none, 900, 600⟩, ⟨1, "issuer", 0, true, none, 900, 600⟩], some 1, 0⟩ rfl
  rw [foldl_append, foldl_cons, foldl_nil, hrelay]
  exact hpages (by simp)

end NetBBS.TrustCarriage
