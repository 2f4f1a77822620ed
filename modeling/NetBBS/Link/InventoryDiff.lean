import Mathlib.Algebra.Order.BigOperators.Group.List
import NetBBS.Link.Sample

/-! # Answering an inventory -/

namespace NetBBS

open Foundation List Dict

variable {env : Env}

/-- `hashlib.sha256`, which is not defined here: a digest for every text. -/
abbrev Sha256 := List UInt8 → List UInt8

/-- `int.from_bytes(raw, "big")`. -/
def bigEndian (raw : List UInt8) : Nat := raw.foldl (fun n byte => n * 256 + byte.toNat) 0

def inventoryPage (sha256 : Sha256) (identifier : String) (count : Nat) (salt : String) : Nat :=
  let digest := sha256 ((salt.toList ++ '\x00' :: identifier.toList).flatMap String.utf8EncodeChar)
  bigEndian (digest.take 8) % count

structure InventoryDeclaration where
  requested : Dict String (List String)
  notCarried : List String

structure InventoryStock (env : Env) where
  carried : List String
  allEvents : String → Dict String Json
  keyed : ∀ {resourceId contentId raw}, (contentId, raw) ∈ (allEvents resourceId).entries →
    rawContentId env raw = .ok contentId
  withheld : List String

def collectEvents (skipped : String → Bool) (limit : Nat) :
    List (String × Json) → List Json → List Json × Bool
  | [], collected => (collected, false)
  | (contentId, envelope) :: rest, collected =>
    if skipped contentId then collectEvents skipped limit rest collected
    else if limit ≤ collected.length then (collected, true)
    else collectEvents skipped limit rest (collected ++ [envelope])

def collectResources (passedOver : String → Bool) (skipped : String → String → Bool)
    (allEvents : String → Dict String Json) (limit : Nat) :
    List String → List Json → List Json × Bool
  | [], collected => (collected, false)
  | resourceId :: rest, collected =>
    if passedOver resourceId then
      collectResources passedOver skipped allEvents limit rest collected
    else
      match collectEvents (skipped resourceId) limit (allEvents resourceId).entries collected with
      | (collected, true) => (collected, true)
      | (collected, false) =>
        collectResources passedOver skipped allEvents limit rest collected

/-- `sorted((set(requested) | set(carried)) - set(not_carried))`. -/
def walkedResources (declared : InventoryDeclaration) (carried : List String) : List String :=
  ((declared.requested.keys ++ carried).dedup.filter fun resourceId =>
    resourceId ∉ declared.notCarried).insertionSort (· ≤ ·)

def resourceEventDiff (sha256 : Sha256) (stock : InventoryStock env)
    (declared : InventoryDeclaration) (limit : Nat) (page : Option (Nat × Nat))
    (pageSalt : String) : List Json × Bool :=
  let elsewhere (identifier : String) : Bool :=
    match page with
    | some (index, count) => inventoryPage sha256 identifier count pageSalt != index
    | none => false
  let known (resourceId : String) := (declared.requested.get? resourceId).getD []
  collectResources
    (fun resourceId => !declared.requested.contains resourceId && elsewhere resourceId)
    (fun resourceId contentId =>
      (known resourceId).contains contentId || stock.withheld.contains contentId ||
        (declared.requested.contains resourceId && elsewhere contentId))
    stock.allEvents limit (walkedResources declared stock.carried) []

def InventoryDeclaration.onPage (declared : InventoryDeclaration) (sha256 : Sha256)
    (salt : String) (index count : Nat) : InventoryDeclaration where
  requested := declared.requested.mapValues fun ids =>
    ids.filter fun contentId => inventoryPage sha256 contentId count salt = index
  notCarried := declared.notCarried.filter fun resourceId =>
    inventoryPage sha256 resourceId count salt = index

theorem inventoryPage_lt (sha256 : Sha256) (identifier salt : String) {count : Nat}
    (h : 0 < count) : inventoryPage sha256 identifier count salt < count :=
  Nat.mod_lt _ h

private theorem collectEvents_eq (skipped : String → Bool) (limit : Nat)
    (entries : List (String × Json)) (collected : List Json) (h : collected.length + entries.length ≤ limit) :
    collectEvents skipped limit entries collected =
      (collected ++ (entries.filter fun e => !skipped e.1).map Prod.snd, false) := by
  induction entries generalizing collected with
  | nil => simp [collectEvents]
  | cons entry rest ih =>
    obtain ⟨contentId, envelope⟩ := entry
    rw [length_cons] at h
    by_cases hskipped : skipped contentId = true
    · have hrest := ih collected (by omega)
      simpa [collectEvents, hskipped] using hrest
    · have hroom : ¬ limit ≤ collected.length := by omega
      have hrest := ih (collected ++ [envelope]) (by rw [length_append]; simp; omega)
      simpa [collectEvents, hskipped, hroom] using hrest

private theorem collectResources_eq (passedOver : String → Bool) (skipped : String → String → Bool)
    (allEvents : String → Dict String Json) (limit : Nat) (resources : List String) (collected : List Json)
    (h : collected.length + (resources.map fun r => (allEvents r).entries.length).sum ≤ limit) :
    collectResources passedOver skipped allEvents limit resources collected =
      (collected ++ (resources.filter fun r => !passedOver r).flatMap fun r =>
        ((allEvents r).entries.filter fun e => !skipped r e.1).map Prod.snd, false) := by
  induction resources generalizing collected with
  | nil => simp [collectResources]
  | cons resourceId rest ih =>
    rw [map_cons, sum_cons] at h
    unfold collectResources
    by_cases hpassed : passedOver resourceId = true
    · rw [if_pos hpassed, ih collected (by omega), filter_cons_of_neg (by simpa using hpassed)]
    · have hkept := length_filter_le (fun e => !skipped resourceId e.1)
        (allEvents resourceId).entries
      rw [if_neg hpassed, collectEvents_eq _ _ _ _ (by omega)]
      simp only
      rw [ih _ (by rw [length_append, length_map]; omega),
        filter_cons_of_pos (by simpa using hpassed), flatMap_cons, append_assoc]

def InventoryStock.Unlimited (stock : InventoryStock env) (declared : InventoryDeclaration)
    (limit : Nat) : Prop :=
  ((declared.requested.keys ++ stock.carried).map fun r =>
    (stock.allEvents r).entries.length).sum ≤ limit

private theorem walked_le (stock : InventoryStock env) (declared : InventoryDeclaration) :
    ((walkedResources declared stock.carried).map fun r =>
        (stock.allEvents r).entries.length).sum ≤
      ((declared.requested.keys ++ stock.carried).map fun r =>
        (stock.allEvents r).entries.length).sum := by
  unfold walkedResources
  have hsorted := perm_insertionSort (· ≤ ·)
    ((declared.requested.keys ++ stock.carried).dedup.filter fun resourceId =>
      resourceId ∉ declared.notCarried)
  rw [(hsorted.map _).sum_nat]
  have hsub := (filter_sublist (p := fun resourceId => resourceId ∉ declared.notCarried)
    (l := (declared.requested.keys ++ stock.carried).dedup)).trans (dedup_sublist _)
  exact (hsub.map _).sum_le_sum fun _ _ => Nat.zero_le _

structure Due (stock : InventoryStock env) (declared : InventoryDeclaration)
    (resourceId contentId : String) (raw : Json) : Prop where
  walked : resourceId ∈ declared.requested.keys ∨ resourceId ∈ stock.carried
  onFile : (contentId, raw) ∈ (stock.allEvents resourceId).entries
  missing : contentId ∉ (declared.requested.get? resourceId).getD []
  handedOn : contentId ∉ stock.withheld

def InventoryDeclaration.comesUpOn (declared : InventoryDeclaration) (sha256 : Sha256)
    (salt : String) (count : Nat) (resourceId contentId : String) : Nat :=
  inventoryPage sha256 (if declared.requested.contains resourceId then contentId else resourceId)
    count salt

private theorem mem_walkedResources (declared : InventoryDeclaration) (carried : List String)
    (resourceId : String) :
    resourceId ∈ walkedResources declared carried ↔
      (resourceId ∈ declared.requested.keys ∨ resourceId ∈ carried) ∧
        resourceId ∉ declared.notCarried := by
  simp [walkedResources]

variable {sha256 : Sha256} {stock : InventoryStock env} {declared : InventoryDeclaration}
variable {limit : Nat}

private theorem mem_resourceEventDiff (hunlimited : stock.Unlimited declared limit)
    (page : Option (Nat × Nat)) (salt : String) (raw : Json) :
    raw ∈ (resourceEventDiff sha256 stock declared limit page salt).1 ↔
      ∃ resourceId contentId, Due stock declared resourceId contentId raw ∧
        resourceId ∉ declared.notCarried ∧
        ∀ index count, page = some (index, count) →
          declared.comesUpOn sha256 salt count resourceId contentId = index := by
  unfold resourceEventDiff
  rw [collectResources_eq _ _ _ _ _ _
    (by simpa using (walked_le stock declared).trans hunlimited)]
  simp only [nil_append, mem_flatMap, mem_filter, mem_walkedResources,
    mem_map, Prod.exists, exists_eq_right]
  cases page with
  | none =>
    constructor
    · rintro ⟨resourceId, ⟨⟨hwalked, hcarried⟩, -⟩, contentId, honFile, hskipped⟩
      obtain ⟨hmissing, hhandedOn⟩ : contentId ∉ (declared.requested.get? resourceId).getD [] ∧
          contentId ∉ stock.withheld := by simpa using hskipped
      exact ⟨resourceId, contentId, ⟨hwalked, honFile, hmissing, hhandedOn⟩, hcarried, by simp⟩
    · rintro ⟨resourceId, contentId, hdue, hcarried, -⟩
      have hmissing := hdue.missing
      have hhandedOn := hdue.handedOn
      exact ⟨resourceId, ⟨⟨hdue.walked, hcarried⟩, by simp⟩, contentId, hdue.onFile,
        by simpa using ⟨hmissing, hhandedOn⟩⟩
  | some page =>
    obtain ⟨index, count⟩ := page
    simp only [Option.some.injEq, Prod.mk.injEq, InventoryDeclaration.comesUpOn]
    constructor
    · rintro ⟨resourceId, ⟨⟨hwalked, hcarried⟩, hpassed⟩, contentId, honFile, hskipped⟩
      obtain ⟨⟨hmissing, hhandedOn⟩, hcomes⟩ :
          (contentId ∉ (declared.requested.get? resourceId).getD [] ∧ contentId ∉ stock.withheld) ∧
          (declared.requested.contains resourceId = false ∨
            inventoryPage sha256 contentId count salt = index) := by simpa using hskipped
      refine ⟨resourceId, contentId, ⟨hwalked, honFile, hmissing, hhandedOn⟩, hcarried, ?_⟩
      rintro _ _ ⟨rfl, rfl⟩
      cases hdeclared : declared.requested.contains resourceId with
      | true => simpa [hdeclared] using hcomes
      | false => simpa [hdeclared] using hpassed
    · rintro ⟨resourceId, contentId, hdue, hcarried, hcomes⟩
      have hcomes := hcomes index count ⟨rfl, rfl⟩
      have hmissing := hdue.missing
      have hhandedOn := hdue.handedOn
      refine ⟨resourceId, ⟨⟨hdue.walked, hcarried⟩, ?_⟩, contentId, hdue.onFile, ?_⟩
      · cases hdeclared : declared.requested.contains resourceId with
        | true => rfl
        | false => simpa [hdeclared] using hcomes
      · cases hdeclared : declared.requested.contains resourceId with
        | true => simpa [hdeclared, hmissing, hhandedOn] using hcomes
        | false => simp [hmissing, hhandedOn]

def InventoryDeclaration.Suppressed (declared : InventoryDeclaration) (sha256 : Sha256)
    (salt : String) (count : Nat) (resourceId contentId : String) : Prop :=
  resourceId ∈ declared.notCarried ∧ inventoryPage sha256 resourceId count salt =
    declared.comesUpOn sha256 salt count resourceId contentId

theorem mem_wholeAnswer (hunlimited : stock.Unlimited declared limit) (salt : String) (raw : Json) :
    raw ∈ (resourceEventDiff sha256 stock declared limit none salt).1 ↔
      ∃ resourceId contentId, Due stock declared resourceId contentId raw ∧
        resourceId ∉ declared.notCarried := by
  simp [mem_resourceEventDiff hunlimited]

theorem mem_pageAnswer (hunlimited : stock.Unlimited declared limit) (salt : String)
    (index count : Nat) (raw : Json) :
    raw ∈ (resourceEventDiff sha256 stock (declared.onPage sha256 salt index count) limit
        (some (index, count)) salt).1 ↔
      ∃ resourceId contentId, Due stock declared resourceId contentId raw ∧
        declared.comesUpOn sha256 salt count resourceId contentId = index ∧
        ¬ declared.Suppressed sha256 salt count resourceId contentId := by
  have hkeys : (declared.onPage sha256 salt index count).requested.keys = declared.requested.keys :=
    keys_mapValues _ _
  have hcomes : ∀ resourceId contentId,
      (declared.onPage sha256 salt index count).comesUpOn sha256 salt count resourceId contentId =
        declared.comesUpOn sha256 salt count resourceId contentId := by
    intro resourceId contentId
    unfold InventoryDeclaration.comesUpOn InventoryDeclaration.onPage Dict.contains
    rw [Dict.get?_mapValues, Option.isSome_map]
  have hroom : stock.Unlimited (declared.onPage sha256 salt index count) limit := by
    unfold InventoryStock.Unlimited
    rw [hkeys]
    exact hunlimited
  rw [mem_resourceEventDiff hroom]
  refine exists_congr fun resourceId => exists_congr fun contentId => ?_
  -- The IDs left out of the page's lists are those that do not come up on it.
  have hmissing : declared.comesUpOn sha256 salt count resourceId contentId = index →
      (contentId ∉ ((declared.onPage sha256 salt index count).requested.get? resourceId).getD [] ↔
        contentId ∉ (declared.requested.get? resourceId).getD []) := by
    intro hindex
    unfold InventoryDeclaration.comesUpOn at hindex
    simp only [InventoryDeclaration.onPage, get?_mapValues]
    cases hknown : declared.requested.get? resourceId with
    | none => simp
    | some ids =>
      have hpage : inventoryPage sha256 contentId count salt = index := by
        simpa [Dict.contains, hknown] using hindex
      simp [hpage]
  constructor
  · rintro ⟨hdue, hcarried, hindices⟩
    have hindex := (hcomes resourceId contentId).symm.trans (hindices index count rfl)
    refine ⟨⟨hkeys ▸ hdue.walked, hdue.onFile, (hmissing hindex).mp hdue.missing, hdue.handedOn⟩,
      hindex, fun hsuppressed => hcarried ?_⟩
    exact mem_filter.mpr ⟨hsuppressed.1, by simpa using hsuppressed.2.trans hindex⟩
  · rintro ⟨hdue, hindex, hshown⟩
    refine ⟨⟨hkeys ▸ hdue.walked, hdue.onFile, (hmissing hindex).mpr hdue.missing,
      hdue.handedOn⟩, fun hnot => hshown ?_, ?_⟩
    swap
    · rintro _ _ ⟨rfl, rfl⟩
      exact (hcomes resourceId contentId).trans hindex
    obtain ⟨hcarried, hpage⟩ := mem_filter.mp hnot
    exact ⟨hcarried, (by simpa using hpage : _ = index).trans hindex.symm⟩

structure PagesAgree (stock : InventoryStock env) (declared : InventoryDeclaration)
    (sha256 : Sha256) (salt : String) (count : Nat) : Prop where
  declined : ∀ {resourceId contentId raw}, Due stock declared resourceId contentId raw →
    resourceId ∈ declared.requested.keys → resourceId ∈ declared.notCarried →
    inventoryPage sha256 contentId count salt ≠ inventoryPage sha256 resourceId count salt →
    ∃ other, Due stock declared other contentId raw ∧ other ∉ declared.notCarried
  /-- An undeclared resource with an event that is also on file for a declared one falls on the
  only page that event comes up on. -/
  shared : ∀ {resourceId contentId raw undeclared other}, resourceId ∈ declared.requested.keys →
    (contentId, raw) ∈ (stock.allEvents resourceId).entries →
    undeclared ∉ declared.requested.keys → undeclared ∉ declared.notCarried →
    Due stock declared undeclared contentId raw → Due stock declared other contentId raw →
    ¬ declared.Suppressed sha256 salt count other contentId →
    declared.comesUpOn sha256 salt count other contentId =
      inventoryPage sha256 undeclared count salt

variable {resourceId : String}

theorem comesUpOn_declared (h : resourceId ∈ declared.requested.keys)
    (salt contentId : String) (count : Nat) :
    declared.comesUpOn sha256 salt count resourceId contentId =
      inventoryPage sha256 contentId count salt := by
  unfold InventoryDeclaration.comesUpOn
  rw [if_pos ((mem_keys _ _).mp h)]

theorem comesUpOn_undeclared (h : resourceId ∉ declared.requested.keys)
    (salt contentId : String) (count : Nat) :
    declared.comesUpOn sha256 salt count resourceId contentId =
      inventoryPage sha256 resourceId count salt := by
  unfold InventoryDeclaration.comesUpOn
  rw [if_neg fun hcontains => h ((mem_keys _ _).mpr hcontains)]

theorem Due.contentId_eq {contentId other otherId : String} {raw : Json}
    (h : Due stock declared resourceId contentId raw) (h' : Due stock declared other otherId raw) :
    otherId = contentId :=
  Except.ok.inj ((stock.keyed h'.onFile).symm.trans (stock.keyed h.onFile))

/-- The answers to the pages of a declaration add up to the answer to the whole of it, and no
event of a declared resource comes up twice, exactly when its pages agree. -/
theorem paged_answers_add_up_iff (stock : InventoryStock env) (declared : InventoryDeclaration)
    (sha256 : Sha256) (salt : String) (count limit : Nat) (hcount : 2 ≤ count)
    (hunlimited : stock.Unlimited declared limit) :
    ((∀ raw, (∃ index < count,
          raw ∈ (resourceEventDiff sha256 stock (declared.onPage sha256 salt index count) limit
            (some (index, count)) salt).1) ↔
        raw ∈ (resourceEventDiff sha256 stock declared limit none salt).1) ∧
      ∀ resourceId ∈ declared.requested.keys, ∀ raw ∈ (stock.allEvents resourceId).values,
        ∀ index < count, ∀ index' < count,
        raw ∈ (resourceEventDiff sha256 stock (declared.onPage sha256 salt index count) limit
          (some (index, count)) salt).1 →
        raw ∈ (resourceEventDiff sha256 stock (declared.onPage sha256 salt index' count) limit
          (some (index', count)) salt).1 → index = index') ↔
      PagesAgree stock declared sha256 salt count := by
  simp only [mem_wholeAnswer hunlimited, mem_pageAnswer hunlimited]
  have hpage : ∀ resourceId contentId,
      declared.comesUpOn sha256 salt count resourceId contentId < count :=
    fun _ _ => inventoryPage_lt _ _ _ (by omega)
  constructor
  · rintro ⟨hsum, honce⟩
    constructor
    · intro resourceId contentId raw hdue hdeclared hdeclined hne
      have hshown : ¬ declared.Suppressed sha256 salt count resourceId contentId := by
        rintro ⟨-, hsame⟩
        exact hne (hsame.trans (comesUpOn_declared hdeclared _ _ _)).symm
      obtain ⟨other, otherId, hother, hcarried⟩ :=
        (hsum raw).mp ⟨_, hpage resourceId contentId, resourceId, contentId, hdue, rfl, hshown⟩
      have hid := hdue.contentId_eq hother
      subst hid
      exact ⟨other, hother, hcarried⟩
    · intro resourceId contentId raw undeclared other hdeclared honFile hundeclared hcarried hdue
        hother hshown
      rw [← comesUpOn_undeclared hundeclared salt contentId count]
      exact honce resourceId hdeclared raw (mem_map.mpr ⟨_, honFile, rfl⟩) _ (hpage _ _) _
        (hpage _ _) ⟨other, contentId, hother, rfl, hshown⟩
        ⟨undeclared, contentId, hdue, rfl, fun hsuppressed => hcarried hsuppressed.1⟩
  · intro hagree
    -- A suppressed undeclared resource never comes up: its page is the one that names it.
    have hundeclared : ∀ {resourceId contentId}, resourceId ∉ declared.requested.keys →
        ¬ declared.Suppressed sha256 salt count resourceId contentId →
        resourceId ∉ declared.notCarried := by
      intro resourceId contentId hnot hshown hcarried
      exact hshown ⟨hcarried, (comesUpOn_undeclared hnot _ _ _).symm⟩
    constructor
    · intro raw
      constructor
      · rintro ⟨_, -, resourceId, contentId, hdue, rfl, hshown⟩
        by_cases hcarried : resourceId ∈ declared.notCarried
        · have hdeclared : resourceId ∈ declared.requested.keys := by
            by_contra hnot
            exact hundeclared hnot hshown hcarried
          obtain ⟨other, hother, hkept⟩ := hagree.declined hdue hdeclared hcarried fun hsame =>
            hshown ⟨hcarried, hsame.symm.trans (comesUpOn_declared hdeclared _ _ _).symm⟩
          exact ⟨other, contentId, hother, hkept⟩
        · exact ⟨resourceId, contentId, hdue, hcarried⟩
      · rintro ⟨resourceId, contentId, hdue, hcarried⟩
        exact ⟨_, hpage resourceId contentId, resourceId, contentId, hdue, rfl,
          fun hsuppressed => hcarried hsuppressed.1⟩
    · intro resourceId hdeclared raw hraw _ _ _ _ hfirst hsecond
      obtain ⟨⟨contentId, _⟩, honFile, rfl⟩ := mem_map.mp hraw
      obtain ⟨first, firstId, hdue, rfl, hshown⟩ := hfirst
      obtain ⟨second, secondId, hdue', rfl, hshown'⟩ := hsecond
      have hid := hdue.contentId_eq hdue'
      have hid' : contentId = firstId :=
        Except.ok.inj ((stock.keyed honFile).symm.trans (stock.keyed hdue.onFile))
      subst hid hid'
      by_cases hfirst : first ∈ declared.requested.keys
      · by_cases hsecond : second ∈ declared.requested.keys
        · rw [comesUpOn_declared hfirst, comesUpOn_declared hsecond]
        · rw [comesUpOn_undeclared hsecond]
          exact hagree.shared hdeclared honFile hsecond (hundeclared hsecond hshown') hdue' hdue
            hshown
      · rw [comesUpOn_undeclared hfirst]
        exact (hagree.shared hdeclared honFile hfirst (hundeclared hfirst hshown) hdue hdue' hshown').symm

section Sample

open Sample

def sha256Readings : List (String × List UInt8) :=
  [("a\x00board", [0xbb, 0x4b, 0xd2, 0x6b, 0x53, 0x89, 0x12, 0x92, 0x3c, 0x00, 0xdd, 0xcc, 0xe9, 0x26, 0x45, 0x98,
      0x96, 0x11, 0x63, 0xfb, 0xfc, 0x1d, 0xb2, 0x76, 0xfc, 0x34, 0x70, 0xff, 0xbf, 0x00, 0x42, 0x36]),
    ("a\x00" ++ boardGenesisId, [0x3e, 0x33, 0xe2, 0xde, 0x03, 0x5e, 0x55, 0x6b, 0x6b, 0x4c, 0x2a, 0x10, 0x19, 0x08, 0x5c, 0xa3,
      0xa9, 0x47, 0x6a, 0xac, 0xcf, 0xc7, 0xdd, 0x2c, 0x4a, 0xb2, 0xce, 0xe5, 0xb4, 0xf8, 0x00, 0x5b])]

def sampleSha256 (text : List UInt8) : List UInt8 :=
  ((sha256Readings.find? fun reading =>
    reading.1.toList.flatMap String.utf8EncodeChar == text).map Prod.snd).getD []

def genesisStock : InventoryStock Sample.env where
  carried := ["board"]
  allEvents resourceId :=
    if resourceId = "board" then ⟨[(boardGenesisId, boardGenesis)], by simp⟩ else .empty
  keyed := by
    intro resourceId contentId raw honFile
    split at honFile
    · obtain ⟨rfl, rfl⟩ : contentId = boardGenesisId ∧ raw = boardGenesis := by
        simpa using honFile
      exact (toOption_eq_some _ _).mp (by decide +kernel)
    · exact absurd honFile not_mem_nil
  withheld := []

def declinedBoard : InventoryDeclaration where
  requested := empty.set "board" []
  notCarried := ["board"]

theorem declined_board_lengths :
    (resourceEventDiff sampleSha256 genesisStock declinedBoard 100 none "a").1.length = 0 ∧
      (resourceEventDiff sampleSha256 genesisStock (declinedBoard.onPage sampleSha256 "a" 1 2) 100
        (some (1, 2)) "a").1.length = 1 := by
  decide +kernel

theorem declined_board_comes_up_on_a_page :
    ∃ raw, raw ∈ (resourceEventDiff sampleSha256 genesisStock
        (declinedBoard.onPage sampleSha256 "a" 1 2) 100 (some (1, 2)) "a").1 ∧
      raw ∉ (resourceEventDiff sampleSha256 genesisStock declinedBoard 100 none "a").1 := by
  obtain ⟨hwhole, hpage⟩ := declined_board_lengths
  obtain ⟨raw, hraw⟩ := exists_mem_of_length_pos (hpage ▸ Nat.one_pos)
  refine ⟨raw, hraw, ?_⟩
  rw [length_eq_zero_iff.mp hwhole]
  exact not_mem_nil

theorem declined_board_pages_disagree :
    ¬ PagesAgree genesisStock declinedBoard sampleSha256 "a" 2 := by
  intro hagree
  obtain ⟨hwhole, hpage⟩ := declined_board_lengths
  obtain ⟨raw, hraw⟩ := exists_mem_of_length_pos (hpage ▸ Nat.one_pos)
  have hsum := ((paged_answers_add_up_iff genesisStock declinedBoard sampleSha256 "a" 2 100
    (by decide) (by unfold InventoryStock.Unlimited; decide +kernel)).mpr hagree).1 raw
  have hmem := hsum.mp ⟨1, by decide, hraw⟩
  rw [length_eq_zero_iff.mp hwhole] at hmem
  exact not_mem_nil hmem

end Sample

end NetBBS
