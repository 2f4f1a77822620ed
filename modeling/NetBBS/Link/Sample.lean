import NetBBS.Link.HandleEvents

/-! # A small node to evaluate the model on -/

namespace NetBBS.Sample

open Foundation

def checksum (bytes : List UInt8) : List UInt8 :=
  let sum := bytes.foldl (fun h b => (h * 257 + b.toNat + 1) % 18446744073709551557) 7
  (List.range 8).map fun i => (sum / 256 ^ i).toUInt8

def clockReadings : List (String × Int) :=
  [("2026-09-01T00:00:00+00:00", 63923817600000000), ("2026-09-01T00:04:00+00:00", 63923817840000000),
    ("2026-09-01T00:05:00.000001+00:00", 63923817900000001)]

def env : Env where
  nfc := id
  casefold := fun s => s.map Char.toLower
  blake2b := fun _ => checksum
  verifySignature := fun key _ signature => key.bytes.head? == signature.head?
  fromIsoformat := fun s => (clockReadings.lookup s).map fun micros => ⟨micros, some 0⟩
  strptimeStored := fun s => if s = "2026-09-01T00:00:00.000000Z" then some 0 else none
  utcIso := fun _ => "2026-09-01T00:00:00.000000Z"
  normalizeFriendlyName := fun value => value.str?
  normalizeDnsName := fun value => value.str?

def isProtocolError {α : Type} : Except PyError α → Bool
  | .error (.linkProtocolError _) => true
  | _ => false

theorem isProtocolError_iff {α : Type} (answer : Except PyError α) :
    isProtocolError answer = true ↔ ∃ e, answer = .error (.linkProtocolError e) := by
  constructor
  · intro h
    cases answer with
    | ok _ => simp [isProtocolError] at h
    | error e => cases e <;> simp_all [isProtocolError]
  · rintro ⟨e, rfl⟩
    rfl

def keyText (n : Nat) : String :=
  match n with
  | 0 => "AAAAAAAAAAAAAAAAAAAAAAAAAAAAAAAAAAAAAAAAAAA="
  | 1 => "AQEBAQEBAQEBAQEBAQEBAQEBAQEBAQEBAQEBAQEBAQE="
  | 2 => "AgICAgICAgICAgICAgICAgICAgICAgICAgICAgICAgI="
  | _ => "AwMDAwMDAwMDAwMDAwMDAwMDAwMDAwMDAwMDAwMDAwM="

def signatureText (n : Nat) : String :=
  match n with
  | 0 => "AA=="
  | 1 => "AQ=="
  | 2 => "Ag=="
  | _ => "Aw=="

def rootKey : VerifyKey := ⟨List.replicate 32 0, by decide⟩

def raw (objectType : String) (key : Nat) (payload : List (String × Json)) : Json :=
  .obj [("envelope", .obj [("netbbs_protocol", .int netbbsProtocolVersion),
      ("object_type", .str objectType), ("payload", .obj payload)]), ("signature", .str (signatureText key))]

def transition (subject action : String) (key : Nat) (more : List (String × Json)) : Json :=
  raw "key_transition" 0 ([("subject_fingerprint", .str subject), ("purpose", .str "signing"),
    ("action", .str action), ("operational_key", .str (keyText key)),
    ("created_at", .str "2026-09-01")] ++ more)

def previousTransition (contentId : String) : List (String × Json) :=
  [("previous_transition_id", .str contentId)]

def authorizeFirst : Json := transition "origin" "authorize" 1 []

def authorizeFirstId : String := "b47a98a694d1456c"

def revokeFirst : Json :=
  transition "origin" "revoke" 1 (previousTransition authorizeFirstId ++ [("compromised", .bool true)])

def revokeFirstId : String := "bbccb05db3e159b7"

def authorizeNext (key : Nat) : Json :=
  transition "origin" "authorize" key (previousTransition revokeFirstId)

def parsed (raws : List Json) : List SignedEvent :=
  raws.filterMap fun raw => (SignedEvent.fromDict raw).toOption

def peer (fingerprint : String) (key : Nat) : PeerRecord where
  fingerprint
  rootVerifyKey := rootKey
  transitions := parsed [transition fingerprint "authorize" key []]
  descriptor := default

def node : LinkNode env where
  fingerprint := "here"
  peerDirectory :=
    { peers := .ofList [("origin", peer "origin" 1), ("heir", peer "heir" 2)] }

def boardGenesis : Json :=
  raw "board_genesis" 1 [("board_id", .str "board"), ("origin_fingerprint", .str "origin")]

def boardGenesisId : String := "7c3e97bc39a2b189"

def genesisOf (raw : Json) : Option (Genesis env) :=
  match Filed.fromDict env raw with
  | .error _ => none
  | .ok filed =>
    match claimed : filed.field "origin_fingerprint" with
    | .str originFingerprint => some ⟨filed, originFingerprint, claimed⟩
    | _ => none

def carrier (fingerprint : String) (met : String × PeerRecord) : LinkNode env where
  fingerprint
  peerDirectory := { peers := .ofList [met] }
  boardEvents := {
    boards := .ofList ((genesisOf boardGenesis).toList.map fun genesis => (.str "board", genesis)) }

def boardOffer : Json :=
  raw "board_origin_transfer_offer" 1 [("board_id", .str "board"),
    ("previous_event_id", .str boardGenesisId), ("old_origin_fingerprint", .str "origin"),
    ("new_origin_fingerprint", .str "heir")]

def boardOfferId : String := "a26cbdca10028784"

def boardAccepted : Json :=
  raw "board_origin_transfer_accepted" 2 [("board_id", .str "board"),
    ("previous_event_id", .str boardOfferId), ("new_origin_fingerprint", .str "heir")]

def boardClosure (previous : String) : Json :=
  raw "board_closure" 1 [("board_id", .str "board"), ("previous_event_id", .str previous)]

def author : Json :=
  .obj [("kind", .str "node_vouched_user"), ("home_node_fingerprint", .str "heir"),
    ("local_user_id", .str "ann")]

def boardPost : Json :=
  raw "board_post" 2 [("board_id", .str "board"), ("author", author), ("body", .str "hello")]

def boardPostId : String := "4e8c452a349ae722"

def boardPostEdit (root previous board : String) : Json :=
  raw "board_post_edit" 2 [("board_id", .str board), ("root_post_id", .str root),
    ("previous_event_id", .str previous), ("author", author), ("body", .str "hello again")]

def boardEditId : String := "040da06507e9a6a3"

def boardTombstone (root previous : String) : Json :=
  raw "board_post_tombstone" 1 [("board_id", .str "board"), ("root_post_id", .str root),
    ("previous_event_id", .str previous)]

end NetBBS.Sample
