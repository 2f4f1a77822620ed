import NetBBS.Python.Encoding

/-! # The libraries the program calls -/

namespace NetBBS

open Foundation

structure VerifyKey where
  bytes : List UInt8
  size : bytes.length = 32

/-- `nacl.signing.VerifyKey(raw)`. -/
def VerifyKey.ofBytes (raw : List UInt8) : Except PyError VerifyKey :=
  if size : raw.length = 32 then .ok ⟨raw, size⟩
  else .error (.valueError "The key must be exactly 32 bytes long")

structure WallTime where
  micros : Int
  utcOffset : Option Int

structure Env where
  nfc : String → String
  casefold : String → String
  /-- `nacl.hash.blake2b`, by digest size. -/
  blake2b : Nat → List UInt8 → List UInt8
  /-- `verify_signature(key, message, signature)`, which never raises. -/
  verifySignature : VerifyKey → List UInt8 → List UInt8 → Bool
  /-- `datetime.fromisoformat`; `none` where it raises `ValueError`. -/
  fromIsoformat : String → Option WallTime
  /-- `datetime.strptime(s, "%Y-%m-%dT%H:%M:%S.%fZ")`, in microseconds of UTC. -/
  strptimeStored : String → Option Int
  /-- `utc_iso` of an instant, in microseconds of UTC. -/
  utcIso : Int → String
  /-- `normalize_friendly_name`, over the Unicode category tables. -/
  normalizeFriendlyName : Json → Option String
  /-- `normalize_dns_name`, over the `ipaddress` module. -/
  normalizeDnsName : Json → Option String

/-- `bytes(b64decode(value))` read as a public key. -/
def decodeVerifyKey (value : Json) : Except PyError VerifyKey := do
  VerifyKey.ofBytes (← b64decode value)

def maxInstant : Int := 3652059 * 86400 * 1000000 - 1

/-- `moment.astimezone(timezone.utc)`: overflow where the instant cannot be represented. -/
def WallTime.toUtc (t : WallTime) : Option Int :=
  let instant := t.micros - t.utcOffset.getD 0
  if 0 ≤ instant ∧ instant ≤ maxInstant then some instant else none

/-- `parse_utc_iso`: the stored shape first, then any ISO 8601 spelling. -/
def parseUtcIso (env : Env) (value : Json) : Except PyError Int :=
  match value with
  | .str s =>
    match env.strptimeStored s with
    | some instant => .ok instant
    | none =>
      match env.fromIsoformat s with
      | some t => orRefuse t.toUtc (.valueError "%r cannot be normalized to UTC")
      | none => .error (.valueError "Invalid isoformat string")
  | _ => .error .typeError

/-- `value.replace("Z", "+00:00")`. -/
def zuluAsOffset (value : String) : String :=
  String.ofList (value.toList.flatMap fun c => if c = 'Z' then "+00:00".toList else [c])

/-- `_parse_aware_timestamp(value, field_name=field)`: every failure is a protocol refusal. -/
def parseAwareTimestamp (env : Env) (value : Json) (field : String) : Except PyError Int := do
  let unreadable := PyError.linkProtocolError
    { text := "%s is not a valid ISO 8601 timestamp", values := [.str field] }
  let s ← orRefuse value.str? unreadable
  let t ← orRefuse (env.fromIsoformat (zuluAsOffset s)) unreadable
  refuseIf (t.utcOffset = none)
    (.linkProtocolError { text := "%s must include a timezone", values := [.str field] })
  orRefuse t.toUtc (.linkProtocolError
    { text := "%s is outside the range of representable timestamps", values := [.str field] })

/-- `fingerprint_from_verify_key`: 20 bytes of digest in lower-case base32. -/
def fingerprintFromVerifyKey (env : Env) (key : VerifyKey) : String :=
  base32Text (env.blake2b 20 key.bytes)

end NetBBS
