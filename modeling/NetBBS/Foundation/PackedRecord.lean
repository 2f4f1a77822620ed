import Mathlib.Algebra.GroupWithZero.Nat
import Mathlib.Data.List.Basic

/-! # Records packed into bytes -/

namespace NetBBS.Foundation

open List

inductive PackedField where
  | u8
  | u16
  | bytes (size : Nat)

namespace PackedField

def size : PackedField → Nat
  | u8 => 1
  | u16 => 2
  | bytes size => size

@[reducible] def Value : PackedField → Type
  | u8 => Nat
  | u16 => Nat
  | bytes _ => List UInt8

@[reducible] def InRange : (field : PackedField) → field.Value → Prop
  | u8, value => value < 256
  | u16, value => value < 65536
  | bytes _, _ => True

instance (field : PackedField) (value : field.Value) : Decidable (field.InRange value) := by
  cases field <;> unfold InRange <;> infer_instance

def encode : (field : PackedField) → field.Value → List UInt8
  | u8, value => [value.toUInt8]
  | u16, value => [value.toUInt8, (value / 256).toUInt8]
  | bytes size, value => (value ++ List.replicate size 0).take size

def decode : (field : PackedField) → List UInt8 → field.Value
  | u8, data => (data.headD 0).toNat
  | u16, data => (data.headD 0).toNat + 256 * (data.tail.headD 0).toNat
  | bytes size, data => data.take size

def stored : (field : PackedField) → field.Value → field.Value
  | bytes size, value => (value ++ List.replicate size 0).take size
  | u8, value => value
  | u16, value => value

@[simp] theorem length_encode (field : PackedField) (value : field.Value) :
    (field.encode value).length = field.size := by
  cases field <;> simp [encode, size]

theorem decode_encode (field : PackedField) (value : field.Value) (rest : List UInt8)
    (h : field.InRange value) : field.decode (field.encode value ++ rest) = field.stored value := by
  cases field with
  | u8 =>
    have hlow : value.toUInt8.toNat = value := Nat.mod_eq_of_lt h
    simpa [encode, decode, stored] using hlow
  | u16 =>
    have hparts : ∀ n : Nat, n < 65536 → n % 256 + 256 * (n / 256 % 256) = n := fun n hn => by
      omega
    simpa [encode, decode, stored] using hparts value h
  | bytes size =>
    have hlength : ((value ++ List.replicate size 0).take size).length = size := by simp
    simp only [encode, decode, stored]
    exact take_left' hlength

end PackedField

@[reducible] def PackedRecord : List PackedField → Type
  | [] => Unit
  | field :: rest => field.Value × PackedRecord rest

namespace PackedRecord

def size (fields : List PackedField) : Nat := (fields.map PackedField.size).sum

def InRange : (fields : List PackedField) → PackedRecord fields → Prop
  | [], _ => True
  | field :: rest, (value, values) => field.InRange value ∧ InRange rest values

def decInRange : (fields : List PackedField) → (record : PackedRecord fields) →
    Decidable (InRange fields record)
  | [], _ => .isTrue trivial
  | field :: rest, (value, values) =>
    have := decInRange rest values
    inferInstanceAs (Decidable (field.InRange value ∧ InRange rest values))

instance (fields : List PackedField) (record : PackedRecord fields) :
    Decidable (InRange fields record) := decInRange fields record

def encode : (fields : List PackedField) → PackedRecord fields → List UInt8
  | [], _ => []
  | field :: rest, (value, values) => field.encode value ++ encode rest values

def pack (fields : List PackedField) (record : PackedRecord fields) : Option (List UInt8) :=
  if InRange fields record then some (encode fields record) else none

def decode : (fields : List PackedField) → List UInt8 → PackedRecord fields
  | [], _ => ()
  | field :: rest, data => (field.decode data, decode rest (data.drop field.size))

def unpack (fields : List PackedField) (data : List UInt8) : Option (PackedRecord fields) :=
  if data.length < size fields then none else some (decode fields data)

def stored : (fields : List PackedField) → PackedRecord fields → PackedRecord fields
  | [], _ => ()
  | field :: rest, (value, values) => (field.stored value, stored rest values)

theorem length_encode (fields : List PackedField) (record : PackedRecord fields) :
    (encode fields record).length = size fields := by
  induction fields with
  | nil => rfl
  | cons field rest ih =>
    obtain ⟨value, values⟩ := record
    simp [encode, size, ih values] at ih ⊢

theorem decode_encode (fields : List PackedField) (record : PackedRecord fields)
    (tail : List UInt8) (h : InRange fields record) :
    decode fields (encode fields record ++ tail) = stored fields record := by
  induction fields with
  | nil => rfl
  | cons field rest ih =>
    obtain ⟨value, values⟩ := record
    obtain ⟨hvalue, hvalues⟩ := h
    have hdrop : (field.encode value ++ (encode rest values ++ tail)).drop field.size =
        encode rest values ++ tail := drop_left' (field.length_encode value)
    simp only [encode, decode, stored, append_assoc, hdrop, ih values hvalues,
      PackedField.decode_encode field value _ hvalue]

theorem pack_eq_some (fields : List PackedField) (record : PackedRecord fields) (packed : List UInt8) :
    pack fields record = some packed ↔ InRange fields record ∧ encode fields record = packed := by
  unfold pack
  split <;> simp_all

variable {fields : List PackedField} {packed : List UInt8}

theorem length_of_pack {record : PackedRecord fields} (h : pack fields record = some packed) :
    packed.length = size fields := by
  obtain ⟨-, rfl⟩ := (pack_eq_some _ _ _).mp h
  exact length_encode fields record

theorem unpack_pack {record : PackedRecord fields}
    (h : pack fields record = some packed) (tail : List UInt8) :
    unpack fields (packed ++ tail) = some (stored fields record) := by
  have hlength := length_of_pack h
  obtain ⟨hrange, rfl⟩ := (pack_eq_some _ _ _).mp h
  have hroom : ¬ (encode fields record ++ tail).length < size fields := by
    rw [length_append]
    omega
  unfold unpack
  rw [if_neg hroom, decode_encode fields record tail hrange]

end PackedRecord

end NetBBS.Foundation
