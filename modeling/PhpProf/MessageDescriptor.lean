import Mathlib.Data.List.Nodup
import PhpProf.Succeeds
import PhpProf.WireFormat

/-! Messages described by field tables, as code generated from a schema describes
them. The values of a message are typed by its table, so that every one of them
has an encoding, and decoding by the same table gives all of them back. -/
namespace PhpProf
open WireFormat

inductive FieldType where
  | int64
  | uint64
  | bool
  | string
  | message
  deriving DecidableEq

inductive FieldLabel where
  | none
  | repeated
  deriving DecidableEq

structure FieldDescriptor where
  name : String
  id : Nat
  label : FieldLabel
  type : FieldType
  packed : Bool
  deriving DecidableEq

namespace FieldType

/-- One element of the type. The element of an embedded message is that message,
encoded; a string is its bytes without the final NUL. -/
abbrev Element : FieldType → Type
  | .int64 => Int64
  | .uint64 => UInt64
  | .bool => Bool
  | .string | .message => Bytes

/-- A field without a label. Only an embedded message can be absent. -/
abbrev Single : FieldType → Type
  | .message => Option Bytes
  | .int64 => Int64
  | .uint64 => UInt64
  | .bool => Bool
  | .string => Bytes

/-- What is written of a field without a label: nothing when it has its default. -/
def present : (type : FieldType) → type.Single → Option type.Element
  | .message, value => value
  | .int64, value => if value = 0 then none else some value
  | .uint64, value => if value = 0 then none else some value
  | .bool, value => if value = false then none else some value
  | .string, value => if value = [] then none else some value

/-- The default for what is not there. -/
def ofPresent : (type : FieldType) → Option type.Element → type.Single
  | .message, value => value
  | .int64, value => value.getD 0
  | .uint64, value => value.getD 0
  | .bool, value => value.getD false
  | .string, value => value.getD []

theorem ofPresent_present (type : FieldType) (value : type.Single) :
    type.ofPresent (type.present value) = value := by
  cases type with
  | message => rfl
  | int64 | uint64 | bool | string =>
    simp only [present, ofPresent]
    split
    · next default => exact default.symm
    · rfl

def wireType : FieldType → WireType
  | .int64 | .uint64 | .bool => .varint
  | .string | .message => .lengthDelimited

/-- A signed number is written as the unsigned one with the same bits. -/
def payload : (type : FieldType) → type.Element → Payload
  | .int64, value => .number value.toUInt64.toNat
  | .uint64, value => .number value.toNat
  | .bool, value => .number value.toNat
  | .string, value | .message, value => .delimited value

def ofPayload : (type : FieldType) → Payload → Option type.Element
  | .int64, .number n => some (UInt64.ofNat n).toInt64
  | .uint64, .number n => some (UInt64.ofNat n)
  | .bool, .number n => some (n != 0)
  | .string, .delimited bytes | .message, .delimited bytes => some bytes
  | .int64, .delimited _ | .uint64, .delimited _ | .bool, .delimited _ => none
  | .string, .number _ | .message, .number _ => none

@[simp] theorem payload_wireType (type : FieldType) (element : type.Element) :
    (type.payload element).wireType = type.wireType := by
  cases type <;> rfl

@[simp] theorem ofPayload_payload (type : FieldType) (element : type.Element) :
    type.ofPayload (type.payload element) = some element := by
  cases type with
  | int64 =>
    simp [payload, ofPayload]
  | uint64 => simp [payload, ofPayload]
  | bool => cases element <;> rfl
  | string | message => rfl

/-- One element of a packed field, and the bytes after it. -/
def readElement (type : FieldType) (bytes : Bytes) : Option (type.Element × Bytes) := do
  let (payload, rest) ← readPayload type.wireType bytes
  let element ← type.ofPayload payload
  return (element, rest)

def writeElement (type : FieldType) (element : type.Element) : Bytes :=
  (type.payload element).write

theorem readElement_write (type : FieldType) (element : type.Element) (rest : Bytes) :
    type.readElement (type.writeElement element ++ rest) = some (element, rest) := by
  have back := readPayload_write (type.payload element) rest
  rw [payload_wireType] at back
  simp [readElement, writeElement, back]

/-- The elements of one packed record. -/
def ofPacked (type : FieldType) : Payload → Option (List type.Element)
  | .delimited bytes => readAll type.readElement bytes
  | .number _ => none

@[simp] theorem ofPacked_written (type : FieldType) (elements : List type.Element) :
    type.ofPacked (.delimited (elements.flatMap type.writeElement)) = some elements :=
  readAll_written type.readElement_write (fun _ => Payload.write_ne_nil _) elements

end FieldType

namespace FieldDescriptor

/-- The C value of a field: an array, or a single value. -/
abbrev Value (field : FieldDescriptor) : Type :=
  match field.label with
  | .none => field.type.Single
  | .repeated => List field.type.Element

/-- What is written of a field, in one record or in one for each element. -/
def payloads : (field : FieldDescriptor) → field.Value → List Payload
  | ⟨_, _, .none, type, _⟩, value => (type.present value).toList.map type.payload
  | ⟨_, _, .repeated, type, false⟩, (elements : List type.Element) => elements.map type.payload
  | ⟨_, _, .repeated, type, true⟩, (elements : List type.Element) =>
    if elements.isEmpty then [] else [.delimited (elements.flatMap type.writeElement)]

/-- The value of a field from its payloads. The last one counts where there
should be one only, and packed arrays are joined. -/
def ofPayloads : (field : FieldDescriptor) → List Payload → Option field.Value
  | ⟨_, _, .none, type, _⟩, payloads =>
    match payloads.getLast? with
    | none => some (type.ofPresent none)
    | some payload => (type.ofPayload payload).map fun element => type.ofPresent (some element)
  | ⟨_, _, .repeated, type, false⟩, payloads => payloads.mapM type.ofPayload
  | ⟨_, _, .repeated, type, true⟩, payloads => (payloads.mapM type.ofPacked).map List.flatten

end FieldDescriptor

theorem FieldDescriptor.ofPayloads_payloads (field : FieldDescriptor) (value : field.Value) :
    field.ofPayloads (field.payloads value) = some value := by
  obtain ⟨name, id, label, type, packed⟩ := field
  cases label with
  | none =>
    have back := type.ofPresent_present value
    simp only [payloads, ofPayloads]
    cases presence : type.present value with
    | none =>
      rw [presence] at back
      simp [back]
    | some element =>
      rw [presence] at back
      simp [back]
  | repeated =>
    cases packed with
    | false => exact mapM_written type.ofPayload_payload value
    | true =>
      simp only [payloads, ofPayloads]
      split
      · next empty =>
        obtain rfl : value = [] := List.isEmpty_iff.mp empty
        rfl
      · simp

/-! ## Messages -/

/-- The values of a message, one for each field of its table. -/
def MessageValue : List FieldDescriptor → Type
  | [] => Unit
  | field :: rest => field.Value × MessageValue rest

/-- The records of a message, field by field. -/
def messageRecords : (fields : List FieldDescriptor) → MessageValue fields → List Record
  | [], _ => []
  | field :: rest, values =>
    (field.payloads values.1).map (Record.mk field.id) ++ messageRecords rest values.2

/-- The payloads of the records with a number, in their order. -/
def payloadsOf (id : Nat) (records : List Record) : List Payload :=
  (records.filter fun record => record.number = id).map Record.payload

def collectFields : (fields : List FieldDescriptor) → List Record →
    Option (MessageValue fields)
  | [], _ => some ()
  | field :: rest, records => do
    let value ← field.ofPayloads (payloadsOf field.id records)
    let values ← collectFields rest records
    return (value, values)

@[simp] theorem payloadsOf_append (id : Nat) (front back : List Record) :
    payloadsOf id (front ++ back) = payloadsOf id front ++ payloadsOf id back := by
  simp [payloadsOf]

theorem payloadsOf_own (id : Nat) (payloads : List Payload) :
    payloadsOf id (payloads.map (Record.mk id)) = payloads := by
  simp [payloadsOf, List.filter_map, Function.comp_def]

theorem payloadsOf_other {id other : Nat} (apart : id ≠ other) (payloads : List Payload) :
    payloadsOf other (payloads.map (Record.mk id)) = [] := by
  simp [payloadsOf, apart]

theorem payloadsOf_message {id : Nat} {fields : List FieldDescriptor}
    (missing : id ∉ fields.map FieldDescriptor.id) (values : MessageValue fields) :
    payloadsOf id (messageRecords fields values) = [] := by
  induction fields with
  | nil => rfl
  | cons field rest ih =>
    rw [List.map_cons, List.mem_cons, not_or] at missing
    rw [messageRecords, payloadsOf_append, payloadsOf_other (Ne.symm missing.1), List.nil_append]
    exact ih missing.2 values.2

/-- Records of other fields before them do not disturb the fields of the table. -/
theorem collectFields_records {fields : List FieldDescriptor}
    (distinct : (fields.map FieldDescriptor.id).Nodup) (values : MessageValue fields)
    {front : List Record} (before : ∀ field ∈ fields, payloadsOf field.id front = []) :
    collectFields fields (front ++ messageRecords fields values) = some values := by
  induction fields generalizing front with
  | nil => rfl
  | cons field rest ih =>
    rw [List.map_cons, List.nodup_cons] at distinct
    obtain ⟨fresh, distinct⟩ := distinct
    have own : payloadsOf field.id (front ++ messageRecords (field :: rest) values) =
        field.payloads values.1 := by
      simp only [messageRecords, payloadsOf_append, payloadsOf_own, payloadsOf_message fresh,
        before field List.mem_cons_self, List.nil_append, List.append_nil]
    have later : collectFields rest (front ++ messageRecords (field :: rest) values) =
        some values.2 := by
      rw [messageRecords, ← List.append_assoc]
      apply ih distinct values.2
      intro other member
      have apart : field.id ≠ other.id := fun same =>
        fresh (same ▸ List.mem_map_of_mem member)
      rw [payloadsOf_append, payloadsOf_other apart,
        before other (List.mem_cons_of_mem _ member), List.nil_append]
    rw [collectFields, own, later, field.ofPayloads_payloads]
    rfl

/-- A field table in which no two fields have one number. -/
structure MessageDescriptor where
  name : String
  fields : List FieldDescriptor
  distinct : (fields.map FieldDescriptor.id).Nodup

namespace MessageDescriptor

abbrev Value (descriptor : MessageDescriptor) : Type := MessageValue descriptor.fields

def encode (descriptor : MessageDescriptor) (values : descriptor.Value) : Bytes :=
  writeRecords (messageRecords descriptor.fields values)

def decode (descriptor : MessageDescriptor) (bytes : Bytes) : Option descriptor.Value :=
  (readRecords bytes).bind (collectFields descriptor.fields)

theorem decode_encode (descriptor : MessageDescriptor) (values : descriptor.Value) :
    descriptor.decode (descriptor.encode values) = some values := by
  rw [decode, encode, readRecords_write, Option.bind_some]
  exact @collectFields_records _ descriptor.distinct values [] fun _ _ => rfl

end MessageDescriptor

end PhpProf
