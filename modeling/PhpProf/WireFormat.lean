import PhpProf.Text

/-! The wire format of protocol buffers: numbers in base 128, and messages as
sequences of numbered records. Reading back what was written needs no end marker,
since every record tells where it ends. -/
namespace PhpProf

universe u

namespace WireFormat

/-! ## Numbers in base 128 -/

/-- The groups of seven bits of a number, least significant first; every byte but
the last has its top bit set. The fuel bounds the number of groups. -/
def varintGroups : Nat → Nat → Bytes
  | 0, n => [n.toUInt8]
  | fuel + 1, n =>
    if n < 128 then [n.toUInt8]
    else (n % 128 + 128).toUInt8 :: varintGroups fuel (n / 128)

def varint (n : Nat) : Bytes := varintGroups n n

/-- The number that the bytes begin with, and the bytes after it. -/
def readVarint : Bytes → Option (Nat × Bytes)
  | [] => none
  | byte :: rest =>
    if byte.toNat < 128 then some (byte.toNat, rest)
    else (readVarint rest).map fun (n, rest) => (byte.toNat - 128 + 128 * n, rest)

theorem toNat_byte {n : Nat} (small : n < 256) : n.toUInt8.toNat = n := by
  simp only [Nat.toUInt8_eq, UInt8.toNat_ofNat']
  omega

theorem readVarint_groups {fuel n : Nat} (enough : n ≤ fuel) (rest : Bytes) :
    readVarint (varintGroups fuel n ++ rest) = some (n, rest) := by
  induction fuel generalizing n with
  | zero =>
    obtain rfl : n = 0 := by omega
    simp [varintGroups, readVarint]
  | succ fuel ih =>
    unfold varintGroups
    split
    · next small =>
      simp [readVarint, toNat_byte (show n < 256 by omega), small]
    · next large =>
      have group := toNat_byte (show n % 128 + 128 < 256 by omega)
      have whole : n % 128 + 128 - 128 + 128 * (n / 128) = n := by omega
      simp only [List.cons_append, readVarint, group, ih (show n / 128 ≤ fuel by omega)]
      rw [if_neg (by omega), Option.map_some, whole]

@[simp] theorem readVarint_varint (n : Nat) (rest : Bytes) :
    readVarint (varint n ++ rest) = some (n, rest) :=
  readVarint_groups le_rfl rest

theorem varint_ne_nil (n : Nat) : varint n ≠ [] := by
  intro empty
  have read := readVarint_varint n []
  simp [empty, readVarint] at read

/-! ## Reading to the end -/

/-- Read one item after another until nothing is left. The fuel bounds the number
of items. -/
def readItems {α : Type u} (read : Bytes → Option (α × Bytes)) :
    Nat → Bytes → Option (List α)
  | _, [] => some []
  | 0, _ :: _ => none
  | fuel + 1, bytes =>
    match read bytes with
    | none => none
    | some (item, rest) => (readItems read fuel rest).map (item :: ·)

/-- An item takes at least one byte, so the length is fuel enough. -/
def readAll {α : Type u} (read : Bytes → Option (α × Bytes)) (bytes : Bytes) :
    Option (List α) :=
  readItems read bytes.length bytes

section Items

variable {α : Type u} {write : α → Bytes} {read : Bytes → Option (α × Bytes)}

theorem length_le_written (nonempty : ∀ item, write item ≠ []) (items : List α) :
    items.length ≤ (items.flatMap write).length := by
  induction items with
  | nil => simp
  | cons item rest ih =>
    have one := List.length_pos_iff.mpr (nonempty item)
    simp only [List.length_cons, List.flatMap_cons, List.length_append]
    omega

theorem readItems_written (back : ∀ item rest, read (write item ++ rest) = some (item, rest))
    (nonempty : ∀ item, write item ≠ []) {items : List α} {fuel : Nat}
    (enough : items.length ≤ fuel) :
    readItems read fuel (items.flatMap write) = some items := by
  induction items generalizing fuel with
  | nil => simp [readItems]
  | cons item rest ih =>
    obtain ⟨less, rfl⟩ : ∃ less, fuel = less + 1 :=
      Nat.exists_eq_add_of_le' (by rw [List.length_cons] at enough; omega)
    obtain ⟨byte, more, first⟩ := List.exists_cons_of_ne_nil (nonempty item)
    have later := @ih less (by rw [List.length_cons] at enough; omega)
    have found := back item (rest.flatMap write)
    rw [first, List.cons_append] at found
    simp only [List.flatMap_cons, first, List.cons_append, readItems, found, later,
      Option.map_some]

/-- Items that each read back whatever follows them read back in a row. -/
theorem readAll_written (back : ∀ item rest, read (write item ++ rest) = some (item, rest))
    (nonempty : ∀ item, write item ≠ []) (items : List α) :
    readAll read (items.flatMap write) = some items :=
  readItems_written back nonempty (length_le_written nonempty items)

end Items

/-! ## Records -/

/-- What a record carries: a number, or bytes with their length in front. The
other wire types are for fields of fixed width. -/
inductive Payload where
  | number (n : Nat)
  | delimited (bytes : Bytes)
  deriving DecidableEq

inductive WireType where
  | varint
  | lengthDelimited
  deriving DecidableEq

def WireType.code : WireType → Nat
  | .varint => 0
  | .lengthDelimited => 2

def WireType.ofCode : Nat → Option WireType
  | 0 => some .varint
  | 2 => some .lengthDelimited
  | _ => none

theorem WireType.code_lt (wireType : WireType) : wireType.code < 8 := by
  cases wireType <;> decide

@[simp] theorem WireType.ofCode_code (wireType : WireType) :
    ofCode wireType.code = some wireType := by
  cases wireType <;> rfl

def Payload.wireType : Payload → WireType
  | .number _ => .varint
  | .delimited _ => .lengthDelimited

def Payload.write : Payload → Bytes
  | .number n => WireFormat.varint n
  | .delimited bytes => WireFormat.varint bytes.length ++ bytes

/-- A payload of the given wire type, and the bytes after it. -/
def readPayload (wireType : WireType) (bytes : Bytes) : Option (Payload × Bytes) :=
  match wireType, readVarint bytes with
  | _, none => none
  | .varint, some (n, rest) => some (.number n, rest)
  | .lengthDelimited, some (length, rest) =>
    if length ≤ rest.length then some (.delimited (rest.take length), rest.drop length) else none

theorem readPayload_write (payload : Payload) (rest : Bytes) :
    readPayload payload.wireType (payload.write ++ rest) = some (payload, rest) := by
  cases payload with
  | number n => simp [readPayload, Payload.wireType, Payload.write]
  | delimited bytes => simp [readPayload, Payload.wireType, Payload.write, List.append_assoc]

theorem Payload.write_ne_nil (payload : Payload) : payload.write ≠ [] := by
  cases payload with
  | number n => exact varint_ne_nil n
  | delimited bytes => exact List.append_ne_nil_of_left_ne_nil (varint_ne_nil _) bytes

structure Record where
  number : Nat
  payload : Payload
  deriving DecidableEq

/-- The tag, with the wire type in its three lowest bits, and the payload. -/
def Record.write (record : Record) : Bytes :=
  varint (8 * record.number + record.payload.wireType.code) ++ record.payload.write

def readRecord (bytes : Bytes) : Option (Record × Bytes) := do
  let (tag, bytes) ← readVarint bytes
  let wireType ← WireType.ofCode (tag % 8)
  let (payload, rest) ← readPayload wireType bytes
  return (⟨tag / 8, payload⟩, rest)

theorem readRecord_write (record : Record) (rest : Bytes) :
    readRecord (record.write ++ rest) = some (record, rest) := by
  obtain ⟨number, payload⟩ := record
  have back := readPayload_write payload rest
  have code := payload.wireType.code_lt
  have low : (8 * number + payload.wireType.code) % 8 = payload.wireType.code := by omega
  have high : (8 * number + payload.wireType.code) / 8 = number := by omega
  simp [readRecord, Record.write, List.append_assoc, low, high, back]

theorem Record.write_ne_nil (record : Record) : record.write ≠ [] :=
  List.append_ne_nil_of_left_ne_nil (varint_ne_nil _) _

def writeRecords (records : List Record) : Bytes := records.flatMap Record.write

def readRecords (bytes : Bytes) : Option (List Record) := readAll readRecord bytes

@[simp] theorem readRecords_write (records : List Record) :
    readRecords (writeRecords records) = some records :=
  readAll_written readRecord_write Record.write_ne_nil records

end WireFormat

end PhpProf
