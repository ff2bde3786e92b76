import QuorumKeeper.Wire.Varint

/-!
# Records

A message on the wire is a sequence of records. A record starts with a key, which holds the number
of a field and the form of its payload; the form alone says where the record ends, so that records
of unknown fields can be read past. Groups are read past as well, down to a limited depth.
-/

set_option autoImplicit false

namespace QuorumKeeper.Wire

/-- The forms of a payload. -/
inductive Form where
  | varint
  | fixed64
  | bytes
  | startGroup
  | endGroup
  | fixed32
  deriving DecidableEq, Repr

namespace Form

/-- The code of a form in a key. -/
def code : Form → Nat
  | varint => 0
  | fixed64 => 1
  | bytes => 2
  | startGroup => 3
  | endGroup => 4
  | fixed32 => 5

/-- The form with a given code. -/
def ofCode? : Nat → Option Form
  | 0 => some varint
  | 1 => some fixed64
  | 2 => some bytes
  | 3 => some startGroup
  | 4 => some endGroup
  | 5 => some fixed32
  | _ => none

theorem ofCode?_code (f : Form) : ofCode? f.code = some f := by
  cases f <;> rfl

end Form

/-- What a record carries. Payloads that no known field has are not kept. -/
inductive Payload where
  | varint (n : UInt64)
  | bytes (b : Bytes)
  | fixed64
  | fixed32
  | group
  deriving DecidableEq, Repr

/-- The number of a field with a payload. -/
structure Record where
  number : Nat
  payload : Payload
  deriving DecidableEq, Repr

/-- Writes a key. -/
def writeKey (number : Nat) (form : Form) : Bytes :=
  writeVarint (8 * number + form.code)

/-- Reads a key: a number of at most 32 bits whose field number is not zero. -/
def readKey (s : Bytes) : Option (Nat × Form × Bytes) :=
  match readVarint s with
  | none => none
  | some (key, rest) =>
    match Form.ofCode? (key % 8) with
    | none => none
    | some form => if key < Nat.pow 2 32 ∧ 1 ≤ key / 8 then some (key / 8, form, rest) else none

/-- Splits off a given number of bytes. -/
def splitBytes (n : Nat) (s : Bytes) : Option (Bytes × Bytes) :=
  if n ≤ s.length then some (s.take n, s.drop n) else none

/-- Splits off bytes behind their number. -/
def readBytes (s : Bytes) : Option (Bytes × Bytes) :=
  match readVarint s with
  | none => none
  | some (n, rest) => splitBytes n rest

/-- Reads past the fields of a group up to its end, given a way to read past one field. -/
def skipGroup (skip : Nat → Form → Bytes → Option Bytes) (number : Nat) :
    (fuel : Nat) → Bytes → Option Bytes
  | 0, _ => none
  | fuel + 1, s =>
    match readKey s with
    | none => none
    | some (inner, .endGroup, rest) => if inner = number then some rest else none
    | some (inner, form, rest) =>
      match skip inner form rest with
      | none => none
      | some rest => skipGroup skip number fuel rest

/-- Reads past the payload of a field; groups are nested less than `depth` deep. -/
def skipField : (depth : Nat) → (number : Nat) → Form → Bytes → Option Bytes
  | 0, _, _, _ => none
  | depth + 1, number, form, s =>
    match form with
    | .varint => (readVarint s).map (·.2)
    | .fixed64 => (splitBytes 8 s).map (·.2)
    | .bytes => (readBytes s).map (·.2)
    | .startGroup => skipGroup (skipField depth) number s.length s
    | .endGroup => none
    | .fixed32 => (splitBytes 4 s).map (·.2)

/-- Reads one record. -/
def readRecord (depth : Nat) (s : Bytes) : Option (Record × Bytes) :=
  match readKey s with
  | none => none
  | some (number, form, rest) =>
    match form with
    | .varint => (readVarint rest).map fun (n, rest) => (⟨number, .varint n.toUInt64⟩, rest)
    | .bytes => (readBytes rest).map fun (b, rest) => (⟨number, .bytes b⟩, rest)
    | .fixed64 => (skipField depth number form rest).map (⟨number, .fixed64⟩, ·)
    | .fixed32 => (skipField depth number form rest).map (⟨number, .fixed32⟩, ·)
    | .startGroup => (skipField depth number form rest).map (⟨number, .group⟩, ·)
    | .endGroup => none

/-- Reads records up to the end; every record takes at least one byte. -/
def readRecordsWithin (depth : Nat) : (fuel : Nat) → Bytes → Option (List Record)
  | _, [] => some []
  | 0, _ :: _ => none
  | fuel + 1, s =>
    match readRecord depth s with
    | none => none
    | some (r, rest) => (readRecordsWithin depth fuel rest).map (r :: ·)

/-- Reads all records. -/
def readRecords (depth : Nat) (s : Bytes) : Option (List Record) :=
  readRecordsWithin depth s.length s

/-- Writes one record. Only numbers and bytes are ever written. -/
def writeRecord (r : Record) : Bytes :=
  match r.payload with
  | .varint n => writeKey r.number .varint ++ writeVarint n.toNat
  | .bytes b => writeKey r.number .bytes ++ writeVarint b.length ++ b
  | .fixed64 => []
  | .fixed32 => []
  | .group => []

end QuorumKeeper.Wire
