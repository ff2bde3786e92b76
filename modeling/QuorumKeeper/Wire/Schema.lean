import QuorumKeeper.Text.Utf8
import QuorumKeeper.Wire.Record

/-!
# Schemas

A schema says which fields a type of message has and how the payload of each becomes a part of the
value. Decoding starts from the value with every field at its default and takes the records one by
one: a later number or text replaces an earlier one, repeated fields grow, and an embedded message
is merged into the one that is there. A record with an unknown number changes nothing, and a known
number with a payload of the wrong form is an error. Encoding writes the fields in order and leaves
out the defaults.
-/

set_option autoImplicit false

namespace QuorumKeeper.Wire

/-- A field of messages of type `M`: how it takes a payload in, and which payloads it writes. -/
structure Field (M : Type) where
  number : Nat
  absorb : (depth : Nat) → Payload → M → Option M
  emit : M → List Payload

/-- The value with all defaults, and the fields in the order of their numbers. -/
structure Schema (M : Type) where
  empty : M
  fields : List (Field M)

namespace Schema

variable {M : Type}

/-- Takes one record in. -/
def absorb (schema : Schema M) (depth : Nat) (m : M) (r : Record) : Option M :=
  match schema.fields.find? (·.number == r.number) with
  | none => some m
  | some f => f.absorb depth r.payload m

/-- Takes the records of a message in, starting from a value. -/
def decodeOnto (schema : Schema M) (depth : Nat) (m : M) (s : Bytes) : Option M :=
  match readRecords depth s with
  | none => none
  | some records => records.foldlM (schema.absorb depth) m

/-- How deep groups and messages may be nested. -/
def nestingLimit : Nat := 100

/-- Reads a message. -/
def decode (schema : Schema M) (s : Bytes) : Option M :=
  schema.decodeOnto nestingLimit schema.empty s

/-- The records of a message. -/
def records (schema : Schema M) (m : M) : List Record :=
  schema.fields.flatMap fun f => (f.emit m).map (Record.mk f.number)

/-- Writes a message. -/
def encode (schema : Schema M) (m : M) : Bytes :=
  (schema.records m).flatMap writeRecord

end Schema

namespace Field

variable {M N : Type}

/-- An unsigned number. -/
def word (number : Nat) (get : M → UInt64) (set : M → UInt64 → M) : Field M where
  number
  absorb _ p m :=
    match p with
    | .varint n => some (set m n)
    | _ => none
  emit m := if get m = 0 then [] else [.varint (get m)]

/-- A signed number, written by its 64 bits. -/
def signed (number : Nat) (get : M → Int64) (set : M → Int64 → M) : Field M :=
  word number (fun m => (get m).toUInt64) fun m n => set m n.toInt64

/-- A truth value; every number but zero means true. -/
def flag (number : Nat) (get : M → Bool) (set : M → Bool → M) : Field M where
  number
  absorb _ p m :=
    match p with
    | .varint n => some (set m (n != 0))
    | _ => none
  emit m := if get m then [.varint 1] else []

/-- A text. -/
def text (number : Nat) (get : M → String) (set : M → String → M) : Field M where
  number
  absorb _ p m :=
    match p with
    | .bytes b => (Text.ofUtf8? b).map (set m)
    | _ => none
  emit m := if get m = "" then [] else [.bytes (Text.utf8 (get m))]

/-- Any number of texts. -/
def texts (number : Nat) (get : M → List String) (set : M → List String → M) : Field M where
  number
  absorb _ p m :=
    match p with
    | .bytes b => (Text.ofUtf8? b).map fun s => set m (get m ++ [s])
    | _ => none
  emit m := (get m).map fun s => .bytes (Text.utf8 s)

/-- A message that may be absent. -/
def message (number : Nat) (schema : Schema N) (get : M → Option N) (set : M → Option N → M) :
    Field M where
  number
  absorb depth p m :=
    match p with
    | .bytes b =>
      (schema.decodeOnto (depth - 1) ((get m).getD schema.empty) b).map fun n => set m (some n)
    | _ => none
  emit m := (get m).toList.map fun n => .bytes (schema.encode n)

/-- Any number of messages. -/
def messages (number : Nat) (schema : Schema N) (get : M → List N) (set : M → List N → M) :
    Field M where
  number
  absorb depth p m :=
    match p with
    | .bytes b =>
      (schema.decodeOnto (depth - 1) schema.empty b).map fun n => set m (get m ++ [n])
    | _ => none
  emit m := (get m).map fun n => .bytes (schema.encode n)

end Field

end QuorumKeeper.Wire
