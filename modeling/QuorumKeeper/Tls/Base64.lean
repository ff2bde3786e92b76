/-!
# Bytes written with 64 letters

Every three bytes are written as four letters, and one or two equals signs fill up the last group.
The reader passes over white space, accepts a last group with or without its filling, and refuses a
filling that something follows.
-/

set_option autoImplicit false

namespace QuorumKeeper.Tls.Base64

/-- Why bytes are not read. -/
inductive Fault where
  | invalidCharacter (byte : UInt8)
  | prematurePadding
  | invalidTrailingPadding
  deriving DecidableEq, Repr

namespace Fault

/-- The name of the fault. -/
def text : Fault → String
  | invalidCharacter byte =>
    "InvalidCharacter(" ++ String.ofList (Nat.toDigits 10 byte.toNat) ++ ")"
  | prematurePadding => "PrematurePadding"
  | invalidTrailingPadding => "InvalidTrailingPadding"

end Fault

/-- What a byte stands for. -/
inductive Letter where
  | blank
  | filling
  | digit (value : Nat)
  | invalid
  deriving DecidableEq, Repr

/-- What a byte stands for. -/
def letter (b : UInt8) : Letter :=
  let n := b.toNat
  if 0x41 ≤ n ∧ n ≤ 0x5A then .digit (n - 0x41)
  else if 0x61 ≤ n ∧ n ≤ 0x7A then .digit (n - 0x61 + 26)
  else if 0x30 ≤ n ∧ n ≤ 0x39 then .digit (n - 0x30 + 52)
  else if n = 0x2B then .digit 62
  else if n = 0x2F then .digit 63
  else if n = 0x3D then .filling
  else if (9 ≤ n ∧ n ≤ 13) ∨ n = 0x20 then .blank
  else .invalid

/-- The first `count` bytes of a group of four digits. -/
def groupBytes (count a b c d : Nat) : List UInt8 :=
  let n := ((a * 64 + b) * 64 + c) * 64 + d
  [(n / 65536).toUInt8, (n / 256 % 256).toUInt8, (n % 256).toUInt8].take count

/-- The bytes of a last group, in which a filling is `none`. -/
def lastGroup : List (Option Nat) → Except Fault (List UInt8)
  | [] => .ok []
  | [some a, some b, some c, some d] => .ok (groupBytes 3 a b c d)
  | [some a, some b, some c, none] => .ok (groupBytes 2 a b c 0)
  | [some a, some b, some c] => .ok (groupBytes 2 a b c 0)
  | [some a, some b, none, none] => .ok (groupBytes 1 a b 0 0)
  | [some a, some b] => .ok (groupBytes 1 a b 0 0)
  | _ => .error .invalidTrailingPadding

/-- The bytes of a group without filling. -/
def fullGroup : List (Option Nat) → Except Fault (List UInt8)
  | [some a, some b, some c, some d] => .ok (groupBytes 3 a b c d)
  | _ => .error .prematurePadding

/-- The bytes of the last eight digits or fewer. -/
def lastBlock (block : List (Option Nat)) : Except Fault (List UInt8) :=
  if 4 < block.length then do
    return (← fullGroup (block.take 4)) ++ (← lastGroup (block.drop 4))
  else lastGroup block

/-- The bytes of eight digits that more digits follow. -/
def innerBlock (block : List (Option Nat)) : Except Fault (List UInt8) := do
  return (← fullGroup (block.take 4)) ++ (← fullGroup (block.drop 4))

/-- Reads on, after a block of up to eight digits. -/
def decodeAfter : (block : List (Option Nat)) → List UInt8 → Except Fault (List UInt8)
  | block, [] => lastBlock block
  | block, b :: rest =>
    let push := fun (x : Option Nat) =>
      if block.length = 8 then do
        return (← innerBlock block) ++ (← decodeAfter [x] rest)
      else decodeAfter (block ++ [x]) rest
    match letter b with
    | .blank => decodeAfter block rest
    | .invalid => .error (.invalidCharacter b)
    | .filling => push none
    | .digit d => push (some d)

/-- Reads bytes. -/
def decode (s : List UInt8) : Except Fault (List UInt8) :=
  decodeAfter [] s

/-- The letter of a digit. -/
def letterOf (n : Nat) : Char :=
  if n < 26 then Char.ofNat (0x41 + n)
  else if n < 52 then Char.ofNat (0x61 + n - 26)
  else if n < 62 then Char.ofNat (0x30 + n - 52)
  else if n = 62 then '+'
  else '/'

/-- Writes bytes. -/
def encode : List UInt8 → List Char
  | [] => []
  | [a] => [letterOf (a.toNat / 4), letterOf (a.toNat % 4 * 16), '=', '=']
  | [a, b] =>
    [letterOf (a.toNat / 4), letterOf (a.toNat % 4 * 16 + b.toNat / 16),
      letterOf (b.toNat % 16 * 4), '=']
  | a :: b :: c :: rest =>
    letterOf (a.toNat / 4) :: letterOf (a.toNat % 4 * 16 + b.toNat / 16) ::
      letterOf (b.toNat % 16 * 4 + c.toNat / 64) :: letterOf (c.toNat % 64) :: encode rest

end QuorumKeeper.Tls.Base64
