import QuorumKeeper.Text.Numeral

/-!
# Strings and keys in a document

TOML has four ways to write a string: on one line in double quotes with escapes, on one line in
single quotes without escapes, and over several lines in three quotes of either kind. The reader
takes them all. The writer takes the first way that shows the string without an escape, double
quotes before single ones and one line before several, and escapes only where no way is left.
-/

set_option autoImplicit false

namespace QuorumKeeper.Toml

/-! ## Characters -/

/-- A blank within a line. -/
def isSpace (c : Char) : Bool :=
  c = ' ' || c = '\t'

/-- The character may stand in a comment or in single quotes: a tab or no control character. -/
def isText (c : Char) : Bool :=
  c = '\t' || (' ' ≤ c && c != '\x7f')

/-- The character may stand in a key without quotes. -/
def isBare (c : Char) : Bool :=
  c.isAlphanum || c = '_' || c = '-'

/-- A line end at the front. -/
def newline? : List Char → Option (List Char)
  | '\n' :: rest => some rest
  | '\r' :: '\n' :: rest => some rest
  | _ => none

/-! ## Reading -/

/-- The character with the given hexadecimal digits. -/
def unicode? (digits : List Char) : Option Char :=
  let value := digits.foldl (fun n c =>
    n.bind fun n => (Text.hexDigit? c).map fun d => 16 * n + d) (some 0)
  value.bind fun n => if h : n.isValidChar then some (Char.ofNatAux n h) else none

/-- The character a one-letter escape stands for. -/
def escaped? (c : Char) : Option Char :=
  if c = 'b' then some '\x08'
  else if c = 't' then some '\t'
  else if c = 'n' then some '\n'
  else if c = 'f' then some '\x0c'
  else if c = 'r' then some '\r'
  else if c = '"' then some '"'
  else if c = '\\' then some '\\'
  else none

/-- Adds a character in front of what was read. -/
def consRead (c : Char) (read : Option (List Char × List Char)) : Option (List Char × List Char) :=
  read.map fun (cs, rest) => (c :: cs, rest)

/-- The rest of a string in double quotes, and what follows its closing quote. -/
def readBasic : List Char → Option (List Char × List Char)
  | [] => none
  | '"' :: rest => some ([], rest)
  | '\\' :: 'u' :: a :: b :: c :: d :: rest =>
    (unicode? [a, b, c, d]).bind fun ch => consRead ch (readBasic rest)
  | '\\' :: 'U' :: a :: b :: c :: d :: e :: f :: g :: h :: rest =>
    (unicode? [a, b, c, d, e, f, g, h]).bind fun ch => consRead ch (readBasic rest)
  | '\\' :: c :: rest => (escaped? c).bind fun ch => consRead ch (readBasic rest)
  | c :: rest => if isText c && c != '\\' then consRead c (readBasic rest) else none

/-- The rest of a string in single quotes. -/
def readLiteral : List Char → Option (List Char × List Char)
  | [] => none
  | '\'' :: rest => some ([], rest)
  | c :: rest => if isText c then consRead c (readLiteral rest) else none

/-- What follows the three closing quotes; up to two more quotes belong to the string. -/
def closeRun (quote : Char) : List Char → List Char × List Char
  | a :: b :: rest =>
    if a = quote then
      if b = quote then ([quote, quote], rest) else ([quote], b :: rest)
    else ([], a :: b :: rest)
  | [a] => if a = quote then ([quote], []) else ([], [a])
  | [] => ([], [])

/-- A backslash here ends the line: only blanks follow it on the line. -/
def endsLine (rest : List Char) : Bool :=
  (newline? (rest.dropWhile isSpace)).isSome

/-- The rest of a string in three double quotes. While `folding`, blanks and line ends are passed
over, as they are behind a backslash at the end of a line. -/
def readMultiBasic : (folding : Bool) → List Char → Option (List Char × List Char)
  | _, [] => none
  | _, '"' :: '"' :: '"' :: rest => some (closeRun '"' rest)
  | true, '\r' :: '\n' :: rest => readMultiBasic true rest
  | false, '\r' :: '\n' :: rest => consRead '\n' (readMultiBasic false rest)
  | true, '\n' :: rest => readMultiBasic true rest
  | false, '\n' :: rest => consRead '\n' (readMultiBasic false rest)
  | _, '\\' :: 'u' :: a :: b :: c :: d :: rest =>
    (unicode? [a, b, c, d]).bind fun ch => consRead ch (readMultiBasic false rest)
  | _, '\\' :: 'U' :: a :: b :: c :: d :: e :: f :: g :: h :: rest =>
    (unicode? [a, b, c, d, e, f, g, h]).bind fun ch => consRead ch (readMultiBasic false rest)
  | _, '\\' :: c :: rest =>
    match escaped? c with
    | some ch => consRead ch (readMultiBasic false rest)
    | none => if endsLine (c :: rest) then readMultiBasic true rest else none
  | folding, c :: rest =>
    if folding && isSpace c then readMultiBasic true rest
    else if isText c && c != '\\' then consRead c (readMultiBasic false rest)
    else none

/-- The rest of a string in three single quotes. -/
def readMultiLiteral : List Char → Option (List Char × List Char)
  | [] => none
  | '\'' :: '\'' :: '\'' :: rest => some (closeRun '\'' rest)
  | '\r' :: '\n' :: rest => consRead '\n' (readMultiLiteral rest)
  | '\n' :: rest => consRead '\n' (readMultiLiteral rest)
  | c :: rest => if isText c then consRead c (readMultiLiteral rest) else none

/-- The text without one line end at its front. -/
def skipNewline (s : List Char) : List Char :=
  (newline? s).getD s

/-- A string of any of the four kinds. -/
def readString : List Char → Option (List Char × List Char)
  | '"' :: '"' :: '"' :: rest => readMultiBasic false (skipNewline rest)
  | '\'' :: '\'' :: '\'' :: rest => readMultiLiteral (skipNewline rest)
  | '"' :: rest => readBasic rest
  | '\'' :: rest => readLiteral rest
  | _ => none

/-- One part of a key: bare or in one-line quotes. -/
def readKeyPart : List Char → Option (List Char × List Char)
  | '"' :: rest => readBasic rest
  | '\'' :: rest => readLiteral rest
  | s =>
    let bare := s.takeWhile isBare
    if bare.isEmpty then none else some (bare, s.dropWhile isBare)

/-- A key, whose parts are joined by points; there are at most `room` of them. -/
def readKey : (room : Nat) → List Char → Option (List String × List Char)
  | 0, _ => none
  | room + 1, s =>
    match readKeyPart (s.dropWhile isSpace) with
    | none => none
    | some (part, rest) =>
      match rest.dropWhile isSpace with
      | '.' :: rest =>
        (readKey room rest).map fun (parts, rest) => (String.ofList part :: parts, rest)
      | rest => some ([String.ofList part], rest)

/-- The number of parts a key may have. -/
def maxKeyParts : Nat := 79

/-! ## Writing -/

/-- The character cannot be shown: a control character other than a tab and a line end. -/
def needsCode (c : Char) : Bool :=
  c != '\t' && c != '\n' && (c < ' ' || c = '\x7f')

/-- The length of the longest run of a character, after `current` of them. -/
def longestRun (q : Char) : (current : Nat) → List Char → Nat
  | current, [] => current
  | current, c :: rest =>
    if c = q then longestRun q (current + 1) rest
    else max current (longestRun q 0 rest)

/-- A character between double quotes. Over several lines a line end stands as it is, and so do two
quotes in a row; `quotes` is the number of quotes just before. -/
def writeBasicChar (multi : Bool) (quotes : Nat) (c : Char) : List Char :=
  if c = '\x08' then ['\\', 'b']
  else if c = '\t' then ['\\', 't']
  else if c = '\n' then if multi then ['\n'] else ['\\', 'n']
  else if c = '\x0c' then ['\\', 'f']
  else if c = '\r' then ['\\', 'r']
  else if c = '"' then if multi && quotes < 2 then ['"'] else ['\\', '"']
  else if c = '\\' then ['\\', '\\']
  else if needsCode c then ['\\', 'u'] ++ Text.hexUpper 4 c.toNat
  else [c]

/-- The characters between double quotes. -/
def writeBasicChars (multi : Bool) : (quotes : Nat) → List Char → List Char
  | _, [] => []
  | quotes, c :: rest =>
    let next := if c = '"' then if multi && quotes < 2 then quotes + 1 else 0 else 0
    writeBasicChar multi quotes c ++ writeBasicChars multi next rest

/-- A line end behind the opening quotes, for a string that has line ends of its own. -/
def opening (s : List Char) : List Char :=
  if s.contains '\n' then ['\n'] else []

/-- In double quotes on one line. -/
def writeBasic (s : List Char) : List Char :=
  '"' :: writeBasicChars false 0 s ++ ['"']

/-- In single quotes on one line. -/
def writeLiteral (s : List Char) : List Char :=
  '\'' :: s ++ ['\'']

/-- In three double quotes. -/
def writeMultiBasic (s : List Char) : List Char :=
  '"' :: '"' :: '"' :: opening s ++ writeBasicChars true 0 s ++ ['"', '"', '"']

/-- In three single quotes. -/
def writeMultiLiteral (s : List Char) : List Char :=
  '\'' :: '\'' :: '\'' :: opening s ++ s ++ ['\'', '\'', '\'']

/-- A string, in the first way that needs no escape. -/
def writeString (s : List Char) : List Char :=
  let coded := s.any needsCode
  let lines := s.contains '\n'
  if !coded && !s.contains '\\' && !s.contains '"' && !lines then writeBasic s
  else if !coded && !s.contains '\'' && !lines then writeLiteral s
  else if !coded && !s.contains '\\' && longestRun '"' 0 s ≤ 2 then writeMultiBasic s
  else if !coded && longestRun '\'' 0 s ≤ 2 then writeMultiLiteral s
  else if lines then writeMultiBasic s
  else writeBasic s

/-- A part of a key: bare if it can be, else in quotes on one line. -/
def writeKeyPart (s : List Char) : List Char :=
  let coded := s.any fun c => needsCode c || c = '\n'
  if !s.isEmpty && s.all isBare then s
  else if !coded && !s.contains '\\' && !s.contains '"' then writeBasic s
  else if !coded && !s.contains '\'' then writeLiteral s
  else writeBasic s

end QuorumKeeper.Toml
