import QuorumKeeper.Toml.Document
import QuorumKeeper.Toml.Number
import QuorumKeeper.Toml.Quoted

/-!
# Reading a document

`parse?` reads a text as a TOML document. Values are nested in arrays and inline tables down to a
limited depth, which is what the readers of values recurse on; a reader of a list recurses on a
bound for its number of entries, for which the length of the text is always enough.
-/

set_option autoImplicit false

namespace QuorumKeeper.Toml

/-- How deep arrays and inline tables may be nested. -/
def maxDepth : Nat := 79

/-- A comment at the front, as far as it goes. -/
def skipComment : List Char → List Char
  | '#' :: rest => rest.dropWhile isText
  | s => s

/-- What follows the end of the line: a comment may stand before it. -/
def readLineEnd (s : List Char) : Option (List Char) :=
  match skipComment (s.dropWhile isSpace) with
  | [] => some []
  | rest => newline? rest

/-- Passes over blanks, line ends and comments, each of which ends at a line end. -/
def skipTrivia : (comment : Bool) → List Char → Option (List Char)
  | true, [] => none
  | false, [] => some []
  | _, '\r' :: '\n' :: rest => skipTrivia false rest
  | _, '\n' :: rest => skipTrivia false rest
  | true, c :: rest => if isText c then skipTrivia true rest else none
  | false, c :: rest =>
    if isSpace c then skipTrivia false rest
    else if c = '#' then skipTrivia true rest
    else some (c :: rest)

/-- A value without parts. -/
def readScalar (s : List Char) : Option (Value × List Char) :=
  match s with
  | '"' :: _ | '\'' :: _ => (readString s).map fun (cs, rest) => (.string (String.ofList cs), rest)
  | 't' :: 'r' :: 'u' :: 'e' :: rest => some (.boolean true, rest)
  | 'f' :: 'a' :: 'l' :: 's' :: 'e' :: rest => some (.boolean false, rest)
  | _ => (readDate s).or (readNumber s)

/-- The rest of an array, given a reader of its items. A comma may stand behind the last one. -/
def readItems (value : List Char → Option (Value × List Char)) :
    (bound : Nat) → List Char → Option (List Value × List Char)
  | 0, _ => none
  | bound + 1, s =>
    match skipTrivia false s with
    | none => none
    | some (']' :: rest) => some ([], rest)
    | some s =>
      match value s with
      | none => none
      | some (v, rest) =>
        match skipTrivia false rest with
        | some (',' :: rest) => (readItems value bound rest).map fun (vs, rest) => (v :: vs, rest)
        | some (']' :: rest) => some ([v], rest)
        | _ => none

/-- A key, an equals sign and a value. -/
def readPair (value : List Char → Option (Value × List Char)) (s : List Char) :
    Option ((List String × Value) × List Char) :=
  match readKey maxKeyParts s with
  | some (path, '=' :: rest) =>
    (value (rest.dropWhile isSpace)).map fun (v, rest) => ((path, v), rest)
  | _ => none

/-- The rest of an inline table behind its first brace or a comma. -/
def readPairs (value : List Char → Option (Value × List Char)) :
    (bound : Nat) → List Char → Option (List (List String × Value) × List Char)
  | 0, _ => none
  | bound + 1, s =>
    match readPair value s with
    | none => none
    | some (pair, rest) =>
      match rest.dropWhile isSpace with
      | ',' :: rest => (readPairs value bound rest).map fun (ps, rest) => (pair :: ps, rest)
      | '\x7d' :: rest => some ([pair], rest)
      | _ => none

/-- The table that the pairs of an inline table make. -/
def inlineTable? (pairs : List (List String × Value)) : Option Value :=
  (pairs.foldlM (fun entries (path, v) => Entries.assign entries path v) []).map
    (.table .inline)

/-- The rest of an inline table. -/
def readInline (value : List Char → Option (Value × List Char)) (s : List Char) :
    Option (Value × List Char) :=
  match s.dropWhile isSpace with
  | '\x7d' :: rest => some (.table .inline [], rest)
  | s =>
    match readPairs value s.length s with
    | none => none
    | some (pairs, rest) => (inlineTable? pairs).map (·, rest)

/-- A value, nested at most `depth` deep. -/
def readValue : (depth : Nat) → List Char → Option (Value × List Char)
  | 0, s =>
    match s with
    | '[' :: _ | '\x7b' :: _ => none
    | _ => readScalar s
  | depth + 1, s =>
    match s with
    | '[' :: rest =>
      (readItems (readValue depth) rest.length rest).map fun (vs, rest) => (.array vs, rest)
    | '\x7b' :: rest => readInline (readValue depth) rest
    | _ => readScalar s

/-- A header or an assignment with the end of its line. -/
def readStatement (s : List Char) : Option (Statement × List Char) :=
  match s with
  | '[' :: '[' :: rest =>
    match readKey maxKeyParts rest with
    | some (path, ']' :: ']' :: rest) => (readLineEnd rest).map (.element path, ·)
    | _ => none
  | '[' :: rest =>
    match readKey maxKeyParts rest with
    | some (path, ']' :: rest) => (readLineEnd rest).map (.header path, ·)
    | _ => none
  | _ =>
    match readPair (readValue maxDepth) s with
    | some ((path, v), rest) => (readLineEnd rest).map (.assign path v, ·)
    | none => none

/-- All statements up to the end; every one takes at least one character. -/
def readStatements : (bound : Nat) → List Char → Option (List Statement)
  | 0, s => if s.isEmpty then some [] else none
  | bound + 1, s =>
    match s.dropWhile isSpace with
    | [] => some []
    | c :: rest =>
      if c = '#' ∨ c = '\n' ∨ c = '\r' then
        (readLineEnd (c :: rest)).bind (readStatements bound)
      else
        match readStatement (c :: rest) with
        | none => none
        | some (statement, rest) => (readStatements bound rest).map (statement :: ·)

/-- The text without a byte order mark at its front. -/
def skipMark : List Char → List Char
  | '\uFEFF' :: rest => rest
  | s => s

/-- The table of a document, or nothing if the text is not TOML. -/
def parse? (text : String) : Option Entries :=
  let s := skipMark text.toList
  (readStatements (s.length + 1) s).bind Document.ofStatements?

end QuorumKeeper.Toml
