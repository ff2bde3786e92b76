import QuorumKeeper.Text.Quoted
import QuorumKeeper.Text.Utf8
import QuorumKeeper.Tls.Base64

/-!
# PEM sections

Binary objects in a text: a line that begins a section and names its kind, letters, and a line that
ends the section. Text between sections is passed over, and so are sections of unknown kinds.
-/

set_option autoImplicit false

namespace QuorumKeeper.Tls

/-- Why a text is not read as PEM. -/
inductive PemFault where
  | missingEnd (label : String)
  | illegalStart (line : String)
  | letters (fault : Base64.Fault)
  deriving DecidableEq, Repr

namespace PemFault

/-- The text shown to an operator. -/
def text : PemFault → String
  | missingEnd label => "section end " ++ Text.quoted label ++ " missing"
  | illegalStart line => "illegal section start: " ++ Text.quoted line
  | letters fault => fault.text

end PemFault

/-- An object of a text: its label and its bytes. -/
structure PemSection where
  label : String
  bytes : List UInt8
  deriving DecidableEq, Repr

namespace Pem

/-- The labels of sections that are read. -/
def knownLabels : List String :=
  ["CERTIFICATE", "PUBLIC KEY", "RSA PRIVATE KEY", "PRIVATE KEY", "EC PRIVATE KEY", "X509 CRL",
    "CERTIFICATE REQUEST", "ECHCONFIG"]

/-- The labels of private keys. -/
def keyLabels : List String :=
  ["RSA PRIVATE KEY", "PRIVATE KEY", "EC PRIVATE KEY"]

/-- The lines of a text, each with the character that ends it, after a line that has begun with the
given characters in reverse. -/
def splitLines : (begun : List Char) → List Char → List (List Char)
  | [], [] => []
  | begun, [] => [begun.reverse]
  | begun, c :: rest =>
    if c = '\n' ∨ c = '\r' then (c :: begun).reverse :: splitLines [] rest
    else splitLines (c :: begun) rest

/-- How a line begins that begins a section. -/
def beginMark : List Char := "-----BEGIN ".toList

/-- How a line begins that ends a section. -/
def endMark : List Char := "-----END ".toList

/-- The label of a line that begins a section; the line must end with exactly five dashes. -/
def labelOf? (line : List Char) : Option (List Char) :=
  let reversed := line.reverse.dropWhile fun c => c = '\n' || c = '\r' || c = ' '
  if (reversed.takeWhile (· == '-')).length = 5 then
    some ((reversed.drop 5).reverse.drop beginMark.length)
  else none

/-- The line ends a section with the given label. -/
def endsSection (label line : List Char) : Bool :=
  (endMark ++ label ++ "-----".toList).isPrefixOf line

/-- The bytes of a line. -/
def lineBytes (line : List Char) : List UInt8 :=
  Text.utf8 (String.ofList line)

/-- The next section of the given lines, with the lines behind it. `open_` is the label of the
section that the lines are in, and `letters` is what has been collected for it. -/
def next (open_ : Option (List Char)) (letters : List UInt8) :
    List (List Char) → Except PemFault (Option (PemSection × List (List Char)))
  | [] =>
    match open_ with
    | some label => .error (.missingEnd (String.ofList label))
    | none => .ok none
  | line :: rest =>
    if beginMark.isPrefixOf line then
      match labelOf? line with
      | none => .error (.illegalStart (String.ofList line))
      | some label => next (some label) letters rest
    else
      match open_ with
      | none => next none letters rest
      | some label =>
        if endsSection label line then
          if knownLabels.contains (String.ofList label) then
            match Base64.decode letters with
            | .error fault => .error (.letters fault)
            | .ok bytes => .ok (some (⟨String.ofList label, bytes⟩, rest))
          else next none [] rest
        else next open_ (letters ++ lineBytes line) rest

/-- All sections of the lines, up to the first fault; `fuel` bounds their number. -/
def sectionsWithin : (fuel : Nat) → List (List Char) → List PemSection × Option PemFault
  | 0, _ => ([], none)
  | fuel + 1, lines =>
    match next none [] lines with
    | .error fault => ([], some fault)
    | .ok none => ([], none)
    | .ok (some (s, rest)) =>
      let (ss, fault) := sectionsWithin fuel rest
      (s :: ss, fault)

/-- All sections of a text, up to the first fault. -/
def sections (text : String) : List PemSection × Option PemFault :=
  let lines := splitLines [] text.toList
  sectionsWithin (lines.length + 1) lines

/-- The certificates of a text. -/
def certificates (text : String) : Except PemFault (List (List UInt8)) :=
  match sections text with
  | (_, some fault) => .error fault
  | (ss, none) => .ok ((ss.filter (·.label == "CERTIFICATE")).map (·.bytes))

/-- The first private key of a text. A fault behind it is not seen. -/
def privateKey (text : String) : Except PemFault (Option PemSection) :=
  match sections text with
  | (ss, fault) =>
    match ss.find? fun s => keyLabels.contains s.label, fault with
    | some key, _ => .ok (some key)
    | none, some fault => .error fault
    | none, none => .ok none

/-- Lines of at most 64 letters. -/
def wrap : (fuel : Nat) → List Char → List Char
  | 0, _ => []
  | fuel + 1, cs =>
    if cs.isEmpty then [] else cs.take 64 ++ '\n' :: wrap fuel (cs.drop 64)

/-- Writes a section. -/
def encode (label : String) (bytes : List UInt8) : String :=
  let letters := Base64.encode bytes
  "-----BEGIN " ++ label ++ "-----\n" ++ String.ofList (wrap letters.length letters) ++
    "-----END " ++ label ++ "-----\n"

end Pem

end QuorumKeeper.Tls
