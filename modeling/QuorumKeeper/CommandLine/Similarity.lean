/-!
# Similar words

How alike two words are, between nothing and one, by the measure of Jaro: characters match that are
equal and stand at most half the longer length apart, and matches that are out of order count half.
`similar` picks the words that are alike enough to be what a user meant.
-/

set_option autoImplicit false

namespace QuorumKeeper.CommandLine

/-- Marks the first entry that has the character, is not marked and stands at `skip` or later within
the first `take` entries. -/
def mark (c : Char) : (skip take : Nat) → List (Char × Bool) → Option (List (Char × Bool))
  | _, 0, _ => none
  | _, _, [] => none
  | skip, take + 1, (d, marked) :: rest =>
    if skip = 0 && d == c && !marked then some ((d, true) :: rest)
    else (mark c (skip - 1) take rest).map ((d, marked) :: ·)

/-- The characters of the first word that match, in order, and the second word with marks at the
matches. The first word starts at position `i`. -/
def matchUp (range : Nat) : (i : Nat) → List Char → List (Char × Bool) →
    List Char × List (Char × Bool)
  | _, [], other => ([], other)
  | i, c :: rest, other =>
    match mark c (i - range) (i + range + 1) other with
    | some other =>
      let (found, other) := matchUp range (i + 1) rest other
      (c :: found, other)
    | none => matchUp range (i + 1) rest other

/-- How alike two words are. -/
def similarity (a b : List Char) : Float :=
  if a.isEmpty && b.isEmpty then 1.0
  else
    let range := max a.length b.length / 2 - 1
    let (found, other) := matchUp range 0 a (b.map (·, false))
    let matched := found.length
    if matched = 0 then 0.0
    else
      let there := (other.filter (·.2)).map (·.1)
      let moved := ((found.zip there).filter fun (c, d) => c != d).length / 2
      (matched.toFloat / a.length.toFloat + matched.toFloat / b.length.toFloat +
        (matched - moved).toFloat / matched.toFloat) / 3.0

/-- The words that are alike enough, the most similar last. -/
def similar (word : String) (words : List String) : List String :=
  let scored := words.map fun w => (similarity word.toList w.toList, w)
  ((scored.filter fun s => 0.7 < s.1).mergeSort fun s t => s.1 ≤ t.1).map (·.2)

end QuorumKeeper.CommandLine
