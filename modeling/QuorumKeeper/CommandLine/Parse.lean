import QuorumKeeper.CommandLine.Fault
import QuorumKeeper.CommandLine.Similarity

/-!
# Reading a command line

The words of a command line are read level by level. A flag whose value has not come yet takes the
next word, even the name of a command, unless that word looks like a flag. A value is checked only
when the next flag is read or the level ends; the command is read before that. Two dashes make
operands of all that follows.
-/

set_option autoImplicit false

namespace QuorumKeeper.CommandLine

/-- Why a command line leads to nothing being done: help was asked for; nothing was given, which
shows help too; or there is a fault. -/
inductive Refusal where
  | help (page : String)
  | bare (page : String)
  | fault (f : Fault)
  deriving DecidableEq, Repr

/-- What has been read of a level: the flags with their checked values, the last flag that takes a
value of its own, with its value if that has come, the operands, and whether two dashes have been
read. -/
structure Scan where
  given : List (Flag × String) := []
  pending : Option (Flag × Option String) := none
  operands : List String := []
  onlyOperands : Bool := false

/-- A word that looks like a long flag: the name and what stands behind an equals sign. -/
def longForm? (word : String) : Option (String × Option String) :=
  match word.toList with
  | '-' :: '-' :: c :: rest =>
    let name := (c :: rest).takeWhile (· != '=')
    match (c :: rest).dropWhile (· != '=') with
    | '=' :: value => some (String.ofList name, some (String.ofList value))
    | _ => some (String.ofList name, none)
  | _ => none

/-- A word that looks like a group of short flags. -/
def shortForm? (word : String) : Option (List Char) :=
  match word.toList with
  | '-' :: c :: rest => if c = '-' then none else some (c :: rest)
  | _ => none

namespace Scan

/-- The flags read so far, as they are shown. -/
def shown (s : Scan) : List String :=
  s.given.map fun g => g.1.shown

/-- The next word is the value of a flag, unless it looks like a flag itself. -/
def awaitsValue (s : Scan) : Bool :=
  match s.pending with
  | some (_, none) => true
  | _ => false

end Scan

namespace Level

/-- The word is the name of a command. -/
def isCommand (l : Level) (word : String) : Bool :=
  l.commands.any (·.1 == word)

/-- A fault at this level. -/
def refuse {α : Type} (l : Level) (cause : Cause) (hint : Option Hint) (usage : Option String) :
    Except Refusal α :=
  .error (.fault { cause, hint, usage, hasHelp := l.hasHelp })

/-- Checks a flag with its value. -/
def give (l : Level) (s : Scan) (f : Flag) (value : Option String) : Except Refusal Scan :=
  if f.value.isSome && value.isNone then l.refuse (.valueMissing f.shown) none none
  else if s.given.any (·.1 == f) then l.refuse (.repeated f.shown) none (some l.usage)
  else if value = some "" then l.refuse (.valueMissing f.shown) none none
  else .ok { s with given := s.given ++ [(f, value.getD "")] }

/-- Checks the flag that is still open. -/
def settle (l : Level) (s : Scan) : Except Refusal Scan :=
  match s.pending with
  | none => .ok s
  | some (f, value) => l.give { s with pending := none } f value

/-- Reads a known flag, with what is attached to it. -/
def useFlag (l : Level) (s : Scan) (f : Flag) (attached : Option String) : Except Refusal Scan :=
  match f.value, attached with
  | some _, some value => do
    let s ← l.settle s
    l.give s f (some value)
  | some _, none => do
    let s ← l.settle s
    return { s with pending := some (f, none) }
  | none, some value =>
    let own := if s.given.isEmpty || f == helpFlag then [f.shown] else []
    let others := if s.given.isEmpty then [] else [l.choice]
    l.refuse (.valueUnneeded f.shown value) none (some (l.usageWith (own ++ others)))
  | none, none => do
    let s ← l.settle s
    if f == helpFlag then .error (.help l.help) else l.give s f none

/-- The hint to make an operand of a word, where there are operands. -/
def operandHint (l : Level) (word : String) : Option Hint :=
  if l.operands.isEmpty then none else some (.asOperand word)

/-- Reads a long flag. -/
def useLong (l : Level) (s : Scan) (name : String) (attached : Option String) :
    Except Refusal Scan :=
  match l.long? name with
  | some f => l.useFlag s f attached
  | none =>
    let word := "--" ++ name
    match (similar name (l.allFlags.map Flag.long)).getLast?.bind l.long? with
    | some f =>
      let shown := if s.shown.contains f.shown then s.shown else s.shown ++ [f.shown]
      l.refuse (.unexpected word) (some (.similarFlag ("--" ++ f.long)))
        (some (l.usageWith shown))
    | none => l.refuse (.unexpected word) (l.operandHint word) (some (l.usageWith s.shown))

/-- Reads a group of short flags. The first that takes a value takes the rest of the group. -/
def useShorts (l : Level) : Scan → List Char → Except Refusal Scan
  | s, [] => .ok s
  | s, c :: rest =>
    match l.short? c with
    | none =>
      let word := "-" ++ c.toString
      l.refuse (.unexpected word) (l.operandHint word) (some l.usage)
    | some f =>
      if f.value.isSome then
        let attached := match rest with
          | [] => none
          | '=' :: value => some (String.ofList value)
          | value => some (String.ofList value)
        l.useFlag s f attached
      else
        match l.useFlag s f none with
        | .error r => .error r
        | .ok s => useShorts l s rest

/-- There is room for one more operand. -/
def hasRoom (l : Level) (s : Scan) : Bool :=
  s.operands.length < l.operands.length ||
    (l.operands.getLast?.map Operand.repeated).getD false

/-- Refuses a word for which there is no room. -/
def misplaced {α : Type} (l : Level) (s : Scan) (word : String) : Except Refusal α :=
  if s.onlyOperands && l.isCommand word then
    l.refuse (.unexpected word) (some (.asCommand word)) (some l.usage)
  else if l.commands.isEmpty then l.refuse (.unexpected word) none (some l.usage)
  else
    match similar word (l.commands.map (·.1)) with
    | [] => l.refuse (.unknownCommand word) none (some l.usage)
    | names => l.refuse (.unknownCommand word) (some (.similarCommands names)) (some l.usage)

/-- Reads an operand. -/
def useOperand (l : Level) (s : Scan) (word : String) : Except Refusal Scan :=
  if l.hasRoom s then do
    let s ← l.settle s
    return { s with operands := s.operands ++ [word] }
  else l.misplaced s word

/-- Reads a word that is neither a command nor two dashes. -/
def useWord (l : Level) (s : Scan) (word : String) : Except Refusal Scan :=
  match longForm? word, shortForm? word with
  | some (name, attached), _ => l.useLong s name attached
  | none, some group => l.useShorts s group
  | none, none =>
    match s.pending with
    | some (f, none) => .ok { s with pending := some (f, some word) }
    | _ => l.useOperand s word

/-- Reads words up to the name of a command, which is returned with the words behind it. -/
def scan (l : Level) :
    Scan → List String → Except Refusal (Scan × Option (String × List String))
  | s, [] => .ok (s, none)
  | s, word :: rest =>
    if s.onlyOperands then
      match l.useOperand s word with
      | .error r => .error r
      | .ok s => scan l s rest
    else if !s.awaitsValue && l.isCommand word then .ok (s, some (word, rest))
    else if word = "--" then scan l { s with onlyOperands := true } rest
    else
      match l.useWord s word with
      | .error r => .error r
      | .ok s => scan l s rest

end Level

/-- A command, with what its operands mean if there are enough of them. -/
structure Command (α : Type) where
  name : String
  about : String
  operands : List Operand := []
  read : List String → Option α

/-- A tool with flags of its own and commands. -/
structure Tool (α : Type) where
  name : String
  about : String
  flags : List Flag
  commands : List (Command α)

namespace Tool

variable {α : Type}

/-- What the command that shows help does. -/
def helpAbout : String :=
  "Print this message or the help of the given subcommand(s)"

/-- The level of the tool itself. -/
def root (t : Tool α) : Level where
  path := t.name
  about := t.about
  flags := t.flags
  commands := t.commands.map (fun c => (c.name, c.about)) ++ [("help", helpAbout)]

/-- The level of a command. -/
def level (t : Tool α) (c : Command α) : Level where
  path := t.name ++ " " ++ c.name
  about := c.about
  operands := c.operands

/-- The level of the command that shows help. -/
def helpLevel (t : Tool α) : Level where
  path := t.name ++ " help"
  about := helpAbout
  operands :=
    [{ name := "COMMAND", about := "Print help for the subcommand(s)", required := false,
       repeated := true }]
  hasHelp := false

/-- The command with a name. -/
def command? (t : Tool α) (name : String) : Option (Command α) :=
  t.commands.find? (·.name == name)

/-- The level that a name leads to. -/
def level? (t : Tool α) (name : String) : Option Level :=
  if name = "help" then some t.helpLevel else (t.command? name).map t.level

/-- What the command that shows help answers. -/
def helpOn (t : Tool α) : List String → Refusal
  | [] => .help t.root.help
  | name :: rest =>
    match t.level? name, rest with
    | none, _ => .fault { cause := .unknownCommand name, usage := some t.root.usage }
    | some l, [] => .help l.help
    | some l, word :: _ =>
      .fault { cause := .unknownCommand word, usage := some l.usage, hasHelp := l.hasHelp }

/-- Reads the words behind the name of a command. -/
def readCommand (t : Tool α) (c : Command α) (words : List String) : Except Refusal α := do
  let l := t.level c
  let (s, _) ← l.scan {} words
  let s ← l.settle s
  match c.read s.operands with
  | some a => return a
  | none =>
    let missing := (c.operands.drop s.operands.length).map Operand.shown
    l.refuse (.operandsMissing missing) none (some l.usage)

/-- Reads a command line: the flags of the tool and what its command means. -/
def parse (t : Tool α) (words : List String) : Except Refusal (List (Flag × String) × α) := do
  let l := t.root
  let (s, next) ← l.scan {} words
  match next with
  | none =>
    let s ← l.settle s
    if s.given.isEmpty then .error (.bare l.help)
    else l.refuse (.commandMissing t.name (l.commands.map (·.1))) none (some l.usage)
  | some (name, rest) =>
    match t.command? name with
    | none => .error (t.helpOn rest)
    | some c =>
      let a ← t.readCommand c rest
      let s ← l.settle s
      return (s.given, a)

end Tool

end QuorumKeeper.CommandLine
