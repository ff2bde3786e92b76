/-!
# What a command line may hold

A tool has flags of its own and commands. A flag may take a value; a command takes operands by
their position, of which the last may be repeated. Every tool and command also knows the flag that
shows its help.

From this the usage line and the help page are written.
-/

set_option autoImplicit false

namespace QuorumKeeper.CommandLine

/-- A flag, with the name of the value it takes, if it takes one. -/
structure Flag where
  long : String
  short : Option Char := none
  value : Option String := none
  about : String
  default : Option String := none
  deriving DecidableEq, Repr

/-- An operand of a command. -/
structure Operand where
  name : String
  about : String := ""
  required : Bool := true
  repeated : Bool := false
  deriving DecidableEq, Repr

/-- One level of a command line: the tool itself or one of its commands. `path` has the words that
lead to it, `commands` the names of the commands below it with what they do, and `hasHelp` tells
whether it knows the flag that shows help. -/
structure Level where
  path : String
  about : String
  flags : List Flag := []
  operands : List Operand := []
  commands : List (String × String) := []
  hasHelp : Bool := true
  deriving DecidableEq, Repr

/-- The flag that shows help. -/
def helpFlag : Flag where
  long := "help"
  short := some 'h'
  about := "Print help"

namespace Flag

/-- The flag as it is shown in messages. -/
def shown (f : Flag) : String :=
  "--" ++ f.long ++
    match f.value with
    | some name => " <" ++ name ++ ">"
    | none => ""

/-- The flag as it is shown in a help page. -/
def label (f : Flag) : String :=
  let short := match f.short with
    | some c => "-" ++ c.toString ++ ", "
    | none => "    "
  short ++ f.shown

/-- What the flag does, with its default. -/
def description (f : Flag) : String :=
  f.about ++
    match f.default with
    | some value => " [default: " ++ value ++ "]"
    | none => ""

end Flag

namespace Operand

/-- The operand as it is shown. -/
def shown (o : Operand) : String :=
  (if o.required then "<" ++ o.name ++ ">" else "[" ++ o.name ++ "]") ++
    if o.repeated then "..." else ""

end Operand

namespace Level

/-- All flags. -/
def allFlags (l : Level) : List Flag :=
  if l.hasHelp then l.flags ++ [helpFlag] else l.flags

/-- The flag with a long name. -/
def long? (l : Level) (name : String) : Option Flag :=
  l.allFlags.find? (·.long == name)

/-- The flag with a short name. -/
def short? (l : Level) (c : Char) : Option Flag :=
  l.allFlags.find? (·.short == some c)

/-- The operands and the place of a command, each after a blank. -/
def tail (l : Level) : String :=
  let operands := l.operands.map fun o => " " ++ o.shown
  "".intercalate operands ++ if l.commands.isEmpty then "" else " <COMMAND>"

/-- The usage line in general. -/
def usage (l : Level) : String :=
  "Usage: " ++ l.path ++ (if l.flags.isEmpty then "" else " [OPTIONS]") ++ l.tail

/-- The usage line for somebody who uses certain flags. -/
def usageWith (l : Level) (shown : List String) : String :=
  if shown.isEmpty then l.usage
  else "Usage: " ++ l.path ++ "".intercalate (shown.map (" " ++ ·)) ++ l.tail

/-- The flags of the level as a choice. -/
def choice (l : Level) : String :=
  "<" ++ "|".intercalate (l.flags.map Flag.shown) ++ ">"

/-- Lines of a name and a description each, with the descriptions below each other. -/
def column (rows : List (String × String)) : String :=
  let width := rows.foldl (fun n row => max n row.1.length) 0
  "".intercalate (rows.map fun (name, about) =>
    "  " ++ name ++ String.ofList (List.replicate (width - name.length) ' ') ++ "  " ++ about ++
      "\n")

/-- A part of a help page with its heading, if there is anything in it. -/
def paragraph (heading : String) (rows : List (String × String)) : String :=
  if rows.isEmpty then "" else "\n" ++ heading ++ ":\n" ++ column rows

/-- The help page. -/
def help (l : Level) : String :=
  l.about ++ "\n\n" ++ l.usage ++ "\n" ++ paragraph "Commands" l.commands ++
    paragraph "Arguments" (l.operands.map fun o => (o.shown, o.about)) ++
    paragraph "Options" (l.allFlags.map fun f => (f.label, f.description))

end Level

end QuorumKeeper.CommandLine
