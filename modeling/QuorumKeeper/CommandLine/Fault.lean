import QuorumKeeper.CommandLine.Syntax

/-!
# What can be wrong with a command line

A fault has a cause, perhaps a hint at what was meant, and mostly the usage line.
-/

set_option autoImplicit false

namespace QuorumKeeper.CommandLine

/-- Why a command line is refused. An argument is `unexpected` if there is no such flag, or no room
for an operand; a value is missing or not needed where a flag takes one or none; and a flag is
`repeated` if it is given twice. -/
inductive Cause where
  | unexpected (argument : String)
  | unknownCommand (word : String)
  | valueMissing (flag : String)
  | valueUnneeded (flag value : String)
  | repeated (flag : String)
  | operandsMissing (operands : List String)
  | commandMissing (tool : String) (commands : List String)
  deriving DecidableEq, Repr

/-- What might have been meant: a similar word; an operand, behind two dashes; or a command, if the
two dashes are left out. -/
inductive Hint where
  | similarCommands (names : List String)
  | similarFlag (shown : String)
  | asOperand (argument : String)
  | asCommand (name : String)
  deriving DecidableEq, Repr

/-- A refused command line. With `hasHelp`, help can be asked for with a flag. -/
structure Fault where
  cause : Cause
  hint : Option Hint := none
  usage : Option String := none
  hasHelp : Bool := true
  deriving DecidableEq, Repr

namespace Cause

/-- The text shown to a user. -/
def text : Cause → String
  | unexpected argument => "unexpected argument '" ++ argument ++ "' found"
  | unknownCommand word => "unrecognized subcommand '" ++ word ++ "'"
  | valueMissing flag => "a value is required for '" ++ flag ++ "' but none was supplied"
  | valueUnneeded flag value =>
    "unexpected value '" ++ value ++ "' for '" ++ flag ++ "' found; no more were expected"
  | repeated flag => "the argument '" ++ flag ++ "' cannot be used multiple times"
  | operandsMissing operands =>
    "the following required arguments were not provided:" ++
      "".intercalate (operands.map ("\n  " ++ ·))
  | commandMissing tool commands =>
    "'" ++ tool ++ "' requires a subcommand but one was not provided\n  [subcommands: " ++
      ", ".intercalate commands ++ "]"

end Cause

namespace Hint

/-- A word in quotes. -/
def inQuotes (word : String) : String :=
  "'" ++ word ++ "'"

/-- The text shown to a user. -/
def text : Hint → String
  | similarCommands [name] => "a similar subcommand exists: " ++ inQuotes name
  | similarCommands names =>
    "some similar subcommands exist: " ++ ", ".intercalate (names.map inQuotes)
  | similarFlag shown => "a similar argument exists: " ++ inQuotes shown
  | asOperand argument =>
    "to pass " ++ inQuotes argument ++ " as a value, use " ++ inQuotes ("-- " ++ argument)
  | asCommand name =>
    "subcommand " ++ inQuotes name ++ " exists; to use it, remove the '--' before it"

end Hint

namespace Fault

/-- The text shown to a user. -/
def text (f : Fault) : String :=
  let hint := match f.hint with
    | some h => "\n\n  tip: " ++ h.text
    | none => ""
  let usage := match f.usage with
    | some u => "\n\n" ++ u
    | none => ""
  "error: " ++ f.cause.text ++ hint ++ usage ++
    if f.hasHelp then "\n\nFor more information, try '--help'.\n" else "\n"

end Fault

end QuorumKeeper.CommandLine
