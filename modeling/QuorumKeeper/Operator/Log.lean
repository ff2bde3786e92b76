import QuorumKeeper.Event
import QuorumKeeper.Text.Json

/-!
# Events as lines

An event is written for an operator as one line: its level, the part of the program it comes from,
the message and the fields, either plainly or as JSON.
-/

set_option autoImplicit false

namespace QuorumKeeper

namespace FieldValue

/-- The value as it stands in a plain line. -/
def plain : FieldValue → String
  | text s => s
  | number n => Text.decimal n

/-- The value as JSON. -/
def json : FieldValue → String
  | text s => Text.json s
  | number n => Text.decimal n

end FieldValue

namespace Event

/-- The event as a plain line. -/
def plainLine (e : Event) : String :=
  let fields := e.fields.map fun (name, value) => " " ++ name ++ "=" ++ value.plain
  e.level.name ++ " " ++ e.target ++ ": " ++ e.message ++ "".intercalate fields ++ "\n"

/-- The event as a line of JSON. -/
def jsonLine (e : Event) : String :=
  let fields := e.fields.map fun (name, value) => "," ++ Text.json name ++ ":" ++ value.json
  "\x7b\"level\":" ++ Text.json e.level.name ++ ",\"fields\":\x7b\"message\":" ++
    Text.json e.message ++ "".intercalate fields ++ "\x7d,\"target\":" ++ Text.json e.target ++
    "\x7d\n"

end Event

end QuorumKeeper
