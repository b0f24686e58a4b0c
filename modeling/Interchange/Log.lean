/-!
# Log events

What the library does along the way is told as values: each activity has a function that lists the
events it gives rise to, in the order in which they happen.
-/

namespace Interchange

/-- How much an event matters. -/
inductive LogLevel
  | trace
  | debug
  | info
  | warn
  | error
  deriving DecidableEq, Repr

/-- The name of a level. -/
def LogLevel.text : LogLevel → String
  | .trace => "TRACE"
  | .debug => "DEBUG"
  | .info => "INFO"
  | .warn => "WARN"
  | .error => "ERROR"

/-- The rank of a level; a more important one ranks higher. -/
def LogLevel.rank : LogLevel → Nat
  | .trace => 0
  | .debug => 1
  | .info => 2
  | .warn => 3
  | .error => 4

/-- The part of the service that an event comes from. -/
inductive LogSource
  | rules
  | search
  | network
  | routes
  | startup
  deriving DecidableEq, Repr

/-- The name under which a part of the service logs. -/
def LogSource.target : LogSource → String
  | .rules => "transfer_server::transfer::generator"
  | .search => "transfer_server::transfer::search"
  | .network => "transfer_server::data::transit_data"
  | .routes => "transfer_server::web::routes"
  | .startup => "transfer_server"

/-- An event, with its named fields in order. -/
structure Event where
  level : LogLevel
  source : LogSource
  message : String
  fields : List (String × String)
  deriving DecidableEq, Repr

/-- The line of an event: the message and behind it the fields. -/
def Event.line (e : Event) : String :=
  e.fields.foldl (fun line f => line ++ " " ++ f.1 ++ "=" ++ f.2) e.message

end Interchange
