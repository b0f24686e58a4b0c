import Interchange.Service.Message
import Interchange.Text.Percent

/-!
# The service

The service answers requests about a loaded network:

* `GET /health` tells that it runs;
* `GET /patterns/<pattern>/transfers/<position>` tells whether rules may apply at a position, for
  the direction given by the query;
* `POST /transfers/search` runs a search.

`Service.hasRules` and `Service.search` are the two queries, and `Service.respond` the whole way from
a request to its response and the events that are logged.
-/

namespace Interchange

/-- A request: its method, its target (path and query), and its body. -/
structure HttpRequest where
  method : String
  target : String
  body : List UInt8

/-- What a response carries. -/
inductive HttpBody
  | none
  | plain (text : String)
  | json (value : Json)

/-- A response. -/
structure HttpResponse where
  status : Nat
  body : HttpBody

/-- A loaded network with the settings for searching it. -/
structure Service where
  network : Network
  config : SearchConfig

/-! ## Routes -/

/-- What the path of a request leads to. The two segments that name a pattern and a position are
still encoded. -/
inductive Route
  | health
  | hasRules (pattern position : List Char)
  | search

namespace Route

/-- The route of a path. The segment of the pattern may be empty, that of the position may not. -/
def ofPath? (path : List Char) : Option Route :=
  match (Split.pieces '/' path).map String.ofList with
  | ["", "health"] => some .health
  | ["", "transfers", "search"] => some .search
  | ["", "patterns", pattern, "transfers", position] =>
    if position = "" then none else some (.hasRules pattern.toList position.toList)
  | _ => none

/-- Whether a route takes a method. A request for the head alone is taken like one for the whole. -/
def takes (r : Route) (method : String) : Bool :=
  match r with
  | .search => method == "POST"
  | _ => method == "GET" || method == "HEAD"

end Route

namespace Service

variable (s : Service)

/-! ## Queries -/

/-- The direction that a query names, forward when it names none. -/
def direction : Option String → Except ServiceFault Direction
  | none => .ok .forward
  | some "forward" => .ok .forward
  | some "reverse" => .ok .reverse
  | some text => .error (.direction text)

/-- Whether rules may apply at a position of a pattern, all given as texts. -/
def hasRules (pattern position : String) (direction? : Option String) :
    Except ServiceFault Bool := do
  let pattern ← ServiceFault.check (Id.parse pattern)
  match Decimal.unsigned Decimal.wordBound position with
  | .error _ => .error (.position position)
  | .ok p =>
    let d ← direction direction?
    match s.network.hasRules pattern d p with
    | .ok b => .ok b
    | .error fault => .error (.unknown fault)

/-- The query that the body of a search request stands for. -/
def readQuery (body : Source) : Except ServiceFault Network.Query :=
  match SearchRequest.format.ofSource body with
  | .error fault => .error (.body fault)
  | .ok request => request.query

/-- The answer to a search request. -/
def search (body : Source) : Except ServiceFault (Option BoardingAnswer) := do
  let query ← readQuery body
  match s.network.boarding s.config query with
  | .ok b => .ok (b.map (BoardingAnswer.ofBoarding s.network.timetable.stops))
  | .error fault => .error (.unknown fault)

/-! ## What is logged -/

/-- What is logged for a request that is refused. -/
def faultEvents (fault : ServiceFault) : List Event :=
  [⟨.warn, .routes, fault.message, [("status", fault.statusText)]⟩]

/-- What is logged by a search request. -/
def searchEvents (body : Source) : List Event :=
  match readQuery body with
  | .error (.body fault) =>
    ⟨.warn, .routes, "Invalid search request", [("body", body.lossyText)]⟩ ::
      faultEvents (.body fault)
  | .error fault => faultEvents fault
  | .ok query =>
    s.network.boardingEvents s.config query ++
      match s.network.boarding s.config query with
      | .ok _ => []
      | .error fault => faultEvents (.unknown fault)

/-! ## Responses -/

/-- The response to a request that is refused. -/
def refusal (fault : ServiceFault) : HttpResponse :=
  ⟨fault.status, .json (Json.obj [("error", .str fault.message)])⟩

/-- The response with a result, made into JSON, or with the fault in its place. -/
def respondWith {α : Type} (json : α → Json) : Except ServiceFault α → HttpResponse
  | .ok a => ⟨200, .json (json a)⟩
  | .error fault => refusal fault

/-- A response without content. -/
def bare (status : Nat) : HttpResponse := ⟨status, .none⟩

/-- The response to a question about a position, given its result, and what is logged. -/
def answerHasRules (result : Except ServiceFault Bool) : HttpResponse × List Event :=
  ( respondWith (fun b => Json.obj [("exists", .bool b)]) result,
    match result with
    | .ok _ => []
    | .error fault => faultEvents fault )

/-- The response to a question about a position, and what is logged. A segment that is no text, or a
direction that is given twice, is refused without a word. -/
def respondHasRules (pattern position : List Char) (query : List Char) :
    HttpResponse × List Event :=
  match (Percent.decode pattern).text?, (Percent.decode position).text?,
      (Percent.form query).filter fun e => e.1 == "direction" with
  | some pattern, some position, [] => answerHasRules (s.hasRules pattern position none)
  | some pattern, some position, [(_, direction)] =>
    answerHasRules (s.hasRules pattern position (some direction))
  | _, _, _ => (bare 400, [])

/-- The response of a route, and what is logged. -/
def respondAt (query : List Char) (body : Source) : Route → HttpResponse × List Event
  | .health => (⟨200, .plain "ok"⟩, [])
  | .hasRules pattern position => s.respondHasRules pattern position query
  | .search =>
    ( respondWith (fun b => Json.obj [("boarding", Json.orNull BoardingAnswer.json b)])
        (s.search body),
      s.searchEvents body )

/-- The head of a response alone: JSON is left out, and so is the content of a plain text. -/
def headOnly (r : HttpResponse) : HttpResponse :=
  match r.body with
  | .plain _ => { r with body := .plain "" }
  | _ => { r with body := .none }

/-- The response to a request, and what is logged. What follows `#` in the target is dropped. -/
def respond (r : HttpRequest) : HttpResponse × List Event :=
  let target := (Split.cut '#' r.target.toList).1
  let (path, query) := Split.cut '?' target
  match Route.ofPath? path with
  | none => (bare 404, [])
  | some route =>
    if route.takes r.method then
      let (response, events) := s.respondAt (query.getD []) (Utf8.decode r.body) route
      (if r.method == "HEAD" then headOnly response else response, events)
    else (bare 405, [])

end Service

end Interchange
