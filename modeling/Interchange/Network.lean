import Interchange.Rule.Book
import Interchange.Search
import Interchange.Snapshot
import Interchange.Table

/-!
# Networks

A network is a snapshot that was found sound, with its rule book, ready to be queried.

* `Network.build` — registers the stops, makes the patterns, notes where patterns and trips stand, and
  applies the rules. It tells the first fault of the timetable; rules that cannot be used are no fault
  but issues of the rule book.
* `Network.pattern?`, `Network.rules?` and `Network.locate?` — look ids up in the tables that were made
  while building.
* `Network.hasRules` and `Network.boarding` — the queries, in terms of ids. Of several unknown ids
  the pattern is told first, then the trip, then the stop.
-/

namespace Interchange

/-! ## Faults -/

/-- Why a data set cannot be used. -/
inductive LoadFault
  | unreadable (path reason : String)
  | invalid (fault : DecodeFault)
  | timetable (fault : TimetableFault)
  | unknownStop (pattern : PatternId) (stop : StopId)
  | duplicatePattern (pattern : PatternId)
  | duplicateTrip (trip : TripId)
  deriving DecidableEq

/-- The wording of a fault. -/
def LoadFault.message : LoadFault → String
  | .unreadable path reason => "failed to read " ++ path ++ ": " ++ reason
  | .invalid fault => "invalid transit data: " ++ fault.message
  | .timetable fault => fault.message
  | .unknownStop pattern stop =>
    "pattern " ++ pattern.text ++ " refers to unknown stop " ++ stop.text
  | .duplicatePattern pattern => "duplicate pattern " ++ pattern.text
  | .duplicateTrip trip => "duplicate trip " ++ trip.text

/-- Which thing that a query names is not in the network. -/
inductive QueryFault
  | unknownPattern (pattern : PatternId)
  | unknownTrip (trip : TripId)
  | unknownStop (stop : StopId)
  deriving DecidableEq

/-- The wording of a fault. -/
def QueryFault.message : QueryFault → String
  | .unknownPattern pattern => "unknown pattern " ++ pattern.text
  | .unknownTrip trip => "unknown trip " ++ trip.text
  | .unknownStop stop => "unknown stop " ++ stop.text

/-! ## Building -/

/-- A sound timetable with the rules that apply to it, and two tables: the place of the pattern with an id,
and for the id of a trip the place of its pattern with the number of the trip there. -/
structure Network where
  timetable : Timetable
  book : RuleBook
  patternPlaces : Table PatternId Nat
  tripPlaces : Table TripId (Nat × Nat)

/-- The patterns made so far, and the place of each by its id. -/
structure PatternTable where
  row : List Pattern
  places : Table PatternId Nat

/-- No patterns. -/
def PatternTable.empty : PatternTable := ⟨[], .empty⟩

namespace Network

/-- Registers stops in order. -/
def registerStops (s : StopIndex) : List Stop → Except LoadFault StopIndex
  | [] => .ok s
  | stop :: rest =>
    match s.add? stop with
    | some (s', _) => registerStops s' rest
    | none => .error (.timetable (.duplicateStop stop.id))

/-- The ordinals of the stops of a pattern. -/
def ordinals (s : StopIndex) (pattern : PatternId) : List StopId → Except LoadFault (List StopOrdinal)
  | [] => .ok []
  | stop :: rest =>
    match s.ordinal? stop with
    | some o => do return o :: (← ordinals s pattern rest)
    | none => .error (.unknownStop pattern stop)

/-- A result of the timetable as a result of loading. -/
def lift {α : Type} : Except TimetableFault α → Except LoadFault α
  | .ok a => .ok a
  | .error fault => .error (.timetable fault)

/-- Makes the trips of a pattern in order. -/
def makeTrips (route : RouteId) : List TripRecord → Except LoadFault (List Trip)
  | [] => .ok []
  | t :: rest => do
    let trip ← lift (Trip.ofTimes t.id route t.arrivals (t.departures.getD t.arrivals))
    return trip :: (← makeTrips route rest)

/-- Makes one pattern: its stops are looked up first, then its trips are made. -/
def makePattern (s : StopIndex) (r : PatternRecord) : Except LoadFault Pattern := do
  let stops ← ordinals s r.id r.stops
  let trips ← makeTrips r.route r.trips
  lift (Pattern.ofTrips r.id r.route stops trips)

/-- Makes patterns in order, behind those that are there. The place of a pattern is noted before it is
made; an id that is taken is refused. -/
def makePatterns (s : StopIndex) (made : PatternTable) :
    List PatternRecord → Except LoadFault PatternTable
  | [] => .ok made
  | r :: rest =>
    match made.places.get? r.id with
    | some _ => .error (.duplicatePattern r.id)
    | none => do
      let places := made.places.set r.id made.row.length
      let pattern ← makePattern s r
      makePatterns s ⟨made.row ++ [pattern], places⟩ rest

/-- Notes for trips that they run on the pattern at a place. An id that is taken is refused. -/
def noteTrips (i : Nat) (places : Table TripId (Nat × Nat)) :
    List Trip → Except LoadFault (Table TripId (Nat × Nat))
  | [] => .ok places
  | t :: rest =>
    match places.get? t.id with
    | some _ => .error (.duplicateTrip t.id)
    | none => noteTrips i (places.set t.id (i, t.index)) rest

/-- Notes where the trips of a row of patterns run, of which the first stands at a place. -/
def notePatterns (i : Nat) (places : Table TripId (Nat × Nat)) :
    List Pattern → Except LoadFault (Table TripId (Nat × Nat))
  | [] => .ok places
  | p :: rest => do
    let places ← noteTrips i places p.trips
    notePatterns (i + 1) places rest

/-- The ids of all trips, pattern by pattern in their numbered order. -/
def tripIds (patterns : List Pattern) : List TripId :=
  patterns.flatMap fun p => p.trips.map (·.id)

/-- Builds the network of a snapshot. -/
def build (s : Snapshot) : Except LoadFault Network := do
  let stops ← registerStops .empty s.stops
  let made ← makePatterns stops .empty s.patterns
  let tripPlaces ← notePatterns 0 .empty made.row
  let timetable : Timetable := ⟨stops, made.row⟩
  return ⟨timetable, timetable.ruleBook s.transfers, made.places, tripPlaces⟩

/-- The network of a data set in text form. -/
def ofString (text : String) : Except LoadFault Network :=
  match Snapshot.format.ofString text with
  | .ok s => build s
  | .error fault => .error (.invalid fault)

/-- The network of a data file, given its path and what reading it gave: its bytes, or the reason why
there are none. -/
def ofFile (path : String) : Except String (List UInt8) → Except LoadFault Network
  | .error reason => .error (.unreadable path reason)
  | .ok bytes =>
    match (Utf8.decode bytes).text? with
    | some text => ofString text
    | none => .error (.unreadable path "stream did not contain valid UTF-8")

/-! ## Looking things up -/

variable (n : Network)

/-- The pattern with an id. -/
def pattern? (id : PatternId) : Option Pattern := do
  let i ← n.patternPlaces.get? id
  n.timetable.patterns[i]?

/-- The rules of the pattern with an id. -/
def rules? (id : PatternId) : Option PatternRules := do
  let i ← n.patternPlaces.get? id
  n.book.rules[i]?

/-- The pattern with an id, and its rules. -/
def patternWithRules? (id : PatternId) : Option (Pattern × PatternRules) := do
  let i ← n.patternPlaces.get? id
  return (← n.timetable.patterns[i]?, ← n.book.rules[i]?)

/-- The trip with an id, and the pattern it runs on. -/
def locate? (trip : TripId) : Option (Pattern × Trip) := do
  let (i, k) ← n.tripPlaces.get? trip
  let pattern ← n.timetable.patterns[i]?
  return (pattern, ← pattern.trips[k]?)

/-- The rules that are not used, with the reasons. -/
def issues : List Issue := n.book.issues

/-! ## Queries -/

/-- From when on an ordinary transfer is possible: a time, or a slack behind the source time in
search order. -/
inductive Earliest
  | at (time : Time)
  | slack (slack : Slack)
  deriving DecidableEq

/-- A search in terms of ids. -/
structure Query where
  pattern : PatternId
  position : Position
  direction : Direction
  sourceTrip : TripId
  sourceStop : StopId
  sourceTime : Time
  earliest : Earliest
  deriving DecidableEq

/-- Whether any rule may apply at a position of a pattern. -/
def hasRules (pattern : PatternId) (d : Direction) (p : Position) : Except QueryFault Bool :=
  match n.rules? pattern with
  | some rules => .ok ((rules.index d).hasRules p)
  | none => .error (.unknownPattern pattern)

/-- The request that a query makes of a source trip at a stop. -/
def Query.request (q : Query) (trip : Trip) (stop : StopOrdinal) : BoardingRequest :=
  match q.earliest with
  | .at time => ⟨trip, stop, q.sourceTime, time⟩
  | .slack slack => .withSlack q.direction trip stop q.sourceTime slack

/-- What a query is about: the pattern, its rules in the direction of the query, and the request. -/
def resolve (q : Query) : Except QueryFault (Pattern × RuleIndex × BoardingRequest) :=
  match n.patternWithRules? q.pattern with
  | none => .error (.unknownPattern q.pattern)
  | some (pattern, rules) =>
    match n.locate? q.sourceTrip with
    | none => .error (.unknownTrip q.sourceTrip)
    | some (_, trip) =>
      match n.timetable.stops.ordinal? q.sourceStop with
      | none => .error (.unknownStop q.sourceStop)
      | some stop => .ok (pattern, rules.index q.direction, q.request trip stop)

/-- The boarding that the rules lead to, if they decide. -/
def boarding (cfg : SearchConfig) (q : Query) : Except QueryFault (Option Boarding) :=
  match n.resolve q with
  | .error fault => .error fault
  | .ok (pattern, index, request) =>
    .ok (Search.boarding? q.direction cfg pattern index q.position request)

/-! ## What is logged -/

/-- What is logged by a search. -/
def boardingEvents (cfg : SearchConfig) (q : Query) : List Event :=
  match n.resolve q with
  | .error _ => []
  | .ok (pattern, index, request) =>
    Search.events q.direction cfg pattern index q.position request

/-- What is logged when a network was built. -/
def buildEvents : List Event :=
  n.book.events ++
    [{ level := .info, source := .network, message := "Built transit data"
       fields :=
         [("stops", Decimal.text n.timetable.stops.size),
          ("patterns", Decimal.text n.timetable.patterns.length),
          ("trips", Decimal.text (tripIds n.timetable.patterns).length),
          ("transfers", Decimal.text n.book.records),
          ("issues", Decimal.text n.issues.length)] }]

/-- What is logged when a network was built from a file. -/
def loadEvents (path : String) : List Event :=
  n.buildEvents ++ [⟨.info, .network, "Loaded transit data", [("path", path)]⟩]

end Network

end Interchange
