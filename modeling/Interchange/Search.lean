import Interchange.Log
import Interchange.Rule.Index
import Interchange.Timetable

/-!
# The search for a constrained transfer

A rider is on a trip and wants to change to a pattern. `Search.boarding?` tells which trip of that
pattern the rules at the stop position lead to; where it tells none, the ordinary search decides.

* `Search.applicable` — the rules that count: those of the narrowest source side that applies to the
  rider.
* `Search.rule?` — the rule for a trip of the pattern: the first that applies to it, and so the one
  with the narrowest target side.
* `Search.judge` — what the rule and the time of a trip mean for it.
* `Search.scan` — goes through the trips in search order up to the first that decides.

A rule that forbids the transfer to every trip blocks it at the first trip in reach. Where a rule
forbids single trips, the next trip in ordinary reach is taken instead. Otherwise the scan gives up
after a number of trips in ordinary reach, because the ordinary search has found one of those.
-/

namespace Interchange

/-- How a search is run: whether a minimum transfer time holds exactly rather than as a lower bound
beside the earliest boarding, and after how many ordinary trips the scan gives up. -/
structure SearchConfig where
  definitiveMinTime : Bool
  abortAfter : Nat
  deriving DecidableEq

namespace SearchConfig

/-- The usual way: minimum times are lower bounds, and five ordinary trips are enough. -/
def default : SearchConfig := ⟨false, 5⟩

end SearchConfig

/-- The rider's side of a search: the trip that is left or joined, where and when, and from when on
an ordinary transfer is possible. -/
structure BoardingRequest where
  sourceTrip : Trip
  sourceStop : StopOrdinal
  sourceTime : Time
  earliest : Time

namespace BoardingRequest

/-- The request whose ordinary transfers are possible a slack after the source time, in search
order. -/
def withSlack (d : Direction) (trip : Trip) (stop : StopOrdinal) (time : Time) (slack : Slack) :
    BoardingRequest :=
  ⟨trip, stop, time, d.aheadBy time slack⟩

end BoardingRequest

/-- What the rules lead to: a trip of the searched pattern, where and when it is boarded or left, the
earliest ordinary time of the request, and the constraint it is taken under. -/
structure Boarding where
  tripIndex : Nat
  trip : TripId
  position : Position
  stop : StopOrdinal
  time : Time
  earliest : Time
  constraint : Constraint
  deriving DecidableEq

namespace Search

/-! ## The rules that count -/

/-- The entries of a slot that apply to the rider and have the narrowest source side among those. A
slot has its narrowest entries in front, so they are the first that apply and what follows alike. -/
def applicable (s : Slot) (r : BoardingRequest) : List Entry :=
  match s.filter fun e => e.acceptsSource r.sourceStop r.sourceTrip with
  | [] => []
  | e :: rest =>
    e :: rest.takeWhile fun x => decide (x.key.source.specificity = e.key.source.specificity)

/-- The rule for a trip on the searched side. -/
def rule? (rules : List Entry) (t : Trip) : Option Entry := rules.find? fun e => e.acceptsTarget t

/-- The time that a minimum transfer time asks for. -/
def required (d : Direction) (cfg : SearchConfig) (r : BoardingRequest) (seconds : UInt32) : Time :=
  let exact := d.ahead r.sourceTime (min (seconds.toNat : Int) Time.greatest)
  if cfg.definitiveMinTime then exact else d.laterOf exact r.earliest

/-! ## Judging a trip -/

/-- What a rule means for a trip at a time: the transfer is blocked altogether, or forbidden to this
trip; it is granted under a constraint; its minimum time is not met yet; it is an ordinary transfer
that comes too early, or one that is possible. -/
inductive Verdict
  | blocked
  | forbidden
  | facilitated (constraint : Constraint)
  | timeMet (seconds : UInt32)
  | timeUnmet
  | tooEarly
  | ordinary
  deriving DecidableEq

/-- The constraint that a trip is taken under when a verdict decides for it. -/
def Verdict.constraint : Verdict → Constraint
  | .blocked => .notAllowed
  | .facilitated c => c
  | .timeMet seconds => .minTransferTime seconds
  | _ => .regular

/-- The verdict on a trip without a rule of its own. -/
def judgeOrdinary (d : Direction) (r : BoardingRequest) (time : Time) : Verdict :=
  if d.isBefore time r.earliest then .tooEarly else .ordinary

/-- The verdict on a trip that is in reach. -/
def judge (d : Direction) (cfg : SearchConfig) (r : BoardingRequest) (rule : Option Entry)
    (time : Time) : Verdict :=
  match rule with
  | none => judgeOrdinary d r time
  | some e =>
    match e.constraint with
    | .regular => judgeOrdinary d r time
    | .guaranteed => .facilitated .guaranteed
    | .staySeated => .facilitated .staySeated
    | .notAllowed => if e.key.target = .any then .blocked else .forbidden
    | .minTransferTime seconds =>
      if d.isBefore time (required d cfg r seconds) then .timeUnmet else .timeMet seconds

/-! ## Scanning the trips -/

/-- How a scan ends: at a trip, with its time and the verdict that decides for it; by giving up after
a number of ordinary trips; behind the last trip; or at a trip that has no call at the position. -/
inductive Outcome
  | found (trip : Trip) (time : Time) (verdict : Verdict)
  | gaveUp (ordinary : Nat)
  | exhausted
  | noCall
  deriving DecidableEq

/-- What a scan has passed: the trips that were forbidden, and how many were ordinary. -/
structure Passed where
  forbidden : List TripId
  ordinary : Nat
  deriving DecidableEq

/-- Goes through trips up to the first that decides. -/
def scan (d : Direction) (cfg : SearchConfig) (r : BoardingRequest) (rules : List Entry)
    (p : Position) : List Trip → Passed → Passed × Outcome
  | [], passed => (passed, .exhausted)
  | t :: rest, passed =>
    match d.eventTime? t p with
    | none => (passed, .noCall)
    | some time =>
      if d.isBefore time r.sourceTime then scan d cfg r rules p rest passed
      else
        match judge d cfg r (rule? rules t) time with
        | .blocked => (passed, .found t time .blocked)
        | .forbidden =>
          scan d cfg r rules p rest { passed with forbidden := passed.forbidden ++ [t.id] }
        | .facilitated c => (passed, .found t time (.facilitated c))
        | .timeMet seconds => (passed, .found t time (.timeMet seconds))
        | .timeUnmet => scan d cfg r rules p rest passed
        | .tooEarly => scan d cfg r rules p rest passed
        | .ordinary =>
          -- a forbidden trip was passed, which the ordinary search would have taken
          if passed.forbidden ≠ [] then (passed, .found t time .ordinary)
          else if cfg.abortAfter ≤ passed.ordinary + 1 then
            (passed, .gaveUp (passed.ordinary + 1))
          else scan d cfg r rules p rest { passed with ordinary := passed.ordinary + 1 }

/-- A search that went as far as the trips: the stop at the position, the rules that count, what was
passed, and how it ended. -/
structure Report where
  stop : StopOrdinal
  rules : List Entry
  passed : Passed
  outcome : Outcome

/-- Searches a pattern at a position, with the entries of a slot. There is nothing to search when no
entry applies to the rider or the pattern has no such position. -/
def run (d : Direction) (cfg : SearchConfig) (pattern : Pattern) (s : Slot) (p : Position)
    (r : BoardingRequest) : Option Report :=
  match applicable s r with
  | [] => none
  | e :: rest =>
    match pattern.stops[p]? with
    | none => none
    | some stop =>
      let (passed, outcome) :=
        scan d cfg r (e :: rest) p (d.order pattern.trips) ⟨[], 0⟩
      some ⟨stop, e :: rest, passed, outcome⟩

/-- The boarding that an outcome stands for, if it stands for one. -/
def Outcome.boarding? (stop : StopOrdinal) (p : Position) (r : BoardingRequest) :
    Outcome → Option Boarding
  | .found t time verdict =>
    some ⟨t.index, t.id, p, stop, time, r.earliest, verdict.constraint⟩
  | .gaveUp _ => none
  | .exhausted => none
  | .noCall => none

/-- The boarding that the entries of a slot lead to. -/
def inSlot? (d : Direction) (cfg : SearchConfig) (pattern : Pattern) (s : Slot) (p : Position)
    (r : BoardingRequest) : Option Boarding :=
  (run d cfg pattern s p r).bind fun report => report.outcome.boarding? report.stop p r

/-- The boarding that the rules of an index lead to. -/
def boarding? (d : Direction) (cfg : SearchConfig) (pattern : Pattern) (i : RuleIndex)
    (p : Position) (r : BoardingRequest) : Option Boarding :=
  inSlot? d cfg pattern (i.slot p) p r

/-! ## What is logged -/

/-- An event of the search. -/
def event (level : LogLevel) (message : String) (fields : List (String × String)) : Event :=
  ⟨level, .search, message, fields⟩

/-- What is logged at the end of a scan. -/
def Outcome.events : Outcome → List Event
  | .found t _ .blocked =>
    [event .debug "Transfer forbidden for every trip" [("trip", t.id.text)]]
  | .found t _ (.facilitated c) =>
    [event .debug "Facilitated transfer found" [("trip", t.id.text), ("constraint", c.text)]]
  | .found t _ (.timeMet seconds) =>
    [event .debug "Minimum transfer time met"
      [("trip", t.id.text), ("constraint", (Constraint.minTransferTime seconds).text)]]
  | .found t _ _ =>
    [event .debug "Next trip after forbidden transfer" [("trip", t.id.text)]]
  | .gaveUp n =>
    [event .debug "Constrained transfer search aborted" [("normal_trips", Decimal.text n)]]
  | .exhausted => []
  | .noCall => []

/-- What is logged by a search. -/
def events (d : Direction) (cfg : SearchConfig) (pattern : Pattern) (i : RuleIndex)
    (p : Position) (r : BoardingRequest) : List Event :=
  match run d cfg pattern (i.slot p) p r with
  | none => []
  | some report =>
    event .trace "Constrained transfer search"
      [("pattern", pattern.id.text), ("stop_position", p.text),
       ("source_trip", r.sourceTrip.id.text), ("direction", d.text),
       ("entries", Decimal.text report.rules.length)] ::
    report.passed.forbidden.map (fun t =>
      event .trace "Skipping forbidden trip" [("trip", t.text)]) ++
    report.outcome.events

end Search

end Interchange
