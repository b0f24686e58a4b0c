import Interchange.Rule.Format

/-!
# Snapshots

A snapshot is a complete data set as it is stored: the stops, the patterns with their trips, and the
recorded rules. Nothing in it is checked beyond its single values; `Network.build` does the rest.

* `Snapshot.format` — how a snapshot is written and read. The lists may be left out, and a trip
  without departures leaves each stop when it arrives there.
-/

namespace Interchange

/-- A trip as it is stored. Without departures, it departs when it arrives. -/
structure TripRecord where
  id : TripId
  arrivals : List Time
  departures : Option (List Time)
  deriving DecidableEq

/-- A pattern as it is stored. -/
structure PatternRecord where
  id : PatternId
  route : RouteId
  stops : List StopId
  trips : List TripRecord
  deriving DecidableEq

/-- A complete data set as it is stored. -/
structure Snapshot where
  stops : List Stop
  patterns : List PatternRecord
  transfers : List Transfer
  deriving DecidableEq

/-- The format of a stop. -/
def Stop.format : Format Stop :=
  (((Record.field "id" Id.format).and (.fieldOpt "station" Id.format true)).map
    (fun (id, station) => { id, station }) (fun s => (s.id, s.station))).format

/-- The format of a trip. -/
def TripRecord.format : Format TripRecord :=
  (((Record.field "id" Id.format).and
    ((Record.field "arrivals" Time.format.list).and
      (.fieldOpt "departures" Time.format.list true))).map
    (fun (id, arrivals, departures) => { id, arrivals, departures })
    (fun t => (t.id, t.arrivals, t.departures))).format

/-- The format of a pattern. -/
def PatternRecord.format : Format PatternRecord :=
  (((Record.field "id" Id.format).and
    ((Record.field "route" Id.format).and
      ((Record.field "stops" Id.format.list).and
        (.fieldOr "trips" TripRecord.format.list [])))).map
    (fun (id, route, stops, trips) => { id, route, stops, trips })
    (fun p => (p.id, p.route, p.stops, p.trips))).format

/-- The format of a snapshot. -/
def Snapshot.format : Format Snapshot :=
  (((Record.fieldOr "stops" Stop.format.list []).and
    ((Record.fieldOr "patterns" PatternRecord.format.list []).and
      (.fieldOr "transfers" Transfer.format.list []))).map
    (fun (stops, patterns, transfers) => { stops, patterns, transfers })
    (fun s => (s.stops, s.patterns, s.transfers))).format

end Interchange
