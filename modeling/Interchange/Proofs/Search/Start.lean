import Interchange.Proofs.Search.Exact
import Interchange.Proofs.Search.FirstInReach
import Interchange.Proofs.Timetable.Arrangement

/-!
# Where a search starts

The trips of a pattern keep one order at all its stops. In search order, the trips that call too early for a
rider are therefore in front of all others, and to pass over each of them is to start at the first trip in
reach.

* `Pattern.Arranges` — a pattern holds given trips, numbered in an order that the times keep at every stop.
* `Direction.passesOver` — whether a search passes over a trip, since its event comes too early.
  `Pattern.exists_split_order` — the trips that are passed over are in front of the others.
* `Search.scanInReach` — the scan that asks of no trip whether it is in reach. `Search.scan_eq_scanInReach` —
  from the first trip in reach on it is the scan.
* `Pattern.arranges_ofTrips` — so it is for every pattern that is made of stops and trips.
-/

namespace Interchange

/-! ## Arranged trips -/

/-- A trip without its number in a pattern. -/
def Trip.unnumbered (t : Trip) : Trip := { t with index := 0 }

namespace Pattern

/-- Numbering a row changes nothing but the numbers. -/
theorem map_unnumbered_number (trips : List Trip) :
    (number trips).map Trip.unnumbered = trips.map Trip.unnumbered := by
  have htrips := congrArg (List.map Trip.unnumbered) (List.zipIdx_map_fst 0 trips)
  rw [List.map_map] at htrips
  rw [number, List.map_map]
  exact htrips

/-- A pattern holds given trips in the order of its numbers, and the times at every stop keep that order. -/
structure Arranges (p : Pattern) (trips : List Trip) : Prop where
  /-- The trips are those that were given; only their numbers are new. -/
  perm : (p.trips.map Trip.unnumbered).Perm (trips.map Trip.unnumbered)
  /-- A trip stands at the place of its number. -/
  index_eq : ∀ (i : Nat) (t : Trip), p.trips[i]? = some t → t.index = i
  /-- Every trip runs on the route of the pattern. -/
  route_eq : ∀ t ∈ p.trips, t.route = p.route
  /-- Every trip has an arrival and a departure for each stop. -/
  times_length : ∀ t ∈ p.trips,
    t.arrivals.length = p.stops.length ∧ t.departures.length = p.stops.length
  /-- At every stop a trip arrives and departs no later than one behind it. -/
  times_le : ∀ (i j : Nat) (a b : Trip), i ≤ j → p.trips[i]? = some a → p.trips[j]? = some b →
    ∀ q < p.stops.length, ∃ x y : Call, a.calls[q]? = some x ∧ b.calls[q]? = some y ∧
      x.arrival ≤ y.arrival ∧ x.departure ≤ y.departure

/-- At a position of its pattern a trip has a call. -/
theorem exists_call {p : Pattern} {t : Trip} (ht : t ∈ p.trips) {q : Position}
    (hq : q < p.stops.length) : ∃ c, t.calls[q]? = some c := by
  rw [← (p.fits t ht).1] at hq
  exact ⟨_, List.getElem?_eq_getElem hq⟩

/-- The position of an event of a trip is one of its pattern. -/
theorem position_lt_of_eventTime? {p : Pattern} {t : Trip} (ht : t ∈ p.trips) {d : Direction}
    {q : Position} {time : Time} (h : d.eventTime? t q = some time) : q < p.stops.length := by
  rw [← (p.fits t ht).1]
  cases d with
  | forward =>
    obtain ⟨c, hc, -⟩ := Option.map_eq_some_iff.1 h
    exact (List.getElem?_eq_some_iff.1 hc).1
  | reverse =>
    obtain ⟨c, hc, -⟩ := Option.map_eq_some_iff.1 h
    exact (List.getElem?_eq_some_iff.1 hc).1

/-- The trips of a pattern are arranged as they stand. -/
theorem arranges_of_perm {p : Pattern} {trips : List Trip}
    (h : (p.trips.map Trip.unnumbered).Perm (trips.map Trip.unnumbered)) : p.Arranges trips := by
  refine ⟨h, fun i t => index_eq_of_getElem?, fun t ht => (p.fits t ht).2, fun t ht => ?_, ?_⟩
  · unfold Trip.arrivals Trip.departures
    rw [List.length_map, List.length_map]
    exact ⟨(p.fits t ht).1, (p.fits t ht).1⟩
  · intro i j a b hij ha hb q hq
    have hamem := List.mem_of_getElem? ha
    have hbmem := List.mem_of_getElem? hb
    obtain ⟨x, hx⟩ := exists_call hamem hq
    obtain ⟨y, hy⟩ := exists_call hbmem hq
    refine ⟨x, y, hx, hy, ?_⟩
    rcases Nat.lt_or_eq_of_le hij with hlt | rfl
    · rw [← index_eq_of_getElem? ha, ← index_eq_of_getElem? hb] at hlt
      exact precedes_of_index_lt hamem hbmem hlt q x y hx hy
    · -- a trip is not behind itself
      rw [ha] at hb
      cases hb
      rw [hx] at hy
      cases hy
      exact ⟨Int.le_refl _, Int.le_refl _⟩

end Pattern

/-! ## Trips that come too early -/

/-- Whether a search passes over a trip: its event at the position comes before the limit. -/
def Direction.passesOver (d : Direction) (q : Position) (limit : Time) (t : Trip) : Bool :=
  (d.eventTime? t q).any fun time => d.isBefore time limit

/-- A search passes over a trip when its event is before the limit. -/
theorem Direction.passesOver_eq_true_iff {d : Direction} {q : Position} {limit : Time} {t : Trip} :
    d.passesOver q limit t = true ↔
      ∃ time, d.eventTime? t q = some time ∧ d.isBefore time limit = true := by
  unfold passesOver
  rw [Option.any_eq_true]

/-- Where what holds of an element holds of all in front of it, it holds of none from the first on that it
does not hold of. -/
theorem eq_false_of_mem_dropWhile {α : Type} {P : α → Bool} {l : List α}
    (h : l.Pairwise fun a b => P b = true → P a = true) {x : α} (hx : x ∈ l.dropWhile P) :
    P x = false := by
  induction l with
  | nil => cases hx
  | cons a l ih =>
    obtain ⟨ha, hl⟩ := List.pairwise_cons.1 h
    by_cases hPa : P a = true
    · rw [List.dropWhile_cons_of_pos hPa] at hx
      exact ih hl hx
    · rw [List.dropWhile_cons_of_neg hPa] at hx
      rcases List.mem_cons.1 hx with rfl | hx
      · exact (Bool.not_eq_true _).mp hPa
      · exact (Bool.not_eq_true _).mp fun hPx => hPa (ha x hx hPx)

namespace Pattern

/-- In search order a trip in front of one that is passed over is passed over. -/
theorem pairwise_passesOver (p : Pattern) (d : Direction) (q : Position) (limit : Time) :
    (d.order p.trips).Pairwise fun a b =>
      d.passesOver q limit b = true → d.passesOver q limit a = true := by
  refine (p.pairwise_noLater d).imp_of_mem fun {a b} ha hb hab hpasses => ?_
  have ha : a ∈ p.trips := Direction.mem_order_iff.1 ha
  have hb : b ∈ p.trips := Direction.mem_order_iff.1 hb
  obtain ⟨y, hy, hbefore⟩ := Direction.passesOver_eq_true_iff.1 hpasses
  have hstop := List.getElem?_eq_getElem (position_lt_of_eventTime? hb hy)
  obtain ⟨x, hx⟩ := exists_eventTime? (d := d) hstop a (Direction.mem_order_iff.2 ha)
  refine Direction.passesOver_eq_true_iff.2 ⟨x, hx, ?_⟩
  -- the event of the trip in front is no later, so it is before the limit as well
  have hnotlater : d.isBefore y x = false := isBefore_of_noLater ha hb hab hx hy
  refine (Bool.not_eq_false _).mp fun hreach => ?_
  rw [Direction.not_isBefore_trans hnotlater hreach] at hbefore
  cases hbefore

/-- **The trips that are passed over are in front of the others**, at every position, in either direction and
whatever the limit. -/
theorem exists_split_order (p : Pattern) (d : Direction) (q : Position) (limit : Time) :
    ∃ front back, d.order p.trips = front ++ back ∧
      (∀ t ∈ front, d.passesOver q limit t = true) ∧ ∀ t ∈ back, d.passesOver q limit t = false := by
  refine ⟨_, _, (List.takeWhile_append_dropWhile (p := d.passesOver q limit)).symm, ?_, ?_⟩
  · exact fun t ht =>
      ((Search.mem_takeWhile_iff_of_pairwise (p.pairwise_passesOver d q limit)).1 ht).2
  · exact fun t ht => eq_false_of_mem_dropWhile (p.pairwise_passesOver d q limit) ht

end Pattern

namespace Search

variable {d : Direction} {cfg : SearchConfig} {r : BoardingRequest} {rules : List Entry} {q : Position}

/-! ## The scan from the first trip in reach on -/

/-- The comparisons of a request, with every time in reach. -/
def Comparisons.inReach (d : Direction) (cfg : SearchConfig) (r : BoardingRequest) : Comparisons :=
  { Comparisons.saturating d cfg r with outOfReach := fun _ => false }

/-- The scan of a request that asks of no trip whether it is in reach: every trip is judged. -/
def scanInReach (d : Direction) (cfg : SearchConfig) (r : BoardingRequest) (rules : List Entry)
    (q : Position) (trips : List Trip) (passed : Passed) : Passed × Outcome :=
  scanBy (.inReach d cfg r) d cfg.abortAfter rules q trips passed

/-- Trips at the front that are passed over have no part in the scan. -/
theorem scan_dropWhile (trips : List Trip) (passed : Passed) :
    scan d cfg r rules q (trips.dropWhile (d.passesOver q r.sourceTime)) passed =
      scan d cfg r rules q trips passed := by
  induction trips with
  | nil => rfl
  | cons t trips ih =>
    by_cases hpasses : d.passesOver q r.sourceTime t = true
    · obtain ⟨time, htime, hbefore⟩ := Direction.passesOver_eq_true_iff.1 hpasses
      rw [List.dropWhile_cons_of_pos hpasses, ih, scan, htime]
      exact (if_pos hbefore).symm
    · rw [List.dropWhile_cons_of_neg hpasses]

/-- Where no trip is passed over the scan need not ask. -/
theorem scan_eq_scanInReach {trips : List Trip}
    (h : ∀ t ∈ trips, d.passesOver q r.sourceTime t = false) (passed : Passed) :
    scan d cfg r rules q trips passed = scanInReach d cfg r rules q trips passed := by
  have hagree : ∀ t ∈ trips, ∀ time, d.eventTime? t q = some time →
      (Comparisons.saturating d cfg r).AgreesWith (.inReach d cfg r) time := by
    intro t ht time htime
    have hreach := h t ht
    unfold Direction.passesOver at hreach
    rw [htime, Option.any_some] at hreach
    exact ⟨hreach, rfl, fun _ => rfl⟩
  rw [scan_eq_scanBy]
  exact scanBy_congr hagree passed

end Search

/-! ## Patterns that are made of trips -/

namespace Pattern

/-- **The timetable of a pattern is ordered at every stop, and a search starts at the first trip in reach.**
A pattern that is made of stops and trips has just those trips, each at the place of its number, on its route
and with a time for each stop, and at every stop they arrive and depart in the order of their numbers. For
every position, direction and limit the trips that a search passes over are in front of the others, so the
scan comes to the same as the one that starts at the first other trip and asks of none whether it is in
reach. -/
theorem arranges_ofTrips {id : PatternId} {route : RouteId} {stops : List StopOrdinal}
    {trips : List Trip} {p : Pattern} (h : ofTrips id route stops trips = .ok p) :
    (p.id = id ∧ p.route = route ∧ p.stops = stops ∧ p.Arranges trips) ∧
    ∀ (d : Direction) (q : Position),
      (∀ limit, ∃ front back, d.order p.trips = front ++ back ∧
        (∀ t ∈ front, d.passesOver q limit t = true) ∧
          ∀ t ∈ back, d.passesOver q limit t = false) ∧
      ∀ cfg r rules passed, Search.scan d cfg r rules q (d.order p.trips) passed =
        Search.scanInReach d cfg r rules q
          ((d.order p.trips).dropWhile (d.passesOver q r.sourceTime)) passed := by
  obtain ⟨hid, hroute, hstops, htrips⟩ := fields_of_ofTrips h
  have hperm : (p.trips.map Trip.unnumbered).Perm (trips.map Trip.unnumbered) := by
    rw [htrips, map_unnumbered_number]
    exact (arrange_perm startsFirst trips).map _
  refine ⟨⟨hid, hroute, hstops, arranges_of_perm hperm⟩, fun d q => ⟨p.exists_split_order d q, ?_⟩⟩
  intro cfg r rules passed
  have hreach : ∀ t ∈ (d.order p.trips).dropWhile (d.passesOver q r.sourceTime),
      d.passesOver q r.sourceTime t = false := fun t ht =>
    eq_false_of_mem_dropWhile (p.pairwise_passesOver d q r.sourceTime) ht
  rw [← Search.scan_dropWhile, Search.scan_eq_scanInReach hreach]

/-- The two trips of the crossing make its first pattern also when the later one is given first. A reverse
search for riders who leave its end at 700 passes over the later trip, which arrives at 840, and starts at the
other. -/
theorem arranges_ofTrips_crossing :
    ofTrips ⟨"P", by decide⟩ ⟨"R", by decide⟩ [⟨0⟩, ⟨1⟩] Timetable.crossing.patterns[0].trips.reverse =
      .ok Timetable.crossing.patterns[0] ∧
    Timetable.crossing.patterns[0].Arranges Timetable.crossing.patterns[0].trips.reverse ∧
    ∀ (r : BoardingRequest) rules passed, r.sourceTime = .ofInt 700 →
      Search.scan .reverse .default r rules 1 Timetable.crossing.patterns[0].trips.reverse passed =
        Search.scanInReach .reverse .default r rules 1 [Timetable.crossing.patterns[0].trips[0]] passed := by
  have hmade : ofTrips ⟨"P", by decide⟩ ⟨"R", by decide⟩ [⟨0⟩, ⟨1⟩]
      Timetable.crossing.patterns[0].trips.reverse = .ok Timetable.crossing.patterns[0] := rfl
  obtain ⟨⟨-, -, -, harranges⟩, hsearch⟩ := arranges_ofTrips hmade
  refine ⟨hmade, harranges, fun r rules passed hr => ?_⟩
  have hstart : (Direction.order .reverse Timetable.crossing.patterns[0].trips).dropWhile
      (Direction.passesOver .reverse 1 (.ofInt 700)) = [Timetable.crossing.patterns[0].trips[0]] := by
    decide
  have hscan := (hsearch .reverse 1).2 .default r rules passed
  rwa [hr, hstart] at hscan

end Pattern

end Interchange
