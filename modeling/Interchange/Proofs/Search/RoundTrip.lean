import Interchange.Proofs.Search.FirstInReach
import Interchange.Proofs.Search.Influence

/-!
# There and back

With one record that holds a transfer between two places, a forward search looks for the earliest trip
that can still be caught, and a reverse search for the latest that still catches it. The two agree like
rounding up and rounding down.

* `Timetable.Spot`, `Timetable.Halt` — a position of a pattern with the stop there, and a trip that calls
  at it.
* `Spot.boardingFrom?` — the boarding at a spot for a rider who comes from a halt.
  `Spot.boardingFrom?_singleton_iff` — a record that facilitates the transfer leads to the first trip in
  reach, between spots that its two points cover, and nowhere else.
* `Spot.exists_return` — in either direction, the search back from there reaches a trip between the two,
  and from that one the search leads to the same trip again.
-/

namespace Interchange

/-- The side that the rider comes from in one direction is searched in the opposite one. -/
theorem Transfer.source_opposite (t : Transfer) (d : Direction) : t.source d.opposite = t.target d := by
  cases d <;> rfl

/-- The side that is searched in one direction is the one that the rider comes from in the opposite
one. -/
theorem Transfer.target_opposite (t : Transfer) (d : Direction) : t.target d.opposite = t.source d := by
  cases d <;> rfl

namespace Timetable

variable {tt : Timetable}

/-! ## Spots and halts -/

/-- A stop position of a pattern of a timetable. -/
structure Spot (tt : Timetable) where
  index : Nat
  pattern : Pattern
  pattern_eq : tt.patterns[index]? = some pattern
  position : Position
  stop : StopOrdinal
  stop_eq : pattern.stops[position]? = some stop

/-- A trip at a stop position of its pattern. -/
structure Halt (tt : Timetable) extends Spot tt where
  trip : Trip
  mem : trip ∈ pattern.trips

/-- A point covers a spot. -/
def Spot.CoveredBy (g : tt.Spot) (point : Point) : Prop := tt.Covers point g.index g.position g.stop

namespace Halt

/-- A trip calls at every position of its pattern. -/
theorem position_lt (h : tt.Halt) : h.position < h.trip.calls.length := by
  rw [(h.pattern.fits h.trip h.mem).1]
  exact (List.getElem?_eq_some_iff.1 h.stop_eq).1

/-- The times of the trip at the position. -/
def call (h : tt.Halt) : Call := h.trip.calls.get ⟨h.position, h.position_lt⟩

/-- The event that counts for a search: the departure where trips are boarded, the arrival where they are
left. -/
def event (h : tt.Halt) : Direction → Time
  | .forward => h.call.departure
  | .reverse => h.call.arrival

/-- The event of a halt is that of its trip at its position. -/
theorem eventTime?_eq (h : tt.Halt) (d : Direction) :
    d.eventTime? h.trip h.position = some (h.event d) := by
  have hcall := List.getElem?_eq_getElem h.position_lt
  cases d with
  | forward => exact congrArg (Option.map Call.departure) hcall
  | reverse => exact congrArg (Option.map Call.arrival) hcall

/-- What a rider of the trip asks for: to change at the stop, from the time at which the trip arrives
there, or in a reverse search from the time at which it departs. -/
def request (h : tt.Halt) (d : Direction) (earliest : Time) : BoardingRequest :=
  ⟨h.trip, h.stop, h.event d.opposite, earliest⟩

/-- The boarding of the trip at the position under a constraint. -/
def boarding (h : tt.Halt) (d : Direction) (earliest : Time) (c : Constraint) : Boarding :=
  ⟨h.trip.index, h.trip.id, h.position, h.stop, h.event d, earliest, c⟩

end Halt

namespace Spot

/-- The boarding at a spot that records lead to, for a rider who comes from a halt. -/
def boardingFrom? (g : tt.Spot) (ts : List Transfer) (d : Direction) (cfg : SearchConfig)
    (a : tt.Halt) (earliest : Time) : Option Boarding :=
  Search.boarding? d cfg g.pattern ((tt.ruleBook ts).index g.index d) g.position
    (a.request d earliest)

variable {t : Transfer} {d : Direction}

/-! ## A single record -/

/-- An entry of the only record applies to the rider of a halt at a spot when the two points of the
record cover the two. -/
theorem applies_singleton_iff (hsource : (t.source d).specificity ≠ .trip) {g : tt.Spot} {a : tt.Halt}
    {earliest : Time} {e : Entry} :
    Search.Applies ((tt.ruleBook [t]).slot g.index d g.position) (a.request d earliest) e ↔
      a.CoveredBy (t.source d) ∧ g.CoveredBy (t.target d) ∧ e = t.entryFrom d a.stop := by
  constructor
  · rintro ⟨hmem, hstop, haccepts⟩
    obtain ⟨⟨hcovers, hsource_eq, ⟨stop, htarget⟩, htarget_eq⟩, he⟩ :=
      mem_slot_ruleBook_singleton_iff.1 hmem
    have hstop : e.key.stop = a.stop := hstop
    have hgstop := htarget.stop_eq g.pattern_eq
    rw [g.stop_eq] at hgstop
    cases hgstop
    rw [hsource_eq] at haccepts
    rw [hstop] at hcovers
    refine ⟨covers_of_accepts hsource a.pattern_eq a.stop_eq a.mem haccepts hcovers, htarget, ?_⟩
    rw [he]
    exact congrArg t.entry (Key.ext hstop hsource_eq htarget_eq)
  · rintro ⟨hcovers, htarget, rfl⟩
    refine ⟨mem_slot_ruleBook_singleton_iff.2 ⟨?_, rfl⟩, rfl, ?_⟩
    · exact ⟨⟨a.index, a.position, hcovers⟩, rfl, ⟨g.stop, htarget⟩, rfl⟩
    · exact accepts_of_covers hsource hcovers a.pattern_eq a.mem

/-- Between spots that its points cover, a record concerns the rider of a halt. -/
theorem concerns_of_coveredBy (hsource : (t.source d).specificity ≠ .trip) {g : tt.Spot} {a : tt.Halt}
    (ha : a.CoveredBy (t.source d)) (hg : g.CoveredBy (t.target d)) (earliest : Time) :
    tt.Concerns t g.index d g.position (a.request d earliest) := by
  refine ⟨⟨⟨a.index, a.position, a.stop, _⟩, mem_locations_iff.2 ⟨ha, rfl⟩, rfl, ?_⟩,
    ⟨g.index, g.position, g.stop, _⟩, mem_locations_iff.2 ⟨hg, rfl⟩, rfl, rfl⟩
  exact accepts_of_covers hsource ha a.pattern_eq a.mem

/-- **A single record that facilitates the transfer leads to the first trip in reach**, where its points
cover the halt and the spot. -/
theorem boardingFrom?_singleton_iff (hc : t.constraint.isFacilitated = true)
    (hsource : (t.source d).specificity ≠ .trip) (htarget : (t.target d).specificity ≠ .trip)
    {g : tt.Spot} {cfg : SearchConfig} {a : tt.Halt} {earliest : Time} {x : Boarding} :
    g.boardingFrom? [t] d cfg a earliest = some x ↔
      a.CoveredBy (t.source d) ∧ g.CoveredBy (t.target d) ∧ ∃ b : tt.Halt, b.toSpot = g ∧
        Search.FirstInReach d g.pattern g.position (a.event d.opposite) b.trip (b.event d) ∧
        x = b.boarding d earliest t.constraint := by
  have hwell := wellFormed_slot_ruleBook tt [t] g.index d g.position
  by_cases hcovered : a.CoveredBy (t.source d) ∧ g.CoveredBy (t.target d)
  · obtain ⟨ha, hg⟩ := hcovered
    have hconcerns := concerns_of_coveredBy hsource ha hg earliest
    have hsearch : g.boardingFrom? [t] d cfg a earliest = some x ↔ ∃ u time,
        Search.FirstInReach d g.pattern g.position (a.event d.opposite) u time ∧
          x = ⟨u.index, u.id, g.position, g.stop, time, earliest, t.constraint⟩ :=
      Search.inSlot?_of_facilitated (applicable_singleton_ne_nil hconcerns) g.stop_eq hc fun u hu =>
        ⟨_, rule?_singleton_of_concerns hconcerns (accepts_of_covers htarget hg g.pattern_eq hu), rfl⟩
    rw [hsearch]
    constructor
    · rintro ⟨u, time, hfirst, rfl⟩
      have hevent := (Halt.mk g u hfirst.mem).eventTime?_eq d
      have htime : time = (Halt.mk g u hfirst.mem).event d :=
        Option.some.inj (hfirst.time_eq.symm.trans hevent)
      rw [htime] at hfirst ⊢
      exact ⟨ha, hg, ⟨g, u, hfirst.mem⟩, rfl, hfirst, rfl⟩
    · rintro ⟨-, -, b, rfl, hfirst, rfl⟩
      exact ⟨b.trip, b.event d, hfirst, rfl⟩
  · -- no entry applies to the rider, so there is nothing to search
    have hnone : ∀ e, ¬ Search.Counts ((tt.ruleBook [t]).slot g.index d g.position)
        (a.request d earliest) e := by
      intro e he
      obtain ⟨ha, hg, -⟩ := (applies_singleton_iff hsource).1 he.applies
      exact hcovered ⟨ha, hg⟩
    have hsearch : g.boardingFrom? [t] d cfg a earliest = none :=
      Search.inSlot?_of_not_counts hwell hnone
    rw [hsearch]
    constructor
    · intro h
      cases h
    · rintro ⟨ha, hg, -⟩
      exact absurd ⟨ha, hg⟩ hcovered

/-! ## There and back -/

/-- **The search back stays between the two trips**: it reaches a trip that is not before the one the
rider came from and not behind the one that was found, and from it the search finds that one again. -/
theorem exists_return (hc : t.constraint.isFacilitated = true)
    (hsource : (t.source d).specificity ≠ .trip) (htarget : (t.target d).specificity ≠ .trip)
    {g : tt.Spot} {cfg : SearchConfig} {a : tt.Halt} {earliest : Time} {x : Boarding}
    (h : g.boardingFrom? [t] d cfg a earliest = some x) :
    ∃ b : tt.Halt, b.toSpot = g ∧ x = b.boarding d earliest t.constraint ∧
      ∃ a' : tt.Halt, a'.toSpot = a.toSpot ∧
        d.isBefore (a'.event d.opposite) (a.event d.opposite) = false ∧
        d.isBefore (b.event d) (a'.event d.opposite) = false ∧
        ∀ cfg' earliest',
          a.boardingFrom? [t] d.opposite cfg' b earliest' =
            some (a'.boarding d.opposite earliest' t.constraint) ∧
          g.boardingFrom? [t] d cfg' a' earliest' = some (b.boarding d earliest' t.constraint) := by
  obtain ⟨ha, hg, b, rfl, hfirst, rfl⟩ := (boardingFrom?_singleton_iff hc hsource htarget).1 h
  -- the trip that the rider came from is in reach of the search back, so that one finds a trip
  have hback : d.opposite.isBefore (a.event d.opposite) (b.event d) = false := by
    rw [Direction.isBefore_opposite]
    exact hfirst.inReach
  obtain ⟨u, time, hu⟩ :=
    Search.exists_firstInReach a.mem (a.eventTime?_eq d.opposite) hback
  obtain ⟨a', ha', htrip⟩ : ∃ a' : tt.Halt, a'.toSpot = a.toSpot ∧ a'.trip = u :=
    ⟨⟨a.toSpot, u, hu.mem⟩, rfl, rfl⟩
  have htime : time = a'.event d.opposite := by
    have hevent := a'.eventTime?_eq d.opposite
    rw [ha', htrip, hu.time_eq] at hevent
    exact Option.some.inj hevent
  rw [← htrip, htime] at hu
  -- of the trips that still catch the one that was found it is the latest
  have hlate : d.isBefore (a'.event d.opposite) (a.event d.opposite) = false := by
    have hfollows := Pattern.isBefore_of_noLater hu.mem a.mem
      (hu.first a.trip a.mem _ (a.eventTime?_eq d.opposite) hback) hu.time_eq
      (a.eventTime?_eq d.opposite)
    rw [Direction.isBefore_opposite] at hfollows
    exact hfollows
  have hcatches : d.isBefore (b.event d) (a'.event d.opposite) = false := by
    rw [← Direction.isBefore_opposite]
    exact hu.inReach
  -- what is in reach from it was in reach before
  have hagain : Search.FirstInReach d b.pattern b.position (a'.event d.opposite) b.trip
      (b.event d) := by
    refine ⟨hfirst.mem, hfirst.time_eq, hcatches, fun v hv y hy hreach => ?_⟩
    exact hfirst.first v hv y hy (Direction.not_isBefore_trans hreach hlate)
  have ha'covered : a'.CoveredBy (t.source d) := by
    rw [ha']
    exact ha
  refine ⟨b, rfl, rfl, a', ha', hlate, hcatches, fun cfg' earliest' => ⟨?_, ?_⟩⟩
  · refine (boardingFrom?_singleton_iff hc ?_ ?_).2 ⟨?_, ?_, a', ha', ?_, rfl⟩
    · rwa [Transfer.source_opposite]
    · rwa [Transfer.target_opposite]
    · rwa [Transfer.source_opposite]
    · rwa [Transfer.target_opposite]
    · rwa [Direction.opposite_opposite]
  · exact (boardingFrom?_singleton_iff hc hsource htarget).2
      ⟨ha'covered, hg, b, rfl, hagain, rfl⟩

/-- **There and back over one guarantee.** A record guarantees the transfer, or lets the rider stay
seated, and its two points are stops or stations, of all routes or of one. If a rider who arrives on one
trip is led to another, then the reverse search from that one's departure leads to a trip that arrives
no earlier than the first and no later than the departure, and the rider who arrives on it is led to the
very same trip. Neither the earliest ordinary times nor the configurations have any part in it. -/
theorem round_trip (hc : t.constraint.isFacilitated = true)
    (horigin : t.origin.specificity ≠ .trip) (hdestination : t.destination.specificity ≠ .trip)
    {a : tt.Halt} {g : tt.Spot} {cfg : SearchConfig} {earliest : Time} {x : Boarding}
    (h : g.boardingFrom? [t] .forward cfg a earliest = some x) :
    ∃ b : tt.Halt, b.toSpot = g ∧ x = b.boarding .forward earliest t.constraint ∧
      ∃ a' : tt.Halt, a'.toSpot = a.toSpot ∧
        (∀ cfg' earliest', a.boardingFrom? [t] .reverse cfg' b earliest' =
          some (a'.boarding .reverse earliest' t.constraint)) ∧
        a.call.arrival ≤ a'.call.arrival ∧ a'.call.arrival ≤ b.call.departure ∧
        ∀ cfg' earliest', g.boardingFrom? [t] .forward cfg' a' earliest' =
          some (b.boarding .forward earliest' t.constraint) := by
  obtain ⟨b, hb, hx, a', ha', hlate, hcatches, hsearch⟩ :=
    exists_return (d := .forward) hc horigin hdestination h
  have hle : ∀ {x y : Time}, Direction.isBefore .forward y x = false → x ≤ y := by
    intro x y h
    simpa [Direction.isBefore, Time.lt_def, Time.le_def] using h
  have harrival : a.call.arrival ≤ a'.call.arrival := hle hlate
  have hdeparture : a'.call.arrival ≤ b.call.departure := hle hcatches
  exact ⟨b, hb, hx, a', ha', fun cfg' earliest' => (hsearch cfg' earliest').1, harrival, hdeparture,
    fun cfg' earliest' => (hsearch cfg' earliest').2⟩

/-- The first trip of the crossing where it arrives at the stop in the middle. -/
def firstArrival : crossing.Halt where
  index := 0
  pattern := crossing.patterns[0]
  pattern_eq := rfl
  position := 1
  stop := ⟨1⟩
  stop_eq := rfl
  trip := crossing.patterns[0].trips[0]
  mem := List.mem_cons_self

/-- The position from which the other pattern of the crossing leaves the stop in the middle. -/
def onwards : crossing.Spot where
  index := 1
  pattern := crossing.patterns[1]
  pattern_eq := rfl
  position := 0
  stop := ⟨1⟩
  stop_eq := rfl

/-- At the crossing a guarantee leads the rider of the first trip to the departure at 840, which a later
trip catches as well. -/
theorem round_trip_crossing :
    Constraint.isFacilitated .guaranteed = true ∧
    (Point.anywhere (.stop stopB)).specificity ≠ .trip ∧
    onwards.boardingFrom? [change ⟨"x", by decide⟩ stopB stopB .guaranteed] .forward .default
        firstArrival (.ofInt 720) =
      some ⟨1, ⟨"d", by decide⟩, 0, ⟨1⟩, .ofInt 840, .ofInt 720, .guaranteed⟩ ∧
    ∃ b a' : crossing.Halt, b.toSpot = onwards ∧ a'.toSpot = firstArrival.toSpot ∧
      (∀ cfg earliest, firstArrival.boardingFrom? [change ⟨"x", by decide⟩ stopB stopB .guaranteed]
        .reverse cfg b earliest = some (a'.boarding .reverse earliest .guaranteed)) ∧
      firstArrival.call.arrival ≤ a'.call.arrival ∧ a'.call.arrival ≤ b.call.departure := by
  have h : onwards.boardingFrom? [change ⟨"x", by decide⟩ stopB stopB .guaranteed] .forward .default
      firstArrival (.ofInt 720) =
        some ⟨1, ⟨"d", by decide⟩, 0, ⟨1⟩, .ofInt 840, .ofInt 720, .guaranteed⟩ := by
    decide
  obtain ⟨b, hb, -, a', ha', hback, harrival, hdeparture, -⟩ :=
    round_trip (t := change ⟨"x", by decide⟩ stopB stopB .guaranteed) rfl (by decide) (by decide) h
  exact ⟨rfl, by decide, h, b, a', hb, ha', hback, harrival, hdeparture⟩

end Spot

end Timetable

end Interchange
