import Interchange.Time
import Interchange.Timetable.Fault

/-!
# Trips

A trip is one scheduled run along a stop sequence: it calls at each stop once, with an arrival and a
departure.

* `Trip` — a trip calls at least once and never goes back in time, neither at a stop nor between
  two stops.
* `Trip.ofTimes` — makes a trip from its lists of times, or tells the first fault: no times, lists
  of different lengths, or the first position where time runs backwards.
-/

namespace Interchange

/-- The times of a trip at one stop. -/
structure Call where
  arrival : Time
  departure : Time
  deriving DecidableEq

/-- The times of a call in the order of travel. -/
def Call.times (c : Call) : List Time := [c.arrival, c.departure]

/-- The times of a row of calls in the order of travel. -/
def Call.interleave (calls : List Call) : List Time := calls.flatMap Call.times

/-- The first position at which a row of calls goes back in time, `before` being the departure it
comes from. -/
def Call.firstDecrease (before : Option Time) : List Call → Option Position
  | [] => none
  | c :: rest =>
    if c.departure < c.arrival ∨ before.any (fun d => decide (c.arrival < d)) = true then some 0
    else (firstDecrease (some c.departure) rest).map (· + 1)

/-- A row of calls without a decrease does not go back in time at all, nor behind the departure it
comes from. -/
theorem Call.pairwise_of_firstDecrease {before : Option Time} {calls : List Call}
    (h : firstDecrease before calls = none) :
    (Call.interleave calls).Pairwise (· ≤ ·) ∧
      ∀ d ∈ before, ∀ t ∈ Call.interleave calls, d ≤ t := by
  induction calls generalizing before with
  | nil => simp [Call.interleave]
  | cons c rest ih =>
    -- the first call is in order, so its departure bounds everything behind it
    unfold firstDecrease at h
    split at h
    · simp at h
    · rename_i hc
      obtain ⟨hrest, hfrom⟩ := ih (by simpa using h)
      have hstop : c.arrival ≤ c.departure := by
        simp only [Time.lt_def, Time.le_def] at *; omega
      have hlater : ∀ t ∈ Call.interleave rest, c.departure ≤ t := hfrom c.departure rfl
      have htimes : Call.interleave (c :: rest) =
          c.arrival :: c.departure :: Call.interleave rest := rfl
      rw [htimes]
      refine ⟨?_, ?_⟩
      · refine List.Pairwise.cons ?_ (List.Pairwise.cons hlater hrest)
        intro t ht
        rcases List.mem_cons.1 ht with rfl | ht
        · exact hstop
        · have := hlater t ht
          simp only [Time.le_def] at *; omega
      · intro d hd t ht
        have hd' : d ≤ c.arrival := by
          cases hd
          simp only [Option.any_some, decide_eq_true_eq, Time.lt_def, Time.le_def] at *; omega
        rcases List.mem_cons.1 ht with rfl | ht
        · exact hd'
        rcases List.mem_cons.1 ht with rfl | ht
        · simp only [Time.le_def] at *; omega
        · have := hlater t ht
          simp only [Time.le_def] at *; omega

/-- A scheduled run. `index` is its number within the pattern it belongs to, zero for a trip that
belongs to none. -/
structure Trip where
  id : TripId
  route : RouteId
  index : Nat
  calls : List Call
  calls_ne_nil : calls ≠ []
  ordered : (Call.interleave calls).Pairwise (· ≤ ·)
  deriving DecidableEq

namespace Trip

/-- The arrival at a position. -/
def arrival? (t : Trip) (p : Position) : Option Time := t.calls[p]?.map (·.arrival)

/-- The departure at a position. -/
def departure? (t : Trip) (p : Position) : Option Time := t.calls[p]?.map (·.departure)

/-- The arrivals in the order of travel. -/
def arrivals (t : Trip) : List Time := t.calls.map (·.arrival)

/-- The departures in the order of travel. -/
def departures (t : Trip) : List Time := t.calls.map (·.departure)

/-- The departure at the first stop. -/
def start (t : Trip) : Time := (t.calls.head t.calls_ne_nil).departure

/-- Makes a trip from its arrivals and departures. -/
def ofTimes (id : TripId) (route : RouteId) (arrivals departures : List Time) :
    Except TimetableFault Trip :=
  if hne : arrivals = [] then .error (.emptyTrip id)
  else if hlen : arrivals.length = departures.length then
    let calls := List.zipWith Call.mk arrivals departures
    match h : Call.firstDecrease none calls with
    | some p => .error (.decreasingTimes id p)
    | none =>
      .ok {
        id, route, calls
        index := 0
        calls_ne_nil := by
          intro hnil
          have := congrArg List.length hnil
          simp only [calls, List.length_zipWith, List.length_nil] at this
          exact hne (List.eq_nil_of_length_eq_zero (by omega))
        ordered := (Call.pairwise_of_firstDecrease h).1 }
  else .error (.timeCounts id arrivals.length departures.length)

end Trip

end Interchange
