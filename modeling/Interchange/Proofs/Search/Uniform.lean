import Interchange.Proofs.Search.RoundTrip

/-!
# One rule for all trips

A record whose point on the searched side is a stop or a station, of all routes or of one, speaks about every
trip of the patterns that it covers. Where it is the only one, and holds the transfer or asks for a minimum
time, no trip is left to the ordinary search: whatever the number of ordinary trips after which the scan gives
up, it goes on to the best trip there is.

* `Timetable.exists_rule?_of_concerns` — such a record gives every trip of the pattern a rule.
* `Timetable.boarding?_singleton` — a search leads to the first trip from the time on that the constraint
  names, and nowhere only if there is no such trip.
-/

namespace Interchange

namespace Timetable

variable {tt : Timetable} {t : Transfer} {i : Nat} {d : Direction} {q : Position} {r : BoardingRequest}
  {pattern : Pattern}

/-- A record that concerns a request, and does not name a trip on the searched side, gives every trip of the
pattern a rule with its constraint. -/
theorem exists_rule?_of_concerns (h : tt.Concerns t i d q r) (htarget : (t.target d).specificity ≠ .trip)
    (hpattern : tt.patterns[i]? = some pattern) {u : Trip} (hu : u ∈ pattern.trips) :
    ∃ e, Search.rule? (Search.applicable ((tt.ruleBook [t]).slot i d q) r) u = some e ∧
      e.constraint = t.constraint := by
  obtain ⟨g, hg, rfl, rfl⟩ := h.target
  have haccepts : (t.target d).matcher.accepts u = true :=
    accepts_of_covers htarget (mem_locations_iff.1 hg).1 hpattern hu
  exact ⟨_, rule?_singleton_of_concerns h haccepts, rfl⟩

/-- **A uniform rule leads to the best trip of the whole timetable.** The only record concerns a request at a
position of a pattern: its point on the rider's side, whichever that is, covers the rider's stop and trip, and
its point on the searched side, which does not name a trip, covers the position. It holds the transfer or asks
for a minimum time, and so names a time. Then a search leads to the first trip of the pattern, in search order,
whose event is not before that time; no such trip has an earlier event; and it is taken under the constraint of
the record. It leads nowhere just when the events of all trips are before that time. When the scan would give
up has no part in it. -/
theorem boarding?_singleton (hpattern : tt.patterns[i]? = some pattern) (h : tt.Concerns t i d q r)
    (htarget : (t.target d).specificity ≠ .trip)
    (hc : t.constraint.isFacilitated = true ∨ ∃ seconds, t.constraint = .minTransferTime seconds)
    (cfg : SearchConfig) :
    ∃ stop due, pattern.stops[q]? = some stop ∧ t.constraint.dueTime? d cfg r = some due ∧
      (∀ b, Search.boarding? d cfg pattern ((tt.ruleBook [t]).index i d) q r = some b ↔
        ∃ u time, Search.FirstInReach d pattern q due u time ∧
          (∀ v ∈ pattern.trips, ∀ x, d.eventTime? v q = some x → d.isBefore x due = false →
            d.isBefore x time = false) ∧
          b = ⟨u.index, u.id, q, stop, time, r.earliest, t.constraint⟩) ∧
      (Search.boarding? d cfg pattern ((tt.ruleBook [t]).index i d) q r = none ↔
        ∀ u ∈ pattern.trips, ∃ time, d.eventTime? u q = some time ∧ d.isBefore time due = true) := by
  obtain ⟨due, hdue⟩ : ∃ due, t.constraint.dueTime? d cfg r = some due := by
    rcases hc with hc | ⟨seconds, hc⟩
    · exact ⟨_, Constraint.dueTime?_of_facilitated hc d cfg r⟩
    · rw [hc]
      exact ⟨_, rfl⟩
  obtain ⟨stop, hstop⟩ : ∃ stop, pattern.stops[q]? = some stop := by
    obtain ⟨g, hg, rfl, rfl⟩ := h.target
    exact ⟨_, (mem_locations_iff.1 hg).1.stop_eq hpattern⟩
  have hboards : ∀ b, Search.boarding? d cfg pattern ((tt.ruleBook [t]).index i d) q r = some b ↔
      ∃ u time, Search.FirstInReach d pattern q due u time ∧
        b = ⟨u.index, u.id, q, stop, time, r.earliest, t.constraint⟩ := fun b =>
    Search.inSlot?_of_dueTime? (applicable_singleton_ne_nil h) hstop hdue fun u hu =>
      exists_rule?_of_concerns h htarget hpattern hu
  refine ⟨stop, due, hstop, hdue, fun b => ?_, ?_⟩
  · rw [hboards]
    constructor
    · rintro ⟨u, time, hfirst, rfl⟩
      exact ⟨u, time, hfirst, fun v hv x hx hlate => hfirst.isBefore_eq_false hv hx hlate, rfl⟩
    · rintro ⟨u, time, hfirst, -, rfl⟩
      exact ⟨u, time, hfirst, rfl⟩
  · rw [Option.eq_none_iff_forall_ne_some]
    constructor
    · intro hnone u hu
      obtain ⟨time, htime⟩ := Pattern.exists_eventTime? (d := d) hstop u (Direction.mem_order_iff.2 hu)
      refine ⟨time, htime, (Bool.not_eq_false _).mp fun hlate => ?_⟩
      obtain ⟨v, x, hfirst⟩ := Search.exists_firstInReach hu htime hlate
      exact hnone _ ((hboards _).2 ⟨v, x, hfirst, rfl⟩)
    · intro hearly b hb
      obtain ⟨u, time, hfirst, -⟩ := (hboards b).1 hb
      obtain ⟨x, hx, hbefore⟩ := hearly u hfirst.mem
      rw [hfirst.time_eq] at hx
      cases hx
      rw [hfirst.inReach] at hbefore
      cases hbefore

/-- A record that asks riders of the first trip of the crossing for a minute to change in the middle. -/
def minuteForFirstTrip : Transfer where
  id := ruleSlow
  origin := .trip tripA 1
  destination := .anywhere (.stop stopB)
  constraint := .minTransferTime 60

/-- A rider of that trip who arrives there at 520 seconds and could change at once. -/
def riderOfFirstTrip : BoardingRequest where
  sourceTrip := Spot.firstArrival.trip
  sourceStop := ⟨1⟩
  sourceTime := .ofInt 520
  earliest := .ofInt 520

/-- The departure at 570 seconds is missed, and the next one is found although the scan is to give up after no
ordinary trip at all. -/
theorem boarding?_singleton_crossing :
    crossing.patterns[1]? = some crossing.patterns[1] ∧
    crossing.Concerns minuteForFirstTrip 1 .forward 0 riderOfFirstTrip ∧
    (minuteForFirstTrip.target .forward).specificity ≠ .trip ∧
    (minuteForFirstTrip.constraint.isFacilitated = true ∨
      ∃ seconds, minuteForFirstTrip.constraint = .minTransferTime seconds) ∧
    Search.boarding? .forward ⟨false, 0⟩ crossing.patterns[1]
        ((crossing.ruleBook [minuteForFirstTrip]).index 1 .forward) 0 riderOfFirstTrip =
      some ⟨1, ⟨"d", by decide⟩, 0, ⟨1⟩, .ofInt 840, .ofInt 520, .minTransferTime 60⟩ := by
  have hconcerns : crossing.Concerns minuteForFirstTrip 1 .forward 0 riderOfFirstTrip :=
    ⟨⟨⟨0, 1, ⟨1⟩, .trip tripA⟩, by decide, rfl, rfl⟩, ⟨1, 0, ⟨1⟩, .any⟩, by decide, rfl, rfl⟩
  have hpattern : crossing.patterns[1]? = some crossing.patterns[1] := rfl
  have htarget : (minuteForFirstTrip.target .forward).specificity ≠ .trip := nofun
  have hconstraint : minuteForFirstTrip.constraint.isFacilitated = true ∨
      ∃ seconds, minuteForFirstTrip.constraint = .minTransferTime seconds := .inr ⟨60, rfl⟩
  refine ⟨hpattern, hconcerns, htarget, hconstraint, ?_⟩
  obtain ⟨stop, due, hstop, hdue, hboards, -⟩ :=
    boarding?_singleton hpattern hconcerns htarget hconstraint ⟨false, 0⟩
  cases hstop
  cases hdue
  -- a minute after 520 seconds is 580, and only the second departure is not before that
  have honly : ∀ v ∈ crossing.patterns[1].trips, ∀ x, Direction.eventTime? .forward v 0 = some x →
      Direction.isBefore .forward x (.ofInt 580) = false →
        v = crossing.patterns[1].trips[1] ∧ x = .ofInt 840 := by
    intro v hv x hx hlate
    rcases List.mem_cons.1 hv with rfl | hv
    · cases hx
      exact absurd hlate (by decide)
    · rw [List.mem_singleton.1 hv] at hx
      cases hx
      exact ⟨List.mem_singleton.1 hv, rfl⟩
  refine (hboards _).2 ⟨crossing.patterns[1].trips[1], .ofInt 840, ⟨?_, rfl, rfl, ?_⟩, ?_, rfl⟩
  · exact List.mem_cons_of_mem _ List.mem_cons_self
  · intro u hu x hx hlate
    rw [(honly u hu x hx hlate).1]
    exact .refl
  · intro v hv x hx hlate
    rw [(honly v hv x hx hlate).2]
    exact Direction.isBefore_self _ _

end Timetable

end Interchange
