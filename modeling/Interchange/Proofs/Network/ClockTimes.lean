import Interchange.Proofs.Network.Building
import Interchange.Proofs.Time.Reading

/-!
# The times of a network that is read

All times of a data set come from clock texts, so the trips of a network that is read from a text call at
times on the clock.

* `Snapshot.OnClock`, `Timetable.OnClock` — all times of a data set, and of a timetable, are on the clock.
* `Snapshot.yields_format` — so are those of every data set that is read. `Network.onClock_of_build` —
  building keeps them.
* `Network.onClock_of_ofString` — every trip of a network that is read from a text calls at such times.
-/

namespace Interchange

/-! ## Data sets -/

/-- All times of a trip record are on the clock. -/
structure TripRecord.OnClock (r : TripRecord) : Prop where
  arrivals : ∀ t ∈ r.arrivals, t.OnClock
  departures : ∀ ts ∈ r.departures, ∀ t ∈ ts, t.OnClock

/-- All times of a data set are on the clock. -/
def Snapshot.OnClock (s : Snapshot) : Prop := ∀ p ∈ s.patterns, ∀ t ∈ p.trips, t.OnClock

/-- Every time that is read is on the clock. -/
theorem Time.yields_format : Time.format.Yields Time.OnClock := by
  refine .of_checked ?_
  intro s t h
  unfold Time.read at h
  split at h
  · rename_i hparse
    cases h
    exact onClock_of_parse hparse
  · cases h

/-- So are the times of every trip that is read. -/
theorem TripRecord.yields_format : TripRecord.format.Yields TripRecord.OnClock := by
  apply Record.yields_format
  have htimes := Time.yields_format.list
  refine ((Members.yields_true _).and
    ((Record.yields_field htimes).and (Record.yields_fieldOpt htimes))).map ?_
  intro r hr
  exact ⟨hr.2.1, hr.2.2⟩

/-- So are the times of the trips of every pattern that is read. -/
theorem PatternRecord.yields_format :
    PatternRecord.format.Yields fun p => ∀ t ∈ p.trips, t.OnClock := by
  apply Record.yields_format
  refine ((Members.yields_true _).and ((Members.yields_true _).and ((Members.yields_true _).and
    (Record.yields_fieldOr TripRecord.yields_format.list (List.forall_mem_nil _))))).map ?_
  intro r hr
  exact hr.2.2.2

/-- **All times of a data set that is read are on the clock.** -/
theorem Snapshot.yields_format : Snapshot.format.Yields Snapshot.OnClock := by
  apply Record.yields_format
  have hpatterns := PatternRecord.yields_format.list
  refine ((Members.yields_true _).and ((Record.yields_fieldOr hpatterns (List.forall_mem_nil _)).and
    (Members.yields_true _))).map ?_
  intro r hr
  exact hr.2.1

/-! ## Networks -/

/-- All times of a trip are on the clock. -/
def Trip.OnClock (t : Trip) : Prop := ∀ c ∈ t.calls, c.arrival.OnClock ∧ c.departure.OnClock

/-- The event of such a trip at a position is on the clock. -/
theorem Trip.OnClock.eventTime? {t : Trip} (h : t.OnClock) {d : Direction} {p : Position} {time : Time}
    (htime : d.eventTime? t p = some time) : time.OnClock := by
  cases d with
  | forward =>
    obtain ⟨c, hc, rfl⟩ := Option.map_eq_some_iff.1 htime
    exact (h c (List.mem_of_getElem? hc)).2
  | reverse =>
    obtain ⟨c, hc, rfl⟩ := Option.map_eq_some_iff.1 htime
    exact (h c (List.mem_of_getElem? hc)).1

/-- All times of the trips of a timetable are on the clock. -/
def Timetable.OnClock (tt : Timetable) : Prop := ∀ p ∈ tt.patterns, ∀ t ∈ p.trips, t.OnClock

/-- A trip calls at the times of the record that makes it. -/
theorem TripRecord.Makes.onClock {route : RouteId} {r : TripRecord} {t : Trip} (h : r.Makes route t)
    (hr : r.OnClock) : t.OnClock := by
  have hdepartures : ∀ x ∈ r.departures.getD r.arrivals, x.OnClock := by
    rcases hd : r.departures with _ | ds
    · exact hr.arrivals
    · exact hr.departures ds hd
  obtain ⟨-, -, -, hcalls, -⟩ := Trip.ofTimes_eq_ok_iff.1 h
  intro c hc
  rw [hcalls] at hc
  obtain ⟨i, hi, rfl⟩ := List.getElem_of_mem hc
  simp only [List.getElem_zipWith]
  exact ⟨hr.arrivals _ (List.getElem_mem _), hdepartures _ (List.getElem_mem _)⟩

/-- The trips of a pattern call at the times of the record that makes it. -/
theorem PatternRecord.Makes.onClock {s : StopIndex} {r : PatternRecord} {p : Pattern} (h : r.Makes s p)
    (hr : ∀ t ∈ r.trips, t.OnClock) : ∀ t ∈ p.trips, t.OnClock := by
  obtain ⟨-, trips, hmakes, hp⟩ := h
  obtain ⟨-, -, -, htrips⟩ := Pattern.fields_of_ofTrips hp
  rw [htrips]
  refine Pattern.forall_mem_number (fun t i ht => ht) fun t ht => ?_
  obtain ⟨x, hx, hxt⟩ := exists_of_forall₂_of_mem hmakes ((arrange_perm _ _).mem_iff.1 ht)
  exact hxt.onClock (hr x hx)

namespace Network

/-- The trips of a network call at the times of the data set that it is built from. -/
theorem onClock_of_build {s : Snapshot} {n : Network} (h : build s = .ok n) (hs : s.OnClock) :
    n.timetable.OnClock := by
  intro p hp
  obtain ⟨-, -, hmakes, -⟩ := build_eq_ok_iff.1 h
  obtain ⟨r, hr, hmakes⟩ := PatternRecord.exists_makes_of_mem hmakes hp
  exact hmakes.onClock (hs r hr)

/-- **Every trip of a network that is read from a text calls at times on the clock.** -/
theorem onClock_of_ofString {text : String} {n : Network} (h : ofString text = .ok n) :
    n.timetable.OnClock := by
  unfold ofString at h
  split at h
  · rename_i s hs
    exact onClock_of_build h (Snapshot.yields_format.of_ofString hs)
  · cases h

end Network

end Interchange
