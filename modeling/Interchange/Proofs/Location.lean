import Interchange.Rule.Location
import Mathlib.Data.List.Nodup

/-!
# Which locations a point covers

`Timetable.Covers` says what a point covers without a look at how the locations are found: a stop or
station point covers every position of a pattern at which one of its stops stands, limited to the
patterns of a route if the point names one; a trip point covers its position of the last pattern that
carries the trip. `mem_locations_iff` — `Timetable.locations` lists exactly what is covered, with the
matcher of the point. `length_locationsAt_le_one` — at each position that is one location at most.
-/

namespace Interchange

/-- Along a numbered row the places rise, whichever of it are kept. -/
theorem rising_filter_zipIdx {α : Type} (l : List α) (f : α × Nat → Bool) :
    (l.zipIdx.filter f).Pairwise fun a b => a.2 < b.2 := by
  refine List.Pairwise.filter _ (List.pairwise_map.1 ?_)
  rw [List.zipIdx_map_snd]
  exact List.pairwise_lt_range'

/-! ## Stops and stations -/

namespace StopIndex

/-- Whether the stop with an ordinal is the stop, or belongs to the station, of a place. -/
def LiesAt (s : StopIndex) (o : StopOrdinal) : Place → Prop
  | .stop id => s.stopId? o = some id
  | .station id => s.station? o = some id

/-- Looking up an ordinal undoes looking up an id, and the other way round. -/
theorem ordinal?_eq_some_iff {s : StopIndex} {id : StopId} {o : StopOrdinal} :
    s.ordinal? id = some o ↔ s.stopId? o = some id := by
  obtain ⟨i⟩ := o
  have hlookup : s.ordinal? id = some ⟨i⟩ ↔
      s.stops.findIdx? (fun stop => stop.id = id) = some i := by
    simp [ordinal?]
  rw [hlookup, List.findIdx?_eq_some_iff_getElem]
  unfold stopId?
  constructor
  · rintro ⟨hi, hid, -⟩
    rw [List.getElem?_eq_getElem hi]
    simpa using hid
  · intro h
    obtain ⟨stop, hstop, rfl⟩ := Option.map_eq_some_iff.1 h
    obtain ⟨hi, hget⟩ := List.getElem?_eq_some_iff.1 hstop
    simp only at hi hget
    refine ⟨hi, by simp [hget], fun j hj => ?_⟩
    -- ids are distinct, so no stop in front has the same one
    have hne := List.pairwise_iff_getElem.1 (List.pairwise_map.1 s.distinct) j i (by omega) hi hj
    rw [hget] at hne
    simpa using hne

/-- The ids of an index are those of its stops. -/
theorem exists_stopId?_iff {s : StopIndex} {id : StopId} :
    (∃ o, s.stopId? o = some id) ↔ ∃ stop ∈ s.stops, stop.id = id := by
  unfold stopId?
  constructor
  · rintro ⟨o, h⟩
    obtain ⟨stop, hstop, hid⟩ := Option.map_eq_some_iff.1 h
    exact ⟨stop, List.mem_of_getElem? hstop, hid⟩
  · rintro ⟨stop, hstop, rfl⟩
    obtain ⟨i, hi⟩ := List.getElem?_of_mem hstop
    exact ⟨⟨i⟩, Option.map_eq_some_iff.2 ⟨stop, hi, rfl⟩⟩

/-- The members of a station are the stops that belong to it. -/
theorem mem_members_iff {s : StopIndex} {id : StationId} {o : StopOrdinal} :
    o ∈ s.members id ↔ s.station? o = some id := by
  unfold members station?
  rw [List.mem_map]
  constructor
  · rintro ⟨⟨stop, i⟩, he, rfl⟩
    obtain ⟨hmem, hstation⟩ := List.mem_filter.1 he
    rw [List.mem_zipIdx_iff_getElem?] at hmem
    rw [hmem, Option.bind_some]
    simpa using hstation
  · intro h
    obtain ⟨stop, hstop, hstation⟩ := Option.bind_eq_some_iff.1 h
    refine ⟨(stop, o.index), List.mem_filter.2 ⟨?_, by simpa using hstation⟩, rfl⟩
    rw [List.mem_zipIdx_iff_getElem?]
    exact hstop

/-- The members of a station are listed by rising ordinal. -/
theorem rising_members (s : StopIndex) (station : StationId) :
    (s.members station).Pairwise fun a b => a.index < b.index :=
  List.pairwise_map.2 (rising_filter_zipIdx _ _)

end StopIndex

/-! ## Patterns -/

namespace Pattern

/-- A trip runs on a pattern. -/
def Carries (p : Pattern) (trip : TripId) : Prop := ∃ t ∈ p.trips, t.id = trip

/-- A pattern calls at a stop at the positions where the stop stands in its sequence. -/
theorem mem_positionsOf_iff {p : Pattern} {stop : StopOrdinal} {q : Position} :
    q ∈ p.positionsOf stop ↔ p.stops[q]? = some stop := by
  unfold positionsOf
  rw [List.mem_map]
  constructor
  · rintro ⟨⟨o, i⟩, he, rfl⟩
    obtain ⟨hmem, ho⟩ := List.mem_filter.1 he
    rw [List.mem_zipIdx_iff_getElem?] at hmem
    rw [hmem]
    simpa using ho
  · intro h
    refine ⟨(stop, q), List.mem_filter.2 ⟨?_, by simp⟩, rfl⟩
    rw [List.mem_zipIdx_iff_getElem?]
    exact h

/-- The positions at which a pattern calls at a stop are listed in the order of travel. -/
theorem rising_positionsOf (p : Pattern) (stop : StopOrdinal) : (p.positionsOf stop).Pairwise (· < ·) :=
  List.pairwise_map.2 (rising_filter_zipIdx _ _)

end Pattern

/-- A matcher fits a pattern: it speaks about all trips, about those of the route of the pattern, or about one of
the trips of the pattern. -/
inductive Matcher.Fits : Matcher → Pattern → Prop
  | any (p : Pattern) : Fits .any p
  | route (p : Pattern) : Fits (.route p.route) p
  | trip {p : Pattern} {t : Trip} (ht : t ∈ p.trips) : Fits (.trip t.id) p

/-- A matcher that fits a pattern and does not name a trip speaks about every trip of the pattern. -/
theorem Matcher.Fits.accepts {m : Matcher} {p : Pattern} (h : m.Fits p) (hplace : m.specificity ≠ .trip)
    {t : Trip} (ht : t ∈ p.trips) : m.accepts t = true := by
  cases h with
  | any => rfl
  | route => exact decide_eq_true (p.fits t ht).2
  | trip => exact absurd rfl hplace

/-- Where places rise along a row, the last of the row is the one with the greatest place. -/
theorem getLast?_eq_some_iff_of_rising {α : Type} {l : List (α × Nat)}
    (h : l.Pairwise fun a b => a.2 < b.2) {e : α × Nat} :
    l.getLast? = some e ↔ e ∈ l ∧ ∀ x ∈ l, x.2 ≤ e.2 := by
  constructor
  · intro hlast
    obtain ⟨front, rfl⟩ := List.getLast?_eq_some_iff.1 hlast
    refine ⟨by simp, fun x hx => ?_⟩
    rcases List.mem_append.1 hx with hx | hx
    · exact Nat.le_of_lt ((List.pairwise_append.1 h).2.2 x hx e (by simp))
    · exact Nat.le_of_eq (congrArg Prod.snd (List.mem_singleton.1 hx))
  · rintro ⟨he, hmax⟩
    obtain ⟨front, rest, rfl⟩ := List.append_of_mem he
    cases rest with
    | nil => simp
    | cons x rest =>
      have hlt := (List.pairwise_cons.1 (List.pairwise_append.1 h).2.1).1 x (by simp)
      have := hmax x (by simp)
      omega

namespace Timetable

variable {tt : Timetable}

/-- The pattern at a place carries a trip, and no later one does. -/
def RunsOn (tt : Timetable) (trip : TripId) (i : Nat) : Prop :=
  (∃ p, tt.patterns[i]? = some p ∧ p.Carries trip) ∧
    ∀ j p, i < j → tt.patterns[j]? = some p → ¬ p.Carries trip

/-- A trip belongs to the last pattern that carries it. -/
theorem patternOfTrip?_eq_some_iff {trip : TripId} {i : Nat} :
    tt.patternOfTrip? trip = some i ↔ tt.RunsOn trip i := by
  have hmem : ∀ (p : Pattern) (j : Nat),
      (p, j) ∈ tt.patterns.zipIdx.filter (fun e => e.1.trips.any fun t => t.id = trip) ↔
        tt.patterns[j]? = some p ∧ p.Carries trip := by
    intro p j
    rw [List.mem_filter, List.mem_zipIdx_iff_getElem?, List.any_eq_true]
    simp only [decide_eq_true_eq, Pattern.Carries]
  have hrising := rising_filter_zipIdx tt.patterns fun e => e.1.trips.any fun t => t.id = trip
  unfold patternOfTrip? RunsOn
  rw [Option.map_eq_some_iff]
  constructor
  · rintro ⟨⟨p, j⟩, hlast, rfl⟩
    obtain ⟨he, hmax⟩ := (getLast?_eq_some_iff_of_rising hrising).1 hlast
    refine ⟨⟨p, (hmem p j).1 he⟩, fun k p' hk hp' hc => ?_⟩
    have := hmax (p', k) ((hmem p' k).2 ⟨hp', hc⟩)
    simp only at this hk
    omega
  · rintro ⟨⟨p, hp⟩, hlater⟩
    refine ⟨(p, i), (getLast?_eq_some_iff_of_rising hrising).2 ⟨(hmem p i).2 hp, ?_⟩, rfl⟩
    rintro ⟨p', k⟩ hk
    obtain ⟨hp', hc⟩ := (hmem p' k).1 hk
    exact Nat.le_of_not_lt fun hlt => hlater k p' hlt hp' hc

/-! ## What a point covers -/

/-- A point covers a position of a pattern, at which a stop stands: the stop is one of the place of
the point and the pattern is of its route, or the pattern is that of its trip and the position its
own. -/
def Covers (tt : Timetable) (point : Point) (i : Nat) (q : Position) (stop : StopOrdinal) : Prop :=
  ∃ pattern, tt.patterns[i]? = some pattern ∧ pattern.stops[q]? = some stop ∧
    match point with
    | .anywhere place => tt.stops.LiesAt stop place
    | .route id place => tt.stops.LiesAt stop place ∧ pattern.route = id
    | .trip id k => tt.RunsOn id i ∧ q = k

/-- A point covers positions of patterns, with the stops that stand there. -/
theorem Covers.exists_pattern {point : Point} {i : Nat} {q : Position} {stop : StopOrdinal}
    (h : tt.Covers point i q stop) :
    ∃ p, tt.patterns[i]? = some p ∧ p.stops[q]? = some stop := by
  obtain ⟨p, hp, hstop, -⟩ := h
  exact ⟨p, hp, hstop⟩

/-- A place stands for the stops that lie there. -/
theorem mem_stopsOf_iff {place : Place} {o : StopOrdinal} :
    o ∈ tt.stopsOf place ↔ tt.stops.LiesAt o place := by
  cases place with
  | stop id =>
    unfold stopsOf
    rw [Option.mem_toList]
    exact StopIndex.ordinal?_eq_some_iff
  | station id => exact StopIndex.mem_members_iff

/-- The visits of a stop are the positions at which it stands, in patterns of the route that is
given. -/
theorem mem_visits_iff {route? : Option RouteId} {m : Matcher} {stop : StopOrdinal} {l : Location} :
    l ∈ tt.visits route? m stop ↔
      l.stop = stop ∧ l.matcher = m ∧ ∃ pattern, tt.patterns[l.pattern]? = some pattern ∧
        pattern.stops[l.position]? = some stop ∧ ∀ r ∈ route?, pattern.route = r := by
  have hroute : ∀ p : Pattern,
      route?.all (fun r => decide (p.route = r)) = true ↔ ∀ r ∈ route?, p.route = r := by
    intro p
    cases route? <;> simp
  unfold visits
  rw [List.mem_flatMap]
  constructor
  · rintro ⟨⟨p, i⟩, he, hl⟩
    rw [List.mem_zipIdx_iff_getElem?] at he
    split at hl
    · rename_i hall
      obtain ⟨q, hq, rfl⟩ := List.mem_map.1 hl
      exact ⟨rfl, rfl, p, he, Pattern.mem_positionsOf_iff.1 hq, (hroute p).1 hall⟩
    · cases hl
  · rintro ⟨rfl, rfl, p, hp, hq, hall⟩
    refine ⟨(p, l.pattern), List.mem_zipIdx_iff_getElem?.2 hp, ?_⟩
    rw [if_pos ((hroute p).2 hall)]
    exact List.mem_map.2 ⟨l.position, Pattern.mem_positionsOf_iff.2 hq, rfl⟩

/-- The location of a trip point is the position of the last pattern that carries the trip. -/
theorem tripLocation?_eq_some_iff {id : TripId} {k : Position} {l : Location} :
    tt.tripLocation? id k = some l ↔
      l.matcher = .trip id ∧ l.position = k ∧ tt.RunsOn id l.pattern ∧
        ∃ pattern, tt.patterns[l.pattern]? = some pattern ∧
          pattern.stops[k]? = some l.stop := by
  unfold tripLocation?
  rw [Option.bind_eq_bind, Option.bind_eq_some_iff]
  constructor
  · rintro ⟨i, hi, h⟩
    rw [Option.bind_eq_bind, Option.bind_eq_some_iff] at h
    obtain ⟨p, hp, h⟩ := h
    rw [Option.bind_eq_bind, Option.bind_eq_some_iff] at h
    obtain ⟨stop, hstop, h⟩ := h
    cases h
    exact ⟨rfl, rfl, patternOfTrip?_eq_some_iff.1 hi, p, hp, hstop⟩
  · rintro ⟨hm, hq, hrun, p, hp, hstop⟩
    refine ⟨l.pattern, patternOfTrip?_eq_some_iff.2 hrun, ?_⟩
    rw [hp, Option.bind_eq_bind, Option.bind_some, hstop]
    obtain ⟨i, q, stop, m⟩ := l
    simp only at hm hq
    rw [hm, hq]
    rfl

/-- **The locations of a point are the positions that it covers**, each with the stop that stands
there and the trips that the point speaks about. -/
theorem mem_locations_iff {point : Point} {l : Location} :
    l ∈ tt.locations point ↔
      tt.Covers point l.pattern l.position l.stop ∧ l.matcher = point.matcher := by
  unfold locations Covers
  cases point with
  | anywhere place =>
    simp only [List.mem_flatMap, mem_stopsOf_iff, mem_visits_iff, Point.matcher]
    constructor
    · rintro ⟨o, ho, rfl, hm, p, hp, hq, -⟩
      exact ⟨⟨p, hp, hq, ho⟩, hm⟩
    · rintro ⟨⟨p, hp, hq, ho⟩, hm⟩
      exact ⟨l.stop, ho, rfl, hm, p, hp, hq, by simp⟩
  | route id place =>
    simp only [List.mem_flatMap, mem_stopsOf_iff, mem_visits_iff, Point.matcher]
    constructor
    · rintro ⟨o, ho, rfl, hm, p, hp, hq, hr⟩
      exact ⟨⟨p, hp, hq, ho, hr id rfl⟩, hm⟩
    · rintro ⟨⟨p, hp, hq, ho, hr⟩, hm⟩
      refine ⟨l.stop, ho, rfl, hm, p, hp, hq, fun r h => ?_⟩
      rw [hr, Option.mem_some.1 h]
  | trip id k =>
    simp only [Option.mem_toList, tripLocation?_eq_some_iff, Point.matcher]
    constructor
    · rintro ⟨hm, rfl, hrun, p, hp, hstop⟩
      exact ⟨⟨p, hp, hstop, hrun, rfl⟩, hm⟩
    · rintro ⟨⟨p, hp, hstop, hrun, rfl⟩, hm⟩
      exact ⟨hm, rfl, hrun, p, hp, hstop⟩

/-! ## Points that speak of places -/

/-- The matcher of a point fits the patterns that the point covers. -/
theorem fits_of_covers {point : Point} {i : Nat} {q : Position} {stop : StopOrdinal}
    (hcovers : tt.Covers point i q stop) {pattern : Pattern} (hpattern : tt.patterns[i]? = some pattern) :
    point.matcher.Fits pattern := by
  obtain ⟨covered, hcovered, -, hpoint⟩ := hcovers
  rw [hpattern] at hcovered
  cases hcovered
  cases point with
  | anywhere place => exact .any pattern
  | route id place =>
    obtain ⟨-, rfl⟩ := hpoint
    exact .route pattern
  | trip id k =>
    obtain ⟨⟨⟨carrier, hcarrier, t, ht, rfl⟩, -⟩, -⟩ := hpoint
    rw [hpattern] at hcarrier
    cases hcarrier
    exact .trip ht

/-- A point that does not name a trip speaks about every trip of a pattern that it covers. -/
theorem accepts_of_covers {point : Point} (hplace : point.specificity ≠ .trip) {i : Nat}
    {q : Position} {stop : StopOrdinal} (hcovers : tt.Covers point i q stop) {pattern : Pattern}
    (hpattern : tt.patterns[i]? = some pattern) {t : Trip} (ht : t ∈ pattern.trips) :
    point.matcher.accepts t = true :=
  (fits_of_covers hcovers hpattern).accepts (by rwa [Point.specificity_matcher]) ht

/-- A point that does not name a trip covers a stop wherever a trip that it speaks about calls there, if
it covers the stop anywhere. -/
theorem covers_of_accepts {point : Point} (hplace : point.specificity ≠ .trip) {i : Nat}
    {q : Position} {stop : StopOrdinal} {pattern : Pattern}
    (hpattern : tt.patterns[i]? = some pattern) (hstop : pattern.stops[q]? = some stop) {t : Trip}
    (ht : t ∈ pattern.trips) (haccepts : point.matcher.accepts t = true)
    (hcovers : ∃ j p, tt.Covers point j p stop) : tt.Covers point i q stop := by
  obtain ⟨j, p, covered, -, -, hpoint⟩ := hcovers
  refine ⟨pattern, hpattern, hstop, ?_⟩
  cases point with
  | anywhere place => exact hpoint
  | route id place =>
    have hroute : t.route = id := by simpa [Point.matcher, Matcher.accepts] using haccepts
    exact ⟨hpoint.1, (pattern.fits t ht).2.symm.trans hroute⟩
  | trip id k => exact absurd rfl hplace

/-- At a position a point covers no other stop than the one that stands there. -/
theorem Covers.stop_eq {point : Point} {i : Nat} {q : Position} {stop : StopOrdinal}
    (h : tt.Covers point i q stop) {pattern : Pattern} (hpattern : tt.patterns[i]? = some pattern) :
    pattern.stops[q]? = some stop := by
  obtain ⟨covered, hcovered, hstop⟩ := h.exists_pattern
  rw [hpattern] at hcovered
  cases hcovered
  exact hstop

/-! ## Each location once -/

/-- The stops that a place stands for are listed once each. -/
theorem nodup_stopsOf (tt : Timetable) (place : Place) : (tt.stopsOf place).Nodup := by
  cases place with
  | stop id =>
    exact Option.toList_nodup _
  | station id =>
    exact (tt.stops.rising_members id).imp fun h heq => Nat.ne_of_lt h (congrArg StopOrdinal.index heq)

/-- The visits of a stop are listed once each. -/
theorem nodup_visits (tt : Timetable) (route? : Option RouteId) (m : Matcher)
    (stop : StopOrdinal) : (tt.visits route? m stop).Nodup := by
  refine List.nodup_flatMap.2 ⟨fun e _ => ?_, ?_⟩
  · split
    · refine List.pairwise_map.2 ((e.1.rising_positionsOf stop).imp fun h heq => ?_)
      exact Nat.ne_of_lt h (Location.mk.inj heq).2.1
    · exact List.nodup_nil
  · -- visits of different patterns differ in the place of the pattern
    have hplaces : ∀ (e : Pattern × Nat) (l : Location),
        l ∈ (if route?.all (fun r => decide (e.1.route = r)) then
          (e.1.positionsOf stop).map fun p => (⟨e.2, p, stop, m⟩ : Location) else []) →
          l.pattern = e.2 := by
      intro e l hl
      split at hl
      · obtain ⟨q, -, rfl⟩ := List.mem_map.1 hl
        rfl
      · cases hl
    have hrising : tt.patterns.zipIdx.Pairwise fun a b => a.2 < b.2 := by
      simpa using rising_filter_zipIdx tt.patterns fun _ => true
    refine hrising.imp fun {a b} h l ha hb => ?_
    exact Nat.ne_of_lt h ((hplaces a l ha).symm.trans (hplaces b l hb))

/-- The locations of a point are listed once each. -/
theorem nodup_locations (tt : Timetable) (point : Point) : (tt.locations point).Nodup := by
  have hplace : ∀ route? m place, ((tt.stopsOf place).flatMap (tt.visits route? m)).Nodup := by
    intro route? m place
    refine List.nodup_flatMap.2 ⟨fun stop _ => tt.nodup_visits route? m stop, ?_⟩
    refine (tt.nodup_stopsOf place).imp fun hne l ha hb => hne ?_
    exact (mem_visits_iff.1 ha).1.symm.trans (mem_visits_iff.1 hb).1
  unfold locations
  cases point with
  | anywhere place => exact hplace _ _ place
  | route id place => exact hplace _ _ place
  | trip id k => exact Option.toList_nodup _

/-- The locations of a point at a position of a pattern. -/
def locationsAt (tt : Timetable) (point : Point) (i : Nat) (q : Position) : List Location :=
  (tt.locations point).filter fun l => l.pattern = i ∧ l.position = q

/-- Two locations of a point at one position are the same: they are told by the stop that stands there. -/
theorem eq_of_mem_locations {point : Point} {a b : Location} (ha : a ∈ tt.locations point)
    (hb : b ∈ tt.locations point) (hpattern : a.pattern = b.pattern) (hposition : a.position = b.position) :
    a = b := by
  obtain ⟨hca, hma⟩ := mem_locations_iff.1 ha
  obtain ⟨hcb, hmb⟩ := mem_locations_iff.1 hb
  obtain ⟨i, q, stop, m⟩ := a
  obtain ⟨i', q', stop', m'⟩ := b
  dsimp only at hpattern hposition hca hcb hma hmb
  subst hpattern hposition
  obtain ⟨p, hp, hstop⟩ := hca.exists_pattern
  have hstops : some stop = some stop' := hstop.symm.trans (hcb.stop_eq hp)
  rw [Option.some.inj hstops, hma, hmb]

/-- A point has at most one location at a position. -/
theorem length_locationsAt_le_one (tt : Timetable) (point : Point) (i : Nat) (q : Position) :
    (tt.locationsAt point i q).length ≤ 1 := by
  have hsame : ∀ a ∈ tt.locationsAt point i q, ∀ b ∈ tt.locationsAt point i q, a = b := by
    intro a ha b hb
    obtain ⟨ha, hata⟩ := List.mem_filter.1 ha
    obtain ⟨hb, hatb⟩ := List.mem_filter.1 hb
    simp only [decide_eq_true_eq] at hata hatb
    exact eq_of_mem_locations ha hb (hata.1.trans hatb.1.symm) (hata.2.trans hatb.2.symm)
  have hnodup : (tt.locationsAt point i q).Nodup := (tt.nodup_locations point).filter _
  rcases h : tt.locationsAt point i q with _ | ⟨a, _ | ⟨b, rest⟩⟩
  · simp
  · simp
  · rw [h] at hsame hnodup
    exact absurd (hsame a (by simp) b (by simp)) fun heq => by simp [heq] at hnodup

end Timetable

end Interchange
