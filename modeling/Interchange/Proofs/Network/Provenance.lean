import Interchange.Proofs.Network.Rearrangement
import Interchange.Proofs.Network.Records
import Interchange.Proofs.Search.FirstInReach
import Interchange.Service.Message

/-!
# Where a boarding comes from

Between a snapshot and an answer stand numbers of stops, arranged and numbered trips, calls made of two lists
of times, and slots of entries. All that an answer says can still be found in the records.

* `PatternRecord.Makes.exists_record` — a trip of a pattern is one of the records: its calls, and its number is
  how many other records start before it.
* `Snapshot.Covers`, `Point.SpeaksOf` — what a point means for the records. `Timetable.Covers.recorded` and
  `Point.speaksOf_of_accepts` — what it means for the timetable comes from there.
* `Search.judge_constraint` — a boarding is regular, or its constraint is that of the rule for its trip.
  `Snapshot.Permits` — a recorded rule permits a change. `exists_permits_of_prevails` — an entry that prevails
  goes back to one.
* `Snapshot.Traces` — where the parts of a boarding are recorded. `Network.exists_traces_of_boarding` — every
  boarding has a trace.
-/

namespace Interchange

/-! ## Trips -/

/-- The times of a record that count in a direction: departures in a forward search, arrivals in a reverse
search. -/
def TripRecord.eventTimes (t : TripRecord) : Direction → List Time
  | .forward => t.departureTimes
  | .reverse => t.arrivals

/-- The event of a trip that calls as is recorded is the recorded time. -/
theorem TripRecord.getElem?_eventTimes {record : TripRecord} {t : Trip} (h : record.calls = t.calls)
    {d : Direction} {q : Position} {time : Time} (htime : d.eventTime? t q = some time) :
    (record.eventTimes d)[q]? = some time := by
  cases d with
  | forward =>
    obtain ⟨c, hc, rfl⟩ := Option.map_eq_some_iff.1 htime
    rw [← h] at hc
    exact (getElem?_calls.1 hc).2
  | reverse =>
    obtain ⟨c, hc, rfl⟩ := Option.map_eq_some_iff.1 htime
    rw [← h] at hc
    exact (getElem?_calls.1 hc).1

/-- Where two rows match, the elements at one place are matched. -/
theorem exists_getElem?_of_forall₂ {α β : Type} {R : α → β → Prop} {as : List α} {bs : List β}
    (h : List.Forall₂ R as bs) {i : Nat} {b : β} (hb : bs[i]? = some b) :
    ∃ a, as[i]? = some a ∧ R a b := by
  induction h generalizing i with
  | nil => cases hb
  | cons hab _ ih =>
    cases i with
    | zero =>
      cases hb
      exact ⟨_, rfl, hab⟩
    | succ i => exact ih hb

/-- A trip of a numbered row is the one at its place, with the number of the place. -/
theorem Pattern.getElem?_number_eq_some_iff {trips : List Trip} {i : Nat} {t : Trip} :
    (number trips)[i]? = some t ↔ ∃ u, trips[i]? = some u ∧ { u with index := i } = t := by
  unfold number
  rw [List.getElem?_map, List.getElem?_zipIdx]
  cases trips[i]? <;> simp

/-- **A trip of a pattern is recorded**: a record has its id and its calls, and its number is how many of the
other records start before that one. -/
theorem PatternRecord.Makes.exists_record {s : StopIndex} {r : PatternRecord} {p : Pattern}
    (h : r.Makes s p) (hids : (r.trips.map (·.id)).Nodup) {t : Trip} (ht : t ∈ p.trips) :
    ∃ record ∈ r.trips, record.id = t.id ∧ record.calls = t.calls ∧
      (r.trips.countP fun x => x.startsBefore record) = t.index := by
  obtain ⟨-, trips, hmakes, hmade⟩ := h
  obtain ⟨-, -, -, htrips⟩ := Pattern.fields_of_ofTrips hmade
  obtain ⟨row, hrow, harranged⟩ := PatternRecord.exists_row hmakes
  -- the trip stands in the arrangement at the place of its number
  have hplace := Pattern.getElem?_index ht
  rw [htrips, Pattern.getElem?_number_eq_some_iff] at hplace
  obtain ⟨u, hu, heq⟩ := hplace
  have hid : u.id = t.id := by rw [← heq]
  have hcalls : u.calls = t.calls := by rw [← heq]
  obtain ⟨record, hrecord, hmake⟩ := exists_getElem?_of_forall₂ harranged hu
  obtain ⟨hid', -, -, hcalls', -⟩ := TripRecord.makes_iff.1 hmake
  exact ⟨record, hrow.perm.mem_iff.1 (List.mem_of_getElem? hrecord), hid'.symm.trans hid,
    hcalls'.symm.trans hcalls, hrow.countP_startsBefore hids hrecord⟩

/-! ## Points -/

/-- Whether a stop is the stop, or is recorded as one of the station, of a place. -/
def Snapshot.LiesAt (s : Snapshot) (stop : StopId) : Place → Prop
  | .stop id => stop = id
  | .station id => ∃ x ∈ s.stops, x.id = stop ∧ x.station = some id

/-- A point covers a position of a recorded pattern, at which a stop stands: the stop lies at the place of the
point and the pattern is of its route, or the pattern has its trip and the position is its own. -/
def Snapshot.Covers (s : Snapshot) (point : Point) (r : PatternRecord) (q : Position) (stop : StopId) : Prop :=
  r.stops[q]? = some stop ∧
    match point with
    | .anywhere place => s.LiesAt stop place
    | .route id place => s.LiesAt stop place ∧ r.route = id
    | .trip id k => (∃ t ∈ r.trips, t.id = id) ∧ q = k

/-- A point speaks of a trip of a recorded pattern: of every trip, of those on its route, or of its own trip. -/
def Point.SpeaksOf (point : Point) (r : PatternRecord) (trip : TripId) : Prop :=
  match point with
  | .anywhere _ => True
  | .route id _ => r.route = id
  | .trip id _ => trip = id

/-- A pattern runs on the route of its record. -/
theorem PatternRecord.Makes.route_eq {s : StopIndex} {r : PatternRecord} {p : Pattern} (h : r.Makes s p) :
    p.route = r.route := by
  obtain ⟨-, trips, -, hp⟩ := h
  exact (Pattern.fields_of_ofTrips hp).2.1

/-- A stop of a pattern has the id that is recorded at its position. -/
theorem PatternRecord.Makes.getElem?_stops {s : StopIndex} {r : PatternRecord} {p : Pattern}
    (h : r.Makes s p) {q : Position} {o : StopOrdinal} (ho : p.stops[q]? = some o) :
    ∃ id, s.stopId? o = some id ∧ r.stops[q]? = some id := by
  have hplace : (p.stops.map s.stopId?)[q]? = (r.stops.map some)[q]? := by rw [h.1]
  rw [List.getElem?_map, List.getElem?_map, ho, Option.map_some] at hplace
  obtain ⟨id, hid, heq⟩ := Option.map_eq_some_iff.1 hplace.symm
  exact ⟨id, heq.symm, hid⟩

/-- A trip of a recorded pattern is spoken of where its matcher accepts it. -/
theorem Point.speaksOf_of_accepts {s : StopIndex} {r : PatternRecord} {p : Pattern} (h : r.Makes s p)
    {t : Trip} (ht : t ∈ p.trips) {point : Point} (haccepts : point.matcher.accepts t = true) :
    point.SpeaksOf r t.id := by
  cases point with
  | anywhere place => trivial
  | route id place =>
    have hroute : t.route = id := of_decide_eq_true haccepts
    rw [← hroute, (p.fits t ht).2]
    exact h.route_eq.symm
  | trip id k =>
    show t.id = id
    exact of_decide_eq_true haccepts

/-- A stop with an ordinal lies at a place when it is recorded so. -/
theorem StopIndex.LiesAt.recorded {stops : StopIndex} {s : Snapshot} (hstops : stops.stops = s.stops)
    {o : StopOrdinal} {place : Place} (h : stops.LiesAt o place) {id : StopId}
    (hid : stops.stopId? o = some id) : s.LiesAt id place := by
  cases place with
  | stop id' => exact Option.some.inj (hid.symm.trans h)
  | station id' =>
    obtain ⟨stop, hstop, hstation⟩ := Option.bind_eq_some_iff.1 h
    unfold stopId? at hid
    rw [hstop, Option.map_some] at hid
    refine ⟨stop, ?_, Option.some.inj hid, hstation⟩
    rw [← hstops]
    exact List.mem_of_getElem? hstop

/-- **What a point covers in the timetable it covers in the records.** -/
theorem Timetable.Covers.recorded {tt : Timetable} {s : Snapshot} (hstops : tt.stops.stops = s.stops)
    {point : Point} {i : Nat} {q : Position} {o : StopOrdinal} (h : tt.Covers point i q o) {p : Pattern}
    (hp : tt.patterns[i]? = some p) {r : PatternRecord} (hr : r.Makes tt.stops p) {id : StopId}
    (hid : tt.stops.stopId? o = some id) : s.Covers point r q id := by
  obtain ⟨covered, hcovered, hstop, hpoint⟩ := h
  rw [hp] at hcovered
  cases hcovered
  obtain ⟨id', hid', hplace⟩ := hr.getElem?_stops hstop
  rw [hid] at hid'
  cases hid'
  refine ⟨hplace, ?_⟩
  cases point with
  | anywhere place => exact StopIndex.LiesAt.recorded hstops hpoint hid
  | route route place =>
    exact ⟨StopIndex.LiesAt.recorded hstops hpoint.1 hid, hr.route_eq.symm.trans hpoint.2⟩
  | trip trip k =>
    obtain ⟨⟨⟨carrier, hcarrier, t, ht, rfl⟩, -⟩, rfl⟩ := hpoint
    rw [hp] at hcarrier
    cases hcarrier
    have hmem : t.id ∈ r.trips.map (·.id) :=
      hr.map_id_trips_perm.mem_iff.1 (List.mem_map_of_mem ht)
    obtain ⟨record, hrecord, heq⟩ := List.mem_map.1 hmem
    exact ⟨⟨record, hrecord, heq⟩, rfl⟩

/-! ## Rules -/

/-- A recorded rule permits a change from a trip at a stop to a trip of a recorded pattern at a position: its
side of the rider covers the stop somewhere and speaks of the rider's trip, and its other side covers the
position and speaks of the trip there. -/
structure Snapshot.Permits (s : Snapshot) (rule : Transfer) (d : Direction) (sourceStop : StopId)
    (sourceTrip : TripId) (r : PatternRecord) (q : Position) (trip : TripId) : Prop where
  source_covers : ∃ r' ∈ s.patterns, ∃ k, s.Covers (rule.source d) r' k sourceStop
  source_speaks : ∃ r' ∈ s.patterns, (∃ t ∈ r'.trips, t.id = sourceTrip) ∧
    (rule.source d).SpeaksOf r' sourceTrip
  target_covers : ∃ stop, s.Covers (rule.target d) r q stop
  target_speaks : (rule.target d).SpeaksOf r trip

namespace Search

/-- **The constraint of a boarding** is regular or that of the rule for its trip. -/
theorem judge_constraint (d : Direction) (cfg : SearchConfig) (r : BoardingRequest) (rule : Option Entry)
    (time : Time) :
    (judge d cfg r rule time).constraint = .regular ∨
      ∃ e, rule = some e ∧ (judge d cfg r rule time).constraint = e.constraint := by
  have hordinary : (judgeOrdinary d r time).constraint = .regular := by
    unfold judgeOrdinary
    split <;> rfl
  cases rule with
  | none => exact .inl hordinary
  | some e =>
    cases hc : e.constraint with
    | regular => simpa only [judge, hc] using .inl hordinary
    | guaranteed => simp [judge, hc, Verdict.constraint]
    | staySeated => simp [judge, hc, Verdict.constraint]
    | notAllowed =>
      simp only [judge, hc]
      split <;> simp [hc, Verdict.constraint]
    | minTransferTime seconds =>
      simp only [judge, hc]
      split <;> simp [hc, Verdict.constraint]

end Search

/-! ## Boardings -/

/-- Where the parts of a boarding are recorded: the pattern that the query names, a trip of it, and the stop
at the position. -/
structure Snapshot.Traces (s : Snapshot) (stops : StopIndex) (q : Network.Query) (b : Boarding)
    (r : PatternRecord) (t : TripRecord) (stop : Stop) : Prop where
  /-- The record is the one that the query names. -/
  pattern_iff : ∀ r', r' ∈ s.patterns ∧ r'.id = q.pattern ↔ r' = r
  /-- The boarding is at the position of the query, which is one of the pattern. -/
  position_eq : b.position = q.position
  position_lt : q.position < r.stops.length
  /-- The trip is recorded for the pattern. -/
  mem : t ∈ r.trips
  trip_eq : b.trip = t.id
  /-- Its number is how many trips of the pattern start before it. -/
  index_eq : b.tripIndex = r.trips.countP fun x => x.startsBefore t
  /-- The time is recorded for it at the position, and is not before the time of the rider. -/
  time_eq : (t.eventTimes q.direction)[q.position]? = some b.time
  inReach : q.direction.isBefore b.time q.sourceTime = false
  /-- The constraint is regular or comes from a recorded rule that permits the change. -/
  constraint : b.constraint = .regular ∨ ∃ rule ∈ s.transfers, b.constraint = rule.constraint ∧
    s.Permits rule q.direction q.sourceStop q.sourceTrip r q.position t.id
  /-- The stop is the one listed stop with the id that is recorded at the position. -/
  stop_iff : ∀ x, x ∈ s.stops ∧ r.stops[q.position]? = some x.id ↔ x = stop
  /-- The answer tells the id of the stop, its station, and all the rest as it is, with the texts of the
  times. -/
  answer_eq : BoardingAnswer.ofBoarding stops b =
    { tripIndex := b.tripIndex
      trip := t.id.text
      position := q.position
      stop := stop.id.text
      station := stop.station.map (·.text)
      time := b.time.text
      earliest := b.earliest.text
      constraint := b.constraint }
  /-- The id of the stop is not the empty text that stands for an unknown stop. -/
  stop_ne : (BoardingAnswer.ofBoarding stops b).stop ≠ ""

namespace Network

variable {s : Snapshot} {n : Network}

/-- Every pattern of a network is made by a record, whose trips have ids of their own. -/
theorem exists_record_of_build (hn : build s = .ok n) {p : Pattern} (hp : p ∈ n.timetable.patterns) :
    ∃ r ∈ s.patterns, r.Makes n.timetable.stops p ∧ (r.trips.map (·.id)).Nodup := by
  obtain ⟨-, -, hmakes, htrips, -⟩ := build_eq_ok_iff.1 hn
  obtain ⟨r, hr, hmake⟩ := PatternRecord.exists_makes_of_mem hmakes hp
  exact ⟨r, hr, hmake, hmake.map_id_trips_perm.nodup_iff.1 ((List.nodup_flatMap.1 htrips).1 p hp)⟩

/-- **An entry that prevails for a trip goes back to a recorded rule** that permits the change to it. -/
theorem exists_permits_of_prevails (hn : build s = .ok n) {i : Nat} {p : Pattern}
    (hp : n.timetable.patterns[i]? = some p) {r : PatternRecord} (hr : r.Makes n.timetable.stops p)
    {d : Direction} {q : Position} {request : BoardingRequest} {t : Trip} (ht : t ∈ p.trips) {e : Entry}
    (he : Search.Prevails ((n.timetable.ruleBook s.transfers).slot i d q) request t e) {sourceStop : StopId}
    (hstop : n.timetable.stops.stopId? request.sourceStop = some sourceStop) {pt : Pattern}
    (hpt : pt ∈ n.timetable.patterns) (hsource : request.sourceTrip ∈ pt.trips) :
    ∃ rule ∈ s.transfers, e.constraint = rule.constraint ∧
      s.Permits rule d sourceStop request.sourceTrip.id r q t.id := by
  obtain ⟨hstops, -⟩ := build_eq_ok_iff.1 hn
  have hdescribes := Timetable.describes_ruleBook n.timetable s.transfers i d q
  obtain ⟨rule, ⟨front, rest, hrules, hclaims, -⟩, hconstraint, -⟩ :=
    hdescribes.first e he.counts.applies.mem
  obtain ⟨⟨j, k, hcovers⟩, hsourceEq, ⟨o, htarget⟩, htargetEq⟩ := hclaims
  have haccepts := he.counts.applies.accepts
  have haccepts' := he.accepts
  rw [hsourceEq] at haccepts
  rw [htargetEq] at haccepts'
  rw [he.counts.applies.stop_eq] at hcovers
  -- the pattern that the rider's side covers, and the one that the rider's trip runs on
  obtain ⟨covered, hcovered, -⟩ := hcovers.exists_pattern
  obtain ⟨r', hr', hmake', -⟩ := exists_record_of_build hn (List.mem_of_getElem? hcovered)
  obtain ⟨r'', hr'', hmake'', -⟩ := exists_record_of_build hn hpt
  have hrecorded : ∃ t' ∈ r''.trips, t'.id = request.sourceTrip.id :=
    List.mem_map.1 (hmake''.map_id_trips_perm.mem_iff.1 (List.mem_map_of_mem hsource))
  obtain ⟨id, hid, -⟩ := hr.getElem?_stops (htarget.stop_eq hp)
  refine ⟨rule, hrules ▸ by simp, hconstraint, ?_, ?_, ?_, ?_⟩
  · exact ⟨r', hr', k, hcovers.recorded hstops hcovered hmake' hstop⟩
  · exact ⟨r'', hr'', hrecorded, Point.speaksOf_of_accepts hmake'' hsource haccepts⟩
  · exact ⟨id, htarget.recorded hstops hp hr hid⟩
  · exact Point.speaksOf_of_accepts hr ht haccepts'

/-- **Every boarding can be traced back to the snapshot**: its trip, its number, its position, its time and its
stop to the records, and its constraint to a recorded rule unless it is regular. -/
theorem exists_traces_of_boarding (hn : build s = .ok n) {cfg : SearchConfig} {q : Query} {b : Boarding}
    (h : n.boarding cfg q = .ok (some b)) : ∃ r t stop, s.Traces n.timetable.stops q b r t stop := by
  obtain ⟨hstops, hids, -, -, hnetwork⟩ := build_eq_ok_iff.1 hn
  have hsound := sound_of_build hn
  obtain ⟨p, rules, pt, sourceTrip, sourceStop, hfound, hlocate, hordinal, hb⟩ := boarding_eq_ok_iff.1 h
  -- the pattern that is searched, and its record
  obtain ⟨i, hi, -, hname⟩ := (patternWithRules?_eq_some_iff hsound hnetwork).1 hfound
  have hmem := List.mem_of_getElem? hi
  obtain ⟨rules', hfound', hindex⟩ := patternWithRules?_of_pattern hsound hnetwork hi
  rw [hname, hfound] at hfound'
  cases hfound'
  obtain ⟨r, hr, hmake, htripIds⟩ := exists_record_of_build hn hmem
  -- the candidate that is boarded, and its record
  rw [hindex] at hb
  obtain ⟨c, hc, o, ho, rfl⟩ := Search.exists_candidate_of_inSlot? hb.symm
  obtain ⟨htrip, htime, hreach, hverdict⟩ := Search.mem_survey_iff.1 hc
  rw [Direction.mem_order_iff] at htrip
  rw [Query.sourceTime_request] at hreach
  obtain ⟨record, hrecord, hid, hcalls, hindexEq⟩ := hmake.exists_record htripIds htrip
  -- the stop at the position, and its record
  obtain ⟨id, hid', hplace⟩ := hmake.getElem?_stops ho
  obtain ⟨stop, hstop, rfl⟩ := Option.map_eq_some_iff.1 hid'
  have hstopMem : stop ∈ s.stops := hstops ▸ List.mem_of_getElem? hstop
  have hstopIds : (s.stops.map (·.id)).Nodup := hstops ▸ n.timetable.stops.distinct
  have hanswer : BoardingAnswer.ofBoarding n.timetable.stops
      (c.boarding o q.position (q.request sourceTrip sourceStop)) =
      { tripIndex := c.trip.index
        trip := record.id.text
        position := q.position
        stop := stop.id.text
        station := stop.station.map (·.text)
        time := c.time.text
        earliest := (q.request sourceTrip sourceStop).earliest.text
        constraint := c.verdict.constraint } := by
    unfold BoardingAnswer.ofBoarding Search.Candidate.boarding StopIndex.stopId? StopIndex.station?
    simp only [hstop, hid, Option.map_some, Option.getD_some, Option.bind_some]
  refine ⟨r, record, stop, ?_⟩
  refine
    { pattern_iff := fun r' => ⟨fun hr' => ?_, ?_⟩
      position_eq := rfl
      position_lt := (List.getElem?_eq_some_iff.1 hplace).1
      mem := hrecord
      trip_eq := hid.symm
      index_eq := hindexEq.symm
      time_eq := TripRecord.getElem?_eventTimes hcalls htime
      inReach := hreach
      constraint := ?_
      stop_iff := fun x => ⟨fun hx => ?_, ?_⟩
      answer_eq := hanswer
      stop_ne := ?_ }
  · exact List.inj_on_of_nodup_map hids hr'.1 hr (hr'.2.trans (hname.symm.trans hmake.id_eq))
  · rintro rfl
    exact ⟨hr, hmake.id_eq.symm.trans hname⟩
  · obtain ⟨hpt, hsource, htripId⟩ := (locate?_eq_some_iff hsound hnetwork).1 hlocate
    rw [← q.sourceTrip_request sourceTrip sourceStop] at hsource htripId
    have hsourceStop : n.timetable.stops.stopId? (q.request sourceTrip sourceStop).sourceStop =
        some q.sourceStop := by
      rw [Query.sourceStop_request]
      exact StopIndex.ordinal?_eq_some_iff.1 hordinal
    have hwell := Timetable.wellFormed_slot_ruleBook n.timetable s.transfers i q.direction q.position
    show c.verdict.constraint = .regular ∨ ∃ rule ∈ s.transfers, c.verdict.constraint = rule.constraint ∧ _
    rw [hverdict, hid, ← htripId]
    refine (Search.judge_constraint _ _ _ _ _).imp id ?_
    rintro ⟨e, he, hconstraint⟩
    rw [hconstraint]
    exact exists_permits_of_prevails hn hi hmake htrip ((Search.rule?_eq_some_iff hwell).1 he) hsourceStop
      hpt hsource
  · refine List.inj_on_of_nodup_map hstopIds hx.1 hstopMem ?_
    exact Option.some.inj (hx.2.symm.trans hplace)
  · rintro rfl
    exact ⟨hstopMem, hplace⟩
  · rw [hanswer]
    exact stop.id.text_ne_empty

/-- A query at the stop in the middle of the crossing, of a rider who arrives there on the first trip. -/
def heldQuery : Query where
  pattern := Timetable.patternQ
  position := 0
  direction := .forward
  sourceTrip := Timetable.tripA
  sourceStop := Timetable.stopB
  sourceTime := .ofInt 600
  earliest := .at (.ofInt 700)

/-- At the crossing the rider boards the second trip from there, which is held. -/
theorem exists_traces_of_boarding_crossing :
    ∃ n b, build storedCrossing = .ok n ∧ n.boarding .default heldQuery = .ok (some b) ∧
      b.trip = ⟨"d", by decide⟩ ∧ b.constraint = .guaranteed ∧
      ∃ r t stop, storedCrossing.Traces n.timetable.stops heldQuery b r t stop := by
  obtain ⟨n, hn⟩ : ∃ n, build storedCrossing = .ok n := ⟨_, rfl⟩
  have hboarding : n.boarding .default heldQuery = .ok (some
      { tripIndex := 1
        trip := ⟨"d", by decide⟩
        position := 0
        stop := ⟨1⟩
        time := .ofInt 840
        earliest := .ofInt 700
        constraint := .guaranteed }) := by
    cases hn
    rfl
  exact ⟨n, _, hn, hboarding, rfl, rfl, exists_traces_of_boarding hn hboarding⟩

end Network

end Interchange
