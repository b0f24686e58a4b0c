import Interchange.Proofs.Network.Rearrangement
import Interchange.Proofs.Network.Records

/-!
# Which snapshots are sound

A snapshot makes a network exactly when its stops, patterns and trips are as a timetable needs them. What is
said here of the records mentions no number of a stop, no arranged trip and no order in which the checks are
made, and nothing of the recorded rules.

* `TripRecord.Valid`, `PatternRecord.Valid`, `Snapshot.Valid` — the records of a timetable.
* `PatternRecord.exists_makes_iff` — when a record makes a pattern.
* `Network.exists_build_iff_valid` — when a snapshot makes a network.
-/

namespace Interchange

/-! ## Valid records -/

/-- A trip fits stops in number, and its times never run backwards: it arrives, departs, arrives at the next
stop, and so on. -/
structure TripRecord.Valid (stops : Nat) (r : TripRecord) : Prop where
  arrivals_length : r.arrivals.length = stops
  departures_length : ∀ departures, r.departures = some departures → departures.length = stops
  neverBack : (Call.interleave r.calls).IsChain (· ≤ ·)

/-- A trip is nowhere ahead of another: at every stop it arrives and departs no later. -/
def TripRecord.Precedes (a b : TripRecord) : Prop :=
  ∀ (p : Position) (x y : Call), a.calls[p]? = some x → b.calls[p]? = some y →
    x.arrival ≤ y.arrival ∧ x.departure ≤ y.departure

/-- A pattern has stops, all of them listed, and valid trips, of which in the order of their starts none is
ahead of the one in front of it. -/
structure PatternRecord.Valid (listed : List Stop) (r : PatternRecord) : Prop where
  stops_ne_nil : r.stops ≠ []
  stops_listed : ∀ id ∈ r.stops, ∃ stop ∈ listed, stop.id = id
  trips : ∀ t ∈ r.trips, t.Valid r.stops.length
  neverOvertaken : ∃ row, r.Row row ∧ row.IsChain TripRecord.Precedes

/-- A snapshot has valid patterns, and no two of its stops, of its patterns or of its trips share an id. -/
structure Snapshot.Valid (s : Snapshot) : Prop where
  stops_distinct : (s.stops.map (·.id)).Nodup
  patterns_distinct : (s.patterns.map (·.id)).Nodup
  patterns : ∀ r ∈ s.patterns, r.Valid s.stops
  trips_distinct : (s.patterns.flatMap fun r => r.trips.map (·.id)).Nodup

/-! ## Trips -/

/-- A valid record departs as often as it arrives, whether its departures are stored or not. -/
theorem TripRecord.Valid.length_departureTimes {stops : Nat} {r : TripRecord} (h : r.Valid stops) :
    r.departureTimes.length = stops := by
  unfold departureTimes
  rcases hd : r.departures with _ | departures
  · exact h.arrivals_length
  · exact h.departures_length departures hd

/-- **A record is valid when it makes a trip that calls as often as there are stops**, of which there is at
least one. -/
theorem TripRecord.valid_iff {route : RouteId} {stops : Nat} (hstops : stops ≠ 0) {r : TripRecord} :
    r.Valid stops ↔ ∃ t, r.Makes route t ∧ t.calls.length = stops := by
  constructor
  · intro h
    have hlen : r.arrivals.length = r.departureTimes.length := by
      rw [h.arrivals_length, h.length_departureTimes]
    have hne : r.arrivals ≠ [] := by
      intro hnil
      apply hstops
      rw [← h.arrivals_length, hnil, List.length_nil]
    obtain ⟨t, ht⟩ : ∃ t, r.Makes route t := exists_makes_iff.2 ⟨hne, hlen, h.neverBack⟩
    obtain ⟨-, -, -, hcalls, -⟩ := makes_iff.1 ht
    refine ⟨t, ht, ?_⟩
    rw [hcalls, length_calls hlen, h.arrivals_length]
  · rintro ⟨t, ht, hcount⟩
    obtain ⟨-, hlen, hordered⟩ := exists_makes_iff.1 ⟨t, ht⟩
    obtain ⟨-, -, -, hcalls, -⟩ := makes_iff.1 ht
    rw [hcalls, length_calls hlen] at hcount
    refine ⟨hcount, fun departures hd => ?_, hordered⟩
    unfold departureTimes at hlen
    rw [hd, Option.getD_some] at hlen
    rw [← hlen, hcount]

/-- Trips precede each other as their records do. -/
theorem TripRecord.Makes.precedes_iff {route : RouteId} {r r' : TripRecord} {t t' : Trip}
    (h : r.Makes route t) (h' : r'.Makes route t') : r.Precedes r' ↔ t.Precedes t' := by
  obtain ⟨-, -, -, hcalls, -⟩ := makes_iff.1 h
  obtain ⟨-, -, -, hcalls', -⟩ := makes_iff.1 h'
  unfold Precedes Trip.Precedes
  rw [hcalls, hcalls']

/-- Records that each make a trip make a row of trips. -/
theorem exists_forall₂_of_forall_mem {α β : Type} {R : α → β → Prop} {as : List α}
    (h : ∀ a ∈ as, ∃ b, R a b) : ∃ bs, List.Forall₂ R as bs := by
  induction as with
  | nil => exact ⟨[], .nil⟩
  | cons a as ih =>
    obtain ⟨b, hb⟩ := h a List.mem_cons_self
    obtain ⟨bs, hbs⟩ := ih fun a ha => h a (List.mem_cons_of_mem _ ha)
    exact ⟨b :: bs, .cons hb hbs⟩

/-! ## Patterns -/

/-- Stops are as many as the ids that they have. -/
theorem StopIndex.length_eq_of_map_stopId? {s : StopIndex} {os : List StopOrdinal} {ids : List StopId}
    (h : os.map s.stopId? = ids.map some) : os.length = ids.length := by
  have hcount := congrArg List.length h
  rwa [List.length_map, List.length_map] at hcount

/-- **When a record makes a pattern.** Where its trips have ids of their own, it does when it is valid. -/
theorem PatternRecord.exists_makes_iff {s : StopIndex} {r : PatternRecord}
    (hids : (r.trips.map (·.id)).Nodup) : (∃ p, r.Makes s p) ↔ r.Valid s.stops := by
  have hchain : ∀ {row : List TripRecord} {trips : List Trip},
      List.Forall₂ (TripRecord.Makes r.route) row trips →
        (row.IsChain TripRecord.Precedes ↔ trips.IsChain Trip.Precedes) := fun hmakes =>
    isChain_iff_of_forall₂ (fun _ _ _ _ h h' => TripRecord.Makes.precedes_iff h h') hmakes
  constructor
  · rintro ⟨p, hp⟩
    have hcount := StopIndex.length_eq_of_map_stopId? hp.1
    have hregistered := hp.registered
    obtain ⟨-, trips, hmakes, hmade⟩ := hp
    obtain ⟨hne, hfits, hover⟩ := Pattern.exists_ofTrips_eq_ok_iff.1 ⟨p, hmade⟩
    have hstops : r.stops.length ≠ 0 := by
      rw [← hcount]
      exact fun hzero => hne (List.length_eq_zero_iff.1 hzero)
    refine ⟨fun hnil => hstops (by rw [hnil, List.length_nil]), fun id hid => ?_, fun t ht => ?_, ?_⟩
    · exact StopIndex.exists_stopId?_iff.1 (hregistered id hid)
    · obtain ⟨trip, htrip, hmake⟩ := exists_of_forall₂_of_mem hmakes.flip ht
      refine (TripRecord.valid_iff hstops).2 ⟨trip, hmake, ?_⟩
      rw [(hfits trip htrip).1, hcount]
    · obtain ⟨row, hrow, harranged⟩ := PatternRecord.exists_row hmakes
      exact ⟨row, hrow, (hchain harranged).2 (Pattern.firstOvertaking_eq_none_iff.1 hover)⟩
  · intro h
    have hstops : r.stops.length ≠ 0 := fun hzero => h.stops_ne_nil (List.length_eq_zero_iff.1 hzero)
    obtain ⟨os, hos⟩ := StopIndex.exists_map_stopId?_eq fun id hid =>
      StopIndex.exists_stopId?_iff.2 (h.stops_listed id hid)
    have hcount := StopIndex.length_eq_of_map_stopId? hos
    obtain ⟨trips, hmakes⟩ : ∃ trips, List.Forall₂ (TripRecord.Makes r.route) r.trips trips :=
      exists_forall₂_of_forall_mem fun t ht =>
        ((TripRecord.valid_iff hstops).1 (h.trips t ht)).imp fun _ hmake => hmake.1
    have hfits : ∀ t ∈ trips, t.calls.length = os.length ∧ t.route = r.route := by
      intro t ht
      obtain ⟨record, hrecord, hmake⟩ := exists_of_forall₂_of_mem hmakes ht
      obtain ⟨-, hroute, -, hcalls, hlen⟩ := TripRecord.makes_iff.1 hmake
      refine ⟨?_, hroute⟩
      rw [hcalls, TripRecord.length_calls hlen, (h.trips record hrecord).arrivals_length, hcount]
    obtain ⟨row, hrow, hprecedes⟩ := h.neverOvertaken
    have hover : Pattern.firstOvertaking (arrange Pattern.startsFirst trips) = none := by
      rw [Pattern.firstOvertaking_eq_none_iff]
      exact (hchain (hrow.makes_arrange hmakes hids)).1 hprecedes
    have hne : os ≠ [] := fun hnil => hstops (by rw [← hcount, hnil, List.length_nil])
    obtain ⟨p, hp⟩ : ∃ p, Pattern.ofTrips r.id r.route os trips = .ok p :=
      Pattern.exists_ofTrips_eq_ok_iff.2 ⟨hne, hfits, hover⟩
    obtain ⟨-, -, hpstops, -⟩ := Pattern.fields_of_ofTrips hp
    refine ⟨p, ?_, trips, hmakes, ?_⟩
    · rw [hpstops]
      exact hos
    · rw [hpstops]
      exact hp

/-! ## Snapshots -/

/-- The trips of patterns have the ids of the records, in another order. -/
theorem PatternRecord.tripIds_perm_of_makes {s : StopIndex} {rs : List PatternRecord}
    {ps : List Pattern} (h : List.Forall₂ (PatternRecord.Makes s) rs ps) :
    (Network.tripIds ps).Perm (rs.flatMap fun r => r.trips.map (·.id)) := by
  unfold Network.tripIds
  induction h with
  | nil => exact .refl _
  | cons hp _ ih =>
    rw [List.flatMap_cons, List.flatMap_cons]
    exact hp.map_id_trips_perm.append ih

namespace Network

/-- **Just the valid snapshots make a network**, whatever rules are recorded: no two stops, patterns or trips
share an id, every pattern has stops and names only listed ones, every trip has its times in order, one
arrival and one departure for each stop of its pattern, and no trip overtakes the one that starts before it. -/
theorem exists_build_iff_valid (s : Snapshot) (ts : List Transfer) :
    (∃ n, build { s with transfers := ts } = .ok n) ↔ s.Valid := by
  simp only [build_eq_ok_iff]
  constructor
  · rintro ⟨n, hstops, hpatterns, hmakes, htrips, -⟩
    have hids := (PatternRecord.tripIds_perm_of_makes hmakes).nodup_iff.1 htrips
    refine ⟨?_, hpatterns, fun r hr => ?_, hids⟩
    · rw [← hstops]
      exact n.timetable.stops.distinct
    · obtain ⟨p, -, hp⟩ := exists_of_forall₂_of_mem hmakes.flip hr
      rw [← hstops]
      exact (PatternRecord.exists_makes_iff ((List.nodup_flatMap.1 hids).1 r hr)).1 ⟨p, hp⟩
  · intro h
    let stops : StopIndex := ⟨s.stops, h.stops_distinct⟩
    obtain ⟨ps, hmakes⟩ : ∃ ps, List.Forall₂ (PatternRecord.Makes stops) s.patterns ps :=
      exists_forall₂_of_forall_mem fun r hr =>
        (PatternRecord.exists_makes_iff ((List.nodup_flatMap.1 h.trips_distinct).1 r hr)).2
          (h.patterns r hr)
    have htrips : (tripIds ps).Nodup :=
      (PatternRecord.tripIds_perm_of_makes hmakes).nodup_iff.2 h.trips_distinct
    exact ⟨Timetable.network ⟨stops, ps⟩ ts, rfl, h.patterns_distinct, hmakes, htrips, rfl⟩

end Network

end Interchange
