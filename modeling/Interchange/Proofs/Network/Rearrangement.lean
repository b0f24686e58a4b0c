import Interchange.Proofs.Network.Answers
import Interchange.Proofs.Network.Building
import Mathlib.Data.List.Perm.Basic

/-!
# The arrangement of a snapshot

The stops, the patterns and the trips of a pattern may be listed in any order. Stops then get other
numbers, patterns other places, stations list their members otherwise and rules are registered in another
order, but nobody who asks in terms of ids can tell.

* `Snapshot.Rearranged` — two snapshots differ in the order of these lists only.
* `PatternRecord.Makes.rearranged` — a rearranged record makes a pattern with the same plan.
* `Network.exists_build_of_rearranged` — where one network is built so is the other, and their timetables
  correspond. `Network.build_rearranged` — so they have the same faults, issues and answers.
-/

namespace Interchange

/-! ## Rearranged snapshots -/

/-- Two pattern records differ in the order of their trips only. -/
structure PatternRecord.Rearranged (r r' : PatternRecord) : Prop where
  id_eq : r'.id = r.id
  route_eq : r'.route = r.route
  stops_eq : r'.stops = r.stops
  trips_perm : r.trips.Perm r'.trips

/-- Two snapshots differ in the order of the stops, of the patterns, and of the trips of each pattern
only. -/
structure Snapshot.Rearranged (s s' : Snapshot) : Prop where
  stops_perm : s.stops.Perm s'.stops
  patterns_perm : ∃ ps, s.patterns.Perm ps ∧ List.Forall₂ PatternRecord.Rearranged ps s'.patterns
  transfers_eq : s'.transfers = s.transfers

/-- Differing in the order of trips is mutual. -/
theorem PatternRecord.Rearranged.symm {r r' : PatternRecord} (h : r.Rearranged r') :
    r'.Rearranged r :=
  ⟨h.id_eq.symm, h.route_eq.symm, h.stops_eq.symm, h.trips_perm.symm⟩

/-- Differing in order is mutual. -/
theorem Snapshot.Rearranged.symm {s s' : Snapshot} (h : s.Rearranged s') : s'.Rearranged s := by
  obtain ⟨ps, hperm, hrecords⟩ := h.patterns_perm
  obtain ⟨ps', hrecords', hperm'⟩ := List.perm_comp_forall₂ hperm hrecords
  have hflip : List.Forall₂ (fun r' r => PatternRecord.Rearranged r r') ps' s.patterns :=
    hrecords'.flip
  have hback : List.Forall₂ PatternRecord.Rearranged ps' s.patterns :=
    hflip.imp fun r' r hr => hr.symm
  exact ⟨h.stops_perm.symm, ⟨ps', hperm'.symm, hback⟩, h.transfers_eq.symm⟩

/-- Rearranged records have the ids in their order. -/
theorem PatternRecord.map_id_of_rearranged {rs rs' : List PatternRecord}
    (h : List.Forall₂ PatternRecord.Rearranged rs rs') : rs'.map (·.id) = rs.map (·.id) := by
  induction h with
  | nil => rfl
  | cons hr _ ih => rw [List.map_cons, List.map_cons, hr.id_eq, ih]

/-- Ids that are registered have numbers. -/
theorem StopIndex.exists_map_stopId?_eq {s : StopIndex} {ids : List StopId}
    (h : ∀ id ∈ ids, ∃ o, s.stopId? o = some id) :
    ∃ os : List StopOrdinal, os.map s.stopId? = ids.map some := by
  induction ids with
  | nil => exact ⟨[], rfl⟩
  | cons id ids ih =>
    obtain ⟨o, ho⟩ := h id List.mem_cons_self
    obtain ⟨os, hos⟩ := ih fun id hid => h id (List.mem_cons_of_mem _ hid)
    exact ⟨o :: os, by rw [List.map_cons, List.map_cons, ho, hos]⟩

/-- The stops of a record that makes a pattern are registered. -/
theorem PatternRecord.Makes.registered {s : StopIndex} {r : PatternRecord} {p : Pattern}
    (h : r.Makes s p) : ∀ id ∈ r.stops, ∃ o, s.stopId? o = some id := by
  intro id hid
  have hmem : some id ∈ p.stops.map s.stopId? := by
    rw [h.1]
    exact List.mem_map_of_mem hid
  obtain ⟨o, -, ho⟩ := List.mem_map.1 hmem
  exact ⟨o, ho⟩

/-- **A rearranged record makes a pattern with the same plan**, if its trips have ids of their own. -/
theorem PatternRecord.Makes.rearranged {s s' : StopIndex} (hstops : s.stops.Perm s'.stops)
    {r r' : PatternRecord} (hr : r.Rearranged r') {p : Pattern} (hp : r.Makes s p)
    (hids : (p.trips.map (·.id)).Nodup) : ∃ p', r'.Makes s' p' ∧ p'.plan s' = p.plan s := by
  have hregistered := hp.registered
  obtain ⟨hnames, trips, htrips, hmade⟩ := hp
  obtain ⟨hne, hfits, hover⟩ := Pattern.exists_ofTrips_eq_ok_iff.1 ⟨p, hmade⟩
  obtain ⟨hid, hroute, -, harranged⟩ := Pattern.fields_of_ofTrips hmade
  -- the stops have other numbers
  have hregistered' : ∀ id ∈ r'.stops, ∃ o, s'.stopId? o = some id := by
    intro id hid
    rw [hr.stops_eq] at hid
    obtain ⟨o, ho⟩ := hregistered id hid
    obtain ⟨o', id', hid', ho'⟩ := StopIndex.exists_sameStop hstops ho
    rw [ho] at hid'
    cases hid'
    exact ⟨o', ho'⟩
  obtain ⟨os, hos⟩ := StopIndex.exists_map_stopId?_eq hregistered'
  have hlen : os.length = p.stops.length := by
    have hcount := congrArg List.length hnames
    have hcount' := congrArg List.length hos
    rw [hr.stops_eq] at hcount'
    simp only [List.length_map] at hcount hcount'
    rw [hcount, hcount']
  -- the trips come in another order
  obtain ⟨trips', htrips', hperm⟩ := List.perm_comp_forall₂ hr.trips_perm.symm htrips
  have hdistinct : (trips'.map (·.id)).Nodup := by
    rw [harranged, Pattern.map_id_number] at hids
    exact ((hperm.trans (arrange_perm _ trips).symm).map _).nodup_iff.2 hids
  have hsame : arrange Pattern.startsFirst trips' = arrange Pattern.startsFirst trips :=
    Pattern.arrange_startsFirst_eq_of_perm hperm hdistinct
  obtain ⟨p', hp'⟩ : ∃ p', Pattern.ofTrips r'.id r'.route os trips' = .ok p' := by
    rw [Pattern.exists_ofTrips_eq_ok_iff, hsame, hlen, hr.route_eq]
    refine ⟨fun hnil => hne ?_, fun t ht => hfits t (hperm.mem_iff.1 ht), hover⟩
    rw [hnil] at hlen
    exact List.eq_nil_of_length_eq_zero hlen.symm
  obtain ⟨hid', hroute', hstops', harranged'⟩ := Pattern.fields_of_ofTrips hp'
  refine ⟨p', ⟨?_, trips', ?_, ?_⟩, ?_⟩
  · rw [hstops']
    exact hos
  · rw [hr.route_eq]
    exact htrips'
  · rw [hstops']
    exact hp'
  · unfold Pattern.plan
    rw [hid', hroute', hstops', harranged', hsame, hid, hroute, harranged, hnames, hos, hr.id_eq,
      hr.route_eq, hr.stops_eq]

/-- The same of a row of records. -/
theorem exists_makes_of_rearranged {s s' : StopIndex} (hstops : s.stops.Perm s'.stops)
    {rs rs' : List PatternRecord} (hrs : List.Forall₂ PatternRecord.Rearranged rs rs')
    {ps : List Pattern} (hps : List.Forall₂ (PatternRecord.Makes s) rs ps)
    (hids : (Network.tripIds ps).Nodup) :
    ∃ ps', List.Forall₂ (PatternRecord.Makes s') rs' ps' ∧
      ps'.map (Pattern.plan s') = ps.map (Pattern.plan s) := by
  induction hrs generalizing ps with
  | nil =>
    cases hps
    exact ⟨[], .nil, rfl⟩
  | cons hr hrs ih =>
    rcases hps with _ | ⟨hp, hps⟩
    unfold Network.tripIds at hids
    rw [List.flatMap_cons, List.nodup_append] at hids
    obtain ⟨p', hp', hplan⟩ := hp.rearranged hstops hr hids.1
    obtain ⟨ps', hps', hplans⟩ := ih hps hids.2.1
    exact ⟨p' :: ps', .cons hp' hps', by rw [List.map_cons, List.map_cons, hplan, hplans]⟩

namespace Network

/-- The ids of the trips are those of the plans. -/
theorem tripIds_eq_flatMap_plan (s : StopIndex) (ps : List Pattern) :
    tripIds ps = (ps.map (Pattern.plan s)).flatMap fun plan => plan.trips.map (·.id) := by
  unfold tripIds
  rw [List.flatMap_map]
  rfl

/-- The timetable of a network that is built is sound. -/
theorem sound_of_build {s : Snapshot} {n : Network} (h : build s = .ok n) : n.timetable.Sound := by
  obtain ⟨-, hids, hmakes, htrips, -⟩ := build_eq_ok_iff.1 h
  refine ⟨fun p hp o ho => ?_, ?_, htrips⟩
  · obtain ⟨r, -, hr⟩ := PatternRecord.exists_makes_of_mem hmakes hp
    have hmem : n.timetable.stops.stopId? o ∈ r.stops.map some := by
      rw [← hr.1]
      exact List.mem_map_of_mem ho
    obtain ⟨id, -, hid⟩ := List.mem_map.1 hmem
    exact ⟨id, hid.symm⟩
  · rw [PatternRecord.map_id_of_makes hmakes]
    exact hids

/-- **Where a network is built, so is one from the rearranged snapshot**, and the timetables of the two
correspond. -/
theorem exists_build_of_rearranged {s s' : Snapshot} (h : s.Rearranged s') {n : Network}
    (hn : build s = .ok n) :
    ∃ n', build s' = .ok n' ∧ n.timetable.Corresponds n'.timetable ∧
      n = n.timetable.network s.transfers ∧ n' = n'.timetable.network s.transfers := by
  obtain ⟨hstops, hids, hmakes, htrips, hnetwork⟩ := build_eq_ok_iff.1 hn
  obtain ⟨records, hrecords, hrearranged⟩ := h.patterns_perm
  -- the patterns in the order of the rearranged records, still with the old numbers of the stops
  obtain ⟨ps, hps, hpsperm⟩ := List.perm_comp_forall₂ hrecords.symm hmakes
  have htripsperm : (tripIds ps).Perm (tripIds n.timetable.patterns) := hpsperm.flatMap_right _
  have hdistinct : (s'.stops.map (·.id)).Nodup := by
    have hnodup := n.timetable.stops.distinct
    rw [hstops] at hnodup
    exact (h.stops_perm.map _).nodup_iff.1 hnodup
  have hstopsperm : n.timetable.stops.stops.Perm (StopIndex.mk s'.stops hdistinct).stops := by
    rw [hstops]
    exact h.stops_perm
  obtain ⟨ps', hps', hplans⟩ :=
    exists_makes_of_rearranged hstopsperm hrearranged hps (htripsperm.nodup_iff.2 htrips)
  have htrips' : (tripIds ps').Nodup := by
    rw [tripIds_eq_flatMap_plan, hplans, ← tripIds_eq_flatMap_plan]
    exact htripsperm.nodup_iff.2 htrips
  have hids' : (s'.patterns.map (·.id)).Nodup := by
    have hsame : s'.patterns.map (·.id) = records.map (·.id) :=
      PatternRecord.map_id_of_rearranged hrearranged
    rw [hsame]
    exact (hrecords.map _).nodup_iff.1 hids
  obtain ⟨n', hn'⟩ : ∃ n', n' = Timetable.network ⟨⟨s'.stops, hdistinct⟩, ps'⟩ s'.transfers := ⟨_, rfl⟩
  have hbuild : build s' = .ok n' := by
    rw [build_eq_ok_iff, hn']
    exact ⟨rfl, hids', hps', htrips', rfl⟩
  have hcorresponds : n.timetable.Corresponds n'.timetable := by
    refine ⟨?_, ?_, sound_of_build hn, sound_of_build hbuild⟩
    · rw [hn']
      exact hstopsperm
    · rw [hn']
      show (n.timetable.patterns.map _).Perm (ps'.map (Pattern.plan ⟨s'.stops, hdistinct⟩))
      rw [hplans]
      exact (hpsperm.map _).symm
  refine ⟨n', hbuild, hcorresponds, hnetwork, ?_⟩
  rw [hn', h.transfers_eq]
  rfl

/-- **The arrangement of a snapshot has no part in anything that is asked.** Two snapshots that differ in
the order of the stops, of the patterns and of the trips of each pattern are both sound or both faulty. The
networks that are built report the same issues, have rules at the same positions, and answer every query
with the same fault or with the same boarding in terms of ids. -/
theorem build_rearranged {s s' : Snapshot} (h : s.Rearranged s') :
    ((∃ n, build s = .ok n) ↔ ∃ n', build s' = .ok n') ∧
    ∀ n n', build s = .ok n → build s' = .ok n' →
      n.issues.Perm n'.issues ∧
      (∀ id d p, n'.hasRules id d p = n.hasRules id d p) ∧
      ∀ cfg q, n'.namedBoarding cfg q = n.namedBoarding cfg q := by
  constructor
  · constructor
    · rintro ⟨n, hn⟩
      obtain ⟨n', hn', -⟩ := exists_build_of_rearranged h hn
      exact ⟨n', hn'⟩
    · rintro ⟨n', hn'⟩
      obtain ⟨n, hn, -⟩ := exists_build_of_rearranged h.symm hn'
      exact ⟨n, hn⟩
  · intro n n' hn hn'
    obtain ⟨built, hbuilt, hcorresponds, hnetwork, hnetwork'⟩ := exists_build_of_rearranged h hn
    rw [hn'] at hbuilt
    cases hbuilt
    refine ⟨?_, hasRules_eq hcorresponds hnetwork hnetwork',
      namedBoarding_eq hcorresponds hnetwork hnetwork'⟩
    unfold issues
    rw [book_eq_ruleBook hnetwork, book_eq_ruleBook hnetwork']
    exact hcorresponds.issues_perm s.transfers

/-! ## From the end to the start -/

end Network

/-- A snapshot listed from the end to the start. -/
def Snapshot.turned (s : Snapshot) : Snapshot where
  stops := s.stops.reverse
  patterns := s.patterns.reverse.map fun r => { r with trips := r.trips.reverse }
  transfers := s.transfers

/-- A snapshot that is listed from the end to the start is rearranged. -/
theorem Snapshot.rearranged_turned (s : Snapshot) : s.Rearranged s.turned := by
  have hrecord : ∀ r : PatternRecord, r.Rearranged { r with trips := r.trips.reverse } := fun r =>
    ⟨rfl, rfl, rfl, r.trips.reverse_perm.symm⟩
  refine ⟨s.stops.reverse_perm.symm, ⟨s.patterns.reverse, s.patterns.reverse_perm.symm, ?_⟩, rfl⟩
  exact List.forall₂_map_right_iff.2 (List.forall₂_same.2 fun r _ => hrecord r)

/-- A timetable as it is stored, with recorded rules. -/
def Timetable.stored (tt : Timetable) (ts : List Transfer) : Snapshot where
  stops := tt.stops.stops
  patterns := tt.patterns.map fun p =>
    { id := p.id
      route := p.route
      stops := p.stops.filterMap tt.stops.stopId?
      trips := p.trips.map fun t => ⟨t.id, t.arrivals, some t.departures⟩ }
  transfers := ts

namespace Network

/-- The crossing as it is stored, with a guarantee at the stop in the middle. -/
def storedCrossing : Snapshot :=
  Timetable.crossing.stored
    [Timetable.change Timetable.ruleHeld Timetable.stopB Timetable.stopB .guaranteed]

/-- The crossing can be listed from the end to the start: the last stop becomes the first, the pattern
that departs comes in front, and all answers stay. -/
theorem build_rearranged_crossing :
    storedCrossing.Rearranged storedCrossing.turned ∧
    ∃ n n', build storedCrossing = .ok n ∧ build storedCrossing.turned = .ok n' ∧
      n.issues.Perm n'.issues ∧ ∀ cfg q, n'.namedBoarding cfg q = n.namedBoarding cfg q := by
  have hturned := storedCrossing.rearranged_turned
  obtain ⟨n, hn⟩ : ∃ n, build storedCrossing = .ok n := ⟨_, rfl⟩
  obtain ⟨n', hn'⟩ := (build_rearranged hturned).1.1 ⟨n, hn⟩
  obtain ⟨hissues, -, hanswers⟩ := (build_rearranged hturned).2 n n' hn hn'
  exact ⟨hturned, n, n', hn, hn', hissues, hanswers⟩

end Network

end Interchange
