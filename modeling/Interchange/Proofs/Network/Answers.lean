import Interchange.Proofs.Network.Lookup

/-!
# The answers of a network

Queries name patterns, trips and stops by their ids. Networks whose timetables correspond, with the same
records, find the same things under an id and give the same answers.

* `NamedBoarding`, `Network.namedBoarding` — the answer to a query with the stop by its id and station.
* `Network.patternWithRules?_corresponds`, `Network.locate?_corresponds`, `Network.ordinal?_corresponds` —
  what is found under an id in the one network and in the other.
* `Network.exists_stopId?_of_boarding` — a stop that a boarding names has an id.
* `Network.boarding?_corresponds` — corresponding searches lead to the same boarding.
  `Network.namedBoarding_eq`, `Network.hasRules_eq` — the two queries have the same answers.
-/

namespace Interchange

/-! ## Answers in terms of ids -/

/-- A boarding with the id and the station of its stop in place of the number. -/
structure NamedBoarding where
  tripIndex : Nat
  trip : TripId
  position : Position
  stop : Option StopId
  station : Option StationId
  time : Time
  earliest : Time
  constraint : Constraint
  deriving DecidableEq

/-- A boarding in terms of ids. -/
def Boarding.named (s : StopIndex) (b : Boarding) : NamedBoarding where
  tripIndex := b.tripIndex
  trip := b.trip
  position := b.position
  stop := s.stopId? b.stop
  station := s.station? b.stop
  time := b.time
  earliest := b.earliest
  constraint := b.constraint

namespace Network

/-- The answer to a query in terms of ids. -/
def namedBoarding (n : Network) (cfg : SearchConfig) (q : Query) :
    Except QueryFault (Option NamedBoarding) :=
  (n.boarding cfg q).map fun b => b.map fun b => b.named n.timetable.stops

variable {n n' : Network} {ts : List Transfer}

/-- A query at a stop under another number is the request under that number. -/
theorem Query.request_moveTo (q : Query) (t : Trip) (o o' : StopOrdinal) :
    q.request t o' = (q.request t o).moveTo o' := by
  unfold Query.request
  split <;> rfl

/-- A pattern is found in both of two networks that correspond, or in neither. -/
theorem patternWithRules?_corresponds (h : n.timetable.Corresponds n'.timetable)
    (hnetwork : n = n.timetable.network ts) (hnetwork' : n' = n'.timetable.network ts)
    (id : PatternId) :
    (n.patternWithRules? id = none ∧ n'.patternWithRules? id = none) ∨
      ∃ i i' p p' rules rules', n.patternWithRules? id = some (p, rules) ∧
        n'.patternWithRules? id = some (p', rules') ∧ n.timetable.patterns[i]? = some p ∧
        n'.timetable.patterns[i']? = some p' ∧
        n'.timetable.planAt? i' = n.timetable.planAt? i ∧
        (∀ d, rules.index d = (n.timetable.ruleBook ts).index i d) ∧
        ∀ d, rules'.index d = (n'.timetable.ruleBook ts).index i' d := by
  by_cases hpattern : ∃ p ∈ n.timetable.patterns, p.id = id
  · obtain ⟨p, hp, rfl⟩ := hpattern
    obtain ⟨i, hi⟩ := List.getElem?_of_mem hp
    obtain ⟨i', p', hi', hp', hplan⟩ := h.exists_counterpart hi
    obtain ⟨rules, hrules, hindex⟩ := patternWithRules?_of_pattern h.sound hnetwork hi
    obtain ⟨rules', hrules', hindex'⟩ := patternWithRules?_of_pattern h.sound' hnetwork' hp'
    have hid : p'.id = p.id := congrArg Plan.id hplan
    rw [hid] at hrules'
    exact .inr ⟨i, i', p, p', rules, rules', hrules, hrules', hi, hp', hi', hindex, hindex'⟩
  · refine .inl ⟨(patternWithRules?_eq_none_iff h.sound hnetwork).2 fun p hp hid => hpattern ⟨p, hp, hid⟩, ?_⟩
    refine (patternWithRules?_eq_none_iff h.sound' hnetwork').2 fun p' hp' hid => ?_
    obtain ⟨i', hi'⟩ := List.getElem?_of_mem hp'
    obtain ⟨i, p, -, hp, hplan⟩ := h.symm.exists_counterpart hi'
    exact hpattern ⟨p, List.mem_of_getElem? hp, (congrArg Plan.id hplan).trans hid⟩

/-- The same trip is found in two networks that correspond. -/
theorem locate?_corresponds (h : n.timetable.Corresponds n'.timetable)
    (hnetwork : n = n.timetable.network ts) (hnetwork' : n' = n'.timetable.network ts) (trip : TripId) :
    (n'.locate? trip).map (·.2) = (n.locate? trip).map (·.2) := by
  have hof : ∀ {n n' : Network} {t : Trip}, n.timetable.Corresponds n'.timetable →
      n = n.timetable.network ts → n' = n'.timetable.network ts →
      (n.locate? trip).map (·.2) = some t → (n'.locate? trip).map (·.2) = some t := by
    intro n n' t h hnetwork hnetwork' ht
    obtain ⟨⟨p, t⟩, hlocate, rfl⟩ := Option.map_eq_some_iff.1 ht
    obtain ⟨hp, htrip, hid⟩ := (locate?_eq_some_iff h.sound hnetwork).1 hlocate
    obtain ⟨i, hi⟩ := List.getElem?_of_mem hp
    obtain ⟨i', p', -, hp', hplan⟩ := h.exists_counterpart hi
    have htrips : p'.trips = p.trips := congrArg Plan.trips hplan
    have hlocate' : n'.locate? trip = some (p', t) :=
      (locate?_eq_some_iff h.sound' hnetwork').2 ⟨List.mem_of_getElem? hp', htrips ▸ htrip, hid⟩
    rw [hlocate']
    rfl
  apply Option.ext
  intro t
  exact ⟨hof h.symm hnetwork' hnetwork, hof h hnetwork hnetwork'⟩

/-- The same stop is found in two networks that correspond. -/
theorem ordinal?_corresponds (h : n.timetable.Corresponds n'.timetable) (id : StopId) :
    (n.timetable.stops.ordinal? id = none ∧ n'.timetable.stops.ordinal? id = none) ∨
      ∃ o o', n.timetable.stops.ordinal? id = some o ∧ n'.timetable.stops.ordinal? id = some o' ∧
        n.timetable.stops.SameStop n'.timetable.stops o o' := by
  rcases ho : n.timetable.stops.ordinal? id with _ | o
  · rcases ho' : n'.timetable.stops.ordinal? id with _ | o'
    · exact .inl ⟨rfl, rfl⟩
    · rw [StopIndex.ordinal?_eq_some_iff] at ho'
      obtain ⟨o, x, hx, hox⟩ := StopIndex.exists_sameStop h.stops.symm ho'
      rw [ho'] at hx
      cases hx
      rw [StopIndex.ordinal?_eq_some_iff.2 hox] at ho
      cases ho
  · rw [StopIndex.ordinal?_eq_some_iff] at ho
    obtain ⟨o', x, hx, hox⟩ := StopIndex.exists_sameStop h.stops ho
    rw [ho] at hx
    cases hx
    exact .inr ⟨o, o', rfl, StopIndex.ordinal?_eq_some_iff.2 hox, id, ho, hox⟩

/-- Corresponding searches lead to the same boarding in terms of ids. -/
theorem boarding?_corresponds {tt tt' : Timetable} (h : tt.Corresponds tt') (ts : List Transfer)
    {i i' : Nat} {p p' : Pattern} (hp : tt.patterns[i]? = some p) (hp' : tt'.patterns[i']? = some p')
    (hi : tt'.planAt? i' = tt.planAt? i) (d : Direction) (cfg : SearchConfig) (q : Position)
    {r : BoardingRequest} {o' : StopOrdinal} (ho : tt.stops.SameStop tt'.stops r.sourceStop o') :
    (Search.boarding? d cfg p' ((tt'.ruleBook ts).index i' d) q (r.moveTo o')).map
        (fun b => b.named tt'.stops) =
      (Search.boarding? d cfg p ((tt.ruleBook ts).index i d) q r).map fun b => b.named tt.stops := by
  have hplan : p'.plan tt'.stops = p.plan tt.stops := by
    have hplans := hi
    rw [Timetable.planAt?_of_pattern hp', Timetable.planAt?_of_pattern hp] at hplans
    exact Option.some.inj hplans
  have hrenumbers : Search.Renumbers r o' ((tt.ruleBook ts).slot i d q)
      ((tt'.ruleBook ts).slot i' d q) := by
    intro e he
    rw [← he] at ho
    exact (h.mem_slot_iff hi ho).symm
  have hwell := Timetable.wellFormed_slot_ruleBook tt ts i d q
  have hwell' := Timetable.wellFormed_slot_ruleBook tt' ts i' d q
  show (Search.inSlot? d cfg p' ((tt'.ruleBook ts).slot i' d q) q (r.moveTo o')).map _ =
    (Search.inSlot? d cfg p ((tt.ruleBook ts).slot i d q) q r).map _
  rcases hstop : p.stops[q]? with _ | stop
  · -- the other pattern has as many stops
    have hlen : p'.stops.length = p.stops.length := by
      have hmap := congrArg List.length (congrArg Plan.stops hplan)
      simpa [Pattern.plan] using hmap
    have hstop' : p'.stops[q]? = none := by
      rw [List.getElem?_eq_none_iff] at hstop ⊢
      rw [hlen]
      exact hstop
    rw [Search.inSlot?_of_no_stop hstop, Search.inSlot?_of_no_stop hstop']
    rfl
  · obtain ⟨stop', hstop', hsame⟩ := h.exists_stop_eq (List.mem_of_getElem? hp) hplan hstop
    rw [Search.inSlot?_moveTo hwell hwell' hrenumbers (congrArg Plan.trips hplan) hstop hstop',
      Option.map_map]
    rcases hb : Search.inSlot? d cfg p ((tt.ruleBook ts).slot i d q) q r with _ | b
    · rfl
    · obtain ⟨c, -, x, hx, rfl⟩ := Search.exists_candidate_of_inSlot? hb
      rw [hstop] at hx
      cases hx
      have hstation := hsame.station?_eq h.stops
      obtain ⟨id, hid, hid'⟩ := hsame
      simp only [Option.map_some, Function.comp_def, Boarding.named, Boarding.moveTo,
        Search.Candidate.boarding, hid, hid', hstation]

/-- A query is answered when its pattern, its trip and its stop are found, by the search that they stand
for. -/
theorem boarding_eq_ok_iff {cfg : SearchConfig} {q : Query} {b : Option Boarding} :
    n.boarding cfg q = .ok b ↔ ∃ p rules pt t o,
      n.patternWithRules? q.pattern = some (p, rules) ∧ n.locate? q.sourceTrip = some (pt, t) ∧
        n.timetable.stops.ordinal? q.sourceStop = some o ∧
        b = Search.boarding? q.direction cfg p (rules.index q.direction) q.position (q.request t o) := by
  unfold boarding
  constructor
  · intro h
    rcases hresolve : n.resolve q with fault | ⟨p, index, r⟩
    · rw [hresolve] at h
      cases h
    · rw [hresolve] at h
      obtain ⟨rules, pt, t, o, hp, hlocate, ho, rfl, rfl⟩ := resolve_eq_ok_iff.1 hresolve
      exact ⟨p, rules, pt, t, o, hp, hlocate, ho, (Except.ok.inj h).symm⟩
  · rintro ⟨p, rules, pt, t, o, hp, hlocate, ho, rfl⟩
    rw [resolve_eq_ok_iff.2 ⟨rules, pt, t, o, hp, hlocate, ho, rfl, rfl⟩]

/-- The stop of a boarding is registered, so it has an id. -/
theorem exists_stopId?_of_boarding (hsound : n.timetable.Sound) {cfg : SearchConfig} {q : Query}
    {b : Boarding} (h : n.boarding cfg q = .ok (some b)) :
    ∃ id, n.timetable.stops.stopId? b.stop = some id := by
  obtain ⟨p, rules, pt, t, o, hp, -, -, hb⟩ := boarding_eq_ok_iff.1 h
  obtain ⟨c, -, stop, hstop, rfl⟩ := Search.exists_candidate_of_inSlot? hb.symm
  exact hsound.registered p (mem_of_patternWithRules? hp) stop (List.mem_of_getElem? hstop)

/-- **Networks whose timetables correspond, with the same records, give the same answers.** -/
theorem namedBoarding_eq (h : n.timetable.Corresponds n'.timetable)
    (hnetwork : n = n.timetable.network ts) (hnetwork' : n' = n'.timetable.network ts)
    (cfg : SearchConfig) (q : Query) : n'.namedBoarding cfg q = n.namedBoarding cfg q := by
  unfold namedBoarding boarding resolve
  rcases patternWithRules?_corresponds h hnetwork hnetwork' q.pattern with ⟨hp, hp'⟩ |
    ⟨i, i', p, p', rules, rules', hp, hp', hi, hi', hplans, hindex, hindex'⟩
  · rw [hp, hp']
    rfl
  · have htrip := locate?_corresponds h hnetwork hnetwork' q.sourceTrip
    rw [hp, hp']
    dsimp only
    rcases hlocate : n.locate? q.sourceTrip with _ | ⟨pt, t⟩
    · rw [hlocate, Option.map_none, Option.map_eq_none_iff] at htrip
      rw [htrip]
      rfl
    · rw [hlocate, Option.map_some, Option.map_eq_some_iff] at htrip
      obtain ⟨⟨pt', t'⟩, hlocate', rfl⟩ := htrip
      rw [hlocate']
      dsimp only
      rcases ordinal?_corresponds h q.sourceStop with ⟨ho, ho'⟩ | ⟨o, o', ho, ho', hsame⟩
      · rw [ho, ho']
        rfl
      · rw [ho, ho']
        dsimp only
        rw [← q.sourceStop_request t' o] at hsame
        have hboarding := boarding?_corresponds h ts hi hi' hplans q.direction cfg q.position hsame
        rw [hindex, hindex', q.request_moveTo t' o o']
        exact congrArg Except.ok hboarding

/-- Networks whose timetables correspond, with the same records, have rules at the same positions. -/
theorem hasRules_eq (h : n.timetable.Corresponds n'.timetable)
    (hnetwork : n = n.timetable.network ts) (hnetwork' : n' = n'.timetable.network ts)
    (id : PatternId) (d : Direction) (q : Position) : n'.hasRules id d q = n.hasRules id d q := by
  unfold hasRules
  rw [rules?_eq_map h.sound hnetwork, rules?_eq_map h.sound' hnetwork']
  rcases patternWithRules?_corresponds h hnetwork hnetwork' id with ⟨hp, hp'⟩ |
    ⟨i, i', p, p', rules, rules', hp, hp', hi, hi', hplans, hindex, hindex'⟩
  · rw [hp, hp']
  · rw [hp, hp']
    dsimp only [Option.map_some]
    rw [hindex, hindex', h.hasRules_eq hplans]

end Network

end Interchange
