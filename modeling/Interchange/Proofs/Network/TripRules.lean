import Interchange.Proofs.Network.Rearrangement
import Interchange.Proofs.Search.Influence
import Interchange.Proofs.Search.RoundTrip

/-!
# Rules for a trip at a position

A point that names a trip and a position speaks of one halt. On the searched side a rule stands at that
position and nowhere else. On the rider's side it is kept under the stop there, so it speaks of every halt
of the trip at that stop, and a trip on a loop has more than one.

* `Network.build_withTransfers` — recorded rules have no part in whether a network is built.
* `Network.Query.AsksFrom` — a query of a rider who changes at a halt. `boarding_of_asksFrom` — what it is
  answered.
* `Snapshot.KeepsRulesAt` — a rule for one halt of a trip is without effect on riders of another halt.
  `keepsRulesAt_iff` — so it is when the two are at different stops, and only then.
-/

namespace Interchange

/-! ## Halts of a trip -/

namespace Timetable

variable {tt : Timetable}

/-- A trip does not depart from a halt before it arrives there. -/
theorem Halt.arrival_le_departure (a : tt.Halt) : a.call.arrival ≤ a.call.departure := by
  have hmem : a.call ∈ a.trip.calls := List.get_mem _ _
  obtain ⟨front, rest, hsplit⟩ := List.append_of_mem hmem
  have hordered := a.trip.ordered
  rw [hsplit] at hordered
  unfold Call.interleave at hordered
  rw [List.flatMap_append, List.flatMap_cons] at hordered
  have htimes := (List.pairwise_append.1 (List.pairwise_append.1 hordered).2.1).1
  exact (List.pairwise_cons.1 htimes).1 _ List.mem_cons_self

/-- The event of a halt that is searched for is not before the event at which a rider changes there. -/
theorem Halt.isBefore_event (a : tt.Halt) (d : Direction) :
    d.isBefore (a.event d) (a.event d.opposite) = false := by
  have hle := a.arrival_le_departure
  cases d <;> simpa [Direction.isBefore, Direction.opposite, Halt.event, Time.lt_def, Time.le_def] using hle

/-- A point that names a trip and a position covers one halt of it. -/
theorem Sound.covers_trip_iff (h : tt.Sound) (a : tt.Halt) {i : Nat} {q : Position} {stop : StopOrdinal} :
    tt.Covers (.trip a.trip.id a.position) i q stop ↔ i = a.index ∧ q = a.position ∧ stop = a.stop := by
  constructor
  · rintro ⟨pattern, hpattern, hstop, hruns, rfl⟩
    obtain ⟨p, hp, t, ht, hid⟩ := hruns.1
    rw [hpattern] at hp
    cases hp
    have hruns' : tt.RunsOn a.trip.id a.index :=
      h.runsOn_iff.2 ⟨a.pattern, a.pattern_eq, a.trip, a.mem, rfl⟩
    have hplace : i = a.index := by
      have hi := patternOfTrip?_eq_some_iff.2 hruns
      rw [patternOfTrip?_eq_some_iff.2 hruns'] at hi
      exact (Option.some.inj hi).symm
    rw [hplace, a.pattern_eq] at hpattern
    cases hpattern
    rw [a.stop_eq] at hstop
    exact ⟨hplace, rfl, (Option.some.inj hstop).symm⟩
  · rintro ⟨rfl, rfl, rfl⟩
    exact ⟨a.pattern, a.pattern_eq, a.stop_eq,
      h.runsOn_iff.2 ⟨a.pattern, a.pattern_eq, a.trip, a.mem, rfl⟩, rfl⟩

end Timetable

namespace Network

variable {s : Snapshot} {n : Network} {tt : Timetable} {d : Direction}

/-- **Recorded rules have no part in whether a network is built**: with other rules it is the network of the
same timetable. -/
theorem build_withTransfers (h : build s = .ok n) (ts : List Transfer) :
    build { s with transfers := ts } = .ok (n.timetable.network ts) := by
  obtain ⟨hstops, hids, hmakes, htrips, -⟩ := build_eq_ok_iff.1 h
  exact build_eq_ok_iff.2 ⟨hstops, hids, hmakes, htrips, rfl⟩

/-! ## Queries of a rider -/

/-- A query of a rider who changes at a halt: in a forward search the rider arrives there on the trip, in a
reverse search departs. -/
structure Query.AsksFrom (q : Query) (a : tt.Halt) (d : Direction) : Prop where
  direction_eq : q.direction = d
  trip_eq : q.sourceTrip = a.trip.id
  stop_eq : tt.stops.ordinal? q.sourceStop = some a.stop
  time_eq : q.sourceTime = a.event d.opposite

/-- The request of such a query is one of the trip at the stop. -/
theorem Query.AsksFrom.exists_request {q : Query} {a : tt.Halt} (h : q.AsksFrom a d) :
    ∃ earliest, q.request a.trip a.stop = a.request d earliest := by
  unfold Query.request Timetable.Halt.request
  rw [h.time_eq]
  split
  · exact ⟨_, rfl⟩
  · exact ⟨_, rfl⟩

/-- **What a rider's query is answered** at a pattern: what the search there leads to. -/
theorem boarding_of_asksFrom (hsound : tt.Sound) (ts : List Transfer) {q : Query} {a : tt.Halt}
    (hq : q.AsksFrom a d) {i : Nat} {p : Pattern} (hp : tt.patterns[i]? = some p) (hid : p.id = q.pattern)
    (cfg : SearchConfig) :
    (tt.network ts).boarding cfg q = .ok (Search.boarding? d cfg p ((tt.ruleBook ts).index i d) q.position
      (q.request a.trip a.stop)) := by
  obtain ⟨rules, hrules, hindex⟩ := patternWithRules?_of_pattern (n := tt.network ts) hsound rfl hp
  rw [hid] at hrules
  have hlocate : (tt.network ts).locate? q.sourceTrip = some (a.pattern, a.trip) :=
    (locate?_eq_some_iff hsound rfl).2 ⟨List.mem_of_getElem? a.pattern_eq, a.mem, hq.trip_eq.symm⟩
  refine boarding_eq_ok_iff.2 ⟨p, rules, a.pattern, a.trip, a.stop, hrules, hlocate, hq.stop_eq, ?_⟩
  rw [hq.direction_eq, hindex]
  rfl

end Network

/-! ## Rules for another halt -/

/-- A rule for one halt of a trip is without effect on another: wherever a record whose point on the rider's
side names the trip and the position of the one is added to recorded rules, the queries of riders who change
at the other are answered as before. -/
def Snapshot.KeepsRulesAt (s : Snapshot) {tt : Timetable} (a b : tt.Halt) (d : Direction) : Prop :=
  ∀ (front back : List Transfer) (t : Transfer) (n n' : Network),
    t.source d = .trip a.trip.id a.position →
    Network.build { s with transfers := front ++ back } = .ok n →
    Network.build { s with transfers := front ++ t :: back } = .ok n' →
    ∀ (cfg : SearchConfig) (q : Network.Query), q.AsksFrom b d → n'.boarding cfg q = n.boarding cfg q

namespace Network

variable {s : Snapshot} {n : Network} {tt : Timetable} {d : Direction}

/-- A rule for a halt does not concern riders who change at another stop. -/
theorem not_concerns_of_stop_ne (hsound : tt.Sound) {a b : tt.Halt} (hne : a.stop ≠ b.stop) {t : Transfer}
    (ht : t.source d = .trip a.trip.id a.position) (i : Nat) (q : Position) (earliest : Time) :
    ¬ tt.Concerns t i d q (b.request d earliest) := by
  intro hconcerns
  obtain ⟨l, hl, hstop, -⟩ := hconcerns.source
  rw [ht] at hl
  obtain ⟨-, -, hlstop⟩ := (hsound.covers_trip_iff a).1 (Timetable.mem_locations_iff.1 hl).1
  exact hne (hlstop.symm.trans hstop)

/-- At different stops a rule for the one halt is without effect on the other. -/
theorem keepsRulesAt_of_stop_ne (h : build s = .ok n) {a b : n.timetable.Halt} (hne : a.stop ≠ b.stop) :
    s.KeepsRulesAt a b d := by
  intro front back t n₁ n₂ ht h₁ h₂ cfg q hq
  have hsound := sound_of_build h
  rw [build_withTransfers h] at h₁ h₂
  cases h₁
  cases h₂
  by_cases hpattern : ∃ p ∈ n.timetable.patterns, p.id = q.pattern
  · obtain ⟨p, hp, hid⟩ := hpattern
    obtain ⟨i, hi⟩ := List.getElem?_of_mem hp
    obtain ⟨earliest, hrequest⟩ := hq.exists_request
    rw [boarding_of_asksFrom hsound (front ++ back) hq hi hid,
      boarding_of_asksFrom hsound (front ++ t :: back) hq hi hid, hrequest]
    refine congrArg Except.ok (Search.inSlot?_congr ?_ ?_ (fun e => ?_) p).symm
    · exact Timetable.wellFormed_slot_ruleBook _ _ _ _ _
    · exact Timetable.wellFormed_slot_ruleBook _ _ _ _ _
    · exact Timetable.counts_insert_iff (.inl (not_concerns_of_stop_ne hsound hne ht i _ _))
  · -- neither network has the pattern that is asked for
    have hnone : ∀ ts, (n.timetable.network ts).patternWithRules? q.pattern = none := by
      intro ts
      exact (patternWithRules?_eq_none_iff (n := n.timetable.network ts) hsound rfl).2
        fun p hp hid => hpattern ⟨p, hp, hid⟩
    unfold boarding resolve
    rw [hnone, hnone]

/-- A record that guarantees the change from a point on the rider's side of a search to a stop. -/
def guarantee (d : Direction) (source : Point) (stop : StopId) : Transfer :=
  match d with
  | .forward => ⟨Timetable.ruleHeld, source, .anywhere (.stop stop), .guaranteed⟩
  | .reverse => ⟨Timetable.ruleHeld, .anywhere (.stop stop), source, .guaranteed⟩

/-- The two points of such a record, and what it permits. -/
theorem guarantee_spec (d : Direction) (source : Point) (stop : StopId) :
    (guarantee d source stop).source d = source ∧
      (guarantee d source stop).target d = .anywhere (.stop stop) ∧
      (guarantee d source stop).constraint = .guaranteed := by
  cases d <;> exact ⟨rfl, rfl, rfl⟩

/-- A guarantee for one halt of a trip leads riders of another at the same stop to a boarding there. -/
theorem exists_boarding_of_guarantee (hsound : tt.Sound) {a b : tt.Halt} (htrip : b.trip = a.trip)
    (hstop : a.stop = b.stop) {id : StopId} (hid : tt.stops.stopId? b.stop = some id) (cfg : SearchConfig)
    (earliest : Time) :
    ∃ x, b.boardingFrom? [guarantee d (.trip a.trip.id a.position) id] d cfg b earliest = some x := by
  obtain ⟨t, ht⟩ : ∃ t, t = guarantee d (.trip a.trip.id a.position) id := ⟨_, rfl⟩
  obtain ⟨hsource, htarget, hc⟩ := guarantee_spec d (.trip a.trip.id a.position) id
  rw [← ht] at hsource htarget hc ⊢
  have hconcerns : tt.Concerns t b.index d b.position (b.request d earliest) := by
    refine ⟨⟨⟨a.index, a.position, b.stop, _⟩, Timetable.mem_locations_iff.2 ⟨?_, rfl⟩, rfl, ?_⟩,
      ⟨b.index, b.position, b.stop, _⟩, Timetable.mem_locations_iff.2 ⟨?_, rfl⟩, rfl, rfl⟩
    · rw [hsource]
      exact (hsound.covers_trip_iff a).2 ⟨rfl, rfl, hstop.symm⟩
    · show (t.source d).matcher.accepts b.trip = true
      rw [hsource, htrip]
      simp [Point.matcher, Matcher.accepts]
    · rw [htarget]
      exact ⟨b.pattern, b.pattern_eq, b.stop_eq, hid⟩
  have hrule : ∀ u ∈ b.pattern.trips, ∃ e, Search.rule? (Search.applicable
      ((tt.ruleBook [t]).slot b.index d b.position) (b.request d earliest)) u = some e ∧
        e.constraint = .guaranteed := by
    intro u _
    have haccepts : (t.target d).matcher.accepts u = true := by
      rw [htarget]
      rfl
    exact ⟨_, Timetable.rule?_singleton_of_concerns hconcerns haccepts, hc⟩
  -- the trip itself is in reach, so there is a first one that is
  obtain ⟨u, time, hfirst⟩ := Search.exists_firstInReach b.mem (b.eventTime?_eq d) (b.isBefore_event d)
  have happ := Timetable.applicable_singleton_ne_nil hconcerns
  exact ⟨_, (Search.inSlot?_of_facilitated happ b.stop_eq rfl hrule).2 ⟨u, time, hfirst, rfl⟩⟩

/-- Without records no search leads to a boarding. -/
theorem boardingFrom?_nil (a g : tt.Halt) (cfg : SearchConfig) (earliest : Time) :
    g.boardingFrom? [] d cfg a earliest = none := by
  have hslot : (tt.ruleBook []).slot g.index d g.position = [] :=
    RuleBook.slot_empty tt g.index d g.position
  refine Search.inSlot?_of_not_applicable ?_
  show Search.applicable ((tt.ruleBook []).slot g.index d g.position) _ = []
  rw [hslot]
  rfl

/-- **A rule for one halt of a trip is without effect on another just when the two are at different
stops**, in either direction and whatever else is recorded. -/
theorem keepsRulesAt_iff (h : build s = .ok n) (d : Direction) {a b : n.timetable.Halt}
    (htrip : b.trip = a.trip) : s.KeepsRulesAt a b d ↔ a.stop ≠ b.stop := by
  constructor
  · intro hkeeps hstop
    have hsound := sound_of_build h
    obtain ⟨id, hid⟩ := hsound.registered b.pattern (List.mem_of_getElem? b.pattern_eq) b.stop
      (List.mem_of_getElem? b.stop_eq)
    -- the rider looks for the next trip of the same pattern
    obtain ⟨q, hq, hrequest, hpattern, hposition⟩ : ∃ q : Query, q.AsksFrom b d ∧
        q.request b.trip b.stop = b.request d (b.event d) ∧ q.pattern = b.pattern.id ∧
        q.position = b.position :=
      ⟨⟨b.pattern.id, b.position, d, b.trip.id, id, b.event d.opposite, .at (b.event d)⟩,
        ⟨rfl, rfl, StopIndex.ordinal?_eq_some_iff.2 hid, rfl⟩, rfl, rfl, rfl⟩
    have hanswer : ∀ ts, (n.timetable.network ts).boarding .default q =
        .ok (b.boardingFrom? ts d .default b (b.event d)) := by
      intro ts
      rw [boarding_of_asksFrom hsound ts hq b.pattern_eq hpattern.symm, hposition, hrequest]
      rfl
    have hsame := hkeeps [] [] (guarantee d (.trip a.trip.id a.position) id) _ _
      (guarantee_spec d _ id).1 (build_withTransfers h _) (build_withTransfers h _) .default q hq
    obtain ⟨x, hx⟩ := exists_boarding_of_guarantee (d := d) hsound htrip hstop hid .default (b.event d)
    rw [hanswer, hanswer, List.nil_append, hx, List.append_nil, boardingFrom?_nil] at hsame
    cases hsame
  · exact keepsRulesAt_of_stop_ne h

end Network

/-! ## A loop -/

namespace Timetable

/-- A pattern that comes back to its second stop at the end, with one trip, and a pattern that leaves from
there. -/
def loop : Timetable where
  stops := line.stops
  patterns :=
    [{ id := ⟨"L", by decide⟩
       route := routeR
       stops := [⟨0⟩, ⟨1⟩, ⟨2⟩, ⟨1⟩]
       trips :=
         [{ id := ⟨"round", by decide⟩
            route := routeR
            index := 0
            calls := [⟨.ofInt 36000, .ofInt 36000⟩, ⟨.ofInt 36600, .ofInt 36600⟩,
              ⟨.ofInt 37200, .ofInt 37200⟩, ⟨.ofInt 37800, .ofInt 37800⟩]
            calls_ne_nil := by simp
            ordered := by decide }]
       stops_ne_nil := by decide
       fits := by decide
       numbered := rfl
       inOrder := Pattern.pairwise_of_firstOvertaking (n := 4) (by decide) (by decide) },
     crossingPattern patternQ ⟨1⟩ ⟨2⟩
       [crossingTrip ⟨"on", by decide⟩ 0 ⟨.ofInt 38100, .ofInt 38100⟩ ⟨.ofInt 38700, .ofInt 38700⟩
         (by decide)]
       (by decide) rfl (Pattern.pairwise_of_firstOvertaking (n := 2) (by decide) (by decide))]

/-- The trip on the loop at one of its positions. -/
def loopHalt (position : Position) (stop : StopOrdinal)
    (h : loop.patterns[0].stops[position]? = some stop) : loop.Halt where
  index := 0
  pattern := loop.patterns[0]
  pattern_eq := rfl
  position := position
  stop := stop
  stop_eq := h
  trip := loop.patterns[0].trips[0]
  mem := List.mem_cons_self

end Timetable

namespace Network

/-- On the loop, a rule for the trip at its second position is without effect on riders who change at the
third. -/
theorem keepsRulesAt_loop :
    build (Timetable.loop.stored []) = .ok (Timetable.loop.network []) ∧
    (Timetable.loopHalt 2 ⟨2⟩ rfl).trip = (Timetable.loopHalt 1 ⟨1⟩ rfl).trip ∧
    (Timetable.loop.stored []).KeepsRulesAt (Timetable.loopHalt 1 ⟨1⟩ rfl) (Timetable.loopHalt 2 ⟨2⟩ rfl)
      .forward := by
  have hbuild : build (Timetable.loop.stored []) = .ok (Timetable.loop.network []) := rfl
  exact ⟨hbuild, rfl, (keepsRulesAt_iff hbuild .forward (a := Timetable.loopHalt 1 ⟨1⟩ rfl)
    (b := Timetable.loopHalt 2 ⟨2⟩ rfl) rfl).2 (by decide)⟩

/-- A record that forbids riders who leave the trip on the loop at its second position to change at that
stop. -/
def prohibition : Transfer where
  id := Timetable.ruleX
  origin := .trip ⟨"round", by decide⟩ 1
  destination := .anywhere (.stop Timetable.stopB)
  constraint := .notAllowed

/-- The query of a rider who stays on the trip and leaves it at the end, for the pattern that leaves from
there. -/
def queryAtEnd : Query where
  pattern := Timetable.patternQ
  position := 0
  direction := .forward
  sourceTrip := ⟨"round", by decide⟩
  sourceStop := Timetable.stopB
  sourceTime := .ofInt 37800
  earliest := .at (.ofInt 37920)

/-- A rule for the trip at its second position has an effect at the last position of the loop, where the
same stop is: the rider who leaves there is forbidden to change as well. -/
theorem not_keepsRulesAt_loop :
    build (Timetable.loop.stored []) = .ok (Timetable.loop.network []) ∧
    ¬ (Timetable.loop.stored []).KeepsRulesAt (Timetable.loopHalt 1 ⟨1⟩ rfl)
      (Timetable.loopHalt 3 ⟨1⟩ rfl) .forward := by
  refine ⟨rfl, fun hkeeps => ?_⟩
  have hasks : queryAtEnd.AsksFrom (Timetable.loopHalt 3 ⟨1⟩ rfl) .forward :=
    ⟨rfl, rfl, by decide, rfl⟩
  have hsame := hkeeps [] [] prohibition (Timetable.loop.network []) (Timetable.loop.network [prohibition])
    rfl rfl rfl .default queryAtEnd hasks
  have hwithout : (Timetable.loop.network []).boarding .default queryAtEnd = .ok none := rfl
  have hwith : (Timetable.loop.network [prohibition]).boarding .default queryAtEnd =
      .ok (some ⟨0, ⟨"on", by decide⟩, 0, ⟨1⟩, .ofInt 38100, .ofInt 37920, .notAllowed⟩) := rfl
  rw [hwith, hwithout] at hsame
  cases hsame

end Network

end Interchange
