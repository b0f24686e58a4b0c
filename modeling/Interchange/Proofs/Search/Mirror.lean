import Interchange.Proofs.Mirror
import Interchange.Proofs.RuleBook.Contents
import Interchange.Proofs.Search.Decision
import Mathlib.Data.List.Basic

/-!
# A search in the mirror

The two directions of a search are one search, seen from either side of a mirror: what a reverse search
finds in a pattern is the mirror image of what a forward search finds in the mirrored pattern. This
holds up to the bounds of time, where shifts saturate.

* `Candidate.mirror`, `Boarding.mirror` — the mirror images of a candidate and of a boarding.
* `survey_mirror` — the candidates in the mirror are the mirrored candidates, with the same verdicts.
* `inSlot?_mirror` — the opposite search in the mirror gives the mirrored boarding.
  `boarding?_reverse_iff` — what that says of a reverse search, trip by trip and time by time.
-/

namespace Interchange

namespace BoardingRequest

/-- The mirror image of a request: the same trip and stop, at the mirrored times. -/
def mirror (r : BoardingRequest) : BoardingRequest where
  sourceTrip := r.sourceTrip
  sourceStop := r.sourceStop
  sourceTime := r.sourceTime.mirror
  earliest := r.earliest.mirror

/-- A slack that is added in one direction is in the mirror added in the opposite direction. -/
theorem withSlack_mirror (d : Direction) (trip : Trip) (stop : StopOrdinal) (time : Time)
    (slack : Slack) :
    (withSlack d trip stop time slack).mirror = withSlack d.opposite trip stop time.mirror slack := by
  unfold withSlack mirror
  rw [Direction.aheadBy_mirror]

end BoardingRequest

/-- The mirror image of a boarding on a pattern. -/
def Boarding.mirror (pattern : Pattern) (b : Boarding) : Boarding where
  tripIndex := pattern.trips.length - 1 - b.tripIndex
  trip := b.trip
  position := Position.mirror pattern.stops.length b.position
  stop := b.stop
  time := b.time.mirror
  earliest := b.earliest.mirror
  constraint := b.constraint

/-- The mirror image of a trip is told apart by nothing that a matcher looks at. -/
@[simp] theorem Matcher.accepts_mirror (m : Matcher) (n : Nat) (t : Trip) :
    m.accepts (t.mirror n) = m.accepts t := by
  cases m <;> rfl

namespace Search

variable {d : Direction} {cfg : SearchConfig} {r : BoardingRequest} {s : Slot} {p : Position}

/-! ## Rules and verdicts -/

/-- A rule for a trip is one for its mirror image. -/
theorem rule?_mirror (rules : List Entry) (n : Nat) (t : Trip) :
    rule? rules (t.mirror n) = rule? rules t := by
  unfold rule? Entry.acceptsTarget
  simp only [Matcher.accepts_mirror]

/-- A minimum transfer time asks in the mirror for the mirrored time. -/
theorem required_mirror (d : Direction) (cfg : SearchConfig) (r : BoardingRequest)
    (seconds : UInt32) :
    required d.opposite cfg r.mirror seconds = (required d cfg r seconds).mirror := by
  have hahead : ∀ n, d.opposite.ahead r.mirror.sourceTime n = (d.ahead r.sourceTime n).mirror :=
    fun n => d.ahead_mirror r.sourceTime n
  have hearliest : r.mirror.earliest = r.earliest.mirror := rfl
  unfold required
  simp only [hahead, hearliest, d.laterOf_mirror]
  split <;> rfl

/-- The verdict on a trip is the same on both sides of the mirror. -/
theorem judge_mirror (d : Direction) (cfg : SearchConfig) (r : BoardingRequest)
    (rule : Option Entry) (time : Time) :
    judge d.opposite cfg r.mirror rule time.mirror = judge d cfg r rule time := by
  have hordinary : judgeOrdinary d.opposite r.mirror time.mirror = judgeOrdinary d r time := by
    have hearliest : r.mirror.earliest = r.earliest.mirror := rfl
    unfold judgeOrdinary
    rw [hearliest, d.isBefore_mirror]
  cases rule with
  | none => exact hordinary
  | some e =>
    obtain ⟨key, c, id⟩ := e
    cases c with
    | regular => exact hordinary
    | guaranteed => rfl
    | staySeated => rfl
    | notAllowed => rfl
    | minTransferTime seconds =>
      dsimp only [judge]
      rw [required_mirror, d.isBefore_mirror]

/-! ## Candidates -/

/-- The mirror image of a candidate among `n` trips. -/
def Candidate.mirror (n : Nat) (c : Candidate) : Candidate :=
  ⟨c.trip.mirror n, c.time.mirror, c.verdict⟩

/-- A trip is a candidate when its mirror image is one, at the mirrored position. -/
theorem candidate?_mirror (rules : List Entry) (n : Nat) (t : Trip) (p : Position) :
    candidate? d.opposite cfg r.mirror rules (Position.mirror t.calls.length p) (t.mirror n) =
      (candidate? d cfg r rules p t).map (Candidate.mirror n) := by
  have hsource : r.mirror.sourceTime = r.sourceTime.mirror := rfl
  unfold candidate?
  rw [Trip.eventTime?_mirror]
  rcases d.eventTime? t p with _ | time
  · rfl
  · simp only [Option.map_some, Option.bind_some, hsource, d.isBefore_mirror, judge_mirror,
      rule?_mirror]
    split <;> rfl

/-- **The candidates in the mirror** are the mirrored candidates. -/
theorem survey_mirror (pattern : Pattern) (rules : List Entry) :
    survey d.opposite cfg r.mirror rules (Position.mirror pattern.stops.length p)
        (d.opposite.order pattern.mirror.trips) =
      (survey d cfg r rules p (d.order pattern.trips)).map
        (Candidate.mirror pattern.trips.length) := by
  unfold survey
  rw [Pattern.order_trips_mirror, List.filterMap_map, List.map_filterMap]
  apply List.filterMap_congr
  intro t ht
  have hlen := (pattern.fits t (Direction.mem_order_iff.1 ht)).1
  rw [Function.comp_apply, ← hlen]
  exact candidate?_mirror rules pattern.trips.length t p

/-! ## Searches -/

/-- **The opposite search in the mirror** gives the mirrored boarding, with whatever entries the slot
has. -/
theorem inSlot?_mirror (d : Direction) (cfg : SearchConfig) (pattern : Pattern) (s : Slot)
    (p : Position) (r : BoardingRequest) :
    inSlot? d.opposite cfg pattern.mirror s (Position.mirror pattern.stops.length p) r.mirror =
      (inSlot? d cfg pattern s p r).map (Boarding.mirror pattern) := by
  have hrules : applicable s r.mirror = applicable s r := rfl
  by_cases happ : applicable s r = []
  · rw [inSlot?_of_not_applicable happ, inSlot?_of_not_applicable (hrules.trans happ)]
    rfl
  · have hstops := pattern.stops_mirror p
    rcases hstop : pattern.stops[p]? with _ | stop
    · rw [inSlot?_of_no_stop hstop, inSlot?_of_no_stop (hstops.trans hstop)]
      rfl
    · have hverdict : ∀ c,
          (Candidate.mirror pattern.trips.length c).verdict.SameEffect c.verdict :=
        fun c => .refl c.verdict
      have hpick : ∀ cs : List Candidate,
          pick cfg [] (cs.map (Candidate.mirror pattern.trips.length)) =
            (pick cfg [] cs).map (Candidate.mirror pattern.trips.length) :=
        fun cs => pick_map hverdict [] cs
      rw [inSlot?_of_applicable happ hstop,
        inSlot?_of_applicable (hrules ▸ happ) (hstops.trans hstop), hrules, survey_mirror,
        hpick, Option.map_map, Option.map_map]
      rfl

/-- The trip of a boarding is one of the pattern. -/
theorem tripIndex_lt_of_inSlot? {pattern : Pattern} {b : Boarding}
    (h : inSlot? d cfg pattern s p r = some b) : b.tripIndex < pattern.trips.length := by
  obtain ⟨c, hc, stop, -, rfl⟩ := exists_candidate_of_inSlot? h
  obtain ⟨t, ht, hct⟩ := List.mem_filterMap.1 hc
  obtain ⟨rfl, -⟩ := candidate?_eq_some_iff.1 hct
  exact Pattern.index_lt_of_mem (Direction.mem_order_iff.1 ht)

/-- **A reverse search is a forward search in the mirror.** Where the forward index of the mirrored
pattern has at the mirrored position the entries that the reverse index has at the position, the one
search finds nothing when the other does, and the trip, the time and the constraint that the one finds
are the mirror images of what the other finds. A slack leads the two to mirrored requests. -/
theorem boarding?_reverse_iff (cfg : SearchConfig) (pattern : Pattern) {i j : RuleIndex}
    {p : Position} (h : j.slot (Position.mirror pattern.stops.length p) = i.slot p)
    (r : BoardingRequest) :
    (boarding? .reverse cfg pattern i p r = none ↔
      boarding? .forward cfg pattern.mirror j (Position.mirror pattern.stops.length p) r.mirror =
        none) ∧
    (∀ k time c,
      (∃ b, boarding? .reverse cfg pattern i p r = some b ∧ b.tripIndex = k ∧ b.time = time ∧
        b.constraint = c) ↔
      ∃ b, boarding? .forward cfg pattern.mirror j (Position.mirror pattern.stops.length p) r.mirror =
          some b ∧ b.tripIndex + k + 1 = pattern.trips.length ∧ b.time = time.mirror ∧
        b.constraint = c) ∧
    ∀ slack,
      (BoardingRequest.withSlack .reverse r.sourceTrip r.sourceStop r.sourceTime slack).mirror =
        .withSlack .forward r.sourceTrip r.sourceStop r.sourceTime.mirror slack := by
  have hmirror : boarding? .forward cfg pattern.mirror j (Position.mirror pattern.stops.length p)
      r.mirror = (boarding? .reverse cfg pattern i p r).map (Boarding.mirror pattern) := by
    unfold boarding?
    rw [h]
    exact inSlot?_mirror .reverse cfg pattern (i.slot p) p r
  refine ⟨?_, fun k time c => ?_, fun slack => ?_⟩
  · rw [hmirror, Option.map_eq_none_iff]
  · rw [hmirror]
    constructor
    · rintro ⟨b, hb, rfl, rfl, rfl⟩
      have hlt := tripIndex_lt_of_inSlot? hb
      refine ⟨b.mirror pattern, by rw [hb]; rfl, ?_, rfl, rfl⟩
      show pattern.trips.length - 1 - b.tripIndex + b.tripIndex + 1 = pattern.trips.length
      omega
    · rintro ⟨b', hb', hk, htime, hc⟩
      obtain ⟨b, hb, rfl⟩ := Option.map_eq_some_iff.1 hb'
      have hlt := tripIndex_lt_of_inSlot? hb
      have hindex : pattern.trips.length - 1 - b.tripIndex + k + 1 = pattern.trips.length := hk
      exact ⟨b, hb, by omega, Time.mirror_inj.1 htime, hc⟩
  · exact BoardingRequest.withSlack_mirror .reverse _ _ _ slack

/-! ## At the bounds of time -/

/-- A shuttle between two stops. One trip starts at the lower bound of time, the other arrives at the
upper bound. -/
def shuttle : Pattern where
  id := ⟨"S", by decide⟩
  route := ⟨"ferry", by decide⟩
  stops := [⟨4⟩, ⟨5⟩]
  trips :=
    [{ id := ⟨"early", by decide⟩
       route := ⟨"ferry", by decide⟩
       index := 0
       calls := [⟨.ofInt Time.least, .ofInt Time.least⟩, ⟨.ofInt (-60), .ofInt 0⟩]
       calls_ne_nil := by decide
       ordered := by decide },
     { id := ⟨"late", by decide⟩
       route := ⟨"ferry", by decide⟩
       index := 1
       calls := [⟨.ofInt 60, .ofInt 120⟩, ⟨.ofInt Time.greatest, .ofInt Time.greatest⟩]
       calls_ne_nil := by decide
       ordered := by decide }]
  stops_ne_nil := by decide
  fits := by decide
  numbered := rfl
  inOrder := Pattern.pairwise_of_firstOvertaking (n := 2) (by decide) (by decide)

/-- A rule that asks for the longest minimum transfer time, for every trip and every rider at a
stop. -/
def longest : Entry := ⟨⟨⟨7⟩, .any, .any⟩, .minTransferTime 4294967295, Timetable.ruleSlow⟩

/-- A rider who leaves a trip of the shuttle before departing from another stop a minute before
midnight. -/
def rider : BoardingRequest where
  sourceTrip := { shuttle.trips[1] with id := ⟨"other", by decide⟩ }
  sourceStop := ⟨7⟩
  sourceTime := .ofInt (-60)
  earliest := .ofInt (-120)

/-- The longest minimum transfer time leads a reverse search from a minute before midnight to the lower
bound of time, where the early trip arrives; in the mirror it leads a forward search to the upper
bound, where the second of the mirrored trips departs. -/
theorem boarding?_reverse_iff_shuttle :
    (RuleIndex.mk [[], [longest]]).slot (Position.mirror shuttle.stops.length 0) =
      (RuleIndex.mk [[longest], []]).slot 0 ∧
    ∃ b, boarding? .forward .default shuttle.mirror ⟨[[], [longest]]⟩
        (Position.mirror shuttle.stops.length 0) rider.mirror = some b ∧
      b.tripIndex + 0 + 1 = 2 ∧ b.time = (Time.ofInt Time.least).mirror ∧
      b.constraint = .minTransferTime 4294967295 := by
  refine ⟨by decide, ?_⟩
  have hreverse : boarding? .reverse .default shuttle ⟨[[longest], []]⟩ 0 rider =
      some ⟨0, ⟨"early", by decide⟩, 0, ⟨4⟩, .ofInt Time.least, .ofInt (-120),
        .minTransferTime 4294967295⟩ := by
    decide
  exact ((boarding?_reverse_iff .default shuttle (by decide) rider).2.1 0 (.ofInt Time.least)
    (.minTransferTime 4294967295)).1 ⟨_, hreverse, rfl, rfl, rfl⟩

end Search

end Interchange
