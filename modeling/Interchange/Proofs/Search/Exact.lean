import Interchange.Proofs.Network.ClockTimes
import Interchange.Proofs.Network.Lookup
import Interchange.Proofs.RuleBook.Contents
import Interchange.Proofs.Search.Decision
import Interchange.Proofs.Time.Writing

/-!
# Searching with exact arithmetic

A search moves times by seconds, and where that leads beyond the bounds of a time it stops at the bound. The
trips that are read from a text call far from there, so no comparison with one of them notices.

* `Search.Comparisons` — what a search asks of the time of a trip: whether it is before the source time,
  before the earliest ordinary time, or before the time that a minimum transfer time asks for.
  `Search.Comparisons.saturating` are those of a request, `Search.Comparisons.exact` those in unbounded
  integers.
* `Search.judgeBy`, `Search.scanBy`, `Search.choiceBy?` — the verdict, the scan and the search, with the
  comparisons left open. `scan_eq_scanBy`, `map_choice_inSlot?` — with those of a request they are the
  verdict, the scan and the search.
* `Search.agreesWith_exact` — on the clock the two kinds of comparisons agree, for any seconds and any slack.
* `Network.exactChoice` — the answer to a query in exact arithmetic. `Network.choice_eq_exactChoice` — what
  is read from a text is answered so.
-/

namespace Interchange

/-! ## Seconds in search order -/

namespace Direction

/-- Whether a number of seconds comes before another in search order. -/
def comesBefore (d : Direction) (a b : Int) : Bool :=
  match d with
  | .forward => decide (a < b)
  | .reverse => decide (b < a)

/-- The number of seconds that lies some seconds further in search order. -/
def further (d : Direction) (a n : Int) : Int :=
  match d with
  | .forward => a + n
  | .reverse => a - n

/-- The one of two numbers of seconds that is further in search order. -/
def furthest (d : Direction) (a b : Int) : Int :=
  match d with
  | .forward => max a b
  | .reverse => min a b

/-- Times are compared by their seconds. -/
theorem isBefore_eq_comesBefore (d : Direction) (a b : Time) :
    d.isBefore a b = d.comesBefore a.secs b.secs := by
  cases d <;> rfl

/-- A number comes before the further of two when it comes before one of them. -/
theorem comesBefore_furthest (d : Direction) (x a b : Int) :
    d.comesBefore x (d.furthest a b) = (d.comesBefore x a || d.comesBefore x b) := by
  cases d with
  | forward =>
    show decide (x < max a b) = (decide (x < a) || decide (x < b))
    rw [Bool.eq_iff_iff, Bool.or_eq_true]
    simp only [decide_eq_true_eq]
    omega
  | reverse =>
    show decide (min a b < x) = (decide (a < x) || decide (b < x))
    rw [Bool.eq_iff_iff, Bool.or_eq_true]
    simp only [decide_eq_true_eq]
    omega

/-- A time on the clock does not see the bounds: neither where a shift from another one is clamped, nor where
the sum is. -/
theorem isBefore_ahead_clamp (d : Direction) {t source : Time} (ht : t.OnClock) (hsource : source.OnClock)
    (n : Int) :
    d.isBefore t (d.ahead source (Time.clamp n)) = d.comesBefore t.secs (d.further source.secs n) := by
  unfold Time.OnClock at ht hsource
  cases d with
  | forward =>
    show decide (t.secs < Time.clamp (source.secs + Time.clamp n)) = decide (t.secs < source.secs + n)
    rw [decide_eq_decide]
    simp only [Time.clamp, Time.least, Time.greatest]
    omega
  | reverse =>
    show decide (Time.clamp (source.secs - Time.clamp n) < t.secs) = decide (source.secs - n < t.secs)
    rw [decide_eq_decide]
    simp only [Time.clamp, Time.least, Time.greatest]
    omega

end Direction

/-- Dropping a part of a second toward zero is rounding down what a slack comes to without its sign. -/
theorem Slack.wholeSeconds_eq_ite (slack : Slack) :
    slack.wholeSeconds =
      if 0 ≤ slack.milliseconds then slack.milliseconds / 1000 else -(-slack.milliseconds / 1000) := by
  unfold Slack.wholeSeconds
  split
  · rename_i hnonneg
    exact Int.tdiv_eq_ediv_of_nonneg hnonneg
  · rename_i hneg
    have hopposite : 0 ≤ -slack.milliseconds := by omega
    rw [← Int.tdiv_eq_ediv_of_nonneg hopposite, Int.neg_tdiv, Int.neg_neg]

/-- A number of seconds that is only bounded above is one that is bounded on both sides. -/
theorem Time.clamp_seconds (seconds : UInt32) :
    min (seconds.toNat : Int) Time.greatest = Time.clamp seconds.toNat := by
  simp only [Time.clamp, Time.least, Time.greatest]
  omega

namespace Search

/-! ## The search with open comparisons -/

/-- What a search asks of the time of a trip. -/
structure Comparisons where
  outOfReach : Time → Bool
  tooEarly : Time → Bool
  unmet : UInt32 → Time → Bool

/-- The comparisons of a request, with saturating times. -/
def Comparisons.saturating (d : Direction) (cfg : SearchConfig) (r : BoardingRequest) : Comparisons where
  outOfReach time := d.isBefore time r.sourceTime
  tooEarly time := d.isBefore time r.earliest
  unmet seconds time := d.isBefore time (required d cfg r seconds)

/-- The comparisons with a source time and an earliest ordinary time in unbounded integers. -/
def Comparisons.exact (d : Direction) (cfg : SearchConfig) (source earliest : Int) : Comparisons where
  outOfReach time := d.comesBefore time.secs source
  tooEarly time := d.comesBefore time.secs earliest
  unmet seconds time :=
    let required := d.further source seconds.toNat
    d.comesBefore time.secs (if cfg.definitiveMinTime then required else d.furthest required earliest)

/-- The verdict on a trip without a rule of its own. -/
def judgeOrdinaryBy (c : Comparisons) (time : Time) : Verdict :=
  if c.tooEarly time then .tooEarly else .ordinary

/-- The verdict on a trip that is in reach. -/
def judgeBy (c : Comparisons) (rule : Option Entry) (time : Time) : Verdict :=
  match rule with
  | none => judgeOrdinaryBy c time
  | some e =>
    match e.constraint with
    | .regular => judgeOrdinaryBy c time
    | .guaranteed => .facilitated .guaranteed
    | .staySeated => .facilitated .staySeated
    | .notAllowed => if e.key.target = .any then .blocked else .forbidden
    | .minTransferTime seconds => if c.unmet seconds time then .timeUnmet else .timeMet seconds

/-- Goes through trips up to the first that decides. -/
def scanBy (c : Comparisons) (d : Direction) (abortAfter : Nat) (rules : List Entry) (p : Position) :
    List Trip → Passed → Passed × Outcome
  | [], passed => (passed, .exhausted)
  | t :: rest, passed =>
    match d.eventTime? t p with
    | none => (passed, .noCall)
    | some time =>
      if c.outOfReach time then scanBy c d abortAfter rules p rest passed
      else
        match judgeBy c (rule? rules t) time with
        | .blocked => (passed, .found t time .blocked)
        | .forbidden =>
          scanBy c d abortAfter rules p rest { passed with forbidden := passed.forbidden ++ [t.id] }
        | .facilitated k => (passed, .found t time (.facilitated k))
        | .timeMet seconds => (passed, .found t time (.timeMet seconds))
        | .timeUnmet => scanBy c d abortAfter rules p rest passed
        | .tooEarly => scanBy c d abortAfter rules p rest passed
        | .ordinary =>
          if passed.forbidden ≠ [] then (passed, .found t time .ordinary)
          else if abortAfter ≤ passed.ordinary + 1 then (passed, .gaveUp (passed.ordinary + 1))
          else scanBy c d abortAfter rules p rest { passed with ordinary := passed.ordinary + 1 }

/-- The verdict on a trip hangs on the comparisons of its time. -/
theorem judge_eq_judgeBy (d : Direction) (cfg : SearchConfig) (r : BoardingRequest) (rule : Option Entry)
    (time : Time) : judge d cfg r rule time = judgeBy (.saturating d cfg r) rule time := by
  rcases rule with _ | ⟨key, constraint, transfer⟩
  · rfl
  · cases constraint <;> rfl

/-- **The scan is the one with the comparisons of its request.** -/
theorem scan_eq_scanBy (d : Direction) (cfg : SearchConfig) (r : BoardingRequest) (rules : List Entry)
    (p : Position) (trips : List Trip) (passed : Passed) :
    scan d cfg r rules p trips passed =
      scanBy (.saturating d cfg r) d cfg.abortAfter rules p trips passed := by
  induction trips generalizing passed with
  | nil => rfl
  | cons t trips ih =>
    unfold scan scanBy
    simp only [ih, judge_eq_judgeBy]
    rfl

/-- What a search leads to, without the earliest ordinary time of the request. -/
structure Choice where
  tripIndex : Nat
  trip : TripId
  position : Position
  stop : StopOrdinal
  time : Time
  constraint : Constraint
  deriving DecidableEq

/-- The choice that an outcome stands for, if it stands for one. -/
def Outcome.choice? (stop : StopOrdinal) (p : Position) : Outcome → Option Choice
  | .found t time verdict => some ⟨t.index, t.id, p, stop, time, verdict.constraint⟩
  | .gaveUp _ => none
  | .exhausted => none
  | .noCall => none

/-- The choice that rules for the rider lead to at a position of a pattern. -/
def choiceBy? (c : Comparisons) (d : Direction) (cfg : SearchConfig) (pattern : Pattern)
    (rules : List Entry) (p : Position) : Option Choice :=
  match rules with
  | [] => none
  | e :: rest =>
    match pattern.stops[p]? with
    | none => none
    | some stop =>
      (scanBy c d cfg.abortAfter (e :: rest) p (d.order pattern.trips) ⟨[], 0⟩).2.choice? stop p

end Search

/-- A boarding without the earliest ordinary time of the request. -/
def Boarding.choice (b : Boarding) : Search.Choice :=
  ⟨b.tripIndex, b.trip, b.position, b.stop, b.time, b.constraint⟩

namespace Search

variable {d : Direction} {cfg : SearchConfig}

/-- **The search is the one with the comparisons of its request.** -/
theorem map_choice_inSlot? (d : Direction) (cfg : SearchConfig) (pattern : Pattern) (s : Slot) (p : Position)
    (r : BoardingRequest) :
    (inSlot? d cfg pattern s p r).map Boarding.choice =
      choiceBy? (.saturating d cfg r) d cfg pattern (applicable s r) p := by
  unfold inSlot? run choiceBy?
  rcases applicable s r with _ | ⟨e, rest⟩
  · rfl
  rcases pattern.stops[p]? with _ | stop
  · rfl
  dsimp only
  rw [scan_eq_scanBy]
  rcases scanBy (.saturating d cfg r) d cfg.abortAfter (e :: rest) p (d.order pattern.trips) ⟨[], 0⟩
    with ⟨passed, outcome⟩
  cases outcome <;> rfl

/-! ## Comparisons that agree -/

/-- Two kinds of comparisons agree on a time. -/
structure Comparisons.AgreesWith (c c' : Comparisons) (time : Time) : Prop where
  outOfReach : c.outOfReach time = c'.outOfReach time
  tooEarly : c.tooEarly time = c'.tooEarly time
  unmet : ∀ seconds, c.unmet seconds time = c'.unmet seconds time

/-- The verdict on a trip is the same under comparisons that agree on its time. -/
theorem judgeBy_congr {c c' : Comparisons} {time : Time} (h : c.AgreesWith c' time) (rule : Option Entry) :
    judgeBy c rule time = judgeBy c' rule time := by
  unfold judgeBy judgeOrdinaryBy
  simp only [h.tooEarly, h.unmet]

/-- A scan is the same under comparisons that agree on the times of its trips. -/
theorem scanBy_congr {c c' : Comparisons} {abortAfter : Nat} {rules : List Entry} {p : Position}
    {trips : List Trip}
    (h : ∀ t ∈ trips, ∀ time, d.eventTime? t p = some time → c.AgreesWith c' time) (passed : Passed) :
    scanBy c d abortAfter rules p trips passed = scanBy c' d abortAfter rules p trips passed := by
  induction trips generalizing passed with
  | nil => rfl
  | cons t trips ih =>
    have hrest := ih fun u hu => h u (List.mem_cons_of_mem t hu)
    unfold scanBy
    rcases htime : d.eventTime? t p with _ | time
    · rfl
    · have hagree := h t List.mem_cons_self time htime
      simp only [hagree.outOfReach, judgeBy_congr hagree, hrest]

/-- A search is the same under comparisons that agree on the times of its trips. -/
theorem choiceBy?_congr {c c' : Comparisons} {pattern : Pattern} {p : Position}
    (h : ∀ t ∈ pattern.trips, ∀ time, d.eventTime? t p = some time → c.AgreesWith c' time)
    (rules : List Entry) : choiceBy? c d cfg pattern rules p = choiceBy? c' d cfg pattern rules p := by
  have htrips : ∀ t ∈ d.order pattern.trips, ∀ time, d.eventTime? t p = some time →
      c.AgreesWith c' time := fun t ht => h t (Direction.mem_order_iff.1 ht)
  unfold choiceBy?
  rcases rules with _ | ⟨e, rest⟩
  · rfl
  rcases pattern.stops[p]? with _ | stop
  · rfl
  dsimp only
  rw [scanBy_congr htrips]

/-- **On the clock exact arithmetic changes no comparison**, for any seconds of a minimum transfer time: the
source time is on the clock, and the earliest ordinary time is one that no time on the clock can tell from the
exact one. -/
theorem agreesWith_exact (cfg : SearchConfig) {r : BoardingRequest} {earliest : Int}
    (hsource : r.sourceTime.OnClock)
    (hearliest : ∀ time : Time, time.OnClock → d.isBefore time r.earliest = d.comesBefore time.secs earliest)
    {time : Time} (htime : time.OnClock) :
    (Comparisons.saturating d cfg r).AgreesWith (.exact d cfg r.sourceTime.secs earliest) time := by
  refine ⟨d.isBefore_eq_comesBefore time r.sourceTime, hearliest time htime, ?_⟩
  intro seconds
  have hrequired := d.isBefore_ahead_clamp htime hsource seconds.toNat
  unfold Comparisons.saturating Comparisons.exact required
  dsimp only
  rw [Time.clamp_seconds]
  by_cases hcfg : cfg.definitiveMinTime = true
  · rw [if_pos hcfg, if_pos hcfg]
    exact hrequired
  · rw [if_neg hcfg, if_neg hcfg, Direction.isBefore_laterOf, Direction.comesBefore_furthest, hrequired,
      hearliest time htime]

end Search

namespace Network

variable (n : Network)

/-- The earliest ordinary time of a query in unbounded integers: the given time, or the source time and the
seconds of the slack, of which a part of a second is dropped toward zero. -/
def Query.exactEarliest (q : Query) : Int :=
  match q.earliest with
  | .at time => time.secs
  | .slack slack =>
    q.direction.further q.sourceTime.secs
      (if 0 ≤ slack.milliseconds then slack.milliseconds / 1000 else -(-slack.milliseconds / 1000))

/-- The answer to a query in exact arithmetic: the same rules and the same scan, with the source time and the
earliest ordinary time as unbounded integers. Of the request only the trip and the stop are used. -/
def exactChoice (cfg : SearchConfig) (q : Query) : Except QueryFault (Option Search.Choice) :=
  match n.resolve q with
  | .error fault => .error fault
  | .ok (pattern, index, request) =>
    .ok (Search.choiceBy? (.exact q.direction cfg q.sourceTime.secs q.exactEarliest) q.direction cfg pattern
      (Search.applicable (index.slot q.position) request) q.position)

/-- A time on the clock is as early for the request of a query as it is in unbounded integers, for any time
or slack. -/
theorem Query.isBefore_earliest (q : Query) (trip : Trip) (stop : StopOrdinal) (hq : q.sourceTime.OnClock)
    {time : Time} (htime : time.OnClock) :
    q.direction.isBefore time (q.request trip stop).earliest =
      q.direction.comesBefore time.secs q.exactEarliest := by
  unfold Query.request Query.exactEarliest
  rcases q.earliest with earliest | slack
  · exact q.direction.isBefore_eq_comesBefore time earliest
  · have hahead : q.direction.aheadBy q.sourceTime slack =
        q.direction.ahead q.sourceTime (Time.clamp slack.wholeSeconds) := by
      cases q.direction <;> rfl
    show q.direction.isBefore time (q.direction.aheadBy q.sourceTime slack) = _
    rw [hahead, q.direction.isBefore_ahead_clamp htime hq, Slack.wholeSeconds_eq_ite]

/-- Where all times of a network are on the clock, and the source time of a query is, the query is answered
as in exact arithmetic. -/
theorem choice_eq_of_onClock {n : Network} (hn : n.timetable.OnClock) (cfg : SearchConfig) {q : Query}
    (hq : q.sourceTime.OnClock) :
    (n.boarding cfg q).map (fun b => b.map Boarding.choice) = n.exactChoice cfg q := by
  unfold boarding exactChoice
  rcases hresolve : n.resolve q with fault | ⟨pattern, index, request⟩
  · rfl
  obtain ⟨rules, carrier, trip, stop, hrules, -, -, rfl, rfl⟩ := resolve_eq_ok_iff.1 hresolve
  have hpattern : pattern ∈ n.timetable.patterns := mem_of_patternWithRules? hrules
  refine congrArg Except.ok ?_
  show (Search.inSlot? q.direction cfg pattern ((rules.index q.direction).slot q.position) q.position
    _).map _ = _
  rw [Search.map_choice_inSlot?]
  refine Search.choiceBy?_congr (fun t ht time htime => ?_) _
  have hsource : (q.request trip stop).sourceTime.OnClock := by
    rw [q.sourceTime_request]
    exact hq
  have hagrees := Search.agreesWith_exact cfg hsource
    (fun x hx => q.isBefore_earliest trip stop hq hx) ((hn pattern hpattern t ht).eventTime? htime)
  rwa [q.sourceTime_request] at hagrees

/-- **Clamping and saturation never change an answer about data that is read.** Take any network that is read
from a text, any query whose source time is read from a clock text, with any earliest ordinary time or any
slack, and any configuration. The search leads to no boarding, or to one of the same trip with the same time
and constraint, as in exact arithmetic. -/
theorem choice_eq_exactChoice {text : String} {n : Network} (hn : ofString text = .ok n)
    (cfg : SearchConfig) {q : Query} (hq : ∃ s, Time.parse s = .ok q.sourceTime) :
    (n.boarding cfg q).map (fun b => b.map Boarding.choice) = n.exactChoice cfg q := by
  obtain ⟨s, hs⟩ := hq
  exact choice_eq_of_onClock (onClock_of_ofString hn) cfg (Time.onClock_of_parse hs)

/-- A data set in text form: a trip arrives at a stop at 10:10 and another leaves from there at 10:20, and
five minutes are asked for to change. -/
def smallText : String :=
  "[[[\"A\"],[\"B\"],[\"C\"]],[[\"P\",\"R\",[\"A\",\"B\"],[[\"a\",[\"10:00\",\"10:10\"]]]]," ++
    "[\"Q\",\"R\",[\"B\",\"C\"],[[\"b\",[\"10:20\",\"10:30\"]]]]]," ++
    "[[\"x\",[\"stop\",\"B\"],[\"stop\",\"B\"],[\"min_transfer_time\",300]]]]"

/-- The data set that the text holds. -/
def small : Snapshot where
  stops := Timetable.line.stops.stops
  patterns :=
    [⟨Timetable.patternP, Timetable.routeR, [Timetable.stopA, Timetable.stopB],
        [⟨Timetable.tripA, [.ofInt 36000, .ofInt 36600], none⟩]⟩,
      ⟨Timetable.patternQ, Timetable.routeR, [Timetable.stopB, Timetable.stopC],
        [⟨Timetable.tripB, [.ofInt 37200, .ofInt 37800], none⟩]⟩]
  transfers := [Timetable.change Timetable.ruleX Timetable.stopB Timetable.stopB (.minTransferTime 300)]

/-- The query of the rider who arrives at 10:10, with a slack. -/
def patientQuery (slack : Slack) : Query where
  pattern := Timetable.patternQ
  position := 0
  direction := .forward
  sourceTrip := Timetable.tripA
  sourceStop := Timetable.stopB
  sourceTime := .ofInt 36600
  earliest := .slack slack

/-- The choice to leave at 10:20, after the five minutes. -/
def smallChoice : Search.Choice := ⟨0, Timetable.tripB, 0, ⟨1⟩, .ofInt 37200, .minTransferTime 300⟩

/-- The text is read as the data set. -/
theorem ofString_smallText : Snapshot.format.ofString smallText = .ok small := by
  apply eq_ok_of_toOption
  decide +kernel

/-- Of a slack the whole seconds count: with one of 600 seconds and 999 milliseconds the rider leaves at 10:20,
and with one of 601 seconds not. Where the minimum time holds exactly, a slack that no time can hold changes
nothing, five minutes being enough. -/
theorem choice_eq_exactChoice_small : ∃ n, ofString smallText = .ok n ∧
    (∃ s, Time.parse s = .ok (.ofInt 36600)) ∧
    (n.boarding ⟨false, 5⟩ (patientQuery ⟨600999⟩)).map (fun b => b.map Boarding.choice) =
      n.exactChoice ⟨false, 5⟩ (patientQuery ⟨600999⟩) ∧
    n.exactChoice ⟨false, 5⟩ (patientQuery ⟨600999⟩) = .ok (some smallChoice) ∧
    (n.boarding ⟨false, 5⟩ (patientQuery ⟨601000⟩)).map (fun b => b.map Boarding.choice) =
      n.exactChoice ⟨false, 5⟩ (patientQuery ⟨601000⟩) ∧
    n.exactChoice ⟨false, 5⟩ (patientQuery ⟨601000⟩) = .ok none ∧
    (n.boarding ⟨true, 5⟩ (patientQuery ⟨10000000000000000⟩)).map (fun b => b.map Boarding.choice) =
      n.exactChoice ⟨true, 5⟩ (patientQuery ⟨10000000000000000⟩) ∧
    n.exactChoice ⟨true, 5⟩ (patientQuery ⟨10000000000000000⟩) = .ok (some smallChoice) := by
  obtain ⟨n, hn, hcounted, hmissed, hexact⟩ : ∃ n, build small = .ok n ∧
      n.exactChoice ⟨false, 5⟩ (patientQuery ⟨600999⟩) = .ok (some smallChoice) ∧
      n.exactChoice ⟨false, 5⟩ (patientQuery ⟨601000⟩) = .ok none ∧
      n.exactChoice ⟨true, 5⟩ (patientQuery ⟨10000000000000000⟩) = .ok (some smallChoice) :=
    ⟨_, rfl, rfl, rfl, rfl⟩
  have hread : ofString smallText = .ok n := by
    unfold ofString
    rw [ofString_smallText]
    exact hn
  have htime : ∃ s, Time.parse s = .ok (.ofInt 36600) := ⟨_, Time.parse_text ⟨by decide, by decide⟩⟩
  exact ⟨n, hread, htime, choice_eq_exactChoice hread ⟨false, 5⟩ htime, hcounted,
    choice_eq_exactChoice hread ⟨false, 5⟩ htime, hmissed,
    choice_eq_exactChoice hread ⟨true, 5⟩ htime, hexact⟩

end Network

end Interchange
