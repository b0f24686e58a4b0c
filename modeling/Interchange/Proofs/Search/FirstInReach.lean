import Interchange.Proofs.Mirror
import Interchange.Proofs.Search.Decision
import Interchange.Proofs.Timetable.Arrangement

/-!
# The first trip in reach

The trips of a pattern keep one order at all its positions, so the trips in reach of a rider are those
from some trip on, in search order. A rule that holds the transfer for every trip leads to the first of
them.

* `Direction.NoLater` — the search order of trips, by their numbers. `isBefore_of_noLater` — events of
  trips follow it, at every position.
* `Search.FirstInReach` — a trip is the first in reach, said without the scan. There is one when any trip
  is in reach (`exists_firstInReach`), and only one (`FirstInReach.eq`).
* `Constraint.dueTime?` — the time from which on a constraint lets the rider change, if it names one.
  `inSlot?_of_dueTime?` — where all trips have a rule with such a constraint, a search leads to the first
  that is in reach from that time on. `inSlot?_of_facilitated` — a rule that holds the transfer leads to the
  first in reach at all.
-/

namespace Interchange

/-! ## Search order -/

/-- Where elements are related to those behind them, the first that is found is related to all others that
might have been. -/
theorem eq_or_rel_of_find? {α : Type} {R : α → α → Prop} {P : α → Bool} {l : List α} (hl : l.Pairwise R)
    {a : α} (h : l.find? P = some a) {b : α} (hb : b ∈ l) (hP : P b = true) : b = a ∨ R a b := by
  obtain ⟨-, front, rest, rfl, hfront⟩ := List.find?_eq_some_iff_append.1 h
  rcases List.mem_append.1 hb with hb | hb
  · -- an element in front would have been found instead
    have hnot := hfront b hb
    simp [hP] at hnot
  · obtain ⟨-, hrest, -⟩ := List.pairwise_append.1 hl
    rcases List.mem_cons.1 hb with rfl | hb
    · exact .inl rfl
    · exact .inr ((List.pairwise_cons.1 hrest).1 b hb)

/-- A trip with one number comes no later in search order than a trip with another. -/
def Direction.NoLater (d : Direction) (i j : Nat) : Prop :=
  match d with
  | .forward => i ≤ j
  | .reverse => j ≤ i

/-- A trip comes no later than itself. -/
theorem Direction.NoLater.refl {d : Direction} {i : Nat} : d.NoLater i i := by
  cases d <;> exact Nat.le_refl i

/-- Of two numbers that come no later than each other, both are the same. -/
theorem Direction.NoLater.antisymm {d : Direction} {i j : Nat} (h : d.NoLater i j)
    (h' : d.NoLater j i) : i = j := by
  cases d with
  | forward => exact Nat.le_antisymm h h'
  | reverse => exact Nat.le_antisymm h' h

/-- No time is before itself. -/
@[simp] theorem Direction.isBefore_self (d : Direction) (t : Time) : d.isBefore t t = false := by
  cases d <;> simp [isBefore, Time.lt_def]

/-- A time that is not before one that is not before a third is not before the third. -/
theorem Direction.not_isBefore_trans {d : Direction} {x y z : Time} (h : d.isBefore x y = false)
    (h' : d.isBefore y z = false) : d.isBefore x z = false := by
  cases d <;> simp only [isBefore, decide_eq_false_iff_not, Time.lt_def] at * <;> omega

namespace Pattern

variable {pattern : Pattern}

/-- The trips of a pattern stand in the order of their numbers. -/
theorem pairwise_index_lt (pattern : Pattern) :
    pattern.trips.Pairwise fun a b => a.index < b.index := by
  have hrange : (List.range pattern.trips.length).Pairwise (· < ·) := List.pairwise_lt_range
  rw [← pattern.numbered] at hrange
  exact List.pairwise_map.1 hrange

/-- Two trips of a pattern with one number are the same. -/
theorem eq_of_index_eq {a b : Trip} (ha : a ∈ pattern.trips) (hb : b ∈ pattern.trips)
    (h : a.index = b.index) : a = b := by
  have hab := getElem?_index ha
  rw [h, getElem?_index hb] at hab
  exact (Option.some.inj hab).symm

/-- In search order the numbers of the trips come no later than those behind. -/
theorem pairwise_noLater (pattern : Pattern) (d : Direction) :
    (d.order pattern.trips).Pairwise fun a b => d.NoLater a.index b.index := by
  have hlt : pattern.trips.Pairwise fun a b => a.index ≤ b.index :=
    pattern.pairwise_index_lt.imp Nat.le_of_lt
  cases d with
  | forward => exact hlt
  | reverse => exact List.pairwise_reverse.2 hlt

/-- A trip with a smaller number precedes one with a greater number. -/
theorem precedes_of_index_lt {a b : Trip} (ha : a ∈ pattern.trips) (hb : b ∈ pattern.trips)
    (h : a.index < b.index) : a.Precedes b := by
  obtain ⟨hi, hia⟩ := List.getElem?_eq_some_iff.1 (getElem?_index ha)
  obtain ⟨hj, hjb⟩ := List.getElem?_eq_some_iff.1 (getElem?_index hb)
  have hprecedes := List.pairwise_iff_getElem.1 pattern.inOrder a.index b.index hi hj h
  rw [hia, hjb] at hprecedes
  exact hprecedes

/-- **Events follow the search order**: of two trips the one that comes no later has its arrivals and
departures not behind those of the other. -/
theorem isBefore_of_noLater {d d' : Direction} {p : Position} {a b : Trip} (ha : a ∈ pattern.trips)
    (hb : b ∈ pattern.trips) (h : d.NoLater a.index b.index) {x y : Time}
    (hx : d'.eventTime? a p = some x) (hy : d'.eventTime? b p = some y) :
    d.isBefore y x = false := by
  have hevent : ∀ {a b : Trip} {x y : Time}, a.Precedes b → d'.eventTime? a p = some x →
      d'.eventTime? b p = some y → x ≤ y := by
    intro a b x y hab hx hy
    cases d' with
    | forward =>
      obtain ⟨c, hc, rfl⟩ := Option.map_eq_some_iff.1 hx
      obtain ⟨c', hc', rfl⟩ := Option.map_eq_some_iff.1 hy
      exact (hab p c c' hc hc').2
    | reverse =>
      obtain ⟨c, hc, rfl⟩ := Option.map_eq_some_iff.1 hx
      obtain ⟨c', hc', rfl⟩ := Option.map_eq_some_iff.1 hy
      exact (hab p c c' hc hc').1
  by_cases hindex : a.index = b.index
  · rw [eq_of_index_eq ha hb hindex, hy] at hx
    cases hx
    exact d.isBefore_self _
  · cases d with
    | forward =>
      have hlt : a.index < b.index := Nat.lt_of_le_of_ne h hindex
      have hxy := hevent (precedes_of_index_lt ha hb hlt) hx hy
      simpa [Direction.isBefore, Time.lt_def, Time.le_def] using hxy
    | reverse =>
      have hlt : b.index < a.index := Nat.lt_of_le_of_ne h (Ne.symm hindex)
      have hyx := hevent (precedes_of_index_lt hb ha hlt) hy hx
      simpa [Direction.isBefore, Time.lt_def, Time.le_def] using hyx

end Pattern

namespace Search

variable {d : Direction} {cfg : SearchConfig} {r : BoardingRequest} {s : Slot} {p : Position}
  {pattern : Pattern}

/-! ## The first in reach -/

/-- A trip of a pattern is the first in reach from a time on: its event at the position is not before
that time, and no trip in front of it, in search order, has such an event. -/
structure FirstInReach (d : Direction) (pattern : Pattern) (p : Position) (source : Time) (t : Trip)
    (time : Time) : Prop where
  mem : t ∈ pattern.trips
  time_eq : d.eventTime? t p = some time
  inReach : d.isBefore time source = false
  first : ∀ u ∈ pattern.trips, ∀ x, d.eventTime? u p = some x → d.isBefore x source = false →
    d.NoLater t.index u.index

/-- At most one trip is the first in reach. -/
theorem FirstInReach.eq {source : Time} {t u : Trip} {x y : Time}
    (ht : FirstInReach d pattern p source t x) (hu : FirstInReach d pattern p source u y) :
    t = u ∧ x = y := by
  have hindex : t.index = u.index :=
    (ht.first u hu.mem y hu.time_eq hu.inReach).antisymm (hu.first t ht.mem x ht.time_eq ht.inReach)
  have htu : t = u := Pattern.eq_of_index_eq ht.mem hu.mem hindex
  refine ⟨htu, ?_⟩
  have htime := ht.time_eq
  rw [htu, hu.time_eq] at htime
  exact (Option.some.inj htime).symm

/-- **The first in reach has the earliest event**, in search order, of all trips that are in reach. -/
theorem FirstInReach.isBefore_eq_false {source : Time} {t u : Trip} {time x : Time}
    (ht : FirstInReach d pattern p source t time) (hu : u ∈ pattern.trips) (hx : d.eventTime? u p = some x)
    (hreach : d.isBefore x source = false) : d.isBefore x time = false :=
  Pattern.isBefore_of_noLater ht.mem hu (ht.first u hu x hx hreach) ht.time_eq hx

/-- Where any trip of a pattern is in reach, one is the first. -/
theorem exists_firstInReach {source : Time} {t : Trip} {time : Time} (ht : t ∈ pattern.trips)
    (htime : d.eventTime? t p = some time) (hbefore : d.isBefore time source = false) :
    ∃ u x, FirstInReach d pattern p source u x := by
  have hreach : ∀ u : Trip, ((d.eventTime? u p).any fun x => !d.isBefore x source) = true ↔
      ∃ x, d.eventTime? u p = some x ∧ d.isBefore x source = false := by
    intro u
    simp [Option.any_eq_true]
  obtain ⟨u, hu⟩ : ∃ u, (d.order pattern.trips).find?
      (fun u => (d.eventTime? u p).any fun x => !d.isBefore x source) = some u := by
    rw [← Option.isSome_iff_exists, List.find?_isSome]
    exact ⟨t, Direction.mem_order_iff.2 ht, (hreach t).2 ⟨time, htime, hbefore⟩⟩
  obtain ⟨x, hx, hxbefore⟩ := (hreach u).1 (List.find?_eq_some_iff_append.1 hu).1
  refine ⟨u, x, Direction.mem_order_iff.1 (List.mem_of_find?_eq_some hu), hx, hxbefore, ?_⟩
  intro v hv y hy hybefore
  rcases eq_or_rel_of_find? (pattern.pairwise_noLater d) hu (Direction.mem_order_iff.2 hv)
    ((hreach v).2 ⟨y, hy, hybefore⟩) with rfl | hlater
  · exact .refl
  · exact hlater

/-! ## The first candidate from a time on -/

/-- The candidates of a pattern stand in search order. -/
theorem pairwise_survey_noLater (d : Direction) (cfg : SearchConfig) (r : BoardingRequest)
    (rules : List Entry) (p : Position) (pattern : Pattern) :
    (survey d cfg r rules p (d.order pattern.trips)).Pairwise
      fun a b => d.NoLater a.trip.index b.trip.index := by
  unfold survey
  rw [List.pairwise_filterMap]
  refine (pattern.pairwise_noLater d).imp fun {t u} htu a ha b hb => ?_
  obtain ⟨rfl, -⟩ := candidate?_eq_some_iff.1 ha
  obtain ⟨rfl, -⟩ := candidate?_eq_some_iff.1 hb
  exact htu

/-- **The first candidate that is not before a time** is the first trip in reach from that time on, with its
verdict, if that time itself is not before the source time. -/
theorem find?_survey_eq_some_iff {rules : List Entry} {due : Time} {P : Candidate → Bool}
    (hdue : d.isBefore due r.sourceTime = false)
    (hP : ∀ c ∈ survey d cfg r rules p (d.order pattern.trips),
      P c = true ↔ d.isBefore c.time due = false) {c : Candidate} :
    (survey d cfg r rules p (d.order pattern.trips)).find? P = some c ↔
      FirstInReach d pattern p due c.trip c.time ∧
        c.verdict = judge d cfg r (rule? rules c.trip) c.time := by
  have hcandidate : ∀ u ∈ pattern.trips, ∀ x, d.eventTime? u p = some x → d.isBefore x due = false →
      ⟨u, x, judge d cfg r (rule? rules u) x⟩ ∈ survey d cfg r rules p (d.order pattern.trips) :=
    fun u hu x hx hlate => mem_survey_iff.2
      ⟨Direction.mem_order_iff.2 hu, hx, Direction.not_isBefore_trans hlate hdue, rfl⟩
  have hfirst : ∀ c, (survey d cfg r rules p (d.order pattern.trips)).find? P = some c →
      FirstInReach d pattern p due c.trip c.time ∧
        c.verdict = judge d cfg r (rule? rules c.trip) c.time := by
    intro c h
    have hc := List.mem_of_find?_eq_some h
    obtain ⟨ht, htime, -, hverdict⟩ := mem_survey_iff.1 hc
    have hlate : d.isBefore c.time due = false := (hP c hc).1 (List.find?_some h)
    refine ⟨⟨Direction.mem_order_iff.1 ht, htime, hlate, fun u hu x hx hxlate => ?_⟩, hverdict⟩
    have hmem := hcandidate u hu x hx hxlate
    rcases eq_or_rel_of_find? (pairwise_survey_noLater d cfg r rules p pattern) h hmem
      ((hP _ hmem).2 hxlate) with rfl | hlater
    · exact .refl
    · exact hlater
  refine ⟨hfirst c, ?_⟩
  rintro ⟨ht, hverdict⟩
  have hmem := hcandidate c.trip ht.mem c.time ht.time_eq ht.inReach
  rcases hfind : (survey d cfg r rules p (d.order pattern.trips)).find? P with _ | x
  · exact absurd ((hP _ hmem).2 ht.inReach) (List.find?_eq_none.1 hfind _ hmem)
  · -- there is only one such trip, and its verdict is the one it is judged by
    obtain ⟨hx, hxverdict⟩ := hfirst x hfind
    obtain ⟨htrip, htime⟩ := hx.eq ht
    rw [htrip, htime, ← hverdict] at hxverdict
    obtain ⟨trip, time, verdict⟩ := x
    simp only at htrip htime hxverdict
    rw [htrip, htime, hxverdict]

/-- Where no candidate is ordinary nothing makes the scan give up: the first that settles the matter is
chosen. -/
theorem pick_of_ne_ordinary {front cs : List Candidate} (hpat : Patient cfg front)
    (h : ∀ c ∈ cs, c.verdict ≠ .ordinary) : pick cfg front cs = cs.find? fun c => c.verdict.settles := by
  induction cs generalizing front with
  | nil => rfl
  | cons c cs ih =>
    have hc : c.verdict ≠ .ordinary := h c List.mem_cons_self
    have hdec : Decides front c ↔ c.verdict.settles = true := by simp [Decides, hc]
    unfold pick
    by_cases hsettles : c.verdict.settles = true
    · rw [if_pos (hdec.2 hsettles)]
      simp [hsettles]
    · rw [if_neg (mt hdec.1 hsettles), if_pos (hpat.concat hc),
        ih (hpat.concat hc) fun x hx => h x (List.mem_cons_of_mem c hx)]
      simp [hsettles]

end Search

/-! ## Constraints that name a time -/

/-- A number of seconds that is not negative does not lead back in search order. -/
theorem Direction.isBefore_ahead_self (d : Direction) (t : Time) {n : Int} (hn : 0 ≤ n) :
    d.isBefore (d.ahead t n) t = false := by
  have hleast := t.least_le
  have hgreatest := t.le_greatest
  cases d with
  | forward =>
    simp only [isBefore, ahead, Time.later, Time.ofInt, Time.clamp, Time.least, Time.greatest, Time.lt_def,
      decide_eq_false_iff_not]
    omega
  | reverse =>
    simp only [isBefore, ahead, Time.earlier, Time.ofInt, Time.clamp, Time.least, Time.greatest, Time.lt_def,
      decide_eq_false_iff_not]
    omega

/-- The time from which on, in search order, a constraint lets the rider change. Where the transfer is held
it is the source time. Where a minimum time is asked for it is the source time moved by the seconds, at most
by the greatest number of seconds of a time; unless minimum times are definitive, it is the later of that
and the earliest ordinary time. Other constraints name no time. -/
def Constraint.dueTime? (c : Constraint) (d : Direction) (cfg : SearchConfig) (r : BoardingRequest) :
    Option Time :=
  match c with
  | .guaranteed => some r.sourceTime
  | .staySeated => some r.sourceTime
  | .minTransferTime seconds =>
    let moved := d.ahead r.sourceTime (min (seconds.toNat : Int) Time.greatest)
    some (if cfg.definitiveMinTime then moved else d.laterOf moved r.earliest)
  | .regular => none
  | .notAllowed => none

/-- A constraint that holds the transfer names the source time. -/
theorem Constraint.dueTime?_of_facilitated {c : Constraint} (h : c.isFacilitated = true) (d : Direction)
    (cfg : SearchConfig) (r : BoardingRequest) : c.dueTime? d cfg r = some r.sourceTime := by
  cases c with
  | guaranteed => rfl
  | staySeated => rfl
  | regular => cases h
  | notAllowed => cases h
  | minTransferTime seconds => cases h

namespace Search

variable {d : Direction} {cfg : SearchConfig} {r : BoardingRequest} {s : Slot} {p : Position}
  {pattern : Pattern} {c : Constraint} {due : Time}

/-- The time that a constraint names is not before the source time. -/
theorem isBefore_dueTime? (h : c.dueTime? d cfg r = some due) : d.isBefore due r.sourceTime = false := by
  have hmoved : ∀ seconds : UInt32,
      d.isBefore (d.ahead r.sourceTime (min (seconds.toNat : Int) Time.greatest)) r.sourceTime = false := by
    intro seconds
    apply d.isBefore_ahead_self
    unfold Time.greatest
    omega
  cases c with
  | guaranteed =>
    cases h
    exact d.isBefore_self _
  | staySeated =>
    cases h
    exact d.isBefore_self _
  | minTransferTime seconds =>
    cases h
    by_cases hcfg : cfg.definitiveMinTime = true
    · simp [hcfg, hmoved]
    · rw [if_neg hcfg]
      refine Direction.not_isBefore_trans ?_ (hmoved seconds)
      -- the later of two times is before neither
      have hlater := d.isBefore_self
        (d.laterOf (d.ahead r.sourceTime (min (seconds.toNat : Int) Time.greatest)) r.earliest)
      rw [d.isBefore_laterOf, Bool.or_eq_false_iff] at hlater
      exact hlater.1
  | regular => cases h
  | notAllowed => cases h

/-- Before the time that its rule names a trip in reach is passed. -/
theorem judge_before_dueTime? {e : Entry} (h : e.constraint.dueTime? d cfg r = some due) {time : Time}
    (hreach : d.isBefore time r.sourceTime = false) (hbefore : d.isBefore time due = true) :
    judge d cfg r (some e) time = .timeUnmet := by
  obtain ⟨key, constraint, transfer⟩ := e
  cases constraint with
  | minTransferTime seconds =>
    cases h
    exact if_pos hbefore
  | guaranteed =>
    cases h
    simp [hreach] at hbefore
  | staySeated =>
    cases h
    simp [hreach] at hbefore
  | regular => cases h
  | notAllowed => cases h

/-- From that time on it settles the matter, under the constraint of its rule. -/
theorem judge_from_dueTime? {e : Entry} (h : e.constraint.dueTime? d cfg r = some due) {time : Time}
    (hlate : d.isBefore time due = false) :
    (judge d cfg r (some e) time).settles = true ∧
      (judge d cfg r (some e) time).constraint = e.constraint := by
  obtain ⟨key, constraint, transfer⟩ := e
  cases constraint with
  | minTransferTime seconds =>
    cases h
    have hlate : d.isBefore time (required d cfg r seconds) = false := hlate
    have hmet : judge d cfg r (some ⟨key, .minTransferTime seconds, transfer⟩) time = .timeMet seconds :=
      if_neg (by simp [hlate])
    simp [hmet, Verdict.settles, Verdict.constraint]
  | guaranteed => exact ⟨rfl, rfl⟩
  | staySeated => exact ⟨rfl, rfl⟩
  | regular => cases h
  | notAllowed => cases h

/-- **Where every trip has a rule with one constraint that names a time**, a search leads to the first trip
in reach from that time on, under that constraint, whatever the number of ordinary trips after which the scan
would give up. -/
theorem inSlot?_of_dueTime? {stop : StopOrdinal} (happ : applicable s r ≠ [])
    (hstop : pattern.stops[p]? = some stop) (hdue : c.dueTime? d cfg r = some due)
    (hrule : ∀ t ∈ pattern.trips, ∃ e, rule? (applicable s r) t = some e ∧ e.constraint = c)
    {b : Boarding} :
    inSlot? d cfg pattern s p r = some b ↔ ∃ t time, FirstInReach d pattern p due t time ∧
      b = ⟨t.index, t.id, p, stop, time, r.earliest, c⟩ := by
  have hbefore : ∀ t ∈ pattern.trips, ∀ time, d.isBefore time r.sourceTime = false →
      d.isBefore time due = true → judge d cfg r (rule? (applicable s r) t) time = .timeUnmet := by
    intro t ht time hreach hbefore
    obtain ⟨e, he, rfl⟩ := hrule t ht
    rw [he]
    exact judge_before_dueTime? hdue hreach hbefore
  have hfrom : ∀ t ∈ pattern.trips, ∀ time, d.isBefore time due = false →
      (judge d cfg r (rule? (applicable s r) t) time).settles = true ∧
        (judge d cfg r (rule? (applicable s r) t) time).constraint = c := by
    intro t ht time hlate
    obtain ⟨e, he, rfl⟩ := hrule t ht
    rw [he]
    exact judge_from_dueTime? hdue hlate
  -- a candidate settles the matter from that time on, and none is ordinary
  have hsettles : ∀ x ∈ survey d cfg r (applicable s r) p (d.order pattern.trips),
      x.verdict ≠ .ordinary ∧ (x.verdict.settles = true ↔ d.isBefore x.time due = false) := by
    intro x hx
    obtain ⟨ht, -, hreach, hverdict⟩ := mem_survey_iff.1 hx
    have ht := Direction.mem_order_iff.1 ht
    rw [hverdict]
    rcases hlate : d.isBefore x.time due with _ | _
    · have hx := (hfrom x.trip ht x.time hlate).1
      refine ⟨fun hordinary => ?_, by simp [hx]⟩
      rw [hordinary] at hx
      cases hx
    · simp [hbefore x.trip ht x.time hreach hlate, Verdict.settles]
  rw [inSlot?_of_applicable happ hstop, Option.map_eq_some_iff,
    pick_of_ne_ordinary patient_nil fun x hx => (hsettles x hx).1]
  simp only [find?_survey_eq_some_iff (isBefore_dueTime? hdue) fun x hx => (hsettles x hx).2]
  constructor
  · rintro ⟨x, ⟨hfirst, hverdict⟩, rfl⟩
    refine ⟨x.trip, x.time, hfirst, ?_⟩
    rw [Candidate.boarding, hverdict, (hfrom x.trip hfirst.mem x.time hfirst.inReach).2]
  · rintro ⟨t, time, hfirst, rfl⟩
    refine ⟨⟨t, time, judge d cfg r (rule? (applicable s r) t) time⟩, ⟨hfirst, rfl⟩, ?_⟩
    rw [Candidate.boarding, (hfrom t hfirst.mem time hfirst.inReach).2]

/-- **A rule that facilitates the transfer to every trip leads to the first in reach**, under its
constraint, whatever the configuration and the earliest ordinary time. -/
theorem inSlot?_of_facilitated {stop : StopOrdinal} (happ : applicable s r ≠ [])
    (hstop : pattern.stops[p]? = some stop) (hc : c.isFacilitated = true)
    (hrule : ∀ t ∈ pattern.trips, ∃ e, rule? (applicable s r) t = some e ∧ e.constraint = c)
    {b : Boarding} :
    inSlot? d cfg pattern s p r = some b ↔ ∃ t time,
      FirstInReach d pattern p r.sourceTime t time ∧
        b = ⟨t.index, t.id, p, stop, time, r.earliest, c⟩ :=
  inSlot?_of_dueTime? happ hstop (Constraint.dueTime?_of_facilitated hc d cfg r) hrule

end Search

end Interchange
