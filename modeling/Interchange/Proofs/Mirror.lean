import Interchange.Direction
import Interchange.Timetable.Pattern

/-!
# The mirror image of a timetable

Seen in a mirror a timetable is again a timetable: time runs the other way, so the last trip becomes
the first, the last stop becomes the first, and a trip arrives where it departed.

* `Time.mirror` — the time as far from the one bound as a time is from the other. It turns the order of
  times around, and shifts that saturate at one bound into shifts that saturate at the other.
* `Direction.opposite` — what one direction of a search does to times, the opposite direction does to
  their mirror images.
* `Trip.mirror` and `Pattern.mirror` — the mirror images of a trip and of a pattern. A trip calls at
  the mirrored position (`calls_mirror`), and the trips come in the opposite order.
-/

namespace Interchange

/-! ## Times -/

namespace Time

/-- The mirror image of a time: the bounds of a time change places. -/
def mirror (t : Time) : Time where
  secs := -1 - t.secs
  least_le := by have := t.le_greatest; omega
  le_greatest := by have := t.least_le; omega

/-- The mirror image of the mirror image is the time. -/
@[simp] theorem mirror_mirror (t : Time) : t.mirror.mirror = t := by
  apply ext_secs
  show -1 - (-1 - t.secs) = t.secs
  omega

/-- Two times with the same mirror image are the same. -/
theorem mirror_inj {a b : Time} : a.mirror = b.mirror ↔ a = b := by
  constructor
  · intro h
    rw [← mirror_mirror a, h, mirror_mirror]
  · intro h
    rw [h]

/-- A mirror turns the order of times around. -/
theorem mirror_le_mirror_iff {a b : Time} : a.mirror ≤ b.mirror ↔ b ≤ a := by
  show -1 - a.secs ≤ -1 - b.secs ↔ b.secs ≤ a.secs
  omega

/-- A mirror turns the strict order of times around. -/
theorem mirror_lt_mirror_iff {a b : Time} : a.mirror < b.mirror ↔ b < a := by
  show -1 - a.secs < -1 - b.secs ↔ b.secs < a.secs
  omega

/-- A number is moved to the one bound when its mirror image is moved to the other. -/
theorem clamp_mirror (n : Int) : clamp (-1 - n) = -1 - clamp n := by
  simp only [clamp, least, greatest]
  omega

/-- Earlier by some seconds becomes later by as many, also where a bound is passed. -/
theorem mirror_earlier (t : Time) (n : Int) : (t.earlier n).mirror = t.mirror.later n := by
  apply ext_secs
  show -1 - clamp (t.secs - n) = clamp (-1 - t.secs + n)
  rw [← clamp_mirror]
  congr 1
  omega

/-- Later by some seconds becomes earlier by as many, also where a bound is passed. -/
theorem mirror_later (t : Time) (n : Int) : (t.later n).mirror = t.mirror.earlier n := by
  rw [← mirror_mirror (t.mirror.earlier n), mirror_earlier, mirror_mirror]

/-- The later of two times becomes the earlier one. -/
theorem mirror_max (a b : Time) : (max a b).mirror = min a.mirror b.mirror := by
  apply ext_secs
  simp only [max, min, mirror_le_mirror_iff]
  rcases Int.lt_trichotomy a.secs b.secs with h | h | h
  · have hab : a ≤ b := Int.le_of_lt h
    have hba : ¬ b ≤ a := Int.not_le.2 h
    rw [if_pos hab, if_neg hba]
  · rw [ext_secs h, ite_self, ite_self]
  · have hab : ¬ a ≤ b := Int.not_le.2 h
    have hba : b ≤ a := Int.le_of_lt h
    rw [if_neg hab, if_pos hba]

/-- The earlier of two times becomes the later one. -/
theorem mirror_min (a b : Time) : (min a b).mirror = max a.mirror b.mirror := by
  rw [← mirror_mirror (max a.mirror b.mirror), mirror_max, mirror_mirror, mirror_mirror]

end Time

/-! ## Directions -/

namespace Direction

/-- The other direction. -/
def opposite : Direction → Direction
  | .forward => .reverse
  | .reverse => .forward

/-- The opposite of the opposite direction is the direction. -/
@[simp] theorem opposite_opposite (d : Direction) : d.opposite.opposite = d := by
  cases d <;> rfl

/-- What comes before for one direction comes behind for the opposite direction. -/
theorem isBefore_opposite (d : Direction) (a b : Time) :
    d.opposite.isBefore a b = d.isBefore b a := by
  cases d <;> rfl

/-- The mirror images of two times come in the same order for the opposite direction. -/
theorem isBefore_mirror (d : Direction) (a b : Time) :
    d.opposite.isBefore a.mirror b.mirror = d.isBefore a b := by
  cases d <;> simp only [opposite, isBefore, Time.mirror_lt_mirror_iff]

/-- A number of seconds leads the opposite direction to the mirror image of where it leads. -/
theorem ahead_mirror (d : Direction) (t : Time) (n : Int) :
    d.opposite.ahead t.mirror n = (d.ahead t n).mirror := by
  cases d with
  | forward => exact (Time.mirror_later t n).symm
  | reverse => exact (Time.mirror_earlier t n).symm

/-- A slack leads the opposite direction to the mirror image of where it leads. -/
theorem aheadBy_mirror (d : Direction) (t : Time) (slack : Slack) :
    d.opposite.aheadBy t.mirror slack = (d.aheadBy t slack).mirror := by
  cases d with
  | forward => exact (Time.mirror_later t slack.shift).symm
  | reverse => exact (Time.mirror_earlier t slack.shift).symm

/-- The later of two times, for the opposite direction and in the mirror. -/
theorem laterOf_mirror (d : Direction) (a b : Time) :
    d.opposite.laterOf a.mirror b.mirror = (d.laterOf a b).mirror := by
  cases d with
  | forward => exact (Time.mirror_max a b).symm
  | reverse => exact (Time.mirror_min a b).symm

/-- A row that is turned around is in the order of the opposite direction. -/
theorem order_opposite_reverse {α : Type} (d : Direction) (l : List α) :
    d.opposite.order l.reverse = d.order l := by
  cases d with
  | forward => exact List.reverse_reverse l
  | reverse => rfl

end Direction

/-! ## Positions -/

/-- The mirror image of a position in a sequence of `m` stops. A place outside the sequence stays
where it is. -/
def Position.mirror (m p : Nat) : Position := if p < m then m - 1 - p else p

/-- The mirror image of the mirror image is the position. -/
theorem Position.mirror_mirror (m p : Nat) : Position.mirror m (Position.mirror m p) = p := by
  unfold Position.mirror
  by_cases hp : p < m
  · have hp' : m - 1 - p < m := by omega
    rw [if_pos hp, if_pos hp']
    show m - 1 - (m - 1 - p) = p
    omega
  · rw [if_neg hp, if_neg hp]

/-- A row that is turned around has at the mirrored place what stood at the place. -/
theorem Position.getElem?_mirror_reverse {α : Type} (l : List α) (p : Nat) :
    l.reverse[Position.mirror l.length p]? = l[p]? := by
  unfold Position.mirror
  by_cases hp : p < l.length
  · have hq : l.length - 1 - p < l.length := by omega
    have hback : l.length - 1 - (l.length - 1 - p) = p := by omega
    rw [if_pos hp, List.getElem?_reverse hq, hback]
  · have hlen : l.reverse.length ≤ p := by
      rw [List.length_reverse]
      omega
    rw [if_neg hp, List.getElem?_eq_none hlen, List.getElem?_eq_none (by omega)]

/-! ## Trips -/

/-- The mirror image of a call: the rider arrives where time came from. -/
def Call.mirror (c : Call) : Call := ⟨c.departure.mirror, c.arrival.mirror⟩

/-- The times of the mirrored calls are the mirrored times, the last one first. -/
theorem Call.interleave_mirror (calls : List Call) :
    Call.interleave (calls.map Call.mirror).reverse =
      ((Call.interleave calls).map Time.mirror).reverse := by
  induction calls with
  | nil => rfl
  | cons c calls ih =>
    have hfront : Call.interleave (c :: calls) = c.times ++ Call.interleave calls := rfl
    have hback : Call.interleave ((calls.map Call.mirror).reverse ++ [c.mirror]) =
        Call.interleave (calls.map Call.mirror).reverse ++ c.mirror.times := by
      simp [Call.interleave]
    rw [List.map_cons, List.reverse_cons, hback, ih, hfront, List.map_append, List.reverse_append]
    rfl

namespace Trip

/-- The mirror image of one of `n` trips: it makes the mirrored calls in the opposite order, and its
number counts from the other end. -/
def mirror (n : Nat) (t : Trip) : Trip where
  id := t.id
  route := t.route
  index := n - 1 - t.index
  calls := (t.calls.map Call.mirror).reverse
  calls_ne_nil := by
    have := t.calls_ne_nil
    simpa using this
  ordered := by
    rw [Call.interleave_mirror, List.pairwise_reverse, List.pairwise_map]
    exact t.ordered.imp fun h => Time.mirror_le_mirror_iff.2 h

/-- At the mirrored position a mirrored trip makes the mirrored call. -/
theorem calls_mirror (n : Nat) (t : Trip) (p : Position) :
    (t.mirror n).calls[Position.mirror t.calls.length p]? = t.calls[p]?.map Call.mirror := by
  have hlen : t.calls.length = (t.calls.map Call.mirror).length := List.length_map _ |>.symm
  show (t.calls.map Call.mirror).reverse[Position.mirror t.calls.length p]? = _
  rw [hlen, Position.getElem?_mirror_reverse, List.getElem?_map]

/-- The event that counts for one direction is in the mirror the one that counts for the opposite
direction. -/
theorem eventTime?_mirror (d : Direction) (n : Nat) (t : Trip) (p : Position) :
    d.opposite.eventTime? (t.mirror n) (Position.mirror t.calls.length p) =
      (d.eventTime? t p).map Time.mirror := by
  have hcall := calls_mirror n t p
  cases d with
  | forward =>
    show ((t.mirror n).calls[_]?).map Call.arrival = (t.calls[p]?.map Call.departure).map Time.mirror
    rw [hcall, Option.map_map, Option.map_map]
    rfl
  | reverse =>
    show ((t.mirror n).calls[_]?).map Call.departure = (t.calls[p]?.map Call.arrival).map Time.mirror
    rw [hcall, Option.map_map, Option.map_map]
    rfl

/-- Of two trips that call equally often, the one that is nowhere ahead is in the mirror nowhere
behind. -/
theorem Precedes.mirror {a b : Trip} (h : a.Precedes b) (hlen : a.calls.length = b.calls.length)
    (n : Nat) : (b.mirror n).Precedes (a.mirror n) := by
  intro p x' y' hx' hy'
  -- the position is itself the mirror image of one
  obtain ⟨q, rfl⟩ : ∃ q, Position.mirror b.calls.length q = p :=
    ⟨_, Position.mirror_mirror b.calls.length p⟩
  rw [calls_mirror] at hx'
  rw [← hlen, calls_mirror] at hy'
  obtain ⟨x, hx, rfl⟩ := Option.map_eq_some_iff.1 hx'
  obtain ⟨y, hy, rfl⟩ := Option.map_eq_some_iff.1 hy'
  obtain ⟨harr, hdep⟩ := h q y x hy hx
  exact ⟨Time.mirror_le_mirror_iff.2 hdep, Time.mirror_le_mirror_iff.2 harr⟩

end Trip

/-! ## Patterns -/

namespace Pattern

/-- The number of a trip of a pattern is one of the numbers of its trips. -/
theorem index_lt_of_mem {p : Pattern} {t : Trip} (h : t ∈ p.trips) : t.index < p.trips.length := by
  have hmem : t.index ∈ p.trips.map (·.index) := List.mem_map_of_mem h
  rw [p.numbered] at hmem
  exact List.mem_range.1 hmem

/-- The mirror image of a pattern: the mirrored trips at the stops in the opposite order, the last trip
first. -/
def mirror (p : Pattern) : Pattern where
  id := p.id
  route := p.route
  stops := p.stops.reverse
  trips := (p.trips.map (Trip.mirror p.trips.length)).reverse
  stops_ne_nil := by
    have := p.stops_ne_nil
    simpa using this
  fits := by
    intro t ht
    obtain ⟨u, hu, rfl⟩ := List.mem_map.1 (List.mem_reverse.1 ht)
    obtain ⟨hlen, hroute⟩ := p.fits u hu
    refine ⟨?_, hroute⟩
    show ((u.calls.map Call.mirror).reverse).length = p.stops.reverse.length
    rw [List.length_reverse, List.length_map, List.length_reverse, hlen]
  numbered := by
    -- counting from the other end, in the opposite order
    have hnumbers : (p.trips.map (Trip.mirror p.trips.length)).map (·.index) =
        (p.trips.map (·.index)).map fun i => p.trips.length - 1 - i := by
      rw [List.map_map, List.map_map]
      rfl
    rw [List.map_reverse, hnumbers, p.numbered, List.length_reverse, List.length_map,
      ← List.map_reverse, List.range_eq_range', List.reverse_range', List.map_map]
    refine List.ext_getElem (by simp) fun i hi hi' => ?_
    simp at hi ⊢
    omega
  inOrder := by
    rw [List.pairwise_reverse, List.pairwise_map]
    refine p.inOrder.imp_of_mem fun {a b} ha hb hab => ?_
    have hlen : a.calls.length = b.calls.length := by
      rw [(p.fits a ha).1, (p.fits b hb).1]
    exact hab.mirror hlen p.trips.length

/-- The stops of the mirrored pattern, position by position. -/
theorem stops_mirror (p : Pattern) (q : Position) :
    p.mirror.stops[Position.mirror p.stops.length q]? = p.stops[q]? :=
  Position.getElem?_mirror_reverse p.stops q

/-- The opposite direction goes through the mirrored trips in the order of the trips. -/
theorem order_trips_mirror (p : Pattern) (d : Direction) :
    d.opposite.order p.mirror.trips = (d.order p.trips).map (Trip.mirror p.trips.length) := by
  have hreverse : p.mirror.trips = (p.trips.map (Trip.mirror p.trips.length)).reverse := rfl
  rw [hreverse, Direction.order_opposite_reverse]
  cases d with
  | forward => rfl
  | reverse => exact List.map_reverse.symm

end Pattern

end Interchange
