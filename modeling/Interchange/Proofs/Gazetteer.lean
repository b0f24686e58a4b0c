import Interchange.Proofs.StopTables
import Interchange.Rule.Gazetteer
import Mathlib.Data.List.Perm.Basic

/-!
# What a gazetteer lists

The table of stops is kept free of repetitions by a look at the last place of a list, which is enough because
the patterns are gone through in order. So a pattern that calls at a stop several times is looked up once, and
gives each of its positions once.

* `Gazetteer.listAt_callersOf`, `Gazetteer.get?_carriersOf` — what the two tables hold.
* `Gazetteer.locations_ofPatterns` — a gazetteer lists the locations that the timetable lists, in their order.
* `Timetable.ListsOnce` — a row lists the locations of a point once each; `Gazetteer.listsOnce_ofPatterns` — that
  of a gazetteer does.
-/

namespace Interchange

namespace Gazetteer

/-! ## The table of stops -/

/-- Where the calls of one pattern are noted, its place is put at the end of the lists of its stops, unless it
stands there already. -/
theorem listAt_foldl_noteCall (callers : Table StopOrdinal (List Nat)) (i : Nat)
    (stops : List StopOrdinal) (stop : StopOrdinal) :
    (stops.foldl (noteCall i) callers).listAt stop =
      callers.listAt stop ++
        if stop ∈ stops ∧ (callers.listAt stop).getLast? ≠ some i then [i] else [] := by
  induction stops generalizing callers with
  | nil => simp
  | cons called stops ih =>
    rw [List.foldl_cons, ih]
    unfold noteCall
    by_cases hlast : (callers.listAt called).getLast? = some i
    · rw [if_pos hlast]
      by_cases hcalled : stop = called
      · simp [hcalled, hlast]
      · simp [hcalled]
    · rw [if_neg hlast, Table.listAt_append]
      by_cases hcalled : stop = called
      · simp [hcalled, hlast]
      · simp [hcalled]

/-- The places of the patterns of a row that call at a stop. -/
def callPlaces (patterns : List Pattern) (stop : StopOrdinal) : List Nat :=
  (patterns.zipIdx.filter fun e => stop ∈ e.1.stops).map (·.2)

/-- One more pattern at the end of a row is one more place, if it calls at the stop. -/
theorem callPlaces_append_singleton (patterns : List Pattern) (p : Pattern) (stop : StopOrdinal) :
    callPlaces (patterns ++ [p]) stop =
      callPlaces patterns stop ++ if stop ∈ p.stops then [patterns.length] else [] := by
  unfold callPlaces
  rw [List.zipIdx_append, List.filter_append, List.map_append]
  by_cases h : stop ∈ p.stops <;> simp [h]

/-- The places are those of patterns. -/
theorem lt_of_mem_callPlaces {patterns : List Pattern} {stop : StopOrdinal} {i : Nat}
    (h : i ∈ callPlaces patterns stop) : i < patterns.length := by
  obtain ⟨e, he, rfl⟩ := List.mem_map.1 h
  have hget := List.mem_zipIdx_iff_getElem?.1 (List.mem_filter.1 he).1
  exact (List.getElem?_eq_some_iff.1 hget).1

/-- **The table lists the patterns that call at a stop**, each once and in their order, however often they call
there. -/
theorem listAt_callersOf (patterns : List Pattern) (stop : StopOrdinal) :
    (callersOf patterns).listAt stop = callPlaces patterns stop := by
  induction patterns using List.reverseRecOn with
  | nil => rfl
  | append_singleton patterns p ih =>
    have hstep : callersOf (patterns ++ [p]) =
        p.stops.foldl (noteCall patterns.length) (callersOf patterns) := by
      simp [callersOf, List.zipIdx_append]
    -- the place of the new pattern stands in no list yet
    have hnew : (callPlaces patterns stop).getLast? ≠ some patterns.length := fun h =>
      Nat.lt_irrefl _ (lt_of_mem_callPlaces (List.mem_of_getLast? h))
    rw [hstep, listAt_foldl_noteCall, ih, callPlaces_append_singleton]
    simp [hnew]

/-! ## The table of trips -/

/-- Where the trips of one pattern are noted, its place becomes that of all its trips. -/
theorem get?_foldl_set (carriers : Table TripId Nat) (i : Nat) (trips : List Trip) (trip : TripId) :
    (trips.foldl (fun carriers t => carriers.set t.id i) carriers).get? trip =
      if trips.any fun t => t.id = trip then some i else carriers.get? trip := by
  induction trips generalizing carriers with
  | nil => rfl
  | cons t trips ih =>
    rw [List.foldl_cons, ih, Table.get?_set, List.any_cons]
    by_cases ht : t.id = trip
    · simp [ht]
    · simp [ht, Ne.symm ht]

/-- **The table has the last pattern that carries a trip.** -/
theorem get?_carriersOf (tt : Timetable) (trip : TripId) :
    (carriersOf tt.patterns).get? trip = tt.patternOfTrip? trip := by
  obtain ⟨stops, patterns⟩ := tt
  unfold Timetable.patternOfTrip?
  induction patterns using List.reverseRecOn with
  | nil => rfl
  | append_singleton patterns p ih =>
    have hstep : carriersOf (patterns ++ [p]) =
        p.trips.foldl (fun carriers t => carriers.set t.id patterns.length) (carriersOf patterns) := by
      simp [carriersOf, List.zipIdx_append]
    rw [hstep, get?_foldl_set, ih, List.zipIdx_append, List.filter_append, List.getLast?_append]
    by_cases hp : (p.trips.any fun t => t.id = trip) = true
    · simp [hp]
    · simp [hp]

/-! ## Looking points up -/

/-- A row may be thinned out before it is collected from, where what is left out has nothing to give. -/
theorem flatMap_filter_of_eq_nil {α β : Type} {l : List α} {p : α → Bool} {f : α → List β}
    (h : ∀ a ∈ l, p a = false → f a = []) : (l.filter p).flatMap f = l.flatMap f := by
  induction l with
  | nil => rfl
  | cons a l ih =>
    have hrest := ih fun b hb => h b (List.mem_cons_of_mem a hb)
    rw [List.filter_cons, List.flatMap_cons]
    split
    · rw [List.flatMap_cons, hrest]
    · rename_i hp
      rw [h a List.mem_cons_self (by simpa using hp), List.nil_append, hrest]

variable {stops : StopTables} {tt : Timetable}

/-- A pattern that does not call at a stop has no position there. -/
theorem positionsOf_eq_nil {p : Pattern} {stop : StopOrdinal} (h : stop ∉ p.stops) : p.positionsOf stop = [] := by
  refine List.eq_nil_iff_forall_not_mem.2 fun q hq => h ?_
  exact List.mem_of_getElem? (Pattern.mem_positionsOf_iff.1 hq)

/-- The patterns that call at a stop have all the visits there. -/
theorem visits_ofPatterns (stops : StopTables) (tt : Timetable) (route? : Option RouteId) (m : Matcher)
    (stop : StopOrdinal) :
    (ofPatterns stops tt.patterns).visits route? m stop = tt.visits route? m stop := by
  unfold visits Timetable.visits
  have hcallers : (ofPatterns stops tt.patterns).callers.listAt stop = callPlaces tt.patterns stop :=
    listAt_callersOf tt.patterns stop
  rw [hcallers, callPlaces, List.flatMap_map]
  refine Eq.trans (List.flatMap_congr fun e he => ?_) (flatMap_filter_of_eq_nil fun e _ he => ?_)
  · have hpattern : (ofPatterns stops tt.patterns).patterns[e.2]? = some e.1 :=
      List.mem_zipIdx_iff_getElem?.1 (List.mem_filter.1 he).1
    rw [hpattern]
  · rw [positionsOf_eq_nil (of_decide_eq_false he), List.map_nil]
    split <;> rfl

/-- Tables that answer as the index does stand for the same stops. -/
theorem stopsOf_ofPatterns (h : stops.Represents tt.stops) (place : Place) :
    (ofPatterns stops tt.patterns).stopsOf place = tt.stopsOf place := by
  cases place with
  | stop id => exact congrArg Option.toList (h.ordinal?_eq id)
  | station id => exact h.members_eq id

/-- The trip runs on the pattern that the table has. -/
theorem tripLocation?_ofPatterns (stops : StopTables) (tt : Timetable) (trip : TripId) (p : Position) :
    (ofPatterns stops tt.patterns).tripLocation? trip p = tt.tripLocation? trip p := by
  unfold tripLocation? Timetable.tripLocation? ofPatterns
  rw [get?_carriersOf]

/-- **A gazetteer lists the locations of a point as the timetable does**, in the same order. -/
theorem locations_ofPatterns (h : stops.Represents tt.stops) (point : Point) :
    (ofPatterns stops tt.patterns).locations point = tt.locations point := by
  unfold locations Timetable.locations
  cases point with
  | anywhere place =>
    dsimp only
    rw [stopsOf_ofPatterns h]
    exact List.flatMap_congr fun stop _ => visits_ofPatterns stops tt none .any stop
  | route id place =>
    dsimp only
    rw [stopsOf_ofPatterns h]
    exact List.flatMap_congr fun stop _ => visits_ofPatterns stops tt (some id) (.route id) stop
  | trip id p =>
    dsimp only
    rw [tripLocation?_ofPatterns]

/-- All places that are noted are places of patterns, so that no look-up fails. -/
structure InRange (g : Gazetteer) : Prop where
  callers : ∀ stop, ∀ i ∈ g.callers.listAt stop, i < g.patterns.length
  carriers : ∀ trip i, g.carriers.get? trip = some i → i < g.patterns.length

/-- The tables that are made of some patterns note places of those. -/
theorem inRange_ofPatterns (stops : StopTables) (tt : Timetable) : (ofPatterns stops tt.patterns).InRange := by
  constructor
  case callers =>
    intro stop i hi
    have hi : i ∈ (callersOf tt.patterns).listAt stop := hi
    rw [listAt_callersOf] at hi
    exact lt_of_mem_callPlaces hi
  case carriers =>
    intro trip i hi
    obtain ⟨⟨p, hp, -⟩, -⟩ := Timetable.patternOfTrip?_eq_some_iff.1 ((get?_carriersOf tt trip).symm.trans hi)
    exact (List.getElem?_eq_some_iff.1 hp).1

end Gazetteer

/-! ## Each location once -/

namespace Timetable

variable {tt : Timetable} {point : Point}

/-- A row lists the locations of a point once each. -/
structure ListsOnce (tt : Timetable) (point : Point) (ls : List Location) : Prop where
  /-- Nothing is listed that the point does not cover, nor with a stop that does not stand there, nor for other
  trips than the point speaks about. -/
  covered : ∀ l ∈ ls, tt.Covers point l.pattern l.position l.stop ∧ l.matcher = point.matcher
  /-- Each position that is covered is listed once. -/
  once : ∀ i q stop, tt.Covers point i q stop →
    ls.filter (fun l => l.pattern = i ∧ l.position = q) = [⟨i, q, stop, point.matcher⟩]
  /-- A pattern that calls at a stop several times is listed with each of the positions, and not more often. -/
  visits : point.specificity ≠ .trip → ∀ i q stop pattern, tt.patterns[i]? = some pattern →
    tt.Covers point i q stop →
      ((ls.filter fun l => l.pattern = i ∧ l.stop = stop).map (·.position)).Perm (pattern.positionsOf stop)
  /-- Different stops have no location in common. -/
  apart : ∀ a ∈ ls, ∀ b ∈ ls, a.stop ≠ b.stop → ¬ (a.pattern = b.pattern ∧ a.position = b.position)

/-- A point that covers a stop of a pattern, and does not name a trip, covers all positions of the stop. -/
theorem Covers.of_stop (hplace : point.specificity ≠ .trip) {i : Nat} {q q' : Position} {stop : StopOrdinal}
    (h : tt.Covers point i q stop) {pattern : Pattern} (hpattern : tt.patterns[i]? = some pattern)
    (hstop : pattern.stops[q']? = some stop) : tt.Covers point i q' stop := by
  obtain ⟨covered, hcovered, -, hpoint⟩ := h
  rw [hpattern] at hcovered
  cases hcovered
  refine ⟨pattern, hpattern, hstop, ?_⟩
  cases point with
  | anywhere place => exact hpoint
  | route id place => exact hpoint
  | trip id k => exact absurd rfl hplace

/-- The locations of a point at a position that it covers. -/
theorem locationsAt_of_covers {i : Nat} {q : Position} {stop : StopOrdinal} (h : tt.Covers point i q stop) :
    tt.locationsAt point i q = [⟨i, q, stop, point.matcher⟩] := by
  have hmem : (⟨i, q, stop, point.matcher⟩ : Location) ∈ tt.locationsAt point i q :=
    List.mem_filter.2 ⟨mem_locations_iff.2 ⟨h, rfl⟩, by simp⟩
  obtain ⟨l, hl⟩ := List.length_eq_one_iff.1
    (Nat.le_antisymm (tt.length_locationsAt_le_one point i q) (List.length_pos_of_mem hmem))
  rw [hl] at hmem ⊢
  rw [List.mem_singleton.1 hmem]

/-- **A timetable lists the locations of a point once each.** -/
theorem listsOnce_locations (tt : Timetable) (point : Point) : tt.ListsOnce point (tt.locations point) := by
  constructor
  case covered => exact fun l hl => mem_locations_iff.1 hl
  case once => exact fun i q stop h => locationsAt_of_covers h
  case visits =>
    intro hplace i q stop pattern hpattern hcovers
    have hnodup : (((tt.locations point).filter fun l => l.pattern = i ∧ l.stop = stop).map
        (·.position)).Nodup := by
      refine List.Nodup.map_on (fun a ha b hb hposition => ?_) ((tt.nodup_locations point).filter _)
      obtain ⟨ha, hia⟩ := List.mem_filter.1 ha
      obtain ⟨hb, hib⟩ := List.mem_filter.1 hb
      simp only [decide_eq_true_eq] at hia hib
      exact eq_of_mem_locations ha hb (hia.1.trans hib.1.symm) hposition
    refine (List.perm_ext_iff_of_nodup hnodup
      ((pattern.rising_positionsOf stop).imp Nat.ne_of_lt)).2 fun q' => ?_
    rw [List.mem_map, Pattern.mem_positionsOf_iff]
    constructor
    · rintro ⟨l, hkept, rfl⟩
      obtain ⟨hl, hil⟩ := List.mem_filter.1 hkept
      simp only [decide_eq_true_eq] at hil
      rw [← hil.1] at hpattern
      rw [← hil.2]
      exact (mem_locations_iff.1 hl).1.stop_eq hpattern
    · intro hstop
      refine ⟨⟨i, q', stop, point.matcher⟩, List.mem_filter.2 ⟨?_, by simp⟩, rfl⟩
      exact mem_locations_iff.2 ⟨hcovers.of_stop hplace hpattern hstop, rfl⟩
  case apart =>
    rintro a ha b hb hstops ⟨hpattern, hposition⟩
    exact hstops (congrArg Location.stop (eq_of_mem_locations ha hb hpattern hposition))

end Timetable

/-- **A gazetteer lists the locations of a point once each**, whatever stops came and whatever the patterns are:
it lists what the timetable lists, and it finds all that it looks up. -/
theorem Gazetteer.listsOnce_ofPatterns (calls : List Stop) (patterns : List Pattern) (point : Point) :
    let tt : Timetable := ⟨StopIndex.empty.addAll calls, patterns⟩
    let g := ofPatterns (StopTables.empty.addAll calls) patterns
    tt.ListsOnce point (g.locations point) ∧ g.locations point = tt.locations point ∧ g.InRange := by
  intro tt g
  have hstops : (StopTables.empty.addAll calls).Represents tt.stops :=
    StopTables.represents_empty.addAll calls
  have heq : g.locations point = tt.locations point := locations_ofPatterns hstops point
  refine ⟨?_, heq, inRange_ofPatterns _ tt⟩
  rw [heq]
  exact tt.listsOnce_locations point

/-- A loop that calls twice at a stop is noted once for it, and listed with both positions. -/
example :
    let loop : Pattern :=
      { id := ⟨"P", by decide⟩
        route := ⟨"R", by decide⟩
        stops := [⟨0⟩, ⟨1⟩, ⟨0⟩]
        trips := []
        stops_ne_nil := by decide
        fits := by simp
        numbered := rfl
        inOrder := List.Pairwise.nil }
    let g := Gazetteer.ofPatterns (StopTables.empty.addAll [⟨⟨"A", by decide⟩, none⟩]) [loop]
    g.callers.listAt ⟨0⟩ = [0] ∧
      g.locations (.anywhere (.stop ⟨"A", by decide⟩)) = [⟨0, 0, ⟨0⟩, .any⟩, ⟨0, 2, ⟨0⟩, .any⟩] :=
  ⟨rfl, rfl⟩

end Interchange
