import Interchange.Proofs.Rows
import Interchange.Timetable.Pattern
import Mathlib.Data.List.Nodup

/-!
# The arrangement of trips

A pattern arranges its trips by their start, ties by id. Trips with ids of their own have one such
arrangement, so the order in which they were recorded has no part in the pattern.

* `arrange_eq_of_perm` — a list has one arrangement by a relation that orders its elements.
* `Pattern.startsFirst` orders trips with ids of their own; `arrange_startsFirst_eq_of_perm`.
* `Pattern.exists_ofTrips_eq_ok_iff`, `Pattern.fields_of_ofTrips` — which stops and trips make a pattern,
  and which pattern that is.
-/

namespace Interchange

/-! ## Arrangements -/

section Arrangement

variable {α : Type} {le : α → α → Bool}

/-- An arrangement by a total order is in order. -/
theorem pairwise_arrange (htotal : ∀ a b, le a b = true ∨ le b a = true)
    (htrans : ∀ a b c, le a b = true → le b c = true → le a c = true) (l : List α) :
    (arrange le l).Pairwise fun a b => le a b = true := by
  induction l with
  | nil => exact List.Pairwise.nil
  | cons a rest ih =>
    refine pairwise_insertBefore htrans (fun b hab => hab) (fun b hab => ?_) ih
    exact (htotal a b).resolve_left (Bool.eq_false_iff.1 hab)

/-- **A list has one arrangement** by a total order that tells its elements apart. -/
theorem arrange_eq_of_perm (htotal : ∀ a b, le a b = true ∨ le b a = true)
    (htrans : ∀ a b c, le a b = true → le b c = true → le a c = true) {l l' : List α}
    (hperm : l.Perm l')
    (hanti : ∀ a ∈ l, ∀ b ∈ l, le a b = true → le b a = true → a = b) :
    arrange le l = arrange le l' := by
  have harranged : (arrange le l).Perm (arrange le l') :=
    (arrange_perm le l).trans (hperm.trans (arrange_perm le l').symm)
  refine List.Perm.eq_of_pairwise (fun a b ha hb => ?_) (pairwise_arrange htotal htrans l)
    (pairwise_arrange htotal htrans l') harranged
  have ha : a ∈ l := (arrange_perm le l).mem_iff.1 ha
  have hb : b ∈ l := hperm.mem_iff.2 ((arrange_perm le l').mem_iff.1 hb)
  exact hanti a ha b hb

end Arrangement

/-! ## The order of trips -/

/-- A trip calls first where it starts. -/
theorem Trip.getElem?_calls_zero (t : Trip) : t.calls[0]? = some (t.calls.head t.calls_ne_nil) := by
  rw [List.head_eq_getElem, List.getElem?_eq_getElem]

namespace Pattern

/-- The number of a trip is its place. -/
theorem index_eq_of_getElem? {pattern : Pattern} {i : Nat} {t : Trip} (h : pattern.trips[i]? = some t) :
    t.index = i := by
  obtain ⟨hi, -⟩ := List.getElem?_eq_some_iff.1 h
  have hindex : (pattern.trips.map (·.index))[i]? = (List.range pattern.trips.length)[i]? := by
    rw [pattern.numbered]
  rw [List.getElem?_map, h, List.getElem?_range hi] at hindex
  exact Option.some.inj hindex

/-- A trip of a pattern stands at the place of its number. -/
theorem getElem?_index {pattern : Pattern} {t : Trip} (ht : t ∈ pattern.trips) :
    pattern.trips[t.index]? = some t := by
  obtain ⟨i, hi⟩ := List.getElem?_of_mem ht
  rw [index_eq_of_getElem? hi]
  exact hi

/-- Which of two trips starts first, in numbers and texts. -/
theorem startsFirst_iff {a b : Trip} :
    startsFirst a b = true ↔
      a.start.secs < b.start.secs ∨ a.start.secs = b.start.secs ∧ a.id.text ≤ b.id.text := by
  unfold startsFirst
  rw [Bool.or_eq_true, Bool.and_eq_true, decide_eq_true_eq, decide_eq_true_eq, decide_eq_true_eq,
    Time.lt_def]
  have hstart : a.start = b.start ↔ a.start.secs = b.start.secs :=
    ⟨fun h => congrArg Time.secs h, Time.ext_secs⟩
  rw [hstart]
  exact Iff.rfl

/-- Of two trips one starts first. -/
theorem startsFirst_total (a b : Trip) : startsFirst a b = true ∨ startsFirst b a = true := by
  rw [startsFirst_iff, startsFirst_iff]
  rcases Int.lt_trichotomy a.start.secs b.start.secs with hlt | heq | hlt
  · exact .inl (.inl hlt)
  · exact (String.le_total a.id.text b.id.text).imp (fun h => .inr ⟨heq, h⟩)
      fun h => .inr ⟨heq.symm, h⟩
  · exact .inr (.inl hlt)

/-- A trip that starts before one that starts before a third starts before the third. -/
theorem startsFirst_trans (a b c : Trip) (hab : startsFirst a b = true)
    (hbc : startsFirst b c = true) : startsFirst a c = true := by
  rw [startsFirst_iff] at *
  rcases hab with hab | ⟨hab, hid⟩
  · rcases hbc with hbc | ⟨hbc, -⟩ <;> omega
  · rcases hbc with hbc | ⟨hbc, hid'⟩
    · omega
    · exact .inr ⟨hab.trans hbc, String.le_trans hid hid'⟩

/-- Two trips that start before each other have one id. -/
theorem id_eq_of_startsFirst {a b : Trip} (hab : startsFirst a b = true)
    (hba : startsFirst b a = true) : a.id = b.id := by
  rw [startsFirst_iff] at *
  rcases hab with hab | ⟨hab, hid⟩
  · rcases hba with hba | ⟨hba, -⟩ <;> omega
  · rcases hba with hba | ⟨-, hid'⟩
    · omega
    · exact Id.ext_text (String.le_antisymm hid hid')

/-- **Trips with ids of their own have one arrangement.** -/
theorem arrange_startsFirst_eq_of_perm {trips trips' : List Trip} (hperm : trips.Perm trips')
    (hids : (trips.map (·.id)).Nodup) :
    arrange startsFirst trips = arrange startsFirst trips' := by
  refine arrange_eq_of_perm startsFirst_total startsFirst_trans hperm fun a ha b hb hab hba => ?_
  exact List.inj_on_of_nodup_map hids ha hb (id_eq_of_startsFirst hab hba)

/-- Numbering a row leaves the ids as they are. -/
theorem map_id_number (trips : List Trip) : (number trips).map (·.id) = trips.map (·.id) := by
  have hids := congrArg (List.map (·.id)) (List.zipIdx_map_fst 0 trips)
  rw [List.map_map] at hids
  rw [number, List.map_map]
  exact hids

/-! ## Making a pattern -/

/-- A trip is overtaken nowhere exactly when it precedes the other. -/
theorem overtakenAt_eq_none_iff {a b : Trip} : overtakenAt a b = none ↔ a.Precedes b := by
  refine ⟨precedes_of_overtakenAt, fun h => ?_⟩
  unfold overtakenAt
  rw [List.findIdx?_eq_none_iff]
  intro c hc
  obtain ⟨p, hp⟩ := List.getElem?_of_mem hc
  obtain ⟨hx, hy⟩ := List.getElem?_zip_eq_some.1 hp
  obtain ⟨harr, hdep⟩ := h p c.1 c.2 hx hy
  simp only [Bool.or_eq_false_iff, decide_eq_false_iff_not, Time.lt_def, Time.le_def] at *
  omega

/-- Nothing is overtaken in an arranged row when every trip precedes the next. -/
theorem firstOvertaking_eq_none_iff {trips : List Trip} :
    firstOvertaking trips = none ↔ trips.IsChain Trip.Precedes := by
  induction trips with
  | nil => simp [firstOvertaking]
  | cons a trips ih =>
    cases trips with
    | nil => simp [firstOvertaking]
    | cons b rest =>
      rw [List.isChain_cons_cons, ← ih, ← overtakenAt_eq_none_iff]
      rw [firstOvertaking]
      cases overtakenAt a b <;> simp

/-- A trip fits when it calls once at each stop and runs on the route. -/
theorem misfit?_eq_none_iff {id : PatternId} {route : RouteId} {stops : List StopOrdinal} {t : Trip} :
    misfit? id route stops t = none ↔ t.calls.length = stops.length ∧ t.route = route := by
  refine ⟨fits_of_misfit?, ?_⟩
  rintro ⟨hlen, hroute⟩
  unfold misfit?
  rw [if_neg (fun h => h hlen), if_neg (fun h => h hroute)]

/-- **When stops and trips make a pattern**: there are stops, every trip fits, and in the arrangement
none overtakes the one in front of it. -/
theorem exists_ofTrips_eq_ok_iff {id : PatternId} {route : RouteId} {stops : List StopOrdinal}
    {trips : List Trip} :
    (∃ p, ofTrips id route stops trips = .ok p) ↔
      stops ≠ [] ∧ (∀ t ∈ trips, t.calls.length = stops.length ∧ t.route = route) ∧
        firstOvertaking (arrange startsFirst trips) = none := by
  have hfits : trips.findSome? (misfit? id route stops) = none ↔
      ∀ t ∈ trips, t.calls.length = stops.length ∧ t.route = route := by
    rw [List.findSome?_eq_none_iff]
    exact forall₂_congr fun t _ => misfit?_eq_none_iff
  rw [← hfits]
  unfold ofTrips
  constructor
  · rintro ⟨p, h⟩
    split at h
    · cases h
    · rename_i hstops
      split at h
      · cases h
      · rename_i hfit
        split at h
        · cases h
        · rename_i hover
          exact ⟨hstops, hfit, hover⟩
  · rintro ⟨hstops, hfit, hover⟩
    rw [dif_neg hstops]
    split
    · rename_i hfit'
      rw [hfit] at hfit'
      cases hfit'
    · split
      · rename_i hover'
        rw [hover] at hover'
        cases hover'
      · exact ⟨_, rfl⟩

/-- A pattern that is made has the id, the route and the stops that were given, and the arranged trips
with their numbers. -/
theorem fields_of_ofTrips {id : PatternId} {route : RouteId} {stops : List StopOrdinal}
    {trips : List Trip} {p : Pattern} (h : ofTrips id route stops trips = .ok p) :
    p.id = id ∧ p.route = route ∧ p.stops = stops ∧ p.trips = number (arrange startsFirst trips) := by
  unfold ofTrips at h
  split at h
  · cases h
  · split at h
    · cases h
    · split at h
      · cases h
      · cases h
        exact ⟨rfl, rfl, rfl, rfl⟩

end Pattern

end Interchange
