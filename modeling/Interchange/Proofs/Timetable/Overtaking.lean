import Interchange.Proofs.RuleBook.Contents
import Interchange.Proofs.Timetable.Arrangement
import Mathlib.Logic.Equiv.Basic

/-!
# Trips that leave together

A pattern takes trips in the order of their starts and refuses one that is anywhere ahead of the trip in front
of it. The start of a trip is its first departure. Trips with one start are ordered by their ids, and of two of
them the one in front may arrive later: such trips are refused although none of them overtakes another.

* `Trip.Comparable`, `NoneOvertakes` — of two trips one is nowhere ahead of the other; so it is for every two
  of a row.
* `Pattern.exists_ofTrips_iff_startsFirst` — which trips with ids of their own make a pattern.
* `Trip.renamed` — a trip under another name. `Pattern.exists_naming` — trips of which none overtakes another
  make a pattern under some names.
* `Pattern.refusesJustOvertaking_iff` — when overtaking and nothing else is refused, and when the names have no
  part in that.
-/

namespace Interchange

namespace Trip

/-! ## Overtaking -/

/-- Of two trips one is nowhere ahead of the other, so neither overtakes the other. -/
def Comparable (a b : Trip) : Prop := a.Precedes b ∨ b.Precedes a

/-- Trips that call at the same times precede each other. -/
theorem Precedes.of_calls_eq {a b : Trip} (h : a.calls = b.calls) : a.Precedes b := by
  intro p x y hx hy
  rw [h] at hx
  obtain rfl := Option.some.inj (hx.symm.trans hy)
  exact ⟨Int.le_refl _, Int.le_refl _⟩

/-- Two trips that call equally often and precede each other call at the same times. -/
theorem Precedes.calls_eq {a b : Trip} (hab : a.Precedes b) (hba : b.Precedes a)
    (hlen : a.calls.length = b.calls.length) : a.calls = b.calls := by
  refine List.ext_getElem hlen fun p hp hp' => ?_
  have ha : a.calls[p]? = some a.calls[p] := List.getElem?_eq_getElem hp
  have hb : b.calls[p]? = some b.calls[p] := List.getElem?_eq_getElem hp'
  obtain ⟨harr, hdep⟩ := hab p _ _ ha hb
  obtain ⟨harr', hdep'⟩ := hba p _ _ hb ha
  have harrival : a.calls[p].arrival = b.calls[p].arrival :=
    Time.ext_secs (Int.le_antisymm harr harr')
  have hdeparture : a.calls[p].departure = b.calls[p].departure :=
    Time.ext_secs (Int.le_antisymm hdep hdep')
  calc a.calls[p] = ⟨a.calls[p].arrival, a.calls[p].departure⟩ := rfl
    _ = b.calls[p] := by rw [harrival, hdeparture]

/-- A trip starts no later than one that it precedes. -/
theorem Precedes.start_le {a b : Trip} (h : a.Precedes b) : a.start ≤ b.start :=
  (h 0 _ _ a.getElem?_calls_zero b.getElem?_calls_zero).2

/-! ## Names -/

/-- The trip under the name that a naming gives to it. -/
def renamed (name : Trip → TripId) (t : Trip) : Trip := { t with id := name t }

/-- A trip starts when it starts under any name. -/
@[simp] theorem start_renamed (name : Trip → TripId) (t : Trip) : (t.renamed name).start = t.start := rfl

/-- The names of two trips say nothing about which of them precedes the other. -/
@[simp] theorem precedes_renamed_iff {name : Trip → TripId} {a b : Trip} :
    (a.renamed name).Precedes (b.renamed name) ↔ a.Precedes b := Iff.rfl

end Trip

/-- No trip of a row overtakes another one of it. -/
def NoneOvertakes (trips : List Trip) : Prop := ∀ a ∈ trips, ∀ b ∈ trips, a.Comparable b

namespace Pattern

/-! ## Which trips make a pattern -/

/-- In the arrangement of trips with ids of their own, one of two trips is in front when it starts first. -/
theorem pairwise_arrange_startsFirst_iff {R : Trip → Trip → Prop} (hrefl : ∀ a, R a a) {trips : List Trip}
    (hids : (trips.map (·.id)).Nodup) :
    (arrange startsFirst trips).Pairwise R ↔
      ∀ a ∈ trips, ∀ b ∈ trips, startsFirst a b = true → R a b := by
  have hmem : ∀ {t}, t ∈ arrange startsFirst trips ↔ t ∈ trips := (arrange_perm _ _).mem_iff
  have horder : (arrange startsFirst trips).Pairwise fun a b => startsFirst a b = true :=
    pairwise_arrange startsFirst_total startsFirst_trans trips
  constructor
  · intro h a ha b hb
    -- of two trips that start first of each other one would have to be the other
    have hbehind : (arrange startsFirst trips).Pairwise fun a b => startsFirst b a = true → R b a := by
      refine horder.imp_of_mem fun {a b} ha hb hab hba => ?_
      have hsame : a = b := List.inj_on_of_nodup_map hids (hmem.1 ha) (hmem.1 hb)
        (id_eq_of_startsFirst hab hba)
      rw [hsame]
      exact hrefl b
    have hfront : (arrange startsFirst trips).Pairwise fun a b => startsFirst a b = true → R a b :=
      h.imp fun {a b} hab (_ : startsFirst a b = true) => hab
    exact hfront.forall_of_forall_of_flip (fun a _ _ => hrefl a) hbehind (hmem.2 ha) (hmem.2 hb)
  · intro h
    exact horder.imp_of_mem fun ha hb hab => h _ (hmem.1 ha) _ (hmem.1 hb) hab

section Trips

variable (id : PatternId) {route : RouteId} {stops : List StopOrdinal} {trips : List Trip}

/-- **Which trips make a pattern**: of trips with ids of their own that fit the stops, those of which each
precedes all that it starts no later than. -/
theorem exists_ofTrips_iff_startsFirst (hstops : stops ≠ []) (hids : (trips.map (·.id)).Nodup)
    (hfits : ∀ t ∈ trips, t.calls.length = stops.length ∧ t.route = route) :
    (∃ p, ofTrips id route stops trips = .ok p) ↔
      ∀ a ∈ trips, ∀ b ∈ trips, startsFirst a b = true → a.Precedes b := by
  have hlen : ∀ t ∈ arrange startsFirst trips, t.calls.length = stops.length := fun t ht =>
    (hfits t ((arrange_perm _ _).mem_iff.1 ht)).1
  rw [exists_ofTrips_eq_ok_iff,
    ← pairwise_arrange_startsFirst_iff (fun _ => Trip.Precedes.of_calls_eq rfl) hids]
  constructor
  · rintro ⟨-, -, hover⟩
    exact pairwise_of_firstOvertaking hlen hover
  · intro h
    exact ⟨hstops, hfits, firstOvertaking_eq_none_iff.2 h.isChain⟩

/-- Of trips that make a pattern under some names none overtakes another. -/
theorem noneOvertakes_of_ofTrips {name : Trip → TripId} {p : Pattern}
    (hnames : (trips.map name).Nodup)
    (h : ofTrips id route stops (trips.map (Trip.renamed name)) = .ok p) : NoneOvertakes trips := by
  obtain ⟨hstops, hfits, -⟩ := exists_ofTrips_eq_ok_iff.1 ⟨p, h⟩
  have hids : ((trips.map (Trip.renamed name)).map (·.id)).Nodup := by rwa [List.map_map]
  have hprec := (exists_ofTrips_iff_startsFirst id hstops hids hfits).1 ⟨p, h⟩
  intro a ha b hb
  have ha' : a.renamed name ∈ trips.map (Trip.renamed name) := List.mem_map_of_mem ha
  have hb' : b.renamed name ∈ trips.map (Trip.renamed name) := List.mem_map_of_mem hb
  exact (startsFirst_total (a.renamed name) (b.renamed name)).imp
    (hprec (a.renamed name) ha' (b.renamed name) hb') (hprec (b.renamed name) hb' (a.renamed name) ha')

/-- **Which names make a pattern** of trips of which none overtakes another: of two that start together the one
with the smaller name has to precede the other. -/
theorem exists_ofTrips_renamed_iff (hstops : stops ≠ [])
    (hfits : ∀ t ∈ trips, t.calls.length = stops.length ∧ t.route = route) (hnone : NoneOvertakes trips)
    {name : Trip → TripId} (hnames : (trips.map name).Nodup) :
    (∃ p, ofTrips id route stops (trips.map (Trip.renamed name)) = .ok p) ↔
      ∀ a ∈ trips, ∀ b ∈ trips, a.start = b.start → name a ≤ name b → a.Precedes b := by
  have hids : ((trips.map (Trip.renamed name)).map (·.id)).Nodup := by rwa [List.map_map]
  rw [exists_ofTrips_iff_startsFirst id hstops hids (List.forall_mem_map.2 fun t ht => hfits t ht),
    List.forall_mem_map]
  refine forall₂_congr fun a ha => ?_
  rw [List.forall_mem_map]
  refine forall₂_congr fun b hb => ?_
  rw [startsFirst_iff, Trip.precedes_renamed_iff]
  constructor
  · intro hprec hstart hname
    exact hprec (.inr ⟨congrArg Time.secs hstart, hname⟩)
  · rintro hprec (hlt | ⟨hstart, hname⟩)
    · refine (hnone a ha b hb).resolve_right fun hba => ?_
      have hle : b.start.secs ≤ a.start.secs := hba.start_le
      rw [Trip.start_renamed, Trip.start_renamed] at hlt
      omega
    · exact hprec (Time.ext_secs hstart) hname

end Trips

/-! ## Names in the order of travel -/

/-- How many trips of a row are somewhere ahead of a trip. -/
def aheadOf (trips : List Trip) (t : Trip) : Nat := trips.countP fun u => (overtakenAt t u).isSome

/-- A trip is somewhere ahead of another unless the other precedes it. -/
theorem isSome_overtakenAt_iff {a b : Trip} : (overtakenAt a b).isSome = true ↔ ¬ a.Precedes b := by
  rw [← overtakenAt_eq_none_iff, Option.isSome_iff_ne_none]

/-- Of two trips that call equally often and at other times, fewer are ahead of the one that precedes the
other. -/
theorem aheadOf_lt {trips : List Trip} {a b : Trip} (ha : a ∈ trips) (hab : a.Precedes b)
    (hba : ¬ b.Precedes a) (hlen : a.calls.length = b.calls.length) : aheadOf trips a < aheadOf trips b := by
  have hsplit : trips.Perm (a :: trips.erase a) := List.perm_cons_erase ha
  unfold aheadOf
  rw [hsplit.countP_eq, hsplit.countP_eq, List.countP_cons_of_neg, List.countP_cons_of_pos]
  · refine Nat.lt_succ_of_le (List.countP_mono_left fun u _ hu => ?_)
    rw [isSome_overtakenAt_iff] at hu ⊢
    exact fun hbu => hu (hab.trans hbu hlen)
  · exact isSome_overtakenAt_iff.2 hba
  · exact fun h => isSome_overtakenAt_iff.1 h (.of_calls_eq rfl)

/-- The letters of a name that stands the further back the larger a number is. -/
def placedLetters (n : Nat) (id : TripId) : List Char := List.replicate n 'b' ++ 'a' :: id.text.toList

/-- A placed name stands in front of those with a larger number. -/
theorem placedLetters_lt {n n' : Nat} (h : n < n') (id id' : TripId) :
    placedLetters n id < placedLetters n' id' := by
  induction n generalizing n' with
  | zero =>
    obtain ⟨m, rfl⟩ := Nat.exists_eq_add_of_lt h
    exact List.cons_lt_cons_iff.2 (.inl (by decide))
  | succ n ih =>
    obtain ⟨m, rfl⟩ := Nat.exists_eq_add_of_lt h
    exact List.cons_lt_cons_iff.2 (.inr ⟨rfl, ih (by omega)⟩)

/-- The name that puts a trip behind those that are ahead of it. -/
def nameBehind (trips : List Trip) (t : Trip) : TripId where
  text := String.ofList (placedLetters (aheadOf trips t) t.id)
  text_ne_empty := by simp [placedLetters, ← String.toList_inj]

/-- No more trips are ahead of a trip whose name does not stand further back. -/
theorem aheadOf_le_of_nameBehind_le {trips : List Trip} {a b : Trip}
    (h : nameBehind trips a ≤ nameBehind trips b) : aheadOf trips a ≤ aheadOf trips b := by
  refine Nat.not_lt.1 fun hlt => h ?_
  have hletters := placedLetters_lt hlt b.id a.id
  rwa [← String.toList_ofList (l := placedLetters _ b.id),
    ← String.toList_ofList (l := placedLetters _ a.id)] at hletters

/-- Trips with ids of their own get names of their own. -/
theorem id_eq_of_nameBehind_eq {trips : List Trip} {a b : Trip}
    (h : nameBehind trips a = nameBehind trips b) : a.id = b.id := by
  have hnumber : aheadOf trips a = aheadOf trips b :=
    Nat.le_antisymm (aheadOf_le_of_nameBehind_le (h ▸ String.le_refl _))
      (aheadOf_le_of_nameBehind_le (h ▸ String.le_refl _))
  have hletters : placedLetters (aheadOf trips a) a.id = placedLetters (aheadOf trips b) b.id :=
    String.ofList_injective (congrArg Id.text h)
  unfold placedLetters at hletters
  rw [hnumber, List.append_cancel_left_eq, List.cons.injEq] at hletters
  exact Id.ext_text (String.toList_inj.1 hletters.2)

section Trips

variable (id : PatternId) {route : RouteId} {stops : List StopOrdinal} {trips : List Trip}

/-- **Trips of which none overtakes another make a pattern under some names.** -/
theorem exists_naming (hstops : stops ≠ []) (hids : (trips.map (·.id)).Nodup)
    (hfits : ∀ t ∈ trips, t.calls.length = stops.length ∧ t.route = route) (hnone : NoneOvertakes trips) :
    ∃ name, (trips.map name).Nodup ∧
      ∃ p, ofTrips id route stops (trips.map (Trip.renamed name)) = .ok p := by
  have hnames : (trips.map (nameBehind trips)).Nodup :=
    List.Nodup.map_on (fun a ha b hb h =>
      List.inj_on_of_nodup_map hids ha hb (id_eq_of_nameBehind_eq h)) (List.Nodup.of_map _ hids)
  refine ⟨nameBehind trips, hnames, (exists_ofTrips_renamed_iff id hstops hfits hnone hnames).2 ?_⟩
  intro a ha b hb _ hname
  by_contra hab
  have hba : b.Precedes a := (hnone a ha b hb).resolve_left hab
  have hlt : aheadOf trips b < aheadOf trips a :=
    aheadOf_lt hb hba hab ((hfits b hb).1.trans (hfits a ha).1.symm)
  exact absurd (aheadOf_le_of_nameBehind_le hname) (Nat.not_le.2 hlt)

/-! ## What is refused -/

/-- Stops and trips make a pattern exactly when no trip overtakes another. -/
def RefusesJustOvertaking (id : PatternId) (route : RouteId) (stops : List StopOrdinal)
    (trips : List Trip) : Prop :=
  (∃ p, ofTrips id route stops trips = .ok p) ↔ NoneOvertakes trips

/-- Whether stops and trips make a pattern does not depend on how the trips are named, no two alike. -/
def NamesHaveNoPart (id : PatternId) (route : RouteId) (stops : List StopOrdinal)
    (trips : List Trip) : Prop :=
  ∀ name, (trips.map name).Nodup →
    ((∃ p, ofTrips id route stops (trips.map (Trip.renamed name)) = .ok p) ↔
      ∃ p, ofTrips id route stops trips = .ok p)

/-- A trip is not renamed by giving it its own id. -/
theorem map_renamed_id (trips : List Trip) : trips.map (Trip.renamed (·.id)) = trips := List.map_id trips

/-- Which ids make a pattern of trips of which none overtakes another. -/
theorem exists_ofTrips_iff_of_noneOvertakes (hstops : stops ≠ []) (hids : (trips.map (·.id)).Nodup)
    (hfits : ∀ t ∈ trips, t.calls.length = stops.length ∧ t.route = route) (hnone : NoneOvertakes trips) :
    (∃ p, ofTrips id route stops trips = .ok p) ↔
      ∀ a ∈ trips, ∀ b ∈ trips, a.start = b.start → a.id ≤ b.id → a.Precedes b := by
  have h := exists_ofTrips_renamed_iff id hstops hfits hnone hids
  rwa [map_renamed_id] at h

/-- Where names have no part, two trips that start together call at the same times: either id may come first, so
each of the two precedes the other. -/
theorem calls_eq_of_namesHaveNoPart (hstops : stops ≠ []) (hids : (trips.map (·.id)).Nodup)
    (hfits : ∀ t ∈ trips, t.calls.length = stops.length ∧ t.route = route) (hnone : NoneOvertakes trips)
    (h : NamesHaveNoPart id route stops trips) {a b : Trip} (ha : a ∈ trips) (hb : b ∈ trips)
    (hstart : a.start = b.start) : a.calls = b.calls := by
  -- some names make a pattern, so the given ones do, and those with the two exchanged
  obtain ⟨name, hnames, hp⟩ := exists_naming id hstops hids hfits hnone
  have hp' : ∃ p, ofTrips id route stops trips = .ok p := (h name hnames).1 hp
  have hswapped : (trips.map fun t => Equiv.swap a.id b.id t.id).Nodup := by
    have hnodup := hids.map (Equiv.swap a.id b.id).injective
    rwa [List.map_map] at hnodup
  have hprec := (exists_ofTrips_iff_of_noneOvertakes id hstops hids hfits hnone).1 hp'
  have hprec' := (exists_ofTrips_renamed_iff id hstops hfits hnone hswapped).1 ((h _ hswapped).2 hp')
  have hlen : a.calls.length = b.calls.length := (hfits a ha).1.trans (hfits b hb).1.symm
  rcases String.le_total a.id.text b.id.text with hid | hid
  · have hba := hprec' b hb a ha hstart.symm
    rw [Equiv.swap_apply_right, Equiv.swap_apply_left] at hba
    exact (hprec a ha b hb hstart hid).calls_eq (hba hid) hlen
  · have hab := hprec' a ha b hb hstart
    rw [Equiv.swap_apply_right, Equiv.swap_apply_left] at hab
    exact (hab hid).calls_eq (hprec b hb a ha hstart.symm hid) hlen

/-- **When overtaking and nothing else is refused.** Of trips with ids of their own that fit the stops, just
those of which none overtakes another make a pattern, provided that then of two that start together the one
with the smaller id precedes the other. Their names have no part in it, provided that then two that start
together call at the same times all the way. -/
theorem refusesJustOvertaking_iff (hstops : stops ≠ []) (hids : (trips.map (·.id)).Nodup)
    (hfits : ∀ t ∈ trips, t.calls.length = stops.length ∧ t.route = route) :
    (RefusesJustOvertaking id route stops trips ↔
      (NoneOvertakes trips →
        ∀ a ∈ trips, ∀ b ∈ trips, a.start = b.start → a.id ≤ b.id → a.Precedes b)) ∧
    (NamesHaveNoPart id route stops trips ↔
      (NoneOvertakes trips →
        ∀ a ∈ trips, ∀ b ∈ trips, a.start = b.start → a.calls = b.calls)) := by
  have hgiven (hnone : NoneOvertakes trips) :=
    exists_ofTrips_iff_of_noneOvertakes id hstops hids hfits hnone
  have hmade : (∃ p, ofTrips id route stops trips = .ok p) → NoneOvertakes trips := by
    rintro ⟨p, hp⟩
    rw [← map_renamed_id trips] at hp
    exact noneOvertakes_of_ofTrips id hids hp
  refine ⟨⟨fun h hnone => (hgiven hnone).1 (h.2 hnone), fun h => ⟨hmade, fun hnone => ?_⟩⟩, ?_, ?_⟩
  · exact (hgiven hnone).2 (h hnone)
  · intro h hnone a ha b hb hstart
    exact calls_eq_of_namesHaveNoPart id hstops hids hfits hnone h ha hb hstart
  · intro h name hnames
    by_cases hnone : NoneOvertakes trips
    · have hprec : ∀ a ∈ trips, ∀ b ∈ trips, a.start = b.start → a.Precedes b :=
        fun a ha b hb hstart => .of_calls_eq (h hnone a ha b hb hstart)
      exact iff_of_true
        ((exists_ofTrips_renamed_iff id hstops hfits hnone hnames).2 fun a ha b hb hstart _ =>
          hprec a ha b hb hstart)
        ((hgiven hnone).2 fun a ha b hb hstart _ => hprec a ha b hb hstart)
    · exact iff_of_false (fun ⟨_, hp⟩ => hnone (noneOvertakes_of_ofTrips id hnames hp))
        fun hp => hnone (hmade hp)

end Trips

/-- A trip that is at its first stop five minutes before it leaves. -/
def thereEarly (id : TripId) : Trip :=
  Timetable.crossingTrip id 0 ⟨.ofInt 35700, .ofInt 36000⟩ ⟨.ofInt 36600, .ofInt 36600⟩ (by decide)

/-- A trip that leaves and comes in with that one, and is at its first stop two minutes before it leaves. -/
def thereLate (id : TripId) : Trip :=
  Timetable.crossingTrip id 0 ⟨.ofInt 35880, .ofInt 36000⟩ ⟨.ofInt 36600, .ofInt 36600⟩ (by decide)

/-- Of the two neither overtakes the other. -/
theorem noneOvertakes_leavingTogether {early late : TripId} :
    NoneOvertakes [thereEarly early, thereLate late] := by
  have hprec : (thereEarly early).Precedes (thereLate late) := precedes_of_overtakenAt rfl
  intro a ha b hb
  rcases List.mem_pair.1 ha with rfl | rfl <;> rcases List.mem_pair.1 hb with rfl | rfl
  · exact .inl (.of_calls_eq rfl)
  · exact .inl hprec
  · exact .inr hprec
  · exact .inl (.of_calls_eq rfl)

/-- Where the one that is there before the other also comes in front of it by its id, nothing is refused, but
the names have a part in that. -/
theorem refusesJustOvertaking_leavingTogether :
    RefusesJustOvertaking Timetable.patternP Timetable.routeR [⟨0⟩, ⟨1⟩]
      [thereEarly Timetable.tripA, thereLate Timetable.tripB] ∧
    ¬ NamesHaveNoPart Timetable.patternP Timetable.routeR [⟨0⟩, ⟨1⟩]
      [thereEarly Timetable.tripA, thereLate Timetable.tripB] := by
  have hstops : ([⟨0⟩, ⟨1⟩] : List StopOrdinal) ≠ [] := by decide
  have hids : ([thereEarly Timetable.tripA, thereLate Timetable.tripB].map (·.id)).Nodup := by decide
  have hfits : ∀ t ∈ [thereEarly Timetable.tripA, thereLate Timetable.tripB],
      t.calls.length = 2 ∧ t.route = Timetable.routeR := by decide
  obtain ⟨hrefuses, hnames⟩ := refusesJustOvertaking_iff Timetable.patternP hstops hids hfits
  refine ⟨hrefuses.2 fun _ a ha b hb hstart hid => ?_, fun h => ?_⟩
  · rcases List.mem_pair.1 ha with rfl | rfl <;> rcases List.mem_pair.1 hb with rfl | rfl
    · exact .of_calls_eq rfl
    · exact precedes_of_overtakenAt rfl
    · exact absurd hid (by decide)
    · exact .of_calls_eq rfl
  · have hcalls := hnames.1 h noneOvertakes_leavingTogether _ (List.mem_pair.2 (.inl rfl)) _
      (List.mem_pair.2 (.inr rfl)) rfl
    exact absurd hcalls (by decide)

/-- **Trips that leave together are refused though none overtakes another**: with the ids exchanged, the one
that is there later comes in front, and the other is said to overtake it at the first stop. -/
theorem not_refusesJustOvertaking_leavingTogether :
    (∀ t ∈ [thereEarly Timetable.tripB, thereLate Timetable.tripA],
      t.calls.length = 2 ∧ t.route = Timetable.routeR) ∧
    ([thereEarly Timetable.tripB, thereLate Timetable.tripA].map (·.id)).Nodup ∧
    NoneOvertakes [thereEarly Timetable.tripB, thereLate Timetable.tripA] ∧
    ofTrips Timetable.patternP Timetable.routeR [⟨0⟩, ⟨1⟩]
        [thereEarly Timetable.tripB, thereLate Timetable.tripA] =
      .error (.overtaking Timetable.patternP Timetable.tripB 0) ∧
    ¬ RefusesJustOvertaking Timetable.patternP Timetable.routeR [⟨0⟩, ⟨1⟩]
      [thereEarly Timetable.tripB, thereLate Timetable.tripA] ∧
    ¬ NamesHaveNoPart Timetable.patternP Timetable.routeR [⟨0⟩, ⟨1⟩]
      [thereEarly Timetable.tripB, thereLate Timetable.tripA] := by
  have hrefused : ofTrips Timetable.patternP Timetable.routeR [⟨0⟩, ⟨1⟩]
      [thereEarly Timetable.tripB, thereLate Timetable.tripA] =
      .error (.overtaking Timetable.patternP Timetable.tripB 0) := rfl
  have hnone : ¬ ∃ p, ofTrips Timetable.patternP Timetable.routeR [⟨0⟩, ⟨1⟩]
      [thereEarly Timetable.tripB, thereLate Timetable.tripA] = .ok p := by
    rintro ⟨p, hp⟩
    rw [hrefused] at hp
    cases hp
  refine ⟨by decide, by decide, noneOvertakes_leavingTogether, hrefused,
    fun h => hnone (h.2 noneOvertakes_leavingTogether), fun h => hnone ?_⟩
  exact (h (fun t => Equiv.swap Timetable.tripA Timetable.tripB t.id) (by decide)).1 ⟨_, rfl⟩

end Pattern

end Interchange
