import Interchange.Proofs.RuleBook.Placement

/-!
# What the rule book holds

Read against the records: a record claims a key in a slot when its two points cover a location on the
rider's side, with the stop and the matcher of the key, and the position of the slot on the searched
side.

* `Timetable.Claims`, `Timetable.FirstClaims` — what a record claims, and who of a row claims a key
  first; `claims_iff_placed` ties the claims to the placements that are registered.
* `Timetable.Describes` — a slot that holds just what a row of records claims. `describes_ruleBook` —
  so does every slot of the rule book.
* `conflict_mem_issues_iff_claims` — the conflicts that are reported, in terms of claims.
-/

namespace Interchange

/-! ## Claims -/

namespace Transfer

/-- The point of a record on the rider's side of a search. -/
def source (t : Transfer) : Direction → Point
  | .forward => t.origin
  | .reverse => t.destination

/-- The point of a record on the searched side of a search. -/
def target (t : Transfer) : Direction → Point
  | .forward => t.destination
  | .reverse => t.origin

/-- The entry that a record has for a key. -/
def entry (t : Transfer) (k : Key) : Entry := ⟨k, t.constraint, t.id⟩

end Transfer

namespace Timetable

variable {tt : Timetable} {ts : List Transfer}

/-- A record claims a key in a slot: its point on the rider's side covers a location at the stop of
the key, its point on the searched side covers the position of the slot, and the matchers are those
of the key. -/
structure Claims (tt : Timetable) (t : Transfer) (i : Nat) (d : Direction) (q : Position)
    (k : Key) : Prop where
  source_covers : ∃ j p, tt.Covers (t.source d) j p k.stop
  source_eq : k.source = (t.source d).matcher
  target_covers : ∃ stop, tt.Covers (t.target d) i q stop
  target_eq : k.target = (t.target d).matcher

/-- A record is the first of a row that claims a key in a slot. -/
def FirstClaims (tt : Timetable) (ts : List Transfer) (i : Nat) (d : Direction) (q : Position)
    (k : Key) (t : Transfer) : Prop :=
  ∃ front rest, ts = front ++ t :: rest ∧ tt.Claims t i d q k ∧
    ∀ u ∈ front, ¬ tt.Claims u i d q k

/-- A record is placed, in either direction, for each location of its one point and each of its
other. -/
theorem mem_placed_iff_direction {t : Transfer} {p : Placement} :
    p ∈ tt.placed t ↔ ∃ d, ∃ s ∈ tt.locations (t.source d), ∃ g ∈ tt.locations (t.target d),
      p = t.placement d s g := by
  rw [mem_placed_iff]
  constructor
  · rintro ⟨o, ho, g, hg, hp | hp⟩
    · exact ⟨.forward, o, ho, g, hg, hp⟩
    · exact ⟨.reverse, g, hg, o, ho, hp⟩
  · rintro ⟨d, s, hs, g, hg, hp⟩
    cases d with
    | forward => exact ⟨s, hs, g, hg, .inl hp⟩
    | reverse => exact ⟨g, hg, s, hs, .inr hp⟩

/-- The entry of a placement is that of its record for its key. -/
theorem entry_eq_of_mem_placed {t : Transfer} {p : Placement} (h : p ∈ tt.placed t) :
    p.entry = t.entry p.entry.key := by
  obtain ⟨d, s, -, g, -, rfl⟩ := mem_placed_iff_direction.1 h
  rfl

/-- A record claims a key in a slot when it has a placement there with that key. -/
theorem claims_iff_placed {t : Transfer} {i : Nat} {d : Direction} {q : Position} {k : Key} :
    tt.Claims t i d q k ↔ ∃ p ∈ tt.placed t, p.IsFor i d q ∧ p.entry.key = k := by
  constructor
  · rintro ⟨⟨j, p, hs⟩, hsource, ⟨stop, hg⟩, htarget⟩
    have hs : (⟨j, p, k.stop, k.source⟩ : Location) ∈ tt.locations (t.source d) :=
      mem_locations_iff.2 ⟨hs, hsource⟩
    have hg : (⟨i, q, stop, k.target⟩ : Location) ∈ tt.locations (t.target d) :=
      mem_locations_iff.2 ⟨hg, htarget⟩
    exact ⟨_, mem_placed_iff_direction.2 ⟨d, _, hs, _, hg, rfl⟩, ⟨rfl, rfl, rfl⟩, rfl⟩
  · rintro ⟨p, hp, ⟨rfl, rfl, rfl⟩, rfl⟩
    obtain ⟨d, s, hs, g, hg, rfl⟩ := mem_placed_iff_direction.1 hp
    obtain ⟨hs, hsm⟩ := mem_locations_iff.1 hs
    obtain ⟨hg, hgm⟩ := mem_locations_iff.1 hg
    exact ⟨⟨s.pattern, s.position, hs⟩, hsm, ⟨g.stop, hg⟩, hgm⟩

/-- Among the entries of one record for a slot, a key belongs to the entry of the record, if the
record claims it. -/
theorem find?_entriesFor_placed {t : Transfer} {i : Nat} {d : Direction} {q : Position} {k : Key}
    {e : Entry} :
    (Placement.entriesFor (tt.placed t) i d q).find? (fun e => e.key = k) = some e ↔
      tt.Claims t i d q k ∧ e = t.entry k := by
  have hentries : ∀ e ∈ Placement.entriesFor (tt.placed t) i d q, e.key = k → e = t.entry k := by
    intro e he hk
    obtain ⟨p, hp, -, rfl⟩ := Placement.mem_entriesFor_iff.1 he
    rw [← hk]
    exact entry_eq_of_mem_placed hp
  constructor
  · intro h
    have hmem := List.mem_of_find?_eq_some h
    have hk : e.key = k := by simpa using List.find?_some h
    obtain ⟨p, hp, hfor, rfl⟩ := Placement.mem_entriesFor_iff.1 hmem
    exact ⟨claims_iff_placed.2 ⟨p, hp, hfor, hk⟩, hentries _ hmem hk⟩
  · rintro ⟨hc, rfl⟩
    obtain ⟨p, hp, hfor, hk⟩ := claims_iff_placed.1 hc
    have hmem := Placement.mem_entriesFor_iff.2 ⟨p, hp, hfor, rfl⟩
    rcases hfind : (Placement.entriesFor (tt.placed t) i d q).find? (fun e => e.key = k) with _ | e
    · have := List.find?_eq_none.1 hfind _ hmem
      simp [hk] at this
    · have hek : e.key = k := by simpa using List.find?_some hfind
      rw [hfind, hentries e (List.mem_of_find?_eq_some hfind) hek]

/-- No entry of a record for a slot has a key that the record does not claim there. -/
theorem find?_entriesFor_placed_eq_none_iff {t : Transfer} {i : Nat} {d : Direction} {q : Position}
    {k : Key} :
    (Placement.entriesFor (tt.placed t) i d q).find? (fun e => e.key = k) = none ↔
      ¬ tt.Claims t i d q k := by
  rw [Option.eq_none_iff_forall_ne_some]
  constructor
  · intro h hc
    exact h _ (find?_entriesFor_placed.2 ⟨hc, rfl⟩)
  · intro h e he
    exact h (find?_entriesFor_placed.1 he).1

/-- **Who holds a key**: the first record that claims it. -/
theorem holder?_slot_ruleBook_eq_some_iff {i : Nat} {d : Direction} {q : Position} {k : Key}
    {e : Entry} :
    ((tt.ruleBook ts).slot i d q).holder? k = some e ↔
      ∃ t, tt.FirstClaims ts i d q k t ∧ e = t.entry k := by
  rw [holder?_slot_ruleBook, entriesFor_placedAll, List.find?_flatMap,
    List.findSome?_eq_some_iff]
  constructor
  · rintro ⟨front, t, rest, hts, hfind, hnone⟩
    obtain ⟨hc, rfl⟩ := find?_entriesFor_placed.1 hfind
    exact ⟨t, ⟨front, rest, hts, hc,
      fun u hu => find?_entriesFor_placed_eq_none_iff.1 (hnone u hu)⟩, rfl⟩
  · rintro ⟨t, ⟨front, rest, hts, hc, hfirst⟩, rfl⟩
    exact ⟨front, t, rest, hts, find?_entriesFor_placed.2 ⟨hc, rfl⟩,
      fun u hu => find?_entriesFor_placed_eq_none_iff.2 (hfirst u hu)⟩

/-- A record that does not claim a key has no part in who holds it, wherever it stands. -/
theorem holder?_slot_ruleBook_insert {front back : List Transfer} {t : Transfer} {i : Nat}
    {d : Direction} {q : Position} {k : Key} (h : ¬ tt.Claims t i d q k) :
    ((tt.ruleBook (front ++ t :: back)).slot i d q).holder? k =
      ((tt.ruleBook (front ++ back)).slot i d q).holder? k := by
  rw [holder?_slot_ruleBook, holder?_slot_ruleBook, entriesFor_placedAll, entriesFor_placedAll,
    List.flatMap_append, List.flatMap_append, List.flatMap_cons, List.find?_append,
    List.find?_append, List.find?_append, find?_entriesFor_placed_eq_none_iff.2 h, Option.none_or]

/-- Where an entry of a record is placed its key is held, be it by that entry or by an earlier one. -/
theorem exists_holder?_slot_ruleBook {t : Transfer} (ht : t ∈ ts) {p : Placement} (hp : p ∈ tt.placed t) :
    ∃ kept, ((tt.ruleBook ts).slot p.pattern p.direction p.position).holder? p.entry.key = some kept := by
  rw [← Option.isSome_iff_exists, holder?_slot_ruleBook, List.find?_isSome]
  have hmem : p ∈ tt.placedAll ts := List.mem_flatMap.2 ⟨t, ht, hp⟩
  exact ⟨p.entry, Placement.mem_entriesFor_iff.2 ⟨p, hmem, ⟨rfl, rfl, rfl⟩, rfl⟩, by simp⟩

/-- A key that some record claims is claimed by one of them first. -/
theorem exists_firstClaims_iff {i : Nat} {d : Direction} {q : Position} {k : Key} :
    (∃ t, tt.FirstClaims ts i d q k t) ↔ ∃ t ∈ ts, tt.Claims t i d q k := by
  constructor
  · rintro ⟨t, front, rest, rfl, hc, -⟩
    exact ⟨t, by simp, hc⟩
  · rintro ⟨t, ht, hc⟩
    obtain ⟨p, hp, ⟨rfl, rfl, rfl⟩, rfl⟩ := claims_iff_placed.1 hc
    obtain ⟨e, he⟩ := exists_holder?_slot_ruleBook ht hp
    obtain ⟨u, hu, -⟩ := holder?_slot_ruleBook_eq_some_iff.1 he
    exact ⟨u, hu⟩

/-- With a single record a slot holds its entries for the keys that it claims. -/
theorem mem_slot_ruleBook_singleton_iff {t : Transfer} {i : Nat} {d : Direction} {q : Position}
    {e : Entry} :
    e ∈ (tt.ruleBook [t]).slot i d q ↔ tt.Claims t i d q e.key ∧ e = t.entry e.key := by
  rw [(wellFormed_slot_ruleBook tt [t] i d q).mem_iff, holder?_slot_ruleBook_eq_some_iff]
  constructor
  · rintro ⟨u, ⟨front, rest, hts, hc, -⟩, he⟩
    have hu : u ∈ [t] := hts ▸ List.mem_append_right front List.mem_cons_self
    rw [List.mem_singleton.1 hu] at hc he
    exact ⟨hc, he⟩
  · rintro ⟨hc, he⟩
    exact ⟨t, ⟨[], [], rfl, hc, fun u hu => absurd hu List.not_mem_nil⟩, he⟩

/-! ## Slots that describe records -/

/-- A slot holds just what a row of records claims there. -/
structure Describes (tt : Timetable) (ts : List Transfer) (i : Nat) (d : Direction) (q : Position)
    (s : Slot) : Prop where
  /-- A key is held when some record claims it. -/
  key_iff : ∀ k, (∃ e ∈ s, e.key = k) ↔ ∃ t ∈ ts, tt.Claims t i d q k
  /-- No key is held twice. -/
  keys_nodup : (s.map (·.key)).Nodup
  /-- An entry has the constraint and the id of the first record that claims its key. -/
  first : ∀ e ∈ s, ∃ t, tt.FirstClaims ts i d q e.key t ∧ e.constraint = t.constraint ∧
    e.transfer = t.id
  /-- A narrower source side stands in front, and of equal ones a narrower target side. -/
  ordered : s.Pairwise fun a b =>
    b.key.source.specificity.rank < a.key.source.specificity.rank ∨
      b.key.source.specificity = a.key.source.specificity ∧
        b.key.target.specificity.rank ≤ a.key.target.specificity.rank

/-- **The rule book holds exactly the rules that the records describe**, in every slot of every
pattern and in both directions. -/
theorem describes_ruleBook (tt : Timetable) (ts : List Transfer) (i : Nat) (d : Direction)
    (q : Position) : tt.Describes ts i d q ((tt.ruleBook ts).slot i d q) := by
  have hwell := wellFormed_slot_ruleBook tt ts i d q
  refine ⟨fun k => ?_, hwell.keys_nodup, fun e he => ?_, ?_⟩
  · rw [Slot.exists_mem_key_iff, ← exists_firstClaims_iff]
    simp only [holder?_slot_ruleBook_eq_some_iff]
    constructor
    · rintro ⟨e, t, ht, -⟩
      exact ⟨t, ht⟩
    · rintro ⟨t, ht⟩
      exact ⟨t.entry k, t, ht, rfl⟩
  · obtain ⟨t, ht, heq⟩ := holder?_slot_ruleBook_eq_some_iff.1 (hwell.mem_iff.1 he)
    rw [heq]
    exact ⟨t, ht, rfl, rfl⟩
  · exact hwell.ordered.imp fun h => Key.weight_le_iff.1 h

/-! ## Small networks -/

/-- The stops of the small network. -/
def stopA : StopId := ⟨"A", by decide⟩

@[inherit_doc stopA]
def stopB : StopId := ⟨"B", by decide⟩

@[inherit_doc stopA]
def stopC : StopId := ⟨"C", by decide⟩

/-- The pattern that the riders of a small network come from. -/
def patternP : PatternId := ⟨"P", by decide⟩

/-- The pattern that they change to. -/
def patternQ : PatternId := ⟨"Q", by decide⟩

/-- The route of both. -/
def routeR : RouteId := ⟨"R", by decide⟩

/-- A trip of the one pattern. -/
def tripA : TripId := ⟨"a", by decide⟩

/-- A trip of the other. -/
def tripB : TripId := ⟨"b", by decide⟩

/-- A rule of a small network. -/
def ruleX : TransferId := ⟨"x", by decide⟩

/-- A rule that holds a transfer. -/
def ruleHeld : TransferId := ⟨"held", by decide⟩

/-- A rule that asks for a long time to change. -/
def ruleSlow : TransferId := ⟨"slow", by decide⟩

/-- One pattern, without trips, that calls at three stops. -/
def line : Timetable where
  stops := ⟨[⟨stopA, none⟩, ⟨stopB, none⟩, ⟨stopC, none⟩], by decide⟩
  patterns :=
    [{ id := ⟨"P", by decide⟩
       route := ⟨"R", by decide⟩
       stops := [⟨0⟩, ⟨1⟩, ⟨2⟩]
       trips := []
       stops_ne_nil := by decide
       fits := by simp
       numbered := rfl
       inOrder := List.Pairwise.nil }]

/-- A trip between two stops of the route of a crossing. -/
def crossingTrip (id : TripId) (index : Nat) (first second : Call)
    (h : (Call.interleave [first, second]).Pairwise (· ≤ ·)) : Trip where
  id := id
  route := ⟨"R", by decide⟩
  index := index
  calls := [first, second]
  calls_ne_nil := by simp
  ordered := h

/-- A pattern on that route between two stops. -/
def crossingPattern (id : PatternId) (first second : StopOrdinal) (trips : List Trip)
    (fits : ∀ t ∈ trips, t.calls.length = 2 ∧ t.route = routeR)
    (numbered : trips.map (·.index) = List.range trips.length)
    (inOrder : trips.Pairwise Trip.Precedes) : Pattern where
  id := id
  route := routeR
  stops := [first, second]
  trips := trips
  stops_ne_nil := by simp
  fits := fits
  numbered := numbered
  inOrder := inOrder

/-- Two patterns that meet: one runs to the second stop and the other runs from there, with two trips
each. -/
def crossing : Timetable where
  stops := line.stops
  patterns :=
    [{ id := ⟨"P", by decide⟩
       route := ⟨"R", by decide⟩
       stops := [⟨0⟩, ⟨1⟩]
       trips :=
         [crossingTrip ⟨"a", by decide⟩ 0 ⟨.ofInt 0, .ofInt 0⟩ ⟨.ofInt 600, .ofInt 660⟩ (by decide),
          crossingTrip ⟨"b", by decide⟩ 1 ⟨.ofInt 60, .ofInt 60⟩ ⟨.ofInt 840, .ofInt 900⟩ (by decide)]
       stops_ne_nil := by decide
       fits := by decide
       numbered := rfl
       inOrder := Pattern.pairwise_of_firstOvertaking (n := 2) (by decide) (by decide) },
     { id := ⟨"Q", by decide⟩
       route := ⟨"R", by decide⟩
       stops := [⟨1⟩, ⟨2⟩]
       trips :=
         [crossingTrip ⟨"c", by decide⟩ 0 ⟨.ofInt 540, .ofInt 570⟩ ⟨.ofInt 800, .ofInt 800⟩ (by decide),
          crossingTrip ⟨"d", by decide⟩ 1 ⟨.ofInt 780, .ofInt 840⟩ ⟨.ofInt 990, .ofInt 990⟩ (by decide)]
       stops_ne_nil := by decide
       fits := by decide
       numbered := rfl
       inOrder := Pattern.pairwise_of_firstOvertaking (n := 2) (by decide) (by decide) }]

/-- A record for all changes from one stop to another. -/
def change (id : TransferId) (origin destination : StopId) (c : Constraint) : Transfer :=
  { id
    origin := .anywhere (.stop origin)
    destination := .anywhere (.stop destination)
    constraint := c }

/-- On the line a change stands at the stop that it leads to, for riders from the stop that it starts
at, and the other way round for a reverse search. -/
example (id : TransferId) (c : Constraint) :
    (line.ruleBook [change id stopA stopB c]).slot 0 .forward 1 = [⟨⟨⟨0⟩, .any, .any⟩, c, id⟩] ∧
      (line.ruleBook [change id stopA stopB c]).slot 0 .reverse 0 = [⟨⟨⟨1⟩, .any, .any⟩, c, id⟩] :=
  ⟨rfl, rfl⟩

/-! ## Conflicts -/

/-- **Which conflicts are reported**: one for each record that claims a key in a slot where a record
with another id claims it first. -/
theorem conflict_mem_issues_iff_claims {id kept : TransferId} {pattern : PatternId} {q : Position}
    {d : Direction} :
    Issue.conflict id kept pattern q d ∈ (tt.ruleBook ts).issues ↔
      ∃ t ∈ ts, t.id = id ∧ ∃ i p k u, tt.patterns[i]? = some p ∧ p.id = pattern ∧
        tt.Claims t i d q k ∧ tt.FirstClaims ts i d q k u ∧ u.id = kept ∧ kept ≠ id := by
  rw [conflict_mem_issues_iff (by simp)]
  constructor
  · rintro ⟨p, hp, pattern, e, hpattern, he, hne, heq⟩
    obtain ⟨t, ht, hpt⟩ := List.mem_flatMap.1 hp
    obtain ⟨u, hu, rfl⟩ := holder?_slot_ruleBook_eq_some_iff.1 he
    have hid : p.entry.transfer = t.id := by
      rw [entry_eq_of_mem_placed hpt]
      rfl
    rw [RuleBook.conflictOf, Issue.conflict.injEq] at heq
    obtain ⟨rfl, rfl, rfl, rfl, rfl⟩ := heq
    exact ⟨t, ht, hid.symm, p.pattern, pattern, p.entry.key, u, hpattern, rfl,
      claims_iff_placed.2 ⟨p, hpt, ⟨rfl, rfl, rfl⟩, rfl⟩, hu, rfl, hne⟩
  · rintro ⟨t, ht, rfl, i, pattern, k, u, hpattern, rfl, hc, hu, rfl, hne⟩
    obtain ⟨p, hp, ⟨rfl, rfl, rfl⟩, rfl⟩ := claims_iff_placed.1 hc
    have hid : p.entry.transfer = t.id := by
      rw [entry_eq_of_mem_placed hp]
      rfl
    refine ⟨p, List.mem_flatMap.2 ⟨t, ht, hp⟩, pattern, u.entry p.entry.key, hpattern,
      holder?_slot_ruleBook_eq_some_iff.2 ⟨u, hu, rfl⟩, ?_, ?_⟩
    · rw [hid]
      exact hne
    · rw [RuleBook.conflictOf, hid]
      rfl

end Timetable

end Interchange
