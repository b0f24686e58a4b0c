import Interchange.Proofs.RuleBook.Contents
import Interchange.Proofs.Search.Decision

/-!
# What a record has influence on

A record that is added to others shifts entries in slots and may take keys from records behind it. A
search notices only if the record is about its request, and is not outranked there.

* `Timetable.Concerns` — a record is about a request at a position: its two points cover the stop and
  trip that the rider comes from, and the position. `Timetable.rule?_singleton_of_concerns` — where it is
  the only record, it is the rule for every trip that its point on the searched side speaks about.
* `Timetable.counts_insert_iff` — the same entries count before and after a record is added that does
  not concern the request, or has a wider point on the rider's side than the entries that count.
  `boarding?_insert` — so the search gives the same.
-/

namespace Interchange

/-- The entry that a record has for riders from a stop. -/
def Transfer.entryFrom (t : Transfer) (d : Direction) (stop : StopOrdinal) : Entry :=
  t.entry ⟨stop, (t.source d).matcher, (t.target d).matcher⟩

namespace Timetable

variable {tt : Timetable}

/-! ## Records that concern a request -/

/-- A record concerns a request at a position: its point on the rider's side covers a location at the
stop, with the trip, that the rider comes from, and its point on the searched side covers the
position. -/
structure Concerns (tt : Timetable) (t : Transfer) (i : Nat) (d : Direction) (q : Position)
    (r : BoardingRequest) : Prop where
  source : ∃ l ∈ tt.locations (t.source d), l.stop = r.sourceStop ∧
    l.matcher.accepts r.sourceTrip = true
  target : ∃ l ∈ tt.locations (t.target d), l.pattern = i ∧ l.position = q

/-- A record that claims a key which applies to the rider concerns the request. -/
theorem Claims.concerns {t : Transfer} {i : Nat} {d : Direction} {q : Position} {k : Key}
    (h : tt.Claims t i d q k) {r : BoardingRequest} (hstop : k.stop = r.sourceStop)
    (haccepts : k.source.accepts r.sourceTrip = true) : tt.Concerns t i d q r := by
  obtain ⟨⟨j, p, hsource⟩, hmatcher, ⟨stop, htarget⟩, -⟩ := h
  refine ⟨?_, ?_⟩
  · refine ⟨⟨j, p, k.stop, (t.source d).matcher⟩, mem_locations_iff.2 ⟨hsource, rfl⟩, hstop, ?_⟩
    rw [← hmatcher]
    exact haccepts
  · exact ⟨⟨i, q, stop, (t.target d).matcher⟩, mem_locations_iff.2 ⟨htarget, rfl⟩, rfl, rfl⟩

/-- Where the only record concerns a request, its entry counts for the rider. -/
theorem counts_singleton_of_concerns {t : Transfer} {i : Nat} {d : Direction} {q : Position}
    {r : BoardingRequest} (h : tt.Concerns t i d q r) :
    Search.Counts ((tt.ruleBook [t]).slot i d q) r (t.entryFrom d r.sourceStop) := by
  obtain ⟨⟨l, hl, hstop, haccepts⟩, g, hg, rfl, rfl⟩ := h
  obtain ⟨hsource, hmatcher⟩ := mem_locations_iff.1 hl
  obtain ⟨htarget, -⟩ := mem_locations_iff.1 hg
  rw [hstop] at hsource
  rw [hmatcher] at haccepts
  have hmem : t.entryFrom d r.sourceStop ∈ (tt.ruleBook [t]).slot g.pattern d g.position :=
    mem_slot_ruleBook_singleton_iff.2
      ⟨⟨⟨l.pattern, l.position, hsource⟩, rfl, ⟨g.stop, htarget⟩, rfl⟩, rfl⟩
  refine ⟨⟨hmem, rfl, haccepts⟩, fun x hx => ?_⟩
  -- all entries of the record have its point as source side
  obtain ⟨hclaims, -⟩ := mem_slot_ruleBook_singleton_iff.1 hx.mem
  rw [hclaims.source_eq]
  exact Nat.le_refl _

/-- So the search has a rule to go by. -/
theorem applicable_singleton_ne_nil {t : Transfer} {i : Nat} {d : Direction} {q : Position}
    {r : BoardingRequest} (h : tt.Concerns t i d q r) :
    Search.applicable ((tt.ruleBook [t]).slot i d q) r ≠ [] :=
  List.ne_nil_of_mem ((Search.mem_applicable_iff (wellFormed_slot_ruleBook tt [t] i d q)).2
    (counts_singleton_of_concerns h))

/-- The entry is the rule for every trip that the point of the record on the searched side speaks about. -/
theorem rule?_singleton_of_concerns {t : Transfer} {i : Nat} {d : Direction} {q : Position}
    {r : BoardingRequest} (h : tt.Concerns t i d q r) {u : Trip}
    (haccepts : (t.target d).matcher.accepts u = true) :
    Search.rule? (Search.applicable ((tt.ruleBook [t]).slot i d q) r) u =
      some (t.entryFrom d r.sourceStop) := by
  rw [Search.rule?_eq_some_iff (wellFormed_slot_ruleBook tt [t] i d q)]
  refine ⟨counts_singleton_of_concerns h, haccepts, fun x hx _ => ?_⟩
  obtain ⟨hclaims, -⟩ := mem_slot_ruleBook_singleton_iff.1 hx.applies.mem
  rw [hclaims.target_eq]
  exact Nat.le_refl _

/-! ## Records that are added -/

/-- Where a record does not claim the key of an entry, the entry is in the slot with the record when it
is there without it. -/
theorem mem_slot_insert_iff {front back : List Transfer} {t : Transfer} {i : Nat} {d : Direction}
    {q : Position} {e : Entry} (h : ¬ tt.Claims t i d q e.key) :
    e ∈ (tt.ruleBook (front ++ t :: back)).slot i d q ↔
      e ∈ (tt.ruleBook (front ++ back)).slot i d q := by
  rw [(wellFormed_slot_ruleBook tt _ i d q).mem_iff, (wellFormed_slot_ruleBook tt _ i d q).mem_iff,
    holder?_slot_ruleBook_insert h]

/-- **Which entries count does not change** when a record is added that does not concern the request, or
whose point on the rider's side is wider than the source side of an entry that counts. -/
theorem counts_insert_iff {front back : List Transfer} {t : Transfer} {i : Nat} {d : Direction}
    {q : Position} {r : BoardingRequest}
    (h : ¬ tt.Concerns t i d q r ∨
      ∃ e, Search.Counts ((tt.ruleBook (front ++ back)).slot i d q) r e ∧
        (t.source d).specificity.rank < e.key.source.specificity.rank) {e : Entry} :
    Search.Counts ((tt.ruleBook (front ++ back)).slot i d q) r e ↔
      Search.Counts ((tt.ruleBook (front ++ t :: back)).slot i d q) r e := by
  have happlies : ∀ e, ¬ (tt.Claims t i d q e.key ∧ e.key.stop = r.sourceStop ∧
      e.key.source.accepts r.sourceTrip = true) →
      (Search.Applies ((tt.ruleBook (front ++ back)).slot i d q) r e ↔
        Search.Applies ((tt.ruleBook (front ++ t :: back)).slot i d q) r e) := by
    intro e he
    have hmem : e.key.stop = r.sourceStop → e.key.source.accepts r.sourceTrip = true →
        (e ∈ (tt.ruleBook (front ++ t :: back)).slot i d q ↔
          e ∈ (tt.ruleBook (front ++ back)).slot i d q) :=
      fun hstop haccepts => mem_slot_insert_iff fun hc => he ⟨hc, hstop, haccepts⟩
    constructor
    · rintro ⟨hin, hstop, haccepts⟩
      exact ⟨(hmem hstop haccepts).2 hin, hstop, haccepts⟩
    · rintro ⟨hin, hstop, haccepts⟩
      exact ⟨(hmem hstop haccepts).1 hin, hstop, haccepts⟩
  rcases h with hnot | ⟨top, htop, hlt⟩
  · apply Search.counts_congr
    intro e
    apply happlies
    rintro ⟨hc, hstop, haccepts⟩
    exact hnot (hc.concerns hstop haccepts)
  · refine Search.counts_congr_above (fun e he => ?_) htop hlt
    apply happlies
    -- the keys that the record claims have the width of its point
    rintro ⟨hc, -, -⟩
    rw [hc.source_eq, Point.specificity_matcher] at he
    exact Nat.lt_irrefl _ he

/-- **A record only influences the requests that it covers.** Wherever a record is inserted among
others, a search at a position gives the same as before if the record has no location for the rider's
stop and trip, or none at the position, or if the entries selected without it have a narrower source
side than its point on the rider's side. -/
theorem boarding?_insert (tt : Timetable) (front back : List Transfer) {t : Transfer} {i : Nat}
    {d : Direction} {q : Position} {r : BoardingRequest}
    (h : (¬ ∃ l ∈ tt.locations (t.source d), l.stop = r.sourceStop ∧
          l.matcher.accepts r.sourceTrip = true) ∨
      (¬ ∃ l ∈ tt.locations (t.target d), l.pattern = i ∧ l.position = q) ∨
      ∃ e ∈ Search.applicable ((tt.ruleBook (front ++ back)).slot i d q) r,
        (t.source d).specificity.rank < e.key.source.specificity.rank)
    (cfg : SearchConfig) (pattern : Pattern) :
    Search.boarding? d cfg pattern ((tt.ruleBook (front ++ t :: back)).index i d) q r =
      Search.boarding? d cfg pattern ((tt.ruleBook (front ++ back)).index i d) q r := by
  have hwell := wellFormed_slot_ruleBook tt (front ++ back) i d q
  have hwell' := wellFormed_slot_ruleBook tt (front ++ t :: back) i d q
  have hcases : ¬ tt.Concerns t i d q r ∨
      ∃ e, Search.Counts ((tt.ruleBook (front ++ back)).slot i d q) r e ∧
        (t.source d).specificity.rank < e.key.source.specificity.rank := by
    rcases h with hsource | htarget | ⟨e, he, hlt⟩
    · exact .inl fun hc => hsource hc.source
    · exact .inl fun hc => htarget hc.target
    · exact .inr ⟨e, (Search.mem_applicable_iff hwell).1 he, hlt⟩
  exact (Search.inSlot?_congr hwell hwell' (fun e => counts_insert_iff hcases) pattern).symm

/-- Where a guarantee speaks of one trip at a stop, a prohibition of all changes there that is put in
front of it leaves the riders of that trip their boarding. -/
theorem boarding?_insert_prohibition :
    (∃ e ∈ Search.applicable ((crossing.ruleBook ([] ++ [⟨⟨"x", by decide⟩, .trip ⟨"a", by decide⟩ 1,
        .anywhere (.stop stopB), .guaranteed⟩])).slot 1 .forward 0)
        ⟨crossing.patterns[0].trips[0], ⟨1⟩, .ofInt 600, .ofInt 720⟩,
      Specificity.rank .location < e.key.source.specificity.rank) ∧
    Search.boarding? .forward .default crossing.patterns[1]
        ((crossing.ruleBook ([] ++ change ⟨"y", by decide⟩ stopB stopB .notAllowed ::
          [⟨⟨"x", by decide⟩, .trip ⟨"a", by decide⟩ 1, .anywhere (.stop stopB),
            .guaranteed⟩])).index 1 .forward) 0
        ⟨crossing.patterns[0].trips[0], ⟨1⟩, .ofInt 600, .ofInt 720⟩ =
      some ⟨1, ⟨"d", by decide⟩, 0, ⟨1⟩, .ofInt 840, .ofInt 720, .guaranteed⟩ := by
  refine ⟨by decide, ?_⟩
  rw [boarding?_insert crossing _ _ (.inr (.inr (by decide)))]
  decide

end Timetable

end Interchange
