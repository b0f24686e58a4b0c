import Interchange.Proofs.Location
import Interchange.Proofs.Slot
import Interchange.Rule.Book

/-!
# From records to slots

The rule book is made by one long run over all patterns, in both directions. Seen from a single slot
that run is a short one: `slot_ruleBook` — a slot is what comes of registering the entries that are
meant for it, in record order, and the rest of the run leaves it alone.

* `RuleBook.Shaped` — a book has a slot for each position of each pattern. It is the invariant of the
  run.
* `slot_place`, `mem_issues_place` — what one placement does to the slots and to the issues.
* `conflict_mem_issues_iff` — which conflicts are reported: those of the placements whose key is, in
  the end, held under another id.
-/

namespace Interchange

/-! ## Placements of records -/

namespace Placement

/-- A placement is meant for a slot: that of a pattern, a direction and a position. -/
abbrev IsFor (p : Placement) (i : Nat) (d : Direction) (q : Position) : Prop :=
  p.pattern = i ∧ p.direction = d ∧ p.position = q

/-- The entries of a row of placements that are meant for a slot. -/
def entriesFor (ps : List Placement) (i : Nat) (d : Direction) (q : Position) : List Entry :=
  (ps.filter fun p => p.IsFor i d q).map (·.entry)

/-- An entry is meant for a slot when it belongs to a placement that is. -/
theorem mem_entriesFor_iff {ps : List Placement} {i : Nat} {d : Direction} {q : Position}
    {e : Entry} : e ∈ entriesFor ps i d q ↔ ∃ p ∈ ps, p.IsFor i d q ∧ p.entry = e := by
  simp [entriesFor, and_assoc]

/-- The entries of a longer row are those of its parts. -/
@[simp] theorem entriesFor_append (ps ps' : List Placement) (i : Nat) (d : Direction)
    (q : Position) : entriesFor (ps ++ ps') i d q = entriesFor ps i d q ++ entriesFor ps' i d q := by
  simp [entriesFor]

/-- The entries of a row that is collected from parts are collected from those of the parts. -/
theorem entriesFor_flatMap {α : Type} (l : List α) (f : α → List Placement) (i : Nat)
    (d : Direction) (q : Position) :
    entriesFor (l.flatMap f) i d q = l.flatMap fun a => entriesFor (f a) i d q := by
  unfold entriesFor
  rw [List.filter_flatMap, List.map_flatMap]

/-- A placement that is meant for the slot puts its entry in front of those of the rest. -/
theorem entriesFor_cons_of_isFor {p : Placement} {i : Nat} {d : Direction} {q : Position}
    (h : p.IsFor i d q) (ps : List Placement) :
    entriesFor (p :: ps) i d q = p.entry :: entriesFor ps i d q := by
  simp [entriesFor, h]

/-- A placement that is meant for another slot does not count. -/
theorem entriesFor_cons_of_not_isFor {p : Placement} {i : Nat} {d : Direction} {q : Position}
    (h : ¬ p.IsFor i d q) (ps : List Placement) :
    entriesFor (p :: ps) i d q = entriesFor ps i d q := by
  simp [entriesFor, h]

end Placement

namespace Timetable

variable {tt : Timetable}

/-- The placements of a record: none when one of its points covers nothing. -/
def placed (tt : Timetable) (t : Transfer) : List Placement :=
  (tt.locations t.origin).flatMap fun o =>
    (tt.locations t.destination).flatMap fun g => t.placementsAt o g

/-- The placements of a row of records, in record order. -/
def placedAll (tt : Timetable) (ts : List Transfer) : List Placement := ts.flatMap tt.placed

/-- The first record of a row is placed before the rest. -/
theorem placedAll_cons (tt : Timetable) (t : Transfer) (ts : List Transfer) :
    tt.placedAll (t :: ts) = tt.placed t ++ tt.placedAll ts := List.flatMap_cons

/-- A row of records is placed part by part. -/
theorem placedAll_append (tt : Timetable) (ts us : List Transfer) :
    tt.placedAll (ts ++ us) = tt.placedAll ts ++ tt.placedAll us := List.flatMap_append

/-- The entries of a row of records for a slot are those of its records, in record order. -/
theorem entriesFor_placedAll (tt : Timetable) (ts : List Transfer) (i : Nat) (d : Direction)
    (q : Position) :
    Placement.entriesFor (tt.placedAll ts) i d q =
      ts.flatMap fun t => Placement.entriesFor (tt.placed t) i d q :=
  Placement.entriesFor_flatMap ts tt.placed i d q

/-- A record is placed where its points cover locations, or else it is reported and not placed. -/
theorem placements_eq (tt : Timetable) (t : Transfer) :
    tt.placements t = .ok (tt.placed t) ∨
      tt.placed t = [] ∧ ∃ side point, tt.placements t = .error (.unresolvable t.id side point) := by
  unfold placements placed
  rcases tt.locations t.origin with _ | ⟨o, os⟩
  · exact .inr ⟨rfl, _, _, rfl⟩
  · rcases tt.locations t.destination with _ | ⟨g, gs⟩
    · exact .inr ⟨by simp, _, _, rfl⟩
    · exact .inl rfl

/-- A placement belongs to a record when it stands, in one of the directions, for a location of its
origin and one of its destination. -/
theorem mem_placed_iff {t : Transfer} {p : Placement} :
    p ∈ tt.placed t ↔ ∃ o ∈ tt.locations t.origin, ∃ g ∈ tt.locations t.destination,
      p = t.placement .forward o g ∨ p = t.placement .reverse g o := by
  simp [placed, Transfer.placementsAt]

/-- The number of stop positions of the pattern at a place in the timetable. -/
def stopCount (tt : Timetable) (i : Nat) : Nat :=
  match tt.patterns[i]? with
  | some p => p.stops.length
  | none => 0

/-- A location is a position of its pattern. -/
theorem position_lt_of_mem_locations {point : Point} {l : Location}
    (h : l ∈ tt.locations point) : l.position < tt.stopCount l.pattern := by
  obtain ⟨⟨pattern, hpattern, hstop, -⟩, -⟩ := mem_locations_iff.1 h
  unfold stopCount
  rw [hpattern]
  exact (List.getElem?_eq_some_iff.1 hstop).1

/-- A record is placed at positions of patterns only. -/
theorem position_lt_of_mem_placed {t : Transfer} {p : Placement} (h : p ∈ tt.placed t) :
    p.position < tt.stopCount p.pattern := by
  obtain ⟨o, ho, g, hg, rfl | rfl⟩ := mem_placed_iff.1 h
  · exact position_lt_of_mem_locations hg
  · exact position_lt_of_mem_locations ho

end Timetable

/-! ## One placement -/

/-- Two indexes of the same length are the same when their slots are. -/
theorem RuleIndex.eq_of_slots {x y : RuleIndex} (hcount : x.stopCount = y.stopCount)
    (h : ∀ q, x.slot q = y.slot q) : x = y := by
  obtain ⟨slots⟩ := x
  obtain ⟨slots'⟩ := y
  rw [RuleIndex.mk.injEq]
  refine List.ext_getElem hcount fun q hq hq' => ?_
  have hslot := h q
  simp only [slot] at hslot
  rwa [List.getElem?_eq_getElem hq, List.getElem?_eq_getElem hq', Option.getD_some,
    Option.getD_some] at hslot

namespace RuleBook

variable {tt : Timetable} {b : RuleBook}

/-- A book has, for each pattern and direction, as many slots as the pattern has positions. -/
def Shaped (tt : Timetable) (b : RuleBook) : Prop :=
  ∀ i d, (b.index i d).stopCount = tt.stopCount i

/-- The book before any record has that shape. -/
theorem shaped_empty (tt : Timetable) : (empty tt).Shaped tt := by
  intro i d
  unfold index empty Timetable.stopCount
  rw [List.getElem?_map]
  rcases tt.patterns[i]? with _ | p <;> simp

/-- The book before any record has nothing in its slots. -/
theorem slot_empty (tt : Timetable) (i : Nat) (d : Direction) (q : Position) :
    (empty tt).slot i d q = [] := by
  unfold slot index empty
  rw [List.getElem?_map]
  rcases tt.patterns[i]? with _ | p <;> simp

/-- Reporting an issue does not touch the rules. -/
@[simp] theorem rules_report (b : RuleBook) (x : Issue) : (b.report x).rules = b.rules := by
  unfold report
  split <;> rfl

/-- Reporting an issue does not count as an entry. -/
@[simp] theorem entries_report (b : RuleBook) (x : Issue) : (b.report x).entries = b.entries := by
  unfold report
  split <;> rfl

/-- Reporting an issue adds it to what is reported. -/
theorem mem_issues_report {x y : Issue} : x ∈ (b.report y).issues ↔ x ∈ b.issues ∨ x = y := by
  unfold report
  split
  · rename_i h
    exact ⟨Or.inl, fun hx => hx.elim id fun heq => heq ▸ h⟩
  · simp

/-- The indexes of a book hang on its rules alone. -/
theorem index_congr {b b' : RuleBook} (h : b.rules = b'.rules) (i : Nat) (d : Direction) :
    b.index i d = b'.index i d := by
  unfold index
  rw [h]

/-- The slots of a book hang on its rules alone. -/
theorem slot_congr {b b' : RuleBook} (h : b.rules = b'.rules) (i : Nat) (d : Direction)
    (q : Position) : b.slot i d q = b'.slot i d q := by
  unfold slot
  rw [index_congr h]

/-- The shape of a book hangs on its rules alone. -/
theorem shaped_congr {b b' : RuleBook} (h : b.rules = b'.rules) (hb : b.Shaped tt) :
    b'.Shaped tt := by
  intro i d
  rw [← index_congr h, hb]

/-- Two books of the same shape have the same index where they have the same slots. -/
theorem Shaped.index_eq {b' : RuleBook} (hb : b.Shaped tt) (hb' : b'.Shaped tt) {i : Nat}
    {d : Direction} (h : ∀ q, b.slot i d q = b'.slot i d q) : b.index i d = b'.index i d :=
  RuleIndex.eq_of_slots ((hb i d).trans (hb' i d).symm) h

/-- The issue that a placement leads to when its key is held under another id. -/
def conflictOf (p : Placement) (pattern : Pattern) (kept : TransferId) : Issue :=
  .conflict p.entry.transfer kept pattern.id p.position p.direction

/-- At a position of a pattern, a placement registers its entry there and reports the conflict if
there is one. -/
theorem place_of_lt (hb : b.Shaped tt) {p : Placement} (hp : p.position < tt.stopCount p.pattern) :
    ∃ pattern rules, tt.patterns[p.pattern]? = some pattern ∧ b.rules[p.pattern]? = some rules ∧
      (place tt b p).rules =
        b.rules.set p.pattern (rules.add p.direction p.position p.entry).1 ∧
      ∀ x, x ∈ (place tt b p).issues ↔ x ∈ b.issues ∨
        ∃ kept, (rules.add p.direction p.position p.entry).2 = .conflict kept ∧
          x = conflictOf p pattern kept := by
  have hcount := hb p.pattern p.direction
  unfold index at hcount
  unfold Timetable.stopCount at hp hcount
  rcases hpattern : tt.patterns[p.pattern]? with _ | pattern
  · rw [hpattern] at hp
    simp at hp
  · rcases hrules : b.rules[p.pattern]? with _ | rules
    · simp only [hpattern, hrules, RuleIndex.stopCount_empty] at hp hcount
      exact absurd (hcount ▸ hp) (Nat.not_lt_zero _)
    · refine ⟨pattern, rules, rfl, rfl, ?_⟩
      unfold place
      rw [hpattern, hrules]
      rcases hadd : rules.add p.direction p.position p.entry with ⟨rules', outcome⟩
      simp only [hadd]
      cases outcome with
      | conflict kept =>
        refine ⟨rules_report _ _, fun x => ?_⟩
        simp only [mem_issues_report, Registration.conflict.injEq, exists_eq_left', conflictOf]
      | added => exact ⟨rfl, by simp⟩
      | duplicate => exact ⟨rfl, by simp⟩
      | outOfRange => exact ⟨rfl, by simp⟩

/-- A placement changes the index of its own pattern and direction, by registering its entry, and no
other. -/
theorem index_place (hb : b.Shaped tt) {p : Placement} (hp : p.position < tt.stopCount p.pattern)
    (i : Nat) (d : Direction) :
    (place tt b p).index i d =
      if p.pattern = i ∧ p.direction = d then ((b.index i d).add p.position p.entry).1
      else b.index i d := by
  obtain ⟨pattern, rules, -, hrules, hset, -⟩ := place_of_lt hb hp
  obtain ⟨hlt, hget⟩ := List.getElem?_eq_some_iff.1 hrules
  unfold index
  rw [hset]
  by_cases hi : p.pattern = i
  · subst hi
    rw [List.getElem?_set_self hlt, hrules]
    simp only [PatternRules.index_add, true_and]
  · rw [List.getElem?_set_ne hi, if_neg fun h => hi h.1]

/-- A placement keeps the shape of a book. -/
theorem shaped_place (hb : b.Shaped tt) {p : Placement}
    (hp : p.position < tt.stopCount p.pattern) : (place tt b p).Shaped tt := by
  intro i d
  rw [index_place hb hp]
  split
  · rw [RuleIndex.stopCount_add, hb]
  · exact hb i d

/-- **What a placement does to the slots**: it registers its entry in the slot it is meant for, and
leaves all others as they are. -/
theorem slot_place (hb : b.Shaped tt) {p : Placement} (hp : p.position < tt.stopCount p.pattern)
    (i : Nat) (d : Direction) (q : Position) :
    (place tt b p).slot i d q =
      if p.IsFor i d q then ((b.slot i d q).register p.entry).1 else b.slot i d q := by
  unfold slot
  rw [index_place hb hp]
  by_cases hid : p.pattern = i ∧ p.direction = d
  · obtain ⟨rfl, rfl⟩ := hid
    rw [if_pos ⟨rfl, rfl⟩]
    by_cases hq : p.position = q
    · subst hq
      rw [if_pos ⟨rfl, rfl, rfl⟩, RuleIndex.slot_add_self (by rw [hb]; exact hp)]
    · rw [if_neg fun h => hq h.2.2, RuleIndex.slot_add_of_ne _ hq]
  · rw [if_neg hid, if_neg fun h => hid ⟨h.1, h.2.1⟩]

/-- What comes of registering the entry of a placement is what comes of it in the slot that it is meant
for. -/
theorem outcome_eq_register (hb : b.Shaped tt) {p : Placement}
    (hp : p.position < tt.stopCount p.pattern) {rules : PatternRules}
    (hrules : b.rules[p.pattern]? = some rules) :
    (rules.add p.direction p.position p.entry).2 =
      ((b.slot p.pattern p.direction p.position).register p.entry).2 := by
  have hindex : b.index p.pattern p.direction = rules.index p.direction := by
    unfold index
    rw [hrules]
  unfold slot
  rw [PatternRules.outcome_add, hindex, RuleIndex.add_of_lt (by rw [← hindex, hb]; exact hp)]

/-- **What a placement does to the issues**: it reports a conflict when its key is held under another
id, and nothing otherwise. -/
theorem mem_issues_place (hb : b.Shaped tt) {p : Placement}
    (hp : p.position < tt.stopCount p.pattern) {x : Issue} :
    x ∈ (place tt b p).issues ↔ x ∈ b.issues ∨
      ∃ pattern kept, tt.patterns[p.pattern]? = some pattern ∧
        (b.slot p.pattern p.direction p.position).holder? p.entry.key = some kept ∧
        kept.transfer ≠ p.entry.transfer ∧ x = conflictOf p pattern kept.transfer := by
  obtain ⟨pattern, rules, hpattern, hrules, -, hissues⟩ := place_of_lt hb hp
  rw [hissues, outcome_eq_register hb hp hrules, hpattern]
  rcases hk : (b.slot p.pattern p.direction p.position).holder? p.entry.key with _ | kept
  · rw [Slot.register_of_free hk]
    simp
  · rw [Slot.register_of_held hk]
    by_cases hid : kept.transfer = p.entry.transfer <;> simp [hid]

/-! ## A run of placements -/

/-- A run of placements keeps the shape of a book. -/
theorem shaped_foldl_place (hb : b.Shaped tt) {ps : List Placement}
    (hps : ∀ p ∈ ps, p.position < tt.stopCount p.pattern) :
    (ps.foldl (place tt) b).Shaped tt := by
  induction ps generalizing b with
  | nil => exact hb
  | cons p ps ih =>
    exact ih (shaped_place hb (hps p (by simp))) fun p' hp' => hps p' (by simp [hp'])

/-- Seen from a slot, a run of placements registers the entries that are meant for it. -/
theorem slot_foldl_place (hb : b.Shaped tt) {ps : List Placement}
    (hps : ∀ p ∈ ps, p.position < tt.stopCount p.pattern) (i : Nat) (d : Direction)
    (q : Position) :
    (ps.foldl (place tt) b).slot i d q =
      (b.slot i d q).registerAll (Placement.entriesFor ps i d q) := by
  induction ps generalizing b with
  | nil => rfl
  | cons p ps ih =>
    have hp := hps p (by simp)
    rw [List.foldl_cons, ih (shaped_place hb hp) fun p' hp' => hps p' (by simp [hp']),
      slot_place hb hp]
    by_cases hfor : p.IsFor i d q
    · rw [if_pos hfor, Placement.entriesFor_cons_of_isFor hfor]
      rfl
    · rw [if_neg hfor, Placement.entriesFor_cons_of_not_isFor hfor]

/-- A run of placements reports a conflict for each of them whose key is held under another id when
the run is over: the holder of a key never changes, and a placement is no conflict to itself. -/
theorem mem_issues_foldl_place (hb : b.Shaped tt) {ps : List Placement}
    (hps : ∀ p ∈ ps, p.position < tt.stopCount p.pattern) {x : Issue} :
    x ∈ (ps.foldl (place tt) b).issues ↔ x ∈ b.issues ∨
      ∃ p ∈ ps, ∃ pattern kept, tt.patterns[p.pattern]? = some pattern ∧
        ((ps.foldl (place tt) b).slot p.pattern p.direction p.position).holder? p.entry.key =
          some kept ∧
        kept.transfer ≠ p.entry.transfer ∧ x = conflictOf p pattern kept.transfer := by
  induction ps generalizing b with
  | nil => simp
  | cons p ps ih =>
    have hp := hps p (by simp)
    have hps' : ∀ p' ∈ ps, p'.position < tt.stopCount p'.pattern := fun p' hp' =>
      hps p' (by simp [hp'])
    rw [List.foldl_cons, ih (shaped_place hb hp) hps', mem_issues_place hb hp, or_assoc]
    -- the holder of the key of `p` in the end, by who held it before
    have hheld : ((ps.foldl (place tt) (place tt b p)).slot p.pattern p.direction
        p.position).holder? p.entry.key =
          ((b.slot p.pattern p.direction p.position).holder? p.entry.key).or (some p.entry) := by
      rw [slot_foldl_place (shaped_place hb hp) hps', slot_place hb hp, if_pos ⟨rfl, rfl, rfl⟩,
        Slot.holder?_registerAll, Slot.holder?_register, if_pos rfl, Option.or_assoc,
        Option.some_or]
    have hfirst : ∀ pattern,
        (∃ kept, (b.slot p.pattern p.direction p.position).holder? p.entry.key = some kept ∧
          kept.transfer ≠ p.entry.transfer ∧ x = conflictOf p pattern kept.transfer) ↔
        ∃ kept, ((ps.foldl (place tt) (place tt b p)).slot p.pattern p.direction
            p.position).holder? p.entry.key = some kept ∧
          kept.transfer ≠ p.entry.transfer ∧ x = conflictOf p pattern kept.transfer := by
      intro pattern
      rw [hheld]
      rcases (b.slot p.pattern p.direction p.position).holder? p.entry.key with _ | kept
      · simp
      · simp
    refine or_congr Iff.rfl ?_
    simp only [List.mem_cons, exists_eq_or_imp]
    refine or_congr ?_ Iff.rfl
    refine exists_congr fun pattern => ?_
    simp only [exists_and_left, hfirst pattern]

/-! ## A run of records -/

/-- But for counting, a record is a run of its placements, or it has none and is reported. -/
theorem record_eq (tt : Timetable) (b : RuleBook) (t : Transfer) :
    ∃ counted : RuleBook, counted.rules = b.rules ∧ counted.issues = b.issues ∧
      (record tt b t = (tt.placed t).foldl (place tt) counted ∨
        tt.placed t = [] ∧ ∃ side point,
          record tt b t = counted.report (.unresolvable t.id side point)) := by
  unfold record
  rcases tt.placements_eq t with h | ⟨hnone, side, point, h⟩
  · rw [h]
    exact ⟨{ b with records := b.records + 1, indexed := b.indexed + 1 }, rfl, rfl, .inl rfl⟩
  · rw [h]
    exact ⟨{ b with records := b.records + 1 }, rfl, rfl, .inr ⟨hnone, side, point, rfl⟩⟩

/-- A record keeps the shape of a book. -/
theorem shaped_record (hb : b.Shaped tt) (t : Transfer) : (record tt b t).Shaped tt := by
  obtain ⟨counted, hrules, -, h | ⟨-, side, point, h⟩⟩ := record_eq tt b t
  · rw [h]
    exact shaped_foldl_place (shaped_congr hrules.symm hb)
      fun p => Timetable.position_lt_of_mem_placed
  · rw [h]
    exact shaped_congr ((rules_report _ _).trans hrules).symm hb

/-- Seen from a slot, a record registers the entries that it has for it. -/
theorem slot_record (hb : b.Shaped tt) (t : Transfer) (i : Nat) (d : Direction) (q : Position) :
    (record tt b t).slot i d q =
      (b.slot i d q).registerAll (Placement.entriesFor (tt.placed t) i d q) := by
  obtain ⟨counted, hrules, -, h | ⟨hnone, side, point, h⟩⟩ := record_eq tt b t
  · rw [h, slot_foldl_place (shaped_congr hrules.symm hb)
      fun p => Timetable.position_lt_of_mem_placed, slot_congr hrules]
  · rw [h, hnone, slot_congr ((rules_report _ _).trans hrules)]
    rfl

/-- The conflicts that a record leads to are those of its placements. -/
theorem conflict_mem_issues_record (hb : b.Shaped tt) {t : Transfer} {x : Issue}
    (hx : ∀ id side point, x ≠ .unresolvable id side point) :
    x ∈ (record tt b t).issues ↔ x ∈ b.issues ∨
      ∃ p ∈ tt.placed t, ∃ pattern kept, tt.patterns[p.pattern]? = some pattern ∧
        ((record tt b t).slot p.pattern p.direction p.position).holder? p.entry.key = some kept ∧
        kept.transfer ≠ p.entry.transfer ∧ x = conflictOf p pattern kept.transfer := by
  obtain ⟨counted, hrules, hissues, h | ⟨hnone, side, point, h⟩⟩ := record_eq tt b t
  · rw [h, ← hissues]
    exact mem_issues_foldl_place (shaped_congr hrules.symm hb)
      fun p => Timetable.position_lt_of_mem_placed
  · rw [h, hnone, mem_issues_report, hissues]
    simp [hx]

/-- A run of records keeps the shape of a book. -/
theorem shaped_foldl_record (hb : b.Shaped tt) (ts : List Transfer) :
    (ts.foldl (record tt) b).Shaped tt := by
  induction ts generalizing b with
  | nil => exact hb
  | cons t ts ih => exact ih (shaped_record hb t)

/-- Seen from a slot, a run of records registers the entries that they have for it. -/
theorem slot_foldl_record (hb : b.Shaped tt) (ts : List Transfer) (i : Nat) (d : Direction)
    (q : Position) :
    (ts.foldl (record tt) b).slot i d q =
      (b.slot i d q).registerAll (Placement.entriesFor (tt.placedAll ts) i d q) := by
  induction ts generalizing b with
  | nil => rfl
  | cons t ts ih =>
    rw [List.foldl_cons, ih (shaped_record hb t), slot_record hb, Timetable.placedAll_cons,
      Placement.entriesFor_append]
    unfold Slot.registerAll
    rw [List.foldl_append]

/-- The conflicts that a run of records leads to are those of their placements, with whoever holds
the key when the run is over. -/
theorem conflict_mem_issues_foldl_record (hb : b.Shaped tt) {ts : List Transfer} {x : Issue}
    (hx : ∀ id side point, x ≠ .unresolvable id side point) :
    x ∈ (ts.foldl (record tt) b).issues ↔ x ∈ b.issues ∨
      ∃ p ∈ tt.placedAll ts, ∃ pattern kept, tt.patterns[p.pattern]? = some pattern ∧
        ((ts.foldl (record tt) b).slot p.pattern p.direction p.position).holder? p.entry.key =
          some kept ∧
        kept.transfer ≠ p.entry.transfer ∧ x = conflictOf p pattern kept.transfer := by
  induction ts generalizing b with
  | nil => simp [Timetable.placedAll]
  | cons t ts ih =>
    have hb' := shaped_record hb t
    -- a key that a placement of `t` meets is held from then on, by the same entry
    have hheld : ∀ p ∈ tt.placed t,
        ((ts.foldl (record tt) (record tt b t)).slot p.pattern p.direction p.position).holder?
            p.entry.key =
          ((record tt b t).slot p.pattern p.direction p.position).holder? p.entry.key := by
      intro p hp
      rw [slot_foldl_record hb', Slot.holder?_registerAll]
      have hmem : p.entry ∈ Placement.entriesFor (tt.placed t) p.pattern p.direction p.position :=
        Placement.mem_entriesFor_iff.2 ⟨p, hp, ⟨rfl, rfl, rfl⟩, rfl⟩
      have hsome : (((record tt b t).slot p.pattern p.direction p.position).holder?
          p.entry.key).isSome := by
        rw [slot_record hb, Slot.holder?_registerAll, Option.isSome_or, Bool.or_eq_true]
        exact .inr (List.find?_isSome.2 ⟨p.entry, hmem, by simp⟩)
      obtain ⟨e, he⟩ := Option.isSome_iff_exists.1 hsome
      rw [he, Option.some_or]
    rw [List.foldl_cons, ih hb', conflict_mem_issues_record hb hx, or_assoc]
    refine or_congr Iff.rfl ?_
    simp only [Timetable.placedAll_cons, List.mem_append, or_and_right, exists_or]
    refine or_congr (exists_congr fun p => and_congr_right fun hp => ?_) Iff.rfl
    rw [hheld p hp]

end RuleBook

/-! ## The rule book -/

namespace Timetable

variable {tt : Timetable} {ts : List Transfer}

/-- **A slot of the rule book** is what comes of registering the entries that are meant for it, in
record order. -/
theorem slot_ruleBook (tt : Timetable) (ts : List Transfer) (i : Nat) (d : Direction)
    (q : Position) :
    (tt.ruleBook ts).slot i d q =
      Slot.registerAll [] (Placement.entriesFor (tt.placedAll ts) i d q) := by
  unfold ruleBook
  rw [RuleBook.slot_foldl_record (RuleBook.shaped_empty tt), RuleBook.slot_empty]

/-- The rule book has a slot for each position of each pattern, in both directions. -/
theorem shaped_ruleBook (tt : Timetable) (ts : List Transfer) : (tt.ruleBook ts).Shaped tt := by
  unfold ruleBook
  exact RuleBook.shaped_foldl_record (RuleBook.shaped_empty tt) ts

/-- Records at the end are read into the book of those in front. -/
theorem ruleBook_append (tt : Timetable) (ts us : List Transfer) :
    tt.ruleBook (ts ++ us) = us.foldl (RuleBook.record tt) (tt.ruleBook ts) :=
  List.foldl_append

/-- Rows of records that have the same entries for each slot lead to the same index. -/
theorem index_ruleBook_congr {us : List Transfer} {i : Nat} {d : Direction}
    (h : ∀ q, Placement.entriesFor (tt.placedAll ts) i d q =
      Placement.entriesFor (tt.placedAll us) i d q) :
    (tt.ruleBook ts).index i d = (tt.ruleBook us).index i d := by
  refine (tt.shaped_ruleBook ts).index_eq (tt.shaped_ruleBook us) fun q => ?_
  rw [slot_ruleBook, slot_ruleBook, h q]

/-- The slots of the rule book are well-formed. -/
theorem wellFormed_slot_ruleBook (tt : Timetable) (ts : List Transfer) (i : Nat) (d : Direction)
    (q : Position) : ((tt.ruleBook ts).slot i d q).WellFormed := by
  rw [slot_ruleBook]
  exact Slot.wellFormed_registerAll Slot.wellFormed_nil _

/-- A key of a slot is held by the first entry that is meant for the slot and has it. -/
theorem holder?_slot_ruleBook (tt : Timetable) (ts : List Transfer) (i : Nat) (d : Direction)
    (q : Position) (k : Key) :
    ((tt.ruleBook ts).slot i d q).holder? k =
      (Placement.entriesFor (tt.placedAll ts) i d q).find? fun e => e.key = k := by
  rw [slot_ruleBook, Slot.holder?_registerAll]
  exact Option.none_or

/-- A conflict is reported for each placement whose key is held under another id, and for no
other. -/
theorem conflict_mem_issues_iff {x : Issue}
    (hx : ∀ id side point, x ≠ .unresolvable id side point) :
    x ∈ (tt.ruleBook ts).issues ↔
      ∃ p ∈ tt.placedAll ts, ∃ pattern kept, tt.patterns[p.pattern]? = some pattern ∧
        ((tt.ruleBook ts).slot p.pattern p.direction p.position).holder? p.entry.key = some kept ∧
        kept.transfer ≠ p.entry.transfer ∧ x = RuleBook.conflictOf p pattern kept.transfer := by
  unfold ruleBook
  rw [RuleBook.conflict_mem_issues_foldl_record (RuleBook.shaped_empty tt) hx]
  simp [RuleBook.empty]

/-- Rows of records that have the same placements lead to the same conflicts. -/
theorem conflict_mem_issues_congr {us : List Transfer} (h : tt.placedAll ts = tt.placedAll us)
    {id kept : TransferId} {pattern : PatternId} {q : Position} {d : Direction} :
    Issue.conflict id kept pattern q d ∈ (tt.ruleBook ts).issues ↔
      Issue.conflict id kept pattern q d ∈ (tt.ruleBook us).issues := by
  rw [conflict_mem_issues_iff (by simp), conflict_mem_issues_iff (by simp)]
  simp only [slot_ruleBook, h]

end Timetable

end Interchange
