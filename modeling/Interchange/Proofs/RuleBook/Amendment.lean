import Interchange.Proofs.RuleBook.Issues
import Mathlib.Data.List.Forall2

/-!
# Records whose constraints are amended

Where a record stands in the rule book and what is reported of it hangs on its points and its id. Its
constraint is carried along, and only a search looks at it. So two rows of records that differ in nothing
but their constraints lead to rule books that differ in nothing else.

* `Transfer.Amended`, `Entry.Amended` — the same record, or the same entry, with another constraint. The
  two constraints are related as one likes.
* `Slot.register_amended` — the step: amended entries are registered at the same places, with the same
  outcome.
* `RuleBook.Amended` — two rule books with the same issues, whose slots match entry by entry.
  `place_amended` is the step, and `Timetable.ruleBook_amended` — amended records lead to such books.
-/

namespace Interchange

variable {R : Constraint → Constraint → Prop}

/-! ## What is amended -/

/-- An entry is another one with an amended constraint. -/
structure Entry.Amended (R : Constraint → Constraint → Prop) (e e' : Entry) : Prop where
  key_eq : e'.key = e.key
  transfer_eq : e'.transfer = e.transfer
  constraint : R e.constraint e'.constraint

/-- An amended entry weighs the same. -/
theorem Entry.Amended.weight_eq {e e' : Entry} (h : e.Amended R e') : e'.weight = e.weight :=
  congrArg Key.weight h.key_eq

/-- A placement is another one with an amended entry. -/
structure Placement.Amended (R : Constraint → Constraint → Prop) (p p' : Placement) : Prop where
  direction_eq : p'.direction = p.direction
  pattern_eq : p'.pattern = p.pattern
  position_eq : p'.position = p.position
  entry : p.entry.Amended R p'.entry

/-- A record is another one with an amended constraint. -/
structure Transfer.Amended (R : Constraint → Constraint → Prop) (t t' : Transfer) : Prop where
  id_eq : t'.id = t.id
  origin_eq : t'.origin = t.origin
  destination_eq : t'.destination = t.destination
  constraint : R t.constraint t'.constraint

/-! ## Slots -/

/-- In two rows that match, what is found first matches, if the tests agree on what matches. -/
theorem rel_find? {α β : Type} {S : α → β → Prop} {p : α → Bool} {q : β → Bool} {as : List α}
    {bs : List β} (hpq : ∀ a b, S a b → p a = q b) (h : List.Forall₂ S as bs) :
    Option.Rel S (as.find? p) (bs.find? q) := by
  induction h with
  | nil => exact .none
  | @cons a b as bs hab _ ih =>
    rw [List.find?_cons, List.find?_cons, hpq a b hab]
    cases q b with
    | true => exact .some hab
    | false => exact ih

namespace Slot

/-- In slots that match, a key is free in both, or held by entries that match. -/
theorem holder?_amended {s s' : Slot} (h : List.Forall₂ (Entry.Amended R) s s') (k : Key) :
    Option.Rel (Entry.Amended R) (s.holder? k) (s'.holder? k) :=
  rel_find? (fun e e' he => by rw [he.key_eq]) h

/-- Entries that match are inserted at the same place. -/
theorem insert_amended {s s' : Slot} (h : List.Forall₂ (Entry.Amended R) s s') {e e' : Entry}
    (he : e.Amended R e') : List.Forall₂ (Entry.Amended R) (s.insert e) (s'.insert e') := by
  unfold insert
  rw [he.weight_eq]
  induction h with
  | nil => exact .cons he .nil
  | @cons x x' s s' hx hs ih =>
    unfold insertBefore
    rw [hx.weight_eq]
    split
    · exact .cons he (.cons hx hs)
    · exact .cons hx ih

/-- **What registering an amended entry does**: slots that match still match, and the outcome is the
same. -/
theorem register_amended {s s' : Slot} (h : List.Forall₂ (Entry.Amended R) s s') {e e' : Entry}
    (he : e.Amended R e') :
    List.Forall₂ (Entry.Amended R) (s.register e).1 (s'.register e').1 ∧
      (s'.register e').2 = (s.register e).2 := by
  have hheld := holder?_amended h e.key
  rw [← he.key_eq] at hheld
  generalize hk : s.holder? e'.key = x at hheld
  generalize hk' : s'.holder? e'.key = x' at hheld
  rw [he.key_eq] at hk
  cases hheld with
  | none =>
    rw [register_of_free hk, register_of_free hk']
    exact ⟨insert_amended h he, rfl⟩
  | some hkept =>
    rw [register_of_held hk, register_of_held hk', hkept.transfer_eq, he.transfer_eq]
    exact ⟨h, rfl⟩

end Slot

/-! ## Records -/

namespace Timetable

variable {tt : Timetable}

/-- An amended record is placed where the record is. -/
theorem placed_amended {t t' : Transfer} (h : t.Amended R t') :
    List.Forall₂ (Placement.Amended R) (tt.placed t) (tt.placed t') := by
  have hsame : ∀ ls : List Location, List.Forall₂ Eq ls ls := fun ls =>
    List.forall₂_same.2 fun _ _ => rfl
  have hentry : ∀ k : Key, (t.entry k).Amended R (t'.entry k) := fun k =>
    ⟨rfl, h.id_eq, h.constraint⟩
  unfold placed
  rw [h.origin_eq, h.destination_eq]
  refine List.rel_flatMap (hsame _) ?_
  rintro o _ rfl
  refine List.rel_flatMap (hsame _) ?_
  rintro g _ rfl
  exact .cons ⟨rfl, rfl, rfl, hentry _⟩ (.cons ⟨rfl, rfl, rfl, hentry _⟩ .nil)

/-- An amended record is refused for the same reason as the record, or neither is. -/
theorem placements_amended {t t' : Transfer} (h : t.Amended R t') :
    (∃ x, tt.placements t = .error x ∧ tt.placements t' = .error x) ∨
      tt.placements t = .ok (tt.placed t) ∧ tt.placements t' = .ok (tt.placed t') := by
  unfold placements placed
  rw [h.origin_eq, h.destination_eq, h.id_eq]
  rcases tt.locations t.origin with _ | ⟨o, os⟩
  · exact .inl ⟨_, rfl, rfl⟩
  · rcases tt.locations t.destination with _ | ⟨g, gs⟩
    · exact .inl ⟨_, rfl, rfl⟩
    · exact .inr ⟨rfl, rfl⟩

end Timetable

/-! ## Rule books -/

namespace RuleBook

variable {tt : Timetable} {b b' : RuleBook}

/-- A rule book is another one with amended constraints: it has the same issues, in the same order, and its
slots match entry by entry. -/
structure Amended (tt : Timetable) (R : Constraint → Constraint → Prop) (b b' : RuleBook) : Prop where
  shaped : b.Shaped tt
  shaped' : b'.Shaped tt
  issues_eq : b'.issues = b.issues
  slots : ∀ i d q, List.Forall₂ (Entry.Amended R) (b.slot i d q) (b'.slot i d q)

/-- What is reported hangs on what was reported before. -/
theorem issues_report_congr (h : b'.issues = b.issues) (x : Issue) :
    (b'.report x).issues = (b.report x).issues := by
  unfold report
  rw [h]
  split
  · exact h
  · rfl

/-- Books that match still match when they report the same. -/
theorem Amended.report (h : b.Amended tt R b') (x : Issue) : (b.report x).Amended tt R (b'.report x) where
  shaped := shaped_congr (rules_report b x).symm h.shaped
  shaped' := shaped_congr (rules_report b' x).symm h.shaped'
  issues_eq := issues_report_congr h.issues_eq x
  slots i d q := by
    rw [slot_congr (rules_report b x), slot_congr (rules_report b' x)]
    exact h.slots i d q

/-- A placement reports a conflict when its key is held under another id, and nothing otherwise: what it
adds to the issues hangs on the outcome of registering its entry in the slot. -/
theorem issues_place_of_lt (hb : b.Shaped tt) {p : Placement} (hp : p.position < tt.stopCount p.pattern) :
    ∃ pattern, tt.patterns[p.pattern]? = some pattern ∧
      (place tt b p).issues =
        match ((b.slot p.pattern p.direction p.position).register p.entry).2 with
        | .conflict kept => (b.report (conflictOf p pattern kept)).issues
        | _ => b.issues := by
  obtain ⟨pattern, rules, hpattern, hrules, -⟩ := place_of_lt hb hp
  refine ⟨pattern, hpattern, ?_⟩
  rw [← outcome_eq_register hb hp hrules]
  unfold place
  rw [hpattern, hrules]
  rcases hadd : rules.add p.direction p.position p.entry with ⟨rules', outcome⟩
  simp only [hadd]
  cases outcome with
  | conflict kept =>
    apply issues_report_congr
    rfl
  | added => rfl
  | duplicate => rfl
  | outOfRange => rfl

/-- **What an amended placement does to books that match**: they still match. -/
theorem Amended.place (h : b.Amended tt R b') {p p' : Placement} (hp : p.Amended R p')
    (hlt : p.position < tt.stopCount p.pattern) :
    (RuleBook.place tt b p).Amended tt R (RuleBook.place tt b' p') := by
  have hlt' : p'.position < tt.stopCount p'.pattern := by rwa [hp.position_eq, hp.pattern_eq]
  have hfor : ∀ i d q, p'.IsFor i d q ↔ p.IsFor i d q := by
    simp [Placement.IsFor, hp.pattern_eq, hp.direction_eq, hp.position_eq]
  refine ⟨shaped_place h.shaped hlt, shaped_place h.shaped' hlt', ?_, fun i d q => ?_⟩
  · obtain ⟨pattern, hpattern, hissues⟩ := issues_place_of_lt h.shaped hlt
    obtain ⟨pattern', hpattern', hissues'⟩ := issues_place_of_lt h.shaped' hlt'
    rw [hp.pattern_eq, hpattern] at hpattern'
    cases hpattern'
    have houtcome := (Slot.register_amended (h.slots p.pattern p.direction p.position) hp.entry).2
    rw [hissues', hissues, hp.pattern_eq, hp.direction_eq, hp.position_eq, houtcome]
    have hconflict : ∀ kept, conflictOf p' pattern kept = conflictOf p pattern kept := by
      simp [conflictOf, hp.entry.transfer_eq, hp.position_eq, hp.direction_eq]
    split
    · rw [hconflict]
      exact issues_report_congr h.issues_eq _
    · exact h.issues_eq
  · rw [slot_place h.shaped hlt, slot_place h.shaped' hlt']
    simp only [hfor]
    split
    · exact (Slot.register_amended (h.slots i d q) hp.entry).1
    · exact h.slots i d q

/-- A run of amended placements does the same. -/
theorem Amended.foldl_place {ps ps' : List Placement} (hps : List.Forall₂ (Placement.Amended R) ps ps')
    (hlt : ∀ p ∈ ps, p.position < tt.stopCount p.pattern) (h : b.Amended tt R b') :
    (ps.foldl (RuleBook.place tt) b).Amended tt R (ps'.foldl (RuleBook.place tt) b') := by
  induction hps generalizing b b' with
  | nil => exact h
  | cons hp _ ih => exact ih (fun p hp => hlt p (by simp [hp])) (h.place hp (hlt _ (by simp)))

/-- **What an amended record does to books that match**: they still match. -/
theorem Amended.record (h : b.Amended tt R b') {t t' : Transfer} (ht : t.Amended R t') :
    (RuleBook.record tt b t).Amended tt R (RuleBook.record tt b' t') := by
  -- the counts have no part in what matches
  have hcounted : ∀ m n m' n', ({ b with records := m, indexed := n } : RuleBook).Amended tt R
      { b' with records := m', indexed := n' } := fun _ _ _ _ =>
    ⟨h.shaped, h.shaped', h.issues_eq, h.slots⟩
  unfold RuleBook.record
  rcases Timetable.placements_amended ht with ⟨x, hx, hx'⟩ | ⟨hplaced, hplaced'⟩
  · rw [hx, hx']
    exact (hcounted _ _ _ _).report x
  · rw [hplaced, hplaced']
    exact (hcounted _ _ _ _).foldl_place (Timetable.placed_amended ht)
      (fun p => Timetable.position_lt_of_mem_placed)

end RuleBook

/-- **Amended records lead to rule books that match**: the same is reported in the same order, and every slot
holds the same entries but for their constraints, which are related as those of the records are. -/
theorem Timetable.ruleBook_amended (tt : Timetable) {ts ts' : List Transfer}
    (h : List.Forall₂ (Transfer.Amended R) ts ts') :
    (tt.ruleBook ts).Amended tt R (tt.ruleBook ts') := by
  have hfold : ∀ b b' : RuleBook, b.Amended tt R b' →
      (ts.foldl (RuleBook.record tt) b).Amended tt R (ts'.foldl (RuleBook.record tt) b') := by
    induction h with
    | nil => exact fun b b' hb => hb
    | cons ht _ ih => exact fun b b' hb => ih _ _ (hb.record ht)
  refine hfold _ _ ⟨RuleBook.shaped_empty tt, RuleBook.shaped_empty tt, rfl, fun i d q => ?_⟩
  rw [RuleBook.slot_empty]
  exact .nil

end Interchange
