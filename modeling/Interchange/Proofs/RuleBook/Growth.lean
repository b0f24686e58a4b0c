import Interchange.Proofs.RuleBook.Issues

/-!
# A rule book that grows

Records are read one after another, and what has been read stands. An entry is put between others, but none is
moved, changed or taken out for it, and what is reported stays reported in the order in which it was found.

* `Slot.sublist_register` — a registration keeps the entries of a slot and their order.
* `RuleBook.GrowsInto` — a book is the beginning of another one. `growsInto_place` and `growsInto_record` are the
  steps, `growsInto_foldl_record` is the run.
* `Timetable.growsInto_ruleBook_append` — more records at the end let the rule book grow.
-/

namespace Interchange

/-- A registration keeps the entries of a slot as they are and in their order. -/
theorem Slot.sublist_register (s : Slot) (e : Entry) : s.Sublist (s.register e).1 := by
  rcases hk : s.holder? e.key with _ | kept
  · rw [register_of_free hk]
    exact sublist_insertBefore _ e s
  · rw [register_of_held hk]

namespace RuleBook

variable {tt : Timetable} {b : RuleBook}

/-! ## Books that grow -/

/-- A book grows into another one. -/
structure GrowsInto (b b' : RuleBook) : Prop where
  /-- Every index keeps its positions. -/
  stopCount_eq : ∀ i d, (b'.index i d).stopCount = (b.index i d).stopCount
  /-- Every slot keeps its entries, unchanged and in their order. -/
  slot_sublist : ∀ i d q, (b.slot i d q).Sublist (b'.slot i d q)
  /-- What was reported stands in front of what is reported later. -/
  issues_prefix : b.issues <+: b'.issues

/-- A book grows into itself. -/
theorem GrowsInto.refl (b : RuleBook) : b.GrowsInto b :=
  ⟨fun _ _ => rfl, fun _ _ _ => List.Sublist.refl _, List.prefix_rfl⟩

/-- What grows in two steps grows. -/
theorem GrowsInto.trans {b' b'' : RuleBook} (h : b.GrowsInto b') (h' : b'.GrowsInto b'') :
    b.GrowsInto b'' where
  stopCount_eq i d := (h'.stopCount_eq i d).trans (h.stopCount_eq i d)
  slot_sublist i d q := (h.slot_sublist i d q).trans (h'.slot_sublist i d q)
  issues_prefix := h.issues_prefix.trans h'.issues_prefix

/-- A book with the same rules grows by what is reported behind. -/
theorem GrowsInto.of_rules_eq {b' : RuleBook} (hrules : b'.rules = b.rules)
    (hissues : b.issues <+: b'.issues) : b.GrowsInto b' where
  stopCount_eq i d := by rw [index_congr hrules]
  slot_sublist i d q := by rw [slot_congr hrules]
  issues_prefix := hissues

/-- An issue is reported behind the others. -/
theorem prefix_issues_report (b : RuleBook) (x : Issue) : b.issues <+: (b.report x).issues := by
  unfold report
  split
  · exact List.prefix_rfl
  · exact List.prefix_append _ _

/-! ## The steps and the run -/

/-- **The step**: a placement at a position of a pattern lets a book grow. -/
theorem growsInto_place (hb : b.Shaped tt) {p : Placement} (hp : p.position < tt.stopCount p.pattern) :
    b.GrowsInto (place tt b p) := by
  refine ⟨fun i d => ?_, fun i d q => ?_, ?_⟩
  · rw [shaped_place hb hp, hb]
  · rw [slot_place hb hp]
    split
    · exact Slot.sublist_register _ _
    · exact List.Sublist.refl _
  · rcases issues_place tt b p with hsame | ⟨pattern, kept, hreport⟩
    · exact hsame ▸ List.prefix_rfl
    · rw [hreport]
      exact prefix_issues_report b _

/-- A run of placements lets a book grow. -/
theorem growsInto_foldl_place (hb : b.Shaped tt) {ps : List Placement}
    (hps : ∀ p ∈ ps, p.position < tt.stopCount p.pattern) : b.GrowsInto (ps.foldl (place tt) b) := by
  induction ps generalizing b with
  | nil => exact .refl b
  | cons p ps ih =>
    have hp := hps p List.mem_cons_self
    exact (growsInto_place hb hp).trans
      (ih (shaped_place hb hp) fun p' hp' => hps p' (List.mem_cons_of_mem p hp'))

/-- A record lets a book grow. -/
theorem growsInto_record (hb : b.Shaped tt) (t : Transfer) : b.GrowsInto (record tt b t) := by
  obtain ⟨counted, hrules, hissues, h | ⟨-, side, point, h⟩⟩ := record_eq tt b t
  · rw [h]
    have hcounted : b.GrowsInto counted := .of_rules_eq hrules (hissues ▸ List.prefix_rfl)
    exact hcounted.trans
      (growsInto_foldl_place (shaped_congr hrules.symm hb) fun p => Timetable.position_lt_of_mem_placed)
  · rw [h]
    exact .of_rules_eq ((rules_report _ _).trans hrules) (hissues ▸ prefix_issues_report counted _)

/-- **The run**: records let a book grow. -/
theorem growsInto_foldl_record (hb : b.Shaped tt) (ts : List Transfer) :
    b.GrowsInto (ts.foldl (record tt) b) := by
  induction ts generalizing b with
  | nil => exact .refl b
  | cons t ts ih => exact (growsInto_record hb t).trans (ih (shaped_record hb t))

end RuleBook

namespace Timetable

/-- **Later records never disturb earlier ones.** With more records at the end, the slots of the rule book keep
their entries and the issues stay in front. -/
theorem growsInto_ruleBook_append (tt : Timetable) (ts us : List Transfer) :
    (tt.ruleBook ts).GrowsInto (tt.ruleBook (ts ++ us)) := by
  rw [ruleBook_append]
  exact RuleBook.growsInto_foldl_record (tt.shaped_ruleBook ts) us

/-- On the line a later record can come to stand in front: a route is narrower than all trips. -/
example :
    (line.ruleBook [change ruleX stopA stopB .guaranteed]).slot 0 .forward 1 =
        [⟨⟨⟨0⟩, .any, .any⟩, .guaranteed, ruleX⟩] ∧
      (line.ruleBook [change ruleX stopA stopB .guaranteed,
          ⟨ruleHeld, .route routeR (.stop stopA), .anywhere (.stop stopB), .regular⟩]).slot 0 .forward 1 =
        [⟨⟨⟨0⟩, .route routeR, .any⟩, .regular, ruleHeld⟩, ⟨⟨⟨0⟩, .any, .any⟩, .guaranteed, ruleX⟩] :=
  ⟨rfl, rfl⟩

end Timetable

end Interchange
