import Interchange.Proofs.RuleBook.Issues

/-!
# Records that are repeated

A record that was read before finds everything settled. Each of its keys is held: where by an entry with its own
id there is nothing to say, and where by another one the conflict has been reported. If it has no placement, that
has been reported. So reading it again tells nothing new, whichever of these happened to it in which slot.

* `RuleBook.place_of_held` — the step: a placement with a held key, of which nothing is left to report, leaves a
  book as it is.
* `RuleBook.Settled` — a book has nothing to learn from a record. `Timetable.settled_ruleBook` — so it is with
  the records of a rule book.
* `RuleBook.SameContents` — two books differ at most in how many records were counted.
  `Timetable.sameContents_ruleBook_append` — so it is when records are repeated behind the others.
-/

namespace Interchange

/-! ## Keys that are held -/

/-- Where a key is held, registering an entry with the key leaves the index as it is. -/
theorem RuleIndex.add_of_held {i : RuleIndex} {p : Position} {e kept : Entry}
    (h : (i.slot p).holder? e.key = some kept) :
    i.add p e = (i, if kept.transfer = e.transfer then .duplicate else .conflict kept.transfer) := by
  unfold slot at h
  unfold add
  rcases hslot : i.slots[p]? with _ | s
  · rw [hslot] at h
    cases h
  · rw [hslot, Option.getD_some] at h
    obtain ⟨hlt, rfl⟩ := List.getElem?_eq_some_iff.1 hslot
    simp only [Slot.register_of_held h, List.set_getElem_self]

/-- The same, for the rules of a pattern. -/
theorem PatternRules.add_of_held {r : PatternRules} {d : Direction} {p : Position} {e kept : Entry}
    (h : ((r.index d).slot p).holder? e.key = some kept) :
    r.add d p e = (r, if kept.transfer = e.transfer then .duplicate else .conflict kept.transfer) := by
  unfold add
  cases d with
  | forward =>
    have hforward : (r.forward.slot p).holder? e.key = some kept := h
    rw [RuleIndex.add_of_held hforward]
  | reverse =>
    have hreverse : (r.reverse.slot p).holder? e.key = some kept := h
    rw [RuleIndex.add_of_held hreverse]

namespace RuleBook

variable {tt : Timetable} {b : RuleBook}

/-- An issue that is reported is not reported again. -/
theorem report_of_mem {x : Issue} (h : x ∈ b.issues) : b.report x = b := if_pos h

/-- **The step**: a placement whose key is held, and whose conflict is reported if it has one, leaves a book as it
is. -/
theorem place_of_held {p : Placement} {kept : Entry}
    (hkept : (b.slot p.pattern p.direction p.position).holder? p.entry.key = some kept)
    (hreported : ∀ pattern, tt.patterns[p.pattern]? = some pattern → kept.transfer ≠ p.entry.transfer →
      conflictOf p pattern kept.transfer ∈ b.issues) : place tt b p = b := by
  unfold place
  split
  · rename_i pattern rules hpattern hrules
    unfold slot index at hkept
    rw [hrules] at hkept
    obtain ⟨hlt, hget⟩ := List.getElem?_eq_some_iff.1 hrules
    have hset : b.rules.set p.pattern rules = b.rules := by rw [← hget, List.set_getElem_self]
    simp only [PatternRules.add_of_held hkept, hset]
    by_cases hid : kept.transfer = p.entry.transfer
    · rw [if_pos hid]
    · rw [if_neg hid]
      exact report_of_mem (hreported pattern hpattern hid)
  · rfl

/-! ## Contents -/

/-- A book has the same contents as another one: they differ at most in how many records were counted. -/
structure SameContents (b b' : RuleBook) : Prop where
  /-- Every slot of every pattern has the same entries in the same order, in both directions. -/
  rules_eq : b'.rules = b.rules
  /-- The same is reported, in the same order. -/
  issues_eq : b'.issues = b.issues
  /-- As many entries were added. -/
  entries_eq : b'.entries = b.entries

/-- What has the same contents in two steps has the same contents. -/
theorem SameContents.trans {b' b'' : RuleBook} (h : b.SameContents b') (h' : b'.SameContents b'') :
    b.SameContents b'' :=
  ⟨h'.rules_eq.trans h.rules_eq, h'.issues_eq.trans h.issues_eq, h'.entries_eq.trans h.entries_eq⟩

/-! ## Settled records -/

/-- A book has nothing to learn from a record. -/
structure Settled (tt : Timetable) (b : RuleBook) (t : Transfer) : Prop where
  /-- Every key of the record is held, by an entry with its id or by one with which a conflict is reported. -/
  held : ∀ p ∈ tt.placed t, ∃ kept,
    (b.slot p.pattern p.direction p.position).holder? p.entry.key = some kept ∧
      ∀ pattern, tt.patterns[p.pattern]? = some pattern → kept.transfer ≠ p.entry.transfer →
        conflictOf p pattern kept.transfer ∈ b.issues
  /-- What keeps the record from being placed is reported. -/
  reported : ∀ x, tt.placements t = .error x → x ∈ b.issues

/-- What is settled hangs on the contents of a book. -/
theorem Settled.congr {b' : RuleBook} {t : Transfer} (h : Settled tt b t) (hsame : b.SameContents b') :
    Settled tt b' t := by
  refine ⟨fun p hp => ?_, fun x hx => ?_⟩
  · rw [slot_congr hsame.rules_eq, hsame.issues_eq]
    exact h.held p hp
  · rw [hsame.issues_eq]
    exact h.reported x hx

/-- Placements of which each leaves a book as it is leave it so one after another. -/
theorem foldl_place_of_forall {ps : List Placement} (h : ∀ p ∈ ps, place tt b p = b) :
    ps.foldl (place tt) b = b := by
  induction ps with
  | nil => rfl
  | cons p ps ih =>
    rw [List.foldl_cons, h p List.mem_cons_self]
    exact ih fun p' hp' => h p' (List.mem_cons_of_mem p hp')

/-- The placements of a settled record leave a book as it is. -/
theorem Settled.foldl_place {t : Transfer} (h : Settled tt b t) : (tt.placed t).foldl (place tt) b = b := by
  refine foldl_place_of_forall fun p hp => ?_
  obtain ⟨kept, hkept, hreported⟩ := h.held p hp
  exact place_of_held hkept hreported

/-- A settled record is counted, and that is all. -/
theorem Settled.record {t : Transfer} (h : Settled tt b t) : b.SameContents (record tt b t) := by
  unfold RuleBook.record
  rcases tt.placements_eq t with hok | ⟨-, side, point, herror⟩
  · have hcounted : Settled tt { b with records := b.records + 1, indexed := b.indexed + 1 } t :=
      h.congr ⟨rfl, rfl, rfl⟩
    rw [hok]
    simp only [hcounted.foldl_place]
    exact ⟨rfl, rfl, rfl⟩
  · have hreported : ({ b with records := b.records + 1 } : RuleBook).report (.unresolvable t.id side point) =
        { b with records := b.records + 1 } := report_of_mem (h.reported _ herror)
    rw [herror]
    simp only [hreported]
    exact ⟨rfl, rfl, rfl⟩

/-- **The run**: settled records are counted, and that is all. -/
theorem sameContents_foldl_record {ts : List Transfer} (h : ∀ t ∈ ts, Settled tt b t) :
    b.SameContents (ts.foldl (RuleBook.record tt) b) := by
  induction ts generalizing b with
  | nil => exact ⟨rfl, rfl, rfl⟩
  | cons t ts ih =>
    have hstep := (h t List.mem_cons_self).record
    exact hstep.trans (ih fun u hu => (h u (List.mem_cons_of_mem t hu)).congr hstep)

end RuleBook

namespace Timetable

variable {tt : Timetable} {ts us : List Transfer}

/-- **A record that was read is settled.** -/
theorem settled_ruleBook {t : Transfer} (ht : t ∈ ts) : RuleBook.Settled tt (tt.ruleBook ts) t := by
  refine ⟨fun p hp => ?_, fun x hx => ?_⟩
  · obtain ⟨kept, hkept⟩ := exists_holder?_slot_ruleBook ht hp
    refine ⟨kept, hkept, fun pattern hpattern hne => ?_⟩
    exact (conflict_mem_issues_iff (by simp [RuleBook.conflictOf])).2
      ⟨p, List.mem_flatMap.2 ⟨t, ht, hp⟩, pattern, kept, hpattern, hkept, hne, rfl⟩
  · obtain ⟨side, hside, rfl⟩ := placements_eq_error_iff.1 hx
    exact unresolvable_mem_issues_iff.2 ⟨t, ht, rfl, rfl, hside⟩

/-- **Repeating records is harmless.** Records that occur already, behind the others in any order and however
often, leave the contents of the rule book as they are. -/
theorem sameContents_ruleBook_append (tt : Timetable) (h : us ⊆ ts) :
    (tt.ruleBook ts).SameContents (tt.ruleBook (ts ++ us)) := by
  rw [ruleBook_append]
  exact RuleBook.sameContents_foldl_record fun t ht => settled_ruleBook (h ht)

/-- Records of which the first is placed, the second comes too late, the third has an unknown destination, and the
last has the id and the key of the first but another constraint. -/
def mixedRecords : List Transfer :=
  [change ruleX stopA stopB .guaranteed, change ruleHeld stopA stopB .notAllowed,
    change ruleX stopA ⟨"Z", by decide⟩ .regular, change ruleX stopA stopB .notAllowed]

/-- The same in another order, one of them twice. -/
def repeatedRecords : List Transfer :=
  [change ruleX stopA stopB .notAllowed, change ruleX stopA ⟨"Z", by decide⟩ .regular,
    change ruleHeld stopA stopB .notAllowed, change ruleX stopA stopB .guaranteed,
    change ruleHeld stopA stopB .notAllowed]

/-- On the line each of the records meets its own fate, and none of them another one when it is repeated. -/
theorem sameContents_ruleBook_append_line :
    repeatedRecords ⊆ mixedRecords ∧
    (line.ruleBook mixedRecords).SameContents (line.ruleBook (mixedRecords ++ repeatedRecords)) ∧
    (line.ruleBook mixedRecords).slot 0 .forward 1 = [⟨⟨⟨0⟩, .any, .any⟩, .guaranteed, ruleX⟩] ∧
    (line.ruleBook mixedRecords).issues =
      [.conflict ruleHeld ruleX patternP 1 .forward, .conflict ruleHeld ruleX patternP 0 .reverse,
        .unresolvable ruleX .destination (.anywhere (.stop ⟨"Z", by decide⟩))] := by
  have hsubset : repeatedRecords ⊆ mixedRecords := by decide
  exact ⟨hsubset, sameContents_ruleBook_append line hsubset, rfl, rfl⟩

end Timetable

end Interchange
