import Interchange.Proofs.RuleBook.Contents

/-!
# Which issues are reported

Conflicts are reported where placements meet (`Timetable.conflict_mem_issues_iff_claims`). The other
issue is a record with a point that covers nothing.

* `Timetable.Unresolvable` — the side of a record that is to blame when it has no placement: its origin
  if that covers nothing, otherwise its destination.
* `unresolvable_mem_issues_iff` — just those are reported; `nodup_issues_ruleBook` — no issue is
  reported twice.
-/

namespace Interchange

/-- The point of a record on one of its sides. -/
def Transfer.point (t : Transfer) : Side → Point
  | .origin => t.origin
  | .destination => t.destination

namespace Timetable

variable {tt : Timetable} {ts : List Transfer}

/-! ## Records that cannot be resolved -/

/-- A point covers nothing. -/
def CoversNothing (tt : Timetable) (point : Point) : Prop := ∀ i q stop, ¬ tt.Covers point i q stop

/-- The side to blame for a record that has no placement: the origin when it covers nothing, and the
destination when only that covers nothing. -/
def Unresolvable (tt : Timetable) (t : Transfer) : Side → Prop
  | .origin => tt.CoversNothing t.origin
  | .destination => ¬ tt.CoversNothing t.origin ∧ tt.CoversNothing t.destination

/-- A point has no location when it covers nothing. -/
theorem locations_eq_nil_iff {point : Point} : tt.locations point = [] ↔ tt.CoversNothing point := by
  rw [List.eq_nil_iff_forall_not_mem]
  constructor
  · intro h i q stop hcovers
    exact h ⟨i, q, stop, point.matcher⟩ (mem_locations_iff.2 ⟨hcovers, rfl⟩)
  · intro h l hl
    exact h _ _ _ (mem_locations_iff.1 hl).1

/-- A record is refused for the side to blame. -/
theorem placements_eq_error_iff {t : Transfer} {x : Issue} :
    tt.placements t = .error x ↔
      ∃ side, tt.Unresolvable t side ∧ x = .unresolvable t.id side (t.point side) := by
  have hside : (∃ side, tt.Unresolvable t side ∧ x = .unresolvable t.id side (t.point side)) ↔
      (tt.locations t.origin = [] ∧ x = .unresolvable t.id .origin t.origin) ∨
        (tt.locations t.origin ≠ [] ∧ tt.locations t.destination = []) ∧
          x = .unresolvable t.id .destination t.destination := by
    rw [ne_eq, locations_eq_nil_iff, locations_eq_nil_iff]
    constructor
    · rintro ⟨side | side, h, hx⟩
      · exact .inl ⟨h, hx⟩
      · exact .inr ⟨h, hx⟩
    · rintro (⟨h, hx⟩ | ⟨h, hx⟩)
      · exact ⟨.origin, h, hx⟩
      · exact ⟨.destination, h, hx⟩
  rw [hside]
  unfold placements
  rcases tt.locations t.origin with _ | ⟨o, os⟩
  · rw [Except.error.injEq]
    constructor
    · intro h
      exact .inl ⟨rfl, h.symm⟩
    · rintro (⟨-, h⟩ | ⟨⟨h, -⟩, -⟩)
      · exact h.symm
      · exact absurd rfl h
  · rcases tt.locations t.destination with _ | ⟨g, gs⟩
    · rw [Except.error.injEq]
      constructor
      · intro h
        exact .inr ⟨⟨List.cons_ne_nil o os, rfl⟩, h.symm⟩
      · rintro (⟨h, -⟩ | ⟨-, h⟩)
        · cases h
        · exact h.symm
    · constructor
      · intro h
        cases h
      · rintro (⟨h, -⟩ | ⟨⟨-, h⟩, -⟩) <;> cases h

end Timetable

namespace RuleBook

variable {tt : Timetable} {b : RuleBook}

/-! ## What one step reports -/

/-- A placement reports a conflict or nothing. -/
theorem issues_place (tt : Timetable) (b : RuleBook) (p : Placement) :
    (place tt b p).issues = b.issues ∨
      ∃ pattern kept, (place tt b p).issues = (b.report (conflictOf p pattern kept)).issues := by
  unfold place
  split
  · rename_i pattern rules _ _
    rcases rules.add p.direction p.position p.entry with ⟨rules', outcome⟩
    cases outcome with
    | conflict kept =>
      refine .inr ⟨pattern, kept, ?_⟩
      unfold report conflictOf
      dsimp only
      split <;> rfl
    | added => exact .inl rfl
    | duplicate => exact .inl rfl
    | outOfRange => exact .inl rfl
  · exact .inl rfl

/-- What is reported is not reported again. -/
theorem nodup_issues_report (h : b.issues.Nodup) (x : Issue) : (b.report x).issues.Nodup := by
  unfold report
  split
  · exact h
  · rename_i hx
    rw [List.nodup_append]
    refine ⟨h, by simp, ?_⟩
    rintro a ha b hb rfl
    rw [List.mem_singleton.1 hb] at ha
    exact hx ha

/-- A run of placements reports nothing twice. -/
theorem nodup_issues_foldl_place (h : b.issues.Nodup) (ps : List Placement) :
    (ps.foldl (place tt) b).issues.Nodup := by
  induction ps generalizing b with
  | nil => exact h
  | cons p ps ih =>
    refine ih ?_
    rcases issues_place tt b p with hsame | ⟨pattern, kept, hreport⟩
    · rw [hsame]
      exact h
    · rw [hreport]
      exact nodup_issues_report h _

/-- A run of placements reports no side of a record. -/
theorem unresolvable_mem_issues_foldl_place {id : TransferId} {side : Side} {point : Point}
    (ps : List Placement) :
    Issue.unresolvable id side point ∈ (ps.foldl (place tt) b).issues ↔
      Issue.unresolvable id side point ∈ b.issues := by
  induction ps generalizing b with
  | nil => exact Iff.rfl
  | cons p ps ih =>
    rw [List.foldl_cons, ih]
    rcases issues_place tt b p with hsame | ⟨pattern, kept, hreport⟩
    · rw [hsame]
    · rw [hreport, mem_issues_report]
      exact or_iff_left fun h => by cases h

/-- A record reports nothing twice. -/
theorem nodup_issues_record (h : b.issues.Nodup) (t : Transfer) : (record tt b t).issues.Nodup := by
  obtain ⟨counted, -, hissues, hrecord | ⟨-, side, point, hrecord⟩⟩ := record_eq tt b t
  · rw [hrecord]
    exact nodup_issues_foldl_place (hissues ▸ h) _
  · rw [hrecord]
    exact nodup_issues_report (hissues ▸ h) _

/-- A record reports the side to blame if it has no placement. -/
theorem unresolvable_mem_issues_record {id : TransferId} {side : Side} {point : Point}
    {t : Transfer} :
    Issue.unresolvable id side point ∈ (record tt b t).issues ↔
      Issue.unresolvable id side point ∈ b.issues ∨
        tt.placements t = .error (.unresolvable id side point) := by
  unfold record
  dsimp only
  split
  · rename_i issue hplacements
    rw [mem_issues_report, hplacements, Except.error.injEq]
    exact or_congr Iff.rfl eq_comm
  · rename_i placements hplacements
    rw [unresolvable_mem_issues_foldl_place, hplacements]
    exact (or_iff_left fun h => by cases h).symm

end RuleBook

namespace Timetable

variable {tt : Timetable} {ts : List Transfer}

/-! ## What is reported -/

/-- **No issue is reported twice.** -/
theorem nodup_issues_ruleBook (tt : Timetable) (ts : List Transfer) :
    (tt.ruleBook ts).issues.Nodup := by
  have hfold : ∀ b : RuleBook, b.issues.Nodup →
      (ts.foldl (RuleBook.record tt) b).issues.Nodup := by
    induction ts with
    | nil => exact fun b h => h
    | cons t ts ih => exact fun b h => ih _ (RuleBook.nodup_issues_record h t)
  exact hfold _ List.nodup_nil

/-- **Which records are reported as covering nothing**: those with a side to blame. -/
theorem unresolvable_mem_issues_iff {id : TransferId} {side : Side} {point : Point} :
    Issue.unresolvable id side point ∈ (tt.ruleBook ts).issues ↔
      ∃ t ∈ ts, t.id = id ∧ t.point side = point ∧ tt.Unresolvable t side := by
  have hfold : ∀ b : RuleBook,
      Issue.unresolvable id side point ∈ (ts.foldl (RuleBook.record tt) b).issues ↔
        Issue.unresolvable id side point ∈ b.issues ∨
          ∃ t ∈ ts, tt.placements t = .error (.unresolvable id side point) := by
    induction ts with
    | nil => simp
    | cons t ts ih =>
      intro b
      rw [List.foldl_cons, ih, RuleBook.unresolvable_mem_issues_record, or_assoc]
      simp only [List.mem_cons, exists_eq_or_imp]
  unfold ruleBook
  rw [hfold]
  have hempty : Issue.unresolvable id side point ∉ (RuleBook.empty tt).issues := List.not_mem_nil
  rw [or_iff_right hempty]
  refine exists_congr fun t => and_congr_right fun _ => ?_
  rw [placements_eq_error_iff]
  constructor
  · rintro ⟨side', h, hx⟩
    cases hx
    exact ⟨rfl, rfl, h⟩
  · rintro ⟨rfl, rfl, h⟩
    exact ⟨side, h, rfl⟩

end Timetable

end Interchange
