import Interchange.Proofs.RuleBook.Issues

/-!
# What the issues tell

* `Timetable.Idle` — a record has no part in the rules: it adds no entry and no conflict to any book,
  and it can be left out of any row of records. `idle_of_placed_eq_nil` — so it is with a record that has
  no placement.
* `Timetable.Diagnoses` — a row of issues says just what is wrong with a row of records, once, and the
  records that it drops are idle. `diagnoses_ruleBook` — the issues of the rule book do.
-/

namespace Interchange

namespace Timetable

variable {tt : Timetable} {ts : List Transfer}

/-! ## Records without a part in the rules -/

/-- A record has no part in the rules: it adds no entry and no conflict to any book, and wherever it
stands among other records it can be left out. -/
structure Idle (tt : Timetable) (t : Transfer) : Prop where
  rules_eq : ∀ b, (RuleBook.record tt b t).rules = b.rules
  entries_eq : ∀ b, (RuleBook.record tt b t).entries = b.entries
  conflict_iff : ∀ b id kept pattern q d,
    Issue.conflict id kept pattern q d ∈ (RuleBook.record tt b t).issues ↔
      Issue.conflict id kept pattern q d ∈ b.issues
  index_eq : ∀ front back i d,
    (tt.ruleBook (front ++ t :: back)).index i d = (tt.ruleBook (front ++ back)).index i d
  conflict_ruleBook_iff : ∀ front back id kept pattern q d,
    Issue.conflict id kept pattern q d ∈ (tt.ruleBook (front ++ t :: back)).issues ↔
      Issue.conflict id kept pattern q d ∈ (tt.ruleBook (front ++ back)).issues

/-- A record that has no placement leaves the rules and the conflicts of a book as they are. -/
theorem record_of_placed_eq_nil {t : Transfer} (h : tt.placed t = []) (b : RuleBook) :
    (RuleBook.record tt b t).rules = b.rules ∧ (RuleBook.record tt b t).entries = b.entries ∧
      ∀ id kept pattern q d, Issue.conflict id kept pattern q d ∈ (RuleBook.record tt b t).issues ↔
        Issue.conflict id kept pattern q d ∈ b.issues := by
  unfold RuleBook.record
  rcases tt.placements_eq t with hok | ⟨-, side, point, herror⟩
  · rw [hok, h]
    exact ⟨rfl, rfl, fun _ _ _ _ _ => Iff.rfl⟩
  · rw [herror]
    refine ⟨RuleBook.rules_report _ _, RuleBook.entries_report _ _, fun _ _ _ _ _ => ?_⟩
    rw [RuleBook.mem_issues_report]
    exact or_iff_left (by simp)

/-- **A record that has no placement is idle.** -/
theorem idle_of_placed_eq_nil {t : Transfer} (h : tt.placed t = []) : tt.Idle t := by
  have hplaced : ∀ front back, tt.placedAll (front ++ t :: back) = tt.placedAll (front ++ back) := by
    intro front back
    rw [placedAll_append, placedAll_append, placedAll_cons, h, List.nil_append]
  exact
    { rules_eq := fun b => (record_of_placed_eq_nil h b).1
      entries_eq := fun b => (record_of_placed_eq_nil h b).2.1
      conflict_iff := fun b => (record_of_placed_eq_nil h b).2.2
      index_eq := fun front back i d =>
        index_ruleBook_congr fun q => by rw [hplaced front back]
      conflict_ruleBook_iff := fun front back _ _ _ _ _ =>
        conflict_mem_issues_congr (hplaced front back) }

/-! ## Issues that diagnose records -/

/-- A row of issues says just what is wrong with a row of records. -/
structure Diagnoses (tt : Timetable) (ts : List Transfer) (issues : List Issue) : Prop where
  /-- Nothing is said twice. -/
  nodup : issues.Nodup
  /-- The origin is to blame for a record when it covers nothing. -/
  origin_iff : ∀ id point, Issue.unresolvable id .origin point ∈ issues ↔
    ∃ t ∈ ts, t.id = id ∧ t.origin = point ∧ tt.CoversNothing point
  /-- The destination is to blame when it covers nothing and the origin something. -/
  destination_iff : ∀ id point, Issue.unresolvable id .destination point ∈ issues ↔
    ∃ t ∈ ts, t.id = id ∧ t.destination = point ∧ ¬ tt.CoversNothing t.origin ∧
      tt.CoversNothing point
  /-- There is a conflict at a position of a pattern when a record with the one id claims a key there
  that a record with the other id claims first. -/
  conflict_iff : ∀ id kept pattern q d, Issue.conflict id kept pattern q d ∈ issues ↔
    kept ≠ id ∧ ∃ i p, tt.patterns[i]? = some p ∧ p.id = pattern ∧
      ∃ k, (∃ t ∈ ts, t.id = id ∧ tt.Claims t i d q k) ∧
        ∃ u, tt.FirstClaims ts i d q k u ∧ u.id = kept
  /-- A record with a side to blame is idle. -/
  idle : ∀ t ∈ ts, (∃ side, Issue.unresolvable t.id side (t.point side) ∈ issues) → tt.Idle t

/-- A record has no placement when one of its points covers nothing. -/
theorem placed_eq_nil_of_coversNothing {t : Transfer} (side : Side)
    (h : tt.CoversNothing (t.point side)) : tt.placed t = [] := by
  have hnone := locations_eq_nil_iff.2 h
  unfold placed
  cases side with
  | origin =>
    rw [Transfer.point] at hnone
    rw [hnone]
    rfl
  | destination =>
    rw [Transfer.point] at hnone
    rw [hnone]
    exact List.flatMap_eq_nil_iff.2 fun _ _ => rfl

/-- **The issues of the rule book are exact.** -/
theorem diagnoses_ruleBook (tt : Timetable) (ts : List Transfer) :
    tt.Diagnoses ts (tt.ruleBook ts).issues := by
  refine ⟨tt.nodup_issues_ruleBook ts, fun id point => ?_, fun id point => ?_,
    fun id kept pattern q d => ?_, fun t ht ⟨side, hside⟩ => ?_⟩
  · rw [unresolvable_mem_issues_iff]
    refine exists_congr fun t => and_congr_right fun _ => and_congr_right fun _ => ?_
    exact and_congr_right fun hpoint => hpoint ▸ Iff.rfl
  · rw [unresolvable_mem_issues_iff]
    refine exists_congr fun t => and_congr_right fun _ => and_congr_right fun _ => ?_
    exact and_congr_right fun hpoint => hpoint ▸ Iff.rfl
  · rw [conflict_mem_issues_iff_claims]
    constructor
    · rintro ⟨t, ht, hid, i, p, k, u, hp, hpid, hc, hu, hkept, hne⟩
      exact ⟨hne, i, p, hp, hpid, k, ⟨t, ht, hid, hc⟩, u, hu, hkept⟩
    · rintro ⟨hne, i, p, hp, hpid, k, ⟨t, ht, hid, hc⟩, u, hu, hkept⟩
      exact ⟨t, ht, hid, i, p, k, u, hp, hpid, hc, hu, hkept, hne⟩
  · -- the point may have been reported for another record with the id, but it is the same point
    obtain ⟨u, -, -, hpoint, hblame⟩ := unresolvable_mem_issues_iff.1 hside
    refine idle_of_placed_eq_nil (placed_eq_nil_of_coversNothing side ?_)
    rw [← hpoint]
    cases side with
    | origin => exact hblame
    | destination => exact hblame.2

/-- On the line the same record with an unknown destination is reported once, and a record that comes
too late is reported for each of its positions. -/
example :
    (line.ruleBook
      [change ruleX stopA ⟨"Z", by decide⟩ .regular, change ruleX stopA ⟨"Z", by decide⟩ .regular,
        change ruleX stopA stopB .guaranteed, change ruleHeld stopA stopB .notAllowed]).issues =
      [.unresolvable ruleX .destination (.anywhere (.stop ⟨"Z", by decide⟩)),
        .conflict ruleHeld ruleX patternP 1 .forward,
        .conflict ruleHeld ruleX patternP 0 .reverse] := by
  rfl

end Timetable

end Interchange
