import Interchange.Proofs.RuleBook.Contents

/-!
# What becomes of a record

An operator expects of every record that it is either in force or reported. A slot always holds an
entry for the key of a placement; the question is whose.

* `Timetable.Accounted` — the entry carries the constraint of the record, or a conflict of the record
  is reported for the position.
* `Timetable.Overruled` — the record lost the key to an earlier one with its own id and another
  constraint, which counts as a repetition of the same record, and nothing else is reported of the
  id there.
* `accounted_iff_not_overruled` — that is the only way in which a record is lost without a word. It
  cannot happen where records with one id have one constraint (`accountsForAll_of_ids`), and it does
  happen where they have not (`not_accountsForAll_of_repeated_id`).
-/

namespace Interchange

namespace Timetable

variable {tt : Timetable} {ts : List Transfer}

/-- A placement of a record is accounted for: the slot that it is meant for holds an entry with its
key, which carries the constraint of the record, or else a conflict of the record is reported at this
position of the pattern and in this direction. -/
def Accounted (tt : Timetable) (ts : List Transfer) (t : Transfer) (p : Placement) : Prop :=
  ∃ e ∈ (tt.ruleBook ts).slot p.pattern p.direction p.position, e.key = p.entry.key ∧
    (e.constraint = t.constraint ∨
      ∃ pattern kept, tt.patterns[p.pattern]? = some pattern ∧
        Issue.conflict t.id kept pattern.id p.position p.direction ∈ (tt.ruleBook ts).issues)

/-- Every record is accounted for, for each pair of locations of its points and in both
directions. -/
def AccountsForAll (tt : Timetable) (ts : List Transfer) : Prop :=
  ∀ t ∈ ts, ∀ p ∈ tt.placed t, tt.Accounted ts t p

/-- A placement of a record is overruled: the record that claims its key first has the same id but
another constraint, and whatever records with that id claim at this position of a pattern with this
id, in this direction, is claimed first under the same id. -/
def Overruled (tt : Timetable) (ts : List Transfer) (t : Transfer) (p : Placement) : Prop :=
  (∃ u, tt.FirstClaims ts p.pattern p.direction p.position p.entry.key u ∧ u.id = t.id ∧
      u.constraint ≠ t.constraint) ∧
    ∀ pattern, tt.patterns[p.pattern]? = some pattern →
      ∀ v ∈ ts, v.id = t.id → ∀ i other k w, tt.patterns[i]? = some other →
        other.id = pattern.id → tt.Claims v i p.direction p.position k →
          tt.FirstClaims ts i p.direction p.position k w → w.id = t.id

/-- The key of a placement is held, by an entry of the first record that claims it. -/
theorem exists_firstClaims_of_mem_placed {t : Transfer} (ht : t ∈ ts) {p : Placement}
    (hp : p ∈ tt.placed t) :
    ∃ u, tt.FirstClaims ts p.pattern p.direction p.position p.entry.key u ∧
      u.entry p.entry.key ∈ (tt.ruleBook ts).slot p.pattern p.direction p.position := by
  have hc : tt.Claims t p.pattern p.direction p.position p.entry.key :=
    claims_iff_placed.2 ⟨p, hp, ⟨rfl, rfl, rfl⟩, rfl⟩
  obtain ⟨u, hu⟩ := exists_firstClaims_iff.2 ⟨t, ht, hc⟩
  exact ⟨u, hu, (Slot.mem_of_holder? (holder?_slot_ruleBook_eq_some_iff.2 ⟨u, hu, rfl⟩)).1⟩

/-- A placement is of a pattern of the timetable. -/
theorem exists_pattern_of_mem_placed {t : Transfer} {p : Placement} (hp : p ∈ tt.placed t) :
    ∃ pattern, tt.patterns[p.pattern]? = some pattern := by
  have hlt := position_lt_of_mem_placed hp
  unfold stopCount at hlt
  rcases h : tt.patterns[p.pattern]? with _ | pattern
  · rw [h] at hlt
    exact absurd hlt (Nat.not_lt_zero _)
  · exact ⟨pattern, rfl⟩

/-- An overruled placement is not accounted for. -/
theorem not_accounted_of_overruled {t : Transfer} {p : Placement} (h : tt.Overruled ts t p) :
    ¬ tt.Accounted ts t p := by
  obtain ⟨⟨u, hu, -, hne⟩, hsame⟩ := h
  rintro ⟨e, he, hk, hkept | ⟨pattern, kept, hpattern, hissue⟩⟩
  · -- the entry is that of the first claim, which has another constraint
    have hheld := (wellFormed_slot_ruleBook tt ts _ _ _).mem_iff.1 he
    rw [hk, holder?_slot_ruleBook_eq_some_iff.2 ⟨u, hu, rfl⟩] at hheld
    rw [← Option.some.inj hheld] at hkept
    exact hne hkept
  · -- a conflict would be of a key that another id claims first
    obtain ⟨v, hv, hid, i, other, k, w, hi, hother, hc, hw, rfl, hwne⟩ :=
      conflict_mem_issues_iff_claims.1 hissue
    exact hwne (hsame pattern hpattern v hv hid i other k w hi hother hc hw)

/-- **Only an overruled placement is not accounted for.** -/
theorem accounted_iff_not_overruled {t : Transfer} (ht : t ∈ ts) {p : Placement}
    (hp : p ∈ tt.placed t) : tt.Accounted ts t p ↔ ¬ tt.Overruled ts t p := by
  refine ⟨fun h hover => not_accounted_of_overruled hover h, fun hnot => ?_⟩
  obtain ⟨u, hu, hmem⟩ := exists_firstClaims_of_mem_placed ht hp
  obtain ⟨pattern, hpattern⟩ := exists_pattern_of_mem_placed hp
  refine ⟨u.entry p.entry.key, hmem, rfl, ?_⟩
  by_cases hc : u.constraint = t.constraint
  · exact .inl hc
  · by_cases hissue : ∃ kept,
        Issue.conflict t.id kept pattern.id p.position p.direction ∈ (tt.ruleBook ts).issues
    · obtain ⟨kept, hissue⟩ := hissue
      exact .inr ⟨pattern, kept, hpattern, hissue⟩
    · -- without a conflict every key that the id meets here is claimed first under it
      have hsame : ∀ v ∈ ts, v.id = t.id → ∀ i other k w, tt.patterns[i]? = some other →
          other.id = pattern.id → tt.Claims v i p.direction p.position k →
            tt.FirstClaims ts i p.direction p.position k w → w.id = t.id := by
        intro v hv hid i other k w hi hother hclaim hw
        by_cases hwid : w.id = t.id
        · exact hwid
        · exact absurd ⟨w.id, conflict_mem_issues_iff_claims.2
            ⟨v, hv, hid, i, other, k, w, hi, hother, hclaim, hw, rfl, hwid⟩⟩ hissue
      have hclaim : tt.Claims t p.pattern p.direction p.position p.entry.key :=
        claims_iff_placed.2 ⟨p, hp, ⟨rfl, rfl, rfl⟩, rfl⟩
      have hid : u.id = t.id := hsame t ht rfl _ _ _ _ hpattern rfl hclaim hu
      refine absurd ⟨⟨u, hu, hid, hc⟩, fun pattern' hpattern' => ?_⟩ hnot
      rw [hpattern] at hpattern'
      cases hpattern'
      exact hsame

/-- **When the rule book accounts for all records.** Every key that a record claims is held in its
slot, and every record is accounted for just when none is overruled. -/
theorem accountsForAll_iff (tt : Timetable) (ts : List Transfer) :
    (∀ t ∈ ts, ∀ p ∈ tt.placed t,
      ∃ e ∈ (tt.ruleBook ts).slot p.pattern p.direction p.position, e.key = p.entry.key) ∧
    (tt.AccountsForAll ts ↔ ∀ t ∈ ts, ∀ p ∈ tt.placed t, ¬ tt.Overruled ts t p) := by
  refine ⟨fun t ht p hp => ?_, ?_⟩
  · obtain ⟨u, -, hmem⟩ := exists_firstClaims_of_mem_placed ht hp
    exact ⟨_, hmem, rfl⟩
  · unfold AccountsForAll
    exact forall₂_congr fun t ht => forall₂_congr fun p hp => accounted_iff_not_overruled ht hp

/-- Where records with one id have one constraint, all are accounted for. -/
theorem accountsForAll_of_ids
    (h : ∀ t ∈ ts, ∀ u ∈ ts, t.id = u.id → t.constraint = u.constraint) :
    tt.AccountsForAll ts := by
  intro t ht p hp
  rw [accounted_iff_not_overruled ht hp]
  rintro ⟨⟨u, hu, hid, hne⟩, -⟩
  obtain ⟨front, rest, rfl, -, -⟩ := hu
  exact hne (h u (by simp) t ht hid)

/-! ## A repeated id -/

/-- A record is lost without a word when an earlier one has its id, its points and another
constraint: a guarantee stays in force and the prohibition behind it is nowhere to be seen. -/
theorem not_accountsForAll_of_repeated_id :
    ¬ line.AccountsForAll
      [change ⟨"x", by decide⟩ stopA stopB .guaranteed,
        change ⟨"x", by decide⟩ stopA stopB .notAllowed] := by
  intro h
  have hslot : (line.ruleBook [change ⟨"x", by decide⟩ stopA stopB .guaranteed,
      change ⟨"x", by decide⟩ stopA stopB .notAllowed]).slot 0 .forward 1 =
        [⟨⟨⟨0⟩, .any, .any⟩, .guaranteed, ⟨"x", by decide⟩⟩] := by decide
  have hissues : (line.ruleBook [change ⟨"x", by decide⟩ stopA stopB .guaranteed,
      change ⟨"x", by decide⟩ stopA stopB .notAllowed]).issues = [] := by decide
  obtain ⟨e, he, -, hkept | ⟨pattern, kept, -, hissue⟩⟩ :=
    h (change ⟨"x", by decide⟩ stopA stopB .notAllowed) (by simp)
      ⟨.forward, 0, 1, ⟨⟨⟨0⟩, .any, .any⟩, .notAllowed, ⟨"x", by decide⟩⟩⟩ (by decide)
  · rw [hslot, List.mem_singleton] at he
    rw [he] at hkept
    exact absurd hkept (by decide)
  · rw [hissues] at hissue
    cases hissue

end Timetable

end Interchange
