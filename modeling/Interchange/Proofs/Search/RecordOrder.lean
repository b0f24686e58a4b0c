import Interchange.Proofs.RuleBook.Contents
import Interchange.Proofs.Search.Decision

/-!
# The order of the records

The rule book is made in record order, and entries of equal weight stand in a slot in the order in
which they came. A search does not see that, unless two records compete for a key.

* `Timetable.Compete` — two records register one key in one slot.
* `Timetable.mem_slot_ruleBook_iff_of_free` — where none compete, a slot holds the entries of all
  records that claim a key there, and the order of the records has no part in it.
* `RuleBook.Alike` — two rule books lead all searches to the same answer. `alike_of_perm` — so do
  those of two arrangements of the same records.
-/

namespace Interchange

/-- Two rule books are alike for every search: they have rules at the same positions and lead to the
same boardings. -/
def RuleBook.Alike (a b : RuleBook) : Prop :=
  ∀ i d p, (a.index i d).hasRules p = (b.index i d).hasRules p ∧
    ∀ cfg pattern r, Search.boarding? d cfg pattern (a.index i d) p r =
      Search.boarding? d cfg pattern (b.index i d) p r

/-- Well-formed slots with the same entries lead to the same boarding. -/
theorem Search.inSlot?_eq_of_mem_iff {d : Direction} {cfg : SearchConfig} {pattern : Pattern}
    {s s' : Slot} {p : Position} {r : BoardingRequest} (hs : s.WellFormed) (hs' : s'.WellFormed)
    (h : ∀ e, e ∈ s ↔ e ∈ s') : inSlot? d cfg pattern s p r = inSlot? d cfg pattern s' p r := by
  have happlies : ∀ e, Applies s r e ↔ Applies s' r e := fun e =>
    ⟨fun he => ⟨(h e).1 he.mem, he.stop_eq, he.accepts⟩,
      fun he => ⟨(h e).2 he.mem, he.stop_eq, he.accepts⟩⟩
  exact inSlot?_congr hs hs' (fun e => counts_congr happlies) pattern

namespace Timetable

variable {tt : Timetable} {ts us : List Transfer}

/-! ## Competition -/

/-- Two records compete: they register one key in one slot. -/
def Compete (tt : Timetable) (t u : Transfer) : Prop :=
  ∃ a ∈ tt.placed t, ∃ b ∈ tt.placed u,
    a.IsFor b.pattern b.direction b.position ∧ a.entry.key = b.entry.key

instance (tt : Timetable) (t u : Transfer) : Decidable (tt.Compete t u) :=
  inferInstanceAs (Decidable (∃ a ∈ tt.placed t, ∃ b ∈ tt.placed u, _ ∧ _))

/-- Two records compete when they claim one key in one slot. -/
theorem compete_iff_claims {t u : Transfer} :
    tt.Compete t u ↔ ∃ i d q k, tt.Claims t i d q k ∧ tt.Claims u i d q k := by
  unfold Compete
  simp only [claims_iff_placed]
  constructor
  · rintro ⟨a, ha, b, hb, hfor, hk⟩
    exact ⟨_, _, _, _, ⟨a, ha, hfor, hk⟩, b, hb, ⟨rfl, rfl, rfl⟩, rfl⟩
  · rintro ⟨i, d, q, k, ⟨a, ha, hfor, hak⟩, b, hb, ⟨rfl, rfl, rfl⟩, rfl⟩
    exact ⟨a, ha, b, hb, hfor, hak⟩

/-- Competition is mutual. -/
theorem Compete.symm {t u : Transfer} (h : tt.Compete t u) : tt.Compete u t := by
  obtain ⟨i, d, q, k, ht, hu⟩ := compete_iff_claims.1 h
  exact compete_iff_claims.2 ⟨i, d, q, k, hu, ht⟩

/-- Where no two records compete, whoever claims a key claims it first. -/
theorem firstClaims_iff_of_free (hfree : ts.Pairwise fun t u => ¬ tt.Compete t u) {i : Nat}
    {d : Direction} {q : Position} {k : Key} {t : Transfer} :
    tt.FirstClaims ts i d q k t ↔ t ∈ ts ∧ tt.Claims t i d q k := by
  constructor
  · rintro ⟨front, rest, rfl, hc, -⟩
    exact ⟨by simp, hc⟩
  · rintro ⟨ht, hc⟩
    obtain ⟨front, rest, rfl⟩ := List.append_of_mem ht
    refine ⟨front, rest, rfl, hc, fun u hu hcu => ?_⟩
    exact (List.pairwise_append.1 hfree).2.2 u hu t List.mem_cons_self
      (compete_iff_claims.2 ⟨i, d, q, k, hcu, hc⟩)

/-- **Where no two records compete, a slot holds the entry of every record that claims a key
there.** -/
theorem mem_slot_ruleBook_iff_of_free (hfree : ts.Pairwise fun t u => ¬ tt.Compete t u) {i : Nat}
    {d : Direction} {q : Position} {e : Entry} :
    e ∈ (tt.ruleBook ts).slot i d q ↔
      ∃ t ∈ ts, tt.Claims t i d q e.key ∧ e = t.entry e.key := by
  rw [(wellFormed_slot_ruleBook tt ts i d q).mem_iff, holder?_slot_ruleBook_eq_some_iff]
  simp only [firstClaims_iff_of_free hfree, and_assoc]

/-! ## Arrangements -/

/-- **The order of records that do not compete has no part in any answer.** -/
theorem alike_of_perm (tt : Timetable) {ts us : List Transfer} (hperm : ts.Perm us)
    (hfree : ts.Pairwise fun t u => ¬ tt.Compete t u) :
    (tt.ruleBook ts).Alike (tt.ruleBook us) := by
  have hfree' : us.Pairwise fun t u => ¬ tt.Compete t u :=
    hperm.pairwise hfree fun h h' => h h'.symm
  have hmem : ∀ i d p e, e ∈ (tt.ruleBook ts).slot i d p ↔ e ∈ (tt.ruleBook us).slot i d p := by
    intro i d p e
    rw [mem_slot_ruleBook_iff_of_free hfree, mem_slot_ruleBook_iff_of_free hfree']
    simp only [hperm.mem_iff]
  intro i d p
  refine ⟨?_, fun cfg pattern r => ?_⟩
  · rw [Bool.eq_iff_iff, RuleIndex.hasRules_iff, RuleIndex.hasRules_iff]
    exact exists_congr (hmem i d p)
  · exact Search.inSlot?_eq_of_mem_iff (wellFormed_slot_ruleBook tt ts i d p)
      (wellFormed_slot_ruleBook tt us i d p) (hmem i d p)

/-- Two changes to one stop, from either side of it, stand in one slot in the order in which they
came, and they do not compete. -/
theorem alike_changes :
    (line.ruleBook [change ⟨"x", by decide⟩ stopA stopB .guaranteed,
        change ⟨"y", by decide⟩ stopC stopB .notAllowed]).slot 0 .forward 1 ≠
      (line.ruleBook [change ⟨"y", by decide⟩ stopC stopB .notAllowed,
        change ⟨"x", by decide⟩ stopA stopB .guaranteed]).slot 0 .forward 1 ∧
    (line.ruleBook [change ⟨"x", by decide⟩ stopA stopB .guaranteed,
        change ⟨"y", by decide⟩ stopC stopB .notAllowed]).Alike
      (line.ruleBook [change ⟨"y", by decide⟩ stopC stopB .notAllowed,
        change ⟨"x", by decide⟩ stopA stopB .guaranteed]) :=
  ⟨by decide, alike_of_perm line (List.Perm.swap _ _ _) (by decide)⟩

end Timetable

end Interchange
