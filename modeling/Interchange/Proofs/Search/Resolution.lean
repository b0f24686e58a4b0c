import Interchange.Proofs.RuleBook.Placement
import Interchange.Proofs.Search.Selection
import Mathlib.Data.List.Nodup
import Mathlib.Data.List.Perm.Subperm

/-!
# One rule for a trip

The search takes a run of entries from a slot and the first of them that accepts a trip. That it takes the
right ones, and has no choice among them, hangs on the form of the slot: its keys are distinct and its
narrowest entries stand in front.

* `Search.applicable_eq_filter` — the run is what a filter would pick out: the entries that count.
* `Search.rule?_applicable_eq_some_iff` — the first that accepts a trip is narrower, on the searched side,
  than all others that accept it.
* `Search.Unambiguous` — a rider is given one rule for a trip or none. `Search.unambiguous_ruleBook` — so it
  is in every slot of a rule book, whatever the records.
-/

namespace Interchange

namespace Search

variable {s : Slot} {r : BoardingRequest}

/-- Whether an entry applies to a rider can be decided. -/
instance (s : Slot) (r : BoardingRequest) (e : Entry) : Decidable (Applies s r e) :=
  decidable_of_iff _ mem_filter_acceptsSource_iff

/-- Whether an entry counts for a rider can be decided: only the entries of the slot can outrank it. -/
instance (s : Slot) (r : BoardingRequest) (e : Entry) : Decidable (Counts s r e) :=
  decidable_of_iff
    (Applies s r e ∧ ∀ x ∈ s, Applies s r x →
      x.key.source.specificity.rank ≤ e.key.source.specificity.rank)
    ⟨fun h => ⟨h.1, fun x hx => h.2 x hx.mem hx⟩, fun h => ⟨h.applies, fun x _ => h.narrowest x⟩⟩

/-- **The search uses the entries that count, in the order of the slot.** -/
theorem applicable_eq_filter (h : s.WellFormed) : applicable s r = s.filter fun e => Counts s r e := by
  have hsublist : (applicable s r).Sublist (s.filter fun e => Counts s r e) := by
    have hcount : (applicable s r).filter (fun e => Counts s r e) = applicable s r := by
      simp [List.filter_eq_self, mem_applicable_iff h]
    rw [← hcount]
    exact (applicable_sublist s r).filter _
  -- the filter picks out no other entry, and none twice
  have hsubset : (s.filter fun e => Counts s r e) ⊆ applicable s r := by
    intro e he
    have hcounts : Counts s r e := by simpa using (List.mem_filter.1 he).2
    exact (mem_applicable_iff h).2 hcounts
  have hnodup : (s.filter fun e => Counts s r e).Nodup := (List.Nodup.of_map _ h.keys_nodup).filter _
  exact hsublist.eq_of_length_le (hnodup.subperm hsubset).length_le

/-- **The rule for a trip** accepts it and is narrower, on the searched side, than every other entry in use
that accepts it. -/
theorem rule?_applicable_eq_some_iff (h : s.WellFormed) {t : Trip} {e : Entry} :
    rule? (applicable s r) t = some e ↔
      e ∈ applicable s r ∧ e.acceptsTarget t = true ∧
        ∀ x ∈ applicable s r, x.acceptsTarget t = true → x ≠ e →
          x.key.target.specificity.rank < e.key.target.specificity.rank := by
  rw [rule?_eq_some_iff h]
  simp only [mem_applicable_iff h]
  constructor
  · rintro ⟨hcounts, haccepts, hnarrowest⟩
    refine ⟨hcounts, haccepts, fun x hx hxt hne => ?_⟩
    apply Nat.lt_of_le_of_ne (hnarrowest x hx hxt)
    -- of one width there is only one
    intro hrank
    exact hne (hx.eq_of_accepts h hcounts hxt haccepts (Specificity.rank_inj.1 hrank))
  · rintro ⟨hcounts, haccepts, hnarrower⟩
    refine ⟨hcounts, haccepts, fun x hx hxt => ?_⟩
    by_cases hxe : x = e
    · simp [hxe]
    · exact Nat.le_of_lt (hnarrower x hx hxt hxe)

/-- The entries of a slot leave no doubt about the rule for a trip. -/
structure Unambiguous (s : Slot) (r : BoardingRequest) : Prop where
  /-- The search uses the entries that count for the rider, in the order of the slot. -/
  applicable_eq : applicable s r = s.filter fun e => Counts s r e
  /-- They have the same stop and the same source side. -/
  source_eq : ∀ a ∈ applicable s r, ∀ b ∈ applicable s r,
    a.key.stop = b.key.stop ∧ a.key.source = b.key.source
  /-- At most one of each target specificity accepts a trip. -/
  target_eq : ∀ t : Trip, ∀ a ∈ applicable s r, ∀ b ∈ applicable s r,
    a.acceptsTarget t = true → b.acceptsTarget t = true →
      a.key.target.specificity = b.key.target.specificity → a = b
  /-- The rule for a trip accepts it, and every other that accepts it has a lower target specificity. -/
  rule_iff : ∀ (t : Trip) (e : Entry), rule? (applicable s r) t = some e ↔
    e ∈ applicable s r ∧ e.acceptsTarget t = true ∧
      ∀ x ∈ applicable s r, x.acceptsTarget t = true → x ≠ e →
        x.key.target.specificity.rank < e.key.target.specificity.rank
  /-- There is no rule for a trip when none accepts it. -/
  no_rule_iff : ∀ t : Trip, rule? (applicable s r) t = none ↔
    ∀ e ∈ applicable s r, e.acceptsTarget t = false

/-- **Rules are resolved without ambiguity**, in every slot that is made from records, for every rider. -/
theorem unambiguous_ruleBook (tt : Timetable) (ts : List Transfer) (i : Nat) (d : Direction) (q : Position)
    (r : BoardingRequest) : Unambiguous ((tt.ruleBook ts).slot i d q) r := by
  have hwell := Timetable.wellFormed_slot_ruleBook tt ts i d q
  refine ⟨applicable_eq_filter hwell, ?_, ?_, ?_, ?_⟩
  · intro a ha b hb
    exact ((mem_applicable_iff hwell).1 ha).source_eq ((mem_applicable_iff hwell).1 hb)
  · intro t a ha b hb hta htb hwidth
    exact ((mem_applicable_iff hwell).1 ha).eq_of_accepts hwell ((mem_applicable_iff hwell).1 hb) hta htb
      hwidth
  · intro t e
    exact rule?_applicable_eq_some_iff hwell
  · intro t
    simp [rule?]

end Search

end Interchange
