import Interchange.Proofs.Slot

/-!
# What an index holds

An index is filled by one registration after another, each at a position of its own. Seen from a slot the
run is that of the entries that came for its position, and the slot needs no history to be told: it is the
stable sort of the first of those entries for each key.

* `Slot.registerAll_nil_eq` — what a run of registrations makes of an empty slot.
* `RuleIndex.slot_addAll` — a run at all positions is, slot by slot, the run at one.
* `RuleIndex.Outcomes` — what comes of one more registration, in terms of what is stored.
* `RuleIndex.keepsFirsts_addAll` — the two together, for every run on a fresh index.
-/

namespace Interchange

/-! ## The order of entries -/

/-- Whether an entry may stand in front of another: its source side is narrower, or the source sides are
equally narrow and its target side is not wider. -/
def Entry.mayPrecede (a b : Entry) : Bool :=
  decide (b.key.source.specificity.rank < a.key.source.specificity.rank ∨
    b.key.source.specificity = a.key.source.specificity ∧
      b.key.target.specificity.rank ≤ a.key.target.specificity.rank)

/-- An entry may stand in front of those that weigh no more. -/
theorem Entry.mayPrecede_eq_noLighter : Entry.mayPrecede = noLighter Entry.weight := by
  funext a b
  exact decide_eq_decide.2 Key.weight_le_iff.symm

namespace Slot

/-! ## A run on an empty slot -/

/-- The last entry of a run is registered behind the others. -/
theorem registerAll_append_singleton (s : Slot) (es : List Entry) (e : Entry) :
    s.registerAll (es ++ [e]) = ((s.registerAll es).register e).1 := by
  unfold registerAll
  rw [List.foldl_append]
  rfl

/-- After a run on an empty slot a key is free when no entry of the run has it. -/
theorem holder?_registerAll_nil_eq_none_iff {es : List Entry} {k : Key} :
    (registerAll [] es).holder? k = none ↔ k ∉ es.map (·.key) := by
  have hholder : (registerAll [] es).holder? k = es.find? fun e => e.key = k :=
    (holder?_registerAll [] es k).trans (Option.none_or)
  rw [hholder, List.find?_eq_none]
  simp

/-- **A run on an empty slot sorts the first entry of each key**, and it does so stably. -/
theorem registerAll_nil_eq (es : List Entry) :
    registerAll [] es = (firstOfEach Entry.key es).mergeSort Entry.mayPrecede := by
  rw [Entry.mayPrecede_eq_noLighter]
  induction es using List.reverseRecOn with
  | nil =>
    rw [firstOfEach_nil, List.mergeSort_nil]
    rfl
  | append_singleton es e ih =>
    rw [registerAll_append_singleton, firstOfEach_append_singleton]
    rcases hk : (registerAll [] es).holder? e.key with _ | kept
    · rw [register_of_free hk, if_neg (holder?_registerAll_nil_eq_none_iff.1 hk),
        mergeSort_append_singleton, ← ih]
      rfl
    · have htaken : e.key ∈ es.map (·.key) := by
        refine Classical.byContradiction fun hfree => ?_
        rw [holder?_registerAll_nil_eq_none_iff.2 hfree] at hk
        cases hk
      rw [register_of_held hk, if_pos htaken, ih]

end Slot

namespace RuleIndex

/-! ## A run at all positions -/

/-- Registers entries one after another, each at its position. -/
def addAll (i : RuleIndex) (calls : List (Position × Entry)) : RuleIndex :=
  calls.foldl (fun i c => (i.add c.1 c.2).1) i

/-- The entries that come for a position, in their order. -/
def entriesAt (calls : List (Position × Entry)) (p : Position) : List Entry :=
  (calls.filter fun c => c.1 = p).map (·.2)

/-- A run of registrations does not change how many positions there are. -/
@[simp] theorem stopCount_addAll (i : RuleIndex) (calls : List (Position × Entry)) :
    (i.addAll calls).stopCount = i.stopCount := by
  induction calls generalizing i with
  | nil => rfl
  | cons c calls ih => exact (ih _).trans (stopCount_add i c.1 c.2)

/-- **A run at all positions is, slot by slot, the run of what comes for the position.** -/
theorem slot_addAll {i : RuleIndex} {p : Position} (h : p < i.stopCount)
    (calls : List (Position × Entry)) :
    (i.addAll calls).slot p = (i.slot p).registerAll (entriesAt calls p) := by
  induction calls generalizing i with
  | nil => rfl
  | cons c calls ih =>
    have hstep : (i.addAll (c :: calls)).slot p =
        ((i.add c.1 c.2).1.slot p).registerAll (entriesAt calls p) :=
      ih (by rwa [stopCount_add])
    rw [hstep]
    unfold entriesAt
    by_cases hc : c.1 = p
    · rw [List.filter_cons_of_pos (by simpa using hc), hc, slot_add_self h]
      rfl
    · rw [List.filter_cons_of_neg (by simpa using hc), slot_add_of_ne i hc]

/-- An index is the row of its slots. -/
theorem slots_eq_map_slot (i : RuleIndex) : i.slots = (List.range i.stopCount).map i.slot := by
  refine List.ext_getElem (by simp [stopCount]) fun p hp _ => ?_
  rw [List.getElem_map, List.getElem_range, slot, List.getElem?_eq_getElem hp, Option.getD_some]

/-- After a run on a fresh index, a slot is the stable sort of the first entries that came for it. -/
theorem slot_addAll_empty {n : Nat} {p : Position} (h : p < n) (calls : List (Position × Entry)) :
    ((empty n).addAll calls).slot p =
      (firstOfEach Entry.key (entriesAt calls p)).mergeSort Entry.mayPrecede := by
  rw [slot_addAll (by rwa [stopCount_empty]), slot_empty, Slot.registerAll_nil_eq]

/-! ## What comes of one registration -/

/-- What comes of registering an entry at a position, in terms of the entries that are stored there, and
what it does to the rest of the index. -/
structure Outcomes (i : RuleIndex) (p : Position) (e : Entry) : Prop where
  /-- The position is outside the pattern. -/
  outOfRange_iff : (i.add p e).2 = .outOfRange ↔ i.stopCount ≤ p
  /-- No stored entry has the key. -/
  added_iff : (i.add p e).2 = .added ↔ p < i.stopCount ∧ ∀ x ∈ i.slot p, x.key ≠ e.key
  /-- The stored entry with the key is of the same transfer. -/
  duplicate_iff : (i.add p e).2 = .duplicate ↔
    ∃ x ∈ i.slot p, x.key = e.key ∧ x.transfer = e.transfer
  /-- The stored entry with the key is of another transfer, which is told. -/
  conflict_iff : ∀ kept, (i.add p e).2 = .conflict kept ↔
    ∃ x ∈ i.slot p, x.key = e.key ∧ x.transfer = kept ∧ kept ≠ e.transfer
  /-- All other slots stay as they are. -/
  slot_of_ne : ∀ q, q ≠ p → (i.add p e).1.slot q = i.slot q

/-- Outside the pattern nothing can be stored. -/
theorem add_of_le {i : RuleIndex} {p : Position} (h : i.stopCount ≤ p) (e : Entry) :
    i.add p e = (i, .outOfRange) := by
  unfold stopCount at h
  rw [add, List.getElem?_eq_none h]

/-- What comes of a registration is told by the entries that are stored, if no two of them share a key. -/
theorem outcomes_add {i : RuleIndex} {p : Position} (h : (i.slot p).WellFormed) (e : Entry) :
    i.Outcomes p e := by
  have hothers : ∀ q, q ≠ p → (i.add p e).1.slot q = i.slot q := fun q hq => slot_add_of_ne i hq.symm e
  rcases Nat.lt_or_ge p i.stopCount with hp | hp
  · have hadd : (i.add p e).2 = ((i.slot p).register e).2 := by rw [add_of_lt hp]
    rcases hk : (i.slot p).holder? e.key with _ | kept
    · rw [Slot.register_of_free hk] at hadd
      have hfree := Slot.holder?_eq_none_iff.1 hk
      refine ⟨?_, ?_, ?_, fun kept => ?_, hothers⟩
      · exact iff_of_false (by simp [hadd]) (Nat.not_le.2 hp)
      · exact iff_of_true hadd ⟨hp, hfree⟩
      · exact iff_of_false (by simp [hadd]) fun ⟨x, hx, hxe, _⟩ => hfree x hx hxe
      · exact iff_of_false (by simp [hadd]) fun ⟨x, hx, hxe, _⟩ => hfree x hx hxe
    · rw [Slot.register_of_held hk] at hadd
      obtain ⟨hkept, hkey⟩ := Slot.mem_of_holder? hk
      have hstored : ∀ P : Entry → Prop, (∃ x ∈ i.slot p, x.key = e.key ∧ P x) ↔ P kept := by
        intro P
        constructor
        · rintro ⟨x, hx, hxe, hP⟩
          rwa [← h.eq_of_key_eq hx hkept (hxe.trans hkey.symm)]
        · exact fun hP => ⟨kept, hkept, hkey, hP⟩
      refine ⟨?_, ?_, ?_, fun id => ?_, hothers⟩
      · refine iff_of_false ?_ (Nat.not_le.2 hp)
        rw [hadd]
        split <;> simp
      · refine iff_of_false ?_ fun hfree => hfree.2 kept hkept hkey
        rw [hadd]
        split <;> simp
      · rw [hadd, hstored fun x => x.transfer = e.transfer]
        split <;> simp_all
      · rw [hadd, hstored fun x => x.transfer = id ∧ id ≠ e.transfer]
        split
        · simp_all
        · rename_i hne
          simp only [Registration.conflict.injEq]
          exact ⟨fun heq => ⟨heq, heq ▸ hne⟩, And.left⟩
  · have hslot := slot_of_le hp
    have hadd := add_of_le hp e
    refine ⟨?_, ?_, ?_, fun kept => ?_, hothers⟩
    · exact iff_of_true (by rw [hadd]) hp
    · exact iff_of_false (by simp [hadd]) fun hfree => Nat.not_lt.2 hp hfree.1
    · simp [hadd, hslot]
    · simp [hadd, hslot]

/-! ## A run on a fresh index -/

/-- Every slot of a fresh index stays well-formed, whatever is registered. -/
theorem wellFormed_slot_addAll (n : Nat) (calls : List (Position × Entry)) (p : Position) :
    (((empty n).addAll calls).slot p).WellFormed := by
  rcases Nat.lt_or_ge p n with hp | hp
  · rw [slot_addAll (by rwa [stopCount_empty]), slot_empty]
    exact Slot.wellFormed_registerAll Slot.wellFormed_nil _
  · rw [slot_of_le (by rwa [stopCount_addAll, stopCount_empty])]
    exact Slot.wellFormed_nil

/-- What a row of registrations makes of a fresh index with `n` positions, and what comes of one more. -/
structure KeepsFirsts (n : Nat) (calls : List (Position × Entry)) : Prop where
  /-- There is a slot for each position: the first entries that came for it, one for each key, sorted stably
  by the narrowness of their source side and then of their target side. -/
  slots_eq : ((empty n).addAll calls).slots = (List.range n).map fun p =>
    (firstOfEach Entry.key (entriesAt calls p)).mergeSort Entry.mayPrecede
  /-- Just the positions that are not below the number asked for are out of range. -/
  outOfRange_iff : ∀ p e, (((empty n).addAll calls).add p e).2 = .outOfRange ↔ n ≤ p
  /-- An entry is added when its position is in range and it is the first that came there with its key. -/
  added_iff : ∀ p e, (((empty n).addAll calls).add p e).2 = .added ↔
    p < n ∧ ∀ x ∈ entriesAt calls p, x.key ≠ e.key
  /-- Otherwise the entry that is stored with its key decides, and no other slot changes. -/
  outcomes : ∀ p e, ((empty n).addAll calls).Outcomes p e

/-- **A slot is the stable sort of the first entries of each key**, whatever is registered in whatever order and
at whatever positions; each registration is answered by what is stored, and leaves the other slots alone. -/
theorem keepsFirsts_addAll (n : Nat) (calls : List (Position × Entry)) : KeepsFirsts n calls := by
  have hcount : ((empty n).addAll calls).stopCount = n := by rw [stopCount_addAll, stopCount_empty]
  have houtcomes : ∀ p e, ((empty n).addAll calls).Outcomes p e := fun p =>
    outcomes_add (wellFormed_slot_addAll n calls p)
  refine ⟨?_, fun p e => ?_, fun p e => ?_, houtcomes⟩
  · rw [slots_eq_map_slot, hcount]
    exact List.map_congr_left fun p hp => slot_addAll_empty (List.mem_range.1 hp) calls
  · rw [(houtcomes p e).outOfRange_iff, hcount]
  · rw [(houtcomes p e).added_iff, hcount]
    refine and_congr_right fun hp => ?_
    rw [← Slot.holder?_eq_none_iff, slot_addAll (by rwa [stopCount_empty]), slot_empty,
      Slot.holder?_registerAll_nil_eq_none_iff]
    simp

/-- The entry for a route comes to stand in front of those for all trips, which keep their order. What comes
again with a key, or for a position that is not there, is passed over. -/
example (a b c : TransferId) (r : RouteId) :
    ((empty 1).addAll
      [(0, ⟨⟨⟨0⟩, .any, .any⟩, .regular, a⟩), (0, ⟨⟨⟨1⟩, .any, .any⟩, .regular, b⟩),
       (0, ⟨⟨⟨0⟩, .any, .any⟩, .notAllowed, c⟩), (0, ⟨⟨⟨1⟩, .route r, .any⟩, .guaranteed, c⟩),
       (1, ⟨⟨⟨1⟩, .any, .any⟩, .staySeated, c⟩)]).slots =
      [[⟨⟨⟨1⟩, .route r, .any⟩, .guaranteed, c⟩, ⟨⟨⟨0⟩, .any, .any⟩, .regular, a⟩,
        ⟨⟨⟨1⟩, .any, .any⟩, .regular, b⟩]] := rfl

end RuleIndex

end Interchange
