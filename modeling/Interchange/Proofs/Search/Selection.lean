import Interchange.Proofs.Slot
import Interchange.Search

/-!
# Which rule counts

The search reads a slot from the front and takes what it meets first. In a well-formed slot that comes
to a choice which does not mention the order of the entries.

* `Search.Applies`, `Search.Counts` — the entries that apply to the rider, and those among them with
  the narrowest source side. `mem_applicable_iff` — the search uses just those that count.
* `Search.Prevails` — the entry with the narrowest target side among those that count and accept a
  trip; there is at most one (`Prevails.eq`). `rule?_eq_some_iff` — the search goes by that one.
-/

namespace Interchange

/-- Ranks tell specificities apart. -/
theorem Specificity.rank_inj {a b : Specificity} : a.rank = b.rank ↔ a = b := by
  cases a <;> cases b <;> decide

/-- Two matchers that are equally narrow and accept one trip are the same. -/
theorem Matcher.eq_of_accepts {a b : Matcher} {t : Trip} (h : a.specificity = b.specificity)
    (ha : a.accepts t = true) (hb : b.accepts t = true) : a = b := by
  cases a <;> cases b <;> simp_all [Matcher.specificity, Matcher.accepts]

namespace Search

variable {s : Slot} {r : BoardingRequest}

/-! ## The rules that count -/

/-- An entry of a slot applies to the rider: it is about the stop, and it accepts the trip that the
rider comes from. -/
structure Applies (s : Slot) (r : BoardingRequest) (e : Entry) : Prop where
  mem : e ∈ s
  stop_eq : e.key.stop = r.sourceStop
  accepts : e.key.source.accepts r.sourceTrip = true

/-- An entry of a slot counts for the rider: it applies, and none that applies has a narrower source
side. -/
structure Counts (s : Slot) (r : BoardingRequest) (e : Entry) : Prop where
  applies : Applies s r e
  narrowest : ∀ x, Applies s r x →
    x.key.source.specificity.rank ≤ e.key.source.specificity.rank

/-- Entries that count have the same stop and the same source side. -/
theorem Counts.source_eq {a b : Entry} (ha : Counts s r a) (hb : Counts s r b) :
    a.key.stop = b.key.stop ∧ a.key.source = b.key.source := by
  have hrank : a.key.source.specificity.rank = b.key.source.specificity.rank :=
    Nat.le_antisymm (hb.narrowest a ha.applies) (ha.narrowest b hb.applies)
  refine ⟨?_, ?_⟩
  · rw [ha.applies.stop_eq, hb.applies.stop_eq]
  · exact Matcher.eq_of_accepts (Specificity.rank_inj.1 hrank) ha.applies.accepts
      hb.applies.accepts

/-- Which entries count hangs on which apply. -/
theorem counts_congr {s' : Slot} (h : ∀ e, Applies s r e ↔ Applies s' r e) {e : Entry} :
    Counts s r e ↔ Counts s' r e :=
  ⟨fun he => ⟨(h e).1 he.applies, fun x hx => he.narrowest x ((h x).2 hx)⟩,
    fun he => ⟨(h e).2 he.applies, fun x hx => he.narrowest x ((h x).1 hx)⟩⟩

/-- Where an entry counts, entries with a source side no narrower than some bound below its own have no
part in which entries count. -/
theorem counts_congr_above {s' : Slot} {n : Nat}
    (h : ∀ e, n < e.key.source.specificity.rank → (Applies s r e ↔ Applies s' r e)) {top : Entry}
    (htop : Counts s r top) (hn : n < top.key.source.specificity.rank) {e : Entry} :
    Counts s r e ↔ Counts s' r e := by
  have htop' : Applies s' r top := (h top hn).1 htop.applies
  constructor
  · intro he
    have hne : n < e.key.source.specificity.rank :=
      Nat.lt_of_lt_of_le hn (he.narrowest top htop.applies)
    refine ⟨(h e hne).1 he.applies, fun x hx => ?_⟩
    by_cases hnx : n < x.key.source.specificity.rank
    · exact he.narrowest x ((h x hnx).2 hx)
    · omega
  · intro he
    have hne : n < e.key.source.specificity.rank :=
      Nat.lt_of_lt_of_le hn (he.narrowest top htop')
    refine ⟨(h e hne).2 he.applies, fun x hx => ?_⟩
    exact Nat.le_trans (htop.narrowest x hx) (he.narrowest top htop')

/-- The entries that apply are those that the search picks out first. -/
theorem mem_filter_acceptsSource_iff {e : Entry} :
    e ∈ s.filter (fun e => e.acceptsSource r.sourceStop r.sourceTrip) ↔ Applies s r e := by
  rw [List.mem_filter, Entry.acceptsSource, Bool.and_eq_true, decide_eq_true_eq]
  exact ⟨fun h => ⟨h.1, h.2.1, h.2.2⟩, fun h => ⟨h.mem, h.stop_eq, h.accepts⟩⟩

/-- Where what holds of an element holds of all in front of it, the elements it holds of are those
up to the first that it does not hold of. -/
theorem mem_takeWhile_iff_of_pairwise {α : Type} {p : α → Bool} {l : List α}
    (h : l.Pairwise fun a b => p b = true → p a = true) {x : α} :
    x ∈ l.takeWhile p ↔ x ∈ l ∧ p x = true := by
  induction l with
  | nil => simp
  | cons a l ih =>
    obtain ⟨ha, hl⟩ := List.pairwise_cons.1 h
    by_cases hpa : p a = true
    · rw [List.takeWhile_cons_of_pos hpa, List.mem_cons, List.mem_cons, ih hl]
      constructor
      · rintro (rfl | ⟨hx, hpx⟩)
        · exact ⟨.inl rfl, hpa⟩
        · exact ⟨.inr hx, hpx⟩
      · rintro ⟨rfl | hx, hpx⟩
        · exact .inl rfl
        · exact .inr ⟨hx, hpx⟩
    · rw [List.takeWhile_cons_of_neg hpa]
      refine ⟨fun hx => absurd hx List.not_mem_nil, ?_⟩
      rintro ⟨hx, hpx⟩
      rcases List.mem_cons.1 hx with rfl | hx
      · exact absurd hpx hpa
      · exact absurd (ha x hx hpx) hpa

/-- The entries that the search uses stand in the order of the slot. -/
theorem applicable_sublist (s : Slot) (r : BoardingRequest) : (applicable s r).Sublist s := by
  have hfilter : (s.filter fun e => e.acceptsSource r.sourceStop r.sourceTrip).Sublist s :=
    List.filter_sublist
  unfold applicable
  split
  · exact List.nil_sublist s
  · rename_i e rest heq
    rw [heq] at hfilter
    exact ((List.takeWhile_sublist _).cons_cons e).trans hfilter

/-- **The search uses the entries that count**: in a well-formed slot the narrowest of those that
apply stand in front of the others. -/
theorem mem_applicable_iff (h : s.WellFormed) {e : Entry} :
    e ∈ applicable s r ↔ Counts s r e := by
  have hmem : ∀ x, _ ↔ Applies s r x := fun x => mem_filter_acceptsSource_iff
  have hfalling : (s.filter fun e => e.acceptsSource r.sourceStop r.sourceTrip).Pairwise
      fun a b => b.key.source.specificity.rank ≤ a.key.source.specificity.rank := by
    refine (h.ordered.filter _).imp fun {a b} hab => ?_
    rcases Key.weight_le_iff.1 hab with hlt | ⟨heq, -⟩
    · exact Nat.le_of_lt hlt
    · exact Nat.le_of_eq (congrArg Specificity.rank heq)
  unfold applicable
  split
  · rename_i hnil
    rw [hnil] at hmem
    exact ⟨fun he => absurd he List.not_mem_nil,
      fun he => absurd ((hmem e).2 he.applies) List.not_mem_nil⟩
  · rename_i first rest hcons
    rw [hcons] at hmem hfalling
    obtain ⟨hfirst, hrest⟩ := List.pairwise_cons.1 hfalling
    -- the first that applies is a narrowest one, and the entries as narrow as it follow
    have hbound : ∀ x, Applies s r x →
        x.key.source.specificity.rank ≤ first.key.source.specificity.rank := by
      intro x hx
      rcases List.mem_cons.1 ((hmem x).2 hx) with rfl | hx
      · exact Nat.le_refl _
      · exact hfirst x hx
    have hprefix : rest.Pairwise fun a b =>
        decide (b.key.source.specificity = first.key.source.specificity) = true →
          decide (a.key.source.specificity = first.key.source.specificity) = true := by
      refine (List.pairwise_iff_forall_sublist.2 fun {a b} hab => ?_)
      simp only [decide_eq_true_eq, ← Specificity.rank_inj]
      have hba := List.pairwise_iff_forall_sublist.1 hrest hab
      have hle := hfirst a (hab.subset List.mem_cons_self)
      intro hb
      omega
    have hcounts : Counts s r first := ⟨(hmem first).1 List.mem_cons_self, hbound⟩
    rw [List.mem_cons, mem_takeWhile_iff_of_pairwise hprefix, decide_eq_true_eq]
    constructor
    · rintro (rfl | ⟨he, heq⟩)
      · exact hcounts
      · refine ⟨(hmem e).1 (List.mem_cons_of_mem _ he), fun x hx => ?_⟩
        rw [heq]
        exact hbound x hx
    · intro he
      rcases List.mem_cons.1 ((hmem e).2 he.applies) with rfl | hin
      · exact .inl rfl
      · refine .inr ⟨hin, ?_⟩
        rw [(he.source_eq hcounts).2]

/-- The search uses no entry when none applies to the rider. -/
theorem applicable_eq_nil_iff (h : s.WellFormed) : applicable s r = [] ↔ ∀ e, ¬ Counts s r e := by
  rw [List.eq_nil_iff_forall_not_mem]
  exact forall_congr' fun e => not_congr (mem_applicable_iff h)

/-! ## The rule for a trip -/

/-- An entry of a slot prevails for a trip on the searched side: it counts and accepts the trip, and
none that does so has a narrower target side. -/
structure Prevails (s : Slot) (r : BoardingRequest) (t : Trip) (e : Entry) : Prop where
  counts : Counts s r e
  accepts : e.key.target.accepts t = true
  narrowest : ∀ x, Counts s r x → x.key.target.accepts t = true →
    x.key.target.specificity.rank ≤ e.key.target.specificity.rank

/-- Of the entries of a well-formed slot that count at most one of each width accepts a trip on the
searched side. -/
theorem Counts.eq_of_accepts (h : s.WellFormed) {t : Trip} {a b : Entry} (ha : Counts s r a)
    (hb : Counts s r b) (hta : a.key.target.accepts t = true) (htb : b.key.target.accepts t = true)
    (hwidth : a.key.target.specificity = b.key.target.specificity) : a = b := by
  have htarget : a.key.target = b.key.target := Matcher.eq_of_accepts hwidth hta htb
  obtain ⟨hstop, hsource⟩ := ha.source_eq hb
  exact h.eq_of_key_eq ha.applies.mem hb.applies.mem (Key.ext hstop hsource htarget)

/-- At most one entry of a well-formed slot prevails for a trip. -/
theorem Prevails.eq (h : s.WellFormed) {t : Trip} {a b : Entry} (ha : Prevails s r t a)
    (hb : Prevails s r t b) : a = b := by
  have hrank : a.key.target.specificity.rank = b.key.target.specificity.rank :=
    Nat.le_antisymm (hb.narrowest a ha.counts ha.accepts) (ha.narrowest b hb.counts hb.accepts)
  exact ha.counts.eq_of_accepts h hb.counts ha.accepts hb.accepts (Specificity.rank_inj.1 hrank)

/-- The first entry in use that accepts a trip prevails for it. -/
theorem prevails_of_rule? (h : s.WellFormed) {t : Trip} {e : Entry}
    (he : rule? (applicable s r) t = some e) : Prevails s r t e := by
  obtain ⟨hacc, front, rest, hsplit, hfront⟩ := List.find?_eq_some_iff_append.1 he
  have hcounts : Counts s r e := (mem_applicable_iff h).1 (by rw [hsplit]; simp)
  refine ⟨hcounts, hacc, fun x hx hxacc => ?_⟩
  have hmem := (mem_applicable_iff h).2 hx
  have hord := h.ordered.sublist (applicable_sublist s r)
  rw [hsplit] at hmem hord
  rcases List.mem_append.1 hmem with hin | hin
  · have := hfront x hin
    rw [Entry.acceptsTarget, hxacc] at this
    cases this
  rcases List.mem_cons.1 hin with rfl | hin
  · exact Nat.le_refl _
  · -- what follows is no heavier, and has the same source side
    have hle := (List.pairwise_cons.1 (List.pairwise_append.1 hord).2.1).1 x hin
    rcases Key.weight_le_iff.1 hle with hlt | ⟨-, hle⟩
    · rw [(hx.source_eq hcounts).2] at hlt
      exact absurd hlt (Nat.lt_irrefl _)
    · exact hle

/-- **The search goes by the entry that prevails.** -/
theorem rule?_eq_some_iff (h : s.WellFormed) {t : Trip} {e : Entry} :
    rule? (applicable s r) t = some e ↔ Prevails s r t e := by
  refine ⟨prevails_of_rule? h, fun he => ?_⟩
  rcases hrule : rule? (applicable s r) t with _ | x
  · have := List.find?_eq_none.1 hrule e ((mem_applicable_iff h).2 he.counts)
    exact absurd he.accepts this
  · rw [(prevails_of_rule? h hrule).eq h he]

/-- Which entry prevails hangs on which entries count. -/
theorem prevails_congr {s' : Slot} (h : ∀ e, Counts s r e ↔ Counts s' r e) {t : Trip} {e : Entry} :
    Prevails s r t e ↔ Prevails s' r t e :=
  ⟨fun he => ⟨(h e).1 he.counts, he.accepts, fun x hx => he.narrowest x ((h x).2 hx)⟩,
    fun he => ⟨(h e).2 he.counts, he.accepts, fun x hx => he.narrowest x ((h x).1 hx)⟩⟩

/-- Slots in which the same entries count lead to the same rule for every trip, in whatever order
they stand. -/
theorem rule?_congr {s' : Slot} (hs : s.WellFormed) (hs' : s'.WellFormed)
    (h : ∀ e, Counts s r e ↔ Counts s' r e) (t : Trip) :
    rule? (applicable s r) t = rule? (applicable s' r) t := by
  apply Option.ext
  intro e
  rw [rule?_eq_some_iff hs, rule?_eq_some_iff hs']
  exact prevails_congr h

end Search

end Interchange
