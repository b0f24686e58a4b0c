import Interchange.Search

/-!
# The scan as a choice among candidates

The scan carries a count and a list along and stops in four ways. What it comes to can be read off the
trips in reach, each with its verdict.

* `Search.Candidate`, `Search.survey` — a trip in reach with its time and its verdict, and the
  candidates in a row of trips.
* `Search.Decides`, `Search.Patient` — a candidate that ends the scan behind others, and the others
  that do not make it give up.
* `Search.pick` — the candidate that is chosen. `boarding?_scan` — the scan leads to that one;
  `pick_eq_some_iff` — it is the first that decides, with a patient row in front of it.
-/

namespace Interchange

namespace Search

variable {d : Direction} {cfg : SearchConfig} {r : BoardingRequest} {rules : List Entry}
  {p : Position}

/-! ## Candidates -/

/-- A trip in reach, with the time of its event and what the rules mean for it. -/
structure Candidate where
  trip : Trip
  time : Time
  verdict : Verdict

/-- The boarding of a candidate. -/
def Candidate.boarding (c : Candidate) (stop : StopOrdinal) (p : Position) (r : BoardingRequest) :
    Boarding :=
  ⟨c.trip.index, c.trip.id, p, stop, c.time, r.earliest, c.verdict.constraint⟩

/-- The candidate that a trip is, if it is in reach. -/
def candidate? (d : Direction) (cfg : SearchConfig) (r : BoardingRequest) (rules : List Entry)
    (p : Position) (t : Trip) : Option Candidate :=
  (d.eventTime? t p).bind fun time =>
    if d.isBefore time r.sourceTime then none
    else some ⟨t, time, judge d cfg r (rule? rules t) time⟩

/-- The candidates in a row of trips. -/
def survey (d : Direction) (cfg : SearchConfig) (r : BoardingRequest) (rules : List Entry)
    (p : Position) (trips : List Trip) : List Candidate :=
  trips.filterMap (candidate? d cfg r rules p)

/-- What makes a trip a candidate. -/
theorem candidate?_eq_some_iff {t : Trip} {c : Candidate} :
    candidate? d cfg r rules p t = some c ↔
      c.trip = t ∧ d.eventTime? t p = some c.time ∧ d.isBefore c.time r.sourceTime = false ∧
        c.verdict = judge d cfg r (rule? rules t) c.time := by
  unfold candidate?
  rw [Option.bind_eq_some_iff]
  constructor
  · rintro ⟨time, htime, h⟩
    split at h
    · cases h
    · rename_i hbefore
      cases h
      exact ⟨rfl, htime, by simpa using hbefore, rfl⟩
  · rintro ⟨rfl, htime, hbefore, hverdict⟩
    refine ⟨c.time, htime, ?_⟩
    rw [if_neg (by simp [hbefore]), ← hverdict]

/-- The candidates in a row of trips are its trips in reach, each with its time and the verdict on it. -/
theorem mem_survey_iff {trips : List Trip} {c : Candidate} :
    c ∈ survey d cfg r rules p trips ↔
      c.trip ∈ trips ∧ d.eventTime? c.trip p = some c.time ∧ d.isBefore c.time r.sourceTime = false ∧
        c.verdict = judge d cfg r (rule? rules c.trip) c.time := by
  unfold survey
  rw [List.mem_filterMap]
  simp only [candidate?_eq_some_iff]
  constructor
  · rintro ⟨t, ht, rfl, h⟩
    exact ⟨ht, h⟩
  · rintro ⟨ht, h⟩
    exact ⟨c.trip, ht, rfl, h⟩

/-- The candidates hang on the rule for each trip. -/
theorem survey_congr {rules' : List Entry} (h : ∀ t, rule? rules t = rule? rules' t)
    (trips : List Trip) : survey d cfg r rules p trips = survey d cfg r rules' p trips := by
  have hcandidate : candidate? d cfg r rules p = candidate? d cfg r rules' p := by
    funext t
    unfold candidate?
    rw [h t]
  unfold survey
  rw [hcandidate]

/-! ## Which candidate ends the scan -/

/-- Whether a verdict ends the scan wherever it is met. -/
def Verdict.settles : Verdict → Bool
  | .blocked => true
  | .facilitated _ => true
  | .timeMet _ => true
  | _ => false

/-- A candidate decides behind others: its verdict settles the matter, or it is ordinary and stands
in for a forbidden trip in front of it. -/
def Decides (front : List Candidate) (c : Candidate) : Prop :=
  c.verdict.settles = true ∨ (c.verdict = .ordinary ∧ ∃ x ∈ front, x.verdict = .forbidden)

instance (front : List Candidate) (c : Candidate) : Decidable (Decides front c) :=
  inferInstanceAs (Decidable (_ ∨ _))

/-- No candidate of a row decides behind those in front of it. -/
def Undecided (row : List Candidate) : Prop :=
  ∀ front c rest, row = front ++ c :: rest → ¬ Decides front c

/-- The number of ordinary candidates in a row. -/
def ordinaryCount (row : List Candidate) : Nat := row.countP fun c => c.verdict = .ordinary

/-- A row has fewer ordinary candidates than make the scan give up; a single one never does where the
limit is zero. -/
def Patient (cfg : SearchConfig) (row : List Candidate) : Prop :=
  ordinaryCount row < max 1 cfg.abortAfter

instance (cfg : SearchConfig) (row : List Candidate) : Decidable (Patient cfg row) :=
  inferInstanceAs (Decidable (_ < _))

/-- In the empty row none decides. -/
theorem undecided_nil : Undecided [] := by
  intro front c rest heq
  cases front <;> cases heq

/-- The empty row is patient. -/
theorem patient_nil : Patient cfg [] := by
  unfold Patient
  exact Nat.lt_of_lt_of_le Nat.one_pos (Nat.le_max_left 1 _)

/-- A row in which none decides goes on with one that does not decide behind it. -/
theorem Undecided.concat {front : List Candidate} (h : Undecided front) {c : Candidate}
    (hc : ¬ Decides front c) : Undecided (front ++ [c]) := by
  intro a x b heq
  rcases List.eq_nil_or_concat b with rfl | ⟨b, y, rfl⟩
  · obtain ⟨rfl, hcx⟩ := List.append_inj' heq rfl
    cases hcx
    exact hc
  · rw [List.concat_eq_append, ← List.cons_append, ← List.append_assoc] at heq
    exact h a x b (List.append_inj' heq rfl).1

/-- The start of a patient row is patient. -/
theorem Patient.of_append {front rest : List Candidate} (h : Patient cfg (front ++ rest)) :
    Patient cfg front := by
  unfold Patient ordinaryCount at *
  rw [List.countP_append] at h
  omega

/-- The candidate that is chosen behind others: the first that decides, unless the row in front of it
is not patient. -/
def pick (cfg : SearchConfig) (front : List Candidate) : List Candidate → Option Candidate
  | [] => none
  | c :: rest =>
    if Decides front c then some c
    else if Patient cfg (front ++ [c]) then pick cfg (front ++ [c]) rest
    else none

/-- **Which candidate is chosen** behind a patient row in which none decides: the one in front of
which no other decides and the row is patient. -/
theorem pick_eq_some_iff {front cs : List Candidate} (hund : Undecided front)
    (hpat : Patient cfg front) {c : Candidate} :
    pick cfg front cs = some c ↔ ∃ mid rest, cs = mid ++ c :: rest ∧
      Undecided (front ++ mid) ∧ Decides (front ++ mid) c ∧ Patient cfg (front ++ mid) := by
  induction cs generalizing front with
  | nil => simp [pick]
  | cons x cs ih =>
    unfold pick
    constructor
    · intro h
      split at h
      · rename_i hx
        cases h
        refine ⟨[], cs, rfl, ?_⟩
        rw [List.append_nil]
        exact ⟨hund, hx, hpat⟩
      · rename_i hx
        split at h
        · rename_i hpat'
          obtain ⟨mid, rest, rfl, hmid⟩ := (ih (hund.concat hx) hpat').1 h
          rw [List.append_assoc] at hmid
          exact ⟨x :: mid, rest, rfl, hmid⟩
        · cases h
    · rintro ⟨mid, rest, heq, hund', hc, hpat'⟩
      cases mid with
      | nil =>
        rw [List.append_nil] at hc
        cases heq
        rw [if_pos hc]
      | cons y mid =>
        cases heq
        have hx : ¬ Decides front x := hund' front x mid rfl
        rw [← List.singleton_append, ← List.append_assoc] at hund' hc hpat'
        rw [if_neg hx, if_pos hpat'.of_append]
        exact (ih (hund.concat hx) hpat'.of_append).2 ⟨mid, rest, rfl, hund', hc, hpat'⟩

/-- The chosen candidate is one of the row. -/
theorem mem_of_pick {cs : List Candidate} {c : Candidate} (h : pick cfg [] cs = some c) : c ∈ cs := by
  obtain ⟨mid, rest, rfl, -⟩ := (pick_eq_some_iff undecided_nil patient_nil).1 h
  exact List.mem_append_right mid List.mem_cons_self

/-- Two verdicts have the same effect on the scan: they settle the matter, are ordinary and forbid the trip
alike. -/
structure Verdict.SameEffect (v w : Verdict) : Prop where
  settles_eq : v.settles = w.settles
  ordinary_iff : v = .ordinary ↔ w = .ordinary
  forbidden_iff : v = .forbidden ↔ w = .forbidden

/-- A verdict has the effect that it has. -/
theorem Verdict.SameEffect.refl (v : Verdict) : v.SameEffect v := ⟨rfl, Iff.rfl, Iff.rfl⟩

/-- The choice looks at the effect of verdicts alone: where each candidate is replaced by one whose verdict
has the same effect, the replacement of the chosen one is chosen. -/
theorem pick_map {f : Candidate → Candidate} (hf : ∀ c, (f c).verdict.SameEffect c.verdict)
    (front cs : List Candidate) :
    pick cfg (front.map f) (cs.map f) = (pick cfg front cs).map f := by
  have hdecides : ∀ front c, Decides (front.map f) (f c) ↔ Decides front c := by
    intro front c
    have hforbidden : (∃ x ∈ front.map f, x.verdict = .forbidden) ↔
        ∃ x ∈ front, x.verdict = .forbidden := by
      constructor
      · rintro ⟨_, hmem, hv⟩
        obtain ⟨x, hx, rfl⟩ := List.mem_map.1 hmem
        exact ⟨x, hx, (hf x).forbidden_iff.1 hv⟩
      · rintro ⟨x, hx, hv⟩
        exact ⟨f x, List.mem_map_of_mem hx, (hf x).forbidden_iff.2 hv⟩
    unfold Decides
    rw [(hf c).settles_eq, (hf c).ordinary_iff, hforbidden]
  have hpatient : ∀ front, Patient cfg (front.map f) ↔ Patient cfg front := by
    intro front
    unfold Patient ordinaryCount
    rw [List.countP_map]
    simp only [Function.comp_def, (hf _).ordinary_iff]
  induction cs generalizing front with
  | nil => rfl
  | cons c cs ih =>
    have hgrow : front.map f ++ [f c] = (front ++ [c]).map f := by simp
    rw [List.map_cons]
    unfold pick
    simp only [hdecides, hgrow, hpatient, ih]
    by_cases hc : Decides front c
    · rw [if_pos hc, if_pos hc]
      rfl
    · rw [if_neg hc, if_neg hc]
      split <;> rfl

/-! ## The scan -/

/-- What a scan has passed when it has passed a row of candidates. -/
def Passed.along (row : List Candidate) : Passed :=
  ⟨(row.filter fun c => c.verdict = .forbidden).map (·.trip.id), ordinaryCount row⟩

/-- A row passes on what it had, and the candidate behind it. -/
theorem along_concat (front : List Candidate) (c : Candidate) :
    Passed.along (front ++ [c]) =
      ⟨(Passed.along front).forbidden ++ (if c.verdict = .forbidden then [c.trip.id] else []),
        (Passed.along front).ordinary + (if c.verdict = .ordinary then 1 else 0)⟩ := by
  unfold Passed.along ordinaryCount
  rw [List.filter_append, List.map_append, List.countP_append, List.countP_singleton]
  by_cases hf : c.verdict = .forbidden <;> simp [hf]

/-- A forbidden trip was passed when one of the row is forbidden. -/
theorem forbidden_along_ne_nil_iff {row : List Candidate} :
    (Passed.along row).forbidden ≠ [] ↔ ∃ x ∈ row, x.verdict = .forbidden := by
  unfold Passed.along
  simp [List.filter_eq_nil_iff]

/-- A row stays patient with a candidate that is not ordinary. -/
theorem Patient.concat {front : List Candidate} (h : Patient cfg front) {c : Candidate}
    (hc : c.verdict ≠ .ordinary) : Patient cfg (front ++ [c]) := by
  unfold Patient ordinaryCount at *
  rw [List.countP_append, List.countP_singleton, if_neg (by simpa using hc)]
  exact h

/-- A row stays patient with an ordinary candidate unless that one makes the scan give up. -/
theorem patient_concat_iff {front : List Candidate} {c : Candidate} (hc : c.verdict = .ordinary) :
    Patient cfg (front ++ [c]) ↔ ¬ cfg.abortAfter ≤ (Passed.along front).ordinary + 1 := by
  unfold Patient Passed.along ordinaryCount
  rw [List.countP_append, List.countP_singleton, if_pos (by simpa using hc)]
  dsimp only
  omega

/-- A trip out of reach is passed without a trace. -/
theorem scan_cons_of_out_of_reach {t : Trip} {time : Time} (htime : d.eventTime? t p = some time)
    (h : candidate? d cfg r rules p t = none) (rest : List Trip) (passed : Passed) :
    scan d cfg r rules p (t :: rest) passed = scan d cfg r rules p rest passed := by
  have hbefore : d.isBefore time r.sourceTime = true := by
    unfold candidate? at h
    rw [htime, Option.bind_some] at h
    split at h
    · assumption
    · cases h
  rw [scan, htime]
  exact if_pos hbefore

/-- **What one candidate does to the scan** behind a patient row: it is found if it decides; otherwise
the row grows by it, and the scan goes on if the row is still patient. -/
theorem scan_cons_of_candidate {t : Trip} {c : Candidate}
    (hc : candidate? d cfg r rules p t = some c) (rest : List Trip) {front : List Candidate}
    (hpat : Patient cfg front) :
    scan d cfg r rules p (t :: rest) (.along front) =
      if Decides front c then (.along front, .found c.trip c.time c.verdict)
      else if Patient cfg (front ++ [c]) then scan d cfg r rules p rest (.along (front ++ [c]))
      else (.along front, .gaveUp ((Passed.along front).ordinary + 1)) := by
  obtain ⟨rfl, htime, hbefore, hverdict⟩ := candidate?_eq_some_iff.1 hc
  obtain ⟨trip, time, verdict⟩ := c
  dsimp only at htime hbefore hverdict
  rw [scan, htime]
  simp only [hbefore, Bool.false_eq_true, if_false]
  rw [← hverdict]
  clear hc hverdict
  have hsettles : ∀ v, Verdict.settles v = true → Decides front ⟨trip, time, v⟩ := fun _ h => .inl h
  have hpasses : ∀ v, Verdict.settles v = false → v ≠ .ordinary →
      ¬ Decides front ⟨trip, time, v⟩ ∧ Patient cfg (front ++ [⟨trip, time, v⟩]) := by
    intro v hv hne
    exact ⟨by simp [Decides, hv, hne], hpat.concat hne⟩
  cases verdict with
  | blocked => exact (if_pos (hsettles _ rfl)).symm
  | facilitated k => exact (if_pos (hsettles _ rfl)).symm
  | timeMet n => exact (if_pos (hsettles _ rfl)).symm
  | forbidden =>
    obtain ⟨hnot, hpat'⟩ := hpasses .forbidden rfl (by decide)
    rw [if_neg hnot, if_pos hpat', along_concat]
    rfl
  | timeUnmet =>
    obtain ⟨hnot, hpat'⟩ := hpasses .timeUnmet rfl (by decide)
    rw [if_neg hnot, if_pos hpat', along_concat]
    simp
  | tooEarly =>
    obtain ⟨hnot, hpat'⟩ := hpasses .tooEarly rfl (by decide)
    rw [if_neg hnot, if_pos hpat', along_concat]
    simp
  | ordinary =>
    by_cases hforbidden : ∃ x ∈ front, x.verdict = .forbidden
    · have hdecides : Decides front ⟨trip, time, .ordinary⟩ := .inr ⟨rfl, hforbidden⟩
      rw [if_pos hdecides]
      exact if_pos (forbidden_along_ne_nil_iff.2 hforbidden)
    · have hundecided : ¬ Decides front ⟨trip, time, .ordinary⟩ := by
        rintro (h | ⟨-, h⟩)
        · cases h
        · exact hforbidden h
      rw [if_neg hundecided, if_neg (mt forbidden_along_ne_nil_iff.1 hforbidden), along_concat]
      by_cases hpat' : Patient cfg (front ++ [⟨trip, time, .ordinary⟩])
      · rw [if_pos hpat', if_neg ((patient_concat_iff rfl).1 hpat')]
        simp
      · rw [if_neg hpat']
        exact if_pos (Decidable.not_not.1 (mt (patient_concat_iff rfl).2 hpat'))

/-- **The scan leads to the candidate that is chosen** behind what it has passed. -/
theorem boarding?_scan {stop : StopOrdinal} {trips : List Trip}
    (htimes : ∀ t ∈ trips, ∃ time, d.eventTime? t p = some time) {front : List Candidate}
    (hpat : Patient cfg front) :
    (scan d cfg r rules p trips (.along front)).2.boarding? stop p r =
      (pick cfg front (survey d cfg r rules p trips)).map fun c => c.boarding stop p r := by
  induction trips generalizing front with
  | nil => rfl
  | cons t trips ih =>
    obtain ⟨time, htime⟩ := htimes t List.mem_cons_self
    have hrest : ∀ t ∈ trips, ∃ time, d.eventTime? t p = some time := fun t ht =>
      htimes t (List.mem_cons_of_mem _ ht)
    unfold survey
    rw [List.filterMap_cons]
    rcases hc : candidate? d cfg r rules p t with _ | c
    · rw [scan_cons_of_out_of_reach htime hc]
      exact ih hrest hpat
    · rw [scan_cons_of_candidate hc trips hpat]
      unfold pick
      by_cases hdec : Decides front c
      · rw [if_pos hdec, if_pos hdec]
        rfl
      · rw [if_neg hdec, if_neg hdec]
        by_cases hpat' : Patient cfg (front ++ [c])
        · rw [if_pos hpat', if_pos hpat']
          exact ih hrest hpat'
        · rw [if_neg hpat', if_neg hpat']
          rfl

end Search

end Interchange
