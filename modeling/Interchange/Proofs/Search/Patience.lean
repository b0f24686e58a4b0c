import Interchange.Proofs.Search.Postponement

/-!
# Scans that give up later

A scan gives up after a number of ordinary trips. Where it gives up later it goes on where the other one
stopped, so it may find a boarding there, and all that was found before is found again.

* `Search.judge_congr_definitive`, `Search.survey_congr_definitive` — what the rules mean for a trip does not
  hang on when the scan gives up.
* `Search.inSlot?_of_patient` — a search that is patient wherever another one is finds what that one finds.
* `Search.boarding?_more_patient` — so does one that gives up later; and two that give up behind more trips
  than there are find the same.
-/

namespace Interchange

namespace Search

variable {d : Direction} {cfg cfg' : SearchConfig} {r : BoardingRequest} {s : Slot} {p : Position}
  {pattern : Pattern}

/-- The verdict on a trip hangs on how minimum times are treated, not on when the scan gives up. -/
theorem judge_congr_definitive (h : cfg'.definitiveMinTime = cfg.definitiveMinTime) (rule : Option Entry)
    (time : Time) : judge d cfg' r rule time = judge d cfg r rule time := by
  have hrequired : ∀ seconds, required d cfg' r seconds = required d cfg r seconds := by
    intro seconds
    simp [required, h]
  unfold judge
  simp only [hrequired]

/-- So do the candidates in a row of trips. -/
theorem survey_congr_definitive (h : cfg'.definitiveMinTime = cfg.definitiveMinTime) (rules : List Entry)
    (trips : List Trip) : survey d cfg' r rules p trips = survey d cfg r rules p trips := by
  unfold survey candidate?
  simp only [judge_congr_definitive h]

/-- A row with which one scan is patient is one with which a scan that gives up later is patient. -/
theorem Patient.mono (h : cfg.abortAfter ≤ cfg'.abortAfter) {row : List Candidate} (hpat : Patient cfg row) :
    Patient cfg' row := by
  unfold Patient at *
  omega

/-- **What one search finds another one finds**, if that one treats minimum times alike and is patient with
every start of the row of candidates with which the first is. -/
theorem inSlot?_of_patient {b : Boarding} (h : inSlot? d cfg pattern s p r = some b)
    (hdefinitive : cfg'.definitiveMinTime = cfg.definitiveMinTime)
    (hpatient : ∀ front rest,
      survey d cfg r (applicable s r) p (d.order pattern.trips) = front ++ rest →
        Patient cfg front → Patient cfg' front) :
    inSlot? d cfg' pattern s p r = some b := by
  obtain ⟨happ, stop, hstop, c, hc, rfl⟩ := inSlot?_eq_some_iff.1 h
  refine inSlot?_eq_some_iff.2 ⟨happ, stop, hstop, c, ?_, rfl⟩
  -- the same candidate decides, and the row in front of it is the same
  obtain ⟨front, rest, hrow, hund, hdec, hpat⟩ := (pick_eq_some_iff undecided_nil patient_nil).1 hc
  rw [List.nil_append] at hund hdec hpat
  rw [survey_congr_definitive hdefinitive]
  exact (pick_eq_some_iff undecided_nil patient_nil).2
    ⟨front, rest, hrow, hund, hdec, hpatient front _ hrow hpat⟩

/-- **Giving up later only adds boardings.** Of two searches that differ in when they give up, the one that
gives up later finds every boarding that the other finds, the very same. And two that give up only behind
more ordinary trips than the pattern has trips find the same. -/
theorem boarding?_more_patient (d : Direction) (definitive : Bool) (pattern : Pattern) (i : RuleIndex)
    (p : Position) (r : BoardingRequest) :
    (∀ m n, m ≤ n → ∀ b, boarding? d ⟨definitive, m⟩ pattern i p r = some b →
      boarding? d ⟨definitive, n⟩ pattern i p r = some b) ∧
    ∀ m n, pattern.trips.length < m → pattern.trips.length < n →
      boarding? d ⟨definitive, m⟩ pattern i p r = boarding? d ⟨definitive, n⟩ pattern i p r := by
  unfold boarding?
  refine ⟨fun m n hmn b hb => ?_, fun m n hm hn => ?_⟩
  · refine inSlot?_of_patient hb rfl fun front _ _ hpat => ?_
    exact hpat.mono hmn
  · -- neither gives up, so each finds what the other one finds
    have hfinds : ∀ m n, pattern.trips.length < n → ∀ b,
        inSlot? d ⟨definitive, m⟩ pattern (i.slot p) p r = some b →
          inSlot? d ⟨definitive, n⟩ pattern (i.slot p) p r = some b := by
      intro m n hn b hb
      refine inSlot?_of_patient hb rfl fun front rest hrow _ => ?_
      exact patient_of_length_lt hn ((survey_congr_definitive rfl _ _).trans hrow)
    apply Option.ext
    intro b
    exact ⟨hfinds m n hn b, hfinds n m hm b⟩

end Search

end Interchange
