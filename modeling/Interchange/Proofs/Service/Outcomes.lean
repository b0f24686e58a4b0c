import Interchange.Proofs.Network.Consistency
import Interchange.Proofs.Json.Decoding
import Interchange.Service

/-!
# What a search request comes to

The body of a search request is read, its fields are turned into a query, and the things that the query names
are looked up. Each step may fail, and the status of the response tells how far it got: 400 where there is no
query, 404 where something that it names is not recorded, and 200 where it was searched for.

* `SearchRequest.Malformed`, `SearchRequest.Means` — what keeps a request from being a query, and the query that
  it is. `SearchRequest.query_eq_ok_iff`, `SearchRequest.exists_means_iff`.
* `Snapshot.FirstUnknown` — the first thing that a query names and that is not recorded.
  `Network.boarding_eq_error_iff` — just this is what a search fails for.
* `BadBody`, `Asks` — the bodies without a query, and the query of any other.
* `Boarding.ToldBy` — the value that tells a boarding, member by member. `Boarding.toldBy_json` — it is the one
  that is sent.
* `Service.Outcomes` — which response a body gets. `Service.outcomes_search` — every body gets it.
-/

namespace Interchange

/-! ## Requests -/

namespace ServiceFault

/-- The texts of identifiers are those that are not empty, and each stands for its own. -/
theorem check_parse_eq_ok_iff {kind : IdKind} {text : String} {a : Id kind} :
    check (Id.parse text) = .ok a ↔ text = a.text := by
  unfold Id.parse
  constructor
  · intro h
    rcases hid : (Id.ofString? text : Option (Id kind)) with _ | b
    · rw [hid] at h
      cases h
    · rw [hid] at h
      cases h
      unfold Id.ofString? at hid
      split at hid
      · cases hid
      · cases hid
        rfl
  · rintro rfl
    rw [Id.ofString?_text]
    rfl

/-- A clock text in a request stands for the time that is read from it. -/
theorem check_read_eq_ok_iff {text : String} {t : Time} :
    check (Time.read text) = .ok t ↔ Time.parse text = .ok t := by
  unfold Time.read
  rcases Time.parse text with fault | t' <;> simp [check]

/-- A step in reading a request fails as a bad request only. -/
def FailsAsBad {α : Type} (x : Except ServiceFault α) : Prop :=
  ∀ fault, x = .error fault → fault.status = 400

/-- A step that does not fail does not fail otherwise. -/
theorem failsAsBad_ok {α : Type} (a : α) : FailsAsBad (.ok a) := by
  intro fault h
  cases h

/-- A step that fails as a bad request fails so only. -/
theorem failsAsBad_error {α : Type} {fault : ServiceFault} (h : fault.status = 400) :
    FailsAsBad (.error fault : Except ServiceFault α) := by
  intro fault' h'
  cases h'
  exact h

/-- What is done in two steps fails as a bad request only, if both steps do. -/
theorem FailsAsBad.bind {α β : Type} {x : Except ServiceFault α} {f : α → Except ServiceFault β}
    (hx : FailsAsBad x) (hf : ∀ a, FailsAsBad (f a)) : FailsAsBad (x >>= f) := by
  rcases x with fault | a
  · exact failsAsBad_error (hx fault rfl)
  · exact hf a

/-- A value that is rejected makes for a bad request. -/
theorem failsAsBad_check {α : Type} (x : Except InvalidValue α) : FailsAsBad (check x) := by
  rcases x with value | a
  · exact failsAsBad_error rfl
  · exact failsAsBad_ok a

end ServiceFault

namespace SearchRequest

/-- A request that is no query: not exactly one of the two earliest times is given, the one that is given is no
clock text or no length of time, an identifier is empty, or the source time is no clock text. A length of time is
not negative, and its milliseconds fit in 63 bits. -/
inductive Malformed (r : SearchRequest) : Prop
  | bothOrNeither (h : r.earliest.isSome = r.slackSeconds.isSome)
  | earliest {text : String} {fault : ClockFault} (h : r.earliest = some text)
      (hparse : Time.parse text = .error fault)
  | slack {seconds : Int} (h : r.slackSeconds = some seconds)
      (hrange : seconds < 0 ∨ 9223372036854775 < seconds)
  | pattern (h : r.pattern = "")
  | sourceTrip (h : r.sourceTrip = "")
  | sourceStop (h : r.sourceStop = "")
  | sourceTime {fault : ClockFault} (h : Time.parse r.sourceTime = .error fault)

/-- The earliest ordinary time that a request gives: by a clock text, or by a length of time of so many
seconds, which is kept in milliseconds. -/
inductive GivesEarliest (r : SearchRequest) : Network.Earliest → Prop
  | at {text : String} {t : Time} (h : r.earliest = some text) (hnone : r.slackSeconds = none)
      (hparse : Time.parse text = .ok t) : r.GivesEarliest (.at t)
  | slack {seconds : Int} (hnone : r.earliest = none) (h : r.slackSeconds = some seconds)
      (hnonneg : 0 ≤ seconds) (hle : seconds ≤ 9223372036854775) :
      r.GivesEarliest (.slack ⟨1000 * seconds⟩)

/-- The query that a request is, field by field. -/
structure Means (r : SearchRequest) (q : Network.Query) : Prop where
  pattern : r.pattern = q.pattern.text
  position : r.position = q.position
  direction : r.direction = q.direction
  sourceTrip : r.sourceTrip = q.sourceTrip.text
  sourceStop : r.sourceStop = q.sourceStop.text
  sourceTime : Time.parse r.sourceTime = .ok q.sourceTime
  earliest : r.GivesEarliest q.earliest

variable {r : SearchRequest}

/-- The earliest time is read off the one field of the two that is given. -/
theorem earliestTime_eq_ok_iff {e : Network.Earliest} : r.earliestTime = .ok e ↔ r.GivesEarliest e := by
  unfold earliestTime
  constructor
  · intro h
    split at h
    · rename_i text ht hs
      obtain ⟨t, hread, h⟩ := bind_eq_ok_iff.1 h
      cases h
      exact .at ht hs (ServiceFault.check_read_eq_ok_iff.1 hread)
    · rename_i seconds ht hs
      split at h
      · rename_i hrange
        cases h
        exact .slack ht hs hrange.1 hrange.2
      · cases h
    · cases h
  · rintro (⟨ht, hs, hparse⟩ | ⟨ht, hs, hnonneg, hle⟩)
    · rw [ht, hs]
      exact bind_eq_ok_iff.2 ⟨_, ServiceFault.check_read_eq_ok_iff.2 hparse, rfl⟩
    · rw [ht, hs]
      exact if_pos ⟨hnonneg, hle⟩

/-- **Which query is made of a request.** -/
theorem query_eq_ok_iff {q : Network.Query} : r.query = .ok q ↔ r.Means q := by
  unfold query
  simp only [bind_eq_ok_iff, earliestTime_eq_ok_iff, ServiceFault.check_parse_eq_ok_iff,
    ServiceFault.check_read_eq_ok_iff]
  constructor
  · rintro ⟨e, he, pattern, hpattern, trip, htrip, stop, hstop, time, htime, h⟩
    cases h
    exact ⟨hpattern, rfl, rfl, htrip, hstop, htime, he⟩
  · rintro ⟨hpattern, hposition, hdirection, htrip, hstop, htime, he⟩
    refine ⟨_, he, _, hpattern, _, htrip, _, hstop, _, htime, ?_⟩
    rw [hposition, hdirection]
    rfl

/-- A request that gives no earliest time is a bad request. -/
theorem failsAsBad_earliestTime (r : SearchRequest) : ServiceFault.FailsAsBad r.earliestTime := by
  unfold earliestTime
  split
  · exact (ServiceFault.failsAsBad_check _).bind fun t => ServiceFault.failsAsBad_ok _
  · split
    · exact ServiceFault.failsAsBad_ok _
    · exact ServiceFault.failsAsBad_error rfl
  · exact ServiceFault.failsAsBad_error rfl

/-- A request that is no query is a bad request, whatever the first thing that is wrong with it. -/
theorem failsAsBad_query (r : SearchRequest) : ServiceFault.FailsAsBad r.query := by
  unfold query
  refine (failsAsBad_earliestTime r).bind fun e => ?_
  refine (ServiceFault.failsAsBad_check _).bind fun pattern => ?_
  refine (ServiceFault.failsAsBad_check _).bind fun trip => ?_
  refine (ServiceFault.failsAsBad_check _).bind fun stop => ?_
  exact (ServiceFault.failsAsBad_check _).bind fun time => ServiceFault.failsAsBad_ok _

/-- A malformed request is no query. -/
theorem Malformed.not_means (h : r.Malformed) {q : Network.Query} : ¬ r.Means q := by
  intro hq
  have he := hq.earliest
  generalize q.earliest = e at he
  cases h with
  | bothOrNeither h => cases he <;> simp_all
  | earliest h hparse =>
    cases he with
    | «at» ht _ hread =>
      cases h.symm.trans ht
      cases hparse.symm.trans hread
    | slack ht _ _ _ => cases h.symm.trans ht
  | slack h hrange =>
    cases he with
    | «at» _ hs _ => cases h.symm.trans hs
    | slack _ hs hnonneg hle =>
      cases h.symm.trans hs
      omega
  | pattern h => exact q.pattern.text_ne_empty (hq.pattern.symm.trans h)
  | sourceTrip h => exact q.sourceTrip.text_ne_empty (hq.sourceTrip.symm.trans h)
  | sourceStop h => exact q.sourceStop.text_ne_empty (hq.sourceStop.symm.trans h)
  | sourceTime h => cases h.symm.trans hq.sourceTime

/-- A request gives an earliest time unless that is what is wrong with it. -/
theorem exists_givesEarliest (h : ¬ r.Malformed) : ∃ e, r.GivesEarliest e := by
  rcases ht : r.earliest with _ | text
  · rcases hs : r.slackSeconds with _ | seconds
    · exact absurd (.bothOrNeither (by rw [ht, hs]; rfl)) h
    · have hrange : ¬ (seconds < 0 ∨ 9223372036854775 < seconds) := fun hrange => h (.slack hs hrange)
      exact ⟨_, .slack ht hs (by omega) (by omega)⟩
  · rcases hs : r.slackSeconds with _ | seconds
    · rcases hparse : Time.parse text with fault | t
      · exact absurd (.earliest ht hparse) h
      · exact ⟨_, .at ht hs hparse⟩
    · exact absurd (.bothOrNeither (by rw [ht, hs]; rfl)) h

/-- **A request is a query unless it is malformed.** -/
theorem exists_means_iff : (∃ q, r.Means q) ↔ ¬ r.Malformed := by
  constructor
  · rintro ⟨q, hq⟩ h
    exact h.not_means hq
  · intro h
    obtain ⟨e, he⟩ := exists_givesEarliest h
    rcases hparse : Time.parse r.sourceTime with fault | t
    · exact absurd (.sourceTime hparse) h
    · exact ⟨⟨⟨r.pattern, fun hnil => h (.pattern hnil)⟩, r.position, r.direction,
        ⟨r.sourceTrip, fun hnil => h (.sourceTrip hnil)⟩,
        ⟨r.sourceStop, fun hnil => h (.sourceStop hnil)⟩, t, e⟩,
        rfl, rfl, rfl, rfl, rfl, hparse, he⟩

end SearchRequest

/-! ## What is not recorded -/

/-- The first thing that a query names and that is not recorded: the pattern, then the trip, then the stop. -/
inductive Snapshot.FirstUnknown (s : Snapshot) (q : Network.Query) : QueryFault → Prop
  | pattern (h : ¬ s.HasPattern q.pattern) : s.FirstUnknown q (.unknownPattern q.pattern)
  | trip (hpattern : s.HasPattern q.pattern) (h : ¬ s.HasTrip q.sourceTrip) :
      s.FirstUnknown q (.unknownTrip q.sourceTrip)
  | stop (hpattern : s.HasPattern q.pattern) (htrip : s.HasTrip q.sourceTrip)
      (h : ¬ s.HasStop q.sourceStop) : s.FirstUnknown q (.unknownStop q.sourceStop)

namespace Network

variable {s : Snapshot} {n : Network}

/-- A lookup finds nothing where what makes it find something does not hold. -/
theorem eq_none_iff_not {α : Type} {x : Option α} {P : Prop} (h : (∃ a, x = some a) ↔ P) :
    x = none ↔ ¬ P := by
  rw [← h]
  cases x <;> simp

/-- **What a query fails for** is the first thing that it names and that is not recorded. -/
theorem resolve_eq_error_iff (hn : build s = .ok n) {q : Query} {fault : QueryFault} :
    n.resolve q = .error fault ↔ s.FirstUnknown q fault := by
  have hpattern : n.patternWithRules? q.pattern = none ↔ ¬ s.HasPattern q.pattern :=
    eq_none_iff_not (exists_patternWithRules?_iff hn)
  have htrip : n.locate? q.sourceTrip = none ↔ ¬ s.HasTrip q.sourceTrip :=
    eq_none_iff_not (exists_locate?_iff hn)
  have hstop : n.timetable.stops.ordinal? q.sourceStop = none ↔ ¬ s.HasStop q.sourceStop :=
    eq_none_iff_not (exists_ordinal?_iff hn)
  unfold resolve
  constructor
  · intro h
    rcases hp : n.patternWithRules? q.pattern with _ | ⟨p, rules⟩
    · rw [hp] at h
      cases h
      exact .pattern (hpattern.1 hp)
    have hpattern' : s.HasPattern q.pattern := (exists_patternWithRules?_iff hn).1 ⟨_, hp⟩
    rcases ht : n.locate? q.sourceTrip with _ | ⟨pt, t⟩
    · rw [hp, ht] at h
      cases h
      exact .trip hpattern' (htrip.1 ht)
    have htrip' : s.HasTrip q.sourceTrip := (exists_locate?_iff hn).1 ⟨_, ht⟩
    rcases ho : n.timetable.stops.ordinal? q.sourceStop with _ | o
    · rw [hp, ht, ho] at h
      cases h
      exact .stop hpattern' htrip' (hstop.1 ho)
    · rw [hp, ht, ho] at h
      cases h
  · rintro (h | ⟨hp, h⟩ | ⟨hp, ht, h⟩)
    · rw [hpattern.2 h]
    · obtain ⟨e, he⟩ := (exists_patternWithRules?_iff hn).2 hp
      rw [he, htrip.2 h]
    · obtain ⟨e, he⟩ := (exists_patternWithRules?_iff hn).2 hp
      obtain ⟨x, hx⟩ := (exists_locate?_iff hn).2 ht
      rw [he, hx, hstop.2 h]

/-- A search fails for what its query fails for. -/
theorem boarding_eq_error_iff (hn : build s = .ok n) {cfg : SearchConfig} {q : Query} {fault : QueryFault} :
    n.boarding cfg q = .error fault ↔ s.FirstUnknown q fault := by
  rw [← resolve_eq_error_iff hn]
  unfold boarding
  rcases n.resolve q with failure | ⟨p, index, r⟩ <;> simp

end Network

/-! ## Bodies -/

/-- A body that stands for no query: it holds no request, or a malformed one. -/
inductive BadBody (body : List UInt8) : Prop
  | undecodable {fault : DecodeFault} (h : SearchRequest.format.ofSource (Utf8.decode body) = .error fault)
  | malformed {r : SearchRequest} (h : SearchRequest.format.ofSource (Utf8.decode body) = .ok r)
      (hmalformed : r.Malformed)

/-- A body asks a query: it holds a request that means the query. -/
def Asks (body : List UInt8) (q : Network.Query) : Prop :=
  ∃ r, SearchRequest.format.ofSource (Utf8.decode body) = .ok r ∧ r.Means q

/-! ## Answers -/

/-- A constraint in an answer: an object with its kind, and with the seconds of a minimum transfer time. -/
def Constraint.told : Constraint → Json
  | .regular => .obj [("type", .str "regular")]
  | .guaranteed => .obj [("type", .str "guaranteed")]
  | .staySeated => .obj [("type", .str "stay_seated")]
  | .notAllowed => .obj [("type", .str "not_allowed")]
  | .minTransferTime seconds => .obj [("type", .str "min_transfer_time"), ("seconds", .nat seconds.toNat)]

/-- A value tells a boarding: it is an object with the number and the id of the trip, the position, the id of the
stop, the two times as clock texts and the constraint. Where the stop belongs to a station, the id of that stands
behind that of the stop. -/
inductive Boarding.ToldBy (stops : StopIndex) (b : Boarding) : Json → Prop
  | alone {stop : StopId} (hstop : stops.stopId? b.stop = some stop) (hstation : stops.station? b.stop = none) :
      ToldBy stops b (.obj
        [("trip_index", .nat b.tripIndex), ("trip", .str b.trip.text), ("stop_position", .nat b.position),
          ("stop", .str stop.text), ("time", .str b.time.text), ("earliest_board_time", .str b.earliest.text),
          ("constraint", b.constraint.told)])
  | atStation {stop : StopId} {station : StationId} (hstop : stops.stopId? b.stop = some stop)
      (hstation : stops.station? b.stop = some station) :
      ToldBy stops b (.obj
        [("trip_index", .nat b.tripIndex), ("trip", .str b.trip.text), ("stop_position", .nat b.position),
          ("stop", .str stop.text), ("station", .str station.text), ("time", .str b.time.text),
          ("earliest_board_time", .str b.earliest.text), ("constraint", b.constraint.told)])

/-- A constraint is written as it is told. -/
theorem Constraint.encode_eq_told (c : Constraint) : Constraint.format.encode c = c.told := by
  cases c <;> rfl

/-- **What is sent for a boarding tells it**, if its stop is registered. -/
theorem Boarding.toldBy_json {stops : StopIndex} {b : Boarding} {stop : StopId}
    (hstop : stops.stopId? b.stop = some stop) :
    b.ToldBy stops (BoardingAnswer.ofBoarding stops b).json := by
  unfold BoardingAnswer.ofBoarding BoardingAnswer.json
  rw [hstop, Constraint.encode_eq_told]
  rcases hstation : stops.station? b.stop with _ | station
  · exact .alone hstop hstation
  · exact .atStation hstop hstation

namespace Service

/-- The query that is read from a body is the one that it asks. -/
theorem readQuery_eq_ok_iff {body : List UInt8} {q : Network.Query} :
    readQuery (Utf8.decode body) = .ok q ↔ Asks body q := by
  unfold readQuery Asks
  rcases SearchRequest.format.ofSource (Utf8.decode body) with fault | r
  · simp
  · simp [SearchRequest.query_eq_ok_iff]

/-- A body without a query is a bad request, whatever the first thing that is wrong with it. -/
theorem failsAsBad_readQuery (body : List UInt8) : ServiceFault.FailsAsBad (readQuery (Utf8.decode body)) := by
  unfold readQuery
  rcases SearchRequest.format.ofSource (Utf8.decode body) with fault | r
  · exact ServiceFault.failsAsBad_error rfl
  · exact r.failsAsBad_query

/-- A body asks a query unless it is bad. -/
theorem exists_asks_iff {body : List UInt8} : (∃ q, Asks body q) ↔ ¬ BadBody body := by
  constructor
  · rintro ⟨q, r, hr, hq⟩ (h | ⟨h, hmalformed⟩)
    · cases h.symm.trans hr
    · cases h.symm.trans hr
      exact hmalformed.not_means hq
  · intro h
    rcases hr : SearchRequest.format.ofSource (Utf8.decode body) with fault | r
    · exact absurd (.undecodable hr) h
    · obtain ⟨q, hq⟩ := SearchRequest.exists_means_iff.2 fun hmalformed => h (.malformed hr hmalformed)
      exact ⟨q, r, hr, hq⟩

/-! ## Responses -/

variable (sv : Service)

/-- The response to a search request with a body. -/
def searchResponse (body : List UInt8) : HttpResponse :=
  (sv.respond ⟨"POST", "/transfers/search", body⟩).1

/-- The path of a search request leads to the search. -/
theorem ofPath?_search : Route.ofPath? "/transfers/search".toList = some .search := by
  have hpieces : Split.pieces '/' "/transfers/search".toList =
      [[], "transfers".toList, "search".toList] := by decide
  unfold Route.ofPath?
  rw [hpieces]
  rfl

/-- The response says what the search with the body came to. -/
theorem searchResponse_eq (body : List UInt8) :
    sv.searchResponse body =
      respondWith (fun b => Json.obj [("boarding", Json.orNull BoardingAnswer.json b)])
        (sv.search (Utf8.decode body)) := by
  have htarget : Split.cut '#' "/transfers/search".toList = ("/transfers/search".toList, none) := by decide
  have hpath : Split.cut '?' "/transfers/search".toList = ("/transfers/search".toList, none) := by decide
  unfold searchResponse respond
  rw [htarget]
  dsimp only
  rw [hpath]
  dsimp only
  rw [ofPath?_search]
  rfl

/-- Which response the body of a search request gets from a service for a snapshot. It is one of three, and
which one hangs on the body and the snapshot. -/
structure Outcomes (sv : Service) (s : Snapshot) (body : List UInt8) : Prop where
  /-- Every body gets a response. -/
  total : (sv.searchResponse body).status = 400 ∨ (sv.searchResponse body).status = 404 ∨
    (sv.searchResponse body).status = 200
  /-- The bad bodies are refused as such, and nothing else is. -/
  bad_iff : (sv.searchResponse body).status = 400 ↔ BadBody body
  /-- Just the queries that name something unknown are refused for that. -/
  unknown_iff : (sv.searchResponse body).status = 404 ↔ ∃ q fault, Asks body q ∧ s.FirstUnknown q fault
  /-- Just the other queries are answered. -/
  answered_iff : (sv.searchResponse body).status = 200 ↔
    ∃ q, Asks body q ∧ ∀ fault, ¬ s.FirstUnknown q fault
  /-- The refusal of a bad body tells what is wrong. -/
  bad : BadBody body → ∃ message,
    sv.searchResponse body = ⟨400, .json (.obj [("error", .str message)])⟩
  /-- The refusal of a query names the pattern if that is not recorded, -/
  unknownPattern : ∀ q, Asks body q → ¬ s.HasPattern q.pattern →
    sv.searchResponse body = ⟨404, .json (.obj [("error", .str ("unknown pattern " ++ q.pattern.text))])⟩
  /-- or else the trip if that is not, -/
  unknownTrip : ∀ q, Asks body q → s.HasPattern q.pattern → ¬ s.HasTrip q.sourceTrip →
    sv.searchResponse body = ⟨404, .json (.obj [("error", .str ("unknown trip " ++ q.sourceTrip.text))])⟩
  /-- or else the stop. -/
  unknownStop : ∀ q, Asks body q → s.HasPattern q.pattern → s.HasTrip q.sourceTrip → ¬ s.HasStop q.sourceStop →
    sv.searchResponse body = ⟨404, .json (.obj [("error", .str ("unknown stop " ++ q.sourceStop.text))])⟩
  /-- Any other query is searched for, -/
  searched : ∀ q, Asks body q → (∀ fault, ¬ s.FirstUnknown q fault) → ∃ b,
    sv.network.boarding sv.config q = .ok b
  /-- and answered with the boarding that the search leads to, -/
  boarding : ∀ q b, Asks body q → sv.network.boarding sv.config q = .ok (some b) → ∃ value,
    b.ToldBy sv.network.timetable.stops value ∧
      sv.searchResponse body = ⟨200, .json (.obj [("boarding", value)])⟩
  /-- or with `null` where it leads to none. -/
  noBoarding : ∀ q, Asks body q → sv.network.boarding sv.config q = .ok none →
    sv.searchResponse body = ⟨200, .json (.obj [("boarding", .null)])⟩

variable {sv} {s : Snapshot} {body : List UInt8}

/-- A bad body is refused with a message. -/
theorem searchResponse_of_badBody (h : BadBody body) : ∃ message,
    sv.searchResponse body = ⟨400, .json (.obj [("error", .str message)])⟩ := by
  rw [searchResponse_eq]
  unfold search
  rcases hread : readQuery (Utf8.decode body) with fault | q
  · refine ⟨fault.message, ?_⟩
    rw [← failsAsBad_readQuery body fault hread]
    rfl
  · exact absurd h (exists_asks_iff.1 ⟨q, readQuery_eq_ok_iff.1 hread⟩)

/-- What a search comes to hangs on the query of its body. -/
theorem search_of_asks {q : Network.Query} (hq : Asks body q) :
    sv.search (Utf8.decode body) =
      match sv.network.boarding sv.config q with
      | .ok b => .ok (b.map (BoardingAnswer.ofBoarding sv.network.timetable.stops))
      | .error fault => .error (.unknown fault) := by
  unfold search
  rw [readQuery_eq_ok_iff.2 hq]
  rfl

/-- A query that names something unknown is refused with the first such thing. -/
theorem searchResponse_of_unknown (hn : Network.build s = .ok sv.network) {q : Network.Query}
    {fault : QueryFault} (hq : Asks body q) (h : s.FirstUnknown q fault) :
    sv.searchResponse body = ⟨404, .json (.obj [("error", .str fault.message)])⟩ := by
  rw [searchResponse_eq, search_of_asks hq, (Network.boarding_eq_error_iff hn).2 h]
  rfl

/-- A query that leads to a boarding is answered with a value that tells it. -/
theorem exists_searchResponse_of_boarding (hn : Network.build s = .ok sv.network) {q : Network.Query}
    {b : Boarding} (hq : Asks body q) (hb : sv.network.boarding sv.config q = .ok (some b)) : ∃ value,
    b.ToldBy sv.network.timetable.stops value ∧
      sv.searchResponse body = ⟨200, .json (.obj [("boarding", value)])⟩ := by
  obtain ⟨stop, hstop⟩ := Network.exists_stopId?_of_boarding (Network.sound_of_build hn) hb
  refine ⟨_, Boarding.toldBy_json hstop, ?_⟩
  rw [searchResponse_eq, search_of_asks hq, hb]
  rfl

/-- A query that leads to none is answered with `null`. -/
theorem searchResponse_of_noBoarding {q : Network.Query} (hq : Asks body q)
    (hb : sv.network.boarding sv.config q = .ok none) :
    sv.searchResponse body = ⟨200, .json (.obj [("boarding", .null)])⟩ := by
  rw [searchResponse_eq, search_of_asks hq, hb]
  rfl

/-- A query that names nothing unknown is searched for. -/
theorem exists_boarding_of_known (hn : Network.build s = .ok sv.network) {q : Network.Query}
    (h : ∀ fault, ¬ s.FirstUnknown q fault) : ∃ b, sv.network.boarding sv.config q = .ok b := by
  rcases hb : sv.network.boarding sv.config q with fault | b
  · exact absurd ((Network.boarding_eq_error_iff hn).1 hb) (h fault)
  · exact ⟨b, rfl⟩

/-- Of three things that lead to statuses of their own, each is so just where its status is given. -/
theorem eq_iff_of_cases {P Q R : Prop} {status a b c : Nat} (h : P ∨ Q ∨ R) (hp : P → status = a)
    (hq : Q → status = b) (hr : R → status = c) (hb : a ≠ b) (hc : a ≠ c) : status = a ↔ P := by
  refine ⟨fun hstatus => ?_, hp⟩
  rcases h with h | h | h
  · exact h
  · exact absurd (hstatus.symm.trans (hq h)) hb
  · exact absurd (hstatus.symm.trans (hr h)) hc

/-- **A search request has one of three outcomes, and they do not overlap.** Whatever the network, the settings
and the body: a body is a bad request exactly when it holds no request or a malformed one; of the others, just
those that name a pattern, a trip or a stop that is not recorded are not found, and the first of them is told;
and all the others are answered with what the search for their query leads to. -/
theorem outcomes_search (hn : Network.build s = .ok sv.network) (body : List UInt8) :
    sv.Outcomes s body := by
  have h400 : BadBody body → (sv.searchResponse body).status = 400 := by
    intro h
    obtain ⟨message, hmessage⟩ := searchResponse_of_badBody h
    rw [hmessage]
  have h404 : (∃ q fault, Asks body q ∧ s.FirstUnknown q fault) → (sv.searchResponse body).status = 404 := by
    rintro ⟨q, fault, hq, h⟩
    rw [searchResponse_of_unknown hn hq h]
  have h200 : (∃ q, Asks body q ∧ ∀ fault, ¬ s.FirstUnknown q fault) →
      (sv.searchResponse body).status = 200 := by
    rintro ⟨q, hq, h⟩
    obtain ⟨b, hb⟩ := exists_boarding_of_known hn h
    rcases b with _ | b
    · rw [searchResponse_of_noBoarding hq hb]
    · obtain ⟨value, -, hresponse⟩ := exists_searchResponse_of_boarding hn hq hb
      rw [hresponse]
  -- one of the three holds, and the status tells which
  have hcases : BadBody body ∨ (∃ q fault, Asks body q ∧ s.FirstUnknown q fault) ∨
      ∃ q, Asks body q ∧ ∀ fault, ¬ s.FirstUnknown q fault := by
    by_cases hbad : BadBody body
    · exact .inl hbad
    · obtain ⟨q, hq⟩ := exists_asks_iff.2 hbad
      by_cases hknown : ∀ fault, ¬ s.FirstUnknown q fault
      · exact .inr (.inr ⟨q, hq, hknown⟩)
      · obtain ⟨fault, hfault⟩ := not_forall_not.1 hknown
        exact .inr (.inl ⟨q, fault, hq, hfault⟩)
  exact
    { total := hcases.imp h400 (Or.imp h404 h200)
      bad_iff := eq_iff_of_cases hcases h400 h404 h200 (by decide) (by decide)
      unknown_iff := eq_iff_of_cases (or_left_comm.1 hcases) h404 h400 h200 (by decide) (by decide)
      answered_iff := eq_iff_of_cases (or_rotate.1 (or_rotate.1 hcases)) h200 h400 h404 (by decide) (by decide)
      bad := searchResponse_of_badBody
      unknownPattern := fun q hq h => searchResponse_of_unknown hn hq (.pattern h)
      unknownTrip := fun q hq hpattern h => searchResponse_of_unknown hn hq (.trip hpattern h)
      unknownStop := fun q hq hpattern htrip h => searchResponse_of_unknown hn hq (.stop hpattern htrip h)
      searched := fun q _ => exists_boarding_of_known hn
      boarding := fun q b => exists_searchResponse_of_boarding hn
      noBoarding := fun q => searchResponse_of_noBoarding }

/-- The body of a search for the next trip in the middle of the crossing, for riders of a trip who come from a
stop. -/
def crossingBody (trip stop : String) : List UInt8 :=
  Utf8.encode ("\x7b\"pattern\":\"Q\",\"stop_position\":0,\"source_trip\":\"" ++ trip ++
    "\",\"source_stop\":\"" ++ stop ++
    "\",\"source_time\":\"00:10\",\"earliest_board_time\":\"00:11:40\"\x7d")

/-- At the crossing riders of its first trip who come from the stop in the middle are told the trip that is held
for them, and those who come from the first stop that no rule decides. A trip that is not recorded is not found,
and one without a name is a bad request. -/
theorem outcomes_search_crossing : ∃ n, Network.build Network.storedCrossing = .ok n ∧
    (Service.mk n .default).Outcomes Network.storedCrossing (crossingBody "a" "B") ∧
    (Service.mk n .default).searchResponse (crossingBody "a" "B") = ⟨200, .json (.obj [("boarding", .obj
      [("trip_index", .nat 1), ("trip", .str "d"), ("stop_position", .nat 0), ("stop", .str "B"),
        ("time", .str "00:14"), ("earliest_board_time", .str "00:11:40"),
        ("constraint", .obj [("type", .str "guaranteed")])])])⟩ ∧
    (Service.mk n .default).searchResponse (crossingBody "a" "A") =
      ⟨200, .json (.obj [("boarding", .null)])⟩ ∧
    (Service.mk n .default).searchResponse (crossingBody "z" "B") =
      ⟨404, .json (.obj [("error", .str "unknown trip z")])⟩ ∧
    ((Service.mk n .default).searchResponse (crossingBody "" "B")).status = 400 := by
  obtain ⟨n, hn, hheld, hnone⟩ : ∃ n, Network.build Network.storedCrossing = .ok n ∧
      n.boarding .default Network.heldQuery = .ok (some
        { tripIndex := 1
          trip := ⟨"d", by decide⟩
          position := 0
          stop := ⟨1⟩
          time := .ofInt 840
          earliest := .ofInt 700
          constraint := .guaranteed }) ∧
      n.boarding .default { Network.heldQuery with sourceStop := Timetable.stopA } = .ok none :=
    ⟨_, rfl, rfl, rfl⟩
  have houtcomes (trip stop : String) :
      (Service.mk n .default).Outcomes Network.storedCrossing (crossingBody trip stop) :=
    outcomes_search hn _
  have hasks : Asks (crossingBody "a" "B") Network.heldQuery := by
    refine readQuery_eq_ok_iff.1 (eq_ok_of_toOption ?_)
    decide +kernel
  have hasks' : Asks (crossingBody "a" "A") { Network.heldQuery with sourceStop := Timetable.stopA } := by
    refine readQuery_eq_ok_iff.1 (eq_ok_of_toOption ?_)
    decide +kernel
  have hasks'' : Asks (crossingBody "z" "B") { Network.heldQuery with sourceTrip := ⟨"z", by decide⟩ } := by
    refine readQuery_eq_ok_iff.1 (eq_ok_of_toOption ?_)
    decide +kernel
  refine ⟨n, hn, houtcomes "a" "B", ?_, (houtcomes "a" "A").noBoarding _ hasks' hnone,
    (houtcomes "z" "B").unknownTrip _ hasks'' ?_ ?_, (houtcomes "" "B").bad_iff.2 ?_⟩
  · obtain ⟨value, htold, hresponse⟩ := (houtcomes "a" "B").boarding _ _ hasks hheld
    rw [hresponse]
    cases hn
    cases htold with
    | alone hstop _ =>
      cases hstop
      rfl
    | atStation _ hstation => cases hstation
  · unfold Snapshot.HasPattern
    decide
  · unfold Snapshot.HasTrip
    decide
  · have hread : SearchRequest.format.ofSource (Utf8.decode (crossingBody "" "B")) =
        .ok ⟨"Q", 0, .forward, "", "B", "00:10", some "00:11:40", none⟩ := by
      apply eq_ok_of_toOption
      decide +kernel
    exact .malformed hread (.sourceTrip rfl)

end Service

end Interchange
