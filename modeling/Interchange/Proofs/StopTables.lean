import Interchange.Proofs.Location
import Interchange.Proofs.Rows
import Interchange.Stop.Tables

/-!
# What the stop tables keep

The tables are brought up to date in three steps, and a refused stop may name another station than the one it
was registered with. All the same they agree with each other after every run.

* `StopTables.Represents` — the tables answer as a stop index does. `represents_add` is the step,
  `represents_addAll` the run.
* `StopIndex.stops_addAll` — the index after a run has the first stop for each id, in the order they came.
* `StopTables.registers_addAll` — what follows for the tables: ids and ordinals find each other, ordinals are
  given out in order and stay, stations list their members, and just the calls with an id that is taken fail.
-/

namespace Interchange

/-! ## The index after one more stop -/

namespace StopIndex

variable {s s' : StopIndex} {stop : Stop}

/-- The index after a stop came: with it, or as it was if the id is taken. -/
def offer (s : StopIndex) (stop : Stop) : StopIndex :=
  match s.add? stop with
  | some (s', _) => s'
  | none => s

/-- The index after a row of stops came. -/
def addAll (s : StopIndex) (calls : List Stop) : StopIndex := calls.foldl offer s

/-- A stop whose id is taken leaves the index as it is. -/
theorem offer_of_taken (h : stop.id ∈ s.stops.map (·.id)) : s.offer stop = s := by
  unfold offer add?
  rw [dif_pos h]

/-- A stop with an id of its own comes behind the others. -/
theorem stops_offer_of_free (h : stop.id ∉ s.stops.map (·.id)) :
    (s.offer stop).stops = s.stops ++ [stop] := by
  unfold offer add?
  rw [dif_neg h]

/-- An id has an ordinal when a stop with it is registered. -/
theorem exists_ordinal?_iff {id : StopId} : (∃ o, s.ordinal? id = some o) ↔ id ∈ s.stops.map (·.id) := by
  simp only [ordinal?_eq_some_iff, exists_stopId?_iff, List.mem_map]

/-- It has none when no stop with it is registered. -/
theorem ordinal?_eq_none_iff {id : StopId} : s.ordinal? id = none ↔ id ∉ s.stops.map (·.id) := by
  rw [← exists_ordinal?_iff, ← Option.isSome_iff_exists, Option.not_isSome_iff_eq_none]

/-- One more stop gets the next ordinal, and the other ids keep theirs. -/
theorem ordinal?_offer_of_free (h : stop.id ∉ s.stops.map (·.id)) (id : StopId) :
    (s.offer stop).ordinal? id = if id = stop.id then some ⟨s.size⟩ else s.ordinal? id := by
  have happend : (s.offer stop).ordinal? id =
      (s.ordinal? id).or (if id = stop.id then some ⟨s.size⟩ else none) := by
    unfold ordinal?
    rw [stops_offer_of_free h, List.findIdx?_append, Option.map_or]
    by_cases hid : id = stop.id
    · simp [hid, size]
    · simp [hid, Ne.symm hid]
  rw [happend]
  split
  · rename_i hid
    rw [hid, ordinal?_eq_none_iff.2 h, Option.none_or]
  · rw [Option.or_none]

/-- One more stop is a member of its station, and the other stations keep theirs. -/
theorem members_offer_of_free (h : stop.id ∉ s.stops.map (·.id)) (station : StationId) :
    (s.offer stop).members station =
      s.members station ++ if stop.station = some station then [⟨s.size⟩] else [] := by
  unfold members
  rw [stops_offer_of_free h, List.zipIdx_append, List.filter_append, List.map_append]
  by_cases hstation : stop.station = some station
  · simp [hstation, size]
  · simp [hstation]

/-- **After a run the index has the first stop for each id**, in the order they came. -/
theorem stops_addAll (calls : List Stop) : (empty.addAll calls).stops = firstOfEach Stop.id calls := by
  induction calls using List.reverseRecOn with
  | nil => rfl
  | append_singleton calls stop ih =>
    have hstep : empty.addAll (calls ++ [stop]) = (empty.addAll calls).offer stop := by
      unfold addAll
      rw [List.foldl_append]
      rfl
    rw [hstep, firstOfEach_append_singleton]
    have hmem : stop.id ∈ (empty.addAll calls).stops.map (·.id) ↔ stop.id ∈ calls.map (·.id) := by
      rw [ih]
      exact mem_map_firstOfEach
    by_cases htaken : stop.id ∈ calls.map (·.id)
    · rw [if_pos htaken, offer_of_taken (hmem.2 htaken), ih]
    · rw [if_neg htaken, stops_offer_of_free fun hm => htaken (hmem.1 hm), ih]

/-- The stops that were there stay in front. -/
theorem prefix_addAll (s : StopIndex) (calls : List Stop) : s.stops <+: (s.addAll calls).stops := by
  induction calls generalizing s with
  | nil => exact List.prefix_rfl
  | cons stop calls ih =>
    refine List.IsPrefix.trans ?_ (ih (s.offer stop))
    by_cases htaken : stop.id ∈ s.stops.map (·.id)
    · exact ⟨[], by rw [offer_of_taken htaken, List.append_nil]⟩
    · rw [stops_offer_of_free htaken]
      exact List.prefix_append _ _

/-- A stop that was there keeps its ordinal whatever stops come. -/
theorem getElem?_stops_addAll (calls : List Stop) {n : Nat} (h : n < s.size) :
    (s.addAll calls).stops[n]? = s.stops[n]? := by
  obtain ⟨rest, hrest⟩ := s.prefix_addAll calls
  rw [← hrest, List.getElem?_append_left h]

/-- It is found under its ordinal, -/
theorem stopId?_addAll (calls : List Stop) {o : StopOrdinal} (h : o.index < s.size) :
    (s.addAll calls).stopId? o = s.stopId? o := by
  unfold stopId?
  rw [getElem?_stops_addAll calls h]

/-- and with its station. -/
theorem station?_addAll (calls : List Stop) {o : StopOrdinal} (h : o.index < s.size) :
    (s.addAll calls).station? o = s.station? o := by
  unfold station?
  rw [getElem?_stops_addAll calls h]

/-- The ordinals of the index are the numbers below that of its stops. -/
theorem exists_stopId?_iff_lt_size {o : StopOrdinal} : (∃ id, s.stopId? o = some id) ↔ o.index < s.size := by
  unfold stopId? size
  rw [← Option.isSome_iff_exists, Option.isSome_map, isSome_getElem?]

end StopIndex

/-! ## The tables after one more stop -/

namespace StopTables

variable {t : StopTables} {s : StopIndex} {stop : Stop}

/-- The tables answer as a stop index does. -/
structure Represents (t : StopTables) (s : StopIndex) : Prop where
  row_eq : t.row = s.stops
  ordinal?_eq : ∀ id, t.ordinal? id = s.ordinal? id
  members_eq : ∀ station, t.members station = s.members station

/-- A stop whose id is taken is refused, and the tables stay as they are. -/
theorem add_of_taken {o : StopOrdinal} (h : t.ordinal? stop.id = some o) :
    t.add stop = (t, .error (.duplicateStop stop.id)) :=
  if_pos (Option.isSome_iff_exists.2 ⟨o, h⟩)

/-- What registering a stop with an id of its own does to the three parts, and what it answers. -/
theorem add_of_free (h : t.ordinal? stop.id = none) :
    (t.add stop).1.row = t.row ++ [stop] ∧
      (∀ id, (t.add stop).1.ordinal? id = if id = stop.id then some ⟨t.size⟩ else t.ordinal? id) ∧
      (∀ station, (t.add stop).1.members station =
        t.members station ++ if stop.station = some station then [⟨t.size⟩] else []) ∧
      (t.add stop).2 = .ok ⟨t.size⟩ := by
  have hadd : t.add stop = (_, _) := if_neg (by rw [h]; simp)
  rw [hadd]
  refine ⟨?_, fun id => ?_, fun station => ?_, rfl⟩
  · cases stop.station <;> rfl
  · cases stop.station <;> exact Table.get?_set ..
  · rcases stop.station with _ | home
    · simp [members]
    · simp only [members, Table.listAt_append, Option.some.injEq, eq_comm (a := station)]
      split
      · rename_i hhome
        rw [hhome]
      · rw [List.append_nil]

/-- A stop is refused when its id is taken. -/
theorem exists_fault_add_iff :
    (∃ fault, (t.add stop).2 = .error fault) ↔ ∃ o, t.ordinal? stop.id = some o := by
  rcases hid : t.ordinal? stop.id with _ | o
  · obtain ⟨-, -, -, hok⟩ := add_of_free hid
    simp [hok]
  · rw [add_of_taken hid]
    exact iff_of_true ⟨_, rfl⟩ ⟨o, rfl⟩

/-- A stop that is registered is found under the next ordinal, with its station. -/
theorem found_add_of_free (h : t.ordinal? stop.id = none) :
    (t.add stop).1.stopId? ⟨t.size⟩ = some stop.id ∧ (t.add stop).1.station? ⟨t.size⟩ = stop.station ∧
      (t.add stop).1.size = t.size + 1 := by
  obtain ⟨hrow, -, -, -⟩ := add_of_free h
  unfold stopId? station? size
  rw [hrow]
  simp

/-! ## Tables and index in step -/

/-- Tables and index have as many stops. -/
theorem Represents.size_eq (h : t.Represents s) : t.size = s.size := congrArg List.length h.row_eq

/-- The id of a stop is read off the row. -/
theorem Represents.stopId?_eq (h : t.Represents s) (o : StopOrdinal) : t.stopId? o = s.stopId? o := by
  rw [stopId?, h.row_eq]
  rfl

/-- So is its station. -/
theorem Represents.station?_eq (h : t.Represents s) (o : StopOrdinal) : t.station? o = s.station? o := by
  rw [station?, h.row_eq]
  rfl

/-- Before any stop is registered, tables and index know nothing. -/
theorem represents_empty : empty.Represents StopIndex.empty := ⟨rfl, fun _ => rfl, fun _ => rfl⟩

/-- Tables that answer as an index does still do so when one more stop has come. -/
theorem Represents.add (h : t.Represents s) (stop : Stop) : (t.add stop).1.Represents (s.offer stop) := by
  rcases hid : t.ordinal? stop.id with _ | o
  · have hfree : stop.id ∉ s.stops.map (·.id) :=
      StopIndex.ordinal?_eq_none_iff.1 ((h.ordinal?_eq stop.id).symm.trans hid)
    obtain ⟨hrow, hordinal, hmembers, -⟩ := add_of_free hid
    refine ⟨?_, fun id => ?_, fun station => ?_⟩
    · rw [hrow, StopIndex.stops_offer_of_free hfree, h.row_eq]
    · rw [hordinal, StopIndex.ordinal?_offer_of_free hfree, h.size_eq, h.ordinal?_eq]
    · rw [hmembers, StopIndex.members_offer_of_free hfree, h.size_eq, h.members_eq]
  · have htaken : stop.id ∈ s.stops.map (·.id) :=
      StopIndex.exists_ordinal?_iff.1 ⟨o, (h.ordinal?_eq stop.id).symm.trans hid⟩
    rw [add_of_taken hid, StopIndex.offer_of_taken htaken]
    exact h

/-- The tables after a row of stops came. -/
def addAll (t : StopTables) (calls : List Stop) : StopTables := calls.foldl (fun t stop => (t.add stop).1) t

/-- **Tables and index stay in step**, whatever stops come. -/
theorem Represents.addAll (h : t.Represents s) (calls : List Stop) :
    (t.addAll calls).Represents (s.addAll calls) := by
  induction calls generalizing t s with
  | nil => exact h
  | cons stop calls ih => exact ih (h.add stop)

/-- An ordinal stays with its id and its station, whatever stops come. -/
theorem Represents.lasting (h : t.Represents s) (later : List Stop) {id : StopId} {o : StopOrdinal}
    (ho : t.ordinal? id = some o) :
    (t.addAll later).ordinal? id = some o ∧ (t.addAll later).stopId? o = some id ∧
      (t.addAll later).station? o = t.station? o := by
  have hlater := h.addAll later
  have hid : s.stopId? o = some id := StopIndex.ordinal?_eq_some_iff.1 ((h.ordinal?_eq id).symm.trans ho)
  have hlt : o.index < s.size := StopIndex.exists_stopId?_iff_lt_size.1 ⟨id, hid⟩
  refine ⟨?_, ?_, ?_⟩
  · rw [hlater.ordinal?_eq, StopIndex.ordinal?_eq_some_iff, StopIndex.stopId?_addAll later hlt, hid]
  · rw [hlater.stopId?_eq, StopIndex.stopId?_addAll later hlt, hid]
  · rw [hlater.station?_eq, StopIndex.station?_addAll later hlt, h.station?_eq]

/-! ## A run -/

/-- What the tables know after a row of stops came, and how they take one more. -/
structure Registers (t : StopTables) (calls : List Stop) : Prop where
  /-- An id and an ordinal find each other. -/
  ordinal?_eq_some_iff : ∀ id o, t.ordinal? id = some o ↔ t.stopId? o = some id
  /-- The ordinals are the numbers below that of the stops. -/
  exists_stopId?_iff : ∀ o, (∃ id, t.stopId? o = some id) ↔ o.index < t.size
  /-- The registered ids are those that came. -/
  exists_ordinal?_iff : ∀ id, (∃ o, t.ordinal? id = some o) ↔ ∃ stop ∈ calls, stop.id = id
  /-- Stops are numbered in the order in which they were the first to come with their id. -/
  stopId?_eq : ∀ n, t.stopId? ⟨n⟩ = (firstOfEach Stop.id calls)[n]?.map (·.id)
  /-- They belong to the station that they came with then. -/
  station?_eq : ∀ n, t.station? ⟨n⟩ = (firstOfEach Stop.id calls)[n]?.bind (·.station)
  /-- The members of a station are listed by rising ordinal. -/
  rising_members : ∀ station, (t.members station).Pairwise fun a b => a.index < b.index
  /-- They are just the stops that belong to it. -/
  mem_members_iff : ∀ station o, o ∈ t.members station ↔ t.station? o = some station
  /-- A stop fails to be registered when its id is taken. -/
  fails_iff : ∀ stop, (∃ fault, (t.add stop).2 = .error fault) ↔ ∃ o, t.ordinal? stop.id = some o
  /-- Then the id is told, and nothing changes. -/
  add_of_taken : ∀ stop o, t.ordinal? stop.id = some o → t.add stop = (t, .error (.duplicateStop stop.id))
  /-- Otherwise it gets the next ordinal. -/
  add_of_free : ∀ stop, t.ordinal? stop.id = none →
    (t.add stop).2 = .ok ⟨t.size⟩ ∧ (t.add stop).1.stopId? ⟨t.size⟩ = some stop.id ∧
      (t.add stop).1.station? ⟨t.size⟩ = stop.station ∧ (t.add stop).1.size = t.size + 1
  /-- An ordinal stays with its id and its station, whatever stops come later. -/
  lasting : ∀ later id o, t.ordinal? id = some o →
    (t.addAll later).ordinal? id = some o ∧ (t.addAll later).stopId? o = some id ∧
      (t.addAll later).station? o = t.station? o

/-- **The stop tables stay consistent.** After every row of stops, refused ones among them, they answer as the
stop index does: ids and ordinals find each other, the ordinals are dense, given out in order and lasting, each
station lists its members in order, and just the stops whose id is taken are refused, without any effect. -/
theorem registers_addAll (calls : List Stop) :
    (empty.addAll calls).Registers calls ∧
      (empty.addAll calls).Represents (StopIndex.empty.addAll calls) := by
  have h := represents_empty.addAll calls
  have hstops := StopIndex.stops_addAll calls
  generalize empty.addAll calls = t at h
  generalize StopIndex.empty.addAll calls = s at h hstops
  refine ⟨?_, h⟩
  constructor
  case ordinal?_eq_some_iff =>
    intro id o
    rw [h.ordinal?_eq, h.stopId?_eq]
    exact StopIndex.ordinal?_eq_some_iff
  case exists_stopId?_iff =>
    intro o
    simp only [h.stopId?_eq, h.size_eq]
    exact StopIndex.exists_stopId?_iff_lt_size
  case exists_ordinal?_iff =>
    intro id
    simp only [h.ordinal?_eq]
    rw [StopIndex.exists_ordinal?_iff, hstops, mem_map_firstOfEach, List.mem_map]
  case stopId?_eq =>
    intro n
    rw [h.stopId?_eq, StopIndex.stopId?, hstops]
  case station?_eq =>
    intro n
    rw [h.station?_eq, StopIndex.station?, hstops]
  case rising_members =>
    intro station
    rw [h.members_eq]
    exact s.rising_members station
  case mem_members_iff =>
    intro station o
    rw [h.members_eq, h.station?_eq]
    exact StopIndex.mem_members_iff
  case fails_iff => exact fun stop => exists_fault_add_iff
  case add_of_taken => exact fun stop o ho => add_of_taken ho
  case add_of_free =>
    intro stop hid
    obtain ⟨-, -, -, hok⟩ := add_of_free hid
    exact ⟨hok, found_add_of_free hid⟩
  case lasting => exact fun later id o ho => h.lasting later ho

end StopTables

end Interchange
