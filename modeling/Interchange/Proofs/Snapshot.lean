import Interchange.Proofs.Json.RoundTrip
import Interchange.Proofs.Network.ClockTimes
import Interchange.Proofs.RuleBook.Contents
import Interchange.Proofs.Time.Writing

/-!
# Data sets are read from their own text

What is read from a text, whichever of its forms the text has, is written in one form of its own, and that is
read as the same data set: with and without stations, with departures left out and with departures that are the
arrivals, for every kind of point and of constraint.

* `Snapshot.Storable` — a data set has only times and positions that a text can hold.
* `Snapshot.yields_storable` — every data set that is read is storable. `Snapshot.restores_format` — every
  storable data set is restored.
* `Snapshot.ofString_toString` — a data set that is read from any text is read from its own.
-/

namespace Interchange

variable {k : Nat}

/-! ## Single values -/

/-- Every identifier is restored. -/
theorem Id.restores_format {kind : IdKind} (a : Id kind) : Id.format.Restores k a := by
  apply Format.Restores.checked (Format.restores_text a.text)
  rw [parse, ofString?_text]

/-- So is a member that holds one. -/
theorem Id.restores_field {kind : IdKind} (name : String) (a : Id kind) :
    (Record.field name Id.format).Restores k a :=
  .field name (restores_format a)

/-- Every time on the clock is restored. -/
theorem Time.restores_format {t : Time} (h : t.OnClock) : Time.format.Restores k t := by
  apply Format.Restores.checked (Format.restores_text t.text)
  rw [read, parse_text h]

/-- Every number of seconds is restored. -/
theorem Constraint.restores_secondsFormat (n : UInt32) : secondsFormat.Restores k n := by
  apply Format.Restores.map
  · exact Format.restores_natural n.toNat_lt (by decide)
  · exact UInt32.ofNat_toNat

/-! ## Rules -/

/-- A constraint without members is restored under its tag. -/
theorem Constraint.restores_bare {c : Constraint} {name : String}
    (hview : view c = (name, [])) (hlookup : variants.lookup name = some (Members.nothing.map fun _ => c)) :
    Constraint.format.Restores (k + 1) c :=
  Format.restores_tagged Record.restores_nothing hview hlookup rfl nofun

/-- Every constraint is restored. -/
theorem Constraint.restores_format (c : Constraint) : Constraint.format.Restores (k + 1) c := by
  cases c with
  | regular => exact restores_bare rfl rfl
  | guaranteed => exact restores_bare rfl rfl
  | staySeated => exact restores_bare rfl rfl
  | notAllowed => exact restores_bare rfl rfl
  | minTransferTime seconds =>
    have hmembers : secondsField.Restores k seconds := .field "seconds" (restores_secondsFormat seconds)
    exact Format.restores_tagged hmembers rfl rfl rfl (by decide)

/-- A point can be stored when its position, if it has one, fits a 64-bit word. -/
def Point.Storable : Point → Prop
  | .trip _ p => p < Decimal.wordBound
  | _ => True

/-- Every point that is read can be stored. -/
theorem Point.yields_format : Point.format.Yields Point.Storable := by
  apply Format.Yields.tagged
  have hplaces : ∀ {α : Type} {m : Members α} {make : α → Point}, (∀ x, (make x).Storable) →
      (m.map make).Yields Point.Storable :=
    fun h => (Members.yields_true _).map fun x _ => h x
  simp only [variants, List.forall_mem_cons]
  refine ⟨hplaces ?_, hplaces ?_, hplaces ?_, hplaces ?_, ?_, nofun⟩
  · exact fun _ => trivial
  · exact fun _ => trivial
  · exact fun _ => trivial
  · exact fun _ => trivial
  · refine ((Members.yields_true _).and (Record.yields_field (Format.yields_natural _))).map ?_
    rintro ⟨id, position⟩ h
    exact h.2

/-- Every point that can be stored is restored. -/
theorem Point.restores_format {p : Point} (h : p.Storable) : Point.format.Restores (k + 1) p := by
  cases p with
  | anywhere place =>
    cases place with
    | stop id => exact Format.restores_tagged (Id.restores_field "stop" id) rfl rfl rfl (by decide)
    | station id => exact Format.restores_tagged (Id.restores_field "station" id) rfl rfl rfl (by decide)
  | route id place =>
    have hroute := Id.restores_field (k := k) "route" id
    cases place with
    | stop stop =>
      have hmembers := hroute.and (Id.restores_field "stop" stop) (by decide)
      exact Format.restores_tagged hmembers rfl rfl rfl (by decide)
    | station station =>
      have hmembers := hroute.and (Id.restores_field "station" station) (by decide)
      exact Format.restores_tagged hmembers rfl rfl rfl (by decide)
  | trip id position =>
    have htrip := Id.restores_field (k := k) "trip" id
    have hposition : positionField.Restores k position :=
      .field "stop_position" (Format.restores_natural h (Nat.le_refl _))
    have hmembers := htrip.and hposition (by decide)
    exact Format.restores_tagged hmembers rfl rfl rfl (by decide)

/-- A recorded rule can be stored when its points can. -/
structure Transfer.Storable (t : Transfer) : Prop where
  origin : t.origin.Storable
  destination : t.destination.Storable

/-- Every recorded rule that is read can be stored. -/
theorem Transfer.yields_format : Transfer.format.Yields Transfer.Storable := by
  apply Record.yields_format
  have hpoint : ∀ name, (Record.field name Point.format).toMembers.Yields Point.Storable :=
    fun _ => Record.yields_field Point.yields_format
  refine ((Members.yields_true _).and ((hpoint "from").and ((hpoint "to").and (Members.yields_true _)))).map ?_
  intro t ht
  exact ⟨ht.2.1, ht.2.2.1⟩

/-- Every recorded rule that can be stored is restored. -/
theorem Transfer.restores_format {t : Transfer} (h : t.Storable) : Transfer.format.Restores (k + 2) t := by
  apply Record.Restores.format
  refine Record.Restores.map ?_ rfl
  have hid := Id.restores_field (k := k + 1) "id" t.id
  have horigin := Record.Restores.field "from" (Point.restores_format (k := k) h.origin)
  have hdestination := Record.Restores.field "to" (Point.restores_format (k := k) h.destination)
  have hconstraint := Record.Restores.field "constraint" (Constraint.restores_format (k := k) t.constraint)
  exact hid.and (horigin.and (hdestination.and hconstraint (by decide)) (by decide)) (by decide)

/-! ## Stops, trips and patterns -/

/-- Every stop is restored, with a station and without. -/
theorem Stop.restores_format (s : Stop) : Stop.format.Restores (k + 1) s := by
  apply Record.Restores.format
  refine Record.Restores.map ?_ rfl
  have hid := Id.restores_field (k := k) "id" s.id
  have hstation : (Record.fieldOpt "station" Id.format true).Restores k s.station :=
    .fieldOpt "station" (fun a _ => Id.restores_format a) nofun
  exact hid.and hstation (by decide)

/-- Times on the clock are restored as a row. -/
theorem Time.restores_row {ts : List Time} (h : ∀ t ∈ ts, t.OnClock) :
    Time.format.list.Restores (k + 1) ts :=
  Format.Restores.list fun t ht => restores_format (h t ht)

/-- Every trip with times on the clock is restored. Departures that are left out stay so, even if the arrivals
mean the same. -/
theorem TripRecord.restores_format {r : TripRecord} (h : r.OnClock) :
    TripRecord.format.Restores (k + 2) r := by
  apply Record.Restores.format
  refine Record.Restores.map ?_ rfl
  have hid := Id.restores_field (k := k + 1) "id" r.id
  have harrivals := Record.Restores.field "arrivals" (Time.restores_row (k := k) h.arrivals)
  have hdepartures : (Record.fieldOpt "departures" Time.format.list true).Restores (k + 1) r.departures :=
    .fieldOpt "departures" (fun ts hts => Time.restores_row (h.departures ts hts)) nofun
  exact hid.and (harrivals.and hdepartures (by decide)) (by decide)

/-- Every pattern whose trips have times on the clock is restored. -/
theorem PatternRecord.restores_format {r : PatternRecord} (h : ∀ t ∈ r.trips, t.OnClock) :
    PatternRecord.format.Restores (k + 4) r := by
  apply Record.Restores.format
  refine Record.Restores.map ?_ rfl
  have hid := Id.restores_field (k := k + 3) "id" r.id
  have hroute := Id.restores_field (k := k + 3) "route" r.route
  have hstops : Id.format.list.Restores (k + 3) r.stops :=
    .list fun a _ => Id.restores_format a
  have htrips : TripRecord.format.list.Restores (k + 3) r.trips :=
    .list fun t ht => TripRecord.restores_format (h t ht)
  exact hid.and (hroute.and ((Record.Restores.field "stops" hstops).and (.fieldOr "trips" htrips) (by decide))
    (by decide)) (by decide)

/-! ## Data sets -/

namespace Snapshot

/-- A data set can be stored when its times are on the clock and the points of its rules can be. -/
structure Storable (s : Snapshot) : Prop where
  times : s.OnClock
  transfers : ∀ t ∈ s.transfers, t.Storable

/-- Every data set that is read can be stored. -/
theorem yields_storable : Snapshot.format.Yields Storable := by
  have htransfers : Snapshot.format.Yields fun s => ∀ t ∈ s.transfers, t.Storable := by
    apply Record.yields_format
    refine ((Members.yields_true _).and ((Members.yields_true _).and
      (Record.yields_fieldOr Transfer.yields_format.list (List.forall_mem_nil _)))).map ?_
    intro s hs
    exact hs.2.2
  intro depth v s hs
  exact ⟨yields_format depth v s hs, htransfers depth v s hs⟩

/-- Every data set that can be stored is restored. -/
theorem restores_format {s : Snapshot} (h : s.Storable) : Snapshot.format.Restores (k + 6) s := by
  apply Record.Restores.format
  refine Record.Restores.map ?_ rfl
  have hstops : Stop.format.list.Restores (k + 5) s.stops :=
    .list fun stop _ => Stop.restores_format stop
  have hpatterns : PatternRecord.format.list.Restores (k + 5) s.patterns :=
    .list fun r hr => PatternRecord.restores_format (h.times r hr)
  have htransfers : Transfer.format.list.Restores (k + 5) s.transfers :=
    .list fun t ht => Transfer.restores_format (h.transfers t ht)
  exact (Record.Restores.fieldOr "stops" hstops).and
    ((Record.Restores.fieldOr "patterns" hpatterns).and (.fieldOr "transfers" htransfers) (by decide))
    (by decide)

/-- **A data set that is read from any text is read from its own text**, and these are the data sets that can be
stored: those with times on the clock, with any stations, departures, points and constraints. -/
theorem ofString_toString (s : Snapshot) :
    (∀ text, Snapshot.format.ofString text = .ok s →
      Snapshot.format.ofString (Snapshot.format.toString s) = .ok s) ∧
    (Snapshot.format.ofString (Snapshot.format.toString s) = .ok s ↔ s.Storable) := by
  have hstorable : s.Storable → Snapshot.format.ofString (Snapshot.format.toString s) = .ok s := by
    intro h
    exact (restores_format (k := 0) h).ofString_eq_ok (by decide)
  constructor
  · intro text h
    exact hstorable (yields_storable.of_ofString h)
  · constructor
    · intro h
      exact yields_storable.of_ofString h
    · exact hstorable

/-- A text in mixed form: blanks, an escape, arrays and an object, an unknown member, an hour of one digit,
departures that are left out and departures that are the arrivals. -/
def mixedText : String :=
  " [ [[\"\\u00df\"], \x7b\"v\":1, \"id\":\"B\"\x7d], " ++
    "[[\"P\",\"R\",[\"B\"],[[\"a\",[\"-0:30\"]],[\"b\",[\"9:00\"],[\"09:00:00\"]]]]], " ++
    "[[\"x\",[\"stop\",\"B\"],[\"station\",\"hub\"],[\"regular\"]]] ]"

/-- The data set that the text holds. -/
def mixed : Snapshot where
  stops := [⟨⟨"ß", by decide⟩, none⟩, ⟨Timetable.stopB, none⟩]
  patterns :=
    [⟨Timetable.patternP, Timetable.routeR, [Timetable.stopB],
        [⟨Timetable.tripA, [.ofInt (-1800)], none⟩,
          ⟨Timetable.tripB, [.ofInt 32400], some [.ofInt 32400]⟩]⟩]
  transfers :=
    [⟨Timetable.ruleX, .anywhere (.stop Timetable.stopB), .anywhere (.station ⟨"hub", by decide⟩), .regular⟩]

/-- The text is read as the data set, and so is the text that the data set is written as. -/
theorem ofString_toString_mixed : Snapshot.format.ofString mixedText = .ok mixed ∧
    Snapshot.format.ofString (Snapshot.format.toString mixed) = .ok mixed := by
  have hread : Snapshot.format.ofString mixedText = .ok mixed := by
    apply eq_ok_of_toOption
    decide +kernel
  exact ⟨hread, (ofString_toString mixed).1 mixedText hread⟩

end Snapshot

end Interchange
