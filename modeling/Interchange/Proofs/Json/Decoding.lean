import Interchange.Json.Format

/-!
# What decoding yields

A format reads a value out of smaller ones, so what holds of the values that the smallest formats let through
can be said of everything that is read.

* `bind_eq_ok_iff` — what it means that a computation in two steps succeeds.
* `Format.Yields` — a property of all values that a format reads, with one lemma for each way to put formats
  together.
* `Members.Carries`, `Members.Yields` — the same for the members of an object, which are read one after the
  other: an invariant of what has been read so far.
* `Format.Yields.of_ofString` — what is read from a text has the property.
-/

namespace Interchange

/-- A computation in two steps succeeds when the first does and the second does with its result. -/
theorem bind_eq_ok_iff {ε α β : Type} {x : Except ε α} {f : α → Except ε β} {b : β} :
    (x >>= f) = .ok b ↔ ∃ a, x = .ok a ∧ f a = .ok b := by
  rcases x with fault | a
  · constructor
    · intro h
      cases h
    · rintro ⟨a, h, -⟩
      cases h
  · constructor
    · intro h
      exact ⟨a, rfl, h⟩
    · rintro ⟨a, h, hb⟩
      cases h
      exact hb

/-- A computation whose value is known has succeeded with it. -/
theorem eq_ok_of_toOption {ε α : Type} {x : Except ε α} {a : α} (h : x.toOption = some a) : x = .ok a := by
  cases x with
  | error fault => cases h
  | ok b => exact congrArg Except.ok (Option.some.inj h)

/-- Where a computation succeeds on a whole list its results are those for the elements. -/
theorem exists_of_mapM_eq_ok {ε α β : Type} {f : α → Except ε β} {l : List α} {bs : List β}
    (h : l.mapM f = .ok bs) : ∀ b ∈ bs, ∃ a ∈ l, f a = .ok b := by
  induction l generalizing bs with
  | nil =>
    rw [List.mapM_nil] at h
    cases h
    intro b hb
    cases hb
  | cons a l ih =>
    rw [List.mapM_cons, bind_eq_ok_iff] at h
    obtain ⟨b, hb, h⟩ := h
    rw [bind_eq_ok_iff] at h
    obtain ⟨rest, hrest, h⟩ := h
    cases h
    intro x hx
    rcases List.mem_cons.1 hx with rfl | hx
    · exact ⟨a, List.mem_cons_self, hb⟩
    · obtain ⟨y, hy, hfy⟩ := ih hrest x hx
      exact ⟨y, List.mem_cons_of_mem a hy, hfy⟩

variable {α β : Type}

namespace Format

/-- A property holds of every value that a format reads. -/
def Yields (f : Format α) (P : α → Prop) : Prop :=
  ∀ depth v a, f.decode depth v = .ok a → P a

/-- A number is read below its bound only. -/
theorem yields_natural (bound : Nat) : (natural bound).Yields fun n => n < bound := by
  intro depth v n h
  unfold natural at h
  dsimp only at h
  split at h
  · split at h
    · rename_i hn
      cases h
      exact hn
    · cases h
  · cases h

/-- What a check lets through holds of all that is read through it. -/
theorem Yields.of_checked {f : Format α} {make : α → Except InvalidValue β} {view : β → α} {P : β → Prop}
    (h : ∀ a b, make a = .ok b → P b) : (f.checked make view).Yields P := by
  intro depth v b hdecode
  obtain ⟨a, -, hmake⟩ := bind_eq_ok_iff.1 hdecode
  rcases hb : make a with cause | b'
  · rw [hb] at hmake
    cases hmake
  · rw [hb] at hmake
    cases hmake
    exact h a b hb

/-- What holds of each item holds of the items of a list. -/
theorem Yields.list {f : Format α} {P : α → Prop} (h : f.Yields P) :
    f.list.Yields fun as => ∀ a ∈ as, P a := by
  intro depth v as hdecode a ha
  cases depth with
  | zero => cases hdecode
  | succ depth =>
    cases v with
    | array items =>
      obtain ⟨x, -, hx⟩ := exists_of_mapM_eq_ok hdecode a ha
      exact h depth x a hx
    | null => cases hdecode
    | bool _ => cases hdecode
    | number _ => cases hdecode
    | text _ => cases hdecode
    | object _ => cases hdecode
    | broken => cases hdecode

/-- What holds of a value holds of one that may be null. -/
theorem Yields.orNull {f : Format α} {P : α → Prop} (h : f.Yields P) :
    f.orNull.Yields fun o => ∀ a ∈ o, P a := by
  intro depth v o hdecode a ha
  unfold Format.orNull at hdecode
  dsimp only at hdecode
  split at hdecode
  · cases hdecode
    cases ha
  · obtain ⟨x, hx, hsome⟩ := bind_eq_ok_iff.1 hdecode
    cases hsome
    cases ha
    exact h depth _ a hx

end Format

/-! ## Members -/

namespace Members

variable {m : Members α} {m' : Members β}

/-- A property of what has been read so far is carried from the start to the end, where it leads to a
property of the value that is made. -/
structure Carries (m : Members α) (I : m.State → Prop) (P : α → Prop) : Prop where
  start : I m.start
  read : ∀ depth name v st st', I st → m.read depth name v st = .ok st' → I st'
  finish : ∀ st a, I st → m.finish st = .ok a → P a

/-- A property holds of every value that members make. -/
def Yields (m : Members α) (P : α → Prop) : Prop := ∃ I, m.Carries I P

/-- Nothing in particular holds of the values that any members make. -/
theorem yields_true (m : Members α) : m.Yields fun _ => True :=
  ⟨fun _ => True, trivial, fun _ _ _ _ _ _ _ => trivial, fun _ _ _ _ => trivial⟩

/-- What members make is carried over to a value made from it. -/
theorem Yields.map {P : α → Prop} {Q : β → Prop} {make : α → β} (h : m.Yields P)
    (hmake : ∀ a, P a → Q (make a)) : (m.map make).Yields Q := by
  obtain ⟨I, hstart, hread, hfinish⟩ := h
  refine ⟨I, hstart, hread, ?_⟩
  intro st b hst hb
  obtain ⟨a, ha, hpure⟩ := bind_eq_ok_iff.1 hb
  cases hpure
  exact hmake a (hfinish st a hst ha)

/-- Of two rows of members each makes its part. -/
theorem Yields.and {P : α → Prop} {Q : β → Prop} (h : m.Yields P) (h' : m'.Yields Q) :
    (m.and m').Yields fun p => P p.1 ∧ Q p.2 := by
  obtain ⟨I, hstart, hread, hfinish⟩ := h
  obtain ⟨J, hstart', hread', hfinish'⟩ := h'
  refine ⟨fun st => I st.1 ∧ J st.2, ⟨hstart, hstart'⟩, ?_, ?_⟩
  · intro depth name v st st' hst hst'
    unfold Members.and at hst'
    dsimp only at hst'
    split at hst'
    · obtain ⟨x, hx, hpure⟩ := bind_eq_ok_iff.1 hst'
      cases hpure
      exact ⟨hread depth name v st.1 x hst.1 hx, hst.2⟩
    · obtain ⟨x, hx, hpure⟩ := bind_eq_ok_iff.1 hst'
      cases hpure
      exact ⟨hst.1, hread' depth name v st.2 x hst.2 hx⟩
  · intro st p hst hp
    obtain ⟨a, ha, hp⟩ := bind_eq_ok_iff.1 hp
    obtain ⟨b, hb, hpure⟩ := bind_eq_ok_iff.1 hp
    cases hpure
    exact ⟨hfinish st.1 a hst.1 ha, hfinish' st.2 b hst.2 hb⟩

/-- Reading the members of an object keeps what is carried. -/
theorem Carries.readMembers {I : m.State → Prop} {P : α → Prop} (h : m.Carries I P) {depth : Nat}
    {ms : List (Option String × Json)} {st st' : m.State} (hst : I st)
    (hread : m.readMembers depth ms st = .ok st') : I st' := by
  induction ms generalizing st with
  | nil =>
    cases hread
    exact hst
  | cons e ms ih =>
    obtain ⟨name, v⟩ := e
    cases name with
    | none => cases hread
    | some name =>
      unfold Members.readMembers at hread
      split at hread
      · obtain ⟨x, hx, hrest⟩ := bind_eq_ok_iff.1 hread
        exact ih (h.read depth name v st x hst hx) hrest
      · split at hread
        · exact ih hst hread
        · cases hread

/-- Reading the items of an array keeps what is carried. -/
theorem Carries.readItems {I : m.State → Prop} {P : α → Prop} (h : m.Carries I P) {depth : Nat}
    {names : List String} {items : List Json} {st st' : m.State} (hst : I st)
    (hread : m.readItems depth names items st = .ok st') : I st' := by
  induction items generalizing names st with
  | nil =>
    unfold Members.readItems at hread
    cases hread
    exact hst
  | cons v items ih =>
    cases names with
    | nil => cases hread
    | cons name names =>
      obtain ⟨x, hx, hrest⟩ := bind_eq_ok_iff.1 hread
      exact ih (h.read depth name v st x hst hx) hrest

/-- The value whose members an object holds. -/
theorem Yields.of_ofObject {P : α → Prop} (h : m.Yields P) {depth : Nat}
    {ms : List (Option String × Json)} {a : α} (ha : m.ofObject depth ms = .ok a) : P a := by
  obtain ⟨I, hcarries⟩ := h
  obtain ⟨st, hst, hfinish⟩ := bind_eq_ok_iff.1 ha
  exact hcarries.finish st a (hcarries.readMembers hcarries.start hst) hfinish

/-- The value whose members an array holds in order. -/
theorem Yields.of_ofArray {P : α → Prop} (h : m.Yields P) {depth : Nat} {items : List Json} {a : α}
    (ha : m.ofArray depth items = .ok a) : P a := by
  obtain ⟨I, hcarries⟩ := h
  obtain ⟨st, hst, hfinish⟩ := bind_eq_ok_iff.1 ha
  split at hfinish
  · exact hcarries.finish st a (hcarries.readItems hcarries.start hst) hfinish
  · cases hfinish

end Members

/-! ## Records -/

namespace Record

/-- A member that may occur once keeps what holds of the value it has. -/
theorem once_keeps {f : Format α} {P : α → Prop} (h : f.Yields P) {depth : Nat} {v : Json}
    {st st' : Option α} (hst' : once f depth v st = .ok st') : ∀ a ∈ st', P a := by
  cases st with
  | some _ => cases hst'
  | none =>
    obtain ⟨x, hx, hpure⟩ := bind_eq_ok_iff.1 hst'
    cases hpure
    intro a ha
    cases ha
    exact h depth v x hx

/-- A member that must be there. -/
theorem yields_field {name : String} {f : Format α} {P : α → Prop} (h : f.Yields P) :
    (field name f).toMembers.Yields P := by
  refine ⟨fun st : Option α => ∀ a ∈ st, P a, nofun, fun _ _ _ _ _ _ h' => once_keeps h h', ?_⟩
  intro st a hst ha
  cases st with
  | none => cases ha
  | some x =>
    cases ha
    exact hst a rfl

/-- A member that stands for a given value when it is left out. -/
theorem yields_fieldOr {name : String} {f : Format α} {absent : α} {P : α → Prop} (h : f.Yields P)
    (habsent : P absent) : (fieldOr name f absent).toMembers.Yields P := by
  refine ⟨fun st : Option α => ∀ a ∈ st, P a, nofun, fun _ _ _ _ _ _ h' => once_keeps h h', ?_⟩
  intro st a hst ha
  cases ha
  cases st with
  | none => exact habsent
  | some x => exact hst x rfl

/-- A member for an optional value. -/
theorem yields_fieldOpt {name : String} {f : Format α} {omissible : Bool} {P : α → Prop} (h : f.Yields P) :
    (fieldOpt name f omissible).toMembers.Yields fun o => ∀ a ∈ o, P a := by
  refine ⟨fun st : Option (Option α) => ∀ o ∈ st, ∀ a ∈ o, P a, nofun,
    fun _ _ _ _ _ _ h' => once_keeps h.orNull h', ?_⟩
  intro st o hst ho
  cases ho
  cases st with
  | none => nofun
  | some x => exact hst x rfl

/-- What the members of a record make holds of every value that is read as the record. -/
theorem yields_format {r : Record α} {P : α → Prop} (h : r.toMembers.Yields P) : r.format.Yields P := by
  intro depth v a ha
  cases depth with
  | zero => cases v <;> cases ha
  | succ depth =>
    cases v with
    | object ms => exact h.of_ofObject ha
    | array items => exact h.of_ofArray ha
    | null => cases ha
    | bool _ => cases ha
    | number _ => cases ha
    | text _ => cases ha
    | broken => cases ha

end Record

/-- What all kinds of members make holds of every value that is read from a tagged object. -/
theorem Format.Yields.tagged {variants : List (String × Members α)} {view : α → String × List (String × Json)}
    {P : α → Prop} (h : ∀ e ∈ variants, e.2.Yields P) : (tagged variants view).Yields P := by
  have hlookup : ∀ {name m}, variants.lookup name = some m → m.Yields P := by
    intro name m hm
    obtain ⟨front, rest, rfl, -⟩ := List.lookup_eq_some_iff.1 hm
    exact h (name, m) (by simp)
  intro depth v a ha
  unfold Format.tagged at ha
  dsimp only at ha
  split at ha
  · split at ha
    · split at ha
      · split at ha
        · rename_i hm
          exact (hlookup hm).of_ofObject ha
        · cases ha
      · cases ha
    · split at ha
      · rename_i hm
        exact (hlookup hm).of_ofArray ha
      · cases ha
    · cases ha
  · cases ha

/-- What holds of every value that a format reads holds of one that is read from a text. -/
theorem Format.Yields.of_ofString {f : Format α} {P : α → Prop} (h : f.Yields P) {s : String} {a : α}
    (ha : f.ofString s = .ok a) : P a := by
  unfold ofString ofSource at ha
  rcases hread : Json.read (Source.ofString s) with ⟨v, rest⟩
  rw [hread] at ha
  obtain ⟨x, hx, hrest⟩ := bind_eq_ok_iff.1 ha
  split at hrest
  · cases hrest
    exact h nestingLimit v a hx
  · cases hrest

end Interchange
