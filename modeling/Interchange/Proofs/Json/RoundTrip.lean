import Interchange.Proofs.Json.Decoding
import Interchange.Proofs.Json.Reading

/-!
# Values that are read back

A format restores a value when what is written of it is read as the same value. There is one law for each way to
put formats together, so which values a format restores is seen by the way it is made.

* `Format.Restores` — a value is read from what is written of it.
* `Record.Restores` — the same for the members of a record. The names of two records that are put together have
  to be distinct (`Record.Restores.and`), and an optional value must not be written as `null`
  (`Record.Restores.fieldOpt`).
* `Format.restores_tagged` — a value of one of several kinds is restored where the record of its kind restores
  it.
* `Format.Restores.ofString_eq_ok` — a value that is restored is read from its own text.
-/

namespace Interchange

variable {α β γ : Type} {k : Nat}

/-! ## Values that can be kept -/

namespace Json

/-- Members of an object with their names. -/
def named (ms : List (String × Json)) : List (Option String × Json) := ms.map fun m => (some m.1, m.2)

/-- Items can be kept when each of them can. -/
theorem itemsArePlain_iff {depth : Nat} {vs : List Json} :
    itemsArePlain depth vs = true ↔ ∀ v ∈ vs, v.isPlain depth = true := by
  induction vs with
  | nil => simp [itemsArePlain]
  | cons v vs ih => rw [itemsArePlain, Bool.and_eq_true, ih, List.forall_mem_cons]

/-- Members with names can be kept when each of their values can. -/
theorem membersArePlain_named_iff {depth : Nat} {ms : List (String × Json)} :
    membersArePlain depth (named ms) = true ↔ ∀ m ∈ ms, m.2.isPlain depth = true := by
  unfold named
  induction ms with
  | nil => simp [membersArePlain]
  | cons m ms ih =>
    rw [List.map_cons, membersArePlain, Bool.and_eq_true, ih, List.forall_mem_cons]
    simp

end Json

/-! ## Values -/

namespace Format

/-- A format restores a value: what is written of it can be kept, and is read as the value, wherever as many
containers may be entered. -/
def Restores (f : Format α) (k : Nat) (a : α) : Prop :=
  ∀ depth, k ≤ depth → (f.encode a).isPlain depth = true ∧ f.decode depth (f.encode a) = .ok a

/-- A value in a container is restored if it is where the container has been entered. -/
theorem Restores.of_succ {f : Format α} {a : α}
    (h : ∀ depth, k ≤ depth →
      (f.encode a).isPlain (depth + 1) = true ∧ f.decode (depth + 1) (f.encode a) = .ok a) :
    f.Restores (k + 1) a := by
  intro depth hdepth
  cases depth with
  | zero => contradiction
  | succ depth => exact h depth (Nat.le_of_succ_le_succ hdepth)

/-- Every text is restored. -/
theorem restores_text (s : String) : text.Restores k s := fun _ _ => ⟨rfl, rfl⟩

/-- A number below a bound of at most 64 bits is restored. -/
theorem restores_natural {bound n : Nat} (hn : n < bound) (hbound : bound ≤ Decimal.wordBound) :
    (natural bound).Restores k n :=
  fun _ _ => ⟨Double.isFinite_of_lt (Nat.lt_of_lt_of_le hn hbound), if_pos hn⟩

/-- A value behind a check is restored where it passes the check as it is viewed. -/
theorem Restores.checked {f : Format α} {make : α → Except InvalidValue β} {view : β → α} {b : β}
    (h : f.Restores k (view b)) (hmake : make (view b) = .ok b) : (f.checked make view).Restores k b := by
  intro depth hdepth
  obtain ⟨hplain, hdecode⟩ := h depth hdepth
  refine ⟨hplain, bind_eq_ok_iff.2 ⟨view b, hdecode, ?_⟩⟩
  rw [hmake]
  rfl

/-- A value of another type is restored as it is viewed. -/
theorem Restores.map {f : Format α} {make : α → β} {view : β → α} {b : β} (h : f.Restores k (view b))
    (hmake : make (view b) = b) : (f.map make view).Restores k b := by
  intro depth hdepth
  obtain ⟨hplain, hdecode⟩ := h depth hdepth
  refine ⟨hplain, bind_eq_ok_iff.2 ⟨view b, hdecode, ?_⟩⟩
  rw [hmake]
  rfl

/-- Items that are restored make a list that is restored. -/
theorem Restores.list {f : Format α} {as : List α} (h : ∀ a ∈ as, f.Restores k a) :
    f.list.Restores (k + 1) as := by
  apply Restores.of_succ
  intro depth hk
  constructor
  · refine Json.itemsArePlain_iff.2 fun v hv => ?_
    obtain ⟨a, ha, rfl⟩ := List.mem_map.1 hv
    exact (h a ha depth hk).1
  · show (as.map f.encode).mapM (f.decode depth) = .ok as
    induction as with
    | nil => rfl
    | cons a as ih =>
      obtain ⟨ha, has⟩ := List.forall_mem_cons.1 h
      rw [List.map_cons, List.mapM_cons, (ha depth hk).2, ih has]
      rfl

end Format

/-! ## Members -/

namespace Members

variable {m : Members α} {m' : Members β} {depth : Nat}

/-- A member with a known name is read, and then what stands behind it. -/
theorem readMembers_cons_of_mem {name : String} {v : Json} {st st' : m.State} (hname : name ∈ m.names)
    (hread : m.read depth name v st = .ok st') (ms : List (Option String × Json)) :
    m.readMembers depth ((some name, v) :: ms) st = m.readMembers depth ms st' := by
  rw [readMembers, if_pos hname, hread]
  rfl

/-- The members of an object are read one row after the other. -/
theorem readMembers_append {ms ms' : List (Option String × Json)} {st x y : m.State}
    (h : m.readMembers depth ms st = .ok x) (h' : m.readMembers depth ms' x = .ok y) :
    m.readMembers depth (ms ++ ms') st = .ok y := by
  induction ms generalizing st with
  | nil =>
    cases h
    exact h'
  | cons e ms ih =>
    obtain ⟨name, v⟩ := e
    cases name with
    | none => cases h
    | some name =>
      rw [readMembers] at h
      rw [List.cons_append, readMembers]
      split at h
      · rename_i hname
        obtain ⟨z, hz, h⟩ := bind_eq_ok_iff.1 h
        rw [if_pos hname, hz]
        exact ih h
      · rename_i hname
        rw [if_neg hname]
        split at h
        · rename_i hwhole
          rw [if_pos hwhole]
          exact ih h
        · cases h

/-- A single member makes a value by itself. -/
theorem ofObject_singleton {name : String} {v : Json} {st : m.State} {a : α} (hname : name ∈ m.names)
    (hread : m.read depth name v m.start = .ok st) (hfinish : m.finish st = .ok a) :
    m.ofObject depth (Json.named [(name, v)]) = .ok a :=
  bind_eq_ok_iff.2 ⟨st, readMembers_cons_of_mem hname hread [], hfinish⟩

/-- Members are read by others as they are by their own, with what is read so far in another form, if each of
them is. -/
theorem readMembers_carry (m : Members α) (m' : Members β) {ms : List (String × Json)} (f : m.State → m'.State)
    (h : ∀ e ∈ ms, e.1 ∈ m.names ∧ e.1 ∈ m'.names ∧
      ∀ st x, m.read depth e.1 e.2 st = .ok x → m'.read depth e.1 e.2 (f st) = .ok (f x)) {st x : m.State}
    (hread : m.readMembers depth (Json.named ms) st = .ok x) :
    m'.readMembers depth (Json.named ms) (f st) = .ok (f x) := by
  induction ms generalizing st with
  | nil =>
    cases hread
    rfl
  | cons e ms ih =>
    obtain ⟨⟨hname, hname', hstep⟩, hms⟩ := List.forall_mem_cons.1 h
    rw [Json.named, List.map_cons, readMembers, if_pos hname] at hread
    obtain ⟨y, hy, hread⟩ := bind_eq_ok_iff.1 hread
    exact (readMembers_cons_of_mem hname' (hstep st y hy) _).trans (ih hms hread)

/-- What an object of known members holds is carried over to a value made from it. -/
theorem ofObject_map (make : α → β) {ms : List (String × Json)} (hnames : ∀ e ∈ ms, e.1 ∈ m.names) {a : α}
    (h : m.ofObject depth (Json.named ms) = .ok a) :
    (m.map make).ofObject depth (Json.named ms) = .ok (make a) := by
  obtain ⟨st, hst, hfinish⟩ := bind_eq_ok_iff.1 h
  have hread := readMembers_carry m (m.map make) id
    (fun e he => ⟨hnames e he, hnames e he, fun _ _ => id⟩) hst
  exact bind_eq_ok_iff.2 ⟨st, hread, bind_eq_ok_iff.2 ⟨a, hfinish, rfl⟩⟩

/-- Members of the first of two rows are read as by themselves. -/
theorem readMembers_and_left (m' : Members β) {ms : List (String × Json)} (h : ∀ e ∈ ms, e.1 ∈ m.names)
    {st x : m.State} (st' : m'.State) (hread : m.readMembers depth (Json.named ms) st = .ok x) :
    (m.and m').readMembers depth (Json.named ms) (st, st') = .ok (x, st') := by
  refine readMembers_carry m (m.and m') (fun st => (st, st'))
    (fun e he => ⟨h e he, List.mem_append_left _ (h e he), fun st x hx => ?_⟩) hread
  exact (if_pos (h e he)).trans (bind_eq_ok_iff.2 ⟨x, hx, rfl⟩)

/-- Members of the second of two rows are read as by themselves, if the first has no such names. -/
theorem readMembers_and_right (m : Members α) {ms : List (String × Json)}
    (h : ∀ e ∈ ms, e.1 ∈ m'.names ∧ e.1 ∉ m.names) (st : m.State) {st' x : m'.State}
    (hread : m'.readMembers depth (Json.named ms) st' = .ok x) :
    (m.and m').readMembers depth (Json.named ms) (st, st') = .ok (st, x) := by
  refine readMembers_carry m' (m.and m') (fun st' => (st, st'))
    (fun e he => ⟨(h e he).1, List.mem_append_right _ (h e he).1, fun st' x hx => ?_⟩) hread
  exact (if_neg (h e he).2).trans (bind_eq_ok_iff.2 ⟨x, hx, rfl⟩)

end Members

/-! ## Records -/

namespace Record

/-- A record restores a value: what is written of it has names of the record and values that can be kept, and
an object of these members holds the value. -/
structure Restores (r : Record α) (k : Nat) (a : α) : Prop where
  named : ∀ m ∈ r.write a, m.1 ∈ r.names
  plain : ∀ depth, k ≤ depth → ∀ m ∈ r.write a, m.2.isPlain depth = true
  read : ∀ depth, k ≤ depth → r.ofObject depth (Json.named (r.write a)) = .ok a

/-- No members, as they are read and as they are written. -/
def nothing : Record Unit where
  toMembers := Members.nothing
  write _ := []

/-- Where there are no members there is nothing to lose. -/
theorem restores_nothing : nothing.Restores k () := ⟨nofun, fun _ _ => nofun, fun _ _ => rfl⟩

/-- A record of one member restores a value where the member is read as the value. -/
theorem restores_singleton {r : Record α} {name : String} {a : α} {v : Json} (hwrite : r.write a = [(name, v)])
    (hname : name ∈ r.names) (hplain : ∀ depth, k ≤ depth → v.isPlain depth = true)
    (hread : ∀ depth, k ≤ depth → ∃ st, r.read depth name v r.start = .ok st ∧ r.finish st = .ok a) :
    r.Restores k a := by
  refine ⟨?_, ?_, ?_⟩
  · rw [hwrite]
    simpa using hname
  · rw [hwrite]
    simpa using hplain
  · intro depth hdepth
    obtain ⟨st, hst, hfinish⟩ := hread depth hdepth
    rw [hwrite]
    exact Members.ofObject_singleton hname hst hfinish

/-- A member is read once from what is written of its value. -/
theorem once_encode {f : Format α} {depth : Nat} {v : Json} {a : α} (h : f.decode depth v = .ok a) :
    once f depth v none = .ok (some a) := by
  rw [once, h]
  rfl

/-- A member that must be there. -/
theorem Restores.field {f : Format α} {a : α} (name : String) (h : f.Restores k a) :
    (Record.field name f).Restores k a := by
  refine restores_singleton rfl List.mem_cons_self (fun depth hk => (h depth hk).1) ?_
  intro depth hk
  exact ⟨some a, once_encode (h depth hk).2, rfl⟩

/-- A member that stands for a given value when it is left out. -/
theorem Restores.fieldOr {f : Format α} {absent a : α} (name : String) (h : f.Restores k a) :
    (Record.fieldOr name f absent).Restores k a := by
  refine restores_singleton rfl List.mem_cons_self (fun depth hk => (h depth hk).1) ?_
  intro depth hk
  exact ⟨some a, once_encode (h depth hk).2, rfl⟩

/-- A value that is not written as `null` is read where there may be none. -/
theorem decode_orNull {f : Format α} {depth : Nat} {a : α} (hnull : f.encode a ≠ .null)
    (h : f.decode depth (f.encode a) = .ok a) : f.orNull.decode depth (f.encode a) = .ok (some a) := by
  unfold Format.orNull
  dsimp only
  split
  · rename_i heq
    exact absurd heq hnull
  · rw [h]
    rfl

/-- A member for an optional value, if that is not written as `null`. -/
theorem Restores.fieldOpt {f : Format α} {o : Option α} {omissible : Bool} (name : String)
    (h : ∀ a ∈ o, f.Restores k a) (hnull : ∀ a, f.encode a ≠ .null) :
    (Record.fieldOpt name f omissible).Restores k o := by
  cases o with
  | none => exact ⟨nofun, fun _ _ => nofun, fun _ _ => rfl⟩
  | some a =>
    have ha : f.Restores k a := h a rfl
    refine restores_singleton rfl List.mem_cons_self (fun depth hk => (ha depth hk).1) ?_
    intro depth hk
    exact ⟨some (some a), once_encode (decode_orNull (hnull a) (ha depth hk).2), rfl⟩

/-- Two records with names of their own restore their values side by side. -/
theorem Restores.and {r : Record α} {r' : Record β} {a : α} {b : β} (h : r.Restores k a)
    (h' : r'.Restores k b) (hnames : ∀ name ∈ r'.names, name ∉ r.names) :
    (r.and r').Restores k (a, b) := by
  refine ⟨fun m hm => ?_, fun depth hk m hm => ?_, fun depth hk => ?_⟩
  · exact List.mem_append.2 ((List.mem_append.1 hm).imp (h.named m) (h'.named m))
  · exact (List.mem_append.1 hm).elim (h.plain depth hk m) (h'.plain depth hk m)
  · obtain ⟨x, hx, hfinish⟩ := bind_eq_ok_iff.1 (h.read depth hk)
    obtain ⟨y, hy, hfinish'⟩ := bind_eq_ok_iff.1 (h'.read depth hk)
    have hleft := Members.readMembers_and_left r'.toMembers h.named r'.start hx
    have hright := Members.readMembers_and_right r.toMembers
      (fun e he => ⟨h'.named e he, hnames e.1 (h'.named e he)⟩) x hy
    have hwrite : Json.named ((r.and r').write (a, b)) = Json.named (r.write a) ++ Json.named (r'.write b) :=
      List.map_append
    rw [hwrite]
    exact bind_eq_ok_iff.2 ⟨(x, y), Members.readMembers_append hleft hright,
      bind_eq_ok_iff.2 ⟨a, hfinish, bind_eq_ok_iff.2 ⟨b, hfinish', rfl⟩⟩⟩

/-- A record of another type restores a value as it is viewed. -/
theorem Restores.map {r : Record α} {make : α → β} {view : β → α} {b : β} (h : r.Restores k (view b))
    (hmake : make (view b) = b) : (r.map make view).Restores k b := by
  refine ⟨h.named, h.plain, fun depth hk => ?_⟩
  have hread := Members.ofObject_map make h.named (h.read depth hk)
  rw [hmake] at hread
  exact hread

/-- A record that is written as an object restores its values. -/
theorem Restores.format {r : Record α} {a : α} (h : r.Restores k a) : r.format.Restores (k + 1) a := by
  apply Format.Restores.of_succ
  intro depth hk
  exact ⟨Json.membersArePlain_named_iff.2 (h.plain depth hk), h.read depth hk⟩

end Record

/-! ## Tagged objects -/

namespace Format

variable {variants : List (String × Members α)} {view : α → String × List (String × Json)}

/-- A value whose members are those of a record under some tag is restored, if the record restores it and has
no member with the name of the tag. -/
theorem restores_tagged {r : Record γ} {make : γ → α} {name : String} {x : γ} {a : α} (h : r.Restores k x)
    (hview : view a = (name, r.write x)) (hlookup : variants.lookup name = some (r.toMembers.map make))
    (hmake : make x = a) (htag : tag ∉ r.names) : (tagged variants view).Restores (k + 1) a := by
  apply Restores.of_succ
  intro depth hk
  have hencode : (tagged variants view).encode a =
      .object ((some tag, .text (some name)) :: Json.named (r.write x)) := by
    show Json.obj ((tag, Json.str (view a).1) :: (view a).2) = _
    rw [hview]
    rfl
  have hplain : Json.isPlain (depth + 1) (.object ((some tag, .text (some name)) :: Json.named (r.write x))) = true :=
    Bool.and_eq_true_iff.2 ⟨rfl, Json.membersArePlain_named_iff.2 (h.plain depth (by omega))⟩
  have hne : ∀ e ∈ Json.named (r.write x), (e.1 == some tag) = false := by
    intro e he
    obtain ⟨m, hm, rfl⟩ := List.mem_map.1 he
    have hname : m.1 ≠ tag := fun heq => htag (heq ▸ h.named m hm)
    simpa using hname
  have htagged : ((some tag, Json.text (some name)) :: Json.named (r.write x)).filter (fun e => e.1 == some tag) =
      [(some tag, .text (some name))] := by
    rw [List.filter_cons_of_pos (by simp), List.filter_eq_nil_iff.2 fun e he => by simp [hne e he]]
  have huntagged : ((some tag, Json.text (some name)) :: Json.named (r.write x)).filter
      (fun e => !(e.1 == some tag)) = Json.named (r.write x) := by
    rw [List.filter_cons_of_neg (by simp), List.filter_eq_self.2 fun e he => by simp [hne e he]]
  have hread := Members.ofObject_map make h.named (h.read (depth + 1) (by omega))
  rw [hmake] at hread
  rw [hencode]
  refine ⟨hplain, ?_⟩
  unfold tagged
  dsimp only
  rw [if_pos hplain]
  simp only [htagged, huntagged, hlookup]
  exact hread

/-! ## Whole texts -/

/-- A value that is restored within as many containers as a text may nest is read from its own text. -/
theorem Restores.ofString_eq_ok {f : Format α} {a : α} (h : f.Restores k a) (hk : k ≤ nestingLimit) :
    f.ofString (f.toString a) = .ok a := by
  obtain ⟨hplain, hdecode⟩ := h nestingLimit hk
  unfold ofString ofSource toString
  rw [Json.read_written hplain]
  exact bind_eq_ok_iff.2 ⟨a, hdecode, rfl⟩

end Format

end Interchange
