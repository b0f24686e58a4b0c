import Interchange.Json.Printer
import Interchange.Json.Reader
import Interchange.Proofs.Text.Decimal

/-!
# What is written is read back

* `Json.literal_renderText` — a text literal is read as the text that it was written for, whatever characters
  it holds.
* `Json.numberValue_renderNumeral` — a numeral is read as the number that it was written for, where what
  follows does not continue it.
* `Json.readsBack` — so is every value that can be kept, by induction on the calls of the reader that may be
  nested. `Json.read_written` — the whole text of a value is read as the value.
-/

namespace Interchange

/-- The text of a row of characters is made of them. -/
@[simp] theorem Source.text?_map_some (cs : List Char) :
    Source.text? (cs.map some) = some (String.ofList cs) := by
  have hall : (cs.map some).mapM id = some cs := by
    induction cs with
    | nil => rfl
    | cons c cs ih => simp [ih]
  rw [Source.text?, hall, Option.map_some]

namespace Json

/-! ## Text literals -/

/-- The escape of a control character stands for it. -/
theorem hexUnit?_hexChar : ∀ n < 0x20,
    hexUnit? '0' '0' (hexChar (n / 16)) (hexChar (n % 16)) = some n := by decide

/-- A quote ends a text literal. -/
theorem pieces_quote (s : Source) : pieces (some '"' :: s) = some ([], s) := by
  rw [pieces.eq_def]
  dsimp only
  rw [if_pos rfl]

/-- A character that needs no escape is a part of its own. -/
theorem pieces_char {c : Char} (hquote : c ≠ '"') (hbackslash : c ≠ '\\') (hcontrol : ¬ c.toNat < 0x20)
    (s : Source) : pieces (some c :: s) = (pieces s).map fun r => (.char c :: r.1, r.2) := by
  rw [pieces.eq_def]
  dsimp only
  rw [if_neg hquote, if_neg hbackslash, if_neg hcontrol]

/-- Four hexadecimal digits behind a backslash are a unit. -/
theorem pieces_unit {h₁ h₂ h₃ h₄ : Char} {u : Nat} (h : hexUnit? h₁ h₂ h₃ h₄ = some u) (s : Source) :
    pieces (some '\\' :: some 'u' :: some h₁ :: some h₂ :: some h₃ :: some h₄ :: s) =
      (pieces s).map fun r => (.unit u :: r.1, r.2) := by
  rw [pieces.eq_def]
  dsimp only
  rw [if_neg (by decide), if_pos rfl]
  simp only [h]

/-- **A character is read back from its escape**: as one part, which stands for it alone. -/
theorem pieces_escape (c : Char) (s : Source) :
    ∃ p, pieces ((escape c).map some ++ s) = (pieces s).map (fun r => (p :: r.1, r.2)) ∧
      openPair p = ([some c], none) := by
  unfold escape
  split
  · subst c
    exact ⟨.char '"', rfl, rfl⟩
  split
  · subst c
    exact ⟨.char '\\', rfl, rfl⟩
  split
  · subst c
    exact ⟨.char '\x08', rfl, rfl⟩
  split
  · subst c
    exact ⟨.char '\x0c', rfl, rfl⟩
  split
  · subst c
    exact ⟨.char '\n', rfl, rfl⟩
  split
  · subst c
    exact ⟨.char '\r', rfl, rfl⟩
  split
  · subst c
    exact ⟨.char '\t', rfl, rfl⟩
  split
  · rename_i hcontrol
    refine ⟨.unit c.toNat, ?_, ?_⟩
    · exact pieces_unit (hexUnit?_hexChar c.toNat hcontrol) s
    · have hhigh : isHigh c.toNat = false := by
        simp only [isHigh, Bool.and_eq_false_iff, decide_eq_false_iff_not]
        omega
      have hlow : isLow c.toNat = false := by
        simp only [isLow, Bool.and_eq_false_iff, decide_eq_false_iff_not]
        omega
      simp [openPair, hhigh, hlow, Char.ofNat_toNat]
  · rename_i hquote hbackslash _ _ _ _ _ hcontrol
    exact ⟨.char c, pieces_char hquote hbackslash hcontrol s, rfl⟩

/-- **A text literal is read as its text.** -/
theorem literal_renderText (cs : List Char) (s : Source) :
    literal ((cs.flatMap escape ++ ['"']).map some ++ s) = some (some (String.ofList cs), s) := by
  have hparts : ∃ ps, pieces ((cs.flatMap escape ++ ['"']).map some ++ s) = some (ps, s) ∧
      joinUnits none ps = cs.map some := by
    induction cs with
    | nil => exact ⟨[], pieces_quote s, rfl⟩
    | cons c cs ih =>
      obtain ⟨ps, hps, hjoin⟩ := ih
      obtain ⟨p, hp, hopen⟩ := pieces_escape c ((cs.flatMap escape ++ ['"']).map some ++ s)
      refine ⟨p :: ps, ?_, ?_⟩
      · rw [List.flatMap_cons, List.append_assoc, List.map_append, List.append_assoc, hp, hps]
        rfl
      · rw [joinUnits, hopen, hjoin]
        rfl
  obtain ⟨ps, hps, hjoin⟩ := hparts
  rw [literal, hps, Option.map_some, hjoin, Source.text?_map_some]

/-! ## Numerals -/

/-- A text does not start with a digit. -/
def EndsDigits (s : Source) : Prop := ∀ c, s.head? = some (some c) → Decimal.isDigit c = false

/-- A text does not continue a numeral: it starts with no digit, point or exponent. -/
def EndsNumeral (s : Source) : Prop :=
  ∀ c, s.head? = some (some c) → Decimal.isDigit c = false ∧ c ≠ '.' ∧ c ≠ 'e' ∧ c ≠ 'E'

/-- A row of digits is read up to its end. -/
theorem spanDigits_append {ds : List Char} (hds : ∀ c ∈ ds, Decimal.isDigit c = true) {s : Source}
    (hs : EndsDigits s) : spanDigits (ds.map some ++ s) = (ds, s) := by
  induction ds with
  | nil =>
    cases s with
    | nil => rfl
    | cons c s =>
      cases c with
      | none => rfl
      | some c => simp [spanDigits, hs c rfl]
  | cons c ds ih =>
    have hc : Decimal.isDigit c = true := hds c List.mem_cons_self
    have hrest := ih fun x hx => hds x (List.mem_cons_of_mem c hx)
    simp [spanDigits, hc, hrest]

/-- The numeral of a number is read up to its end. -/
theorem spanDigits_digits (n : Nat) {s : Source} (hs : EndsDigits s) :
    spanDigits ((Decimal.digits n).map some ++ s) = (Decimal.digits n, s) :=
  spanDigits_append (fun _ hc => Decimal.isDigit_of_mem_digits hc) hs

/-- Without a point there are no places. -/
theorem fraction_of_ne {s : Source} (hs : ∀ c, s.head? = some (some c) → c ≠ '.') :
    fraction s = some ([], s) := by
  unfold fraction
  split
  · exact absurd rfl (hs '.' rfl)
  · rfl

/-- Without an exponent there is none. -/
theorem exponent_of_ne {s : Source} (hs : ∀ c, s.head? = some (some c) → c ≠ 'e' ∧ c ≠ 'E') :
    exponent s = some (none, s) := by
  unfold exponent
  dsimp only
  split
  · exact absurd rfl (hs 'e' rfl).1
  · exact absurd rfl (hs 'E' rfl).2
  · rfl

/-- What ends a numeral ends its digits. -/
theorem EndsNumeral.endsDigits {s : Source} (h : EndsNumeral s) : EndsDigits s := fun c hc => (h c hc).1

/-- A digit is none of the characters that a value or an exponent starts with otherwise. -/
theorem ne_of_isDigit {c : Char} (h : Decimal.isDigit c = true) :
    c ∉ ['n', 't', 'f', '"', '[', ']', '\x7b', '-', '+', ' ', '\t', '\n', '\r'] := by
  intro hc
  have hnone : ∀ c ∈ ['n', 't', 'f', '"', '[', ']', '\x7b', '-', '+', ' ', '\t', '\n', '\r'],
      Decimal.isDigit c = false := by simp [Decimal.isDigit, Decimal.digit?]
  rw [hnone c hc] at h
  cases h

/-- A numeral without places is read from its digits and its exponent. -/
theorem numeral_of_digits {negative : Bool} {n : Nat} {s r r' : Source} {power : Option Int}
    (hdigits : spanDigits s = (Decimal.digits n, r)) (hplaces : fraction r = some ([], r))
    (hpower : exponent r = some (power, r')) :
    numeral negative s =
      some (match power with
        | none => .integer negative n
        | some e => .decimal negative n e, r') := by
  unfold numeral
  rw [hdigits]
  split
  · rename_i hnil
    exact absurd (Prod.mk.inj hnil).1 (Decimal.digits_ne_nil n)
  · rename_i hzero
    cases Decimal.eq_nil_of_digits_eq_zero_cons (Prod.mk.inj hzero).1
  · rename_i heq
    cases heq
    cases power <;> simp [hplaces, hpower]

/-- An exponent is read as it is written. -/
theorem exponent_renderSign (e : Int) {s : Source} (hs : EndsDigits s) :
    exponent (some 'e' :: ((renderSign (decide (e < 0)) ++ Decimal.digits e.natAbs).map some ++ s)) =
      some (some e, s) := by
  have hspan := spanDigits_digits e.natAbs hs
  obtain ⟨c, ds, hds⟩ := List.exists_cons_of_ne_nil (Decimal.digits_ne_nil e.natAbs)
  have hdigit : Decimal.isDigit c = true :=
    Decimal.isDigit_of_mem_digits (n := e.natAbs) (hds ▸ List.mem_cons_self)
  have hvalue := Decimal.value_digits e.natAbs
  rw [hds] at hspan hvalue
  unfold exponent
  dsimp only
  by_cases he : e < 0
  · simp only [renderSign, he, decide_true, if_true, hds, List.cons_append, List.nil_append,
      List.map_cons]
    rw [List.map_cons, List.cons_append] at hspan
    simp only [hspan, hvalue]
    congr 3
    omega
  · have hne := ne_of_isDigit hdigit
    simp only [List.mem_cons, not_or] at hne
    rw [List.map_cons, List.cons_append] at hspan
    simp only [renderSign, he, decide_false, Bool.false_eq_true, if_false, hds, List.nil_append,
      List.map_cons, List.cons_append]
    split
    · rename_i heq
      cases heq
      exact absurd rfl hne.2.2.2.2.2.2.2.1
    · rename_i heq
      cases heq
      exact absurd rfl hne.2.2.2.2.2.2.2.2.1
    · simp only [hspan, hvalue]
      congr 3
      omega

/-- **A numeral is read as it is written**, where what follows does not continue it. -/
theorem numberValue_renderNumeral (n : Numeral) {s : Source} (hs : EndsNumeral s) :
    ∃ negative ds, renderNumeral n = renderSign negative ++ ds ∧
      (∃ c cs, ds = c :: cs ∧ Decimal.isDigit c = true) ∧
        numberValue negative (ds.map some ++ s) = (.number n, s) := by
  have hfirst : ∀ n, ∃ c cs, Decimal.digits n = c :: cs ∧ Decimal.isDigit c = true := by
    intro n
    obtain ⟨c, cs, hcs⟩ := List.exists_cons_of_ne_nil (Decimal.digits_ne_nil n)
    exact ⟨c, cs, hcs, Decimal.isDigit_of_mem_digits (n := n) (hcs ▸ List.mem_cons_self)⟩
  cases n with
  | integer negative magnitude =>
    refine ⟨negative, Decimal.digits magnitude, rfl, hfirst magnitude, ?_⟩
    have hplaces := fraction_of_ne fun c hc => (hs c hc).2.1
    have hpower := exponent_of_ne fun c hc => (hs c hc).2.2
    rw [numberValue, numeral_of_digits (spanDigits_digits magnitude hs.endsDigits) hplaces hpower]
  | decimal negative mantissa e =>
    refine ⟨negative, Decimal.digits mantissa ++ 'e' ::
      (renderSign (decide (e < 0)) ++ Decimal.digits e.natAbs), by simp [renderNumeral], ?_, ?_⟩
    · obtain ⟨c, cs, hcs, hc⟩ := hfirst mantissa
      exact ⟨c, _, by rw [hcs, List.cons_append], hc⟩
    · have hexponent : EndsDigits (some 'e' ::
          ((renderSign (decide (e < 0)) ++ Decimal.digits e.natAbs).map some ++ s)) := by
        intro c hc
        cases hc
        rfl
      have hplaces := fraction_of_ne (s := some 'e' ::
        ((renderSign (decide (e < 0)) ++ Decimal.digits e.natAbs).map some ++ s)) (by
          intro c hc
          cases hc
          decide)
      rw [List.map_append, List.append_assoc, List.map_cons, List.cons_append, numberValue,
        numeral_of_digits (spanDigits_digits mantissa hexponent) hplaces
          (exponent_renderSign e hs.endsDigits)]

/-! ## What one call reads -/

section Calls

variable {fuel : Nat} {s t rest : Source} {v : Json} {name : Option String}

/-- A character that is no blank is not skipped. -/
theorem skipBlanks_cons {c : Char} (h : isBlank c = false) (s : Source) :
    skipBlanks (some c :: s) = some c :: s := by
  simp [skipBlanks, h]

/-- A quote opens a text. -/
theorem value_text (h : literal s = some (name, rest)) :
    value (fuel + 1) (some '"' :: s) = (.text name, rest) := by
  rw [value, skipBlanks_cons (by decide)]
  simp only [h]

/-- A digit starts a numeral. -/
theorem value_digit {c : Char} (h : Decimal.isDigit c = true) (s : Source) :
    value (fuel + 1) (some c :: s) = numberValue false (some c :: s) := by
  have hne := ne_of_isDigit h
  simp only [List.mem_cons, not_or] at hne
  have hblank : isBlank c = false := by
    simp [isBlank, hne]
  rw [value, skipBlanks_cons hblank]
  split <;> simp_all

/-- Within a bracket stand items, unless it is closed at once. -/
theorem value_array {c : Char} (hblank : isBlank c = false) (hbracket : c ≠ ']') (s : Source) :
    value (fuel + 1) (some '[' :: some c :: s) =
      (.array (items fuel (some c :: s)).1, (items fuel (some c :: s)).2) := by
  rw [value, skipBlanks_cons (by decide)]
  simp only [skipBlanks_cons hblank]
  split
  · rename_i heq
    cases heq
    exact absurd rfl hbracket
  · rfl

/-- Within a brace stand members, where a quote follows. -/
theorem value_object (s : Source) :
    value (fuel + 1) (some '\x7b' :: some '"' :: s) =
      (.object (members fuel (some '"' :: s)).1, (members fuel (some '"' :: s)).2) := rfl

/-- Behind an item and a comma stand more items. -/
theorem items_of_comma (h : value fuel s = (v, some ',' :: rest)) :
    items (fuel + 1) s = (v :: (items fuel rest).1, (items fuel rest).2) := by
  rw [items, h]
  rfl

/-- An item with a bracket behind it is the last. -/
theorem items_of_bracket (h : value fuel s = (v, some ']' :: rest)) : items (fuel + 1) s = ([v], rest) := by
  rw [items, h]
  rfl

/-- A member is a name and, behind a colon, a value. Behind a comma stand more members. -/
theorem members_of_comma (hname : literal s = some (name, some ':' :: t))
    (h : value fuel t = (v, some ',' :: rest)) :
    members (fuel + 1) (some '"' :: s) = ((name, v) :: (members fuel rest).1, (members fuel rest).2) := by
  rw [members, skipBlanks_cons (by decide)]
  simp (disch := decide) only [hname, h, skipBlanks_cons]

/-- A member with a brace behind it is the last. -/
theorem members_of_brace (hname : literal s = some (name, some ':' :: t))
    (h : value fuel t = (v, some '\x7d' :: rest)) :
    members (fuel + 1) (some '"' :: s) = ([(name, v)], rest) := by
  rw [members, skipBlanks_cons (by decide)]
  simp (disch := decide) only [hname, h, skipBlanks_cons]

end Calls

/-! ## Values -/

/-- The text of a value starts neither with a blank nor with a closing bracket. -/
theorem exists_render_eq_cons {depth : Nat} {v : Json} (h : v.isPlain depth = true) :
    ∃ c cs, render v = c :: cs ∧ isBlank c = false ∧ c ≠ ']' := by
  cases v with
  | null => exact ⟨'n', _, rfl, by decide, by decide⟩
  | bool b =>
    cases b
    · exact ⟨'f', _, rfl, by decide, by decide⟩
    · exact ⟨'t', _, rfl, by decide, by decide⟩
  | number n =>
    obtain ⟨negative, ds, hds, ⟨c, cs, rfl, hc⟩, -⟩ := numberValue_renderNumeral (s := []) n nofun
    have hne := ne_of_isDigit hc
    simp only [List.mem_cons, not_or] at hne
    rw [render, hds]
    cases negative with
    | true => exact ⟨'-', _, rfl, by decide, by decide⟩
    | false => exact ⟨c, cs, rfl, by simp [isBlank, hne], by simp [hne]⟩
  | text content => exact ⟨'"', _, rfl, by decide, by decide⟩
  | array items => cases items <;> exact ⟨'[', _, rfl, by decide, by decide⟩
  | object members => cases members <;> exact ⟨'\x7b', _, rfl, by decide, by decide⟩
  | broken => cases h

/-- The characters behind the first item of an array do not continue a numeral. -/
theorem endsNumeral_renderItems (vs : List Json) (s : Source) :
    EndsNumeral ((renderItems vs).map some ++ s) := by
  intro c hc
  cases vs <;> cases hc <;> decide

/-- The characters behind the first member of an object do not continue a numeral. -/
theorem endsNumeral_renderMembers (ms : List (Option String × Json)) (s : Source) :
    EndsNumeral ((renderMembers ms).map some ++ s) := by
  intro c hc
  cases ms <;> cases hc <;> decide

/-- The characters of the first member of an object and of what is behind it. -/
def memberChars (name : Option String) (v : Json) (ms : List (Option String × Json)) : List Char :=
  renderText (name.getD "").toList ++ ':' :: render v ++ renderMembers ms

/-- With a bound on the nested calls, the reader reads back every value that can be kept, and what stands
within the brackets of a container. -/
structure ReadsBack (fuel : Nat) : Prop where
  value : ∀ (depth : Nat) (v : Json) (s : Source), v.isPlain depth = true → (render v).length ≤ fuel →
    EndsNumeral s → value fuel ((render v).map some ++ s) = (v, s)
  items : ∀ (depth : Nat) (v : Json) (vs : List Json) (s : Source), itemsArePlain depth (v :: vs) = true →
    (render v ++ renderItems vs).length ≤ fuel →
      items fuel ((render v ++ renderItems vs).map some ++ s) = (v :: vs, s)
  members : ∀ (depth : Nat) (name : Option String) (v : Json) (ms : List (Option String × Json))
    (s : Source), membersArePlain depth ((name, v) :: ms) = true → (memberChars name v ms).length ≤ fuel →
      members fuel ((memberChars name v ms).map some ++ s) = ((name, v) :: ms, s)

namespace ReadsBack

variable {fuel depth : Nat} {s : Source}

/-- Every value takes a call. -/
theorem zero : ReadsBack 0 := by
  refine ⟨fun depth v s hplain hlen _ => ?_, fun depth v vs s hplain hlen => ?_,
    fun depth name v ms s _ hlen => ?_⟩
  · obtain ⟨c, cs, hcs, -⟩ := exists_render_eq_cons hplain
    rw [hcs] at hlen
    cases hlen
  · obtain ⟨c, cs, hcs, -⟩ := exists_render_eq_cons (Bool.and_eq_true_iff.1 hplain).1
    rw [hcs] at hlen
    cases hlen
  · simp [memberChars, renderText] at hlen

/-- Items are read one after the other. -/
theorem items_succ (h : ReadsBack fuel) {v : Json} {vs : List Json}
    (hplain : itemsArePlain depth (v :: vs) = true)
    (hlen : (render v ++ renderItems vs).length ≤ fuel + 1) :
    Json.items (fuel + 1) ((render v ++ renderItems vs).map some ++ s) = (v :: vs, s) := by
  obtain ⟨hv, hvs⟩ := Bool.and_eq_true_iff.1 hplain
  have hvalue := fun hle => h.value depth v ((renderItems vs).map some ++ s) hv hle
    (endsNumeral_renderItems vs s)
  rw [List.map_append, List.append_assoc]
  cases vs with
  | nil =>
    simp only [renderItems, List.length_append, List.length_singleton] at hlen
    exact items_of_bracket (hvalue (by omega))
  | cons w ws =>
    simp only [renderItems, List.length_append, List.length_cons] at hlen
    have hrest := h.items depth w ws s hvs (by rw [List.length_append]; omega)
    rw [items_of_comma (hvalue (by omega))]
    exact congrArg (fun r => (v :: r.1, r.2)) hrest

/-- Members are read one after the other, each name with its value. -/
theorem members_succ (h : ReadsBack fuel) {name : Option String} {v : Json}
    {ms : List (Option String × Json)} (hplain : membersArePlain depth ((name, v) :: ms) = true)
    (hlen : (memberChars name v ms).length ≤ fuel + 1) :
    Json.members (fuel + 1) ((memberChars name v ms).map some ++ s) = ((name, v) :: ms, s) := by
  obtain ⟨hhead, hms⟩ := Bool.and_eq_true_iff.1 hplain
  obtain ⟨hname, hv⟩ := Bool.and_eq_true_iff.1 hhead
  obtain ⟨name, rfl⟩ := Option.isSome_iff_exists.1 hname
  have hvalue := fun hle => h.value depth v ((renderMembers ms).map some ++ s) hv hle
    (endsNumeral_renderMembers ms s)
  -- the name, and what stands behind its closing quote
  have hliteral := literal_renderText name.toList
    (some ':' :: ((render v).map some ++ ((renderMembers ms).map some ++ s)))
  rw [String.ofList_toList] at hliteral
  have htext : (memberChars (some name) v ms).map some ++ s =
      some '"' :: ((name.toList.flatMap escape ++ ['"']).map some ++
        some ':' :: ((render v).map some ++ ((renderMembers ms).map some ++ s))) := by
    simp [memberChars, renderText]
  simp only [memberChars, renderText, List.length_append, List.length_cons, List.cons_append] at hlen
  rw [htext]
  cases ms with
  | nil => exact members_of_brace hliteral (hvalue (by omega))
  | cons m ms =>
    obtain ⟨name', w⟩ := m
    rw [members_of_comma hliteral (hvalue (by omega))]
    have hrest := h.members depth name' w ms s hms (by
      simp only [renderMembers, memberChars, List.length_append, List.length_cons, List.cons_append] at hlen ⊢
      omega)
    exact congrArg (fun r => ((some name, v) :: r.1, r.2)) hrest

/-- A value is read by what it starts with. -/
theorem value_succ (h : ReadsBack fuel) {v : Json} (hplain : v.isPlain depth = true)
    (hlen : (render v).length ≤ fuel + 1) (hs : EndsNumeral s) :
    Json.value (fuel + 1) ((render v).map some ++ s) = (v, s) := by
  cases v with
  | null => rfl
  | bool b => cases b <;> rfl
  | number n =>
    obtain ⟨negative, ds, hds, ⟨c, cs, rfl, hc⟩, hvalue⟩ := numberValue_renderNumeral n hs
    rw [render, hds]
    cases negative with
    | true => exact hvalue
    | false => exact (value_digit hc _).trans hvalue
  | text content =>
    obtain ⟨content, rfl⟩ := Option.isSome_iff_exists.1 hplain
    have hliteral := literal_renderText content.toList s
    rw [String.ofList_toList] at hliteral
    exact value_text hliteral
  | array items =>
    cases items with
    | nil => rfl
    | cons v vs =>
      cases depth with
      | zero => cases hplain
      | succ depth =>
        have hitems := h.items depth v vs s hplain (by
          simp only [render, List.length_append, List.length_cons] at hlen ⊢
          omega)
        obtain ⟨c, cs, hcs, hblank, hbracket⟩ :=
          exists_render_eq_cons (Bool.and_eq_true_iff.1 hplain).1
        rw [render]
        rw [hcs] at hitems ⊢
        refine (value_array hblank hbracket _).trans ?_
        exact congrArg (fun r => (Json.array r.1, r.2)) hitems
  | object members =>
    cases members with
    | nil => rfl
    | cons m ms =>
      obtain ⟨name, v⟩ := m
      cases depth with
      | zero => cases hplain
      | succ depth =>
        have hmembers := h.members depth name v ms s hplain (by
          simp only [render, memberChars, List.length_append, List.length_cons, List.cons_append] at hlen ⊢
          omega)
        refine (value_object _).trans ?_
        exact congrArg (fun r => (Json.object r.1, r.2)) hmembers
  | broken => cases hplain

end ReadsBack

/-- **Values are read back as they were written**, with as many nested calls as there are characters. -/
theorem readsBack (fuel : Nat) : ReadsBack fuel := by
  induction fuel with
  | zero => exact .zero
  | succ fuel ih =>
    exact ⟨fun _ _ _ hplain hlen hs => ih.value_succ hplain hlen hs,
      fun _ _ _ _ hplain hlen => ih.items_succ hplain hlen,
      fun _ _ _ _ _ hplain hlen => ih.members_succ hplain hlen⟩

/-- **The text of a value is read as the value**, and nothing of it is left. -/
theorem read_written {depth : Nat} {v : Json} (h : v.isPlain depth = true) :
    read (Source.ofString v.written) = (v, []) := by
  have hlen : (render v).length ≤ 2 * ((render v).map some).length + 1 := by
    rw [List.length_map]
    omega
  have hvalue := (readsBack (2 * ((render v).map some).length + 1)).value depth v [] h hlen nofun
  rw [List.append_nil] at hvalue
  rw [read, written, Source.ofString, String.toList_ofList]
  exact hvalue

end Json

end Interchange
