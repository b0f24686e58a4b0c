import Interchange.Time.Clock
import Interchange.Proofs.Json.Decoding
import Mathlib.Algebra.Group.Nat.Defs

/-!
# The times that can be read

A clock text has at most three digits for the hours, so the times that are read lie within a thousand hours
of the start of the service day. The bounds of a time are far beyond that.

* `Time.OnClock` — a time is within reach of a clock text. `Time.onClock_of_parse` — so is every time that is
  read from one.
-/

namespace Interchange

/-! ## Numerals -/

/-- A digit stands for at most nine. -/
theorem Decimal.digit?_le {c : Char} {n : Nat} (h : digit? c = some n) : n ≤ 9 := by
  unfold digit? at h
  split at h
  · rename_i hc
    cases h
    have hle : c.toNat ≤ '9'.toNat := hc.2
    have hnine : '9'.toNat = 57 := rfl
    have hzero : '0'.toNat = 48 := rfl
    omega
  · cases h

/-- A row of digits stands for less than the power of ten with as many zeros. -/
theorem Decimal.value_lt (ds : List Char) : value ds < 10 ^ ds.length := by
  have hfold : ∀ (ds : List Char) (n : Nat),
      ds.foldl (fun n c => 10 * n + (digit? c).getD 0) n < (n + 1) * 10 ^ ds.length := by
    intro ds
    induction ds with
    | nil => simp
    | cons c ds ih =>
      intro n
      have hdigit : (digit? c).getD 0 ≤ 9 := by
        rcases hc : digit? c with _ | d
        · simp
        · exact digit?_le hc
      have hstep : 10 * n + (digit? c).getD 0 + 1 ≤ (n + 1) * 10 := by omega
      calc (c :: ds).foldl (fun n c => 10 * n + (digit? c).getD 0) n
          < (10 * n + (digit? c).getD 0 + 1) * 10 ^ ds.length := ih _
        _ ≤ (n + 1) * 10 * 10 ^ ds.length := Nat.mul_le_mul_right _ hstep
        _ = (n + 1) * 10 ^ (c :: ds).length := by
          rw [List.length_cons, Nat.pow_succ', Nat.mul_assoc]
  have h := hfold ds 0
  rwa [Nat.zero_add, Nat.one_mul] at h

/-! ## Clock texts -/

namespace Clock

/-- Hours are fewer than a thousand. -/
theorem hours_le {ds : List Char} {n : Nat} (h : hours ds = .ok n) : n ≤ 999 := by
  unfold hours at h
  split at h
  · cases h
  · rename_i hds
    cases h
    have hlen : ds.length ≤ 3 := by omega
    have hvalue := Decimal.value_lt ds
    have hpow : 10 ^ ds.length ≤ 10 ^ 3 := Nat.pow_le_pow_right (by decide) hlen
    omega

/-- Minutes and seconds are fewer than sixty. -/
theorem sixtieth_le {f g : ClockFault} {ds : List Char} {n : Nat} (h : sixtieth f g ds = .ok n) :
    n ≤ 59 := by
  unfold sixtieth at h
  split at h
  · cases h
  · split at h
    · cases h
    · cases h
      omega

/-- A clock text stands for less than a thousand hours. -/
theorem seconds_le {parts : List (List Char)} {n : Nat} (h : seconds parts = .ok n) : n ≤ 3599999 := by
  unfold seconds at h
  split at h
  · obtain ⟨hours, hhours, h⟩ := bind_eq_ok_iff.1 h
    obtain ⟨minutes, hminutes, h⟩ := bind_eq_ok_iff.1 h
    cases h
    have := hours_le hhours
    have := sixtieth_le hminutes
    omega
  · obtain ⟨hours, hhours, h⟩ := bind_eq_ok_iff.1 h
    obtain ⟨minutes, hminutes, h⟩ := bind_eq_ok_iff.1 h
    obtain ⟨seconds, hseconds, h⟩ := bind_eq_ok_iff.1 h
    cases h
    have := hours_le hhours
    have := sixtieth_le hminutes
    have := sixtieth_le hseconds
    omega
  · cases h

end Clock

namespace Time

/-- A time is less than a thousand hours from the start of the service day. -/
def OnClock (t : Time) : Prop := -3599999 ≤ t.secs ∧ t.secs ≤ 3599999

/-- **Every time that is read from a clock text is on the clock.** -/
theorem onClock_of_parse {s : String} {t : Time} (h : parse s = .ok t) : t.OnClock := by
  have hnear : ∀ n : Nat, n ≤ 3599999 → (ofInt n).OnClock ∧ (ofInt (-n)).OnClock := by
    intro n hn
    simp only [OnClock, ofInt, clamp, least, greatest]
    omega
  unfold parse ofChars at h
  split at h
  · obtain ⟨n, hn, h⟩ := bind_eq_ok_iff.1 h
    cases h
    exact (hnear n (Clock.seconds_le hn)).2
  · obtain ⟨n, hn, h⟩ := bind_eq_ok_iff.1 h
    cases h
    exact (hnear n (Clock.seconds_le hn)).1

end Time

end Interchange
