import Mathlib.Algebra.Group.Nat.Defs
import Mathlib.Data.List.Induction
import Waymark.Url.Host
/-!
# Numbers in digits

A number written in digits is read back, in any base up to sixteen, and a number read
from a few digits is small.

## Main results

* `exists_of_mem_toDigits` — what stands in a written number.
* `length_toDigits_le` — a number below a power of the base has that many digits at most.
* `readNumber?_toDigits` — a written number is read back.
* `readNumber?_lt` — a number read from `n` digits lies below the `n`-th power of the base.
-/

namespace Waymark

theorem exists_of_mem_toDigits {b n : Nat} (hb : 1 < b) {c : Char} (h : c ∈ Nat.toDigits b n) :
    ∃ d < b, c = Nat.digitChar d := by
  induction n using Nat.strongRecOn with
  | ind n ih =>
    rw [Nat.toDigits_eq_if hb] at h
    split at h
    · rename_i hn
      exact ⟨n, hn, List.mem_singleton.1 h⟩
    · rename_i hn
      rcases List.mem_append.1 h with hinit | hlast
      · exact ih (n / b) (Nat.div_lt_self (by omega) hb) hinit
      · exact ⟨n % b, Nat.mod_lt n (by omega), List.mem_singleton.1 hlast⟩

theorem hexValue?_digitChar {d : Nat} (h : d < 16) : Percent.hexValue? (Nat.digitChar d) = some d := by
  have hall : ∀ d < 16, Percent.hexValue? (Nat.digitChar d) = some d := by decide
  exact hall d h

theorem toDigits_ne_nil {b : Nat} (hb : 1 < b) (n : Nat) : Nat.toDigits b n ≠ [] := by
  rw [Nat.toDigits_eq_if hb]
  split
  · exact List.cons_ne_nil _ _
  · exact List.append_ne_nil_of_right_ne_nil _ (List.cons_ne_nil _ _)

theorem length_toDigits_le {b n k : Nat} (hb : 1 < b) (h : n < b ^ (k + 1)) :
    (Nat.toDigits b n).length ≤ k + 1 := by
  induction k generalizing n with
  | zero =>
    rw [Nat.zero_add, Nat.pow_one] at h
    rw [Nat.toDigits_eq_if hb, if_pos h]
    exact Nat.le_refl 1
  | succ k ih =>
    rw [Nat.toDigits_eq_if hb]
    split
    · exact Nat.le_add_left 1 _
    · have hdiv : n / b < b ^ (k + 1) := by
        apply Nat.div_lt_of_lt_mul
        rwa [Nat.mul_comm, ← Nat.pow_succ]
      rw [List.length_append, List.length_singleton]
      exact Nat.succ_le_succ (ih hdiv)

namespace Url

/-- One more digit at the end of a number. -/
def readDigit? (base : Nat) (acc : Option Nat) (c : Char) : Option Nat := do
  let n ← acc
  let d ← Percent.hexValue? c
  if d < base then some (n * base + d) else none

theorem readNumber?_append (base : Nat) (s : List Char) (c : Char) :
    readNumber? base (s ++ [c]) = readDigit? base (readNumber? base s) c :=
  List.foldl_append ..

theorem readNumber?_toDigits {b : Nat} (hb : 1 < b) (hb' : b ≤ 16) (n : Nat) :
    readNumber? b (Nat.toDigits b n) = some n := by
  have hdigit {acc d : Nat} (hd : d < b) :
      readDigit? b (some acc) (Nat.digitChar d) = some (acc * b + d) := by
    show ((Percent.hexValue? (Nat.digitChar d)).bind fun d =>
      if d < b then some (acc * b + d) else none) = _
    rw [hexValue?_digitChar (by omega)]
    exact if_pos hd
  induction n using Nat.strongRecOn with
  | ind n ih =>
    rw [Nat.toDigits_eq_if hb]
    split
    · rename_i hn
      have h := readNumber?_append b [] (Nat.digitChar n)
      rw [List.nil_append] at h
      rw [h]
      exact (hdigit hn).trans (by rw [Nat.zero_mul, Nat.zero_add])
    · rw [readNumber?_append, ih (n / b) (Nat.div_lt_self (by omega) hb),
        hdigit (Nat.mod_lt n (by omega)), Nat.div_add_mod']

theorem readNumber?_lt {b n : Nat} {s : List Char} (h : readNumber? b s = some n) :
    n < b ^ s.length := by
  induction s using List.reverseRecOn generalizing n with
  | nil =>
    obtain rfl := Option.some.inj h
    exact Nat.one_pos
  | append_singleton s c ih =>
    rw [readNumber?_append] at h
    obtain ⟨m, hm, h⟩ := Option.bind_eq_some_iff.1 h
    obtain ⟨d, -, h⟩ := Option.bind_eq_some_iff.1 h
    split at h
    · rename_i hd
      obtain rfl := Option.some.inj h
      have hlt := ih hm
      rw [List.length_append, List.length_singleton, Nat.pow_succ]
      have hle := Nat.mul_le_mul_right b hlt
      rw [Nat.succ_mul] at hle
      omega
    · nomatch h

end Url
end Waymark
