/-!
# Versions

A version is a count of milliseconds in 64 bits.  Its token, the form appended to
URLs, is the number in lower-case hexadecimal without leading zeros.

## Main results

* `lt_max_add_one` — short of the last version there is always a later one.
-/

namespace Waymark

/-- When a module was last compiled or changed. -/
abbrev Version := UInt64

/-- The form of a version that is appended to URLs. -/
def Version.token (v : Version) : String := String.ofList (Nat.toDigits 16 v.toNat)

/-- The last version there is.  No version comes after it. -/
def Version.last : Version := 0xFFFFFFFFFFFFFFFF

/-- Short of the last version, the next one is later, whatever the clock says. -/
theorem Version.lt_max_add_one {v : Version} (now : Version) (h : v < Version.last) :
    v < max now (v + 1) := by
  have hlast : Version.last.toNat = 2 ^ 64 - 1 := rfl
  have hone : (1 : Version).toNat = 1 := rfl
  rw [UInt64.lt_iff_toNat_lt, hlast] at h
  have hsucc : (v + 1).toNat = v.toNat + 1 := by
    rw [UInt64.toNat_add, hone]
    omega
  show v < if now ≤ v + 1 then v + 1 else now
  split
  · rw [UInt64.lt_iff_toNat_lt]
    omega
  · rename_i hnow
    rw [UInt64.le_iff_toNat_le] at hnow
    rw [UInt64.lt_iff_toNat_lt]
    omega

end Waymark
