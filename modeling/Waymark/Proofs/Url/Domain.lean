import Waymark.Proofs.Text.Pieces
import Waymark.Proofs.Text.Utf8
import Waymark.Url.Host
/-!
# Domains are written in one way

Reading a domain brings it to lower-case ASCII: dots of other scripts become dots,
capitals become small, and a label beyond ASCII is written in Punycode.  Whatever the
text was, only characters come out of this that stand for themselves when the domain
is read again.

## Main results

* `lower_of_ascii`, `isUpper_of_mem_lower` — lower case of what is in lower case, and of anything.
* `isDomainChar_encode` — Punycode adds nothing but small letters, digits and hyphens.
* `isDomain_asciiDomain`, `asciiDomain_of_isDomain` — a domain that was read is read as itself.
-/

namespace Waymark

namespace Text

/-! ## Lower case -/

/-- What holds of all characters of ASCII can be told from their numbers. -/
theorem forall_ascii {P : Char → Prop} (h : ∀ n < 128, P (Char.ofNat n)) {c : Char}
    (hc : c.toNat < 128) : P c := by
  have := h c.toNat hc
  rwa [Char.ofNat_toNat] at this

theorem isUpper_iff {c : Char} : c.isUpper = true ↔ 65 ≤ c.toNat ∧ c.toNat ≤ 90 := by
  delta Char.isUpper
  simp [UInt32.le_iff_toNat_le, ← Char.toNat_val]

theorem isUpper_eq_false {c : Char} (h : 90 < c.toNat) : c.isUpper = false := by
  rw [Bool.eq_false_iff, Ne, isUpper_iff]
  omega

theorem toLower_eq_self {c : Char} (hc : c.toNat < 128) (h : c.isUpper = false) :
    c.toLower = c :=
  forall_ascii (P := fun c => c.isUpper = false → c.toLower = c) (by decide) hc h

theorem isUpper_toLower {c : Char} (hc : c.toNat < 128) : c.toLower.isUpper = false :=
  forall_ascii (P := fun c => c.toLower.isUpper = false) (by decide) hc

theorem lowerAfter_of_ascii {s : List Char} (h : ∀ c ∈ s, c.toNat < 128 ∧ c.isUpper = false)
    (before : List Char) : lowerAfter before s = s := by
  induction s generalizing before with
  | nil => rfl
  | cons c s ih =>
    obtain ⟨hascii, hupper⟩ := h c (List.mem_cons_self ..)
    have hsigma : c ≠ 'Σ' := by
      rintro rfl
      exact absurd hascii (by decide)
    rw [lowerAfter, if_neg hsigma, lowerChar_ascii hascii, toLower_eq_self hascii hupper,
      ih fun d hd => h d (List.mem_cons_of_mem _ hd)]
    rfl

/-- Text in lower-case ASCII is its own lower case. -/
theorem lower_of_ascii {s : List Char} (h : ∀ c ∈ s, c.toNat < 128 ∧ c.isUpper = false) :
    lower s = s :=
  lowerAfter_of_ascii h []

/-- No lower case beyond ASCII is a capital letter of ASCII. -/
theorem lowerRuns_above : ∀ r ∈ lowerRuns, (90 : Int) < r.first + r.shift := by
  decide +kernel

theorem isUpper_ofNat_of_lt {n : Nat} (h : 90 < n) : (Char.ofNat n).isUpper = false := by
  by_cases hvalid : n.isValidChar
  · apply isUpper_eq_false
    rw [Char.ofNat, dif_pos hvalid]
    exact h
  · rw [Char.ofNat, dif_neg hvalid]
    rfl

theorem isUpper_of_mem_lowerChar {c d : Char} (h : d ∈ lowerChar c) : d.isUpper = false := by
  unfold lowerChar at h
  split at h
  · rename_i hascii
    obtain rfl := List.mem_singleton.1 h
    exact isUpper_toLower hascii
  · rename_i hascii
    split at h
    · exact Text.forall_mem_of_all (P := fun d => d.isUpper = false) (by decide) d h
    · split at h
      · rename_i r hr
        obtain rfl := List.mem_singleton.1 h
        have habove := lowerRuns_above r (List.mem_of_find?_eq_some hr)
        have hcovers := List.find?_some hr
        simp only [CaseRun.covers, Bool.and_eq_true, decide_eq_true_eq] at hcovers
        apply isUpper_ofNat_of_lt
        omega
      · obtain rfl := List.mem_singleton.1 h
        apply isUpper_eq_false
        omega

theorem isUpper_of_mem_lowerAfter {before s : List Char} {d : Char} (h : d ∈ lowerAfter before s) :
    d.isUpper = false := by
  induction s generalizing before with
  | nil => nomatch h
  | cons c s ih =>
    rw [lowerAfter] at h
    rcases List.mem_append.1 h with h | h
    · split at h
      · obtain rfl := List.mem_singleton.1 h
        split <;> decide
      · exact isUpper_of_mem_lowerChar h
    · exact ih h

/-- Lower case of a text has no capital letter of ASCII. -/
theorem isUpper_of_mem_lower {s : List Char} {d : Char} (h : d ∈ lower s) : d.isUpper = false :=
  isUpper_of_mem_lowerAfter h

end Text

namespace Url

/-! ## Characters of a domain -/

/-- Whether a character stands in domains and stays as it is when one is read. -/
def isDomainChar (c : Char) : Bool := c.toNat < 128 && !forbiddenInDomain c && !c.isUpper

theorem isDomainChar_iff {c : Char} :
    isDomainChar c = true ↔ c.toNat < 128 ∧ forbiddenInDomain c = false ∧ c.isUpper = false := by
  simp [isDomainChar, and_assoc]

namespace Punycode

theorem isDomainChar_digit {d : Nat} (h : d < 36) : isDomainChar (digit d) = true := by
  have hall : ∀ d < 36, isDomainChar (digit d) = true := by decide
  exact hall d h

theorem isDomainChar_writeNumber {bias k q : Nat} {c : Char} (h : c ∈ writeNumber bias k q) :
    isDomainChar c = true := by
  induction q using Nat.strongRecOn generalizing k with
  | ind q ih =>
    have ht := threshold_bounds k bias
    rw [writeNumber] at h
    split at h
    · obtain rfl := List.mem_singleton.1 h
      exact isDomainChar_digit (by omega)
    · rename_i hq
      rcases List.mem_cons.1 h with rfl | h
      · have := Nat.mod_lt (q - threshold k bias) (by omega : 0 < 36 - threshold k bias)
        exact isDomainChar_digit (by omega)
      · refine ih _ ?_ h
        exact Nat.lt_of_le_of_lt (Nat.div_le_self _ _) (by omega)

theorem isDomainChar_visit {basic n : Nat} {p : Progress} {a : Char}
    (hp : ∀ c ∈ p.output, isDomainChar c = true) :
    ∀ c ∈ (visit basic n p a).output, isDomainChar c = true := by
  intro c hc
  unfold visit at hc
  split at hc
  · exact hp c hc
  · split at hc
    · rcases List.mem_append.1 hc with hc | hc
      · exact hp c hc
      · exact isDomainChar_writeNumber hc
    · exact hp c hc

theorem isDomainChar_foldl_visit {label : List Char} {basic n : Nat} {p : Progress}
    (hp : ∀ c ∈ p.output, isDomainChar c = true) :
    ∀ c ∈ (label.foldl (visit basic n) p).output, isDomainChar c = true := by
  induction label generalizing p with
  | nil => exact hp
  | cons a label ih => exact ih (isDomainChar_visit hp)

theorem isDomainChar_insertAll {label : List Char} {basic : Nat} {ns : List Nat} {reached : Nat}
    {p : Progress} (hp : ∀ c ∈ p.output, isDomainChar c = true) :
    ∀ c ∈ (insertAll label basic ns reached p).output, isDomainChar c = true := by
  induction ns generalizing reached p with
  | nil => exact hp
  | cons n ns ih => exact ih (isDomainChar_foldl_visit hp)

/-- Punycode of a label holds the ASCII characters of the label, hyphens and digits. -/
theorem isDomainChar_encode {label : List Char}
    (h : ∀ c ∈ label, c.toNat < 128 → isDomainChar c = true) :
    ∀ c ∈ encode label, isDomainChar c = true := by
  apply isDomainChar_insertAll
  intro c hc
  have hascii : ∀ c ∈ label.filter fun c => c.toNat < 128, isDomainChar c = true := by
    intro c hc
    obtain ⟨hc, hlt⟩ := List.mem_filter.1 hc
    exact h c hc (of_decide_eq_true hlt)
  dsimp only at hc
  split at hc
  · nomatch hc
  · rcases List.mem_append.1 hc with hc | hc
    · exact hascii c hc
    · obtain rfl := List.mem_singleton.1 hc
      decide

end Punycode

/-! ## Domains -/

/-- A text that holds only characters of domains. -/
def IsDomain (s : List Char) : Prop := ∀ c ∈ s, isDomainChar c = true

theorem isDomain_asciiLabel {label : List Char}
    (h : ∀ c ∈ label, forbiddenInDomain c = false ∧ c.isUpper = false) :
    IsDomain (asciiLabel label) := by
  have hchar : ∀ c ∈ label, c.toNat < 128 → isDomainChar c = true := fun c hc hlt =>
    isDomainChar_iff.2 ⟨hlt, (h c hc).1, (h c hc).2⟩
  unfold asciiLabel
  split
  · rename_i hascii
    intro c hc
    exact hchar c hc (of_decide_eq_true (List.all_eq_true.1 hascii c hc))
  · intro c hc
    rcases List.mem_append.1 hc with hc | hc
    · exact Text.forall_mem_of_all (P := (isDomainChar · = true)) (by decide) c hc
    · exact Punycode.isDomainChar_encode hchar c hc

/-- What a domain is read as holds only characters of domains. -/
theorem isDomain_asciiDomain {s domain : List Char} (h : asciiDomain s = .ok domain) :
    IsDomain domain := by
  unfold asciiDomain at h
  dsimp only at h
  split at h
  · nomatch h
  · rename_i hforbidden
    obtain rfl := Except.ok.inj h
    intro c hc
    rcases Text.mem_of_mem_joinPieces hc with rfl | ⟨label, hlabel, hc⟩
    · decide
    · obtain ⟨piece, hpiece, rfl⟩ := List.mem_map.1 hlabel
      refine isDomain_asciiLabel ?_ c hc
      intro d hd
      have hd := Text.mem_of_mem_pieces hpiece hd
      constructor
      · rw [List.any_eq_true] at hforbidden
        rw [Bool.eq_false_iff]
        exact fun hd' => hforbidden ⟨d, hd, hd'⟩
      · exact Text.isUpper_of_mem_lower hd

/-- A domain that holds only characters of domains is read as itself. -/
theorem asciiDomain_of_isDomain {s : List Char} (h : IsDomain s) : asciiDomain s = .ok s := by
  have hascii : ∀ c ∈ s, c.toNat < 128 := fun c hc => (isDomainChar_iff.1 (h c hc)).1
  have hdots : s.map plainDot = s := by
    refine (List.map_congr_left fun c hc => ?_).trans (List.map_id s)
    have := hascii c hc
    unfold plainDot
    rw [if_neg (by omega)]
    rfl
  have hlow : Text.lower s = s := Text.lower_of_ascii fun c hc =>
    ⟨hascii c hc, (isDomainChar_iff.1 (h c hc)).2.2⟩
  have hforbidden : ¬s.any forbiddenInDomain = true := by
    rw [List.any_eq_true]
    rintro ⟨c, hc, hforbidden⟩
    rw [(isDomainChar_iff.1 (h c hc)).2.1] at hforbidden
    nomatch hforbidden
  have hlabels : (Text.pieces '.' s).map asciiLabel = Text.pieces '.' s := by
    refine (List.map_congr_left fun label hlabel => ?_).trans (List.map_id _)
    have hall : label.all (·.toNat < 128) = true := by
      rw [List.all_eq_true]
      exact fun c hc => decide_eq_true (hascii c (Text.mem_of_mem_pieces hlabel hc))
    rw [asciiLabel, if_pos hall]
    rfl
  unfold asciiDomain
  rw [hdots, hlow]
  dsimp only
  rw [if_neg hforbidden, hlabels, Text.joinPieces_pieces]

end Url
end Waymark
