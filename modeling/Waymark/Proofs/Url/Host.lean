import Waymark.Proofs.Percent
import Waymark.Proofs.Url.Ipv6
/-!
# Hosts are written in one way

What a host is read as is read as itself, whether it is a domain, an IPv4 address in
four decimal numbers, or an IPv6 address in brackets.

## Main results

* `readHost_of_isDomain` — a text of domain characters is read as a domain or an IPv4 address.
* `readIpv4_showIpv4` — an IPv4 address is read back.
* `readHost_of_readHost` — a host that was read is read as itself.
* `isHostChar_of_readHost` — the characters it is written with.
-/

namespace Waymark.Url

/-! ## Texts of domains -/

theorem IsDomain.ne_of_mem {s : List Char} (h : IsDomain s) {c d : Char} (hc : c ∈ s)
    (hd : isDomainChar d = false) : c ≠ d := by
  rintro rfl
  rw [h c hc] at hd
  nomatch hd

theorem decodeOctets_of_notMem {s : List Char} (h : '%' ∉ s) :
    Percent.decodeOctets s = Text.Utf8.encode s := by
  induction s with
  | nil => rfl
  | cons c s ih =>
    rw [List.mem_cons, not_or] at h
    rw [Percent.decodeOctets_plain (Ne.symm h.1), ih h.2]
    rfl

theorem decode?_encode (s : List Char) : Text.Utf8.decode? (Text.Utf8.encode s) = some s := by
  induction s with
  | nil => simp [Text.Utf8.encode, Text.Utf8.decode?]
  | cons c s ih =>
    obtain ⟨b, rest, hc, hread⟩ := Text.Utf8.readChar_encode c (Text.Utf8.encode s)
    have hcons : Text.Utf8.encode (c :: s) = b :: (rest ++ Text.Utf8.encode s) := by
      show (c :: s).flatMap String.utf8EncodeChar = _
      rw [List.flatMap_cons, hc]
      rfl
    rw [hcons, Text.Utf8.decode?, hread]
    dsimp only
    rw [ih]
    rfl

/-- A text of domain characters is read as an IPv4 address or as it is. -/
theorem readHost_of_isDomain {s : List Char} (h : IsDomain s) (hne : s ≠ []) :
    readHost s = if endsInNumber s then (readIpv4 s).map showIpv4 else .ok s := by
  have hbracket : ¬s.head? = some '[' := fun hhead =>
    h.ne_of_mem (List.mem_of_head? hhead) (by decide) rfl
  have hpercent : '%' ∉ s := fun hmem => h.ne_of_mem hmem (by decide) rfl
  rw [readHost, if_neg hbracket, decodeOctets_of_notMem hpercent, decode?_encode]
  show (asciiDomain s >>= fun domain => if domain = [] then Except.error .emptyHost
    else if endsInNumber domain = true then readIpv4 domain >>= fun n => pure (showIpv4 n)
    else pure domain) = _
  rw [asciiDomain_of_isDomain h]
  show (if s = [] then _ else _) = _
  rw [if_neg hne]
  split
  · cases readIpv4 s with
    | error e => rfl
    | ok n => rfl
  · rfl

/-! ## IPv4 addresses -/

/-- The four numbers of an IPv4 address. -/
def ipv4Parts (n : Nat) : List Nat := [n >>> 24 % 256, n >>> 16 % 256, n >>> 8 % 256, n % 256]

theorem lt_of_mem_ipv4Parts {n a : Nat} (h : a ∈ ipv4Parts n) : a < 256 := by
  have hmod (m : Nat) : m % 256 < 256 := Nat.mod_lt m (by decide)
  simp only [ipv4Parts, List.mem_cons, List.not_mem_nil, or_false] at h
  rcases h with rfl | rfl | rfl | rfl
  · exact hmod _
  · exact hmod _
  · exact hmod _
  · exact hmod _

theorem readIpv4Part?_decimal {a : Nat} (h : a < 256) : readIpv4Part? (decimal a) = some a := by
  have hall : ∀ a < 256, readIpv4Part? (decimal a) = some a := by decide +kernel
  exact hall a h

theorem isDomainChar_decimal {a : Nat} {c : Char} (h : c ∈ decimal a) :
    isDomainChar c = true ∧ c.isDigit = true ∧ c ≠ '.' := by
  obtain ⟨d, hd, rfl⟩ := exists_of_mem_toDigits (by decide) h
  have hall : ∀ d < 10, isDomainChar (Nat.digitChar d) = true ∧ (Nat.digitChar d).isDigit = true ∧
      Nat.digitChar d ≠ '.' := by decide
  exact hall d hd

theorem decimal_ne_nil (a : Nat) : decimal a ≠ [] := toDigits_ne_nil (by decide) a

theorem isDomain_showIpv4 (n : Nat) : IsDomain (showIpv4 n) := by
  intro c hc
  rcases Text.mem_of_mem_joinPieces hc with rfl | ⟨part, hpart, hc⟩
  · decide
  · obtain ⟨a, -, rfl⟩ := List.mem_map.1 hpart
    exact (isDomainChar_decimal hc).1

theorem domainParts_showIpv4 (n : Nat) :
    domainParts (showIpv4 n) = (ipv4Parts n).map decimal := by
  have hpieces : Text.pieces '.' (showIpv4 n) = (ipv4Parts n).map decimal := by
    apply Text.pieces_joinPieces
    · intro part hpart hdot
      obtain ⟨a, -, rfl⟩ := List.mem_map.1 hpart
      exact (isDomainChar_decimal hdot).2.2 rfl
    · exact List.cons_ne_nil _ _
  have hlast : ((ipv4Parts n).map decimal).getLast? ≠ some [] := by
    intro hlast
    exact decimal_ne_nil _ (Option.some.inj hlast)
  rw [domainParts, hpieces]
  exact if_neg hlast

theorem endsInNumber_showIpv4 (n : Nat) : endsInNumber (showIpv4 n) = true := by
  rw [endsInNumber_iff, domainParts_showIpv4]
  refine ⟨decimal (n % 256), rfl, Or.inl ⟨decimal_ne_nil _, ?_⟩⟩
  rw [List.all_eq_true]
  exact fun c hc => (isDomainChar_decimal hc).2.1

theorem mapM_readIpv4Part? {as : List Nat} (h : ∀ a ∈ as, a < 256) :
    (as.map decimal).mapM readIpv4Part? = some as := by
  induction as with
  | nil => rfl
  | cons a as ih =>
    rw [List.map_cons, List.mapM_cons, readIpv4Part?_decimal (h a (List.mem_cons_self ..)),
      ih fun b hb => h b (List.mem_cons_of_mem _ hb)]
    rfl

/-- The bits of an IPv4 address are read back, as far as they are written. -/
theorem readIpv4_showIpv4 (n : Nat) :
    ∃ m, readIpv4 (showIpv4 n) = .ok m ∧ ipv4Parts m = ipv4Parts n := by
  have hlt := fun a => lt_of_mem_ipv4Parts (n := n) (a := a)
  unfold readIpv4
  rw [domainParts_showIpv4]
  dsimp only
  rw [mapM_readIpv4Part? hlt]
  unfold ipv4Parts at hlt ⊢
  generalize n >>> 24 % 256 = a at hlt ⊢
  generalize n >>> 16 % 256 = b at hlt ⊢
  generalize n >>> 8 % 256 = c at hlt ⊢
  generalize n % 256 = d at hlt ⊢
  have ha : a < 256 := hlt a (by simp)
  have hb : b < 256 := hlt b (by simp)
  have hc : c < 256 := hlt c (by simp)
  have hd : d < 256 := hlt d (by simp)
  refine ⟨d + a * 2 ^ 24 + b * 2 ^ 16 + c * 2 ^ 8, ?_, ?_⟩
  · have hfits : d < 1 <<< (8 * (4 - [c, b, a].length)) ∧ [c, b, a].all (· < 256) = true := by
      simp [ha, hb, hc, hd]
    show (if d < 1 <<< (8 * (4 - [c, b, a].length)) ∧ [c, b, a].all (· < 256) = true then _
      else _) = _
    rw [if_pos hfits]
    simp [Nat.shiftLeft_eq]
  · simp only [Nat.shiftRight_eq_div_pow, List.cons.injEq, and_true]
    omega

theorem showIpv4_ne_nil (n : Nat) : showIpv4 n ≠ [] := by
  intro hnil
  have hends := endsInNumber_showIpv4 n
  rw [hnil] at hends
  nomatch hends

theorem readHost_showIpv4 (n : Nat) : readHost (showIpv4 n) = .ok (showIpv4 n) := by
  obtain ⟨m, hread, hparts⟩ := readIpv4_showIpv4 n
  have hshow : showIpv4 m = showIpv4 n :=
    congrArg (fun parts : List Nat => Text.joinPieces '.' (parts.map decimal)) hparts
  rw [readHost_of_isDomain (isDomain_showIpv4 n) (showIpv4_ne_nil n),
    if_pos (endsInNumber_showIpv4 n), hread, Except.map, hshow]

/-! ## Hosts -/

/-- The host of a URL is a domain, in the wide sense, or an IPv6 address. -/
theorem readHost_cases {s host : List Char} (h : readHost s = .ok host) :
    (IsDomain host ∧ host ≠ [] ∧ readHost host = .ok host) ∨
      ∃ pieces, pieces.length = 8 ∧ AreWords pieces ∧ host = showIpv6 pieces := by
  unfold readHost at h
  split at h
  · right
    unfold readBracketed at h
    split at h
    · cases h
    · rename_i body _
      cases hread : readIpv6 (body.drop 1) with
      | error e =>
        rw [hread] at h
        cases h
      | ok pieces =>
        rw [hread] at h
        obtain ⟨hlength, hwords⟩ := areWords_of_readIpv6 hread
        exact ⟨pieces, hlength, hwords, (Except.ok.inj h).symm⟩
  · left
    split at h
    · cases h
    · rename_i decoded _
      cases hdomain : asciiDomain decoded with
      | error e =>
        rw [hdomain] at h
        cases h
      | ok domain =>
        have hchars := isDomain_asciiDomain hdomain
        rw [hdomain] at h
        have h : (if domain = [] then Except.error .emptyHost
          else if endsInNumber domain = true then readIpv4 domain >>= fun n => pure (showIpv4 n)
          else pure domain) = Except.ok host := h
        split at h
        · cases h
        · rename_i hne
          split at h
          · cases hread : readIpv4 domain with
            | error e =>
              rw [hread] at h
              cases h
            | ok n =>
              rw [hread] at h
              obtain rfl := Except.ok.inj h
              exact ⟨isDomain_showIpv4 n, showIpv4_ne_nil n, readHost_showIpv4 n⟩
          · rename_i hnumber
            obtain rfl := Except.ok.inj h
            refine ⟨hchars, hne, ?_⟩
            rw [readHost_of_isDomain hchars hne, if_neg hnumber]

/-- A host that was read is read as itself. -/
theorem readHost_of_readHost {s host : List Char} (h : readHost s = .ok host) :
    readHost host = .ok host := by
  rcases readHost_cases h with ⟨-, -, hread⟩ | ⟨pieces, hlength, hwords, rfl⟩
  · exact hread
  · have hbracket : (showIpv6 pieces).head? = some '[' := rfl
    rw [readHost, if_pos hbracket]
    exact readBracketed_showIpv6 hlength hwords

theorem ne_nil_of_readHost {s host : List Char} (h : readHost s = .ok host) : host ≠ [] := by
  rcases readHost_cases h with ⟨-, hne, -⟩ | ⟨pieces, -, -, rfl⟩
  · exact hne
  · exact List.cons_ne_nil _ _

/-- Whether a character may stand in the host of a URL. -/
def isHostChar (c : Char) : Bool := isDomainChar c || c ∈ ['[', ']', ':']

theorem isHostChar_of_readHost {s host : List Char} (h : readHost s = .ok host) :
    ∀ c ∈ host, isHostChar c = true := by
  intro c hc
  unfold isHostChar
  rw [Bool.or_eq_true]
  rcases readHost_cases h with ⟨hdomain, -, -⟩ | ⟨pieces, -, -, rfl⟩
  · exact Or.inl (hdomain c hc)
  · obtain ⟨body, hbody, hchars⟩ := exists_showIpv6 pieces
    rw [hbody] at hc
    simp only [List.cons_append, List.mem_cons, List.mem_append, List.not_mem_nil, or_false] at hc
    rcases hc with rfl | hc | rfl
    · exact Or.inr (by decide)
    · rcases hchars c hc with hc | rfl
      · exact Or.inl hc
      · exact Or.inr (by decide)
    · exact Or.inr (by decide)

end Waymark.Url
