import Mathlib.Data.List.TakeWhile
import Waymark.Proofs.Text.Digits
import Waymark.Proofs.Url.Domain
/-!
# IPv6 addresses are read back

An IPv6 address is written as eight pieces of 16 bits between colons, the longest run
of zeros among them left out.  The run is found again by its length, since the pieces
on both sides of it are read one by one.

## Main results

* `eq_of_longestZeroRun` — what is left out is a run of zeros.
* `cutText_showPieces` — two colons stand nowhere but where the run was left out.
* `readBracketed_showIpv6` — an IPv6 address is read back.
* `areWords_of_readIpv6` — what is read are eight pieces of 16 bits.
-/

namespace Waymark.Url

/-! ## Pieces -/

/-- The pieces of an IPv6 address have 16 bits each. -/
def AreWords (pieces : List Nat) : Prop := ∀ n ∈ pieces, n < 65536

theorem ne_colon_of_mem_toDigits {n : Nat} {c : Char} (h : c ∈ Nat.toDigits 16 n) :
    isDomainChar c = true ∧ c ≠ ':' ∧ c ≠ '.' := by
  obtain ⟨d, hd, rfl⟩ := exists_of_mem_toDigits (by decide) h
  have hall : ∀ d < 16, isDomainChar (Nat.digitChar d) = true ∧ Nat.digitChar d ≠ ':' ∧
      Nat.digitChar d ≠ '.' := by decide
  exact hall d hd

/-- Pieces that are written out are read back. -/
theorem readIpv6Pieces?_map {final : Bool} {ps : List Nat} (h : AreWords ps) :
    readIpv6Pieces? final (ps.map (Nat.toDigits 16)) = some ps := by
  induction ps with
  | nil => rfl
  | cons n ps ih =>
    have hn : n < 65536 := h n (List.mem_cons_self ..)
    have hfits : Nat.toDigits 16 n ≠ [] ∧ (Nat.toDigits 16 n).length ≤ 4 :=
      ⟨toDigits_ne_nil (by decide) n, length_toDigits_le (k := 3) (by decide) hn⟩
    have hread : readNumber? 16 (Nat.toDigits 16 n) = some n :=
      readNumber?_toDigits (by decide) (by decide) n
    cases ps with
    | nil =>
      have hdot : ¬(final = true ∧ '.' ∈ Nat.toDigits 16 n) := fun hdot =>
        (ne_colon_of_mem_toDigits hdot.2).2.2 rfl
      rw [List.map_cons, List.map_nil, readIpv6Pieces?, if_neg hdot, if_pos hfits, hread]
      rfl
    | cons m ps =>
      have ih := ih fun k hk => h k (List.mem_cons_of_mem _ hk)
      rw [List.map_cons] at ih ⊢
      rw [List.map_cons, readIpv6Pieces?, if_pos hfits, hread, ih]
      · rfl
      · exact List.cons_ne_nil _ _

theorem pieces_showPieces {ps : List Nat} (hne : ps ≠ []) :
    Text.pieces ':' (showPieces ps) = ps.map (Nat.toDigits 16) := by
  apply Text.pieces_joinPieces
  · intro piece hpiece hcolon
    obtain ⟨n, -, rfl⟩ := List.mem_map.1 hpiece
    exact (ne_colon_of_mem_toDigits hcolon).2.1 rfl
  · exact fun hnil => hne (List.map_eq_nil_iff.1 hnil)

theorem readIpv6Side?_showPieces {final : Bool} {ps : List Nat} (h : AreWords ps) :
    readIpv6Side? final (showPieces ps) = some ps := by
  cases ps with
  | nil => rfl
  | cons n ps =>
    have hne : showPieces (n :: ps) ≠ [] := by
      intro hnil
      have hpieces := pieces_showPieces (List.cons_ne_nil n ps)
      rw [hnil] at hpieces
      exact toDigits_ne_nil (by decide) n (List.cons.inj hpieces).1.symm
    rw [readIpv6Side?, if_neg hne, pieces_showPieces (List.cons_ne_nil n ps),
      readIpv6Pieces?_map h]

/-- A run that is left out is one of zeros. -/
theorem eq_of_longestZeroRun {pieces : List Nat} {start length : Nat}
    (h : longestZeroRun pieces = some (start, length)) :
    2 ≤ length ∧
      pieces = pieces.take start ++ List.replicate length 0 ++ pieces.drop (start + length) := by
  have hrun : 2 ≤ length ∧ length = zeroRun (pieces.drop start) := by
    unfold longestZeroRun at h
    -- Whatever has been looked at, the best run so far is one.
    suffices hfold : ∀ (starts : List Nat) (best : Option (Nat × Nat)),
        (∀ i n, best = some (i, n) → 2 ≤ n ∧ n = zeroRun (pieces.drop i)) →
        ∀ i n, starts.foldl _ best = some (i, n) → 2 ≤ n ∧ n = zeroRun (pieces.drop i) from
      hfold _ none (fun _ _ hbest => nomatch hbest) start length h
    intro starts
    induction starts with
    | nil => exact fun best hbest => hbest
    | cons j starts ih =>
      intro best hbest
      apply ih
      intro i n hn
      dsimp only at hn
      split at hn
      · split at hn
        · rename_i hlong
          obtain ⟨rfl, rfl⟩ := Prod.mk.inj (Option.some.inj hn)
          exact ⟨hlong, rfl⟩
        · nomatch hn
      · rename_i k longest
        obtain ⟨hlongest, -⟩ := hbest k longest rfl
        split at hn
        · obtain ⟨rfl, rfl⟩ := Prod.mk.inj (Option.some.inj hn)
          exact ⟨by omega, rfl⟩
        · exact hbest i n hn
  refine ⟨hrun.1, ?_⟩
  have hzeros : (pieces.drop start).takeWhile (· = 0) = List.replicate length 0 := by
    rw [List.eq_replicate_iff]
    refine ⟨hrun.2.symm, fun n hn => ?_⟩
    simpa using List.mem_takeWhile_imp hn
  have hsplit : pieces.drop start =
      List.replicate length 0 ++ (pieces.drop start).dropWhile (· = 0) := by
    rw [← hzeros, List.takeWhile_append_dropWhile]
  have hrest : pieces.drop (start + length) = (pieces.drop start).dropWhile (· = 0) := by
    rw [← List.drop_drop]
    refine (congrArg (List.drop length) hsplit).trans ?_
    exact List.drop_left' (List.length_replicate ..)
  calc pieces = pieces.take start ++ pieces.drop start := (List.take_append_drop start pieces).symm
    _ = pieces.take start ++ (List.replicate length 0 ++ pieces.drop (start + length)) := by
      rw [hrest, ← hsplit]
    _ = _ := (List.append_assoc ..).symm

/-! ## Cuts at two colons -/

/-- A text is taken off the front of another one character by character. -/
theorem isPrefixOf?_cons (c d : Char) (p s : List Char) :
    List.isPrefixOf? (c :: p) (d :: s) = if c == d then List.isPrefixOf? p s else none := rfl

/-- A piece without colons is passed over. -/
theorem cutText_append {a : List Char} (h : ':' ∉ a) (s : List Char) :
    Text.cutText [':', ':'] (a ++ s) =
      (Text.cutText [':', ':'] s).map fun (before, after) => (a ++ before, after) := by
  induction a with
  | nil =>
    rw [List.nil_append]
    cases Text.cutText [':', ':'] s <;> rfl
  | cons c a ih =>
    rw [List.mem_cons, not_or] at h
    have hcolon : (':' == c) = false := beq_false_of_ne h.1
    rw [List.cons_append, Text.cutText]
    simp only [isPrefixOf?_cons, hcolon, Bool.false_eq_true, if_false, ih h.2]
    cases Text.cutText [':', ':'] s <;> rfl

/-- A colon with another character after it is passed over. -/
theorem cutText_colon {d : Char} (h : d ≠ ':') (s : List Char) :
    Text.cutText [':', ':'] (':' :: d :: s) =
      (Text.cutText [':', ':'] (d :: s)).map fun (before, after) => (':' :: before, after) := by
  have hcolon : (':' == d) = false := beq_false_of_ne h.symm
  rw [Text.cutText]
  simp [isPrefixOf?_cons, hcolon]

theorem exists_showPieces (n : Nat) (ps : List Nat) :
    ∃ d rest, showPieces (n :: ps) = d :: rest ∧ d ≠ ':' := by
  cases hdigits : Nat.toDigits 16 n with
  | nil => exact absurd hdigits (toDigits_ne_nil (by decide) n)
  | cons d rest =>
    have hd : d ≠ ':' := by
      apply (ne_colon_of_mem_toDigits (n := n) _).2.1
      rw [hdigits]
      exact List.mem_cons_self ..
    cases ps with
    | nil => exact ⟨d, rest, hdigits, hd⟩
    | cons m ps =>
      have hshow : showPieces (n :: m :: ps) = Nat.toDigits 16 n ++ ':' :: showPieces (m :: ps) := rfl
      exact ⟨d, _, by rw [hshow, hdigits, List.cons_append], hd⟩

/-- Two colons cut written pieces from what follows them, and nothing else does. -/
theorem cutText_showPieces (ps : List Nat) :
    Text.cutText [':', ':'] (showPieces ps) = none ∧
      ∀ s, Text.cutText [':', ':'] (showPieces ps ++ ':' :: ':' :: s) = some (showPieces ps, s) := by
  have hcolons (s : List Char) :
      Text.cutText [':', ':'] (':' :: ':' :: s) = some ([], s) := by
    rw [Text.cutText]
    rfl
  induction ps with
  | nil => exact ⟨rfl, hcolons⟩
  | cons n ps ih =>
    have hn : ':' ∉ Nat.toDigits 16 n := fun hmem => (ne_colon_of_mem_toDigits hmem).2.1 rfl
    cases ps with
    | nil =>
      constructor
      · show Text.cutText _ (Nat.toDigits 16 n) = none
        have h := cutText_append hn []
        rw [List.append_nil] at h
        exact h
      · intro s
        show Text.cutText _ (Nat.toDigits 16 n ++ ':' :: ':' :: s) = some (Nat.toDigits 16 n, s)
        rw [cutText_append hn, hcolons]
        simp
    | cons m ps =>
      have hshow : showPieces (n :: m :: ps) = Nat.toDigits 16 n ++ ':' :: showPieces (m :: ps) := rfl
      obtain ⟨d, rest, hcons, hd⟩ := exists_showPieces m ps
      constructor
      · rw [hshow, cutText_append hn, hcons, cutText_colon hd, ← hcons, ih.1]
        rfl
      · intro s
        rw [hshow, List.append_assoc, cutText_append hn, List.cons_append, hcons, List.cons_append,
          cutText_colon hd, ← List.cons_append, ← hcons, ih.2]
        rfl

/-- An IPv6 address is read back. -/
theorem readBracketed_showIpv6 {pieces : List Nat} (hlength : pieces.length = 8) (h : AreWords pieces) :
    readBracketed (showIpv6 pieces) = .ok (showIpv6 pieces) := by
  have hbody (body : List Char) (hread : readIpv6 body = .ok pieces) :
      readBracketed ('[' :: body ++ [']']) = .ok (showIpv6 pieces) := by
    have hsuffix : Text.dropSuffix? [']'] ('[' :: body ++ [']']) = some ('[' :: body) := by
      rw [Text.dropSuffix?, List.reverse_append]
      show some (('[' :: body).reverse.reverse) = _
      rw [List.reverse_reverse]
    rw [readBracketed, hsuffix]
    show (readIpv6 body).map showIpv6 = _
    rw [hread]
    rfl
  unfold showIpv6
  apply hbody
  cases hrun : longestZeroRun pieces with
  | none =>
    dsimp only
    rw [readIpv6, (cutText_showPieces pieces).1]
    dsimp only
    have hfilter : (some pieces).filter (·.length = 8) = some pieces := by simp [hlength]
    rw [readIpv6Side?_showPieces h, hfilter]
  | some run =>
    obtain ⟨start, length⟩ := run
    obtain ⟨htwo, heq⟩ := eq_of_longestZeroRun hrun
    have hsum := congrArg List.length heq
    rw [List.length_append, List.length_append, List.length_replicate, hlength] at hsum
    have hleft : AreWords (pieces.take start) := fun n hn => h n (List.mem_of_mem_take hn)
    have hright : AreWords (pieces.drop (start + length)) := fun n hn =>
      h n (List.mem_of_mem_drop hn)
    have hzeros : 8 - (pieces.take start).length - (pieces.drop (start + length)).length =
        length := by omega
    have hshort : (pieces.take start).length + (pieces.drop (start + length)).length ≤ 7 := by
      omega
    dsimp only
    rw [readIpv6, (cutText_showPieces _).2]
    dsimp only
    rw [readIpv6Side?_showPieces hleft, readIpv6Side?_showPieces hright]
    rw [Option.bind_eq_bind, Option.bind_some, Option.bind_some, if_pos hshort, hzeros, ← heq]

/-! ## What is read -/

theorem areWords_of_readDotted? {s : List Char} {ps : List Nat} (h : readDotted? s = some ps) :
    AreWords ps := by
  obtain ⟨parts, -, h⟩ := Option.bind_eq_some_iff.1 h
  split at h
  · rename_i a b c d
    split at h
    · rename_i hall
      obtain rfl := Option.some.inj h
      simp only [List.all_cons, List.all_nil, Bool.and_true, Bool.and_eq_true,
        decide_eq_true_eq] at hall
      intro n hn
      simp only [List.mem_cons, List.not_mem_nil, or_false] at hn
      omega
    · nomatch h
  · nomatch h

theorem lt_of_readNumber? {p : List Char} {n : Nat} (hlength : p.length ≤ 4)
    (h : readNumber? 16 p = some n) : n < 65536 :=
  Nat.lt_of_lt_of_le (readNumber?_lt h) (Nat.pow_le_pow_right (by decide) hlength)

theorem areWords_cons {n : Nat} {ps : List Nat} (hn : n < 65536) (hps : AreWords ps) :
    AreWords (n :: ps) := by
  intro m hm
  rcases List.mem_cons.1 hm with rfl | hm
  · exact hn
  · exact hps m hm

theorem areWords_nil : AreWords [] := fun _ hn => nomatch hn

theorem areWords_of_readIpv6Pieces? {final : Bool} {ss : List (List Char)} {ps : List Nat}
    (h : readIpv6Pieces? final ss = some ps) : AreWords ps := by
  induction ss generalizing ps with
  | nil =>
    obtain rfl := Option.some.inj h
    exact areWords_nil
  | cons p ss ih =>
    cases ss with
    | nil =>
      rw [readIpv6Pieces?] at h
      split at h
      · exact areWords_of_readDotted? h
      · split at h
        · rename_i hfits
          obtain ⟨n, hn, rfl⟩ := Option.map_eq_some_iff.1 h
          exact areWords_cons (lt_of_readNumber? hfits.2 hn) areWords_nil
        · nomatch h
    | cons q ss =>
      rw [readIpv6Pieces?] at h
      · split at h
        · rename_i hfits
          obtain ⟨n, hn, h⟩ := Option.bind_eq_some_iff.1 h
          obtain ⟨ns, hns, h⟩ := Option.bind_eq_some_iff.1 h
          obtain rfl := Option.some.inj h
          exact areWords_cons (lt_of_readNumber? hfits.2 hn) (ih hns)
        · nomatch h
      · exact List.cons_ne_nil _ _

theorem areWords_of_readIpv6Side? {final : Bool} {s : List Char} {ps : List Nat}
    (h : readIpv6Side? final s = some ps) : AreWords ps := by
  unfold readIpv6Side? at h
  split at h
  · obtain rfl := Option.some.inj h
    exact areWords_nil
  · exact areWords_of_readIpv6Pieces? h

/-- Eight pieces of 16 bits are read. -/
theorem areWords_of_readIpv6 {s : List Char} {pieces : List Nat} (h : readIpv6 s = .ok pieces) :
    pieces.length = 8 ∧ AreWords pieces := by
  unfold readIpv6 at h
  dsimp only at h
  split at h
  · rename_i result hresult
    obtain rfl := Except.ok.inj h
    split at hresult
    · obtain ⟨hside, hlength⟩ := Option.filter_eq_some_iff.1 hresult
      exact ⟨of_decide_eq_true hlength, areWords_of_readIpv6Side? hside⟩
    · obtain ⟨left, hleft, hresult⟩ := Option.bind_eq_some_iff.1 hresult
      obtain ⟨right, hright, hresult⟩ := Option.bind_eq_some_iff.1 hresult
      split at hresult
      · rename_i hshort
        obtain rfl := Option.some.inj hresult
        refine ⟨?_, ?_⟩
        · simp only [List.length_append, List.length_replicate]
          omega
        · intro n hn
          simp only [List.mem_append, List.mem_replicate] at hn
          rcases hn with (hn | ⟨-, rfl⟩) | hn
          · exact areWords_of_readIpv6Side? hleft n hn
          · decide
          · exact areWords_of_readIpv6Side? hright n hn
      · nomatch hresult
  · nomatch h

/-- What stands between the brackets of an IPv6 address. -/
theorem exists_showIpv6 (pieces : List Nat) :
    ∃ body, showIpv6 pieces = '[' :: body ++ [']'] ∧
      ∀ c ∈ body, isDomainChar c = true ∨ c = ':' := by
  have hshow (ps : List Nat) : ∀ c ∈ showPieces ps, isDomainChar c = true ∨ c = ':' := by
    intro c hc
    rcases Text.mem_of_mem_joinPieces hc with rfl | ⟨piece, hpiece, hc⟩
    · exact Or.inr rfl
    · obtain ⟨n, -, rfl⟩ := List.mem_map.1 hpiece
      exact Or.inl (ne_colon_of_mem_toDigits hc).1
  refine ⟨_, rfl, ?_⟩
  intro c hc
  split at hc
  · exact hshow pieces c hc
  · simp only [List.mem_append, List.mem_cons] at hc
    rcases hc with hc | rfl | rfl | hc
    · exact hshow _ c hc
    · exact Or.inr rfl
    · exact Or.inr rfl
    · exact hshow _ c hc

end Waymark.Url
