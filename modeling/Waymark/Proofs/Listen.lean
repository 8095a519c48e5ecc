import Mathlib.Logic.Function.Iterate
import Mathlib.Order.Bounds.Defs
import Mathlib.Order.WellFounded
import Waymark.Listen
/-!
# Where a search for a port ends

A search asks for one port after another.  After each answer that a port is in use it moves up
by one, so after some turns it stands as many ports above its start as it has made turns, and
all it has passed is in use.  That sum is one of plain numbers: the last port has no port after
it, and the search is over before 16 bits could wrap.

What a search comes to is not changed by its turns.  So it comes to what asking for the first
port says that is not in use, and only where there is none it comes to nothing.

## Main results

* `turn_eq_asks_iff` — when one turn moves on.
* `iterate_turn_eq_asks_iff` — where a search stands after some turns.
* `iterate_turn_size` — a search is over after as many turns as there are ports.
* `bindFrom_eq_of_isLeast`, `bindFrom_eq_exhausted_iff` — what it comes to.
* `listen_finds` — all of it, for a hostname.
-/

namespace Waymark.Listen

/-! ## The next port -/

theorem nextPort?_eq_some_iff {port next : UInt16} :
    nextPort? port = some next ↔ next.toNat = port.toNat + 1 := by
  constructor
  · exact toNat_nextPort?
  · intro h
    cases hnext : nextPort? port with
    | none =>
      have hlast := congrArg UInt16.toNat (nextPort?_eq_none_iff.1 hnext)
      have hlt := next.toNat_lt_size
      rw [h, hlast] at hlt
      exact absurd hlt (by decide)
    | some q => rw [UInt16.toNat_inj.1 (h.trans (toNat_nextPort? hnext).symm)]

/-- What is below the port after a port. -/
theorem lt_next_iff {port next r : UInt16} (h : next.toNat = port.toNat + 1) :
    r < next ↔ r < port ∨ r = port := by
  rw [UInt16.lt_iff_toNat_lt, UInt16.lt_iff_toNat_lt, ← UInt16.toNat_inj, h]
  exact Nat.lt_succ_iff_lt_or_eq

/-- Some of several ports comes first. -/
theorem exists_isLeast {S : Set UInt16} (h : S.Nonempty) : ∃ first, IsLeast S first := by
  obtain ⟨first, hmem, hmin⟩ := (measure UInt16.toNat).wf.has_min S h
  refine ⟨first, hmem, fun r hr => UInt16.not_lt.1 fun hlt => ?_⟩
  exact hmin r hr (UInt16.lt_iff_toNat_lt.1 hlt)

theorem mem_pair {a b r : UInt16} (hnext : b.toNat = a.toNat + 1) (hge : a ≤ r)
    (hlt : r.toNat < a.toNat + 2) : r ∈ [a, b] := by
  rw [UInt16.le_iff_toNat_le] at hge
  simp only [List.mem_cons, List.not_mem_nil, or_false, ← UInt16.toNat_inj]
  omega

/-! ## Turn by turn -/

/-- A search for a port: it is about to ask for one, or it is over. -/
inductive Search where
  | asks (port : UInt16)
  | ended (outcome : Except ListenError UInt16)

/-- One turn of a search that began at `start`. -/
def Search.turn (address : String) (ask : UInt16 → BindResult) (start : UInt16) : Search → Search
  | .asks port =>
    match ask port with
    | .bound p => .ended (.ok p)
    | .refused cause => .ended (.error (.refused port address cause))
    | .inUse =>
      match nextPort? port with
      | none => .ended (.error (.exhausted start))
      | some next => .asks next
  | .ended outcome => .ended outcome

/-- What a search comes to. -/
def Search.outcome (address : String) (ask : UInt16 → BindResult) (start : UInt16) :
    Search → Except ListenError UInt16
  | .asks port => bindFrom address ask start port
  | .ended outcome => outcome

section
variable {address : String} {ask : UInt16 → BindResult} {start port q : UInt16}

/-- A turn that is not the last one found its port in use, and moves up by one. -/
theorem turn_eq_asks_iff :
    Search.turn address ask start (.asks port) = .asks q ↔
      ask port = .inUse ∧ q.toNat = port.toNat + 1 := by
  rw [← nextPort?_eq_some_iff, Search.turn]
  cases ask port with
  | bound p => simp
  | refused cause => simp
  | inUse => cases nextPort? port <;> simp

/-- A turn does not change what the search comes to. -/
theorem outcome_turn (s : Search) :
    (s.turn address ask start).outcome address ask start = s.outcome address ask start := by
  cases s with
  | ended outcome => rfl
  | asks port =>
    simp only [Search.turn, Search.outcome]
    cases hask : ask port with
    | bound p => exact (bindFrom_bound hask).symm
    | refused cause => exact (bindFrom_refused hask).symm
    | inUse =>
      rw [bindFrom_inUse hask]
      cases nextPort? port <;> rfl

theorem outcome_iterate_turn {n : Nat} {s t : Search}
    (h : (Search.turn address ask start)^[n] s = t) :
    t.outcome address ask start = s.outcome address ask start := by
  induction n generalizing t with
  | zero => rw [← h, Function.iterate_zero_apply]
  | succ n ih =>
    rw [Function.iterate_succ_apply'] at h
    rw [← h, outcome_turn, ih rfl]

theorem iterate_turn_succ_eq_asks_iff {n : Nat} {s : Search} :
    (Search.turn address ask start)^[n + 1] s = .asks q ↔
      ∃ port, (Search.turn address ask start)^[n] s = .asks port ∧
        ask port = .inUse ∧ q.toNat = port.toNat + 1 := by
  rw [Function.iterate_succ_apply']
  cases (Search.turn address ask start)^[n] s with
  | ended outcome => simp [Search.turn]
  | asks port => simp [turn_eq_asks_iff]

/-- After some turns a search that is not over stands as many ports higher, and all the ports it
has passed are in use. -/
theorem iterate_turn_eq_asks_iff {n : Nat} :
    (Search.turn address ask start)^[n] (.asks port) = .asks q ↔
      q.toNat = port.toNat + n ∧ ∀ r, port ≤ r → r < q → ask r = .inUse := by
  induction n generalizing q with
  | zero =>
    rw [Function.iterate_zero_apply, Search.asks.injEq, Nat.add_zero, UInt16.toNat_inj]
    constructor
    · rintro rfl
      exact ⟨rfl, fun r hge hlt => absurd hlt (UInt16.not_lt.2 hge)⟩
    · exact fun h => h.1.symm
  | succ n ih =>
    rw [iterate_turn_succ_eq_asks_iff]
    constructor
    · rintro ⟨m, hrun, huse, hq⟩
      obtain ⟨hm, hbelow⟩ := ih.1 hrun
      refine ⟨by omega, fun r hge hlt => ?_⟩
      rcases (lt_next_iff hq).1 hlt with hlt | rfl
      · exact hbelow r hge hlt
      · exact huse
    · rintro ⟨hq, hbelow⟩
      have hroom : port.toNat + n < UInt16.size := by
        have := q.toNat_lt_size
        omega
      -- The port before `q` is no lower than the start, so the sum below it is no wrapped one.
      obtain ⟨m, hm⟩ : ∃ m : UInt16, m.toNat = port.toNat + n :=
        ⟨UInt16.ofNat (port.toNat + n), UInt16.toNat_ofNat_of_lt' hroom⟩
      have hnext : q.toNat = m.toNat + 1 := by omega
      have hge : port ≤ m := UInt16.le_iff_toNat_le.2 (by omega)
      refine ⟨m, ih.2 ⟨hm, fun r hle hlt => ?_⟩, ?_, hnext⟩
      · exact hbelow r hle ((lt_next_iff hnext).2 (.inl hlt))
      · exact hbelow m hge ((lt_next_iff hnext).2 (.inr rfl))

/-- A search is over after as many turns as there are ports from its first one on. -/
theorem iterate_turn_size :
    (Search.turn address ask start)^[UInt16.size - port.toNat] (.asks port) =
      .ended (bindFrom address ask start port) := by
  cases hrun : (Search.turn address ask start)^[UInt16.size - port.toNat] (.asks port) with
  | ended outcome => exact congrArg Search.ended (outcome_iterate_turn hrun)
  | asks q =>
    have hq := (iterate_turn_eq_asks_iff.1 hrun).1
    have := port.toNat_lt_size
    have := q.toNat_lt_size
    omega

/-! ## What a search comes to -/

/-- A search may as well begin above ports that are in use. -/
theorem bindFrom_eq_of_inUse (hle : port ≤ q) (hbelow : ∀ r, port ≤ r → r < q → ask r = .inUse) :
    bindFrom address ask start port = bindFrom address ask start q := by
  have hsum : q.toNat = port.toNat + (q.toNat - port.toNat) := by
    rw [UInt16.le_iff_toNat_le] at hle
    omega
  exact (outcome_iterate_turn (iterate_turn_eq_asks_iff.2 ⟨hsum, hbelow⟩)).symm

/-- The first port that is not in use settles the search. -/
theorem bindFrom_eq_of_isLeast (h : IsLeast {r | port ≤ r ∧ ask r ≠ .inUse} q) :
    bindFrom address ask start port = bindFrom address ask start q := by
  refine bindFrom_eq_of_inUse h.1.1 fun r hge hlt => ?_
  by_contra huse
  exact UInt16.not_lt.2 (h.2 ⟨hge, huse⟩) hlt

theorem bindFrom_ne_exhausted (h : ask port ≠ .inUse) :
    bindFrom address ask start port ≠ .error (.exhausted start) := by
  cases hask : ask port with
  | bound p => rw [bindFrom_bound hask]; simp
  | refused cause => rw [bindFrom_refused hask]; simp
  | inUse => exact absurd hask h

/-- A search comes to nothing exactly if all ports are in use from its first one on. -/
theorem bindFrom_eq_exhausted_iff :
    bindFrom address ask start port = .error (.exhausted start) ↔
      ∀ r, port ≤ r → ask r = .inUse := by
  constructor
  · intro hnone
    by_contra hfree
    push Not at hfree
    obtain ⟨q, hq⟩ := exists_isLeast hfree
    rw [bindFrom_eq_of_isLeast hq] at hnone
    exact bindFrom_ne_exhausted hq.1.2 hnone
  · intro huse
    have hlast : port ≤ lastPort := UInt16.le_iff_toNat_le.2 (Nat.le_of_lt_succ port.toNat_lt)
    rw [bindFrom_eq_of_inUse hlast fun r hge _ => huse r hge, bindFrom_inUse (huse _ hlast),
      nextPort?_eq_none_iff.2 rfl]

end

/-! ## Listening -/

theorem ne_zero_of_one_le {port : UInt16} (h : 1 ≤ port) : port ≠ 0 := by
  rintro rfl
  exact absurd h (by decide)

/-- Who asks for a port by its number listens at that port or at none.  Only who asks for port zero
is given another. -/
def Network.IsExact (net : Network) : Prop :=
  ∀ address port p, port ≠ 0 → net.ask address port = .bound p → p = port

theorem isExact_alone (held : List UInt16) : (alone held).IsExact := by
  intro address port p hport h
  simp only [alone, askFree, if_neg hport] at h
  split at h
  · cases h
  · exact (BindResult.bound.inj h).symm

theorem ask_alone_of_mem {held : List UInt16} {address : String} {port : UInt16}
    (hport : 1 ≤ port) (h : port ∈ held) : (alone held).ask address port = .inUse := by
  simp [alone, askFree, ne_zero_of_one_le hport, h]

theorem resolve_alone_localhost (held : List UInt16) :
    (alone held).resolve "localhost" = .ok "127.0.0.1" := rfl

/-- Whatever ports are in use and whatever else goes wrong, a search for a port from one other than
zero on ends.  After `n` turns it has gone exactly `n` ports up.  It comes to the first port that
is not in use, or fails with what went wrong there; and it finds no port exactly if all are in use
up to the last. -/
theorem listen_finds {net : Network} {hostname address : String} {port : UInt16}
    (hexact : net.IsExact) (haddress : net.resolve hostname = .ok address) (hport : 1 ≤ port) :
    (Search.turn address (net.ask address) port)^[UInt16.size - port.toNat] (.asks port) =
        .ended (listen net hostname port) ∧
      (∀ n q, (Search.turn address (net.ask address) port)^[n] (.asks port) = .asks q →
        q.toNat = port.toNat + n) ∧
      (∀ q, IsLeast {r | port ≤ r ∧ net.ask address r ≠ .inUse} q →
        (∀ p, net.ask address q = .bound p → listen net hostname port = .ok q) ∧
        ∀ cause, net.ask address q = .refused cause →
          listen net hostname port = .error (.refused q address cause)) ∧
      (listen net hostname port = .error (.exhausted port) ↔
        ∀ r, port ≤ r → net.ask address r = .inUse) := by
  have hlisten : listen net hostname port = bindFrom address (net.ask address) port port := by
    rw [listen, haddress]
    rfl
  rw [hlisten]
  refine ⟨iterate_turn_size, fun n q hrun => (iterate_turn_eq_asks_iff.1 hrun).1, ?_,
    bindFrom_eq_exhausted_iff⟩
  intro q hq
  rw [bindFrom_eq_of_isLeast hq]
  constructor
  · intro p hbound
    have hq0 : q ≠ 0 := ne_zero_of_one_le (UInt16.le_trans hport hq.1.1)
    rw [bindFrom_bound hbound, hexact address q p hq0 hbound]
  · exact fun cause hrefused => bindFrom_refused hrefused

/-- Above two ports in use the third is taken; where they are the last two there is none. -/
theorem listen_finds_above_two :
    ((alone [6060, 6061]).IsExact ∧
        (alone [6060, 6061]).resolve "localhost" = .ok "127.0.0.1" ∧ (1 : UInt16) ≤ 6060 ∧
        listen (alone [6060, 6061]) "localhost" 6060 = .ok 6062) ∧
      (alone [65534, 65535]).IsExact ∧
        (alone [65534, 65535]).resolve "localhost" = .ok "127.0.0.1" ∧ (1 : UInt16) ≤ 65534 ∧
        listen (alone [65534, 65535]) "localhost" 65534 = .error (.exhausted 65534) := by
  have hmiddle : (1 : UInt16) ≤ 6060 := by decide
  have htop : (1 : UInt16) ≤ 65534 := by decide
  have hleast : IsLeast {r | 6060 ≤ r ∧ (alone [6060, 6061]).ask "127.0.0.1" r ≠ .inUse} 6062 := by
    refine ⟨⟨by decide, by decide⟩, fun r hr => UInt16.not_lt.1 fun hlt => hr.2 ?_⟩
    exact ask_alone_of_mem (UInt16.le_trans hmiddle hr.1)
      (mem_pair rfl hr.1 (UInt16.lt_iff_toNat_lt.1 hlt))
  obtain ⟨-, -, hfirst, -⟩ :=
    listen_finds (isExact_alone [6060, 6061]) (resolve_alone_localhost _) hmiddle
  obtain ⟨-, -, -, hnone⟩ :=
    listen_finds (isExact_alone [65534, 65535]) (resolve_alone_localhost _) htop
  refine ⟨⟨isExact_alone _, resolve_alone_localhost _, hmiddle, ?_⟩,
    isExact_alone _, resolve_alone_localhost _, htop, ?_⟩
  · exact (hfirst 6062 hleast).1 6062 (by decide)
  · exact hnone.2 fun r hge =>
      ask_alone_of_mem (UInt16.le_trans htop hge) (mem_pair rfl hge r.toNat_lt)

end Waymark.Listen
