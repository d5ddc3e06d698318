/-
Scans close by close: a scan has values exactly when its step has a result at each close, from the
state that the one before left (`stateAfter`). Each value is what the step shows at its close, so
what a step keeps of the closes so far and the state holds at every value; and a step that always
has a result where it is kept gives the scan its values (`exists_scan_of_advances`). Two scans whose
states stay related show the same, and so a scan over the first closes shows the first values.
-/
import Backtest.Indicator.Basic
import Backtest.Proofs.Chain

namespace Backtest.Indicator

variable {σ : Type} {step : σ → Decimal → Except Fault (σ × Option Decimal)}

/-- The first close is a step, and the rest a scan from the state after it. -/
theorem scan_cons_eq_ok_iff {s : σ} {close : Decimal} {rest : List Decimal} {values : Values} :
    scan step s (close :: rest) = .ok values ↔ ∃ t shown later, step s close = .ok (t, shown) ∧
      scan step t rest = .ok later ∧ values = shown :: later := by
  rw [scan, bind_eq_ok_iff]
  constructor
  · rintro ⟨⟨t, shown⟩, hs, h⟩
    obtain ⟨later, hl, h⟩ := bind_eq_ok_iff.1 h
    exact ⟨t, shown, later, hs, hl, (pure_eq_ok_iff.1 h).symm⟩
  · rintro ⟨t, shown, later, hs, hl, rfl⟩
    exact ⟨(t, shown), hs, bind_eq_ok_iff.2 ⟨later, hl, rfl⟩⟩

/-- Two scans whose states stay related, over all closes and over the first `n`, show the same. The
relation may depend on the number of closes that the shorter scan still has before it. -/
theorem scan_take {τ : Type} {step' : τ → Decimal → Except Fault (τ × Option Decimal)}
    {R : Nat → σ → τ → Prop}
    (related : ∀ n s s' close t shown, R (n + 1) s s' → step s close = .ok (t, shown) →
      ∃ t', step' s' close = .ok (t', shown) ∧ R n t t') :
    ∀ (closes : List Decimal) (n : Nat) {s : σ} {s' : τ} {values : Values}, n ≤ closes.length →
      R n s s' → scan step s closes = .ok values →
      scan step' s' (closes.take n) = .ok (values.take n)
  | _, 0, _, _, _, _, _, _ => rfl
  | [], n + 1, _, _, _, hn, _, _ => absurd hn (Nat.not_succ_le_zero n)
  | close :: rest, n + 1, s, s', values, hn, hr, h => by
    obtain ⟨t, shown, later, hs, hl, rfl⟩ := scan_cons_eq_ok_iff.1 h
    obtain ⟨t', hs', hr'⟩ := related n s s' close t shown hr hs
    have ih := scan_take related rest n (Nat.le_of_succ_le_succ hn) hr' hl
    rw [List.take_succ_cons]
    exact scan_cons_eq_ok_iff.2 ⟨t', shown, _, hs', ih, rfl⟩

/-- A scan over the first closes shows the first values. -/
theorem scan_take_self {s : σ} {closes : List Decimal} {values : Values} {n : Nat}
    (hn : n ≤ closes.length) (h : scan step s closes = .ok values) :
    scan step s (closes.take n) = .ok (values.take n) := by
  refine scan_take (R := fun _ s s' => s = s') (fun _ s s' close t shown hr hs => ?_) closes n hn
    rfl h
  cases hr
  exact ⟨t, hs, rfl⟩

/-! ## States -/

/-- The state of a scan after some closes. -/
def stateAfter (step : σ → Decimal → Except Fault (σ × Option Decimal)) :
    σ → List Decimal → Except Fault σ
  | s, [] => .ok s
  | s, close :: rest => do
    let (after, _) ← step s close
    stateAfter step after rest

theorem stateAfter_cons_eq_ok_iff {s t : σ} {close : Decimal} {rest : List Decimal} :
    stateAfter step s (close :: rest) = .ok t ↔ ∃ after shown, step s close = .ok (after, shown) ∧
      stateAfter step after rest = .ok t := by
  rw [stateAfter, bind_eq_ok_iff]
  exact Prod.exists

/-- What every step keeps, of the closes so far and the state after them, holds in the end. -/
theorem stateAfter_induction (Inv : List Decimal → σ → Prop)
    (keeps : ∀ seen before close after shown, Inv seen before →
      step before close = .ok (after, shown) → Inv (seen ++ [close]) after) :
    ∀ (closes : List Decimal) {seen : List Decimal} {s t : σ}, Inv seen s →
      stateAfter step s closes = .ok t → Inv (seen ++ closes) t
  | [], seen, _, _, hi, h => by
    cases h
    rw [List.append_nil]
    exact hi
  | close :: rest, seen, s, t, hi, h => by
    obtain ⟨after, shown, hs, h⟩ := stateAfter_cons_eq_ok_iff.1 h
    have ih := stateAfter_induction Inv keeps rest (keeps seen s close after shown hi hs) h
    rw [List.append_assoc] at ih
    exact ih

/-- A scan with values has a state after its closes. -/
theorem exists_stateAfter : ∀ (closes : List Decimal) {s : σ} {values : Values},
    scan step s closes = .ok values → ∃ t, stateAfter step s closes = .ok t
  | [], s, _, _ => ⟨s, rfl⟩
  | close :: rest, _, _, h => by
    obtain ⟨after, shown, later, hs, hl, -⟩ := scan_cons_eq_ok_iff.1 h
    obtain ⟨t, ht⟩ := exists_stateAfter rest hl
    exact ⟨t, stateAfter_cons_eq_ok_iff.2 ⟨after, shown, hs, ht⟩⟩

/-- At each close the scan is in the state after the closes before it, and shows what its step
does. -/
theorem exists_states_of_scan : ∀ (closes : List Decimal) {s : σ} {values : Values} {i : Nat}
    (hi : i < closes.length), scan step s closes = .ok values →
    ∃ before after shown, stateAfter step s (closes.take i) = .ok before ∧
      step before closes[i] = .ok (after, shown) ∧
      stateAfter step s (closes.take (i + 1)) = .ok after ∧ values[i]? = some shown
  | [], _, _, _, hi, _ => absurd hi (Nat.not_lt_zero _)
  | close :: rest, s, _, i, hi, h => by
    obtain ⟨after, first, later, hs, hl, rfl⟩ := scan_cons_eq_ok_iff.1 h
    rcases i with _ | i
    · exact ⟨s, after, first, rfl, hs, stateAfter_cons_eq_ok_iff.2 ⟨after, first, hs, rfl⟩, rfl⟩
    · obtain ⟨before, t, shown, hb, ht, hst, here⟩ :=
        exists_states_of_scan rest (Nat.lt_of_succ_lt_succ hi) hl
      exact ⟨before, t, shown, stateAfter_cons_eq_ok_iff.2 ⟨after, first, hs, hb⟩, ht,
        stateAfter_cons_eq_ok_iff.2 ⟨after, first, hs, hst⟩, here⟩

/-- Each value is what the step shows at its close. -/
theorem exists_step_of_scan {closes : List Decimal} {s : σ} {values : Values} {i : Nat}
    {shown : Option Decimal} (h : scan step s closes = .ok values) (hi : values[i]? = some shown) :
    ∃ before close after, step before close = .ok (after, shown) ∧
      stateAfter step s (closes.take (i + 1)) = .ok after := by
  have lt : i < closes.length := length_scan h ▸ (List.getElem?_eq_some_iff.1 hi).1
  obtain ⟨before, after, shown', -, hs, ha, here⟩ := exists_states_of_scan closes lt h
  cases hi.symm.trans here
  exact ⟨before, _, after, hs, ha⟩

/-! ## Values -/

/-- A scan has values if its step has a result at every close, from each state that what is kept of
the closes before it allows. What the step says of the closes so far and the value it shows then
holds of every value. -/
theorem exists_scan_of_advances {closes : List Decimal} (Inv : List Decimal → σ → Prop)
    (Shows : List Decimal → Option Decimal → Prop)
    (advances : ∀ seen close rest s, closes = seen ++ close :: rest → Inv seen s →
      ∃ t shown, step s close = .ok (t, shown) ∧ Inv (seen ++ [close]) t ∧
        Shows (seen ++ [close]) shown) :
    ∀ (rest : List Decimal) {seen : List Decimal} {s : σ}, closes = seen ++ rest → Inv seen s →
      ∃ values t, scan step s rest = .ok values ∧ stateAfter step s rest = .ok t ∧ Inv closes t ∧
        ∀ i shown, values[i]? = some shown → Shows (closes.take (seen.length + i + 1)) shown
  | [], seen, s, hc, hs => by
    rw [List.append_nil] at hc
    exact ⟨[], s, rfl, rfl, hc ▸ hs, fun i shown hi => nomatch hi⟩
  | close :: rest, seen, s, hc, hs => by
    obtain ⟨t, first, ht, inv, here⟩ := advances seen close rest s hc hs
    have split : closes = (seen ++ [close]) ++ rest := by
      rw [List.append_assoc, hc]
      rfl
    obtain ⟨later, last, hl, hst, hlast, shows⟩ :=
      exists_scan_of_advances Inv Shows advances rest split inv
    refine ⟨first :: later, last, scan_cons_eq_ok_iff.2 ⟨t, first, later, ht, hl, rfl⟩,
      stateAfter_cons_eq_ok_iff.2 ⟨t, first, ht, hst⟩, hlast, fun i shown hi => ?_⟩
    have length : (seen ++ [close]).length = seen.length + 1 := by simp
    rcases i with _ | i
    · cases hi
      rw [split, List.take_left' length]
      exact here
    · have := shows i shown hi
      rw [length] at this
      rwa [show seen.length + (i + 1) + 1 = seen.length + 1 + i + 1 by omega]

end Backtest.Indicator
