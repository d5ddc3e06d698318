/-
Bounds on equity. With positive prices the curve never falls below zero: rounding keeps zero, and so
does every step of the curve.
-/
import Backtest.Proofs.Decimal.Arithmetic
import Backtest.Proofs.Equity.Step

namespace Backtest

/-- The trades held and ahead were entered at positive prices. -/
structure Priced (held : Option Holding) (ahead : List Trade) : Prop where
  held : ∀ h, held = some h → h.price.IsPositive
  ahead : ∀ t ∈ ahead, t.entry.price.IsPositive

theorem Holding.eq_of_after {h h' : Holding} {index : Nat} (e : h.after index = some h') :
    h = h' := by
  unfold after at e
  split at e
  · cases e
  · exact Option.some.inj e

section Step

variable {lastIndex index : Nat} {equity close value : Decimal} {held held' : Option Holding}
variable {ahead ahead' : List Trade}

theorem Priced.step (p : Priced held ahead)
    (s : CurveStep lastIndex index equity close held ahead value held' ahead') :
    Priced held' ahead' := by
  cases s with
  | flat => exact p
  | held => exact ⟨fun h' e => Holding.eq_of_after e ▸ p.held _ rfl, p.ahead⟩
  | enter =>
    obtain ⟨first, later⟩ := List.forall_mem_cons.1 p.ahead
    refine ⟨fun h' e => ?_, later⟩
    rw [← Holding.eq_of_after e]
    exact first

theorem Holding.value_nonneg {h : Holding} (hp : h.price.IsPositive) (hb : 0 ≤ h.base.toRat)
    (hc : 0 ≤ close.toRat) (hv : h.value close = .ok value) : 0 ≤ value.toRat := by
  obtain ⟨grown, hg, hd⟩ := value_eq_ok_iff.1 hv
  have grown_nonneg := Decimal.nonneg_of_nearest? (Decimal.mul_eq_ok_iff.1 hg) (mul_nonneg hb hc)
  exact Decimal.nonneg_of_nearest? (Decimal.div_eq_ok_iff.1 hd).2
    (div_nonneg grown_nonneg (Decimal.isPositive_iff.1 hp).le)

/-- A bar leaves the equity, and what a held trade began with, at zero or above. -/
theorem CurveStep.nonneg (p : Priced held ahead) (hc : 0 ≤ close.toRat) (he : 0 ≤ equity.toRat)
    (hb : ∀ h, held = some h → 0 ≤ h.base.toRat)
    (s : CurveStep lastIndex index equity close held ahead value held' ahead') :
    0 ≤ value.toRat ∧ ∀ h, held' = some h → 0 ≤ h.base.toRat := by
  cases s with
  | flat => exact ⟨he, hb⟩
  | held valued =>
    exact ⟨Holding.value_nonneg (p.held _ rfl) (hb _ rfl) hc valued,
      fun h' e => Holding.eq_of_after e ▸ hb _ rfl⟩
  | @enter t _ _ _ valued =>
    have hp : (t.holding lastIndex equity).price.IsPositive := p.ahead t (List.mem_cons_self ..)
    refine ⟨Holding.value_nonneg hp he hc valued, fun h' e => ?_⟩
    rw [← Holding.eq_of_after e]
    exact he

end Step

/-- No value of the curve is below zero. -/
theorem equityFrom_nonneg {lastIndex : Nat} : ∀ (closes : List Decimal) {index : Nat}
    {equity : Decimal} {held : Option Holding} {ahead : List Trade} {values : List Decimal},
    Priced held ahead → (∀ close ∈ closes, 0 ≤ close.toRat) → 0 ≤ equity.toRat →
    (∀ h, held = some h → 0 ≤ h.base.toRat) →
    equityFrom lastIndex index equity held ahead closes = .ok values →
    ∀ value ∈ values, 0 ≤ value.toRat
  | [], _, _, _, _, _, _, _, _, _, h => by
    cases h
    exact List.forall_mem_nil _
  | close :: rest, _, _, _, _, _, p, hc, he, hb, h => by
    obtain ⟨value, held', ahead', values', s, hr, rfl⟩ := equityFrom_cons_eq_ok_iff.1 h
    obtain ⟨first, later⟩ := List.forall_mem_cons.1 hc
    obtain ⟨hv, hb'⟩ := s.nonneg p first he hb
    exact List.forall_mem_cons.2 ⟨hv, equityFrom_nonneg rest (p.step s) later hv hb' hr⟩

end Backtest
