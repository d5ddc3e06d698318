/-
The stages of a run. A run with a result has gone through the same stages whatever its series is
(`Run.Stages`): for a series without bars, too, its record and its curve are those of the
simulation.
-/
import Backtest.Proofs.Equity.Bounds
import Backtest.Proofs.Equity.Valuation
import Backtest.Proofs.Strategy.Signals

namespace Backtest

/-- What a run has gone through, with the strategy made ready for it. -/
structure Run.Stages (d : Definition) (series : Series) (cash : Decimal)
    (policy : OpenPositionPolicy) (s : PreparedStrategy) (run : Run) : Prop where
  positive : cash.IsPositive
  prepared : d.prepare series.closes = .ok s
  simulated : TradeRecord.simulate s.signals cash series.closes = .ok run.record
  valued : equityCurve policy run.record series.closes = .ok run.curve
  reported : Report.ofRun d.name series.symbol run.curve run.record cash = .ok run.report

theorem Run.exists_stages {d : Definition} {series : Series} {cash : Decimal}
    {policy : OpenPositionPolicy} {run : Run} (h : ofDefinition d series cash policy = .ok run) :
    ∃ s, Stages d series cash policy s run := by
  unfold ofDefinition at h
  split at h
  · cases h
  · next positive =>
    obtain ⟨s, hs, h⟩ := bind_eq_ok_iff.1 h
    have name : s.name = d.name := by
      obtain ⟨_, _, -, -, rfl⟩ := Definition.prepare_eq_ok_iff.1 hs
      rfl
    have positive := not_not.1 positive
    split at h
    · next none =>
      cases pure_eq_ok_iff.1 h
      have closes : series.closes = [] := List.map_eq_nil_iff.2 (List.isEmpty_iff.1 none)
      exact ⟨s, positive, hs, by rw [closes]; rfl, by rw [closes]; rfl, rfl⟩
    · obtain ⟨record, hr, h⟩ := bind_eq_ok_iff.1 (orFault_eq_ok_iff.1 h)
      obtain ⟨curve, hc, h⟩ := bind_eq_ok_iff.1 h
      obtain ⟨report, hp, h⟩ := bind_eq_ok_iff.1 h
      cases pure_eq_ok_iff.1 h
      exact ⟨s, positive, hs, hr, hc, name ▸ hp⟩

/-- Trades at the closes of a series are entered at positive prices. -/
theorem TradeSequence.priced {series : Series} {trades shown : List Trade}
    (h : TradeSequence series.closes trades) (hs : shown.Sublist trades) : Priced none shown := by
  refine ⟨fun _ e => (by cases e), fun t ht => ?_⟩
  exact Series.isPositive_of_mem_closes (List.mem_of_getElem? (h.entryPrice t (hs.subset ht)))

/-- At the closes of a series no curve falls below zero. -/
theorem TradeSequence.equityCurve_nonneg {series : Series} {r : TradeRecord} {curve : List Decimal}
    {policy : OpenPositionPolicy} (h : TradeSequence series.closes r.trades)
    (hc : equityCurve policy r series.closes = .ok curve) : ∀ equity ∈ curve, 0 ≤ equity.toRat := by
  refine equityFrom_nonneg series.closes (h.priced List.filter_sublist) ?_ ?_
    (fun _ e => by cases e) hc
  · intro close hc
    exact (Decimal.isPositive_iff.1 (Series.isPositive_of_mem_closes hc)).le
  · rw [Decimal.toRat_one]
    norm_num

namespace Run.Stages

variable {d : Definition} {series : Series} {cash : Decimal} {policy : OpenPositionPolicy}
variable {s : PreparedStrategy} {run : Run}

theorem sequence (h : Stages d series cash policy s run) :
    TradeSequence series.closes run.record.trades :=
  (TradeRecord.greedySchedule_of_simulate h.simulated).toTradeSequence

theorem length_curve (h : Stages d series cash policy s run) :
    run.curve.length = series.length := by
  rw [(valuation_of_equityFrom h.sequence List.filter_sublist h.valued).length,
    Series.length_closes]

/-- Without a curve there are no bars, and so no trades. -/
theorem trades_of_curve_nil (h : Stages d series cash policy s run) (none : run.curve = []) :
    run.record.trades = [] := by
  have length := h.length_curve
  rw [none, ← Series.length_closes] at length
  refine List.eq_nil_iff_forall_not_mem.2 fun t ht => ?_
  have := h.sequence.entry_lt ht
  simp only [List.length_nil] at length
  omega

theorem curve_nonneg (h : Stages d series cash policy s run) :
    ∀ equity ∈ run.curve, 0 ≤ equity.toRat :=
  h.sequence.equityCurve_nonneg h.valued

end Run.Stages
end Backtest
