/-
The figures of a report. `Report.Outcome` lists what a report can be: the report of nothing, or the
figures of a curve and a record, each computed step by step and rounded to cents at the end. What
holds of reports is derived from these two cases.
-/
import Backtest.Equity.Report
import Backtest.Proofs.Chain
import Backtest.Proofs.Decimal.Arithmetic

namespace Backtest

/-- Final equity turned into a profit and its share of the cash in percent. -/
structure Earnings (last cash profit gain : Decimal) : Prop where
  earned : ∃ grown, last.mul cash = .ok grown ∧ grown.sub cash = .ok profit
  percent : ∃ share, profit.div cash = .ok share ∧ share.mul .hundred = .ok gain

/-- What the report of a run can be. -/
inductive Report.Outcome (strategy symbol : String) (curve : List Decimal) (r : TradeRecord)
    (cash : Decimal) : Report → Prop
  | nothing (idle : curve = [] ∨ r.trades = [] ∨ ¬ cash.IsPositive) :
      Outcome strategy symbol curve r cash (empty strategy symbol)
  | figures {last profit gain rate depth fall : Decimal} (ends : curve.getLast? = some last)
      (traded : r.trades ≠ []) (positive : cash.IsPositive)
      (earned : Earnings last cash profit gain) (won : winRate r = .ok rate)
      (fell : drawdown curve = .ok depth) (percent : depth.mul .hundred = .ok fall) :
      Outcome strategy symbol curve r cash
        ⟨strategy, symbol, r.completedCount, profit.toCents, gain.toCents, rate.toCents,
          fall.toCents⟩

theorem Report.outcome_of_ofRun {strategy symbol : String} {curve : List Decimal}
    {r : TradeRecord} {cash : Decimal} {report : Report}
    (h : ofRun strategy symbol curve r cash = .ok report) :
    Outcome strategy symbol curve r cash report := by
  unfold ofRun at h
  rcases hl : curve.getLast? with _ | last <;> rw [hl] at h
  · cases h
    exact .nothing (.inl (List.getLast?_eq_none_iff.1 hl))
  · simp only at h
    split at h
    · next idle =>
      cases h
      exact .nothing (.inr idle)
    · next busy =>
      rw [not_or, not_not] at busy
      obtain ⟨grown, hg, h⟩ := bind_eq_ok_iff.1 h
      obtain ⟨profit, hp, h⟩ := bind_eq_ok_iff.1 h
      obtain ⟨rate, hw, h⟩ := bind_eq_ok_iff.1 h
      obtain ⟨share, hs, h⟩ := bind_eq_ok_iff.1 h
      obtain ⟨gain, hgain, h⟩ := bind_eq_ok_iff.1 h
      obtain ⟨depth, hd, h⟩ := bind_eq_ok_iff.1 h
      obtain ⟨fall, hf, h⟩ := bind_eq_ok_iff.1 h
      cases pure_eq_ok_iff.1 h
      exact .figures hl busy.1 busy.2 ⟨⟨grown, hg, hp⟩, share, hs, hgain⟩ hw hd hf

/-! ## Bounds -/

/-- No more than the cash can be lost. -/
theorem Earnings.bounds {last cash profit gain : Decimal} (h : Earnings last cash profit gain)
    (hl : 0 ≤ last.toRat) (hc : cash.IsPositive) :
    -cash ≤ profit ∧ -Decimal.hundred ≤ gain := by
  have positive := Decimal.isPositive_iff.1 hc
  obtain ⟨⟨grown, hg, hp⟩, share, hs, hgain⟩ := h
  have grown_nonneg := Decimal.nonneg_of_nearest? (Decimal.mul_eq_ok_iff.1 hg)
    (mul_nonneg hl positive.le)
  have profit_ge : (-cash).toRat ≤ profit.toRat :=
    Decimal.le_toRat_of_nearest? (Decimal.sub_eq_ok_iff.1 hp) (by rw [Decimal.toRat_neg]; linarith)
  have share_ge : (-Decimal.one).toRat ≤ share.toRat := by
    refine Decimal.le_toRat_of_nearest? (Decimal.div_eq_ok_iff.1 hs).2 ?_
    rw [Decimal.toRat_neg] at profit_ge
    rw [Decimal.toRat_neg, Decimal.toRat_one, le_div_iff₀ positive]
    linarith
  refine ⟨profit_ge, Decimal.le_toRat_of_nearest? (Decimal.mul_eq_ok_iff.1 hgain) ?_⟩
  rw [Decimal.toRat_neg, Decimal.toRat_one] at share_ge
  rw [Decimal.toRat_neg, Decimal.toRat_hundred]
  linarith

theorem TradeRecord.winningCount_le (r : TradeRecord) : r.winningCount ≤ r.completedCount :=
  List.length_filter_le _ _

/-- At most all trades win. -/
theorem Report.winRate_bounds {r : TradeRecord} {rate : Decimal} (h : winRate r = .ok rate) :
    .zero ≤ rate ∧ rate ≤ .hundred := by
  unfold winRate at h
  rw [Decimal.le_iff, Decimal.le_iff, Decimal.toRat_zero, Decimal.toRat_hundred]
  by_cases hz : r.completedCount = 0
  · rw [if_pos hz] at h
    cases h
    rw [Decimal.toRat_zero]
    norm_num
  · rw [if_neg hz] at h
    obtain ⟨scaled, hs, h⟩ := bind_eq_ok_iff.1 h
    have hundredfold := Decimal.times_eq_ok_iff.1 hs
    have exact_value : Decimal.hundred.toRat * r.winningCount = ((100 * r.winningCount : ℕ) : ℚ) := by
      rw [Decimal.toRat_hundred]
      push_cast
      rfl
    rw [exact_value] at hundredfold
    have value := Decimal.toRat_of_nearest?_natCast hundredfold
    have ratio := (Decimal.part_eq_ok_iff.1 h).2
    rw [value] at ratio
    have count_pos : (0 : ℚ) < r.completedCount := by exact_mod_cast Nat.pos_of_ne_zero hz
    refine ⟨Decimal.nonneg_of_nearest? ratio (by positivity),
      Decimal.le_hundred_of_nearest? ratio ?_⟩
    rw [div_le_iff₀ count_pos]
    exact_mod_cast Nat.mul_le_mul_left 100 r.winningCount_le

/-- A part of one is between none and a hundred percent. -/
theorem percent_bounds {part percent : Decimal} (hp : 0 ≤ part.toRat ∧ part.toRat ≤ 1)
    (h : part.mul .hundred = .ok percent) : .zero ≤ percent ∧ percent ≤ .hundred := by
  have h := Decimal.mul_eq_ok_iff.1 h
  rw [Decimal.le_iff, Decimal.le_iff, Decimal.toRat_zero, Decimal.toRat_hundred]
  rw [Decimal.toRat_hundred] at h
  exact ⟨Decimal.nonneg_of_nearest? h (by linarith), Decimal.le_hundred_of_nearest? h (by linarith)⟩

end Backtest
