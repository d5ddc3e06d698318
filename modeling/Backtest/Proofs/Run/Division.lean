/-
No run divides by zero. Trades are entered at closes, which are positive in a series, and so the
curve divides by positive prices; the drawdown divides by a peak only if that is positive, the win
rate by the number of closed trades only if there are some; and cash that is not positive is refused
before anything else.
-/
import Backtest.Proofs.Indicator.Division
import Backtest.Proofs.Run.Stages

namespace Backtest

/-! ## Equity -/

theorem Holding.safe_value {h : Holding} (hp : h.price.IsPositive) (close : Decimal) :
    SafeDivision (h.value close) :=
  (Decimal.safe_mul _ _).bind fun _ _ => Decimal.safe_div_of_isPositive hp

theorem safe_equityFrom {lastIndex : ℕ} : ∀ (closes : List Decimal) {index : ℕ} {equity : Decimal}
    {held : Option Holding} {ahead : List Trade}, Priced held ahead →
    SafeDivision (equityFrom lastIndex index equity held ahead closes)
  | [], _, _, _, _, _ => .ok _
  | close :: rest, index, equity, held, ahead, p => by
    have go_on {value : Decimal} {held' : Option Holding} {ahead' : List Trade}
        (s : CurveStep lastIndex index equity close held ahead value held' ahead') :
        SafeDivision (do
          return value :: (← equityFrom lastIndex (index + 1) value held' ahead' rest)) :=
      (safe_equityFrom rest (p.step s)).bind fun _ _ => .ok _
    unfold equityFrom
    rcases held with _ | h
    · rcases enter_or_flat index ahead with ⟨t, later, rfl, here⟩ | flat
      · rw [takeUp_enter here later]
        have price : (t.holding lastIndex equity).price.IsPositive :=
          p.ahead t (List.mem_cons_self ..)
        exact (Holding.safe_value price close).bind fun _ hv => go_on (.enter here hv)
      · rw [takeUp_flat flat]
        exact go_on (.flat flat)
    · exact (Holding.safe_value (p.held h rfl) close).bind fun _ hv => go_on (.held hv)

theorem safe_drawdownFrom : ∀ (curve : List Decimal) (peak worst : Decimal),
    SafeDivision (drawdownFrom peak worst curve)
  | [], _, _ => .ok _
  | equity :: rest, peak, worst => by
    unfold drawdownFrom
    split
    · exact safe_drawdownFrom rest equity worst
    · split
      · next hp =>
        refine (Decimal.safe_sub _ _).bind fun gap _ => ?_
        refine (Decimal.safe_div_of_isPositive hp).bind fun fall _ => ?_
        exact safe_drawdownFrom rest peak _
      · exact safe_drawdownFrom rest peak worst

theorem safe_drawdown (curve : List Decimal) : SafeDivision (drawdown curve) := by
  cases curve with
  | nil => exact .ok _
  | cons first rest => exact safe_drawdownFrom (first :: rest) first .zero

/-! ## Reports -/

theorem Report.safe_winRate (r : TradeRecord) : SafeDivision (winRate r) := by
  unfold winRate
  split
  · exact .ok _
  · next some_closed => exact (Decimal.safe_times _ _).bind fun _ _ => Decimal.safe_part some_closed

theorem Report.safe_ofRun (strategy symbol : String) (curve : List Decimal) (r : TradeRecord)
    (cash : Decimal) : SafeDivision (ofRun strategy symbol curve r cash) := by
  unfold ofRun
  split
  · exact .ok _
  · split
    · exact .ok _
    · next busy =>
      rw [not_or, not_not] at busy
      refine (Decimal.safe_mul _ _).bind fun grown _ => ?_
      refine (Decimal.safe_sub _ _).bind fun profit _ => ?_
      refine (safe_winRate r).bind fun rate _ => ?_
      refine (Decimal.safe_div_of_isPositive busy.2).bind fun share _ => ?_
      refine (Decimal.safe_mul _ _).bind fun gain _ => ?_
      refine (safe_drawdown curve).bind fun depth _ => ?_
      exact (Decimal.safe_mul _ _).bind fun _ _ => .ok _

/-! ## Runs -/

theorem safe_affordableUnits (cash price : Decimal) : SafeDivision (affordableUnits cash price) := by
  unfold affordableUnits
  split
  · exact .ok _
  · next hp => exact (Decimal.safe_div_of_isPositive (not_not.1 hp)).bind fun _ _ => .ok _

theorem TradeRecord.safe_simulate (signals : Signals) (cash : Decimal) (closes : List Decimal) :
    SafeDivision (simulate signals cash closes) := by
  unfold simulate
  split
  · exact .ok _
  · exact (safe_affordableUnits _ _).bind fun _ _ => .ok _

theorem orFault_ne_zeroDivisor {α : Type} {x : Except Fault α} (h : SafeDivision x) :
    orFault x ≠ .error (.fault .zeroDivisor) := by
  rcases x with fault | a
  · intro e
    cases e
    exact h rfl
  · exact nofun

namespace Run

theorem safe_ofStrategy (s : PreparedStrategy) (series : Series) (cash : Decimal)
    (policy : OpenPositionPolicy) : SafeDivision (ofStrategy s series cash policy) := by
  unfold ofStrategy
  refine (TradeRecord.safe_simulate _ _ _).bind fun record hr => ?_
  have sequence := (TradeRecord.greedySchedule_of_simulate hr).toTradeSequence
  refine (safe_equityFrom _ (sequence.priced List.filter_sublist)).bind fun curve _ => ?_
  exact (Report.safe_ofRun _ _ _ _ _).bind fun _ _ => .ok _

/-- No run fails for a zero divisor. -/
theorem ofDefinition_ne_zeroDivisor (d : Definition) (series : Series) (cash : Decimal)
    (policy : OpenPositionPolicy) :
    ofDefinition d series cash policy ≠ .error (.fault .zeroDivisor) := by
  unfold ofDefinition
  split
  · exact nofun
  · refine bind_ne_error ?_ fun s _ => ?_
    · refine bind_ne_error ?_ fun rules _ => orFault_ne_zeroDivisor ?_
      · rcases d.checkedRules with _ | _ <;> exact nofun
      · exact (IndicatorCache.safe_ensureAll _ _ _).bind fun _ _ => .ok _
    · split
      · exact nofun
      · exact orFault_ne_zeroDivisor (safe_ofStrategy s series cash policy)

end Run
end Backtest
