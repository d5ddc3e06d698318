/-
The checks of the settings of a run in their order, and what is read from settings that pass them. A
plan is made of the values that the checks read (`reads_of_plan`).
-/
import Backtest.CommandLine.Answer
import Backtest.Proofs.Chain

namespace Backtest

inductive SettingCheck where
  | cash
  | firstDate
  | lastDate
  | dateOrder
  | policy
  | symbol
  /-- The extension of the path that is given for the strategy. -/
  | strategyPath
  /-- The identifier and the folder of the strategy, which count only without a path. -/
  | strategyId
  | strategyFolder
  | dataFolder
  deriving DecidableEq, Repr

/-- The identifier of the strategy: that of the file, if one is given. -/
def SettingSource.strategyId (source : SettingSource) (strategyPath : Option String) :
    Except SettingProblem String :=
  match strategyPath with
  | some path => strategyOfPath path
  | none => source.required "strategy" "id"

namespace SettingCheck

def ofDates : List SettingCheck := [firstDate, lastDate, dateOrder]

/-- The checks of everything but the strategy and the folders, in order. -/
def ofRun : List SettingCheck := cash :: ofDates ++ [policy, symbol]

/-- All checks, in order. -/
def order : List SettingCheck :=
  ofRun ++ [strategyPath, strategyId, strategyFolder, dataFolder]

/-- The exit code when the check fails. -/
def exitCode : SettingCheck → Nat
  | strategyPath => 4
  | _ => 2

end SettingCheck

/-- The values that a plan is made of. -/
structure RunPlan.Reads (source : SettingSource) (path symbol : Option String) (plan : RunPlan) :
    Prop where
  cash : source.cash = .ok plan.request.cash
  first : source.date "start_date" = .ok plan.request.first
  last : source.date "end_date" = .ok plan.request.last
  policy : source.policy = .ok plan.policy
  symbol : source.symbol symbol = .ok plan.request.symbol
  strategyId : source.strategyId path = .ok plan.request.strategyId
  strategyFolder : source.strategyFolder path = .ok plan.strategyFolder
  dataFolder : source.dataFolder = .ok plan.dataFolder

namespace SettingSource

variable {source : SettingSource} {path override : Option String}

theorem isPositive_of_cash {cash : Decimal} (h : source.cash = .ok cash) : cash.IsPositive := by
  unfold SettingSource.cash at h
  split at h
  · cases h
  · split at h
    · cases h
    · split at h
      · next positive => exact Except.ok.inj h ▸ positive
      · cases h

/-- Both dates are read on their own, and must not be out of order. -/
theorem dates_eq_ok_iff {dates : Date × Date} :
    source.dates = .ok dates ↔ source.date "start_date" = .ok dates.1 ∧
      source.date "end_date" = .ok dates.2 ∧ dates.1 ≤ dates.2 := by
  unfold SettingSource.dates
  constructor
  · intro h
    obtain ⟨first, hf, h⟩ := bind_eq_ok_iff.1 h
    obtain ⟨last, hl, h⟩ := bind_eq_ok_iff.1 h
    split at h
    · cases h
    · next ordered =>
      cases pure_eq_ok_iff.1 h
      exact ⟨hf, hl, Int.not_lt.1 ordered⟩
  · rintro ⟨hf, hl, ordered⟩
    have kept : ¬ dates.2 < dates.1 := Int.not_lt.2 ordered
    simp only [bind_eq_ok_iff]
    exact ⟨_, hf, _, hl, by rw [if_neg kept]; rfl⟩

/-- A path gives an identifier if it has a name with the right extension. -/
theorem strategyOfPath_eq_ok_iff {path id : String} :
    strategyOfPath path = .ok id ↔
      ∃ stem extension, Path.stem? path.toList = some stem ∧
        Path.extension? path.toList = some extension ∧
        extension.map Char.toLower = ['j', 's', 'o', 'n'] ∧ String.ofList stem = id := by
  unfold strategyOfPath
  rcases Path.stem? path.toList with _ | stem <;>
    rcases Path.extension? path.toList with _ | extension <;> simp
  split <;> simp [*]

theorem check_eq_ok_iff {symbol : String} :
    source.check override = .ok symbol ↔
      (∃ cash, source.cash = .ok cash) ∧ (∃ dates, source.dates = .ok dates) ∧
        (∃ policy, source.policy = .ok policy) ∧ source.symbol override = .ok symbol := by
  unfold check
  simp only [bind_eq_ok_iff]
  constructor
  · rintro ⟨cash, hc, dates, hd, policy, hp, hs⟩
    exact ⟨⟨cash, hc⟩, ⟨dates, hd⟩, ⟨policy, hp⟩, hs⟩
  · rintro ⟨⟨cash, hc⟩, ⟨dates, hd⟩, ⟨policy, hp⟩, hs⟩
    exact ⟨cash, hc, dates, hd, policy, hp, hs⟩

theorem request_eq (source : SettingSource) (path override : Option String) :
    source.request path override = (do
      let symbol ← source.check override
      let id ← source.strategyId path
      let first ← source.date "start_date"
      let last ← source.date "end_date"
      let cash ← source.cash
      return (⟨id, symbol, first, last, cash⟩, ← source.policy)) := by
  rcases path with _ | path <;> rfl

theorem plan_eq_ok_iff {plan : RunPlan} : source.plan path override = .ok plan ↔
    source.request path override = .ok (plan.request, plan.policy) ∧
      source.strategyFolder path = .ok plan.strategyFolder ∧
      source.dataFolder = .ok plan.dataFolder := by
  unfold SettingSource.plan
  constructor
  · intro h
    obtain ⟨⟨request, policy⟩, hr, h⟩ := bind_eq_ok_iff.1 h
    obtain ⟨folder, hf, h⟩ := bind_eq_ok_iff.1 h
    obtain ⟨data, hd, h⟩ := bind_eq_ok_iff.1 h
    cases pure_eq_ok_iff.1 h
    exact ⟨hr, hf, hd⟩
  · rintro ⟨hr, hf, hd⟩
    rw [hr, hf, hd]
    rfl

theorem reads_of_plan {plan : RunPlan} (h : source.plan path override = .ok plan) :
    plan.Reads source path override := by
  obtain ⟨hr, hf, hd⟩ := plan_eq_ok_iff.1 h
  rw [request_eq] at hr
  simp only [bind_eq_ok_iff, pure_eq_ok_iff] at hr
  obtain ⟨symbol, hs, id, hid, first, hfirst, last, hl, cash, hc, policy, hp, h⟩ := hr
  obtain ⟨⟨id', symbol', first', last', cash'⟩, policy', folder, data⟩ := plan
  cases h
  exact ⟨hc, hfirst, hl, hp, (check_eq_ok_iff.1 hs).2.2.2, hid, hf, hd⟩

end SettingSource
end Backtest
