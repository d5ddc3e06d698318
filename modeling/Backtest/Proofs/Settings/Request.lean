/-
Requests by what the settings hold. Each part of a request is described by the text and the amount
of its key (`HoldsCash`, `HoldsDate`, …), and each problem by what is wrong with them
(`SettingCheck.Finds`), neither through the functions that read the settings. Of a value and a
problem there is always exactly one, so a request has a result exactly if everything is there, it
is made of the values that were checked, and otherwise it ends in the first problem.
-/
import Backtest.Proofs.Decimal.Nearest
import Backtest.Proofs.Settings.Checks

namespace Backtest

/-! ## Values -/

namespace SettingSource

variable (source : SettingSource) (path override : Option String)

/-- The cash is a positive amount. -/
def HoldsCash (cash : Decimal) : Prop :=
  source.text? runGroup "initial_cash" ≠ none ∧
    source.amount? runGroup "initial_cash" = some cash ∧ 0 < cash.toRat

/-- The trimmed text of a key is a date. -/
def HoldsDate (key : String) (date : Date) : Prop :=
  ∃ text, source.text? runGroup key = some text ∧ Date.ofText? (Text.trim text) = some date

/-- The policy is named, in any letter case, or left out for the default. -/
def HoldsPolicy (policy : OpenPositionPolicy) : Prop :=
  match source.text? runGroup "open_position" with
  | none => policy = .exclude
  | some text => Text.lower (Text.trim text) = policy.text

/-- The text of a key is not blank, and this is it without the blanks around it. -/
def HoldsText (group key text : String) : Prop :=
  ∃ raw, source.text? group key = some raw ∧ Text.trim raw = text ∧ text ≠ ""

/-- The symbol is the one that is given, if there is one, else that of the settings. -/
def HoldsSymbol (symbol : String) : Prop :=
  match override with
  | some text => Text.trim text = symbol ∧ symbol ≠ ""
  | none => source.HoldsText runGroup "symbol" symbol

/-- The strategy is the name of the file that is given, if there is one, without the extension
`json`, else the one that the settings name. -/
def HoldsStrategy (id : String) : Prop :=
  match path with
  | some path => ∃ stem extension, Path.stem? path.toList = some stem ∧
      Path.extension? path.toList = some extension ∧
      extension.map Char.toLower = ['j', 's', 'o', 'n'] ∧ String.ofList stem = id
  | none => source.HoldsText "strategy" "id" id

/-- The text of a key is not there, or blank. -/
def Lacks (group key : String) : Prop :=
  ∀ raw, source.text? group key = some raw → Text.trim raw = ""

end SettingSource

/-- What the settings say about a run. -/
structure RunRequest.Held (source : SettingSource) (path override : Option String)
    (request : RunRequest) (policy : OpenPositionPolicy) : Prop where
  cash : source.HoldsCash request.cash
  first : source.HoldsDate "start_date" request.first
  last : source.HoldsDate "end_date" request.last
  inOrder : request.first ≤ request.last
  policy : source.HoldsPolicy policy
  symbol : source.HoldsSymbol override request.symbol
  strategy : source.HoldsStrategy path request.strategyId

/-! ## Problems -/

namespace SettingCheck

open SettingSource (runGroup)

/-- The checks of a request, in order. -/
def ofRequest : List SettingCheck := ofRun ++ [strategyPath, strategyId]

/-- The key of the date that a check reads. -/
def dateKey? : SettingCheck → Option String
  | firstDate => some "start_date"
  | lastDate => some "end_date"
  | _ => none

/-- The problems of the checks of a request, by what is wrong with the settings. -/
inductive Finds (source : SettingSource) (path override : Option String) :
    SettingCheck → SettingProblem → Prop
  | noCash : source.text? runGroup "initial_cash" = none →
      Finds source path override .cash (.missing runGroup "initial_cash")
  | cashNotDecimal : source.text? runGroup "initial_cash" ≠ none →
      source.amount? runGroup "initial_cash" = none →
      Finds source path override .cash (.invalid runGroup "initial_cash" .notDecimal)
  | cashNotPositive {amount : Decimal} : source.text? runGroup "initial_cash" ≠ none →
      source.amount? runGroup "initial_cash" = some amount → amount.toRat ≤ 0 →
      Finds source path override .cash (.invalid runGroup "initial_cash" .notPositive)
  | noDate {check : SettingCheck} {key : String} : check.dateKey? = some key →
      source.text? runGroup key = none → Finds source path override check (.missing runGroup key)
  | noCalendarDate {check : SettingCheck} {key text : String} : check.dateKey? = some key →
      source.text? runGroup key = some text → Date.ofText? (Text.trim text) = none →
      Finds source path override check (.invalid runGroup key (.invalidDate key))
  | datesReversed {first last : Date} : source.HoldsDate "start_date" first →
      source.HoldsDate "end_date" last → last < first →
      Finds source path override .dateOrder (.invalid runGroup "start_date" .datesReversed)
  | unknownPolicy {text : String} : source.text? runGroup "open_position" = some text →
      (∀ policy : OpenPositionPolicy, Text.lower (Text.trim text) ≠ policy.text) →
      Finds source path override .policy
        (.invalid runGroup "open_position" (.unknownPolicy (Text.lower (Text.trim text))))
  | blankSymbol {text : String} : override = some text → Text.trim text = "" →
      Finds source path override .symbol (.invalid runGroup "symbol" .blankSymbol)
  | noSymbol : override = none → source.Lacks runGroup "symbol" →
      Finds source path override .symbol (.missing runGroup "symbol")
  | noStrategyFile {file : String} : path = some file → (∀ id, ¬ source.HoldsStrategy path id) →
      Finds source path override .strategyPath (.noStrategyFile file)
  | noStrategy : path = none → source.Lacks "strategy" "id" →
      Finds source path override .strategyId (.missing "strategy" "id")

end SettingCheck

namespace SettingSource

open SettingCheck (Finds)

variable (source : SettingSource) (path override : Option String)

/-! ## What is read -/

theorem cash_outcome :
    (∀ cash, source.cash = .ok cash ↔ source.HoldsCash cash) ∧
      ∀ problem, source.cash = .error problem ↔ Finds source path override .cash problem := by
  refine outcome_iff_of_described ?_ ?_ ?_
  · rintro cash ⟨given, amount, positive⟩
    obtain ⟨text, given⟩ := Option.ne_none_iff_exists'.1 given
    simp [SettingSource.cash, given, amount, Decimal.isPositive_iff, positive]
  · rintro problem found
    cases found with
    | noCash none => simp [SettingSource.cash, none]
    | cashNotDecimal given none =>
      obtain ⟨text, given⟩ := Option.ne_none_iff_exists'.1 given
      simp [SettingSource.cash, given, none]
    | cashNotPositive given amount low =>
      obtain ⟨text, given⟩ := Option.ne_none_iff_exists'.1 given
      simp [SettingSource.cash, given, amount, Decimal.isPositive_iff, low]
    | noDate key | noCalendarDate key => cases key
  · by_cases given : source.text? runGroup "initial_cash" = none
    · exact .inr ⟨_, .noCash given⟩
    cases amount : source.amount? runGroup "initial_cash" with
    | none => exact .inr ⟨_, .cashNotDecimal given amount⟩
    | some cash =>
      rcases lt_or_ge 0 cash.toRat with positive | low
      · exact .inl ⟨cash, given, amount, positive⟩
      · exact .inr ⟨_, .cashNotPositive given amount low⟩

theorem date_outcome {c : SettingCheck} {key : String} (dated : c.dateKey? = some key) :
    (∀ date, source.date key = .ok date ↔ source.HoldsDate key date) ∧
      ∀ problem, source.date key = .error problem ↔ Finds source path override c problem := by
  refine outcome_iff_of_described ?_ ?_ ?_
  · rintro date ⟨text, given, read⟩
    simp [SettingSource.date, given, read]
  · rintro problem found
    cases found with
    | noDate dated' none =>
      cases dated.symm.trans dated'
      simp [SettingSource.date, none]
    | noCalendarDate dated' given unread =>
      cases dated.symm.trans dated'
      simp [SettingSource.date, given, unread]
    | _ => cases dated
  · cases given : source.text? runGroup key with
    | none => exact .inr ⟨_, .noDate dated given⟩
    | some text =>
      cases read : Date.ofText? (Text.trim text) with
      | none => exact .inr ⟨_, .noCalendarDate dated given read⟩
      | some date => exact .inl ⟨date, text, given, read⟩

theorem policy_outcome :
    (∀ policy, source.policy = .ok policy ↔ source.HoldsPolicy policy) ∧
      ∀ problem, source.policy = .error problem ↔ Finds source path override .policy problem := by
  refine outcome_iff_of_described ?_ ?_ ?_
  · rintro policy held
    unfold HoldsPolicy at held
    cases given : source.text? runGroup "open_position" with
    | none => simp_all [SettingSource.policy]
    | some text =>
      rw [given] at held
      cases policy <;>
        simp [SettingSource.policy, given, OpenPositionPolicy.ofText, held, OpenPositionPolicy.text]
  · rintro problem found
    cases found with
    | unknownPolicy given unknown =>
      have exclude := unknown .exclude
      have mark := unknown .markToMarket
      simp only [OpenPositionPolicy.text] at exclude mark
      simp [SettingSource.policy, given, OpenPositionPolicy.ofText, exclude, mark]
    | noDate key | noCalendarDate key => cases key
  · cases given : source.text? runGroup "open_position" with
    | none => exact .inl ⟨.exclude, by simp [HoldsPolicy, given]⟩
    | some text =>
      by_cases known : ∃ policy : OpenPositionPolicy, Text.lower (Text.trim text) = policy.text
      · obtain ⟨policy, name⟩ := known
        exact .inl ⟨policy, by simp [HoldsPolicy, given, name]⟩
      · exact .inr ⟨_, .unknownPolicy given (not_exists.1 known)⟩

/-- A text is read from a key, or the key lacks one. -/
theorem required_outcome (group key : String) :
    (∀ text, source.required group key = .ok text ↔ source.HoldsText group key text) ∧
      ∀ problem, source.required group key = .error problem ↔
        source.Lacks group key ∧ problem = .missing group key := by
  refine outcome_iff_of_described ?_ ?_ ?_
  · rintro text ⟨raw, given, rfl, visible⟩
    simp [required, given, visible]
  · rintro problem ⟨lacks, rfl⟩
    cases given : source.text? group key with
    | none => simp [required, given]
    | some raw => simp [required, given, lacks raw given]
  · by_cases lacks : source.Lacks group key
    · exact .inr ⟨_, lacks, rfl⟩
    · unfold Lacks at lacks
      push Not at lacks
      obtain ⟨raw, given, visible⟩ := lacks
      exact .inl ⟨_, raw, given, rfl, visible⟩

theorem symbol_outcome :
    (∀ symbol, source.symbol override = .ok symbol ↔ source.HoldsSymbol override symbol) ∧
      ∀ problem, source.symbol override = .error problem ↔
        Finds source path override .symbol problem := by
  cases override with
  | none =>
    obtain ⟨held, lacking⟩ := source.required_outcome runGroup "symbol"
    refine ⟨held, fun problem => (lacking problem).trans ?_⟩
    constructor
    · rintro ⟨lacks, rfl⟩
      exact .noSymbol rfl lacks
    · intro found
      cases found with
      | noSymbol _ lacks => exact ⟨lacks, rfl⟩
      | blankSymbol given => cases given
      | noDate key | noCalendarDate key => cases key
  | some text =>
    refine outcome_iff_of_described ?_ ?_ ?_
    · rintro symbol ⟨rfl, visible⟩
      simp [SettingSource.symbol, visible]
    · rintro problem found
      cases found with
      | blankSymbol given blank =>
        cases given
        simp [SettingSource.symbol, blank]
      | noDate key | noCalendarDate key => cases key
      | noSymbol none => cases none
    · by_cases blank : Text.trim text = ""
      · exact .inr ⟨_, .blankSymbol rfl blank⟩
      · exact .inl ⟨_, rfl, blank⟩

theorem strategyOfPath_eq_error_iff (file : String) (problem : SettingProblem) :
    strategyOfPath file = .error problem ↔
      Finds source (some file) override .strategyPath problem := by
  have refused {problem : SettingProblem} (h : strategyOfPath file = .error problem) :
      problem = .noStrategyFile file := by
    unfold strategyOfPath at h
    split at h
    · split at h
      · cases h
      · cases h
        rfl
    · cases h
      rfl
  constructor
  · intro h
    cases refused h
    refine .noStrategyFile rfl fun id held => ?_
    cases h.symm.trans (strategyOfPath_eq_ok_iff.2 held)
  · intro found
    cases found with
    | noStrategyFile given unnamed =>
      cases given
      cases outcome : strategyOfPath file with
      | ok id => exact absurd (strategyOfPath_eq_ok_iff.1 outcome) (unnamed id)
      | error problem => rw [refused outcome]
    | noDate key | noCalendarDate key => cases key

theorem strategyId_eq_ok_iff (id : String) :
    source.strategyId path = .ok id ↔ source.HoldsStrategy path id := by
  cases path with
  | none => exact (source.required_outcome "strategy" "id").1 id
  | some file => exact strategyOfPath_eq_ok_iff

end SettingSource

/-! ## The first problem -/

namespace SettingCheck

variable {source : SettingSource} {path override : Option String} {check : SettingCheck}
variable {problem : SettingProblem}

/-- The problem is that of a check before which no check finds one. -/
def IsFirst (source : SettingSource) (path override : Option String) (problem : SettingProblem) :
    Prop :=
  ∃ before check after, ofRequest = before ++ check :: after ∧
    Finds source path override check problem ∧
    ∀ earlier ∈ before, ∀ p, ¬ Finds source path override earlier p

theorem isFirst_iff : IsFirst source path override problem ↔
    ∃ check, FirstAt (Finds source path override) ofRequest check problem :=
  exists_comm

variable (source path override)

theorem stopsAtFirst_dates : StopsAtFirst (Finds source path override) ofDates source.dates := by
  have first_date := source.date_outcome path override (c := firstDate) rfl
  have last_date := source.date_outcome path override (c := lastDate) rfl
  refine .bind [firstDate] [lastDate, dateOrder] (.single first_date.2) fun first hf => ?_
  refine .bind [lastDate] [dateOrder] (.single last_date.2) fun last hl => ?_
  refine .single fun problem => ?_
  constructor
  · intro h
    split at h
    · next reversed =>
      cases h
      exact .datesReversed ((first_date.1 _).1 hf) ((last_date.1 _).1 hl) reversed
    · cases h
  · intro found
    cases found with
    | datesReversed held held' reversed =>
      cases hf.symm.trans ((first_date.1 _).2 held)
      cases hl.symm.trans ((last_date.1 _).2 held')
      exact if_pos reversed
    | noDate key | noCalendarDate key => cases key

theorem stopsAtFirst_check :
    StopsAtFirst (Finds source path override) ofRun (source.check override) := by
  have cash_check := StopsAtFirst.single (source.cash_outcome path override).2
  have policy_check := StopsAtFirst.single (source.policy_outcome path override).2
  refine .bind [cash] (ofDates ++ [policy, symbol]) cash_check fun _ _ => ?_
  refine .bind _ [policy, symbol] (stopsAtFirst_dates source path override) fun _ _ => ?_
  refine .bind [policy] [symbol] policy_check fun _ _ => ?_
  exact .single (source.symbol_outcome path override).2

/-- The checks of the strategy exclude each other, one with a path and one without. -/
theorem stopsAtFirst_strategyId :
    StopsAtFirst (Finds source path override) [strategyPath, strategyId]
      (source.strategyId path) := by
  intro problem
  cases path with
  | none =>
    have passes : ∀ p, ¬ Finds source none override strategyPath p := by
      rintro p found
      cases found with
      | noStrategyFile given => cases given
      | noDate key | noCalendarDate key => cases key
    have missing : Finds source none override strategyId problem ↔
        source.Lacks "strategy" "id" ∧ problem = .missing "strategy" "id" := by
      constructor
      · intro found
        cases found with
        | noStrategy _ lacks => exact ⟨lacks, rfl⟩
        | noDate key | noCalendarDate key => cases key
      · rintro ⟨lacks, rfl⟩
        exact .noStrategy rfl lacks
    refine ((source.required_outcome "strategy" "id").2 problem).trans ?_
    simp [firstAt_cons_iff, passes, missing]
  | some file =>
    have passes : ∀ p, ¬ Finds source (some file) override strategyId p := by
      rintro p found
      cases found with
      | noStrategy none => cases none
      | noDate key | noCalendarDate key => cases key
    refine (source.strategyOfPath_eq_error_iff override file problem).trans ?_
    simp [firstAt_cons_iff, passes]

/-- What a request reads again after the checks is there. -/
theorem stopsAtFirst_request :
    StopsAtFirst (Finds source path override) ofRequest (source.request path override) := by
  rw [SettingSource.request_eq]
  refine .bind _ _ (stopsAtFirst_check source path override) fun symbol hs => ?_
  obtain ⟨⟨cash, hc⟩, ⟨dates, hd⟩, ⟨policy, hp⟩, -⟩ := SettingSource.check_eq_ok_iff.1 hs
  obtain ⟨hf, hl, -⟩ := SettingSource.dates_eq_ok_iff.1 hd
  refine .bind _ [] (stopsAtFirst_strategyId source path override) fun id _ => ?_
  rw [hf, hl, hc, hp]
  exact .nil _

end SettingCheck

/-! ## Running a request -/

section Running

variable {σ α β : Type} (files : FileAccess (StateM σ)) (state : σ)

/-- A step of an action goes on from the state that the one before it leaves. -/
theorem step_bind (x : StateM σ α) (f : α → StateM σ β) :
    (x >>= f) state = f (x state).1 (x state).2 := rfl

/-- What is loaded is never short of cash. -/
theorem loadStrategyFile_ne_invalidCash (path : String) (cash : Decimal) :
    (loadStrategyFile files path state).1 ≠ .error (.invalidCash cash) := by
  unfold loadStrategyFile
  rw [step_bind]
  generalize String.ofList ((Path.stem? path.toList).getD []) = id
  cases (files.read path state).1 with
  | error e => exact nofun
  | ok text => cases read : Definition.ofText id text <;> simp only [read] <;> exact nofun

theorem loadWindow_ne_invalidCash (folder symbol : String) (first last : Date) (cash : Decimal) :
    (loadWindow files folder symbol first last state).1 ≠ .error (.invalidCash cash) := by
  unfold loadWindow loadHistory
  rw [step_bind, step_bind]
  cases (files.read (fileIn folder symbol "csv") state).1 with
  | error e => exact nofun
  | ok text => cases read : History.ofText text <;> simp only [read] <;> exact nofun

/-- With cash a run does not end for want of it. -/
theorem Run.ofDefinition_ne_invalidCash {amount : Decimal} (positive : amount.IsPositive)
    (d : Definition) (series : Series) (policy : OpenPositionPolicy) (cash : Decimal) :
    ofDefinition d series amount policy ≠ .error (.problem (.invalidCash cash)) := by
  have calculated {α : Type} (x : Except Fault α) :
      orFault x ≠ .error (.problem (.invalidCash cash)) := by
    cases x <;> exact nofun
  unfold ofDefinition
  rw [if_neg (not_not.2 positive)]
  refine bind_ne_error ?_ fun s _ => ?_
  · refine bind_ne_error ?_ fun rules _ => calculated _
    cases d.checkedRules <;> exact nofun
  · split
    · exact nofun
    · exact calculated _

theorem Run.ofFiles_ne_invalidCash {request : RunRequest} (positive : request.cash.IsPositive)
    (strategyFolder dataFolder : String) (policy : OpenPositionPolicy) (cash : Decimal) :
    (ofFiles files strategyFolder dataFolder request policy state).1 ≠
      .error (.problem (.invalidCash cash)) := by
  unfold ofFiles
  rw [step_bind]
  have strategy := loadStrategyFile_ne_invalidCash files state
    (fileIn strategyFolder request.strategyId "json") cash
  cases loaded : (loadStrategy files strategyFolder request.strategyId state).1 with
  | error problem =>
    rintro h
    cases h
    exact strategy loaded
  | ok d =>
    generalize (loadStrategy files strategyFolder request.strategyId state).2 = state
    have history := loadWindow_ne_invalidCash files state dataFolder request.symbol request.first
      request.last cash
    dsimp only
    rw [step_bind]
    cases fetched : (loadWindow files dataFolder request.symbol request.first request.last state).1
    with
    | error problem =>
      rintro h
      cases h
      exact history fetched
    | ok bars =>
      cases checked : Series.ofBars? request.symbol bars with
      | error fault => simp only [checked]; exact nofun
      | ok series =>
        simp only [checked]
        exact ofDefinition_ne_invalidCash positive d series policy cash

end Running

namespace SettingSource

variable {source : SettingSource} {path override : Option String}

/-- After the checks only the strategy can be missing, and what is read again is what was checked. -/
theorem request_of_check (path : Option String) {symbol : String}
    (h : source.check override = .ok symbol) :
    ∃ cash first last policy, source.cash = .ok cash ∧ source.dates = .ok (first, last) ∧
      source.policy = .ok policy ∧ source.symbol override = .ok symbol ∧
      source.request path override =
        (source.strategyId path).map fun id => (⟨id, symbol, first, last, cash⟩, policy) := by
  obtain ⟨⟨cash, hc⟩, ⟨⟨first, last⟩, hd⟩, ⟨policy, hp⟩, hs⟩ := check_eq_ok_iff.1 h
  obtain ⟨hf, hl, -⟩ := dates_eq_ok_iff.1 hd
  refine ⟨cash, first, last, policy, hc, hd, hp, hs, ?_⟩
  rw [request_eq, h, hf, hl, hc, hp]
  cases source.strategyId path <;> rfl

/-- A request is there exactly if all of it is held. -/
theorem request_eq_ok_iff {request : RunRequest} {policy : OpenPositionPolicy} :
    source.request path override = .ok (request, policy) ↔
      request.Held source path override policy := by
  have cash := (source.cash_outcome path override).1
  have first := (source.date_outcome path override (c := .firstDate) rfl).1
  have last := (source.date_outcome path override (c := .lastDate) rfl).1
  have named := (source.policy_outcome path override).1
  have symbol := (source.symbol_outcome path override).1
  constructor
  · intro h
    rw [request_eq] at h
    obtain ⟨s, checked, -⟩ := bind_eq_ok_iff.1 h
    obtain ⟨c, f, l, p, hc, hd, hp, hs, requested⟩ := request_of_check path checked
    obtain ⟨hf, hl, ordered⟩ := dates_eq_ok_iff.1 hd
    rw [← request_eq, requested] at h
    cases hid : source.strategyId path with
    | error problem =>
      rw [hid] at h
      cases h
    | ok id =>
      rw [hid] at h
      cases h
      exact ⟨(cash _).1 hc, (first _).1 hf, (last _).1 hl, ordered, (named _).1 hp,
        (symbol _).1 hs, (source.strategyId_eq_ok_iff path id).1 hid⟩
  · rintro ⟨hc, hf, hl, ordered, hp, hs, hid⟩
    have hc := (cash _).2 hc
    have hd : source.dates = .ok (request.first, request.last) :=
      dates_eq_ok_iff.2 ⟨(first _).2 hf, (last _).2 hl, ordered⟩
    have hp := (named _).2 hp
    -- the values read again are those that were checked
    obtain ⟨_, _, _, _, hc', hd', hp', -, requested⟩ := request_of_check path
      (check_eq_ok_iff.2 ⟨⟨_, hc⟩, ⟨_, hd⟩, ⟨_, hp⟩, (symbol _).2 hs⟩)
    cases hc.symm.trans hc'
    cases hd.symm.trans hd'
    cases hp.symm.trans hp'
    rw [requested, (source.strategyId_eq_ok_iff path _).2 hid]
    rfl

theorem request_eq_error_iff {problem : SettingProblem} :
    source.request path override = .error problem ↔
      SettingCheck.IsFirst source path override problem := by
  rw [SettingCheck.isFirst_iff]
  exact SettingCheck.stopsAtFirst_request source path override problem

theorem HoldsSymbol.visible {symbol : String} (h : source.HoldsSymbol override symbol) :
    symbol ≠ "" ∧ Text.IsTrimmed symbol.toList := by
  have trimmed (raw : String) : Text.IsTrimmed (Text.trim raw).toList := by
    simpa [Text.trim] using Text.isTrimmed_trimChars raw.toList
  cases override with
  | none =>
    obtain ⟨raw, -, rfl, visible⟩ := h
    exact ⟨visible, trimmed raw⟩
  | some text =>
    obtain ⟨rfl, visible⟩ := h
    exact ⟨visible, trimmed text⟩

/-- Settings, of whatever origin, make a request exactly if they pass the checks and a strategy is
named. What is read again after the checks is there, and is what was checked. A request is made of
what the settings hold: its cash is positive, its dates are in order, and its symbol has no blanks
around it and is the one that is given, if there is one. Else the problem is that of the first check
that finds one. So a request is never refused for its cash when it is run. -/
theorem request_spec (source : SettingSource) (path override : Option String) :
    ((∃ result, source.request path override = .ok result) ↔
      (∃ symbol, source.check override = .ok symbol) ∧ ∃ id, source.HoldsStrategy path id) ∧
    (∀ symbol, source.check override = .ok symbol → ∃ cash first last policy,
      source.cash = .ok cash ∧ source.dates = .ok (first, last) ∧ source.policy = .ok policy ∧
      source.symbol override = .ok symbol ∧ source.request path override =
        (source.strategyId path).map fun id => (⟨id, symbol, first, last, cash⟩, policy)) ∧
    (∀ request policy, source.request path override = .ok (request, policy) ↔
      request.Held source path override policy) ∧
    (∀ problem, source.request path override = .error problem ↔
      SettingCheck.IsFirst source path override problem) ∧
    ∀ request policy, source.request path override = .ok (request, policy) →
      (0 < request.cash.toRat ∧ request.first ≤ request.last) ∧
      (request.symbol ≠ "" ∧ Text.IsTrimmed request.symbol.toList ∧
        ∀ text, override = some text → request.symbol = Text.trim text) ∧
      (∀ d series cash,
        Run.ofDefinition d series request.cash policy ≠ .error (.problem (.invalidCash cash))) ∧
      ∀ (σ : Type) (files : FileAccess (StateM σ)) (state : σ) (strategies data : String)
        (cash : Decimal), (Run.ofFiles files strategies data request policy state).1 ≠
          .error (.problem (.invalidCash cash)) := by
  refine ⟨?_, fun symbol => request_of_check path, fun request policy => request_eq_ok_iff,
    fun problem => request_eq_error_iff, fun request policy h => ?_⟩
  · constructor
    · rintro ⟨⟨request, policy⟩, h⟩
      have held := request_eq_ok_iff.1 h
      rw [request_eq] at h
      obtain ⟨symbol, checked, -⟩ := bind_eq_ok_iff.1 h
      exact ⟨⟨symbol, checked⟩, _, held.strategy⟩
    · rintro ⟨⟨symbol, checked⟩, id, named⟩
      obtain ⟨_, _, _, _, -, -, -, -, requested⟩ := request_of_check path checked
      rw [requested, (source.strategyId_eq_ok_iff path id).2 named]
      exact ⟨_, rfl⟩
  · have held := request_eq_ok_iff.1 h
    obtain ⟨visible, trimmed⟩ := held.symbol.visible
    have positive := Decimal.isPositive_iff.2 held.cash.2.2
    refine ⟨⟨held.cash.2.2, held.inOrder⟩, ⟨visible, trimmed, ?_⟩, fun d series cash => ?_,
      fun σ files state strategies data cash => ?_⟩
    · rintro text rfl
      exact held.symbol.1.symm
    · exact Run.ofDefinition_ne_invalidCash positive d series policy cash
    · exact Run.ofFiles_ne_invalidCash files state positive strategies data policy cash

/-- A request for the symbol and the file that are given, and settings with four faults, of which
the second date is the first. -/
theorem request_of_given_symbol :
    let text (key value : String) : Setting := ⟨"backtest", key, some value⟩
    let source := Settings.source ⟨[text "initial_cash" "1e3", text "start_date" "2024-05-01",
      text "end_date" " 2024-05-01 ", text "open_position" "Mark_To_Market"]⟩
    let flawed := Settings.source ⟨[text "initial_cash" "1e3", text "start_date" "2024-05-01",
      text "end_date" "01.05.2024", text "open_position" "keep", text "symbol" " "]⟩
    let request : RunRequest :=
      ⟨"st", "MSFT", ⟨19844⟩, ⟨19844⟩, ⟨false, 1000, 0, by decide, by decide⟩⟩
    let problem : SettingProblem := .invalid "backtest" "end_date" (.invalidDate "end_date")
    source.request (some "own/st.JSON") (some " MSFT ") = .ok (request, .markToMarket) ∧
      request.Held source (some "own/st.JSON") (some " MSFT ") .markToMarket ∧
      Text.IsTrimmed request.symbol.toList ∧
      flawed.request none none = .error problem ∧
      SettingCheck.IsFirst flawed none none problem := by
  intro text source flawed request problem
  have made : source.request (some "own/st.JSON") (some " MSFT ") =
      .ok (request, .markToMarket) := by decide +kernel
  have failed : flawed.request none none = .error problem := by decide +kernel
  obtain ⟨-, -, held, -, sound⟩ := request_spec source (some "own/st.JSON") (some " MSFT ")
  obtain ⟨-, -, -, first, -⟩ := request_spec flawed none none
  obtain ⟨-, ⟨-, trimmed, -⟩, -⟩ := sound _ _ made
  exact ⟨made, (held _ _).1 made, trimmed, failed, (first _).1 failed⟩

end SettingSource
end Backtest
