import Backtest.Main
import Backtest.Proofs.CommandLine.Outcome
import Backtest.Proofs.CommandLine.StrategyFile
import Backtest.Proofs.History.Window
import Backtest.Proofs.Indexed.Run
import Backtest.Proofs.Run.Bounds
import Backtest.Proofs.Run.Lookahead
import Backtest.Proofs.Run.RoundTrips
import Backtest.Proofs.Run.RuleSets
import Backtest.Proofs.Strategy.StoredForm
import Backtest.Proofs.Decimal.Error
import Backtest.Proofs.Equity.Entry
import Backtest.Proofs.Equity.Order
import Backtest.Proofs.Run.Gains
import Backtest.Proofs.Equity.Drawdown
import Backtest.Proofs.Run.Policies
import Backtest.Proofs.Indicator.Strength
import Backtest.Proofs.Indicator.Range
import Backtest.Proofs.Equity.Peak
import Backtest.Proofs.Trade.Quantity
import Backtest.Proofs.Run.Decisions
import Backtest.Proofs.Indicator.WarmUp
import Backtest.Proofs.Rule.Grammar
import Backtest.Proofs.Run.FirstOffence
import Backtest.Proofs.History.Range
import Backtest.Proofs.Series.Check
import Backtest.Proofs.Decimal.Text
import Backtest.Proofs.Binary64.Nearest
import Backtest.Proofs.Binary64.Shortest
import Backtest.Proofs.Binary64.Text
import Backtest.Proofs.Json.Number
import Backtest.Proofs.Strategy.Rebuilt
import Backtest.Proofs.Rule.Literal
import Backtest.Proofs.Settings.Request
import Backtest.Proofs.Decimal.Figure
import Backtest.Proofs.Rule.Text
import Backtest.Proofs.Equity.ReportFile
import Backtest.Proofs.Indicator.Requests
