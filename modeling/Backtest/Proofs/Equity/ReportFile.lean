/-
The file of a report, read back. What the file holds is a JSON record of the report's members and a
line feed, from which any report with a count of 64 bits is read back up to the signs of zeros
(`Report.ofFileText?_fileText`). The figures of a run have no signed zeros and its trades are no
more than its bars, so its report is read back as it is, whatever the names in it.
-/
import Backtest.Equity.ReportFile
import Backtest.Proofs.Decimal.Text
import Backtest.Proofs.Equity.Figures
import Backtest.Proofs.Equity.Prefix
import Backtest.Proofs.Files.Write
import Backtest.Proofs.Json.Block
import Backtest.Proofs.Run.Stages

namespace Backtest

/-! ## The text of a report -/

namespace Report

open Json (Distinct blockChars memberNumbers)
open NumberParts (wordBound)

variable {r : Report}

theorem distinct_members (r : Report) : Distinct r.members := by
  simp [Distinct, members]

theorem kept_members (r : Report) : ∀ m ∈ r.members, JsonDraft.Kept 126 m.2 := by
  intro m hm
  simp only [members, List.mem_cons, List.not_mem_nil, or_false] at hm
  rcases hm with rfl | rfl | rfl | rfl | rfl | rfl | rfl <;> rfl

/-- The only number among the members is the count. -/
theorem fitsWord_members (count : r.trades < wordBound) :
    ∀ n ∈ memberNumbers r.members, n.FitsWord := by
  intro n hn
  have numbers : memberNumbers r.members = [.whole r.trades] := rfl
  rw [numbers, List.mem_singleton] at hn
  subst hn
  unfold wordBound at count
  constructor <;> omega

/-- With or without blanks at the end, the lines of the members are the text of a record that has
the members in some order. -/
theorem exists_ofText (count : r.trades < wordBound) (rest : List Char)
    (blank : ∀ c ∈ rest, JsonToken.isBlank c = true) :
    ∃ members, Json.ofText (String.ofList (blockChars r.members ++ rest)) = .ok (.record members) ∧
      members.Perm r.members :=
  Json.ofText_block r.distinct_members (fitsWord_members count) r.kept_members blank

/-! ## Reading a report -/

/-- What a report is read back as: the report, where zeros have no signs. -/
def reread (r : Report) : Report :=
  { r with
    profit := r.profit.reread
    returnPercent := r.returnPercent.reread
    winRatePercent := r.winRatePercent.reread
    drawdownPercent := r.drawdownPercent.reread }

theorem ofMembers?_congr {members members' : List (String × Json)}
    (h : ∀ name, Json.member? members name = Json.member? members' name) :
    ofMembers? members = ofMembers? members' := by
  simp only [ofMembers?, textMember?, amountMember?, countMember?, h]

theorem ofMembers?_members (r : Report) : ofMembers? r.members = some r.reread := by
  simp [ofMembers?, textMember?, amountMember?, countMember?, members, Json.member?_cons,
    Json.ofNat, Decimal.ofText?_text, reread]

/-- The members of a report may stand in any order. -/
theorem ofMembers?_perm {members : List (String × Json)} (h : members.Perm r.members) :
    ofMembers? members = some r.reread := by
  have distinct := r.distinct_members.of_perm h.symm
  rw [ofMembers?_congr (Json.member?_perm h distinct), ofMembers?_members]

theorem ofFileText?_fileText (count : r.trades < wordBound) :
    ofFileText? r.fileText = some r.reread := by
  obtain ⟨members, read, perm⟩ := exists_ofText count ['\n'] (by simp [JsonToken.isBlank])
  unfold ofFileText? fileText
  rw [read]
  exact ofMembers?_perm perm

/-- A text that a report is stored as: a JSON record with the members of the report and one line
feed, from which the report is read back, each amount with its value and scale. -/
structure StoredAs (r : Report) (text : String) : Prop where
  document : ∃ document members, text = document ++ "\n" ∧ document.toList.getLast? = some '\x7d' ∧
    Json.ofText document = .ok (.record members) ∧ members.Perm r.members
  read : ofFileText? text = some r

theorem storedAs_fileText (count : r.trades < wordBound) (h : r.reread = r) :
    r.StoredAs r.fileText := by
  constructor
  · obtain ⟨members, read, perm⟩ := exists_ofText count [] nofun
    rw [List.append_nil] at read
    refine ⟨String.ofList (blockChars r.members), members, ?_, ?_, read, perm⟩
    · exact String.ofList_append
    · rw [String.toList_ofList, JsonDraft.getLast?_blockChars]
  · rw [ofFileText?_fileText count, h]

end Report

/-! ## The figures of a run -/

theorem Earnings.reread_eq {last cash profit gain : Decimal} (h : Earnings last cash profit gain) :
    profit.reread = profit ∧ gain.reread = gain := by
  obtain ⟨⟨_, -, hp⟩, _, -, hg⟩ := h
  exact ⟨Decimal.reread_of_nearest? (Decimal.sub_eq_ok_iff.1 hp),
    Decimal.reread_of_nearest? (Decimal.mul_eq_ok_iff.1 hg)⟩

theorem Report.reread_of_winRate {r : TradeRecord} {rate : Decimal} (h : winRate r = .ok rate) :
    rate.reread = rate := by
  unfold winRate at h
  split at h
  · cases h
    rfl
  · obtain ⟨_, -, h⟩ := bind_eq_ok_iff.1 h
    exact Decimal.reread_of_nearest? (Decimal.part_eq_ok_iff.1 h).2

section Outcome

variable {strategy symbol : String} {curve : List Decimal} {r : TradeRecord} {cash : Decimal}
variable {report : Report}

/-- No figure of a run is a zero with a sign. -/
theorem Report.Outcome.reread_eq (h : Outcome strategy symbol curve r cash report) :
    report.reread = report := by
  cases h with
  | nothing =>
    have zero : Decimal.zero.toCents.reread = Decimal.zero.toCents := Decimal.reread_toCents rfl
    simp only [reread, empty, zero]
  | figures ends traded positive earned won fell percent =>
    obtain ⟨profit, gain⟩ := earned.reread_eq
    have rate := reread_of_winRate won
    have fall := Decimal.reread_of_nearest? (Decimal.mul_eq_ok_iff.1 percent)
    simp only [reread, Decimal.reread_toCents profit, Decimal.reread_toCents gain,
      Decimal.reread_toCents rate, Decimal.reread_toCents fall]

theorem Report.Outcome.names_eq (h : Outcome strategy symbol curve r cash report) :
    report.strategy = strategy ∧ report.symbol = symbol := by
  cases h <;> exact ⟨rfl, rfl⟩

theorem Report.Outcome.trades_le (h : Outcome strategy symbol curve r cash report) :
    report.trades ≤ r.trades.length := by
  cases h with
  | nothing => exact Nat.zero_le _
  | figures => exact List.length_filter_le ..

end Outcome

/-! ## The file of a run -/

/-- The report of a run whose trades 64 bits can count is stored in its file. -/
theorem Run.storedAs_fileText {d : Definition} {series : Series} {cash : Decimal}
    {policy : OpenPositionPolicy} {run : Run} (counted : run.report.trades < NumberParts.wordBound)
    (h : ofDefinition d series cash policy = .ok run) :
    run.report.StoredAs run.report.fileText := by
  obtain ⟨s, stages⟩ := exists_stages h
  exact Report.storedAs_fileText counted (Report.outcome_of_ofRun stages.reported).reread_eq

/-- The report of every run over bars that 64 bits can count is stored in its file, whatever the
names of the strategy and the symbol; what a path holds once the file was written to it is read as
that report. -/
theorem Run.report_storedAs {d : Definition} {series : Series} {cash : Decimal}
    {policy : OpenPositionPolicy} {run : Run} (counted : series.length < NumberParts.wordBound)
    (h : ofDefinition d series cash policy = .ok run) :
    (run.report.strategy = d.name ∧ run.report.symbol = series.symbol) ∧
    run.report.StoredAs run.report.fileText ∧
    ∀ (tree tree' : FileTree) (path : String), tree.write path run.report.fileText = .ok tree' →
      ∃ text, tree'.read path = .ok text ∧ Report.ofFileText? text = some run.report := by
  obtain ⟨s, stages⟩ := exists_stages h
  have outcome := Report.outcome_of_ofRun stages.reported
  -- each closed trade has a bar of its own, so the count is one of 64 bits as that of the bars is
  have trades := stages.sequence.length_le
  rw [Series.length_closes] at trades
  have stored : run.report.StoredAs run.report.fileText :=
    storedAs_fileText (Nat.lt_of_le_of_lt (Nat.le_trans outcome.trades_le trades) counted) h
  refine ⟨outcome.names_eq, stored, fun tree tree' path written => ?_⟩
  exact ⟨_, FileTree.read_of_write written, stored.read⟩

/-- A run with a loss, of a strategy and a symbol that are named by a quote, a backslash, control
characters and a letter beyond ASCII. -/
theorem Run.report_storedAs_of_escaped_names :
    let d : Definition := ⟨"s", "\"\\\u0001", "", "", [⟨"buy", some []⟩, ⟨"sell", some []⟩]⟩
    let bar (second : Int) (close : Decimal) : Bar :=
      ⟨⟨second, 0⟩, close, close, close, close, .one⟩
    let series : Series := ⟨"\n\té", [bar 0 .hundred, bar 1 .one], by decide, by decide⟩
    ∃ run, ofDefinition d series .hundred .exclude = .ok run ∧
      series.length < NumberParts.wordBound ∧
      (run.report.trades = 1 ∧ run.report.profit.text = "-99.00") ∧
      run.report.StoredAs run.report.fileText ∧
      ∃ tree, FileTree.empty.write "report.json" run.report.fileText = .ok tree ∧
        ∃ text, tree.read "report.json" = .ok text ∧
          Report.ofFileText? text = some run.report := by
  intro d bar series
  have outcome : (ofDefinition d series .hundred .exclude).toOption.map
      (fun run => (run.report.trades, run.report.profit.text)) = some (1, "-99.00") := by
    decide +kernel
  have counted : series.length < NumberParts.wordBound := by decide
  obtain ⟨run, hr, figures⟩ := exists_of_toOption_map outcome
  obtain ⟨-, stored, reads⟩ := report_storedAs counted hr
  rcases FileTree.empty.write_cases "report.json" with ⟨e, refused⟩ | ⟨key, -, -, written⟩
  · have open_path : (FileTree.empty.write "report.json" "").toOption.isSome = true := by
      decide +kernel
    rw [refused] at open_path
    cases open_path
  · exact ⟨run, hr, counted, Prod.mk.inj figures, stored, _, written _, reads _ _ _ (written _)⟩

end Backtest
