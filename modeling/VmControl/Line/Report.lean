import VmControl.Line.Basic

/-!
# Lines for statistics and problem reports

Both are about one guest or about the server.
-/

namespace VmControl

open Options

namespace Statistics

/-- Takes the guest, the last one counting. -/
def takeTarget (_ : Nat) (token : String) (r : Record) : Reading Record :=
  return { r with target := some token }

/-- Takes an option of statistics. -/
def takeOption (m : Match OptionId) (r : Record) : Reading Record :=
  match m.id with
  | .loop => return { r with statistics := { r.statistics with repeated := true } }
  | .filter => return { r with statistics := { r.statistics with filter := some m.text } }
  | .setting (.mark .listAll) => return r.mark .listAll
  | _ => refuseOption m

/-- How a line for statistics is taken. -/
def grammar : Grammar Record := recordGrammar takeTarget takeOption

end Statistics

/-- Reads the line for statistics from `start` on. -/
def readStatisticsLine (action : Action) (table : CommandTable) (start : Nat)
    (args : List String) : Reading Record :=
  Statistics.grammar.read (Record.ofAction action) (table.read args start)

namespace ProblemReport

/-- Takes an option of problem reports. -/
def takeOption (m : Match OptionId) (r : Record) : Reading Record :=
  let put (report : ProblemReport) : Reading Record := return { r with report := report }
  let report := r.report
  match m.id with
  | .report action => put { report with action := some action }
  | .standAlone => put { report with standAlone := true }
  | .reportName => put { report with userName := some m.text }
  | .reportEmail => put { report with userEmail := some m.text }
  | .reportDescription => put { report with description := some m.text }
  | .proxy => do
    let proxy ← readSecret m
    put { report with proxy := some proxy }
  | .noProxy => put { report with noProxy := true }
  | _ => refuseOption m

/-- How the options of problem reports are taken. -/
def grammar : Grammar Record := recordGrammar refuseArgument takeOption

end ProblemReport

/-- Reads the line for a problem report from `start` on.  A report about a guest has it there. -/
def readProblemReportLine (action : Action) (table : CommandTable) (start : Nat)
    (args : List String) : Reading Record := do
  let record := Record.ofAction action
  let (record, start) :=
    if action = .problemReport then ({ record with target := args[start]? }, start + 1)
    else (record, start)
  let record ← ProblemReport.grammar.read record (table.read args start)
  Reading.ofExcept (Rule.enforce record.report.rules)
  return record

end VmControl
