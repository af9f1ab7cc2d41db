import Interlock.Report.Encode
import Interlock.Report.Text

/-!
# Rendering

A report in either format.
-/

namespace Interlock

open Data

def RaceReport.render (r : RaceReport) : OutputFormat → String
  | .text => r.text
  | .json => Json.pretty r.toValue

def DeadlockReport.render (r : DeadlockReport) : OutputFormat → String
  | .text => r.text
  | .json => Json.pretty r.toValue

def TestResult.render (r : TestResult) : OutputFormat → String
  | .text => r.text
  | .json => Json.pretty r.toValue

def StressReport.render (r : StressReport) : OutputFormat → String
  | .text => r.text
  | .json => Json.pretty r.toValue

end Interlock
