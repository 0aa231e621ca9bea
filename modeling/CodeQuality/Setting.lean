import CodeQuality.Analysis

namespace CodeQuality

/-!
The setting in which requests and commands are handled.
-/

/-- How analyses are done, whether there is an advisor, and how a new job is named by the number
of jobs before it. -/
structure Setting where
  analysis : Analysis.Request
  hasAdvisor : Bool
  jobName : Nat → String

/-- The variables of a setting. -/
def Setting.environment (setting : Setting) : Environment := setting.analysis.environment

/-- The moment of a setting. -/
def Setting.now (setting : Setting) : Moment := setting.analysis.now

end CodeQuality
