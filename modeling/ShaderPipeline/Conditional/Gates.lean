/-! Gates of open conditionals. Text is live while every gate is open. -/

namespace ShaderPipeline.Conditional

/-- Whether each open conditional's current branch is live, innermost first. -/
abbrev Gates := List Bool

namespace Gates

def live (gates : Gates) : Bool := gates.all id

/-- A further branch is live if the one before it was not and its condition holds. Only the
branch right before it counts. -/
def alternative? (condition : Bool) : Gates → Option Gates
  | [] => none
  | last :: outer => some ((!last && condition) :: outer)

/-- Closes the innermost conditional. -/
def close? : Gates → Option Gates
  | [] => none
  | _ :: outer => some outer

end Gates

end ShaderPipeline.Conditional
