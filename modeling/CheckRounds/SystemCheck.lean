import CheckRounds.ItemKey
import CheckRounds.World

namespace CheckRounds

/-! Checks that are answered by the machine that the agent runs on. -/

/-- Executes a check by asking the machine what its key asks for; the host that the check
belongs to does not matter. -/
def SystemQuery.execute (machine : Machine) (_host : String) (check : Check) : CheckRun :=
  match ofKey check.key with
  | .ok query => { outcome := .value (query.answer machine) }
  | .error fault => { outcome := .failure [fault.message] }

end CheckRounds
