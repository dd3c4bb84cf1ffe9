import EngineFuzz.Session
/-!
# Probing an engine

An engine is probed by giving it random statements over literals alone, one start for each, and
collecting the statements that it rejects.  What the engine answers has no influence on the
statements.
-/

namespace EngineFuzz

/-- A statement that an engine rejected, and all that the engine wrote about it. -/
structure ProbeFailure where
  /-- The number of the statement, counted from 1. -/
  iteration : Nat
  statement : String
  output : String
deriving DecidableEq, Repr

namespace ProbeFailure

/-- The failure that an outcome is, if it is one. -/
def ofOutcome? (iteration : Nat) (statement : String) (outcome : Outcome) : Option ProbeFailure :=
  if outcome.status.isSuccess then none
  else some ⟨iteration, statement, Text.lossy outcome.stdout ++ Text.lossy outcome.stderr⟩

/-- The failure as a user reads it. -/
def report (failure : ProbeFailure) : String :=
  s!"### ERROR ### (iteration {failure.iteration})\n" ++
    "Expression: " ++ failure.statement ++ "\n" ++
    "Message:\n" ++ failure.output

end ProbeFailure

/-- Probes with `count` statements, numbered from `iteration` on. -/
def probeFrom (engines : Engines) (engine : Engine) (literals : SizeRange) (iteration : Nat) :
    (count : Nat) → Action (List ProbeFailure)
  | 0 => pure []
  | count + 1 => do
    let statement ← Action.synthesize (probeStatement .standard literals)
    let outcome ← Action.launch engines engine ["-e", statement]
    let rest ← probeFrom engines engine literals (iteration + 1) count
    return (ProbeFailure.ofOutcome? iteration statement outcome).toList ++ rest

/-- The statements that an engine rejects out of `count` random ones. -/
def probe (engines : Engines) (engine : Engine) (count : Nat) (literals : SizeRange) :
    Action (List ProbeFailure) :=
  probeFrom engines engine literals 1 count

end EngineFuzz
