import TaskRelay.Bench

/-!
# The benchmark program

Shows what a run of the benchmark says, and ends with its exit code.
-/

/-- The code in place of one that the system would have set. -/
def TaskRelay.Bench.abortedCode : Nat := 134

open TaskRelay in
def main (arguments : List String) : IO UInt32 := do
  let t := Bench.program arguments
  IO.eprint t.complaints
  IO.print t.output
  for line in t.ready.toList ++ t.completed.toList do IO.println line
  return (t.exit.getD Bench.abortedCode).toUInt32
