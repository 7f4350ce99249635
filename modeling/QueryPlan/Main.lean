import QueryPlan.CommandLine
/-!
# The program

The outer layer of the command line: it hands the arguments over, prints the report and ends with
its code.
-/
open QueryPlan

def main (arguments : List String) : IO UInt32 := do
  let report := CommandLine.run arguments
  IO.print report.stdout
  IO.eprint report.stderr
  for record in report.log do
    IO.eprintln record.message
  return report.code.toUInt32
