import OpcodeConformance.CommandLine

open OpcodeConformance

def main (args : List String) : IO UInt32 := do
  let start ← IO.monoMsNow
  let outcome := CommandLine.execute args
  let status := UInt32.ofNat outcome.status
  let finish ← IO.monoMsNow
  for line in outcome.lines (Float.ofNat (finish - start) / 1000) do
    IO.println line
  match outcome with
  | .misused =>
    for line in CommandLine.misuseText do
      IO.eprintln line
  | .failed e => IO.eprintln s!"Error: {e.message}"
  | _ => pure ()
  return status
