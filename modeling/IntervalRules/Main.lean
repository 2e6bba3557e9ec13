import IntervalRules.Command.Output

/-!
The program: reads its arguments and, where a command asks for it, the standard input,
and writes the outcome.
-/

namespace IntervalRules

/-- The rest of a stream. -/
partial def readAll (stream : IO.FS.Stream) (bytes : ByteArray) : IO ByteArray := do
  let chunk ← stream.read 65536
  if chunk.isEmpty then return bytes else readAll stream (bytes ++ chunk)

/-- The outcome of the arguments, for which the input is read only if it is needed. -/
def outcomeOf (args : List String) : IO Outcome := do
  match Command.ofArguments .empty args with
  | .error usage => return usage.outcome
  | .ok invocation =>
    let input ←
      if invocation.command.readsInput then readAll (← IO.getStdin) .empty
      else pure .empty
    return invocation.run input

end IntervalRules

def main (args : List String) : IO UInt32 := do
  let outcome ← IntervalRules.outcomeOf args
  IO.print outcome.stdout
  IO.eprint outcome.stderr
  return outcome.code.toUInt32
