import LiveChat.Console.Session

/-!
# The console program

Reads lines from the standard input and prints what the session shows. What a line does is decided
by the session alone; here is only its input and output.
-/

namespace LiveChat.Console

def printAll (out : IO.FS.Stream) (lines : List String) : IO Unit := do
  for line in lines do
    out.putStr (line ++ "\n")
  out.flush

def clock : IO Instant := do return .ofMillis (.ofNat (← IO.monoMsNow))

/-- Serves lines until the input ends or the user quits. -/
partial def serve (input out err : IO.FS.Stream) (s : Session) (last : Instant) : IO UInt32 := do
  let text ← input.getLine
  if text.isEmpty then return 0
  let now ← clock
  match s.line (now - last) text with
  | .error e =>
    err.putStr (e.message ++ "\n")
    return 1
  | .ok .ended => return 0
  | .ok (.next s lines) =>
    printAll out lines
    serve input out err s now

end LiveChat.Console

open LiveChat.Console

def main (args : List String) : IO UInt32 := do
  let err ← IO.getStderr
  match Arguments.read args with
  | .error e =>
    err.putStr ("error: " ++ e.message ++ "\n")
    return 2
  | .ok args =>
    match Session.start args with
    | .error e =>
      err.putStr (e.message ++ "\n")
      return 1
    | .ok (s, lines) =>
      let out ← IO.getStdout
      printAll out lines
      serve (← IO.getStdin) out err s (← clock)
