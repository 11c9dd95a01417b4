import MonkeyLang.CommandLine

/-!
# The program

Reads the source, writes the outcome.
-/

namespace MonkeyLang

/-- The description of a failure by the operating system, and its number. -/
def ReadError.ofIO : IO.Error → ReadError
  | .noFileOrDirectory _ code description => .system description code.toNat
  | .permissionDenied _ code description => .system description code.toNat
  | .inappropriateType _ code description => .system description code.toNat
  | .invalidArgument _ code description => .system description code.toNat
  | .resourceExhausted _ code description => .system description code.toNat
  | .noSuchThing _ code description => .system description code.toNat
  | .alreadyExists _ code description => .system description code.toNat
  | .interrupted _ code description => .system description code.toNat
  | .hardwareFault code description => .system description code.toNat
  | .illegalOperation code description => .system description code.toNat
  | .protocolError code description => .system description code.toNat
  | .resourceBusy code description => .system description code.toNat
  | .resourceVanished code description => .system description code.toNat
  | .timeExpired code description => .system description code.toNat
  | .unsatisfiedConstraints code description => .system description code.toNat
  | .unsupportedOperation code description => .system description code.toNat
  | .otherError code description => .system description code.toNat
  | .unexpectedEof => .system "unexpected end of file" 0
  | .userError description => .system description 0

/-- The bytes of a file, or of standard input. -/
def readInput (path : Option String) : IO (Except ReadError ByteArray) := do
  try
    match path with
    | some path => return .ok (← (← IO.FS.Handle.mk path .read).readBinToEnd)
    | none => return .ok (← (← IO.getStdin).readBinToEnd)
  catch e =>
    return .error (.ofIO e)

end MonkeyLang

open MonkeyLang in
def main (args : List String) : IO UInt32 := do
  let outcome ← CommandLine.run readInput args
  (← IO.getStdout).putStr outcome.stdout
  (← IO.getStderr).putStr outcome.stderr
  return outcome.exitCode.toUInt32
