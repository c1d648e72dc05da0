import Catalog.CommandLine

/-!
The program: texts come from files and the standard input, results go to the standard streams.
-/
namespace Catalog.CommandLine

/-- The words for an error code of the operating system. -/
def codeText? : Nat → Option String
  | 2 => some "No such file or directory"
  | 5 => some "Input/output error"
  | 13 => some "Permission denied"
  | 20 => some "Not a directory"
  | 21 => some "Is a directory"
  | 36 => some "File name too long"
  | 40 => some "Too many levels of symbolic links"
  | _ => none

/-- A reason with its code, which may come negated as a 32-bit word. -/
def reasonText (code : UInt32) (details : String) : String :=
  let n := if code.toNat < 0x80000000 then code.toNat else (-code).toNat
  (codeText? n).getD details ++ " (os error " ++ toString n ++ ")"

def reasonOf : IO.Error → String
  | .noFileOrDirectory _ code details | .inappropriateType _ code details
  | .permissionDenied _ code details | .invalidArgument _ code details
  | .resourceExhausted _ code details | .noSuchThing _ code details
  | .hardwareFault code details | .otherError code details => reasonText code details
  | e => toString e

def textOf (read : IO ByteArray) : IO (Except String String) := do
  match ← read.toBaseIO with
  | .error e => pure (.error (reasonOf e))
  | .ok bytes =>
    match String.fromUTF8? bytes with
    | some text => pure (.ok text)
    | none => pure (.error "stream did not contain valid UTF-8")

/-- Files and the standard input. -/
def systemAccess : Access IO where
  file path := textOf (IO.FS.readBinFile path)
  standardInput := textOf do (← IO.getStdin).readBinToEnd

end Catalog.CommandLine

open Catalog.CommandLine in
def main (args : List String) : IO UInt32 := do
  let result ← perform systemAccess (Request.ofArguments args)
  IO.print result.output
  IO.eprint result.errors
  pure result.exitCode
