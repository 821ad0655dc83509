import Turnstile.CommandLine.Program

/-!
# The command line

The program as started from a shell.  Tools run on a modelled machine; the
settings file, if one is named, is what arrives on standard input.
-/

namespace Turnstile.CommandLine

/-- The settings file that an invocation loads. -/
def Invocation.settingsPath? : Invocation → Option String
  | .perform _ settingsPath => settingsPath
  | _ => none

/-- A machine on which a file of a path holds some bytes. -/
def machineWith (file : Option (String × Text.Bytes)) : Host.Machine :=
  let home : Place := ["work"]
  let tree := FileTree.system.set home .directory
  match file with
  | none => { home, tree }
  | some (path, bytes) => { home, tree := tree.install home path (.file bytes false) }

/-- All bytes of a stream, after those read already. -/
partial def readAll (input : IO.FS.Stream) (sofar : ByteArray) : IO ByteArray := do
  let bytes ← input.read 65536
  if bytes.isEmpty then return sofar else readAll input (sofar ++ bytes)

end Turnstile.CommandLine

open Turnstile.CommandLine in
def main (arguments : List String) : IO UInt32 := do
  let environment ← IO.getEnv settingsVariable
  let invocation := Invocation.read environment arguments
  let file ← invocation.settingsPath?.mapM fun path => do
    let bytes ← readAll (← IO.getStdin) .empty
    return (path, bytes.toList)
  let answer := invocation.answer (machineWith file)
  IO.print answer.out
  IO.eprint answer.err
  return answer.exitCode.toUInt32
