import Std.Time.Format
import TokenLayout.Cli.Session

/-! # The program

The only part that touches the world. It takes a snapshot of the files that the command looks at,
runs the command on it, and then prints and writes what the outcome says.
-/

namespace TokenLayout.Main

open Cli

/-- A snapshot of what stands at a path. In a directory only documents are read: of other files it is
enough to know that they are there. -/
partial def snapshot (path : String) (wanted : Bool) : IO (Option FileTree) := do
  let place := (← IO.currentDir) / path
  if ← place.isDir then
    let mut tree := FileTree.empty
    for entry in ← place.readDir do
      let inner := path ++ "/" ++ entry.fileName
      if let some found ← snapshot inner (inner.endsWith Analyzer.documentSuffix) then
        tree := tree.put [entry.fileName] found
    return some tree
  else if ← place.pathExists then
    if wanted then
      try
        return some (.file (String.fromUTF8? (← IO.FS.readBinFile place)))
      catch _ =>
        return some (.file none)
    else return some (.file none)
  else return none

/-- What the program can see when it is to carry out a command. -/
def readSession (arguments : List String) : IO Session := do
  let current : Path := ⟨(← IO.currentDir).toString⟩
  let home := (← IO.getEnv "HOME").map Path.mk
  let configDirectory := (← IO.getEnv "LAYOUT_LINT_CONFIG_DIR").map Path.mk
  let mut session : Session := ⟨FileTree.empty, current, home, configDirectory⟩
  if let .ok command := Command.read arguments then
    for path in session.sights command do
      let absolute := current.join path
      if let some tree ← snapshot absolute.text true then
        session := { session with tree := session.tree.put absolute.names tree }
  return session

def timeStamp : IO String := do
  let now ← Std.Time.Timestamp.now
  return (Std.Time.DateTime.ofTimestamp now .UTC).format "uuuu-MM-dd'T'HH:mm:ss.SSSSSS'Z'"

def run (arguments : List String) : IO UInt32 := do
  let session ← readSession arguments
  let outcome := session.run arguments
  for (path, text) in outcome.written do
    IO.FS.writeFile path.text text
  IO.print (outcome.transcript (← timeStamp))
  IO.eprint outcome.errorOutput
  return outcome.exit.toUInt32

end TokenLayout.Main

def main (arguments : List String) : IO UInt32 :=
  TokenLayout.Main.run arguments
