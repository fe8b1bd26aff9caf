import DebugHost.Program

/-! # The command line

The program as it is started by the system: it looks at the files around it, runs, and writes what it
has to write. -/

namespace DebugHost.Main

/-- How deep the directories below the current one are looked into. -/
def depth : Nat := 6

/-- The entries below a directory, as far down as `depth` tells. -/
def entriesBelow : Nat → List String → IO.FS.DirEntry → IO (List (List String × Entry))
  | 0, _, _ => return []
  | n + 1, trail, e => do
    let here := trail ++ [e.fileName]
    if ← e.path.isDir then
      let children ← e.path.readDir
      let below ← children.toList.mapM (entriesBelow n here)
      return (here, .directory) :: below.flatten
    else
      try
        let octets := (← IO.FS.readBinFile e.path).toList
        return [(here, .file octets (octets.take 2 = [35, 33]))]
      catch _ => return []

/-- The variables of the environment that matter. -/
def environment : IO (List (String × String)) := do
  let names := ["PATH", "HOME", Config.variable, "RUST_LOG"]
  let values ← names.mapM fun n => return (n, ← IO.getEnv n)
  return values.filterMap fun (n, v) => v.map (n, ·)

end DebugHost.Main

open DebugHost in
/-- Runs the program on the words of the command line. -/
def main (words : List String) : IO UInt32 := do
  let directory ← IO.currentDir
  let cwd := (directory.toString.splitOn "/").filter (· ≠ "")
  let children ← directory.readDir
  let entries ← children.toList.mapM (DebugHost.Main.entriesBelow DebugHost.Main.depth cwd)
  let invocation : Invocation :=
    ⟨words, ← DebugHost.Main.environment, ⟨(cwd, .directory) :: entries.flatten⟩, cwd⟩
  match Program.main Network.none 49152 invocation with
  | .error fault =>
    if fault.isDisplay then
      IO.println "usage: pyra-dap [--config FILE] run|debug SCRIPT [OPTIONS]"
      return 0
    else
      IO.eprintln ("error: " ++ fault.label)
      return 2
  | .ok ending =>
    for line in ending.out do IO.println line
    for line in ending.err do IO.eprintln line
    return UInt32.ofNat ending.code
