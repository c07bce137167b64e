/-
The program: the command line on the real machine.

The command line itself works on a disk that is a value. Before it is
asked, the files that it can come to read are looked at and put on that
disk: those that the arguments and the settings name, the modules of
machine code in the search paths, and the file of a load command when it
is typed. Texts are bytes there, so what the machine gives and takes as
characters is encoded and decoded here.
-/
import LispShell.CommandLine
import LispShell.Wasm.Sample

namespace LispShell.Program

-- ============================================================ looking around

/-- The text that bytes are. -/
def ofBytes (bytes : ByteArray) : String :=
  String.ofList (bytes.toList.map fun b => Text.byte b.toNat)

/-- The bytes that a text is. -/
def toBytes (text : String) : ByteArray :=
  ⟨(text.toList.map fun c => c.toNat.toUInt8).toArray⟩

/-- The variables of the environment. -/
def readVariables : IO (List (String × String)) := do
  let bytes ← try IO.FS.readBinFile "/proc/self/environ" catch _ => pure ByteArray.empty
  let text := ofBytes bytes
  return (Text.split text "\x00").filterMap fun entry =>
    if Text.contains entry "=" then some (Text.cut entry '=') else none

/-- The name of the machine. -/
def readHostName : IO String := do
  let text ← try IO.FS.readFile "/proc/sys/kernel/hostname" catch _ => pure ""
  return Text.trim (Text.encode text)

/-- Where the program runs. -/
def readSurroundings (args : List String) : IO Surroundings := do
  return ⟨← readVariables, Text.encode (← IO.currentDir).toString, CommandLine.programName :: args,
    ← readHostName⟩

/-- Puts what a path leads to on a disk, if it leads to something. -/
def seeOne (d : Disk) (directory path : String) : IO Disk := do
  let place := Path.absolute directory path
  try
    let real ← IO.FS.realPath (Text.decode place)
    if ← real.isDir then return d.add directory (place ++ "/") ""
    let bytes ← IO.FS.readBinFile (Text.decode place)
    return d.add directory place (ofBytes bytes)
  catch _ => return d

/-- Puts what a path leads to on a disk, and all that it passes. -/
def see (d : Disk) (directory path : String) : IO Disk := do
  let parts := Path.parts path
  (List.range parts.length).foldlM (fun d n =>
    seeOne d directory (Text.join "/" (parts.take (n + 1)))) d

/-- Puts what several paths lead to on the disk of a platform. -/
def seeAll (p : Platform) (paths : List String) : IO Platform := do
  let disk ← paths.foldlM (fun d path => see d p.surroundings.directory path) p.disk
  return { p with disk }

/-- The modules of machine code in a directory. -/
def modulesIn (directory : String) : IO (List String) := do
  try
    let real ← IO.FS.realPath (Text.decode directory)
    let entries ← real.readDir
    return (entries.toList.map fun e => Path.join directory (Text.encode e.fileName)).filter
      (Text.endsWith · ".wasm")
  catch _ => return []

/-- The paths that arguments can name. -/
def namedPaths (args : List String) : List String :=
  args ++ args.map fun arg => (Text.cut arg '=').2

/-- The platform with all the files that arguments and settings name. -/
def readPlatform (args : List String) : IO Platform := do
  let s ← readSurroundings args
  let start := Platform.start s (Disk.add [] "/" (s.directory ++ "/") "") Wasm.Sample.engine
  let p ← seeAll start
    ([Settings.defaultFile, Settings.variableText s Settings.fileVariable] ++ namedPaths args)
  let explicit := match CommandLine.Flags.parse CommandLine.settingsFlags [] args.tail with
    | .ok flags => flags.value "config"
    | .error _ => ""
  match Settings.written s p.disk (Settings.find s p.disk explicit) with
  | .error _ => return p
  | .ok x =>
    let modules ← x.wasmPaths.mapM modulesIn
    seeAll p (x.history :: x.preload ++ modules.flatten)

-- ================================================================= speaking

/-- Shows what a console has put out, and empties it. -/
def drain (c : Console) : IO Console := do
  let out ← IO.getStdout
  let err ← IO.getStderr
  out.write (toBytes c.out)
  out.flush
  err.write (toBytes c.err)
  err.flush
  return { c with out := "", err := "" }

/-- Puts the file that a line asks to load on the disk. -/
def seeLoaded (r : Repl) (line : String) : IO Repl := do
  match Shell.request (Input.extend r.pending line) with
  | .command .load arg =>
    let c := r.console
    let host ← seeAll c.desk.host [Text.trim arg]
    return { r with console := { c with desk := { c.desk with host } } }
  | _ => return r

/-- Keeps the history and ends. -/
def stop (r : Repl) (ending : Nat × Console) : IO UInt32 := do
  let _ ← drain ending.2
  if r.settings.history != "" then
    try IO.FS.writeBinFile (Text.decode r.settings.history) (toBytes r.history.toText) catch _ => pure ()
  return ending.1.toUInt32

/-- Asks for lines and does what they ask for, up to the end. `queue` holds
lines that have been read already. -/
partial def talk (queue : List String) (r : Repl) : IO UInt32 := do
  match r.prompt? with
  | none => stop r r.refuse
  | some prompt =>
    let console ← drain (r.console.print prompt)
    let r := { r with console }
    let queue ← if queue.isEmpty then do
        let text ← (← IO.getStdin).getLine
        pure (Input.lines (Text.encode text))
      else pure queue
    match queue with
    | [] => stop r r.finish
    | line :: rest => do
      let r ← seeLoaded r line
      talk rest (r.feed line)

/-- Shows how a command ended. -/
def close (ending : CommandLine.Ending) : IO UInt32 := do
  (← IO.getStdout).write (toBytes ending.out)
  (← IO.getStderr).write (toBytes ending.err)
  return ending.code.toUInt32

/-- Runs the program on its arguments. -/
def start (args : List String) : IO UInt32 := do
  let args := args.map Text.encode
  let p ← readPlatform args
  match CommandLine.Request.ofArgs args with
  | .repl rest =>
    match CommandLine.startRepl p rest with
    | .error ending => close ending
    | .ok r => talk [] r
  | _ => close (CommandLine.perform p args "")

end LispShell.Program

def main (args : List String) : IO UInt32 :=
  LispShell.Program.start args
