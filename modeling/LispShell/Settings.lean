/-
Settings: how the shell starts, from a file or by default.

The file is the one asked for, else the one the environment names, else
the default file of the working directory if it exists. It is laid over
the defaults; files and search paths in it are taken from the directory it
is in. Then the settings are checked, and all that is wrong with them is
reported at once.
-/
import LispShell.Disk
import LispShell.Log
import LispShell.Module.Surroundings
import LispShell.Yaml.Decode

namespace LispShell

/-- How the shell starts. -/
structure Settings where
  prompt : String
  /-- The file that keeps the lines typed; none if it is empty. -/
  history : String
  /-- The files loaded first. -/
  preload : List String
  /-- Where modules of machine code are looked for. -/
  wasmPaths : List String
  /-- Whether the modules of the platform can be imported. -/
  native : Bool
  /-- The gravity from which log lines are shown. -/
  level : String
  /-- The file the settings come from, empty if there is none. -/
  path : String
  deriving DecidableEq

/-- What is wrong with settings. -/
inductive SettingsProblem where
  /-- The file cannot be opened. -/
  | unopened (path : String) (cause : Failure)
  /-- The file is no document. -/
  | malformed (path text : String)
  /-- Values have the wrong types. -/
  | mistyped (path : String) (complaints : List String)
  /-- Values are not allowed. -/
  | invalid (path : String) (issues : List String)

/-- The wording of a problem. -/
def SettingsProblem.message : SettingsProblem → String
  | .unopened path cause => "config: open " ++ path ++ ": " ++ cause.message
  | .malformed path text => "config: parse " ++ path ++ ": " ++ text
  | .mistyped path complaints =>
    "config: parse " ++ path ++ ": yaml: unmarshal errors:\n  " ++ Text.join "\n  " complaints
  | .invalid path issues =>
    "config: " ++ path ++ " is invalid:" ++ String.join (issues.map ("\n- " ++ ·))

namespace Settings

/-- The variable that names a settings file. -/
def fileVariable : String := "PARENS_CONFIG"

/-- The settings file that is looked for in the working directory. -/
def defaultFile : String := ".parens.yml"

/-- A variable of the environment, empty if it is not set. -/
def variableText (s : Surroundings) (name : String) : String :=
  (s.environment.lookup name).getD ""

/-- The settings without a file. -/
def default (s : Surroundings) : Settings where
  prompt := "pl> "
  history :=
    let home := variableText s "HOME"
    if home == "" then "" else Path.join home ".parens_history"
  preload := []
  wasmPaths := []
  native := true
  level := "warn"
  path := ""

/-- The gravity from which log lines are shown. -/
def logLevel (x : Settings) : Int :=
  (Log.parse? x.level).getD Log.warn

/-- Picks the settings file; the empty name stands for none. -/
def find (s : Surroundings) (disk : Disk) (explicit : String) : String :=
  if explicit != "" then explicit
  else if variableText s fileVariable != "" then variableText s fileVariable
  else match disk.stat s.directory defaultFile with
    | .ok _ => defaultFile
    | .error _ => ""

-- ================================================================ decoding

/-- Decodes texts one by one, without blanks around them and without empty
ones; nothing if one is of another type. The complaints are about the
first such one. -/
def decodeItems (d : Yaml.Document) : List Yaml.Node → Yaml.Decode (Option (List String))
  | [] => return some []
  | n :: rest => do
    let (s, complaints) ← Yaml.Decode.apart (Yaml.Decode.text d n)
    Yaml.Decode.complainAll complaints
    if !complaints.isEmpty then return none
    let trimmed := Text.trim (s.getD "")
    let others ← decodeItems d rest
    return others.map fun more => if trimmed == "" then more else trimmed :: more

/-- Decodes texts one by one as they are; those that are null or of another
type are left out. -/
def decodeTexts (d : Yaml.Document) : List Yaml.Node → Yaml.Decode (List String)
  | [] => return []
  | n :: rest => do
    let s ← Yaml.Decode.text d n
    let others ← decodeTexts d rest
    return s.toList ++ others

/-- Decodes a list of texts that is no reference; a single text is a list
of one. Blanks around texts and empty texts do not count, unless a
sequence has the tag of null. -/
def decodeListNode (d : Yaml.Document) (n : Yaml.Node) : Yaml.Decode (Option (List String)) :=
  match n, n.tag == Yaml.Meaning.null.tag with
  | .scalar _ tag s, true => do
    let _ ← Yaml.Decode.meaning tag s
    return some []
  | .scalar _ _ s, false =>
    let trimmed := Text.trim s
    return some (if trimmed == "" then [] else [trimmed])
  | .sequence _ _ items, true => return some (← decodeTexts d items)
  | .sequence _ _ items, false => decodeItems d items
  | n, true => do
    Yaml.Decode.wrongCollection n "config.stringList"
    return none
  | n, false => Yaml.Decode.fail ("config: expected string or sequence but found " ++ n.tag)

/-- Decodes a list of texts. -/
def decodeList (d : Yaml.Document) (n : Yaml.Node) : Yaml.Decode (Option (List String)) :=
  Yaml.Decode.following d n (decodeListNode d)

/-- A field that holds what a decoder gives, if it gives something. -/
def field {α : Type} (name : String)
    (decoder : Yaml.Document → Yaml.Node → Yaml.Decode (Option α))
    (put : Settings → α → Settings) : Yaml.Field Settings where
  name := name
  decode := fun d n x => do
    match ← decoder d n with
    | some v => return put x v
    | none => return x

/-- The part of a settings file about modules. -/
def modulesRecord : Yaml.Record Settings where
  typeName := "config.Modules"
  fields :=
    [field "wasm_paths" decodeList fun x v => { x with wasmPaths := v },
      field "native" Yaml.Decode.bool fun x v => { x with native := v }]

/-- The part of a settings file about log lines. -/
def logRecord : Yaml.Record Settings where
  typeName := "config.Log"
  fields := [field "level" Yaml.Decode.text fun x v => { x with level := v }]

/-- A settings file. -/
def record : Yaml.Record Settings where
  typeName := "config.Config"
  fields :=
    [field "prompt" Yaml.Decode.text fun x v => { x with prompt := v },
      field "history" Yaml.Decode.text fun x v => { x with history := v },
      field "preload" decodeList fun x v => { x with preload := v },
      ⟨"modules", modulesRecord.decode⟩,
      ⟨"log", logRecord.decode⟩]

/-- Lays the text of a settings file over settings. -/
def decode (path text : String) (x : Settings) : Except SettingsProblem Settings :=
  match Yaml.Document.ofText text with
  | .error p => .error (.malformed path ("yaml: " ++ p.message))
  | .ok none => .ok x
  | .ok (some d) =>
    match record.ofDocument d x with
    | .error text => .error (.malformed path text)
    | .ok (x, []) => .ok x
    | .ok (_, complaints) => .error (.mistyped path complaints)

-- ================================================================= loading

/-- A path in a settings file, taken from the directory of that file. -/
def relativeTo (directory p : String) : String :=
  if Path.isAbsolute p then p else Path.join directory p

/-- What is said about a file to load first that is missing. -/
def preloadIssue (disk : Disk) (directory : String) (index : Nat) (p : String) : List String :=
  match disk.stat directory p with
  | .error .missing => ["preload[" ++ Nat.repr index ++ "]: " ++ p ++ " does not exist"]
  | _ => []

/-- What is said about the files to load first, from an index on. -/
def preloadIssues (disk : Disk) (directory : String) (index : Nat) : List String → List String
  | [] => []
  | p :: rest => preloadIssue disk directory index p ++ preloadIssues disk directory (index + 1) rest

/-- All that is not allowed in settings. -/
def issues (s : Surroundings) (disk : Disk) (x : Settings) : List String :=
  (if x.prompt == "" then ["prompt must not be empty"] else [])
  ++ (if (Log.parse? x.level).isNone then
      ["log.level " ++ Text.quote x.level ++ " is not one of debug, info, warn, error"] else [])
  ++ preloadIssues disk s.directory 0 x.preload

/-- Reads the text of a settings file. -/
def readText (disk : Disk) (path : String) : Except SettingsProblem String :=
  match disk.stat "/" path with
  | .error trouble => .error (.unopened path (.file "open" path trouble))
  | .ok .directory =>
    .error (.malformed path ("yaml: input error: "
      ++ (Failure.file "read" path .isDirectory).message))
  | .ok (.file text) => .ok text

/-- Takes the files and search paths from the directory that the settings
file is in. -/
def placePaths (path : String) (x : Settings) : Settings :=
  let directory := Path.parent path
  { x with
    path
    preload := x.preload.map (relativeTo directory)
    wasmPaths := x.wasmPaths.map (relativeTo directory) }

/-- Settings as a file has them, not yet checked; the defaults if there is
no file. -/
def written (s : Surroundings) (disk : Disk) (file : String) :
    Except SettingsProblem Settings := do
  if file == "" then return default s
  let path := Path.absolute s.directory file
  let text ← readText disk path
  let x ← decode path text (default s)
  return placePaths path x

/-- Refuses settings that are not allowed. -/
def check (s : Surroundings) (disk : Disk) (x : Settings) : Except SettingsProblem Settings :=
  match issues s disk x with
  | [] => .ok x
  | found => .error (.invalid x.path found)

/-- Loads settings from a file; the defaults if there is none. -/
def load (s : Surroundings) (disk : Disk) (file : String) : Except SettingsProblem Settings := do
  let x ← written s disk file
  if file == "" then return x else check s disk x

end Settings

end LispShell
