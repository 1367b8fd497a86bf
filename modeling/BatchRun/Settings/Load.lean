import BatchRun.Failure
import BatchRun.Settings.Fitting
import BatchRun.Settings.Host
import BatchRun.Toml.Reader

/-!
# Loading settings

Settings are loaded from a directory of files and from environment variables. From the lowest to
the highest, the layers are the usual settings, the file for all environments, the file for the
current environment, and the variables. A file that is missing is no layer. Each layer is read when
the lower ones are merged, so that the lowest one that cannot be read or merged says why there are
no settings. What comes out is checked before it is handed on.

## Main definitions

* `Loaded`: settings and where they come from
* `load`, `loadDirectory`, `loadFile`, `global`: the ways to load
-/

namespace BatchRun.Settings

/-- Settings and where they come from. -/
structure Loaded where
  settings : Settings Float
  environment : String
  directory : String

/-- The environment that a host says it is in. -/
def environmentOf (host : Host) : String :=
  Text.lowercase ((host.valueOf? "DISPATCH_ENV").getD "development")

/-- Where settings are looked for if no directory is given: beside the current directory, or in
the directory of the package that is being built. -/
def usualDirectory (host : Host) : String :=
  if host.isDirectory "config" then "config"
  else
    match host.valueOf? "CARGO_MANIFEST_DIR" with
    | none => "config"
    | some package =>
      let candidate := Path.joined package "config"
      if host.isDirectory candidate then candidate else "config"

/-- Whether the ending of a path names the format of settings. -/
def hasFormat (path : String) : Bool := Path.ending path == "toml"

/-- The layer of a file. -/
def fileLayer (host : Host) (path : String) : Except RunError Layer :=
  if !hasFormat path then .error (.settingsUnreadable (.unknownFormat path))
  else
    match (host.read? path).bind Toml.read? with
    | some layer => .ok layer
    | none => .error (.settingsUnreadable (.malformed path))

/-- The layer of a file that may be missing, of no known format, or have its ending once more. -/
def optionalLayer (host : Host) (path : String) : Except RunError Layer :=
  if host.isFile path then
    if hasFormat path then fileLayer host path else .ok []
  else if host.isFile (path ++ ".toml") then fileLayer host (path ++ ".toml")
  else .ok []

/-- Merge a layer over a table, if the layer could be read. -/
def mergeRead (order : Order) (root : Toml.Value) (layer : Except RunError Layer) :
    Except Failure Toml.Value := do
  let layer ← layer.mapError .refused
  (mergeLayer order layer root).mapError .faulted

/-- The settings of some layers, the lowest first, and the variables over them. -/
def ofLayers (host : Host) (usualLimit : Nat) (layers : List (Except RunError Layer)) :
    Except Failure (Settings Float) := do
  let layers := layers ++ [Except.ok (ofVariables host.bindings)]
  let merged ← layers.zipIdx.foldlM
    (fun root (layer, n) => mergeRead (host.orders n) root layer) (.table [])
  -- every layer is read before anything is fitted
  let root ← (settle (host.orders layers.length) merged).mapError .faulted
  match ofValue? usualLimit root with
  | none => throw (.refused (.settingsUnreadable .misfit))
  | some settings =>
    settings.validate.mapError .refused
    pure settings

/-- Load from a directory, for an environment. -/
def loadDirectory (host : Host) (usualLimit : Nat) (directory : Option String)
    (environment : String) : Except Failure Loaded := do
  let directory := directory.getD (usualDirectory host)
  let overlay := "dispatch." ++ environment ++ ".toml"
  let settings ← ofLayers host usualLimit
    (["dispatch.toml", overlay].map fun name => optionalLayer host (Path.joined directory name))
  pure ⟨settings, environment, directory⟩

/-- Load from the usual directory, for the environment of the host. -/
def load (host : Host) (usualLimit : Nat) : Except Failure Loaded :=
  loadDirectory host usualLimit none (environmentOf host)

/-- Load a single file, with the variables over it. -/
def loadFile (host : Host) (usualLimit : Nat) (path : String) : Except Failure Loaded := do
  if !host.isFile path then throw (.refused (.settingsUnreadable (.fileMissing path)))
  let settings ← ofLayers host usualLimit [fileLayer host path]
  pure ⟨settings, environmentOf host, Path.parent path⟩

/-- What `load` gives, or the usual settings where it is refused. -/
def global (host : Host) (usualLimit : Nat) : Except Fault Loaded :=
  match load host usualLimit with
  | .ok loaded => .ok loaded
  | .error (.faulted fault) => .error fault
  | .error (.refused _) => .ok ⟨.usual usualLimit, environmentOf host, usualDirectory host⟩

end BatchRun.Settings
