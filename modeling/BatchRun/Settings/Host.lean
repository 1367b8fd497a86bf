import BatchRun.Settings.Order

/-!
# The host that settings are loaded on

What a host has that settings can come from: files in directories, environment variables, and a
current directory. Paths are texts with slashes. A path is followed part by part, and everything
in front of a slash has to be a directory. In which order the keys of a table come up is a matter
of the host as well.

## Main definitions

* `Host`: files, directories and variables
* `Host.isFile`, `Host.isDirectory`, `Host.read?`: what is found at a path
* `joined`, `parent`, `ending`: paths as texts
-/

namespace BatchRun

namespace Path

/-- Whether a path starts at the root. -/
def isAbsolute (path : String) : Bool := path.startsWith "/"

/-- A path and one that continues it. An absolute path continues nothing, and an empty one leaves
a slash at the end. -/
def joined (path rest : String) : String :=
  if isAbsolute rest || path.isEmpty then rest
  else if path.endsWith "/" then path ++ rest
  else path ++ "/" ++ rest

/-- The parts of a path between slashes. -/
def parts (path : String) : List String := path.splitOn "/"

/-- A path, backwards, without slashes at its end and without parts that stay where they are. -/
def trimEnd : List Char → List Char
  | '/' :: rest => if rest.isEmpty then ['/'] else trimEnd rest
  | '.' :: '/' :: rest => if rest.isEmpty then ['/'] else trimEnd rest
  | cs => cs

/-- The directory that a path says it is in; empty for a single name. -/
def parent (path : String) : String :=
  let named := (trimEnd path.toList.reverse).dropWhile (· != '/')
  String.ofList (trimEnd named).reverse

/-- The last name of a path. -/
def lastName (path : String) : String :=
  String.ofList ((trimEnd path.toList.reverse).takeWhile (· != '/')).reverse

/-- What follows the last point of the last name, which does not count if it comes first. -/
def ending (path : String) : String :=
  let name := lastName path
  let back := name.toList.reverse
  let behind := back.takeWhile (· != '.')
  let front := back.drop (behind.length + 1)
  if front.isEmpty || name == ".." then "" else String.ofList behind.reverse

end Path

/-- What a host has that settings can come from. -/
structure Host where
  /-- Files with their texts; paths are lists of names from the root. -/
  files : List (List String × String)
  /-- Directories that are there without any file in them. -/
  directories : List (List String)
  /-- Environment variables with their values. -/
  bindings : List (String × String)
  current : List String
  /-- In which order the keys of tables come up: those of the layers, the lowest first, and then
  those of the table that they are merged to. -/
  orders : Nat → Settings.Order := fun _ _ _ => 0

namespace Host

/-- Whether the names from the root lead to a directory. -/
def hasDirectory (host : Host) (names : List String) : Bool :=
  host.files.any (fun f => names.isPrefixOf f.1 && names.length < f.1.length) ||
    host.directories.any (names.isPrefixOf ·)

/-- The text of the file that the names from the root lead to. -/
def textAt? (host : Host) (names : List String) : Option String := host.files.lookup names

/-- Follow the parts of a path from a place. -/
def follow (host : Host) : List String → List String → Option (List String)
  | place, [] => some place
  | place, part :: rest =>
    -- a part can only follow a directory, even one that stays or goes up
    if !host.hasDirectory place then none
    else if part.isEmpty || part == "." then host.follow place rest
    else if part == ".." then host.follow place.dropLast rest
    else host.follow (place ++ [part]) rest

/-- The names from the root that a path leads along. -/
def resolve (host : Host) (path : String) : Option (List String) :=
  if path.isEmpty then none
  else host.follow (if Path.isAbsolute path then [] else host.current) (Path.parts path)

/-- The text of the file at a path. -/
def read? (host : Host) (path : String) : Option String :=
  (host.resolve path).bind host.textAt?

/-- Whether there is a file at a path. -/
def isFile (host : Host) (path : String) : Bool := (host.read? path).isSome

/-- Whether there is a directory at a path. -/
def isDirectory (host : Host) (path : String) : Bool :=
  (host.resolve path).any host.hasDirectory

/-- The value of a variable. -/
def valueOf? (host : Host) (name : String) : Option String := host.bindings.lookup name

end Host

end BatchRun
