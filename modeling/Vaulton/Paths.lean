import Vaulton.Lib.Segments
import Vaulton.Config

/-! The two ways a client path is resolved: to a point of the user
(`resolve_file_path`, `resolve_point_path` of the server) and to a mount of the user's
VFS (`fix_path`, `VfsBuilder`, `resolve_path` of opendal-vfs). -/

namespace Vaulton.Paths
open Vaulton.Lib Vaulton.Config

/-! ### Point-relative paths -/

/-- `std::path::Component` on Unix. -/
inductive Component where
  | rootDir
  | curDir
  | parentDir
  | normal (value : Text)
  deriving DecidableEq, Repr

/-- A segment that is not the first one: empty ones and `.` are skipped. -/
def innerComponent (segment : Text) : Option Component :=
  if segment = [] ∨ segment = ".".toList then none
  else if segment = "..".toList then some .parentDir
  else some (.normal segment)

/-- `Path::components`. -/
def components (path : Text) : List Component :=
  match path.splitOn '/' with
  | [] => []
  | first :: rest =>
    (if rest ≠ [] ∧ first = [] then [.rootDir]
      else if first = ".".toList then [.curDir]
      else (innerComponent first).toList) ++ rest.filterMap innerComponent

def replaceSeparators (path : Text) : Text := path.map fun c => if c = '\\' then '/' else c

/-- `PathBuf::push` of normal components, one after another. -/
def joinPath (values : List Text) : Text := join '/' values

/-- The loop over the components. -/
def normalComponents (rest : Text) : List Component → Except Status (List Text)
  | [] => .ok []
  | .normal value :: later => do
    let values ← normalComponents rest later
    return value :: values
  | .curDir :: later | .rootDir :: later => normalComponents rest later
  | .parentDir :: _ => .error ⟨.invalidArgument, s!"illegal point-relative path '{rest.str}'"⟩

def validateRelativePointPath (rest : Text) : Except Status Text := do
  let values ← normalComponents rest (components (replaceSeparators rest))
  return replaceSeparators (joinPath values)

/-! ### Paths on the disk of the server -/

/-- `std::fs::symlink_metadata`. -/
inductive Inspected where
  | symlink
  | other
  | notFound
  | failed (error : String)
  deriving DecidableEq, Repr

/-- The state of a file system: what it says of the path with these components. -/
abbrev FileSystem := List Component → Inspected

/-- `PathBuf::push` of a relative path. -/
def push (path value : Text) : Text :=
  if path ≠ [] ∧ path.getLast? ≠ some '/' then path ++ '/' :: value else path ++ value

/-- The loop of `safe_join` over the components of `rest`. -/
def safeJoinSteps (files : FileSystem) (rest : Text) : Text → List Component → Except Status Text
  | out, [] => .ok out
  | out, .normal value :: later =>
    let out := push out value
    match files (components out) with
    | .symlink => .error ⟨.permissionDenied, s!"path crosses a symlink: '{out.str}'"⟩
    | .other | .notFound => safeJoinSteps files rest out later
    | .failed error => .error ⟨.internal, s!"failed to inspect local path '{out.str}': {error}"⟩
  | out, .curDir :: later | out, .rootDir :: later => safeJoinSteps files rest out later
  | _, .parentDir :: _ => .error ⟨.invalidArgument, s!"illegal path '{rest.str}'"⟩

def safeJoin (files : FileSystem) (root rest : Text) : Except Status Text :=
  safeJoinSteps files rest root (components rest)

/-! ### Points of a user -/

def pointsRoot : Text := "points".toList

def reposRoot : Text := "repos".toList

def dataMountPath (name : Text) : Text := '/' :: pointsRoot ++ '/' :: name

def repoMountPath (name : Text) : Text := '/' :: reposRoot ++ '/' :: name

def pointMountPath (point : VfsPoint) : Text :=
  if point.isRepo then repoMountPath point.name else dataMountPath point.name

def findPoint (user : VfsUser) (name : Text) (isRepo : Bool) : Except Status VfsPoint :=
  match user.points.find? fun point => point.name = name ∧ point.isRepo = isRepo with
  | some point => .ok point
  | none =>
    let kind := if isRepo then "repo" else "data"
    .error ⟨.notFound, s!"{kind} point '{name.str}' not found"⟩

/-- `find_point_id`, over the parser of the uuid crate. -/
def findPointId (parseUuid : Text → Option Uuid) (user : VfsUser) (id : Text) : Except Status VfsPoint :=
  match parseUuid id with
  | none => .error ⟨.invalidArgument, s!"malformed point id '{id.str}'"⟩
  | some uuid =>
    match user.points.filter fun point => point.id = uuid with
    | [] => .error ⟨.notFound, s!"point '{uuid.hyphenated.str}' not found"⟩
    | [point] => .ok point
    | _ :: _ :: _ =>
      .error ⟨.failedPrecondition, s!"point ID '{uuid.hyphenated.str}' is ambiguous (duplicated in the configuration)"⟩

/-! ### Client paths -/

/-- The `path` of a `FilePath` message. -/
inductive FilePath where
  | blank
  | virtual (path : Text)
  | indexed (pointId pointPath : Text)
  deriving DecidableEq, Repr

def resolveFilePath (parseUuid : Text → Option Uuid) (user : VfsUser) : FilePath → Except Status Text
  | .blank => .error ⟨.invalidArgument, "path is blank"⟩
  | .virtual path => do
    let normalized ← validateRelativePointPath path
    return if normalized = [] then "/".toList else '/' :: normalized
  | .indexed pointId pointPath => do
    let point ← findPointId parseUuid user pointId
    let rel ← validateRelativePointPath pointPath
    return if rel = [] then pointMountPath point else pointMountPath point ++ '/' :: rel

/-- The first part of `splitn(_, '/')` and what follows the separator. -/
def splitOnce (path : Text) : Text × Option Text :=
  match path.span fun c => c ≠ '/' with
  | (part, []) => (part, none)
  | (part, _ :: rest) => (part, some rest)

def rootKind (root : Text) : Option Bool :=
  if root = pointsRoot then some false else if root = reposRoot then some true else none

def resolvePointPath (user : VfsUser) (vfsPath : Text) : Except Status (VfsPoint × Text) := do
  let (root, parts) := splitOnce (vfsPath.dropWhile fun c => c = '/')
  match rootKind root with
  | none => throw ⟨.invalidArgument, s!"path '{vfsPath.str}' must be under /points/<name>/... or /repos/<name>/..."⟩
  | some isRepo =>
    match parts.map splitOnce with
    | none | some ([], _) => throw ⟨.invalidArgument, s!"path '{vfsPath.str}' is missing a point name"⟩
    | some (name, rest) =>
      let rest ← validateRelativePointPath (rest.getD [])
      let point ← findPoint user name isRepo
      return (point, rest)

/-! ### Backup and restore paths -/

def requireDataPointId (parseUuid : Text → Option Uuid) (user : VfsUser) (pointId : Text) : Except Status VfsPoint := do
  let point ← findPointId parseUuid user pointId
  if point.isRepo then .error ⟨.invalidArgument, s!"point '{pointId.str}' is a repo, not a data point"⟩
  else .ok point

def requireDataPoint (user : VfsUser) (name : Text) : Except Status VfsPoint := findPoint user name false

def resolveDataFilePath (parseUuid : Text → Option Uuid) (user : VfsUser) : FilePath → Except Status (VfsPoint × Text)
  | .blank => .error ⟨.invalidArgument, "path is blank"⟩
  | .indexed pointId pointPath => do
    let point ← requireDataPointId parseUuid user pointId
    let pointPath ← validateRelativePointPath pointPath
    return (point, pointPath)
  | .virtual path =>
    let (root, parts) := splitOnce (path.dropWhile fun c => c = '/')
    if root ≠ pointsRoot then
      .error ⟨.invalidArgument, "backup/restore paths must be under /points/; repository paths are not allowed"⟩
    else
      match parts.map splitOnce with
      | none | some ([], _) => .error ⟨.invalidArgument, s!"path '{path.str}' is missing a data point name"⟩
      | some (name, rest) => do
        let point ← requireDataPoint user name
        let rest ← validateRelativePointPath (rest.getD [])
        return (point, rest)

/-! ### Paths of an operator -/

/-- An OpenDAL path: absolute, with a trailing slash exactly for directories. -/
def fixPath (path : Text) (isDir : Bool) : Text :=
  let absolute := if path.head? = some '/' then path else '/' :: path
  let slashed :=
    if isDir ∧ absolute.getLast? ≠ some '/' then absolute ++ ['/']
    else if ¬isDir ∧ absolute.getLast? = some '/' then absolute.dropLast
    else absolute
  replaceSeparators slashed

/-! ### Mounts -/

variable {μ : Type}

def trimSlashes (path : Text) : Text := (path.dropWhile fun c => c = '/').rdropWhile fun c => c = '/'

def normalize (path : Text) : Text :=
  if trimSlashes path = [] then "/".toList else '/' :: trimSlashes path

/-- The mount table, a map in the order of its keys. -/
abbrev Mounts (μ : Type) := List (Text × μ)

/-- `BTreeMap::insert`, `none` when the key is taken. -/
def insertMount (path : Text) (mount : μ) : Mounts μ → Option (Mounts μ)
  | [] => some [(path, mount)]
  | (key, other) :: rest =>
    if path = key then none
    else if path < key then some ((path, mount) :: (key, other) :: rest)
    else (insertMount path mount rest).map fun rest => (key, other) :: rest

inductive BuildError where
  | virtualRoot
  | duplicate (path : Text)
  deriving DecidableEq, Repr

/-- `VfsBuilder::build` of the pending mounts. -/
def buildMounts : List (Text × μ) → Mounts μ → Except BuildError (Mounts μ)
  | [], mounts => .ok mounts
  | (path, mount) :: pending, mounts =>
    if path = "/".toList then .error .virtualRoot
    else
      match insertMount path mount mounts with
      | none => .error (.duplicate path)
      | some mounts => buildMounts pending mounts

/-- The mounts `create_for_vfs` hands to the builder: `VfsBuilder::mount` normalises
the path. -/
def pendingMounts (operator : VfsPoint → μ) (points : List VfsPoint) : List (Text × μ) :=
  points.map fun point => (normalize (pointMountPath point), operator point)

/-- `str::len` counts bytes. -/
def byteLen (text : Text) : Nat := (text.map Char.utf8Size).sum

/-- `Iterator::max_by_key`: the last of the greatest. -/
def maxByKey {α : Type} (key : α → Nat) : List α → Option α
  | [] => none
  | first :: rest => some (rest.foldl (fun best item => if key best ≤ key item then item else best) first)

/-- The mount that owns a path, and the path relative to it. -/
def resolvePath (mounts : Mounts μ) (path : Text) : Option (Text × μ × Text) :=
  let normalized := normalize path
  let owners := mounts.filter fun entry => normalized = entry.1 ∨ (entry.1 ++ ['/']) <+: normalized
  (maxByKey (fun entry => byteLen entry.1) owners).map fun entry =>
    let rel := (normalized.drop entry.1.length).dropWhile fun c => c = '/'
    let slashed := if path.getLast? = some '/' ∧ rel ≠ [] ∧ rel.getLast? ≠ some '/' then rel ++ ['/'] else rel
    (entry.1, entry.2, slashed)

end Vaulton.Paths
