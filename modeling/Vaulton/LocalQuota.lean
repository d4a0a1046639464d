import Vaulton.Lib.Weight
import Vaulton.Transfer

/-! The quota of a local point (`vfs_open_write`, `vfs_write_at`, `vfs_set_length`,
`vfs_close_write` and the job of a Vfs_Transfer of `ipc/src/server.rs`). A handle carries
what the other files weighed when it was opened, a resize by path and a transfer weigh the
point once. Of a file only its length matters here; handles hold an inode, which keeps its
length when the file is renamed and no longer counts once it is deleted. -/

namespace Vaulton.LocalQuota
open Vaulton.Lib Vaulton.Config Vaulton.Transfer

/-! ### Files -/

structure LocalFile where
  path : Path
  len : Nat
  deriving DecidableEq

variable {ν : Type} [DecidableEq ν]

/-- The regular files below the root of the point. -/
abbrev Files (ν : Type) [DecidableEq ν] := Table ν LocalFile

abbrev size (files : Files ν) : Nat := total LocalFile.len files

def dirSize (files : Files ν) : Except String Nat :=
  if size files > u64Max then .error "directory size exceeds u64::MAX" else .ok (size files)

def findFile (files : Files ν) (path : Path) : Option (ν × LocalFile) :=
  (files.entries.find? fun entry => entry.2.path = path).map fun entry => (entry.1, entry.2)

/-- The length of the file at a path, 0 when there is none. -/
def lenAt (files : Files ν) (path : Path) : Nat := ((findFile files path).map fun found => found.2.len).getD 0

/-- `metadata(path).len()` of whatever is there: a directory has a length of its own, which
the file system chooses. -/
def metadataLen (files : Files ν) (path : Path) (dirLen : Nat) : Nat :=
  ((findFile files path).map fun found => found.2.len).getD dirLen

/-- `set_len` through a descriptor. -/
def resize (files : Files ν) (node : ν) (len : Nat) : Files ν :=
  match files.lookup node with
  | some file => files.insert node { file with len }
  | none => files

/-- A write of `count` bytes through a descriptor. -/
def extend (files : Files ν) (node : ν) (offset count : Nat) : Files ν :=
  match files.lookup node with
  | some file => if count = 0 then files else files.insert node { file with len := max file.len (offset + count) }
  | none => files

/-- Opens a file for writing and creates it, under a fresh inode, when it is missing. -/
def openCreate (files : Files ν) (path : Path) (fresh : ν) : Option (ν × Files ν) :=
  match findFile files path with
  | some (node, _) => some (node, files)
  | none => if fresh ∈ files then none else some (fresh, files.insert fresh ⟨path, 0⟩)

/-- Opens a file for writing and empties it. -/
def openTruncate (files : Files ν) (path : Path) (fresh : ν) : Option (ν × Files ν) :=
  (openCreate files path fresh).map fun opened => (opened.1, resize opened.2 opened.1 0)

/-- A recursive delete may leave some of the files behind. -/
def deleteUnder (files : Files ν) (root : Path) (spared : Path → Bool) : Files ν :=
  Table.restrict (fun file => ¬root <+: file.path ∨ spared file.path) files

/-- A file that is in the way of a rename is replaced. -/
def renameUnder (files : Files ν) (source target : Path) : Files ν :=
  Table.mapValues (fun file => if source <+: file.path then { file with path := target ++ file.path.drop source.length } else file)
    (deleteUnder files target fun _ => false)

/-! ### Checks -/

/-- The usage without the file itself, when the point has a quota. -/
def quotaBaseBytes (point : VfsPoint) (used : Except String Nat) (existing initial : Nat) : Except Status Nat :=
  match point.maxBytes with
  | none => .ok 0
  | some max =>
    match used with
    | .error error => .error ⟨.internal, s!"failed to measure quota usage: {error}"⟩
    | .ok used =>
      let base := used - existing
      if u64Max < base + initial then .error ⟨.resourceExhausted, "quota size overflow"⟩
      else if max < base + initial then
        .error ⟨.resourceExhausted, s!"point '{point.name.str}' is already over its {max}-byte quota"⟩
      else .ok base

def checkWrite (maxBytes : Option Nat) (base newLen : Nat) : Except Status Unit :=
  match maxBytes with
  | none => .ok ()
  | some max =>
    let projected := base + newLen
    if u64Max < projected then .error ⟨.resourceExhausted, "quota size overflow"⟩
    else if max < projected then
      .error ⟨.resourceExhausted, s!"write would exceed point quota ({projected} > {max} bytes)"⟩
    else .ok ()

def checkSetLength (maxBytes : Option Nat) (base length : Nat) : Except Status Unit :=
  match maxBytes with
  | none => .ok ()
  | some max =>
    if max < min (base + length) u64Max then .error ⟨.resourceExhausted, "set_length would exceed point quota"⟩
    else .ok ()

/-! ### Requests -/

/-- One file of a transfer; the source counts only when it is on the point too. -/
structure CopiedFile where
  source : Path
  destination : Path
  len : Nat
  deriving DecidableEq

structure LocalTransfer where
  source : Path
  destination : Path
  files : List CopiedFile
  copy : Bool
  /-- Source and destination are on this point. -/
  native : Bool

def LocalTransfer.totalBytes (job : LocalTransfer) : Nat := job.files.foldl (fun sum file => min (sum + file.len) u64Max) 0

inductive Request (κ : Type) where
  | openWrite (path : Path) (overwrite append : Bool)
  | writeAt (handle : κ) (offset count : Nat)
  | setLength (handle : κ) (length : Nat)
  | setLengthAt (path : Path) (length : Nat)
  | closeWrite (handle : κ)
  | transfer (job : LocalTransfer)

structure Handle (ν : Type) where
  node : ν
  quotaBaseBytes : Nat
  append : Bool
  deriving DecidableEq

inductive Pc (ν : Type) where
  | start
  | measure (existing : Nat)
  | openFile (base initial : Nat)
  | check (handle : Handle ν)
  | write (handle : Handle ν) (offset newLen : Nat)
  | setLen (handle : Handle ν)
  /-- `room` is what the check has counted: the size of the point and the growth. -/
  | setLenAt (room : Nat)
  | rename (room : Nat)
  | copyFiles (room copied : Nat) (rest : List CopiedFile)
  | stream (room copied written : Nat) (node : ν) (file : CopiedFile) (rest : List CopiedFile)
  | cleanup
  | deleteSource
  | returned (answer : Except Status Unit)

structure QuotaState (κ ν : Type) [DecidableEq ν] where
  files : Files ν
  writeHandles : κ → Option (Handle ν)
  /-- `WriteState::len` of a handle. -/
  lens : κ → Nat
  pcs : κ → Pc ν

/-- What the world outside answers to one step. -/
structure Outcome (ν : Type) where
  /-- An I/O error, a handle that was closed meanwhile, a cancelled job. -/
  fails : Bool := false
  /-- The rename is refused as unsupported. -/
  unsupported : Bool := false
  /-- The inode of a file that is created. -/
  fresh : ν
  /-- The most bytes a read returns. -/
  size : Nat := spoolChunk
  /-- How far an open, a write or a native copy got that fails, `none` if it did not begin. -/
  written : Option Nat := none
  /-- The length of a directory at the destination, 0 when nothing is there. -/
  dirLen : Nat := 0
  /-- The files that a recursive delete leaves behind. -/
  spared : Path → Bool := fun _ => false

def quotaStart {κ : Type} (files : Files ν) : QuotaState κ ν where
  files := files
  writeHandles := fun _ => none
  lens := fun _ => 0
  pcs := fun _ => .start

variable {κ : Type} [DecidableEq κ]

def QuotaState.move (state : QuotaState κ ν) (id : κ) (pc : Pc ν) : QuotaState κ ν :=
  { state with pcs := Function.update state.pcs id pc }

def QuotaState.fail (state : QuotaState κ ν) (id : κ) (error : Status) : QuotaState κ ν := state.move id (.returned (.error error))

/-- Whatever `io_status` makes of an error of the operating system. -/
def ioError : Status := ⟨.internal, "I/O error"⟩

def unknownHandle : Status := ⟨.notFound, "unknown or already-closed write handle"⟩

def openStep (point : VfsPoint) (state : QuotaState κ ν) (id : κ) (answer : Outcome ν) (path : Path) (overwrite append : Bool) :
    Pc ν → Option (QuotaState κ ν)
  | .start => some (state.move id (.measure (lenAt state.files path)))
  | .measure existing =>
    let initial := if overwrite then 0 else existing
    match quotaBaseBytes point (dirSize state.files) existing initial with
    | .error error => some (state.fail id error)
    | .ok base => some (state.move id (.openFile base initial))
  | .openFile base initial =>
    if answer.fails then
      -- The file may have been made before something failed.
      match answer.written with
      | none => some (state.fail id ioError)
      | some _ => (openCreate state.files path answer.fresh).map fun opened => { state.fail id ioError with files := opened.2 }
    else (openCreate state.files path answer.fresh).map fun (node, files) =>
      { state.move id (.returned (.ok ())) with
        files := if overwrite then resize files node 0 else files
        writeHandles := Function.update state.writeHandles id (some ⟨node, base, append⟩)
        lens := Function.update state.lens id initial }
  | _ => none

def writeStep (point : VfsPoint) (state : QuotaState κ ν) (id : κ) (answer : Outcome ν) (handle : κ) (offset count : Nat) :
    Pc ν → Option (QuotaState κ ν)
  | .start =>
    match state.writeHandles handle with
    | none => some (state.fail id unknownHandle)
    | some found => some (state.move id (.check found))
  | .check found =>
    let writeOffset := if found.append then ((state.files.lookup found.node).map LocalFile.len).getD 0 else offset
    if answer.fails then some (state.fail id ioError)
    else if u64Max < writeOffset + count then some (state.fail id ⟨.invalidArgument, "offset overflow"⟩)
    else
      let newLen := max (state.lens handle) (writeOffset + count)
      match checkWrite point.maxBytes found.quotaBaseBytes newLen with
      | .error error => some (state.fail id error)
      | .ok () => some (state.move id (.write found writeOffset newLen))
  | .write found writeOffset newLen =>
    if answer.fails then some { state.fail id ioError with
      files := extend state.files found.node writeOffset (min (answer.written.getD 0) count) }
    else some { state.move id (.returned (.ok ())) with
      files := extend state.files found.node writeOffset count
      lens := Function.update state.lens handle newLen }
  | _ => none

def setLengthStep (point : VfsPoint) (state : QuotaState κ ν) (id : κ) (answer : Outcome ν) (handle : κ) (length : Nat) :
    Pc ν → Option (QuotaState κ ν)
  | .start =>
    match state.writeHandles handle with
    | none => some (state.fail id unknownHandle)
    | some found => some (state.move id (.check found))
  | .check found =>
    if answer.fails then some (state.fail id ioError)
    else
      match checkSetLength point.maxBytes found.quotaBaseBytes length with
      | .error error => some (state.fail id error)
      | .ok () => some (state.move id (.setLen found))
  | .setLen found =>
    if answer.fails then some (state.fail id ioError)
    else some { state.move id (.returned (.ok ())) with
      files := resize state.files found.node length
      lens := Function.update state.lens handle length }
  | _ => none

def setLengthAtStep (point : VfsPoint) (state : QuotaState κ ν) (id : κ) (answer : Outcome ν) (path : Path) (length : Nat) :
    Pc ν → Option (QuotaState κ ν)
  | .start =>
    match answer.fails, findFile state.files path with
    | false, some (_, file) => some (state.move id (.measure file.len))
    | _, _ => some (state.fail id ioError)
  | .measure old =>
    -- Only growing the file consumes quota.
    match checkLocalQuota point.maxBytes (length - old) (dirSize state.files) with
    | .error error => some (state.fail id error)
    | .ok () => some (state.move id (.setLenAt (size state.files + (length - old))))
  | .setLenAt _ =>
    match answer.fails, findFile state.files path with
    | false, some (node, _) =>
      some { state.move id (.returned (.ok ())) with files := resize state.files node length }
    | _, _ => some (state.fail id ioError)
  | _ => none

/-- One file of a transfer, or the end of the copy. -/
def copyStep (job : LocalTransfer) (state : QuotaState κ ν) (id : κ) (answer : Outcome ν) (room copied : Nat) :
    List CopiedFile → Option (QuotaState κ ν)
  | [] => if job.native ∧ ¬job.copy then some (state.move id .deleteSource) else some (state.move id (.returned (.ok ())))
  | file :: rest =>
    if job.native then
      match answer.fails, answer.written, findFile state.files file.source with
      | true, none, _ | _, _, none => some (state.move id .cleanup)
      | true, some written, some (_, source) => (openTruncate state.files file.destination answer.fresh).map fun (node, files) =>
        { state.move id .cleanup with files := resize files node (min written source.len) }
      | false, _, some (_, source) => (openTruncate state.files file.destination answer.fresh).map fun (node, files) =>
        { state.move id (.copyFiles room (copied + file.len) rest) with files := resize files node source.len }
    else if answer.fails then some (state.move id .cleanup)
    else (openTruncate state.files file.destination answer.fresh).map fun (node, files) =>
      { state.move id (.stream room copied 0 node file rest) with files }

/-- The bytes of a file that a read returns. -/
def chunkLen (answer : Outcome ν) (written len : Nat) : Nat := min (min (written + spoolChunk) len - written) answer.size

def transferStep (point : VfsPoint) (job : LocalTransfer) (state : QuotaState κ ν) (id : κ) (answer : Outcome ν) :
    Pc ν → Option (QuotaState κ ν)
  | .start =>
    -- A move within the point does not change its size, so it is not checked.
    if job.native ∧ ¬job.copy then some (state.move id (.rename (size state.files)))
    else some (state.move id (.measure (metadataLen state.files job.destination answer.dirLen)))
  | .measure existing =>
    match checkLocalQuota point.maxBytes (job.totalBytes - existing) (dirSize state.files) with
    | .error error => some (state.fail id error)
    | .ok () => some (state.move id (.copyFiles (size state.files + (job.totalBytes - existing)) 0 job.files))
  | .rename room =>
    if answer.unsupported then some (state.move id (.copyFiles room 0 job.files))
    else if answer.fails then some (state.fail id ioError)
    else some { state.move id (.returned (.ok ())) with files := renameUnder state.files job.source job.destination }
  | .copyFiles room copied rest => copyStep job state id answer room copied rest
  | .stream room copied written node file rest =>
    if file.len ≤ written then some (state.move id (.copyFiles room (copied + file.len) rest))
    else
      let count := chunkLen answer written file.len
      if answer.fails ∨ count = 0 then some { state.move id .cleanup with
        files := extend state.files node written (min (answer.written.getD 0) count) }
      else some { state.move id (.stream room copied (written + count) node file rest) with
        files := extend state.files node written count }
  | .cleanup => some { state.fail id ioError with files := deleteUnder state.files job.destination answer.spared }
  | .deleteSource => some { state.move id (.returned (if answer.fails then .error ioError else .ok ())) with
      files := deleteUnder state.files job.source answer.spared }
  | _ => none

def quotaStep (point : VfsPoint) (requests : κ → Request κ) (state : QuotaState κ ν) :
    κ × Outcome ν → Option (QuotaState κ ν)
  | (id, answer) =>
    match requests id with
    | .openWrite path overwrite append => openStep point state id answer path overwrite append (state.pcs id)
    | .writeAt handle offset count => writeStep point state id answer handle offset count (state.pcs id)
    | .setLength handle length => setLengthStep point state id answer handle length (state.pcs id)
    | .setLengthAt path length => setLengthAtStep point state id answer path length (state.pcs id)
    | .closeWrite handle =>
      match state.pcs id with
      | .start => some { state.move id (.returned (.ok ())) with writeHandles := Function.update state.writeHandles handle none }
      | _ => none
    | .transfer job => transferStep point job state id answer (state.pcs id)

end Vaulton.LocalQuota
