import Vaulton.Lib.Tree
import Vaulton.Paths

/-! Vfs_Transfer: the request that plans a copy or a move and the job that runs it. The
storage of every point is a tree of its own; the job is cut after every call to a
backend, and what a backend answers or leaves behind stands in the answer of the step. -/

namespace Vaulton.Transfer
open Vaulton.Lib Vaulton.Config Vaulton.Paths

/-! ### Storage -/

abbrev Bytes := List UInt8

/-- A name in a directory. -/
abbrev Name := { text : Text // text ≠ [] ∧ '/' ∉ text }

abbrev Path := List Name

abbrev FileTree := Tree Name Bytes

/-- The storage of every point, by the id of the point. -/
abbrev Storage := Uuid → FileTree

abbrev Place := Uuid × Path

def nodeAt (storage : Storage) (place : Place) : Option (Node Bytes) := (storage place.1).node place.2

/-- What one of the tree operations does to the storage of a point. -/
def Storage.modify (storage : Storage) (id : Uuid) (tree : Option FileTree) : Option Storage :=
  tree.map (Function.update storage id)

/-! ### Operators -/

/-- The VFS of a user: its mount table, each mount with the id of its point. -/
abbrev Operator := Mounts Uuid

def toName (text : Text) : Option Name := if valid : text ≠ [] ∧ '/' ∉ text then some ⟨text, valid⟩ else none

/-- The names of a path; OpenDAL collapses empty segments. -/
def segments (path : Text) : Path := (path.splitOn '/').filterMap toName

/-- The place a path of the VFS stands for. -/
def locate (operator : Operator) (path : Text) : Option Place :=
  (resolvePath operator path).map fun (_, id, rel) => (id, segments rel)

/-- `Operator::info`: every VFS is the service `mount` with the root `/`. -/
def Operator.info (_ : Operator) : String × String × String := ("mount", "/", "mount")

inductive DalErrorKind where
  | notFound
  | permissionDenied
  | rateLimited
  | configInvalid
  | unsupported
  | alreadyExists
  | other
  deriving DecidableEq, Repr

structure DalError where
  kind : DalErrorKind
  message : String
  deriving DecidableEq, Repr

def mapDal (error : DalError) : Status :=
  match error.kind with
  | .notFound => ⟨.notFound, error.message⟩
  | .permissionDenied => ⟨.permissionDenied, error.message⟩
  | .rateLimited => ⟨.resourceExhausted, error.message⟩
  | .configInvalid => ⟨.invalidArgument, error.message⟩
  | .unsupported => ⟨.unimplemented, error.message⟩
  | .alreadyExists => ⟨.alreadyExists, error.message⟩
  | .other => ⟨.internal, error.message⟩

structure Metadata where
  isDir : Bool
  contentLength : Nat
  deriving DecidableEq, Repr

structure Entry where
  path : Text
  metadata : Metadata
  deriving DecidableEq, Repr

def metadataOf : Node Bytes → Metadata
  | .dir => ⟨true, 0⟩
  | .file content => ⟨false, content.length⟩

/-- A failed call that says nothing about what is stored. -/
abbrev Failure := { error : DalError // error.kind ≠ .notFound }

/-- How a backend answers the stats of one `stat_any`. -/
structure StatAnswer where
  failure : Option Failure := none
  dirFailure : Option Failure := none
  /-- A directory is found under its name without the slash. -/
  plainDir : Bool := true
  /-- A file is found under its name with a slash. -/
  slashFile : Bool := false

def virtualDir (operator : Operator) (path : Text) : Bool :=
  let front := if normalize path = "/".toList then normalize path else normalize path ++ ['/']
  front = "/".toList || operator.any fun mount => front <+: mount.1 ∧ front ≠ mount.1

/-- `MountAccess::metadata`. -/
def metadata (storage : Storage) (operator : Operator) (answer : StatAnswer) (path : Text) : Option Metadata :=
  match resolvePath operator path with
  | some (mountPath, id, rel) =>
    if normalize path = mountPath ∧ rel = [] then some ⟨true, 0⟩
    else
      match nodeAt storage (id, segments rel) with
      | none => none
      | some .dir => if answer.plainDir ∨ path.getLast? = some '/' then some (metadataOf .dir) else none
      | some (.file content) =>
        if answer.slashFile ∨ path.getLast? ≠ some '/' then some (metadataOf (.file content)) else none
  | none => if virtualDir operator path then some ⟨true, 0⟩ else none

def stat (storage : Storage) (operator : Operator) (answer : StatAnswer) (failure : Option Failure) (path : Text) :
    Except DalError Metadata :=
  match failure with
  | some failure => .error failure.1
  | none =>
    match metadata storage operator answer path with
    | some found => .ok found
    | none => .error ⟨.notFound, "path not found"⟩

def statAny (storage : Storage) (operator : Operator) (answer : StatAnswer) (path : Text) :
    Except Status (Metadata × Text) :=
  match stat storage operator answer answer.failure path with
  | .ok found => .ok (found, if found.isDir then fixPath path true else path)
  | .error error =>
    if error.kind = .notFound then
      match stat storage operator answer answer.dirFailure (fixPath path true) with
      | .ok found => .ok (found, fixPath path true)
      | .error error => .error (mapDal error)
    else .error (mapDal error)

/-! ### The request -/

structure Server where
  users : List VfsUser
  /-- Why a point could not be loaded; such a point is not mounted. -/
  failed : VfsPoint → Option String
  parseUuid : Text → Option Uuid

structure FileArg where
  user : Text
  path : FilePath

structure TransferArgs where
  oldPath : Option FileArg
  newPath : Option FileArg
  copy : Bool

def requirePath : Option FileArg → Except Status FileArg
  | some file => .ok file
  | none => .error ⟨.invalidArgument, "path is blank"⟩

def Server.getUser (server : Server) (username : Text) : Except Status VfsUser :=
  match server.users.find? fun user => user.username = username with
  | some user => .ok user
  | none => .error ⟨.notFound, "vfs user not found"⟩

def Server.loaded (server : Server) (point : VfsPoint) : Bool := (server.failed point).isNone

def Server.getVfs (server : Server) (user : VfsUser) : Except Status Operator :=
  match buildMounts (pendingMounts VfsPoint.id (user.points.filter server.loaded)) [] with
  | .ok mounts => .ok mounts
  | .error .virtualRoot => .error ⟨.invalidArgument, "cannot mount at the virtual root '/'"⟩
  | .error (.duplicate _) => .error ⟨.invalidArgument, "duplicate mount path"⟩

def Server.checkPointLoaded (server : Server) (user : VfsUser) (vfsPath : Text) : Except Status Unit :=
  let (root, parts) := splitOnce (vfsPath.dropWhile fun c => c = '/')
  let name := (parts.map fun rest => (splitOnce rest).1).getD []
  match rootKind root with
  | none => .ok ()
  | some isRepo =>
    match user.points.find? fun point => point.name = name ∧ point.isRepo = isRepo with
    | none => .ok ()
    | some point =>
      match server.failed point with
      | none => .ok ()
      | some error => .error ⟨.failedPrecondition, s!"point '{point.name.str}' failed to load: {error}"⟩

def Server.getOperator (server : Server) (file : FileArg) (isDir : Bool) : Except Status (Operator × Text) := do
  let user ← server.getUser file.user
  let vfsPath ← resolveFilePath server.parseUuid user file.path
  let operator ← server.getVfs user
  server.checkPointLoaded user vfsPath
  return (operator, fixPath vfsPath isDir)

def isLocalScheme (scheme : Text) : Bool :=
  scheme.map Char.toLower = "local".toList || scheme.map Char.toLower = "fs".toList

def requireUserWritable (point : VfsPoint) : Except Status Unit :=
  if point.isRepo then .error ⟨.permissionDenied, s!"repository '{point.name.str}' is read-only"⟩
  else if ¬isLocalScheme point.scheme then
    .error ⟨.permissionDenied, s!"point '{point.name.str}' uses remote scheme '{point.scheme.str}'; " ++
      "remote points cannot be written to directly (backup/restore only)"⟩
  else if point.readOnly then .error ⟨.permissionDenied, s!"point '{point.name.str}' is read-only"⟩
  else .ok ()

def localSourcePath (point : VfsPoint) : Except Status Text :=
  match (point.config.lookup "root".toList).or (point.config.lookup "path".toList) with
  | some root => .ok root
  | none =>
    .error ⟨.invalidArgument, s!"point '{point.name.str}' uses scheme '{point.scheme.str}' " ++
      "but has no 'root' or 'path' option"⟩

/-- The destination's point root, its path below the root and the point's quota. -/
structure LocalQuota where
  root : Text
  rest : Text
  max : Option Nat
  deriving DecidableEq

structure TransferPlan where
  srcOp : Operator
  dstOp : Operator
  /-- Directories carry a trailing slash. -/
  srcPath : Text
  dstPath : Text
  srcIsDir : Bool
  entries : List Entry
  totalBytes : Nat
  copy : Bool
  native : Bool
  localQuota : Option LocalQuota
  deriving DecidableEq

/-- What the backends and the local file system answer to one request. -/
structure RequestAnswers where
  source : StatAnswer
  destination : StatAnswer
  listing : Except DalError (List Entry)
  /-- `safe_join` refuses a path that crosses a symlink. -/
  symlink : Option Status

def u64Max : Nat := 2 ^ 64 - 1

def entryBytes (entries : List Entry) : Nat :=
  (entries.filter fun entry => !entry.metadata.isDir).foldl
    (fun total entry => min (total + entry.metadata.contentLength) u64Max) 0

/-- A move deletes the source, so it needs a user-writable source. -/
def requireMovable (copy : Bool) (point : VfsPoint) : Except Status Unit :=
  if copy then .ok ()
  else if point.isRepo then .error ⟨.permissionDenied, "cannot move out of a repository; use copy instead"⟩
  else
    match requireUserWritable point with
    | .ok () => .ok ()
    | .error error => .error ⟨.permissionDenied, s!"cannot move out of this point ({error.message}); use copy instead"⟩

/-- The destination must not exist. -/
def requireAbsent (srcIsDir : Bool) : Except Status (Metadata × Text) → Except Status Unit
  | .ok (found, _) =>
    if srcIsDir ∧ ¬found.isDir then .error ⟨.failedPrecondition, "destination exists and is not a directory"⟩
    else if ¬srcIsDir ∧ found.isDir then .error ⟨.failedPrecondition, "destination exists and is a directory"⟩
    else .error ⟨.alreadyExists, "destination already exists"⟩
  | .error error => if error.code = .notFound then .ok () else .error error

def requireDifferent (old new : FileArg) : Except Status Unit :=
  match old.path, new.path with
  | .virtual oldPath, .virtual newPath =>
    if old.user = new.user ∧ oldPath = newPath then
      .error ⟨.invalidArgument, "source and destination are identical"⟩
    else .ok ()
  | _, _ => .ok ()

/-- Neither the source itself nor something below it. -/
def requireOutside (sameMount srcIsDir : Bool) (srcPath dstPath : Text) : Except Status Unit :=
  if sameMount ∧ srcPath = dstPath then .error ⟨.invalidArgument, "source and destination are identical"⟩
  else if srcIsDir ∧ sameMount ∧ srcPath <+: dstPath then
    .error ⟨.invalidArgument, "cannot transfer a directory into itself"⟩
  else .ok ()

/-- The source tree, enumerated if it is a directory. -/
def listEntries (srcIsDir : Bool) (listing : Except DalError (List Entry)) : Except Status (List Entry) :=
  if srcIsDir then listing.mapError mapDal else .ok []

def safeJoin : Option Status → Except Status Unit
  | some error => .error error
  | none => .ok ()

def vfsTransfer (server : Server) (storage : Storage) (answers : RequestAnswers) (args : TransferArgs) :
    Except Status TransferPlan := do
  let oldFile ← requirePath args.oldPath
  let newFile ← requirePath args.newPath
  requireDifferent oldFile newFile
  let srcUser ← server.getUser oldFile.user
  let dstUser ← server.getUser newFile.user
  let srcVfsPath ← resolveFilePath server.parseUuid srcUser oldFile.path
  let dstVfsPath ← resolveFilePath server.parseUuid dstUser newFile.path
  let (srcPoint, _) ← resolvePointPath srcUser srcVfsPath
  let (dstPoint, dstRest) ← resolvePointPath dstUser dstVfsPath
  requireUserWritable dstPoint
  requireMovable args.copy srcPoint
  let (srcOp, srcFile) ← server.getOperator oldFile false
  let (dstOp, dstFile) ← server.getOperator newFile false
  let (srcMeta, srcPath) ← statAny storage srcOp answers.source srcFile
  let dstPath := if srcMeta.isDir then fixPath dstFile true else dstFile
  requireAbsent srcMeta.isDir (statAny storage dstOp answers.destination dstPath)
  let sameBackend := decide (srcOp.info = dstOp.info)
  let sameMount := decide (srcPoint.id = dstPoint.id)
  requireOutside sameMount srcMeta.isDir srcPath dstPath
  let entries ← listEntries srcMeta.isDir answers.listing
  let totalBytes := if srcMeta.isDir then entryBytes entries else srcMeta.contentLength
  let root ← localSourcePath dstPoint
  safeJoin answers.symlink
  return {
    srcOp, dstOp, srcPath, dstPath
    srcIsDir := srcMeta.isDir
    entries, totalBytes
    copy := args.copy
    native := sameBackend && sameMount
    localQuota := if args.copy || !sameMount then some ⟨root, dstRest, dstPoint.maxBytes⟩ else none }

/-! ### The job -/

def spoolChunk : Nat := 8 * 1024 * 1024

def withSlash (path : Text) : Text := if path.getLast? = some '/' then path else path ++ ['/']

/-- What the world outside answers to one step of the job. -/
structure Answer where
  /-- What `token.is_cancelled()` returns. -/
  cancelled : Bool := false
  /-- The backend call fails with this error. -/
  error : Option DalError := none
  /-- The most bytes that a read returns. -/
  size : Nat := spoolChunk
  /-- How many directories a failed call made on its way. -/
  made : Nat := 0
  /-- What a failed or abandoned write leaves in the file. -/
  left : Option Bytes := none
  /-- What a recursive delete removes, also one that fails in the end. -/
  gone : List Path := []
  /-- What the file system says is the length of a directory, and the size of the point, for
  the quota check; others may change the rest of the point at any time. -/
  dirLen : Nat := 0
  used : Except String Nat := .ok 0

/-- A backend call that takes effect unless the answer is an error. -/
def Answer.call {α : Type} (answer : Answer) (effect : Option α) : Except DalError α :=
  match answer.error, effect with
  | some error, _ => .error error
  | none, some result => .ok result
  | none, none => .error ⟨.other, "the backend refused the call"⟩

def createDir (operator : Operator) (storage : Storage) (path : Text) : Option Storage :=
  (locate operator path).bind fun place => storage.modify place.1 ((storage place.1).makeDirs place.2)

def writeFile (operator : Operator) (storage : Storage) (path : Text) (content : Bytes) : Option Storage :=
  (locate operator path).bind fun place =>
    storage.modify place.1 ((storage place.1).putFile place.2 content)

def readFile (operator : Operator) (storage : Storage) (path : Text) : Option Bytes :=
  match (locate operator path).bind (nodeAt storage) with
  | some (.file content) => some content
  | _ => none

def copyFile (operator : Operator) (storage : Storage) (source destination : Text) : Option Storage :=
  (readFile operator storage source).bind (writeFile operator storage destination)

/-- Both paths are below one mount: nothing else is renamed natively. -/
def rename (operator : Operator) (storage : Storage) (source destination : Text) : Option Storage :=
  match locate operator source, locate operator destination with
  | some source, some destination =>
    if source.1 = destination.1 then storage.modify source.1 ((storage source.1).rename source.2 destination.2) else none
  | _, _ => none

/-- `Operator::rename` renames files only; the backend is asked after that. -/
def callRename (plan : TransferPlan) (storage : Storage) (answer : Answer) : Except DalError Storage :=
  if plan.srcPath.getLast? = some '/' then .error ⟨.other, "from path is a directory"⟩
  else answer.call (rename plan.srcOp storage plan.srcPath plan.dstPath)

/-- `delete_with(path).recursive(true)` deletes what a listing shows. That is nothing for a
file or for an empty directory: they stay, and the call does not fail. -/
def deleteRecursive (operator : Operator) (storage : Storage) (path : Text) (answer : Answer) : Storage :=
  match locate operator path with
  | none => storage
  | some place =>
    let listed (rel : Path) : Bool := rel ≠ [] ∧ nodeAt storage (place.1, place.2 ++ rel) ≠ none
    if isDir (nodeAt storage place) ∧ answer.gone.any listed then
      Function.update storage place.1 (answer.gone.foldl (fun tree rel => tree.remove (place.2 ++ rel)) (storage place.1))
    else storage

/-- The directories that a failed `create_dir` may have made. -/
def failedCreateDir (operator : Operator) (storage : Storage) (path : Text) (answer : Answer) : Storage :=
  ((locate operator path).bind fun place =>
    storage.modify place.1 ((storage place.1).makeDirs (place.2.take answer.made))).getD storage

/-- What a failed write, a failed copy or an abandoned writer may have left. -/
def failedWrite (operator : Operator) (storage : Storage) (path : Text) (answer : Answer) : Storage :=
  match answer.left with
  | some content => (writeFile operator storage path content).getD storage
  | none =>
    ((locate operator path).bind fun place =>
      storage.modify place.1 ((storage place.1).makeDirs (place.2.dropLast.take answer.made))).getD storage

def checkLocalQuota (max : Option Nat) (growth : Nat) (used : Except String Nat) : Except Status Unit :=
  match max with
  | none => .ok ()
  | some max =>
    if growth = 0 then .ok ()
    else
      match used with
      | .error error => .error ⟨.internal, s!"failed to measure quota usage: {error}"⟩
      | .ok used =>
        if u64Max < used + growth then .error ⟨.resourceExhausted, "quota size overflow"⟩
        else if max < used + growth then
          .error ⟨.resourceExhausted, s!"write would exceed point quota ({used + growth} > {max} bytes)"⟩
        else .ok ()

/-- `tokio::fs::metadata` of the destination; without one its length is 0. -/
def existingLen (plan : TransferPlan) (storage : Storage) (answer : Answer) : Nat :=
  match (locate plan.dstOp plan.dstPath).bind (nodeAt storage) with
  | none => 0
  | some .dir => answer.dirLen
  | some (.file content) => content.length

/-- The re-check at the start of the job. -/
def recheckQuota (plan : TransferPlan) (storage : Storage) (answer : Answer) : Except Status Unit :=
  match plan.localQuota with
  | none => .ok ()
  | some quota => checkLocalQuota quota.max (plan.totalBytes - existingLen plan storage answer) answer.used

/-- One call of `copy_one`. -/
structure FileCopy where
  source : Text
  destination : Text
  len : Nat
  deriving DecidableEq

inductive TransferPc where
  | recheck
  | rename
  | copyTree
  /-- The loop of `copy_tree`; a single file is copied with no entries left. -/
  | entries (rest : List Entry)
  | copyOne (file : FileCopy) (rest : List Entry)
  /-- The loop of `stream_copy`, with what has been written. -/
  | read (file : FileCopy) (written : Bytes) (rest : List Entry)
  | write (file : FileCopy) (written buffer : Bytes) (rest : List Entry)
  /-- The copy failed and the destination is deleted. -/
  | cleanup (error : String)
  | deleteSource
  | returned (error : Option String)
  deriving DecidableEq

structure TransferState where
  storage : Storage
  /-- The bytes reported as done. -/
  done : Nat
  pc : TransferPc

def transferStart (storage : Storage) : TransferState := ⟨storage, 0, .recheck⟩

/-- The last reports of a successful job. -/
def TransferPlan.finish (plan : TransferPlan) (state : TransferState) : TransferState :=
  { state with done := if plan.totalBytes = 0 then state.done + 1 else state.done, pc := .returned none }

/-- One turn of the loop over the entries, up to its backend call. -/
def entryStep (plan : TransferPlan) (state : TransferState) (entry : Entry) (rest : List Entry) (answer : Answer) :
    TransferState :=
  if answer.cancelled then { state with pc := .cleanup "transfer cancelled" }
  else if ¬withSlash plan.srcPath <+: entry.path then
    { state with pc := .cleanup s!"source listing returned unexpected path: {entry.path.str}" }
  else
    let relative := entry.path.drop (withSlash plan.srcPath).length
    -- Some backends include the listed root itself.
    if relative = [] then { state with pc := .entries rest }
    else
      let destination := withSlash plan.dstPath ++ relative
      if entry.metadata.isDir then
        match answer.call (createDir plan.dstOp state.storage destination) with
        | .ok storage => { state with storage, pc := .entries rest }
        | .error error => { state with
            storage := failedCreateDir plan.dstOp state.storage destination answer
            pc := .cleanup s!"failed to create destination directory '{destination.str}': {error.message}" }
      else { state with pc := .copyOne ⟨entry.path, destination, entry.metadata.contentLength⟩ rest }

/-- A failure while a file is copied: the writer is closed, whatever that does. -/
def TransferState.abandon (state : TransferState) (plan : TransferPlan) (file : FileCopy) (answer : Answer)
    (error : String) : TransferState :=
  { state with
    storage := failedWrite plan.dstOp state.storage file.destination answer
    pc := .cleanup error }

/-- One turn of the loop of `stream_copy` up to its read, or the final close. -/
def readStep (plan : TransferPlan) (state : TransferState) (file : FileCopy) (written : Bytes) (rest : List Entry)
    (answer : Answer) : TransferState :=
  let offset := written.length
  if file.len ≤ offset then
    match answer.call (writeFile plan.dstOp state.storage file.destination written) with
    | .ok storage => { state with storage, pc := .entries rest }
    | .error error => state.abandon plan file answer
        s!"failed to finalize destination file '{file.destination.str}': {error.message}"
  else if answer.cancelled then state.abandon plan file answer "transfer cancelled"
  else
    let stop := min (offset + spoolChunk) file.len
    match answer.call (readFile plan.srcOp state.storage file.source) with
    | .error error => state.abandon plan file answer
        s!"failed to read '{file.source.str}' at byte {offset}: {error.message}"
    | .ok content =>
      let buffer := ((content.drop offset).take (stop - offset)).take answer.size
      if buffer = [] then state.abandon plan file answer
        s!"source '{file.source.str}' returned zero bytes before reaching its expected length"
      else { state with pc := .write file written buffer rest }

/-- One step of `run_transfer`. -/
def transferStep (plan : TransferPlan) (state : TransferState) (answer : Answer) : Option TransferState :=
  match state.pc with
  | .recheck =>
    match recheckQuota plan state.storage answer with
    | .error error => some { state with pc := .returned (some error.message) }
    | .ok () => some { state with pc := if plan.native ∧ ¬plan.copy then .rename else .copyTree }
  | .rename =>
    match callRename plan state.storage answer with
    | .ok storage => some { storage, done := state.done + max plan.totalBytes 1, pc := .returned none }
    | .error error =>
      -- Expected fallback: copy, then delete the source.
      if error.kind = .unsupported then some { state with pc := .copyTree }
      else some { state with pc := .returned (some s!"failed to rename source to destination: {error.message}") }
  | .copyTree =>
    if plan.srcIsDir then
      match answer.call (createDir plan.dstOp state.storage plan.dstPath) with
      | .ok storage => some { state with storage, pc := .entries plan.entries }
      | .error error => some { state with
          storage := failedCreateDir plan.dstOp state.storage plan.dstPath answer
          pc := .cleanup s!"failed to create destination directory: {error.message}" }
    else some { state with pc := .copyOne ⟨plan.srcPath, plan.dstPath, plan.totalBytes⟩ [] }
  | .entries [] => if plan.copy then some (plan.finish state) else some { state with pc := .deleteSource }
  | .entries (entry :: rest) => some (entryStep plan state entry rest answer)
  | .copyOne file rest =>
    if plan.native then
      match answer.call (copyFile plan.srcOp state.storage file.source file.destination) with
      | .ok storage => some { storage, done := state.done + file.len, pc := .entries rest }
      | .error error => some (state.abandon plan file answer
          s!"failed to copy '{file.source.str}' to '{file.destination.str}': {error.message}")
    else
      match answer.error with
      | some error => some (state.abandon plan file answer
          s!"failed to create destination file '{file.destination.str}': {error.message}")
      | none => some { state with pc := .read file [] rest }
  | .read file written rest => some (readStep plan state file written rest answer)
  | .write file written buffer rest =>
    match answer.call (writeFile plan.dstOp state.storage file.destination (written ++ buffer)) with
    | .ok storage => some { storage, done := state.done + buffer.length, pc := .read file (written ++ buffer) rest }
    | .error error => some (state.abandon plan file answer
        s!"failed to write '{file.destination.str}' at byte {written.length}: {error.message}")
  | .cleanup error =>
    -- Whether the delete succeeds is ignored.
    some { state with
      storage := deleteRecursive plan.dstOp state.storage plan.dstPath answer
      pc := .returned (some error) }
  | .deleteSource =>
    if answer.cancelled then
      some { state with
        pc := .returned (some "transfer cancelled after destination copy completed; source was not deleted") }
    else
      let storage := deleteRecursive plan.srcOp state.storage plan.srcPath answer
      match answer.error with
      | none => some (plan.finish { state with storage })
      | some error => some { state with
          storage
          pc := .returned (some s!"destination transfer completed, but source deletion failed: {error.message}") }
  | .returned _ => none

end Vaulton.Transfer
