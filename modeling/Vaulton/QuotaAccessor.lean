import Vaulton.Quota
import Vaulton.Lib.Weight

/-! `QuotaAccessor` with its writer, copier and deleter over an inner service that is
a map from path to bytes. Writes and copies land under a staging path, are committed
to the counter and then renamed into place. -/

namespace Vaulton.Quota
open Vaulton.Lib

abbrev Path := String

abbrev Content := List UInt8

abbrev Store := Table Path Content

/-- The sum of the sizes of all stored objects. -/
abbrev storeBytes (store : Store) : Nat := total List.length store

/-- `size_of`: a missing object counts as empty. -/
abbrev sizeOfPath (store : Store) (path : Path) : Nat := weightAt List.length store path

/-- Where inner services differ without failing. -/
structure Backend where
  /-- A writer or copier creates its object at once, not only at `close()`. -/
  writesThrough : Bool
  /-- `delete()` removes the object, not only the deleter's `close()`. -/
  deletesAtOnce : Bool
  deriving DecidableEq, Repr

structure QuotaAccessor where
  id : String
  limit : Nat
  backend : Backend
  deriving DecidableEq, Repr

/-- The inner store, the loaded counter of the layer's id and `TMP_SUFFIX_COUNTER`. -/
structure World where
  store : Store
  counter : QuotaCounter
  suffix : Nat

def tmpPathFor (path : Path) (nanos n : Nat) : Path := s!"{path}.quota-tmp-{nanos}-{n}"

def bestEffortRemove (store : Store) (path : Path) : Store := store.erase path

/-- The inner `rename`, replacing the destination. -/
def rename (store : Store) (source dest : Path) : Store :=
  match store.lookup source with
  | some content => (store.erase source).insert dest content
  | none => store

/-- How the two rename attempts of `commit_rename` end. -/
inductive RenameFate where
  | direct
  | fallback
  | fails
  deriving DecidableEq, Repr

def renameError : Error := ⟨.unexpected, "rename failed", []⟩

/-- `commit_rename`: when the first attempt fails the destination is removed before
the second one. -/
def commitRename (fate : RenameFate) (store : Store) (tmp dest : Path) : Store × Option Error :=
  match fate with
  | .direct => (rename store tmp dest, none)
  | .fallback => (rename (bestEffortRemove store dest) tmp dest, none)
  | .fails => (bestEffortRemove store dest, some renameError)

/-- The tail shared by `QuotaWriter::close` and `QuotaCopier::close` once the staged
object is complete: commit, rename, and undo the commit when the rename fails. -/
def commitStaged (accessor : QuotaAccessor) (fate : RenameFate) (world : World) (tmp dest : Path)
    (oldSize newSize : Nat) : World × Option Error :=
  match applyDelta (commitWrite accessor.id accessor.limit oldSize newSize) world.counter with
  | (counter, .err error) =>
    ({ world with counter, store := bestEffortRemove world.store tmp }, some error)
  | (counter, .ok _) =>
    match commitRename fate world.store tmp dest with
    | (store, none) => ({ world with counter, store }, none)
    | (store, some error) =>
      let (counter, _) := applyDelta (commitWrite accessor.id u64Max newSize oldSize) counter
      ({ world with counter, store := bestEffortRemove store tmp }, some error)

/-! ### Writer -/

structure QuotaWriter where
  path : Path
  tmpPath : Path
  /-- The bytes handed to the inner writer so far. -/
  staged : Content
  written : Nat

/-- The object an open inner writer or copier shows under the staging path. -/
def stage (backend : Backend) (store : Store) (tmp : Path) (content : Content) : Store :=
  if backend.writesThrough then store.insert tmp content else store

def QuotaAccessor.write (accessor : QuotaAccessor) (world : World) (path : Path) (nanos : Nat) :
    World × QuotaWriter :=
  let tmp := tmpPathFor path nanos world.suffix
  ({ world with suffix := world.suffix + 1, store := stage accessor.backend world.store tmp [] },
    ⟨path, tmp, [], 0⟩)

def QuotaWriter.write (accessor : QuotaAccessor) (world : World) (writer : QuotaWriter) (chunk : Content) :
    World × QuotaWriter :=
  let staged := writer.staged ++ chunk
  ({ world with store := stage accessor.backend world.store writer.tmpPath staged },
    { writer with staged, written := (writer.written + chunk.length) % 2 ^ 64 })

def QuotaWriter.close (accessor : QuotaAccessor) (fate : RenameFate) (world : World) (writer : QuotaWriter) :
    World × Option Error :=
  let world := { world with store := world.store.insert writer.tmpPath writer.staged }
  commitStaged accessor fate world writer.tmpPath writer.path (sizeOfPath world.store writer.path) writer.written

def QuotaWriter.abort (world : World) (writer : QuotaWriter) : World :=
  { world with store := bestEffortRemove world.store writer.tmpPath }

/-! ### Copier -/

structure QuotaCopier where
  source : Path
  dest : Path
  tmpDest : Path

def notFoundError : Error := ⟨.notFound, "path not found", []⟩

/-- `copy()`: fails when the inner service finds no source. -/
def QuotaAccessor.copy (accessor : QuotaAccessor) (world : World) (source dest : Path) (nanos : Nat) :
    World × Except Error QuotaCopier :=
  let tmp := tmpPathFor dest nanos world.suffix
  let world := { world with suffix := world.suffix + 1 }
  match world.store.lookup source with
  | none => (world, .error notFoundError)
  | some content =>
    ({ world with store := stage accessor.backend world.store tmp content }, .ok ⟨source, dest, tmp⟩)

def QuotaCopier.close (accessor : QuotaAccessor) (fate : RenameFate) (world : World) (copier : QuotaCopier) :
    World × Option Error :=
  match world.store.lookup copier.source with
  | none => (world, some notFoundError)
  | some content =>
    let world := { world with store := world.store.insert copier.tmpDest content }
    commitStaged accessor fate world copier.tmpDest copier.dest
      (sizeOfPath world.store copier.dest) (sizeOfPath world.store copier.source)

def QuotaCopier.abort (world : World) (copier : QuotaCopier) : World :=
  { world with store := bestEffortRemove world.store copier.tmpDest }

/-! ### Rename -/

/-- `QuotaAccessor::rename`, passed on to the inner service without any accounting. -/
def QuotaAccessor.rename (_ : QuotaAccessor) (failure : Option Error) (world : World) (source dest : Path) : World × Option Error :=
  match failure, world.store.lookup source with
  | some error, _ => (world, some error)
  | none, none => (world, some notFoundError)
  | none, some _ => ({ world with store := Quota.rename world.store source dest }, none)

/-! ### Deleter -/

structure QuotaDeleter where
  /-- Paths the inner deleter still holds back. -/
  queued : List Path
  pendingSizes : List Nat

def QuotaDeleter.delete (accessor : QuotaAccessor) (world : World) (deleter : QuotaDeleter) (path : Path) :
    World × QuotaDeleter :=
  let size := sizeOfPath world.store path
  if accessor.backend.deletesAtOnce then
    ({ world with store := world.store.erase path },
      { deleter with pendingSizes := deleter.pendingSizes ++ [size] })
  else
    (world, ⟨deleter.queued ++ [path], deleter.pendingSizes ++ [size]⟩)

def QuotaDeleter.close (accessor : QuotaAccessor) (world : World) (deleter : QuotaDeleter) : World :=
  { world with
    store := deleter.queued.foldl (fun store path => store.erase path) world.store
    counter := deleter.pendingSizes.foldl
      (fun counter size => (applyDelta (commitDelete accessor.id size) counter).1) world.counter }

/-! ### Whole operations, one after another -/

/-- The chunks of one write. An object's length is a `u64`. -/
structure Payload where
  chunks : List Content
  fits : chunks.flatten.length < 2 ^ 64

def Payload.content (payload : Payload) : Content := payload.chunks.flatten

inductive Operation where
  | write (path : Path) (nanos : Nat) (payload : Payload) (closes : Bool)
  | copy (source dest : Path) (nanos : Nat) (closes : Bool)
  | delete (paths : List Path)

inductive Result where
  | ok
  | aborted
  | refused (error : Error)
  deriving DecidableEq, Repr

def Result.ofError : Option Error → Result
  | none => .ok
  | some error => .refused error

def writeAll (accessor : QuotaAccessor) (world : World) (writer : QuotaWriter) (chunks : List Content) :
    World × QuotaWriter :=
  chunks.foldl (fun (world, writer) chunk => writer.write accessor world chunk) (world, writer)

def deleteAll (accessor : QuotaAccessor) (world : World) (paths : List Path) : World × QuotaDeleter :=
  paths.foldl (fun (world, deleter) path => deleter.delete accessor world path) (world, ⟨[], []⟩)

/-- An operation through the layer with nothing else running; `fate` is how the
renames of the inner service end. -/
def perform (accessor : QuotaAccessor) (fate : RenameFate) (world : World) : Operation → World × Result
  | .write path nanos payload closes =>
    let (world, writer) := accessor.write world path nanos
    let (world, writer) := writeAll accessor world writer payload.chunks
    if closes then
      let (world, error) := writer.close accessor fate world
      (world, .ofError error)
    else (writer.abort world, .aborted)
  | .copy source dest nanos closes =>
    match accessor.copy world source dest nanos with
    | (world, .error error) => (world, .refused error)
    | (world, .ok copier) =>
      if closes then
        let (world, error) := copier.close accessor fate world
        (world, .ofError error)
      else (copier.abort world, .aborted)
  | .delete paths =>
    let (world, deleter) := deleteAll accessor world paths
    (deleter.close accessor world, .ok)

/-! ### Write modes -/

/-- The modes of an `OpWrite` that an inner service may honour. -/
structure WriteMode where
  append : Bool
  ifNotExists : Bool
  deriving DecidableEq, Repr

inductive WriteFailure where
  /-- `ErrorKind::ConditionNotMatch` of the inner service. -/
  | conditionNotMatch
  | of (kind : ErrorKind)
  deriving DecidableEq, Repr

/-- A whole write made directly on the inner service. -/
def innerWrite (mode : WriteMode) (store : Store) (path : Path) (content : Content) :
    Store × Except WriteFailure Unit :=
  match store.lookup path with
  | none => (store.insert path content, .ok ())
  | some existing =>
    if mode.ifNotExists then (store, .error .conditionNotMatch)
    else if mode.append then (store.insert path (existing ++ content), .ok ())
    else (store.insert path content, .ok ())

/-- The same write through the layer. The mode goes to the staging path, not to `path`. -/
def QuotaAccessor.writeWith (accessor : QuotaAccessor) (fate : RenameFate) (mode : WriteMode) (world : World)
    (path : Path) (nanos : Nat) (payload : Payload) : World × Except WriteFailure Unit :=
  let tmp := tmpPathFor path nanos world.suffix
  let world := { world with suffix := world.suffix + 1 }
  match innerWrite mode world.store tmp payload.content with
  | (store, .error failure) => ({ world with store }, .error failure)
  | (store, .ok ()) =>
    let written := payload.chunks.foldl (fun written chunk => (written + chunk.length) % 2 ^ 64) 0
    match commitStaged accessor fate { world with store } tmp path (sizeOfPath store path) written with
    | (world, none) => (world, .ok ())
    | (world, some error) => (world, .error (.of error.kind))

end Vaulton.Quota
