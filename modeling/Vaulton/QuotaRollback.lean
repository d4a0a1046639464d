import Vaulton.QuotaAccessor

/-! `QuotaWriter::close` and `QuotaCopier::close` over a backend whose renames and deletes
take effect or fail one by one, with nothing else running. -/

namespace Vaulton.Quota
open Vaulton.Lib

/-- Which of the calls of one close take effect, in the order in which they are made. -/
structure BackendAnswers where
  firstRename : Bool
  /-- The removal of the destination between the two renames. -/
  removeDest : Bool
  secondRename : Bool
  /-- The removal of the staging path. -/
  removeTmp : Bool
  deriving DecidableEq, Repr

def attemptRemove (takesEffect : Bool) (store : Store) (path : Path) : Store :=
  if takesEffect then bestEffortRemove store path else store

/-- `commit_rename`. That the first attempt failed because of the destination is not checked. -/
def attemptRename (answers : BackendAnswers) (store : Store) (tmp dest : Path) : Store × Option Error :=
  if answers.firstRename then (rename store tmp dest, none)
  else
    let store := attemptRemove answers.removeDest store dest
    if answers.secondRename then (rename store tmp dest, none) else (store, some renameError)

/-- The answers behind one of the three ways that `commitRename` tells apart. -/
def RenameFate.answers : RenameFate → BackendAnswers
  | .direct => ⟨true, true, true, true⟩
  | .fallback => ⟨false, true, true, true⟩
  | .fails => ⟨false, true, false, true⟩

/-- A writer or a copier that is about to be closed. -/
inductive Closer where
  | ofWriter (writer : QuotaWriter)
  | ofCopier (copier : QuotaCopier)

def Closer.dest : Closer → Path
  | .ofWriter writer => writer.path
  | .ofCopier copier => copier.dest

def Closer.tmp : Closer → Path
  | .ofWriter writer => writer.tmpPath
  | .ofCopier copier => copier.tmpDest

/-- The tail of both closes once the staged object is complete. -/
def attemptCommit (accessor : QuotaAccessor) (answers : BackendAnswers) (world : World) (tmp dest : Path)
    (oldSize newSize : Nat) : World × Option Error :=
  match applyDelta (commitWrite accessor.id accessor.limit oldSize newSize) world.counter with
  | (counter, .err error) =>
    ({ world with counter, store := attemptRemove answers.removeTmp world.store tmp }, some error)
  | (counter, .ok _) =>
    match attemptRename answers world.store tmp dest with
    | (store, none) => ({ world with counter, store }, none)
    | (store, some error) =>
      let (counter, _) := applyDelta (commitWrite accessor.id u64Max newSize oldSize) counter
      ({ world with counter, store := attemptRemove answers.removeTmp store tmp }, some error)

def Closer.close (accessor : QuotaAccessor) (answers : BackendAnswers) (world : World) : Closer → World × Option Error
  | .ofWriter writer =>
    let world := { world with store := world.store.insert writer.tmpPath writer.staged }
    attemptCommit accessor answers world writer.tmpPath writer.path (sizeOfPath world.store writer.path) writer.written
  | .ofCopier copier =>
    match world.store.lookup copier.source with
    | none => (world, some notFoundError)
    | some content =>
      let world := { world with store := world.store.insert copier.tmpDest content }
      attemptCommit accessor answers world copier.tmpDest copier.dest
        (sizeOfPath world.store copier.dest) (sizeOfPath world.store copier.source)

/-- The bytes that the commit of a close counts. -/
def Closer.newSize (world : World) : Closer → Nat
  | .ofWriter writer => writer.written
  | .ofCopier copier => sizeOfPath world.store copier.source

end Vaulton.Quota
