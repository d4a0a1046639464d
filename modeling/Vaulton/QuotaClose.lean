import Vaulton.QuotaAccessor

/-! The same closes and deletes as in `QuotaAccessor`, cut at every access to the
backend or the counter, for any number of calls on one quota id. `apply_delta` is one
step here. A staged object is visible only to the call that made it, so the staging
objects are kept beside the store, one for each call. -/

namespace Vaulton.Quota
open Vaulton.Lib

inductive Task where
  | write (path : Path) (content : Content)
  | copy (source dest : Path)
  | delete (paths : List Path)
  deriving DecidableEq, Repr

/-- Where a call stands between two steps. -/
inductive ClosePc where
  | start
  /-- `QuotaCopier::close` after the staged copy is complete. -/
  | statSource
  | statDest (newSize : Nat)
  | commit (oldSize newSize : Nat)
  | rename (oldSize newSize : Nat)
  /-- The rename failed: undo the commit, then remove the staged object. -/
  | undo (oldSize newSize : Nat)
  | cleanup (error : Error)
  /-- The head of the delete loop, with the paths handed on and their sizes. -/
  | statNext (rest : List Path) (entries : List (Path × Nat))
  | remove (path : Path) (size : Nat) (rest : List Path) (entries : List (Path × Nat))
  /-- `QuotaDeleter::close` releases the recorded sizes one by one. -/
  | release (sizes : List Nat)
  | done (result : Result)
  deriving DecidableEq, Repr

structure CloseState (ι : Type) where
  store : Store
  staged : ι → Option Content
  counter : QuotaCounter
  pcs : ι → ClosePc

def Task.dest : Task → Path
  | .write path _ => path
  | .copy _ dest => dest
  | .delete _ => ""

/-- What one step of a call makes of the store, its staged object, the counter and its
position. -/
structure Turn where
  store : Store
  staged : Option Content
  counter : QuotaCounter
  pc : ClosePc

/-- One step of a call. The commit of a writer counts the bytes it wrote; the commit of
a copier counts the size of the source at `close()`, not the size of the staged copy. -/
def closeStep (accessor : QuotaAccessor) (task : Task) (fate : RenameFate) (store : Store)
    (staged : Option Content) (counter : QuotaCounter) : ClosePc → Option Turn
  | .start =>
    match task with
    | .write _ content => some ⟨store, some content, counter, .statDest content.length⟩
    | .copy source _ =>
      match store.lookup source with
      | some content => some ⟨store, some content, counter, .statSource⟩
      | none => some ⟨store, staged, counter, .done (.refused notFoundError)⟩
    | .delete paths => some ⟨store, staged, counter, .statNext paths []⟩
  | .statSource =>
    match task with
    | .copy source _ => some ⟨store, staged, counter, .statDest (sizeOfPath store source)⟩
    | _ => none
  | .statDest newSize => some ⟨store, staged, counter, .commit (sizeOfPath store task.dest) newSize⟩
  | .commit oldSize newSize =>
    match applyDelta (commitWrite accessor.id accessor.limit oldSize newSize) counter with
    | (counter, .ok _) => some ⟨store, staged, counter, .rename oldSize newSize⟩
    | (counter, .err error) => some ⟨store, staged, counter, .cleanup error⟩
  | .rename oldSize newSize =>
    match staged, fate with
    | some _, .fails => some ⟨bestEffortRemove store task.dest, staged, counter, .undo oldSize newSize⟩
    | some content, _ => some ⟨store.insert task.dest content, none, counter, .done .ok⟩
    | none, _ => none
  | .undo oldSize newSize =>
    some ⟨store, staged, (applyDelta (commitWrite accessor.id u64Max newSize oldSize) counter).1, .cleanup renameError⟩
  | .cleanup error => some ⟨store, none, counter, .done (.refused error)⟩
  | .statNext (path :: rest) entries =>
    some ⟨store, staged, counter, .remove path (sizeOfPath store path) rest entries⟩
  | .statNext [] entries =>
    let flushed := if accessor.backend.deletesAtOnce then store
      else entries.foldl (fun store entry => store.erase entry.1) store
    some ⟨flushed, staged, counter, .release (entries.map Prod.snd)⟩
  | .remove path size rest entries =>
    let removed := if accessor.backend.deletesAtOnce then store.erase path else store
    some ⟨removed, staged, counter, .statNext rest (entries ++ [(path, size)])⟩
  | .release (size :: rest) =>
    some ⟨store, staged, (applyDelta (commitDelete accessor.id size) counter).1, .release rest⟩
  | .release [] => some ⟨store, staged, counter, .done .ok⟩
  | .done _ => none

variable {ι : Type} [DecidableEq ι]

def callStep (accessor : QuotaAccessor) (tasks : ι → Task) (state : CloseState ι) :
    ι × RenameFate → Option (CloseState ι)
  | (call, fate) =>
    (closeStep accessor (tasks call) fate state.store (state.staged call) state.counter (state.pcs call)).map
      fun turn => {
        store := turn.store
        staged := Function.update state.staged call turn.staged
        counter := turn.counter
        pcs := Function.update state.pcs call turn.pc }

def closeStart (store : Store) (counter : QuotaCounter) : CloseState ι :=
  ⟨store, fun _ => none, counter, fun _ => .start⟩

end Vaulton.Quota
