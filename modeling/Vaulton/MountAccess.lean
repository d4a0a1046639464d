import Vaulton.Paths

/-! The mounted file system of a user (`layers/vfs.rs`, `deleter.rs`, `reader.rs`,
`writer.rs` and `layers/read_only.rs` of opendal-vfs). Every operation resolves its paths
to mounts and goes on with their operators; readers, writers, copiers and deleters do so
lazily. What an operator does to its own store is left open. -/

namespace Vaulton.MountAccess
open Vaulton.Config Vaulton.Paths

abbrev Data := List UInt8

inductive EntryMode where
  | file
  | dir
  deriving DecidableEq, Repr

structure Metadata where
  mode : EntryMode
  lastModified : Option Int
  contentLength : Nat
  deriving DecidableEq, Repr

structure Entry where
  path : Text
  metadata : Metadata
  deriving DecidableEq

inductive ErrorKind where
  | notFound
  | permissionDenied
  | other
  deriving DecidableEq, Repr

structure Error where
  kind : ErrorKind
  message : String
  deriving DecidableEq, Repr

def pathNotFound : Error := ⟨.notFound, "path not found"⟩

def mountReadOnly : Error := ⟨.permissionDenied, "mount is read only"⟩

/-! ### Operators and mounts -/

/-- The calls of an operator that may change its store. -/
inductive Call where
  | createDir (rel : Text)
  | openWriter (rel : Text)
  | writeChunk (rel : Text) (chunk : Data)
  | closeWriter (rel : Text)
  | abortWriter (rel : Text)
  | write (rel : Text) (data : Data)
  | delete (rel : Text)
  | copy (source dest : Text)
  | rename (source dest : Text)
  deriving DecidableEq

/-- An operator over a store `σ`; `ω` is what its backend may choose in a call. -/
structure Operator (σ ω : Type) where
  nativeCopy : Bool
  nativeRename : Bool
  change : Call → ω → σ → σ × Except Error Unit
  stat : Text → ω → σ → Except Error Metadata
  read : Text → ω → σ → Except Error Data
  list : Text → ω → σ → Except Error (List (Except Error Entry))

structure Mount (σ ω : Type) where
  operator : Operator σ ω
  readOnly : Bool

variable {σ ω ι : Type}

/-- `ReadOnlyLayer`. -/
def Operator.readOnlyLayer (operator : Operator σ ω) : Operator σ ω :=
  { operator with change := fun _ _ store => (store, .error ⟨.permissionDenied, "read-only mount point"⟩) }

/-- A mount handed to the builder. A quota layer is part of its operator. -/
structure PendingMount (σ ω : Type) where
  path : Text
  operator : Operator σ ω
  readOnly : Bool

def PendingMount.mount (pending : PendingMount σ ω) : Mount σ ω where
  operator := if pending.readOnly then pending.operator.readOnlyLayer else pending.operator
  readOnly := pending.readOnly

/-- `VfsBuilder::mount`, for each mount, and `VfsBuilder::build`. -/
def build (pending : List (PendingMount σ ω)) : Except BuildError (Mounts (Mount σ ω)) :=
  buildMounts (pending.map fun mount => (normalize mount.path, mount.mount)) []

/-- What `resolve_path` finds: the mount path, the mount and the inner path. -/
structure Target (σ ω : Type) where
  path : Text
  mount : Mount σ ω
  rel : Text

def resolve (mounts : Mounts (Mount σ ω)) (path : Text) : Option (Target σ ω) :=
  (resolvePath mounts path).map fun found => ⟨found.1, found.2.1, found.2.2⟩

/-- Every mount has its own store, named by the mount path. -/
abbrev Stores (σ : Type) := Text → σ

def Target.call (target : Target σ ω) (call : Call) (answer : ω) (stores : Stores σ) : Stores σ × Except Error Unit :=
  let (store, result) := target.mount.operator.change call answer (stores target.path)
  (Function.update stores target.path store, result)

def Target.stat (target : Target σ ω) (answer : ω) (stores : Stores σ) : Except Error Metadata :=
  target.mount.operator.stat target.rel answer (stores target.path)

def Target.read (target : Target σ ω) (answer : ω) (stores : Stores σ) : Except Error Data :=
  target.mount.operator.read target.rel answer (stores target.path)

/-! ### Metadata and listings -/

/-- The metadata of a mount point or a virtual directory. -/
def dirMetadata : Metadata := ⟨.dir, some 0, 0⟩

/-- The prefix that the mounts below a directory have in common. -/
def childPrefix (path : Text) : Text :=
  let normalized := normalize path
  if normalized ≠ "/".toList ∧ normalized.getLast? ≠ some '/' then normalized ++ ['/'] else normalized

/-- The segment of a mount path that follows the prefix, if there is one. -/
def nextSegment (start mountPath : Text) : Option Text :=
  if start.isPrefixOf mountPath then
    let segment := (mountPath.drop start.length).takeWhile fun c => c ≠ '/'
    if segment = [] then none else some segment
  else none

/-- The children of a virtual directory, a set in the order of its elements. -/
def virtualChildren {μ : Type} (mounts : Mounts μ) (path : Text) : Option (List Text) :=
  let children := (mounts.filterMap fun entry => nextSegment (childPrefix path) entry.1).dedup.insertionSort (· ≤ ·)
  if children = [] ∧ childPrefix path ≠ "/".toList then none else some children

def metadata (mounts : Mounts (Mount σ ω)) (answer : ω) (stores : Stores σ) (path : Text) : Except Error Metadata :=
  match resolve mounts path with
  | some target =>
    if normalize path = target.path ∧ target.rel = [] then .ok dirMetadata else target.stat answer stores
  | none => if (virtualChildren mounts path).isSome then .ok dirMetadata else .error pathNotFound

/-- `MountLister`. The inner lister is opened by the first `next`. -/
inductive Lister (σ ω : Type) where
  | real (target : Target σ ω) (inner : Option (List (Except Error Entry)))
  | virtual (entries : List Entry)

/-- The path of a child of a virtual directory. -/
def childPath (base name : Text) : Text :=
  if base = "/".toList then name ++ ['/'] else (base.dropWhile fun c => c = '/') ++ '/' :: name ++ ['/']

def list (mounts : Mounts (Mount σ ω)) (path : Text) : Except Error (Lister σ ω) :=
  match resolve mounts path with
  | some target => .ok (.real target none)
  | none =>
    match virtualChildren mounts path with
    | some children => .ok (.virtual (children.map fun name => ⟨childPath (normalize path) name, dirMetadata⟩))
    | none => .error pathNotFound

/-- The path of an inner entry in the mounted file system. -/
def rebase (mountPath entryPath : Text) : Text :=
  (mountPath.rdropWhile fun c => c = '/') ++ '/' :: entryPath.dropWhile fun c => c = '/'

/-- Inner entries up to the first that is not the listed directory itself. -/
def nextReal (target : Target σ ω) : List (Except Error Entry) → Except Error (Option Entry) × Lister σ ω
  | [] => (.ok none, .real target (some []))
  | .error error :: rest => (.error error, .real target (some rest))
  | .ok entry :: rest =>
    if trimSlashes entry.path = trimSlashes target.rel then nextReal target rest
    else (.ok (some ⟨rebase target.path entry.path, entry.metadata⟩), .real target (some rest))

/-- `MountLister::next`. Virtual entries are popped from the end. -/
def Lister.next (answer : ω) (stores : Stores σ) : Lister σ ω → Except Error (Option Entry) × Lister σ ω
  | .real target (some inner) => nextReal target inner
  | .real target none =>
    match target.mount.operator.list target.rel answer (stores target.path) with
    | .error error => (.error error, .real target none)
    | .ok inner => nextReal target inner
  | .virtual entries => (.ok entries.getLast?, .virtual entries.dropLast)

/-! ### Operations -/

inductive WriterCall where
  | write (chunk : Data)
  | close
  | abort
  deriving DecidableEq

/-- `MountWriter`. Its inner writer is opened by the first call. -/
structure Writer (σ ω : Type) where
  target : Target σ ω
  opened : Bool

/-- What the inner writer is asked to do. -/
def Writer.inner (writer : Writer σ ω) : WriterCall → Call
  | .write chunk => .writeChunk writer.target.rel chunk
  | .close => .closeWriter writer.target.rel
  | .abort => .abortWriter writer.target.rel

/-- `MountDeleter::delete`. -/
def deletePath (mounts : Mounts (Mount σ ω)) (answer : ω) (stores : Stores σ) (path : Text) :
    Stores σ × Except Error Unit :=
  match resolve mounts path with
  | none => (stores, .error pathNotFound)
  | some target =>
    if target.mount.readOnly then (stores, .error mountReadOnly) else target.call (.delete target.rel) answer stores

inductive Operation where
  | stat (path : Text)
  | read (path : Text)
  | list (path : Text)
  | createDir (path : Text)
  | write (path : Text) (calls : List WriterCall)
  | delete (paths : List Text)
  | copy (source dest : Text)
  | rename (source dest : Text)
  deriving DecidableEq

/-- Where an operation stands. A reader, writer, lister or copier has resolved its paths
when it is made, a deleter resolves each path when its turn comes. The caller of a writer,
lister or deleter may go on after an error. -/
inductive Pc (σ ω : Type) where
  | start
  | readStat (target : Target σ ω)
  | readData (target : Target σ ω)
  | listing (lister : Lister σ ω)
  | writing (writer : Writer σ ω) (calls : List WriterCall)
  | deleting (paths : List Text)
  | copyNative (source dest : Target σ ω)
  | copyRead (source dest : Target σ ω)
  | copyWrite (dest : Target σ ω) (data : Data)
  | copyStat (dest : Target σ ω)
  | renameNative (source dest : Target σ ω)
  | renameRead (source dest : Target σ ω)
  | renameWrite (source dest : Target σ ω) (data : Data)
  | renameDelete (source : Target σ ω)
  | done (result : Except Error Unit)

/-- Goes on with what an operator has answered, or ends with its error. -/
def proceed {α : Type} (stores : Stores σ) (result : Except Error α) (next : α → Pc σ ω) : Stores σ × Pc σ ω :=
  match result with
  | .ok value => (stores, next value)
  | .error error => (stores, .done (.error error))

/-- Goes on after a call that may have changed the store of its mount. -/
def Target.proceed (target : Target σ ω) (call : Call) (answer : ω) (stores : Stores σ) (next : Pc σ ω) :
    Stores σ × Pc σ ω :=
  let (stores, result) := target.call call answer stores
  MountAccess.proceed stores result fun () => next

def startStep (mounts : Mounts (Mount σ ω)) (stores : Stores σ) (answer : ω) : Operation → Stores σ × Pc σ ω
  | .stat path => proceed stores (metadata mounts answer stores path) fun _ => .done (.ok ())
  | .list path => proceed stores (list mounts path) .listing
  | .read path =>
    match resolve mounts path with
    | none => (stores, .done (.error pathNotFound))
    | some target => (stores, .readStat target)
  | .createDir path =>
    match resolve mounts path with
    | none => (stores, .done (.error pathNotFound))
    | some target =>
      if target.mount.readOnly then (stores, .done (.error mountReadOnly))
      else target.proceed (.createDir target.rel) answer stores (.done (.ok ()))
  | .write path calls =>
    match resolve mounts path with
    | none => (stores, .done (.error pathNotFound))
    | some target =>
      if target.mount.readOnly then (stores, .done (.error mountReadOnly)) else (stores, .writing ⟨target, false⟩ calls)
  | .delete paths => (stores, .deleting paths)
  | .copy source dest =>
    match resolve mounts source, resolve mounts dest with
    | some source, some dest =>
      if dest.mount.readOnly then (stores, .done (.error mountReadOnly))
      else if source.path = dest.path ∧ source.mount.operator.nativeCopy then (stores, .copyNative source dest)
      else (stores, .copyRead source dest)
    | _, _ => (stores, .done (.error pathNotFound))
  | .rename source dest =>
    match resolve mounts source, resolve mounts dest with
    | some source, some dest =>
      if source.mount.readOnly || dest.mount.readOnly then (stores, .done (.error mountReadOnly))
      else if source.path = dest.path ∧ source.mount.operator.nativeRename then (stores, .renameNative source dest)
      else (stores, .renameRead source dest)
    | _, _ => (stores, .done (.error pathNotFound))

def operationStep (mounts : Mounts (Mount σ ω)) (operation : Operation) (stores : Stores σ) (answer : ω) :
    Pc σ ω → Option (Stores σ × Pc σ ω)
  | .start => some (startStep mounts stores answer operation)
  | .readStat target => some (proceed stores (target.stat answer stores) fun _ => .readData target)
  | .readData target => some (proceed stores (target.read answer stores) fun _ => .done (.ok ()))
  | .listing lister =>
    match lister.next answer stores with
    | (.ok none, _) => some (stores, .done (.ok ()))
    | (_, lister) => some (stores, .listing lister)
  | .writing _ [] => some (stores, .done (.ok ()))
  | .writing writer (call :: rest) =>
    if writer.opened then
      let (stores, _) := writer.target.call (writer.inner call) answer stores
      some (stores, .writing writer rest)
    else
      match writer.target.call (.openWriter writer.target.rel) answer stores with
      | (stores, .ok ()) => some (stores, .writing ⟨writer.target, true⟩ (call :: rest))
      | (stores, .error _) => some (stores, .writing writer rest)
  | .deleting [] => some (stores, .done (.ok ()))
  | .deleting (path :: rest) =>
    let (stores, _) := deletePath mounts answer stores path
    some (stores, .deleting rest)
  | .copyNative source dest => some (source.proceed (.copy source.rel dest.rel) answer stores (.copyStat dest))
  | .copyRead source dest => some (proceed stores (source.read answer stores) (.copyWrite dest))
  | .copyWrite dest data => some (dest.proceed (.write dest.rel data) answer stores (.copyStat dest))
  | .copyStat dest => some (proceed stores (dest.stat answer stores) fun _ => .done (.ok ()))
  | .renameNative source dest => some (source.proceed (.rename source.rel dest.rel) answer stores (.done (.ok ())))
  | .renameRead source dest => some (proceed stores (source.read answer stores) (.renameWrite source dest))
  | .renameWrite source dest data => some (dest.proceed (.write dest.rel data) answer stores (.renameDelete source))
  | .renameDelete source => some (source.proceed (.delete source.rel) answer stores (.done (.ok ())))
  | .done _ => none

/-! ### Any number of operations -/

structure MountState (σ ω ι : Type) where
  stores : Stores σ
  pcs : ι → Pc σ ω

def mountStart (stores : Stores σ) : MountState σ ω ι := ⟨stores, fun _ => .start⟩

def mountStep [DecidableEq ι] (mounts : Mounts (Mount σ ω)) (operations : ι → Operation) (state : MountState σ ω ι)
    (event : ι × ω) : Option (MountState σ ω ι) :=
  (operationStep mounts (operations event.1) state.stores event.2 (state.pcs event.1)).map fun next =>
    ⟨next.1, Function.update state.pcs event.1 next.2⟩

end Vaulton.MountAccess
