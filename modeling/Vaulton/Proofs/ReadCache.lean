import Vaulton.Proofs.ReadHandles
import Vaulton.ReadCache

/-! When the cache of read handles shows the disk. Only the requests that write through a
path or a handle drop the cached reader of that path; the others are harmless as long as no
cached reader stands where they work. -/

namespace Vaulton.Proofs.ReadCache
open Vaulton.Config Vaulton.Lib Vaulton.ReadHandles Vaulton.ReadCache
open Vaulton.Proofs.ReadHandles (Fits readFile)
open Vaulton.Transfer (Name Path Bytes FileTree)

variable {χ η : Type} {place : χ → Path} {state next : DiskState χ η} {clock : Nat}

/-- The answer a read of a path is meant to give: the file that is there now, or that there
is none. -/
def readPath (place : χ → Path) (state : DiskState χ η) (key : χ) (args : ReadArgs) : Except Status Bytes :=
  if args.length > MAX_READ then .error lengthExceeded
  else
    match state.tree.node (place key) with
    | none => .error noSuchFile
    | some .dir => .error readsDirectory
    | some (.file node) => readFile args (state.contents node)

/-! ### Steps that spare the cached readers -/

/-- No reader is cached for a key at or below the path. -/
def Uncached (place : χ → Path) (state : DiskState χ η) (path : Path) : Prop :=
  ∀ key, path <+: place key → state.readHandles key = none

/-- The cached readers of the inode answer as the changed file does. -/
def ReadersFit (state : DiskState χ η) (node : Inode) (changed : Bytes) : Prop :=
  ∀ key, ∀ handle ∈ state.readHandles key, handle.node = node → Fits changed handle.len

/-- The readers other than the one which a write through this key drops. -/
def OthersFit [DecidableEq χ] (state : DiskState χ η) (key : χ) (node : Inode) (changed : Bytes) : Prop :=
  ReadersFit (invalidateReadHandle state key) node changed

/-- The write leaves no cached reader with a length that the file has outgrown. -/
def WritesThrough [DecidableEq χ] (state : DiskState χ η) (id : η) (args : WriteArgs) : Prop :=
  ∀ handle ∈ state.writeHandles id, OthersFit state handle.key handle.node (args.change (state.contents handle.node))

/-- The request, if it changes the disk, leaves no outdated reader in the cache. A removal
that is refused counts with what it has deleted. -/
def Spares [DecidableEq χ] (place : χ → Path) (state : DiskState χ η) (event : Operation χ η × DiskAnswer) : Prop :=
  match event.1 with
  | .readFile _ _ | .closeWrite _ => True
  | .removeFile key | .removeDir key => ∀ path ∈ removedEntries (place key) event.2, Uncached place state path
  | .touchFile key => event.2.refused = true ∨ OnFile (state.tree.node (place key)) fun node =>
      if event.2.atomic then Uncached place state (place key) else ReadersFit state node []
  | .openWrite _ key overwrite _ => event.2.refused = true ∨ (overwrite = true →
      OnFile (state.tree.node (place key)) fun node => OthersFit state key node [])
  | .writeAt id offset data => event.2.refused = true ∨ WritesThrough state id (writeArgs place state id offset data event.2)
  | .setLength id length => event.2.refused = true ∨ WritesThrough state id (.setLength length)
  | .setLengthAt key length => event.2.refused = true ∨ OnFile (state.tree.node (place key)) fun node =>
      OthersFit state key node (setLen (state.contents node) length)
  | .transfer source _ copy => event.2.refused = true ∨ copy = true ∨ event.2.native = false ∨
      OnFile (state.tree.node (place source)) fun _ => Uncached place state (place source)

section Decidable

variable [Fintype χ]

instance (state : DiskState χ η) (path : Path) : Decidable (Uncached place state path) := inferInstanceAs (Decidable (∀ _, _))

instance (state : DiskState χ η) (node : Inode) (changed : Bytes) : Decidable (ReadersFit state node changed) :=
  inferInstanceAs (Decidable (∀ _, _))

variable [DecidableEq χ]

instance (state : DiskState χ η) (key : χ) (node : Inode) (changed : Bytes) : Decidable (OthersFit state key node changed) :=
  inferInstanceAs (Decidable (ReadersFit _ _ _))

instance (state : DiskState χ η) (id : η) (args : WriteArgs) : Decidable (WritesThrough state id args) :=
  inferInstanceAs (Decidable (∀ _ ∈ _, _))

instance (state : DiskState χ η) : (event : Operation χ η × DiskAnswer) → Decidable (Spares place state event)
  | (.readFile _ _, _) | (.closeWrite _, _) => .isTrue trivial
  | (.removeFile key, answer) | (.removeDir key, answer) =>
    inferInstanceAs (Decidable (∀ path ∈ removedEntries (place key) answer, Uncached place state path))
  | (.touchFile key, answer) => inferInstanceAs (Decidable (_ ∨ OnFile _ fun node =>
      if answer.atomic then Uncached place state (place key) else ReadersFit state node []))
  | (.openWrite _ key _ _, _) => inferInstanceAs (Decidable (_ ∨ (_ → OnFile _ fun node => OthersFit state key node [])))
  | (.writeAt _ _ _, _) | (.setLength _ _, _) => inferInstanceAs (Decidable (_ ∨ WritesThrough _ _ _))
  | (.setLengthAt key length, _) => inferInstanceAs (Decidable (_ ∨ OnFile _ fun node =>
      OthersFit state key node (setLen (state.contents node) length)))
  | (.transfer source _ _, _) => inferInstanceAs (Decidable (_ ∨ _ = true ∨ _ = false ∨ OnFile _ fun _ =>
      Uncached place state (place source)))

end Decidable

/-! ### The invariant -/

/-- Every cached reader holds the file that is at its path now and a length that fits it.
The inodes on the disk are older than the request that comes next. -/
structure Coherent (place : χ → Path) (clock : Nat) (state : DiskState χ η) : Prop where
  cached : ∀ key, ∀ handle ∈ state.readHandles key, state.tree.node (place key) = some (.file handle.node)
  fits : ∀ key, ∀ handle ∈ state.readHandles key, Fits (state.contents handle.node) handle.len
  born : ∀ path node, state.tree.node path = some (.file node) → node.1 < clock

theorem Coherent.initial (place : χ → Path) (disk : FileTree) : Coherent place 1 (mountDisk disk : DiskState χ η) := by
  refine ⟨by simp [mountDisk], by simp [mountDisk], ?_⟩
  intro path node file
  simp only [mountDisk, Tree.mapFiles, Option.map_eq_some_iff] at file
  obtain ⟨before, -, same⟩ := file
  cases before <;> cases same
  exact Nat.one_pos

theorem Coherent.later (coherent : Coherent place clock state) : Coherent place (clock + 1) state :=
  ⟨coherent.cached, coherent.fits, fun path node file => (coherent.born path node file).trans (Nat.lt_succ_self clock)⟩

/-- A change of the tree that spares the files of the cached readers. -/
theorem Coherent.changeTree {tree : Tree Name Inode} {later : Nat} (coherent : Coherent place clock state)
    (spared : ∀ key, ∀ handle ∈ state.readHandles key, tree.node (place key) = state.tree.node (place key))
    (born : ∀ path node, tree.node path = some (.file node) → node.1 < later) :
    Coherent place later { state with tree } := by
  refine ⟨?_, coherent.fits, born⟩
  intro key handle member
  exact (spared key handle member).trans (coherent.cached key handle member)

theorem Coherent.uncached_of_absent {path : Path} (coherent : Coherent place clock state) (absent : state.tree.node path = none) :
    Uncached place state path := by
  intro key below
  by_contra some_handle
  obtain ⟨handle, member⟩ := Option.ne_none_iff_exists'.mp some_handle
  have file := coherent.cached key handle member
  rw [Tree.absent_below below absent] at file
  cases file

theorem Coherent.setContents {node : Inode} {changed : Bytes} (coherent : Coherent place clock state)
    (fit : ReadersFit state node changed) : Coherent place clock (state.setContents node changed) := by
  refine ⟨coherent.cached, ?_, coherent.born⟩
  intro key handle member
  by_cases same : handle.node = node
  · simpa [DiskState.setContents, same] using fit key handle member same
  · simpa [DiskState.setContents, same] using coherent.fits key handle member

theorem Coherent.remove {path : Path} (coherent : Coherent place clock state) (uncached : Uncached place state path) :
    Coherent place clock { state with tree := state.tree.remove path } := by
  apply coherent.changeTree
  · intro key handle member
    have outside : ¬path <+: place key := by
      intro below
      rw [uncached key below] at member
      cases member
    exact if_neg outside
  · intro other node file
    simp only [Tree.remove] at file
    split at file
    · cases file
    · exact coherent.born other node file

theorem Coherent.not_above {path : Path} {key : χ} {handle : CachedRead} (coherent : Coherent place clock state)
    (member : handle ∈ state.readHandles key) (free : place key <+: path → isFile (state.tree.node (place key)) = false) :
    ¬place key <+: path := by
  intro above
  have clear := free above
  rw [coherent.cached key handle member] at clear
  cases clear

theorem Coherent.makeDirs {path : Path} {tree : Tree Name Inode} (coherent : Coherent place clock state)
    (made : state.tree.makeDirs path = some tree) : Coherent place clock { state with tree } := by
  apply coherent.changeTree
  · intro key handle member
    have outside : ¬place key <+: path := coherent.not_above member (Tree.not_blocked (Tree.makeDirs_free made))
    rw [Tree.makeDirs_node made, if_neg outside]
  · intro other node file
    rw [Tree.makeDirs_node made] at file
    split at file
    · cases file
    · exact coherent.born other node file

theorem Coherent.createFile {path : Path} {node : Inode} (coherent : Coherent place state.clock state)
    (uncached : Uncached place state path) (created : createFile state path = some (node, next)) :
    Coherent place (state.clock + 1) next := by
  simp only [ReadCache.createFile, Option.map_eq_some_iff, Prod.mk.injEq] at created
  obtain ⟨tree, put, rfl, rfl⟩ := created
  have fresh : Coherent place state.clock (state.setContents (state.clock, path) []) := by
    apply coherent.setContents
    intro key handle member same
    have older := coherent.born _ _ (coherent.cached key handle member)
    rw [same] at older
    exact absurd older (lt_irrefl _)
  apply fresh.changeTree
  · intro key handle member
    have different : place key ≠ path := by
      intro same
      have absent := uncached key (same ▸ List.prefix_rfl)
      cases absent.symm.trans member
    have outside : ¬place key <+: path := coherent.not_above member fun above => Tree.putFile_free put above different
    rw [Tree.putFile_node put, if_neg different, if_neg outside]
    rfl
  · intro other inode file
    rw [Tree.putFile_node put] at file
    split at file
    · cases file
      exact Nat.lt_succ_self _
    split at file
    · cases file
    · exact (coherent.born other inode file).trans (Nat.lt_succ_self _)

/-! ### Reads -/

section Reads

variable [DecidableEq χ] {key : χ} {args : ReadArgs}

theorem readFromHandle_eq {contents : Bytes} {handle : CachedRead} {offset length : Nat} (fits : Fits contents handle.len) :
    readFromHandle contents handle offset length = readBytes contents offset length := by
  unfold readFromHandle
  split
  next outside => exact (fits.empty outside).symm
  next => exact fits.clip

theorem getReadHandle_ok {handle : CachedRead} (coherent : Coherent place clock state)
    (got : getReadHandle place state key = (.ok handle, next)) :
    state.tree.node (place key) = some (.file handle.node) ∧ Fits (state.contents handle.node) handle.len ∧
      next = { state with readHandles := Function.update state.readHandles key (some handle) } := by
  unfold getReadHandle at got
  split at got
  next cached found =>
    cases got
    refine ⟨coherent.cached key handle found, coherent.fits key handle found, ?_⟩
    rw [← found, Function.update_eq_self]
  next =>
    split at got <;> cases got
    next node file => exact ⟨file, Fits.refl _, rfl⟩

theorem getReadHandle_error {status : Status} (got : getReadHandle place state key = (.error status, next)) :
    next = state ∧ (state.tree.node (place key) = none ∧
        (state.tree.blocked (place key).dropLast = false → status = noSuchFile) ∨
      state.tree.node (place key) = some .dir ∧ status = readsDirectory) := by
  unfold getReadHandle at got
  split at got
  · cases got
  split at got <;> cases got
  next absent => exact ⟨rfl, .inl ⟨absent, fun free => by rw [if_neg (by simp [free])]⟩⟩
  next directory => exact ⟨rfl, .inr ⟨directory, rfl⟩⟩

theorem Coherent.read_answer (coherent : Coherent place clock state)
    (free : state.tree.blocked (place key).dropLast = false) :
    (vfsReadFile place state key args).1 = readPath place state key args := by
  unfold vfsReadFile readPath
  split
  · rfl
  next short =>
    split
    next status after got =>
      obtain ⟨-, ⟨absent, missing⟩ | ⟨directory, rfl⟩⟩ := getReadHandle_error got
      · rw [absent, missing free]
      · rw [directory]
    next handle after got =>
      obtain ⟨file, fits, rfl⟩ := getReadHandle_ok coherent got
      simp only [file, readFromHandle_eq fits]
      cases range : readRange args handle.len with
      | error status => exact (fits.error range).symm
      | ok range => exact (fits.ok (Nat.le_of_not_lt short) ‹_›).symm

theorem Coherent.read (coherent : Coherent place clock state) : Coherent place clock (vfsReadFile place state key args).2 := by
  unfold vfsReadFile
  split
  · exact coherent
  split
  next status after got =>
    obtain ⟨rfl, -⟩ := getReadHandle_error got
    exact coherent
  next handle after got =>
    obtain ⟨file, fits, rfl⟩ := getReadHandle_ok coherent got
    refine ⟨?_, ?_, coherent.born⟩
    · refine forall_update (fun other cached => ∀ found ∈ cached, state.tree.node (place other) = some (.file (CachedRead.node found)))
        coherent.cached ?_
      intro found member
      cases member
      exact file
    · refine forall_update (fun _ cached => ∀ found ∈ cached, Fits (state.contents (CachedRead.node found)) found.len) coherent.fits ?_
      intro found member
      cases member
      exact fits

end Reads

/-! ### Changes -/

theorem Coherent.touch {key : χ} {atomic : Bool} (coherent : Coherent place state.clock state)
    (spares : OnFile (state.tree.node (place key)) fun node =>
      if atomic then Uncached place state (place key) else ReadersFit state node []) :
    Coherent place (state.clock + 1) (vfsTouchFile place state key atomic) := by
  have renewed (uncached : Uncached place state (place key)) :
      Coherent place (state.clock + 1) (((ReadCache.createFile state (place key)).map Prod.snd).getD state) := by
    cases created : ReadCache.createFile state (place key) with
    | none => exact coherent.later
    | some made => exact coherent.createFile uncached created
  unfold vfsTouchFile
  split
  next => exact coherent.later
  next node file =>
    have allowed := spares node file
    cases atomic with
    | true => exact renewed allowed
    | false => exact (coherent.setContents allowed).later
  next absent => exact renewed (coherent.uncached_of_absent absent)

theorem Coherent.deleteEntries {entries : List Path} (coherent : Coherent place clock state)
    (uncached : ∀ path ∈ entries, Uncached place state path) :
    Coherent place clock { state with tree := deleteEntries state.tree entries } := by
  induction entries generalizing state with
  | nil => exact coherent
  | cons path rest ih =>
    have first := coherent.remove (uncached path List.mem_cons_self)
    exact ih first fun other member => uncached other (List.mem_cons_of_mem _ member)

theorem Coherent.removeAny {key : χ} {answer : DiskAnswer} (coherent : Coherent place clock state)
    (uncached : ∀ path ∈ removedEntries (place key) answer, Uncached place state path) :
    Coherent place clock (removeAny place state key answer) := by
  unfold ReadCache.removeAny
  split
  · exact coherent
  · exact coherent.deleteEntries uncached

theorem Coherent.rename {source target : Path} {tree : Tree Name Inode} (coherent : Coherent place clock state)
    (absent : state.tree.node target = none) (renamed : state.tree.rename source target = some tree)
    (uncached : Uncached place state source) : Coherent place clock { state with tree } := by
  have shape := Tree.rename_node renamed
  apply coherent.changeTree
  · intro key handle member
    have not_inside : ¬target <+: place key := by
      intro inside
      cases (coherent.uncached_of_absent absent key inside).symm.trans member
    have outside : ¬source <+: place key := by
      intro below
      cases (uncached key below).symm.trans member
    have not_above : ¬place key <+: target := coherent.not_above member fun above =>
      Tree.rename_free renamed above fun same => not_inside (same ▸ List.prefix_rfl)
    rw [shape, if_neg not_inside, if_neg outside, if_neg not_above]
  · intro other node file
    rw [shape] at file
    split at file
    · exact coherent.born _ node file
    split at file
    · cases file
    split at file
    · cases file
    · exact coherent.born other node file

theorem Coherent.graft {source target : Path} {tree : Tree Name Inode} (coherent : Coherent place state.clock state)
    (grafted : state.tree.graft source target (fun path _ => (state.clock, path)) = some tree) (answer : DiskAnswer) :
    Coherent place (state.clock + 1) { state with tree, contents := copiedContents state answer source target } := by
  refine ⟨?_, ?_, ?_⟩
  · intro key handle member
    exact Tree.graft_present grafted (coherent.cached key handle member)
  · intro key handle member
    have older := coherent.born _ _ (coherent.cached key handle member)
    have kept : copiedContents state answer source target handle.node = state.contents handle.node := by
      apply if_neg
      rintro ⟨fresh, -⟩
      exact absurd fresh (Nat.ne_of_lt older)
    have fits := coherent.fits key handle member
    rw [← kept] at fits
    exact fits
  · intro other node file
    rw [Tree.graft_node grafted] at file
    split at file
    · obtain ⟨before, -, same⟩ := Option.map_eq_some_iff.mp file
      cases before <;> cases same
      exact Nat.lt_succ_self _
    split at file
    · cases file
    · exact (coherent.born other node file).trans (Nat.lt_succ_self _)

theorem Coherent.transfer {source destination : χ} {copy : Bool} {answer : DiskAnswer} (coherent : Coherent place state.clock state)
    (spares : copy = true ∨ answer.native = false ∨ OnFile (state.tree.node (place source)) fun _ =>
      Uncached place state (place source)) :
    Coherent place (state.clock + 1) (vfsTransfer place state source destination copy answer) := by
  unfold vfsTransfer
  split
  next renames =>
    split
    next node tree file absent renamed =>
      have moving : OnFile (state.tree.node (place source)) fun _ => Uncached place state (place source) := by
        rcases spares with copies | apart | spared
        · exact absurd copies renames.2
        · rw [apart] at renames
          cases renames.1
        · exact spared
      exact (coherent.rename absent renamed (moving node file)).later
    next => exact coherent.later
  next =>
    split
    next => exact coherent.later
    next tree grafted =>
      have absent : state.tree.node (place destination) = none := Tree.graft_free grafted
      have copied := coherent.graft grafted answer
      apply copied.deleteEntries
      intro path member key below
      have inside : place destination <+: path := by simpa using (List.mem_filter.mp member).2
      exact coherent.uncached_of_absent absent key (inside.trans below)

theorem Coherent.setWriteHandles {writeHandles : η → Option (OpenedWrite χ)} (coherent : Coherent place clock state) :
    Coherent place clock { state with writeHandles } := ⟨coherent.cached, coherent.fits, coherent.born⟩

theorem makeDirs_file {tree : Tree Name Inode} {path : Path} {node : Inode}
    (made : state.tree.makeDirs path.dropLast = some tree) (file : tree.node path = some (.file node)) :
    state.tree.node path = some (.file node) := by
  rw [Tree.makeDirs_node made] at file
  split at file
  · cases file
  · exact file

section Writes

variable [DecidableEq χ] {key : χ} {refused : Bool}

theorem invalidateReadHandle_some {other : χ} {handle : CachedRead}
    (member : handle ∈ (invalidateReadHandle state key).readHandles other) : handle ∈ state.readHandles other := by
  obtain ⟨-, gone⟩ | ⟨-, member⟩ := of_update (fun cached => handle ∈ cached) member
  · cases gone
  · exact member

theorem Coherent.invalidate (coherent : Coherent place clock state) : Coherent place clock (invalidateReadHandle state key) :=
  ⟨fun other handle member => coherent.cached other handle (invalidateReadHandle_some member),
    fun other handle member => coherent.fits other handle (invalidateReadHandle_some member), coherent.born⟩

theorem Coherent.setLengthAt {length : Nat} (coherent : Coherent place clock state)
    (spares : refused = true ∨ OnFile (state.tree.node (place key)) fun node =>
      OthersFit state key node (setLen (state.contents node) length)) :
    Coherent place clock (vfsSetLengthAt place state key length refused) := by
  have invalidated : Coherent place clock (invalidateReadHandle state key) := coherent.invalidate
  unfold vfsSetLengthAt
  dsimp only
  split
  next node file =>
    cases refused with
    | true => exact invalidated
    | false => exact invalidated.setContents (spares.resolve_left Bool.false_ne_true node file)
  next => exact invalidated

theorem Coherent.writeThrough {id : η} {args : WriteArgs} (coherent : Coherent place clock state)
    (spares : refused = true ∨ WritesThrough state id args) : Coherent place clock (writeThrough state id args refused) := by
  unfold ReadCache.writeThrough
  split
  next => exact coherent
  next handle opened =>
    have invalidated : Coherent place clock (invalidateReadHandle state handle.key) := coherent.invalidate
    cases refused with
    | true => exact invalidated
    | false => exact invalidated.setContents (spares.resolve_left Bool.false_ne_true handle opened)

variable [DecidableEq η] {id : η}

theorem Coherent.openWrite {overwrite append : Bool} (coherent : Coherent place state.clock state)
    (spares : refused = true ∨ (overwrite = true → OnFile (state.tree.node (place key)) fun node => OthersFit state key node [])) :
    Coherent place (state.clock + 1) (vfsOpenWrite place state id key overwrite append refused) := by
  have invalidated : Coherent place state.clock (invalidateReadHandle state key) := coherent.invalidate
  unfold vfsOpenWrite
  dsimp only
  split
  next => exact invalidated.later
  next tree made =>
    have prepared := invalidated.makeDirs made
    split
    next => exact prepared.later
    next allowed =>
      split
      next => exact prepared.later
      next node file =>
        have fit := spares.resolve_left allowed
        cases overwrite with
        | true => exact (prepared.setContents (fit rfl node (makeDirs_file made file))).setWriteHandles.later
        | false => exact prepared.setWriteHandles.later
      next absent =>
        split
        next => exact prepared.later
        next node created made_file =>
          exact (Coherent.createFile prepared (prepared.uncached_of_absent absent) made_file).setWriteHandles

theorem Coherent.operate {event : Operation χ η × DiskAnswer} (coherent : Coherent place state.clock state)
    (spares : Spares place state event) : Coherent place (state.clock + 1) (operate place state event.2 event.1) := by
  obtain ⟨operation, answer⟩ := event
  have unless_refused {changed : DiskState χ η} (kept : answer.refused ≠ true → Coherent place (state.clock + 1) changed) :
      Coherent place (state.clock + 1) (if answer.refused then state else changed) := by
    split
    · exact coherent.later
    next allowed => exact kept allowed
  cases operation with
  | readFile key args => exact coherent.read.later
  | touchFile key => exact unless_refused fun allowed => coherent.touch (spares.resolve_left allowed)
  | openWrite id key overwrite append => exact coherent.openWrite spares
  | writeAt id offset data => exact (coherent.writeThrough spares).later
  | setLength id length => exact (coherent.writeThrough spares).later
  | setLengthAt key length => exact (coherent.setLengthAt spares).later
  | closeWrite id => exact coherent.setWriteHandles.later
  | removeFile key => exact (coherent.removeAny spares).later
  | removeDir key => exact (coherent.removeAny spares).later
  | transfer source destination copy => exact unless_refused fun allowed => coherent.transfer (spares.resolve_left allowed)

end Writes

/-! ### Runs -/

/-- As long as every request that changes the disk spares the cached readers, a read answers
with the file that is at the path now, or that there is none. A path that leads through a
file is answered otherwise. -/
theorem spared_reads_see_the_disk [DecidableEq χ] [DecidableEq η] (place : χ → Path) (disk : FileTree)
    (events : List (Operation χ η × DiskAnswer)) (state : DiskState χ η)
    (spared : Guarded (diskStep place) (Spares place) (mountDisk disk) events)
    (executed : run (diskStep place) (mountDisk disk) events = some state) (key : χ) (args : ReadArgs)
    (free : state.tree.blocked (place key).dropLast = false) :
    (vfsReadFile place state key args).1 = readPath place state key args := by
  have kept (before : DiskState χ η) (event : Operation χ η × DiskAnswer) (after : DiskState χ η)
      (coherent : Coherent place before.clock before) (spares : Spares place before event)
      (taken : diskStep place before event = some after) : Coherent place after.clock after := by
    cases taken
    have changed := coherent.operate spares
    exact ⟨changed.cached, changed.fits, changed.born⟩
  have first : Coherent place (mountDisk disk : DiskState χ η).clock (mountDisk disk : DiskState χ η) := Coherent.initial place disk
  exact (guarded_invariant kept first spared executed).read_answer free

def note : Name := ⟨"note".toList, by decide⟩

/-- One file, `/note`. -/
def noteDisk : FileTree where
  node path := if path = [] then some .dir else if path = [note] then some (.file [1, 2, 3]) else none
  parent path name present := by
    split at present
    next same => simp at same
    split at present
    next same =>
      have top : path = [] := List.append_eq_singleton_iff.mp same |>.elim And.left fun wrong => absurd wrong.2 (by simp)
      rw [if_pos top]
    next => exact absurd rfl present

def readNote : Operation Unit Unit × DiskAnswer := (.readFile () ⟨0, 10⟩, {})

def appendToNote : List (Operation Unit Unit × DiskAnswer) :=
  [readNote, (.openWrite () () false true, {}), readNote, (.writeAt () 0 [4], {}), (.closeWrite (), {})]

/-- A reader is cached before and during the write. -/
theorem reader_sees_the_appended_byte : ∃ state : DiskState Unit Unit,
    run (diskStep fun _ => [note]) (mountDisk noteDisk) appendToNote = some state ∧
    (vfsReadFile (fun _ => [note]) state () ⟨0, 10⟩).1 = .ok [1, 2, 3, 4] := by
  refine ⟨_, rfl, ?_⟩
  rw [spared_reads_see_the_disk (fun _ => [note]) noteDisk appendToNote _ (by decide) rfl () ⟨0, 10⟩ rfl]
  rfl

/-- RemoveFile leaves the cached reader alone, and the next read answers from the removed
file. -/
theorem removed_file_is_still_read : ∃ state : DiskState Unit Unit,
    run (diskStep fun _ => [note]) (mountDisk noteDisk) [readNote, (.removeFile (), {})] = some state ∧
    readPath (fun _ => [note]) state () ⟨0, 10⟩ = .error noSuchFile ∧
    (vfsReadFile (fun _ => [note]) state () ⟨0, 10⟩).1 = .ok [1, 2, 3] := ⟨_, rfl, rfl, rfl⟩

end Vaulton.Proofs.ReadCache
