import Vaulton.Proofs.Transfer
import Vaulton.SharedDisk

/-! Moves of directories on a disk that points share. The copy of a directory goes down to
its last entry only if there is none, so a move that returns well has moved an empty
directory, wherever the two points have their roots. -/

namespace Vaulton.Proofs.SharedDisk
open Vaulton.Lib Vaulton.Config Vaulton.Paths Vaulton.Transfer Vaulton.SharedDisk
open Vaulton.Proofs.Config Vaulton.Proofs.Paths Vaulton.Proofs.TransferJob Vaulton.Proofs.Transfer

/-- Every file of the source is in the destination. -/
def Arrived (before after : Storage) (src dst : Place) : Prop :=
  ∀ rel content, nodeAt before (below src rel) = some (.file content) → nodeAt after (below dst rel) = some (.file content)

variable {roots : Roots} {others : Storage} {disk : FileTree} {plan : TransferPlan} {src dst : Place}
  {state next : DiskState} {answer : Answer}

/-- A step of a job on the disk is a turn of the job on what its points see. -/
theorem diskStep_turn (taken : diskStep roots others plan state answer = some next) :
    ∃ storage, Turn plan answer (view roots others state.disk) state.pc storage next.pc := by
  obtain ⟨result, moved, rfl⟩ := Option.map_eq_some_iff.mp taken
  exact ⟨result.storage, transferStep_turn moved⟩

/-- A directory whose job has returned well had nothing in it. -/
theorem moved_directory_empty (ends : Ends plan (view roots others disk) src dst) (directory : plan.srcIsDir = true)
    {events : List Answer} (executed : run (diskStep roots others plan) (diskStart disk) events = some state)
    (returned : state.pc = .returned none) : ¬Occupied (view roots others disk) src := by
  intro occupied
  have listed := (ends.directory directory).2.2.unexpected occupied
  have doomed : Doomed plan state.pc := by
    apply run_invariant (fun state => Doomed plan state.pc) _ (show Doomed plan .recheck from trivial) executed
    intro state answer next doomed taken
    obtain ⟨storage, turn⟩ := diskStep_turn taken
    exact doomed.turn directory (ends.slashed.mpr directory) listed turn
  rw [returned] at doomed
  exact doomed

/-- After a transfer of a directory that has returned well, every file that was in the directory
is in the destination, also where the roots of two points are the same directory of the disk
or lie inside one another. -/
theorem moved_files_arrive (request users : List VfsUser) (accepted : normalizeVfsUsers request = .ok users)
    (failed : VfsPoint → Option String) (parseUuid : Text → Option Uuid) (directory : Text → Path) (others : Storage)
    (disk : FileTree)
    (rooted : ∀ point ∈ allPoints users, failed point = none →
      nodeAt (view (localRoots directory users) others disk) (point.id, []) = some .dir)
    (answers : RequestAnswers) (args : TransferArgs) (plan : TransferPlan)
    (built : vfsTransfer ⟨users, failed, parseUuid⟩ (view (localRoots directory users) others disk) answers args = .ok plan)
    (isDirectory : plan.srcIsDir = true)
    (listed : ∀ src, locate plan.srcOp plan.srcPath = some src →
      Lists (view (localRoots directory users) others disk) src (withSlash plan.srcPath) plan.entries)
    (events : List Answer) (final : DiskState)
    (executed : run (diskStep (localRoots directory users) others plan) (diskStart disk) events = some final)
    (returned : final.pc = .returned none) :
    ∃ src dst, locate plan.srcOp plan.srcPath = some src ∧ locate plan.dstOp plan.dstPath = some dst ∧
      Arrived (view (localRoots directory users) others disk) (view (localRoots directory users) others final.disk) src dst := by
  obtain ⟨src, dst, ends, -⟩ := vfsTransfer_ends built (normalizeVfsUsers_named accepted) (normalizeVfsUsers_ids accepted)
    (fun point member loaded => rooted point member (Option.isNone_iff_eq_none.mp loaded)) (fun src _ => listed src)
  refine ⟨src, dst, ends.source, ends.destination, ?_⟩
  intro rel content found
  have empty := moved_directory_empty ends.toEnds isDirectory executed returned
  by_cases itself : rel = []
  · rw [itself, show below src [] = src by simp [below], (ends.directory isDirectory).1] at found
    cases found
  · exact absurd ⟨rel, itself, by simp [found]⟩ empty

def srv : Name := ⟨"srv".toList, by decide⟩

/-- One point is `/srv`, the other is a directory of it. -/
def dave : VfsUser := ⟨"dave".toList,
  [{ localPoint 1 "old" with config := [("root".toList, "/srv".toList)] },
    { localPoint 2 "new" with config := [("root".toList, "/srv/photos".toList)] }]⟩

/-- The photos in `/srv`. -/
def photoDisk : FileTree := emptyTree.replace [srv] photoTree

def daveView (disk : FileTree) : Storage := view (localRoots segments [dave]) (fun _ => emptyTree) disk

def moveInside : TransferArgs where
  oldPath := some ⟨"dave".toList, .virtual "points/old/photos/empty".toList⟩
  newPath := some ⟨"dave".toList, .virtual "points/new/best".toList⟩
  copy := false

def insidePlan : TransferPlan where
  srcOp := photoMounts
  dstOp := photoMounts
  srcPath := "/points/old/photos/empty/".toList
  dstPath := "/points/new/best/".toList
  srcIsDir := true
  entries := []
  totalBytes := 0
  copy := false
  native := false
  localQuota := some ⟨"/srv/photos".toList, "best".toList, some 100⟩

theorem empty_listed : Lists (daveView photoDisk) (1, [photos, empty]) (withSlash insidePlan.srcPath) [] where
  sound entry member := by cases member
  rooted occupied := by
    obtain ⟨rel, nonempty, present⟩ := occupied
    obtain ⟨first, rest, rfl⟩ := List.exists_cons_of_ne_nil nonempty
    refine absurd ?_ present
    have mounted : localRoots segments [dave] 1 = some [srv] := by decide +kernel
    change (view (localRoots segments [dave]) (fun _ => emptyTree) photoDisk 1).node ([photos, empty] ++ first :: rest) = none
    unfold view
    rw [mounted]
    dsimp only
    rw [Tree.subtree_node, photoDisk, Tree.replace_inside]
    simp [photoTree]

/-- The empty directory is moved beside itself on the disk, from the one point to the other. -/
theorem empty_directory_arrives : ∃ final : DiskState,
    run (diskStep (localRoots segments [dave]) (fun _ => emptyTree) insidePlan) (diskStart photoDisk) [{}, {}, {}, {}] = some final ∧
      final.pc = .returned none ∧ nodeAt (daveView final.disk) (2, [best]) = some .dir ∧
      Arrived (daveView photoDisk) (daveView final.disk) (1, [photos, empty]) (2, [best]) := by
  have finished : (run (diskStep (localRoots segments [dave]) (fun _ => emptyTree) insidePlan) (diskStart photoDisk)
      [{}, {}, {}, {}]).map (fun final => (final.pc, nodeAt (daveView final.disk) (2, [best]))) =
      some (.returned none, some .dir) := by decide +kernel
  obtain ⟨final, executed, outcome⟩ := Option.map_eq_some_iff.mp finished
  obtain ⟨returned, made⟩ := Prod.mk.inj outcome
  have rooted : ∀ point ∈ allPoints [dave], none = (none : Option String) →
      nodeAt (daveView photoDisk) (point.id, []) = some .dir := by
    decide +kernel
  have planned : vfsTransfer ⟨[dave], fun _ => none, fun _ => none⟩ (daveView photoDisk) (photoAnswers []) moveInside =
      .ok insidePlan := planned_of_toOption (by decide +kernel)
  have found : locate insidePlan.srcOp insidePlan.srcPath = some (1, [photos, empty]) := by decide +kernel
  have target : locate insidePlan.dstOp insidePlan.dstPath = some (2, [best]) := by decide +kernel
  obtain ⟨src, dst, source, destination, arrived⟩ := moved_files_arrive [dave] [dave] rfl (fun _ => none) (fun _ => none)
    segments (fun _ => emptyTree) photoDisk rooted (photoAnswers []) moveInside insidePlan planned rfl (by
      intro src located
      cases found.symm.trans located
      exact empty_listed) [{}, {}, {}, {}] final executed returned
  cases found.symm.trans source
  cases target.symm.trans destination
  exact ⟨final, executed, returned, made, arrived⟩

end Vaulton.Proofs.SharedDisk
