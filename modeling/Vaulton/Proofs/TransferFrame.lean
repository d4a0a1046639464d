import Vaulton.Proofs.TransferJob

/-! What a job touches, and what it does not notice. Its steps change the destination and,
at the end of a move, the source; changes away from both ends leave it at the same stage
in another storage that it could have started from. -/

namespace Vaulton.Proofs.TransferJob
open Vaulton.Lib Vaulton.Config Vaulton.Transfer

/-! ### What one job touches -/

section Touches

variable {plan : TransferPlan} {before storage : Storage} {src dst : Place} {answer : Answer}

/-- A step changes nothing but the destination, missing directories above it and, when it
moves the source, the source. -/
def Touches (moves : Prop) (src dst : Place) (before after : Storage) : Prop :=
  ∀ place, nodeAt after place = nodeAt before place ∨ Under dst place ∨ moves ∧ Under src place ∨
    Under place dst ∧ nodeAt after place = some .dir ∧ isFile (nodeAt before place) = false

theorem Touches.refl (moves : Prop) (src dst : Place) (storage : Storage) : Touches moves src dst storage storage :=
  fun _ => .inl rfl

theorem Touches.grows {moves : Prop} {after : Storage} {target : Place} (grows : Grows storage after target)
    (inside : Under dst target) : Touches moves src dst storage after := by
  intro place
  rcases grows place with same | rfl | ⟨above, made, free⟩
  · exact .inl same
  · exact .inr (.inl inside)
  · rcases above.comparable inside with higher | lower
    · exact .inr (.inr (.inr ⟨higher, made, free⟩))
    · exact .inr (.inl lower)

theorem Touches.cleanup {moves : Prop} {after : Storage} (shrinks : Shrinks storage after dst) :
    Touches moves src dst storage after := by
  intro place
  rcases shrinks place with same | ⟨under, -⟩
  · exact .inl same
  · exact .inr (.inl under)

theorem Touches.renamed {moves : Prop} {operator : Operator} {source destination : Text} {after : Storage} (holds : moves)
    (found : locate operator source = some src) (target : locate operator destination = some dst)
    (moved : rename operator storage source destination = some after) : Touches moves src dst storage after := by
  unfold rename at moved
  rw [found, target] at moved
  simp only at moved
  split at moved
  next same =>
    obtain ⟨tree, renamed, node⟩ := modify_node moved
    intro place
    rw [node, Tree.rename_node renamed]
    by_cases here : place.1 = src.1
    · by_cases inside : dst.2 <+: place.2
      · exact .inr (.inl ⟨here.trans same, inside⟩)
      · by_cases source : src.2 <+: place.2
        · exact .inr (.inr (.inl ⟨holds, here, source⟩))
        · by_cases above : place.2 <+: dst.2
          · refine .inr (.inr (.inr ⟨⟨(here.trans same).symm, above⟩, by simp [here, inside, source, above], ?_⟩))
            rw [nodeAt, here]
            exact Tree.rename_free renamed above fun equal => inside (equal ▸ List.prefix_rfl)
          · exact .inl (by simp [here, inside, source, above, nodeAt])
    · exact .inl (by simp [here])
  next => cases moved

/-- What one turn of a job does to the storage. The source is touched only when it is
renamed. -/
theorem Stage.touches {pc following : TransferPc} {after : Storage} (planned : Planned plan before src dst)
    (stage : Stage plan before src dst storage pc) (turn : Turn plan answer storage pc after following) :
    Touches (Renames plan ∧ following = .returned none) src dst storage after := by
  cases stage with
  | waiting first =>
    rcases first with rfl | rfl | ⟨rfl, native, move⟩
    · cases turn <;> exact .refl _ _ _ _
    · cases turn with
      | opened directory created => exact .grows (createDir_grows planned.destination created).1 (.refl dst)
      | notOpened error => exact .grows (failedCreateDir_grows planned.destination) (.refl dst)
      | single file => exact .refl _ _ _ _
    · cases turn with
      | renamed file moved =>
        exact .renamed ⟨⟨native, move, planned.not_directory file⟩, rfl⟩ planned.source
          (planned.native native ▸ planned.destination) moved
      | fallback => exact .refl _ _ _ _
      | notRenamed error => exact .refl _ _ _ _
  | entries loop copying =>
    cases turn with
    | directory path more isDir created =>
      obtain ⟨rel, -, -, -, -, located⟩ := planned.listed_entry loop path
      exact .grows (createDir_grows located created).1 (under_below dst rel)
    | noDirectory path more error =>
      obtain ⟨rel, -, -, -, -, located⟩ := planned.listed_entry loop path
      exact .grows (failedCreateDir_grows located) (under_below dst rel)
    | copied copy => exact .refl _ _ _ _
    | moves move => exact .refl _ _ _ _
    | stopped error => exact .refl _ _ _ _
    | root listed => exact .refl _ _ _ _
    | file path more isFile => exact .refl _ _ _ _
  | @copyOne _ file rest current content loop one copying =>
    have inside := under_below dst current
    cases turn with
    | nativeCopy native copied =>
      obtain ⟨found, read, written⟩ := Option.bind_eq_some_iff.mp copied
      exact .grows (writeFile_grows (planned.native native ▸ one.destination) written).1 inside
    | streams => exact .refl _ _ _ _
    | copyFailed error => exact .grows (failedWrite_grows one.destination) inside
  | @read _ file rest current content written loop one so_far copying =>
    have inside := under_below dst current
    cases turn with
    | closed all put => exact .grows (writeFile_grows one.destination put).1 inside
    | filled read front => exact .refl _ _ _ _
    | readFailed error => exact .grows (failedWrite_grows one.destination) inside
  | @write _ file rest current content written buffer loop one so_far copying =>
    have inside := under_below dst current
    cases turn with
    | wrote put => exact .grows (writeFile_grows one.destination put).1 inside
    | writeFailed error => exact .grows (failedWrite_grows one.destination) inside
  | cleanup framed =>
    cases turn with
    | cleaned error => exact .cleanup (deleteRecursive_shrinks _ _ planned.destination)
  | deleteSource move framed complete empty =>
    have same := (planned.source_stays answer framed complete empty).1
    cases turn with
    | cancelled error => exact .refl _ _ _ _
    | deleted | notDeleted error => exact same.symm ▸ .refl _ _ _ _
  | succeeded => cases turn
  | failed => cases turn

/-- One of the two places lies at or below the other. -/
def Overlap (first second : Place) : Prop := Under first second ∨ Under second first

instance (first second : Place) : Decidable (Overlap first second) := inferInstanceAs (Decidable (_ ∨ _))

theorem Touches.elsewhere {moves : Prop} {src dst used place : Place} {before after : Storage}
    (touches : Touches moves src dst before after) (destination : ¬Overlap dst used) (source : moves → ¬Overlap src used)
    (under : Under used place) : nodeAt after place = nodeAt before place := by
  rcases touches place with same | inside | ⟨holds, inside⟩ | ⟨above, -⟩
  · exact same
  · exact absurd (inside.comparable under) destination
  · exact absurd (inside.comparable under) (source holds)
  · exact absurd (.inr (above.trans under)) destination

end Touches

/-! ### The same job in another storage -/

section Rebase

variable {plan : TransferPlan} {before storage after fresh origin : Storage} {src dst : Place} {pc : TransferPc}

/-- The storage without anything at or below a place. -/
def without (storage : Storage) (dst : Place) : Storage :=
  Function.update storage dst.1 ((storage dst.1).remove dst.2)

theorem without_node (storage : Storage) (dst place : Place) :
    nodeAt (without storage dst) place = if Under dst place then none else nodeAt storage place := by
  unfold without nodeAt
  by_cases same : place.1 = dst.1
  · rw [same, Function.update_self]
    simp [Tree.remove, Under, same]
  · rw [Function.update_of_ne same]
    simp [Under, same]

theorem without_framed (storage : Storage) (dst : Place) : Framed (without storage dst) storage dst := by
  intro place outside
  rw [without_node, if_neg outside]
  exact .inl rfl

theorem Framed.source (framed : Framed before storage dst) (planned : Planned plan before src dst) :
    SourceUnchanged before storage src := by
  cases kind : plan.srcIsDir with
  | true => exact framed.sourceUnchanged planned (planned.directory kind).2.1
  | false =>
    obtain ⟨content, found, -⟩ := planned.file kind
    have kept : nodeAt storage src = some (.file content) := by
      rw [framed.present planned.absent planned.sourcePresent, found]
    intro place under
    by_cases same : src = place
    · rw [← same, kept, found]
    · have below_file {storage : Storage} (file : nodeAt storage src = some (.file content)) : nodeAt storage place = none := by
        by_contra present
        rw [nodeAt_ancestor present under same] at file
        cases file
      rw [below_file kept, below_file found]

theorem occupied_congr {root : Place} (same : ∀ rel, nodeAt fresh (below root rel) = nodeAt before (below root rel)) :
    Occupied fresh root ↔ Occupied before root := by
  simp only [Occupied, same]

theorem Planned.rebase (planned : Planned plan before src dst)
    (source : ∀ place, Under src place → nodeAt fresh place = nodeAt before place) (absent : nodeAt fresh dst = none) :
    Planned plan fresh src dst := by
  have root : nodeAt fresh src = nodeAt before src := source src (.refl src)
  have inside (rel : Path) : nodeAt fresh (below src rel) = nodeAt before (below src rel) := source _ (under_below src rel)
  refine ⟨⟨planned.source, planned.destination, planned.sourceBelow, planned.destinationBelow, ?_, planned.slashed, ?_,
    planned.native⟩, absent⟩
  · intro kind
    obtain ⟨directory, outside, listing⟩ := planned.directory kind
    refine ⟨root.trans directory, outside, ⟨?_, ?_⟩⟩
    · intro entry member
      simp only [occupied_congr inside, inside]
      exact listing.sound entry member
    · rw [occupied_congr inside]
      exact listing.rooted
  · rw [root]
    exact planned.file

theorem Copying.rebase {pending : Prop} {hole : Option Path} (copying : Copying before storage src dst pending hole)
    (source : ∀ rel, nodeAt fresh (below src rel) = nodeAt before (below src rel))
    (destination : ∀ rel, nodeAt after (below dst rel) = nodeAt storage (below dst rel))
    (framed : Framed fresh after dst) : Copying fresh after src dst pending hole := by
  refine ⟨framed, ?_, ?_⟩
  · intro rel different
    rw [destination, source]
    exact copying.mirrors rel different
  · intro rel present
    rw [source] at present
    rw [destination, source]
    exact copying.reached rel present

theorem Loop.rebase {rest : List Entry} (loop : Loop plan before src rest)
    (source : ∀ rel, nodeAt fresh (below src rel) = nodeAt before (below src rel)) : Loop plan fresh src rest :=
  ⟨loop.included, loop.directory, fun kind occupied => loop.unexpected kind ((occupied_congr source).mp occupied)⟩

theorem OneFile.rebase {file : FileCopy} {current : Path} {content : Bytes}
    (one : OneFile plan before src dst file current content)
    (source : ∀ rel, nodeAt fresh (below src rel) = nodeAt before (below src rel)) :
    OneFile plan fresh src dst file current content :=
  ⟨one.source, one.destination, (source current).trans one.found, one.len⟩

theorem Stage.framed (stage : Stage plan before src dst storage pc) (running : ∀ result, pc ≠ .returned result) :
    Framed before storage dst := by
  cases stage with
  | waiting first => exact .refl _ _
  | entries loop copying => exact copying.framed
  | copyOne loop one copying => exact copying.framed
  | read loop one so_far copying => exact copying.framed
  | write loop one so_far copying => exact copying.framed
  | cleanup framed => exact framed
  | deleteSource move framed complete empty => exact framed
  | succeeded => exact absurd rfl (running _)
  | failed => exact absurd rfl (running _)

/-- The job is at this stage in some storage that it could have started from, with the
source it was asked to transfer. -/
def Active (origin storage : Storage) (plan : TransferPlan) (pc : TransferPc) (src dst : Place) : Prop :=
  ∃ before, Planned plan before src dst ∧ Stage plan before src dst storage pc ∧
    ∀ place, Under src place → nodeAt before place = nodeAt origin place

theorem Active.rebase (active : Active origin storage plan pc src dst) (running : ∀ result, pc ≠ .returned result)
    (source : ∀ place, Under src place → nodeAt after place = nodeAt storage place)
    (destination : ∀ place, Under dst place → nodeAt after place = nodeAt storage place) :
    Active origin after plan pc src dst := by
  obtain ⟨before, planned, stage, original⟩ := active
  have framed := stage.framed running
  have unchanged (place : Place) (under : Under src place) : nodeAt after place = nodeAt before place :=
    (source place under).trans (framed.source planned place under)
  have apart (place : Place) (under : Under src place) : nodeAt (without after dst) place = nodeAt before place := by
    rw [without_node]
    split
    next both =>
      have absent : nodeAt before place = none := absent_under planned.absent both
      rw [absent]
    next => exact unchanged place under
  have cut : Planned plan (without after dst) src dst :=
    planned.rebase apart (by rw [without_node, if_pos (Under.refl dst)])
  have inside (rel : Path) := apart _ (under_below src rel)
  have mirrored (rel : Path) := destination _ (under_below dst rel)
  have around := without_framed after dst
  have same (place : Place) (under : Under src place) : nodeAt (without after dst) place = nodeAt origin place :=
    (apart place under).trans (original place under)
  cases stage with
  | waiting first =>
    refine ⟨after, planned.rebase unchanged ?_, .waiting first, fun place under => (unchanged place under).trans (original place under)⟩
    rw [destination dst (.refl dst)]
    exact planned.absent
  | entries loop copying => exact ⟨_, cut, .entries (loop.rebase inside) (copying.rebase inside mirrored around), same⟩
  | copyOne loop one copying =>
    exact ⟨_, cut, .copyOne (loop.rebase inside) (one.rebase inside) (copying.rebase inside mirrored around), same⟩
  | read loop one so_far copying =>
    exact ⟨_, cut, .read (loop.rebase inside) (one.rebase inside) so_far (copying.rebase inside mirrored around), same⟩
  | write loop one so_far copying =>
    exact ⟨_, cut, .write (loop.rebase inside) (one.rebase inside) so_far (copying.rebase inside mirrored around), same⟩
  | cleanup _ => exact ⟨_, cut, .cleanup around, same⟩
  | deleteSource move _ complete empty =>
    refine ⟨_, cut, .deleteSource move around ?_ (mt (occupied_congr inside).mp empty), same⟩
    intro rel
    rw [mirrored, inside]
    exact complete rel
  | succeeded => exact absurd rfl (running _)
  | failed => exact absurd rfl (running _)

end Rebase

end Vaulton.Proofs.TransferJob
