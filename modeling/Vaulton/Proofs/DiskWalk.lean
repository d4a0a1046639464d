import Vaulton.DiskWalk
import Vaulton.LocalQuota
import Vaulton.Proofs.RelativePaths

/-! The walks on a directory tree. Whatever the order in which the disk yields the entries, a
walk sees every item of the tree once; what it returns follows from that. -/

namespace Vaulton.Proofs.DiskWalk
open Vaulton.Lib Vaulton.Config Vaulton.Paths Vaulton.Transfer Vaulton.DiskWalk
open Vaulton.Proofs.Config Vaulton.Proofs.RelativePaths

/-! ### Trees -/

/-- A directory inside `dir`, with its path. -/
def subdirectory (dir : Text) : FsItem → Option (Text × List FsItem)
  | .dir name items => some (push dir name, items)
  | .file _ _ | .symlink _ => none

theorem directoriesIn_eq (dir : Text) (items : List FsItem) :
    directoriesIn dir items = (items.filterMap (subdirectory dir)).flatMap directories := by
  induction items with
  | nil => rfl
  | cons item later ih =>
    rw [directoriesIn, ih]
    cases item with
    | file name len => rfl
    | symlink name => rfl
    | dir name inside => simp [FsItem.directories, subdirectory, directories]

def diskForest : Forest (Text × List FsItem) where
  children dir := dir.2.filterMap (subdirectory dir.1)
  nodes := directories
  nodes_eq dir := by rw [directories, directoriesIn_eq]

theorem mem_children {dir child : Text × List FsItem} :
    child ∈ diskForest.children dir ↔ ∃ name, .dir name child.2 ∈ dir.2 ∧ child.1 = push dir.1 name := by
  obtain ⟨path, inside⟩ := child
  simp only [diskForest, List.mem_filterMap]
  constructor
  · intro ⟨item, member, found⟩
    cases item with
    | dir name items =>
      simp only [subdirectory, Option.some.injEq, Prod.mk.injEq] at found
      obtain ⟨rfl, rfl⟩ := found
      exact ⟨name, member, rfl⟩
    | file name len => cases found
    | symlink name => cases found
  · intro ⟨name, member, same⟩
    exact ⟨.dir name inside, member, by rw [subdirectory, same]⟩

/-- What lies in the directory, at any depth. -/
def allItems (dir : Text × List FsItem) : List FsItem := (directories dir).flatMap Prod.snd

def itemLen : FsItem → Nat
  | .file _ len => len
  | .symlink _ | .dir _ _ => 0

mutual
theorem size_eq (dir : Text) (item : FsItem) :
    item.size = itemLen item + (((item.directories dir).flatMap Prod.snd).map itemLen).sum := by
  cases item with
  | file name len => simp [FsItem.size, itemLen, FsItem.directories]
  | symlink name => simp [FsItem.size, itemLen, FsItem.directories]
  | dir name items =>
    rw [FsItem.size, treeSize_eq (push dir name) items]
    simp [itemLen, FsItem.directories]
termination_by structural item

theorem treeSize_eq (dir : Text) (items : List FsItem) :
    treeSize items = (items.map itemLen).sum + (((directoriesIn dir items).flatMap Prod.snd).map itemLen).sum := by
  cases items with
  | nil => rfl
  | cons item later =>
    rw [treeSize, size_eq dir item, treeSize_eq dir later]
    simp only [directoriesIn, List.flatMap_append, List.map_append, List.sum_append, List.map_cons, List.sum_cons]
    omega
termination_by structural items
end

theorem treeSize_allItems (dir : Text × List FsItem) : treeSize dir.2 = ((allItems dir).map itemLen).sum := by
  rw [treeSize_eq dir.1, allItems, directories, List.flatMap_cons, List.map_append, List.sum_append]

theorem AtAnyDepth.held {item : FsItem} {items : List FsItem} (below : AtAnyDepth item items) (path : Text) :
    ∃ holder ∈ directories (path, items), item ∈ holder.2 := by
  induction below generalizing path with
  | here member => exact ⟨(path, _), diskForest.self_mem _, member⟩
  | @deeper items name inside member _ ih =>
    obtain ⟨holder, within, held⟩ := ih (push path name)
    have pushed : (push path name, inside) ∈ diskForest.children (path, items) := mem_children.mpr ⟨name, member, rfl⟩
    exact ⟨holder, diskForest.nodes_of_child pushed within, held⟩

theorem atAnyDepth_iff {item : FsItem} {dir : Text × List FsItem} : AtAnyDepth item dir.2 ↔ item ∈ allItems dir := by
  rw [allItems, List.mem_flatMap]
  constructor
  · intro below
    exact AtAnyDepth.held below dir.1
  · intro ⟨holder, within, held⟩
    refine diskForest.nodes_induction (fun holder => ∀ item, AtAnyDepth item holder.2 → AtAnyDepth item dir.2) ?_
      (fun _ below => below) within item (.here held)
    intro node child lifts pushed item below
    obtain ⟨name, member, -⟩ := mem_children.mp pushed
    exact lifts item (.deeper member below)

/-! ### Trees that a disk can hold -/

def itemName : FsItem → Text
  | .file name _ | .symlink name | .dir name _ => name

/-- In every directory the names differ, and each can stand in a path. -/
inductive Proper : List FsItem → Prop where
  | intro {items} (distinct : (items.map itemName).Nodup) (plain : ∀ item ∈ items, PlainSegment (itemName item))
      (inside : ∀ name inner, .dir name inner ∈ items → Proper inner) : Proper items

section Proper

variable {dir child node : Text × List FsItem}

theorem Proper.inner (proper : Proper dir.2) (pushed : child ∈ diskForest.children dir) : Proper child.2 := by
  obtain ⟨name, member, -⟩ := mem_children.mp pushed
  obtain ⟨-, -, inside⟩ := proper
  exact inside name child.2 member

theorem components_subdirectory (proper : Proper dir.2) {name : Text} {inner : List FsItem} (member : .dir name inner ∈ dir.2) :
    components (push dir.1 name) = components dir.1 ++ [.normal name] := by
  obtain ⟨-, plain, -⟩ := proper
  exact components_push dir.1 (plain _ member)

theorem components_below (proper : Proper dir.2) (within : node ∈ directories dir) : components dir.1 <+: components node.1 := by
  have both := diskForest.nodes_induction (fun node => Proper node.2 ∧ components dir.1 <+: components node.1) ?_
    ⟨proper, List.prefix_refl _⟩ within
  · exact both.2
  · intro node child holds pushed
    refine ⟨holds.1.inner pushed, ?_⟩
    obtain ⟨name, member, same⟩ := mem_children.mp pushed
    rw [same, components_subdirectory holds.1 member]
    exact holds.2.trans (List.prefix_append _ _)

theorem name_of_path (proper : Proper dir.2) {name other : Text} {inner inner' : List FsItem} {node' : Text × List FsItem}
    (first : .dir name inner ∈ dir.2) (second : .dir other inner' ∈ dir.2) (within : node ∈ directories (push dir.1 name, inner))
    (within' : node' ∈ directories (push dir.1 other, inner')) (same : node'.1 = node.1) : name = other := by
  have above := components_below (proper.inner (mem_children.mpr ⟨name, first, rfl⟩)) within
  have above' := components_below (proper.inner (mem_children.mpr ⟨other, second, rfl⟩)) within'
  rw [components_subdirectory proper first] at above
  rw [same, components_subdirectory proper second] at above'
  have equal := (List.prefix_of_prefix_length_le above above' (by simp)).eq_of_length (by simp)
  simpa using equal

theorem path_not_below (proper : Proper dir.2) (pushed : child ∈ diskForest.children dir) (within : node ∈ directories child) :
    node.1 ≠ dir.1 := by
  intro same
  have above := components_below (proper.inner pushed) within
  obtain ⟨name, member, path⟩ := mem_children.mp pushed
  rw [same, path, components_subdirectory proper member] at above
  have short := above.length_le
  rw [List.length_append, List.length_singleton] at short
  omega

theorem paths_nodup (proper : Proper dir.2) : ((directories dir).map Prod.fst).Nodup := by
  refine diskForest.induction (fun dir => Proper dir.2 → ((directories dir).map Prod.fst).Nodup) ?_ dir proper
  intro dir ih proper
  rw [show directories dir = dir :: (diskForest.children dir).flatMap directories from diskForest.nodes_eq dir,
    List.map_cons, List.nodup_cons, List.map_flatMap, List.nodup_flatMap]
  refine ⟨?_, ?_, ?_⟩
  · intro again
    obtain ⟨child, pushed, again⟩ := List.mem_flatMap.mp again
    obtain ⟨node, within, same⟩ := List.mem_map.mp again
    exact path_not_below proper pushed within same
  · intro child pushed
    exact ih child pushed (proper.inner pushed)
  · have distinct : dir.2.Pairwise fun first second => itemName first ≠ itemName second := by
      obtain ⟨distinct, -, -⟩ := proper
      exact List.pairwise_map.mp distinct
    refine List.pairwise_filterMap.mpr (distinct.imp_of_mem ?_)
    intro first second firstIn secondIn different left leftFound right rightFound path leftWithin rightWithin
    obtain ⟨node, within, rfl⟩ := List.mem_map.mp leftWithin
    obtain ⟨node', within', same⟩ := List.mem_map.mp rightWithin
    cases first with
    | file name len => cases leftFound
    | symlink name => cases leftFound
    | dir name inner =>
      cases second with
      | file name len => cases rightFound
      | symlink name => cases rightFound
      | dir other inner' =>
        cases leftFound
        cases rightFound
        exact different (name_of_path proper firstIn secondIn within within' same)

/-- How a disk shows an item. -/
def shown : FsItem → DirEntry
  | .file name len => ⟨name, .ok .file, .ok len⟩
  | .symlink name => ⟨name, .ok .symlink, .ok 0⟩
  | .dir name _ => ⟨name, .ok .dir, .ok 0⟩

/-- A disk with the directory and nothing else, which yields the items of a directory as they
are arranged. -/
def diskOf (arrange : Text → List FsItem → List FsItem) (dir : Text × List FsItem) : Disk := fun path =>
  match (directories dir).find? fun held => held.1 = path with
  | some held => .ok (((arrange path held.2).map shown).map .ok)
  | none => .error ⟨.notFound, "No such file or directory (os error 2)"⟩

theorem describes_shown (item : FsItem) : Describes (shown item) item := by
  cases item with
  | file name len => exact ⟨rfl, rfl, rfl⟩
  | symlink name => exact ⟨rfl, rfl⟩
  | dir name items => exact ⟨rfl, rfl⟩

theorem diskOf_read (arrange : Text → List FsItem → List FsItem) (proper : Proper dir.2) (within : node ∈ directories dir) :
    diskOf arrange dir node.1 = .ok (((arrange node.1 node.2).map shown).map .ok) := by
  obtain ⟨held, found⟩ : ∃ held, ((directories dir).find? fun held => held.1 = node.1) = some held := by
    rw [← Option.isSome_iff_exists, List.find?_isSome]
    exact ⟨node, within, by simp⟩
  have same : held.1 = node.1 := by simpa using List.find?_some found
  have equal := List.inj_on_of_nodup_map (paths_nodup proper) (List.mem_of_find?_eq_some found) within same
  rw [diskOf, found, equal]

/-- Every proper tree is on some disk, whatever the order of the entries is to be. -/
theorem onDisk_diskOf {arrange : Text → List FsItem → List FsItem} (orders : ∀ path items, (arrange path items).Perm items)
    (proper : Proper dir.2) : OnDisk (diskOf arrange dir) dir := by
  refine diskForest.induction (fun node => directories node ⊆ directories dir → OnDisk (diskOf arrange dir) node) ?_ dir
    (List.Subset.refl _)
  intro node ih within
  have described : List.Forall₂ Describes ((arrange node.1 node.2).map shown) (arrange node.1 node.2) := by
    rw [List.forall₂_map_left_iff, List.forall₂_same]
    intro item _
    exact describes_shown item
  refine .intro (diskOf_read arrange proper (within (diskForest.self_mem node))) described (orders node.1 node.2) ?_
  intro name inner member
  have pushed : (push node.1 name, inner) ∈ diskForest.children node := mem_children.mpr ⟨name, member, rfl⟩
  exact ih _ pushed (List.Subset.trans (diskForest.nodes_of_child pushed) within)

end Proper

/-! ### What a walk sees -/

section Walk

variable {σ : Type} {visit : DirEntry → FileType → σ → Except DiskError σ} {see : σ → FsItem → Except DiskError σ}
  {disk : Disk} {dir : Text × List FsItem}

/-- A visit depends on the item that the entry shows, and on nothing else. -/
def Sees (visit : DirEntry → FileType → σ → Except DiskError σ) (see : σ → FsItem → Except DiskError σ) : Prop :=
  ∀ entry item fileType state, Describes entry item → entry.fileType = .ok fileType → visit entry fileType state = see state item

theorem walkEntries_eq (sees : Sees visit see) (path : Text) {entries : List DirEntry} {order : List FsItem}
    (described : List.Forall₂ Describes entries order) (walk : Walk σ) :
    walkEntries visit path (entries.map .ok) walk = (order.foldlM see walk.state).map fun state =>
      ⟨(order.filterMap (subdirectory path)).reverse.map Prod.fst ++ walk.stack, state⟩ := by
  induction described generalizing walk with
  | nil => rfl
  | @cons entry item entries order shows later ih =>
    rw [List.map_cons, walkEntries, List.foldlM_cons]
    cases item with
    | file name len =>
      rw [unlessMissing, shows.2.1, unlessMissing, sees entry _ _ walk.state shows shows.2.1]
      cases see walk.state (.file name len) with
      | error error => rfl
      | ok state => exact ih ⟨walk.stack, state⟩
    | symlink name =>
      rw [unlessMissing, shows.2, unlessMissing, sees entry _ _ walk.state shows shows.2]
      cases see walk.state (.symlink name) with
      | error error => rfl
      | ok state => exact ih ⟨walk.stack, state⟩
    | dir name items =>
      rw [unlessMissing, shows.2, unlessMissing, sees entry _ _ walk.state shows shows.2]
      cases see walk.state (.dir name items) with
      | error error => rfl
      | ok state =>
        refine (ih ⟨push path entry.fileName :: walk.stack, state⟩).trans ?_
        simp [subdirectory, shows.1, bind, Except.bind]

theorem walkDir_explores (sees : Sees visit see) :
    Explores diskForest Prod.snd Prod.fst see (walkDir visit disk) (OnDisk disk) := by
  constructor
  · intro node child held pushed
    obtain ⟨name, member, same⟩ := mem_children.mp pushed
    cases held with
    | intro read described order inside =>
      rw [← Prod.mk.eta (p := child), same]
      exact inside name child.2 member
  · intro node held
    cases held with
    | @intro dir items order entries read described same inside =>
      refine ⟨(order.filterMap (subdirectory dir)).reverse, order, ?_, same, ?_⟩
      · exact (List.reverse_perm _).trans (same.filterMap _)
      · intro work
        rw [walkDir, read]
        exact walkEntries_eq sees dir described work

theorem walkFrom_eq (sees : Sees visit see) (held : OnDisk disk dir) {fuel : Nat} (enough : (directories dir).length < fuel)
    (state : σ) : ∃ seen : List FsItem, seen.Perm (allItems dir) ∧
      walkFrom visit disk fuel dir.1 state = some (seen.foldlM see state) := by
  have all : ∀ node ∈ [dir], OnDisk disk node := by simpa using held
  have bounded : ([dir].flatMap diskForest.nodes).length < fuel := by simpa [diskForest] using enough
  obtain ⟨seen, same, finished⟩ := (walkDir_explores sees).run state all bounded
  exact ⟨seen, by simpa [allItems, diskForest] using same, finished⟩

theorem walk_stack_real (sees : Sees visit see) (held : OnDisk disk dir) {state : σ} {walk : Walk σ}
    (passes : Passes (walkNext visit disk) ⟨[dir.1], state⟩ walk) : ∀ path ∈ walk.stack, ∃ items, (path, items) ∈ directories dir := by
  intro path waiting
  have all : ∀ node ∈ [dir], OnDisk disk node := by simpa using held
  obtain ⟨⟨_, items⟩, within, rfl⟩ := (walkDir_explores sees).stack_sub all passes path waiting
  exact ⟨items, by simpa [diskForest] using within⟩

end Walk

/-! ### What the walks return -/

/-- What `dir_size` makes of an item. -/
def addItem (total : Nat) : FsItem → Except DiskError Nat
  | .file _ len => checkedAdd total len
  | .symlink _ | .dir _ _ => .ok total

/-- What `reject_symlinks_under` makes of an item. -/
def refuseItem (root : Text) (_ : Unit) : FsItem → Except DiskError Unit
  | .symlink _ => .error ⟨.permissionDenied, s!"symlink is not allowed under '{root.str}'"⟩
  | .file _ _ | .dir _ _ => .ok ()

theorem addFile_sees : Sees addFile addItem := by
  intro entry item fileType total shows known
  cases item with
  | file name len =>
    cases shows.2.1.symm.trans known
    rw [addFile, if_pos rfl, shows.2.2]
    rfl
  | symlink name =>
    cases shows.2.symm.trans known
    rfl
  | dir name items =>
    cases shows.2.symm.trans known
    rfl

theorem rejectSymlink_sees (root : Text) : Sees (rejectSymlink root) (refuseItem root) := by
  intro entry item fileType state shows known
  cases item with
  | file name len =>
    cases shows.2.1.symm.trans known
    rfl
  | symlink name =>
    cases shows.2.symm.trans known
    rfl
  | dir name items =>
    cases shows.2.symm.trans known
    rfl

/-- Sums only grow, so that the order decides where an overflow is noticed and not whether. -/
theorem foldlM_addItem {items : List FsItem} {total : Nat} (fits : total ≤ u64Max) :
    items.foldlM addItem total = if total + (items.map itemLen).sum ≤ u64Max then .ok (total + (items.map itemLen).sum)
      else .error ⟨.invalidData, "directory size exceeds u64::MAX"⟩ := by
  induction items generalizing total with
  | nil => exact (if_pos fits).symm
  | cons item later ih =>
    rw [List.foldlM_cons, List.map_cons, List.sum_cons, ← Nat.add_assoc]
    cases item with
    | file name len =>
      rw [addItem, checkedAdd, itemLen]
      by_cases exceeded : u64Max < total + len
      · rw [if_pos exceeded, if_neg (by omega)]
        rfl
      · rw [if_neg exceeded]
        exact ih (by omega)
    | symlink name => exact ih fits
    | dir name items => exact ih fits

theorem foldlM_refuseItem_ok {root : Text} {items : List FsItem} (free : ∀ name, .symlink name ∉ items) :
    items.foldlM (refuseItem root) () = .ok () := by
  induction items with
  | nil => rfl
  | cons item later ih =>
    rw [List.foldlM_cons]
    have rest := ih fun name member => free name (List.mem_cons_of_mem _ member)
    cases item with
    | file name len => exact rest
    | symlink name => exact absurd List.mem_cons_self (free name)
    | dir name items => exact rest

theorem foldlM_refuseItem_error {root : Text} {items : List FsItem} {name : Text} (member : .symlink name ∈ items) :
    items.foldlM (refuseItem root) () = .error ⟨.permissionDenied, s!"symlink is not allowed under '{root.str}'"⟩ := by
  induction items with
  | nil => cases member
  | cons item later ih =>
    rw [List.foldlM_cons]
    cases item with
    | symlink found => rfl
    | file found len =>
      rcases List.mem_cons.mp member with same | rest
      · cases same
      · exact ih rest
    | dir found items =>
      rcases List.mem_cons.mp member with same | rest
      · cases same
      · exact ih rest

section Tree

variable {disk : Disk} {root : Text} {tree : List FsItem} {fuel : Nat}

theorem dirSize_eq (held : OnDisk disk (root, tree)) (enough : (directories (root, tree)).length < fuel) :
    dirSize disk fuel root = some (if treeSize tree ≤ u64Max then .ok (treeSize tree)
      else .error ⟨.invalidData, "directory size exceeds u64::MAX"⟩) := by
  obtain ⟨seen, same, finished⟩ := walkFrom_eq addFile_sees held enough 0
  have sum : (seen.map itemLen).sum = treeSize tree := by
    rw [treeSize_allItems (root, tree)]
    exact (same.map itemLen).sum_eq
  rw [dirSize, finished, foldlM_addItem (Nat.zero_le u64Max), Nat.zero_add, sum]

theorem rejectSymlinksUnder_ok (held : OnDisk disk (root, tree)) (enough : (directories (root, tree)).length < fuel)
    (free : ∀ name, ¬AtAnyDepth (.symlink name) tree) : rejectSymlinksUnder disk fuel root = some (.ok ()) := by
  obtain ⟨seen, same, finished⟩ := walkFrom_eq (rejectSymlink_sees root) held enough ()
  rw [rejectSymlinksUnder, finished, foldlM_refuseItem_ok]
  intro name member
  exact free name (atAnyDepth_iff.mpr (same.mem_iff.mp member))

theorem rejectSymlinksUnder_error (held : OnDisk disk (root, tree)) (enough : (directories (root, tree)).length < fuel)
    {name : Text} (found : AtAnyDepth (.symlink name) tree) :
    rejectSymlinksUnder disk fuel root =
      some (.error ⟨.permissionDenied, s!"symlink is not allowed under '{root.str}'"⟩) := by
  obtain ⟨seen, same, finished⟩ := walkFrom_eq (rejectSymlink_sees root) held enough ()
  have member : .symlink name ∈ allItems (root, tree) := atAnyDepth_iff.mp found
  rw [rejectSymlinksUnder, finished, foldlM_refuseItem_error (same.mem_iff.mpr member)]

/-- What the quota of a local point is checked against is what the walk over its directory
returns. -/
theorem dirSize_localQuota {ν : Type} [DecidableEq ν] {files : LocalQuota.Files ν} (held : OnDisk disk (root, tree))
    (enough : (directories (root, tree)).length < fuel) (same : LocalQuota.size files = treeSize tree) :
    dirSize disk fuel root = some ((LocalQuota.dirSize files).mapError fun message => ⟨.invalidData, message⟩) := by
  rw [dirSize_eq held enough, LocalQuota.dirSize, same]
  by_cases fits : treeSize tree ≤ u64Max
  · rw [if_pos fits, if_neg (by omega)]
    rfl
  · rw [if_neg fits, if_pos (by omega)]
    rfl

end Tree

/-- Both walks end. One returns the length of all regular files, or an error when it does
not fit, and reads real directories only; the other accepts the trees without symlinks. -/
theorem tree_measured_and_guarded {disk : Disk} {root : Text} {tree : List FsItem} {fuel : Nat}
    (held : OnDisk disk (root, tree)) (enough : (directories (root, tree)).length < fuel) :
    dirSize disk fuel root = some (if treeSize tree ≤ u64Max then .ok (treeSize tree)
        else .error ⟨.invalidData, "directory size exceeds u64::MAX"⟩) ∧
      (∀ walk, Passes (walkNext addFile disk) ⟨[root], 0⟩ walk →
        ∀ dir ∈ walk.stack, ∃ items, (dir, items) ∈ directories (root, tree)) ∧
      ∃ result, rejectSymlinksUnder disk fuel root = some result ∧
        (result = .ok () ↔ ∀ name, ¬AtAnyDepth (.symlink name) tree) := by
  refine ⟨dirSize_eq held enough, fun walk passes => walk_stack_real addFile_sees held passes, ?_⟩
  by_cases free : ∀ name, ¬AtAnyDepth (.symlink name) tree
  · exact ⟨.ok (), rejectSymlinksUnder_ok held enough free, iff_of_true rfl free⟩
  · obtain ⟨name, found⟩ := not_forall_not.mp free
    refine ⟨_, rejectSymlinksUnder_error held enough found, iff_of_false ?_ free⟩
    intro accepted
    cases accepted

def point : Text := "/srv/point".toList

def subTree : List FsItem := [.file "draft".toList 3, .symlink "up".toList]

def pointTree : List FsItem := [.dir "sub".toList subTree, .file "notes".toList 4]

def pointEntries : List DirEntry := [⟨"notes".toList, .ok .file, .ok 4⟩, ⟨"sub".toList, .ok .dir, .ok 4096⟩]

def subEntries : List DirEntry := [⟨"up".toList, .ok .symlink, .ok 2⟩, ⟨"draft".toList, .ok .file, .ok 3⟩]

/-- `/srv/point/sub/up` leads back to `/srv/point`. -/
def pointDisk : Disk := fun path =>
  if path = point ∨ path = "/srv/point/sub/up".toList then .ok (pointEntries.map .ok)
  else if path = "/srv/point/sub".toList then .ok (subEntries.map .ok)
  else .error ⟨.notFound, "No such file or directory (os error 2)"⟩

theorem pointTree_onDisk : OnDisk pointDisk (point, pointTree) := by
  have outer : pointDisk point = .ok (pointEntries.map .ok) := rfl
  have outerShown : List.Forall₂ Describes pointEntries [.file "notes".toList 4, .dir "sub".toList subTree] :=
    .cons ⟨rfl, rfl, rfl⟩ (.cons ⟨rfl, rfl⟩ .nil)
  have inner : pointDisk (push point "sub".toList) = .ok (subEntries.map .ok) := rfl
  have innerShown : List.Forall₂ Describes subEntries [.symlink "up".toList, .file "draft".toList 3] :=
    .cons ⟨rfl, rfl⟩ (.cons ⟨rfl, rfl, rfl⟩ .nil)
  refine .intro outer outerShown (List.Perm.swap _ _ _) ?_
  intro name inside member
  have sub : FsItem.dir name inside = .dir "sub".toList subTree := by simpa [pointTree] using member
  cases sub
  refine .intro inner innerShown (List.Perm.swap _ _ _) ?_
  intro name inside member
  simp [subTree] at member

theorem point_measured_and_guarded : dirSize pointDisk 3 point = some (.ok 7) ∧
    ∃ result, rejectSymlinksUnder pointDisk 3 point = some result ∧ result ≠ .ok () := by
  have enough : (directories (point, pointTree)).length < 3 := by decide
  obtain ⟨measured, -, result, guarded, accepts⟩ := tree_measured_and_guarded pointTree_onDisk enough
  refine ⟨measured, result, guarded, ?_⟩
  intro accepted
  apply accepts.mp accepted "up".toList
  apply AtAnyDepth.deeper List.mem_cons_self
  exact .here (List.mem_cons_of_mem _ List.mem_cons_self)

end Vaulton.Proofs.DiskWalk
