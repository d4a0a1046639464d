import Mathlib

/-! Trees of directories and files. A path is the list of names from the root; every
parent of something is a directory, so above a node there are only directories and
below a file there is nothing. -/

namespace Vaulton.Lib

inductive Node (β : Type) where
  | dir
  | file (content : β)
  deriving DecidableEq

structure Tree (ν β : Type) where
  node : List ν → Option (Node β)
  parent : ∀ path name, node (path ++ [name]) ≠ none → node path = some .dir

def isDir {β : Type} : Option (Node β) → Bool
  | some .dir => true
  | _ => false

def isFile {β : Type} : Option (Node β) → Bool
  | some (.file _) => true
  | _ => false

theorem isDir_iff {β : Type} {node : Option (Node β)} : isDir node = true ↔ node = some .dir := by
  unfold isDir
  split <;> simp_all

theorem isFile_iff {β : Type} {node : Option (Node β)} : isFile node = true ↔ ∃ content, node = some (.file content) := by
  unfold isFile
  split <;> simp_all

/-- What is said of a file, if it is one. -/
def OnFile {β : Type} (node : Option (Node β)) (property : β → Prop) : Prop :=
  ∀ content, node = some (.file content) → property content

instance {β : Type} (property : β → Prop) [DecidablePred property] : (node : Option (Node β)) → Decidable (OnFile node property)
  | none | some .dir => .isTrue (by simp [OnFile])
  | some (.file content) => decidable_of_iff (property content) (by simp [OnFile])

def Node.map {β γ : Type} (change : β → γ) : Node β → Node γ
  | .dir => .dir
  | .file content => .file (change content)

namespace Tree

variable {ν β : Type} {tree next : Tree ν β} {path other : List ν}

/-- The same directories with other contents of the files. -/
def mapFiles {γ : Type} (tree : Tree ν β) (change : List ν → β → γ) : Tree ν γ where
  node path := (tree.node path).map (Node.map (change path))
  parent path name present := by
    have before : tree.node (path ++ [name]) ≠ none := by simpa using present
    simp [tree.parent path name before, Node.map]

theorem ancestor (present : tree.node other ≠ none) (above : path <+: other) (different : path ≠ other) :
    tree.node path = some .dir := by
  obtain ⟨rest, rfl⟩ := above
  induction rest using List.reverseRecOn with
  | nil => exact absurd (List.append_nil path).symm different
  | append_singleton front name ih =>
    rw [← List.append_assoc] at present
    have directory := tree.parent _ _ present
    by_cases same : front = []
    · rwa [same, List.append_nil] at directory
    · exact ih (by simp [directory]) (by simpa using same)

theorem absent_below (above : path <+: other) (absent : tree.node path = none) : tree.node other = none := by
  by_contra present
  by_cases same : path = other
  · exact present (same ▸ absent)
  · rw [ancestor present above same] at absent
    cases absent

theorem absent_below_file {content : β} (file : tree.node path = some (.file content)) (above : path <+: other)
    (different : path ≠ other) : tree.node other = none := by
  by_contra present
  rw [ancestor present above different] at file
  cases file

/-- Some directory of the path is in fact a file. -/
def blocked (tree : Tree ν β) (path : List ν) : Bool := path.inits.any fun front => isFile (tree.node front)

theorem not_blocked (free : tree.blocked path = false) (above : other <+: path) : isFile (tree.node other) = false := by
  simp only [blocked, List.any_eq_false, List.mem_inits] at free
  simpa using free other above

theorem prefix_dropLast (above : other <+: path) (different : other ≠ path) : other <+: path.dropLast := by
  obtain ⟨rest, rfl⟩ := above
  have more : rest ≠ [] := by
    rintro rfl
    exact different (List.append_nil other).symm
  rw [List.dropLast_append_of_ne_nil more]
  exact List.prefix_append _ _

theorem blocked_of_file (above : other <+: path) (file : isFile (tree.node other) = true) : tree.blocked path = true := by
  rw [blocked, List.any_eq_true]
  exact ⟨other, (List.mem_inits other path).mpr above, file⟩

theorem blocked_dropLast (blocked : tree.blocked path = true) (free : isFile (tree.node path) = false) :
    tree.blocked path.dropLast = true := by
  rw [Tree.blocked, List.any_eq_true] at blocked
  obtain ⟨front, listed, file⟩ := blocked
  refine blocked_of_file (prefix_dropLast ((List.mem_inits front path).mp listed) ?_) file
  rintro rfl
  rw [free] at file
  cases file

theorem blocked_of_dropLast (blocked : tree.blocked path.dropLast = true) : tree.blocked path = true := by
  rw [Tree.blocked, List.any_eq_true] at blocked
  obtain ⟨front, listed, file⟩ := blocked
  exact blocked_of_file (((List.mem_inits front _).mp listed).trans (List.dropLast_prefix path)) file

theorem not_prefix_concat {front : List ν} {name : ν} (outside : ¬path <+: front) (apart : ¬front <+: path) :
    ¬path <+: front ++ [name] := by
  intro extended
  rcases List.prefix_concat_iff.mp extended with same | shorter
  · rw [same] at apart
    exact apart (List.prefix_append _ _)
  · exact outside shorter

/-- What lies at or below a path, as a tree of its own. -/
def subtree (tree : Tree ν β) (root : List ν) : Tree ν β where
  node path := tree.node (root ++ path)
  parent path name present := by
    rw [← List.append_assoc] at present
    exact tree.parent _ _ present

theorem subtree_node (tree : Tree ν β) (root path : List ν) : (tree.subtree root).node path = tree.node (root ++ path) := rfl

variable [DecidableEq ν]

/-- `mkdir -p`. -/
def makeDirs (tree : Tree ν β) (path : List ν) : Option (Tree ν β) :=
  if tree.blocked path then none
  else some {
    node := fun other => if other <+: path then some .dir else tree.node other
    parent := by
      intro front name present
      split at present
      next above => rw [if_pos ((List.prefix_append _ _).trans above)]
      next =>
        rw [tree.parent _ _ present]
        split <;> rfl }

theorem makeDirs_node (made : tree.makeDirs path = some next) (other : List ν) :
    next.node other = if other <+: path then some .dir else tree.node other := by
  unfold makeDirs at made
  split at made
  · cases made
  · cases made
    rfl

theorem makeDirs_free (made : tree.makeDirs path = some next) : tree.blocked path = false := by
  unfold makeDirs at made
  split at made
  · cases made
  next free => simpa using free

theorem makeDirs_some (free : tree.blocked path = false) : ∃ next, tree.makeDirs path = some next := by
  unfold makeDirs
  rw [if_neg (Bool.eq_false_iff.mp free)]
  exact ⟨_, rfl⟩

/-- Writes a whole file, after making the directories above it. -/
def putFile (tree : Tree ν β) (path : List ν) (content : β) : Option (Tree ν β) :=
  if free : path = [] ∨ isDir (tree.node path) = true ∨ tree.blocked path.dropLast = true then none
  else some {
    node := fun other =>
      if other = path then some (.file content) else if other <+: path then some .dir else tree.node other
    parent := by
      intro front name present
      have shorter (above : front ++ [name] <+: path) : front ≠ path ∧ front <+: path := by
        refine ⟨?_, (List.prefix_append _ _).trans above⟩
        rintro rfl
        have longer := above.length_le
        rw [List.length_append, List.length_singleton] at longer
        omega
      split at present
      next same =>
        obtain ⟨different, above⟩ := shorter (same ▸ List.prefix_rfl)
        rw [if_neg different, if_pos above]
      next =>
        split at present
        next above =>
          obtain ⟨different, above⟩ := shorter above
          rw [if_neg different, if_pos above]
        next =>
          have directory := tree.parent _ _ present
          have different : front ≠ path := by
            rintro rfl
            exact free (.inr (.inl (isDir_iff.mpr directory)))
          rw [if_neg different, directory]
          split <;> rfl }

theorem putFile_node {content : β} (put : tree.putFile path content = some next) (other : List ν) :
    next.node other =
      if other = path then some (.file content) else if other <+: path then some .dir else tree.node other := by
  unfold putFile at put
  split at put
  · cases put
  · cases put
    rfl

theorem putFile_again {content : β} (put : tree.putFile path content = some next) :
    isDir (next.node path) = false ∧ next.blocked path.dropLast = false := by
  refine ⟨by rw [putFile_node put, if_pos rfl]; rfl, ?_⟩
  rw [Bool.eq_false_iff, blocked, ne_eq, List.any_eq_true]
  rintro ⟨front, listed, file⟩
  have above := (List.mem_inits front _).mp listed
  have different : front ≠ path := by
    rintro rfl
    have shorter := above.length_le
    rw [List.length_dropLast] at shorter
    have empty : front = [] := List.length_eq_zero_iff.mp (by omega)
    subst empty
    unfold putFile at put
    rw [dif_pos (.inl rfl)] at put
    cases put
  rw [putFile_node put, if_neg different, if_pos (above.trans (List.dropLast_prefix _))] at file
  cases file

theorem putFile_some (nonempty : path ≠ []) (free : isDir (tree.node path) = false) (clear : tree.blocked path.dropLast = false)
    (content : β) : ∃ next, tree.putFile path content = some next := by
  unfold putFile
  rw [dif_neg (by simp [nonempty, free, clear])]
  exact ⟨_, rfl⟩

theorem putFile_blocked {content : β} (blocked : tree.blocked path.dropLast = true) : tree.putFile path content = none :=
  dif_pos (.inr (.inr blocked))

theorem putFile_free {content : β} (put : tree.putFile path content = some next) (above : other <+: path)
    (different : other ≠ path) : isFile (tree.node other) = false := by
  unfold putFile at put
  split at put
  · cases put
  next free =>
    simp only [not_or, Bool.not_eq_true] at free
    exact not_blocked free.2.2 (prefix_dropLast above different)

def remove (tree : Tree ν β) (path : List ν) : Tree ν β where
  node other := if path <+: other then none else tree.node other
  parent front name present := by
    split at present
    · exact absurd rfl present
    next outside =>
      have not_below : ¬path <+: front := fun below => outside (below.trans (List.prefix_append _ _))
      rw [if_neg not_below]
      exact tree.parent _ _ present

/-- Moves what is at `source` to `target`, replacing a file by a file only. -/
def rename (tree : Tree ν β) (source target : List ν) : Option (Tree ν β) :=
  if free : source <+: target ∨ target = [] ∨ tree.node source = none ∨ tree.blocked target.dropLast = true ∨
      isDir (tree.node target) = true ∨ isFile (tree.node target) = true ∧ isDir (tree.node source) = true then none
  else some {
    node := fun other =>
      if target <+: other then tree.node (source ++ other.drop target.length)
      else if source <+: other then none
      else if other <+: target then some .dir
      else tree.node other
    parent := by
      simp only [not_or] at free
      obtain ⟨apart, -⟩ := free
      intro front name present
      have below : front <+: front ++ [name] := List.prefix_append _ _
      by_cases inside : target <+: front
      · rw [if_pos (inside.trans below), List.drop_append_of_le_length inside.length_le, ← List.append_assoc] at present
        rw [if_pos inside]
        exact tree.parent _ _ present
      · by_cases above : front <+: target
        · have outside : ¬source <+: front := fun under => apart (under.trans above)
          rw [if_neg inside, if_neg outside, if_pos above]
        · have not_inside : ¬target <+: front ++ [name] := not_prefix_concat inside above
          have not_above : ¬front ++ [name] <+: target := fun longer => above (below.trans longer)
          rw [if_neg not_inside, if_neg not_above] at present
          split at present
          · exact absurd rfl present
          next outside =>
            have not_below : ¬source <+: front := fun under => outside (under.trans below)
            rw [if_neg inside, if_neg not_below, if_neg above]
            exact tree.parent _ _ present }

theorem rename_node {source target : List ν} (moved : tree.rename source target = some next) (other : List ν) :
    next.node other =
      if target <+: other then tree.node (source ++ other.drop target.length)
      else if source <+: other then none
      else if other <+: target then some .dir
      else tree.node other := by
  unfold rename at moved
  split at moved
  · cases moved
  · cases moved
    rfl

theorem rename_blocked {source target : List ν} (blocked : tree.blocked target.dropLast = true) :
    tree.rename source target = none :=
  dif_pos (.inr (.inr (.inr (.inl blocked))))

/-- Copies what is at `source` to `target`, where nothing is yet. -/
def graft (tree : Tree ν β) (source target : List ν) (change : List ν → β → β) : Option (Tree ν β) :=
  if tree.node source = none ∨ tree.blocked target.dropLast = true ∨ tree.node target ≠ none then none
  else some {
    node := fun other =>
      if target <+: other then (tree.node (source ++ other.drop target.length)).map (Node.map (change other))
      else if other <+: target then some .dir
      else tree.node other
    parent := by
      intro front name present
      have below : front <+: front ++ [name] := List.prefix_append _ _
      by_cases inside : target <+: front
      · rw [if_pos (inside.trans below), List.drop_append_of_le_length inside.length_le, ← List.append_assoc] at present
        have copied : tree.node (source ++ front.drop target.length ++ [name]) ≠ none := by simpa using present
        rw [if_pos inside, tree.parent _ _ copied]
        rfl
      · by_cases above : front <+: target
        · rw [if_neg inside, if_pos above]
        · have not_inside : ¬target <+: front ++ [name] := not_prefix_concat inside above
          have not_above : ¬front ++ [name] <+: target := fun longer => above (below.trans longer)
          rw [if_neg not_inside, if_neg not_above] at present
          rw [if_neg inside, if_neg above]
          exact tree.parent _ _ present }

theorem graft_node {source target : List ν} {change : List ν → β → β} (grafted : tree.graft source target change = some next)
    (other : List ν) : next.node other =
      if target <+: other then (tree.node (source ++ other.drop target.length)).map (Node.map (change other))
      else if other <+: target then some .dir
      else tree.node other := by
  unfold graft at grafted
  split at grafted
  · cases grafted
  · cases grafted
    rfl

theorem graft_free {source target : List ν} {change : List ν → β → β} (grafted : tree.graft source target change = some next) :
    tree.node target = none := by
  unfold graft at grafted
  split at grafted
  · cases grafted
  next free => simpa using (not_or.mp (not_or.mp free).2).2

/-- What was there before the copy is still there. -/
theorem graft_present {source target : List ν} {change : List ν → β → β} {content : β}
    (grafted : tree.graft source target change = some next) (file : tree.node other = some (.file content)) :
    next.node other = some (.file content) := by
  have shape := graft_node grafted other
  unfold graft at grafted
  split at grafted
  · cases grafted
  next free =>
    simp only [not_or, Bool.not_eq_true, ne_eq, not_not] at free
    obtain ⟨-, clear, absent⟩ := free
    have outside : ¬target <+: other := by
      intro inside
      rw [absent_below inside absent] at file
      cases file
    have not_above : ¬other <+: target := by
      intro above
      have different : other ≠ target := fun same => outside (same ▸ List.prefix_rfl)
      have free := not_blocked clear (prefix_dropLast above different)
      rw [file] at free
      cases free
    rw [shape, if_neg outside, if_neg not_above, file]

theorem rename_free {source target : List ν} (moved : tree.rename source target = some next) (above : other <+: target)
    (different : other ≠ target) : isFile (tree.node other) = false := by
  unfold rename at moved
  split at moved
  · cases moved
  next free =>
    simp only [not_or, Bool.not_eq_true] at free
    exact not_blocked free.2.2.2.1 (prefix_dropLast above different)

/-- The tree with another part at a path, where there are directories above it. -/
def replace (tree : Tree ν β) (root : List ν) (part : Tree ν β) : Tree ν β where
  node path :=
    if root <+: path then part.node (path.drop root.length)
    else if part.node [] ≠ none ∧ path <+: root then some .dir
    else tree.node path
  parent := by
    intro front name present
    have below : front <+: front ++ [name] := List.prefix_append _ _
    by_cases inside : root <+: front
    · rw [if_pos (inside.trans below), List.drop_append_of_le_length inside.length_le] at present
      rw [if_pos inside]
      exact part.parent _ _ present
    · by_cases above : part.node [] ≠ none ∧ front <+: root
      · rw [if_neg inside, if_pos above]
      · have not_root : ¬root <+: front ++ [name] := by
          intro longer
          rcases List.prefix_concat_iff.mp longer with same | shorter
          · subst same
            rw [if_pos List.prefix_rfl, List.drop_length] at present
            exact above ⟨present, below⟩
          · exact inside shorter
        have not_above : ¬(part.node [] ≠ none ∧ front ++ [name] <+: root) :=
          fun ⟨there, longer⟩ => above ⟨there, below.trans longer⟩
        rw [if_neg not_root, if_neg not_above] at present
        rw [if_neg inside, if_neg above]
        exact tree.parent _ _ present

@[simp] theorem replace_inside (tree part : Tree ν β) (root path : List ν) :
    (tree.replace root part).node (root ++ path) = part.node path := by
  simp [replace]

end Tree

end Vaulton.Lib
