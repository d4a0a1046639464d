import Mathlib

/-! Work lists: loops that pop an item off a stack, visit it and push what the visit found.
Such a loop need not end on a graph; on finite trees it does, and it sees everything in them
once, in an order that depends on what the visits push. -/

namespace Vaulton.Lib

variable {α β γ σ ρ ε : Type}

/-! ### Loops -/

/-- One iteration of a loop: it goes on, or the loop is left with a result. -/
inductive Iteration (σ ρ : Type) where
  | next (state : σ)
  | leave (result : ρ)

/-- The result of the loop, `none` when it has not been left after that many iterations. -/
def runLoop (body : σ → Iteration σ ρ) : Nat → σ → Option ρ
  | 0, _ => none
  | fuel + 1, state =>
    match body state with
    | .next state => runLoop body fuel state
    | .leave result => some result

theorem runLoop_next {body : σ → Iteration σ ρ} {state after : σ} (goes : body state = .next after) (fuel : Nat) :
    runLoop body (fuel + 1) state = runLoop body fuel after := by
  simp only [runLoop, goes]

theorem runLoop_leave {body : σ → Iteration σ ρ} {state : σ} {result : ρ} (leaves : body state = .leave result) (fuel : Nat) :
    runLoop body (fuel + 1) state = some result := by
  simp only [runLoop, leaves]

/-- The loop entered in one state comes to be in the other. -/
def Passes (body : σ → Iteration σ ρ) : σ → σ → Prop := Relation.ReflTransGen fun before after => body before = .next after

/-- The invariant rule. -/
theorem Passes.invariant {body : σ → Iteration σ ρ} (property : σ → Prop)
    (kept : ∀ before after, property before → body before = .next after → property after)
    {start final : σ} (first : property start) (passes : Passes body start final) : property final := by
  induction passes with
  | refl => exact first
  | tail _ goes ih => exact kept _ _ ih goes

/-! ### Finite trees -/

/-- Nodes with finite trees below them: `nodes` lists a node and everything below it. -/
structure Forest (β : Type) where
  children : β → List β
  nodes : β → List β
  nodes_eq : ∀ node, nodes node = node :: (children node).flatMap nodes

namespace Forest

variable (forest : Forest β) {node child : β} {first second : List β}

theorem self_mem (node : β) : node ∈ forest.nodes node := by
  rw [forest.nodes_eq]
  exact List.mem_cons_self

theorem nodes_of_child (member : child ∈ forest.children node) : forest.nodes child ⊆ forest.nodes node := by
  intro other below
  rw [forest.nodes_eq node]
  exact List.mem_cons_of_mem _ (List.mem_flatMap.mpr ⟨child, member, below⟩)

theorem length_child_lt (member : child ∈ forest.children node) :
    (forest.nodes child).length < (forest.nodes node).length := by
  have sub : (forest.nodes child).length ≤ ((forest.children node).flatMap forest.nodes).length := by
    rw [List.length_flatMap]
    exact List.single_le_sum (by simp) _ (List.mem_map_of_mem member)
  rw [forest.nodes_eq node, List.length_cons]
  omega

/-- Induction from the leaves to the root. -/
theorem induction (property : β → Prop) (step : ∀ node, (∀ child ∈ forest.children node, property child) → property node)
    (node : β) : property node := by
  induction size : (forest.nodes node).length using Nat.strong_induction_on generalizing node with
  | _ bound ih =>
    apply step
    intro child member
    have smaller := forest.length_child_lt member
    exact ih _ (by omega) child rfl

/-- What holds of a node and passes from every node to its children holds of everything
below the node. -/
theorem nodes_induction (property : β → Prop) (kept : ∀ node child, property node → child ∈ forest.children node → property child)
    {root node : β} (first : property root) (below : node ∈ forest.nodes root) : property node := by
  refine forest.induction (fun root => property root → node ∈ forest.nodes root → property node) ?_ root first below
  intro root ih first below
  rw [forest.nodes_eq, List.mem_cons, List.mem_flatMap] at below
  rcases below with rfl | ⟨child, member, deeper⟩
  · exact first
  · exact ih child member (kept root child first member) deeper

theorem flatMap_nodes_perm (same : first.Perm second) : (first.flatMap forest.nodes).Perm (second.flatMap forest.nodes) :=
  same.flatMap_right forest.nodes

/-- The nodes that are left once one is replaced by its children. -/
theorem flatMap_nodes_cons (node : β) (rest : List β) :
    (node :: rest).flatMap forest.nodes = node :: (forest.children node ++ rest).flatMap forest.nodes := by
  rw [List.flatMap_cons, forest.nodes_eq node, List.flatMap_append, List.cons_append]

end Forest

/-! ### The loop over a stack -/

/-- The top of the stack stands first. -/
structure WorkList (α σ : Type) where
  stack : List α
  state : σ

/-- An iteration of `while let Some(item) = stack.pop()`. The visit finds the item gone from the
stack; an error leaves the loop. -/
def popNext (visit : α → WorkList α σ → Except ε (WorkList α σ)) (work : WorkList α σ) :
    Iteration (WorkList α σ) (Except ε σ) :=
  match work.stack with
  | [] => .leave (.ok work.state)
  | item :: rest =>
    match visit item { work with stack := rest } with
    | .ok work => .next work
    | .error error => .leave (.error error)

/-- A visit sees the items of the node and pushes its children, both in any order. The code
knows the nodes by their labels. -/
structure Explores (forest : Forest β) (items : β → List γ) (label : β → α) (see : σ → γ → Except ε σ)
    (visit : α → WorkList α σ → Except ε (WorkList α σ)) (valid : β → Prop) : Prop where
  child : ∀ node child, valid node → child ∈ forest.children node → valid child
  visit : ∀ node, valid node → ∃ (found : List β) (seen : List γ), found.Perm (forest.children node) ∧ seen.Perm (items node) ∧
    ∀ work, visit (label node) work = (seen.foldlM see work.state).map fun state => ⟨found.map label ++ work.stack, state⟩

namespace Explores

variable {forest : Forest β} {items : β → List γ} {label : β → α} {see : σ → γ → Except ε σ}
  {visit : α → WorkList α σ → Except ε (WorkList α σ)} {valid : β → Prop}

theorem append_valid (explores : Explores forest items label see visit valid) {node : β} {rest found : List β}
    (all : ∀ other ∈ node :: rest, valid other) (same : found.Perm (forest.children node)) :
    ∀ other ∈ found ++ rest, valid other := by
  intro other member
  rcases List.mem_append.mp member with pushed | left
  · exact explores.child node other (all node List.mem_cons_self) (same.mem_iff.mp pushed)
  · exact all other (List.mem_cons_of_mem _ left)

/-- The loop ends and has seen every item of every node once, unless an item stopped it. -/
theorem run (explores : Explores forest items label see visit valid) {fuel : Nat} {start : List β} (state : σ)
    (all : ∀ node ∈ start, valid node) (enough : (start.flatMap forest.nodes).length < fuel) :
    ∃ seen : List γ, seen.Perm ((start.flatMap forest.nodes).flatMap items) ∧
      runLoop (popNext visit) fuel ⟨start.map label, state⟩ = some (seen.foldlM see state) := by
  induction fuel generalizing start state with
  | zero => omega
  | succ fuel ih =>
    cases start with
    | nil => exact ⟨[], .refl _, rfl⟩
    | cons node rest =>
      obtain ⟨found, seen, pushed, read, visited⟩ := explores.visit node (all node List.mem_cons_self)
      have left : ((found ++ rest).flatMap forest.nodes).Perm ((forest.children node ++ rest).flatMap forest.nodes) :=
        forest.flatMap_nodes_perm (pushed.append_right rest)
      have order : ∀ later, later.Perm (((found ++ rest).flatMap forest.nodes).flatMap items) →
          (seen ++ later).Perm (((node :: rest).flatMap forest.nodes).flatMap items) := by
        intro later same
        rw [forest.flatMap_nodes_cons, List.flatMap_cons]
        exact read.append (same.trans (left.flatMap_right items))
      cases done : seen.foldlM see state with
      | error error =>
        have leaves : popNext visit ⟨(node :: rest).map label, state⟩ = .leave (.error error) := by
          simp [popNext, visited, done, Except.map]
        refine ⟨seen ++ ((found ++ rest).flatMap forest.nodes).flatMap items, order _ (.refl _), ?_⟩
        rw [runLoop_leave leaves, List.foldlM_append, done]
        rfl
      | ok after =>
        have shorter : ((found ++ rest).flatMap forest.nodes).length < fuel := by
          rw [forest.flatMap_nodes_cons, List.length_cons] at enough
          rw [left.length_eq]
          omega
        have goes : popNext visit ⟨(node :: rest).map label, state⟩ = .next ⟨(found ++ rest).map label, after⟩ := by
          simp [popNext, visited, done, Except.map]
        obtain ⟨later, same, finished⟩ := ih after (explores.append_valid all pushed) shorter
        refine ⟨seen ++ later, order later same, ?_⟩
        rw [runLoop_next goes, finished, List.foldlM_append, done]
        rfl

theorem stack_sub (explores : Explores forest items label see visit valid) {start : List β} {state : σ}
    (all : ∀ node ∈ start, valid node) {work : WorkList α σ}
    (passes : Passes (popNext visit) ⟨start.map label, state⟩ work) :
    ∀ item ∈ work.stack, ∃ node ∈ start.flatMap forest.nodes, label node = item := by
  have kept := passes.invariant
    (fun work => ∃ left, work.stack = left.map label ∧ (∀ node ∈ left, valid node) ∧
      left.flatMap forest.nodes ⊆ start.flatMap forest.nodes) ?_ ⟨start, rfl, all, List.Subset.refl _⟩
  · obtain ⟨left, stacked, -, sub⟩ := kept
    intro item member
    rw [stacked, List.mem_map] at member
    obtain ⟨node, waiting, same⟩ := member
    exact ⟨node, sub (List.mem_flatMap.mpr ⟨node, waiting, forest.self_mem node⟩), same⟩
  · intro before after holds goes
    obtain ⟨left, stacked, sound, sub⟩ := holds
    cases left with
    | nil =>
      simp [popNext, stacked] at goes
    | cons node rest =>
      obtain ⟨found, seen, pushed, -, visited⟩ := explores.visit node (sound node List.mem_cons_self)
      simp only [popNext, stacked, List.map_cons, visited] at goes
      cases done : seen.foldlM see before.state with
      | error error => simp [done, Except.map] at goes
      | ok next =>
        simp only [done, Except.map, Iteration.next.injEq] at goes
        subst goes
        refine ⟨found ++ rest, by simp, explores.append_valid sound pushed, ?_⟩
        intro other below
        apply sub
        rw [forest.flatMap_nodes_cons]
        exact List.mem_cons_of_mem _ ((forest.flatMap_nodes_perm (pushed.append_right rest)).mem_iff.mp below)

end Explores

end Vaulton.Lib
