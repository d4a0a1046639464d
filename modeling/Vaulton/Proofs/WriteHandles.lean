import Vaulton.Lib.Machine
import Vaulton.WriteHandles

/-! When a revocation is final. SetVfs takes the handles it sees out of the map; what it
cannot see is an OpenWrite that has passed its check and a write that holds its handle. -/

namespace Vaulton.Proofs.WriteHandles
open Vaulton.Config Vaulton.Lib Vaulton.SetVfs Vaulton.Transfer Vaulton.WriteHandles

variable {ι ω κ : Type} {state next : HandlesState ι ω κ} {call : κ} {pointId : Uuid}

/-- Some user may write to the point. -/
def Writable (users : List VfsUser) (pointId : Uuid) : Prop :=
  ∃ user ∈ users, ∃ point ∈ user.points, point.id = pointId ∧ (requireUserWritable point).isOk = true

/-- The record of an OpenWrite request that gets past its check. -/
def admitted : OpenPc → Option (VfsUser × VfsPoint)
  | .check user point => if (requireUserWritable point).isOk then some (user, point) else none
  | .openFile user point | .insert user point => some (user, point)
  | .readUser | .returned _ => none

/-- The handle a write request works with. -/
def heldBy : WritePc ι → Option Handle
  | .firstCheck _ handle | .lastCheck _ handle | .change handle => some handle
  | .lookup | .returned => none

/-- A write that is still going to find its handle expired. -/
def Doomed (expired : ι → Bool) : WritePc ι → Prop
  | .firstCheck id _ | .lastCheck id _ => expired id = true
  | .change _ => False
  | .lookup | .returned => True

/-- The write does not get at the point. -/
def CutOff (expired : ι → Bool) (pointId : Uuid) (pc : WritePc ι) : Prop :=
  ∀ handle ∈ heldBy pc, handle.pointId = pointId → Doomed expired pc

/-- The usernames that a call invalidates after its write. -/
def changedNames (old users : List VfsUser) : List Text := (changedUsers old users).map VfsUser.username

/-- The step of a SetVfs call leaves nobody behind: everyone whose handle or request the
new users do not admit is going to be invalidated, no admitted OpenWrite slips past the
invalidation of its user, and the call returns only when the writes that it cut off are
going to notice. -/
def Clean (state : HandlesState ι ω κ) (users : List VfsUser) (fails : Bool) : CallPc ι → Prop
  | .setUsers old => fails = true ∨
      (∀ entry ∈ state.writeHandles, Writable users entry.2.pointId ∨ entry.2.username ∈ changedNames old users) ∧
      ∀ id, ∀ pair ∈ admitted (state.opens id), Writable users pair.2.id ∨ pair.1.username ∈ changedNames old users
  | .invalidate (username :: _) => ∀ id, ∀ pair ∈ admitted (state.opens id), pair.1.username = username →
      Writable state.stored pair.2.id
  | .invalidate [] => ∀ request, ∀ handle ∈ heldBy (state.writes request),
      Writable state.stored handle.pointId ∨ Doomed state.expired (state.writes request)
  | _ => True

/-- Every step of this call is clean. -/
def CleanCall (call : κ) (users : κ → List VfsUser) (state : HandlesState ι ω κ) : HandlesEvent ι ω κ → Prop
  | .setVfs other fails => other = call → Clean state (users other) fails (state.calls other)
  | _ => True

/-- The step stores no users that may write to the point. -/
def Withholds (pointId : Uuid) (users : κ → List VfsUser) (state : HandlesState ι ω κ) : HandlesEvent ι ω κ → Prop
  | .setVfs other fails => ∀ old, state.calls other = .setUsers old → fails = true ∨ ¬Writable (users other) pointId
  | _ => True

section Decidable

instance (users : List VfsUser) (pointId : Uuid) : Decidable (Writable users pointId) :=
  inferInstanceAs (Decidable (∃ _ ∈ _, ∃ _ ∈ _, _))

instance (expired : ι → Bool) : (pc : WritePc ι) → Decidable (Doomed expired pc)
  | .firstCheck id _ | .lastCheck id _ => inferInstanceAs (Decidable (expired id = true))
  | .change _ => .isFalse id
  | .lookup | .returned => .isTrue trivial

instance [Fintype ι] [Fintype ω] (state : HandlesState ι ω κ) (users : List VfsUser) (fails : Bool) :
    (pc : CallPc ι) → Decidable (Clean state users fails pc)
  | .setUsers _ => inferInstanceAs (Decidable (_ ∨ _))
  | .invalidate (_ :: _) => inferInstanceAs (Decidable (∀ _, _))
  | .invalidate [] => inferInstanceAs (Decidable (∀ _, _))
  | .readUsers | .remove _ _ | .returned => .isTrue trivial

variable [DecidableEq κ]

instance [Fintype ι] [Fintype ω] (users : κ → List VfsUser) (state : HandlesState ι ω κ) :
    (event : HandlesEvent ι ω κ) → Decidable (CleanCall call users state event)
  | .setVfs _ _ => inferInstanceAs (Decidable (_ → _))
  | .openWrite _ _ | .write _ _ | .closeWrite _ | .closeTask _ => .isTrue trivial

instance (users : κ → List VfsUser) (state : HandlesState ι ω κ) :
    (event : HandlesEvent ι ω κ) → Decidable (Withholds pointId users state event)
  | .setVfs other fails =>
    match at_pc : state.calls other with
    | .setUsers _ => decidable_of_iff (fails = true ∨ ¬Writable (users other) pointId) (by simp [Withholds, at_pc])
    | .readUsers | .invalidate _ | .remove _ _ | .returned => .isTrue (by simp [Withholds, at_pc])
  | .openWrite _ _ | .write _ _ | .closeWrite _ | .closeTask _ => .isTrue trivial

end Decidable

/-! ### The invariant -/

def ToInvalidate (username : Text) : CallPc ι → Prop
  | .invalidate usernames | .remove _ usernames => username ∈ usernames
  | _ => False

/-- The call is still going to remove the handle. -/
def Due (id : ι) (username : Text) : CallPc ι → Prop
  | .invalidate usernames => username ∈ usernames
  | .remove ids usernames => id ∈ ids ∨ username ∈ usernames
  | _ => False

/-- The call has stored its users. -/
def Stored : CallPc ι → Prop
  | .readUsers | .setUsers _ => False
  | .invalidate _ | .remove _ _ | .returned => True

/-- Nobody may write to the point any more, and whatever could still write to it is going
to be cut off before the call returns. -/
structure Revoked (call : κ) (pointId : Uuid) (state : HandlesState ι ω κ) : Prop where
  stored : Stored (state.calls call)
  closed : ¬Writable state.stored pointId
  mapped : ∀ entry ∈ state.writeHandles, entry.2.pointId = pointId → Due entry.1 entry.2.username (state.calls call)
  opening : ∀ id, ∀ pair ∈ admitted (state.opens id), pair.2.id = pointId → ToInvalidate pair.1.username (state.calls call)
  cutOff : state.calls call = .returned → ∀ request, CutOff state.expired pointId (state.writes request)

theorem ToInvalidate.due {id : ι} {username : Text} {pc : CallPc ι} (pending : ToInvalidate username pc) :
    Due id username pc := by
  cases pc with
  | invalidate usernames => exact pending
  | remove ids usernames => exact .inr pending
  | readUsers | setUsers _ | returned => exact pending.elim

theorem Revoked.start [DecidableEq κ] {users old : List VfsUser} (at_pc : state.calls call = .setUsers old)
    (clean : Clean state users false (state.calls call)) (closed : ¬Writable users pointId) :
    Revoked call pointId { state with
      stored := users, calls := Function.update state.calls call (.invalidate (changedNames old users)) } := by
  rw [at_pc] at clean
  obtain ⟨mapped, opening⟩ := clean.resolve_left (by simp)
  refine ⟨?_, closed, ?_, ?_, ?_⟩
  · simp [Stored]
  · rintro entry member rfl
    simpa [Due] using (mapped entry member).resolve_left closed
  · rintro id pair member rfl
    simpa [ToInvalidate] using (opening id pair member).resolve_left closed
  · simp

/-! ### Steps of OpenWrite and of the writes -/

section Requests

variable [DecidableEq ι]

private theorem Revoked.open_moves {id : ι} {pc : OpenPc} (revoked : Revoked call pointId state)
    (admits : ∀ pair ∈ admitted pc, pair.2.id = pointId → ToInvalidate pair.1.username (state.calls call)) :
    Revoked call pointId { state with opens := Function.update state.opens id pc } := by
  refine ⟨revoked.stored, revoked.closed, revoked.mapped, ?_, revoked.cutOff⟩
  exact forall_update (fun _ pc => ∀ pair ∈ admitted pc, pair.2.id = pointId → ToInvalidate pair.1.username (state.calls call))
    revoked.opening admits

private theorem Revoked.open_step {id : ι} {request : OpenRequest} {fails : Bool} (revoked : Revoked call pointId state)
    (taken : openStep request state id fails (state.opens id) = some next) : Revoked call pointId next := by
  cases at_pc : state.opens id with
  | readUser =>
    simp only [at_pc, openStep] at taken
    split at taken
    · cases taken
      exact revoked.open_moves (by simp [admitted])
    next user user_found =>
      split at taken <;> cases taken
      · exact revoked.open_moves (by simp [admitted])
      next point point_found =>
        apply revoked.open_moves
        intro pair member same
        -- The record is the stored one, which admits nobody to the point.
        simp only [admitted, Option.mem_def, Option.ite_none_right_eq_some] at member
        obtain ⟨allowed, ⟨⟩⟩ := member
        exact absurd ⟨user, List.mem_of_find?_eq_some user_found, point, List.mem_of_find?_eq_some point_found, same, allowed⟩
          revoked.closed
  | check user point =>
    have before := revoked.opening id
    simp only [at_pc, openStep] at taken before
    split at taken <;> cases taken
    next allowed =>
      apply revoked.open_moves
      intro pair member
      exact before pair (by simpa [admitted, allowed, Except.isOk, Except.toBool] using member)
    next => exact revoked.open_moves (by simp [admitted])
  | openFile user point =>
    have before := revoked.opening id
    simp only [at_pc, openStep] at taken before
    split at taken <;> cases taken
    · exact revoked.open_moves (by simp [admitted])
    · exact revoked.open_moves before
  | insert user point =>
    have before := revoked.opening id (user, point)
    simp only [at_pc, openStep] at taken before
    cases taken
    have moved : Revoked call pointId { state with opens := Function.update state.opens id (.returned true) } :=
      revoked.open_moves (by simp [admitted])
    refine ⟨moved.stored, moved.closed, ?_, moved.opening, moved.cutOff⟩
    intro entry member same
    rcases List.mem_cons.mp member with rfl | old
    · exact (before rfl same).due
    · exact revoked.mapped entry old same
  | returned opened => simp [at_pc, openStep] at taken

omit [DecidableEq ι] in
private theorem Revoked.write_moves [DecidableEq ω] {request : ω} {pc : WritePc ι} {files : Uuid → List ω}
    (revoked : Revoked call pointId state) (cutOff : state.calls call = .returned → CutOff state.expired pointId pc) :
    Revoked call pointId { state with files, writes := Function.update state.writes request pc } := by
  refine ⟨revoked.stored, revoked.closed, revoked.mapped, revoked.opening, ?_⟩
  intro returned
  exact forall_update (fun _ => CutOff state.expired pointId) (revoked.cutOff returned) (cutOff returned)

private theorem Revoked.write_step [DecidableEq ω] {request : ω} {sent : WriteRequest ι} {fails : Bool}
    (revoked : Revoked call pointId state) (taken : writeStep sent state request fails (state.writes request) = some next) :
    Revoked call pointId next ∧ (state.calls call = .returned → next.files pointId = state.files pointId) := by
  have before (returned : state.calls call = .returned) := revoked.cutOff returned request
  cases at_pc : state.writes request with
  | lookup =>
    simp only [at_pc, writeStep] at taken
    split at taken
    · cases taken
      exact ⟨revoked.write_moves (by simp [CutOff, heldBy]), fun _ => rfl⟩
    next id handle found =>
      have absent (returned : state.calls call = .returned) (same : handle.pointId = pointId) : False := by
        have due := revoked.mapped (id, handle) (List.mem_of_find?_eq_some found) same
        rw [returned] at due
        exact due
      split at taken <;> cases taken
      all_goals
        refine ⟨revoked.write_moves ?_, fun _ => rfl⟩
        rintro returned _ ⟨⟩ same
        exact (absent returned same).elim
  | firstCheck id handle =>
    simp only [at_pc] at before
    simp only [at_pc, writeStep] at taken
    split at taken <;> cases taken
    · exact ⟨revoked.write_moves (by simp [CutOff, heldBy]), fun _ => rfl⟩
    next => exact ⟨revoked.write_moves before, fun _ => rfl⟩
  | lastCheck id handle =>
    simp only [at_pc] at before
    simp only [at_pc, writeStep] at taken
    split at taken <;> cases taken
    · exact ⟨revoked.write_moves (by simp [CutOff, heldBy]), fun _ => rfl⟩
    next alive =>
      refine ⟨revoked.write_moves ?_, fun _ => rfl⟩
      rintro returned _ ⟨⟩ same
      exact absurd (before returned handle rfl same) alive
  | change handle =>
    simp only [at_pc] at before
    simp only [at_pc, writeStep] at taken
    split at taken <;> cases taken
    · exact ⟨revoked.write_moves (by simp [CutOff, heldBy]), fun _ => rfl⟩
    next =>
      refine ⟨revoked.write_moves (by simp [CutOff, heldBy]), ?_⟩
      intro returned
      have elsewhere : pointId ≠ handle.pointId := fun same => before returned handle rfl same.symm
      exact Function.update_of_ne elsewhere ..
  | returned => simp [at_pc, writeStep] at taken

/-! ### Steps of SetVfs -/

theorem removeHandle_mem {id : ι} {entry : ι × Handle} (member : entry ∈ (state.removeHandle id).writeHandles) :
    entry ∈ state.writeHandles ∧ entry.1 ≠ id := by
  unfold HandlesState.removeHandle at member
  split at member
  next => simpa using member
  next absent =>
    refine ⟨member, ?_⟩
    rintro rfl
    exact absent (by simpa using ⟨entry.2, member⟩)

private theorem Revoked.remove {id : ι} (revoked : Revoked call pointId state) :
    Revoked call pointId (state.removeHandle id) := by
  have mapped : ∀ entry ∈ (state.removeHandle id).writeHandles, entry.2.pointId = pointId →
      Due entry.1 entry.2.username (state.calls call) :=
    fun entry member => revoked.mapped entry (removeHandle_mem member).1
  unfold HandlesState.removeHandle at mapped ⊢
  split at mapped
  next present =>
    rw [if_pos present]
    exact ⟨revoked.stored, revoked.closed, mapped, revoked.opening, revoked.cutOff⟩
  next absent =>
    rw [if_neg absent]
    exact revoked

variable [DecidableEq κ]

omit [DecidableEq ι] in
private theorem Revoked.other_moves {other : κ} {pc : CallPc ι} (revoked : Revoked call pointId state) (apart : other ≠ call) :
    Revoked call pointId { state with calls := Function.update state.calls other pc } := by
  have same : Function.update state.calls other pc call = state.calls call := Function.update_of_ne apart.symm ..
  refine ⟨?_, revoked.closed, ?_, ?_, ?_⟩
  all_goals
    simp only [same]
  · exact revoked.stored
  · exact revoked.mapped
  · exact revoked.opening
  · exact revoked.cutOff

omit [DecidableEq ι] in
private theorem Revoked.own_moves {pc : CallPc ι} (revoked : Revoked call pointId state) (stored : Stored pc)
    (mapped : ∀ entry ∈ state.writeHandles, entry.2.pointId = pointId → Due entry.1 entry.2.username pc)
    (opening : ∀ id, ∀ pair ∈ admitted (state.opens id), pair.2.id = pointId → ToInvalidate pair.1.username pc)
    (cutOff : pc = .returned → ∀ request, CutOff state.expired pointId (state.writes request)) :
    Revoked call pointId { state with calls := Function.update state.calls call pc } := by
  have here : Function.update state.calls call pc call = pc := Function.update_self ..
  refine ⟨?_, revoked.closed, ?_, ?_, ?_⟩
  all_goals
    simp only [here]
  · exact stored
  · exact mapped
  · exact opening
  · exact cutOff

private theorem Revoked.own_step {users : List VfsUser} {fails : Bool} (revoked : Revoked call pointId state)
    (clean : Clean state users fails (state.calls call))
    (taken : callStep users state call fails (state.calls call) = some next) : Revoked call pointId next := by
  have stored := revoked.stored
  have mapped := revoked.mapped
  have opening := revoked.opening
  cases at_pc : state.calls call with
  | readUsers | setUsers _ =>
    rw [at_pc] at stored
    exact stored.elim
  | invalidate usernames =>
    cases usernames with
    | nil =>
      simp only [at_pc, callStep] at taken clean mapped opening
      cases taken
      refine revoked.own_moves trivial ?_ ?_ ?_
      · exact fun entry member same => absurd (mapped entry member same) List.not_mem_nil
      · exact fun id pair member same => absurd (opening id pair member same) List.not_mem_nil
      · intro _ request handle held same
        exact (clean request handle held).resolve_left (same ▸ revoked.closed)
    | cons username rest =>
      simp only [at_pc, callStep] at taken clean mapped opening
      cases taken
      refine revoked.own_moves trivial ?_ ?_ (by simp)
      · intro entry member same
        rcases List.mem_cons.mp (mapped entry member same) with here | later
        · exact .inl (List.mem_map_of_mem (List.mem_filter.mpr ⟨member, by simpa using here⟩))
        · exact .inr later
      · intro id pair member same
        rcases List.mem_cons.mp (opening id pair member same) with here | later
        · exact absurd (clean id pair member here) (same ▸ revoked.closed)
        · exact later
  | remove ids usernames =>
    cases ids with
    | nil =>
      simp only [at_pc, callStep] at taken mapped opening
      cases taken
      refine revoked.own_moves trivial ?_ opening (by simp)
      intro entry member same
      exact (mapped entry member same).resolve_left (by simp)
    | cons id ids =>
      simp only [at_pc, callStep] at taken mapped
      cases taken
      have removed : Revoked call pointId (state.removeHandle id) := revoked.remove
      have unmoved : (state.removeHandle id).calls call = .remove (id :: ids) usernames := by
        rw [← at_pc]
        unfold HandlesState.removeHandle
        split <;> rfl
      have opened := removed.opening
      rw [unmoved] at opened
      refine removed.own_moves trivial ?_ opened (by simp)
      intro entry member same
      obtain ⟨before, different⟩ := removeHandle_mem member
      rcases mapped entry before same with listed | later
      · exact .inl ((List.mem_cons.mp listed).resolve_left different)
      · exact .inr later
  | returned => simp [at_pc, callStep] at taken

private theorem Revoked.other_step {other : κ} {users : List VfsUser} {fails : Bool} (revoked : Revoked call pointId state)
    (apart : other ≠ call) (withholds : ∀ old, state.calls other = .setUsers old → fails = true ∨ ¬Writable users pointId)
    (taken : callStep users state other fails (state.calls other) = some next) : Revoked call pointId next := by
  cases at_pc : state.calls other with
  | readUsers =>
    simp only [at_pc, callStep] at taken
    cases taken
    exact revoked.other_moves apart
  | setUsers old =>
    simp only [at_pc, callStep] at taken
    split at taken <;> cases taken
    next => exact revoked.other_moves apart
    next succeeds =>
      have moved : Revoked call pointId { state with
          calls := Function.update state.calls other (.invalidate ((changedUsers old users).map VfsUser.username)) } :=
        revoked.other_moves apart
      exact ⟨moved.stored, (withholds old at_pc).resolve_left succeeds, moved.mapped, moved.opening, moved.cutOff⟩
  | invalidate usernames =>
    cases usernames <;>
    · simp only [at_pc, callStep] at taken
      cases taken
      exact revoked.other_moves apart
  | remove ids usernames =>
    cases ids with
    | nil =>
      simp only [at_pc, callStep] at taken
      cases taken
      exact revoked.other_moves apart
    | cons id ids =>
      simp only [at_pc, callStep] at taken
      cases taken
      exact revoked.remove.other_moves apart
  | returned => simp [at_pc, callStep] at taken

end Requests

/-! ### Runs -/

section Frames

variable [DecidableEq ι] [DecidableEq ω] [DecidableEq κ]

omit [DecidableEq ω] [DecidableEq κ] in
private theorem openStep_frame {request : OpenRequest} {id : ι} {fails : Bool} {pc : OpenPc}
    (taken : openStep request state id fails pc = some next) : next.calls = state.calls ∧ next.files = state.files := by
  cases pc <;> simp only [openStep] at taken
  all_goals repeat' split at taken
  all_goals cases taken <;> exact ⟨rfl, rfl⟩

omit [DecidableEq κ] in
private theorem writeStep_calls {sent : WriteRequest ι} {request : ω} {fails : Bool} {pc : WritePc ι}
    (taken : writeStep sent state request fails pc = some next) : next.calls = state.calls := by
  cases pc <;> simp only [writeStep] at taken
  all_goals repeat' split at taken
  all_goals cases taken <;> rfl

omit [DecidableEq ω] [DecidableEq κ] in
private theorem removeHandle_frame (state : HandlesState ι ω κ) (id : ι) :
    (state.removeHandle id).calls = state.calls ∧ (state.removeHandle id).files = state.files := by
  unfold HandlesState.removeHandle
  split <;> exact ⟨rfl, rfl⟩

omit [DecidableEq ω] in
private theorem callStep_frame {users : List VfsUser} {other : κ} {fails : Bool} {pc : CallPc ι}
    (taken : callStep users state other fails pc = some next) :
    next.files = state.files ∧ ∀ call, call ≠ other → next.calls call = state.calls call := by
  have elsewhere (calls : κ → CallPc ι) (pc : CallPc ι) (call : κ) (apart : call ≠ other) :
      Function.update calls other pc call = calls call := Function.update_of_ne apart ..
  match pc with
  | .readUsers | .invalidate [] | .invalidate (_ :: _) | .remove [] _ =>
    cases taken
    exact ⟨rfl, elsewhere _ _⟩
  | .setUsers old =>
    simp only [callStep] at taken
    split at taken <;> cases taken <;> exact ⟨rfl, elsewhere _ _⟩
  | .remove (id :: ids) usernames =>
    cases taken
    obtain ⟨calls, files⟩ := removeHandle_frame state id
    refine ⟨files, fun call apart => ?_⟩
    rw [← calls]
    exact elsewhere _ _ call apart
  | .returned => cases taken

end Frames

private theorem Revoked.close [DecidableEq ι] {id : ι} (revoked : Revoked call pointId state) :
    Revoked call pointId { state with
      expired := Function.update state.expired id true, closing := Function.update state.closing id false } := by
  refine ⟨revoked.stored, revoked.closed, revoked.mapped, revoked.opening, ?_⟩
  intro returned request handle held same
  have later (other : ι) (before : state.expired other = true) : Function.update state.expired id true other = true := by
    by_cases here : other = id
    · rw [here, Function.update_self]
    · rw [Function.update_of_ne here]
      exact before
  have doomed := revoked.cutOff returned request handle held same
  cases at_pc : state.writes request <;> simp only [at_pc, Doomed] at doomed ⊢
  · exact later _ doomed
  · exact later _ doomed

variable [DecidableEq ι] [DecidableEq ω] [DecidableEq κ] {requests : ι → OpenRequest} {writes : ω → WriteRequest ι}
  {users : κ → List VfsUser}

/-- One step keeps the point revoked, and nothing changes it once the call has returned. -/
theorem Revoked.step {event : HandlesEvent ι ω κ} (revoked : Revoked call pointId state)
    (clean : CleanCall call users state event) (withholds : Withholds pointId users state event)
    (taken : handlesStep requests writes users state event = some next) :
    Revoked call pointId next ∧ (state.calls call = .returned →
      next.calls call = .returned ∧ next.files pointId = state.files pointId) := by
  cases event with
  | openWrite id fails =>
    obtain ⟨calls, files⟩ := openStep_frame taken
    refine ⟨revoked.open_step taken, fun returned => ?_⟩
    rw [calls, files]
    exact ⟨returned, rfl⟩
  | write request fails =>
    obtain ⟨kept, unchanged⟩ := revoked.write_step taken
    refine ⟨kept, fun returned => ⟨?_, unchanged returned⟩⟩
    rw [writeStep_calls taken]
    exact returned
  | closeWrite id =>
    cases taken
    obtain ⟨calls, files⟩ := removeHandle_frame state id
    refine ⟨revoked.remove, fun returned => ?_⟩
    rw [calls, files]
    exact ⟨returned, rfl⟩
  | closeTask id =>
    simp only [handlesStep] at taken
    split at taken <;> cases taken
    exact ⟨revoked.close, fun returned => ⟨returned, rfl⟩⟩
  | setVfs other fails =>
    by_cases same : other = call
    · subst other
      refine ⟨revoked.own_step (clean rfl) taken, fun returned => ?_⟩
      simp [handlesStep, returned, callStep] at taken
    · obtain ⟨files, calls⟩ := callStep_frame taken
      refine ⟨revoked.other_step same withholds taken, fun returned => ?_⟩
      rw [files, calls call (Ne.symm same)]
      exact ⟨returned, rfl⟩

/-- The call has returned and the files of the point are as they were then. -/
structure Settled (call : κ) (pointId : Uuid) (files : List ω) (state : HandlesState ι ω κ) : Prop where
  revoked : Revoked call pointId state
  returned : state.calls call = .returned
  files : state.files pointId = files

theorem Settled.step {event : HandlesEvent ι ω κ} {files : List ω} (settled : Settled call pointId files state)
    (withholds : Withholds pointId users state event)
    (taken : handlesStep requests writes users state event = some next) : Settled call pointId files next := by
  have clean : CleanCall call users state event := by
    cases event with
    | setVfs other fails =>
      rintro rfl
      rw [settled.returned]
      trivial
    | openWrite _ _ | write _ _ | closeWrite _ | closeTask _ => trivial
  obtain ⟨revoked, unchanged⟩ := settled.revoked.step clean withholds taken
  obtain ⟨returned, same⟩ := unchanged settled.returned
  exact ⟨revoked, returned, same.trans settled.files⟩

/-- A SetVfs call writes users that may not write to the point. If its steps leave nobody
behind, no file of the point changes after it has returned, until users that may write
to the point are stored again. -/
theorem clean_revocation_is_final (requests : ι → OpenRequest) (writes : ω → WriteRequest ι) (users : κ → List VfsUser)
    (old : List VfsUser) (middle later : List (HandlesEvent ι ω κ)) (before returned final : HandlesState ι ω κ)
    (call : κ) (pointId : Uuid) (writing : before.calls call = .setUsers old) (revokes : ¬Writable (users call) pointId)
    (executed : run (handlesStep requests writes users) before (.setVfs call false :: middle) = some returned)
    (ended : returned.calls call = .returned)
    (clean : Guarded (handlesStep requests writes users) (CleanCall call users) before (.setVfs call false :: middle))
    (continued : run (handlesStep requests writes users) returned later = some final)
    (withheld : Guarded (handlesStep requests writes users) (Withholds pointId users) before
      (.setVfs call false :: middle ++ later)) :
    final.files pointId = returned.files pointId := by
  obtain ⟨first, write, rest⟩ := run_cons.mp executed
  have start : Revoked call pointId first := by
    have taken := write
    simp only [handlesStep, writing, callStep] at taken
    cases taken
    exact Revoked.start writing (clean.1 rfl) revokes
  obtain ⟨untilReturn, afterReturn⟩ := guarded_append withheld
  have revoked : Revoked call pointId returned := by
    have guarded := guarded_and (clean.2 first write) (untilReturn.2 first write)
    apply guarded_invariant _ start guarded rest
    exact fun _ _ _ holds allowed taken => (holds.step allowed.1 allowed.2 taken).1
  have last : Settled call pointId (returned.files pointId) final := by
    have start : Settled call pointId (returned.files pointId) returned := ⟨revoked, ended, rfl⟩
    apply guarded_invariant _ start (afterReturn returned executed) continued
    exact fun _ _ _ holds allowed taken => holds.step allowed taken
  exact last.files

def localPoint (readOnly : Bool) : VfsPoint where
  id := 1
  name := "docs".toList
  maxBytes := none
  readOnly := readOnly
  scheme := "fs".toList
  config := [("root".toList, "/srv/docs".toList)]
  isRepo := false
  repoPassword := none

def bobDocs (readOnly : Bool) : List VfsUser := [⟨"bob".toList, [localPoint readOnly]⟩]

def docsOpen (_ : Unit) : OpenRequest := ⟨"bob".toList, fun point => point.id = 1⟩

def docsWrite (_ : Bool) : WriteRequest Unit := ⟨.writeAt, ()⟩

def openSteps (count : Nat) : List (HandlesEvent Unit Bool Unit) := List.replicate count (.openWrite () false)

def writeSteps (request : Bool) (count : Nat) : List (HandlesEvent Unit Bool Unit) :=
  List.replicate count (.write request false)

def revokeSteps (count : Nat) : List (HandlesEvent Unit Bool Unit) := List.replicate count (.setVfs () false)

def handlesRun (state : HandlesState Unit Bool Unit) (events : List (HandlesEvent Unit Bool Unit)) :
    Option (HandlesState Unit Bool Unit) :=
  run (handlesStep docsOpen docsWrite fun _ => bobDocs true) state events

/-- Bob's first WriteAt is through and SetVfs is about to make his point read-only. -/
def revoking : HandlesState Unit Bool Unit :=
  (handlesRun (handlesStart (bobDocs false)) (openSteps 4 ++ writeSteps false 4 ++ revokeSteps 1)).get rfl

/-- The next WriteAt finds its handle gone. -/
theorem write_after_revocation_is_refused : ∃ returned final : HandlesState Unit Bool Unit,
    handlesRun revoking (.setVfs () false :: revokeSteps 4) = some returned ∧
    handlesRun returned (.closeTask () :: writeSteps true 1) = some final ∧
    final.files 1 = returned.files 1 ∧ returned.files 1 = [false] := by
  refine ⟨_, _, rfl, rfl, ?_, rfl⟩
  apply clean_revocation_is_final docsOpen docsWrite (fun _ : Unit => bobDocs true) (bobDocs false)
    (revokeSteps 4) (.closeTask () :: writeSteps true 1) revoking _ _ () 1
  · rfl
  · decide
  · rfl
  · rfl
  · decide
  · rfl
  · decide

/-- The OpenWrite request has passed its check when the point becomes read-only. Its handle
enters the map after SetVfs has returned, and the write through it succeeds. -/
theorem late_handle_writes_to_revoked_point : ∃ returned final : HandlesState Unit Bool Unit,
    handlesRun (handlesStart (bobDocs false)) (openSteps 2 ++ revokeSteps 5) = some returned ∧
    returned.calls () = .returned ∧ ¬Writable returned.stored 1 ∧
    handlesRun returned (openSteps 2 ++ writeSteps true 4) = some final ∧
    ¬Writable final.stored 1 ∧ final.files 1 ≠ returned.files 1 := by
  refine ⟨_, _, rfl, rfl, by decide, rfl, by decide, by decide⟩

end Vaulton.Proofs.WriteHandles
