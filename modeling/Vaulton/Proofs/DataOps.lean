import Vaulton.DataOps
import Vaulton.Lib.Machine
import Vaulton.Proofs.Config

/-! When a job gets the operator of the stored point. Nothing guards the insert of a
request, so an entry is current as long as no invalidation passes a request that holds
an older record of the point. -/

namespace Vaulton.Proofs.DataOps
open Vaulton.Config Vaulton.Lib Vaulton.DataOps Vaulton.Proofs.Config

variable {ι κ : Type} {state next : DataOpsState ι κ}

/-- The operator of a stored point with the id. -/
def Current (stored : List VfsUser) (id : Uuid) (operator : JobOperator) : Prop :=
  ∃ user ∈ stored, ∃ point ∈ user.points, point.id = id ∧ operator = pointOperator user point

/-- The record a request goes on with. -/
def held : RequestPc → Option (VfsUser × VfsPoint)
  | .lookup user point | .build user point | .insert user point => some (user, point)
  | .readUser | .returned _ => none

/-- The step of a SetVfs call falls beside no request and no other call: a write changes
only points that the call goes on to invalidate, and an id is invalidated only while the
requests for it hold the stored point. -/
def Apart (state : DataOpsState ι κ) (users : List VfsUser) (fails : Bool) : CallPc → Prop
  | .setUsers old => fails = true ∨ ∀ user ∈ state.stored, ∀ point ∈ user.points,
      Current users point.id (pointOperator user point) ∨ point.id ∈ invalidatedIds old users
  | .invalidate (id :: _) => ∀ request, ∀ entry ∈ held (state.requests request), entry.2.id = id →
      Current state.stored id (pointOperator entry.1 entry.2)
  | _ => True

def Undisturbed (users : κ → List VfsUser) (state : DataOpsState ι κ) : DataOpsEvent ι κ → Prop
  | .setVfs call fails => Apart state (users call) fails (state.calls call)
  | .request _ _ => True

instance (stored : List VfsUser) (id : Uuid) (operator : JobOperator) : Decidable (Current stored id operator) :=
  inferInstanceAs (Decidable (∃ _ ∈ _, ∃ _ ∈ _, _))

instance [Fintype ι] (state : DataOpsState ι κ) (users : List VfsUser) (fails : Bool) :
    (pc : CallPc) → Decidable (Apart state users fails pc)
  | .setUsers _ => inferInstanceAs (Decidable (_ ∨ _))
  | .invalidate (_ :: _) => inferInstanceAs (Decidable (∀ _, _))
  | .readUsers | .invalidate [] | .done => .isTrue trivial

instance [Fintype ι] (users : κ → List VfsUser) (state : DataOpsState ι κ) :
    (event : DataOpsEvent ι κ) → Decidable (Undisturbed users state event)
  | .setVfs _ _ => inferInstanceAs (Decidable (Apart ..))
  | .request _ _ => .isTrue trivial

def Clears (id : Uuid) : CallPc → Prop
  | .invalidate ids => id ∈ ids
  | _ => False

/-- Some call is still going to invalidate the id. -/
def Pending (state : DataOpsState ι κ) (id : Uuid) : Prop := ∃ call, Clears id (state.calls call)

/-- Whatever comes from an older record is still going to be invalidated. -/
structure Covered (state : DataOpsState ι κ) : Prop where
  distinct : ((allPoints state.stored).map VfsPoint.id).Nodup
  cached : ∀ id operator, state.dataOps id = some operator → Current state.stored id operator ∨ Pending state id
  held : ∀ request, ∀ entry ∈ held (state.requests request),
    Current state.stored entry.2.id (pointOperator entry.1 entry.2) ∨ Pending state entry.2.id

theorem Covered.initial {stored : List VfsUser} (distinct : ((allPoints stored).map VfsPoint.id).Nodup) :
    Covered (dataOpsStart stored : DataOpsState ι κ) where
  distinct := distinct
  cached := by simp [dataOpsStart]
  held := by simp [dataOpsStart, DataOps.held]

/-! ### Steps of requests -/

section Requests

variable [DecidableEq ι]

private theorem Covered.request_moves {request : ι} {pc : RequestPc} {dataOps : Uuid → Option JobOperator}
    (covered : Covered state)
    (cached : ∀ id operator, dataOps id = some operator → Current state.stored id operator ∨ Pending state id)
    (holds : ∀ entry ∈ DataOps.held pc,
      Current state.stored entry.2.id (pointOperator entry.1 entry.2) ∨ Pending state entry.2.id) :
    Covered { state with dataOps, requests := Function.update state.requests request pc } := by
  refine ⟨covered.distinct, cached, ?_⟩
  intro other entry member
  rcases of_update (fun pc => entry ∈ DataOps.held pc) member with ⟨-, here⟩ | ⟨-, elsewhere⟩
  · exact holds entry here
  · exact covered.held other entry elsewhere

theorem Covered.request_step {request : ι} {asked : JobRequest} {fails : Bool} {pc : RequestPc}
    {dataOps : Uuid → Option JobOperator} (covered : Covered state)
    (taken : requestStep asked state.stored state.dataOps fails (state.requests request) = some (dataOps, pc)) :
    Covered { state with dataOps, requests := Function.update state.requests request pc } := by
  cases at_pc : state.requests request with
  | readUser =>
    simp only [at_pc, requestStep] at taken
    split at taken
    · cases taken
      exact covered.request_moves covered.cached (by simp [DataOps.held])
    next user user_found =>
      split at taken <;> cases taken
      · exact covered.request_moves covered.cached (by simp [DataOps.held])
      next point point_found =>
        apply covered.request_moves covered.cached
        intro entry equal
        cases equal
        exact .inl ⟨user, List.mem_of_find?_eq_some user_found, point, List.mem_of_find?_eq_some point_found, rfl, rfl⟩
  | lookup user point =>
    have holds := covered.held request (user, point) (by simp [at_pc, DataOps.held])
    simp only [at_pc, requestStep] at taken
    split at taken <;> cases taken
    · exact covered.request_moves covered.cached (by simp [DataOps.held])
    · exact covered.request_moves covered.cached (by simpa [DataOps.held] using holds)
  | build user point =>
    have holds := covered.held request (user, point) (by simp [at_pc, DataOps.held])
    simp only [at_pc, requestStep] at taken
    split at taken <;> cases taken
    · exact covered.request_moves covered.cached (by simp [DataOps.held])
    · exact covered.request_moves covered.cached (by simpa [DataOps.held] using holds)
  | insert user point =>
    have holds := covered.held request (user, point) (by simp [at_pc, DataOps.held])
    simp only [at_pc, requestStep] at taken
    cases taken
    refine covered.request_moves ?_ (by simp [DataOps.held])
    intro id operator found
    by_cases same : id = point.id
    · subst id
      rw [Function.update_self] at found
      cases found
      exact holds
    · rw [Function.update_of_ne same] at found
      exact covered.cached id operator found
  | returned result => simp [at_pc, requestStep] at taken

end Requests

/-! ### Steps of SetVfs -/

section Calls

variable [DecidableEq κ]

/-- A call moves on and drops no invalidation that something still needs. -/
private theorem Covered.call_moves {call : κ} {pc : CallPc} {dataOps : Uuid → Option JobOperator} (covered : Covered state)
    (cached : ∀ id operator, dataOps id = some operator → state.dataOps id = some operator ∧ (Clears id (state.calls call) → Clears id pc))
    (holds : ∀ request, ∀ entry ∈ DataOps.held (state.requests request),
      Current state.stored entry.2.id (pointOperator entry.1 entry.2) ∨
        (Clears entry.2.id (state.calls call) → Clears entry.2.id pc)) :
    Covered { state with dataOps, calls := Function.update state.calls call pc } := by
  refine ⟨covered.distinct, ?_, ?_⟩
  · intro id operator found
    obtain ⟨before, keeps⟩ := cached id operator found
    exact (covered.cached id operator before).imp_right fun pending => exists_update (Clears id) pending keeps
  · intro request entry member
    rcases holds request entry member with current | keeps
    · exact .inl current
    · exact (covered.held request entry member).imp_right fun pending => exists_update (Clears entry.2.id) pending keeps

private theorem Covered.call_waits {call : κ} {pc : CallPc} (covered : Covered state)
    (idle : ∀ id, ¬Clears id (state.calls call)) :
    Covered { state with calls := Function.update state.calls call pc } :=
  covered.call_moves (fun id _ found => ⟨found, fun clears => absurd clears (idle id)⟩)
    fun _ entry _ => .inr fun clears => absurd clears (idle entry.2.id)

/-- Storing users: a point that changes is going to be invalidated. -/
private theorem Covered.store {call : κ} {old users : List VfsUser} (covered : Covered state)
    (distinct : ((allPoints users).map VfsPoint.id).Nodup) (at_pc : state.calls call = .setUsers old)
    (apart : ∀ user ∈ state.stored, ∀ point ∈ user.points,
      Current users point.id (pointOperator user point) ∨ point.id ∈ invalidatedIds old users) :
    Covered { state with
      stored := users
      calls := Function.update state.calls call (.invalidate (invalidatedIds old users)) } := by
  have pending {id : Uuid} (before : Pending state id) : Pending { state with
      stored := users, calls := Function.update state.calls call (.invalidate (invalidatedIds old users)) } id :=
    exists_update (Clears id) before (by simp [at_pc, Clears])
  have current {id : Uuid} {operator : JobOperator} (before : Current state.stored id operator) :
      Current users id operator ∨ Pending { state with
        stored := users, calls := Function.update state.calls call (.invalidate (invalidatedIds old users)) } id := by
    obtain ⟨user, user_mem, point, point_mem, rfl, rfl⟩ := before
    exact (apart user user_mem point point_mem).imp_right fun listed => ⟨call, by simpa [Clears] using listed⟩
  refine ⟨distinct, ?_, ?_⟩
  · intro id operator found
    rcases covered.cached id operator found with before | before
    · exact current before
    · exact .inr (pending before)
  · intro request entry member
    rcases covered.held request entry member with before | before
    · exact current before
    · exact .inr (pending before)

theorem Covered.call_step {call : κ} {users : List VfsUser} {fails : Bool} (covered : Covered state)
    (distinct : ((allPoints users).map VfsPoint.id).Nodup) (apart : Apart state users fails (state.calls call))
    (taken : callStep users state call fails (state.calls call) = some next) : Covered next := by
  cases at_pc : state.calls call with
  | readUsers =>
    simp only [at_pc, callStep] at taken
    cases taken
    exact covered.call_waits (by simp [at_pc, Clears])
  | setUsers old =>
    simp only [at_pc, callStep] at taken
    simp only [at_pc, Apart] at apart
    split at taken <;> cases taken
    · exact covered.call_waits (by simp [at_pc, Clears])
    next succeeds => exact covered.store distinct at_pc (apart.resolve_left succeeds)
  | invalidate ids =>
    cases ids with
    | nil =>
      simp only [at_pc, callStep] at taken
      cases taken
      exact covered.call_waits (by simp [at_pc, Clears])
    | cons id rest =>
      simp only [at_pc, callStep] at taken
      simp only [at_pc, Apart] at apart
      cases taken
      apply covered.call_moves
      · intro other operator found
        by_cases same : other = id
        · subst other
          simp at found
        · rw [Function.update_of_ne same] at found
          exact ⟨found, by simp [at_pc, Clears, same]⟩
      · intro request entry member
        by_cases same : entry.2.id = id
        · rw [same]
          exact .inl (apart request entry member same)
        · exact .inr (by simp [at_pc, Clears, same])
  | done => simp [at_pc, callStep] at taken

end Calls

variable [DecidableEq ι] [DecidableEq κ] {requests : ι → JobRequest} {users : κ → List VfsUser}

theorem Covered.step {event : DataOpsEvent ι κ} (covered : Covered state)
    (distinct : ∀ call, ((allPoints (users call)).map VfsPoint.id).Nodup) (undisturbed : Undisturbed users state event)
    (taken : dataOpsStep requests users state event = some next) : Covered next := by
  cases event with
  | request request fails =>
    obtain ⟨⟨dataOps, pc⟩, moved, rfl⟩ := Option.map_eq_some_iff.mp taken
    exact covered.request_step moved
  | setVfs call fails => exact covered.call_step (distinct call) undisturbed taken

/-! ### After the last SetVfs -/

/-- The call is not in flight. -/
def Returned : CallPc → Prop
  | .readUsers | .done => True
  | .setUsers _ | .invalidate _ => False

def ByRequest : DataOpsEvent ι κ → Prop
  | .request _ _ => True
  | .setVfs _ _ => False

/-- The point that the request names in the stored users, with the user it belongs to. -/
def Finds (asked : JobRequest) (stored : List VfsUser) (user : VfsUser) (point : VfsPoint) : Prop :=
  stored.find? (fun user => user.username = asked.username) = some user ∧ user.points.find? asked.names = some point

/-- The operator applies what is stored for the point that the request names. -/
def Applies (asked : JobRequest) (stored : List VfsUser) (operator : JobOperator) : Prop :=
  ∃ user point, Finds asked stored user point ∧ operator = pointOperator user point

/-- With no call in flight, a request that starts afresh works on the stored point only. -/
structure Fresh (requests : ι → JobRequest) (request : ι) (state : DataOpsState ι κ) : Prop where
  covered : Covered state
  settled : ∀ call, Returned (state.calls call)
  holds : ∀ entry ∈ DataOps.held (state.requests request), Finds (requests request) state.stored entry.1 entry.2
  answers : ∀ operator, state.requests request = .returned (some operator) →
    Applies (requests request) state.stored operator

omit [DecidableEq ι] [DecidableEq κ] in
theorem Fresh.current {request : ι} (fresh : Fresh requests request state) {id : Uuid} {operator : JobOperator}
    (found : state.dataOps id = some operator) : Current state.stored id operator := by
  rcases fresh.covered.cached id operator found with current | ⟨call, clears⟩
  · exact current
  · have settled := fresh.settled call
    cases at_pc : state.calls call <;> simp_all [Clears, Returned]

omit [DecidableEq ι] [DecidableEq κ] in
/-- The cached operator of the point that the request found is that point's operator. -/
theorem Fresh.hit {request : ι} (fresh : Fresh requests request state) {user : VfsUser} {point : VfsPoint}
    {operator : JobOperator} (finds : Finds (requests request) state.stored user point)
    (found : state.dataOps point.id = some operator) : operator = pointOperator user point := by
  obtain ⟨owner, owner_mem, other, other_mem, same, rfl⟩ := fresh.current found
  obtain ⟨rfl, rfl⟩ := owner_unique fresh.covered.distinct owner_mem (List.mem_of_find?_eq_some finds.1) other_mem
    (List.mem_of_find?_eq_some finds.2) same
  rfl

omit [DecidableEq ι] [DecidableEq κ] in
private theorem Fresh.own_step {request : ι} {fails : Bool} {pc : RequestPc} {dataOps : Uuid → Option JobOperator}
    (fresh : Fresh requests request state)
    (taken : requestStep (requests request) state.stored state.dataOps fails (state.requests request) = some (dataOps, pc)) :
    (∀ entry ∈ DataOps.held pc, Finds (requests request) state.stored entry.1 entry.2) ∧
      ∀ operator, pc = .returned (some operator) → Applies (requests request) state.stored operator := by
  cases at_pc : state.requests request with
  | readUser =>
    simp only [at_pc, requestStep] at taken
    split at taken
    · cases taken
      simp [DataOps.held]
    next user user_found =>
      split at taken <;> cases taken
      · simp [DataOps.held]
      next point point_found =>
        refine ⟨?_, by simp⟩
        intro entry equal
        cases equal
        exact ⟨user_found, point_found⟩
  | lookup user point =>
    have finds := fresh.holds (user, point) (by simp [at_pc, DataOps.held])
    simp only [at_pc, requestStep] at taken
    split at taken <;> cases taken
    next operator found =>
      refine ⟨by simp [DataOps.held], ?_⟩
      intro answer equal
      cases equal
      exact ⟨user, point, finds, fresh.hit finds found⟩
    next => exact ⟨by simpa [DataOps.held] using finds, by simp⟩
  | build user point =>
    have finds := fresh.holds (user, point) (by simp [at_pc, DataOps.held])
    simp only [at_pc, requestStep] at taken
    split at taken <;> cases taken
    · simp [DataOps.held]
    · exact ⟨by simpa [DataOps.held] using finds, by simp⟩
  | insert user point =>
    have finds := fresh.holds (user, point) (by simp [at_pc, DataOps.held])
    simp only [at_pc, requestStep] at taken
    cases taken
    refine ⟨by simp [DataOps.held], ?_⟩
    intro answer equal
    cases equal
    exact ⟨user, point, finds, rfl⟩
  | returned result => simp [at_pc, requestStep] at taken

theorem Fresh.step {request : ι} {event : DataOpsEvent ι κ} (fresh : Fresh requests request state)
    (byRequest : ByRequest event) (taken : dataOpsStep requests users state event = some next) :
    Fresh requests request next := by
  cases event with
  | request other fails =>
    obtain ⟨⟨dataOps, pc⟩, moved, rfl⟩ := Option.map_eq_some_iff.mp taken
    refine ⟨fresh.covered.request_step moved, fresh.settled, ?_, ?_⟩
    · intro entry member
      rcases of_update (fun pc => entry ∈ DataOps.held pc) member with ⟨rfl, here⟩ | ⟨-, elsewhere⟩
      · exact (fresh.own_step moved).1 entry here
      · exact fresh.holds entry elsewhere
    · intro operator returned
      rcases of_update (· = RequestPc.returned (some operator)) returned with ⟨rfl, here⟩ | ⟨-, elsewhere⟩
      · exact (fresh.own_step moved).2 operator here
      · exact fresh.answers operator elsewhere
  | setVfs call fails => exact byRequest.elim

/-- In a run without an invalidation that passes a request holding an older record, a
request that reads its record after all SetVfs calls have returned gets the operator of
the stored point. -/
theorem undisturbed_requests_get_stored_policy (request : List VfsUser) (stored : List VfsUser)
    (accepted : normalizeVfsUsers request = .ok stored) (asked users : κ → List VfsUser)
    (allAccepted : ∀ call, normalizeVfsUsers (asked call) = .ok (users call)) (requests : ι → JobRequest)
    (before after : List (DataOpsEvent ι κ)) (middle final : DataOpsState ι κ)
    (undisturbed : Guarded (dataOpsStep requests users) (Undisturbed users) (dataOpsStart stored) before)
    (reached : run (dataOpsStep requests users) (dataOpsStart stored) before = some middle)
    (settled : ∀ call, Returned (middle.calls call)) (job : ι) (fresh : middle.requests job = .readUser)
    (byRequests : ∀ event ∈ after, ByRequest event)
    (executed : run (dataOpsStep requests users) middle after = some final) (operator : JobOperator)
    (returned : final.requests job = .returned (some operator)) : Applies (requests job) final.stored operator := by
  have covered : Covered middle := by
    apply guarded_invariant _ (Covered.initial (normalizeVfsUsers_ids accepted)) undisturbed reached
    intro state event next holds allowed taken
    exact holds.step (fun call => normalizeVfsUsers_ids (allAccepted call)) allowed taken
  have start : Fresh requests job middle := ⟨covered, settled, by simp [fresh, DataOps.held], by simp [fresh]⟩
  have last : Fresh requests job final := by
    apply guarded_invariant _ start (guarded_of_forall fun event member _ => byRequests event member) executed
    intro state event next holds allowed taken
    exact holds.step allowed taken
  exact last.answers operator returned

def remotePoint (readOnly : Bool) : VfsPoint where
  id := 1
  name := "cloud".toList
  maxBytes := none
  readOnly := readOnly
  scheme := "s3".toList
  config := []
  isRepo := false
  repoPassword := none

def aliceCloud (readOnly : Bool) : List VfsUser := [⟨"alice".toList, [remotePoint readOnly]⟩]

def cloudJob (_ : Bool) : JobRequest := ⟨"alice".toList, fun point => point.id = 1⟩

def wholeRequest (request : Bool) : List (DataOpsEvent Bool Unit) := List.replicate 4 (.request request false)

def wholeSetVfs : List (DataOpsEvent Bool Unit) := List.replicate 4 (.setVfs () false)

/-- One job before and one after write access is revoked. -/
theorem revoked_point_is_read_only : ∃ middle final : DataOpsState Bool Unit,
    run (dataOpsStep cloudJob fun _ => aliceCloud true) (dataOpsStart (aliceCloud false))
      (wholeRequest false ++ wholeSetVfs) = some middle ∧
    run (dataOpsStep cloudJob fun _ => aliceCloud true) middle (wholeRequest true) = some final ∧
    Applies (cloudJob true) final.stored ⟨"s3".toList, [], true, none⟩ := by
  refine ⟨_, _, rfl, rfl, ?_⟩
  apply undisturbed_requests_get_stored_policy (aliceCloud false) (aliceCloud false) rfl (fun _ : Unit => aliceCloud true)
    (fun _ => aliceCloud true) (fun _ => rfl) cloudJob (wholeRequest false ++ wholeSetVfs) (wholeRequest true)
  · decide
  · rfl
  · exact fun _ => trivial
  · rfl
  · simp [wholeRequest, ByRequest]
  · rfl
  · rfl

/-- The first job has read the writable point when SetVfs revokes write access; the second
one starts after SetVfs has returned. -/
theorem overtaken_job_keeps_write_access : ∃ middle final : DataOpsState Bool Unit,
    run (dataOpsStep cloudJob fun _ => aliceCloud true) (dataOpsStart (aliceCloud false))
      (.request false false :: wholeSetVfs ++ List.replicate 3 (.request false false)) = some middle ∧
    Returned (middle.calls ()) ∧ middle.requests true = .readUser ∧
    run (dataOpsStep cloudJob fun _ => aliceCloud true) middle (List.replicate 2 (.request true false)) = some final ∧
    final.requests true = .returned (some ⟨"s3".toList, [], false, none⟩) ∧
    ¬Applies (cloudJob true) final.stored ⟨"s3".toList, [], false, none⟩ := by
  refine ⟨_, _, rfl, trivial, rfl, rfl, rfl, ?_⟩
  rintro ⟨user, point, ⟨user_found, point_found⟩, same⟩
  cases user_found
  cases point_found
  revert same
  decide

end Vaulton.Proofs.DataOps
