import Vaulton.Lib.Machine
import Vaulton.Proofs.Config
import Vaulton.Reconfiguration

/-! A SetVfs request with no other request running. Before the write it touches nothing but
repository keys. After it, every map is changed by key, so what goes is what stands under
the keys that the differences of the two configurations name. -/

namespace Vaulton.Proofs.Reconfiguration
open Vaulton.Config Vaulton.DataOps Vaulton.Lib Vaulton.Quota Vaulton.QuotaReset Vaulton.SetVfs Vaulton.Reconfiguration
  Vaulton.Proofs.Config

/-! ### The differences of two configurations -/

/-- No username names two users and no id two points. -/
structure Distinct (users : List VfsUser) : Prop where
  usernames : (users.map VfsUser.username).Nodup
  ids : ((allPoints users).map VfsPoint.id).Nodup

theorem normalizedRequest_distinct {parseUuid : Text → Option Uuid} {request : List ProtoVfsUser} {users : List VfsUser}
    (accepted : normalizedRequest parseUuid request = .ok users) : Distinct users := by
  obtain ⟨converted, -, normalized⟩ := bind_eq_ok.mp accepted
  exact ⟨normalizeVfsUsers_usernames normalized, normalizeVfsUsers_ids normalized⟩

/-- The id of the point is gone from the same-named user, or it stands for a point with
another scheme, config or kind. -/
def Dropped (users : List VfsUser) (username : Text) (point : VfsPoint) : Prop :=
  (∀ user ∈ users, user.username = username → ∀ other ∈ user.points, other.id ≠ point.id) ∨
  ∃ user ∈ users, user.username = username ∧ ∃ other ∈ user.points, other.id = point.id ∧
    (point.scheme ≠ other.scheme ∨ point.config ≠ other.config ∨ point.isRepo ≠ other.isRepo)

section Differences

variable {oldUsers users : List VfsUser} {old newUser : VfsUser} {point : VfsPoint}

theorem Distinct.same_user (distinct : Distinct users) {first second : VfsUser} (first_mem : first ∈ users)
    (second_mem : second ∈ users) (same : first.username = second.username) : first = second :=
  List.inj_on_of_nodup_map distinct.usernames first_mem second_mem same

theorem Distinct.same_point (distinct : Distinct users) (member : newUser ∈ users) {first second : VfsPoint}
    (first_mem : first ∈ newUser.points) (second_mem : second ∈ newUser.points) (same : first.id = second.id) :
    first = second :=
  (owner_unique distinct.ids member member first_mem second_mem same).2

theorem mem_changedUsers (distinct : Distinct users) :
    old ∈ changedUsers oldUsers users ↔ old ∈ oldUsers ∧ old ∉ users := by
  rw [changedUsers, List.mem_filter]
  apply and_congr_right
  intro stored
  cases found : users.find? fun user => user.username = old.username with
  | none =>
    have missing := List.find?_eq_none.mp found
    constructor
    · intro _ kept
      exact missing old kept (by simp)
    · intro _
      rfl
  | some newUser =>
    have member := List.mem_of_find?_eq_some found
    have named : newUser.username = old.username := by simpa using List.find?_some found
    rw [decide_eq_true_eq]
    constructor
    · intro changed kept
      exact changed (distinct.same_user member kept named)
    · rintro gone rfl
      exact gone member

theorem dropped_iff (distinct : Distinct users) (member : newUser ∈ users) :
    Dropped users newUser.username point ↔
      (∀ other ∈ newUser.points, other.id ≠ point.id) ∨ ∃ other ∈ newUser.points, other.id = point.id ∧
        (point.scheme ≠ other.scheme ∨ point.config ≠ other.config ∨ point.isRepo ≠ other.isRepo) := by
  apply or_congr
  · constructor
    · intro gone
      exact gone newUser member rfl
    · intro gone user user_mem named
      rw [distinct.same_user user_mem member named]
      exact gone
  · constructor
    · intro ⟨user, user_mem, named, changed⟩
      rw [distinct.same_user user_mem member named] at changed
      exact changed
    · intro changed
      exact ⟨newUser, member, rfl, changed⟩

theorem removedQuota_iff (distinct : Distinct users) (member : newUser ∈ users) {id : Text} :
    removedQuota newUser.username newUser point = some id ↔
      Dropped users newUser.username point ∧ id = quotaId newUser.username point.id := by
  rw [dropped_iff distinct member, removedQuota]
  cases found : newUser.points.find? fun other => other.id = point.id with
  | none =>
    have missing := List.find?_eq_none.mp found
    constructor
    · intro removed
      exact ⟨.inl fun other inside same => missing other inside (by simp [same]), (Option.some.inj removed).symm⟩
    · intro ⟨_, same⟩
      rw [same]
  | some newPoint =>
    have inside := List.mem_of_find?_eq_some found
    have same_id : newPoint.id = point.id := by simpa using List.find?_some found
    dsimp only
    split
    next changed =>
      constructor
      · intro removed
        exact ⟨.inr ⟨newPoint, inside, same_id, changed⟩, (Option.some.inj removed).symm⟩
      · intro ⟨_, same⟩
        rw [same]
    next unchanged =>
      constructor
      · intro removed
        cases removed
      · intro ⟨dropped, _⟩
        exfalso
        rcases dropped with gone | ⟨other, other_mem, other_id, changed⟩
        · exact gone newPoint inside same_id
        · rw [distinct.same_point member other_mem inside (other_id.trans same_id.symm)] at changed
          exact unchanged changed

theorem mem_removedQuotas (distinct : Distinct users) {id : Text} :
    id ∈ removedQuotas oldUsers users ↔
      ∃ old ∈ oldUsers, ∃ point ∈ old.points, Dropped users old.username point ∧ id = quotaId old.username point.id := by
  rw [removedQuotas, List.mem_flatMap]
  apply exists_congr
  intro old
  apply and_congr_right
  intro _
  cases found : users.find? fun user => user.username = old.username with
  | none =>
    have missing := List.find?_eq_none.mp found
    rw [List.mem_map]
    constructor
    · intro ⟨point, inside, same⟩
      refine ⟨point, inside, .inl ?_, same.symm⟩
      intro user member named
      exact absurd (by simp [named]) (missing user member)
    · intro ⟨point, inside, _, same⟩
      exact ⟨point, inside, same.symm⟩
  | some newUser =>
    have member := List.mem_of_find?_eq_some found
    have named : newUser.username = old.username := by simpa using List.find?_some found
    dsimp only
    rw [← named]
    split
    · rw [List.mem_filterMap]
      apply exists_congr
      intro point
      exact and_congr_right fun _ => removedQuota_iff distinct member
    next unchanged =>
      -- An unchanged user keeps every point, and its ids are distinct.
      obtain rfl := not_not.mp unchanged
      constructor
      · intro impossible
        cases impossible
      · intro ⟨point, inside, dropped, _⟩
        exfalso
        rcases (dropped_iff distinct member).mp dropped with gone | ⟨other, other_mem, other_id, changed⟩
        · exact gone point inside rfl
        · rw [distinct.same_point member other_mem inside other_id] at changed
          simp at changed

end Differences

/-! ### Resets -/

theorem resetCell_eq (cell : Option (Option QuotaCounter)) : resetCell cell = some ⟨0, true⟩ := by
  cases cell with
  | none => rfl
  | some counter => cases counter <;> rfl

/-- The reset of the quota engine does the same when nobody else is at the cell. -/
theorem engine_resets_cell (id : String) (cell : Option (Option QuotaCounter)) :
    ∃ events, ∃ final : TouchState Empty Unit, run (touchStep id) (touchStart cell) events = some final ∧
      final.resets () = some (.done (.ok 0)) ∧ final.cell = restingCell (some (resetCell cell)) := by
  cases cell with
  | none => exact ⟨[.invokeReset (), .reset (), .reset (), .reset ()], _, rfl, rfl, rfl⟩
  | some counter =>
    cases counter with
    | none => exact ⟨[.invokeReset (), .reset (), .reset (), .reset ()], _, rfl, rfl, rfl⟩
    | some counter => exact ⟨[.invokeReset (), .reset (), .reset (), .reset (), .reset ()], _, rfl, rfl, rfl⟩

theorem clearQuotas (ids : List Text) (server : Server) :
    ids.foldl Server.clearQuota server =
      { server with buckets := fun id => if id ∈ ids.map Text.str then some (some ⟨0, true⟩) else server.buckets id } := by
  induction ids generalizing server with
  | nil => simp
  | cons first rest ih =>
    rw [List.foldl_cons, ih]
    simp only [Server.clearQuota, resetCell_eq, List.map_cons, List.mem_cons]
    congr
    funext id
    by_cases later : id ∈ rest.map Text.str
    · simp [later]
    · by_cases same : id = first.str
      · subst id
        simp
      · simp [later, same]

/-! ### Invalidated users -/

theorem invalidatePoints (points : List VfsPoint) (storage : StorageManager) :
    points.foldl StorageManager.invalidatePoint storage =
      { storage with
        health := storage.health.invalidateAll (points.map VfsPoint.id)
        dataOps := storage.dataOps.invalidateAll (points.map VfsPoint.id)
        repoVfsOps := storage.repoVfsOps.invalidateAll (points.filterMap pointSource)
        repos := storage.repos.invalidateAll (points.filterMap pointSource) } := by
  induction points generalizing storage with
  | nil => rfl
  | cons point rest ih =>
    rw [List.foldl_cons, ih, StorageManager.invalidatePoint]
    cases named : pointSource point with
    | none => simp [named]
    | some source => simp [named]

private theorem filter_apart {α : Type} (username : α → Text) (first second : List Text) (entries : List α) :
    (entries.filter fun entry => username entry ∉ first).filter (fun entry => username entry ∉ second) =
      entries.filter fun entry => username entry ∉ first ++ second := by
  rw [List.filter_filter]
  apply List.filter_congr
  intro entry _
  rw [← Bool.decide_and, decide_eq_decide, List.mem_append, not_or]
  exact and_comm

/-- What is left after the users have been invalidated. -/
structure Invalidated (changed : List VfsUser) (before after : Server) : Prop where
  users : after.users = before.users
  buckets : after.buckets = before.buckets
  tracker : after.tracker = before.tracker
  jobs : after.jobs = before.jobs
  writeHandles : after.writeHandles = before.writeHandles.filter fun entry => entry.2.username ∉ changed.map VfsUser.username
  readHandles : after.readHandles = before.readHandles.filter fun entry => entry.2.username ∉ changed.map VfsUser.username
  vfsOps : after.storage.vfsOps = before.storage.vfsOps.invalidateAll (changed.map VfsUser.username)
  degradedOps : after.storage.degradedOps = before.storage.degradedOps.invalidateAll (changed.map VfsUser.username)
  health : after.storage.health = before.storage.health.invalidateAll ((allPoints changed).map VfsPoint.id)
  dataOps : after.storage.dataOps = before.storage.dataOps.invalidateAll ((allPoints changed).map VfsPoint.id)
  repoVfsOps : after.storage.repoVfsOps = before.storage.repoVfsOps.invalidateAll ((allPoints changed).filterMap pointSource)
  repos : after.storage.repos = before.storage.repos.invalidateAll ((allPoints changed).filterMap pointSource)

theorem invalidateUser_spec (user : VfsUser) (server : Server) : Invalidated [user] server (server.invalidateUser user) := by
  have points : allPoints [user] = user.points := List.flatMap_singleton ..
  have storage : (server.invalidateUser user).storage = server.storage.invalidateVfs user := rfl
  rw [StorageManager.invalidateVfs, invalidatePoints] at storage
  constructor
  · rfl
  · rfl
  · rfl
  · rfl
  · simp [Server.invalidateUser, Server.invalidateUserWriteHandles, Server.invalidateUserReadHandles]
  · simp [Server.invalidateUser, Server.invalidateUserWriteHandles, Server.invalidateUserReadHandles]
  · rw [storage]
    rfl
  · rw [storage]
    rfl
  · rw [storage, points]
  · rw [storage, points]
  · rw [storage, points]
  · rw [storage, points]

theorem Invalidated.trans {first second : List VfsUser} {before middle after : Server}
    (earlier : Invalidated first before middle) (later : Invalidated second middle after) :
    Invalidated (first ++ second) before after := by
  have points : allPoints (first ++ second) = allPoints first ++ allPoints second := List.flatMap_append ..
  constructor
  · rw [later.users, earlier.users]
  · rw [later.buckets, earlier.buckets]
  · rw [later.tracker, earlier.tracker]
  · rw [later.jobs, earlier.jobs]
  · rw [later.writeHandles, earlier.writeHandles, filter_apart, List.map_append]
  · rw [later.readHandles, earlier.readHandles, filter_apart, List.map_append]
  · rw [later.vfsOps, earlier.vfsOps, List.map_append, Cache.invalidateAll_append]
  · rw [later.degradedOps, earlier.degradedOps, List.map_append, Cache.invalidateAll_append]
  · rw [later.health, earlier.health, points, List.map_append, Cache.invalidateAll_append]
  · rw [later.dataOps, earlier.dataOps, points, List.map_append, Cache.invalidateAll_append]
  · rw [later.repoVfsOps, earlier.repoVfsOps, points, List.filterMap_append, Cache.invalidateAll_append]
  · rw [later.repos, earlier.repos, points, List.filterMap_append, Cache.invalidateAll_append]

theorem invalidateUsers (changed : List VfsUser) (server : Server) :
    Invalidated changed server (changed.foldl Server.invalidateUser server) := by
  induction changed generalizing server with
  | nil => constructor <;> simp [allPoints, Cache.invalidateAll_nil]
  | cons user rest ih => exact (invalidateUser_spec user server).trans (ih (server.invalidateUser user))

/-! ### The request -/

/-- What a successful request leaves behind, `users` being the configuration it stores. A
stored user that is not among them is changed or removed. -/
structure Applied (before : Server) (users : List VfsUser) (after : Server) : Prop where
  stored : after.users = users
  tracker : after.tracker = before.tracker
  reset : ∀ old ∈ before.users, ∀ point ∈ old.points, Dropped users old.username point →
    ∀ answer, currentBytes answer (restingCell (after.buckets (quotaId old.username point.id).str)) = .ok 0
  kept : ∀ id, (∀ old ∈ before.users, ∀ point ∈ old.points, Dropped users old.username point →
    id ≠ (quotaId old.username point.id).str) → after.buckets id = before.buckets id
  jobs : ∀ old ∈ before.users, old ∉ users → ∀ entry ∈ after.jobs, entry.2.user = old.username → entry.2.cancelled = true
  writeHandles : ∀ old ∈ before.users, old ∉ users → ∀ entry ∈ after.writeHandles, entry.2.username ≠ old.username
  readHandles : ∀ old ∈ before.users, old ∉ users → ∀ entry ∈ after.readHandles, entry.2.username ≠ old.username
  vfsOps : ∀ old ∈ before.users, old ∉ users → ∀ username, after.storage.vfsOps.entries username ≠ some old
  degradedOps : ∀ old ∈ before.users, old ∉ users → ∀ username, after.storage.degradedOps.entries username ≠ some old
  repoVfsOps : ∀ old ∈ before.users, old ∉ users →
    ∀ record, record.user = old → ∀ source, after.storage.repoVfsOps.entries source ≠ some record
  repos : ∀ old ∈ before.users, old ∉ users →
    ∀ record, record.user = old → ∀ source, after.storage.repos.entries source ≠ some record
  dataOps : ∀ old ∈ before.users, old ∉ users →
    ∀ record, record.user = old → ∀ id, after.storage.dataOps.entries id ≠ some record
  health : ∀ old ∈ before.users, old ∉ users →
    ∀ record, record.of.user = old → ∀ id, after.storage.health.entries id ≠ some record

theorem mem_getUsers {table : List VfsUser} {user : VfsUser} : user ∈ getUsers table ↔ user ∈ table :=
  List.mem_insertionSort _

theorem setUsers_ok {fails : Option DbError} {users stored : List VfsUser} (accepted : setUsers fails users = .ok stored) :
    stored = users := by
  obtain ⟨-, -, checked⟩ := bind_eq_ok.mp accepted
  obtain ⟨-, -, written⟩ := bind_eq_ok.mp checked
  cases fails with
  | some error => cases written
  | none =>
    cases written
    rfl

section CleanUp

variable {before server after : Server} {users : List VfsUser}

theorem cleanUp_spec (server : Server) (oldUsers users : List VfsUser) (keys : Keys) :
    Invalidated (changedUsers oldUsers users)
      { server.cancelJobs ((changedUsers oldUsers users).map VfsUser.username) with
        buckets := fun id =>
          if id ∈ (removedQuotas oldUsers users).map Text.str then some (some ⟨0, true⟩) else server.buckets id }
      { server.cleanUp oldUsers users with keys } := by
  have invalidated := invalidateUsers (changedUsers oldUsers users)
    (server.cancelJobs ((changedUsers oldUsers users).map VfsUser.username))
  rw [Server.cleanUp, clearQuotas]
  constructor
  · exact invalidated.users
  · funext id
    simp only [invalidated.buckets]
    rfl
  · exact invalidated.tracker
  · exact invalidated.jobs
  · exact invalidated.writeHandles
  · exact invalidated.readHandles
  · exact invalidated.vfsOps
  · exact invalidated.degradedOps
  · exact invalidated.health
  · exact invalidated.dataOps
  · exact invalidated.repoVfsOps
  · exact invalidated.repos

theorem filtered_apart {κ : Type} {changed : List VfsUser} {old : VfsUser} (member : old ∈ changed)
    {handles : List (κ × WriteHandles.Handle)} :
    ∀ entry ∈ handles.filter fun entry => entry.2.username ∉ changed.map VfsUser.username,
      entry.2.username ≠ old.username := by
  intro entry inside same
  obtain ⟨-, apart⟩ := List.mem_filter.mp inside
  rw [decide_eq_true_eq, same] at apart
  exact apart (List.mem_map_of_mem member)

theorem Invalidated.applied (invalidated : Invalidated (changedUsers (getUsers before.users) users) server after)
    (distinct : Distinct users) (stored : server.users = users) (tracker : server.tracker = before.tracker)
    (buckets : ∀ id, server.buckets id =
      if id ∈ (removedQuotas (getUsers before.users) users).map Text.str then some (some ⟨0, true⟩) else before.buckets id)
    (jobs : server.jobs = (before.cancelJobs ((changedUsers (getUsers before.users) users).map VfsUser.username)).jobs) :
    Applied before users after := by
  have changed {old : VfsUser} (member : old ∈ before.users) (gone : old ∉ users) :
      old ∈ changedUsers (getUsers before.users) users :=
    (mem_changedUsers distinct).mpr ⟨mem_getUsers.mpr member, gone⟩
  have ids {record : OwnedPoint} (member : record.user ∈ before.users) (gone : record.user ∉ users) :
      record.point.id ∈ (allPoints (changedUsers (getUsers before.users) users)).map VfsPoint.id :=
    List.mem_map_of_mem (List.mem_flatMap.mpr ⟨record.user, changed member gone, record.owned⟩)
  have sources {record : OwnedPoint} (member : record.user ∈ before.users) (gone : record.user ∉ users)
      {source : RepoSource} (named : pointSource record.point = some source) :
      source ∈ (allPoints (changedUsers (getUsers before.users) users)).filterMap pointSource :=
    List.mem_filterMap.mpr ⟨record.point, List.mem_flatMap.mpr ⟨record.user, changed member gone, record.owned⟩, named⟩
  constructor
  · rw [invalidated.users, stored]
  · rw [invalidated.tracker, tracker]
  · intro old member point inside dropped answer
    have removed : quotaId old.username point.id ∈ removedQuotas (getUsers before.users) users :=
      (mem_removedQuotas distinct).mpr ⟨old, mem_getUsers.mpr member, point, inside, dropped, rfl⟩
    rw [invalidated.buckets, buckets, if_pos (List.mem_map_of_mem removed)]
    rfl
  · intro id others
    rw [invalidated.buckets, buckets, if_neg]
    intro cleared
    obtain ⟨quota, removed, same⟩ := List.mem_map.mp cleared
    obtain ⟨old, member, point, inside, dropped, rfl⟩ := (mem_removedQuotas distinct).mp removed
    exact others old (mem_getUsers.mp member) point inside dropped same.symm
  · intro old member gone entry present named
    rw [invalidated.jobs, jobs] at present
    obtain ⟨⟨id, job⟩, -, rfl⟩ := List.mem_map.mp present
    have listed := List.mem_map_of_mem (f := VfsUser.username) (changed member gone)
    dsimp only at named ⊢
    split
    · rfl
    next unlisted =>
      rw [if_neg unlisted] at named
      exact absurd (named ▸ listed) unlisted
  · intro old member gone
    rw [invalidated.writeHandles]
    exact filtered_apart (changed member gone)
  · intro old member gone
    rw [invalidated.readHandles]
    exact filtered_apart (changed member gone)
  · intro old member gone username
    rw [invalidated.vfsOps]
    apply Cache.invalidateAll_gone
    rintro _ rfl
    exact List.mem_map_of_mem (changed member gone)
  · intro old member gone username
    rw [invalidated.degradedOps]
    apply Cache.invalidateAll_gone
    rintro _ rfl
    exact List.mem_map_of_mem (changed member gone)
  · rintro _ member gone record rfl source
    rw [invalidated.repoVfsOps]
    apply Cache.invalidateAll_gone
    intro other named
    exact sources member gone named
  · rintro _ member gone record rfl source
    rw [invalidated.repos]
    apply Cache.invalidateAll_gone
    intro other named
    exact sources member gone named
  · rintro _ member gone record rfl id
    rw [invalidated.dataOps]
    apply Cache.invalidateAll_gone
    rintro _ rfl
    exact ids member gone
  · rintro _ member gone record rfl id
    rw [invalidated.health]
    apply Cache.invalidateAll_gone
    rintro _ rfl
    exact ids member gone

/-- No stored user of that name is changed or removed. -/
def Untouched (before : Server) (users : List VfsUser) (username : Text) : Prop :=
  ∀ old ∈ before.users, old ∉ users → old.username ≠ username

/-- What a successful request leaves alone. -/
structure Spared (before : Server) (users : List VfsUser) (after : Server) : Prop where
  jobs : ∀ entry ∈ before.jobs, Untouched before users entry.2.user → entry ∈ after.jobs
  writeHandles : ∀ entry ∈ before.writeHandles, Untouched before users entry.2.username → entry ∈ after.writeHandles
  readHandles : ∀ entry ∈ before.readHandles, Untouched before users entry.2.username → entry ∈ after.readHandles
  vfsOps : ∀ username, Untouched before users username →
    after.storage.vfsOps.entries username = before.storage.vfsOps.entries username
  degradedOps : ∀ username, Untouched before users username →
    after.storage.degradedOps.entries username = before.storage.degradedOps.entries username

theorem Untouched.apart {username : Text} (distinct : Distinct users) (untouched : Untouched before users username) :
    username ∉ (changedUsers (getUsers before.users) users).map VfsUser.username := by
  intro member
  obtain ⟨old, changed, same⟩ := List.mem_map.mp member
  obtain ⟨stored, gone⟩ := (mem_changedUsers distinct).mp changed
  exact untouched old (mem_getUsers.mp stored) gone same

theorem Invalidated.spared (invalidated : Invalidated (changedUsers (getUsers before.users) users) server after)
    (distinct : Distinct users) (storage : server.storage = before.storage)
    (jobs : server.jobs = (before.cancelJobs ((changedUsers (getUsers before.users) users).map VfsUser.username)).jobs)
    (writes : server.writeHandles = before.writeHandles) (reads : server.readHandles = before.readHandles) :
    Spared before users after := by
  constructor
  · intro entry member untouched
    rw [invalidated.jobs, jobs]
    exact List.mem_map.mpr ⟨entry, member, if_neg (untouched.apart distinct)⟩
  · intro entry member untouched
    rw [invalidated.writeHandles, writes]
    exact List.mem_filter.mpr ⟨member, decide_eq_true (untouched.apart distinct)⟩
  · intro entry member untouched
    rw [invalidated.readHandles, reads]
    exact List.mem_filter.mpr ⟨member, decide_eq_true (untouched.apart distinct)⟩
  · intro username untouched
    rw [invalidated.vfsOps, storage, Cache.invalidateAll_kept (untouched.apart distinct)]
  · intro username untouched
    rw [invalidated.degradedOps, storage, Cache.invalidateAll_kept (untouched.apart distinct)]

end CleanUp

section Request

variable {parseUuid : Text → Option Uuid} {failures : Failures} {request : List ProtoVfsUser} {server after : Server}
  {reply : Except Status Unit}

theorem setVfs_cases (answered : setVfs parseUuid failures request server = (reply, after)) :
    (∃ status, reply = .error status ∧ after = { server with keys := after.keys }) ∨
    ∃ users added keys, reply = .ok () ∧ normalizedRequest parseUuid request = .ok users ∧
      after = { { server with users, keys := added }.cleanUp (getUsers server.users) users with keys } := by
  unfold setVfs at answered
  cases converted : normalizedRequest parseUuid request with
  | error status =>
    rw [converted] at answered
    cases answered
    exact .inl ⟨status, rfl, rfl⟩
  | ok users =>
    rw [converted] at answered
    cases unread : failures.read with
    | some error =>
      rw [unread] at answered
      cases answered
      exact .inl ⟨error.status, rfl, rfl⟩
    | none =>
      rw [unread] at answered
      dsimp only at answered
      split at answered
      next status keys _ =>
        cases answered
        exact .inl ⟨status, rfl, rfl⟩
      next added _ =>
        split at answered
        next status _ =>
          cases answered
          exact .inl ⟨status, rfl, rfl⟩
        next stored written =>
          obtain rfl := setUsers_ok written
          cases answered
          exact .inr ⟨_, added, _, rfl, rfl, rfl⟩

/-- A failed request leaves everything but repository keys as it was; a successful one
stores the normalised request and drops what was made from changed or removed users. -/
theorem set_vfs_applies_all_or_nothing (answered : setVfs parseUuid failures request server = (reply, after)) :
    match reply with
    | .error _ => after = { server with keys := after.keys }
    | .ok () => ∃ users, normalizedRequest parseUuid request = .ok users ∧ Applied server users after := by
  rcases setVfs_cases answered with ⟨status, rfl, unchanged⟩ | ⟨users, added, keys, rfl, converted, rfl⟩
  · exact unchanged
  · refine ⟨users, converted, ?_⟩
    exact (cleanUp_spec ..).applied (normalizedRequest_distinct converted) rfl rfl (fun _ => rfl) rfl

def dataPoint (id : Nat) (name scheme : String) : VfsPoint where
  id := BitVec.ofNat 128 id
  name := name.toList
  maxBytes := none
  readOnly := false
  scheme := scheme.toList
  config := [("root".toList, "/srv".toList)]
  isRepo := false
  repoPassword := none

def protoPoint (id name scheme : String) : ProtoVfsPoint where
  id := id.toList
  name := name.toList
  maxBytes := 0
  canWrite := true
  src := some (.data ⟨scheme.toList, "/srv".toList, [], List.nodup_nil⟩)

/-- The parser on the three ids of the request. -/
def parseHyphenated (text : Text) : Option Uuid :=
  if text = "00000000-0000-0000-0000-000000000001".toList then some 1
  else if text = "00000000-0000-0000-0000-000000000002".toList then some 2
  else if text = "00000000-0000-0000-0000-000000000003".toList then some 3
  else none

def alice : VfsUser := ⟨"alice".toList, [dataPoint 1 "docs" "fs", dataPoint 2 "photos" "fs"]⟩

def carol : VfsUser := ⟨"carol".toList, [dataPoint 3 "music" "fs"]⟩

/-- Alice is connected and has a job, seven bytes are on every account. -/
def busyServer : Server where
  users := [carol, alice]
  keys := fun _ => none
  buckets := fun _ => some (some ⟨7, false⟩)
  tracker := fun _ => none
  jobs := [(9, ⟨"alice".toList, false⟩)]
  writeHandles := [(9, ⟨"alice".toList, 1⟩)]
  closing := []
  readHandles := [("alice\x00/points/docs/a".toList, ⟨"alice".toList, 1⟩)]
  expired := []
  storage := {
    repos := .empty
    repoVfsOps := .empty
    dataOps := Cache.empty.insert 1 ⟨alice, dataPoint 1 "docs" "fs", List.mem_cons_self⟩ rfl
    vfsOps := Cache.empty.insert "alice".toList alice rfl
    degradedOps := .empty
    health := Cache.empty.insert 3 ⟨⟨carol, dataPoint 3 "music" "fs", List.mem_cons_self⟩, .healthy⟩ rfl
    vfsGeneration := fun _ => none }

/-- Docs move to another storage, photos get another name, music is taken over from carol. -/
def movedPoints : List ProtoVfsUser :=
  [⟨"alice".toList, [protoPoint "00000000-0000-0000-0000-000000000001" "docs" "s3",
    protoPoint "00000000-0000-0000-0000-000000000002" "pictures" "fs",
    protoPoint "00000000-0000-0000-0000-000000000003" "music" "fs"]⟩]

def newAlice : VfsUser := ⟨"alice".toList, [dataPoint 1 "docs" "s3", dataPoint 2 "pictures" "fs", dataPoint 3 "music" "fs"]⟩

def noFailures : Failures := ⟨none, fun _ => false, none, fun _ => false⟩

theorem moved_points_start_afresh : ∃ after, setVfs parseHyphenated noFailures movedPoints busyServer = (.ok (), after) ∧
    after.users = [newAlice] ∧ alice ∈ busyServer.users ∧ alice ∉ [newAlice] ∧
    ∀ answer, currentBytes answer (restingCell (after.buckets (quotaId alice.username 1).str)) = .ok 0 ∧
      currentBytes answer (restingCell (after.buckets (quotaId carol.username 3).str)) = .ok 0 := by
  have asked : normalizedRequest parseHyphenated movedPoints = .ok [newAlice] := by rfl
  obtain ⟨after, answered⟩ : ∃ after, setVfs parseHyphenated noFailures movedPoints busyServer = (.ok (), after) := by
    unfold setVfs
    rw [asked]
    have stored : setUsers none [newAlice] = .ok [newAlice] := by rfl
    have unchanged : passwordChanges (getUsers busyServer.users) [newAlice] = [] := by decide
    simp only [noFailures, unchanged, addRepoKeys, stored]
    exact ⟨_, rfl⟩
  refine ⟨after, answered, ?_⟩
  obtain ⟨users, converted, applied⟩ := set_vfs_applies_all_or_nothing answered
  obtain rfl : [newAlice] = users := Except.ok.inj (asked.symm.trans converted)
  refine ⟨applied.stored, by decide, by decide, ?_⟩
  intro answer
  constructor
  · refine applied.reset alice (by decide) (dataPoint 1 "docs" "fs") (by decide) (.inr ?_) answer
    exact ⟨newAlice, by decide, rfl, dataPoint 1 "docs" "s3", by decide, rfl, by decide⟩
  · refine applied.reset carol (by decide) (dataPoint 3 "music" "fs") (by decide) (.inl ?_) answer
    intro user member named
    obtain rfl := List.mem_singleton.mp member
    exact absurd named (by decide)

theorem set_vfs_spares_other_users (answered : setVfs parseUuid failures request server = (.ok (), after)) :
    ∃ users, normalizedRequest parseUuid request = .ok users ∧ Spared server users after := by
  rcases setVfs_cases answered with ⟨status, failed, -⟩ | ⟨users, added, keys, -, converted, rfl⟩
  · cases failed
  · refine ⟨users, converted, ?_⟩
    exact (cleanUp_spec ..).spared (normalizedRequest_distinct converted) rfl rfl rfl rfl

end Request

end Vaulton.Proofs.Reconfiguration
