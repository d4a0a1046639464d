import Vaulton.Config

/-! What `normalize_vfs_users` leaves: names that can stand as one path segment,
distinct within a user and a kind. -/

namespace Vaulton.Proofs.Config
open Vaulton.Config

theorem bind_eq_ok {ε α β : Type} {first : Except ε α} {next : α → Except ε β} {result : β} :
    (first >>= next) = .ok result ↔ ∃ value, first = .ok value ∧ next value = .ok result := by
  cases first <;> simp [bind, Except.bind]

/-- A text that can stand as one segment of a path. -/
structure PlainSegment (segment : Text) : Prop where
  nonempty : segment ≠ []
  noSlash : '/' ∉ segment
  noBackslash : '\\' ∉ segment
  notDot : segment ≠ ".".toList
  notDotDot : segment ≠ "..".toList

/-- The kind and the name of a point, which `normalize_vfs_users` makes distinct. -/
def VfsPoint.key (point : VfsPoint) : Bool × Text := (point.isRepo, point.name)

theorem checkPoint_plain {username : Text} {point : VfsPoint} (accepted : checkPoint username point = .ok ()) :
    PlainSegment point.name := by
  unfold checkPoint at accepted
  split at accepted
  · cases accepted
  next nonempty =>
    split at accepted
    · cases accepted
    · split at accepted
      · cases accepted
      · split at accepted
        · cases accepted
        next legal =>
          simp only [not_or, List.any_eq_true, not_exists, not_and, illegalChar, Bool.or_eq_true, beq_iff_eq] at legal
          obtain ⟨notDot, notDotDot, allowed⟩ := legal
          exact ⟨nonempty, fun member => (allowed '/' member).1.1 rfl, fun member => (allowed '\\' member).1.2 rfl,
            notDot, notDotDot⟩

theorem PlainSegment.suffixed {name suffix : Text} (plain : PlainSegment name) (digits : ∀ c ∈ suffix, c ≠ '/' ∧ c ≠ '\\') :
    PlainSegment (name ++ '-' :: suffix) where
  nonempty := by simp
  noSlash := by
    intro member
    simp only [List.mem_append, List.mem_cons] at member
    rcases member with inside | same | inside
    · exact plain.noSlash inside
    · cases same
    · exact (digits '/' inside).1 rfl
  noBackslash := by
    intro member
    simp only [List.mem_append, List.mem_cons] at member
    rcases member with inside | same | inside
    · exact plain.noBackslash inside
    · cases same
    · exact (digits '\\' inside).2 rfl
  notDot := by
    intro same
    have hyphen : '-' ∈ ".".toList := same ▸ by simp
    revert hyphen
    decide
  notDotDot := by
    intro same
    have hyphen : '-' ∈ "..".toList := same ▸ by simp
    revert hyphen
    decide

theorem hexDigit_plain (value : Nat) : hexDigit value ≠ '/' ∧ hexDigit value ≠ '\\' := by
  unfold hexDigit
  split
  next digit found =>
    have member : digit ∈ "0123456789abcdef".toList := List.mem_of_getElem? found
    revert member
    generalize digit = c
    intro member
    constructor <;>
      · rintro rfl
        revert member
        decide
  next => decide

theorem simple_plain (id : Uuid) : ∀ c ∈ Uuid.simple id, c ≠ '/' ∧ c ≠ '\\' := by
  intro c member
  obtain ⟨index, -, rfl⟩ := List.mem_map.mp member
  exact hexDigit_plain _

theorem decimal_plain (value : Nat) : ∀ c ∈ Nat.toDigits 10 value, c ≠ '/' ∧ c ≠ '\\' := by
  intro c member
  have digit := Nat.isDigit_of_mem_toDigits (by decide) (by decide) member
  constructor <;>
    · rintro rfl
      revert digit
      decide

private theorem countedName_spec {taken : Text → Bool} {base candidate : Text} (plain : PlainSegment base) {fuel suffix : Nat}
    (found : countedName taken base fuel suffix = some candidate) : taken candidate = false ∧ PlainSegment candidate := by
  induction fuel generalizing suffix with
  | zero => cases found
  | succ fuel ih =>
    simp only [countedName] at found
    split at found
    · exact ih found
    next free =>
      cases found
      exact ⟨by simpa using free, plain.suffixed (decimal_plain suffix)⟩

theorem assignName_spec {taken : Text → Bool} {fuel : Nat} {name candidate : Text} {id : Uuid} (plain : PlainSegment name)
    (found : assignName taken fuel name id = some candidate) : taken candidate = false ∧ PlainSegment candidate := by
  unfold assignName at found
  split at found
  next chosen first =>
    cases found
    have free := List.find?_some first
    obtain ⟨length, -, rfl⟩ := List.mem_map.mp (List.mem_of_find?_eq_some first)
    refine ⟨by simpa using free, plain.suffixed ?_⟩
    intro c member
    exact simple_plain id c (List.mem_of_mem_take member)
  next => exact countedName_spec (plain.suffixed (simple_plain id)) found

theorem normalizePoint_spec {username : Text} {names after : Names} {point result : VfsPoint}
    (accepted : normalizePoint username names point = .ok (after, result)) :
    after = VfsPoint.key result :: names ∧ VfsPoint.key result ∉ names ∧ PlainSegment result.name ∧
      result = { point with name := result.name } := by
  unfold normalizePoint at accepted
  obtain ⟨⟨⟩, checked, rest⟩ := bind_eq_ok.mp accepted
  have plain := checkPoint_plain checked
  split at rest
  next fresh =>
    cases rest
    exact ⟨rfl, fresh, plain, rfl⟩
  next =>
    split at rest
    next assigned found =>
      cases rest
      obtain ⟨free, plain⟩ := assignName_spec plain found
      exact ⟨rfl, of_decide_eq_false free, plain, rfl⟩
    next => cases rest

theorem normalizePoints_cons {username : Text} {names : Names} {point : VfsPoint} {rest results : List VfsPoint}
    (accepted : normalizePoints username names (point :: rest) = .ok results) :
    ∃ result tail, results = result :: tail ∧
      normalizePoint username names point = .ok (VfsPoint.key result :: names, result) ∧
      normalizePoints username (VfsPoint.key result :: names) rest = .ok tail := by
  obtain ⟨⟨after, result⟩, first, later⟩ := bind_eq_ok.mp accepted
  obtain ⟨tail, second, last⟩ := bind_eq_ok.mp later
  cases last
  obtain ⟨rfl, _⟩ := normalizePoint_spec first
  exact ⟨result, tail, rfl, first, second⟩

theorem normalizeUsers_cons {usernames : List Text} {user : VfsUser} {rest normalized : List VfsUser}
    (accepted : normalizeUsers usernames (user :: rest) = .ok normalized) :
    ∃ results tail, normalized = { user with points := results } :: tail ∧ validateUsername user.username = .ok () ∧
      user.username ∉ usernames ∧ normalizePoints user.username [] user.points = .ok results ∧
      normalizeUsers (user.username :: usernames) rest = .ok tail := by
  obtain ⟨⟨⟩, valid, checked⟩ := bind_eq_ok.mp accepted
  split at checked
  · cases checked
  next fresh =>
    obtain ⟨results, first, later⟩ := bind_eq_ok.mp checked
    obtain ⟨tail, second, last⟩ := bind_eq_ok.mp later
    cases last
    exact ⟨results, tail, rfl, valid, fresh, first, second⟩

theorem normalizePoints_spec {username : Text} {points result : List VfsPoint} {names : Names}
    (accepted : normalizePoints username names points = .ok result) :
    (∀ point ∈ result, PlainSegment point.name ∧ VfsPoint.key point ∉ names) ∧ (result.map VfsPoint.key).Nodup := by
  induction points generalizing names result with
  | nil =>
    cases accepted
    simp
  | cons point rest ih =>
    obtain ⟨normalized, tail, rfl, first, second⟩ := normalizePoints_cons accepted
    obtain ⟨-, fresh, plain, -⟩ := normalizePoint_spec first
    obtain ⟨valid, distinct⟩ := ih second
    constructor
    · intro other member
      rcases List.mem_cons.mp member with rfl | inside
      · exact ⟨plain, fresh⟩
      · exact ⟨(valid other inside).1, fun taken => (valid other inside).2 (List.mem_cons_of_mem _ taken)⟩
    · rw [List.map_cons, List.nodup_cons]
      refine ⟨?_, distinct⟩
      intro again
      obtain ⟨other, inside, same⟩ := List.mem_map.mp again
      exact (valid other inside).2 (by simp [same])

/-- The points of a user that `normalize_vfs_users` accepted. -/
structure NamedPoints (user : VfsUser) : Prop where
  plain : ∀ point ∈ user.points, PlainSegment point.name
  distinct : (user.points.map VfsPoint.key).Nodup

private theorem normalizeUsers_spec {users result : List VfsUser} {usernames : List Text}
    (accepted : normalizeUsers usernames users = .ok result) : ∀ user ∈ result, NamedPoints user := by
  induction users generalizing usernames result with
  | nil =>
    cases accepted
    simp
  | cons user rest ih =>
    obtain ⟨points, tail, rfl, -, -, first, second⟩ := normalizeUsers_cons accepted
    intro other member
    rcases List.mem_cons.mp member with rfl | inside
    · obtain ⟨valid, distinct⟩ := normalizePoints_spec first
      exact ⟨fun point member => (valid point member).1, distinct⟩
    · exact ih second other inside

theorem normalizeVfsUsers_named {users result : List VfsUser} (accepted : normalizeVfsUsers users = .ok result) :
    ∀ user ∈ result, NamedPoints user := by
  obtain ⟨-, -, normalized⟩ := bind_eq_ok.mp accepted
  exact normalizeUsers_spec normalized

private theorem normalizeUsers_usernames {users result : List VfsUser} {usernames : List Text}
    (accepted : normalizeUsers usernames users = .ok result) :
    (∀ user ∈ result, user.username ∉ usernames) ∧ (result.map VfsUser.username).Nodup := by
  induction users generalizing usernames result with
  | nil =>
    cases accepted
    exact ⟨by simp, List.nodup_nil⟩
  | cons user rest ih =>
    obtain ⟨points, tail, rfl, -, fresh, -, second⟩ := normalizeUsers_cons accepted
    obtain ⟨apart, distinct⟩ := ih second
    constructor
    · intro other member
      rcases List.mem_cons.mp member with rfl | inside
      · exact fresh
      · exact fun taken => apart other inside (List.mem_cons_of_mem _ taken)
    · rw [List.map_cons, List.nodup_cons]
      refine ⟨?_, distinct⟩
      intro again
      obtain ⟨other, inside, same⟩ := List.mem_map.mp again
      exact apart other inside (by simp [same])

theorem normalizeVfsUsers_usernames {users result : List VfsUser} (accepted : normalizeVfsUsers users = .ok result) :
    (result.map VfsUser.username).Nodup := by
  obtain ⟨-, -, normalized⟩ := bind_eq_ok.mp accepted
  exact (normalizeUsers_usernames normalized).2

/-! ### Ids -/

theorem checkPointId_ok {username : Text} {seen after : List (Uuid × Text × Text)} {point : VfsPoint}
    (accepted : checkPointId username seen point = .ok after) :
    after.map Prod.fst = point.id :: seen.map Prod.fst ∧ point.id ∉ seen.map Prod.fst := by
  unfold checkPointId at accepted
  split at accepted
  · cases accepted
  · split at accepted
    · cases accepted
    next fresh =>
      cases accepted
      refine ⟨rfl, ?_⟩
      intro taken
      obtain ⟨entry, member, same⟩ := List.mem_map.mp taken
      have different := List.find?_eq_none.mp fresh entry member
      simp [same] at different

private theorem checkPointIds_ok {username : Text} {points : List VfsPoint} {seen after : List (Uuid × Text × Text)}
    (accepted : points.foldlM (checkPointId username) seen = .ok after) (distinct : (seen.map Prod.fst).Nodup) :
    after.map Prod.fst = (points.map VfsPoint.id).reverse ++ seen.map Prod.fst ∧ (after.map Prod.fst).Nodup := by
  induction points generalizing seen with
  | nil =>
    cases accepted
    exact ⟨rfl, distinct⟩
  | cons point rest ih =>
    rw [List.foldlM_cons] at accepted
    obtain ⟨next, first, later⟩ := bind_eq_ok.mp accepted
    obtain ⟨ids, fresh⟩ := checkPointId_ok first
    obtain ⟨all, nodup⟩ := ih later (by rw [ids]; exact List.nodup_cons.mpr ⟨fresh, distinct⟩)
    refine ⟨?_, nodup⟩
    rw [all, ids]
    simp

private theorem checkUsers_ok {users : List VfsUser} {seen after : List (Uuid × Text × Text)}
    (accepted : users.foldlM (fun seen user => user.points.foldlM (checkPointId user.username) seen) seen = .ok after)
    (distinct : (seen.map Prod.fst).Nodup) :
    after.map Prod.fst = ((allPoints users).map VfsPoint.id).reverse ++ seen.map Prod.fst ∧ (after.map Prod.fst).Nodup := by
  induction users generalizing seen with
  | nil =>
    cases accepted
    exact ⟨rfl, distinct⟩
  | cons user rest ih =>
    rw [List.foldlM_cons] at accepted
    obtain ⟨next, first, later⟩ := bind_eq_ok.mp accepted
    obtain ⟨ids, nodup⟩ := checkPointIds_ok first distinct
    obtain ⟨all, whole⟩ := ih later nodup
    refine ⟨?_, whole⟩
    rw [all, ids]
    simp [allPoints]

theorem validatePointIds_nodup {users : List VfsUser} (accepted : validatePointIds users = .ok ()) :
    ((allPoints users).map VfsPoint.id).Nodup := by
  obtain ⟨after, checked, -⟩ := bind_eq_ok.mp accepted
  obtain ⟨ids, distinct⟩ := checkUsers_ok checked List.nodup_nil
  rw [ids, List.map_nil, List.append_nil] at distinct
  exact List.nodup_reverse.mp distinct

theorem normalizePoints_ids {username : Text} {points result : List VfsPoint} {names : Names}
    (accepted : normalizePoints username names points = .ok result) :
    result.map VfsPoint.id = points.map VfsPoint.id := by
  induction points generalizing names result with
  | nil =>
    cases accepted
    rfl
  | cons point rest ih =>
    obtain ⟨normalized, tail, rfl, first, second⟩ := normalizePoints_cons accepted
    obtain ⟨-, -, -, same⟩ := normalizePoint_spec first
    rw [List.map_cons, List.map_cons, ih second, same]

private theorem normalizeUsers_ids {users result : List VfsUser} {usernames : List Text}
    (accepted : normalizeUsers usernames users = .ok result) :
    (allPoints result).map VfsPoint.id = (allPoints users).map VfsPoint.id := by
  induction users generalizing usernames result with
  | nil =>
    cases accepted
    rfl
  | cons user rest ih =>
    obtain ⟨points, tail, rfl, -, -, first, second⟩ := normalizeUsers_cons accepted
    have ids := ih second
    simp only [allPoints, List.flatMap_cons, List.map_append] at ids ⊢
    rw [ids, normalizePoints_ids first]

theorem normalizeVfsUsers_ids {users result : List VfsUser} (accepted : normalizeVfsUsers users = .ok result) :
    ((allPoints result).map VfsPoint.id).Nodup := by
  obtain ⟨⟨⟩, checked, normalized⟩ := bind_eq_ok.mp accepted
  rw [normalizeUsers_ids normalized]
  exact validatePointIds_nodup checked

theorem owner_unique {users : List VfsUser} (distinct : ((allPoints users).map VfsPoint.id).Nodup) {user other : VfsUser}
    (user_mem : user ∈ users) (other_mem : other ∈ users) {point second : VfsPoint} (point_mem : point ∈ user.points)
    (second_mem : second ∈ other.points) (same : point.id = second.id) : user = other ∧ point = second := by
  have inside : point ∈ allPoints users := List.mem_flatMap.mpr ⟨user, user_mem, point_mem⟩
  have inside' : second ∈ allPoints users := List.mem_flatMap.mpr ⟨other, other_mem, second_mem⟩
  obtain rfl := List.inj_on_of_nodup_map distinct inside inside' same
  refine ⟨?_, rfl⟩
  by_contra different
  have symmetric : Std.Symm (Function.onFun List.Disjoint VfsUser.points) := ⟨fun _ _ apart _ first second => apart second first⟩
  have apart := (List.nodup_flatMap.mp distinct.of_map).2.forall user_mem other_mem different
  exact apart point_mem second_mem

/-! ### Identifiers -/

theorem hexDigit_injective : ∀ first < 16, ∀ second < 16, hexDigit first = hexDigit second → first = second := by decide

theorem hexDigit_ne_hyphen : ∀ value < 16, hexDigit value ≠ '-' := by decide

/-- Numbers with the same hexadecimal digits up to a position agree up to it. -/
theorem mod_eq_of_digits {first second : Nat} (count : Nat)
    (same : ∀ index < count, first / 16 ^ index % 16 = second / 16 ^ index % 16) :
    first % 16 ^ count = second % 16 ^ count := by
  induction count with
  | zero => simp [Nat.mod_one]
  | succ count ih =>
    have lower := ih fun index bound => same index (Nat.lt_succ_of_lt bound)
    rw [Nat.mod_pow_succ, Nat.mod_pow_succ, lower, same count (Nat.lt_succ_self count)]

theorem simple_injective : Function.Injective Uuid.simple := by
  intro first second same
  have digits := List.map_inj_left.mp same
  apply BitVec.eq_of_toNat_eq
  have lower : first.toNat % 16 ^ 32 = second.toNat % 16 ^ 32 := by
    apply mod_eq_of_digits
    intro index bound
    have equal := hexDigit_injective _ (Nat.mod_lt _ (by omega)) _ (Nat.mod_lt _ (by omega))
      (digits (31 - index) (List.mem_range.mpr (by omega)))
    rwa [show 31 - (31 - index) = index by omega] at equal
  have bound : (2 : Nat) ^ 128 = 16 ^ 32 := by norm_num
  rwa [Nat.mod_eq_of_lt (bound ▸ first.isLt), Nat.mod_eq_of_lt (bound ▸ second.isLt)] at lower

theorem simple_length (id : Uuid) : id.simple.length = 32 := by
  simp [Uuid.simple]

theorem hyphenated_eq (id : Uuid) : id.hyphenated =
    id.simple.take 8 ++ '-' :: ((id.simple.drop 8).take 4 ++ '-' :: ((id.simple.drop 12).take 4 ++
      '-' :: ((id.simple.drop 16).take 4 ++ '-' :: id.simple.drop 20))) := by
  simp [Uuid.hyphenated, List.intersperse]

theorem hyphenated_length (id : Uuid) : id.hyphenated.length = 36 := by
  rw [hyphenated_eq]
  simp [simple_length]

theorem simple_no_hyphen (id : Uuid) : '-' ∉ id.simple := by
  intro member
  obtain ⟨index, -, same⟩ := List.mem_map.mp member
  exact hexDigit_ne_hyphen _ (Nat.mod_lt _ (by omega)) same

theorem hyphenated_filter (id : Uuid) : id.hyphenated.filter (· ≠ '-') = id.simple := by
  have kept : ∀ piece : Text, piece ⊆ id.simple → piece.filter (· ≠ '-') = piece := by
    intro piece inside
    rw [List.filter_eq_self]
    intro digit member
    simp only [decide_eq_true_eq]
    rintro rfl
    exact simple_no_hyphen id (inside member)
  have taken : ∀ start count, ((id.simple.drop start).take count).filter (· ≠ '-') = (id.simple.drop start).take count :=
    fun start count => kept _ fun _ member => List.mem_of_mem_drop (List.mem_of_mem_take member)
  have whole : ∀ start count, (id.simple.drop start).take count ++ id.simple.drop (start + count) = id.simple.drop start := by
    intro start count
    rw [← List.drop_drop, List.take_append_drop]
  have skip : ∀ rest : Text, ('-' :: rest).filter (· ≠ '-') = rest.filter (· ≠ '-') := by
    intro rest
    rw [List.filter_cons_of_neg (by simp)]
  rw [hyphenated_eq]
  simp only [List.filter_append, skip]
  rw [kept _ (List.take_subset 8 _), kept _ (List.drop_subset 20 _), taken, taken, taken, whole 16 4, whole 12 4, whole 8 4,
    List.take_append_drop]

theorem hyphenated_injective : Function.Injective Uuid.hyphenated := by
  intro first second same
  apply simple_injective
  rw [← hyphenated_filter, ← hyphenated_filter, same]
end Vaulton.Proofs.Config
