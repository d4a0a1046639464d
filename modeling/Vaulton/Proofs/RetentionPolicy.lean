import Vaulton.RepoJobs

/-! The arithmetic of a retention policy. A percentage of the quota is cut to 64 bits and a
keep count is read as a signed number; neither shows for a policy that was validated, but
Backup takes any policy that has rules. -/

namespace Vaulton.Proofs.RetentionPolicy
open Vaulton.Quota Vaulton.Retention Vaulton.RepoJobs

variable {policy other : RetentionPolicy} {maxBytes : Nat}

/-- A policy that some job runs with. -/
def Admitted (policy : RetentionPolicy) : Prop :=
  (∃ retention dryRun, backupPolicy retention dryRun = some policy) ∨ ∃ sent, applyRetentionPolicy sent = .ok policy

/-- The fields of the message: `uint32`, and `uint64` for the bytes. -/
structure InRange (policy : RetentionPolicy) : Prop where
  counts : ∀ count ∈ policy.counts, count < 2 ^ 32
  percent : policy.reservePercent < 2 ^ 32
  bytes : policy.reserveBytes < 2 ^ 64

def KeepOptions.counts (keep : KeepOptions) : List (Option Int) :=
  [keep.last, keep.hourly, keep.daily, keep.weekly, keep.monthly, keep.yearly]

/-- The target in unbounded integers, and every count passed on as it is. -/
structure Exact (maxBytes : Nat) (policy : RetentionPolicy) : Prop where
  target : targetFree maxBytes policy =
    min (max policy.reserveBytes (maxBytes * policy.reservePercent / 100)) (maxBytes / 2)
  counts : ∀ keep, buildKeep policy = .ok (some keep) →
    ∀ pair ∈ (KeepOptions.counts keep).zip policy.counts, ∀ value ∈ pair.1, 0 < value ∧ value = pair.2

/-- What is cut off the percentage does not decide the target, and every count is a
positive `i32`, unless the days alone make the policy fail. -/
structure Fits (maxBytes : Nat) (policy : RetentionPolicy) : Prop where
  target : maxBytes * policy.reservePercent / 100 < 2 ^ 64 ∨ maxBytes / 2 ≤ policy.reserveBytes ∨
    maxBytes / 2 ≤ maxBytes * policy.reservePercent / 100 % 2 ^ 64
  counts : policy.keepWithinDays > maxSpanDays ∨ ∀ count ∈ policy.counts, count ≤ i32Max

/-! ### Keep counts -/

theorem asI32_eq_iff {count : Nat} (range : count < 2 ^ 32) : asI32 count = count ↔ count ≤ i32Max := by
  rw [asI32, BitVec.toInt_eq_toNat_cond, BitVec.toNat_ofNat, Nat.mod_eq_of_lt range, i32Max]
  split <;> omega

theorem keepCount_exact_iff {count : Nat} (range : count < 2 ^ 32) :
    (∀ value ∈ keepCount count, 0 < value ∧ value = count) ↔ count ≤ i32Max := by
  rw [keepCount]
  split
  next positive =>
    rw [← asI32_eq_iff range]
    constructor
    · intro exact
      exact (exact _ rfl).2
    · intro same value passed
      cases passed
      rw [same]
      omega
  next zero =>
    constructor
    · intro _
      omega
    · intro _ value passed
      cases passed

theorem hasTimeRules_of_count {count : Nat} (member : count ∈ policy.counts) (positive : 0 < count) :
    hasTimeRules policy = true := by
  simp only [RetentionPolicy.counts, List.mem_cons, List.not_mem_nil, or_false] at member
  simp only [hasTimeRules, Bool.or_eq_true, decide_eq_true_eq]
  omega

theorem buildKeep_counts {keep : KeepOptions} (built : buildKeep policy = .ok (some keep)) :
    KeepOptions.counts keep = policy.counts.map keepCount := by
  rw [buildKeep] at built
  split at built
  · split at built
    · cases built
    · cases built
      rfl
  · cases built

theorem buildKeep_ok_iff : (∃ keep, buildKeep policy = .ok (some keep)) ↔
    hasTimeRules policy = true ∧ policy.keepWithinDays ≤ maxSpanDays := by
  rw [buildKeep]
  split
  next rules =>
    split
    next long =>
      constructor
      · intro ⟨keep, impossible⟩
        cases impossible
      · intro ⟨_, short⟩
        omega
    next short =>
      constructor
      · intro _
        exact ⟨rules, by omega⟩
      · intro _
        exact ⟨_, rfl⟩
  next none_set =>
    constructor
    · intro ⟨keep, impossible⟩
      cases impossible
    · intro ⟨rules, _⟩
      exact absurd rules none_set

theorem zip_map_forall {α β : Type} (items : List α) (f : α → β) (property : β × α → Prop) :
    (∀ pair ∈ (items.map f).zip items, property pair) ↔ ∀ item ∈ items, property (f item, item) := by
  induction items with
  | nil => simp
  | cons item rest ih => rw [List.map_cons, List.zip_cons_cons, List.forall_mem_cons, List.forall_mem_cons, ih]

theorem counts_exact_iff (range : InRange policy) :
    (∀ keep, buildKeep policy = .ok (some keep) →
      ∀ pair ∈ (KeepOptions.counts keep).zip policy.counts, ∀ value ∈ pair.1, 0 < value ∧ value = pair.2) ↔
    (policy.keepWithinDays > maxSpanDays ∨ ∀ count ∈ policy.counts, count ≤ i32Max) := by
  constructor
  · intro exact
    by_cases short : policy.keepWithinDays ≤ maxSpanDays
    · right
      intro count member
      by_cases positive : 0 < count
      · obtain ⟨keep, built⟩ := buildKeep_ok_iff.mpr ⟨hasTimeRules_of_count member positive, short⟩
        have passed := exact keep built
        rw [buildKeep_counts built, zip_map_forall] at passed
        exact (keepCount_exact_iff (range.counts count member)).mp (passed count member)
      · omega
    · left
      omega
  · intro fits keep built
    obtain ⟨_, short⟩ := buildKeep_ok_iff.mp ⟨keep, built⟩
    rcases fits with long | small
    · omega
    · rw [buildKeep_counts built, zip_map_forall]
      intro count member
      exact (keepCount_exact_iff (range.counts count member)).mpr (small count member)

/-! ### The target -/

theorem target_exact_iff (quota : maxBytes < 2 ^ 64) :
    targetFree maxBytes policy = min (max policy.reserveBytes (maxBytes * policy.reservePercent / 100)) (maxBytes / 2) ↔
      maxBytes * policy.reservePercent / 100 < 2 ^ 64 ∨ maxBytes / 2 ≤ policy.reserveBytes ∨
        maxBytes / 2 ≤ maxBytes * policy.reservePercent / 100 % 2 ^ 64 := by
  rw [targetFree, maxReserveDivisor]
  generalize maxBytes * policy.reservePercent / 100 = share
  omega

theorem exact_iff (quota : maxBytes < 2 ^ 64) (range : InRange policy) : Exact maxBytes policy ↔ Fits maxBytes policy := by
  constructor
  · intro exact
    exact ⟨(target_exact_iff quota).mp exact.target, (counts_exact_iff range).mp exact.counts⟩
  · intro fits
    exact ⟨(target_exact_iff quota).mpr fits.target, (counts_exact_iff range).mpr fits.counts⟩

/-- In unbounded integers a larger reserve asks for no less. -/
theorem Exact.monotone (exact : Exact maxBytes policy) (other_exact : Exact maxBytes other)
    (bytes : policy.reserveBytes ≤ other.reserveBytes) (percent : policy.reservePercent ≤ other.reservePercent) :
    targetFree maxBytes policy ≤ targetFree maxBytes other := by
  have share : maxBytes * policy.reservePercent / 100 ≤ maxBytes * other.reservePercent / 100 :=
    Nat.div_le_div_right (Nat.mul_le_mul_left maxBytes percent)
  rw [exact.target, other_exact.target]
  omega

/-! ### Policies that were validated -/

theorem validate_ok (valid : validate policy = .ok ()) :
    policy.reservePercent ≤ 50 ∧ policy.keepWithinDays ≤ 36500 ∧ ∀ count ∈ policy.counts, count ≤ i32Max := by
  rw [validate] at valid
  split at valid
  · cases valid
  · split at valid
    · cases valid
    next percent =>
      split at valid
      · cases valid
      next days =>
        split at valid
        · cases valid
        next small =>
          refine ⟨by omega, by omega, ?_⟩
          intro count member
          by_contra large
          apply small
          exact List.any_eq_true.mpr ⟨count, member, decide_eq_true (by omega)⟩

theorem applied_policy_fits {sent : Option RetentionPolicy} (quota : maxBytes < 2 ^ 64)
    (applied : applyRetentionPolicy sent = .ok policy) : Fits maxBytes policy := by
  cases sent with
  | none => cases applied
  | some asked =>
    simp only [applyRetentionPolicy] at applied
    cases valid : validate asked with
    | error message =>
      rw [valid] at applied
      cases applied
    | ok _ =>
      rw [valid] at applied
      cases applied
      obtain ⟨percent, _, small⟩ := validate_ok valid
      refine ⟨.inl ?_, .inr small⟩
      have share : maxBytes * policy.reservePercent / 100 ≤ maxBytes * 50 / 100 :=
        Nat.div_le_div_right (Nat.mul_le_mul_left maxBytes percent)
      omega

/-- The target, its growth with the reserve and the keep counts are exact for two policies
exactly when nothing that is cut off matters for either of them. -/
theorem policy_arithmetic_exact_iff (maxBytes : Nat) (policy other : RetentionPolicy) (quota : maxBytes < 2 ^ 64)
    (range : InRange policy) (other_range : InRange other) :
    (Exact maxBytes policy ∧ Exact maxBytes other ∧
      (policy.reserveBytes ≤ other.reserveBytes → policy.reservePercent ≤ other.reservePercent →
        targetFree maxBytes policy ≤ targetFree maxBytes other)) ↔
    Fits maxBytes policy ∧ Fits maxBytes other := by
  rw [exact_iff quota range, exact_iff quota other_range]
  constructor
  · intro ⟨fits, other_fits, _⟩
    exact ⟨fits, other_fits⟩
  · intro ⟨fits, other_fits⟩
    refine ⟨fits, other_fits, ?_⟩
    exact ((exact_iff quota range).mpr fits).monotone ((exact_iff quota other_range).mpr other_fits)

/-! ### Runs -/

def reserveHalf : RetentionPolicy := { keepLast := 7, reservePercent := 50 }

theorem reserveHalf_applied : applyRetentionPolicy (some reserveHalf) = .ok reserveHalf := by rfl

theorem reserveHalf_inRange : InRange reserveHalf where
  counts := by decide
  percent := by decide
  bytes := by decide

theorem half_reserve_is_exact : Exact 1000 reserveHalf ∧ targetFree 1000 reserveHalf = 500 := by
  have fits : Fits 1000 reserveHalf := applied_policy_fits (by omega) reserveHalf_applied
  have exact := (policy_arithmetic_exact_iff 1000 reserveHalf reserveHalf (by omega) reserveHalf_inRange
    reserveHalf_inRange).mpr ⟨fits, fits⟩
  exact ⟨exact.1, by rfl⟩

def keepManyLast : RetentionPolicy := { keepLast := 2 ^ 31 }

/-- Backup runs with a policy whose count turns negative. -/
theorem backup_keeps_negative_count : ¬∀ maxBytes policy, maxBytes < 2 ^ 64 → Admitted policy → InRange policy →
    Exact maxBytes policy := by
  intro always
  have exact := always 0 keepManyLast (by omega) (.inl ⟨some keepManyLast, false, by rfl⟩) ⟨by decide, by decide, by decide⟩
  have passed := exact.counts ⟨some (-2 ^ 31), none, none, none, none, none, none⟩ (by rfl) (some (-2 ^ 31), 2 ^ 31) (by decide)
  have positive := (passed (-2 ^ 31) rfl).1
  omega

end Vaulton.Proofs.RetentionPolicy
