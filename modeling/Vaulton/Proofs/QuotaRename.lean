import Vaulton.QuotaAccessor

/-! What a rename does to the ledger of a layer. The renamed object keeps its bytes; those
of the object it replaces are gone, but nobody subtracts them. -/

namespace Vaulton.Proofs.QuotaRename
open Vaulton.Lib Vaulton.Quota

/-- The bytes that a rename leaves: all but those it replaced. -/
theorem storeBytes_rename {store : Store} {source dest : Path} {content : Content} (found : store.lookup source = some content)
    (different : source ≠ dest) : storeBytes (rename store source dest) + sizeOfPath store dest = storeBytes store := by
  have size : weightAt List.length store source = content.length := by simp [weightAt, found]
  have replaced : weightAt List.length (store.erase source) dest = weightAt List.length store dest :=
    weightAt_erase_of_ne store different.symm
  have removed := total_erase List.length store source
  have inserted := total_insert List.length (store.erase source) dest content
  simp only [storeBytes, sizeOfPath, rename, found]
  omega

theorem storeBytes_rename_self {store : Store} {source : Path} {content : Content} (found : store.lookup source = some content) :
    storeBytes (rename store source source) = storeBytes store := by
  have size : weightAt List.length store source = content.length := by simp [weightAt, found]
  have emptied := weightAt_erase List.length store source
  have removed := total_erase List.length store source
  have inserted := total_insert List.length (store.erase source) source content
  simp only [storeBytes, rename, found]
  omega

/-- A successful rename keeps the counter equal to the stored bytes exactly when it
replaces no bytes. -/
theorem rename_keeps_ledger_iff (accessor : QuotaAccessor) (failure : Option Error) (world after : World) (source dest : Path)
    (counted : world.counter.bytes = storeBytes world.store)
    (renamed : accessor.rename failure world source dest = (after, none)) :
    after.counter.bytes = storeBytes after.store ↔ source = dest ∨ sizeOfPath world.store dest = 0 := by
  cases failure with
  | some error => cases renamed
  | none =>
    cases found : world.store.lookup source with
    | none =>
      simp only [QuotaAccessor.rename, found] at renamed
      cases renamed
    | some content =>
      simp only [QuotaAccessor.rename, found, Prod.mk.injEq, and_true] at renamed
      subst after
      dsimp only
      by_cases same : source = dest
      · subst dest
        rw [storeBytes_rename_self found]
        simp [counted]
      · have kept := storeBytes_rename found same
        rw [counted]
        constructor
        · intro equal
          right
          omega
        · intro free
          rcases free with equal | empty
          · exact absurd equal same
          · omega

/-- Two objects of two bytes and one byte. -/
def twoObjects : World := ⟨((∅ : Store).insert "a" [1, 2]).insert "b" [3], ⟨3, true⟩, 0⟩

def plainAccessor : QuotaAccessor := ⟨"tenant", 10, ⟨false, false⟩⟩

theorem rename_to_new_name_keeps_ledger : ∃ after, plainAccessor.rename none twoObjects "a" "c" = (after, none) ∧
    after.counter.bytes = storeBytes after.store := by
  have renamed : plainAccessor.rename none twoObjects "a" "c" = ((plainAccessor.rename none twoObjects "a" "c").1, none) := by rfl
  refine ⟨_, renamed, ?_⟩
  apply (rename_keeps_ledger_iff plainAccessor none twoObjects _ "a" "c" rfl renamed).mpr
  exact .inr rfl

/-- Three bytes stay on the account of two. -/
theorem overwriting_rename_keeps_counting : ¬∀ (accessor : QuotaAccessor) (world after : World) (source dest : Path),
    world.counter.bytes = storeBytes world.store → accessor.rename none world source dest = (after, none) →
    after.counter.bytes = storeBytes after.store := by
  intro always
  have kept : 3 = 2 := always plainAccessor twoObjects _ "a" "b" rfl rfl
  cases kept

end Vaulton.Proofs.QuotaRename
