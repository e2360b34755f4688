import Tabular.Proofs.Buffer
import Tabular.Proofs.Heap
import Tabular.Series.Basic

/-! Where a series lives after a change. One that was in a block is in it still, and then with the
same elements, only if the change was idle; after any other change it needs a block of its own. -/

namespace Tabular

open Buffer (Edit Reply)

namespace Series

variable {t : CellType} {s : Series t} {e : Edit (Cell t)}

@[simp] theorem storage_edit : (s.edit e).2.storage = s.storageAfter e := by
  rw [edit]
  split <;> rfl

theorem storageAfter_of_stays (stays : e ≠ .clear) :
    s.storageAfter e = if e.claims s.buffer then s.storage.claimed else s.storage := by
  cases e with
  | clear => exact absurd rfl stays
  | _ => rfl

theorem home?_storageAfter_of_not_idle (busy : ¬ e.Idle s.buffer) :
    (s.storageAfter e).home? = none := by
  by_cases drops : e = .clear
  · subst drops
    rfl
  · rw [storageAfter_of_stays drops, if_pos (Edit.claims_of_not_idle busy drops),
      Storage.home?_claimed]

theorem buffer_edit_of_idle (idle : e.Idle s.buffer) : (s.edit e).2.buffer = s.buffer := by
  rw [edit]
  split
  · next ran => exact Edit.run_of_idle idle ran
  · rfl

theorem storageAfter_of_home {id : Nat} (home : s.storageAfter e = .block id) :
    s.storage = .block id := by
  cases e with
  | clear => simp [storageAfter] at home
  | _ =>
    rw [storageAfter_of_stays (by simp)] at home
    split at home
    · have lost := Storage.home?_claimed s.storage
      rw [home] at lost
      cases lost
    · exact home

theorem edit_of_home {id : Nat} (home : (s.edit e).2.storage = .block id) :
    s.storage = .block id ∧ (s.edit e).2.buffer = s.buffer := by
  rw [storage_edit] at home
  refine ⟨storageAfter_of_home home, buffer_edit_of_idle ?_⟩
  by_contra busy
  have lost := home?_storageAfter_of_not_idle busy
  rw [home] at lost
  cases lost

end Series

end Tabular
