import Atoshi.Bridge.Wire
import Atoshi.Statedb.Exact

namespace Atoshi.Statedb
open StateDB

/-! The stored slots over the commits of transactions. -/

/-- `BytesToHash` reads back what `Hash.Bytes` writes. -/
theorem Hash.ofBytes_bytes (h : Hash) : Hash.ofBytes h.bytes = h := by
  have hbytes : h.bytes = Bridge.lowBytes 32 h.val := by
    unfold bytes Bridge.lowBytes
    rw [List.ofFn_eq_map,← List.map_coe_finRange_eq_range,List.map_map]
    rfl
  have hread := Bridge.bigEndian_lowBytes 32 h.val
  unfold Bridge.bigEndian at hread
  unfold ofBytes
  simp only [Nat.mul_comm 256,hbytes,hread]
  exact Fin.ext (Nat.mod_eq_of_lt (Nat.mod_lt _ (by decide)) |>.trans
    (Nat.mod_eq_of_lt (by have := h.isLt; omega)))

variable {A : Type}

/-- The stored slots are the slots that are not zero. -/
def EvmStore.Sparse (store : EvmStore A) : Prop :=
  ∀ a key, store.storage a key ≠ none ↔ store.getState a key ≠ 0

namespace EvmStore

variable {store store' : EvmStore A}

theorem Sparse.of_storage (h : store.Sparse)
    (hs : ∀ a key value, store'.storage a key = some value → store.storage a key = some value ∨
      ∃ v : Hash, v ≠ 0 ∧ value = v.bytes) : store'.Sparse := by
  intro a key
  unfold getState
  cases hvalue : store'.storage a key with
  | none => simp
  | some value =>
    rcases hs a key value hvalue with hold | ⟨v,hv,rfl⟩
    · simpa [getState,hold] using h a key
    · simpa [Hash.bytes_length,Hash.ofBytes_bytes] using hv

end EvmStore

variable [LinearOrder A]

/-- The commit is handed no slot that is zero. -/
def StateDB.Nonzero (db : StateDB A (EvmStore A)) : Prop :=
  ∀ a ∈ db.journal.sortedDirties, ∀ o ∈ db.stateObjects a, o.suicided = false →
    ∀ p ∈ o.dirtyStorage.entries, p.2 ≠ 0

variable (keccak256Hash : Bytes → Hash) (blocked : A → Bool) (decimals : Decimals)

def evmBackend : Backend A (EvmStore A) :=
  ⟨evmKeeper (keccak256Hash []) blocked,keccak256Hash,decimals⟩

namespace EvmStore

variable {keccak256Hash blocked decimals} {store : EvmStore A}

theorem setBalance_sparse (a : A) (amount : Int) :
    Exec.Triple Sparse (setBalance blocked a amount) (fun _ => Sparse) fun _ _ => True := by
  refine .get fun s hs => .require (fun _ _ _ => trivial) fun _ =>
    .require (fun _ _ _ => trivial) fun _ => ?_
  rintro _ rfl
  exact hs

theorem setAccount_sparse (emptyCodeHash : Hash) (a : A) (account : Account) :
    Exec.Triple Sparse (setAccount emptyCodeHash blocked a account) (fun _ => Sparse)
      fun _ _ => True :=
  .bind (fun _ => Sparse) (.modify fun _ hs => hs) fun _ =>
    .bind (fun _ => Sparse) (.modify fun _ hs => hs) fun _ => setBalance_sparse a account.balance

theorem Sparse.putState {a : A} {key : Hash} {value : Option Bytes} (h : store.Sparse)
    (hv : ∀ bz, value = some bz → ∃ v : Hash, v ≠ 0 ∧ bz = v.bytes) :
    (store.putState a key value).Sparse := by
  refine h.of_storage fun b k bz hbz => ?_
  by_cases hb : b = a
  · subst hb
    by_cases hk : k = key
    · subst hk
      exact .inr (hv bz (by simpa [EvmStore.putState] using hbz))
    · exact .inl (by simpa [EvmStore.putState,Function.update_of_ne hk] using hbz)
  · exact .inl (by simpa [EvmStore.putState,Function.update_of_ne hb] using hbz)

theorem deleteAccount_sparse (a : A) :
    Exec.Triple Sparse (deleteAccount blocked a) (fun _ => Sparse) fun _ _ => True := by
  refine .get fun s hs => ?_
  have hpre : ∀ t, t = s → t.Sparse := fun t ht => ht ▸ hs
  cases s.sequence a with
  | none => exact .pure hpre
  | some nonce =>
    refine .require (fun _ _ _ => trivial) fun _ =>
      .bind (fun _ => Sparse) ((setBalance_sparse a 0).pre hpre) fun _ =>
      .bind (fun _ => Sparse) (.modify fun t ht => ht.of_storage fun b k bz hbz => .inl ?_) fun _ =>
      .bind (fun _ => Sparse) (.modify fun _ ht => ht) fun _ => .modify fun _ ht => ht
    by_cases hb : b = a
    · subst hb
      simp at hbz
    · simpa [Function.update_of_ne hb] using hbz

theorem write_sparse {w : Write A}
    (hw : ∀ a key value, w = .setState a key value → ∃ v : Hash, v ≠ 0 ∧ value = v.bytes) :
    Exec.Triple Sparse ((evmBackend keccak256Hash blocked decimals).keeper.write w)
      (fun _ => Sparse) fun _ _ => True := by
  cases w with
  | deleteCode | setCode => exact .modify fun _ hs => hs
  | deleteState a key => exact .modify fun _ hs => hs.putState fun _ h => by cases h
  | setState a key value =>
    exact .modify fun _ hs => hs.putState fun bz h => hw a key bz (by cases h; rfl)
  | setAccount a account => exact setAccount_sparse _ a account
  | deleteAccount a => exact deleteAccount_sparse a

end EvmStore

section Commits

variable {keccak256Hash blocked decimals} {db : StateDB A (EvmStore A)} {store : EvmStore A}

/-- One commit: the slots stay sparse if it starts from a sparse store and is handed no zero. -/
theorem EvmStore.Sparse.commit (hdb : Healthy (evmBackend keccak256Hash blocked decimals) db)
    (h : db.multistore.Sparse) (hzero : db.Nonzero)
    (hok : db.commit (evmBackend keccak256Hash blocked decimals) = .ok () store) :
    store.Sparse := by
  unfold StateDB.commit commitWithCtx at hok
  rw [pendingWrites_eq hdb.sound.ready] at hok
  refine (Exec.Triple.forM _ fun w hw => EvmStore.write_sparse fun b key value hset => ?_).ok h hok
  obtain ⟨a,ha,hmem⟩ := List.mem_flatMap.mp hw
  unfold accountWrites at hmem
  cases ho : db.stateObjects a with
  | none => simp [ho] at hmem
  | some o =>
    rcases mem_writes (by simpa [ho] using hmem) with hnot | ⟨hlive,p,hp,hslot⟩
    · exact absurd hset (hnot b key value).2
    · cases hset.symm.trans hslot
      exact ⟨p.2,hzero _ ha o ho hlive p hp,rfl⟩

variable (B : Backend A (EvmStore A))

section Runs

variable {B}

end Runs

end Commits

end Atoshi.Statedb
