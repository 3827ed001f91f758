import Atoshi.Energy.Settle

namespace Atoshi
open Exec

/-! Bank's keeper calls, in the order of the Evmos fork: a send debits the sender,
runs the send restrictions and credits the recipient last. -/

variable {A : Type} [LinearOrder A]

/-- Module accounts never vest. -/
def lockedCoins (env : Env A) (ctx : Ctx A) (a : A) (d : Denom) : Nat :=
  if env.isModuleAccount a then 0 else ctx.vestingLocked a d

def State.setBank (s : State A) (b : Bank A) : State A := { s with bank := b }

variable (env : Env A) (ctx : Ctx A) (a : A) (s : State A) (b : Bank A)

@[simp] theorem State.setBank_bank : (s.setBank b).bank = b := rfl
@[simp] theorem State.setBank_energy (s : State A) (b : Bank A) :
    (s.setBank b).energy = s.energy := rfl
@[simp] theorem State.setBank_staking : (s.setBank b).staking = s.staking := rfl

def subUnlockedCoins (env : Env A) (ctx : Ctx A) (a : A) (l : List (Denom × Int)) : Call A Unit :=
  l.forM fun p => do
    let s ← get
    require (lockedCoins env ctx a p.1+p.2 ≤ s.bank.balance a p.1) Err.insufficientFunds
    modify fun s => s.setBank (s.bank.addBalance a p.1 (-p.2))

def addCoins (a : A) (l : List (Denom × Int)) : Call A Unit :=
  modify fun s => s.setBank (s.bank.addCoins a l)

def addSupply (d : Denom) (x : Int) : Call A Unit :=
  modify fun s => s.setBank (s.bank.addSupply d x)

def mintCoins (moduleAddr : A) (c : Coins) : Call A Unit := do
  addCoins moduleAddr c.store.entries
  c.store.entries.forM fun p => addSupply p.1 p.2

/-- `bank.BurnCoins` of a list of coins as the caller put it together. -/
def burnEntries (env : Env A) (ctx : Ctx A) (moduleAddr : A) (l : List (Denom × Int)) :
    Call A Unit := do
  subUnlockedCoins env ctx moduleAddr l
  l.forM fun p => addSupply p.1 (-p.2)

def burnCoins (env : Env A) (ctx : Ctx A) (moduleAddr : A) (c : Coins) : Call A Unit :=
  burnEntries env ctx moduleAddr c.store.entries

/-- A send whose second restriction, the one of x/atox, is given. -/
def sendVia (env : Env A) (ctx : Ctx A) (src dest : A) (amt : Coins) (atoxHook : Call A Unit) :
    Call A Unit := do
  subUnlockedCoins env ctx src amt.store.entries
  modify (Energy.sendRestriction ctx src dest amt)
  atoxHook
  addCoins dest amt.store.entries

theorem subUnlockedCoins_nil : subUnlockedCoins env ctx a [] s = .ok () s := rfl

theorem subUnlockedCoins_cons (p : Denom × Int) (l : List (Denom × Int)) (s : State A) :
    subUnlockedCoins env ctx a (p :: l) s =
      if lockedCoins env ctx a p.1+p.2 ≤ s.bank.balance a p.1 then
        subUnlockedCoins env ctx a l (s.setBank (s.bank.addBalance a p.1 (-p.2)))
      else .error .insufficientFunds s := by
  by_cases h : lockedCoins env ctx a p.1+p.2 ≤ s.bank.balance a p.1
  · rw [if_pos h]
    refine run_bind_of_ok (a := ()) _ ?_
    simp [run_bind,h]
  · rw [if_neg h]
    refine run_bind_of_error _ ?_
    simp [run_bind,h]

theorem subUnlockedCoins_one (d : Denom) (x : Int) (s : State A) :
    subUnlockedCoins env ctx a [(d,x)] s =
      if lockedCoins env ctx a d+x ≤ s.bank.balance a d then
        .ok () (s.setBank (s.bank.addBalance a d (-x)))
      else .error .insufficientFunds s :=
  subUnlockedCoins_cons env ctx a (d,x) [] s

variable {a : A} {env : Env A} {ctx : Ctx A} {s t : State A} {l : List (Denom × Int)}

theorem subUnlockedCoins_ok (h : subUnlockedCoins env ctx a l s = .ok () t) :
    t = s.setBank (s.bank.subCoins a l) := by
  induction l generalizing s with
  | nil =>
    rw [subUnlockedCoins_nil] at h
    cases h
    rfl
  | cons p rest ih =>
    rw [subUnlockedCoins_cons] at h
    split at h
    · exact ih h
    · cases h

theorem subUnlockedCoins_nonneg (h : subUnlockedCoins env ctx a l s = .ok () t)
    (hs : ∀ b d, 0 ≤ s.bank.balance b d) (b : A) (d : Denom) : 0 ≤ t.bank.balance b d := by
  induction l generalizing s with
  | nil =>
    rw [subUnlockedCoins_nil] at h
    cases h
    exact hs b d
  | cons p rest ih =>
    rw [subUnlockedCoins_cons] at h
    split at h
    · rename_i hle
      refine ih h ?_
      intro c e
      have hce := hs c e
      rw [State.setBank_bank,Bank.balance_addBalance]
      split
      · rename_i heq
        rw [heq.1,heq.2]
        omega
      · omega
    · cases h

theorem subUnlockedCoins_of_le (hdenoms : (l.map Prod.fst).Nodup)
    (hle : ∀ p ∈ l, lockedCoins env ctx a p.1+p.2 ≤ s.bank.balance a p.1) :
    subUnlockedCoins env ctx a l s = .ok () (s.setBank (s.bank.subCoins a l)) := by
  induction l generalizing s with
  | nil => rfl
  | cons p rest ih =>
    obtain ⟨hp,hrest⟩ := List.nodup_cons.mp hdenoms
    rw [subUnlockedCoins_cons,if_pos (hle p List.mem_cons_self)]
    refine ih hrest ?_
    intro q hq
    have hne : q.1 ≠ p.1 := fun heq => hp (heq ▸ List.mem_map_of_mem hq)
    rw [State.setBank_bank,Bank.balance_addBalance,if_neg fun h => hne h.2]
    simpa using hle q (List.mem_cons_of_mem p hq)

theorem sendVia_eq_ok {src dest : A} {amt : Coins}
    {hook : Call A Unit} (hok : sendVia env ctx src dest amt hook s = .ok () t) :
    let debited := s.setBank (s.bank.subCoins src amt.store.entries)
    subUnlockedCoins env ctx src amt.store.entries s = .ok () debited ∧
      ∃ v, hook (Energy.sendRestriction ctx src dest amt debited) = .ok () v ∧
        t = v.setBank (v.bank.addCoins dest amt.store.entries) := by
  unfold sendVia at hok
  obtain ⟨_,s1,hsub,hok⟩ := bind_eq_ok.mp hok
  obtain rfl := subUnlockedCoins_ok hsub
  rw [run_modify_bind] at hok
  obtain ⟨_,v,hrun,hok⟩ := bind_eq_ok.mp hok
  cases hok
  exact ⟨hsub,v,hrun,rfl⟩

theorem forM_addSupply (l : List (Denom × Int)) (f : Int → Int) (s : State A) :
    (l.forM fun p => addSupply p.1 (f p.2) : Call A Unit) s =
      .ok () (s.setBank (l.foldl (fun b p => b.addSupply p.1 (f p.2)) s.bank)) := by
  induction l generalizing s with
  | nil => rfl
  | cons p rest ih => exact ih (s.setBank (s.bank.addSupply p.1 (f p.2)))

theorem burnEntries_of_le (env : Env A) (ctx : Ctx A) (m : A) (hdenoms : (l.map Prod.fst).Nodup)
    (hle : ∀ p ∈ l, lockedCoins env ctx m p.1+p.2 ≤ s.bank.balance m p.1) :
    ∃ t, burnEntries env ctx m l s = .ok () t ∧
      ∀ a d, t.bank.balance a d =
        s.bank.balance a d-(if a = m then Coins.listAmount l d else 0) := by
  have hsupply : ∀ (r : List (Denom × Int)) (b : Bank A) (a : A) (d : Denom),
      (r.foldl (fun b p => b.addSupply p.1 (-p.2)) b).balance a d = b.balance a d := by
    intro r
    induction r with
    | nil => exact fun _ _ _ => rfl
    | cons p rest ih => exact fun b a d => by rw [List.foldl_cons,ih,Bank.balance_addSupply]
  have hrun : burnEntries env ctx m l s = _ :=
    (run_bind_of_ok _ (subUnlockedCoins_of_le hdenoms hle)).trans
      (forM_addSupply l (fun x => -x) _)
  refine ⟨_,hrun,?_⟩
  intro a d
  rw [State.setBank_bank,hsupply,State.setBank_bank]
  unfold Bank.balance
  rw [Bank.subCoins_balances,Ledger.bal_debit]

theorem mintCoins_new (m : A) (d : Denom) {x : Int} (hx : 0 < x) (s : State A) :
    mintCoins m (Coins.new d x) s =
      .ok () (s.setBank ((s.bank.addBalance m d x).addSupply d x)) := by
  unfold mintCoins
  rw [Coins.entries_new hx]
  rfl

theorem burnCoins_new (env : Env A) (ctx : Ctx A) (m : A) (d : Denom) {x : Int} (hx : 0 < x)
    (s : State A) :
    burnCoins env ctx m (Coins.new d x) s =
      if lockedCoins env ctx m d+x ≤ s.bank.balance m d then
        .ok () (s.setBank ((s.bank.addBalance m d (-x)).addSupply d (-x)))
      else .error .insufficientFunds s := by
  unfold burnCoins burnEntries
  rw [Coins.entries_new hx,run_bind,subUnlockedCoins_one]
  by_cases h : lockedCoins env ctx m d+x ≤ s.bank.balance m d
  · rw [if_pos h,if_pos h]
    rfl
  · rw [if_neg h,if_neg h]

end Atoshi
