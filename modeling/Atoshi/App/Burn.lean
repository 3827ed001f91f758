import Atoshi.Energy.Ante

namespace Atoshi.App

/-! The post handler that burns the fees of Cosmos transactions. -/

open Energy

variable {A G : Type} [LinearOrder A]

def msgEthereumTx : String := "/ethermint.evm.v1.MsgEthereumTx"

def burnedCoins (env : Env A) (s : State A) (fee : Coins) : List (Denom × Int) :=
  fee.store.entries.filterMap fun c =>
    if s.bank.balance env.feeCollector c.1 ≤ 0 then none
    else some (c.1,min c.2 (s.bank.balance env.feeCollector c.1))

/-- `BurnDecorator.PostHandle` up to the call of the next decorator. -/
def burnFees (env : Env A) (ctx : Ctx A) (tx : Tx A) : Call A Unit :=
  if msgEthereumTx ∈ tx.msgs then pure ()
  else if tx.fee.store.entries = [] then pure ()
  else do
    let s ← get
    burnEntries env ctx env.feeCollector (burnedCoins env s tx.fee)

variable (env : Env A) (s : State A) (fee : Coins)

theorem listAmount_burnedCoins (d : Denom) : Coins.listAmount (burnedCoins env s fee) d =
      if s.bank.balance env.feeCollector d ≤ 0 then 0
      else min (fee.amountOf d) (s.bank.balance env.feeCollector d) := by
  let burn := fun (e : Denom) (x : Int) => if e = d then
    if s.bank.balance env.feeCollector e ≤ 0 then 0
    else min x (s.bank.balance env.feeCollector e) else 0
  have hlist : ∀ l : List (Denom × Int),
      Coins.listAmount (l.filterMap fun c =>
        if s.bank.balance env.feeCollector c.1 ≤ 0 then none
        else some (c.1,min c.2 (s.bank.balance env.feeCollector c.1))) d =
        (l.map fun p => burn p.1 p.2).sum := by
    intro l
    induction l with
    | nil => rfl
    | cons p rest ih =>
      unfold Coins.listAmount at ih ⊢
      by_cases hb : s.bank.balance env.feeCollector p.1 ≤ 0 <;> simp [burn,hb,ih]
  have htotal := fee.store.total_eq_share (f := burn) d fun e x he _ => if_neg he
  refine (hlist fee.store.entries).trans ((show _ = fee.store.total burn from rfl).trans
    (htotal.trans ?_))
  unfold Coins.amountOf
  cases hget : fee.store.get d with
  | none =>
    rw [Store.share_of_none _ _ hget,Option.getD_none]
    split <;> omega
  | some x =>
    rw [Store.share_of_get _ _ hget,Option.getD_some]
    exact if_pos rfl

theorem nodup_burnedCoins : ((burnedCoins env s fee).map Prod.fst).Nodup := by
  refine List.Nodup.sublist ?_ fee.store.nodup_keys
  unfold burnedCoins Store.keys
  induction fee.store.entries with
  | nil => exact List.Sublist.refl _
  | cons p rest ih =>
    by_cases hb : s.bank.balance env.feeCollector p.1 ≤ 0
    · simpa [hb] using ih.cons p.1
    · simpa [hb] using ih

theorem burnFees_ok (ctx : Ctx A) {tx : Tx A} (htx : msgEthereumTx ∉ tx.msgs)
    {s : State A} (hbal : 0 ≤ s.atosOf env.feeCollector) :
    ∃ t, burnFees env ctx tx s = .ok () t ∧ s.atosOf env.feeCollector-t.atosOf env.feeCollector =
      min (tx.fee.amountOf .atos) (s.atosOf env.feeCollector) := by
  have hnn := tx.fee.amountOf_nonneg .atos
  unfold burnFees
  rw [if_neg htx]
  by_cases hempty : tx.fee.store.entries = []
  · rw [if_pos hempty]
    have hzero : tx.fee.amountOf .atos = 0 := by
      rw [← Coins.listAmount_entries,hempty]
      rfl
    refine ⟨s,rfl,?_⟩
    omega
  · rw [if_neg hempty,Exec.run_get_bind]
    obtain ⟨t,hrun,ht⟩ := burnEntries_of_le env ctx env.feeCollector
      (nodup_burnedCoins env s tx.fee) (s := s) (by
        intro p hp
        obtain ⟨c,_,hc⟩ := List.mem_filterMap.mp hp
        split at hc
        · cases hc
        · cases hc
          simp [lockedCoins,env.feeCollector_isModule])
    refine ⟨t,hrun,?_⟩
    have hatos := ht env.feeCollector .atos
    rw [if_pos rfl,listAmount_burnedCoins] at hatos
    unfold State.atosOf at hbal ⊢
    split at hatos <;> omega

/-- What a delivered Cosmos transaction burns is what it paid just when it declared
exactly the fee due, or more than the fee due with nothing else in the collector. -/
theorem burned_eq_paid_iff {k : Keepers A G} {env : Env A} {ctx : Ctx A} {tx : Tx A} {signer : A}
    {s t : AnteState A G} {r : Reserved A} {u : State A} (hsigner : tx.deductFrom = some signer)
    (hne : signer ≠ env.feeCollector) (htx : msgEthereumTx ∉ tx.msgs)
    (hante : anteHandle k env ctx tx false s = .ok r t) (hbal : 0 ≤ u.atosOf env.feeCollector) :
    ∃ v, burnFees env ctx tx u = .ok () v ∧
      (u.atosOf env.feeCollector-v.atosOf env.feeCollector =
          t.chain.atosOf env.feeCollector-s.chain.atosOf env.feeCollector ↔
        tx.fee.amountOf .atos = (dueFee ctx s.chain tx signer false).amountOf .atos ∧
            tx.fee.amountOf .atos ≤ u.atosOf env.feeCollector ∨
          u.atosOf env.feeCollector = (dueFee ctx s.chain tx signer false).amountOf .atos ∧
            u.atosOf env.feeCollector ≤ tx.fee.amountOf .atos) := by
  obtain ⟨v,hburn,hdiff⟩ := burnFees_ok env ctx htx hbal
  obtain ⟨hr,_,_,hatos⟩ := anteHandle_ok hante
  have heq : r.signer = signer := Option.some.inj (hr.symm.trans hsigner)
  have hpaid := hatos env.feeCollector
  rw [heq,if_neg (Ne.symm hne),if_pos rfl] at hpaid
  refine ⟨v,hburn,?_⟩
  rw [hdiff,hpaid]
  omega

theorem burned_eq_paid_iff_sample : let tx := sampleTx 2000000
    let t := ((anteHandle (sampleKeepers true) sampleEnv sampleCtxNext tx false).deliver
      sampleAnte).chain
    ∃ v, burnFees sampleEnv sampleCtxNext tx t = .ok () v ∧
      t.atosOf 3-v.atosOf 3 = t.atosOf 3-sampleAnte.chain.atosOf 3 := by
  intro tx t
  let run := anteHandle (sampleKeepers true) sampleEnv sampleCtxNext tx false
  have hread : (run.returned sampleAnte).isSome = true := by decide +kernel
  obtain ⟨r,hr⟩ := Option.isSome_iff_exists.mp hread
  obtain ⟨v,hv,hiff⟩ := burned_eq_paid_iff (u := t) rfl (by decide) (by decide)
    (Exec.eq_ok_deliver hr) (by decide +kernel)
  exact ⟨v,hv,hiff.mpr (.inr (by decide +kernel))⟩

/-- Account 10 pays nothing, as its energy covers the gas; the fee it declared is then
burned out of what another account had paid into the collector. -/
theorem burn_takes_fees_of_others :
    let tx : Tx Nat := { sampleTx 100000 with feePayer := some 10, feeGranter := none }
    let earlier := (sendCoins sampleEnv sampleCtxNext 11 3 (Coins.new .atos (5*10^15))).deliver
      sampleAnte.chain
    let s : AnteState Nat Unit := { sampleAnte with chain := earlier }
    let run := anteHandle (sampleKeepers true) sampleEnv sampleCtxNext tx false
    let t := (run.deliver s).chain
    (run.returned s).isSome = true ∧ s.chain.atosOf 3 = 5*10^15 ∧ t.atosOf 3 = 5*10^15 ∧
      ((burnFees sampleEnv sampleCtxNext tx).deliver t).atosOf 3 = 4*10^15 := by
  decide +kernel

end Atoshi.App
