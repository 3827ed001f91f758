import Atoshi.Bridge.Release

namespace Atoshi.Tokenomics
open Exec

/-! A restart from an export: bank has its balances back by the time x/tokenomics decides,
from the balance of each pool, whether to fund it. -/

variable {A : Type} [LinearOrder A]

def fundedPools (env : Env A) (p : Params) : List (A × Int) :=
  [(env.minerPool,p.minerPoolTotal),(env.projectPool,p.projectPoolTotal),
    (env.migrationPool,p.migrationPoolTotal)]

/-- `InitGenesis` on the export returns, and leaves the supply and the pools of the imported
chain `c` as they are. -/
def RestartKeepsSupply (env : Env A) (ctx : Ctx A) (t : TokenomicsStore) (c : State A) : Prop :=
  ∃ u, initGenesis env ctx (exportGenesis t) ⟨c,emptyStore⟩ = .ok () u ∧
    u.chain.bank.supply .atos = c.bank.supply .atos ∧
    ∀ q ∈ fundedPools env t.params, u.chain.atosOf q.1 = c.atosOf q.1

theorem mintToModule_skip (env : Env A) (ctx : Ctx A) {pool : A} {x : Int} {s : State A}
    (h : 0 < x → 0 < s.atosOf pool) : mintToModule env ctx pool x s = .ok () s := by
  unfold mintToModule
  rw [run_get_bind]
  simp only [whenever]
  rw [if_neg (by rintro ⟨hx,hpool⟩; exact absurd (h hx) (not_lt.mpr hpool))]
  rfl

variable {env : Env A} {ctx : Ctx A}

theorem mintToModule_ok {pool : A} {x : Int} {s t : State A}
    (hok : mintToModule env ctx pool x s = .ok () t) :
    t.bank.supply .atos = s.bank.supply .atos+(if 0 < x ∧ s.atosOf pool ≤ 0 then x else 0) ∧
      ∀ a, a ≠ pool → a ≠ env.tokenomicsModule → t.atosOf a = s.atosOf a := by
  unfold mintToModule at hok
  rw [run_get_bind] at hok
  simp only [whenever] at hok
  split at hok
  · rename_i hmint
    rw [if_pos hmint]
    rw [run_bind_of_ok _ (mintCoins_new env.tokenomicsModule .atos hmint.1 s)] at hok
    unfold sendCoinsFromModuleToModule at hok
    rw [sendCoins_atos env ctx _ _ hmint.1] at hok
    split at hok
    · cases hok
      have hbank := (atosMoved_frame ctx env.tokenomicsModule pool x
        (s.setBank ((s.bank.addBalance env.tokenomicsModule .atos x).addSupply .atos x))).2.2
      refine ⟨?_,fun a hpool hmodule => ?_⟩
      · rw [hbank]
        simp [Bank.addSupply_supply]
      · unfold State.atosOf
        rw [hbank]
        simp [Bank.balance_addBalance,hpool,hmodule]
    · cases hok
  · rename_i hskip
    cases hok
    simp [if_neg hskip]

theorem initGenesis_run (ctx : Ctx A) {gs : GenesisState}
    (hvalid : gs.params.validate env.validBech32 = .ok ()) (c : State A) (t : TokenomicsStore) :
    ∃ t', initGenesis env ctx gs ⟨c,t⟩ =
      (do
        onChain (mintToModule env ctx env.minerPool gs.params.minerPoolTotal)
        onChain (mintToModule env ctx env.projectPool gs.params.projectPoolTotal)
        onChain (mintToModule env ctx env.migrationPool gs.params.migrationPoolTotal) :
          TokenomicsCall A Unit) ⟨c,t'⟩ := by
  refine ⟨⟨gs.params,gs.releaseState,gs.blockRewardState,gs.projectClaimable,
    gs.migrationClaimed.foldl (fun m addr => m.set addr ()) t.migrationClaimed⟩,?_⟩
  unfold initGenesis setParams
  rw [hvalid]
  rfl

theorem restartKeepsSupply_iff {t : TokenomicsStore} {c : State A}
    (hvalid : t.params.validate env.validBech32 = .ok ()) :
    RestartKeepsSupply env ctx t c ↔
      ∀ q ∈ fundedPools env t.params, 0 < q.2 → 0 < c.atosOf q.1 := by
  have hexport : (exportGenesis t).params.validate env.validBech32 = .ok () := hvalid
  obtain ⟨t',hrun⟩ := initGenesis_run ctx hexport c emptyStore
  simp only [exportGenesis] at hrun
  constructor
  · rintro ⟨u,hok,hsupply,_⟩
    unfold exportGenesis at hok
    rw [hrun] at hok
    obtain ⟨_,u1,hzoom,hok⟩ := bind_eq_ok.mp hok
    obtain ⟨c1,hminer,rfl⟩ := zoom_eq_ok.mp hzoom
    obtain ⟨_,u2,hzoom2,hzoom3⟩ := bind_eq_ok.mp hok
    obtain ⟨c2,hproject,rfl⟩ := zoom_eq_ok.mp hzoom2
    obtain ⟨c3,hmigration,rfl⟩ := zoom_eq_ok.mp hzoom3
    obtain ⟨hmp,hmg,-⟩ := env.minerPool_ne
    obtain ⟨-,htp,htg⟩ := env.tokenomicsModule_ne
    have hpg := env.projectPool_ne_migrationPool
    obtain ⟨hs1,hb1⟩ := mintToModule_ok hminer
    obtain ⟨hs2,hb2⟩ := mintToModule_ok hproject
    obtain ⟨hs3,hb3⟩ := mintToModule_ok hmigration
    -- no turn touches a pool whose turn is still to come
    rw [hb1 _ hmp.symm htp.symm] at hs2
    rw [hb2 _ hpg.symm htg.symm,hb1 _ hmg.symm htg.symm] at hs3
    dsimp only at hs1 hs2 hs3 hsupply
    simp only [fundedPools,List.mem_cons,List.not_mem_nil,or_false,forall_eq_or_imp,forall_eq]
    refine ⟨fun hx => ?_,fun hx => ?_,fun hx => ?_⟩
    all_goals
      by_contra hle
      split at hs1 <;> split at hs2 <;> split at hs3 <;> omega
  · intro hheld
    simp only [fundedPools,List.mem_cons,List.not_mem_nil,or_false,forall_eq_or_imp,forall_eq]
      at hheld
    refine ⟨⟨c,t'⟩,?_,rfl,fun _ _ => rfl⟩
    unfold exportGenesis
    rw [hrun]
    have hskip : ∀ pool x, (0 < x → 0 < c.atosOf pool) →
        (onChain (mintToModule env ctx pool x) : TokenomicsCall A Unit) ⟨c,t'⟩ = .ok () ⟨c,t'⟩ := by
      intro pool x h
      exact zoom_eq_ok.mpr ⟨c,mintToModule_skip env ctx h,rfl⟩
    rw [run_bind_of_ok _ (hskip _ _ hheld.1),run_bind_of_ok _ (hskip _ _ hheld.2.1)]
    exact hskip _ _ hheld.2.2

def ParamsValid (env : Env A) (r : Bridge.ReleaseRun A) : Prop :=
  r.store.tokenomics.params.validate env.validBech32 = .ok ()

theorem ParamsValid.outcome {r t : Bridge.ReleaseRun A}
    {op : Bridge.ReleaseOp A} (h : ParamsValid env r) (ht : Bridge.Outcome env ctx r op t) :
    ParamsValid env t := by
  unfold ParamsValid at *
  cases ht with
  | untouched t ht =>
    obtain hsame | hvalid := ht.params
    · simpa only [Bridge.ReleaseRun.setStore,hsame] using h
    · exact hvalid
  | receipt target t ht =>
    simpa only [Bridge.ReleaseRun.receipt,ht.tokenomics] using h
  | released | elsewhere m => exact h

/-- In every state of every run, a restart over the exported bank keeps the supply and the
pools exactly if each pool that is configured with a positive total holds something. -/
theorem restart_keeps_supply_iff {env : Env A} {net : Bridge.Hyperlane A} {r : Bridge.ReleaseRun A}
    (h : Reachable (ParamsValid env) (Bridge.ReleaseStep env net fun _ _ => True) r) (ctx : Ctx A)
    {c : State A} (hbank : c.bank = r.store.chain.bank) :
    RestartKeepsSupply env ctx r.store.tokenomics c ↔
      ∀ q ∈ fundedPools env r.store.tokenomics.params, 0 < q.2 → 0 < r.store.chain.atosOf q.1 := by
  have hvalid : ParamsValid env r := by
    refine h.invariant (fun u hu => hu) ?_
    rintro u t hu ⟨ctx,op,_,rfl⟩
    exact hu.outcome (op.outcome env net ctx u)
  rw [restartKeepsSupply_iff hvalid]
  simp only [State.atosOf,hbank]

/-- One delivery of the whole migration pool, 3000 billion ATOS, to account 12. -/
def drainMessage : Bridge.HyperlaneMessage :=
  { Bridge.sampleMessage 1 with
    body := List.replicate 31 0++[12]++Bridge.wordOf (3*10^27) }

def drained : Bridge.ReleaseRun Nat :=
  Bridge.ReleaseOp.run sampleEnv Bridge.sampleNet
    [(sampleCtx,.handle (.filled 1) drainMessage)] Bridge.launch

theorem launch_paramsValid : ParamsValid sampleEnv Bridge.launch := by
  unfold ParamsValid
  rfl

/-- A tier has been released, and every pool holds something. -/
theorem restart_keeps_supply_iff_receiptSteps :
    let r := Bridge.ReleaseOp.run sampleEnv Bridge.sampleNet Bridge.receiptSteps Bridge.launch
    r.minerOut = 75*10^26 ∧
      RestartKeepsSupply sampleEnv sampleCtx r.store.tokenomics r.store.chain := by
  intro r
  have hreach : Reachable (ParamsValid sampleEnv)
      (Bridge.ReleaseStep sampleEnv Bridge.sampleNet fun _ _ => True) r :=
    Reachable.foldl (fun _ p => ⟨p.1,p.2,trivial,rfl⟩) Bridge.receiptSteps
      (.start launch_paramsValid)
  exact ⟨by decide +kernel,(restart_keeps_supply_iff hreach sampleCtx rfl).mpr (by decide +kernel)⟩

/-- After it, a restart mints the pool a second time. -/
theorem drained_pool_minted_again :
    let u := (initGenesis sampleEnv sampleCtx (exportGenesis drained.store.tokenomics)).deliver
      ⟨drained.store.chain,emptyStore⟩
    drained.store.chain.atosOf sampleEnv.migrationPool = 0 ∧
      drained.store.chain.bank.supply .atos = 10^31 ∧
      u.chain.bank.supply .atos = 10^31+3*10^29 ∧
      u.chain.atosOf sampleEnv.migrationPool = 3*10^29 := by
  decide +kernel

end Atoshi.Tokenomics
