import Atoshi.Atox.Solvency
import Atoshi.Tokenomics.Keeper

namespace Atoshi.Tokenomics
open Exec

/-! `BeginBlocker`: the block reward in ATOX, halved at fixed heights and clamped to what
x/atox can still issue. -/

def halvedReward (reward : Int) : Nat → Int
  | 0 => reward
  | k+1 => if reward.tdiv 2 = 0 then 0 else halvedReward (reward.tdiv 2) k

def getCurrentBlockReward (params : Params) (height : Int) : Int :=
  if params.halvingIntervalBlocks ≤ 0 then 0
  else halvedReward params.initialBlockReward (height.tdiv params.halvingIntervalBlocks).toNat

variable {A : Type} [LinearOrder A]

def headroom (s : State A) : Int := s.atox.params.supplyCap-Atox.mintedAgainstCap s

/-- These two say that nothing is to be emitted, not that the block is invalid. -/
def endsEmission (e : Err) : Bool := e = Err.supplyCapReached || e = Err.atoxDisabled

def setBlockRewardState (state : BlockRewardState) : TokenomicsCall A Unit :=
  modifyStore fun t => { t with blockRewardState := state }

def beginBlocker (env : Env A) (ctx : Ctx A) (totalBondedTokens : Except Err Int) :
    TokenomicsCall A Unit := do
  let s ← get
  let params := s.tokenomics.params
  let state := s.tokenomics.blockRewardState
  let reward := getCurrentBlockReward params ctx.blockHeight
  let remaining := headroom s.chain
  if reward = 0 then pure ()
  else if s.chain.atox.params.enabled = false then pure ()
  else if remaining < reward ∧ remaining ≤ 0 then pure ()
  else do
    let currentReward := if remaining < reward then remaining else reward
    let totalBonded ← Exec.ofExcept totalBondedTokens
    if totalBonded = 0 then pure ()
    else do
      let minted ← forgive endsEmission
        (onChain (Atox.mintAtoxToModule env ctx env.feeCollector currentReward))
      if minted = false then pure ()
      else if ¬FitsInt (state.totalDistributed+currentReward) then throw (.panicked "Int overflow")
      else
        setBlockRewardState
          { totalDistributed := state.totalDistributed+currentReward
            currentPeriod := (toUint64
              (ctx.blockHeight.tdiv params.halvingIntervalBlocks)).toUInt64 }

variable {dest : A} (ctx : Ctx A) {s : Stores A} {env : Env A}

theorem halvedReward_nonneg (k : Nat) {reward : Int} (h : 0 ≤ reward) :
    0 ≤ halvedReward reward k := by
  induction k generalizing reward with
  | zero => exact h
  | succ k ih =>
    unfold halvedReward
    split
    · exact le_refl _
    · exact ih (Int.tdiv_nonneg h (by decide))

theorem getCurrentBlockReward_nonneg {params : Params} (h : 0 ≤ params.initialBlockReward)
    (height : Int) : 0 ≤ getCurrentBlockReward params height := by
  unfold getCurrentBlockReward
  split
  · exact le_refl _
  · exact halvedReward_nonneg _ h

theorem settleAccountWithBalance_module {a : A}
    (h : env.isModuleAccount a = true) (bal : Int) (s : State A) :
    Atox.settleAccountWithBalance env ctx a bal s = .ok 0 s := by
  unfold Atox.settleAccountWithBalance
  rw [if_pos h]
  rfl

theorem sendRestriction_modules {src : A}
    (hsrc : env.isModuleAccount src = true) (hdest : env.isModuleAccount dest = true)
    (hesc : env.escrowAddress dest = false) (amt : Coins) (s : State A) :
    Atox.sendRestriction env ctx src dest amt s = .ok () s := by
  have hopen : Atox.rejectIBCEscrow env dest s = .ok () s := by simp [Atox.rejectIBCEscrow,hesc]
  unfold Atox.sendRestriction Atox.restrictionWith
  simp only
  split
  · rfl
  rw [run_bind_of_ok _ hopen]
  split
  · rfl
  rw [if_neg Bool.false_ne_true,run_get_bind,
    run_bind_of_ok _ (settleAccountWithBalance_module ctx hsrc _ s),
    run_bind_of_ok _ (settleAccountWithBalance_module ctx hdest _ s)]
  rfl

theorem mintAtoxToModule_run {s : State A} (h : Atox.Sound env s) (ctx : Ctx A)
    (hmod : env.isModuleAccount dest = true) (hesc : env.escrowAddress dest = false)
    {x : Int} (hon : s.atox.params.enabled = true) (hpos : 0 < x) (hcap : x ≤ headroom s) :
    ∃ t, Atox.mintAtoxToModule env ctx dest x s = .ok () t ∧ t.atox = s.atox := by
  unfold headroom at hcap
  have hnn : 0 ≤ s.bank.balance env.atoxModule .atox := h.nonneg _ _
  unfold Atox.mintAtoxToModule sendCoinsFromModuleToModule sendCoins sendVia
  rw [run_get_bind,
    run_require_bind hon,run_require_bind hpos,run_require_bind (by omega),
    run_bind_of_ok _ (mintCoins_new _ _ hpos s),Coins.entries_new hpos]
  rw [run_bind_of_ok (a := ()) _ (by
      rw [subUnlockedCoins_one,if_pos]
      rw [State.setBank_bank,Bank.balance_addSupply,Bank.balance_addBalance,if_pos ⟨rfl,rfl⟩]
      simp only [lockedCoins,env.atoxModule_isModule,if_true]
      omega),run_modify_bind,
    run_bind_of_ok _ (sendRestriction_modules ctx env.atoxModule_isModule hmod hesc _ _)]
  exact ⟨_,rfl,(Energy.sendRestriction_accountsOnly ctx _ _ _ _).atox⟩

theorem Params.validate_initialBlockReward {valid : String → Bool} {p : Params}
    (h : p.validate valid = .ok ()) : 0 < p.initialBlockReward := by
  unfold Params.validate at h
  obtain ⟨_,h⟩ := check_ok h
  obtain ⟨_,h⟩ := check_ok h
  obtain ⟨_,h⟩ := check_ok h
  obtain ⟨_,h⟩ := check_ok h
  exact (check_ok h).1

/-- What one block emits: the books and the cap hold, and `TotalDistributed` grows by it. -/
structure Emitted (env : Env A) (x : Int) (s t : Stores A) : Prop where
  nonneg : 0 ≤ x
  within : x ≤ max (headroom s.chain) 0
  sound : Atox.Sound env t.chain
  traced : Atox.Traced x s.chain t.chain
  atox : t.chain.atox = s.chain.atox
  params : t.tokenomics.params = s.tokenomics.params
  distributed : t.tokenomics.blockRewardState.totalDistributed =
    s.tokenomics.blockRewardState.totalDistributed+x

theorem Emitted.nothing (h : Atox.Sound env s.chain) : Emitted env 0 s s :=
  ⟨le_refl _,le_max_right _ _,h,.refl _,rfl,rfl,(Int.add_zero _).symm⟩

theorem Emitted.supply {env : Env A} {x : Int} {s t : Stores A} (h : Emitted env x s t) :
    t.chain.bank.supply .atox = s.chain.bank.supply .atox+x := by
  have hminted := h.traced.minted
  unfold Atox.mintedAgainstCap at hminted
  rw [h.atox] at hminted
  omega

/-- What the block would emit. -/
def pendingReward (s : Stores A) (height : Int) : Int :=
  min (getCurrentBlockReward s.tokenomics.params height) (headroom s.chain)

/-- What would be emitted can still be counted. -/
def EmissionFits (s : Stores A) (height totalBonded : Int) : Prop :=
  s.chain.atox.params.enabled = true → totalBonded ≠ 0 → 0 < pendingReward s height →
    FitsInt (s.tokenomics.blockRewardState.totalDistributed+pendingReward s height)

theorem beginBlocker_run (hfee : env.escrowAddress env.feeCollector = false)
    (h : Atox.Sound env s.chain)
    (hparams : s.tokenomics.params.validate env.validBech32 = .ok ()) (ctx : Ctx A)
    (totalBonded : Int) :
    (EmissionFits s ctx.blockHeight totalBonded ∧
      ∃ t x, beginBlocker env ctx (.ok totalBonded) s = .ok () t ∧ Emitted env x s t) ∨
    (¬EmissionFits s ctx.blockHeight totalBonded ∧
      ∃ e t, beginBlocker env ctx (.ok totalBonded) s = .error e t) := by
  have hreward := getCurrentBlockReward_nonneg
    (Params.validate_initialBlockReward hparams).le ctx.blockHeight
  unfold beginBlocker EmissionFits pendingReward
  rw [run_get_bind]
  simp only
  generalize getCurrentBlockReward s.tokenomics.params ctx.blockHeight = reward at hreward ⊢
  by_cases hzero : reward = 0
  · rw [if_pos hzero]
    exact .inl ⟨fun _ _ hpos => by omega,s,0,rfl,.nothing h⟩
  by_cases hoff : s.chain.atox.params.enabled = false
  · rw [if_neg hzero,if_pos hoff]
    exact .inl ⟨fun hon => by simp [hoff] at hon,s,0,rfl,.nothing h⟩
  by_cases hfull : headroom s.chain < reward ∧ headroom s.chain ≤ 0
  · rw [if_neg hzero,if_neg hoff,if_pos hfull]
    exact .inl ⟨fun _ _ hpos => by omega,s,0,rfl,.nothing h⟩
  rw [if_neg hzero,if_neg hoff,if_neg hfull]
  by_cases hbonded : totalBonded = 0
  · refine .inl ⟨fun _ hne => absurd hbonded hne,s,0,?_,.nothing h⟩
    simp [run_bind,Exec.ofExcept,hbonded]
  have hx : (if headroom s.chain < reward then headroom s.chain else reward) =
      min reward (headroom s.chain) := by
    split <;> omega
  rw [hx]
  have hxpos : 0 < min reward (headroom s.chain) := by omega
  have hxle : min reward (headroom s.chain) ≤ headroom s.chain := by omega
  generalize min reward (headroom s.chain) = x at hxpos hxle ⊢
  obtain ⟨c,hmint,hatox⟩ := mintAtoxToModule_run h ctx env.feeCollector_isModule hfee
    (Bool.not_eq_false _ ▸ hoff) hxpos hxle
  obtain ⟨_,hsound,htraced⟩ := h.mintAtoxToModule hmint
  have hrun : forgive endsEmission
      (onChain (Atox.mintAtoxToModule env ctx env.feeCollector x)) s =
        .ok true { s with chain := c } := run_forgive_of_ok (run_zoom_of_ok hmint)
  have hask : (Exec.ofExcept (.ok totalBonded) : TokenomicsCall A Int) s = .ok totalBonded s := rfl
  rw [run_bind_of_ok _ hask,if_neg hbonded,run_bind_of_ok _ hrun]
  by_cases hfits : FitsInt (s.tokenomics.blockRewardState.totalDistributed+x)
  · rw [if_neg (by decide),if_neg (not_not.mpr hfits)]
    exact .inl ⟨fun _ _ _ => hfits,_,x,rfl,hxpos.le,le_trans hxle (le_max_left _ _),hsound,htraced,
      hatox,rfl,rfl⟩
  · rw [if_neg (by decide),if_pos hfits]
    exact .inr ⟨fun hall => hfits (hall (Bool.not_eq_false _ ▸ hoff) hbonded hxpos),_,_,rfl⟩

/-- The stores, the ATOX emitted by each `BeginBlocker`, newest first, and the ATOX that was
burned as a fee. -/
structure EmissionRun (A : Type) [LinearOrder A] where
  stores : Stores A
  rewards : List Int
  feeBurned : Int

inductive EmissionOp (A : Type) [LinearOrder A] where
  | beginBlock (totalBonded : Int)
  | call (op : Atox.Op A)
  | updateParams (authority : A) (p : Params)
  | elsewhere (t : Stores A)

namespace EmissionRun

def minted (r : EmissionRun A) : Int := Atox.mintedAgainstCap r.stores.chain

def cap (r : EmissionRun A) : Int := r.stores.chain.atox.params.supplyCap

def distributed (r : EmissionRun A) : Int := r.stores.tokenomics.blockRewardState.totalDistributed

/-- The run goes on in other stores, and what left the cap free was a fee. -/
def burning (r : EmissionRun A) (t : Stores A) : EmissionRun A :=
  { r with stores := t, feeBurned := r.feeBurned+(r.minted-Atox.mintedAgainstCap t.chain) }

def apply (env : Env A) (ctx : Ctx A) (r : EmissionRun A) : EmissionOp A → EmissionRun A
  | .beginBlock totalBonded =>
    let t := (beginBlocker env ctx (.ok totalBonded)).deliver r.stores
    { r with
      stores := t
      rewards := (t.chain.bank.supply .atox-r.stores.chain.bank.supply .atox) :: r.rewards }
  | .call op =>
    let t : Stores A := { r.stores with chain := op.apply env ctx r.stores.chain }
    if op.burnsFee then r.burning t else { r with stores := t }
  | .updateParams authority p =>
    { r with stores := (updateParams env authority p).deliver r.stores }
  | .elsewhere t => r.burning t

end EmissionRun

/-- Elsewhere the books of x/atox are kept: other modules may burn ATOX, as the fees of a
transaction are, but they issue none, and they leave the reward state alone. -/
def EmissionOp.Admissible (env : Env A) (r : EmissionRun A) : EmissionOp A → Prop
  | .call op => op.Admissible env
  | .elsewhere t =>
    Atox.Sound env t.chain ∧ t.chain.atox.params.supplyCap = r.cap ∧
      Atox.mintedAgainstCap t.chain ≤ r.minted ∧
      t.tokenomics.params = r.stores.tokenomics.params ∧
      t.tokenomics.blockRewardState = r.stores.tokenomics.blockRewardState
  | _ => True

def EmissionStep (env : Env A) (r t : EmissionRun A) : Prop :=
  ∃ (ctx : Ctx A) (op : EmissionOp A), op.Admissible env r ∧ t = r.apply env ctx op

structure EmissionStart (env : Env A) (r : EmissionRun A) : Prop where
  chain : Atox.FreshGenesis r.stores.chain
  params : r.stores.tokenomics.params.validate env.validBech32 = .ok ()
  distributed : r.distributed = 0
  rewards : r.rewards = []

namespace EmissionRun

structure Inv (env : Env A) (r : EmissionRun A) : Prop where
  sound : Atox.Sound env r.stores.chain
  params : r.stores.tokenomics.params.validate env.validBech32 = .ok ()
  rewards : r.rewards.sum = r.distributed

/-- What one step does to the rewards and to the headroom. -/
structure Later (r t : EmissionRun A) : Prop where
  cap : t.cap = r.cap
  feeBurned : r.feeBurned ≤ t.feeBurned
  minted : r.minted+r.feeBurned ≤ t.minted+t.feeBurned
  rewards : ∃ new, t.rewards = new++r.rewards ∧ ∀ x ∈ new, 0 ≤ x ∧ x ≤ max (r.cap-r.minted) 0

end EmissionRun

theorem EmissionStart.inv {env : Env A} {r : EmissionRun A} (h : EmissionStart env r) :
    r.Inv env := by
  refine ⟨h.chain.sound,h.params,?_⟩
  rw [h.rewards,h.distributed]
  rfl

namespace EmissionRun.Inv

variable {env : Env A} {r : EmissionRun A}

theorem beginBlock (h : r.Inv env) (hfee : env.escrowAddress env.feeCollector = false)
    (ctx : Ctx A) (totalBonded : Int) :
    (r.apply env ctx (.beginBlock totalBonded)).Inv env ∧
      r.Later (r.apply env ctx (.beginBlock totalBonded)) := by
  have hdelivered : ∃ x, Emitted env x r.stores
      ((beginBlocker env ctx (.ok totalBonded)).deliver r.stores) := by
    obtain ⟨_,t,x,hrun,hx⟩ | ⟨_,e,t,hrun⟩ :=
      beginBlocker_run hfee h.sound h.params ctx totalBonded
    · simp only [deliver,hrun]
      exact ⟨x,hx⟩
    · simp only [deliver,hrun]
      exact ⟨0,.nothing h.sound⟩
  obtain ⟨x,hx⟩ := hdelivered
  generalize ht : (beginBlocker env ctx (.ok totalBonded)).deliver r.stores = t at hx
  have hnew : t.chain.bank.supply .atox-r.stores.chain.bank.supply .atox = x := by
    rw [hx.supply]
    omega
  have hrewards := h.rewards
  have hminted := hx.traced.minted
  have hnonneg := hx.nonneg
  have happ : r.apply env ctx (.beginBlock totalBonded) =
      { r with stores := t, rewards := x :: r.rewards } := by
    simp only [apply,ht,hnew]
  rw [happ]
  refine ⟨⟨hx.sound,?_,?_⟩,hx.traced.cap,le_refl _,?_,[x],rfl,?_⟩
  · rw [hx.params]
    exact h.params
  · rw [List.sum_cons,hrewards]
    unfold distributed
    rw [hx.distributed]
    omega
  · unfold minted
    simp only
    omega
  · intro y hy
    rw [List.mem_singleton.mp hy]
    exact ⟨hx.nonneg,hx.within⟩

theorem quiet (h : r.Inv env) {t : EmissionRun A} (hsound : Atox.Sound env t.stores.chain)
    (hparams : t.stores.tokenomics.params.validate env.validBech32 = .ok ())
    (hstate : t.stores.tokenomics.blockRewardState = r.stores.tokenomics.blockRewardState)
    (hrewards : t.rewards = r.rewards) (hcap : t.cap = r.cap) (hfee : r.feeBurned ≤ t.feeBurned)
    (hminted : r.minted+r.feeBurned ≤ t.minted+t.feeBurned) : t.Inv env ∧ r.Later t := by
  refine ⟨⟨hsound,hparams,?_⟩,hcap,hfee,hminted,[],hrewards,by simp⟩
  rw [hrewards,h.rewards]
  unfold distributed
  rw [hstate]

theorem call (h : r.Inv env) (ctx : Ctx A) (op : Atox.Op A) (hop : op.Admissible env) :
    (r.apply env ctx (.call op)).Inv env ∧ r.Later (r.apply env ctx (.call op)) := by
  by_cases hsweep : op = .endBlocker
  · obtain ⟨hsound,hminted,hcap⟩ := (Atox.endBlocker_sound env ctx _ _).after ⟨h.sound,rfl,rfl⟩
    subst hsweep
    refine h.quiet hsound h.params rfl rfl hcap (le_refl _) ?_
    exact Int.add_le_add_right hminted.symm.le _
  · obtain ⟨hsound,x,htraced,hx⟩ := h.sound.apply_traced ctx op hop hsweep
    have hminted := htraced.minted
    unfold Atox.Op.Moves at hx
    simp only [apply]
    split
    · rename_i hburns
      rw [if_pos hburns] at hx
      refine h.quiet hsound h.params rfl rfl htraced.cap ?_ ?_
      all_goals simp only [burning,minted]
      all_goals omega
    · rename_i hburns
      rw [if_neg hburns] at hx
      refine h.quiet hsound h.params rfl rfl htraced.cap (le_refl _) ?_
      simp only [minted]
      omega

theorem apply (h : r.Inv env) (hfee : env.escrowAddress env.feeCollector = false) (ctx : Ctx A)
    (op : EmissionOp A) (hop : op.Admissible env r) :
    (r.apply env ctx op).Inv env ∧ r.Later (r.apply env ctx op) := by
  cases op with
  | beginBlock totalBonded => exact h.beginBlock hfee ctx totalBonded
  | call op => exact h.call ctx op hop
  | updateParams authority p =>
    simp only [EmissionRun.apply,deliver]
    cases hrun : Tokenomics.updateParams env authority p r.stores with
    | error e t => exact h.quiet h.sound h.params rfl rfl rfl (le_refl _) (le_refl _)
    | ok u t =>
      obtain ⟨hvalid,rfl⟩ := updateParams_ok hrun
      exact h.quiet h.sound hvalid rfl rfl rfl (le_refl _) (le_refl _)
  | elsewhere t =>
    obtain ⟨hsound,hcap,hle,hparams,hstate⟩ := hop
    refine h.quiet hsound (hparams ▸ h.params) hstate rfl hcap ?_ ?_
    all_goals simp only [EmissionRun.apply,EmissionRun.burning,EmissionRun.minted] at hle ⊢
    all_goals omega

end EmissionRun.Inv

theorem EmissionRun.Inv.of_reachable {env : Env A}
    (hfee : env.escrowAddress env.feeCollector = false) {r : EmissionRun A}
    (h : Reachable (EmissionStart env) (EmissionStep env) r) : r.Inv env := by
  refine h.invariant (fun s hs => hs.inv) ?_
  rintro s t hs ⟨ctx,op,hop,rfl⟩
  exact (hs.apply hfee ctx op hop).1

/-- A run that went on from `r`, where the cap was used up: no fee burn, no reward. -/
structure EmissionRun.Exhausted (env : Env A) (r t : EmissionRun A) : Prop where
  inv : t.Inv env
  cap : t.cap = r.cap
  feeBurned : r.feeBurned ≤ t.feeBurned
  minted : r.cap+r.feeBurned ≤ t.minted+t.feeBurned
  rewards : t.feeBurned = r.feeBurned → ∃ new, t.rewards = new++r.rewards ∧ ∀ x ∈ new, x = 0

theorem EmissionRun.Exhausted.apply {env : Env A}
    (hfee : env.escrowAddress env.feeCollector = false) {r t : EmissionRun A}
    (h : r.Exhausted env t) (ctx : Ctx A) (op : EmissionOp A) (hop : op.Admissible env t) :
    r.Exhausted env (t.apply env ctx op) := by
  obtain ⟨hu,hlater⟩ := h.inv.apply hfee ctx op hop
  have hcap := h.cap
  have hfees := h.feeBurned
  have hminted := h.minted
  have hmore := hlater.feeBurned
  refine ⟨hu,hlater.cap.trans hcap,le_trans hfees hmore,le_trans hminted hlater.minted,?_⟩
  intro hsame
  obtain ⟨new,hnew,hall⟩ := h.rewards (by omega)
  obtain ⟨last,hlast,hbound⟩ := hlater.rewards
  refine ⟨last++new,by rw [hlast,hnew,List.append_assoc],?_⟩
  intro x hx
  rcases List.mem_append.mp hx with hx | hx
  · -- no fee was burned, so there is still no headroom
    have hxb := hbound x hx
    omega
  · exact hall x hx

/-- Block emission: in every run from genesis `BeginBlocker` returns, if what it would emit can
still be counted. What it mints stays under the cap and is what `TotalDistributed` grows by, so all
rewards add up to it; and with the cap used up only a fee burn lets blocks emit again. -/
theorem block_emission_within_cap {env : Env A}
    (hfee : env.escrowAddress env.feeCollector = false) {r : EmissionRun A}
    (h : Reachable (EmissionStart env) (EmissionStep env) r) :
    (∀ ctx totalBonded, (∃ t x, beginBlocker env ctx (.ok totalBonded) r.stores = .ok () t ∧
        0 ≤ x ∧ x ≤ r.cap-r.minted ∧
        t.chain.bank.supply .atox = r.stores.chain.bank.supply .atox+x ∧
        t.tokenomics.blockRewardState.totalDistributed = r.distributed+x ∧
        t.chain.bank.supply .atox+t.chain.atox.globalState.totalBurned ≤
          t.chain.atox.params.supplyCap) ↔ EmissionFits r.stores ctx.blockHeight totalBonded) ∧
      r.rewards.sum = r.distributed ∧
      (r.minted = r.cap → ∀ t, Reachable (fun s => s = r) (EmissionStep env) t →
        t.feeBurned = r.feeBurned → ∃ new, t.rewards = new++r.rewards ∧ ∀ x ∈ new, x = 0) := by
  have hinv := EmissionRun.Inv.of_reachable hfee h
  refine ⟨?_,hinv.rewards,?_⟩
  swap
  · intro hfull t ht hburn
    have hexhausted : r.Exhausted env t := by
      refine ht.invariant ?_ ?_
      · rintro s rfl
        exact ⟨hinv,rfl,le_refl _,by rw [hfull],fun _ => ⟨[],rfl,by simp⟩⟩
      · rintro s u hs ⟨ctx,op,hop,rfl⟩
        exact hs.apply hfee ctx op hop
    exact hexhausted.rewards hburn
  intro ctx totalBonded
  obtain ⟨hfits,t,x,hrun,hx⟩ | ⟨hover,e,t,hrun⟩ :=
    beginBlocker_run hfee hinv.sound hinv.params ctx totalBonded
  swap
  · refine iff_of_false ?_ hover
    rintro ⟨t',x,hok,_⟩
    rw [hrun] at hok
    cases hok
  refine iff_of_true ?_ hfits
  have hcapped : 0 ≤ headroom r.stores.chain := sub_nonneg.mpr hinv.sound.books.capped
  have hwithin := hx.within
  rw [max_eq_left hcapped] at hwithin
  exact ⟨t,x,hrun,hx.nonneg,hwithin,hx.supply,hx.distributed,hx.sound.books.capped⟩

def cappedAt (cap reward : Int) : EmissionRun Nat where
  stores :=
    { chain :=
        { sampleState with atox :=
          { Atox.defaultGenesis Nat with params := { Atox.defaultParams with supplyCap := cap } } }
      tokenomics :=
        { emptyStore with params := { emptyStore.params with initialBlockReward := reward } } }
  rewards := []
  feeBurned := 0

/-- A cap that the second block reward would pass. -/
def tightCap : EmissionRun Nat := cappedAt (30000*10^18) defaultParams.initialBlockReward

theorem tightCap_start : EmissionStart sampleEnv tightCap :=
  ⟨⟨⟨_,rfl,rfl⟩,fun _ => rfl,rfl,sampleState_balance⟩,defaultParams_validate _,rfl,rfl⟩

def tightCapBlocks : Nat → EmissionRun Nat
  | 0 => tightCap
  | n+1 => (tightCapBlocks n).apply sampleEnv sampleCtx (.beginBlock 1)

theorem reachable_tightCapBlocks (n : Nat) :
    Reachable (EmissionStart sampleEnv) (EmissionStep sampleEnv) (tightCapBlocks n) := by
  induction n with
  | zero => exact .start tightCap_start
  | succ n ih => exact ih.next ⟨sampleCtx,.beginBlock 1,trivial,rfl⟩

theorem block_emission_within_cap_tightCap :
    (tightCapBlocks 3).rewards = [0,10181*10^18,19819*10^18] ∧
      (tightCapBlocks 3).rewards.sum = (tightCapBlocks 3).distributed :=
  ⟨by decide +kernel,(block_emission_within_cap rfl (reachable_tightCapBlocks 3)).2.1⟩

/-- The first block emits all that can be counted, a validator is paid from it and sends some on,
and the fee of that is burned. -/
def recycledCap : EmissionRun Nat :=
  [.beginBlock 1,.call (.sendCoins sampleEnv.feeCollector 10 (Coins.new .atox (10^24))),
    .call (.chargeInclusiveFee 10 13 (Coins.new .atox (10^23)))].foldl
    (fun r op => r.apply sampleEnv sampleCtx op) (cappedAt (2^256-1) (2^256-1))

/-- The fee burned leaves room under the cap, the next block fills it, and the count of all that
was emitted overflows. -/
theorem recycled_cap_halts :
    Reachable (EmissionStart sampleEnv) (EmissionStep sampleEnv) recycledCap ∧
      recycledCap.distributed = 2^256-1 ∧ 0 < recycledCap.cap-recycledCap.minted ∧
      (beginBlocker sampleEnv sampleCtx (.ok 1)).returned recycledCap.stores = none := by
  have hstart : EmissionStart sampleEnv (cappedAt (2^256-1) (2^256-1)) :=
    ⟨⟨⟨_,rfl,rfl⟩,fun _ => rfl,rfl,sampleState_balance⟩,rfl,rfl,rfl⟩
  have hnext : ∀ {r : EmissionRun Nat} op, EmissionOp.Admissible sampleEnv r op →
      Reachable (EmissionStart sampleEnv) (EmissionStep sampleEnv) r →
      Reachable (EmissionStart sampleEnv) (EmissionStep sampleEnv)
      (r.apply sampleEnv sampleCtx op) :=
    fun op hop h => h.next ⟨sampleCtx,op,hop,rfl⟩
  have hemitted := hnext (.beginBlock 1) trivial (.start hstart)
  have hpaid := hnext (.call (.sendCoins sampleEnv.feeCollector 10 (Coins.new .atox (10^24))))
    (fun _ => rfl) hemitted
  have hburned := hnext (.call (.chargeInclusiveFee 10 13 (Coins.new .atox (10^23))))
    (fun _ => rfl) hpaid
  exact ⟨hburned,by decide +kernel,by decide +kernel,by decide +kernel⟩

end Atoshi.Tokenomics
