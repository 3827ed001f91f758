import Atoshi.App.Authz
import Atoshi.Chain.Staking
import Atoshi.Tokenomics.Types

namespace Atoshi.App
open Exec

/-! Creating a validator: the chain-wide floor on its own stake, the decorator that
enforces it on Cosmos transactions, and the ways a message reaches x/staking. -/

variable {A α : Type} [LinearOrder A]

structure CommissionRates where
  rate : LegacyDec
  maxRate : LegacyDec
  maxChangeRate : LegacyDec

structure MsgCreateValidator (A : Type) where
  description : String
  commission : CommissionRates
  minSelfDelegation : Option Int
  validator : A
  pubkey : Bytes
  denom : Denom
  amount : Int

/-- The messages the decorator tells apart. An authz message carries whether the grants it
needs are there; a message of another module carries what its handler does. -/
inductive Msg (A : Type) [LinearOrder A] where
  | exec (granted : Bool) (msgs : List (Msg A))
  | createValidator (m : MsgCreateValidator A)
  | editValidator (minSelfDelegation : Option Int)
      (handle : Tokenomics.Stores A → Except Err (Tokenomics.Stores A))
  | other (handle : Tokenomics.Stores A → Except Err (Tokenomics.Stores A))

structure Validator where
  minSelfDelegation : Int

/-- A validator as it was created: with the floor at that moment, and the floor that the
decorator had checked, if one had. -/
structure Creation (A : Type) where
  operator : A
  minSelfDelegation : Int
  selfDelegation : Int
  floor : Int
  checked : Option Int

structure Validators (A : Type) [LinearOrder A] extends Tokenomics.Stores A where
  validators : Store A Validator
  created : List (Creation A)

/-- Zero disables the floor. -/
def Validators.getValidatorMinSelfDelegation (s : Validators A) : Int :=
  s.tokenomics.params.validatorMinSelfDelegation

inductive Account where
  | base
  | clawback (unvested : Int)

/-- What the message server is given: accounts with the coins still vesting, the number
x/staking keeps a validator under, and its rules for descriptions, rates and keys. -/
structure StakingKeepers (A : Type) [LinearOrder A] where
  account : Ctx A → State A → A → Option Account
  number : A → Nat
  checkDetails : MsgCreateValidator A → State A → Except Err Unit
  zeroAddress : A

abbrev ValidatorCall (A : Type) [LinearOrder A] (α : Type) := Exec Err (Validators A) α

def onState (x : Call A α) : ValidatorCall A α :=
  zoom (fun s => s.chain) (fun c s => { s with chain := c }) x

def onStores (f : Tokenomics.Stores A → Except Err (Tokenomics.Stores A)) :
    ValidatorCall A Unit := fun s =>
  match f s.toStores with
  | .ok t => .ok () { s with toStores := t }
  | .error e => .error e s

/-- Coins that are still vesting cannot be delegated. -/
def validateDelegationAmountNotUnvested (k : StakingKeepers A) (ctx : Ctx A) (addr : A)
    (amount : Int) : ValidatorCall A Unit := do
  let s ← get
  match k.account ctx s.chain addr with
  | none => throw (Err.failed "account does not exist: unknown address")
  | some .base => pure ()
  | some (.clawback unvested) =>
    let delegatable := max (s.chain.atosOf addr-unvested) 0
    require (amount ≤ delegatable) (Err.failed
      s!"cannot delegate unvested coins. coins available for delegation < delegation amount ({delegatable} < {amount}): insufficient vested coins error")

/-- x/staking's own message server: the stake may not be below the declared minimum. -/
def sdkCreateValidator (k : StakingKeepers A) (env : Env A) (ctx : Ctx A)
    (checked : Option Int) (m : MsgCreateValidator A) : ValidatorCall A Unit := do
  require (0 < m.amount) (Err.failed "invalid delegation amount")
  match m.minSelfDelegation with
  | none => throw (Err.panicked "nil pointer dereference")
  | some declared => do
    require (0 < declared)
      (Err.failed "minimum self delegation must be a positive integer")
    require (declared ≤ m.amount) (Err.failed
      "validator's self delegation must be greater than their minimum self delegation")
    let s ← get
    Exec.ofExcept (k.checkDetails m s.chain)
    require (s.validators.get m.validator |>.isNone) (Err.failed
      "validator already exist for this operator address; must use new validator operator address")
    require (m.denom = .atos) (Err.failed "invalid coin denomination")
    modify fun s => { s with validators := s.validators.set m.validator ⟨declared⟩ }
    onState (Staking.delegate env ctx m.validator (k.number m.validator) m.amount)
    modify fun t => { t with created :=
      { operator := m.validator
        minSelfDelegation := declared
        selfDelegation := t.chain.staking.bonded m.validator (k.number m.validator)-
          s.chain.staking.bonded m.validator (k.number m.validator)
        floor := t.getValidatorMinSelfDelegation
        checked := checked } :: t.created }

def createValidator (k : StakingKeepers A) (env : Env A) (ctx : Ctx A) (checked : Option Int)
    (m : MsgCreateValidator A) : ValidatorCall A Unit := do
  validateDelegationAmountNotUnvested k ctx m.validator m.amount
  sdkCreateValidator k env ctx checked m

def permitted (nestedLvl : Nat) (rest : Except Err Unit) : Except Err Unit :=
  if Authz.maxNestedMsgs ≤ nestedLvl then
    .error (.failed s!"found more nested msgs than permitted. Limit is: {Authz.maxNestedMsgs}")
  else rest

def checkCreate (floor : Int) (m : MsgCreateValidator A) : Except Err Unit :=
  match m.minSelfDelegation with
  | none => .error (.failed
      s!"validator min_self_delegation must be at least {floor}, got <nil>")
  | some declared =>
    if declared < floor then .error (.failed
      s!"validator min_self_delegation must be at least {floor}, got {declared}")
    else if m.amount < floor then .error (.failed
      s!"validator must self-delegate at least {floor}, got {m.amount}")
    else .ok ()

def checkEdit (floor : Int) : Option Int → Except Err Unit
  | none => .ok ()
  | some declared =>
    if declared < floor then .error (.failed
      s!"validator min_self_delegation must be at least {floor}, got {declared}")
    else .ok ()

mutual

def checkMsg (floor : Int) (nestedLvl : Nat) : Msg A → Except Err Unit
  | .exec _ msgs => permitted (nestedLvl+1) (checkMsgs floor (nestedLvl+1) msgs)
  | .createValidator m => checkCreate floor m
  | .editValidator declared _ => checkEdit floor declared
  | .other _ => .ok ()

def checkMsgs (floor : Int) (nestedLvl : Nat) : List (Msg A) → Except Err Unit
  | [] => .ok ()
  | m :: rest =>
    match checkMsg floor nestedLvl m with
    | .error e => .error e
    | .ok _ => checkMsgs floor nestedLvl rest

end

/-- `MinSelfDelegationDecorator.AnteHandle`; returns the floor it read. -/
def minSelfDelegation (msgs : List (Msg A)) : ValidatorCall A Int := do
  let s ← get
  let floor := s.getValidatorMinSelfDelegation
  if floor ≤ 0 then pure floor
  else
    match permitted 1 (checkMsgs floor 1 msgs) with
    | .ok _ => pure floor
    | .error e => throw (Err.failed s!"{e.text}: invalid request")

mutual

/-- Inner messages of an authz message are routed like the others. -/
def runMsg (k : StakingKeepers A) (env : Env A) (ctx : Ctx A) (checked : Option Int) :
    Msg A → ValidatorCall A Unit
  | .exec granted msgs => do
    require (granted = true) (Err.failed "authorization not found")
    runMsgs k env ctx checked msgs
  | .createValidator m => createValidator k env ctx checked m
  | .editValidator _ handle => onStores handle
  | .other handle => onStores handle

def runMsgs (k : StakingKeepers A) (env : Env A) (ctx : Ctx A) (checked : Option Int) :
    List (Msg A) → ValidatorCall A Unit
  | [] => pure ()
  | m :: rest => do
    runMsg k env ctx checked m
    runMsgs k env ctx checked rest

end

/-- The decorators around the floor's own act on the chain and may refuse. -/
def anteHandle (before after : Call A Unit) (msgs : List (Msg A)) : ValidatorCall A Int := do
  onState before
  let floor ← minSelfDelegation msgs
  onState after
  pure floor

/-- A Cosmos transaction: what the decorators wrote stays if a message fails. -/
def deliverTx (k : StakingKeepers A) (env : Env A) (ctx : Ctx A) (before after : Call A Unit)
    (msgs : List (Msg A)) (s : Validators A) : Validators A :=
  match anteHandle before after msgs s with
  | .error _ _ => s
  | .ok floor t => (runMsgs k env ctx (some floor) msgs).deliver t

/-- The arguments of the precompile's `createValidator`; no bytes stand for a key that is
not base64. -/
structure CreateArgs (A : Type) where
  description : String
  rate : Nat
  maxRate : Nat
  maxChangeRate : Nat
  minSelfDelegation : Nat
  validator : A
  pubkey : Option Bytes
  value : Nat

/-- All three rates are read from the first. -/
def newMsgCreateValidator (k : StakingKeepers A) (args : CreateArgs A) :
    Except Err (MsgCreateValidator A) :=
  if args.validator = k.zeroAddress then .error (.failed "invalid validator address")
  else
    match args.pubkey with
    | none => .error (.failed "illegal base64 data")
    | some key =>
      if key.length ≠ 32 then .error (.failed
        s!"consensus pubkey len is invalid, got: {key.length}, expected: 32")
      else .ok
        { description := args.description
          commission := ⟨⟨args.rate⟩,⟨args.rate⟩,⟨args.rate⟩⟩
          minSelfDelegation := some args.minSelfDelegation
          validator := args.validator
          pubkey := key
          denom := .atos
          amount := args.value }

/-- The staking precompile's method; contracts are turned away. -/
def precompileCreateValidator (k : StakingKeepers A) (env : Env A) (ctx : Ctx A)
    (caller origin : A) (args : CreateArgs A) : ValidatorCall A Unit := do
  let m ← Exec.ofExcept (newMsgCreateValidator k args)
  require (caller = origin) (Err.failed
    "this method can only be called directly to the precompile, not from a smart contract")
  require (origin = args.validator)
    (Err.failed "origin address is not the same as delegator address")
  createValidator k env ctx none m

/-- What an EVM transaction does in turn; a failed call is undone. -/
inductive EvmOp (A : Type) [LinearOrder A] where
  | createValidator (caller origin : A) (args : CreateArgs A)
  | other (f : Tokenomics.Stores A → Tokenomics.Stores A)

def EvmOp.apply (k : StakingKeepers A) (env : Env A) (ctx : Ctx A) (s : Validators A) :
    EvmOp A → Validators A
  | .createValidator caller origin args =>
    (precompileCreateValidator k env ctx caller origin args).deliver s
  | .other f => { s with toStores := f s.toStores }

/-- `elsewhere` is any code that creates no validator. -/
inductive RouteOp (A : Type) [LinearOrder A] where
  | cosmosTx (ctx : Ctx A) (before after : Call A Unit) (msgs : List (Msg A))
  | evmTx (ctx : Ctx A) (ops : List (EvmOp A))
  | elsewhere (stores : Tokenomics.Stores A) (validators : Store A Validator)

def RouteOp.apply (k : StakingKeepers A) (env : Env A) (s : Validators A) :
    RouteOp A → Validators A
  | .cosmosTx ctx before after msgs => deliverTx k env ctx before after msgs s
  | .evmTx ctx ops => ops.foldl (EvmOp.apply k env ctx) s
  | .elsewhere stores validators => { s with toStores := stores, validators := validators }

def RouteStep (k : StakingKeepers A) (env : Env A) (s t : Validators A) : Prop :=
  ∃ op : RouteOp A, t = op.apply k env s

/-- What every created validator has, whatever the route: a stake that covers its declared
minimum, and a minimum that covers the floor the decorator checked. -/
structure Creation.Sound (c : Creation A) : Prop where
  covered : c.minSelfDelegation ≤ c.selfDelegation
  checked : ∀ f, c.checked = some f → 0 < f → f ≤ c.minSelfDelegation

def AllSound (s : Validators A) : Prop := ∀ c ∈ s.created, c.Sound

variable {s t : Validators A} {m : MsgCreateValidator A}

theorem onState_ok {x : Call A α} {v : α}
    (h : onState x s = .ok v t) : ∃ u, x s.chain = .ok v u ∧ t = { s with chain := u } :=
  zoom_eq_ok.mp h

theorem onStores_sound (f : Tokenomics.Stores A → Except Err (Tokenomics.Stores A)) :
    Triple AllSound (onStores f) (fun _ => AllSound) (fun _ _ => True) := by
  intro s hs
  unfold onStores
  cases f s.toStores with
  | ok t => exact hs
  | error e => trivial

theorem bonded_bond (ctx : Ctx A) (a : A) (val : Nat) (x : Int) (s : State A) :
    (Staking.bond ctx a val x s).staking.bonded a val = s.staking.bonded a val+x := by
  unfold Staking.bond
  rw [(Energy.refresh_accountsOnly ctx a _).staking,State.setStaking_staking]
  simp [StakingState.bonded,StakingState.setBonded]

theorem validateDelegationAmountNotUnvested_ok {k : StakingKeepers A} {ctx : Ctx A} {addr : A}
    {amount : Int}
    (hok : validateDelegationAmountNotUnvested k ctx addr amount s = .ok () t) : t = s := by
  unfold validateDelegationAmountNotUnvested at hok
  rw [run_get_bind] at hok
  cases hacct : k.account ctx s.chain addr with
  | none =>
    rw [hacct] at hok
    cases hok
  | some acct =>
    rw [hacct] at hok
    cases acct with
    | base =>
      cases hok
      rfl
    | clawback unvested => exact (require_eq_ok hok).2.symm

omit [LinearOrder A] in
theorem checkCreate_ok {f declared : Int}
    (h : checkCreate f m = .ok ()) (hdeclared : m.minSelfDelegation = some declared) :
    f ≤ declared := by
  unfold checkCreate at h
  rw [hdeclared] at h
  simp only at h
  split at h
  · cases h
  · rename_i hge
    exact not_lt.mp hge

theorem createValidator_ok {k : StakingKeepers A} {env : Env A} {ctx : Ctx A} {checked : Option Int}
    (hok : createValidator k env ctx checked m s = .ok () t) :
    ∃ declared, m.minSelfDelegation = some declared ∧ declared ≤ m.amount ∧
      t.tokenomics = s.tokenomics ∧
      t.created = ⟨m.validator,declared,m.amount,s.getValidatorMinSelfDelegation,checked⟩ ::
        s.created := by
  unfold createValidator at hok
  obtain ⟨_,u,hvest,hok⟩ := bind_eq_ok.mp hok
  rw [validateDelegationAmountNotUnvested_ok hvest] at hok
  unfold sdkCreateValidator at hok
  obtain ⟨_,hok⟩ := require_ok hok
  cases hdeclared : m.minSelfDelegation with
  | none =>
    rw [hdeclared] at hok
    cases hok
  | some declared =>
    rw [hdeclared] at hok
    obtain ⟨_,hok⟩ := require_ok hok
    obtain ⟨hle,hok⟩ := require_ok hok
    rw [run_get_bind] at hok
    obtain ⟨_,_,hok⟩ := ofExcept_ok hok
    obtain ⟨_,hok⟩ := require_ok hok
    obtain ⟨_,hok⟩ := require_ok hok
    rw [run_modify_bind] at hok
    obtain ⟨_,v,hdel,hok⟩ := bind_eq_ok.mp hok
    obtain ⟨c,hrun,rfl⟩ := onState_ok hdel
    obtain ⟨_,_,rfl⟩ := Staking.delegate_ok hrun
    cases hok
    refine ⟨declared,rfl,hle,rfl,?_⟩
    simp only [bonded_bond]
    congr 2
    simp [State.setBank]

theorem createValidator_sound {k : StakingKeepers A} {env : Env A} {ctx : Ctx A}
    {checked : Option Int} (hchecked : ∀ f, checked = some f → 0 < f → checkCreate f m = .ok ()) :
    Triple AllSound (createValidator k env ctx checked m) (fun _ => AllSound)
      (fun _ _ => True) := by
  intro s hs
  cases hok : createValidator k env ctx checked m s with
  | error e t => trivial
  | ok _ t =>
    obtain ⟨declared,hdeclared,hle,_,hcreated⟩ := createValidator_ok hok
    intro c hc
    rw [hcreated] at hc
    rcases List.mem_cons.mp hc with rfl | hold
    · refine ⟨hle,?_⟩
      intro f hf hpos
      exact checkCreate_ok (hchecked f hf hpos) hdeclared
    · exact hs c hold

section Cosmos

variable {k : StakingKeepers A} {env : Env A} {ctx : Ctx A} {f : Int}

mutual

theorem runMsg_sound (m : Msg A) (lvl : Nat) (hcheck : 0 < f → checkMsg f lvl m = .ok ()) :
    Triple AllSound (runMsg k env ctx (some f) m) (fun _ => AllSound) (fun _ _ => True) := by
  cases m with
  | exec granted msgs =>
    unfold runMsg
    refine Triple.require (fun _ _ _ => trivial) fun _ => ?_
    refine runMsgs_sound msgs (lvl+1) ?_
    intro hpos
    have h := hcheck hpos
    unfold checkMsg permitted at h
    split at h
    · cases h
    · exact h
  | createValidator m =>
    unfold runMsg
    refine createValidator_sound ?_
    intro g hg hpos
    cases hg
    have h := hcheck hpos
    unfold checkMsg at h
    exact h
  | editValidator declared handle | other handle =>
    unfold runMsg
    exact onStores_sound handle

theorem runMsgs_sound (msgs : List (Msg A)) (lvl : Nat)
    (hcheck : 0 < f → checkMsgs f lvl msgs = .ok ()) :
    Triple AllSound (runMsgs k env ctx (some f) msgs) (fun _ => AllSound)
      (fun _ _ => True) := by
  cases msgs with
  | nil =>
    unfold runMsgs
    exact Triple.pure fun _ hs => hs
  | cons m rest =>
    have hparts : 0 < f → checkMsg f lvl m = .ok () ∧ checkMsgs f lvl rest = .ok () := by
      intro hpos
      have h := hcheck hpos
      unfold checkMsgs at h
      cases hm : checkMsg f lvl m with
      | error e =>
        rw [hm] at h
        cases h
      | ok _ =>
        rw [hm] at h
        exact ⟨rfl,h⟩
    unfold runMsgs
    refine Triple.bind (fun _ => AllSound) ?_ ?_
    · exact runMsg_sound m lvl fun hpos => (hparts hpos).1
    · intro _
      exact runMsgs_sound rest lvl fun hpos => (hparts hpos).2

end

theorem minSelfDelegation_ok {msgs : List (Msg A)} {s t : Validators A}
    (hok : minSelfDelegation msgs s = .ok f t) :
    t = s ∧ (0 < f → checkMsgs f 1 msgs = .ok ()) := by
  unfold minSelfDelegation at hok
  rw [run_get_bind] at hok
  by_cases hfloor : s.getValidatorMinSelfDelegation ≤ 0
  · rw [if_pos hfloor] at hok
    cases hok
    exact ⟨rfl,fun hpos => absurd hfloor (not_le.mpr hpos)⟩
  · rw [if_neg hfloor] at hok
    cases hcheck : permitted 1 (checkMsgs s.getValidatorMinSelfDelegation 1 msgs) with
    | error e =>
      rw [hcheck] at hok
      cases hok
    | ok _ =>
      rw [hcheck] at hok
      cases hok
      exact ⟨rfl,fun _ => hcheck⟩

theorem deliverTx_sound {before after : Call A Unit} {msgs : List (Msg A)} {s : Validators A}
    (hs : AllSound s) : AllSound (deliverTx k env ctx before after msgs s) := by
  unfold deliverTx
  cases hante : anteHandle before after msgs s with
  | error e t => exact hs
  | ok floor t =>
    unfold anteHandle at hante
    obtain ⟨_,u,hbefore,hante⟩ := bind_eq_ok.mp hante
    obtain ⟨c,_,rfl⟩ := onState_ok hbefore
    obtain ⟨f,v,hfloor,hante⟩ := bind_eq_ok.mp hante
    obtain ⟨rfl,hcheck⟩ := minSelfDelegation_ok hfloor
    obtain ⟨_,w,hafter,hante⟩ := bind_eq_ok.mp hante
    obtain ⟨d,_,rfl⟩ := onState_ok hafter
    cases hante
    refine deliver_of_ok hs fun _ t hrun => ?_
    refine (runMsgs_sound msgs 1 hcheck).ok ?_ hrun
    exact hs

end Cosmos

theorem evmOp_sound {k : StakingKeepers A} {env : Env A} {ctx : Ctx A} {s : Validators A}
    (hs : AllSound s) (op : EvmOp A) : AllSound (op.apply k env ctx s) := by
  cases op with
  | other f => exact hs
  | createValidator caller origin args =>
    refine deliver_of_ok hs fun _ t hrun => ?_
    unfold precompileCreateValidator at hrun
    obtain ⟨m,_,hrun⟩ := ofExcept_ok hrun
    obtain ⟨_,hrun⟩ := require_ok hrun
    obtain ⟨_,hrun⟩ := require_ok hrun
    exact (createValidator_sound (fun _ hf _ => by cases hf)).ok hs hrun

theorem allSound_reachable {k : StakingKeepers A} {env : Env A} {s : Validators A}
    (h : Reachable (fun s => s.created = []) (RouteStep k env) s) : AllSound s := by
  refine h.invariant (fun t ht => by simp [AllSound,ht]) ?_
  rintro t _ ht ⟨op,rfl⟩
  cases op with
  | cosmosTx ctx before after msgs => exact deliverTx_sound ht
  | evmTx ctx ops =>
    exact List.foldlRecOn (motive := AllSound) ops _ ht fun u hu op _ => evmOp_sound hu op
  | elsewhere stores validators => exact ht

/-- The law of the floor for one created validator. -/
def Creation.MeetsFloor (c : Creation A) : Prop :=
  0 < c.floor → c.floor ≤ c.minSelfDelegation ∧ c.floor ≤ c.selfDelegation

instance (c : Creation A) : Decidable c.MeetsFloor := inferInstanceAs (Decidable (_ → _))

/-- A validator meets the floor exactly when there was none, when the decorator had checked
it against a floor at least as high, or when its operator chose a minimum that high. -/
theorem self_stake_floor_iff {k : StakingKeepers A} {env : Env A} {s : Validators A}
    (h : Reachable (fun s => s.created = []) (RouteStep k env) s) :
    ∀ c ∈ s.created, c.MeetsFloor ↔
      c.floor ≤ 0 ∨ (∃ f, c.checked = some f ∧ c.floor ≤ f) ∨ c.floor ≤ c.minSelfDelegation := by
  intro c hc
  obtain ⟨hcovered,hchecked⟩ := allSound_reachable h c hc
  constructor
  · intro hmeets
    rcases le_or_gt c.floor 0 with hzero | hpos
    · exact .inl hzero
    · exact .inr (.inr (hmeets hpos).1)
  · rintro (hzero | ⟨f,hf,hle⟩ | hle) hpos
    · omega
    · have hmin := hchecked f hf (by omega)
      exact ⟨by omega,by omega⟩
    · exact ⟨hle,by omega⟩

def sampleStaking : StakingKeepers Nat where
  account _ _ _ := some .base
  number a := a
  checkDetails _ _ := .ok ()
  zeroAddress := 1000

def sampleValidators : Validators Nat where
  chain := sampleState.setBank (sampleState.bank.addBalance 10 .atos (10^27))
  tokenomics := Tokenomics.emptyStore
  validators := Store.empty
  created := []

def sampleCreate (a : Nat) (declared amount : Int) : Msg Nat :=
  .createValidator ⟨"sample validator",⟨⟨10^17⟩,⟨2*10^17⟩,⟨10^16⟩⟩,some declared,a,
    List.replicate 32 7,.atos,amount⟩

def sampleRoute (ops : List (RouteOp Nat)) : Validators Nat :=
  ops.foldl (RouteOp.apply sampleStaking sampleEnv) sampleValidators

theorem sampleRoute_reachable (ops : List (RouteOp Nat)) :
    Reachable (fun s => s.created = []) (RouteStep sampleStaking sampleEnv) (sampleRoute ops) :=
  Reachable.foldl (fun _ op => ⟨op,rfl⟩) ops (Reachable.start rfl)

def nestedCreate : List (RouteOp Nat) :=
  [.cosmosTx sampleCtx (pure ()) (pure ()) [.exec true [sampleCreate 10 (10^26) (10^26)]]]

theorem self_stake_floor_iff_nestedCreate :
    ∃ c ∈ (sampleRoute nestedCreate).created, 0 < c.floor ∧ c.MeetsFloor := by
  have hread : ∃ c ∈ (sampleRoute nestedCreate).created,
      c.floor = 10^26 ∧ c.checked = some (10^26) := by decide +kernel
  obtain ⟨c,hc,hfloor,hchecked⟩ := hread
  refine ⟨c,hc,by omega,?_⟩
  exact (self_stake_floor_iff (sampleRoute_reachable nestedCreate) c hc).mpr
    (.inr (.inl ⟨_,hchecked,hfloor.le⟩))

/-- The same validator with a stake and a minimum of one unit, as a Cosmos message and as a
call of the precompile by its own account. -/
def tinyCreate : List (RouteOp Nat) :=
  [.cosmosTx sampleCtx (pure ()) (pure ()) [sampleCreate 11 1 1],
    .evmTx sampleCtx [.createValidator 11 11
      ⟨"tiny validator",10^17,2*10^17,10^16,1,11,some (List.replicate 32 7),1⟩]]

/-- The first is refused, the second creates a validator far below the floor. -/
theorem precompile_ignores_floor :
    (sampleRoute (tinyCreate.take 1)).created.length = 0 ∧
      ∃ c ∈ (sampleRoute tinyCreate).created,
        c.operator = 11 ∧ c.floor = 10^26 ∧ c.minSelfDelegation = 1 ∧ c.selfDelegation = 1 ∧
          ¬ c.MeetsFloor := by
  decide +kernel

end Atoshi.App
