import Atoshi.Evm.Mirror

namespace Atoshi.Evm
open Exec

/-! Every message of x/staking that changes a delegation first pays out the rewards of the
delegator. Only Delegate returns a balance change entry, for the amount it bonds. -/

inductive StakingMsg where
  | delegate
  | undelegate
  | redelegate
  | cancelUnbondingDelegation
  deriving DecidableEq, Repr

/-- What the messages read and write of x/staking, x/distribution and x/authz, whose states
are part of the other state of a store. -/
structure StakingKeeper (A X : Type) where
  bondedPool : A
  notBondedPool : A
  distribution : A
  rewards : X → A → Int
  withdrawAddress : X → A → A
  authorized : X → A → A → StakingMsg → Int → Bool
  record : StakingMsg → A → Int → X → X
  gasUsed : StakingMsg → Nat

section Move

variable {A X : Type} [LinearOrder A]

def Multistore.move (sender recipient : A) (amount : Int) (store : Multistore A X) :
    Multistore A X := (store.addBalance sender (-amount)).addBalance recipient amount

theorem Multistore.move_balance (sender recipient : A) (amount : Int) (store : Multistore A X)
    (a : A) : ((store.move sender recipient amount).account a).balance =
      (store.account a).balance-(if a = sender then amount else 0)+
        if a = recipient then amount else 0 := by
  unfold move addBalance setAccount
  by_cases hr : a = recipient
  · subst hr
    by_cases hs : a = sender
    · subst hs
      simp
    · simp [hs]
  · by_cases hs : a = sender
    · subst hs
      simp [hr,sub_eq_add_neg]
    · simp [hr,hs]

theorem Multistore.move_storage (sender recipient : A) (amount : Int) (store : Multistore A X)
    (a : A) : ((store.move sender recipient amount).account a).storage =
      (store.account a).storage := by
  have hadd : ∀ (s : Multistore A X) (b : A) (x : Int),
      ((s.addBalance b x).account a).storage = (s.account a).storage := by
    intro s b x
    unfold addBalance setAccount
    by_cases hb : a = b
    · subst hb
      simp
    · simp [Function.update_of_ne hb]
  rw [move,hadd,hadd]

end Move

variable {A X : Type} [LinearOrder A]

namespace StakingKeeper

variable (k : StakingKeeper A X)

def payRewards (delegator : A) (store : Multistore A X) : Multistore A X :=
  store.move k.distribution (k.withdrawAddress store.other delegator)
    (k.rewards store.other delegator)

def moveStake (delegator : A) (amount : Int) (store : Multistore A X) :
    StakingMsg → Multistore A X
  | .delegate => store.move delegator k.bondedPool amount
  | .undelegate => store.move k.bondedPool k.notBondedPool amount
  | .redelegate => store
  | .cancelUnbondingDelegation => store.move k.notBondedPool k.bondedPool amount

def deliver (msg : StakingMsg) (delegator : A) (amount : Int) :
    Exec EvmErr (Multistore A X) Unit := do
  modify (k.payRewards delegator)
  let store ← get
  require (msg = .delegate → amount ≤ (store.account delegator).balance)
    (.method "insufficient funds")
  modify fun store =>
    { k.moveStake delegator amount store msg with
      other := k.record msg delegator amount store.other }

/-- A method of the precompile: the delegator has to be the caller or the signer, and a
contract needs a grant of the signer. -/
def stakingMethod (msg : StakingMsg) (entries : List (BalanceChangeEntry A)) (delegator : A)
    (amount : Int) (c : Contract A) :
    Exec EvmErr (Multistore A X) (List (BalanceChangeEntry A) × Nat) := do
  require (c.caller = delegator ∨ c.origin = delegator)
    (.method "origin address is not the same as delegator address")
  let store ← get
  require (c.caller = c.origin ∨ k.authorized store.other c.caller c.origin msg amount)
    (.method "authorization does not exist or is expired")
  k.deliver msg delegator amount
  return (entries,k.gasUsed msg)

/-- The entry mirrors the bonded amount, when a contract is the caller. -/
def delegate (delegator : A) (amount : Int) (c : Contract A) :
    Exec EvmErr (Multistore A X) (List (BalanceChangeEntry A) × Nat) :=
  k.stakingMethod .delegate (if c.caller ≠ c.origin then [⟨delegator,amount,.sub⟩] else [])
    delegator amount c

def undelegate (delegator : A) (amount : Int) (c : Contract A) :
    Exec EvmErr (Multistore A X) (List (BalanceChangeEntry A) × Nat) :=
  k.stakingMethod .undelegate [] delegator amount c

def redelegate (delegator : A) (amount : Int) (c : Contract A) :
    Exec EvmErr (Multistore A X) (List (BalanceChangeEntry A) × Nat) :=
  k.stakingMethod .redelegate [] delegator amount c

def cancelUnbondingDelegation (delegator : A) (amount : Int) (c : Contract A) :
    Exec EvmErr (Multistore A X) (List (BalanceChangeEntry A) × Nat) :=
  k.stakingMethod .cancelUnbondingDelegation [] delegator amount c

def precompile (address : A) (methodById : List UInt8 → Option String)
    (unpack : List UInt8 → Option (A × Int)) : Precompile A X where
  address := address
  hasReceive := false
  hasFallback := false
  methodById := methodById
  isTransaction method :=
    method ∈ [.function "delegate",.function "undelegate",.function "redelegate",
      .function "cancelUnbondingDelegation"]
  unpacks _ input := (unpack input).isSome
  execute method c :=
    match unpack (c.input.drop 4) with
    | none => throw .badArguments
    | some (delegator,amount) =>
      match method with
      | .function "delegate" => k.delegate delegator amount c
      | .function "undelegate" => k.undelegate delegator amount c
      | .function "redelegate" => k.redelegate delegator amount c
      | .function "cancelUnbondingDelegation" => k.cancelUnbondingDelegation delegator amount c
      | _ => pure ([],0)

section Mirrors

variable {k} {delegator : A} {amount : Int} {c : Contract A} {entries : List (BalanceChangeEntry A)}
  {cost : Nat} {store store' : Multistore A X} {moved : Set A} {p : Precompile A X}
  {db : StateDB A X}

theorem deliver_eq_ok {msg : StakingMsg} {u : Unit}
    (h : k.deliver msg delegator amount store = .ok u store') :
    store'.account = (k.moveStake delegator amount (k.payRewards delegator store) msg).account := by
  unfold deliver at h
  rw [run_modify_bind,run_get_bind] at h
  obtain ⟨-,hrest⟩ := require_ok h
  cases hrest
  rfl

theorem stakingMethod_eq_ok {msg : StakingMsg} {out : List (BalanceChangeEntry A)}
    (h : k.stakingMethod msg out delegator amount c store = .ok (entries,cost) store') :
    entries = out ∧ store'.account =
      (k.moveStake delegator amount (k.payRewards delegator store) msg).account := by
  obtain ⟨-,h⟩ := require_ok h
  rw [run_get_bind] at h
  obtain ⟨-,h⟩ := require_ok h
  obtain ⟨_,mid,hdeliver,hrest⟩ := bind_eq_ok.mp h
  cases hrest
  exact ⟨rfl,deliver_eq_ok hdeliver⟩

theorem delegate_mirrors_iff (h : k.delegate delegator amount c store = .ok (entries,cost) store')
    (hcontract : c.caller ≠ c.origin)
    (hwithdraw : k.withdrawAddress store.other delegator = delegator)
    (hbonded : ¬ Held p entries db k.bondedPool)
    (hdistribution : ¬ Held p entries db k.distribution)
    (hfree : delegator ∉ moved) (haddress : p.address ∉ moved) :
    Mirrors moved p entries db store store' ↔ k.rewards store.other delegator = 0 := by
  obtain ⟨hentries,hstore⟩ := stakingMethod_eq_ok h
  rw [if_pos hcontract] at hentries
  have hheld : Held p entries db delegator := by
    rw [hentries]
    exact .inr (.inr ⟨_,List.mem_singleton_self _,rfl⟩)
  have hchange : ∀ a, changeOf entries a = if a = delegator then -amount else 0 := by
    intro a
    simp [hentries,changeOf,BalanceChangeEntry.delta]
  have hbalance : ∀ a, Held p entries db a → (store'.account a).balance =
      (store.account a).balance+changeOf entries a+
        if a = delegator then k.rewards store.other delegator else 0 := by
    intro a ha
    have hb : a ≠ k.bondedPool := fun he => hbonded (he ▸ ha)
    have hd : a ≠ k.distribution := fun he => hdistribution (he ▸ ha)
    rw [hstore,moveStake,Multistore.move_balance,payRewards,Multistore.move_balance,hwithdraw,
      hchange]
    by_cases hdel : a = delegator
    · simp only [hdel,if_true,if_neg (hdel ▸ hb),if_neg (hdel ▸ hd)]
      omega
    · simp [hdel,hb,hd]
  constructor
  · intro hm
    have hmirror := hm.balance delegator hheld
    rw [hbalance delegator hheld,if_pos rfl] at hmirror
    omega
  · intro hzero
    refine ⟨?_,?_,?_⟩
    · rintro a (rfl | ⟨e,he,rfl⟩)
      · exact haddress
      · rw [hentries] at he
        rw [List.mem_singleton.mp he]
        exact hfree
    · intro a ha
      rw [hbalance a ha,hzero]
      simp
    · intro a _
      rw [hstore,moveStake,Multistore.move_storage,payRewards,Multistore.move_storage]

theorem effect_delegate {address : A} {methodById : List UInt8 → Option String}
    {unpack : List UInt8 → Option (A × Int)}
    (hprepare : (k.precompile address methodById unpack).prepare c = .ok (.function "delegate"))
    (hargs : unpack (c.input.drop 4) = some (delegator,amount))
    (h : (k.precompile address methodById unpack).effect c store = .ok entries store') :
    ∃ cost, k.delegate delegator amount c store = .ok (entries,cost) store' := by
  obtain ⟨method,hmethod,h⟩ := ofExcept_ok h
  cases hprepare.symm.trans hmethod
  obtain ⟨⟨out,cost⟩,mid,hexec,h⟩ := bind_eq_ok.mp h
  obtain ⟨-,h⟩ := require_ok h
  cases h
  refine ⟨cost,?_⟩
  simpa [precompile,hargs] using hexec

end Mirrors

end StakingKeeper

end Atoshi.Evm
