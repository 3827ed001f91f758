import Atoshi.Bridge.Replay
import Atoshi.Bridge.Wire

namespace Atoshi.Bridge
open Exec

/-! Transfers in both directions at an exact peg. -/

variable {A : Type} [LinearOrder A]

def mulOrPanic (x y : Int) : Option Int :=
  if 256 < bitLen x.natAbs+bitLen y.natAbs-1 then none
  else if 256 < bitLen (x*y).natAbs then none
  else some (x*y)

/-- `Erc20ToAtos` with its cast of the peg to `int64` and the panic of the product. -/
def erc20ToAtosOrPanic (erc20 : Int) (atosPerErc20 : Nat) : Option (Except Err Int) :=
  if erc20 ≤ 0 ∨ atosPerErc20 = 0 then some (.ok 0)
  else if 256 < bitLen erc20.toNat+bitLen atosPerErc20 then
    some (.error (.bridge .invalidAmount (some
      s!"a {bitLen erc20.toNat}-bit ERC20 amount at a peg of {atosPerErc20} overflows 256 bits")))
  else (mulOrPanic erc20 (toInt64 atosPerErc20)).map .ok

theorem mulOrPanic_of_bitLen {m n : Nat} (h : bitLen m+bitLen n ≤ 256) :
    mulOrPanic m n = some ((m : Int)*n) ∧ m*n < 2^256 := by
  have hm := (bitLen_le_iff m _).mp (le_refl _)
  have hn := (bitLen_le_iff n _).mp (le_refl _)
  have hprod : m*n < 2^256 := by
    calc m*n < 2^bitLen m*2^bitLen n := Nat.mul_lt_mul'' hm hn
      _ = 2^(bitLen m+bitLen n) := (Nat.pow_add _ _ _).symm
      _ ≤ 2^256 := Nat.pow_le_pow_right (by decide) h
  refine ⟨?_,hprod⟩
  unfold mulOrPanic
  rw [Int.natAbs_natCast,Int.natAbs_natCast,if_neg (by omega),if_neg]
  rw [← Nat.cast_mul,Int.natAbs_natCast,not_lt]
  exact (bitLen_le_iff _ _).mpr hprod

/-- At a peg that passed its validation the guard before the product is exact: the call
returns, with an error or with the product, which fits 256 bits. -/
theorem erc20ToAtosOrPanic_eq {erc20 : Int} (h0 : 0 ≤ erc20) {peg : Nat} (hpeg : peg ≤ maxInt64) :
    erc20ToAtosOrPanic erc20 peg = some (erc20ToAtos erc20 peg) ∧
      (erc20ToAtos erc20 peg = .ok (erc20*peg) ∧ erc20*peg < 2^256 ∨
        ∃ e, erc20ToAtos erc20 peg = .error e) := by
  obtain ⟨n,rfl⟩ := Int.eq_ofNat_of_zero_le h0
  unfold erc20ToAtosOrPanic erc20ToAtos
  by_cases hzero : (n : Int) ≤ 0 ∨ peg = 0
  · rw [if_pos hzero,if_pos hzero]
    have hprod : (n : Int)*peg = 0 := by
      rcases hzero with hn | hp
      · rw [le_antisymm hn (Int.natCast_nonneg n),zero_mul]
      · simp [hp]
    exact ⟨rfl,.inl ⟨by rw [hprod],by rw [hprod]; norm_num⟩⟩
  · rw [if_neg hzero,if_neg hzero,Int.toNat_natCast]
    by_cases hbits : 256 < bitLen n+bitLen peg
    · rw [if_pos hbits,if_pos hbits]
      exact ⟨rfl,.inr ⟨_,rfl⟩⟩
    · obtain ⟨hmul,hlt⟩ := mulOrPanic_of_bitLen (not_lt.mp hbits)
      rw [if_neg hbits,if_neg hbits,toInt64_of_lt (Nat.lt_succ_of_le hpeg),hmul]
      exact ⟨rfl,.inl ⟨rfl,by exact_mod_cast hlt⟩⟩

theorem atosToErc20_ok {atos erc20 : Int} {peg : Nat} (h : atosToErc20 atos peg = .ok erc20) :
    erc20*peg = atos ∧ 0 < atos := by
  unfold atosToErc20 at h
  split at h
  · cases h
  · split at h
    · cases h
    · split at h
      · cases h
      · rename_i hpos _ hmod
        cases h
        exact ⟨Int.ediv_mul_cancel (Int.dvd_of_emod_eq_zero (not_not.mp hmod)),not_le.mp hpos⟩

def Multistore.bridgedOut (s : Multistore A) : Int := s.bridge.receiptState.totalBridgedOut
def Multistore.bridgedIn (s : Multistore A) : Int := s.bridge.receiptState.totalBridgedIn

inductive TransferOp (A : Type) [LinearOrder A] where
  | executeBridgeOut (dispatch : Dispatch A) (sender : A) (recipient : Bytes) (amount : Int)
      (maxFee : Coins)
  | handleAssetTransfer (message : HyperlaneMessage)
  | elsewhere (t : Multistore A)

def TransferOp.apply (env : Env A) (net : Hyperlane A) (ctx : Ctx A) (s : Multistore A) :
    TransferOp A → Multistore A
  | .executeBridgeOut dispatch sender recipient amount maxFee =>
    (Bridge.executeBridgeOut env dispatch ctx sender recipient amount maxFee).deliver s
  | .handleAssetTransfer message => (Bridge.handleAssetTransfer env net ctx message).deliver s
  | .elsewhere t => t

def Dispatch.SparesPool (env : Env A) (dispatch : Dispatch A) : Prop :=
  ∀ mailbox app fee domain vault body payer s id t,
    dispatch mailbox app fee domain vault body payer s = .ok id t →
      t.atosOf env.migrationPool = s.atosOf env.migrationPool

/-- The pool has no key to sign with; elsewhere the pool, the counters and the peg are kept. -/
def TransferOp.Admissible (env : Env A) (s : Multistore A) : TransferOp A → Prop
  | .executeBridgeOut dispatch sender _ _ _ => sender ≠ env.migrationPool ∧ dispatch.SparesPool env
  | .handleAssetTransfer _ => True
  | .elsewhere t => migrationPoolBalance env t = migrationPoolBalance env s ∧
      t.bridgedOut = s.bridgedOut ∧ t.bridgedIn = s.bridgedIn ∧
      t.bridge.params.atosPerErc20 = s.bridge.params.atosPerErc20

def TransferStep (env : Env A) (net : Hyperlane A) (s t : Multistore A) : Prop :=
  ∃ (ctx : Ctx A) (op : TransferOp A), op.Admissible env s ∧ t = op.apply env net ctx s

structure Balanced (env : Env A) (s t : Multistore A) : Prop where
  pool : migrationPoolBalance env t-migrationPoolBalance env s =
    (t.bridgedOut-s.bridgedOut)-(t.bridgedIn-s.bridgedIn)
  peg : t.bridge.params.atosPerErc20 = s.bridge.params.atosPerErc20

theorem Balanced.refl (env : Env A) (s : Multistore A) : Balanced env s s := ⟨by simp,rfl⟩

variable {env : Env A} {ctx : Ctx A} {s t : Multistore A} {events : List (Event A)}

theorem Balanced.trans {u : Multistore A} (h : Balanced env s t)
    (k : Balanced env t u) : Balanced env s u := by
  have hpool := h.pool
  have kpool := k.pool
  exact ⟨by omega,k.peg.trans h.peg⟩

/-- What a transfer out asks Ethereum for: the ATOS taken from the sender at the peg. -/
structure AskedFor (env : Env A) (dispatch : Dispatch A) (ctx : Ctx A) (sender : A)
    (recipient : Bytes) (amount erc20 : Int) (maxFee : Coins) (s t : Multistore A) : Prop where
  exact : erc20*s.bridge.params.atosPerErc20 = amount
  dispatched : ∃ mailboxId assetApp vault body id c,
    AtosSent ctx.blockTime sender env.migrationPool amount s.chain c ∧
    parseAssetPayload body = .ok (recipient,erc20) ∧
    dispatch mailboxId assetApp maxFee s.bridge.params.ethereumDomain vault body sender c =
      .ok id t.chain

variable {sender : A} {amount : Int} {maxFee : Coins} {recipient : Bytes} {dispatch : Dispatch A}

theorem executeBridgeOut_asked
    (hok : executeBridgeOut env dispatch ctx sender recipient amount maxFee s = .ok events t) :
    ∃ erc20, AskedFor env dispatch ctx sender recipient amount erc20 maxFee s t := by
  obtain ⟨_,erc20,id,_,hexact,mailboxId,assetApp,vault,body,c,hsend,hbody,hrun⟩ :=
    executeBridgeOut_ok hok
  obtain ⟨hmul,hpos⟩ := atosToErc20_ok hexact
  have hsent := sendCoins_sent hsend
  rw [Coins.amountOf_new,if_pos rfl,max_eq_left hpos.le] at hsent
  exact ⟨erc20,hmul,mailboxId,assetApp,vault,body,id,c,hsent,
    (parseAssetPayload_buildAssetPayload hbody).2,hrun⟩

theorem executeBridgeOut_balanced (hsender : sender ≠ env.migrationPool)
    (hspares : dispatch.SparesPool env)
    (hok : executeBridgeOut env dispatch ctx sender recipient amount maxFee s = .ok events t) :
    Balanced env s t := by
  obtain ⟨hout,_⟩ := executeBridgeOut_ok hok
  obtain ⟨erc20,_,_,_,_,_,_,c,hsent,_,hrun⟩ := executeBridgeOut_asked hok
  have hkept := hspares _ _ _ _ _ _ _ _ _ _ hrun
  have hpool := hsent.atos env.migrationPool
  rw [if_neg hsender.symm,if_pos rfl] at hpool
  refine ⟨?_,by rw [hout.bridge]⟩
  simp only [migrationPoolBalance,Multistore.bridgedOut,Multistore.bridgedIn,hout.bridge]
  omega

theorem handleAssetTransfer_balanced {net : Hyperlane A} {message : HyperlaneMessage}
    (hblocked : env.blockedAddr env.migrationPool = true)
    (hok : handleAssetTransfer env net ctx message s = .ok events t) : Balanced env s t := by
  obtain ⟨recipient,amount,erc20,hin,_,hopen,_⟩ := handleAssetTransfer_ok hok
  have hne : env.migrationPool ≠ recipient := by
    intro heq
    rw [heq,hopen] at hblocked
    cases hblocked
  have hpool := hin.sent.atos env.migrationPool
  rw [if_pos rfl,if_neg hne] at hpool
  refine ⟨?_,by rw [hin.bridge]⟩
  simp only [migrationPoolBalance,Multistore.bridgedOut,Multistore.bridgedIn,hin.bridge]
  omega

theorem TransferOp.balanced (hblocked : env.blockedAddr env.migrationPool = true)
    (net : Hyperlane A) (ctx : Ctx A) {op : TransferOp A}
    (hop : op.Admissible env s) : Balanced env s (op.apply env net ctx s) := by
  cases op with
  | executeBridgeOut dispatch sender recipient amount maxFee =>
    exact deliver_of_ok (.refl env s) fun _ _ hok =>
      executeBridgeOut_balanced hop.1 hop.2 hok
  | handleAssetTransfer message =>
    exact deliver_of_ok (.refl env s) fun _ _ hok =>
      handleAssetTransfer_balanced hblocked hok
  | elsewhere t =>
    obtain ⟨hpool,hout,hin,hpeg⟩ := hop
    exact ⟨by rw [TransferOp.apply,hpool,hout,hin]; omega,hpeg⟩

theorem Params.validate_peg {valid : String → Bool} {p : Params} (h : p.validate valid = .ok ()) :
    p.atosPerErc20 ≤ maxInt64 := by
  unfold Params.validate at h
  obtain ⟨_,h⟩ := check_ok h
  exact (check_ok h).1

/-- No transfer at this state gains or loses anything at the peg, in either direction, and
no amount that a payload can carry makes the conversion panic or wrap. -/
structure ExactPeg (env : Env A) (r : Multistore A) : Prop where
  outbound : ∀ (dispatch : Dispatch A) (ctx : Ctx A) (sender : A) (recipient : Bytes) (amount : Int)
    (maxFee : Coins) (events : List (Event A)) (t : Multistore A),
    executeBridgeOut env dispatch ctx sender recipient amount maxFee r = .ok events t →
      ∃ erc20, AskedFor env dispatch ctx sender recipient amount erc20 maxFee r t
  indivisible : ∀ (dispatch : Dispatch A) (ctx : Ctx A) (sender : A) (recipient : Bytes)
    (amount : Int) (maxFee : Coins), ¬(r.bridge.params.atosPerErc20 : Int) ∣ amount →
      (executeBridgeOut env dispatch ctx sender recipient amount maxFee).returned r = none ∧
      (executeBridgeOut env dispatch ctx sender recipient amount maxFee).deliver r = r
  inbound : ∀ (net : Hyperlane A) (ctx : Ctx A) (message : HyperlaneMessage)
    (events : List (Event A)) (t : Multistore A),
    handleAssetTransfer env net ctx message r = .ok events t →
      ∃ bz erc20 recipient, parseAssetPayload message.body = .ok (bz,erc20) ∧
        AtosSent ctx.blockTime env.migrationPool recipient
          (erc20*r.bridge.params.atosPerErc20) r.chain t.chain
  conversion : ∀ (erc20 : Int), 0 ≤ erc20 → erc20 < 2^256 →
    ∃ result, erc20ToAtosOrPanic erc20 r.bridge.params.atosPerErc20 = some result ∧
      erc20ToAtos erc20 r.bridge.params.atosPerErc20 = result ∧
      ((∃ e, result = .error e) ∨ result = .ok (erc20*r.bridge.params.atosPerErc20))
  payload : ∀ (body bz : Bytes) (erc20 : Int), parseAssetPayload body = .ok (bz,erc20) →
    0 ≤ erc20 ∧ erc20 < 2^256

theorem exactPeg_of_le (env : Env A) {r : Multistore A}
    (hpeg : r.bridge.params.atosPerErc20 ≤ maxInt64) : ExactPeg env r where
  outbound _ _ _ _ _ _ _ _ hok := executeBridgeOut_asked hok
  indivisible dispatch ctx sender recipient amount maxFee hdvd := by
    have hfails : ∀ events t,
        executeBridgeOut env dispatch ctx sender recipient amount maxFee r ≠ .ok events t := by
      intro events t hok
      obtain ⟨erc20,hasked⟩ := executeBridgeOut_asked hok
      exact hdvd ⟨erc20,by rw [mul_comm]; exact hasked.exact.symm⟩
    unfold returned deliver
    split
    · rename_i hok
      exact absurd hok (hfails _ _)
    · exact ⟨rfl,rfl⟩
  inbound net ctx message events t hok := by
    obtain ⟨recipient,amount,erc20,hin,_,_,⟨bz,hparse⟩,rfl⟩ := handleAssetTransfer_ok hok
    exact ⟨bz,erc20,recipient,hparse,hin.sent⟩
  conversion erc20 h0 _ := by
    obtain ⟨heq,hresult⟩ := erc20ToAtosOrPanic_eq h0 hpeg
    refine ⟨_,heq,rfl,?_⟩
    rcases hresult with ⟨hok,_⟩ | herror
    · exact .inr hok
    · exact .inl herror
  payload _ _ _ := parseAssetPayload_ok

/-- Over every run the migration pool moves by what was bridged out less what was bridged
in, and every transfer along it is exact at the peg. -/
theorem bridge_conserves_pool {env : Env A} {net : Hyperlane A} {start r : Multistore A}
    (hblocked : env.blockedAddr env.migrationPool = true)
    (hgenesis : start.bridge.params.validate env.validBech32 = .ok ())
    (h : Reachable (· = start) (TransferStep env net) r) :
    migrationPoolBalance env r-migrationPoolBalance env start =
        (r.bridgedOut-start.bridgedOut)-(r.bridgedIn-start.bridgedIn) ∧
      ExactPeg env r := by
  have hbalanced : Balanced env start r := by
    refine h.invariant (I := fun u => Balanced env start u) ?_ ?_
    · rintro u rfl
      exact .refl env u
    · rintro u t hu ⟨ctx,op,hop,rfl⟩
      exact hu.trans (op.balanced hblocked net ctx hop)
  refine ⟨hbalanced.pool,exactPeg_of_le env ?_⟩
  rw [hbalanced.peg]
  exact Params.validate_peg hgenesis

def sampleCrossings : List (Ctx Nat × TransferOp Nat) :=
  let out := fun sender amount => TransferOp.executeBridgeOut
    (fun _ _ _ _ _ _ _ => pure (.filled 0)) sender (HexAddress.filled 9).bytes amount Coins.empty
  [(sampleCtx,out 10 (10^22)),(sampleCtx,.handleAssetTransfer (sampleMessage 1)),
    (sampleCtx,out 10 (10^22+1)),(sampleCtxNext,out 11 (10^22))]

theorem bridge_conserves_pool_sampleCrossings :
    let cross := fun (s : Multistore Nat) (p : Ctx Nat × TransferOp Nat) =>
      p.2.apply sampleEnv sampleNet p.1 s
    let r := sampleCrossings.foldl cross sampleRelay.store
    r.bridgedOut = 2*10^22 ∧ r.bridgedIn = 6553600 ∧
      migrationPoolBalance sampleEnv r-migrationPoolBalance sampleEnv sampleRelay.store =
        (r.bridgedOut-sampleRelay.store.bridgedOut)-(r.bridgedIn-sampleRelay.store.bridgedIn) ∧
      ExactPeg sampleEnv r := by
  intro cross r
  have hspares : Dispatch.SparesPool sampleEnv (fun _ _ _ _ _ _ _ => pure (.filled 0)) := by
    intro _ _ _ _ _ _ _ s id t hrun
    cases hrun
    rfl
  have hreach : Reachable (· = sampleRelay.store) (TransferStep sampleEnv sampleNet) r :=
    Reachable.along (fun _ p hp => ⟨p.1,p.2,hp,rfl⟩) (.start rfl)
      ⟨⟨by decide,hspares⟩,trivial,⟨by decide,hspares⟩,⟨by decide,hspares⟩,trivial⟩
  exact ⟨by decide +kernel,by decide +kernel,bridge_conserves_pool rfl rfl hreach⟩

end Atoshi.Bridge
