import Atoshi.Energy.Estimate
import Atoshi.Energy.Reservations

namespace Atoshi.Energy
open List EnergyDelegation

/-! Energy that a transaction did not use goes back to where it came from. -/

variable {A : Type}

instance : IsTrans (EnergyDelegation A) soonerFirst where
  trans d e f hde hef := by
    unfold soonerFirst at *
    omega

instance : Std.Total (soonerFirst (A := A)) where
  total d e := by
    unfold soonerFirst
    omega

variable {d : EnergyDelegation A}

theorem id_eq_of_soonerFirst {e : EnergyDelegation A} (h : soonerFirst d e)
    (k : soonerFirst e d) : d.id = e.id := by
  unfold soonerFirst at h k
  omega

variable [LinearOrder A] {n : Nat} {x : EnergyStore A} {l : List (EnergyDelegation A)}

@[simp] theorem setDelegation_delegations (x : EnergyStore A) (d : EnergyDelegation A) :
    (x.setDelegation d).delegations = x.delegations.set d.id d := rfl


@[simp] theorem chargeTo_zero (l : List (EnergyDelegation A)) (x : EnergyStore A) :
    chargeTo l 0 x = x := by
  cases l <;> rfl

theorem chargeTo_cons (d : EnergyDelegation A) (rest : List (EnergyDelegation A))
    (hn : n ≠ 0) (x : EnergyStore A) :
    chargeTo (d :: rest) n x = chargeTo rest (n-min n d.remaining)
      (x.setDelegation { d with used := d.used+min n d.remaining }) := by
  simp [chargeTo,attributeTo,hn,remaining]

theorem getDelegation_chargeTo_of_not_mem {id : Nat}
    (h : id ∉ l.map EnergyDelegation.id) (n : Nat) (x : EnergyStore A) :
    (chargeTo l n x).getDelegation id = x.getDelegation id := by
  induction l generalizing n x with
  | nil => rfl
  | cons d rest ih =>
    rw [map_cons,mem_cons,not_or] at h
    by_cases hn : n = 0
    · rw [hn,chargeTo_zero]
    · rw [chargeTo_cons d rest hn,ih h.2,getDelegation_setDelegation,if_neg h.1]

theorem undoDelegated_append (target : Nat) (l m : List DelegationConsumption) (done : Nat)
    (x : EnergyStore A) :
    undoDelegated target (l ++ m) done x =
      undoDelegated target m (undoDelegated target l done x).2
        (undoDelegated target l done x).1 := by
  induction l generalizing done x with
  | nil => rfl
  | cons c rest ih =>
    simp only [cons_append,undoDelegated]
    by_cases hdone : target ≤ done
    · cases m <;> simp [undoDelegated,hdone]
    · simp only [if_neg hdone]
      cases x.getDelegation c.delegationID with
      | none => exact ih done x
      | some d =>
        simp only
        split
        · exact ih done x
        · exact ih _ _

/-- What a list of charges can be undone on: the records are stored as listed, each
with room, under distinct ids. -/
structure Chargeable (l : List (EnergyDelegation A)) (x : EnergyStore A) : Prop where
  row : ∀ d ∈ l, x.getDelegation d.id = some d
  room : ∀ d ∈ l, d.used < d.amount
  nodup : (l.map EnergyDelegation.id).Nodup

theorem Chargeable.tail {rest : List (EnergyDelegation A)} (h : Chargeable (d :: rest) x)
    (u : Nat) :
    Chargeable rest (x.setDelegation { d with used := u }) := by
  have hnodup := h.nodup
  rw [map_cons,nodup_cons] at hnodup
  refine ⟨?_,fun e he => h.room e (mem_cons_of_mem d he),hnodup.2⟩
  intro e he
  rw [getDelegation_setDelegation,if_neg]
  · exact h.row e (mem_cons_of_mem d he)
  · intro heq
    exact hnodup.1 (heq ▸ mem_map_of_mem he)

theorem chargeable_candidates (hx : Recorded x) (a : A) : Chargeable (candidates x a) x :=
  ⟨fun _ hd => ((mem_candidates hx).mp hd).2.1,fun _ hd => ((mem_candidates hx).mp hd).2.2,
    nodup_candidates hx a⟩

theorem set_stored
    (h : x.getDelegation d.id = some d) : x.delegations.set d.id d = x.delegations := by
  apply Store.ext_get
  intro k
  rw [Store.get_set]
  split
  · rename_i hk
    rw [hk]
    exact h.symm
  · rfl

/-- The charges of `n` units, undone from the last one back until `target` units are
returned, leave the records as a charge of the difference does. -/
theorem undo_chargeTo (h : Chargeable l x) (hn : (attributeTo l n).remaining = 0) (target : Nat) :
    (undoDelegated target (attributeTo l n).attribution.reverse 0 (chargeTo l n x)).2 =
        min target n ∧
      (undoDelegated target (attributeTo l n).attribution.reverse 0
        (chargeTo l n x)).1.delegations = (chargeTo l (n-min target n) x).delegations := by
  induction l generalizing n x with
  | nil =>
    have hzero : n = 0 := hn
    simp [hzero,attributeTo,undoDelegated]
  | cons d rest ih =>
    by_cases hzero : n = 0
    · simp [hzero,attributeTo,undoDelegated]
    have hroom : 0 < d.remaining := Nat.sub_pos_of_lt (h.room d mem_cons_self)
    have hrest : (attributeTo rest (n-min n d.remaining)).remaining = 0 := by
      simpa [attributeTo,hzero,remaining] using hn
    have hattr : (attributeTo (d :: rest) n).attribution =
        ⟨d.id,min n d.remaining⟩ :: (attributeTo rest (n-min n d.remaining)).attribution := by
      simp [attributeTo,hzero,remaining]
    obtain ⟨hdone,hleft⟩ := ih (h.tail (d.used+min n d.remaining)) hrest
    rw [hattr,reverse_cons,undoDelegated_append,chargeTo_cons d rest hzero]
    generalize undoDelegated target (attributeTo rest (n-min n d.remaining)).attribution.reverse 0
      (chargeTo rest (n-min n d.remaining)
        (x.setDelegation { d with used := d.used+min n d.remaining })) = y at hdone hleft ⊢
    rw [hdone]
    by_cases hreach : target ≤ n-min n d.remaining
    · -- the later charges carry the whole refund and the head keeps its charge
      have hsame : min (n-min target n) d.remaining = min n d.remaining := by omega
      rw [chargeTo_cons d rest (by omega),hsame]
      simp only [undoDelegated,min_eq_left hreach,le_refl,if_true]
      refine ⟨by omega,?_⟩
      rw [hleft]
      congr 2
      omega
    · -- the later charges are all undone and the head gives the rest
      have hall : min target (n-min n d.remaining) = n-min n d.remaining := by omega
      rw [hall,Nat.sub_self,chargeTo_zero,setDelegation_delegations] at hleft
      have hget : y.1.getDelegation d.id = some { d with used := d.used+min n d.remaining } := by
        unfold EnergyStore.getDelegation
        rw [hleft]
        exact Store.get_set_self _ _ _
      have hstep : min (min (target-(n-min n d.remaining)) (min n d.remaining))
          (d.used+min n d.remaining) = min target n-(n-min n d.remaining) := by omega
      simp only [undoDelegated,hall,hreach,if_false,hget,hstep]
      rw [if_neg (by omega),setDelegation_delegations,hleft,Store.set_set]
      refine ⟨by omega,?_⟩
      by_cases hback : n-min target n = 0
      · have hused : d.used+min n d.remaining-(min target n-(n-min n d.remaining)) = d.used := by
          omega
        rw [hback,chargeTo_zero,hused]
        exact set_stored (h.row d mem_cons_self)
      · have hused : d.used+min n d.remaining-(min target n-(n-min n d.remaining)) =
            d.used+min (n-min target n) d.remaining := by omega
        have hlast : n-min target n-min (n-min target n) d.remaining = 0 := by omega
        rw [chargeTo_cons d rest hback,hlast,chargeTo_zero,hused]
        rfl

theorem sorted_candidates (x : EnergyStore A) (a : A) :
    (candidates x a).Pairwise soonerFirst := pairwise_insertionSort _ _

theorem chargeTo_soonest (h : Chargeable l x) (hsorted : l.Pairwise soonerFirst)
    {e : EnergyDelegation A} (he : x.getDelegation e.id = some e)
    (hcharged : (chargeTo l n x).getDelegation e.id ≠ some e) :
    e ∈ l ∧ ∀ d ∈ l, soonerFirst d e → d.id ≠ e.id →
      (chargeTo l n x).getDelegation d.id = some { d with used := d.amount } := by
  induction l generalizing n x with
  | nil => exact absurd he hcharged
  | cons c rest ih =>
    by_cases hzero : n = 0
    · rw [hzero,chargeTo_zero] at hcharged
      exact absurd he hcharged
    rw [chargeTo_cons c rest hzero] at hcharged ⊢
    obtain ⟨hhead,htail⟩ := pairwise_cons.mp hsorted
    have hc := h.row c mem_cons_self
    by_cases hid : e.id = c.id
    · have hec : e = c := by
        rw [hid,hc] at he
        exact (Option.some.inj he).symm
      subst hec
      refine ⟨mem_cons_self,?_⟩
      intro d hd hsooner hne
      rcases mem_cons.mp hd with rfl | hrest
      · exact absurd rfl hne
      · exact absurd (id_eq_of_soonerFirst hsooner (hhead d hrest)) hne
    · have hkept : (x.setDelegation { c with used := c.used+min n c.remaining }).getDelegation
          e.id = some e := by
        rw [getDelegation_setDelegation,if_neg hid]
        exact he
      obtain ⟨hmem,hsooner⟩ := ih (h.tail _) htail hkept hcharged
      refine ⟨mem_cons_of_mem c hmem,?_⟩
      intro d hd hde hne
      rcases mem_cons.mp hd with rfl | hrest
      · have hnodup := h.nodup
        rw [map_cons,nodup_cons] at hnodup
        have hover : n-min n d.remaining ≠ 0 := by
          intro hlast
          rw [hlast,chargeTo_zero] at hcharged
          exact hcharged hkept
        have hfull : d.used+min n d.remaining = d.amount := by
          have hroom := h.room d mem_cons_self
          unfold remaining at *
          omega
        rw [getDelegation_chargeTo_of_not_mem hnodup.1,getDelegation_setDelegation,
          if_pos rfl,hfull]
      · exact hsooner d hrest hde hne

structure SameRecords (s t : State A) : Prop where
  params : s.energy.params = t.energy.params
  accounts : s.energy.accounts = t.energy.accounts
  delegations : s.energy.delegations = t.energy.delegations

namespace SameRecords

variable {s t u : State A}

theorem refl (s : State A) : SameRecords s s := ⟨rfl,rfl,rfl⟩

theorem trans (h : SameRecords s t) (k : SameRecords t u) : SameRecords s u :=
  ⟨h.params.trans k.params,h.accounts.trans k.accounts,h.delegations.trans k.delegations⟩

theorem energyAccount (h : SameRecords s t) (a : A) : s.energyAccount a = t.energyAccount a := by
  unfold State.energyAccount EnergyStore.getEnergyAccount
  rw [h.accounts]

theorem getDelegation (h : SameRecords s t) (id : Nat) :
    s.energy.getDelegation id = t.energy.getDelegation id := by
  unfold EnergyStore.getDelegation
  rw [h.delegations]

theorem deletePendingReservation (h : SameRecords s t) (hash : Option Nat) :
    SameRecords (deletePendingReservation hash s) t := by
  cases hash
  · exact h
  · exact ⟨h.params,h.accounts,h.delegations⟩

end SameRecords

theorem undoDelegated_frame (target : Nat) (l : List DelegationConsumption) (done : Nat)
    (x : EnergyStore A) :
    (undoDelegated target l done x).1.params = x.params ∧
      (undoDelegated target l done x).1.accounts = x.accounts := by
  induction l generalizing done x with
  | nil => exact ⟨rfl,rfl⟩
  | cons c rest ih =>
    simp only [undoDelegated]
    split
    · exact ⟨rfl,rfl⟩
    · cases x.getDelegation c.delegationID with
      | none => exact ih done x
      | some d =>
        simp only
        split
        · exact ih done x
        · exact ih _ _

theorem undoDelegated_congr (target : Nat) (l : List DelegationConsumption) (done : Nat)
    {x y : EnergyStore A} (h : x.delegations = y.delegations) :
    (undoDelegated target l done x).2 = (undoDelegated target l done y).2 ∧
      (undoDelegated target l done x).1.delegations =
        (undoDelegated target l done y).1.delegations := by
  induction l generalizing done x y with
  | nil => exact ⟨rfl,h⟩
  | cons c rest ih =>
    have hget : x.getDelegation c.delegationID = y.getDelegation c.delegationID := by
      unfold EnergyStore.getDelegation
      rw [h]
    simp only [undoDelegated,hget]
    split
    · exact ⟨rfl,h⟩
    · cases y.getDelegation c.delegationID with
      | none => exact ih done h
      | some d =>
        simp only
        split
        · exact ih done h
        · exact ih _ (by rw [setDelegation_delegations,setDelegation_delegations,h])

theorem refundEnergy_records (a : A) {amount : Nat} {res : ConsumeResult} (s : State A)
    (h : min amount (saturatingAdd res.ownDeducted res.delegatedDeducted) ≠ 0) :
    (refundEnergy a amount res s).energy.params = s.energy.params ∧
      (refundEnergy a amount res s).energy.accounts = s.energy.accounts.set a
        (refundedAccount s.energy.params amount res (undone amount res s.energy).2
          (s.energyAccount a)) ∧
      (refundEnergy a amount res s).energy.delegations =
        (undone amount res s.energy).1.delegations := by
  have hframe := undoDelegated_frame (delegatedRefund amount res)
    res.delegationConsumptions.reverse 0 s.energy
  unfold refundEnergy
  rw [if_neg h]
  exact ⟨hframe.1,congrArg (Store.set · a _) hframe.2,rfl⟩

theorem SameRecords.refundEnergy {s t : State A} (h : SameRecords s t) (a : A) (amount : Nat)
    (res : ConsumeResult) :
    SameRecords (refundEnergy a amount res s) (refundEnergy a amount res t) := by
  by_cases hzero : min amount (saturatingAdd res.ownDeducted res.delegatedDeducted) = 0
  · unfold Energy.refundEnergy
    rw [if_pos hzero,if_pos hzero]
    exact h
  · obtain ⟨hparams,haccounts,hdelegations⟩ := refundEnergy_records a s hzero
    obtain ⟨hparams',haccounts',hdelegations'⟩ := refundEnergy_records a t hzero
    obtain ⟨hback,hleft⟩ := undoDelegated_congr (delegatedRefund amount res)
      res.delegationConsumptions.reverse 0 h.delegations
    refine ⟨?_,?_,?_⟩
    · rw [hparams,hparams',h.params]
    · rw [haccounts,haccounts',h.params,h.accounts,h.energyAccount a]
      simp only [undone,hback]
    · rw [hdelegations,hdelegations']
      exact hleft

theorem chargeTo_frame (l : List (EnergyDelegation A)) (n : Nat) (x : EnergyStore A) :
    (chargeTo l n x).params = x.params ∧ (chargeTo l n x).accounts = x.accounts := by
  induction l generalizing n x with
  | nil => exact ⟨rfl,rfl⟩
  | cons d rest ih =>
    by_cases hn : n = 0
    · rw [hn,chargeTo_zero]
      exact ⟨rfl,rfl⟩
    · rw [chargeTo_cons d rest hn]
      exact ih _ _

theorem split_less {gas e m k own del : Nat} (hown : own = min gas m)
    (hdel : del = min (gas-own) k) (he : e ≤ own+del) :
    min e m = own-(own+del-e-min (own+del-e) del) ∧
      min (e-min e m) k = del-min (own+del-e) del := by
  by_cases hle : e ≤ own
  · have hm : min e m = e := by omega
    have hback : min (own+del-e) del = del := by omega
    rw [hm,hback]
    omega
  · have hm : min e m = own := by omega
    have hback : min (own+del-e) del = own+del-e := by omega
    rw [hm,hback]
    omega

theorem draw_less (acct : EnergyAccount) {gas e : Nat}
    (he : e ≤ (draw acct gas false).own+(draw acct gas false).delegated) :
    (draw acct e false).own = (draw acct gas false).own-
        ((draw acct gas false).own+(draw acct gas false).delegated-e-
          min ((draw acct gas false).own+(draw acct gas false).delegated-e)
            (draw acct gas false).delegated) ∧
      (draw acct e false).delegated = (draw acct gas false).delegated-
        min ((draw acct gas false).own+(draw acct gas false).delegated-e)
          (draw acct gas false).delegated :=
  split_less rfl rfl he

section Refund

variable {acct : EnergyAccount} {gas e : Nat}

theorem delegatedRefund_draw (acct : EnergyAccount) (e : Nat) (hgas : gas ≤ maxU64)
    (l : List DelegationConsumption) :
    delegatedRefund ((draw acct gas false).own+(draw acct gas false).delegated-e)
        ((draw acct gas false).result l) =
      min ((draw acct gas false).own+(draw acct gas false).delegated-e)
        (draw acct gas false).delegated := by
  have hsum := draw_sum acct gas false
  simp only [delegatedRefund,Draw.result]
  rw [saturatingAdd_eq (by omega)]
  omega

theorem ownRefund_draw (hgas : gas ≤ maxU64) (l : List DelegationConsumption) :
    ownRefund ((draw acct gas false).own+(draw acct gas false).delegated-e)
        ((draw acct gas false).result l) =
      (draw acct gas false).own+(draw acct gas false).delegated-e-
        min ((draw acct gas false).own+(draw acct gas false).delegated-e)
          (draw acct gas false).delegated := by
  have hsum := draw_sum acct gas false
  unfold ownRefund
  rw [delegatedRefund_draw acct e hgas l]
  simp only [Draw.result]
  rw [saturatingAdd_eq (by omega)]
  omega

theorem refundedAccount_applied {p : Params} (hgas : gas ≤ maxU64)
    (hcap : acct.txEnergyAccrued ≤ txEnergyCapacity acct.lastBalanceSnapshot p)
    (hword : acct.delegatedInUsable ≤ maxU64) (l : List DelegationConsumption)
    (he : e ≤ (draw acct gas false).own+(draw acct gas false).delegated) :
    refundedAccount p ((draw acct gas false).own+(draw acct gas false).delegated-e)
        ((draw acct gas false).result l)
        (min ((draw acct gas false).own+(draw acct gas false).delegated-e)
          (draw acct gas false).delegated)
        ((draw acct gas false).applied acct) =
      (draw acct e false).applied acct := by
  obtain ⟨hown,hdel⟩ := draw_less acct he
  have hx := draw_own_le acct gas false
  have hy := draw_delegated_le acct gas false
  have hmax := txEnergyCapacity_le acct.lastBalanceSnapshot p
  have hdeploy : (draw acct gas false).deploy = (draw acct e false).deploy := rfl
  unfold refundedAccount Draw.applied
  rw [delegatedRefund_draw acct e hgas,ownRefund_draw hgas,hown,hdel,hdeploy]
  simp only [EnergyAccount.mk.injEq,true_and,and_true]
  constructor
  all_goals
    split
    · rw [saturatingAdd_eq (by omega)]
      omega
    · omega

end Refund

@[simp] theorem chargedState_energyAccount (ctx : Ctx A) (a : A) (x : Draw) (s : State A) :
    (chargedState ctx a x s).energyAccount a = x.applied (settledAccount ctx s a) :=
  State.energyAccount_setEnergyAccount_self _ _ _

theorem chargedState_frame (ctx : Ctx A) (a : A) (x : Draw) (s : State A) :
    (chargedState ctx a x s).energy.params = s.energy.params ∧
      (chargedState ctx a x s).energy.accounts =
        (settle ctx a s).energy.accounts.set a (x.applied (settledAccount ctx s a)) ∧
      (chargedState ctx a x s).energy.delegations =
        (chargeTo (candidates s.energy a) x.delegated (settle ctx a s).energy).delegations := by
  have hframe := chargeTo_frame (candidates s.energy a) x.delegated (settle ctx a s).energy
  refine ⟨hframe.1.trans ?_,congrArg (Store.set · a _) hframe.2,rfl⟩
  rw [(settle_accountsOnly ctx a s).energy]

variable {a : A} {ctx : Ctx A}

variable {gas : Nat} {r : ConsumeResult} {s : State A}

theorem refund_chargedState {e : Nat} (hrec : Recorded s.energy) (hgas : gas ≤ maxU64)
    (hcap : (settledAccount ctx s a).txEnergyAccrued ≤
      txEnergyCapacity (settledAccount ctx s a).lastBalanceSnapshot s.energy.params)
    (hword : (settledAccount ctx s a).delegatedInUsable ≤ maxU64) {x : Draw}
    (hx : x = draw (settledAccount ctx s a) gas false)
    (hroom : (attributeTo (candidates s.energy a) x.delegated).remaining = 0)
    (he : e ≤ x.own+x.delegated) :
    SameRecords
      (refundEnergy a (x.own+x.delegated-e)
        (x.result (attributeTo (candidates s.energy a) x.delegated).attribution)
        (chargedState ctx a x s))
      (chargedState ctx a (draw (settledAccount ctx s a) e false) s) := by
  subst hx
  have hless := draw_less (settledAccount ctx s a) he
  have hacct := refundedAccount_applied hgas hcap hword (attributeTo (candidates s.energy a)
    (draw (settledAccount ctx s a) gas false).delegated).attribution he
  have hdel := delegatedRefund_draw (settledAccount ctx s a) e hgas
    (attributeTo (candidates s.energy a)
      (draw (settledAccount ctx s a) gas false).delegated).attribution
  have hchargeable : Chargeable (candidates s.energy a) (settle ctx a s).energy := by
    rw [← candidates_settle ctx a s]
    exact chargeable_candidates ((settle_rebalanced ctx a s).recorded hrec) a
  have hsum := draw_sum (settledAccount ctx s a) gas false
  have hdeploy : (draw (settledAccount ctx s a) e false).deploy =
      (draw (settledAccount ctx s a) gas false).deploy := rfl
  generalize draw (settledAccount ctx s a) gas false = x at *
  generalize draw (settledAccount ctx s a) e false = y at *
  obtain ⟨hparams,haccounts,hdelegations⟩ := chargedState_frame ctx a x s
  obtain ⟨hparams',haccounts',hdelegations'⟩ := chargedState_frame ctx a y s
  have hsat : saturatingAdd x.own x.delegated = x.own+x.delegated :=
    saturatingAdd_eq (by omega)
  by_cases hzero : x.own+x.delegated-e = 0
  · have hown : y.own = x.own := by omega
    have hdelegated : y.delegated = x.delegated := by omega
    have hnone : refundEnergy a (x.own+x.delegated-e)
        (x.result (attributeTo (candidates s.energy a) x.delegated).attribution)
        (chargedState ctx a x s) = chargedState ctx a x s := by
      rw [hzero]
      exact if_pos (Nat.zero_min _)
    rw [hnone]
    refine ⟨hparams.trans hparams'.symm,?_,?_⟩
    · rw [haccounts,haccounts']
      unfold Draw.applied
      rw [hown,hdelegated,hdeploy]
    · rw [hdelegations,hdelegations',hdelegated]
  · have hcongr := undoDelegated_congr (min (x.own+x.delegated-e) x.delegated)
      (attributeTo (candidates s.energy a) x.delegated).attribution.reverse 0 hdelegations
    obtain ⟨hback,hleft⟩ := undo_chargeTo hchargeable hroom
      (min (x.own+x.delegated-e) x.delegated)
    rw [min_eq_left (Nat.min_le_right _ _)] at hback hleft
    rw [hback,hleft] at hcongr
    have hback : min (x.own+x.delegated-e) (saturatingAdd
        (x.result (attributeTo (candidates s.energy a) x.delegated).attribution).ownDeducted
        (x.result (attributeTo (candidates s.energy a)
        x.delegated).attribution).delegatedDeducted) ≠
          0 := by
      simp only [Draw.result,hsat]
      omega
    obtain ⟨hp,ha,hd⟩ := refundEnergy_records a (chargedState ctx a x s) hback
    have hundone : undone (x.own+x.delegated-e)
        (x.result (attributeTo (candidates s.energy a) x.delegated).attribution)
        (chargedState ctx a x s).energy = undoDelegated (min (x.own+x.delegated-e) x.delegated)
          (attributeTo (candidates s.energy a) x.delegated).attribution.reverse 0
          (chargedState ctx a x s).energy := by
      unfold undone
      rw [hdel]
      rfl
    rw [hundone,hcongr.1,chargedState_energyAccount,hparams,hacct,haccounts,Store.set_set] at ha
    rw [hundone,hcongr.2,← hless.2] at hd
    exact ⟨hp.trans (hparams.trans hparams'.symm),ha.trans haccounts'.symm,
      hd.trans hdelegations'.symm⟩

def chargedAccount (ctx : Ctx A) (s : State A) (a : A) : EnergyAccount :=
  if s.energy.params.energyEnabled = true then settledAccount ctx s a else s.energyAccount a

/-- In all, `a` paid `n` units: its own energy first, then the inbound delegations that
expire soonest, and nobody else anything. -/
structure ChargedFor (ctx : Ctx A) (a : A) (n : Nat) (s v : State A) : Prop where
  account : v.energyAccount a = { chargedAccount ctx s a with
    txEnergyAccrued := (chargedAccount ctx s a).txEnergyAccrued-
      min n ((chargedAccount ctx s a).txEnergyAccrued-(chargedAccount ctx s a).delegatedOut)
    delegatedInUsable := (chargedAccount ctx s a).delegatedInUsable-
      (n-((chargedAccount ctx s a).txEnergyAccrued-(chargedAccount ctx s a).delegatedOut)) }
  enough : n ≤ ((chargedAccount ctx s a).txEnergyAccrued-(chargedAccount ctx s a).delegatedOut)+
    (chargedAccount ctx s a).delegatedInUsable
  others : ∀ b, b ≠ a → v.energyAccount b = s.energyAccount b
  inbound : ∀ b, inbound v.energy b = inbound s.energy b-(if b = a then
    ((n-((chargedAccount ctx s a).txEnergyAccrued-
      (chargedAccount ctx s a).delegatedOut) : Nat) : Int) else 0)
  soonest : ∀ e, s.energy.getDelegation e.id = some e → v.energy.getDelegation e.id ≠ some e →
    e.delegatee = a ∧ ∀ d, s.energy.getDelegation d.id = some d → d.delegatee = a →
      soonerFirst d e → d.id ≠ e.id →
      v.energy.getDelegation d.id = some { d with used := d.amount }

theorem ChargedFor.congr {v w : State A}
    (h : ChargedFor ctx a n s v) (hw : SameRecords w v) : ChargedFor ctx a n s w := by
  have hin : ∀ b, Energy.inbound w.energy b = Energy.inbound v.energy b := by
    intro b
    unfold Energy.inbound live
    rw [hw.delegations]
  refine ⟨(hw.energyAccount a).trans h.account,h.enough,?_,?_,?_⟩
  · intro b hb
    exact (hw.energyAccount b).trans (h.others b hb)
  · intro b
    exact (hin b).trans (h.inbound b)
  · intro e he hne
    rw [hw.getDelegation] at hne
    obtain ⟨hdee,hsooner⟩ := h.soonest e he hne
    refine ⟨hdee,?_⟩
    intro d
    rw [hw.getDelegation]
    exact hsooner d

theorem ChargedFor.nothing (a : A)
    (hoff : s.energy.params.energyEnabled = false) : ChargedFor ctx a 0 s s := by
  have hstart : chargedAccount ctx s a = s.energyAccount a := if_neg (by simp [hoff])
  refine ⟨?_,Nat.zero_le _,fun _ _ => rfl,fun _ => by simp,fun e he hne => absurd he hne⟩
  simp [hstart]

theorem mem_candidates_iff (hx : Recorded x) (hindex : InboundIndex x) {d : EnergyDelegation A} :
    d ∈ candidates x a ↔ x.getDelegation d.id = some d ∧ d.delegatee = a ∧ d.used < d.amount := by
  rw [mem_candidates hx]
  constructor
  · rintro ⟨hrow,hget,hlt⟩
    exact ⟨hget,hindex.delegatee hget hrow,hlt⟩
  · rintro ⟨hget,rfl,hlt⟩
    exact ⟨(hindex _).mpr ⟨d.id,d,hget,rfl⟩,hget,hlt⟩

theorem chargeTo_candidates_soonest (hx : Recorded x) (hindex : InboundIndex x)
    {e : EnergyDelegation A} (he : x.getDelegation e.id = some e)
    (hcharged : (chargeTo (candidates x a) n x).getDelegation e.id ≠ some e) :
    e.delegatee = a ∧ ∀ d, x.getDelegation d.id = some d → d.delegatee = a → soonerFirst d e →
      d.id ≠ e.id →
      (chargeTo (candidates x a) n x).getDelegation d.id = some { d with used := d.amount } := by
  obtain ⟨hmem,hsooner⟩ := chargeTo_soonest (chargeable_candidates hx a) (sorted_candidates x a)
    he hcharged
  refine ⟨((mem_candidates_iff hx hindex).mp hmem).2.1,?_⟩
  intro d hd hdee hde hne
  by_cases hlt : d.used < d.amount
  · exact hsooner d ((mem_candidates_iff hx hindex).mpr ⟨hd,hdee,hlt⟩) hde hne
  · have hfull : d.amount = d.used := le_antisymm (not_lt.mp hlt) (hx d.id d hd).2
    have hout : d.id ∉ (candidates x a).map EnergyDelegation.id := by
      intro hin
      obtain ⟨c,hc,hid⟩ := mem_map.mp hin
      obtain ⟨hget,_,hroom⟩ := (mem_candidates_iff hx hindex).mp hc
      rw [hid,hd] at hget
      cases hget
      exact hlt hroom
    rw [getDelegation_chargeTo_of_not_mem hout,hd]
    exact congrArg (fun u => some { d with used := u }) hfull.symm

theorem inbound_chargeTo (hx : Recorded x) (hindex : InboundIndex x)
    (hroom : (attributeTo (candidates x a) n).remaining = 0) (b : A) :
    inbound (chargeTo (candidates x a) n x) b = inbound x b-(if b = a then (n : Int) else 0) := by
  have hmem := fun d => (mem_candidates_iff hx hindex (a := a) (d := d)).mp
  have hrech := attributeTo_recharge (fun d => d.delegatee = a) (candidates x a) n
    (fun d hd => (hmem d hd).1) (fun d hd => (hmem d hd).2.1)
    (fun d hd => (hmem d hd).2.2.le) (nodup_candidates hx a)
  rw [hroom] at hrech
  refine (hrech.inbound hx b).trans ?_
  split <;> simp [sub_eq_add_neg]

theorem chargedFor_chargedState (hrec : Recorded s.energy) (hindex : InboundIndex s.energy)
    (hon : s.energy.params.energyEnabled = true)
    (hroom : (attributeTo (candidates s.energy a)
      (draw (settledAccount ctx s a) n false).delegated).remaining = 0)
    (hn : n ≤ (settledAccount ctx s a).txEnergyAccrued-(settledAccount ctx s a).delegatedOut+
      (settledAccount ctx s a).delegatedInUsable) :
    ChargedFor ctx a n s (chargedState ctx a (draw (settledAccount ctx s a) n false) s) := by
  have hreb := settle_rebalanced ctx a s
  have hcand := candidates_settle ctx a s
  have hrec1 := hreb.recorded hrec
  have hindex1 : InboundIndex (settle ctx a s).energy := by
    unfold InboundIndex
    rw [hreb.frame]
    exact hindex
  have hstart : chargedAccount ctx s a = settledAccount ctx s a := if_pos hon
  have hdel : (draw (settledAccount ctx s a) n false).delegated =
      n-((settledAccount ctx s a).txEnergyAccrued-(settledAccount ctx s a).delegatedOut) := by
    simp only [draw,Bool.false_eq_true,if_false]
    omega
  obtain ⟨_,haccounts,hdelegations⟩ :=
    chargedState_frame ctx a (draw (settledAccount ctx s a) n false) s
  have hget : ∀ id, (chargedState ctx a (draw (settledAccount ctx s a) n false)
      s).energy.getDelegation id = (chargeTo (candidates s.energy a)
        (draw (settledAccount ctx s a) n false).delegated (settle ctx a s).energy).getDelegation
          id := fun _ => rfl
  refine ⟨?_,by rw [hstart]; exact hn,?_,?_,?_⟩
  · rw [chargedState_energyAccount,hstart]
    unfold Draw.applied
    rw [hdel]
    rfl
  · intro b hb
    unfold State.energyAccount EnergyStore.getEnergyAccount
    rw [haccounts,Store.get_set_of_ne _ _ hb]
    exact (energyAccount_settle ctx a b s).trans (if_neg hb)
  · intro b
    have hin := inbound_chargeTo hrec1 hindex1 (hcand.symm ▸ hroom) b
    have hlive : inbound (settle ctx a s).energy b = inbound s.energy b := hreb.live _
    rw [hlive,hcand] at hin
    rw [hstart,← hdel]
    exact hin
  · intro e he hne
    rw [← hreb.getDelegation] at he
    rw [hget,← hcand] at hne
    obtain ⟨hdee,hsooner⟩ := chargeTo_candidates_soonest hrec1 hindex1 he hne
    refine ⟨hdee,?_⟩
    intro d hd
    rw [← hreb.getDelegation] at hd
    rw [hget,← hcand]
    exact hsooner d hd

theorem postHandle_records {tx : Tx A} (a : A) (priority : Int)
    {gasUsed : Nat} (hpaid : r.free = false) (hless : gasUsed < tx.gas) (s : State A) :
    SameRecords (postHandle tx ⟨r,a,priority⟩ gasUsed s)
      (refundEnergy a (r.energyDeducted-min r.energyDeducted gasUsed) r s) := by
  have hrefund : postRefund tx ⟨r,a,priority⟩ gasUsed =
      r.energyDeducted-min r.energyDeducted gasUsed := by
    unfold postRefund
    rw [if_neg (by simp [hpaid]; omega)]
  unfold postHandle
  rw [hrefund]
  apply SameRecords.deletePendingReservation
  split
  · rename_i hzero
    rw [hzero]
    unfold refundEnergy
    rw [if_pos (Nat.zero_min _)]
    exact .refl s
  · exact .refl _

theorem consume_modes {isDeploy : Bool} {urls : List String} {t : State A}
    (hok : consume ctx a gas isDeploy urls s = .ok r t) :
    r.free = true ∧ r.energyDeducted = 0 ∨
      s.energy.params.energyEnabled = false ∧ r.energyDeducted = 0 ∧ t = s ∨
      allSubsidized s.energy.params urls = false ∧ s.energy.params.energyEnabled = true := by
  cases hsub : allSubsidized s.energy.params urls with
  | true =>
    rw [consume_subsidized hsub] at hok
    cases hok
    exact .inl ⟨rfl,rfl⟩
  | false =>
    cases hon : s.energy.params.energyEnabled with
    | false =>
      rw [consume_disabled hsub hon] at hok
      cases hok
      exact .inr (.inl ⟨rfl,rfl,rfl⟩)
    | true => exact .inr (.inr ⟨rfl,rfl⟩)

/-- While the books agree, a charge of `gas` whose unused part goes back is, for the
records, the charge of what was used. A transaction between whose charge and refund no
record changes so pays for the gas it used, as far as its energy went. -/
theorem unused_energy_returned {env : Env A} {ctx : Ctx A} {signer : A} {gas : Nat}
    {urls : List String} {s t : State A} {r : ConsumeResult} (hbooks : Consistent env s)
    (hindex : InboundIndex s.energy) (hgas : gas ≤ maxU64)
    (hword : (s.energyAccount signer).delegatedInUsable ≤ maxU64)
    (hcap : (settledAccount ctx s signer).txEnergyAccrued ≤
      txEnergyCapacity (settledAccount ctx s signer).lastBalanceSnapshot s.energy.params)
    (hok : consume ctx signer gas false urls s = .ok r t) :
    (∀ e, 1 ≤ e → e ≤ r.energyDeducted → ∃ r' t', consume ctx signer e false urls s = .ok r' t' ∧
        SameRecords (refundEnergy signer (r.energyDeducted-e) r t) t') ∧
      ∀ (tx : Tx A) (priority : Int) (gasUsed : Nat) (u : State A), tx.gas = gas → 0 < gasUsed →
        gasUsed < gas → r.free = false → SameRecords u t →
        ChargedFor ctx signer (min r.energyDeducted gasUsed) s
          (postHandle tx ⟨r,signer,priority⟩ gasUsed u) := by
  have hrec := hbooks.recorded
  have hin := hbooks.inboundBooks hindex
  have hword1 : (settledAccount ctx s signer).delegatedInUsable ≤ maxU64 := by
    rw [(settledAccount_refilled ctx s signer).inUsable]
    exact hword
  have hroom := fun n => hin.room ctx signer (draw_delegated_le _ n false)
  constructor
  · intro e he hle
    rcases consume_modes hok with ⟨_,hzero⟩ | ⟨_,hzero,_⟩ | ⟨hsub,hon⟩
    · omega
    · omega
    · have hgas0 : gas ≠ 0 := by
        rintro rfl
        rw [consume_zero hsub hon rfl] at hok
        cases hok
        exact absurd he (Nat.not_le.mpr (Nat.lt_of_le_of_lt hle Nat.zero_lt_one))
      rw [consume_charged hsub hon hgas0 (hroom gas)] at hok
      cases hok
      refine ⟨_,_,consume_charged hsub hon (by omega) (hroom e),?_⟩
      exact refund_chargedState hrec hgas hcap hword1 rfl (hroom gas) hle
  · intro tx priority gasUsed u htx hpos hless hpaid hu
    have hgasUsed : gasUsed < tx.gas := htx.symm ▸ hless
    have hpost := (postHandle_records signer priority hpaid hgasUsed u).trans
        (hu.refundEnergy signer _ r)
    rcases consume_modes hok with ⟨hfree,_⟩ | ⟨hoff,hzero,rfl⟩ | ⟨hsub,hon⟩
    · rw [hpaid] at hfree
      cases hfree
    · have hnone : refundEnergy signer (r.energyDeducted-min r.energyDeducted gasUsed) r t =
          t := by
        rw [hzero,Nat.zero_sub]
        exact if_pos (Nat.zero_min _)
      rw [hnone] at hpost
      rw [hzero,Nat.zero_min]
      exact (ChargedFor.nothing signer hoff).congr hpost
    · rw [consume_charged hsub hon (by omega) (hroom gas)] at hok
      cases hok
      have hown := draw_own_le (settledAccount ctx s signer) gas false
      have hdel := draw_delegated_le (settledAccount ctx s signer) gas false
      have hle := Nat.min_le_left ((draw (settledAccount ctx s signer) gas false).own+
        (draw (settledAccount ctx s signer) gas false).delegated) gasUsed
      have hsame := refund_chargedState hrec hgas hcap hword1 rfl (hroom gas) hle
      exact (chargedFor_chargedState hrec hindex hon (hroom _)
        (hle.trans (add_le_add hown hdel))).congr (hpost.trans hsame)

/-- Of 50000 borrowed units, 40000 are used. -/
theorem unused_energy_returned_twoLoans :
    ∃ r t r' t', consume sampleCtxNext 12 70000 false [] (Op.run sampleEnv twoLoans sampleState) =
        .ok r t ∧ r.energyDeducted = 50000 ∧
      consume sampleCtxNext 12 40000 false [] (Op.run sampleEnv twoLoans sampleState) =
        .ok r' t' ∧
      SameRecords (refundEnergy 12 10000 r t) t' ∧
      ChargedFor sampleCtxNext 12 40000 (Op.run sampleEnv twoLoans sampleState)
        (postHandle ⟨70000,Coins.empty,some 12,none,[],none⟩ ⟨r,12,0⟩ 40000 t) := by
  obtain ⟨log,hbooks⟩ := twoLoans_ledgered
  have hok : consume sampleCtxNext 12 70000 false [] (Op.run sampleEnv twoLoans sampleState) =
      .ok _ _ := consume_charged rfl (by decide +kernel) (by decide)
    ((hbooks.consistent.inboundBooks hbooks.indexed).room sampleCtxNext 12
      (draw_delegated_le _ _ _))
  have hdeducted : (draw (settledAccount sampleCtxNext (Op.run sampleEnv twoLoans sampleState) 12)
      70000 false).own+(draw (settledAccount sampleCtxNext
        (Op.run sampleEnv twoLoans sampleState) 12) 70000 false).delegated = 50000 := by
    decide +kernel
  obtain ⟨hunused,htx⟩ := unused_energy_returned hbooks.consistent hbooks.indexed
    (by decide) (by decide +kernel) (by decide +kernel) hok
  obtain ⟨r',t',hless,hsame⟩ := hunused 40000 (by decide) (by
    simp only [Draw.result]
    omega)
  have hcharged := htx ⟨70000,Coins.empty,some 12,none,[],none⟩ 0 40000 _ rfl (by decide)
    (by decide) rfl (.refl _)
  simp only [Draw.result] at hcharged hsame hok ⊢
  rw [hdeducted] at hcharged hsame
  exact ⟨_,_,r',t',hok,hdeducted,hless,hsame,hcharged⟩

end Atoshi.Energy
