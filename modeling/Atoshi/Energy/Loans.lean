import Atoshi.Energy.Ledger
import Mathlib.Data.List.TakeWhile

namespace Atoshi.Energy

/-! The delegation records with their three indexes, and what each call does to them. -/

variable {A : Type} [LinearOrder A]

/-- The records and their index rows belong together, ids are below the counter, and
every expiry is a nonnegative `int64`, so that the byte order of the rows is the order of
time. -/
structure Loans (x : EnergyStore A) : Prop where
  recorded : Recorded x
  byExpiry : Indexes (fun id (d : EnergyDelegation A) => toLex (toUint64 d.expiresAt,id))
    x.byExpiry x.delegations
  byDelegator : Indexes (fun id (d : EnergyDelegation A) => toLex (d.delegator,id))
    x.byDelegator x.delegations
  byDelegatee : InboundIndex x
  fresh : ∀ id d, x.getDelegation id = some d → id < x.nextDelegationID
  timely : ∀ id d, x.getDelegation id = some d → 0 ≤ d.expiresAt ∧ d.expiresAt < 2^63

def shelf (d : EnergyDelegation A) : EnergyDelegation A := { d with used := 0 }

structure Kept (x y : EnergyStore A) : Prop where
  loans : Loans y
  next : y.nextDelegationID = x.nextDelegationID
  row : ∀ id, (y.getDelegation id).map shelf = (x.getDelegation id).map shelf

theorem mem_takeWhile_of_sorted {B : Type} {p : B → Prop} [DecidablePred p] {l : List B}
    (hsorted : l.Pairwise fun a b => p b → p a) {b : B} (hmem : b ∈ l) (hb : p b) :
    b ∈ l.takeWhile fun a => p a := by
  induction l with
  | nil => cases hmem
  | cons a rest ih =>
    obtain ⟨ha,hrest⟩ := List.pairwise_cons.mp hsorted
    rcases List.mem_cons.mp hmem with rfl | hmem
    · simp [hb]
    · rw [List.takeWhile_cons,if_pos (by simpa using ha b hmem hb)]
      exact List.mem_cons_of_mem a (ih hrest hmem)

namespace Loans

variable {x : EnergyStore A}

theorem congr (h : Loans x) (accounts : Store A EnergyAccount) (p : Params)
    (pending : Store Nat (PendingReservation A)) :
    Loans { x with accounts := accounts, params := p, pendingReservations := pending } :=
  ⟨h.recorded,h.byExpiry,h.byDelegator,h.byDelegatee,h.fresh,h.timely⟩

theorem of_empty (h : x.delegations = Store.empty) (hexpiry : x.byExpiry = Store.empty)
    (hdelegator : x.byDelegator = Store.empty) (hdelegatee : x.byDelegatee = Store.empty) :
    Loans x := by
  have hnone : ∀ id d, x.getDelegation id ≠ some d := by
    intro id d hd
    unfold EnergyStore.getDelegation at hd
    rw [h] at hd
    cases hd
  refine ⟨fun id d hd => absurd hd (hnone id d),?_,?_,?_,fun id d hd => absurd hd (hnone id d),
    fun id d hd => absurd hd (hnone id d)⟩
  · rw [h,hexpiry]
    exact Indexes.empty
  · rw [h,hdelegator]
    exact Indexes.empty
  · unfold InboundIndex
    rw [h,hdelegatee]
    exact Indexes.empty

theorem set (h : Loans x) {d : EnergyDelegation A}
    (hold : ∀ w, x.getDelegation d.id = some w → shelf w = shelf d) (hused : d.used ≤ d.amount)
    (hid : d.id < x.nextDelegationID) (htimely : 0 ≤ d.expiresAt ∧ d.expiresAt < 2^63) :
    Loans (x.setDelegation d) := by
  have hfields : ∀ w, x.delegations.get d.id = some w →
      w.expiresAt = d.expiresAt ∧ w.delegator = d.delegator ∧ w.delegatee = d.delegatee := by
    intro w hw
    have hshelf := hold w hw
    simp only [shelf,EnergyDelegation.mk.injEq] at hshelf
    exact ⟨hshelf.2.2.2.2.2.2.1,hshelf.2.1,hshelf.2.2.1⟩
  refine ⟨?_,?_,?_,?_,?_,?_⟩
  · intro id e he
    rw [getDelegation_setDelegation] at he
    split at he
    · rename_i heq
      cases he
      exact ⟨heq.symm,hused⟩
    · exact h.recorded id e he
  · exact h.byExpiry.set (k := d.id) fun w hw => by rw [(hfields w hw).1]
  · exact h.byDelegator.set (k := d.id) fun w hw => by rw [(hfields w hw).2.1]
  · exact Indexes.set h.byDelegatee (k := d.id) fun w hw => by rw [(hfields w hw).2.2]
  · intro id e he
    rw [getDelegation_setDelegation] at he
    split at he
    · rename_i heq
      rw [heq]
      exact hid
    · exact h.fresh id e he
  · intro id e he
    rw [getDelegation_setDelegation] at he
    split at he
    · cases he
      exact htimely
    · exact h.timely id e he

theorem remove (h : Loans x) {d : EnergyDelegation A} (hd : x.getDelegation d.id = some d) :
    Loans (x.removeDelegation d) := by
  have hsub : ∀ id e, (x.removeDelegation d).getDelegation id = some e →
      x.getDelegation id = some e := by
    intro id e he
    rw [getDelegation_removeDelegation] at he
    split at he
    · cases he
    · exact he
  have hold : ∀ w, x.delegations.get d.id = some w → w = d :=
    fun w hw => Option.some.inj (hw.symm.trans hd)
  refine ⟨fun id e he => h.recorded id e (hsub id e he),?_,?_,?_,
    fun id e he => h.fresh id e (hsub id e he),fun id e he => h.timely id e (hsub id e he)⟩
  · exact h.byExpiry.erase (k := d.id) (fun w hw => by rw [hold w hw]) fun i w hkey =>
      (Prod.ext_iff.mp (toLex.injective hkey)).2
  · exact h.byDelegator.erase (k := d.id) (fun w hw => by rw [hold w hw]) fun i w hkey =>
      (Prod.ext_iff.mp (toLex.injective hkey)).2
  · exact Indexes.erase h.byDelegatee (k := d.id) (fun w hw => by rw [hold w hw]) fun i w hkey =>
      (Prod.ext_iff.mp (toLex.injective hkey)).2

theorem mem_expiredIds (h : Loans x) {now : Int} {id : Nat} :
    id ∈ expiredIds now x ↔ ∃ d, x.getDelegation id = some d ∧ d.expiresAt ≤ now := by
  have hkey : ∀ k ∈ x.byExpiry.keys, ∃ d, x.getDelegation (ofLex k).2 = some d ∧
      0 ≤ d.expiresAt ∧ toInt64 (ofLex k).1 = d.expiresAt ∧
      k = toLex (d.expiresAt.toNat,(ofLex k).2) := by
    intro k hk
    obtain ⟨_,hrow⟩ := x.byExpiry.mem_keys_iff.mp hk
    obtain ⟨i,d,hd,rfl⟩ := (h.byExpiry k).mp hrow
    obtain ⟨h0,hlt⟩ := h.timely i d hd
    have hword : toUint64 d.expiresAt = d.expiresAt.toNat := by
      unfold toUint64
      omega
    refine ⟨d,hd,h0,?_,?_⟩
    · simp only [ofLex_toLex,hword]
      unfold toInt64
      omega
    · simp only [ofLex_toLex,hword]
  have hsorted : x.byExpiry.keys.Pairwise fun j k =>
      toInt64 (ofLex k).1 ≤ now → toInt64 (ofLex j).1 ≤ now := by
    refine x.byExpiry.ascending_keys.imp_of_mem ?_
    intro j k hj hk hlt hnow
    obtain ⟨d,_,hd0,hdtime,hdkey⟩ := hkey j hj
    obtain ⟨e,_,he0,hetime,hekey⟩ := hkey k hk
    rw [hdkey,hekey,Prod.Lex.lt_iff] at hlt
    rw [hetime] at hnow
    rw [hdtime]
    simp only [ofLex_toLex] at hlt
    omega
  unfold expiredIds
  rw [List.mem_map]
  constructor
  · rintro ⟨k,hk,rfl⟩
    obtain ⟨d,hd,_,htime,_⟩ := hkey k (List.takeWhile_sublist _ |>.subset hk)
    have hnow := List.mem_takeWhile_imp hk
    refine ⟨d,hd,?_⟩
    rw [← htime]
    simpa using hnow
  · rintro ⟨d,hd,hnow⟩
    have hrow := (h.byExpiry _).mpr ⟨id,d,hd,rfl⟩
    have hmem := x.byExpiry.mem_keys_iff.mpr ⟨(),hrow⟩
    refine ⟨_,mem_takeWhile_of_sorted hsorted hmem ?_,rfl⟩
    obtain ⟨e,he,_,htime,_⟩ := hkey _ hmem
    have hde : some d = some e := hd.symm.trans he
    cases hde
    rw [htime]
    exact hnow

end Loans

namespace Kept

variable {x y z : EnergyStore A}

theorem refl (h : Loans x) : Kept x x := ⟨h,rfl,fun _ => rfl⟩

theorem trans (h : Kept x y) (k : Kept y z) : Kept x z :=
  ⟨k.loans,k.next.trans h.next,fun id => (k.row id).trans (h.row id)⟩

theorem congr (h : Kept x y) (accounts : Store A EnergyAccount) (p : Params)
    (pending : Store Nat (PendingReservation A)) :
    Kept x { y with accounts := accounts, params := p, pendingReservations := pending } :=
  ⟨h.loans.congr accounts p pending,h.next,h.row⟩

theorem of_later (h : Kept x y) {id : Nat} {e : EnergyDelegation A}
    (he : y.getDelegation id = some e) : ∃ d, x.getDelegation id = some d ∧ shelf d = shelf e := by
  have hrow := h.row id
  rw [he] at hrow
  obtain ⟨d,hd,hshelf⟩ := Option.map_eq_some_iff.mp hrow.symm
  exact ⟨d,hd,hshelf⟩

theorem of_earlier (h : Kept x y) {id : Nat} {d : EnergyDelegation A}
    (hd : x.getDelegation id = some d) : ∃ e, y.getDelegation id = some e ∧ shelf e = shelf d := by
  have hrow := h.row id
  rw [hd] at hrow
  obtain ⟨e,he,hshelf⟩ := Option.map_eq_some_iff.mp hrow
  exact ⟨e,he,hshelf⟩

theorem recharge {who : EnergyDelegation A → Prop} {n : Int} (h : Loans x)
    (hr : Recharge who x n y) : Kept x y := by
  refine ⟨?_,hr.frame.2.2.1,hr.row⟩
  induction hr with
  | refl x => exact h
  | @step x y n d u hget _ hu _ ih =>
    refine ih (h.set ?_ hu (h.fresh d.id d hget) (h.timely d.id d hget))
    intro w hw
    have hwd : some w = some d := hw.symm.trans hget
    cases hwd
    rfl

theorem rebalanced {now : Int} (h : Loans x) (hr : Rebalanced now x y) : Kept x y := by
  rw [hr.frame]
  exact (refl h).congr _ _ _

theorem consume {ctx : Ctx A} {signer : A} {gas : Nat} {isDeploy : Bool} {urls : List String}
    {s t : State A} {r : ConsumeResult} (h : Loans s.energy)
    (hok : consume ctx signer gas isDeploy urls s = .ok r t) : Kept s.energy t.energy := by
  obtain ⟨_,_,⟨rfl,_⟩ | ⟨y,hspent⟩⟩ := consume_ok (fun _ => True) h.recorded
    (fun _ _ _ => trivial) hok
  · exact .refl h
  · have hsettle := rebalanced h (settle_rebalanced ctx signer s)
    rw [hspent.state]
    exact ((hsettle.trans (recharge hsettle.loans hspent.recharge)).congr _ _ _)

theorem refundEnergy (signer : A) (amount : Nat) (res : ConsumeResult) {s : State A}
    (h : Loans s.energy) : Kept s.energy (refundEnergy signer amount res s).energy := by
  unfold Energy.refundEnergy
  split
  · exact .refl h
  · exact (recharge h (undone_recharge (fun _ => True) (fun _ _ _ => trivial) amount res
      h.recorded fun _ _ _ _ => trivial)).congr _ _ _

theorem deletePendingReservation (hash : Option Nat) {s t : State A}
    (h : Kept s.energy t.energy) :
    Kept s.energy (deletePendingReservation hash t).energy := by
  cases hash with
  | none => exact h
  | some k => exact h.congr _ _ _

theorem setPendingReservation (hash : Option Nat) (signer : A) (gas : Nat) (res : ConsumeResult)
    {s : State A} (h : Loans s.energy) :
    Kept s.energy (setPendingReservation hash signer gas res s).energy := by
  cases hash with
  | none => exact .refl h
  | some k => exact (refl h).congr _ _ _

theorem refundFailedTxReservations {s : State A} (h : Loans s.energy) :
    Kept s.energy (refundFailedTxReservations s).energy := by
  refine refundFailedTxReservations_invariant (I := fun u => Kept s.energy u.energy) ?_ ?_
    (refl h)
  · intro u _ p hu _
    exact hu.trans (refundEnergy _ _ _ hu.loans)
  · intro u id hu
    exact deletePendingReservation (some id) hu

end Kept

end Atoshi.Energy
