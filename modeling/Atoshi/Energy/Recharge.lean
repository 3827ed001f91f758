import Atoshi.Energy.Consume
import Atoshi.Lib.Index

namespace Atoshi.Energy
open Exec List

/-! Spending and refunding borrowed energy change the `used` fields of delegation
records and nothing else. -/

variable {A : Type}

def EnergyDelegation.remaining (d : EnergyDelegation A) : Nat := d.amount-d.used

theorem attributeTo_remaining (l : List (EnergyDelegation A)) (n : Nat) :
    (attributeTo l n).remaining = n-(l.map EnergyDelegation.remaining).sum := by
  induction l generalizing n with
  | nil => simp [attributeTo]
  | cons d rest ih =>
    simp only [attributeTo]
    by_cases hn : n = 0
    · simp [hn]
    · rw [if_neg hn]
      simp only [ih,map_cons,sum_cons,EnergyDelegation.remaining]
      omega

theorem mem_attribution {l : List (EnergyDelegation A)} {n : Nat} {c : DelegationConsumption}
    (h : c ∈ (attributeTo l n).attribution) : ∃ d ∈ l, d.id = c.delegationID := by
  induction l generalizing n with
  | nil => simp [attributeTo] at h
  | cons d rest ih =>
    simp only [attributeTo] at h
    split at h
    · cases h
    · rcases mem_cons.mp h with rfl | hrest
      · exact ⟨d,mem_cons_self,rfl⟩
      · obtain ⟨e,he,hid⟩ := ih hrest
        exact ⟨e,mem_cons_of_mem d he,hid⟩

theorem sum_attribution (l : List (EnergyDelegation A)) (n : Nat) :
    ((attributeTo l n).attribution.map DelegationConsumption.amount).sum+
      (attributeTo l n).remaining = n := by
  induction l generalizing n with
  | nil => simp [attributeTo]
  | cons d rest ih =>
    simp only [attributeTo]
    by_cases hn : n = 0
    · simp [hn]
    · have hrest := ih (n-min n (d.amount-d.used))
      rw [if_neg hn]
      simp only [map_cons,sum_cons]
      omega

theorem used_le_of_mem_toUpdate {l : List (EnergyDelegation A)} {n : Nat}
    (hroom : ∀ d ∈ l, d.used ≤ d.amount) :
    ∀ d ∈ (attributeTo l n).toUpdate, d.used ≤ d.amount := by
  induction l generalizing n with
  | nil => simp [attributeTo]
  | cons d rest ih =>
    intro e he
    simp only [attributeTo] at he
    split at he
    · cases he
    · rcases mem_cons.mp he with rfl | hrest
      · have hd := hroom d mem_cons_self
        simp only
        omega
      · exact ih (fun f hf => hroom f (mem_cons_of_mem d hf)) e hrest

variable [LinearOrder A]

def Recorded (x : EnergyStore A) : Prop :=
  ∀ id d, x.getDelegation id = some d → d.id = id ∧ d.used ≤ d.amount

def live (x : EnergyStore A) (f : EnergyDelegation A → Int) : Int :=
  x.delegations.total fun _ d => f d

variable {d : EnergyDelegation A} {f : EnergyDelegation A → Int}

variable {x : EnergyStore A}

theorem live_setDelegation {e : EnergyDelegation A}
    (f : EnergyDelegation A → Int) (hget : x.getDelegation d.id = some e) :
    live (x.setDelegation d) f = live x f+f d-f e := by
  have h := x.delegations.total_set_add_share (fun _ d => f d) d.id d
  rw [Store.share_of_get _ _ hget] at h
  exact eq_sub_of_add_eq h

theorem live_setDelegation_new (f : EnergyDelegation A → Int) (hget : x.getDelegation d.id = none) :
    live (x.setDelegation d) f = live x f+f d := by
  have h := x.delegations.total_set_add_share (fun _ d => f d) d.id d
  rw [Store.share_of_none _ _ hget,add_zero] at h
  exact h

theorem live_setDelegation_le (hf : ∀ id e, x.getDelegation id = some e → 0 ≤ f e) :
    live (x.setDelegation d) f ≤ live x f+f d := by
  cases hget : x.getDelegation d.id with
  | none => exact (live_setDelegation_new f hget).le
  | some e =>
    have he := hf d.id e hget
    rw [live_setDelegation f hget]
    omega

theorem live_removeDelegation
    (f : EnergyDelegation A → Int) (hget : x.getDelegation d.id = some d) :
    live (x.removeDelegation d) f = live x f-f d := by
  have h := x.delegations.total_erase_add_share (fun _ d => f d) d.id
  rw [Store.share_of_get _ _ hget] at h
  exact eq_sub_of_add_eq h

theorem getDelegation_setDelegation (x : EnergyStore A) (d : EnergyDelegation A) (id : Nat) :
    (x.setDelegation d).getDelegation id = if id = d.id then some d else x.getDelegation id :=
  x.delegations.get_set id d.id d

theorem getDelegation_removeDelegation (x : EnergyStore A) (d : EnergyDelegation A) (id : Nat) :
    (x.removeDelegation d).getDelegation id =
      if id = d.id then none else x.getDelegation id :=
  x.delegations.get_erase id d.id

theorem le_live (hf : ∀ id d, x.getDelegation id = some d → 0 ≤ f d) {id : Nat}
    (hget : x.getDelegation id = some d) : f d ≤ live x f := by
  have h := x.delegations.share_le_total (f := fun _ d => f d) id hf
  rw [Store.share_of_get _ _ hget] at h
  exact h

theorem live_le_live {g : EnergyDelegation A → Int} (h : ∀ id d,
    x.getDelegation id = some d → f d ≤ g d) : live x f ≤ live x g :=
  x.delegations.total_le_total h

/-- A run of writes to `used` fields of records in `who`; `n` is the net change of
what remains to be spent. -/
inductive Recharge (who : EnergyDelegation A → Prop) :
    EnergyStore A → Int → EnergyStore A → Prop where
  | refl (x : EnergyStore A) : Recharge who x 0 x
  | step {x y : EnergyStore A} {n : Int} {d : EnergyDelegation A} {u : Nat} :
      x.getDelegation d.id = some d → who d → u ≤ d.amount →
      Recharge who (x.setDelegation { d with used := u }) n y →
      Recharge who x (d.used-u+n) y

namespace Recharge

variable {who : EnergyDelegation A → Prop} {x y : EnergyStore A} {n : Int}

theorem recorded (h : Recharge who x n y) (hx : Recorded x) : Recorded y := by
  induction h with
  | refl x => exact hx
  | @step x y n d u hget _ hu _ ih =>
    apply ih
    intro id e he
    rw [getDelegation_setDelegation] at he
    split at he
    · rename_i hid
      cases he
      exact ⟨hid.symm,hu⟩
    · exact hx id e he

theorem frame (h : Recharge who x n y) : y.params = x.params ∧ y.accounts = x.accounts ∧
      y.nextDelegationID = x.nextDelegationID ∧
      y.pendingReservations = x.pendingReservations := by
  induction h with
  | refl x => exact ⟨rfl,rfl,rfl,rfl⟩
  | step _ _ _ _ ih => exact ih

theorem row (h : Recharge who x n y) (id : Nat) :
    (y.getDelegation id).map (fun d => { d with used := 0 }) =
      (x.getDelegation id).map (fun d => { d with used := 0 }) := by
  induction h with
  | refl x => rfl
  | @step x y n d u hget _ _ _ ih =>
    rw [ih,getDelegation_setDelegation]
    split
    · rename_i hid
      rw [hid,hget]
      rfl
    · rfl

theorem getDelegation (h : Recharge who x n y) {id : Nat} {e : EnergyDelegation A}
    (he : y.getDelegation id = some e) :
    ∃ d, x.getDelegation id = some d ∧ e = { d with used := e.used } := by
  have hrow := h.row id
  rw [he] at hrow
  cases hd : x.getDelegation id with
  | none =>
    rw [hd] at hrow
    cases hrow
  | some d =>
    rw [hd] at hrow
    refine ⟨d,rfl,?_⟩
    have heq := Option.some.inj hrow
    simp only [EnergyDelegation.mk.injEq] at heq
    obtain ⟨h1,h2,h3,h4,h5,h6,h7,_⟩ := heq
    cases e
    cases d
    simp_all

theorem live_eq (h : Recharge who x n y) (f : EnergyDelegation A → Int) (k : Int)
    (hx : Recorded x) (hf : ∀ d u, who d → d.used ≤ d.amount → u ≤ d.amount →
      f { d with used := u }-f d = k*(d.used-u)) :
    live y f = live x f+k*n := by
  induction h with
  | refl x => simp
  | @step x y n d u hget hwho hu hrest ih =>
    have hstep := (Recharge.step hget hwho hu (.refl _)).recorded hx
    have hd := hf d u hwho (hx d.id d hget).2 hu
    rw [ih hstep,live_setDelegation f (d := { d with used := u }) hget]
    linear_combination hd

end Recharge

variable {n : Nat} {a : A} (who : EnergyDelegation A → Prop) {x : EnergyStore A}

theorem attributeTo_recharge (l : List (EnergyDelegation A))
    (n : Nat) (hrow : ∀ d ∈ l, x.getDelegation d.id = some d)
    (hwho : ∀ d ∈ l, who d) (hroom : ∀ d ∈ l, d.used ≤ d.amount)
    (hnodup : (l.map EnergyDelegation.id).Nodup) :
    Recharge who x ((attributeTo l n).remaining-n)
      ((attributeTo l n).toUpdate.foldl EnergyStore.setDelegation x) := by
  induction l generalizing n x with
  | nil =>
    simp only [attributeTo,sub_self,foldl_nil]
    exact .refl x
  | cons d rest ih =>
    simp only [attributeTo]
    by_cases hn : n = 0
    · subst hn
      simp only [if_true,Nat.cast_zero,sub_self,foldl_nil]
      exact .refl x
    · rw [if_neg hn]
      rw [map_cons,nodup_cons] at hnodup
      have hd := hroom d mem_cons_self
      have hrest := ih (n-min n (d.amount-d.used))
        (x := x.setDelegation { d with used := d.used+min n (d.amount-d.used) })
        (fun e he => by
          rw [getDelegation_setDelegation,if_neg]
          · exact hrow e (mem_cons_of_mem d he)
          · intro heq
            exact hnodup.1 (heq ▸ mem_map_of_mem he))
        (fun e he => hwho e (mem_cons_of_mem d he))
        (fun e he => hroom e (mem_cons_of_mem d he)) hnodup.2
      have hstep := Recharge.step (hrow d mem_cons_self) (hwho d mem_cons_self)
        (by omega : d.used+min n (d.amount-d.used) ≤ d.amount) hrest
      convert hstep using 1
      · simp only
        omega
      · rfl

theorem iterateDelegationsByIndex_eq (x : EnergyStore A) (index : Store (A ×ₗ Nat) Unit) (a : A) :
    x.iterateDelegationsByIndex index a = (listedRows index x.delegations a).map Prod.snd := by
  unfold EnergyStore.iterateDelegationsByIndex listedRows listed EnergyStore.getDelegation
  rw [map_filterMap,filterMap_map]
  apply filterMap_congr
  intro j _
  simp

theorem iterateDelegationsByDelegatee_eq (x : EnergyStore A) (a : A) :
    x.iterateDelegationsByDelegatee a =
      (listedRows x.byDelegatee x.delegations a).map Prod.snd :=
  iterateDelegationsByIndex_eq x _ a

theorem mem_candidates (hx : Recorded x) {d : EnergyDelegation A} :
    d ∈ candidates x a ↔ x.byDelegatee.get (toLex (a,d.id)) = some () ∧
      x.getDelegation d.id = some d ∧ d.used < d.amount := by
  unfold candidates
  rw [mem_insertionSort,mem_filter,iterateDelegationsByDelegatee_eq,mem_map]
  constructor
  · rintro ⟨⟨⟨k,e⟩,hmem,rfl⟩,hlt⟩
    obtain ⟨hindex,hget⟩ := mem_listedRows.mp hmem
    have hid : e.id = k := (hx k e hget).1
    subst hid
    exact ⟨hindex,hget,by simpa using hlt⟩
  · rintro ⟨hindex,hget,hlt⟩
    exact ⟨⟨(d.id,d),mem_listedRows.mpr ⟨hindex,hget⟩,rfl⟩,by simpa using hlt⟩

theorem nodup_candidates (hx : Recorded x) (a : A) :
    ((candidates x a).map EnergyDelegation.id).Nodup := by
  unfold candidates
  have hids : (x.iterateDelegationsByDelegatee a).map EnergyDelegation.id =
      (listedRows x.byDelegatee x.delegations a).map Prod.fst := by
    rw [iterateDelegationsByDelegatee_eq,map_map]
    apply map_congr_left
    intro p hp
    exact (hx p.1 p.2 (mem_listedRows.mp hp).2).1
  have hiter : ((x.iterateDelegationsByDelegatee a).map EnergyDelegation.id).Nodup := by
    rw [hids]
    exact nodup_listedRows _ _ _
  rw [((perm_insertionSort _ _).map _).nodup_iff]
  exact hiter.sublist (filter_sublist.map _)

theorem attributeDelegatedConsumption_ok
    {s t : State A} {v : List DelegationConsumption} (hx : Recorded s.energy)
    (hwho : ∀ d, s.energy.getDelegation d.id = some d →
      s.energy.byDelegatee.get (toLex (a,d.id)) = some () → who d)
    (hok : attributeDelegatedConsumption a n s = .ok v t) :
    ∃ y, t = { s with energy := y } ∧ Recharge who s.energy (-n) y ∧
      ∀ c ∈ v, ∃ d, s.energy.getDelegation c.delegationID = some d ∧ who d := by
  unfold attributeDelegatedConsumption at hok
  by_cases hn : n = 0
  · rw [if_pos hn] at hok
    cases hok
    subst hn
    exact ⟨s.energy,rfl,.refl _,by simp⟩
  · rw [if_neg hn,run_get_bind,
      run_modify_bind] at hok
    split at hok
    · cases hok
    · rename_i hrem
      cases hok
      have hmem := fun d => (mem_candidates hx (a := a) (d := d)).mp
      have hrech := attributeTo_recharge who (candidates s.energy a) n
        (fun d hd => (hmem d hd).2.1) (fun d hd => hwho d (hmem d hd).2.1 (hmem d hd).1)
        (fun d hd => (hmem d hd).2.2.le) (nodup_candidates hx a)
      rw [Nat.le_zero.mp (not_lt.mp hrem),Nat.cast_zero,zero_sub] at hrech
      refine ⟨_,rfl,hrech,?_⟩
      intro c hc
      obtain ⟨d,hd,hid⟩ := mem_attribution hc
      obtain ⟨hindex,hget,_⟩ := hmem d hd
      exact ⟨d,hid ▸ hget,hwho d hget hindex⟩

theorem attributeDelegatedConsumption_error {s t : State A} {e : Err}
    (herr : attributeDelegatedConsumption a n s = .error e t) :
    0 < (attributeTo (candidates s.energy a) n).remaining := by
  unfold attributeDelegatedConsumption at herr
  split at herr
  · cases herr
  · rw [run_get_bind,
      run_modify_bind] at herr
    split at herr
    · assumption
    · cases herr

theorem undoDelegated_recharge {who : EnergyDelegation A → Prop}
    (hcongr : ∀ d u, who d → who { d with used := u }) (target : Nat)
    (l : List DelegationConsumption) (done : Nat) (hx : Recorded x)
    (hwho : ∀ c ∈ l, ∀ d, x.getDelegation c.delegationID = some d → who d) :
    Recharge who x ((undoDelegated target l done x).2-done) (undoDelegated target l done x).1 := by
  induction l generalizing done x with
  | nil =>
    simp only [undoDelegated,sub_self]
    exact .refl x
  | cons c rest ih =>
    have htail := fun e he => hwho e (mem_cons_of_mem c he)
    simp only [undoDelegated]
    by_cases hdone : target ≤ done
    · rw [if_pos hdone]
      simp only [sub_self]
      exact .refl x
    · rw [if_neg hdone]
      cases hget : x.getDelegation c.delegationID with
      | none => exact ih done hx htail
      | some d =>
        obtain ⟨hid,hused⟩ := hx _ _ hget
        rw [← hid] at hget
        simp only
        generalize hk : min (min (target-done) c.amount) d.used = k
        by_cases hzero : k = 0
        · rw [if_pos hzero]
          exact ih done hx htail
        · rw [if_neg hzero]
          have hd := hwho c mem_cons_self d (hid ▸ hget)
          have hone := Recharge.step hget hd (by omega : d.used-k ≤ d.amount) (.refl _)
          have hrest := ih (done+k) (hone.recorded hx) (by
            intro e he f hf
            rw [getDelegation_setDelegation] at hf
            split at hf
            · cases hf
              exact hcongr d _ hd
            · exact htail e he f hf)
          have hstep := Recharge.step hget hd (by omega : d.used-k ≤ d.amount) hrest
          convert hstep using 1
          omega

end Atoshi.Energy
