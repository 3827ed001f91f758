import Atoshi.Erc20.Precompile
import Atoshi.Evm.FailedCall

namespace Atoshi.Erc20
open Exec Coins Evm.Precompile

/-! What the grants allow, compared with the allowances of an ERC-20 token. -/

open Authz

variable {A : Type}

abbrev Allowances (A : Type) := A → A → Denom → Int

variable [LinearOrder A]

def Allowances.set (m : Allowances A) (owner spender : A) (d : Denom) (x : Int) : Allowances A :=
  fun o p e => if o = owner ∧ p = spender ∧ e = d then x else m o p e

namespace Allowances

variable {m : Allowances A} {owner spender o p : A} {d e : Denom} {x : Int}

@[simp] theorem set_self : m.set owner spender d x owner spender d = x := by simp [set]

theorem set_of_ne (h : ¬(o = owner ∧ p = spender ∧ e = d)) :
    m.set owner spender d x o p e = m o p e := by rw [set,if_neg h]

theorem set_eq_self (h : m owner spender d = x) : m.set owner spender d x = m := by
  funext o p e
  by_cases hk : o = owner ∧ p = spender ∧ e = d
  · obtain ⟨rfl,rfl,rfl⟩ := hk
    rw [set_self,h]
  · exact set_of_ne hk

end Allowances

def limits (gs : Grants A) : Allowances A :=
  fun owner spender d => (limit gs spender owner).amountOf d

theorem limits_empty : limits (Store.empty : Grants A) = fun _ _ _ => 0 := rfl

section Limits

variable {gs : Grants A} {owner spender : A} {d : Denom} {x : Int}

theorem limits_set {a : SendAuthorization A} {e : Option Int}
    (h : ∀ c, a.spendLimit.amountOf c = if c = d then x else limits gs owner spender c) :
    limits (gs.set (grantStoreKey spender owner) ⟨.send a,e⟩) =
      (limits gs).set owner spender d x := by
  funext o p c
  unfold limits at h ⊢
  rw [limit_set]
  by_cases hk : p = spender ∧ o = owner
  · obtain ⟨rfl,rfl⟩ := hk
    rw [if_pos ⟨rfl,rfl⟩,h]
    simp [Allowances.set]
  · rw [if_neg hk,Allowances.set_of_ne (by tauto)]

theorem limits_erase {c : Coins} (hzero : c.isZero = true)
    (h : ∀ e, c.amountOf e = if e = d then x else limits gs owner spender e) :
    limits (gs.erase (grantStoreKey spender owner)) = (limits gs).set owner spender d x := by
  have hnone : ∀ e, c.amountOf e = 0 := by
    intro e
    apply amountOf_of_not_mem
    rw [List.isEmpty_iff.mp hzero]
    exact List.not_mem_nil
  funext o p e
  unfold limits at h ⊢
  rw [limit_erase]
  by_cases hk : p = spender ∧ o = owner
  · obtain ⟨rfl,rfl⟩ := hk
    have he := h e
    rw [hnone] at he
    rw [if_pos ⟨rfl,rfl⟩]
    simpa [Allowances.set] using he
  · rw [if_neg hk,Allowances.set_of_ne (by tauto)]

theorem amountOf_limitLeft {c left : Coins} (hx : 0 < x) (h : c.safeSub (new d x) = some left)
    (e : Denom) : left.amountOf e = if e = d then c.amountOf d-x else c.amountOf e := by
  rw [amountOf_safeSub h,amountOf_new]
  by_cases he : e = d
  · rw [if_pos he,if_pos he,he]
    omega
  · rw [if_neg he,if_neg he,Int.sub_zero]

theorem amountOf_updateOrAddCoin {c : Coins} (hx : 0 < x) (e : Denom) :
    (updateOrAddCoin c d x).amountOf e = if e = d then x else c.amountOf e := by
  unfold updateOrAddCoin
  split
  · rw [amountOf_withAmount]
    by_cases he : e = d
    · rw [if_pos he,if_pos he]
      omega
    · rw [if_neg he,if_neg he]
  · rename_i hmem
    rw [amountOf_add,amountOf_new]
    by_cases he : e = d
    · rw [if_pos he,if_pos he,he,amountOf_of_not_mem hmem]
      omega
    · rw [if_neg he,if_neg he,add_zero]

end Limits

/-- One allowance is set, and all grants are still good up to the horizon. -/
structure Writes (horizon : Int) (gs : Grants A) (owner spender : A) (d : Denom) (x : Int)
    (gs' : Grants A) : Prop where
  live : Live horizon gs'
  limits : limits gs' = (limits gs).set owner spender d x

/-- Started on these grants the call returns with `Q`, or it fails and has written nothing. -/
abbrev Spec {α : Type} (gs : Grants A) (x : Exec Err (Grants A) α)
    (Q : α → Grants A → Prop) : Prop :=
  Triple (fun t => t = gs) x Q fun _ t => t = gs

section Grants

variable {horizon now x : Int} {gs : Grants A} {owner spender : A} {pair : TokenPair A}

theorem saveGrant_spec (g : Grant A) : Spec gs (saveGrant now spender owner g)
      fun _ t => t = gs.set (grantStoreKey spender owner) g := by
  refine Triple.require (fun _ t ht => ht) fun _ => Triple.modify ?_
  rintro t rfl
  rfl

theorem deleteGrant_spec :
    Spec gs (deleteGrant spender owner) fun _ t => t = gs.erase (grantStoreKey spender owner) := by
  refine Triple.get ?_
  rintro t rfl
  refine Triple.require (fun _ t ht => ht) fun _ => Triple.modify ?_
  rintro u rfl
  rfl

theorem createAuthorization_spec (h : Live horizon gs) (hend : horizon ≤ now+approvalExpiration)
    (hne : spender ≠ owner) (hnone : limit gs spender owner = empty) :
    Spec gs (createAuthorization pair now spender owner x) fun _ =>
      Writes horizon gs owner spender pair.denom x := by
  refine Triple.require (fun _ t ht => ht) fun _ => ?_
  refine Triple.require (fun _ t ht => ht) fun hx => ?_
  refine (saveGrant_spec _).post ?_ fun _ _ ht => ht
  rintro _ t rfl
  refine ⟨h.set hne hend _,limits_set fun c => ?_⟩
  rw [amountOf_new,limits,hnone,amountOf_empty,max_eq_left hx.le]

theorem updateAuthorization_spec {e : Int} (h : Live horizon gs) (he : horizon ≤ e)
    (hne : spender ≠ owner) :
    Spec gs
      (updateAuthorization pair now spender owner x ⟨limit gs spender owner,[]⟩ (some e)) fun _ =>
      Writes horizon gs owner spender pair.denom x := by
  refine Triple.require (fun _ t ht => ht) fun hx => ?_
  refine (saveGrant_spec _).post ?_ fun _ _ ht => ht
  rintro _ t rfl
  exact ⟨h.set hne he _,limits_set fun c => amountOf_updateOrAddCoin hx c⟩

theorem removeSpendLimitOrDeleteAuthorization_spec {e : Int} (h : Live horizon gs)
    (he : horizon ≤ e) (hne : spender ≠ owner) :
    Spec gs (removeSpendLimitOrDeleteAuthorization pair now spender owner
      ⟨.send ⟨limit gs spender owner,[]⟩,some e⟩) fun _ =>
      Writes horizon gs owner spender pair.denom 0 := by
  refine Triple.require (fun _ t ht => ht) fun hmem => ?_
  have hpos := amountOf_pos_of_mem hmem
  dsimp only
  cases hsub : (limit gs spender owner).safeSub
      (new pair.denom ((limit gs spender owner).amountOf pair.denom)) with
  | none => exact fun t ht => ht
  | some left =>
    have hleft := amountOf_limitLeft hpos hsub
    simp only [sub_self] at hleft
    dsimp only
    split
    · rename_i hzero
      refine deleteGrant_spec.post ?_ fun _ _ ht => ht
      rintro _ t rfl
      exact ⟨h.erase,limits_erase hzero hleft⟩
    · refine (saveGrant_spec _).post ?_ fun _ _ ht => ht
      rintro _ t rfl
      exact ⟨h.set hne he _,limits_set hleft⟩

theorem approveGrant_spec (h : Live horizon gs) (hend : horizon ≤ now+approvalExpiration)
    (hne : spender ≠ owner) (hx : 0 ≤ x) :
    Spec gs (approveGrant pair now spender owner x (getGrant gs spender owner)) fun _ =>
      Writes horizon gs owner spender pair.denom x := by
  rcases h.getGrant_cases spender owner with ⟨hget,hnone⟩ | ⟨e,he,_,hget⟩
  · rw [hget]
    unfold approveGrant
    dsimp only
    rw [if_neg (not_lt.mpr hx)]
    split
    · exact createAuthorization_spec h hend hne hnone
    · refine Triple.pure ?_
      rintro t rfl
      refine ⟨h,(Allowances.set_eq_self ?_).symm⟩
      rw [limits,hnone,amountOf_empty]
      omega
  · rw [hget]
    unfold approveGrant
    dsimp only
    split
    · rename_i hzero
      obtain rfl : x = 0 := le_antisymm hzero hx
      exact removeSpendLimitOrDeleteAuthorization_spec h he hne
    · exact updateAuthorization_spec h he hne

theorem approve_spec (h : Live horizon gs) (hnow : now < horizon)
    (hend : horizon ≤ now+approvalExpiration) (hx : 0 ≤ x) :
    Spec gs (approve pair now owner spender x) fun logs t =>
      Writes horizon gs owner spender pair.denom x t ∧
        logs = [.approval pair.erc20Address spender x] := by
  refine Triple.require (fun _ t ht => ht) fun hne => Triple.get ?_
  rintro t rfl
  rw [h.getAuthorization hnow]
  refine Triple.bind _ (approveGrant_spec h hend hne hx) fun _ => Triple.pure ?_
  exact fun t ht => ⟨ht,rfl⟩

theorem increaseGrant_spec {e : Int} (h : Live horizon gs) (he : horizon ≤ e)
    (hne : spender ≠ owner) :
    Spec gs (increaseGrant pair now spender owner x ⟨.send ⟨limit gs spender owner,[]⟩,some e⟩)
      fun v t => v = limits gs owner spender pair.denom+x ∧
        Writes horizon gs owner spender pair.denom v t := by
  unfold increaseGrant safeAdd
  dsimp only
  by_cases hfits : (limit gs spender owner).amountOf pair.denom+x < 2^256
  · rw [if_pos hfits]
    dsimp only
    refine Triple.bind _ (updateAuthorization_spec h he hne) fun _ => Triple.pure ?_
    exact fun t ht => ⟨rfl,ht⟩
  · rw [if_neg hfits]
    exact fun t ht => ht

theorem increaseAllowance_spec (h : Live horizon gs) (hnow : now < horizon)
    (hend : horizon ≤ now+approvalExpiration) :
    Spec gs (increaseAllowance pair now owner spender x) fun logs t =>
      Writes horizon gs owner spender pair.denom (limits gs owner spender pair.denom+x) t ∧
        logs = [.approval pair.erc20Address spender (limits gs owner spender pair.denom+x)] := by
  refine Triple.require (fun _ t ht => ht) fun hne => ?_
  refine Triple.require (fun _ t ht => ht) fun _ => Triple.get ?_
  rintro t rfl
  rw [h.getAuthorization hnow]
  rcases h.getGrant_cases spender owner with ⟨hget,hnone⟩ | ⟨e,he,_,hget⟩
  · rw [hget]
    have hzero : limits t owner spender pair.denom = 0 := by
      rw [limits,hnone,amountOf_empty]
    rw [hzero,zero_add]
    refine Triple.bind _ (createAuthorization_spec h hend hne hnone) fun _ =>
      Triple.pure ?_
    exact fun t ht => ⟨ht,rfl⟩
  · rw [hget]
    refine Triple.bind _ (increaseGrant_spec h he hne) fun v => Triple.pure ?_
    rintro t ⟨rfl,ht⟩
    exact ⟨ht,rfl⟩

theorem decreaseGrant_spec {e : Int} (h : Live horizon gs) (he : horizon ≤ e)
    (hne : spender ≠ owner) :
    Spec gs (decreaseGrant pair now spender owner x ⟨.send ⟨limit gs spender owner,[]⟩,some e⟩)
      fun v t => v = limits gs owner spender pair.denom-x ∧
        Writes horizon gs owner spender pair.denom v t := by
  refine Triple.require (fun _ t ht => ht) fun _ => ?_
  refine Triple.require (fun _ t ht => ht) fun _ => ?_
  refine Triple.bind _ (updateAuthorization_spec h he hne) fun _ => Triple.pure ?_
  exact fun t ht => ⟨rfl,ht⟩

theorem Live.allowance_eq (h : Live horizon gs) (hnow : now < horizon) (owner spender : A)
    (d : Denom) :
    (getGrant gs spender owner = none ∧ limits gs owner spender d = 0 ∧
        ∃ e, getAuthzExpirationAndAllowance now gs spender owner d = .error e) ∨
      ∃ e, horizon ≤ e ∧ spender ≠ owner ∧
        getAuthzExpirationAndAllowance now gs spender owner d =
          .ok (⟨.send ⟨limit gs spender owner,[]⟩,some e⟩,limits gs owner spender d) := by
  unfold getAuthzExpirationAndAllowance checkAuthzExists
  rw [h.getAuthorization hnow]
  rcases h.getGrant_cases spender owner with ⟨hget,hnone⟩ | ⟨e,he,hne,hget⟩
  · rw [hget]
    exact .inl ⟨rfl,by rw [limits,hnone,amountOf_empty],_,rfl⟩
  · rw [hget]
    exact .inr ⟨e,he,hne,rfl⟩

theorem decreaseAllowance_spec (h : Live horizon gs) (hnow : now < horizon) :
    Spec gs (decreaseAllowance pair now owner spender x) fun logs t =>
      x ≤ limits gs owner spender pair.denom ∧
        Writes horizon gs owner spender pair.denom (limits gs owner spender pair.denom-x) t ∧
        logs = [.approval pair.erc20Address spender (limits gs owner spender pair.denom-x)] := by
  refine Triple.require (fun _ t ht => ht) fun hne => Triple.get ?_
  rintro t rfl
  refine Triple.require (fun _ t ht => ht) fun _ => ?_
  rcases Live.allowance_eq h hnow owner spender pair.denom with
    ⟨_,_,e,hget⟩ | ⟨e,he,_,hget⟩
  · rw [hget]
    exact fun t ht => ht
  · rw [hget]
    change Spec t (if x < limits t owner spender pair.denom then _ else _) _
    split
    · rename_i hlt
      refine Triple.bind _ (decreaseGrant_spec h he hne) fun v => Triple.pure ?_
      rintro t ⟨rfl,ht⟩
      exact ⟨hlt.le,ht,rfl⟩
    · split
      · rename_i heq
        rw [← heq,sub_self]
        refine Triple.bind _ (removeSpendLimitOrDeleteAuthorization_spec h he hne) fun _ =>
          Triple.pure ?_
        exact fun t ht => ⟨le_refl _,ht,rfl⟩
      · split <;> exact fun t ht => ht

theorem authorize_spec (h : Live horizon gs) (hnow : now < horizon) (hx : 0 < x)
    (owner spender dest : A)
    (d : Denom) :
    Triple (fun t => t = gs) (authorize now spender owner dest (new d x))
      (fun _ t => x ≤ limits gs owner spender d ∧
        Writes horizon gs owner spender d (limits gs owner spender d-x) t)
      (fun _ t => t = gs ∧ limits gs owner spender d < x) := by
  refine Triple.get ?_
  rintro t rfl
  rcases h.getGrant_cases spender owner with ⟨hget,hnone⟩ | ⟨e,he,hne,hget⟩
  · rw [hget]
    rintro u rfl
    refine ⟨rfl,?_⟩
    rwa [limits,hnone,amountOf_empty]
  · rw [hget]
    have hlive : ¬(Grant.mk (.send ⟨limit t spender owner,[]⟩) (some e) : Grant A).Expired now := by
      rintro ⟨c,hc,hlt⟩
      cases hc
      omega
    refine Triple.require (fun hexp => absurd hlive hexp) fun _ => ?_
    cases hsub : (limit t spender owner).safeSub (new d x) with
    | none =>
      rw [Authorization.accept_of_none hsub]
      rintro u rfl
      exact ⟨rfl,(safeSub_new_eq_none hx).mp hsub⟩
    | some left =>
      have hleft := amountOf_limitLeft hx hsub
      have hle : x ≤ limits t owner spender d := by
        by_contra hlt
        rw [(safeSub_new_eq_none hx).mpr (not_le.mp hlt)] at hsub
        cases hsub
      cases hzero : left.isZero with
      | true =>
        rw [Authorization.accept_of_isZero hsub hzero]
        change Triple _ (deleteGrant spender owner) _ _
        rintro u rfl
        rw [deleteGrant_run hget]
        exact ⟨hle,h.erase,limits_erase hzero hleft⟩
      | false =>
        rw [Authorization.accept_of_left hsub hzero]
        change Triple _ (update spender owner (.send ⟨left,[]⟩)) _ _
        rintro u rfl
        rw [update_run hget]
        exact ⟨hle,h.set hne he _,limits_set hleft⟩

end Grants

section Transfer

variable {env : Env A} {ctx : Ctx A} {sendEnabled : Denom → Bool} {pair : TokenPair A}
  {spender src dest : A} {d : Denom} {x : Int} {s t : State A}

def Sent (env : Env A) (ctx : Ctx A) (sendEnabled : Denom → Bool) (src dest : A) (d : Denom)
    (x : Int)
    (s t : State A) : Prop :=
  Atox.Wrapper.send env ctx sendEnabled ⟨.ok src,.ok dest,[(d,x)]⟩ s.chain = .ok () t.chain

/-- Bank's message server takes the send. -/
def Sendable (env : Env A) (ctx : Ctx A) (sendEnabled : Denom → Bool) (src dest : A) (d : Denom)
    (x : Int) (s : State A) : Prop :=
  ((Atox.Wrapper.send env ctx sendEnabled ⟨.ok src,.ok dest,[(d,x)]⟩).returned
    s.chain).isSome = true

variable {e : Err} {isTransferFrom : Bool}

theorem Sent.sendable (h : Sent env ctx sendEnabled src dest d x s t) :
    Sendable env ctx sendEnabled src dest d x s := by
  unfold Sendable returned
  rw [h]
  rfl

theorem bankSend_eq_ok (h : bankSend env ctx sendEnabled ⟨.ok src,.ok dest,[(d,x)]⟩ s = .ok () t) :
    Sent env ctx sendEnabled src dest d x s t ∧ t.grants = s.grants := by
  obtain ⟨c,hc,rfl⟩ := zoom_eq_ok.mp h
  exact ⟨hc,rfl⟩

theorem bankSend_eq_error
    (h : bankSend env ctx sendEnabled ⟨.ok src,.ok dest,[(d,x)]⟩ s = .error e t) :
    t.grants = s.grants ∧ ¬Sendable env ctx sendEnabled src dest d x s := by
  obtain ⟨c,hc,rfl⟩ := zoom_eq_error.mp h
  refine ⟨rfl,?_⟩
  unfold Sendable returned
  rw [hc]
  exact Bool.false_ne_true

theorem dispatchActions_eq_ok (hne : src ≠ spender)
    (h : dispatchActions env ctx sendEnabled spender src dest d x s = .ok () t) :
    Sent env ctx sendEnabled src dest d x s t ∧
      authorize ctx.blockTime spender src dest (new d x) s.grants = .ok () t.grants := by
  obtain ⟨u,hauth,hsend⟩ := whenever_ok h
  obtain ⟨hsent,hgrants⟩ := bankSend_eq_ok (mapError_eq_ok.mp hsend)
  rcases hauth with ⟨_,hauth⟩ | ⟨heq,_⟩
  · obtain ⟨gs,hgs,rfl⟩ := zoom_eq_ok.mp hauth
    exact ⟨hsent,hgrants ▸ hgs⟩
  · exact absurd hne heq

theorem dispatchActions_eq_error (hne : src ≠ spender)
    (h : dispatchActions env ctx sendEnabled spender src dest d x s = .error e t) :
    t.grants = (authorize ctx.blockTime spender src dest (new d x)).after s.grants ∧
      ∀ gs, authorize ctx.blockTime spender src dest (new d x) s.grants = .ok () gs →
        ¬Sendable env ctx sendEnabled src dest d x s := by
  unfold dispatchActions whenever at h
  rw [if_pos hne] at h
  rcases bind_eq_error.mp h with hauth | ⟨_,u,hauth,hsend⟩
  · obtain ⟨gs,hgs,rfl⟩ := zoom_eq_error.mp hauth
    refine ⟨by rw [after_of_error hgs],fun gs' hok => ?_⟩
    rw [hgs] at hok
    cases hok
  · obtain ⟨gs,hgs,rfl⟩ := zoom_eq_ok.mp hauth
    obtain ⟨_,hsend⟩ := mapError_eq_error hsend
    obtain ⟨hgrants,hnot⟩ := bankSend_eq_error hsend
    exact ⟨by rw [after_of_ok hgs,hgrants],fun _ _ => hnot⟩

theorem move_sends {prev : Option Int}
    (h : move env ctx sendEnabled pair spender src dest x s = .ok prev t) :
    Sent env ctx sendEnabled src dest pair.denom x s t := by
  unfold move at h
  split at h
  · obtain ⟨_,u,hsend,hok⟩ := bind_eq_ok.mp h
    cases hok
    exact (bankSend_eq_ok (mapError_eq_ok.mp hsend)).1
  · rename_i hne
    rw [run_get_bind] at h
    obtain ⟨_,_,h⟩ := ofExcept_ok h
    obtain ⟨_,u,hsend,hok⟩ := bind_eq_ok.mp h
    cases hok
    exact (dispatchActions_eq_ok (Ne.symm hne) (mapError_eq_ok.mp hsend)).1

theorem transfer_eq_ok {out : Outcome A}
    (h : transfer env ctx sendEnabled pair spender isTransferFrom src dest x s = .ok out t) :
    0 < x ∧ ∃ prev, move env ctx sendEnabled pair spender src dest x s = .ok prev t ∧
      out = report pair spender isTransferFrom src dest x prev s t := by
  obtain ⟨hx,h⟩ := require_ok h
  rw [run_get_bind] at h
  obtain ⟨prev,u,hmove,hok⟩ := bind_eq_ok.mp h
  cases hok
  exact ⟨hx,prev,hmove,rfl⟩

theorem transfer_eq_error
    (h : transfer env ctx sendEnabled pair spender isTransferFrom src dest x s = .error e t) :
    t = s ∧ ¬0 < x ∨ 0 < x ∧ move env ctx sendEnabled pair spender src dest x s = .error e t := by
  rcases bind_eq_error.mp h with hreq | ⟨_,u,hreq,h⟩
  · rw [run_require] at hreq
    split at hreq
    · cases hreq
    · rename_i hx
      cases hreq
      exact .inl ⟨rfl,hx⟩
  · obtain ⟨hx,rfl⟩ := require_eq_ok hreq
    rw [run_get_bind] at h
    rcases bind_eq_error.mp h with hmove | ⟨_,_,_,hrest⟩
    · exact .inr ⟨hx,hmove⟩
    · cases hrest

theorem move_own : Triple (fun u => u = s) (move env ctx sendEnabled pair src src dest x)
    (fun prev t => prev = none ∧ t.grants = s.grants) fun _ t => t.grants = s.grants := by
  unfold move
  rw [if_pos rfl]
  refine Triple.bind (fun _ t => t.grants = s.grants) ?_ fun _ => Triple.pure fun t ht => ⟨rfl,ht⟩
  rintro u rfl
  cases hrun : mapError convertErrToERC20Error
      (bankSend env ctx sendEnabled ⟨.ok src,.ok dest,[(pair.denom,x)]⟩) u with
  | ok v t => exact (bankSend_eq_ok (mapError_eq_ok.mp hrun)).2
  | error e t =>
    obtain ⟨_,hsend⟩ := mapError_eq_error hrun
    exact (bankSend_eq_error hsend).1

/-- Another's coins are spent out of the allowance. A failed call has left the grants alone if the
allowance does not cover the amount; if it does, the send has failed and the amount is gone. -/
theorem move_grant {horizon : Int} (h : Live horizon s.grants) (hnow : ctx.blockTime < horizon)
    (hx : 0 < x) (hne : spender ≠ src) :
    Triple (fun u => u = s) (move env ctx sendEnabled pair spender src dest x)
      (fun prev t => prev = some (limits s.grants src spender pair.denom) ∧
        x ≤ limits s.grants src spender pair.denom ∧
        Writes horizon s.grants src spender pair.denom
          (limits s.grants src spender pair.denom-x) t.grants)
      fun _ t => t.grants = s.grants ∧ limits s.grants src spender pair.denom < x ∨
        x ≤ limits s.grants src spender pair.denom ∧
          ¬Sendable env ctx sendEnabled src dest pair.denom x s ∧
          Writes horizon s.grants src spender pair.denom
            (limits s.grants src spender pair.denom-x) t.grants := by
  unfold move
  rw [if_neg hne]
  refine Triple.get ?_
  rintro u rfl
  have hauth := authorize_spec h hnow hx src spender dest pair.denom
  rcases Live.allowance_eq h hnow src spender pair.denom with
    ⟨_,hzero,e,hget⟩ | ⟨e,_,_,hget⟩
  · rw [hget]
    rintro v rfl
    exact .inl ⟨rfl,hzero ▸ hx⟩
  · rw [hget]
    change Triple _ (mapError convertErrToERC20Error
      (dispatchActions env ctx sendEnabled spender src dest pair.denom x) >>= fun _ => pure _) _ _
    refine Triple.bind (fun _ t => x ≤ limits u.grants src spender pair.denom ∧
      Writes horizon u.grants src spender pair.denom
        (limits u.grants src spender pair.denom-x) t.grants) ?_ fun _ => Triple.pure fun t ht =>
        ⟨rfl,ht⟩
    rintro v rfl
    cases hrun : mapError convertErrToERC20Error
        (dispatchActions env ctx sendEnabled spender src dest pair.denom x) v with
    | ok _ t =>
      obtain ⟨_,hok⟩ := dispatchActions_eq_ok (Ne.symm hne) (mapError_eq_ok.mp hrun)
      exact hauth.ok rfl hok
    | error _ t =>
      obtain ⟨_,herr⟩ := mapError_eq_error hrun
      obtain ⟨hgrants,hnot⟩ := dispatchActions_eq_error (Ne.symm hne) herr
      cases hgs : authorize ctx.blockTime spender src dest (new pair.denom x) v.grants with
      | ok _ gs =>
        rw [after_of_ok hgs] at hgrants
        obtain ⟨hle,hwrites⟩ := hauth.ok rfl hgs
        exact .inr ⟨hle,hnot gs hgs,hgrants ▸ hwrites⟩
      | error _ gs =>
        rw [after_of_error hgs] at hgrants
        exact .inl ⟨hgrants.trans (hauth.error rfl hgs).1,(hauth.error rfl hgs).2⟩

end Transfer

/-- A call of the precompile of some pair; `caught` if a contract makes it that goes on when
it fails. -/
structure Invocation (A : Type) where
  pair : TokenPair A
  ctx : Ctx A
  sendEnabled : Denom → Bool
  caller : A
  method : Method A
  caught : Bool

namespace Invocation

variable (env : Env A) (c : Invocation A)

def exec : Exec Err (State A) (Outcome A) :=
  handleMethod env c.ctx c.sendEnabled c.pair c.caller c.method

def Succeeds (s : State A) : Prop := ((c.exec env).returned s).isSome

instance (s : State A) : Decidable (c.Succeeds env s) :=
  inferInstanceAs (Decidable (((c.exec env).returned s).isSome = true))

/-- A failed transaction is undone. A failed call inside one keeps what it has written, which
`call_applies` proves of the call frame of the EVM. -/
def apply (s : State A) : State A :=
  if c.caught then (c.exec env).after s else (c.exec env).deliver s

def parties : Option (A × A) :=
  match c.method with
  | .transfer _ _ => none
  | .transferFrom src _ _ => if src = c.caller then none else some (src,c.caller)
  | .approve spender _ => some (c.caller,spender)
  | .increaseAllowance spender _ => some (c.caller,spender)
  | .decreaseAllowance spender _ => some (c.caller,spender)

def becomes (old : Int) : Int :=
  match c.method with
  | .transfer _ _ => old
  | .transferFrom _ _ x => old-amountOf x
  | .approve _ x => amountOf x
  | .increaseAllowance _ x => old+amountOf x
  | .decreaseAllowance _ x => old-amountOf x

def next (m : Allowances A) : Allowances A :=
  match c.parties with
  | none => m
  | some (owner,spender) =>
    m.set owner spender c.pair.denom (c.becomes (m owner spender c.pair.denom))

/-- An ERC-20 token never lets an allowance go below zero. -/
def Permitted (m : Allowances A) : Prop :=
  ∀ k ∈ c.parties, 0 ≤ c.becomes (m k.1 k.2 c.pair.denom)

def expected (s : State A) (m : Allowances A) : Allowances A :=
  if c.Succeeds env s then c.next m else m

/-- The block is not later than the horizon, and what is approved in it lasts at least so long. -/
def Within (horizon : Int) : Prop :=
  c.ctx.blockTime < horizon ∧ horizon ≤ c.ctx.blockTime+approvalExpiration

instance (horizon : Int) : Decidable (c.Within horizon) :=
  inferInstanceAs (Decidable (_ ∧ _))

def Covered (m : Allowances A) : Prop :=
  ∃ src dest x, c.method = .transferFrom src dest x ∧ src ≠ c.caller ∧ 0 < amountOf x ∧
    amountOf x ≤ m src c.caller c.pair.denom

/-- Bank takes what the call spends of another's coins. -/
def Taken (s : State A) : Prop :=
  ∀ src dest x, c.method = .transferFrom src dest x →
    Sendable env c.ctx c.sendEnabled src dest c.pair.denom (amountOf x) s

/-- No contract goes on after a transferFrom that the allowance covers and the bank refuses. -/
def Clean (s : State A) : Prop :=
  c.caught = true →
    c.Covered (fun owner spender _ => allowance c.pair c.ctx.blockTime s.grants owner spender) →
    c.Taken env s

def approvals (m : Allowances A) : List (Log A) :=
  match c.method with
  | .transfer _ _ => []
  | .transferFrom src _ x =>
    [.approval src c.caller
      (if src = c.caller then maxUint256 else m src c.caller c.pair.denom-amountOf x)]
  | .approve spender x => [.approval c.pair.erc20Address spender (amountOf x)]
  | .increaseAllowance spender x =>
    [.approval c.pair.erc20Address spender (m c.caller spender c.pair.denom+amountOf x)]
  | .decreaseAllowance spender x =>
    [.approval c.pair.erc20Address spender (m c.caller spender c.pair.denom-amountOf x)]

end Invocation

section Frame

variable {X : Type} {env : Env A} {ctx : Ctx A} {sendEnabled : Denom → Bool} {pair : TokenPair A}
  {view : Evm.Multistore A X → State A} {put : State A → Evm.Multistore A X → Evm.Multistore A X}
  {methodById : List UInt8 → Option String} {decode : List UInt8 → Option (Method A)}
  {p : Evm.Precompile A X} {c : Evm.Contract A} {db : Evm.StateDB A X}
  {store : Evm.Multistore A X} {setup : Evm.Method} {method : Method A}
  (hp : p = precompile env ctx sendEnabled view put methodById decode pair)
  (hmethod : decode c.input = some method) (hsetup : p.prepare c = .ok setup)

include hp hmethod hsetup

theorem body_eq (hflush : db.commitWithCtx db.multistore = .ok () store) :
    p.body c db db.multistore =
      match (Invocation.mk pair ctx sendEnabled c.caller method true).exec env (view store) with
      | .ok out t => .ok out.entries (put t store)
      | .error e t => .error (.method e.text) (put t store) := by
  unfold body effect
  rw [run_bind_of_ok _ hflush,hsetup]
  change (p.execute setup c >>= _) store = _
  have hexec : p.execute setup c = zoom view put (mapError (fun e => .method e.text)
      ((Invocation.mk pair ctx sendEnabled c.caller method true).exec env)) >>=
        fun out => pure (out.entries,0) := by
    simp only [hp,precompile,hmethod]
    rfl
  rw [hexec]
  cases hrun : (Invocation.mk pair ctx sendEnabled c.caller method true).exec env (view store) with
  | ok out t =>
    have hpair : (zoom view put (mapError (fun e => Evm.EvmErr.method e.text)
        (Invocation.exec env _)) >>= fun out => pure (out.entries,0)) store =
          .ok (out.entries,0) (put t store) :=
      run_bind_of_ok _ (run_zoom_of_ok (mapError_eq_ok.mpr hrun))
    exact (run_bind_of_ok _ hpair).trans (run_require_bind (Nat.zero_le c.gas) _ _ _)
  | error e t =>
    have hzoom : zoom view put (mapError (fun e => Evm.EvmErr.method e.text)
        (Invocation.exec env _)) store = .error (Evm.EvmErr.method e.text) (put t store) :=
      run_zoom_of_error (by rw [mapError,hrun])
    exact run_bind_of_error _ (run_bind_of_error _ hzoom)

/-- A call that a running contract makes, and that the call limit does not refuse, leaves the chain
as the method has left it, whether it returns or fails: the method starts on what the flush of the
EVM's changes has made of the chain. -/
theorem call_applies (hput : ∀ s store, view (put s store) = s) (hvalue : c.value ≤ 0)
    (hflush : (p.enter c db).commitWithCtx db.multistore = .ok () store)
    (hlimit : ∀ t, p.call c db ≠ .error .maxPrecompileCalls t) :
    view ((call p c).after db).multistore =
      (Invocation.mk pair ctx sendEnabled c.caller method true).apply env (view store) := by
  have hstore : (p.enter c db).multistore = db.multistore :=
    (Evm.StateDB.Quiet.enter p c).multistore
  have hbody : p.body c (p.enter c db) (p.enter c db).multistore = _ :=
    body_eq hp hmethod hsetup (hstore ▸ hflush)
  rw [hstore] at hbody
  have hcall : (call p c).after db = (p.call c).after db := by
    unfold after call
    rw [if_neg (by omega)]
  rw [hcall,Invocation.apply,if_pos rfl]
  cases callEnd p c db with
  | stopped hstop hend =>
    rw [after_of_error hend,revert_enter]
    rw [hstop] at hbody
    unfold after
    split at hbody
    · cases hbody
    · rename_i e t hrun
      cases hbody
      rw [hrun,hput]
  | finished hok hend =>
    rw [after_of_ok hend,journaled_multistore]
    rw [hok] at hbody
    unfold after
    split at hbody
    · rename_i out t hrun
      cases hbody
      rw [hrun]
      exact hput t store
    · cases hbody
  | refused _ hend => exact absurd hend (hlimit _)

end Frame

def Log.isApproval : Log A → Bool
  | .approval _ _ _ => true
  | .transfer _ _ _ => false

section Calls

variable {env : Env A} {c : Invocation A} {horizon : Int} {s t : State A} {out : Outcome A}

variable {e : Err} {x : Exec Err (Grants A) (List (Log A))}

theorem logging_eq_ok (h : logging x s = .ok out t) : x s.grants = .ok out.logs t.grants := by
  obtain ⟨logs,u,hx,hok⟩ := bind_eq_ok.mp h
  obtain ⟨gs,hgs,rfl⟩ := zoom_eq_ok.mp hx
  cases hok
  exact hgs

theorem logging_eq_error (h : logging x s = .error e t) : x s.grants = .error e t.grants := by
  rcases bind_eq_error.mp h with hx | ⟨_,_,_,hrest⟩
  · obtain ⟨gs,hgs,rfl⟩ := zoom_eq_error.mp hx
    exact hgs
  · cases hrest

theorem amountOf_nonneg (x : BitVec 256) : 0 ≤ amountOf x := Int.natCast_nonneg _

theorem exec_eq_ok (h : Live horizon s.grants) (hw : c.Within horizon)
    (hok : c.exec env s = .ok out t) :
    Live horizon t.grants ∧ limits t.grants = c.next (limits s.grants) ∧
      c.Permitted (limits s.grants) ∧
      out.logs.filter Log.isApproval = c.approvals (limits s.grants) := by
  obtain ⟨pair,ctx,sendEnabled,caller,method,caught⟩ := c
  obtain ⟨hnow,hend⟩ := hw
  cases method with
  | transfer dest x =>
    obtain ⟨_,prev,hmove,rfl⟩ := transfer_eq_ok hok
    have hgrants := (move_own.ok rfl hmove).2
    rw [hgrants]
    exact ⟨h,rfl,by simp [Invocation.Permitted,Invocation.parties],rfl⟩
  | transferFrom src dest x =>
    obtain ⟨hx,prev,hmove,rfl⟩ := transfer_eq_ok hok
    by_cases hown : caller = src
    · subst hown
      obtain ⟨rfl,hgrants⟩ := move_own.ok rfl hmove
      rw [hgrants]
      refine ⟨h,?_,?_,?_⟩
      · simp [Invocation.next,Invocation.parties]
      · simp [Invocation.Permitted,Invocation.parties]
      · simp [Invocation.approvals,report,Log.isApproval,newAllowance]
    · obtain ⟨rfl,hle,hwrites⟩ := (move_grant h hnow hx hown).ok rfl hmove
      have hne : src ≠ caller := Ne.symm hown
      refine ⟨hwrites.live,?_,?_,?_⟩
      · simpa [Invocation.next,Invocation.parties,Invocation.becomes,hne] using hwrites.limits
      · simpa [Invocation.Permitted,Invocation.parties,Invocation.becomes,hne] using hle
      · simp [Invocation.approvals,report,Log.isApproval,newAllowance,hne]
  | approve spender x =>
    obtain ⟨hwrites,hlogs⟩ :=
      (approve_spec h hnow hend (amountOf_nonneg x)).ok rfl (logging_eq_ok hok)
    refine ⟨hwrites.live,hwrites.limits,?_,by rw [hlogs]; rfl⟩
    simpa [Invocation.Permitted,Invocation.parties,Invocation.becomes] using amountOf_nonneg x
  | increaseAllowance spender x =>
    obtain ⟨hwrites,hlogs⟩ := (increaseAllowance_spec h hnow hend).ok rfl (logging_eq_ok hok)
    refine ⟨hwrites.live,hwrites.limits,?_,by rw [hlogs]; rfl⟩
    have hold := (limit s.grants spender caller).amountOf_nonneg pair.denom
    have hadd := amountOf_nonneg x
    simp only [Invocation.Permitted,Invocation.parties,Option.mem_some_iff,forall_eq',
      Invocation.becomes,limits]
    omega
  | decreaseAllowance spender x =>
    obtain ⟨hle,hwrites,hlogs⟩ := (decreaseAllowance_spec h hnow).ok rfl (logging_eq_ok hok)
    refine ⟨hwrites.live,hwrites.limits,?_,by rw [hlogs]; rfl⟩
    simpa [Invocation.Permitted,Invocation.parties,Invocation.becomes] using hle

theorem exec_eq_error (h : Live horizon s.grants) (hw : c.Within horizon)
    (herr : c.exec env s = .error e t) :
    t.grants = s.grants ∧ ¬c.Covered (limits s.grants) ∨
      c.Covered (limits s.grants) ∧ ¬c.Taken env s ∧ Live horizon t.grants ∧
        limits t.grants = c.next (limits s.grants) := by
  obtain ⟨pair,ctx,sendEnabled,caller,method,caught⟩ := c
  obtain ⟨hnow,hend⟩ := hw
  cases method with
  | transfer dest x =>
    refine .inl ⟨?_,by simp [Invocation.Covered]⟩
    rcases transfer_eq_error herr with ⟨rfl,_⟩ | ⟨_,hmove⟩
    · rfl
    · exact move_own.error rfl hmove
  | transferFrom src dest x =>
    rcases transfer_eq_error herr with ⟨rfl,hx⟩ | ⟨hx,hmove⟩
    · exact .inl ⟨rfl,by simp [Invocation.Covered,hx]⟩
    · by_cases hown : caller = src
      · subst hown
        exact .inl ⟨move_own.error rfl hmove,by simp [Invocation.Covered]⟩
      · have hne : src ≠ caller := Ne.symm hown
        rcases (move_grant h hnow hx hown).error rfl hmove with ⟨hgrants,hlt⟩ | ⟨hle,hnot,hwrites⟩
        · exact .inl ⟨hgrants,by simp [Invocation.Covered,hlt]⟩
        · refine .inr ⟨by simp [Invocation.Covered,hne,hx,hle],fun h => hnot (h src dest x rfl),
            hwrites.live,?_⟩
          simpa [Invocation.next,Invocation.parties,Invocation.becomes,hne] using hwrites.limits
  | approve spender x =>
    have hgrants := (approve_spec h hnow hend (amountOf_nonneg x)).error rfl (logging_eq_error herr)
    exact .inl ⟨hgrants,by simp [Invocation.Covered]⟩
  | increaseAllowance spender x =>
    have hgrants := (increaseAllowance_spec h hnow hend).error rfl (logging_eq_error herr)
    exact .inl ⟨hgrants,by simp [Invocation.Covered]⟩
  | decreaseAllowance spender x =>
    have hgrants := (decreaseAllowance_spec h hnow).error rfl (logging_eq_error herr)
    exact .inl ⟨hgrants,by simp [Invocation.Covered]⟩

theorem allowance_eq_limits {pair : TokenPair A} {now : Int} {gs : Grants A} {owner spender : A}
    (h : Live horizon gs) (hnow : now < horizon) (hne : owner ≠ spender) :
    allowance pair now gs owner spender = limits gs owner spender pair.denom := by
  unfold allowance
  rw [if_neg hne]
  rcases Live.allowance_eq h hnow owner spender pair.denom with
    ⟨_,hzero,e,hget⟩ | ⟨e,_,_,hget⟩
  · rw [hget,hzero]
  · rw [hget]

theorem succeeds_of_ok (hok : c.exec env s = .ok out t) : c.Succeeds env s := by
  unfold Invocation.Succeeds returned
  rw [hok]
  rfl

theorem not_succeeds_of_error (herr : c.exec env s = .error e t) : ¬c.Succeeds env s := by
  unfold Invocation.Succeeds returned
  rw [herr]
  exact Bool.false_ne_true

theorem taken_of_ok (hok : c.exec env s = .ok out t) : c.Taken env s := by
  intro src dest x hmethod
  obtain ⟨pair,ctx,sendEnabled,caller,method,caught⟩ := c
  cases hmethod
  obtain ⟨_,_,hmove,_⟩ := transfer_eq_ok hok
  exact (move_sends hmove).sendable

theorem covered_iff (h : Live horizon s.grants) (hw : c.Within horizon) :
    c.Covered (fun owner spender _ => allowance c.pair c.ctx.blockTime s.grants owner spender) ↔
      c.Covered (limits s.grants) := by
  unfold Invocation.Covered
  refine exists_congr fun src => exists_congr fun dest => exists_congr fun x => ?_
  refine and_congr_right fun _ => and_congr_right fun hne => ?_
  dsimp only
  rw [allowance_eq_limits h hw.1 hne]

theorem next_ne_of_covered {m : Allowances A} (h : c.Covered m) : c.next m ≠ m := by
  obtain ⟨src,dest,x,hmethod,hne,hx,_⟩ := h
  intro heq
  have hat := congrFun (congrFun (congrFun heq src) c.caller) c.pair.denom
  simp only [Invocation.next,Invocation.parties,hmethod,hne,if_false,Allowances.set_self,
    Invocation.becomes] at hat
  omega

theorem apply_live (h : Live horizon s.grants) (hw : c.Within horizon) :
    Live horizon (c.apply env s).grants := by
  unfold Invocation.apply after deliver
  cases hrun : c.exec env s with
  | ok out t =>
    dsimp only
    rw [ite_self]
    exact (exec_eq_ok h hw hrun).1
  | error e t =>
    dsimp only
    split
    · rcases exec_eq_error h hw hrun with ⟨hgrants,_⟩ | ⟨_,_,hlive,_⟩
      · rw [hgrants]
        exact h
      · exact hlive
    · exact h

theorem apply_follows_iff (h : Live horizon s.grants) (hw : c.Within horizon) :
    limits (c.apply env s).grants = c.expected env s (limits s.grants) ↔ c.Clean env s := by
  unfold Invocation.Clean
  rw [covered_iff h hw]
  cases hrun : c.exec env s with
  | ok out t =>
    have happly : c.apply env s = t := by
      unfold Invocation.apply after deliver
      rw [hrun]
      exact ite_self _
    have hok := succeeds_of_ok hrun
    rw [happly,Invocation.expected,if_pos hok]
    exact ⟨fun _ _ _ => taken_of_ok hrun,fun _ => (exec_eq_ok h hw hrun).2.1⟩
  | error e t =>
    have hnot := not_succeeds_of_error hrun
    rw [Invocation.expected,if_neg hnot]
    cases hcaught : c.caught with
    | false =>
      have happly : c.apply env s = s := by
        unfold Invocation.apply deliver
        rw [hcaught,hrun]
        rfl
      rw [happly]
      exact ⟨fun _ hc => absurd hc Bool.false_ne_true,fun _ => rfl⟩
    | true =>
      have happly : c.apply env s = t := by
        rw [Invocation.apply,hcaught,if_pos rfl,after_of_error hrun]
      rw [happly]
      rcases exec_eq_error h hw hrun with ⟨hgrants,hun⟩ | ⟨hcov,htaken,_,hnext⟩
      · rw [hgrants]
        exact ⟨fun _ _ hcov => absurd hcov hun,fun _ => rfl⟩
      · rw [hnext]
        exact ⟨fun heq => absurd heq (next_ne_of_covered hcov),
          fun hclean => absurd (hclean rfl hcov) htaken⟩

end Calls

section Runs

variable (env : Env A)

def runCalls (cs : List (Invocation A)) (s : State A) : State A :=
  cs.foldl (fun s c => c.apply env s) s

/-- The allowances of an ERC-20 token along the same run. -/
def expectedAllowances : List (Invocation A) → State A → Allowances A → Allowances A
  | [],_,m => m
  | c :: rest,s,m => expectedAllowances rest (c.apply env s) (c.expected env s m)

def CleanRun (cs : List (Invocation A)) (s : State A) : Prop :=
  Along (fun s c => c.Clean env s) (fun s c => c.apply env s) cs s

variable {env} {horizon : Int}

variable {d : Denom} {m : Allowances A} {c : Invocation A} {s : State A} {cs : List (Invocation A)}

theorem runCalls_live (h : Live horizon s.grants)
    (hw : ∀ c ∈ cs, c.Within horizon) : Live horizon (runCalls env cs s).grants := by
  induction cs generalizing s with
  | nil => exact h
  | cons c rest ih =>
    exact ih (apply_live h (hw c List.mem_cons_self)) fun d hd => hw d (List.mem_cons_of_mem c hd)

theorem runCalls_follows (h : Live horizon s.grants)
    (hw : ∀ c ∈ cs, c.Within horizon) (hclean : CleanRun env cs s) :
    limits (runCalls env cs s).grants = expectedAllowances env cs s (limits s.grants) := by
  induction cs generalizing s with
  | nil => rfl
  | cons c rest ih =>
    have hwc := hw c List.mem_cons_self
    have hlimits := (apply_follows_iff h hwc).mpr hclean.1
    have hrest := ih (apply_live h hwc) (fun d hd => hw d (List.mem_cons_of_mem c hd)) hclean.2
    rw [hlimits] at hrest
    exact hrest

theorem cleanRun_of_not_caught (h : ∀ c ∈ cs, c.caught = false) : CleanRun env cs s := by
  induction cs generalizing s with
  | nil => exact trivial
  | cons c rest ih =>
    refine ⟨?_,ih fun d hd => h d (List.mem_cons_of_mem c hd)⟩
    intro hcaught
    rw [h c List.mem_cons_self] at hcaught
    cases hcaught

theorem next_frame {owner spender : A} (h : d ≠ c.pair.denom ∨ c.parties ≠ some (owner,spender)) :
    c.next m owner spender d = m owner spender d := by
  unfold Invocation.next
  cases hk : c.parties with
  | none => rfl
  | some k =>
    refine Allowances.set_of_ne ?_
    rintro ⟨rfl,rfl,rfl⟩
    rcases h with hd | hparties
    · exact hd rfl
    · exact hparties hk

theorem expected_frame {owner spender : A}
    (h : d ≠ c.pair.denom ∨ c.parties ≠ some (owner,spender)) :
    c.expected env s m owner spender d = m owner spender d := by
  unfold Invocation.expected
  split
  · exact next_frame h
  · rfl

/-- From no grants, and as long as none expires, the allowances of all pairs and denoms are
those of ERC-20 tokens under the same calls. A call that succeeds is one that the token permits,
and it changes no allowance of another denom or other parties. -/
theorem allowances_follow_erc20 {cs : List (Invocation A)} {s : State A}
    (hstart : s.grants = Store.empty) (hw : ∀ c ∈ cs, c.Within horizon)
    (hclean : CleanRun env cs s) :
    (∀ pair now owner spender, now < horizon → owner ≠ spender →
      allowance pair now (runCalls env cs s).grants owner spender =
        expectedAllowances env cs s (fun _ _ _ => 0) owner spender pair.denom) ∧
    ∀ pre c post, cs = pre++c :: post →
      (c.Succeeds env (runCalls env pre s) →
        c.Permitted (expectedAllowances env pre s fun _ _ _ => 0)) ∧
      ∀ pair now owner spender, now < horizon →
        (pair.denom ≠ c.pair.denom ∨ c.parties ≠ some (owner,spender)) →
        allowance pair now (c.apply env (runCalls env pre s)).grants owner spender =
          allowance pair now (runCalls env pre s).grants owner spender := by
  have hlive : Live horizon s.grants := hstart ▸ live_empty
  have hzero : limits s.grants = fun _ _ _ => 0 := by rw [hstart,limits_empty]
  constructor
  · intro pair now owner spender hnow hne
    rw [allowance_eq_limits (runCalls_live hlive hw) hnow hne,runCalls_follows hlive hw hclean,
      hzero]
  · rintro pre c post rfl
    obtain ⟨hpre,hpost⟩ := hclean.of_append
    have hwc : c.Within horizon := hw c (by simp)
    have hwpre : ∀ d ∈ pre, d.Within horizon := fun d hd => hw d (by simp [hd])
    have hmid : Live horizon (runCalls env pre s).grants := runCalls_live hlive hwpre
    have hlimits := runCalls_follows hlive hwpre hpre
    have hstep := (apply_follows_iff hmid hwc).mpr hpost.1
    rw [hzero] at hlimits
    constructor
    · intro hok
      obtain ⟨out,hout⟩ := Option.isSome_iff_exists.mp hok
      rw [← hlimits]
      exact (exec_eq_ok hmid hwc (eq_ok_deliver hout)).2.2.1
    · intro pair now owner spender hnow hother
      by_cases hne : owner = spender
      · unfold allowance
        rw [if_pos hne,if_pos hne]
      · rw [allowance_eq_limits (apply_live hmid hwc) hnow hne,allowance_eq_limits hmid hnow hne,
          hstep,expected_frame hother]

end Runs

section Example

def sampleStart : State Nat := ⟨Atox.sampleRun,Store.empty⟩

def atoxPair : TokenPair Nat := ⟨.atox,200⟩
def atosPair : TokenPair Nat := ⟨.atos,201⟩

def invoke (pair : TokenPair Nat) (caller : Nat) (method : Method Nat) (caught : Bool) :
    Invocation Nat := ⟨pair,sampleCtx,fun _ => true,caller,method,caught⟩

def sampleCalls : List (Invocation Nat) :=
  [invoke atoxPair 10 (.approve 11 100) false,
    invoke atosPair 10 (.increaseAllowance 11 50) false,
    invoke atoxPair 11 (.transferFrom 10 12 80) false]

theorem allowances_follow_erc20_sampleCalls :
    allowance atoxPair 0 (runCalls sampleEnv sampleCalls sampleStart).grants 10 11 = 20 ∧
      allowance atosPair 0 (runCalls sampleEnv sampleCalls sampleStart).grants 10 11 = 50 := by
  have hw : ∀ c ∈ sampleCalls, c.Within (sampleCtx.blockTime+approvalExpiration) :=
    by decide +kernel
  have hclean : CleanRun sampleEnv sampleCalls sampleStart :=
    cleanRun_of_not_caught (by decide +kernel)
  obtain ⟨hall,_⟩ := allowances_follow_erc20 (s := sampleStart) rfl hw hclean
  rw [hall atoxPair 0 10 11 (by decide) (by decide),hall atosPair 0 10 11 (by decide) (by decide)]
  exact ⟨by decide +kernel,by decide +kernel⟩

/-- Account 12 approves of 100 but holds none. A contract at 11 tries to spend 80 and goes on. -/
def triedSpend : List (Invocation Nat) := [invoke atoxPair 12 (.approve 11 100) false]

def failedSpend : Invocation Nat := invoke atoxPair 11 (.transferFrom 12 13 80) true

/-- The pair's precompile in an EVM that keeps the chain beside its own accounts. -/
def spendPrecompile : Evm.Precompile Nat (State Nat) :=
  precompile sampleEnv sampleCtx (fun _ => true) Evm.Multistore.other
    (fun s store => { store with other := s }) (fun _ => some "transferFrom")
    (fun _ => some (.transferFrom 12 13 80)) atoxPair

def spendCall : Evm.Contract Nat := ⟨.call,10,11,0,[1,2,3,4],100,0⟩

/-- The call fails in its frame, and has used up 80 of the allowance. -/
theorem failed_spend_lowers_allowance : let s := runCalls sampleEnv triedSpend sampleStart
    let db := Evm.StateDB.new ⟨9,fun _ => false⟩ ⟨fun _ => ⟨0,fun _ => 0⟩,s⟩ fun _ => true
    (call spendPrecompile spendCall).returned db = none ∧
      allowance atoxPair 0 s.grants 12 11 = 100 ∧
      allowance atoxPair 0
        ((call spendPrecompile spendCall).after db).multistore.other.grants 12 11 = 20 ∧
      allowance atoxPair 0 (failedSpend.apply sampleEnv s).grants 12 11 = 20 := by
  decide +kernel

end Example

end Atoshi.Erc20
