import Atoshi.Atox.Settle
import Atoshi.Lib.Entitlement

namespace Atoshi.Atox
open Entitlement LegacyDec

variable {A : Type} [LinearOrder A]

def value (d : LegacyDec) : ℚ := d.raw/precision

def indexOf (x : AtoxStore A) (a : A) : ℚ := value (x.getAtoxAccount a).index

/-- The books of the conversion: `l` holds the ATOX, `supply` is its minted total
and `pool` the ATOS backing it. Below index one, what is booked plus what holders
have drawn never exceeds the share `index*cap` of the cap. -/
structure Solvent (env : Env A) (l : Ledger A) (supply pool : Int) (x : AtoxStore A) : Prop where
  cap_pos : 0 < x.params.supplyCap
  index_nonneg : 0 ≤ x.globalState.globalIndex.raw
  remainder_nonneg : 0 ≤ x.globalState.indexRemainder
  remainder_lt : x.globalState.indexRemainder < x.params.supplyCap
  released : x.globalState.globalIndex.raw*x.params.supplyCap+x.globalState.indexRemainder =
    x.globalState.totalReleasedToPool*precision
  account : ∀ a acct, x.accounts.get a = some acct →
    0 ≤ acct.index.raw ∧ acct.index ≤ x.globalState.globalIndex ∧ 0 ≤ acct.pending
  pending : x.globalState.totalPending = x.accounts.total fun _ acct => acct.pending
  burned : x.globalState.totalBurned = x.globalState.totalPending+x.globalState.totalPaidOut
  held : ∀ a, 0 ≤ l.bal a
  supplied : l.holdings ≤ supply
  capped : supply+x.globalState.totalBurned ≤ x.params.supplyCap
  backed : x.globalState.totalReleasedToPool ≤ pool+x.globalState.totalPaidOut
  entitled : x.globalState.globalIndex < one →
    (x.globalState.totalBurned : ℚ)+
        unsettled l env.isModuleAccount (indexOf x) (value x.globalState.globalIndex) ≤
      value x.globalState.globalIndex*x.params.supplyCap

theorem precision_cast_pos : (0 : ℚ) < precision := by
  exact_mod_cast precision_pos

@[simp] theorem value_one : value one = 1 := by
  unfold value one
  exact div_self precision_cast_pos.ne'

theorem value_le_value {d e : LegacyDec} (h : d ≤ e) : value d ≤ value e := by
  have hraw : (d.raw : ℚ) ≤ e.raw := by exact_mod_cast h
  exact div_le_div_of_nonneg_right hraw precision_cast_pos.le

theorem value_lt_value {d e : LegacyDec} (h : d < e) : value d < value e := by
  have hraw : (d.raw : ℚ) < e.raw := by exact_mod_cast h
  exact div_lt_div_of_pos_right hraw precision_cast_pos

theorem computeOwed_le_drawn {b : Int} {a g : LegacyDec} (hb : 0 ≤ b) (ha : 0 ≤ a.raw)
    (hag : a ≤ g) (hg1 : g < one) :
    ((computeOwed b a g).1 : ℚ) ≤ drawn (b : ℚ) (value a) (value g) := by
  have ha1 : a < one := lt_of_le_of_lt hag hg1
  have hva1 : value a < 1 := by simpa using value_lt_value ha1
  rcases computeOwed_cases b a g with h | ⟨hpos,hlt,_⟩
  · rw [h]
    simpa using drawn_nonneg (by exact_mod_cast hb) (value_le_value hag) hva1
  · have hr : 0 < precision-a.raw := sub_pos.mpr ha1
    have hfloor := Int.ediv_mul_le ((g.raw-a.raw)*b) hr.ne'
    have howed : (computeOwed b a g).1*(precision-a.raw) ≤ (g.raw-a.raw)*b := by
      rw [computeOwed_eq hpos ha hlt ha1]
      exact le_trans (Int.mul_le_mul_of_nonneg_right (min_le_right _ _) hr.le) hfloor
    have hq : ((computeOwed b a g).1 : ℚ)*(precision-a.raw) ≤ (g.raw-a.raw)*b := by
      exact_mod_cast howed
    have hrq : (0 : ℚ) < precision-a.raw := by exact_mod_cast hr
    have hdrawn : drawn (b : ℚ) (value a) (value g) =
        (g.raw-a.raw)*b/(precision-a.raw) := by
      have hp := precision_cast_pos.ne'
      unfold drawn value
      field_simp
    rw [hdrawn,le_div_iff₀ hrq]
    exact hq

namespace Solvent

variable {env : Env A} {l : Ledger A} {supply pool : Int} {x : AtoxStore A}

theorem genesis {p : Params} (hcap : 0 < p.supplyCap) (hpool : 0 ≤ pool) :
    Solvent env Ledger.empty 0 pool { defaultGenesis A with params := p } := by
  refine ⟨hcap,le_refl _,le_refl _,hcap,?_,?_,rfl,rfl,fun _ => le_refl _,le_refl _,hcap.le,?_,?_⟩
  · simp [defaultGenesis,defaultGlobalState,zero]
  · intro a acct h
    cases h
  · simpa [defaultGenesis,defaultGlobalState] using hpool
  · intro _
    have hunset : unsettled Ledger.empty env.isModuleAccount (indexOf (defaultGenesis A))
        (value zero) = 0 := rfl
    simp [defaultGenesis,defaultGlobalState,value,zero] at hunset ⊢
    exact hunset.le

theorem account_at (h : Solvent env l supply pool x) (a : A) :
    0 ≤ (x.getAtoxAccount a).index.raw ∧
      (x.getAtoxAccount a).index ≤ x.globalState.globalIndex ∧
      0 ≤ (x.getAtoxAccount a).pending := by
  unfold AtoxStore.getAtoxAccount
  cases hget : x.accounts.get a with
  | none => exact ⟨le_refl _,h.index_nonneg,le_refl _⟩
  | some acct => exact h.account a acct hget

theorem index_lt_one (h : Solvent env l supply pool x)
    (hg : x.globalState.globalIndex < one) (a : A) : indexOf x a < 1 := by
  have hlt := value_lt_value (lt_of_le_of_lt (h.account_at a).2.1 hg)
  simpa [indexOf] using hlt

theorem pending_le (h : Solvent env l supply pool x) (a : A) :
    (x.getAtoxAccount a).pending ≤ x.globalState.totalPending := by
  have hshare := x.accounts.share_le_total (f := fun _ acct => acct.pending) a
    fun b acct hb => (h.account b acct hb).2.2
  rw [← h.pending] at hshare
  refine le_trans (le_of_eq ?_) hshare
  unfold AtoxStore.getAtoxAccount Store.share
  cases x.accounts.get a <;> rfl

theorem held_le_supply (h : Solvent env l supply pool x) :
    Entitlement.held l env.isModuleAccount ≤ supply :=
  (held_le_holdings h.held).trans h.supplied

theorem owed_le_released (h : Solvent env l supply pool x) :
    x.globalState.totalPending+x.globalState.totalPaidOut+
        (l.sum fun a b => if env.isModuleAccount a then 0
          else (computeOwed b (x.getAtoxAccount a).index x.globalState.globalIndex).1) ≤
      x.globalState.totalReleasedToPool := by
  have hp := precision_pos
  have hrel := h.released
  have hrem := h.remainder_nonneg
  have hburn := h.burned
  by_cases hg : x.globalState.globalIndex < one
  · have hsum := sum_owed_le_unsettled l env.isModuleAccount (indexOf x)
      (value x.globalState.globalIndex)
      (fun a b => (computeOwed b (x.getAtoxAccount a).index x.globalState.globalIndex).1)
      fun a _ => computeOwed_le_drawn (h.held a) (h.account_at a).1 (h.account_at a).2.1 hg
    have hcap : value x.globalState.globalIndex*x.params.supplyCap ≤
        x.globalState.totalReleasedToPool := by
      unfold value
      rw [div_mul_eq_mul_div,div_le_iff₀ precision_cast_pos]
      exact_mod_cast (show _ ≤ x.globalState.totalReleasedToPool*precision by omega)
    have hq := (add_le_add_right hsum _).trans ((h.entitled hg).trans hcap)
    rw [← hburn]
    exact_mod_cast hq
  · have hsum : (l.sum fun a b => if env.isModuleAccount a then 0
        else (computeOwed b (x.getAtoxAccount a).index x.globalState.globalIndex).1) ≤
        Entitlement.held l env.isModuleAccount := by
      apply Ledger.sum_le_sum
      intro a
      split
      · exact le_refl _
      · exact computeOwed_le_balance (h.account_at a).1 (h.held a)
    have hone := not_lt.mp hg
    have hmul : precision*x.params.supplyCap ≤
        x.globalState.globalIndex.raw*x.params.supplyCap :=
      Int.mul_le_mul_of_nonneg_right hone h.cap_pos.le
    have hcap : x.params.supplyCap ≤ x.globalState.totalReleasedToPool := by
      refine le_of_mul_le_mul_right ?_ hp
      rw [Int.mul_comm x.params.supplyCap]
      omega
    have hheld := h.held_le_supply
    have hcapped := h.capped
    omega

theorem total_pending_set (x : AtoxStore A) (a : A) (acct : AtoxAccount) :
    ((x.setAtoxAccount a acct).accounts.total fun _ y => y.pending) =
      (x.accounts.total fun _ y => y.pending)+acct.pending-(x.getAtoxAccount a).pending := by
  have h := x.accounts.total_set_add_share (fun _ y => y.pending) a acct
  have hshare : x.accounts.share (fun _ y => y.pending) a = (x.getAtoxAccount a).pending := by
    unfold AtoxStore.getAtoxAccount Store.share
    cases x.accounts.get a <;> rfl
  rw [hshare] at h
  exact eq_sub_of_add_eq h

theorem settle (h : Solvent env l supply pool x) {a : A} (hmod : env.isModuleAccount a = false)
    (owed : Int) (howed : owed =
      (computeOwed (l.bal a) (x.getAtoxAccount a).index x.globalState.globalIndex).1) :
    Solvent env (l.debit a owed) (supply-owed) pool (book x a owed) := by
  obtain ⟨hidx0,hidx,hpend⟩ := h.account_at a
  have hnn : 0 ≤ owed := howed ▸ computeOwed_nonneg hidx0
  have hle : owed ≤ l.bal a := howed ▸ computeOwed_le_balance hidx0 (h.held a)
  have hburn := h.burned
  have hcap := h.capped
  have hsup := h.supplied
  refine ⟨h.cap_pos,h.index_nonneg,h.remainder_nonneg,h.remainder_lt,h.released,?_,?_,?_,?_,?_,?_,
    h.backed,?_⟩
  · intro b acct hb
    change (x.accounts.set a _).get b = some acct at hb
    rw [Store.get_set] at hb
    split at hb
    · cases hb
      exact ⟨h.index_nonneg,le_refl _,by simp only; omega⟩
    · exact h.account b acct hb
  · have htot := total_pending_set x a
      { x.getAtoxAccount a with
        pending := (x.getAtoxAccount a).pending+owed
        index := x.globalState.globalIndex }
    rw [← h.pending] at htot
    refine Eq.trans ?_ htot.symm
    simp only [book]
    omega
  · simp only [book]
    omega
  · intro b
    have hb := h.held b
    rw [Ledger.bal_debit]
    split
    · rename_i heq
      rw [heq]
      omega
    · omega
  · rw [Ledger.holdings_debit]
    omega
  · simp only [book,AtoxStore.setAtoxAccount]
    omega
  · intro hg
    have hold := h.entitled hg
    have hdrawn := howed ▸ computeOwed_le_drawn (h.held a) hidx0 hidx hg
    have hself : indexOf (book x a owed) a = value x.globalState.globalIndex := by
      unfold indexOf
      rw [getAtoxAccount_book,if_pos rfl]
    have hother : ∀ b, b ≠ a → indexOf (book x a owed) b = indexOf x b := by
      intro b hb
      unfold indexOf
      rw [getAtoxAccount_book,if_neg hb]
    have hset := unsettled_settle hmod hdrawn hself hother
    simp only [book,AtoxStore.setAtoxAccount,Int.cast_add] at hset ⊢
    linarith

theorem credit (h : Solvent env l supply pool x) (supply1 : Int) {a : A} {y : Int}
    (ha : Settled env x a)
    (hbal : 0 ≤ l.bal a+y) (hsup : l.holdings+y ≤ supply1)
    (hcap : supply1+x.globalState.totalBurned ≤ x.params.supplyCap) :
    Solvent env (l.credit a y) supply1 pool x := by
  refine ⟨h.cap_pos,h.index_nonneg,h.remainder_nonneg,h.remainder_lt,h.released,h.account,
    h.pending,h.burned,
    ?_,?_,hcap,h.backed,?_⟩
  · intro b
    have hb := h.held b
    rw [Ledger.bal_credit]
    split
    · rename_i heq
      rw [heq]
      omega
    · omega
  · rwa [Ledger.holdings_credit]
  · intro hg
    have hzero : env.isModuleAccount a = true ∨
        indexOf x a = value x.globalState.globalIndex := by
      rcases ha with hmod | hidx
      · exact .inl hmod
      · exact .inr (by unfold indexOf; rw [hidx])
    rw [unsettled_credit y hzero]
    exact h.entitled hg

theorem mono_pool (h : Solvent env l supply pool x) {pool1 : Int} (hpool : pool ≤ pool1) :
    Solvent env l supply pool1 x :=
  ⟨h.cap_pos,h.index_nonneg,h.remainder_nonneg,h.remainder_lt,h.released,h.account,h.pending,
  h.burned,h.held,
    h.supplied,h.capped,h.backed.trans (by omega),h.entitled⟩

theorem congr (h : Solvent env l supply pool x) {y : AtoxStore A}
    (hcap : y.params.supplyCap = x.params.supplyCap) (hacc : y.accounts = x.accounts)
    (hgs : y.globalState =
      { x.globalState with totalFeeBurned := y.globalState.totalFeeBurned }) :
    Solvent env l supply pool y := by
  obtain ⟨params,gs,accounts,swept,cursor⟩ := y
  simp only at hcap hacc hgs
  subst hacc
  rw [hgs]
  refine ⟨?_,h.index_nonneg,h.remainder_nonneg,?_,?_,h.account,h.pending,h.burned,h.held,
    h.supplied,?_,h.backed,?_⟩
  · simpa only [hcap] using h.cap_pos
  · simpa only [hcap] using h.remainder_lt
  · simpa only [hcap] using h.released
  · simpa only [hcap] using h.capped
  · intro hg
    have hent := h.entitled hg
    rw [← hcap] at hent
    exact hent

theorem release (h : Solvent env l supply pool x) {amount rem : Int} {delta : LegacyDec}
    (hdelta : computeIndexDelta amount x.globalState.indexRemainder x.params.supplyCap =
      .ok (delta,rem)) {pool1 : Int} (hpool : pool+amount ≤ pool1) :
    Solvent env l supply pool1
      { x with globalState :=
        { x.globalState with
          globalIndex := x.globalState.globalIndex.add delta
          indexRemainder := rem
          totalReleasedToPool := x.globalState.totalReleasedToPool+amount } } := by
  obtain ⟨_,_,_,hd,hr,hrlt,heq⟩ := computeIndexDelta_eq_ok hdelta
  have hrise : x.globalState.globalIndex ≤ x.globalState.globalIndex.add delta := by
    change x.globalState.globalIndex.raw ≤ x.globalState.globalIndex.raw+delta.raw
    omega
  have hrel := h.released
  have hback := h.backed
  refine ⟨h.cap_pos,?_,hr,hrlt,?_,?_,h.pending,h.burned,h.held,h.supplied,h.capped,?_,?_⟩
  · exact le_trans h.index_nonneg hrise
  · simp only [add,Int.add_mul]
    omega
  · intro a acct ha
    obtain ⟨h0,h1,h2⟩ := h.account a acct ha
    exact ⟨h0,le_trans h1 hrise,h2⟩
  · simp only
    omega
  · intro hg
    have hg0 := lt_of_le_of_lt hrise hg
    have hheld : (x.globalState.totalBurned : ℚ)+(Entitlement.held l env.isModuleAccount : ℚ) ≤
        x.params.supplyCap := by
      have hle := h.held_le_supply
      have hcap := h.capped
      exact_mod_cast (show _ ≤ x.params.supplyCap by omega)
    exact booked_add_unsettled_of_rise (h.entitled hg0) hheld
      (fun a _ => h.index_lt_one hg0 a) (by simpa using value_lt_value hg0)
      (value_le_value hrise) (by simpa using (value_lt_value hg).le)

theorem payout (h : Solvent env l supply pool x) {a : A} {pool1 : Int} (claimed : Int)
    (hpool : pool-(x.getAtoxAccount a).pending ≤ pool1) :
    Solvent env l supply pool1
      { x.setAtoxAccount a
          { x.getAtoxAccount a with pending := 0, totalClaimed := claimed } with
        globalState :=
          { x.globalState with
            totalPending := x.globalState.totalPending-(x.getAtoxAccount a).pending
            totalPaidOut := x.globalState.totalPaidOut+(x.getAtoxAccount a).pending } } := by
  obtain ⟨hidx0,hidx,hpend⟩ := h.account_at a
  have hburn := h.burned
  have hback := h.backed
  refine ⟨h.cap_pos,h.index_nonneg,h.remainder_nonneg,h.remainder_lt,h.released,?_,?_,?_,h.held,
    h.supplied,
    h.capped,?_,?_⟩
  · intro b acct hb
    change (x.accounts.set a _).get b = some acct at hb
    rw [Store.get_set] at hb
    split at hb
    · cases hb
      exact ⟨hidx0,hidx,le_refl _⟩
    · exact h.account b acct hb
  · have htot := total_pending_set x a
      { x.getAtoxAccount a with pending := 0, totalClaimed := claimed }
    rw [← h.pending] at htot
    refine Eq.trans ?_ htot.symm
    simp only
    omega
  · simp only
    omega
  · simp only
    omega
  · intro hg
    have hindex : indexOf ({ x.setAtoxAccount a
          { x.getAtoxAccount a with pending := 0, totalClaimed := claimed } with
        globalState :=
          { x.globalState with
            totalPending := x.globalState.totalPending-(x.getAtoxAccount a).pending
            totalPaidOut := x.globalState.totalPaidOut+(x.getAtoxAccount a).pending } }) =
        indexOf x := by
      funext b
      unfold indexOf
      have hget := x.getAtoxAccount_setAtoxAccount a b
        { x.getAtoxAccount a with pending := 0, totalClaimed := claimed }
      change value (AtoxStore.getAtoxAccount (x.setAtoxAccount a _) b).index = _
      rw [hget]
      split
      · rename_i heq
        rw [heq]
      · rfl
    rw [hindex]
    exact h.entitled hg

end Solvent

end Atoshi.Atox
