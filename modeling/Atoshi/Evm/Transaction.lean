import Atoshi.Evm.Staking

namespace Atoshi.Evm
open Exec StateDB Finset

/-! A transaction is a run of the StateDB, with the world it should stand for beside it. -/

structure TxState (A X : Type) where
  initial : Multistore A X
  db : StateDB A X
  world : World A X
  frames : List (Nat × World A X)
  /-- The accounts a precompile changed behind their objects. -/
  moved : Set A

inductive EvmOp (A X : Type) where
  /-- A read: it only loads the object. -/
  | load (a : A)
  | transfer (sender recipient : A) (amount : Int)
  | setState (a : A) (key value : Hash)
  | selfdestruct (a beneficiary : A)
  | createAccount (a : A)
  | precompile (p : Precompile A X) (c : Contract A)
  | enter
  | leave
  | revert

variable {A X : Type} [LinearOrder A]

def setupStore (p : Precompile A X) (c : Contract A) (db : StateDB A X) : Multistore A X :=
  (p.enter c db).committed (p.enter c db).multistore

variable [Fintype A]

namespace TxState

def next (s : TxState A X) : EvmOp A X → TxState A X
  | .load a => { s with db := s.db.getStateObject a }
  | .transfer a b v => { s with db := s.db.transfer a b v, world := s.world.transfer a b v }
  | .setState a key v => { s with db := s.db.setState a key v, world := s.world.setState a key v }
  | .selfdestruct a b => { s with db := s.db.selfdestruct a b, world := s.world.selfdestruct a b }
  | .createAccount a => { s with db := s.db.createAccount a }
  | .precompile p c => { s with
      db := (p.call c).after s.db
      world := s.world.call p c
      moved := match p.effect c (setupStore p c s.db) with
        | .ok entries store =>
          movedBy s.moved p entries (p.enter c s.db) (setupStore p c s.db) store
        | .error _ _ => s.moved }
  | .enter => { s with frames := (s.db.snapshot,s.world) :: s.frames }
  | .leave => { s with frames := s.frames.tail }
  | .revert =>
    match s.frames with
    | [] => s
    | (revid,world) :: rest =>
      { s with db := s.db.revertToSnapshot revid, world := world, frames := rest }

/-- What the EVM does: only contracts destroy themselves, CREATE refuses an address that is
in use, and every precompile call succeeds. -/
def Possible (s : TxState A X) : EvmOp A X → Prop
  | .selfdestruct a _ => ¬ s.db.absent a
  | .createAccount a =>
    (s.db.object a).dirtyStorage = (fun _ => none) ∧ (s.db.object a).suicided = false
  | .precompile p c => (p.call c).returned s.db = some ()
  | .leave => s.frames ≠ []
  | .revert => s.frames ≠ []
  | _ => True

/-- An account that has moved is not written: it may be paid nothing, and it must exist. -/
def Untouched (s : TxState A X) (a : A) (changes : Prop) : Prop :=
  changes ∨ s.db.absent a → a ∉ s.moved

/-- The accounts that moved are left alone, and precompiles mirror what they move. -/
def Mirrored (s : TxState A X) : EvmOp A X → Prop
  | .transfer a b v => s.Untouched a (v ≠ 0) ∧ s.Untouched b (v ≠ 0)
  | .setState a _ _ => a ∉ s.moved
  | .selfdestruct a b => a ∉ s.moved ∧ s.Untouched b (s.db.getBalance a ≠ 0)
  | .createAccount a => s.Untouched a False
  | .precompile p c =>
    (c.kind = .call → s.Untouched c.caller (c.value ≠ 0)) ∧ p.address ∉ s.moved ∧
    ∀ entries store, p.effect c (setupStore p c s.db) = .ok entries store →
      Mirrors s.moved p entries (p.enter c s.db) (setupStore p c s.db) store
  | _ => True

end TxState

def TxStep (admits : TxState A X → EvmOp A X → Prop) (s t : TxState A X) : Prop :=
  ∃ op, s.Possible op ∧ admits s op ∧ t = s.next op

/-- A transaction starts from an empty StateDB. Accounts that do not exist hold nothing. -/
structure TxStart (s : TxState A X) : Prop where
  db : ∃ keeper hasAccount, s.db = new keeper s.initial hasAccount ∧
    ∀ a, hasAccount a = false → (s.initial.account a).balance = 0
  world : s.world = World.start s.initial
  frames : s.frames = []
  moved : s.moved = ∅

section Supply

variable {w : World A X} {a : A} {supply : Int}

/-- Coins are moved, minted or burned by precompiles, or destroyed. -/
def World.Balanced (supply : Int) (w : World A X) : Prop :=
  ∑ a, w.visible a = supply+w.minted-w.destroyed

theorem sum_update (f : A → Int) (a : A) (x : Int) :
    ∑ b, Function.update f a x b = ∑ b, f b+(x-f a) := by
  rw [sum_update_of_mem (mem_univ a),← erase_eq,
    ← add_sum_erase _ f (mem_univ a)]
  ring

theorem sum_visible_credit (amount : Int) :
    ∑ b, (w.credit a amount).visible b = ∑ b, w.visible b+amount := by
  rw [World.visible_credit,sum_update]
  ring

theorem World.Balanced.transfer {b : A} {amount : Int} (h : w.Balanced supply) :
    (w.transfer a b amount).Balanced supply := by
  unfold World.Balanced World.transfer at *
  rw [sum_visible_credit,sum_visible_credit,h]
  simp

theorem World.Balanced.setState {key value : Hash} (h : w.Balanced supply) :
    (w.setState a key value).Balanced supply := by
  unfold World.Balanced at *
  rw [World.visible_setState,h]
  unfold World.setState
  split <;> rfl

theorem World.Balanced.selfdestruct {b : A} (h : w.Balanced supply) :
    (w.selfdestruct a b).Balanced supply := by
  have hsum : ∑ x, (w.selfdestruct a b).visible x =
      ∑ x, w.visible x+w.visible a+(0-(w.credit b (w.visible a)).visible a) := by
    change ∑ x, ((w.credit b (w.visible a)).kill a).visible x = _
    rw [World.visible_kill,sum_update,sum_visible_credit]
  unfold World.Balanced at *
  rw [hsum,h,World.visible_credit]
  by_cases hb : b = a
  · subst hb
    simp [World.selfdestruct,World.kill]
    ring
  · simp [World.selfdestruct,World.kill,hb,Function.update_of_ne (Ne.symm hb)]

omit [LinearOrder A] in
theorem sum_visible (hgone : ∀ a, w.dead a = true → w.store.account a = ⟨0,fun _ => 0⟩) :
    ∑ a, w.visible a = w.store.supply+∑ a, if w.dead a then w.residual a else 0 := by
  rw [Multistore.supply,← sum_add_distrib]
  refine sum_congr rfl fun a _ => ?_
  cases hd : w.dead a with
  | true => simp [World.visible,hd,hgone a hd]
  | false => simp [World.visible,hd]

omit [LinearOrder A] in
theorem World.Balanced.absorb {store : Multistore A X}
    (hgone : ∀ a, w.dead a = true → w.store.account a = ⟨0,fun _ => 0⟩)
    (h : w.Balanced supply) : (w.absorb store).Balanced supply := by
  have hbefore := sum_visible hgone
  have hafter : ∑ a, (w.absorb store).visible a =
      store.supply+∑ a, if w.dead a then w.residual a else 0 := by
    rw [Multistore.supply,← sum_add_distrib]
    exact sum_congr rfl fun a _ => by rw [World.absorb_visible,add_comm]
  unfold World.Balanced at *
  rw [hafter]
  change _ = supply+(w.minted+(store.supply-w.store.supply))-w.destroyed
  omega

theorem World.Balanced.enter {p : Precompile A X} {c : Contract A} (h : w.Balanced supply) :
    (w.enter p c).Balanced supply := by
  unfold World.enter
  cases c.kind with
  | call => exact h.transfer
  | _ => exact h

end Supply

section Step

variable {moved : Set A} {db db' : StateDB A X} {w : World A X} {p : Precompile A X}
  {c : Contract A}

omit [Fintype A] in
theorem Coherent.enter (h : Coherent moved db w) (haddress : p.address ∉ moved)
    (hcaller : c.kind = .call → c.value ≠ 0 ∨ db.absent c.caller → c.caller ∉ moved) :
    Coherent moved (p.enter c db) (w.enter p c) := by
  unfold Precompile.enter World.enter
  cases hkind : c.kind with
  | call =>
    have hnew := h.getOrNewStateObject (a := p.address) fun _ => haddress
    exact hnew.transfer
      (fun hor => hcaller hkind (hor.imp_right (Grows.getOrNewStateObject _).absent))
      fun _ => haddress
  | staticCall =>
    have hadd : Coherent moved (db.changeBalance p.address 0) (w.credit p.address 0) :=
      h.changeBalance fun _ => haddress
    rwa [World.credit_zero] at hadd
  | callCode | delegateCall => exact h

omit [Fintype A] in
theorem call_eq_ok {u : Unit} (hs : Sound db) (h : p.call c db = .ok u db') :
    ∃ entries store, p.effect c (setupStore p c db) = .ok entries store ∧
      db' = p.journaled entries (p.enter c db).multistore ((p.enter c db).setCacheCtx store) := by
  have hsound := (Undoable.enter p c hs).sound
  unfold Precompile.call at h
  cases hbody : p.body c (p.enter c db) (p.enter c db).multistore with
  | error e store =>
    rw [Precompile.run_of_error hbody] at h
    cases h
  | ok entries store =>
    obtain ⟨_,flushed,hcommit,heffect⟩ := bind_eq_ok.mp hbody
    rw [commitWithCtx_eq_ok (fun _ => hsound.live_of_dirty) hcommit] at heffect
    refine ⟨entries,store,heffect,?_⟩
    rw [Precompile.run_of_ok hbody,Precompile.addJournalEntries_run] at h
    by_cases hlimit : (p.journaled entries (p.enter c db).multistore
        ((p.enter c db).setCacheCtx store)).precompileCallsCounter ≤ maxPrecompileCalls
    · rw [if_pos hlimit] at h
      cases h
      rfl
    · rw [if_neg hlimit] at h
      cases h

end Step

/-- The StateDB stands for the world, and so it does for the world of every open frame when
the frame is reverted. -/
structure TxInv (s : TxState A X) : Prop where
  sound : s.db.Sound
  coherent : Coherent s.moved s.db s.world
  balanced : s.world.Balanced s.initial.supply
  frames : ∀ f ∈ s.frames, f.1 ≤ s.db.snapshot ∧
    Coherent s.moved (s.db.revertToSnapshot f.1) f.2 ∧ f.2.Balanced s.initial.supply
  nested : s.frames.Pairwise fun f g => g.1 ≤ f.1

namespace TxInv

variable {s : TxState A X}

omit [Fintype A] in
theorem dirty_revertToSnapshot {db : StateDB A X} {revid : Nat} {a : A}
    (h : (db.revertToSnapshot revid).dirty a) : db.dirty a := by
  have hjournal : ∀ n (d : StateDB A X), (undo^[n] d).journal = d.journal.drop n := by
    intro n
    induction n with
    | zero => intro d; rfl
    | succ n ih =>
      intro d
      rw [Function.iterate_succ_apply,ih,undo_journal]
      simp
  unfold dirty revertToSnapshot at *
  rw [hjournal] at h
  obtain ⟨e,he,hea⟩ := List.mem_filterMap.mp h
  exact List.mem_filterMap.mpr ⟨e,List.mem_of_mem_drop he,hea⟩

theorem change {db : StateDB A X} {world : World A X} {moved : Set A} (h : TxInv s)
    (hundo : Undoable s.db db) (hcoherent : Coherent moved db world)
    (hsub : s.moved ⊆ moved) (hbalanced : world.Balanced s.initial.supply) :
    TxInv { s with db := db, world := world, moved := moved } := by
  refine ⟨hundo.sound,hcoherent,hbalanced,fun f hf => ?_,h.nested⟩
  obtain ⟨hle,hframe,hbal⟩ := h.frames f hf
  have hext := hundo.back.revertTo h.sound hle
  refine ⟨le_trans hle hundo.back.depth_le,(hframe.ext hext).mono hsub fun a ha hd => ?_,hbal⟩
  exact (hcoherent.on a).clean ha (dirty_revertToSnapshot hd)

theorem precompile {p : Precompile A X} {c : Contract A} (h : TxInv s)
    (hpossible : s.Possible (.precompile p c)) (hmirrored : s.Mirrored (.precompile p c)) :
    TxInv (s.next (.precompile p c)) := by
  obtain ⟨hcaller,haddress,hmirrors⟩ := hmirrored
  have hrun := eq_ok_deliver hpossible
  obtain ⟨entries,store,heffect,hdb⟩ := call_eq_ok h.sound hrun
  have henter := h.coherent.enter haddress hcaller
  have hstore : (s.world.enter p c).store = setupStore p c s.db := henter.store_eq
  have hm := hmirrors entries store heffect
  have hworld : s.world.call p c = (s.world.enter p c).absorb store := by
    unfold World.call
    rw [hstore,heffect]
  have hundo := Undoable.enter p c h.sound
  have hnext : s.next (.precompile p c) = { s with
      db := p.journaled entries (p.enter c s.db).multistore ((p.enter c s.db).setCacheCtx store)
      world := (s.world.enter p c).absorb store
      moved := movedBy s.moved p entries (p.enter c s.db) (setupStore p c s.db) store } := by
    simp only [TxState.next,hworld,heffect,after_of_ok hrun,hdb]
  rw [hnext]
  refine h.change (hundo.trans (.journaled p entries store hundo.sound)) ?_
    Set.subset_union_left (h.balanced.enter.absorb fun a => (henter.on a).gone)
  rw [← hstore] at hm ⊢
  exact henter.absorb hm

theorem revert (h : TxInv s) : TxInv (s.next .revert) := by
  cases hf : s.frames with
  | nil => simpa [TxState.next,hf] using h
  | cons f rest =>
    obtain ⟨revid,world⟩ := f
    have hnested := h.nested
    rw [hf] at hnested
    obtain ⟨houter,hrest⟩ := List.pairwise_cons.mp hnested
    obtain ⟨hle,hframe,hbal⟩ := h.frames (revid,world) (hf ▸ List.mem_cons_self)
    have hsound := UndoLog.sound_revertTo (L := journalLog A X) revid h.sound
    simp only [TxState.next,hf]
    refine ⟨hsound,hframe,hbal,fun g hg => ?_,hrest⟩
    obtain ⟨-,hgframe,hgbal⟩ := h.frames g (hf ▸ List.mem_cons_of_mem _ hg)
    have hdepth : (s.db.revertToSnapshot revid).snapshot = revid :=
      UndoLog.depth_revertTo (L := journalLog A X) hle
    have hback : (s.db.revertToSnapshot revid).revertToSnapshot g.1 =
        s.db.revertToSnapshot g.1 :=
      UndoLog.revertTo_revertTo (L := journalLog A X) (houter g hg) hle
    dsimp only
    rw [hdepth,hback]
    exact ⟨houter g hg,hgframe,hgbal⟩

theorem step {op : EvmOp A X} (h : TxInv s) (hpossible : s.Possible op)
    (hmirrored : s.Mirrored op) :
    TxInv (s.next op) := by
  cases op with
  | load a =>
    exact h.change (.getStateObject a h.sound) (h.coherent.ext (ext_getStateObject a s.db))
      subset_rfl h.balanced
  | transfer a b v =>
    exact h.change (.transfer a b v h.sound) (h.coherent.transfer hmirrored.1 hmirrored.2)
      subset_rfl h.balanced.transfer
  | setState a key v =>
    exact h.change (.setState a key v h.sound) (h.coherent.setState hmirrored key v)
      subset_rfl h.balanced.setState
  | selfdestruct a b =>
    exact h.change (.selfdestruct a b h.sound)
      (h.coherent.selfdestruct hmirrored.1 hpossible hmirrored.2) subset_rfl
      h.balanced.selfdestruct
  | createAccount a =>
    exact h.change (.createAccount a h.sound)
      (h.coherent.createAccount (fun habs => hmirrored (.inr habs)) hpossible.1 hpossible.2)
      subset_rfl h.balanced
  | precompile p c => exact h.precompile hpossible hmirrored
  | enter =>
    refine ⟨h.sound,h.coherent,h.balanced,fun f hf => ?_,?_⟩
    · rcases List.mem_cons.mp hf with rfl | hf
      · refine ⟨le_refl _,?_,h.balanced⟩
        have hself : s.db.revertToSnapshot s.db.snapshot = s.db :=
          UndoLog.revertTo_depth (L := journalLog A X) s.db
        dsimp only [TxState.next]
        rw [hself]
        exact h.coherent
      · exact h.frames f hf
    · exact List.pairwise_cons.mpr ⟨fun f hf => (h.frames f hf).1,h.nested⟩
  | leave =>
    exact ⟨h.sound,h.coherent,h.balanced,fun f hf => h.frames f (List.mem_of_mem_tail hf),
      h.nested.sublist (List.tail_sublist s.frames)⟩
  | revert => exact h.revert

theorem start (h : TxStart s) : TxInv s := by
  obtain ⟨⟨keeper,hasAccount,hdb,hempty⟩,hworld,hframes,hmoved⟩ := h
  refine ⟨?_,?_,?_,by simp [hframes],by simp [hframes]⟩
  · rw [hdb]
    exact Sound.of_journal_nil rfl
  · rw [hdb,hworld,hmoved]
    exact coherent_start keeper s.initial hasAccount hempty
  · rw [hworld]
    simp [World.Balanced,World.visible,World.start,Multistore.supply]

end TxInv

/-- In a transaction whose precompile calls mirror what they move, and that leaves moved
accounts alone, Commit writes the store that executing all effects in program order gives,
and the supply changes by what precompiles minted and burned and self-destructs destroyed. -/
theorem commit_in_program_order {s : TxState A X}
    (h : Reachable TxStart (TxStep TxState.Mirrored) s) {store : Multistore A X}
    (hcommit : s.db.commit = .ok () store) :
    store = s.world.store ∧
      store.supply = s.initial.supply+s.world.minted-s.world.lost := by
  have hinv : TxInv s := h.invariant (fun _ => TxInv.start) (by
    rintro s _ hinv ⟨op,hpossible,hmirrored,rfl⟩
    exact hinv.step hpossible hmirrored)
  have hstore : store = s.world.store := by
    rw [hinv.coherent.store_eq]
    exact commitWithCtx_eq_ok (fun _ => hinv.sound.live_of_dirty) hcommit
  refine ⟨hstore,?_⟩
  have hbalanced := hinv.balanced
  unfold World.Balanced at hbalanced
  rw [sum_visible fun a => (hinv.coherent.on a).gone] at hbalanced
  rw [hstore,World.lost]
  omega

section Example

/-- Pools and modules from 3 on; the signer at 0 is owed `rewards`. -/
def sampleStaking (rewards : Int) : StakingKeeper (Fin 7) Unit where
  bondedPool := 3
  notBondedPool := 5
  distribution := 4
  rewards _ a := if a = 0 then rewards else 0
  withdrawAddress _ a := a
  authorized _ _ _ _ _ := true
  record _ _ _ other := other
  gasUsed _ := 0

def stakingPrecompile (rewards : Int) : Precompile (Fin 7) Unit :=
  (sampleStaking rewards).precompile 2 (fun _ => some "delegate") fun _ => some (0,40)

def delegateCall : Contract (Fin 7) := ⟨.call,0,1,0,[1,2,3,4],100,0⟩

def sampleStore : Multistore (Fin 7) Unit :=
  ⟨fun a => ⟨if a = 0 then 100 else if a = 4 then 10 else 0,fun _ => 0⟩,()⟩

def sampleStart : TxState (Fin 7) Unit where
  initial := sampleStore
  db := new ⟨6,fun a => 2 ≤ a⟩ sampleStore fun a => a ≠ 2
  world := World.start sampleStore
  frames := []
  moved := ∅

theorem sampleStart_start : TxStart sampleStart :=
  ⟨⟨_,_,rfl,by decide⟩,rfl,rfl,rfl⟩

def beforeCall : TxState (Fin 7) Unit :=
  (sampleStart.next (.setState 1 0 7)).next (.transfer 0 1 5)

def stakingTx (rewards : Int) : TxState (Fin 7) Unit :=
  beforeCall.next (.precompile (stakingPrecompile rewards) delegateCall)

def committedStore (s : TxState (Fin 7) Unit) : Multistore (Fin 7) Unit :=
  s.db.commitWithCtx.deliver s.db.multistore

theorem reachable_beforeCall {admits : TxState (Fin 7) Unit → EvmOp (Fin 7) Unit → Prop}
    (hset : ∀ s : TxState (Fin 7) Unit, s.moved = ∅ → admits s (.setState 1 0 7))
    (htransfer : ∀ s : TxState (Fin 7) Unit, s.moved = ∅ → admits s (.transfer 0 1 5)) :
    Reachable TxStart (TxStep admits) beforeCall := by
  have hstored : Reachable TxStart (TxStep admits) (sampleStart.next (.setState 1 0 7)) :=
    (Reachable.start sampleStart_start).next ⟨.setState 1 0 7,trivial,hset sampleStart rfl,rfl⟩
  exact hstored.next ⟨.transfer 0 1 5,trivial,htransfer _ rfl,rfl⟩

theorem mirrored_delegateCall :
    beforeCall.Mirrored (.precompile (stakingPrecompile 0) delegateCall) := by
  refine ⟨fun _ _ => Set.notMem_empty _,Set.notMem_empty _,fun entries store heffect => ?_⟩
  obtain ⟨cost,hrun⟩ := StakingKeeper.effect_delegate (by decide +kernel) rfl heffect
  have hentries := (StakingKeeper.stakingMethod_eq_ok hrun).1
  have hclean : ∀ a : Fin 7, 3 ≤ a →
      ¬ ((stakingPrecompile 0).enter delegateCall beforeCall.db).dirty a := by decide +kernel
  have hheld : ∀ a : Fin 7, 3 ≤ a → ¬ Held (stakingPrecompile 0) entries
      ((stakingPrecompile 0).enter delegateCall beforeCall.db) a := by
    rintro a ha (hd | rfl | ⟨e,he,rfl⟩)
    · exact hclean a ha hd
    · exact absurd ha (by decide)
    · rw [hentries] at he
      rw [List.mem_singleton.mp he] at ha
      exact absurd ha (by decide)
  exact (StakingKeeper.delegate_mirrors_iff hrun (by decide) rfl (hheld _ (by decide))
    (hheld _ (by decide)) (Set.notMem_empty _) (Set.notMem_empty _)).mpr rfl

theorem commit_in_program_order_stakingTx :
    (stakingTx 0).db.commit = .ok () (committedStore (stakingTx 0)) ∧
      committedStore (stakingTx 0) = (stakingTx 0).world.store ∧
      (committedStore (stakingTx 0)).supply =
        (stakingTx 0).initial.supply+(stakingTx 0).world.minted-(stakingTx 0).world.lost := by
  have hbefore : Reachable TxStart (TxStep TxState.Mirrored) beforeCall :=
    reachable_beforeCall (fun s hs => show (1 : Fin 7) ∉ s.moved by simp [hs])
      fun s hs => ⟨fun _ => by simp [hs],fun _ => by simp [hs]⟩
  have hreturns : ((stakingPrecompile 0).call delegateCall).returned beforeCall.db = some () := by
    decide +kernel
  have hcommit : (stakingTx 0).db.commit = .ok () (committedStore (stakingTx 0)) :=
    eq_ok_deliver (by decide +kernel)
  exact ⟨hcommit,commit_in_program_order
    (hbefore.next ⟨.precompile (stakingPrecompile 0) delegateCall,hreturns,
      mirrored_delegateCall,rfl⟩) hcommit⟩

/-- The signer is paid ten coins of rewards in the call, and Commit takes them away again. -/
theorem rewards_overwritten :
    Reachable TxStart (TxStep fun _ _ => True) (stakingTx 10) ∧
      (stakingTx 10).db.commit = .ok () (committedStore (stakingTx 10)) ∧
      ((committedStore (stakingTx 10)).account 0).balance = 55 ∧
      ((stakingTx 10).world.store.account 0).balance = 65 ∧
      (committedStore (stakingTx 10)).supply = 100 ∧
      (stakingTx 10).initial.supply+(stakingTx 10).world.minted-(stakingTx 10).world.lost =
        110 := by
  have hbefore : Reachable TxStart (TxStep fun _ _ => True) beforeCall :=
    reachable_beforeCall (fun _ _ => trivial) fun _ _ => trivial
  have hreturns : ((stakingPrecompile 10).call delegateCall).returned beforeCall.db = some () := by
    decide +kernel
  exact ⟨hbefore.next ⟨.precompile (stakingPrecompile 10) delegateCall,hreturns,trivial,rfl⟩,
    eq_ok_deliver (by decide +kernel),
    by decide +kernel,by decide +kernel,by decide +kernel,by decide +kernel⟩

end Example

end Atoshi.Evm
