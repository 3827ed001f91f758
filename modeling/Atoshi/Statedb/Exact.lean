import Atoshi.Statedb.Keeper
import Atoshi.Statedb.Residue

namespace Atoshi.Statedb
open List Option Nat

/-! Reverting to a snapshot gives back all that can be read. What a commit writes is given back
unless a slot or the code of an account that was dirty at the snapshot has been written for the
first time since. -/

variable {A C : Type} [LinearOrder A]

namespace StateDB

variable {B : Backend A C} {db db' : StateDB A C}

/-- Newer revisions have larger identifiers and longer journals. -/
structure Revised (db : StateDB A C) : Prop where
  ordered : db.validRevisions.Pairwise fun r q => r.id < q.id ∧ r.journalIndex ≤ q.journalIndex
  bounded : ∀ r ∈ db.validRevisions,
    r.id < db.nextRevisionID ∧ r.journalIndex ≤ db.journal.length

variable {r : Revision} {older newer : List Revision}

theorem Revised.split (h : Revised db) (hsplit : db.validRevisions = older ++ r :: newer) :
    (∀ q ∈ older, q.id < r.id ∧ q.journalIndex ≤ r.journalIndex) ∧
      (∀ q ∈ newer, r.id < q.id ∧ r.journalIndex ≤ q.journalIndex) ∧
      r.id < db.nextRevisionID ∧ r.journalIndex ≤ db.journal.length := by
  have hordered := h.ordered
  rw [hsplit] at hordered
  obtain ⟨-,hcons,hcross⟩ := pairwise_append.mp hordered
  exact ⟨fun q hq => hcross q hq r mem_cons_self,(pairwise_cons.mp hcons).1,
    h.bounded r (by simp [hsplit])⟩

theorem findIdx_split (newer : List Revision) (h : ∀ q ∈ older, q.id < r.id) :
    (older ++ r :: newer).findIdx (fun q => decide (r.id ≤ q.id)) = older.length := by
  induction older with
  | nil => simp [findIdx_cons]
  | cons q rest ih =>
    have hq : ¬ r.id ≤ q.id := not_le.mpr (h q mem_cons_self)
    rw [cons_append,findIdx_cons,ih fun p hp => h p (mem_cons_of_mem q hp)]
    simp [hq]

theorem revertToSnapshot_of_split (hs : Sound B db)
    (hr : Revised db) (hsplit : db.validRevisions = older ++ r :: newer) :
    db.revertToSnapshot B r.id =
      some { (journalLog B).revertTo r.journalIndex db with validRevisions := older } := by
  obtain ⟨holder,-,-,hindex⟩ := hr.split hsplit
  have hidx := findIdx_split newer fun q hq => (holder q hq).1
  have hrevert := revertJournal_eq (db.journal.length-r.journalIndex) hs (Nat.sub_le _ _)
  have hframe := SameFrame.iterate (db.journal.length-r.journalIndex) hs (Nat.sub_le _ _)
  unfold revertToSnapshot
  rw [hsplit]
  simp only [hidx,getElem?_append_right (Nat.le_refl _),Nat.sub_self,getElem?_cons_zero,
    if_true,hrevert,map_some,hframe.validRevisions,hsplit,take_left]
  rfl

theorem split_of_revertToSnapshot {revid : Nat} (h : db.revertToSnapshot B revid = some db') :
    ∃ older r newer, db.validRevisions = older ++ r :: newer ∧ r.id = revid := by
  unfold revertToSnapshot at h
  dsimp only at h
  split at h
  · cases h
  · rename_i r hget
    split at h
    · rename_i hid
      obtain ⟨older,newer,hsplit⟩ := append_of_mem (mem_of_getElem? hget)
      exact ⟨older,r,newer,hsplit,hid⟩
    · cases h

variable (B) in
structure Healthy (db : StateDB A C) : Prop where
  sound : Sound B db
  coherent : Coherent B db
  revised : Revised db

theorem Healthy.revert_eq_some {revid : Nat} (h : Healthy B db)
    (hr : db.revertToSnapshot B revid = some db') :
    ∃ older r newer, db.validRevisions = older ++ r :: newer ∧ r.id = revid ∧
      db' = { (journalLog B).revertTo r.journalIndex db with validRevisions := older } := by
  obtain ⟨older,r,newer,hsplit,rfl⟩ := split_of_revertToSnapshot hr
  rw [revertToSnapshot_of_split h.sound h.revised hsplit] at hr
  exact ⟨older,r,newer,hsplit,rfl,(some.inj hr).symm⟩

theorem healthy_new (ctx : C) (txConfig : TxConfig) :
    Healthy B (new ctx txConfig : StateDB A C) where
  sound := sound_new ctx txConfig
  coherent := Coherent.new ctx txConfig
  revised := ⟨List.Pairwise.nil,fun r hr => by cases hr⟩

theorem Healthy.undoable {δ : A → Trace} (h : Healthy B db) (hm : Moves B δ db db') :
    Healthy B db' ∧ Undoable B db db' := by
  induction hm with
  | refl => exact ⟨h,.of_ext h.sound (.refl _)⟩
  | @tail δ _ mid last _ hmove ih =>
    obtain ⟨hmid,hback⟩ := ih h
    have hundo := hmove.undoable hmid.sound
    have hframe := hmove.frame
    refine ⟨⟨hundo.sound,hmid.coherent.move hmove,?_,fun r hr => ?_⟩,hback.trans hundo⟩
    · rw [hframe.validRevisions]
      exact hmid.revised.ordered
    · rw [hframe.validRevisions] at hr
      obtain ⟨hid,hindex⟩ := hmid.revised.bounded r hr
      rw [hframe.nextRevisionID]
      exact ⟨hid,hindex.trans hmove.length_le⟩

theorem Healthy.snapshot (h : Healthy B db) : Healthy B db.snapshot.2 := by
  refine ⟨h.sound.ext (.withRevisions _ _ db),⟨h.coherent.object,h.coherent.entry⟩,?_,
    fun r hr => ?_⟩
  · refine pairwise_append.mpr ⟨h.revised.ordered,pairwise_singleton _ _,fun r hr q hq => ?_⟩
    rw [mem_singleton.mp hq]
    exact h.revised.bounded r hr
  · have hnext : db.snapshot.2.nextRevisionID = db.nextRevisionID+1 := rfl
    rcases mem_append.mp hr with hr | hr
    · obtain ⟨hid,hindex⟩ := h.revised.bounded r hr
      exact ⟨by omega,hindex⟩
    · rw [mem_singleton.mp hr]
      exact ⟨lt_succ_self _,le_refl _⟩

theorem Healthy.revertTo (h : Healthy B db) (hsplit : db.validRevisions = older ++ r :: newer) :
    Healthy B { (journalLog B).revertTo r.journalIndex db with validRevisions := older } := by
  obtain ⟨holder,-,-,hindex⟩ := h.revised.split hsplit
  have hle : db.journal.length-r.journalIndex ≤ db.journal.length := sub_le _ _
  have hframe := SameFrame.iterate _ h.sound hle
  have hsound : Sound B ((journalLog B).revertTo r.journalIndex db) :=
    UndoLog.sound_revertTo (L := journalLog B) _ h.sound
  have hcoherent := h.coherent.iterate _ h.sound hle
  have hlen : ((journalLog B).revertTo r.journalIndex db).journal.length = r.journalIndex :=
    UndoLog.depth_revertTo (L := journalLog B) hindex
  refine ⟨hsound.ext (.withRevisions _ _ _),⟨hcoherent.object,hcoherent.entry⟩,?_,
    fun q hq => ?_⟩
  · have hordered := h.revised.ordered
    rw [hsplit] at hordered
    exact (pairwise_append.mp hordered).1
  · obtain ⟨hid,-⟩ := h.revised.bounded q (by simp [hsplit,hq])
    refine ⟨?_,?_⟩
    · change q.id < ((journalLog B).revertTo r.journalIndex db).nextRevisionID
      rw [UndoLog.revertTo,show (journalLog B).pop = pop B from rfl]
      exact hframe.nextRevisionID.symm ▸ hid
    · change q.journalIndex ≤ ((journalLog B).revertTo r.journalIndex db).journal.length
      rw [hlen]
      exact (holder q hq).2

theorem Healthy.apply {op : Op A C} (h : Healthy B db) (ha : op.apply B db = some db') :
    Healthy B db' := by
  rcases apply_cases h.sound ha with ⟨-,rfl⟩ | ⟨revid,-,hr⟩ | ⟨a,key,value,-,-,hm⟩ | ⟨a,code,-,hm⟩ |
    ⟨-,hm⟩
  · exact h.snapshot
  · obtain ⟨older,r,newer,hsplit,-,rfl⟩ := h.revert_eq_some hr
    exact h.revertTo hsplit
  · exact (h.undoable hm.moves).1
  · exact (h.undoable hm.moves).1
  · exact (h.undoable hm).1

variable (B) in
/-- `t` has come from `s` after a snapshot that is still on the stack. -/
structure Within (s t : StateDB A C) : Prop where
  healthy : Healthy B t
  back : (journalLog B).RollsBack s t
  stack : ∃ later, t.validRevisions =
    s.validRevisions ++ ⟨s.nextRevisionID,s.journal.length⟩ :: later

variable {s t t' : StateDB A C} {op : Op A C}

theorem Within.start (h : Healthy B s) : Within B s s.snapshot.2 where
  healthy := h.snapshot
  back := .of_ext rfl (.withRevisions _ _ s)
  stack := ⟨[],rfl⟩

theorem Within.length_le (h : Within B s t) : s.journal.length ≤ t.journal.length :=
  h.back.depth_le (L := journalLog B)

theorem Within.moves {δ : A → Trace} (h : Within B s t) (hm : Moves B δ t t') : Within B s t' := by
  obtain ⟨hhealthy,hundo⟩ := h.healthy.undoable hm
  refine ⟨hhealthy,h.back.trans h.healthy.sound hundo.back,?_⟩
  rw [hm.frame.validRevisions]
  exact h.stack

theorem Within.later (h : Within B s t)
    (hsplit : t.validRevisions = older ++ r :: newer) (hid : s.nextRevisionID < r.id) :
    s.journal.length ≤ r.journalIndex ∧
      ∃ later, older = s.validRevisions ++ ⟨s.nextRevisionID,s.journal.length⟩ :: later := by
  obtain ⟨later,hstack⟩ := h.stack
  obtain ⟨holder,hlater,-,-⟩ := h.healthy.revised.split hstack
  obtain ⟨-,hnewer,-,-⟩ := h.healthy.revised.split hsplit
  have hmem : (⟨s.nextRevisionID,s.journal.length⟩ : Revision) ∈ older := by
    have hin : (⟨s.nextRevisionID,s.journal.length⟩ : Revision) ∈ older ++ r :: newer := by
      rw [← hsplit,hstack]
      simp
    rcases mem_append.mp hin with hin | hin
    · exact hin
    · rcases mem_cons.mp hin with heq | hin
      · rw [← heq] at hid
        exact absurd hid (lt_irrefl _)
      · exact absurd (hnewer _ hin).1 (not_lt.mpr (le_of_lt hid))
  refine ⟨((h.healthy.revised.split hsplit).1 _ hmem).2,?_⟩
  rw [hstack] at hsplit
  rcases append_eq_append_iff.mp hsplit with ⟨c,hc,hrest⟩ | ⟨c,hc,hrest⟩
  · cases c with
    | nil =>
      obtain ⟨heq,-⟩ := cons.inj hrest
      rw [← heq] at hid
      exact absurd hid (lt_irrefl _)
    | cons q rest =>
      obtain ⟨heq,-⟩ := cons.inj hrest
      exact ⟨rest,by rw [hc,heq]⟩
  · have hr : r ∈ s.validRevisions := by
      cases c with
      | nil =>
        obtain ⟨heq,-⟩ := cons.inj hrest
        rw [heq] at hid
        exact absurd hid (lt_irrefl _)
      | cons q rest =>
        obtain ⟨heq,-⟩ := cons.inj hrest
        rw [hc,heq]
        simp
    exact absurd hid (not_lt.mpr (le_of_lt (holder r hr).1))

theorem Within.revertTo (h : Within B s t)
    (hsplit : t.validRevisions = older ++ r :: newer) (hid : s.nextRevisionID < r.id) :
    Within B s { (journalLog B).revertTo r.journalIndex t with validRevisions := older } := by
  obtain ⟨hindex,hstack⟩ := h.later hsplit hid
  have hle := (h.healthy.revised.split hsplit).2.2.2
  have hback := h.back.of_revertTo (L := journalLog B) hindex hle
  have hsound : Sound B ((journalLog B).revertTo r.journalIndex t) :=
    UndoLog.sound_revertTo (L := journalLog B) _ h.healthy.sound
  exact ⟨h.healthy.revertTo hsplit,hback.trans hsound (.of_ext rfl (.withRevisions _ _ _)),hstack⟩

end StateDB

/-- Not a revert to the snapshot of this identifier or to an older one. -/
def Op.Inside (id : Nat) : Op A C → Prop
  | .revertToSnapshot revid => id < revid
  | _ => True

namespace StateDB

variable {B : Backend A C} {s t t' : StateDB A C} {op : Op A C}

variable {δ : Trace} {db u : StateDB A C}

theorem Within.apply (h : Within B s t) (hop : op.Inside s.nextRevisionID)
    (ha : op.apply B t = some t') : Within B s t' := by
  rcases apply_cases h.healthy.sound ha with ⟨-,rfl⟩ | ⟨revid,rfl,hr⟩ | ⟨a,key,value,-,-,hm⟩ |
    ⟨a,code,-,hm⟩ | ⟨-,hm⟩
  · obtain ⟨later,hstack⟩ := h.stack
    refine ⟨h.healthy.snapshot,h.back.trans h.healthy.sound (.of_ext rfl (.withRevisions _ _ t)),
      later ++ [⟨t.nextRevisionID,t.journal.length⟩],?_⟩
    simp [snapshot,hstack]
  · obtain ⟨older,r,newer,hsplit,rfl,rfl⟩ := h.healthy.revert_eq_some hr
    exact h.revertTo hsplit hop
  · exact h.moves hm.moves
  · exact h.moves hm.moves
  · exact h.moves hm

/-- The account is written by a commit at the snapshot and still has the object it had. -/
def Exposed (B : Backend A C) (s t : StateDB A C) (a : A) : Prop :=
  a ∈ s.journal.sortedDirties ∧ s.hasSuicided B a = false ∧
    ∀ e ∈ t.newer s.journal.length, ¬ e.replaces a

def slotDirty (s : StateDB A C) (a : A) (key : Hash) : Bool :=
  ((s.stateObjects a).bind fun o => o.dirtyStorage.get key).isSome

def codeDirty (s : StateDB A C) (a : A) : Bool :=
  ((s.stateObjects a).map fun o => o.dirtyCode).getD false

/-- The operation does not write a slot or the code of an exposed account that the commit at
the snapshot would not write: not the slot it has the value of already, and not the code of an
account without code. -/
def Harmless (B : Backend A C) (s t : StateDB A C) : Op A C → Prop
  | .setState a key value =>
    Exposed B s t a → t.getState B a key = value ∨ s.slotDirty a key = true
  | .setCode a _ => Exposed B s t a → s.codeDirty a = true ∨ s.getCode B a = none
  | _ => True

def cover (B : Backend A C) (s : StateDB A C) (a : A) : Trace :=
  ({key | s.slotDirty a key = true},s.codeDirty a = true ∨ s.getCode B a = none)

def Covered (B : Backend A C) (s t : StateDB A C) : Prop :=
  ∀ a ∈ s.journal.sortedDirties, s.hasSuicided B a = false →
    t.residue s.journal.length a ≤ s.cover B a

theorem trace_le_cover (s : StateDB A C) (a : A) : s.trace a ≤ s.cover B a := by
  cases ho : s.stateObjects a with
  | none =>
    rw [trace_of_none ho]
    exact bot_le
  | some o =>
    refine ⟨fun key hkey => ?_,fun hcode => .inl ?_⟩
    · simpa [trace,StateObject.trace,cover,slotDirty,ho,isSome_iff_ne_none] using hkey
    · simpa [trace,StateObject.trace,codeDirty,ho] using hcode

theorem Within.live {a : A} (h : Within B s t) (ha : a ∈ s.journal.sortedDirties) :
    t.stateObjects a ≠ none := by
  obtain ⟨n,hn,hext⟩ := h.back
  have hle : n ≤ t.journal.length := by
    change t.journal.length = s.journal.length+n at hn
    omega
  have hentries : t.journal.entries.drop n = s.journal.entries := by
    rw [← entries_iterate n h.healthy.sound hle]
    exact congrArg Journal.entries hext.journal
  obtain ⟨e,he,hda⟩ := s.journal.mem_sortedDirties.mp ha
  rw [← hentries] at he
  exact h.healthy.sound.ready.live a
    (t.journal.mem_sortedDirties.mpr ⟨e,mem_of_mem_drop he,hda⟩)

theorem Within.residue_marks {a b : A} (h : Within B s t) (hm : Marks B b δ t t')
    (ha : a ∈ s.journal.sortedDirties) :
    t'.residue s.journal.length a =
      if a = b ∧ ∀ e ∈ t.newer s.journal.length, ¬ e.replaces a
      then t.residue s.journal.length a ⊔ δ else t.residue s.journal.length a := by
  by_cases hab : a = b
  · subst hab
    obtain ⟨mid,-,hmid,hmove⟩ := hm
    obtain rfl := hmid (h.live ha)
    rw [hmove.residue h.length_le,Function.update_self]
    by_cases hrep : ∀ e ∈ mid.newer s.journal.length, ¬ e.replaces a
    · rw [if_pos ⟨rfl,hrep⟩,unwinds_sup hrep]
      rfl
    · rw [if_neg fun hc => hrep hc.2]
      exact unwinds_sup_of_replaces (by simpa using hrep) _ _
  · rw [if_neg fun hc => hab hc.1]
    exact hm.moves.residue_of_bot h.length_le (Function.update_of_ne hab _ _)

theorem Within.residue_revertTo {older newer : List Revision} {r : Revision} (h : Within B s t)
    (hsplit : t.validRevisions = older ++ r :: newer) (hid : s.nextRevisionID < r.id) (a : A) :
    residue s.journal.length
      { (journalLog B).revertTo r.journalIndex t with validRevisions := older } a =
      t.residue s.journal.length a := by
  have hindex := (h.later hsplit hid).1
  have hle := (h.healthy.revised.split hsplit).2.2.2
  exact residue_iterate (t.journal.length-r.journalIndex) h.healthy.sound (by omega) a

theorem Within.covered_marks {b : A} (h : Within B s t) (hm : Marks B b δ t t') :
    Covered B s t' ↔ Covered B s t ∧ (Exposed B s t b → δ ≤ s.cover B b) := by
  constructor
  · intro hc
    refine ⟨fun a ha hsui => ?_,fun ⟨hb,hsui,hrep⟩ => ?_⟩
    · have hle := hc a ha hsui
      rw [h.residue_marks hm ha] at hle
      split at hle
      · exact le_sup_left.trans hle
      · exact hle
    · have hle := hc b hb hsui
      rw [h.residue_marks hm hb,if_pos ⟨rfl,hrep⟩] at hle
      exact le_sup_right.trans hle
  · rintro ⟨hc,hb⟩ a ha hsui
    rw [h.residue_marks hm ha]
    split
    · rename_i hab
      obtain ⟨rfl,hrep⟩ := hab
      exact sup_le (hc a ha hsui) (hb ⟨ha,hsui,hrep⟩)
    · exact hc a ha hsui

theorem covered_of_eq (h : ∀ a, t'.residue s.journal.length a = t.residue s.journal.length a) :
    Covered B s t' ↔ Covered B s t := by
  simp only [Covered,h]

theorem Within.covered_apply (h : Within B s t) (hop : op.Inside s.nextRevisionID)
    (ha : op.apply B t = some t') : Covered B s t' ↔ Covered B s t ∧ Harmless B s t op := by
  rcases apply_cases h.healthy.sound ha with ⟨rfl,rfl⟩ | ⟨revid,rfl,hr⟩ | ⟨a,key,value,rfl,hv,hm⟩ |
    ⟨a,code,rfl,hm⟩ | ⟨hq,hm⟩
  · exact (covered_of_eq fun _ => rfl).trans (and_iff_left trivial).symm
  · obtain ⟨older,r,newer,hsplit,rfl,rfl⟩ := h.healthy.revert_eq_some hr
    exact (covered_of_eq (h.residue_revertTo hsplit hop)).trans (and_iff_left trivial).symm
  · rw [h.covered_marks hm]
    refine and_congr_right fun _ => forall_congr' fun hexp => ?_
    have hlive := h.live hexp.1
    rw [slotBefore_of_live hlive] at hv
    simp [cover,hv]
  · rw [h.covered_marks hm]
    refine and_congr_right fun _ => forall_congr' fun hexp => ?_
    simp [cover]
  · rw [covered_of_eq fun a => hm.residue_of_bot h.length_le rfl]
    refine (and_iff_left ?_).symm
    rcases hq with hq | ⟨a,key,value,rfl,hv⟩
    · cases op with
      | setState | setCode => cases hq
      | _ => trivial
    · exact fun hexp => .inl (slotBefore_of_live (h.live hexp.1) key ▸ hv)

theorem Within.residue_apply {a : A} (h : Within B s t) (hop : op.Inside s.nextRevisionID)
    (ha : op.apply B t = some t') (hd : a ∈ s.journal.sortedDirties) :
    t.residue s.journal.length a ≤ t'.residue s.journal.length a := by
  have hmarks : ∀ {b δ}, Marks B b δ t t' →
      t.residue s.journal.length a ≤ t'.residue s.journal.length a := by
    intro b δ hm
    rw [h.residue_marks hm hd]
    split
    · exact le_sup_left
    · exact le_rfl
  rcases apply_cases h.healthy.sound ha with ⟨-,rfl⟩ | ⟨revid,rfl,hr⟩ | ⟨b,key,value,-,-,hm⟩ |
    ⟨b,code,-,hm⟩ | ⟨-,hm⟩
  · exact le_rfl
  · obtain ⟨older,r,newer,hsplit,rfl,rfl⟩ := h.healthy.revert_eq_some hr
    exact (h.residue_revertTo hsplit hop a).ge
  · exact hmarks hm
  · exact hmarks hm
  · exact (hm.residue_of_bot h.length_le rfl).ge

def AllHarmless (B : Backend A C) (s : StateDB A C) : List (Op A C) → StateDB A C → Prop
  | [],_ => True
  | op :: rest,t => Harmless B s t op ∧ ∀ t', op.apply B t = some t' → AllHarmless B s rest t'

theorem Within.run {ops : List (Op A C)} (h : Within B s t)
    (hops : ∀ op ∈ ops, op.Inside s.nextRevisionID) (hr : run B ops t = some t') :
    Within B s t' ∧ (Covered B s t' ↔ Covered B s t ∧ AllHarmless B s ops t) ∧
      ∀ a ∈ s.journal.sortedDirties,
        t.residue s.journal.length a ≤ t'.residue s.journal.length a := by
  induction ops generalizing t with
  | nil =>
    cases hr
    exact ⟨h,(and_iff_left trivial).symm,fun a _ => le_rfl⟩
  | cons op rest ih =>
    obtain ⟨mid,happ,hrest⟩ := bind_eq_some_iff.mp hr
    have hop := hops op mem_cons_self
    obtain ⟨hw,hcov,hres⟩ := ih (h.apply hop happ)
      (fun q hq => hops q (mem_cons_of_mem op hq)) hrest
    have hall : AllHarmless B s (op :: rest) t ↔ Harmless B s t op ∧ AllHarmless B s rest mid := by
      simp [AllHarmless,happ]
    refine ⟨hw,?_,fun a ha => (h.residue_apply hop happ ha).trans (hres a ha)⟩
    rw [hcov,h.covered_apply hop happ,hall,and_assoc]

theorem mapM_eq_some {X Y : Type} {f : X → Option Y} {g : X → Y} {l : List X}
    (h : ∀ x ∈ l, f x = some (g x)) : l.mapM f = some (l.map g) := by
  induction l with
  | nil => rfl
  | cons x rest ih =>
    rw [mapM_cons,h x mem_cons_self,ih fun y hy => h y (mem_cons_of_mem x hy)]
    rfl

def accountWrites (db : StateDB A C) (a : A) : List (Write A) :=
  ((db.stateObjects a).map fun o => o.writes a).getD []

theorem pendingWrites_eq (h : Ready B db) :
    db.pendingWrites = some (db.journal.sortedDirties.flatMap db.accountWrites) := by
  have hmap : db.journal.sortedDirties.mapM
      (fun a => (db.stateObjects a).map fun o => o.writes a) =
        some (db.journal.sortedDirties.map db.accountWrites) := by
    refine mapM_eq_some fun a ha => ?_
    cases ho : db.stateObjects a with
    | none => exact absurd ho (h.live a ha)
    | some o => simp [accountWrites,ho]
  rw [pendingWrites,hmap,flatMap_def]
  rfl

/-- The state a revert gives back writes what the snapshot would, exactly if it is covered. -/
theorem pendingWrites_eq_iff (hs : Healthy B s) (hu : Healthy B u)
    (hext : Ext B s u) (hgrown : ∀ a ∈ s.journal.sortedDirties, s.trace a ≤ u.trace a) :
    u.pendingWrites = s.pendingWrites ↔ ∀ a ∈ s.journal.sortedDirties,
      s.hasSuicided B a = false → u.trace a ≤ s.cover B a := by
  have hobject : ∀ a ∈ s.journal.sortedDirties,
      (s.accountWrites a).Sublist (u.accountWrites a) ∧
        (u.accountWrites a = s.accountWrites a ↔
          (s.hasSuicided B a = false → u.trace a ≤ s.cover B a)) := by
    intro a ha
    cases ho : s.stateObjects a with
    | none => exact absurd ho (hs.sound.ready.live a ha)
    | some o =>
      have hlive := hext.live a (by simp [ho])
      cases ho' : u.stateObjects a with
      | none => exact absurd ho' hlive
      | some o' =>
        have hview := hext.view a
        rw [view_of_find (find_of_some ho),view_of_find (find_of_some ho'),hext.ctx] at hview
        have hgrow := hgrown a ha
        simp only [trace,ho,ho',map_some,getD_some] at hgrow
        have hwrites := StateObject.writes_sublist (some.inj hview) hgrow
          (hs.coherent.object a o ho) (hext.ctx ▸ hu.coherent.object a o' ho')
        have hcover : s.cover B a = o.cover B s.ctx := by
          simp [cover,StateObject.cover,slotDirty,codeDirty,getCode,getStateObject,ho,
            isSome_iff_ne_none]
        simpa [accountWrites,ho,ho',trace,hasSuicided,getStateObject,hcover] using hwrites
  have hflat := sublist_flatMap_eq fun a ha => (hobject a ha).1
  rw [pendingWrites_eq hs.sound.ready,pendingWrites_eq hu.sound.ready,hext.journal,some.injEq,
    hflat.2]
  exact forall₂_congr fun a ha => (hobject a ha).2

structure SameReads (B : Backend A C) (s u : StateDB A C) : Prop where
  balance : ∀ a, u.getBalance B a = s.getBalance B a
  nonce : ∀ a, u.getNonce B a = s.getNonce B a
  code : ∀ a, u.getCode B a = s.getCode B a
  codeSize : ∀ a, u.getCodeSize B a = s.getCodeSize B a
  codeHash : ∀ a, u.getCodeHash B a = s.getCodeHash B a
  state : ∀ a key, u.getState B a key = s.getState B a key
  committedState : ∀ a key, u.getCommittedState B a key = s.getCommittedState B a key
  suicided : ∀ a, u.hasSuicided B a = s.hasSuicided B a
  exist : ∀ a, u.exist B a = s.exist B a
  empty : ∀ a, u.empty B a = s.empty B a
  refund : u.refund = s.refund
  logs : u.logs = s.logs
  address : ∀ a, u.addressInAccessList a = s.addressInAccessList a
  slot : ∀ a slot, u.slotInAccessList a slot = s.slotInAccessList a slot

theorem Ext.read (h : Ext B s u) (a : A) {X : Type} (f : View → X) :
    ((u.getStateObject B a).1.map fun o => f (o.view B u.ctx a)) =
      (s.getStateObject B a).1.map fun o => f (o.view B s.ctx a) := by
  have hview := congrArg (Option.map f) (h.view a)
  simpa [StateDB.view,getStateObject_fst,Function.comp_def] using hview

theorem Ext.sameReads (h : Ext B s u) : SameReads B s u := by
  have hjoin : ∀ (x : Option StateObject) (f : StateObject → Option Bytes),
      x.bind f = (x.map f).join := by
    intro x f
    cases x <;> rfl
  have hcode : ∀ a, u.getCode B a = s.getCode B a := by
    intro a
    rw [getCode,getCode,hjoin,hjoin]
    exact congrArg Option.join (h.read a fun v => v.code)
  exact {
    balance := fun a => congrArg (Option.getD · 0) (h.read a fun v => v.account.balance)
    nonce := fun a => congrArg (Option.getD · 0) (h.read a fun v => v.account.nonce)
    code := hcode
    codeSize := fun a => by rw [getCodeSize,getCodeSize,hcode]
    codeHash := fun a => congrArg (Option.getD · 0) (h.read a fun v => v.account.codeHash)
    state := fun a key => congrArg (Option.getD · 0) (h.read a fun v => v.current key)
    committedState := fun a key => congrArg (Option.getD · 0) (h.read a fun v => v.committed key)
    suicided := fun a => congrArg (Option.getD · false) (h.read a fun v => v.suicided)
    exist := fun a => by
      have hread := congrArg Option.isSome (h.read a fun _ => ())
      simpa [exist] using hread
    empty := fun a => congrArg (Option.getD · true) (h.read a fun v =>
      v.account.nonce = 0 && v.account.balance = 0 && v.account.codeHash = B.emptyCodeHash)
    refund := h.refund
    logs := h.logs
    address := fun a => by rw [addressInAccessList,addressInAccessList,h.accessList]
    slot := fun a slot => by rw [slotInAccessList,slotInAccessList,h.accessList] }

def Valid (B : Backend A C) (db : StateDB A C) (revid : Nat) : Prop :=
  ∃ u, db.revertToSnapshot B revid = some u

theorem Healthy.valid_iff {revid : Nat} (h : Healthy B db) :
    db.Valid B revid ↔ ∃ r ∈ db.validRevisions, r.id = revid := by
  constructor
  · rintro ⟨u,hu⟩
    obtain ⟨older,r,newer,hsplit,hid⟩ := split_of_revertToSnapshot hu
    exact ⟨r,by simp [hsplit],hid⟩
  · rintro ⟨r,hr,rfl⟩
    obtain ⟨older,newer,hsplit⟩ := append_of_mem hr
    exact ⟨_,revertToSnapshot_of_split h.sound h.revised hsplit⟩

/-- What a revert from `t` to the snapshot taken in `s` gives back: the reads, the store a
commit starts from, and the snapshots that are older. -/
structure Restored (B : Backend A C) (s t u : StateDB A C) : Prop where
  reads : SameReads B s u
  multistore : u.multistore = s.multistore
  valid : ∀ revid, u.Valid B revid ↔ t.Valid B revid ∧ revid < s.nextRevisionID

theorem Within.reverts (h : Within B s t) (hs : Healthy B s) :
    ∃ u, t.revertToSnapshot B s.nextRevisionID = some u ∧ Healthy B u ∧ Ext B s u ∧
      Restored B s t u ∧ ∀ a, u.trace a = t.residue s.journal.length a := by
  obtain ⟨later,hstack⟩ := h.stack
  obtain ⟨n,hn,hext⟩ := h.back
  change t.journal.length = s.journal.length+n at hn
  have hrevert := revertToSnapshot_of_split h.healthy.sound h.healthy.revised hstack
  have hhealthy := h.healthy.revertTo hstack
  obtain ⟨-,hlater,-,-⟩ := h.healthy.revised.split hstack
  have hpop : (journalLog B).revertTo s.journal.length t = (pop B)^[n] t := by
    have hdepth : t.journal.length-s.journal.length = n := by omega
    change (pop B)^[t.journal.length-s.journal.length] t = _
    rw [hdepth]
  rw [hpop] at hrevert hhealthy
  have hback : Ext B s { (pop B)^[n] t with validRevisions := s.validRevisions } :=
    hext.trans (.withRevisions _ _ _)
  refine ⟨_,hrevert,hhealthy,hback,⟨hback.sameReads,hback.multistore,fun revid => ?_⟩,fun a => ?_⟩
  · rw [hhealthy.valid_iff,h.healthy.valid_iff,hstack]
    constructor
    · rintro ⟨r,hr,rfl⟩
      exact ⟨⟨r,mem_append_left _ hr,rfl⟩,(hs.revised.bounded r hr).1⟩
    · rintro ⟨⟨r,hr,rfl⟩,hlt⟩
      rcases mem_append.mp hr with hr | hr
      · exact ⟨r,hr,rfl⟩
      · rcases mem_cons.mp hr with rfl | hr
        · exact absurd hlt (lt_irrefl _)
        · exact absurd hlt (not_lt.mpr (le_of_lt (hlater r hr).1))
  · have hlen : ((pop B)^[n] t).journal.length = s.journal.length := by
      rw [length_iterate]
      omega
    have hres := residue_iterate (d := s.journal.length) n h.healthy.sound (by omega) a
    rw [← hres,← hlen]
    exact (residue_self _ a).symm

end StateDB

open StateDB

def Fresh (db : StateDB A C) : Prop := ∃ ctx txConfig, db = new ctx txConfig

def Step (B : Backend A C) (db db' : StateDB A C) : Prop := ∃ op : Op A C, op.apply B db = some db'

theorem healthy_of_reachable {B : Backend A C} {db : StateDB A C}
    (h : Reachable Fresh (Step B) db) : Healthy B db := by
  refine Reachable.invariant ?_ ?_ h
  · rintro _ ⟨ctx,txConfig,rfl⟩
    exact healthy_new ctx txConfig
  · rintro _ _ hdb ⟨op,hop⟩
    exact hdb.apply hop

/-- A commit finds an object for every dirty account and deletes no slot: what was written is
stored with its 32 bytes, zero included. -/
theorem commit_deletes_no_slot {B : Backend A C} {db : StateDB A C}
    (h : Reachable Fresh (Step B) db) :
    ∃ writes, db.pendingWrites = some writes ∧ (∀ a key, Write.deleteState a key ∉ writes) ∧
      ∀ a ∈ db.journal.sortedDirties, ∀ o, db.stateObjects a = some o → o.suicided = false →
        ∀ p ∈ o.dirtyStorage.entries, Write.setState a p.1 (Hash.bytes p.2) ∈ writes := by
  refine ⟨_,pendingWrites_eq (healthy_of_reachable h).sound.ready,fun a key hmem => ?_,?_⟩
  · obtain ⟨b,-,hb⟩ := mem_flatMap.mp hmem
    unfold accountWrites at hb
    cases ho : db.stateObjects b with
    | none => simp [ho] at hb
    | some o => exact deleteState_notMem_writes b a key o (by simpa [ho] using hb)
  · intro a ha o ho hlive p hp
    refine mem_flatMap.mpr ⟨a,ha,?_⟩
    simp only [accountWrites,ho,map_some,getD_some,StateObject.writes,hlive]
    exact mem_append_right _ (mem_cons_of_mem _ (mem_map.mpr ⟨p,hp,by simp [Hash.bytes]⟩))

/-- The revert gives back everything, what a commit would write included. -/
def RevertsExactly (B : Backend A C) (s t : StateDB A C) : Prop :=
  ∃ u, t.revertToSnapshot B s.snapshot.1 = some u ∧ Restored B s t u ∧
    u.pendingWrites = s.pendingWrites

/-- Reverting to a snapshot of any StateDB, after any operations on it, returns and gives back
all reads and the stack of snapshots. What a commit would write comes back as well exactly if
each operation is harmless. -/
theorem revertToSnapshot_exact_iff {B : Backend A C} {s t : StateDB A C}
    (hs : Reachable Fresh (Step B) s) (ops : List (Op A C))
    (hops : ∀ op ∈ ops, op.Inside s.snapshot.1) (hrun : run B ops s.snapshot.2 = some t) :
    (∃ u, t.revertToSnapshot B s.snapshot.1 = some u ∧ Restored B s t u) ∧
      (RevertsExactly B s t ↔ AllHarmless B s ops s.snapshot.2) := by
  have hhealthy := healthy_of_reachable hs
  have hstart := Within.start hhealthy
  obtain ⟨hw,hcov,hres⟩ := hstart.run hops hrun
  obtain ⟨u,hrevert,hu,hext,hrestored,htrace⟩ := hw.reverts hhealthy
  have hself : ∀ a, s.snapshot.2.residue s.journal.length a = s.trace a := residue_self s.snapshot.2
  have hcovered : Covered B s s.snapshot.2 := by
    intro a _ _
    rw [hself]
    exact s.trace_le_cover a
  refine ⟨⟨u,hrevert,hrestored⟩,?_⟩
  have hwrites := pendingWrites_eq_iff hhealthy hu hext fun a ha => by
    rw [htrace,← hself]
    exact hres a ha
  have hiff : u.pendingWrites = s.pendingWrites ↔ AllHarmless B s ops s.snapshot.2 := by
    rw [hwrites]
    simp only [htrace]
    exact hcov.trans (and_iff_right hcovered)
  rw [← hiff]
  constructor
  · rintro ⟨u',hrevert',-,heq⟩
    obtain rfl : u = u' := some.inj (hrevert.symm.trans hrevert')
    exact heq
  · intro heq
    exact ⟨u,hrevert,hrestored,heq⟩

/-! A transaction on an account that holds 10 and has no storage. -/

def sampleHash (bz : Bytes) : Hash := Fin.ofNat (2^256) (bz.length+1)

def sampleBackend : Backend Nat (EvmStore Nat) :=
  ⟨evmKeeper (sampleHash []) fun _ => false,sampleHash,.eighteen⟩

def sampleStore : EvmStore Nat where
  sequence a := if a = 1 then some 4 else none
  balance a := if a = 1 then 10 else 0
  codeHash _ := none
  code _ := none
  storage _ _ := none

def sampleDirty : StateDB Nat (EvmStore Nat) :=
  (new sampleStore ⟨0,0,0,0⟩).addBalance sampleBackend 1 1

theorem sampleDirty_reachable : Reachable Fresh (Step sampleBackend) sampleDirty :=
  .next (.start ⟨sampleStore,⟨0,0,0,0⟩,rfl⟩) ⟨.addBalance 1 1,rfl⟩

/-- A slot is set, and set to zero again. -/
def sampleCleared : StateDB Nat (EvmStore Nat) :=
  (sampleDirty.setState sampleBackend 1 7 5).setState sampleBackend 1 7 0

theorem commit_deletes_no_slot_sampleCleared : ∃ writes,
    sampleCleared.pendingWrites = some writes ∧ (∀ a key, Write.deleteState a key ∉ writes) ∧
      Write.setState 1 7 (List.replicate 32 0) ∈ writes := by
  have hreach : Reachable Fresh (Step sampleBackend) sampleCleared :=
    (sampleDirty_reachable.next ⟨.setState 1 7 5,rfl⟩).next ⟨.setState 1 7 0,rfl⟩
  obtain ⟨writes,hwrites,hnone,hset⟩ := commit_deletes_no_slot hreach
  have hslot := hset 1 (by decide +kernel) _ rfl rfl (7,0) (by decide +kernel)
  exact ⟨writes,hwrites,hnone,by simpa [Hash.bytes] using hslot⟩

/-- Writes to the nonce of the account and, in a nested snapshot, to another one. -/
def sampleOps : List (Op Nat (EvmStore Nat)) :=
  [.setNonce 1 5,.addRefund 100,.snapshot,.setState 2 7 5,.setCode 2 (some [0]),.revertToSnapshot 1]

theorem sampleOps_return : (run sampleBackend sampleOps sampleDirty.snapshot.2).isSome = true := by
  decide +kernel

theorem revertToSnapshot_exact_sampleOps : RevertsExactly sampleBackend sampleDirty
    ((run sampleBackend sampleOps sampleDirty.snapshot.2).get sampleOps_return) := by
  have hother : ∀ t, ¬ Exposed sampleBackend sampleDirty t 2 := by
    intro t h
    have hdirty := h.1
    revert hdirty
    decide +kernel
  refine (revertToSnapshot_exact_iff sampleDirty_reachable sampleOps ?_
    (some_get sampleOps_return).symm).2.mpr ?_
  · intro op hop
    have hid : sampleDirty.snapshot.1 < 1 := by decide +kernel
    simp only [sampleOps,mem_cons,not_mem_nil,or_false] at hop
    rcases hop with rfl | rfl | rfl | rfl | rfl | rfl
    all_goals trivial
  · exact ⟨trivial,fun _ _ => ⟨trivial,fun _ _ => ⟨trivial,fun _ _ =>
      ⟨fun h => absurd h (hother _),fun _ _ => ⟨fun h => absurd h (hother _),fun _ _ =>
        ⟨trivial,fun _ _ => trivial⟩⟩⟩⟩⟩⟩

def committedSlot (db : StateDB Nat (EvmStore Nat)) (a : Nat) (key : Hash) :
    Option (Option Bytes) :=
  match db.commit sampleBackend with
  | .ok _ store => some (store.storage a key)
  | .error _ _ => none

/-- A slot of the dirty account is set and the write is reverted. A commit at the snapshot
writes the account only; after the revert it writes the slot as well, and a slot that was not
in the store is now stored as zero. -/
theorem reverted_slot_is_written : Reachable Fresh (Step sampleBackend) sampleDirty ∧
    sampleDirty.pendingWrites = some [.setAccount 1 ⟨4,11,sampleHash []⟩] ∧
    committedSlot sampleDirty 1 7 = some none ∧
    ∃ t u, run sampleBackend [.setState 1 7 5] sampleDirty.snapshot.2 = some t ∧
      t.revertToSnapshot sampleBackend sampleDirty.snapshot.1 = some u ∧
      u.pendingWrites = some [.setAccount 1 ⟨4,11,sampleHash []⟩,
        .setState 1 7 (List.replicate 32 0)] ∧
      committedSlot u 1 7 = some (some (List.replicate 32 0)) := by
  refine ⟨sampleDirty_reachable,by decide +kernel,by decide +kernel,_,_,rfl,rfl,?_,?_⟩
  all_goals decide +kernel

end Atoshi.Statedb
