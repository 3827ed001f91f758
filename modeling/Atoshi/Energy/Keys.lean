import Atoshi.Bridge.Wire
import Atoshi.Energy.Recharge
import Atoshi.Lib.Encoded
import Mathlib.Data.List.Lex

namespace Atoshi.Energy
open Bridge List

/-! The delegation tables under keys of bytes, and the scans that read them back. -/

local instance byteOrder : LinearOrder UInt8 where
  le_refl := UInt8.le_refl
  le_trans _ _ _ := UInt8.le_trans
  le_antisymm _ _ := UInt8.le_antisymm
  le_total := UInt8.le_total
  lt_iff_le_not_ge _ _ := by simpa [UInt8.not_le] using UInt8.le_of_lt
  toDecidableLE := inferInstance

/-- The bech32 text of an account: letters and digits, and so no slash. -/
@[ext] structure Address where
  text : Bytes
  noSlash : 47 ∉ text

local instance addressOrder : LinearOrder Address :=
  LinearOrder.lift' Address.text fun _ _ => Address.ext

abbrev Delegation := EnergyDelegation Address

def delegationKey (id : Nat) : Bytes := 3 :: lowBytes 8 id

def delegationByExpiryKey (expiresAt : Int) (id : Nat) : Bytes :=
  4 :: (lowBytes 8 (toUint64 expiresAt)++lowBytes 8 id)

/-- The address is closed by a slash, and the id has eight bytes. -/
def indexRow (tag : UInt8) (k : Address ×ₗ Nat) : Bytes :=
  tag :: ((ofLex k).1.text++[47]++lowBytes 8 (ofLex k).2)

def delegationByDelegatorKey (delegator : Address) (id : Nat) : Bytes :=
  indexRow 5 (toLex (delegator,id))

def delegationByDelegateeKey (delegatee : Address) (id : Nat) : Bytes :=
  indexRow 6 (toLex (delegatee,id))

/-- The module's rows, those of one first byte together. -/
structure Tables where
  delegations : Store Bytes Delegation := Store.empty
  byExpiry : Store Bytes Unit := Store.empty
  byDelegator : Store Bytes Unit := Store.empty
  byDelegatee : Store Bytes Unit := Store.empty

namespace Tables

def getDelegation (s : Tables) (id : Nat) : Option Delegation :=
  s.delegations.get (delegationKey id)

def setDelegation (s : Tables) (d : Delegation) : Tables where
  delegations := s.delegations.set (delegationKey d.id) d
  byExpiry := s.byExpiry.set (delegationByExpiryKey d.expiresAt d.id) ()
  byDelegator := s.byDelegator.set (delegationByDelegatorKey d.delegator d.id) ()
  byDelegatee := s.byDelegatee.set (delegationByDelegateeKey d.delegatee d.id) ()

def removeDelegation (s : Tables) (d : Delegation) : Tables where
  delegations := s.delegations.erase (delegationKey d.id)
  byExpiry := s.byExpiry.erase (delegationByExpiryKey d.expiresAt d.id)
  byDelegator := s.byDelegator.erase (delegationByDelegatorKey d.delegator d.id)
  byDelegatee := s.byDelegatee.erase (delegationByDelegateeKey d.delegatee d.id)

/-- The id of an index key is its last eight bytes. -/
def named (s : Tables) (key : Bytes) : Option Delegation :=
  if key.length < 8 then none else s.getDelegation (bigEndian (key.drop (key.length-8)))

/-- The records that are passed on, as long as none of them stops the walk. -/
def iterateDelegationsByIndex (s : Tables) (index : Store Bytes Unit) (pre : Bytes) :
    List Delegation := (index.keys.filter pre.isPrefixOf).filterMap s.named

def iterateDelegationsByDelegator (s : Tables) (delegator : Address) : List Delegation :=
  s.iterateDelegationsByIndex s.byDelegator
    ((delegationByDelegatorKey delegator 0).take (1+delegator.text.length+1))

def iterateDelegationsByDelegatee (s : Tables) (delegatee : Address) : List Delegation :=
  s.iterateDelegationsByIndex s.byDelegatee
    ((delegationByDelegateeKey delegatee 0).take (1+delegatee.text.length+1))

end Tables

/-! Keys of one length are ordered as the numbers they write. -/

variable {l m t : Bytes}

theorem bigEndian_append (l m : Bytes) :
    bigEndian (l++m) = bigEndian l*256^m.length+bigEndian m := by
  induction m using reverseRecOn with
  | nil => simp [bigEndian]
  | append_singleton m b ih =>
    rw [← append_assoc,bigEndian_snoc,ih,bigEndian_snoc,length_append,Nat.pow_add]
    simp
    ring

theorem bigEndian_cons (b : UInt8) (l : Bytes) :
    bigEndian (b :: l) = b.toNat*256^l.length+bigEndian l :=
  (bigEndian_append [b] l).trans (by simp [bigEndian])

theorem bigEndian_lt_of_lt (h : l < m) (hlen : l.length = m.length) :
    bigEndian l < bigEndian m := by
  induction l generalizing m with
  | nil => simp_all [eq_comm]
  | cons b l ih =>
    cases m with
    | nil => cases hlen
    | cons c m =>
      replace hlen : l.length = m.length := by simpa using hlen
      rw [bigEndian_cons,bigEndian_cons,hlen]
      rcases cons_lt_cons_iff.mp h with hhead | ⟨rfl,htail⟩
      · have hl := bigEndian_lt l
        have hmul := Nat.mul_le_mul_right (256^m.length) (UInt8.lt_iff_toNat_lt.mp hhead)
        rw [hlen] at hl
        rw [Nat.succ_mul] at hmul
        omega
      · exact Nat.add_lt_add_left (ih htail hlen) _

theorem lt_of_bigEndian_lt (h : bigEndian l < bigEndian m) (hlen : l.length = m.length) :
    l < m := by
  rcases lt_trichotomy l m with hlt | rfl | hgt
  · exact hlt
  · omega
  · exact absurd (bigEndian_lt_of_lt hgt hlen.symm) (by omega)

/-- A closed text without a slash is not a proper part of another. -/
theorem closed_prefix_iff (hl : 47 ∉ l) (hm : 47 ∉ m) : l++[47] <+: m++47 :: t ↔ l = m := by
  induction l generalizing m with
  | nil => cases m <;> simp_all
  | cons b l ih => cases m <;> simp_all [eq_comm]

@[simp] theorem length_lowBytes (k n : Nat) : (lowBytes k n).length = k := by simp [lowBytes]

theorem bigEndian_word {n : Nat} (h : n < 2^64) : bigEndian (lowBytes 8 n) = n :=
  (bigEndian_lowBytes 8 n).trans (Nat.mod_eq_of_lt h)

theorem lowBytes_inj {i j : Nat} (hi : i < 2^64) (hj : j < 2^64) (h : lowBytes 8 i = lowBytes 8 j) :
    i = j := by
  rw [← bigEndian_word hi,h,bigEndian_word hj]

/-- The tables hold the rows of the plain store, and all their numbers are words. -/
structure Refines (s : Tables) (x : EnergyStore Address) : Prop where
  delegations : Encoded delegationKey (· < 2^64) s.delegations x.delegations
  byDelegator : Encoded (indexRow 5) (fun k => (ofLex k).2 < 2^64) s.byDelegator x.byDelegator
  byDelegatee : Encoded (indexRow 6) (fun k => (ofLex k).2 < 2^64) s.byDelegatee x.byDelegatee

theorem indexRow_inj (tag : UInt8) (i j : Address ×ₗ Nat) (hi : (ofLex i).2 < 2^64)
    (hj : (ofLex j).2 < 2^64) (h : indexRow tag i = indexRow tag j) : i = j := by
  obtain ⟨ha,hid⟩ := append_inj' (cons.inj h).2 (by simp)
  exact ofLex.injective (Prod.ext (Address.ext (append_cancel_right ha))
    (lowBytes_inj hi hj hid))

namespace Refines

variable {s : Tables} {x : EnergyStore Address} {d : Delegation}

theorem empty : Refines {} (defaultGenesis Address) where
  delegations := .empty fun _ _ hi hj h => lowBytes_inj hi hj (cons.inj h).2
  byDelegator := .empty (indexRow_inj 5)
  byDelegatee := .empty (indexRow_inj 6)

theorem setDelegation (h : Refines s x) (hid : d.id < 2^64) :
    Refines (s.setDelegation d) (x.setDelegation d) where
  delegations := h.delegations.set hid d
  byDelegator := h.byDelegator.set (j := toLex (d.delegator,d.id)) hid ()
  byDelegatee := h.byDelegatee.set (j := toLex (d.delegatee,d.id)) hid ()

theorem removeDelegation (h : Refines s x) (hid : d.id < 2^64) :
    Refines (s.removeDelegation d) (x.removeDelegation d) where
  delegations := h.delegations.erase hid
  byDelegator := h.byDelegator.erase (j := toLex (d.delegator,d.id)) hid
  byDelegatee := h.byDelegatee.erase (j := toLex (d.delegatee,d.id)) hid

theorem iterate (h : Refines s x) {tag : UInt8} {index : Store Bytes Unit}
    {plain : Store (Address ×ₗ Nat) Unit}
    (hindex : Encoded (indexRow tag) (fun k => (ofLex k).2 < 2^64) index plain) (addr : Address) :
    s.iterateDelegationsByIndex index
      ((indexRow tag (toLex (addr,0))).take (1+addr.text.length+1)) =
      x.iterateDelegationsByIndex plain addr := by
  have htake : (indexRow tag (toLex (addr,0))).take (1+addr.text.length+1) =
      tag :: (addr.text++[47]) := by
    simp [indexRow,Nat.add_comm 1,take_append]
  unfold Tables.iterateDelegationsByIndex EnergyStore.iterateDelegationsByIndex
  rw [htake,hindex.filter_keys (q := fun k => (ofLex k).1 = addr) (fun k _ => ?_)
    fun i j hi hj hai haj hlt => ?_,filterMap_map]
  · apply filterMap_congr
    intro k hk
    have hword := hindex.fits_of_mem (mem_of_mem_filter hk)
    have hdrop : (indexRow tag k).drop ((indexRow tag k).length-8) = lowBytes 8 (ofLex k).2 := by
      simp [indexRow]
    simp only [Function.comp_apply,Tables.named,hdrop,bigEndian_word hword]
    rw [if_neg (by simp [indexRow])]
    exact h.delegations.get _ hword
  · rw [Bool.eq_iff_iff, isPrefixOf_iff_prefix,decide_eq_true_iff,eq_comm,Address.ext_iff,
      ← closed_prefix_iff addr.noSlash (ofLex k).1.noSlash (t := lowBytes 8 (ofLex k).2)]
    simp [indexRow]
  · have hids : (ofLex i).1 = (ofLex j).1 := by simp_all
    have hlt := (Prod.Lex.lt_iff.mp hlt).resolve_left (by rw [hids]; exact lt_irrefl _)
    refine lt_of_bigEndian_lt ?_ (by simp [indexRow,hids])
    simp [indexRow,bigEndian_cons,bigEndian_append,bigEndian_lowBytes,hids]
    omega

end Refines

/-- A write of a record whose id is a word. -/
inductive TableOp where
  | set (d : Delegation) (hid : d.id < 2^64)
  | remove (d : Delegation) (hid : d.id < 2^64)

namespace TableOp

def record : TableOp → Delegation
  | set d _ => d
  | remove d _ => d

def apply (x : EnergyStore Address) : TableOp → EnergyStore Address
  | set d _ => x.setDelegation d
  | remove d _ => x.removeDelegation d

def write (s : Tables) : TableOp → Tables
  | set d _ => s.setDelegation d
  | remove d _ => s.removeDelegation d

theorem refines (ops : List TableOp) {s : Tables} {x : EnergyStore Address} (h : Refines s x) :
    Refines (ops.foldl write s) (ops.foldl apply x) := by
  induction ops generalizing s x with
  | nil => exact h
  | cons op ops ih =>
    cases op with
    | set d hid => exact ih (h.setDelegation hid)
    | remove d hid => exact ih (h.removeDelegation hid)

end TableOp

/-- After any writes every read of the tables in bytes is the read of the plain tables: a record
by its id, and the walk over the records of an address. -/
theorem delegation_tables_refined (ops : List TableOp) :
    let s := ops.foldl TableOp.write {}
    let x := ops.foldl TableOp.apply (defaultGenesis Address)
    (∀ id < 2^64, s.getDelegation id = x.getDelegation id) ∧
    ∀ addr : Address,
      s.iterateDelegationsByDelegator addr = x.iterateDelegationsByIndex x.byDelegator addr ∧
      s.iterateDelegationsByDelegatee addr = x.iterateDelegationsByDelegatee addr := by
  intro s x
  have h : Refines s x := TableOp.refines ops .empty
  exact ⟨h.delegations.get,fun addr =>
    ⟨h.iterate h.byDelegator addr,h.iterate h.byDelegatee addr⟩⟩

/-- The index rows are those of the records, and an id stands for one delegator and delegatee. -/
structure Listed (parties : Nat → Address × Address) (x : EnergyStore Address) : Prop where
  recorded : ∀ id d, x.getDelegation id = some d →
    d.id = id ∧ (d.delegator,d.delegatee) = parties id
  byDelegator : Indexes (fun id (d : Delegation) => toLex (d.delegator,id))
    x.byDelegator x.delegations
  byDelegatee : Indexes (fun id (d : Delegation) => toLex (d.delegatee,id))
    x.byDelegatee x.delegations

namespace Listed

variable {parties : Nat → Address × Address} {s : Tables} {x : EnergyStore Address}

theorem apply (h : Listed parties x) (op : TableOp)
    (hop : (op.record.delegator,op.record.delegatee) = parties op.record.id) :
    Listed parties (op.apply x) := by
  have hold : ∀ w, x.delegations.get op.record.id = some w →
      w.delegator = op.record.delegator ∧ w.delegatee = op.record.delegatee :=
    fun w hw => Prod.ext_iff.mp ((h.recorded _ w hw).2.trans hop.symm)
  cases op with
  | set d hid =>
    refine ⟨fun id e he => ?_,h.byDelegator.set (k := d.id) fun w hw => by rw [(hold w hw).1]; rfl,
      h.byDelegatee.set (k := d.id) fun w hw => by rw [(hold w hw).2]; rfl⟩
    rw [TableOp.apply,getDelegation_setDelegation] at he
    split at he
    · rename_i hid
      cases he
      exact ⟨hid.symm,hid ▸ hop⟩
    · exact h.recorded id e he
  | remove d hid =>
    refine ⟨fun id e he => ?_,
      h.byDelegator.erase (k := d.id) (fun w hw => by rw [(hold w hw).1]; rfl) fun i w hkey =>
        (Prod.ext_iff.mp (toLex.injective hkey)).2,
      h.byDelegatee.erase (k := d.id) (fun w hw => by rw [(hold w hw).2]; rfl) fun i w hkey =>
        (Prod.ext_iff.mp (toLex.injective hkey)).2⟩
    rw [TableOp.apply,getDelegation_removeDelegation] at he
    split at he
    · cases he
    · exact h.recorded id e he

theorem stored_iff (h : Listed parties x) (hs : Refines s x) (d : Delegation) :
    (∃ key, s.delegations.get key = some d) ↔ x.getDelegation d.id = some d := by
  constructor
  · rintro ⟨key,hd⟩
    obtain ⟨id,hid,rfl⟩ := hs.delegations.only key d hd
    rw [hs.delegations.get id hid] at hd
    rwa [(h.recorded id d hd).1]
  · exact fun hd => ⟨_,(hs.delegations.get _ (hs.delegations.fits _ _ hd)).trans hd⟩

theorem walk (h : Listed parties x) {index : Store (Address ×ₗ Nat) Unit}
    {attr : Delegation → Address}
    (hindex : Indexes (fun id d => toLex (attr d,id)) index x.delegations) (addr : Address) :
    (∀ d, d ∈ x.iterateDelegationsByIndex index addr ↔
      x.getDelegation d.id = some d ∧ attr d = addr) ∧
    (x.iterateDelegationsByIndex index addr).Pairwise fun d e => d.id < e.id := by
  rw [iterateDelegationsByIndex_eq]
  refine ⟨fun d => ?_,pairwise_map.mpr ((ascending_listedRows index _ addr).imp_of_mem
    fun hp hq hlt => ?_)⟩
  · rw [mem_map]
    constructor
    · rintro ⟨⟨id,e⟩,hmem,rfl⟩
      obtain ⟨hrow,hget⟩ := mem_listedRows.mp hmem
      obtain ⟨k,v,hv,hkey⟩ := (hindex _).mp hrow
      obtain ⟨ha,rfl⟩ := Prod.ext_iff.mp (toLex.injective hkey)
      obtain rfl : e = v := Option.some.inj (hget.symm.trans hv)
      exact ⟨by rwa [(h.recorded _ _ hget).1],ha⟩
    · rintro ⟨hget,rfl⟩
      exact ⟨(d.id,d),mem_listedRows.mpr ⟨(hindex _).mpr ⟨_,_,hget,rfl⟩,hget⟩,rfl⟩
  · rwa [(h.recorded _ _ (mem_listedRows.mp hp).2).1,(h.recorded _ _ (mem_listedRows.mp hq).2).1]

end Listed

/-- After any writes of records whose ids each stand for one delegator and one delegatee, the walk
of an address passes exactly the stored records of that address, by ascending id. -/
theorem delegations_by_address (parties : Nat → Address × Address) (ops : List TableOp)
    (hops : ∀ op ∈ ops, (op.record.delegator,op.record.delegatee) = parties op.record.id)
    (addr : Address) :
    let s := ops.foldl TableOp.write {}
    let stored := fun d => ∃ key, s.delegations.get key = some d
    ((∀ d, d ∈ s.iterateDelegationsByDelegatee addr ↔ stored d ∧ d.delegatee = addr) ∧
      (s.iterateDelegationsByDelegatee addr).Pairwise fun d e => d.id < e.id) ∧
    (∀ d, d ∈ s.iterateDelegationsByDelegator addr ↔ stored d ∧ d.delegator = addr) ∧
      (s.iterateDelegationsByDelegator addr).Pairwise fun d e => d.id < e.id := by
  intro s stored
  have hs : Refines s _ := TableOp.refines ops .empty
  have h : Listed parties (ops.foldl TableOp.apply (defaultGenesis Address)) :=
    foldlRecOn ops _ ⟨fun _ _ hd => (by cases hd),Indexes.empty,Indexes.empty⟩
      fun x hx op hop => hx.apply op (hops op hop)
  rw [show s.iterateDelegationsByDelegatee addr = _ from hs.iterate hs.byDelegatee addr,
    show s.iterateDelegationsByDelegator addr = _ from hs.iterate hs.byDelegator addr]
  simp only [stored,h.stored_iff hs]
  exact ⟨h.walk h.byDelegatee addr,h.walk h.byDelegator addr⟩

def sampleAddress (text : Bytes) (h : 47 ∉ text := by decide) : Address := ⟨text,h⟩

def sampleRecord (id : Nat) (delegatee : Bytes) (h : 47 ∉ delegatee := by decide) : Delegation :=
  ⟨id,sampleAddress [97],⟨delegatee,h⟩,10,0,0,100,0⟩

def sampleWrites : List TableOp :=
  [.set (sampleRecord 47 [98,99]) (by decide),.set (sampleRecord 2 [98]) (by decide),
    .set (sampleRecord 1 [98]) (by decide),.remove (sampleRecord 47 [98,99]) (by decide)]

theorem delegations_by_address_sample :
    (let s := sampleWrites.foldl TableOp.write {}
     s.iterateDelegationsByDelegatee (sampleAddress [98]) =
       [sampleRecord 1 [98],sampleRecord 2 [98]]) ∧
    (let s := sampleWrites.foldl TableOp.write {}
     (s.iterateDelegationsByDelegatee (sampleAddress [98])).Pairwise fun d e => d.id < e.id) :=
  ⟨by decide,(delegations_by_address
    (fun id => (sampleAddress [97],if id = 47 then sampleAddress [98,99] else sampleAddress [98]))
    sampleWrites (by decide) (sampleAddress [98])).1.2⟩

end Atoshi.Energy
