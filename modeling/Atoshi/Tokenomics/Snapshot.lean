import Atoshi.Lib.Merkle
import Atoshi.Tokenomics.Keeper

namespace Atoshi.Tokenomics
open List

/-! The migration snapshot: the tool that builds its tree and the claims that refer to it. -/

theorem byteArray_loop_eq (b : ByteArray) (i : Nat) (r : List UInt8) :
    ByteArray.toList.loop b i r = r.reverse++b.data.toList.drop i := by
  fun_induction ByteArray.toList.loop b i r with
  | case1 i r hi ih =>
    have hi' : i < b.data.toList.length := by simpa using hi
    rw [ih,reverse_cons,append_assoc,drop_eq_getElem_cons hi']
    simp [ByteArray.get!,getElem!_pos b.data i hi]
  | case2 i r hi =>
    rw [drop_of_length_le,append_nil]
    simpa using hi

theorem utf8_injective {s t : String} (h : s.toUTF8.toList = t.toUTF8.toList) : s = t := by
  unfold ByteArray.toList at h
  rw [byteArray_loop_eq,byteArray_loop_eq] at h
  refine String.toByteArray_inj.mp (ByteArray.ext (Array.toList_inj.mp ?_))
  simpa using h

theorem toUInt8_inj {m n : Nat} (hm : m < 256) (hn : n < 256) (h : m.toUInt8 = n.toUInt8) :
    m = n := by
  have h := congrArg UInt8.toNat h
  simp only [Nat.toUInt8,UInt8.toNat_ofNat'] at h
  omega

theorem putUvarint_append_inj {m n : Nat} {x y : Bytes}
    (h : putUvarint m++x = putUvarint n++y) : m = n ∧ x = y := by
  induction m using Nat.strong_induction_on generalizing n with
  | _ m ih =>
    rw [putUvarint,putUvarint.eq_1 n] at h
    split at h <;> split at h <;> rename_i hm hn <;> obtain ⟨hhead,htail⟩ := cons.inj h
    · exact ⟨toUInt8_inj (by omega) (by omega) hhead,htail⟩
    · have := toUInt8_inj (by omega) (by omega) hhead
      omega
    · have := toUInt8_inj (by omega) (by omega) hhead
      omega
    · have hlow := toUInt8_inj (by omega) (by omega) hhead
      obtain ⟨hhigh,hxy⟩ := ih (m/128) (by omega) htail
      exact ⟨by omega,hxy⟩

def leafPayload (claimer amount : String) : Bytes :=
  let claimerBytes := claimer.toUTF8.toList
  let amountBytes := amount.toUTF8.toList
  putUvarint claimerBytes.length++claimerBytes++putUvarint amountBytes.length++amountBytes

theorem leafPayload_inj {claimer amount claimer' amount' : String}
    (h : leafPayload claimer amount = leafPayload claimer' amount') :
    claimer = claimer' ∧ amount = amount' := by
  simp only [leafPayload,append_assoc] at h
  obtain ⟨hlength,h⟩ := putUvarint_append_inj h
  obtain ⟨hclaimer,h⟩ := append_inj h hlength
  exact ⟨utf8_injective hclaimer,utf8_injective (putUvarint_append_inj h).2⟩

def hexChar (n : Nat) : Char := if n < 10 then Char.ofNat (48+n) else Char.ofNat (87+n)

def encodeHex (bz : Bytes) : String :=
  String.ofList (bz.flatMap fun b => [hexChar (b.toNat/16),hexChar (b.toNat%16)])

theorem hexDigit_hexChar {n : Nat} (h : n < 16) : hexDigit (hexChar n) = some n := by
  interval_cases n <;> rfl

theorem decodeHex_encodeHex (bz : Bytes) : decodeHex (encodeHex bz).toList = some bz := by
  rw [encodeHex,String.toList_ofList]
  induction bz with
  | nil => rfl
  | cons b rest ih =>
    have hb := b.toNat_lt
    have hbyte : (b.toNat/16*16+b.toNat%16).toUInt8 = b := by
      rw [Nat.div_add_mod']
      simp [Nat.toUInt8]
    simp only [flatMap_cons,cons_append,nil_append,decodeHex,
      hexDigit_hexChar (show b.toNat/16 < 16 by omega),
      hexDigit_hexChar (show b.toNat%16 < 16 by omega),ih]
    exact congrArg some (congrArg (· :: rest) hbyte)

structure Digest where
  sum256 : Bytes → Bytes
  length_sum256 : ∀ x, (sum256 x).length = 32

def pairText (a b : Bytes) : Bytes := if a ≤ b then a++b else b++a

theorem pairText_comm (a b : Bytes) : pairText a b = pairText b a := by
  unfold pairText
  split <;> split <;> rename_i hab hba
  · rw [List.le_antisymm hab hba]
  · rfl
  · rfl
  · exact absurd ((List.le_total a b).resolve_left hab) hba

theorem length_pairText (a b : Bytes) : (pairText a b).length = a.length+b.length := by
  unfold pairText
  split
  · exact length_append
  · rw [length_append,add_comm]

theorem eq_of_pairText {a b c d : Bytes} (ha : a.length = 32) (hb : b.length = 32)
    (hc : c.length = 32) (hd : d.length = 32) (h : pairText a b = pairText c d) :
    a = c ∨ a = d := by
  unfold pairText at h
  split at h <;> split at h
  · exact .inl (append_inj h (ha.trans hc.symm)).1
  · exact .inr (append_inj h (ha.trans hd.symm)).1
  · exact .inr (append_inj h (hb.trans hc.symm)).2
  · exact .inl (append_inj h (hb.trans hd.symm)).2

/-- The trees of the snapshot, with `hashPair` as their `combine`. -/
def Digest.scheme (d : Digest) : Merkle.Scheme Bytes Bytes where
  hash := d.sum256
  join := pairText
  digest b := b.length = 32
  digest_hash := d.length_sum256
  join_comm := pairText_comm
  eq_of_join := eq_of_pairText

structure Entry where
  claimer : String
  amount : String
deriving DecidableEq

def isSpace (c : Char) : Bool :=
  c.toNat ∈ [0x09,0x0a,0x0b,0x0c,0x0d,0x20,0x85,0xa0,0x1680,0x2028,0x2029,0x202f,0x205f,0x3000] ||
    (0x2000 ≤ c.toNat && c.toNat ≤ 0x200a)

def trimSpace (s : String) : String :=
  String.ofList ((s.toList.dropWhile isSpace).reverse.dropWhile isSpace).reverse

/-- `strings.EqualFold` against a lower case word; the long s folds to `s`. -/
def equalFold (s word : String) : Bool :=
  s.toList.map (fun c => if c.toNat = 0x17f then 's' else c.toLower) == word.toList

def isHeader (claimer : String) : Bool := equalFold claimer "claimer" || equalFold claimer "address"

/-- One record of the CSV; only the first can be a header. -/
def readRow (first : Bool) : List String → Option Entry
  | claimer :: amount :: _ =>
    let claimer := trimSpace claimer
    let amount := trimSpace amount
    if claimer = "" ∨ amount = "" then none
    else if first && isHeader claimer then none
    else some ⟨claimer,amount⟩
  | _ => none

def readCSV (rows : List (List String)) : List Entry :=
  rows.zipIdx.filterMap fun p => readRow (p.2 == 0) p.1

namespace Digest

variable (d : Digest)

def leafHash (e : Entry) : Bytes := d.sum256 (d.sum256 (leafPayload e.claimer e.amount))

/-- The root and the levels; no leaves make the tool panic. -/
def buildTree (leaves : List Bytes) : Option (Bytes × List (List Bytes)) :=
  let levels := d.scheme.levels leaves.length leaves
  (Merkle.top levels).map (·,levels)

def snapshot (entries : List Entry) : Option (String × List (List Bytes)) := do
  let (root,levels) ← d.buildTree (entries.map d.leafHash)
  pure (encodeHex root,(List.range entries.length).map (Merkle.proofFor · levels))

def snapshotTexts (entries : List Entry) : List Bytes :=
  entries.map (fun e => leafPayload e.claimer e.amount)++
    (entries.map (fun e => d.sum256 (leafPayload e.claimer e.amount))++
      d.scheme.treeTexts entries.length (entries.map d.leafHash))

def claimTexts (claimer : String) (amount : Int) (proof : List Bytes) : List Bytes :=
  let payload := leafPayload claimer (toString amount)
  payload :: d.sum256 payload :: d.scheme.walkTexts (d.sum256 (d.sum256 payload)) proof

theorem migrationLeafHash_eq (claimer : String) (amount : Int) :
    migrationLeafHash d.sum256 claimer amount = d.leafHash ⟨claimer,toString amount⟩ := rfl

variable {amount : Int} {root : Bytes} {claimer : String} {proof : List Bytes}
  {entries : List Entry}

variable {i : Nat} {out : String × List (List Bytes)}

theorem merkleRoot_eq_some {current : Bytes} : merkleRoot d.sum256 current proof = some root ↔
      (∀ s ∈ proof, s.length = 32) ∧ d.scheme.walk current proof = root := by
  induction proof generalizing current with
  | nil => simp [merkleRoot,Merkle.Scheme.walk]
  | cons s rest ih =>
    have hstep : d.scheme.walk current (s :: rest) =
        d.scheme.walk (d.sum256 (pairText current s)) rest := rfl
    rw [hstep,pairText,merkleRoot]
    by_cases hs : s.length = 32
    · rw [if_neg (not_not.mpr hs)]
      split <;> simp [ih,hs]
    · rw [if_pos hs]
      simp [hs]

theorem verifyMerkleClaim_encodeHex (hroot : root.length = 32) :
    verifyMerkleClaim d.sum256 claimer amount proof (encodeHex root) = true ↔
      (∀ s ∈ proof, s.length = 32) ∧
        d.scheme.walk (d.leafHash ⟨claimer,toString amount⟩) proof = root := by
  have hne : root.isEmpty = false := by
    cases root with
    | nil => cases hroot
    | cons b rest => rfl
  rw [verifyMerkleClaim,decodeHex_encodeHex,← merkleRoot_eq_some,← migrationLeafHash_eq]
  simp [hne]

theorem snapshot_eq_some : d.snapshot entries = some out ↔
      ∃ root, Merkle.top (d.scheme.levels entries.length (entries.map d.leafHash)) = some root ∧
        out = (encodeHex root,(List.range entries.length).map
          (Merkle.proofFor · (d.scheme.levels entries.length (entries.map d.leafHash)))) := by
  simp only [snapshot,buildTree,length_map]
  cases Merkle.top (d.scheme.levels entries.length (entries.map d.leafHash)) with
  | none => simp
  | some root => simp [eq_comm]

theorem node_root
    (h : Merkle.top (d.scheme.levels entries.length (entries.map d.leafHash)) = some root) :
    d.scheme.Node (entries.map fun e => d.sum256 (leafPayload e.claimer e.amount))
      (d.scheme.treeTexts entries.length (entries.map d.leafHash)) root := by
  refine d.scheme.node_top ?_ (fun x hx => hx) h
  intro v hv
  obtain ⟨e,he,rfl⟩ := mem_map.mp hv
  exact .leaf (mem_map.mpr ⟨e,he,rfl⟩)

/-- An accepted claim is for an entry, or a text hashed for it collides with one hashed for
the snapshot. -/
theorem entry_of_verifyMerkleClaim (hout : d.snapshot entries = some out)
    (h : verifyMerkleClaim d.sum256 claimer amount proof out.1 = true) :
    ⟨claimer,toString amount⟩ ∈ entries ∨
      d.scheme.Collides (d.claimTexts claimer amount proof) (d.snapshotTexts entries) := by
  obtain ⟨root,htop,rfl⟩ := d.snapshot_eq_some.mp hout
  have hnode := d.node_root htop
  obtain ⟨hproof,hwalk⟩ := (d.verifyMerkleClaim_encodeHex hnode.digest).mp h
  rw [← hwalk] at hnode
  -- digests are shorter than the texts of pairs
  have hshort : ∀ x a b : Bytes, a.length = 32 → b.length = 32 → d.sum256 x ≠ pairText a b := by
    intro x a b ha hb heq
    have hlength := congrArg length heq
    rw [d.length_sum256,length_pairText] at hlength
    omega
  have hleaves : ∀ x ∈ entries.map fun e => d.sum256 (leafPayload e.claimer e.amount),
      ∀ a b, d.scheme.digest a → d.scheme.digest b → x ≠ d.scheme.join a b := by
    intro x hx a b ha hb
    obtain ⟨e,_,rfl⟩ := mem_map.mp hx
    exact hshort _ a b ha hb
  rcases Merkle.Scheme.leaf_of_walk hleaves hproof (fun a b ha hb => hshort _ a b ha hb) hnode with
    hleaf | hcollides
  · obtain ⟨e,he,heq⟩ := mem_map.mp hleaf
    have hsame : leafPayload claimer (toString amount) = leafPayload e.claimer e.amount ∨
        d.scheme.Collides (d.claimTexts claimer amount proof) (d.snapshotTexts entries) :=
      Merkle.Scheme.Collides.of_hash_eq mem_cons_self
        (mem_append_left _ (mem_map_of_mem he)) heq.symm
    rcases hsame with hpayload | hcollides
    · obtain ⟨hclaimer,hamount⟩ := leafPayload_inj hpayload
      rw [hclaimer,hamount]
      exact .inl he
    · exact .inr hcollides
  · exact .inr (hcollides.mono (subset_cons_self _ _) (subset_append_right _ _))

theorem getElem?_leafHash {e : Entry}
    (h : entries[i]? = some e) : (entries.map d.leafHash)[i]? = some (d.leafHash e) := by
  rw [getElem?_map,h]
  rfl

theorem verifyMerkleClaim_proofFor (hentry : entries[i]? = some ⟨claimer,toString amount⟩)
    (htop : Merkle.top (d.scheme.levels entries.length (entries.map d.leafHash)) = some root) :
    verifyMerkleClaim d.sum256 claimer amount
      (Merkle.proofFor i (d.scheme.levels entries.length (entries.map d.leafHash)))
      (encodeHex root) = true := by
  refine (d.verifyMerkleClaim_encodeHex (d.node_root htop).digest).mpr ⟨?_,?_⟩
  · refine d.scheme.digest_proofFor ?_ i
    intro v hv
    obtain ⟨e,_,rfl⟩ := mem_map.mp hv
    exact d.length_sum256 _
  · have hwalk := d.scheme.top_levels_eq_walk
      (show (entries.map d.leafHash).length ≤ entries.length+1 by simp)
      (d.getElem?_leafHash hentry)
    rw [htop] at hwalk
    exact (Option.some.inj hwalk).symm

end Digest

end Atoshi.Tokenomics
