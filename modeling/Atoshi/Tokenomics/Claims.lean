import Atoshi.Tokenomics.Snapshot

namespace Atoshi.Tokenomics
open List

/-! Migration claims against the roots of snapshots. -/

variable {A : Type}

def Digest.codec (d : Digest) (accAddressFromBech32 : String → Except Err A) : ClaimCodec A :=
  ⟨d.sum256,accAddressFromBech32⟩

def MsgClaimMigrationTokens.validateBasic (codec : ClaimCodec A) (msg : MsgClaimMigrationTokens) :
    Except Err Unit := do
  let _ ← codec.accAddressFromBech32 msg.claimer
  if msg.amount ≤ 0 then .error .nothingToClaim
  else if msg.merkleProof.length = 0 then .error .invalidMerkleProof
  else .ok ()

variable (d : Digest) {holders : List (String × Int)}

theorem MsgClaimMigrationTokens.validateBasic_eq_ok (codec : ClaimCodec A)
    (msg : MsgClaimMigrationTokens) {a : A} (haddr : codec.accAddressFromBech32 msg.claimer = .ok a)
    (hamount : 0 < msg.amount) : msg.validateBasic codec = .ok () ↔ msg.merkleProof ≠ [] := by
  have hrun : msg.validateBasic codec =
      if msg.amount ≤ 0 then .error .nothingToClaim
      else if msg.merkleProof.length = 0 then .error .invalidMerkleProof else .ok () := by
    unfold validateBasic
    rw [haddr]
    rfl
  rw [hrun,if_neg (not_le.mpr hamount)]
  cases msg.merkleProof <;> simp

def entriesOf (holders : List (String × Int)) : List Entry :=
  holders.map fun h => ⟨h.1,toString h.2⟩

/-- The message made of an entry and the tool's proof for it passes both checks. -/
def Claimable (codec : ClaimCodec A) (root : String) (holder : String × Int)
    (proof : List Bytes) : Prop :=
  let msg : MsgClaimMigrationTokens := ⟨holder.1,holder.2,proof⟩
  msg.validateBasic codec = .ok () ∧
    verifyMerkleClaim codec.sha256 msg.claimer msg.amount msg.merkleProof root = true

instance (codec : ClaimCodec A) (root : String) (holder : String × Int) (proof : List Bytes) :
    Decidable (Claimable codec root holder proof) := inferInstanceAs (Decidable (_ ∧ _))

theorem snapshot_entriesOf (hne : holders ≠ []) :
    ∃ root, Merkle.top (d.scheme.levels (entriesOf holders).length
      ((entriesOf holders).map d.leafHash)) = some root := by
  obtain ⟨h,rest,rfl⟩ := exists_cons_of_ne_nil hne
  exact ⟨_,d.scheme.top_levels_eq_walk (i := 0) (by simp) rfl⟩

theorem claimable_proofFor {acc : String → Except Err A} {i : Nat} {h : String × Int}
    (hi : holders[i]? = some h)
    (hpos : 0 < h.2) (haddr : ∃ a, acc h.1 = .ok a) {root : Bytes}
    (htop : Merkle.top (d.scheme.levels (entriesOf holders).length
      ((entriesOf holders).map d.leafHash)) = some root) :
    Claimable (d.codec acc) (encodeHex root) h (Merkle.proofFor i
      (d.scheme.levels (entriesOf holders).length ((entriesOf holders).map d.leafHash))) ↔
      2 ≤ holders.length := by
  have hlength : ((entriesOf holders).map d.leafHash).length = holders.length := by
    simp [entriesOf]
  obtain ⟨hlt,_⟩ := List.getElem?_eq_some_iff.mp hi
  have hentry : (entriesOf holders)[i]? = some ⟨h.1,toString h.2⟩ := by
    rw [entriesOf,List.getElem?_map,hi]
    rfl
  obtain ⟨a,haddr⟩ := haddr
  have hbasic := MsgClaimMigrationTokens.validateBasic_eq_ok (d.codec acc)
    ⟨h.1,h.2,Merkle.proofFor i (d.scheme.levels (entriesOf holders).length
      ((entriesOf holders).map d.leafHash))⟩ haddr hpos
  constructor
  · intro hclaim
    by_contra hsmall
    refine hbasic.mp hclaim.1 ?_
    rw [d.scheme.levels_of_le (by omega)]
    rfl
  · intro hlarge
    refine ⟨hbasic.mpr ?_,d.verifyMerkleClaim_proofFor hentry htop⟩
    exact d.scheme.proofFor_levels_ne_nil (by simp) (by omega) (by omega)

/-- Every entry of a snapshot can be claimed exactly if there are two or more: the proof of a
single entry is empty, and an empty proof is refused. Amounts have to be written as the chain
writes them, as it hashes its own text for a number. -/
theorem entries_claimable (d : Digest) (acc : String → Except Err A)
    {holders : List (String × Int)} (hne : holders ≠ []) (hpos : ∀ h ∈ holders, 0 < h.2)
    (haddr : ∀ h ∈ holders, ∃ a, acc h.1 = .ok a) :
    (∃ root proofs, d.snapshot (entriesOf holders) = some (root,proofs) ∧
      proofs.length = holders.length ∧
      ((∀ p ∈ holders.zip proofs, Claimable (d.codec acc) root p.1 p.2) ↔
        2 ≤ holders.length)) ∧
    ∀ entries root proofs, d.snapshot entries = some (root,proofs) →
      (entries.map Entry.claimer).Nodup → ∀ e ∈ entries, ∀ amount proof,
        Claimable (d.codec acc) root (e.claimer,amount) proof →
          e.amount = toString amount ∨
            d.scheme.Collides (d.claimTexts e.claimer amount proof) (d.snapshotTexts entries) := by
  refine ⟨?_,?_⟩
  · obtain ⟨root,htop⟩ := snapshot_entriesOf d hne
    have hlength : (entriesOf holders).length = holders.length := List.length_map _
    refine ⟨_,_,d.snapshot_eq_some.mpr ⟨root,htop,rfl⟩,by simp [hlength],?_⟩
    constructor
    · intro hall
      obtain ⟨h,rest,rfl⟩ := List.exists_cons_of_ne_nil hne
      refine (claimable_proofFor d (i := 0) rfl (hpos h List.mem_cons_self)
        (haddr h List.mem_cons_self) htop).mp (hall (h,_) ?_)
      rw [hlength,List.length_cons,List.range_succ_eq_map,List.map_cons,List.zip_cons_cons]
      exact List.mem_cons_self
    · rintro hlarge ⟨h,proof⟩ hp
      obtain ⟨i,hi⟩ := List.mem_iff_getElem?.mp hp
      obtain ⟨hh,hproof⟩ := List.getElem?_zip_eq_some.mp hi
      have hmem := List.mem_of_getElem? hh
      rw [List.getElem?_map,Option.map_eq_some_iff] at hproof
      obtain ⟨j,hj,rfl⟩ := hproof
      obtain ⟨_,rfl⟩ := List.getElem?_eq_some_iff.mp hj
      rw [List.getElem_range]
      exact (claimable_proofFor d hh (hpos h hmem) (haddr h hmem) htop).mpr hlarge
  · intro entries root proofs hout hdistinct e he amount proof hclaim
    rcases d.entry_of_verifyMerkleClaim hout hclaim.2 with hentry | hcollides
    · have hsame := List.inj_on_of_nodup_map hdistinct he hentry rfl
      exact .inl (congrArg Entry.amount hsame)
    · exact .inr hcollides

def sampleDigest : Digest where
  sum256 x := List.replicate 31 0++[x.foldl (fun h b => 31*h+b) 7]
  length_sum256 x := by simp

def sampleHolders : List (String × Int) := [("atoshi1a",5),("atoshi1b",70),("atoshi1c",900)]

def sampleAddress (s : String) : Except Err Nat :=
  if s = "atoshi1a" then .ok 10 else if s = "atoshi1b" then .ok 11 else .ok 12

theorem entries_claimable_sampleHolders :
    ∃ root proofs, sampleDigest.snapshot (entriesOf sampleHolders) = some (root,proofs) ∧
      ∀ p ∈ sampleHolders.zip proofs, Claimable
      (sampleDigest.codec sampleAddress) root p.1 p.2 := by
  have haddr : ∀ h ∈ sampleHolders, ∃ a, sampleAddress h.1 = .ok a := by
    intro h _
    unfold sampleAddress
    split
    · exact ⟨_,rfl⟩
    · split <;> exact ⟨_,rfl⟩
  obtain ⟨root,proofs,hout,_,hiff⟩ :=
    (entries_claimable sampleDigest sampleAddress (by decide) (by decide) haddr).1
  exact ⟨root,proofs,hout,hiff.mpr (by decide)⟩

/-- The proof of a single entry leads to the root, but it is empty. -/
theorem lone_entry_refused :
    ∃ root, sampleDigest.snapshot (entriesOf [("atoshi1a",5)]) = some (root,[[]]) ∧
      verifyMerkleClaim sampleDigest.sum256 "atoshi1a" 5 [] root = true ∧
      MsgClaimMigrationTokens.validateBasic (sampleDigest.codec sampleAddress)
        ⟨"atoshi1a",5,[]⟩ = .error .invalidMerkleProof :=
  ⟨_,rfl,by decide +kernel,rfl⟩

variable [LinearOrder A]

structure Payment where
  claimer : String
  amount : Int
  proof : List Bytes
  root : String

/-- The store, the claims paid so far, the newest first, and what they took from the
migration pool. -/
structure ClaimRun (A : Type) [LinearOrder A] where
  store : Stores A
  payments : List Payment
  drained : Int

inductive ClaimOp (A : Type) [LinearOrder A] where
  | claim (msg : MsgClaimMigrationTokens)
  | updateParams (authority : A) (p : Params)
  | elsewhere (t : Stores A)

def ClaimOp.apply (env : Env A) (codec : ClaimCodec A) (ctx : Ctx A) (r : ClaimRun A) :
    ClaimOp A → ClaimRun A
  | .claim msg =>
    match claimMigrationTokens env codec ctx msg r.store with
    | .ok _ t =>
      { store := t
        payments := ⟨msg.claimer,msg.amount,msg.merkleProof,
          r.store.tokenomics.params.migrationMerkleRoot⟩ :: r.payments
        drained := r.drained+
          (r.store.chain.atosOf env.migrationPool-t.chain.atosOf env.migrationPool) }
    | .error _ _ => r
  | .updateParams authority p =>
    { r with store := (Tokenomics.updateParams env authority p).deliver r.store }
  | .elsewhere t => { r with store := t }

def ClaimOp.Admissible (r : ClaimRun A) : ClaimOp A → Prop
  | .claim _ => True
  | .updateParams _ _ => True
  | .elsewhere t => ∀ c, t.tokenomics.migrationClaimed.get c = none →
      r.store.tokenomics.migrationClaimed.get c = none

def ClaimStep (env : Env A) (codec : ClaimCodec A) (r t : ClaimRun A) : Prop :=
  ∃ (ctx : Ctx A) (op : ClaimOp A), op.Admissible r ∧ t = op.apply env codec ctx r

def ClaimStart (r : ClaimRun A) : Prop := r.payments = [] ∧ r.drained = 0

structure PaidOnce (sha256 : Bytes → Bytes) (r : ClaimRun A) : Prop where
  distinct : (r.payments.map Payment.claimer).Nodup
  recorded : ∀ p ∈ r.payments, r.store.tokenomics.migrationClaimed.get p.claimer ≠ none
  proven : ∀ p ∈ r.payments, verifyMerkleClaim sha256 p.claimer p.amount p.proof p.root = true
  drained : r.drained ≤ (r.payments.map Payment.amount).sum

theorem PaidOnce.claim {env : Env A} {codec : ClaimCodec A} {r : ClaimRun A}
    (h : PaidOnce codec.sha256 r) (ctx : Ctx A) (msg : MsgClaimMigrationTokens) :
    PaidOnce codec.sha256 ((ClaimOp.claim msg).apply env codec ctx r) := by
  simp only [ClaimOp.apply]
  split
  · rename_i t hok
    obtain ⟨hpos,recipient,hsent,htok,hfresh,hproof,_⟩ := claimMigrationTokens_ok hok
    refine ⟨?_,?_,?_,?_⟩
    · refine nodup_cons.mpr ⟨?_,h.distinct⟩
      intro hmem
      obtain ⟨p,hp,hsame⟩ := mem_map.mp hmem
      exact h.recorded p hp (hsame ▸ hfresh)
    · intro p hp
      rw [htok]
      by_cases hsame : p.claimer = msg.claimer
      · rw [hsame,Store.get_set_self]
        simp
      · rcases mem_cons.mp hp with rfl | hp
        · exact absurd rfl hsame
        · rw [Store.get_set_of_ne _ _ hsame]
          exact h.recorded p hp
    · intro p hp
      rcases mem_cons.mp hp with rfl | hp
      · exact hproof
      · exact h.proven p hp
    · have hpool := hsent.atos env.migrationPool
      have hdrained := h.drained
      simp only [if_true,map_cons,sum_cons] at hpool ⊢
      split at hpool <;> omega
  · exact h

theorem PaidOnce.apply {env : Env A} {codec : ClaimCodec A} {r : ClaimRun A}
    (h : PaidOnce codec.sha256 r) (ctx : Ctx A) {op : ClaimOp A} (hop : op.Admissible r) :
    PaidOnce codec.sha256 (op.apply env codec ctx r) := by
  cases op with
  | claim msg => exact h.claim ctx msg
  | updateParams authority p =>
    have hkept : ((Tokenomics.updateParams env authority p).deliver
        r.store).tokenomics.migrationClaimed = r.store.tokenomics.migrationClaimed := by
      refine Exec.deliver_of_ok (I := fun t : Stores A =>
        t.tokenomics.migrationClaimed = r.store.tokenomics.migrationClaimed) rfl ?_
      intro _ t hok
      rw [(updateParams_ok hok).2]
    refine ⟨h.distinct,?_,h.proven,h.drained⟩
    intro q hq
    exact hkept ▸ h.recorded q hq
  | elsewhere t =>
    exact ⟨h.distinct,fun q hq hnone => h.recorded q hq (hop q.claimer hnone),h.proven,h.drained⟩

/-- A total that entries add up to, one of each address at the most. -/
def OneEntryEach (entries : List Entry) (total : Int) : Prop :=
  ∃ chosen : List (String × Int), (chosen.map Prod.fst).Nodup ∧
    (∀ c ∈ chosen, ⟨c.1,toString c.2⟩ ∈ entries) ∧ total ≤ (chosen.map Prod.snd).sum

/-- A text hashed for the payment collides with one hashed for the snapshot. -/
def Payment.Collides (d : Digest) (p : Payment) (entries : List Entry) : Prop :=
  d.scheme.Collides (d.claimTexts p.claimer p.amount p.proof) (d.snapshotTexts entries)

/-- A claim accepted against the root of a snapshot is for one of its entries, or exhibits two
texts with one hash. In every run a claimer is paid once, and without a collision all that
claims have taken from the pool is one entry for each address. -/
theorem migration_claims_sound {env : Env A} (d : Digest) (acc : String → Except Err A) :
    (∀ (rows : List (List String)) (root : String) (proofs : List (List Bytes)),
      d.snapshot (readCSV rows) = some (root,proofs) →
      ∀ (ctx : Ctx A) (msg : MsgClaimMigrationTokens) (s t : Stores A),
        claimMigrationTokens env (d.codec acc) ctx msg s = .ok () t →
        s.tokenomics.params.migrationMerkleRoot = root →
          ⟨msg.claimer,toString msg.amount⟩ ∈ readCSV rows ∨
            d.scheme.Collides (d.claimTexts msg.claimer msg.amount msg.merkleProof)
              (d.snapshotTexts (readCSV rows))) ∧
    ∀ r : ClaimRun A, Reachable ClaimStart (ClaimStep env (d.codec acc)) r →
      (r.payments.map Payment.claimer).Nodup ∧
      ∀ files : List (List (List String)),
        (∀ p ∈ r.payments, ∃ rows ∈ files, ∃ proofs,
          d.snapshot (readCSV rows) = some (p.root,proofs)) →
        OneEntryEach (files.flatMap readCSV) r.drained ∨
          ∃ p ∈ r.payments, ∃ rows ∈ files, p.Collides d (readCSV rows) := by
  refine ⟨?_,?_⟩
  · rintro rows root proofs hout ctx msg s t hok rfl
    obtain ⟨_,_,_,_,_,hproof,_⟩ := claimMigrationTokens_ok hok
    exact d.entry_of_verifyMerkleClaim hout hproof
  · intro r hr
    have hpaid : PaidOnce d.sum256 r := by
      refine hr.invariant (I := PaidOnce d.sum256) ?_ ?_
      · rintro u ⟨hnone,hzero⟩
        refine ⟨by simp [hnone],by simp [hnone],by simp [hnone],by simp [hnone,hzero]⟩
      · rintro u t hu ⟨ctx,op,hop,rfl⟩
        have hu : PaidOnce (d.codec acc).sha256 u := hu
        exact hu.apply ctx hop
    refine ⟨hpaid.distinct,?_⟩
    intro files hroots
    by_cases hcollides : ∃ p ∈ r.payments, ∃ rows ∈ files, p.Collides d (readCSV rows)
    · exact .inr hcollides
    · refine .inl ⟨r.payments.map fun p => (p.claimer,p.amount),?_,?_,?_⟩
      · simpa [Function.comp_def] using hpaid.distinct
      · intro c hc
        obtain ⟨p,hp,rfl⟩ := mem_map.mp hc
        obtain ⟨rows,hrows,proofs,hout⟩ := hroots p hp
        rcases d.entry_of_verifyMerkleClaim hout (hpaid.proven p hp) with hentry | hclash
        · exact mem_flatMap.mpr ⟨rows,hrows,hentry⟩
        · exact absurd ⟨p,hp,rows,hrows,hclash⟩ hcollides
      · simpa [Function.comp_def] using hpaid.drained

/-- A header, a blank line's worth of fields, and three entries. -/
def sampleRows : List (List String) :=
  [["Claimer","amount"],["",""],["atoshi1a","5"],[" atoshi1b ","70"],["atoshi1c","900"]]

def sampleSnapshot : String × List (List Bytes) :=
  (sampleDigest.snapshot (readCSV sampleRows)).getD ("",[])

def sampleClaims : ClaimRun Nat where
  store :=
    { chain := sampleState.setBank (sampleState.bank.addBalance 9 .atos 1000)
      tokenomics :=
        { emptyStore with
          params := { emptyStore.params with migrationMerkleRoot := sampleSnapshot.1 } } }
  payments := []
  drained := 0

def sampleClaimOps : List (ClaimOp Nat) :=
  [.claim ⟨"atoshi1a",5,sampleSnapshot.2.getD 0 []⟩,.claim ⟨"atoshi1b",70,sampleSnapshot.2.getD 1 []⟩,
    .claim ⟨"atoshi1a",5,sampleSnapshot.2.getD 0 []⟩]

theorem migration_claims_sound_sampleClaimOps : let codec := sampleDigest.codec sampleAddress
    let r := sampleClaimOps.foldl (fun r op => op.apply sampleEnv codec sampleCtx r) sampleClaims
    r.drained = 75 ∧ (r.payments.map Payment.claimer).Nodup ∧
      (OneEntryEach ([sampleRows].flatMap readCSV) r.drained ∨
        ∃ p ∈ r.payments, ∃ rows ∈ [sampleRows], p.Collides sampleDigest (readCSV rows)) := by
  intro codec r
  have hreach : Reachable ClaimStart (ClaimStep sampleEnv codec) r :=
    Reachable.along (fun _ op hop => ⟨sampleCtx,op,hop,rfl⟩) (.start ⟨rfl,rfl⟩)
      ⟨trivial,trivial,trivial,trivial⟩
  obtain ⟨hdistinct,hentries⟩ := (migration_claims_sound sampleDigest sampleAddress).2 r hreach
  have hrun : r.drained = 75 ∧
      r.payments.map Payment.root = [sampleSnapshot.1,sampleSnapshot.1] := by decide +kernel
  refine ⟨hrun.1,hdistinct,hentries [sampleRows] ?_⟩
  intro p hp
  have hroot : p.root = sampleSnapshot.1 := by
    have hmem := mem_map_of_mem (f := Payment.root) hp
    rw [hrun.2] at hmem
    simpa using hmem
  exact ⟨sampleRows,mem_singleton_self _,sampleSnapshot.2,by rw [hroot]; decide +kernel⟩

end Atoshi.Tokenomics
