import Atoshi.Bridge.Types

namespace Atoshi.Bridge
open List

/-! The two wire formats shared with Ethereum: the 96-byte tier message of both legs
and the 64-byte asset transfer, each with its reader and its writer inverse. -/

theorem bigEndian_snoc (l : Bytes) (b : UInt8) : bigEndian (l++[b]) = bigEndian l*256+b.toNat := by
  simp [bigEndian,foldl_append]

theorem bigEndian_lt (l : Bytes) : bigEndian l < 256^l.length := by
  induction l using reverseRecOn with
  | nil => simp [bigEndian]
  | append_singleton l b ih =>
    have hb := b.toNat_lt
    rw [bigEndian_snoc,length_append,length_singleton,Nat.pow_succ]
    omega

def lowBytes (k n : Nat) : Bytes := (List.range k).map fun i => (n/256^(k-1-i)).toUInt8

theorem lowBytes_succ (k n : Nat) : lowBytes (k+1) n = lowBytes k (n/256)++[n.toUInt8] := by
  unfold lowBytes
  rw [range_succ,map_append,map_singleton]
  congr 1
  · refine map_congr_left fun i hi => ?_
    have hik := mem_range.mp hi
    have hexp : k+1-1-i = (k-1-i)+1 := by omega
    rw [hexp,Nat.pow_succ,Nat.mul_comm,Nat.div_div_eq_div_mul]
  · simp

theorem bigEndian_lowBytes (k n : Nat) : bigEndian (lowBytes k n) = n % 256^k := by
  induction k generalizing n with
  | zero => simp [lowBytes,bigEndian,Nat.mod_one]
  | succ k ih =>
    rw [lowBytes_succ,bigEndian_snoc,ih,Nat.pow_succ,Nat.mul_comm (256^k),Nat.mod_mul]
    simp
    omega

variable {n k : Nat} {erc20 : Int} {l payload recipient : Bytes}

variable {m : Nat} {r : Bytes} (t : UInt8)

theorem bigEndian_wordOf (h : n < 2^256) : bigEndian (wordOf n) = n := by
  have hword : wordOf n = lowBytes 32 n := rfl
  have hpow : 256^32 = 2^256 := by norm_num
  rw [hword,bigEndian_lowBytes,hpow,Nat.mod_eq_of_lt h]

theorem lowBytes_bigEndian (l : Bytes) : lowBytes l.length (bigEndian l) = l := by
  induction l using reverseRecOn with
  | nil => rfl
  | append_singleton l b ih =>
    have hb := b.toNat_lt
    have hdiv : (bigEndian l*256+b.toNat)/256 = bigEndian l := by omega
    have hmod : (bigEndian l*256+b.toNat).toUInt8 = b := by
      apply UInt8.toNat_inj.mp
      rw [UInt8.toNat_ofNat']
      omega
    rw [length_append,length_singleton,bigEndian_snoc,lowBytes_succ,hdiv,ih,hmod]

theorem wordOf_bigEndian (h : l.length = 32) : wordOf (bigEndian l) = l := by
  have hword := lowBytes_bigEndian l
  rw [h] at hword
  exact hword

@[simp] theorem length_wordOf (n : Nat) : (wordOf n).length = 32 := by simp [wordOf]

theorem bigEndian_lt_of_length (h : l.length = 32) : bigEndian l < 2^256 := by
  have hlt := bigEndian_lt l
  rw [h] at hlt
  calc bigEndian l < 256^32 := hlt
    _ = 2^256 := by norm_num

theorem bitLen_le_iff (n k : Nat) : bitLen n ≤ k ↔ n < 2^k := by
  unfold bitLen
  split
  · rename_i h
    simp [h]
  · rename_i h
    exact Nat.log2_lt h

theorem take_of_words (h : l.length = k) : (l++r).take k = l := by
  rw [← h,take_left]

theorem drop_of_words (h : l.length = k) : (l++r).drop k = r := by
  rw [← h,drop_left]

theorem take_drop_words (l : Bytes) (k : Nat) :
    l.take k++(l.drop k).take 32++l.drop (k+32) = l := by
  rw [append_assoc,← drop_drop,take_append_drop,take_append_drop]

theorem eq_replicate_zero (hlen : l.length = k) (h : ¬∃ b ∈ l, b ≠ 0) : l = List.replicate k 0 := by
  refine eq_replicate_iff.mpr ⟨hlen,fun b hb => ?_⟩
  by_contra hne
  exact h ⟨b,hb,hne⟩

theorem length_tierMessage (m n : Nat) : (tierMessage t m n).length = tierMessagePayloadLen := by
  simp [tierMessage,tierMessagePayloadLen]

theorem parseTierMessage_tierMessage (hm : m < 2^256) (hn : n < 2^256) :
    parseTierMessage (tierMessage t m n) t = .ok (m,n) := by
  have hzero : (tierMessage t m n).take 31 = replicate 31 0 := by
    unfold tierMessage
    rw [append_assoc,append_assoc]
    exact take_of_words (length_replicate)
  have htype : (tierMessage t m n)[31]? = some t := by
    simp [tierMessage]
  have hfirst : ((tierMessage t m n).drop 32).take 32 = wordOf m := by
    unfold tierMessage
    rw [append_assoc,drop_of_words (by simp),take_of_words (length_wordOf m)]
  have hsecond : ((tierMessage t m n).drop 64).take 32 = wordOf n := by
    unfold tierMessage
    rw [drop_of_words (by simp),take_of_length_le (length_wordOf n).le]
  unfold parseTierMessage
  rw [if_neg (not_not.mpr (length_tierMessage t m n)),hzero,if_neg (by simp),
    if_neg (not_not.mpr htype),hfirst,hsecond,bigEndian_wordOf hm,bigEndian_wordOf hn]

theorem buildTierMessage_nat (hm : m < 2^256) (hn : n < 2^256) :
    buildTierMessage t (some m) (some n) = .ok (tierMessage t m n) := by
  have hmbits := (bitLen_le_iff m 256).mpr hm
  have hnbits := (bitLen_le_iff n 256).mpr hn
  simp only [buildTierMessage,Int.toNat_natCast]
  rw [if_neg (by omega),if_neg (by omega)]

theorem eq_tierMessage_of_parseTierMessage {t : UInt8} {a b : Int}
    (h : parseTierMessage payload t = .ok (a,b)) :
    ∃ m n : Nat, m < 2^256 ∧ n < 2^256 ∧ a = m ∧ b = n ∧ payload = tierMessage t m n := by
  unfold parseTierMessage at h
  split at h
  · cases h
  rename_i hlen
  split at h
  · cases h
  rename_i hpad
  split at h
  · cases h
  rename_i htype
  cases h
  replace hlen : payload.length = 96 := not_not.mp hlen
  have hzero : payload.take 31 = replicate 31 0 :=
    eq_replicate_zero (by simp [hlen]) hpad
  have htag : payload.take 32 = replicate 31 0++[t] := by
    rw [take_add_one,hzero,not_not.mp htype]
    rfl
  have hfirst : ((payload.drop 32).take 32).length = 32 := by simp [hlen]
  have hsecond : ((payload.drop 64).take 32).length = 32 := by simp [hlen]
  refine ⟨_,_,bigEndian_lt_of_length hfirst,bigEndian_lt_of_length hsecond,rfl,rfl,?_⟩
  have hlast : (payload.drop 64).take 32 = payload.drop 64 :=
    take_of_length_le (by simp [hlen])
  unfold tierMessage
  rw [wordOf_bigEndian hfirst,wordOf_bigEndian hsecond,← htag,hlast]
  exact (take_drop_words payload 32).symm

theorem parseAssetPayload_ok {bz : Bytes}
    (h : parseAssetPayload payload = .ok (bz,erc20)) : 0 ≤ erc20 ∧ erc20 < 2^256 := by
  unfold parseAssetPayload at h
  split at h
  · cases h
  · cases h
    have hlt := bigEndian_lt ((payload.drop 32).take 32)
    have hlen : ((payload.drop 32).take 32).length ≤ 32 := length_take_le _ _
    have hpow := Nat.pow_le_pow_right (n := 256) (by decide) hlen
    refine ⟨Int.natCast_nonneg _,?_⟩
    have hbound : bigEndian ((payload.drop 32).take 32) < 2^256 := by
      calc _ < 256^((payload.drop 32).take 32).length := hlt
        _ ≤ 256^32 := hpow
        _ = 2^256 := by norm_num
    exact_mod_cast hbound

theorem parseAssetPayload_buildAssetPayload {body : Bytes}
    (h : buildAssetPayload recipient erc20 = .ok body) :
    0 < erc20 ∧ parseAssetPayload body = .ok (recipient,erc20) := by
  unfold buildAssetPayload at h
  split at h
  · cases h
  · split at h
    · cases h
    · split at h
      · cases h
      · rename_i hlen hpos hbits
        cases h
        have hlen32 : recipient.length = 32 := not_not.mp hlen
        have hword : (wordOf erc20.toNat).length = 32 := by simp [wordOf]
        have hlt := (bitLen_le_iff _ _).mp (not_lt.mp hbits)
        refine ⟨not_le.mp hpos,?_⟩
        unfold parseAssetPayload
        rw [if_neg (by simp [hlen32,hword,assetPayloadLen])]
        rw [take_append_of_le_length hlen32.ge,take_of_length_le hlen32.le,
          drop_append_of_le_length hlen32.ge,drop_of_length_le hlen32.le,nil_append,
          take_of_length_le hword.le,bigEndian_wordOf hlt,Int.toNat_of_nonneg (by omega)]

theorem buildAssetPayload_of_bounds
    (hlen : recipient.length = 32) (hpos : 1 ≤ erc20) (hlt : erc20 < 2^256) :
    buildAssetPayload recipient erc20 = .ok (recipient++wordOf erc20.toNat) := by
  have hbits : bitLen erc20.toNat ≤ 256 := (bitLen_le_iff _ _).mpr (by omega)
  unfold buildAssetPayload
  rw [if_neg (not_not.mpr (by exact hlen)),if_neg (by omega),if_neg (by omega)]

theorem parseAssetPayload_of_length (h : payload.length = 64) :
    parseAssetPayload payload = .ok (payload.take 32,bigEndian (payload.drop 32)) := by
  have hword : (payload.drop 32).take 32 = payload.drop 32 :=
    take_of_length_le (by simp [h])
  unfold parseAssetPayload
  rw [if_neg (not_not.mpr (by exact h)),hword]

theorem eq_of_parseAssetPayload (h : parseAssetPayload payload = .ok (recipient,erc20)) :
    recipient.length = 32 ∧ payload = recipient++wordOf erc20.toNat := by
  have hlen : payload.length = 64 := by
    by_contra hne
    unfold parseAssetPayload at h
    rw [if_pos (by exact hne)] at h
    cases h
  rw [parseAssetPayload_of_length hlen] at h
  cases h
  refine ⟨by simp [hlen],?_⟩
  rw [Int.toNat_natCast,wordOf_bigEndian (by simp [hlen]),take_append_drop]

theorem cosmosAddressFromHyperlane_eq_ok_iff (addr acc : Bytes) :
    cosmosAddressFromHyperlane addr = .ok acc ↔
      acc.length = 20 ∧ (∃ b ∈ acc, b ≠ 0) ∧ addr = List.replicate 12 0++acc := by
  constructor
  · intro h
    unfold cosmosAddressFromHyperlane at h
    split at h
    · cases h
    rename_i hlen
    split at h
    · cases h
    rename_i hpad
    split at h
    · cases h
    rename_i hzero
    cases h
    replace hlen : addr.length = 32 := not_not.mp hlen
    have htake : addr.take 12 = replicate 12 0 := eq_replicate_zero (by simp [hlen]) hpad
    refine ⟨by simp [hlen],?_,?_⟩
    · push Not at hzero
      exact hzero
    · rw [← htake,take_append_drop]
  · rintro ⟨hlen,⟨b,hb,hne⟩,rfl⟩
    have htake : (replicate 12 0++acc).take 12 = replicate 12 0 :=
      take_of_words length_replicate
    have hdrop : (replicate 12 0++acc).drop 12 = acc :=
      drop_of_words length_replicate
    unfold cosmosAddressFromHyperlane
    rw [if_neg (by simp [hlen,hexAddressLen]),htake,if_neg (by simp),hdrop,
      if_neg (fun hall => hne (hall b hb))]

theorem cosmosAddressFromHyperlane_inj {r₁ r₂ acc : Bytes}
    (h₁ : cosmosAddressFromHyperlane r₁ = .ok acc) (h₂ : cosmosAddressFromHyperlane r₂ = .ok acc) :
    r₁ = r₂ := by
  rw [((cosmosAddressFromHyperlane_eq_ok_iff r₁ acc).mp h₁).2.2,
    ((cosmosAddressFromHyperlane_eq_ok_iff r₂ acc).mp h₂).2.2]

/-- Both formats are exact: each reader inverts its writer over all 256-bit amounts,
accepts nothing the writer would not have written, and an account and an amount are named
by one payload only. -/
theorem wire_formats_exact : (∀ (t : UInt8) (a b : Int), 0 ≤ a → a < 2^256 → 0 ≤ b → b < 2^256 →
      ∃ body, buildTierMessage t (some a) (some b) = .ok body ∧
        parseTierMessage body t = .ok (a,b)) ∧
    (∀ (t : UInt8) (payload : Bytes) (a b : Int), parseTierMessage payload t = .ok (a,b) →
      buildTierMessage t (some a) (some b) = .ok payload) ∧
    (∀ (recipient : Bytes) (amount : Int), recipient.length = 32 → 1 ≤ amount → amount < 2^256 →
      ∃ body, buildAssetPayload recipient amount = .ok body ∧
        parseAssetPayload body = .ok (recipient,amount)) ∧
    (∀ payload : Bytes, payload.length = 64 → ∃ recipient amount,
      parseAssetPayload payload = .ok (recipient,amount) ∧
        (amount ≠ 0 → buildAssetPayload recipient amount = .ok payload)) ∧
    (∀ addr acc : Bytes, cosmosAddressFromHyperlane addr = .ok acc ↔
      acc.length = 20 ∧ (∃ b ∈ acc, b ≠ 0) ∧ addr = List.replicate 12 0++acc) ∧
    (∀ r₁ r₂ acc : Bytes, cosmosAddressFromHyperlane r₁ = .ok acc →
      cosmosAddressFromHyperlane r₂ = .ok acc → r₁ = r₂) ∧
    ∀ (p₁ p₂ r₁ r₂ acc : Bytes) (amount : Int),
      parseAssetPayload p₁ = .ok (r₁,amount) → cosmosAddressFromHyperlane r₁ = .ok acc →
      parseAssetPayload p₂ = .ok (r₂,amount) → cosmosAddressFromHyperlane r₂ = .ok acc →
      p₁ = p₂ := by
  refine ⟨?_,?_,?_,?_,cosmosAddressFromHyperlane_eq_ok_iff,?_,?_⟩
  · intro t a b ha halt hb hblt
    obtain ⟨m,rfl⟩ := Int.eq_ofNat_of_zero_le ha
    obtain ⟨n,rfl⟩ := Int.eq_ofNat_of_zero_le hb
    have hm : m < 2^256 := by exact_mod_cast halt
    have hn : n < 2^256 := by exact_mod_cast hblt
    exact ⟨_,buildTierMessage_nat t hm hn,parseTierMessage_tierMessage t hm hn⟩
  · intro t payload a b h
    obtain ⟨m,n,hm,hn,rfl,rfl,rfl⟩ := eq_tierMessage_of_parseTierMessage h
    exact buildTierMessage_nat t hm hn
  · intro recipient amount hlen hpos hlt
    have hbuild := buildAssetPayload_of_bounds hlen hpos hlt
    exact ⟨_,hbuild,(parseAssetPayload_buildAssetPayload hbuild).2⟩
  · intro payload hlen
    have hparse := parseAssetPayload_of_length hlen
    obtain ⟨hrecipient,hpayload⟩ := eq_of_parseAssetPayload hparse
    have hbounds := parseAssetPayload_ok hparse
    refine ⟨_,_,hparse,fun hne => ?_⟩
    rw [buildAssetPayload_of_bounds hrecipient (by omega) hbounds.2,← hpayload]
  · intro r₁ r₂ acc
    exact cosmosAddressFromHyperlane_inj
  · intro p₁ p₂ r₁ r₂ acc amount hp₁ hr₁ hp₂ hr₂
    rw [(eq_of_parseAssetPayload hp₁).2,(eq_of_parseAssetPayload hp₂).2,
      cosmosAddressFromHyperlane_inj hr₁ hr₂]

theorem wire_formats_exact_receipt :
    ∃ body, buildTierMessage msgTypeReleaseReceipt (some (2^256-1)) (some 7) = .ok body ∧
      parseTierMessage body msgTypeReleaseReceipt = .ok (2^256-1,7) :=
  wire_formats_exact.1 msgTypeReleaseReceipt (2^256-1) 7 (by norm_num) (by norm_num)
    (by norm_num) (by norm_num)

end Atoshi.Bridge
