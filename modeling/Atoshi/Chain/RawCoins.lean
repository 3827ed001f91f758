import Atoshi.Chain.Coins
import Atoshi.Chain.Errors

namespace Atoshi
open List Coins

/-- The name of a denom in an error text; other denoms go by their number. -/
def Denom.text : Denom → String
  | .atos => "liao"
  | .atox => "aatox"
  | .other id => toString id

/-- `sdk.Coins` as a message carries it: a list that nothing has checked. -/
abbrev RawCoins := List (Denom × Int)

namespace RawCoins

/-- `Coins.Find`, a binary search that trusts the order of the list. The first argument
bounds the depth. -/
def findWithin : Nat → RawCoins → Denom → Option (Denom × Int)
  | 0, _, _ => none
  | _+1, [], _ => none
  | _+1, [c], d => if c.1 = d then some c else none
  | n+1, l, d =>
    match l[l.length/2]? with
    | none => none
    | some c =>
      if d < c.1 then findWithin n (l.take (l.length/2)) d
      else if c.1 = d then some c
      else findWithin n (l.drop (l.length/2+1)) d

def find (l : RawCoins) (d : Denom) : Option (Denom × Int) := findWithin l.length l d

def amountOf (l : RawCoins) (d : Denom) : Int := ((l.find d).map Prod.snd).getD 0

/-- Of two coins of one denom the search sees one. -/
example : amountOf [(.atox,1000),(.atox,10)] .atox = 10 := by decide

/-- `Coins.isSorted`: equal denoms may follow each other. -/
def IsSorted (l : RawCoins) : Prop := l.Pairwise fun p q => p.1 ≤ q.1

instance (l : RawCoins) : Decidable l.IsSorted := inferInstanceAs (Decidable (List.Pairwise _ _))

def IsValid (l : RawCoins) : Prop := Binding.Ascending l ∧ ∀ p ∈ l, 0 < p.2

instance (l : RawCoins) : Decidable l.IsValid :=
  inferInstanceAs (Decidable (List.Pairwise (fun p q => p.1 < q.1) l ∧ ∀ p ∈ l, 0 < p.2))

def IsAllPositive (l : RawCoins) : Prop := l ≠ [] ∧ ∀ p ∈ l, 0 < p.2

instance (l : RawCoins) : Decidable l.IsAllPositive :=
  inferInstanceAs (Decidable (l ≠ [] ∧ ∀ p ∈ l, 0 < p.2))

def validate (l : RawCoins) : Except Err Coins :=
  if h : l.IsValid then
    .ok ⟨⟨l,h.1⟩,fun d x hd => h.2 (d,x) (Binding.mem_of_find_eq_some hd)⟩
  else .error (.failed "invalid coins")

/-- `Coins.Sub`: entries of one denom are added up, and what comes to zero drops out. -/
def sub (l : RawCoins) (c : Coins) : Except Err Coins :=
  let denoms := l.map Prod.fst++c.denoms
  let diff := fun d => listAmount l d-c.amountOf d
  if ¬l.IsSorted then .error (.panicked "Coins (self) must be sorted")
  else if ∃ d ∈ denoms, diff d < 0 then .error (.panicked "negative coin amount")
  else .ok (collect diff denoms)

variable {d : Denom} {c : Coins} {l : RawCoins}

theorem findWithin_mem {n : Nat} {c : Denom × Int}
    (h : findWithin n l d = some c) : c ∈ l ∧ c.1 = d := by
  fun_induction findWithin n l d with
  | case1 | case2 => cases h
  | case3 n p =>
    cases h
    exact ⟨mem_singleton_self _,rfl⟩
  | case4 | case5 => cases h
  | case6 n l d hnone hone p hget hlt ih =>
    obtain ⟨hmem,heq⟩ := ih h
    exact ⟨mem_of_mem_take hmem,heq⟩
  | case7 n l hnone hone p hget hlt =>
    cases h
    exact ⟨mem_of_getElem? hget,rfl⟩
  | case8 n l d hnone hone p hget hlt hne ih =>
    obtain ⟨hmem,heq⟩ := ih h
    exact ⟨mem_of_mem_drop hmem,heq⟩

theorem find_mem {c : Denom × Int} (h : l.find d = some c) :
    c ∈ l ∧ c.1 = d := findWithin_mem h

theorem eq_around {m : Nat} {c : Denom × Int} (h : l[m]? = some c) :
    l = l.take m++c :: l.drop (m+1) := by
  obtain ⟨hm,rfl⟩ := List.getElem?_eq_some_iff.mp h
  rw [← List.drop_eq_getElem_cons hm,List.take_append_drop]

theorem findWithin_of_mem {n : Nat} {x : Int}
    (hl : Binding.Ascending l) (hn : l.length ≤ n) (hmem : (d,x) ∈ l) :
    findWithin n l d = some (d,x) := by
  fun_induction findWithin n l d with
  | case1 l d =>
    rw [length_eq_zero_iff.mp (Nat.le_zero.mp hn)] at hmem
    cases hmem
  | case2 => cases hmem
  | case3 n p => rw [mem_singleton.mp hmem]
  | case4 n p d hne => exact absurd (congrArg Prod.fst (mem_singleton.mp hmem).symm) hne
  | case5 n l d hnone hone hget =>
    have hpos := length_pos_of_mem hmem
    rw [getElem?_eq_none_iff] at hget
    omega
  | case6 n l d hnone hone p hget hlt ih =>
    have hpos := length_pos_of_mem hmem
    have hsplit := eq_around hget
    rw [hsplit] at hl hmem
    obtain ⟨htake,hrest,_⟩ := pairwise_append.mp hl
    refine ih htake (by rw [length_take]; omega) ?_
    rcases mem_append.mp hmem with hleft | hright
    · exact hleft
    · rcases mem_cons.mp hright with heq | hdrop
      · exact absurd (congrArg Prod.fst heq) hlt.ne
      · exact absurd ((pairwise_cons.mp hrest).1 _ hdrop) (lt_asymm hlt)
  | case7 n l hnone hone p hget hlt =>
    have hp : (p.1,p.2) ∈ l := mem_of_getElem? hget
    have hself := Binding.find_eq_some_of_mem hl hp
    rw [Binding.find_eq_some_of_mem hl hmem] at hself
    rw [Option.some.inj hself]
  | case8 n l d hnone hone p hget hlt hne ih =>
    have hpos := length_pos_of_mem hmem
    have hsplit := eq_around hget
    rw [hsplit] at hl hmem
    obtain ⟨_,hrest,hcross⟩ := pairwise_append.mp hl
    refine ih (pairwise_cons.mp hrest).2 (by rw [length_drop]; omega) ?_
    rcases mem_append.mp hmem with hleft | hright
    · exact absurd (hcross _ hleft p mem_cons_self) hlt
    · rcases mem_cons.mp hright with heq | hdrop
      · exact absurd (congrArg Prod.fst heq).symm hne
      · exact hdrop

theorem amountOf_entries (c : Coins) (d : Denom) : amountOf c.store.entries d = c.amountOf d := by
  unfold amountOf Coins.amountOf
  cases hget : c.store.get d with
  | some x =>
    rw [find,findWithin_of_mem c.store.ascending (le_refl _) (c.store.mem_entries_iff.mpr hget)]
    rfl
  | none =>
    cases hfind : find c.store.entries d with
    | none => rfl
    | some p =>
      obtain ⟨hmem,rfl⟩ := find_mem hfind
      rw [c.store.mem_entries_iff.mp hmem] at hget
      cases hget

theorem isValid_entries (c : Coins) : IsValid c.store.entries :=
  ⟨c.store.ascending,fun p hp => c.positive p.1 p.2 (c.store.mem_entries_iff.mp hp)⟩

@[simp] theorem validate_entries (c : Coins) : validate c.store.entries = .ok c := by
  rw [validate,dif_pos (isValid_entries c)]

theorem validate_eq_ok (h : l.validate = .ok c) :
    c.store.entries = l := by
  unfold validate at h
  split at h
  · cases h
    rfl
  · cases h

theorem amountOf_validate (h : l.validate = .ok c) (d : Denom) :
    c.amountOf d = listAmount l d := by
  rw [← validate_eq_ok h,listAmount_entries]

theorem listAmount_of_not_mem (h : d ∉ l.map Prod.fst) :
    listAmount l d = 0 := by
  induction l with
  | nil => rfl
  | cons p rest ih =>
    rw [map_cons,mem_cons,not_or] at h
    simpa [listAmount,Ne.symm h.1] using ih h.2

theorem amountOf_sub {net : Coins} (h : l.sub c = .ok net) (d : Denom) :
    net.amountOf d = listAmount l d-c.amountOf d := by
  unfold sub at h
  simp only at h
  split at h
  · cases h
  · split at h
    · cases h
    · rename_i hneg
      cases h
      have hout : d ∉ l.map Prod.fst++c.denoms → listAmount l d-c.amountOf d = 0 := by
        intro hd
        rw [mem_append,not_or] at hd
        rw [listAmount_of_not_mem hd.1,amountOf_of_not_mem hd.2,Int.sub_zero]
      refine amountOf_collect_of_nonneg ?_ hout
      by_cases hd : d ∈ l.map Prod.fst++c.denoms
      · exact not_lt.mp fun hlt => hneg ⟨d,hd,hlt⟩
      · exact (hout hd).ge

theorem sub_entries {x : Int} (hx : 0 < x) (hle : x ≤ c.amountOf d) :
    sub c.store.entries (new d x) = .ok (c.withAmount d (c.amountOf d-x)) := by
  have hsorted : IsSorted c.store.entries := List.Pairwise.imp le_of_lt c.store.ascending
  have hdiff : ∀ e, listAmount c.store.entries e-(new d x).amountOf e =
      (c.withAmount d (c.amountOf d-x)).amountOf e := by
    intro e
    rw [listAmount_entries,amountOf_new,amountOf_withAmount]
    by_cases he : e = d
    · rw [if_pos he,if_pos he,he]
      omega
    · rw [if_neg he,if_neg he,Int.sub_zero]
  obtain ⟨net,hok⟩ : ∃ net, sub c.store.entries (new d x) = .ok net := by
    unfold sub
    rw [if_neg (not_not.mpr hsorted),if_neg]
    · exact ⟨_,rfl⟩
    · rintro ⟨e,_,hneg⟩
      simp only [hdiff] at hneg
      exact absurd ((c.withAmount d (c.amountOf d-x)).amountOf_nonneg e) (not_le.mpr hneg)
  rw [hok]
  refine congrArg Except.ok (ext_amountOf fun e => ?_)
  rw [amountOf_sub hok,hdiff]

end RawCoins

end Atoshi
