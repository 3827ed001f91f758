import Mathlib.Tactic

namespace Atoshi.Merkle
open List

/-! Hash trees whose pairs are hashed without their order and whose unpaired last nodes move
up a level as they are. -/

variable {X D : Type}

/-- A hash and the text a pair is hashed from. Digests are the values the hash can give;
a text of two digests tells them apart from all others, but not from each other. -/
structure Scheme (X D : Type) where
  hash : X → D
  join : D → D → X
  digest : D → Prop
  digest_hash : ∀ x, digest (hash x)
  join_comm : ∀ a b, join a b = join b a
  eq_of_join : ∀ {a b c d}, digest a → digest b → digest c → digest d →
    join a b = join c d → a = c ∨ a = d

namespace Scheme

variable (m : Scheme X D)

def combine (a b : D) : D := m.hash (m.join a b)

theorem combine_comm (a b : D) : m.combine a b = m.combine b a := by
  rw [combine,m.join_comm]
  rfl

def walk (current : D) (siblings : List D) : D := siblings.foldl m.combine current

def walkTexts (current : D) : List D → List X
  | [] => []
  | s :: rest => m.join current s :: walkTexts (m.combine current s) rest

def levelUp : List D → List D
  | [] => []
  | [a] => [a]
  | a :: b :: rest => m.combine a b :: levelUp rest

def levelTexts : List D → List X
  | [] => []
  | [_] => []
  | a :: b :: rest => m.join a b :: levelTexts rest

/-- The levels from the leaves up; the number of leaves is fuel enough. -/
def levels : Nat → List D → List (List D)
  | 0, l => [l]
  | fuel+1, l => if l.length ≤ 1 then [l] else l :: levels fuel (m.levelUp l)

def treeTexts : Nat → List D → List X
  | 0, _ => []
  | fuel+1, l => if l.length ≤ 1 then [] else m.levelTexts l++treeTexts fuel (m.levelUp l)

end Scheme

def top (ls : List (List D)) : Option D := ls.getLast?.bind List.head?

def sibling (i : Nat) : Nat := if i%2 = 0 then i+1 else i-1

/-- The siblings from the node at an index up; a promoted node has none at its level. -/
def proofFor : Nat → List (List D) → List D
  | i, nodes :: above :: rest => (nodes[sibling i]?).toList++proofFor (i/2) (above :: rest)
  | _, _ => []

namespace Scheme

variable (m : Scheme X D)

theorem length_levelUp (l : List D) : (m.levelUp l).length = (l.length+1)/2 := by
  fun_induction levelUp m l with
  | case1 | case2 a => simp
  | case3 a b rest ih =>
    simp only [length_cons,ih]
    omega

theorem levels_ne_nil (fuel : Nat) (l : List D) : m.levels fuel l ≠ [] := by
  cases fuel with
  | zero => simp [levels]
  | succ fuel =>
    rw [levels]
    split <;> simp

variable {v : D} {fuel i : Nat} {l : List D}

theorem levels_of_le (h : l.length ≤ 1) : m.levels fuel l = [l] := by
  cases fuel with
  | zero => rfl
  | succ fuel => rw [levels,if_pos h]

theorem levels_succ (h : 1 < l.length) :
    m.levels (fuel+1) l = l :: m.levels fuel (m.levelUp l) := by
  rw [levels,if_neg (not_le.mpr h)]

theorem top_levels_succ (h : 1 < l.length) :
    top (m.levels (fuel+1) l) = top (m.levels fuel (m.levelUp l)) := by
  rw [levels_succ m h,top,top,getLast?_cons]
  cases hl : m.levels fuel (m.levelUp l) with
  | nil => exact absurd hl (m.levels_ne_nil _ _)
  | cons x xs => simp [getLast?_cons]

theorem walk_append (v : D) (xs ys : List D) : m.walk v (xs++ys) = m.walk (m.walk v xs) ys :=
  foldl_append

theorem getElem?_levelUp (h : l[i]? = some v) :
    (m.levelUp l)[i/2]? = some (m.walk v (l[sibling i]?).toList) := by
  induction l using levelUp.induct generalizing i with
  | case1 => simp at h
  | case2 a =>
    match i, h with
    | 0, h =>
      cases h
      rfl
  | case3 a b rest ih =>
    match i, h with
    | 0, h =>
      cases h
      rfl
    | 1, h =>
      cases h
      exact congrArg some (m.combine_comm a v)
    | i+2, h =>
      have hs : sibling (i+2) = sibling i+2 := by
        unfold sibling
        split_ifs <;> omega
      rw [hs,levelUp,Nat.add_div_right i (by decide)]
      exact ih h

theorem top_levels_of_le (hl : l.length ≤ 1) (h : l[i]? = some v) :
    top (m.levels fuel l) = some (m.walk v (proofFor i (m.levels fuel l))) := by
  match l, hl with
  | [a], hl =>
    match i, h with
    | 0, h =>
      cases h
      rw [m.levels_of_le hl]
      rfl

theorem proofFor_cons (i : Nat) (nodes : List D) {ls : List (List D)} (h : ls ≠ []) :
    proofFor i (nodes :: ls) = (nodes[sibling i]?).toList++proofFor (i/2) ls := by
  obtain ⟨above,rest,rfl⟩ := exists_cons_of_ne_nil h
  rfl

theorem top_levels_eq_walk (hfuel : l.length ≤ fuel+1) (h : l[i]? = some v) :
    top (m.levels fuel l) = some (m.walk v (proofFor i (m.levels fuel l))) := by
  induction fuel generalizing l i v with
  | zero => exact m.top_levels_of_le hfuel h
  | succ fuel ih =>
    by_cases hl : l.length ≤ 1
    · exact m.top_levels_of_le hl h
    · have hlong := not_le.mp hl
      have hlength : (m.levelUp l).length ≤ fuel+1 := by
        rw [length_levelUp]
        omega
      rw [m.top_levels_succ hlong,m.levels_succ hlong,ih hlength (m.getElem?_levelUp h),
        proofFor_cons _ _ (m.levels_ne_nil _ _),walk_append]

theorem digest_levelUp (hl : ∀ v ∈ l, m.digest v) : ∀ v ∈ m.levelUp l, m.digest v := by
  induction l using levelUp.induct with
  | case1 => simp [levelUp]
  | case2 a => exact hl
  | case3 a b rest ih =>
    simp only [forall_mem_cons,levelUp] at hl ⊢
    exact ⟨m.digest_hash _,ih hl.2.2⟩

theorem digest_proofFor (hl : ∀ v ∈ l, m.digest v) (i : Nat) :
    ∀ s ∈ proofFor i (m.levels fuel l), m.digest s := by
  induction fuel generalizing l i with
  | zero => simp [levels,proofFor]
  | succ fuel ih =>
    by_cases hlen : l.length ≤ 1
    · simp [m.levels_of_le hlen,proofFor]
    · rw [m.levels_succ (not_le.mp hlen),proofFor_cons _ _ (m.levels_ne_nil _ _)]
      intro s hs
      rcases mem_append.mp hs with hs | hs
      · exact hl s (mem_of_getElem? (Option.mem_toList.mp hs))
      · exact ih (m.digest_levelUp hl) (i/2) s hs

theorem proofFor_levels_ne_nil (hfuel : l.length ≤ fuel+1)
    (hl : 2 ≤ l.length) (hi : i < l.length) : proofFor i (m.levels fuel l) ≠ [] := by
  induction fuel generalizing l i with
  | zero => omega
  | succ fuel ih =>
    rw [m.levels_succ hl,proofFor_cons _ _ (m.levels_ne_nil _ _)]
    by_cases hs : sibling i < l.length
    · simp [getElem?_eq_getElem hs]
    · -- promoted: more than two leaves, so the next level has at least two nodes
      have hlength := m.length_levelUp l
      have hpromoted : i%2 = 0 ∧ l.length ≤ i+1 := by
        unfold sibling at hs
        split at hs <;> omega
      have habove := ih (l := m.levelUp l) (i := i/2) (by omega) (by omega) (by omega)
      simp [habove]

/-- The node values of a tree: hashes of the texts of its leaves and of the pairs it was built
from. -/
inductive Node (leaves pairs : List X) : D → Prop where
  | leaf {x : X} : x ∈ leaves → Node leaves pairs (m.hash x)
  | pair {a b : D} : Node leaves pairs a → Node leaves pairs b → m.join a b ∈ pairs →
      Node leaves pairs (m.combine a b)

theorem node_levelUp {leaves pairs : List X}
    (hl : ∀ v ∈ l, m.Node leaves pairs v) (hpairs : ∀ x ∈ m.levelTexts l, x ∈ pairs) :
    ∀ v ∈ m.levelUp l, m.Node leaves pairs v := by
  induction l using levelUp.induct with
  | case1 => simp [levelUp]
  | case2 a => exact hl
  | case3 a b rest ih =>
    simp only [forall_mem_cons,levelTexts,levelUp] at hl hpairs ⊢
    exact ⟨.pair hl.1 hl.2.1 hpairs.1,ih hl.2.2 hpairs.2⟩

theorem node_top {leaves pairs : List X}
    (hl : ∀ v ∈ l, m.Node leaves pairs v) (hpairs : ∀ x ∈ m.treeTexts fuel l, x ∈ pairs)
    (h : top (m.levels fuel l) = some v) : m.Node leaves pairs v := by
  induction fuel generalizing l with
  | zero => exact hl v (mem_of_mem_head? h)
  | succ fuel ih =>
    by_cases hlen : l.length ≤ 1
    · rw [m.levels_of_le hlen] at h
      exact hl v (mem_of_mem_head? h)
    · rw [m.top_levels_succ (not_le.mp hlen)] at h
      rw [treeTexts,if_neg hlen] at hpairs
      simp only [forall_mem_append] at hpairs
      exact ih (m.node_levelUp hl hpairs.1) hpairs.2 h

/-- Two different texts, one from each list, with the same hash. -/
def Collides (xs ys : List X) : Prop := ∃ x ∈ xs, ∃ y ∈ ys, x ≠ y ∧ m.hash x = m.hash y

variable {m}

theorem Node.digest {leaves pairs : List X} (h : m.Node leaves pairs v) : m.digest v := by
  cases h <;> exact m.digest_hash _

theorem Collides.mono {xs xs' ys ys' : List X} (h : m.Collides xs ys) (hx : xs ⊆ xs')
    (hy : ys ⊆ ys') : m.Collides xs' ys' := by
  obtain ⟨x,hxs,y,hys,hne,heq⟩ := h
  exact ⟨x,hx hxs,y,hy hys,hne,heq⟩

theorem Collides.of_hash_eq {x y : X} {xs ys : List X} (hx : x ∈ xs) (hy : y ∈ ys)
    (h : m.hash x = m.hash y) : x = y ∨ m.Collides xs ys := by
  by_cases heq : x = y
  · exact .inl heq
  · exact .inr ⟨x,hx,y,hy,heq,h⟩

theorem Node.text_of_hash {leaves pairs : List X} {x : X} (h : m.Node leaves pairs (m.hash x)) :
    x ∈ leaves ∨ (∃ a b, m.Node leaves pairs a ∧ m.Node leaves pairs b ∧ x = m.join a b) ∨
      m.Collides [x] (leaves++pairs) := by
  generalize hv : m.hash x = v at h
  cases h with
  | leaf hy =>
    rcases Collides.of_hash_eq (mem_singleton_self x) (mem_append_left pairs hy) hv with
      rfl | hcollides
    · exact .inl hy
    · exact .inr (.inr hcollides)
  | @pair a b ha hb hab =>
    rcases Collides.of_hash_eq (mem_singleton_self x) (mem_append_right leaves hab) hv
      with rfl | hcollides
    · exact .inr (.inl ⟨a,b,ha,hb,rfl⟩)
    · exact .inr (.inr hcollides)

section Sound

variable {leaves pairs : List X}

-- no leaf reads like a pair
variable (hleaves : ∀ x ∈ leaves, ∀ a b, m.digest a → m.digest b → x ≠ m.join a b)

include hleaves

theorem Node.of_walk {siblings : List D} (hsiblings : ∀ s ∈ siblings, m.digest s) {current : D}
    (hcurrent : m.digest current) (h : m.Node leaves pairs (m.walk current siblings)) :
    m.Node leaves pairs current ∨ m.Collides (m.walkTexts current siblings) (leaves++pairs) := by
  induction siblings generalizing current with
  | nil => exact .inl h
  | cons s rest ih =>
    have hs : m.digest s := hsiblings s mem_cons_self
    have hrest : ∀ s ∈ rest, m.digest s := fun r hr => hsiblings r (mem_cons_of_mem s hr)
    rcases ih hrest (m.digest_hash _) h with hnode | hcollides
    · rcases hnode.text_of_hash with hleaf | ⟨a,b,ha,hb,hjoin⟩ | hcollides
      · exact absurd rfl (hleaves _ hleaf current s hcurrent hs)
      · rcases m.eq_of_join hcurrent hs ha.digest hb.digest hjoin with rfl | rfl
        · exact .inl ha
        · exact .inl hb
      · exact .inr (hcollides.mono (by simp [walkTexts]) (List.Subset.refl _))
    · exact .inr (hcollides.mono (subset_cons_self _ _) (List.Subset.refl _))

/-- A proof from a text to the root of a tree: the text is one of the leaves, or a text
hashed on the walk collides with one hashed for the tree. -/
theorem leaf_of_walk {siblings : List D} (hsiblings : ∀ s ∈ siblings, m.digest s) {x : X}
    (hx : ∀ a b, m.digest a → m.digest b → x ≠ m.join a b)
    (h : m.Node leaves pairs (m.walk (m.hash x) siblings)) :
    x ∈ leaves ∨ m.Collides (x :: m.walkTexts (m.hash x) siblings) (leaves++pairs) := by
  rcases Node.of_walk hleaves hsiblings (m.digest_hash x) h with hnode | hcollides
  · rcases hnode.text_of_hash with hleaf | ⟨a,b,ha,hb,hjoin⟩ | hcollides
    · exact .inl hleaf
    · exact absurd hjoin (hx a b ha.digest hb.digest)
    · exact .inr (hcollides.mono (by simp) (List.Subset.refl _))
  · exact .inr (hcollides.mono (subset_cons_self _ _) (List.Subset.refl _))

end Sound

end Scheme

end Atoshi.Merkle
