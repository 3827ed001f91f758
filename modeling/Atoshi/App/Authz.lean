import Atoshi.Chain.Errors
import Atoshi.Lib.Exec

namespace Atoshi.App.Authz

/-! The two decorators that walk the messages of a transaction into `MsgExec`: the limiter
of authz, and the one that keeps ATOX from leaving over IBC. -/

/-- The messages the decorators tell apart. A `MsgExec` or a `MsgGrant` whose content cannot
be unpacked carries the error of that; a `MsgTransfer` carries the denom of its token. -/
inductive Msg where
  | exec (msgs : List Msg)
  | sealedExec (err : String)
  | grant (url : String)
  | sealedGrant (err : String)
  | transfer (denom : String)
  | other (url : String)

def execUrl : String := "/cosmos.authz.v1beta1.MsgExec"
def grantUrl : String := "/cosmos.authz.v1beta1.MsgGrant"
def transferUrl : String := "/ibc.applications.transfer.v1.MsgTransfer"

def Msg.typeUrl : Msg → String
  | .exec _ => execUrl
  | .sealedExec _ => execUrl
  | .grant _ => grantUrl
  | .sealedGrant _ => grantUrl
  | .transfer _ => transferUrl
  | .other url => url

def maxNestedMsgs : Nat := 7
def maxNestedAtoxMsgs : Nat := 7

/-- A list is refused at the limit, before its messages are looked at. -/
def bounded (limit nestedLvl : Nat) (e : Err) (rest : Except Err Unit) : Except Err Unit :=
  if limit ≤ nestedLvl then .error e else rest

def disabledErr (url : String) : Err := .failed s!"found disabled msg type: {url}"

def tooManyNested : Err :=
  .failed s!"found more nested msgs than permited. Limit is : {maxNestedMsgs}"

mutual

/-- One turn of the loop of `checkDisabledMsgs`; returns the level for the next. A `MsgExec`
raises it for its own messages and for its later siblings alike. -/
def checkMsg (disabled : List String) (isAuthzInnerMsg : Bool) (nestedLvl : Nat) :
    Msg → Except Err Nat
  | .exec inner => do
    bounded maxNestedMsgs (nestedLvl+1) tooManyNested
      (checkLoop disabled true (nestedLvl+1) inner)
    .ok (nestedLvl+1)
  | .sealedExec err => .error (.failed err)
  | .grant url => if url ∈ disabled then .error (disabledErr url) else .ok nestedLvl
  | .sealedGrant err => .error (.failed err)
  | .transfer _ =>
    if isAuthzInnerMsg ∧ transferUrl ∈ disabled then .error (disabledErr transferUrl)
    else .ok nestedLvl
  | .other url =>
    if isAuthzInnerMsg ∧ url ∈ disabled then .error (disabledErr url) else .ok nestedLvl

def checkLoop (disabled : List String) (isAuthzInnerMsg : Bool) (nestedLvl : Nat) :
    List Msg → Except Err Unit
  | [] => .ok ()
  | m :: rest => do
    let lvl ← checkMsg disabled isAuthzInnerMsg nestedLvl m
    checkLoop disabled isAuthzInnerMsg lvl rest

end

def checkDisabledMsgs (disabled : List String) (msgs : List Msg) (isAuthzInnerMsg : Bool)
    (nestedLvl : Nat) : Except Err Unit :=
  bounded maxNestedMsgs nestedLvl tooManyNested (checkLoop disabled isAuthzInnerMsg nestedLvl msgs)

/-- `AuthzLimiterDecorator.AnteHandle`, up to the next decorator. -/
def authzLimiter (disabled : List String) (msgs : List Msg) : Except Err Unit :=
  match checkDisabledMsgs disabled msgs false 1 with
  | .ok _ => .ok ()
  | .error e => .error (.failed s!"{e.text}: unauthorized")

def disabledMsgTypes : List String :=
  ["/ethermint.evm.v1.MsgEthereumTx","/cosmos.vesting.v1beta1.MsgCreateVestingAccount"]

def invalidRequest (text : String) : Err := .failed s!"{text}: invalid request"

def tooManyNestedAtox : Err :=
  invalidRequest s!"too many nested authz messages: limit is {maxNestedAtoxMsgs}"

def atoxIBCError (denom : String) : Err :=
  invalidRequest (denom ++ " cannot be transferred over IBC: it carries a transfer burn and a " ++
    "conversion claim that only exist on this chain, so an escrowed " ++
    "balance would be unbacked and unclaimable")

mutual

def rejectMsg (atoxDenom : String) (depth : Nat) : Msg → Except Err Unit
  | .exec inner =>
    bounded maxNestedAtoxMsgs (depth+1) tooManyNestedAtox (rejectLoop atoxDenom (depth+1) inner)
  | .sealedExec err => .error (invalidRequest s!"cannot decode authz inner messages: {err}")
  | .transfer denom => if denom = atoxDenom then .error (atoxIBCError atoxDenom) else .ok ()
  | _ => .ok ()

/-- The loop of `reject`: every sibling is at the depth of the list. -/
def rejectLoop (atoxDenom : String) (depth : Nat) : List Msg → Except Err Unit
  | [] => .ok ()
  | m :: rest => do
    rejectMsg atoxDenom depth m
    rejectLoop atoxDenom depth rest

end

def reject (atoxDenom : String) (msgs : List Msg) (depth : Nat) : Except Err Unit :=
  bounded maxNestedAtoxMsgs depth tooManyNestedAtox (rejectLoop atoxDenom depth msgs)

/-- `RejectAtoxIBCDecorator.AnteHandle`, up to the next decorator. -/
def rejectAtoxIBC (atoxDenom : String) (msgs : List Msg) : Except Err Unit :=
  if atoxDenom = "" then .ok () else reject atoxDenom msgs 1

mutual

def Msg.occurrences (inside : Bool) : Msg → List (Bool × Msg)
  | .exec inner => (inside,.exec inner) :: Authz.occurrences true inner
  | m => [(inside,m)]

def occurrences (inside : Bool) : List Msg → List (Bool × Msg)
  | [] => []
  | m :: rest => m.occurrences inside++occurrences inside rest

end

mutual

def Msg.depth : Msg → Nat
  | .exec inner => Authz.depth inner+1
  | _ => 0

def depth : List Msg → Nat
  | [] => 0
  | m :: rest => max m.depth (depth rest)

end

mutual

def Msg.climb (after : Nat) : Msg → Nat
  | .exec inner => max (Authz.climb inner) after+1
  | _ => after

/-- The same with each `MsgExec` counted once more for every sibling of its kind before it:
the rise of the limiter's level. -/
def climb : List Msg → Nat
  | [] => 0
  | m :: rest => m.climb (climb rest)

end

/-- Message trees by induction: a list that starts with a `MsgExec` rests on two lists. -/
theorem forest_induction {P : List Msg → Prop} (nil : P [])
    (exec : ∀ inner rest, P inner → P rest → P (.exec inner :: rest))
    (leaf : ∀ m rest, (∀ inner, m ≠ .exec inner) → P rest → P (m :: rest)) :
    ∀ msgs, P msgs := by
  intro msgs
  refine Msg.rec_1 (motive_1 := fun m => ∀ rest, P rest → P (m :: rest)) (motive_2 := P)
    (fun inner hinner rest hrest => exec inner rest hinner hrest) ?_ ?_ ?_ ?_ ?_ nil ?_ msgs
  · exact fun err rest hrest => leaf _ rest (by simp) hrest
  · exact fun url rest hrest => leaf _ rest (by simp) hrest
  · exact fun err rest hrest => leaf _ rest (by simp) hrest
  · exact fun denom rest hrest => leaf _ rest (by simp) hrest
  · exact fun url rest hrest => leaf _ rest (by simp) hrest
  · exact fun m rest hm hrest => hm rest hrest

def Unobjectionable (disabled : List String) (inside : Bool) : Msg → Prop
  | .exec _ => True
  | .sealedExec _ => False
  | .grant url => url ∉ disabled
  | .sealedGrant _ => False
  | .transfer _ => inside = true → transferUrl ∉ disabled
  | .other url => inside = true → url ∉ disabled

theorem bounded_eq_ok {limit lvl : Nat} {e : Err} {rest : Except Err Unit} :
    bounded limit lvl e rest = .ok () ↔ lvl < limit ∧ rest = .ok () := by
  unfold bounded
  split
  · simp only [reduceCtorEq,false_iff,not_and]
    omega
  · simp only [iff_and_self]
    omega

section Trees

variable {m : Msg} {rest : List Msg}

theorem occurrences_leaf (h : ∀ inner, m ≠ .exec inner) (inside : Bool) :
    occurrences inside (m :: rest) = (inside,m) :: occurrences inside rest := by
  cases m with
  | exec inner => exact absurd rfl (h inner)
  | _ => rfl

theorem depth_leaf (h : ∀ inner, m ≠ .exec inner) : depth (m :: rest) = depth rest := by
  cases m with
  | exec inner => exact absurd rfl (h inner)
  | _ => exact Nat.zero_max _

theorem climb_leaf (h : ∀ inner, m ≠ .exec inner) : climb (m :: rest) = climb rest := by
  cases m with
  | exec inner => exact absurd rfl (h inner)
  | _ => rfl

theorem occurrences_exec (inside : Bool) (inner : List Msg) :
    occurrences inside (.exec inner :: rest) =
      (inside,.exec inner) :: (occurrences true inner++occurrences inside rest) := rfl

theorem depth_exec (inner : List Msg) :
    depth (.exec inner :: rest) = max (depth inner+1) (depth rest) := rfl

theorem climb_exec (inner : List Msg) :
    climb (.exec inner :: rest) = max (climb inner) (climb rest)+1 := rfl

end Trees

theorem depth_le_climb (msgs : List Msg) : depth msgs ≤ climb msgs := by
  induction msgs using forest_induction with
  | nil => exact Nat.le_refl 0
  | exec inner rest hinner hrest =>
    rw [depth_exec,climb_exec]
    omega
  | leaf m rest hm hrest =>
    rw [depth_leaf hm,climb_leaf hm]
    exact hrest

theorem checkMsg_exec (disabled : List String) (isInner : Bool) (lvl : Nat) (inner : List Msg)
    (next : Nat) : checkMsg disabled isInner lvl (.exec inner) = .ok next ↔
      (lvl+1 < maxNestedMsgs ∧ checkLoop disabled true (lvl+1) inner = .ok ()) ∧ next = lvl+1 := by
  rw [checkMsg,← bounded_eq_ok (e := tooManyNested)]
  cases bounded maxNestedMsgs (lvl+1) tooManyNested (checkLoop disabled true (lvl+1) inner) with
  | error e => simp [bind,Except.bind]
  | ok u => simp [bind,Except.bind,eq_comm]

variable {lvl : Nat} {atoxDenom : String} {msgs : List Msg} {disabled : List String}

theorem refused_unless {c : Prop} [Decidable c] {e : Err} {next : Nat} :
    (if c then .error e else .ok lvl : Except Err Nat) = .ok next ↔ ¬c ∧ next = lvl := by
  split
  · simp_all
  · simp_all [eq_comm]

theorem checkMsg_leaf {isInner : Bool} {next : Nat} {m : Msg} (h : ∀ inner, m ≠ .exec inner) :
    checkMsg disabled isInner lvl m = .ok next ↔ Unobjectionable disabled isInner m ∧
    next = lvl := by
  cases m with
  | exec inner => exact absurd rfl (h inner)
  | sealedExec err | sealedGrant err => simp [checkMsg,Unobjectionable]
  | grant url => rw [checkMsg,refused_unless,Unobjectionable]
  | transfer denom | other url => rw [checkMsg,refused_unless,Unobjectionable,not_and]

theorem checkLoop_eq_ok (disabled : List String) (isInner : Bool) (msgs : List Msg)
    (hlvl : lvl < maxNestedMsgs) :
    checkLoop disabled isInner lvl msgs = .ok () ↔
      lvl+climb msgs < maxNestedMsgs ∧
        ∀ p ∈ occurrences isInner msgs, Unobjectionable disabled p.1 p.2 := by
  induction msgs using forest_induction generalizing isInner lvl with
  | nil => simpa [checkLoop,climb,occurrences] using hlvl
  | exec inner rest hinner hrest =>
    rw [checkLoop,except_bind_eq_ok,climb_exec,occurrences_exec,List.forall_mem_cons,
      List.forall_mem_append]
    simp only [checkMsg_exec]
    constructor
    · rintro ⟨_,⟨⟨hnext,hmsgs⟩,rfl⟩,hafter⟩
      rw [hinner true hnext] at hmsgs
      rw [hrest isInner hnext] at hafter
      exact ⟨by omega,trivial,hmsgs.2,hafter.2⟩
    · rintro ⟨hclimb,_,hmsgs,hafter⟩
      have hnext : lvl+1 < maxNestedMsgs := by omega
      refine ⟨lvl+1,⟨⟨hnext,?_⟩,rfl⟩,?_⟩
      · exact (hinner true hnext).mpr ⟨by omega,hmsgs⟩
      · exact (hrest isInner hnext).mpr ⟨by omega,hafter⟩
  | leaf m rest hm hrest =>
    rw [checkLoop,except_bind_eq_ok,climb_leaf hm,occurrences_leaf hm,List.forall_mem_cons]
    simp only [checkMsg_leaf hm]
    constructor
    · rintro ⟨_,⟨hhead,rfl⟩,hafter⟩
      rw [hrest isInner hlvl] at hafter
      exact ⟨hafter.1,hhead,hafter.2⟩
    · rintro ⟨hclimb,hhead,hafter⟩
      exact ⟨lvl,⟨hhead,rfl⟩,(hrest isInner hlvl).mpr ⟨hclimb,hafter⟩⟩

theorem authzLimiter_eq_ok (disabled : List String) (msgs : List Msg) :
    authzLimiter disabled msgs = .ok () ↔ climb msgs+1 < maxNestedMsgs ∧
      ∀ p ∈ occurrences false msgs, Unobjectionable disabled p.1 p.2 := by
  have hcheck : authzLimiter disabled msgs = .ok () ↔
      checkDisabledMsgs disabled msgs false 1 = .ok () := by
    unfold authzLimiter
    split
    all_goals
      rename_i h
      simp [h]
  have hstart : 1 < maxNestedMsgs := by decide
  rw [hcheck,checkDisabledMsgs,bounded_eq_ok,checkLoop_eq_ok disabled false msgs hstart,
    and_iff_right hstart,Nat.add_comm]

def Transferable (atoxDenom : String) : Msg → Prop
  | .sealedExec _ => False
  | .transfer denom => denom ≠ atoxDenom
  | _ => True

theorem rejectMsg_leaf {m : Msg} (h : ∀ inner, m ≠ .exec inner) :
    rejectMsg atoxDenom lvl m = .ok () ↔ Transferable atoxDenom m := by
  cases m with
  | exec inner => exact absurd rfl (h inner)
  | sealedExec err => simp [rejectMsg,Transferable]
  | transfer denom =>
    by_cases hd : denom = atoxDenom <;> simp [rejectMsg,Transferable,hd]
  | _ => simp [rejectMsg,Transferable]

theorem rejectLoop_eq_ok (atoxDenom : String) (msgs : List Msg)
    (hlvl : lvl < maxNestedAtoxMsgs) (inside : Bool) :
    rejectLoop atoxDenom lvl msgs = .ok () ↔ lvl+depth msgs < maxNestedAtoxMsgs ∧
      ∀ p ∈ occurrences inside msgs, Transferable atoxDenom p.2 := by
  induction msgs using forest_induction generalizing lvl inside with
  | nil => simpa [rejectLoop,depth,occurrences] using hlvl
  | exec inner rest hinner hrest =>
    rw [rejectLoop,except_bind_eq_ok,depth_exec,occurrences_exec,List.forall_mem_cons,
      List.forall_mem_append,hrest hlvl inside,rejectMsg]
    constructor
    · rintro ⟨⟨⟩,hbound,hafter⟩
      obtain ⟨hnext,hmsgs⟩ := bounded_eq_ok.mp hbound
      rw [hinner hnext true] at hmsgs
      exact ⟨by omega,trivial,hmsgs.2,hafter.2⟩
    · rintro ⟨hdepth,_,hmsgs,hafter⟩
      have hnext : lvl+1 < maxNestedAtoxMsgs := by omega
      exact ⟨(),bounded_eq_ok.mpr ⟨hnext,(hinner hnext true).mpr ⟨by omega,hmsgs⟩⟩,by omega,hafter⟩
  | leaf m rest hm hrest =>
    rw [rejectLoop,except_bind_eq_ok,depth_leaf hm,occurrences_leaf hm,List.forall_mem_cons,
      hrest hlvl inside]
    constructor
    · rintro ⟨_,hhead,hdepth,hafter⟩
      exact ⟨hdepth,(rejectMsg_leaf hm).mp hhead,hafter⟩
    · rintro ⟨hdepth,hhead,hafter⟩
      exact ⟨(),(rejectMsg_leaf hm).mpr hhead,hdepth,hafter⟩

theorem rejectAtoxIBC_eq_ok (hdenom : atoxDenom ≠ "") (msgs : List Msg) :
    rejectAtoxIBC atoxDenom msgs = .ok () ↔ depth msgs+1 < maxNestedAtoxMsgs ∧
      ∀ p ∈ occurrences false msgs, Transferable atoxDenom p.2 := by
  have hstart : 1 < maxNestedAtoxMsgs := by decide
  unfold rejectAtoxIBC reject
  rw [if_neg hdenom,bounded_eq_ok,rejectLoop_eq_ok atoxDenom msgs hstart false,
    and_iff_right hstart,Nat.add_comm]

/-- What the limiter is for: nothing nested too deep or unreadable, no disabled type inside a
`MsgExec`, and none granted. -/
structure Harmless (disabled : List String) (msgs : List Msg) : Prop where
  nested : depth msgs+1 < maxNestedMsgs
  readable : ∀ inside err, (inside,Msg.sealedExec err) ∉ occurrences false msgs ∧
    (inside,Msg.sealedGrant err) ∉ occurrences false msgs
  executed : ∀ m, (true,m) ∈ occurrences false msgs → m.typeUrl ∉ disabled
  granted : ∀ inside url, (inside,Msg.grant url) ∈ occurrences false msgs → url ∉ disabled

/-- The level that siblings have raised refuses nothing that is harmless. -/
def SiblingsFit (disabled : List String) (msgs : List Msg) : Prop :=
  Harmless disabled msgs → climb msgs+1 < maxNestedMsgs

def SparesAuthz (disabled : List String) : Prop := execUrl ∉ disabled ∧ grantUrl ∉ disabled

theorem unobjectionable_iff (h : SparesAuthz disabled) (inside : Bool)
    (m : Msg) : Unobjectionable disabled inside m ↔
      (∀ err, m ≠ .sealedExec err ∧ m ≠ .sealedGrant err) ∧
      (inside = true → m.typeUrl ∉ disabled) ∧ ∀ url, m = .grant url → url ∉ disabled := by
  obtain ⟨hexec,hgrant⟩ := h
  cases m with
  | exec inner => simp [Unobjectionable,Msg.typeUrl,hexec]
  | sealedExec err => simp [Unobjectionable]
  | grant url => simp [Unobjectionable,Msg.typeUrl,hgrant]
  | sealedGrant err => simp [Unobjectionable]
  | transfer denom | other url => simp [Unobjectionable,Msg.typeUrl]

theorem harmless_iff (h : SparesAuthz disabled) (msgs : List Msg) :
    Harmless disabled msgs ↔ depth msgs+1 < maxNestedMsgs ∧
      ∀ p ∈ occurrences false msgs, Unobjectionable disabled p.1 p.2 := by
  constructor
  · rintro ⟨hnested,hreadable,hexecuted,hgranted⟩
    refine ⟨hnested,fun ⟨inside,m⟩ hp => (unobjectionable_iff h inside m).mpr ⟨?_,?_,?_⟩⟩
    · rintro err
      exact ⟨fun he => (hreadable inside err).1 (he ▸ hp),
        fun he => (hreadable inside err).2 (he ▸ hp)⟩
    · rintro rfl
      exact hexecuted m hp
    · rintro url rfl
      exact hgranted inside url hp
  · rintro ⟨hnested,hall⟩
    have hpart := fun inside m hp => (unobjectionable_iff h inside m).mp (hall (inside,m) hp)
    refine ⟨hnested,fun inside err => ⟨fun hp => ?_,fun hp => ?_⟩,fun m hp => ?_,
      fun inside url hp => ?_⟩
    · exact ((hpart inside _ hp).1 err).1 rfl
    · exact ((hpart inside _ hp).1 err).2 rfl
    · exact (hpart true m hp).2.1 rfl
    · exact (hpart inside _ hp).2.2 url rfl

theorem authzLimiter_iff_harmless (h : SparesAuthz disabled) (msgs : List Msg) :
    authzLimiter disabled msgs = .ok () ↔
      Harmless disabled msgs ∧ climb msgs+1 < maxNestedMsgs := by
  rw [authzLimiter_eq_ok,harmless_iff h]
  have hle := depth_le_climb msgs
  constructor
  · rintro ⟨hclimb,hall⟩
    exact ⟨⟨by omega,hall⟩,hclimb⟩
  · rintro ⟨⟨_,hall⟩,hclimb⟩
    exact ⟨hclimb,hall⟩

/-! Depth and occurrences are those of the members, however often and in whatever order they
stand in the list. -/

theorem mem_occurrences {inside : Bool} {p : Bool × Msg} :
    p ∈ occurrences inside msgs ↔ ∃ m ∈ msgs, p ∈ m.occurrences inside := by
  induction msgs with
  | nil => simp [occurrences]
  | cons m rest ih => simp [occurrences,ih]

theorem depth_le {n : Nat} : depth msgs ≤ n ↔ ∀ m ∈ msgs, m.depth ≤ n := by
  induction msgs with
  | nil => simp [depth]
  | cons m rest ih => simp [depth,ih]

theorem Harmless.of_subset {msgs' : List Msg}
    (h : Harmless disabled msgs) (hsub : msgs' ⊆ msgs) : Harmless disabled msgs' := by
  have hocc : ∀ p, p ∈ occurrences false msgs' → p ∈ occurrences false msgs := by
    intro p hp
    obtain ⟨m,hm,hpm⟩ := mem_occurrences.mp hp
    exact mem_occurrences.mpr ⟨m,hsub hm,hpm⟩
  have hdepth : depth msgs' ≤ depth msgs :=
    depth_le.mpr fun m hm => depth_le.mp (le_refl _) m (hsub hm)
  have hnested := h.nested
  exact ⟨by omega,fun inside err => ⟨fun hp => (h.readable inside err).1 (hocc _ hp),
    fun hp => (h.readable inside err).2 (hocc _ hp)⟩,fun m hp => h.executed m (hocc _ hp),
    fun inside url hp => h.granted inside url (hocc _ hp)⟩

/-- No disabled type, no grant of one or without an authorization, and no ATOX to transfer. -/
def Ordinary (disabled : List String) (atoxDenom : String) (m : Msg) : Prop :=
  m.typeUrl ∉ disabled ∧ (∀ url, m = .grant url → url ∉ disabled) ∧
    (∀ err, m ≠ .sealedGrant err) ∧ m ≠ .transfer atoxDenom

theorem Ordinary.transferable_iff {m : Msg} (h : Ordinary disabled atoxDenom m) (inside : Bool) :
    Unobjectionable disabled inside m ↔ Transferable atoxDenom m := by
  obtain ⟨htype,hgrant,hsealed,htransfer⟩ := h
  cases m with
  | exec inner | sealedExec err => simp [Unobjectionable,Transferable]
  | grant url => simp [Unobjectionable,Transferable,hgrant url rfl]
  | sealedGrant err => exact absurd rfl (hsealed err)
  | transfer denom =>
    have hdenom : denom ≠ atoxDenom := fun he => htransfer (he ▸ rfl)
    exact iff_of_true (fun _ => htype) hdenom
  | other url => exact iff_of_true (fun _ => htype) trivial

/-- The limiter accepts exactly the harmless transactions where siblings do not raise the level too
far, and only there; then the order and number of the messages are of no account. The same holds
of its agreement with the decorator against ATOX on transactions that concern neither. -/
theorem authz_limiter_exact {disabled : List String} (h : SparesAuthz disabled) (msgs : List Msg) :
    ((authzLimiter disabled msgs = .ok () ↔ Harmless disabled msgs) ↔
      SiblingsFit disabled msgs) ∧
    (∀ msgs', SiblingsFit disabled msgs → SiblingsFit disabled msgs' →
      (∀ m, m ∈ msgs' ↔ m ∈ msgs) →
      (authzLimiter disabled msgs' = .ok () ↔ authzLimiter disabled msgs = .ok ())) ∧
    ∀ atoxDenom, atoxDenom ≠ "" →
      (∀ p ∈ occurrences false msgs, Ordinary disabled atoxDenom p.2) →
      ((authzLimiter disabled msgs = .ok () ↔ rejectAtoxIBC atoxDenom msgs = .ok ()) ↔
        SiblingsFit disabled msgs) := by
  have hexact : ∀ msgs, (authzLimiter disabled msgs = .ok () ↔ Harmless disabled msgs) ↔
      SiblingsFit disabled msgs := by
    intro msgs
    rw [authzLimiter_iff_harmless h]
    exact and_iff_left_iff_imp
  refine ⟨hexact msgs,fun msgs' hfit hfit' hsame => ?_,fun atoxDenom hdenom hord => ?_⟩
  · rw [(hexact msgs).mpr hfit,(hexact msgs').mpr hfit']
    exact ⟨fun hm => hm.of_subset fun m hm => (hsame m).mpr hm,
      fun hm => hm.of_subset fun m hm => (hsame m).mp hm⟩
  · have hagree : Harmless disabled msgs ↔ rejectAtoxIBC atoxDenom msgs = .ok () := by
      rw [harmless_iff h,rejectAtoxIBC_eq_ok hdenom]
      exact and_congr Iff.rfl (forall₂_congr fun p hp => (hord p hp).transferable_iff p.1)
    rw [← hexact,hagree]

def sendMsgs : List Msg :=
  [.grant "/cosmos.bank.v1beta1.MsgSend",.exec [.other "/cosmos.bank.v1beta1.MsgSend"]]

theorem authz_limiter_exact_sendMsgs :
    SparesAuthz disabledMsgTypes ∧ SiblingsFit disabledMsgTypes sendMsgs ∧
      Harmless disabledMsgTypes sendMsgs ∧ rejectAtoxIBC "aatox" sendMsgs = .ok () := by
  have hspares : SparesAuthz disabledMsgTypes := ⟨by decide,by decide⟩
  have hfit : SiblingsFit disabledMsgTypes sendMsgs := fun _ => by decide
  obtain ⟨hexact,_,hagree⟩ := authz_limiter_exact hspares sendMsgs
  have hok : authzLimiter disabledMsgTypes sendMsgs = .ok () := rfl
  refine ⟨hspares,hfit,(hexact.mpr hfit).mp hok,((hagree "aatox" (by decide) ?_).mpr hfit).mp hok⟩
  simp [sendMsgs,occurrences,Msg.occurrences,Ordinary,Msg.typeUrl,disabledMsgTypes,execUrl,grantUrl]

def sixSiblings : List Msg := List.replicate 6 (.exec [.other "/cosmos.bank.v1beta1.MsgSend"])

/-- They are nested once, and the limiter takes them for nested too deep. -/
theorem sibling_execs_refused :
    authzLimiter disabledMsgTypes sixSiblings = .error (.failed
        "found more nested msgs than permited. Limit is : 7: unauthorized") ∧
      depth sixSiblings = 1 ∧ Harmless disabledMsgTypes sixSiblings ∧
      authzLimiter disabledMsgTypes (sixSiblings.take 5) = .ok () ∧
      rejectAtoxIBC "aatox" sixSiblings = .ok () := by
  refine ⟨by decide +kernel,rfl,?_,rfl,rfl⟩
  refine ⟨by decide,?_,?_,?_⟩ <;>
    simp [sixSiblings,List.replicate,occurrences,Msg.occurrences,disabledMsgTypes,Msg.typeUrl]

end Atoshi.App.Authz
