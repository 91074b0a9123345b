import Mathlib.Data.Finset.Basic
import IocpServer.Framework.Map
import IocpServer.Game.Protocol

namespace IocpServer.Game

structure AccountInfo where
  accountId : Nat
  id : Utf8
  pw : Utf8
  userName : WString

/-- The state of `Login`: accounts by login id, the names in use, the next account id and the ids
of the accounts that are logged in. `accountId_fits` shows that 64 bits are enough for the ids. -/
structure Login where
  memoryLoginInfoDb : Map Utf8 AccountInfo
  nameSessionsInfoDb : Finset WString
  accountId : Nat
  loginList : Finset Nat

namespace Login

def init : Login := ⟨∅,∅,1,∅⟩

/-- `accountId` is the output argument; it keeps its value unless the call succeeds. -/
def createAccount (l : Login) (id pw : Utf8) (userName : WString) (accountId : Nat) :
    LoginError×Nat×Login :=
  if l.memoryLoginInfoDb.isEmpty=false ∧ id∈l.memoryLoginInfoDb then
    (.createHasAccount,accountId,l)
  else if l.memoryLoginInfoDb.isEmpty=false ∧ userName∈l.nameSessionsInfoDb then
    (.userDuplication,accountId,l)
  else
    (.success,l.accountId,
      { memoryLoginInfoDb := l.memoryLoginInfoDb.insert id ⟨l.accountId,id,pw,userName⟩
        nameSessionsInfoDb := insert userName l.nameSessionsInfoDb
        accountId := l.accountId+1
        loginList := insert l.accountId l.loginList })

/-- `userName` and `accountId` are the output arguments. -/
def login (l : Login) (id pw : Utf8) (userName : WString) (accountId : Nat) :
    LoginError×WString×Nat×Login :=
  if l.memoryLoginInfoDb.isEmpty then (.idNone,userName,accountId,l)
  else
    match l.memoryLoginInfoDb.lookup id with
    | none => (.idNone,userName,accountId,l)
    | some info =>
      if info.pw≠pw then (.pwNone,userName,accountId,l)
      else if info.accountId∈l.loginList then (.alreadyLogin,userName,accountId,l)
      else
        (.success,info.userName,info.accountId,
          { l with loginList := insert info.accountId l.loginList })

def logout (l : Login) (accountId : Nat) : Bool×Login :=
  if l.loginList=∅ then (false,l)
  else if accountId∈l.loginList then (true,{ l with loginList := l.loginList.erase accountId })
  else (false,l)

/-- The account with this id was created under this name. -/
def Named (l : Login) (a : Nat) (name : WString) : Prop :=
  ∃ id info, l.memoryLoginInfoDb.lookup id=some info ∧ info.accountId=a ∧ info.userName=name

/-- Account ids and names in the store are those of exactly one account each, ids are taken from
the counter, and the name set holds the names of the accounts. -/
structure Inv (l : Login) : Prop where
  pos : 0<l.accountId
  issued : ∀ a name, l.Named a name → 0<a ∧ a<l.accountId
  names : ∀ a name, l.Named a name → name∈l.nameSessionsInfoDb
  unique : ∀ a b name, l.Named a name → l.Named b name → a=b
  name_unique : ∀ a m n, l.Named a m → l.Named a n → m=n

theorem inv_init : init.Inv := by
  constructor
  · decide
  all_goals
    intros
    rename_i h
    obtain ⟨id,info,hl,-⟩ := h
    simp [init] at hl

variable {l : Login} {id pw : Utf8} {userName : WString} {accountId : Nat}

theorem named_insert (hnew : id∉l.memoryLoginInfoDb) (names : Finset WString) (next a : Nat)
    (list : Finset Nat) (n : WString) :
    Named ⟨l.memoryLoginInfoDb.insert id ⟨accountId,id,pw,userName⟩,names,next,list⟩ a n ↔
      (a=accountId ∧ n=userName) ∨ l.Named a n := by
  constructor
  · rintro ⟨k,info,hl,ha,hn⟩
    rcases Map.lookup_insert_iff.mp hl with ⟨-,rfl⟩|⟨-,hl⟩
    · exact Or.inl ⟨ha.symm,hn.symm⟩
    · exact Or.inr ⟨k,info,hl,ha,hn⟩
  · rintro (⟨rfl,rfl⟩|⟨k,info,hl,ha,hn⟩)
    · exact ⟨id,_,Map.lookup_insert_iff.mpr (Or.inl ⟨rfl,rfl⟩),rfl,rfl⟩
    · refine ⟨k,info,Map.lookup_insert_iff.mpr (Or.inr ⟨?_,hl⟩),ha,hn⟩
      rintro rfl
      exact hnew (AList.lookup_isSome.mp (by rw [hl]; rfl))

/-- A call of `create_account` either fails and changes nothing, or it creates and logs in an
account that did not exist. -/
theorem createAccount_cases (h : l.Inv) (id pw : Utf8) (userName : WString) (accountId : Nat) :
    (∃ e, e≠.success ∧ l.createAccount id pw userName accountId=(e,accountId,l)) ∨
    ∃ l', l.createAccount id pw userName accountId=(.success,l.accountId,l') ∧ l'.Inv ∧
      (∀ a n, l'.Named a n ↔ (a=l.accountId ∧ n=userName) ∨ l.Named a n) ∧
      l'.loginList=insert l.accountId l.loginList ∧ ∀ n, ¬l.Named l.accountId n := by
  unfold createAccount
  split
  · exact Or.inl ⟨_,by decide,rfl⟩
  · rename_i hid
    split
    · exact Or.inl ⟨_,by decide,rfl⟩
    · rename_i hname
      have hnew : id∉l.memoryLoginInfoDb := by
        intro hm
        apply hid
        refine ⟨?_,hm⟩
        by_contra he
        exact Map.not_mem_of_isEmpty (by simpa using he) id hm
      have hfree : ∀ a, ¬l.Named a userName := by
        intro a ha
        apply hname
        refine ⟨?_,h.names a userName ha⟩
        by_contra he
        obtain ⟨k,info,hl,-⟩ := ha
        exact Map.not_mem_of_isEmpty (by simpa using he) k (AList.lookup_isSome.mp (by rw [hl]; rfl))
      have hfresh : ∀ n, ¬l.Named l.accountId n := by
        intro n hn
        have := (h.issued _ _ hn).2
        omega
      refine Or.inr ⟨_,rfl,?_,fun a n => named_insert hnew _ _ _ _ _,rfl,hfresh⟩
      constructor
      · exact Nat.succ_pos _
      · intro a n hn
        rcases (named_insert hnew _ _ _ _ _).mp hn with ⟨rfl,-⟩|hn
        · exact ⟨h.pos,Nat.lt_succ_self _⟩
        · have hi := h.issued a n hn
          exact ⟨hi.1,Nat.lt_succ_of_lt hi.2⟩
      · intro a n hn
        rcases (named_insert hnew _ _ _ _ _).mp hn with ⟨-,rfl⟩|hn
        · exact Finset.mem_insert_self _ _
        · exact Finset.mem_insert_of_mem (h.names a n hn)
      · intro a b n ha hb
        rcases (named_insert hnew _ _ _ _ _).mp ha with ⟨rfl,rfl⟩|ha <;>
          rcases (named_insert hnew _ _ _ _ _).mp hb with ⟨rfl,hn⟩|hb
        · rfl
        · exact absurd hb (hfree b)
        · exact absurd (hn ▸ ha) (hfree a)
        · exact h.unique a b n ha hb
      · intro a m n hm hn
        rcases (named_insert hnew _ _ _ _ _).mp hm with ⟨rfl,rfl⟩|hm' <;>
          rcases (named_insert hnew _ _ _ _ _).mp hn with ⟨ha,rfl⟩|hn'
        · rfl
        · exact absurd hn' (hfresh n)
        · exact absurd (ha ▸ hm') (hfresh m)
        · exact h.name_unique a m n hm' hn'

/-- Only the list of the accounts that are logged in changes. -/
theorem Inv.withList (h : l.Inv) (list : Finset Nat) : Inv { l with loginList := list } :=
  ⟨h.pos,h.issued,h.names,h.unique,h.name_unique⟩

/-- A call of `login` either fails and changes nothing, or it logs in an existing account that was
not logged in and returns its id and name. -/
theorem login_cases (l : Login) (id pw : Utf8) (userName : WString) (accountId : Nat) :
    (∃ e, e≠.success ∧ l.login id pw userName accountId=(e,userName,accountId,l)) ∨
    ∃ a n, l.Named a n ∧ a∉l.loginList ∧ l.login id pw userName accountId=
      (.success,n,a,{ l with loginList := insert a l.loginList }) := by
  unfold login
  split
  · exact Or.inl ⟨_,by decide,rfl⟩
  · split
    · exact Or.inl ⟨_,by decide,rfl⟩
    · rename_i info hl
      split
      · exact Or.inl ⟨_,by decide,rfl⟩
      · split
        · exact Or.inl ⟨_,by decide,rfl⟩
        · rename_i hout
          exact Or.inr ⟨_,_,⟨id,info,hl,rfl,rfl⟩,hout,rfl⟩

theorem logout_of_mem (h : accountId∈l.loginList) :
    l.logout accountId=(true,{ l with loginList := l.loginList.erase accountId }) := by
  unfold logout
  rw [if_neg (Finset.ne_empty_of_mem h),if_pos h]

end Login

end IocpServer.Game
