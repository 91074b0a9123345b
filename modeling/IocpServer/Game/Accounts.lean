import IocpServer.Framework.Machine
import IocpServer.Game.Login

namespace IocpServer.Game.Accounts

/-- A call of `Login` with its arguments; the last ones are the values of the output arguments. -/
inductive Call
  | createAccount (id pw : Utf8) (userName : WString) (accountId : Nat)
  | login (id pw : Utf8) (userName : WString) (accountId : Nat)
  | logout (accountId : Nat)

/-- A call that was made: its arguments, its result, and its output arguments before and after. -/
inductive Event
  | createAccount (id pw : Utf8) (userName : WString) (result : LoginError) (before after : Nat)
  | login (id pw : Utf8) (result : LoginError) (nameBefore nameAfter : WString)
      (before after : Nat)
  | logout (accountId : Nat) (result : Bool)

namespace Event

/-- The account that a successful call has created. -/
def creates : Event → Option Nat
  | .createAccount _ _ _ .success _ a => some a
  | _ => none

/-- The account that a successful call has logged in. -/
def opens : Event → Option Nat
  | .createAccount _ _ _ .success _ a => some a
  | .login _ _ .success _ _ _ a => some a
  | _ => none

def succeeded : Event → Bool
  | .createAccount _ _ _ result _ _ => result=.success
  | .login _ _ result _ _ _ _ => result=.success
  | .logout _ result => result

/-- The output arguments have the values they had. -/
def Untouched : Event → Prop
  | .createAccount _ _ _ _ before after => after=before
  | .login _ _ _ nameBefore nameAfter before after => nameAfter=nameBefore ∧ after=before
  | .logout _ _ => True

theorem opens_of_creates {e : Event} {a : Nat} (h : e.creates=some a) : e.opens=some a := by
  unfold creates at h
  split at h
  · exact h
  · cases h

theorem succeeded_of_opens {e : Event} {a : Nat} (h : e.opens=some a) : e.succeeded=true := by
  unfold opens at h
  split at h
  · rfl
  · rfl
  · cases h

end Event

def exec (l : Login) : Call → Event×Login
  | .createAccount id pw userName a =>
    let (result,after,l') := l.createAccount id pw userName a
    (.createAccount id pw userName result a after,l')
  | .login id pw userName a =>
    let (result,nameAfter,after,l') := l.login id pw userName a
    (.login id pw result userName nameAfter a after,l')
  | .logout a =>
    let (result,l') := l.logout a
    (.logout a result,l')

/-- The store and the calls made so far. -/
structure State where
  login : Login
  events : List Event

def init : State := ⟨Login.init,[]⟩

def step (s : State) (c : Call) : Option State :=
  let (e,l) := exec s.login c
  some ⟨l,s.events++[e]⟩

/-- What a call does: nothing, or one of three things. -/
inductive Effect (l : Login) : Event → Login → Prop
  | refused {e : Event} (hno : e.succeeded=false) (hout : e.Untouched) : Effect l e l
  | created (id pw : Utf8) (userName : WString) (before : Nat)
      (hid : id∉l.memoryLoginInfoDb)
      (hname : l.memoryLoginInfoDb.isEmpty=true ∨ userName∉l.nameSessionsInfoDb) :
      Effect l (.createAccount id pw userName .success before l.accountId)
        { memoryLoginInfoDb := l.memoryLoginInfoDb.insert id ⟨l.accountId,id,pw,userName⟩
          nameSessionsInfoDb := insert userName l.nameSessionsInfoDb
          accountId := l.accountId+1
          loginList := insert l.accountId l.loginList }
  | loggedIn (id : Utf8) (info : AccountInfo) (nameBefore : WString) (before : Nat)
      (hl : l.memoryLoginInfoDb.lookup id=some info) (hout : info.accountId∉l.loginList) :
      Effect l (.login id info.pw .success nameBefore info.userName before info.accountId)
        { l with loginList := insert info.accountId l.loginList }
  | loggedOut (a : Nat) (ha : a∈l.loginList) :
      Effect l (.logout a true) { l with loginList := l.loginList.erase a }

theorem exec_effect (l : Login) (c : Call) : Effect l (exec l c).1 (exec l c).2 := by
  cases c with
  | createAccount id pw userName a =>
    simp only [exec,Login.createAccount]
    split
    · exact .refused rfl rfl
    rename_i hid
    split
    · exact .refused rfl rfl
    rename_i hname
    apply Effect.created
    · intro hm
      apply hid
      refine ⟨?_,hm⟩
      by_contra hempty
      exact Map.not_mem_of_isEmpty (by simpa using hempty) id hm
    · by_cases hempty : l.memoryLoginInfoDb.isEmpty=true
      · exact Or.inl hempty
      · exact Or.inr fun hm => hname ⟨by simpa using hempty,hm⟩
  | login id pw userName a =>
    simp only [exec,Login.login]
    split
    · exact .refused rfl ⟨rfl,rfl⟩
    split
    · exact .refused rfl ⟨rfl,rfl⟩
    rename_i info hl
    split
    · exact .refused rfl ⟨rfl,rfl⟩
    rename_i hpw
    split
    · exact .refused rfl ⟨rfl,rfl⟩
    rename_i hout
    obtain rfl : info.pw=pw := not_not.mp hpw
    exact .loggedIn id info userName a hl hout
  | logout a =>
    simp only [exec,Login.logout]
    split
    · exact .refused rfl trivial
    split
    · rename_i ha
      exact .loggedOut a ha
    · exact .refused rfl trivial

/-- The four components agree: keys and records, ids below the counter and one for each account,
the set of names and the names of the records, and only existing accounts are logged in. -/
structure Consistent (l : Login) : Prop where
  key : ∀ id info, l.memoryLoginInfoDb.lookup id=some info → info.id=id
  issued : ∀ id info, l.memoryLoginInfoDb.lookup id=some info →
    0 < info.accountId ∧ info.accountId<l.accountId
  distinct : ∀ id info id' info', l.memoryLoginInfoDb.lookup id=some info →
    l.memoryLoginInfoDb.lookup id'=some info' → info.accountId=info'.accountId → id=id'
  names : ∀ n, n∈l.nameSessionsInfoDb ↔
    ∃ id info, l.memoryLoginInfoDb.lookup id=some info ∧ info.userName=n
  name_unique : ∀ id info id' info', l.memoryLoginInfoDb.lookup id=some info →
    l.memoryLoginInfoDb.lookup id'=some info' → info.userName=info'.userName → id=id'
  online : ∀ a∈l.loginList, ∃ id info, l.memoryLoginInfoDb.lookup id=some info ∧ info.accountId=a
  next_pos : 0<l.accountId

theorem consistent_init : Consistent Login.init := by
  have hnone : ∀ id, Login.init.memoryLoginInfoDb.lookup id=none := fun id => AList.lookup_empty id
  refine ⟨?_,?_,?_,?_,?_,?_,by decide⟩
  · intro id info hl
    cases (hnone id).symm.trans hl
  · intro id info hl
    cases (hnone id).symm.trans hl
  · intro id info id' info' hl
    cases (hnone id).symm.trans hl
  · intro n
    refine ⟨fun hn => absurd hn (Finset.notMem_empty n),?_⟩
    rintro ⟨id,info,hl,-⟩
    cases (hnone id).symm.trans hl
  · intro id info id' info' hl
    cases (hnone id).symm.trans hl
  · intro a ha
    exact absurd ha (Finset.notMem_empty a)

/-- A new account has a new id and a new name. -/
theorem Consistent.created {l : Login} (h : Consistent l) {id pw : Utf8} {userName : WString}
    (hid : id∉l.memoryLoginInfoDb)
    (hname : l.memoryLoginInfoDb.isEmpty=true ∨ userName∉l.nameSessionsInfoDb) :
    Consistent
      { memoryLoginInfoDb := l.memoryLoginInfoDb.insert id ⟨l.accountId,id,pw,userName⟩
        nameSessionsInfoDb := insert userName l.nameSessionsInfoDb
        accountId := l.accountId+1
        loginList := insert l.accountId l.loginList } := by
  have hmem : ∀ k info, l.memoryLoginInfoDb.lookup k=some info → k∈l.memoryLoginInfoDb :=
    fun k info hl => AList.lookup_isSome.mp (by rw [hl]; rfl)
  have hfree : ∀ k info, l.memoryLoginInfoDb.lookup k=some info → info.userName≠userName := by
    intro k info hl hn
    rcases hname with hempty|hnew
    · exact Map.not_mem_of_isEmpty hempty k (hmem k info hl)
    · exact hnew ((h.names userName).mpr ⟨k,info,hl,hn⟩)
  refine ⟨?_,?_,?_,?_,?_,?_,Nat.succ_pos _⟩
  · intro k info hl
    rcases Map.lookup_insert_iff.mp hl with ⟨rfl,rfl⟩|⟨-,hl⟩
    · rfl
    · exact h.key k info hl
  · intro k info hl
    rcases Map.lookup_insert_iff.mp hl with ⟨-,rfl⟩|⟨-,hl⟩
    · exact ⟨h.next_pos,Nat.lt_succ_self _⟩
    · have hi := h.issued k info hl
      exact ⟨hi.1,Nat.lt_succ_of_lt hi.2⟩
  · intro k info k' info' hl hl' ha
    rcases Map.lookup_insert_iff.mp hl with ⟨rfl,rfl⟩|⟨-,hold⟩ <;>
      rcases Map.lookup_insert_iff.mp hl' with ⟨rfl,rfl⟩|⟨-,hold'⟩
    · rfl
    · exact absurd ha (Nat.ne_of_gt (h.issued k' info' hold').2)
    · exact absurd ha (Nat.ne_of_lt (h.issued k info hold).2)
    · exact h.distinct k info k' info' hold hold' ha
  · intro n
    rw [Finset.mem_insert,h.names n]
    constructor
    · rintro (rfl|⟨k,info,hl,hn⟩)
      · exact ⟨id,_,Map.lookup_insert_iff.mpr (Or.inl ⟨rfl,rfl⟩),rfl⟩
      · refine ⟨k,info,Map.lookup_insert_iff.mpr (Or.inr ⟨?_,hl⟩),hn⟩
        intro hk
        exact hid (hk ▸ hmem k info hl)
    · rintro ⟨k,info,hl,hn⟩
      rcases Map.lookup_insert_iff.mp hl with ⟨-,rfl⟩|⟨-,hl⟩
      · exact Or.inl hn.symm
      · exact Or.inr ⟨k,info,hl,hn⟩
  · intro k info k' info' hl hl' hn
    rcases Map.lookup_insert_iff.mp hl with ⟨rfl,rfl⟩|⟨-,hold⟩ <;>
      rcases Map.lookup_insert_iff.mp hl' with ⟨rfl,rfl⟩|⟨-,hold'⟩
    · rfl
    · exact absurd hn.symm (hfree k' info' hold')
    · exact absurd hn (hfree k info hold)
    · exact h.name_unique k info k' info' hold hold' hn
  · intro a ha
    rcases Finset.mem_insert.mp ha with rfl|ha
    · exact ⟨id,_,Map.lookup_insert_iff.mpr (Or.inl ⟨rfl,rfl⟩),rfl⟩
    · obtain ⟨k,info,hl,hk⟩ := h.online a ha
      refine ⟨k,info,Map.lookup_insert_iff.mpr (Or.inr ⟨?_,hl⟩),hk⟩
      intro he
      exact hid (he ▸ hmem k info hl)

/-- Logging in and out changes the list of the accounts that are logged in, and nothing else. -/
theorem Consistent.withList {l : Login} (h : Consistent l) {list : Finset Nat}
    (hlist : ∀ a∈list, ∃ id info, l.memoryLoginInfoDb.lookup id=some info ∧ info.accountId=a) :
    Consistent { l with loginList := list } :=
  ⟨h.key,h.issued,h.distinct,h.names,h.name_unique,hlist,h.next_pos⟩

theorem Consistent.effect {l l' : Login} {e : Event} (h : Consistent l) (he : Effect l e l') :
    Consistent l' := by
  cases he with
  | refused => exact h
  | created id pw userName before hid hname => exact h.created hid hname
  | loggedIn id info nameBefore before hl hout =>
    apply h.withList
    intro a ha
    rcases Finset.mem_insert.mp ha with rfl|ha
    · exact ⟨id,info,hl,rfl⟩
    · exact h.online a ha
  | loggedOut a ha => exact h.withList fun b hb => h.online b (Finset.mem_of_mem_erase hb)

theorem getElem?_snoc {xs : List Event} {x y : Event} {i : Nat} :
    (xs++[x])[i]?=some y ↔ xs[i]?=some y ∨ (i=xs.length ∧ x=y) := by
  grind

/-- What the recorded calls say: no account is created twice, an account that is logged in is logged
out before it is logged in again, and a login names an account with the password and the name of its
creation. -/
structure Lawful (es : List Event) : Prop where
  nonzero : ∀ (i : Nat) e a, es[i]?=some e → e.creates=some a → a≠0
  fresh : ∀ (i j : Nat) e f a, es[i]?=some e → es[j]?=some f → e.creates=some a →
    f.creates=some a → i=j
  exclusive : ∀ (i j : Nat) e f a, i<j → es[i]?=some e → es[j]?=some f → e.opens=some a →
    f.opens=some a → ∃ k, i<k ∧ k<j ∧ es[k]?=some (.logout a true)
  returns : ∀ (j : Nat) id pw nb n b a, es[j]?=some (.login id pw .success nb n b a) →
    ∃ i c, i<j ∧ es[i]?=some (.createAccount id pw n .success c a)

/-- What the store knows of the recorded calls. -/
structure History (s : State) : Prop where
  consistent : Consistent s.login
  lawful : Lawful s.events
  recorded : ∀ id info, s.login.memoryLoginInfoDb.lookup id=some info →
    ∃ (i : Nat) (c : Nat),
      s.events[i]?=some (.createAccount id info.pw info.userName .success c info.accountId)
  opened : ∀ (i : Nat) e a, s.events[i]?=some e → e.opens=some a →
    a<s.login.accountId ∧
      (a∈s.login.loginList ∨ ∃ k, i<k ∧ s.events[k]?=some (.logout a true))

theorem history_init : History init := by
  refine ⟨consistent_init,⟨nofun,nofun,nofun,nofun⟩,?_,nofun⟩
  intro id info hl
  have hnone : init.login.memoryLoginInfoDb.lookup id=none := AList.lookup_empty id
  cases hnone.symm.trans hl

/-- One more call keeps the record lawful, if it creates no known account, logs in no account that is
still logged in, and names a recorded account. -/
theorem Lawful.snoc {es : List Event} (h : Lawful es) {e : Event}
    (hcreates : ∀ a, e.creates=some a → a≠0 ∧ ∀ (i : Nat) f, es[i]?=some f → f.creates≠some a)
    (hopens : ∀ a, e.opens=some a → ∀ (i : Nat) f, es[i]?=some f → f.opens=some a →
      ∃ k, i<k ∧ es[k]?=some (.logout a true))
    (hreturns : ∀ id pw nb n b a, e=.login id pw .success nb n b a →
      ∃ (i : Nat) (c : Nat), es[i]?=some (.createAccount id pw n .success c a)) :
    Lawful (es++[e]) := by
  have hlt : ∀ {k : Nat} {f : Event}, es[k]?=some f → k<es.length :=
    fun hk => (List.getElem?_eq_some_iff.mp hk).1
  refine ⟨?_,?_,?_,?_⟩
  · intro i f a hf ha
    rcases getElem?_snoc.mp hf with hf|⟨-,rfl⟩
    · exact h.nonzero i f a hf ha
    · exact (hcreates a ha).1
  · intro i j f g a hf hg hfa hga
    rcases getElem?_snoc.mp hf with hf'|⟨hi,rfl⟩ <;> rcases getElem?_snoc.mp hg with hg'|⟨hj,rfl⟩
    · exact h.fresh i j f g a hf' hg' hfa hga
    · exact absurd hfa ((hcreates a hga).2 i f hf')
    · exact absurd hga ((hcreates a hfa).2 j g hg')
    · exact hi.trans hj.symm
  · intro i j f g a hij hf hg hfa hga
    have hf' : es[i]?=some f := by
      rcases getElem?_snoc.mp hf with hf'|⟨hi,-⟩
      · exact hf'
      · rcases getElem?_snoc.mp hg with hg'|⟨hj,-⟩
        · have := hlt hg'
          omega
        · omega
    rcases getElem?_snoc.mp hg with hg'|⟨hj,rfl⟩
    · obtain ⟨k,hik,hkj,hk⟩ := h.exclusive i j f g a hij hf' hg' hfa hga
      exact ⟨k,hik,hkj,getElem?_snoc.mpr (Or.inl hk)⟩
    · obtain ⟨k,hik,hk⟩ := hopens a hga i f hf' hfa
      exact ⟨k,hik,hj ▸ hlt hk,getElem?_snoc.mpr (Or.inl hk)⟩
  · intro j id pw nb n b a hj
    rcases getElem?_snoc.mp hj with hj'|⟨hj',he⟩
    · obtain ⟨i,c,hij,hi⟩ := h.returns j id pw nb n b a hj'
      exact ⟨i,c,hij,getElem?_snoc.mpr (Or.inl hi)⟩
    · obtain ⟨i,c,hi⟩ := hreturns id pw nb n b a he
      exact ⟨i,c,hj' ▸ hlt hi,getElem?_snoc.mpr (Or.inl hi)⟩

/-- A record that stays, with accounts that stay logged in or are logged out by the new call. -/
theorem History.opened_snoc {s : State} (h : History s) {e : Event} {l : Login}
    (hnext : s.login.accountId ≤ l.accountId)
    (hkeep : ∀ a∈s.login.loginList, a∈l.loginList ∨ e=.logout a true)
    (hnew : ∀ a, e.opens=some a → a<l.accountId ∧ a∈l.loginList) :
    ∀ (i : Nat) f a, (s.events++[e])[i]?=some f → f.opens=some a →
      a<l.accountId ∧ (a∈l.loginList ∨ ∃ k, i<k ∧ (s.events++[e])[k]?=some (.logout a true)) := by
  intro i f a hf ha
  rcases getElem?_snoc.mp hf with hf'|⟨-,rfl⟩
  · obtain ⟨hlt,hon⟩ := h.opened i f a hf' ha
    refine ⟨Nat.lt_of_lt_of_le hlt hnext,?_⟩
    rcases hon with hon|⟨k,hik,hk⟩
    · rcases hkeep a hon with hon'|he
      · exact Or.inl hon'
      · exact Or.inr ⟨s.events.length,(List.getElem?_eq_some_iff.mp hf').1,
          getElem?_snoc.mpr (Or.inr ⟨rfl,he⟩)⟩
    · exact Or.inr ⟨k,hik,getElem?_snoc.mpr (Or.inl hk)⟩
  · obtain ⟨hlt,hon⟩ := hnew a ha
    exact ⟨hlt,Or.inl hon⟩

/-- A recorded account that is not logged in any more was logged out. -/
theorem History.logged_out {s : State} (h : History s) {i : Nat} {f : Event} {a : Nat}
    (hf : s.events[i]?=some f) (ha : f.opens=some a) (hout : a∉s.login.loginList) :
    ∃ k, i<k ∧ s.events[k]?=some (.logout a true) :=
  (h.opened i f a hf ha).2.resolve_left hout

theorem History.effect {s : State} (h : History s) {e : Event} {l : Login}
    (he : Effect s.login e l) : History ⟨l,s.events++[e]⟩ := by
  have hconsistent := h.consistent.effect he
  have hold : ∀ id info, s.login.memoryLoginInfoDb.lookup id=some info → ∃ (i : Nat) (c : Nat),
      (s.events++[e])[i]?=
        some (.createAccount id info.pw info.userName .success c info.accountId) := by
    intro id info hl
    obtain ⟨i,c,hi⟩ := h.recorded id info hl
    exact ⟨i,c,getElem?_snoc.mpr (Or.inl hi)⟩
  cases he with
  | refused hno hout =>
    have hopens : ∀ a, e.opens≠some a := by
      intro a ha
      rw [Event.succeeded_of_opens ha] at hno
      cases hno
    refine ⟨hconsistent,h.lawful.snoc ?_ ?_ ?_,hold,h.opened_snoc (Nat.le_refl _) ?_ ?_⟩
    · exact fun a ha => absurd (Event.opens_of_creates ha) (hopens a)
    · exact fun a ha => absurd ha (hopens a)
    · rintro id pw nb n b a rfl
      exact absurd rfl (hopens a)
    · exact fun a ha => Or.inl ha
    · exact fun a ha => absurd ha (hopens a)
  | created id pw userName before hid hname =>
    have hnever : ∀ (i : Nat) f, s.events[i]?=some f → f.opens≠some s.login.accountId := by
      intro i f hf ha
      exact absurd (h.opened i f _ hf ha).1 (Nat.lt_irrefl _)
    refine ⟨hconsistent,h.lawful.snoc ?_ ?_ nofun,?_,h.opened_snoc (Nat.le_succ _) ?_ ?_⟩
    · rintro a ⟨⟩
      exact ⟨Nat.ne_of_gt h.consistent.next_pos,
        fun i f hf hc => hnever i f hf (Event.opens_of_creates hc)⟩
    · rintro a ⟨⟩ i f hf ha
      exact absurd ha (hnever i f hf)
    · intro k info hl
      rcases Map.lookup_insert_iff.mp hl with ⟨rfl,rfl⟩|⟨-,hl⟩
      · exact ⟨s.events.length,before,getElem?_snoc.mpr (Or.inr ⟨rfl,rfl⟩)⟩
      · exact hold k info hl
    · exact fun a ha => Or.inl (Finset.mem_insert_of_mem ha)
    · rintro a ⟨⟩
      exact ⟨Nat.lt_succ_self _,Finset.mem_insert_self _ _⟩
  | loggedIn id info nameBefore before hl hout =>
    refine ⟨hconsistent,h.lawful.snoc nofun ?_ ?_,hold,h.opened_snoc (Nat.le_refl _) ?_ ?_⟩
    · rintro a ⟨⟩ i f hf ha
      exact h.logged_out hf ha hout
    · rintro id' pw nb n b a ⟨⟩
      exact h.recorded id info hl
    · exact fun a ha => Or.inl (Finset.mem_insert_of_mem ha)
    · rintro a ⟨⟩
      exact ⟨(h.consistent.issued id info hl).2,Finset.mem_insert_self _ _⟩
  | loggedOut a ha =>
    refine ⟨hconsistent,h.lawful.snoc nofun nofun nofun,hold,h.opened_snoc (Nat.le_refl _) ?_ nofun⟩
    intro b hb
    by_cases hba : b=a
    · exact Or.inr (hba ▸ rfl)
    · exact Or.inl (Finset.mem_erase.mpr ⟨hba,hb⟩)

theorem Effect.accountId {l l' : Login} {e : Event} (h : Effect l e l')
    (hnext : l.accountId=l.memoryLoginInfoDb.entries.length+1) :
    l'.accountId=l'.memoryLoginInfoDb.entries.length+1 := by
  cases h with
  | created id pw userName before hid =>
    rw [AList.entries_insert_of_notMem hid]
    exact congrArg (·+1) hnext
  | _ => exact hnext

/-- The next id is one more than the number of accounts, so its 64 bits wrap for no smaller number of
them than `2^64-1`. -/
theorem accountId_fits {s : State} (h : Reaches step Any init s) :
    s.login.accountId=s.login.memoryLoginInfoDb.entries.length+1 ∧
    (s.login.memoryLoginInfoDb.entries.length+1<UInt64.size →
      s.login.accountId%UInt64.size=s.login.accountId) := by
  have hnext : s.login.accountId=s.login.memoryLoginInfoDb.entries.length+1 := by
    refine h.invariant
      (P:=fun s : State => s.login.accountId=s.login.memoryLoginInfoDb.entries.length+1) rfl
      fun x c y hx _ hs => ?_
    cases hs
    exact (exec_effect x.login c).accountId hx
  refine ⟨hnext,fun hroom => Nat.mod_eq_of_lt ?_⟩
  rw [hnext]
  exact hroom

theorem reaches_history {s : State} (h : Reaches step Any init s) : History s :=
  h.invariant history_init fun x c y hx _ hs => by
    cases hs
    exact hx.effect (exec_effect x.login c)

/-- After every sequence of calls the components agree and the recorded calls are lawful, and a call
that does not succeed changes neither the store nor its output arguments. -/
theorem account_store_law {s : State} (h : Reaches step Any init s) :
    Consistent s.login ∧ Lawful s.events ∧
    ∀ c, (exec s.login c).1.succeeded=false →
      (exec s.login c).2=s.login ∧ (exec s.login c).1.Untouched := by
  have hh := reaches_history h
  refine ⟨hh.consistent,hh.lawful,fun c hno => ?_⟩
  have he := exec_effect s.login c
  generalize exec s.login c=r at he hno
  obtain ⟨e,l⟩ := r
  cases he with
  | refused _ hout => exact ⟨rfl,hout⟩
  | created | loggedIn | loggedOut => cases hno

/-- An account is created, logged out and logged in again. -/
theorem account_store_law_again :
    ∃ s, Reaches step Any init s ∧ s.login.loginList={1} ∧ Consistent s.login ∧ Lawful s.events := by
  have hrun : (runActions step init [.createAccount [65] [66] [67] 0,.logout 1,
      .login [65] [66] [] 0]).map (fun s => s.login.loginList)=some {1} := by decide
  obtain ⟨s,hs,hlist⟩ := Option.map_eq_some_iff.mp hrun
  have hreach : Reaches step Any init s := Reaches.of_runActions (fun _ _ => trivial) _ hs
  obtain ⟨hconsistent,hlawful,-⟩ := account_store_law hreach
  exact ⟨s,hreach,hlist,hconsistent,hlawful⟩

end IocpServer.Game.Accounts
