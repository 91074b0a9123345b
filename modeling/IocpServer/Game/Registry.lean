import IocpServer.Game.Rules

namespace IocpServer.Game

open NetWork (SessionManager)

variable {S : Type}

/-- Every account that is logged in belongs to exactly one session, which obtained it. -/
structure Owners (s : State S) : Prop where
  login : s.login.Inv
  nonempty : ∀ a name, s.login.Named a name → name≠[]
  known : ∀ a, a∈s.login.loginList → ∃ name, s.login.Named a name
  owner : ∀ a, a∈s.login.loginList ↔ ∃ x, (s.sessions x).obtained=some a
  unique : ∀ x y a, (s.sessions x).obtained=some a → (s.sessions y).obtained=some a → x=y

/-- The knowledge of session `x` is true of the shared state. -/
structure Sat (s : State S) (x : S) (k : Know) : Prop where
  obtained : (s.sessions x).obtained=k.account
  named : ∀ a, k.account=some a → s.login.Named a k.name
  account : ∀ a, k.account=some a → k.registered → s.manager.accountSessions.lookup a=some x
  name : ∀ a, k.account=some a → k.named → s.manager.nameSessions.lookup k.name=some x
  entry : ∀ a, s.manager.accountSessions.lookup a=some x → a≠0 ∧ k.entry=some a
  nameEntry : ∀ n, s.manager.nameSessions.lookup n=some x → n≠[] ∧ k.nameEntry=some n
  room : ∀ r a, s.rooms.Lists r a x ↔ k.room=some r ∧ k.account=some a

/-- A session that has logged in keeps what the login gave it. -/
def Logged (f : Fields) (k : Know) : Prop :=
  ∀ a name, f.loggedIn=some (a,name) → k.account=some a ∧ k.name=name ∧ k.registered ∧ k.named

/-- What the step of one session may do to the others: it keeps every knowledge true that was true
before, and it leaves their fields alone. -/
structure Steady (s s' : State S) (x : S) : Prop where
  sessions : ∀ y, y≠x → s'.sessions y=s.sessions y
  sat : ∀ y k, y≠x → Sat s y k → Sat s' y k

theorem Owners.ne {s : State S} (h : Owners s) {x y : S} (hne : y≠x) {k k' : Know}
    (hx : Sat s x k) (hy : Sat s y k') {a b : Nat} (ha : k.account=some a) (hb : k'.account=some b) :
    b≠a := by
  rintro rfl
  exact hne (h.unique y x b (hy.obtained.trans hb) (hx.obtained.trans ha))

/-- Two sessions that hold accounts have different names. -/
theorem Owners.name_ne {s : State S} (h : Owners s) {x y : S} (hne : y≠x) {k k' : Know}
    (hx : Sat s x k) (hy : Sat s y k') {a b : Nat} (ha : k.account=some a) (hb : k'.account=some b) :
    k'.name≠k.name := by
  intro he
  have hn := hy.named b hb
  rw [he] at hn
  exact h.ne hne hx hy ha hb (h.login.unique b a k.name hn (hx.named a ha))

/-- The shared state that knowledge is about is the same, and so is what each session obtained. -/
structure SameShared (s s' : State S) : Prop where
  login : s'.login=s.login
  accounts : s'.manager.accountSessions=s.manager.accountSessions
  names : s'.manager.nameSessions=s.manager.nameSessions
  rooms : s'.rooms=s.rooms
  obtained : ∀ y, (s'.sessions y).obtained=(s.sessions y).obtained

theorem SameShared.sat {s s' : State S} (h : SameShared s s') {y : S} {k : Know} (hs : Sat s y k) :
    Sat s' y k := by
  constructor
  · rw [h.obtained]
    exact hs.obtained
  · rw [h.login]
    exact hs.named
  · rw [h.accounts]
    exact hs.account
  · rw [h.names]
    exact hs.name
  · rw [h.accounts]
    exact hs.entry
  · rw [h.names]
    exact hs.nameEntry
  · rw [h.rooms]
    exact hs.room

theorem SameShared.owners {s s' : State S} (h : SameShared s s') (ho : Owners s) : Owners s' := by
  constructor
  · rw [h.login]
    exact ho.login
  · rw [h.login]
    exact ho.nonempty
  · rw [h.login]
    exact ho.known
  · simp only [h.login,h.obtained]
    exact ho.owner
  · simp only [h.obtained]
    exact ho.unique

/-- Session `x` has moved to state `s'` and knows `k` there. -/
structure Sound (s s' : State S) (x : S) (k : Know) : Prop where
  owners : Owners s'
  sat : Sat s' x k
  steady : Steady s s' x

theorem SameShared.sound {s s' : State S} (h : SameShared s s') {x : S} {k : Know}
    (ho : Owners s) (hs : Sat s x k) (hother : ∀ y, y≠x → s'.sessions y=s.sessions y) :
    Sound s s' x k :=
  ⟨h.owners ho,h.sat hs,hother,fun _ _ _ hy => h.sat hy⟩

theorem Sat.mono_login {s : State S} {x : S} {k : Know} (h : Sat s x k) {l : Login}
    (hl : ∀ a n, s.login.Named a n → l.Named a n) {ss : S → Session}
    (hx : (ss x).obtained=(s.sessions x).obtained) :
    Sat { s with login := l, sessions := ss } x k :=
  ⟨hx.trans h.obtained,fun a ha => hl a k.name (h.named a ha),h.account,h.name,h.entry,h.nameEntry,
    h.room⟩

/-- Only the registries of the session manager change. -/
theorem Owners.withManager {s : State S} (ho : Owners s) (m : SessionManager S) :
    Owners { s with manager := m } :=
  ⟨ho.login,ho.nonempty,ho.known,ho.owner,ho.unique⟩

theorem sound_addAccountSession {s : State S} {x : S} {k : Know} {a : Nat} (ho : Owners s)
    (hs : Sat s x k) (hk : k.account=some a) (he : k.entry=none) :
    Sound s { s with manager := s.manager.addAccountSession a x } x
      { k with entry := some a, registered := true } := by
  have h0 : a≠0 := by
    have := (ho.login.issued a _ (hs.named a hk)).1
    omega
  have hnames : (s.manager.addAccountSession a x).nameSessions=s.manager.nameSessions := by
    rw [SessionManager.addAccountSession,if_neg h0]
  refine ⟨ho.withManager _,⟨hs.obtained,hs.named,?_,?_,?_,?_,hs.room⟩,⟨fun _ _ => rfl,?_⟩⟩
  · intro b hb _
    rw [hk] at hb
    cases hb
    exact (SessionManager.addAccountSession_lookup h0).mpr (Or.inl ⟨rfl,rfl⟩)
  · intro b hb hn
    simp only [hnames]
    exact hs.name b hb hn
  · intro b hb
    rcases (SessionManager.addAccountSession_lookup h0).mp hb with ⟨rfl,-⟩|⟨-,hb⟩
    · exact ⟨h0,rfl⟩
    · have := (hs.entry b hb).2
      rw [he] at this
      cases this
  · simp only [hnames]
    exact hs.nameEntry
  · intro y k' hy hsy
    refine ⟨hsy.obtained,hsy.named,?_,?_,?_,?_,hsy.room⟩
    · intro b hb hr
      exact (SessionManager.addAccountSession_lookup h0).mpr
        (Or.inr ⟨ho.ne hy hs hsy hk hb,hsy.account b hb hr⟩)
    · simp only [hnames]
      exact hsy.name
    · intro b hb
      rcases (SessionManager.addAccountSession_lookup h0).mp hb with ⟨-,hxy⟩|⟨-,hb⟩
      · exact absurd hxy hy
      · exact hsy.entry b hb
    · simp only [hnames]
      exact hsy.nameEntry

theorem sound_addNameSession {s : State S} {x : S} {k : Know} (ho : Owners s)
    (hs : Sat s x k) (hk : k.account≠none) (he : k.nameEntry=none) :
    Sound s { s with manager := s.manager.addNameSession k.name x } x
      { k with nameEntry := some k.name, named := true } := by
  obtain ⟨a,ha⟩ := Option.ne_none_iff_exists'.mp hk
  have hn : k.name≠[] := ho.nonempty a k.name (hs.named a ha)
  have haccounts : (s.manager.addNameSession k.name x).accountSessions=s.manager.accountSessions := by
    rw [SessionManager.addNameSession,if_neg hn]
  refine ⟨ho.withManager _,⟨hs.obtained,hs.named,?_,?_,?_,?_,hs.room⟩,⟨fun _ _ => rfl,?_⟩⟩
  · simp only [haccounts]
    exact hs.account
  · intro b hb _
    exact (SessionManager.addNameSession_lookup hn).mpr (Or.inl ⟨rfl,rfl⟩)
  · simp only [haccounts]
    exact hs.entry
  · intro n hb
    rcases (SessionManager.addNameSession_lookup hn).mp hb with ⟨rfl,-⟩|⟨-,hb⟩
    · exact ⟨hn,rfl⟩
    · have := (hs.nameEntry n hb).2
      rw [he] at this
      cases this
  · intro y k' hy hsy
    refine ⟨hsy.obtained,hsy.named,?_,?_,?_,?_,hsy.room⟩
    · simp only [haccounts]
      exact hsy.account
    · intro b hb hr
      exact (SessionManager.addNameSession_lookup hn).mpr
        (Or.inr ⟨ho.name_ne hy hs hsy ha hb,hsy.name b hb hr⟩)
    · simp only [haccounts]
      exact hsy.entry
    · intro n hb
      rcases (SessionManager.addNameSession_lookup hn).mp hb with ⟨-,hxy⟩|⟨-,hb⟩
      · exact absurd hxy hy
      · exact hsy.nameEntry n hb

theorem Owners.withRooms {s : State S} (ho : Owners s) (m : RoomManager S) :
    Owners { s with rooms := m } :=
  ⟨ho.login,ho.nonempty,ho.known,ho.owner,ho.unique⟩

theorem sound_enterRoom {s : State S} {x : S} {k : Know} {a : Nat} {roomId : Int}
    {m : RoomManager S} (ho : Owners s) (hs : Sat s x k) (hk : k.account=some a) (hroom : k.room=none)
    (hm : s.rooms.enterRoom roomId a x=some m) :
    ∃ r : Fin maxRoomCount, roomId=r.val ∧
      Sound s { s with rooms := m } x { k with room := some r } := by
  obtain ⟨r,hr,hlists⟩ := RoomManager.enterRoom_some hm
  refine ⟨r,hr,ho.withRooms m,⟨hs.obtained,hs.named,hs.account,hs.name,hs.entry,hs.nameEntry,?_⟩,
    ⟨fun _ _ => rfl,?_⟩⟩
  · intro q b
    rw [hlists,hs.room]
    simp only [hk,hroom,Option.some.injEq]
    constructor
    · rintro (⟨rfl,rfl,-⟩|⟨h,-⟩)
      · exact ⟨rfl,rfl⟩
      · cases h
    · rintro ⟨rfl,rfl⟩
      exact Or.inl (by simp)
  · intro y k' hy hsy
    refine ⟨hsy.obtained,hsy.named,hsy.account,hsy.name,hsy.entry,hsy.nameEntry,?_⟩
    intro q b
    rw [hlists,← hsy.room]
    constructor
    · rintro (⟨-,-,rfl⟩|h)
      · exact absurd rfl hy
      · exact h
    · exact Or.inr

/-- Leaving the room that lists the session always succeeds. -/
theorem sound_exitRoom {s : State S} {x : S} {k : Know} {a : Nat} {r : Fin maxRoomCount}
    (ho : Owners s) (hs : Sat s x k) (hk : k.account=some a) (hroom : k.room=some r) :
    ∃ m, s.rooms.exitRoom r.val a=some m ∧
      Sound s { s with rooms := m } x { k with room := none } := by
  obtain ⟨m,hm,hlists⟩ := RoomManager.exitRoom_of_lists ((hs.room r a).mpr ⟨hroom,hk⟩)
  refine ⟨m,hm,ho.withRooms m,⟨hs.obtained,hs.named,hs.account,hs.name,hs.entry,hs.nameEntry,?_⟩,
    ⟨fun _ _ => rfl,?_⟩⟩
  · intro q b
    rw [hlists,hs.room]
    simp only [hk,hroom,Option.some.injEq,reduceCtorEq,false_and,iff_false]
    rintro ⟨⟨rfl,rfl⟩,hno⟩
    exact hno (by simp)
  · intro y k' hy hsy
    refine ⟨hsy.obtained,hsy.named,hsy.account,hsy.name,hsy.entry,hsy.nameEntry,?_⟩
    intro q b
    rw [hlists,hsy.room]
    constructor
    · exact fun h => h.1
    · intro h
      refine ⟨h,?_⟩
      rintro ⟨-,rfl⟩
      exact ho.ne hy hs hsy hk h.2 rfl

variable [DecidableEq S]

/-- A login call of `x` has obtained account `a`, which nobody held. -/
theorem sound_login {s : State S} {x : S} {k : Know} (ho : Owners s) (hs : Sat s x k)
    (hk : k.account=none) (hroom : k.room=none) {l : Login} {a : Nat} {n : WString} (hl : l.Inv)
    (hmono : ∀ b m, s.login.Named b m → l.Named b m)
    (hne : ∀ b m, l.Named b m → m≠[]) (ha : l.Named a n) (hout : a∉s.login.loginList)
    (hlist : l.loginList=insert a s.login.loginList) :
    Sound s ({ s with login := l }.setSession x { s.sessions x with obtained := some a }) x
      { k with account := some a, name := n, registered := false, named := false } := by
  have hfree : ∀ y, (s.sessions y).obtained≠some a :=
    fun y hy => hout ((ho.owner a).mpr ⟨y,hy⟩)
  have hx : (s.sessions x).obtained=none := hs.obtained.trans hk
  refine ⟨⟨hl,hne,?_,?_,?_⟩,⟨?_,?_,nofun,nofun,hs.entry,hs.nameEntry,?_⟩,⟨?_,?_⟩⟩
  · intro b hb
    rw [State.setSession,hlist,Finset.mem_insert] at hb
    rcases hb with rfl|hb
    · exact ⟨n,ha⟩
    · obtain ⟨m,hm⟩ := ho.known b hb
      exact ⟨m,hmono b m hm⟩
  · intro b
    simp only [State.setSession]
    rw [hlist,Finset.mem_insert,ho.owner]
    constructor
    · rintro (rfl|⟨y,hy⟩)
      · exact ⟨x,by simp⟩
      · refine ⟨y,?_⟩
        have hyx : y≠x := by
          rintro rfl
          rw [hx] at hy
          cases hy
        rwa [Function.update_of_ne hyx]
    · rintro ⟨y,hy⟩
      by_cases hyx : y=x
      · subst hyx
        rw [Function.update_self] at hy
        exact Or.inl (Option.some.inj hy).symm
      · rw [Function.update_of_ne hyx] at hy
        exact Or.inr ⟨y,hy⟩
  · intro y z b hy hz
    simp only [State.setSession] at hy hz
    by_cases hyx : y=x <;> by_cases hzx : z=x
    · rw [hyx,hzx]
    · subst hyx
      rw [Function.update_self] at hy
      rw [Function.update_of_ne hzx] at hz
      exact absurd (hz.trans hy.symm) (hfree z)
    · subst hzx
      rw [Function.update_self] at hz
      rw [Function.update_of_ne hyx] at hy
      exact absurd (hy.trans hz.symm) (hfree y)
    · rw [Function.update_of_ne hyx] at hy
      rw [Function.update_of_ne hzx] at hz
      exact ho.unique y z b hy hz
  · simp [State.setSession]
  · intro b hb
    cases hb
    exact ha
  · intro r b
    have hr := hs.room r b
    simp only [hk,hroom,reduceCtorEq,false_and,iff_false] at hr ⊢
    exact hr
  · intro y hy
    simp [State.setSession,Function.update_of_ne hy]
  · intro y k' hy hsy
    exact hsy.mono_login hmono (by simp [Function.update_of_ne hy])

/-- `x` gives its account back. -/
theorem sound_logout {s : State S} {x : S} {k : Know} {a : Nat} (ho : Owners s) (hs : Sat s x k)
    (hk : k.account=some a) (hroom : k.room=none) :
    Sound s ({ s with login := { s.login with loginList := s.login.loginList.erase a } }.setSession x
      { s.sessions x with obtained := none }) x { k with account := none } := by
  have hx : (s.sessions x).obtained=some a := hs.obtained.trans hk
  refine ⟨⟨ho.login.withList _,ho.nonempty,?_,?_,?_⟩,⟨?_,nofun,nofun,nofun,hs.entry,hs.nameEntry,?_⟩,
    ⟨?_,?_⟩⟩
  · intro b hb
    exact ho.known b (Finset.mem_of_mem_erase hb)
  · intro b
    simp only [State.setSession,Finset.mem_erase]
    rw [ho.owner]
    constructor
    · rintro ⟨hne,y,hy⟩
      refine ⟨y,?_⟩
      have hyx : y≠x := by
        rintro rfl
        rw [hx] at hy
        exact hne (Option.some.inj hy).symm
      rwa [Function.update_of_ne hyx]
    · rintro ⟨y,hy⟩
      by_cases hyx : y=x
      · subst hyx
        rw [Function.update_self] at hy
        cases hy
      · rw [Function.update_of_ne hyx] at hy
        refine ⟨?_,y,hy⟩
        rintro rfl
        exact hyx (ho.unique y x b hy hx)
  · intro y z b hy hz
    simp only [State.setSession] at hy hz
    by_cases hyx : y=x
    · subst hyx
      rw [Function.update_self] at hy
      cases hy
    · by_cases hzx : z=x
      · subst hzx
        rw [Function.update_self] at hz
        cases hz
      · rw [Function.update_of_ne hyx] at hy
        rw [Function.update_of_ne hzx] at hz
        exact ho.unique y z b hy hz
  · simp [State.setSession]
  · intro r b
    have hr := hs.room r b
    simp only [hroom,reduceCtorEq,false_and,iff_false] at hr ⊢
    exact hr
  · intro y hy
    simp [State.setSession,Function.update_of_ne hy]
  · intro y k' hy hsy
    exact hsy.mono_login (l:={ s.login with loginList := s.login.loginList.erase a })
      (fun _ _ h => h) (by simp [Function.update_of_ne hy])

theorem sound_releaseLogoutSession {s : State S} {x : S} {k : Know} {a : Nat} (ho : Owners s)
    (hs : Sat s x k) (he : k.entry=none ∨ k.entry=some a) :
    Sound s { s with manager := s.manager.releaseLogoutSession a x } x
      { k with entry := none, registered := false } := by
  have hnames : (s.manager.releaseLogoutSession a x).nameSessions=s.manager.nameSessions := by
    unfold SessionManager.releaseLogoutSession
    split <;> rfl
  refine ⟨ho.withManager _,⟨hs.obtained,hs.named,nofun,?_,?_,?_,hs.room⟩,⟨fun _ _ => rfl,?_⟩⟩
  · simp only [hnames]
    exact hs.name
  · intro b hb
    obtain ⟨hb,hno⟩ := SessionManager.releaseLogoutSession_lookup.mp hb
    obtain ⟨h0,hk⟩ := hs.entry b hb
    rcases he with he|he <;> rw [he] at hk <;> cases hk
    exact absurd ⟨h0,rfl,rfl⟩ hno
  · simp only [hnames]
    exact hs.nameEntry
  · intro y k' hy hsy
    refine ⟨hsy.obtained,hsy.named,?_,?_,?_,?_,hsy.room⟩
    · intro b hb hr
      exact SessionManager.releaseLogoutSession_lookup.mpr
        ⟨hsy.account b hb hr,fun h => hy h.2.2⟩
    · simp only [hnames]
      exact hsy.name
    · intro b hb
      exact hsy.entry b (SessionManager.releaseLogoutSession_lookup.mp hb).1
    · simp only [hnames]
      exact hsy.nameEntry

theorem sound_releaseNameSession {s : State S} {x : S} {k : Know} {n : WString} (ho : Owners s)
    (hs : Sat s x k) (he : k.nameEntry=none ∨ k.nameEntry=some n) :
    Sound s { s with manager := s.manager.releaseNameSession n x } x
      { k with nameEntry := none, named := false } := by
  have haccounts : (s.manager.releaseNameSession n x).accountSessions=s.manager.accountSessions := by
    unfold SessionManager.releaseNameSession
    split <;> rfl
  refine ⟨ho.withManager _,⟨hs.obtained,hs.named,?_,nofun,?_,?_,hs.room⟩,⟨fun _ _ => rfl,?_⟩⟩
  · simp only [haccounts]
    exact hs.account
  · simp only [haccounts]
    exact hs.entry
  · intro b hb
    obtain ⟨hb,hno⟩ := SessionManager.releaseNameSession_lookup.mp hb
    obtain ⟨h0,hk⟩ := hs.nameEntry b hb
    rcases he with he|he <;> rw [he] at hk <;> cases hk
    exact absurd ⟨h0,rfl,rfl⟩ hno
  · intro y k' hy hsy
    refine ⟨hsy.obtained,hsy.named,?_,?_,?_,?_,hsy.room⟩
    · simp only [haccounts]
      exact hsy.account
    · intro b hb hr
      exact SessionManager.releaseNameSession_lookup.mpr ⟨hsy.name b hb hr,fun h => hy h.2.2⟩
    · simp only [haccounts]
      exact hsy.entry
    · intro b hb
      exact hsy.nameEntry b (SessionManager.releaseNameSession_lookup.mp hb).1

/-- A write of the session's own fields. -/
theorem sound_setSession {s : State S} {x : S} {k : Know} (ho : Owners s) (hs : Sat s x k)
    {ses : Session} (hob : ses.obtained=(s.sessions x).obtained) : Sound s (s.setSession x ses) x k := by
  apply SameShared.sound _ ho hs
  · intro y hy
    simp [State.setSession,Function.update_of_ne hy]
  · refine ⟨rfl,rfl,rfl,rfl,?_⟩
    intro y
    by_cases hy : y=x
    · simp [State.setSession,hy,hob]
    · simp [State.setSession,Function.update_of_ne hy]

/-- A write of fields that the histories do not concern, followed by `Q`. -/
theorem own_write {s : State S} {x : S} {k : Know} {Q : Fields → Know → Prop} (ho : Owners s)
    (hs : Sat s x k) (hl : Logged (s.sessions x).toFields k) {ses : Session}
    (hob : ses.obtained=(s.sessions x).obtained) (hlog : ses.loggedIn=(s.sessions x).loggedIn)
    (hq : Q ses.toFields k) :
    ∃ k', Sound s (s.setSession x ses) x k' ∧
      Logged ((s.setSession x ses).sessions x).toFields k' ∧
      Q ((s.setSession x ses).sessions x).toFields k' := by
  refine ⟨k,sound_setSession ho hs hob,?_,?_⟩
  · intro a n h
    simp only [State.setSession,Function.update_self,hlog] at h
    exact hl a n h
  · simpa [State.setSession] using hq

omit [DecidableEq S] in
theorem sound_stats {s : State S} {x : S} {k : Know} (ho : Owners s) (hs : Sat s x k) (st : Stats S) :
    Sound s { s with stats := st } x k := by
  apply SameShared.sound _ ho hs
  · intro y _
    rfl
  · exact ⟨rfl,rfl,rfl,rfl,fun _ => rfl⟩

omit [DecidableEq S] in
/-- The call into `Login` fails without a trace, or it obtains an account that nobody held. -/
theorem callLogin_cases {c : Codec} (hc : ∀ str, str≠[] → c.multiByteToWideChar str≠[])
    {s : State S} (ho : Owners s) {pkt : LoginRequest} (hname : pkt.isCreate → pkt.name≠[]) :
    (∃ e n idx, e≠.success ∧ callLogin c s.login pkt=(e,n,idx,s.login)) ∨
    ∃ n a l, callLogin c s.login pkt=(.success,n,a,l) ∧ l.Inv ∧
      (∀ b m, s.login.Named b m → l.Named b m) ∧ (∀ b m, l.Named b m → m≠[]) ∧ l.Named a n ∧
      a∉s.login.loginList ∧ l.loginList=insert a s.login.loginList := by
  unfold callLogin
  split
  · rename_i hcreate
    have hwide : c.utf8ToWString pkt.name≠[] := by
      rw [Codec.utf8ToWString,if_neg (hname hcreate)]
      exact hc _ (hname hcreate)
    rcases Login.createAccount_cases ho.login pkt.id pkt.pw (c.utf8ToWString pkt.name) 0
      with ⟨e,he,h⟩|⟨l,h,hl,hnamed,hlist,hfresh⟩
    · exact Or.inl ⟨e,_,_,he,by rw [h]⟩
    · refine Or.inr ⟨_,_,l,by rw [h],hl,fun b m hm => (hnamed b m).mpr (Or.inr hm),?_,
        (hnamed _ _).mpr (Or.inl ⟨rfl,rfl⟩),?_,hlist⟩
      · intro b m hm
        rcases (hnamed b m).mp hm with ⟨-,rfl⟩|hm
        · exact hwide
        · exact ho.nonempty b m hm
      · intro hin
        obtain ⟨m,hm⟩ := ho.known _ hin
        exact hfresh m hm
  · rcases Login.login_cases s.login pkt.id pkt.pw [] 0 with ⟨e,he,h⟩|⟨a,n,hn,hout,h⟩
    · exact Or.inl ⟨e,_,_,he,h⟩
    · exact Or.inr ⟨n,a,_,h,ho.login.withList _,fun _ _ h => h,ho.nonempty,hn,hout,rfl⟩

attribute [local simp] State.setSession

/-- One step of a session at an operation whose precondition holds. -/
theorem exec_sound {c : Codec} (hc : ∀ str, str≠[] → c.multiByteToWideChar str≠[]) {s : State S}
    {x : S} {k : Know} {op : Op} {Q : Fields → Know → Prop} (ho : Owners s) (hs : Sat s x k)
    (hl : Logged (s.sessions x).toFields k) (hw : wp op Q (s.sessions x).toFields k) :
    ∃ k', Sound s (exec c s x op).1 x k' ∧ Logged ((exec c s x op).1.sessions x).toFields k' ∧
      (exec c s x op).2.1.foldr wp Q ((exec c s x op).1.sessions x).toFields k' := by
  cases op with
  | loginCall bot pkt =>
    obtain ⟨⟨hacc,hent,hnent,hroom⟩,hname,hsucc,hfail⟩ := hw
    simp only [exec]
    rcases callLogin_cases hc ho hname with ⟨e,n,idx,he,h⟩|⟨n,a,l,h,hinv,hmono,hne,ha,hout,hlist⟩
    · rw [h,if_neg he]
      exact ⟨k,sound_stats ho hs _,hl,hfail idx n e he⟩
    · rw [h,if_pos rfl]
      refine ⟨_,sound_login ho hs hacc hroom hinv hmono hne ha hout hlist,?_,?_⟩
      · intro b m hb
        have hb' := (hl b m (by simpa using hb)).1
        rw [hacc] at hb'
        cases hb'
      · rw [loginSuccess_wp]
        simpa using hsucc a n
  | setIsLogin b | setAccountIdx idx | setName name | setRoomId roomId | setCleanupDone =>
    exact own_write ho hs hl rfl rfl hw.2
  | countLogin | countDisconnect | ack pkt | disconnect | errorLog text =>
    exact ⟨k,sound_stats ho hs _,hl,hw.2⟩
  | eraseSession =>
    refine ⟨k,SameShared.sound ?_ ho hs ?_,hl,hw.2⟩
    · refine ⟨rfl,?_,?_,rfl,fun _ => rfl⟩ <;>
      · simp only [exec,SessionManager.eraseSession]
        split <;> rfl
    · intro y _
      rfl
  | addAccountSession idx =>
    obtain ⟨⟨hk,he⟩,hq⟩ := hw
    refine ⟨_,sound_addAccountSession ho hs hk he,?_,hq⟩
    intro a n h
    obtain ⟨ha,hn,-,hnd⟩ := hl a n h
    exact ⟨ha,hn,rfl,hnd⟩
  | addNameSession name =>
    obtain ⟨⟨hk,rfl,he⟩,hq⟩ := hw
    refine ⟨_,sound_addNameSession ho hs hk he,?_,hq⟩
    intro a n h
    obtain ⟨ha,hn,hr,-⟩ := hl a n h
    exact ⟨ha,hn,hr,rfl⟩
  | ackLogin bot idx name result =>
    obtain ⟨hp,hq⟩ := hw
    simp only [post] at hq
    by_cases hr : result=.success
    · simp only [exec,if_pos hr] at hq ⊢
      refine ⟨k,sound_setSession ho hs rfl,?_,by simpa using hq⟩
      intro a n h
      simp only [State.setSession,Function.update_self,Option.some.injEq,Prod.mk.injEq] at h
      obtain ⟨rfl,rfl⟩ := h
      exact hp hr
    · simp only [exec,if_neg hr] at hq ⊢
      exact ⟨k,sound_stats ho hs _,hl,hq⟩
  | exitRoom roomId a =>
    obtain ⟨⟨hk,r,rfl,hr⟩,hq⟩ := hw
    obtain ⟨m,hm,hsound⟩ := sound_exitRoom ho hs hk hr
    simp only [exec,hm,Option.getD_some]
    exact ⟨_,hsound,hl,hq⟩
  | logoutCall =>
    obtain ⟨⟨hk,hr,hn⟩,hq⟩ := hw
    have hin : (s.sessions x).accountIdx∈s.login.loginList :=
      (ho.owner _).mpr ⟨x,hs.obtained.trans hk⟩
    simp only [exec,Login.logout_of_mem hin,if_true]
    refine ⟨_,sound_logout ho hs hk hr,?_,?_⟩
    · intro a n h
      simp [hn] at h
    · rw [logoutSuccess_wp]
      simpa using hq
  | releaseLogoutSession =>
    obtain ⟨⟨hn,he⟩,hq⟩ := hw
    refine ⟨_,sound_releaseLogoutSession ho hs he,?_,hq⟩
    intro a n h
    rw [show (s.sessions x).loggedIn=some (a,n) from h] at hn
    cases hn
  | releaseNameSession =>
    obtain ⟨⟨hn,he⟩,hq⟩ := hw
    refine ⟨_,sound_releaseNameSession ho hs he,?_,hq⟩
    intro a n h
    rw [show (s.sessions x).loggedIn=some (a,n) from h] at hn
    cases hn
  | enterCall roomId =>
    obtain ⟨⟨hk,hr⟩,hsucc,hfail⟩ := hw
    simp only [exec]
    split
    · rename_i m hm
      obtain ⟨r,hroom,hsound⟩ := sound_enterRoom ho hs hk hr hm
      exact ⟨_,hsound,hl,hsucc r hroom⟩
    · exact ⟨k,sound_stats ho hs _,hl,hfail⟩
  | exitCall roomId =>
    obtain ⟨⟨hk,r,rfl,hr⟩,hq⟩ := hw
    obtain ⟨m,hm,hsound⟩ := sound_exitRoom ho hs hk hr
    simp only [exec,hm]
    exact ⟨_,hsound,hl,hq⟩
  | exchangeIsLogin a =>
    simp only [wp] at hw
    split at hw
    · rename_i hlogin
      simp only [exec,hlogin,if_true]
      exact own_write ho hs hl rfl rfl hw
    · rename_i hlogin
      simp only [exec,if_neg hlogin]
      exact own_write ho hs hl rfl rfl hw
  | logout a =>
    obtain ⟨⟨hk,hr,hn⟩,hq⟩ := hw
    have hob : (s.sessions x).obtained=some a := hs.obtained.trans hk
    have hin : a∈s.login.loginList := (ho.owner a).mpr ⟨x,hob⟩
    simp only [exec,Login.logout_of_mem hin,if_pos hob]
    refine ⟨_,sound_logout ho hs hk hr,?_,by simpa [post] using hq⟩
    intro b n h
    simp [hn] at h

end IocpServer.Game
