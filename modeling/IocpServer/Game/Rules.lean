import IocpServer.Game.Handlers

namespace IocpServer.Game

/-- What a session knows about the shared state while it runs: the account it holds and its name,
whether the registries hold its own entry under them, the keys under which such an entry may exist,
and the room that lists it. -/
structure Know where
  account : Option Nat
  name : WString
  registered : Bool
  named : Bool
  entry : Option Nat
  nameEntry : Option WString
  room : Option (Fin maxRoomCount)

/-- What an operation without branches asks for. -/
def pre : Op → Fields → Know → Prop
  | .addAccountSession idx,_,k => k.account=some idx ∧ k.entry=none
  | .addNameSession name,_,k => k.account≠none ∧ k.name=name ∧ k.nameEntry=none
  | .ackLogin _ idx name result,_,k =>
    result=.success → k.account=some idx ∧ k.name=name ∧ k.registered ∧ k.named
  | .exitRoom roomId a,_,k => k.account=some a ∧ ∃ r : Fin maxRoomCount, roomId=r.val ∧ k.room=some r
  | .releaseLogoutSession,f,k => f.loggedIn=none ∧ (k.entry=none ∨ k.entry=some f.accountIdx)
  | .releaseNameSession,f,k => f.loggedIn=none ∧ (k.nameEntry=none ∨ k.nameEntry=some f.userName)
  | .logout a,f,k => k.account=some a ∧ k.room=none ∧ f.loggedIn=none
  | _,_,_ => True

/-- The session's fields and knowledge after an operation without branches. -/
def post : Op → Fields → Know → Fields×Know
  | .setIsLogin b,f,k => ({ f with isLogin := b },k)
  | .setAccountIdx idx,f,k => ({ f with accountIdx := idx },k)
  | .setName name,f,k => ({ f with userName := name },k)
  | .setRoomId roomId,f,k => ({ f with enterRoomId := roomId },k)
  | .addAccountSession idx,f,k => (f,{ k with entry := some idx, registered := true })
  | .addNameSession name,f,k => (f,{ k with nameEntry := some name, named := true })
  | .ackLogin _ idx name result,f,k =>
    (if result=.success then { f with loggedIn := some (idx,name) } else f,k)
  | .exitRoom _ _,f,k => (f,{ k with room := none })
  | .releaseLogoutSession,f,k => (f,{ k with entry := none, registered := false })
  | .releaseNameSession,f,k => (f,{ k with nameEntry := none, named := false })
  | .logout _,f,k => ({ f with obtained := none },{ k with account := none })
  | .setCleanupDone,f,k => ({ f with cleanupDone := true },k)
  | _,f,k => (f,k)

def wpBasic (op : Op) (Q : Fields → Know → Prop) (f : Fields) (k : Know) : Prop :=
  pre op f k ∧ Q (post op f k).1 (post op f k).2

/-- The weakest precondition of an operation with its continuations. -/
def wp : Op → (Fields → Know → Prop) → Fields → Know → Prop
  | .loginCall bot pkt,Q,f,k =>
    (k.account=none ∧ k.entry=none ∧ k.nameEntry=none ∧ k.room=none) ∧
    (pkt.isCreate → pkt.name≠[]) ∧
    (∀ a name, (loginSuccess bot a name).foldr wpBasic Q { f with obtained := some a }
      { k with account := some a, name := name, registered := false, named := false }) ∧
    ∀ idx name e, e≠.success → wpBasic (.ackLogin bot idx name e) Q f k
  | .logoutCall,Q,f,k =>
    (k.account=some f.accountIdx ∧ k.room=none ∧ f.loggedIn=none) ∧
    logoutSuccess.foldr wpBasic Q { f with obtained := none } { k with account := none }
  | .enterCall roomId,Q,f,k =>
    (k.account=some f.accountIdx ∧ k.room=none) ∧
    (∀ r : Fin maxRoomCount, roomId=r.val → [Op.setRoomId roomId,.ack (.enterRoom roomId .success)].foldr
      wpBasic Q f { k with room := some r }) ∧
    wpBasic (.ack (.enterRoom 0 .fail)) Q f k
  | .exitCall roomId,Q,f,k =>
    (k.account=some f.accountIdx ∧ ∃ r : Fin maxRoomCount, roomId=r.val ∧ k.room=some r) ∧
    [Op.setRoomId (-1),.ack (.exitRoom .success)].foldr wpBasic Q f { k with room := none }
  | .exchangeIsLogin a,Q,f,k =>
    if f.isLogin then wpBasic (.logout a) Q { f with isLogin := false } k
    else Q { f with isLogin := false } k
  | op,Q,f,k => wpBasic op Q f k

theorem loginSuccess_wp (bot : Bool) (a : Nat) (name : WString) (Q : Fields → Know → Prop) :
    (loginSuccess bot a name).foldr wp Q=(loginSuccess bot a name).foldr wpBasic Q := rfl

theorem logoutSuccess_wp (Q : Fields → Know → Prop) :
    logoutSuccess.foldr wp Q=logoutSuccess.foldr wpBasic Q := rfl

/-- A session between two handlers. -/
structure Rest (f : Fields) (k : Know) : Prop where
  account : k.account=if f.isLogin then some f.accountIdx else none
  entry : k.entry=if f.isLogin then some f.accountIdx else none
  nameEntry : k.nameEntry=if f.isLogin then some f.userName else none
  login : f.isLogin → f.wasConnected ∧ k.name=f.userName ∧ k.registered ∧ k.named
  cleared : f.isLogin=false → f.accountIdx=0 ∧ f.userName=[] ∧ f.enterRoomId=-1
  room : (f.enterRoomId=-1 ∧ k.room=none) ∨
    ∃ r : Fin maxRoomCount, f.enterRoomId=r.val ∧ k.room=some r ∧ f.isLogin
  loggedIn : f.loggedIn=if f.isLogin then some (f.accountIdx,f.userName) else none

/-- From these fields and this knowledge the operations run through to a session at rest. -/
def Valid (f : Fields) (k : Know) (ops : List Op) : Prop := ops.foldr wp Rest f k

attribute [local simp] Valid wp wpBasic pre post handlerFailed notLogin loginSuccess logoutSuccess

theorem handleReqLogin_valid {f : Fields} {k : Know} (h : Rest f k) (bot : Bool)
    (pkt : LoginRequest) (hc : f.wasConnected) : Valid f k (handleReqLogin bot pkt f) := by
  unfold handleReqLogin
  split
  · simpa using h
  · split
    · simpa using h
    · split
      · simpa using h
      · rename_i hname
        split
        · simpa using h
        · rename_i hl
          have hlogin : f.isLogin=false := by simpa using hl
          have hroom : f.enterRoomId=-1 ∧ k.room=none := by
            rcases h.room with hr|⟨r,-,-,hr⟩
            · exact hr
            · exact absurd hr hl
          refine ⟨⟨?_,?_,?_,hroom.2⟩,?_,?_,?_⟩
          · simp [h.account,hlogin]
          · simp [h.entry,hlogin]
          · simp [h.nameEntry,hlogin]
          · tauto
          · intro a name
            simp [h.entry,h.nameEntry,hlogin]
            constructor <;> simp [hroom,hc]
          · intro idx name e he
            simpa [he] using h

theorem handleReqLogout_valid {f : Fields} {k : Know} (h : Rest f k) :
    Valid { f with loggedIn := none } k (handleReqLogout f) := by
  unfold handleReqLogout
  split
  · rename_i hl
    have hn : f.loggedIn=none := by simp [h.loggedIn,hl]
    rw [← hn]
    simpa using h
  · rename_i hl
    have hlogin : f.isLogin=true := by simpa using hl
    have ha : k.account=some f.accountIdx := by simp [h.account,hlogin]
    have he : k.entry=some f.accountIdx := by simp [h.entry,hlogin]
    have hne : k.nameEntry=some f.userName := by simp [h.nameEntry,hlogin]
    rcases h.room with ⟨hr,hk⟩|⟨r,hr,hk,-⟩
    · rw [if_neg (by omega)]
      simp [ha,he,hne,hk]
      constructor <;> simp [hr]
    · rw [if_pos (by omega)]
      simp [ha,he,hne,hr,hk]
      constructor <;> simp

theorem handleReqEnterRoom_valid {f : Fields} {k : Know} (h : Rest f k) (roomId : Int) :
    Valid f k (handleReqEnterRoom roomId f) := by
  unfold handleReqEnterRoom
  split
  · simpa using h
  · rename_i hl
    have hlogin : f.isLogin=true := by simpa using hl
    split
    · simpa using h
    · rename_i hr
      have hroom : k.room=none := by
        rcases h.room with hr'|⟨r,hr',-,-⟩
        · exact hr'.2
        · omega
      refine ⟨⟨by simp [h.account,hlogin],hroom⟩,?_,trivial,h⟩
      intro r hrr
      refine ⟨trivial,trivial,?_⟩
      obtain ⟨ha,he,hne,hlog,hcl,-,hin⟩ := h
      refine ⟨ha,he,hne,hlog,by simp [post,hlogin],Or.inr ⟨r,hrr,rfl,hlogin⟩,hin⟩

theorem handleReqExitRoom_valid {f : Fields} {k : Know} (h : Rest f k) :
    Valid f k (handleReqExitRoom f) := by
  unfold handleReqExitRoom
  split
  · simpa using h
  · rename_i hl
    have hlogin : f.isLogin=true := by simpa using hl
    split
    · simpa using h
    · rename_i hr
      rcases h.room with hr'|⟨r,hr',hk,-⟩
      · omega
      · refine ⟨⟨by simp [h.account,hlogin],r,hr',hk⟩,trivial,trivial,?_⟩
        obtain ⟨ha,he,hne,hlog,hcl,-,hin⟩ := h
        exact ⟨ha,he,hne,hlog,by simp [post,hlogin],Or.inl ⟨rfl,rfl⟩,hin⟩

theorem handle_valid {f : Fields} {k : Know} (h : Rest f k) (hc : f.wasConnected) (pkt : Request) :
    Valid { f with loggedIn := match pkt with | .logout _ => none | _ => f.loggedIn } k
      (handle f pkt) := by
  cases pkt with
  | login bot pkt => exact handleReqLogin_valid h bot pkt hc
  | logout idx => exact handleReqLogout_valid h
  | enterRoom roomId => exact handleReqEnterRoom_valid h roomId
  | exitRoom => exact handleReqExitRoom_valid h

/-- The release and the reset at the end of the cleanup job. -/
theorem releaseSession_valid {f : Fields} {k : Know} (ha : k.account=none) (hr : k.room=none)
    (he : k.entry=none ∨ k.entry=some f.accountIdx)
    (hne : k.nameEntry=none ∨ k.nameEntry=some f.userName) (hl : f.isLogin=false)
    (hn : f.loggedIn=none) : Valid f k releaseSession := by
  simp [releaseSession,he,hne,hn]
  constructor <;> simp [ha,hr,hl]

theorem exchange_valid {f : Fields} {k : Know} (h : Rest f k) (roomId : Int) :
    Valid { f with loggedIn := none, enterRoomId := roomId } { k with room := none }
      (.exchangeIsLogin f.accountIdx::releaseSession) := by
  simp only [Valid,List.foldr_cons,wp]
  cases hl : f.isLogin with
  | false =>
    rw [if_neg (by simp)]
    apply releaseSession_valid <;> simp [h.account,h.entry,h.nameEntry,hl]
  | true =>
    rw [if_pos rfl]
    refine ⟨⟨by simp [h.account,hl],rfl,rfl⟩,?_⟩
    apply releaseSession_valid <;> simp [h.entry,h.nameEntry,hl]

theorem cleanup_valid {f : Fields} {k : Know} (h : Rest f k) :
    Valid { f with loggedIn := none } k (cleanup f) := by
  unfold cleanup
  split
  · rcases h.room with ⟨hr,hk⟩|⟨r,hr,hk,hl⟩
    · have hx := exchange_valid h f.enterRoomId
      have hkk : { k with room := none }=k := by rw [← hk]
      rw [hkk] at hx
      rw [onDisconnect,if_neg (by omega)]
      exact ⟨trivial,hx⟩
    · rw [onDisconnect,if_pos (by omega)]
      exact ⟨trivial,⟨by simp [h.account,hl],r,hr,hk⟩,trivial,exchange_valid h (-1)⟩
  · rename_i hc
    have hl : f.isLogin=false := by
      by_contra hl
      exact hc (h.login (by simpa using hl)).1
    rcases h.room with ⟨-,hk⟩|⟨r,-,-,hl'⟩
    · apply releaseSession_valid <;> simp [h.account,h.entry,h.nameEntry,hl,hk]
    · rw [hl] at hl'
      cases hl'

theorem Rest.connect {f : Fields} {k : Know} (h : Rest f k) :
    Rest { f with wasConnected := true } k := by
  obtain ⟨ha,he,hne,hlog,hcl,hroom,hin⟩ := h
  exact ⟨ha,he,hne,fun hl => ⟨rfl,(hlog hl).2⟩,hcl,hroom,hin⟩

/-- A postcondition that survives the connection flag. -/
def KeepsConnect (Q : Fields → Know → Prop) : Prop :=
  ∀ f k, Q f k → Q { f with wasConnected := true } k

theorem wpBasic_connect (op : Op) {Q : Fields → Know → Prop} (hQ : KeepsConnect Q) :
    KeepsConnect (wpBasic op Q) := by
  intro f k h
  have hpre : pre op { f with wasConnected := true } k=pre op f k := by
    cases op <;> rfl
  have hpost : post op { f with wasConnected := true } k=
      ({ (post op f k).1 with wasConnected := true },(post op f k).2) := by
    cases op with
    | ackLogin bot idx name result =>
      simp only [post]
      split <;> rfl
    | _ => rfl
  unfold wpBasic at h ⊢
  rw [hpre,hpost]
  exact ⟨h.1,hQ _ _ h.2⟩

theorem foldr_wpBasic_connect (ops : List Op) {Q : Fields → Know → Prop} (hQ : KeepsConnect Q) :
    KeepsConnect (ops.foldr wpBasic Q) := by
  induction ops with
  | nil => exact hQ
  | cons op ops ih => exact wpBasic_connect op ih

theorem wp_connect (op : Op) {Q : Fields → Know → Prop} (hQ : KeepsConnect Q) :
    KeepsConnect (wp op Q) := by
  intro f k h
  cases op with
  | loginCall bot pkt =>
    obtain ⟨hk,hname,hsucc,hfail⟩ := h
    refine ⟨hk,hname,?_,?_⟩
    · intro a name
      exact foldr_wpBasic_connect _ hQ _ _ (hsucc a name)
    · intro idx name e he
      exact wpBasic_connect _ hQ _ _ (hfail idx name e he)
  | logoutCall => exact ⟨h.1,foldr_wpBasic_connect _ hQ _ _ h.2⟩
  | enterCall roomId =>
    obtain ⟨hk,hsucc,hfail⟩ := h
    refine ⟨hk,?_,wpBasic_connect _ hQ _ _ hfail⟩
    intro r hr
    exact foldr_wpBasic_connect _ hQ _ _ (hsucc r hr)
  | exitCall roomId => exact ⟨h.1,foldr_wpBasic_connect _ hQ _ _ h.2⟩
  | exchangeIsLogin a =>
    simp only [wp] at h ⊢
    split at h
    · rename_i hl
      rw [if_pos hl]
      exact wpBasic_connect _ hQ _ _ h
    · rename_i hl
      rw [if_neg hl]
      exact hQ _ _ h
  | _ => exact wpBasic_connect _ hQ _ _ h

theorem valid_connect {f : Fields} {k : Know} {ops : List Op} (h : Valid f k ops) :
    Valid { f with wasConnected := true } k ops := by
  have hkeep : KeepsConnect (ops.foldr wp Rest) := by
    clear h
    induction ops with
    | nil =>
      intro f k hr
      exact hr.connect
    | cons op ops ih => exact wp_connect op ih
  exact hkeep f k h

end IocpServer.Game
