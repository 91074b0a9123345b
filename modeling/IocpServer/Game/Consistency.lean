import IocpServer.Game.Registry

namespace IocpServer.Game

open NetWork (SessionManager)

variable {S : Type}

/-- Every session knows enough about the shared state to run through what it still has to do. -/
structure Inv (s : State S) : Prop where
  owners : Owners s
  know : ∀ x, ∃ k, Sat s x k ∧ Logged (s.sessions x).toFields k ∧
    Valid (s.sessions x).toFields k (s.sessions x).todo

theorem inv_init (maxSessionCount : Int) : Inv (State.init maxSessionCount : State S) := by
  constructor
  · refine ⟨Login.inv_init,?_,?_,?_,?_⟩
    · rintro a name ⟨id,info,h,-⟩
      simp [State.init,Login.init] at h
    · intro a h
      simp [State.init,Login.init] at h
    · intro a
      simp [State.init,Login.init,Session.init]
    · intro x y a h
      simp [State.init,Session.init] at h
  · intro x
    refine ⟨⟨none,[],false,false,none,none,none⟩,?_,?_,?_⟩
    · constructor <;>
        simp [State.init,Session.init,SessionManager.init,RoomManager.createRoom,RoomManager.Lists,
          Room.new]
    · intro a name h
      simp [State.init,Session.init] at h
    · constructor <;> simp [State.init,Session.init]

/-- Steps that touch nothing that knowledge is about. -/
theorem Inv.same {s s' : State S} (h : Inv s) (hs : SameShared s s')
    (hses : ∀ y, s'.sessions y=s.sessions y) : Inv s' := by
  refine ⟨hs.owners h.owners,?_⟩
  intro y
  obtain ⟨k,hsat,hlog,hval⟩ := h.know y
  rw [hses y]
  exact ⟨k,hs.sat hsat,hlog,hval⟩

theorem Inv.obtained_of_lists {s : State S} (h : Inv s) {r : Fin maxRoomCount} {a : Nat} {x : S}
    (hl : s.rooms.Lists r a x) : (s.sessions x).obtained=some a := by
  obtain ⟨k,hsat,-,-⟩ := h.know x
  exact hsat.obtained.trans ((hsat.room r a).mp hl).2

theorem Inv.lists_unique {s : State S} (h : Inv s) {q r : Fin maxRoomCount} {a : Nat} {x y : S}
    (hx : s.rooms.Lists q a x) (hy : s.rooms.Lists r a y) : q=r ∧ x=y := by
  have hxy := h.owners.unique x y a (h.obtained_of_lists hx) (h.obtained_of_lists hy)
  subst hxy
  obtain ⟨k,hsat,-,-⟩ := h.know x
  have hq := ((hsat.room q a).mp hx).1
  rw [((hsat.room r a).mp hy).1] at hq
  exact ⟨(Option.some.inj hq).symm,rfl⟩

/-- What the next operation of a session asks for is known to hold. -/
theorem Inv.next {s : State S} (h : Inv s) {x : S} {op : Op} {rest : List Op}
    (htodo : (s.sessions x).todo=op::rest) :
    ∃ k, Sat s x k ∧ wp op (rest.foldr wp Rest) (s.sessions x).toFields k := by
  obtain ⟨k,hsat,-,hval⟩ := h.know x
  rw [htodo] at hval
  exact ⟨k,hsat,hval⟩

/-- A session about to enter a room is not yet listed there. -/
theorem Inv.enterCall {s : State S} (h : Inv s) {x : S} {roomId : Int} {rest : List Op}
    (htodo : (s.sessions x).todo=.enterCall roomId::rest) (r : Fin maxRoomCount) :
    (s.sessions x).accountIdx∉(s.rooms.roomList r).roomSessionList := by
  obtain ⟨k,hsat,⟨hk,hroom⟩,-⟩ := h.next htodo
  intro hin
  obtain ⟨y,hy⟩ := Option.isSome_iff_exists.mp (AList.lookup_isSome.mpr hin)
  have hxy : y=x :=
    h.owners.unique y x _ (h.obtained_of_lists hy) (hsat.obtained.trans hk)
  subst hxy
  have hr := ((hsat.room r _).mp hy).1
  rw [hroom] at hr
  cases hr

theorem Sat.listed {s : State S} {x : S} {k : Know} {r : Fin maxRoomCount} {a : Nat} (h : Sat s x k)
    (ha : k.account=some a) (hr : k.room=some r) : a∈(s.rooms.roomList r).roomSessionList := by
  have hl : (s.rooms.roomList r).roomSessionList.lookup a=some x := (h.room r a).mpr ⟨hr,ha⟩
  exact AList.lookup_isSome.mp (by rw [hl]; rfl)

variable [DecidableEq S]

/-- One session has moved soundly and can still run through. -/
theorem Inv.move {s s' : State S} (h : Inv s) {x : S} {k : Know} (hs : Sound s s' x k)
    (hl : Logged (s'.sessions x).toFields k)
    (hv : Valid (s'.sessions x).toFields k (s'.sessions x).todo) : Inv s' := by
  refine ⟨hs.owners,?_⟩
  intro y
  by_cases hy : y=x
  · subst hy
    exact ⟨k,hs.sat,hl,hv⟩
  · obtain ⟨k',hsat,hlog,hval⟩ := h.know y
    rw [hs.steady.sessions y hy]
    exact ⟨k',hs.steady.sat y k' hy hsat,hlog,hval⟩

/-- A session writes its own fields. -/
theorem Inv.write {s : State S} (h : Inv s) {x : S} {ses : Session}
    (hob : ses.obtained=(s.sessions x).obtained)
    (hses : ∀ k, Logged (s.sessions x).toFields k →
      Valid (s.sessions x).toFields k (s.sessions x).todo →
      Logged ses.toFields k ∧ Valid ses.toFields k ses.todo) : Inv (s.setSession x ses) := by
  obtain ⟨k,hsat,hlog,hval⟩ := h.know x
  obtain ⟨hlog',hval'⟩ := hses k hlog hval
  apply h.move (sound_setSession h.owners hsat hob)
  · simpa [State.setSession] using hlog'
  · simpa [State.setSession] using hval'

theorem Inv.connect {s : State S} (h : Inv s) (x : S) : Inv (s.connect x) := by
  apply h.write
  · rfl
  · intro k hlog hval
    exact ⟨hlog,valid_connect hval⟩

theorem Inv.addSession {s : State S} (h : Inv s) {x : S} {b : Bool} {m : SessionManager S}
    (hm : s.manager.addSession x=some (b,m)) : Inv { s with manager := m } := by
  have hreg : m.accountSessions=s.manager.accountSessions ∧ m.nameSessions=s.manager.nameSessions := by
    unfold SessionManager.addSession at hm
    split at hm
    · cases hm
      exact ⟨rfl,rfl⟩
    · split at hm <;> cases hm
      exact ⟨rfl,rfl⟩
  apply h.same
  · exact ⟨rfl,hreg.1,hreg.2,rfl,fun _ => rfl⟩
  · exact fun _ => rfl

/-- An idle session enters a handler: its knowledge at rest is what the handler starts from. -/
theorem Inv.startHandler {s : State S} (h : Inv s) {x : S} (hc : (s.sessions x).wasConnected)
    (hidle : (s.sessions x).todo=[]) (pkt : Request) : Inv (s.startHandler x pkt) := by
  apply h.write
  · rfl
  · intro k hlog hval
    rw [hidle] at hval
    refine ⟨?_,handle_valid hval hc pkt⟩
    intro a name hin
    cases pkt with
    | logout idx => cases hin
    | _ => exact hlog a name hin

theorem Inv.startCleanup {s : State S} (h : Inv s) {x : S} (hidle : (s.sessions x).todo=[]) :
    Inv (s.startCleanup x) := by
  apply h.write
  · rfl
  · intro k _ hval
    rw [hidle] at hval
    refine ⟨?_,cleanup_valid hval⟩
    intro a name hin
    cases hin

theorem Sound.setTodo {s s' : State S} {x : S} {k : Know} (h : Sound s s' x k) (ops : List Op) :
    Sound s (s'.setSession x { s'.sessions x with todo := ops }) x k := by
  have hset : Sound s' (s'.setSession x { s'.sessions x with todo := ops }) x k :=
    sound_setSession h.owners h.sat rfl
  refine ⟨hset.owners,hset.sat,?_,?_⟩
  · intro y hy
    rw [hset.steady.sessions y hy,h.steady.sessions y hy]
  · intro y k' hy hsat
    exact hset.steady.sat y k' hy (h.steady.sat y k' hy hsat)

theorem Inv.advance {c : Codec} (hc : ∀ str, str≠[] → c.multiByteToWideChar str≠[]) {s : State S}
    (h : Inv s) {x : S} {op : Op} {rest : List Op} (htodo : (s.sessions x).todo=op::rest) :
    Inv (advance c s x op rest).1 := by
  obtain ⟨k,hsat,hlog,hval⟩ := h.know x
  rw [htodo] at hval
  obtain ⟨k',hsound,hlog',hval'⟩ := exec_sound hc h.owners hsat hlog hval
  rw [← List.foldr_append] at hval'
  apply h.move (hsound.setTodo _)
  · simpa [State.setSession] using hlog'
  · simpa [State.setSession,Valid] using hval'

theorem Inv.step {c : Codec} (hc : ∀ str, str≠[] → c.multiByteToWideChar str≠[]) {s s' : State S}
    {a : Action S} (h : Inv s) (hs : step c s a=some s') : Inv s' := by
  cases a with
  | connect x =>
    cases hs
    exact h.connect x
  | countConnect x =>
    cases hs
    exact h.same ⟨rfl,rfl,rfl,rfl,fun _ => rfl⟩ fun _ => rfl
  | addSession x =>
    simp only [Game.step,Option.map_eq_some_iff] at hs
    obtain ⟨⟨b,m⟩,hm,rfl⟩ := hs
    exact h.addSession hm
  | handle x pkt =>
    simp only [Game.step] at hs
    split at hs
    · rename_i hx
      cases hs
      exact h.startHandler hx.1 hx.2 pkt
    · cases hs
  | cleanup x =>
    simp only [Game.step] at hs
    split at hs
    · rename_i hx
      cases hs
      exact h.startCleanup hx
    · cases hs
  | advance x =>
    simp only [Game.step] at hs
    split at hs
    · cases hs
    · rename_i op rest htodo
      cases hs
      exact h.advance hc htodo

theorem reaches_inv {c : Codec} (hc : ∀ str, str≠[] → c.multiByteToWideChar str≠[])
    {maxSessionCount : Int} {s : State S} (h : Reaches (step c) Any (State.init maxSessionCount) s) :
    Inv s :=
  h.invariant (inv_init maxSessionCount) fun _ _ _ hi _ hs => hi.step hc hs

/-- A logged-in account belongs to exactly one session, and a session that has finished a login
stays the one that both registries name, until it starts its own logout or cleanup. -/
theorem logged_in_stays_registered {c : Codec}
    (hc : ∀ str, str≠[] → c.multiByteToWideChar str≠[]) (maxSessionCount : Int) {s : State S}
    (h : Reaches (step c) Any (State.init maxSessionCount) s) :
    (∀ a, a∈s.login.loginList → ∃! x, (s.sessions x).obtained=some a) ∧
    ∀ x a name, (s.sessions x).loggedIn=some (a,name) →
      s.manager.accountSessions.lookup a=some x ∧ s.manager.nameSessions.lookup name=some x := by
  have hinv := reaches_inv hc h
  constructor
  · intro a ha
    obtain ⟨x,hx⟩ := (hinv.owners.owner a).mp ha
    exact ⟨x,hx,fun y hy => hinv.owners.unique y x a hy hx⟩
  · intro x a name hin
    obtain ⟨k,hsat,hlog,-⟩ := hinv.know x
    obtain ⟨ha,rfl,hreg,hnamed⟩ := hlog a name hin
    exact ⟨hsat.account a ha hreg,hsat.name a ha hnamed⟩

/-- A codec for plain ASCII text. -/
def ascii : Codec := ⟨List.map UInt8.toUInt16,List.map UInt16.toUInt8⟩

theorem ascii_nonempty (str : Utf8) (h : str≠[]) : ascii.multiByteToWideChar str≠[] := by
  simpa [ascii] using h

def request (isCreate : Bool) : Request := .login false ⟨isCreate,[105],[112],[110]⟩

/-- The account of session `false` is logged in by session `true` while `false`, which has logged
it out, has not yet released its registry entries; it does so at the end. -/
def staleRelease : List (Action Bool) :=
  [Action.connect false,Action.connect true,Action.handle false (request true)]++
  List.replicate 8 (Action.advance false)++
  [Action.handle false (.logout 1),Action.advance false,Action.handle true (request false)]++
  List.replicate 8 (Action.advance true)++List.replicate 6 (Action.advance false)

theorem logged_in_stays_registered_staleRelease :
    ∃ s, runActions (step ascii) (State.init 10) staleRelease=some s ∧
      (s.sessions true).loggedIn=some (1,[110]) ∧ (s.sessions false).todo=[] ∧
      s.manager.accountSessions.lookup 1=some true ∧ s.manager.nameSessions.lookup [110]=some true := by
  refine ⟨_,rfl,rfl,rfl,?_⟩
  exact (logged_in_stays_registered ascii_nonempty 10
    (Reaches.of_runActions (fun _ _ => trivial) staleRelease rfl)).2 true 1 [110] rfl

/-- Where the accounts and the rooms have a session that is between two handlers. -/
structure Placed (s : State S) (x : S) : Prop where
  account : ∀ a, s.manager.accountSessions.lookup a=some x ↔
    (s.sessions x).isLogin ∧ a=(s.sessions x).accountIdx
  room : ∀ r a, s.rooms.Lists r a x ↔
    (s.sessions x).enterRoomId=r.val ∧ (s.sessions x).isLogin ∧ a=(s.sessions x).accountIdx
  inside : (s.sessions x).enterRoomId=-1 ∨
    ∃ r : Fin maxRoomCount, (s.sessions x).enterRoomId=r.val ∧ (s.sessions x).isLogin

omit [DecidableEq S] in
theorem Inv.placed {s : State S} (h : Inv s) {x : S} (htodo : (s.sessions x).todo=[]) :
    Placed s x := by
  obtain ⟨k,hsat,-,hvalid⟩ := h.know x
  rw [htodo] at hvalid
  have hrest : Rest (s.sessions x).toFields k := hvalid
  have haccount := hrest.account
  constructor
  · intro a
    constructor
    · intro ha
      have hentry := (hsat.entry a ha).2
      rw [hrest.entry] at hentry
      split at hentry
      · rename_i hl
        exact ⟨hl,(Option.some.inj hentry).symm⟩
      · cases hentry
    · rintro ⟨hl,rfl⟩
      rw [if_pos hl] at haccount
      exact hsat.account _ haccount (hrest.login hl).2.2.1
  · intro r a
    rw [hsat.room,haccount]
    rcases hrest.room with ⟨hid,hk⟩|⟨q,hid,hk,hl⟩
    · rw [hk,hid]
      constructor
      · rintro ⟨hr,-⟩
        cases hr
      · rintro ⟨hr,-⟩
        omega
    · rw [hk,hid,if_pos hl,Option.some.injEq,Option.some.injEq,Int.natCast_inj,Fin.val_inj]
      constructor
      · rintro ⟨hq,ha⟩
        exact ⟨hq,hl,ha.symm⟩
      · rintro ⟨hq,-,ha⟩
        exact ⟨hq,ha.symm⟩
  · rcases hrest.room with ⟨hid,-⟩|⟨r,hid,-,hl⟩
    · exact Or.inl hid
    · exact Or.inr ⟨r,hid,hl⟩

/-- Rooms, login list and sessions agree at every step: counters are right, only logged-in accounts
are listed, none twice, and the failure branches that would contradict this are never taken. -/
theorem rooms_agree_with_login {c : Codec}
    (hc : ∀ str, str≠[] → c.multiByteToWideChar str≠[]) (maxSessionCount : Int) {s : State S}
    (h : Reaches (step c) Any (State.init maxSessionCount) s) :
    (∀ r, (s.rooms.roomList r).roomCurCount=(s.rooms.roomList r).roomSessionList.size ∧
      (s.rooms.roomList r).roomCurCount ≤ (s.rooms.roomList r).roomMaxCount) ∧
    (∀ r a x, s.rooms.Lists r a x → a∈s.login.loginList) ∧
    (∀ q r a x y, s.rooms.Lists q a x → s.rooms.Lists r a y → q=r) ∧
    (∀ x roomId rest, (s.sessions x).todo=.enterCall roomId::rest →
      ∀ r, RoomManager.find roomId=some r →
        (s.sessions x).accountIdx∉(s.rooms.roomList r).roomSessionList) ∧
    (∀ x roomId rest, (s.sessions x).todo=.exitCall roomId::rest →
      ∃ r, RoomManager.find roomId=some r ∧
        (s.sessions x).accountIdx∈(s.rooms.roomList r).roomSessionList) ∧
    (∀ x roomId a rest, (s.sessions x).todo=.exitRoom roomId a::rest →
      ∃ r, RoomManager.find roomId=some r ∧ a∈(s.rooms.roomList r).roomSessionList) ∧
    ∀ x rest, (s.sessions x).todo=.logoutCall::rest →
      (s.login.logout (s.sessions x).accountIdx).1=true := by
  have hinv := reaches_inv hc h
  refine ⟨fun r => ⟨(s.rooms.roomList r).count,(s.rooms.roomList r).le_max⟩,?_,?_,?_,?_,?_,?_⟩
  · intro r a x hl
    exact (hinv.owners.owner a).mpr ⟨x,hinv.obtained_of_lists hl⟩
  · intro q r a x y hx hy
    exact (hinv.lists_unique hx hy).1
  · intro x roomId rest htodo r _
    exact hinv.enterCall htodo r
  · intro x roomId rest htodo
    obtain ⟨k,hsat,⟨hk,r,hr,hroom⟩,-⟩ := hinv.next htodo
    exact ⟨r,RoomManager.find_eq_some.mpr hr,hsat.listed hk hroom⟩
  · intro x roomId a rest htodo
    obtain ⟨k,hsat,⟨hk,r,hr,hroom⟩,-⟩ := hinv.next htodo
    exact ⟨r,RoomManager.find_eq_some.mpr hr,hsat.listed hk hroom⟩
  · intro x rest htodo
    obtain ⟨k,hsat,⟨hk,-,-⟩,-⟩ := hinv.next htodo
    rw [Login.logout_of_mem ((hinv.owners.owner _).mpr ⟨x,hsat.obtained.trans hk⟩)]

/-- The account of session `false` enters room 3, and the cleanup of `false` starts; session `true`
logs in the same account while the cleanup of `false` has not ended, and is about to enter room 3. -/
def reconnect : List (Action Bool) :=
  [Action.connect false,Action.connect true,Action.handle false (request true)]++
  List.replicate 8 (Action.advance false)++[Action.handle false (.enterRoom 3)]++
  List.replicate 3 (Action.advance false)++[Action.cleanup false]++
  List.replicate 5 (Action.advance false)++[Action.handle true (request false)]++
  List.replicate 8 (Action.advance true)++[Action.handle true (.enterRoom 3)]

theorem rooms_agree_with_login_reconnect :
    ∃ s, runActions (step ascii) (State.init 10) reconnect=some s ∧
      (s.sessions false).todo=releaseSession ∧ (s.sessions true).todo=[.enterCall 3] ∧
      (s.sessions true).accountIdx=1 ∧ s.login.loginList={1} ∧
      1∉(s.rooms.roomList ⟨3,by decide⟩).roomSessionList := by
  refine ⟨_,rfl,rfl,rfl,rfl,rfl,?_⟩
  exact (rooms_agree_with_login ascii_nonempty 10
    (Reaches.of_runActions (fun _ _ => trivial) reconnect rfl)).2.2.2.1 true 3 [] rfl _ rfl

end IocpServer.Game
