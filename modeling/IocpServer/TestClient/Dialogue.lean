import IocpServer.Game.Leaving
import IocpServer.TestClient.SendPipeline

namespace IocpServer.TestClient

open NetWork (SendBuffer)
open Game (Codec Request Ack LoginRequest Op)

/-- A packet of the client: one of the requests, or one that leaves login and room alone (chat, room
list, pong). -/
inductive Message where
  | request (pkt : Request)
  | other

/-- `fits` says whether `MakeSendBuffer` makes a buffer for the request. -/
def messageEnv (codec : Codec) (sendBuffer : Message → SendBuffer) (fits : Request → Bool) :
    Env Message :=
  ⟨codec,sendBuffer,fun pkt => if fits pkt then some (.request pkt) else none,fun _ => some .other⟩

/-- A client, the session of the server for it, and what is under way between them: the accepted
messages behind the first `received`, and `toClient`. `connected` is what `is_connected()` of the
server's session answers. -/
structure Dialogue (T S : Type) where
  client : State T Message
  received : Nat
  game : Game.State S
  connected : Bool
  toClient : List Reply

namespace Dialogue

variable {T S : Type}

/-- `client` is a step of the client other than taking a reply, which is `readReply`; `dispatch` and
`advance` are the jobs of the server's session; `notify` sends it something that answers no request;
`game` is a step of the other sessions. -/
inductive Action (T S : Type) where
  | client (a : Pool.Action T Choice (Entry Message))
  | readReply (t : T)
  | dispatch
  | advance
  | ping (serverTick : Nat)
  | notify
  | serverDisconnect
  | game (a : Game.Action S)

/-- The public operations of the client make the requests; `send` is used for the other messages. -/
def isOwn : Pool.Action T Choice (Entry Message) → Bool
  | .run _ ⟨_,.reply _⟩ => false
  | .enter _ (.send (some (.request _))) => false
  | _ => true

variable [DecidableEq T] [DecidableEq S]

def init (x : S) (maxSessionCount : Int) (botIndex : UInt32) : Dialogue T S :=
  ⟨Pool.State.init (TestSession.init botIndex),0,(Game.State.init maxSessionCount).connect x,true,[]⟩

/-- What the server's session does outside the game state. -/
def answer (s : Dialogue T S) (game : Game.State S) : Option Game.Out → Dialogue T S
  | some (.send pkt) => { s with game := game, toClient := s.toClient++[.ack pkt] }
  | some .disconnect => { s with game := game, connected := false }
  | _ => { s with game := game }

/-- A step of another session, or the end of a session that is not connected any more. -/
def isForeign (x : S) (connected : Bool) : Game.Action S → Bool
  | .connect y | .handle y _ | .advance y => y≠x
  | .cleanup y => y≠x || !connected
  | .countConnect _ | .addSession _ => true

def step (e : Env Message) (x : S) (s : Dialogue T S) : Action T S → Option (Dialogue T S)
  | .client a =>
    if isOwn a then (TestClient.step e s.client a).map fun c => { s with client := c } else none
  | .readReply t =>
    match s.toClient,s.client.calls t with
    | r::rest,.onRecv::_ =>
      (TestClient.step e s.client (.run t ⟨true,.reply r⟩)).map fun c =>
        { s with client := c, toClient := rest }
    | _,_ => none
  | .dispatch =>
    if (s.game.sessions x).todo=[] then
      match s.client.core.accepted[s.received]? with
      | none => none
      | some (.request pkt) =>
        some { s with
          received := s.received+1
          game := if s.connected then s.game.startHandler x pkt else s.game }
      | some .other => some { s with received := s.received+1 }
    else none
  | .advance =>
    match (s.game.sessions x).todo with
    | [] => none
    | op::rest =>
      let r := Game.advance e.codec s.game x op rest
      some (s.answer r.1 r.2)
  | .ping serverTick => some { s with toClient := s.toClient++[.ping serverTick] }
  | .notify => some { s with toClient := s.toClient++[.other] }
  | .serverDisconnect => some { s with connected := false }
  | .game a =>
    if isForeign x s.connected a then
      (Game.step e.codec s.game a).map fun g => { s with game := g }
    else none

end Dialogue

/-- What a message under way, a handler or a frame says about a request: that it asks, or how it was
answered. -/
inductive Carrier where
  | ask (kind : After)
  | login (success : Bool) (idx : Nat)
  | enterRoom (success : Bool) (roomId : Int)
  | exitRoom (success : Bool)

def Carrier.kind : Carrier → After
  | .ask kind => kind
  | .login _ _ => .login
  | .enterRoom _ _ => .enterRoom
  | .exitRoom _ => .exitRoom

def requestCarrier : Request → List Carrier
  | .login _ _ => [.ask .login]
  | .logout _ => []
  | .enterRoom _ => [.ask .enterRoom]
  | .exitRoom => [.ask .exitRoom]

def Message.carrier : Message → List Carrier
  | .request pkt => requestCarrier pkt
  | .other => []

def ackCarrier : Ack → List Carrier
  | .login _ idx _ result => [.login (result=.success) idx]
  | .logout _ => []
  | .enterRoom roomId result => [.enterRoom (result=.success) roomId]
  | .exitRoom result => [.exitRoom (result=.success)]

def Reply.carrier : Reply → List Carrier
  | .ack pkt => ackCarrier pkt
  | _ => []

def opCarrier : Op → List Carrier
  | .loginCall _ _ => [.ask .login]
  | .enterCall _ => [.ask .enterRoom]
  | .exitCall _ => [.ask .exitRoom]
  | .ackLogin _ idx _ result => [.login (result=.success) idx]
  | .ack pkt => ackCarrier pkt
  | _ => []

def Frame.carrier {β : Type} : Frame β → List Carrier
  | .send _ .nothing => []
  | .send _ kind => [.ask kind]
  | .completeLogin success idx => [.login success idx]
  | .completeEnterRoom success roomId => [.enterRoom success roomId]
  | .completeExitRoom success => [.exitRoom success]
  | _ => []

/-- Login, account and room of the server's session once its running handler is done. -/
structure Standing where
  isLogin : Bool
  accountIdx : Nat
  roomId : Int

def Standing.after (v : Standing) : Op → Standing
  | .setIsLogin isLogin => { v with isLogin := isLogin }
  | .setAccountIdx idx => { v with accountIdx := idx }
  | .setRoomId roomId => { v with roomId := roomId }
  | _ => v

def standing (ses : Game.Session) : Standing :=
  ses.todo.foldl Standing.after ⟨ses.isLogin,ses.accountIdx,ses.enterRoomId⟩

/-- What a carrier says is true of the server's session; `roomId` is the client's room. -/
def Carrier.Agrees (v : Standing) (roomId : Int) : Carrier → Prop
  | .ask .nothing => True
  | .ask .login => v.isLogin=false ∧ v.accountIdx=0
  | .ask .enterRoom | .ask .exitRoom => v.roomId=roomId
  | .login success idx => v.isLogin=success ∧ v.accountIdx=if success then idx else 0
  | .enterRoom success entered => v.roomId=if success then entered else roomId
  | .exitRoom success => v.roomId=if success then -1 else roomId

/-- What the client remembers of its login and its room. -/
structure Belief where
  isConnect : Bool
  isLogin : Bool
  accountIdx : Nat
  roomId : Int
  loginPending : Bool
  roomRequest : RoomRequest

def TestSession.belief {β : Type} (c : TestSession β) : Belief :=
  ⟨c.isConnect,c.isLogin,c.accountIdx,c.roomId,c.loginPending,c.roomRequest⟩

/-- The number of pending requests of this kind. -/
def Belief.pending (b : Belief) : After → Nat
  | .nothing => 0
  | .login => b.loginPending.toNat
  | .enterRoom => if b.roomRequest=.enter then 1 else 0
  | .exitRoom => if b.roomRequest=.exit then 1 else 0

/-- The number of carriers of this kind. -/
def number (k : After) (cs : Multiset Carrier) : Nat := cs.countP fun q => q.kind=k

theorem number_cons (k : After) (q : Carrier) (cs : Multiset Carrier) :
    number k (q::ₘcs)=number k cs+if q.kind=k then 1 else 0 :=
  Multiset.countP_cons _ _ _

theorem number_eq_zero {k : After} {cs : Multiset Carrier} :
    number k cs=0 ↔ ∀ q∈cs, q.kind≠k :=
  Multiset.countP_eq_zero

/-- `cs` with the carriers of a list, in a form that computes on the list. -/
def put (qs : List Carrier) (cs : Multiset Carrier) : Multiset Carrier := qs.foldr Multiset.cons cs

theorem put_eq (qs : List Carrier) (cs : Multiset Carrier) : put qs cs=qs+cs := by
  induction qs with
  | nil => exact (zero_add cs).symm
  | cons q qs ih => rw [put,List.foldr_cons,← put,ih,← Multiset.cons_coe,Multiset.cons_add]

/-- Every pending request has one carrier, the carriers tell the truth, and what is not pending is as
the server has it. -/
structure Agree (b : Belief) (v : Standing) (cs : Multiset Carrier) : Prop where
  count : ∀ k≠.nothing, number k cs=b.pending k
  agrees : ∀ q∈cs, q.Agrees v b.roomId
  login : b.loginPending=false → b.isLogin=v.isLogin ∧ b.accountIdx=v.accountIdx
  room : b.roomRequest=.none → b.roomId=v.roomId
  guest : b.loginPending=false → b.isLogin=false → b.accountIdx=0
  notYet : b.loginPending=true → b.isLogin=false
  loggedIn : b.roomRequest≠.none → b.isLogin=true
  on : b.loginPending=true ∨ b.roomRequest≠.none → b.isConnect=true

namespace Carrier.Agrees

variable {q : Carrier} {v v' : Standing} {roomId : Int}

theorem of_room (h : q.Agrees v roomId) (hq : q.kind≠.login) (hv : v'.roomId=v.roomId) :
    q.Agrees v' roomId := by
  cases q with
  | ask k => cases k with
    | login => exact absurd rfl hq
    | nothing => trivial
    | _ => exact hv.trans h
  | login => exact absurd rfl hq
  | _ => exact hv.trans h

theorem of_login (h : q.Agrees v roomId) (henter : q.kind≠.enterRoom) (hexit : q.kind≠.exitRoom)
    (hl : v'.isLogin=v.isLogin) (ha : v'.accountIdx=v.accountIdx) (roomId' : Int) :
    q.Agrees v' roomId' := by
  cases q with
  | ask k => cases k with
    | nothing => trivial
    | login => exact ⟨hl.trans h.1,ha.trans h.2⟩
    | enterRoom => exact absurd rfl henter
    | exitRoom => exact absurd rfl hexit
  | login => exact ⟨hl.trans h.1,ha.trans h.2⟩
  | enterRoom => exact absurd rfl henter
  | exitRoom => exact absurd rfl hexit

end Carrier.Agrees

namespace Agree

variable {b : Belief} {v v' : Standing} {q q' : Carrier} {cs : Multiset Carrier}

theorem pending_le (b : Belief) (k : After) : b.pending k ≤ 1 := by
  cases k with
  | nothing => exact Nat.zero_le 1
  | login => exact Bool.toNat_le b.loginPending
  | _ =>
    simp only [Belief.pending]
    split <;> decide

theorem alone (h : Agree b v (q::ₘcs)) (hq : q.kind≠.nothing) :
    b.pending q.kind=1 ∧ ∀ p∈cs, p.kind≠q.kind := by
  have hcount := h.count q.kind hq
  have hle := pending_le b q.kind
  rw [number_cons,if_pos rfl] at hcount
  exact ⟨by omega,number_eq_zero.mp (by omega)⟩

theorem alone_login (h : Agree b v (q::ₘcs)) (hq : q.kind=.login) :
    b.loginPending=true ∧ ∀ p∈cs, p.kind≠.login := by
  obtain ⟨hone,hother⟩ := h.alone (by rw [hq]; nofun)
  rw [hq] at hone hother
  refine ⟨?_,hother⟩
  cases hb : b.loginPending with
  | true => rfl
  | false =>
    simp only [Belief.pending,hb] at hone
    cases hone

theorem enter_of_kind (h : Agree b v (q::ₘcs)) (hq : q.kind=.enterRoom) : b.roomRequest=.enter := by
  have hone := (h.alone (by rw [hq]; nofun)).1
  by_contra hne
  simp [hq,Belief.pending,hne] at hone

theorem exit_of_kind (h : Agree b v (q::ₘcs)) (hq : q.kind=.exitRoom) : b.roomRequest=.exit := by
  have hone := (h.alone (by rw [hq]; nofun)).1
  by_contra hne
  simp [hq,Belief.pending,hne] at hone

/-- Enter and exit requests exclude each other. -/
theorem alone_room (h : Agree b v (q::ₘcs)) (hq : q.kind=.enterRoom ∨ q.kind=.exitRoom) :
    b.roomRequest≠.none ∧ ∀ p∈cs, p.kind≠.enterRoom ∧ p.kind≠.exitRoom := by
  have hother := (h.alone (by rcases hq with hq|hq <;> rw [hq] <;> nofun)).2
  have hex : ∀ k≠q.kind, k≠.nothing → b.pending k=0 → ∀ p∈cs, p.kind≠k := by
    intro k hk hk' hzero
    have hc := h.count k hk'
    rw [hzero,number_cons,if_neg hk.symm] at hc
    exact number_eq_zero.mp hc
  rcases hq with hq|hq
  · have hr := h.enter_of_kind hq
    rw [hq] at hother hex
    refine ⟨by rw [hr]; nofun,fun p hp => ⟨hother p hp,?_⟩⟩
    exact hex .exitRoom nofun nofun (by simp [Belief.pending,hr]) p hp
  · have hr := h.exit_of_kind hq
    rw [hq] at hother hex
    refine ⟨by rw [hr]; nofun,fun p hp => ⟨?_,hother p hp⟩⟩
    exact hex .enterRoom nofun nofun (by simp [Belief.pending,hr]) p hp

theorem count_swap (h : Agree b v (q::ₘcs)) (hk : q'.kind=q.kind) (k : After) (hne : k≠.nothing) :
    number k (q'::ₘcs)=b.pending k := by
  rw [← h.count k hne,number_cons,number_cons,hk]

/-- A login request is answered, which may change login and account. -/
theorem answerLogin (h : Agree b v (q::ₘcs)) (hq : q.kind=.login) (hq' : q'.kind=.login)
    (hv : v'.roomId=v.roomId) (ha : q'.Agrees v' b.roomId) : Agree b v' (q'::ₘcs) := by
  obtain ⟨hpending,hother⟩ := h.alone_login hq
  refine ⟨fun k hk => h.count_swap (hq'.trans hq.symm) k hk,?_,?_,?_,?_,h.notYet,h.loggedIn,h.on⟩
  · intro p hp
    rcases Multiset.mem_cons.mp hp with rfl|hp
    · exact ha
    · exact (h.agrees p (Multiset.mem_cons_of_mem hp)).of_room (hother p hp) hv
  · intro hoff
    rw [hpending] at hoff
    cases hoff
  · intro hr
    exact (h.room hr).trans hv.symm
  · intro hoff
    rw [hpending] at hoff
    cases hoff

/-- A room request is answered, which may change the room. -/
theorem answerRoom (h : Agree b v (q::ₘcs)) (hq : q.kind=.enterRoom ∨ q.kind=.exitRoom)
    (hk : q'.kind=q.kind) (hl : v'.isLogin=v.isLogin) (hi : v'.accountIdx=v.accountIdx)
    (ha : q'.Agrees v' b.roomId) : Agree b v' (q'::ₘcs) := by
  obtain ⟨hpending,hother⟩ := h.alone_room hq
  refine ⟨fun k hne => h.count_swap hk k hne,?_,?_,?_,h.guest,h.notYet,h.loggedIn,h.on⟩
  · intro p hp
    rcases Multiset.mem_cons.mp hp with rfl|hp
    · exact ha
    · obtain ⟨henter,hexit⟩ := hother p hp
      exact (h.agrees p (Multiset.mem_cons_of_mem hp)).of_login henter hexit hl hi _
  · intro hoff
    obtain ⟨h1,h2⟩ := h.login hoff
    exact ⟨h1.trans hl.symm,h2.trans hi.symm⟩
  · intro hr
    exact absurd hr hpending

/-- The client learns how its login ended. -/
theorem learnLogin {success : Bool} {idx : Nat} (h : Agree b v (.login success idx::ₘcs)) :
    Agree { b with accountIdx := if success then idx else 0, isLogin := success,
                   loginPending := false } v cs := by
  obtain ⟨hpending,hother⟩ := h.alone_login rfl
  obtain ⟨hl,ha⟩ := h.agrees _ (Multiset.mem_cons_self _ cs)
  have hidle : b.roomRequest=.none := by
    by_contra hr
    have hin := h.loggedIn hr
    rw [h.notYet hpending] at hin
    cases hin
  refine ⟨?_,fun p hp => h.agrees p (Multiset.mem_cons_of_mem hp),fun _ => ⟨hl.symm,ha.symm⟩,h.room,?_,
    nofun,fun hr => absurd hidle hr,fun hr => absurd hidle (hr.resolve_left nofun)⟩
  · intro k hk
    have hc := h.count k hk
    cases k with
    | nothing => exact absurd rfl hk
    | login => exact number_eq_zero.mpr hother
    | _ =>
      rw [number_cons,if_neg nofun] at hc
      exact hc
  · intro _ hout
    simp only at hout
    simp [hout]

/-- The client learns how its room request ended. -/
theorem learnRoom {roomId : Int} (h : Agree b v (q::ₘcs))
    (hq : q.kind=.enterRoom ∨ q.kind=.exitRoom) (hr : v.roomId=roomId) :
    Agree { b with roomId := roomId, roomRequest := .none } v cs := by
  obtain ⟨hpending,hother⟩ := h.alone_room hq
  have hin := h.loggedIn hpending
  have hdone : b.loginPending=false := by
    by_contra hl
    rw [h.notYet (Bool.not_eq_false _ ▸ hl)] at hin
    cases hin
  refine ⟨?_,?_,h.login,fun _ => hr.symm,h.guest,h.notYet,fun hn => absurd rfl hn,?_⟩
  · intro k hk
    have hc := h.count k hk
    cases k with
    | nothing => exact absurd rfl hk
    | login =>
      rw [number_cons,if_neg (by rcases hq with hq|hq <;> rw [hq] <;> nofun)] at hc
      exact hc
    | enterRoom => exact number_eq_zero.mpr fun p hp => (hother p hp).1
    | exitRoom => exact number_eq_zero.mpr fun p hp => (hother p hp).2
  · intro p hp
    obtain ⟨henter,hexit⟩ := hother p hp
    exact (h.agrees p (Multiset.mem_cons_of_mem hp)).of_login henter hexit rfl rfl _
  · rintro (hl|hn)
    · exact h.on (Or.inl hl)
    · exact absurd rfl hn

/-- The client begins a login. -/
theorem askLogin (h : Agree b v cs) (hon : b.isConnect=true) (hin : b.isLogin=false)
    (hidle : b.loginPending=false) :
    Agree { b with loginPending := true } v (.ask .login::ₘcs) := by
  obtain ⟨hl,ha⟩ := h.login hidle
  refine ⟨?_,?_,nofun,h.room,nofun,fun _ => hin,h.loggedIn,fun _ => hon⟩
  · intro k hk
    rw [number_cons,h.count k hk]
    cases k <;> simp [Belief.pending,Carrier.kind,hidle]
  · intro p hp
    rcases Multiset.mem_cons.mp hp with rfl|hp
    · exact ⟨hl.symm.trans hin,ha.symm.trans (h.guest hidle hin)⟩
    · exact h.agrees p hp

/-- The client begins to enter or to leave a room. -/
theorem askRoom (h : Agree b v cs) {kind : After} {request : RoomRequest}
    (hkind : kind=.enterRoom ∧ request=.enter ∨ kind=.exitRoom ∧ request=.exit)
    (hon : b.isConnect=true) (hin : b.isLogin=true) (hidle : b.roomRequest=.none) :
    Agree { b with roomRequest := request } v (.ask kind::ₘcs) := by
  have hroom := h.room hidle
  refine ⟨?_,?_,h.login,?_,h.guest,h.notYet,fun _ => hin,fun _ => hon⟩
  · intro k hk
    rw [number_cons,h.count k hk]
    rcases hkind with ⟨rfl,rfl⟩|⟨rfl,rfl⟩ <;> cases k <;> simp [Belief.pending,Carrier.kind,hidle]
  · intro p hp
    rcases Multiset.mem_cons.mp hp with rfl|hp
    · rcases hkind with ⟨rfl,-⟩|⟨rfl,-⟩ <;> exact hroom.symm
    · exact h.agrees p hp
  · rcases hkind with ⟨-,rfl⟩|⟨-,rfl⟩ <;> nofun

end Agree

end IocpServer.TestClient
