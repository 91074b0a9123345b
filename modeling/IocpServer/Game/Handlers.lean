import IocpServer.Framework.Machine
import IocpServer.Game.Login
import IocpServer.Game.Room
import IocpServer.NetWork.SessionManager

namespace IocpServer.Game

open NetWork (SessionManager)

/-- The steps of the packet handlers and of the cleanup job, one for each call of a locked
operation, each write of a session field and each effect outside the game state. -/
inductive Op where
  | loginCall (bot : Bool) (pkt : LoginRequest)
  | setIsLogin (isLogin : Bool)
  | setAccountIdx (idx : Nat)
  | setName (name : WString)
  | setRoomId (roomId : Int)
  | addAccountSession (idx : Nat)
  | addNameSession (name : WString)
  | countLogin
  | ackLogin (bot : Bool) (idx : Nat) (userName : WString) (result : LoginError)
  | exitRoom (roomId : Int) (accountIdx : Nat)
  | logoutCall
  | releaseLogoutSession
  | releaseNameSession
  | enterCall (roomId : Int)
  | exitCall (roomId : Int)
  | ack (pkt : Ack)
  | disconnect
  | errorLog (text : String)
  | countDisconnect
  | exchangeIsLogin (accountId : Nat)
  | logout (accountId : Nat)
  | eraseSession
  | setCleanupDone

/-- The fields of a `GameSession` that handlers and the cleanup job use. `obtained` and `loggedIn`
are histories, which no step reads: the account that a login call of this session got and that it
has not logged out, and the account and name of its last successful login handler until its logout
handler or its cleanup starts. -/
structure Fields where
  wasConnected : Bool
  cleanupDone : Bool
  isLogin : Bool
  accountIdx : Nat
  userName : WString
  enterRoomId : Int
  obtained : Option Nat
  loggedIn : Option (Nat×WString)

/-- A session; `todo` is what its running handler or cleanup job still has to do. -/
structure Session extends Fields where
  todo : List Op

def Session.init : Session :=
  { wasConnected := false, cleanupDone := false, isLogin := false, accountIdx := 0, userName := [],
    enterRoomId := -1, todo := [], obtained := none, loggedIn := none }

/-- The error every handler that returns `false` ends with. -/
def handlerFailed : Op := .errorLog "Packet handler failed"

/-- `Handle_REQ_LOGIN` and `Handle_REQ_BOT_LOGIN`, whose bodies differ in the reply only. -/
def handleReqLogin (bot : Bool) (pkt : LoginRequest) (s : Fields) : List Op :=
  if pkt.id=[] ∨ 32<pkt.id.length then [.errorLog "invalid login id",handlerFailed]
  else if pkt.pw=[] ∨ 32<pkt.pw.length then [.errorLog "invalid login pw",handlerFailed]
  else if pkt.isCreate ∧ (pkt.name=[] ∨ 32<pkt.name.length) then
    [.errorLog "invalid login name",handlerFailed]
  else if s.isLogin then [.errorLog "already login session",.disconnect,handlerFailed]
  else [.loginCall bot pkt]

/-- What a login handler does after its call into `Login` has succeeded. -/
def loginSuccess (bot : Bool) (idx : Nat) (userName : WString) : List Op :=
  [.setIsLogin true,.setAccountIdx idx,.setName userName,.addAccountSession idx,
   .addNameSession userName,.countLogin,.ackLogin bot idx userName .success]

/-- Every handler but the two login handlers first refuses a session that is not logged in. -/
def notLogin : List Op := [.errorLog "not login session",.disconnect,handlerFailed]

def handleReqLogout (s : Fields) : List Op :=
  if s.isLogin=false then notLogin
  else if 0 ≤ s.enterRoomId then [.exitRoom s.enterRoomId s.accountIdx,.setRoomId (-1),.logoutCall]
  else [.logoutCall]

def logoutSuccess : List Op :=
  [.releaseLogoutSession,.releaseNameSession,.setAccountIdx 0,.setName [],.setIsLogin false,
   .ack (.logout .success)]

def logoutFaile : List Op :=
  [.errorLog "Handle_REQ_LOGIN : account 정보가 없음",.ack (.logout .faile)]

def handleReqEnterRoom (roomId : Int) (s : Fields) : List Op :=
  if s.isLogin=false then notLogin
  else if 0 ≤ s.enterRoomId then [.ack (.enterRoom 0 .fail)]
  else [.enterCall roomId]

def handleReqExitRoom (s : Fields) : List Op :=
  if s.isLogin=false then notLogin
  else if s.enterRoomId<0 then [.ack (.exitRoom .fail)]
  else [.exitCall s.enterRoomId]

def handle (s : Fields) : Request → List Op
  | .login bot pkt => handleReqLogin bot pkt s
  | .logout _ => handleReqLogout s
  | .enterRoom roomId => handleReqEnterRoom roomId s
  | .exitRoom => handleReqExitRoom s

/-- `GameSession::on_disconnect`. -/
def onDisconnect (s : Fields) : List Op :=
  if 0 ≤ s.enterRoomId then
    [.countDisconnect,.exitRoom s.enterRoomId s.accountIdx,.setRoomId (-1),
     .exchangeIsLogin s.accountIdx]
  else [.countDisconnect,.exchangeIsLogin s.accountIdx]

/-- What the cleanup job does after `on_disconnect`: `SessionManager::release_session` and the
reset of the session. -/
def releaseSession : List Op :=
  [.releaseLogoutSession,.releaseNameSession,.eraseSession,.setAccountIdx 0,.setName [],
   .setRoomId (-1),.setCleanupDone]

/-- The cleanup job that `process_disconnect` queues. -/
def cleanup (s : Fields) : List Op :=
  if s.wasConnected then onDisconnect s++releaseSession else releaseSession

/-- The counters of `GServerStats` that this model uses. `arrived` and `departed` are histories:
the sessions that have raised `connect` and `disconnect`. -/
structure Stats (S : Type) where
  connect : Nat
  disconnect : Nat
  login : Nat
  arrived : Finset S
  departed : Finset S

structure State (S : Type) where
  login : Login
  manager : SessionManager S
  rooms : RoomManager S
  stats : Stats S
  sessions : S → Session

/-- What a step does outside the game state. -/
inductive Out where
  | send (pkt : Ack)
  | disconnect
  | errorLog (text : String)

variable {S : Type} [DecidableEq S]

namespace State

def init (maxSessionCount : Int) : State S :=
  { login := Login.init, manager := SessionManager.init maxSessionCount,
    rooms := RoomManager.createRoom, stats := ⟨0,0,0,∅,∅⟩, sessions := fun _ => Session.init }

def setSession (s : State S) (x : S) (ses : Session) : State S :=
  { s with sessions := Function.update s.sessions x ses }

/-- `_was_connected.store(true)`. -/
def connect (s : State S) (x : S) : State S :=
  s.setSession x { s.sessions x with wasConnected := true }

def countConnect (s : State S) (x : S) : State S :=
  { s with stats := { s.stats with connect := s.stats.connect+1, arrived := insert x s.stats.arrived } }

/-- Session `x` enters the handler of `pkt`. -/
def startHandler (s : State S) (x : S) (pkt : Request) : State S :=
  let ses := s.sessions x
  s.setSession x
    { ses with
      todo := handle ses.toFields pkt
      loggedIn := match pkt with
        | .logout _ => none
        | _ => ses.loggedIn }

/-- Session `x` enters its cleanup job. -/
def startCleanup (s : State S) (x : S) : State S :=
  let ses := s.sessions x
  s.setSession x { ses with todo := cleanup ses.toFields, loggedIn := none }

end State

/-- The call into `Login` of a login handler: result, name, account id and the new state. -/
def callLogin (c : Codec) (l : Login) (pkt : LoginRequest) : LoginError×WString×Nat×Login :=
  if pkt.isCreate then
    match l.createAccount pkt.id pkt.pw (c.utf8ToWString pkt.name) 0 with
    | (result,idx,l') => (result,c.utf8ToWString pkt.name,idx,l')
  else l.login pkt.id pkt.pw [] 0

/-- One step of session `x`: the new state, what the step adds to `todo` and its outside effect. -/
def exec (c : Codec) (s : State S) (x : S) (op : Op) : State S×List Op×Option Out :=
  let ses := s.sessions x
  match op with
  | .loginCall bot pkt =>
    let r := callLogin c s.login pkt
    if r.1=.success then
      ({ s with login := r.2.2.2 }.setSession x { ses with obtained := some r.2.2.1 },
        loginSuccess bot r.2.2.1 r.2.1,none)
    else ({ s with login := r.2.2.2 },[.ackLogin bot r.2.2.1 r.2.1 r.1],none)
  | .setIsLogin b => (s.setSession x { ses with isLogin := b },[],none)
  | .setAccountIdx idx => (s.setSession x { ses with accountIdx := idx },[],none)
  | .setName name => (s.setSession x { ses with userName := name },[],none)
  | .setRoomId roomId => (s.setSession x { ses with enterRoomId := roomId },[],none)
  | .addAccountSession idx => ({ s with manager := s.manager.addAccountSession idx x },[],none)
  | .addNameSession name => ({ s with manager := s.manager.addNameSession name x },[],none)
  | .countLogin => ({ s with stats := { s.stats with login := s.stats.login+1 } },[],none)
  | .ackLogin bot idx userName result =>
    let out := some (.send (.login bot idx (c.wStringToUtf8 userName) result))
    if result=.success then (s.setSession x { ses with loggedIn := some (idx,userName) },[],out)
    else (s,[],out)
  | .exitRoom roomId accountIdx =>
    ({ s with rooms := (s.rooms.exitRoom roomId accountIdx).getD s.rooms },[],none)
  | .logoutCall =>
    let r := s.login.logout ses.accountIdx
    if r.1 then
      ({ s with login := r.2 }.setSession x { ses with obtained := none },logoutSuccess,none)
    else ({ s with login := r.2 },logoutFaile,none)
  | .releaseLogoutSession =>
    ({ s with manager := s.manager.releaseLogoutSession ses.accountIdx x },[],none)
  | .releaseNameSession =>
    ({ s with manager := s.manager.releaseNameSession ses.userName x },[],none)
  | .enterCall roomId =>
    match s.rooms.enterRoom roomId ses.accountIdx x with
    | some rooms =>
      ({ s with rooms := rooms },[.setRoomId roomId,.ack (.enterRoom roomId .success)],none)
    | none => (s,[.ack (.enterRoom 0 .fail)],none)
  | .exitCall roomId =>
    match s.rooms.exitRoom roomId ses.accountIdx with
    | some rooms => ({ s with rooms := rooms },[.setRoomId (-1),.ack (.exitRoom .success)],none)
    | none => (s,[.ack (.exitRoom .fail)],none)
  | .ack pkt => (s,[],some (.send pkt))
  | .disconnect => (s,[],some .disconnect)
  | .errorLog text => (s,[],some (.errorLog text))
  | .countDisconnect =>
    ({ s with stats := { s.stats with disconnect := s.stats.disconnect+1,
                                      departed := insert x s.stats.departed } },[],none)
  | .exchangeIsLogin accountId =>
    (s.setSession x { ses with isLogin := false },if ses.isLogin then [.logout accountId] else [],
      none)
  | .logout accountId =>
    ({ s with login := (s.login.logout accountId).2 }.setSession x
      { ses with obtained := if ses.obtained=some accountId then none else ses.obtained },[],none)
  | .eraseSession => ({ s with manager := s.manager.eraseSession x },[],none)
  | .setCleanupDone => (s.setSession x { ses with cleanupDone := true },[],none)

/-- `addSession` is the locked part of the admission; `handle` and `cleanup` start a packet handler
or the cleanup job of an idle session. -/
inductive Action (S : Type) where
  | connect (x : S)
  | countConnect (x : S)
  | addSession (x : S)
  | handle (x : S) (pkt : Request)
  | cleanup (x : S)
  | advance (x : S)

/-- Session `x` executes the first operation of its `todo`. -/
def advance (c : Codec) (s : State S) (x : S) (op : Op) (rest : List Op) : State S×Option Out :=
  let r := exec c s x op
  (r.1.setSession x { r.1.sessions x with todo := r.2.1++rest },r.2.2)

def step (c : Codec) (s : State S) : Action S → Option (State S)
  | .connect x => some (s.connect x)
  | .countConnect x => some (s.countConnect x)
  | .addSession x => (s.manager.addSession x).map fun r => { s with manager := r.2 }
  | .handle x pkt =>
    if (s.sessions x).wasConnected ∧ (s.sessions x).todo=[] then some (s.startHandler x pkt) else none
  | .cleanup x => if (s.sessions x).todo=[] then some (s.startCleanup x) else none
  | .advance x =>
    match (s.sessions x).todo with
    | [] => none
    | op::rest => some (advance c s x op rest).1

end IocpServer.Game
