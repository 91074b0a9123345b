import Mathlib.Data.Nat.Digits.Defs
import IocpServer.Framework.Pool
import IocpServer.Game.Protocol
import IocpServer.NetWork.SendEvent

namespace IocpServer.TestClient

open NetWork (SendBuffer SendEvent streamOf)
open Game (Utf8 WString Codec Request Ack LoginRequest)

inductive RoomRequest where
  | none
  | enter
  | exit
deriving DecidableEq

/-- A registered `WSASend`: its bytes and how many of them the transport has taken. -/
structure Flight where
  bytes : List UInt8
  sent : Nat

/-- The fields of a `TestSession` that its send path uses, with the registered sends. `accepted` and
`wire` are histories, which no step reads: the buffers pushed into `_send_queue` and the transmitted
bytes. -/
structure Pipe (β : Type) where
  isConnect : Bool
  isDisconnect : Bool
  isSendRegister : Bool
  sendQueue : List β
  sendEvent : SendEvent
  flights : List Flight
  accepted : List β
  wire : List UInt8

/-- A `TestSession`, with the number of registered receives. `sends`, `receives`, `connects` and
`disconnects` are histories: how often `WSASend` and `WSARecv` were called, the connections made and
what the session has added to `GServerStats.disconnect`. -/
structure TestSession (β : Type) extends Pipe β where
  isLogin : Bool
  recvStarted : Bool
  accountIdx : Nat
  roomId : Int
  botIndex : UInt32
  loginPending : Bool
  roomRequest : RoomRequest
  receiving : Nat
  sends : Nat
  receives : Nat
  connects : Nat
  disconnects : Nat

variable {β : Type}

def TestSession.init (botIndex : UInt32) : TestSession β :=
  { isConnect := false, isDisconnect := false, isLogin := false, recvStarted := false,
    accountIdx := 0, roomId := -1, botIndex, loginPending := false, roomRequest := .none,
    isSendRegister := false, sendQueue := [], sendEvent := SendEvent.clear, flights := [],
    receiving := 0, accepted := [], wire := [], sends := 0, receives := 0, connects := 0,
    disconnects := 0 }

/-- The packets as they are sent, and the text conversion. -/
structure Env (β : Type) where
  codec : Codec
  sendBuffer : β → SendBuffer
  makeSendBuffer : Request → Option β
  makePong : Nat → Option β

/-- Which request rolls its state back if `send` returns `false`. -/
inductive After where
  | nothing
  | login
  | enterRoom
  | exitRoom
deriving DecidableEq

/-- A packet from the server. -/
inductive Reply where
  | ack (pkt : Ack)
  | ping (serverTick : Nat)
  | serverFull
  | other

/-- Where a thread stands in the methods of the session. A frame is one section under `_send_lock` or
one access to an atomic; `disconnect` remembers whether `register_send` or `process_send` calls it. -/
inductive Frame (β : Type) where
  | start
  | startRecv
  | registerRecv (fromStart : Bool)
  | processRecv (numBytes : Nat)
  | onRecv
  | onRecvNext
  | beginLogin (pkt : Request)
  | sendEnterRoom (roomId : UInt8)
  | sendExitRoom
  | logout
  | send (sendBuffer : Option β) (after : After)
  | registerSend (after : After)
  | processSend (numBytes : BitVec 32)
  | disconnect (sending : Bool) (after : After)
  | completeLogin (success : Bool) (accountIdx : Nat)
  | completeEnterRoom (success : Bool) (roomId : Int)
  | completeExitRoom (success : Bool)
  | setAccount (idx : Nat)
  | setIsLogin (isLogin : Bool)

/-- What the loop of `process_recv` finds next: too few bytes, a packet that is refused, or a packet
with a handler. -/
inductive Recv where
  | wait
  | refused
  | reply (pkt : Reply)

/-- What is decided outside the session: the outcome of a system call and the received data. -/
structure Choice where
  ok : Bool
  recv : Recv

def disconnect : Frame β := .disconnect false .nothing

/-- What a request does after `send` has returned `false`. -/
def rollback : After → List (Frame β)
  | .nothing => []
  | .login => [.completeLogin false 0]
  | .enterRoom => [.completeEnterRoom false (-1)]
  | .exitRoom => [.completeExitRoom false]

/-- `to_string` of an unsigned number. -/
def toDecimal (n : Nat) : Utf8 :=
  if n=0 then [48] else ((Nat.digits 10 n).map fun d => UInt8.ofNat (48+d)).reverse

/-- The request of `test_login`: `bot_` and `Bot_` with the index, password `1234`. -/
def testLogin (index : UInt32) (isCreateHasAccount : Bool) : Request :=
  .login true ⟨!isCreateHasAccount,[98,111,116,95]++toDecimal index.toNat,[49,50,51,52],
    [66,111,116,95]++toDecimal index.toNat⟩

/-- The handlers of `ClientPacketHandler`. -/
def handle (e : Env β) (botIndex : UInt32) : Reply → List (Frame β)
  | .ack (.login false idx _ result) => [.completeLogin (result=.success) idx]
  | .ack (.login true idx _ result) =>
    .completeLogin (result=.success) idx::
      if result=.success then []
      else if result=.createHasAccount then [.beginLogin (testLogin botIndex true)]
      else [disconnect]
  | .ack (.logout _) => [disconnect]
  | .ack (.enterRoom roomId result) => [.completeEnterRoom (result=.success) roomId]
  | .ack (.exitRoom result) => [.completeExitRoom (result=.success)]
  | .ping serverTick => [.send (e.makePong serverTick) .nothing]
  | .serverFull => [.setAccount 0,.setIsLogin false,disconnect]
  | .other => []

/-- `SendEvent::consume_sent_bytes` of the client, for an unsigned count. -/
def consumeSentBytes (ev : SendEvent) (numBytes : Nat) : Option SendEvent :=
  if numBytes=0 then none
  else if hn : numBytes ≤ ev.remaining then ev.consume numBytes hn
  else none

namespace TestSession

/-- The locked section of `send`. -/
def send (e : Env β) (c : TestSession β) (sendBuffer : Option β) (after : After) :
    TestSession β×List (Frame β) :=
  match sendBuffer with
  | none => (c,rollback after)
  | some b =>
    if (e.sendBuffer b).writeSize=0 then (c,rollback after)
    else if c.isConnect=false then (c,rollback after)
    else
      ({ c with sendQueue := c.sendQueue++[b], accepted := c.accepted++[b], isSendRegister := true },
        if c.isSendRegister then [] else [.registerSend after])

/-- The queue goes into the event unless a partial send is not finished. -/
def drain (e : Env β) (c : TestSession β) : TestSession β :=
  if c.sendEvent.hasPendingData then c
  else { c with sendEvent := c.sendEvent.push (c.sendQueue.map e.sendBuffer), sendQueue := [] }

theorem drain_eq (e : Env β) (c : TestSession β) :
    ∃ queue ev, c.drain e={ c with sendQueue := queue, sendEvent := ev } := by
  unfold drain
  split
  · exact ⟨c.sendQueue,c.sendEvent,rfl⟩
  · exact ⟨[],_,rfl⟩

def registerSend (e : Env β) (c : TestSession β) (ok : Bool) (after : After) :
    TestSession β×List (Frame β) :=
  if c.isConnect=false then
    ({ c with sendEvent := SendEvent.clear, isSendRegister := false },rollback after)
  else
    let c := c.drain e
    if c.sendEvent.buildWsabufs=[] then
      ({ c with sendEvent := SendEvent.clear, isSendRegister := false },[])
    else if ok then
      ({ c with flights := c.flights++[⟨c.sendEvent.rest,0⟩], sends := c.sends+1 },[])
    else ({ c with sendEvent := SendEvent.clear, sends := c.sends+1 },[.disconnect true after])

def processSend (c : TestSession β) (numBytes : BitVec 32) : TestSession β×List (Frame β) :=
  if c.isConnect=false then ({ c with sendEvent := SendEvent.clear, isSendRegister := false },[])
  else
    match consumeSentBytes c.sendEvent numBytes.toNat with
    | none => ({ c with sendEvent := SendEvent.clear },[.disconnect true .nothing])
    | some ev =>
      if ev.hasPendingData then ({ c with sendEvent := ev },[.registerSend .nothing])
      else if c.sendQueue.isEmpty then
        ({ c with sendEvent := SendEvent.clear, isSendRegister := false },[])
      else ({ c with sendEvent := SendEvent.clear },[.registerSend .nothing])

def disconnect (c : TestSession β) : TestSession β :=
  if c.isConnect=false then c
  else if c.isDisconnect then { c with isConnect := false }
  else
    { c with isConnect := false, isDisconnect := true, isLogin := false, accountIdx := 0,
             roomId := -1, loginPending := false, roomRequest := .none, isSendRegister := false,
             sendQueue := [], disconnects := c.disconnects+1 }

def beginLogin (c : TestSession β) : Option (TestSession β) :=
  if c.isConnect=false ∨ c.isLogin ∨ c.loginPending then none
  else some { c with loginPending := true }

def completeLogin (c : TestSession β) (success : Bool) (accountIdx : Nat) : TestSession β :=
  if c.isConnect then
    { c with accountIdx := if success then accountIdx else 0, isLogin := success,
             loginPending := false }
  else { c with loginPending := false }

def completeEnterRoom (c : TestSession β) (success : Bool) (roomId : Int) : TestSession β :=
  if c.roomRequest≠.enter then c
  else { c with roomId := if c.isConnect ∧ success then roomId else c.roomId, roomRequest := .none }

def completeExitRoom (c : TestSession β) (success : Bool) : TestSession β :=
  if c.roomRequest≠.exit then c
  else { c with roomId := if c.isConnect ∧ success then -1 else c.roomId, roomRequest := .none }

/-- `connect`; `ok` says whether the socket is created and connected. -/
def connect (c : TestSession β) (ok : Bool) : TestSession β :=
  if c.isConnect ∨ c.isDisconnect then c
  else if ok then { c with isConnect := true, connects := c.connects+1 }
  else { c with isConnect := false }

end TestSession

/-- One step of a thread in a method of the session. -/
def exec (e : Env β) (c : TestSession β) (o : Choice) :
    Frame β → Option (TestSession β×List (Frame β))
  | .start => some (c,if c.isConnect then [.startRecv] else [disconnect])
  | .startRecv =>
    if c.recvStarted then some (c,[]) else some ({ c with recvStarted := true },[.registerRecv true])
  | .registerRecv fromStart =>
    if c.isConnect=false then some (c,if fromStart then [disconnect] else [])
    else if o.ok then
      some ({ c with receiving := c.receiving+1, receives := c.receives+1 },[])
    else
      some ({ c with receives := c.receives+1 },disconnect::if fromStart then [disconnect] else [])
  | .processRecv numBytes =>
    if c.isConnect=false then some (c,[])
    else if numBytes=0 then some (c,[disconnect])
    else if o.ok then some (c,[.onRecv])
    else some (c,[disconnect])
  | .onRecv =>
    match o.recv with
    | .wait => some (c,[.registerRecv false])
    | .refused => some (c,[disconnect])
    | .reply pkt => some (c,handle e c.botIndex pkt++[.onRecvNext])
  | .onRecvNext => some (c,[if c.isConnect then .onRecv else .registerRecv false])
  | .beginLogin pkt =>
    match c.beginLogin with
    | none => some (c,[])
    | some c => some (c,[.send (e.makeSendBuffer pkt) .login])
  | .sendEnterRoom roomId =>
    if c.isConnect=false ∨ c.isLogin=false ∨ 0 ≤ c.roomId ∨ c.roomRequest≠.none then some (c,[])
    else
      some ({ c with roomRequest := .enter },
        [.send (e.makeSendBuffer (.enterRoom roomId.toNat)) .enterRoom])
  | .sendExitRoom =>
    if c.isConnect=false ∨ c.isLogin=false ∨ c.roomId<0 ∨ c.roomRequest≠.none then some (c,[])
    else some ({ c with roomRequest := .exit },[.send (e.makeSendBuffer .exitRoom) .exitRoom])
  | .logout => some (c,[.send (e.makeSendBuffer (.logout c.accountIdx)) .nothing])
  | .send b after => some (c.send e b after)
  | .registerSend after => some (c.registerSend e o.ok after)
  | .processSend numBytes => some (c.processSend numBytes)
  | .disconnect _ after => some (c.disconnect,rollback after)
  | .completeLogin success accountIdx => some (c.completeLogin success accountIdx,[])
  | .completeEnterRoom success roomId => some (c.completeEnterRoom success roomId,[])
  | .completeExitRoom success => some (c.completeExitRoom success,[])
  | .setAccount idx => some ({ c with accountIdx := idx },[])
  | .setIsLogin isLogin => some ({ c with isLogin := isLogin },[])

/-- Everything the next step of a thread can do. -/
inductive Move (e : Env β) (c : TestSession β) (o : Choice) :
    Frame β → TestSession β → List (Frame β) → Prop
  | start : Move e c o .start c [.startRecv]
  | startOff : Move e c o .start c [TestClient.disconnect]
  | started : Move e c o .startRecv c []
  | startRecv : Move e c o .startRecv { c with recvStarted := true } [.registerRecv true]
  | recvOff (fromStart : Bool) (hoff : c.isConnect=false) :
      Move e c o (.registerRecv fromStart) c (if fromStart then [TestClient.disconnect] else [])
  | registerRecv (fromStart : Bool) (hon : c.isConnect=true) (hok : o.ok=true) :
      Move e c o (.registerRecv fromStart)
        { c with receiving := c.receiving+1, receives := c.receives+1 } []
  | recvFailed (fromStart : Bool) (hon : c.isConnect=true) (hok : o.ok=false) :
      Move e c o (.registerRecv fromStart) { c with receives := c.receives+1 }
        (TestClient.disconnect::if fromStart then [TestClient.disconnect] else [])
  | receivedOff (numBytes : Nat) : Move e c o (.processRecv numBytes) c []
  | unreadable (numBytes : Nat) : Move e c o (.processRecv numBytes) c [TestClient.disconnect]
  | received (numBytes : Nat) : Move e c o (.processRecv numBytes) c [.onRecv]
  | wait (hr : o.recv=.wait) : Move e c o .onRecv c [.registerRecv false]
  | refused (hr : o.recv=.refused) : Move e c o .onRecv c [TestClient.disconnect]
  | reply (pkt : Reply) (hr : o.recv=.reply pkt) :
      Move e c o .onRecv c (handle e c.botIndex pkt++[.onRecvNext])
  | recvNext : Move e c o .onRecvNext c [.onRecv]
  | recvEnd : Move e c o .onRecvNext c [.registerRecv false]
  | noLogin (pkt : Request) : Move e c o (.beginLogin pkt) c []
  | beginLogin (pkt : Request) (hon : c.isConnect=true) (hout : c.isLogin=false)
      (hfree : c.loginPending=false) :
      Move e c o (.beginLogin pkt) { c with loginPending := true }
        [.send (e.makeSendBuffer pkt) .login]
  | noEnterRoom (roomId : UInt8) : Move e c o (.sendEnterRoom roomId) c []
  | sendEnterRoom (roomId : UInt8) (hon : c.isConnect=true) (hin : c.isLogin=true)
      (hfree : c.roomRequest=.none) :
      Move e c o (.sendEnterRoom roomId) { c with roomRequest := .enter }
        [.send (e.makeSendBuffer (.enterRoom roomId.toNat)) .enterRoom]
  | noExitRoom : Move e c o .sendExitRoom c []
  | sendExitRoom (hon : c.isConnect=true) (hin : c.isLogin=true) (hfree : c.roomRequest=.none) :
      Move e c o .sendExitRoom { c with roomRequest := .exit }
        [.send (e.makeSendBuffer .exitRoom) .exitRoom]
  | logout : Move e c o .logout c [.send (e.makeSendBuffer (.logout c.accountIdx)) .nothing]
  | unsent (b : Option β) (after : After) : Move e c o (.send b after) c (rollback after)
  | queued (b : β) (after : After) (hsize : (e.sendBuffer b).writeSize≠0) (hon : c.isConnect=true) :
      Move e c o (.send (some b) after)
        { c with sendQueue := c.sendQueue++[b], accepted := c.accepted++[b],
                 isSendRegister := true } []
  | send (b : β) (after : After) (hsize : (e.sendBuffer b).writeSize≠0) (hon : c.isConnect=true) :
      Move e c o (.send (some b) after)
        { c with sendQueue := c.sendQueue++[b], accepted := c.accepted++[b],
                 isSendRegister := true } [.registerSend after]
  | sendOff (after : After) (hoff : c.isConnect=false) :
      Move e c o (.registerSend after)
        { c with sendEvent := SendEvent.clear, isSendRegister := false } (rollback after)
  | nothing (after : After) (hon : c.isConnect=true)
      (hempty : (c.drain e).sendEvent.buildWsabufs=[]) :
      Move e c o (.registerSend after)
        { c.drain e with sendEvent := SendEvent.clear, isSendRegister := false } []
  | registerSend (after : After) (hon : c.isConnect=true)
      (hbufs : (c.drain e).sendEvent.buildWsabufs≠[]) (hok : o.ok=true) :
      Move e c o (.registerSend after)
        { c.drain e with flights := (c.drain e).flights++[⟨(c.drain e).sendEvent.rest,0⟩],
                         sends := (c.drain e).sends+1 } []
  | sendFailed (after : After) (hon : c.isConnect=true)
      (hbufs : (c.drain e).sendEvent.buildWsabufs≠[]) (hok : o.ok=false) :
      Move e c o (.registerSend after)
        { c.drain e with sendEvent := SendEvent.clear, sends := (c.drain e).sends+1 }
        [.disconnect true after]
  | sentOff (numBytes : BitVec 32) (hoff : c.isConnect=false) :
      Move e c o (.processSend numBytes)
        { c with sendEvent := SendEvent.clear, isSendRegister := false } []
  | refuse (numBytes : BitVec 32) :
      Move e c o (.processSend numBytes) { c with sendEvent := SendEvent.clear }
        [.disconnect true .nothing]
  | remainder (numBytes : BitVec 32) (ev : SendEvent) :
      Move e c o (.processSend numBytes) { c with sendEvent := ev } [.registerSend .nothing]
  | emptied (numBytes : BitVec 32) :
      Move e c o (.processSend numBytes)
        { c with sendEvent := SendEvent.clear, isSendRegister := false } []
  | requeue (numBytes : BitVec 32) :
      Move e c o (.processSend numBytes) { c with sendEvent := SendEvent.clear }
        [.registerSend .nothing]
  | disconnect (sending : Bool) (after : After) :
      Move e c o (.disconnect sending after) c.disconnect (rollback after)
  | completeLogin (success : Bool) (accountIdx : Nat) :
      Move e c o (.completeLogin success accountIdx) (c.completeLogin success accountIdx) []
  | completeEnterRoom (success : Bool) (roomId : Int) :
      Move e c o (.completeEnterRoom success roomId) (c.completeEnterRoom success roomId) []
  | completeExitRoom (success : Bool) :
      Move e c o (.completeExitRoom success) (c.completeExitRoom success) []
  | setAccount (idx : Nat) : Move e c o (.setAccount idx) { c with accountIdx := idx } []
  | setIsLogin (isLogin : Bool) :
      Move e c o (.setIsLogin isLogin) { c with isLogin := isLogin } []

section

variable {e : Env β} {c : TestSession β} {o : Choice}

theorem send_move (b : Option β) (after : After) :
    Move e c o (.send b after) (c.send e b after).1 (c.send e b after).2 := by
  unfold TestSession.send
  split
  · exact .unsent none after
  split
  · exact .unsent _ after
  split
  · exact .unsent _ after
  rename_i hsize hoff
  have hon : c.isConnect=true := by simpa using hoff
  cases c.isSendRegister with
  | true => exact .queued _ after hsize hon
  | false => exact .send _ after hsize hon

theorem registerSend_move (after : After) :
    Move e c o (.registerSend after) (c.registerSend e o.ok after).1
      (c.registerSend e o.ok after).2 := by
  simp only [TestSession.registerSend]
  split
  · exact .sendOff after ‹_›
  rename_i hoff
  have hon : c.isConnect=true := by simpa using hoff
  split
  · exact .nothing after hon ‹_›
  rename_i hbufs
  split
  · exact .registerSend after hon hbufs ‹_›
  · exact .sendFailed after hon hbufs (Bool.eq_false_iff.mpr ‹_›)

theorem processSend_move (numBytes : BitVec 32) :
    Move e c o (.processSend numBytes) (c.processSend numBytes).1 (c.processSend numBytes).2 := by
  unfold TestSession.processSend
  split
  · exact .sentOff numBytes ‹_›
  split
  · exact .refuse numBytes
  split
  · exact .remainder numBytes _
  split
  · exact .emptied numBytes
  · exact .requeue numBytes

theorem exec_move {c' : TestSession β} {f : Frame β} {fs : List (Frame β)}
    (h : exec e c o f=some (c',fs)) : Move e c o f c' fs := by
  cases f with
  | start =>
    cases h
    split
    · exact .start
    · exact .startOff
  | startRecv =>
    simp only [exec] at h
    split at h <;> cases h
    · exact .started
    · exact .startRecv
  | registerRecv fromStart =>
    simp only [exec] at h
    split at h
    · cases h
      exact .recvOff fromStart ‹_›
    rename_i hoff
    have hon : c.isConnect=true := by simpa using hoff
    split at h <;> cases h
    · exact .registerRecv fromStart hon ‹_›
    · exact .recvFailed fromStart hon (Bool.eq_false_iff.mpr ‹_›)
  | processRecv numBytes =>
    simp only [exec] at h
    split at h
    · cases h
      exact .receivedOff numBytes
    split at h
    · cases h
      exact .unreadable numBytes
    split at h <;> cases h
    · exact .received numBytes
    · exact .unreadable numBytes
  | onRecv =>
    simp only [exec] at h
    split at h <;> cases h
    · exact .wait ‹_›
    · exact .refused ‹_›
    · exact .reply _ ‹_›
  | onRecvNext =>
    cases h
    split
    · exact .recvNext
    · exact .recvEnd
  | beginLogin pkt =>
    simp only [exec,TestSession.beginLogin] at h
    split at h
    · cases h
      exact .noLogin pkt
    rename_i hbegin
    split at hbegin <;> cases hbegin
    cases h
    rename_i hguard
    simp only [not_or,Bool.not_eq_true,Bool.not_eq_false] at hguard
    exact .beginLogin pkt hguard.1 hguard.2.1 hguard.2.2
  | sendEnterRoom roomId =>
    simp only [exec] at h
    split at h <;> cases h
    · exact .noEnterRoom roomId
    rename_i hguard
    simp only [not_or,Bool.not_eq_false,not_not] at hguard
    exact .sendEnterRoom roomId hguard.1 hguard.2.1 hguard.2.2.2
  | sendExitRoom =>
    simp only [exec] at h
    split at h <;> cases h
    · exact .noExitRoom
    rename_i hguard
    simp only [not_or,Bool.not_eq_false,not_not] at hguard
    exact .sendExitRoom hguard.1 hguard.2.1 hguard.2.2.2
  | logout =>
    cases h
    exact .logout
  | send b after =>
    have hmove := send_move (e:=e) (c:=c) (o:=o) b after
    rw [Option.some.inj h] at hmove
    exact hmove
  | registerSend after =>
    have hmove := registerSend_move (e:=e) (c:=c) (o:=o) after
    rw [Option.some.inj h] at hmove
    exact hmove
  | processSend numBytes =>
    have hmove := processSend_move (e:=e) (c:=c) (o:=o) numBytes
    rw [Option.some.inj h] at hmove
    exact hmove
  | disconnect sending after =>
    cases h
    exact .disconnect sending after
  | completeLogin success accountIdx =>
    cases h
    exact .completeLogin success accountIdx
  | completeEnterRoom success roomId =>
    cases h
    exact .completeEnterRoom success roomId
  | completeExitRoom success =>
    cases h
    exact .completeExitRoom success
  | setAccount idx =>
    cases h
    exact .setAccount idx
  | setIsLogin isLogin =>
    cases h
    exact .setIsLogin isLogin

end

/-- The public operations, the completions that a worker takes from the port, and the transport,
which takes bytes of a registered send. -/
inductive Entry (β : Type) where
  | connect (ok : Bool)
  | start
  | login (isCreate : Bool) (id pw : Utf8) (name : WString)
  | testLogin (index : UInt32) (isCreateHasAccount : Bool)
  | logout
  | sendEnterRoom (roomId : UInt8)
  | sendExitRoom
  | send (sendBuffer : Option β)
  | disconnect
  | recvCompleted (numBytes : Nat)
  | sendCompleted (index : Nat) (numBytes : BitVec 32)
  | transmit (index n : Nat)

/-- The check of `login` before `begin_login`. -/
def loginFrames (e : Env β) (isCreate : Bool) (id pw : Utf8) (name : WString) : List (Frame β) :=
  let userName := e.codec.wStringToUtf8 name
  if id=[] ∨ 32 < id.length ∨ pw=[] ∨ 32<pw.length ∨
      (isCreate ∧ (userName=[] ∨ 32<userName.length)) then []
  else [.beginLogin (.login false ⟨isCreate,id,pw,userName⟩)]

/-- The frames an operation starts with. A completed send reports the bytes that the transport has
taken; a failed one reports none, or a count that does not fit. -/
def enter (e : Env β) (c : TestSession β) : Entry β → Option (TestSession β×List (Frame β))
  | .connect ok => some (c.connect ok,[])
  | .start => some (c,[.start])
  | .login isCreate id pw name => some (c,loginFrames e isCreate id pw name)
  | .testLogin index isCreateHasAccount => some (c,[.beginLogin (testLogin index isCreateHasAccount)])
  | .logout => some (c,[.logout])
  | .sendEnterRoom roomId => some (c,[.sendEnterRoom roomId])
  | .sendExitRoom => some (c,[.sendExitRoom])
  | .send b => some (c,[.send b .nothing])
  | .disconnect => some (c,[disconnect])
  | .recvCompleted numBytes =>
    if c.receiving=0 then none
    else some ({ c with receiving := c.receiving-1 },[.processRecv numBytes])
  | .sendCompleted index numBytes =>
    match c.flights[index]? with
    | none => none
    | some f =>
      if numBytes.toNat=f.sent ∨ numBytes.toNat=0 ∨ f.bytes.length<numBytes.toNat then
        some ({ c with flights := c.flights.eraseIdx index },[.processSend numBytes])
      else none
  | .transmit index n =>
    match c.flights[index]? with
    | none => none
    | some f =>
      if f.sent+n ≤ f.bytes.length then
        some ({ c with flights := c.flights.set index ⟨f.bytes,f.sent+n⟩,
                       wire := c.wire++(f.bytes.drop f.sent).take n },[])
      else none

/-- A session with the threads that use it. -/
def object (e : Env β) : Pool.Object (TestSession β) (Frame β) Choice (Entry β) :=
  ⟨exec e,enter e⟩

abbrev State (T β : Type) := Pool.State T (TestSession β) (Frame β)

abbrev step {T : Type} [DecidableEq T] (e : Env β) :
    State T β → Pool.Action T Choice (Entry β) → Option (State T β) :=
  Pool.step (object e)

end IocpServer.TestClient
