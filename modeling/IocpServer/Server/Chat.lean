import IocpServer.Server.Audience

namespace IocpServer.Server.Chat

open NetWork (SendBuffer)
open NetWork.Lifecycle (Frame Entry)
open Game (Utf8)

/-- `CHAT_STATE`; the wire can carry values that the enumeration does not have. -/
inductive ChatState where
  | all
  | normal
  | whisper
  | unknown (value : Int)

inductive ChatError where
  | none
  | fail
  | notTarget
  | success
deriving DecidableEq

structure ReqChat where
  message : Utf8
  chatState : ChatState
  roomId : Int
  targetName : Utf8

structure AckChat where
  result : ChatError
  targetCount : Nat
deriving DecidableEq

/-- The server with its chat packets `ACK_SEND_CHAT` and `ACK_CHAT` as they are sent. -/
structure Env extends Server.Env where
  makeSendChat : Utf8 → Utf8 → SendBuffer
  makeAckChat : AckChat → SendBuffer

/-- Where a thread stands in `Handle_REQ_CHAT`, at the points where it takes the lock of the session
manager, touches an atomic or calls a session. At `normalVisit` and `normalRoom` it holds that lock
and reads the atomics of one session after the other. `replying` and `replied` lie behind the call of
`send` for the reply: the queue has not or has taken it; `leave` lies behind the disconnect of a
session that is not logged in. -/
inductive At (S : Type) where
  | start
  | normalChat (sendBuffer : SendBuffer)
  | normalVisit (sessions targets : List S) (sendBuffer : SendBuffer)
  | normalRoom (session : S) (sessions targets : List S) (sendBuffer : SendBuffer)
  | normalSend (targets : List S) (sendBuffer : SendBuffer) (count : Nat)
  | allChat (sendBuffer : SendBuffer)
  | allVisit (sessions : List S) (sendBuffer : SendBuffer) (count : Nat)
  | allRoom (session : S) (sessions : List S) (sendBuffer : SendBuffer) (count : Nat)
  | findTarget (sendBuffer : SendBuffer)
  | whisperChat (sendBuffer : SendBuffer)
  | whisperSend (session : S) (sendBuffer : SendBuffer)
  | broadcastPacket (targetCount : Nat)
  | broadcastTarget (targetCount : Nat)
  | recvChat (targetCount : Nat)
  | reply (ack : AckChat)
  | replying (ack : AckChat)
  | replied
  | leave

/-- The history of a request: how many queues have taken its message, whether a whisper has looked
for its target and found its name, and the target it was sent to. -/
structure Record (S : Type) where
  enqueued : Nat
  searched : Bool
  found : Bool
  target : Option S

/-- A chat handler that is running for a session. -/
structure Call (S : Type) where
  session : S
  pkt : ReqChat
  pc : At S
  record : Record S

/-- An `ACK_CHAT` that was queued, with the request and the history behind it. -/
structure Reply (S : Type) where
  session : S
  pkt : ReqChat
  ack : AckChat
  record : Record S

/-- The counters of `GServerStats` that chats change; `stats_fit` shows that 64 bits are enough. -/
structure Stats where
  broadcastPacket : Nat
  broadcastTarget : Nat
  recvChat : Nat

/-- The server with the chat handlers its threads are in. `enqueued` and `replies` are histories;
`acks` are the replies no client has handled, and `expectedChatRecv` is the counter of the clients. -/
structure State (T S : Type) where
  server : Server.State T S
  chats : T → Option (Call S)
  stats : Stats
  enqueued : List (S×SendBuffer)
  replies : List (Reply S)
  acks : Multiset AckChat
  expectedChatRecv : Nat

def State.init {T S : Type} (maxSessionCount : Int) : State T S :=
  ⟨Server.State.init maxSessionCount,fun _ => none,⟨0,0,0⟩,[],[],0,0⟩

/-- What a step of the handler finds outside: whether `get_service().lock()` succeeds and the order in
which `_sessions` is copied. -/
structure Outcome (S : Type) where
  service : Bool
  sessions : List S

/-- `server` is a step outside the chat handlers or in a session that a handler has called; `start`
starts a job that is a chat request; `chat` and `finish` are the steps of the handler and its end;
`ackChat` is a client that handles a reply. -/
inductive Action (T S : Type) where
  | server (action : Server.Action T S)
  | start (t : T) (pkt : ReqChat)
  | chat (t : T) (outcome : Outcome S)
  | finish (t : T)
  | ackChat (ack : AckChat)

variable {T S : Type} [DecidableEq S]

def fail : At S := .reply ⟨.fail,0⟩

/-- `Handle_REQ_CHAT` up to its first call, reading the fields of its own session. -/
def handleReqChat (e : Env) (s : Server.State T S) (service : Bool) (x : S) (pkt : ReqChat) :
    At S×Option (S×Entry) :=
  let sendBuffer := e.makeSendChat (e.codec.wStringToUtf8 (s.game.sessions x).userName) pkt.message
  if (s.game.sessions x).isLogin=false then (.leave,some (x,.disconnect))
  else if pkt.message=[] ∨ 256<pkt.message.length then (fail,none)
  else
    match pkt.chatState with
    | .normal =>
      if service=false then (fail,none)
      else if s.roomId x<0 then (fail,none)
      else if s.roomId x≠pkt.roomId then (fail,none)
      else (.normalChat sendBuffer,none)
    | .all => if service=false then (fail,none) else (.allChat sendBuffer,none)
    | .whisper =>
      if service=false then (fail,none)
      else if pkt.targetName=[] ∨ 32<pkt.targetName.length then (fail,none)
      else (.findTarget sendBuffer,none)
    | .unknown _ => (fail,none)

/-- The next step of the handler and the call of a session it makes. -/
def advance (e : Env) (s : Server.State T S) (o : Outcome S) (x : S) (pkt : ReqChat) :
    At S → Option (At S×Option (S×Entry))
  | .start => some (handleReqChat e s o.service x pkt)
  | .normalChat b => some (.normalVisit s.game.manager.accountSessions.values [] b,none)
  | .normalVisit sessions targets b =>
    match sessions with
    | [] => some (.normalSend targets b 0,none)
    | y::rest =>
      if s.isConnected y=false then some (.normalVisit rest targets b,none)
      else some (.normalRoom y rest targets b,none)
  | .normalRoom y rest targets b =>
    if s.roomId y=pkt.roomId then some (.normalVisit rest (targets++[y]) b,none)
    else some (.normalVisit rest targets b,none)
  | .normalSend targets b count =>
    match targets with
    | [] => some (.broadcastPacket count,none)
    | y::rest => some (.normalSend rest b (count+1),some (y,.send b))
  | .allChat b =>
    if o.sessions.Nodup ∧ o.sessions.toFinset=s.game.manager.sessions then
      some (.allVisit o.sessions b 0,none)
    else none
  | .allVisit sessions b count =>
    match sessions with
    | [] => some (.broadcastPacket count,none)
    | y::rest =>
      if s.isConnected y=false then some (.allVisit rest b count,none)
      else some (.allRoom y rest b count,none)
  | .allRoom y rest b count =>
    if s.roomId y<0 then some (.allVisit rest b count,none)
    else some (.allVisit rest b (count+1),some (y,.send b))
  | .findTarget b =>
    if s.game.manager.isWhisperTargetFind (e.codec.utf8ToWString pkt.targetName) then
      some (.whisperChat b,none)
    else some (.reply ⟨.notTarget,0⟩,none)
  | .whisperChat b =>
    match s.game.manager.nameSessions.lookup (e.codec.utf8ToWString pkt.targetName) with
    | none => some (.broadcastPacket 0,none)
    | some y => some (.whisperSend y b,none)
  | .whisperSend y b =>
    if s.isConnected y=false then some (.broadcastPacket 0,none)
    else some (.broadcastPacket 1,some (y,.send b))
  | .broadcastPacket count => some (.broadcastTarget count,none)
  | .broadcastTarget count => some (.recvChat count,none)
  | .recvChat count => some (.reply ⟨.success,count⟩,none)
  | .reply ack => some (.replying ack,some (x,.send (e.makeAckChat ack)))
  | .replying _ | .replied | .leave => none

/-- While the fields of the sessions stay as they are, the loop of `normal_chat` collects those that
are connected and in the room. -/
theorem normalVisit_collects (e : Env) (s : Server.State T S) (o : Outcome S) (x : S) (pkt : ReqChat)
    (b : SendBuffer) (sessions targets : List S) :
    Relation.ReflTransGen (fun pc pc' => advance e s o x pkt pc=some (pc',none))
      (.normalVisit sessions targets b)
      (.normalSend (targets++
        sessions.filter fun y => s.isConnected y && s.roomId y==pkt.roomId) b 0) := by
  induction sessions generalizing targets with
  | nil =>
    rw [List.filter_nil,List.append_nil]
    exact .single rfl
  | cons y rest ih =>
    cases hcon : s.isConnected y with
    | false =>
      rw [List.filter_cons_of_neg (by simp [hcon])]
      exact .head (by simp [advance,hcon]) (ih targets)
    | true =>
      refine .head (b:=.normalRoom y rest targets b) (by simp [advance,hcon]) ?_
      by_cases hroom : s.roomId y=pkt.roomId
      · rw [List.filter_cons_of_pos (by simp [hcon,hroom]),List.append_cons]
        exact .head (by simp [advance,hroom]) (ih (targets++[y]))
      · rw [List.filter_cons_of_neg (by simp [hroom])]
        exact .head (by simp [advance,hroom]) (ih targets)

theorem normalChat_collects (e : Env) (s : Server.State T S) (o : Outcome S) (x : S) (pkt : ReqChat)
    (b : SendBuffer) :
    Relation.ReflTransGen (fun pc pc' => advance e s o x pkt pc=some (pc',none))
      (.normalChat b) (.normalSend (s.normalChat pkt.roomId) b 0) :=
  .head rfl (normalVisit_collects e s o x pkt b _ [])

/-- What the step does to `GServerStats`. -/
def Stats.after (stats : Stats) : At S → Stats
  | .broadcastPacket _ => { stats with broadcastPacket := stats.broadcastPacket+1 }
  | .broadcastTarget count => { stats with broadcastTarget := stats.broadcastTarget+count }
  | .recvChat _ => { stats with recvChat := stats.recvChat+1 }
  | _ => stats

def Record.after (r : Record S) (s : Server.State T S) : At S → Record S
  | .findTarget _ => { r with searched := true }
  | .whisperChat _ => { r with found := true }
  | .whisperSend y _ => if s.isConnected y=false then r else { r with target := some y }
  | _ => r

def At.ends : At S → Bool
  | .replying _ | .replied | .leave => true
  | _ => false

/-- The handler of the client. -/
def handleAckChat (expectedChatRecv : Nat) (ack : AckChat) : Nat :=
  match ack.result with
  | .success => expectedChatRecv+ack.targetCount
  | _ => expectedChatRecv

/-- The thread is in a chat handler and not in a session that it has called. -/
def State.inHandler (s : State T S) (t : T) : Bool :=
  match s.chats t,s.server.calls t with
  | some _,(_,.body _)::_ => true
  | _,_ => false

variable [DecidableEq T]

/-- Thread `t` has taken a step of the server; if that has queued a message or the reply of its chat
handler, the histories say so. -/
def State.afterServer (s : State T S) (t : T) (server : Server.State T S) : State T S :=
  match s.chats t,s.server.calls t with
  | some c,(x,.pipe (.enqueue b))::_ =>
    if (s.server.cores x).pipe.accepted.length<(server.cores x).pipe.accepted.length then
      match c.pc with
      | .replying ack =>
        { s with
          server
          chats := Function.update s.chats t (some { c with pc := .replied })
          replies := s.replies++[⟨c.session,c.pkt,ack,c.record⟩]
          acks := ack::ₘs.acks }
      | _ =>
        { s with
          server
          chats := Function.update s.chats t
            (some { c with record := { c.record with enqueued := c.record.enqueued+1 } })
          enqueued := s.enqueued++[(x,b)] }
    else { s with server }
  | _,_ => { s with server }

/-- The handler of thread `t` goes on. -/
def State.proceed (s : State T S) (t : T) (c : Call S) (pc : At S) (server : Server.State T S) :
    State T S :=
  { s with
    server
    chats := Function.update s.chats t (some { c with pc, record := c.record.after s.server c.pc })
    stats := s.stats.after c.pc }

def threadOf : Server.Action T S → T
  | .run t _ _ | .enter t _ _ => t

def step (e : Env) (s : State T S) : Action T S → Option (State T S)
  | .server a =>
    if s.inHandler (threadOf a) then none
    else (Server.step e.toEnv s.server a).map (s.afterServer (threadOf a))
  | .start t pkt =>
    match s.server.calls t with
    | (x,.job (.packet .other))::_ =>
      if s.server.isConnected x then
        (Server.step e.toEnv s.server (.run t true .wait)).map fun server =>
          { s with server, chats := Function.update s.chats t (some ⟨x,pkt,.start,⟨0,false,false,none⟩⟩) }
      else none
    | _ => none
  | .chat t o =>
    match s.chats t with
    | some c =>
      if s.inHandler t then
        match advance e s.server o c.session c.pkt c.pc with
        | some (pc,none) => some (s.proceed t c pc s.server)
        | some (pc,some (x,entry)) =>
          (Server.step e.toEnv s.server (.enter t x entry)).map (s.proceed t c pc)
        | none => none
      else none
    | none => none
  | .finish t =>
    match s.chats t with
    | some c =>
      if s.inHandler t && c.pc.ends then
        (Server.step e.toEnv s.server (.run t true .wait)).map fun server =>
          { s with server, chats := Function.update s.chats t none }
      else none
    | none => none
  | .ackChat ack =>
    if ack∈s.acks then
      some { s with
        acks := s.acks.erase ack
        expectedChatRecv := handleAckChat s.expectedChatRecv ack }
    else none

/-- What a step can do. -/
inductive Move (e : Env) (s : State T S) : Action T S → State T S → Prop where
  | server (a : Server.Action T S) (server : Server.State T S)
      (hin : s.inHandler (threadOf a)=false) (hs : Server.step e.toEnv s.server a=some server) :
      Move e s (.server a) (s.afterServer (threadOf a) server)
  | start (t : T) (pkt : ReqChat) (x : S) (rest : List (S×Frame Packet)) (server : Server.State T S)
      (hcalls : s.server.calls t=(x,.job (.packet .other))::rest) (hcon : s.server.isConnected x)
      (hs : Server.step e.toEnv s.server (.run t true .wait)=some server) :
      Move e s (.start t pkt) { s with
        server, chats := Function.update s.chats t (some ⟨x,pkt,.start,⟨0,false,false,none⟩⟩) }
  | pass (t : T) (c : Call S) (o : Outcome S) (pc : At S) (hchat : s.chats t=some c)
      (hin : s.inHandler t) (ha : advance e s.server o c.session c.pkt c.pc=some (pc,none)) :
      Move e s (.chat t o) (s.proceed t c pc s.server)
  | call (t : T) (c : Call S) (o : Outcome S) (pc : At S) (x : S) (entry : Entry)
      (server : Server.State T S) (hchat : s.chats t=some c) (hin : s.inHandler t)
      (ha : advance e s.server o c.session c.pkt c.pc=some (pc,some (x,entry)))
      (hs : Server.step e.toEnv s.server (.enter t x entry)=some server) :
      Move e s (.chat t o) (s.proceed t c pc server)
  | finish (t : T) (c : Call S) (server : Server.State T S) (hchat : s.chats t=some c)
      (hin : s.inHandler t) (hends : c.pc.ends)
      (hs : Server.step e.toEnv s.server (.run t true .wait)=some server) :
      Move e s (.finish t) { s with server, chats := Function.update s.chats t none }
  | ackChat (ack : AckChat) (hack : ack∈s.acks) :
      Move e s (.ackChat ack) { s with
        acks := s.acks.erase ack, expectedChatRecv := handleAckChat s.expectedChatRecv ack }

theorem step_move {e : Env} {s s' : State T S} {a : Action T S} (h : step e s a=some s') :
    Move e s a s' := by
  cases a with
  | server a =>
    simp only [step] at h
    split at h
    · cases h
    · rename_i hin
      obtain ⟨server,hs,rfl⟩ := Option.map_eq_some_iff.mp h
      exact .server a server (by simpa using hin) hs
  | start t pkt =>
    simp only [step] at h
    split at h
    · rename_i x rest hcalls
      split at h
      · rename_i hcon
        obtain ⟨server,hs,rfl⟩ := Option.map_eq_some_iff.mp h
        exact .start t pkt x rest server hcalls hcon hs
      · cases h
    · cases h
  | chat t o =>
    simp only [step] at h
    split at h
    · rename_i c hchat
      split at h
      · rename_i hin
        split at h
        · rename_i pc ha
          cases h
          exact .pass t c o pc hchat hin ha
        · rename_i pc x entry ha
          obtain ⟨server,hs,rfl⟩ := Option.map_eq_some_iff.mp h
          exact .call t c o pc x entry server hchat hin ha hs
        · cases h
      · cases h
    · cases h
  | finish t =>
    simp only [step] at h
    split at h
    · rename_i c hchat
      split at h
      · rename_i hboth
        rw [Bool.and_eq_true] at hboth
        obtain ⟨server,hs,rfl⟩ := Option.map_eq_some_iff.mp h
        exact .finish t c server hchat hboth.1 hboth.2 hs
      · cases h
    · cases h
  | ackChat ack =>
    simp only [step] at h
    split at h
    · rename_i hack
      cases h
      exact .ackChat ack hack
    · cases h

/-- The message itself as its packet. -/
def plainChat : Env :=
  { asciiEnv with
    makeSendChat := fun _ message => SendBuffer.copyData message
    makeAckChat := fun _ => SendBuffer.copyData [0] }

/-- Steps of the only thread outside its chat handler, whose system calls succeed. -/
def runs (n : Nat) : List (Action Unit Bool) := List.replicate n (.server (.run () true .wait))

/-- Steps of its chat handler. -/
def chats (n : Nat) : List (Action Unit Bool) := List.replicate n (.chat () ⟨true,[false,true]⟩)

/-- A packet of session `x` arrives and its job is taken. -/
def receive (x : Bool) (pkt : Packet) : List (Action Unit Bool) :=
  [.server (.enter () x (.recvCompleted 8)),.server (.run () true .wait),
    .server (.run () true (.packet pkt))]++runs 5++[.server (.enter () x .startJob)]

/-- Session `x` connects and creates an account whose id and name depend on `x`. -/
def logIn (x : Bool) : List (Action Unit Bool) :=
  [.server (.enter () x .offer)]++runs 5++
    receive x (.request (.login false ⟨true,[x.toUInt8],[112],[x.toUInt8]⟩))++runs 16

/-- Session `x` enters room 3. -/
def enterRoomThree (x : Bool) : List (Action Unit Bool) :=
  receive x (.request (.enterRoom 3))++runs 8

end IocpServer.Server.Chat
