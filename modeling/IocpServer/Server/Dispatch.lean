import IocpServer.Game.Handlers
import IocpServer.Job.JobQueue
import IocpServer.NetWork.Receive

namespace IocpServer.Server.Dispatch

open NetWork (RecvBuffer headerSize readHeader readPacket)
open Game (Codec Request)

/-- The packets that `ServerPacketHandler::Init` registers. -/
inductive PacketId where
  | reqLogin
  | reqBotLogin
  | reqLogout
  | reqGetRoomInfo
  | reqEnterRoom
  | reqExitRoom
  | reqChat
  | reqConnectPong
deriving DecidableEq

/-- `GPacketHandler`; every other entry is null. -/
def gPacketHandler : Nat → Option PacketId
  | 1000 => some .reqLogin
  | 1002 => some .reqBotLogin
  | 1004 => some .reqLogout
  | 1006 => some .reqGetRoomInfo
  | 1008 => some .reqEnterRoom
  | 1010 => some .reqExitRoom
  | 1012 => some .reqChat
  | 1015 => some .reqConnectPong
  | _ => none

/-- `BUFFER_SIZE`, the generated parsers of the packets, and which parsed packets are the requests that
change login or room. -/
structure Env (P : Type) where
  codec : Codec
  bufferSize : Nat
  parseFromArray : PacketId → List UInt8 → Option P
  request : P → Option Request

variable {P : Type}

/-- `ServerPacketHandler::HandlePacket` up to the call of `post_logic`: the parsed packet. -/
def handlePacket (e : Env P) (packet : List UInt8) : Option P :=
  match readHeader packet 0 with
  | none => none
  | some header =>
    if 0xffff ≤ header.id then none
    else match gPacketHandler header.id with
      | none => none
      | some id => e.parseFromArray id (packet.drop headerSize)

/-- A job of `_logic_queue`. -/
inductive Logic (P : Type) where
  | packet (pkt : P)
  | cleanup

def Logic.packet? : Logic P → Option P
  | .packet pkt => some pkt
  | .cleanup => none

/-- Where a thread stands in the methods of the session. The frames of `on_recv` refer to the receive
buffer by position, as the source does by pointer. In `posted` and `queued` the thread holds
`_logic_lock` and pushes. -/
inductive Frame (P : Type) where
  | addSession
  | processConnect
  | storeConnect
  | countConnect
  | rejectConnection
  | rejectStore
  | registerRecv
  | processRecv (bytes : List UInt8)
  | onRecv (processLen : Nat)
  | onRecvPacket (processLen size : Nat)
  | postLogic (pkt : P) (processLen : Nat)
  | posted (processLen : Nat)
  | onRecvNext (processLen : Nat)
  | onRead (processLen : Int)
  | disconnect
  | registerDisconnect
  | processDisconnect
  | closeFlags
  | queueCleanup
  | queued
  | beginShutdown
  | stopLogic
  | closeSocket
  | job (job : Logic P)
  | handler (pkt : P)
  | cleanup
  | endLogic

/-- The fields of a session that its receive path uses, with the registered operations and the game.
`stream`, `dispatched`, `pushed` and `handled` are histories, which no step reads: the bytes that the
completed receives stored, the packets with which `on_recv_packet` was called, the jobs that
`queue_logic` has pushed or is pushing, and the packets whose handler was entered. -/
structure Core (P S : Type) where
  isConnect : Bool
  isDisconnect : Bool
  shutdownStarted : Bool
  logicStopped : Bool
  ioLock : Bool
  logicLock : Bool
  offered : Bool
  receiving : Nat
  disconnecting : Nat
  recvBuffer : RecvBuffer
  game : Game.State S
  stream : List UInt8
  dispatched : List (List UInt8)
  pushed : List (Logic P)
  handled : List P

/-- What the running handler does next, where the game does not say. -/
inductive Body where
  | done
  | next
  | disconnect

/-- What is decided outside the session: the outcome of a system call and the running handler. -/
structure Choice where
  ok : Bool
  body : Body

/-- What a step leads to: the fields, the frames to go on with, and a job to push. -/
structure Outcome (P S : Type) where
  core : Core P S
  frames : List (Frame P)
  push : Option (Logic P)

variable {S : Type} [DecidableEq S]

def Outcome.go (core : Core P S) (frames : List (Frame P)) : Option (Outcome P S) :=
  some ⟨core,frames,none⟩

open Outcome (go)

/-- Session `x` goes on with its handler or cleanup in the game, and with `last` behind its end. -/
def advance (e : Env P) (x : S) (c : Core P S) (f : Frame P) (last : List (Frame P)) :
    Option (Outcome P S) :=
  match (c.game.sessions x).todo with
  | [] => go c last
  | op::rest =>
    let r := Game.advance e.codec c.game x op rest
    go { c with game := r.1 } (match r.2 with
      | some .disconnect => [.disconnect,f]
      | _ => [f])

/-- One step of a thread in the methods of session `x`; `none` means waiting for a lock. -/
def exec (e : Env P) (x : S) (c : Core P S) (o : Choice) : Frame P → Option (Outcome P S)
  | .addSession =>
    match c.game.manager.addSession x with
    | none => go c [.rejectConnection]
    | some (isNew,manager) =>
      go { c with game := { c.game with manager } } (if isNew then [.processConnect] else [])
  | .processConnect => go { c with game := c.game.connect x } [.storeConnect]
  | .storeConnect => go { c with isConnect := true } [.countConnect]
  | .countConnect => go { c with game := c.game.countConnect x } [.registerRecv]
  | .rejectConnection =>
    if c.isConnect then go c [] else go { c with isConnect := true } [.rejectStore]
  | .rejectStore =>
    -- `send` of the notice closes the connection if it fails
    go { c with game := (c.game.connect x).countConnect x } (if o.ok then [] else [.disconnect])
  | .registerRecv =>
    if c.ioLock then none
    else if c.shutdownStarted || !c.isConnect then go c []
    else if o.ok then go { c with receiving := c.receiving+1 } []
    else go c [.disconnect]
  | .processRecv bytes =>
    if c.isConnect=false then go c []
    else if bytes.length=0 then go c [.disconnect]
    else match (c.recvBuffer.fill bytes).onWrite bytes.length with
      | none => go c [.disconnect]
      | some recvBuffer => go { c with recvBuffer } [.onRecv 0]
  | .onRecv processLen =>
    let data := c.recvBuffer.data
    if data.length-processLen<headerSize then go c [.onRead processLen]
    else match readHeader data processLen with
      | none => none
      | some header =>
        if header.size<headerSize then go c [.onRead (-1)]
        else if e.bufferSize<header.size then go c [.onRead (-1)]
        else if data.length-processLen<header.size then go c [.onRead processLen]
        else go c [.onRecvPacket processLen header.size]
  | .onRecvPacket processLen size =>
    match readPacket c.recvBuffer.data processLen size with
    | none => none
    | some packet =>
      match handlePacket e packet with
      | none => go { c with dispatched := c.dispatched++[packet] } [.onRecvNext (processLen+size)]
      | some pkt =>
        go { c with dispatched := c.dispatched++[packet] } [.postLogic pkt (processLen+size)]
  | .postLogic pkt processLen =>
    if c.logicLock then none
    else if c.logicStopped then go c [.onRecvNext processLen]
    else
      some ⟨{ c with logicLock := true, pushed := c.pushed++[.packet pkt] },[.posted processLen],
        some (.packet pkt)⟩
  | .posted processLen => go { c with logicLock := false } [.onRecvNext processLen]
  | .onRecvNext processLen => go c [if c.isConnect then .onRecv processLen else .onRead processLen]
  | .onRead processLen =>
    if processLen<0 ∨ (c.recvBuffer.dataSize : Int)<processLen then go c [.disconnect]
    else match c.recvBuffer.onRead processLen.toNat with
      | none => go c [.disconnect]
      | some recvBuffer => go { c with recvBuffer := recvBuffer.clean } [.registerRecv]
  | .disconnect => go { c with isConnect := false } (if c.isConnect then [.registerDisconnect] else [])
  | .registerDisconnect =>
    if c.ioLock then none
    else if c.shutdownStarted then go c [.processDisconnect]
    else if o.ok then go { c with disconnecting := c.disconnecting+1 } []
    else go c [.processDisconnect]
  | .processDisconnect =>
    if c.isDisconnect then go c [] else go { c with isDisconnect := true } [.closeFlags]
  | .closeFlags => go { c with isConnect := false } [.queueCleanup]
  | .queueCleanup =>
    if c.logicLock then none
    else
      some ⟨{ c with logicLock := true, pushed := c.pushed++[.cleanup] },[.queued],some .cleanup⟩
  | .queued => go { c with logicLock := false } []
  | .beginShutdown =>
    if c.ioLock then none
    else if c.shutdownStarted then go c []
    else go { c with shutdownStarted := true, ioLock := true } [.stopLogic]
  | .stopLogic => if c.logicLock then none else go { c with logicStopped := true } [.closeSocket]
  | .closeSocket => go { c with isConnect := false, ioLock := false } [.processDisconnect]
  | .job (.packet pkt) =>
    if c.isConnect then
      go { c with
          handled := c.handled++[pkt]
          game := match e.request pkt with
            | none => c.game
            | some request => c.game.startHandler x request } [.handler pkt]
    else go c [.endLogic]
  | .job .cleanup => go { c with game := c.game.startCleanup x } [.cleanup]
  | .handler pkt => advance e x c (.handler pkt) (match o.body with
    | .done => [.endLogic]
    | .next => [.handler pkt]
    | .disconnect => [.disconnect,.handler pkt])
  | .cleanup => advance e x c .cleanup [.endLogic]
  | .endLogic => if c.logicLock then none else go c []

/-- The thread is in the middle of a job. -/
def Frame.isBody : Frame P → Bool
  | .handler _ | .cleanup => true
  | _ => false

/-- Everything the next step of a thread can do to the session; what it does to the game is left
open. -/
inductive Move (e : Env P) (c : Core P S) : Frame P → Outcome P S → Prop
  | full : Move e c .addSession ⟨c,[.rejectConnection],none⟩
  | added (game : Game.State S) : Move e c .addSession ⟨{ c with game },[.processConnect],none⟩
  | known (game : Game.State S) : Move e c .addSession ⟨{ c with game },[],none⟩
  | processConnect (game : Game.State S) :
      Move e c .processConnect ⟨{ c with game },[.storeConnect],none⟩
  | storeConnect : Move e c .storeConnect ⟨{ c with isConnect := true },[.countConnect],none⟩
  | countConnect (game : Game.State S) :
      Move e c .countConnect ⟨{ c with game },[.registerRecv],none⟩
  | connected (hon : c.isConnect=true) : Move e c .rejectConnection ⟨c,[],none⟩
  | rejectConnection (hoff : c.isConnect=false) :
      Move e c .rejectConnection ⟨{ c with isConnect := true },[.rejectStore],none⟩
  | rejectStore (game : Game.State S) : Move e c .rejectStore ⟨{ c with game },[],none⟩
  | noticeFailed (game : Game.State S) : Move e c .rejectStore ⟨{ c with game },[.disconnect],none⟩
  | recvOff (hfree : c.ioLock=false) (hoff : (c.shutdownStarted || !c.isConnect)=true) :
      Move e c .registerRecv ⟨c,[],none⟩
  | registerRecv (hfree : c.ioLock=false) (hon : (c.shutdownStarted || !c.isConnect)=false) :
      Move e c .registerRecv ⟨{ c with receiving := c.receiving+1 },[],none⟩
  | recvFailed (hfree : c.ioLock=false) (hon : (c.shutdownStarted || !c.isConnect)=false) :
      Move e c .registerRecv ⟨c,[.disconnect],none⟩
  | receivedOff (bytes : List UInt8) (hoff : c.isConnect=false) :
      Move e c (.processRecv bytes) ⟨c,[],none⟩
  | receivedNone (bytes : List UInt8) (hon : c.isConnect=true) :
      Move e c (.processRecv bytes) ⟨c,[.disconnect],none⟩
  | processRecv (bytes : List UInt8) (recvBuffer : RecvBuffer) (hon : c.isConnect=true)
      (hsome : bytes.length≠0)
      (hwrite : (c.recvBuffer.fill bytes).onWrite bytes.length=some recvBuffer) :
      Move e c (.processRecv bytes) ⟨{ c with recvBuffer },[.onRecv 0],none⟩
  | wait (n : Nat) : Move e c (.onRecv n) ⟨c,[.onRead n],none⟩
  | malformed (n : Nat) : Move e c (.onRecv n) ⟨c,[.onRead (-1)],none⟩
  | onRecv (n : Nat) (header : NetWork.PacketHeader)
      (hheader : readHeader c.recvBuffer.data n=some header) (hsize : headerSize ≤ header.size)
      (hfits : header.size ≤ c.recvBuffer.data.length-n) :
      Move e c (.onRecv n) ⟨c,[.onRecvPacket n header.size],none⟩
  | skip (n size : Nat) (packet : List UInt8)
      (hpacket : readPacket c.recvBuffer.data n size=some packet)
      (hparse : handlePacket e packet=none) :
      Move e c (.onRecvPacket n size)
        ⟨{ c with dispatched := c.dispatched++[packet] },[.onRecvNext (n+size)],none⟩
  | onRecvPacket (n size : Nat) (packet : List UInt8) (pkt : P)
      (hpacket : readPacket c.recvBuffer.data n size=some packet)
      (hparse : handlePacket e packet=some pkt) :
      Move e c (.onRecvPacket n size)
        ⟨{ c with dispatched := c.dispatched++[packet] },[.postLogic pkt (n+size)],none⟩
  | stopped (pkt : P) (n : Nat) (hstop : c.logicStopped=true) :
      Move e c (.postLogic pkt n) ⟨c,[.onRecvNext n],none⟩
  | postLogic (pkt : P) (n : Nat) (hfree : c.logicLock=false) (hopen : c.logicStopped=false) :
      Move e c (.postLogic pkt n)
        ⟨{ c with logicLock := true, pushed := c.pushed++[.packet pkt] },[.posted n],
          some (.packet pkt)⟩
  | posted (n : Nat) : Move e c (.posted n) ⟨{ c with logicLock := false },[.onRecvNext n],none⟩
  | recvNext (n : Nat) (hon : c.isConnect=true) : Move e c (.onRecvNext n) ⟨c,[.onRecv n],none⟩
  | recvEnd (n : Nat) (hoff : c.isConnect=false) : Move e c (.onRecvNext n) ⟨c,[.onRead n],none⟩
  | unread (n : Int) (hrange : n<0 ∨ (c.recvBuffer.dataSize : Int)<n) :
      Move e c (.onRead n) ⟨c,[.disconnect],none⟩
  | onRead (n : Int) (recvBuffer : RecvBuffer) (hn : 0 ≤ n)
      (hread : c.recvBuffer.onRead n.toNat=some recvBuffer) :
      Move e c (.onRead n) ⟨{ c with recvBuffer := recvBuffer.clean },[.registerRecv],none⟩
  | disconnect (hon : c.isConnect=true) :
      Move e c .disconnect ⟨{ c with isConnect := false },[.registerDisconnect],none⟩
  | disconnected (hoff : c.isConnect=false) :
      Move e c .disconnect ⟨{ c with isConnect := false },[],none⟩
  | registerDisconnect (hfree : c.ioLock=false) (hshut : c.shutdownStarted=false) :
      Move e c .registerDisconnect ⟨{ c with disconnecting := c.disconnecting+1 },[],none⟩
  | disconnectFailed (hfree : c.ioLock=false) :
      Move e c .registerDisconnect ⟨c,[.processDisconnect],none⟩
  | processDisconnect (hfirst : c.isDisconnect=false) :
      Move e c .processDisconnect ⟨{ c with isDisconnect := true },[.closeFlags],none⟩
  | processed (hdone : c.isDisconnect=true) : Move e c .processDisconnect ⟨c,[],none⟩
  | closeFlags : Move e c .closeFlags ⟨{ c with isConnect := false },[.queueCleanup],none⟩
  | queueCleanup (hfree : c.logicLock=false) :
      Move e c .queueCleanup
        ⟨{ c with logicLock := true, pushed := c.pushed++[.cleanup] },[.queued],some .cleanup⟩
  | queued : Move e c .queued ⟨{ c with logicLock := false },[],none⟩
  | shutdownBegun (hfree : c.ioLock=false) (hshut : c.shutdownStarted=true) :
      Move e c .beginShutdown ⟨c,[],none⟩
  | beginShutdown (hfree : c.ioLock=false) (hshut : c.shutdownStarted=false) :
      Move e c .beginShutdown ⟨{ c with shutdownStarted := true, ioLock := true },[.stopLogic],none⟩
  | stopLogic : Move e c .stopLogic ⟨{ c with logicStopped := true },[.closeSocket],none⟩
  | closeSocket :
      Move e c .closeSocket
        ⟨{ c with isConnect := false, ioLock := false },[.processDisconnect],none⟩
  | handle (pkt : P) (game : Game.State S) (hon : c.isConnect=true) :
      Move e c (.job (.packet pkt))
        ⟨{ c with handled := c.handled++[pkt], game },[.handler pkt],none⟩
  | drop (pkt : P) (hoff : c.isConnect=false) : Move e c (.job (.packet pkt)) ⟨c,[.endLogic],none⟩
  | startCleanup (game : Game.State S) : Move e c (.job .cleanup) ⟨{ c with game },[.cleanup],none⟩
  | jobEnds (f : Frame P) (hf : f.isBody=true) :
      Move e c f ⟨c,[.endLogic],none⟩
  | jobRuns (f : Frame P) (hf : f.isBody=true) (game : Game.State S) :
      Move e c f ⟨{ c with game },[f],none⟩
  | jobDisconnects (f : Frame P) (hf : f.isBody=true) (game : Game.State S) :
      Move e c f ⟨{ c with game },[.disconnect,f],none⟩
  | endLogic : Move e c .endLogic ⟨c,[],none⟩

/-- A job goes on in the game, or it is left to `last` how it goes on. -/
theorem advance_move {e : Env P} {x : S} {c : Core P S} {f : Frame P} {last : List (Frame P)}
    {r : Outcome P S} (hf : f.isBody=true)
    (hlast : Move e c f ⟨c,last,none⟩) (h : advance e x c f last=some r) : Move e c f r := by
  unfold advance at h
  split at h <;> cases h
  · exact hlast
  · split
    · exact .jobDisconnects f hf _
    · exact .jobRuns f hf _

theorem exec_move {e : Env P} {x : S} {c : Core P S} {o : Choice} {f : Frame P} {r : Outcome P S}
    (h : exec e x c o f=some r) : Move e c f r := by
  cases f with
  | addSession =>
    simp only [exec] at h
    split at h <;> cases h
    · exact .full
    · split
      · exact .added _
      · exact .known _
  | processConnect =>
    cases h
    exact .processConnect _
  | storeConnect =>
    cases h
    exact .storeConnect
  | countConnect =>
    cases h
    exact .countConnect _
  | rejectConnection =>
    simp only [exec] at h
    split at h <;> cases h
    · exact .connected ‹_›
    · exact .rejectConnection (Bool.eq_false_iff.mpr ‹_›)
  | rejectStore =>
    cases h
    split
    · exact .rejectStore _
    · exact .noticeFailed _
  | registerRecv =>
    simp only [exec] at h
    split at h
    · cases h
    rename_i hlock
    have hfree := Bool.eq_false_iff.mpr hlock
    split at h
    · cases h
      exact .recvOff hfree ‹_›
    rename_i hoff
    split at h <;> cases h
    · exact .registerRecv hfree (Bool.eq_false_iff.mpr hoff)
    · exact .recvFailed hfree (Bool.eq_false_iff.mpr hoff)
  | processRecv bytes =>
    simp only [exec] at h
    split at h
    · cases h
      exact .receivedOff bytes ‹_›
    rename_i hoff
    have hon : c.isConnect=true := by simpa using hoff
    split at h
    · cases h
      exact .receivedNone bytes hon
    rename_i hsome
    split at h <;> cases h
    · exact .receivedNone bytes hon
    · exact .processRecv bytes _ hon hsome ‹_›
  | onRecv n =>
    simp only [exec] at h
    split at h
    · cases h
      exact .wait n
    split at h
    · cases h
    rename_i header hheader
    split at h
    · cases h
      exact .malformed n
    rename_i hsize
    split at h
    · cases h
      exact .malformed n
    split at h <;> cases h
    · exact .wait n
    · exact .onRecv n header hheader (Nat.le_of_not_lt hsize) (Nat.le_of_not_lt ‹_›)
  | onRecvPacket n size =>
    simp only [exec] at h
    split at h
    · cases h
    rename_i packet hpacket
    split at h <;> cases h
    · exact .skip n size packet hpacket ‹_›
    · exact .onRecvPacket n size packet _ hpacket ‹_›
  | postLogic pkt n =>
    simp only [exec] at h
    split at h
    · cases h
    rename_i hfree
    split at h <;> cases h
    · exact .stopped pkt n ‹_›
    · exact .postLogic pkt n (Bool.eq_false_iff.mpr hfree) (Bool.eq_false_iff.mpr ‹_›)
  | posted n =>
    cases h
    exact .posted n
  | onRecvNext n =>
    cases h
    split
    · exact .recvNext n ‹_›
    · exact .recvEnd n (Bool.eq_false_iff.mpr ‹_›)
  | onRead n =>
    simp only [exec] at h
    split at h
    · cases h
      exact .unread n ‹_›
    rename_i hrange
    have hn : 0 ≤ n := Int.not_lt.mp fun hneg => hrange (Or.inl hneg)
    split at h <;> cases h
    · rename_i hread
      obtain ⟨b,hb,-⟩ := RecvBuffer.onRead_data (n:=n.toNat) (b:=c.recvBuffer) (by omega)
      cases hread.symm.trans hb
    · exact .onRead n _ hn ‹_›
  | disconnect =>
    cases h
    split
    · exact .disconnect ‹_›
    · exact .disconnected (Bool.eq_false_iff.mpr ‹_›)
  | registerDisconnect =>
    simp only [exec] at h
    split at h
    · cases h
    rename_i hlock
    have hfree := Bool.eq_false_iff.mpr hlock
    split at h
    · cases h
      exact .disconnectFailed hfree
    rename_i hshut
    split at h <;> cases h
    · exact .registerDisconnect hfree (Bool.eq_false_iff.mpr hshut)
    · exact .disconnectFailed hfree
  | processDisconnect =>
    simp only [exec] at h
    split at h <;> cases h
    · exact .processed ‹_›
    · exact .processDisconnect (Bool.eq_false_iff.mpr ‹_›)
  | closeFlags =>
    cases h
    exact .closeFlags
  | queueCleanup =>
    simp only [exec] at h
    split at h <;> cases h
    exact .queueCleanup (Bool.eq_false_iff.mpr ‹_›)
  | queued =>
    cases h
    exact .queued
  | beginShutdown =>
    simp only [exec] at h
    split at h
    · cases h
    rename_i hlock
    split at h <;> cases h
    · exact .shutdownBegun (Bool.eq_false_iff.mpr hlock) ‹_›
    · exact .beginShutdown (Bool.eq_false_iff.mpr hlock) (Bool.eq_false_iff.mpr ‹_›)
  | stopLogic =>
    simp only [exec] at h
    split at h <;> cases h
    exact .stopLogic
  | closeSocket =>
    cases h
    exact .closeSocket
  | job j =>
    cases j with
    | packet pkt =>
      simp only [exec] at h
      split at h <;> cases h
      · exact .handle pkt _ ‹_›
      · exact .drop pkt (Bool.eq_false_iff.mpr ‹_›)
    | cleanup =>
      cases h
      exact .startCleanup _
  | handler pkt =>
    refine advance_move rfl ?_ h
    split
    · exact .jobEnds _ rfl
    · exact .jobRuns _ rfl c.game
    · exact .jobDisconnects _ rfl c.game
  | cleanup => exact advance_move rfl (.jobEnds _ rfl) h
  | endLogic =>
    simp only [exec] at h
    split at h <;> cases h
    exact .endLogic

/-- Calls of the methods of the session, and completions of its operations. -/
inductive Entry where
  | offer
  | disconnect
  | beginShutdown
  | recvCompleted (bytes : List UInt8)
  | disconnectCompleted

/-- `on_connected` is called once for a session. -/
def enter (c : Core P S) : Entry → Option (Core P S×List (Frame P))
  | .offer => if c.offered then none else some ({ c with offered := true },[.addSession])
  | .disconnect => some (c,[.disconnect])
  | .beginShutdown => some (c,[.beginShutdown])
  | .recvCompleted bytes =>
    if c.receiving=0 then none
    else
      some ({ c with receiving := c.receiving-1, stream := c.stream++bytes },[.processRecv bytes])
  | .disconnectCompleted =>
    if c.disconnecting=0 then none
    else some ({ c with disconnecting := c.disconnecting-1 },[.processDisconnect])

/-- A session, the job queues and the threads. -/
structure State (T Q P S : Type) where
  core : Core P S
  jobs : Job.State T Q (Logic P)
  calls : T → List (Frame P)

/-- `job` is a step of the job queues; `game` is a step of another session in the game. -/
inductive Action (T Q P S : Type) where
  | run (t : T) (o : Choice)
  | enter (t : T) (entry : Entry)
  | job (a : Job.Action T Q (Logic P))
  | game (a : Game.Action S)

variable {T Q : Type} [DecidableEq T] [DecidableEq Q]

def State.init (e : Env P) (maxSessionCount : Int) : State T Q P S where
  core := { isConnect := false, isDisconnect := false, shutdownStarted := false, logicStopped := false,
            ioLock := false, logicLock := false, offered := false, receiving := 0, disconnecting := 0,
            recvBuffer := RecvBuffer.init e.bufferSize, game := Game.State.init maxSessionCount,
            stream := [], dispatched := [], pushed := [], handled := [] }
  jobs := Job.State.init
  calls := fun _ => []

/-- The job of queue `q` in which the thread is. -/
def jobOf (q : Q) (th : Job.Thread Q (Logic P)) : Option (Logic P) :=
  match th.execute with
  | some ⟨q',.job j _ _⟩ => if q'=q then some j else none
  | _ => none

/-- The session of a step in the game. -/
def sessionOf : Game.Action S → S
  | .connect x | .countConnect x | .addSession x | .handle x _ | .cleanup x | .advance x => x

/-- Whether the code around the session lets a thread take this step of the job queues: only the session
pushes to its queue `q`, and a thread in one of its methods neither runs other jobs nor leaves its own. -/
def admits (q : Q) (calls : T → List (Frame P)) : Job.Action T Q (Logic P) → Bool
  | .push t q' _ pushOnly => q'≠q && ((calls t).isEmpty || pushOnly)
  | .globalPop t | .endJob t => (calls t).isEmpty
  | _ => true

def startOf : Job.Action T Q (Logic P) → Option T
  | .startJob t => some t
  | _ => none

/-- `_logic_queue->push(job, true)`, where a step calls it. -/
def pushJob (q : Q) (t : T) (jobs : Job.State T Q (Logic P)) :
    Option (Logic P) → Option (Job.State T Q (Logic P))
  | none => some jobs
  | some job => Job.step jobs (.push t q job true)

def step (e : Env P) (x : S) (q : Q) (s : State T Q P S) :
    Action T Q P S → Option (State T Q P S)
  | .run t o =>
    if (s.jobs.threads t).outside then
      match s.calls t with
      | [] => none
      | f::rest => do
        let r ← exec e x s.core o f
        let jobs ← pushJob q t s.jobs r.push
        return ⟨r.core,jobs,Function.update s.calls t (r.frames++rest)⟩
    else none
  | .enter t entry =>
    if (s.jobs.threads t).outside ∧ s.calls t=[] then
      (enter s.core entry).map fun r => ⟨r.1,s.jobs,Function.update s.calls t r.2⟩
    else none
  | .job a =>
    if admits q s.calls a then
      (Job.step s.jobs a).map fun jobs =>
        ⟨s.core,jobs,match startOf a with
          | none => s.calls
          | some t => Function.update s.calls t
              ((jobOf q (jobs.threads t)).toList.map Frame.job++s.calls t)⟩
    else none
  | .game a =>
    if sessionOf a=x then none
    else (Game.step e.codec s.core.game a).map fun game =>
      { s with core := { s.core with game } }

end IocpServer.Server.Dispatch
