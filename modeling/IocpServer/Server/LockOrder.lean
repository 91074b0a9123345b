import IocpServer.Framework.Locks
import IocpServer.Game.Room

namespace IocpServer.Server.LockOrder

open Locks (Code State Discipline Sleeps WaitsFor Ready)
open Locks.Code (opt block oneOf)
open Game (maxRoomCount)

variable {S W : Type}

/-- The mutexes of the server: `close` and `sessions` of the service, `listener`, `manager`, `login`,
`room`, `timer`, `logger`, `stopSignal` and `threads` of the objects they are named after, `io`,
`logic` and `send` of a session (the last is its `WRITE_LOCK`), `completion` of an `IocpObject`, a
session or the listener, and `jobs` of the `LockQueue` in a `JobQueue`, that of a session or that of
the accept retries; `globalQueue` is the `LockQueue` of the `GlobalQueue`. -/
inductive Lock (S : Type) where
  | close
  | listener
  | manager
  | room (r : Fin maxRoomCount)
  | io (x : S)
  | logic (x : S)
  | send (x : S)
  | completion (o : Option S)
  | jobs (q : Option S)
  | globalQueue
  | sessions
  | timer
  | login
  | logger
  | stopSignal
  | threads (background : Bool)
deriving DecidableEq

/-- What the code picks where it loops over sessions or takes one from a queue: a session, and the
room it is in. -/
abbrev Pick (S : Type) := S×Fin maxRoomCount

abbrev Prog (S : Type) := Code (Lock S) (Pick S)

/-- `Logger::write`. -/
def logWrite : Prog S := .locked .logger .skip

/-! The service and the destructor of a session, which runs where the last reference goes away. -/

def releaseLiveSession : Prog S := .locked .sessions .skip

/-- A reference to a session is dropped; `~Session` runs if it was the last one. -/
def dropSession : Prog S := opt releaseLiveSession

def createSession : Prog S := .locked .sessions .skip

/-! `IocpObject`. -/

def beginIo (o : Option S) : Prog S := .locked (.completion o) .skip

def finishIo (o : Option S) : Prog S := .locked (.completion o) .skip

def waitForIo (o : Option S) : Prog S := .await (.completion o)

/-- An operation is begun, and finished at once when its registration fails. -/
def beginOperation (x : S) : Prog S :=
  block [beginIo (some x),opt (block [dropSession,finishIo (some x)])]

/-! Job queues and timers. -/

def globalQueuePush : Prog S := .locked .globalQueue .skip

def globalQueuePop : Prog S := .locked .globalQueue .skip

def jobsPush (q : Option S) : Prog S := .locked (.jobs q) .skip

def jobsPopAll (q : Option S) : Prog S := .locked (.jobs q) .skip

/-- `JobQueue::push` with `pushOnly`. -/
def pushOnly (q : Option S) : Prog S := block [jobsPush q,opt globalQueuePush]

def reserve : Prog S := .locked .timer .skip

/-! `Session`. -/

def queueLogic (x : S) : Prog S := .locked (.logic x) (opt (pushOnly (some x)))

def postLogic (x : S) : Prog S := queueLogic x

def processDisconnect (x : S) : Prog S := opt (queueLogic x)

def registerDisconnect (x : S) : Prog S := .locked (.io x) (opt (beginOperation x))

def disconnect (x : S) : Prog S := opt (block [registerDisconnect x,opt (processDisconnect x)])

def handleError (x : S) : Prog S := block [logWrite,disconnect x]

def registerRecv (x : S) : Prog S :=
  block [.locked (.io x) (opt (beginOperation x)),opt (handleError x)]

def registerSend (x : S) : Prog S :=
  block
    [.locked (.io x)
      (opt (block [opt (.locked (.send x) .skip),oneOf [dropSession,beginOperation x]])),
     oneOf [.skip,disconnect x,block [logWrite,disconnect x]]]

def send (x : S) : Prog S :=
  opt (block
    [.locked (.send x) .skip,oneOf [.skip,block [logWrite,disconnect x],registerSend x]])

def rejectConnection (x : S) : Prog S := opt (oneOf [disconnect x,send x])

def processConnect (x : S) : Prog S := registerRecv x

def beginShutdown (x : S) : Prog S :=
  block [.locked (.io x) (opt (.locked (.logic x) .skip)),opt (processDisconnect x)]

def waitForShutdown (x : S) : Prog S :=
  block [waitForIo (some x),.await (.logic x),.locked (.send x) .skip]

/-- `ServerPacketHandler::HandlePacket`: a wrong id, a body that does not parse, or a job. -/
def onRecvPacket (x : S) : Prog S := oneOf [.skip,logWrite,postLogic x]

def onRecv (x : S) : Prog S := .loop (onRecvPacket x)

def processRecv (x : S) : Prog S :=
  oneOf
    [.skip,disconnect x,block [logWrite,disconnect x],
     block [onRecv x,oneOf [block [logWrite,disconnect x],registerRecv x]]]

def processSend (x : S) : Prog S :=
  oneOf
    [.skip,block [logWrite,disconnect x],registerSend x,disconnect x,
     block [.locked (.send x) .skip,opt (registerSend x)]]

def sessionDispatch (x : S) : Prog S :=
  oneOf [processConnect x,processDisconnect x,processRecv x,processSend x]

/-! `SessionManager`. -/

def addSession (x : S) : Prog S := block [.locked .manager .skip,opt (processConnect x)]

/-- The entry of an earlier session under the same account may be replaced. -/
def addAccountSession : Prog S := opt (.locked .manager dropSession)

def addNameSession : Prog S := opt (.locked .manager dropSession)

def releaseLogoutSession : Prog S := opt (.locked .manager dropSession)

def releaseNameSession : Prog S := opt (.locked .manager dropSession)

def releaseSession : Prog S :=
  block [releaseLogoutSession,releaseNameSession,.locked .manager dropSession]

def isWhisperTargetFind : Prog S := .locked .manager .skip

/-- The references of a snapshot go away one by one, after the lock. -/
def dropSnapshot : Prog S := .loop dropSession

def sendPing (x : S) : Prog S := send x

def checkHeartbeat : Prog S :=
  block
    [.locked .manager .skip,
     .loop (.choose fun i => oneOf [.skip,block [logWrite,disconnect i.1],sendPing i.1]),dropSnapshot]

def allChat : Prog S :=
  block [.locked .manager .skip,.loop (.choose fun i => opt (send i.1)),dropSnapshot]

def normalChat : Prog S :=
  block [.locked .manager .skip,.loop (.choose fun i => send i.1),dropSnapshot]

def whisperChat : Prog S :=
  block [.locked .manager .skip,opt (.choose fun i => block [opt (send i.1),dropSession])]

/-! `Login`, `Room` and the packet handlers. -/

def createAccount : Prog S := .locked .login .skip

def loginCall : Prog S := .locked .login .skip

def logoutCall : Prog S := .locked .login .skip

def enterRoom (r : Fin maxRoomCount) : Prog S := opt (.locked (.room r) .skip)

def exitRoom (r : Fin maxRoomCount) : Prog S := opt (.locked (.room r) dropSession)

/-- Every handler but the two login handlers and the pong refuses a session that is not logged in. -/
def notLogin (x : S) : Prog S := block [logWrite,disconnect x]

/-- `Handle_REQ_LOGIN` and `Handle_REQ_BOT_LOGIN`. -/
def handleReqLogin (x : S) : Prog S :=
  oneOf
    [logWrite,block [logWrite,disconnect x],
     block
      [oneOf [createAccount,loginCall],opt (block [addAccountSession,addNameSession]),send x]]

def handleReqLogout (x : S) (r : Fin maxRoomCount) : Prog S :=
  oneOf
    [notLogin x,
     block
      [opt (exitRoom r),logoutCall,
       oneOf [block [logWrite,send x],block [releaseLogoutSession,releaseNameSession,send x]]]]

def handleReqGetRoomInfo (x : S) : Prog S := oneOf [notLogin x,send x]

def handleReqEnterRoom (x : S) (r : Fin maxRoomCount) : Prog S :=
  oneOf [notLogin x,send x,block [enterRoom r,send x]]

def handleReqExitRoom (x : S) (r : Fin maxRoomCount) : Prog S :=
  oneOf [notLogin x,block [opt (exitRoom r),send x]]

def handleReqChat (x : S) : Prog S :=
  oneOf
    [notLogin x,send x,block [logWrite,send x],block [normalChat,send x],block [allChat,send x],
     block [isWhisperTargetFind,oneOf [send x,block [whisperChat,send x]]]]

def handleReqConnectPong : Prog S := .skip

/-- The job of a packet. -/
def packetJob (x : S) (r : Fin maxRoomCount) : Prog S :=
  opt (block
    [oneOf
      [handleReqLogin x,handleReqLogout x r,handleReqGetRoomInfo x,handleReqEnterRoom x r,
       handleReqExitRoom x r,handleReqChat x,handleReqConnectPong],
     opt logWrite])

def onDisconnect (r : Fin maxRoomCount) : Prog S := block [opt (exitRoom r),opt logoutCall]

/-- The job that `process_disconnect` queues. -/
def cleanupJob (x : S) (r : Fin maxRoomCount) : Prog S :=
  block [opt (onDisconnect r),releaseSession,.locked (.logic x) .skip]

/-- A job of a session's queue: what it was made for, and the end that `queue_logic` gives it. -/
def logicJob (x : S) (r : Fin maxRoomCount) : Prog S :=
  block [oneOf [packetJob x r,cleanupJob x r],.locked (.logic x) .skip,dropSession]

/-! The listener. -/

def reserveAcceptRetry : Prog S := reserve

def registerAccept : Prog S :=
  .locked .listener
    (opt (block
      [createSession,
       oneOf
        [block [logWrite,dropSession,reserveAcceptRetry],
         block
          [beginIo none,
           opt (block [dropSession,finishIo none,logWrite,oneOf [reserveAcceptRetry,logWrite]]),
           dropSession]]]))

def processAccept (x : S) : Prog S :=
  block
    [.locked .listener (opt reserveAcceptRetry),
     opt (block [logWrite,addSession x,opt (rejectConnection x),registerAccept]),dropSession]

def startAccept : Prog S := opt (block [.loop registerAccept,logWrite])

def closeSocket : Prog S := .locked .listener .skip

/-! The worker threads. -/

def retryJob : Prog S := opt registerAccept

/-- `JobQueue::execute` of the queue of a session or of the accept retries. -/
def execute : Option S → Prog S
  | some x =>
    block
      [.loop (block [jobsPopAll (some x),.loop (.choose fun i => logicJob x i.2)]),
       opt globalQueuePush]
  | none => block [.loop (block [jobsPopAll none,.loop retryJob]),opt globalQueuePush]

/-- `JobQueue::push` of an accept retry, which the thread may execute itself. -/
def pushRetry : Prog S := block [jobsPush none,oneOf [.skip,execute none,globalQueuePush]]

def distribute : Prog S := opt (block [.locked .timer .skip,.loop (opt pushRetry)])

def doGlobalQueueWork : Prog S :=
  .loop (block [globalQueuePop,opt (.choose fun i => oneOf [execute none,execute (some i.1)])])

/-- `IocpCore::dispatch`, which first waits for a completion. -/
def iocpDispatch : Prog S :=
  block
    [.sleep,
     oneOf
      [.skip,logWrite,
       .choose fun i =>
        block
          [opt logWrite,
           oneOf
            [block [sessionDispatch i.1,finishIo (some i.1),dropSession],
             block [processAccept i.1,finishIo none]]]]]

def doWorkerJob : Prog S := .loop (block [iocpDispatch,distribute,doGlobalQueueWork])

/-! The threads of `main`. -/

def stopSignalWait : Prog S := .await .stopSignal

def stopSignalRequest : Prog S := .locked .stopSignal .skip

def serviceClose : Prog S :=
  block
    [.locked .sessions .skip,.loop (.choose fun i => beginShutdown i.1),
     .loop (.choose fun i => waitForShutdown i.1),dropSnapshot]

/-- `ServerService::close_service`. -/
def closeService : Prog S :=
  .locked .close (block [opt (block [closeSocket,waitForIo none]),serviceClose])

def start : Prog S := block [startAccept,opt closeSocket]

def launch (background : Bool) : Prog S := .locked (.threads background) .skip

def timerClear : Prog S := .locked .timer .skip

/-- The main thread; it sleeps while it reads commands and while it joins the others. -/
def main : Prog S :=
  block
    [start,
     opt (block
      [.loop (launch false),launch true,launch true,.loop .sleep,stopSignalRequest,.sleep,closeService,
       .sleep,timerClear])]

inductive Thread (W : Type) where
  | main
  | heartbeat
  | stats
  | worker (w : W)
deriving DecidableEq

def code : Thread W → Prog S
  | .main => main
  | .heartbeat => .loop (block [checkHeartbeat,stopSignalWait])
  | .stats => .loop stopSignalWait
  | .worker _ => doWorkerJob

/-- The order in which the server takes its mutexes. -/
def rank : Lock S → Nat
  | .close => 0
  | .listener => 1
  | .manager | .room _ => 2
  | .io _ => 3
  | .logic _ => 4
  | _ => 5

/-- Only the main thread closes the service. -/
def order (S W : Type) : Discipline (Thread W) (Lock S) := ⟨rank,fun t l => l=.close → t=.main⟩

@[simp] theorem order_rank (l : Lock S) : (order S W).rank l=rank l := rfl

@[simp] theorem order_uses {t : Thread W} {l : Lock S} :
    (order S W).uses t l ↔ (l=.close → t=.main) := Iff.rfl

section Fits

variable {t : Thread W} {n : Nat} {q : Prop} {x : S}

attribute [local simp] Discipline.Fits rank

@[local simp] theorem logWrite_fits (hn : n ≤ 5) : (order S W).Fits t n q logWrite := by
  simpa [logWrite] using hn

@[local simp] theorem dropSession_fits (hn : n ≤ 5) : (order S W).Fits t n q dropSession := by
  simpa [dropSession,releaseLiveSession] using hn

@[local simp] theorem beginOperation_fits (hn : n ≤ 5) :
    (order S W).Fits t n q (beginOperation x) := by
  simp [beginOperation,beginIo,finishIo,hn]

@[local simp] theorem queueLogic_fits (hn : n ≤ 4) : (order S W).Fits t n q (queueLogic x) := by
  simp [queueLogic,pushOnly,jobsPush,globalQueuePush,hn]

@[local simp] theorem disconnect_fits (hn : n ≤ 3) : (order S W).Fits t n q (disconnect x) := by
  have hlogic : n ≤ 4 := by omega
  simp [disconnect,registerDisconnect,processDisconnect,hn,hlogic]

@[local simp] theorem registerRecv_fits (hn : n ≤ 3) : (order S W).Fits t n q (registerRecv x) := by
  have hlog : n ≤ 5 := by omega
  simp [registerRecv,handleError,hn,hlog]

@[local simp] theorem registerSend_fits (hn : n ≤ 3) : (order S W).Fits t n q (registerSend x) := by
  have hlog : n ≤ 5 := by omega
  simp [registerSend,hn,hlog]

@[local simp] theorem send_fits (hn : n ≤ 3) : (order S W).Fits t n q (send x) := by
  have hlog : n ≤ 5 := by omega
  simp [send,hn,hlog]

@[local simp] theorem sessionDispatch_fits (hn : n ≤ 3) :
    (order S W).Fits t n q (sessionDispatch x) := by
  have hlog : n ≤ 5 := by omega
  have hlogic : n ≤ 4 := by omega
  simp [sessionDispatch,processConnect,processDisconnect,processRecv,processSend,onRecv,onRecvPacket,
    postLogic,hn,hlog,hlogic]

@[local simp] theorem handleReqChat_fits (hn : n ≤ 2) : (order S W).Fits t n q (handleReqChat x) := by
  have hsend : n ≤ 3 := by omega
  have hlog : n ≤ 5 := by omega
  simp [handleReqChat,notLogin,normalChat,allChat,whisperChat,isWhisperTargetFind,dropSnapshot,hn,
    hsend,hlog]

@[local simp] theorem packetJob_fits (hn : n ≤ 2) (r : Fin maxRoomCount) :
    (order S W).Fits t n q (packetJob x r) := by
  have hsend : n ≤ 3 := by omega
  have hlog : n ≤ 5 := by omega
  simp [packetJob,handleReqLogin,handleReqLogout,handleReqGetRoomInfo,handleReqEnterRoom,
    handleReqExitRoom,handleReqConnectPong,notLogin,createAccount,loginCall,logoutCall,
    addAccountSession,addNameSession,releaseLogoutSession,releaseNameSession,enterRoom,exitRoom,hn,
    hsend,hlog]

@[local simp] theorem logicJob_fits (hn : n ≤ 2) (r : Fin maxRoomCount) :
    (order S W).Fits t n q (logicJob x r) := by
  have hlog : n ≤ 5 := by omega
  have hlogic : n ≤ 4 := by omega
  simp [logicJob,cleanupJob,onDisconnect,exitRoom,logoutCall,releaseSession,releaseLogoutSession,
    releaseNameSession,hn,hlog,hlogic]

/-- Below the lock of the listener only leaves of the order are taken. -/
@[local simp] theorem registerAccept_fits (hn : n ≤ 1) :
    (order S W).Fits t n q (registerAccept : Prog S) := by
  simp [registerAccept,createSession,reserveAcceptRetry,reserve,beginIo,finishIo,hn]

@[local simp] theorem execute_fits (hn : n ≤ 1) (queue : Option S) :
    (order S W).Fits t n q (execute queue) := by
  have hjob : n ≤ 2 := by omega
  have hlog : n ≤ 5 := by omega
  cases queue with
  | none => simp [execute,jobsPopAll,retryJob,globalQueuePush,hn,hlog]
  | some x => simp [execute,jobsPopAll,globalQueuePush,hjob,hlog]

theorem doWorkerJob_fits : (order S W).Fits t 0 True (doWorkerJob : Prog S) := by
  simp [doWorkerJob,iocpDispatch,processAccept,reserveAcceptRetry,reserve,addSession,processConnect,
    rejectConnection,finishIo,distribute,pushRetry,jobsPush,globalQueuePush,doGlobalQueueWork,
    globalQueuePop]

theorem checkHeartbeat_fits (hn : n ≤ 2) : (order S W).Fits t n q (checkHeartbeat : Prog S) := by
  have hsend : n ≤ 3 := by omega
  have hlog : n ≤ 5 := by omega
  simp [checkHeartbeat,sendPing,dropSnapshot,hn,hsend,hlog]

/-- While the service is closed the main thread holds no lock that another thread uses. -/
theorem closeService_fits : (order S W).Fits .main 0 True (closeService : Prog S) := by
  simp [closeService,closeSocket,waitForIo,serviceClose,beginShutdown,processDisconnect,
    waitForShutdown,dropSnapshot,Discipline.Private]

theorem main_fits : (order S W).Fits .main 0 True (main : Prog S) := by
  simp [main,start,startAccept,closeSocket,launch,stopSignalRequest,timerClear,closeService_fits]

end Fits

theorem code_fits (t : Thread W) : (order S W).Fits t 0 True (code t : Prog S) := by
  cases t with
  | main => exact main_fits
  | worker w => exact doWorkerJob_fits
  | heartbeat => simp [code,Discipline.Fits,checkHeartbeat_fits,stopSignalWait]
  | stats => simp [code,Discipline.Fits,stopSignalWait]

theorem rank_le (l : Lock S) : rank l ≤ 5 := by
  cases l <;> simp [rank]

/-- The server never deadlocks, whatever its threads do: a thread that is awake can go on, or it waits
for a lock whose owners, followed one after the other, lead to a thread that can, and the others can
bring it to its next step without it. A thread that sleeps owns no lock but that of `close_service`,
and only if it is the main thread. -/
theorem server_never_deadlocks [DecidableEq S] [DecidableEq W] [Nonempty S]
    {s : State (Thread W) (Lock S) (Pick S)}
    (h : Reaches Locks.step Any (State.init code) s) :
    (∀ t, s.todo t≠[] → ¬Sleeps (s.todo t) →
      (∃ u, Relation.ReflTransGen (WaitsFor s) t u ∧ Ready s u) ∧
      ∃ s', Reaches Locks.step (fun _ a => a.thread≠t) s s' ∧ s'.todo t=s.todo t ∧ Ready s' t) ∧
    ∀ t l, Sleeps (s.todo t) → s.owner l=some t → t=.main ∧ l=.close := by
  have hinv := Locks.reaches_inv (d:=order S W) code_fits h
  have : Nonempty (Pick S) := ⟨⟨Classical.arbitrary S,0,by decide⟩⟩
  refine ⟨fun t hwork hawake => ⟨hinv.exists_ready rank_le hwork hawake,
    hinv.can_go_on rank_le hwork hawake⟩,?_⟩
  intro t l hsleeps howner
  have hprivate := hinv.private_of_sleeps hsleeps howner
  by_cases hl : l=.close
  · exact ⟨(hprivate .main fun _ => rfl).symm,hl⟩
  · -- a lock that every thread uses is nobody's own
    have hmain : Thread.main=t := hprivate .main fun _ => rfl
    have hstats : Thread.stats=t := hprivate .stats fun he => absurd he hl
    rw [← hstats] at hmain
    cases hmain

/-- A worker enters its loop, waits for a completion and comes to report a failure. -/
def report (w : Bool) : List (Locks.Action (Thread Bool) (Pick Unit)) :=
  [true,true,true,true,true,true,true,false,true].map fun first => ⟨.worker w,first,(),0,by decide⟩

/-- Two workers report a failure at the same time, and the first of them has the logger. -/
def contention : List (Locks.Action (Thread Bool) (Pick Unit)) :=
  report false++report true++[⟨.worker false,true,(),0,by decide⟩]

theorem server_never_deadlocks_contention :
    ∃ s : State (Thread Bool) (Lock Unit) (Pick Unit),
      runActions Locks.step (State.init code) contention=some s ∧
      WaitsFor s (.worker true) (.worker false) ∧
      (∃ u, Relation.ReflTransGen (WaitsFor s) (.worker true) u ∧ Ready s u) ∧
      ∃ s', Reaches Locks.step (fun _ a => a.thread≠.worker true) s s' ∧
        s'.todo (.worker true)=s.todo (.worker true) ∧ Ready s' (.worker true) := by
  refine ⟨_,rfl,⟨.logger,rfl,rfl⟩,?_⟩
  refine (server_never_deadlocks (Reaches.of_runActions (fun _ _ => trivial) contention rfl)).1
    (.worker true) ?_ ?_
  · intro he
    cases he
  · exact id

end IocpServer.Server.LockOrder
