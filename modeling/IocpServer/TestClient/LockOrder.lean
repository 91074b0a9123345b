import IocpServer.Framework.Locks

namespace IocpServer.TestClient.LockOrder

open Locks (Code State Discipline Sleeps WaitsFor Ready)
open Locks.Code (opt block oneOf)

variable {S B W : Type}

/-- The mutexes of the client: `stop` and `server` of `ClientServer` (the second is its `_lock`),
`send` and `io` of a session, and `control` of `LoadControl`. -/
inductive Lock (S : Type) where
  | stop
  | server
  | send (x : S)
  | io (x : S)
  | control
deriving DecidableEq

abbrev Prog (S : Type) := Code (Lock S) S

/-! `TestSession`. -/

def beginIo (x : S) : Prog S := .locked (.io x) .skip

def finishIo (x : S) : Prog S := .locked (.io x) .skip

def hasPendingIo (x : S) : Prog S := .locked (.io x) .skip

/-- `~TestSession`, whose assertion is not in every build. -/
def destroy (x : S) : Prog S := opt (hasPendingIo x)

def waitForIo (x : S) : Prog S := .await (.io x)

def connect (x : S) : Prog S := .locked (.send x) .skip

def disconnect (x : S) : Prog S := .locked (.send x) .skip

def registerIocp (x : S) : Prog S := .locked (.send x) .skip

/-- `register_recv` and `register_send`: the operation is begun under the lock, and a failure ends the
connection after it. -/
def register (x : S) : Prog S :=
  block [.locked (.send x) (opt (block [beginIo x,opt (finishIo x)])),opt (disconnect x)]

def registerRecv (x : S) : Prog S := register x

def registerSend (x : S) : Prog S := register x

def start (x : S) : Prog S := oneOf [disconnect x,.skip,block [registerRecv x,opt (disconnect x)]]

def send (x : S) : Prog S := opt (block [.locked (.send x) .skip,opt (registerSend x)])

def beginLogin (x : S) : Prog S := .locked (.send x) .skip

def completeLogin (x : S) : Prog S := .locked (.send x) .skip

/-- `login` and `test_login`. -/
def login (x : S) : Prog S := opt (block [beginLogin x,opt (block [send x,opt (completeLogin x)])])

def waitForLogin (x : S) : Prog S := .await (.send x)

def waitForDisconnect (x : S) : Prog S := .await (.send x)

def logout (x : S) : Prog S := send x

def sendGetRoomInfo (x : S) : Prog S := send x

def completeEnterRoom (x : S) : Prog S := .locked (.send x) .skip

def completeExitRoom (x : S) : Prog S := .locked (.send x) .skip

def sendEnterRoom (x : S) : Prog S :=
  block [.locked (.send x) .skip,opt (block [send x,opt (completeEnterRoom x)])]

def sendExitRoom (x : S) : Prog S :=
  block [.locked (.send x) .skip,opt (block [send x,opt (completeExitRoom x)])]

/-- `send_chat` and `send_whisper_chat`. -/
def sendChat (x : S) : Prog S := opt (send x)

/-! The packet handlers. -/

def handleAckLogin (x : S) : Prog S := completeLogin x

/-- The bot logs in to its existing account, or gives up. -/
def handleAckBotLogin (x : S) : Prog S := block [completeLogin x,oneOf [.skip,login x,disconnect x]]

def handleAckLogout (x : S) : Prog S := disconnect x

def handleAckGetRoomInfo : Prog S := .skip

def handleAckEnterRoom (x : S) : Prog S := completeEnterRoom x

def handleAckExitRoom (x : S) : Prog S := completeExitRoom x

def handleAckChat : Prog S := .skip

def handleAckSendChat : Prog S := .skip

def handleAckSendConnectPing (x : S) : Prog S := send x

def handleAckServerFull (x : S) : Prog S := disconnect x

/-- `ClientPacketHandler::HandlePacket`. -/
def handlePacket (x : S) : Prog S :=
  oneOf
    [.skip,handleAckLogin x,handleAckBotLogin x,handleAckLogout x,handleAckGetRoomInfo,
     handleAckEnterRoom x,handleAckExitRoom x,handleAckChat,handleAckSendChat,
     handleAckSendConnectPing x,handleAckServerFull x]

def processRecv (x : S) : Prog S :=
  oneOf [.skip,disconnect x,block [.loop (handlePacket x),oneOf [disconnect x,registerRecv x]]]

def processSend (x : S) : Prog S :=
  block [.locked (.send x) .skip,oneOf [.skip,disconnect x,registerSend x]]

def sessionDispatch (x : S) : Prog S := block [oneOf [processSend x,processRecv x,.skip],finishIo x]

/-! `ClientServer`. -/

def createIocpHandle : Prog S := .locked .server .skip

def registerSocket (x : S) : Prog S :=
  .locked .server (oneOf [disconnect x,.skip,block [registerIocp x,opt (disconnect x)]])

def startWorkerThread : Prog S := .locked .server .skip

/-- `dispatch_once`, which first waits for a completion. -/
def dispatchOnce : Prog S := block [.sleep,opt (.choose sessionDispatch)]

def dispatch : Prog S := .loop dispatchOnce

/-- `stop`: without workers it takes the completions itself, otherwise it waits for them; then it joins
the workers and lets go of the sessions; those that nobody else holds are destroyed. -/
def stop : Prog S :=
  .locked .stop
    (block
      [.locked .server .skip,
       opt (block
        [.loop (.choose disconnect),
         oneOf
          [.loop (.choose fun x => .loop (block [hasPendingIo x,dispatchOnce])),
           .loop (.choose waitForIo)],
         .sleep,
         .loop (.choose destroy)])])

/-! `main`. -/

def controlWait : Prog S := .await .control

def controlStop : Prog S := .locked .control .skip

/-- The loop of a bot thread. -/
def botLoop : Prog S :=
  .loop (block [.loop (.choose fun x => oneOf [.skip,sendEnterRoom x,sendChat x]),controlWait])

/-- `run_load_test`. A session that does not start is destroyed at once, the others when the function
returns. -/
def runLoadTest : Prog S :=
  opt (block
    [createIocpHandle,
     opt (block
      [startWorkerThread,
       opt (block
        [.loop (.choose fun x =>
           block
            [connect x,opt (block [registerSocket x,opt (block [start x,opt (login x)])]),
             destroy x]),
         .loop .sleep,controlStop,.sleep,stop,.loop (.choose destroy)])])])

/-- A command line of the manual test. -/
def command (x : S) : Prog S :=
  oneOf
    [.skip,block [logout x,waitForDisconnect x],sendGetRoomInfo x,sendEnterRoom x,sendExitRoom x,
     sendChat x]

def runManualTest : Prog S :=
  opt (block
    [createIocpHandle,
     opt (block
      [startWorkerThread,
       opt (.choose fun x =>
         block
          [connect x,
           opt (block
            [registerSocket x,
             opt (block
              [start x,
               opt (block
                [.loop (block
                  [.sleep,opt (block [login x,opt (block [waitForLogin x,opt (disconnect x)])])]),
                 .loop (block [.sleep,command x]),stop])])]),
           destroy x])])])

inductive Thread (B W : Type) where
  | main
  | stats
  | bot (b : B)
  | worker (w : W)
deriving DecidableEq

/-- The threads of one run; `~ClientServer` calls `stop` again. -/
def code (loadTest : Bool) : Thread B W → Prog S
  | .main => block [if loadTest then runLoadTest else runManualTest,stop]
  | .stats => if loadTest then .loop controlWait else .skip
  | .bot _ => if loadTest then botLoop else .skip
  | .worker _ => dispatch

/-- The order in which the client takes its mutexes. -/
def rank : Lock S → Nat
  | .stop => 0
  | .server => 1
  | .send _ => 2
  | .io _ | .control => 3

/-- Only the main thread stops the client. -/
def order (S B W : Type) : Discipline (Thread B W) (Lock S) := ⟨rank,fun t l => l=.stop → t=.main⟩

@[simp] theorem order_rank (l : Lock S) : (order S B W).rank l=rank l := rfl

@[simp] theorem order_uses {t : Thread B W} {l : Lock S} :
    (order S B W).uses t l ↔ (l=.stop → t=.main) := Iff.rfl

section Fits

variable {t : Thread B W} {n : Nat} {q : Prop} {x : S}

attribute [local simp] Discipline.Fits rank

@[local simp] theorem disconnect_fits (hn : n ≤ 2) : (order S B W).Fits t n q (disconnect x) := by
  simpa [disconnect] using hn

@[local simp] theorem register_fits (hn : n ≤ 2) : (order S B W).Fits t n q (register x) := by
  simp [register,beginIo,finishIo,hn]

@[local simp] theorem send_fits (hn : n ≤ 2) : (order S B W).Fits t n q (send x) := by
  simp [send,registerSend,hn]

@[local simp] theorem login_fits (hn : n ≤ 2) : (order S B W).Fits t n q (login x) := by
  simp [login,beginLogin,completeLogin,hn]

@[local simp] theorem sendEnterRoom_fits (hn : n ≤ 2) :
    (order S B W).Fits t n q (sendEnterRoom x) := by
  simp [sendEnterRoom,completeEnterRoom,hn]

@[local simp] theorem handlePacket_fits (hn : n ≤ 2) :
    (order S B W).Fits t n q (handlePacket x) := by
  simp [handlePacket,handleAckLogin,handleAckBotLogin,handleAckLogout,handleAckGetRoomInfo,
    handleAckEnterRoom,handleAckExitRoom,handleAckChat,handleAckSendChat,handleAckSendConnectPing,
    handleAckServerFull,completeLogin,completeEnterRoom,completeExitRoom,hn]

@[local simp] theorem sessionDispatch_fits (hn : n ≤ 2) :
    (order S B W).Fits t n q (sessionDispatch x) := by
  have hio : n ≤ 3 := by omega
  simp [sessionDispatch,processSend,processRecv,registerRecv,registerSend,finishIo,hn,hio]

@[local simp] theorem dispatchOnce_fits (hn : n ≤ 2) (hq : q) :
    (order S B W).Fits t n q (dispatchOnce : Prog S) := by
  simp [dispatchOnce,hn,hq]

/-- While the client stops the main thread holds no lock that another thread uses. -/
@[local simp] theorem stop_fits : (order S B W).Fits .main 0 True (stop : Prog S) := by
  have hprivate : (order S B W).Private .main .stop := fun u hu => hu rfl
  simp [stop,hasPendingIo,destroy,waitForIo,hprivate]

theorem runLoadTest_fits : (order S B W).Fits .main 0 True (runLoadTest : Prog S) := by
  simp [runLoadTest,createIocpHandle,startWorkerThread,connect,registerSocket,registerIocp,start,
    registerRecv,destroy,hasPendingIo,controlStop]

theorem runManualTest_fits : (order S B W).Fits .main 0 True (runManualTest : Prog S) := by
  simp [runManualTest,createIocpHandle,startWorkerThread,connect,registerSocket,registerIocp,start,
    registerRecv,destroy,hasPendingIo,waitForLogin,command,logout,waitForDisconnect,sendGetRoomInfo,sendExitRoom,
    completeExitRoom,sendChat]

end Fits

theorem code_fits (loadTest : Bool) (t : Thread B W) :
    (order S B W).Fits t 0 True (code loadTest t : Prog S) := by
  cases t with
  | main => cases loadTest <;> simp [code,runLoadTest_fits,runManualTest_fits,stop_fits]
  | stats => cases loadTest <;> simp [code,Discipline.Fits,controlWait]
  | bot b => cases loadTest <;> simp [code,botLoop,sendChat,controlWait,Discipline.Fits,send_fits,
      sendEnterRoom_fits]
  | worker w => simp [code,dispatch,Discipline.Fits,dispatchOnce_fits]

theorem rank_le (l : Lock S) : rank l ≤ 3 := by
  cases l <;> simp [rank]

/-- The client never deadlocks either, in a load test and in a manual one; a thread that sleeps owns no
lock but that of `stop`, and only if it is the main thread. -/
theorem client_never_deadlocks [DecidableEq S] [DecidableEq B] [DecidableEq W] [Nonempty S]
    {loadTest : Bool} {s : State (Thread B W) (Lock S) S}
    (h : Reaches Locks.step Any (State.init (code loadTest)) s) :
    (∀ t, s.todo t≠[] → ¬Sleeps (s.todo t) →
      (∃ u, Relation.ReflTransGen (WaitsFor s) t u ∧ Ready s u) ∧
      ∃ s', Reaches Locks.step (fun _ a => a.thread≠t) s s' ∧ s'.todo t=s.todo t ∧ Ready s' t) ∧
    ∀ t l, Sleeps (s.todo t) → s.owner l=some t → t=.main ∧ l=.stop := by
  have hinv := Locks.reaches_inv (d:=order S B W) (code_fits loadTest) h
  refine ⟨fun t hwork hawake => ⟨hinv.exists_ready rank_le hwork hawake,
    hinv.can_go_on rank_le hwork hawake⟩,?_⟩
  intro t l hsleeps howner
  have hprivate := hinv.private_of_sleeps hsleeps howner
  by_cases hl : l=.stop
  · exact ⟨(hprivate .main fun _ => rfl).symm,hl⟩
  · have hmain : Thread.main=t := hprivate .main fun _ => rfl
    have hstats : Thread.stats=t := hprivate .stats fun he => absurd he hl
    rw [← hstats] at hmain
    cases hmain

/-- A worker enters its loop and takes a completion of its session. -/
def complete (w : Bool) : List (Locks.Action (Thread Unit Bool) Unit) :=
  [true,true,true,true,true,true,false,true,true,true,true].map fun first => ⟨.worker w,first,()⟩

/-- Two workers process completions of one session, and the first of them has its lock. -/
def contention : List (Locks.Action (Thread Unit Bool) Unit) :=
  complete false++complete true++[⟨.worker false,true,()⟩]

theorem client_never_deadlocks_contention :
    ∃ s : State (Thread Unit Bool) (Lock Unit) Unit,
      runActions Locks.step (State.init (code true)) contention=some s ∧
      WaitsFor s (.worker true) (.worker false) ∧
      (∃ u, Relation.ReflTransGen (WaitsFor s) (.worker true) u ∧ Ready s u) ∧
      ∃ s', Reaches Locks.step (fun _ a => a.thread≠.worker true) s s' ∧
        s'.todo (.worker true)=s.todo (.worker true) ∧ Ready s' (.worker true) := by
  refine ⟨_,rfl,⟨.send (),rfl,rfl⟩,?_⟩
  refine (client_never_deadlocks (Reaches.of_runActions (fun _ _ => trivial) contention rfl)).1
    (.worker true) ?_ ?_
  · intro he
    cases he
  · exact id

end IocpServer.TestClient.LockOrder
