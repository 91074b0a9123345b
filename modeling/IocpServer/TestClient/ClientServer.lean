import IocpServer.TestClient.TestSession

namespace IocpServer.TestClient.ClientServer

variable {S β : Type}

/-- A session with its count of pending operations. `sendLock` is held from `begin_io` to the end of
the section that registers; every other section under `_send_lock` is one step, which needs it free.
`begun` is a history: how often `begin_io` was called. -/
structure Client (β : Type) where
  session : TestSession β
  pendingIo : Int
  sendLock : Bool
  begun : Nat

/-- The fields of `ClientServer`, the quit packets in the port and the threads that are created and
do not run yet. `created`, `quitTaken`, `closed` and `released` are histories: the number of threads,
the workers in the order in which they took a quit packet, the sessions that `stop` has disconnected
with the number of operations begun until then, and those it has released. -/
structure Server (S : Type) where
  iocpHandle : Bool
  stopped : Bool
  stopLock : Bool
  sessions : List S
  workerThreads : List Nat
  unborn : List Nat
  quits : Nat
  created : Nat
  quitTaken : List Nat
  closed : List (S×Nat)
  released : List S

structure Core (S β : Type) where
  clients : S → Client β
  server : Server S

/-- Where a thread is in `stop`. -/
inductive Stop (S : Type) where
  | acquire
  | begin
  | disconnect (todo sessions : List S)
  | drain (todo : List S)
  | wait (todo : List S)
  | post (n : Nat)
  | join (todo : List Nat)
  | clear
  | closeHandle
  | release

/-- Where a thread is. `calling` is the section of `register_recv` or `register_send` between
`begin_io` and the system call, and `finishIo` the end of `TestSession::dispatch`. -/
inductive Call (S β : Type) where
  | body (x : S) (f : Frame β)
  | calling (x : S) (f : Frame β)
  | finishIo (x : S)
  | registerSocket (x : S)
  | dispatch (w : Nat)
  | dispatchOnce
  | stop (p : Stop S)

/-- What `GetQueuedCompletionStatus` brings. -/
inductive Take (S : Type) where
  | timeout
  | quit
  | recv (x : S) (numBytes : Nat)
  | send (x : S) (index : Nat) (numBytes : BitVec 32)

structure Pick (S : Type) extends Choice where
  take : Take S

/-- The calls of `main` and of the users of a session. `runWorker` is the start of a created thread,
and the transport takes bytes by an entry of its session. -/
inductive Use (S β : Type) where
  | session (x : S) (entry : Entry β)
  | createIocpHandle (ok : Bool)
  | registerSocket (x : S)
  | startWorkerThread (threadCount : Int)
  | runWorker (w : Nat)
  | stop

/-- Whether the method section at this frame is under `_send_lock`. -/
def takesLock (e : Env β) : Frame β → Bool
  | .start | .startRecv | .processRecv _ | .onRecv | .onRecvNext | .logout | .setAccount _
  | .setIsLogin _ | .send none _ => false
  | .send (some b) _ => decide ((e.sendBuffer b).writeSize≠0)
  | _ => true

/-- Whether the section comes to `begin_io`. -/
def begins (e : Env β) (c : TestSession β) : Frame β → Bool
  | .registerRecv _ => c.isConnect
  | .registerSend _ => c.isConnect && !(c.drain e).sendEvent.buildWsabufs.isEmpty
  | _ => false

namespace Core

variable [DecidableEq S]

def init (botIndex : S → UInt32) : Core S β :=
  ⟨fun x => ⟨TestSession.init (botIndex x),0,false,0⟩,⟨false,false,false,[],[],[],0,0,[],[],[]⟩⟩

def setClient (c : Core S β) (x : S) (k : Client β) : Core S β :=
  { c with clients := Function.update c.clients x k }

def setServer (c : Core S β) (server : Server S) : Core S β := { c with server }

/-- One section of a method of the session `x`. -/
def body (e : Env β) (c : Core S β) (o : Choice) (x : S) (f : Frame β) :
    Option (Core S β×List (Call S β)) :=
  if takesLock e f && (c.clients x).sendLock then none
  else if begins e (c.clients x).session f then
    some (c.setClient x { c.clients x with
      pendingIo := (c.clients x).pendingIo+1, sendLock := true, begun := (c.clients x).begun+1 },
      [.calling x f])
  else
    (exec e (c.clients x).session o f).map fun r =>
      (c.setClient x { c.clients x with session := r.1 },r.2.map (.body x))

/-- The system call of a registration. If it fails at once, `finish_io` follows. -/
def calling (e : Env β) (c : Core S β) (o : Choice) (x : S) (f : Frame β) :
    Option (Core S β×List (Call S β)) :=
  (exec e (c.clients x).session o f).map fun r =>
    (c.setClient x { c.clients x with
      session := r.1, sendLock := false,
      pendingIo := if o.ok then (c.clients x).pendingIo else (c.clients x).pendingIo-1 },
      r.2.map (.body x))

def finishIo (c : Core S β) (x : S) : Core S β :=
  c.setClient x { c.clients x with pendingIo := (c.clients x).pendingIo-1 }

/-- `register_socket` and the `register_iocp` it calls; `ok` is the answer of the port. -/
def registerSocket (c : Core S β) (ok : Bool) (x : S) : Option (Core S β×List (Call S β)) :=
  if c.server.stopped ∨ c.server.iocpHandle=false then some (c,[.body x disconnect])
  else if x∈c.server.sessions then some (c,[])
  else if (c.clients x).sendLock then none
  else if (c.clients x).session.isConnect=false then some (c,[.body x disconnect])
  else if ok then
    some (c.setServer { c.server with sessions := c.server.sessions++[x] },[])
  else some (c,[.body x disconnect])

/-- A completion of a session, which `TestSession::dispatch` handles. -/
def complete (e : Env β) (c : Core S β) (x : S) (entry : Entry β) :
    Option (Core S β×List (Call S β)) :=
  if x∈c.server.sessions then
    (enter e (c.clients x).session entry).map fun r =>
      (c.setClient x { c.clients x with session := r.1 },r.2.map (.body x)++[.finishIo x])
  else none

/-- One round of the loop of `dispatch`. -/
def dispatch (e : Env β) (c : Core S β) (take : Take S) (w : Nat) :
    Option (Core S β×List (Call S β)) :=
  match take with
  | .timeout => none
  | .quit =>
    if c.server.quits=0 then none
    else
      some (c.setServer { c.server with
        quits := c.server.quits-1, quitTaken := c.server.quitTaken++[w] },[])
  | .recv x numBytes =>
    (c.complete e x (.recvCompleted numBytes)).map fun r => (r.1,r.2++[.dispatch w])
  | .send x index numBytes =>
    (c.complete e x (.sendCompleted index numBytes)).map fun r => (r.1,r.2++[.dispatch w])

/-- `dispatch_once` as `stop` calls it, which does not look at the answer. -/
def dispatchOnce (e : Env β) (c : Core S β) (take : Take S) : Option (Core S β×List (Call S β)) :=
  match take with
  | .timeout => some (c,[])
  | .quit =>
    if c.server.quits=0 then none
    else some (c.setServer { c.server with quits := c.server.quits-1 },[])
  | .recv x numBytes => c.complete e x (.recvCompleted numBytes)
  | .send x index numBytes => c.complete e x (.sendCompleted index numBytes)

/-- One statement of `stop`. -/
def stop (c : Core S β) : Stop S → Option (Core S β×List (Call S β))
  | .acquire =>
    if c.server.stopLock then none
    else some (c.setServer { c.server with stopLock := true },[.stop .begin])
  | .begin =>
    if c.server.stopped then some (c,[.stop .release])
    else
      some (c.setServer { c.server with stopped := true },
        [.stop (.disconnect c.server.sessions c.server.sessions)])
  | .disconnect [] sessions =>
    some (c,[.stop (if c.server.workerThreads=[] then .drain sessions else .wait sessions)])
  | .disconnect (x::todo) sessions =>
    if (c.clients x).sendLock then none
    else
      some ((c.setClient x { c.clients x with session := (c.clients x).session.disconnect }).setServer
        { c.server with closed := c.server.closed++[(x,(c.clients x).begun)] },
        [.stop (.disconnect todo sessions)])
  | .drain [] => some (c,[.stop (.post c.server.workerThreads.length)])
  | .drain (x::todo) =>
    if (c.clients x).pendingIo≠0 then some (c,[.dispatchOnce,.stop (.drain (x::todo))])
    else some (c,[.stop (.drain todo)])
  | .wait [] => some (c,[.stop (.post c.server.workerThreads.length)])
  | .wait (x::todo) => if (c.clients x).pendingIo=0 then some (c,[.stop (.wait todo)]) else none
  | .post 0 => some (c,[.stop (.join c.server.workerThreads)])
  | .post (n+1) =>
    some (c.setServer { c.server with quits := c.server.quits+1 },[.stop (.post n)])
  | .join [] => some (c,[.stop .clear])
  | .join (w::todo) => if w∈c.server.quitTaken then some (c,[.stop (.join todo)]) else none
  | .clear =>
    some (c.setServer { c.server with
      workerThreads := [], sessions := [], released := c.server.released++c.server.sessions },
      [.stop .closeHandle])
  | .closeHandle => some (c.setServer { c.server with iocpHandle := false },[.stop .release])
  | .release => some (c.setServer { c.server with stopLock := false },[])

/-- One step of a thread. -/
def exec (e : Env β) (c : Core S β) (o : Pick S) : Call S β → Option (Core S β×List (Call S β))
  | .body x f => c.body e o.toChoice x f
  | .calling x f => c.calling e o.toChoice x f
  | .finishIo x => some (c.finishIo x,[])
  | .registerSocket x => c.registerSocket o.ok x
  | .dispatch w => c.dispatch e o.take w
  | .dispatchOnce => c.dispatchOnce e o.take
  | .stop p => c.stop p

/-- The threads that `start_worker_thread` creates. -/
def startWorkerThread (c : Core S β) (threadCount : Int) : Core S β :=
  if c.server.stopped ∨ c.server.iocpHandle=false ∨ threadCount<1 ∨ 256<threadCount then c
  else
    let ids := List.range' c.server.created threadCount.toNat
    c.setServer { c.server with
      workerThreads := c.server.workerThreads++ids, unborn := c.server.unborn++ids,
      created := c.server.created+threadCount.toNat }

/-- An operation of the session `x` that is no completion: those come through the port. -/
def use (e : Env β) (c : Core S β) (x : S) (entry : Entry β) : Option (Core S β×List (Call S β)) :=
  match entry with
  | .recvCompleted _ | .sendCompleted _ _ => none
  | .connect ok =>
    if (c.clients x).sendLock then none
    else
      some (c.setClient x { c.clients x with session := (c.clients x).session.connect ok },[])
  | entry =>
    (enter e (c.clients x).session entry).map fun r =>
      (c.setClient x { c.clients x with session := r.1 },r.2.map (.body x))

def enter (e : Env β) (c : Core S β) : Use S β → Option (Core S β×List (Call S β))
  | .session x entry => c.use e x entry
  | .createIocpHandle ok =>
    if c.server.stopped ∨ c.server.iocpHandle then some (c,[])
    else some (c.setServer { c.server with iocpHandle := ok },[])
  | .registerSocket x => some (c,[.registerSocket x])
  | .startWorkerThread threadCount => some (c.startWorkerThread threadCount,[])
  | .runWorker w =>
    if w∈c.server.unborn then
      some (c.setServer { c.server with unborn := c.server.unborn.erase w },[.dispatch w])
    else none
  | .stop => some (c,[.stop .acquire])

end Core

/-- The client with all its threads. -/
def object [DecidableEq S] (e : Env β) : Pool.Object (Core S β) (Call S β) (Pick S) (Use S β) :=
  ⟨Core.exec e,Core.enter e⟩

abbrev State (T S β : Type) := Pool.State T (Core S β) (Call S β)

abbrev step {T : Type} [DecidableEq T] [DecidableEq S] (e : Env β) :
    State T S β → Pool.Action T (Pick S) (Use S β) → Option (State T S β) :=
  Pool.step (object e)

end IocpServer.TestClient.ClientServer
