import IocpServer.NetWork.SendPipeline

namespace IocpServer.NetWork.Lifecycle

open SendPipeline (At advance)

/-- A job of `_logic_queue`: the handler of a packet or the cleanup of `process_disconnect`. -/
inductive Job (R : Type) where
  | packet (pkt : R)
  | cleanup

def Job.isCleanup {R : Type} : Job R → Bool
  | .cleanup => true
  | .packet _ => false

/-- Where a thread stands in the methods of a session; `pipe` are the points of the send path and of
`disconnect`. `finishIo` is what `IocpCore::dispatch` does after a callback. -/
inductive Frame (R : Type) where
  | addSession
  | processConnect
  | storeConnect
  | countConnect
  | rejectConnection
  | rejectStore
  | rejectClose
  | rejectCount
  | rejectNotice
  | registerRecv
  | processRecv (numOfBytes : Nat)
  | onRecv
  | onRecvNext
  | postLogic (pkt : R)
  | pipe (pc : At)
  | queueCleanup
  | job (job : Job R)
  | body (cleanup : Bool)
  | endJob
  | finishIo

/-- The connection side of a `Session`. The job queue is what its serialization makes of it: a list
with at most one job running. `offered`, `admitted`, `hadConnected`, `welcomed` and `closing` are
histories, which no step reads: the session was handed to `on_connected`, was added, has been
connected, has passed `_was_connected.store(true)` of `process_connect`, was told to shut down;
`queued` and `ran` count its cleanup jobs. -/
structure Core (R : Type) where
  pipe : SendPipeline.Session
  logicStopped : Bool
  pendingIo : Nat
  receiving : Bool
  jobs : List (Job R)
  pendingJobs : Nat
  running : Bool
  offered : Bool
  admitted : Bool
  hadConnected : Bool
  welcomed : Bool
  closing : Bool
  queued : Nat
  ran : Nat

variable {R : Type}

def Core.init : Core R :=
  { pipe := { SendPipeline.Session.init false with isConnect := false }, logicStopped := false,
    pendingIo := 0, receiving := false, jobs := [], pendingJobs := 0, running := false,
    offered := false, admitted := false, hadConnected := false, welcomed := false, closing := false,
    queued := 0, ran := 0 }

/-- What the loop of `on_recv` finds next in the buffer: too few bytes, a malformed header, a packet
without a handler or with a body that does not parse, or a packet for the job queue. -/
inductive Recv (R : Type) where
  | wait
  | malformed
  | skip
  | packet (pkt : R)

/-- What the running job does next. -/
inductive Body where
  | done
  | next
  | send (sendBuffer : SendBuffer)
  | disconnect

/-- What is decided outside the session: the outcome of a system call, the received data, the answer
of `add_session` (`none` for a full server, otherwise whether the session was new), the notice for a
rejected client and the running job. -/
structure Choice (R : Type) where
  ok : Bool
  recv : Recv R
  admission : Option Bool
  notice : Option SendBuffer
  body : Body

/-- What a step of the send path means for the other fields: a registered operation is begun, and
`begin_shutdown` stops the job queue. -/
def pipeEffect (c : Core R) (ok : Bool) (pc : At) (p : SendPipeline.Session) : Core R :=
  match pc with
  | .transmit =>
    if c.pipe.sendEvent.buildWsabufs≠[] ∧ ok then { c with pipe := p, pendingIo := c.pendingIo+1 }
    else { c with pipe := p }
  | .registerDisconnect =>
    if c.pipe.shutdownStarted=false ∧ ok then { c with pipe := p, pendingIo := c.pendingIo+1 }
    else { c with pipe := p }
  | .beginShutdown =>
    if c.pipe.shutdownStarted then { c with pipe := p } else { c with pipe := p, logicStopped := true }
  | _ => { c with pipe := p }

theorem pipeEffect_eq (c : Core R) (ok : Bool) (pc : At) (p : SendPipeline.Session) :
    ∃ n b, pipeEffect c ok pc p={ c with pipe := p, pendingIo := n, logicStopped := b } := by
  unfold pipeEffect
  split
  · split <;> exact ⟨_,_,rfl⟩
  · split <;> exact ⟨_,_,rfl⟩
  · split <;> exact ⟨_,_,rfl⟩
  · exact ⟨_,_,rfl⟩

/-- `process_disconnect` goes on to queue the cleanup; the other methods end where `At` ends. -/
def pipeNext (pc : At) : At → List (Frame R)
  | .idle =>
    match pc with
    | .closeFlags => [.queueCleanup]
    | _ => []
  | next => [.pipe next]

/-- What counts neither the send path nor the queueing of the cleanup counts nothing that comes of a
step of the send path. -/
theorem sum_pipeNext {w : Frame R → Nat} (hpipe : ∀ pc, w (.pipe pc)=0) (hqueue : w .queueCleanup=0)
    (pc pc' : At) : ((pipeNext pc pc').map w).sum=0 := by
  unfold pipeNext
  split
  · split
    · simp [hqueue]
    · rfl
  · simp [hpipe]

def disconnect : Frame R := .pipe (.disconnect false)

/-- `queue_logic`, whose `_logic_lock` makes it one step. -/
def Core.queueLogic (c : Core R) (j : Job R) : Core R :=
  { c with jobs := c.jobs++[j], pendingJobs := c.pendingJobs+1 }

/-- One step of a thread in a method of the session: the new fields and what the thread goes on with.
Sections under `_io_lock` in `register_recv` are one step; `none` means waiting for that lock. -/
def exec (c : Core R) (o : Choice R) : Frame R → Option (Core R×List (Frame R))
  | .addSession =>
    match o.admission with
    | none => some (c,[.rejectConnection])
    | some true => some ({ c with admitted := true },[.processConnect])
    | some false => some (c,[])
  | .processConnect => some ({ c with welcomed := true },[.storeConnect])
  | .storeConnect =>
    some ({ c with pipe := { c.pipe with isConnect := true }, hadConnected := true },[.countConnect])
  | .countConnect => some (c,[.registerRecv])
  | .rejectConnection =>
    if c.pipe.isConnect then some (c,[])
    else
      some ({ c with pipe := { c.pipe with isConnect := true }, hadConnected := true },[.rejectStore])
  | .rejectStore => some (c,[.rejectClose])
  | .rejectClose => some ({ c with pipe := { c.pipe with closeAfterSend := true } },[.rejectCount])
  | .rejectCount => some (c,[.rejectNotice])
  | .rejectNotice =>
    match o.notice with
    | none => some (c,[disconnect])
    | some notice => some (c,[.pipe (.send notice)])
  | .registerRecv =>
    if c.pipe.ioLock then none
    else if c.pipe.shutdownStarted || !c.pipe.isConnect then some (c,[])
    else if o.ok then some ({ c with receiving := true, pendingIo := c.pendingIo+1 },[])
    else some (c,[disconnect])
  | .processRecv numOfBytes =>
    if c.pipe.isConnect=false then some (c,[])
    else if numOfBytes=0 then some (c,[disconnect])
    else if o.ok then some (c,[.onRecv])
    else some (c,[disconnect])
  | .onRecv =>
    match o.recv with
    | .wait => some (c,[.registerRecv])
    | .malformed => some (c,[disconnect])
    | .skip => some (c,[.onRecvNext])
    | .packet pkt => some (c,[.postLogic pkt,.onRecvNext])
  | .onRecvNext => some (c,[if c.pipe.isConnect then .onRecv else .registerRecv])
  | .postLogic pkt => some (if c.logicStopped then c else c.queueLogic (.packet pkt),[])
  | .pipe pc =>
    (advance c.pipe o.ok pc).map fun r => (pipeEffect c o.ok pc r.1,pipeNext pc r.2)
  | .queueCleanup => some ({ c.queueLogic .cleanup with queued := c.queued+1 },[])
  | .job (.packet _) => some (c,[if c.pipe.isConnect then .body false else .endJob])
  | .job .cleanup => some (c,[.body true])
  | .body cleanup =>
    match o.body with
    | .done => some ({ c with ran := if cleanup then c.ran+1 else c.ran },[.endJob])
    | .next => some (c,[.body cleanup])
    | .send sendBuffer => some (c,[.pipe (.send sendBuffer),.body cleanup])
    | .disconnect => some (c,[disconnect,.body cleanup])
  | .endJob => some ({ c with pendingJobs := c.pendingJobs-1, running := false },[])
  | .finishIo => some ({ c with pendingIo := c.pendingIo-1 },[])

/-- Everything the next step of a thread in a method of the session can do. -/
inductive Move (c : Core R) : Frame R → Core R → List (Frame R) → Prop
  | full : Move c .addSession c [.rejectConnection]
  | added : Move c .addSession { c with admitted := true } [.processConnect]
  | known : Move c .addSession c []
  | processConnect : Move c .processConnect { c with welcomed := true } [.storeConnect]
  | storeConnect :
      Move c .storeConnect { c with pipe := { c.pipe with isConnect := true }, hadConnected := true }
        [.countConnect]
  | countConnect : Move c .countConnect c [.registerRecv]
  | connected (hon : c.pipe.isConnect=true) : Move c .rejectConnection c []
  | rejectConnection (hoff : c.pipe.isConnect=false) :
      Move c .rejectConnection
        { c with pipe := { c.pipe with isConnect := true }, hadConnected := true } [.rejectStore]
  | rejectStore : Move c .rejectStore c [.rejectClose]
  | rejectClose :
      Move c .rejectClose { c with pipe := { c.pipe with closeAfterSend := true } } [.rejectCount]
  | rejectCount : Move c .rejectCount c [.rejectNotice]
  | noNotice : Move c .rejectNotice c [disconnect]
  | notice (notice : SendBuffer) : Move c .rejectNotice c [.pipe (.send notice)]
  | recvOff (hoff : c.pipe.shutdownStarted=true ∨ c.pipe.isConnect=false) :
      Move c .registerRecv c []
  | receive (hfree : c.pipe.ioLock=false) (hshut : c.pipe.shutdownStarted=false)
      (hon : c.pipe.isConnect=true) :
      Move c .registerRecv { c with receiving := true, pendingIo := c.pendingIo+1 } []
  | recvFailed (hon : c.pipe.isConnect=true) : Move c .registerRecv c [disconnect]
  | received (numOfBytes : Nat) (hon : c.pipe.isConnect=true) :
      Move c (.processRecv numOfBytes) c [.onRecv]
  | receivedOff (numOfBytes : Nat) (hoff : c.pipe.isConnect=false) :
      Move c (.processRecv numOfBytes) c []
  | unreadable (numOfBytes : Nat) (hon : c.pipe.isConnect=true) :
      Move c (.processRecv numOfBytes) c [disconnect]
  | wait : Move c .onRecv c [.registerRecv]
  | malformed : Move c .onRecv c [disconnect]
  | skip : Move c .onRecv c [.onRecvNext]
  | packet (pkt : R) : Move c .onRecv c [.postLogic pkt,.onRecvNext]
  | recvNext (hon : c.pipe.isConnect=true) : Move c .onRecvNext c [.onRecv]
  | recvEnd (hoff : c.pipe.isConnect=false) : Move c .onRecvNext c [.registerRecv]
  | postLogic (pkt : R) (hopen : c.logicStopped=false) :
      Move c (.postLogic pkt) (c.queueLogic (.packet pkt)) []
  | stopped (pkt : R) (hstop : c.logicStopped=true) : Move c (.postLogic pkt) c []
  | pipe (ok : Bool) (pc : At) (p : SendPipeline.Session) (pc' : At)
      (ha : advance c.pipe ok pc=some (p,pc')) :
      Move c (.pipe pc) (pipeEffect c ok pc p) (pipeNext pc pc')
  | queueCleanup : Move c .queueCleanup { c.queueLogic .cleanup with queued := c.queued+1 } []
  | handle (pkt : R) (hon : c.pipe.isConnect=true) : Move c (.job (.packet pkt)) c [.body false]
  | drop (pkt : R) (hoff : c.pipe.isConnect=false) : Move c (.job (.packet pkt)) c [.endJob]
  | cleanup : Move c (.job .cleanup) c [.body true]
  | done (cleanup : Bool) :
      Move c (.body cleanup) { c with ran := if cleanup then c.ran+1 else c.ran } [.endJob]
  | next (cleanup : Bool) : Move c (.body cleanup) c [.body cleanup]
  | send (cleanup : Bool) (sendBuffer : SendBuffer) :
      Move c (.body cleanup) c [.pipe (.send sendBuffer),.body cleanup]
  | disconnect (cleanup : Bool) :
      Move c (.body cleanup) c [Lifecycle.disconnect,.body cleanup]
  | endJob : Move c .endJob { c with pendingJobs := c.pendingJobs-1, running := false } []
  | finishIo : Move c .finishIo { c with pendingIo := c.pendingIo-1 } []

theorem exec_move {c c' : Core R} {o : Choice R} {f : Frame R} {fs : List (Frame R)}
    (h : exec c o f=some (c',fs)) : Move c f c' fs := by
  cases f with
  | addSession =>
    simp only [exec] at h
    split at h <;> cases h
    · exact .full
    · exact .added
    · exact .known
  | processConnect =>
    cases h
    exact .processConnect
  | storeConnect =>
    cases h
    exact .storeConnect
  | countConnect =>
    cases h
    exact .countConnect
  | rejectConnection =>
    simp only [exec] at h
    split at h <;> cases h
    · exact .connected ‹_›
    · exact .rejectConnection (Bool.eq_false_iff.mpr ‹_›)
  | rejectStore =>
    cases h
    exact .rejectStore
  | rejectClose =>
    cases h
    exact .rejectClose
  | rejectCount =>
    cases h
    exact .rejectCount
  | rejectNotice =>
    simp only [exec] at h
    split at h <;> cases h
    · exact .noNotice
    · exact .notice _
  | registerRecv =>
    simp only [exec] at h
    split at h
    · cases h
    rename_i hfree
    split at h
    · rename_i hoff
      cases h
      exact .recvOff (by simpa using hoff)
    rename_i hgo
    simp only [Bool.or_eq_true,Bool.not_eq_true',not_or,Bool.not_eq_true,Bool.not_eq_false] at hgo
    split at h <;> cases h
    · exact .receive (Bool.eq_false_iff.mpr hfree) hgo.1 hgo.2
    · exact .recvFailed hgo.2
  | processRecv numOfBytes =>
    simp only [exec] at h
    split at h
    · cases h
      exact .receivedOff numOfBytes ‹_›
    rename_i hon
    have hon : c.pipe.isConnect=true := by simpa using hon
    split at h
    · cases h
      exact .unreadable numOfBytes hon
    split at h <;> cases h
    · exact .received numOfBytes hon
    · exact .unreadable numOfBytes hon
  | onRecv =>
    simp only [exec] at h
    split at h <;> cases h
    · exact .wait
    · exact .malformed
    · exact .skip
    · exact .packet _
  | onRecvNext =>
    cases h
    split
    · exact .recvNext ‹_›
    · exact .recvEnd (Bool.eq_false_iff.mpr ‹_›)
  | postLogic pkt =>
    cases h
    split
    · exact .stopped pkt ‹_›
    · exact .postLogic pkt (Bool.eq_false_iff.mpr ‹_›)
  | pipe pc =>
    simp only [exec,Option.map_eq_some_iff,Prod.exists] at h
    obtain ⟨p,pc',ha,h⟩ := h
    cases h
    exact .pipe o.ok pc p pc' ha
  | queueCleanup =>
    cases h
    exact .queueCleanup
  | job j =>
    cases j with
    | packet pkt =>
      cases h
      split
      · exact .handle pkt ‹_›
      · exact .drop pkt (Bool.eq_false_iff.mpr ‹_›)
    | cleanup =>
      cases h
      exact .cleanup
  | body cleanup =>
    simp only [exec] at h
    split at h <;> cases h
    · exact .done cleanup
    · exact .next cleanup
    · exact .send cleanup _
    · exact .disconnect cleanup
  | endJob =>
    cases h
    exact .endJob
  | finishIo =>
    cases h
    exact .finishIo

/-- Calls of the session's methods that start on a thread, and jobs that it takes from the queue.
`clearSend` is the end of `wait_for_shutdown`. -/
inductive Entry where
  | offer
  | send (sendBuffer : SendBuffer)
  | disconnect
  | beginShutdown
  | recvCompleted (numOfBytes : Nat)
  | sendCompleted (numOfBytes : BitVec 32)
  | disconnectCompleted
  | startJob
  | clearSend

/-- The frames a thread starts with. A completion carries at most the registered amount, and a
failed one carries none. -/
def enter (c : Core R) : Entry → Option (Core R×List (Frame R))
  | .offer => some ({ c with offered := true },[.addSession])
  | .send sendBuffer => some (c,[.pipe (.send sendBuffer)])
  | .disconnect => some (c,[disconnect])
  | .beginShutdown => some ({ c with closing := true },[.pipe .beginShutdown])
  | .recvCompleted numOfBytes =>
    if c.receiving then some ({ c with receiving := false },[.processRecv numOfBytes,.finishIo])
    else none
  | .sendCompleted numOfBytes =>
    match c.pipe.flight with
    | some bytes =>
      if numOfBytes.toNat ≤ bytes.length then
        some ({ c with pipe := { c.pipe with
                  flight := none, wire := c.pipe.wire++bytes.take numOfBytes.toNat } },
          [.pipe (.processSend numOfBytes),.finishIo])
      else none
    | none => none
  | .disconnectCompleted =>
    if c.pipe.disconnecting then
      some ({ c with pipe := { c.pipe with disconnecting := false } },
        [.pipe .processDisconnect,.finishIo])
    else none
  | .startJob =>
    match c.jobs,c.running with
    | j::rest,false => some ({ c with jobs := rest, running := true },[.job j])
    | _,_ => none
  | .clearSend =>
    some ({ c with pipe := { c.pipe with sendQueue := [], sendEvent := SendEvent.clear } },[])

/-- Everything a call from outside can start. -/
inductive Enters (c : Core R) : Entry → Core R → List (Frame R) → Prop
  | offer : Enters c .offer { c with offered := true } [.addSession]
  | send (sendBuffer : SendBuffer) : Enters c (.send sendBuffer) c [.pipe (.send sendBuffer)]
  | disconnect : Enters c .disconnect c [Lifecycle.disconnect]
  | beginShutdown : Enters c .beginShutdown { c with closing := true } [.pipe .beginShutdown]
  | recvCompleted (numOfBytes : Nat) (hrecv : c.receiving=true) :
      Enters c (.recvCompleted numOfBytes) { c with receiving := false }
        [.processRecv numOfBytes,.finishIo]
  | sendCompleted (numOfBytes : BitVec 32) (bytes : List UInt8) (hflight : c.pipe.flight=some bytes)
      (hle : numOfBytes.toNat ≤ bytes.length) :
      Enters c (.sendCompleted numOfBytes)
        { c with pipe := { c.pipe with
            flight := none, wire := c.pipe.wire++bytes.take numOfBytes.toNat } }
        [.pipe (.processSend numOfBytes),.finishIo]
  | disconnectCompleted (hdisc : c.pipe.disconnecting=true) :
      Enters c .disconnectCompleted { c with pipe := { c.pipe with disconnecting := false } }
        [.pipe .processDisconnect,.finishIo]
  | startJob (j : Job R) (rest : List (Job R)) (hjobs : c.jobs=j::rest) (hrun : c.running=false) :
      Enters c .startJob { c with jobs := rest, running := true } [.job j]
  | clearSend :
      Enters c .clearSend
        { c with pipe := { c.pipe with sendQueue := [], sendEvent := SendEvent.clear } } []

theorem enter_enters {c c' : Core R} {e : Entry} {fs : List (Frame R)}
    (h : enter c e=some (c',fs)) : Enters c e c' fs := by
  cases e with
  | offer =>
    cases h
    exact .offer
  | send sendBuffer =>
    cases h
    exact .send sendBuffer
  | disconnect =>
    cases h
    exact .disconnect
  | beginShutdown =>
    cases h
    exact .beginShutdown
  | recvCompleted numOfBytes =>
    simp only [enter] at h
    split at h <;> cases h
    exact .recvCompleted numOfBytes ‹_›
  | sendCompleted numOfBytes =>
    simp only [enter] at h
    split at h
    · rename_i bytes hflight
      split at h <;> cases h
      exact .sendCompleted numOfBytes bytes hflight ‹_›
    · cases h
  | disconnectCompleted =>
    simp only [enter] at h
    split at h <;> cases h
    exact .disconnectCompleted ‹_›
  | startJob =>
    simp only [enter] at h
    split at h <;> cases h
    exact .startJob _ _ ‹_› ‹_›
  | clearSend =>
    cases h
    exact .clearSend

end IocpServer.NetWork.Lifecycle
