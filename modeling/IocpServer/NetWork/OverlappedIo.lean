import IocpServer.Framework.Pool
import IocpServer.NetWork.SendPipeline

namespace IocpServer.NetWork.OverlappedIo

open SendPipeline (maxSendQueueSize)

/-- The overlapped events of a session: `_recv_event`, `_send_event` and `_disconnect_event`. -/
inductive Event where
  | recv
  | send
  | disconnect
deriving DecidableEq

/-- What `WSARecv`, `WSASend` or `DisconnectEx` reports. Synchronous success queues a completion as
`WSA_IO_PENDING` does; after any other error there is none. -/
inductive Call where
  | success
  | pending
  | error (errorCode : Int)

def Call.registered : Call → Bool
  | .success | .pending => true
  | .error _ => false

/-- Where a thread stands in a method of the session. From `setOwner` to `unlock`, `failedUnlock` or
`emptyUnlock`, and at `shutdownFlags` and `closeSocket`, it holds `_io_lock`; `dispatch` is
`IocpCore::dispatch` with a completion of the event in hand, and `finishIo` what it does after the
callback. -/
inductive Frame where
  | processConnect
  | rejectConnection
  | rejectClose
  | rejectNotice
  | registerRecv
  | registerSend
  | registerDisconnect
  | setOwner (event : Event)
  | drain
  | build
  | emptyBatch
  | emptyUnlock
  | emptyClose
  | beginIo (event : Event)
  | call (event : Event)
  | callFailed (event : Event)
  | failedIo (event : Event)
  | failedUnlock (event : Event)
  | unlock
  | send (sendBuffer : SendBuffer)
  | enqueue (sendBuffer : SendBuffer)
  | dispatch (event : Event) (numOfBytes : BitVec 32)
  | processRecv (numOfBytes : BitVec 32)
  | received (numOfBytes : BitVec 32)
  | onRecv
  | processSend (numOfBytes : BitVec 32)
  | sent (numOfBytes : BitVec 32)
  | consume (numOfBytes : BitVec 32)
  | refused
  | flushed
  | requeue
  | disconnected
  | finishIo
  | disconnect
  | processDisconnect
  | closeFlags
  | clearRegister
  | beginShutdown
  | shutdownFlags
  | closeSocket

/-- The fields of a `Session` that its overlapped operations use. `owner` says for each event whether
`_owner` is set, `flights` how many operations the system has on it. The rest are histories, which no
step but the first call reads: the session was handed to `process_connect` or `reject_connection`,
`begin_shutdown` has released `_io_lock`, the calls of `begin_io`, a completion was dropped with
'IocpEvent owner expired', the assertion of `finish_io` has failed. -/
structure Core where
  isConnect : Bool
  isDisconnect : Bool
  shutdownStarted : Bool
  closeAfterSend : Bool
  isSendRegister : Bool
  ioLock : Bool
  sendQueue : List SendBuffer
  sendEvent : SendEvent
  owner : Event → Bool
  flights : Event → Nat
  pendingIo : Nat
  offered : Bool
  released : Bool
  begun : Nat
  expired : Bool
  crashed : Bool

def Core.init : Core :=
  { isConnect := false, isDisconnect := false, shutdownStarted := false, closeAfterSend := false,
    isSendRegister := false, ioLock := false, sendQueue := [], sendEvent := SendEvent.clear,
    owner := fun _ => false, flights := fun _ => 0, pendingIo := 0, offered := false,
    released := false, begun := 0, expired := false, crashed := false }

/-- What is decided outside the session: the outcome of a system call, whether `on_recv` and the
receive buffer accept what was received, and the notice for a rejected client. -/
structure Choice where
  call : Call
  accepted : Bool
  notice : Option SendBuffer

namespace Core

def setOwner (c : Core) (event : Event) (set : Bool) : Core :=
  { c with owner := Function.update c.owner event set }

def setFlights (c : Core) (event : Event) (n : Nat) : Core :=
  { c with flights := Function.update c.flights event n }

def beginIo (c : Core) : Core := { c with pendingIo := c.pendingIo+1, begun := c.begun+1 }

def finishIo (c : Core) : Core :=
  { c with pendingIo := c.pendingIo-1, crashed := c.crashed || decide (c.pendingIo=0) }

/-- An event that gets no operation loses its owner, and a send its buffers and its registration. -/
def giveUp (c : Core) (event : Event) : Core :=
  { c.setOwner event false with
    sendEvent := if event=.send then SendEvent.clear else c.sendEvent
    isSendRegister := if event=.send then false else c.isSendRegister }

end Core

/-- `Session::dispatch`. -/
def callback (numOfBytes : BitVec 32) : Event → Frame
  | .recv => .processRecv numOfBytes
  | .send => .processSend numOfBytes
  | .disconnect => .disconnected

/-- Only `register_send` has something to prepare. -/
def afterOwner : Event → Frame
  | .send => .drain
  | event => .beginIo event

/-- How a registration goes on that has failed at once: `register_disconnect` answers `false`. -/
def afterFailure : Event → Frame
  | .disconnect => .processDisconnect
  | _ => .disconnect

/-- One step of a thread: the new fields and what the thread goes on with. `none` means waiting for
`_io_lock`. -/
def exec (c : Core) (o : Choice) : Frame → Option (Core×List Frame)
  | .processConnect => some ({ c with isConnect := true },[.registerRecv])
  | .rejectConnection =>
    if c.isConnect then some (c,[]) else some ({ c with isConnect := true },[.rejectClose])
  | .rejectClose => some ({ c with closeAfterSend := true },[.rejectNotice])
  | .rejectNotice =>
    match o.notice with
    | none => some (c,[.disconnect])
    | some notice => some (c,[.send notice])
  | .registerRecv =>
    if c.ioLock then none
    else if c.shutdownStarted || !c.isConnect then some (c,[])
    else some ({ c with ioLock := true },[.setOwner .recv])
  | .registerSend =>
    if c.ioLock then none
    else if c.shutdownStarted || !c.isConnect then some (c,[])
    else some ({ c with ioLock := true },[.setOwner .send])
  | .registerDisconnect =>
    if c.ioLock then none
    else if c.shutdownStarted then some (c,[.processDisconnect])
    else some ({ c with ioLock := true },[.setOwner .disconnect])
  | .setOwner event => some (c.setOwner event true,[afterOwner event])
  | .drain =>
    if c.sendEvent.hasPendingData then some (c,[.build])
    else some ({ c with sendEvent := c.sendEvent.push c.sendQueue, sendQueue := [] },[.build])
  | .build => some (c,[if c.sendEvent.buildWsabufs=[] then .emptyBatch else .beginIo .send])
  | .emptyBatch => some (c.giveUp .send,[.emptyUnlock])
  | .emptyUnlock => some ({ c with ioLock := false },[.emptyClose])
  | .emptyClose => some (c,if c.closeAfterSend then [.disconnect] else [])
  | .beginIo event => some (c.beginIo,[.call event])
  | .call event =>
    if o.call.registered then some (c.setFlights event (c.flights event+1),[.unlock])
    else some (c,[.callFailed event])
  | .callFailed event => some (c.giveUp event,[.failedIo event])
  | .failedIo event => some (c.finishIo,[.failedUnlock event])
  | .failedUnlock event => some ({ c with ioLock := false },[afterFailure event])
  | .unlock => some ({ c with ioLock := false },[])
  | .send b => some (c,if c.isConnect then [.enqueue b] else [])
  | .enqueue b =>
    if c.isConnect=false then some (c,[])
    else if maxSendQueueSize ≤ c.sendQueue.length then some (c,[.disconnect])
    else
      some ({ c with sendQueue := c.sendQueue++[b], isSendRegister := true },
        if c.isSendRegister then [] else [.registerSend])
  | .dispatch event numOfBytes =>
    if c.owner event then some (c,[callback numOfBytes event,.finishIo])
    else some ({ c with expired := true },[])
  | .processRecv numOfBytes => some (c.setOwner .recv false,[.received numOfBytes])
  | .received numOfBytes =>
    if c.isConnect=false then some (c,[])
    else if numOfBytes=0 then some (c,[.disconnect])
    else some (c,[.onRecv])
  | .onRecv => some (c,[if o.accepted then .registerRecv else .disconnect])
  | .processSend numOfBytes => some (c.setOwner .send false,[.sent numOfBytes])
  | .sent numOfBytes =>
    if c.isConnect then some (c,[.consume numOfBytes])
    else some ({ c with sendEvent := SendEvent.clear },[])
  | .consume numOfBytes =>
    match c.sendEvent.consumeSentBytes numOfBytes.toInt with
    | none => some ({ c with sendEvent := SendEvent.clear },[.refused])
    | some e =>
      if e.hasPendingData then some ({ c with sendEvent := e },[.registerSend])
      else
        some ({ c with sendEvent := SendEvent.clear },
          [if c.closeAfterSend then .flushed else .requeue])
  | .refused => some ({ c with isSendRegister := false },[.disconnect])
  | .flushed => some ({ c with isSendRegister := false },[.disconnect])
  | .requeue =>
    if c.sendQueue=[] then some ({ c with isSendRegister := false },[])
    else some (c,[.registerSend])
  | .disconnected => some (c.setOwner .disconnect false,[.processDisconnect])
  | .finishIo => some (c.finishIo,[])
  | .disconnect =>
    if c.isConnect then some ({ c with isConnect := false },[.registerDisconnect]) else some (c,[])
  | .processDisconnect =>
    if c.isDisconnect then some (c,[]) else some ({ c with isDisconnect := true },[.closeFlags])
  | .closeFlags => some ({ c with isConnect := false },[.clearRegister])
  | .clearRegister => some ({ c with isSendRegister := false },[])
  | .beginShutdown =>
    if c.ioLock then none
    else if c.shutdownStarted then some (c,[])
    else some ({ c with shutdownStarted := true, ioLock := true },[.shutdownFlags])
  | .shutdownFlags => some ({ c with isConnect := false },[.closeSocket])
  | .closeSocket => some ({ c with ioLock := false, released := true },[.processDisconnect])

/-- Everything the next step of a thread can do. -/
inductive Move (c : Core) : Frame → Core → List Frame → Prop
  | processConnect : Move c .processConnect { c with isConnect := true } [.registerRecv]
  | connected (hon : c.isConnect=true) : Move c .rejectConnection c []
  | rejectConnection (hoff : c.isConnect=false) :
      Move c .rejectConnection { c with isConnect := true } [.rejectClose]
  | rejectClose : Move c .rejectClose { c with closeAfterSend := true } [.rejectNotice]
  | noNotice : Move c .rejectNotice c [.disconnect]
  | notice (notice : SendBuffer) : Move c .rejectNotice c [.send notice]
  | recvOff (hoff : c.isConnect=false ∨ c.shutdownStarted=true) : Move c .registerRecv c []
  | registerRecv (hfree : c.ioLock=false) (hshut : c.shutdownStarted=false) :
      Move c .registerRecv { c with ioLock := true } [.setOwner .recv]
  | sendOff (hfree : c.ioLock=false) (hoff : c.isConnect=false ∨ c.shutdownStarted=true) :
      Move c .registerSend c []
  | registerSend (hfree : c.ioLock=false) (hon : c.isConnect=true)
      (hshut : c.shutdownStarted=false) :
      Move c .registerSend { c with ioLock := true } [.setOwner .send]
  | disconnectOff (hfree : c.ioLock=false) (hshut : c.shutdownStarted=true) :
      Move c .registerDisconnect c [.processDisconnect]
  | registerDisconnect (hfree : c.ioLock=false) (hshut : c.shutdownStarted=false) :
      Move c .registerDisconnect { c with ioLock := true } [.setOwner .disconnect]
  | setOwner (event : Event) : Move c (.setOwner event) (c.setOwner event true) [afterOwner event]
  | resume (hp : c.sendEvent.hasPendingData=true) : Move c .drain c [.build]
  | drain (hp : c.sendEvent.hasPendingData=false) :
      Move c .drain { c with sendEvent := c.sendEvent.push c.sendQueue, sendQueue := [] } [.build]
  | emptyBuild (hempty : c.sendEvent.buildWsabufs=[]) : Move c .build c [.emptyBatch]
  | build (hbufs : c.sendEvent.buildWsabufs≠[]) : Move c .build c [.beginIo .send]
  | emptyBatch : Move c .emptyBatch (c.giveUp .send) [.emptyUnlock]
  | emptyUnlock : Move c .emptyUnlock { c with ioLock := false } [.emptyClose]
  | emptyClose (hlast : c.closeAfterSend=true) : Move c .emptyClose c [.disconnect]
  | emptyEnd (hlast : c.closeAfterSend=false) : Move c .emptyClose c []
  | beginIo (event : Event) : Move c (.beginIo event) c.beginIo [.call event]
  | call (event : Event) :
      Move c (.call event) (c.setFlights event (c.flights event+1)) [.unlock]
  | callRefused (event : Event) : Move c (.call event) c [.callFailed event]
  | callFailed (event : Event) : Move c (.callFailed event) (c.giveUp event) [.failedIo event]
  | failedIo (event : Event) : Move c (.failedIo event) c.finishIo [.failedUnlock event]
  | failedUnlock (event : Event) :
      Move c (.failedUnlock event) { c with ioLock := false } [afterFailure event]
  | unlock : Move c .unlock { c with ioLock := false } []
  | send (b : SendBuffer) (hon : c.isConnect=true) : Move c (.send b) c [.enqueue b]
  | unsent (b : SendBuffer) (hoff : c.isConnect=false) : Move c (.send b) c []
  | enqueueOff (b : SendBuffer) (hoff : c.isConnect=false) : Move c (.enqueue b) c []
  | overflow (b : SendBuffer) (hon : c.isConnect=true)
      (hfull : maxSendQueueSize ≤ c.sendQueue.length) : Move c (.enqueue b) c [.disconnect]
  | queued (b : SendBuffer) (hon : c.isConnect=true)
      (hroom : c.sendQueue.length < maxSendQueueSize) (hreg : c.isSendRegister=true) :
      Move c (.enqueue b) { c with sendQueue := c.sendQueue++[b], isSendRegister := true } []
  | enqueue (b : SendBuffer) (hon : c.isConnect=true)
      (hroom : c.sendQueue.length < maxSendQueueSize) (hreg : c.isSendRegister=false) :
      Move c (.enqueue b) { c with sendQueue := c.sendQueue++[b], isSendRegister := true }
        [.registerSend]
  | dispatch (event : Event) (numOfBytes : BitVec 32) :
      Move c (.dispatch event numOfBytes) c [callback numOfBytes event,.finishIo]
  | expired (event : Event) (numOfBytes : BitVec 32) (howner : c.owner event=false) :
      Move c (.dispatch event numOfBytes) { c with expired := true } []
  | processRecv (numOfBytes : BitVec 32) :
      Move c (.processRecv numOfBytes) (c.setOwner .recv false) [.received numOfBytes]
  | receivedOff (numOfBytes : BitVec 32) : Move c (.received numOfBytes) c []
  | receivedNone (numOfBytes : BitVec 32) : Move c (.received numOfBytes) c [.disconnect]
  | received (numOfBytes : BitVec 32) : Move c (.received numOfBytes) c [.onRecv]
  | onRecv : Move c .onRecv c [.registerRecv]
  | malformed : Move c .onRecv c [.disconnect]
  | processSend (numOfBytes : BitVec 32) :
      Move c (.processSend numOfBytes) (c.setOwner .send false) [.sent numOfBytes]
  | sent (numOfBytes : BitVec 32) (hon : c.isConnect=true) :
      Move c (.sent numOfBytes) c [.consume numOfBytes]
  | sentOff (numOfBytes : BitVec 32) (hoff : c.isConnect=false) :
      Move c (.sent numOfBytes) { c with sendEvent := SendEvent.clear } []
  | refuse (numOfBytes : BitVec 32) (hn : c.sendEvent.consumeSentBytes numOfBytes.toInt=none) :
      Move c (.consume numOfBytes) { c with sendEvent := SendEvent.clear } [.refused]
  | remainder (numOfBytes : BitVec 32) (e : SendEvent)
      (hn : c.sendEvent.consumeSentBytes numOfBytes.toInt=some e) (hp : e.hasPendingData=true) :
      Move c (.consume numOfBytes) { c with sendEvent := e } [.registerSend]
  | last (numOfBytes : BitVec 32) (e : SendEvent)
      (hn : c.sendEvent.consumeSentBytes numOfBytes.toInt=some e) (hp : e.hasPendingData=false)
      (hlast : c.closeAfterSend=true) :
      Move c (.consume numOfBytes) { c with sendEvent := SendEvent.clear } [.flushed]
  | whole (numOfBytes : BitVec 32) (e : SendEvent)
      (hn : c.sendEvent.consumeSentBytes numOfBytes.toInt=some e) (hp : e.hasPendingData=false)
      (hlast : c.closeAfterSend=false) :
      Move c (.consume numOfBytes) { c with sendEvent := SendEvent.clear } [.requeue]
  | refused : Move c .refused { c with isSendRegister := false } [.disconnect]
  | flushed : Move c .flushed { c with isSendRegister := false } [.disconnect]
  | emptied (hq : c.sendQueue=[]) : Move c .requeue { c with isSendRegister := false } []
  | requeue (hq : c.sendQueue≠[]) : Move c .requeue c [.registerSend]
  | disconnected : Move c .disconnected (c.setOwner .disconnect false) [.processDisconnect]
  | finishIo : Move c .finishIo c.finishIo []
  | disconnect (hon : c.isConnect=true) :
      Move c .disconnect { c with isConnect := false } [.registerDisconnect]
  | off (hoff : c.isConnect=false) : Move c .disconnect c []
  | processDisconnect (hfirst : c.isDisconnect=false) :
      Move c .processDisconnect { c with isDisconnect := true } [.closeFlags]
  | processed (hdone : c.isDisconnect=true) : Move c .processDisconnect c []
  | closeFlags : Move c .closeFlags { c with isConnect := false } [.clearRegister]
  | clearRegister : Move c .clearRegister { c with isSendRegister := false } []
  | beginShutdown (hfree : c.ioLock=false) (hshut : c.shutdownStarted=false) :
      Move c .beginShutdown { c with shutdownStarted := true, ioLock := true } [.shutdownFlags]
  | shutdownBegun (hfree : c.ioLock=false) (hshut : c.shutdownStarted=true) :
      Move c .beginShutdown c []
  | shutdownFlags : Move c .shutdownFlags { c with isConnect := false } [.closeSocket]
  | closeSocket :
      Move c .closeSocket { c with ioLock := false, released := true } [.processDisconnect]

theorem exec_move {c c' : Core} {o : Choice} {f : Frame} {fs : List Frame}
    (h : exec c o f=some (c',fs)) : Move c f c' fs := by
  cases f with
  | rejectConnection =>
    simp only [exec] at h
    split at h <;> cases h
    · exact .connected ‹_›
    · exact .rejectConnection (Bool.eq_false_iff.mpr ‹_›)
  | rejectNotice =>
    simp only [exec] at h
    split at h <;> cases h
    · exact .noNotice
    · exact .notice _
  | registerRecv =>
    simp only [exec] at h
    split at h
    · cases h
    rename_i hfree
    split at h <;> cases h
    · exact .recvOff (by simpa [or_comm] using ‹(c.shutdownStarted || !c.isConnect)=true›)
    · exact .registerRecv (Bool.eq_false_iff.mpr hfree) (by simp_all)
  | registerSend =>
    simp only [exec] at h
    split at h
    · cases h
    rename_i hfree
    split at h <;> cases h
    · exact .sendOff (Bool.eq_false_iff.mpr hfree)
        (by simpa [or_comm] using ‹(c.shutdownStarted || !c.isConnect)=true›)
    · exact .registerSend (Bool.eq_false_iff.mpr hfree) (by simp_all) (by simp_all)
  | registerDisconnect =>
    simp only [exec] at h
    split at h
    · cases h
    rename_i hfree
    split at h <;> cases h
    · exact .disconnectOff (Bool.eq_false_iff.mpr hfree) ‹_›
    · exact .registerDisconnect (Bool.eq_false_iff.mpr hfree) (Bool.eq_false_iff.mpr ‹_›)
  | drain =>
    simp only [exec] at h
    split at h <;> cases h
    · exact .resume ‹_›
    · exact .drain (Bool.eq_false_iff.mpr ‹_›)
  | build =>
    cases h
    split
    · exact .emptyBuild ‹_›
    · exact .build ‹_›
  | emptyClose =>
    cases h
    split
    · exact .emptyClose ‹_›
    · exact .emptyEnd (Bool.eq_false_iff.mpr ‹_›)
  | call event =>
    simp only [exec] at h
    split at h <;> cases h
    · exact .call event
    · exact .callRefused event
  | send b =>
    cases h
    split
    · exact .send b ‹_›
    · exact .unsent b (Bool.eq_false_iff.mpr ‹_›)
  | enqueue b =>
    simp only [exec] at h
    split at h
    · cases h
      exact .enqueueOff b ‹_›
    rename_i hoff
    have hon : c.isConnect=true := by simpa using hoff
    split at h <;> cases h
    · exact .overflow b hon ‹_›
    · rename_i hroom
      split
      · exact .queued b hon (Nat.lt_of_not_le hroom) ‹_›
      · exact .enqueue b hon (Nat.lt_of_not_le hroom) (Bool.eq_false_iff.mpr ‹_›)
  | dispatch event numOfBytes =>
    simp only [exec] at h
    split at h <;> cases h
    · exact .dispatch event numOfBytes
    · exact .expired event numOfBytes (Bool.eq_false_iff.mpr ‹_›)
  | received numOfBytes =>
    simp only [exec] at h
    split at h
    · cases h
      exact .receivedOff numOfBytes
    split at h <;> cases h
    · exact .receivedNone numOfBytes
    · exact .received numOfBytes
  | onRecv =>
    cases h
    split
    · exact .onRecv
    · exact .malformed
  | sent numOfBytes =>
    simp only [exec] at h
    split at h <;> cases h
    · exact .sent numOfBytes ‹_›
    · exact .sentOff numOfBytes (Bool.eq_false_iff.mpr ‹_›)
  | consume numOfBytes =>
    simp only [exec] at h
    split at h
    · cases h
      exact .refuse numOfBytes ‹_›
    rename_i e hn
    split at h <;> cases h
    · exact .remainder numOfBytes e hn ‹_›
    · rename_i hp
      split
      · exact .last numOfBytes e hn (Bool.eq_false_iff.mpr hp) ‹_›
      · exact .whole numOfBytes e hn (Bool.eq_false_iff.mpr hp) (Bool.eq_false_iff.mpr ‹_›)
  | requeue =>
    simp only [exec] at h
    split at h <;> cases h
    · exact .emptied ‹_›
    · exact .requeue ‹_›
  | disconnect =>
    simp only [exec] at h
    split at h <;> cases h
    · exact .disconnect ‹_›
    · exact .off (Bool.eq_false_iff.mpr ‹_›)
  | processDisconnect =>
    simp only [exec] at h
    split at h <;> cases h
    · exact .processed ‹_›
    · exact .processDisconnect (Bool.eq_false_iff.mpr ‹_›)
  | beginShutdown =>
    simp only [exec] at h
    split at h
    · cases h
    rename_i hfree
    split at h <;> cases h
    · exact .shutdownBegun (Bool.eq_false_iff.mpr hfree) ‹_›
    · exact .beginShutdown (Bool.eq_false_iff.mpr hfree) (Bool.eq_false_iff.mpr ‹_›)
  | _ =>
    -- the other frames have one way on
    cases h
    constructor

/-- Calls that start on a thread, and completions that it takes from the port; `result` is what
`GetQueuedCompletionStatus` returns. -/
inductive Entry where
  | processConnect
  | rejectConnection
  | send (sendBuffer : SendBuffer)
  | disconnect
  | beginShutdown
  | completion (event : Event) (result : Bool) (numOfBytes : BitVec 32)

/-- A session is new to `add_session` once, which hands it to `process_connect` or to
`reject_connection`. A completion belongs to an operation in flight, and a failed one counts no
bytes. -/
def enter (c : Core) : Entry → Option (Core×List Frame)
  | .processConnect =>
    if c.offered then none else some ({ c with offered := true },[.processConnect])
  | .rejectConnection =>
    if c.offered then none else some ({ c with offered := true },[.rejectConnection])
  | .send b => some (c,[.send b])
  | .disconnect => some (c,[.disconnect])
  | .beginShutdown => some (c,[.beginShutdown])
  | .completion event result numOfBytes =>
    if 0<c.flights event then
      some (c.setFlights event (c.flights event-1),
        [.dispatch event (if result then numOfBytes else 0)])
    else none

def object : Pool.Object Core Frame Choice Entry := ⟨exec,enter⟩

variable {T : Type*}

abbrev State (T : Type*) := Pool.State T Core Frame

abbrev Action (T : Type*) := Pool.Action T Choice Entry

def init : State T := Pool.State.init Core.init

def step [DecidableEq T] : State T → Action T → Option (State T) := Pool.step object

end IocpServer.NetWork.OverlappedIo
