import IocpServer.Framework.Machine
import IocpServer.Framework.Threads
import IocpServer.NetWork.SendEvent

namespace IocpServer.NetWork.SendPipeline

/-- Where a thread stands in the send path of a session, at the points where it takes or releases
`_io_lock` or the queue lock or touches an atomic outside them. `drain` and `transmit` lie inside
`_io_lock`; `disconnect` remembers whether its caller has thrown buffers away. -/
inductive At where
  | idle
  | send (sendBuffer : SendBuffer)
  | enqueue (sendBuffer : SendBuffer)
  | registerSend
  | drain
  | transmit
  | processSend (numOfBytes : BitVec 32)
  | consume (numOfBytes : BitVec 32)
  | refused
  | flushed
  | requeue
  | disconnect (dropped : Bool)
  | registerDisconnect
  | processDisconnect
  | closeFlags
  | beginShutdown

/-- The fields of a `Session` the send path uses. `flight` holds the bytes given to the registered
`WSASend`; `accepted` and `wire` are histories, which no step reads. -/
structure Session where
  isConnect : Bool
  isDisconnect : Bool
  shutdownStarted : Bool
  closeAfterSend : Bool
  isSendRegister : Bool
  ioLock : Bool
  sendQueue : List SendBuffer
  sendEvent : SendEvent
  flight : Option (List UInt8)
  disconnecting : Bool
  accepted : List SendBuffer
  wire : List UInt8

def maxSendQueueSize : Nat := 1000

/-- A session as `process_connect` or `reject_connection` leaves it. -/
def Session.init (closeAfterSend : Bool) : Session :=
  { isConnect := true, isDisconnect := false, shutdownStarted := false, closeAfterSend,
    isSendRegister := false, ioLock := false, sendQueue := [], sendEvent := SendEvent.clear,
    flight := none, disconnecting := false, accepted := [], wire := [] }

/-- The next step of a thread. `ok` says whether `WSASend` or `DisconnectEx`, where it is called,
registers the operation; `none` means that the thread waits for `_io_lock`. -/
def advance (s : Session) (ok : Bool) : At → Option (Session×At)
  | .idle => none
  | .send b => if s.isConnect then some (s,.enqueue b) else some (s,.idle)
  | .enqueue b =>
    if s.isConnect=false then some (s,.idle)
    else if maxSendQueueSize ≤ s.sendQueue.length then some (s,.disconnect false)
    else
      some ({ s with sendQueue := s.sendQueue++[b], accepted := s.accepted++[b],
                     isSendRegister := true },
        if s.isSendRegister then .idle else .registerSend)
  | .registerSend =>
    if s.ioLock then none
    else if s.shutdownStarted then some (s,.idle)
    else if s.isConnect then some ({ s with ioLock := true },.drain)
    else some (s,.idle)
  | .drain =>
    if s.sendEvent.hasPendingData then some (s,.transmit)
    else some ({ s with sendEvent := s.sendEvent.push s.sendQueue, sendQueue := [] },.transmit)
  | .transmit =>
    if s.sendEvent.buildWsabufs=[] then
      some ({ s with sendEvent := SendEvent.clear, isSendRegister := false, ioLock := false },
        if s.closeAfterSend then .disconnect false else .idle)
    else if ok then some ({ s with flight := some s.sendEvent.rest, ioLock := false },.idle)
    else
      some ({ s with sendEvent := SendEvent.clear, isSendRegister := false, ioLock := false },
        .disconnect true)
  | .processSend n =>
    if s.isConnect then some (s,.consume n)
    else some ({ s with sendEvent := SendEvent.clear },.idle)
  | .consume n =>
    match s.sendEvent.consumeSentBytes n.toInt with
    | none => some ({ s with sendEvent := SendEvent.clear },.refused)
    | some e =>
      if e.hasPendingData then some ({ s with sendEvent := e },.registerSend)
      else
        some ({ s with sendEvent := SendEvent.clear },
          if s.closeAfterSend then .flushed else .requeue)
  | .refused => some ({ s with isSendRegister := false },.disconnect true)
  | .flushed => some ({ s with isSendRegister := false },.disconnect false)
  | .requeue =>
    if s.sendQueue=[] then some ({ s with isSendRegister := false },.idle)
    else some (s,.registerSend)
  | .disconnect _ =>
    if s.isConnect then some ({ s with isConnect := false },.registerDisconnect)
    else some (s,.idle)
  | .registerDisconnect =>
    if s.ioLock then none
    else if s.shutdownStarted then some (s,.processDisconnect)
    else if ok then some ({ s with disconnecting := true },.idle)
    else some (s,.processDisconnect)
  | .processDisconnect =>
    if s.isDisconnect then some (s,.idle)
    else some ({ s with isDisconnect := true },.closeFlags)
  | .closeFlags => some ({ s with isConnect := false, isSendRegister := false },.idle)
  | .beginShutdown =>
    if s.ioLock then none
    else if s.shutdownStarted then some (s,.idle)
    else some ({ s with shutdownStarted := true, isConnect := false },.processDisconnect)

/-- Everything the next step of a thread can do. -/
inductive Move (s : Session) : At → Session → At → Prop
  | sendOff (b : SendBuffer) (hoff : s.isConnect=false) : Move s (.send b) s .idle
  | send (b : SendBuffer) (hon : s.isConnect=true) : Move s (.send b) s (.enqueue b)
  | enqueueOff (b : SendBuffer) (hoff : s.isConnect=false) : Move s (.enqueue b) s .idle
  | overflow (b : SendBuffer) (hon : s.isConnect=true)
      (hfull : maxSendQueueSize ≤ s.sendQueue.length) : Move s (.enqueue b) s (.disconnect false)
  | accept (b : SendBuffer) (hon : s.isConnect=true)
      (hroom : s.sendQueue.length < maxSendQueueSize) :
      Move s (.enqueue b)
        { s with sendQueue := s.sendQueue++[b], accepted := s.accepted++[b],
                 isSendRegister := true }
        (if s.isSendRegister then .idle else .registerSend)
  | registerOff (hoff : s.shutdownStarted=true ∨ s.isConnect=false) :
      Move s .registerSend s .idle
  | register (hshut : s.shutdownStarted=false) (hon : s.isConnect=true) :
      Move s .registerSend { s with ioLock := true } .drain
  | resume (hp : s.sendEvent.hasPendingData=true) : Move s .drain s .transmit
  | drain (hp : s.sendEvent.hasPendingData=false) :
      Move s .drain { s with sendEvent := s.sendEvent.push s.sendQueue, sendQueue := [] } .transmit
  | nothing (hempty : s.sendEvent.buildWsabufs=[]) :
      Move s .transmit
        { s with sendEvent := SendEvent.clear, isSendRegister := false, ioLock := false }
        (if s.closeAfterSend then .disconnect false else .idle)
  | fly (hbufs : s.sendEvent.buildWsabufs≠[]) :
      Move s .transmit { s with flight := some s.sendEvent.rest, ioLock := false } .idle
  | failed (hbufs : s.sendEvent.buildWsabufs≠[]) :
      Move s .transmit
        { s with sendEvent := SendEvent.clear, isSendRegister := false, ioLock := false }
        (.disconnect true)
  | completedOff (n : BitVec 32) (hoff : s.isConnect=false) :
      Move s (.processSend n) { s with sendEvent := SendEvent.clear } .idle
  | completed (n : BitVec 32) (hon : s.isConnect=true) : Move s (.processSend n) s (.consume n)
  | refuse (n : BitVec 32) (hn : s.sendEvent.consumeSentBytes n.toInt=none) :
      Move s (.consume n) { s with sendEvent := SendEvent.clear } .refused
  | remainder (n : BitVec 32) (e : SendEvent) (hn : s.sendEvent.consumeSentBytes n.toInt=some e)
      (hp : e.hasPendingData=true) : Move s (.consume n) { s with sendEvent := e } .registerSend
  | whole (n : BitVec 32) (e : SendEvent) (hn : s.sendEvent.consumeSentBytes n.toInt=some e)
      (hp : e.hasPendingData=false) :
      Move s (.consume n) { s with sendEvent := SendEvent.clear }
        (if s.closeAfterSend then .flushed else .requeue)
  | refused : Move s .refused { s with isSendRegister := false } (.disconnect true)
  | flushed : Move s .flushed { s with isSendRegister := false } (.disconnect false)
  | emptied (hq : s.sendQueue=[]) : Move s .requeue { s with isSendRegister := false } .idle
  | requeue (hq : s.sendQueue≠[]) : Move s .requeue s .registerSend
  | close (dropped : Bool) (hon : s.isConnect=true) :
      Move s (.disconnect dropped) { s with isConnect := false } .registerDisconnect
  | closed (dropped : Bool) (hoff : s.isConnect=false) : Move s (.disconnect dropped) s .idle
  | registerDisconnect : Move s .registerDisconnect { s with disconnecting := true } .idle
  | disconnectFailed : Move s .registerDisconnect s .processDisconnect
  | processDisconnect : Move s .processDisconnect { s with isDisconnect := true } .closeFlags
  | processed : Move s .processDisconnect s .idle
  | closeFlags : Move s .closeFlags { s with isConnect := false, isSendRegister := false } .idle
  | beginShutdown : Move s .beginShutdown { s with shutdownStarted := true, isConnect := false }
      .processDisconnect
  | shutdownBegun : Move s .beginShutdown s .idle

theorem advance_move {s σ : Session} {ok : Bool} {pc pc' : At}
    (h : advance s ok pc=some (σ,pc')) : Move s pc σ pc' := by
  cases pc with
  | idle => cases h
  | send b =>
    simp only [advance] at h
    split at h <;> cases h
    · exact .send b ‹_›
    · exact .sendOff b (Bool.eq_false_iff.mpr ‹_›)
  | enqueue b =>
    simp only [advance] at h
    split at h
    · cases h
      exact .enqueueOff b ‹_›
    rename_i hon
    split at h <;> cases h
    · exact .overflow b (by simpa using hon) ‹_›
    · exact .accept b (by simpa using hon) (Nat.lt_of_not_le ‹_›)
  | registerSend =>
    simp only [advance] at h
    split at h
    · cases h
    split at h
    · cases h
      exact .registerOff (Or.inl ‹_›)
    rename_i hshut
    split at h <;> cases h
    · exact .register (by simpa using hshut) ‹_›
    · exact .registerOff (Or.inr (Bool.eq_false_iff.mpr ‹_›))
  | drain =>
    simp only [advance] at h
    split at h <;> cases h
    · exact .resume ‹_›
    · exact .drain (Bool.eq_false_iff.mpr ‹_›)
  | transmit =>
    simp only [advance] at h
    split at h
    · cases h
      exact .nothing ‹_›
    rename_i hbufs
    split at h <;> cases h
    · exact .fly hbufs
    · exact .failed hbufs
  | processSend n =>
    simp only [advance] at h
    split at h <;> cases h
    · exact .completed n ‹_›
    · exact .completedOff n (Bool.eq_false_iff.mpr ‹_›)
  | consume n =>
    simp only [advance] at h
    split at h
    · cases h
      exact .refuse n ‹_›
    rename_i e hn
    split at h <;> cases h
    · exact .remainder n e hn ‹_›
    · exact .whole n e hn (Bool.eq_false_iff.mpr ‹_›)
  | refused =>
    cases h
    exact .refused
  | flushed =>
    cases h
    exact .flushed
  | requeue =>
    simp only [advance] at h
    split at h <;> cases h
    · exact .emptied ‹_›
    · exact .requeue ‹_›
  | disconnect dropped =>
    simp only [advance] at h
    split at h <;> cases h
    · exact .close dropped ‹_›
    · exact .closed dropped (Bool.eq_false_iff.mpr ‹_›)
  | registerDisconnect =>
    simp only [advance] at h
    split at h
    · cases h
    split at h
    · cases h
      exact .disconnectFailed
    split at h <;> cases h
    · exact .registerDisconnect
    · exact .disconnectFailed
  | processDisconnect =>
    simp only [advance] at h
    split at h <;> cases h
    · exact .processed
    · exact .processDisconnect
  | closeFlags =>
    cases h
    exact .closeFlags
  | beginShutdown =>
    simp only [advance] at h
    split at h
    · cases h
    split at h <;> cases h
    · exact .shutdownBegun
    · exact .beginShutdown

structure State (T : Type) where
  session : Session
  threads : T → At

/-- `send`, `disconnect` and `beginShutdown` are calls from outside; `sendCompleted` and
`disconnectCompleted` are completions that a thread takes from the port. -/
inductive Action (T : Type) where
  | send (t : T) (sendBuffer : SendBuffer)
  | disconnect (t : T)
  | beginShutdown (t : T)
  | run (t : T) (ok : Bool)
  | sendCompleted (t : T) (numOfBytes : BitVec 32)
  | disconnectCompleted (t : T)

variable {T : Type} [DecidableEq T]

namespace State

def init (closeAfterSend : Bool) : State T := ⟨Session.init closeAfterSend,fun _ => .idle⟩

def set (s : State T) (t : T) (session : Session) (pc : At) : State T :=
  ⟨session,Function.update s.threads t pc⟩

/-- Thread `t`, which is in none of these functions, goes to `pc`. -/
def enter (s : State T) (t : T) (session : Session) (pc : At) : Option (State T) :=
  match s.threads t with
  | .idle => some (s.set t session pc)
  | _ => none

end State

/-- A completed `WSASend` has handed over the first `numOfBytes` of its bytes; a failed one has
`numOfBytes=0`. -/
def step (s : State T) : Action T → Option (State T)
  | .send t b => s.enter t s.session (.send b)
  | .disconnect t => s.enter t s.session (.disconnect false)
  | .beginShutdown t => s.enter t s.session .beginShutdown
  | .run t ok => (advance s.session ok (s.threads t)).map fun r => s.set t r.1 r.2
  | .sendCompleted t n =>
    match s.session.flight with
    | some bytes =>
      if n.toNat ≤ bytes.length then
        s.enter t { s.session with flight := none, wire := s.session.wire++bytes.take n.toNat }
          (.processSend n)
      else none
    | none => none
  | .disconnectCompleted t =>
    if s.session.disconnecting then
      s.enter t { s.session with disconnecting := false } .processDisconnect
    else none

end IocpServer.NetWork.SendPipeline
