import Mathlib.Data.Finset.Insert
import IocpServer.Job.JobTimer
import IocpServer.NetWork.OverlappedIo

namespace IocpServer.NetWork.Listener

open Job (JobTimer TimerItem)
open OverlappedIo (Call)

def wsaEMFile : Int := 10024
def wsaEConnAborted : Int := 10053
def wsaEConnReset : Int := 10054
def wsaENoBufs : Int := 10055

/-- The errors of `AcceptEx` after which `register_accept` tries again. -/
def retryable (errorCode : Int) : Bool :=
  errorCode=wsaENoBufs || errorCode=wsaEMFile || errorCode=wsaEConnReset ||
    errorCode=wsaEConnAborted

def acceptRetryIntervalMs : Nat := 100

/-- Where a thread stands in a method of the listener, in `IocpCore::dispatch` with the completion of
an accept in hand, or in `JobTimer::distribute`. From `createSession` to `unlock`, and at
`updateAccept` and `peerName`, it holds the lock of the listener. `A` are the accept events and `S`
the sessions. -/
inductive Frame (A S : Type) where
  | startAccept (rest : List A)
  | registerAccept (acceptEvent : A)
  | createSession (acceptEvent : A)
  | acceptEx (acceptEvent : A)
  | acceptFailed (acceptEvent : A) (errorCode : Int)
  | reserveAcceptRetry (acceptEvent : A)
  | unlock
  | dispatch (acceptEvent : A)
  | processAccept (acceptEvent : A)
  | updateAccept (acceptEvent : A) (session : S)
  | peerName (acceptEvent : A) (session : S)
  | onConnected (acceptEvent : A) (session : S)
  | finishIo
  | distribute (now : Nat)
  | collect (now : Nat)
  | pushDue (items : List A)
  | closeSocket

/-- The fields of the listener and of its accept events, the timer and the jobs of
`_accept_retry_queue`. `flights` are the registered `AcceptEx` calls whose completion no thread has
taken. `created`, `stopped` and `issued` are histories: the events that `start_accept` has made,
those that a non-retryable error has hit, and the calls of `AcceptEx`. -/
structure Core (A S : Type) where
  acceptStopped : Bool
  socketOpen : Bool
  locked : Bool
  session : A → Option S
  owner : A → Bool
  pendingIo : Nat
  flights : Multiset A
  timer : JobTimer A
  jobs : List A
  created : Finset A
  stopped : Finset A
  issued : List A

/-- What is decided outside the listener: the session that `create_session` returns, if it returns
one with a socket, the outcome of the system calls, the clock, the order in which the heap hands out
what is due, whether the retry queue is still there, and the queued job that a thread takes while it
pushes others. -/
structure Choice (A S : Type) where
  session : Option S
  call : Call
  ok : Bool
  tick : Nat
  popped : List (TimerItem A)
  alive : Bool
  job : Option A

/-- Calls that start on a thread: `start_accept`, the completion of an accept, `distribute`, a job
that a thread takes from the retry queue, `close_socket`, and `JobTimer::clear` at the end of the
server. -/
inductive Entry (A : Type) where
  | startAccept (acceptEvents : List A)
  | completed (acceptEvent : A)
  | distribute (now : Nat)
  | job (acceptEvent : A)
  | closeSocket
  | clear

variable {A S : Type} [DecidableEq A]

namespace Core

def init : Core A S :=
  { acceptStopped := false, socketOpen := true, locked := false, session := fun _ => none,
    owner := fun _ => false, pendingIo := 0, flights := 0, timer := JobTimer.init, jobs := [],
    created := ∅, stopped := ∅, issued := [] }

/-- `set_session` and `set_owner`. -/
def setEvent (c : Core A S) (a : A) (session : Option S) (owner : Bool) : Core A S :=
  { c with session := Function.update c.session a session, owner := Function.update c.owner a owner }

/-- A thread takes a queued job. -/
def takeJob (c : Core A S) (a : A) : Core A S := { c with jobs := c.jobs.erase a }

end Core

/-- One step of a thread; `none` means waiting for the lock. The queue that runs the jobs is taken as
a store from which any thread may take any job. -/
def exec (c : Core A S) (o : Choice A S) : Frame A S → Option (Core A S×List (Frame A S))
  | .startAccept acceptEvents =>
    match acceptEvents with
    | [] => some (c,[])
    | a::rest =>
      if a∈c.created then none
      else some ({ c with created := insert a c.created },[.registerAccept a,.startAccept rest])
  | .registerAccept a =>
    if c.locked then none
    else if c.acceptStopped || !c.socketOpen then some (c,[])
    else some ({ c with locked := true },[.createSession a])
  | .createSession a =>
    match o.session with
    | none => some (c.setEvent a none false,[.reserveAcceptRetry a])
    | some x => some ({ c.setEvent a (some x) true with pendingIo := c.pendingIo+1 },[.acceptEx a])
  | .acceptEx a =>
    match o.call with
    | .success | .pending =>
      some ({ c with flights := a::ₘc.flights, issued := c.issued++[a] },[.unlock])
    | .error errorCode => some ({ c with issued := c.issued++[a] },[.acceptFailed a errorCode])
  | .acceptFailed a errorCode =>
    if retryable errorCode then
      some ({ c.setEvent a none false with pendingIo := c.pendingIo-1 },[.reserveAcceptRetry a])
    else
      some ({ c.setEvent a none false with pendingIo := c.pendingIo-1,
                                           stopped := insert a c.stopped },[.unlock])
  | .reserveAcceptRetry a =>
    some ({ c with timer := c.timer.reserve o.tick acceptRetryIntervalMs a },[.unlock])
  | .unlock => some ({ c with locked := false },[])
  | .dispatch a => if c.owner a then some (c,[.processAccept a,.finishIo]) else some (c,[])
  | .processAccept a =>
    if c.locked then none
    else
      match c.session a with
      | some x =>
        if c.acceptStopped || !c.socketOpen then some (c.setEvent a none false,[])
        else some ({ c.setEvent a none false with locked := true },[.updateAccept a x])
      | none => some (c.setEvent a none false,[])
  | .updateAccept a x =>
    if o.ok then some (c,[.peerName a x]) else some (c,[.reserveAcceptRetry a])
  | .peerName a x =>
    if o.ok then some ({ c with locked := false },[.onConnected a x])
    else some (c,[.reserveAcceptRetry a])
  | .onConnected a _ => some (c,[.registerAccept a])
  | .finishIo => some ({ c with pendingIo := c.pendingIo-1 },[])
  | .distribute now =>
    if c.timer.distributing then some (c,[])
    else some ({ c with timer := { c.timer with distributing := true } },[.collect now])
  | .collect now =>
    match c.timer.collect now o.popped with
    | some timer => some ({ c with timer := timer },[.pushDue (o.popped.map TimerItem.job)])
    | none => none
  | .pushDue items =>
    match o.job,items with
    | some a,_ =>
      if a∈c.jobs then some (c.takeJob a,[.registerAccept a,.pushDue items]) else none
    | none,[] => some ({ c with timer := { c.timer with distributing := false } },[])
    | none,a::rest =>
      if o.alive || !c.acceptStopped then some ({ c with jobs := c.jobs++[a] },[.pushDue rest])
      else some (c,[.pushDue rest])
  | .closeSocket =>
    if c.locked then none
    else some ({ c with acceptStopped := true, socketOpen := false },[])

/-- The retry queue dies with the listener and the timer is cleared, both after `close_socket`. -/
def enter (c : Core A S) : Entry A → Option (Core A S×List (Frame A S))
  | .startAccept acceptEvents => some (c,[.startAccept acceptEvents])
  | .completed a =>
    if a∈c.flights then some ({ c with flights := c.flights.erase a },[.dispatch a]) else none
  | .distribute now => some (c,[.distribute now])
  | .job a => if a∈c.jobs then some (c.takeJob a,[.registerAccept a]) else none
  | .closeSocket => some (c,[.closeSocket])
  | .clear => if c.acceptStopped then some ({ c with timer := c.timer.clear },[]) else none

def object : Pool.Object (Core A S) (Frame A S) (Choice A S) (Entry A) := ⟨exec,enter⟩

abbrev State (T A S : Type) := Pool.State T (Core A S) (Frame A S)

abbrev Action (T A S : Type) := Pool.Action T (Choice A S) (Entry A)

def init {T : Type} : State T A S := Pool.State.init Core.init

def step {T : Type} [DecidableEq T] (s : State T A S) (a : Action T A S) : Option (State T A S) :=
  Pool.step object s a

end IocpServer.NetWork.Listener
