import IocpServer.Server.Residence

namespace IocpServer.Service

open NetWork.Lifecycle
open Server (Env)

/-- Where a worker stands in the listener: in `process_accept` before its locked section, before a
call of `register_accept` (as the last call of `process_accept`, or for a retry timer), or after the
callback. -/
inductive Worker (A S : Type) where
  | idle
  | processAccept (slot : A) (session : S)
  | registerAccept (slot : A) (completion : Bool)
  | finishIo

/-- Where `ServerService::close_service` stands: `beginShutdown` and the two waits carry the sessions
they have not dealt with, the first also the whole snapshot. -/
inductive Close (S : Type) where
  | running
  | waitListener
  | snapshot
  | beginShutdown (todo sessions : List S)
  | waitForIo (sessions : List S)
  | waitForJobs (session : S) (sessions : List S)
  | returned

/-- The server with its listener and service. `accepting` are the accept slots with a registered
`AcceptEx`, `retry` those with a reserved retry, `starting` those that `start_accept` has not
registered yet. `created` is a history: the sessions that have existed. -/
structure State (T S A : Type) where
  server : Server.State T S
  acceptStopped : Bool
  pendingIo : Nat
  accepting : A → Option S
  retry : A → Bool
  starting : List A
  closing : Bool
  created : Finset S
  liveSessions : List S
  workers : T → Worker A S
  close : Close S

/-- How `AcceptEx` is registered. -/
inductive AcceptResult where
  | pending
  | retry
  | stopped

/-- `server` is a step inside sessions; `listener` is the next step of a worker in the listener, with
the outcomes of `set_update_accept_socket`, `create_session` and `AcceptEx`; `close` is the next step
of `close_service`; `destroy` is the destructor of a session. -/
inductive Action (T S A : Type) where
  | server (a : Server.Action T S)
  | startAccept (new : Option S) (result : AcceptResult)
  | acceptCompleted (t : T) (slot : A)
  | listener (t : T) (updated : Bool) (new : Option S) (result : AcceptResult)
  | retryAccept (t : T) (slot : A)
  | close
  | destroy (x : S)

variable {T S A : Type}

namespace State

def init (maxSessionCount : Int) (slots : List A) : State T S A :=
  { server := Server.State.init maxSessionCount, acceptStopped := false, pendingIo := 0,
    accepting := fun _ => none, retry := fun _ => false, starting := slots, closing := false,
    created := ∅, liveSessions := [], workers := fun _ => .idle, close := .running }

variable [DecidableEq T] [DecidableEq S] [DecidableEq A]

def setWorker (v : State T S A) (t : T) (w : Worker A S) : State T S A :=
  { v with workers := Function.update v.workers t w }

def reserveAcceptRetry (v : State T S A) (slot : A) : State T S A :=
  { v with retry := Function.update v.retry slot true }

/-- `register_accept` under the lock of the listener. `new` is the session of `create_session`, if
the factory succeeds; it is an object that did not exist before. -/
def registerAccept (v : State T S A) (slot : A) (new : Option S) (result : AcceptResult) :
    Option (State T S A) :=
  if v.acceptStopped then some v
  else
    match if v.closing then none else new with
    | none => some (v.reserveAcceptRetry slot)
    | some x =>
      if x∈v.created then none
      else
        let v := { v with created := insert x v.created, liveSessions := x::v.liveSessions }
        match result with
        | .pending =>
          some { v with accepting := Function.update v.accepting slot (some x),
                        pendingIo := v.pendingIo+1 }
        | .retry => some (v.reserveAcceptRetry slot)
        | .stopped => some v

end State

variable [DecidableEq T] [DecidableEq S] [DecidableEq A]

/-- The calls of a session that worker threads make. -/
def ofWorkers : Entry → Bool
  | .offer | .beginShutdown | .clearSend => false
  | _ => true

/-- The next step of worker `t` in the listener. -/
def listenerStep (e : Env) (v : State T S A) (t : T) (updated : Bool) (new : Option S)
    (result : AcceptResult) : Option (State T S A) :=
  match v.workers t with
  | .idle => none
  | .processAccept slot x =>
    if v.acceptStopped then some (v.setWorker t .finishIo)
    else if updated=false then some ((v.reserveAcceptRetry slot).setWorker t .finishIo)
    else
      (Server.step e v.server (.enter t x .offer)).map fun s =>
        { v with server := s }.setWorker t (.registerAccept slot true)
  | .registerAccept slot completion =>
    if (v.server.calls t).isEmpty then
      (v.registerAccept slot new result).map fun v =>
        v.setWorker t (if completion then .finishIo else .idle)
    else none
  | .finishIo => some ({ v with pendingIo := v.pendingIo-1 }.setWorker t .idle)

/-- The next step of `close_service` on thread `main`. -/
def closeStep (e : Env) (main : T) (v : State T S A) : Option (State T S A) :=
  match v.close with
  | .running =>
    if v.starting=[] then some { v with acceptStopped := true, close := .waitListener } else none
  | .waitListener => if v.pendingIo=0 then some { v with close := .snapshot } else none
  | .snapshot =>
    some { v with closing := true, close := .beginShutdown v.liveSessions v.liveSessions }
  | .beginShutdown (x::todo) sessions =>
    (Server.step e v.server (.enter main x .beginShutdown)).map fun s =>
      { v with server := s, close := .beginShutdown todo sessions }
  | .beginShutdown [] sessions =>
    if (v.server.calls main).isEmpty then some { v with close := .waitForIo sessions } else none
  | .waitForIo (x::sessions) =>
    if (v.server.cores x).pendingIo=0 then some { v with close := .waitForJobs x sessions } else none
  | .waitForIo [] => some { v with close := .returned }
  | .waitForJobs x sessions =>
    if (v.server.game.sessions x).cleanupDone ∧ (v.server.cores x).pendingJobs=0 then
      (Server.step e v.server (.enter main x .clearSend)).map fun s =>
        { v with server := s, close := .waitForIo sessions }
    else none
  | .returned => none

/-- One step of the server. Thread `main` calls `start` and `close_service`; the others are workers. -/
def step (e : Env) (main : T) (v : State T S A) : Action T S A → Option (State T S A)
  | .server (.run t ok recv) =>
    (Server.step e v.server (.run t ok recv)).map fun s => { v with server := s }
  | .server (.enter t x entry) =>
    match v.workers t with
    | .idle =>
      if t≠main ∧ ofWorkers entry then
        (Server.step e v.server (.enter t x entry)).map fun s => { v with server := s }
      else none
    | _ => none
  | .startAccept new result =>
    match v.starting with
    | [] => none
    | slot::slots => (v.registerAccept slot new result).map fun v => { v with starting := slots }
  | .acceptCompleted t slot =>
    match v.workers t,v.accepting slot with
    | .idle,some x =>
      if t≠main ∧ (v.server.calls t).isEmpty then
        some ({ v with accepting := Function.update v.accepting slot none }.setWorker t
          (.processAccept slot x))
      else none
    | _,_ => none
  | .listener t updated new result => listenerStep e v t updated new result
  | .retryAccept t slot =>
    match v.workers t with
    | .idle =>
      if t≠main ∧ (v.server.calls t).isEmpty ∧ v.retry slot then
        some ({ v with retry := Function.update v.retry slot false }.setWorker t
          (.registerAccept slot false))
      else none
    | _ => none
  | .close => closeStep e main v
  | .destroy x => some { v with liveSessions := v.liveSessions.filter (·≠x) }

/-- What a step of `close_service` does. -/
inductive CloseMove (e : Env) (main : T) (v : State T S A) : State T S A → Prop
  | stopAccept (hc : v.close=.running) (hstart : v.starting=[]) :
      CloseMove e main v { v with acceptStopped := true, close := .waitListener }
  | listenerDone (hc : v.close=.waitListener) (hio : v.pendingIo=0) :
      CloseMove e main v { v with close := .snapshot }
  | snapshot (hc : v.close=.snapshot) :
      CloseMove e main v
        { v with closing := true, close := .beginShutdown v.liveSessions v.liveSessions }
  | beginShutdown {x : S} {todo sessions : List S} {s : Server.State T S}
      (hc : v.close=.beginShutdown (x::todo) sessions)
      (hs : Server.step e v.server (.enter main x .beginShutdown)=some s) :
      CloseMove e main v { v with server := s, close := .beginShutdown todo sessions }
  | allTold {sessions : List S} (hc : v.close=.beginShutdown [] sessions)
      (hcalls : v.server.calls main=[]) : CloseMove e main v { v with close := .waitForIo sessions }
  | ioDone {x : S} {sessions : List S} (hc : v.close=.waitForIo (x::sessions))
      (hio : (v.server.cores x).pendingIo=0) :
      CloseMove e main v { v with close := .waitForJobs x sessions }
  | returned (hc : v.close=.waitForIo []) : CloseMove e main v { v with close := .returned }
  | jobsDone {x : S} {sessions : List S} {s : Server.State T S}
      (hc : v.close=.waitForJobs x sessions) (hdone : (v.server.game.sessions x).cleanupDone)
      (hjobs : (v.server.cores x).pendingJobs=0)
      (hs : Server.step e v.server (.enter main x .clearSend)=some s) :
      CloseMove e main v { v with server := s, close := .waitForIo sessions }

omit [DecidableEq A] in
theorem closeStep_move {e : Env} {main : T} {v v' : State T S A} (h : closeStep e main v=some v') :
    CloseMove e main v v' := by
  unfold closeStep at h
  split at h
  · rename_i hc
    split at h <;> cases h
    exact .stopAccept hc ‹_›
  · rename_i hc
    split at h <;> cases h
    exact .listenerDone hc ‹_›
  · rename_i hc
    cases h
    exact .snapshot hc
  · rename_i hc
    obtain ⟨s,hs,rfl⟩ := Option.map_eq_some_iff.mp h
    exact .beginShutdown hc hs
  · rename_i hc
    split at h <;> cases h
    exact .allTold hc (List.isEmpty_iff.mp ‹_›)
  · rename_i hc
    split at h <;> cases h
    exact .ioDone hc ‹_›
  · rename_i hc
    cases h
    exact .returned hc
  · rename_i hc
    split at h
    · rename_i hwait
      obtain ⟨s,hs,rfl⟩ := Option.map_eq_some_iff.mp h
      exact .jobsDone hc hwait.1 hwait.2 hs
    · cases h
  · cases h

/-- What a step of the server does. -/
inductive Move (e : Env) (main : T) (v : State T S A) : Action T S A → State T S A → Prop
  | run {t : T} {ok : Bool} {recv : Recv Server.Packet} {s : Server.State T S}
      (hs : Server.step e v.server (.run t ok recv)=some s) :
      Move e main v (.server (.run t ok recv)) { v with server := s }
  | enter {t : T} {x : S} {entry : Entry} {s : Server.State T S} (hw : v.workers t=.idle)
      (ht : t≠main) (hentry : ofWorkers entry)
      (hs : Server.step e v.server (.enter t x entry)=some s) :
      Move e main v (.server (.enter t x entry)) { v with server := s }
  | startAccept {slot : A} {slots : List A} {new : Option S} {result : AcceptResult}
      {v' : State T S A} (hstart : v.starting=slot::slots)
      (hr : v.registerAccept slot new result=some v') :
      Move e main v (.startAccept new result) { v' with starting := slots }
  | acceptCompleted {t : T} {slot : A} {x : S} (hw : v.workers t=.idle)
      (hslot : v.accepting slot=some x) (ht : t≠main) :
      Move e main v (.acceptCompleted t slot)
        ({ v with accepting := Function.update v.accepting slot none }.setWorker t
          (.processAccept slot x))
  | stopped {t : T} {slot : A} {x : S} {updated : Bool} {new : Option S} {result : AcceptResult}
      (hw : v.workers t=.processAccept slot x) (hstop : v.acceptStopped=true) :
      Move e main v (.listener t updated new result) (v.setWorker t .finishIo)
  | notUpdated {t : T} {slot : A} {x : S} {new : Option S} {result : AcceptResult}
      (hw : v.workers t=.processAccept slot x) (hopen : v.acceptStopped=false) :
      Move e main v (.listener t false new result)
        ((v.reserveAcceptRetry slot).setWorker t .finishIo)
  | offer {t : T} {slot : A} {x : S} {new : Option S} {result : AcceptResult}
      {s : Server.State T S} (hw : v.workers t=.processAccept slot x)
      (hopen : v.acceptStopped=false)
      (hs : Server.step e v.server (.enter t x .offer)=some s) :
      Move e main v (.listener t true new result)
        ({ v with server := s }.setWorker t (.registerAccept slot true))
  | registerAccept {t : T} {slot : A} {completion updated : Bool} {new : Option S}
      {result : AcceptResult} {v' : State T S A} (hw : v.workers t=.registerAccept slot completion)
      (hcalls : v.server.calls t=[]) (hr : v.registerAccept slot new result=some v') :
      Move e main v (.listener t updated new result)
        (v'.setWorker t (if completion then .finishIo else .idle))
  | finishIo {t : T} {updated : Bool} {new : Option S} {result : AcceptResult}
      (hw : v.workers t=.finishIo) :
      Move e main v (.listener t updated new result)
        ({ v with pendingIo := v.pendingIo-1 }.setWorker t .idle)
  | retryAccept {t : T} {slot : A} (hw : v.workers t=.idle) (ht : t≠main)
      (hretry : v.retry slot=true) :
      Move e main v (.retryAccept t slot)
        ({ v with retry := Function.update v.retry slot false }.setWorker t
          (.registerAccept slot false))
  | close {v' : State T S A} (hs : closeStep e main v=some v') : Move e main v .close v'
  | destroy (x : S) :
      Move e main v (.destroy x) { v with liveSessions := v.liveSessions.filter (·≠x) }

theorem listenerStep_move {e : Env} {main : T} {v v' : State T S A} {t : T} {updated : Bool}
    {new : Option S} {result : AcceptResult} (h : listenerStep e v t updated new result=some v') :
    Move e main v (.listener t updated new result) v' := by
  unfold listenerStep at h
  split at h
  · cases h
  · rename_i hw
    split at h
    · rename_i hstop
      cases h
      exact .stopped hw hstop
    rename_i hopen
    rw [Bool.not_eq_true] at hopen
    cases updated with
    | false =>
      cases h
      exact .notUpdated hw hopen
    | true =>
      obtain ⟨s,hs,rfl⟩ := Option.map_eq_some_iff.mp h
      exact .offer hw hopen hs
  · rename_i hw
    split at h
    · rename_i hcalls
      obtain ⟨u,hr,rfl⟩ := Option.map_eq_some_iff.mp h
      exact .registerAccept hw (List.isEmpty_iff.mp hcalls) hr
    · cases h
  · rename_i hw
    cases h
    exact .finishIo hw

theorem step_move {e : Env} {main : T} {v v' : State T S A} {a : Action T S A}
    (h : step e main v a=some v') : Move e main v a v' := by
  unfold step at h
  split at h
  · obtain ⟨s,hs,rfl⟩ := Option.map_eq_some_iff.mp h
    exact .run hs
  · split at h
    · rename_i hw
      split at h
      · rename_i hguard
        obtain ⟨s,hs,rfl⟩ := Option.map_eq_some_iff.mp h
        exact .enter hw hguard.1 hguard.2 hs
      · cases h
    · cases h
  · split at h
    · cases h
    · rename_i hstart
      obtain ⟨u,hr,rfl⟩ := Option.map_eq_some_iff.mp h
      exact .startAccept hstart hr
  · split at h
    · rename_i hw hslot
      split at h <;> cases h
      rename_i hguard
      exact .acceptCompleted hw hslot hguard.1
    · cases h
  · exact listenerStep_move h
  · split at h
    · rename_i hw
      split at h <;> cases h
      rename_i hguard
      exact .retryAccept hw hguard.1 hguard.2.2
    · cases h
  · exact .close h
  · cases h
    exact .destroy _

/-- Nothing refers to session `x`: no registry or room, no registered operation, no job, no call and
no accept slot. -/
structure Unreferenced (v : State T S A) (x : S) : Prop where
  sessions : x∉v.server.game.manager.sessions
  accounts : ∀ a, v.server.game.manager.accountSessions.lookup a≠some x
  names : ∀ n, v.server.game.manager.nameSessions.lookup n≠some x
  rooms : ∀ r a, ¬v.server.game.rooms.Lists r a x
  inFlight : (v.server.cores x).inFlight=0
  jobs : (v.server.cores x).jobs=[]
  calls : ∀ t f, (x,f)∉v.server.calls t
  accepting : ∀ slot, v.accepting slot≠some x
  workers : ∀ t slot, v.workers t≠.processAccept slot x

/-- What a run may do: sends and disconnects from outside find their session through the list of
sessions, a registry or a room, so that it was added before; a session is destroyed when nothing
refers to it. -/
def Ok (v : State T S A) : Action T S A → Prop
  | .server (.enter _ x (.send _)) | .server (.enter _ x .disconnect) => (v.server.cores x).admitted
  | .destroy x => Unreferenced v x
  | _ => True

end IocpServer.Service
