import IocpServer.Server.LockOrder
import IocpServer.Server.Service

namespace IocpServer.GameServer

open NetWork (Pong Heartbeat SendBuffer)
open Server.LockOrder (Thread)

/-- The server with the packet of `send_ping`. -/
structure Env extends Server.Env where
  makePing : BitVec 64 → SendBuffer

/-- How far a thread is: not launched, in its function, or past it. -/
inductive Life where
  | unborn
  | running
  | ended
deriving DecidableEq

/-- Where a thread stands in `StopSignal::wait`: before it looks at `_requested`, asleep in
`wait_for`, or awake because its time is over. -/
inductive Wait where
  | check
  | asleep
  | timedOut
deriving DecidableEq

/-- Where a background thread stands in its loop. -/
inductive Loop (B : Type) where
  | body (b : B)
  | wait (w : Wait)

/-- `notify_all` wakes a thread that is asleep. -/
def Loop.notify {B : Type} : Loop B → Loop B
  | .wait .asleep => .wait .check
  | l => l

/-- Where `main` stands. `launch` and the two joins carry the threads they have not dealt with. -/
inductive Main (n : Nat) where
  | start
  | startAccept
  | launch (todo : List (Thread (Fin n)))
  | getline
  | request
  | notifyAll
  | joinBackground (todo : List (Thread (Fin n)))
  | closeService
  | stopWorkers
  | joinWorkers (todo : List (Thread (Fin n)))
  | clear
  | printServerStats
  | returned (code : Nat)

/-- The process: the service, the threads and the two `ThreadManager`s, the stop signal, what the
heartbeat keeps in each session, and the last line that `print_server_stats` prints. `heartbeat` and
`stats` say where the background threads are; the heartbeat holds the tick and what is left of its
copy of the sessions. -/
structure State (n : Nat) (S A : Type) where
  service : Service.State (Thread (Fin n)) S A
  main : Main n
  life : Thread (Fin n) → Life
  globalThreads : List (Thread (Fin n))
  backgroundThreads : List (Thread (Fin n))
  requested : Bool
  workersRunning : Bool
  heartbeat : Loop (Option (BitVec 64×List S))
  stats : Loop Unit
  pong : S → Pong
  printed : Option (Nat×Nat×Nat)

/-- `service` is a step of the service by a thread that is in it; `main` is the next step of `main`,
with the outcome of the socket calls of `start_accept` or whether a line ends the loop; `copy` and
`beat` are steps of `check_heartbeat`, `printServerStats` of the stats thread; `wait` is a step of a
background thread in `StopSignal::wait`; `pong` is the store of `Handle_REQ_CONNECT_PONG`; `leave`
is the end of `do_worker_job`. -/
inductive Action (n : Nat) (S A : Type) where
  | service (a : Service.Action (Thread (Fin n)) S A)
  | main (ok : Bool)
  | copy (now : BitVec 64) (sessions : List S)
  | beat
  | printServerStats
  | wait (stats timeout : Bool)
  | pong (w : Fin n) (x : S)
  | leave (w : Fin n)

variable {n : Nat} {S A : Type}

/-- The threads that `main` launches, in its order. -/
def launches (n : Nat) : List (Thread (Fin n)) :=
  (List.finRange n).map .worker++[.heartbeat,.stats]

def isBackground : Thread (Fin n) → Bool
  | .heartbeat | .stats => true
  | _ => false

/-- `StopSignal::wait` goes on, or it returns. -/
def waitStep (requested timeout : Bool) : Wait → Wait⊕Bool
  | .check => if requested then .inr true else .inl .asleep
  | .asleep => .inl (if timeout then .timedOut else .check)
  | .timedOut => .inr requested

namespace State

def init (maxSessionCount : Int) (slots : List A) : State n S A :=
  { service := Service.State.init maxSessionCount slots, main := .start, life := fun _ => .unborn,
    globalThreads := [], backgroundThreads := [], requested := false, workersRunning := true,
    heartbeat := .body none, stats := .body (), pong := fun _ => ⟨false,0⟩, printed := none }

def go (p : State n S A) (m : Main n) : State n S A := { p with main := m }

def setLife (p : State n S A) (t : Thread (Fin n)) (l : Life) : State n S A :=
  { p with life := Function.update p.life t l }

/-- `ThreadManager::launch`, on the manager that `main` keeps for such threads. -/
def launch (p : State n S A) (t : Thread (Fin n)) : State n S A :=
  let p := p.setLife t .running
  if isBackground t then { p with backgroundThreads := p.backgroundThreads++[t] }
  else { p with globalThreads := p.globalThreads++[t] }

/-- Worker `t` is in `do_worker_job`. -/
def working (p : State n S A) : Thread (Fin n) → Bool
  | .worker w => p.life (.worker w)=.running
  | _ => false

/-- Which steps of the service the threads can take now: `main` registers the accepts and closes the
service, running threads go on in the sessions, and workers take completions, jobs and timers. -/
def mayAct (p : State n S A) : Service.Action (Thread (Fin n)) S A → Bool
  | .startAccept _ _ =>
    match p.main with
    | .startAccept => true
    | _ => false
  | .close | .server (.run .main _ _) =>
    match p.main with
    | .closeService => true
    | _ => false
  | .server (.run t _ _) => p.life t=.running
  | .server (.enter t _ _) | .acceptCompleted t _ | .listener t _ _ _ | .retryAccept t _ =>
    p.working t
  | .destroy _ => true

end State

variable [DecidableEq S] [DecidableEq A]

/-- The next step of `main`. -/
def mainStep (p : State n S A) (ok : Bool) : Option (State n S A) :=
  match p.main with
  | .start =>
    if ok then some (p.go .startAccept)
    else some ({ p with service := { p.service with acceptStopped := true } }.go (.returned 1))
  | .startAccept => if p.service.starting=[] then some (p.go (.launch (launches n))) else none
  | .launch (t::todo) => some ((p.launch t).go (.launch todo))
  | .launch [] => some (p.go .getline)
  | .getline => some (if ok then p.go .request else p)
  | .request => some ({ p with requested := true }.go .notifyAll)
  | .notifyAll =>
    some ({ p with heartbeat := p.heartbeat.notify, stats := p.stats.notify }.go
      (.joinBackground p.backgroundThreads))
  | .joinBackground (t::todo) =>
    if p.life t=.ended then some (p.go (.joinBackground todo)) else none
  | .joinBackground [] => some ({ p with backgroundThreads := [] }.go .closeService)
  | .closeService =>
    match p.service.close with
    | .returned => some (p.go .stopWorkers)
    | _ => none
  | .stopWorkers => some ({ p with workersRunning := false }.go (.joinWorkers p.globalThreads))
  | .joinWorkers (t::todo) => if p.life t=.ended then some (p.go (.joinWorkers todo)) else none
  | .joinWorkers [] => some ({ p with globalThreads := [] }.go .clear)
  | .clear =>
    some ({ p with service := { p.service with retry := fun _ => false } }.go .printServerStats)
  | .printServerStats =>
    let stats := p.service.server.game.stats
    some ({ p with printed := some (stats.connect,stats.login,stats.disconnect) }.go (.returned 0))
  | .returned _ => none

/-- A call of a session by the heartbeat thread. -/
def heartbeatEnter (e : Env) (p : State n S A) (x : S) (entry : NetWork.Lifecycle.Entry) :
    Option (State n S A) :=
  (Service.step e.toEnv .main p.service (.server (.enter .heartbeat x entry))).map fun v =>
    { p with service := v }

/-- `check_heartbeat` at the next session of its copy, or at its end. -/
def beat (e : Env) (p : State n S A) : Option (State n S A) :=
  match p.heartbeat with
  | .body (some (_,[])) => some { p with heartbeat := .wait .check }
  | .body (some (now,x::rest)) =>
    let p := { p with heartbeat := .body (some (now,rest)) }
    match NetWork.heartbeat (p.service.server.cores x).pipe.isConnect (p.pong x) now with
    | .skip => some p
    | .disconnect => heartbeatEnter e p x .disconnect
    | .sendPing =>
      heartbeatEnter e { p with pong := Function.update p.pong x ⟨true,now⟩ } x
        (.send (e.makePing now))
  | _ => none

/-- A background thread goes on in `StopSignal::wait` and leaves its loop if it returns `true`. -/
def waitLoop {B : Type} (p : State n S A) (t : Thread (Fin n)) (timeout : Bool) (again : B)
    (set : State n S A → Loop B → State n S A) : Loop B → Option (State n S A)
  | .body _ => none
  | .wait w =>
    match waitStep p.requested timeout w with
    | .inl w => some (set p (.wait w))
    | .inr true => some (p.setLife t .ended)
    | .inr false => some (set p (.body again))

def step (e : Env) (p : State n S A) : Action n S A → Option (State n S A)
  | .service a =>
    if p.mayAct a then
      (Service.step e.toEnv .main p.service a).map fun v => { p with service := v }
    else none
  | .main ok => mainStep p ok
  | .copy now sessions =>
    match p.heartbeat with
    | .body none =>
      if p.life .heartbeat=.running ∧ sessions.Nodup ∧
          sessions.toFinset=p.service.server.game.manager.sessions then
        some { p with heartbeat := .body (some (now,sessions)) }
      else none
    | _ => none
  | .beat =>
    if p.life .heartbeat=.running ∧ (p.service.server.calls .heartbeat).isEmpty then beat e p
    else none
  | .printServerStats =>
    match p.stats with
    | .body () => if p.life .stats=.running then some { p with stats := .wait .check } else none
    | .wait _ => none
  | .wait false timeout =>
    if p.life .heartbeat=.running then
      waitLoop p .heartbeat timeout none (fun p l => { p with heartbeat := l }) p.heartbeat
    else none
  | .wait true timeout =>
    if p.life .stats=.running then
      waitLoop p .stats timeout () (fun p l => { p with stats := l }) p.stats
    else none
  | .pong w x =>
    if p.life (.worker w)=.running then
      some { p with pong := Function.update p.pong x { p.pong x with waitingPong := false } }
    else none
  | .leave w =>
    match p.service.workers (.worker w) with
    | .idle =>
      if p.life (.worker w)=.running ∧ p.workersRunning=false ∧
          (p.service.server.calls (.worker w)).isEmpty then
        some (p.setLife (.worker w) .ended)
      else none
    | _ => none

/-- What a run may do is what the service may do. -/
def Ok (p : State n S A) : Action n S A → Prop
  | .service a => Service.Ok p.service a
  | _ => True

/-- The steps of `main`, each with what it needs. -/
inductive MainMove (p : State n S A) : State n S A → Prop
  | start (hm : p.main=.start) : MainMove p (p.go .startAccept)
  | startFailed (hm : p.main=.start) :
      MainMove p ({ p with service := { p.service with acceptStopped := true } }.go (.returned 1))
  | startAccept (hm : p.main=.startAccept) (hstarted : p.service.starting=[]) :
      MainMove p (p.go (.launch (launches n)))
  | launch {t : Thread (Fin n)} {todo : List (Thread (Fin n))} (hm : p.main=.launch (t::todo)) :
      MainMove p ((p.launch t).go (.launch todo))
  | launched (hm : p.main=.launch []) : MainMove p (p.go .getline)
  | quit (hm : p.main=.getline) : MainMove p (p.go .request)
  | otherLine (hm : p.main=.getline) : MainMove p p
  | request (hm : p.main=.request) : MainMove p ({ p with requested := true }.go .notifyAll)
  | notifyAll (hm : p.main=.notifyAll) :
      MainMove p ({ p with heartbeat := p.heartbeat.notify, stats := p.stats.notify }.go
        (.joinBackground p.backgroundThreads))
  | joinBackground {t : Thread (Fin n)} {todo : List (Thread (Fin n))}
      (hm : p.main=.joinBackground (t::todo)) (hend : p.life t=.ended) :
      MainMove p (p.go (.joinBackground todo))
  | backgroundJoined (hm : p.main=.joinBackground []) :
      MainMove p ({ p with backgroundThreads := [] }.go .closeService)
  | closeService (hm : p.main=.closeService) (hret : p.service.close=.returned) :
      MainMove p (p.go .stopWorkers)
  | stopWorkers (hm : p.main=.stopWorkers) :
      MainMove p ({ p with workersRunning := false }.go (.joinWorkers p.globalThreads))
  | joinWorkers {t : Thread (Fin n)} {todo : List (Thread (Fin n))}
      (hm : p.main=.joinWorkers (t::todo)) (hend : p.life t=.ended) :
      MainMove p (p.go (.joinWorkers todo))
  | workersJoined (hm : p.main=.joinWorkers []) :
      MainMove p ({ p with globalThreads := [] }.go .clear)
  | clear (hm : p.main=.clear) :
      MainMove p ({ p with service := { p.service with retry := fun _ => false } }.go
        .printServerStats)
  | printServerStats (hm : p.main=.printServerStats) :
      MainMove p ({ p with
        printed := some (p.service.server.game.stats.connect,p.service.server.game.stats.login,
          p.service.server.game.stats.disconnect) }.go (.returned 0))

omit [DecidableEq S] [DecidableEq A] in
theorem mainStep_move {p p' : State n S A} {ok : Bool} (h : mainStep p ok=some p') :
    MainMove p p' := by
  unfold mainStep at h
  split at h
  · split at h <;> cases h
    · exact .start ‹_›
    · exact .startFailed ‹_›
  · split at h <;> cases h
    exact .startAccept ‹_› ‹_›
  · cases h
    exact .launch ‹_›
  · cases h
    exact .launched ‹_›
  · cases h
    split
    · exact .quit ‹_›
    · exact .otherLine ‹_›
  · cases h
    exact .request ‹_›
  · cases h
    exact .notifyAll ‹_›
  · split at h <;> cases h
    exact .joinBackground ‹_› ‹_›
  · cases h
    exact .backgroundJoined ‹_›
  · split at h <;> cases h
    exact .closeService ‹_› ‹_›
  · cases h
    exact .stopWorkers ‹_›
  · split at h <;> cases h
    exact .joinWorkers ‹_› ‹_›
  · cases h
    exact .workersJoined ‹_›
  · cases h
    exact .clear ‹_›
  · cases h
    exact .printServerStats ‹_›
  · cases h

/-- The steps of `check_heartbeat` through its copy of the sessions. -/
inductive BeatMove (e : Env) (p : State n S A) : State n S A → Prop
  | finished {now : BitVec 64} (hb : p.heartbeat=.body (some (now,[]))) :
      BeatMove e p { p with heartbeat := .wait .check }
  | skip {now : BitVec 64} {x : S} {rest : List S} (hb : p.heartbeat=.body (some (now,x::rest)))
      (hd : NetWork.heartbeat (p.service.server.cores x).pipe.isConnect (p.pong x) now=.skip) :
      BeatMove e p { p with heartbeat := .body (some (now,rest)) }
  | disconnect {now : BitVec 64} {x : S} {rest : List S} {v : Service.State (Thread (Fin n)) S A}
      (hb : p.heartbeat=.body (some (now,x::rest)))
      (hd : NetWork.heartbeat (p.service.server.cores x).pipe.isConnect (p.pong x) now=.disconnect)
      (hs : Service.step e.toEnv .main p.service (.server (.enter .heartbeat x .disconnect))=
        some v) :
      BeatMove e p { p with heartbeat := .body (some (now,rest)), service := v }
  | sendPing {now : BitVec 64} {x : S} {rest : List S} {v : Service.State (Thread (Fin n)) S A}
      (hb : p.heartbeat=.body (some (now,x::rest)))
      (hd : NetWork.heartbeat (p.service.server.cores x).pipe.isConnect (p.pong x) now=.sendPing)
      (hs : Service.step e.toEnv .main p.service
        (.server (.enter .heartbeat x (.send (e.makePing now))))=some v) :
      BeatMove e p
        { p with heartbeat := .body (some (now,rest)),
                 pong := Function.update p.pong x ⟨true,now⟩, service := v }

theorem beat_move {e : Env} {p p' : State n S A} (h : beat e p=some p') : BeatMove e p p' := by
  unfold beat at h
  split at h
  · cases h
    exact .finished ‹_›
  · rename_i hb
    dsimp only at h
    split at h
    · rename_i hd
      cases h
      exact .skip hb hd
    · rename_i hd
      obtain ⟨v,hs,rfl⟩ := Option.map_eq_some_iff.mp h
      exact .disconnect hb hd hs
    · rename_i hd
      obtain ⟨v,hs,rfl⟩ := Option.map_eq_some_iff.mp h
      exact .sendPing hb hd hs
  · cases h

/-- A thread falls asleep only before the request. -/
theorem waitStep_inl {requested timeout : Bool} {w w' : Wait}
    (h : waitStep requested timeout w=.inl w') (hr : requested) : w'≠.asleep := by
  cases w with
  | check =>
    rw [waitStep,if_pos hr] at h
    cases h
  | asleep =>
    cases h
    cases timeout <;> simp
  | timedOut => cases h

/-- `wait` returns whether a stop was requested. -/
theorem waitStep_inr {requested timeout b : Bool} {w : Wait}
    (h : waitStep requested timeout w=.inr b) : b=requested := by
  cases w with
  | check =>
    cases requested with
    | true =>
      cases h
      rfl
    | false => cases h
  | asleep => cases h
  | timedOut =>
    cases h
    rfl

/-- Thread `t`, which stands at `l` in its loop, goes on in `StopSignal::wait`. -/
inductive WaitMove {B : Type} (p : State n S A) (t : Thread (Fin n)) (again : B)
    (set : State n S A → Loop B → State n S A) (l : Loop B) : State n S A → Prop
  | goesOn {w w' : Wait} (hl : l=.wait w) (hsleep : p.requested → w'≠.asleep) :
      WaitMove p t again set l (set p (.wait w'))
  | ends {w : Wait} (hl : l=.wait w) (hrequested : p.requested) :
      WaitMove p t again set l (p.setLife t .ended)
  | again {w : Wait} (hl : l=.wait w) : WaitMove p t again set l (set p (.body again))

omit [DecidableEq S] [DecidableEq A] in
theorem waitLoop_move {B : Type} {p p' : State n S A} {t : Thread (Fin n)} {timeout : Bool}
    {again : B} {set : State n S A → Loop B → State n S A} {l : Loop B}
    (h : waitLoop p t timeout again set l=some p') : WaitMove p t again set l p' := by
  cases l with
  | body b => cases h
  | wait w =>
    simp only [waitLoop] at h
    split at h
    · rename_i hw
      cases h
      exact .goesOn rfl (waitStep_inl hw)
    · rename_i hw
      cases h
      exact .ends rfl (waitStep_inr hw).symm
    · cases h
      exact .again rfl

/-- The steps of the process, each with what it needs. -/
inductive Move (e : Env) (p : State n S A) : Action n S A → State n S A → Prop
  | service {a : Service.Action (Thread (Fin n)) S A} {v : Service.State (Thread (Fin n)) S A}
      (hmay : p.mayAct a) (hs : Service.step e.toEnv .main p.service a=some v) :
      Move e p (.service a) { p with service := v }
  | main {ok : Bool} {p' : State n S A} (hm : MainMove p p') : Move e p (.main ok) p'
  | copy {now : BitVec 64} {sessions : List S} (hb : p.heartbeat=.body none)
      (hlife : p.life .heartbeat=.running) (hnodup : sessions.Nodup)
      (hsessions : sessions.toFinset=p.service.server.game.manager.sessions) :
      Move e p (.copy now sessions) { p with heartbeat := .body (some (now,sessions)) }
  | beat {p' : State n S A} (hlife : p.life .heartbeat=.running)
      (hcalls : p.service.server.calls .heartbeat=[]) (hb : BeatMove e p p') : Move e p .beat p'
  | printServerStats (hlife : p.life .stats=.running) :
      Move e p .printServerStats { p with stats := .wait .check }
  | heartbeatWait {timeout : Bool} {p' : State n S A} (hlife : p.life .heartbeat=.running)
      (hw : WaitMove p .heartbeat none (fun p l => { p with heartbeat := l }) p.heartbeat p') :
      Move e p (.wait false timeout) p'
  | statsWait {timeout : Bool} {p' : State n S A} (hlife : p.life .stats=.running)
      (hw : WaitMove p .stats () (fun p l => { p with stats := l }) p.stats p') :
      Move e p (.wait true timeout) p'
  | pong (w : Fin n) (x : S) (hlife : p.life (.worker w)=.running) :
      Move e p (.pong w x)
        { p with pong := Function.update p.pong x { p.pong x with waitingPong := false } }
  | leave {w : Fin n} (hidle : p.service.workers (.worker w)=.idle)
      (hlife : p.life (.worker w)=.running) (hstopped : p.workersRunning=false)
      (hcalls : p.service.server.calls (.worker w)=[]) :
      Move e p (.leave w) (p.setLife (.worker w) .ended)

theorem step_move {e : Env} {p p' : State n S A} {a : Action n S A} (h : step e p a=some p') :
    Move e p a p' := by
  cases a with
  | service a =>
    simp only [step] at h
    split at h
    · rename_i hmay
      obtain ⟨v,hs,rfl⟩ := Option.map_eq_some_iff.mp h
      exact .service hmay hs
    · cases h
  | main ok => exact .main (mainStep_move h)
  | copy now sessions =>
    simp only [step] at h
    split at h
    · rename_i hb
      split at h <;> cases h
      rename_i hguard
      exact .copy hb hguard.1 hguard.2.1 hguard.2.2
    · cases h
  | beat =>
    simp only [step] at h
    split at h
    · rename_i hguard
      exact .beat hguard.1 (List.isEmpty_iff.mp hguard.2) (beat_move h)
    · cases h
  | printServerStats =>
    simp only [step] at h
    split at h
    · split at h <;> cases h
      exact .printServerStats ‹_›
    · cases h
  | wait stats timeout =>
    cases stats with
    | false =>
      simp only [step] at h
      split at h
      · exact .heartbeatWait ‹_› (waitLoop_move h)
      · cases h
    | true =>
      simp only [step] at h
      split at h
      · exact .statsWait ‹_› (waitLoop_move h)
      · cases h
  | pong w x =>
    simp only [step] at h
    split at h <;> cases h
    exact .pong w x ‹_›
  | leave w =>
    simp only [step] at h
    split at h
    · rename_i hidle
      split at h <;> cases h
      rename_i hguard
      exact .leave hidle hguard.1 hguard.2.1 (List.isEmpty_iff.mp hguard.2.2)
    · cases h

end IocpServer.GameServer
