import IocpServer.Framework.Machine
import IocpServer.Framework.Threads

namespace IocpServer.Job

/-- A `JobQueue`: the jobs stored in its `LockQueue` and the atomic job counter, of which `jobCount_fits`
shows that 32 bits are enough. `appended` and `started` are histories of the queue, which no step
reads. -/
structure JobQueue (J : Type) where
  jobs : List J
  jobCount : Int
  appended : List J
  started : List J

/-- Where a thread stands in `JobQueue::push`. -/
inductive PushAt where
  | fetchAdd
  | append (prevCount : Int)
  | handOff (prevCount : Int)

structure PushCall (Q J : Type) where
  queue : Q
  job : J
  pushOnly : Bool
  pc : PushAt

/-- Where a thread stands in `JobQueue::execute`. `batch` lies between two jobs of the popped
vector, `job` inside `jobs[i]->execute()`; `jobCount` is the size of the whole vector. -/
inductive ExecuteAt (J : Type) where
  | enter
  | popAll
  | batch (rest : List J) (jobCount : Nat)
  | job (job : J) (rest : List J) (jobCount : Nat)
  | tick
  | handOff

structure ExecuteCall (Q J : Type) where
  queue : Q
  pc : ExecuteAt J

/-- A thread: `LCurrentJobQueue`, its activation of `execute` (reached from the global queue or
inlined at the end of `push`) and its innermost activation of `push`. -/
structure Thread (Q J : Type) where
  currentJobQueue : Option Q
  execute : Option (ExecuteCall Q J)
  push : Option (PushCall Q J)

structure State (T Q J : Type) where
  queues : Q → JobQueue J
  globalQueue : List Q
  threads : T → Thread Q J

variable {T Q J : Type} [DecidableEq T] [DecidableEq Q]

namespace State

def init : State T Q J :=
  ⟨fun _ => ⟨[],0,[],[]⟩,[],fun _ => ⟨none,none,none⟩⟩

def setThread (s : State T Q J) (t : T) (th : Thread Q J) : State T Q J :=
  { s with threads := Function.update s.threads t th }

def setQueue (s : State T Q J) (q : Q) (jq : JobQueue J) : State T Q J :=
  { s with queues := Function.update s.queues q jq }

end State

/-- Code outside this file runs on a thread when it is in neither function, or in a job. -/
def Thread.outside (th : Thread Q J) : Bool :=
  match th.push,th.execute with
  | none,none => true
  | none,some ⟨_,.job _ _ _⟩ => true
  | _,_ => false

inductive Action (T Q J : Type) where
  | push (t : T) (q : Q) (job : J) (pushOnly : Bool)
  | fetchAdd (t : T)
  | append (t : T)
  | handOff (t : T)
  | globalPop (t : T)
  | enter (t : T)
  | popAll (t : T)
  | startJob (t : T)
  | endJob (t : T)
  | fetchSub (t : T)
  | tick (t : T) (expired : Bool)
  | rePush (t : T)

/-- One atomic step of one thread. `expired` is the outcome of `now >= LEndTickCount`. -/
def step (s : State T Q J) : Action T Q J → Option (State T Q J)
  | .push t q j pushOnly =>
    let th := s.threads t
    if th.outside then some (s.setThread t { th with push := some ⟨q,j,pushOnly,.fetchAdd⟩ })
    else none
  | .fetchAdd t =>
    let th := s.threads t
    match th.push with
    | some ⟨q,j,po,.fetchAdd⟩ =>
      let jq := s.queues q
      some ((s.setQueue q { jq with jobCount := jq.jobCount+1 }).setThread t
        { th with push := some ⟨q,j,po,.append jq.jobCount⟩ })
    | _ => none
  | .append t =>
    let th := s.threads t
    match th.push with
    | some ⟨q,j,po,.append prev⟩ =>
      let jq := s.queues q
      some ((s.setQueue q { jq with jobs := jq.jobs++[j], appended := jq.appended++[j] }).setThread t
        { th with push := some ⟨q,j,po,.handOff prev⟩ })
    | _ => none
  | .handOff t =>
    let th := s.threads t
    match th.push with
    | some ⟨q,_,po,.handOff prev⟩ =>
      if prev=0 then
        if th.currentJobQueue.isNone && !po then
          some (s.setThread t { th with push := none, execute := some ⟨q,.enter⟩ })
        else some ({ s with globalQueue := s.globalQueue++[q] }.setThread t { th with push := none })
      else some (s.setThread t { th with push := none })
    | _ => none
  | .globalPop t =>
    let th := s.threads t
    match th.push,th.execute,s.globalQueue with
    | none,none,q::rest =>
      some ({ s with globalQueue := rest }.setThread t { th with execute := some ⟨q,.enter⟩ })
    | _,_,_ => none
  | .enter t =>
    let th := s.threads t
    match th.execute with
    | some ⟨q,.enter⟩ =>
      some (s.setThread t { th with currentJobQueue := some q, execute := some ⟨q,.popAll⟩ })
    | _ => none
  | .popAll t =>
    let th := s.threads t
    match th.execute with
    | some ⟨q,.popAll⟩ =>
      let jq := s.queues q
      some ((s.setQueue q { jq with jobs := [] }).setThread t
        { th with execute := some ⟨q,.batch jq.jobs jq.jobs.length⟩ })
    | _ => none
  | .startJob t =>
    let th := s.threads t
    match th.execute with
    | some ⟨q,.batch (j::rest) n⟩ =>
      let jq := s.queues q
      some ((s.setQueue q { jq with started := jq.started++[j] }).setThread t
        { th with execute := some ⟨q,.job j rest n⟩ })
    | _ => none
  | .endJob t =>
    let th := s.threads t
    match th.push,th.execute with
    | none,some ⟨q,.job _ rest n⟩ =>
      some (s.setThread t { th with execute := some ⟨q,.batch rest n⟩ })
    | _,_ => none
  | .fetchSub t =>
    let th := s.threads t
    match th.execute with
    | some ⟨q,.batch [] n⟩ =>
      let jq := s.queues q
      let s := s.setQueue q { jq with jobCount := jq.jobCount-n }
      if jq.jobCount=n then some (s.setThread t { th with currentJobQueue := none, execute := none })
      else some (s.setThread t { th with execute := some ⟨q,.tick⟩ })
    | _ => none
  | .tick t expired =>
    let th := s.threads t
    match th.execute with
    | some ⟨q,.tick⟩ =>
      if expired then
        some (s.setThread t { th with currentJobQueue := none, execute := some ⟨q,.handOff⟩ })
      else some (s.setThread t { th with execute := some ⟨q,.popAll⟩ })
    | _ => none
  | .rePush t =>
    let th := s.threads t
    match th.execute with
    | some ⟨q,.handOff⟩ =>
      some ({ s with globalQueue := s.globalQueue++[q] }.setThread t { th with execute := none })
    | _ => none

end IocpServer.Job
