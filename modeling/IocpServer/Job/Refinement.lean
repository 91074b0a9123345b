import IocpServer.Framework.Fifo
import IocpServer.Job.Serialization
import IocpServer.Job.Steps

set_option linter.unusedSectionVars false

namespace IocpServer.Job

open Fifo (Event)

variable {T Q J : Type} [DecidableEq T] [DecidableEq Q]

/-- The thread is inside a job of the queue. -/
def Thread.runs (q : Q) (th : Thread Q J) : Bool :=
  match th.execute with
  | some ⟨r,.job _ _ _⟩ => r=q
  | _ => false

theorem Thread.runs_iff {th : Thread Q J} {q : Q} : th.runs q ↔ th.RunsJobOf q := by
  unfold runs RunsJobOf
  split
  · rename_i r j rest n he
    rw [he]
    constructor
    · intro hr
      have heq : r=q := by simpa using hr
      subst heq
      exact ⟨j,rest,n,rfl⟩
    · intro hr
      obtain ⟨j',rest',n',heq⟩ := hr
      cases heq
      simp
  · rename_i hno
    simp only [Bool.false_eq_true,false_iff]
    intro hr
    obtain ⟨j,rest,n,he⟩ := hr
    exact hno q j rest n he

variable [Fintype T]

/-- A queue as its users see it: the jobs that were appended and not started, and whether one is
running. -/
def fifo (q : Q) (s : State T Q J) : Fifo J :=
  ⟨(s.queues q).appended.drop (s.queues q).started.length,decide (∃ t, (s.threads t).runs q)⟩

/-- What an action is for the users of the queue: a job is stored, started or ended. -/
def fifoEvent (q : Q) (s : State T Q J) : Action T Q J → Option (Event J)
  | .append t =>
    match (s.threads t).push with
    | some ⟨r,j,_,.append _⟩ => if r=q then some (.enqueue j) else none
    | _ => none
  | .startJob t =>
    match (s.threads t).execute with
    | some ⟨r,.batch (j::_) _⟩ => if r=q then some (.start j) else none
    | _ => none
  | .endJob t =>
    match (s.threads t).execute with
    | some ⟨r,.job _ _ _⟩ => if r=q then some .finish else none
    | _ => none
  | _ => none

variable {s s' : State T Q J} {q : Q} {t : T}

/-- Thread `t` alone has moved, and it runs a job of the queue as before. -/
theorem exists_runs {k : State T Q J} {th : Thread Q J} (hothers : k.threads=s.threads)
    (hruns : th.runs q=(s.threads t).runs q) :
    (∃ u, ((k.setThread t th).threads u).runs q) ↔ ∃ u, (s.threads u).runs q := by
  have hsame (u : T) : ((k.setThread t th).threads u).runs q=(s.threads u).runs q := by
    by_cases hu : u=t
    · rw [hu,State.setThread_self]
      exact hruns
    · rw [State.setThread_of_ne _ hu,hothers]
  simp only [hsame]

/-- A thread and a queue change, and the queue keeps its record if it is the one in view. -/
theorem fifo_set {r : Q} {jq : JobQueue J} {th : Thread Q J}
    (hruns : th.runs q=(s.threads t).runs q)
    (hrec : r=q → jq.appended=(s.queues q).appended ∧ jq.started=(s.queues q).started) :
    fifo q ((s.setQueue r jq).setThread t th)=fifo q s := by
  have hexists := exists_runs (s:=s) (k:=s.setQueue r jq) rfl hruns
  unfold fifo
  simp only [hexists]
  by_cases hr : r=q
  · subst hr
    simp only [State.setThread,State.setQueue,Function.update_self,(hrec rfl).1,(hrec rfl).2]
  · simp only [State.setThread,State.setQueue,Function.update_of_ne (Ne.symm hr)]

/-- A thread and the global queue change. -/
theorem fifo_setGlobal (global : List Q) {th : Thread Q J}
    (hruns : th.runs q=(s.threads t).runs q) :
    fifo q (State.setThread { s with globalQueue := global } t th)=fifo q s := by
  have hexists := exists_runs (s:=s) (k:={ s with globalQueue := global }) rfl hruns
  unfold fifo
  simp only [hexists]
  rfl

theorem fifo_setThread {th : Thread Q J} (hruns : th.runs q=(s.threads t).runs q) :
    fifo q (s.setThread t th)=fifo q s :=
  fifo_setGlobal s.globalQueue hruns

/-- While a thread holds the queue outside a job, none of its jobs runs. -/
theorem Inv.none_runs (h : Inv s) (hex : 0<(s.threads t).executes q)
    (ht : (s.threads t).runs q=false) : ¬∃ u, (s.threads u).runs q := by
  intro hruns
  obtain ⟨u,hu⟩ := hruns
  have heq := h.executor_unique (Thread.runs_iff.mp hu).executes_pos hex
  subst heq
  rw [hu] at ht
  cases ht

theorem fifo_append (h : Inv s) {j : J} {jq : JobQueue J} {th : Thread Q J}
    (happ : jq.appended=(s.queues q).appended++[j]) (hstart : jq.started=(s.queues q).started)
    (hex : th.execute=(s.threads t).execute) :
    Fifo.Step (fifo q s) (.enqueue j) (fifo q ((s.setQueue q jq).setThread t th)) := by
  have hexists := exists_runs (s:=s) (k:=s.setQueue q jq) rfl
    (show th.runs q=(s.threads t).runs q by unfold Thread.runs; rw [hex])
  have hle := (h.queue q).runs_in_order.length_le
  have hwaiting : (((s.setQueue q jq).setThread t th).queues q).appended.drop
      (((s.setQueue q jq).setThread t th).queues q).started.length=
      (s.queues q).appended.drop (s.queues q).started.length++[j] := by
    simp only [State.setThread,State.setQueue,Function.update_self,happ,hstart]
    rw [List.drop_append_of_le_length hle]
  unfold fifo
  rw [hwaiting]
  simp only [hexists]
  exact .enqueue _ _ j

theorem fifo_start (h : Inv s) {j : J} {rest : List J} {n : Nat}
    (hex : (s.threads t).execute=some ⟨q,.batch (j::rest) n⟩) {jq : JobQueue J} {th : Thread Q J}
    (happ : jq.appended=(s.queues q).appended) (hstart : jq.started=(s.queues q).started++[j])
    (hex' : th.execute=some ⟨q,.job j rest n⟩) :
    Fifo.Step (fifo q s) (.start j) (fifo q ((s.setQueue q jq).setThread t th)) := by
  have hself : 0<(s.threads t).executes q := by simp [Thread.executes,hex]
  have hnone := h.none_runs hself (by simp [Thread.runs,hex])
  obtain ⟨rest',horder,hun,-⟩ := (h.queue q).order
  have hrest : rest'=j::rest := by
    rw [← hun t hself]
    simp [Thread.unstarted,hex,ExecuteAt.rest]
  subst hrest
  have hbefore : fifo q s=⟨j::(rest++(s.queues q).jobs),false⟩ := by
    unfold fifo
    rw [horder]
    simp [hnone]
  have hruns : ∃ u, (((s.setQueue q jq).setThread t th).threads u).runs q := by
    refine ⟨t,?_⟩
    rw [State.setThread_self]
    simp [Thread.runs,hex']
  have hafter : fifo q ((s.setQueue q jq).setThread t th)=⟨rest++(s.queues q).jobs,true⟩ := by
    unfold fifo
    rw [decide_eq_true hruns]
    simp only [State.setThread,State.setQueue,Function.update_self,happ,hstart,horder]
    simp
  rw [hbefore,hafter]
  exact .start j _

theorem fifo_finish (h : Inv s) {j : J} {rest : List J} {n : Nat}
    (hex : (s.threads t).execute=some ⟨q,.job j rest n⟩) {th : Thread Q J}
    (hex' : th.execute=some ⟨q,.batch rest n⟩) :
    Fifo.Step (fifo q s) .finish (fifo q (s.setThread t th)) := by
  have hself : (s.threads t).runs q := by simp [Thread.runs,hex]
  have hnone : ¬∃ u, ((s.setThread t th).threads u).runs q := by
    intro hruns
    obtain ⟨u,hu⟩ := hruns
    by_cases hut : u=t
    · rw [hut,State.setThread_self] at hu
      simp [Thread.runs,hex'] at hu
    · rw [State.setThread_of_ne _ hut] at hu
      have hpos := (Thread.runs_iff.mp hu).executes_pos
      exact hut (h.executor_unique hpos (Thread.runs_iff.mp hself).executes_pos)
  unfold fifo
  rw [decide_eq_true ⟨t,hself⟩,decide_eq_false hnone]
  exact .finish _

/-- Every step of a thread is a step of the queue or invisible in it. -/
theorem step_fifo (h : Inv s) {a : Action T Q J} (hs : step s a=some s') :
    Matches Fifo.Step (fifo q s) (fifoEvent q s a) (fifo q s') := by
  cases a with
  | push t r j po =>
    simp only [step] at hs
    split at hs <;> cases hs
    exact fifo_setThread rfl
  | fetchAdd t =>
    simp only [step] at hs
    split at hs <;> cases hs
    exact fifo_set rfl fun hr => by rw [hr]; exact ⟨rfl,rfl⟩
  | append t =>
    simp only [step] at hs
    split at hs <;> cases hs
    rename_i r j po prev hp
    by_cases hr : r=q
    · subst hr
      simp only [fifoEvent,hp,if_pos]
      exact fifo_append h rfl rfl rfl
    · simp only [fifoEvent,hp,if_neg hr]
      exact fifo_set rfl fun heq => absurd heq hr
  | handOff t =>
    have hok := h.thread t
    simp only [step] at hs
    split at hs
    · rename_i r j po prev hp
      split at hs
      · split at hs <;> cases hs
        · rename_i hin
          -- a thread that runs a job has its queue in `LCurrentJobQueue`
          have hcurrent : (s.threads t).currentJobQueue=none := by
            simp only [Bool.and_eq_true,Option.isNone_iff_eq_none] at hin
            exact hin.1
          have hno : (s.threads t).execute=none := by
            rcases hok.caller (by rw [hp]; rfl) with hno|⟨r',j',rest',n',hex⟩
            · exact hno
            · have hsome := hok.current
              rw [hcurrent,hex] at hsome
              simp [ExecuteAt.entered] at hsome
          exact fifo_setThread (by simp [Thread.runs,hno])
        · exact fifo_setGlobal _ rfl
      · cases hs
        exact fifo_setThread rfl
    · cases hs
  | globalPop t =>
    simp only [step] at hs
    split at hs <;> cases hs
    rename_i r rest hp hex hglobal
    exact fifo_setGlobal _ (by simp [Thread.runs,hex])
  | enter t =>
    simp only [step] at hs
    split at hs <;> cases hs
    rename_i r hex
    exact fifo_setThread (by simp [Thread.runs,hex])
  | popAll t =>
    simp only [step] at hs
    split at hs <;> cases hs
    rename_i r hex
    exact fifo_set (by simp [Thread.runs,hex]) fun hr => by rw [hr]; exact ⟨rfl,rfl⟩
  | startJob t =>
    simp only [step] at hs
    split at hs <;> cases hs
    rename_i r j rest n hex
    by_cases hr : r=q
    · subst hr
      simp only [fifoEvent,hex,if_pos]
      exact fifo_start h hex rfl rfl rfl
    · simp only [fifoEvent,hex,if_neg hr]
      exact fifo_set (by simp [Thread.runs,hex,hr]) fun heq => absurd heq hr
  | endJob t =>
    simp only [step] at hs
    split at hs <;> cases hs
    rename_i r j rest n hp hex
    by_cases hr : r=q
    · subst hr
      simp only [fifoEvent,hex,if_pos]
      exact fifo_finish h hex rfl
    · simp only [fifoEvent,hex,if_neg hr]
      exact fifo_setThread (by simp [Thread.runs,hex,hr])
  | fetchSub t =>
    simp only [step] at hs
    split at hs
    · rename_i r n hex
      split at hs <;> cases hs
      all_goals
        exact fifo_set (by simp [Thread.runs,hex]) fun hr => by rw [hr]; exact ⟨rfl,rfl⟩
    · cases hs
  | tick t expired =>
    simp only [step] at hs
    split at hs
    · rename_i r hex
      split at hs <;> cases hs <;> exact fifo_setThread (by simp [Thread.runs,hex])
    · cases hs
  | rePush t =>
    simp only [step] at hs
    split at hs <;> cases hs
    rename_i r hex
    exact fifo_setGlobal _ (by simp [Thread.runs,hex])

theorem fifo_init (q : Q) : fifo q (State.init : State T Q J)=Fifo.empty := by
  unfold fifo Fifo.empty
  simp [State.init,Thread.runs]

/-- Every run of the threads is, for each queue, a run of a queue with one job at a time. -/
theorem traces_fifo (q : Q) (as : List (Action T Q J))
    (h : runActions step State.init as=some s) :
    Traces Fifo.Step Fifo.empty (trace step (fifoEvent q) State.init as) (fifo q s) := by
  have htraces := Traces.of_matches (I:=Inv) (fifoEvent q) (fifo q)
    (fun _ a _ hi hs => step_inv a hs hi) (fun _ _ _ hi hs => step_fifo hi hs) as inv_init h
  rw [fifo_init] at htraces
  exact htraces

end IocpServer.Job
