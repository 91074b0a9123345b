import IocpServer.Job.Refinement
import IocpServer.Server.Finality

namespace IocpServer.NetWork.Lifecycle

open Fifo (Event)

variable {R : Type} {c c' : Core R} {o : Choice R} {f : Frame R} {fs : List (Frame R)}

/-- The job queue of a session. -/
def Core.logic (c : Core R) : Fifo (Job R) := ⟨c.jobs,c.running⟩

/-- What the next step of a thread is for the queue. -/
def frameEvent (c : Core R) : Frame R → Option (Event (Job R))
  | .postLogic pkt => if c.logicStopped then none else some (.enqueue (.packet pkt))
  | .queueCleanup => some (.enqueue .cleanup)
  | .endJob => some .finish
  | _ => none

def entryEvent (c : Core R) : Entry → Option (Event (Job R))
  | .startJob => c.jobs.head?.map .start
  | _ => none

theorem exec_logic (hx : exec c o f=some (c',fs)) (hrun : f=.endJob → c.running=true) :
    Matches Fifo.Step c.logic (frameEvent c f) c'.logic := by
  cases exec_move hx with
  | postLogic pkt hopen =>
    simp only [frameEvent,hopen,Bool.false_eq_true,if_false]
    exact .enqueue c.jobs c.running _
  | stopped pkt hstop =>
    simp only [frameEvent,hstop,if_true]
    rfl
  | pipe ok pc p pc' ha =>
    obtain ⟨n,b,heq⟩ := pipeEffect_eq c ok pc p
    rw [heq]
    rfl
  | queueCleanup => exact .enqueue c.jobs c.running _
  | endJob =>
    unfold Core.logic
    rw [hrun rfl]
    exact .finish c.jobs
  | _ => rfl

theorem enter_logic {entry : Entry} (hx : enter c entry=some (c',fs)) :
    Matches Fifo.Step c.logic (entryEvent c entry) c'.logic := by
  cases enter_enters hx with
  | startJob j rest hjobs hrun =>
    unfold Core.logic entryEvent
    rw [hjobs,hrun]
    exact .start j rest
  | _ => rfl

/-- Where the queue can start a job, a thread can take it. -/
theorem enter_of_start {j : Job R} {queue : Fifo (Job R)} (h : Fifo.Step c.logic (.start j) queue) :
    ∃ c' fs, enter c .startJob=some (c',fs) ∧ c'.logic=queue := by
  generalize hlogic : c.logic=before at h
  cases h with
  | start j rest =>
    obtain ⟨hjobs,hrun⟩ := Fifo.mk.inj hlogic
    refine ⟨{ c with jobs := rest, running := true },[.job j],?_,rfl⟩
    simp only [enter,hjobs,hrun]

end IocpServer.NetWork.Lifecycle

namespace IocpServer.Server

open NetWork.Lifecycle
open Fifo (Event)

variable {T S : Type} [DecidableEq S]

def logic (x : S) (s : State T S) : Fifo (Job Packet) := (s.cores x).logic

/-- What an action is for the queue of session `x`. -/
def logicEvent (x : S) (s : State T S) : Action T S → Option (Event (Job Packet))
  | .run t _ _ =>
    match s.calls t with
    | (y,f)::_ => if y=x then frameEvent (s.cores x) f else none
    | [] => none
  | .enter _ y entry => if y=x then entryEvent (s.cores x) entry else none

variable [DecidableEq T] [Fintype T] {e : Env} {s s' : State T S}

omit [DecidableEq T] in
/-- A thread at the end of a job has run it. -/
theorem Inv.running_of_endJob (h : Inv s) {x : S} {t : T} {rest : List (S×Frame Packet)}
    (hcalls : s.calls t=(x,.endJob)::rest) : (s.cores x).running=true := by
  have hrun : tok Frame.working (Stacks.pending s.calls x)=(s.cores x).running.toNat :=
    (h.linked x).account.running
  have hmem : Frame.endJob∈Stacks.pending s.calls x := Stacks.mem_pending.mpr ⟨t,by simp [hcalls]⟩
  have hpos := tok_pos_of_mem (w:=Frame.working) hmem Nat.one_pos
  cases hr : (s.cores x).running with
  | true => rfl
  | false =>
    rw [hr] at hrun
    simp only [Bool.toNat_false] at hrun
    omega

/-- Every step of the server is a step of the queue of a session or invisible in it. -/
theorem step_logic (h : Inv s) {a : Action T S} (hs : step e s a=some s') (x : S) :
    Matches Fifo.Step (logic x s) (logicEvent x s a) (logic x s') := by
  cases a with
  | run t ok recv =>
    obtain ⟨y,f,rest,c,fs,hcalls,hexec,rfl⟩ := step_run hs
    simp only [logicEvent,hcalls]
    by_cases hy : y=x
    · subst hy
      simp only [if_true,logic,State.move,Function.update_self]
      refine exec_logic hexec ?_
      intro hf
      subst hf
      exact h.running_of_endJob hcalls
    · simp only [if_neg hy,logic,State.move,Function.update_of_ne (Ne.symm hy)]
      rfl
  | enter t y entry =>
    obtain ⟨c,fs,-,hx,rfl⟩ := step_enter hs
    simp only [logicEvent]
    by_cases hy : y=x
    · subst hy
      simp only [if_true,logic,State.move,Function.update_self]
      exact enter_logic hx
    · simp only [if_neg hy,logic,State.move,Function.update_of_ne (Ne.symm hy)]
      rfl

/-- The job queue of a session is the same on both levels. The threads in `push` and `execute` make
of it, in every interleaving, a queue that runs one job at a time in the order of arrival, and the
sessions use it as such a queue: each step of the server is a step of it or leaves it alone, and
what it can start a thread can take. -/
theorem logic_queue_refines_fifo (hc : ∀ str, str≠[] → e.codec.multiByteToWideChar str≠[]) (x : S) :
    (∀ (as : List (Job.Action T S (Job Packet))) s, runActions Job.step Job.State.init as=some s →
      Traces Fifo.Step Fifo.empty (trace Job.step (Job.fifoEvent x) Job.State.init as)
        (Job.fifo x s)) ∧
    (∀ maxSessionCount (s : State T S), Reaches (step e) Admission (State.init maxSessionCount) s →
      (∃ evs, Traces Fifo.Step Fifo.empty evs (logic x s)) ∧
      ∀ a s', step e s a=some s' → Matches Fifo.Step (logic x s) (logicEvent x s a) (logic x s')) ∧
    ∀ (s : State T S) j queue, Fifo.Step (logic x s) (.start j) queue →
      ∃ c fs, enter (s.cores x) .startJob=some (c,fs) ∧ c.logic=queue := by
  refine ⟨fun as s hs => Job.traces_fifo x as hs,?_,fun s j queue hstart => enter_of_start hstart⟩
  intro maxSessionCount s hr
  refine ⟨?_,fun a s' hs => step_logic (reaches_inv hc hr) hs x⟩
  exact Traces.of_reaches (logicEvent x) (logic x) hr
    fun u a v hu _ hs => step_logic (reaches_inv hc hu) hs x

theorem logic_queue_refines_fifo_disconnectInHandler :
    ∃ s₀ s, step asciiEnv (State.init 10) (.enter false () .offer)=some s₀ ∧
      runActions (step asciiEnv) s₀ disconnectInHandler=some s ∧ (s.cores ()).ran=1 ∧
      ∃ evs, Traces Fifo.Step Fifo.empty evs (logic () s) := by
  refine ⟨_,_,rfl,rfl,rfl,?_⟩
  have hoffer : Reaches (step asciiEnv) Admission (State.init 10 : State Bool Unit) _ :=
    Reaches.refl.tail (a:=.enter false () .offer) ⟨rfl,rfl⟩ rfl
  have hplain : disconnectInHandler.all Action.isPlain := by decide
  have hr := hoffer.trans (Reaches.of_admitted disconnectInHandler
    (fun a ha => admission_of_isPlain (List.all_eq_true.mp hplain a ha)) rfl)
  exact ((logic_queue_refines_fifo Game.ascii_nonempty ()).2.1 10 _ hr).1

end IocpServer.Server
