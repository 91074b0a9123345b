import IocpServer.Framework.Monitor
import IocpServer.Server.Actors

set_option linter.unusedSectionVars false

namespace IocpServer.NetWork.Lifecycle

variable {R : Type} {c c' : Core R} {o : Choice R} {f : Frame R} {fs : List (Frame R)}

/-- `finish_io` alone lowers the count of operations. -/
theorem exec_pendingIo (hx : exec c o f=some (c',fs)) (hf : f≠.finishIo) :
    c.pendingIo ≤ c'.pendingIo := by
  cases exec_move hx with
  | pipe ok pc p pc' ha =>
    unfold pipeEffect
    repeat' split
    all_goals first | exact Nat.le_refl _ | exact Nat.le_succ _
  | receive => exact Nat.le_succ _
  | finishIo => exact absurd rfl hf
  | _ => exact Nat.le_refl _

/-- The end of a job alone lowers the count of jobs. -/
theorem exec_pendingJobs (hx : exec c o f=some (c',fs)) (hf : f≠.endJob) :
    c.pendingJobs ≤ c'.pendingJobs := by
  cases exec_move hx with
  | pipe ok pc p pc' ha =>
    obtain ⟨n,b,heq⟩ := pipeEffect_eq c ok pc p
    rw [heq]
  | postLogic | queueCleanup => exact Nat.le_succ _
  | endJob => exact absurd rfl hf
  | _ => exact Nat.le_refl _

theorem enter_pending {entry : Entry} (hx : enter c entry=some (c',fs)) :
    c'.pendingIo=c.pendingIo ∧ c'.pendingJobs=c.pendingJobs := by
  cases enter_enters hx <;> exact ⟨rfl,rfl⟩

end IocpServer.NetWork.Lifecycle

namespace IocpServer.Server

open NetWork.Lifecycle

variable {T S : Type} [DecidableEq T] [DecidableEq S] {e : Env} {s s' : State T S}

/-- A step leaves session `x` alone, or a thread calls it or goes on in it. -/
theorem step_at {b : Action T S} (hs : step e s b=some s') (x : S) :
    s'.cores x=s.cores x ∧ s'.game.sessions x=s.game.sessions x ∨
    (∃ t entry fs, b=.enter t x entry ∧ enter (s.cores x) entry=some (s'.cores x,fs) ∧
      s'.game=s.game) ∨
    ∃ t ok recv f rest fs, b=.run t ok recv ∧ s.calls t=(x,f)::rest ∧
      exec (s.cores x) (s.choice e x f ok recv) f=some (s'.cores x,fs) ∧
      s'.game=(gameStep e s.game x (s.cores x).pipe.isConnect f).1 := by
  cases b with
  | run t ok recv =>
    obtain ⟨y,f,rest,c,fs,hcalls,hexec,rfl⟩ := step_run hs
    by_cases hxy : x=y
    · subst hxy
      refine Or.inr (Or.inr ⟨t,ok,recv,f,rest,fs,rfl,hcalls,?_,rfl⟩)
      simpa [State.move] using hexec
    · exact Or.inl ⟨Function.update_of_ne hxy _ _,(gameStep_other e s.game hxy _ f).sessions⟩
  | enter t y entry =>
    obtain ⟨c,fs,-,henter,rfl⟩ := step_enter hs
    by_cases hxy : x=y
    · subst hxy
      refine Or.inr (Or.inl ⟨t,entry,fs,rfl,?_,rfl⟩)
      simpa [State.move] using henter
    · exact Or.inl ⟨Function.update_of_ne hxy _ _,rfl⟩

/-- Outside a job nobody stores `_cleanup_done`. -/
theorem cleanupDone_of_gameStep (e : Env) (g : Game.State S) (x : S) (isConnect : Bool)
    {f : Frame Packet} (hf : f.working=0) :
    ((gameStep e g x isConnect f).1.sessions x).cleanupDone=(g.sessions x).cleanupDone := by
  cases f with
  | job | body | endJob => cases hf
  | addSession =>
    simp only [gameStep]
    split <;> rfl
  | _ => exact (gameStep_settled e g x isConnect (by simp) (by simp) (by simp)).2.1

end IocpServer.Server

namespace IocpServer.Service

open NetWork.Lifecycle
open Server (Env)

/-- The condition variables that `close_service` sleeps on: `_io_completed` of the listener and of a
session, and `_logic_completed` of a session. -/
inductive Condition (S : Type) where
  | listener
  | io (x : S)
  | logic (x : S)
deriving DecidableEq

variable {T S A : Type}

/-- The condition variable that `close_service` is at. -/
def waitsOn (v : State T S A) : Option (Condition S) :=
  match v.close with
  | .waitListener => some .listener
  | .waitForIo (x::_) => some (.io x)
  | .waitForJobs x _ => some (.logic x)
  | _ => none

/-- The condition variable that a step notifies: `finish_io` and the end of a job do when they bring
their count to zero. The store of `_cleanup_done` notifies nobody. -/
def notifies (v : State T S A) : Action T S A → Option (Condition S)
  | .listener t _ _ _ =>
    match v.workers t with
    | .finishIo => if v.pendingIo-1=0 then some .listener else none
    | _ => none
  | .server (.run t _ _) =>
    match v.server.calls t with
    | (x,.finishIo)::_ => if (v.server.cores x).pendingIo-1=0 then some (.io x) else none
    | (x,.endJob)::_ => if (v.server.cores x).pendingJobs-1=0 then some (.logic x) else none
    | _ => none
  | _ => none

/-- `close_service` is at a wait whose predicate does not hold. -/
def Blocked (v : State T S A) : Prop :=
  match v.close with
  | .waitListener => v.pendingIo≠0
  | .waitForIo (x::_) => (v.server.cores x).pendingIo≠0
  | .waitForJobs x _ =>
    ¬((v.server.game.sessions x).cleanupDone ∧ (v.server.cores x).pendingJobs=0)
  | _ => False

variable [DecidableEq T] [DecidableEq S] [DecidableEq A] [Fintype T] [Fintype A]
  {e : Env} {main : T} {v v' : State T S A} {a : Action T S A}

theorem blocked_iff (hi : Inv main v) :
    Blocked v ↔ (waitsOn v).isSome ∧ closeStep e main v=none := by
  have hst := hi.stage
  unfold Stage at hst
  unfold Blocked waitsOn closeStep
  cases hclose : v.close with
  | waitForIo sessions =>
    cases sessions with
    | nil => simp
    | cons x sessions => simp
  | waitForJobs x sessions =>
    simp only [hclose] at hst
    simp [Server.step,Server.canEnter,hst.2.1,enter]
  | _ => simp

/-- The count of the closed listener comes to zero by a `finish_io` that notifies. -/
theorem pendingIo_of_silent (hstop : v.acceptStopped) (hs : step e main v a=some v')
    (hno : notifies v a≠some .listener) (hio : v.pendingIo≠0) : v'.pendingIo≠0 := by
  cases step_move hs with
  | startAccept hstart hr =>
    rw [registerAccept_of_stopped hstop] at hr
    cases hr
    exact hio
  | registerAccept ht hcalls hr =>
    rw [registerAccept_of_stopped hstop] at hr
    cases hr
    exact hio
  | finishIo ht =>
    show v.pendingIo-1≠0
    intro hzero
    apply hno
    simp [notifies,ht,hzero]
  | close hstep =>
    cases closeStep_move hstep <;> exact hio
  | _ => exact hio

/-- The count of operations of a session comes to zero by a `finish_io` that notifies. -/
theorem sessionIo_of_silent {x : S} (hs : step e main v a=some v')
    (hno : notifies v a≠some (.io x)) (hio : (v.server.cores x).pendingIo≠0) :
    (v'.server.cores x).pendingIo≠0 := by
  rcases step_server hs with heq|⟨b,-,hb,hstep⟩
  · rw [heq]
    exact hio
  rcases Server.step_at hstep x with ⟨hcore,-⟩|⟨t,entry,fs,-,henter,-⟩|
    ⟨t,ok,recv,f,rest,fs,hrun,hcalls,hexec,-⟩
  · rw [hcore]
    exact hio
  · rw [(enter_pending henter).1]
    exact hio
  · by_cases hf : f=.finishIo
    · subst hf
      have hcore : (v'.server.cores x).pendingIo=(v.server.cores x).pendingIo-1 := by
        rw [← (Prod.mk.inj (Option.some.inj hexec)).1]
      intro hzero
      apply hno
      rw [hb.resolve_right (by simp [hrun]),hrun]
      simp only [notifies,hcalls]
      exact if_pos (hcore.symm.trans hzero)
    · have hle := exec_pendingIo hexec hf
      omega

/-- The predicate of the second wait of `wait_for_shutdown` comes true by the end of a job, which
notifies: when `_cleanup_done` is stored, the job that stores it still counts. -/
theorem logic_of_silent (hi : Inv main v) {x : S} (hs : step e main v a=some v')
    (hno : notifies v a≠some (.logic x))
    (hwait : ¬((v.server.game.sessions x).cleanupDone ∧ (v.server.cores x).pendingJobs=0)) :
    ¬((v'.server.game.sessions x).cleanupDone ∧ (v'.server.cores x).pendingJobs=0) := by
  rcases step_server hs with heq|⟨b,-,hb,hstep⟩
  · rw [heq]
    exact hwait
  rcases Server.step_at hstep x with ⟨hcore,hgame⟩|⟨t,entry,fs,-,henter,hgame⟩|
    ⟨t,ok,recv,f,rest,fs,hrun,hcalls,hexec,hgame⟩
  · rw [hcore,hgame]
    exact hwait
  · rw [(enter_pending henter).2,hgame]
    exact hwait
  · intro hdone
    by_cases hjobs : (v.server.cores x).pendingJobs=0
    · -- no job is counted, so the thread runs none
      have hbooks := (hi.running.resident x).sound.books.jobs
      have hcount : (v.server.view x).core.pendingJobs=0 := hjobs
      have hin : f∈(v.server.view x).frames := Stacks.mem_pending.mpr ⟨t,by simp [hcalls]⟩
      have hidle : f.working=0 := by
        by_contra hne
        have := tok_pos_of_mem hin (Nat.pos_of_ne_zero hne)
        omega
      apply hwait
      refine ⟨?_,hjobs⟩
      have hflag := Server.cleanupDone_of_gameStep e v.server.game x
        (v.server.cores x).pipe.isConnect hidle
      rw [← hflag,← hgame]
      exact hdone.1
    · by_cases hf : f=.endJob
      · subst hf
        have hcore : (v'.server.cores x).pendingJobs=(v.server.cores x).pendingJobs-1 := by
          rw [← (Prod.mk.inj (Option.some.inj hexec)).1]
        apply hno
        rw [hb.resolve_right (by simp [hrun]),hrun]
        simp only [notifies,hcalls]
        exact if_pos (hcore.symm.trans hdone.2)
      · have hle := exec_pendingJobs hexec hf
        omega

/-- A step that does not notify `close_service` leaves it blocked. -/
theorem Blocked.step (h : Blocked v) (hi : Inv main v) (hs : Service.step e main v a=some v')
    (ha : a≠.close) (hno : notifies v a≠waitsOn v) : Blocked v' := by
  have hstop : v.close≠.running → v.acceptStopped := hi.acceptStopped
  unfold Blocked at h ⊢
  unfold waitsOn at hno
  rw [step_close hs ha]
  cases hclose : v.close with
  | waitListener =>
    simp only [hclose] at h hno ⊢
    exact pendingIo_of_silent (hstop (by simp [hclose])) hs hno h
  | waitForIo sessions =>
    cases sessions with
    | nil => simp [hclose] at h
    | cons x sessions =>
      simp only [hclose] at h hno ⊢
      exact sessionIo_of_silent hs hno h
  | waitForJobs x sessions =>
    simp only [hclose] at h hno ⊢
    exact logic_of_silent hi hs hno h
  | _ => simp [hclose] at h

/-- A step of the other threads, or of `main` inside a session, which costs one if it brings
something new, with whether it notifies the condition variable that `close_service` is at. -/
def Other (e : Env) (main : T) (v : State T S A) (c : Nat) (notified : Bool) (v' : State T S A) :
    Prop :=
  ∃ a, a≠.close ∧ Ok v a ∧ c=(news v a).toNat ∧ step e main v a=some v' ∧
    notified=decide (notifies v a=waitsOn v)

/-- `close_service` is at a wait. -/
def AtWait (v : State T S A) : Prop := (waitsOn v).isSome

/-- A step of the service whose `close_service` sleeps on its condition variables, which costs one if
it brings something new or is a wake-up without a reason. -/
def SleepSteps (e : Env) (main : T) :
    Monitor.State (State T S A) → Nat → Monitor.State (State T S A) → Prop :=
  Monitor.Step (Other e main) (closeStep e main) AtWait

/-- Runs of the service in which `close_service` sleeps on its condition variables. -/
def Runs (e : Env) (main : T) (m m' : Monitor.State (State T S A)) : Prop :=
  Relation.ReflTransGen (fun m m' => ∃ c, SleepSteps e main m c m') m m'

theorem Other.blocked {c : Nat} (hi : Inv main v) (hwait : AtWait v)
    (hno : closeStep e main v=none) (h : Other e main v c false v') (hi' : Inv main v') :
    AtWait v' ∧ closeStep e main v'=none := by
  obtain ⟨a,ha,hok,-,hs,hnot⟩ := h
  have hblocked : Blocked v := (blocked_iff hi).mpr ⟨hwait,hno⟩
  exact (blocked_iff hi').mp (hblocked.step hi hs ha (by simpa using hnot.symm))

/-- A run with sleeps is a run of the service. -/
theorem Runs.reaches {m m' : Monitor.State (State T S A)} (h : Runs e main m m') :
    Reaches (step e main) Ok m.state m'.state := by
  induction h with
  | refl => exact Reaches.refl
  | tail _ hs ih =>
    obtain ⟨c,hs⟩ := hs
    cases hs with
    | other asleep ho =>
      obtain ⟨a,-,hok,-,hs,-⟩ := ho
      exact ih.tail hok hs
    | go hg => exact ih.tail (a:=.close) trivial hg
    | sleep => exact ih
    | spurious => exact ih

/-- A step that does not notify leaves a sleeper asleep. -/
theorem SleepSteps.of_silent (hs : step e main v a=some v') (ha : a≠.close) (hok : Ok v a)
    (hno : notifies v a≠waitsOn v) : SleepSteps e main ⟨v,true⟩ (news v a).toNat ⟨v',true⟩ := by
  have ho : Other e main v (news v a).toNat false v' :=
    ⟨a,ha,hok,rfl,hs,(decide_eq_false hno).symm⟩
  exact .other true ho

/-- A run of the service is a run in which `close_service` is never asleep. -/
theorem Runs.of_reaches (h : Reaches (step e main) Ok v v') :
    Runs e main ⟨v,false⟩ ⟨v',false⟩ := by
  induction h with
  | refl => exact .refl
  | tail _ hs ih =>
    obtain ⟨a,hok,hs⟩ := hs
    by_cases ha : a=.close
    · subst ha
      exact ih.tail ⟨0,.go hs⟩
    · exact ih.tail ⟨_,.other false ⟨a,ha,hok,rfl,hs,rfl⟩⟩

/-- With its condition variables, `close_service` sleeps only while it has to, and once it was called
no schedule keeps it from returning: whoever makes true what it waits for wakes it up. The bound
grows by 608 for each thing that is new and for each wake-up without a reason. -/
theorem close_service_wakes (hc : ∀ str, str≠[] → e.codec.multiByteToWideChar str≠[])
    {worker : T} (hw : worker≠main) (maxSessionCount : Int) {slots : List A} (hslots : slots.Nodup)
    {m : Monitor.State (State T S A)} (h : Runs e main ⟨State.init maxSessionCount slots,false⟩ m) :
    (m.asleep → Blocked m.state) ∧
      (m.state.close≠.running → ∀ n c m', Run (SleepSteps e main) m n c m' →
        n ≤ 2*effort m.state+1+608*c ∧
          (m'.state.close=.returned ∨ ∃ w, SleepSteps e main m' 0 w)) := by
  have hinv (m : Monitor.State (State T S A))
      (hm : Runs e main ⟨State.init maxSessionCount slots,false⟩ m) : Inv main m.state :=
    reaches_inv hc hm.reaches
  have hright : Monitor.Rightly (closeStep e main) AtWait m := by
    induction h with
    | refl => exact fun hasleep => by cases hasleep
    | tail hr hs ih =>
      obtain ⟨c,hs⟩ := hs
      have hi := hinv _ hr
      refine ih.step ?_ hs
      intro c v' hwait hno ho
      obtain ⟨a,-,hok,-,hs,-⟩ := id ho
      exact ho.blocked hi hwait hno (hi.step hc hok hs)
  refine ⟨fun hasleep => (blocked_iff (hinv m h)).mpr (hright hasleep),?_⟩
  intro hclose n c m' hrun
  have hcloses := reaches_closes hc hslots h.reaches
  have hends := Monitor.ends_asleep (P:=fun v => Closes v ∧ Inv main v ∧ v.close≠.running)
    (fun v => v.close=.returned) effort (show 0<304 by omega) ?_ ?_ ?_ ?_
    ⟨hcloses,hinv m h,hclose⟩ hright hrun
  · have hone := Bool.toNat_le (!m.asleep)
    exact ⟨by omega,hends.2⟩
  · intro v c b v' hv ho
    obtain ⟨hv,hi,hrunning⟩ := hv
    obtain ⟨a,-,hok,rfl,hs,-⟩ := ho
    exact ⟨⟨hv.step hi hok hs,hi.step hc hok hs,step_closing hrunning hs⟩,
      effort_step hv hi hrunning hok hs⟩
  · intro v v' hv hs
    obtain ⟨hv,hi,hrunning⟩ := hv
    exact ⟨⟨hv.closeStep hi hs,hi.closeStep hc hs,closeStep_closing hs⟩,
      effort_close hv hi hrunning hs⟩
  · intro v c v' hv hwait hno ho
    obtain ⟨a,-,hok,-,hs,-⟩ := id ho
    exact ho.blocked hv.2.1 hwait hno (hv.2.1.step hc hok hs)
  · intro v hv
    refine (goesOn_of_closing (e:=e) hv.1 hv.2.1 hv.2.2 hw).imp_right ?_
    intro hgo
    obtain ⟨a,-,hok,hq,hs⟩ := hgo
    by_cases ha : a=.close
    · subst ha
      exact Or.inr hs
    · obtain ⟨v',hv'⟩ := Option.isSome_iff_exists.mp hs
      exact Or.inl ⟨_,v',a,ha,hok,by rw [hq]; rfl,hv',rfl⟩

/-- An accept is in flight, so that `close_service` sleeps. It wakes up without a reason and sleeps
again, and a client sends data. -/
theorem close_service_wakes_loginAndReject :
    ∃ u v w, runActions (step Server.asciiEnv true) (State.init 1 [()]) loginAndReject=some u ∧
      step Server.asciiEnv true u .close=some v ∧
      step Server.asciiEnv true v (call 0 (.recvCompleted 8))=some w ∧ Blocked v ∧
      Run (SleepSteps Server.asciiEnv true) ⟨v,true⟩ 3 2 ⟨w,true⟩ ∧ 3 ≤ 2*effort v+1+608*2 ∧
      (w.close=.returned ∨ ∃ m', SleepSteps Server.asciiEnv true ⟨w,true⟩ 0 m') := by
  refine ⟨_,_,_,rfl,rfl,rfl,?_⟩
  have h1 : Reaches (step Server.asciiEnv true) Ok (State.init 1 [()]) _ :=
    reaches_of_isFree loginAndReject (by decide) rfl
  have h2 := Runs.of_reaches (h1.tail (a:=.close) trivial rfl)
  have h3 : Runs Server.asciiEnv true _ ⟨_,true⟩ := h2.tail ⟨0,.sleep rfl rfl⟩
  have hwakes := close_service_wakes Game.ascii_nonempty (show false≠true by decide) 1
    (List.nodup_singleton ()) h3
  refine ⟨hwakes.1 rfl,?hrun,hwakes.2 ?hclose _ _ _ ?hrun⟩
  case hclose =>
    intro hclose
    cases hclose
  case hrun =>
    apply Run.cons (c:=1) (d:=1)
    · exact Monitor.Step.spurious _
    apply Run.cons (c:=0) (d:=1)
    · exact Monitor.Step.sleep rfl rfl
    apply Run.cons (d:=0) _ (.refl _)
    refine SleepSteps.of_silent (a:=call 0 (.recvCompleted 8)) rfl (by simp [call]) trivial ?_
    intro hno
    cases hno

end IocpServer.Service
