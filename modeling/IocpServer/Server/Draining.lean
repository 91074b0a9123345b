import IocpServer.Framework.Progress
import IocpServer.NetWork.IoLedger
import IocpServer.Server.Residence

set_option linter.unusedSectionVars false

namespace IocpServer.Server

open NetWork.Lifecycle
open NetWork.SendPipeline (At)

variable {T S : Type}

/-- A frame that waits for the call above it to return. -/
def returns : Frame Packet → Bool
  | .body _ | .onRecvNext | .finishIo => true
  | _ => false

/-- Only the innermost call of a thread is anywhere else. -/
def Shaped : List (S×Frame Packet) → Prop
  | [] => True
  | (_,f)::rest => f≠.pipe .idle ∧ ∀ p∈rest, returns p.2

/-- A step continues with at most one call that does not wait for another one. -/
def Continues (fs : List (Frame Packet)) : Prop :=
  (∀ f∈fs, f≠.pipe .idle) ∧ ∀ f∈fs.tail, returns f

section

variable {c c' : Core Packet} {o : Choice Packet} {f : Frame Packet} {fs : List (Frame Packet)}

theorem continues_pipeNext (pc pc' : At) : Continues (pipeNext pc pc') := by
  cases pc' with
  | idle =>
    simp only [pipeNext]
    split <;> exact ⟨by simp,by simp⟩
  | _ => exact ⟨by simp [pipeNext],by simp [pipeNext]⟩

theorem exec_continues (hx : exec c o f=some (c',fs)) : Continues fs := by
  cases exec_move hx with
  | pipe ok pc p pc' ha => exact continues_pipeNext pc pc'
  | handle | drop | cleanup => exact ⟨by simp,by simp⟩
  | _ => exact ⟨by simp [disconnect],by simp [returns]⟩

theorem enter_continues {entry : Entry} (hx : enter c entry=some (c',fs)) : Continues fs := by
  cases enter_enters hx with
  | _ => exact ⟨by simp [disconnect],by simp [returns]⟩

theorem Shaped.on {x : S} {rest : List (S×Frame Packet)} (hfs : Continues fs)
    (hrest : ∀ p∈rest, returns p.2) : Shaped (Stacks.on x fs++rest) := by
  cases fs with
  | nil =>
    cases rest with
    | nil => trivial
    | cons p rest =>
      obtain ⟨y,g⟩ := p
      refine ⟨?_,fun p hp => hrest p (List.mem_cons_of_mem _ hp)⟩
      have hg : returns g := hrest _ List.mem_cons_self
      intro hidle
      subst hidle
      cases hg
  | cons f fs =>
    refine ⟨hfs.1 f List.mem_cons_self,?_⟩
    intro p hp
    cases List.mem_append.mp hp with
    | inl hp =>
      obtain ⟨g,hg,rfl⟩ := List.mem_map.mp hp
      exact hfs.2 g hg
    | inr hp => exact hrest p hp

end

/-- Who makes a call waits for it. -/
theorem Shaped.of_canEnter {stack : List (S×Frame Packet)} (h : Shaped stack) {entry : Entry}
    (hcan : canEnter stack entry) : ∀ p∈stack, returns p.2 := by
  cases stack with
  | nil => exact fun p hp => absurd hp List.not_mem_nil
  | cons p rest =>
    obtain ⟨x,f⟩ := p
    have hf : ∃ cleanup, f=.body cleanup := by
      cases entry <;> simp only [canEnter,List.isEmpty_cons,Bool.false_eq_true] at hcan
      all_goals
        split at hcan
        · rename_i heq
          cases heq
        · rename_i heq
          cases heq
          exact ⟨_,rfl⟩
        · cases hcan
    obtain ⟨cleanup,rfl⟩ := hf
    exact List.forall_mem_cons.mpr ⟨rfl,h.2⟩

variable [DecidableEq S] [DecidableEq T]

theorem shaped_step {e : Env} {s s' : State T S} {a : Action T S} (h : ∀ t, Shaped (s.calls t))
    (hs : step e s a=some s') : ∀ t, Shaped (s'.calls t) := by
  intro u
  cases a with
  | run t ok recv =>
    obtain ⟨x,f,rest,c,fs,hcalls,hx,rfl⟩ := step_run hs
    simp only [State.move]
    by_cases hu : u=t
    · subst hu
      rw [Function.update_self]
      have hshape := h u
      rw [hcalls] at hshape
      exact Shaped.on (exec_continues hx) hshape.2
    · rw [Function.update_of_ne hu]
      exact h u
  | enter t x entry =>
    obtain ⟨c,fs,hcan,hx,rfl⟩ := step_enter hs
    simp only [State.move]
    by_cases hu : u=t
    · subst hu
      rw [Function.update_self]
      exact Shaped.on (enter_continues hx) ((h u).of_canEnter hcan)
    · rw [Function.update_of_ne hu]
      exact h u

/-- The weight of the send path: what a point still costs if nothing new comes in, with the
completion of the operation it may register. -/
def pipeWeight : At → Nat
  | .idle => 0
  | .processDisconnect => 1
  | .beginShutdown => 2
  | .registerDisconnect => 4
  | .disconnect _ => 5
  | .refused | .flushed => 6
  | .transmit => 11
  | .drain => 12
  | .registerSend => 13
  | .enqueue _ | .requeue => 14
  | .send _ => 15
  | .consume n => if n=0 then 7 else 15
  | .processSend n => if n=0 then 8 else 16
  | .closeFlags => 303

/-- The weight of the operations of a job, with those that they add and the calls they make. -/
def opWeight : Game.Op → Nat
  | .loginCall _ _ => 150
  | .logoutCall => 140
  | .enterCall _ | .exitCall _ => 60
  | .exchangeIsLogin _ => 40
  | _ => 18

def todoWeight (ops : List Game.Op) : Nat := (ops.map opWeight).sum

def frameWeight (g : Game.State S) (x : S) : Frame Packet → Nat
  | .endJob | .finishIo => 1
  | .registerRecv => 9
  | .onRecv | .countConnect => 10
  | .onRecvNext | .storeConnect => 11
  | .processRecv numOfBytes => if numOfBytes=0 then 6 else 11
  | .processConnect => 12
  | .rejectNotice => 16
  | .rejectCount => 17
  | .rejectClose => 18
  | .rejectStore => 19
  | .rejectConnection => 20
  | .addSession => 21
  | .pipe pc => pipeWeight pc
  | .job _ => 300
  | .body _ => 2+todoWeight (g.sessions x).todo
  | .postLogic _ | .queueCleanup => 302

/-- The weight of what a session waits for: its jobs, its registered operations and its one
`process_disconnect`. -/
def coreWeight (c : Core Packet) : Nat :=
  301*c.jobs.length+8*c.receiving.toNat+10*c.pipe.flight.isSome.toNat+3*c.pipe.disconnecting.toNat+
    303*(!c.pipe.isDisconnect).toNat

def stackWeight (g : Game.State S) (stack : List (S×Frame Packet)) : Nat :=
  (stack.map fun p => frameWeight g p.1 p.2).sum

/-- An operation that is executed takes more than it leaves. -/
theorem exec_opWeight (c : Game.Codec) (g : Game.State S) (x : S) (op : Game.Op) :
    todoWeight (Game.exec c g x op).2.1+15<opWeight op := by
  cases op with
  | loginCall bot pkt =>
    simp only [Game.exec]
    split <;> simp [todoWeight,opWeight,Game.loginSuccess]
  | logoutCall =>
    simp only [Game.exec]
    split <;> simp [todoWeight,opWeight,Game.logoutSuccess,Game.logoutFaile]
  | ackLogin bot idx userName result =>
    simp only [Game.exec]
    split <;> simp [todoWeight,opWeight]
  | enterCall roomId | exitCall roomId =>
    simp only [Game.exec]
    split <;> simp [todoWeight,opWeight]
  | exchangeIsLogin accountId =>
    simp only [Game.exec]
    split <;> simp [todoWeight,opWeight]
  | _ => simp [Game.exec,todoWeight,opWeight]

theorem handle_todoWeight (fields : Game.Fields) (pkt : Game.Request) :
    todoWeight (Game.handle fields pkt) ≤ 200 := by
  cases pkt with
  | login bot pkt =>
    simp only [Game.handle,Game.handleReqLogin]
    repeat' split
    all_goals simp [todoWeight,opWeight,Game.handlerFailed]
  | logout idx =>
    simp only [Game.handle,Game.handleReqLogout]
    repeat' split
    all_goals simp [todoWeight,opWeight,Game.notLogin,Game.handlerFailed]
  | enterRoom roomId =>
    simp only [Game.handle,Game.handleReqEnterRoom]
    repeat' split
    all_goals simp [todoWeight,opWeight,Game.notLogin,Game.handlerFailed]
  | exitRoom =>
    simp only [Game.handle,Game.handleReqExitRoom]
    repeat' split
    all_goals simp [todoWeight,opWeight,Game.notLogin,Game.handlerFailed]

theorem cleanup_todoWeight (fields : Game.Fields) : todoWeight (Game.cleanup fields) ≤ 290 := by
  simp only [Game.cleanup,Game.onDisconnect]
  repeat' split
  all_goals simp [todoWeight,opWeight,Game.releaseSession]

/-- A step of the send path pays for what it registers. -/
theorem pipe_weight {g : Game.State S} {x : S} {c : Core Packet} {p : NetWork.SendPipeline.Session}
    {ok : Bool} {pc pc' : At} (h : NetWork.SendPipeline.advance c.pipe ok pc=some (p,pc')) :
    ((pipeNext pc pc').map (frameWeight g x)).sum+coreWeight (pipeEffect c ok pc p)<
      pipeWeight pc+coreWeight c := by
  cases pc with
  | idle => cases h
  | consume n =>
    by_cases hn : n=0
    · subst hn
      cases h
      simp [pipeWeight,pipeNext,pipeEffect,frameWeight,coreWeight]
    · rw [show pipeWeight (.consume n)=15 from if_neg hn]
      simp only [NetWork.SendPipeline.advance] at h
      repeat' split at h
      all_goals cases h
      all_goals simp [pipeWeight,pipeNext,pipeEffect,frameWeight,coreWeight]
  | processSend n =>
    simp only [NetWork.SendPipeline.advance] at h
    split at h <;> cases h
    all_goals
      simp only [pipeWeight,pipeNext,pipeEffect,frameWeight,coreWeight,List.map_cons,List.map_nil,
        List.sum_cons,List.sum_nil]
      split <;> omega
  | _ =>
    simp only [NetWork.SendPipeline.advance] at h
    repeat' split at h
    all_goals cases h
    all_goals simp_all [pipeWeight,pipeNext,pipeEffect,frameWeight,coreWeight]
    all_goals try omega

/-- The running job takes a step: it executes its next operation, or it ends. -/
theorem body_weight {e : Env} {g : Game.State S} {x : S} {c c' : Core Packet} {o : Choice Packet}
    {cleanup : Bool} {fs : List (Frame Packet)} (hx : exec c o (.body cleanup)=some (c',fs))
    (hbody : o.body=(gameStep e g x c.pipe.isConnect (.body cleanup)).2.2) :
    (fs.map (frameWeight (gameStep e g x c.pipe.isConnect (.body cleanup)).1 x)).sum+coreWeight c'<
      frameWeight g x (.body cleanup)+coreWeight c := by
  simp only [gameStep] at hbody ⊢
  cases htodo : (g.sessions x).todo with
  | nil =>
    simp only [htodo] at hbody ⊢
    simp only [exec,hbody] at hx
    cases hx
    simp [frameWeight,htodo,todoWeight,coreWeight]
  | cons op rest =>
    simp only [htodo] at hbody ⊢
    have hop := exec_opWeight e.codec g x op
    have hleft : todoWeight (((Game.advance e.codec g x op rest).1.sessions x).todo)=
        todoWeight (Game.exec e.codec g x op).2.1+todoWeight rest := by
      rw [Game.advance_sessions_self]
      simp [todoWeight]
    have hsum : todoWeight (op::rest)=opWeight op+todoWeight rest := by simp [todoWeight]
    unfold bodyOf at hbody
    split at hbody
    all_goals
      simp only [exec,hbody] at hx
      cases hx
      simp only [List.map_cons,List.map_nil,List.sum_cons,List.sum_nil,frameWeight,hleft,htodo,hsum,
        disconnect,pipeWeight]
      omega

/-- The loop of `on_recv` finds something in the receive buffer. -/
def finds : Recv Packet → Frame Packet → Bool
  | .wait,_ => false
  | _,.onRecv => true
  | _,_ => false

/-- A frame takes more than what it continues with, unless it finds something to process. -/
theorem exec_weight {e : Env} {g : Game.State S} {x : S} {c c' : Core Packet} {o : Choice Packet}
    {f : Frame Packet} {fs : List (Frame Packet)} (hx : exec c o f=some (c',fs))
    (hbody : o.body=(gameStep e g x c.pipe.isConnect f).2.2)
    (hidle : ∀ j, f=.job j → (g.sessions x).todo=[]) :
    (fs.map (frameWeight (gameStep e g x c.pipe.isConnect f).1 x)).sum+coreWeight c'<
      frameWeight g x f+coreWeight c+304*(finds o.recv f).toNat := by
  cases f with
  | body cleanup => exact Nat.lt_add_right _ (body_weight hx hbody)
  | pipe pc =>
    simp only [exec,Option.map_eq_some_iff,Prod.exists] at hx
    obtain ⟨p,pc',ha,hx⟩ := hx
    cases hx
    exact Nat.lt_add_right _ (pipe_weight ha)
  | onRecv =>
    cases hrecv : o.recv
    all_goals
      simp only [exec,hrecv] at hx
      cases hx
      simp [finds,frameWeight,disconnect,pipeWeight]
      try omega
  | job j =>
    have htodo := hidle j rfl
    cases j with
    | cleanup =>
      cases hx
      have hle := cleanup_todoWeight (g.sessions x).toFields
      apply Nat.lt_add_right
      simp [gameStep,frameWeight,Game.State.startCleanup,Game.State.setSession]
      omega
    | packet pkt =>
      simp only [exec] at hx
      cases hx
      apply Nat.lt_add_right
      cases hcon : c.pipe.isConnect with
      | false => simp [frameWeight]
      | true =>
        cases pkt with
        | other => simp [gameStep,frameWeight,htodo,todoWeight]
        | request pkt =>
          have hle := handle_todoWeight (g.sessions x).toFields pkt
          simp [gameStep,frameWeight,Game.State.startHandler,Game.State.setSession]
          omega
  | processRecv numOfBytes =>
    apply Nat.lt_add_right
    simp only [exec] at hx
    repeat' split at hx
    all_goals cases hx
    all_goals simp_all [frameWeight,disconnect,pipeWeight]
    split <;> omega
  | _ =>
    apply Nat.lt_add_right
    cases exec_move hx
    all_goals simp [frameWeight,disconnect,pipeWeight,coreWeight,Core.queueLogic]
    all_goals try omega

theorem gameStep_todo (e : Env) (g : Game.State S) (x : S) (isConnect : Bool) {f : Frame Packet}
    (hf : f.working=0) :
    ((gameStep e g x isConnect f).1.sessions x).todo=(g.sessions x).todo := by
  cases f with
  | body | job | endJob => cases hf
  | addSession =>
    simp only [gameStep]
    split <;> rfl
  | processConnect | rejectStore => simp [gameStep,Game.State.connect,Game.State.setSession]
  | _ => rfl

theorem frameWeight_congr {g g' : Game.State S} {y : S} {f : Frame Packet}
    (h : ∀ cleanup, f=.body cleanup → (g'.sessions y).todo=(g.sessions y).todo) :
    frameWeight g' y f=frameWeight g y f := by
  cases f with
  | body cleanup =>
    simp only [frameWeight]
    rw [h cleanup rfl]
  | _ => rfl

section Work

variable [Fintype T]

/-- The weight of the whole server, as far as it lies in `sessions`. -/
def State.work (s : State T S) (sessions : Finset S) : Nat :=
  ∑ t, stackWeight s.game (s.calls t)+∑ x∈sessions, coreWeight (s.cores x)

/-- The step of one frame leaves the weight of all other frames alone. -/
theorem stackWeight_gameStep {e : Env} {s : State T S} (h : Running s) {t : T} {x : S}
    {f : Frame Packet} {rest stack : List (S×Frame Packet)} (hcalls : s.calls t=(x,f)::rest)
    (hstack : ∀ p∈stack, ∃ u, p∈Function.update s.calls t rest u) (isConnect : Bool) :
    stackWeight (gameStep e s.game x isConnect f).1 stack=stackWeight s.game stack := by
  refine congrArg List.sum (List.map_congr_left ?_)
  intro p hp
  obtain ⟨y,g⟩ := p
  refine frameWeight_congr ?_
  intro cleanup hg
  subst hg
  by_cases hy : y=x
  · subst hy
    refine gameStep_todo e s.game y isConnect ?_
    -- a second frame of the running job would be one too many
    obtain ⟨m,hm,hm'⟩ := Stacks.pending_replace hcalls []
    have hmem : Frame.body cleanup∈m := by
      have hin := Stacks.mem_pending.mpr (hstack _ hp)
      rw [show rest=Stacks.on y []++rest from rfl,hm'] at hin
      simpa using hin
    have hrun : tok Frame.working (Stacks.pending s.calls y)=(s.cores y).running.toNat :=
      (h.resident y).sound.account.running
    have hone := Bool.toNat_le (s.cores y).running
    have hpos := tok_pos_of_mem (w:=Frame.working) hmem Nat.one_pos
    rw [hm,tok_cons] at hrun
    omega
  · exact congrArg Game.Session.todo (gameStep_other e s.game hy isConnect f).sessions

/-- Only session `x` and thread `t` move. -/
theorem work_move {s : State T S} {sessions : Finset S} {g : Game.State S} {t : T} {x : S}
    {c : Core Packet} {stack : List (S×Frame Packet)} (hx : x∈sessions)
    (hother : ∀ u, u≠t → stackWeight g (s.calls u)=stackWeight s.game (s.calls u))
    {n : Nat} (hself : stackWeight g stack+coreWeight c<
      stackWeight s.game (s.calls t)+coreWeight (s.cores x)+n) :
    (s.move g x c t stack).work sessions<s.work sessions+n := by
  have hthreads : ∑ u∈Finset.univ.erase t, stackWeight g (Function.update s.calls t stack u)=
      ∑ u∈Finset.univ.erase t, stackWeight s.game (s.calls u) := by
    apply Finset.sum_congr rfl
    intro u hu
    rw [Function.update_of_ne (Finset.ne_of_mem_erase hu),hother u (Finset.ne_of_mem_erase hu)]
  have hcores : ∑ y∈sessions.erase x, coreWeight (Function.update s.cores x c y)=
      ∑ y∈sessions.erase x, coreWeight (s.cores y) := by
    apply Finset.sum_congr rfl
    intro y hy
    rw [Function.update_of_ne (Finset.ne_of_mem_erase hy)]
  simp only [State.work,State.move]
  rw [← Finset.add_sum_erase _ _ (Finset.mem_univ t),← Finset.add_sum_erase _ _ hx,
    ← Finset.add_sum_erase Finset.univ (fun u => stackWeight s.game (s.calls u)) (Finset.mem_univ t),
    ← Finset.add_sum_erase sessions (fun y => coreWeight (s.cores y)) hx,hthreads,hcores,
    Function.update_self,Function.update_self]
  omega

/-- A client has sent or taken data, or a session is called from outside. -/
def newsEntry : Entry → Bool
  | .recvCompleted numOfBytes => numOfBytes≠0
  | .sendCompleted numOfBytes => numOfBytes≠0
  | .disconnectCompleted | .startJob => false
  | _ => true

/-- The step brings something new: such a call, or `on_recv` finds something in the buffer. -/
def news (s : State T S) : Action T S → Bool
  | .run t _ recv => (s.calls t).head?.elim false fun p => finds recv p.2
  | .enter _ _ entry => newsEntry entry

/-- A step brings the threads nearer to their end, but for what is new. -/
theorem work_run {e : Env} {s s' : State T S} {sessions : Finset S} (h : Running s)
    (hin : ∀ t x f, (x,f)∈s.calls t → x∈sessions) {t : T} {ok : Bool} {recv : Recv Packet}
    (hs : step e s (.run t ok recv)=some s') :
    s'.work sessions<s.work sessions+304*(news s (.run t ok recv)).toNat := by
  obtain ⟨x,f,rest,c,fs,hcalls,hx,rfl⟩ := step_run hs
  have hlinked := (h.resident x).linked
  have hidle : ∀ j, f=.job j → (s.game.sessions x).todo=[] := by
    intro j hj
    subst hj
    obtain ⟨⟨m,hm,-⟩,-⟩ := view_replace (g:=s.game) hcalls c fs
    rw [hm] at hlinked
    exact hlinked.job_idle
  have hlt := exec_weight (e:=e) (g:=s.game) (x:=x) hx rfl hidle
  have hnews : news s (.run t ok recv)=finds recv f := by simp [news,hcalls]
  have hrest : stackWeight (gameStep e s.game x (s.cores x).pipe.isConnect f).1 rest=
      stackWeight s.game rest :=
    stackWeight_gameStep h hcalls (fun p hp => ⟨t,by simpa using hp⟩) _
  refine work_move (hin t x f (by simp [hcalls])) ?_ ?_
  · intro u hu
    exact stackWeight_gameStep h hcalls (fun p hp => ⟨u,by simpa [hu] using hp⟩) _
  · rw [hcalls]
    simp only [stackWeight,Stacks.on,List.map_append,List.map_map,List.sum_append,List.map_cons,
      List.sum_cons] at hrest ⊢
    rw [hrest]
    have hfs : ((fun p => frameWeight (gameStep e s.game x (s.cores x).pipe.isConnect f).1 p.1 p.2)∘
      fun f => (x,f))=frameWeight (gameStep e s.game x (s.cores x).pipe.isConnect f).1 x := rfl
    rw [hfs,hnews]
    have hrecv : (s.choice e x f ok recv).recv=recv := rfl
    rw [hrecv] at hlt
    omega

/-- The weight that a call from outside adds. -/
theorem work_enter {e : Env} {s s' : State T S} {sessions : Finset S} {t : T} {x : S} {entry : Entry}
    {n : Nat} (hs : step e s (.enter t x entry)=some s') (hx : x∈sessions)
    (hw : ∀ c fs, enter (s.cores x) entry=some (c,fs) →
      (fs.map (frameWeight s.game x)).sum+coreWeight c<coreWeight (s.cores x)+n) :
    s'.work sessions<s.work sessions+n := by
  obtain ⟨c,fs,-,henter,rfl⟩ := step_enter hs
  have hlt := hw c fs henter
  refine work_move hx (fun _ _ => rfl) ?_
  have hfs : stackWeight s.game (Stacks.on x fs)=(fs.map (frameWeight s.game x)).sum := by
    simp [stackWeight,Stacks.on,Function.comp_def]
  have happ : stackWeight s.game (Stacks.on x fs++s.calls t)=
      stackWeight s.game (Stacks.on x fs)+stackWeight s.game (s.calls t) := by
    simp [stackWeight]
  omega

end Work

/-- A completion without data and the start of a job are paid for by what waited for them. -/
theorem enter_weight {c c' : Core Packet} {g : Game.State S} {x : S} {entry : Entry}
    {fs : List (Frame Packet)} (hx : enter c entry=some (c',fs)) :
    (fs.map (frameWeight g x)).sum+coreWeight c'<coreWeight c+304*(newsEntry entry).toNat := by
  cases enter_enters hx with
  | recvCompleted numOfBytes hrecv =>
    by_cases hzero : numOfBytes=0
    · simp [newsEntry,frameWeight,coreWeight,hrecv,hzero]
      omega
    · simp [newsEntry,frameWeight,coreWeight,hrecv,hzero]
      omega
  | sendCompleted numOfBytes bytes hflight =>
    by_cases hzero : numOfBytes=0#32
    · simp [newsEntry,frameWeight,pipeWeight,coreWeight,hflight,hzero]
      omega
    · simp [newsEntry,frameWeight,pipeWeight,coreWeight,hflight,hzero]
      omega
  | disconnectCompleted hdis =>
    simp [newsEntry,frameWeight,pipeWeight,coreWeight,hdis]
    omega
  | startJob j rest hjobs =>
    simp [newsEntry,frameWeight,coreWeight,hjobs]
    omega
  | _ =>
    simp [newsEntry,frameWeight,pipeWeight,coreWeight,disconnect]
    try omega

/-- Who cannot take its next step waits for `_io_lock`. -/
theorem ioLock_of_exec {c : Core Packet} {o : Choice Packet} {f : Frame Packet}
    (hf : f≠.pipe .idle) (hx : exec c o f=none) : c.pipe.ioLock := by
  cases f with
  | pipe pc =>
    simp only [exec,Option.map_eq_none_iff] at hx
    cases pc with
    | idle => exact absurd rfl hf
    | _ =>
      simp only [NetWork.SendPipeline.advance] at hx
      repeat' split at hx
      all_goals first | assumption | cases hx
  | job j => cases j <;> cases hx
  | _ =>
    simp only [exec] at hx
    repeat' split at hx
    all_goals first | assumption | cases hx

/-- The holder of `_io_lock` does not wait. -/
theorem exec_of_locking {c : Core Packet} {f : Frame Packet} (hf : f.locking≠0)
    (o : Choice Packet) : returns f=false ∧ ∃ r, exec c o f=some r := by
  unfold Frame.locking at hf
  split at hf
  · refine ⟨rfl,?_⟩
    simp only [exec,NetWork.SendPipeline.advance]
    split <;> exact ⟨_,rfl⟩
  · refine ⟨rfl,?_⟩
    simp only [exec,NetWork.SendPipeline.advance]
    repeat' split
    all_goals exact ⟨_,rfl⟩
  · exact absurd rfl hf

theorem step_of_exec {e : Env} {s : State T S} {t : T} {x : S} {f : Frame Packet}
    {rest : List (S×Frame Packet)} {ok : Bool} {recv : Recv Packet} (hcalls : s.calls t=(x,f)::rest)
    {r : Core Packet×List (Frame Packet)}
    (hx : exec (s.cores x) (s.choice e x f ok recv) f=some r) :
    ∃ s', step e s (.run t ok recv)=some s' := by
  simp only [step,hcalls,hx,Option.map_some]
  exact ⟨_,rfl⟩

/-- As long as a thread is in a session, some thread can go on. -/
theorem exists_run [Fintype T] (e : Env) {s : State T S} (h : Running s)
    (hshape : ∀ t, Shaped (s.calls t)) {t : T} (ht : s.calls t≠[]) :
    ∃ u s', step e s (.run u true .wait)=some s' := by
  obtain ⟨⟨x,f⟩,rest,hcalls⟩ := List.exists_cons_of_ne_nil ht
  have hf := hshape t
  rw [hcalls] at hf
  cases hx : exec (s.cores x) (s.choice e x f true .wait) f with
  | some r => exact ⟨t,step_of_exec hcalls hx⟩
  | none =>
    have hlock := (h.resident x).sound.books.lock
    have hheld : (s.view x).core.pipe.ioLock := ioLock_of_exec hf.1 hx
    rw [hheld,Bool.toNat_true] at hlock
    obtain ⟨g,hg,hone⟩ : ∃ g∈(s.view x).frames, g.locking≠0 := by
      by_contra hnone
      have := tok_eq_zero (w:=Frame.locking) fun g hg => by
        by_contra hne
        exact hnone ⟨g,hg,hne⟩
      omega
    -- the holder waits for no other call, so that it is the innermost call of its thread
    obtain ⟨u,hu⟩ := Stacks.mem_pending.mp hg
    obtain ⟨hret,r,hr⟩ := exec_of_locking (c:=s.cores x) hone (s.choice e x g true .wait)
    have hu' := hshape u
    cases hstack : s.calls u with
    | nil =>
      rw [hstack] at hu
      cases hu
    | cons p rest' =>
      rw [hstack] at hu hu'
      cases List.mem_cons.mp hu with
      | inl heq =>
        subst heq
        exact ⟨u,step_of_exec hstack hr⟩
      | inr hin =>
        have := hu'.2 _ hin
        rw [hret] at this
        cases this

end IocpServer.Server
