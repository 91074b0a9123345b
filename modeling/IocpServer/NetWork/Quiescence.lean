import IocpServer.NetWork.Cleanup

namespace IocpServer.NetWork.Lifecycle

variable {R : Type}

/-- Frames on the way of a packet from the socket to its handler. -/
def Frame.receives : Frame R → Nat
  | .storeConnect | .countConnect | .registerRecv | .processRecv _ | .onRecv | .onRecvNext
  | .postLogic _ | .job (.packet _) | .body false => 1
  | _ => 0

def packets (js : List (Job R)) : Nat := js.countP fun j => !j.isCleanup

/-- Only a session that was welcomed by `process_connect` receives. -/
def Welcome (l : Local R) : Prop :=
  0<tok Frame.receives l.frames+l.core.receiving.toNat+packets l.core.jobs → l.core.welcomed

theorem Welcome.init : Welcome (⟨Core.init,0⟩ : Local R) := by
  simp [Welcome,Core.init,tok,packets]

theorem exec_welcomed {c c' : Core R} {o : Choice R} {f : Frame R} {fs : List (Frame R)}
    (hx : exec c o f=some (c',fs)) (hw : c.welcomed) : c'.welcomed := by
  cases exec_move hx with
  | pipe ok pc p =>
    obtain ⟨n,b,heq⟩ := pipeEffect_eq c ok pc p
    rw [heq]
    exact hw
  | processConnect => rfl
  | _ => exact hw

/-- Who is not on the way of a packet does not get there, unless by `process_connect`. -/
theorem exec_receives {c c' : Core R} {o : Choice R} {f : Frame R} {fs : List (Frame R)}
    (hx : exec c o f=some (c',fs)) (hf : f.receives=0) (hne : f≠.processConnect) :
    (fs.map Frame.receives).sum=0 ∧ c'.receiving=c.receiving ∧ packets c'.jobs=packets c.jobs := by
  cases exec_move hx with
  | pipe ok pc p pc' =>
    obtain ⟨n,b,heq⟩ := pipeEffect_eq c ok pc p
    rw [heq]
    exact ⟨sum_pipeNext (fun _ => rfl) rfl pc pc',rfl,rfl⟩
  | queueCleanup =>
    refine ⟨rfl,rfl,?_⟩
    simp [Core.queueLogic,packets,Job.isCleanup]
  | processConnect => exact absurd rfl hne
  | done cleanup | next cleanup | send cleanup | disconnect cleanup =>
    cases cleanup with
    | false => cases hf
    | true => exact ⟨rfl,rfl,rfl⟩
  | storeConnect | countConnect | recvOff | receive | recvFailed | received | receivedOff
  | unreadable | wait | malformed | skip | packet | recvNext | recvEnd | postLogic | stopped
  | handle | drop => cases hf
  | _ => exact ⟨rfl,rfl,rfl⟩

/-- A call from outside brings a packet on its way only from the socket or from the queue. -/
theorem enter_receives {c c' : Core R} {e : Entry} {fs : List (Frame R)}
    (hx : enter c e=some (c',fs)) :
    c'.welcomed=c.welcomed ∧
      (0<(fs.map Frame.receives).sum+c'.receiving.toNat+packets c'.jobs →
        0<c.receiving.toNat+packets c.jobs) := by
  cases enter_enters hx with
  | recvCompleted numOfBytes hrecv =>
    refine ⟨rfl,fun _ => ?_⟩
    rw [hrecv,Bool.toNat_true]
    omega
  | startJob j rest hjobs =>
    refine ⟨rfl,?_⟩
    rw [hjobs]
    cases j with
    | packet pkt =>
      intro _
      simp [packets,Job.isCleanup]
    | cleanup => simp [packets,Job.isCleanup,Frame.receives]
  | _ =>
    refine ⟨rfl,?_⟩
    simp [Frame.receives,Lifecycle.disconnect]

theorem Welcome.step {l l' : Local R} {ok : Local R → Entry → Prop} (h : Welcome l)
    (hs : Step ok l l') : Welcome l' := by
  cases hs with
  | @fire c c' f fs o m hx =>
    unfold Welcome at h ⊢
    simp only [tok_cons,tok_beside] at h ⊢
    intro hpos
    by_cases hf : f.receives=0
    · by_cases hconnect : f=.processConnect
      · subst hconnect
        cases hx
        rfl
      · obtain ⟨hsum,hreceiving,hpackets⟩ := exec_receives hx hf hconnect
        rw [hsum,hreceiving,hpackets] at hpos
        exact exec_welcomed hx (h (by omega))
    · exact exec_welcomed hx (h (by omega))
  | @enter c c' fs e m ha hx =>
    obtain ⟨hw,hreceives⟩ := enter_receives hx
    unfold Welcome at h ⊢
    simp only [tok_beside,hw] at h ⊢
    intro hpos
    by_cases hm : tok Frame.receives m=0
    · have hold := hreceives (by omega)
      exact h (by omega)
    · exact h (by omega)

/-- A completion callback is running; its operation still counts as pending. -/
def Frame.finishing : Frame R → Nat
  | .finishIo => 1
  | _ => 0

/-- The thread holds `_io_lock`. -/
def Frame.locking : Frame R → Nat
  | .pipe .drain | .pipe .transmit => 1
  | _ => 0

/-- The registered operations. -/
def Core.inFlight (c : Core R) : Nat :=
  c.receiving.toNat+c.pipe.flight.isSome.toNat+c.pipe.disconnecting.toNat

theorem Core.inFlight_eq_zero {c : Core R} :
    c.inFlight=0 ↔ c.receiving=false ∧ c.pipe.flight=none ∧ c.pipe.disconnecting=false := by
  simp [Core.inFlight,and_assoc]

/-- What is pending is counted, `_io_lock` is held by one thread at most, and a session that was told
to shut down registers nothing more. -/
structure Books (l : Local R) : Prop where
  io : l.core.inFlight+tok Frame.finishing l.frames ≤ l.core.pendingIo
  jobs : l.core.pendingJobs=l.core.jobs.length+tok Frame.working l.frames
  lock : tok Frame.locking l.frames=l.core.pipe.ioLock.toNat
  unlocked : l.core.pipe.ioLock → l.core.pipe.shutdownStarted=false
  stopped : l.core.pipe.shutdownStarted →
    l.core.logicStopped ∧ l.core.pipe.isConnect=false ∧ l.core.closing
  told : l.core.closing → l.core.pipe.shutdownStarted ∨ 0<tok Frame.calling l.frames

theorem Books.init : Books (⟨Core.init,0⟩ : Local R) := by
  constructor <;> simp [Core.init,Core.inFlight,SendPipeline.Session.init,tok]

attribute [local simp] Frame.finishing Frame.locking Frame.working Frame.calling Core.inFlight

/-- What one step does to the counts. -/
theorem exec_counts {c c' : Core R} {o : Choice R} {f : Frame R} {fs : List (Frame R)}
    (hx : exec c o f=some (c',fs)) (hlock : f.locking=1 → c.pipe.ioLock)
    (hwork : f.working ≤ c.pendingJobs) :
    c'.inFlight+(fs.map Frame.finishing).sum+c.pendingIo ≤ c.inFlight+f.finishing+c'.pendingIo ∧
    c'.jobs.length+(fs.map Frame.working).sum+c.pendingJobs=
      c.jobs.length+f.working+c'.pendingJobs ∧
    (fs.map Frame.locking).sum+c.pipe.ioLock.toNat=f.locking+c'.pipe.ioLock.toNat := by
  cases exec_move hx with
  | pipe ok pc p pc' ha =>
    cases pc with
    | idle => cases ha
    | _ =>
      simp only [SendPipeline.advance] at ha
      repeat' split at ha
      all_goals cases ha
      all_goals simp_all [pipeEffect,pipeNext]
      all_goals omega
  | _ =>
    simp [Core.queueLogic,Lifecycle.disconnect] at hwork ⊢
    all_goals omega

/-- What one step does to the flags of the shutdown: `begin_shutdown` takes effect, or they stay. -/
theorem exec_flags {c c' : Core R} {o : Choice R} {f : Frame R} {fs : List (Frame R)}
    (hx : exec c o f=some (c',fs)) :
    c'.closing=c.closing ∧
    ((f=.pipe .beginShutdown ∧ c'.pipe.ioLock=false ∧ c'.pipe.shutdownStarted ∧ c'.logicStopped ∧
        c'.pipe.isConnect=false) ∨
      (c'.pipe.shutdownStarted=c.pipe.shutdownStarted ∧ c'.logicStopped=c.logicStopped ∧
        (c'.pipe.ioLock → c.pipe.ioLock ∨ c.pipe.shutdownStarted=false) ∧
        (c'.pipe.isConnect → c.pipe.isConnect ∨ f.fresh=1) ∧
        (f=.pipe .beginShutdown → c.pipe.shutdownStarted))) := by
  cases exec_move hx with
  | pipe ok pc p pc' ha =>
    cases pc with
    | idle => cases ha
    | _ =>
      simp only [SendPipeline.advance] at ha
      repeat' split at ha
      all_goals cases ha
      all_goals simp_all [pipeEffect]
  | storeConnect | rejectConnection =>
    exact ⟨rfl,Or.inr ⟨rfl,rfl,Or.inl,fun _ => Or.inr rfl,by simp⟩⟩
  | _ => exact ⟨rfl,Or.inr ⟨rfl,rfl,Or.inl,Or.inl,by simp⟩⟩

theorem exec_calling {c c' : Core R} {o : Choice R} {f : Frame R} {fs : List (Frame R)}
    (hx : exec c o f=some (c',fs)) : (fs.map Frame.calling).sum=0 := by
  cases exec_move hx with
  | pipe ok pc p pc' ha =>
    cases SendPipeline.advance_move ha with
    | accept | nothing | whole => split <;> rfl
    | _ => rfl
  | _ => rfl

theorem Frame.calling_eq_one {f : Frame R} (h : f.calling≠0) : f=.pipe .beginShutdown := by
  unfold Frame.calling at h
  split at h
  · rfl
  · exact absurd rfl h

theorem Books.fire {c c' : Core R} {o : Choice R} {f : Frame R} {fs : List (Frame R)}
    {m : Multiset (Frame R)} (h : Books ⟨c,f::ₘm⟩) (ha : Account ⟨c,f::ₘm⟩)
    (hx : exec c o f=some (c',fs)) : Books ⟨c',beside fs m⟩ := by
  obtain ⟨hio,hjobs,hlock,hun,hstop,htold⟩ := h
  simp only [tok_cons] at hio hjobs hlock htold
  have hlocked : f.locking=1 → c.pipe.ioLock := by
    intro h1
    by_contra hfalse
    simp only [Bool.not_eq_true] at hfalse
    rw [h1,hfalse,Bool.toNat_false] at hlock
    omega
  obtain ⟨hio',hjobs',hlock'⟩ := exec_counts hx hlocked (by omega)
  obtain ⟨hclosing,hflags⟩ := exec_flags hx
  have hcall := exec_calling hx
  constructor
  · simp only [tok_beside]
    omega
  · simp only [tok_beside]
    omega
  · simp only [tok_beside]
    omega
  · intro hl
    rcases hflags with ⟨-,hfree,-⟩|⟨hsame,-,hopen,-⟩
    · rw [hfree] at hl
      cases hl
    · rw [hsame]
      exact (hopen hl).elim hun id
  · intro hs
    rw [hclosing]
    rcases hflags with ⟨rfl,-,-,hl,hc⟩|⟨hsame,hlogic,-,hcon,-⟩
    · exact ⟨hl,hc,ha.calling (by simp)⟩
    · obtain ⟨hl,hc,hcl⟩ := hstop (hsame.symm.trans hs)
      refine ⟨hlogic.trans hl,?_,hcl⟩
      by_contra hne
      rcases hcon (by simpa using hne) with hc'|hfresh
      · rw [hc] at hc'
        cases hc'
      · have := ha.fresh (by simp only [tok_cons]; omega)
        rw [hcl] at this
        cases this
  · rw [hclosing,tok_beside,hcall,Nat.zero_add]
    intro hcl
    rcases hflags with ⟨-,-,hs,-⟩|⟨hsame,-,-,-,hbegin⟩
    · exact Or.inl hs
    · rw [hsame]
      rcases htold hcl with hs|hpos
      · exact Or.inl hs
      · by_cases hz : f.calling=0
        · exact Or.inr (by omega)
        · exact Or.inl (hbegin (Frame.calling_eq_one hz))

theorem Books.enter {c c' : Core R} {e : Entry} {fs : List (Frame R)} {m : Multiset (Frame R)}
    (h : Books ⟨c,m⟩) (hx : enter c e=some (c',fs)) : Books ⟨c',beside fs m⟩ := by
  obtain ⟨hio,hjobs,hlock,hun,hstop,htold⟩ := h
  simp at hio hjobs hlock hun hstop htold
  cases enter_enters hx with
  | beginShutdown =>
    constructor <;> simp <;> try assumption
    case stopped => exact fun hs => ⟨(hstop hs).1,(hstop hs).2.1⟩
  | recvCompleted numOfBytes hrecv =>
    constructor <;> simp <;> try assumption
    case io =>
      rw [hrecv,Bool.toNat_true] at hio
      omega
  | sendCompleted numOfBytes bytes hflight =>
    constructor <;> simp <;> try assumption
    case io =>
      rw [hflight,Option.isSome_some,Bool.toNat_true] at hio
      omega
  | disconnectCompleted hdisc =>
    constructor <;> simp <;> try assumption
    case io =>
      rw [hdisc,Bool.toNat_true] at hio
      omega
  | startJob j rest hqueue =>
    constructor <;> simp <;> try assumption
    case jobs =>
      rw [hqueue,List.length_cons] at hjobs
      omega
  | _ => constructor <;> simp [Lifecycle.disconnect] <;> assumption

/-- Whatever threads do to a session, its books stay right. -/
theorem Books.step {l l' : Local R} {ok : Local R → Entry → Prop} (h : Books l) (ha : Account l)
    (hs : Step ok l l') : Books l' := by
  cases hs with
  | fire o m hx => exact h.fire ha hx
  | enter _ hx => exact h.enter hx

/-- Frames of `on_connected` and `reject_connection`. -/
def Frame.admitting : Frame R → Nat
  | .addSession | .processConnect | .storeConnect | .countConnect | .rejectConnection
  | .rejectStore | .rejectClose | .rejectCount | .rejectNotice => 1
  | _ => 0

/-- The session was added and its `_is_connect` is not yet set. -/
def Frame.greeting : Frame R → Nat
  | .processConnect | .storeConnect => 1
  | _ => 0

theorem greeting_le_admitting (f : Frame R) : f.greeting ≤ f.admitting := by
  cases f <;> simp [Frame.greeting,Frame.admitting]

/-- Outside its admission a session's histories stay as they are. -/
theorem exec_settled {c c' : Core R} {o : Choice R} {f : Frame R} {fs : List (Frame R)}
    (hx : exec c o f=some (c',fs)) (hf : f.admitting=0) :
    c'.offered=c.offered ∧ c'.admitted=c.admitted ∧ c'.welcomed=c.welcomed ∧
      c'.hadConnected=c.hadConnected ∧ (fs.map Frame.admitting).sum=0 := by
  cases exec_move hx with
  | pipe ok pc p pc' =>
    obtain ⟨n,b,heq⟩ := pipeEffect_eq c ok pc p
    rw [heq]
    exact ⟨rfl,rfl,rfl,rfl,sum_pipeNext (fun _ => rfl) rfl pc pc'⟩
  | full | added | known | processConnect | storeConnect | countConnect | connected
  | rejectConnection | rejectStore | rejectClose | rejectCount | noNotice | notice => cases hf
  | _ => exact ⟨rfl,rfl,rfl,rfl,rfl⟩

/-- A session is added, then welcomed, then connected. -/
structure Greeting (l : Local R) : Prop where
  offered : l.core.admitted → l.core.offered
  connected : l.core.admitted → l.core.hadConnected ∨ 0<tok Frame.greeting l.frames
  greeted : 0<tok Frame.greeting l.frames → l.core.admitted
  welcomed : l.core.welcomed → l.core.admitted

theorem Greeting.init : Greeting (⟨Core.init,0⟩ : Local R) := by
  constructor <;> simp [Core.init,tok]

/-- Only a session that was added receives or connects otherwise. -/
theorem Greeting.not_welcome {c : Core R} {f : Frame R} {m : Multiset (Frame R)}
    (h : Greeting ⟨c,f::ₘm⟩) (hw : Welcome ⟨c,f::ₘm⟩) (hadm : c.admitted=false) :
    f.receives=0 ∧ f.greeting=0 := by
  constructor
  · by_contra hne
    have hwel := h.welcomed (hw (by simp only [tok_cons]; omega))
    rw [hadm] at hwel
    cases hwel
  · by_contra hne
    have hgreet := h.greeted (by simp only [tok_cons]; omega)
    rw [hadm] at hgreet
    cases hgreet

theorem sum_greeting {fs : List (Frame R)} (h : (fs.map Frame.admitting).sum=0) :
    (fs.map Frame.greeting).sum=0 := by
  apply sum_eq_zero
  intro f hf
  have hle := greeting_le_admitting f
  have hzero := List.sum_eq_zero_iff.mp h _ (List.mem_map_of_mem hf)
  omega

/-- The greeting is where it was when its fields and frames are. -/
theorem Greeting.congr {l l' : Local R} (h : Greeting l) (ho : l.core.offered → l'.core.offered)
    (had : l'.core.admitted=l.core.admitted) (hw : l'.core.welcomed=l.core.welcomed)
    (hh : l'.core.hadConnected=l.core.hadConnected)
    (hg : tok Frame.greeting l'.frames=tok Frame.greeting l.frames) : Greeting l' := by
  constructor
  · rw [had]
    exact fun hadm => ho (h.offered hadm)
  · rw [had,hh,hg]
    exact h.connected
  · rw [had,hg]
    exact h.greeted
  · rw [hw,had]
    exact h.welcomed

/-- A call from outside leaves the histories of the admission, and at most offers the session. -/
theorem enter_settled {c c' : Core R} {e : Entry} {fs : List (Frame R)}
    (hx : enter c e=some (c',fs)) :
    (c.offered → c'.offered) ∧ c'.admitted=c.admitted ∧ c'.welcomed=c.welcomed ∧
      c'.hadConnected=c.hadConnected ∧ (fs.map Frame.greeting).sum=0 := by
  cases enter_enters hx with
  | offer => exact ⟨fun _ => rfl,rfl,rfl,rfl,rfl⟩
  | _ => exact ⟨id,rfl,rfl,rfl,rfl⟩

/-- The steps of `on_connected` and `reject_connection`. -/
theorem Greeting.admission {c c' : Core R} {o : Choice R} {f : Frame R} {fs : List (Frame R)}
    {m : Multiset (Frame R)} (h : Greeting ⟨c,f::ₘm⟩) (ha : Account ⟨c,f::ₘm⟩)
    (hx : exec c o f=some (c',fs)) (hf : f.admitting≠0) : Greeting ⟨c',beside fs m⟩ := by
  have hgreet := h.greeted
  simp only [tok_cons] at hgreet
  cases exec_move hx with
  | added =>
    have hoffered : c.offered := by
      have hfresh := ha.offered
      cases hc : c.offered with
      | true => rfl
      | false => simp [hc,Frame.fresh] at hfresh
    refine ⟨fun _ => hoffered,fun _ => Or.inr ?_,fun _ => rfl,fun _ => rfl⟩
    simp [Frame.greeting]
  | processConnect =>
    refine ⟨h.offered,fun _ => Or.inr ?_,fun _ => hgreet ?_,fun _ => hgreet ?_⟩
    all_goals simp [Frame.greeting]
  | storeConnect =>
    exact ⟨h.offered,fun _ => Or.inl rfl,fun _ => hgreet (by simp [Frame.greeting]),h.welcomed⟩
  | rejectConnection =>
    refine ⟨h.offered,fun _ => Or.inl rfl,?_,h.welcomed⟩
    simpa [Frame.greeting] using hgreet
  | full | known | connected | countConnect | rejectStore | rejectClose | rejectCount | noNotice
  | notice => exact h.congr id rfl rfl rfl (by simp [Frame.greeting,Lifecycle.disconnect])
  | _ => exact absurd rfl hf

theorem Greeting.step {l l' : Local R} {ok : Local R → Entry → Prop} (h : Greeting l)
    (ha : Account l) (hs : Step ok l l') : Greeting l' := by
  cases hs with
  | @fire c c' f fs o m hx =>
    by_cases hf : f.admitting=0
    · obtain ⟨ho,had,hw,hh,hsum⟩ := exec_settled hx hf
      have hzero : f.greeting=0 := Nat.le_zero.mp ((greeting_le_admitting f).trans hf.le)
      apply h.congr (fun hoff => ho.trans hoff) had hw hh
      rw [tok_beside,tok_cons,sum_greeting hsum,hzero]
    · exact h.admission ha hx hf
  | @enter c c' fs e m _ hx =>
    obtain ⟨ho,had,hw,hh,hsum⟩ := enter_settled hx
    apply h.congr ho had hw hh
    rw [tok_beside,hsum,Nat.zero_add]

/-- The session was told to shut down and nothing of it is in flight. -/
structure Silent (l : Local R) : Prop where
  started : l.core.pipe.shutdownStarted
  inFlight : l.core.inFlight=0

/-- After the shutdown has begun only a thread that holds `_io_lock` could register an operation. -/
theorem exec_silent {c c' : Core R} {o : Choice R} {f : Frame R} {fs : List (Frame R)}
    (hx : exec c o f=some (c',fs)) (hs : c.pipe.shutdownStarted) (hf : f.locking=0)
    (hc : c.inFlight=0) : c'.inFlight=0 := by
  cases exec_move hx with
  | pipe ok pc p pc' ha =>
    cases pc with
    | idle => cases ha
    | drain | transmit => cases hf
    | _ =>
      simp only [SendPipeline.advance] at ha
      repeat' split at ha
      all_goals cases ha
      all_goals simp_all [pipeEffect]
  | receive _ hshut =>
    rw [hs] at hshut
    cases hshut
  | _ => exact hc

theorem enter_silent {c c' : Core R} {e : Entry} {fs : List (Frame R)}
    (hx : enter c e=some (c',fs)) (hc : c.inFlight=0) :
    c'.inFlight=0 ∧ c'.pipe.shutdownStarted=c.pipe.shutdownStarted := by
  cases enter_enters hx <;> simp_all

theorem Silent.step {l l' : Local R} {ok : Local R → Entry → Prop} (h : Silent l) (hb : Books l)
    (hs : Step ok l l') : Silent l' := by
  cases hs with
  | @fire c c' f fs o m hx =>
    have hlock := hb.lock
    have hfree : c.pipe.ioLock=false := by
      by_contra hne
      have := hb.unlocked (by simpa using hne)
      rw [h.started] at this
      cases this
    simp only [hfree,tok_cons,Bool.toNat_false] at hlock
    constructor
    · rcases (exec_flags hx).2 with ⟨-,-,hs,-⟩|⟨hsame,-⟩
      · exact hs
      · exact hsame.trans h.started
    · exact exec_silent hx h.started (by omega) h.inFlight
  | enter _ hx =>
    obtain ⟨hfly,hsame⟩ := enter_silent hx h.inFlight
    exact ⟨hsame.trans h.started,hfly⟩

/-- Nothing is left to do for a session that was told to shut down: its cleanup has run, and no job
is queued or running. -/
structure Done (l : Local R) : Prop extends Silent l where
  jobs : l.core.jobs=[]
  working : tok Frame.working l.frames=0
  ran : l.core.ran=1

/-- With the job queue stopped only `process_disconnect` queues a job. -/
theorem exec_jobless {c c' : Core R} {o : Choice R} {f : Frame R} {fs : List (Frame R)}
    (hx : exec c o f=some (c',fs)) (hl : c.logicStopped) (hf : f.working=0) (hq : f≠.queueCleanup) :
    c'.jobs=c.jobs ∧ c'.ran=c.ran ∧ (fs.map Frame.working).sum=0 := by
  cases exec_move hx with
  | pipe ok pc p pc' =>
    obtain ⟨n,b,heq⟩ := pipeEffect_eq c ok pc p
    rw [heq]
    exact ⟨rfl,rfl,sum_pipeNext (fun _ => rfl) rfl pc pc'⟩
  | queueCleanup => exact absurd rfl hq
  | postLogic pkt hopen =>
    rw [hl] at hopen
    cases hopen
  | handle | drop | cleanup | done | next | send | disconnect | endJob => cases hf
  | _ => exact ⟨rfl,rfl,rfl⟩

/-- With no job queued no call from outside brings one. -/
theorem enter_jobless {c c' : Core R} {e : Entry} {fs : List (Frame R)}
    (hx : enter c e=some (c',fs)) (hjobs : c.jobs=[]) :
    c'.jobs=[] ∧ c'.ran=c.ran ∧ (fs.map Frame.working).sum=0 := by
  cases enter_enters hx with
  | startJob j rest hqueue =>
    rw [hjobs] at hqueue
    cases hqueue
  | _ => exact ⟨hjobs,rfl,rfl⟩

theorem Done.step {l l' : Local R} {ok : Local R → Entry → Prop} (h : Done l) (ha : Account l)
    (hb : Books l) (hs : Step ok l l') : Done l' := by
  have hsil := h.toSilent.step hb hs
  cases hs with
  | @fire c c' f fs o m hx =>
    have hq := ha.queued
    have hr := ha.ran
    have hone := Bool.toNat_le c.pipe.isDisconnect
    have hw := h.working
    have hran := h.ran
    simp only [tok_cons] at hq hr hw hran
    obtain ⟨hjobs,hsame,hsum⟩ := exec_jobless hx (hb.stopped h.started).1 (by omega) (by
      rintro rfl
      simp only [Frame.queueing] at hq
      omega)
    refine ⟨hsil,hjobs.trans h.jobs,?_,hsame.trans h.ran⟩
    simp only [tok_beside,hsum]
    omega
  | @enter c c' fs e m _ hx =>
    obtain ⟨hjobs,hran,hsum⟩ := enter_jobless hx h.jobs
    refine ⟨hsil,hjobs,?_,hran.trans h.ran⟩
    rw [tok_beside,hsum,h.working]

/-- The frames of a call from outside that finds the session not connected. -/
def Frame.Harmless : Frame R → Prop
  | .pipe (.send _) | .pipe (.disconnect _) => True
  | _ => False

/-- A session that nothing but calls from outside can reach: it is not connected, and if it was it
has been cleaned up. -/
structure Asleep (l : Local R) : Prop where
  off : l.core.pipe.isConnect=false
  inFlight : l.core.inFlight=0
  jobs : l.core.jobs=[]
  frames : ∀ f∈l.frames, f.Harmless
  ran : l.core.hadConnected → l.core.ran=1

theorem Asleep.init : Asleep (⟨Core.init,0⟩ : Local R) := by
  constructor <;> simp [Core.init,SendPipeline.Session.init]

theorem Asleep.step {l l' : Local R} {ok : Local R → Entry → Prop} (h : Asleep l)
    (hok : ∀ e, ok l e → e≠.offer ∧ e≠.beginShutdown) (hs : Step ok l l') : Asleep l' := by
  obtain ⟨hoff,hfly,hjobs,hfr,hran⟩ := h
  cases hs with
  | @fire c c' f fs o m hx =>
    have hcon : c.pipe.isConnect=false := hoff
    simp only [Multiset.mem_cons,forall_eq_or_imp] at hfr
    obtain ⟨hf,hm⟩ := hfr
    unfold Frame.Harmless at hf
    split at hf
    · simp only [exec,SendPipeline.advance,hcon] at hx
      cases hx
      exact ⟨hoff,hfly,hjobs,by simpa [beside,pipeNext] using hm,hran⟩
    · simp only [exec,SendPipeline.advance,hcon] at hx
      cases hx
      exact ⟨hoff,hfly,hjobs,by simpa [beside,pipeNext] using hm,hran⟩
    · exact hf.elim
  | @enter c c' fs e m hin hx =>
    obtain ⟨hno,hns⟩ := hok e hin
    obtain ⟨hreceiving,hflight,hdisconnecting⟩ :
        c.receiving=false ∧ c.pipe.flight=none ∧ c.pipe.disconnecting=false :=
      Core.inFlight_eq_zero.mp hfly
    have hempty : c.jobs=[] := hjobs
    cases enter_enters hx with
    | offer => exact absurd rfl hno
    | beginShutdown => exact absurd rfl hns
    | send | disconnect =>
      refine ⟨hoff,hfly,hjobs,?_,hran⟩
      simpa [beside,Lifecycle.disconnect,Frame.Harmless] using hfr
    | recvCompleted _ hrecv => simp [hreceiving] at hrecv
    | sendCompleted _ _ hfl => simp [hflight] at hfl
    | disconnectCompleted hdisc => simp [hdisconnecting] at hdisc
    | startJob j rest hqueue => simp [hempty] at hqueue
    | clearSend =>
      refine ⟨hoff,hfly,hjobs,?_,hran⟩
      simpa [beside] using hfr

end IocpServer.NetWork.Lifecycle
