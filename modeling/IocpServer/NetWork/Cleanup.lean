import IocpServer.Framework.Stacks
import IocpServer.NetWork.Lifecycle

namespace IocpServer.NetWork.Lifecycle

open SendPipeline (At advance)

variable {R : Type}

/-- One session seen alone: its fields and the frames of all threads in its methods. -/
structure Local (R : Type) where
  core : Core R
  frames : Multiset (Frame R)

/-- How much the frames weigh together. -/
def tok (w : Frame R → Nat) (m : Multiset (Frame R)) : Nat := (m.map w).sum

@[simp] theorem tok_cons (w : Frame R → Nat) (f : Frame R) (m : Multiset (Frame R)) :
    tok w (f::ₘm)=w f+tok w m := by
  simp [tok]

/-- The frames of one thread beside those of the others. -/
def beside (fs : List (Frame R)) (m : Multiset (Frame R)) : Multiset (Frame R) := fs+m

@[simp] theorem tok_beside (w : Frame R → Nat) (fs : List (Frame R)) (m : Multiset (Frame R)) :
    tok w (beside fs m)=(fs.map w).sum+tok w m := by
  simp [tok,beside]

theorem tok_mono {w v : Frame R → Nat} (h : ∀ f, w f ≤ v f) (m : Multiset (Frame R)) :
    tok w m ≤ tok v m :=
  Multiset.sum_map_le_sum_map w v fun f _ => h f

theorem tok_pos_of_mem {w : Frame R → Nat} {f : Frame R} {m : Multiset (Frame R)} (hf : f∈m)
    (hw : 0<w f) : 0<tok w m := by
  obtain ⟨m',rfl⟩ := Multiset.exists_cons_of_mem hf
  rw [tok_cons]
  omega

theorem tok_eq_zero {w : Frame R → Nat} {m : Multiset (Frame R)} (h : ∀ f∈m, w f=0) : tok w m=0 := by
  apply Multiset.sum_eq_zero
  intro n hn
  obtain ⟨f,hf,rfl⟩ := Multiset.mem_map.mp hn
  exact h f hf

/-- Frames of a session that is being admitted and whose `_is_connect` is not yet set. -/
def Frame.fresh : Frame R → Nat
  | .addSession | .processConnect | .storeConnect | .rejectConnection => 1
  | _ => 0

/-- When a method of the session may be entered: it is offered once and not after it was told to
shut down, and it is told to shut down only when its admission is over. -/
def Allowed (l : Local R) : Entry → Prop
  | .offer => l.core.offered=false ∧ l.core.closing=false
  | .beginShutdown => tok Frame.fresh l.frames=0
  | _ => True

/-- What threads can do to one session. -/
inductive Step (ok : Local R → Entry → Prop) : Local R → Local R → Prop where
  | fire {c c' : Core R} {f : Frame R} {fs : List (Frame R)} (o : Choice R)
      (m : Multiset (Frame R)) (h : exec c o f=some (c',fs)) : Step ok ⟨c,f::ₘm⟩ ⟨c',beside fs m⟩
  | enter {c c' : Core R} {fs : List (Frame R)} {e : Entry} {m : Multiset (Frame R)}
      (ha : ok ⟨c,m⟩ e) (h : enter c e=some (c',fs)) : Step ok ⟨c,m⟩ ⟨c',beside fs m⟩

/-- `process_disconnect` has won the exchange and not queued the cleanup. -/
def Frame.queueing : Frame R → Nat
  | .pipe .closeFlags | .queueCleanup => 1
  | _ => 0

def Frame.closingFlags : Frame R → Nat
  | .pipe .closeFlags => 1
  | _ => 0

/-- The thread will call `process_disconnect`. -/
def Frame.obliged : Frame R → Nat
  | .pipe .registerDisconnect | .pipe .processDisconnect => 1
  | _ => 0

def Frame.calling : Frame R → Nat
  | .pipe .beginShutdown => 1
  | _ => 0

/-- The thread runs a job of the session. -/
def Frame.working : Frame R → Nat
  | .job _ | .body _ | .endJob => 1
  | _ => 0

def Frame.cleaning : Frame R → Nat
  | .job .cleanup | .body true => 1
  | _ => 0

def Frame.handling : Frame R → Nat
  | .body false => 1
  | _ => 0

def cleanups (js : List (Job R)) : Nat := js.countP Job.isCleanup

@[simp] theorem cleanups_cons (j : Job R) (js : List (Job R)) :
    cleanups (j::js)=j.isCleanup.toNat+cleanups js := by
  cases j <;> simp [cleanups,List.countP_cons,Job.isCleanup,Nat.add_comm]

@[simp] theorem cleanups_append (js : List (Job R)) (j : Job R) :
    cleanups (js++[j])=cleanups js+j.isCleanup.toNat := by
  cases j <;> simp [cleanups,Job.isCleanup]

/-- The accounts of a session's connection: who still has to disconnect it, who still has to queue
and run its cleanup, and what is over once its admission or its cleanup is. -/
structure Account (l : Local R) : Prop where
  queued : tok Frame.queueing l.frames+l.core.queued=l.core.pipe.isDisconnect.toNat
  ran : l.core.queued=cleanups l.core.jobs+tok Frame.cleaning l.frames+l.core.ran
  running : tok Frame.working l.frames=l.core.running.toNat
  offered : tok Frame.fresh l.frames+l.core.hadConnected.toNat ≤ l.core.offered.toNat
  fresh : 0<tok Frame.fresh l.frames → l.core.closing=false
  calling : 0<tok Frame.calling l.frames → l.core.closing
  quiet : l.core.hadConnected=false → l.core.closing=false →
    l.core.pipe.isDisconnect=false ∧ tok Frame.obliged l.frames=0 ∧ l.core.pipe.disconnecting=false
  connect : l.core.pipe.isConnect → l.core.hadConnected
  obliged : l.core.hadConnected → l.core.pipe.isConnect=false →
    l.core.pipe.isDisconnect ∨ 0<tok Frame.obliged l.frames+l.core.pipe.disconnecting.toNat
  off : l.core.pipe.isDisconnect → tok Frame.closingFlags l.frames=0 → l.core.pipe.isConnect=false
  handling : 0<tok Frame.handling l.frames → l.core.ran=0

theorem Account.init : Account (⟨Core.init,0⟩ : Local R) := by
  constructor <;> simp [Core.init,SendPipeline.Session.init,tok,cleanups]

theorem closingFlags_le (m : Multiset (Frame R)) : tok Frame.closingFlags m ≤ tok Frame.queueing m := by
  apply tok_mono
  intro f
  cases f with
  | pipe pc => cases pc <;> simp [Frame.closingFlags,Frame.queueing]
  | _ => simp [Frame.closingFlags,Frame.queueing]

theorem cleaning_add_handling_le (m : Multiset (Frame R)) :
    tok Frame.cleaning m+tok Frame.handling m ≤ tok Frame.working m := by
  induction m using Multiset.induction with
  | empty => simp [tok]
  | cons f m ih =>
    have hf : f.cleaning+f.handling ≤ f.working := by
      cases f with
      | job j => cases j <;> simp [Frame.cleaning,Frame.handling,Frame.working]
      | body b => cases b <;> simp [Frame.cleaning,Frame.handling,Frame.working]
      | _ => simp [Frame.cleaning,Frame.handling,Frame.working]
    simp only [tok_cons]
    omega

/-- A session that is being admitted has not been connected, and nobody disconnects it. -/
theorem Account.of_fresh {l : Local R} (h : Account l) (hf : 0<tok Frame.fresh l.frames) :
    l.core.hadConnected=false ∧ l.core.closing=false ∧ l.core.pipe.isDisconnect=false ∧
      l.core.pipe.isConnect=false ∧ l.core.queued=0 := by
  have hle := h.offered
  have hone := Bool.toNat_le l.core.offered
  have hnot : l.core.hadConnected=false := by
    cases hc : l.core.hadConnected with
    | false => rfl
    | true =>
      rw [hc] at hle
      simp only [Bool.toNat_true] at hle
      omega
  have hcl := h.fresh hf
  have hdis := (h.quiet hnot hcl).1
  have hcon : l.core.pipe.isConnect=false := by
    cases hc : l.core.pipe.isConnect with
    | false => rfl
    | true =>
      have := h.connect hc
      rw [hnot] at this
      cases this
  have hq := h.queued
  rw [hdis] at hq
  simp only [Bool.toNat_false] at hq
  exact ⟨hnot,hcl,hdis,hcon,by omega⟩

/-- While the session is connected no cleanup is queued. -/
theorem Account.of_connect {l : Local R} (h : Account l) (hc : l.core.pipe.isConnect) :
    l.core.queued=0 ∧ l.core.ran=0 := by
  have hq := h.queued
  have hr := h.ran
  have hle := closingFlags_le l.frames
  cases hd : l.core.pipe.isDisconnect with
  | false =>
    rw [hd] at hq
    simp only [Bool.toNat_false] at hq
    omega
  | true =>
    rw [hd] at hq
    simp only [Bool.toNat_true] at hq
    have hne : tok Frame.closingFlags l.frames≠0 := by
      intro h0
      have := h.off hd h0
      rw [hc] at this
      cases this
    omega

/-- The fields the accounts are about are the same. -/
structure Same (c c' : Core R) : Prop where
  isConnect : c'.pipe.isConnect=c.pipe.isConnect
  isDisconnect : c'.pipe.isDisconnect=c.pipe.isDisconnect
  disconnecting : c'.pipe.disconnecting=c.pipe.disconnecting
  cleanups : cleanups c'.jobs=cleanups c.jobs
  running : c'.running=c.running
  offered : c'.offered=c.offered
  hadConnected : c'.hadConnected=c.hadConnected
  closing : c'.closing=c.closing
  queued : c'.queued=c.queued
  ran : c'.ran=c.ran

theorem Same.refl (c : Core R) : Same c c := ⟨rfl,rfl,rfl,rfl,rfl,rfl,rfl,rfl,rfl,rfl⟩

/-- The weights of the accounts beside `Frame.fresh`. -/
def Frame.weights : List (Frame R → Nat) :=
  [Frame.queueing,Frame.closingFlags,Frame.obliged,Frame.calling,Frame.working,Frame.cleaning,
    Frame.handling]

/-- A frame that no account counts. -/
structure Frame.Weightless (f : Frame R) : Prop where
  fresh : f.fresh=0
  other : ∀ w∈Frame.weights, w f=0

theorem sum_eq_zero {fs : List (Frame R)} {w : Frame R → Nat} (h : ∀ f∈fs, w f=0) :
    (fs.map w).sum=0 := by
  apply List.sum_eq_zero
  intro n hn
  obtain ⟨f,hf,rfl⟩ := List.mem_map.mp hn
  exact h f hf

/-- The accounts stay right when their fields and weights stay; an admission may end. -/
theorem Account.congr {l l' : Local R} (h : Account l) (hs : Same l.core l'.core)
    (hf : tok Frame.fresh l'.frames ≤ tok Frame.fresh l.frames)
    (hw : ∀ w∈Frame.weights, tok w l'.frames=tok w l.frames) : Account l' := by
  simp only [Frame.weights,List.forall_mem_cons,List.not_mem_nil,false_implies,implies_true,
    and_true] at hw
  obtain ⟨hq,hcl,hob,hca,hwo,hcle,hha⟩ := hw
  constructor
  · rw [hq,hs.queued,hs.isDisconnect]
    exact h.queued
  · rw [hcle,hs.queued,hs.cleanups,hs.ran]
    exact h.ran
  · rw [hwo,hs.running]
    exact h.running
  · rw [hs.hadConnected,hs.offered]
    have := h.offered
    omega
  · rw [hs.closing]
    intro hpos
    exact h.fresh (by omega)
  · rw [hca,hs.closing]
    exact h.calling
  · rw [hob,hs.hadConnected,hs.closing,hs.isDisconnect,hs.disconnecting]
    exact h.quiet
  · rw [hs.isConnect,hs.hadConnected]
    exact h.connect
  · rw [hob,hs.hadConnected,hs.isConnect,hs.isDisconnect,hs.disconnecting]
    exact h.obliged
  · rw [hcl,hs.isConnect,hs.isDisconnect]
    exact h.off
  · rw [hha,hs.ran]
    exact h.handling

/-- A frame goes on with frames that count for the same. -/
theorem Account.next {c c' : Core R} {f : Frame R} {fs : List (Frame R)} {m : Multiset (Frame R)}
    (h : Account ⟨c,f::ₘm⟩) (hs : Same c c') (hf : (fs.map Frame.fresh).sum ≤ f.fresh)
    (hw : ∀ w∈Frame.weights, (fs.map w).sum=w f) : Account ⟨c',beside fs m⟩ := by
  apply h.congr hs
  · rw [tok_beside,tok_cons]
    omega
  · intro w hin
    rw [tok_beside,tok_cons,hw w hin]

/-- The points of the send path proper, up to the call of `disconnect`. -/
def Sending : At → Prop
  | .idle | .registerDisconnect | .processDisconnect | .closeFlags | .beginShutdown => False
  | _ => True

/-- A step of the send path does not touch the connection; it goes on in the send path, or it ends. -/
theorem advance_sending {p p' : SendPipeline.Session} {ok : Bool} {pc pc' : At}
    (h : advance p ok pc=some (p',pc')) (hpc : Sending pc) (hne : ∀ dropped, pc≠.disconnect dropped) :
    p'.isConnect=p.isConnect ∧ p'.isDisconnect=p.isDisconnect ∧ p'.disconnecting=p.disconnecting ∧
      p'.shutdownStarted=p.shutdownStarted ∧ p'.closeAfterSend=p.closeAfterSend ∧
      (pc'=.idle ∨ Sending pc') := by
  cases SendPipeline.advance_move h with
  | registerDisconnect | disconnectFailed | processDisconnect | processed | closeFlags
  | beginShutdown | shutdownBegun => exact hpc.elim
  | close | closed => exact absurd rfl (hne _)
  | sendOff | enqueueOff | registerOff | fly | completedOff | emptied =>
    exact ⟨rfl,rfl,rfl,rfl,rfl,Or.inl rfl⟩
  | accept =>
    refine ⟨rfl,rfl,rfl,rfl,rfl,?_⟩
    split
    · exact Or.inl rfl
    · exact Or.inr trivial
  | nothing =>
    refine ⟨rfl,rfl,rfl,rfl,rfl,?_⟩
    split
    · exact Or.inr trivial
    · exact Or.inl rfl
  | whole =>
    refine ⟨rfl,rfl,rfl,rfl,rfl,Or.inr ?_⟩
    split <;> trivial
  | _ => exact ⟨rfl,rfl,rfl,rfl,rfl,Or.inr trivial⟩

attribute [local simp] Frame.fresh Frame.queueing Frame.closingFlags Frame.obliged Frame.calling
  Frame.working Frame.cleaning Frame.handling

/-- Frames outside the admission, the disconnect, the cleanup and the jobs. -/
def Frame.Plain : Frame R → Prop
  | .addSession | .processConnect | .storeConnect | .rejectConnection => False
  | .queueCleanup | .job _ | .body _ | .endJob => False
  | .pipe pc => Sending pc
  | _ => True

theorem Frame.Plain.weightless {f : Frame R} (h : f.Plain) : f.Weightless := by
  cases f with
  | addSession | processConnect | storeConnect | rejectConnection | queueCleanup | job | body
  | endJob => exact h.elim
  | pipe pc =>
    cases pc with
    | idle | registerDisconnect | processDisconnect | closeFlags | beginShutdown => exact h.elim
    | _ => constructor <;> simp [Frame.weights]
  | _ => constructor <;> simp [Frame.weights]

/-- A plain frame goes on with plain frames. -/
theorem Account.neutral {c c' : Core R} {f : Frame R} {fs : List (Frame R)} {m : Multiset (Frame R)}
    (h : Account ⟨c,f::ₘm⟩) (hf : f.Plain) (hfs : ∀ g∈fs, g.Plain) (hs : Same c c') :
    Account ⟨c',beside fs m⟩ := by
  apply h.next hs
  · rw [sum_eq_zero fun g hg => (hfs g hg).weightless.fresh]
    exact Nat.zero_le _
  · intro w hw
    rw [sum_eq_zero fun g hg => (hfs g hg).weightless.other w hw,hf.weightless.other w hw]

/-- A method is entered at plain frames. -/
theorem Account.start {c c' : Core R} {fs : List (Frame R)} {m : Multiset (Frame R)}
    (h : Account ⟨c,m⟩) (hfs : ∀ g∈fs, g.Plain) (hs : Same c c') : Account ⟨c',beside fs m⟩ := by
  apply h.congr hs
  · rw [tok_beside,sum_eq_zero fun g hg => (hfs g hg).weightless.fresh,Nat.zero_add]
  · intro w hw
    rw [tok_beside,sum_eq_zero fun g hg => (hfs g hg).weightless.other w hw,Nat.zero_add]

/-- `_is_connect` becomes true, in `process_connect` or in `reject_connection`. -/
theorem Account.connected {c : Core R} {f g : Frame R} {m : Multiset (Frame R)}
    (h : Account ⟨c,f::ₘm⟩) (hf : f.fresh=1) (hfw : ∀ w∈Frame.weights, w f=0)
    (hg : g.Plain) :
    Account ⟨{ c with pipe := { c.pipe with isConnect := true }, hadConnected := true },
      beside [g] m⟩ := by
  have hw : ∀ w∈Frame.weights, tok w (beside [g] m)=tok w (f::ₘm) := by
    intro w hw
    rw [tok_beside,tok_cons,hfw w hw,sum_eq_zero (by simpa using hg.weightless.other w hw)]
  have hfresh : tok Frame.fresh (beside [g] m)+1=tok Frame.fresh (f::ₘm) := by
    rw [tok_beside,tok_cons,hf,sum_eq_zero (by simpa using hg.weightless.fresh)]
    omega
  obtain ⟨hhad,hclose,hdis,-,-⟩ := h.of_fresh (by simp only; omega)
  have hq := h.queued
  have hr := h.ran
  have hwork := h.running
  have ho := h.offered
  simp only [Frame.weights,List.forall_mem_cons,List.not_mem_nil,false_implies,implies_true,
    and_true] at hw hhad hclose hdis hq hr hwork ho
  obtain ⟨hwq,-,-,hwca,hwwo,hwcl,hwha⟩ := hw
  constructor
  · rw [hwq]
    exact hq
  · rw [hwcl]
    exact hr
  · rw [hwwo]
    exact hwork
  · rw [hhad,Bool.toNat_false] at ho
    simp only [Bool.toNat_true]
    omega
  · intro _
    exact hclose
  · rw [hwca]
    exact h.calling
  · intro hfalse
    cases hfalse
  · intro _
    rfl
  · intro _ hfalse
    cases hfalse
  · intro htrue
    rw [hdis] at htrue
    cases htrue
  · rw [hwha]
    exact h.handling

-- The steps that change an account. Each changes one or two of them; `simp` shows the others to be
-- what they were.

section

variable {c : Core R} {m : Multiset (Frame R)}

/-- `disconnect` wins the exchange of `_is_connect`. -/
theorem Account.disconnect {dropped : Bool} (h : Account ⟨c,.pipe (.disconnect dropped)::ₘm⟩)
    (hc : c.pipe.isConnect) :
    Account ⟨{ c with pipe := { c.pipe with isConnect := false } },
      beside [.pipe .registerDisconnect] m⟩ := by
  have hhad := h.connect hc
  obtain ⟨hq,hr,hw,ho,hf,hca,hqu,-,hob,hoff,hh⟩ := h
  simp at *
  constructor <;> simp <;> try assumption
  case quiet => simp [hhad]

/-- `DisconnectEx` is registered: its completion takes over the obligation. -/
theorem Account.registerDisconnect (h : Account ⟨c,.pipe .registerDisconnect::ₘm⟩) (n : Nat) :
    Account ⟨{ c with pipe := { c.pipe with disconnecting := true }, pendingIo := n },
      beside [] m⟩ := by
  obtain ⟨hq,hr,hw,ho,hf,hca,hqu,hcon,hob,hoff,hh⟩ := h
  simp at *
  constructor <;> simp <;> try assumption

theorem Account.disconnectCompleted (h : Account ⟨c,m⟩) (hd : c.pipe.disconnecting) :
    Account ⟨{ c with pipe := { c.pipe with disconnecting := false } },
      beside [.pipe .processDisconnect,.finishIo] m⟩ := by
  obtain ⟨hq,hr,hw,ho,hf,hca,hqu,hcon,hob,hoff,hh⟩ := h
  simp at *
  constructor <;> simp <;> try assumption
  case quiet =>
    intro hhad
    by_contra hcl
    have hquiet := (hqu hhad (by simpa using hcl)).2.2
    rw [hd] at hquiet
    cases hquiet

/-- `process_disconnect` finds that another thread was first. -/
theorem Account.processDisconnect_late (h : Account ⟨c,.pipe .processDisconnect::ₘm⟩)
    (hd : c.pipe.isDisconnect) : Account ⟨c,beside [] m⟩ := by
  obtain ⟨hq,hr,hw,ho,hf,hca,hqu,hcon,hob,hoff,hh⟩ := h
  simp at *
  constructor <;> simp <;> try assumption
  case quiet =>
    intro hhad hcl
    rw [hqu hhad] at hcl
    cases hcl
  case obliged => exact fun _ _ => Or.inl hd

theorem Account.processDisconnect (h : Account ⟨c,.pipe .processDisconnect::ₘm⟩)
    (hd : c.pipe.isDisconnect=false) :
    Account ⟨{ c with pipe := { c.pipe with isDisconnect := true } },
      beside [.pipe .closeFlags] m⟩ := by
  have hle := closingFlags_le m
  obtain ⟨hq,hr,hw,ho,hf,hca,hqu,hcon,hob,hoff,hh⟩ := h
  simp at *
  constructor <;> simp <;> try assumption
  case queued =>
    rw [hd,Bool.toNat_false] at hq
    omega

theorem Account.closeFlags (h : Account ⟨c,.pipe .closeFlags::ₘm⟩) :
    Account ⟨{ c with pipe := { c.pipe with isConnect := false, isSendRegister := false } },
      beside [.queueCleanup] m⟩ := by
  have hdis : c.pipe.isDisconnect := by
    have hq := h.queued
    cases hd : c.pipe.isDisconnect with
    | true => rfl
    | false => simp [hd] at hq
  obtain ⟨hq,hr,hw,ho,hf,hca,hqu,hcon,hob,hoff,hh⟩ := h
  simp at *
  constructor <;> simp <;> try assumption
  case obliged => exact fun _ => Or.inl hdis

theorem Account.queueCleanup (h : Account ⟨c,.queueCleanup::ₘm⟩) :
    Account ⟨{ c.queueLogic .cleanup with queued := c.queued+1 },beside [] m⟩ := by
  obtain ⟨hq,hr,hw,ho,hf,hca,hqu,hcon,hob,hoff,hh⟩ := h
  simp at *
  constructor <;> simp [Core.queueLogic,Job.isCleanup] <;> try assumption
  case queued => omega
  case ran => omega

/-- `begin_shutdown` takes effect. -/
theorem Account.beginShutdown (h : Account ⟨c,.pipe .beginShutdown::ₘm⟩) :
    Account ⟨{ c with pipe := { c.pipe with shutdownStarted := true, isConnect := false },
                      logicStopped := true },beside [.pipe .processDisconnect] m⟩ := by
  have hclose : c.closing := h.calling (by simp)
  obtain ⟨hq,hr,hw,ho,hf,hca,hqu,hcon,hob,hoff,hh⟩ := h
  simp at *
  constructor <;> simp <;> try assumption
  case calling => exact fun _ => hclose
  case quiet => exact fun _ => hclose

theorem Account.beginShutdown_late (h : Account ⟨c,.pipe .beginShutdown::ₘm⟩) :
    Account ⟨c,beside [] m⟩ := by
  obtain ⟨hq,hr,hw,ho,hf,hca,hqu,hcon,hob,hoff,hh⟩ := h
  simp at *
  constructor <;> simp <;> try assumption
  case calling => exact fun _ => hca

/-- A packet job finds the session connected: its cleanup is not even queued. -/
theorem Account.startHandler {pkt : R} (h : Account ⟨c,.job (.packet pkt)::ₘm⟩)
    (hc : c.pipe.isConnect) : Account ⟨c,beside [.body false] m⟩ := by
  have hran := (h.of_connect hc).2
  obtain ⟨hq,hr,hw,ho,hf,hca,hqu,hcon,hob,hoff,hh⟩ := h
  simp at *
  constructor <;> simp <;> try assumption

theorem Account.endHandler (h : Account ⟨c,.body false::ₘm⟩) : Account ⟨c,beside [.endJob] m⟩ := by
  obtain ⟨hq,hr,hw,ho,hf,hca,hqu,hcon,hob,hoff,hh⟩ := h
  simp at *
  constructor <;> simp <;> try assumption
  case handling => exact fun _ => hh

/-- The cleanup has run; no handler is running beside it. -/
theorem Account.endCleanup (h : Account ⟨c,.body true::ₘm⟩) :
    Account ⟨{ c with ran := c.ran+1 },beside [.endJob] m⟩ := by
  have hle := cleaning_add_handling_le m
  have hone := Bool.toNat_le c.running
  obtain ⟨hq,hr,hw,ho,hf,hca,hqu,hcon,hob,hoff,hh⟩ := h
  simp at *
  constructor <;> simp <;> try assumption
  case ran => omega
  case handling => omega

theorem Account.endJob (h : Account ⟨c,.endJob::ₘm⟩) (n : Nat) :
    Account ⟨{ c with pendingJobs := n, running := false },beside [] m⟩ := by
  have hone := Bool.toNat_le c.running
  obtain ⟨hq,hr,hw,ho,hf,hca,hqu,hcon,hob,hoff,hh⟩ := h
  simp at *
  constructor <;> simp <;> try assumption
  case running => omega

theorem Account.startJob {j : Job R} {rest : List (Job R)} (h : Account ⟨c,m⟩) (hj : c.jobs=j::rest)
    (hrun : c.running=false) :
    Account ⟨{ c with jobs := rest, running := true },beside [.job j] m⟩ := by
  have hran := h.ran
  rw [hj] at hran
  obtain ⟨hq,-,hw,ho,hf,hca,hqu,hcon,hob,hoff,hh⟩ := h
  simp [hrun] at *
  cases j with
  | packet pkt =>
    simp [Job.isCleanup] at hran
    constructor <;> simp <;> assumption
  | cleanup =>
    simp [Job.isCleanup] at hran
    constructor <;> simp <;> try assumption
    case ran => omega

theorem Account.offer (h : Account ⟨c,m⟩) (hno : c.offered=false) (hcl : c.closing=false) :
    Account ⟨{ c with offered := true },beside [.addSession] m⟩ := by
  obtain ⟨hq,hr,hw,ho,hf,hca,hqu,hcon,hob,hoff,hh⟩ := h
  simp at *
  constructor <;> simp <;> try assumption
  case offered =>
    rw [hno,Bool.toNat_false] at ho
    omega

theorem Account.shutdown (h : Account ⟨c,m⟩) (hfr : tok Frame.fresh m=0) :
    Account ⟨{ c with closing := true },beside [.pipe .beginShutdown] m⟩ := by
  obtain ⟨hq,hr,hw,ho,hf,hca,hqu,hcon,hob,hoff,hh⟩ := h
  simp at *
  constructor <;> simp <;> try assumption

end

theorem same_pipeEffect {c : Core R} {ok : Bool} {pc : At} {p : SendPipeline.Session}
    (hpc : Sending pc) (hcon : p.isConnect=c.pipe.isConnect)
    (hdis : p.isDisconnect=c.pipe.isDisconnect) (hfly : p.disconnecting=c.pipe.disconnecting) :
    Same c (pipeEffect c ok pc p) := by
  cases pc with
  | idle | registerDisconnect | processDisconnect | closeFlags | beginShutdown => exact hpc.elim
  | transmit =>
    simp only [pipeEffect]
    split <;> exact ⟨hcon,hdis,hfly,rfl,rfl,rfl,rfl,rfl,rfl,rfl⟩
  | _ => exact ⟨hcon,hdis,hfly,rfl,rfl,rfl,rfl,rfl,rfl,rfl⟩

theorem plain_pipeNext {pc pc' : At} (hpc : Sending pc) (h : pc'=.idle ∨ Sending pc') :
    ∀ g∈(pipeNext pc pc' : List (Frame R)), g.Plain := by
  intro g hg
  rcases h with rfl|h
  · cases pc <;> simp [pipeNext,Sending] at hg hpc
  · have hone : (pipeNext pc pc' : List (Frame R))=[.pipe pc'] := by
      cases pc' <;> first | rfl | exact h.elim
    rw [hone,List.mem_singleton] at hg
    rw [hg]
    exact h

/-- Every step of the send path and of the disconnect keeps the accounts. -/
theorem Account.pipe {c : Core R} {ok : Bool} {pc pc' : At} {p : SendPipeline.Session}
    {m : Multiset (Frame R)} (h : Account ⟨c,.pipe pc::ₘm⟩) (ha : advance c.pipe ok pc=some (p,pc')) :
    Account ⟨pipeEffect c ok pc p,beside (pipeNext pc pc') m⟩ := by
  cases pc with
  | idle => cases ha
  | disconnect dropped =>
    simp only [advance] at ha
    split at ha <;> cases ha
    · rename_i hc
      exact h.disconnect hc
    · exact h.neutral trivial (by simp [pipeNext]) (Same.refl c)
  | registerDisconnect =>
    simp only [advance] at ha
    split at ha
    · cases ha
    · split at ha
      · rename_i hs
        cases ha
        rw [pipeEffect,if_neg (by simp [hs])]
        apply h.next (Same.refl c) <;> simp [Frame.weights,pipeNext]
      · rename_i hs
        split at ha
        · rename_i hok
          cases ha
          rw [pipeEffect,if_pos ⟨by simpa using hs,hok⟩]
          exact h.registerDisconnect _
        · rename_i hok
          cases ha
          rw [pipeEffect,if_neg (by simp [hok])]
          apply h.next (Same.refl c) <;> simp [Frame.weights,pipeNext]
  | processDisconnect =>
    simp only [advance] at ha
    split at ha <;> cases ha
    · rename_i hd
      exact h.processDisconnect_late hd
    · rename_i hd
      exact h.processDisconnect (by simpa using hd)
  | closeFlags =>
    cases ha
    exact h.closeFlags
  | beginShutdown =>
    simp only [advance] at ha
    split at ha
    · cases ha
    · split at ha
      · rename_i hs
        cases ha
        rw [pipeEffect,if_pos hs]
        exact h.beginShutdown_late
      · rename_i hs
        cases ha
        rw [pipeEffect,if_neg hs]
        exact h.beginShutdown
  | _ =>
    obtain ⟨hcon,hdis,hfly,-,-,hnext⟩ := advance_sending ha trivial (by simp)
    apply h.neutral trivial
    · exact plain_pipeNext trivial hnext
    · exact same_pipeEffect trivial hcon hdis hfly

/-- Every step of a thread keeps the accounts. -/
theorem Account.fire {c c' : Core R} {o : Choice R} {f : Frame R} {fs : List (Frame R)}
    {m : Multiset (Frame R)} (h : Account ⟨c,f::ₘm⟩) (hx : exec c o f=some (c',fs)) :
    Account ⟨c',beside fs m⟩ := by
  cases exec_move hx with
  | full | added | known | processConnect =>
    apply h.next
    · constructor <;> rfl
    · simp
    · simp [Frame.weights]
  | storeConnect => exact h.connected rfl (by simp [Frame.weights]) trivial
  | connected hon =>
    have hoff : c.pipe.isConnect=false := (h.of_fresh (by simp)).2.2.2.1
    exact absurd hon (by simp [hoff])
  | rejectConnection => exact h.connected rfl (by simp [Frame.weights]) trivial
  | pipe ok pc p pc' ha => exact h.pipe ha
  | queueCleanup => exact h.queueCleanup
  | handle pkt hon => exact h.startHandler hon
  | drop | cleanup | next | send | disconnect =>
    apply h.next (Same.refl c) <;> simp [Frame.weights,Lifecycle.disconnect]
  | done cleanup =>
    cases cleanup with
    | false => exact h.endHandler
    | true => exact h.endCleanup
  | endJob => exact h.endJob _
  | postLogic =>
    apply h.neutral trivial
    · simp
    · constructor <;> simp [Core.queueLogic,Job.isCleanup]
  | _ =>
    apply h.neutral trivial
    · simp [Lifecycle.disconnect,Frame.Plain,Sending]
    · constructor <;> rfl

theorem Account.enter {c c' : Core R} {e : Entry} {fs : List (Frame R)} {m : Multiset (Frame R)}
    (h : Account ⟨c,m⟩) (ha : Allowed ⟨c,m⟩ e) (hx : enter c e=some (c',fs)) :
    Account ⟨c',beside fs m⟩ := by
  cases enter_enters hx with
  | offer => exact h.offer ha.1 ha.2
  | beginShutdown => exact h.shutdown ha
  | disconnectCompleted hdisc => exact h.disconnectCompleted hdisc
  | startJob j rest hjobs hrun => exact h.startJob hjobs hrun
  | _ =>
    apply h.start
    · simp [Lifecycle.disconnect,Frame.Plain,Sending]
    · constructor <;> rfl

/-- Whatever threads do to a session, its accounts stay right. -/
theorem Account.step {l l' : Local R} {ok : Local R → Entry → Prop} (hok : ∀ l e, ok l e → Allowed l e)
    (h : Account l) (hs : Step ok l l') : Account l' := by
  cases hs with
  | fire o m hx => exact h.fire hx
  | enter ha hx => exact h.enter (hok _ _ ha) hx

end IocpServer.NetWork.Lifecycle
