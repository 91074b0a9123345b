import IocpServer.NetWork.Cleanup
import IocpServer.Server.WireOrder

set_option linter.unusedSectionVars false

namespace IocpServer.Server.Dispatch

open NetWork
open Pool (weight weight_cons weight_add total pending)
open Relation (ReflTransGen)

variable {P S : Type} [DecidableEq S]

def Logic.job : Logic P → Lifecycle.Job P
  | .packet pkt => .packet pkt
  | .cleanup => .cleanup

def Logic.isCleanup : Logic P → Bool
  | .cleanup => true
  | .packet _ => false

namespace Frame

/-- `begin_shutdown` holds `_io_lock` and its outcome does not show yet. -/
def shuts : Frame P → Nat
  | .stopLogic | .closeSocket => 1
  | _ => 0

/-- `begin_shutdown` is called and has not set its flag. -/
def calling : Frame P → Nat
  | .beginShutdown => 1
  | _ => 0

/-- The session is being admitted and `_is_connect` is not yet set. -/
def fresh : Frame P → Nat
  | .addSession | .processConnect | .storeConnect | .rejectConnection => 1
  | _ => 0

/-- The thread is about to register the disconnect. -/
def closes : Frame P → Nat
  | .registerDisconnect => 1
  | _ => 0

/-- The frames of the session's lifecycle for a frame. The loop of `on_recv` shows when it decides,
`begin_shutdown` when it releases `_io_lock`. -/
def shown : Frame P → List (Lifecycle.Frame P)
  | .addSession => [.addSession]
  | .processConnect => [.processConnect]
  | .storeConnect => [.storeConnect]
  | .countConnect => [.countConnect]
  | .rejectConnection => [.rejectConnection]
  | .rejectStore => [.rejectStore]
  | .registerRecv => [.registerRecv]
  | .processRecv bytes => [.processRecv bytes.length]
  | .onRecv _ | .onRecvPacket _ _ | .postLogic _ _ => [.onRecv]
  | .posted _ | .onRecvNext _ => [.onRecvNext]
  | .onRead n => [if n<0 then Lifecycle.disconnect else .registerRecv]
  | .disconnect => [Lifecycle.disconnect]
  | .registerDisconnect => [.pipe .registerDisconnect]
  | .processDisconnect => [.pipe .processDisconnect]
  | .closeFlags => [.pipe .closeFlags]
  | .queueCleanup => [.queueCleanup]
  | .queued => []
  | .beginShutdown | .stopLogic | .closeSocket => [.pipe .beginShutdown]
  | .job j => [.job j.job]
  | .handler _ => [.body false]
  | .cleanup => [.body true]
  | .endLogic => [.endJob]

end Frame

/-- The fields of the lifecycle show those of the session, `m` being the frames of all threads and
`started` the jobs that its queue has started. -/
structure Agrees (c : Core P S) (m : Multiset (Frame P)) (started : List (Logic P))
    (k : Lifecycle.Core P) : Prop where
  isConnect : k.pipe.isConnect=c.isConnect
  isDisconnect : k.pipe.isDisconnect=c.isDisconnect
  ioLock : k.pipe.ioLock=false
  offered : k.offered=c.offered
  receiving : k.receiving.toNat=c.receiving
  disconnecting : k.pipe.disconnecting.toNat=c.disconnecting
  stopped : k.logicStopped=true → c.logicStopped=true
  jobs : started.map Logic.job++k.jobs=c.pushed.map Logic.job
  queued : k.queued=c.pushed.countP Logic.isCleanup
  lock : weight Frame.shuts m=c.ioLock.toNat
  shutdown : k.pipe.shutdownStarted.toNat+weight Frame.shuts m=c.shutdownStarted.toNat
  closing : k.closing=true → 0<c.shutdownStarted.toNat+weight Frame.calling m
  running : weight Frame.runs m=k.running.toNat
  once : (!c.offered).toNat+weight Frame.fresh m+c.isConnect.toNat+weight Frame.closes m+
    c.disconnecting ≤ 1
  stops : .closeSocket∈m → c.logicStopped=true

/-- The session without the fields that its lifecycle leaves out. -/
def Core.shown (c : Core P S) : Core P S :=
  { c with logicLock := false, recvBuffer := RecvBuffer.init 0, game := Game.State.init 0,
           stream := [], dispatched := [], handled := [] }

/-- The lifecycle without the fields that the receive path leaves out. -/
def bare (k : Lifecycle.Core P) : Lifecycle.Core P :=
  { k with pipe := { k.pipe with closeAfterSend := false }, pendingIo := 0, pendingJobs := 0,
           admitted := false, hadConnected := false, welcomed := false, ran := 0 }

/-- The frames `fs` take the place of `f` without showing it. -/
structure Passes (f : Frame P) (fs : List (Frame P)) : Prop where
  shuts : total Frame.shuts fs=f.shuts
  calling : total Frame.calling fs=f.calling
  runs : total Frame.runs fs=f.runs
  opens : total Frame.fresh fs+total Frame.closes fs ≤ f.fresh+f.closes
  stops : ∀ g∈fs, g≠.closeSocket

variable {e : Env P} {c c' : Core P S} {f : Frame P} {fs : List (Frame P)} {m : Multiset (Frame P)}
  {started : List (Logic P)} {k k' : Lifecycle.Core P}

namespace Agrees

theorem congr (h : Agrees c m started k) (hc : c'.shown=c.shown) (hk : bare k'=bare k) :
    Agrees c' m started k' := by
  have hbare : Agrees c.shown m started (bare k) := { h with }
  rw [← hc,← hk] at hbare
  exact { hbare with }

theorem lock_add (h : Agrees c (f::ₘm) started k) (hs : total Frame.shuts fs=f.shuts) :
    weight Frame.shuts (fs+m : Multiset (Frame P))=c.ioLock.toNat := by
  rw [weight_add,hs,← weight_cons,h.lock]

theorem shutdown_add (h : Agrees c (f::ₘm) started k) (hs : total Frame.shuts fs=f.shuts) :
    k.pipe.shutdownStarted.toNat+weight Frame.shuts (fs+m : Multiset (Frame P))=
      c.shutdownStarted.toNat := by
  rw [weight_add,hs,← weight_cons,h.shutdown]

theorem closing_add (h : Agrees c (f::ₘm) started k) (hs : total Frame.calling fs=f.calling)
    (hk : k.closing=true) :
    0<c.shutdownStarted.toNat+weight Frame.calling (fs+m : Multiset (Frame P)) := by
  rw [weight_add,hs,← weight_cons]
  exact h.closing hk

theorem running_add (h : Agrees c (f::ₘm) started k) (hs : total Frame.runs fs=f.runs) :
    weight Frame.runs (fs+m : Multiset (Frame P))=k.running.toNat := by
  rw [weight_add,hs,← weight_cons,h.running]

theorem once_add (h : Agrees c (f::ₘm) started k)
    (hopen : total Frame.fresh fs+total Frame.closes fs ≤ f.fresh+f.closes) :
    (!c.offered).toNat+weight Frame.fresh (fs+m : Multiset (Frame P))+c.isConnect.toNat+
      weight Frame.closes (fs+m : Multiset (Frame P))+c.disconnecting ≤ 1 := by
  have honce := h.once
  rw [weight_cons,weight_cons] at honce
  rw [weight_add,weight_add]
  omega

theorem stops_add (h : Agrees c (f::ₘm) started k) (hstop : ∀ g∈fs, g≠.closeSocket)
    (hmem : .closeSocket∈(fs+m : Multiset (Frame P))) : c.logicStopped=true := by
  rcases Multiset.mem_add.mp hmem with hmem|hmem
  · exact absurd rfl (hstop _ hmem)
  · exact h.stops (Multiset.mem_cons_of_mem hmem)

/-- The frames are replaced by others that show the same. -/
theorem next (h : Agrees c (f::ₘm) started k) (hc : c'.shown=c.shown) (hk : bare k'=bare k)
    (hp : Passes f fs) : Agrees c' (fs+m) started k' := by
  have hnext : Agrees c (fs+m) started k :=
    { h with
      lock := h.lock_add hp.shuts, shutdown := h.shutdown_add hp.shuts
      closing := h.closing_add hp.calling, running := h.running_add hp.runs
      once := h.once_add hp.opens, stops := h.stops_add hp.stops }
  exact hnext.congr hc hk

/-- While `_io_lock` is free the lifecycle knows whether `begin_shutdown` has begun. -/
theorem unlocked (h : Agrees c m started k) (hfree : c.ioLock=false) :
    k.pipe.shutdownStarted=c.shutdownStarted := by
  have hs := h.shutdown
  rw [h.lock,hfree] at hs
  cases hk : k.pipe.shutdownStarted <;> cases hc : c.shutdownStarted <;> simp_all

/-- `_is_connect` is set by the thread that admits the session. -/
theorem connect {g : Frame P} (h : Agrees c (f::ₘm) started k) (hp : Passes f [g]) (hf : f.fresh=1)
    (hg : g.fresh=0 ∧ g.closes=0) :
    Agrees { c with isConnect := true } (([g] : List (Frame P))+m) started
      { k with pipe := { k.pipe with isConnect := true }, hadConnected := true } := by
  have honce := h.once
  have h' : Agrees c (([g] : List (Frame P))+m) started k := h.next rfl rfl hp
  rw [weight_cons,weight_cons] at honce
  refine { h' with isConnect := rfl, once := ?_ }
  simp only [weight_add,Pool.total_cons,Pool.total_nil,hg.1,hg.2,Bool.toNat_true]
  omega

theorem receive (h : Agrees c (.registerRecv::ₘm) started k) (h0 : c.receiving=0) (n : Nat) :
    Agrees { c with receiving := c.receiving+1 } (([] : List (Frame P))+m) started
      { k with receiving := true, pendingIo := n } := by
  have h' : Agrees c (([] : List (Frame P))+m) started k :=
    h.next rfl rfl ⟨rfl,rfl,rfl,Nat.zero_le _,by simp⟩
  exact { h' with receiving := by simp [h0] }

/-- `queue_logic` pushes a job. -/
theorem push {g : Frame P} (h : Agrees c (f::ₘm) started k) (j : Logic P) (hp : Passes f [g]) :
    Agrees { c with logicLock := true, pushed := c.pushed++[j] } (([g] : List (Frame P))+m) started
      { k.queueLogic j.job with queued := k.queued+j.isCleanup.toNat } := by
  have h' : Agrees c (([g] : List (Frame P))+m) started k := h.next rfl rfl hp
  refine { h' with jobs := ?_, queued := ?_ }
  · simp only [Lifecycle.Core.queueLogic,List.map_append,← h'.jobs,List.append_assoc]
    rfl
  · rw [List.countP_append,h'.queued]
    cases j <;> rfl

theorem disconnect (h : Agrees c (.disconnect::ₘm) started k) (hon : c.isConnect=true) :
    Agrees { c with isConnect := false } (([.registerDisconnect] : List (Frame P))+m) started
      { k with pipe := { k.pipe with isConnect := false } } := by
  have honce := h.once
  rw [weight_cons,weight_cons,hon] at honce
  refine { h with
    isConnect := rfl, lock := h.lock_add rfl, shutdown := h.shutdown_add rfl
    closing := h.closing_add rfl, running := h.running_add rfl, once := ?_
    stops := h.stops_add (by simp) }
  simp [Frame.fresh,Frame.closes] at honce ⊢
  omega

theorem registerDisconnect (h : Agrees c (.registerDisconnect::ₘm) started k) (n : Nat) :
    Agrees { c with disconnecting := c.disconnecting+1 } (([] : List (Frame P))+m) started
      { k with pipe := { k.pipe with disconnecting := true }, pendingIo := n } := by
  have honce := h.once
  rw [weight_cons,weight_cons] at honce
  simp only [Frame.fresh,Frame.closes] at honce
  have h0 : c.disconnecting=0 := by omega
  refine { h with
    disconnecting := by simp [h0], lock := h.lock_add rfl, shutdown := h.shutdown_add rfl
    closing := h.closing_add rfl, running := h.running_add rfl, once := ?_
    stops := h.stops_add (by simp) }
  simp only [weight_add,Pool.total_nil]
  omega

theorem processDisconnect (h : Agrees c (.processDisconnect::ₘm) started k) :
    Agrees { c with isDisconnect := true } (([.closeFlags] : List (Frame P))+m) started
      { k with pipe := { k.pipe with isDisconnect := true } } :=
  { h with
    isDisconnect := rfl, lock := h.lock_add rfl, shutdown := h.shutdown_add rfl
    closing := h.closing_add rfl, running := h.running_add rfl, once := h.once_add (Nat.le_refl _)
    stops := h.stops_add (by simp) }

/-- `_is_connect` is cleared. -/
theorem off (h : Agrees c m started k) {p : SendPipeline.Session}
    (hp : p={ k.pipe with isConnect := false, isSendRegister := p.isSendRegister }) :
    Agrees { c with isConnect := false } m started { k with pipe := p } := by
  have honce := h.once
  rw [hp]
  refine { h with isConnect := rfl, once := ?_ }
  simp only [Bool.toNat_false]
  omega

/-- `begin_shutdown` takes `_io_lock`. -/
theorem beginShutdown (h : Agrees c (.beginShutdown::ₘm) started k) (hfree : c.ioLock=false)
    (hshut : c.shutdownStarted=false) :
    Agrees { c with shutdownStarted := true, ioLock := true } (([.stopLogic] : List (Frame P))+m)
      started k := by
  have hk := h.unlocked hfree
  have hl := h.lock
  rw [weight_cons,hfree] at hl
  simp only [Frame.shuts,Bool.toNat_false] at hl
  have h0 : weight Frame.shuts m=0 := by omega
  exact { h with
    lock := by simp [Frame.shuts,h0], shutdown := by simp [Frame.shuts,h0,hk,hshut]
    closing := by simp, running := h.running_add rfl, once := h.once_add (Nat.le_refl _)
    stops := h.stops_add (by simp) }

theorem shutdownBegun (h : Agrees c (.beginShutdown::ₘm) started k)
    (hshut : c.shutdownStarted=true) : Agrees c (([] : List (Frame P))+m) started k :=
  { h with
    lock := h.lock_add rfl, shutdown := h.shutdown_add rfl, closing := by simp [hshut]
    running := h.running_add rfl, once := h.once_add (Nat.le_refl _)
    stops := h.stops_add (by simp) }

theorem stopLogic (h : Agrees c (.stopLogic::ₘm) started k) :
    Agrees { c with logicStopped := true } (([.closeSocket] : List (Frame P))+m) started k :=
  { h with
    stopped := fun _ => rfl, lock := h.lock_add rfl, shutdown := h.shutdown_add rfl
    closing := h.closing_add rfl, running := h.running_add rfl, once := h.once_add (Nat.le_refl _)
    stops := fun _ => rfl }

/-- `begin_shutdown` releases `_io_lock` and shows. -/
theorem closeSocket (h : Agrees c (.closeSocket::ₘm) started k) :
    k.pipe.shutdownStarted=false ∧
    Agrees { c with isConnect := false, ioLock := false }
      (([.processDisconnect] : List (Frame P))+m) started
      { k with pipe := { k.pipe with shutdownStarted := true, isConnect := false },
               logicStopped := true } := by
  have hl := h.lock
  have hs := h.shutdown
  have hle := Bool.toNat_le c.ioLock
  have hle' := Bool.toNat_le c.shutdownStarted
  have hstop := h.stops (Multiset.mem_cons_self _ m)
  rw [weight_cons] at hl hs
  simp only [Frame.shuts] at hl hs
  have h0 : weight Frame.shuts m=0 := by omega
  have hk : k.pipe.shutdownStarted.toNat=0 := by omega
  have hc : c.shutdownStarted.toNat=1 := by omega
  have h' : Agrees { c with ioLock := false } (([.processDisconnect] : List (Frame P))+m) started
      { k with pipe := { k.pipe with shutdownStarted := true }, logicStopped := true } :=
    { h with
      stopped := fun _ => hstop, lock := by simp [Frame.shuts,h0]
      shutdown := by simp [Frame.shuts,h0,hc], closing := h.closing_add rfl
      running := h.running_add rfl, once := h.once_add (Nat.le_refl _), stops := fun _ => hstop }
  exact ⟨Bool.toNat_eq_zero.mp hk,h'.off rfl⟩

theorem endLogic (h : Agrees c (.endLogic::ₘm) started k) (n : Nat) :
    Agrees c (([] : List (Frame P))+m) started { k with pendingJobs := n, running := false } := by
  have hr := h.running
  have hle := Bool.toNat_le k.running
  rw [weight_cons] at hr
  simp only [Frame.runs] at hr
  refine { h with
    lock := h.lock_add rfl, shutdown := h.shutdown_add rfl, closing := h.closing_add rfl
    running := ?_, once := h.once_add (Nat.le_refl _), stops := h.stops_add (by simp) }
  simp only [weight_add,Pool.total_nil,Bool.toNat_false]
  omega

end Agrees

/-- A choice for a step that depends on the outcome of a system call at most. -/
def choose (ok : Bool) : Lifecycle.Choice P := ⟨ok,.wait,none,none,.done⟩

/-- The lifecycle goes from the frames `gs` to the frames `gs'`, whatever threads stand beside. -/
def Goes (ok : Lifecycle.Local P → Lifecycle.Entry → Prop) (k : Lifecycle.Core P)
    (gs : List (Lifecycle.Frame P)) (k' : Lifecycle.Core P) (gs' : List (Lifecycle.Frame P)) :
    Prop :=
  ∀ M : Multiset (Lifecycle.Frame P), ReflTransGen (Lifecycle.Step ok) ⟨k,gs+M⟩ ⟨k',gs'+M⟩

namespace Goes

variable {ok : Lifecycle.Local P → Lifecycle.Entry → Prop} {k'' : Lifecycle.Core P}
  {gs gs' gs'' : List (Lifecycle.Frame P)}

theorem refl : Goes ok k gs k gs := fun _ => .refl

theorem trans (h : Goes ok k gs k' gs') (h' : Goes ok k' gs' k'' gs'') : Goes ok k gs k'' gs'' :=
  fun M => (h M).trans (h' M)

theorem fire {g : Lifecycle.Frame P} (o : Lifecycle.Choice P)
    (h : Lifecycle.exec k o g=some (k',gs')) : Goes ok k (g::gs) k' (gs'++gs) := by
  intro M
  have hstep : Lifecycle.Step ok _ _ := Lifecycle.Step.fire o (gs+M) h
  rw [Lifecycle.beside,← add_assoc,Multiset.coe_add] at hstep
  rw [← Multiset.cons_coe,Multiset.cons_add]
  exact .single hstep

/-- One frame takes one step. -/
theorem one {g : Lifecycle.Frame P} (o : Lifecycle.Choice P)
    (h : Lifecycle.exec k o g=some (k',gs')) : Goes ok k [g] k' gs' := by
  have hgoes : Goes ok k (g::[]) k' (gs'++[]) := fire o h
  rwa [List.append_nil] at hgoes

end Goes

/-- Frames of the lifecycle that the receive path leaves out: the end of a completion and the notice
on its way to the send path. -/
def Hidden (g : Lifecycle.Frame P) : Prop := g=.finishIo ∨ ∃ b, g=.pipe (.send b)

/-- The lifecycle follows a step that leads to the frames `fs`. -/
def Follows (ok : Lifecycle.Local P → Lifecycle.Entry → Prop) (k : Lifecycle.Core P) (f : Frame P)
    (fs : List (Frame P)) (A : Lifecycle.Core P → Prop) : Prop :=
  ∃ k' hidden, (∀ g∈hidden, Hidden g) ∧ Goes ok k f.shown k' (fs.flatMap Frame.shown++hidden) ∧ A k'

variable {ok : Lifecycle.Local P → Lifecycle.Entry → Prop}

theorem Follows.stay {A : Lifecycle.Core P → Prop} (h : fs.flatMap Frame.shown=f.shown) (ha : A k) :
    Follows ok k f fs A := by
  refine ⟨k,[],by simp,?_,ha⟩
  rw [List.append_nil,h]
  exact .refl

theorem Follows.one {A : Lifecycle.Core P → Prop} {g : Lifecycle.Frame P} (hf : f.shown=[g])
    (o : Lifecycle.Choice P) (hx : Lifecycle.exec k o g=some (k',fs.flatMap Frame.shown))
    (ha : A k') : Follows ok k f fs A := by
  refine ⟨k',[],by simp,?_,ha⟩
  rw [List.append_nil,hf]
  exact .one o hx

/-- The step is one of the send path. -/
theorem Follows.pipe {A : Lifecycle.Core P → Prop} {pc pc' : SendPipeline.At}
    {p : SendPipeline.Session} (hf : f.shown=[.pipe pc]) (b : Bool)
    (hx : SendPipeline.advance k.pipe b pc=some (p,pc'))
    (hnext : Lifecycle.pipeNext pc pc'=fs.flatMap Frame.shown)
    (ha : A (Lifecycle.pipeEffect k b pc p)) : Follows ok k f fs A := by
  refine .one hf (choose b) ?_ ha
  rw [← hnext]
  simp only [Lifecycle.exec,choose,hx,Option.map_some]

/-- `reject_connection` up to its notice. -/
theorem Goes.reject (k : Lifecycle.Core P) :
    Goes ok k [.rejectStore] { k with pipe := { k.pipe with closeAfterSend := true } }
      [.rejectNotice] :=
  ((Goes.one (choose true) rfl).trans (Goes.one (choose true) rfl)).trans
    (Goes.one (choose true) rfl)

/-- A packet is posted. -/
theorem Goes.post (pkt : P) (hopen : k.logicStopped=false) :
    Goes ok k [.onRecv] (k.queueLogic (.packet pkt)) [.onRecvNext] := by
  have hfind : Goes ok k [.onRecv] k [.postLogic pkt,.onRecvNext] :=
    .one ⟨true,.packet pkt,none,none,.done⟩ rfl
  have hpost : Goes ok k [.postLogic pkt,.onRecvNext] (k.queueLogic (.packet pkt))
      ([]++[.onRecvNext]) := .fire (choose true) (by simp [Lifecycle.exec,hopen])
  exact hfind.trans hpost

/-- The lifecycle follows every step of the session. -/
theorem move_follows {r : Outcome P S} (hr : Receives e c (f::ₘm)) (h : Move e c f r)
    (ha : Agrees c (f::ₘm) started k) :
    Follows ok k f r.frames (Agrees r.core (r.frames+m) started) := by
  have hon := ha.isConnect
  have hdone := ha.isDisconnect
  have hopen := ha.ioLock
  cases h with
  | full | processConnect | countConnect | startCleanup =>
    exact .one rfl (choose true) rfl (ha.next rfl rfl ⟨rfl,rfl,rfl,Nat.le_refl _,by simp⟩)
  | added =>
    exact .one rfl ⟨true,.wait,some true,none,.done⟩ rfl
      (ha.next rfl rfl ⟨rfl,rfl,rfl,Nat.le_refl _,by simp⟩)
  | known =>
    exact .one rfl ⟨true,.wait,some false,none,.done⟩ rfl
      (ha.next rfl rfl ⟨rfl,rfl,rfl,Nat.zero_le _,by simp⟩)
  | storeConnect =>
    exact .one rfl (choose true) rfl
      (ha.connect ⟨rfl,rfl,rfl,Nat.zero_le _,by simp⟩ rfl ⟨rfl,rfl⟩)
  | connected hcon =>
    refine .one rfl (choose true) ?_ (ha.next rfl rfl ⟨rfl,rfl,rfl,Nat.zero_le _,by simp⟩)
    simp [Lifecycle.exec,hon,hcon]
  | rejectConnection hcon =>
    refine .one rfl (choose true) ?_
      (ha.connect ⟨rfl,rfl,rfl,Nat.zero_le _,by simp⟩ rfl ⟨rfl,rfl⟩)
    simp [Lifecycle.exec,hon,hcon,Frame.shown]
  | rejectStore =>
    -- the notice goes on in the send path
    exact ⟨_,[.pipe (.send (SendBuffer.copyData []))],by simp [Hidden],
      (Goes.reject k).trans
        (Goes.one ⟨true,.wait,none,some (SendBuffer.copyData []),.done⟩ rfl),
      ha.next rfl rfl ⟨rfl,rfl,rfl,Nat.le_refl _,by simp⟩⟩
  | noticeFailed =>
    exact ⟨_,[],by simp,(Goes.reject k).trans (Goes.one (choose true) rfl),
      ha.next rfl rfl ⟨rfl,rfl,rfl,Nat.le_refl _,by simp⟩⟩
  | recvOff hfree hoff =>
    have hshut := ha.unlocked hfree
    refine .one rfl (choose true) ?_ (ha.next rfl rfl ⟨rfl,rfl,rfl,Nat.zero_le _,by simp⟩)
    simp only [Lifecycle.exec,hopen,hshut,hon,hoff]
    rfl
  | registerRecv hfree hoff =>
    have hshut := ha.unlocked hfree
    refine .one rfl (choose true) ?_ (ha.receive (hr.sole rfl).2.1 (k.pendingIo+1))
    simp only [Lifecycle.exec,hopen,hshut,hon,hoff]
    rfl
  | recvFailed hfree hoff =>
    have hshut := ha.unlocked hfree
    refine .one rfl (choose false) ?_ (ha.next rfl rfl ⟨rfl,rfl,rfl,Nat.le_refl _,by simp⟩)
    simp only [Lifecycle.exec,hopen,hshut,hon,hoff]
    rfl
  | receivedOff bytes hoff =>
    refine .one rfl (choose true) ?_ (ha.next rfl rfl ⟨rfl,rfl,rfl,Nat.le_refl _,by simp⟩)
    simp [Lifecycle.exec,hon,hoff]
  | receivedNone bytes hcon =>
    refine .one rfl (choose false) ?_ (ha.next rfl rfl ⟨rfl,rfl,rfl,Nat.le_refl _,by simp⟩)
    simp [Lifecycle.exec,hon,hcon,choose,Frame.shown]
  | processRecv bytes recvBuffer hcon hsome =>
    refine .one rfl (choose true) ?_ (ha.next rfl rfl ⟨rfl,rfl,rfl,Nat.le_refl _,by simp⟩)
    simp_all [Lifecycle.exec,choose,Frame.shown]
  | wait n =>
    refine .one rfl (choose true) ?_ (ha.next rfl rfl ⟨rfl,rfl,rfl,Nat.le_refl _,by simp⟩)
    simp [Lifecycle.exec,choose,Frame.shown]
  | malformed n =>
    exact .one rfl ⟨true,.malformed,none,none,.done⟩ rfl
      (ha.next rfl rfl ⟨rfl,rfl,rfl,Nat.le_refl _,by simp⟩)
  | onRecv | onRecvPacket | posted =>
    exact .stay rfl (ha.next rfl rfl ⟨rfl,rfl,rfl,Nat.le_refl _,by simp⟩)
  | skip | stopped =>
    exact .one rfl ⟨true,.skip,none,none,.done⟩ rfl
      (ha.next rfl rfl ⟨rfl,rfl,rfl,Nat.le_refl _,by simp⟩)
  | postLogic pkt n hfree hpost =>
    have hstopped : k.logicStopped=false := Bool.eq_false_iff.mpr fun hk =>
      absurd (ha.stopped hk) (by simp [hpost])
    exact ⟨_,[],by simp,Goes.post pkt hstopped,
      ha.push (.packet pkt) ⟨rfl,rfl,rfl,Nat.le_refl _,by simp⟩⟩
  | recvNext n hcon =>
    refine .one rfl (choose true) ?_ (ha.next rfl rfl ⟨rfl,rfl,rfl,Nat.le_refl _,by simp⟩)
    simp [Lifecycle.exec,hon,hcon,Frame.shown]
  | recvEnd n hoff =>
    refine .one rfl (choose true) ?_ (ha.next rfl rfl ⟨rfl,rfl,rfl,Nat.le_refl _,by simp⟩)
    simp [Lifecycle.exec,hon,hoff,Frame.shown]
  | unread n hrange =>
    -- what was dispatched was in the buffer, so only a malformed header gets here
    have hneg : n<0 := by
      rcases hrange with hneg|hlong
      · exact hneg
      · rcases hr.reads _ (Multiset.mem_cons_self _ m) with hneg|⟨hle,-⟩
        · exact hneg
        · rw [RecvBuffer.data_length] at hle
          omega
    exact .stay (by simp [Frame.shown,hneg]) (ha.next rfl rfl ⟨rfl,rfl,rfl,Nat.le_refl _,by simp⟩)
  | onRead n recvBuffer hn =>
    refine .stay ?_ (ha.next rfl rfl ⟨rfl,rfl,rfl,Nat.le_refl _,by simp⟩)
    simp [Frame.shown,Int.not_lt.mpr hn]
  | disconnect hcon =>
    have hx : SendPipeline.advance k.pipe true (.disconnect false)=
        some ({ k.pipe with isConnect := false },.registerDisconnect) := by
      simp [SendPipeline.advance,hon,hcon]
    exact .pipe rfl true hx rfl (ha.disconnect hcon)
  | disconnected hoff =>
    have hx : SendPipeline.advance k.pipe true (.disconnect false)=some (k.pipe,.idle) := by
      simp [SendPipeline.advance,hon,hoff]
    have hsame : k.pipe={ k.pipe with isConnect := false } := by rw [← hon.trans hoff]
    exact .pipe rfl true hx rfl
      ((ha.next rfl rfl ⟨rfl,rfl,rfl,Nat.le_refl _,by simp⟩).off hsame)
  | registerDisconnect hfree hshut =>
    have hshut' := (ha.unlocked hfree).trans hshut
    have hx : SendPipeline.advance k.pipe true .registerDisconnect=
        some ({ k.pipe with disconnecting := true },.idle) := by
      simp [SendPipeline.advance,hopen,hshut']
    refine .pipe rfl true hx rfl ?_
    rw [Lifecycle.pipeEffect,if_pos ⟨hshut',rfl⟩]
    exact ha.registerDisconnect _
  | disconnectFailed hfree =>
    have hx : SendPipeline.advance k.pipe false .registerDisconnect=
        some (k.pipe,.processDisconnect) := by
      simp [SendPipeline.advance,hopen]
    refine .pipe rfl false hx rfl ?_
    simp only [Lifecycle.pipeEffect,Bool.false_eq_true,and_false,if_false]
    exact ha.next rfl rfl ⟨rfl,rfl,rfl,Nat.zero_le _,by simp⟩
  | processDisconnect hfirst =>
    have hx : SendPipeline.advance k.pipe true .processDisconnect=
        some ({ k.pipe with isDisconnect := true },.closeFlags) := by
      simp [SendPipeline.advance,hdone,hfirst]
    exact .pipe rfl true hx rfl ha.processDisconnect
  | processed hlate =>
    have hx : SendPipeline.advance k.pipe true .processDisconnect=some (k.pipe,.idle) := by
      simp [SendPipeline.advance,hdone,hlate]
    exact .pipe rfl true hx rfl (ha.next rfl rfl ⟨rfl,rfl,rfl,Nat.le_refl _,by simp⟩)
  | closeFlags =>
    exact .pipe rfl true rfl rfl ((ha.next rfl rfl ⟨rfl,rfl,rfl,Nat.le_refl _,by simp⟩).off rfl)
  | queueCleanup =>
    exact .one rfl (choose true) rfl (ha.push .cleanup ⟨rfl,rfl,rfl,Nat.le_refl _,by simp⟩)
  | queued => exact .stay rfl (ha.next rfl rfl ⟨rfl,rfl,rfl,Nat.le_refl _,by simp⟩)
  | shutdownBegun hfree hshut =>
    have hshut' := (ha.unlocked hfree).trans hshut
    have hx : SendPipeline.advance k.pipe true .beginShutdown=some (k.pipe,.idle) := by
      simp [SendPipeline.advance,hopen,hshut']
    refine .pipe rfl true hx rfl ?_
    simp only [Lifecycle.pipeEffect,hshut',if_true]
    exact ha.shutdownBegun hshut
  | beginShutdown hfree hshut => exact .stay rfl (ha.beginShutdown hfree hshut)
  | stopLogic => exact .stay rfl ha.stopLogic
  | closeSocket =>
    obtain ⟨hshut,h'⟩ := ha.closeSocket
    have hx : SendPipeline.advance k.pipe true .beginShutdown=
        some ({ k.pipe with shutdownStarted := true, isConnect := false },.processDisconnect) := by
      simp [SendPipeline.advance,hopen,hshut]
    refine .pipe rfl true hx rfl ?_
    simp only [Lifecycle.pipeEffect,hshut,Bool.false_eq_true,if_false]
    exact h'
  | handle pkt game hcon =>
    refine .one rfl (choose true) ?_ (ha.next rfl rfl ⟨rfl,rfl,rfl,Nat.le_refl _,by simp⟩)
    simp [Lifecycle.exec,Logic.job,hon,hcon,Frame.shown]
  | drop pkt hoff =>
    refine .one rfl (choose true) ?_ (ha.next rfl rfl ⟨rfl,rfl,rfl,Nat.le_refl _,by simp⟩)
    simp [Lifecycle.exec,Logic.job,hon,hoff,Frame.shown]
  | jobEnds f hbody =>
    cases f with
    | handler | cleanup =>
      exact .one rfl (choose true) rfl (ha.next rfl rfl ⟨rfl,rfl,rfl,Nat.le_refl _,by simp⟩)
    | _ => cases hbody
  | jobRuns f hbody =>
    cases f with
    | handler | cleanup =>
      exact .one rfl ⟨true,.wait,none,none,.next⟩ rfl
        (ha.next rfl rfl ⟨rfl,rfl,rfl,Nat.le_refl _,by simp⟩)
    | _ => cases hbody
  | jobDisconnects f hbody =>
    cases f with
    | handler | cleanup =>
      exact .one rfl ⟨true,.wait,none,none,.disconnect⟩ rfl
        (ha.next rfl rfl ⟨rfl,rfl,rfl,Nat.le_refl _,by simp⟩)
    | _ => cases hbody
  | endLogic => exact .one rfl (choose true) rfl (ha.endLogic _)

namespace Agrees

/-- Frames begin on a thread. -/
theorem add (h : Agrees c m started k) (hshuts : total Frame.shuts fs=0)
    (hruns : total Frame.runs fs=0) (hopen : total Frame.fresh fs+total Frame.closes fs=0)
    (hstop : ∀ g∈fs, g≠.closeSocket) : Agrees c (fs+m) started k := by
  refine { h with lock := ?_, shutdown := ?_, closing := fun hk => ?_, running := ?_, once := ?_
                  stops := fun hmem => ?_ }
  · rw [weight_add,hshuts,Nat.zero_add,h.lock]
  · rw [weight_add,hshuts,Nat.zero_add,h.shutdown]
  · have := h.closing hk
    rw [weight_add]
    omega
  · rw [weight_add,hruns,Nat.zero_add,h.running]
  · have := h.once
    rw [weight_add,weight_add]
    omega
  · rcases Multiset.mem_add.mp hmem with hmem|hmem
    · exact absurd rfl (hstop _ hmem)
    · exact h.stops hmem

theorem offer (h : Agrees c m started k) (ho : c.offered=false) :
    Agrees { c with offered := true } (([.addSession] : List (Frame P))+m) started
      { k with offered := true } := by
  have honce := h.once
  refine { h with
    offered := rfl, lock := ?_, shutdown := ?_, closing := fun hk => ?_, running := ?_, once := ?_
    stops := fun hmem => h.stops (by simpa using hmem) }
  · simpa [Frame.shuts] using h.lock
  · simpa [Frame.shuts] using h.shutdown
  · simpa [Frame.calling] using h.closing hk
  · simpa [Frame.runs] using h.running
  · simp only [ho,Bool.not_false,Bool.toNat_true,weight_add,Pool.total_cons,Pool.total_nil,
      Frame.fresh,Frame.closes,Bool.not_true,Bool.toNat_false] at honce ⊢
    omega

theorem tell (h : Agrees c m started k) :
    Agrees c (([.beginShutdown] : List (Frame P))+m) started { k with closing := true } := by
  have h' : Agrees c (([.beginShutdown] : List (Frame P))+m) started k :=
    h.add rfl rfl rfl (by simp)
  exact { h' with closing := fun _ => by simp [Frame.calling] }

theorem received (h : Agrees c m started k) (hpos : c.receiving≠0) (bytes stream : List UInt8) :
    k.receiving=true ∧
    Agrees { c with receiving := c.receiving-1, stream := stream }
      (([.processRecv bytes] : List (Frame P))+m) started { k with receiving := false } := by
  have hr := h.receiving
  have hle := Bool.toNat_le k.receiving
  have h' : Agrees c (([.processRecv bytes] : List (Frame P))+m) started k :=
    h.add rfl rfl rfl (by simp)
  refine ⟨Bool.toNat_eq_one.mp (by omega),{ h' with receiving := ?_ }⟩
  simp only [Bool.toNat_false]
  omega

theorem disconnected (h : Agrees c m started k) (hpos : c.disconnecting≠0) :
    k.pipe.disconnecting=true ∧
    Agrees { c with disconnecting := c.disconnecting-1 }
      (([.processDisconnect] : List (Frame P))+m) started
      { k with pipe := { k.pipe with disconnecting := false } } := by
  have hd := h.disconnecting
  have hle := Bool.toNat_le k.pipe.disconnecting
  have h' : Agrees c (([.processDisconnect] : List (Frame P))+m) started k :=
    h.add rfl rfl rfl (by simp)
  have honce := h'.once
  refine ⟨Bool.toNat_eq_one.mp (by omega),{ h' with disconnecting := ?_, once := ?_ }⟩
  · simp only [Bool.toNat_false]
    omega
  · exact Nat.le_trans (Nat.add_le_add_left (Nat.sub_le _ _) _) honce

theorem startJob (h : Agrees c m started k) (hidle : weight Frame.runs m=0) {j : Logic P}
    (hj : started++[j]<+:c.pushed) :
    ∃ rest, k.jobs=j.job::rest ∧ k.running=false ∧
      Agrees c (([.job j] : List (Frame P))+m) (started++[j])
        { k with jobs := rest, running := true } := by
  obtain ⟨more,hmore⟩ := hj
  have hjobs := h.jobs
  rw [← hmore,List.map_append,List.map_append,List.append_assoc] at hjobs
  have hnext := List.append_cancel_left hjobs
  have hrun := h.running
  rw [hidle] at hrun
  have honce := h.once
  refine ⟨more.map Logic.job,hnext,Bool.toNat_eq_zero.mp hrun.symm,{ h with
    jobs := ?_, lock := ?_, shutdown := ?_, closing := fun hk => ?_, running := ?_, once := ?_
    stops := fun hmem => h.stops (by simpa using hmem) }⟩
  · rw [← hmore]
    exact List.map_append.symm
  · simpa [Frame.shuts] using h.lock
  · simpa [Frame.shuts] using h.shutdown
  · simpa [Frame.calling] using h.closing hk
  · simp [Frame.runs,hidle]
  · simpa [Frame.fresh,Frame.closes] using honce

end Agrees

/-- The frames of the lifecycle for those of all threads. -/
def shownAll (m : Multiset (Frame P)) : Multiset (Lifecycle.Frame P) :=
  m.bind fun f => (f.shown : Multiset (Lifecycle.Frame P))

theorem shownAll_cons (f : Frame P) (m : Multiset (Frame P)) :
    shownAll (f::ₘm)=f.shown+shownAll m :=
  Multiset.cons_bind f m _

theorem shownAll_add (fs : List (Frame P)) (m : Multiset (Frame P)) :
    shownAll (fs+m : Multiset (Frame P))=
      ((fs.flatMap Frame.shown : List (Lifecycle.Frame P)) : Multiset (Lifecycle.Frame P))+
        shownAll m := by
  rw [shownAll,Multiset.add_bind,Multiset.coe_bind]
  rfl

theorem sum_fresh_shown (f : Frame P) : (f.shown.map Lifecycle.Frame.fresh).sum=f.fresh := by
  cases f with
  | onRead n =>
    simp only [Frame.shown]
    split <;> rfl
  | _ => rfl

/-- The lifecycle counts the same frames as being admitted. -/
theorem tok_shownAll (m : Multiset (Frame P)) :
    Lifecycle.tok Lifecycle.Frame.fresh (shownAll m)=weight Frame.fresh m := by
  induction m using Multiset.induction with
  | empty => rfl
  | cons f m ih =>
    have hadd := Lifecycle.tok_beside Lifecycle.Frame.fresh f.shown (shownAll m)
    rw [Lifecycle.beside,← shownAll_cons,sum_fresh_shown,ih] at hadd
    rw [hadd,weight_cons]

variable {T Q : Type} [Fintype T] [DecidableEq T] [DecidableEq Q] {q : Q} {x : S}
  {s s' : State T Q P S} {l : Lifecycle.Local P}

/-- The service tells a session to shut down when its admission is over, and offers none that was
told so. -/
def Orderly (s : State T Q P S) : Action T Q P S → Prop
  | .enter _ .offer =>
    s.core.shutdownStarted=false ∧ weight Frame.calling (pending s.calls)=0
  | .enter _ .beginShutdown => weight Frame.fresh (pending s.calls)=0
  | _ => True

/-- The lifecycle in state `l` shows the session in state `s`. -/
structure Shows (e : Env P) (q : Q) (s : State T Q P S) (l : Lifecycle.Local P) : Prop where
  inv : Inv e q s
  agrees : Agrees s.core (pending s.calls) (s.jobs.queues q).started l.core
  frames : ∃ hidden : Multiset (Lifecycle.Frame P), (∀ g∈hidden, Hidden g) ∧
    l.frames=shownAll (pending s.calls)+hidden

theorem init_shows (e : Env P) (q : Q) (maxSessionCount : Int) :
    Shows e q (State.init e maxSessionCount : State T Q P S) ⟨Lifecycle.Core.init,0⟩ := by
  have hm : pending (State.init e maxSessionCount : State T Q P S).calls=0 := by
    simp [pending,State.init]
  refine ⟨inv_init e q maxSessionCount,?_,0,by simp,?_⟩
  · rw [hm]
    constructor <;> simp [State.init,Job.State.init,Lifecycle.Core.init,SendPipeline.Session.init]
  · rw [hm]
    rfl

/-- The lifecycle follows, and frames that it leaves out may come to be. -/
theorem Shows.goes {c : Core P S} {jobs : Job.State T Q (Logic P)} {calls : T → List (Frame P)}
    {m : Multiset (Frame P)} {hidden new : List (Lifecycle.Frame P)}
    {old : Multiset (Lifecycle.Frame P)}
    (hi : Inv e q ⟨c,jobs,calls⟩) (hm : pending calls=fs+m)
    (ha : Agrees c (fs+m) (jobs.queues q).started k) (hhidden : ∀ g∈hidden, Hidden g)
    (hold : ∀ g∈old, Hidden g) (hnew : new=fs.flatMap Frame.shown++hidden) :
    Shows e q ⟨c,jobs,calls⟩ ⟨k,new+(shownAll m+old)⟩ := by
  refine ⟨hi,?_,hidden+old,?_,?_⟩
  · rw [hm]
    exact ha
  · intro g hg
    exact (Multiset.mem_add.mp hg).elim (fun hg => hhidden g hg) (hold g)
  · rw [hm,shownAll_add,hnew,← Multiset.coe_add]
    exact add_add_add_comm _ _ _ _

theorem pushJob_queues {t : T} {job : Option (Logic P)} {jobs jobs' : Job.State T Q (Logic P)}
    (h : pushJob q t jobs job=some jobs') : jobs'.queues=jobs.queues := by
  cases job with
  | none =>
    cases h
    rfl
  | some j =>
    simp only [pushJob,Job.step] at h
    split at h <;> cases h
    rfl

theorem Shows.run (h : Shows e q s l) {t : T} {o : Choice} (hs : step e x q s (.run t o)=some s') :
    ∃ l', ReflTransGen (Lifecycle.Step ok) l l' ∧ Shows e q s' l' := by
  have hi' := h.inv.step hs
  simp only [Dispatch.step] at hs
  split at hs
  · split at hs
    · cases hs
    · rename_i f rest hcalls
      simp only [Option.bind_eq_bind,Option.bind_eq_some_iff,Option.pure_def,Option.some.injEq]
        at hs
      obtain ⟨r,hx,jobs,hjobs,rfl⟩ := hs
      obtain ⟨m,hm,hnext⟩ := Pool.pending_run hcalls
      obtain ⟨old,hold,hframes⟩ := h.frames
      have hr := h.inv.receives
      have ha := h.agrees
      rw [hm] at hr ha hframes
      rw [shownAll_cons,add_assoc] at hframes
      have hfollow : Follows ok l.core f r.frames _ := move_follows hr (exec_move hx) ha
      obtain ⟨k',hidden,hhidden,hgoes,ha'⟩ := hfollow
      have hgo := hgoes (shownAll m+old)
      rw [← hframes] at hgo
      refine ⟨_,hgo,Shows.goes hi' (hnext r.frames) ?_ hhidden hold rfl⟩
      rw [pushJob_queues hjobs]
      exact ha'
  · cases hs

theorem Shows.tok_fresh (h : Shows e q s l) :
    Lifecycle.tok Lifecycle.Frame.fresh l.frames=weight Frame.fresh (pending s.calls) := by
  obtain ⟨hidden,hhidden,hframes⟩ := h.frames
  have hzero : Lifecycle.tok Lifecycle.Frame.fresh hidden=0 := by
    apply Lifecycle.tok_eq_zero
    intro g hg
    rcases hhidden g hg with rfl|⟨b,rfl⟩ <;> rfl
  have hadd : Lifecycle.tok Lifecycle.Frame.fresh (shownAll (pending s.calls)+hidden)=
      Lifecycle.tok Lifecycle.Frame.fresh (shownAll (pending s.calls))+
        Lifecycle.tok Lifecycle.Frame.fresh hidden := by
    simp [Lifecycle.tok]
  rw [hframes,hadd,hzero,tok_shownAll,Nat.add_zero]

/-- What the lifecycle does when a call or a completion begins. -/
theorem enter_follows (h : Shows e q s l) {t : T} {en : Entry}
    (hx : enter s.core en=some (c',fs)) :
    ∃ k' hidden, (∀ g∈hidden, Hidden g) ∧
      Lifecycle.Step (fun w en' => Orderly s (.enter t en) → Lifecycle.Allowed w en') l
        ⟨k',(fs.flatMap Frame.shown++hidden : List (Lifecycle.Frame P))+l.frames⟩ ∧
      Agrees c' (fs+pending s.calls) (s.jobs.queues q).started k' := by
  have ha := h.agrees
  cases en with
  | offer =>
    simp only [enter] at hx
    split at hx <;> cases hx
    rename_i ho
    have ho' : s.core.offered=false := Bool.eq_false_iff.mpr ho
    refine ⟨_,[],by simp,.enter (e:=.offer) (fun hok => ?_) rfl,ha.offer ho'⟩
    refine ⟨ha.offered.trans ho',Bool.eq_false_iff.mpr fun hk => ?_⟩
    have := ha.closing hk
    rw [hok.1,hok.2] at this
    exact absurd this (by decide)
  | disconnect =>
    cases hx
    exact ⟨_,[],by simp,.enter (e:=.disconnect) (fun _ => trivial) rfl,
      ha.add rfl rfl rfl (by simp)⟩
  | beginShutdown =>
    cases hx
    refine ⟨_,[],by simp,.enter (e:=.beginShutdown) (fun hok => ?_) rfl,ha.tell⟩
    exact h.tok_fresh.trans hok
  | recvCompleted bytes =>
    simp only [enter] at hx
    split at hx <;> cases hx
    rename_i hpos
    obtain ⟨hrecv,ha'⟩ := ha.received hpos bytes (s.core.stream++bytes)
    refine ⟨_,[.finishIo],by simp [Hidden],
      .enter (e:=.recvCompleted bytes.length) (fun _ => trivial) ?_,ha'⟩
    simp [Lifecycle.enter,hrecv,Frame.shown]
  | disconnectCompleted =>
    simp only [enter] at hx
    split at hx <;> cases hx
    rename_i hpos
    obtain ⟨hdisc,ha'⟩ := ha.disconnected hpos
    refine ⟨_,[.finishIo],by simp [Hidden],
      .enter (e:=.disconnectCompleted) (fun _ => trivial) ?_,ha'⟩
    simp [Lifecycle.enter,hdisc,Frame.shown]

theorem Shows.enter (h : Shows e q s l) {t : T} {en : Entry}
    (hs : step e x q s (.enter t en)=some s') :
    ∃ l', ReflTransGen
      (Lifecycle.Step fun w en' => Orderly s (.enter t en) → Lifecycle.Allowed w en') l l' ∧
      Shows e q s' l' := by
  have hi' := h.inv.step hs
  simp only [Dispatch.step] at hs
  split at hs
  · rename_i hfree
    obtain ⟨⟨c',fs⟩,hx,rfl⟩ := Option.map_eq_some_iff.mp hs
    have hm := Pool.pending_call s.calls t fs
    rw [hfree.2,List.append_nil] at hm
    obtain ⟨k',hidden,hhidden,hstep,ha'⟩ := enter_follows h hx
    obtain ⟨old,hold,hframes⟩ := h.frames
    rw [hframes] at hstep
    exact ⟨_,.single hstep,Shows.goes hi' hm ha' hhidden hold rfl⟩
  · cases hs

/-- The lifecycle takes from the queue the job that a thread has started. -/
theorem Shows.job (h : Shows e q s l) {a : Job.Action T Q (Logic P)}
    (hs : step e x q s (.job a)=some s') (hok : ∀ w, ok w .startJob) :
    ∃ l', ReflTransGen (Lifecycle.Step ok) l l' ∧ Shows e q s' l' := by
  have hi' := h.inv.step hs
  simp only [Dispatch.step] at hs
  split at hs
  · obtain ⟨jobs,hj,rfl⟩ := Option.map_eq_some_iff.mp hs
    rcases h.inv.runs.job_cases h.inv.jobs hj with ⟨hcalls,hstarted⟩|⟨j,hpending,hstarted,hidle⟩
    · refine ⟨l,.refl,hi',?_,?_⟩
      · change Agrees s.core (pending (callsAfter q jobs s.calls a)) (jobs.queues q).started l.core
        rw [hcalls,hstarted]
        exact h.agrees
      · change ∃ hidden : Multiset (Lifecycle.Frame P), (∀ g∈hidden, Hidden g) ∧
          l.frames=shownAll (pending (callsAfter q jobs s.calls a))+hidden
        rw [hcalls]
        exact h.frames
    · have hprefix : (s.jobs.queues q).started++[j]<+:s.core.pushed := by
        rw [← hstarted]
        exact (hi'.jobs.queue q).runs_in_order.trans hi'.runs.stored.isPrefix
      obtain ⟨rest,hjobs,hrun,ha'⟩ := h.agrees.startJob hidle hprefix
      have hstep : Lifecycle.Step ok l
          ⟨{ l.core with jobs := rest, running := true },
            ([.job j.job] : List (Lifecycle.Frame P))+l.frames⟩ :=
        .enter (hok _) (by simp only [Lifecycle.enter,hjobs,hrun])
      obtain ⟨old,hold,hframes⟩ := h.frames
      rw [hframes] at hstep
      have hnone : ∀ g∈([] : List (Lifecycle.Frame P)), Hidden g := by simp
      refine ⟨_,.single hstep,Shows.goes hi' hpending ?_ hnone hold rfl⟩
      rw [hstarted]
      exact ha'
  · cases hs

theorem Shows.step (h : Shows e q s l) {a : Action T Q P S} (hs : step e x q s a=some s') :
    ∃ l', ReflTransGen (Lifecycle.Step fun w en => Orderly s a → Lifecycle.Allowed w en) l l' ∧
      Shows e q s' l' := by
  cases a with
  | run t o => exact h.run hs
  | enter t en => exact h.enter hs
  | job a => exact h.job hs fun _ _ => trivial
  | game a =>
    have hi' := h.inv.step hs
    simp only [Dispatch.step] at hs
    split at hs
    · cases hs
    · obtain ⟨game,-,rfl⟩ := Option.map_eq_some_iff.mp hs
      exact ⟨l,.refl,hi',h.agrees.congr rfl rfl,h.frames⟩

theorem steps_mono {ok' : Lifecycle.Local P → Lifecycle.Entry → Prop} {l' : Lifecycle.Local P}
    (h : ReflTransGen (Lifecycle.Step ok) l l') (hok : ∀ w en, ok w en → ok' w en) :
    ReflTransGen (Lifecycle.Step ok') l l' := by
  refine ReflTransGen.mono (fun w w' hstep => ?_) l l' h
  cases hstep with
  | fire o m hx => exact .fire o m hx
  | enter ha hx => exact .enter (hok _ _ ha) hx

/-- Every run of the session with its buffer, its job queue and the locks of `begin_shutdown` is a
run of its lifecycle. -/
theorem reaches_shows {maxSessionCount : Int}
    (h : Reaches (step e x q) Any (State.init e maxSessionCount) s) :
    ∃ l, ReflTransGen (Lifecycle.Step fun _ _ => True) ⟨Lifecycle.Core.init,0⟩ l ∧
      Shows e q s l :=
  h.simulates (init_shows e q maxSessionCount) fun y a z w hw _ hs => by
    obtain ⟨w',hsteps,hw'⟩ := hw.step hs
    exact ⟨w',steps_mono hsteps fun _ _ _ => trivial,hw'⟩

/-- If the service uses the session as it does, so does the lifecycle. -/
theorem reaches_shows_of_orderly {maxSessionCount : Int}
    (h : Reaches (step e x q) Orderly (State.init e maxSessionCount) s) :
    ∃ l, ReflTransGen (Lifecycle.Step Lifecycle.Allowed) ⟨Lifecycle.Core.init,0⟩ l ∧
      Shows e q s l :=
  h.simulates (init_shows e q maxSessionCount) fun y a z w hw hok hs => by
    obtain ⟨w',hsteps,hw'⟩ := hw.step hs
    exact ⟨w',steps_mono hsteps fun _ _ hallowed => hallowed hok,hw'⟩

/-- What the lifecycle keeps the session keeps: its cleanup is pushed once, and not before it is
being disconnected. -/
theorem cleanup_pushed_once {maxSessionCount : Int}
    (h : Reaches (step e x q) Orderly (State.init e maxSessionCount) s) :
    s.core.pushed.countP Logic.isCleanup ≤ s.core.isDisconnect.toNat := by
  obtain ⟨l,hsteps,hshows⟩ := reaches_shows_of_orderly h
  have haccount : Lifecycle.Account l := by
    clear hshows
    induction hsteps with
    | refl => exact Lifecycle.Account.init
    | tail _ hstep ih => exact ih.step (fun _ _ ha => ha) hstep
  have hqueued := haccount.queued
  rw [hshows.agrees.queued,hshows.agrees.isDisconnect] at hqueued
  omega

end IocpServer.Server.Dispatch
