import IocpServer.NetWork.Quiescence
import IocpServer.NetWork.SendIntegrity

namespace IocpServer.NetWork.Lifecycle

open SendPipeline (At advance advance_moves)

variable {R : Type}

/-- The thread holds the registration of the send. -/
def Frame.sendToken : Frame R → Nat
  | .pipe pc => pc.token
  | _ => 0

/-- The thread is on its way to the next `WSARecv`. -/
def Frame.recvToken : Frame R → Nat
  | .addSession | .processConnect | .storeConnect | .countConnect | .registerRecv | .processRecv _
  | .onRecv | .onRecvNext => 1
  | _ => 0

/-- The thread is on its way to `DisconnectEx`. -/
def Frame.disconnectToken : Frame R → Nat
  | .pipe .registerDisconnect => 1
  | _ => 0

/-- `_pending_io` counts the registered operations and the running callbacks exactly, because there
is at most one operation of each kind: who registers it holds its only token. -/
structure IoLedger (l : Local R) : Prop where
  io : l.core.pendingIo=l.core.inFlight+tok Frame.finishing l.frames
  recv : tok Frame.recvToken l.frames+l.core.receiving.toNat ≤ l.core.offered.toNat
  disconnect : tok Frame.disconnectToken l.frames+l.core.pipe.disconnecting.toNat+
    l.core.pipe.isConnect.toNat ≤ l.core.hadConnected.toNat
  send : tok Frame.sendToken l.frames+l.core.pipe.flying ≤ 1
  flag : l.core.pipe.isConnect →
    tok Frame.sendToken l.frames+l.core.pipe.flying=l.core.pipe.isSendRegister.toNat
  unused : l.core.hadConnected=false →
    tok Frame.sendToken l.frames+l.core.pipe.flying=0 ∧ l.core.pipe.isSendRegister=false

namespace IoLedger

variable {c c' : Core R} {o : Choice R} {f : Frame R} {fs : List (Frame R)} {m : Multiset (Frame R)}

theorem init : IoLedger (⟨Core.init,0⟩ : Local R) := by
  constructor <;>
    simp [Core.init,Core.inFlight,SendPipeline.Session.init,SendPipeline.Session.flying,tok]

/-- A step outside the send path, which has no part in its tokens. -/
theorem outside (h : IoLedger ⟨c,f::ₘm⟩) (hpipe : ∃ b, c'.pipe={ c.pipe with closeAfterSend := b })
    (hhad : c'.hadConnected=c.hadConnected) (hoffered : c'.offered=c.offered)
    (hf : f.sendToken=0 ∧ f.disconnectToken=0)
    (hfs : (fs.map Frame.sendToken).sum=0 ∧ (fs.map Frame.disconnectToken).sum=0)
    (hio : c'.pendingIo+c.receiving.toNat+f.finishing=
      c.pendingIo+c'.receiving.toNat+(fs.map Frame.finishing).sum)
    (hrecv : (fs.map Frame.recvToken).sum+c'.receiving.toNat ≤ f.recvToken+c.receiving.toNat) :
    IoLedger ⟨c',beside fs m⟩ := by
  obtain ⟨b,hpipe⟩ := hpipe
  obtain ⟨hio',hrecv',hdis,hsend,hflag,hunused⟩ := h
  simp only [tok_cons,Core.inFlight,SendPipeline.Session.flying]
    at hio' hrecv' hdis hsend hflag hunused
  constructor
  · simp only [tok_beside,Core.inFlight,hpipe]
    omega
  · simp only [tok_beside,hoffered]
    omega
  · simp only [tok_beside,hpipe,hhad]
    omega
  · simp only [tok_beside,hpipe,SendPipeline.Session.flying]
    omega
  · simp only [tok_beside,hpipe,SendPipeline.Session.flying]
    intro hon
    have := hflag hon
    omega
  · simp only [tok_beside,hpipe,hhad,SendPipeline.Session.flying]
    intro hnot
    obtain ⟨hzero,hreg⟩ := hunused hnot
    exact ⟨by omega,hreg⟩

/-- The session gets connected, for the first time. -/
theorem connected (h : IoLedger ⟨c,f::ₘm⟩) (ha : Account ⟨c,f::ₘm⟩) (hfresh : f.fresh=1)
    (hc : c'={ c with pipe := { c.pipe with isConnect := true }, hadConnected := true })
    (hf : f.sendToken=0 ∧ f.disconnectToken=0 ∧ f.finishing=0)
    (hfs : (fs.map Frame.sendToken).sum=0 ∧ (fs.map Frame.disconnectToken).sum=0 ∧
      (fs.map Frame.finishing).sum=0)
    (hrecv : (fs.map Frame.recvToken).sum ≤ f.recvToken) : IoLedger ⟨c',beside fs m⟩ := by
  obtain ⟨hhad,-⟩ := ha.of_fresh (by simp only [tok_cons]; omega)
  obtain ⟨hio',hrecv',hdis,hsend,hflag,hunused⟩ := h
  obtain ⟨hzero,hreg⟩ := hunused hhad
  simp only at hhad
  simp only [tok_cons,Core.inFlight,hhad,Bool.toNat_false] at hio' hrecv' hdis hsend hzero hreg
  subst hc
  constructor
  · simp only [tok_beside,Core.inFlight]
    omega
  · simp only [tok_beside]
    omega
  · simp only [tok_beside,Bool.toNat_true]
    omega
  · simp only [tok_beside,SendPipeline.Session.flying] at *
    omega
  · simp only [tok_beside,SendPipeline.Session.flying,hreg,Bool.toNat_false] at *
    omega
  · intro hnot
    cases hnot

/-- The operations that a step of the send path registers are counted, if there was none before. -/
theorem pipeEffect_io {ok : Bool} {pc pc' : At} {p : SendPipeline.Session}
    (ha : advance c.pipe ok pc=some (p,pc')) (hflight : pc=.transmit → c.pipe.flying=0)
    (hdis : pc=.registerDisconnect → c.pipe.disconnecting=false) :
    (pipeEffect c ok pc p).pendingIo+c.inFlight=c.pendingIo+(pipeEffect c ok pc p).inFlight := by
  cases pc with
  | transmit =>
    have hnone : c.pipe.flight.isSome=false := by
      have := hflight rfl
      simpa [SendPipeline.Session.flying] using this
    simp only [advance] at ha
    repeat' split at ha
    all_goals cases ha
    all_goals simp_all [pipeEffect,Core.inFlight]
    all_goals omega
  | registerDisconnect =>
    have hnone := hdis rfl
    simp only [advance] at ha
    repeat' split at ha
    all_goals cases ha
    all_goals simp_all [pipeEffect,Core.inFlight]
    all_goals omega
  | idle => cases ha
  | _ =>
    simp only [advance] at ha
    repeat' split at ha
    all_goals cases ha
    all_goals simp [pipeEffect,Core.inFlight]
    all_goals try (split <;> rfl)

theorem sum_sendToken (pc pc' : At) :
    ((pipeNext pc pc' : List (Frame R)).map Frame.sendToken).sum=pc'.token := by
  unfold pipeNext
  split
  · split <;> rfl
  · simp [Frame.sendToken]

/-- The way to `DisconnectEx` begins where `_is_connect` is cleared. -/
theorem pipe_disconnecting {ok : Bool} {pc pc' : At} {p : SendPipeline.Session}
    (ha : advance c.pipe ok pc=some (p,pc')) :
    ((pipeNext pc pc' : List (Frame R)).map Frame.disconnectToken).sum+p.disconnecting.toNat+
        p.isConnect.toNat ≤
      (Frame.pipe pc : Frame R).disconnectToken+c.pipe.disconnecting.toNat+
        c.pipe.isConnect.toNat := by
  cases SendPipeline.advance_move ha with
  | accept | nothing | whole =>
    simp only [pipeNext]
    repeat' split
    all_goals simp [Frame.disconnectToken]
  | registerDisconnect =>
    have hle := Bool.toNat_le c.pipe.disconnecting
    simp [pipeNext,Frame.disconnectToken]
  | close dropped hon => simp [pipeNext,Frame.disconnectToken,hon,Nat.add_comm]
  | _ => simp [pipeNext,Frame.disconnectToken]

/-- Only a connected session gets registered for a send. -/
theorem advance_register {s σ : SendPipeline.Session} {ok : Bool} {pc pc' : At}
    (ha : advance s ok pc=some (σ,pc')) (hoff : s.isConnect=false) (hreg : s.isSendRegister=false) :
    σ.isSendRegister=false := by
  cases SendPipeline.advance_move ha with
  | accept b hon =>
    rw [hoff] at hon
    cases hon
  | _ => first | exact hreg | rfl

/-- A step of the send path. -/
theorem pipe {ok : Bool} {pc pc' : At} {p : SendPipeline.Session} (h : IoLedger ⟨c,.pipe pc::ₘm⟩)
    (hshut : c.pipe.shutdownStarted → c.pipe.isConnect=false)
    (ha : advance c.pipe ok pc=some (p,pc')) :
    IoLedger ⟨pipeEffect c ok pc p,beside (pipeNext pc pc') m⟩ := by
  obtain ⟨hio,hrecv,hdis,hsend,hflag,hunused⟩ := h
  simp only [tok_cons] at hio hrecv hdis hsend hflag hunused
  have hflight : pc=.transmit → c.pipe.flying=0 := by
    intro hpc
    subst hpc
    simp only [Frame.sendToken,At.token] at hsend
    omega
  have honce : pc=.registerDisconnect → c.pipe.disconnecting=false := by
    intro hpc
    subst hpc
    have hle := Bool.toNat_le c.hadConnected
    simp only [Frame.disconnectToken] at hdis
    cases hd : c.pipe.disconnecting with
    | false => rfl
    | true =>
      simp only [hd,Bool.toNat_true] at hdis
      omega
  have hmove := advance_moves (fun hpc => by
    have := hflight hpc
    simpa [SendPipeline.Session.flying] using this) ha
  have hio' := pipeEffect_io ha hflight honce
  have hdis' := pipe_disconnecting ha
  have hregister := advance_register ha
  have hsum := sum_sendToken (R:=R) pc pc'
  have hfinish := sum_pipeNext (w:=Frame.finishing (R:=R)) (fun _ => rfl) rfl pc pc'
  have hreceive := sum_pipeNext (w:=Frame.recvToken (R:=R)) (fun _ => rfl) rfl pc pc'
  obtain ⟨n,stopped,heq⟩ := pipeEffect_eq c ok pc p
  simp only [heq] at hio' ⊢
  simp only [Frame.finishing,Frame.recvToken,Frame.sendToken] at hio hrecv hsend hflag hunused
  constructor
  · simp only [tok_beside,hfinish]
    omega
  · simp only [tok_beside,hreceive]
    omega
  · simp only [tok_beside]
    omega
  · simp only [tok_beside,hsum]
    obtain ⟨hsame,-⟩|⟨hone,hdrop,-⟩|⟨hon,hreg,-,htake⟩ := hmove.holder
    · omega
    · omega
    · have := hflag hon
      rw [hreg,Bool.toNat_false] at this
      omega
  · simp only [tok_beside,hsum]
    intro hon
    have hbefore := hflag (hmove.connect hon)
    obtain ⟨hsame,hkeep⟩|⟨hone,hdrop,hgive⟩|⟨-,hreg,hreg',htake⟩ := hmove.holder
    · rw [hkeep hon]
      omega
    · obtain hreg|hoff|hstart := hgive
      · have hle := Bool.toNat_le c.pipe.isSendRegister
        rw [hreg,Bool.toNat_false]
        omega
      · rw [hoff] at hon
        cases hon
      · have hoff := hshut hstart
        rw [hmove.connect hon] at hoff
        cases hoff
    · rw [hreg,Bool.toNat_false] at hbefore
      rw [hreg',Bool.toNat_true]
      omega
  · simp only [tok_beside,hsum]
    intro hnot
    obtain ⟨hzero,hreg⟩ := hunused hnot
    rw [hnot,Bool.toNat_false] at hdis
    have hoff : c.pipe.isConnect=false := by
      cases hon : c.pipe.isConnect with
      | false => rfl
      | true =>
        rw [hon,Bool.toNat_true] at hdis
        omega
    refine ⟨?_,hregister hoff hreg⟩
    obtain ⟨hsame,-⟩|⟨hone,hdrop,-⟩|⟨hon,-⟩ := hmove.holder
    · omega
    · omega
    · rw [hoff] at hon
      cases hon

theorem fire (h : IoLedger ⟨c,f::ₘm⟩) (ha : Account ⟨c,f::ₘm⟩) (hb : Books ⟨c,f::ₘm⟩)
    (hx : exec c o f=some (c',fs)) : IoLedger ⟨c',beside fs m⟩ := by
  cases exec_move hx with
  | pipe ok pc p pc' hadv => exact h.pipe (fun hs => (hb.stopped hs).2.1) hadv
  | storeConnect | rejectConnection =>
    exact h.connected ha rfl rfl ⟨rfl,rfl,rfl⟩ ⟨rfl,rfl,rfl⟩ (by simp [Frame.recvToken])
  | receive =>
    have hrecv := h.recv
    have hle := Bool.toNat_le c.offered
    simp only [tok_cons,Frame.recvToken] at hrecv
    have hnone : c.receiving=false := by
      cases hr : c.receiving with
      | false => rfl
      | true =>
        rw [hr,Bool.toNat_true] at hrecv
        omega
    refine h.outside ⟨_,rfl⟩ rfl rfl ⟨rfl,rfl⟩ ⟨rfl,rfl⟩ ?_ ?_
    · simp [hnone,Frame.finishing]
    · simp [hnone,Frame.recvToken]
  | finishIo =>
    have hio := h.io
    simp only [tok_cons,Frame.finishing] at hio
    refine h.outside ⟨_,rfl⟩ rfl rfl ⟨rfl,rfl⟩ ⟨rfl,rfl⟩ ?_ (by simp [Frame.recvToken])
    simp [Frame.finishing]
    omega
  | _ =>
    refine h.outside ⟨_,rfl⟩ rfl rfl ⟨rfl,rfl⟩ ⟨rfl,rfl⟩ ?_ ?_
    · simp [Frame.finishing,Core.queueLogic,Lifecycle.disconnect]
    · simp [Frame.recvToken,Core.queueLogic,Lifecycle.disconnect]

/-- A call starts with frames that hold these many tokens. -/
theorem of_entry {a b d n : Nat}
    (hfs : (fs.map Frame.finishing).sum=a ∧ (fs.map Frame.recvToken).sum=b ∧
      (fs.map Frame.disconnectToken).sum=d ∧ (fs.map Frame.sendToken).sum=n)
    (hio : c'.pendingIo=c'.inFlight+(a+tok Frame.finishing m))
    (hrecv : b+tok Frame.recvToken m+c'.receiving.toNat ≤ c'.offered.toNat)
    (hdis : d+tok Frame.disconnectToken m+c'.pipe.disconnecting.toNat+c'.pipe.isConnect.toNat ≤
      c'.hadConnected.toNat)
    (hsend : n+tok Frame.sendToken m+c'.pipe.flying ≤ 1)
    (hflag : c'.pipe.isConnect →
      n+tok Frame.sendToken m+c'.pipe.flying=c'.pipe.isSendRegister.toNat)
    (hunused : c'.hadConnected=false →
      n+tok Frame.sendToken m+c'.pipe.flying=0 ∧ c'.pipe.isSendRegister=false) :
    IoLedger ⟨c',beside fs m⟩ := by
  obtain ⟨hfinish,hreceive,hdisconnect,hsends⟩ := hfs
  constructor <;> simp only [tok_beside,hfinish,hreceive,hdisconnect,hsends] <;> assumption

theorem enter {e : Entry} (h : IoLedger ⟨c,m⟩) (hok : Allowed ⟨c,m⟩ e)
    (hx : Lifecycle.enter c e=some (c',fs)) : IoLedger ⟨c',beside fs m⟩ := by
  obtain ⟨hio,hrecv,hdis,hsend,hflag,hunused⟩ := h
  dsimp only at hio hrecv hdis hsend hflag hunused
  rw [← Nat.zero_add (tok Frame.sendToken m)] at hsend hflag hunused
  rw [← Nat.zero_add (tok Frame.disconnectToken m)] at hdis
  cases enter_enters hx with
  | offer =>
    have hnew : c.offered=false := hok.1
    rw [hnew,Bool.toNat_false] at hrecv
    refine of_entry (a:=0) (b:=1) ⟨rfl,rfl,rfl,rfl⟩ ?_ ?_ hdis hsend hflag hunused
    · exact hio.trans (by rw [Nat.zero_add]; rfl)
    · show 1+tok Frame.recvToken m+c.receiving.toNat ≤ 1
      omega
  | recvCompleted numOfBytes hrecv' =>
    simp only [Core.inFlight] at hio
    rw [hrecv',Bool.toNat_true] at hio hrecv
    refine of_entry (a:=1) (b:=1) ⟨rfl,rfl,rfl,rfl⟩ ?_ ?_ hdis hsend hflag hunused
    · simp only [Core.inFlight,Bool.toNat_false]
      omega
    · simp only [Bool.toNat_false]
      omega
  | sendCompleted numOfBytes bytes hflight =>
    simp only [Core.inFlight] at hio
    simp only [SendPipeline.Session.flying,hflight,Option.isSome_some,Bool.toNat_true,if_true]
      at hio hsend hflag hunused
    refine of_entry (a:=1) (b:=0) (n:=1) ⟨rfl,rfl,rfl,rfl⟩ ?_ ?_ hdis ?_ ?_ ?_
    · simp only [Core.inFlight,Option.isSome_none,Bool.toNat_false]
      omega
    · rw [Nat.zero_add]
      exact hrecv
    · simp only [SendPipeline.Session.flying,Option.isSome_none,Bool.false_eq_true,if_false]
      omega
    · intro hon
      have := hflag hon
      simp only [SendPipeline.Session.flying,Option.isSome_none,Bool.false_eq_true,if_false]
      omega
    · intro hnot
      have := (hunused hnot).1
      omega
  | disconnectCompleted hdis' =>
    simp only [Core.inFlight] at hio
    rw [hdis',Bool.toNat_true] at hio hdis
    refine of_entry (a:=1) (b:=0) (d:=0) ⟨rfl,rfl,rfl,rfl⟩ ?_ ?_ ?_ hsend hflag hunused
    · simp only [Core.inFlight,Bool.toNat_false]
      omega
    · rw [Nat.zero_add]
      exact hrecv
    · simp only [Bool.toNat_false]
      omega
  | _ =>
    refine of_entry (a:=0) (b:=0) ⟨rfl,rfl,rfl,rfl⟩ ?_ ?_ hdis hsend hflag hunused
    · rw [Nat.zero_add]
      exact hio
    · rw [Nat.zero_add]
      exact hrecv

end IoLedger

/-- A session that was told to shut down is disconnected, or somebody will do it. -/
def Pledged (l : Local R) : Prop :=
  l.core.pipe.shutdownStarted → l.core.pipe.isDisconnect ∨
    0<tok Frame.obliged l.frames+l.core.pipe.disconnecting.toNat

namespace Pledged

variable {c c' : Core R} {o : Choice R} {f : Frame R} {fs : List (Frame R)} {m : Multiset (Frame R)}

theorem init : Pledged (⟨Core.init,0⟩ : Local R) := by
  intro h
  cases h

/-- Who takes the duty off a thread disconnects the session or passes the duty on. -/
theorem fire (h : Pledged ⟨c,f::ₘm⟩) (hx : exec c o f=some (c',fs)) : Pledged ⟨c',beside fs m⟩ := by
  unfold Pledged at h ⊢
  simp only [tok_cons,tok_beside] at h ⊢
  cases exec_move hx with
  | pipe ok pc p pc' ha =>
    obtain ⟨n,stopped,heq⟩ := pipeEffect_eq c ok pc p
    simp only [heq]
    by_cases hpc : pc=.processDisconnect
    · subst hpc
      simp only [advance] at ha
      split at ha <;> cases ha
      · rename_i hdis
        exact fun _ => Or.inl hdis
      · exact fun _ => Or.inl rfl
    cases SendPipeline.advance_move ha with
    | beginShutdown | disconnectFailed => simp [pipeNext,Frame.obliged]
    | processDisconnect | processed => exact absurd rfl hpc
    | registerDisconnect => simp
    | close => exact fun hs => (h hs).imp id fun hpos => by simp [pipeNext,Frame.obliged]
    | accept | nothing | whole =>
      simp only [pipeNext]
      repeat' split
      all_goals simpa [Frame.obliged] using h
    | _ => simpa [pipeNext,Frame.obliged] using h
  | _ => simpa [Frame.obliged,Core.queueLogic,Lifecycle.disconnect] using h

theorem enter {e : Entry} (h : Pledged ⟨c,m⟩) (hx : Lifecycle.enter c e=some (c',fs)) :
    Pledged ⟨c',beside fs m⟩ := by
  unfold Pledged at h ⊢
  simp only [tok_beside] at h ⊢
  cases enter_enters hx with
  | disconnectCompleted => simp [Frame.obliged]
  | _ => simpa [Frame.obliged,Lifecycle.disconnect] using h

end Pledged

end IocpServer.NetWork.Lifecycle
