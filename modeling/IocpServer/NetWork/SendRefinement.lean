import IocpServer.NetWork.IoAccounting
import IocpServer.NetWork.SendProgress

namespace IocpServer.NetWork.OverlappedIo

open Pool (weight weight_cons pending total total_nil total_cons weight_add le_weight)

open SendPipeline (Session At advance stepAnyCount)

namespace Frame

/-- The thread is in the locked part of `register_send` and its outcome does not show yet. -/
def sends : Frame → Nat
  | .setOwner .send | .drain | .build | .emptyBatch | .beginIo .send | .call .send
  | .callFailed .send => 1
  | _ => 0

/-- `begin_shutdown` has set its flag and not yet `_is_connect`. -/
def flags : Frame → Nat
  | .shutdownFlags => 1
  | _ => 0

theorem sends_le_locks (f : Frame) : f.sends ≤ f.locks := by
  cases f with
  | setOwner event | beginIo event | call event | callFailed event =>
    cases event <;> simp [sends,locks]
  | _ => simp [sends,locks]

theorem flags_le_locks (f : Frame) : f.flags ≤ f.locks := by
  cases f <;> simp [flags,locks]

/-- The point of the send path for a frame. The locked sections of `register_disconnect` and
`begin_shutdown` are points before their outcome shows, the receive path is outside. -/
def point (closeAfterSend : Bool) : Frame → At
  | .send b => .send b
  | .enqueue b => .enqueue b
  | .registerSend => .registerSend
  | .setOwner .send | .drain => .drain
  | .build | .emptyBatch | .beginIo .send | .call .send | .callFailed .send => .transmit
  | .emptyUnlock | .emptyClose => if closeAfterSend then .disconnect false else .idle
  | .failedIo .send | .failedUnlock .send => .disconnect true
  | .dispatch .send n | .processSend n | .sent n => .processSend n
  | .consume n => .consume n
  | .refused => .refused
  | .flushed => .flushed
  | .requeue => .requeue
  | .disconnect => .disconnect false
  | .registerDisconnect | .setOwner .disconnect | .beginIo .disconnect | .call .disconnect =>
    .registerDisconnect
  | .callFailed .disconnect | .failedIo .disconnect | .failedUnlock .disconnect
  | .dispatch .disconnect _ | .disconnected | .processDisconnect | .closeSocket =>
    .processDisconnect
  | .closeFlags => .closeFlags
  | .beginShutdown | .shutdownFlags => .beginShutdown
  | _ => .idle

/-- What the fields are when a thread of a connected session is at the frame. -/
def Fits (c : Core) : Frame → Prop
  | .processConnect | .rejectConnection | .rejectClose => False
  | .emptyBatch => c.sendEvent.buildWsabufs=[]
  | .beginIo .send | .call .send | .callFailed .send => c.sendEvent.buildWsabufs≠[]
  | .setOwner .disconnect | .beginIo .disconnect | .call .disconnect => c.shutdownStarted=false
  | .clearRegister => c.isConnect=false
  | _ => True

end Frame

/-- The point of the innermost frame. -/
def pointOf (closeAfterSend : Bool) : List Frame → At
  | [] => .idle
  | f::_ => f.point closeAfterSend

/-- Points that go on alike: the send path also remembers why `disconnect` was called. -/
inductive Alike : At → At → Prop
  | refl (pc : At) : Alike pc pc
  | disconnect (dropped dropped' : Bool) : Alike (.disconnect dropped) (.disconnect dropped')

/-- The fields of the send path show those of the session, `m` being the frames of all threads. A
section that has taken effect in the send path has released its lock there. -/
structure Agrees (c : Core) (m : Multiset Frame) (σ : Session) : Prop where
  isConnect : σ.isConnect=c.isConnect
  isDisconnect : σ.isDisconnect=c.isDisconnect
  closeAfterSend : σ.closeAfterSend=c.closeAfterSend
  sendQueue : σ.sendQueue=c.sendQueue
  sendEvent : σ.sendEvent=c.sendEvent
  isSendRegister : c.isConnect=true → σ.isSendRegister=c.isSendRegister
  flight : σ.flight=if c.flights .send=0 then none else some c.sendEvent.rest
  disconnecting : σ.disconnecting=decide (0<c.flights .disconnect)
  lock : weight Frame.sends m=σ.ioLock.toNat
  shutdown : σ.shutdownStarted.toNat+weight Frame.flags m=c.shutdownStarted.toNat
  offered : c.offered=true

/-- The session without the fields that the send path leaves out. -/
def Core.shown (c : Core) : Core :=
  { c with ioLock := false, owner := fun _ => false, pendingIo := 0, released := false, begun := 0,
           expired := false, crashed := false }

/-- What the send path does while the session takes one step. -/
inductive Follows (σ : Session) : At → Session → At → Prop
  | stay (pc : At) : Follows σ pc σ pc
  | send (b : SendBuffer) : Follows σ .idle σ (.send b)
  | disconnect : Follows σ .idle σ (.disconnect false)
  | run {pc pc' : At} {σ' : Session} (ok : Bool) (h : advance σ ok pc=some (σ',pc')) :
      Follows σ pc σ' pc'

variable {c c' : Core} {o : Choice} {f : Frame} {fs : List Frame} {m m' : Multiset Frame}
  {σ : Session} {pc : At}

theorem Alike.idle (h : Alike pc .idle) : pc=.idle := by
  cases h
  rfl

/-- A step of the send path does not depend on why `disconnect` was called. -/
theorem Alike.run {pc' p : At} {σ' : Session} (hpc : Alike pc p) (ok : Bool)
    (h : advance σ ok p=some (σ',pc')) : Follows σ pc σ' pc' := by
  cases hpc with
  | refl => exact .run ok h
  | disconnect => exact .run ok h

section Steps

theorem move_fits (h : Move c f c' fs) (hf : f.Fits c) : ∀ g∈fs, g.Fits c' := by
  cases h with
  | setOwner event | beginIo event | call event | callRefused event | callFailed event
  | failedIo event | failedUnlock event | dispatch event =>
    cases event <;>
      simp_all [Frame.Fits,Core.setOwner,Core.beginIo,callback,afterOwner,afterFailure]
  | _ => simp_all [Frame.Fits]

/-- The send event is changed by its user only. -/
theorem move_sendEvent (h : Move c f c' fs) :
    c'.sendEvent=c.sendEvent ∨ 0<f.holder .send := by
  cases h with
  | callFailed event => cases event <;> simp [Core.giveUp,Frame.holder,Frame.holds]
  | _ =>
    simp [Core.setOwner,Core.beginIo,Core.setFlights,Core.finishIo,Frame.holder,Frame.holds]

theorem move_shutdownStarted (h : Move c f c' fs) :
    c'.shutdownStarted=c.shutdownStarted ∨ c.ioLock=false := by
  cases h <;> simp_all [Core.setOwner,Core.giveUp,Core.beginIo,Core.setFlights,Core.finishIo]

theorem move_isConnect (h : Move c f c' fs) (hf : f.Fits c) (hoff : c.isConnect=false) :
    c'.isConnect=false := by
  cases h <;> simp_all [Frame.Fits,Core.setOwner,Core.giveUp,Core.beginIo,Core.setFlights,
    Core.finishIo]

/-- What a thread relies on is not changed by another one. -/
theorem fits_of_mem (hi : Inv c (f::ₘm)) (h : Move c f c' fs) (hf : f.Fits c) {g : Frame} (hg : g∈m)
    (hfit : g.Fits c) : g.Fits c' := by
  have hsole := hi.send
  have hlock := hi.lock
  rw [weight_cons] at hsole hlock
  have hother := le_weight (w:=Frame.holder .send) hg
  have hheld := le_weight (w:=Frame.locks) hg
  have hevent : 0<g.holder .send → c'.sendEvent=c.sendEvent := fun hu =>
    (move_sendEvent h).resolve_right (by omega)
  have hshut : 0<g.locks → c'.shutdownStarted=c.shutdownStarted := fun hl => by
    refine (move_shutdownStarted h).resolve_right fun hfree => ?_
    rw [hfree,Bool.toNat_false] at hlock
    omega
  cases g with
  | processConnect | rejectConnection | rejectClose => exact hfit
  | emptyBatch => exact (congrArg SendEvent.buildWsabufs (hevent (by decide))).trans hfit
  | setOwner event | beginIo event | call event | callFailed event =>
    cases event with
    | recv => exact trivial
    | send =>
      have he := hevent (by simp [Frame.holder,Frame.holds])
      simp_all [Frame.Fits]
    | disconnect =>
      have hsame := hshut (by simp [Frame.locks])
      simp_all [Frame.Fits]
  | clearRegister => exact move_isConnect h hf hfit
  | _ => exact trivial

end Steps

namespace Agrees

theorem lock_add (h : Agrees c (f::ₘm) σ) (hsends : total Frame.sends fs=f.sends) :
    weight Frame.sends (fs+m)=σ.ioLock.toNat := by
  rw [weight_add,hsends,← weight_cons,h.lock]

theorem shutdown_add (h : Agrees c (f::ₘm) σ) (hflags : total Frame.flags fs=f.flags) :
    σ.shutdownStarted.toNat+weight Frame.flags (fs+m)=c.shutdownStarted.toNat := by
  rw [weight_add,hflags,← weight_cons,h.shutdown]

/-- The frames are replaced by others that show the same. -/
theorem frames (h : Agrees c (f::ₘm) σ) (hc : c'.shown=c.shown)
    (hsends : total Frame.sends fs=f.sends) (hflags : total Frame.flags fs=f.flags) :
    Agrees c' (fs+m) σ := by
  have hshown : Agrees c.shown (fs+m) σ :=
    { h with lock := h.lock_add hsends, shutdown := h.shutdown_add hflags }
  rw [← hc] at hshown
  exact { hshown with }

theorem unlocked (h : Agrees c m σ) (hi : Inv c m) (hfree : c.ioLock=false) :
    σ.ioLock=false ∧ σ.shutdownStarted=c.shutdownStarted := by
  have hlock := hi.lock
  have hsends := Pool.weight_mono Frame.sends_le_locks m
  have hflags := Pool.weight_mono Frame.flags_le_locks m
  have hl := h.lock
  have hs := h.shutdown
  rw [hfree,Bool.toNat_false] at hlock
  refine ⟨?_,?_⟩
  · cases hσ : σ.ioLock with
    | false => rfl
    | true =>
      rw [hσ,Bool.toNat_true] at hl
      omega
  · have : weight Frame.flags m=0 := by omega
    rw [this] at hs
    cases hσ : σ.shutdownStarted <;> cases hc : c.shutdownStarted <;> simp_all

/-- In another locked section the lock of the send path is free. -/
theorem free (h : Agrees c (f::ₘm) σ) (hi : Inv c (f::ₘm)) (hl : f.locks=1) (hs : f.sends=0) :
    σ.ioLock=false := by
  have hlock := hi.lock
  have hsends := Pool.weight_mono Frame.sends_le_locks m
  have hσ := h.lock
  have hle := Bool.toNat_le c.ioLock
  rw [weight_cons] at hlock hσ
  cases hk : σ.ioLock with
  | false => rfl
  | true =>
    rw [hk,Bool.toNat_true] at hσ
    omega

/-- The user of the send event changes it; no send is in flight then. -/
theorem event (h : Agrees c m σ) (hi : Inv c (f::ₘm')) (hf : 0<f.holder .send) (e : SendEvent) :
    Agrees { c with sendEvent := e } m { σ with sendEvent := e } := by
  have hsole := hi.send
  rw [weight_cons] at hsole
  have h0 : c.flights .send=0 := by omega
  have hflight := h.flight
  simp only [h0,if_true] at hflight
  exact { h with sendEvent := rfl, flight := by simp [h0,hflight] }

theorem consume (h : Agrees c (f::ₘm) σ) (hi : Inv c (f::ₘm)) (hf : 0<f.holder .send)
    (e : SendEvent) (hsends : total Frame.sends fs=f.sends)
    (hflags : total Frame.flags fs=f.flags) :
    Agrees { c with sendEvent := e } (fs+m) { σ with sendEvent := e } :=
  (h.frames rfl hsends hflags).event hi hf e

theorem unregister (h : Agrees c (f::ₘm) σ) (hsends : total Frame.sends fs=f.sends)
    (hflags : total Frame.flags fs=f.flags) :
    Agrees { c with isSendRegister := false } (fs+m) { σ with isSendRegister := false } :=
  { h with
    isSendRegister := fun _ => rfl, lock := h.lock_add hsends, shutdown := h.shutdown_add hflags }

theorem accept (h : Agrees c (f::ₘm) σ) (b : SendBuffer) (hsends : total Frame.sends fs=f.sends)
    (hflags : total Frame.flags fs=f.flags) :
    Agrees { c with sendQueue := c.sendQueue++[b], isSendRegister := true } (fs+m)
      { σ with sendQueue := σ.sendQueue++[b], accepted := σ.accepted++[b],
               isSendRegister := true } :=
  { h with
    sendQueue := by rw [h.sendQueue], isSendRegister := fun _ => rfl, lock := h.lock_add hsends
    shutdown := h.shutdown_add hflags }

/-- The locked part of `register_send` takes effect. -/
theorem release (h : Agrees c (f::ₘm) σ) (hf : f.sends=1) (hsends : total Frame.sends fs=0)
    (hflags : total Frame.flags fs=f.flags) : Agrees c (fs+m) { σ with ioLock := false } := by
  have hl := h.lock
  have hle := Bool.toNat_le σ.ioLock
  rw [weight_cons] at hl
  refine { h with lock := ?_, shutdown := h.shutdown_add hflags }
  rw [weight_add,hsends,Bool.toNat_false]
  omega

theorem giveUp (h : Agrees c (f::ₘm) σ) (hi : Inv c (f::ₘm)) (hh : 0<f.holder .send)
    (hf : f.sends=1) (hsends : total Frame.sends fs=0) (hflags : total Frame.flags fs=f.flags) :
    Agrees (c.giveUp .send) (fs+m)
      { σ with sendEvent := SendEvent.clear, isSendRegister := false, ioLock := false } := by
  have h' := (h.event hi hh SendEvent.clear).release hf hsends hflags
  exact { h' with isSendRegister := fun _ => rfl }

theorem fly (h : Agrees c (.call .send::ₘm) σ) :
    Agrees (c.setFlights .send (c.flights .send+1)) (([.unlock] : List Frame)+m)
      { σ with flight := some c.sendEvent.rest, ioLock := false } := by
  have h' : Agrees c (([.unlock] : List Frame)+m) { σ with ioLock := false } :=
    h.release rfl rfl rfl
  exact { h' with flight := by simp [Core.setFlights] }

/-- At `shutdownFlags` the session counts as shut down, and the send path does not yet. -/
theorem shutting (h : Agrees c (.shutdownFlags::ₘm) σ) :
    σ.shutdownStarted=false ∧ c.shutdownStarted=true ∧ weight Frame.flags m=0 := by
  have hs := h.shutdown
  have hle := Bool.toNat_le c.shutdownStarted
  have hone : Frame.shutdownFlags.flags=1 := rfl
  rw [weight_cons] at hs
  refine ⟨?_,?_,by omega⟩
  · rw [← Bool.toNat_eq_zero]
    omega
  · rw [← Bool.toNat_eq_one]
    omega

end Agrees

/-- The send path follows every step: it stands still inside a locked section and on the receive
path, and takes the step in which a section shows. -/
theorem move_follows (hi : Inv c (f::ₘm)) (h : Move c f c' fs) (ha : Agrees c (f::ₘm) σ)
    (hf : f.Fits c) (hpc : Alike pc (f.point c.closeAfterSend)) :
    ∃ σ' pc', Follows σ pc σ' pc' ∧ Agrees c' (fs+m) σ' ∧
      Alike pc' (pointOf c'.closeAfterSend fs) := by
  have hon := ha.isConnect
  have hevent := ha.sendEvent
  have hqueue := ha.sendQueue
  have hlast := ha.closeAfterSend
  cases h with
  | processConnect | connected | rejectConnection | rejectClose => exact hf.elim
  | expired event n hgone =>
    rw [hi.ready.owner event rfl] at hgone
    cases hgone
  | noNotice | receivedNone | malformed =>
    cases hpc
    exact ⟨σ,_,.disconnect,ha.frames rfl rfl rfl,.refl _⟩
  | notice b =>
    cases hpc
    exact ⟨σ,_,.send b,ha.frames rfl rfl rfl,.refl _⟩
  | recvOff | receivedOff | received | onRecv | emptyBuild | build | registerRecv
  | registerDisconnect | unlock | processRecv | processSend | disconnected | finishIo | emptyUnlock
  | closeSocket => exact ⟨σ,pc,.stay pc,ha.frames rfl rfl rfl,hpc⟩
  | setOwner event | beginIo event | failedIo event | dispatch event =>
    refine ⟨σ,pc,.stay pc,?_,?_⟩
    · cases event <;> exact ha.frames rfl rfl rfl
    · cases event <;> exact hpc
  | emptyClose hclose | emptyEnd hclose =>
    refine ⟨σ,pc,.stay pc,ha.frames rfl rfl rfl,?_⟩
    rw [hclose] at hpc
    exact hpc
  | clearRegister =>
    have hoff : c.isConnect=false := hf
    exact ⟨σ,pc,.stay pc,{ ha with
      isSendRegister := by simp [hoff], lock := ha.lock_add rfl
      shutdown := ha.shutdown_add rfl },hpc⟩
  | sendOff hfree hoff =>
    obtain ⟨hopen,hshut⟩ := ha.unlocked hi hfree
    refine ⟨σ,.idle,hpc.run true ?_,ha.frames rfl rfl rfl,.refl _⟩
    rcases hoff with hoff|hoff <;> simp [advance,Frame.point,hopen,hshut,hon,hoff]
  | shutdownBegun hfree | disconnectOff hfree =>
    obtain ⟨hopen,hshut⟩ := ha.unlocked hi hfree
    refine ⟨σ,_,hpc.run true ?_,ha.frames rfl rfl rfl,.refl _⟩
    simp_all [advance,Frame.point,pointOf]
  | registerSend hfree =>
    obtain ⟨hopen,hshut⟩ := ha.unlocked hi hfree
    have hl := ha.lock
    rw [weight_cons,hopen] at hl
    refine ⟨{ σ with ioLock := true },.drain,hpc.run true ?_,{ ha with
      lock := by simpa [Frame.sends] using hl, shutdown := ha.shutdown_add rfl },.refl _⟩
    simp_all [advance,Frame.point]
  | beginShutdown hfree hshut =>
    obtain ⟨-,hshut'⟩ := ha.unlocked hi hfree
    have hs := ha.shutdown
    rw [weight_cons] at hs
    refine ⟨σ,pc,.stay pc,{ ha with lock := ha.lock_add rfl, shutdown := ?_ },hpc⟩
    simp_all [Frame.flags]
  | shutdownFlags =>
    have hopen := ha.free hi rfl rfl
    obtain ⟨hshut,hshut',hflags⟩ := ha.shutting
    refine ⟨{ σ with shutdownStarted := true, isConnect := false },.processDisconnect,
      hpc.run true ?_,{ ha with
        isConnect := rfl, isSendRegister := by simp, lock := ha.lock_add rfl
        shutdown := by simp [Frame.flags,hflags,hshut'] },.refl _⟩
    simp [advance,Frame.point,hopen,hshut]
  | resume | send | unsent | enqueueOff | overflow | sent | requeue | off | processed =>
    have hdone := ha.isDisconnect
    refine ⟨σ,_,hpc.run true ?_,ha.frames rfl rfl rfl,.refl _⟩
    simp_all [advance,Frame.point,pointOf]
  | drain =>
    have h' := ha.event hi (by decide) (c.sendEvent.push c.sendQueue)
    refine ⟨{ σ with sendEvent := c.sendEvent.push c.sendQueue, sendQueue := [] },.transmit,
      hpc.run true ?_,{ h' with
        sendQueue := rfl, lock := ha.lock_add rfl, shutdown := ha.shutdown_add rfl },.refl _⟩
    simp_all [advance,Frame.point]
  | emptyBatch =>
    refine ⟨_,_,hpc.run true ?_,ha.giveUp hi (by decide) rfl rfl rfl,.refl _⟩
    simp_all [advance,Frame.point,pointOf,Frame.Fits,Core.giveUp,Core.setOwner]
  | callFailed event =>
    cases event with
    | recv | disconnect => exact ⟨σ,pc,.stay pc,ha.frames rfl rfl rfl,hpc⟩
    | send =>
      refine ⟨_,.disconnect true,hpc.run false ?_,ha.giveUp hi (by decide) rfl rfl rfl,.refl _⟩
      simp_all [advance,Frame.point,Frame.Fits]
  | call event =>
    cases event with
    | recv =>
      exact ⟨σ,pc,.stay pc,{ ha with lock := ha.lock_add rfl, shutdown := ha.shutdown_add rfl },hpc⟩
    | send =>
      refine ⟨{ σ with flight := some c.sendEvent.rest, ioLock := false },.idle,hpc.run true ?_,
        ha.fly,.refl _⟩
      simp_all [advance,Frame.point,Frame.Fits]
    | disconnect =>
      have hopen := ha.free hi rfl rfl
      have hs := ha.shutdown
      refine ⟨{ σ with disconnecting := true },.idle,hpc.run true ?_,{ ha with
        disconnecting := by simp [Core.setFlights], lock := ha.lock_add rfl
        shutdown := ha.shutdown_add rfl },.refl _⟩
      simp_all [advance,Frame.point,Frame.Fits]
  | callRefused event =>
    cases event with
    | recv | send => exact ⟨σ,pc,.stay pc,ha.frames rfl rfl rfl,hpc⟩
    | disconnect =>
      have hopen := ha.free hi rfl rfl
      refine ⟨σ,.processDisconnect,hpc.run false ?_,ha.frames rfl rfl rfl,.refl _⟩
      simp [advance,Frame.point,hopen]
  | failedUnlock event =>
    cases event with
    | recv =>
      cases hpc
      exact ⟨σ,_,.disconnect,ha.frames rfl rfl rfl,.refl _⟩
    | send =>
      refine ⟨σ,pc,.stay pc,ha.frames rfl rfl rfl,?_⟩
      cases hpc <;> exact .disconnect _ _
    | disconnect => exact ⟨σ,pc,.stay pc,ha.frames rfl rfl rfl,hpc⟩
  | queued b hopen | enqueue b hopen =>
    have hreg := ha.isSendRegister hopen
    refine ⟨_,_,hpc.run true ?_,ha.accept b rfl rfl,.refl _⟩
    simp_all [advance,Frame.point,pointOf]
  | sentOff | refuse | remainder | last | whole =>
    refine ⟨_,_,hpc.run true ?_,
      ha.consume hi (by simp [Frame.holder,Frame.holds]) _ rfl rfl,.refl _⟩
    simp_all [advance,Frame.point,pointOf]
  | refused =>
    exact ⟨_,.disconnect true,hpc.run true rfl,ha.unregister rfl rfl,.disconnect _ _⟩
  | flushed => exact ⟨_,_,hpc.run true rfl,ha.unregister rfl rfl,.refl _⟩
  | emptied hq =>
    refine ⟨_,.idle,hpc.run true ?_,ha.unregister rfl rfl,.refl _⟩
    simp [advance,Frame.point,hqueue,hq]
  | disconnect hopen =>
    refine ⟨{ σ with isConnect := false },.registerDisconnect,hpc.run true ?_,{ ha with
      isConnect := rfl, isSendRegister := by simp, lock := ha.lock_add rfl
      shutdown := ha.shutdown_add rfl },.refl _⟩
    simp [advance,Frame.point,hon,hopen]
  | processDisconnect hfirst =>
    refine ⟨{ σ with isDisconnect := true },.closeFlags,hpc.run true ?_,{ ha with
      isDisconnect := rfl, lock := ha.lock_add rfl, shutdown := ha.shutdown_add rfl },.refl _⟩
    simp [advance,Frame.point,ha.isDisconnect,hfirst]
  | closeFlags =>
    exact ⟨{ σ with isConnect := false, isSendRegister := false },.idle,hpc.run true rfl,{ ha with
      isConnect := rfl, isSendRegister := by simp, lock := ha.lock_add rfl
      shutdown := ha.shutdown_add rfl },.refl _⟩

theorem move_closeAfterSend (h : Move c f c' fs) (hf : f.Fits c) :
    c'.closeAfterSend=c.closeAfterSend := by
  cases h with
  | rejectClose => exact hf.elim
  | _ => rfl

theorem move_tail (h : Move c f c' fs) : ∀ g∈fs.tail, g=Frame.finishIo := by
  cases h <;> simp

/-- A completed `WSASend` has handed over bytes that it was given. -/
def Faithful {T : Type} (s : State T) : Action T → Prop
  | .enter _ (.completion .send true n) => n.toNat ≤ s.core.sendEvent.rest.length
  | _ => True

/-- The same of the send path. -/
def Counted {T : Type} (a : SendPipeline.State T) : SendPipeline.Action T → Prop
  | .sendCompleted _ n => ∀ bytes, a.session.flight=some bytes → n.toNat ≤ bytes.length
  | _ => True

variable {T : Type} [DecidableEq T] {s s' : State T} {a a' : SendPipeline.State T}

theorem reaches_of_counted (h : Reaches stepAnyCount Counted a a') :
    Reaches SendPipeline.step Any a a' := by
  refine h.invariant (P:=fun x => Reaches SendPipeline.step Any a x) .refl fun x y z hx hy hs => ?_
  refine hx.tail (a:=y) trivial ?_
  cases y with
  | sendCompleted t n =>
    simp only [stepAnyCount] at hs
    split at hs
    · rename_i bytes hfly
      simp only [SendPipeline.step,hfly,if_pos (hy bytes hfly)]
      exact hs
    · cases hs
  | _ => exact hs

theorem Follows.reaches {t : T} {σ' : Session} {pc' : At}
    (h : Follows a.session (a.threads t) σ' pc') :
    Reaches stepAnyCount Counted a (a.set t σ' pc') := by
  generalize hpc : a.threads t=pc at h
  cases h with
  | stay =>
    have hsame : a.set t a.session (a.threads t)=a := by simp [SendPipeline.State.set]
    rw [← hpc,hsame]
    exact .refl
  | send b =>
    refine Reaches.refl.tail (a:=.send t b) trivial ?_
    simp [stepAnyCount,SendPipeline.step,SendPipeline.State.enter,hpc]
  | disconnect =>
    refine Reaches.refl.tail (a:=.disconnect t) trivial ?_
    simp [stepAnyCount,SendPipeline.step,SendPipeline.State.enter,hpc]
  | run ok hx =>
    refine Reaches.refl.tail (a:=.run t ok) trivial ?_
    simp [stepAnyCount,SendPipeline.step,hpc,hx]

/-- A session that `add_session` has connected on thread `t`, which goes on to receive or, if the
session is rejected, to tell the client. -/
def connected (rejected : Bool) (t : T) : State T :=
  ⟨{ Core.init with isConnect := true, closeAfterSend := rejected, offered := true },
    Function.update (fun _ => []) t [if rejected then .rejectNotice else .registerRecv]⟩

theorem connected_reaches (rejected : Bool) (t : T) :
    Reaches step Any init (connected rejected t) := by
  let run : Action T := .run t ⟨.pending,true,none⟩
  cases rejected with
  | false =>
    refine Reaches.of_runActions (fun _ _ => trivial) [.enter t .processConnect,run] ?_
    simp [runActions,step,Pool.step,run,init,Pool.State.init,object,enter,exec,Core.init,connected]
  | true =>
    refine Reaches.of_runActions (fun _ _ => trivial) [.enter t .rejectConnection,run,run] ?_
    simp [runActions,step,Pool.step,run,init,Pool.State.init,object,enter,exec,Core.init,connected]

variable [Fintype T]

/-- The send path in state `a` shows the session in state `s`. -/
structure Shows (s : State T) (a : SendPipeline.State T) : Prop where
  inv : Inv s.core (pending s.calls)
  agrees : Agrees s.core (pending s.calls) a.session
  fits : ∀ f∈pending s.calls, f.Fits s.core
  threads : ∀ t, Alike (a.threads t) (pointOf s.core.closeAfterSend (s.calls t))
  tails : ∀ t, ∀ f∈(s.calls t).tail, f=Frame.finishIo

theorem pending_connected (rejected : Bool) (t : T) :
    pending (connected rejected t).calls={if rejected then .rejectNotice else .registerRecv} := by
  have h := Pool.pending_call (fun _ : T => []) t
    [if rejected then Frame.rejectNotice else .registerRecv]
  have hnone : pending (fun _ : T => ([] : List Frame))=0 := Pool.pending_init Core.init
  rw [hnone,add_zero] at h
  exact h

theorem connected_shows (rejected : Bool) (t : T) :
    Shows (connected rejected t) (SendPipeline.State.init rejected) := by
  have hm := pending_connected rejected t
  refine ⟨reaches_inv (connected_reaches rejected t),?_,?_,fun u => ?_,fun u => ?_⟩
  · rw [hm]
    constructor <;> cases rejected <;> simp [connected,Core.init,SendPipeline.State.init,
      Session.init,Frame.sends,Frame.flags,weight]
  · rw [hm]
    cases rejected <;> simp [Frame.Fits]
  · by_cases hu : u=t
    · subst hu
      cases rejected <;> simp [connected,pointOf,Frame.point,SendPipeline.State.init,Alike.refl]
    · simp [connected,pointOf,SendPipeline.State.init,hu,Alike.refl]
  · by_cases hu : u=t
    · subst hu
      simp [connected]
    · simp [connected,hu]

omit [DecidableEq T] in
theorem Shows.idle (h : Shows s a) {t : T} (ht : s.calls t=[]) : a.threads t=.idle := by
  have hpc := h.threads t
  rw [ht] at hpc
  exact hpc.idle

/-- Thread `t` goes on with the frames `stack`. -/
theorem Shows.set (h : Shows s a) {t : T} {c : Core} {stack : List Frame} {σ : Session} {pc : At}
    (hi : Inv c (pending (Function.update s.calls t stack)))
    (ha : Agrees c (pending (Function.update s.calls t stack)) σ)
    (hf : ∀ f∈pending (Function.update s.calls t stack), f.Fits c)
    (hclose : c.closeAfterSend=s.core.closeAfterSend)
    (hpc : Alike pc (pointOf c.closeAfterSend stack))
    (htail : ∀ f∈stack.tail, f=Frame.finishIo) :
    Shows ⟨c,Function.update s.calls t stack⟩ (a.set t σ pc) := by
  refine ⟨hi,ha,hf,fun u => ?_,fun u => ?_⟩
  · by_cases hu : u=t
    · subst hu
      simpa [SendPipeline.State.set] using hpc
    · simpa [SendPipeline.State.set,hu,hclose] using h.threads u
  · by_cases hu : u=t
    · subst hu
      simpa using htail
    · simpa [hu] using h.tails u

/-- What is left of the stack is the `finish_io` of a completion, which the send path leaves out. -/
theorem pointOf_append (closeAfterSend : Bool) {rest : List Frame}
    (h : ∀ f∈rest, f=Frame.finishIo) :
    pointOf closeAfterSend (fs++rest)=pointOf closeAfterSend fs := by
  cases fs with
  | cons f fs => rfl
  | nil =>
    cases rest with
    | nil => rfl
    | cons g rest =>
      rw [h g List.mem_cons_self]
      rfl

theorem finishIo_append {rest : List Frame} (h : ∀ g∈fs.tail, g=Frame.finishIo)
    (hrest : ∀ f∈rest, f=Frame.finishIo) : ∀ g∈(fs++rest).tail, g=Frame.finishIo := by
  intro g hg
  cases fs with
  | nil => exact hrest g (List.mem_of_mem_tail hg)
  | cons f fs => exact (List.mem_append.mp hg).elim (h g) (hrest g)

theorem Shows.run (h : Shows s a) {t : T} {o : Choice} (hs : step s (.run t o)=some s') :
    ∃ a', Reaches stepAnyCount Counted a a' ∧ Shows s' a' := by
  have hi' := step_inv h.inv hs
  simp only [step,Pool.step] at hs
  split at hs
  · cases hs
  rename_i f rest hcalls
  obtain ⟨⟨c,fs⟩,hx,rfl⟩ := Option.map_eq_some_iff.mp hs
  have hmove := exec_move hx
  obtain ⟨m,hm,hnext⟩ := Pool.pending_run hcalls
  have hi := h.inv
  have ha := h.agrees
  have hfits := h.fits
  have hpc := h.threads t
  have hrest := h.tails t
  rw [hm] at hi ha hfits
  rw [hcalls] at hpc hrest
  have hf := hfits f (Multiset.mem_cons_self f m)
  obtain ⟨σ,pc,hfollow,ha',hpc'⟩ := move_follows hi hmove ha hf hpc
  refine ⟨_,hfollow.reaches,h.set hi' ?_ ?_ (move_closeAfterSend hmove hf) ?_ ?_⟩
  · rw [hnext]
    exact ha'
  · rw [hnext]
    intro g hg
    rcases Multiset.mem_add.mp hg with hg|hg
    · exact move_fits hmove hf g hg
    · exact fits_of_mem hi hmove hf hg (hfits g (Multiset.mem_cons_of_mem hg))
  · exact (pointOf_append c.closeAfterSend hrest).symm ▸ hpc'
  · exact finishIo_append (move_tail hmove) hrest

/-- Frames that show nothing are added. -/
theorem Agrees.enter (h : Agrees c m σ) (hsends : total Frame.sends fs=0)
    (hflags : total Frame.flags fs=0) : Agrees c (fs+m) σ := by
  refine { h with lock := ?_, shutdown := ?_ }
  · rw [weight_add,hsends,Nat.zero_add,h.lock]
  · rw [weight_add,hflags,Nat.zero_add,h.shutdown]

omit [Fintype T] in
/-- What the send path does when a call from outside or a completion begins on thread `t`: the
completion of a receive is none of its steps. -/
theorem enter_follows {e : Entry} {t : T} {m : Multiset Frame} (hi : Inv s.core m)
    (ha : Agrees s.core m a.session) (hidle : a.threads t=.idle) (h : enter s.core e=some (c',fs)) :
    ∃ σ pc,
      Reaches stepAnyCount (fun w x => Faithful s (.enter t e) → Counted w x) a (a.set t σ pc) ∧
      Agrees c' (fs+m) σ ∧ Alike pc (pointOf c'.closeAfterSend fs) := by
  cases e with
  | processConnect | rejectConnection => simp [enter,ha.offered] at h
  | send b =>
    cases h
    refine ⟨a.session,.send b,Reaches.refl.tail (a:=.send t b) (fun _ => trivial) ?_,
      ha.enter rfl rfl,.refl _⟩
    simp [stepAnyCount,SendPipeline.step,SendPipeline.State.enter,hidle]
  | disconnect =>
    cases h
    refine ⟨a.session,.disconnect false,Reaches.refl.tail (a:=.disconnect t) (fun _ => trivial) ?_,
      ha.enter rfl rfl,.refl _⟩
    simp [stepAnyCount,SendPipeline.step,SendPipeline.State.enter,hidle]
  | beginShutdown =>
    cases h
    refine ⟨a.session,.beginShutdown,Reaches.refl.tail (a:=.beginShutdown t) (fun _ => trivial) ?_,
      ha.enter rfl rfl,.refl _⟩
    simp [stepAnyCount,SendPipeline.step,SendPipeline.State.enter,hidle]
  | completion event result n =>
    simp only [enter] at h
    split at h <;> cases h
    rename_i hfly
    have hsole := hi.sole event
    have hone : s.core.flights event-1=0 := by omega
    cases event with
    | recv =>
      have h' : Agrees s.core (([.dispatch .recv (if result then n else 0)] : List Frame)+m)
          a.session := ha.enter rfl rfl
      have hsame : a.set t a.session .idle=a := by simp [SendPipeline.State.set,← hidle]
      exact ⟨a.session,.idle,hsame.symm ▸ .refl,{ h' with },.refl _⟩
    | send =>
      have h' : Agrees s.core (([.dispatch .send (if result then n else 0)] : List Frame)+m)
          a.session := ha.enter rfl rfl
      have hflight : a.session.flight=some s.core.sendEvent.rest := by
        rw [ha.flight,if_neg (by omega)]
      refine ⟨{ a.session with
          flight := none
          wire := a.session.wire++s.core.sendEvent.rest.take (if result then n else 0).toNat },
        .processSend (if result then n else 0),
        Reaches.refl.tail (a:=.sendCompleted t (if result then n else 0))
          (fun hok bytes hb => ?_) ?_,
        { h' with flight := by simp [Core.setFlights,hone] },.refl _⟩
      · cases hflight.symm.trans hb
        cases result with
        | true => exact hok
        | false => exact Nat.zero_le _
      · simp [stepAnyCount,SendPipeline.State.enter,hidle,hflight]
    | disconnect =>
      have h' : Agrees s.core (([.dispatch .disconnect (if result then n else 0)] : List Frame)+m)
          a.session := ha.enter rfl rfl
      have hgoing : a.session.disconnecting=true := by
        rw [ha.disconnecting]
        exact decide_eq_true hfly
      refine ⟨{ a.session with disconnecting := false },.processDisconnect,
        Reaches.refl.tail (a:=.disconnectCompleted t) (fun _ => trivial) ?_,
        { h' with disconnecting := by simp [Core.setFlights,hone] },.refl _⟩
      simp [stepAnyCount,SendPipeline.step,SendPipeline.State.enter,hidle,hgoing]

theorem enter_kept {e : Entry} (h : enter c e=some (c',fs)) (ho : c.offered=true) :
    (∀ f∈fs, f.Fits c') ∧ (∀ f : Frame, f.Fits c → f.Fits c') ∧ fs.tail=[] ∧
      c'.closeAfterSend=c.closeAfterSend := by
  cases e with
  | processConnect | rejectConnection => simp [enter,ho] at h
  | completion event =>
    simp only [enter] at h
    split at h <;> cases h
    exact ⟨by simp [Frame.Fits],fun f hf => hf,rfl,rfl⟩
  | _ =>
    cases h
    exact ⟨by simp [Frame.Fits],fun f hf => hf,rfl,rfl⟩

theorem Shows.enter (h : Shows s a) {t : T} {e : Entry} (hs : step s (.enter t e)=some s') :
    ∃ a', Reaches stepAnyCount (fun w x => Faithful s (.enter t e) → Counted w x) a a' ∧
      Shows s' a' := by
  have hi' := step_inv h.inv hs
  simp only [step,Pool.step] at hs
  split at hs
  · rename_i hcalls
    obtain ⟨⟨c,fs⟩,hx,rfl⟩ := Option.map_eq_some_iff.mp hs
    have hidle := h.idle hcalls
    have hnext := Pool.pending_call s.calls t fs
    rw [hcalls,List.append_nil] at hnext
    obtain ⟨hnew,hold,htail,hclose⟩ := enter_kept hx h.agrees.offered
    obtain ⟨σ,pc,hreach,ha',hpc⟩ := enter_follows h.inv h.agrees hidle hx
    refine ⟨_,hreach,h.set hi' ?_ ?_ hclose hpc (by simp [htail])⟩
    · rw [hnext]
      exact ha'
    · rw [hnext]
      intro g hg
      rcases Multiset.mem_add.mp hg with hg|hg
      · exact hnew g hg
      · exact hold g (h.fits g hg)
  · cases hs

theorem Shows.step (h : Shows s a) {x : Action T} (hs : step s x=some s') :
    ∃ a', Reaches stepAnyCount (fun w y => Faithful s x → Counted w y) a a' ∧ Shows s' a' := by
  cases x with
  | run t o =>
    obtain ⟨a',hreach,h'⟩ := h.run hs
    exact ⟨a',hreach.mono fun _ _ hc _ => hc,h'⟩
  | enter t e => exact h.enter hs

/-- Every run of a connected session, lock section by lock section, is a run of the send path whose
transport may report any count. -/
theorem reaches_shows {rejected : Bool} {t : T} (h : Reaches step Any (connected rejected t) s) :
    ∃ a, Reaches stepAnyCount Any (SendPipeline.State.init rejected) a ∧ Shows s a :=
  h.simulates (connected_shows rejected t) fun y x z w hw _ hs => by
    obtain ⟨w',hreach,hw'⟩ := hw.step hs
    exact ⟨w',hreach.mono fun _ _ _ => trivial,hw'⟩

/-- If no completion reports more than it was given, it is a run of the send path. -/
theorem reaches_shows_of_faithful {rejected : Bool} {t : T}
    (h : Reaches step Faithful (connected rejected t) s) :
    ∃ a, Reaches SendPipeline.step Any (SendPipeline.State.init rejected) a ∧ Shows s a :=
  h.simulates (connected_shows rejected t) fun y x z w hw hok hs => by
    obtain ⟨w',hreach,hw'⟩ := hw.step hs
    exact ⟨w',reaches_of_counted (hreach.mono fun _ _ hc => hc hok),hw'⟩

/-- What the send path keeps the session keeps: its queue and its batch are bounded, and connected
and at rest it has nothing left to send. -/
theorem session_steady {rejected : Bool} {t : T} (h : Reaches step Any (connected rejected t) s) :
    s.core.sendQueue.length ≤ 1000 ∧ s.core.sendEvent.sendBuffers.length ≤ 1000 ∧
    (s.core.isConnect=true → s.core.flights .send=0 → (∀ u, s.calls u=[]) →
      s.core.sendQueue=[] ∧ s.core.isSendRegister=false) := by
  obtain ⟨a,hreach,hshows⟩ := reaches_shows h
  have hsteady := SendPipeline.reaches_steady hreach
  have hq := hshows.agrees.sendQueue
  have hbounded := hsteady.bounded
  refine ⟨hq ▸ hbounded.queue,hshows.agrees.sendEvent ▸ hbounded.batch,fun hon hfly hout => ?_⟩
  have hflight : a.session.flight=none := by rw [hshows.agrees.flight,if_pos hfly]
  have hrest := hsteady.rest (hshows.agrees.isConnect.trans hon) hflight fun u => by
    rw [hshows.idle (hout u)]
    rfl
  exact ⟨hq ▸ hrest.1,(hshows.agrees.isSendRegister hon).symm.trans hrest.2⟩

end IocpServer.NetWork.OverlappedIo
