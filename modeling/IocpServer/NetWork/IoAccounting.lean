import IocpServer.NetWork.OverlappedIo

namespace IocpServer.NetWork.OverlappedIo

open Pool (weight weight_cons pending total total_nil total_cons weight_add)

namespace Frame

/-- The registration of an operation that has been begun is in progress. -/
def registration : Frame → Nat
  | .call _ | .callFailed _ | .failedIo _ => 1
  | _ => 0

/-- The callback of a completed operation is running. -/
def completion : Frame → Nat
  | .dispatch _ _ | .finishIo => 1
  | _ => 0

/-- The thread holds `_io_lock`. -/
def locks : Frame → Nat
  | .setOwner _ | .drain | .build | .emptyBatch | .emptyUnlock | .beginIo _ | .call _
  | .callFailed _ | .failedIo _ | .failedUnlock _ | .unlock | .shutdownFlags | .closeSocket => 1
  | _ => 0

/-- The thread is in a registration and has not called `begin_io`. -/
def registers : Frame → Nat
  | .setOwner _ | .drain | .build | .beginIo _ => 1
  | _ => 0

/-- The event that the thread may use, and no other one. -/
def holds : Frame → Option Event
  | .processConnect | .registerRecv | .processRecv _ | .received _ | .onRecv => some .recv
  | .drain | .build | .emptyBatch | .processSend _ | .sent _ | .consume _ | .refused | .flushed
  | .requeue => some .send
  | .registerDisconnect | .disconnected => some .disconnect
  | .setOwner event | .beginIo event | .call event | .callFailed event | .dispatch event _ =>
    some event
  | _ => none

/-- The event whose owner the thread has set or relies on. -/
def owned : Frame → Option Event
  | .drain | .build => some .send
  | .beginIo event | .call event | .dispatch event _ => some event
  | _ => none

def holder (event : Event) (f : Frame) : Nat := if f.holds=some event then 1 else 0

def owns (event : Event) (f : Frame) : Nat := if f.owned=some event then 1 else 0

theorem owns_le_holder (event : Event) (f : Frame) : f.owns event ≤ f.holder event := by
  cases f <;> simp [owns,holder,owned,holds]

theorem registers_le_locks (f : Frame) : f.registers ≤ f.locks := by
  cases f <;> simp [registers,locks]

/-- The thread has won `_is_send_register` and goes for `_io_lock`. -/
def waits : Frame → Nat
  | .registerSend => 1
  | _ => 0

/-- The thread is about to connect the session. -/
def connects : Frame → Nat
  | .processConnect | .rejectConnection => 1
  | _ => 0

/-- The thread is past the exchange of `_is_connect` on the way to the cleanup. -/
def closes : Frame → Nat
  | .registerDisconnect | .setOwner .disconnect | .beginIo .disconnect | .call .disconnect
  | .callFailed .disconnect | .failedIo .disconnect | .failedUnlock .disconnect
  | .dispatch .disconnect _ | .disconnected | .processDisconnect | .closeFlags
  | .clearRegister => 1
  | _ => 0

/-- The thread is in the locked part of `begin_shutdown`. -/
def shuts : Frame → Nat
  | .shutdownFlags | .closeSocket => 1
  | _ => 0

end Frame

def Core.inFlight (c : Core) : Nat := c.flights .recv+c.flights .send+c.flights .disconnect

variable {c c' : Core} {o : Choice} {f : Frame} {gs fs : List Frame}

/-- What a step can do that replaces the frames `gs` by `fs`: `_pending_io` and `_io_lock` follow the
frames, the users of an event become no more, the owner of an event is cleared only by its user, the
registration of the send event is left where it is, given back or won with `_is_send_register`, and
after `begin_shutdown` has set its flag under `_io_lock` no thread gets into a registration. -/
structure Moves (c c' : Core) (gs fs : List Frame) : Prop where
  io : c'.pendingIo+(total Frame.registration gs+total Frame.completion gs)+c.inFlight=
    c.pendingIo+(total Frame.registration fs+total Frame.completion fs)+c'.inFlight
  sound : c'.crashed=c.crashed ∧ c'.expired=c.expired
  lock : c'.ioLock.toNat+total Frame.locks gs=c.ioLock.toNat+total Frame.locks fs
  recv : (!c'.offered).toNat+total (Frame.holder .recv) fs+c'.flights .recv ≤
    (!c.offered).toNat+total (Frame.holder .recv) gs+c.flights .recv
  fresh : (!c'.offered).toNat+total Frame.connects fs ≤ (!c.offered).toNat+total Frame.connects gs
  opens : (!c'.offered).toNat+total Frame.connects fs+c'.isConnect.toNat ≤
    (!c.offered).toNat+total Frame.connects gs+c.isConnect.toNat
  connection : (!c'.offered).toNat+total Frame.connects fs+c'.isConnect.toNat+
      total (Frame.holder .disconnect) fs+c'.flights .disconnect ≤
    (!c.offered).toNat+total Frame.connects gs+c.isConnect.toNat+
      total (Frame.holder .disconnect) gs+c.flights .disconnect
  closing : c.shutdownStarted=false →
    (!c'.offered).toNat+total Frame.connects fs+c'.isConnect.toNat+total Frame.closes fs+
        c'.flights .disconnect ≤
      (!c.offered).toNat+total Frame.connects gs+c.isConnect.toNat+total Frame.closes gs+
        c.flights .disconnect
  send : total (Frame.holder .send) fs+c'.flights .send ≤
      total (Frame.holder .send) gs+c.flights .send ∨
    c.shutdownStarted=false ∧ total (Frame.holder .send) fs+c'.flights .send ≤
      total (Frame.holder .send) gs+total Frame.waits gs+c.flights .send
  token :
    (total (Frame.holder .send) fs+total Frame.waits fs+c'.flights .send=
        total (Frame.holder .send) gs+total Frame.waits gs+c.flights .send ∧
      (c'.isSendRegister=c.isSendRegister ∨ 0<total Frame.closes gs)) ∨
    (total (Frame.holder .send) fs+total Frame.waits fs+c'.flights .send+1=
        total (Frame.holder .send) gs+total Frame.waits gs+c.flights .send ∧
      (c'.isSendRegister=false ∨
        c'.isSendRegister=c.isSendRegister ∧ (c.isConnect=false ∨ c.shutdownStarted))) ∨
    (c.isConnect ∧ c.isSendRegister=false ∧ c'.isSendRegister ∧
      total (Frame.holder .send) fs+total Frame.waits fs+c'.flights .send=
        total (Frame.holder .send) gs+total Frame.waits gs+c.flights .send+1)
  owner : ∀ event, c'.owner event ∨
    c'.owner event=c.owner event ∧
      total (Frame.owns event) fs+c'.flights event ≤ total (Frame.owns event) gs+c.flights event ∨
    0<total (Frame.holder event) gs ∧ total (Frame.owns event) fs=0 ∧
      c'.flights event=c.flights event
  keeps : c.shutdownStarted →
    c'.shutdownStarted ∧ total Frame.registers fs ≤ total Frame.registers gs
  starts : c'.shutdownStarted → c.shutdownStarted ∨
    c.ioLock=false ∧ total Frame.registers fs=0
  shuts : 0<total Frame.shuts fs → c'.shutdownStarted ∨ 0<total Frame.shuts gs
  released : c'.released → c.released ∨ 0<total Frame.shuts gs
  begun : total Frame.registers gs=0 → c'.begun=c.begun

/-- What a thread relies on at its frame. -/
structure Ready (c : Core) (f : Frame) : Prop where
  io : 0<f.registration+f.completion → 0<c.pendingIo
  owner : ∀ event, f.owned=some event → c.owner event
  lock : 0<f.locks → c.ioLock
  shutdown : 0<f.shuts → c.shutdownStarted

theorem inFlight_setFlights (c : Core) (event : Event) (n : Nat) :
    (c.setFlights event n).inFlight+c.flights event=c.inFlight+n := by
  cases event <;> simp [Core.inFlight,Core.setFlights] <;> omega

/-- What a step does to `_pending_io` is what it does to the operations. -/
theorem move_pendingIo (h : Move c f c' fs)
    (hio : 0<f.registration+f.completion → 0<c.pendingIo)
    (howner : ∀ event, f.owned=some event → c.owner event) :
    c'.pendingIo+(f.registration+f.completion)+c.inFlight=
      c.pendingIo+(total Frame.registration fs+total Frame.completion fs)+c'.inFlight ∧
    c'.crashed=c.crashed ∧ c'.expired=c.expired := by
  cases h with
  | call event =>
    have hf := inFlight_setFlights c event (c.flights event+1)
    refine ⟨?_,rfl,rfl⟩
    simp only [Frame.registration,Frame.completion,total_cons,total_nil,Core.setFlights] at hf ⊢
    omega
  | failedIo | finishIo =>
    have hpos := hio (by simp [Frame.registration,Frame.completion])
    refine ⟨?_,by simp [Core.finishIo,hpos.ne'],rfl⟩
    simp [Frame.registration,Frame.completion,Core.inFlight,Core.finishIo]
    omega
  | expired event n hgone =>
    rw [howner event rfl] at hgone
    cases hgone
  | setOwner event | dispatch event | failedUnlock event =>
    cases event <;> simp [Frame.registration,Frame.completion,Core.inFlight,Core.setOwner,callback,
      afterOwner,afterFailure]
  | _ =>
    simp [Frame.registration,Frame.completion,Core.inFlight,Core.setOwner,Core.giveUp,Core.beginIo]

/-- `_io_lock` passes from nobody to one thread and back. -/
theorem move_ioLock (h : Move c f c' fs) (hl : 0<f.locks → c.ioLock) :
    c'.ioLock.toNat+f.locks=c.ioLock.toNat+total Frame.locks fs := by
  cases h with
  | setOwner event | dispatch event | failedUnlock event =>
    cases event <;> simp_all [Frame.locks,Core.setOwner,callback,afterOwner,afterFailure]
  | _ =>
    simp_all [Frame.locks,Core.setOwner,Core.giveUp,Core.beginIo,Core.setFlights,Core.finishIo]

theorem move_shutdown (h : Move c f c' fs) :
    (c.shutdownStarted → c'.shutdownStarted ∧ total Frame.registers fs ≤ f.registers) ∧
    (c'.shutdownStarted → c.shutdownStarted ∨ c.ioLock=false ∧ total Frame.registers fs=0) ∧
    (0<total Frame.shuts fs → c'.shutdownStarted ∨ 0<f.shuts) ∧
    (c'.released → c.released ∨ 0<f.shuts) ∧ (f.registers=0 → c'.begun=c.begun) := by
  cases h with
  | setOwner event | dispatch event | failedUnlock event =>
    cases event <;>
      simp_all [Frame.registers,Frame.shuts,Core.setOwner,callback,afterOwner,afterFailure]
  | _ =>
    simp_all [Frame.registers,Frame.shuts,Core.setOwner,Core.giveUp,Core.beginIo,Core.setFlights,
      Core.finishIo]

/-- A session that has not been connected yet, that is connected or that is being disconnected with
`DisconnectEx` is only one of these. -/
theorem move_connection (h : Move c f c' fs) :
    total Frame.connects fs ≤ f.connects ∧
    total Frame.connects fs+c'.isConnect.toNat ≤ f.connects+c.isConnect.toNat ∧
    total Frame.connects fs+c'.isConnect.toNat+total (Frame.holder .disconnect) fs+
        c'.flights .disconnect ≤
      f.connects+c.isConnect.toNat+f.holder .disconnect+c.flights .disconnect ∧
    c'.offered=c.offered := by
  cases h with
  | setOwner event | beginIo event | call event | callRefused event | callFailed event
  | failedIo event | failedUnlock event | dispatch event =>
    cases event <;> simp [Frame.connects,Frame.holder,Frame.holds,Core.setOwner,Core.giveUp,
      Core.beginIo,Core.setFlights,Core.finishIo,callback,afterOwner,afterFailure]
    all_goals omega
  | _ =>
    simp_all [Frame.connects,Frame.holder,Frame.holds,Core.setOwner,Core.giveUp,Core.finishIo]

theorem move_closing (h : Move c f c' fs) (hf : 0<f.shuts → c.shutdownStarted)
    (hs : c.shutdownStarted=false) :
    total Frame.connects fs+c'.isConnect.toNat+total Frame.closes fs+
        c'.flights .disconnect ≤
      f.connects+c.isConnect.toNat+f.closes+c.flights .disconnect := by
  cases h with
  | setOwner event | beginIo event | call event | callRefused event | callFailed event
  | failedIo event | failedUnlock event | dispatch event | expired event =>
    cases event <;> simp [Frame.connects,Frame.closes,Core.setOwner,Core.giveUp,Core.beginIo,
      Core.setFlights,Core.finishIo,callback,afterOwner,afterFailure]
    all_goals omega
  | _ =>
    simp_all [Frame.connects,Frame.closes,Frame.shuts,Core.setOwner,Core.giveUp,Core.finishIo]

theorem move_recv (h : Move c f c' fs) :
    total (Frame.holder .recv) fs+c'.flights .recv ≤ f.holder .recv+c.flights .recv := by
  cases h with
  | setOwner event | beginIo event | call event | callRefused event | callFailed event
  | failedIo event | failedUnlock event | dispatch event =>
    cases event <;> simp [Frame.holder,Frame.holds,Core.setOwner,Core.giveUp,Core.beginIo,
      Core.setFlights,Core.finishIo,callback,afterOwner,afterFailure,Nat.add_comm]
  | _ => simp [Frame.holder,Frame.holds,Core.setOwner,Core.giveUp,Core.finishIo]

/-- What a step can do to the registration of the send event: leave it where it is, give it back, or
win it with `_is_send_register`. -/
theorem move_send (h : Move c f c' fs) (howner : ∀ event, f.owned=some event → c.owner event) :
    (total (Frame.holder .send) fs+total Frame.waits fs+c'.flights .send=
        f.holder .send+f.waits+c.flights .send ∧
      (c'.isSendRegister=c.isSendRegister ∨ 0<f.closes)) ∨
    (total (Frame.holder .send) fs+total Frame.waits fs+c'.flights .send+1=
        f.holder .send+f.waits+c.flights .send ∧
      (c'.isSendRegister=false ∨
        c'.isSendRegister=c.isSendRegister ∧ (c.isConnect=false ∨ c.shutdownStarted))) ∨
    (c.isConnect ∧ c.isSendRegister=false ∧ c'.isSendRegister ∧
      total (Frame.holder .send) fs+total Frame.waits fs+c'.flights .send=
        f.holder .send+f.waits+c.flights .send+1) := by
  cases h with
  | sendOff _ hoff =>
    refine Or.inr (Or.inl ⟨?_,Or.inr ⟨rfl,hoff⟩⟩)
    simp [Frame.holder,Frame.holds,Frame.waits,Nat.add_comm]
  | expired event n hgone =>
    rw [howner event rfl] at hgone
    cases hgone
  | setOwner event | beginIo event | call event | callRefused event | callFailed event
  | failedIo event | failedUnlock event | dispatch event =>
    cases event <;> simp [Frame.holder,Frame.holds,Frame.waits,Frame.closes,Core.setOwner,
      Core.giveUp,Core.beginIo,Core.setFlights,Core.finishIo,callback,afterOwner,afterFailure]
    all_goals omega
  | _ =>
    simp_all [Frame.holder,Frame.holds,Frame.waits,Frame.closes,Core.setOwner,Core.giveUp,
      Core.finishIo]
    all_goals omega

/-- Only a thread that waits for `_io_lock` comes to hold the send event. -/
theorem move_holder_send (h : Move c f c' fs) :
    total (Frame.holder .send) fs+c'.flights .send ≤ f.holder .send+c.flights .send ∨
    c.shutdownStarted=false ∧ total (Frame.holder .send) fs+c'.flights .send ≤
      f.holder .send+f.waits+c.flights .send := by
  cases h with
  | registerSend _ _ hshut =>
    refine Or.inr ⟨hshut,?_⟩
    simp [Frame.holder,Frame.holds,Frame.waits]
  | setOwner event | beginIo event | call event | callRefused event | callFailed event
  | failedIo event | failedUnlock event | dispatch event =>
    left
    cases event <;> simp [Frame.holder,Frame.holds,Core.setOwner,Core.giveUp,Core.beginIo,
      Core.setFlights,Core.finishIo,callback,afterOwner,afterFailure,Nat.add_comm]
  | _ =>
    left
    simp [Frame.holder,Frame.holds,Core.setOwner,Core.giveUp,Core.finishIo]

/-- The owner of an event is set before it is relied on, and cleared by the one thread that may use
the event. -/
theorem move_owner (h : Move c f c' fs) (event : Event) :
    c'.owner event ∨
    c'.owner event=c.owner event ∧
      total (Frame.owns event) fs+c'.flights event ≤ f.owns event+c.flights event ∨
    0<f.holder event ∧ total (Frame.owns event) fs=0 ∧ c'.flights event=c.flights event := by
  cases h with
  | setOwner used =>
    by_cases hused : event=used
    · subst hused
      exact Or.inl (Function.update_self _ _ _)
    · refine Or.inr (Or.inl ⟨Function.update_of_ne hused _ _,?_⟩)
      have hother : ¬used=event := fun he => hused he.symm
      cases used <;> simp [Frame.owns,Frame.owned,Core.setOwner,afterOwner,hother]
  | call used =>
    refine Or.inr (Or.inl ⟨rfl,?_⟩)
    by_cases hused : event=used
    · subst hused
      simp [Frame.owns,Frame.owned,Core.setFlights,Nat.add_comm]
    · simp [Frame.owns,Frame.owned,Core.setFlights,hused]
  | callRefused => exact Or.inr (Or.inl ⟨rfl,by simp [Frame.owns,Frame.owned]⟩)
  | callFailed used =>
    by_cases hused : event=used
    · subst hused
      exact Or.inr (Or.inr ⟨by simp [Frame.holder,Frame.holds],rfl,rfl⟩)
    · exact Or.inr (Or.inl ⟨Function.update_of_ne hused _ _,le_rfl⟩)
  | failedUnlock used | dispatch used =>
    refine Or.inr (Or.inl ⟨rfl,?_⟩)
    cases used <;> simp [Frame.owns,Frame.owned,callback,afterFailure]
  | emptyBatch | processRecv | processSend | disconnected =>
    cases event <;> simp [Frame.holder,Frame.holds,Frame.owns,Frame.owned,Core.setOwner,Core.giveUp]
  | _ =>
    refine Or.inr (Or.inl ⟨rfl,?_⟩)
    simp [Frame.owns,Frame.owned,Core.beginIo,Core.finishIo]

theorem exec_moves (hr : Ready c f) (h : exec c o f=some (c',fs)) : Moves c c' [f] fs := by
  have hmove := exec_move h
  obtain ⟨hio,hsound⟩ := move_pendingIo hmove hr.io hr.owner
  obtain ⟨hkeeps,hstarts,hshuts,hreleased,hbegun⟩ := move_shutdown hmove
  obtain ⟨hfresh,hopens,hconnection,hoff⟩ := move_connection hmove
  have hlock := move_ioLock hmove hr.lock
  have hrecv := move_recv hmove
  have hclosing := move_closing hmove hr.shutdown
  have hsend := move_holder_send hmove
  have htoken := move_send hmove hr.owner
  have howner := move_owner hmove
  have ht : ∀ w, total w [f]=w f := fun w => by simp
  constructor
  case closing =>
    intro hs
    have := hclosing hs
    rw [ht,ht,hoff]
    omega
  all_goals try simp only [ht,hoff]
  all_goals first | assumption | omega

/-- A completion takes the place of its operation. -/
theorem completion_moves {event : Event} {numOfBytes : BitVec 32} (h : 0<c.flights event) :
    Moves c (c.setFlights event (c.flights event-1)) [] [.dispatch event numOfBytes] := by
  constructor
  case io =>
    have hfly := inFlight_setFlights c event (c.flights event-1)
    simp only [Frame.registration,Frame.completion,total_cons,total_nil,Core.setFlights] at hfly ⊢
    omega
  case owner =>
    intro other
    refine Or.inr (Or.inl ⟨rfl,?_⟩)
    by_cases hother : other=event
    · subst hother
      simp only [total_cons,total_nil,Frame.owns,Frame.owned,Core.setFlights,Function.update_self,
        if_true]
      omega
    · have hne : ¬event=other := fun he => hother he.symm
      simp [Frame.owns,Frame.owned,Core.setFlights,hother,hne]
  case recv | connection | closing | send | token =>
    cases event <;> simp [Frame.holder,Frame.holds,Frame.connects,Frame.closes,Frame.waits,
      Core.setFlights]
    all_goals omega
  case starts => exact Or.inl
  all_goals simp [Frame.locks,Frame.connects,Frame.registers,Frame.shuts,Core.setFlights]

/-- A call from outside, or a completion, which stands for its operation. -/
theorem enter_moves {e : Entry} (h : enter c e=some (c',fs)) : Moves c c' [] fs := by
  cases e with
  | completion event result numOfBytes =>
    simp only [enter] at h
    split at h <;> cases h
    rename_i hfly
    exact completion_moves hfly
  | _ =>
    simp only [enter] at h
    repeat' split at h
    all_goals cases h
    all_goals constructor
    all_goals simp_all [Frame.registration,Frame.completion,Frame.locks,Frame.holder,Frame.holds,
      Frame.connects,Frame.closes,Frame.waits,Frame.owns,Frame.owned,Frame.registers,Frame.shuts,
      Core.inFlight]

/-- What holds of the fields and of the frames of all threads in every state: what is pending is
counted, `_io_lock` has one holder, every event has at most one user, `_is_send_register` says whether
the send event has one as long as the session may be connected, and the events in use have owners. -/
structure Inv (c : Core) (m : Multiset Frame) : Prop where
  io : c.pendingIo=weight Frame.registration m+weight Frame.completion m+c.inFlight
  sound : c.crashed=false ∧ c.expired=false
  lock : weight Frame.locks m=c.ioLock.toNat
  recv : (!c.offered).toNat+weight (Frame.holder .recv) m+c.flights .recv ≤ 1
  connection : (!c.offered).toNat+weight Frame.connects m+c.isConnect.toNat+
    weight (Frame.holder .disconnect) m+c.flights .disconnect ≤ 1
  closing : c.shutdownStarted=false → (!c.offered).toNat+weight Frame.connects m+c.isConnect.toNat+
    weight Frame.closes m+c.flights .disconnect ≤ 1
  send : weight (Frame.holder .send) m+c.flights .send ≤ 1
  tokens : c.shutdownStarted=false →
    weight (Frame.holder .send) m+weight Frame.waits m+c.flights .send ≤ 1
  flag : c.shutdownStarted=false →
    0<(!c.offered).toNat+weight Frame.connects m+c.isConnect.toNat →
    weight (Frame.holder .send) m+weight Frame.waits m+c.flights .send=c.isSendRegister.toNat
  fresh : c.shutdownStarted=false → 0<(!c.offered).toNat+weight Frame.connects m →
    c.isSendRegister=false
  owner : ∀ event, 0<weight (Frame.owns event) m+c.flights event → c.owner event
  quiet : c.shutdownStarted → weight Frame.registers m=0
  shuts : 0<weight Frame.shuts m → c.shutdownStarted
  released : c.released → c.shutdownStarted

namespace Inv

variable {m : Multiset Frame}

theorem init : Inv Core.init 0 := by
  constructor <;> simp [Core.init,Core.inFlight]

/-- An event has at most one user. -/
theorem sole (h : Inv c m) (event : Event) : weight (Frame.holder event) m+c.flights event ≤ 1 := by
  have hr := h.recv
  have hc := h.connection
  cases event with
  | recv => omega
  | send => exact h.send
  | disconnect => omega

theorem ready (h : Inv c (f::ₘm)) : Ready c f := by
  obtain ⟨hio,-,hlock,-,-,-,-,-,-,-,howner,-,hshuts,-⟩ := h
  simp only [weight_cons] at hio hlock howner hshuts
  refine ⟨fun hf => by omega,fun event hf => howner event ?_,fun hf => ?_,
    fun hf => hshuts (by omega)⟩
  · simp [Frame.owns,hf]
  · cases hl : c.ioLock with
    | true => rfl
    | false =>
      rw [hl,Bool.toNat_false] at hlock
      omega

/-- The registration of the send event after a step: never given out twice, and known to the flag. -/
theorem moves_token (h : Inv c (gs+m)) (hm : Moves c c' gs fs) (hs : c.shutdownStarted=false) :
    weight (Frame.holder .send) (fs+m)+weight Frame.waits (fs+m)+c'.flights .send ≤ 1 ∧
    (0<(!c'.offered).toNat+weight Frame.connects (fs+m)+c'.isConnect.toNat →
      weight (Frame.holder .send) (fs+m)+weight Frame.waits (fs+m)+c'.flights .send=
        c'.isSendRegister.toNat) ∧
    (0<(!c'.offered).toNat+weight Frame.connects (fs+m) → c'.isSendRegister=false) := by
  have hfresh' := hm.fresh
  have hopens' := hm.opens
  have hclosing := h.closing hs
  have htokens := h.tokens hs
  have hflag := h.flag hs
  have hfresh := h.fresh hs
  have hone := h.connection
  simp only [weight_add] at hclosing htokens hflag hfresh hone ⊢
  rcases hm.token with ⟨he,hr⟩|⟨he,hr⟩|⟨hc,hr,hr',he⟩
  · refine ⟨by omega,fun hpos => ?_,fun hpos => ?_⟩
    · rcases hr with hr|hr
      · rw [hr]
        have := hflag (by omega)
        omega
      · omega
    · rcases hr with hr|hr
      · rw [hr]
        exact hfresh (by omega)
      · omega
  · -- who gives it back without the flag finds the session closed
    refine ⟨by omega,fun hpos => ?_,fun hpos => ?_⟩
    · have hold := hflag (by omega)
      rcases hr with hr|⟨hr,hc|hc⟩
      · rw [hr,Bool.toNat_false]
        have := Bool.toNat_le c.isSendRegister
        omega
      · rw [hc,Bool.toNat_false] at hopens'
        rw [hfresh (by omega),Bool.toNat_false] at hold
        omega
      · simp [hs] at hc
    · rcases hr with hr|⟨hr,-⟩
      · exact hr
      · rw [hr]
        exact hfresh (by omega)
  · have hold := hflag (by rw [hc,Bool.toNat_true]; omega)
    rw [hr,Bool.toNat_false] at hold
    rw [hc,Bool.toNat_true] at hone
    refine ⟨by omega,fun _ => ?_,fun hpos => ?_⟩
    · rw [hr',Bool.toNat_true]
      omega
    · omega

theorem moves_owner (h : Inv c (gs+m)) (hm : Moves c c' gs fs) (event : Event)
    (hw : 0<weight (Frame.owns event) (fs+m)+c'.flights event) : c'.owner event := by
  have hsole := h.sole event
  have hold := h.owner event
  simp only [weight_add] at hsole hold hw
  rcases hm.owner event with ho|⟨ho,hle⟩|⟨hf,hz,he⟩
  · exact ho
  · rw [ho]
    exact hold (by omega)
  · -- the thread is the only user, so nobody else relies on the owner
    have hmono := Pool.weight_mono (Frame.owns_le_holder event) m
    omega

theorem moves (h : Inv c (gs+m)) (hm : Moves c c' gs fs) : Inv c' (fs+m) := by
  have hback : c'.shutdownStarted=false → c.shutdownStarted=false := fun hs => by
    cases hc : c.shutdownStarted with
    | false => rfl
    | true => simp [(hm.keeps hc).1] at hs
  have htoken := fun hs => h.moves_token hm (hback hs)
  have howner := h.moves_owner hm
  obtain ⟨hio,⟨hcrash,hexp⟩,hlock,hrecv,-,-,hcon,hclosing,hsend,-,-,hkeeps,hstarts,hshuts,hrel,-⟩ := hm
  obtain ⟨hio0,hsound0,hlock0,hrecv0,hcon0,hclosing0,hsend0,htokens0,-,-,-,hquiet0,hshuts0,hrel0⟩ := h
  simp only [weight_add] at hio0 hlock0 hrecv0 hcon0 hclosing0 hsend0 htokens0 hquiet0 hshuts0
  have hshut : 0<total Frame.shuts gs → c'.shutdownStarted := fun hs =>
    (hkeeps (hshuts0 (by omega))).1
  refine
    { io := ?_, sound := ⟨hcrash.trans hsound0.1,hexp.trans hsound0.2⟩, lock := ?_, recv := ?_,
      connection := ?_, closing := fun hs => ?_, send := ?_, tokens := fun hs => (htoken hs).1,
      flag := fun hs => (htoken hs).2.1, fresh := fun hs => (htoken hs).2.2, owner := howner,
      quiet := fun hs => ?_, shuts := fun hw => ?_,
      released := fun hr => (hrel hr).elim (fun hr => (hkeeps (hrel0 hr)).1) hshut }
  · simp only [weight_add]
    omega
  · simp only [weight_add]
    omega
  · simp only [weight_add]
    omega
  · simp only [weight_add]
    omega
  · have := hclosing (hback hs)
    have := hclosing0 (hback hs)
    simp only [weight_add]
    omega
  · simp only [weight_add]
    rcases hsend with hle|⟨hs,hle⟩
    · omega
    · have := htokens0 hs
      omega
  · simp only [weight_add]
    by_cases hc : c.shutdownStarted
    · have := hquiet0 hc
      have := (hkeeps hc).2
      omega
    · -- whoever registers holds the lock that `begin_shutdown` has just taken
      rcases hstarts hs with hc'|⟨hl,hz⟩
      · exact absurd hc' hc
      · have := Pool.weight_mono Frame.registers_le_locks m
        rw [hl,Bool.toNat_false] at hlock0
        omega
  · rw [weight_add] at hw
    by_cases hz : 0<total Frame.shuts fs
    · exact (hshuts hz).elim id hshut
    · exact (hkeeps (hshuts0 (by omega))).1

end Inv

variable {T : Type*} [Fintype T] [DecidableEq T] {s s' : State T}

/-- Every step of the pool is a move of the session. -/
theorem step_moves (h : Inv s.core (pending s.calls)) {a : Action T} (hs : step s a=some s') :
    ∃ gs fs : List Frame, ∃ m : Multiset Frame, pending s.calls=gs+m ∧ pending s'.calls=fs+m ∧
      Moves s.core s'.core gs fs := by
  rcases Pool.step_cases hs with ⟨t,o,f,fs,m,-,-,hx,hm,hm'⟩|⟨t,e,fs,-,hx,hm'⟩
  · rw [hm] at h
    exact ⟨[f],fs,m,hm,hm',exec_moves h.ready hx⟩
  · exact ⟨[],fs,pending s.calls,(zero_add _).symm,hm',enter_moves hx⟩

theorem step_inv (h : Inv s.core (pending s.calls)) {a : Action T} (hs : step s a=some s') :
    Inv s'.core (pending s'.calls) := by
  obtain ⟨gs,fs,m,hm,hm',hmoves⟩ := step_moves h hs
  rw [hm] at h
  rw [hm']
  exact h.moves hmoves

theorem reaches_inv (h : Reaches step Any init s) : Inv s.core (pending s.calls) := by
  refine h.invariant (P:=fun s => Inv s.core (pending s.calls)) ?_ fun _ _ _ hi _ => step_inv hi
  rw [init,Pool.pending_init]
  exact Inv.init

/-- A session that is shutting down begins nothing, now and later. -/
theorem step_begun (h : Inv s.core (pending s.calls)) (hd : s.core.shutdownStarted) {a : Action T}
    (hs : step s a=some s') : s'.core.shutdownStarted ∧ s'.core.begun=s.core.begun := by
  obtain ⟨gs,fs,m,hm,-,hmoves⟩ := step_moves h hs
  have hquiet := h.quiet hd
  rw [hm,weight_add] at hquiet
  exact ⟨(hmoves.keeps hd).1,hmoves.begun (by omega)⟩

theorem reaches_begun (h : Inv s.core (pending s.calls)) (hd : s.core.shutdownStarted)
    (hr : Reaches step Any s s') : s'.core.begun=s.core.begun := by
  have hall := hr.invariant
    (P:=fun x => Inv x.core (pending x.calls) ∧ x.core.shutdownStarted ∧ x.core.begun=s.core.begun)
    ⟨h,hd,rfl⟩ fun x a y hx _ hs =>
      ⟨step_inv hx.1 hs,(step_begun hx.1 hx.2.1 hs).1,
        (step_begun hx.1 hx.2.1 hs).2.trans hx.2.2⟩
  exact hall.2.2

/-- Operations that are begun and not finished: registration in progress, in flight or callback
running. -/
def unfinished (s : State T) : Nat :=
  weight Frame.registration (pending s.calls)+s.core.inFlight+
    weight Frame.completion (pending s.calls)

/-- `_pending_io` counts the unfinished operations, every event has at most one of them in flight and
then an owner, and after `begin_shutdown` nothing is begun; the assertion of `finish_io` never fires
and no completion is dropped. -/
theorem pending_io_exact (h : Reaches step Any init s) :
    s.core.pendingIo=unfinished s ∧ s.core.crashed=false ∧
    (∀ event, s.core.flights event ≤ 1) ∧
    (∀ event, 0<s.core.flights event → s.core.owner event) ∧ s.core.expired=false ∧
    (s.core.released → ∀ s', Reaches step Any s s' → s'.core.begun=s.core.begun) := by
  have hi := reaches_inv h
  refine ⟨?_,hi.sound.1,fun event => ?_,fun event hf => ?_,hi.sound.2,fun hr s' hs => ?_⟩
  · have := hi.io
    unfold unfinished
    omega
  · have := hi.sole event
    omega
  · exact hi.owner event (by omega)
  · exact reaches_begun hi (hi.released hr) hs

/-- The session is shut down with a receive and a send in flight and begins nothing more. -/
theorem pending_io_exact_shutdown :
    ∃ s : State Unit, Reaches step Any init s ∧ s.core.pendingIo=2 ∧ unfinished s=2 ∧
      s.core.owner .recv ∧ s.core.owner .send ∧
      ∀ s', Reaches step Any s s' → s'.core.begun=2 := by
  let run : Action Unit := .run () ⟨.pending,true,none⟩
  have hrun : (runActions step (init : State Unit)
      ([.enter () .processConnect]++List.replicate 6 run++
        [.enter () (.send (SendBuffer.copyData [1,2]))]++List.replicate 9 run++
        [.enter () .beginShutdown]++List.replicate 6 run)).map
      (fun s => (s.core.pendingIo,s.core.begun,s.core.released,
        [s.core.flights .recv,s.core.flights .send]))=some (2,2,true,[1,1]) := by decide +kernel
  obtain ⟨s,hs,hfields⟩ := Option.map_eq_some_iff.mp hrun
  simp only [Prod.mk.injEq,List.cons.injEq,and_true] at hfields
  obtain ⟨hpending,hbegun,hreleased,hrecv,hsend⟩ := hfields
  have hreach : Reaches step Any init s := Reaches.of_runActions (fun _ _ => trivial) _ hs
  obtain ⟨hio,-,-,howner,-,hend⟩ := pending_io_exact hreach
  exact ⟨s,hreach,hpending,hio ▸ hpending,howner .recv (by omega),howner .send (by omega),
    fun s' hs' => (hend hreleased s' hs').trans hbegun⟩

end IocpServer.NetWork.OverlappedIo
