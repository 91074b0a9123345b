import IocpServer.NetWork.SendProgress

namespace IocpServer.NetWork.SendPipeline

/-- A packet as the handlers send it: it has at least one byte, and its size fits in 16 bits. -/
def Packets (bs : List SendBuffer) : Prop := ∀ b∈bs, 0<b.writeSize ∧ b.writeSize ≤ 65535

theorem Packets.bytes_ne_nil {bs : List SendBuffer} (h : Packets bs) :
    ∀ c∈bs.map SendBuffer.bytes, c≠[] := by
  intro c hc
  obtain ⟨b,hb,rfl⟩ := List.mem_map.mp hc
  exact List.ne_nil_of_length_pos (by rw [SendBuffer.bytes_length]; exact (h b hb).1)

/-- The cursor of the event stands before an unsent byte or behind the last buffer. -/
def Standing (e : SendEvent) : Prop :=
  Batch.Inside (e.sendBuffers.map SendBuffer.bytes) e.bufferIndex e.bufferOffset

theorem Standing.clear : Standing SendEvent.clear := nofun

theorem Standing.push {e : SendEvent} (h : Standing e) {bs : List SendBuffer} (hbs : Packets bs) :
    Standing (e.push bs) := by
  unfold Standing SendEvent.push
  rw [List.map_append]
  exact Batch.Inside.append h e.inBounds hbs.bytes_ne_nil

theorem Standing.consumed {e e' : SendEvent} (h : Standing e) (hbs : Packets e.sendBuffers)
    {n : Int} (he : e.consumeSentBytes n=some e') : Standing e' := by
  unfold SendEvent.consumeSentBytes at he
  split at he
  · cases he
  · split at he
    · rename_i hle
      obtain ⟨i,o,hs,hin,-⟩ := Batch.skip_spec _ _ _ n.toNat e.inBounds (e.remaining_eq ▸ hle)
      rw [SendEvent.consume_of_skip hle hin hs] at he
      cases he
      exact Batch.skip_inside _ hbs.bytes_ne_nil h hs
    · cases he

/-- What is pending has bytes. -/
theorem Standing.rest_eq_nil {e : SendEvent} (h : Standing e) :
    e.rest=[] ↔ e.hasPendingData=false := by
  refine (Batch.rest_eq_nil_iff h).trans ?_
  simp [SendEvent.hasPendingData]

variable {T : Type} [DecidableEq T] {s s' : State T}

theorem stepAnyCount_of_step {a : Action T} (hs : step s a=some s') : stepAnyCount s a=some s' := by
  cases a with
  | sendCompleted t n =>
    simp only [step,stepAnyCount] at hs ⊢
    cases hf : s.session.flight with
    | none =>
      rw [hf] at hs
      cases hs
    | some bytes =>
      simp only [hf] at hs ⊢
      split at hs
      · exact hs
      · cases hs
  | _ => exact hs

theorem steady_of_reaches [Fintype T] {ok : State T → Action T → Prop} {c : Bool}
    (hr : Reaches step ok (State.init c) s) : Steady s :=
  hr.invariant (Steady.init c) fun _ _ _ h _ hs => h.step (stepAnyCount_of_step hs)

theorem set_self {t : T} {pc : At} (ht : s.threads t=pc) : s.set t s.session pc=s := by
  rw [← ht,State.set,Function.update_eq_self]

/-- Thread `t` takes its next step in a run. -/
theorem reaches_run {x : State T} {t : T} {σ : Session} {pc : At}
    (hr : Reaches step Any s (x.set t σ pc)) (σ' : Session) (pc' : At)
    (ha : advance σ true pc=some (σ',pc')) : Reaches step Any s (x.set t σ' pc') :=
  hr.tail (a:=.run t true) trivial (by simp [step,State.set,ha])

/-- A completion of all that is left ends the batch. -/
theorem consumeSentBytes_all {e : SendEvent} (h : Standing e) (hbs : Packets e.sendBuffers)
    (hpending : e.hasPendingData=true) (hlt : e.rest.length<2^31) :
    ∃ e', e.consumeSentBytes (BitVec.ofNat 32 e.rest.length).toInt=some e' ∧
      e'.hasPendingData=false := by
  have hpos : 0<e.rest.length := by
    rw [List.length_pos_iff,ne_eq,h.rest_eq_nil,hpending]
    simp
  have hnat : (BitVec.ofNat 32 e.rest.length).toNat=e.rest.length := by
    rw [BitVec.toNat_ofNat]
    exact Nat.mod_eq_of_lt (by omega)
  rw [BitVec.toInt_eq_toNat_of_lt (by omega),hnat]
  cases hc : e.consumeSentBytes e.rest.length with
  | none =>
    rcases SendEvent.consumeSentBytes_none hc with hle|hgt
    · omega
    · rw [Int.toNat_natCast] at hgt
      omega
  | some e' =>
    refine ⟨e',rfl,(h.consumed hbs hc).rest_eq_nil.mp ?_⟩
    rw [(SendEvent.consumeSentBytes_some hc).2,Int.toNat_natCast,List.drop_length]

theorem Packets.length_lt {bs : List SendBuffer} (h : Packets bs)
    (hlen : bs.length ≤ maxSendQueueSize) : (streamOf bs).length<2^31 := by
  have hcarried : Carried bs (streamOf bs) :=
    ⟨bs,hlen,fun _ hb => hb,by simp [streamOf,List.length_flatten,Function.comp_def]⟩
  exact hcarried.lt fun b hb => (h b hb).2

/-- Undisturbed, the thread that holds the lock hands the whole queue over. -/
theorem flush {t : T} (ht : s.threads t=.drain) (hon : s.session.isConnect=true)
    (hevent : s.session.sendEvent=SendEvent.clear) (hflight : s.session.flight=none)
    (hclose : s.session.closeAfterSend=false) (hpackets : Packets s.session.sendQueue)
    (hlen : s.session.sendQueue.length ≤ maxSendQueueSize) :
    Reaches step Any s (s.set t { s.session with
      wire := s.session.wire++streamOf s.session.sendQueue, sendQueue := [],
      sendEvent := SendEvent.clear, isSendRegister := false, ioLock := false } .idle) := by
  have hstart : Reaches step Any s (s.set t s.session .drain) := by
    rw [set_self ht]
    exact .refl
  generalize hq : s.session.sendQueue=queue at hpackets hlen
  have hrest : (SendEvent.clear.push queue).rest=streamOf queue := SendEvent.rest_push rfl _
  have hdrain := reaches_run hstart
    { s.session with sendEvent := SendEvent.clear.push queue, sendQueue := [] } .transmit
    (by simp [advance,hevent,hq,SendEvent.hasPendingData,SendEvent.clear])
  by_cases hempty : queue=[]
  · refine reaches_run hdrain _ _ ?_
    simp [advance,hempty,SendEvent.buildWsabufs,SendEvent.push,SendEvent.clear,Batch.views,hclose]
  -- a send is registered and completes with all bytes
  have hpending : (SendEvent.clear.push queue).hasPendingData=true := hasPendingData_push hempty
  have hbufs : (SendEvent.clear.push queue).buildWsabufs≠[] := by
    intro hnone
    rw [SendEvent.hasPendingData_of_buildWsabufs hnone] at hpending
    cases hpending
  have hfly := reaches_run hdrain { s.session with
      sendEvent := SendEvent.clear.push queue, sendQueue := [], flight := some (streamOf queue),
      ioLock := false } .idle (by simp [advance,hbufs,hrest])
  have hlt := hpackets.length_lt hlen
  have hcount : (BitVec.ofNat 32 (streamOf queue).length).toNat=(streamOf queue).length := by
    rw [BitVec.toNat_ofNat]
    exact Nat.mod_eq_of_lt (by omega)
  have hcompleted := hfly.tail
    (a:=.sendCompleted t (BitVec.ofNat 32 (streamOf queue).length)) trivial
    (show step _ _=some (s.set t { s.session with
        wire := s.session.wire++streamOf queue, sendQueue := [],
        sendEvent := SendEvent.clear.push queue, flight := none, ioLock := false }
      (.processSend (BitVec.ofNat 32 (streamOf queue).length))) by
      simp [step,State.set,State.enter,hcount])
  obtain ⟨e,he,hdone⟩ := consumeSentBytes_all (Standing.clear.push hpackets) (by exact hpackets)
    hpending (by rwa [hrest])
  rw [hrest] at he
  have hconsume := reaches_run hcompleted _ (.consume (BitVec.ofNat 32 (streamOf queue).length))
    (if_pos hon)
  have hwhole := reaches_run hconsume { s.session with
      wire := s.session.wire++streamOf queue, sendQueue := [], sendEvent := SendEvent.clear,
      flight := none, ioLock := false } .requeue (by simp [advance,he,hdone,hclose])
  refine reaches_run hwhole _ _ ?_
  simp [advance,hflight]

/-- Undisturbed, a packet that finds the session at rest is handed over. -/
theorem send_reaches {t : T} (ht : s.threads t=.idle) (hon : s.session.isConnect=true)
    (hshut : s.session.shutdownStarted=false) (hlock : s.session.ioLock=false)
    (hflag : s.session.isSendRegister=false) (hevent : s.session.sendEvent=SendEvent.clear)
    (hqueue : s.session.sendQueue=[]) (hflight : s.session.flight=none)
    (hclose : s.session.closeAfterSend=false) {b : SendBuffer} (hb : Packets [b]) :
    Reaches step Any s (s.set t { s.session with
      accepted := s.session.accepted++[b], wire := s.session.wire++b.bytes } .idle) := by
  have hstart : Reaches step Any s (s.set t s.session (.send b)) :=
    Reaches.refl.tail (a:=.send t b) trivial (by simp [step,State.enter,ht])
  have henqueue := reaches_run hstart s.session (.enqueue b) (if_pos hon)
  have haccept := reaches_run henqueue { s.session with
      sendQueue := [b], accepted := s.session.accepted++[b], isSendRegister := true } .registerSend
    (by simp [advance,hon,hqueue,hflag,maxSendQueueSize])
  have hregister := reaches_run haccept { s.session with
      sendQueue := [b], accepted := s.session.accepted++[b], isSendRegister := true,
      ioLock := true } .drain (by simp [advance,hlock,hshut,hon])
  refine hregister.trans ?_
  have hflush := flush (s:=s.set t { s.session with
      sendQueue := [b], accepted := s.session.accepted++[b], isSendRegister := true,
      ioLock := true } .drain) (t:=t) (by simp [State.set]) hon hevent hflight hclose hb
    (by simp [State.set,maxSendQueueSize])
  simpa [State.set,streamOf,hqueue,hevent,hflag,hlock] using hflush

namespace At

/-- The byte count of a completion that is not yet consumed from the event. -/
def reported : At → Option (BitVec 32)
  | .processSend n | .consume n => some n
  | _ => none

/-- The thread has thrown buffers away and goes on to disconnect. -/
def discarded : At → Bool
  | .refused | .disconnect true => true
  | _ => false

theorem token_of_reported {pc : At} {n : BitVec 32} (h : pc.reported=some n) : pc.token=1 := by
  cases pc <;> first | rfl | cases h

end At

/-- The event is thrown away because `WSASend` or its completion fails. -/
structure Discards (s σ : Session) (pc pc' : At) : Prop where
  token : pc.token=1
  event : σ.sendEvent=SendEvent.clear
  queue : σ.sendQueue=s.sendQueue
  accepted : σ.accepted=s.accepted
  wire : σ.wire=s.wire
  flight : σ.flight=s.flight
  next : pc'=.refused ∨ pc'=.disconnect true
  cause : pc=.transmit ∨ ∃ n, pc=.consume n ∧ s.sendEvent.consumeSentBytes n.toInt=none

theorem Move.discards {s σ : Session} {pc pc' : At} (hm : Move s pc σ pc')
    (h : pc'.discarded=true) : pc=.refused ∨ Discards s σ pc pc' := by
  cases hm with
  | failed => exact Or.inr ⟨rfl,rfl,rfl,rfl,rfl,rfl,Or.inr rfl,Or.inl rfl⟩
  | refuse n hn => exact Or.inr ⟨rfl,rfl,rfl,rfl,rfl,rfl,Or.inl rfl,Or.inr ⟨n,rfl,hn⟩⟩
  | refused => exact Or.inl rfl
  | accept | nothing | whole => split at h <;> cases h
  | _ => cases h

/-- A thread that does not transmit leaves the event alone and at most queues a buffer. -/
theorem Move.adds {s σ : Session} {pc pc' : At} (hm : Move s pc σ pc') (h : pc.transmits=false) :
    σ.sendEvent=s.sendEvent ∧ σ.wire=s.wire ∧
      ∃ bs, σ.accepted=s.accepted++bs ∧ σ.sendQueue=s.sendQueue++bs := by
  cases hm with
  | accept b => exact ⟨rfl,rfl,[b],rfl,rfl⟩
  | resume | drain | nothing | fly | failed | completedOff | completed | refuse | remainder | whole
  | flushed | emptied | requeue => cases h
  | _ => exact ⟨rfl,rfl,[],by simp⟩

/-- Buffers that were accepted stay so. -/
theorem Move.accepted {s σ : Session} {pc pc' : At} (hm : Move s pc σ pc') :
    s.accepted <+: σ.accepted ∧ σ.closeAfterSend=s.closeAfterSend := by
  cases hm with
  | accept b => exact ⟨List.prefix_append _ _,rfl⟩
  | _ => exact ⟨List.prefix_rfl,rfl⟩

/-- A call or a completion begins: it leaves the buffers alone, and a completion reports at most
what was registered. -/
structure Calls (s σ : Session) (pc : At) : Prop where
  event : σ.sendEvent=s.sendEvent
  queue : σ.sendQueue=s.sendQueue
  accepted : σ.accepted=s.accepted
  closeAfterSend : σ.closeAfterSend=s.closeAfterSend
  connect : σ.isConnect=s.isConnect
  discarded : pc.discarded=false
  count : σ.wire=s.wire ∧ σ.flight=s.flight ∧ pc.reported=none ∨
    ∃ n bytes, s.flight=some bytes ∧ n.toNat ≤ bytes.length ∧ σ.flight=none ∧ pc=.processSend n

section

variable [Fintype T]

theorem step_calls {a : Action T} (hi : TokenInv s) (hs : step s a=some s') :
    ∃ t σ pc, s'=s.set t σ pc ∧ (s.threads t=.idle ∧ Calls s.session σ pc ∨
      ∃ ok, a=.run t ok ∧ Move s.session (s.threads t) σ pc) := by
  cases a with
  | send t b | disconnect t | beginShutdown t =>
    obtain ⟨hidle,rfl,-⟩ := hi.enter hs
    exact ⟨t,_,_,rfl,Or.inl ⟨hidle,rfl,rfl,rfl,rfl,rfl,rfl,Or.inl ⟨rfl,rfl,rfl⟩⟩⟩
  | run t ok =>
    simp only [step,Option.map_eq_some_iff] at hs
    obtain ⟨⟨σ,pc⟩,ha,rfl⟩ := hs
    exact ⟨t,σ,pc,rfl,Or.inr ⟨ok,rfl,advance_move ha⟩⟩
  | sendCompleted t n =>
    simp only [step] at hs
    split at hs
    · rename_i bytes hf
      split at hs
      · rename_i hle
        obtain ⟨hidle,rfl,-⟩ := hi.enter hs
        exact ⟨t,_,_,rfl,Or.inl ⟨hidle,rfl,rfl,rfl,rfl,rfl,rfl,
          Or.inr ⟨n,bytes,hf,hle,rfl,rfl⟩⟩⟩
      · cases hs
    · cases hs
  | disconnectCompleted t =>
    simp only [step] at hs
    split at hs
    · obtain ⟨hidle,rfl,-⟩ := hi.enter hs
      exact ⟨t,_,_,rfl,Or.inl ⟨hidle,rfl,rfl,rfl,rfl,rfl,rfl,Or.inl ⟨rfl,rfl,rfl⟩⟩⟩
    · cases hs

theorem step_accepted {a : Action T} (hi : TokenInv s) (hs : step s a=some s') :
    s.session.accepted <+: s'.session.accepted ∧
      s'.session.closeAfterSend=s.session.closeAfterSend := by
  obtain ⟨t,σ,pc,rfl,⟨-,hc⟩|⟨ok,-,hm⟩⟩ := step_calls hi hs
  · exact ⟨hc.accepted ▸ List.prefix_rfl,hc.closeAfterSend⟩
  · exact hm.accepted

/-- What is in flight is what the event has left, and a completion never reports more. -/
structure Full (s : State T) : Prop where
  standing : Standing s.session.sendEvent
  flight : ∀ bytes, s.session.flight=some bytes →
    bytes=s.session.sendEvent.rest ∧ s.session.sendEvent.rest≠[]
  reported : ∀ t n, (s.threads t).reported=some n →
    n.toNat ≤ s.session.sendEvent.rest.length ∧ s.session.sendEvent.rest≠[]

namespace Full

omit [Fintype T] [DecidableEq T] in
theorem init (c : Bool) : Full (State.init c : State T) := ⟨Standing.clear,nofun,nofun⟩

omit [Fintype T] in
/-- Thread `t` moves and the event stays as it is. -/
theorem frame (h : Full s) (t : T) {σ : Session} {pc : At}
    (he : σ.sendEvent=s.session.sendEvent) (hf : ∀ bytes, σ.flight=some bytes →
      s.session.flight=some bytes)
    (hr : ∀ n, pc.reported=some n → (s.threads t).reported=some n ∨
      n.toNat ≤ s.session.sendEvent.rest.length ∧ s.session.sendEvent.rest≠[]) :
    Full (s.set t σ pc) := by
  refine ⟨he ▸ h.standing,fun bytes hb => ?_,fun u n hu => ?_⟩
  · change bytes=σ.sendEvent.rest ∧ σ.sendEvent.rest≠[]
    rw [he]
    exact h.flight bytes (hf bytes hb)
  · change n.toNat ≤ σ.sendEvent.rest.length ∧ σ.sendEvent.rest≠[]
    rw [he]
    change (Function.update s.threads t pc u).reported=some n at hu
    by_cases hut : u=t
    · rw [hut,Function.update_self] at hu
      rcases hr n hu with hold|hnew
      · exact h.reported t n hold
      · exact hnew
    · rw [Function.update_of_ne hut] at hu
      exact h.reported u n hu

/-- The holder of the registration changes the event. -/
theorem holder (hi : TokenInv s) {t : T} {σ : Session} {pc : At} (ht : (s.threads t).token=1)
    (he : Standing σ.sendEvent)
    (hf : ∀ bytes, σ.flight=some bytes → bytes=σ.sendEvent.rest ∧ σ.sendEvent.rest≠[])
    (hr : pc.reported=none) : Full (s.set t σ pc) := by
  refine ⟨he,hf,fun u n hu => ?_⟩
  change (Function.update s.threads t pc u).reported=some n at hu
  by_cases hut : u=t
  · rw [hut,Function.update_self,hr] at hu
    cases hu
  · rw [Function.update_of_ne hut] at hu
    have htoken := At.token_of_reported hu
    exact absurd (hi.unique (by omega) (by omega)) hut

theorem move (h : Full s) (hs : Steady s) (hp : Packets s.session.accepted) {t : T} {σ : Session}
    {pc : At} (hm : Move s.session (s.threads t) σ pc) : Full (s.set t σ pc) := by
  have hloaded := hs.served.loaded t
  generalize hpc : s.threads t=pc₀ at hm hloaded
  have hnone : pc₀.token=1 → ∀ bytes, s.session.flight=some bytes → False := by
    intro htoken bytes hf
    rw [(hs.token.sole (by rw [hpc,htoken])).1] at hf
    cases hf
  cases hm with
  | drain hdone =>
    refine holder hs.token (by rw [hpc]; rfl) ?_ (fun bytes hf => (hnone rfl bytes hf).elim) rfl
    exact h.standing.push fun b hb => hp b (hs.bounded.queued b hb)
  | fly hbufs =>
    refine holder hs.token (by rw [hpc]; rfl) h.standing ?_ rfl
    intro bytes hf
    cases hf
    refine ⟨rfl,?_⟩
    rw [ne_eq,h.standing.rest_eq_nil,show s.session.sendEvent.hasPendingData=true from hloaded]
    simp
  | remainder n e hn =>
    refine holder hs.token (by rw [hpc]; rfl) ?_ (fun bytes hf => (hnone rfl bytes hf).elim) rfl
    exact h.standing.consumed (fun b hb => hp b (hs.bounded.batched b hb)) hn
  | nothing | failed | completedOff | refuse | whole =>
    refine holder hs.token (by rw [hpc]; rfl) Standing.clear
      (fun bytes hf => (hnone rfl bytes hf).elim) ?_
    first | rfl | (split <;> rfl)
  | completed n => exact h.frame t rfl (fun _ hf => hf) fun k hk => Or.inl (by rw [hpc]; exact hk)
  | accept =>
    refine h.frame t rfl (fun _ hf => hf) ?_
    intro k hk
    split at hk <;> cases hk
  | _ => exact h.frame t rfl (fun _ hf => hf) (by simp [At.reported])

theorem step (h : Full s) (hs : Steady s) (hp : Packets s.session.accepted) {a : Action T}
    (hstep : SendPipeline.step s a=some s') : Full s' := by
  obtain ⟨t,σ,pc,rfl,⟨hidle,hc⟩|⟨ok,-,hm⟩⟩ := step_calls hs.token hstep
  · rcases hc.count with ⟨-,hf,hr⟩|⟨n,bytes,hf,hle,hnone,rfl⟩
    · exact h.frame t hc.event (fun _ hb => hf ▸ hb) (by simp [hr])
    · obtain ⟨rfl,hne⟩ := h.flight bytes hf
      refine h.frame t hc.event (by simp [hnone]) ?_
      intro k hk
      cases hk
      exact Or.inr ⟨hle,hne⟩
  · exact h.move hs hp hm

end Full

theorem reaches_full {ok : State T → Action T → Prop} {c : Bool}
    (hr : Reaches SendPipeline.step ok (State.init c) s) (hp : Packets s.session.accepted) :
    Full s := by
  revert hp
  refine hr.invariant_of (P:=fun s => Packets s.session.accepted → Full s)
    (fun _ hx => steady_of_reaches hx) (fun _ => Full.init c) ?_
  intro x a y hsteady hx _ hs hp
  have hbefore : Packets x.session.accepted :=
    fun b hb => hp b ((step_accepted hsteady.token hs).1.subset hb)
  exact (hx hbefore).step hsteady hbefore hs

theorem Move.connect {s σ : Session} {pc pc' : At} (hm : Move s pc σ pc')
    (h : σ.isConnect=true) : s.isConnect=true := by
  cases hm with
  | close | closeFlags | beginShutdown => cases h
  | _ => exact h

/-- Bytes of accepted buffers were thrown away, and those behind them are still queued. -/
structure Lost (s : Session) : Prop where
  event : s.sendEvent=SendEvent.clear
  stream : ∃ dropped, dropped≠[] ∧ streamOf s.accepted=s.wire++dropped++streamOf s.sendQueue

theorem Lost.adds {s σ : Session} (h : Lost s) (he : σ.sendEvent=s.sendEvent) (hw : σ.wire=s.wire)
    (bs : List SendBuffer) (ha : σ.accepted=s.accepted++bs) (hq : σ.sendQueue=s.sendQueue++bs) :
    Lost σ := by
  obtain ⟨dropped,hne,hstream⟩ := h.stream
  refine ⟨he.trans h.event,dropped,hne,?_⟩
  rw [ha,hw,hq,streamOf_append,streamOf_append,hstream,List.append_assoc]

/-- When a send fails, what is left of the event is lost, and that is at least one byte. -/
theorem Live.lost (h : Live s) (hf : Full s) (hs : Steady s) (hp : Packets s.session.accepted)
    {t : T} {σ : Session} {pc : At} (hd : Discards s.session σ (s.threads t) pc) : Lost σ := by
  have hgone := (hs.token.sole hd.token).2
  refine ⟨hd.event,s.session.sendEvent.rest.drop (gone s),?_,?_⟩
  · rw [hgone]
    rcases hd.cause with hpc|⟨n,hpc,hnone⟩
    · have hloaded := hs.served.loaded t
      rw [hpc] at hloaded ⊢
      rw [show At.gone .transmit=0 from rfl,List.drop_zero,ne_eq,hf.standing.rest_eq_nil,
        show s.session.sendEvent.hasPendingData=true from hloaded]
      simp
    · obtain ⟨hle,hne⟩ := hf.reported t n (by rw [hpc]; rfl)
      have hlt := hs.bounded.carried_rest.lt fun b hb => (hp b hb).2
      have hint : n.toInt=n.toNat := BitVec.toInt_eq_toNat_of_lt (by omega)
      -- the count is neither negative nor too large, so it is 0
      have hzero : n.toNat=0 := by
        rcases SendEvent.consumeSentBytes_none hnone with hneg|hmany <;> omega
      rw [hpc,At.gone,hzero,List.drop_zero]
      exact hne
  · rw [hd.accepted,hd.wire,hd.queue]
    exact h.stream.symm

/-- Nothing has been thrown away, or the session is dead and has lost something. -/
def Window (s : State T) : Prop :=
  Live s ∧ (∀ t, (s.threads t).discarded=false) ∨
    Dead s ∧ (s.session.isConnect=true → Lost s.session)

omit [DecidableEq T] in
theorem Window.of_clean (h : Live s ∨ Dead s) (hclean : ∀ t, (s.threads t).discarded=false) :
    Window s := by
  rcases h with hlive|hdead
  · exact Or.inl ⟨hlive,hclean⟩
  · refine Or.inr ⟨hdead,fun hon => ?_⟩
    obtain ⟨t,ht|ht⟩ := hdead.window hon <;>
      exact absurd (hclean t) (by rw [ht]; simp [At.discarded])

theorem Window.step (h : Window s) (hf : Full s) (hs : Steady s) (hp : Packets s.session.accepted)
    {a : Action T} (hcareful : Careful s a) (hstep : SendPipeline.step s a=some s') :
    Window s' := by
  obtain ⟨t,σ,pc,heq,hcase⟩ := step_calls hs.token hstep
  rcases h with ⟨hlive,hclean⟩|⟨hdead,hlost⟩
  · by_cases hpc : pc.discarded=true
    · rcases hcase with ⟨-,hc⟩|⟨ok,-,hm⟩
      · rw [hc.discarded] at hpc
        cases hpc
      · rcases hm.discards hpc with hrefused|hd
        · exact absurd (hclean t) (by rw [hrefused]; simp [At.discarded])
        · refine Or.inr ⟨?_,fun _ => ?_⟩
          · rw [heq]
            refine hlive.dead hs.token hd.token ?_ hd.wire hd.accepted hd.flight fun _ => hd.next
            rcases hd.next with rfl|rfl <;> rfl
          · rw [heq]
            exact hlive.lost hf hs hp hd
    · refine Window.of_clean (hlive.step hs.token hstep) fun u => ?_
      rw [heq]
      change (Function.update s.threads t pc u).discarded=false
      by_cases hu : u=t
      · rw [hu,Function.update_self]
        exact Bool.eq_false_iff.mpr hpc
      · rw [Function.update_of_ne hu]
        exact hclean u
  · refine Or.inr ⟨hdead.step hs.token hcareful hstep,?_⟩
    rw [heq]
    intro hon
    rcases hcase with ⟨-,hc⟩|⟨ok,-,hm⟩
    · rcases hc.count with ⟨hw,-,-⟩|⟨n,bytes,hflight,-⟩
      · exact (hlost (hc.connect ▸ hon)).adds hc.event hw []
          (hc.accepted.trans (List.append_nil _).symm) (hc.queue.trans (List.append_nil _).symm)
      · rw [hdead.flight] at hflight
        cases hflight
    · obtain ⟨he,hw,bs,ha,hq⟩ := hm.adds (hdead.quiet t)
      exact (hlost (hm.connect hon)).adds he hw bs ha hq

theorem reaches_window {c : Bool} (hr : Reaches SendPipeline.step Careful (State.init c) s)
    (hp : Packets s.session.accepted) : Window s := by
  revert hp
  refine hr.invariant_of (P:=fun s => Packets s.session.accepted → Window s)
    (Q:=fun s => Steady s ∧ (Packets s.session.accepted → Full s)) ?_ ?_ ?_
  · exact fun x hx => ⟨steady_of_reaches hx,reaches_full hx⟩
  · exact fun _ => Or.inl ⟨Live.init c,fun _ => rfl⟩
  · intro x a y ⟨hsteady,hfull⟩ hx hcareful hs hp
    have hbefore : Packets x.session.accepted :=
      fun b hb => hp b ((step_accepted hsteady.token hs).1.subset hb)
    exact (hx hbefore).step (hfull hbefore) hsteady hbefore hcareful hs

theorem reaches_closeAfterSend {ok : State T → Action T → Prop} {c : Bool}
    (hr : Reaches SendPipeline.step ok (State.init c) s) : s.session.closeAfterSend=c :=
  hr.invariant_of (P:=fun s => s.session.closeAfterSend=c) (fun _ hx => steady_of_reaches hx) rfl
    fun _ _ _ hsteady hx _ hs => (step_accepted hsteady.token hs).2.trans hx

theorem exists_other (x : UInt8) : ∃ b, b≠x := by
  by_cases hx : x=0
  · exact ⟨1,by rw [hx]; decide⟩
  · exact ⟨0,Ne.symm hx⟩

/-- What follows a gap shows it, if the byte behind it is another one than the stream has there. -/
theorem not_prefix_of_gap {w d q : List UInt8} {b : UInt8} (hlt : q.length<(d++q).length)
    (hb : b≠(d++q)[q.length]) : ¬w++q++[b] <+: w++d++q++[b] := by
  intro h
  rw [List.append_assoc,List.append_assoc,List.append_assoc,List.prefix_append_right_inj,
    ← List.append_assoc] at h
  have hget := h.getElem (i:=q.length) (by simp)
  rw [List.getElem_append_left hlt,List.getElem_concat_length rfl] at hget
  exact hb hget

/-- The condition of `Careful` is needed: a thread that passes the check of `register_send` while
another stands between its failed send and the disconnect can go on to hand over a byte that does
not belong there. -/
theorem careless_step_breaks {t : T} {ok : Bool}
    (hr : Reaches SendPipeline.step Careful (State.init false) s) (hp : Packets s.session.accepted)
    (hcareless : ¬Careful s (.run t ok)) (hs : SendPipeline.step s (.run t ok)=some s') :
    ∃ s'', Reaches SendPipeline.step Any s' s'' ∧
      ¬s''.session.wire <+: streamOf s''.session.accepted := by
  simp only [Careful,not_forall,not_not] at hcareless
  obtain ⟨ht,hon,u,hu⟩ := hcareless
  have hsteady := steady_of_reaches hr
  have hclose := reaches_closeAfterSend hr
  obtain ⟨hdead,hlost⟩ : Dead s ∧ Lost s.session := by
    rcases reaches_window hr hp with ⟨-,hclean⟩|⟨hdead,hlost⟩
    · exact absurd (hclean u) (by rw [hu]; simp [At.discarded])
    · exact ⟨hdead,hlost hon⟩
  obtain ⟨dropped,hne,hstream⟩ := hlost.stream
  have hqueue : Packets s.session.sendQueue := fun b hb => hp b (hsteady.bounded.queued b hb)
  -- the thread hands over what is queued
  have hshut : s.session.shutdownStarted=false := by
    by_contra hshut
    rw [Bool.not_eq_false] at hshut
    rw [hsteady.token.shutdown hshut] at hon
    cases hon
  have hdrain : s'=s.set t { s.session with ioLock := true } .drain := by
    simp only [SendPipeline.step,Option.map_eq_some_iff] at hs
    obtain ⟨⟨σ,pc⟩,ha,rfl⟩ := hs
    have hm := advance_move ha
    rw [ht] at hm
    cases hm with
    | register => rfl
    | registerOff hoff => simp [hshut,hon] at hoff
  have hflushed : Reaches SendPipeline.step Any s' (s.set t { s.session with
      wire := s.session.wire++streamOf s.session.sendQueue, sendQueue := [],
      sendEvent := SendEvent.clear, isSendRegister := false, ioLock := false } .idle) := by
    rw [hdrain]
    have hflush := flush (s:=s.set t { s.session with ioLock := true } .drain) (t:=t)
      (by simp [State.set]) hon hlost.event hdead.flight hclose hqueue hsteady.bounded.queue
    simpa [State.set] using hflush
  -- then it sends a packet of one byte, which is not the byte that the stream has there
  have hlt : (streamOf s.session.sendQueue).length<
      (dropped++streamOf s.session.sendQueue).length := by
    have hpos := List.length_pos_iff.mpr hne
    rw [List.length_append]
    omega
  obtain ⟨b,hb⟩ := exists_other
    (dropped++streamOf s.session.sendQueue)[(streamOf s.session.sendQueue).length]
  have hsent := send_reaches (s:=s.set t { s.session with
      wire := s.session.wire++streamOf s.session.sendQueue, sendQueue := [],
      sendEvent := SendEvent.clear, isSendRegister := false, ioLock := false } .idle) (t:=t)
    (by simp [State.set]) hon hshut rfl rfl rfl rfl hdead.flight hclose (b:=SendBuffer.copyData [b])
    (by simp [Packets,SendBuffer.copyData])
  refine ⟨_,hflushed.trans hsent,?_⟩
  have hbytes : (SendBuffer.copyData [b]).bytes=[b] := rfl
  simp only [State.set,streamOf_append,hstream,hbytes]
  exact not_prefix_of_gap hlt hb

end

end IocpServer.NetWork.SendPipeline
