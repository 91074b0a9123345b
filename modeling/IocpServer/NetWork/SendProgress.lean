import IocpServer.NetWork.SendIntegrity

namespace IocpServer.NetWork.SendPipeline

/-- The bytes come from at most one full queue of accepted buffers. -/
def Carried (accepted : List SendBuffer) (bytes : List UInt8) : Prop :=
  ∃ bs : List SendBuffer, bs.length ≤ maxSendQueueSize ∧ (∀ b∈bs, b∈accepted) ∧
    bytes.length ≤ (bs.map SendBuffer.writeSize).sum

theorem Carried.mono {accepted : List SendBuffer} {bytes : List UInt8} (h : Carried accepted bytes)
    (new : List SendBuffer) : Carried (accepted++new) bytes := by
  obtain ⟨bs,hlen,hmem,hle⟩ := h
  exact ⟨bs,hlen,fun b hb => List.mem_append_left _ (hmem b hb),hle⟩

/-- Buffers of at most 65535 bytes make up less than `int32` can count. -/
theorem Carried.lt {accepted : List SendBuffer} {bytes : List UInt8} (h : Carried accepted bytes)
    (hsmall : ∀ b∈accepted, b.writeSize ≤ 65535) : bytes.length<2^31 := by
  obtain ⟨bs,hlen,hmem,hle⟩ := h
  have hsum : (bs.map SendBuffer.writeSize).sum ≤ bs.length*65535 := by
    have hbound := List.sum_le_card_nsmul (bs.map SendBuffer.writeSize) 65535 (by
      intro n hn
      obtain ⟨b,hb,rfl⟩ := List.mem_map.mp hn
      exact hsmall b (hmem b hb))
    rwa [List.length_map,Nat.nsmul_eq_mul] at hbound
  have hqueue : bs.length*65535 ≤ maxSendQueueSize*65535 := Nat.mul_le_mul_right _ hlen
  simp only [maxSendQueueSize] at hqueue
  omega

/-- Queue and batch hold at most 1000 accepted buffers each, and a batch that is sent is given up. -/
structure Bounded (s : Session) : Prop where
  queue : s.sendQueue.length ≤ maxSendQueueSize
  batch : s.sendEvent.sendBuffers.length ≤ maxSendQueueSize
  packed : s.sendEvent.hasPendingData=false → s.sendEvent.sendBuffers=[]
  queued : ∀ b∈s.sendQueue, b∈s.accepted
  batched : ∀ b∈s.sendEvent.sendBuffers, b∈s.accepted
  flight : ∀ bytes, s.flight=some bytes → Carried s.accepted bytes

namespace Bounded

variable {s σ : Session} {pc pc' : At}

theorem init (c : Bool) : Bounded (Session.init c) :=
  ⟨Nat.zero_le _,Nat.zero_le _,fun _ => rfl,nofun,nofun,nofun⟩

/-- The other fields of the session do not matter. -/
theorem keep (h : Bounded s) (hq : σ.sendQueue=s.sendQueue) (he : σ.sendEvent=s.sendEvent)
    (ha : σ.accepted=s.accepted) (hf : σ.flight=s.flight ∨ σ.flight=none) : Bounded σ := by
  obtain ⟨hqueue,hbatch,hpacked,hqueued,hbatched,hflight⟩ := h
  refine ⟨hq ▸ hqueue,he ▸ hbatch,he ▸ hpacked,?_,?_,?_⟩
  · rw [hq,ha]
    exact hqueued
  · rw [he,ha]
    exact hbatched
  · intro bytes hb
    rw [ha]
    rcases hf with hf|hf
    · exact hflight bytes (hf ▸ hb)
    · rw [hf] at hb
      cases hb

theorem clear (h : Bounded s) (hq : σ.sendQueue=s.sendQueue) (he : σ.sendEvent=SendEvent.clear)
    (ha : σ.accepted=s.accepted) (hf : σ.flight=s.flight) : Bounded σ := by
  refine ⟨hq ▸ h.queue,he ▸ Nat.zero_le _,he ▸ fun _ => rfl,?_,?_,?_⟩
  · rw [hq,ha]
    exact h.queued
  · rw [he]
    exact nofun
  · rw [ha,hf]
    exact h.flight

theorem carried_rest (h : Bounded s) : Carried s.accepted s.sendEvent.rest := by
  refine ⟨s.sendEvent.sendBuffers.drop s.sendEvent.bufferIndex,?_,?_,?_⟩
  · have := h.batch
    rw [List.length_drop]
    omega
  · exact fun b hb => h.batched b (List.mem_of_mem_drop hb)
  · rw [← SendEvent.remaining_eq]
    exact Nat.sub_le _ _

theorem move (h : Bounded s) (hm : Move s pc σ pc') : Bounded σ := by
  cases hm with
  | accept b hon hroom =>
    refine ⟨?_,h.batch,h.packed,?_,?_,?_⟩
    · change (s.sendQueue++[b]).length ≤ _
      rw [List.length_append,List.length_singleton]
      exact hroom
    · intro x hx
      rcases List.mem_append.mp hx with hx|hx
      · exact List.mem_append_left _ (h.queued x hx)
      · exact List.mem_append_right _ hx
    · exact fun x hx => List.mem_append_left _ (h.batched x hx)
    · exact fun bytes hb => (h.flight bytes hb).mono [b]
  | drain hp =>
    -- the event was cleared, so the batch is the queue
    have hbatch : (s.sendEvent.push s.sendQueue).sendBuffers=s.sendQueue := by
      change s.sendEvent.sendBuffers++s.sendQueue=s.sendQueue
      rw [h.packed hp,List.nil_append]
    refine ⟨Nat.zero_le _,?_,?_,nofun,?_,h.flight⟩
    · change (s.sendEvent.push s.sendQueue).sendBuffers.length ≤ _
      rw [hbatch]
      exact h.queue
    · intro hnone
      change (s.sendEvent.push s.sendQueue).sendBuffers=[]
      have hindex : s.sendEvent.bufferIndex=0 := by
        have hin := s.sendEvent.inBounds.1
        rw [h.packed hp] at hin
        exact Nat.le_zero.mp hin
      have hdone : ¬s.sendEvent.bufferIndex<(s.sendEvent.push s.sendQueue).sendBuffers.length := by
        simpa [SendEvent.hasPendingData,SendEvent.push] using hnone
      rw [hindex] at hdone
      exact List.eq_nil_of_length_eq_zero (Nat.eq_zero_of_not_pos hdone)
    · intro b hb
      change b∈(s.sendEvent.push s.sendQueue).sendBuffers at hb
      rw [hbatch] at hb
      exact h.queued b hb
  | fly hbufs =>
    refine ⟨h.queue,h.batch,h.packed,h.queued,h.batched,?_⟩
    intro bytes hb
    cases hb
    exact h.carried_rest
  | remainder n e hn hp =>
    have hsame := SendEvent.consumeSentBytes_sendBuffers hn
    refine ⟨h.queue,hsame ▸ h.batch,fun hno => ?_,h.queued,hsame ▸ h.batched,h.flight⟩
    change e.hasPendingData=false at hno
    rw [hp] at hno
    cases hno
  | nothing | failed | completedOff | refuse | whole => exact h.clear rfl rfl rfl rfl
  | _ => exact h.keep rfl rfl rfl (Or.inl rfl)

end Bounded

namespace At

/-- On the way to `WSASend` there is something to send. -/
def Loaded (s : Session) : At → Prop
  | .registerSend | .drain => s.sendEvent.hasPendingData=true ∨ s.sendQueue≠[]
  | .transmit => s.sendEvent.hasPendingData=true
  | _ => True

/-- The thread is in `send`, `register_send`, `process_send` or `disconnect`. -/
def inside : At → Bool
  | .idle | .processDisconnect | .closeFlags | .beginShutdown => false
  | _ => true

theorem loaded_of_token {s : Session} {pc : At} (h : pc.token=0) : pc.Loaded s := by
  cases pc with
  | registerSend | drain | transmit => cases h
  | _ => trivial

theorem Loaded.mono {s σ : Session} {pc : At} (h : pc.Loaded s) (he : σ.sendEvent=s.sendEvent)
    (hq : s.sendQueue≠[] → σ.sendQueue≠[]) : pc.Loaded σ := by
  cases pc with
  | registerSend | drain =>
    rcases h with h|h
    · exact Or.inl (by rw [he]; exact h)
    · exact Or.inr (hq h)
  | transmit =>
    change σ.sendEvent.hasPendingData=true
    rw [he]
    exact h
  | _ => trivial

theorem token_of_inside {pc : At} (h : pc.inside=false) : pc.token=0 := by
  cases pc with
  | idle | processDisconnect | closeFlags | beginShutdown => rfl
  | _ => cases h

end At

section Move

variable {s σ : Session} {pc pc' : At}

/-- What the event holds after the queue was moved into it. -/
theorem hasPendingData_push {e : SendEvent} {bs : List SendBuffer} (hbs : bs≠[]) :
    (e.push bs).hasPendingData=true := by
  have hin := e.inBounds.1
  have hpos := List.length_pos_iff.mpr hbs
  rw [List.length_map] at hin
  apply decide_eq_true
  change e.bufferIndex<(e.sendBuffers++bs).length
  rw [List.length_append]
  omega

theorem Move.loaded (hm : Move s pc σ pc') (h : pc.Loaded s) : pc'.Loaded σ := by
  cases hm with
  | accept b hon hroom =>
    split
    · trivial
    · exact Or.inr (List.append_ne_nil_of_right_ne_nil _ (List.cons_ne_nil b []))
  | register => exact h
  | resume hp => exact hp
  | drain hp => exact hasPendingData_push (h.resolve_left (by rw [hp]; exact Bool.false_ne_true))
  | remainder n e hn hp => exact Or.inl hp
  | requeue hq => exact Or.inr hq
  | nothing | whole => split <;> trivial
  | _ => trivial

/-- A thread without the registration leaves the event alone and takes nothing from the queue. -/
theorem Move.quiet (hm : Move s pc σ pc') (h : pc.token=0) :
    σ.sendEvent=s.sendEvent ∧ (s.sendQueue≠[] → σ.sendQueue≠[]) := by
  cases hm with
  | accept b hon hroom =>
    exact ⟨rfl,fun _ => List.append_ne_nil_of_right_ne_nil _ (List.cons_ne_nil b [])⟩
  | registerOff | register | resume | drain | nothing | fly | failed | completedOff | completed
  | refuse | remainder | whole | refused | flushed | emptied | requeue => cases h
  | _ => exact ⟨rfl,id⟩

/-- Who gives the registration back while packets wait goes on to `disconnect`. -/
theorem Move.gives_back (hm : Move s pc σ pc') (hload : pc.Loaded s) (hpc : pc.token=1)
    (hpc' : pc'.token=0) (hflight : σ.flight=s.flight) (hfree : s.flight=none)
    (hshut : s.shutdownStarted=false) (hon : σ.isConnect=true) (hq : σ.sendQueue≠[]) :
    ∃ dropped, pc'=.disconnect dropped := by
  cases hm with
  | registerOff hoff =>
    rcases hoff with hoff|hoff
    · rw [hshut] at hoff
      cases hoff
    · rw [hoff] at hon
      cases hon
  | nothing hempty =>
    -- there was something to send, so the list of buffers was not empty
    have hnone := SendEvent.hasPendingData_of_buildWsabufs hempty
    change s.sendEvent.hasPendingData=true at hload
    rw [hload] at hnone
    cases hnone
  | fly hbufs =>
    rw [hfree] at hflight
    cases hflight
  | completedOff n hoff =>
    change s.isConnect=true at hon
    rw [hoff] at hon
    cases hon
  | emptied hempty => exact absurd hempty hq
  | failed | refused | flushed => exact ⟨_,rfl⟩
  | whole n e hn hp =>
    split at hpc' <;> cases hpc'
  | register | resume | drain | completed | refuse | remainder | requeue => cases hpc'
  | _ => cases hpc

/-- Packets wait after a step only if they waited before, or if the thread that accepted one holds
the registration or found it held. -/
theorem Move.waiting (hm : Move s pc σ pc') (hq : σ.sendQueue≠[]) :
    s.sendQueue≠[] ∨ pc'.token=1 ∨ (s.isConnect=true ∧ s.isSendRegister=true) := by
  cases hm with
  | accept b hon hroom =>
    cases hr : s.isSendRegister with
    | true => exact Or.inr (Or.inr ⟨hon,rfl⟩)
    | false => exact Or.inr (Or.inl rfl)
  | drain hp => exact absurd rfl hq
  | _ => exact Or.inl hq

theorem Move.flying (hm : Move s pc σ pc') : s.flying ≤ σ.flying := by
  cases hm with
  | fly =>
    simp only [Session.flying,Option.isSome_some,if_true]
    split <;> omega
  | _ => exact Nat.le_refl _

theorem Move.disconnects {dropped : Bool} (hm : Move s (.disconnect dropped) σ pc') :
    σ.isConnect=false := by
  cases hm with
  | close => rfl
  | closed _ hoff => exact hoff

end Move

variable {T : Type} [Fintype T] [DecidableEq T]

/-- `step` over a transport that may report any count, also more than it was given. -/
def stepAnyCount (s : State T) : Action T → Option (State T)
  | .sendCompleted t n =>
    match s.session.flight with
    | some bytes =>
      s.enter t { s.session with flight := none, wire := s.session.wire++bytes.take n.toNat }
        (.processSend n)
    | none => none
  | a => step s a

/-- A call or a completion begins on a thread that is in none of the functions. -/
structure Entered (s σ : Session) (pc : At) : Prop where
  event : σ.sendEvent=s.sendEvent
  queue : σ.sendQueue=s.sendQueue
  accepted : σ.accepted=s.accepted
  connect : σ.isConnect=s.isConnect
  flight : σ.flight=s.flight ∨ σ.flight=none
  loaded : pc.Loaded σ
  holder : s.flying ≤ pc.token+σ.flying
  moves : Moves s σ .idle pc

theorem stepAnyCount_cases {s s' : State T} {a : Action T} (hi : TokenInv s)
    (hs : stepAnyCount s a=some s') :
    ∃ t σ pc, s'=s.set t σ pc ∧ (s.threads t=.idle ∧ Entered s.session σ pc ∨
      Move s.session (s.threads t) σ pc ∧ Moves s.session σ (s.threads t) pc) := by
  cases a with
  | send t b | disconnect t | beginShutdown t =>
    obtain ⟨hidle,rfl,-⟩ := hi.enter hs
    exact ⟨t,_,_,rfl,Or.inl ⟨hidle,⟨rfl,rfl,rfl,rfl,Or.inl rfl,trivial,Nat.le_add_left _ _,
      Moves.same rfl (by simp [At.closing])⟩⟩⟩
  | run t ok =>
    simp only [stepAnyCount,step,Option.map_eq_some_iff] at hs
    obtain ⟨⟨σ,pc⟩,ha,rfl⟩ := hs
    exact ⟨t,σ,pc,rfl,Or.inr ⟨advance_move ha,
      advance_moves (fun ht => (hi.sole (by rw [ht]; rfl)).1) ha⟩⟩
  | sendCompleted t n =>
    simp only [stepAnyCount] at hs
    split at hs
    · rename_i bytes hf
      obtain ⟨hidle,rfl,-⟩ := hi.enter hs
      exact ⟨t,_,_,rfl,Or.inl ⟨hidle,⟨rfl,rfl,rfl,rfl,Or.inr rfl,trivial,
        by simp [At.token,Session.flying,hf],
        Moves.keep (by simp [At.token,Session.flying,hf]) rfl rfl rfl rfl (by simp [At.closing])⟩⟩⟩
    · cases hs
  | disconnectCompleted t =>
    simp only [stepAnyCount,step] at hs
    split at hs
    · rename_i hd
      obtain ⟨hidle,rfl,-⟩ := hi.enter hs
      exact ⟨t,_,_,rfl,Or.inl ⟨hidle,⟨rfl,rfl,rfl,rfl,Or.inl rfl,trivial,Nat.le_add_left _ _,
        Moves.close rfl (hi.disconnecting hd) (by simp)⟩⟩⟩
    · cases hs

/-- On the way to `WSASend` there is something to send, and as long as packets wait on a connected
session somebody holds the registration or is about to disconnect. -/
structure Served (s : State T) : Prop where
  loaded : ∀ t, (s.threads t).Loaded s.session
  served : s.session.isConnect=true → s.session.sendQueue≠[] →
    0<holders s ∨ ∃ t dropped, s.threads t=.disconnect dropped

namespace Served

variable {s : State T}

omit [DecidableEq T] in
theorem init (c : Bool) : Served (State.init c : State T) :=
  ⟨fun _ => trivial,fun _ hq => absurd rfl hq⟩

/-- While a packet waits, a thread that steps hands the responsibility on. -/
theorem responsible (h : Served s) (hi : TokenInv s) {t : T} {σ : Session} {pc : At}
    (hm : Move s.session (s.threads t) σ pc) (hconn : σ.isConnect=true → s.session.isConnect=true)
    (hon : σ.isConnect=true) (hq : σ.sendQueue≠[]) :
    0<holders (s.set t σ pc) ∨ ∃ u dropped, (s.set t σ pc).threads u=.disconnect dropped := by
  have hset := holders_set s t σ pc
  have hself := le_sum At.token s.threads t
  have hle := hi.le_one
  have hfly := hm.flying
  have hsum : holders s=∑ u, (s.threads u).token+s.session.flying := rfl
  have hown : ∀ u dropped, s.threads u=.disconnect dropped →
      ∃ v d, (s.set t σ pc).threads v=.disconnect d := by
    intro u dropped hu
    have hne : u≠t := by
      rintro rfl
      have hoff := (hu ▸ hm).disconnects
      rw [hoff] at hon
      cases hon
    exact ⟨u,dropped,by simpa [State.set,Function.update_of_ne hne] using hu⟩
  by_cases hpos : 0<holders (s.set t σ pc)
  · exact Or.inl hpos
  right
  -- nobody holds the registration after the step, so the thread that took it gave it back
  have hheld : 0<holders s ∨ ∃ u dropped, s.threads u=.disconnect dropped := by
    rcases hm.waiting hq with hold|hnew|⟨hcon,hflag⟩
    · exact h.served (hconn hon) hold
    · omega
    · have hone := hi.flag hcon
      rw [hflag,Bool.toNat_true] at hone
      omega
  rcases hheld with hheld|⟨u,dropped,hu⟩
  · have hfree : s.session.flight=none := by
      cases hf : s.session.flight with
      | none => rfl
      | some bytes =>
        have hone : s.session.flying=1 := by simp [Session.flying,hf]
        omega
    have hzero : σ.flight=none := by
      cases hf : σ.flight with
      | none => rfl
      | some bytes =>
        have hone : σ.flying=1 := by simp [Session.flying,hf]
        omega
    have hnone : s.session.flying=0 := by simp [Session.flying,hfree]
    have hshut : s.session.shutdownStarted=false := by
      by_contra hs
      have hoff := hi.shutdown (Bool.eq_true_of_not_eq_false hs)
      rw [hconn hon] at hoff
      cases hoff
    obtain ⟨dropped,hd⟩ := hm.gives_back (h.loaded t) (by omega) (by omega)
      (hzero.trans hfree.symm) hfree hshut hon hq
    exact ⟨t,dropped,by simpa [State.set] using hd⟩
  · exact hown u dropped hu

theorem move (h : Served s) (hi : TokenInv s) {t : T} {σ : Session} {pc : At}
    (hm : Move s.session (s.threads t) σ pc)
    (hconn : σ.isConnect=true → s.session.isConnect=true) : Served (s.set t σ pc) := by
  refine ⟨fun u => ?_,fun hon hq => h.responsible hi hm hconn hon hq⟩
  by_cases hu : u=t
  · subst hu
    simpa [State.set] using hm.loaded (h.loaded u)
  · change (Function.update s.threads t pc u).Loaded σ
    rw [Function.update_of_ne hu]
    by_cases htoken : (s.threads u).token=0
    · exact At.loaded_of_token htoken
    · have hzero : (s.threads t).token=0 := by
        by_contra hne
        exact hu (hi.unique htoken hne)
      obtain ⟨he,hq⟩ := hm.quiet hzero
      exact (h.loaded u).mono he hq

/-- A thread enters one of the functions. -/
theorem enter (h : Served s) {t : T} {σ : Session} {pc : At} (hidle : s.threads t=.idle)
    (he : Entered s.session σ pc) : Served (s.set t σ pc) := by
  refine ⟨fun u => ?_,fun hon hwait => ?_⟩
  · change (Function.update s.threads t pc u).Loaded σ
    by_cases hu : u=t
    · rw [hu,Function.update_self]
      exact he.loaded
    · rw [Function.update_of_ne hu]
      exact (h.loaded u).mono he.event (he.queue ▸ id)
  · have hset := holders_set s t σ pc
    have hnone : At.idle.token=0 := rfl
    have hheld := he.holder
    rw [hidle,hnone] at hset
    rcases h.served (he.connect ▸ hon) (he.queue ▸ hwait) with hpos|⟨u,dropped,hu⟩
    · exact Or.inl (by omega)
    · refine Or.inr ⟨u,dropped,?_⟩
      have hne : u≠t := by
        rintro rfl
        rw [hidle] at hu
        cases hu
      simpa [State.set,Function.update_of_ne hne] using hu

end Served

/-- The invariants of a session whose transport reports any count. -/
structure Steady (s : State T) : Prop where
  token : TokenInv s
  bounded : Bounded s.session
  served : Served s

omit [DecidableEq T] in
theorem Steady.init (c : Bool) : Steady (State.init c : State T) :=
  ⟨TokenInv.init c,Bounded.init c,Served.init c⟩

theorem Steady.step {s s' : State T} {a : Action T} (h : Steady s)
    (hs : stepAnyCount s a=some s') : Steady s' := by
  obtain ⟨t,σ,pc,rfl,⟨hidle,he⟩|⟨hm,hmoves⟩⟩ := stepAnyCount_cases h.token hs
  · exact ⟨h.token.moves t (hidle ▸ he.moves),
      h.bounded.keep he.queue he.event he.accepted he.flight,h.served.enter hidle he⟩
  · exact ⟨h.token.moves t hmoves,h.bounded.move hm,h.served.move h.token hm hmoves.connect⟩

theorem reaches_steady {c : Bool} {s : State T} (hr : Reaches stepAnyCount Any (State.init c) s) :
    Steady s :=
  hr.invariant (Steady.init c) fun _ _ _ h _ hs => h.step hs

omit [DecidableEq T] in
/-- A connected session at rest has nothing left to send. -/
theorem Steady.rest {s : State T} (h : Steady s) (hon : s.session.isConnect=true)
    (hflight : s.session.flight=none) (hout : ∀ t, (s.threads t).inside=false) :
    s.session.sendQueue=[] ∧ s.session.isSendRegister=false := by
  have htokens : ∑ t, (s.threads t).token=0 :=
    (sum_eq_zero_iff At.token s.threads).mpr fun t => At.token_of_inside (hout t)
  have hzero : holders s=0 := by simp [holders,Session.flying,hflight,htokens]
  constructor
  · by_contra hq
    rcases h.served.served hon hq with hheld|⟨t,dropped,ht⟩
    · omega
    · have hin := hout t
      rw [ht] at hin
      cases hin
  · have hflag := h.token.flag hon
    rw [hzero] at hflag
    exact Bool.toNat_eq_zero.mp hflag.symm

/-- At most one send is in flight and none is begun before it completed, queue and batch stay
bounded, a count within buffers of at most 65535 bytes fits in `int32`, and a connected session at
rest has nothing left to send. -/
theorem send_never_stalls {c : Bool} {s : State T}
    (hr : Reaches stepAnyCount Any (State.init c) s) :
    (∀ t, s.threads t=.transmit → s.session.flight=none ∧ ∀ u, s.threads u=.transmit → u=t) ∧
    s.session.sendQueue.length ≤ 1000 ∧ s.session.sendEvent.sendBuffers.length ≤ 1000 ∧
    ((∀ b∈s.session.accepted, b.writeSize ≤ 65535) → ∀ bytes, s.session.flight=some bytes →
      ∀ n : BitVec 32, n.toNat ≤ bytes.length → n.toInt=n.toNat) ∧
    (s.session.isConnect=true → s.session.flight=none → (∀ t, (s.threads t).inside=false) →
      s.session.sendQueue=[] ∧ s.session.isSendRegister=false) := by
  have hsteady := reaches_steady hr
  have hi := hsteady.token
  have hbounded := hsteady.bounded
  refine ⟨?_,hbounded.queue,hbounded.batch,?_,hsteady.rest⟩
  · intro t ht
    refine ⟨(hi.sole (by rw [ht]; rfl)).1,fun u hu => ?_⟩
    exact hi.unique (by simp [hu,At.token]) (by simp [ht,At.token])
  · intro hsmall bytes hf n hle
    have hlt := (hbounded.flight bytes hf).lt hsmall
    exact BitVec.toInt_eq_toNat_of_lt (by omega)

/-- Two packets, the second of them queued while the first is being sent. -/
def twoSends : List (Action Bool) :=
  [Action.send true (SendBuffer.copyData [1,2])]++List.replicate 5 (Action.run true true)++
  [Action.send false (SendBuffer.copyData [3])]++List.replicate 2 (Action.run false true)++
  [Action.sendCompleted true 2]++List.replicate 6 (Action.run true true)++
  [Action.sendCompleted false 1]++List.replicate 3 (Action.run false true)

theorem send_never_stalls_twoSends :
    ∃ s, runActions stepAnyCount (State.init false) twoSends=some s ∧ s.session.wire=[1,2,3] ∧
      s.session.sendQueue=[] ∧ s.session.isSendRegister=false := by
  have hrun : (runActions stepAnyCount (State.init false) twoSends).map
      (fun s => (s.session.wire,s.session.isConnect,s.session.flight,
        (s.threads true).inside,(s.threads false).inside))=
      some ([1,2,3],true,none,false,false) := by
    decide +kernel
  obtain ⟨s,hs,hfields⟩ := Option.map_eq_some_iff.mp hrun
  simp only [Prod.mk.injEq] at hfields
  obtain ⟨hwire,hon,hflight,htrue,hfalse⟩ := hfields
  have hr := Reaches.of_runActions (fun _ _ => trivial) _ hs
  refine ⟨s,hs,hwire,(send_never_stalls hr).2.2.2.2 hon hflight fun t => ?_⟩
  cases t with
  | true => exact htrue
  | false => exact hfalse

end IocpServer.NetWork.SendPipeline
