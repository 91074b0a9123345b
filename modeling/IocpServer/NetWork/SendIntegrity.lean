import IocpServer.NetWork.SendPipeline

namespace IocpServer.NetWork.SendPipeline

namespace At

/-- The thread has won `_is_send_register` and neither given it back nor registered a send. -/
def token : At → Nat
  | .registerSend | .drain | .transmit | .processSend _ | .consume _ | .refused | .flushed
  | .requeue => 1
  | _ => 0

/-- Bytes that are handed over and not yet consumed from the event. -/
def gone : At → Nat
  | .processSend n | .consume n => n.toNat
  | _ => 0

/-- The thread is past the exchange of `_is_connect` on the way to the disconnect. -/
def closing : At → Bool
  | .registerDisconnect | .processDisconnect | .closeFlags => true
  | _ => false

/-- The thread holds the registration and goes on to use the event or the queue. -/
def transmits : At → Bool
  | .drain | .transmit | .processSend _ | .consume _ | .flushed | .requeue => true
  | _ => false

theorem token_of_gone {pc : At} (h : pc.token=0) : pc.gone=0 := by
  cases pc <;> first | rfl | cases h

theorem token_of_transmits {pc : At} (h : pc.token=0) : pc.transmits=false := by
  cases pc <;> first | rfl | cases h

end At

def Session.flying (s : Session) : Nat := if s.flight.isSome then 1 else 0

variable {T : Type} [Fintype T]

def holders (s : State T) : Nat := ∑ t, (s.threads t).token+s.session.flying

def gone (s : State T) : Nat := ∑ t, (s.threads t).gone

/-- At most one thread or operation holds the registration, and while the session is connected
the flag says whether one does. -/
structure TokenInv (s : State T) : Prop where
  le_one : holders s ≤ 1
  flag : s.session.isConnect → holders s=s.session.isSendRegister.toNat
  shutdown : s.session.shutdownStarted → s.session.isConnect=false
  closing : ∀ t, (s.threads t).closing → s.session.isConnect=false
  disconnecting : s.session.disconnecting → s.session.isConnect=false

/-- What a step of one thread can do to the registration. -/
structure Moves (s σ : Session) (pc pc' : At) : Prop where
  holder : (pc'.token+σ.flying=pc.token+s.flying ∧
      (σ.isConnect → σ.isSendRegister=s.isSendRegister)) ∨
    (pc.token=1 ∧ pc'.token+σ.flying=s.flying ∧
      (σ.isSendRegister=false ∨ σ.isConnect=false ∨ s.shutdownStarted)) ∨
    (s.isConnect ∧ s.isSendRegister=false ∧ σ.isSendRegister=true ∧
      pc'.token+σ.flying=pc.token+s.flying+1)
  connect : σ.isConnect → s.isConnect
  shutdown : σ.shutdownStarted → s.shutdownStarted ∨ σ.isConnect=false
  closing : pc'.closing → pc.closing ∨ σ.isConnect=false
  disconnecting : σ.disconnecting → s.disconnecting ∨ pc.closing

namespace Moves

variable {s σ : Session} {pc pc' : At}

theorem same (ht : pc'.token=pc.token) (hc : pc'.closing → pc.closing) : Moves s s pc pc' :=
  ⟨Or.inl ⟨by rw [ht],fun _ => rfl⟩,id,Or.inl,fun h => Or.inl (hc h),Or.inl⟩

/-- The flag and the connection stay as they are. -/
theorem keep (ht : pc'.token+σ.flying=pc.token+s.flying) (hr : σ.isSendRegister=s.isSendRegister)
    (hc : σ.isConnect=s.isConnect) (hs : σ.shutdownStarted=s.shutdownStarted)
    (hd : σ.disconnecting=s.disconnecting) (hcl : pc'.closing → pc.closing) : Moves s σ pc pc' :=
  ⟨Or.inl ⟨ht,fun _ => hr⟩,fun h => hc ▸ h,fun h => Or.inl (hs ▸ h),fun h => Or.inl (hcl h),
    fun h => Or.inl (hd ▸ h)⟩

/-- The session is not connected any more after the step. -/
theorem close (ht : pc'.token+σ.flying=pc.token+s.flying) (hc : σ.isConnect=false)
    (hd : σ.disconnecting → s.disconnecting) : Moves s σ pc pc' :=
  ⟨Or.inl ⟨ht,fun h => by simp [hc] at h⟩,fun h => by simp [hc] at h,fun _ => Or.inr hc,
    fun _ => Or.inr hc,fun h => Or.inl (hd h)⟩

/-- The registration is given back. -/
theorem drop (hp : pc.token=1) (ht : pc'.token=0) (hf : σ.flying=s.flying)
    (hr : σ.isSendRegister=false ∨ σ.isConnect=false ∨ s.shutdownStarted)
    (hc : σ.isConnect=s.isConnect) (hs : σ.shutdownStarted=s.shutdownStarted)
    (hd : σ.disconnecting=s.disconnecting) (hcl : pc'.closing=false) : Moves s σ pc pc' :=
  ⟨Or.inr (Or.inl ⟨hp,by omega,hr⟩),fun h => hc ▸ h,fun h => Or.inl (hs ▸ h),
    fun h => by simp [hcl] at h,fun h => Or.inl (hd ▸ h)⟩

end Moves

theorem advance_moves {s σ : Session} {ok : Bool} {pc pc' : At} (hf : pc=.transmit → s.flight=none)
    (h : advance s ok pc=some (σ,pc')) : Moves s σ pc pc' := by
  cases advance_move h with
  | sendOff | send | enqueueOff | overflow | resume | completed | requeue | closed | processed |
    shutdownBegun => exact Moves.same rfl (by simp [At.closing])
  | disconnectFailed => exact Moves.same rfl fun _ => rfl
  | accept b hon hroom =>
    cases hr : s.isSendRegister with
    | true => exact Moves.keep rfl hr.symm rfl rfl rfl (by simp [At.closing])
    | false =>
      refine ⟨Or.inr (Or.inr ⟨hon,hr,rfl,?_⟩),id,Or.inl,by simp [At.closing],Or.inl⟩
      simp [At.token,Session.flying,Nat.add_comm]
  | registerOff hoff => exact Moves.drop rfl rfl rfl (Or.inr hoff.symm) rfl rfl rfl rfl
  | register | drain | refuse | remainder =>
    exact Moves.keep rfl rfl rfl rfl rfl (by simp [At.closing])
  | whole => split <;> exact Moves.keep rfl rfl rfl rfl rfl (by simp [At.closing])
  | processDisconnect => exact Moves.keep rfl rfl rfl rfl rfl fun _ => rfl
  | nothing => split <;> exact Moves.drop rfl rfl rfl (Or.inl rfl) rfl rfl rfl rfl
  | fly =>
    exact Moves.keep (by simp [At.token,Session.flying,hf rfl]) rfl rfl rfl rfl
      (by simp [At.closing])
  | failed | refused | flushed | emptied => exact Moves.drop rfl rfl rfl (Or.inl rfl) rfl rfl rfl rfl
  | completedOff n hoff => exact Moves.drop rfl rfl rfl (Or.inr (Or.inl hoff)) rfl rfl rfl rfl
  | close | closeFlags | beginShutdown => exact Moves.close rfl rfl id
  | registerDisconnect =>
    exact ⟨Or.inl ⟨rfl,fun _ => rfl⟩,id,Or.inl,by simp [At.closing],fun _ => Or.inr rfl⟩

variable [DecidableEq T]

theorem holders_set (s : State T) (t : T) (σ : Session) (pc : At) :
    holders (s.set t σ pc)+((s.threads t).token+s.session.flying)=holders s+(pc.token+σ.flying) := by
  have h := sum_update At.token s.threads t pc
  simp only [holders,State.set]
  omega

theorem gone_set (s : State T) (t : T) (σ : Session) (pc : At) :
    gone (s.set t σ pc)+(s.threads t).gone=gone s+pc.gone :=
  sum_update At.gone s.threads t pc

namespace TokenInv

variable {s : State T}

omit [DecidableEq T] in
theorem init (c : Bool) : TokenInv (State.init c : State T) := by
  constructor <;> simp [State.init,Session.init,holders,Session.flying,At.token,At.closing]

theorem moves (h : TokenInv s) (t : T) {σ : Session} {pc : At}
    (hm : Moves s.session σ (s.threads t) pc) : TokenInv (s.set t σ pc) := by
  have hset := holders_set s t σ pc
  have hle := h.le_one
  have hflag := h.flag
  have hconn := hm.connect
  have hshut := h.shutdown
  constructor
  · rcases hm.holder with ⟨he,-⟩|⟨hp,he,-⟩|⟨hc,hr,-,he⟩
    · omega
    · omega
    · have hz := hflag hc
      rw [hr,Bool.toNat_false] at hz
      omega
  · intro hc
    have hold := hflag (hconn hc)
    change holders (s.set t σ pc)=σ.isSendRegister.toNat
    rcases hm.holder with ⟨he,hr⟩|⟨hp,he,hr⟩|⟨-,hr,hr',he⟩
    · rw [hr hc]
      omega
    · rcases hr with hr|hr|hr
      · rw [hr,Bool.toNat_false]
        omega
      · exact absurd hc (by simp [State.set,hr])
      · exact absurd (hconn hc) (by simp [hshut hr])
    · rw [hr,Bool.toNat_false] at hold
      rw [hr',Bool.toNat_true]
      omega
  · intro hs
    rcases hm.shutdown hs with hs|hc
    · exact Bool.eq_false_iff.mpr fun hc => absurd (hconn hc) (by simp [hshut hs])
    · exact hc
  · intro u hu
    by_cases he : u=t
    · subst he
      simp only [State.set,Function.update_self] at hu
      rcases hm.closing hu with hcl|hc
      · exact Bool.eq_false_iff.mpr fun hc => absurd (hconn hc) (by simp [h.closing u hcl])
      · exact hc
    · simp only [State.set,Function.update_of_ne he] at hu
      exact Bool.eq_false_iff.mpr fun hc => absurd (hconn hc) (by simp [h.closing u hu])
  · intro hd
    apply Bool.eq_false_iff.mpr
    intro hc
    have hcon := hconn hc
    rcases hm.disconnecting hd with hd|hcl
    · simp [h.disconnecting hd] at hcon
    · simp [h.closing t hcl] at hcon

/-- Two threads that hold the registration are the same. -/
theorem unique (h : TokenInv s) {t u : T} (ht : (s.threads t).token≠0)
    (hu : (s.threads u).token≠0) : t=u := by
  have hle := h.le_one
  simp only [holders] at hle
  exact eq_of_sum_le_one At.token s.threads (by omega) (by omega) (by omega)

/-- The thread that holds the registration is the only one, and no send is in flight. -/
theorem sole (h : TokenInv s) {t : T} (ht : (s.threads t).token=1) :
    s.session.flight=none ∧ gone s=(s.threads t).gone := by
  have hle := h.le_one
  have hself := le_sum At.token s.threads t
  simp only [holders] at hle
  constructor
  · cases hf : s.session.flight with
    | none => rfl
    | some b =>
      simp only [Session.flying,hf,Option.isSome_some,if_true] at hle
      omega
  · apply Finset.sum_eq_single t
    · intro u _ hne
      apply At.token_of_gone
      by_contra hu
      exact hne (h.unique hu (by omega))
    · intro hm
      exact absurd (Finset.mem_univ t) hm

omit [DecidableEq T] in
/-- While a send is in flight no thread holds the registration. -/
theorem flying (h : TokenInv s) {b : List UInt8} (hf : s.session.flight=some b) (t : T) :
    (s.threads t).token=0 := by
  have hle := h.le_one
  have hself := le_sum At.token s.threads t
  simp only [holders,Session.flying,hf,Option.isSome_some,if_true] at hle
  omega

theorem enter (h : TokenInv s) {t : T} {σ : Session} {pc : At} {s' : State T}
    (hs : s.enter t σ pc=some s') :
    s.threads t=.idle ∧ s'=s.set t σ pc ∧ (Moves s.session σ .idle pc → TokenInv s') := by
  unfold State.enter at hs
  split at hs
  · rename_i hi
    cases hs
    exact ⟨hi,rfl,fun hm => h.moves t (hi ▸ hm)⟩
  · cases hs

theorem step (h : TokenInv s) (a : Action T) {s' : State T} (hs : SendPipeline.step s a=some s') :
    TokenInv s' := by
  cases a with
  | send t b | disconnect t | beginShutdown t =>
    exact (h.enter hs).2.2 (Moves.same rfl nofun)
  | run t ok =>
    simp only [SendPipeline.step,Option.map_eq_some_iff] at hs
    obtain ⟨⟨σ,pc⟩,ha,rfl⟩ := hs
    apply h.moves t (advance_moves _ ha)
    intro ht
    exact (h.sole (by rw [ht]; rfl)).1
  | sendCompleted t n =>
    simp only [SendPipeline.step] at hs
    split at hs
    · rename_i bytes hf
      split at hs
      · apply (h.enter hs).2.2
        exact Moves.keep (by simp [At.token,Session.flying,hf]) rfl rfl rfl rfl nofun
      · cases hs
    · cases hs
  | disconnectCompleted t =>
    simp only [SendPipeline.step] at hs
    split at hs
    · rename_i hd
      apply (h.enter hs).2.2
      exact Moves.close rfl (h.disconnecting hd) nofun
    · cases hs

end TokenInv

/-- Nothing has been thrown away: what was handed over, what is left of the event and what is
queued make up everything that was accepted. -/
structure Live (s : State T) : Prop where
  stream : s.session.wire++s.session.sendEvent.rest.drop (gone s)++streamOf s.session.sendQueue=
    streamOf s.session.accepted
  flight : ∀ bytes, s.session.flight=some bytes → bytes=s.session.sendEvent.rest

/-- Buffers have been thrown away and nothing more is handed over: nobody transmits, and as long
as the session is connected the thread that dropped them is on its way to the disconnect. -/
structure Dead (s : State T) : Prop where
  sent : s.session.wire <+: streamOf s.session.accepted
  flight : s.session.flight=none
  quiet : ∀ t, (s.threads t).transmits=false
  window : s.session.isConnect → ∃ t, s.threads t=.refused ∨ s.threads t=.disconnect true

/-- No thread passes the connection check of `register_send` while another one stands between a
failed send and the disconnect that follows from it. -/
def Careful (s : State T) : Action T → Prop
  | .run t _ => s.threads t=.registerSend → s.session.isConnect → ∀ u, s.threads u≠.disconnect true
  | _ => True

private theorem toInt_toNat {n : BitVec 32} (h : 0<n.toInt) : n.toInt.toNat=n.toNat := by
  rw [BitVec.toInt_eq_toNat_cond] at h ⊢
  have := n.isLt
  split at h
  · omega
  · omega

namespace Live

variable {s : State T}

omit [DecidableEq T] in
theorem init (c : Bool) : Live (State.init c : State T) := by
  constructor
  · simp [State.init,Session.init]
  · nofun

omit [DecidableEq T] in
theorem sent (h : Live s) : s.session.wire <+: streamOf s.session.accepted := by
  rw [← h.stream,List.append_assoc]
  exact List.prefix_append _ _

/-- A step outside the event: it may accept buffers into the queue. -/
theorem accept (h : Live s) (t : T) (bs : List SendBuffer) {σ : Session} {pc : At}
    (hg : pc.gone=(s.threads t).gone) (hw : σ.wire=s.session.wire)
    (he : σ.sendEvent=s.session.sendEvent) (hq : σ.sendQueue=s.session.sendQueue++bs)
    (ha : σ.accepted=s.session.accepted++bs) (hf : σ.flight=s.session.flight) :
    Live (s.set t σ pc) := by
  have hgone : gone (s.set t σ pc)=gone s := by
    have := gone_set s t σ pc
    omega
  constructor
  · change σ.wire++σ.sendEvent.rest.drop (gone (s.set t σ pc))++streamOf σ.sendQueue=
      streamOf σ.accepted
    rw [hgone,hw,he,hq,ha,streamOf_append,streamOf_append,← h.stream]
    simp only [List.append_assoc]
  · intro b hb
    change b=σ.sendEvent.rest
    rw [he]
    exact h.flight b (hf ▸ hb)

theorem frame (h : Live s) (t : T) {σ : Session} {pc : At} (hg : pc.gone=(s.threads t).gone)
    (hw : σ.wire=s.session.wire) (he : σ.sendEvent=s.session.sendEvent)
    (hq : σ.sendQueue=s.session.sendQueue) (ha : σ.accepted=s.session.accepted)
    (hf : σ.flight=s.session.flight) : Live (s.set t σ pc) :=
  h.accept t [] hg hw he (by rw [hq,List.append_nil]) (by rw [ha,List.append_nil]) hf

/-- The holder of the registration `t` changes the event; afterwards nothing is gone from it. -/
theorem holder (h : Live s) (hi : TokenInv s) {t : T} {σ : Session} {pc : At}
    (ht : (s.threads t).token=1) (hg : pc.gone=0) (hw : σ.wire=s.session.wire)
    (hrest : σ.sendEvent.rest++streamOf σ.sendQueue=
      s.session.sendEvent.rest.drop (s.threads t).gone++streamOf s.session.sendQueue)
    (ha : σ.accepted=s.session.accepted)
    (hf : ∀ bytes, σ.flight=some bytes → bytes=σ.sendEvent.rest) : Live (s.set t σ pc) := by
  have hsole := (hi.sole ht).2
  have hgone : gone (s.set t σ pc)=0 := by
    have := gone_set s t σ pc
    omega
  constructor
  · change σ.wire++σ.sendEvent.rest.drop (gone (s.set t σ pc))++streamOf σ.sendQueue=
      streamOf σ.accepted
    rw [hgone,List.drop_zero,List.append_assoc,hrest,hw,ha,← h.stream,hsole,List.append_assoc]
  · exact hf

/-- The holder of the registration throws the buffers of the event away. -/
theorem dead (h : Live s) (hi : TokenInv s) {t : T} {σ : Session} {pc : At}
    (ht : (s.threads t).token=1) (hpc : pc.transmits=false) (hw : σ.wire=s.session.wire)
    (ha : σ.accepted=s.session.accepted) (hf : σ.flight=s.session.flight)
    (hwin : σ.isConnect → pc=.refused ∨ pc=.disconnect true) : Dead (s.set t σ pc) := by
  constructor
  · change σ.wire <+: streamOf σ.accepted
    rw [hw,ha]
    exact h.sent
  · exact hf.trans (hi.sole ht).1
  · intro u
    by_cases he : u=t
    · simp [State.set,he,hpc]
    · simp only [State.set,Function.update_of_ne he]
      apply At.token_of_transmits
      by_contra hu
      exact he (hi.unique hu (by omega))
  · intro hc
    exact ⟨t,by simpa [State.set] using hwin hc⟩

theorem advance (h : Live s) (hi : TokenInv s) {t : T} {ok : Bool} {σ : Session} {pc : At}
    (ha : SendPipeline.advance s.session ok (s.threads t)=some (σ,pc)) :
    Live (s.set t σ pc) ∨ Dead (s.set t σ pc) := by
  have hmove := advance_move ha
  generalize hpc : s.threads t=pc₀ at hmove
  have hsole (ht : pc₀.token=1) : s.session.flight=none := (hi.sole (by rw [hpc,ht])).1
  cases hmove with
  | sendOff | send | enqueueOff | overflow | registerOff | register | resume | completed | refused |
    flushed | emptied | requeue | close | closed | registerDisconnect | disconnectFailed |
    processDisconnect | processed | closeFlags | beginShutdown | shutdownBegun =>
    exact Or.inl (h.frame t (by rw [hpc]; rfl) rfl rfl rfl rfl rfl)
  | accept b => exact Or.inl (h.accept t [b] (by rw [hpc]; split <;> rfl) rfl rfl rfl rfl rfl)
  | drain hdone =>
    refine Or.inl (h.holder hi (by rw [hpc]; rfl) rfl rfl ?_ rfl ?_)
    · simp [SendEvent.rest_push hdone,SendEvent.rest_of_done hdone]
    · simp [hsole rfl]
  | nothing hempty =>
    have hrest : s.session.sendEvent.rest=[] := by rw [SendEvent.rest,hempty]; rfl
    refine Or.inl (h.holder hi (by rw [hpc]; rfl) ?_ rfl ?_ rfl ?_)
    · split <;> rfl
    · simp [hrest]
    · simp [hsole rfl]
  | fly =>
    refine Or.inl (h.holder hi (by rw [hpc]; rfl) rfl rfl ?_ rfl ?_)
    · simp [hpc,At.gone]
    · intro b hb
      exact (Option.some.inj hb).symm
  | failed => exact Or.inr (h.dead hi (by rw [hpc]; rfl) rfl rfl rfl rfl fun _ => Or.inr rfl)
  | completedOff n hoff =>
    refine Or.inr (h.dead hi (by rw [hpc]; rfl) rfl rfl rfl rfl ?_)
    intro hon
    rw [hoff] at hon
    cases hon
  | refuse => exact Or.inr (h.dead hi (by rw [hpc]; rfl) rfl rfl rfl rfl fun _ => Or.inl rfl)
  | remainder n e hcons =>
    obtain ⟨hpos,hrest⟩ := SendEvent.consumeSentBytes_some hcons
    rw [toInt_toNat hpos] at hrest
    refine Or.inl (h.holder hi (by rw [hpc]; rfl) rfl rfl ?_ rfl ?_)
    · rw [hpc,At.gone,hrest]
    · simp [hsole rfl]
  | whole n e hcons hdone =>
    obtain ⟨hpos,hrest⟩ := SendEvent.consumeSentBytes_some hcons
    rw [toInt_toNat hpos] at hrest
    refine Or.inl (h.holder hi (by rw [hpc]; rfl) ?_ rfl ?_ rfl ?_)
    · split <;> rfl
    · rw [hpc,At.gone,← hrest,SendEvent.rest_of_done hdone]
      rfl
    · simp [hsole rfl]

/-- A completion hands over the first bytes of the event, which are then gone from it. -/
theorem completed (h : Live s) (hi : TokenInv s) {t : T} {bytes : List UInt8} {n : BitVec 32}
    (hf : s.session.flight=some bytes) (ht : s.threads t=.idle) :
    Live (s.set t { s.session with flight := none, wire := s.session.wire++bytes.take n.toNat }
      (.processSend n)) := by
  have hz : gone s=0 := by
    apply (sum_eq_zero_iff At.gone s.threads).mpr
    intro u
    exact At.token_of_gone (hi.flying hf u)
  have hgone := gone_set s t
    { s.session with flight := none, wire := s.session.wire++bytes.take n.toNat } (.processSend n)
  have hstream := h.stream
  rw [hz,List.drop_zero,← h.flight bytes hf] at hstream
  rw [ht,hz] at hgone
  simp only [At.gone,Nat.add_zero,Nat.zero_add] at hgone
  constructor
  · change s.session.wire++bytes.take n.toNat++s.session.sendEvent.rest.drop (gone (s.set t _ _))++
      streamOf s.session.sendQueue=streamOf s.session.accepted
    rw [hgone,← h.flight bytes hf,← hstream,List.append_assoc s.session.wire,List.take_append_drop]
  · nofun

theorem step (h : Live s) (hi : TokenInv s) {a : Action T} {s' : State T}
    (hs : SendPipeline.step s a=some s') : Live s' ∨ Dead s' := by
  cases a with
  | send t b | disconnect t | beginShutdown t =>
    obtain ⟨hidle,rfl,-⟩ := hi.enter hs
    exact Or.inl (h.frame t (by rw [hidle]; rfl) rfl rfl rfl rfl rfl)
  | run t ok =>
    simp only [SendPipeline.step,Option.map_eq_some_iff] at hs
    obtain ⟨⟨σ,pc⟩,ha,rfl⟩ := hs
    exact h.advance hi ha
  | sendCompleted t n =>
    simp only [SendPipeline.step] at hs
    split at hs
    · rename_i bytes hf
      split at hs
      · obtain ⟨hidle,rfl,-⟩ := hi.enter hs
        exact Or.inl (h.completed hi hf hidle)
      · cases hs
    · cases hs
  | disconnectCompleted t =>
    simp only [SendPipeline.step] at hs
    split at hs
    · obtain ⟨hidle,rfl,-⟩ := hi.enter hs
      exact Or.inl (h.frame t (by rw [hidle]; rfl) rfl rfl rfl rfl rfl)
    · cases hs

end Live

namespace Dead

variable {s : State T}

omit [Fintype T] in
/-- Thread `t` moves without reaching the event. -/
theorem move (h : Dead s) (t : T) {σ : Session} {pc : At} (hpc : pc.transmits=false)
    (hw : σ.wire=s.session.wire) (bs : List SendBuffer) (ha : σ.accepted=s.session.accepted++bs)
    (hf : σ.flight=s.session.flight) (hc : σ.isConnect → s.session.isConnect)
    (hwin : σ.isConnect → s.threads t=.refused ∨ s.threads t=.disconnect true →
      pc=.refused ∨ pc=.disconnect true) : Dead (s.set t σ pc) := by
  constructor
  · change σ.wire <+: streamOf σ.accepted
    rw [hw,ha,streamOf_append]
    exact h.sent.trans (List.prefix_append _ _)
  · exact hf.trans h.flight
  · intro u
    by_cases he : u=t
    · simp [State.set,he,hpc]
    · simp only [State.set,Function.update_of_ne he]
      exact h.quiet u
  · intro hcon
    obtain ⟨u,hu⟩ := h.window (hc hcon)
    by_cases he : u=t
    · exact ⟨t,by simpa [State.set] using hwin hcon (he ▸ hu)⟩
    · exact ⟨u,by simpa [State.set,Function.update_of_ne he] using hu⟩

theorem advance (h : Dead s) (hi : TokenInv s) {t : T} {ok : Bool} {σ : Session} {pc : At}
    (hcareful : Careful s (.run t ok))
    (ha : SendPipeline.advance s.session ok (s.threads t)=some (σ,pc)) : Dead (s.set t σ pc) := by
  have hmove := advance_move ha
  have hquiet := h.quiet t
  generalize hpc : s.threads t=pc₀ at hmove hquiet
  cases hmove with
  | resume | drain | nothing | fly | failed | completedOff | completed | refuse | remainder | whole |
    flushed | emptied | requeue => cases hquiet
  | sendOff | send | enqueueOff | overflow | registerOff | registerDisconnect | disconnectFailed |
    processDisconnect | processed | shutdownBegun =>
    exact h.move t rfl rfl [] (by simp) rfl id (by simp [hpc])
  | accept b => exact h.move t (by split <;> rfl) rfl [b] rfl rfl id (by simp [hpc])
  | register hshut hon =>
    -- a refused completion still holds the registration, so the window is open elsewhere
    obtain ⟨u,hu|hu⟩ := h.window hon
    · have he : u=t := hi.unique (by simp [hu,At.token]) (by simp [hpc,At.token])
      rw [he,hpc] at hu
      cases hu
    · exact absurd hu (hcareful hpc hon u)
  | refused => exact h.move t rfl rfl [] (by simp) rfl id fun _ _ => Or.inr rfl
  | close | closeFlags | beginShutdown => exact h.move t rfl rfl [] (by simp) rfl (by simp) (by simp)
  | closed dropped hoff => exact h.move t rfl rfl [] (by simp) rfl id (by simp [hoff])

theorem step (h : Dead s) (hi : TokenInv s) {a : Action T} (hcareful : Careful s a) {s' : State T}
    (hs : SendPipeline.step s a=some s') : Dead s' := by
  cases a with
  | send t b | disconnect t | beginShutdown t =>
    obtain ⟨hidle,rfl,-⟩ := hi.enter hs
    exact h.move t rfl rfl [] (by simp) rfl id (by simp [hidle])
  | run t ok =>
    simp only [SendPipeline.step,Option.map_eq_some_iff] at hs
    obtain ⟨⟨σ,pc⟩,ha,rfl⟩ := hs
    exact h.advance hi hcareful ha
  | sendCompleted t n =>
    simp [SendPipeline.step,h.flight] at hs
  | disconnectCompleted t =>
    simp only [SendPipeline.step] at hs
    split at hs
    · obtain ⟨hidle,rfl,-⟩ := hi.enter hs
      exact h.move t rfl rfl [] (by simp) rfl id (by simp [hidle])
    · cases hs

end Dead

theorem reaches_tokenInv {ok : State T → Action T → Prop} {c : Bool} {s : State T}
    (hr : Reaches step ok (State.init c) s) : TokenInv s :=
  hr.invariant (TokenInv.init c) fun _ a _ h _ hs => h.step a hs

/-- In a run that keeps new registrations out of the window between a failed send and its
disconnect, the bytes handed over are at every moment the first ones of what was accepted. -/
theorem wire_of_careful_run {c : Bool} {s : State T} (hr : Reaches step Careful (State.init c) s) :
    s.session.wire <+: streamOf s.session.accepted := by
  have h : Live s ∨ Dead s := by
    apply hr.invariant_of (Q:=TokenInv) (fun _ hx => reaches_tokenInv hx) (Or.inl (Live.init c))
    intro x a y hi hx hcareful hs
    rcases hx with hlive|hdead
    · exact hlive.step hi hs
    · exact Or.inr (hdead.step hi hcareful hs)
  rcases h with hlive|hdead
  · exact hlive.sent
  · exact hdead.sent

/-- A send of two bytes of which one is handed over at first. -/
def partialSend : List (Action Unit) :=
  [.send () (SendBuffer.copyData [1,2]),.run () true,.run () true,.run () true,.run () true,
   .run () true,.sendCompleted () 1,.run () true,.run () true,.run () true]

theorem wire_of_careful_run_partialSend :
    ∃ s, runActions step (State.init false) partialSend=some s ∧ s.session.wire=[1] ∧
      s.threads ()=.drain ∧ s.session.wire <+: streamOf s.session.accepted := by
  refine ⟨_,rfl,rfl,rfl,?_⟩
  apply wire_of_careful_run (c:=false)
  apply Reaches.of_runActions _ partialSend rfl
  intro x a
  cases a with
  | run t ok =>
    intro ht hc u hu
    rw [ht] at hu
    cases hu
  | _ => trivial

/-- The first thread accepts the packet `[1]`, its `WSASend` fails at once and it gives the
registration back; before it disconnects, the second accepts the packet `[2]` and sends it. -/
def failedSendWindow {T : Type} (t u : T) : List (Action T) :=
  [.send t (SendBuffer.copyData [1]),.run t true,.run t true,.run t true,.run t true,.run t false,
   .send u (SendBuffer.copyData [2]),.run u true,.run u true,.run u true,.run u true,.run u true,
   .sendCompleted u 1]

theorem later_packet_overtakes_dropped_one : ∃ s : State (Fin 2),
    Reaches step Any (State.init false) s ∧ s.session.accepted.map SendBuffer.bytes=[[1],[2]] ∧
      s.session.wire=[2] ∧ ¬s.session.wire <+: streamOf s.session.accepted := by
  refine ⟨_,Reaches.of_runActions (fun _ _ => trivial) (failedSendWindow 0 1) rfl,rfl,rfl,?_⟩
  decide

end IocpServer.NetWork.SendPipeline
