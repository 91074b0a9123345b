import IocpServer.NetWork.Rejection

namespace IocpServer.NetWork

namespace SendEvent

/-- The event holds one buffer, of which `k` bytes are consumed and something is left. -/
structure Rests (e : SendEvent) (b : SendBuffer) (k : Nat) : Prop where
  buffers : e.sendBuffers=[b]
  index : e.bufferIndex=0
  offset : e.bufferOffset=k
  lt : k<b.writeSize

theorem push_nil (e : SendEvent) : e.push []=e := by
  simp [push]

theorem consumeSentBytes_clear (n : Int) : clear.consumeSentBytes n=none := by
  unfold consumeSentBytes
  split
  · rfl
  · exact dif_neg (by simp [clear,remaining]; omega)

theorem rests_push {b : SendBuffer} (h : 0<b.writeSize) : (clear.push [b]).Rests b 0 :=
  ⟨rfl,rfl,rfl,h⟩

namespace Rests

variable {e : SendEvent} {b : SendBuffer} {k : Nat}

theorem hasPendingData (h : e.Rests b k) : e.hasPendingData := by
  simp [SendEvent.hasPendingData,h.buffers,h.index]

theorem buildWsabufs (h : e.Rests b k) : e.buildWsabufs=[b.bytes.drop k] := by
  simp [SendEvent.buildWsabufs,h.buffers,h.index,h.offset,Batch.views]

theorem rest (h : e.Rests b k) : e.rest=b.bytes.drop k := by
  simp [SendEvent.rest,h.buildWsabufs]

/-- A completion consumes part of what is left, or all of it. -/
theorem consume (h : e.Rests b k) {n : Int} (hpos : 0<n) (hn : k+n.toNat ≤ b.writeSize) :
    ∃ e', e.consumeSentBytes n=some e' ∧
      (e'.Rests b (k+n.toNat) ∨ e'.hasPendingData=false ∧ k+n.toNat=b.writeSize) := by
  have hremaining : e.remaining=b.writeSize-k := by
    simp [remaining,h.buffers,h.index,h.offset]
  have hle : n.toNat ≤ e.remaining := by omega
  have hskip : Batch.skip ((e.sendBuffers.map SendBuffer.bytes).drop e.bufferIndex) e.bufferIndex
      e.bufferOffset n.toNat=
        some (if n.toNat<b.bytes.length-k then (0,k+n.toNat) else (1,0)) := by
    rw [h.buffers,h.index,h.offset]
    exact Batch.skip_singleton (by omega) (by rw [b.bytes_length]; omega)
  unfold consumeSentBytes
  rw [if_neg (by omega),dif_pos hle]
  unfold SendEvent.consume
  split
  · rename_i hnone
    rw [hskip] at hnone
    cases hnone
  · rename_i index offset hsome
    rw [hskip] at hsome
    refine ⟨_,rfl,?_⟩
    split at hsome
    · rename_i hlt
      rw [b.bytes_length] at hlt
      cases hsome
      exact Or.inl ⟨h.buffers,rfl,rfl,by omega⟩
    · rename_i hge
      rw [b.bytes_length] at hge
      cases hsome
      exact Or.inr ⟨by simp [SendEvent.hasPendingData,h.buffers],by omega⟩

/-- The completion of a send whose bytes are counted in `wire`. -/
theorem completed {wire : List UInt8} {n : BitVec 32} (h : e.Rests b (wire.length-n.toNat))
    (hwire : wire<+:b.bytes) (hn : n.toNat ≤ wire.length) (hpos : 0<n.toInt) :
    ∃ e', e.consumeSentBytes n.toInt=some e' ∧
      (e'.Rests b wire.length ∨ e'.hasPendingData=false ∧ wire=b.bytes) := by
  have hint : n.toInt.toNat=n.toNat := by
    rw [BitVec.toInt_eq_toNat_cond] at hpos ⊢
    split at hpos <;> omega
  have hle := hwire.length_le
  rw [b.bytes_length] at hle
  obtain ⟨e',he',hcase⟩ := h.consume hpos (by rw [hint]; omega)
  rw [hint,Nat.sub_add_cancel hn] at hcase
  refine ⟨e',he',hcase.imp_right fun hdone => ⟨hdone.1,?_⟩⟩
  exact hwire.eq_of_length (by rw [hdone.2,b.bytes_length])

end Rests

end SendEvent

namespace Lifecycle

open SendPipeline (At advance)

variable {R : Type}

/-- The thread holds the send event of the session. -/
def Frame.carrying : Frame R → Nat
  | .pipe .registerSend | .pipe .drain | .pipe .transmit | .pipe (.processSend _)
  | .pipe (.consume _) => 1
  | _ => 0

/-- What a thread of a rejected session finds at its place in the send path, when `b` is the notice.
`lost` says that a send may have failed or that the server may be shutting down. -/
def Carries (lost : Prop) (b : SendBuffer) (p : SendPipeline.Session) : At → Prop
  | .send sendBuffer | .enqueue sendBuffer =>
    p.isConnect → sendBuffer=b ∧ p.sendQueue=[] ∧ p.sendEvent=SendEvent.clear ∧ p.wire=[]
  | .registerSend | .drain =>
    p.closeAfterSend ∧
      (p.sendQueue=[b] ∧ p.sendEvent=SendEvent.clear ∧ p.wire=[] ∨
        p.sendQueue=[] ∧ (p.sendEvent.Rests b p.wire.length ∨ lost ∧ p.sendEvent=SendEvent.clear))
  | .transmit =>
    p.closeAfterSend ∧ p.sendQueue=[] ∧
      (p.sendEvent.Rests b p.wire.length ∨ lost ∧ p.sendEvent=SendEvent.clear)
  | .processSend n | .consume n =>
    p.closeAfterSend ∧ p.sendQueue=[] ∧ n.toNat ≤ p.wire.length ∧ (lost ∨ 0<n.toInt) ∧
      (p.sendEvent.Rests b (p.wire.length-n.toNat) ∨ lost ∧ p.sendEvent=SendEvent.clear)
  | .refused | .beginShutdown => lost
  | .requeue => False
  | .flushed => p.wire=b.bytes
  | .disconnect _ | .registerDisconnect | .processDisconnect | .closeFlags => lost ∨ p.wire=b.bytes
  | .idle => True

/-- The notice of a rejected session: what is handed over is a beginning of it, what is in flight is
the rest, and the session is disconnected when all of it is handed over. -/
structure Delivery (lost : Prop) (b : SendBuffer) (l : Local R) : Prop where
  wire : l.core.pipe.wire<+:b.bytes
  single : tok Frame.carrying l.frames+l.core.pipe.flight.isSome.toNat ≤ 1
  frames : ∀ pc, .pipe pc∈l.frames → Carries lost b l.core.pipe pc
  flight : ∀ bytes, l.core.pipe.flight=some bytes →
    Carries lost b l.core.pipe .transmit ∧ bytes=b.bytes.drop l.core.pipe.wire.length ∧
      l.core.pipe.wire.length<b.writeSize
  off : l.core.hadConnected → l.core.pipe.isConnect=false → lost ∨ l.core.pipe.wire=b.bytes
  disconnecting : l.core.pipe.disconnecting → lost ∨ l.core.pipe.wire=b.bytes
  calm : lost ∨ l.core.closing=false

namespace Carries

variable {lost : Prop} {b : SendBuffer} {p p' : SendPipeline.Session} {pc : At}

/-- A step that leaves the buffers alone. -/
theorem same (h : Carries lost b p pc) (hq : p'.sendQueue=p.sendQueue)
    (he : p'.sendEvent=p.sendEvent) (hw : p'.wire=p.wire)
    (hclose : p.closeAfterSend → p'.closeAfterSend) (hcon : p'.isConnect → p.isConnect) :
    Carries lost b p' pc := by
  cases pc <;> simp only [Carries,hq,he,hw] at h ⊢
  case send | enqueue => exact fun hc => h (hcon hc)
  case registerSend | drain | transmit | processSend | consume => exact ⟨hclose h.1,h.2⟩
  all_goals exact h

/-- A step of the one thread that holds the send event. -/
theorem light (h : Carries lost b p pc) (hc : Frame.carrying (.pipe pc : Frame R)=0)
    (ho : p'.isConnect → Frame.offering (.pipe pc : Frame R)=0)
    (hw : p.wire=b.bytes → p'.wire=b.bytes) : Carries lost b p' pc := by
  cases pc <;> simp only [Carries] at h ⊢
  case send | enqueue => exact fun hcon => absurd (ho hcon) (by simp [Frame.offering])
  case registerSend | drain | transmit | processSend | consume => cases hc
  case flushed => exact hw h
  case disconnect | registerDisconnect | processDisconnect | closeFlags => exact h.imp_right hw
  all_goals exact h

/-- A completion that `consume_sent_bytes` accepts leaves the rest of the notice, or nothing. -/
theorem consumed {n : BitVec 32} {e : SendEvent} (h : Carries lost b p (.consume n))
    (hwire : p.wire<+:b.bytes) (hsome : p.sendEvent.consumeSentBytes n.toInt=some e) :
    p.closeAfterSend ∧ p.sendQueue=[] ∧
      (e.Rests b p.wire.length ∨ e.hasPendingData=false ∧ p.wire=b.bytes) := by
  obtain ⟨hclosing,hqueue,hn,-,hdata⟩ := h
  refine ⟨hclosing,hqueue,?_⟩
  rcases hdata with hr|⟨-,he⟩
  · obtain ⟨e',he',hcase⟩ := hr.completed hwire hn (SendEvent.consumeSentBytes_some hsome).1
    rw [hsome] at he'
    cases he'
    exact hcase
  · rw [he,SendEvent.consumeSentBytes_clear] at hsome
    cases hsome

/-- `wait_for_shutdown` drops what was not sent. -/
theorem clear (h : Carries lost b p pc) (hl : lost) :
    Carries lost b { p with sendQueue := [], sendEvent := SendEvent.clear } pc := by
  cases pc <;> simp_all [Carries]

end Carries

/-- What a step in the send path of a rejected session does. -/
structure Onward (lost : Prop) (b : SendBuffer) (p p' : SendPipeline.Session) (pc pc' : At) :
    Prop where
  next : Carries lost b p' pc'
  wire : p'.wire=p.wire
  close : p.closeAfterSend → p'.closeAfterSend
  connect : p'.isConnect → p.isConnect
  off : p'.isConnect=false → p.isConnect=false ∨ lost ∨ p.wire=b.bytes
  disconnecting : p'.disconnecting → p.disconnecting ∨ lost ∨ p.wire=b.bytes
  flight : p'.flight=p.flight ∨ pc=.transmit ∧ ∃ bytes, p'.flight=some bytes ∧
    Carries lost b p' .transmit ∧ bytes=b.bytes.drop p.wire.length ∧ p.wire.length<b.writeSize
  buffers : p'.sendQueue=p.sendQueue ∧ p'.sendEvent=p.sendEvent ∨
    Frame.carrying (.pipe pc : Frame R)=1 ∨ p.isConnect ∧ Frame.offering (.pipe pc : Frame R)=1
  single : ((pipeNext pc pc' : List (Frame R)).map Frame.carrying).sum+p'.flight.isSome.toNat ≤
      Frame.carrying (.pipe pc : Frame R)+p.flight.isSome.toNat ∨
    p.isConnect ∧ Frame.offering (.pipe pc : Frame R)=1 ∧ p'.flight=p.flight ∧
      ((pipeNext pc pc' : List (Frame R)).map Frame.carrying).sum ≤ 1

/-- A step that leaves the connection and the operation in flight alone. -/
theorem Onward.quiet {lost : Prop} {b : SendBuffer} {p p' : SendPipeline.Session} {pc pc' : At}
    (hnext : Carries lost b p' pc')
    (hsame : p'.wire=p.wire ∧ p'.closeAfterSend=p.closeAfterSend ∧ p'.isConnect=p.isConnect ∧
      p'.disconnecting=p.disconnecting ∧ p'.flight=p.flight)
    (hbuffers : p'.sendQueue=p.sendQueue ∧ p'.sendEvent=p.sendEvent ∨
      Frame.carrying (.pipe pc : Frame R)=1)
    (hsum : ((pipeNext pc pc' : List (Frame R)).map Frame.carrying).sum ≤
      Frame.carrying (.pipe pc : Frame R)) : Onward (R:=R) lost b p p' pc pc' := by
  obtain ⟨hwire,hclose,hconnect,hdisconnecting,hflight⟩ := hsame
  constructor
  case next => exact hnext
  case wire => exact hwire
  case close => exact fun h => hclose.trans h
  case connect => exact fun h => hconnect.symm.trans h
  case off => exact fun h => Or.inl (hconnect.symm.trans h)
  case disconnecting => exact fun h => Or.inl (hdisconnecting.symm.trans h)
  case flight => exact Or.inl hflight
  case buffers => exact hbuffers.imp_right Or.inl
  case single =>
    rw [hflight]
    exact Or.inl (Nat.add_le_add_right hsum _)

/-- The session is disconnected by a thread that has found the notice sent or lost. -/
theorem Onward.closes {lost : Prop} {b : SendBuffer} {p p' : SendPipeline.Session} {pc pc' : At}
    (h : lost ∨ p.wire=b.bytes) (hnext : Carries lost b p' pc')
    (hsame : p'.wire=p.wire ∧ p'.closeAfterSend=p.closeAfterSend ∧ p'.flight=p.flight ∧
      p'.sendQueue=p.sendQueue ∧ p'.sendEvent=p.sendEvent)
    (hconnect : p'.isConnect → p.isConnect)
    (hsum : ((pipeNext pc pc' : List (Frame R)).map Frame.carrying).sum=0) :
    Onward (R:=R) lost b p p' pc pc' := by
  obtain ⟨hwire,hclose,hflight,hbuffers⟩ := hsame
  constructor
  case next => exact hnext
  case wire => exact hwire
  case close => exact fun h => hclose.trans h
  case connect => exact hconnect
  case off => exact fun _ => Or.inr h
  case disconnecting => exact fun _ => Or.inr h
  case flight => exact Or.inl hflight
  case buffers => exact Or.inl hbuffers
  case single =>
    rw [hsum,hflight]
    exact Or.inl (Nat.add_le_add_right (Nat.zero_le _) _)

theorem advance_onward {lost : Prop} {b : SendBuffer} {p p' : SendPipeline.Session} {pc pc' : At}
    {ok : Bool} (h : Carries lost b p pc) (hb : 0<b.writeSize) (hwire : p.wire<+:b.bytes)
    (ha : advance p ok pc=some (p',pc')) (hok : lost ∨ (pc=.transmit → ok))
    (hclose : p.isConnect → Frame.offering (.pipe pc : Frame R)=1 → p.closeAfterSend) :
    Onward (R:=R) lost b p p' pc pc' := by
  have hmove := SendPipeline.advance_move ha
  cases hmove with
  | sendOff | enqueueOff | closed | processed | shutdownBegun | registerOff =>
    exact Onward.quiet trivial ⟨rfl,rfl,rfl,rfl,rfl⟩ (Or.inl ⟨rfl,rfl⟩) (Nat.zero_le _)
  | send => exact Onward.quiet h ⟨rfl,rfl,rfl,rfl,rfl⟩ (Or.inl ⟨rfl,rfl⟩) (Nat.zero_le _)
  | overflow _ hon hfull =>
    obtain ⟨-,hqueue,-⟩ := h hon
    rw [hqueue] at hfull
    cases hfull
  | accept _ hon =>
    obtain ⟨rfl,hqueue,hevent,hempty⟩ := h hon
    have hclosing := hclose hon rfl
    constructor
    case next =>
      split
      · trivial
      · exact ⟨hclosing,Or.inl ⟨by rw [hqueue]; rfl,hevent,hempty⟩⟩
    case buffers => exact Or.inr (Or.inr ⟨hon,rfl⟩)
    case single =>
      refine Or.inr ⟨hon,rfl,rfl,?_⟩
      split
      · exact Nat.zero_le _
      · exact le_rfl
    all_goals simp_all
  | register => exact Onward.quiet h ⟨rfl,rfl,rfl,rfl,rfl⟩ (Or.inl ⟨rfl,rfl⟩) le_rfl
  | resume hpending =>
    obtain ⟨hclosing,hdata⟩ := h
    refine Onward.quiet ⟨hclosing,?_⟩ ⟨rfl,rfl,rfl,rfl,rfl⟩ (Or.inl ⟨rfl,rfl⟩) le_rfl
    rcases hdata with ⟨-,he,-⟩|⟨hq,hr|⟨-,he⟩⟩
    · rw [he] at hpending
      cases hpending
    · exact ⟨hq,Or.inl hr⟩
    · rw [he] at hpending
      cases hpending
  | drain hpending =>
    obtain ⟨hclosing,hdata⟩ := h
    refine Onward.quiet ⟨hclosing,rfl,?_⟩ ⟨rfl,rfl,rfl,rfl,rfl⟩ (Or.inr rfl) le_rfl
    rcases hdata with ⟨hq,he,hw⟩|⟨hq,hr|⟨hl,he⟩⟩
    · left
      simp only [hq,he,hw]
      exact SendEvent.rests_push hb
    · rw [hr.hasPendingData] at hpending
      cases hpending
    · right
      simp only [hq,he,SendEvent.push_nil,and_true]
      exact hl
  | nothing hempty =>
    obtain ⟨-,-,hdata⟩ := h
    have hlost : lost := by
      rcases hdata with hr|⟨hl,-⟩
      · rw [hr.buildWsabufs] at hempty
        cases hempty
      · exact hl
    split
    · exact Onward.quiet (Or.inl hlost) ⟨rfl,rfl,rfl,rfl,rfl⟩ (Or.inr rfl) (Nat.zero_le _)
    · exact Onward.quiet trivial ⟨rfl,rfl,rfl,rfl,rfl⟩ (Or.inr rfl) (Nat.zero_le _)
  | fly hbufs =>
    obtain ⟨hclosing,hqueue,hdata⟩ := h
    have hrests : p.sendEvent.Rests b p.wire.length := by
      rcases hdata with hr|⟨-,he⟩
      · exact hr
      · exact absurd (by rw [he]; rfl) hbufs
    constructor
    case next => trivial
    case flight => exact Or.inr ⟨rfl,_,rfl,⟨hclosing,hqueue,Or.inl hrests⟩,hrests.rest,hrests.lt⟩
    case buffers => exact Or.inl ⟨rfl,rfl⟩
    case single => exact Or.inl (Nat.le_add_right _ _)
    all_goals simp_all
  | failed hbufs =>
    have hlost : lost := by
      refine hok.resolve_right fun hall => ?_
      simp [advance,hbufs,hall rfl] at ha
    exact Onward.quiet (Or.inl hlost) ⟨rfl,rfl,rfl,rfl,rfl⟩ (Or.inr rfl) (Nat.zero_le _)
  | completedOff =>
    exact Onward.quiet trivial ⟨rfl,rfl,rfl,rfl,rfl⟩ (Or.inr rfl) (Nat.zero_le _)
  | completed => exact Onward.quiet h ⟨rfl,rfl,rfl,rfl,rfl⟩ (Or.inl ⟨rfl,rfl⟩) le_rfl
  | refuse n hnone =>
    obtain ⟨-,-,hn,hpos,hdata⟩ := h
    have hlost : lost := by
      rcases hdata with hr|⟨hl,-⟩
      · refine hpos.resolve_right fun hpos => ?_
        obtain ⟨e,he,-⟩ := hr.completed hwire hn hpos
        rw [hnone] at he
        cases he
      · exact hl
    exact Onward.quiet hlost ⟨rfl,rfl,rfl,rfl,rfl⟩ (Or.inr rfl) (Nat.zero_le _)
  | remainder n e hsome hpending =>
    obtain ⟨hclosing,hqueue,hrest⟩ := h.consumed hwire hsome
    have hnext := hrest.resolve_right fun hdone => by simp [hdone.1] at hpending
    exact Onward.quiet ⟨hclosing,Or.inr ⟨hqueue,Or.inl hnext⟩⟩ ⟨rfl,rfl,rfl,rfl,rfl⟩ (Or.inr rfl)
      le_rfl
  | whole n e hsome hpending =>
    obtain ⟨hclosing,hqueue,hrest⟩ := h.consumed hwire hsome
    have hall := (hrest.resolve_left fun hr => by simp [hr.hasPendingData] at hpending).2
    rw [if_pos hclosing]
    exact Onward.quiet hall ⟨rfl,rfl,rfl,rfl,rfl⟩ (Or.inr rfl) (Nat.zero_le _)
  | refused => exact Onward.quiet (Or.inl h) ⟨rfl,rfl,rfl,rfl,rfl⟩ (Or.inl ⟨rfl,rfl⟩) (Nat.zero_le _)
  | flushed => exact Onward.quiet (Or.inr h) ⟨rfl,rfl,rfl,rfl,rfl⟩ (Or.inl ⟨rfl,rfl⟩) (Nat.zero_le _)
  | emptied | requeue => cases h
  | disconnectFailed | processDisconnect =>
    exact Onward.quiet h ⟨rfl,rfl,rfl,rfl,rfl⟩ (Or.inl ⟨rfl,rfl⟩) (Nat.zero_le _)
  | close => exact Onward.closes h h ⟨rfl,rfl,rfl,rfl,rfl⟩ (by simp) rfl
  | registerDisconnect => exact Onward.closes h trivial ⟨rfl,rfl,rfl,rfl,rfl⟩ id rfl
  | closeFlags => exact Onward.closes h trivial ⟨rfl,rfl,rfl,rfl,rfl⟩ (by simp) rfl
  | beginShutdown =>
    exact Onward.closes (Or.inl h) (Or.inl h) ⟨rfl,rfl,rfl,rfl,rfl⟩ (by simp) rfl

namespace Delivery

variable {lost : Prop} {b : SendBuffer} {c c' : Core R} {o : Choice R} {m : Multiset (Frame R)}

/-- A rejected session that is connected has its notice on the way. -/
theorem notice {f : Frame R} (hs : Sound (⟨c,f::ₘm⟩ : Local R)) (hadm : c.admitted=false)
    (hf : f.alone=none) (hc : c.pipe.isConnect) : Notice ⟨c,f::ₘm⟩ := by
  refine (hs.rejection.notice hadm hc).resolve_left ?_
  rintro ⟨g,hmem,hsome⟩
  obtain ⟨d,hd⟩ := Option.isSome_iff_exists.mp hsome
  have heq := hs.rejection.alone g hmem d hd
  injection heq with _ hframes
  obtain ⟨rfl,-⟩ := (Multiset.singleton_eq_cons_iff m).mp hframes.symm
  rw [hf] at hd
  cases hd

theorem carrying_le_sending (m : Multiset (Frame R)) :
    tok Frame.carrying m ≤ tok Frame.sending m := by
  apply tok_mono
  intro f
  cases f with
  | pipe pc => cases pc <;> simp [Frame.carrying,Frame.sending]
  | _ => simp [Frame.carrying]

/-- A step in the send path. -/
theorem pipe {pc pc' : At} {p : SendPipeline.Session} (h : Delivery lost b ⟨c,.pipe pc::ₘm⟩)
    (hs : Sound (⟨c,.pipe pc::ₘm⟩ : Local R)) (hadm : c.admitted=false) (hb : 0<b.writeSize)
    (ha : advance c.pipe o.ok pc=some (p,pc')) (hok : lost ∨ (pc=.transmit → o.ok)) :
    Delivery lost b ⟨pipeEffect c o.ok pc p,beside (pipeNext pc pc') m⟩ := by
  obtain ⟨hwire,hsingle,hframes,hflight,hoff,hdis,hcalm⟩ := h
  have hnotice := fun hcon => notice hs hadm (f:=.pipe pc) rfl hcon
  have hon := advance_onward (R:=R) (p:=c.pipe) (hframes pc (Multiset.mem_cons_self _ _)) hb hwire ha
    hok fun hcon _ => (hnotice hcon).close
  obtain ⟨n,d,heq⟩ := pipeEffect_eq c o.ok pc p
  rw [heq]
  obtain ⟨hnext,hw,hclose,hconnect,hoff',hdis',hfly,hbuf,hsum⟩ := hon
  simp only [tok_cons] at hsingle
  -- a thread that may touch the buffers is the only one in the send path
  have hsole : Frame.carrying (.pipe pc : Frame R)=1 ∨
      c.pipe.isConnect ∧ Frame.offering (.pipe pc : Frame R)=1 →
      tok Frame.carrying m=0 ∧ c.pipe.flight=none ∧ (c.pipe.isConnect → tok Frame.offering m=0) := by
    intro hpc
    have hle := carrying_le_sending m
    have hle' := offering_le_sending m
    have hpos : 1 ≤ Frame.sending (.pipe pc : Frame R) := by
      rcases hpc with hpc|⟨-,hpc⟩ <;>
        cases pc <;> simp [Frame.carrying,Frame.offering,Frame.sending] at hpc ⊢
    have hone : c.pipe.isConnect → tok Frame.sending m=0 ∧ c.pipe.flight=none := by
      intro hcon
      have hone := (hnotice hcon).one
      simp only [tok_cons] at hone
      refine ⟨by omega,?_⟩
      cases hf : c.pipe.flight with
      | none => rfl
      | some bytes =>
        rw [hf,Option.isSome_some,Bool.toNat_true] at hone
        omega
    refine ⟨?_,?_,fun hcon => by have := (hone hcon).1; omega⟩
    · rcases hpc with hpc|⟨hcon,-⟩
      · omega
      · have := (hone hcon).1
        omega
    · rcases hpc with hpc|⟨hcon,-⟩
      · cases hf : c.pipe.flight with
        | none => rfl
        | some bytes =>
          rw [hf,Option.isSome_some,Bool.toNat_true] at hsingle
          omega
      · exact (hone hcon).2
  constructor
  · simp only [hw]
    exact hwire
  · simp only [tok_beside]
    rcases hsum with hle|⟨hcon,hoffer,hf,hle⟩
    · omega
    · obtain ⟨hz,hnone,-⟩ := hsole (Or.inr ⟨hcon,hoffer⟩)
      rw [hf,hnone,Option.isSome_none,Bool.toNat_false]
      omega
  · intro pc₂ hmem
    rcases Multiset.mem_add.mp hmem with hin|hin
    · have heq : pc₂=pc' := by
        rw [Multiset.mem_coe] at hin
        cases pc' <;> cases pc <;> simp [pipeNext] at hin <;> exact hin
      rw [heq]
      exact hnext
    · have hold := hframes pc₂ (Multiset.mem_cons_of_mem hin)
      rcases hbuf with ⟨hq,he⟩|hpc
      · exact hold.same hq he hw hclose hconnect
      · obtain ⟨hz,-,hoffer⟩ := hsole hpc
        apply hold.light (R:=R) _ _ (fun hall => hw.trans hall)
        · by_contra hne
          have := tok_pos_of_mem hin (Nat.pos_of_ne_zero hne)
          omega
        · intro hcon
          have hzero := hoffer (hconnect hcon)
          by_contra hne
          have := tok_pos_of_mem hin (Nat.pos_of_ne_zero hne)
          omega
  · intro bytes hf
    simp only at hf ⊢
    rcases hfly with hsame|⟨-,bytes',hf',hcarry,hbytes,hlt⟩
    · rw [hsame] at hf
      obtain ⟨hcarry,hbytes,hlt⟩ := hflight bytes hf
      rcases hbuf with ⟨hq,he⟩|hpc
      · rw [hw]
        exact ⟨hcarry.same hq he hw hclose hconnect,hbytes,hlt⟩
      · have hnone := (hsole hpc).2.1
        rw [hnone] at hf
        cases hf
    · rw [hf'] at hf
      cases hf
      rw [hw]
      exact ⟨hcarry,hbytes,hlt⟩
  · intro hhad hcon
    simp only [hw]
    rcases hoff' hcon with hold|hdone
    · exact hoff hhad hold
    · exact hdone
  · intro hd
    simp only [hw]
    exact (hdis' hd).elim hdis id
  · exact hcalm

/-- Steps that hand nothing over. -/
theorem aside {m' : Multiset (Frame R)} {fs : List (Frame R)} (h : Delivery lost b ⟨c,m'⟩)
    (hm : m ≤ m') (hwire : c'.pipe.wire=c.pipe.wire) (hfly : c'.pipe.flight=c.pipe.flight)
    (hcon : c'.pipe.isConnect=c.pipe.isConnect) (hhad : c'.hadConnected=c.hadConnected)
    (hdis : c'.pipe.disconnecting → c.pipe.disconnecting) (hcalm : lost ∨ c'.closing=c.closing)
    (hcarry : ∀ pc, Carries lost b c.pipe pc → Carries lost b c'.pipe pc)
    (hfs : ∀ g∈fs, g.carrying=0 ∧ ∀ pc, g=.pipe pc → Carries lost b c'.pipe pc) :
    Delivery lost b ⟨c',beside fs m⟩ := by
  have hsum : (fs.map Frame.carrying).sum=0 := by
    rw [List.sum_eq_zero_iff]
    intro n hn
    obtain ⟨g,hg,rfl⟩ := List.mem_map.mp hn
    exact (hfs g hg).1
  have hle : tok Frame.carrying m ≤ tok Frame.carrying m' := by
    obtain ⟨n,rfl⟩ := Multiset.le_iff_exists_add.mp hm
    simp [tok]
  have hsingle := h.single
  constructor <;> simp only [hwire,hfly,hcon,hhad]
  · exact h.wire
  · simp only [tok_beside] at hsingle ⊢
    omega
  · intro pc hmem
    rcases Multiset.mem_add.mp hmem with hin|hin
    · exact (hfs _ (Multiset.mem_coe.mp hin)).2 pc rfl
    · exact hcarry pc (h.frames pc (Multiset.mem_of_le hm hin))
  · intro bytes hf
    obtain ⟨htransmit,hrest⟩ := h.flight bytes hf
    exact ⟨hcarry _ htransmit,hrest⟩
  · exact h.off
  · exact fun hd => h.disconnecting (hdis hd)
  · rcases hcalm with hl|hclosing
    · exact Or.inl hl
    · rw [hclosing]
      exact h.calm

/-- Steps outside the send path leave the notice alone. -/
theorem outside {m' : Multiset (Frame R)} {fs : List (Frame R)} (h : Delivery lost b ⟨c,m'⟩)
    (hm : m ≤ m') (hpipe : c'.pipe=c.pipe) (hhad : c'.hadConnected=c.hadConnected)
    (hclosing : c'.closing=c.closing)
    (hfs : ∀ g∈fs, g.carrying=0 ∧ ∀ pc, g=.pipe pc → Carries lost b c.pipe pc) :
    Delivery lost b ⟨c',beside fs m⟩ := by
  rw [← hpipe] at hfs
  apply h.aside hm (by rw [hpipe]) (by rw [hpipe]) (by rw [hpipe]) hhad
  · rw [hpipe]
    exact id
  · exact Or.inr hclosing
  · rw [hpipe]
    exact fun pc hpc => hpc
  · exact hfs

/-- A thread that is alone in the session goes on with the rejection. -/
theorem alone {f : Frame R} {fs : List (Frame R)} (hf : f.alone=some c) (hadm : c'.admitted=false)
    (hn : f=.rejectNotice → o.notice=some b) (hx : exec c o f=some (c',fs)) :
    Delivery lost b ⟨c',beside fs 0⟩ := by
  cases f <;> cases hf
  case rejectNotice =>
    simp only [exec,hn rfl] at hx
    cases hx
    constructor <;> simp [beside,Core.init,SendPipeline.Session.init,Frame.carrying,tok]
    exact fun _ => ⟨rfl,rfl,rfl,rfl⟩
  case addSession =>
    simp only [exec] at hx
    split at hx <;> cases hx
    case h_2 => cases hadm
    all_goals constructor <;> simp [beside,Core.init,SendPipeline.Session.init,Frame.carrying,tok]
  all_goals
    cases hx
    constructor <;>
      simp [beside,Core.init,SendPipeline.Session.init,Frame.carrying,tok]

/-- The cleanup runs after the end of the connection. -/
theorem over_of_cleaning {f : Frame R} (h : Delivery lost b ⟨c,f::ₘm⟩)
    (hs : Sound (⟨c,f::ₘm⟩ : Local R)) (hf : f.cleaning=1) :
    c.pipe.isConnect=false ∧ (lost ∨ c.pipe.wire=b.bytes) := by
  have hr := hs.account.ran
  simp only [tok_cons,hf] at hr
  have hcon : c.pipe.isConnect=false := by
    by_contra hne
    have := (hs.account.of_connect (by simpa using hne)).1
    simp only at this
    omega
  refine ⟨hcon,?_⟩
  cases hhad : c.hadConnected with
  | true => exact h.off hhad hcon
  | false =>
    refine Or.inl (h.calm.resolve_right fun hclosing => ?_)
    have hq := hs.account.queued
    have hno := (hs.account.quiet hhad hclosing).1
    simp only at hno hq
    rw [hno,Bool.toNat_false] at hq
    omega

theorem fire {f : Frame R} {fs : List (Frame R)} (h : Delivery lost b ⟨c,f::ₘm⟩)
    (hs : Sound (⟨c,f::ₘm⟩ : Local R)) (hadm : c.admitted=false) (hadm' : c'.admitted=false)
    (hb : 0<b.writeSize) (hn : f=.rejectNotice → o.notice=some b)
    (hok : lost ∨ (f=.pipe .transmit → o.ok)) (hx : exec c o f=some (c',fs)) :
    Delivery lost b ⟨c',beside fs m⟩ := by
  cases halone : f.alone with
  | some d =>
    have heq := hs.rejection.alone f (Multiset.mem_cons_self f m) d halone
    injection heq with hcore hframes
    obtain ⟨-,rfl⟩ := (Multiset.singleton_eq_cons_iff m).mp hframes.symm
    subst hcore
    exact alone halone hadm' hn hx
  | none =>
    obtain ⟨hreceives,hgreets⟩ := hs.greeting.not_welcome hs.welcome hadm
    cases f with
    | addSession | rejectConnection | rejectStore | rejectClose | rejectCount | rejectNotice =>
      cases halone
    | processConnect | storeConnect => cases hgreets
    | countConnect | registerRecv | processRecv | onRecv | onRecvNext | postLogic => cases hreceives
    | pipe pc =>
      simp only [exec,Option.map_eq_some_iff,Prod.exists] at hx
      obtain ⟨p,pc',ha,hx⟩ := hx
      cases hx
      exact h.pipe hs hadm hb ha (hok.imp_right fun hall hpc => hall (by rw [hpc]))
    | queueCleanup | endJob | finishIo =>
      cases hx
      exact h.outside (Multiset.le_cons_self m _) rfl rfl rfl (by simp [Frame.carrying])
    | job j =>
      cases j with
      | packet => cases hreceives
      | cleanup =>
        cases hx
        exact h.outside (Multiset.le_cons_self m _) rfl rfl rfl (by simp [Frame.carrying])
    | body cleanup =>
      cases cleanup with
      | false => cases hreceives
      | true =>
        obtain ⟨hcon,hover⟩ := h.over_of_cleaning hs rfl
        simp only [exec] at hx
        split at hx <;> cases hx
        · exact h.outside (Multiset.le_cons_self m _) rfl rfl rfl (by simp [Frame.carrying])
        · exact h.outside (Multiset.le_cons_self m _) rfl rfl rfl (by simp [Frame.carrying])
        · apply h.outside (Multiset.le_cons_self m _) rfl rfl rfl
          simp [Frame.carrying,Carries,hcon]
        · apply h.outside (Multiset.le_cons_self m _) rfl rfl rfl
          simpa [Frame.carrying,Carries,Lifecycle.disconnect] using hover

theorem init : Delivery lost b (⟨Core.init,0⟩ : Local R) := by
  constructor <;> simp [Core.init,SendPipeline.Session.init,tok]

/-- What is in flight is the rest of the notice. -/
theorem rest {l : Local R} {bytes : List UInt8} (h : Delivery lost b l)
    (hfly : l.core.pipe.flight=some bytes) : l.core.pipe.wire++bytes=b.bytes := by
  rw [(h.flight bytes hfly).2.1]
  nth_rewrite 1 [List.prefix_iff_eq_take.mp h.wire]
  exact List.take_append_drop _ _

/-- The completion of the registered send hands over more of the notice. -/
theorem sendCompleted {n : BitVec 32} {bytes : List UInt8} (h : Delivery lost b ⟨c,m⟩)
    (hs : Sound (⟨c,m⟩ : Local R)) (hadm : c.admitted=false) (hok : lost ∨ 0<n.toInt)
    (hfly : c.pipe.flight=some bytes) (hn : n.toNat ≤ bytes.length) :
    Delivery lost b ⟨{ c with pipe := { c.pipe with
        flight := none, wire := c.pipe.wire++bytes.take n.toNat } },
      beside [.pipe (.processSend n),.finishIo] m⟩ := by
  have hmore := h.rest hfly
  obtain ⟨hwire,hsingle,hframes,hflight,hoff,hdis,hcalm⟩ := h
  obtain ⟨⟨hclose,hqueue,hdata⟩,hbytes,hlt⟩ := hflight bytes hfly
  simp only [hfly,Option.isSome_some,Bool.toNat_true] at hsingle
  have hpart : c.pipe.wire≠b.bytes := by
    intro hall
    rw [hall,b.bytes_length] at hlt
    exact lt_irrefl _ hlt
  have hlen : (c.pipe.wire++bytes.take n.toNat).length=c.pipe.wire.length+n.toNat := by
    rw [List.length_append,List.length_take,Nat.min_eq_left hn]
  -- a registered send that keeps the session connected is the notice
  have hoffer : c.pipe.isConnect → tok Frame.offering m=0 := by
    intro hcon
    have hnot : Notice ⟨c,m⟩ := by
      refine (hs.rejection.notice hadm hcon).resolve_left ?_
      rintro ⟨f,hmem,hsome⟩
      obtain ⟨d,hd⟩ := Option.isSome_iff_exists.mp hsome
      have heq := hs.rejection.alone f hmem d hd
      injection heq with hcore _
      rw [hcore,(alone_core hd).2.1] at hfly
      cases hfly
    have hone := hnot.one
    have hle := offering_le_sending m
    simp only [hfly,Option.isSome_some,Bool.toNat_true] at hone
    omega
  constructor
  · exact ⟨bytes.drop n.toNat,by rw [List.append_assoc,List.take_append_drop,hmore]⟩
  · simp [Frame.carrying]
    omega
  · intro pc hmem
    rcases Multiset.mem_add.mp hmem with hin|hin
    · simp only [Multiset.mem_coe,List.mem_cons,Frame.pipe.injEq,List.not_mem_nil,or_false,
        reduceCtorEq] at hin
      subst hin
      refine ⟨hclose,hqueue,?_,hok,?_⟩
      · simp only [hlen]
        omega
      · simp only [hlen,Nat.add_sub_cancel]
        exact hdata
    · apply (hframes pc hin).light (R:=R)
      · by_contra hne
        have := tok_pos_of_mem hin (Nat.pos_of_ne_zero hne)
        omega
      · intro hcon
        have hzero := hoffer hcon
        by_contra hne
        have := tok_pos_of_mem hin (Nat.pos_of_ne_zero hne)
        omega
      · intro hall
        exact absurd hall hpart
  · intro bytes' hf
    cases hf
  · intro hhad hcon
    exact Or.inl ((hoff hhad hcon).resolve_right hpart)
  · intro hd
    exact Or.inl ((hdis hd).resolve_right hpart)
  · exact hcalm

end Delivery

/-- What does not disturb the delivery of a notice: the send completes with some bytes, and the
server does not shut down. -/
def Entry.gentle : Entry → Prop
  | .sendCompleted numOfBytes => 0<numOfBytes.toInt
  | .beginShutdown | .clearSend => False
  | _ => True

theorem Delivery.enter {lost : Prop} {b : SendBuffer} {c c' : Core R} {m : Multiset (Frame R)}
    {e : Entry} {fs : List (Frame R)} (h : Delivery lost b ⟨c,m⟩) (hs : Sound (⟨c,m⟩ : Local R))
    (hadm : c.admitted=false) (hr : Reached ⟨c,m⟩ e) (hok : lost ∨ e.gentle)
    (hx : enter c e=some (c',fs)) : Delivery lost b ⟨c',beside fs m⟩ := by
  cases enter_enters hx with
  | offer => exact h.outside le_rfl rfl rfl rfl (by simp [Frame.carrying])
  | send | disconnect =>
    simp only [Reached,hadm] at hr
    cases hr
  | recvCompleted n hrecv =>
    have hwel := hs.greeting.welcomed (hs.welcome (by simp [hrecv]))
    rw [hadm] at hwel
    cases hwel
  | sendCompleted n bytes hfly hn => exact h.sendCompleted hs hadm hok hfly hn
  | disconnectCompleted hdis =>
    have hdone := h.disconnecting hdis
    refine h.aside le_rfl rfl rfl rfl rfl ?_ ?_ ?_ ?_
    · exact fun _ => hdis
    · exact Or.inr rfl
    · exact fun pc hpc => hpc.same rfl rfl rfl id id
    · simpa [Frame.carrying,Carries] using hdone
  | startJob => exact h.outside le_rfl rfl rfl rfl (by simp [Frame.carrying])
  | beginShutdown =>
    have hl : lost := hok.resolve_right id
    refine h.aside le_rfl rfl rfl rfl rfl ?_ ?_ ?_ ?_
    · exact id
    · exact Or.inl hl
    · exact fun pc hpc => hpc
    · simpa [Frame.carrying,Carries] using hl
  | clearSend =>
    have hl : lost := hok.resolve_right id
    refine h.aside le_rfl rfl rfl rfl rfl ?_ ?_ ?_ ?_
    · exact id
    · exact Or.inl hl
    · exact fun pc hpc => hpc.clear hl
    · simp

/-- The thread of a completion, until it has disconnected. -/
def completing : At → Bool
  | .processSend _ | .consume _ | .flushed | .disconnect _ => true
  | _ => false

namespace Delivery

variable {b : SendBuffer} {l : Local R}

/-- The thread of a completion sends what is left, and it goes on to disconnect when nothing is. -/
theorem consume {n : BitVec 32} (h : Delivery False b l) (hmem : .pipe (.consume n)∈l.frames)
    (ok : Bool) :
    ∃ p, advance l.core.pipe ok (.consume n)=
      some (p,if l.core.pipe.wire=b.bytes then .flushed else .registerSend) := by
  obtain ⟨hclose,-,hn,hpos,hdata⟩ := h.frames _ hmem
  have hrests := hdata.resolve_right fun hl => hl.1
  obtain ⟨e,he,hcase⟩ := hrests.completed h.wire hn (hpos.resolve_left id)
  simp only [advance,he]
  rcases hcase with hr|⟨hnone,hall⟩
  · have hpart : l.core.pipe.wire≠b.bytes := by
      intro hall
      have hlt := hr.lt
      rw [hall,b.bytes_length] at hlt
      exact lt_irrefl _ hlt
    rw [if_pos hr.hasPendingData,if_neg hpart]
    exact ⟨_,rfl⟩
  · rw [if_neg (by simp [hnone]),if_pos hall,if_pos hclose]
    exact ⟨_,rfl⟩

/-- Once all of the notice is handed over, the session is disconnected or is about to be. -/
theorem complete (h : Delivery False b l) (hs : Sound l) (hadm : l.core.admitted=false)
    (hb : 0<b.writeSize) (hwire : l.core.pipe.wire=b.bytes) :
    l.core.pipe.isConnect=false ∨ ∃ pc, .pipe pc∈l.frames ∧ completing pc := by
  rw [or_iff_not_imp_left]
  intro hcon
  have hcon : l.core.pipe.isConnect := by simpa using hcon
  have hlen : l.core.pipe.wire.length=b.writeSize := by rw [hwire,b.bytes_length]
  have hnil : l.core.pipe.wire≠[] := by
    intro hnil
    rw [hnil,List.length_nil] at hlen
    omega
  rcases hs.rejection.notice hadm hcon with ⟨f,hmem,hsome⟩|hnotice
  · obtain ⟨c,hc⟩ := Option.isSome_iff_exists.mp hsome
    have hcore := congrArg Local.core (hs.rejection.alone f hmem c hc)
    have hempty : c.pipe.wire=[] := by cases f <;> cases hc <;> rfl
    rw [hcore] at hnil
    exact absurd hempty hnil
  have hfly : l.core.pipe.flight=none := by
    cases hf : l.core.pipe.flight with
    | none => rfl
    | some bytes =>
      have := (h.flight bytes hf).2.2
      omega
  -- the one thread in the send path has nothing left to send
  have hone := hnotice.one
  rw [hfly,Option.isSome_none,Bool.toNat_false,Nat.add_zero] at hone
  obtain ⟨f,hmem,hf⟩ : ∃ f∈l.frames, f.sending≠0 := by
    by_contra hno
    rw [tok_eq_zero (by simpa using hno)] at hone
    cases hone
  cases f with
  | pipe pc =>
    refine ⟨pc,hmem,?_⟩
    have hcarry := h.frames pc hmem
    have hlt : ∀ e : SendEvent, ¬e.Rests b l.core.pipe.wire.length := by
      intro e hr
      have := hr.lt
      omega
    cases pc <;> simp_all [Carries,completing,Frame.sending]
  | _ => exact absurd rfl hf

end Delivery

end Lifecycle

end IocpServer.NetWork
