import IocpServer.Framework.Gate
import IocpServer.Framework.Pool
import IocpServer.Server.Dispatch

set_option linter.unusedSectionVars false

namespace IocpServer.Server.Dispatch

open NetWork (headerSize readHeader readPacket packetFormat RecvBuffer)
open Framing (WellFormed)
open Pool (weight weight_cons weight_add total)

variable {P S : Type} [DecidableEq S]

/-- The frame belongs to the one receive path of the session: it admits the session, has its completed
receive or is about to register the next one. -/
def Frame.token : Frame P → Nat
  | .addSession | .processConnect | .storeConnect | .countConnect | .rejectConnection | .registerRecv
  | .processRecv _ | .onRecv _ | .onRecvPacket _ _ | .postLogic _ _ | .posted _ | .onRecvNext _
  | .onRead _ => 1
  | _ => 0

/-- The packet that the frame is about to post. -/
def Frame.posting : Frame P → Multiset P
  | .postLogic pkt _ => {pkt}
  | _ => 0

/-- Nothing has been received. -/
def Nothing (c : Core P S) : Prop := c.dispatched=[] ∧ c.recvBuffer.data=[] ∧ c.stream=[]

/-- All received bytes up to the first `processLen` of the buffer are dispatched. -/
def Upto (c : Core P S) (processLen : Nat) : Prop :=
  processLen ≤ c.recvBuffer.data.length ∧
    c.dispatched.flatten++c.recvBuffer.data.drop processLen=c.stream

/-- What the frames of the receive path know about the buffer. -/
def Frame.Reads (c : Core P S) : Frame P → Prop
  | .addSession | .processConnect | .storeConnect | .countConnect | .rejectConnection => Nothing c
  | .registerRecv => Upto c 0
  | .processRecv bytes => c.dispatched.flatten++c.recvBuffer.data++bytes=c.stream
  | .onRecv n | .posted n | .onRecvNext n => Upto c n
  | .postLogic _ n => Upto c n
  | .onRecvPacket n size =>
    Upto c n ∧ headerSize ≤ size ∧ n+size ≤ c.recvBuffer.data.length ∧
      packetFormat.size (c.recvBuffer.data.drop n)=size
  | .onRead n => n<0 ∨ Upto c n.toNat
  | _ => True

/-- One receive is under way at most, what is dispatched are the frames that begin the stream, and as
long as the queue accepts packets all of them that have a handler and a body that parses are posted. -/
structure Receives (e : Env P) (c : Core P S) (m : Multiset (Frame P)) : Prop where
  token : weight Frame.token m+c.receiving ≤ c.offered.toNat
  reads : ∀ f∈m, f.Reads c
  whole : 0<c.receiving → Upto c 0
  fresh : c.offered=false → Nothing c
  frames : ∀ packet∈c.dispatched, WellFormed packetFormat packet
  sent : c.dispatched.flatten<+:c.stream
  post : Gated (!c.logicStopped) (c.pushed.filterMap Logic.packet?) (m.bind Frame.posting)
    (c.dispatched.filterMap (handlePacket e))

theorem Frame.posting_eq_zero {f : Frame P} (h : f.token=0) : f.posting=0 := by
  cases f <;> first | rfl | cases h

theorem Frame.reads_of_token {f : Frame P} (h : f.token=0) (c : Core P S) : f.Reads c := by
  cases f <;> trivial

theorem bind_posting_eq_zero {m : Multiset (Frame P)} (h : ∀ f∈m, f.token=0) :
    m.bind Frame.posting=0 := by
  apply Multiset.eq_zero_of_forall_notMem
  intro pkt hp
  obtain ⟨f,hf,hpkt⟩ := Multiset.mem_bind.mp hp
  rw [Frame.posting_eq_zero (h f hf)] at hpkt
  exact Multiset.notMem_zero pkt hpkt

theorem token_eq_zero {m : Multiset (Frame P)} (h : weight Frame.token m=0) :
    ∀ f∈m, f.token=0 := fun _ hf => Nat.eq_zero_of_le_zero (h ▸ Pool.le_weight hf)

/-- Which fields a step outside the receive path may change. -/
structure Aside (c c' : Core P S) : Prop where
  receiving : c'.receiving=c.receiving
  offered : c'.offered=c.offered
  recvBuffer : c'.recvBuffer=c.recvBuffer
  stream : c'.stream=c.stream
  dispatched : c'.dispatched=c.dispatched
  pushed : c'.pushed.filterMap Logic.packet?=c.pushed.filterMap Logic.packet?
  stopped : c.logicStopped=true → c'.logicStopped=true

theorem Aside.upto {c c' : Core P S} (h : Aside c c') {n : Nat} (hu : Upto c n) : Upto c' n := by
  unfold Upto
  rw [h.recvBuffer,h.dispatched,h.stream]
  exact hu

theorem Aside.nothing {c c' : Core P S} (h : Aside c c') (hn : Nothing c) : Nothing c' := by
  unfold Nothing
  rw [h.recvBuffer,h.dispatched,h.stream]
  exact hn

theorem Aside.reads {c c' : Core P S} (h : Aside c c') {f : Frame P} (hf : f.Reads c) : f.Reads c' := by
  cases f with
  | addSession | processConnect | storeConnect | countConnect | rejectConnection => exact h.nothing hf
  | registerRecv | onRecv | posted | onRecvNext | postLogic => exact h.upto hf
  | processRecv bytes =>
    simp only [Frame.Reads] at hf ⊢
    rw [h.recvBuffer,h.dispatched,h.stream]
    exact hf
  | onRecvPacket n size =>
    obtain ⟨hu,hrest⟩ := hf
    refine ⟨h.upto hu,?_⟩
    rw [h.recvBuffer]
    exact hrest
  | onRead n => exact hf.imp id h.upto
  | _ => trivial

namespace Receives

variable {e : Env P} {c c' : Core P S} {f : Frame P} {fs : List (Frame P)} {m : Multiset (Frame P)}

theorem stays_open (h : Receives e c m) (ha : Aside c c') {w : Multiset P}
    (hw : m.bind Frame.posting=w) :
    Gated (!c'.logicStopped) (c'.pushed.filterMap Logic.packet?) w
      (c'.dispatched.filterMap (handlePacket e)) := by
  rw [ha.pushed,ha.dispatched,← hw]
  cases hs : c'.logicStopped with
  | true => exact h.post.close
  | false =>
    have hopen : c.logicStopped=false := Bool.eq_false_iff.mpr fun hc =>
      absurd (hs.symm.trans (ha.stopped hc)) nofun
    have hpost := h.post
    rw [hopen] at hpost
    exact hpost

/-- A frame outside the receive path goes on. -/
theorem other (h : Receives e c (f::ₘm)) (hf : f.token=0) (hfs : ∀ g∈fs, g.token=0)
    (ha : Aside c c') : Receives e c' (fs+m) := by
  have htoken := h.token
  have hsum : (fs.map Frame.token).sum=0 :=
    List.sum_eq_zero fun n hn => by
      obtain ⟨g,hg,rfl⟩ := List.mem_map.mp hn
      exact hfs g hg
  rw [weight_cons,hf] at htoken
  refine ⟨?_,?_,?_,?_,?_,?_,h.stays_open ha ?_⟩
  · rw [weight_add,total,hsum,ha.receiving,ha.offered]
    exact htoken
  · intro g hg
    rcases Multiset.mem_add.mp hg with hg|hg
    · exact Frame.reads_of_token (hfs g (Multiset.mem_coe.mp hg)) c'
    · exact ha.reads (h.reads g (Multiset.mem_cons_of_mem hg))
  · intro hr
    rw [ha.receiving] at hr
    exact ha.upto (h.whole hr)
  · intro ho
    rw [ha.offered] at ho
    exact ha.nothing (h.fresh ho)
  · rw [ha.dispatched]
    exact h.frames
  · rw [ha.dispatched,ha.stream]
    exact h.sent
  · rw [Multiset.cons_bind,Frame.posting_eq_zero hf,Multiset.add_bind,
      bind_posting_eq_zero fun g hg => hfs g (Multiset.mem_coe.mp hg)]

/-- New frames outside the receive path. -/
theorem call (h : Receives e c m) (fs : List (Frame P)) (hfs : ∀ g∈fs, g.token=0)
    (ha : Aside c c') :
    Receives e c' (fs+m) := by
  have hcons : Receives e c (Frame.disconnect::ₘm) := by
    refine ⟨?_,?_,h.whole,h.fresh,h.frames,h.sent,?_⟩
    · rw [weight_cons]
      simp only [Frame.token,zero_add]
      exact h.token
    · intro g hg
      rcases Multiset.mem_cons.mp hg with rfl|hg
      · trivial
      · exact h.reads g hg
    · rw [Multiset.cons_bind]
      simp only [Frame.posting,zero_add]
      exact h.post
  exact hcons.other rfl hfs ha

/-- The receive path is one. -/
theorem sole (h : Receives e c (f::ₘm)) (hf : f.token=1) :
    (∀ g∈m, g.token=0) ∧ c.receiving=0 ∧ c.offered=true := by
  have htoken := h.token
  have hle := Bool.toNat_le c.offered
  rw [weight_cons,hf] at htoken
  refine ⟨token_eq_zero (by omega),by omega,?_⟩
  cases ho : c.offered with
  | true => rfl
  | false =>
    rw [ho,Bool.toNat_false] at htoken
    omega

theorem move (h : Receives e c (f::ₘm)) (fs : List (Frame P)) (hf : f.token=1)
    (hoff : c'.offered=c.offered) (htoken : (fs.map Frame.token).sum+c'.receiving ≤ 1)
    (hreads : ∀ g∈fs, g.Reads c') (hwhole : 0<c'.receiving → Upto c' 0)
    (hframes : ∀ packet∈c'.dispatched, WellFormed packetFormat packet)
    (hsent : c'.dispatched.flatten<+:c'.stream)
    (hpost : Gated (!c'.logicStopped) (c'.pushed.filterMap Logic.packet?)
      ((fs : Multiset (Frame P)).bind Frame.posting) (c'.dispatched.filterMap (handlePacket e))) :
    Receives e c' (fs+m) := by
  obtain ⟨hrest,-,ho⟩ := h.sole hf
  refine ⟨?_,?_,hwhole,?_,hframes,hsent,?_⟩
  · rw [weight_add,total,Pool.weight_eq_zero hrest,hoff,ho]
    exact htoken
  · intro g hg
    rcases Multiset.mem_add.mp hg with hg|hg
    · exact hreads g (Multiset.mem_coe.mp hg)
    · exact Frame.reads_of_token (hrest g hg) c'
  · intro hn
    rw [hoff,ho] at hn
    cases hn
  · rw [Multiset.add_bind,bind_posting_eq_zero hrest,add_zero]
    exact hpost

/-- The receive path goes on without posting anything. -/
theorem pass (h : Receives e c (f::ₘm)) (hf : f.token=1) (hp : f.posting=0) (ha : Aside c c')
    (htoken : (fs.map Frame.token).sum ≤ 1) (hreads : ∀ g∈fs, g.Reads c')
    (hfs : ∀ g∈fs, g.posting=0) : Receives e c' (fs+m) := by
  obtain ⟨hrest,hnone,-⟩ := h.sole hf
  refine h.move fs hf ha.offered ?_ hreads ?_ ?_ ?_ (h.stays_open ha ?_)
  · rw [ha.receiving,hnone]
    exact htoken
  · rw [ha.receiving,hnone]
    exact fun hr => absurd hr (Nat.lt_irrefl 0)
  · rw [ha.dispatched]
    exact h.frames
  · rw [ha.dispatched,ha.stream]
    exact h.sent
  · rw [Multiset.cons_bind,hp,bind_posting_eq_zero hrest]
    symm
    apply Multiset.eq_zero_of_forall_notMem
    intro pkt hpkt
    obtain ⟨g,hg,hpkt⟩ := Multiset.mem_bind.mp hpkt
    rw [hfs g (Multiset.mem_coe.mp hg)] at hpkt
    exact Multiset.notMem_zero pkt hpkt

end Receives

theorem Aside.refl (c : Core P S) : Aside c c := ⟨rfl,rfl,rfl,rfl,rfl,rfl,id⟩

/-- The frames outside the receive path leave it alone. -/
theorem exec_aside {e : Env P} {x : S} {c : Core P S} {o : Choice} {f : Frame P} {r : Outcome P S}
    (hf : f.token=0) (h : exec e x c o f=some r) : Aside c r.core ∧ ∀ g∈r.frames, g.token=0 := by
  cases exec_move h with
  | rejectStore | noticeFailed | disconnect | disconnected | registerDisconnect | disconnectFailed
  | processDisconnect | processed | closeFlags | queued | shutdownBegun | beginShutdown | closeSocket
  | handle | drop | startCleanup | jobEnds | endLogic =>
    exact ⟨⟨rfl,rfl,rfl,rfl,rfl,rfl,id⟩,by simp [Frame.token]⟩
  | queueCleanup =>
    refine ⟨⟨rfl,rfl,rfl,rfl,rfl,?_,id⟩,by simp [Frame.token]⟩
    simp [Logic.packet?]
  | stopLogic => exact ⟨⟨rfl,rfl,rfl,rfl,rfl,rfl,fun _ => rfl⟩,by simp [Frame.token]⟩
  | jobRuns | jobDisconnects =>
    exact ⟨⟨rfl,rfl,rfl,rfl,rfl,rfl,id⟩,by simpa [Frame.token] using hf⟩
  | _ => cases hf

namespace Receives

variable {e : Env P} {c : Core P S} {m : Multiset (Frame P)}

/-- The receive path goes on with at most one frame that posts nothing. -/
theorem goOn {f : Frame P} {c' : Core P S} {fs : List (Frame P)} (h : Receives e c (f::ₘm))
    (hf : f.token=1) (hp : f.posting=0) (ha : Aside c c')
    (hfs : fs=[] ∨ ∃ g, fs=[g] ∧ g.posting=0 ∧ g.Reads c') : Receives e c' (fs+m) := by
  rcases hfs with rfl|⟨g,rfl,hg,hreads⟩
  · exact h.pass hf hp ha (by simp) nofun nofun
  · refine h.pass hf hp ha ?_ ?_ ?_
    · cases g <;> simp [Frame.token]
    · intro g' hg'
      rw [List.mem_singleton.mp hg']
      exact hreads
    · intro g' hg'
      rw [List.mem_singleton.mp hg']
      exact hg

/-- The buffer moves while nothing is posted. -/
theorem rebuffer {f g : Frame P} {recvBuffer : RecvBuffer} (h : Receives e c (f::ₘm)) (hf : f.token=1)
    (hp : f.posting=0) (hg : g.posting=0) (hreads : g.Reads { c with recvBuffer }) :
    Receives e { c with recvBuffer } ([g]+m) := by
  obtain ⟨hrest,hnone,-⟩ := h.sole hf
  have hpost := h.post
  rw [Multiset.cons_bind,hp,bind_posting_eq_zero hrest] at hpost
  refine h.move [g] hf rfl ?_ ?_ ?_ h.frames h.sent ?_
  · rw [hnone]
    cases g <;> simp [Frame.token]
  · intro g' hg'
    rw [List.mem_singleton.mp hg']
    exact hreads
  · intro hr
    exact absurd hr (by simp [hnone])
  · rw [Multiset.coe_singleton,Multiset.singleton_bind,hg]
    exact hpost

/-- The bytes of a completed receive are in the buffer. -/
theorem processRecv {bytes : List UInt8} {recvBuffer : RecvBuffer}
    (h : Receives e c (.processRecv bytes::ₘm))
    (hwrite : (c.recvBuffer.fill bytes).onWrite bytes.length=some recvBuffer) :
    Receives e { c with recvBuffer } (([.onRecv 0] : List (Frame P))+m) := by
  have hreads := h.reads _ (Multiset.mem_cons_self _ m)
  refine h.rebuffer (g:=.onRecv 0) rfl rfl rfl ⟨Nat.zero_le _,?_⟩
  simp only [RecvBuffer.data_of_onWrite hwrite,List.drop_zero,← List.append_assoc]
  exact hreads

theorem wait {n : Nat} (h : Receives e c (.onRecv n::ₘm)) :
    Receives e c (([.onRead n] : List (Frame P))+m) := by
  have hupto : Upto c n := h.reads _ (Multiset.mem_cons_self _ m)
  exact h.goOn rfl rfl (.refl c)
    (Or.inr ⟨_,rfl,rfl,Or.inr (by rw [Int.toNat_natCast]; exact hupto)⟩)

/-- A whole packet lies in the buffer. -/
theorem onRecv {n : Nat} {header : NetWork.PacketHeader} (h : Receives e c (.onRecv n::ₘm))
    (hheader : readHeader c.recvBuffer.data n=some header) (hsize : headerSize ≤ header.size)
    (hfits : header.size ≤ c.recvBuffer.data.length-n) :
    Receives e c (([.onRecvPacket n header.size] : List (Frame P))+m) := by
  have hupto : Upto c n := h.reads _ (Multiset.mem_cons_self _ m)
  have hle := hupto.1
  have hroom : n+headerSize ≤ c.recvBuffer.data.length := by omega
  obtain ⟨id,hread⟩ := NetWork.readHeader_of_le hroom
  rw [hheader] at hread
  cases hread
  refine h.goOn rfl rfl (.refl c) (Or.inr ⟨_,rfl,rfl,hupto,hsize,?_,rfl⟩)
  omega

/-- The packet goes from the buffer to what is dispatched. -/
theorem dispatched {n size : Nat} {packet : List UInt8} (h : Receives e c (.onRecvPacket n size::ₘm))
    (hpacket : readPacket c.recvBuffer.data n size=some packet) :
    Upto { c with dispatched := c.dispatched++[packet] } (n+size) ∧
      ∀ p∈c.dispatched++[packet], WellFormed packetFormat p := by
  obtain ⟨⟨hle,hcut⟩,hheader,hin,hsize⟩ := h.reads _ (Multiset.mem_cons_self _ m)
  have hpacket' : readPacket c.recvBuffer.data n size=some ((c.recvBuffer.data.drop n).take size) :=
    if_pos hin
  rw [hpacket'] at hpacket
  cases hpacket
  constructor
  · refine ⟨hin,?_⟩
    simp only [List.flatten_append,List.flatten_singleton,List.append_assoc,← List.drop_drop,
      List.take_append_drop]
    exact hcut
  · intro p hp
    rcases List.mem_append.mp hp with hp|hp
    · exact h.frames p hp
    · rw [List.mem_singleton.mp hp]
      have htake := Framing.wellFormed_take (F:=packetFormat) (s:=c.recvBuffer.data.drop n)
      rw [hsize,List.length_drop] at htake
      exact htake hheader (by omega)

/-- The packet has no handler, or its body does not parse. -/
theorem skip {n size : Nat} {packet : List UInt8} (h : Receives e c (.onRecvPacket n size::ₘm))
    (hpacket : readPacket c.recvBuffer.data n size=some packet)
    (hparse : handlePacket e packet=none) :
    Receives e { c with dispatched := c.dispatched++[packet] }
      (([.onRecvNext (n+size)] : List (Frame P))+m) := by
  obtain ⟨hrest,hnone,-⟩ := h.sole rfl
  obtain ⟨hupto,hframes⟩ := h.dispatched hpacket
  have hpost := h.post
  rw [Multiset.cons_bind,bind_posting_eq_zero hrest] at hpost
  refine h.move [.onRecvNext (n+size)] rfl rfl ?_ ?_ ?_ hframes ⟨_,hupto.2⟩ ?_
  · simp [hnone,Frame.token]
  · intro g hg
    rw [List.mem_singleton.mp hg]
    exact hupto
  · intro hr
    exact absurd hr (by simp [hnone])
  · simp only [List.filterMap_append,List.filterMap_cons,hparse,List.filterMap_nil,List.append_nil]
    exact hpost

theorem onRecvPacket {n size : Nat} {packet : List UInt8} {pkt : P}
    (h : Receives e c (.onRecvPacket n size::ₘm))
    (hpacket : readPacket c.recvBuffer.data n size=some packet)
    (hparse : handlePacket e packet=some pkt) :
    Receives e { c with dispatched := c.dispatched++[packet] }
      (([.postLogic pkt (n+size)] : List (Frame P))+m) := by
  obtain ⟨hrest,hnone,-⟩ := h.sole rfl
  obtain ⟨hupto,hframes⟩ := h.dispatched hpacket
  have hpost := h.post
  rw [Multiset.cons_bind,bind_posting_eq_zero hrest] at hpost
  refine h.move [.postLogic pkt (n+size)] rfl rfl ?_ ?_ ?_ hframes ⟨_,hupto.2⟩ ?_
  · simp [hnone,Frame.token]
  · intro g hg
    rw [List.mem_singleton.mp hg]
    exact hupto
  · intro hr
    exact absurd hr (by simp [hnone])
  · simp only [List.filterMap_append,List.filterMap_cons,hparse,List.filterMap_nil]
    exact Gated.arrive hpost pkt

/-- A stopped queue takes no packet. -/
theorem stopped {pkt : P} {n : Nat} (h : Receives e c (.postLogic pkt n::ₘm))
    (hstop : c.logicStopped=true) : Receives e c (([.onRecvNext n] : List (Frame P))+m) := by
  have hupto : Upto c n := h.reads _ (Multiset.mem_cons_self _ m)
  obtain ⟨hrest,hnone,-⟩ := h.sole rfl
  have hpost := h.post
  rw [Multiset.cons_bind,bind_posting_eq_zero hrest,add_zero] at hpost
  refine h.move [.onRecvNext n] rfl rfl ?_ ?_ h.whole h.frames h.sent ?_
  · simp [hnone,Frame.token]
  · intro g hg
    rw [List.mem_singleton.mp hg]
    exact hupto
  · exact Gated.drop hpost (by rw [hstop]; rfl)

theorem postLogic {pkt : P} {n : Nat} (h : Receives e c (.postLogic pkt n::ₘm))
    (hopen : c.logicStopped=false) :
    Receives e { c with logicLock := true, pushed := c.pushed++[.packet pkt] }
      (([.posted n] : List (Frame P))+m) := by
  have hupto : Upto c n := h.reads _ (Multiset.mem_cons_self _ m)
  obtain ⟨hrest,hnone,-⟩ := h.sole rfl
  have hpost := h.post
  rw [Multiset.cons_bind,bind_posting_eq_zero hrest,add_zero] at hpost
  refine h.move [.posted n] rfl rfl ?_ ?_ h.whole h.frames h.sent ?_
  · simp [hnone,Frame.token]
  · intro g hg
    rw [List.mem_singleton.mp hg]
    exact hupto
  · simp only [List.filterMap_append,List.filterMap_cons,Logic.packet?,List.filterMap_nil]
    exact Gated.pass hpost (by rw [hopen]; rfl)

/-- The dispatched packets leave the buffer. -/
theorem onRead {n : Int} {recvBuffer : RecvBuffer} (h : Receives e c (.onRead n::ₘm)) (hn : 0 ≤ n)
    (hread : c.recvBuffer.onRead n.toNat=some recvBuffer) :
    Receives e { c with recvBuffer := recvBuffer.clean }
      (([.registerRecv] : List (Frame P))+m) := by
  have hreads : n<0 ∨ Upto c n.toNat := h.reads _ (Multiset.mem_cons_self _ m)
  have hupto := hreads.resolve_left (Int.not_lt.mpr hn)
  refine h.rebuffer (g:=.registerRecv) rfl rfl rfl ⟨Nat.zero_le _,?_⟩
  simp only [RecvBuffer.data_clean,(RecvBuffer.data_of_onRead hread).2,List.drop_zero]
  exact hupto.2

theorem registerRecv (h : Receives e c (.registerRecv::ₘm)) :
    Receives e { c with receiving := c.receiving+1 } (([] : List (Frame P))+m) := by
  have hupto : Upto c 0 := h.reads _ (Multiset.mem_cons_self _ m)
  obtain ⟨hrest,hnone,-⟩ := h.sole rfl
  have hpost := h.post
  rw [Multiset.cons_bind,bind_posting_eq_zero hrest] at hpost
  refine h.move [] rfl rfl ?_ nofun (fun _ => hupto) h.frames h.sent hpost
  simp [hnone]

end Receives

theorem exec_receives {e : Env P} {x : S} {c : Core P S} {o : Choice} {f : Frame P} {r : Outcome P S}
    {m : Multiset (Frame P)} (h : Receives e c (f::ₘm)) (hx : exec e x c o f=some r) :
    Receives e r.core (r.frames+m) := by
  have hreads := h.reads f (Multiset.mem_cons_self f m)
  by_cases hf : f.token=0
  · obtain ⟨ha,hfs⟩ := exec_aside hf hx
    exact h.other hf hfs ha
  cases exec_move hx with
  | full | added | processConnect | storeConnect | posted =>
    exact h.goOn rfl rfl ⟨rfl,rfl,rfl,rfl,rfl,rfl,id⟩ (Or.inr ⟨_,rfl,rfl,hreads⟩)
  | known | connected | recvOff | receivedOff =>
    exact h.goOn rfl rfl ⟨rfl,rfl,rfl,rfl,rfl,rfl,id⟩ (Or.inl rfl)
  | rejectConnection | recvFailed | receivedNone | unread =>
    exact h.goOn rfl rfl ⟨rfl,rfl,rfl,rfl,rfl,rfl,id⟩ (Or.inr ⟨_,rfl,rfl,trivial⟩)
  | countConnect =>
    obtain ⟨hdis,hdata,hstream⟩ := hreads
    refine h.goOn rfl rfl ⟨rfl,rfl,rfl,rfl,rfl,rfl,id⟩ (Or.inr ⟨_,rfl,rfl,Nat.zero_le _,?_⟩)
    simp [hdis,hdata,hstream]
  | registerRecv => exact h.registerRecv
  | processRecv bytes recvBuffer _ _ hwrite => exact h.processRecv hwrite
  | wait => exact h.wait
  | malformed => exact h.goOn rfl rfl (.refl c) (Or.inr ⟨_,rfl,rfl,Or.inl (by decide)⟩)
  | onRecv n header hheader hsize hfits => exact h.onRecv hheader hsize hfits
  | skip n size packet hpacket hparse => exact h.skip hpacket hparse
  | onRecvPacket n size packet pkt hpacket hparse => exact h.onRecvPacket hpacket hparse
  | stopped pkt n hstop => exact h.stopped hstop
  | postLogic pkt n hfree hopen => exact h.postLogic hopen
  | recvNext => exact h.goOn rfl rfl (.refl c) (Or.inr ⟨_,rfl,rfl,hreads⟩)
  | recvEnd =>
    refine h.goOn rfl rfl (.refl c) (Or.inr ⟨_,rfl,rfl,Or.inr ?_⟩)
    rw [Int.toNat_natCast]
    exact hreads
  | onRead n recvBuffer hn hread => exact h.onRead hn hread
  | jobEnds _ hbody | jobRuns _ hbody | jobDisconnects _ hbody =>
    cases f <;> first | exact absurd rfl hf | cases hbody
  | _ => exact absurd rfl hf

theorem enter_receives {e : Env P} {c c' : Core P S} {en : Entry} {fs : List (Frame P)}
    {m : Multiset (Frame P)} (h : Receives e c m) (hx : enter c en=some (c',fs)) :
    Receives e c' (fs+m) := by
  have htoken := h.token
  cases en with
  | offer =>
    simp only [enter] at hx
    split at hx <;> cases hx
    rename_i hoff
    have hoff := Bool.eq_false_iff.mpr hoff
    rw [hoff,Bool.toNat_false] at htoken
    have hm := token_eq_zero (m:=m) (by omega)
    refine ⟨?_,?_,?_,nofun,h.frames,h.sent,?_⟩
    · rw [weight_add,total]
      simp [Frame.token]
      omega
    · intro g hg
      rcases Multiset.mem_add.mp hg with hg|hg
      · rw [List.mem_singleton.mp (Multiset.mem_coe.mp hg)]
        exact h.fresh hoff
      · exact Frame.reads_of_token (hm g hg) _
    · exact h.whole
    · rw [Multiset.add_bind,Multiset.coe_singleton,Multiset.singleton_bind]
      simp only [Frame.posting,zero_add]
      exact h.post
  | disconnect | beginShutdown =>
    cases hx
    exact h.call _ (by simp [Frame.token]) (.refl c)
  | recvCompleted bytes =>
    simp only [enter] at hx
    split at hx <;> cases hx
    rename_i hr
    have hle := Bool.toNat_le c.offered
    obtain ⟨-,hcut⟩ := h.whole (Nat.pos_of_ne_zero hr)
    have hm := token_eq_zero (m:=m) (by omega)
    rw [List.drop_zero] at hcut
    refine ⟨?_,?_,?_,?_,h.frames,h.sent.trans (List.prefix_append _ _),?_⟩
    · rw [weight_add,total]
      simp [Frame.token]
      omega
    · intro g hg
      rcases Multiset.mem_add.mp hg with hg|hg
      · rw [List.mem_singleton.mp (Multiset.mem_coe.mp hg)]
        simp only [Frame.Reads,hcut]
      · exact Frame.reads_of_token (hm g hg) _
    · intro hpos
      simp only at hpos
      omega
    · intro ho
      simp only at ho
      rw [ho,Bool.toNat_false] at htoken
      omega
    · rw [Multiset.add_bind,Multiset.coe_singleton,Multiset.singleton_bind]
      simp only [Frame.posting,zero_add]
      exact h.post
  | disconnectCompleted =>
    simp only [enter] at hx
    split at hx <;> cases hx
    exact h.call _ (by simp [Frame.token]) ⟨rfl,rfl,rfl,rfl,rfl,rfl,id⟩

end IocpServer.Server.Dispatch
