import IocpServer.TestClient.TestSession

namespace IocpServer.TestClient

open NetWork (SendBuffer SendEvent streamOf)
open Pool (weight weight_cons weight_add total le_weight)

variable {β : Type}

/-- The frame owns the registration that `_is_send_register` announces: it will register a send, give
the flag back, or close the connection after a failed send. -/
def Frame.holds : Frame β → Nat
  | .registerSend _ | .processSend _ | .disconnect true _ => 1
  | _ => 0

/-- The frame belongs to `send`, `register_send` or `process_send`. -/
def Frame.sending : Frame β → Bool
  | .send _ _ | .registerSend _ | .processSend _ | .disconnect true _ => true
  | _ => false

theorem Frame.holds_of_not_sending {f : Frame β} (h : f.sending=false) : f.holds=0 := by
  cases f with
  | send | registerSend | processSend => cases h
  | disconnect sending after =>
    cases sending with
    | true => cases h
    | false => rfl
  | _ => rfl

theorem rollback_holds (after : After) : ∀ f∈(rollback after : List (Frame β)), f.holds=0 := by
  cases after <;> simp [rollback,Frame.holds]

theorem consumeSentBytes_some {ev ev' : SendEvent} {n : Nat}
    (h : consumeSentBytes ev n=some ev') : n≠0 ∧ n ≤ ev.rest.length ∧ ev'.rest=ev.rest.drop n := by
  unfold consumeSentBytes at h
  split at h
  · cases h
  · rename_i hzero
    split at h
    · rename_i hle
      obtain ⟨ev'',hev,hrest⟩ := ev.consume_spec n hle
      rw [hev] at h
      cases h
      exact ⟨hzero,ev.remaining_eq ▸ hle,hrest⟩
    · cases h

theorem handle_holds (e : Env β) (botIndex : UInt32) (pkt : Reply) :
    ∀ f∈handle e botIndex pkt, f.holds=0 := by
  unfold handle
  split
  case h_2 =>
    split
    · simp [Frame.holds]
    · split <;> simp [Frame.holds,disconnect]
  all_goals simp [Frame.holds,disconnect]

/-- The frame is a section of the send path. -/
def Frame.inPipe : Frame β → Bool
  | .send _ _ | .registerSend _ | .processSend _ | .disconnect _ _ => true
  | _ => false

/-- The other methods leave the send path alone. -/
theorem exec_other {e : Env β} {c c' : TestSession β} {o : Choice} {f : Frame β}
    {fs : List (Frame β)} (hf : f.inPipe=false) (h : exec e c o f=some (c',fs)) :
    c'.toPipe=c.toPipe ∧ ∀ g∈fs, g.holds=0 := by
  cases exec_move h with
  | unsent | queued | send | sendOff | nothing | registerSend | sendFailed | sentOff | refuse
  | remainder | emptied | requeue | disconnect => cases hf
  | recvOff fromStart | recvFailed fromStart =>
    exact ⟨rfl,by cases fromStart <;> simp [Frame.holds,disconnect]⟩
  | reply pkt =>
    refine ⟨rfl,?_⟩
    intro g hg
    rcases List.mem_append.mp hg with hg|hg
    · exact handle_holds e c.botIndex pkt g hg
    · rw [List.mem_singleton.mp hg]
      rfl
  | completeLogin =>
    refine ⟨?_,nofun⟩
    unfold TestSession.completeLogin
    split <;> rfl
  | completeEnterRoom =>
    refine ⟨?_,nofun⟩
    unfold TestSession.completeEnterRoom
    split <;> rfl
  | completeExitRoom =>
    refine ⟨?_,nofun⟩
    unfold TestSession.completeExitRoom
    split <;> rfl
  | _ => exact ⟨rfl,by simp [Frame.holds,disconnect]⟩

namespace Pipe

variable (e : Env β)

/-- The bytes of several buffers. -/
def stream (bs : List β) : List UInt8 := streamOf (bs.map e.sendBuffer)

@[simp] theorem stream_nil : stream e []=[] := rfl

@[simp] theorem stream_append (xs ys : List β) : stream e (xs++ys)=stream e xs++stream e ys := by
  simp [stream]

/-- All accepted bytes are transmitted, in the event behind `gone` transmitted ones, or queued. -/
def Books (p : Pipe β) (gone : Nat) : Prop :=
  p.wire++p.sendEvent.rest.drop gone++stream e p.sendQueue=stream e p.accepted

/-- A pushed buffer goes to the end of both. -/
theorem Books.push {e : Env β} {p : Pipe β} {gone : Nat} (h : p.Books e gone) (b : β)
    (isSendRegister : Bool) :
    Books e { p with sendQueue := p.sendQueue++[b], accepted := p.accepted++[b], isSendRegister }
      gone := by
  have hcut : p.wire++p.sendEvent.rest.drop gone++stream e p.sendQueue=stream e p.accepted := h
  simp only [Books,stream_append,← hcut,List.append_assoc]

/-- Who owns the registration of a session, and where its accepted bytes are. -/
structure Inv (p : Pipe β) (m : Multiset (Frame β)) : Prop where
  once : p.isConnect=true → p.isDisconnect=false
  one : weight Frame.holds m+p.flights.length ≤ 1
  flag : p.isDisconnect=false → weight Frame.holds m+p.flights.length=p.isSendRegister.toNat
  idle : p.isDisconnect=false → p.isSendRegister=false →
    p.sendEvent.rest=[] ∧ p.sendQueue=[] ∧ p.wire=stream e p.accepted
  register : p.isDisconnect=false → ∀ after, .registerSend after∈m → p.Books e 0
  process : p.isDisconnect=false → ∀ n, .processSend n∈m →
    ∃ gone, p.Books e gone ∧
      (n.toNat=gone ∨ n.toNat=0 ∨ p.sendEvent.rest.length<n.toNat)
  fly : p.isDisconnect=false → ∀ f∈p.flights, p.sendEvent.rest=f.bytes ∧ p.Books e f.sent
  unsent : ∀ f∈p.flights, p.wire++f.bytes.drop f.sent<+:stream e p.accepted
  sent : p.wire<+:stream e p.accepted
  fresh : p.isConnect=false → p.isDisconnect=false → p.isSendRegister=false

theorem inv_init (botIndex : UInt32) : Inv e (TestSession.init botIndex : TestSession β).toPipe 0 := by
  constructor <;> simp [TestSession.init]

variable {e} {p p' : Pipe β} {f : Frame β} {fs : List (Frame β)} {m : Multiset (Frame β)}

theorem sum_holds_eq_zero (h : ∀ g∈fs, g.holds=0) : (fs.map Frame.holds).sum=0 := by
  apply List.sum_eq_zero
  intro n hn
  obtain ⟨g,hg,rfl⟩ := List.mem_map.mp hn
  exact h g hg

/-- A frame of weight one is not among frames of weight zero. -/
theorem not_mem_of_holds (h : weight Frame.holds m=0) (hf : f.holds=1) : f∉m := by
  intro hmem
  have := le_weight (w:=Frame.holds) hmem
  omega

namespace Inv

/-- A step that does not concern the send path. -/
theorem other (h : Inv e p (f::ₘm)) (hf : f.holds=0) (hfs : ∀ g∈fs, g.holds=0) :
    Inv e p (fs+m) := by
  have hweight : weight Frame.holds ((fs : Multiset (Frame β))+m)=weight Frame.holds (f::ₘm) := by
    rw [weight_add,total,weight_cons,hf,sum_holds_eq_zero hfs]
  have hmem : ∀ g : Frame β, g.holds=1 → g∈(fs : Multiset (Frame β))+m → g∈f::ₘm := by
    intro g hg hmem
    rcases Multiset.mem_add.mp hmem with hnew|hold
    · have := hfs g hnew
      omega
    · exact Multiset.mem_cons_of_mem hold
  refine ⟨h.once,?_,?_,h.idle,?_,?_,h.fly,h.unsent,h.sent,h.fresh⟩
  · rw [hweight]
    exact h.one
  · rw [hweight]
    exact h.flag
  · intro hd after hafter
    exact h.register hd after (hmem _ rfl hafter)
  · intro hd n hn
    exact h.process hd n (hmem _ rfl hn)

/-- A call that does not concern the send path. -/
theorem call (h : Inv e p m) (hfs : ∀ g∈fs, g.holds=0) : Inv e p (fs+m) := by
  have hcons : Inv e p (.start::ₘm) := by
    refine ⟨h.once,?_,?_,h.idle,?_,?_,h.fly,h.unsent,h.sent,h.fresh⟩
    · rw [weight_cons]
      exact (Nat.zero_add _).symm ▸ h.one
    · rw [weight_cons]
      exact (Nat.zero_add _).symm ▸ h.flag
    · intro hd after hafter
      exact h.register hd after ((Multiset.mem_cons.mp hafter).resolve_left nofun)
    · intro hd n hn
      exact h.process hd n ((Multiset.mem_cons.mp hn).resolve_left nofun)
  exact hcons.other rfl hfs

/-- The owner of the registration is alone. -/
theorem alone (h : Inv e p (f::ₘm)) (hf : f.holds=1) :
    weight Frame.holds m=0 ∧ p.flights=[] ∧ (p.isDisconnect=false → p.isSendRegister=true) := by
  have hone := h.one
  have hflag := h.flag
  rw [weight_cons,hf] at hone hflag
  refine ⟨by omega,List.eq_nil_of_length_eq_zero (by omega),?_⟩
  intro hd
  have := hflag hd
  by_contra hoff
  rw [Bool.eq_false_iff.mpr hoff,Bool.toNat_false] at this
  omega

/-- A session that is not connected while the registration is owned has been connected. -/
theorem dead_of_off (h : Inv e p (f::ₘm)) (hf : f.holds=1) (hoff : p.isConnect=false) :
    p.isDisconnect=true := by
  by_contra hlive
  have hlive := Bool.eq_false_iff.mpr hlive
  have hflag := (h.alone hf).2.2 hlive
  rw [h.fresh hoff hlive] at hflag
  cases hflag

/-- After the connection has ended, only the bytes of a send that is still registered matter. -/
theorem dead (hd : p.isDisconnect=true) (hc : p.isConnect=false)
    (hone : weight Frame.holds m+p.flights.length ≤ 1)
    (hunsent : ∀ f∈p.flights, p.wire++f.bytes.drop f.sent<+:stream e p.accepted)
    (hsent : p.wire<+:stream e p.accepted) : Inv e p m := by
  have hno : p.isDisconnect≠false := by
    rw [hd]
    exact Bool.true_eq_false.mp
  refine ⟨?_,hone,fun h => absurd h hno,fun h => absurd h hno,fun h => absurd h hno,
    fun h => absurd h hno,fun h => absurd h hno,hunsent,hsent,fun _ h => absurd h hno⟩
  intro hon
  rw [hc] at hon
  cases hon

/-- The connection ends; the owner of the registration may go with it. -/
theorem close (h : Inv e p (f::ₘm)) (hfs : ∀ g∈fs, g.holds=0)
    (hp : p'.isDisconnect=true ∧ p'.isConnect=false)
    (hsame : p'.flights=p.flights ∧ p'.wire=p.wire ∧ p'.accepted=p.accepted) : Inv e p' (fs+m) := by
  obtain ⟨hflights,hwire,haccepted⟩ := hsame
  refine dead hp.1 hp.2 ?_ ?_ ?_
  · have hone := h.one
    rw [weight_cons] at hone
    rw [weight_add,total,sum_holds_eq_zero hfs,hflights]
    omega
  · rw [hflights,hwire,haccepted]
    exact h.unsent
  · rw [hwire,haccepted]
    exact h.sent

/-- The only owner of the registration goes on with `fs`, and no send is registered. -/
theorem sole (hfree : weight Frame.holds m=0) (hground : p.flights=[]) (hon : p.isConnect=true)
    (hlive : p.isDisconnect=false) (hsent : p.wire<+:stream e p.accepted)
    (hflag : (fs.map Frame.holds).sum=p.isSendRegister.toNat)
    (hidle : p.isSendRegister=false →
      p.sendEvent.rest=[] ∧ p.sendQueue=[] ∧ p.wire=stream e p.accepted)
    (hregister : ∀ after, .registerSend after∈fs → p.Books e 0) (hprocess : ∀ n, .processSend n∉fs) :
    Inv e p (fs+m) := by
  have hsum : weight Frame.holds ((fs : Multiset (Frame β))+m)=p.isSendRegister.toNat := by
    rw [weight_add,total,hfree,hflag,Nat.add_zero]
  refine ⟨fun _ => hlive,?_,fun _ => ?_,fun _ => hidle,?_,?_,?_,?_,hsent,?_⟩
  · rw [hsum,hground]
    exact Bool.toNat_le _
  · rw [hsum,hground]
    rfl
  · intro _ after hmem
    rcases Multiset.mem_add.mp hmem with hnew|hold
    · exact hregister after hnew
    · exact absurd hold (not_mem_of_holds hfree rfl)
  · intro _ n hmem
    rcases Multiset.mem_add.mp hmem with hnew|hold
    · exact absurd hnew (hprocess n)
    · exact absurd hold (not_mem_of_holds hfree rfl)
  · intro _ f hf
    rw [hground] at hf
    cases hf
  · intro f hf
    rw [hground] at hf
    cases hf
  · intro hoff
    rw [hon] at hoff
    cases hoff

theorem send {c : TestSession β} {b : Option β} {after : After}
    (h : Inv e c.toPipe (.send b after::ₘm)) :
    Inv e (c.send e b after).1.toPipe ((c.send e b after).2+m) := by
  unfold TestSession.send
  split
  · exact h.other rfl (rollback_holds after)
  · rename_i b
    split
    · exact h.other rfl (rollback_holds after)
    · split
      · exact h.other rfl (rollback_holds after)
      · rename_i hconnect
        have hon : c.isConnect=true := by
          rwa [Bool.not_eq_false] at hconnect
        have hlive := h.once hon
        have hflag := h.flag hlive
        have hone := h.one
        rw [weight_cons] at hflag hone
        have hsent : c.wire<+:stream e (c.accepted++[b]) := by
          rw [stream_append]
          exact h.sent.trans (List.prefix_append _ _)
        have hunsent : ∀ f∈c.flights, c.wire++f.bytes.drop f.sent<+:stream e (c.accepted++[b]) := by
          intro f hf
          rw [stream_append]
          exact (h.unsent f hf).trans (List.prefix_append _ _)
        cases hr : c.isSendRegister with
        | true =>
          rw [hr,Bool.toNat_true] at hflag
          refine ⟨h.once,?_,fun _ => ?_,by simp,?_,?_,?_,hunsent,hsent,?_⟩
          · rw [weight_add,total]
            exact hone
          · rw [weight_add,total]
            exact hflag
          · intro hd after' hmem
            exact (h.register hd after' (Multiset.mem_cons_of_mem (by simpa using hmem))).push b _
          · intro hd n hmem
            obtain ⟨gone,hbooks,hn⟩ := h.process hd n (Multiset.mem_cons_of_mem (by simpa using hmem))
            exact ⟨gone,hbooks.push b _,hn⟩
          · intro hd f hf
            obtain ⟨hbytes,hbooks⟩ := h.fly hd f hf
            exact ⟨hbytes,hbooks.push b _⟩
          · intro hoff
            exact absurd hon (by rw [hoff]; exact Bool.false_eq_true.mp)
        | false =>
          rw [hr,Bool.toNat_false] at hflag
          obtain ⟨hrest,hqueue,hwire⟩ := h.idle hlive hr
          have hfree : weight Frame.holds m=0 := by omega
          have hground : c.flights=[] := List.eq_nil_of_length_eq_zero (by omega)
          have hbooks : c.toPipe.Books e 0 := by
            simp only [Books,hrest,hqueue,hwire,List.drop_nil,stream_nil,List.append_nil]
          exact sole hfree hground hon hlive hsent rfl (by simp) (fun _ _ => hbooks.push b _)
            (by simp)

/-- What `register_send` finds in the event after it has drained the queue. -/
theorem drain_spec (e : Env β) (c : TestSession β) :
    ∃ queue ev, c.drain e={ c with sendQueue := queue, sendEvent := ev } ∧
      (c.toPipe.Books e 0 → (c.drain e).toPipe.Books e 0) ∧ (ev.buildWsabufs=[] → queue=[]) := by
  unfold TestSession.drain
  split
  · rename_i hpending
    refine ⟨c.sendQueue,c.sendEvent,rfl,id,fun hnone => ?_⟩
    rw [SendEvent.hasPendingData_of_buildWsabufs hnone] at hpending
    cases hpending
  · rename_i hpending
    have hdone : c.sendEvent.hasPendingData=false := Bool.eq_false_iff.mpr hpending
    refine ⟨[],_,rfl,fun hbooks => ?_,fun _ => rfl⟩
    have hrest := SendEvent.rest_of_done hdone
    have hpush := SendEvent.rest_push hdone (c.sendQueue.map e.sendBuffer)
    simp only [Books,hrest,List.drop_nil,List.append_nil] at hbooks
    simp only [Books,hpush,List.drop_zero,stream_nil,List.append_nil]
    exact hbooks

theorem registerSend {c : TestSession β} {after : After}
    (h : Inv e c.toPipe (.registerSend after::ₘm)) (ok : Bool) :
    Inv e (c.registerSend e ok after).1.toPipe ((c.registerSend e ok after).2+m) := by
  obtain ⟨hfree,hground,hregister⟩ := h.alone rfl
  unfold TestSession.registerSend
  split
  · rename_i hoff
    exact h.close (rollback_holds after) ⟨h.dead_of_off rfl hoff,hoff⟩ ⟨rfl,rfl,rfl⟩
  · rename_i hconnect
    have hon : c.isConnect=true := by
      rwa [Bool.not_eq_false] at hconnect
    have hlive := h.once hon
    have hflag := hregister hlive
    have hflagged : c.isSendRegister≠false := by
      rw [hflag]
      exact Bool.true_eq_false.mp
    obtain ⟨queue,ev,hdrain,hbooks,hempty⟩ := drain_spec e c
    have hbooks := hbooks (h.register hlive after (Multiset.mem_cons_self _ _))
    simp only [hdrain] at hbooks ⊢
    have hnone : ∀ g : Frame β, g.holds=1 → g∉m := fun g hg => not_mem_of_holds hfree hg
    split
    · rename_i hwsabufs
      have hrest : ev.rest=[] := by rw [SendEvent.rest,hwsabufs]; rfl
      have hqueue := hempty hwsabufs
      simp only [Books,hrest,hqueue,List.drop_nil,stream_nil,List.append_nil] at hbooks
      exact sole hfree hground hon hlive h.sent rfl (fun _ => ⟨rfl,hqueue,hbooks⟩) (by simp) (by simp)
    · split
      · have hcut : c.wire++ev.rest++stream e queue=stream e c.accepted := hbooks
        refine ⟨h.once,?_,fun _ => ?_,fun _ hoff => ?_,?_,?_,?_,?_,h.sent,fun hoff => absurd hoff hconnect⟩
        · simp [hfree,hground]
        · simp [hfree,hground,hflag]
        · exact absurd hoff hflagged
        · intro _ after' hmem
          exact absurd (by simpa using hmem) (hnone (.registerSend after') rfl)
        · intro _ n hmem
          exact absurd (by simpa using hmem) (hnone (.processSend n) rfl)
        · intro _ f hf
          rw [hground,List.nil_append,List.mem_singleton] at hf
          subst hf
          exact ⟨rfl,hbooks⟩
        · intro f hf
          rw [hground,List.nil_append,List.mem_singleton] at hf
          subst hf
          exact ⟨stream e queue,hcut⟩
      · exact sole hfree hground hon hlive h.sent (congrArg Bool.toNat hflag).symm
          (fun hoff => absurd hoff hflagged) (by simp) (by simp)

theorem processSend {c : TestSession β} {n : BitVec 32}
    (h : Inv e c.toPipe (.processSend n::ₘm)) :
    Inv e (c.processSend n).1.toPipe ((c.processSend n).2+m) := by
  obtain ⟨hfree,hground,hregister⟩ := h.alone rfl
  unfold TestSession.processSend
  split
  · rename_i hoff
    exact h.close nofun ⟨h.dead_of_off rfl hoff,hoff⟩ ⟨rfl,rfl,rfl⟩
  · rename_i hconnect
    have hon : c.isConnect=true := by
      rwa [Bool.not_eq_false] at hconnect
    have hlive := h.once hon
    have hflag := hregister hlive
    have hflagged : c.isSendRegister≠false := by
      rw [hflag]
      exact Bool.true_eq_false.mp
    obtain ⟨gone,hbooks,hgone⟩ := h.process hlive n (Multiset.mem_cons_self _ _)
    split
    · exact sole hfree hground hon hlive h.sent (congrArg Bool.toNat hflag).symm
        (fun hoff => absurd hoff hflagged) (by simp) (by simp)
    · rename_i ev hev
      obtain ⟨hzero,hle,hrest⟩ := consumeSentBytes_some hev
      have hn : n.toNat=gone := by omega
      have hcut : c.wire++ev.rest++stream e c.sendQueue=stream e c.accepted := by
        rw [hrest,hn]
        exact hbooks
      split
      · exact sole hfree hground hon hlive h.sent (congrArg Bool.toNat hflag).symm
          (fun hoff => absurd hoff hflagged) (fun _ _ => hcut) (by simp)
      · rename_i hpending
        have hdone := SendEvent.rest_of_done (Bool.eq_false_iff.mpr hpending)
        rw [hdone,List.append_nil] at hcut
        split
        · rename_i hqueue
          have hempty := List.isEmpty_iff.mp hqueue
          rw [hempty,stream_nil,List.append_nil] at hcut
          exact sole hfree hground hon hlive h.sent rfl (fun _ => ⟨rfl,hempty,hcut⟩) nofun nofun
        · refine sole hfree hground hon hlive h.sent (congrArg Bool.toNat hflag).symm
            (fun hoff => absurd hoff hflagged) ?_ (by simp)
          intro _ _
          simpa [Books] using hcut

theorem disconnect {c : TestSession β} {sending : Bool} {after : After}
    (h : Inv e c.toPipe (.disconnect sending after::ₘm)) :
    Inv e c.disconnect.toPipe ((rollback after : List (Frame β))+m) := by
  unfold TestSession.disconnect
  split
  · rename_i hoff
    cases sending with
    | false => exact h.other rfl (rollback_holds after)
    | true => exact h.close (rollback_holds after) ⟨h.dead_of_off rfl hoff,hoff⟩ ⟨rfl,rfl,rfl⟩
  · split
    · rename_i hdead
      refine h.close (rollback_holds after) ?_ ⟨rfl,rfl,rfl⟩
      exact ⟨hdead,rfl⟩
    · refine h.close (rollback_holds after) ?_ ⟨rfl,rfl,rfl⟩
      exact ⟨rfl,rfl⟩

theorem connect {c : TestSession β} (h : Inv e c.toPipe m) (ok : Bool) :
    Inv e (c.connect ok).toPipe m := by
  unfold TestSession.connect
  split
  · exact h
  · rename_i hnew
    have hlive : c.isDisconnect=false := by
      rw [← Bool.not_eq_true]
      exact fun hd => hnew (Or.inr hd)
    split
    · exact ⟨fun _ => hlive,h.one,h.flag,h.idle,h.register,h.process,h.fly,h.unsent,h.sent,nofun⟩
    · have hoff : c.isConnect=false := by
        rw [← Bool.not_eq_true]
        exact fun hc => hnew (Or.inl hc)
      exact ⟨nofun,h.one,h.flag,h.idle,h.register,h.process,h.fly,h.unsent,h.sent,
        fun _ => h.fresh hoff⟩

/-- A registered send is the only one, and no thread owns the registration. -/
theorem flight_alone (h : Inv e p m) {index : Nat} {f : Flight} (hf : p.flights[index]?=some f) :
    index=0 ∧ p.flights=[f] ∧ weight Frame.holds m=0 := by
  have hone := h.one
  obtain ⟨hlt,hget⟩ := List.getElem?_eq_some_iff.mp hf
  have hlen : p.flights.length=1 := by omega
  obtain ⟨g,hg⟩ := List.length_eq_one_iff.mp hlen
  have hzero : index=0 := by omega
  subst hzero
  simp only [hg,List.getElem_cons_zero] at hget
  subst hget
  exact ⟨rfl,hg,by omega⟩

theorem sendCompleted (h : Inv e p m) {index : Nat} {f : Flight} {n : BitVec 32}
    (hf : p.flights[index]?=some f)
    (hn : n.toNat=f.sent ∨ n.toNat=0 ∨ f.bytes.length<n.toNat) :
    Inv e { p with flights := p.flights.eraseIdx index } (([.processSend n] : List (Frame β))+m) := by
  obtain ⟨rfl,hflights,hfree⟩ := h.flight_alone hf
  have hflag := h.flag
  have hfly := h.fly
  rw [hflights,hfree] at hflag
  rw [hflights] at hfly
  have hmem : ∀ g : Frame β, g.holds=1 → g∈(([.processSend n] : List (Frame β)) : Multiset _)+m →
      g=.processSend n := by
    intro g hg hmem
    rcases Multiset.mem_add.mp hmem with hnew|hold
    · simpa using hnew
    · exact absurd hold (not_mem_of_holds hfree hg)
  refine ⟨h.once,?_,?_,?_,?_,?_,?_,?_,h.sent,h.fresh⟩
  · simp [hflights,hfree,Frame.holds]
  · intro hd
    simpa [hflights,hfree,Frame.holds] using hflag hd
  · intro hd hoff
    have := hflag hd
    rw [hoff] at this
    cases this
  · intro _ after hafter
    cases hmem _ rfl hafter
  · intro hd k hk
    cases hmem _ rfl hk
    obtain ⟨hbytes,hbooks⟩ := hfly hd f List.mem_cons_self
    exact ⟨f.sent,hbooks,by rw [hbytes]; exact hn⟩
  · intro _ g hg
    simp [hflights] at hg
  · intro g hg
    simp [hflights] at hg

theorem transmit (h : Inv e p m) {index k : Nat} {f : Flight} (hf : p.flights[index]?=some f) :
    Inv e { p with flights := p.flights.set index ⟨f.bytes,f.sent+k⟩,
                   wire := p.wire++(f.bytes.drop f.sent).take k } m := by
  obtain ⟨rfl,hflights,hfree⟩ := h.flight_alone hf
  have hflag := h.flag
  have hfly := h.fly
  have hunsent := h.unsent
  rw [hflights,hfree] at hflag
  rw [hflights] at hfly hunsent
  have hcut : p.wire++(f.bytes.drop f.sent).take k++f.bytes.drop (f.sent+k)=
      p.wire++f.bytes.drop f.sent := by
    rw [List.append_assoc,← List.drop_drop,List.take_append_drop]
  have hall : p.wire++(f.bytes.drop f.sent).take k++f.bytes.drop (f.sent+k)<+:
      stream e p.accepted := by
    rw [hcut]
    exact hunsent f List.mem_cons_self
  refine ⟨h.once,?_,?_,?_,?_,?_,?_,?_,?_,h.fresh⟩
  · rw [List.length_set]
    exact h.one
  · rw [List.length_set]
    exact h.flag
  · intro hd hoff
    have := hflag hd
    rw [hoff] at this
    cases this
  · intro _ after hafter
    exact absurd hafter (not_mem_of_holds hfree rfl)
  · intro _ n hn
    exact absurd hn (not_mem_of_holds hfree rfl)
  · intro hd g hg
    rw [hflights,List.set_cons_zero,List.mem_singleton] at hg
    subst hg
    obtain ⟨hbytes,hbooks⟩ := hfly hd f List.mem_cons_self
    simp only [Books,hbytes] at hbooks ⊢
    rw [hcut]
    exact ⟨trivial,hbooks⟩
  · intro g hg
    rw [hflights,List.set_cons_zero,List.mem_singleton] at hg
    subst hg
    exact hall
  · exact (List.prefix_append _ _).trans hall

end Inv

end Pipe

open Pipe (Inv stream)

theorem exec_inv {e : Env β} {c c' : TestSession β} {o : Choice} {f : Frame β} {fs : List (Frame β)}
    {m : Multiset (Frame β)} (h : Inv e c.toPipe (f::ₘm)) (hx : exec e c o f=some (c',fs)) :
    Inv e c'.toPipe (fs+m) := by
  cases f with
  | send b after =>
    have hstep := h.send
    rw [Option.some.inj hx] at hstep
    exact hstep
  | registerSend after =>
    have hstep := h.registerSend o.ok
    rw [Option.some.inj hx] at hstep
    exact hstep
  | processSend n =>
    have hstep := h.processSend
    rw [Option.some.inj hx] at hstep
    exact hstep
  | disconnect sending after =>
    cases hx
    exact h.disconnect
  | _ =>
    obtain ⟨hpipe,hfs⟩ := exec_other rfl hx
    rw [hpipe]
    exact h.other rfl hfs

theorem enter_inv {e : Env β} {c c' : TestSession β} {en : Entry β} {fs : List (Frame β)}
    {m : Multiset (Frame β)} (h : Inv e c.toPipe m) (hx : enter e c en=some (c',fs)) :
    Inv e c'.toPipe (fs+m) := by
  cases en with
  | connect ok =>
    cases hx
    exact (h.connect ok).call nofun
  | login isCreate id pw name =>
    cases hx
    refine h.call ?_
    simp only [loginFrames]
    split <;> simp [Frame.holds]
  | recvCompleted n =>
    simp only [enter] at hx
    split at hx <;> cases hx
    exact h.call (by simp [Frame.holds])
  | sendCompleted index n =>
    simp only [enter] at hx
    split at hx
    · cases hx
    · rename_i f hf
      split at hx <;> cases hx
      rename_i hn
      exact h.sendCompleted hf hn
  | transmit index k =>
    simp only [enter] at hx
    split at hx
    · cases hx
    · rename_i f hf
      split at hx <;> cases hx
      exact (h.transmit hf).call nofun
  | _ =>
    cases hx
    exact h.call (by simp [Frame.holds,disconnect])

variable {T : Type} [Fintype T] [DecidableEq T]

theorem reaches_inv {e : Env β} {botIndex : UInt32} {s : State T β}
    (h : Reaches (step e) Any (Pool.State.init (TestSession.init botIndex)) s) :
    Inv e s.core.toPipe (Pool.pending s.calls) :=
  Pool.reaches_invariant (I:=fun c m => Inv e c.toPipe m) h (Pipe.inv_init e botIndex)
    (fun _ _ _ _ _ _ hi hx => exec_inv hi hx) (fun _ _ _ _ _ hi hx => enter_inv hi hx)

/-- At most one `WSASend` is registered, what is transmitted begins what was accepted, and a connected
session in whose send path no thread is has transmitted everything it accepted. -/
theorem client_sends_what_it_accepts (e : Env β) (botIndex : UInt32) (s : State T β)
    (h : Reaches (step e) Any (Pool.State.init (TestSession.init botIndex)) s) :
    s.core.flights.length ≤ 1 ∧ s.core.wire<+:stream e s.core.accepted ∧
    (s.core.isConnect=true → s.core.flights=[] → (∀ t, ∀ f∈s.calls t, f.sending=false) →
      s.core.sendQueue=[] ∧ s.core.isSendRegister=false ∧ s.core.wire=stream e s.core.accepted) := by
  have hi := reaches_inv h
  have hone := hi.one
  refine ⟨by omega,hi.sent,fun hon hground hquiet => ?_⟩
  have hlive := hi.once hon
  have hflag := hi.flag hlive
  have hfree : weight Frame.holds (Pool.pending s.calls)=0 := by
    apply Pool.weight_eq_zero
    intro f hf
    obtain ⟨t,ht⟩ := Pool.mem_pending.mp hf
    exact Frame.holds_of_not_sending (hquiet t f ht)
  rw [hfree,hground] at hflag
  have hoff : s.core.isSendRegister=false := by
    cases hr : s.core.isSendRegister with
    | false => rfl
    | true =>
      rw [hr] at hflag
      cases hflag
  obtain ⟨-,hqueue,hwire⟩ := hi.idle hlive hoff
  exact ⟨hqueue,hoff,hwire⟩

/-- Three bytes that go out in two sends. -/
theorem client_sends_what_it_accepts_partialSend :
    ∃ (e : Env SendBuffer) (s : State Unit SendBuffer),
      Reaches (step e) Any (Pool.State.init (TestSession.init 0)) s ∧
      s.core.isConnect=true ∧ s.core.sendQueue=[] ∧ s.core.isSendRegister=false ∧
      s.core.wire=[1,2,3] := by
  let e : Env SendBuffer := ⟨⟨fun _ => [],fun _ => []⟩,id,fun _ => none,fun _ => none⟩
  let ok : Choice := ⟨true,.wait⟩
  have hrun : (runActions (step e) (Pool.State.init (TestSession.init 0) : State Unit SendBuffer)
      [.enter () (.connect true),.enter () (.send (some (.copyData [1,2,3]))),.run () ok,.run () ok,
       .enter () (.transmit 0 2),.enter () (.sendCompleted 0 2),.run () ok,.run () ok,
       .enter () (.transmit 0 1),.enter () (.sendCompleted 0 1),.run () ok]).map
      (fun s => (s.core.isConnect,s.core.flights.length,(s.calls ()).length,s.core.wire))=
      some (true,0,0,[1,2,3]) := by decide +kernel
  obtain ⟨s,hs,hfields⟩ := Option.map_eq_some_iff.mp hrun
  simp only [Prod.mk.injEq,List.length_eq_zero_iff] at hfields
  obtain ⟨hon,hground,hcalls,hwire⟩ := hfields
  have hreach : Reaches (step e) Any _ s := Reaches.of_runActions (fun _ _ => trivial) _ hs
  obtain ⟨-,-,hquiet⟩ := client_sends_what_it_accepts e 0 s hreach
  obtain ⟨hqueue,hoff,-⟩ := hquiet hon hground fun t f hf => by
    rw [hcalls] at hf
    cases hf
  exact ⟨e,s,hreach,hon,hqueue,hoff,hwire⟩

end IocpServer.TestClient
