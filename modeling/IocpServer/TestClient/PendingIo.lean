import IocpServer.TestClient.ClientServer

namespace IocpServer.TestClient.ClientServer

variable {S β : Type} {e : Env β}

section Session

variable {c c' : TestSession β} {o : Choice} {f : Frame β} {fs : List (Frame β)}

/-- The registered operations of which no worker has taken the completion. -/
def inFlight (c : TestSession β) : Nat := c.flights.length+c.receiving

/-- A connection stays as it is, or is closed for good. -/
def Later (c c' : TestSession β) : Prop :=
  c'.isConnect=c.isConnect ∧ c'.isDisconnect=c.isDisconnect ∨
    c'.isConnect=false ∧ c'.isDisconnect=true

/-- What decides whether a registration comes to `begin_io`. -/
structure Ready (c c' : TestSession β) : Prop where
  isConnect : c'.isConnect=c.isConnect
  sendEvent : c'.sendEvent=c.sendEvent
  sendQueue : c'.sendQueue=c.sendQueue

theorem Ready.begins (h : Ready c c') (f : Frame β) : begins e c' f=begins e c f := by
  cases f with
  | registerRecv => exact h.isConnect
  | registerSend =>
    simp only [ClientServer.begins,TestSession.drain,h.isConnect,h.sendEvent,h.sendQueue]
    split <;> simp [h.sendEvent]
  | _ => rfl

theorem isConnect_of_begins (h : begins e c f=true) : c.isConnect=true := by
  cases f with
  | registerRecv => exact h
  | registerSend => exact (Bool.and_eq_true_iff.mp h).1
  | _ => cases h

theorem takesLock_of_begins (h : begins e c f=true) : takesLock e f=true := by
  cases f with
  | registerRecv | registerSend => rfl
  | _ => cases h

theorem inFlight_drain (c : TestSession β) : inFlight (c.drain e)=inFlight c := by
  unfold TestSession.drain
  split <;> rfl

theorem flags_drain (c : TestSession β) :
    (c.drain e).isConnect=c.isConnect ∧ (c.drain e).isDisconnect=c.isDisconnect := by
  unfold TestSession.drain
  split <;> exact ⟨rfl,rfl⟩

theorem later_disconnect (c : TestSession β) : Later c c.disconnect := by
  unfold TestSession.disconnect
  split
  · exact Or.inl ⟨rfl,rfl⟩
  · split
    · exact Or.inr ⟨rfl,‹_›⟩
    · exact Or.inr ⟨rfl,rfl⟩

theorem inFlight_disconnect (c : TestSession β) : inFlight c.disconnect=inFlight c := by
  unfold TestSession.disconnect
  split
  · rfl
  · split <;> rfl

theorem exec_plain (h : exec e c o f=some (c',fs)) (hb : begins e c f=false) :
    inFlight c'=inFlight c ∧ Later c c' := by
  have hsame : ∀ {d : TestSession β}, d.flights=c.flights → d.receiving=c.receiving →
      d.isConnect=c.isConnect → d.isDisconnect=c.isDisconnect →
      inFlight d=inFlight c ∧ Later c d := by
    intro d h1 h2 h3 h4
    exact ⟨by simp only [inFlight,h1,h2],Or.inl ⟨h3,h4⟩⟩
  cases exec_move h with
  | registerRecv _ hon | recvFailed _ hon =>
    have hoff : c.isConnect=false := hb
    rw [hon] at hoff
    cases hoff
  | nothing => exact ⟨inFlight_drain c,Or.inl (flags_drain c)⟩
  | registerSend _ hon hbufs | sendFailed _ hon hbufs => simp [begins,hon,hbufs] at hb
  | disconnect => exact ⟨inFlight_disconnect c,later_disconnect c⟩
  | completeLogin =>
    unfold TestSession.completeLogin
    split <;> exact hsame rfl rfl rfl rfl
  | completeEnterRoom =>
    unfold TestSession.completeEnterRoom
    split <;> exact hsame rfl rfl rfl rfl
  | completeExitRoom =>
    unfold TestSession.completeExitRoom
    split <;> exact hsame rfl rfl rfl rfl
  | _ => exact hsame rfl rfl rfl rfl

/-- What runs without the lock does not touch what a registration goes by. -/
theorem exec_unlocked (h : exec e c o f=some (c',fs)) (hl : takesLock e f=false) : Ready c c' := by
  cases exec_move h with
  | start | startOff | started | startRecv | receivedOff | unreadable | received | wait | refused
  | reply | recvNext | recvEnd | logout | unsent | setAccount | setIsLogin => exact ⟨rfl,rfl,rfl⟩
  | queued b after hsize | send b after hsize =>
    have hzero : (e.sendBuffer b).writeSize=0 := by simpa [takesLock] using hl
    exact absurd hzero hsize
  | _ => cases hl

/-- The system call after `begin_io` registers the operation or fails at once. -/
theorem exec_begins (h : exec e c o f=some (c',fs)) (hb : begins e c f=true) :
    inFlight c'=inFlight c+o.ok.toNat ∧ c'.isConnect=c.isConnect ∧
      c'.isDisconnect=c.isDisconnect := by
  have hon := isConnect_of_begins hb
  cases exec_move h with
  | registerRecv _ _ hok | recvFailed _ _ hok =>
    rw [hok]
    exact ⟨rfl,rfl,rfl⟩
  | registerSend _ _ _ hok =>
    have hdrain := inFlight_drain (e:=e) c
    refine ⟨?_,flags_drain c⟩
    rw [hok,← hdrain]
    simp only [inFlight,List.length_append,List.length_singleton,Bool.toNat_true]
    omega
  | sendFailed _ _ _ hok =>
    rw [hok]
    exact ⟨inFlight_drain c,flags_drain c⟩
  | recvOff _ hoff | sendOff _ hoff =>
    rw [hon] at hoff
    cases hoff
  | nothing _ _ hempty => simp [begins,hempty] at hb
  | _ => cases hb

/-- A worker takes the completion of an operation. -/
theorem enter_completed {entry : Entry β} (h : enter e c entry=some (c',fs))
    (hentry : (∃ n, entry=.recvCompleted n) ∨ ∃ i n, entry=.sendCompleted i n) :
    inFlight c=inFlight c'+1 ∧ Ready c c' ∧ c'.isDisconnect=c.isDisconnect := by
  rcases hentry with ⟨n,rfl⟩|⟨i,n,rfl⟩
  · simp only [enter] at h
    split at h
    · cases h
    · rename_i hne
      cases h
      refine ⟨?_,⟨rfl,rfl,rfl⟩,rfl⟩
      simp only [inFlight]
      omega
  · simp only [enter] at h
    split at h
    · cases h
    · rename_i flight hflight
      split at h
      · cases h
        obtain ⟨hi,-⟩ := List.getElem?_eq_some_iff.mp hflight
        refine ⟨?_,⟨rfl,rfl,rfl⟩,rfl⟩
        simp only [inFlight,List.length_eraseIdx_of_lt hi]
        omega
      · cases h

/-- What else begins from outside leaves the operations alone. -/
theorem enter_other {entry : Entry β} (h : enter e c entry=some (c',fs))
    (hrecv : ∀ n, entry≠.recvCompleted n) (hsend : ∀ i n, entry≠.sendCompleted i n)
    (hconnect : ∀ ok, entry≠.connect ok) :
    inFlight c'=inFlight c ∧ Ready c c' ∧ c'.isDisconnect=c.isDisconnect := by
  cases entry with
  | connect ok => exact absurd rfl (hconnect ok)
  | recvCompleted n => exact absurd rfl (hrecv n)
  | sendCompleted i n => exact absurd rfl (hsend i n)
  | transmit i n =>
    simp only [enter] at h
    split at h
    · cases h
    · split at h
      · cases h
        exact ⟨by simp [inFlight],⟨rfl,rfl,rfl⟩,rfl⟩
      · cases h
  | _ =>
    cases h
    exact ⟨rfl,⟨rfl,rfl,rfl⟩,rfl⟩

theorem inFlight_connect (c : TestSession β) (ok : Bool) : inFlight (c.connect ok)=inFlight c := by
  unfold TestSession.connect
  split
  · rfl
  · split <;> rfl

end Session

/-- The session is closed and does not connect again. -/
def Client.Shut (k : Client β) : Prop := k.session.isConnect=false ∧ k.session.isDisconnect=true

def Client.Done (k : Client β) : Prop := k.Shut ∧ k.pendingIo=0

def Client.Linked (k : Client β) : Prop := k.session.isConnect=true ∨ k.session.isDisconnect=true

/-- What no step takes back. -/
structure Keeps (k k' : Client β) : Prop where
  linked : k.Linked → k'.Linked
  shut : k.Shut → k'.Shut ∧ k'.begun=k.begun
  done : k.Done → k'.Done

namespace Keeps

variable {k k' : Client β}

theorem refl (k : Client β) : Keeps k k := ⟨id,fun h => ⟨h,rfl⟩,id⟩

theorem of_later (hlater : Later k.session k'.session)
    (hbegun : k.session.isConnect=false → k'.begun=k.begun)
    (hpending : k.Shut → k.pendingIo=0 → k'.pendingIo=0) : Keeps k k' := by
  have hshut : k.Shut → k'.Shut := by
    intro h
    rcases hlater with ⟨hon,hoff⟩|hclosed
    · exact ⟨hon.trans h.1,hoff.trans h.2⟩
    · exact hclosed
  refine ⟨fun h => ?_,fun h => ⟨hshut h,hbegun h.1⟩,fun h => ⟨hshut h.1,hpending h.1 h.2⟩⟩
  rcases hlater with ⟨hon,hoff⟩|hclosed
  · rcases h with h|h
    · exact Or.inl (hon.trans h)
    · exact Or.inr (hoff.trans h)
  · exact Or.inr hclosed.2

/-- A session that may still connect is neither linked nor shut. -/
theorem connect (k : Client β) (ok : Bool) :
    Keeps k { k with session := k.session.connect ok } := by
  by_cases h : k.session.isConnect ∨ k.session.isDisconnect
  · have hsame : k.session.connect ok=k.session := if_pos h
    rw [hsame]
    exact refl k
  · rw [not_or] at h
    refine ⟨fun hl => ?_,fun hs => absurd hs.2 h.2,fun hd => absurd hd.1.2 h.2⟩
    rcases hl with hl|hl
    · exact absurd hl h.1
    · exact absurd hl h.2

end Keeps

variable [DecidableEq S]

namespace Call

/-- The operations of `x` that a thread is about to register or whose callback it runs. -/
def operation (x : S) : Call S β → Nat
  | .calling y _ | .finishIo y => if y=x then 1 else 0
  | _ => 0

/-- The threads that hold the `_send_lock` of `x`. -/
def holds (x : S) : Call S β → Nat
  | .calling y _ => if y=x then 1 else 0
  | _ => 0

end Call

/-- None of the calls has to do with an operation of `x`. -/
def Apart (x : S) (calls : List (Call S β)) : Prop := ∀ c∈calls, c.operation x=0

namespace Apart

variable {x : S} {cs ds : List (Call S β)}

theorem append (h : Apart x cs) (k : Apart x ds) : Apart x (cs++ds) := by
  intro c hc
  rcases List.mem_append.mp hc with hc|hc
  · exact h c hc
  · exact k c hc

theorem bodies (x y : S) (fs : List (Frame β)) : Apart x (fs.map (Call.body y)) := by
  intro c hc
  obtain ⟨f,-,rfl⟩ := List.mem_map.mp hc
  rfl

theorem total_operation (h : Apart x cs) : Pool.total (Call.operation x) cs=0 := by
  induction cs with
  | nil => rfl
  | cons c cs ih =>
    rw [Pool.total_cons,h c List.mem_cons_self,ih fun d hd => h d (List.mem_cons_of_mem c hd)]

theorem total_holds (h : Apart x cs) : Pool.total (Call.holds x) cs=0 := by
  induction cs with
  | nil => rfl
  | cons c cs ih =>
    have hc := h c List.mem_cons_self
    have hholds : c.holds x=0 := by
      cases c with
      | calling => exact hc
      | _ => rfl
    rw [Pool.total_cons,hholds,ih fun d hd => h d (List.mem_cons_of_mem c hd)]

theorem not_calling (h : Apart x cs) (f : Frame β) : .calling x f∉cs := by
  intro hmem
  have hzero := h _ hmem
  simp [Call.operation] at hzero

end Apart

/-- The counter of `x` against the operations that `calls` and the system have. -/
structure Tally (e : Env β) (x : S) (k : Client β) (calls : Multiset (Call S β)) : Prop where
  pending : k.pendingIo=inFlight k.session+Pool.weight (Call.operation x) calls
  locked : Pool.weight (Call.holds x) calls=k.sendLock.toNat
  begins : ∀ f, .calling x f∈calls → begins e k.session f=true
  sound : k.session.isDisconnect=true → k.session.isConnect=false

namespace Tally

variable {x : S} {k k' : Client β} {old fs : List (Call S β)} {m : Multiset (Call S β)} {o : Choice}
  {f : Frame β} {gs : List (Frame β)} {c' : TestSession β}

theorem change (h : Tally e x k (old+m))
    (hpending : k'.pendingIo+inFlight k.session+Pool.total (Call.operation x) old=
      k.pendingIo+inFlight k'.session+Pool.total (Call.operation x) fs)
    (hlocked : Pool.total (Call.holds x) fs+k.sendLock.toNat=
      Pool.total (Call.holds x) old+k'.sendLock.toNat)
    (hbegins : ∀ f, .calling x f∈(fs : Multiset (Call S β))+m →
      ClientServer.begins e k'.session f=true)
    (hsound : k'.session.isDisconnect=true → k'.session.isConnect=false) :
    Tally e x k' (fs+m) := by
  obtain ⟨h1,h2,-,-⟩ := h
  rw [Pool.weight_add] at h1 h2
  refine ⟨?_,?_,hbegins,hsound⟩
  · rw [Pool.weight_add]
    push_cast at h1 ⊢
    omega
  · rw [Pool.weight_add]
    omega

theorem sound_later (h : Tally e x k m) (hl : Later k.session c') :
    c'.isDisconnect=true → c'.isConnect=false := by
  rcases hl with ⟨hon,hoff⟩|⟨hon,-⟩
  · intro hd
    rw [hon]
    exact h.sound (hoff.symm.trans hd)
  · exact fun _ => hon

/-- Nobody is in a registration of `x` while its lock is free. -/
theorem free (h : Tally e x k m) (hl : k.sendLock=false) (f : Frame β) : .calling x f∉m := by
  intro hmem
  have hone := Pool.le_weight (w:=Call.holds x) hmem
  rw [h.locked,hl] at hone
  simp [Call.holds] at hone

theorem positive (h : Tally e x k m) {c : Call S β} (hc : c∈m) (hop : c.operation x=1) :
    0<k.pendingIo := by
  have hle := Pool.le_weight (w:=Call.operation x) hc
  rw [h.pending]
  omega

/-- Frames that do not concern `x` come and go. -/
theorem frame (h : Tally e x k (old+m)) (hold : Apart x old) (hfs : Apart x fs) :
    Tally e x k (fs+m) := by
  apply h.change
  · rw [hold.total_operation,hfs.total_operation]
  · rw [hold.total_holds,hfs.total_holds]
  · intro f hf
    rcases Multiset.mem_add.mp hf with hf|hf
    · exact absurd (Multiset.mem_coe.mp hf) (hfs.not_calling f)
    · exact h.begins f (Multiset.mem_add.mpr (Or.inr hf))
  · exact h.sound

/-- A section that begins no operation. With the lock free nobody is in a registration; a section
without the lock does not change what a registration goes by. -/
theorem work (h : Tally e x k (old+m)) (hold : Apart x old) (hfs : Apart x fs)
    (hflight : inFlight c'=inFlight k.session) (hlater : Later k.session c')
    (hlock : k.sendLock=false ∨ Ready k.session c') :
    Tally e x { k with session := c' } (fs+m) := by
  apply h.change
  · rw [hold.total_operation,hfs.total_operation,hflight]
  · rw [hold.total_holds,hfs.total_holds]
  · intro f hf
    rcases Multiset.mem_add.mp hf with hf|hf
    · exact absurd (Multiset.mem_coe.mp hf) (hfs.not_calling f)
    · rcases hlock with hfree|hready
      · exact absurd (Multiset.mem_add.mpr (Or.inr hf)) (h.free hfree f)
      · rw [hready.begins f]
        exact h.begins f (Multiset.mem_add.mpr (Or.inr hf))
  · exact h.sound_later hlater

theorem begin (h : Tally e x k (([.body x f] : List (Call S β))+m)) (hlock : k.sendLock=false)
    (hb : ClientServer.begins e k.session f=true) :
    Tally e x { k with pendingIo := k.pendingIo+1, sendLock := true, begun := k.begun+1 }
      (([.calling x f] : List (Call S β))+m) := by
  apply h.change
  · simp [Call.operation]
    omega
  · simp [Call.holds,hlock]
  · intro g hg
    rcases Multiset.mem_add.mp hg with hg|hg
    · have heq : g=f := by simpa using hg
      rw [heq]
      exact hb
    · exact absurd (Multiset.mem_add.mpr (Or.inr hg)) (h.free hlock g)
  · exact h.sound

theorem called (h : Tally e x k (([.calling x f] : List (Call S β))+m))
    (hx : exec e k.session o f=some (c',gs)) :
    Tally e x { k with
      session := c', sendLock := false,
      pendingIo := if o.ok then k.pendingIo else k.pendingIo-1 }
      ((gs.map (Call.body x) : List (Call S β))+m) := by
  have hb := h.begins f (Multiset.mem_add.mpr (Or.inl (by simp)))
  obtain ⟨hflight,hon,hoff⟩ := exec_begins hx hb
  have hbodies : Apart x (gs.map (Call.body x)) := Apart.bodies x x gs
  have hone := h.locked
  have hlock : k.sendLock.toNat=1 ∧ Pool.weight (Call.holds x) m=0 := by
    rw [Pool.weight_add] at hone
    simp only [Pool.total_cons,Pool.total_nil,Call.holds,if_true] at hone
    have hle := Bool.toNat_le k.sendLock
    omega
  apply h.change
  · rw [hbodies.total_operation]
    simp only [Pool.total_cons,Pool.total_nil,Call.operation,if_true,hflight]
    cases o.ok <;> simp <;> omega
  · rw [hbodies.total_holds,hlock.1]
    simp [Call.holds]
  · intro g hg
    rcases Multiset.mem_add.mp hg with hg|hg
    · exact absurd (Multiset.mem_coe.mp hg) (hbodies.not_calling g)
    · have hle := Pool.le_weight (w:=Call.holds x) hg
      rw [hlock.2] at hle
      simp [Call.holds] at hle
  · exact h.sound_later (Or.inl ⟨hon,hoff⟩)

theorem finished (h : Tally e x k (([.finishIo x] : List (Call S β))+m)) :
    Tally e x { k with pendingIo := k.pendingIo-1 } (([] : List (Call S β))+m) := by
  apply h.change
  · simp [Call.operation]
    omega
  · simp [Call.holds]
  · intro g hg
    exact h.begins g (Multiset.mem_add.mpr (Or.inr (by simpa using hg)))
  · exact h.sound

/-- A completion is taken from the port and its callback begins. -/
theorem completed {rest : List (Call S β)} (h : Tally e x k (old+m)) (hold : Apart x old)
    (hrest : Apart x rest) (hflight : inFlight k.session=inFlight c'+1)
    (hready : Ready k.session c') (hoff : c'.isDisconnect=k.session.isDisconnect) :
    Tally e x { k with session := c' }
      (((gs.map (Call.body x)++[.finishIo x])++rest : List (Call S β))+m) := by
  have hbodies : Apart x (gs.map (Call.body x)) := Apart.bodies x x gs
  have hop : Pool.total (Call.operation x) ((gs.map (Call.body x)++[.finishIo x])++rest)=1 := by
    simp [hbodies.total_operation,hrest.total_operation,Call.operation]
  have hholds : Pool.total (Call.holds x) ((gs.map (Call.body x)++[.finishIo x])++rest)=0 := by
    simp [hbodies.total_holds,hrest.total_holds,Call.holds]
  apply h.change
  · rw [hold.total_operation,hop,hflight]
    push_cast
    omega
  · rw [hold.total_holds,hholds]
  · intro g hg
    rcases Multiset.mem_add.mp hg with hg|hg
    · rcases List.mem_append.mp (Multiset.mem_coe.mp hg) with hg|hg
      · rcases List.mem_append.mp hg with hg|hg
        · exact absurd hg (hbodies.not_calling g)
        · simp at hg
      · exact absurd hg (hrest.not_calling g)
    · rw [hready.begins g]
      exact h.begins g (Multiset.mem_add.mpr (Or.inr hg))
  · exact h.sound_later (Or.inl ⟨hready.isConnect,hoff⟩)

end Tally

end IocpServer.TestClient.ClientServer
