import IocpServer.TestClient.SendPipeline

namespace IocpServer.TestClient

variable {β : Type}

/-- What `ACK_SERVER_FULL` stores are the values of a session without login. -/
def Frame.harmless : Frame β → Prop
  | .setAccount idx => idx=0
  | .setIsLogin isLogin => isLogin=false
  | _ => True

namespace TestSession

/-- No connection, no login, no room, no pending request and nothing to send. -/
def Over (c : TestSession β) : Prop :=
  c.isConnect=false ∧ c.isLogin=false ∧ c.accountIdx=0 ∧ c.roomId= -1 ∧ c.loginPending=false ∧
    c.roomRequest=.none ∧ c.sendQueue=[]

/-- A session connects once, ends once, and is over from then on. -/
structure Life (c : TestSession β) : Prop where
  isOver : c.isDisconnect=true → c.Over
  once : c.isConnect=true → c.isDisconnect=false
  counted : c.disconnects=c.isDisconnect.toNat
  connections : c.connects=c.disconnects+c.isConnect.toNat

theorem life_init (botIndex : UInt32) : (TestSession.init botIndex : TestSession β).Life := by
  constructor <;> simp [TestSession.init]

/-- Which of the fields a step may change without harm. -/
structure Alike (c c' : TestSession β) : Prop where
  isOver : c.Over → c'.Over
  connect : c'.isConnect=c.isConnect
  disconnect : c'.isDisconnect=c.isDisconnect
  counts : c'.connects=c.connects ∧ c'.disconnects=c.disconnects
  calls : c.isConnect=false → c'.sends=c.sends ∧ c'.receives=c.receives

theorem Alike.life {c c' : TestSession β} (h : c.Life) (ha : Alike c c') : c'.Life where
  isOver := by
    rw [ha.disconnect]
    exact fun hd => ha.isOver (h.isOver hd)
  once := by
    rw [ha.disconnect,ha.connect]
    exact h.once
  counted := by
    rw [ha.disconnect,ha.counts.2]
    exact h.counted
  connections := by
    rw [ha.connect,ha.counts.1,ha.counts.2]
    exact h.connections

theorem Alike.refl (c : TestSession β) : Alike c c := ⟨id,rfl,rfl,⟨rfl,rfl⟩,fun _ => ⟨rfl,rfl⟩⟩

/-- A connected session may change in every other field. -/
theorem Alike.connected {c c' : TestSession β} (hon : c.isConnect=true)
    (hc : c'.isConnect=c.isConnect) (hd : c'.isDisconnect=c.isDisconnect)
    (hn : c'.connects=c.connects ∧ c'.disconnects=c.disconnects) : Alike c c' := by
  have hno : c.isConnect≠false := by
    rw [hon]
    exact Bool.true_eq_false.mp
  exact ⟨fun ho => absurd ho.1 hno,hc,hd,hn,fun hoff => absurd hoff hno⟩

theorem completeLogin_alike (c : TestSession β) (success : Bool) (idx : Nat) :
    Alike c (c.completeLogin success idx) := by
  unfold TestSession.completeLogin
  split
  · rename_i hon
    exact Alike.connected hon rfl rfl ⟨rfl,rfl⟩
  · refine ⟨fun ho => ?_,rfl,rfl,⟨rfl,rfl⟩,fun _ => ⟨rfl,rfl⟩⟩
    obtain ⟨hc,hl,ha,hr,-,hreq,hq⟩ := ho
    exact ⟨hc,hl,ha,hr,rfl,hreq,hq⟩

theorem completeEnterRoom_alike (c : TestSession β) (success : Bool) (roomId : Int) :
    Alike c (c.completeEnterRoom success roomId) := by
  unfold TestSession.completeEnterRoom
  split
  · exact Alike.refl c
  · rename_i henter
    refine ⟨fun ho => ?_,rfl,rfl,⟨rfl,rfl⟩,fun _ => ⟨rfl,rfl⟩⟩
    obtain ⟨-,-,-,-,-,hreq,-⟩ := ho
    rw [hreq] at henter
    exact absurd nofun henter

theorem completeExitRoom_alike (c : TestSession β) (success : Bool) :
    Alike c (c.completeExitRoom success) := by
  unfold TestSession.completeExitRoom
  split
  · exact Alike.refl c
  · rename_i hexit
    refine ⟨fun ho => ?_,rfl,rfl,⟨rfl,rfl⟩,fun _ => ⟨rfl,rfl⟩⟩
    obtain ⟨-,-,-,-,-,hreq,-⟩ := ho
    rw [hreq] at hexit
    exact absurd nofun hexit

end TestSession

open TestSession (Life Alike Over)

/-- A step ends the connection, or it changes nothing that an ended session has left behind. -/
theorem exec_alike {e : Env β} {c c' : TestSession β} {o : Choice} {f : Frame β}
    {fs : List (Frame β)} (hf : f.harmless) (h : exec e c o f=some (c',fs)) :
    Alike c c' ∨ c'=c.disconnect := by
  cases exec_move h with
  | disconnect => exact Or.inr rfl
  | completeLogin success idx => exact Or.inl (c.completeLogin_alike success idx)
  | completeEnterRoom success roomId => exact Or.inl (c.completeEnterRoom_alike success roomId)
  | completeExitRoom success => exact Or.inl (c.completeExitRoom_alike success)
  | setAccount =>
    refine Or.inl ⟨fun ho => ?_,rfl,rfl,⟨rfl,rfl⟩,fun _ => ⟨rfl,rfl⟩⟩
    obtain ⟨hc,hl,-,hr,hp,hreq,hq⟩ := ho
    exact ⟨hc,hl,hf,hr,hp,hreq,hq⟩
  | setIsLogin =>
    refine Or.inl ⟨fun ho => ?_,rfl,rfl,⟨rfl,rfl⟩,fun _ => ⟨rfl,rfl⟩⟩
    obtain ⟨hc,-,ha,hr,hp,hreq,hq⟩ := ho
    exact ⟨hc,hf,ha,hr,hp,hreq,hq⟩
  | registerRecv _ hon | recvFailed _ hon | beginLogin _ hon | sendEnterRoom _ hon
  | sendExitRoom hon | queued _ _ _ hon | send _ _ _ hon =>
    exact Or.inl (Alike.connected hon rfl rfl ⟨rfl,rfl⟩)
  | nothing _ hon | registerSend _ hon | sendFailed _ hon =>
    obtain ⟨queue,ev,hdrain⟩ := c.drain_eq e
    rw [hdrain]
    exact Or.inl (Alike.connected hon rfl rfl ⟨rfl,rfl⟩)
  | _ => exact Or.inl ⟨id,rfl,rfl,⟨rfl,rfl⟩,fun _ => ⟨rfl,rfl⟩⟩

theorem rollback_harmless (after : After) : ∀ f∈(rollback after : List (Frame β)), f.harmless := by
  cases after <;> simp [rollback,Frame.harmless]

theorem handle_harmless (e : Env β) (botIndex : UInt32) (pkt : Reply) :
    ∀ f∈handle e botIndex pkt, f.harmless := by
  unfold handle
  split
  case h_2 =>
    split
    · simp [Frame.harmless]
    · split <;> simp [Frame.harmless,disconnect]
  all_goals simp [Frame.harmless,disconnect]

theorem exec_harmless {e : Env β} {c c' : TestSession β} {o : Choice} {f : Frame β}
    {fs : List (Frame β)} (h : exec e c o f=some (c',fs)) : ∀ g∈fs, g.harmless := by
  cases exec_move h with
  | unsent _ after | sendOff after | disconnect _ after => exact rollback_harmless after
  | recvOff fromStart | recvFailed fromStart =>
    cases fromStart <;> simp [Frame.harmless,disconnect]
  | reply pkt =>
    intro g hg
    rcases List.mem_append.mp hg with hg|hg
    · exact handle_harmless e c.botIndex pkt g hg
    · rw [List.mem_singleton.mp hg]
      trivial
  | _ => simp [Frame.harmless,disconnect]

theorem disconnect_life {c : TestSession β} (h : c.Life) :
    c.disconnect.Life ∧ (c.isDisconnect=true → c.disconnect=c) := by
  unfold TestSession.disconnect
  split
  · exact ⟨h,fun _ => rfl⟩
  · rename_i hon
    rw [Bool.not_eq_false] at hon
    have hlive := h.once hon
    have hcounted := h.counted
    have hconnections := h.connections
    rw [hlive] at hcounted
    rw [hon,hcounted] at hconnections
    rw [if_neg (by rw [hlive]; exact Bool.false_eq_true.mp)]
    refine ⟨⟨fun _ => ⟨rfl,rfl,rfl,rfl,rfl,rfl,rfl⟩,nofun,?_,?_⟩,fun hd => ?_⟩
    · change c.disconnects+1=1
      rw [hcounted]
      rfl
    · change c.connects=c.disconnects+1+0
      rw [hconnections,hcounted]
      rfl
    · rw [hlive] at hd
      cases hd

theorem enter_life {e : Env β} {c c' : TestSession β} {en : Entry β} {fs : List (Frame β)}
    (h : c.Life) (hx : enter e c en=some (c',fs)) :
    c'.Life ∧ (c.isDisconnect=true → Alike c c') ∧ ∀ g∈fs, g.harmless := by
  cases en with
  | connect ok =>
    cases hx
    unfold TestSession.connect
    split
    · exact ⟨h,fun _ => Alike.refl c,nofun⟩
    · rename_i hnew
      have hoff : c.isConnect=false := by
        rw [← Bool.not_eq_true]
        exact fun hc => hnew (Or.inl hc)
      have hlive : c.isDisconnect=false := by
        rw [← Bool.not_eq_true]
        exact fun hd => hnew (Or.inr hd)
      have hno : c.isDisconnect≠true := by
        rw [hlive]
        exact Bool.false_eq_true.mp
      have hconnections := h.connections
      rw [hoff] at hconnections
      split
      · refine ⟨⟨fun hd => absurd hd hno,fun _ => hlive,h.counted,?_⟩,fun hd => absurd hd hno,nofun⟩
        change c.connects+1=c.disconnects+1
        rw [hconnections]
        rfl
      · exact ⟨⟨fun hd => absurd hd hno,nofun,h.counted,hconnections⟩,fun hd => absurd hd hno,nofun⟩
  | login isCreate id pw name =>
    cases hx
    refine ⟨h,fun _ => Alike.refl c,?_⟩
    simp only [loginFrames]
    split <;> simp [Frame.harmless]
  | recvCompleted n =>
    simp only [enter] at hx
    split at hx <;> cases hx
    have ha : Alike c { c with receiving := c.receiving-1 } :=
      ⟨id,rfl,rfl,⟨rfl,rfl⟩,fun _ => ⟨rfl,rfl⟩⟩
    exact ⟨ha.life h,fun _ => ha,by simp [Frame.harmless]⟩
  | sendCompleted index n =>
    simp only [enter] at hx
    split at hx
    · cases hx
    · split at hx <;> cases hx
      have ha : Alike c { c with flights := c.flights.eraseIdx index } :=
        ⟨id,rfl,rfl,⟨rfl,rfl⟩,fun _ => ⟨rfl,rfl⟩⟩
      exact ⟨ha.life h,fun _ => ha,by simp [Frame.harmless]⟩
  | transmit index n =>
    simp only [enter] at hx
    split at hx
    · cases hx
    · rename_i f hf
      split at hx <;> cases hx
      have ha : Alike c { c with flights := c.flights.set index ⟨f.bytes,f.sent+n⟩,
                                 wire := c.wire++(f.bytes.drop f.sent).take n } :=
        ⟨id,rfl,rfl,⟨rfl,rfl⟩,fun _ => ⟨rfl,rfl⟩⟩
      exact ⟨ha.life h,fun _ => ha,nofun⟩
  | _ =>
    cases hx
    exact ⟨h,fun _ => Alike.refl c,by simp [Frame.harmless,disconnect]⟩

/-- What one step does to a session and, if its connection has ended, that it stays as it is. -/
theorem exec_life {e : Env β} {c c' : TestSession β} {o : Choice} {f : Frame β}
    {fs : List (Frame β)} (h : c.Life) (hf : f.harmless) (hx : exec e c o f=some (c',fs)) :
    c'.Life ∧ (c.isDisconnect=true → Alike c c') := by
  rcases exec_alike hf hx with ha|rfl
  · exact ⟨ha.life h,fun _ => ha⟩
  · obtain ⟨hlife,hsame⟩ := disconnect_life h
    exact ⟨hlife,fun hd => by rw [hsame hd]; exact Alike.refl c⟩

variable {T : Type} [Fintype T] [DecidableEq T]

/-- A session as its threads may leave it. -/
structure Lives (s : State T β) : Prop where
  life : s.core.Life
  harmless : ∀ f∈Pool.pending s.calls, f.harmless

theorem Lives.step {e : Env β} {s s' : State T β} {a : Pool.Action T Choice (Entry β)}
    (h : Lives s) (hs : step e s a=some s') :
    Lives s' ∧ (s.core.isDisconnect=true → Alike s.core s'.core) := by
  rcases Pool.step_cases hs with ⟨t,o,f,fs,m,-,-,hx,hm,hm'⟩|⟨t,en,fs,-,hx,hm'⟩
  · have hframes := h.harmless
    rw [hm] at hframes
    obtain ⟨hlife,hsame⟩ := exec_life h.life (hframes f (Multiset.mem_cons_self f m)) hx
    refine ⟨⟨hlife,fun g hg => ?_⟩,hsame⟩
    rw [hm'] at hg
    rcases Multiset.mem_add.mp hg with hnew|hold
    · exact exec_harmless hx g hnew
    · exact hframes g (Multiset.mem_cons_of_mem hold)
  · obtain ⟨hlife,hsame,hnew⟩ := enter_life h.life hx
    refine ⟨⟨hlife,fun g hg => ?_⟩,hsame⟩
    rw [hm'] at hg
    rcases Multiset.mem_add.mp hg with hg|hold
    · exact hnew g hg
    · exact h.harmless g hold

theorem reaches_lives {e : Env β} {botIndex : UInt32} {s : State T β}
    (h : Reaches (step e) Any (Pool.State.init (TestSession.init botIndex)) s) : Lives s := by
  refine h.invariant ⟨TestSession.life_init botIndex,?_⟩ fun _ _ _ hl _ hs => (hl.step hs).1
  rw [Pool.pending_init]
  exact nofun

/-- `GServerStats.disconnect` counts every connection that ended once. After that the session is over:
every later state has no connection, login, room, pending request or queued buffer, and neither
`WSASend` nor `WSARecv` is called again. -/
theorem ended_session_stays_over (e : Env β) (botIndex : UInt32) (s : State T β)
    (h : Reaches (step e) Any (Pool.State.init (TestSession.init botIndex)) s) :
    s.core.connects=s.core.disconnects+s.core.isConnect.toNat ∧
    (0<s.core.connects → s.core.isConnect=false → ∀ t, Reaches (step e) Any s t →
      t.core.isConnect=false ∧ t.core.isLogin=false ∧ t.core.accountIdx=0 ∧ t.core.roomId= -1 ∧
      t.core.loginPending=false ∧ t.core.roomRequest=.none ∧ t.core.sendQueue=[] ∧
      t.core.sends=s.core.sends ∧ t.core.receives=s.core.receives ∧ t.core.disconnects=1) := by
  have hlives := reaches_lives h
  have hcounted := hlives.life.counted
  have hconnections := hlives.life.connections
  refine ⟨hconnections,fun hpos hoff t ht => ?_⟩
  have hdead : s.core.isDisconnect=true := by
    by_contra hlive
    rw [Bool.eq_false_iff.mpr hlive] at hcounted
    rw [hoff,hcounted] at hconnections
    simp [hconnections] at hpos
  have hlater : Lives t ∧ t.core.isDisconnect=true ∧ t.core.sends=s.core.sends ∧
      t.core.receives=s.core.receives := by
    refine ht.invariant (P:=fun t => Lives t ∧ t.core.isDisconnect=true ∧
      t.core.sends=s.core.sends ∧ t.core.receives=s.core.receives) ⟨hlives,hdead,rfl,rfl⟩ ?_
    intro x a y hx _ hy
    obtain ⟨hl,hd,hsends,hreceives⟩ := hx
    obtain ⟨hl',hsame⟩ := hl.step hy
    have ha := hsame hd
    obtain ⟨hs,hr⟩ := ha.calls (hl.life.isOver hd).1
    exact ⟨hl',ha.disconnect.trans hd,hs.trans hsends,hr.trans hreceives⟩
  obtain ⟨hl,hd,hsends,hreceives⟩ := hlater
  obtain ⟨hc,hlogin,haccount,hroom,hpending,hrequest,hqueue⟩ := hl.life.isOver hd
  have hone := hl.life.counted
  rw [hd] at hone
  exact ⟨hc,hlogin,haccount,hroom,hpending,hrequest,hqueue,hsends,hreceives,hone⟩

/-- A `disconnect` between `begin_login` and `send` of a login while an `ACK_BOT_LOGIN` is handled. -/
theorem ended_session_stays_over_lateAck :
    ∃ (e : Env NetWork.SendBuffer) (s t : State (Fin 3) NetWork.SendBuffer),
      Reaches (step e) Any (Pool.State.init (TestSession.init 0)) s ∧ s.core.connects=1 ∧
      s.core.isConnect=false ∧ Reaches (step e) Any s t ∧ t.core.isLogin=false ∧
      t.core.accountIdx=0 ∧ t.core.loginPending=false ∧ t.core.receives=s.core.receives ∧
      t.core.disconnects=1 := by
  let e : Env NetWork.SendBuffer :=
    ⟨⟨fun _ => [],fun _ => []⟩,id,fun _ => some (.copyData [1]),fun _ => none⟩
  let ok : Choice := ⟨true,.wait⟩
  let ack : Choice := ⟨true,.reply (.ack (.login true 5 [] .success))⟩
  have hrun : (runActions (step e)
      (Pool.State.init (TestSession.init 0) : State (Fin 3) NetWork.SendBuffer)
      [.enter 0 (.connect true),.enter 0 .start,.run 0 ok,.run 0 ok,.run 0 ok,
       .enter 0 (.testLogin 7 false),.run 0 ok,.enter 1 (.recvCompleted 8),.run 1 ok,.run 1 ack,
       .enter 2 .disconnect,.run 2 ok]).map (fun s => (s.core.connects,s.core.isConnect,
        (runActions (step e) s [.run 1 ok,.run 1 ok,.run 1 ok,.run 0 ok,.run 0 ok]).isSome))=
      some (1,false,true) := by decide +kernel
  obtain ⟨s,hs,hfields⟩ := Option.map_eq_some_iff.mp hrun
  simp only [Prod.mk.injEq] at hfields
  obtain ⟨hconnects,hoff,hlater⟩ := hfields
  obtain ⟨t,ht⟩ := Option.isSome_iff_exists.mp hlater
  have hreach : Reaches (step e) Any _ s := Reaches.of_runActions (fun _ _ => trivial) _ hs
  have hreach' : Reaches (step e) Any s t := Reaches.of_runActions (fun _ _ => trivial) _ ht
  obtain ⟨-,hover⟩ := ended_session_stays_over e 0 s hreach
  obtain ⟨-,hlogin,haccount,-,hpending,-,-,-,hreceives,hone⟩ :=
    hover (by omega) hoff t hreach'
  exact ⟨e,s,t,hreach,hconnects,hoff,hreach',hlogin,haccount,hpending,hreceives,hone⟩

end IocpServer.TestClient
