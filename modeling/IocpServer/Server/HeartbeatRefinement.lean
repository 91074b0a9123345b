import IocpServer.NetWork.Silence
import IocpServer.Server.Attendance
import IocpServer.Server.Capacity

set_option linter.unusedSectionVars false

namespace IocpServer.NetWork.Heartbeat

variable {S T : Type} [DecidableEq S] [DecidableEq T] {s s' s'' : State S T} {now : BitVec 64}
  {x : S} {rest : List S}

/-- Where the heartbeat thread is when it has dealt with a session, short of `disconnect`. -/
def Beat.after (now : BitVec 64) (x : S) (rest : List S) : Heartbeat → Beat S
  | .disconnect => .disconnect now x rest
  | .skip | .sendPing => .visit now rest

def Cell.after (c : Cell) (now : BitVec 64) : Heartbeat → Cell
  | .sendPing => { c with waitingPong := true, lastPingTick := now }
  | .skip | .disconnect => c

/-- Undisturbed, the heartbeat thread does with the next session what `heartbeat` says. -/
theorem visit_reaches (hheart : s.heart=.visit now (x::rest)) :
    ∃ s', Reaches step Rising s s' ∧ s'.manager=s.manager ∧ s'.connecting=s.connecting ∧
      s'.clock=s.clock ∧ s'.threads=s.threads ∧
      s'.heart=Beat.after now x rest (heartbeat (s.cell x).isConnect (s.cell x).toPong now) ∧
      s'.cell=Function.update s.cell x
        ((s.cell x).after now (heartbeat (s.cell x).isConnect (s.cell x).toPong now)) := by
  have hbeats : ∀ k s', runActions step s (List.replicate k .beat)=some s' →
      Reaches step Rising s s' := by
    intro k s' hrun
    refine Reaches.of_admitted _ ?_ hrun
    intro a ha y
    rw [List.eq_of_mem_replicate ha]
    trivial
  have hsame : s.cell=Function.update s.cell x (s.cell x) := (Function.update_eq_self x s.cell).symm
  cases hon : (s.cell x).isConnect with
  | false =>
    refine ⟨{ s with heart := .visit now rest, log := s.log++[.skip x now] },hbeats 1 _ ?_,rfl,rfl,
      rfl,rfl,rfl,hsame⟩
    simp [runActions,step,beat,hheart,hon,State.go,State.add]
  | true =>
    cases hflag : (s.cell x).waitingPong with
    | false =>
      have hsend : heartbeat true (s.cell x).toPong now=.sendPing := by simp [heartbeat,hflag]
      rw [hsend]
      refine ⟨{ s with
          cell := Function.update s.cell x ((s.cell x).after now .sendPing)
          heart := .visit now rest
          log := s.log++[.read x false now,.mark x now,.ping x now] },hbeats 5 _ ?_,rfl,rfl,rfl,rfl,
        rfl,rfl⟩
      simp [runActions,step,beat,hheart,hon,hflag,State.go,State.add,State.setCell,Cell.after]
    | true =>
      by_cases hlate : pongTimeoutMs<now-(s.cell x).lastPingTick
      · have hdisc : heartbeat true (s.cell x).toPong now=.disconnect := by
          simp [heartbeat,hflag,hlate]
        rw [hdisc]
        refine ⟨{ s with heart := .disconnect now x rest, log := s.log++[.read x true now] },
          hbeats 3 _ ?_,rfl,rfl,rfl,rfl,rfl,hsame⟩
        simp [runActions,step,beat,hheart,hon,hflag,hlate,State.go,State.add]
      · have hskip : heartbeat true (s.cell x).toPong now=.skip := by
          simp [heartbeat,hflag,hlate]
        rw [hskip]
        refine ⟨{ s with heart := .visit now rest, log := s.log++[.read x true now] },
          hbeats 3 _ ?_,rfl,rfl,rfl,rfl,rfl,hsame⟩
        simp [runActions,step,beat,hheart,hon,hflag,hlate,State.go,State.add]

/-- Undisturbed, a worker answers a pong. -/
theorem answer_reaches {t : T} (hidle : s.threads t=.idle) (x : S) (now : BitVec 64) :
    Reaches step Rising s { s with
      cell := Function.update s.cell x { s.cell x with waitingPong := false, lastPongTick := now },
      log := s.log++[.answer x,.pong x] } := by
  have hsame : Function.update s.threads t .idle=s.threads := by
    rw [← hidle,Function.update_eq_self]
  refine Reaches.of_admitted [.answer t x now,.handle t,.handle t] ?_ ?_
  · simp [Rising]
  · simp [runActions,step,handle,hidle,State.add,State.setCell,hsame]

/-- A run in which neither the heartbeat thread nor a pong handler takes a step. -/
structure Outside (s s' : State S T) : Prop where
  reaches : Reaches step Rising s s'
  heart : s'.heart=s.heart
  clock : s'.clock=s.clock
  threads : s'.threads=s.threads
  pong : ∀ x, (s'.cell x).toPong=(s.cell x).toPong

namespace Outside

theorem refl : Outside s s := ⟨.refl,rfl,rfl,rfl,fun _ => rfl⟩

theorem trans (h : Outside s s') (h' : Outside s' s'') : Outside s s'' :=
  ⟨h.reaches.trans h'.reaches,h'.heart.trans h.heart,h'.clock.trans h.clock,
    h'.threads.trans h.threads,fun x => (h'.pong x).trans (h.pong x)⟩

theorem addSession {m : SessionManager S} (h : s.manager.addSession x=some (true,m)) :
    Outside s
      (State.add { s with manager := m, connecting := insert x s.connecting } (.enlist x)) :=
  ⟨Reaches.refl.tail (a:=.addSession x) trivial (by simp only [step,h]),rfl,rfl,rfl,fun _ => rfl⟩

theorem connect (h : x∈s.connecting) :
    Outside s (State.add { s.setCell x { s.cell x with isConnect := true } with
      connecting := s.connecting.erase x } (.connect x)) :=
  ⟨Reaches.refl.tail (a:=.connect x) trivial (if_pos h),rfl,rfl,rfl,
    update_field Cell.toPong (by rfl)⟩

theorem close (s : State S T) (x : S) :
    Outside s ((s.setCell x { s.cell x with isConnect := false }).add (.close x)) :=
  ⟨Reaches.refl.tail (a:=.close x) trivial rfl,rfl,rfl,rfl,update_field Cell.toPong (by rfl)⟩

theorem release (s : State S T) (x : S) :
    Outside s (State.add { s with manager := s.manager.eraseSession x } (.release x)) :=
  ⟨Reaches.refl.tail (a:=.release x) trivial rfl,rfl,rfl,rfl,fun _ => rfl⟩

end Outside

end IocpServer.NetWork.Heartbeat

namespace IocpServer.NetWork.Lifecycle

variable {R : Type} {c c' : Core R} {o : Choice R} {f : Frame R} {fs : List (Frame R)}
  {m : Multiset (Frame R)}

theorem greeting_le_fresh (f : Frame R) : f.greeting ≤ f.fresh := by
  cases f <;> simp [Frame.greeting,Frame.fresh]

/-- While its admission runs, a session has not been connected and no second admission runs. -/
theorem Account.alone (h : Account ⟨c,f::ₘm⟩) (hf : f.fresh=1) :
    c.pipe.isConnect=false ∧ c.hadConnected=false ∧ tok Frame.greeting m=0 := by
  have hoffered := h.offered
  have hle := Bool.toNat_le c.offered
  have hmono := tok_mono greeting_le_fresh m
  simp only [tok_cons,hf] at hoffered
  have hhad : c.hadConnected=false := by
    cases hc : c.hadConnected with
    | false => rfl
    | true =>
      rw [hc,Bool.toNat_true] at hoffered
      omega
  refine ⟨?_,hhad,by omega⟩
  cases hcon : c.pipe.isConnect with
  | false => rfl
  | true => exact absurd (h.connect hcon) (by simp [hhad])

/-- Only a session that was not added is rejected. -/
theorem Sound.rejected (h : Sound ⟨c,.rejectConnection::ₘm⟩) : c.admitted=false := by
  obtain ⟨-,hhad,hgreet⟩ := h.account.alone rfl
  by_contra hadm
  rw [Bool.not_eq_false] at hadm
  rcases h.greeting.connected hadm with hcon|hpos
  · rw [hhad] at hcon
    cases hcon
  · simp only [tok_cons,Frame.greeting] at hpos
    omega

/-- A step that neither adds nor connects the session keeps `_is_connect` or clears it. -/
theorem exec_connection (hx : exec c o f=some (c',fs))
    (hadd : f=.addSession → o.admission≠some true) (hstore : f≠.storeConnect)
    (hreject : f≠.rejectConnection) :
    c'.admitted=c.admitted ∧ (c'.pipe.isConnect → c.pipe.isConnect) ∧
      (fs.map Frame.greeting).sum=f.greeting := by
  cases exec_move hx with
  | added =>
    have hnew := hadd rfl
    simp only [exec] at hx
    split at hx <;> simp_all
  | storeConnect => exact absurd rfl hstore
  | rejectConnection => exact absurd rfl hreject
  | pipe ok pc p pc' ha =>
    obtain ⟨n,b,heq⟩ := pipeEffect_eq c ok pc p
    refine ⟨by rw [heq],?_,sum_pipeNext (fun _ => rfl) rfl pc pc'⟩
    rcases (exec_flags hx).2 with ⟨-,-,-,-,hoff⟩|⟨-,-,-,hon,-⟩
    · intro hcon
      rw [hoff] at hcon
      cases hcon
    · exact fun hcon => (hon hcon).resolve_right (by simp [Frame.fresh])
  | _ => exact ⟨rfl,id,rfl⟩

theorem enter_connection {entry : Entry} (hx : enter c entry=some (c',fs)) :
    c'.pipe.isConnect=c.pipe.isConnect := by
  cases enter_enters hx <;> rfl

end IocpServer.NetWork.Lifecycle

namespace IocpServer.Server

open NetWork NetWork.Lifecycle
open NetWork.Heartbeat (Outside)

variable {T U S : Type} [DecidableEq S] [DecidableEq T] [DecidableEq U] [Fintype T] {e : Env}
  {s s' : State T S} {k k' : Heartbeat.State S U} {x : S}

/-- The list of sessions is the same. -/
structure SameList (m m' : SessionManager S) : Prop where
  sessions : m.sessions=m'.sessions
  count : m.sessionCount=m'.sessionCount
  max : m.maxSessionCount=m'.maxSessionCount

/-- What the heartbeat machine has of the server. It does not know the sessions of rejected clients:
the heartbeat never comes to them. -/
structure Sees (s : State T S) (k : Heartbeat.State S U) : Prop where
  list : SameList k.manager s.game.manager
  connect : ∀ x, (k.cell x).isConnect=((s.cores x).admitted && (s.cores x).pipe.isConnect)
  connecting : ∀ x, 0<tok Frame.greeting (s.view x).frames → x∈k.connecting

/-- Session `x` moves and the others stay as they are. -/
theorem Sees.moved (h : Sees s k) (hview : ∀ y, y≠x → s'.view y=s.view y)
    (hlist : SameList k'.manager s'.game.manager)
    (hcells : ∀ y, y≠x → (k'.cell y).isConnect=(k.cell y).isConnect)
    (hconnect : (k'.cell x).isConnect=((s'.cores x).admitted && (s'.cores x).pipe.isConnect))
    (hkeep : ∀ y, y≠x → y∈k.connecting → y∈k'.connecting)
    (hconnecting : 0<tok Frame.greeting (s'.view x).frames → x∈k'.connecting) : Sees s' k' := by
  refine ⟨hlist,fun y => ?_,fun y => ?_⟩
  · by_cases hy : y=x
    · rw [hy]
      exact hconnect
    · have hcore : s'.cores y=s.cores y := congrArg Local.core (hview y hy)
      rw [hcells y hy,hcore]
      exact h.connect y
  · by_cases hy : y=x
    · rw [hy]
      exact hconnecting
    · rw [hview y hy]
      exact fun hpos => hkeep y hy (h.connecting y hpos)

/-- `add_session` adds a new session. -/
theorem Sees.joins (h : Sees s k) {m : Multiset (Frame Packet)}
    (hsound : Sound ⟨s.cores x,.addSession::ₘm⟩) (hview : ∀ y, y≠x → s'.view y=s.view y)
    (hself : s'.view x=⟨{ s.cores x with admitted := true },beside [.processConnect] m⟩)
    (hx : x∉s.game.manager.sessions)
    (hroom : s.game.manager.sessionCount<s.game.manager.maxSessionCount)
    (hs : s'.game.manager.sessions=insert x s.game.manager.sessions)
    (hn : s'.game.manager.sessionCount=s.game.manager.sessionCount+1)
    (hmax : s'.game.manager.maxSessionCount=s.game.manager.maxSessionCount) :
    ∃ k', Outside k k' ∧ Sees s' k' := by
  obtain ⟨hsessions,hcount,hlimit⟩ := h.list
  have hadd : k.manager.addSession x=some (true,{ k.manager with
      sessions := insert x k.manager.sessions, sessionCount := k.manager.sessionCount+1 }) := by
    rw [SessionManager.addSession,if_neg (hsessions ▸ hx),if_neg (by omega)]
  have hcore : s'.cores x={ s.cores x with admitted := true } := congrArg Local.core hself
  obtain ⟨hoff,-,-⟩ := hsound.account.alone rfl
  refine ⟨_,Outside.addSession hadd,h.moved hview ⟨?_,?_,?_⟩ (fun _ _ => rfl) ?_ ?_ ?_⟩
  · rw [hs,← hsessions]
    rfl
  · rw [hn,← hcount]
    rfl
  · rw [hmax,← hlimit]
    rfl
  · rw [hcore]
    refine (h.connect x).trans ?_
    simp [hoff]
  · exact fun y _ hy => Finset.mem_insert_of_mem hy
  · exact fun _ => Finset.mem_insert_self x _

/-- A session that is not new keeps its place in the list or leaves it. -/
theorem Sees.list_step (h : SameList k.manager s.game.manager) {g : Game.State S} {f : Frame Packet}
    {admission : Option Bool} (hm : Members s.game g x f admission)
    (hmax : g.manager.maxSessionCount=s.game.manager.maxSessionCount)
    (hnew : f=.addSession → admission≠some true) :
    ∃ k', Outside k k' ∧ SameList k'.manager g.manager ∧ k'.cell=k.cell ∧
      k'.connecting=k.connecting := by
  obtain ⟨hsessions,hcount,hlimit⟩ := h
  cases hm with
  | joins => exact absurd rfl (hnew rfl)
  | leaves cleanup admission hx htodo hs hn =>
    refine ⟨_,Outside.release k x,?_,rfl,rfl⟩
    have herase : k.manager.eraseSession x={ k.manager with
        sessions := k.manager.sessions.erase x, sessionCount := k.manager.sessionCount-1 } :=
      if_pos (hsessions ▸ hx)
    simp only [Heartbeat.State.add,herase]
    exact ⟨by rw [hs,hsessions],by rw [hn,hcount],by rw [hmax,hlimit]⟩
  | stays f admission ha hs hn =>
    exact ⟨k,.refl,⟨by rw [hs,hsessions],by rw [hn,hcount],by rw [hmax,hlimit]⟩,rfl,rfl⟩

/-- What a step that does not add the session does to its connection. -/
theorem Sees.connection_step (h : Sees s k) {c : Core Packet} {o : Choice Packet} {f : Frame Packet}
    {fs : List (Frame Packet)} {m : Multiset (Frame Packet)} (hself : s.view x=⟨s.cores x,f::ₘm⟩)
    (hsound : Sound (s.view x)) (hx : exec (s.cores x) o f=some (c,fs))
    (hnew : f=.addSession → o.admission≠some true) (hcell : k'.cell=k.cell)
    (hconnecting : k'.connecting=k.connecting) :
    ∃ k'', Outside k' k'' ∧ k''.manager=k'.manager ∧
      (∀ y, y≠x → (k''.cell y).isConnect=(k.cell y).isConnect) ∧
      (k''.cell x).isConnect=(c.admitted && c.pipe.isConnect) ∧
      (∀ y, y≠x → y∈k.connecting → y∈k''.connecting) ∧
      (0<tok Frame.greeting (beside fs m) → x∈k''.connecting) := by
  have hpending := h.connecting x
  have hon := h.connect x
  rw [hself] at hsound hpending
  by_cases hstore : f=.storeConnect
  · -- `process_connect` stores `_is_connect` of a session that was added
    subst hstore
    obtain ⟨-,-,hgreet⟩ := hsound.account.alone rfl
    have hadmitted := hsound.greeting.greeted (by simp [Frame.greeting])
    have hmem : x∈k'.connecting := hconnecting ▸ hpending (by simp [Frame.greeting])
    cases hx
    refine ⟨_,Outside.connect hmem,rfl,fun y hy => ?_,?_,fun y hy hyk => ?_,fun hpos => ?_⟩
    · simp [Heartbeat.State.add,Heartbeat.State.setCell,Function.update_of_ne hy,hcell]
    · simpa [Heartbeat.State.add,Heartbeat.State.setCell] using hadmitted
    · exact Finset.mem_erase.mpr ⟨hy,hconnecting ▸ hyk⟩
    · simp [Frame.greeting,hgreet] at hpos
  by_cases hreject : f=.rejectConnection
  · -- `reject_connection` stores it too, but of a session that is not shown
    subst hreject
    obtain ⟨-,-,hgreet⟩ := hsound.account.alone rfl
    have hadmitted := hsound.rejected
    have hsum : (fs.map Frame.greeting).sum=0 := by cases exec_move hx <;> rfl
    refine ⟨k',.refl,rfl,fun y _ => by rw [hcell],?_,fun y _ hy => hconnecting ▸ hy,?_⟩
    · rw [hcell,hon,hadmitted,exec_admitted hx (by simp),hadmitted]
      rfl
    · rw [tok_beside,hsum,hgreet]
      exact fun hpos => absurd hpos (Nat.lt_irrefl 0)
  -- every other step keeps it or clears it
  obtain ⟨hadmitted,hoff,hsum⟩ := exec_connection hx hnew hstore hreject
  have hjoining : 0<tok Frame.greeting (beside fs m) → x∈k'.connecting := by
    rw [tok_beside,hsum,hconnecting,← tok_cons]
    exact hpending
  by_cases hsame : c.pipe.isConnect=(s.cores x).pipe.isConnect
  · refine ⟨k',.refl,rfl,fun y _ => by rw [hcell],?_,fun y _ hy => hconnecting ▸ hy,hjoining⟩
    rw [hcell,hon,hadmitted,hsame]
  · have hdown : c.pipe.isConnect=false := by
      cases hc : c.pipe.isConnect with
      | false => rfl
      | true => exact absurd ((hc.trans (hoff hc).symm)) hsame
    refine ⟨_,Outside.close k' x,rfl,fun y hy => ?_,?_,fun y _ hy => ?_,hjoining⟩
    · simp [Heartbeat.State.add,Heartbeat.State.setCell,Function.update_of_ne hy,hcell]
    · simp [Heartbeat.State.add,Heartbeat.State.setCell,hdown]
    · exact hconnecting ▸ hy

/-- A thread goes on in a session. -/
theorem Sees.run (h : Sees s k) (hsound : ∀ x, Sound (s.view x)) {t : T} {ok : Bool}
    {recv : Recv Packet} (hs : step e s (.run t ok recv)=some s') :
    ∃ k', Outside k k' ∧ Sees s' k' := by
  obtain ⟨x,f,rest,c,fs,hcalls,hx,rfl⟩ := step_run hs
  obtain ⟨⟨m,hself,hself'⟩,hview⟩ :=
    view_replace (g:=(gameStep e s.game x (s.cores x).pipe.isConnect f).1) hcalls c fs
  obtain ⟨hmembers,hmax⟩ := gameStep_members e s.game x (s.cores x).pipe.isConnect f
  by_cases hnew : f=.addSession ∧
      (gameStep e s.game x (s.cores x).pipe.isConnect f).2.1=some true
  · obtain ⟨rfl,hadmission⟩ := hnew
    have hexec : exec (s.cores x) (s.choice e x .addSession ok recv) .addSession=
        some ({ s.cores x with admitted := true },[.processConnect]) := by
      simp only [exec,State.choice,hadmission]
    rw [hexec] at hx
    cases hx
    have hsx := hsound x
    rw [hself] at hsx
    generalize hg : gameStep e s.game x (s.cores x).pipe.isConnect .addSession=r at *
    obtain ⟨g,admission,body⟩ := r
    cases hadmission
    cases hmembers with
    | joins hin hroom hs hn => exact h.joins hsx hview hself' hin hroom hs hn hmax
    | stays _ _ hno => exact absurd rfl (hno rfl)
  · have hold : f=.addSession → (s.choice e x f ok recv).admission≠some true :=
      fun hf hadd => hnew ⟨hf,hadd⟩
    obtain ⟨k',hk',hlist,hcell,hconnecting⟩ := Sees.list_step h.list hmembers hmax hold
    obtain ⟨k'',hk'',hmanager,hcells,hconnect,hkeep,hjoin⟩ :=
      h.connection_step hself (hsound x) hx hold hcell hconnecting
    refine ⟨k'',hk'.trans hk'',h.moved hview (hmanager ▸ hlist) hcells ?_ hkeep ?_⟩
    · simpa [State.move] using hconnect
    · rw [hself']
      exact hjoin

/-- A session is called from outside. -/
theorem Sees.enter (h : Sees s k) {t : T} {entry : Entry}
    (hs : step e s (.enter t x entry)=some s') : Sees s' k := by
  obtain ⟨c,fs,-,hx,rfl⟩ := step_enter hs
  obtain ⟨hself,hview⟩ := view_push (s:=s) (g:=s.game) (x:=x) (t:=t) c fs
  obtain ⟨-,hadmitted,-,-,hsum⟩ := enter_settled hx
  refine h.moved hview h.list (fun _ _ => rfl) ?_ (fun _ _ hy => hy) ?_
  · simpa [State.move,hadmitted,enter_connection hx] using h.connect x
  · rw [hself,tok_beside,hsum,Nat.zero_add]
    exact h.connecting x

/-- The call of `disconnect` that the heartbeat thread makes takes effect. -/
theorem Sees.disconnect (h : Sees s k) {t : T} {ok : Bool} {recv : Recv Packet} {now : BitVec 64}
    {todo : List S} (hheart : k.heart=.disconnect now x todo) {rest : List (S×Frame Packet)}
    (hcalls : s.calls t=(x,.pipe (.disconnect false))::rest)
    (hs : step e s (.run t ok recv)=some s') :
    ∃ k', Heartbeat.step k .beat=some k' ∧ Sees s' k' ∧ k'.heart=.visit now todo ∧
      k'.clock=k.clock ∧ k'.threads=k.threads ∧ ∀ y, (k'.cell y).toPong=(k.cell y).toPong := by
  obtain ⟨x',f,rest',c,fs,hcalls',hx,rfl⟩ := step_run hs
  rw [hcalls] at hcalls'
  cases hcalls'
  obtain ⟨⟨m,hself,hself'⟩,hview⟩ := view_replace (g:=(gameStep e s.game x
    (s.cores x).pipe.isConnect (.pipe (.disconnect false))).1) hcalls c fs
  obtain ⟨hadmitted,-,hsum⟩ := exec_connection hx (by simp) (by simp) (by simp)
  have hoff : c.pipe.isConnect=false := by
    cases exec_move hx with
    | pipe ok pc p pc' ha =>
      cases SendPipeline.advance_move ha with
      | close => rfl
      | closed dropped hoff => exact hoff
  refine ⟨((k.setCell x { k.cell x with isConnect := false }).go (.visit now todo)).add
    (.disconnect x now),by simp [Heartbeat.step,Heartbeat.beat,hheart],
    h.moved hview h.list (fun y hy => ?_) ?_ (fun _ _ hy => hy) ?_,rfl,rfl,rfl,
    Heartbeat.update_field Heartbeat.Cell.toPong (by rfl)⟩
  · simp [Heartbeat.State.add,Heartbeat.State.go,Heartbeat.State.setCell,Function.update_of_ne hy]
  · simp [Heartbeat.State.add,Heartbeat.State.go,Heartbeat.State.setCell,State.move,hoff]
  · have hold := h.connecting x
    rw [hself,tok_cons] at hold
    rw [hself',tok_beside,hsum]
    exact hold

end IocpServer.Server

namespace IocpServer.Service

open NetWork.Heartbeat (Outside)
open Server (Sees)

variable {T U S A : Type} [DecidableEq T] [DecidableEq U] [DecidableEq S] [DecidableEq A]
  [Fintype T] [Fintype A] {e : Server.Env} {main : T} {v v' : State T S A}
  {k : NetWork.Heartbeat.State S U}

theorem Inv.sees (hi : Inv main v) (h : Sees v.server k) {a : Action T S A}
    (hs : Service.step e main v a=some v') : ∃ k', Outside k k' ∧ Sees v'.server k' := by
  rcases step_server hs with heq|⟨b,-,-,hstep⟩
  · rw [heq]
    exact ⟨k,.refl,h⟩
  · cases b with
    | run t ok recv => exact h.run (fun x => (hi.running.resident x).sound) hstep
    | enter t x entry => exact ⟨k,.refl,h.enter hstep⟩

end IocpServer.Service

namespace IocpServer.GameServer

open NetWork.Heartbeat (Outside Rising)
open Server (Sees)
open Server.LockOrder (Thread)

variable {n : Nat} {S A : Type} [DecidableEq S] [DecidableEq A] [Fintype A] {e : Env}
  {p p' : State n S A} {k k' : NetWork.Heartbeat.State S (Fin n)}

/-- `main` leaves the sessions, what the heartbeat keeps in them and the place of its thread in
`check_heartbeat` alone. -/
theorem mainMove_frame (hs : MainMove p p') :
    p'.service.server=p.service.server ∧ p'.pong=p.pong ∧
      ∀ b, p'.heartbeat=.body b ↔ p.heartbeat=.body b := by
  cases hs with
  | launch hm =>
    simp only [State.go,State.launch]
    split <;> exact ⟨rfl,rfl,fun _ => Iff.rfl⟩
  | notifyAll hm => exact ⟨rfl,rfl,fun _ => Loop.notify_body⟩
  | _ => exact ⟨rfl,rfl,fun _ => Iff.rfl⟩

/-- The process with the tick of the last `check_heartbeat`, which no step reads. -/
abbrev Timed (n : Nat) (S A : Type) : Type := State n S A×BitVec 64

def timedStep (e : Env) (q : Timed n S A) (a : Action n S A) : Option (Timed n S A) :=
  (step e q.1 a).map fun p =>
    (p,match a with
      | .copy now _ => now
      | _ => q.2)

/-- The ticks that `check_heartbeat` is given do not decrease. -/
def Timely (q : Timed n S A) (a : Action n S A) : Prop :=
  Ok q.1 a ∧ ∀ now sessions, a=.copy now sessions → q.2 ≤ now

/-- Where the thread of `check_heartbeat` is. Its call of `disconnect` is not over before it has
exchanged `_is_connect`. -/
inductive Stands (p : State n S A) : NetWork.Heartbeat.Beat S → Prop
  | idle (hb : ∀ b, p.heartbeat≠.body (some b)) : Stands p .idle
  | visit (now : BitVec 64) (rest : List S) (hb : p.heartbeat=.body (some (now,rest))) :
      Stands p (.visit now rest)
  | disconnect (now : BitVec 64) (x : S) (rest : List S) (hb : p.heartbeat=.body (some (now,rest)))
      (hcalls : p.service.server.calls .heartbeat=[(x,NetWork.Lifecycle.disconnect)]) :
      Stands p (.disconnect now x rest)

/-- The machine of the atomic accesses shows the heartbeat of the process. -/
structure Shows (q : Timed n S A) (k : NetWork.Heartbeat.State S (Fin n)) : Prop where
  sees : Sees q.1.service.server k
  pong : ∀ x, (k.cell x).toPong=q.1.pong x
  stands : Stands q.1 k.heart
  threads : ∀ w, k.threads w=.idle
  clock : k.clock=q.2

theorem Stands.congr {b : NetWork.Heartbeat.Beat S} (h : Stands p b)
    (hbody : ∀ l, p'.heartbeat=.body (some l) ↔ p.heartbeat=.body (some l))
    (hcalls : p'.service.server.calls .heartbeat=p.service.server.calls .heartbeat) :
    Stands p' b := by
  cases h with
  | idle hb => exact .idle fun b hb' => hb b ((hbody _).mp hb')
  | visit now rest hb => exact .visit now rest ((hbody _).mpr hb)
  | disconnect now x rest hb hc =>
    exact .disconnect now x rest ((hbody _).mpr hb) (hcalls.trans hc)

variable {clock : BitVec 64}

theorem Shows.init (maxSessionCount : Int) (slots : List A) :
    Shows ((State.init maxSessionCount slots,0) : Timed n S A)
      (NetWork.Heartbeat.State.init maxSessionCount) := by
  refine ⟨⟨⟨rfl,rfl,rfl⟩,fun _ => rfl,fun x hpos => ?_⟩,fun _ => rfl,.idle (by simp [State.init]),
    fun _ => rfl,rfl⟩
  simp [State.init,Service.State.init,Server.view_init,NetWork.Lifecycle.tok] at hpos

/-- A step that the heartbeat does not see. -/
theorem Shows.still (h : Shows (p,clock) k) (hserver : p'.service.server=p.service.server)
    (hpong : p'.pong=p.pong)
    (hbody : ∀ l, p'.heartbeat=.body (some l) ↔ p.heartbeat=.body (some l)) :
    Shows (p',clock) k :=
  ⟨hserver ▸ h.sees,hpong ▸ h.pong,h.stands.congr hbody (by rw [hserver]),h.threads,h.clock⟩

/-- The heartbeat thread is no worker: it only goes on in the sessions that it has called. -/
theorem run_of_heartbeat {a : Service.Action (Thread (Fin n)) S A} (hmay : p.mayAct a)
    (hactor : a.actor .main=some .heartbeat) :
    ∃ ok recv, a=.server (.run .heartbeat ok recv) := by
  cases a with
  | server b =>
    cases b with
    | run t ok recv =>
      cases hactor
      exact ⟨ok,recv,rfl⟩
    | enter t x entry =>
      cases hactor
      cases hmay
  | close => cases hactor
  | startAccept | destroy => cases hactor
  | _ =>
    cases hactor
    cases hmay

/-- The heartbeat sees a step of the service. -/
theorem Shows.service (h : Shows (p,clock) k) (hi : Attended p)
    {a : Service.Action (Thread (Fin n)) S A} (hmay : p.mayAct a)
    {v : Service.State (Thread (Fin n)) S A}
    (hs : Service.step e.toEnv .main p.service a=some v) :
    ∃ k', Reaches NetWork.Heartbeat.step Rising k k' ∧
      Shows ({ p with service := v },clock) k' := by
  have houtside : Stands { p with service := v } k.heart →
      ∃ k', Reaches NetWork.Heartbeat.step Rising k k' ∧
        Shows ({ p with service := v },clock) k' := by
    intro hstands
    obtain ⟨k',hk,hsees⟩ := hi.inv.sees h.sees hs
    exact ⟨k',hk.reaches,hsees,fun x => (hk.pong x).trans (h.pong x),hk.heart.symm ▸ hstands,
      fun w => (congrFun hk.threads w).trans (h.threads w),hk.clock.trans h.clock⟩
  have hstands := h.stands
  generalize hheart : k.heart=b at hstands houtside
  cases hstands with
  | idle hb => exact houtside (.idle hb)
  | visit now rest hb => exact houtside (.visit now rest hb)
  | disconnect now x rest hb hcalls =>
    -- the step is the exchange of `_is_connect` in its own call, or one of another thread
    by_cases hactor : a.actor .main=some .heartbeat
    · obtain ⟨ok,recv,rfl⟩ := run_of_heartbeat hmay hactor
      obtain ⟨s,hstep,rfl⟩ := Option.map_eq_some_iff.mp hs
      obtain ⟨k',hbeat,hsees,hheart',hclock,hthreads,hpong⟩ :=
        h.sees.disconnect hheart hcalls hstep
      refine ⟨k',Reaches.refl.tail (a:=.beat) trivial hbeat,hsees,
        fun y => (hpong y).trans (h.pong y),?_,fun w => (congrFun hthreads w).trans (h.threads w),
        hclock.trans h.clock⟩
      rw [hheart']
      exact .visit now rest hb
    · exact houtside (.disconnect now x rest hb ((Service.step_calls hs hactor).trans hcalls))

/-- The thread of `check_heartbeat` copies the list of sessions. -/
theorem Shows.copy (h : Shows (p,clock) k) {now : BitVec 64} {sessions : List S}
    (hnow : clock ≤ now) (hbody : p.heartbeat=.body none) (hnodup : sessions.Nodup)
    (hsessions : sessions.toFinset=p.service.server.game.manager.sessions) :
    ∃ k', Reaches NetWork.Heartbeat.step Rising k k' ∧
      Shows ({ p with heartbeat := .body (some (now,sessions)) },now) k' := by
  have hstands := h.stands
  generalize hheart : k.heart=b at hstands
  cases hstands with
  | visit _ _ hb | disconnect _ _ _ hb =>
    rw [show p.heartbeat=_ from hb] at hbody
    cases hbody
  | idle =>
    have hcheck : NetWork.Heartbeat.step k (.check now)=
        some { k with heart := .copy now, clock := now } := by
      simp only [NetWork.Heartbeat.step,hheart]
    have hcopy : NetWork.Heartbeat.step { k with heart := .copy now, clock := now }
        (.copy sessions)=
        some ((({ k with heart := .copy now, clock := now }).go (.visit now sessions)).add
          (.check now sessions)) :=
      if_pos ⟨hnodup,hsessions.trans h.sees.list.sessions.symm⟩
    have hrising : Rising k (.check now) := by
      show k.clock ≤ now
      rw [h.clock]
      exact hnow
    refine ⟨_,(Reaches.refl.tail hrising hcheck).tail (a:=.copy sessions) trivial hcopy,?_,h.pong,
      .visit now sessions rfl,h.threads,rfl⟩
    exact ⟨h.sees.list,h.sees.connect,h.sees.connecting⟩

/-- A call of the heartbeat thread is a step of the server. -/
theorem heartbeatEnter_step {x : S} {entry : NetWork.Lifecycle.Entry}
    {v : Service.State (Thread (Fin n)) S A}
    (hs : Service.step e.toEnv .main p.service (.server (.enter .heartbeat x entry))=some v) :
    Server.step e.toEnv p.service.server (.enter .heartbeat x entry)=some v.server := by
  cases Service.step_move hs with
  | enter hw ht hentry hserver => exact hserver

theorem Stands.visiting {b : NetWork.Heartbeat.Beat S} (h : Stands p b) {now : BitVec 64}
    {rest : List S} (hb : p.heartbeat=.body (some (now,rest)))
    (hcalls : p.service.server.calls .heartbeat=[]) : b=.visit now rest := by
  cases h with
  | idle hno => exact absurd hb (hno _)
  | visit now' rest' hb' =>
    rw [hb'] at hb
    cases hb
    rfl
  | disconnect now' x rest' hb' hbusy =>
    rw [hbusy] at hcalls
    cases hcalls

/-- The atomic accesses at the next session of the copy, up to what the thread then does. -/
theorem Shows.visit (h : Shows (p,clock) k) (hi : Attended p)
    (hcalls : p.service.server.calls .heartbeat=[]) {now : BitVec 64} {x : S} {rest : List S}
    (hb : p.heartbeat=.body (some (now,x::rest))) {d : NetWork.Heartbeat}
    (hd : NetWork.heartbeat (p.service.server.cores x).pipe.isConnect (p.pong x) now=d) :
    ∃ k', Reaches NetWork.Heartbeat.step Rising k k' ∧ Sees p.service.server k' ∧
      k'.heart=.after now x rest d ∧ (∀ w, k'.threads w=.idle) ∧ k'.clock=clock ∧
      k'.cell=Function.update k.cell x ((k.cell x).after now d) := by
  have hconnect : (k.cell x).isConnect=(p.service.server.cores x).pipe.isConnect := by
    rw [h.sees.connect x,hi.beats now _ hb x List.mem_cons_self,Bool.true_and]
  obtain ⟨k',hreaches,hmanager,hconnecting,hclock,hthreads,hheart,hcell⟩ :=
    NetWork.Heartbeat.visit_reaches (h.stands.visiting hb hcalls)
  rw [hconnect,h.pong x,hd] at hheart hcell
  refine ⟨k',hreaches,?_,hheart,hthreads ▸ h.threads,hclock.trans h.clock,hcell⟩
  refine ⟨hmanager ▸ h.sees.list,fun y => ?_,hconnecting ▸ h.sees.connecting⟩
  rw [hcell,NetWork.Heartbeat.update_field (·.isConnect) (by cases d <;> rfl)]
  exact h.sees.connect y

/-- The thread of `check_heartbeat` deals with the next session of its copy. -/
theorem Shows.beatMove (h : Shows (p,clock) k) (hi : Attended p)
    (hcalls : p.service.server.calls .heartbeat=[]) (hs : BeatMove e p p') :
    ∃ k', Reaches NetWork.Heartbeat.step Rising k k' ∧ Shows (p',clock) k' := by
  cases hs with
  | finished hb =>
    have hheart := h.stands.visiting hb hcalls
    refine ⟨k.go .idle,Reaches.refl.tail (a:=.beat) trivial ?_,?_,h.pong,.idle (by simp),h.threads,
      h.clock⟩
    · simp [NetWork.Heartbeat.step,NetWork.Heartbeat.beat,hheart]
    · exact ⟨h.sees.list,h.sees.connect,h.sees.connecting⟩
  | @skip now x rest hb hd =>
    obtain ⟨k',hreaches,hsees,hheart,hidle,hclock,hcell⟩ := h.visit hi hcalls hb hd
    replace hcell : k'.cell=k.cell := hcell.trans (Function.update_eq_self x k.cell)
    exact ⟨k',hreaches,hsees,hcell ▸ h.pong,hheart ▸ .visit now rest rfl,hidle,hclock⟩
  | @disconnect now x rest v hb hd hstep =>
    obtain ⟨k',hreaches,hsees,hheart,hidle,hclock,hcell⟩ := h.visit hi hcalls hb hd
    replace hcell : k'.cell=k.cell := hcell.trans (Function.update_eq_self x k.cell)
    have hserver := heartbeatEnter_step hstep
    refine ⟨k',hreaches,hsees.enter hserver,hcell ▸ h.pong,
      hheart ▸ .disconnect now x rest rfl ?_,hidle,hclock⟩
    obtain ⟨c,fs,-,hx,hv⟩ := Server.step_enter hserver
    cases hx
    simp [hv,Server.State.move,hcalls,Stacks.on]
  | @sendPing now x rest v hb hd hstep =>
    obtain ⟨k',hreaches,hsees,hheart,hidle,hclock,hcell⟩ := h.visit hi hcalls hb hd
    refine ⟨k',hreaches,hsees.enter (heartbeatEnter_step hstep),fun y => ?_,
      hheart ▸ .visit now rest rfl,hidle,hclock⟩
    by_cases hy : y=x
    · simp [hcell,hy,NetWork.Heartbeat.Cell.after]
    · simp [hcell,hy,h.pong y]

/-- A worker handles a pong. -/
theorem Shows.pong_step (h : Shows (p,clock) k) (w : Fin n) (x : S) :
    ∃ k', Reaches NetWork.Heartbeat.step Rising k k' ∧
      Shows ({ p with pong := Function.update p.pong x { p.pong x with waitingPong := false } },
        clock) k' := by
  refine ⟨_,NetWork.Heartbeat.answer_reaches (h.threads w) x 0,⟨h.sees.list,fun y => ?_,
    h.sees.connecting⟩,fun y => ?_,h.stands.congr (fun _ => Iff.rfl) rfl,h.threads,h.clock⟩
  · simp only
    rw [NetWork.Heartbeat.update_field (·.isConnect) (by rfl)]
    exact h.sees.connect y
  · by_cases hy : y=x
    · have htick : (k.cell x).lastPingTick=(p.pong x).lastPingTick :=
        congrArg NetWork.Pong.lastPingTick (h.pong x)
      simp [hy,htick]
    · simp [hy,h.pong y]

/-- The heartbeat sees every step of the process. -/
theorem Shows.step {q q' : Timed n S A} (h : Shows q k) (hi : Attended q.1) {a : Action n S A}
    (ha : Timely q a) (hs : timedStep e q a=some q') :
    ∃ k', Reaches NetWork.Heartbeat.step Rising k k' ∧ Shows q' k' := by
  obtain ⟨p,clock⟩ := q
  obtain ⟨p',hstep,rfl⟩ := Option.map_eq_some_iff.mp hs
  cases step_move hstep with
  | service hmay hv => exact h.service hi hmay hv
  | main hm =>
    obtain ⟨hserver,hpong,hbody⟩ := mainMove_frame hm
    exact ⟨k,.refl,h.still hserver hpong fun b => hbody (some b)⟩
  | copy hb hlife hnodup hsessions => exact h.copy (ha.2 _ _ rfl) hb hnodup hsessions
  | beat hlife hcalls hb => exact h.beatMove hi hcalls hb
  | pong w x hlife => exact h.pong_step w x
  | heartbeatWait hlife hw =>
    refine ⟨k,.refl,?_⟩
    cases hw with
    | goesOn hl | again hl =>
      refine h.still rfl rfl fun b => iff_of_false (by simp) ?_
      simp [show p.heartbeat=_ from hl]
    | ends hl => exact h.still rfl rfl fun _ => Iff.rfl
  | statsWait hlife hw =>
    refine ⟨k,.refl,?_⟩
    cases hw <;> exact h.still rfl rfl fun _ => Iff.rfl
  | printServerStats hlife | leave hidle => exact ⟨k,.refl,h.still rfl rfl fun _ => Iff.rfl⟩

/-- The timed process without its clock. -/
theorem reaches_of_timed {q q' : Timed n S A} (h : Reaches (timedStep e) Timely q q') :
    Reaches (GameServer.step e) Ok q.1 q'.1 := by
  refine h.invariant (P:=fun q' => Reaches (GameServer.step e) Ok q.1 q'.1) .refl ?_
  intro x a y hx ha hs
  obtain ⟨p,hp,rfl⟩ := Option.map_eq_some_iff.mp hs
  exact hx.tail ha.1 hp

/-- Every run of the process in which the ticks do not decrease is, for the heartbeat, a run of the
machine of its atomic accesses. -/
theorem reaches_heartbeat (hc : ∀ str, str≠[] → e.codec.multiByteToWideChar str≠[])
    {maxSessionCount : Int} {slots : List A} {q : Timed n S A}
    (h : Reaches (timedStep e) Timely (State.init maxSessionCount slots,0) q) :
    ∃ k, Reaches NetWork.Heartbeat.step Rising (NetWork.Heartbeat.State.init maxSessionCount) k ∧
      Shows q k := by
  have hstep : ∀ (q : Timed n S A) a q' k,
      Reaches (timedStep e) Timely (State.init maxSessionCount slots,0) q ∧ Shows q k →
      Timely q a → timedStep e q a=some q' →
      ∃ k', Reaches NetWork.Heartbeat.step Rising k k' ∧
        Reaches (timedStep e) Timely (State.init maxSessionCount slots,0) q' ∧ Shows q' k' := by
    rintro q a q' k ⟨hq,hshows⟩ ha hs
    obtain ⟨k',hk',hshows'⟩ := hshows.step (reaches_attended hc (reaches_of_timed hq)) ha hs
    exact ⟨k',hk',hq.tail ha hs,hshows'⟩
  obtain ⟨k,hk,-,hshows⟩ := h.simulates ⟨.refl,Shows.init maxSessionCount slots⟩ hstep
  exact ⟨k,hk,hshows⟩

/-- What is true of the machine of the atomic accesses is so of the process: `check_heartbeat`
decides to disconnect a session only if it sent it a ping more than 15 seconds ago that is not
answered. -/
theorem disconnects_silent (hc : ∀ str, str≠[] → e.codec.multiByteToWideChar str≠[])
    {maxSessionCount : Int} {slots : List A} {q : Timed n S A}
    (h : Reaches (timedStep e) Timely (State.init maxSessionCount slots,0) q) {now : BitVec 64}
    {x : S} {rest : List S} (hb : q.1.heartbeat=.body (some (now,x::rest)))
    (hcalls : q.1.service.server.calls .heartbeat=[])
    (hd : NetWork.heartbeat (q.1.service.server.cores x).pipe.isConnect (q.1.pong x) now=
      .disconnect) :
    15000<now.toNat-(q.1.pong x).lastPingTick.toNat ∧
      ∃ k, Reaches NetWork.Heartbeat.step Rising (NetWork.Heartbeat.State.init maxSessionCount) k ∧
        Shows q k ∧ .ping x (q.1.pong x).lastPingTick∈k.log ∧
        (NetWork.Heartbeat.view x k.log).unanswered=[(q.1.pong x).lastPingTick] := by
  obtain ⟨k,hk,hshows⟩ := reaches_heartbeat hc h
  have hinv := NetWork.Heartbeat.reaches_inv hk
  have hheart := hshows.stands.visiting hb hcalls
  have hpong := hshows.pong x
  obtain ⟨hwait,hlate⟩ : (q.1.pong x).waitingPong=true ∧
      NetWork.pongTimeoutMs<now-(q.1.pong x).lastPingTick := by
    unfold NetWork.heartbeat at hd
    split at hd
    · cases hd
    · split at hd
      · split at hd
        · exact ⟨‹_›,‹_›⟩
        · cases hd
      · cases hd
  have hnow : now=k.clock := by
    have hholds := hinv.heart
    rw [hheart] at hholds
    exact hholds
  have hle := hinv.ticks x
  rw [← hpong] at hwait hlate ⊢
  rw [← hnow] at hle
  refine ⟨(NetWork.Heartbeat.late_iff hle).mp hlate,k,hk,hshows,?_,?_⟩
  · exact hinv.sent hwait (by rw [hheart]; rfl)
  · exact (hinv.agrees x).unanswered.trans (if_pos hwait)

end IocpServer.GameServer
