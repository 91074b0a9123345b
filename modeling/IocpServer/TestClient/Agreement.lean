import Mathlib.Tactic.Abel
import IocpServer.TestClient.ClientSide

set_option linter.unusedSectionVars false

namespace IocpServer.TestClient

open NetWork (SendBuffer)
open Game (Codec Utf8 Request Ack LoginRequest Op)

/-- The operations of a handler between its call and its answer. -/
def writes : After → Op → Bool
  | .login,.setIsLogin _ | .login,.setAccountIdx _ | .login,.setName _
  | .login,.addAccountSession _ | .login,.addNameSession _ | .login,.countLogin => true
  | .enterRoom,.setRoomId _ | .exitRoom,.setRoomId _ => true
  | _,_ => false

/-- What the handler of a request of this kind has to do. -/
inductive Shape : After → List Op → Prop where
  | idle : Shape .nothing []
  | login (bot : Bool) (pkt : LoginRequest) : Shape .login [.loginCall bot pkt]
  | enter (roomId : Int) : Shape .enterRoom [.enterCall roomId]
  | exit (roomId : Int) : Shape .exitRoom [.exitCall roomId]
  | write (kind : After) (op : Op) (ops : List Op) (h : writes kind op=true) (hops : Shape kind ops) :
    Shape kind (op::ops)
  | ackLogin (bot : Bool) (idx : Nat) (name : Game.WString) (result : Game.LoginError) :
    Shape .login [.ackLogin bot idx name result]
  | ackEnter (roomId : Int) (result : Game.RoomError) :
    Shape .enterRoom [.ack (.enterRoom roomId result)]
  | ackExit (result : Game.RoomError) : Shape .exitRoom [.ack (.exitRoom result)]

/-- A running handler carries its request. -/
theorem Shape.carries {kind : After} {ops : List Op} (h : Shape kind ops) (hk : kind≠.nothing) :
    ∃ q∈ops.flatMap opCarrier, q.kind=kind := by
  induction h with
  | idle => exact absurd rfl hk
  | write kind op ops hw hops ih =>
    obtain ⟨q,hq,hkind⟩ := ih hk
    exact ⟨q,List.mem_append_right _ hq,hkind⟩
  | _ => exact ⟨_,List.mem_cons_self,rfl⟩

/-- A handler settles only what its request is about. -/
theorem Shape.settles {kind : After} {ops : List Op} (h : Shape kind ops) (v : Standing) :
    (kind≠.login → (ops.foldl Standing.after v).isLogin=v.isLogin ∧
      (ops.foldl Standing.after v).accountIdx=v.accountIdx) ∧
    (kind≠.enterRoom → kind≠.exitRoom → (ops.foldl Standing.after v).roomId=v.roomId) := by
  induction h generalizing v with
  | write kind op ops hw hops ih =>
    obtain ⟨hlogin,hroom⟩ := ih (v.after op)
    cases kind with
    | nothing => cases hw
    | login =>
      refine ⟨fun hk => absurd rfl hk,fun h1 h2 => (hroom h1 h2).trans ?_⟩
      cases op <;> cases hw <;> rfl
    | enterRoom =>
      refine ⟨fun hk => ?_,fun h1 => absurd rfl h1⟩
      cases op <;> cases hw; exact hlogin hk
    | exitRoom =>
      refine ⟨fun hk => ?_,fun _ h2 => absurd rfl h2⟩
      cases op <;> cases hw; exact hlogin hk
  | _ => exact ⟨fun _ => ⟨rfl,rfl⟩,fun _ _ => rfl⟩

variable {S : Type} [DecidableEq S]

theorem handle_agree (g : Game.State S) (x : S) {b : Belief} (cs : Multiset Carrier) {pkt : Request}
    (hidle : (g.sessions x).todo=[]) (hv : (Message.request pkt).Valid)
    (hlog : ∀ idx, pkt≠.logout idx)
    (h : Agree b (standing (g.sessions x)) (put (requestCarrier pkt) cs)) :
    (∃ kind, Shape kind ((g.startHandler x pkt).sessions x).todo) ∧
    Agree b (standing ((g.startHandler x pkt).sessions x))
      (put (((g.startHandler x pkt).sessions x).todo.flatMap opCarrier) cs) := by
  have hstand : standing (g.sessions x)=
      ⟨(g.sessions x).isLogin,(g.sessions x).accountIdx,(g.sessions x).enterRoomId⟩ := by
    rw [standing,hidle]
    rfl
  have hnew : standing ((g.startHandler x pkt).sessions x)=
      (Game.handle (g.sessions x).toFields pkt).foldl Standing.after (standing (g.sessions x)) := by
    rw [hstand]
    simp only [standing,Game.State.startHandler,Game.State.setSession,Function.update_self]
  have htodo : ((g.startHandler x pkt).sessions x).todo=Game.handle (g.sessions x).toFields pkt := by
    simp only [Game.State.startHandler,Game.State.setSession,Function.update_self]
  rw [hnew,htodo]
  rw [hstand] at h ⊢
  -- a pending room request comes from a client that is logged in, and then so is the session
  have hin : b.roomRequest≠.none → (g.sessions x).isLogin=true := by
    intro hr
    have hb := h.loggedIn hr
    have hl : b.loginPending=false := Bool.eq_false_iff.mpr fun hp =>
      absurd (hb.symm.trans (h.notYet hp)) nofun
    exact (h.login hl).1.symm.trans hb
  cases pkt with
  | login bot p =>
    have hout : (g.sessions x).isLogin=false :=
      (h.agrees (.ask .login) (Multiset.mem_cons_self _ cs)).1
    have hops : Game.handle (g.sessions x).toFields (.login bot p)=[.loginCall bot p] := by
      simp only [Game.handle,Game.handleReqLogin]
      rw [if_neg hv.1,if_neg hv.2.1,if_neg hv.2.2,if_neg (by rw [hout]; nofun)]
    rw [hops]
    exact ⟨⟨_,.login bot p⟩,h⟩
  | logout idx => exact absurd rfl (hlog idx)
  | enterRoom roomId =>
    have hask : Agree b _ (.ask .enterRoom::ₘcs) := h
    have hlogged := hin (hask.alone_room (Or.inl rfl)).1
    have ha := hask.agrees _ (Multiset.mem_cons_self _ cs)
    simp only [Game.handle,Game.handleReqEnterRoom]
    rw [if_neg (by rw [hlogged]; nofun)]
    split
    · exact ⟨⟨_,.ackEnter _ _⟩,hask.answerRoom (Or.inl rfl) rfl rfl rfl ha⟩
    · exact ⟨⟨_,.enter roomId⟩,h⟩
  | exitRoom =>
    have hask : Agree b _ (.ask .exitRoom::ₘcs) := h
    have hlogged := hin (hask.alone_room (Or.inr rfl)).1
    have ha := hask.agrees _ (Multiset.mem_cons_self _ cs)
    simp only [Game.handle,Game.handleReqExitRoom]
    rw [if_neg (by rw [hlogged]; nofun)]
    split
    · exact ⟨⟨_,.ackExit _⟩,hask.answerRoom (Or.inr rfl) rfl rfl rfl ha⟩
    · exact ⟨⟨_,.exit _⟩,h⟩

/-- The reply of a step of the server's session. -/
def sent : Option Game.Out → List Carrier
  | some (.send pkt) => ackCarrier pkt
  | _ => []

theorem advance_agree (c : Codec) (g : Game.State S) (x : S) {op : Op} {rest : List Op} {b : Belief}
    (cs : Multiset Carrier) {kind : After} (htodo : (g.sessions x).todo=op::rest)
    (hshape : Shape kind (op::rest))
    (h : Agree b (standing (g.sessions x)) (put ((op::rest).flatMap opCarrier) cs)) :
    (∃ kind, Shape kind ((Game.exec c g x op).2.1++rest)) ∧
    (Game.exec c g x op).2.2≠some .disconnect ∧
    Agree b (standing ((Game.advance c g x op rest).1.sessions x))
      (put (((Game.exec c g x op).2.1++rest).flatMap opCarrier)
        (put (sent (Game.exec c g x op).2.2) cs)) := by
  rw [Game.advance_sessions_self]
  have hstand : standing (g.sessions x)=(op::rest).foldl Standing.after
      ⟨(g.sessions x).isLogin,(g.sessions x).accountIdx,(g.sessions x).enterRoomId⟩ := by
    rw [standing,htodo]
  rw [hstand] at h
  cases hshape with
  | login bot pkt =>
    have hask : Agree b _ (.ask .login::ₘcs) := h
    have ha := hask.agrees _ (Multiset.mem_cons_self _ cs)
    simp only [Game.exec]
    split
    · rename_i hok
      refine ⟨⟨.login,?_⟩,by simp,?_⟩
      · exact .write _ _ _ rfl (.write _ _ _ rfl (.write _ _ _ rfl (.write _ _ _ rfl
          (.write _ _ _ rfl (.write _ _ _ rfl (.ackLogin _ _ _ _))))))
      · simp only [Game.State.setSession,Function.update_self]
        exact hask.answerLogin rfl rfl rfl ⟨rfl,rfl⟩
    · rename_i hfail
      refine ⟨⟨_,.ackLogin _ _ _ _⟩,by simp,?_⟩
      have hno : decide ((Game.callLogin c g.login pkt).1=.success)=false := decide_eq_false hfail
      simp only [List.append_nil,List.flatMap_singleton,opCarrier,hno]
      exact hask.answerLogin rfl rfl rfl ha
  | enter roomId =>
    have hask : Agree b _ (.ask .enterRoom::ₘcs) := h
    have ha := hask.agrees _ (Multiset.mem_cons_self _ cs)
    simp only [Game.exec]
    split
    · exact ⟨⟨.enterRoom,.write _ _ _ rfl (.ackEnter _ _)⟩,by simp,
        hask.answerRoom (Or.inl rfl) rfl rfl rfl rfl⟩
    · exact ⟨⟨_,.ackEnter _ _⟩,by simp,hask.answerRoom (Or.inl rfl) rfl rfl rfl ha⟩
  | exit roomId =>
    have hask : Agree b _ (.ask .exitRoom::ₘcs) := h
    have ha := hask.agrees _ (Multiset.mem_cons_self _ cs)
    simp only [Game.exec]
    split
    · exact ⟨⟨.exitRoom,.write _ _ _ rfl (.ackExit _)⟩,by simp,
        hask.answerRoom (Or.inr rfl) rfl rfl rfl rfl⟩
    · exact ⟨⟨_,.ackExit _⟩,by simp,hask.answerRoom (Or.inr rfl) rfl rfl rfl ha⟩
  | write _ _ _ hw hrest =>
    cases kind <;> cases op <;> cases hw <;> refine ⟨⟨_,hrest⟩,by simp [Game.exec],?_⟩ <;>
      simp only [Game.exec,Game.State.setSession,Function.update_self] <;> exact h
  | ackLogin bot idx name result =>
    simp only [Game.exec]
    split
    · refine ⟨⟨_,.idle⟩,by simp,?_⟩
      simp only [Game.State.setSession,Function.update_self]
      exact h
    · exact ⟨⟨_,.idle⟩,by simp,h⟩
  | ackEnter | ackExit => exact ⟨⟨_,.idle⟩,by simp [Game.exec],h⟩

/-- The carriers of the frames of all threads. -/
def inFrames (m : Multiset (Frame Message)) : Multiset Carrier := m.bind fun f => f.carrier

theorem inFrames_cons (f : Frame Message) (m : Multiset (Frame Message)) :
    inFrames (f::ₘm)=put f.carrier (inFrames m) := by
  rw [inFrames,Multiset.cons_bind,put_eq]
  rfl

theorem inFrames_add (fs : List (Frame Message)) (m : Multiset (Frame Message)) :
    inFrames (fs+m)=put (fs.flatMap Frame.carrier) (inFrames m) := by
  rw [inFrames,Multiset.add_bind,put_eq,Multiset.coe_bind]
  rfl

namespace Dialogue

variable {T : Type} [Fintype T] [DecidableEq T]

/-- The carriers outside the threads of the client: requests under way, the running handler and
replies. -/
def inTransit (x : S) (s : Dialogue T S) : Multiset Carrier :=
  (((s.client.core.accepted.drop s.received).flatMap Message.carrier : List Carrier) : Multiset _)+
    (((s.game.sessions x).todo.flatMap opCarrier : List Carrier) : Multiset _)+
    ((s.toClient.flatMap Reply.carrier : List Carrier) : Multiset _)

def carriers (x : S) (s : Dialogue T S) : Multiset Carrier :=
  inFrames (Pool.pending s.client.calls)+s.inTransit x

/-- Both ends are connected, or the client was not yet, and no `REQ_LOGOUT` has been sent. -/
structure Live (s : Dialogue T S) : Prop where
  client : s.client.core.isDisconnect=false
  server : s.connected=true
  noLogout : ∀ idx, .request (.logout idx)∉s.client.core.accepted

structure Inv (e : Env Message) (x : S) (s : Dialogue T S) : Prop where
  pipe : Pipe.Inv e s.client.core.toPipe (Pool.pending s.client.calls)
  proper : ∀ f∈Pool.pending s.client.calls, f.Proper
  valid : ∀ b∈s.client.core.accepted, b.Valid
  replies : .serverFull∉s.toClient
  received : s.received ≤ s.client.core.accepted.length
  shape : s.Live → ∃ kind, Shape kind (s.game.sessions x).todo
  agree : s.Live → Agree s.client.core.belief (standing (s.game.sessions x)) (s.carriers x)

theorem inv_init (e : Env Message) (x : S) (maxSessionCount : Int) (botIndex : UInt32) :
    Inv e x (init x maxSessionCount botIndex : Dialogue T S) := by
  have hses : ((init x maxSessionCount botIndex : Dialogue T S).game.sessions x)=
      { Game.Session.init with wasConnected := true } := by
    simp [init,Game.State.connect,Game.State.setSession,Game.State.init]
  have hframes : Pool.pending (init x maxSessionCount botIndex : Dialogue T S).client.calls=0 :=
    Pool.pending_init _
  refine ⟨?_,?_,fun _ hr => absurd hr List.not_mem_nil,List.not_mem_nil,Nat.le_refl 0,?_,?_⟩
  · rw [hframes]
    exact Pipe.inv_init e botIndex
  · rw [hframes]
    simp
  · intro _
    rw [hses]
    exact ⟨_,.idle⟩
  · intro _
    rw [carriers,inTransit,hframes,hses]
    constructor <;> simp [init,Pool.State.init,TestSession.init,TestSession.belief,inFrames,number,
      Belief.pending,standing,Game.Session.init]
    intro k hk
    cases k <;> rfl

variable {e : Env Message} {x : S} {s s' : Dialogue T S}

theorem Live.before {client' : State T Message} {toClient' : List Reply}
    (hadv : Onward s.client.core client'.core)
    (h : Live { s with client := client', toClient := toClient' }) : s.Live :=
  ⟨hadv.alive h.client,h.server,fun idx hm => h.noLogout idx (hadv.grows.subset hm)⟩

/-- A step of the client, which may take a reply. -/
theorem Inv.client (h : Inv e x s) {client' : State T Message} {toClient' : List Reply}
    {fs : List (Frame Message)} {m : Multiset (Frame Message)} (old got : List Carrier)
    (hpipe : Pipe.Inv e client'.core.toPipe (Pool.pending client'.calls))
    (hproper : ∀ f∈Pool.pending client'.calls, f.Proper)
    (hadv : Onward s.client.core client'.core) (hsub : ∀ r∈toClient', r∈s.toClient)
    (hm : inFrames (Pool.pending s.client.calls)=put old (inFrames m))
    (hm' : Pool.pending client'.calls=fs+m)
    (hgot : s.toClient.flatMap Reply.carrier=got++toClient'.flatMap Reply.carrier)
    (hkeep : client'.core.isDisconnect=false → ∀ v cs,
      Agree s.client.core.belief v (put old (put got cs)) →
      Keeps s.client.core client'.core fs v cs) :
    Inv e x { s with client := client', toClient := toClient' } := by
  refine ⟨hpipe,hproper,?_,fun hr => h.replies (hsub _ hr),?_,?_,?_⟩
  · intro b hb
    exact (hadv.valid b hb).elim (h.valid b) id
  · exact Nat.le_trans h.received hadv.grows.length_le
  · intro hlive
    exact h.shape (hlive.before hadv)
  · intro hlive
    have hagree := h.agree (hlive.before hadv)
    rw [carriers,inTransit,hm,hgot,← Multiset.coe_add] at hagree
    obtain ⟨msgs,hacc,hnew⟩ := hkeep hlive.client (standing (s.game.sessions x))
      (inFrames m+(((s.client.core.accepted.drop s.received).flatMap Message.carrier : List _) : Multiset _)+
        (((s.game.sessions x).todo.flatMap opCarrier : List _) : Multiset _)+
        ((toClient'.flatMap Reply.carrier : List _) : Multiset _)) (by
      simp only [put_eq] at hagree ⊢
      convert hagree using 1
      abel)
    rw [carriers,inTransit,hm',inFrames_add,hacc,List.drop_append_of_le_length h.received,
      List.flatMap_append,← Multiset.coe_add]
    simp only [put_eq] at hnew ⊢
    convert hnew using 1
    abel

/-- The game as the others change it, or the connection of the server's session as it ends. -/
theorem Inv.server (h : Inv e x s) {game : Game.State S} {connected : Bool}
    (hsame : connected=true → s.connected=true ∧ game.sessions x=s.game.sessions x) :
    Inv e x { s with game, connected } := by
  have hlive : Live { s with game, connected } → s.Live ∧ game.sessions x=s.game.sessions x :=
    fun hl => ⟨⟨hl.client,(hsame hl.server).1,hl.noLogout⟩,(hsame hl.server).2⟩
  refine ⟨h.pipe,h.proper,h.valid,h.replies,h.received,?_,?_⟩
  · intro hl
    obtain ⟨hl,hx⟩ := hlive hl
    simp only [hx]
    exact h.shape hl
  · intro hl
    obtain ⟨hl,hx⟩ := hlive hl
    simp only [carriers,inTransit,hx]
    exact h.agree hl

/-- A reply that answers no request. -/
theorem Inv.push (h : Inv e x s) {r : Reply} (hr : r≠.serverFull) (hc : r.carrier=[]) :
    Inv e x { s with toClient := s.toClient++[r] } := by
  refine ⟨h.pipe,h.proper,h.valid,?_,h.received,?_,?_⟩
  · intro hm
    rcases List.mem_append.mp hm with hm|hm
    · exact h.replies hm
    · exact hr (List.mem_singleton.mp hm).symm
  · exact fun hl => h.shape ⟨hl.client,hl.server,hl.noLogout⟩
  · intro hl
    have hagree := h.agree ⟨hl.client,hl.server,hl.noLogout⟩
    simp only [carriers,inTransit,List.flatMap_append,List.flatMap_singleton,hc,List.append_nil]
    exact hagree

/-- A step of a foreign session does not change the record of this one. -/
theorem step_foreign {c : Codec} {g g' : Game.State S} {a : Game.Action S}
    (hf : isForeign x true a=true) (h : Game.step c g a=some g') :
    g'.sessions x=g.sessions x := by
  have hne : ∀ y, decide (y≠x)=true → x≠y := fun y hy => (of_decide_eq_true hy).symm
  cases a with
  | connect y =>
    cases h
    simp [Game.State.connect,Game.State.setSession,hne y hf]
  | countConnect y =>
    cases h
    rfl
  | addSession y =>
    obtain ⟨r,-,rfl⟩ := Option.map_eq_some_iff.mp h
    rfl
  | handle y pkt =>
    simp only [Game.step] at h
    split at h <;> cases h
    simp [Game.State.startHandler,Game.State.setSession,hne y hf]
  | cleanup y =>
    simp only [Game.step] at h
    split at h <;> cases h
    have hy : x≠y := hne y (by simpa [isForeign] using hf)
    simp [Game.State.startCleanup,Game.State.setSession,hy]
  | advance y =>
    simp only [Game.step] at h
    split at h <;> cases h
    exact Game.advance_sessions_of_ne c g (hne y hf) _ _

/-- The next message is handled. -/
theorem Inv.dispatch (h : Inv e x s) (hidle : (s.game.sessions x).todo=[]) {b : Message}
    (hb : s.client.core.accepted[s.received]?=some b) {game : Game.State S}
    (hgame : s.connected=true → (∃ pkt, b=.request pkt ∧ game=s.game.startHandler x pkt) ∨
      b=.other ∧ game=s.game) :
    Inv e x { s with received := s.received+1, game } := by
  obtain ⟨hlt,hget⟩ := List.getElem?_eq_some_iff.mp hb
  have hdrop : s.client.core.accepted.drop s.received=b::s.client.core.accepted.drop (s.received+1) := by
    rw [← hget]
    exact List.drop_eq_getElem_cons hlt
  have hmem : b∈s.client.core.accepted := hget ▸ List.getElem_mem hlt
  have hlive : Live { s with received := s.received+1, game } → s.Live :=
    fun hl => ⟨hl.client,hl.server,hl.noLogout⟩
  -- what the handler has to do, and the agreement, under the connection
  have hmain : Live { s with received := s.received+1, game } →
      (∃ kind, Shape kind (game.sessions x).todo) ∧ Agree s.client.core.belief (standing (game.sessions x))
        (carriers x { s with received := s.received+1, game }) := by
    intro hl
    have hagree := h.agree (hlive hl)
    rw [carriers,inTransit,hdrop,List.flatMap_cons,hidle,← Multiset.coe_add] at hagree
    rcases hgame hl.server with ⟨pkt,rfl,rfl⟩|⟨rfl,rfl⟩
    · obtain ⟨hshape,hnew⟩ := handle_agree s.game x (b:=s.client.core.belief)
        (inFrames (Pool.pending s.client.calls)+
          (((s.client.core.accepted.drop (s.received+1)).flatMap Message.carrier : List _) : Multiset _)+
          ((s.toClient.flatMap Reply.carrier : List _) : Multiset _)) hidle (h.valid _ hmem)
        (fun idx hlog => hl.noLogout idx (hlog ▸ hmem)) (by
          simp only [put_eq]
          convert hagree using 1
          simp only [List.flatMap_nil,Multiset.coe_nil,Message.carrier]
          abel)
      refine ⟨hshape,?_⟩
      rw [put_eq] at hnew
      convert hnew using 1
      simp only [carriers,inTransit]
      abel
    · refine ⟨by rw [hidle]; exact ⟨_,.idle⟩,?_⟩
      simp only [carriers,inTransit,hidle]
      convert hagree using 1
      simp only [Message.carrier,Multiset.coe_nil]
      abel
  exact ⟨h.pipe,h.proper,h.valid,h.replies,hlt,fun hl => (hmain hl).1,fun hl => (hmain hl).2⟩

/-- The handler of the server's session goes on. -/
theorem Inv.advance (h : Inv e x s) {op : Op} {rest : List Op}
    (htodo : (s.game.sessions x).todo=op::rest) :
    Inv e x (s.answer (Game.advance e.codec s.game x op rest).1
      (Game.advance e.codec s.game x op rest).2) := by
  have hself := Game.advance_sessions_self e.codec s.game x op rest
  have hmain : s.Live → (∃ kind, Shape kind ((Game.exec e.codec s.game x op).2.1++rest)) ∧
      (Game.exec e.codec s.game x op).2.2≠some .disconnect ∧
      Agree s.client.core.belief (standing ((Game.advance e.codec s.game x op rest).1.sessions x))
        (inFrames (Pool.pending s.client.calls)+
          ((((s.client.core.accepted.drop s.received).flatMap Message.carrier : List _) : Multiset _)+
          ((((Game.exec e.codec s.game x op).2.1++rest).flatMap opCarrier : List _) : Multiset _)+
          ((s.toClient.flatMap Reply.carrier++sent (Game.exec e.codec s.game x op).2.2 : List _) :
            Multiset _))) := by
    intro hl
    have hagree := h.agree hl
    obtain ⟨kind,hshape⟩ := h.shape hl
    rw [htodo] at hshape
    rw [carriers,inTransit,htodo] at hagree
    obtain ⟨hshape',hout,hnew⟩ := advance_agree e.codec s.game x (b:=s.client.core.belief)
      (inFrames (Pool.pending s.client.calls)+
        (((s.client.core.accepted.drop s.received).flatMap Message.carrier : List _) : Multiset _)+
        ((s.toClient.flatMap Reply.carrier : List _) : Multiset _)) htodo hshape (by
        rw [put_eq]
        convert hagree using 1
        abel)
    refine ⟨hshape',hout,?_⟩
    simp only [put_eq] at hnew
    rw [← Multiset.coe_add]
    convert hnew using 1
    abel
  have htodo' : ((Game.advance e.codec s.game x op rest).1.sessions x).todo=
      (Game.exec e.codec s.game x op).2.1++rest := by rw [hself]
  rw [show (Game.advance e.codec s.game x op rest).2=(Game.exec e.codec s.game x op).2.2 from rfl]
  cases hout : (Game.exec e.codec s.game x op).2.2 with
  | none =>
    refine ⟨h.pipe,h.proper,h.valid,h.replies,h.received,?_,?_⟩ <;> intro hl <;>
      obtain ⟨hshape,-,hagree⟩ := hmain ⟨hl.client,hl.server,hl.noLogout⟩
    · simp only [answer,htodo']
      exact hshape
    · simp only [answer,carriers,inTransit,htodo']
      rw [hout] at hagree
      simp only [sent,List.append_nil] at hagree
      exact hagree
  | some out => cases out with
    | send pkt =>
      refine ⟨h.pipe,h.proper,h.valid,?_,h.received,?_,?_⟩
      · intro hm
        rcases List.mem_append.mp hm with hm|hm
        · exact h.replies hm
        · exact absurd (List.mem_singleton.mp hm) nofun
      · intro hl
        obtain ⟨hshape,-⟩ := hmain ⟨hl.client,hl.server,hl.noLogout⟩
        simp only [answer,htodo']
        exact hshape
      · intro hl
        obtain ⟨-,-,hagree⟩ := hmain ⟨hl.client,hl.server,hl.noLogout⟩
        have hreply : (s.toClient++[Reply.ack pkt]).flatMap Reply.carrier=
            s.toClient.flatMap Reply.carrier++ackCarrier pkt := by
          rw [List.flatMap_append,List.flatMap_singleton]
          rfl
        simp only [answer,carriers,inTransit,htodo',hreply]
        rw [hout] at hagree
        exact hagree
    | disconnect =>
      refine ⟨h.pipe,h.proper,h.valid,h.replies,h.received,?_,?_⟩ <;> intro hl <;> cases hl.server
    | errorLog text =>
      refine ⟨h.pipe,h.proper,h.valid,h.replies,h.received,?_,?_⟩ <;> intro hl <;>
        obtain ⟨hshape,-,hagree⟩ := hmain ⟨hl.client,hl.server,hl.noLogout⟩
      · simp only [answer,htodo']
        exact hshape
      · simp only [answer,carriers,inTransit,htodo']
        rw [hout] at hagree
        simp only [sent,List.append_nil] at hagree
        exact hagree

section Step

variable {codec : Codec} {sendBuffer : Message → SendBuffer} {fits : Request → Bool}

/-- A thread of the client goes on. -/
theorem Inv.run (h : Inv (messageEnv codec sendBuffer fits) x s) {client' : State T Message}
    {toClient' : List Reply} {o : Choice} {f : Frame Message} {fs : List (Frame Message)}
    {m : Multiset (Frame Message)}
    (hx : exec (messageEnv codec sendBuffer fits) s.client.core o f=some (client'.core,fs))
    (hm : Pool.pending s.client.calls=f::ₘm) (hm' : Pool.pending client'.calls=fs+m)
    (ho : o.recv≠.reply .serverFull) (hsub : ∀ r∈toClient', r∈s.toClient)
    (hgot : s.toClient.flatMap Reply.carrier=taken o f++toClient'.flatMap Reply.carrier) :
    Inv (messageEnv codec sendBuffer fits) x { s with client := client', toClient := toClient' } := by
  have hf := h.proper f (hm ▸ Multiset.mem_cons_self f m)
  refine h.client f.carrier _ ?_ ?_ (exec_onward hf hx) hsub (by rw [hm,inFrames_cons]) hm' hgot ?_
  · rw [hm']
    exact exec_inv (hm ▸ h.pipe) hx
  · rw [hm']
    intro g hg
    rcases Multiset.mem_add.mp hg with hg|hg
    · exact exec_proper hf ho hx g (Multiset.mem_coe.mp hg)
    · exact h.proper g (hm ▸ Multiset.mem_cons_of_mem hg)
  · intro hlive v cs hag
    exact exec_agree (hm ▸ h.pipe) hf ho hx hlive hag

theorem Inv.step {a : Action T S} (h : Inv (messageEnv codec sendBuffer fits) x s)
    (hs : step (messageEnv codec sendBuffer fits) x s a=some s') :
    Inv (messageEnv codec sendBuffer fits) x s' := by
  cases a with
  | client a =>
    simp only [Dialogue.step] at hs
    split at hs
    · rename_i hown
      obtain ⟨client',hc,rfl⟩ := Option.map_eq_some_iff.mp hs
      rcases Pool.step_cases hc with ⟨t,o,f,fs,m,rfl,-,hx,hm,hm'⟩|⟨t,en,fs,rfl,hx,hm'⟩
      · have ho : ∀ r, o.recv≠.reply r := by
          rintro r hr
          obtain ⟨ok,recv⟩ := o
          cases hr
          cases hown
        have htaken : taken o f=[] := by
          unfold taken
          split
          · split
            · rename_i hr
              exact absurd hr (ho _)
            · rfl
          · rfl
        exact h.run hx hm hm' (ho _) (fun _ hr => hr) (by rw [htaken]; rfl)
      · refine h.client [] [] ?_ ?_ (enter_onward hx) (fun _ hr => hr) rfl hm' rfl
          (fun _ _ _ hag => enter_agree hx hag)
        · rw [hm']
          exact enter_inv h.pipe hx
        · rw [hm']
          intro g hg
          rcases Multiset.mem_add.mp hg with hg|hg
          · refine enter_proper ?_ hx g (Multiset.mem_coe.mp hg)
            rintro pkt rfl
            cases hown
          · exact h.proper g hg
    · cases hs
  | readReply t =>
    simp only [Dialogue.step] at hs
    split at hs
    · rename_i r rest calls hto hcalls
      obtain ⟨client',hc,rfl⟩ := Option.map_eq_some_iff.mp hs
      have hr : r≠.serverFull := fun hr => h.replies (by rw [hto,hr]; exact List.mem_cons_self)
      rcases Pool.step_cases hc with ⟨t',o,f,fs,m,ha,hhead,hx,hm,hm'⟩|⟨t',en,fs,ha,-⟩
      · cases ha
        rw [hcalls] at hhead
        cases hhead
        refine h.run (o:=⟨true,.reply r⟩) (f:=.onRecv) hx hm hm' (fun he => hr (by cases he; rfl)) ?_ ?_
        · intro q hq
          rw [hto]
          exact List.mem_cons_of_mem r hq
        · rw [hto]
          rfl
      · cases ha
    · cases hs
  | dispatch =>
    simp only [Dialogue.step] at hs
    split at hs
    · rename_i hidle
      split at hs
      · cases hs
      · rename_i pkt hb
        cases hs
        exact h.dispatch hidle hb fun hon => Or.inl ⟨pkt,rfl,if_pos hon⟩
      · rename_i hb
        cases hs
        exact h.dispatch hidle hb fun _ => Or.inr ⟨rfl,rfl⟩
    · cases hs
  | advance =>
    simp only [Dialogue.step] at hs
    split at hs
    · cases hs
    · rename_i op rest htodo
      cases hs
      exact h.advance htodo
  | ping tick =>
    cases hs
    exact h.push nofun rfl
  | notify =>
    cases hs
    exact h.push nofun rfl
  | serverDisconnect =>
    cases hs
    exact h.server nofun
  | game a =>
    simp only [Dialogue.step] at hs
    split at hs
    · rename_i hf
      obtain ⟨g,hg,rfl⟩ := Option.map_eq_some_iff.mp hs
      exact h.server fun hon => ⟨hon,step_foreign (hon ▸ hf) hg⟩
    · cases hs

theorem reaches_inv {maxSessionCount : Int} {botIndex : UInt32}
    (h : Reaches (step (messageEnv codec sendBuffer fits) x) Any (init x maxSessionCount botIndex) s) :
    Inv (messageEnv codec sendBuffer fits) x s :=
  h.invariant (inv_init _ x maxSessionCount botIndex) fun _ _ _ hi _ hs => hi.step hs

end Step

/-- The answers that threads of the client are taking over. -/
def completing : Frame Message → List Carrier
  | .send _ _ => []
  | f => f.carrier

/-- The messages for requests: under way to the server, in its handler, under way to the client, or
being taken over. -/
def messages (x : S) (s : Dialogue T S) : Multiset Carrier :=
  (Pool.pending s.client.calls).bind (fun f => completing f)+s.inTransit x

theorem completing_of_not_send {k : After} {m : Multiset (Frame Message)}
    (h : ∀ b, .send b k∉m) :
    number k (inFrames m)=number k (m.bind fun f => (completing f : Multiset Carrier)) := by
  induction m using Multiset.induction with
  | empty => rfl
  | cons f m ih =>
    have hm := ih fun b hb => h b (Multiset.mem_cons_of_mem hb)
    have hf : number k (f.carrier : Multiset Carrier)=number k (completing f : Multiset Carrier) := by
      cases f with
      | send b kind =>
        have hk : k≠kind := fun hk => h b (hk ▸ Multiset.mem_cons_self _ m)
        have hnone : ∀ q∈(Frame.send b kind).carrier, q.kind≠k := by
          intro q hq
          cases kind with
          | nothing => cases hq
          | _ =>
            rw [List.mem_singleton.mp hq]
            exact hk.symm
        exact number_eq_zero.mpr hnone
      | _ => rfl
    simp only [number,inFrames,Multiset.cons_bind,Multiset.countP_add] at hm hf ⊢
    rw [hm,hf]

end Dialogue

/-- While both ends are connected and no `REQ_LOGOUT` was sent: what is not pending is the same on
both sides, a pending request whose `send` is over has exactly one message, and a login request finds
the session of the server not logged in. -/
theorem client_and_server_agree {S T : Type} [DecidableEq S] [Fintype T] [DecidableEq T]
    (codec : Codec) (sendBuffer : Message → SendBuffer) (fits : Request → Bool) (x : S)
    (maxSessionCount : Int) (botIndex : UInt32) (s : Dialogue T S)
    (h : Reaches (Dialogue.step (messageEnv codec sendBuffer fits) x) Any
      (Dialogue.init x maxSessionCount botIndex) s)
    (hclient : s.client.core.isConnect=true) (hserver : s.connected=true)
    (hlogout : ∀ idx, .request (.logout idx)∉s.client.core.accepted) :
    (s.client.core.loginPending=false →
      s.client.core.isLogin=(s.game.sessions x).isLogin ∧
      s.client.core.accountIdx=(s.game.sessions x).accountIdx) ∧
    (s.client.core.roomRequest=.none → s.client.core.roomId=(s.game.sessions x).enterRoomId) ∧
    (∀ k≠.nothing, s.client.core.belief.pending k=1 → (∀ t b, .send b k∉s.client.calls t) →
      number k (s.messages x)=1) ∧
    (∀ bot pkt, (s.game.sessions x).todo=[] →
      s.client.core.accepted[s.received]?=some (.request (.login bot pkt)) →
      (s.game.sessions x).isLogin=false) := by
  have hi := Dialogue.reaches_inv h
  have hlive : s.Live := ⟨hi.pipe.once hclient,hserver,hlogout⟩
  have hagree := hi.agree hlive
  obtain ⟨kind,hshape⟩ := hi.shape hlive
  have htransit : ∀ k, number k (s.carriers x)=0 → kind≠.nothing → kind≠k := by
    rintro k hzero hk rfl
    obtain ⟨q,hq,hqk⟩ := hshape.carries hk
    refine number_eq_zero.mp hzero q ?_ hqk
    simp only [Dialogue.carriers,Dialogue.inTransit,Multiset.mem_add,Multiset.mem_coe]
    exact Or.inr (Or.inl (Or.inr hq))
  have hsettled := hshape.settles
    ⟨(s.game.sessions x).isLogin,(s.game.sessions x).accountIdx,(s.game.sessions x).enterRoomId⟩
  refine ⟨?_,?_,?_,?_⟩
  · intro hidle
    have hzero : number .login (s.carriers x)=0 := by
      rw [hagree.count .login (by simp)]
      simp [Belief.pending,TestSession.belief,hidle]
    have hk : kind≠.login := by
      by_cases hn : kind=.nothing
      · rw [hn]
        simp
      · exact htransit .login hzero hn
    obtain ⟨hl,ha⟩ := hagree.login hidle
    exact ⟨hl.trans (hsettled.1 hk).1,ha.trans (hsettled.1 hk).2⟩
  · intro hidle
    have hzero : ∀ k, k=.enterRoom ∨ k=.exitRoom → number k (s.carriers x)=0 := by
      rintro k (rfl|rfl)
      · rw [hagree.count .enterRoom (by simp)]
        simp [Belief.pending,TestSession.belief,hidle]
      · rw [hagree.count .exitRoom (by simp)]
        simp [Belief.pending,TestSession.belief,hidle]
    have hk : kind≠.enterRoom ∧ kind≠.exitRoom := by
      by_cases hn : kind=.nothing
      · rw [hn]
        exact ⟨by simp,by simp⟩
      · exact ⟨htransit _ (hzero _ (Or.inl rfl)) hn,htransit _ (hzero _ (Or.inr rfl)) hn⟩
    exact (hagree.room hidle).trans (hsettled.2 hk.1 hk.2)
  · intro k hk hpending hsend
    have hone : number k (s.carriers x)=1 := (hagree.count k hk).trans hpending
    rw [← hone]
    have hframes := Dialogue.completing_of_not_send (k:=k) (m:=Pool.pending s.client.calls) (by
      intro b hb
      obtain ⟨t,ht⟩ := Pool.mem_pending.mp hb
      exact hsend t b ht)
    simp only [number,Dialogue.messages,Dialogue.carriers,Multiset.countP_add] at hframes ⊢
    rw [hframes]
  · intro bot pkt hidle hnext
    obtain ⟨hlt,hget⟩ := List.getElem?_eq_some_iff.mp hnext
    have hq : .ask .login∈s.carriers x := by
      simp only [Dialogue.carriers,Dialogue.inTransit,Multiset.mem_add,Multiset.mem_coe]
      refine Or.inr (Or.inl (Or.inl ?_))
      rw [List.drop_eq_getElem_cons hlt,hget]
      exact List.mem_cons_self
    have hsays := (hagree.agrees _ hq).1
    rw [standing,hidle] at hsays
    exact hsays

def Message.isLogout : Message → Bool
  | .request (.logout _) => true
  | _ => false

/-- A client that has logged in and whose request to enter room 3 is under way. -/
theorem client_and_server_agree_entering :
    ∃ s : Dialogue Unit Unit,
      Reaches (Dialogue.step (messageEnv Game.ascii (fun _ => .copyData [1]) fun _ => true) ()) Any
        (Dialogue.init () 10 0) s ∧
      s.client.core.isLogin=true ∧ s.client.core.accountIdx=1 ∧
      (s.game.sessions ()).isLogin=true ∧ (s.game.sessions ()).accountIdx=1 ∧
      s.client.core.roomRequest=.enter ∧ number .enterRoom (s.messages ())=1 := by
  let e := messageEnv Game.ascii (fun _ => .copyData [1]) fun _ => true
  let run : Dialogue.Action Unit Unit := .client (.run () ⟨true,.wait⟩)
  have hrun : (runActions (Dialogue.step e ()) (Dialogue.init () 10 0 : Dialogue Unit Unit)
      ([.client (.enter () (.connect true)),.client (.enter () .start),run,run,run,
        .client (.enter () (.login true [105] [112] [110])),run,run,run,.dispatch]++
       List.replicate 8 .advance++
       [.client (.enter () (.recvCompleted 1)),run,.readReply (),run,run,run,run,
        .client (.enter () (.sendEnterRoom 3)),run,run])).map
      (fun s => ((s.client.calls ()).length,s.client.core.accountIdx,
        [s.client.core.isConnect,s.connected,s.client.core.isLogin,!s.client.core.loginPending,
         decide (s.client.core.roomRequest=.enter),
         s.client.core.accepted.all fun b => b.isLogout=false]))=
      some (0,1,[true,true,true,true,true,true]) := by decide +kernel
  obtain ⟨s,hs,hfields⟩ := Option.map_eq_some_iff.mp hrun
  simp only [Prod.mk.injEq,List.length_eq_zero_iff,List.cons.injEq,Bool.not_eq_true',
    decide_eq_true_eq,List.all_eq_true,and_true] at hfields
  obtain ⟨hcalls,hidx,hclient,hserver,hlogin,hidle,hroom,haccepted⟩ := hfields
  have hreach : Reaches (Dialogue.step e ()) Any _ s :=
    Reaches.of_runActions (fun _ _ => trivial) _ hs
  have hlogout : ∀ idx, .request (.logout idx)∉s.client.core.accepted := fun idx hm =>
    absurd (haccepted _ hm) nofun
  obtain ⟨hagree,-,hone,-⟩ := client_and_server_agree Game.ascii (fun _ => .copyData [1])
    (fun _ => true) () 10 0 s hreach hclient hserver hlogout
  obtain ⟨hl,ha⟩ := hagree hidle
  refine ⟨s,hreach,hlogin,hidx,hl.symm.trans hlogin,ha.symm.trans hidx,hroom,?_⟩
  refine hone .enterRoom nofun (by simp [Belief.pending,TestSession.belief,hroom]) ?_
  intro t b hb
  rw [hcalls] at hb
  cases hb

end IocpServer.TestClient
