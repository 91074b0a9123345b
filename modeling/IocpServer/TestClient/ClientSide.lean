import Mathlib.Data.Nat.Digits.Lemmas
import IocpServer.TestClient.Dialogue

namespace IocpServer.TestClient

open NetWork (SendBuffer)
open Game (Codec Utf8 Request Ack LoginRequest Op)

/-- The server's login handlers go on with the request. -/
def ValidLogin (pkt : LoginRequest) : Prop :=
  ¬(pkt.id=[] ∨ 32<pkt.id.length) ∧ ¬(pkt.pw=[] ∨ 32<pkt.pw.length) ∧
    ¬(pkt.isCreate ∧ (pkt.name=[] ∨ 32<pkt.name.length))

theorem toDecimal_length (n : Nat) (h : n<10^28) : (toDecimal n).length ≤ 28 := by
  unfold toDecimal
  split
  · decide
  · rw [List.length_reverse,List.length_map]
    exact (Nat.digits_length_le_iff (by decide) n).mpr h

/-- The names of the bots are short enough. -/
theorem testLogin_valid (index : UInt32) (isCreateHasAccount : Bool) :
    ∃ pkt, testLogin index isCreateHasAccount=.login true pkt ∧ ValidLogin pkt := by
  have hlen := toDecimal_length index.toNat (Nat.lt_trans index.toNat_lt (by decide))
  refine ⟨_,rfl,?_,?_,?_⟩
  · simp
    omega
  · simp
  · simp
    omega

theorem loginFrames_valid (e : Env Message) (isCreate : Bool) (id pw : Utf8) (name : Game.WString) :
    ∀ f∈loginFrames e isCreate id pw name, ∃ pkt, f=.beginLogin (.login false pkt) ∧ ValidLogin pkt := by
  intro f hf
  simp only [loginFrames] at hf
  split at hf
  · cases hf
  · rename_i hok
    rw [List.mem_singleton.mp hf]
    refine ⟨_,rfl,?_⟩
    simp only [not_or] at hok
    exact ⟨not_or.mpr ⟨hok.1,hok.2.1⟩,not_or.mpr ⟨hok.2.2.1,hok.2.2.2.1⟩,hok.2.2.2.2⟩

def Message.Valid : Message → Prop
  | .request (.login _ pkt) => ValidLogin pkt
  | _ => True

/-- The frames a client of this server can be in: its login requests are valid, a `send` is that of the
request it belongs to, and `ERROR_SERVER_FULL` never comes. -/
def Frame.Proper : Frame Message → Prop
  | .beginLogin pkt => ∃ bot p, pkt=.login bot p ∧ ValidLogin p
  | .send (some b) kind => b.Valid ∧ b.carrier=(Frame.send (some b) kind).carrier
  | .disconnect false after => after=.nothing
  | .setAccount _ | .setIsLogin _ => False
  | _ => True

variable {codec : Codec} {sendBuffer : Message → SendBuffer} {fits : Request → Bool}

/-- The frame of a request. -/
theorem send_proper {pkt : Request} {kind : After} (hv : (Message.request pkt).Valid)
    (hk : (Message.request pkt).carrier=(Frame.send (none : Option Message) kind).carrier) :
    (Frame.send ((messageEnv codec sendBuffer fits).makeSendBuffer pkt) kind).Proper := by
  simp only [messageEnv]
  split
  · refine ⟨hv,hk.trans ?_⟩
    cases kind <;> rfl
  · trivial

theorem handle_proper (botIndex : UInt32) {r : Reply} (hr : r≠.serverFull) :
    ∀ f∈handle (messageEnv codec sendBuffer fits) botIndex r, f.Proper := by
  intro f hf
  unfold handle at hf
  split at hf
  case h_2 =>
    rcases List.mem_cons.mp hf with rfl|hf
    · trivial
    · split at hf
      · cases hf
      · split at hf <;> rw [List.mem_singleton.mp hf]
        · obtain ⟨pkt,hpkt,hv⟩ := testLogin_valid botIndex true
          exact ⟨true,pkt,hpkt,hv⟩
        · exact rfl
  case h_7 => exact absurd rfl hr
  case h_8 => cases hf
  case h_6 =>
    rw [List.mem_singleton.mp hf]
    exact ⟨trivial,rfl⟩
  case h_3 =>
    rw [List.mem_singleton.mp hf]
    exact rfl
  all_goals
    rw [List.mem_singleton.mp hf]
    trivial

/-- The handlers of the client take over what a reply says. -/
theorem handle_carrier (e : Env Message) (botIndex : UInt32) {r : Reply} (hr : r≠.serverFull) :
    (handle e botIndex r).flatMap Frame.carrier=r.carrier := by
  unfold handle
  split
  case h_2 =>
    split
    · rfl
    · split <;> rfl
  case h_7 => exact absurd rfl hr
  all_goals rfl

theorem rollback_proper (kind : After) : ∀ f∈(rollback kind : List (Frame Message)), f.Proper := by
  cases kind <;> simp [rollback,Frame.Proper]

/-- What a step of a thread takes from the replies. -/
def taken (o : Choice) : Frame Message → List Carrier
  | .onRecv => match o.recv with
    | .reply r => r.carrier
    | _ => []
  | _ => []

theorem exec_proper {c c' : TestSession Message} {o : Choice} {f : Frame Message}
    {fs : List (Frame Message)} (hf : f.Proper) (ho : o.recv≠.reply .serverFull)
    (hx : exec (messageEnv codec sendBuffer fits) c o f=some (c',fs)) : ∀ g∈fs, g.Proper := by
  cases exec_move hx with
  | recvOff fromStart | recvFailed fromStart =>
    cases fromStart <;> simp [Frame.Proper,disconnect]
  | reply r hr =>
    intro g hg
    rcases List.mem_append.mp hg with hg|hg
    · exact handle_proper c.botIndex (fun he => ho (he ▸ hr)) g hg
    · rw [List.mem_singleton.mp hg]
      trivial
  | beginLogin pkt =>
    obtain ⟨bot,p,rfl,hv⟩ := hf
    intro g hg
    rw [List.mem_singleton.mp hg]
    exact send_proper hv rfl
  | sendEnterRoom | sendExitRoom | logout =>
    intro g hg
    rw [List.mem_singleton.mp hg]
    exact send_proper trivial rfl
  | unsent _ kind | sendOff kind | disconnect _ kind => exact rollback_proper kind
  | _ => simp [Frame.Proper,disconnect]

theorem Agree.rollback {b : Belief} {v : Standing} {kind : After} {sendBuffer : Option Message}
    {cs : Multiset Carrier} (h : Agree b v (put (Frame.send sendBuffer kind).carrier cs)) :
    Agree b v (put ((rollback kind : List (Frame Message)).flatMap Frame.carrier) cs) := by
  cases kind with
  | nothing => exact h
  | login =>
    have ha := h.agrees (.ask .login) (Multiset.mem_cons_self _ cs)
    exact Agree.answerLogin h rfl rfl rfl ha
  | enterRoom =>
    have ha := h.agrees (.ask .enterRoom) (Multiset.mem_cons_self _ cs)
    exact Agree.answerRoom h (Or.inl rfl) rfl rfl rfl ha
  | exitRoom =>
    have ha := h.agrees (.ask .exitRoom) (Multiset.mem_cons_self _ cs)
    exact Agree.answerRoom h (Or.inr rfl) rfl rfl rfl ha

/-- What a step of the client means for the agreement: it keeps it, with the messages it accepts, as
long as it does not end the connection. -/
def Keeps (c c' : TestSession Message) (fs : List (Frame Message)) (v : Standing)
    (cs : Multiset Carrier) : Prop :=
  ∃ msgs, c'.accepted=c.accepted++msgs ∧
    Agree c'.belief v (put (fs.flatMap Frame.carrier) (put (msgs.flatMap Message.carrier) cs))

/-- A step that neither touches the beliefs nor accepts a message. -/
theorem Keeps.quiet {c c' : TestSession Message} {fs : List (Frame Message)} {v : Standing}
    {cs : Multiset Carrier} (ha : c'.accepted=c.accepted) (hb : c'.belief=c.belief)
    (h : Agree c.belief v (put (fs.flatMap Frame.carrier) cs)) : Keeps c c' fs v cs := by
  refine ⟨[],by rw [ha,List.append_nil],?_⟩
  rw [hb]
  exact h

theorem exec_agree {c c' : TestSession Message} {o : Choice} {f : Frame Message}
    {fs : List (Frame Message)} {m : Multiset (Frame Message)} {v : Standing} {cs : Multiset Carrier}
    (hpipe : Pipe.Inv (messageEnv codec sendBuffer fits) c.toPipe (f::ₘm)) (hf : f.Proper)
    (ho : o.recv≠.reply .serverFull)
    (hx : exec (messageEnv codec sendBuffer fits) c o f=some (c',fs)) (hlive : c'.isDisconnect=false)
    (h : Agree c.belief v (put f.carrier (put (taken o f) cs))) : Keeps c c' fs v cs := by
  cases exec_move hx with
  | recvOff fromStart | recvFailed fromStart => cases fromStart <;> exact Keeps.quiet rfl rfl h
  | wait hr | refused hr =>
    simp only [taken,hr] at h
    exact Keeps.quiet rfl rfl h
  | reply r hr =>
    simp only [taken,hr] at h
    refine Keeps.quiet rfl rfl ?_
    rw [List.flatMap_append,handle_carrier _ _ (fun he => ho (he ▸ hr))]
    simp only [List.flatMap_singleton,Frame.carrier,List.append_nil]
    exact h
  | beginLogin pkt hon hout hfree =>
    exact ⟨[],(List.append_nil _).symm,h.askLogin hon hout hfree⟩
  | sendEnterRoom roomId hon hin hfree =>
    exact ⟨[],(List.append_nil _).symm,h.askRoom (Or.inl ⟨rfl,rfl⟩) hon hin hfree⟩
  | sendExitRoom hon hin hfree =>
    exact ⟨[],(List.append_nil _).symm,h.askRoom (Or.inr ⟨rfl,rfl⟩) hon hin hfree⟩
  | unsent => exact Keeps.quiet rfl rfl h.rollback
  | queued b | send b =>
    have hcarrier : [b].flatMap Message.carrier=b.carrier := List.flatMap_singleton _ _
    refine ⟨[b],rfl,?_⟩
    rw [hcarrier,hf.2]
    exact h
  | sendOff kind hoff =>
    have hdead : c.isDisconnect=true := hpipe.dead_of_off rfl hoff
    exact absurd (hdead.symm.trans hlive) nofun
  | nothing | registerSend | sendFailed =>
    obtain ⟨queue,ev,hdrain⟩ := c.drain_eq (messageEnv codec sendBuffer fits)
    rw [hdrain]
    exact Keeps.quiet rfl rfl h
  | disconnect sending after =>
    simp only [TestSession.disconnect] at hlive ⊢
    by_cases hon : c.isConnect=false
    · rw [if_pos hon] at hlive ⊢
      cases sending with
      | true =>
        rw [hpipe.dead_of_off rfl hon] at hlive
        cases hlive
      | false =>
        have hafter : after=.nothing := hf
        subst hafter
        exact Keeps.quiet rfl rfl h
    · rw [if_neg hon,if_neg (by rw [hpipe.once (Bool.not_eq_false _ ▸ hon)]; simp)] at hlive
      cases hlive
  | completeLogin success idx =>
    have hlogin : Agree c.belief v (.login success idx::ₘcs) := h
    have hon : c.isConnect=true := hlogin.on (Or.inl (hlogin.alone_login rfl).1)
    simp only [TestSession.completeLogin,if_pos hon]
    exact ⟨[],(List.append_nil _).symm,hlogin.learnLogin⟩
  | completeEnterRoom success roomId =>
    have hroom : Agree c.belief v (.enterRoom success roomId::ₘcs) := h
    have hpending := (hroom.alone_room (Or.inl rfl)).1
    have hon : c.isConnect=true := hroom.on (Or.inr hpending)
    have hr : c.roomRequest=.enter := hroom.enter_of_kind rfl
    simp only [TestSession.completeEnterRoom,hr,ne_eq,not_true_eq_false,if_false,hon,true_and]
    exact ⟨[],(List.append_nil _).symm,
      hroom.learnRoom (Or.inl rfl) (hroom.agrees _ (Multiset.mem_cons_self _ cs))⟩
  | completeExitRoom success =>
    have hroom : Agree c.belief v (.exitRoom success::ₘcs) := h
    have hpending := (hroom.alone_room (Or.inr rfl)).1
    have hon : c.isConnect=true := hroom.on (Or.inr hpending)
    have hr : c.roomRequest=.exit := hroom.exit_of_kind rfl
    simp only [TestSession.completeExitRoom,hr,ne_eq,not_true_eq_false,if_false,hon,true_and]
    exact ⟨[],(List.append_nil _).symm,
      hroom.learnRoom (Or.inr rfl) (hroom.agrees _ (Multiset.mem_cons_self _ cs))⟩
  | setAccount | setIsLogin => exact hf.elim
  | _ => exact Keeps.quiet rfl rfl h

theorem enter_agree {c c' : TestSession Message} {en : Entry Message} {fs : List (Frame Message)}
    {v : Standing} {cs : Multiset Carrier}
    (hx : enter (messageEnv codec sendBuffer fits) c en=some (c',fs))
    (h : Agree c.belief v cs) : Keeps c c' fs v cs := by
  cases en with
  | connect ok =>
    cases hx
    simp only [TestSession.connect]
    split
    · exact Keeps.quiet rfl rfl h
    · rename_i hnew
      have hoff : c.isConnect=false := Bool.eq_false_iff.mpr fun hon => hnew (Or.inl hon)
      -- a client that was not connected had nothing pending
      have hidle : ∀ hp : c.loginPending=true ∨ c.roomRequest≠.none, False := fun hp =>
        absurd ((h.on hp).symm.trans hoff) nofun
      split
      · refine ⟨[],(List.append_nil _).symm,?_⟩
        exact ⟨h.count,h.agrees,h.login,h.room,h.guest,h.notYet,h.loggedIn,fun hp => (hidle hp).elim⟩
      · exact Keeps.quiet rfl (by simp [TestSession.belief,hoff]) h
  | login isCreate id pw name =>
    cases hx
    simp only [loginFrames]
    split <;> exact Keeps.quiet rfl rfl h
  | recvCompleted n =>
    simp only [enter] at hx
    split at hx <;> cases hx
    exact Keeps.quiet rfl rfl h
  | sendCompleted index n | transmit index n =>
    simp only [enter] at hx
    split at hx
    · cases hx
    · split at hx <;> cases hx
      exact Keeps.quiet rfl rfl h
  | _ =>
    cases hx
    exact Keeps.quiet rfl rfl h

theorem enter_proper {c c' : TestSession Message} {en : Entry Message}
    {fs : List (Frame Message)} (hown : ∀ pkt, en≠.send (some (.request pkt)))
    (hx : enter (messageEnv codec sendBuffer fits) c en=some (c',fs)) : ∀ g∈fs, g.Proper := by
  cases en with
  | login isCreate id pw name =>
    cases hx
    intro g hg
    obtain ⟨pkt,rfl,hv⟩ := loginFrames_valid _ isCreate id pw name g hg
    exact ⟨false,pkt,rfl,hv⟩
  | testLogin index again =>
    cases hx
    intro g hg
    rw [List.mem_singleton.mp hg]
    obtain ⟨pkt,hpkt,hv⟩ := testLogin_valid index again
    exact ⟨true,pkt,hpkt,hv⟩
  | send b =>
    cases hx
    intro g hg
    rw [List.mem_singleton.mp hg]
    cases b with
    | none => trivial
    | some b => cases b with
      | request pkt => exact absurd rfl (hown pkt)
      | other => exact ⟨trivial,rfl⟩
  | recvCompleted n =>
    simp only [enter] at hx
    split at hx <;> cases hx
    simp [Frame.Proper]
  | sendCompleted index n | transmit index n =>
    simp only [enter] at hx
    split at hx
    · cases hx
    · split at hx <;> cases hx
      simp [Frame.Proper]
  | _ =>
    cases hx
    simp [Frame.Proper,disconnect]

/-- How the connection and the accepted messages of a client may change. -/
structure Onward (c c' : TestSession Message) : Prop where
  alive : c'.isDisconnect=false → c.isDisconnect=false
  grows : c.accepted<+:c'.accepted
  valid : ∀ b∈c'.accepted, b∈c.accepted ∨ b.Valid

theorem Onward.of_same {c c' : TestSession Message} (ha : c'.accepted=c.accepted)
    (hd : c'.isDisconnect=c.isDisconnect) : Onward c c' :=
  ⟨fun h => hd.symm.trans h,ha ▸ List.prefix_rfl,fun _ hb => Or.inl (ha ▸ hb)⟩

theorem exec_onward {e : Env Message} {c c' : TestSession Message} {o : Choice} {f : Frame Message}
    {fs : List (Frame Message)} (hf : f.Proper) (hx : exec e c o f=some (c',fs)) : Onward c c' := by
  cases exec_move hx with
  | queued | send =>
    refine ⟨id,List.prefix_append _ _,?_⟩
    intro d hd
    rcases List.mem_append.mp hd with hd|hd
    · exact Or.inl hd
    · rw [List.mem_singleton.mp hd]
      exact Or.inr hf.1
  | nothing | registerSend | sendFailed =>
    obtain ⟨queue,ev,hdrain⟩ := c.drain_eq e
    rw [hdrain]
    exact .of_same rfl rfl
  | disconnect =>
    simp only [TestSession.disconnect]
    split
    · exact .of_same rfl rfl
    · split
      · exact .of_same rfl rfl
      · exact ⟨nofun,List.prefix_rfl,fun _ => Or.inl⟩
  | completeLogin | completeEnterRoom | completeExitRoom =>
    obtain ⟨hpipe,-⟩ := exec_other rfl hx
    exact .of_same (congrArg Pipe.accepted hpipe) (congrArg Pipe.isDisconnect hpipe)
  | _ => exact .of_same rfl rfl

theorem enter_onward {e : Env Message} {c c' : TestSession Message} {en : Entry Message}
    {fs : List (Frame Message)} (hx : enter e c en=some (c',fs)) : Onward c c' := by
  cases en with
  | connect ok =>
    cases hx
    simp only [TestSession.connect]
    split
    · exact .of_same rfl rfl
    · split <;> exact .of_same rfl rfl
  | recvCompleted n =>
    simp only [enter] at hx
    split at hx <;> cases hx
    exact .of_same rfl rfl
  | sendCompleted index n | transmit index n =>
    simp only [enter] at hx
    split at hx
    · cases hx
    · split at hx <;> cases hx
      exact .of_same rfl rfl
  | _ =>
    cases hx
    exact .of_same rfl rfl

end IocpServer.TestClient
