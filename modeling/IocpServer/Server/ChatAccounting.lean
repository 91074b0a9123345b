import IocpServer.Framework.Threads
import IocpServer.Server.Chat

set_option linter.unusedSectionVars false

namespace IocpServer.Server.Chat

open NetWork (SendBuffer)
open NetWork.Lifecycle
open NetWork.SendPipeline (maxSendQueueSize)

variable {T S : Type}

/-- The sessions the handler has selected so far. -/
def At.count : At S → Nat
  | .normalSend _ _ count | .allVisit _ _ count | .allRoom _ _ _ count => count
  | .broadcastPacket count | .broadcastTarget count | .recvChat count => count
  | .reply ack | .replying ack => ack.targetCount
  | _ => 0

/-- The sessions that were found connected and will be sent to. -/
def At.targets : At S → List S
  | .normalVisit _ targets _ | .normalSend targets _ _ => targets
  | .normalRoom y _ targets _ => targets++[y]
  | .allRoom y _ _ _ => [y]
  | _ => []

/-- What the handler has added to `broadcast_target` and not reported. -/
def At.unreported : At S → Nat
  | .recvChat count => count
  | .reply ack | .replying ack => ack.targetCount
  | _ => 0

/-- A reply that reports no success reports no targets. -/
def AckChat.Honest (ack : AckChat) : Prop := ack.result≠.success → ack.targetCount=0

def At.Honest : At S → Prop
  | .reply ack | .replying ack => ack.Honest
  | _ => True

/-- The handler has not called `send` for its reply. -/
def At.isOpen : At S → Bool
  | .replying _ | .replied => false
  | _ => true

/-- The handler waits for nothing: every selected session has queued the message, and a reply that was
sent is queued. -/
def Call.Settled (c : Call S) : Prop :=
  match c.pc with
  | .replying _ => False
  | .replied => True
  | pc => c.record.enqueued=pc.count

/-- The handler is in a call of `send` that has not queued its buffer. -/
def Call.Sending (c : Call S) : Prop :=
  match c.pc with
  | .replying ack => c.record.enqueued=ack.targetCount
  | .replied => False
  | pc => c.record.enqueued+1=pc.count

/-- A point of `send` before the queue. -/
def submits : Frame Packet → Bool
  | .pipe (.send _) | .pipe (.enqueue _) => true
  | _ => false

/-- A point of `send` behind the queue, or of `disconnect`. -/
def trails : Frame Packet → Bool
  | .pipe pc =>
    match pc with
    | .send _ | .enqueue _ => false
    | _ => true
  | .queueCleanup => true
  | _ => false

/-- What is known of a chat handler and of the calls of its thread. -/
structure Carried (s : Server.State T S) (c : Call S) (calls : List (S×Frame Packet)) : Prop where
  connected : s.isConnected c.session
  ready : ∀ y∈c.pc.targets, s.isConnected y
  honest : c.pc.Honest
  stack : (∃ rest, calls=(c.session,.body false)::rest ∧ c.Settled) ∨
    ∃ y f rest, calls=(y,f)::(c.session,.body false)::rest ∧
      (submits f ∧ s.isConnected y ∧ c.Sending ∨ trails f ∧ c.Settled)

/-- The step clears no `_is_connect`, and no send finds a full queue. -/
def Calm [DecidableEq T] [DecidableEq S] (e : Env) (s : State T S) (a : Action T S) : Prop :=
  (∀ s', step e s a=some s' → ∀ x, s.server.isConnected x → s'.server.isConnected x) ∧
  ∀ t ok recv x b rest, a=.server (.run t ok recv) →
    s.server.calls t=(x,.pipe (.enqueue b))::rest → s.server.isConnected x →
    (s.server.cores x).pipe.sendQueue.length < maxSendQueueSize

section Calls

variable {c c' : Core Packet} {o : Choice Packet} {fs : List (Frame Packet)}

theorem advance_trails {p p' : NetWork.SendPipeline.Session} {ok : Bool}
    {pc pc' : NetWork.SendPipeline.At} (h : NetWork.SendPipeline.advance p ok pc=some (p',pc'))
    (hpc : trails (.pipe pc)) : trails (.pipe pc') := by
  cases NetWork.SendPipeline.advance_move h with
  | sendOff | send | enqueueOff | overflow | accept => cases hpc
  | nothing | whole => split <;> rfl
  | _ => rfl

/-- Behind the queue a send stays there until it returns. -/
theorem exec_trails {f : Frame Packet} (hx : exec c o f=some (c',fs)) (hf : trails f) :
    fs=[] ∨ ∃ f', fs=[f'] ∧ trails f' := by
  cases exec_move hx with
  | pipe ok pc p pc' ha =>
    have hpc' := advance_trails ha hf
    cases pc' with
    | idle =>
      simp only [pipeNext]
      split
      · exact Or.inr ⟨_,rfl,rfl⟩
      · exact Or.inl rfl
    | _ => exact Or.inr ⟨_,rfl,hpc'⟩
  | queueCleanup => exact Or.inl rfl
  | _ => cases hf

theorem exec_send {b : SendBuffer} (hx : exec c o (.pipe (.send b))=some (c',fs))
    (hcon : c.pipe.isConnect) : fs=[.pipe (.enqueue b)] := by
  simp only [exec,NetWork.SendPipeline.advance,hcon,if_true,Option.map_some] at hx
  cases hx
  rfl

/-- A connected session with room in its queue takes the buffer. -/
theorem exec_enqueue {b : SendBuffer} (hx : exec c o (.pipe (.enqueue b))=some (c',fs))
    (hcon : c.pipe.isConnect) (hroom : c.pipe.sendQueue.length < maxSendQueueSize) :
    c'.pipe.accepted=c.pipe.accepted++[b] ∧ (fs=[] ∨ ∃ f', fs=[f'] ∧ trails f') := by
  simp only [exec,NetWork.SendPipeline.advance,hcon,Bool.true_eq_false,if_false,
    if_neg (Nat.not_le.mpr hroom),Option.map_some] at hx
  cases hx
  refine ⟨rfl,?_⟩
  cases c.pipe.isSendRegister with
  | true => exact Or.inl rfl
  | false => exact Or.inr ⟨_,rfl,rfl⟩

end Calls

theorem settled_iff {c : Call S} (h : c.pc.isOpen) : c.Settled ↔ c.record.enqueued=c.pc.count := by
  obtain ⟨session,pkt,pc,record⟩ := c
  cases pc with
  | replying | replied => cases h
  | _ => exact Iff.rfl

theorem sending_iff {c : Call S} (h : c.pc.isOpen) :
    c.Sending ↔ c.record.enqueued+1=c.pc.count := by
  obtain ⟨session,pkt,pc,record⟩ := c
  cases pc with
  | replying | replied => cases h
  | _ => exact Iff.rfl

section Handler

variable [DecidableEq S] {e : Env} {s : Server.State T S} {o : Outcome S} {x : S} {pkt : ReqChat}
  {pc pc' : At S}

theorem handleReqChat_pass {service : Bool}
    (h : handleReqChat e s service x pkt=(pc',none)) :
    pc'.count=0 ∧ pc'.isOpen ∧ pc'.targets=[] ∧ pc'.unreported=0 ∧ pc'.Honest := by
  unfold handleReqChat at h
  repeat' split at h
  all_goals cases h
  all_goals exact ⟨rfl,rfl,rfl,rfl,by first | trivial | exact fun _ => rfl⟩

/-- A step of the handler without a call: what was counted is reported or still to be. -/
theorem advance_pass (ha : advance e s o x pkt pc=some (pc',none)) (hh : pc.Honest)
    (hready : ∀ y∈pc.targets, s.isConnected y) (stats : Stats) :
    pc'.count=pc.count ∧ pc'.isOpen ∧ (∀ y∈pc'.targets, s.isConnected y) ∧
      (stats.after pc).broadcastTarget+pc.unreported=stats.broadcastTarget+pc'.unreported ∧
      pc'.Honest := by
  cases pc with
  | start =>
    simp only [advance,Option.some.injEq] at ha
    obtain ⟨hcount,hopen,htargets,hun,hh'⟩ := handleReqChat_pass ha
    refine ⟨hcount,hopen,?_,?_,hh'⟩
    · rw [htargets]
      exact hready
    · rw [hun]
      rfl
  | normalVisit sessions targets b =>
    simp only [advance] at ha
    split at ha
    · cases ha
      exact ⟨rfl,rfl,hready,rfl,trivial⟩
    · split at ha <;> cases ha
      · exact ⟨rfl,rfl,hready,rfl,trivial⟩
      · rename_i y _ hcon
        refine ⟨rfl,rfl,fun z hz => ?_,rfl,trivial⟩
        rcases List.mem_append.mp hz with hz|hz
        · exact hready z hz
        · rw [List.mem_singleton.mp hz]
          simpa using hcon
  | normalRoom y rest targets b =>
    simp only [advance] at ha
    split at ha <;> cases ha
    · exact ⟨rfl,rfl,hready,rfl,trivial⟩
    · exact ⟨rfl,rfl,fun z hz => hready z (List.mem_append_left _ hz),rfl,trivial⟩
  | allVisit sessions b count =>
    simp only [advance] at ha
    split at ha
    · cases ha
      exact ⟨rfl,rfl,hready,rfl,trivial⟩
    · split at ha <;> cases ha
      · exact ⟨rfl,rfl,hready,rfl,trivial⟩
      · rename_i y _ hcon
        refine ⟨rfl,rfl,fun z hz => ?_,rfl,trivial⟩
        rw [List.mem_singleton.mp hz]
        simpa using hcon
  | findTarget b =>
    simp only [advance] at ha
    split at ha <;> cases ha
    · exact ⟨rfl,rfl,hready,rfl,trivial⟩
    · exact ⟨rfl,rfl,hready,rfl,fun _ => rfl⟩
  | recvChat count =>
    cases ha
    exact ⟨rfl,rfl,hready,rfl,fun hne => absurd rfl hne⟩
  | broadcastPacket count | broadcastTarget count =>
    cases ha
    exact ⟨rfl,rfl,hready,rfl,trivial⟩
  | _ =>
    simp only [advance] at ha
    repeat' split at ha
    all_goals cases ha
    all_goals exact ⟨rfl,rfl,fun y hy => absurd hy List.not_mem_nil,rfl,trivial⟩

/-- A call the handler makes: the disconnect of a session that is not logged in, the reply, or the
message to a connected session, which it counts. -/
theorem advance_call {y : S} {entry : Entry}
    (ha : advance e s o x pkt pc=some (pc',some (y,entry)))
    (hready : ∀ y∈pc.targets, s.isConnected y) :
    (pc=.start ∧ pc'=.leave ∧ y=x ∧ entry=.disconnect) ∨
    (∃ ack b, pc=.reply ack ∧ pc'=.replying ack ∧ y=x ∧ entry=.send b) ∨
    ∃ b, entry=.send b ∧ s.isConnected y ∧ pc.isOpen ∧ pc'.isOpen ∧ pc'.count=pc.count+1 ∧
      (∀ z∈pc'.targets, s.isConnected z) ∧ pc.unreported=0 ∧ pc'.unreported=0 ∧ pc'.Honest ∧
      ∀ stats : Stats, stats.after pc=stats := by
  cases pc with
  | start =>
    simp only [advance,Option.some.injEq] at ha
    left
    unfold handleReqChat at ha
    repeat' split at ha
    all_goals cases ha
    exact ⟨rfl,rfl,rfl,rfl⟩
  | reply ack =>
    cases ha
    exact Or.inr (Or.inl ⟨ack,_,rfl,rfl,rfl,rfl⟩)
  | normalSend targets b count =>
    simp only [advance] at ha
    split at ha <;> cases ha
    refine Or.inr (Or.inr ⟨b,rfl,hready y (by simp [At.targets]),rfl,rfl,rfl,?_,rfl,rfl,trivial,
      fun _ => rfl⟩)
    intro z hz
    exact hready z (by simpa [At.targets] using Or.inr hz)
  | allRoom z rest b count =>
    simp only [advance] at ha
    split at ha <;> cases ha
    exact Or.inr (Or.inr ⟨b,rfl,hready y (by simp [At.targets]),rfl,rfl,rfl,by simp [At.targets],rfl,
      rfl,trivial,fun _ => rfl⟩)
  | whisperSend z b =>
    simp only [advance] at ha
    split at ha <;> cases ha
    rename_i hcon
    exact Or.inr (Or.inr ⟨b,rfl,by simpa using hcon,rfl,rfl,rfl,by simp [At.targets],rfl,rfl,trivial,
      fun _ => rfl⟩)
  | _ =>
    simp only [advance] at ha
    repeat' split at ha
    all_goals cases ha

theorem isOpen_of_advance {r : At S×Option (S×Entry)} (ha : advance e s o x pkt pc=some r) :
    pc.isOpen := by
  cases pc with
  | replying | replied => cases ha
  | _ => rfl

theorem record_after (r : Record S) (s : Server.State T S) (pc : At S) :
    (r.after s pc).enqueued=r.enqueued := by
  cases pc with
  | whisperSend y b =>
    simp only [Record.after]
    split <;> rfl
  | _ => rfl

end Handler

/-- The messages of a request that has not been answered. -/
def unanswered : Option (Call S) → Nat
  | some c =>
    match c.pc with
    | .replied => 0
    | _ => c.record.enqueued
  | none => 0

def unreported : Option (Call S) → Nat
  | some c => c.pc.unreported
  | none => 0

theorem unanswered_open {c : Call S} (h : c.pc.isOpen) : unanswered (some c)=c.record.enqueued := by
  obtain ⟨session,pkt,pc,record⟩ := c
  cases pc with
  | replied => cases h
  | _ => rfl

/-- The books of the chat. -/
structure Inv [Fintype T] (s : State T S) : Prop where
  carried : ∀ t c, s.chats t=some c → Carried s.server c (s.server.calls t)
  enqueued : s.enqueued.length=
    (s.replies.map fun r => r.record.enqueued).sum+∑ t, unanswered (s.chats t)
  counted : s.stats.broadcastTarget=
    (s.replies.map fun r => r.ack.targetCount).sum+∑ t, unreported (s.chats t)
  replies : ∀ r∈s.replies, r.ack.targetCount=r.record.enqueued ∧ r.ack.Honest
  clients : s.expectedChatRecv+(s.acks.map (handleAckChat 0)).sum=
    (s.replies.map fun r => handleAckChat 0 r.ack).sum

theorem inv_init [Fintype T] (maxSessionCount : Int) :
    Inv (State.init maxSessionCount : State T S) := by
  constructor <;> simp [State.init,unanswered,unreported]

theorem Carried.mono {s s' : Server.State T S} {c : Call S} {calls : List (S×Frame Packet)}
    (h : Carried s c calls) (hcon : ∀ x, s.isConnected x → s'.isConnected x) :
    Carried s' c calls := by
  obtain ⟨hc,hr,hh,hs⟩ := h
  refine ⟨hcon _ hc,fun y hy => hcon y (hr y hy),hh,hs.imp_right ?_⟩
  rintro ⟨y,f,rest,hcalls,hf⟩
  exact ⟨y,f,rest,hcalls,hf.imp_left fun hf => ⟨hf.1,hcon y hf.2.1,hf.2.2⟩⟩

section Books

variable [DecidableEq S] [DecidableEq T] [Fintype T] {s s' : State T S}

/-- Thread `t` moves and leaves the calls of the other threads alone. -/
theorem Inv.update (h : Inv s) {t : T} {new : Option (Call S)}
    (hchats : s'.chats=Function.update s.chats t new)
    (hcalls : ∀ u, u≠t → s'.server.calls u=s.server.calls u)
    (hcon : ∀ x, s.server.isConnected x → s'.server.isConnected x)
    (hself : ∀ c, new=some c → Carried s'.server c (s'.server.calls t))
    (henq : s'.enqueued.length+(s.replies.map fun r => r.record.enqueued).sum+unanswered (s.chats t)=
      s.enqueued.length+(s'.replies.map fun r => r.record.enqueued).sum+unanswered new)
    (hcount : s'.stats.broadcastTarget+(s.replies.map fun r => r.ack.targetCount).sum+
        unreported (s.chats t)=
      s.stats.broadcastTarget+(s'.replies.map fun r => r.ack.targetCount).sum+unreported new)
    (hreplies : ∀ r∈s'.replies, r.ack.targetCount=r.record.enqueued ∧ r.ack.Honest)
    (hclients : s'.expectedChatRecv+(s'.acks.map (handleAckChat 0)).sum=
      (s'.replies.map fun r => handleAckChat 0 r.ack).sum) : Inv s' := by
  have hun := sum_update unanswered s.chats t new
  have hre := sum_update unreported s.chats t new
  have he := h.enqueued
  have hb := h.counted
  refine ⟨?_,?_,?_,hreplies,hclients⟩
  · intro u c hu
    rw [hchats] at hu
    by_cases hut : u=t
    · subst hut
      rw [Function.update_self] at hu
      exact hself c hu
    · rw [Function.update_of_ne hut] at hu
      rw [hcalls u hut]
      exact (h.carried u c hu).mono hcon
  · rw [hchats]
    omega
  · rw [hchats]
    omega

/-- The same where the thread's handler and the books stay as they are. -/
theorem Inv.server (h : Inv s) {t : T} {server : Server.State T S}
    (hcalls : ∀ u, u≠t → server.calls u=s.server.calls u)
    (hcon : ∀ x, s.server.isConnected x → server.isConnected x)
    (hself : ∀ c, s.chats t=some c → Carried server c (server.calls t)) :
    Inv { s with server } := by
  have hsame : s.chats=Function.update s.chats t (s.chats t) := (Function.update_eq_self t _).symm
  refine h.update hsame hcalls hcon hself rfl rfl h.replies h.clients

theorem calls_of_ne {e : Server.Env} {server server' : Server.State T S} {a : Server.Action T S}
    (hs : Server.step e server a=some server') {u : T} (hu : u≠threadOf a) :
    server'.calls u=server.calls u := by
  cases a with
  | run t ok recv =>
    obtain ⟨x,f,rest,c,fs,-,-,rfl⟩ := step_run hs
    exact Function.update_of_ne hu _ _
  | enter t x entry =>
    obtain ⟨c,fs,-,-,rfl⟩ := step_enter hs
    exact Function.update_of_ne hu _ _

/-- A thread that is in a session which its handler has called runs there. -/
theorem run_of_call {e : Server.Env} {server server' : Server.State T S} {a : Server.Action T S}
    (hs : Server.step e server a=some server') {y : S} {f : Frame Packet}
    {rest : List (S×Frame Packet)} (hcalls : server.calls (threadOf a)=(y,f)::rest)
    (hf : ∀ cleanup, f≠.body cleanup) :
    ∃ t ok recv c fs, a=.run t ok recv ∧
      exec (server.cores y) (server.choice e y f ok recv) f=some (c,fs) ∧
      server'.calls t=Stacks.on y fs++rest ∧ server'.cores y=c := by
  cases a with
  | run t ok recv =>
    obtain ⟨x,g,rest',c,fs,hcalls',hx,rfl⟩ := step_run hs
    simp only [threadOf] at hcalls
    rw [hcalls] at hcalls'
    cases hcalls'
    exact ⟨t,ok,recv,c,fs,rfl,hx,Function.update_self ..,Function.update_self ..⟩
  | enter t x entry =>
    obtain ⟨c,fs,hcan,-,-⟩ := step_enter hs
    simp only [threadOf] at hcalls
    rw [hcalls] at hcan
    cases entry <;> simp only [canEnter,List.isEmpty_cons] at hcan
    all_goals first
      | cases hcan
      | (split at hcan
         · rename_i heq
           cases heq
         · rename_i heq
           cases heq
           exact absurd rfl (hf _)
         · cases hcan)

/-- A send returns or goes on behind the queue. -/
theorem Carried.behind {server : Server.State T S} {c : Call S} {y : S} {fs : List (Frame Packet)}
    (hc : server.isConnected c.session) (hr : ∀ z∈c.pc.targets, server.isConnected z)
    (hh : c.pc.Honest) (hset : c.Settled) (hfs : fs=[] ∨ ∃ f', fs=[f'] ∧ trails f')
    (rest : List (S×Frame Packet)) :
    Carried server c (Stacks.on y fs++(c.session,.body false)::rest) := by
  refine ⟨hc,hr,hh,?_⟩
  rcases hfs with rfl|⟨f',rfl,hf'⟩
  · exact Or.inl ⟨rest,rfl,hset⟩
  · exact Or.inr ⟨y,f',rest,rfl,Or.inr ⟨hf',hset⟩⟩

theorem afterServer_same {t : T} {server : Server.State T S} {y : S} {f : Frame Packet}
    {rest : List (S×Frame Packet)} (hcalls : s.server.calls t=(y,f)::rest)
    (hf : ∀ b, f≠.pipe (.enqueue b)) : s.afterServer t server={ s with server } := by
  unfold State.afterServer
  split
  · rename_i hcalls'
    rw [hcalls] at hcalls'
    cases hcalls'
    exact absurd rfl (hf _)
  · rfl

/-- The queue takes what the handler of thread `t` sends. -/
theorem Inv.enqueue (h : Inv s) {t : T} {server : Server.State T S} {c : Call S} {y : S}
    {b : SendBuffer} {rest : List (S×Frame Packet)} {fs : List (Frame Packet)}
    (hchat : s.chats t=some c)
    (hcalls : s.server.calls t=(y,.pipe (.enqueue b))::(c.session,.body false)::rest)
    (hsend : c.Sending) (hacc : (server.cores y).pipe.accepted=(s.server.cores y).pipe.accepted++[b])
    (hcalls' : server.calls t=Stacks.on y fs++(c.session,.body false)::rest)
    (hfs : fs=[] ∨ ∃ f', fs=[f'] ∧ trails f')
    (hother : ∀ u, u≠t → server.calls u=s.server.calls u)
    (hcon : ∀ x, s.server.isConnected x → server.isConnected x) :
    Inv (s.afterServer t server) := by
  have hgrew : (s.server.cores y).pipe.accepted.length<(server.cores y).pipe.accepted.length := by
    rw [hacc,List.length_append]
    exact Nat.lt_succ_self _
  obtain ⟨hc,hr,hh,-⟩ := (h.carried t c hchat).mono hcon
  simp only [State.afterServer,hchat,hcalls,hgrew,if_true]
  split
  · -- the reply: its count is handed from the handler to the list of replies
    rename_i ack hpc
    have hcount : c.record.enqueued=ack.targetCount := by
      simpa only [Call.Sending,hpc] using hsend
    have hhonest : ack.Honest := by simpa only [At.Honest,hpc] using hh
    refine h.update rfl hother hcon ?_ ?_ ?_ ?_ ?_
    · rintro c' ⟨rfl⟩
      rw [hcalls']
      exact Carried.behind (c:={ c with pc := .replied }) hc (by simp [At.targets]) trivial trivial
        hfs rest
    · simp [hchat,unanswered,hpc]
      omega
    · simp [hchat,unreported,hpc,At.unreported]
      omega
    · intro r hmem
      rcases List.mem_append.mp hmem with hmem|hmem
      · exact h.replies r hmem
      · rw [List.mem_singleton.mp hmem]
        exact ⟨hcount.symm,hhonest⟩
    · have hclients := h.clients
      simp only [Multiset.map_cons,Multiset.sum_cons,List.map_append,List.map_cons,List.map_nil,
        List.sum_append,List.sum_cons,List.sum_nil]
      omega
  · -- the message: one more queue has taken it
    rename_i hpc
    have hopen : c.pc.isOpen := by
      obtain ⟨session,pkt,pc,record⟩ := c
      cases pc with
      | replying ack => exact absurd rfl (hpc ack)
      | replied => exact hsend.elim
      | _ => rfl
    have hcount := (sending_iff hopen).mp hsend
    let c' : Call S := { c with record := { c.record with enqueued := c.record.enqueued+1 } }
    have hopen' : c'.pc.isOpen := hopen
    have henq : c'.record.enqueued=c.record.enqueued+1 := rfl
    refine h.update rfl hother hcon ?_ ?_ ?_ h.replies h.clients
    · rintro _ ⟨rfl⟩
      rw [hcalls']
      exact Carried.behind (c:=c') hc hr hh ((settled_iff hopen').mpr hcount) hfs rest
    · rw [unanswered_open hopen',hchat,unanswered_open hopen]
      simp only [List.length_append,List.length_singleton]
      omega
    · rw [hchat]
      rfl

theorem Inv.afterServer {e : Env} {a : Server.Action T S} {server : Server.State T S} (h : Inv s)
    (hin : s.inHandler (threadOf a)=false) (hs : Server.step e.toEnv s.server a=some server)
    (hcon : ∀ x, s.server.isConnected x → server.isConnected x)
    (hroom : ∀ t ok recv x b rest, a=.run t ok recv →
      s.server.calls t=(x,.pipe (.enqueue b))::rest → s.server.isConnected x →
      (s.server.cores x).pipe.sendQueue.length < maxSendQueueSize) :
    Inv (s.afterServer (threadOf a) server) := by
  have hother : ∀ u, u≠threadOf a → server.calls u=s.server.calls u := fun u hu => calls_of_ne hs hu
  cases hchat : s.chats (threadOf a) with
  | none =>
    have hsame : s.afterServer (threadOf a) server={ s with server } := by
      simp only [State.afterServer,hchat]
    rw [hsame]
    apply h.server hother hcon
    intro c hc
    rw [hchat] at hc
    cases hc
  | some c =>
    obtain ⟨hc,hr,hh,hstack⟩ := h.carried _ c hchat
    rcases hstack with ⟨rest,hcalls,-⟩|⟨y,f,rest,hcalls,hf⟩
    · simp [State.inHandler,hchat,hcalls] at hin
    have hbody : ∀ cleanup, f≠.body cleanup := by
      rintro cleanup rfl
      simp [State.inHandler,hchat,hcalls] at hin
    obtain ⟨t,ok,recv,core,fs,rfl,hx,hcalls',hcore⟩ := run_of_call hs hcalls hbody
    simp only [threadOf] at hchat hcalls hother ⊢
    -- any frame but `enqueue` leaves the books alone
    have hplain : (∀ b, f≠.pipe (.enqueue b)) → Carried server c (server.calls t) →
        Inv (s.afterServer t server) := by
      intro hne hcarried
      rw [afterServer_same hcalls hne]
      apply h.server hother hcon
      intro c' hc'
      rw [hchat] at hc'
      cases hc'
      exact hcarried
    have hr' : ∀ z∈c.pc.targets, server.isConnected z := fun z hz => hcon z (hr z hz)
    rcases hf with ⟨hsub,hy,hsend⟩|⟨htrail,hset⟩
    · unfold submits at hsub
      split at hsub
      · rename_i b
        have hfs := exec_send hx hy
        apply hplain (by simp)
        rw [hcalls',hfs]
        exact ⟨hcon _ hc,hr',hh,Or.inr ⟨y,_,rest,rfl,Or.inl ⟨rfl,hcon y hy,hsend⟩⟩⟩
      · rename_i b
        obtain ⟨hacc,hfs⟩ := exec_enqueue hx hy (hroom t ok recv y b _ rfl hcalls hy)
        rw [← hcore] at hacc
        exact h.enqueue hchat hcalls hsend hacc hcalls' hfs hother hcon
      · cases hsub
    · apply hplain
      · rintro b rfl
        cases htrail
      · rw [hcalls']
        exact Carried.behind (hcon _ hc) hr' hh hset (exec_trails hx htrail) rest

/-- A handler that is to take its next step waits for nothing. -/
theorem Inv.at_body (h : Inv s) {t : T} {c : Call S} (hchat : s.chats t=some c) (hin : s.inHandler t) :
    ∃ rest, s.server.calls t=(c.session,.body false)::rest ∧ c.Settled := by
  rcases (h.carried t c hchat).stack with hbody|⟨y,f,rest,hcalls,hf⟩
  · exact hbody
  · simp only [State.inHandler,hchat,hcalls] at hin
    split at hin
    · rename_i heq
      cases heq
      rcases hf with ⟨hf,-⟩|⟨hf,-⟩ <;> cases hf
    · cases hin

theorem Inv.start (h : Inv s) {e : Env} {t : T} {pkt : ReqChat} {x : S}
    {rest : List (S×Frame Packet)} {server : Server.State T S}
    (hcalls : s.server.calls t=(x,.job (.packet .other))::rest) (hx : s.server.isConnected x)
    (hs : Server.step e.toEnv s.server (.run t true .wait)=some server)
    (hcon : ∀ x, s.server.isConnected x → server.isConnected x) :
    Inv { s with
      server, chats := Function.update s.chats t (some ⟨x,pkt,.start,⟨0,false,false,none⟩⟩) } := by
  have hnone : s.chats t=none := by
    cases hchat : s.chats t with
    | none => rfl
    | some c =>
      rcases (h.carried t c hchat).stack with ⟨_,hcalls',-⟩|⟨y,f,_,hcalls',hf⟩
      · rw [hcalls] at hcalls'
        cases hcalls'
      · rw [hcalls] at hcalls'
        cases hcalls'
        rcases hf with ⟨hf,-⟩|⟨hf,-⟩ <;> cases hf
  obtain ⟨_,ok,recv,core,fs,heq,hexec,hcalls',-⟩ := run_of_call hs hcalls (by simp)
  cases heq
  simp only [State.isConnected] at hx
  simp only [exec,hx,if_true] at hexec
  cases hexec
  refine h.update rfl (fun u hu => calls_of_ne hs hu) hcon ?_ ?_ ?_ h.replies h.clients
  · rintro _ ⟨rfl⟩
    rw [hcalls']
    exact ⟨hcon x hx,by simp [At.targets],trivial,Or.inl ⟨rest,rfl,rfl⟩⟩
  · rw [hnone]
    rfl
  · rw [hnone]
    rfl

theorem Inv.pass (h : Inv s) {e : Env} {t : T} {c : Call S} {o : Outcome S} {pc : At S}
    (hchat : s.chats t=some c) (hin : s.inHandler t)
    (ha : advance e s.server o c.session c.pkt c.pc=some (pc,none)) :
    Inv (s.proceed t c pc s.server) := by
  obtain ⟨hc,hr,hh,-⟩ := h.carried t c hchat
  obtain ⟨rest,hcalls,hset⟩ := h.at_body hchat hin
  have hopen := isOpen_of_advance ha
  obtain ⟨hcount,hopen',hr',hstats,hh'⟩ := advance_pass ha hh hr s.stats
  let c' : Call S := { c with pc, record := c.record.after s.server c.pc }
  have hpc : c'.pc.isOpen := hopen'
  have henq : c'.record.enqueued=c.record.enqueued := record_after _ _ _
  refine h.update rfl (fun _ _ => rfl) (fun _ hx => hx) ?_ ?_ ?_ h.replies h.clients
  · rintro _ ⟨rfl⟩
    have hset' : c'.Settled := by
      rw [settled_iff hpc,henq,(settled_iff hopen).mp hset]
      exact hcount.symm
    exact ⟨hc,hr',hh',Or.inl ⟨rest,hcalls,hset'⟩⟩
  · rw [unanswered_open hpc,hchat,unanswered_open hopen,henq]
    rfl
  · rw [hchat]
    simp only [State.proceed,unreported]
    omega

/-- The handler calls a session, whose first frame lies above that of the handler. -/
theorem enter_calls {e : Server.Env} {server server' : Server.State T S} {t : T} {y : S}
    {entry : Entry} (hs : Server.step e server (.enter t y entry)=some server') :
    ∃ c fs, enter (server.cores y) entry=some (c,fs) ∧
      server'.calls t=Stacks.on y fs++server.calls t := by
  obtain ⟨c,fs,-,hx,rfl⟩ := step_enter hs
  exact ⟨c,fs,hx,Function.update_self ..⟩

theorem Inv.call (h : Inv s) {e : Env} {t : T} {c : Call S} {o : Outcome S} {pc : At S} {y : S}
    {entry : Entry} {server : Server.State T S} (hchat : s.chats t=some c) (hin : s.inHandler t)
    (ha : advance e s.server o c.session c.pkt c.pc=some (pc,some (y,entry)))
    (hs : Server.step e.toEnv s.server (.enter t y entry)=some server)
    (hcon : ∀ x, s.server.isConnected x → server.isConnected x) :
    Inv (s.proceed t c pc server) := by
  obtain ⟨hc,hr,hh,-⟩ := h.carried t c hchat
  obtain ⟨rest,hcalls,hset⟩ := h.at_body hchat hin
  have hopen := isOpen_of_advance ha
  have hcount := (settled_iff hopen).mp hset
  obtain ⟨core,fs,hx,hcalls'⟩ := enter_calls hs
  rw [hcalls] at hcalls'
  let c' : Call S := { c with pc, record := c.record.after s.server c.pc }
  have henq : c'.record.enqueued=c.record.enqueued := record_after _ _ _
  refine h.update rfl (fun u hu => calls_of_ne hs hu) hcon ?_ ?_ ?_ h.replies h.clients
  · rintro _ ⟨rfl⟩
    have hstart : ∀ b, entry=.send b → server.calls t=(y,.pipe (.send b))::(c.session,.body false)::rest := by
      rintro b rfl
      cases hx
      exact hcalls'
    rcases advance_call ha hr with ⟨hpc,rfl,rfl,rfl⟩|⟨ack,b,hpc,rfl,rfl,rfl⟩|
      ⟨b,rfl,hy,-,hopen',hsel,hr',-,-,hh',-⟩
    · cases hx
      have hset' : c'.Settled := by
        rw [hpc] at hcount
        exact henq.trans hcount
      exact ⟨hcon _ hc,by simp [At.targets],trivial,
        Or.inr ⟨_,_,rest,hcalls',Or.inr ⟨rfl,hset'⟩⟩⟩
    · have hsend : c'.Sending := by
        rw [hpc] at hcount
        exact henq.trans hcount
      rw [hpc] at hh
      exact ⟨hcon _ hc,by simp [At.targets],hh,
        Or.inr ⟨_,_,rest,hstart b rfl,Or.inl ⟨rfl,hcon _ hc,hsend⟩⟩⟩
    · have hpc : c'.pc.isOpen := hopen'
      have hsend : c'.Sending := by
        rw [sending_iff hpc,henq,hcount]
        exact hsel.symm
      exact ⟨hcon _ hc,fun z hz => hcon z (hr' z hz),hh',
        Or.inr ⟨_,_,rest,hstart b rfl,Or.inl ⟨rfl,hcon y hy,hsend⟩⟩⟩
  · have hun : unanswered (some c')=c.record.enqueued := by
      rcases advance_call ha hr with ⟨-,rfl,-⟩|⟨ack,b,-,rfl,-⟩|⟨-,-,-,-,hopen',-⟩
      · exact henq
      · exact henq
      · exact (unanswered_open (c:=c') hopen').trans henq
    rw [hun,hchat,unanswered_open hopen]
    rfl
  · rw [hchat]
    simp only [State.proceed,unreported]
    rcases advance_call ha hr with ⟨hpc,rfl,-⟩|⟨ack,b,hpc,rfl,-⟩|⟨-,-,-,-,-,-,-,hun,hun',-,hstats⟩
    · rw [hpc]
      rfl
    · rw [hpc]
      rfl
    · rw [hstats,hun,hun']

theorem Inv.finish (h : Inv s) {e : Env} {t : T} {c : Call S} {server : Server.State T S}
    (hchat : s.chats t=some c) (hin : s.inHandler t) (hends : c.pc.ends)
    (hs : Server.step e.toEnv s.server (.run t true .wait)=some server)
    (hcon : ∀ x, s.server.isConnected x → server.isConnected x) :
    Inv { s with server, chats := Function.update s.chats t none } := by
  obtain ⟨-,-,hset⟩ := h.at_body hchat hin
  have hzero : unanswered (some c)=0 ∧ unreported (some c)=0 := by
    obtain ⟨session,pkt,pc,record⟩ := c
    cases pc with
    | replying ack => exact hset.elim
    | replied => exact ⟨rfl,rfl⟩
    | leave => exact ⟨hset,rfl⟩
    | _ => cases hends
  refine h.update rfl (fun u hu => calls_of_ne hs hu) hcon (by simp) ?_ ?_ h.replies h.clients
  · rw [hchat,hzero.1]
    rfl
  · rw [hchat,hzero.2]
    rfl

theorem handleAckChat_add (n : Nat) (ack : AckChat) :
    handleAckChat n ack=n+handleAckChat 0 ack := by
  unfold handleAckChat
  split
  · rw [Nat.zero_add]
  · rfl

theorem Inv.ackChat (h : Inv s) {ack : AckChat} (hack : ack∈s.acks) :
    Inv { s with
      acks := s.acks.erase ack, expectedChatRecv := handleAckChat s.expectedChatRecv ack } := by
  refine ⟨h.carried,h.enqueued,h.counted,h.replies,?_⟩
  have hclients := h.clients
  rw [← Multiset.cons_erase hack,Multiset.map_cons,Multiset.sum_cons] at hclients
  simp only
  rw [handleAckChat_add,← hclients]
  omega

theorem Inv.step {e : Env} {a : Action T S} (h : Inv s) (ha : Calm e s a)
    (hs : step e s a=some s') : Inv s' := by
  obtain ⟨hcon,hroom⟩ := ha
  have hkeep := hcon s' hs
  cases step_move hs with
  | server b server hin hs' =>
    have hserver : (s.afterServer (threadOf b) server).server=server := by
      unfold State.afterServer
      repeat' split
      all_goals rfl
    rw [hserver] at hkeep
    apply h.afterServer hin hs' hkeep
    rintro t ok recv x buffer rest rfl
    exact hroom t ok recv x buffer rest rfl
  | start t pkt x rest server hcalls hx hs' => exact h.start hcalls hx hs' hkeep
  | pass t c o pc hchat hin ha => exact h.pass hchat hin ha
  | call t c o pc x entry server hchat hin ha hs' => exact h.call hchat hin ha hs' hkeep
  | finish t c server hchat hin hends hs' => exact h.finish hchat hin hends hs' hkeep
  | ackChat ack hack => exact h.ackChat hack

theorem reaches_inv {e : Env} {maxSessionCount : Int}
    (h : Reaches (Chat.step e) (Calm e) (State.init maxSessionCount) s) : Inv s :=
  h.invariant (inv_init maxSessionCount) fun _ _ _ hi ha hs => hi.step ha hs

end Books

/-- What the handler has selected and not added to `broadcast_target`. -/
def At.uncounted : At S → Nat
  | .normalSend _ _ count | .allVisit _ _ count | .allRoom _ _ _ count => count
  | .broadcastPacket count | .broadcastTarget count => count
  | _ => 0

def uncounted : Option (Call S) → Nat
  | some c => c.pc.uncounted
  | none => 0

section Bounds

variable [DecidableEq S] [DecidableEq T] [Fintype T] {e : Env}

/-- A step of the handler selects at most one session. -/
theorem advance_uncounted {s : Server.State T S} {o : Outcome S} {x : S} {pkt : ReqChat}
    {pc pc' : At S} {call : Option (S×Entry)} (ha : advance e s o x pkt pc=some (pc',call))
    (stats : Stats) :
    (stats.after pc).broadcastTarget+pc'.uncounted ≤ stats.broadcastTarget+pc.uncounted+1 := by
  cases pc with
  | start =>
    simp only [advance,Option.some.injEq] at ha
    unfold handleReqChat at ha
    repeat' split at ha
    all_goals cases ha
    all_goals exact Nat.le_succ _
  | _ =>
    simp only [advance] at ha
    repeat' split at ha
    all_goals cases ha
    all_goals simp only [At.uncounted,Stats.after]; omega

/-- The counters of a run with `n` steps. -/
structure Counted (n : Nat) (s : State T S) : Prop where
  packet : s.stats.broadcastPacket ≤ n
  target : s.stats.broadcastTarget+∑ t, uncounted (s.chats t) ≤ n
  recv : s.stats.recvChat ≤ n

theorem Counted.update {n : Nat} {s s' : State T S} (h : Counted n s) {t : T} {new : Option (Call S)}
    (hchats : s'.chats=Function.update s.chats t new)
    (hpacket : s'.stats.broadcastPacket ≤ s.stats.broadcastPacket+1)
    (htarget : s'.stats.broadcastTarget+uncounted new ≤
      s.stats.broadcastTarget+uncounted (s.chats t)+1)
    (hrecv : s'.stats.recvChat ≤ s.stats.recvChat+1) : Counted (n+1) s' := by
  have hsum := sum_update uncounted s.chats t new
  have hbefore := h.target
  rw [← hchats] at hsum
  exact ⟨hpacket.trans (Nat.succ_le_succ h.packet),by omega,hrecv.trans (Nat.succ_le_succ h.recv)⟩

theorem Counted.proceed {n : Nat} {s : State T S} (h : Counted n s) {t : T} {c : Call S}
    {o : Outcome S} {pc : At S} {call : Option (S×Entry)} (hchat : s.chats t=some c)
    (ha : advance e s.server o c.session c.pkt c.pc=some (pc,call)) (server : Server.State T S) :
    Counted (n+1) (s.proceed t c pc server) := by
  refine h.update rfl ?_ ?_ ?_
  · simp only [State.proceed]
    cases c.pc <;> simp [Stats.after]
  · rw [hchat]
    exact advance_uncounted ha s.stats
  · simp only [State.proceed]
    cases c.pc <;> simp [Stats.after]

theorem Counted.afterServer {n : Nat} {s : State T S} (h : Counted n s) (t : T)
    (server : Server.State T S) : Counted (n+1) (s.afterServer t server) := by
  have hstay : Counted (n+1) { s with server } :=
    ⟨h.packet.trans (Nat.le_succ n),h.target.trans (Nat.le_succ n),h.recv.trans (Nat.le_succ n)⟩
  unfold State.afterServer
  split
  · rename_i c x b rest hchat hcalls
    split
    · split
      · rename_i ack hpc
        exact h.update rfl (Nat.le_succ _) (by simp [uncounted,At.uncounted]; omega) (Nat.le_succ _)
      · refine h.update rfl (Nat.le_succ _) ?_ (Nat.le_succ _)
        rw [hchat]
        exact Nat.le_succ _
    · exact hstay
  · exact hstay

theorem Counted.step {n : Nat} {s s' : State T S} {a : Action T S} (h : Counted n s)
    (hs : step e s a=some s') : Counted (n+1) s' := by
  cases step_move hs with
  | server b server hin hs' => exact h.afterServer (threadOf b) server
  | start t pkt x rest server hcalls hx hs' =>
    exact h.update rfl (Nat.le_succ _) (by simp [uncounted,At.uncounted]; omega) (Nat.le_succ _)
  | pass t c o pc hchat hin ha => exact h.proceed hchat ha s.server
  | call t c o pc x entry server hchat hin ha hs' => exact h.proceed hchat ha server
  | finish t c server hchat hin hends hs' =>
    exact h.update rfl (Nat.le_succ _) (by simp [uncounted]; omega) (Nat.le_succ _)
  | ackChat ack hack =>
    exact ⟨h.packet.trans (Nat.le_succ n),h.target.trans (Nat.le_succ n),h.recv.trans (Nat.le_succ n)⟩

/-- In a run of fewer than `2^64` steps no counter of 64 bits wraps. -/
theorem stats_fit {maxSessionCount : Int} {as : List (Action T S)} {s : State T S}
    (h : runActions (step e) (State.init maxSessionCount) as=some s) (hlen : as.length<UInt64.size) :
    s.stats.broadcastPacket<UInt64.size ∧ s.stats.broadcastTarget<UInt64.size ∧
      s.stats.recvChat<UInt64.size := by
  have hinit : Counted 0 (State.init maxSessionCount : State T S) :=
    ⟨Nat.le_refl 0,by simp [State.init,uncounted],Nat.le_refl 0⟩
  have hcounted := runActions_invariant (P:=fun n s => Counted n s)
    (fun n x a y (_ : True) hx hy => hx.step hy) (fun _ _ => trivial) hinit h
  rw [Nat.zero_add] at hcounted
  have htarget := hcounted.target
  exact ⟨Nat.lt_of_le_of_lt hcounted.packet hlen,by omega,Nat.lt_of_le_of_lt hcounted.recv hlen⟩

end Bounds

/-- As long as no session disconnects and no queue overflows, and while no chat is being handled, the
messages that were queued are those that were counted and those that were reported; a refused request
has none, and the clients expect no more. -/
theorem chat_accounting_balances [DecidableEq S] [DecidableEq T] [Fintype T] (e : Env)
    (maxSessionCount : Int) {s : State T S}
    (h : Reaches (step e) (Calm e) (State.init maxSessionCount) s) (hidle : ∀ t, s.chats t=none) :
    s.enqueued.length=s.stats.broadcastTarget ∧
    s.enqueued.length=(s.replies.map fun r => r.ack.targetCount).sum ∧
    (∀ r∈s.replies, r.ack.result≠.success → r.ack.targetCount=0 ∧ r.record.enqueued=0) ∧
    s.expectedChatRecv ≤ s.enqueued.length := by
  have hinv := reaches_inv h
  have henq := hinv.enqueued
  have hcount := hinv.counted
  simp only [hidle,unanswered,unreported,Finset.sum_const_zero,Nat.add_zero] at henq hcount
  have hsame : (s.replies.map fun r => r.record.enqueued)=s.replies.map fun r => r.ack.targetCount :=
    List.map_congr_left fun r hr => (hinv.replies r hr).1.symm
  have hle : (s.replies.map fun r => handleAckChat 0 r.ack).sum ≤
      (s.replies.map fun r => r.ack.targetCount).sum := by
    apply List.sum_le_sum
    intro r _
    unfold handleAckChat
    split <;> omega
  have hclients := hinv.clients
  rw [hsame] at henq
  refine ⟨henq.trans hcount.symm,henq,?_,by omega⟩
  intro r hr hne
  obtain ⟨heq,hhonest⟩ := hinv.replies r hr
  exact ⟨hhonest hne,heq.symm.trans (hhonest hne)⟩

/-- A test for `Calm` that can be run. -/
def calm [DecidableEq S] [DecidableEq T] [Fintype S] (e : Env) (s : State T S) (a : Action T S) :
    Bool :=
  ((step e s a).all fun s' => decide (∀ x, s.server.isConnected x → s'.server.isConnected x)) &&
    match a with
    | .server (.run t _ _) =>
      match s.server.calls t with
      | (x,.pipe (.enqueue _))::_ => (s.server.cores x).pipe.sendQueue.length < maxSendQueueSize
      | _ => true
    | _ => true

theorem calm_sound [DecidableEq S] [DecidableEq T] [Fintype S] (e : Env) (s : State T S)
    (a : Action T S) (h : calm e s a) : Calm e s a := by
  obtain ⟨hcon,hroom⟩ := Bool.and_eq_true_iff.mp h
  constructor
  · intro s' hs
    rw [hs] at hcon
    exact of_decide_eq_true hcon
  · rintro t ok recv x b rest rfl hcalls _
    simp only [hcalls] at hroom
    exact of_decide_eq_true hroom

/-- Both sessions are in room 3. Session `false` chats there and reaches both; the chat of `true` to
room 4 is refused; both replies have arrived. -/
theorem chat_accounting_balances_refused :
    ∃ s : State Unit Bool, Reaches (step plainChat) (Calm plainChat) (State.init 10) s ∧
      (∀ t, s.chats t=none) ∧ s.replies.map (fun r => r.ack)=[⟨.success,2⟩,⟨.fail,0⟩] ∧
      s.expectedChatRecv=2 ∧ s.enqueued.length=2 ∧ s.stats.broadcastTarget=2 := by
  have hrun : (runActions (fun (s : State Unit Bool) a =>
        if calm plainChat s a then step plainChat s a else none) (State.init 10)
      (logIn false++logIn true++enterRoomThree false++enterRoomThree true++receive false .other++
        [Action.start () ⟨[1],.normal,3,[]⟩]++chats 8++runs 2++chats 1++runs 2++chats 5++runs 2++
        [Action.finish ()]++runs 1++receive true .other++[Action.start () ⟨[1],.normal,4,[]⟩]++
        chats 2++runs 2++[Action.finish ()]++runs 1++
        [Action.ackChat ⟨.success,2⟩,Action.ackChat ⟨.fail,0⟩])).map
      (fun s => ((s.chats ()).isNone,s.replies.map (fun r => r.ack),s.expectedChatRecv))=
      some (true,[⟨.success,2⟩,⟨.fail,0⟩],2) := by decide +kernel
  obtain ⟨s,hs,hfields⟩ := Option.map_eq_some_iff.mp hrun
  simp only [Prod.mk.injEq,Option.isNone_iff_eq_none] at hfields
  obtain ⟨hchats,hreplies,hexpected⟩ := hfields
  have hreach := Reaches.of_guarded (calm_sound plainChat) _ hs
  have hidle : ∀ t, s.chats t=none := fun _ => hchats
  obtain ⟨htarget,hsum,-,-⟩ := chat_accounting_balances plainChat 10 hreach hidle
  have htotal : (s.replies.map fun r => r.ack.targetCount).sum=2 := by
    have := congrArg (fun acks => (acks.map AckChat.targetCount).sum) hreplies
    simpa [List.map_map,Function.comp_def] using this
  exact ⟨s,hreach,hidle,hreplies,hexpected,hsum.trans htotal,htarget.symm.trans (hsum.trans htotal)⟩

end IocpServer.Server.Chat
