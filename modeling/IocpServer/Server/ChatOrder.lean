import IocpServer.Server.ChatAccounting

set_option linter.unusedSectionVars false

namespace IocpServer.Server.Chat

open NetWork (SendBuffer)
open NetWork.Lifecycle

variable {T S : Type}

/-- A chat message that a session has queued: who asked for it and with which of its requests. -/
structure Post (S : Type) where
  sender : S
  number : Nat
  target : S
  sendBuffer : SendBuffer

/-- Posts of one sender follow its requests, and those of one request go to different sessions. -/
def Post.Before (p q : Post S) : Prop :=
  p.sender=q.sender → p.number<q.number ∨ p.number=q.number ∧ p.target≠q.target

/-- The chat with three histories: the requests of each session in the order in which their handlers
start, which of them the handler of a thread serves, and the messages that were queued. -/
structure Trace (T S : Type) where
  chat : State T S
  requests : S → List ReqChat
  number : T → Nat
  posted : List (Post S)

/-- The buffer holds the message of the request. -/
def IsMessage (e : Env) (pkt : ReqChat) (b : SendBuffer) : Prop :=
  ∃ userName, b=e.makeSendChat userName pkt.message

namespace Trace

def init (maxSessionCount : Int) : Trace T S := ⟨State.init maxSessionCount,fun _ => [],fun _ => 0,[]⟩

variable [DecidableEq T] [DecidableEq S]

/-- The histories after a step that has led to `chat`. -/
def after (s : Trace T S) (chat : State T S) : Action T S → Trace T S
  | .start t pkt =>
    match chat.chats t with
    | some c =>
      { s with
        chat
        requests := Function.update s.requests c.session (s.requests c.session++[pkt])
        number := Function.update s.number t (s.requests c.session).length }
    | none => { s with chat }
  | .server a =>
    match s.chat.chats (threadOf a) with
    | some c =>
      { s with
        chat
        posted := s.posted++(chat.enqueued.drop s.chat.enqueued.length).map fun p =>
          ⟨c.session,s.number (threadOf a),p.1,p.2⟩ }
    | none => { s with chat }
  | _ => { s with chat }

def step (e : Env) (s : Trace T S) (a : Action T S) : Option (Trace T S) :=
  (Chat.step e s.chat a).map fun chat => s.after chat a

/-- The server is called as its admission allows. -/
def Ok [Fintype T] (s : Trace T S) : Action T S → Prop
  | .server a => Admission s.chat.server a
  | _ => True

end Trace

/-- The sessions that have queued the message of a request. -/
def sentTo [DecidableEq S] (posted : List (Post S)) (x : S) (n : Nat) : List S :=
  (posted.filter fun p => p.sender=x ∧ p.number=n).map Post.target

/-- The sessions that the handler has still to send to. -/
def At.waiting : At S → List S
  | .normalVisit sessions targets _ => targets++sessions
  | .normalRoom y rest targets _ => targets++y::rest
  | .normalSend targets _ _ => targets
  | .allVisit sessions _ _ => sessions
  | .allRoom y rest _ _ => y::rest
  | .whisperSend y _ => [y]
  | _ => []

/-- The handler has not chosen its audience. -/
def At.choosing : At S → Bool
  | .start | .normalChat _ | .allChat _ | .findTarget _ | .whisperChat _ => true
  | _ => false

def At.message : At S → Option SendBuffer
  | .normalChat b | .normalVisit _ _ b | .normalRoom _ _ _ b | .normalSend _ b _ | .allChat b
  | .allVisit _ b _ | .allRoom _ _ b _
  | .findTarget b | .whisperChat b | .whisperSend _ b => some b
  | _ => none

/-- What the thread sends is the reply, not the message. -/
def At.replies : At S → Bool
  | .replying _ | .replied => true
  | _ => false

/-- The buffer that a call of `send` has not brought to the queue. -/
def submitted : List (S×Frame Packet) → List (S×SendBuffer)
  | (y,.pipe (.send b))::_ | (y,.pipe (.enqueue b))::_ => [(y,b)]
  | _ => []

def underway (pc : At S) (calls : List (S×Frame Packet)) : List (S×SendBuffer) :=
  if pc.replies then [] else submitted calls

theorem submitted_of_trails {y : S} {f : Frame Packet} (hf : trails f) (rest : List (S×Frame Packet)) :
    submitted ((y,f)::rest)=[] := by
  cases f with
  | pipe pc =>
    cases pc with
    | send | enqueue => cases hf
    | _ => rfl
  | _ => rfl

@[simp] theorem underway_body (pc : At S) (x : S) (cleanup : Bool) (rest : List (S×Frame Packet)) :
    underway pc ((x,.body cleanup)::rest)=[] := by
  unfold underway
  split <;> rfl

/-- The frame of the call that a step of the handler makes. -/
def framesOfCall : Option (S×Entry) → List (S×Frame Packet)
  | some (y,.send b) => [(y,.pipe (.send b))]
  | some (y,_) => [(y,disconnect)]
  | none => []

/-- What the handler may have called: once it has chosen its audience, a send before the queue, which
the reply is not any more when it counts as queued, or something behind the queue. -/
def At.Calls (pc : At S) (f : Frame Packet) : Prop :=
  pc.choosing=false ∧ (submits f ∧ pc≠.replied ∨ trails f)

/-- A thread in the handler of session `x`, or in a call of it that `ok` admits. -/
inductive Within (x : S) (ok : Frame Packet → Prop) : List (S×Frame Packet) → Prop
  | handler (rest : List (S×Frame Packet)) : Within x ok ((x,.body false)::rest)
  | called (y : S) (f : Frame Packet) (rest : List (S×Frame Packet)) (hf : ok f) :
      Within x ok ((y,f)::(x,.body false)::rest)

theorem Within.mono {x : S} {ok ok' : Frame Packet → Prop} {calls : List (S×Frame Packet)}
    (h : Within x ok calls) (hok : ∀ f, ok f → ok' f) : Within x ok' calls := by
  cases h with
  | handler rest => exact .handler rest
  | called y f rest hf => exact .called y f rest (hok f hf)

/-- A chat handler that serves the last request of its session, which `sent` have got. -/
structure Serves (e : Env) (requests : List ReqChat) (n : Nat) (sent : List S) (c : Call S)
    (calls : List (S×Frame Packet)) : Prop where
  number : n+1=requests.length
  request : requests[n]?=some c.pkt
  stack : Within c.session c.pc.Calls calls
  fresh : c.pc.choosing → sent=[]
  once : (sent++(underway c.pc calls).map Prod.fst++c.pc.waiting).Nodup
  message : ∀ b, c.pc.message=some b → IsMessage e c.pkt b
  sending : ∀ p∈underway c.pc calls, IsMessage e c.pkt p.2

theorem Serves.mem_calls {e : Env} {requests : List ReqChat} {n : Nat} {sent : List S} {c : Call S}
    {calls : List (S×Frame Packet)} (h : Serves e requests n sent c calls) :
    (c.session,.body false)∈calls := by
  cases h.stack with
  | handler rest => exact List.mem_cons_self
  | called y f rest hf => exact List.mem_cons_of_mem _ List.mem_cons_self

section Handler

variable [DecidableEq S] {e : Env} {s : Server.State T S} {o : Outcome S} {x : S} {pkt : ReqChat}
  {pc pc' : At S} {call : Option (S×Entry)}

/-- A handler that chooses its audience sends nothing, and chooses no session twice. -/
theorem advance_choosing (ha : advance e s o x pkt pc=some (pc',call)) (hpc : pc.choosing)
    (haccounts : s.game.manager.accountSessions.values.Nodup) :
    pc'.waiting.Nodup ∧ (call=none ∨ pc'=.leave ∧ ∃ y, call=some (y,.disconnect)) ∧
      ∀ b, pc'.message=some b → pc.message=some b ∨ IsMessage e pkt b := by
  cases pc with
  | start =>
    simp only [advance,Option.some.injEq] at ha
    unfold handleReqChat at ha
    repeat' split at ha
    all_goals cases ha
    all_goals first
      | exact ⟨List.nodup_nil,Or.inl rfl,fun b hb => by cases hb; exact Or.inr ⟨_,rfl⟩⟩
      | exact ⟨List.nodup_nil,Or.inl rfl,fun b hb => by cases hb⟩
      | exact ⟨List.nodup_nil,Or.inr ⟨rfl,_,rfl⟩,fun b hb => by cases hb⟩
  | normalChat b =>
    cases ha
    exact ⟨haccounts,Or.inl rfl,fun b hb => Or.inl hb⟩
  | allChat b =>
    simp only [advance] at ha
    split at ha
    · rename_i hsnapshot
      cases ha
      exact ⟨hsnapshot.1,Or.inl rfl,fun b hb => Or.inl hb⟩
    · cases ha
  | findTarget b =>
    simp only [advance] at ha
    split at ha <;> cases ha
    · exact ⟨List.nodup_nil,Or.inl rfl,fun b hb => Or.inl hb⟩
    · exact ⟨List.nodup_nil,Or.inl rfl,fun b hb => by cases hb⟩
  | whisperChat b =>
    simp only [advance] at ha
    split at ha <;> cases ha
    · exact ⟨List.nodup_nil,Or.inl rfl,fun b hb => by cases hb⟩
    · exact ⟨List.nodup_singleton _,Or.inl rfl,fun b hb => Or.inl hb⟩
  | _ => cases hpc

/-- Afterwards it goes through its audience, and sends the message to each of them at most once. -/
theorem advance_chosen (ha : advance e s o x pkt pc=some (pc',call)) (hpc : pc.choosing=false) :
    pc'.choosing=false ∧ pc'≠.replied ∧ (∀ b, pc'.message=some b → pc.message=some b) ∧
      (call=none ∧ pc'.waiting.Sublist pc.waiting ∨
        (∃ y b, call=some (y,.send b) ∧ pc'.replies ∧ pc'.waiting=[]) ∨
        ∃ y b, call=some (y,.send b) ∧ pc'.replies=false ∧ pc.message=some b ∧
          pc.waiting=y::pc'.waiting) := by
  cases pc with
  | normalVisit sessions targets b =>
    simp only [advance] at ha
    split at ha
    · cases ha
      refine ⟨rfl,by simp,fun b hb => hb,Or.inl ⟨rfl,?_⟩⟩
      exact List.sublist_append_left targets []
    · split at ha <;> cases ha
      · refine ⟨rfl,by simp,fun b hb => hb,Or.inl ⟨rfl,?_⟩⟩
        exact (List.sublist_cons_self _ _).append_left targets
      · exact ⟨rfl,by simp,fun b hb => hb,Or.inl ⟨rfl,List.Sublist.refl _⟩⟩
  | normalRoom y rest targets b =>
    simp only [advance] at ha
    split at ha <;> cases ha
    · refine ⟨rfl,by simp,fun b hb => hb,Or.inl ⟨rfl,?_⟩⟩
      simp only [At.waiting,List.append_assoc,List.singleton_append]
      exact List.Sublist.refl _
    · refine ⟨rfl,by simp,fun b hb => hb,Or.inl ⟨rfl,?_⟩⟩
      exact (List.sublist_cons_self _ _).append_left targets
  | normalSend targets b count =>
    simp only [advance] at ha
    split at ha <;> cases ha
    · exact ⟨rfl,by simp,fun b hb => (by cases hb),Or.inl ⟨rfl,List.Sublist.refl _⟩⟩
    · exact ⟨rfl,by simp,fun b hb => hb,Or.inr (Or.inr ⟨_,b,rfl,rfl,rfl,rfl⟩)⟩
  | allVisit sessions b count =>
    simp only [advance] at ha
    split at ha
    · cases ha
      exact ⟨rfl,by simp,fun b hb => (by cases hb),Or.inl ⟨rfl,List.Sublist.refl _⟩⟩
    · split at ha <;> cases ha
      · exact ⟨rfl,by simp,fun b hb => hb,Or.inl ⟨rfl,List.sublist_cons_self _ _⟩⟩
      · exact ⟨rfl,by simp,fun b hb => hb,Or.inl ⟨rfl,List.Sublist.refl _⟩⟩
  | allRoom y rest b count =>
    simp only [advance] at ha
    split at ha <;> cases ha
    · exact ⟨rfl,by simp,fun b hb => hb,Or.inl ⟨rfl,List.sublist_cons_self _ _⟩⟩
    · exact ⟨rfl,by simp,fun b hb => hb,Or.inr (Or.inr ⟨_,b,rfl,rfl,rfl,rfl⟩)⟩
  | whisperSend y b =>
    simp only [advance] at ha
    split at ha <;> cases ha
    · exact ⟨rfl,by simp,fun b hb => (by cases hb),Or.inl ⟨rfl,List.nil_sublist _⟩⟩
    · exact ⟨rfl,by simp,fun b hb => (by cases hb),Or.inr (Or.inr ⟨_,b,rfl,rfl,rfl,rfl⟩)⟩
  | broadcastPacket count | broadcastTarget count | recvChat count =>
    cases ha
    exact ⟨rfl,by simp,fun b hb => (by cases hb),Or.inl ⟨rfl,List.Sublist.refl _⟩⟩
  | reply ack =>
    cases ha
    exact ⟨rfl,by simp,fun b hb => (by cases hb),Or.inr (Or.inl ⟨_,_,rfl,rfl,rfl⟩)⟩
  | replying | replied | leave => cases ha
  | _ => cases hpc

end Handler

section Calls

variable {c c' : Core Packet} {o : Choice Packet} {fs : List (Frame Packet)}

/-- A session accepts a buffer in one step of `send` only. -/
theorem exec_accepted {f : Frame Packet} (hx : exec c o f=some (c',fs)) :
    c'.pipe.accepted=c.pipe.accepted ∨
      ∃ b, f=.pipe (.enqueue b) ∧ c'.pipe.accepted=c.pipe.accepted++[b] := by
  cases exec_move hx with
  | pipe ok pc p pc' ha =>
    obtain ⟨n,stopped,heq⟩ := pipeEffect_eq c ok pc p
    rw [heq]
    cases NetWork.SendPipeline.advance_move ha with
    | accept b => exact Or.inr ⟨b,rfl,rfl⟩
    | _ => exact Or.inl rfl
  | _ => exact Or.inl rfl

theorem enter_accepted {entry : Entry} (hx : enter c entry=some (c',fs)) :
    c'.pipe.accepted=c.pipe.accepted := by
  cases enter_enters hx <;> rfl

/-- What a thread in `send` or `disconnect` continues with. -/
theorem exec_called {f : Frame Packet} (hx : exec c o f=some (c',fs)) (hf : submits f ∨ trails f) :
    fs=[] ∨ (∃ b, f=.pipe (.send b) ∧ fs=[.pipe (.enqueue b)]) ∨ ∃ f', fs=[f'] ∧ trails f' := by
  cases hf with
  | inr hf =>
    cases exec_trails hx hf with
    | inl hfs => exact Or.inl hfs
    | inr hfs => exact Or.inr (Or.inr hfs)
  | inl hf =>
    cases exec_move hx with
    | pipe ok pc p pc' ha =>
      cases NetWork.SendPipeline.advance_move ha with
      | send b => exact Or.inr (Or.inl ⟨b,rfl,rfl⟩)
      | sendOff | enqueueOff => exact Or.inl rfl
      | overflow => exact Or.inr (Or.inr ⟨_,rfl,rfl⟩)
      | accept =>
        cases c.pipe.isSendRegister with
        | true => exact Or.inl rfl
        | false => exact Or.inr (Or.inr ⟨_,rfl,rfl⟩)
      | _ => cases hf
    | _ => cases hf

end Calls

section Serving

variable {e : Env} {requests : List ReqChat} {n : Nat} {sent : List S} {c : Call S}
  {calls : List (S×Frame Packet)}

theorem Serves.record (h : Serves e requests n sent c calls) (r : Record S) :
    Serves e requests n sent { c with record := r } calls :=
  ⟨h.number,h.request,h.stack,h.fresh,h.once,h.message,h.sending⟩

/-- The calls of the thread after a step in the session that the handler has called. -/
theorem within_called (y : S) {f : Frame Packet} {fs : List (Frame Packet)}
    (rest : List (S×Frame Packet)) (hf : c.pc.Calls f)
    (hfs : fs=[] ∨ (∃ b, f=.pipe (.send b) ∧ fs=[.pipe (.enqueue b)]) ∨ ∃ f', fs=[f'] ∧ trails f') :
    Within c.session c.pc.Calls (Stacks.on y fs++(c.session,.body false)::rest) ∧
      (submitted (Stacks.on y fs++(c.session,.body false)::rest)).Sublist
        (submitted ((y,f)::(c.session,.body false)::rest)) := by
  obtain ⟨hpc,hf⟩ := hf
  obtain rfl|⟨b,rfl,rfl⟩|⟨f',rfl,hf'⟩ := hfs
  · exact ⟨.handler rest,List.nil_sublist _⟩
  · refine ⟨.called y _ rest ⟨hpc,Or.inl ⟨rfl,?_⟩⟩,List.Sublist.refl _⟩
    cases hf with
    | inl hf => exact hf.2
    | inr hf => cases hf
  · refine ⟨.called y f' rest ⟨hpc,Or.inr hf'⟩,?_⟩
    have hnone := submitted_of_trails (y:=y) hf' ((c.session,.body false)::rest)
    exact hnone ▸ List.nil_sublist _

theorem underway_sublist (pc : At S) {calls calls' : List (S×Frame Packet)}
    (h : (submitted calls').Sublist (submitted calls)) :
    (underway pc calls').Sublist (underway pc calls) := by
  unfold underway
  split
  · exact List.Sublist.refl _
  · exact h

/-- The called session goes on. -/
theorem Serves.within (h : Serves e requests n sent c calls) {calls' : List (S×Frame Packet)}
    (hstack : Within c.session c.pc.Calls calls')
    (hsub : (submitted calls').Sublist (submitted calls)) : Serves e requests n sent c calls' := by
  have hunder := underway_sublist c.pc hsub
  refine ⟨h.number,h.request,hstack,h.fresh,?_,h.message,fun p hp => h.sending p (hunder.subset hp)⟩
  exact h.once.sublist ((List.Sublist.append_left (hunder.map _) sent).append_right _)

/-- The queue has taken the reply. -/
theorem Serves.replied (h : Serves e requests n sent c calls) {calls' : List (S×Frame Packet)}
    (hstack : Within c.session (fun f => trails f) calls') :
    Serves e requests n sent { c with pc := .replied } calls' where
  number := h.number
  request := h.request
  stack := hstack.mono fun f hf => ⟨rfl,Or.inr hf⟩
  fresh hpc := by cases hpc
  once := by
    have honce := (List.nodup_append.mp (List.nodup_append.mp h.once).1).1
    show (sent++[]++[]).Nodup
    rwa [List.append_nil,List.append_nil]
  message b hb := by cases hb
  sending p hp := by cases hp

/-- The queue of `y` has taken the message. -/
theorem Serves.posted (h : Serves e requests n sent c calls) {calls' : List (S×Frame Packet)} {y : S}
    {b : SendBuffer} (hpc : c.pc.choosing=false) (hbefore : underway c.pc calls=[(y,b)])
    (hstack : Within c.session (fun f => trails f) calls') (hafter : underway c.pc calls'=[]) :
    Serves e requests n (sent++[y]) c calls' where
  number := h.number
  request := h.request
  stack := hstack.mono fun f hf => ⟨hpc,Or.inr hf⟩
  fresh hchoosing := by
    rw [hpc] at hchoosing
    cases hchoosing
  once := by
    have honce := h.once
    rw [hbefore] at honce
    rw [hafter,List.map_nil,List.append_nil]
    exact honce
  message := h.message
  sending p hp := by
    rw [hafter] at hp
    cases hp

end Serving

/-- The chat is in order. -/
structure Ordered [DecidableEq S] (e : Env) (s : Trace T S) : Prop where
  serves : ∀ t c, s.chat.chats t=some c →
    Serves e (s.requests c.session) (s.number t) (sentTo s.posted c.session (s.number t)) c
      (s.chat.server.calls t)
  before : ∀ p∈s.posted, p.number<(s.requests p.sender).length
  order : s.posted.Pairwise Post.Before
  content : ∀ p∈s.posted, ∃ pkt, (s.requests p.sender)[p.number]?=some pkt ∧
    IsMessage e pkt p.sendBuffer
  enqueued : s.posted.map (fun p => (p.target,p.sendBuffer))=s.chat.enqueued
  queued : ∀ y, ((s.chat.enqueued.filter fun p => p.1=y).map Prod.snd).Sublist
    (s.chat.server.cores y).pipe.accepted

section Runs

variable [DecidableEq S] [DecidableEq T] [Fintype T] {e : Env} {s s' : Trace T S}

theorem ordered_init (maxSessionCount : Int) : Ordered e (Trace.init maxSessionCount : Trace T S) where
  serves t c hc := by cases hc
  before p hp := by cases hp
  order := List.Pairwise.nil
  content p hp := by cases hp
  enqueued := rfl
  queued y := List.nil_sublist _

/-- Only one thread works on the jobs of a session. -/
theorem one_worker {server : Server.State T S} (h : Server.Inv server) {x : S} {f g : Frame Packet}
    {t u : T} (ht : (x,f)∈server.calls t) (hu : (x,g)∈server.calls u) (hf : f.working=1)
    (hg : g.working=1) : t=u := by
  have hrun : tok Frame.working (Stacks.pending server.calls x)=(server.cores x).running.toNat :=
    (h.linked x).account.running
  have hone := Bool.toNat_le (server.cores x).running
  have hsum : tok Frame.working (Stacks.pending server.calls x)=
      ∑ t, tok Frame.working (Stacks.framesOf x (server.calls t) : Multiset (Frame Packet)) :=
    map_sum (Multiset.sumAddMonoidHom.comp (Multiset.mapAddMonoidHom Frame.working)) _ _
  apply eq_of_sum_le_one (fun l => tok Frame.working (Stacks.framesOf x l : Multiset (Frame Packet)))
    server.calls (by omega)
  · exact tok_pos_of_mem (Multiset.mem_coe.mpr (Stacks.mem_framesOf.mpr ht)) (by omega)
  · exact tok_pos_of_mem (Multiset.mem_coe.mpr (Stacks.mem_framesOf.mpr hu)) (by omega)

theorem step_accepted {e : Server.Env} {server server' : Server.State T S} {a : Server.Action T S}
    (hs : Server.step e server a=some server') (y : S) :
    (server.cores y).pipe.accepted<+:(server'.cores y).pipe.accepted := by
  cases a with
  | run t ok recv =>
    obtain ⟨x,f,rest,c,fs,-,hx,rfl⟩ := step_run hs
    by_cases hy : y=x
    · subst hy
      simp only [Server.State.move,Function.update_self]
      obtain heq|⟨b,-,heq⟩ := exec_accepted hx
      · rw [heq]
      · rw [heq]
        exact List.prefix_append _ _
    · simp only [Server.State.move,Function.update_of_ne hy]
      exact List.prefix_rfl
  | enter t x entry =>
    obtain ⟨c,fs,-,hx,rfl⟩ := step_enter hs
    by_cases hy : y=x
    · subst hy
      simp only [Server.State.move,Function.update_self,enter_accepted hx]
      exact List.prefix_rfl
    · simp only [Server.State.move,Function.update_of_ne hy]
      exact List.prefix_rfl

/-- Thread `t` moves and queues no message. -/
theorem Ordered.move (h : Ordered e s) {chat : State T S} {t : T}
    (hchats : ∀ u, u≠t → chat.chats u=s.chat.chats u)
    (hcalls : ∀ u, u≠t → chat.server.calls u=s.chat.server.calls u)
    (henq : chat.enqueued=s.chat.enqueued)
    (hacc : ∀ y, (s.chat.server.cores y).pipe.accepted<+:(chat.server.cores y).pipe.accepted)
    (hself : ∀ c, chat.chats t=some c →
      Serves e (s.requests c.session) (s.number t) (sentTo s.posted c.session (s.number t)) c
        (chat.server.calls t)) : Ordered e { s with chat } := by
  refine ⟨?_,h.before,h.order,h.content,h.enqueued.trans henq.symm,?_⟩
  · intro u c hc
    by_cases hu : u=t
    · subst hu
      exact hself c hc
    · simp only [hchats u hu,hcalls u hu] at hc ⊢
      exact h.serves u c hc
  · intro y
    simp only [henq]
    exact (h.queued y).trans (hacc y).sublist

omit [DecidableEq T] [Fintype T] in
theorem sentTo_append (posted : List (Post S)) (p : Post S) (x : S) (n : Nat) :
    sentTo (posted++[p]) x n=
      sentTo posted x n++if p.sender=x ∧ p.number=n then [p.target] else [] := by
  unfold sentTo
  rw [List.filter_append,List.map_append]
  congr 1
  by_cases hp : p.sender=x ∧ p.number=n
  · rw [if_pos hp,List.filter_cons_of_pos (by simpa using hp)]
    rfl
  · rw [if_neg hp,List.filter_cons_of_neg (by simpa using hp)]
    rfl

omit [DecidableEq T] [Fintype T] in
theorem mem_sentTo {posted : List (Post S)} {p : Post S} (hp : p∈posted) :
    p.target∈sentTo posted p.sender p.number :=
  List.mem_map_of_mem (List.mem_filter.mpr ⟨hp,by simp⟩)

/-- The queue of `y` takes the message that the handler of thread `t` sends. -/
theorem Ordered.post (h : Ordered e s) {chat : State T S} {t : T} {c c' : Call S} {y : S}
    {b : SendBuffer} (hchat : s.chat.chats t=some c)
    (hone : ∀ u d, s.chat.chats u=some d → d.session=c.session → u=t)
    (hchats : chat.chats=Function.update s.chat.chats t (some c')) (hsame : c'.session=c.session)
    (hcalls : ∀ u, u≠t → chat.server.calls u=s.chat.server.calls u)
    (henq : chat.enqueued=s.chat.enqueued++[(y,b)])
    (hacc : ∀ z, (s.chat.server.cores z).pipe.accepted<+:(chat.server.cores z).pipe.accepted)
    (haccept : (chat.server.cores y).pipe.accepted=(s.chat.server.cores y).pipe.accepted++[b])
    (hunder : underway c.pc (s.chat.server.calls t)=[(y,b)])
    (hself : Serves e (s.requests c.session) (s.number t)
      (sentTo s.posted c.session (s.number t)++[y]) c' (chat.server.calls t)) :
    Ordered e { s with chat, posted := s.posted++[⟨c.session,s.number t,y,b⟩] } := by
  have hserves := h.serves t c hchat
  have honce := hserves.once
  rw [hunder] at honce
  have hnew : y∉sentTo s.posted c.session (s.number t) := by
    intro hy
    have hdisjoint := (List.nodup_append.mp (List.nodup_append.mp honce).1).2.2
    exact hdisjoint y hy y List.mem_cons_self rfl
  refine ⟨?_,?_,?_,?_,?_,?_⟩
  · intro u d hd
    simp only [hchats] at hd
    by_cases hu : u=t
    · subst hu
      rw [Function.update_self] at hd
      cases hd
      simp only [hsame,sentTo_append,and_self,if_true]
      exact hself
    · rw [Function.update_of_ne hu] at hd
      have hne : ¬(c.session=d.session ∧ s.number t=s.number u) :=
        fun heq => hu (hone u d hd heq.1.symm)
      simp only [hcalls u hu,sentTo_append,if_neg hne,List.append_nil]
      exact h.serves u d hd
  · intro p hp
    obtain hp|hp := List.mem_append.mp hp
    · exact h.before p hp
    · rw [List.mem_singleton.mp hp]
      exact Nat.lt_of_succ_le (Nat.le_of_eq hserves.number)
  · refine List.pairwise_append.mpr ⟨h.order,List.pairwise_singleton _ _,?_⟩
    intro p hp q hq hsender
    rw [List.mem_singleton.mp hq] at hsender ⊢
    have hlt := h.before p hp
    simp only at hsender ⊢
    rw [hsender,← hserves.number] at hlt
    obtain hlt|heq := Nat.lt_or_eq_of_le (Nat.le_of_lt_succ hlt)
    · exact Or.inl hlt
    · refine Or.inr ⟨heq,?_⟩
      intro htarget
      have hmem := mem_sentTo hp
      rw [hsender,heq,htarget] at hmem
      exact hnew hmem
  · intro p hp
    obtain hp|hp := List.mem_append.mp hp
    · exact h.content p hp
    · rw [List.mem_singleton.mp hp]
      exact ⟨c.pkt,hserves.request,hserves.sending (y,b) (by rw [hunder]; exact List.mem_cons_self)⟩
  · simp only [List.map_append,h.enqueued,henq]
    rfl
  · intro z
    simp only [henq,List.filter_append,List.map_append]
    by_cases hz : z=y
    · subst hz
      rw [haccept]
      refine (h.queued z).append ?_
      rw [List.filter_cons_of_pos (by simp)]
      exact List.Sublist.refl _
    · rw [List.filter_cons_of_neg (by simpa using Ne.symm hz)]
      simp only [List.filter_nil,List.map_nil,List.append_nil]
      exact (h.queued z).trans (hacc z).sublist

theorem Trace.after_same {chat : State T S} {a : Server.Action T S}
    (h : chat.enqueued=s.chat.enqueued) : s.after chat (.server a)={ s with chat } := by
  simp only [Trace.after]
  split
  · rw [h,List.drop_length,List.map_nil,List.append_nil]
  · rfl

section AfterServer

variable {chat : State T S} {t : T} {server : Server.State T S} {c : Call S} {y : S} {b : SendBuffer}
  {rest : List (S×Frame Packet)}

omit [Fintype T] in
theorem afterServer_server (chat : State T S) (t : T) (server : Server.State T S) :
    (chat.afterServer t server).server=server := by
  unfold State.afterServer
  repeat' split
  all_goals rfl

omit [Fintype T] in
/-- A queue has taken the reply of the handler. -/
theorem afterServer_reply (hchat : chat.chats t=some c)
    (hcalls : chat.server.calls t=(y,.pipe (.enqueue b))::rest)
    (hgrew : (chat.server.cores y).pipe.accepted.length<(server.cores y).pipe.accepted.length)
    {ack : AckChat} (hpc : c.pc=.replying ack) :
    (chat.afterServer t server).chats=Function.update chat.chats t (some { c with pc := .replied }) ∧
      (chat.afterServer t server).enqueued=chat.enqueued := by
  simp only [State.afterServer,hchat,hcalls,hgrew,if_true,hpc,and_self]

omit [Fintype T] in
/-- A queue has taken its message. -/
theorem afterServer_message (hchat : chat.chats t=some c)
    (hcalls : chat.server.calls t=(y,.pipe (.enqueue b))::rest)
    (hgrew : (chat.server.cores y).pipe.accepted.length<(server.cores y).pipe.accepted.length)
    (hpc : c.pc.replies=false) :
    (∃ r, (chat.afterServer t server).chats=
        Function.update chat.chats t (some { c with record := r })) ∧
      (chat.afterServer t server).enqueued=chat.enqueued++[(y,b)] := by
  simp only [State.afterServer,hchat,hcalls,hgrew,if_true]
  split
  · rename_i ack hack
    rw [hack] at hpc
    cases hpc
  · exact ⟨⟨_,rfl⟩,rfl⟩

end AfterServer

/-- A step outside the handlers, or in a session that a handler has called. -/
theorem Ordered.server (h : Ordered e s) (hi : Server.Inv s.chat.server) {a : Server.Action T S}
    {server : Server.State T S} (hin : s.chat.inHandler (threadOf a)=false)
    (hs : Server.step e.toEnv s.chat.server a=some server) :
    Ordered e (s.after (s.chat.afterServer (threadOf a) server) (.server a)) := by
  have hother : ∀ u, u≠threadOf a → server.calls u=s.chat.server.calls u :=
    fun u hu => calls_of_ne hs hu
  have hacc := step_accepted hs
  cases hchat : s.chat.chats (threadOf a) with
  | none =>
    have hsame : s.chat.afterServer (threadOf a) server={ s.chat with server } := by
      simp only [State.afterServer,hchat]
    rw [Trace.after_same (by rw [hsame]),hsame]
    refine h.move (fun _ _ => rfl) hother rfl hacc ?_
    intro c hc
    rw [hchat] at hc
    cases hc
  | some c =>
    have hserves := h.serves _ c hchat
    obtain ⟨y,f,rest,hcalls,hf⟩ : ∃ y f rest,
        s.chat.server.calls (threadOf a)=(y,f)::(c.session,.body false)::rest ∧ c.pc.Calls f := by
      have hstack := hserves.stack
      generalize hcalls : s.chat.server.calls (threadOf a)=calls at hstack
      cases hstack with
      | handler rest => simp [State.inHandler,hchat,hcalls] at hin
      | called y f rest hf => exact ⟨y,f,rest,rfl,hf⟩
    have hbody : ∀ cleanup, f≠.body cleanup := by
      intro cleanup hf
      subst hf
      simp [State.inHandler,hchat,hcalls] at hin
    obtain ⟨t,ok,recv,core,fs,rfl,hx,hcalls',hcore⟩ := run_of_call hs hcalls hbody
    simp only [threadOf] at hchat hcalls hother hserves ⊢
    have hfs := exec_called hx (hf.2.imp And.left id)
    obtain ⟨hstack,hsub⟩ := within_called y rest hf hfs
    rw [← hcalls'] at hstack hsub
    rw [← hcalls] at hsub
    -- the handler and what it has sent stay as they are
    have hquiet : Ordered e { s with chat := { s.chat with server } } := by
      refine h.move (t:=t) (fun _ _ => rfl) hother rfl hacc ?_
      intro d hd
      cases hchat.symm.trans hd
      exact hserves.within hstack hsub
    by_cases hgrew : ∃ b, f=.pipe (.enqueue b) ∧
        (s.chat.server.cores y).pipe.accepted.length<(server.cores y).pipe.accepted.length
    swap
    · have hsame : s.chat.afterServer t server={ s.chat with server } := by
        unfold State.afterServer
        split
        · rename_i d z b rest' hd hz
          rw [hcalls] at hz
          cases hz
          rw [if_neg fun hlt => hgrew ⟨b,rfl,hlt⟩]
        · rfl
      rw [Trace.after_same (by rw [hsame]),hsame]
      exact hquiet
    obtain ⟨b,rfl,hlt⟩ := hgrew
    have haccept : (server.cores y).pipe.accepted=(s.chat.server.cores y).pipe.accepted++[b] := by
      rw [hcore] at hlt ⊢
      obtain heq|⟨b',hb',heq⟩ := exec_accepted hx
      · rw [heq] at hlt
        exact absurd hlt (Nat.lt_irrefl _)
      · cases hb'
        exact heq
    have hreplied : c.pc≠.replied := by
      cases hf.2 with
      | inl hf => exact hf.2
      | inr hf => cases hf
    have hbehind : Within c.session (fun f => trails f) (server.calls t) ∧
        submitted (server.calls t)=[] := by
      rw [hcalls']
      obtain rfl|⟨b',hb',-⟩|⟨f',rfl,hf'⟩ := hfs
      · exact ⟨.handler rest,rfl⟩
      · cases hb'
      · exact ⟨.called y f' rest hf',submitted_of_trails hf' _⟩
    cases hreplies : c.pc.replies with
    | true =>
      -- the reply: no message is queued
      obtain ⟨ack,hack⟩ : ∃ ack, c.pc=.replying ack := by
        cases hpc' : c.pc with
        | replying ack => exact ⟨ack,rfl⟩
        | replied => exact absurd hpc' hreplied
        | _ =>
          rw [hpc'] at hreplies
          cases hreplies
      obtain ⟨hchats,henq⟩ := afterServer_reply hchat hcalls hlt hack
      rw [Trace.after_same henq]
      refine h.move (t:=t) ?_ ?_ henq ?_ ?_
      · intro u hu
        rw [hchats,Function.update_of_ne hu]
      · rw [afterServer_server]
        exact hother
      · rw [afterServer_server]
        exact hacc
      · intro d hd
        rw [hchats,Function.update_self] at hd
        cases hd
        rw [afterServer_server]
        exact hserves.replied hbehind.1
    | false =>
      obtain ⟨⟨r,hchats⟩,henq⟩ := afterServer_message hchat hcalls hlt hreplies
      have hafter : s.after (s.chat.afterServer t server) (.server (.run t ok recv))=
          { s with
            chat := s.chat.afterServer t server
            posted := s.posted++[⟨c.session,s.number t,y,b⟩] } := by
        simp only [Trace.after,threadOf,hchat,henq,List.drop_left,List.map_cons,List.map_nil]
      rw [hafter]
      have hone : ∀ u d, s.chat.chats u=some d → d.session=c.session → u=t := by
        intro u d hd hsame
        have hmem := (h.serves u d hd).mem_calls
        rw [hsame] at hmem
        exact one_worker hi hmem hserves.mem_calls rfl rfl
      have hbefore : underway c.pc (s.chat.server.calls t)=[(y,b)] := by
        rw [underway,hreplies,hcalls]
        rfl
      refine h.post hchat hone hchats rfl ?_ henq ?_ ?_ hbefore ?_
      · rw [afterServer_server]
        exact hother
      · rw [afterServer_server]
        exact hacc
      · rw [afterServer_server]
        exact haccept
      · rw [afterServer_server]
        have hafter : underway c.pc (server.calls t)=[] := by
          rw [underway,hreplies]
          exact hbehind.2
        exact (hserves.posted hf.1 hbefore hbehind.1 hafter).record r

/-- A handler that is to take its next step has called nothing. -/
theorem Ordered.at_body (h : Ordered e s) {t : T} {c : Call S} (hchat : s.chat.chats t=some c)
    (hin : s.chat.inHandler t) : ∃ rest, s.chat.server.calls t=(c.session,.body false)::rest := by
  have hstack := (h.serves t c hchat).stack
  generalize hcalls : s.chat.server.calls t=calls at hstack
  cases hstack with
  | handler rest => exact ⟨rest,rfl⟩
  | called y f rest hf =>
    simp only [State.inHandler,hchat,hcalls] at hin
    split at hin
    · rename_i heq
      cases heq
      obtain ⟨-,hf|hf⟩ := hf
      · cases hf.1
      · cases hf
    · cases hin

/-- A handler starts with the next request of its session. -/
theorem Ordered.start (h : Ordered e s) (hi : Server.Inv s.chat.server) {t : T} {pkt : ReqChat} {x : S}
    {rest : List (S×Frame Packet)} {server : Server.State T S}
    (hcalls : s.chat.server.calls t=(x,.job (.packet .other))::rest)
    (hcon : s.chat.server.isConnected x)
    (hs : Server.step e.toEnv s.chat.server (.run t true .wait)=some server) {chat : State T S}
    (hserver : chat.server=server) (henq : chat.enqueued=s.chat.enqueued)
    (hchats : chat.chats=Function.update s.chat.chats t (some ⟨x,pkt,.start,⟨0,false,false,none⟩⟩)) :
    Ordered e (s.after chat (.start t pkt)) := by
  have hafter : s.after chat (.start t pkt)=
      { s with
        chat
        requests := Function.update s.requests x (s.requests x++[pkt])
        number := Function.update s.number t (s.requests x).length } := by
    simp only [Trace.after,hchats,Function.update_self]
  have hjob : (x,.job (.packet .other))∈s.chat.server.calls t := by
    rw [hcalls]
    exact List.mem_cons_self
  have hcalls' : server.calls t=(x,.body false)::rest := by
    obtain ⟨t',ok,recv,core,fs,heq,hexec,hcalls',-⟩ := run_of_call hs hcalls (by simp)
    cases heq
    simp only [State.isConnected] at hcon
    simp only [exec,hcon,if_true] at hexec
    cases hexec
    exact hcalls'
  have hgrows : ∀ y, s.requests y<+:Function.update s.requests x (s.requests x++[pkt]) y := by
    intro y
    by_cases hy : y=x
    · subst hy
      rw [Function.update_self]
      exact List.prefix_append _ _
    · rw [Function.update_of_ne hy]
  rw [hafter]
  refine ⟨?_,?_,h.order,?_,h.enqueued.trans henq.symm,?_⟩
  · intro u c hc
    simp only [hchats] at hc
    simp only [hserver]
    by_cases hu : u=t
    · subst hu
      rw [Function.update_self] at hc
      cases hc
      have hnone : sentTo s.posted x (s.requests x).length=[] := by
        refine List.map_eq_nil_iff.mpr (List.filter_eq_nil_iff.mpr ?_)
        intro p hp heq
        obtain ⟨hsender,hnumber⟩ := of_decide_eq_true heq
        have hlt := h.before p hp
        rw [hsender,hnumber] at hlt
        exact Nat.lt_irrefl _ hlt
      simp only [Function.update_self,hnone,hcalls']
      exact ⟨by simp,by simp,.handler rest,fun _ => rfl,List.nodup_nil,fun b hb => (by cases hb),
        fun p hp => (by cases hp)⟩
    · rw [Function.update_of_ne hu] at hc
      have hserves := h.serves u c hc
      have hne : c.session≠x := by
        intro heq
        have hmem := hserves.mem_calls
        rw [heq] at hmem
        exact hu (one_worker hi hmem hjob rfl rfl)
      rw [Function.update_of_ne hne,Function.update_of_ne hu,calls_of_ne hs hu]
      exact hserves
  · intro p hp
    exact Nat.lt_of_lt_of_le (h.before p hp) (hgrows p.sender).length_le
  · intro p hp
    obtain ⟨pkt',hpkt,hmessage⟩ := h.content p hp
    obtain ⟨more,hmore⟩ := hgrows p.sender
    refine ⟨pkt',?_,hmessage⟩
    simp only [← hmore]
    exact (List.getElem?_append_left (h.before p hp)).trans hpkt
  · intro y
    simp only [henq,hserver]
    exact (h.queued y).trans (step_accepted hs y).sublist

omit [DecidableEq T] [Fintype T] in
/-- The handler goes on: whom it calls and whom it has still to send to was waiting before. -/
theorem Serves.advance {server : Server.State T S} {o : Outcome S} {requests : List ReqChat} {n : Nat}
    {sent : List S} {c : Call S} {rest : List (S×Frame Packet)} {pc : At S}
    {call : Option (S×Entry)} (h : Serves e requests n sent c ((c.session,.body false)::rest))
    (ha : Chat.advance e server o c.session c.pkt c.pc=some (pc,call))
    (haccounts : server.game.manager.accountSessions.values.Nodup) (r : Record S) :
    Serves e requests n sent { c with pc := pc, record := r }
      (framesOfCall call++(c.session,.body false)::rest) := by
  have honce := h.once
  rw [underway_body,List.map_nil,List.append_nil] at honce
  cases hpc : c.pc.choosing with
  | true =>
    obtain ⟨hnodup,hcall,hmessage⟩ := advance_choosing ha hpc haccounts
    have hmessage' : ∀ b, pc.message=some b → IsMessage e c.pkt b :=
      fun b hb => (hmessage b hb).elim (h.message b) id
    obtain rfl|⟨rfl,y,rfl⟩ := hcall
    · refine ⟨h.number,h.request,.handler rest,fun _ => h.fresh hpc,?_,hmessage',?_⟩
      · simpa [framesOfCall,h.fresh hpc] using hnodup
      · simp [framesOfCall]
    · refine ⟨h.number,h.request,.called y _ rest ⟨rfl,Or.inr rfl⟩,fun _ => h.fresh hpc,?_,hmessage',?_⟩
      · rw [h.fresh hpc]
        exact hnodup
      · exact fun p hp => absurd hp List.not_mem_nil
  | false =>
    obtain ⟨hpc',hreplied,hmessage,hcall⟩ := advance_chosen ha hpc
    have hmessage' : ∀ b, pc.message=some b → IsMessage e c.pkt b :=
      fun b hb => h.message b (hmessage b hb)
    have hfresh : pc.choosing → sent=[] := by
      intro hchoosing
      rw [hpc'] at hchoosing
      cases hchoosing
    obtain ⟨rfl,hsub⟩|⟨y,b,rfl,hreplies,hwaiting⟩|⟨y,b,rfl,hreplies,hb,hwaiting⟩ := hcall
    · refine ⟨h.number,h.request,.handler rest,hfresh,?_,hmessage',?_⟩
      · simpa [framesOfCall] using honce.sublist (hsub.append_left sent)
      · simp [framesOfCall]
    · refine ⟨h.number,h.request,.called y _ rest ⟨hpc',Or.inl ⟨rfl,hreplied⟩⟩,hfresh,?_,hmessage',?_⟩
      · simpa [underway,hreplies,hwaiting] using (List.nodup_append.mp honce).1
      · simp [underway,hreplies]
    · refine ⟨h.number,h.request,.called y _ rest ⟨hpc',Or.inl ⟨rfl,hreplied⟩⟩,hfresh,?_,hmessage',?_⟩
      · rw [hwaiting] at honce
        simpa [underway,hreplies,framesOfCall,submitted] using honce
      · simpa [underway,hreplies,framesOfCall,submitted] using h.message b hb

/-- No session has two accounts, not even while handlers are running. -/
theorem nodup_accountSessions {server : Server.State T S} (h : Server.Inv server) :
    server.game.manager.accountSessions.values.Nodup := by
  apply Map.nodup_values
  intro a a' y ha ha'
  obtain ⟨k,hsat,-,-⟩ := h.game.know y
  exact Option.some.inj ((hsat.entry a ha).2.symm.trans (hsat.entry a' ha').2)

/-- The handler of thread `t` takes a step. -/
theorem Ordered.proceed (h : Ordered e s) (hi : Server.Inv s.chat.server) {t : T} {c : Call S}
    {o : Outcome S} {pc : At S} {call : Option (S×Entry)} {server : Server.State T S}
    (hchat : s.chat.chats t=some c) (hin : s.chat.inHandler t)
    (ha : Chat.advance e s.chat.server o c.session c.pkt c.pc=some (pc,call))
    (hother : ∀ u, u≠t → server.calls u=s.chat.server.calls u)
    (hcalls : server.calls t=framesOfCall call++s.chat.server.calls t)
    (hacc : ∀ y, (s.chat.server.cores y).pipe.accepted<+:(server.cores y).pipe.accepted) :
    Ordered e { s with chat := s.chat.proceed t c pc server } := by
  refine h.move (t:=t) (fun u hu => Function.update_of_ne hu _ _) hother rfl hacc ?_
  intro d hd
  simp only [State.proceed,Function.update_self] at hd
  cases hd
  obtain ⟨rest,hbody⟩ := h.at_body hchat hin
  have hserves := h.serves t c hchat
  rw [hbody] at hserves hcalls
  have hafter := hserves.advance ha (nodup_accountSessions hi) (c.record.after s.chat.server c.pc)
  rw [← hcalls] at hafter
  exact hafter

omit [DecidableEq T] [Fintype T] in
/-- The handler calls `send` or `disconnect`. -/
theorem advance_entry {server : Server.State T S} {o : Outcome S} {x y : S} {pkt : ReqChat}
    {pc pc' : At S} {entry : Entry} (ha : Chat.advance e server o x pkt pc=some (pc',some (y,entry))) :
    entry=.disconnect ∨ ∃ b, entry=.send b := by
  cases pc with
  | start =>
    simp only [Chat.advance,Option.some.injEq] at ha
    unfold handleReqChat at ha
    repeat' split at ha
    all_goals cases ha
    exact Or.inl rfl
  | reply ack =>
    cases ha
    exact Or.inr ⟨_,rfl⟩
  | _ =>
    simp only [Chat.advance] at ha
    repeat' split at ha
    all_goals cases ha
    all_goals exact Or.inr ⟨_,rfl⟩

theorem Ordered.step (h : Ordered e s) (hi : Server.Inv s.chat.server) {a : Action T S}
    (hrun : Trace.step e s a=some s') : Ordered e s' := by
  obtain ⟨chat,hstep,rfl⟩ := Option.map_eq_some_iff.mp hrun
  cases step_move hstep with
  | server a server hin hs => exact h.server hi hin hs
  | start t pkt x rest server hcalls hcon hs => exact h.start hi hcalls hcon hs rfl rfl rfl
  | pass t c o pc hchat hin ha =>
    exact h.proceed hi hchat hin ha (fun _ _ => rfl) rfl fun _ => List.prefix_rfl
  | call t c o pc x entry server hchat hin ha hs =>
    refine h.proceed hi hchat hin ha (fun u hu => calls_of_ne hs hu) ?_ (step_accepted hs)
    obtain ⟨core,fs,hx,hcalls⟩ := enter_calls hs
    rw [hcalls]
    obtain rfl|⟨b,rfl⟩ := advance_entry ha
    · cases hx
      rfl
    · cases hx
      rfl
  | finish t c server hchat hin hends hs =>
    refine h.move (t:=t) (fun u hu => Function.update_of_ne hu _ _) (fun u hu => calls_of_ne hs hu) rfl
      (step_accepted hs) ?_
    intro d hd
    simp only [Function.update_self] at hd
    cases hd
  | ackChat ack hack => exact ⟨h.serves,h.before,h.order,h.content,h.enqueued,h.queued⟩

/-- The server of the chat is a server. -/
theorem Trace.server_inv (hc : ∀ str, str≠[] → e.codec.multiByteToWideChar str≠[]) {a : Action T S}
    (hi : Server.Inv s.chat.server) (hok : s.Ok a) (hrun : Trace.step e s a=some s') :
    Server.Inv s'.chat.server := by
  have hchat : ∀ chat, (s.after chat a).chat=chat := by
    intro chat
    cases a <;> simp only [Trace.after]
    all_goals split <;> rfl
  obtain ⟨chat,hstep,rfl⟩ := Option.map_eq_some_iff.mp hrun
  rw [hchat]
  cases step_move hstep with
  | server a server hin hs =>
    rw [afterServer_server]
    exact hi.step hc hok hs
  | start t pkt x rest server hcalls hcon hs => exact hi.step hc (a:=.run t true .wait) trivial hs
  | pass t c o pc hchat hin ha => exact hi
  | call t c o pc x entry server hchat hin ha hs =>
    refine hi.step hc ?_ hs
    obtain rfl|⟨b,rfl⟩ := advance_entry ha
    · trivial
    · trivial
  | finish t c server hchat hin hends hs => exact hi.step hc (a:=.run t true .wait) trivial hs
  | ackChat ack hack => exact hi

end Runs

/-- In every run, whoever disconnects: the messages of one session are queued in the order of its
requests, those of one request at most once for each session, each with the text of its request; and
the queue of every session takes them in this order. -/
theorem chat_keeps_order [DecidableEq S] [DecidableEq T] [Fintype T] (e : Env)
    (hc : ∀ str, str≠[] → e.codec.multiByteToWideChar str≠[]) (maxSessionCount : Int) (s : Trace T S)
    (h : Reaches (Trace.step e) Trace.Ok (Trace.init maxSessionCount) s) :
    s.posted.Pairwise Post.Before ∧
    (∀ p∈s.posted, ∃ pkt, (s.requests p.sender)[p.number]?=some pkt ∧ IsMessage e pkt p.sendBuffer) ∧
    ∀ y, ((s.posted.filter fun p => p.target=y).map Post.sendBuffer).Sublist
      (s.chat.server.cores y).pipe.accepted := by
  have hserver : ∀ {x : Trace T S}, Reaches (Trace.step e) Trace.Ok (Trace.init maxSessionCount) x →
      Server.Inv x.chat.server := by
    intro x hx
    exact hx.invariant (Server.inv_init maxSessionCount)
      (P:=fun x => Server.Inv x.chat.server) fun _ _ _ hi hok hs => Trace.server_inv hc hi hok hs
  have hordered : Ordered e s :=
    h.invariant_of (Q:=fun x => Server.Inv x.chat.server) (fun _ hx => hserver hx)
      (ordered_init maxSessionCount) fun _ _ _ hi hx _ hs => hx.step hi hs
  refine ⟨hordered.order,hordered.content,?_⟩
  intro y
  have hqueued := hordered.queued y
  rw [← hordered.enqueued,List.filter_map,List.map_map] at hqueued
  exact hqueued

/-- A test for `Ok` that can be run. -/
def Trace.admissible (s : Trace Unit Bool) : Action Unit Bool → Bool
  | .server a => Server.admissible s.chat.server a
  | _ => true

theorem Trace.ok_of_admissible (s : Trace Unit Bool) (a : Action Unit Bool) (h : s.admissible a) :
    s.Ok a := by
  cases a with
  | server a => exact admission_of_admissible s.chat.server a h
  | _ => trivial

/-- A chat of session `false` to room 3, where both sessions are. -/
def chatOnce : List (Action Unit Bool) :=
  receive false .other++[Action.start () ⟨[1],.normal,3,[]⟩]++chats 8++runs 2++chats 1++runs 2++
    chats 5++runs 2++[Action.finish ()]++runs 1

/-- Session `false` chats twice, and both sessions get both messages. -/
theorem chat_keeps_order_twice :
    ∃ s : Trace Unit Bool, Reaches (Trace.step plainChat) Trace.Ok (Trace.init 10) s ∧
      s.posted.map (fun p => (p.sender,p.number,p.target))=
        [(false,0,true),(false,0,false),(false,1,true),(false,1,false)] ∧
      s.posted.Pairwise Post.Before := by
  have hrun : (runActions (fun (s : Trace Unit Bool) a =>
        if s.admissible a then Trace.step plainChat s a else none) (Trace.init 10)
      (logIn false++logIn true++enterRoomThree false++enterRoomThree true++chatOnce++chatOnce)).map
      (fun s => s.posted.map fun p => (p.sender,p.number,p.target))=
      some [(false,0,true),(false,0,false),(false,1,true),(false,1,false)] := by decide +kernel
  obtain ⟨s,hs,hposted⟩ := Option.map_eq_some_iff.mp hrun
  have hreach := Reaches.of_guarded Trace.ok_of_admissible _ hs
  exact ⟨s,hreach,hposted,(chat_keeps_order plainChat Game.ascii_nonempty 10 s hreach).1⟩

end IocpServer.Server.Chat
