import IocpServer.Game.Consistency
import IocpServer.NetWork.Cleanup

namespace IocpServer.Server

open NetWork (SendBuffer)
open NetWork.Lifecycle
open Game (Codec Ack Request)

/-- A parsed packet: a request that changes login, rooms or registries, or one of those whose
handlers only read and send (chat, room info, pong). -/
inductive Packet where
  | request (pkt : Request)
  | other

/-- The text conversion and the packets as they are sent. -/
structure Env where
  codec : Codec
  makeSendBuffer : Ack → SendBuffer
  makeServerFullNotice : Int → SendBuffer

/-- All sessions: the game state, the connections and, for each thread, its calls into sessions,
innermost first. -/
structure State (T S : Type) where
  game : Game.State S
  cores : S → Core Packet
  calls : T → List (S×Frame Packet)

def State.init {T S : Type} (maxSessionCount : Int) : State T S :=
  ⟨Game.State.init maxSessionCount,fun _ => Core.init,fun _ => []⟩

/-- `run` is the next step of a thread, with the outcome of the system call it makes and what
`on_recv` finds; `enter` is a call of a session, a completion or a job that a thread takes. -/
inductive Action (T S : Type) where
  | run (t : T) (ok : Bool) (recv : Recv Packet)
  | enter (t : T) (x : S) (entry : Entry)

variable {T S : Type} [DecidableEq S]

/-- What the next operation of the running job asks of the session. -/
def bodyOf (e : Env) : Option Game.Out → Body
  | some (.send pkt) => .send (e.makeSendBuffer pkt)
  | some .disconnect => .disconnect
  | _ => .next

/-- The part of a step that belongs to the game: the new game state, the answer of `add_session` and
what the running job does. -/
def gameStep (e : Env) (g : Game.State S) (x : S) (isConnect : Bool) :
    Frame Packet → Game.State S×Option Bool×Body
  | .addSession =>
    match g.manager.addSession x with
    | none => (g,none,.done)
    | some (added,manager) => ({ g with manager := manager },some added,.done)
  | .processConnect | .rejectStore => (g.connect x,none,.done)
  | .countConnect | .rejectCount => (g.countConnect x,none,.done)
  | .job (.packet (.request pkt)) => (if isConnect then g.startHandler x pkt else g,none,.done)
  | .job .cleanup => (g.startCleanup x,none,.done)
  | .body _ =>
    match (g.sessions x).todo with
    | [] => (g,none,.done)
    | op::rest =>
      let r := Game.advance e.codec g x op rest
      (r.1,none,bodyOf e r.2)
  | _ => (g,none,.done)

def State.choice (s : State T S) (e : Env) (x : S) (f : Frame Packet) (ok : Bool)
    (recv : Recv Packet) : Choice Packet :=
  let r := gameStep e s.game x (s.cores x).pipe.isConnect f
  ⟨ok,recv,r.2.1,some (e.makeServerFullNotice s.game.manager.maxSessionCount),r.2.2⟩

/-- Completions, jobs, admissions and shutdowns are taken by a thread that is in no session; sends
and disconnects come from such a thread (heartbeat) or from a job (broadcasts of a chat). -/
def canEnter (stack : List (S×Frame Packet)) : Entry → Bool
  | .send _ | .disconnect =>
    match stack with
    | [] | (_,.body _)::_ => true
    | _ => false
  | _ => stack.isEmpty

variable [DecidableEq T]

def State.move (s : State T S) (game : Game.State S) (x : S) (core : Core Packet) (t : T)
    (stack : List (S×Frame Packet)) : State T S :=
  ⟨game,Function.update s.cores x core,Function.update s.calls t stack⟩

def step (e : Env) (s : State T S) : Action T S → Option (State T S)
  | .run t ok recv =>
    match s.calls t with
    | [] => none
    | (x,f)::rest =>
      (exec (s.cores x) (s.choice e x f ok recv) f).map fun r =>
        s.move (gameStep e s.game x (s.cores x).pipe.isConnect f).1 x r.1 t
          (Stacks.on x r.2++rest)
  | .enter t x entry =>
    if canEnter (s.calls t) entry then
      (enter (s.cores x) entry).map fun r => s.move s.game x r.1 t (Stacks.on x r.2++s.calls t)
    else none

/-- The frames after a step were there before it, or the thread continues with them. -/
theorem mem_move {s : State T S} {game : Game.State S} {x y : S} {core : Core Packet} {t u : T}
    {fs : List (Frame Packet)} {rest : List (S×Frame Packet)} {f : Frame Packet}
    (hrest : ∀ p∈rest, p∈s.calls t) (h : (y,f)∈(s.move game x core t (Stacks.on x fs++rest)).calls u) :
    (y,f)∈s.calls u ∨ u=t ∧ f∈fs := by
  simp only [State.move] at h
  by_cases hu : u=t
  · subst hu
    rw [Function.update_self,List.mem_append] at h
    rcases h with h|h
    · obtain ⟨g,hg,heq⟩ := List.mem_map.mp h
      cases heq
      exact Or.inr ⟨rfl,hg⟩
    · exact Or.inl (hrest _ h)
  · rw [Function.update_of_ne hu] at h
    exact Or.inl h

/-- A thread takes its next step in session `x`. -/
theorem step_run {e : Env} {s s' : State T S} {t : T} {ok : Bool} {recv : Recv Packet}
    (h : step e s (.run t ok recv)=some s') :
    ∃ x f rest c fs, s.calls t=(x,f)::rest ∧
      exec (s.cores x) (s.choice e x f ok recv) f=some (c,fs) ∧
      s'=s.move (gameStep e s.game x (s.cores x).pipe.isConnect f).1 x c t (Stacks.on x fs++rest) := by
  simp only [step] at h
  split at h
  · cases h
  · rename_i x f rest hcalls
    obtain ⟨⟨c,fs⟩,hx,hs⟩ := Option.map_eq_some_iff.mp h
    exact ⟨x,f,rest,c,fs,hcalls,hx,hs.symm⟩

theorem step_enter {e : Env} {s s' : State T S} {t : T} {x : S} {entry : Entry}
    (h : step e s (.enter t x entry)=some s') :
    ∃ c fs, canEnter (s.calls t) entry ∧ enter (s.cores x) entry=some (c,fs) ∧
      s'=s.move s.game x c t (Stacks.on x fs++s.calls t) := by
  simp only [step] at h
  split at h
  · rename_i hcan
    obtain ⟨⟨c,fs⟩,hx,hs⟩ := Option.map_eq_some_iff.mp h
    exact ⟨c,fs,hcan,hx,hs.symm⟩
  · cases h

variable [Fintype T]

/-- One session of the server seen alone. -/
def State.view (s : State T S) (x : S) : Local Packet := ⟨s.cores x,Stacks.pending s.calls x⟩

omit [DecidableEq T] in
theorem view_init (maxSessionCount : Int) (x : S) :
    (State.init maxSessionCount : State T S).view x=⟨Core.init,0⟩ := by
  simp [State.view,State.init,Stacks.pending]

/-- A step in session `x` is a step of `x` seen alone and leaves the other sessions alone. -/
theorem view_replace {s : State T S} {g : Game.State S} {x : S} {f : Frame Packet}
    {rest : List (S×Frame Packet)} {t : T} (ht : s.calls t=(x,f)::rest) (c : Core Packet)
    (fs : List (Frame Packet)) :
    (∃ m, s.view x=⟨s.cores x,f::ₘm⟩ ∧
      (s.move g x c t (Stacks.on x fs++rest)).view x=⟨c,beside fs m⟩) ∧
    ∀ y, y≠x → (s.move g x c t (Stacks.on x fs++rest)).view y=s.view y := by
  constructor
  · obtain ⟨m,hm,hm'⟩ := Stacks.pending_replace ht fs
    refine ⟨m,?_,?_⟩
    · rw [State.view,hm]
    · simp only [State.view,State.move,Function.update_self,hm',beside]
  · intro y hy
    simp only [State.view,State.move,Function.update_of_ne hy]
    rw [Stacks.pending_same]
    rw [Stacks.framesOf_append,Stacks.framesOf_on_of_ne (Ne.symm hy),ht,
      Stacks.framesOf_cons_of_ne (Ne.symm hy),List.nil_append]

theorem view_push {s : State T S} {g : Game.State S} {x : S} {t : T} (c : Core Packet)
    (fs : List (Frame Packet)) :
    (s.move g x c t (Stacks.on x fs++s.calls t)).view x=⟨c,beside fs (Stacks.pending s.calls x)⟩ ∧
    ∀ y, y≠x → (s.move g x c t (Stacks.on x fs++s.calls t)).view y=s.view y := by
  constructor
  · simp only [State.view,State.move,Function.update_self,Stacks.pending_push,beside]
  · intro y hy
    simp only [State.view,State.move,Function.update_of_ne hy]
    rw [Stacks.pending_same]
    rw [Stacks.framesOf_append,Stacks.framesOf_on_of_ne (Ne.symm hy),List.nil_append]

/-- What one step of the server means for one session, if calls meet `ok`. -/
theorem step_view {e : Env} {s s' : State T S} {a : Action T S} {ok : Local Packet → Entry → Prop}
    (hok : ∀ t x entry, a=.enter t x entry → ok (s.view x) entry) (h : step e s a=some s') (y : S) :
    s'.view y=s.view y ∨ Step ok (s.view y) (s'.view y) := by
  cases a with
  | run t b recv =>
    obtain ⟨x,f,rest,c,fs,hcalls,hx,rfl⟩ := step_run h
    obtain ⟨⟨m,hm,hm'⟩,hother⟩ :=
      view_replace (g:=(gameStep e s.game x (s.cores x).pipe.isConnect f).1) hcalls c fs
    by_cases hy : y=x
    · subst hy
      rw [hm,hm']
      exact Or.inr (.fire _ m hx)
    · exact Or.inl (hother y hy)
  | enter t x entry =>
    obtain ⟨c,fs,-,hx,rfl⟩ := step_enter h
    obtain ⟨hself,hother⟩ := view_push (s:=s) (g:=s.game) (x:=x) (t:=t) c fs
    by_cases hy : y=x
    · subst hy
      rw [hself]
      exact Or.inr (.enter (hok t y entry rfl) hx)
    · exact Or.inl (hother y hy)

/-- What each session keeps in its own steps, in the calls it gets and in the steps of the others
holds of all of them after a step of the server. -/
theorem sessions_step {e : Env} {s s' : State T S} {a : Action T S}
    {P : Game.State S → S → Local Packet → Prop} {ok : Local Packet → Entry → Prop}
    (hok : ∀ t x entry, a=.enter t x entry → ok (s.view x) entry) (hs : step e s a=some s')
    (h : ∀ x, P s.game x (s.view x))
    (hfire : ∀ x c m o f c' fs, P s.game x ⟨c,f::ₘm⟩ → exec c o f=some (c',fs) →
      o.admission=(gameStep e s.game x c.pipe.isConnect f).2.1 →
      o.body=(gameStep e s.game x c.pipe.isConnect f).2.2 →
      P (gameStep e s.game x c.pipe.isConnect f).1 x ⟨c',beside fs m⟩)
    (henter : ∀ x c m entry c' fs, P s.game x ⟨c,m⟩ → ok ⟨c,m⟩ entry →
      enter c entry=some (c',fs) → P s.game x ⟨c',beside fs m⟩)
    (hother : ∀ x y isConnect f, y≠x → P s.game y (s.view y) →
      P (gameStep e s.game x isConnect f).1 y (s.view y)) :
    ∀ x, P s'.game x (s'.view x) := by
  intro y
  cases a with
  | run t b recv =>
    obtain ⟨x,f,rest,c,fs,hcalls,hx,rfl⟩ := step_run hs
    obtain ⟨⟨m,hm,hm'⟩,hview⟩ :=
      view_replace (g:=(gameStep e s.game x (s.cores x).pipe.isConnect f).1) hcalls c fs
    by_cases hy : y=x
    · subst hy
      have hpre := h y
      rw [hm] at hpre
      rw [hm']
      exact hfire y _ m _ f c fs hpre hx rfl rfl
    · rw [hview y hy]
      exact hother x y _ f hy (h y)
  | enter t x entry =>
    obtain ⟨c,fs,-,hx,rfl⟩ := step_enter hs
    obtain ⟨hself,hview⟩ := view_push (s:=s) (g:=s.game) (x:=x) (t:=t) c fs
    by_cases hy : y=x
    · subst hy
      rw [hself]
      exact henter y _ _ entry c fs (h y) (hok t y entry rfl) hx
    · rw [hview y hy]
      exact h y

end IocpServer.Server
