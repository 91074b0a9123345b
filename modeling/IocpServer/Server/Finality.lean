import IocpServer.Game.Counters
import IocpServer.NetWork.Quiescence
import IocpServer.Server.Sessions

namespace IocpServer.Server

open NetWork (SendBuffer SessionManager)
open NetWork.Lifecycle
open Game (Codec Ack Request Leaving)

/-- A job of the session is inside its handler or its cleanup. -/
def bodies : Frame Packet → Nat
  | .body _ => 1
  | _ => 0

def cleanupBodies : Frame Packet → Nat
  | .body true => 1
  | _ => 0

theorem bodies_le (m : Multiset (Frame Packet)) : tok bodies m ≤ tok Frame.working m := by
  apply tok_mono
  intro f
  cases f <;> simp [bodies,Frame.working]

theorem cleanupBodies_le (m : Multiset (Frame Packet)) :
    tok cleanupBodies m ≤ tok Frame.cleaning m := by
  apply tok_mono
  intro f
  cases f with
  | body cleanup => cases cleanup <;> simp [cleanupBodies,Frame.cleaning]
  | _ => simp [cleanupBodies]

variable {T S : Type} [DecidableEq S]

/-- What a step of another session leaves alone. -/
structure Untouched (g g' : Game.State S) (y : S) : Prop where
  sessions : g'.sessions y=g.sessions y
  listed : y∈g'.manager.sessions ↔ y∈g.manager.sessions
  arrived : y∈g'.stats.arrived ↔ y∈g.stats.arrived
  departed : y∈g'.stats.departed ↔ y∈g.stats.departed

omit [DecidableEq S] in
theorem Untouched.refl (g : Game.State S) (y : S) : Untouched g g y := ⟨rfl,Iff.rfl,Iff.rfl,Iff.rfl⟩

theorem gameStep_other (e : Env) (g : Game.State S) {x y : S} (hy : y≠x) (isConnect : Bool)
    (f : Frame Packet) : Untouched g (gameStep e g x isConnect f).1 y := by
  cases f with
  | addSession =>
    simp only [gameStep]
    split
    · exact Untouched.refl g y
    · rename_i b m hm
      exact ⟨rfl,by rw [SessionManager.mem_addSession hm,or_iff_right hy],Iff.rfl,Iff.rfl⟩
  | body cleanup =>
    simp only [gameStep]
    split
    · exact Untouched.refl g y
    · rename_i op rest _
      obtain ⟨-,-,-,harr,hdep,-⟩ := Game.exec_counters e.codec g x op
      refine ⟨Game.advance_sessions_of_ne _ _ hy _ _,?_,?_,?_⟩
      · rw [Game.advance_listed]
        simp [hy]
      · simp only [Game.advance,Game.State.setSession,harr]
      · simp only [Game.advance,Game.State.setSession,hdep]
        split <;> simp [hy]
  | job j =>
    cases j with
    | packet pkt =>
      cases pkt with
      | request pkt =>
        simp only [gameStep]
        split
        · exact ⟨by simp [Game.State.startHandler,Game.State.setSession,hy],Iff.rfl,Iff.rfl,Iff.rfl⟩
        · exact Untouched.refl g y
      | other => exact Untouched.refl g y
    | cleanup =>
      exact ⟨by simp [gameStep,Game.State.startCleanup,Game.State.setSession,hy],Iff.rfl,Iff.rfl,
        Iff.rfl⟩
  | processConnect | rejectStore =>
    exact ⟨by simp [gameStep,Game.State.connect,Game.State.setSession,hy],Iff.rfl,Iff.rfl,Iff.rfl⟩
  | countConnect | rejectCount =>
    exact ⟨rfl,Iff.rfl,by simp [gameStep,Game.State.countConnect,hy],Iff.rfl⟩
  | _ => exact Untouched.refl g y

/-- The game part of a step is a step of the game, if a job starts in a session that is idle and a
handler in one that was connected. -/
theorem gameStep_step (e : Env) (g : Game.State S) (x : S) (isConnect : Bool) (f : Frame Packet)
    (hjob : ∀ j, f=.job j → (g.sessions x).todo=[])
    (hpacket : ∀ pkt, f=.job (.packet pkt) → (g.sessions x).wasConnected) :
    (gameStep e g x isConnect f).1=g ∨
      ∃ a, Game.step e.codec g a=some (gameStep e g x isConnect f).1 := by
  cases f with
  | addSession =>
    simp only [gameStep]
    split
    · exact Or.inl rfl
    · rename_i b m hm
      exact Or.inr ⟨.addSession x,by simp [Game.step,hm]⟩
  | processConnect | rejectStore => exact Or.inr ⟨.connect x,rfl⟩
  | countConnect | rejectCount => exact Or.inr ⟨.countConnect x,rfl⟩
  | body cleanup =>
    simp only [gameStep]
    split
    · exact Or.inl rfl
    · rename_i op rest htodo
      exact Or.inr ⟨.advance x,by simp [Game.step,htodo]⟩
  | job j =>
    have hidle := hjob j rfl
    cases j with
    | packet pkt =>
      have hcon := hpacket pkt rfl
      cases pkt with
      | request pkt =>
        simp only [gameStep]
        split
        · exact Or.inr ⟨.handle x pkt,by simp [Game.step,hidle,hcon]⟩
        · exact Or.inl rfl
      | other => exact Or.inl rfl
    | cleanup => exact Or.inr ⟨.cleanup x,by simp [Game.step,hidle,gameStep]⟩
  | _ => exact Or.inl rfl

/-- What connects the connection of session `x` with its part of the game. -/
structure Linked (g : Game.State S) (x : S) (l : Local Packet) : Prop where
  account : Account l
  welcome : Welcome l
  idle : tok bodies l.frames=0 → (g.sessions x).todo=[]
  connected : l.core.welcomed → (g.sessions x).wasConnected
  leaving : 0<tok cleanupBodies l.frames+l.core.ran → Leaving g x

omit [DecidableEq S] in
theorem linked_init (maxSessionCount : Int) (x : S) :
    Linked (Game.State.init maxSessionCount) x ⟨Core.init,0⟩ := by
  refine ⟨Account.init,Welcome.init,fun _ => rfl,nofun,?_⟩
  intro h
  simp [Core.init,tok] at h

omit [DecidableEq S] in
theorem Linked.congr {g g' : Game.State S} {x : S} {l : Local Packet} (h : Linked g x l)
    (hu : Untouched g g' x) : Linked g' x l := by
  refine ⟨h.account,h.welcome,?_,?_,?_⟩
  · rw [hu.sessions]
    exact h.idle
  · rw [hu.sessions]
    exact h.connected
  · intro hpos
    exact (h.leaving hpos).congr hu.sessions hu.listed.mp

section

omit [DecidableEq S]

variable {g : Game.State S} {x : S} {c : Core Packet} {f : Frame Packet} {m : Multiset (Frame Packet)}

/-- A job about to start finds the session idle. -/
theorem Linked.job_idle {j : Job Packet} (h : Linked g x ⟨c,.job j::ₘm⟩) :
    (g.sessions x).todo=[] := by
  have hrun := h.account.running
  have hone := Bool.toNat_le c.running
  have hle := bodies_le m
  simp only [tok_cons,Frame.working] at hrun
  apply h.idle
  simp only [tok_cons,bodies]
  omega

/-- Its handler runs in a session that was connected. -/
theorem Linked.job_connected {pkt : Packet} (h : Linked g x ⟨c,.job (.packet pkt)::ₘm⟩) :
    (g.sessions x).wasConnected := by
  apply h.connected
  apply h.welcome
  simp [Frame.receives]

/-- A session that is being admitted has no cleanup. -/
theorem Linked.fresh_alive (h : Linked g x ⟨c,f::ₘm⟩) (hf : f.fresh=1) :
    tok cleanupBodies m+c.ran=0 := by
  have hq := (h.account.of_fresh (by simp only [tok_cons]; omega)).2.2.2.2
  have hr := h.account.ran
  have hle := cleanupBodies_le m
  simp only [tok_cons] at hq hr
  omega

end

section

variable {e : Env} {g : Game.State S} {x : S} {c c' : Core Packet} {o : Choice Packet}
  {fs : List (Frame Packet)} {m : Multiset (Frame Packet)}

/-- The running job executes one operation of its `todo`, or it ends. -/
theorem Linked.body {cleanup : Bool} (h : Linked g x ⟨c,.body cleanup::ₘm⟩)
    (hx : exec c o (.body cleanup)=some (c',fs))
    (hbody : o.body=(gameStep e g x c.pipe.isConnect (.body cleanup)).2.2)
    (hacc : Account ⟨c',beside fs m⟩) (hwel : Welcome ⟨c',beside fs m⟩) :
    Linked (gameStep e g x c.pipe.isConnect (.body cleanup)).1 x ⟨c',beside fs m⟩ := by
  have hleave := h.leaving
  simp only [tok_cons] at hleave
  simp only [gameStep] at hbody ⊢
  cases htodo : (g.sessions x).todo with
  | nil =>
    simp only [htodo] at hbody ⊢
    simp only [exec,hbody] at hx
    cases hx
    refine ⟨hacc,hwel,fun _ => htodo,h.connected,?_⟩
    intro hpos
    apply hleave
    cases cleanup with
    | false => simpa [cleanupBodies] using hpos
    | true =>
      simp only [cleanupBodies]
      omega
  | cons op rest =>
    simp only [htodo] at hbody ⊢
    have hstay : c'=c ∧ bodies (.body cleanup) ≤ (fs.map bodies).sum ∧
        (fs.map cleanupBodies).sum=cleanupBodies (.body cleanup) := by
      unfold bodyOf at hbody
      split at hbody <;> simp only [exec,hbody] at hx <;> cases hx <;>
        simp [bodies,cleanupBodies,disconnect]
    obtain ⟨rfl,hb,hcl⟩ := hstay
    refine ⟨hacc,hwel,?_,?_,?_⟩
    · intro hzero
      simp only [tok_beside,bodies] at hzero hb
      omega
    · rw [Game.advance_sessions_self]
      intro hw
      exact (Game.exec_counters e.codec g x op).2.1.trans (h.connected hw)
    · intro hpos
      simp only [tok_beside,hcl] at hpos
      exact (hleave hpos).advance htodo e.codec

/-- A job starts: a handler if the session is connected, or the cleanup. -/
theorem Linked.job {j : Job Packet} (h : Linked g x ⟨c,.job j::ₘm⟩) (hg : Game.Inv g)
    (hx : exec c o (.job j)=some (c',fs)) (hacc : Account ⟨c',beside fs m⟩)
    (hwel : Welcome ⟨c',beside fs m⟩) :
    Linked (gameStep e g x c.pipe.isConnect (.job j)).1 x ⟨c',beside fs m⟩ := by
  have hidle := h.job_idle
  have hleave := h.leaving
  simp only [tok_cons,cleanupBodies] at hleave
  cases j with
  | cleanup =>
    cases hx
    refine ⟨hacc,hwel,?_,?_,fun _ => hg.leaving hidle⟩
    · intro hzero
      simp [bodies] at hzero
    · simpa [gameStep,Game.State.startCleanup,Game.State.setSession] using h.connected
  | packet pkt =>
    simp only [exec] at hx
    cases hx
    cases hcon : c.pipe.isConnect with
    | false =>
      have hsame : (gameStep e g x false (.job (.packet pkt))).1=g := by
        cases pkt <;> rfl
      rw [hsame]
      simp only [hcon] at hacc hwel ⊢
      refine ⟨hacc,hwel,fun _ => hidle,h.connected,?_⟩
      intro hpos
      exact hleave (by simpa [cleanupBodies] using hpos)
    | true =>
      simp only [hcon] at hacc hwel ⊢
      have hran := (h.account.of_connect hcon).2
      have hclean : tok cleanupBodies m=0 := by
        have hrun := h.account.running
        have hone := Bool.toNat_le c.running
        have hle := cleaning_add_handling_le m
        have hle' := cleanupBodies_le m
        simp only [tok_cons,Frame.working] at hrun
        omega
      refine ⟨hacc,hwel,?_,?_,?_⟩
      · intro hzero
        simp [bodies] at hzero
      · cases pkt with
        | request pkt =>
          simpa [gameStep,Game.State.startHandler,Game.State.setSession] using h.connected
        | other => exact h.connected
      · intro hpos
        simp [cleanupBodies,hclean] at hpos hran
        omega

/-- A frame outside the jobs neither enters nor leaves one. -/
theorem exec_outside {f : Frame Packet} (hx : exec c o f=some (c',fs)) (hb : ∀ b, f≠.body b)
    (hj : ∀ j, f≠.job j) :
    (fs.map bodies).sum=0 ∧ (fs.map cleanupBodies).sum=0 ∧ bodies f=0 ∧ cleanupBodies f=0 ∧
      c'.ran=c.ran ∧ (f≠.processConnect → c'.welcomed=c.welcomed) := by
  cases exec_move hx with
  | done | next | send | disconnect => exact absurd rfl (hb _)
  | handle | drop | cleanup => exact absurd rfl (hj _)
  | pipe ok pc p pc' =>
    obtain ⟨n,b,heq⟩ := pipeEffect_eq c ok pc p
    rw [heq]
    exact ⟨sum_pipeNext (fun _ => rfl) rfl pc pc',sum_pipeNext (fun _ => rfl) rfl pc pc',
      rfl,rfl,rfl,fun _ => rfl⟩
  | processConnect => exact ⟨rfl,rfl,rfl,rfl,rfl,fun hne => absurd rfl hne⟩
  | _ => exact ⟨rfl,rfl,rfl,rfl,rfl,fun _ => rfl⟩

/-- What a frame outside admission and jobs does to the game. -/
theorem gameStep_outside (e : Env) (g : Game.State S) (x : S) (isConnect : Bool) {f : Frame Packet}
    (hb : ∀ b, f≠.body b) (hj : ∀ j, f≠.job j) (ha : f≠.addSession) :
    ((gameStep e g x isConnect f).1.sessions x).todo=(g.sessions x).todo ∧
      ((g.sessions x).wasConnected ∨ f=.processConnect →
        ((gameStep e g x isConnect f).1.sessions x).wasConnected) ∧
      (Leaving g x → Leaving (gameStep e g x isConnect f).1 x) := by
  cases f with
  | body b => exact absurd rfl (hb b)
  | job j => exact absurd rfl (hj j)
  | addSession => exact absurd rfl ha
  | processConnect | rejectStore =>
    refine ⟨?_,?_,fun hl => hl.connect⟩
    · simp [gameStep,Game.State.connect,Game.State.setSession]
    · intro _
      simp [gameStep,Game.State.connect,Game.State.setSession]
  | countConnect | rejectCount =>
    exact ⟨rfl,fun hw => hw.resolve_right (by simp),fun hl => hl.congr rfl id⟩
  | _ => exact ⟨rfl,fun hw => hw.resolve_right (by simp),id⟩

theorem Linked.outside {f : Frame Packet} (h : Linked g x ⟨c,f::ₘm⟩)
    (hx : exec c o f=some (c',fs)) (hb : ∀ b, f≠.body b) (hj : ∀ j, f≠.job j) (ha : f≠.addSession)
    (hacc : Account ⟨c',beside fs m⟩) (hwel : Welcome ⟨c',beside fs m⟩) :
    Linked (gameStep e g x c.pipe.isConnect f).1 x ⟨c',beside fs m⟩ := by
  obtain ⟨hsum,hcsum,hfb,hfcb,hran,hwas⟩ := exec_outside hx hb hj
  obtain ⟨htodo,hcon,hstay⟩ := gameStep_outside e g x c.pipe.isConnect hb hj ha
  have hidle := h.idle
  have hleave := h.leaving
  simp only [tok_cons,hfb,hfcb,Nat.zero_add] at hidle hleave
  refine ⟨hacc,hwel,?_,?_,?_⟩
  · simp only [tok_beside,hsum,Nat.zero_add]
    intro hzero
    exact htodo.trans (hidle hzero)
  · intro hw
    apply hcon
    by_cases hf : f=.processConnect
    · exact Or.inr hf
    · exact Or.inl (h.connected ((hwas hf).symm.trans hw))
  · simp only [tok_beside,hcsum,hran,Nat.zero_add]
    intro hpos
    exact hstay (hleave hpos)

/-- Every step of a thread in session `x` keeps the link. -/
theorem Linked.fire {f : Frame Packet} (h : Linked g x ⟨c,f::ₘm⟩) (hg : Game.Inv g)
    (hx : exec c o f=some (c',fs)) (hbody : o.body=(gameStep e g x c.pipe.isConnect f).2.2) :
    Linked (gameStep e g x c.pipe.isConnect f).1 x ⟨c',beside fs m⟩ := by
  have hacc := h.account.fire hx
  have hwel := h.welcome.step (Step.fire o m hx : Step Allowed _ _)
  cases f with
  | body cleanup => exact h.body hx hbody hacc hwel
  | job j => exact h.job hg hx hacc hwel
  | addSession =>
    obtain ⟨hb,hcb,hfb,-,hran,hwas⟩ := exec_outside hx (by simp) (by simp)
    have halive := h.fresh_alive rfl
    have hses : (gameStep e g x c.pipe.isConnect .addSession).1.sessions x=g.sessions x := by
      simp only [gameStep]
      split <;> rfl
    have hidle := h.idle
    simp only [tok_cons,hfb,Nat.zero_add] at hidle
    refine ⟨hacc,hwel,?_,?_,?_⟩
    · simp only [tok_beside,hb,Nat.zero_add,hses]
      exact hidle
    · rw [hses,hwas (by simp)]
      exact h.connected
    · simp only [tok_beside,hcb,hran]
      intro hpos
      omega
  | _ => exact h.outside hx (by simp) (by simp) (by simp) hacc hwel

/-- Entering a session starts neither a handler nor a cleanup body. -/
theorem enter_outside {entry : Entry} (hx : enter c entry=some (c',fs)) :
    (fs.map bodies).sum=0 ∧ (fs.map cleanupBodies).sum=0 ∧ c'.ran=c.ran ∧ c'.welcomed=c.welcomed := by
  cases enter_enters hx <;> exact ⟨rfl,rfl,rfl,rfl⟩

omit [DecidableEq S] in
theorem Linked.enter {entry : Entry} (h : Linked g x ⟨c,m⟩) (ha : Allowed ⟨c,m⟩ entry)
    (hx : enter c entry=some (c',fs)) : Linked g x ⟨c',beside fs m⟩ := by
  obtain ⟨hb,hcb,hran,hwas⟩ := enter_outside hx
  refine ⟨h.account.enter ha hx,h.welcome.step (Step.enter ha hx),?_,?_,?_⟩
  · simp only [tok_beside,hb,Nat.zero_add]
    exact h.idle
  · simp only [hwas]
    exact h.connected
  · simp only [tok_beside,hcb,hran,Nat.zero_add]
    exact h.leaving

end

/-- The game stays consistent when a linked session steps. -/
theorem Linked.game {e : Env} (hc : ∀ str, str≠[] → e.codec.multiByteToWideChar str≠[])
    {g : Game.State S} {x : S} {c : Core Packet} {f : Frame Packet} {m : Multiset (Frame Packet)}
    (h : Linked g x ⟨c,f::ₘm⟩) (hg : Game.Inv g) :
    Game.Inv (gameStep e g x c.pipe.isConnect f).1 := by
  rcases gameStep_step e g x c.pipe.isConnect f (by rintro j rfl; exact h.job_idle)
    (by rintro pkt rfl; exact h.job_connected) with hsame|⟨b,hb⟩
  · rw [hsame]
    exact hg
  · exact hg.step hc hb

/-- The game is consistent and every session is linked to its part of it. -/
structure Inv [Fintype T] (s : State T S) : Prop where
  game : Game.Inv s.game
  linked : ∀ x, Linked s.game x (s.view x)

/-- The calls a run may make: a session is offered once and before it is told to shut down, and it is
told to shut down only after its admission. -/
def Admission [Fintype T] (s : State T S) : Action T S → Prop
  | .enter _ x entry => Allowed (s.view x) entry
  | .run _ _ _ => True

theorem inv_init [Fintype T] (maxSessionCount : Int) :
    Inv (State.init maxSessionCount : State T S) := by
  refine ⟨Game.inv_init maxSessionCount,?_⟩
  intro x
  rw [view_init]
  exact linked_init maxSessionCount x

variable [DecidableEq T] [Fintype T]

theorem Inv.step {e : Env} (hc : ∀ str, str≠[] → e.codec.multiByteToWideChar str≠[])
    {s s' : State T S} {a : Action T S} (h : Inv s) (ha : Admission s a)
    (hs : step e s a=some s') : Inv s' := by
  have hok : ∀ t x entry, a=.enter t x entry → Allowed (s.view x) entry := by
    rintro t x entry rfl
    exact ha
  refine ⟨?_,sessions_step hok hs h.linked ?_ ?_ ?_⟩
  · cases a with
    | run t ok recv =>
      obtain ⟨x,f,rest,c,fs,hcalls,hx,rfl⟩ := step_run hs
      obtain ⟨⟨m,hm,-⟩,-⟩ := view_replace (g:=s.game) hcalls c fs
      have hlink := h.linked x
      rw [hm] at hlink
      exact hlink.game hc h.game
    | enter t x entry =>
      obtain ⟨c,fs,-,-,rfl⟩ := step_enter hs
      exact h.game
  · intro x c m o f c' fs hlink hx _ hbody
    exact hlink.fire h.game hx hbody
  · intro x c m entry c' fs hlink hallowed hx
    exact hlink.enter hallowed hx
  · intro x y isConnect f hy hlink
    exact hlink.congr (gameStep_other e s.game hy isConnect f)

theorem reaches_inv {e : Env} (hc : ∀ str, str≠[] → e.codec.multiByteToWideChar str≠[])
    {maxSessionCount : Int} {s : State T S}
    (h : Reaches (step e) Admission (State.init maxSessionCount) s) : Inv s :=
  h.invariant (inv_init maxSessionCount) fun _ _ _ hi ha hs => hi.step hc ha hs

omit [DecidableEq T] [Fintype T] [DecidableEq S] in
theorem ran_mono {l l' : Local Packet} {ok : Local Packet → Entry → Prop} (hs : Step ok l l') :
    l.core.ran ≤ l'.core.ran := by
  cases hs with
  | @fire c c' f fs o m hx =>
    cases exec_move hx with
    | done cleanup =>
      dsimp only
      split
      · exact Nat.le_succ _
      · exact le_rfl
    | pipe ok pc p =>
      obtain ⟨n,b,heq⟩ := pipeEffect_eq c ok pc p
      rw [heq]
    | _ => exact le_rfl
  | enter ha hx => exact (enter_outside hx).2.2.1.ge

theorem reaches_ran_mono {e : Env} {s s' : State T S} (h : Reaches (step e) Admission s s') (x : S) :
    (s.cores x).ran ≤ (s'.cores x).ran := by
  apply h.invariant (P:=fun u => (s.cores x).ran ≤ (u.cores x).ran) (le_refl _)
  intro u a v hu ha hs
  apply le_trans hu
  have hview : v.view x=u.view x ∨ Step Allowed (u.view x) (v.view x) :=
    step_view (by rintro t y entry rfl; exact ha) hs x
  rcases hview with hsame|hstep
  · exact (congrArg (fun l => l.core.ran) hsame).ge
  · exact ran_mono hstep

/-- Nothing of the session is in flight, queued or on a thread. -/
def Quiet (s : State T S) (x : S) : Prop :=
  (s.cores x).receiving=false ∧ (s.cores x).pipe.flight=none ∧
    (s.cores x).pipe.disconnecting=false ∧ (s.cores x).jobs=[] ∧ ∀ t f, (x,f)∉s.calls t

/-- The session is in no registry and no room, its fields are reset, and none of its handlers
runs. -/
def Gone (s : State T S) (x : S) : Prop :=
  x∉s.game.manager.sessions ∧ (∀ a, s.game.manager.accountSessions.lookup a≠some x) ∧
    (∀ n, s.game.manager.nameSessions.lookup n≠some x) ∧ (∀ r a, ¬s.game.rooms.Lists r a x) ∧
    (s.game.sessions x).isLogin=false ∧ (s.game.sessions x).accountIdx=0 ∧
    (s.game.sessions x).userName=[] ∧ (s.game.sessions x).enterRoomId=-1 ∧
    ∀ t, (x,.body false)∉s.calls t

omit [DecidableEq T] in
theorem Quiet.frames {s : State T S} {x : S} (h : Quiet s x) : (s.view x).frames=0 := by
  apply Multiset.eq_zero_of_forall_notMem
  intro f hf
  obtain ⟨t,ht⟩ := Stacks.mem_pending.mp hf
  exact h.2.2.2.2 t f ht

omit [DecidableEq T] [DecidableEq S] [Fintype T] in
theorem bodies_le_add (m : Multiset (Frame Packet)) :
    tok bodies m ≤ tok Frame.cleaning m+tok Frame.handling m := by
  induction m using Multiset.induction with
  | empty => simp [tok]
  | cons f m ih =>
    have hf : bodies f ≤ f.cleaning+f.handling := by
      cases f with
      | body cleanup => cases cleanup <;> simp [bodies,Frame.cleaning,Frame.handling]
      | _ => simp [bodies]
    simp only [tok_cons]
    omega

omit [DecidableEq S] in
/-- A connection that is over and at rest has been cleaned up. -/
theorem Linked.ran_of_rest {g : Game.State S} {x : S} {l : Local Packet} (h : Linked g x l)
    (hhad : l.core.hadConnected) (hcon : l.core.pipe.isConnect=false)
    (hfly : l.core.pipe.disconnecting=false) (hjobs : l.core.jobs=[]) (hframes : l.frames=0) :
    l.core.ran=1 := by
  have hob := h.account.obliged hhad hcon
  have hq := h.account.queued
  have hr := h.account.ran
  rw [hframes] at hob hq hr
  rw [hfly] at hob
  simp only [tok,Multiset.map_zero,Multiset.sum_zero,Bool.toNat_false,Nat.lt_irrefl,or_false] at hob
  rw [hob] at hq
  rw [hjobs] at hr
  simp [tok,cleanups] at hq hr
  omega

omit [DecidableEq S] in
/-- After its cleanup the session is idle and has no handler. -/
theorem Linked.rest_of_ran {g : Game.State S} {x : S} {l : Local Packet} (h : Linked g x l)
    (hpos : 0<l.core.ran) :
    l.core.ran=1 ∧ tok Frame.handling l.frames=0 ∧ (g.sessions x).todo=[] ∧ Leaving g x := by
  have hq := h.account.queued
  have hone := Bool.toNat_le l.core.pipe.isDisconnect
  have hr := h.account.ran
  have hhandling : tok Frame.handling l.frames=0 := by
    have := h.account.handling
    omega
  have hle := bodies_le_add l.frames
  refine ⟨by omega,hhandling,h.idle (by omega),h.leaving (by omega)⟩

/-- The cleanup of a session is queued at most once, it has run once when the connection is over and
nothing of the session is left in motion, and from then on the session is gone for good. -/
theorem cleanup_once_and_final {e : Env} (hc : ∀ str, str≠[] → e.codec.multiByteToWideChar str≠[])
    (maxSessionCount : Int) {s s' : State T S}
    (h : Reaches (step e) Admission (State.init maxSessionCount) s)
    (h' : Reaches (step e) Admission s s') (x : S) :
    (s.cores x).queued ≤ 1 ∧
    ((s.cores x).hadConnected → (s.cores x).pipe.isConnect=false → Quiet s x → (s.cores x).ran=1) ∧
    (0<(s.cores x).ran → (s'.cores x).ran=1 ∧ Gone s' x) := by
  have hlink := (reaches_inv hc h).linked x
  refine ⟨?_,?_,?_⟩
  · have hq := hlink.account.queued
    have hone := Bool.toNat_le (s.view x).core.pipe.isDisconnect
    simp only [State.view] at hq hone
    omega
  · intro hhad hcon hquiet
    exact hlink.ran_of_rest hhad hcon hquiet.2.2.1 hquiet.2.2.2.1 hquiet.frames
  · intro hpos
    have hinv := reaches_inv hc (h.trans h')
    have hran := reaches_ran_mono h' x
    obtain ⟨hone,hhandling,hidle,hleave⟩ := (hinv.linked x).rest_of_ran (lt_of_lt_of_le hpos hran)
    obtain ⟨hout,hacc,hname,hroom,hlogin,h0,hn,hr,-⟩ := hinv.game.gone hleave hidle
    refine ⟨hone,hout,hacc,hname,hroom,hlogin,h0,hn,hr,?_⟩
    intro t ht
    have hmem : Frame.body false∈(s'.view x).frames := Stacks.mem_pending.mpr ⟨t,ht⟩
    have := tok_pos_of_mem hmem (by simp [Frame.handling] : 0<Frame.handling (.body false : Frame Packet))
    omega

def asciiEnv : Env :=
  ⟨Game.ascii,fun _ => SendBuffer.copyData [0],fun _ => SendBuffer.copyData [0]⟩

/-- Steps of thread `t` whose system calls succeed. -/
def steps (n : Nat) (t : Bool) : List (Action Bool Unit) := List.replicate n (.run t true .wait)

/-- Thread `true` is inside the login handler when thread `false` disconnects the session, whose
`DisconnectEx` fails at once; the handler runs to its end and the cleanup follows. -/
def disconnectInHandler : List (Action Bool Unit) :=
  steps 5 false++
  [Action.enter false () (.recvCompleted 8),Action.run false true .wait,
    Action.run false true (.packet (.request (Game.request true)))]++steps 5 false++
  [Action.enter true () .startJob]++steps 2 true++
  [Action.enter false () .disconnect,Action.run false true .wait,Action.run false false .wait]++
  steps 3 false++steps 10 true++[Action.enter true () .startJob]++steps 13 true++
  [Action.enter false () (.recvCompleted 0)]++steps 2 false

/-- An action that is neither an offer nor a shutdown. -/
def Action.isPlain : Action T S → Bool
  | .enter _ _ .offer | .enter _ _ .beginShutdown => false
  | _ => true

omit [DecidableEq T] in
theorem admission_of_isPlain {a : Action T S} (h : a.isPlain) (s : State T S) : Admission s a := by
  cases a with
  | run t ok recv => trivial
  | enter t x entry =>
    cases entry with
    | offer | beginShutdown => cases h
    | _ => trivial

/-- A test for `Admission` that can be run. -/
def admissible (s : State T S) : Action T S → Bool
  | .enter _ x .offer => !(s.cores x).offered && !(s.cores x).closing
  | .enter _ _ .beginShutdown => false
  | _ => true

omit [DecidableEq T] in
theorem admission_of_admissible (s : State T S) (a : Action T S) (h : admissible s a) :
    Admission s a := by
  cases a with
  | run t ok recv => trivial
  | enter t x entry =>
    cases entry with
    | offer =>
      simp only [admissible,Bool.and_eq_true,Bool.not_eq_eq_eq_not,Bool.not_true] at h
      exact h
    | beginShutdown => cases h
    | _ => trivial

theorem cleanup_once_and_final_disconnectInHandler :
    ∃ s₀ s, step asciiEnv (State.init 10) (.enter false () .offer)=some s₀ ∧
      runActions (step asciiEnv) s₀ disconnectInHandler=some s ∧
      (s.cores ()).ran=1 ∧ Gone s () := by
  refine ⟨_,_,rfl,rfl,?_⟩
  have hoffer : Reaches (step asciiEnv) Admission (State.init 10 : State Bool Unit) _ :=
    Reaches.refl.tail (a:=.enter false () .offer) ⟨rfl,rfl⟩ rfl
  have hplain : disconnectInHandler.all Action.isPlain := by decide
  have hr := hoffer.trans (Reaches.of_admitted disconnectInHandler
    (fun a ha => admission_of_isPlain (List.all_eq_true.mp hplain a ha)) rfl)
  have hran := (cleanup_once_and_final Game.ascii_nonempty 10 hr Reaches.refl ()).2.1 rfl rfl
    ⟨rfl,rfl,rfl,rfl,by intro t f; cases t <;> exact List.not_mem_nil⟩
  have hfinal := (cleanup_once_and_final Game.ascii_nonempty 10 hr Reaches.refl ()).2.2
  exact ⟨hran,(hfinal (by rw [hran]; exact Nat.one_pos)).2⟩

end IocpServer.Server
