import IocpServer.Server.Residence

namespace IocpServer.Server

open NetWork (SessionManager)
open NetWork.Lifecycle

variable {T S : Type} [DecidableEq S]

/-- A registry holds session `x`. -/
def Registered (g : Game.State S) (x : S) : Prop :=
  (∃ a, g.manager.accountSessions.lookup a=some x) ∨ ∃ name, g.manager.nameSessions.lookup name=some x

/-- A session enters the registries by its own login handler only. -/
theorem exec_registered (c : Game.Codec) (g : Game.State S) {x y : S} {op : Game.Op}
    (h : Registered (Game.exec c g y op).1 x) : Registered g x ∨ x=y ∧ ¬op.Cleaning := by
  cases op with
  | addAccountSession idx =>
    simp only [Game.exec,SessionManager.addAccountSession] at h
    split at h
    · exact Or.inl h
    · rcases h with ⟨a,ha⟩|hname
      · rcases Map.lookup_insert_iff.mp ha with ⟨-,rfl⟩|⟨-,ha⟩
        · exact Or.inr ⟨rfl,id⟩
        · exact Or.inl (Or.inl ⟨a,ha⟩)
      · exact Or.inl (Or.inr hname)
  | addNameSession name =>
    simp only [Game.exec,SessionManager.addNameSession] at h
    split at h
    · exact Or.inl h
    · rcases h with haccount|⟨n,hn⟩
      · exact Or.inl (Or.inl haccount)
      · rcases Map.lookup_insert_iff.mp hn with ⟨-,rfl⟩|⟨-,hn⟩
        · exact Or.inr ⟨rfl,id⟩
        · exact Or.inl (Or.inr ⟨n,hn⟩)
  | releaseLogoutSession =>
    rcases h with ⟨a,ha⟩|⟨n,hn⟩
    · exact Or.inl (Or.inl ⟨a,(SessionManager.releaseLogoutSession_lookup.mp ha).1⟩)
    · simp only [Game.exec,SessionManager.releaseLogoutSession] at hn
      split at hn <;> exact Or.inl (Or.inr ⟨n,hn⟩)
  | releaseNameSession =>
    rcases h with ⟨a,ha⟩|⟨n,hn⟩
    · simp only [Game.exec,SessionManager.releaseNameSession] at ha
      split at ha <;> exact Or.inl (Or.inl ⟨a,ha⟩)
    · exact Or.inl (Or.inr ⟨n,(SessionManager.releaseNameSession_lookup.mp hn).1⟩)
  | eraseSession =>
    simp only [Game.exec,SessionManager.eraseSession] at h
    split at h <;> exact Or.inl h
  | loginCall | ackLogin | logoutCall | enterCall | exitCall =>
    simp only [Game.exec] at h
    split at h <;> exact Or.inl h
  | _ => exact Or.inl h

theorem gameStep_registered (e : Env) (g : Game.State S) {x y : S} {isConnect : Bool}
    {f : Frame Packet} (h : Registered (gameStep e g y isConnect f).1 x) :
    Registered g x ∨ x=y ∧ ∃ op∈(g.sessions y).todo, ¬op.Cleaning := by
  cases f with
  | addSession =>
    simp only [gameStep,SessionManager.addSession] at h
    split_ifs at h <;> exact Or.inl h
  | job j =>
    rcases j with ⟨pkt|_⟩|_
    · simp only [gameStep] at h
      split at h <;> exact Or.inl h
    · exact Or.inl h
    · exact Or.inl h
  | body cleanup =>
    simp only [gameStep] at h
    split at h
    · exact Or.inl h
    · rename_i op rest htodo
      have hop : Registered g x ∨ x=y ∧ ¬op.Cleaning := exec_registered e.codec g h
      rw [htodo]
      exact hop.imp_right fun hop => ⟨hop.1,op,List.mem_cons_self,hop.2⟩
  | _ => exact Or.inl h

/-- A session that was not added: it is in no registry and has at most its cleanup to do. -/
structure Unknown (g : Game.State S) (x : S) : Prop where
  registered : ¬Registered g x
  ops : ∀ op∈(g.sessions x).todo, op.Cleaning

omit [DecidableEq S] in
theorem unknown_init (maxSessionCount : Int) (x : S) :
    Unknown (Game.State.init maxSessionCount) x := by
  refine ⟨?_,by simp [Game.State.init,Game.Session.init]⟩
  rintro (⟨a,ha⟩|⟨n,hn⟩)
  · simp [Game.State.init,SessionManager.init] at ha
  · simp [Game.State.init,SessionManager.init] at hn

theorem Unknown.gameStep {g : Game.State S} {x : S} (h : Unknown g x) (e : Env) (y : S)
    (isConnect : Bool) {f : Frame Packet} (hf : x=y → f.receives=0) :
    Unknown (Server.gameStep e g y isConnect f).1 x := by
  obtain ⟨hreg,hops⟩ := h
  constructor
  · intro hnew
    rcases gameStep_registered e g hnew with hold|⟨rfl,op,hmem,hop⟩
    · exact hreg hold
    · exact hop (hops op hmem)
  · by_cases hy : x=y
    · subst hy
      cases f with
      | addSession =>
        simp only [Server.gameStep]
        split <;> exact hops
      | job j =>
        cases j with
        | packet pkt => cases hf rfl
        | cleanup =>
          simpa [Server.gameStep,Game.State.startCleanup,Game.State.setSession] using
            (Game.cleanup_ops (g.sessions x).toFields).1
      | body cleanup =>
        simp only [Server.gameStep]
        cases htodo : (g.sessions x).todo with
        | nil =>
          simp only [htodo]
          exact fun op hop => absurd hop List.not_mem_nil
        | cons op rest =>
          rw [htodo] at hops
          simp only [Game.advance_sessions_self]
          intro op' hop'
          rcases List.mem_append.mp hop' with hnew|hold
          · exact (Game.exec_cleaning e.codec g x (hops op List.mem_cons_self)).1 op' hnew
          · exact hops op' (List.mem_cons_of_mem _ hold)
      | processConnect | rejectStore =>
        simpa [Server.gameStep,Game.State.connect,Game.State.setSession] using hops
      | _ => exact hops
    · rw [(gameStep_other e g hy isConnect f).sessions]
      exact hops

/-- A session does not lose its admission. -/
theorem exec_not_admitted {c c' : Core Packet} {o : Choice Packet} {f : Frame Packet}
    {fs : List (Frame Packet)} (hx : exec c o f=some (c',fs)) (h : c'.admitted=false) :
    c.admitted=false := by
  cases exec_move hx with
  | added => cases h
  | pipe ok pc p =>
    obtain ⟨n,b,heq⟩ := pipeEffect_eq c ok pc p
    rw [heq] at h
    exact h
  | _ => exact h

/-- What is known of a session with respect to the list of sessions and the registries. -/
structure Known (g : Game.State S) (x : S) (l : Local Packet) : Prop where
  account : Account l
  welcome : Welcome l
  greeting : Greeting l
  listed : Listed g x l
  unknown : l.core.admitted=false → Unknown g x

namespace Known

variable {e : Env} {g : Game.State S} {x : S} {c c' : Core Packet} {o : Choice Packet}
  {f : Frame Packet} {fs : List (Frame Packet)} {m : Multiset (Frame Packet)}

omit [DecidableEq S] in
theorem init (maxSessionCount : Int) (x : S) :
    Known (Game.State.init maxSessionCount) x ⟨Core.init,0⟩ :=
  ⟨Account.init,Welcome.init,Greeting.init,listed_init maxSessionCount x,
    fun _ => unknown_init maxSessionCount x⟩

theorem fire (h : Known g x ⟨c,f::ₘm⟩) (hx : exec c o f=some (c',fs))
    (ho : o.admission=(gameStep e g x c.pipe.isConnect f).2.1)
    (hbody : o.body=(gameStep e g x c.pipe.isConnect f).2.2) :
    Known (gameStep e g x c.pipe.isConnect f).1 x ⟨c',beside fs m⟩ := by
  have hstep : Step Allowed ⟨c,f::ₘm⟩ ⟨c',beside fs m⟩ := .fire o m hx
  refine ⟨h.account.fire hx,h.welcome.step hstep,h.greeting.step h.account hstep,
    h.listed.fire hx ho hbody,?_⟩
  intro hadm'
  have hadm := exec_not_admitted hx hadm'
  exact (h.unknown hadm).gameStep e x _ fun _ => (h.greeting.not_welcome h.welcome hadm).1

omit [DecidableEq S] in
theorem enter {entry : Entry} (h : Known g x ⟨c,m⟩) (ha : Allowed ⟨c,m⟩ entry)
    (hx : enter c entry=some (c',fs)) : Known g x ⟨c',beside fs m⟩ := by
  obtain ⟨-,hcsum,hran,-⟩ := enter_outside hx
  have hadm := enter_admitted hx
  refine ⟨h.account.enter ha hx,h.welcome.step (Step.enter ha hx),
    h.greeting.step h.account (Step.enter ha hx),?_,fun hadm' => h.unknown (hadm.symm.trans hadm')⟩
  apply h.listed.congr hadm hran _ Iff.rfl rfl rfl
  rw [tok_beside,hcsum,Nat.zero_add]

theorem other {l : Local Packet} {y : S} (h : Known g x l) (hx : x≠y) (isConnect : Bool)
    (f : Frame Packet) : Known (gameStep e g y isConnect f).1 x l := by
  have hu := gameStep_other e g hx isConnect f
  refine ⟨h.account,h.welcome,h.greeting,?_,fun hadm => ?_⟩
  · exact h.listed.congr rfl rfl rfl hu.listed (by rw [hu.sessions]) (by rw [hu.sessions])
  · exact (h.unknown hadm).gameStep e y isConnect fun hxy => absurd hxy hx

omit [DecidableEq S] in
/-- A registered session that is connected is in the list of sessions. -/
theorem mem_sessions {l : Local Packet} (h : Known g x l) (hreg : Registered g x)
    (hcon : l.core.pipe.isConnect) : x∈g.manager.sessions := by
  have hadm : l.core.admitted := by
    by_contra hne
    exact (h.unknown (by simpa using hne)).registered hreg
  apply (h.listed.listed hadm).resolve_right
  intro hcl
  obtain ⟨hq,hr⟩ := h.account.of_connect hcon
  have hran := h.account.ran
  have hle := cleanupBodies_le l.frames
  unfold Cleaning at hcl
  omega

end Known

variable [DecidableEq T] [Fintype T]

theorem reaches_known {e : Env} {maxSessionCount : Int} {s : State T S}
    (h : Reaches (step e) Admission (State.init maxSessionCount) s) :
    ∀ x, Known s.game x (s.view x) := by
  refine h.invariant (P:=fun s => ∀ x, Known s.game x (s.view x)) ?_ ?_
  · intro x
    rw [view_init]
    exact Known.init maxSessionCount x
  · intro s a s' hk ha hs
    have hok : ∀ t x entry, a=.enter t x entry → Allowed (s.view x) entry := by
      rintro t x entry rfl
      exact ha
    apply sessions_step hok hs hk
    · intro x c m o f c' fs hk hx hadm hbody
      exact hk.fire hx hadm hbody
    · intro x c m entry c' fs hk hallowed hx
      exact hk.enter hallowed hx
    · intro x y isConnect f hy hk
      exact hk.other hy isConnect f

end IocpServer.Server
