import IocpServer.Server.Closing

set_option linter.unusedSectionVars false

namespace IocpServer.Server

open NetWork.Lifecycle

variable {T S : Type} [DecidableEq T] [DecidableEq S] {e : Env} {s s' : State T S}

/-- The thread that takes a step. -/
def Action.thread : Action T S → T
  | .run t _ _ | .enter t _ _ => t

theorem calls_of_step {b : Action T S} (hs : step e s b=some s') {u : T} (hu : u≠b.thread) :
    s'.calls u=s.calls u := by
  cases b with
  | run t ok recv =>
    obtain ⟨x,f,rest,c,fs,-,-,rfl⟩ := step_run hs
    exact Function.update_of_ne hu _ _
  | enter t x entry =>
    obtain ⟨c,fs,-,-,rfl⟩ := step_enter hs
    exact Function.update_of_ne hu _ _

/-- A session that was added stays marked as such. -/
theorem admitted_of_step {b : Action T S} (hs : step e s b=some s') {x : S}
    (hx : (s.cores x).admitted) : (s'.cores x).admitted := by
  have hmoved : ∀ y c game stack (t : T), ((s.cores y).admitted → c.admitted) →
      ((s.move game y c t stack).cores x).admitted := by
    intro y c game stack t hc
    simp only [State.move]
    by_cases hxy : x=y
    · subst hxy
      rw [Function.update_self]
      exact hc hx
    · rw [Function.update_of_ne hxy]
      exact hx
  cases b with
  | run t ok recv =>
    obtain ⟨y,f,rest,c,fs,-,hexec,rfl⟩ := step_run hs
    apply hmoved
    intro hy
    by_cases hf : f=.addSession
    · subst hf
      cases exec_move hexec with
      | added => rfl
      | _ => exact hy
    · rw [exec_admitted hexec hf]
      exact hy
  | enter t y entry =>
    obtain ⟨c,fs,-,henter,rfl⟩ := step_enter hs
    apply hmoved
    intro hy
    rw [enter_admitted henter]
    exact hy

end IocpServer.Server

namespace IocpServer.Service

variable {T S A : Type}

/-- The thread that takes a step of the service. -/
def Action.actor (main : T) : Action T S A → Option T
  | .server (.run t _ _) | .server (.enter t _ _) | .acceptCompleted t _ | .listener t _ _ _
  | .retryAccept t _ => some t
  | .close => some main
  | .startAccept _ _ | .destroy _ => none

/-- The thread that moves in the listener. -/
def Action.mover : Action T S A → Option T
  | .acceptCompleted t _ | .listener t _ _ _ | .retryAccept t _ => some t
  | _ => none

variable [DecidableEq T] [DecidableEq S] [DecidableEq A] [Fintype T] [Fintype A]
  {e : Server.Env} {main : T} {v v' : State T S A}

theorem registerAccept_frame {slot : A} {new : Option S} {result : AcceptResult}
    (hr : v.registerAccept slot new result=some v') :
    v'.server=v.server ∧ v'.workers=v.workers := by
  rcases registerAccept_spec hr with rfl|⟨-,rfl|⟨x,retry,-,rfl|rfl⟩⟩ <;> exact ⟨rfl,rfl⟩

/-- A step of the service leaves the sessions alone, or its thread goes on in them or calls one. -/
theorem step_server {a : Action T S A} (hs : step e main v a=some v') :
    v'.server=v.server ∨
      ∃ b, a.actor main=some b.thread ∧ (a=.server b ∨ ∃ t x entry, b=.enter t x entry) ∧
        Server.step e v.server b=some v'.server := by
  cases step_move hs with
  | @run t ok recv _ hstep => exact Or.inr ⟨.run t ok recv,rfl,Or.inl rfl,hstep⟩
  | @enter t x entry _ _ _ _ hstep => exact Or.inr ⟨.enter t x entry,rfl,Or.inl rfl,hstep⟩
  | startAccept hstart hr => exact Or.inl (registerAccept_frame hr).1
  | offer ht hopen hstep => exact Or.inr ⟨.enter _ _ .offer,rfl,Or.inr ⟨_,_,_,rfl⟩,hstep⟩
  | registerAccept ht hcalls hr => exact Or.inl (registerAccept_frame hr).1
  | close hclose =>
    cases closeStep_move hclose with
    | beginShutdown hc hstep => exact Or.inr ⟨.enter main _ _,rfl,Or.inr ⟨_,_,_,rfl⟩,hstep⟩
    | jobsDone hc hdone hjobs hstep =>
      exact Or.inr ⟨.enter main _ _,rfl,Or.inr ⟨_,_,_,rfl⟩,hstep⟩
    | _ => exact Or.inl rfl
  | _ => exact Or.inl rfl

theorem step_calls {a : Action T S A} (hs : step e main v a=some v') {u : T}
    (hu : a.actor main≠some u) : v'.server.calls u=v.server.calls u := by
  rcases step_server hs with heq|⟨b,hb,-,hstep⟩
  · rw [heq]
  · refine Server.calls_of_step hstep ?_
    intro heq
    exact hu (heq ▸ hb)

theorem step_admitted {a : Action T S A} (hs : step e main v a=some v') {x : S}
    (hx : (v.server.cores x).admitted) : (v'.server.cores x).admitted := by
  rcases step_server hs with heq|⟨b,-,-,hstep⟩
  · rw [heq]
    exact hx
  · exact Server.admitted_of_step hstep hx

theorem step_workers {a : Action T S A} (hs : step e main v a=some v') {u : T}
    (hu : a.mover≠some u) : v'.workers u=v.workers u := by
  have hset : ∀ {t : T} {v : State T S A} {w : Worker A S}, some t≠some u →
      (v.setWorker t w).workers u=v.workers u :=
    fun ht => Function.update_of_ne (fun heq => ht (congrArg some heq.symm)) _ _
  cases step_move hs with
  | startAccept hstart hr => exact congrFun (registerAccept_frame hr).2 u
  | registerAccept ht hcalls hr => exact (hset hu).trans (congrFun (registerAccept_frame hr).2 u)
  | close hclose => cases closeStep_move hclose <;> rfl
  | run | enter | destroy => rfl
  | _ => exact hset hu

/-- Thread `main` enters a session in `close_service` only. -/
theorem actor_ne_main (hi : Inv main v) (hempty : v.server.calls main=[]) {a : Action T S A}
    (ha : a≠.close) (hs : step e main v a=some v') : a.actor main≠some main := by
  intro hactor
  cases step_move hs with
  | run hstep =>
    cases hactor
    obtain ⟨x,f,rest,c,fs,hcalls,-,-⟩ := Server.step_run hstep
    rw [hempty] at hcalls
    cases hcalls
  | enter hw ht =>
    cases hactor
    exact ht rfl
  | acceptCompleted hw hslot ht =>
    cases hactor
    exact ht rfl
  | retryAccept hw ht =>
    cases hactor
    exact ht rfl
  | close => exact ha rfl
  | startAccept | destroy => cases hactor
  | _ hw =>
    cases hactor
    rw [hi.calls.main] at hw
    cases hw

/-- When `close_service` has returned, thread `main` is in no session. -/
theorem step_mainCalls (hi : Inv main v) (h : v.close=.returned → v.server.calls main=[])
    {a : Action T S A} (hs : step e main v a=some v') (hclose : v'.close=.returned) :
    v'.server.calls main=[] := by
  by_cases ha : a=.close
  · subst ha
    have hst := hi.stage
    unfold Stage at hst
    cases closeStep_move hs with
    | returned hwait =>
      rw [hwait] at hst
      exact hst.2.1
    | _ => cases hclose
  · have hrest := h (by rwa [step_close hs ha] at hclose)
    rw [step_calls hs (actor_ne_main hi hrest ha hs)]
    exact hrest

end IocpServer.Service
