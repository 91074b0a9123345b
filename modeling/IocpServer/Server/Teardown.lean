import IocpServer.Server.Attendance

set_option linter.unusedSectionVars false

namespace IocpServer.Service

variable {T S A : Type} [DecidableEq T] [DecidableEq S] [DecidableEq A] [Fintype T] [Fintype A]
  {v : State T S A}

theorem Closes.clearRetry (h : Closes v) : Closes { v with retry := fun _ => false } := by
  refine h.listener rfl rfl (Finset.Subset.refl _) ?_ h.io
  intro slot
  have hone := h.events slot
  simp only [Service.events,Bool.toNat_false] at hone ⊢
  omega

theorem effort_clearRetry (v : State T S A) :
    effort { v with retry := fun _ => false } ≤ effort v := by
  simp only [effort,Bool.toNat_false,Finset.sum_const_zero]
  omega

theorem Closes.stopAccept (h : Closes v) : Closes { v with acceptStopped := true } :=
  h.listener rfl rfl (Finset.Subset.refl _) h.events h.io

end IocpServer.Service

namespace IocpServer.GameServer

open Server.LockOrder (Thread)

variable {n : Nat} {S A : Type} [DecidableEq S] [DecidableEq A] [Fintype A]
  {e : Env} {p p' : State n S A}

theorem mainMove_closes (h : Service.Closes p.service) (hs : MainMove p p') :
    Service.Closes p'.service := by
  cases hs with
  | startFailed hm => exact h.stopAccept
  | launch hm => exact (launch_frame p _).1 ▸ h
  | clear hm => exact h.clearRetry
  | _ => exact h

theorem beatMove_closes (h : Service.Closes p.service) (hp : Attended p) (hs : BeatMove e p p') :
    Service.Closes p'.service := by
  cases hs with
  | finished hb | skip hb => exact h
  | disconnect hb hd hs | sendPing hb hd hs =>
    refine h.step hp.inv ?_ hs
    exact hp.beats _ _ hb _ List.mem_cons_self

theorem step_closes (h : Service.Closes p.service) (hp : Attended p) {a : Action n S A}
    (ha : Ok p a) (hs : step e p a=some p') : Service.Closes p'.service := by
  cases step_move hs with
  | service hmay hstep => exact h.step hp.inv ha hstep
  | main hm => exact mainMove_closes h hm
  | beat hlife hcalls hb => exact beatMove_closes h hp hb
  | heartbeatWait hlife hw | statsWait hlife hw => cases hw <;> exact h
  | _ => exact h

theorem reaches_closes (hc : ∀ str, str≠[] → e.codec.multiByteToWideChar str≠[])
    {maxSessionCount : Int} {slots : List A} (hslots : slots.Nodup)
    (h : Reaches (step e) Ok (State.init maxSessionCount slots) p) : Service.Closes p.service :=
  h.invariant_of (P:=fun p => Service.Closes p.service) (fun _ hx => reaches_attended hc hx)
    (Service.closes_init maxSessionCount hslots) fun _ _ _ hp hx ha hs => step_closes hx hp ha hs

/-- The step brings something new, as for the service; a pong is such a thing. -/
def news (p : State n S A) : Action n S A → Bool
  | .service a => Service.news p.service a
  | .pong _ _ => true
  | _ => false

/-- A step of the process, which costs one if it brings something new. -/
def Steps (e : Env) (p : State n S A) (c : Nat) (p' : State n S A) : Prop :=
  ∃ a, Ok p a ∧ c=(news p a).toNat ∧ step e p a=some p'

/-- The weight of what `main` still has to do, with `k` workers to join. -/
def Main.weight (k : Nat) : Main n → Nat
  | .closeService => k+5
  | .stopWorkers => k+4
  | .joinWorkers todo => todo.length+3
  | .clear => 2
  | .printServerStats => 1
  | _ => 0

def Life.weight : Life → Nat
  | .running => 1
  | _ => 0

/-- A bound for the steps of a process that is closing, as long as nothing new comes in. -/
def effort (p : State n S A) : Nat :=
  Service.effort p.service+p.main.weight p.globalThreads.length+∑ t, (p.life t).weight

/-- A process that has begun to close its service. -/
structure Leaves (p : State n S A) : Prop where
  staffed : Staffed p
  attended : Attended p
  closes : Service.Closes p.service
  phase : p.main.phase≠.serving
  running : p.service.close≠.running

theorem effort_ended {t : Thread (Fin n)} (ht : p.life t=.running) :
    effort (p.setLife t .ended)<effort p := by
  have hsum := sum_update Life.weight p.life t .ended
  rw [ht] at hsum
  simp only [effort,State.setLife,Life.weight] at hsum ⊢
  omega

theorem effort_mainMove (h : p.main.phase≠.serving) (hs : MainMove p p') :
    p'.main.phase≠.serving ∧ p'.service.close=p.service.close ∧ effort p'<effort p := by
  cases hs with
  | closeService hm | stopWorkers hm | printServerStats hm =>
    refine ⟨by simp [State.go,Main.phase],rfl,?_⟩
    simp only [effort,hm,State.go,Main.weight]
    omega
  | joinWorkers hm =>
    refine ⟨by simp [State.go,Main.phase],rfl,?_⟩
    simp only [effort,hm,State.go,Main.weight,List.length_cons]
    omega
  | workersJoined hm =>
    refine ⟨by simp [State.go,Main.phase],rfl,?_⟩
    simp only [effort,hm,State.go,Main.weight,List.length_nil]
    omega
  | clear hm =>
    refine ⟨by simp [State.go,Main.phase],rfl,?_⟩
    have hretry := Service.effort_clearRetry p.service
    simp only [effort,hm,State.go,Main.weight]
    omega
  | start hm | startFailed hm | startAccept hm | launch hm | launched hm | quit hm | otherLine hm
  | request hm | notifyAll hm | joinBackground hm | backgroundJoined hm =>
    -- the service still serves here
    rw [hm] at h
    exact absurd rfl h

/-- A step of a process that closes its service brings it nearer to its end, but for what is new. -/
theorem Leaves.step (hc : ∀ str, str≠[] → e.codec.multiByteToWideChar str≠[]) (h : Leaves p)
    {c : Nat} (hs : Steps e p c p') : Leaves p' ∧ effort p'<effort p+304*c := by
  obtain ⟨a,ha,rfl,hs⟩ := hs
  have st := h.staffed.step hs
  have hp := h.attended.step hc h.staffed ha hs
  have hdead : ∀ t, isBackground t → p.life t≠.running := by
    intro t ht hrun
    have hend := (h.staffed.joined t ht).resolve_left (by simp [background_of_phase h.phase])
    rw [hrun] at hend
    cases hend
  cases step_move hs with
  | service hmay hstep =>
    refine ⟨⟨st,hp,h.closes.step h.attended.inv ha hstep,h.phase,
      Service.step_closing h.running hstep⟩,?_⟩
    have hlt := Service.effort_step h.closes h.attended.inv h.running ha hstep
    simp only [effort,news]
    omega
  | main hm =>
    obtain ⟨hphase,hclose,hlt⟩ := effort_mainMove h.phase hm
    exact ⟨⟨st,hp,mainMove_closes h.closes hm,hphase,hclose ▸ h.running⟩,Nat.lt_add_right _ hlt⟩
  | pong w x hlife =>
    exact ⟨⟨st,hp,h.closes,h.phase,h.running⟩,Nat.lt_add_of_pos_right (Nat.succ_pos _)⟩
  | leave hidle hlife =>
    exact ⟨⟨st,hp,h.closes,h.phase,h.running⟩,Nat.lt_add_right _ (effort_ended hlife)⟩
  | copy hb hlife | beat hlife | printServerStats hlife | heartbeatWait hlife | statsWait hlife =>
    exact absurd hlife (hdead _ rfl)

/-- What brings the service on is a step that a thread of the process can take. -/
theorem steps_of_goesOn (h : Attended p) (st : Staffed p) {w : Fin n}
    (hw : p.life (.worker w)=.running)
    (hclose : p.service.close≠.returned → p.main=.closeService)
    (hgo : Service.GoesOn e.toEnv .main p.service (.worker w)) : ∃ p', Steps e p 0 p' := by
  obtain ⟨a,hdriven,ha,hq,hs⟩ := hgo
  obtain ⟨v,hv⟩ := Option.isSome_iff_exists.mp hs
  have hmay : p.mayAct a := by
    cases a with
    | server b =>
      cases b with
      | run t ok recv =>
        have hcalls := h.calls t hdriven
        cases t with
        | main =>
          rcases hcalls with hrun|⟨-,hm⟩
          · rw [(st.unborn .main).mpr (Or.inl rfl)] at hrun
            cases hrun
          · simp [State.mayAct,hm]
        | _ => simpa [State.mayAct] using hcalls
      | enter t x entry =>
        have heq : t=.worker w := hdriven
        simp [State.mayAct,heq,State.working,hw]
    | acceptCompleted t slot =>
      have heq : t=.worker w := hdriven
      simp [State.mayAct,heq,State.working,hw]
    | listener t updated new result => exact h.listener t hdriven
    | close =>
      have hm : p.main=.closeService := by
        apply hclose
        intro hret
        simp [Service.step,Service.closeStep,hret] at hv
      simp [State.mayAct,hm]
    | _ => exact hdriven.elim
  exact ⟨{ p with service := v },.service a,ha,by rw [news,hq]; rfl,by simp [step,hmay,hv]⟩

theorem Leaves.goesOn (h : Leaves p) (hn : 0<n) : p.main=.returned 0 ∨ ∃ p', Steps e p 0 p' := by
  have hborn : ∀ w, p.life (.worker w)≠.unborn :=
    fun w => h.staffed.born (background_of_phase h.phase).2 (by simp)
  have hmainStep : (mainStep p true).isSome → ∃ p', Steps e p 0 p' := by
    intro hs
    obtain ⟨p',hp'⟩ := Option.isSome_iff_exists.mp hs
    exact ⟨p',.main true,trivial,rfl,hp'⟩
  have hphase := h.phase
  cases hmain : p.main with
  | closeService =>
    right
    have hrunning : p.life (.worker ⟨0,hn⟩)=.running := by
      cases hl : p.life (.worker ⟨0,hn⟩) with
      | unborn => exact absurd hl (hborn _)
      | running => rfl
      | ended =>
        have := h.staffed.phase_of_left hl
        rw [hmain] at this
        cases this
    cases Service.goesOn_of_closing (e:=e.toEnv) h.closes h.attended.inv h.running
      (show Thread.worker (⟨0,hn⟩ : Fin n)≠.main by simp) with
    | inl hret => exact hmainStep (by simp [mainStep,hmain,hret])
    | inr hgo => exact steps_of_goesOn h.attended h.staffed hrunning (fun _ => hmain) hgo
  | joinWorkers todo =>
    right
    cases todo with
    | nil => exact hmainStep (by simp [mainStep,hmain])
    | cons t todo =>
      obtain ⟨w,rfl⟩ := h.staffed.crew t (Or.inr (by simp [hmain,Main.duty]))
      cases hl : p.life (.worker w) with
      | unborn => exact absurd hl (hborn w)
      | ended => exact hmainStep (by simp [mainStep,hmain,hl])
      | running =>
        have hret := h.attended.closed (by rw [hmain]; rfl)
        cases Service.goesOn_of_busy (e:=e.toEnv) h.closes h.attended.inv h.running (.worker w) with
        | inr hgo =>
          exact steps_of_goesOn h.attended h.staffed hl (fun hne => absurd hret hne) hgo
        | inl hstill =>
          have hoff : p.workersRunning=false := by
            rw [h.staffed.workersRunning,hmain]
            rfl
          refine ⟨p.setLife (.worker w) .ended,.leave w,trivial,rfl,?_⟩
          simp [GameServer.step,hstill.workers,hstill.calls,hl,hoff]
  | returned code =>
    cases code with
    | zero => exact Or.inl rfl
    | succ k =>
      rw [hmain] at hphase
      exact absurd rfl hphase
  | stopWorkers | clear | printServerStats =>
    right
    exact hmainStep (by simp [mainStep,hmain])
  | _ =>
    rw [hmain] at hphase
    exact absurd rfl hphase

/-- Once `close_service` was called, no schedule keeps the process from ending: it takes at most
`effort p` steps, and 304 for each thing that is new, and where nothing new comes in any more it does
not stop before `main` has returned 0. -/
theorem process_returns (hc : ∀ str, str≠[] → e.codec.multiByteToWideChar str≠[]) (hn : 0<n)
    (maxSessionCount : Int) {slots : List A} (hslots : slots.Nodup)
    (h : Reaches (step e) Ok (State.init maxSessionCount slots) p)
    (hclose : p.service.close≠.running) {k c : Nat} (hrun : Run (Steps e) p k c p') :
    k ≤ effort p+304*c ∧ (p'.main=.returned 0 ∨ ∃ q, Steps e p' 0 q) := by
  have hattended := reaches_attended hc h
  refine hrun.ends (P:=Leaves) (fun p => p.main=.returned 0) effort 304
    (fun p c p' hp hs => hp.step hc hs) (fun p hp => hp.goesOn hn)
    ⟨reaches_staffed h,hattended,reaches_closes hc hslots h,?_,hclose⟩
  exact fun heq => hclose (hattended.serving heq)

theorem run_of_isFree (as : List (Action n S A)) (hfree : as.all Action.isFree)
    (h : runActions (step e) p as=some p') :
    Run (Steps e) p as.length (costs (step e) (fun p a => (news p a).toNat) p as) p' :=
  Run.of_runActions as (fun a ha => ok_of_isFree (List.all_eq_true.mp hfree a ha)) h

/-- The client of the session sends data and a pong while the server closes. -/
def lateTraffic : List (Action 1 Bool Unit) :=
  [call false (.recvCompleted 4)]++steps 1 worker++[.pong (Fin.last 0) false]

theorem process_returns_startAndQuit :
    ∃ u v, runActions (step asciiEnv) (State.init 3 [()]) startAndQuit=some u ∧
      runActions (step asciiEnv) u lateTraffic=some v ∧ Run (Steps asciiEnv) u 3 2 v ∧
      3 ≤ effort u+304*2 ∧ (v.main=.returned 0 ∨ ∃ p', Steps asciiEnv v 0 p') := by
  refine ⟨_,_,rfl,rfl,run_of_isFree lateTraffic (by decide) rfl,?_⟩
  have h1 : Reaches (step asciiEnv) Ok (State.init 3 [()]) _ :=
    reaches_of_isFree startAndQuit (by decide) rfl
  refine process_returns Game.ascii_nonempty (show 0<1 by decide) 3 (List.nodup_singleton ()) h1 ?_
    (run_of_isFree lateTraffic (by decide) rfl)
  intro hclose
  cases hclose

end IocpServer.GameServer
