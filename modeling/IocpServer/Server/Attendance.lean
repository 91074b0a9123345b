import IocpServer.Server.Actors
import IocpServer.Server.Staff

set_option linter.unusedSectionVars false

namespace IocpServer.Service

variable {T S A : Type} [DecidableEq T] [DecidableEq S] [DecidableEq A] [Fintype T] [Fintype A]
  {main : T} {v : State T S A}

/-- Once the listener is drained, the sessions rest and no thread is in one, nothing refers to a
session any more, so that it is destroyed. -/
theorem Inv.unreferenced (hi : Inv main v) (hd : Drained v)
    (hr : ∀ x, Resting (v.server.view x)) (hcalls : ∀ t, v.server.calls t=[]) (x : S) :
    Unreferenced v x := by
  have hempty := hi.empty hd hr
  have hzero := hd.2
  unfold listening at hzero
  constructor
  case sessions => simp [hempty.sessions]
  case accounts => simp [hempty.accountSessions]
  case names => simp [hempty.nameSessions]
  case rooms => exact fun r a => hempty.rooms r a x
  case inFlight => exact (hr x).rest.1
  case jobs => exact (hr x).rest.2.1
  case calls => simp [hcalls]
  case accepting =>
    intro slot hslot
    have hle := le_sum (fun o : Option S => o.isSome.toNat) v.accepting slot
    rw [hslot,Option.isSome_some,Bool.toNat_true] at hle
    omega
  case workers =>
    intro t slot ht
    have hle := le_sum Worker.io v.workers t
    rw [ht,show (Worker.processAccept slot x : Worker A S).io=1 from rfl] at hle
    omega

/-- `start` closes the listener again if it fails. -/
theorem Inv.stopAccept (hi : Inv main v) (hclose : v.close=.running) :
    Inv main { v with acceptStopped := true } := by
  have hst := hi.stage
  unfold Stage at hst
  rw [hclose] at hst
  refine hi.closing ?_
  unfold Stage
  simp only [hclose]
  exact hst

theorem Inv.setRetry (hi : Inv main v) (retry : A → Bool) : Inv main { v with retry := retry } :=
  ⟨hi.running,⟨hi.accepts.io,hi.accepts.once,hi.accepts.fresh,hi.accepts.live,hi.accepts.created⟩,
    ⟨hi.calls.admission,hi.calls.shutdown,hi.calls.main⟩,hi.stage⟩

end IocpServer.Service

namespace IocpServer.GameServer

open Server.LockOrder (Thread)

variable {n : Nat} {S A : Type} [DecidableEq S] [DecidableEq A] {e : Env} {p p' : State n S A}

instance {W : Type} [Fintype W] [DecidableEq W] : Fintype (Thread W) where
  elems := {.main,.heartbeat,.stats}∪Finset.univ.image .worker
  complete t := by cases t <;> simp

variable [Fintype A]

/-- How far `main` is with the service. -/
inductive Phase where
  | serving
  | closing
  | closed

def Main.phase : Main n → Phase
  | .closeService => .closing
  | .stopWorkers | .joinWorkers _ | .clear | .printServerStats | .returned 0 => .closed
  | _ => .serving

/-- What the service has to do with the threads that are in it. -/
structure Attended (p : State n S A) : Prop where
  inv : Service.Inv .main p.service
  calls : ∀ t, p.service.server.calls t≠[] → p.life t=.running ∨ t=.main ∧ p.main=.closeService
  heart : p.service.server.calls .heartbeat≠[] → ∃ b, p.heartbeat=.body (some b)
  stats : p.service.server.calls .stats=[]
  listener : ∀ t, p.service.workers t≠.idle → p.working t
  mainCalls : p.service.close=.returned → p.service.server.calls .main=[]
  serving : p.main.phase=.serving → p.service.close=.running
  closed : p.main.phase=.closed → p.service.close=.returned
  beats : ∀ now todo, p.heartbeat=.body (some (now,todo)) →
    ∀ x∈todo, (p.service.server.cores x).admitted
  cleared : p.main=.printServerStats ∨ p.main=.returned 0 → ∀ slot, p.service.retry slot=false
  printed : p.main=.returned 0 → p.printed=some (p.service.server.game.stats.connect,
    p.service.server.game.stats.login,p.service.server.game.stats.disconnect)

theorem attended_init (maxSessionCount : Int) (slots : List A) :
    Attended (State.init maxSessionCount slots : State n S A) := by
  constructor
  case inv => exact Service.inv_init Thread.main maxSessionCount slots
  all_goals simp [State.init,Service.State.init,Server.State.init,Main.phase]

/-- A step of the service that one of the threads can take. -/
structure Permitted (p : State n S A) (a : Service.Action (Thread (Fin n)) S A) : Prop where
  actor : ∀ t, a.actor .main=some t → p.life t=.running ∨ t=.main ∧ p.main=.closeService
  heart : a.actor .main=some .heartbeat → ∃ b, p.heartbeat=.body (some b)
  stats : a.actor .main≠some .stats
  mover : ∀ t, a.mover=some t → p.working t
  close : a=.close → p.main=.closeService
  last : p.main=.printServerStats ∨ p.main=.returned 0 → ∃ x, a=.destroy x

/-- A step of the service. -/
theorem Attended.service (hc : ∀ str, str≠[] → e.codec.multiByteToWideChar str≠[])
    {q : State n S A} (h : Attended p) {a : Service.Action (Thread (Fin n)) S A}
    (hp : Permitted p a) (ha : Service.Ok p.service a)
    (hs : Service.step e.toEnv .main p.service a=some q.service) (hmain : q.main=p.main)
    (hlife : q.life=p.life) (hprinted : q.printed=p.printed)
    (hbody : (∃ b, p.heartbeat=.body (some b)) → ∃ b, q.heartbeat=.body (some b))
    (htodo : ∀ now todo, q.heartbeat=.body (some (now,todo)) →
      ∃ now' todo', p.heartbeat=.body (some (now',todo')) ∧ ∀ x∈todo, x∈todo') : Attended q := by
  constructor
  case inv => exact h.inv.step hc ha hs
  case calls =>
    intro t ht
    rw [hmain,hlife]
    by_cases hact : a.actor .main=some t
    · exact hp.actor t hact
    · rw [Service.step_calls hs hact] at ht
      exact h.calls t ht
  case heart =>
    intro ht
    apply hbody
    by_cases hact : a.actor .main=some .heartbeat
    · exact hp.heart hact
    · rw [Service.step_calls hs hact] at ht
      exact h.heart ht
  case stats =>
    rw [Service.step_calls hs hp.stats]
    exact h.stats
  case listener =>
    intro t ht
    have hworking : q.working t=p.working t := by
      cases t <;> simp [State.working,hlife]
    rw [hworking]
    by_cases hact : a.mover=some t
    · exact hp.mover t hact
    · rw [Service.step_workers hs hact] at ht
      exact h.listener t ht
  case mainCalls => exact Service.step_mainCalls h.inv h.mainCalls hs
  case serving =>
    intro hphase
    rw [hmain] at hphase
    have hne : a≠.close := by
      intro heq
      rw [hp.close heq] at hphase
      cases hphase
    rw [Service.step_close hs hne]
    exact h.serving hphase
  case closed =>
    intro hphase
    rw [hmain] at hphase
    exact Service.step_returned (h.closed hphase) hs
  case beats =>
    intro now todo hbeat x hx
    obtain ⟨now',todo',hbeat',hsub⟩ := htodo now todo hbeat
    exact Service.step_admitted hs (h.beats now' todo' hbeat' x (hsub x hx))
  case cleared =>
    intro hover
    rw [hmain] at hover
    obtain ⟨x,rfl⟩ := hp.last hover
    have heq := Option.some.inj hs
    rw [← heq]
    exact h.cleared hover
  case printed =>
    intro hover
    rw [hmain] at hover
    obtain ⟨x,rfl⟩ := hp.last (Or.inr hover)
    have heq := Option.some.inj hs
    rw [← heq,hprinted]
    exact h.printed hover

theorem working_cases {t : Thread (Fin n)} (h : p.working t) :
    ∃ w, t=.worker w ∧ p.life t=.running := by
  cases t with
  | worker w => exact ⟨w,rfl,by simpa [State.working] using h⟩
  | _ => cases h

theorem closing_of_mayAct (h : p.mayAct .close) : p.main=.closeService := by
  simp only [State.mayAct] at h
  split at h
  · rename_i hmain
    exact hmain
  · cases h

/-- In the end no thread is left beside `main`. -/
theorem Staffed.all_ended (h : Staffed p) (hback : p.main.duty.background=[])
    (hwork : p.main.duty.workers=[]) {t : Thread (Fin n)} (ht : t≠.main) : p.life t=.ended := by
  cases t with
  | main => exact absurd rfl ht
  | worker w => exact (h.stopped w).resolve_left (by simp [hwork])
  | _ => exact (h.joined _ rfl).resolve_left (by simp [hback])

/-- A thread that is running takes a step in the service. -/
theorem permitted_of_running (st : Staffed p) {a : Service.Action (Thread (Fin n)) S A}
    {t : Thread (Fin n)} (ht : p.life t=.running) (hactor : a.actor .main=some t)
    (hheart : t=.heartbeat → ∃ b, p.heartbeat=.body (some b)) (hstats : t≠.stats)
    (hmover : ∀ u, a.mover=some u → p.working u) (hclose : a≠.close) : Permitted p a := by
  have hne : t≠.main := by
    intro heq
    rw [heq,(st.unborn .main).mpr (Or.inl rfl)] at ht
    cases ht
  have hsome : ∀ u, a.actor .main=some u → u=t :=
    fun u hu => Option.some.inj (hu.symm.trans hactor)
  constructor
  case actor =>
    intro u hu
    rw [hsome u hu]
    exact Or.inl ht
  case heart => exact fun hu => hheart (hsome _ hu).symm
  case stats => exact fun hu => hstats (hsome _ hu).symm
  case mover => exact hmover
  case close => exact fun heq => absurd heq hclose
  case last =>
    intro hover
    have hend : p.life t=.ended := by
      rcases hover with hm|hm <;> exact st.all_ended (by rw [hm]; rfl) (by rw [hm]; rfl) hne
    rw [ht] at hend
    cases hend

/-- `main` takes a step in the service. -/
theorem permitted_of_main {a : Service.Action (Thread (Fin n)) S A} (hmover : a.mover=none)
    (hactor : ∀ t, a.actor .main=some t → t=.main ∧ p.main=.closeService)
    (hclose : a=.close → p.main=.closeService)
    (hover : p.main=.printServerStats ∨ p.main=.returned 0 → ∃ x, a=.destroy x) :
    Permitted p a := by
  constructor
  case actor => exact fun t ht => Or.inr (hactor t ht)
  case heart => exact fun ht => absurd (hactor _ ht).1 (by simp)
  case stats => exact fun ht => absurd (hactor _ ht).1 (by simp)
  case mover => simp [hmover]
  case close => exact hclose
  case last => exact hover

theorem permitted_of_mayAct (h : Attended p) (st : Staffed p)
    {a : Service.Action (Thread (Fin n)) S A} {v : Service.State (Thread (Fin n)) S A}
    (hmay : p.mayAct a) (hs : Service.step e.toEnv .main p.service a=some v) : Permitted p a := by
  have hnot : p.main=.closeService → ¬(p.main=.printServerStats ∨ p.main=.returned 0) := by
    intro hm
    simp [hm]
  have hworker : ∀ t, p.working t → a.actor .main=some t → (∀ u, a.mover=some u → u=t) →
      a≠.close → Permitted p a := by
    intro t ht hactor hmover hne
    obtain ⟨w,rfl,hlife⟩ := working_cases ht
    refine permitted_of_running st hlife hactor (by simp) (by simp) ?_ hne
    intro u hu
    rw [hmover u hu]
    exact ht
  cases a with
  | server b =>
    cases b with
    | run t ok recv =>
      obtain ⟨s,hstep,-⟩ := Option.map_eq_some_iff.mp hs
      obtain ⟨x,f,rest,c,fs,hcalls,-,-⟩ := Server.step_run hstep
      cases t with
      | main =>
        have hm := closing_of_mayAct hmay
        exact permitted_of_main rfl (fun t ht => ⟨(Option.some.inj ht).symm,hm⟩) (fun _ => hm)
          fun hover => absurd hover (hnot hm)
      | heartbeat =>
        have hlife : p.life .heartbeat=.running := by simpa [State.mayAct] using hmay
        exact permitted_of_running st hlife rfl (fun _ => h.heart (by simp [hcalls])) (by simp)
          (by simp [Service.Action.mover]) (by simp)
      | stats =>
        rw [h.stats] at hcalls
        cases hcalls
      | worker w =>
        exact hworker (.worker w) (by simpa [State.mayAct,State.working] using hmay) rfl
          (by simp [Service.Action.mover]) (by simp)
    | enter t x entry => exact hworker t hmay rfl (by simp [Service.Action.mover]) (by simp)
  | startAccept new result =>
    have hm : p.main=.startAccept := by
      simp only [State.mayAct] at hmay
      split at hmay
      · rename_i hm
        exact hm
      · cases hmay
    exact permitted_of_main rfl (fun t ht => by cases ht) (fun heq => by cases heq)
      fun hover => absurd hover (by simp [hm])
  | close =>
    have hm := closing_of_mayAct hmay
    exact permitted_of_main rfl (fun t ht => ⟨(Option.some.inj ht).symm,hm⟩) (fun _ => hm)
      fun hover => absurd hover (hnot hm)
  | destroy x =>
    exact permitted_of_main rfl (fun t ht => by cases ht) (fun heq => by cases heq)
      fun _ => ⟨x,rfl⟩
  | acceptCompleted t slot | listener t updated new result | retryAccept t slot =>
    exact hworker t hmay rfl (fun u hu => (Option.some.inj hu).symm) (by simp)

/-- A step outside the service. -/
theorem Attended.moved {q : State n S A} (h : Attended p) (hservice : q.service=p.service)
    (hlife : ∀ t, p.life t=.running → q.life t=.running ∨
      p.service.server.calls t=[] ∧ p.service.workers t=.idle)
    (hmain : p.main=.closeService → q.main=.closeService ∨ p.service.close=.returned)
    (hserving : q.main.phase=.serving → p.main.phase=.serving)
    (hclosed : q.main.phase=.closed → p.service.close=.returned)
    (hheart : p.service.server.calls .heartbeat≠[] → (∃ b, p.heartbeat=.body (some b)) →
      ∃ b, q.heartbeat=.body (some b))
    (hbeats : ∀ now todo, q.heartbeat=.body (some (now,todo)) →
      ∀ x∈todo, (p.service.server.cores x).admitted)
    (hcleared : q.main=.printServerStats ∨ q.main=.returned 0 →
      p.main=.printServerStats ∨ p.main=.returned 0)
    (hprinted : q.main=.returned 0 → q.printed=some (p.service.server.game.stats.connect,
      p.service.server.game.stats.login,p.service.server.game.stats.disconnect)) :
    Attended q := by
  constructor
  case inv => exact hservice ▸ h.inv
  case calls =>
    intro t ht
    rw [hservice] at ht
    rcases h.calls t ht with hrun|⟨rfl,hm⟩
    · exact Or.inl ((hlife t hrun).resolve_right fun hidle => ht hidle.1)
    · refine Or.inr ⟨rfl,(hmain hm).resolve_right ?_⟩
      exact fun hret => ht (h.mainCalls hret)
  case heart =>
    intro ht
    rw [hservice] at ht
    exact hheart ht (h.heart ht)
  case stats => exact hservice ▸ h.stats
  case listener =>
    intro t ht
    rw [hservice] at ht
    obtain ⟨w,rfl,hrun⟩ := working_cases (h.listener t ht)
    have := (hlife _ hrun).resolve_right fun hidle => ht hidle.2
    simp [State.working,this]
  case mainCalls => exact hservice ▸ h.mainCalls
  case serving =>
    intro hphase
    rw [hservice]
    exact h.serving (hserving hphase)
  case closed =>
    intro hphase
    rw [hservice]
    exact hclosed hphase
  case beats => exact hservice ▸ hbeats
  case cleared =>
    intro hover
    rw [hservice]
    exact h.cleared (hcleared hover)
  case printed => exact hservice ▸ hprinted

/-- `main` goes on within a phase and leaves the service, the threads and the heartbeat alone. -/
theorem Attended.along {q : State n S A} {m : Main n} (h : Attended p) (hmain : p.main=m)
    (hsame : q.service=p.service ∧ q.life=p.life ∧ q.heartbeat=p.heartbeat)
    (hphase : q.main.phase=m.phase) (hne : m.phase≠.closing)
    (hlast : q.main≠.printServerStats ∧ q.main≠.returned 0) : Attended q := by
  obtain ⟨hservice,hlife,hheart⟩ := hsame
  subst hmain
  refine h.moved hservice ?_ ?_ ?_ ?_ ?_ ?_ ?_ ?_
  · intro t ht
    rw [hlife]
    exact Or.inl ht
  · intro hm
    rw [hm] at hne
    exact absurd rfl hne
  · rw [hphase]
    exact id
  · rw [hphase]
    exact h.closed
  · rw [hheart]
    exact fun _ hb => hb
  · rw [hheart]
    exact h.beats
  · simp [hlast]
  · simp [hlast]

theorem Loop.notify_body {B : Type} {l : Loop B} {b : B} : l.notify=.body b ↔ l=.body b := by
  cases l with
  | body b => simp [Loop.notify]
  | wait w => cases w <;> simp [Loop.notify]

theorem launch_frame (p : State n S A) (t : Thread (Fin n)) :
    (p.launch t).service=p.service ∧ (p.launch t).heartbeat=p.heartbeat ∧
      (p.launch t).life=Function.update p.life t .running := by
  unfold State.launch
  split <;> exact ⟨rfl,rfl,rfl⟩

/-- `main` goes on. -/
theorem Attended.mainMove (h : Attended p) (hs : MainMove p p') : Attended p' := by
  cases hs with
  | start hm | startAccept hm | launched hm | quit hm | request hm | joinBackground hm
  | stopWorkers hm | joinWorkers hm | workersJoined hm =>
    exact h.along hm ⟨rfl,rfl,rfl⟩ rfl (by simp [Main.phase]) (by simp [State.go])
  | startFailed hm =>
    have hserving : p.service.close=.running := h.serving (by rw [hm]; rfl)
    refine ⟨h.inv.stopAccept hserving,?_,h.heart,h.stats,h.listener,h.mainCalls,fun _ => hserving,
      ?_,h.beats,?_,?_⟩
    · intro t ht
      exact Or.inl ((h.calls t ht).resolve_right (by simp [hm]))
    all_goals simp [State.go,Main.phase]
  | @launch t todo hm =>
    obtain ⟨hservice,hheart,hlife⟩ := launch_frame p t
    refine h.moved hservice ?_ (by simp [hm]) (by simp [hm,Main.phase])
      (by simp [State.go,Main.phase]) ?_ ?_ (by simp [State.go]) (by simp [State.go])
    · intro u hu
      refine Or.inl ?_
      show (p.launch t).life u=.running
      rw [hlife]
      by_cases hut : u=t
      · rw [hut]
        exact Function.update_self ..
      · rw [Function.update_of_ne hut]
        exact hu
    · intro _ hb
      show ∃ b, (p.launch t).heartbeat=_
      rw [hheart]
      exact hb
    · show ∀ now todo, (p.launch t).heartbeat=_ → _
      rw [hheart]
      exact h.beats
  | otherLine hm => exact h
  | notifyAll hm =>
    refine h.moved rfl (fun _ ht => Or.inl ht) (by simp [hm]) (by simp [hm,Main.phase])
      (by simp [State.go,Main.phase]) ?_ ?_ (by simp [State.go]) (by simp [State.go])
    · exact fun _ hb => hb.imp fun b hb => Loop.notify_body.mpr hb
    · exact fun now todo hb => h.beats now todo (Loop.notify_body.mp hb)
  | backgroundJoined hm =>
    exact h.moved rfl (fun _ ht => Or.inl ht) (by simp [hm]) (by simp [State.go,Main.phase])
      (by simp [State.go,Main.phase]) (fun _ hb => hb) h.beats (by simp [State.go])
      (by simp [State.go])
  | closeService hm hret =>
    exact h.moved rfl (fun _ ht => Or.inl ht) (fun _ => Or.inr hret) (by simp [State.go,Main.phase])
      (fun _ => hret) (fun _ hb => hb) h.beats (by simp [State.go]) (by simp [State.go])
  | clear hm =>
    have hret : p.service.close=.returned := h.closed (by rw [hm]; rfl)
    refine ⟨h.inv.setRetry _,?_,h.heart,h.stats,h.listener,h.mainCalls,?_,fun _ => hret,h.beats,
      fun _ _ => rfl,?_⟩
    · intro t ht
      exact Or.inl ((h.calls t ht).resolve_right (by simp [hm]))
    all_goals simp [State.go,Main.phase]
  | printServerStats hm =>
    refine h.moved rfl (fun _ ht => Or.inl ht) (by simp [hm]) (by simp [State.go,Main.phase]) ?_
      (fun _ hb => hb) h.beats (fun _ => Or.inl hm) fun _ => rfl
    exact fun _ => h.closed (by rw [hm]; rfl)

/-- A thread that is in no session and not in the listener comes to the end of its function. -/
theorem Attended.ended (h : Attended p) {t : Thread (Fin n)}
    (hcalls : p.service.server.calls t=[]) (hidle : p.service.workers t=.idle) :
    Attended (p.setLife t .ended) := by
  refine h.moved rfl ?_ (fun hm => Or.inl hm) id h.closed (fun _ hb => hb) h.beats id h.printed
  intro u hu
  by_cases hut : u=t
  · rw [hut]
    exact Or.inr ⟨hcalls,hidle⟩
  · exact Or.inl ((Function.update_of_ne hut _ _).trans hu)

theorem Attended.idle (h : Attended p) {t : Thread (Fin n)} (ht : ∀ w, t≠.worker w) :
    p.service.workers t=.idle := by
  by_contra hne
  obtain ⟨w,heq,-⟩ := working_cases (h.listener t hne)
  exact ht w heq

/-- The heartbeat thread changes nothing but where it is. -/
theorem Attended.setHeartbeat (h : Attended p) {l : Loop (Option (BitVec 64×List S))}
    (hcalls : p.service.server.calls .heartbeat=[])
    (hbeats : ∀ now todo, l=.body (some (now,todo)) →
      ∀ x∈todo, (p.service.server.cores x).admitted) : Attended { p with heartbeat := l } :=
  h.moved rfl (fun _ ht => Or.inl ht) (fun hm => Or.inl hm) id h.closed
    (fun hne _ => absurd hcalls hne) hbeats id h.printed

/-- The heartbeat thread calls the next session of its copy. -/
theorem Attended.heartbeatEnter (hc : ∀ str, str≠[] → e.codec.multiByteToWideChar str≠[])
    (h : Attended p) (st : Staffed p) (hlife : p.life .heartbeat=.running) {now : BitVec 64} {x : S}
    {rest : List S} (hbeat : p.heartbeat=.body (some (now,x::rest)))
    {entry : NetWork.Lifecycle.Entry} (hentry : entry=.disconnect ∨ ∃ b, entry=.send b)
    {v : Service.State (Thread (Fin n)) S A}
    (hs : Service.step e.toEnv .main p.service (.server (.enter .heartbeat x entry))=some v)
    (pong : S → NetWork.Pong) :
    Attended { p with heartbeat := .body (some (now,rest)), pong := pong, service := v } := by
  have hadmitted := h.beats now _ hbeat x List.mem_cons_self
  have hok : Service.Ok p.service (.server (.enter .heartbeat x entry)) := by
    rcases hentry with rfl|⟨b,rfl⟩ <;> exact hadmitted
  have hp : Permitted p (.server (.enter .heartbeat x entry)) :=
    permitted_of_running st hlife rfl (fun _ => ⟨_,hbeat⟩) (by simp)
      (by simp [Service.Action.mover]) (by simp)
  refine h.service hc hp hok hs rfl rfl rfl (fun _ => ⟨_,rfl⟩) ?_
  intro now' todo htodo
  cases htodo
  exact ⟨now,_,hbeat,fun y hy => List.mem_cons_of_mem x hy⟩

theorem Attended.beatMove (hc : ∀ str, str≠[] → e.codec.multiByteToWideChar str≠[])
    (h : Attended p) (st : Staffed p) (hlife : p.life .heartbeat=.running)
    (hcalls : p.service.server.calls .heartbeat=[]) (hs : BeatMove e p p') : Attended p' := by
  cases hs with
  | finished hb => exact h.setHeartbeat hcalls (by simp)
  | @skip now x rest hb hd =>
    refine h.setHeartbeat hcalls ?_
    intro now' todo heq y hy
    cases heq
    exact h.beats now _ hb y (List.mem_cons_of_mem x hy)
  | disconnect hb hd hs => exact h.heartbeatEnter hc st hlife hb (Or.inl rfl) hs p.pong
  | sendPing hb hd hs => exact h.heartbeatEnter hc st hlife hb (Or.inr ⟨_,rfl⟩) hs _

theorem Attended.step (hc : ∀ str, str≠[] → e.codec.multiByteToWideChar str≠[]) (h : Attended p)
    (st : Staffed p) {a : Action n S A} (ha : Ok p a) (hs : step e p a=some p') : Attended p' := by
  have hresting : (∀ b, p.heartbeat≠.body (some b)) → p.service.server.calls .heartbeat=[] := by
    intro hno
    by_contra hne
    obtain ⟨b,hb⟩ := h.heart hne
    exact hno b hb
  -- steps of the stats thread and pongs change nothing that a thread is in
  have hsame : ∀ (pong : S → NetWork.Pong) (stats : Loop Unit),
      Attended { p with pong := pong, stats := stats } := fun pong stats =>
    h.moved rfl (fun _ ht => Or.inl ht) (fun hm => Or.inl hm) id h.closed (fun _ hb => hb) h.beats id
      h.printed
  cases step_move hs with
  | service hmay hstep =>
    exact h.service hc (permitted_of_mayAct h st hmay hstep) ha hstep rfl rfl rfl id
      fun now todo hb => ⟨now,todo,hb,fun _ hx => hx⟩
  | main hm => exact h.mainMove hm
  | copy hb hlife hnodup hsessions =>
    refine h.setHeartbeat (hresting (by simp [hb])) ?_
    intro now' todo heq x hx
    cases heq
    obtain ⟨-,-,hlisted,-⟩ := h.inv.running.resident x
    apply hlisted.admitted
    rw [← hsessions]
    exact List.mem_toFinset.mpr hx
  | beat hlife hcalls hb => exact h.beatMove hc st hlife hcalls hb
  | printServerStats hlife => exact hsame p.pong _
  | heartbeatWait hlife hw =>
    cases hw with
    | goesOn hl | again hl => exact h.setHeartbeat (hresting (by simp [hl])) (by simp)
    | ends hl => exact h.ended (hresting (by simp [hl])) (h.idle (by simp))
  | statsWait hlife hw =>
    cases hw with
    | goesOn hl | again hl => exact hsame p.pong _
    | ends hl => exact h.ended h.stats (h.idle (by simp))
  | pong w x hlife => exact hsame _ p.stats
  | leave hidle hlife hstopped hcalls => exact h.ended hcalls hidle

/-- What holds at every moment of the process. Once `close_service` is called, the background
threads have ended; no worker ends before it has returned. From `join` of the background threads on,
none of them is asleep. A thread that is not running is in no session and not in the listener. When
`main` returns 0, every thread has ended, nothing is left in the service and nothing refers to a
session, and the counters it printed are the final ones. -/
structure Orderly (p : State n S A) : Prop where
  background : p.service.close≠.running → ∀ t, isBackground t → p.life t=.ended
  awake : ∀ todo, p.main=.joinBackground todo →
    p.requested ∧ p.heartbeat≠.wait .asleep ∧ p.stats≠.wait .asleep
  workers : ∀ w, p.life (.worker w)=.ended → p.service.close=.returned
  rest : ∀ t, t≠.main → p.life t≠.running →
    p.service.server.calls t=[] ∧ p.service.workers t=.idle
  ended : p.main=.returned 0 → (∀ t, t≠.main → p.life t=.ended) ∧
    Service.Empty p.service.server ∧ (∀ x, Service.Unreferenced p.service x) ∧
    (∀ slot, p.service.retry slot=false) ∧
    p.printed=some (p.service.server.game.stats.connect,p.service.server.game.stats.login,
      p.service.server.game.stats.connect)
  failed : ∀ code, p.main=.returned (code+1) → ∀ t, p.life t=.unborn

theorem reaches_staffed {maxSessionCount : Int} {slots : List A}
    (h : Reaches (step e) Ok (State.init maxSessionCount slots) p) : Staffed p :=
  h.invariant (staffed_init maxSessionCount slots) fun _ _ _ hx _ hs => hx.step hs

theorem reaches_attended (hc : ∀ str, str≠[] → e.codec.multiByteToWideChar str≠[])
    {maxSessionCount : Int} {slots : List A}
    (h : Reaches (step e) Ok (State.init maxSessionCount slots) p) : Attended p :=
  h.invariant_of (fun _ hx => reaches_staffed hx) (attended_init maxSessionCount slots)
    fun _ _ _ st hx ha hs => hx.step hc st ha hs

/-- Once `main` is at `close_service` or past it, the background threads have been joined. -/
theorem background_of_phase {m : Main n} (h : m.phase≠.serving) :
    m.duty.background=[] ∧ m.duty.unlaunched=[] := by
  cases m with
  | returned code =>
    cases code with
    | zero => exact ⟨rfl,rfl⟩
    | succ k => exact absurd rfl h
  | closeService | stopWorkers | joinWorkers | clear | printServerStats => exact ⟨rfl,rfl⟩
  | _ => exact absurd rfl h

theorem phase_of_stopped {m : Main n} (h : m.duty.stopped) : m.phase=.closed := by
  cases m with
  | returned code =>
    cases code with
    | zero => rfl
    | succ k => cases h
  | _ => first | rfl | cases h

theorem Staffed.phase_of_left (st : Staffed p) {w : Fin n} (hw : p.life (.worker w)=.ended) :
    p.main.phase=.closed := by
  apply phase_of_stopped
  have hoff := st.left w hw
  rw [st.workersRunning] at hoff
  simpa using hoff

theorem Attended.rest (h : Attended p) {t : Thread (Fin n)} (hmain : t≠.main)
    (ht : p.life t≠.running) : p.service.server.calls t=[] ∧ p.service.workers t=.idle := by
  constructor
  · by_contra hne
    rcases h.calls t hne with hrun|⟨heq,-⟩
    · exact ht hrun
    · exact hmain heq
  · by_contra hne
    obtain ⟨w,rfl,hrun⟩ := working_cases (h.listener t hne)
    exact ht hrun

/-- The process is orderly at every moment of every run, under any schedule of its threads and any
outcome of the calls of the system. -/
theorem process_orderly (hc : ∀ str, str≠[] → e.codec.multiByteToWideChar str≠[])
    (maxSessionCount : Int) (slots : List A)
    (h : Reaches (step e) Ok (State.init maxSessionCount slots) p) : Orderly p := by
  have st := reaches_staffed h
  have hp := reaches_attended hc h
  constructor
  case background =>
    intro hclose t ht
    have hphase : p.main.phase≠.serving := fun heq => hclose (hp.serving heq)
    exact (st.joined t ht).resolve_left (by simp [background_of_phase hphase])
  case awake =>
    intro todo hm
    refine ⟨?_,st.awake (by rw [hm]; rfl)⟩
    rw [st.requested,hm]
    rfl
  case workers => exact fun w hw => hp.closed (st.phase_of_left hw)
  case rest => exact fun t => hp.rest
  case ended =>
    intro hm
    have hall : ∀ t, t≠.main → p.life t=.ended :=
      fun t => st.all_ended (by rw [hm]; rfl) (by rw [hm]; rfl)
    have hret := hp.closed (by rw [hm]; rfl)
    have hst := hp.inv.stage
    unfold Service.Stage at hst
    rw [hret] at hst
    have hempty := hp.inv.empty hst.1 hst.2
    refine ⟨hall,hempty,hp.inv.unreferenced hst.1 hst.2 ?_,hp.cleared (Or.inr hm),?_⟩
    · intro t
      by_cases ht : t=.main
      · rw [ht]
        exact hp.mainCalls hret
      · exact (hp.rest ht (by simp [hall t ht])).1
    · rw [hp.printed hm,hempty.stats]
  case failed =>
    intro code hm t
    apply (st.unborn t).mpr
    rw [hm]
    show t=.main ∨ t∈launches n
    rw [mem_launches]
    exact Classical.em _

def asciiEnv : Env :=
  { Server.asciiEnv with makePing := fun _ => NetWork.SendBuffer.copyData [0] }

section

open NetWork.Lifecycle (Entry)

/-- The only worker. -/
def worker : Thread (Fin 1) := .worker (Fin.last 0)

/-- Steps of thread `t` inside sessions whose system calls succeed. -/
def steps (k : Nat) (t : Thread (Fin 1)) : List (Action 1 Bool Unit) :=
  List.replicate k (.service (.server (.run t true .wait)))

def listen (new : Option Bool) : Action 1 Bool Unit :=
  .service (.listener worker true new .pending)

def accept : Action 1 Bool Unit := .service (.acceptCompleted worker ())

def call (x : Bool) (entry : Entry) : Action 1 Bool Unit :=
  .service (.server (.enter worker x entry))

/-- The process starts, a session connects and gets a ping, and the background threads fall asleep
before the line `/q` comes in; `main` wakes and joins them. -/
def startAndQuit : List (Action 1 Bool Unit) :=
  [.main true,.service (.startAccept (some false) .pending)]++List.replicate 5 (.main true)++
  [accept,listen none]++steps 5 worker++[listen (some true),listen none]++
  [.copy 0 [false],.beat]++steps 5 .heartbeat++
  [.beat,.wait false false,.printServerStats,.wait true false]++
  [.main true,.main true,.main true,.wait false false,.wait true false]++
  List.replicate 3 (.main true)++[.service .close]

/-- The listener is drained and `close_service` tells both sessions to shut down. -/
def shutDown : List (Action 1 Bool Unit) :=
  [accept,listen none,listen none,.service .close,.service .close,.service .close]++steps 4 .main++
  [.service .close]++steps 4 .main++[.service .close]

/-- The worker runs the cleanups, `close_service` returns, the worker leaves and `main` returns. -/
def leaveAndReturn : List (Action 1 Bool Unit) :=
  [call true .startJob]++steps 10 worker++[call false (.sendCompleted 0)]++steps 2 worker++
  [call false (.recvCompleted 0)]++steps 2 worker++[call false .startJob]++steps 12 worker++
  List.replicate 5 (.service .close)++[.main true,.main true,.leave (Fin.last 0)]++
  List.replicate 4 (.main true)

/-- An action without a condition on the state. -/
def Action.isFree : Action n S A → Bool
  | .service a => a.isFree
  | _ => true

theorem ok_of_isFree {a : Action n S A} (hfree : a.isFree) (p : State n S A) : Ok p a := by
  cases a with
  | service a => exact Service.ok_of_isFree hfree p.service
  | _ => trivial

theorem reaches_of_isFree (as : List (Action n S A)) (hfree : as.all Action.isFree)
    (h : runActions (step e) p as=some p') : Reaches (step e) Ok p p' :=
  Reaches.of_admitted as (fun a ha => ok_of_isFree (List.all_eq_true.mp hfree a ha)) h

end

theorem process_orderly_startAndQuit :
    ∃ u v w, runActions (step asciiEnv) (State.init 3 [()]) startAndQuit=some u ∧
      runActions (step asciiEnv) u shutDown=some v ∧
      runActions (step asciiEnv) v leaveAndReturn=some w ∧
      w.main=.returned 0 ∧ w.printed=some (1,0,1) ∧ Orderly w := by
  refine ⟨_,_,_,rfl,rfl,rfl,rfl,rfl,?_⟩
  have h1 : Reaches (step asciiEnv) Ok (State.init 3 [()]) _ :=
    reaches_of_isFree startAndQuit (by decide) rfl
  have h2 := h1.trans (reaches_of_isFree shutDown (by decide) rfl)
  have h3 := h2.trans (reaches_of_isFree leaveAndReturn (by decide) rfl)
  exact process_orderly Game.ascii_nonempty 3 [()] h3

end IocpServer.GameServer
