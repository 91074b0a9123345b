import IocpServer.Job.Serialization

set_option linter.unusedSectionVars false

namespace IocpServer.Job

variable {T Q J : Type}

/-- What a call of `push` still costs, with the job it will have stored. -/
def PushAt.weight : PushAt → Nat
  | .fetchAdd => 14
  | .append _ => 13
  | .handOff _ => 4

/-- What a call of `execute` still costs until it looks for jobs again or leaves its queue to
another thread. -/
def ExecuteAt.weight : ExecuteAt J → Nat
  | .enter => 2
  | .popAll => 1
  | .batch rest _ => 2*rest.length+6
  | .job _ rest _ => 2*rest.length+7
  | .tick => 5
  | .handOff => 4

def Thread.weight (th : Thread Q J) : Nat :=
  (th.push.elim 0 fun p => p.pc.weight)+th.execute.elim 0 fun e => e.pc.weight

/-- How many steps the threads need for what was pushed. -/
def effort [Fintype T] [Fintype Q] (s : State T Q J) : Nat :=
  ∑ t, (s.threads t).weight+3*s.globalQueue.length+8*∑ q, (s.queues q).jobs.length

def Action.isPush : Action T Q J → Bool
  | .push _ _ _ _ => true
  | _ => false

/-- The step looks into a queue that has no job stored. -/
def polling (s : State T Q J) : Action T Q J → Bool
  | .popAll t => (s.threads t).execute.elim false fun e => (s.queues e.queue).jobs.isEmpty
  | _ => false

variable [DecidableEq T] [DecidableEq Q]

/-- How often a run polls. -/
def polls (s : State T Q J) : List (Action T Q J) → Nat
  | [] => 0
  | a::as => (polling s a).toNat+(step s a).elim 0 fun s' => polls s' as

/-- Every thread is outside, no queue waits for one, and all jobs have run. -/
structure Settled (s : State T Q J) : Prop where
  threads : ∀ t, s.threads t=⟨none,none,none⟩
  globalQueue : s.globalQueue=[]
  jobCount : ∀ q, (s.queues q).jobCount=0
  started : ∀ q, (s.queues q).started=(s.queues q).appended

variable [Fintype T]

section

variable [Fintype Q] {s s' : State T Q J} {a : Action T Q J}

theorem effort_setThread (s : State T Q J) (t : T) (th : Thread Q J) :
    effort (s.setThread t th)+(s.threads t).weight=effort s+th.weight := by
  have hsum := sum_update Thread.weight s.threads t th
  simp only [effort,State.setThread]
  omega

theorem effort_setQueue (s : State T Q J) (q : Q) (jq : JobQueue J) :
    effort (s.setQueue q jq)+8*(s.queues q).jobs.length=effort s+8*jq.jobs.length := by
  have hsum := sum_update (fun jq : JobQueue J => jq.jobs.length) s.queues q jq
  simp only [effort,State.setQueue]
  omega

theorem effort_globalQueue (s : State T Q J) (global : List Q) :
    effort { s with globalQueue := global }+3*s.globalQueue.length=effort s+3*global.length := by
  simp only [effort]
  omega

/-- A queue and a thread change together. -/
theorem effort_set (s : State T Q J) (q : Q) (jq : JobQueue J) (t : T) (th : Thread Q J) :
    effort ((s.setQueue q jq).setThread t th)+(s.threads t).weight+8*(s.queues q).jobs.length=
      effort s+th.weight+8*jq.jobs.length := by
  have hthread : effort ((s.setQueue q jq).setThread t th)+(s.threads t).weight=
    effort (s.setQueue q jq)+th.weight := effort_setThread _ t th
  have hqueue := effort_setQueue s q jq
  omega

/-- The global queue and a thread change together. -/
theorem effort_setGlobal (s : State T Q J) (global : List Q) (t : T) (th : Thread Q J) :
    effort (State.setThread { s with globalQueue := global } t th)+(s.threads t).weight+
      3*s.globalQueue.length=effort s+th.weight+3*global.length := by
  have hthread : effort (State.setThread { s with globalQueue := global } t th)+
    (s.threads t).weight=effort { s with globalQueue := global }+th.weight :=
      effort_setThread _ t th
  have hglobal := effort_globalQueue s global
  omega

/-- Every step of a thread lowers what is to be done, but for a look into an empty queue. -/
theorem effort_step (hpush : a.isPush=false) (hs : step s a=some s') :
    effort s'+1 ≤ effort s+6*(polling s a).toNat := by
  cases a with
  | push => cases hpush
  | fetchAdd t =>
    simp only [step] at hs
    split at hs <;> cases hs
    rename_i q j po hp
    have he := effort_set s q { s.queues q with jobCount := (s.queues q).jobCount+1 } t
      { s.threads t with push := some ⟨q,j,po,.append (s.queues q).jobCount⟩ }
    simp only [Thread.weight,hp,Option.elim_some,PushAt.weight] at he
    omega
  | append t =>
    simp only [step] at hs
    split at hs <;> cases hs
    rename_i q j po prev hp
    have he := effort_set s q { s.queues q with
      jobs := (s.queues q).jobs++[j], appended := (s.queues q).appended++[j] } t
      { s.threads t with push := some ⟨q,j,po,.handOff prev⟩ }
    simp only [Thread.weight,hp,Option.elim_some,PushAt.weight,List.length_append,
      List.length_singleton] at he
    omega
  | handOff t =>
    simp only [step] at hs
    split at hs
    · rename_i q j po prev hp
      split at hs
      · split at hs <;> cases hs
        · have he := effort_setThread s t
            { s.threads t with push := none, execute := some ⟨q,.enter⟩ }
          simp only [Thread.weight,hp,Option.elim_some,Option.elim_none,PushAt.weight,
            ExecuteAt.weight] at he
          omega
        · have he := effort_setGlobal s (s.globalQueue++[q]) t { s.threads t with push := none }
          simp only [Thread.weight,hp,Option.elim_some,Option.elim_none,PushAt.weight,
            List.length_append,List.length_singleton] at he
          omega
      · cases hs
        have he := effort_setThread s t { s.threads t with push := none }
        simp only [Thread.weight,hp,Option.elim_some,Option.elim_none,PushAt.weight] at he
        omega
    · cases hs
  | globalPop t =>
    simp only [step] at hs
    split at hs <;> cases hs
    rename_i q rest hp he hglobal
    have he' := effort_setGlobal s rest t { s.threads t with execute := some ⟨q,.enter⟩ }
    simp only [Thread.weight,he,hglobal,Option.elim_some,Option.elim_none,ExecuteAt.weight,
      List.length_cons] at he'
    omega
  | enter t =>
    simp only [step] at hs
    split at hs <;> cases hs
    rename_i q hex
    have he := effort_setThread s t
      { s.threads t with currentJobQueue := some q, execute := some ⟨q,.popAll⟩ }
    simp only [Thread.weight,hex,Option.elim_some,ExecuteAt.weight] at he
    omega
  | popAll t =>
    simp only [step] at hs
    split at hs <;> cases hs
    rename_i q hex
    have he := effort_set s q { s.queues q with jobs := [] } t
      { s.threads t with execute := some ⟨q,.batch (s.queues q).jobs (s.queues q).jobs.length⟩ }
    simp only [Thread.weight,hex,Option.elim_some,ExecuteAt.weight,List.length_nil] at he
    have hpoll : 1 ≤ (s.queues q).jobs.length+(polling s (.popAll t)).toNat := by
      simp only [polling,hex,Option.elim_some]
      cases (s.queues q).jobs <;> simp
    omega
  | startJob t =>
    simp only [step] at hs
    split at hs <;> cases hs
    rename_i q j rest n hex
    have he := effort_set s q { s.queues q with started := (s.queues q).started++[j] } t
      { s.threads t with execute := some ⟨q,.job j rest n⟩ }
    simp only [Thread.weight,hex,Option.elim_some,ExecuteAt.weight,List.length_cons] at he
    omega
  | endJob t =>
    simp only [step] at hs
    split at hs <;> cases hs
    rename_i q j rest n hp hex
    have he := effort_setThread s t { s.threads t with execute := some ⟨q,.batch rest n⟩ }
    simp only [Thread.weight,hex,Option.elim_some,ExecuteAt.weight] at he
    omega
  | fetchSub t =>
    simp only [step] at hs
    split at hs
    · rename_i q n hex
      split at hs <;> cases hs
      · have he := effort_set s q { s.queues q with jobCount := (s.queues q).jobCount-n } t
          { s.threads t with currentJobQueue := none, execute := none }
        simp only [Thread.weight,hex,Option.elim_some,Option.elim_none,ExecuteAt.weight] at he
        omega
      · have he := effort_set s q { s.queues q with jobCount := (s.queues q).jobCount-n } t
          { s.threads t with execute := some ⟨q,.tick⟩ }
        simp only [Thread.weight,hex,Option.elim_some,ExecuteAt.weight] at he
        omega
    · cases hs
  | tick t expired =>
    simp only [step] at hs
    split at hs
    · rename_i q hex
      split at hs <;> cases hs
      · have he := effort_setThread s t
          { s.threads t with currentJobQueue := none, execute := some ⟨q,.handOff⟩ }
        simp only [Thread.weight,hex,Option.elim_some,ExecuteAt.weight] at he
        omega
      · have he := effort_setThread s t { s.threads t with execute := some ⟨q,.popAll⟩ }
        simp only [Thread.weight,hex,Option.elim_some,ExecuteAt.weight] at he
        omega
    · cases hs
  | rePush t =>
    simp only [step] at hs
    split at hs <;> cases hs
    rename_i q hex
    have he := effort_setGlobal s (s.globalQueue++[q]) t { s.threads t with execute := none }
    simp only [Thread.weight,hex,Option.elim_some,Option.elim_none,ExecuteAt.weight,
      List.length_append,List.length_singleton] at he
    omega

/-- A run without new pushes is as long as what was to be done and its polls allow. -/
theorem effort_run (as : List (Action T Q J)) (hpush : ∀ a∈as, a.isPush=false)
    (h : runActions step s as=some s') : effort s'+as.length ≤ effort s+6*polls s as := by
  induction as generalizing s with
  | nil =>
    cases h
    exact Nat.le_refl _
  | cons a as ih =>
    obtain ⟨s1,hs,hrest⟩ := Option.bind_eq_some_iff.mp h
    have hstep := effort_step (hpush a (List.mem_cons_self ..)) hs
    have hrun := ih (fun b hb => hpush b (List.mem_cons_of_mem a hb)) hrest
    simp only [polls,hs,Option.elim_some,List.length_cons]
    omega

end

variable {s s' : State T Q J}

/-- A thread that holds a queue in which nothing is stored, and has taken nothing from it, waits for
one that has raised the counter. -/
theorem Inv.raised (h : Inv s) {t : T} {q : Q} (hex : (s.threads t).execute=some ⟨q,.popAll⟩)
    (hjobs : (s.queues q).jobs=[]) : ∃ u, (s.threads u).raised q≠0 := by
  have hself : 0<(s.threads t).executes q := by simp [Thread.executes,hex]
  have htaken : ∑ u, (s.threads u).taken q=0 := by
    apply (sum_eq_zero_iff (fun th => Thread.taken q th) s.threads).mpr
    intro u
    by_cases hu : 0<(s.threads u).executes q
    · have heq := h.executor_unique hu hself
      subst heq
      simp [Thread.taken,hex,ExecuteAt.jobCount]
    · unfold Thread.executes at hu
      unfold Thread.taken
      cases he : (s.threads u).execute with
      | none => rfl
      | some e =>
        rw [he] at hu
        have hne : e.queue≠q := by
          intro heq
          simp [heq] at hu
        simp [hne]
  by_contra hnone
  have hraised : ∑ u, (s.threads u).raised q=0 := by
    apply (sum_eq_zero_iff (fun th => Thread.raised q th) s.threads).mpr
    intro u
    by_contra hu
    exact hnone ⟨u,hu⟩
  have hcount : (s.queues q).jobCount=0 := by
    rw [(h.queue q).count,hjobs,htaken,hraised]
    rfl
  -- a queue whose counter is 0 has no executor
  have hparty := (h.queue q).party
  rw [hcount,required_zero] at hparty
  have hle := le_sum (fun th => Thread.executes q th) s.threads t
  unfold parties at hparty
  omega

/-- A thread that raised the counter is about to store its job. -/
theorem Thread.push_of_raised {th : Thread Q J} {q : Q} (h : th.raised q≠0) :
    ∃ j po prev, th.push=some ⟨q,j,po,.append prev⟩ := by
  unfold Thread.raised at h
  cases hp : th.push with
  | none => simp [hp] at h
  | some p =>
    obtain ⟨r,j,po,pc⟩ := p
    simp only [hp,Option.elim_some] at h
    split at h
    · rename_i hr
      subst hr
      cases pc with
      | append prev => exact ⟨j,po,prev,rfl⟩
      | _ => exact absurd rfl h
    · exact absurd rfl h

theorem Inv.settled (h : Inv s) (hpush : ∀ t, (s.threads t).push=none)
    (hex : ∀ t, (s.threads t).execute=none) (hglobal : s.globalQueue=[]) : Settled s := by
  have hcount (q : Q) : (s.queues q).jobCount=0 := by
    have hparty := (h.queue q).party
    have hzero : parties s q=0 := by
      simp [parties,hglobal,Thread.executes,Thread.mustHandOff,hpush,hex]
    by_contra hne
    rw [hzero,required_of_ne hne] at hparty
    cases hparty
  refine ⟨?_,hglobal,hcount,fun q => (h.queue q).started_eq (hcount q)⟩
  intro t
  have hcurrent := (h.thread t).current
  rw [hex t] at hcurrent
  have hp := hpush t
  have he := hex t
  generalize s.threads t=th at *
  cases th
  cases hp
  cases he
  cases hcurrent
  rfl

/-- A call of `push` goes on. -/
theorem push_goesOn {t : T} {p : PushCall Q J} (hp : (s.threads t).push=some p) :
    ∃ a, a.isPush=false ∧ polling s a=false ∧ (step s a).isSome := by
  obtain ⟨q,j,po,pc⟩ := p
  cases pc with
  | fetchAdd => exact ⟨.fetchAdd t,rfl,rfl,by simp [step,hp]⟩
  | append prev => exact ⟨.append t,rfl,rfl,by simp [step,hp]⟩
  | handOff prev =>
    refine ⟨.handOff t,rfl,rfl,?_⟩
    simp only [step,hp]
    repeat' split
    all_goals rfl

/-- A call of `execute` goes on if nobody is in `push`. -/
theorem Inv.execute_goesOn (h : Inv s) (hpush : ∀ u, (s.threads u).push=none) {t : T}
    {e : ExecuteCall Q J} (hex : (s.threads t).execute=some e) :
    ∃ a, a.isPush=false ∧ polling s a=false ∧ (step s a).isSome := by
  obtain ⟨q,pc⟩ := e
  cases pc with
  | enter => exact ⟨.enter t,rfl,rfl,by simp [step,hex]⟩
  | popAll =>
    have hjobs : (s.queues q).jobs≠[] := by
      intro hnil
      obtain ⟨u,hu⟩ := h.raised hex hnil
      obtain ⟨j,po,prev,hp⟩ := Thread.push_of_raised hu
      rw [hpush u] at hp
      cases hp
    exact ⟨.popAll t,rfl,by simpa [polling,hex] using hjobs,by simp [step,hex]⟩
  | batch rest n =>
    cases rest with
    | nil =>
      refine ⟨.fetchSub t,rfl,rfl,?_⟩
      simp only [step,hex]
      split <;> rfl
    | cons j rest => exact ⟨.startJob t,rfl,rfl,by simp [step,hex]⟩
  | job j rest n => exact ⟨.endJob t,rfl,rfl,by simp [step,hex,hpush t]⟩
  | tick => exact ⟨.tick t false,rfl,rfl,by simp [step,hex]⟩
  | handOff => exact ⟨.rePush t,rfl,rfl,by simp [step,hex]⟩

/-- Unless everything has run, some thread can take a step that is no poll. -/
theorem Inv.goesOn [Nonempty T] (h : Inv s) :
    Settled s ∨ ∃ a, a.isPush=false ∧ polling s a=false ∧ (step s a).isSome := by
  by_cases hp : ∃ t p, (s.threads t).push=some p
  · obtain ⟨t,p,hp⟩ := hp
    exact Or.inr (push_goesOn hp)
  have hpush (t : T) : (s.threads t).push=none := by
    apply Option.eq_none_iff_forall_ne_some.mpr
    intro p hs
    exact hp ⟨t,p,hs⟩
  by_cases he : ∃ t e, (s.threads t).execute=some e
  · obtain ⟨t,e,he⟩ := he
    exact Or.inr (h.execute_goesOn hpush he)
  have hex (t : T) : (s.threads t).execute=none := by
    apply Option.eq_none_iff_forall_ne_some.mpr
    intro e hs
    exact he ⟨t,e,hs⟩
  cases hglobal : s.globalQueue with
  | nil => exact Or.inl (h.settled hpush hex hglobal)
  | cons q rest =>
    obtain ⟨t⟩ := ‹Nonempty T›
    exact Or.inr ⟨.globalPop t,rfl,rfl,by simp [step,hpush t,hex t,hglobal]⟩

/-- No job is stranded: once nothing new is pushed, the threads take a bounded number of steps, but
for polls of an empty queue, and they come to no end before every queue has run all its jobs. A
thread polls only while another has counted its job and not stored it. -/
theorem jobs_all_run [Fintype Q] [Nonempty T] (hr : Reaches step Any State.init s)
    (as : List (Action T Q J)) (hpush : ∀ a∈as, a.isPush=false)
    (h : runActions step s as=some s') :
    as.length ≤ effort s+6*polls s as ∧
      (Settled s' ∨ ∃ a, a.isPush=false ∧ polling s' a=false ∧ (step s' a).isSome) ∧
      ∀ t q, (s'.threads t).execute=some ⟨q,.popAll⟩ → (s'.queues q).jobs=[] →
        ∃ u j po prev, (s'.threads u).push=some ⟨q,j,po,.append prev⟩ := by
  have hrun := effort_run as hpush h
  have hinv := reaches_inv (hr.trans (Reaches.of_runActions (fun _ _ => trivial) as h))
  refine ⟨by omega,hinv.goesOn,?_⟩
  intro t q hex hjobs
  obtain ⟨u,hu⟩ := hinv.raised hex hjobs
  exact ⟨u,Thread.push_of_raised hu⟩

/-- One thread runs a job while another has counted a second one. -/
def runAndCount : List (Action Bool Unit Nat) :=
  [.push false () 7 true,.fetchAdd false,.append false,.handOff false,.globalPop true,.enter true,
   .popAll true,.startJob true,.push false () 8 false,.fetchAdd false]

/-- The first polls once and gives the queue back; the second stores its job and takes the queue. -/
def pollAndFinish : List (Action Bool Unit Nat) :=
  [.endJob true,.fetchSub true,.tick true false,.popAll true,.fetchSub true,.append false,
   .handOff false,.tick true true,.rePush true,.globalPop false,.enter false,.popAll false,
   .startJob false,.endJob false,.fetchSub false]

theorem jobs_all_run_pollAndFinish :
    ∃ s s', runActions step State.init runAndCount=some s ∧
      runActions step s pollAndFinish=some s' ∧ polls s pollAndFinish=1 ∧
      pollAndFinish.length ≤ effort s+6*1 ∧ (s'.queues ()).started=[7,8] ∧
      (Settled s' ∨ ∃ a, a.isPush=false ∧ polling s' a=false ∧ (step s' a).isSome) := by
  refine ⟨_,_,rfl,rfl,rfl,?_⟩
  have hrun := jobs_all_run (Reaches.of_runActions (fun _ _ => trivial) runAndCount rfl)
    pollAndFinish (by decide) rfl
  exact ⟨hrun.1,rfl,hrun.2.1⟩

end IocpServer.Job
