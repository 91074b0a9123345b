import IocpServer.Job.JobQueue

set_option linter.unusedSectionVars false

namespace IocpServer.Job

variable {T Q J : Type} [DecidableEq T] [DecidableEq Q]

/-- The point of `execute` is not inside a job. -/
def ExecuteAt.isOutside : ExecuteAt J → Bool
  | .job _ _ _ => false
  | _ => true

/-- No job was appended to a queue and none was started. -/
def SameRecord (s s' : State T Q J) : Prop :=
  ∀ q, (s'.queues q).appended=(s.queues q).appended ∧ (s'.queues q).started=(s.queues q).started

/-- What a step means for the thread `t` that takes it and for the records of the queues. -/
inductive Change (s s' : State T Q J) (t : T) : Action T Q J → Prop where
  | push (q : Q) (j : J) (pushOnly : Bool) (hout : (s.threads t).outside=true)
    (hth : s'.threads t={ s.threads t with push := some ⟨q,j,pushOnly,.fetchAdd⟩ })
    (hrec : SameRecord s s') : Change s s' t (.push t q j pushOnly)
  | fetchAdd (q : Q) (j : J) (pushOnly : Bool) (n : Int)
    (hp : (s.threads t).push=some ⟨q,j,pushOnly,.fetchAdd⟩)
    (hth : s'.threads t={ s.threads t with push := some ⟨q,j,pushOnly,.append n⟩ })
    (hrec : SameRecord s s') : Change s s' t (.fetchAdd t)
  | append (q : Q) (j : J) (pushOnly : Bool) (n : Int)
    (hp : (s.threads t).push=some ⟨q,j,pushOnly,.append n⟩)
    (hth : s'.threads t={ s.threads t with push := some ⟨q,j,pushOnly,.handOff n⟩ })
    (hnew : (s'.queues q).appended=(s.queues q).appended++[j])
    (hold : ∀ r≠q, (s'.queues r).appended=(s.queues r).appended)
    (hstarted : ∀ r, (s'.queues r).started=(s.queues r).started) : Change s s' t (.append t)
  | leave (q : Q) (j : J) (pushOnly : Bool) (n : Int)
    (hp : (s.threads t).push=some ⟨q,j,pushOnly,.handOff n⟩)
    (hth : s'.threads t={ s.threads t with push := none })
    (hrec : SameRecord s s') : Change s s' t (.handOff t)
  | inlined (q : Q) (j : J) (n : Int) (hp : (s.threads t).push=some ⟨q,j,false,.handOff n⟩)
    (hth : s'.threads t={ s.threads t with push := none, execute := some ⟨q,.enter⟩ })
    (hrec : SameRecord s s') : Change s s' t (.handOff t)
  | globalPop (q : Q) (hp : (s.threads t).push=none) (he : (s.threads t).execute=none)
    (hth : s'.threads t={ s.threads t with execute := some ⟨q,.enter⟩ })
    (hrec : SameRecord s s') : Change s s' t (.globalPop t)
  | between (a : Action T Q J) (ex : ExecuteCall Q J) (ex' : Option (ExecuteCall Q J))
    (current : Option Q) (he : (s.threads t).execute=some ex) (hout : ex.pc.isOutside=true)
    (hout' : ∀ ex'', ex'=some ex'' → ex''.pc.isOutside=true)
    (hth : s'.threads t={ s.threads t with currentJobQueue := current, execute := ex' })
    (hstart : ∀ u, a≠.startJob u) (hrec : SameRecord s s') : Change s s' t a
  | startJob (q : Q) (j : J) (rest : List J) (n : Nat)
    (he : (s.threads t).execute=some ⟨q,.batch (j::rest) n⟩)
    (hth : s'.threads t={ s.threads t with execute := some ⟨q,.job j rest n⟩ })
    (hnew : (s'.queues q).started=(s.queues q).started++[j])
    (hold : ∀ r≠q, (s'.queues r).started=(s.queues r).started)
    (happended : ∀ r, (s'.queues r).appended=(s.queues r).appended) : Change s s' t (.startJob t)
  | endJob (q : Q) (j : J) (rest : List J) (n : Nat) (hp : (s.threads t).push=none)
    (he : (s.threads t).execute=some ⟨q,.job j rest n⟩)
    (hth : s'.threads t={ s.threads t with execute := some ⟨q,.batch rest n⟩ })
    (hrec : SameRecord s s') : Change s s' t (.endJob t)

theorem State.setThread_self (s : State T Q J) (t : T) (th : Thread Q J) :
    (s.setThread t th).threads t=th := by
  simp [setThread]

theorem State.setThread_of_ne (s : State T Q J) {t u : T} (h : u≠t) (th : Thread Q J) :
    (s.setThread t th).threads u=s.threads u := by
  simp [setThread,h]

theorem SameRecord.setThread (s : State T Q J) (t : T) (th : Thread Q J) :
    SameRecord s (s.setThread t th) :=
  fun _ => ⟨rfl,rfl⟩

/-- Writing counter and stored jobs of a queue leaves its record alone. -/
theorem SameRecord.setQueue (s : State T Q J) (q : Q) (jobs : List J) (n : Int) (t : T)
    (th : Thread Q J) :
    SameRecord s ((s.setQueue q { s.queues q with jobs := jobs, jobCount := n }).setThread t th) := by
  intro r
  by_cases h : r=q
  · subst h
    simp [State.setThread,State.setQueue]
  · simp [State.setThread,State.setQueue,h]

/-- A step is taken by one thread, and `Change` says what it does. -/
theorem step_change {s s' : State T Q J} {a : Action T Q J} (h : step s a=some s') :
    ∃ t, (∀ u≠t, s'.threads u=s.threads u) ∧ Change s s' t a := by
  cases a with
  | push t q j po =>
    simp only [step] at h
    split at h <;> cases h
    rename_i hout
    exact ⟨t,fun u hu => s.setThread_of_ne hu _,
      .push q j po hout (s.setThread_self t _) (.setThread s t _)⟩
  | fetchAdd t =>
    simp only [step] at h
    split at h <;> cases h
    rename_i q j po hp
    exact ⟨t,fun u hu => State.setThread_of_ne _ hu _,
      .fetchAdd q j po _ hp (State.setThread_self _ t _) (.setQueue s q _ _ t _)⟩
  | append t =>
    simp only [step] at h
    split at h <;> cases h
    rename_i q j po n hp
    refine ⟨t,fun u hu => State.setThread_of_ne _ hu _,
      .append q j po n hp (State.setThread_self _ t _) ?_ ?_ ?_⟩
    · simp [State.setThread,State.setQueue]
    · intro r hr
      simp [State.setThread,State.setQueue,hr]
    · intro r
      by_cases hr : r=q
      · subst hr
        simp [State.setThread,State.setQueue]
      · simp [State.setThread,State.setQueue,hr]
  | handOff t =>
    simp only [step] at h
    split at h
    · rename_i q j po n hp
      split at h
      · split at h <;> cases h
        · rename_i hin
          have hpo : po=false := by
            cases po with
            | false => rfl
            | true => simp at hin
          subst hpo
          exact ⟨t,fun u hu => s.setThread_of_ne hu _,
            .inlined q j n hp (s.setThread_self t _) (.setThread s t _)⟩
        · exact ⟨t,fun u hu => State.setThread_of_ne _ hu _,
            .leave q j po n hp (State.setThread_self _ t _) fun _ => ⟨rfl,rfl⟩⟩
      · cases h
        exact ⟨t,fun u hu => s.setThread_of_ne hu _,
          .leave q j po n hp (s.setThread_self t _) (.setThread s t _)⟩
    · cases h
  | globalPop t =>
    simp only [step] at h
    split at h <;> cases h
    rename_i q rest hp he hg
    exact ⟨t,fun u hu => State.setThread_of_ne _ hu _,
      .globalPop q hp he (State.setThread_self _ t _) fun _ => ⟨rfl,rfl⟩⟩
  | enter t =>
    simp only [step] at h
    split at h <;> cases h
    rename_i q he
    exact ⟨t,fun u hu => s.setThread_of_ne hu _,
      .between _ _ _ _ he rfl (by rintro _ ⟨⟩; rfl) (s.setThread_self t _) (by simp) (.setThread s t _)⟩
  | popAll t =>
    simp only [step] at h
    split at h <;> cases h
    rename_i q he
    exact ⟨t,fun u hu => State.setThread_of_ne _ hu _,
      .between _ _ _ _ he rfl (by rintro _ ⟨⟩; rfl) (State.setThread_self _ t _) (by simp)
        (.setQueue s q _ _ t _)⟩
  | startJob t =>
    simp only [step] at h
    split at h <;> cases h
    rename_i q j rest n he
    refine ⟨t,fun u hu => State.setThread_of_ne _ hu _,
      .startJob q j rest n he (State.setThread_self _ t _) ?_ ?_ ?_⟩
    · simp [State.setThread,State.setQueue]
    · intro r hr
      simp [State.setThread,State.setQueue,hr]
    · intro r
      by_cases hr : r=q
      · subst hr
        simp [State.setThread,State.setQueue]
      · simp [State.setThread,State.setQueue,hr]
  | endJob t =>
    simp only [step] at h
    split at h <;> cases h
    rename_i q j rest n hp he
    exact ⟨t,fun u hu => s.setThread_of_ne hu _,
      .endJob q j rest n hp he (s.setThread_self t _) (.setThread s t _)⟩
  | fetchSub t =>
    simp only [step] at h
    split at h
    · rename_i q n he
      split at h <;> cases h
      · exact ⟨t,fun u hu => State.setThread_of_ne _ hu _,
          .between _ _ none _ he rfl (by simp) (State.setThread_self _ t _) (by simp) (.setQueue s q _ _ t _)⟩
      · exact ⟨t,fun u hu => State.setThread_of_ne _ hu _,
          .between _ _ _ _ he rfl (by rintro _ ⟨⟩; rfl) (State.setThread_self _ t _) (by simp)
            (.setQueue s q _ _ t _)⟩
    · cases h
  | tick t expired =>
    simp only [step] at h
    split at h
    · rename_i q he
      split at h <;> cases h <;>
        exact ⟨t,fun u hu => s.setThread_of_ne hu _,
          .between _ _ _ _ he rfl (by rintro _ ⟨⟩; rfl) (s.setThread_self t _) (by simp)
            (.setThread s t _)⟩
    · cases h
  | rePush t =>
    simp only [step] at h
    split at h <;> cases h
    rename_i q he
    exact ⟨t,fun u hu => State.setThread_of_ne _ hu _,
      .between _ _ none _ he rfl (by simp) (State.setThread_self _ t _) (by simp) fun _ => ⟨rfl,rfl⟩⟩

end IocpServer.Job
