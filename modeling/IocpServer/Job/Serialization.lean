import IocpServer.Job.JobQueue

namespace IocpServer.Job

variable {T Q J : Type} [DecidableEq Q]

/-- The value `fetch_add` returned, once it has. -/
def PushAt.prevCount : PushAt → Option Int
  | .fetchAdd => none
  | .append prev => some prev
  | .handOff prev => some prev

def PushAt.raised : PushAt → Nat
  | .append _ => 1
  | _ => 0

namespace ExecuteAt

def jobCount : ExecuteAt J → Nat
  | .batch _ n => n
  | .job _ _ n => n
  | _ => 0

def rest : ExecuteAt J → List J
  | .batch rest _ => rest
  | .job _ rest _ => rest
  | _ => []

def entered : ExecuteAt J → Bool
  | .enter => false
  | .handOff => false
  | _ => true

end ExecuteAt

namespace Thread

/-- The thread holds the queue in `execute`, from the pop or call that leads there until the
`fetch_sub` to zero or the re-push. -/
def executes (q : Q) (th : Thread Q J) : Nat :=
  th.execute.elim 0 fun e => if e.queue=q then 1 else 0

/-- The thread's `fetch_add` on the queue returned 0 and it has not handed the queue off. -/
def mustHandOff (q : Q) (th : Thread Q J) : Nat :=
  th.push.elim 0 fun p => if p.queue=q ∧ p.pc.prevCount=some 0 then 1 else 0

/-- The thread has raised the counter and not yet stored its job. -/
def raised (q : Q) (th : Thread Q J) : Nat :=
  th.push.elim 0 fun p => if p.queue=q then p.pc.raised else 0

/-- Jobs the thread has popped and not yet subtracted. -/
def taken (q : Q) (th : Thread Q J) : Nat :=
  th.execute.elim 0 fun e => if e.queue=q then e.pc.jobCount else 0

/-- Jobs the thread has popped and not yet started. -/
def unstarted (th : Thread Q J) : List J := th.execute.elim [] fun e => e.pc.rest

def RunsJobOf (th : Thread Q J) (q : Q) : Prop :=
  ∃ j rest n, th.execute=some ⟨q,.job j rest n⟩

/-- `push` is only called outside both functions or from a job, and `LCurrentJobQueue` is set
exactly while the thread is between the entry and the exit of `execute`. -/
structure Ok (th : Thread Q J) : Prop where
  caller : th.push.isSome → th.execute=none ∨ ∃ q, th.RunsJobOf q
  current : th.currentJobQueue=th.execute.bind fun e => if e.pc.entered then some e.queue else none

omit [DecidableEq Q] in
theorem outside_iff {th : Thread Q J} :
    th.outside ↔ th.push=none ∧ (th.execute=none ∨ ∃ q, th.RunsJobOf q) := by
  obtain ⟨_,ex,_|_⟩ := th
  · obtain _|⟨q,_|_|_|_|_|_⟩ := ex <;> simp [outside,RunsJobOf]
  · simp [outside]

omit [DecidableEq Q] in
theorem Ok.push_none {th : Thread Q J} (h : th.Ok) {q : Q} {pc : ExecuteAt J}
    (hex : th.execute=some ⟨q,pc⟩) (hpc : ∀ j rest n, pc≠.job j rest n) : th.push=none := by
  cases hp : th.push with
  | none => rfl
  | some p =>
    obtain hn|⟨q',j,rest,n,he⟩ := h.caller (by simp [hp])
    · simp [hex] at hn
    · rw [hex] at he
      cases he
      exact absurd rfl (hpc j rest n)

end Thread

variable [Fintype T]

/-- The parties responsible for a queue: its entries in the global queue, the threads that hold
it in `execute`, and the pushers that still have to hand it off. -/
def parties (s : State T Q J) (q : Q) : Nat :=
  s.globalQueue.count q+∑ t, (s.threads t).executes q+∑ t, (s.threads t).mustHandOff q

/-- A queue needs one responsible party unless its counter is 0. -/
def required (jobCount : Int) : Nat := if jobCount=0 then 0 else 1

@[simp] theorem required_of_ne {n : Int} (h : n≠0) : required n=1 := if_neg h
@[simp] theorem required_zero : required 0=0 := rfl

/-- What relates the counter, the stored jobs, the batches and the hand-offs of one queue. -/
structure QueueInv (s : State T Q J) (q : Q) : Prop where
  count : (s.queues q).jobCount=
    ((s.queues q).jobs.length+∑ t, (s.threads t).taken q+∑ t, (s.threads t).raised q : Nat)
  party : parties s q=required (s.queues q).jobCount
  order : ∃ rest, (s.queues q).appended=(s.queues q).started++rest++(s.queues q).jobs ∧
    (∀ t, 0<(s.threads t).executes q → (s.threads t).unstarted=rest) ∧
    ((∀ t, (s.threads t).executes q=0) → rest=[])

structure Inv (s : State T Q J) : Prop where
  thread : ∀ t, (s.threads t).Ok
  queue : ∀ q, QueueInv s q

theorem inv_init : Inv (State.init : State T Q J) := by
  refine ⟨fun t => ⟨by simp [State.init],by simp [State.init]⟩,fun q => ⟨?_,?_,⟨[],?_⟩⟩⟩
  · simp [State.init,Thread.taken,Thread.raised]
  · simp [State.init,parties,Thread.executes,Thread.mustHandOff]
  · simp [State.init,Thread.executes]

theorem QueueInv.jobCount_nonneg {s : State T Q J} {q : Q} (h : QueueInv s q) :
    0 ≤ (s.queues q).jobCount := by
  rw [h.count]
  exact Int.natCast_nonneg _

/-- `_job_count` has 32 bits. It counts the jobs that are stored, taken or about to be stored, so it
does not wrap while a queue has fewer than `2^31` of them. -/
theorem QueueInv.jobCount_fits {s : State T Q J} {q : Q} (h : QueueInv s q)
    (hjobs : 2*((s.queues q).jobs.length+∑ t, (s.threads t).taken q+∑ t, (s.threads t).raised q)<
      UInt32.size) : (s.queues q).jobCount.bmod UInt32.size=(s.queues q).jobCount := by
  have hcount := h.count
  apply Int.bmod_eq_of_le
  · simp only [UInt32.size] at hjobs ⊢
    omega
  · simp only [UInt32.size] at hjobs ⊢
    omega

theorem QueueInv.parties_le_one {s : State T Q J} {q : Q} (h : QueueInv s q) : parties s q ≤ 1 := by
  rw [h.party,required]
  split <;> omega

variable [DecidableEq T]

section

variable {s s' : State T Q J} {q : Q} (h : QueueInv s q) (t : T) (th' : Thread Q J)
  (hth : s'.threads=Function.update s.threads t th')
  (hcount : (s'.queues q).jobCount+((s.queues q).jobs.length+(s.threads t).taken q+
      (s.threads t).raised q : Nat)=
    (s.queues q).jobCount+((s'.queues q).jobs.length+th'.taken q+th'.raised q : Nat))
  (hparty : s'.globalQueue.count q+th'.executes q+th'.mustHandOff q+
      required (s.queues q).jobCount=
    s.globalQueue.count q+(s.threads t).executes q+(s.threads t).mustHandOff q+
      required (s'.queues q).jobCount)

include h hth hcount hparty

/-- Thread `t` becomes `th'` and the queue and the global queue change with it. The order part
may replace the unstarted batch only when `t` is the thread that executes the queue. -/
theorem QueueInv.move
    (horder : ∀ rest, (s.queues q).appended=(s.queues q).started++rest++(s.queues q).jobs →
      (0<(s.threads t).executes q → (s.threads t).unstarted=rest) →
      (∑ u, (s.threads u).executes q=0 → rest=[]) →
      ∃ rest', (s'.queues q).appended=(s'.queues q).started++rest'++(s'.queues q).jobs ∧
        (rest'=rest ∨ 0<(s.threads t).executes q) ∧
        (0<th'.executes q → th'.unstarted=rest') ∧
        (th'.executes q=0 → 0<(s.threads t).executes q → rest'=[])) :
    QueueInv s' q := by
  have htaken := sum_update (fun th => th.taken q) s.threads t th'
  have hraised := sum_update (fun th => th.raised q) s.threads t th'
  have hexec := sum_update (fun th => th.executes q) s.threads t th'
  have hhand := sum_update (fun th => th.mustHandOff q) s.threads t th'
  have hone := h.parties_le_one
  have hp := h.party
  have hc := h.count
  unfold parties at hone hp
  rw [← hth] at htaken hraised hexec hhand
  refine ⟨?_,?_,?_⟩
  · omega
  · unfold parties
    omega
  · obtain ⟨rest,happ,hrun,hnone⟩ := h.order
    have hzero : ∑ u, (s.threads u).executes q=0 → rest=[] := fun hz =>
      hnone ((sum_eq_zero_iff (fun th => Thread.executes q th) s.threads).mp hz)
    obtain ⟨rest',happ',hsame,hth',hout⟩ := horder rest happ (hrun t) hzero
    refine ⟨rest',happ',?_,?_⟩
    · intro u hu
      rw [hth] at hu ⊢
      by_cases he : u=t
      · subst he
        rw [Function.update_self] at hu ⊢
        exact hth' hu
      · rw [Function.update_of_ne he] at hu ⊢
        rcases hsame with hs|hpos
        · rw [hs]
          exact hrun u hu
        · have hle : ∑ u, (s.threads u).executes q ≤ 1 := by omega
          exact absurd (eq_of_sum_le_one (fun th => th.executes q) s.threads hle hu hpos) he
    · intro hall
      have hex' : th'.executes q=0 := by
        have hx := hall t
        rwa [hth,Function.update_self] at hx
      rcases Nat.eq_zero_or_pos ((s.threads t).executes q) with hz|hpos
      · have hsum : ∑ u, (s'.threads u).executes q=0 :=
          (sum_eq_zero_iff (fun th => Thread.executes q th) s'.threads).mpr hall
        rcases hsame with hs|hpos
        · rw [hs]
          exact hzero (by omega)
        · omega
      · exact hout hex' hpos

/-- The thread pushes; its batch, if it has one, stays as it is. -/
theorem QueueInv.aside (hexec : th'.executes q=(s.threads t).executes q)
    (hun : 0<th'.executes q → th'.unstarted=(s.threads t).unstarted)
    (hrecord : ∀ rest, (s.queues q).appended=(s.queues q).started++rest++(s.queues q).jobs →
      (s'.queues q).appended=(s'.queues q).started++rest++(s'.queues q).jobs) : QueueInv s' q := by
  refine h.move t th' hth hcount hparty ?_
  intro rest happ hrun _
  refine ⟨rest,hrecord rest happ,Or.inl rfl,fun hpos => ?_,fun hz hpos => ?_⟩
  · rw [hun hpos]
    exact hrun (hexec ▸ hpos)
  · omega

/-- The thread comes to execute the queue, which nobody executes. -/
theorem QueueInv.begin (hfree : ∑ u, (s.threads u).executes q=0) (hun : th'.unstarted=[])
    (hqueue : s'.queues q=s.queues q) : QueueInv s' q := by
  refine h.move t th' hth hcount hparty ?_
  intro rest happ _ hzero
  have hrest := hzero hfree
  subst hrest
  rw [hqueue]
  exact ⟨[],happ,Or.inl rfl,fun _ => hun,fun _ _ => rfl⟩

/-- The thread that executes the queue changes its batch. -/
theorem QueueInv.own (hself : 0<(s.threads t).executes q)
    (hrecord : (s.queues q).appended=
        (s.queues q).started++(s.threads t).unstarted++(s.queues q).jobs →
      (s'.queues q).appended=(s'.queues q).started++th'.unstarted++(s'.queues q).jobs)
    (hout : th'.executes q=0 → th'.unstarted=[]) : QueueInv s' q := by
  refine h.move t th' hth hcount hparty ?_
  intro rest happ hrun _
  rw [← hrun hself] at happ
  exact ⟨th'.unstarted,hrecord happ,Or.inr hself,fun _ => rfl,fun hz _ => hout hz⟩

end

/-- A queue the step does not touch. -/
theorem QueueInv.frame {s s' : State T Q J} {q : Q} (h : QueueInv s q) (t : T) (th' : Thread Q J)
    (hth : s'.threads=Function.update s.threads t th') (hq : s'.queues q=s.queues q)
    (hg : s'.globalQueue.count q=s.globalQueue.count q)
    (htaken : th'.taken q=(s.threads t).taken q) (hraised : th'.raised q=(s.threads t).raised q)
    (hexec : th'.executes q=(s.threads t).executes q)
    (hhand : th'.mustHandOff q=(s.threads t).mustHandOff q)
    (hun : 0<th'.executes q → th'.unstarted=(s.threads t).unstarted) : QueueInv s' q := by
  refine h.aside t th' hth ?_ ?_ hexec hun ?_
  · rw [hq,htaken,hraised]
  · rw [hq,hg,hexec,hhand]
  · rw [hq]
    exact fun _ happ => happ

attribute [local simp] State.setThread State.setQueue Thread.taken Thread.raised Thread.executes
  Thread.mustHandOff Thread.unstarted PushAt.prevCount PushAt.raised ExecuteAt.jobCount ExecuteAt.rest

/-- The invariant of every queue after one step, given that of the state before it. -/
theorem step_queueInv {s s' : State T Q J} (h : Inv s) (a : Action T Q J) (hs : step s a=some s')
    (q : Q) : QueueInv s' q := by
  have hq := h.queue q
  have hnn := hq.jobCount_nonneg
  cases a with
  | push t q0 j po =>
    simp only [step] at hs
    split at hs
    · rename_i hout
      cases hs
      have hp := (Thread.outside_iff.mp hout).1
      refine hq.frame t _ rfl rfl rfl ?_ ?_ ?_ ?_ ?_ <;> simp [hp]
    · cases hs
  | fetchAdd t =>
    simp only [step] at hs
    split at hs
    · rename_i q0 j po hp
      cases hs
      by_cases he : q0=q
      · subst he
        refine hq.aside t _ rfl ?_ ?_ rfl (fun _ => rfl) ?_
        · simp [hp]
          omega
        · have hne : (s.queues q0).jobCount+1≠0 := by omega
          simp [hp,hne,required]
          split <;> omega
        · intro rest happ
          simpa using happ
      · have hne : q≠q0 := fun e => he e.symm
        refine hq.frame t _ rfl ?_ rfl ?_ ?_ ?_ ?_ ?_ <;> simp [hp,he,hne]
    · cases hs
  | append t =>
    simp only [step] at hs
    split at hs
    · rename_i q0 j po prev hp
      cases hs
      by_cases he : q0=q
      · subst he
        refine hq.aside t _ rfl ?_ ?_ rfl (fun _ => rfl) ?_
        · simp [hp]
          omega
        · simp [hp]
        · intro rest happ
          simp [happ]
      · have hne : q≠q0 := fun e => he e.symm
        refine hq.frame t _ rfl ?_ rfl ?_ ?_ ?_ ?_ ?_ <;> simp [hp,he,hne]
    · cases hs
  | handOff t =>
    simp only [step] at hs
    split at hs
    · rename_i q0 j po prev hp
      have hpush := (h.thread t).caller (by simp [hp])
      split at hs
      · rename_i hprev
        subst hprev
        split at hs
        · rename_i hin
          cases hs
          have hex : (s.threads t).execute=none := by
            rcases hpush with hn|⟨q1,j1,rest,n,hj⟩
            · exact hn
            · have hcur := (h.thread t).current
              simp [hj,ExecuteAt.entered] at hcur
              simp [hcur] at hin
          by_cases he : q0=q
          · subst he
            have hone := hq.parties_le_one
            have hhand := le_sum (fun th => th.mustHandOff q0) s.threads t
            unfold parties at hone
            have hself : (s.threads t).mustHandOff q0=1 := by simp [hp]
            refine hq.begin t _ rfl ?_ ?_ (by omega) rfl rfl
            · simp [hp,hex]
            · simp [hp,hex]
          · refine hq.frame t _ rfl rfl rfl ?_ ?_ ?_ ?_ ?_ <;> simp [hp,hex,he]
        · cases hs
          by_cases he : q0=q
          · subst he
            refine hq.aside t _ rfl ?_ ?_ rfl (fun _ => rfl) fun _ happ => happ
            · simp [hp]
            · simp [hp]
              omega
          · refine hq.frame t _ rfl rfl ?_ ?_ ?_ ?_ ?_ ?_ <;> simp [hp,he]
      · rename_i hprev
        cases hs
        refine hq.frame t _ rfl rfl rfl ?_ ?_ ?_ ?_ ?_ <;> simp [hp,hprev]
    · cases hs
  | globalPop t =>
    simp only [step] at hs
    split at hs
    · rename_i q0 rest hp hex hg
      cases hs
      by_cases he : q0=q
      · subst he
        have hone := hq.parties_le_one
        unfold parties at hone
        rw [hg,List.count_cons_self] at hone
        refine hq.begin t _ rfl ?_ ?_ (by omega) rfl rfl
        · simp [hex]
        · simp [hex,hg]
      · refine hq.frame t _ rfl rfl ?_ ?_ ?_ ?_ ?_ ?_ <;> simp [hex,hg,he]
    · cases hs
  | enter t =>
    simp only [step] at hs
    split at hs
    · rename_i q0 hp
      cases hs
      refine hq.frame t _ rfl rfl rfl ?_ ?_ ?_ ?_ ?_ <;> simp [hp]
    · cases hs
  | popAll t =>
    simp only [step] at hs
    split at hs
    · rename_i q0 hp
      cases hs
      by_cases he : q0=q
      · subst he
        refine hq.own t _ rfl ?_ ?_ ?_ ?_ ?_ <;> simp [hp]
      · have hne : q≠q0 := fun e => he e.symm
        refine hq.frame t _ rfl ?_ rfl ?_ ?_ ?_ ?_ ?_ <;> simp [hp,he,hne]
    · cases hs
  | startJob t =>
    simp only [step] at hs
    split at hs
    · rename_i q0 j rest n hp
      cases hs
      by_cases he : q0=q
      · subst he
        refine hq.own t _ rfl ?_ ?_ ?_ ?_ ?_ <;> simp [hp]
      · have hne : q≠q0 := fun e => he e.symm
        refine hq.frame t _ rfl ?_ rfl ?_ ?_ ?_ ?_ ?_ <;> simp [hp,he,hne]
    · cases hs
  | endJob t =>
    simp only [step] at hs
    split at hs
    · rename_i q0 j rest n hpush hp
      cases hs
      refine hq.frame t _ rfl rfl rfl ?_ ?_ ?_ ?_ ?_ <;> simp [hp]
    · cases hs
  | fetchSub t =>
    simp only [step] at hs
    split at hs
    · rename_i q0 n hp
      by_cases he : q0=q
      · subst he
        have hone := hq.party
        have hex := le_sum (fun th => th.executes q0) s.threads t
        have hself : (s.threads t).executes q0=1 := by simp [hp]
        unfold parties at hone
        have hpos : (s.queues q0).jobCount≠0 := by
          intro hz
          rw [hz,required_zero] at hone
          omega
        split at hs
        · rename_i hn
          cases hs
          refine hq.own t _ rfl ?_ ?_ (by omega) (by simp [hp]) (by simp)
          · simp [hp]
            omega
          · rw [required_of_ne hpos]
            simp [hp,hn]
            omega
        · rename_i hn
          cases hs
          have hne : (s.queues q0).jobCount-n≠0 := by omega
          refine hq.own t _ rfl ?_ ?_ (by omega) (by simp [hp]) (by simp)
          · simp [hp]
            omega
          · simp [hp,hpos,hne]
      · have hne : q≠q0 := fun e => he e.symm
        split at hs <;> cases hs <;>
          refine hq.frame t _ rfl ?_ rfl ?_ ?_ ?_ ?_ ?_ <;> simp [hp,he,hne]
    · cases hs
  | tick t expired =>
    simp only [step] at hs
    split at hs
    · rename_i q0 hp
      split at hs <;> cases hs <;>
        refine hq.frame t _ rfl rfl rfl ?_ ?_ ?_ ?_ ?_ <;> simp [hp]
    · cases hs
  | rePush t =>
    simp only [step] at hs
    split at hs
    · rename_i q0 hp
      cases hs
      by_cases he : q0=q
      · subst he
        refine hq.own t _ rfl ?_ ?_ ?_ ?_ ?_ <;> simp [hp]
      · refine hq.frame t _ rfl rfl ?_ ?_ ?_ ?_ ?_ ?_ <;> simp [hp,he]
    · cases hs

theorem Inv.setThread {s s' : State T Q J} (h : Inv s) (t : T) (th' : Thread Q J)
    (hth : s'.threads=Function.update s.threads t th') (hok : th'.Ok) (u : T) :
    (s'.threads u).Ok := by
  rw [hth]
  by_cases he : u=t
  · subst he
    rwa [Function.update_self]
  · rw [Function.update_of_ne he]
    exact h.thread u

theorem step_threadOk {s s' : State T Q J} (h : Inv s) (a : Action T Q J) (hs : step s a=some s')
    (u : T) : (s'.threads u).Ok := by
  cases a with
  | push t q j po =>
    simp only [step] at hs
    split at hs
    · rename_i hout
      cases hs
      refine h.setThread t _ rfl ⟨fun _ => ?_,?_⟩ u
      · exact (Thread.outside_iff.mp hout).2
      · exact (h.thread t).current
    · cases hs
  | fetchAdd t | append t =>
    simp only [step] at hs
    split at hs
    · rename_i hp
      cases hs
      refine h.setThread t _ rfl ⟨fun _ => ?_,?_⟩ u
      · exact (h.thread t).caller (by simp [hp])
      · exact (h.thread t).current
    · cases hs
  | handOff t =>
    simp only [step] at hs
    split at hs
    · split at hs
      · split at hs
        · rename_i hinline
          cases hs
          simp only [Bool.and_eq_true,Option.isNone_iff_eq_none] at hinline
          refine h.setThread t _ rfl ⟨by simp,?_⟩ u
          simp [hinline.1,ExecuteAt.entered]
        · cases hs
          refine h.setThread t _ rfl ⟨by simp,?_⟩ u
          exact (h.thread t).current
      · cases hs
        refine h.setThread t _ rfl ⟨by simp,?_⟩ u
        exact (h.thread t).current
    · cases hs
  | globalPop t =>
    simp only [step] at hs
    split at hs
    · rename_i hp hex _
      cases hs
      refine h.setThread t _ rfl ⟨by simp [hp],?_⟩ u
      simpa [hex,ExecuteAt.entered] using (h.thread t).current
    · cases hs
  | startJob t =>
    simp only [step] at hs
    split at hs
    · rename_i q j rest n hp
      cases hs
      refine h.setThread t _ rfl ⟨fun _ => Or.inr ⟨q,j,rest,n,rfl⟩,?_⟩ u
      simpa [hp,ExecuteAt.entered] using (h.thread t).current
    · cases hs
  | endJob t =>
    simp only [step] at hs
    split at hs
    · rename_i hp hex
      cases hs
      refine h.setThread t _ rfl ⟨by simp [hp],?_⟩ u
      simpa [hex,ExecuteAt.entered] using (h.thread t).current
    · cases hs
  | enter t | popAll t =>
    simp only [step] at hs
    split at hs
    · rename_i hp
      cases hs
      have hno := (h.thread t).push_none hp nofun
      have hcur := (h.thread t).current
      refine h.setThread t _ rfl ⟨by simp [hno],?_⟩ u
      simp_all [ExecuteAt.entered]
    · cases hs
  | fetchSub t =>
    simp only [step] at hs
    split at hs
    · rename_i hp
      have hno := (h.thread t).push_none hp nofun
      have hcur := (h.thread t).current
      split at hs <;> cases hs <;> refine h.setThread t _ rfl ⟨by simp [hno],?_⟩ u
      · rfl
      · simp_all [ExecuteAt.entered]
    · cases hs
  | tick t expired =>
    simp only [step] at hs
    split at hs
    · rename_i hp
      have hno := (h.thread t).push_none hp nofun
      have hcur := (h.thread t).current
      split at hs <;> cases hs <;> refine h.setThread t _ rfl ⟨by simp [hno],?_⟩ u
      · rfl
      · simp_all [ExecuteAt.entered]
    · cases hs
  | rePush t =>
    simp only [step] at hs
    split at hs
    · rename_i hp
      cases hs
      have hno := (h.thread t).push_none hp nofun
      refine h.setThread t _ rfl ⟨by simp [hno],?_⟩ u
      simpa [hp,ExecuteAt.entered] using (h.thread t).current
    · cases hs

theorem step_inv {s s' : State T Q J} (a : Action T Q J) (hs : step s a=some s') (h : Inv s) :
    Inv s' :=
  ⟨step_threadOk h a hs,step_queueInv h a hs⟩

theorem reaches_inv {s : State T Q J} (hr : Reaches step Any State.init s) : Inv s :=
  hr.invariant inv_init fun _ a _ h _ hs => step_inv a hs h

theorem Inv.executor_unique {s : State T Q J} (h : Inv s) {q : Q} {t u : T}
    (ht : 0<(s.threads t).executes q) (hu : 0<(s.threads u).executes q) : t=u := by
  have hone := (h.queue q).parties_le_one
  unfold parties at hone
  exact eq_of_sum_le_one (fun th => th.executes q) s.threads (by omega) ht hu

omit [Fintype T] [DecidableEq T] in
theorem Thread.RunsJobOf.executes_pos {th : Thread Q J} {q : Q} (h : th.RunsJobOf q) :
    0<th.executes q := by
  obtain ⟨j,rest,n,he⟩ := h
  simp [he]

omit [DecidableEq T] in
theorem QueueInv.runs_in_order {s : State T Q J} {q : Q} (h : QueueInv s q) :
    (s.queues q).started <+: (s.queues q).appended := by
  obtain ⟨rest,happ,-⟩ := h.order
  exact ⟨rest++(s.queues q).jobs,by rw [happ,List.append_assoc]⟩

omit [DecidableEq T] in
/-- An idle queue has run everything that was appended to it. -/
theorem QueueInv.started_eq {s : State T Q J} {q : Q} (h : QueueInv s q)
    (h0 : (s.queues q).jobCount=0) : (s.queues q).started=(s.queues q).appended := by
  have hp := h.party
  rw [h0,required_zero] at hp
  unfold parties at hp
  have hjobs : (s.queues q).jobs=[] := by
    have hc := h.count
    exact List.eq_nil_of_length_eq_zero (by omega)
  obtain ⟨rest,happ,-,hnone⟩ := h.order
  have hrest := hnone ((sum_eq_zero_iff (fun th => Thread.executes q th) s.threads).mp (by omega))
  simp [happ,hrest,hjobs]

/-- Jobs of one queue run one at a time, each at most as often as it was appended, and in the
order in which they were appended. -/
theorem jobs_serialized [BEq J] {s : State T Q J} (hr : Reaches step Any State.init s) (q : Q) :
    (∀ t u, (s.threads t).RunsJobOf q → (s.threads u).RunsJobOf q → t=u) ∧
    (∀ j, (s.queues q).started.count j ≤ (s.queues q).appended.count j) ∧
    (s.queues q).started <+: (s.queues q).appended := by
  have h := reaches_inv hr
  have hpre := (h.queue q).runs_in_order
  exact ⟨fun t u ht hu => h.executor_unique ht.executes_pos hu.executes_pos,
    fun j => hpre.sublist.count_le j,hpre⟩

/-- A worker runs a job which pushes another job to its own queue. -/
def selfPush : List (Action (Fin 2) Unit Nat) :=
  [.push 0 () 7 true,.fetchAdd 0,.append 0,.handOff 0,.globalPop 1,.enter 1,.popAll 1,.startJob 1,
   .push 1 () 8 false,.fetchAdd 1,.append 1,.handOff 1]

theorem jobs_serialized_selfPush : ∃ s, runActions step State.init selfPush=some s ∧
    (s.threads 1).RunsJobOf () ∧ (∀ t, (s.threads t).RunsJobOf () → t=1) ∧
    (s.queues ()).started=[7] ∧ (s.queues ()).started <+: (s.queues ()).appended := by
  refine ⟨_,rfl,⟨7,[],1,rfl⟩,?_,rfl,?_⟩
  · intro t ht
    exact (jobs_serialized (Reaches.of_runActions (fun _ _ => trivial) selfPush rfl) ()).1 t 1 ht ⟨7,[],1,rfl⟩
  · exact (jobs_serialized (Reaches.of_runActions (fun _ _ => trivial) selfPush rfl) ()).2.2

/-- Exactly one party is responsible for a queue whose counter is positive and none for one whose
counter is 0, so a queue with an appended job that has not run is never stranded. -/
theorem one_party_responsible {s : State T Q J} (hr : Reaches step Any State.init s) (q : Q) :
    0 ≤ (s.queues q).jobCount ∧
    (0<(s.queues q).jobCount → parties s q=1) ∧
    ((s.queues q).jobCount=0 → parties s q=0) ∧
    ((s.queues q).started≠(s.queues q).appended → parties s q=1) := by
  have h := (reaches_inv hr).queue q
  have hp := h.party
  refine ⟨h.jobCount_nonneg,fun hpos => ?_,fun h0 => ?_,fun hne => ?_⟩
  · rw [hp,required_of_ne (by omega)]
  · rw [hp,h0,required_zero]
  · rw [hp,required_of_ne fun h0 => hne (h.started_eq h0)]

/-- A pusher has raised the counter and not appended when the worker looks for more jobs. -/
def emptyPop : List (Action (Fin 2) Unit Nat) :=
  [.push 0 () 7 true,.fetchAdd 0,.append 0,.handOff 0,.globalPop 1,.enter 1,.popAll 1,.startJob 1,
   .endJob 1,.push 0 () 8 false,.fetchAdd 0,.fetchSub 1,.tick 1 false,.popAll 1,.fetchSub 1,
   .tick 1 true,.append 0]

theorem one_party_responsible_emptyPop : ∃ s, runActions step State.init emptyPop=some s ∧
    (s.queues ()).started=[7] ∧ (s.queues ()).appended=[7,8] ∧ parties s ()=1 := by
  refine ⟨_,rfl,rfl,rfl,?_⟩
  exact (one_party_responsible (Reaches.of_runActions (fun _ _ => trivial) emptyPop rfl) ()).2.2.2 (by decide)

end IocpServer.Job
