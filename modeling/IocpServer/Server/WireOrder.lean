import IocpServer.Job.Serialization
import IocpServer.Job.Steps
import IocpServer.Server.ReceivePath

set_option linter.unusedSectionVars false

namespace IocpServer.Server.Dispatch

open NetWork (readPacket packetFormat RecvBuffer)
open Framing (parse)
open Pool (weight weight_cons weight_add total pending)

variable {P S : Type} [DecidableEq S]

/-- The thread of the frame holds `_logic_lock`. -/
def Frame.locks : Frame P → Nat
  | .posted _ | .queued => 1
  | _ => 0

/-- The frame is the job of the session that its thread runs. -/
def Frame.runs : Frame P → Nat
  | .job _ | .handler _ | .cleanup | .endLogic => 1
  | _ => 0

/-- The packet whose job has started and has not yet asked whether the session is connected. -/
def Frame.starting : Frame P → Multiset P
  | .job (.packet pkt) => {pkt}
  | _ => 0

/-- The frame neither runs a job nor locks. -/
def Frame.plain : Frame P → Bool
  | .posted _ | .queued | .job _ | .handler _ | .cleanup | .endLogic => false
  | _ => true

theorem Frame.plain_spec {f : Frame P} (h : f.plain=true) : f.runs=0 ∧ f.locks=0 ∧ f.starting=0 := by
  cases f <;> first | exact ⟨rfl,rfl,rfl⟩ | cases h

theorem Frame.body_spec {f : Frame P} (h : f.isBody=true) : f.runs=1 ∧ f.locks=0 ∧ f.starting=0 := by
  cases f <;> first | exact ⟨rfl,rfl,rfl⟩ | cases h

/-- A step keeps what runs on its thread, locks what it says it locks, and starts no job. -/
structure Steady (c : Core P S) (f : Frame P) (r : Outcome P S) : Prop where
  runs : (r.frames.map Frame.runs).sum ≤ f.runs
  locks : (r.frames.map Frame.locks).sum+c.logicLock.toNat=f.locks+r.core.logicLock.toNat
  starting : ∀ g∈r.frames, g.starting=0
  push : (r.push=none ∧ r.core.pushed=c.pushed) ∨
    ∃ job g, r.push=some job ∧ r.core.pushed=c.pushed++[job] ∧ c.logicLock=false ∧ r.frames=[g] ∧
      g.locks=1

theorem sum_eq_zero_of_mem {w : Frame P → Nat} {fs : List (Frame P)} (h : ∀ g∈fs, w g=0) :
    (fs.map w).sum=0 := by
  apply List.sum_eq_zero
  intro n hn
  obtain ⟨g,hg,rfl⟩ := List.mem_map.mp hn
  exact h g hg

theorem Steady.of_plain {c : Core P S} {f : Frame P} {r : Outcome P S} (hf : f.locks=0)
    (hpush : r.push=none) (hp : r.core.pushed=c.pushed) (hl : r.core.logicLock=c.logicLock)
    (hfs : ∀ g∈r.frames, g.plain=true) : Steady c f r := by
  refine ⟨?_,?_,fun g hg => (Frame.plain_spec (hfs g hg)).2.2,Or.inl ⟨hpush,hp⟩⟩
  · rw [sum_eq_zero_of_mem fun g hg => (Frame.plain_spec (hfs g hg)).1]
    exact Nat.zero_le _
  · rw [sum_eq_zero_of_mem fun g hg => (Frame.plain_spec (hfs g hg)).2.1,hf,hl]

/-- The job of the thread goes on, after a call if there is one. -/
theorem Steady.of_runs {c : Core P S} {f g : Frame P} {r : Outcome P S} (hf : f.runs=1 ∧ f.locks=0)
    (hpush : r.push=none) (hp : r.core.pushed=c.pushed) (hl : r.core.logicLock=c.logicLock)
    (hg : g.runs=1 ∧ g.locks=0 ∧ g.starting=0) (hfs : r.frames=[g] ∨ r.frames=[.disconnect,g]) :
    Steady c f r := by
  obtain ⟨h1,h2,h3⟩ := hg
  rcases hfs with hfs|hfs
  · refine ⟨?_,?_,?_,Or.inl ⟨hpush,hp⟩⟩
    · simp [hfs,h1,hf.1]
    · simp [hfs,h2,hf.2,hl]
    · simp [hfs,h3]
  · obtain ⟨d1,d2,d3⟩ := Frame.plain_spec (f:=(.disconnect : Frame P)) rfl
    refine ⟨?_,?_,?_,Or.inl ⟨hpush,hp⟩⟩
    · simp [hfs,h1,hf.1,d1]
    · simp [hfs,h2,hf.2,hl,d2]
    · simp [hfs,h3,d3]

theorem exec_steady {e : Env P} {x : S} {c : Core P S} {o : Choice} {f : Frame P} {r : Outcome P S}
    (h : exec e x c o f=some r) (hlock : f.locks=1 → c.logicLock=true) : Steady c f r := by
  cases exec_move h with
  | postLogic _ _ hfree | queueCleanup hfree =>
    exact ⟨by simp [Frame.runs],by simp [Frame.locks,hfree],by simp [Frame.starting],
      Or.inr ⟨_,_,rfl,rfl,hfree,rfl,rfl⟩⟩
  | posted | queued =>
    have hheld := hlock rfl
    exact ⟨by simp [Frame.runs],by simp [Frame.locks,hheld],by simp [Frame.starting],
      Or.inl ⟨rfl,rfl⟩⟩
  | handle | drop | startCleanup =>
    exact .of_runs ⟨rfl,rfl⟩ rfl rfl rfl ⟨rfl,rfl,rfl⟩ (Or.inl rfl)
  | jobEnds f hbody =>
    obtain ⟨hruns,hlocks,-⟩ := Frame.body_spec hbody
    exact .of_runs ⟨hruns,hlocks⟩ rfl rfl rfl ⟨rfl,rfl,rfl⟩ (Or.inl rfl)
  | jobRuns f hbody =>
    obtain ⟨hruns,hlocks,hstart⟩ := Frame.body_spec hbody
    exact .of_runs ⟨hruns,hlocks⟩ rfl rfl rfl ⟨hruns,hlocks,hstart⟩ (Or.inl rfl)
  | jobDisconnects f hbody =>
    obtain ⟨hruns,hlocks,hstart⟩ := Frame.body_spec hbody
    exact .of_runs ⟨hruns,hlocks⟩ rfl rfl rfl ⟨hruns,hlocks,hstart⟩ (Or.inr rfl)
  | _ => exact .of_plain rfl rfl rfl rfl (by simp [Frame.plain])

/-- What a step means for the connection and the handlers. -/
theorem exec_connection {e : Env P} {x : S} {c : Core P S} {o : Choice} {f : Frame P}
    {r : Outcome P S} (h : exec e x c o f=some r) :
    (f=.storeConnect ∨ f=.rejectConnection) ∧ r.core.handled=c.handled ∨
    (∃ pkt, f=.job (.packet pkt) ∧ r.core.isConnect=c.isConnect ∧
      r.core.handled=if c.isConnect then c.handled++[pkt] else c.handled) ∨
    f.starting=0 ∧ r.core.handled=c.handled ∧
      (r.core.isConnect=c.isConnect ∨ r.core.isConnect=false) := by
  cases exec_move h with
  | storeConnect => exact Or.inl ⟨Or.inl rfl,rfl⟩
  | connected | rejectConnection => exact Or.inl ⟨Or.inr rfl,rfl⟩
  | disconnect | disconnected | closeFlags | closeSocket =>
    exact Or.inr (Or.inr ⟨rfl,rfl,Or.inr rfl⟩)
  | handle pkt _ hon => exact Or.inr (Or.inl ⟨pkt,rfl,rfl,(if_pos hon).symm⟩)
  | drop pkt hoff => exact Or.inr (Or.inl ⟨pkt,rfl,rfl,(if_neg (by simp [hoff])).symm⟩)
  | jobEnds f hbody | jobRuns f hbody | jobDisconnects f hbody =>
    exact Or.inr (Or.inr ⟨(Frame.body_spec hbody).2.2,rfl,Or.inl rfl⟩)
  | _ => exact Or.inr (Or.inr ⟨rfl,rfl,Or.inl rfl⟩)

variable {T Q : Type} [Fintype T] [DecidableEq T] [DecidableEq Q] {q : Q}

open Job (Thread)

/-- The job that the thread has begun to push to the queue and not yet stored there. -/
def pushing (q : Q) (th : Thread Q (Logic P)) : Multiset (Logic P) :=
  match th.push with
  | some ⟨q',job,_,.fetchAdd⟩ | some ⟨q',job,_,.append _⟩ => if q'=q then {job} else 0
  | _ => 0

/-- How the frames of a thread fit to where it stands in the job queues: it pushes to the queue of the
session only under `_logic_lock`, executes none of the queues while it is in the session, and is in a
job of the session only where it runs one. -/
structure Fits (q : Q) (th : Thread Q (Logic P)) (fs : List (Frame P)) : Prop where
  push : ∀ p, th.push=some p → p.queue=q → ∃ f rest, fs=f::rest ∧ f.locks=1
  alone : ∀ p, th.push=some p → p.pushOnly=false → fs=[]
  between : ∀ ex, th.execute=some ex → ex.pc.isOutside=true → fs=[]
  runs : (fs.map Frame.runs).sum ≤ (jobOf q th).toList.length

theorem outside_cases {th : Thread Q (Logic P)} (h : th.outside=true) :
    th.push=none ∧ ∀ ex, th.execute=some ex → ex.pc.isOutside=false := by
  obtain ⟨hp,hex⟩ := Job.Thread.outside_iff.mp h
  refine ⟨hp,fun ex he => ?_⟩
  rcases hex with hn|⟨q',j,rest,n,hj⟩
  · rw [hn] at he
    cases he
  · rw [hj] at he
    cases he
    rfl

/-- A thread that is outside the job queues goes on in the session. -/
theorem Fits.go {th : Thread Q (Logic P)} {fs gs : List (Frame P)} (h : Fits q th fs)
    (hout : th.outside=true) (hruns : (gs.map Frame.runs).sum ≤ (fs.map Frame.runs).sum) :
    Fits q th gs := by
  obtain ⟨hp,hex⟩ := outside_cases hout
  refine ⟨?_,?_,?_,Nat.le_trans hruns h.runs⟩
  · intro p hpush
    rw [hp] at hpush
    cases hpush
  · intro p hpush
    rw [hp] at hpush
    cases hpush
  · intro ex he hin
    rw [hex ex he] at hin
    cases hin

theorem jobOf_of_execute (th : Thread Q (Logic P)) {th' : Thread Q (Logic P)} (h : th'.execute=th.execute) :
    jobOf q th'=jobOf q th := by
  rw [jobOf,jobOf,h]

/-- The frames of a thread after a step of the job queues. -/
def callsAfter (q : Q) (jobs : Job.State T Q (Logic P)) (calls : T → List (Frame P))
    (a : Job.Action T Q (Logic P)) : T → List (Frame P) :=
  match startOf a with
  | none => calls
  | some t => Function.update calls t ((jobOf q (jobs.threads t)).toList.map Frame.job++calls t)

theorem callsAfter_of_ne {jobs : Job.State T Q (Logic P)} {calls : T → List (Frame P)}
    {a : Job.Action T Q (Logic P)} (h : ∀ u, a≠.startJob u) : callsAfter q jobs calls a=calls := by
  cases a with
  | startJob u => exact absurd rfl (h u)
  | _ => rfl

theorem Fits.change {s s' : Job.State T Q (Logic P)} {t : T} {a : Job.Action T Q (Logic P)}
    {calls : T → List (Frame P)} (hc : Job.Change s s' t a) (hadm : admits q calls a=true)
    (hok : (s.threads t).Ok) (h : Fits q (s.threads t) (calls t)) : Fits q (s'.threads t) (callsAfter q s' calls a t) := by
  cases hc with
  | push q' j po hout hth hrec =>
    simp only [admits,Bool.and_eq_true,decide_eq_true_eq,Bool.or_eq_true,List.isEmpty_iff] at hadm
    obtain ⟨hp,hex⟩ := outside_cases hout
    refine ⟨?_,?_,?_,?_⟩
    · intro p hpush hq
      rw [hth] at hpush
      cases hpush
      exact absurd hq hadm.1
    · intro p hpush hpo
      rw [hth] at hpush
      cases hpush
      exact hadm.2.resolve_right fun htrue => absurd (htrue.symm.trans hpo) nofun
    · intro ex he hin
      rw [hth] at he
      exact h.between ex he hin
    · rw [jobOf_of_execute (s.threads t) (by rw [hth])]
      exact h.runs
  | fetchAdd q' j po n hp hth hrec | append q' j po n hp hth hnew hold hst =>
    refine ⟨?_,?_,?_,?_⟩
    · intro p hpush hq
      rw [hth] at hpush
      cases hpush
      exact h.push _ hp hq
    · intro p hpush hpo
      rw [hth] at hpush
      cases hpush
      exact h.alone _ hp hpo
    · intro ex he hin
      rw [hth] at he
      exact h.between ex he hin
    · rw [jobOf_of_execute (s.threads t) (by rw [hth])]
      exact h.runs
  | leave q' j po n hp hth hrec =>
    refine ⟨?_,?_,?_,?_⟩
    · intro p hpush
      rw [hth] at hpush
      cases hpush
    · intro p hpush
      rw [hth] at hpush
      cases hpush
    · intro ex he hin
      rw [hth] at he
      exact h.between ex he hin
    · rw [jobOf_of_execute (s.threads t) (by rw [hth])]
      exact h.runs
  | inlined q' j n hp hth hrec =>
    have hnil := h.alone _ hp rfl
    refine ⟨?_,?_,fun _ _ _ => hnil,?_⟩
    · intro p hpush
      rw [hth] at hpush
      cases hpush
    · intro p hpush
      rw [hth] at hpush
      cases hpush
    · change ((calls t).map Frame.runs).sum ≤ _
      rw [hnil]
      exact Nat.zero_le _
  | globalPop q' hp he hth hrec =>
    have hnil : calls t=[] := List.isEmpty_iff.mp hadm
    refine ⟨?_,?_,fun _ _ _ => hnil,?_⟩
    · intro p hpush
      rw [hth] at hpush
      exact h.push p hpush
    · intro p hpush
      rw [hth] at hpush
      exact h.alone p hpush
    · change ((calls t).map Frame.runs).sum ≤ _
      rw [hnil]
      exact Nat.zero_le _
  | between _ ex ex' current he hout hout' hth hstart hrec =>
    have hnil := h.between ex he hout
    rw [callsAfter_of_ne hstart,hnil]
    refine ⟨?_,fun _ _ _ => rfl,fun _ _ _ => rfl,Nat.zero_le _⟩
    intro p hpush hq
    rw [hth] at hpush
    obtain ⟨f,rest,hf,-⟩ := h.push p hpush hq
    rw [hnil] at hf
    cases hf
  | startJob q' j rest n he hth hnew hold happ =>
    have hnil := h.between _ he rfl
    have hnone : (s'.threads t).push=none := by
      rw [hth]
      exact hok.push_none he nofun
    have hcalls : callsAfter q s' calls (.startJob t) t=(jobOf q (s'.threads t)).toList.map Frame.job := by
      simp only [callsAfter,startOf,Function.update_self,hnil,List.append_nil]
    rw [hcalls]
    refine ⟨?_,?_,?_,?_⟩
    · intro p hpush
      rw [hnone] at hpush
      cases hpush
    · intro p hpush
      rw [hnone] at hpush
      cases hpush
    · intro ex hex hin
      rw [hth] at hex
      cases hex
      cases hin
    · cases jobOf q (s'.threads t) with
      | none => exact Nat.zero_le _
      | some j => exact Nat.le_refl 1
  | endJob q' j rest n hp he hth hrec =>
    have hnil : calls t=[] := List.isEmpty_iff.mp hadm
    refine ⟨?_,?_,fun _ _ _ => hnil,?_⟩
    · intro p hpush
      rw [hth] at hpush
      exact h.push p hpush
    · intro p hpush
      rw [hth] at hpush
      exact h.alone p hpush
    · change ((calls t).map Frame.runs).sum ≤ _
      rw [hnil]
      exact Nat.zero_le _

/-- The queue has at most one thread in its jobs. -/
theorem sum_jobOf_le_one {s : Job.State T Q (Logic P)} (h : Job.Inv s) (q : Q) :
    ∑ t, (jobOf q (s.threads t)).toList.length ≤ 1 := by
  have hone := (h.queue q).parties_le_one
  have hle : ∑ t, (jobOf q (s.threads t)).toList.length ≤ ∑ t, (s.threads t).executes q := by
    apply Finset.sum_le_sum
    intro t _
    unfold jobOf
    split
    · rename_i q' j rest n he
      split
      · rename_i hq
        simp [Job.Thread.executes,he,hq]
      · exact Nat.zero_le _
    · exact Nat.zero_le _
  unfold Job.parties at hone
  omega

/-- What relates the frames of the threads to the queue of the session: the lock has one holder, all
jobs pushed and not yet stored are on their way, and as long as the session is connected every packet
whose job has started is handled, in the order of the starts. -/
structure Runs (q : Q) (s : State T Q P S) : Prop where
  fits : ∀ t, Fits q (s.jobs.threads t) (s.calls t)
  lock : weight Frame.locks (pending s.calls)=s.core.logicLock.toNat
  stored : Gated true (s.jobs.queues q).appended (∑ t, pushing q (s.jobs.threads t)) s.core.pushed
  handled : Gated s.core.isConnect s.core.handled ((pending s.calls).bind Frame.starting)
    ((s.jobs.queues q).started.filterMap Logic.packet?)

theorem Runs.weight_runs_le {s : State T Q P S} (h : Runs q s) (hj : Job.Inv s.jobs) :
    weight Frame.runs (pending s.calls) ≤ 1 := by
  rw [Pool.weight_pending]
  exact Nat.le_trans (Finset.sum_le_sum fun t _ => (h.fits t).runs) (sum_jobOf_le_one hj q)

theorem bind_starting_eq_zero {m : Multiset (Frame P)} (h : ∀ f∈m, f.starting=0) :
    m.bind Frame.starting=0 := by
  apply Multiset.eq_zero_of_forall_notMem
  intro pkt hp
  obtain ⟨f,hf,hpkt⟩ := Multiset.mem_bind.mp hp
  rw [h f hf] at hpkt
  exact Multiset.notMem_zero pkt hpkt

theorem starting_of_runs {m : Multiset (Frame P)} (h : weight Frame.runs m=0) :
    m.bind Frame.starting=0 := by
  apply bind_starting_eq_zero
  intro f hf
  have hzero : f.runs=0 := Nat.eq_zero_of_le_zero (h ▸ Pool.le_weight hf)
  cases f <;> first | rfl | cases hzero

theorem pushing_eq_zero {th : Thread Q (Logic P)} (h : ∀ p, th.push=some p → p.queue≠q) :
    pushing q th=0 := by
  unfold pushing
  split
  · rename_i hp
    exact if_neg (h _ hp)
  · rename_i hp
    exact if_neg (h _ hp)
  · rfl

/-- Only the holder of the lock pushes to the queue of the session. -/
theorem Runs.locks_of_push {s : State T Q P S} (h : Runs q s) {t : T} {p : Job.PushCall Q (Logic P)}
    (hp : (s.jobs.threads t).push=some p) (hq : p.queue=q) :
    0<((s.calls t).map Frame.locks).sum := by
  obtain ⟨f,rest,hcalls,hf⟩ := (h.fits t).push p hp hq
  rw [hcalls,List.map_cons,List.sum_cons,hf]
  omega

theorem Runs.free {s : State T Q P S} (h : Runs q s) (hfree : s.core.logicLock=false) (t : T) :
    pushing q (s.jobs.threads t)=0 := by
  apply pushing_eq_zero
  intro p hp hq
  have hpos := h.locks_of_push hp hq
  have hlock := h.lock
  rw [Pool.weight_pending,hfree,Bool.toNat_false] at hlock
  have hle := le_sum (fun fs : List (Frame P) => (fs.map Frame.locks).sum) s.calls t
  omega

/-- What has come through to the jobs of the queue was dispatched before. -/
theorem Runs.nothing_started {e : Env P} {s : State T Q P S} (h : Runs q s) (hj : Job.Inv s.jobs)
    {m : Multiset (Frame P)} (hr : Receives e s.core m) (hn : s.core.dispatched=[]) :
    (s.jobs.queues q).started.filterMap Logic.packet?=[] := by
  have hposted := hr.post.isPrefix
  rw [hn,List.filterMap_nil,List.prefix_nil] at hposted
  have hstarted := ((hj.queue q).runs_in_order.trans h.stored.isPrefix).filterMap Logic.packet?
  rw [hposted] at hstarted
  exact List.prefix_nil.mp hstarted

theorem Runs.run {e : Env P} {x : S} {s : State T Q P S} {t : T} {o : Choice} {f : Frame P}
    {rest : List (Frame P)} {r : Outcome P S} {m : Multiset (Frame P)} (h : Runs q s)
    (hj : Job.Inv s.jobs) (hr : Receives e s.core (f::ₘm)) (hout : (s.jobs.threads t).outside=true)
    (hcalls : s.calls t=f::rest) (hm : pending s.calls=f::ₘm)
    (hm' : pending (Function.update s.calls t (r.frames++rest))=r.frames+m)
    (hx : exec e x s.core o f=some r) {jobs : Job.State T Q (Logic P)}
    (hjobs : pushJob q t s.jobs r.push=some jobs) :
    Runs q ⟨r.core,jobs,Function.update s.calls t (r.frames++rest)⟩ := by
  have hlock := h.lock
  have hheld : f.locks=1 → s.core.logicLock=true := by
    intro hf
    rw [hm,weight_cons,hf] at hlock
    cases hl : s.core.logicLock with
    | true => rfl
    | false =>
      rw [hl,Bool.toNat_false] at hlock
      omega
  obtain ⟨hruns,hlocks,hstart,hpush⟩ := exec_steady hx hheld
  have hsum : ((r.frames++rest).map Frame.runs).sum ≤ ((s.calls t).map Frame.runs).sum := by
    rw [hcalls,List.map_append,List.sum_append,List.map_cons,List.sum_cons]
    omega
  have hgo : ∀ u, Fits q (s.jobs.threads u) (Function.update s.calls t (r.frames++rest) u) := by
    intro u
    by_cases hu : u=t
    · subst hu
      rw [Function.update_self]
      exact (h.fits u).go hout hsum
    · rw [Function.update_of_ne hu]
      exact h.fits u
  refine ⟨?_,?_,?_,?_⟩
  · rcases hpush with ⟨hp,-⟩|⟨job,g,hp,-,-,hfs,hg⟩
    · rw [hp] at hjobs
      cases hjobs
      exact hgo
    · rw [hp] at hjobs
      cases (if_pos hout).symm.trans hjobs
      intro u
      by_cases hu : u=t
      · subst hu
        have hth := Job.State.setThread_self s.jobs u
          { s.jobs.threads u with push := some ⟨q,job,true,.fetchAdd⟩ }
        refine ⟨?_,?_,?_,?_⟩
        · intro p _ _
          exact ⟨g,rest,by simp [hfs],hg⟩
        · intro p hpush hpo
          rw [hth] at hpush
          cases hpush
          cases hpo
        · intro ex hex hin
          rw [hth] at hex
          rw [(outside_cases hout).2 ex hex] at hin
          cases hin
        · rw [jobOf_of_execute (s.jobs.threads u) (by rw [hth])]
          exact (hgo u).runs
      · rw [Job.State.setThread_of_ne s.jobs hu]
        exact hgo u
  · rw [hm',weight_add,total]
    rw [hm,weight_cons] at hlock
    simp only
    omega
  · rcases hpush with ⟨hp,hsame⟩|⟨job,g,hp,hnew,hfree,-,-⟩
    · rw [hp] at hjobs
      cases hjobs
      rw [hsame]
      exact h.stored
    · rw [hp] at hjobs
      cases (if_pos hout).symm.trans hjobs
      have hnone := h.free hfree
      have hstored := h.stored
      rw [Finset.sum_eq_zero fun u _ => hnone u] at hstored
      have hsum' : ∑ u, pushing q ((s.jobs.setThread t
          { s.jobs.threads t with push := some ⟨q,job,true,.fetchAdd⟩ }).threads u)={job} := by
        rw [Finset.sum_eq_single t]
        · rw [Job.State.setThread_self]
          exact if_pos rfl
        · intro u _ hu
          rw [Job.State.setThread_of_ne s.jobs hu]
          exact hnone u
        · exact fun hu => absurd (Finset.mem_univ t) hu
      rw [hsum',hnew]
      exact hstored.arrive job
  · have hstarted : (jobs.queues q).started=(s.jobs.queues q).started := by
      rcases hpush with ⟨hp,-⟩|⟨job,g,hp,-⟩ <;> rw [hp] at hjobs
      · cases hjobs
        rfl
      · cases (if_pos hout).symm.trans hjobs
        rfl
    have hhandled := h.handled
    rw [hm,Multiset.cons_bind] at hhandled
    rw [hm',Multiset.add_bind,bind_starting_eq_zero fun g hg => hstart g (Multiset.mem_coe.mp hg),
      zero_add,hstarted]
    rcases exec_connection hx with ⟨hf,hsame⟩|⟨pkt,rfl,hcon,hnew⟩|⟨hf,hsame,hcon⟩
    · -- nothing was received, so that no packet has come to the jobs
      have hreads := hr.reads f (Multiset.mem_cons_self f m)
      have hn : s.core.dispatched=[] := by
        rcases hf with rfl|rfl
        · exact hreads.1
        · exact hreads.1
      have hf0 : f.starting=0 := by rcases hf with rfl|rfl <;> rfl
      rw [hf0,zero_add,h.nothing_started hj hr hn] at hhandled
      rw [hsame,h.nothing_started hj hr hn]
      exact hhandled.reopen _
    · have hone := h.weight_runs_le hj
      rw [hm,weight_cons] at hone
      have hzero : m.bind Frame.starting=0 := starting_of_runs (by simp only [Frame.runs] at hone; omega)
      rw [hzero] at hhandled ⊢
      rw [hcon,hnew]
      split
      · rename_i hon
        exact hhandled.pass hon
      · rename_i hoff
        exact hhandled.drop (Bool.eq_false_iff.mpr hoff)
    · rw [hf,zero_add] at hhandled
      rw [hsame]
      rcases hcon with hcon|hcon <;> rw [hcon]
      · exact hhandled
      · exact hhandled.close

theorem Runs.enter {s : State T Q P S} {t : T} {en : Entry} {c' : Core P S} {fs : List (Frame P)}
    (h : Runs q s) (hout : (s.jobs.threads t).outside=true) (hcalls : s.calls t=[])
    (hm : pending (Function.update s.calls t fs)=fs+pending s.calls)
    (hx : enter s.core en=some (c',fs)) : Runs q ⟨c',s.jobs,Function.update s.calls t fs⟩ := by
  have hplain : (∀ g∈fs, g.plain=true) ∧ c'.logicLock=s.core.logicLock ∧ c'.pushed=s.core.pushed ∧
      c'.isConnect=s.core.isConnect ∧ c'.handled=s.core.handled := by
    cases en with
    | disconnect | beginShutdown =>
      cases hx
      exact ⟨by simp [Frame.plain],rfl,rfl,rfl,rfl⟩
    | _ =>
      simp only [Dispatch.enter] at hx
      split at hx <;> cases hx
      exact ⟨by simp [Frame.plain],rfl,rfl,rfl,rfl⟩
  obtain ⟨hfs,hlock,hpushed,hcon,hhandled⟩ := hplain
  refine ⟨?_,?_,?_,?_⟩
  · intro u
    change Fits q (s.jobs.threads u) (Function.update s.calls t fs u)
    by_cases hu : u=t
    · subst hu
      rw [Function.update_self]
      refine (h.fits u).go hout ?_
      rw [sum_eq_zero_of_mem fun g hg => (Frame.plain_spec (hfs g hg)).1]
      exact Nat.zero_le _
    · rw [Function.update_of_ne hu]
      exact h.fits u
  · rw [hm,weight_add,total,sum_eq_zero_of_mem fun g hg => (Frame.plain_spec (hfs g hg)).2.1,zero_add,
      hlock]
    exact h.lock
  · rw [hpushed]
    exact h.stored
  · rw [hm,Multiset.add_bind,bind_starting_eq_zero fun g hg =>
      (Frame.plain_spec (hfs g (Multiset.mem_coe.mp hg))).2.2,zero_add,hcon,hhandled]
    exact h.handled

theorem callsAfter_of_other {s s' : Job.State T Q (Logic P)} {t u : T}
    {a : Job.Action T Q (Logic P)} {calls : T → List (Frame P)} (hc : Job.Change s s' t a)
    (hu : u≠t) : callsAfter q s' calls a u=calls u := by
  cases hc with
  | startJob => exact Function.update_of_ne hu _ _
  | between _ _ _ _ _ _ _ _ hstart => rw [callsAfter_of_ne hstart]
  | _ => rfl

/-- The jobs on their way to the queue and the stored ones. -/
theorem Runs.stored_step {s : State T Q P S} {jobs : Job.State T Q (Logic P)} {t : T}
    {a : Job.Action T Q (Logic P)} (h : Runs q s) (hadm : admits q s.calls a=true)
    (hother : ∀ u≠t, jobs.threads u=s.jobs.threads u) (hc : Job.Change s.jobs jobs t a) :
    Gated true (jobs.queues q).appended (∑ u, pushing q (jobs.threads u)) s.core.pushed := by
  -- unless a job is stored in the queue, the sum and the record stay
  have hsame : (jobs.queues q).appended=(s.jobs.queues q).appended →
      pushing q (jobs.threads t)=pushing q (s.jobs.threads t) →
      Gated true (jobs.queues q).appended (∑ u, pushing q (jobs.threads u)) s.core.pushed := by
    intro happ hpush
    have hsum : ∑ u, pushing q (jobs.threads u)=∑ u, pushing q (s.jobs.threads u) := by
      apply Finset.sum_congr rfl
      intro u _
      by_cases hu : u=t
      · rw [hu,hpush]
      · rw [hother u hu]
    rw [happ,hsum]
    exact h.stored
  cases hc with
  | push q' j po hout hth hrec =>
    simp only [admits,Bool.and_eq_true,decide_eq_true_eq] at hadm
    refine hsame (hrec q).1 ?_
    rw [pushing_eq_zero fun p hp => ?_,pushing_eq_zero fun p hp => ?_]
    · rw [(outside_cases hout).1] at hp
      cases hp
    · rw [hth] at hp
      cases hp
      exact hadm.1
  | fetchAdd q' j po n hp hth hrec =>
    refine hsame (hrec q).1 ?_
    simp only [pushing,hth,hp]
  | append q' j po n hp hth hnew hold hst =>
    by_cases hq : q'=q
    · subst hq
      -- the other threads do not have the lock
      have hnone : ∀ u≠t, pushing q' (s.jobs.threads u)=0 := by
        intro u hu
        apply pushing_eq_zero
        intro p hpu hq
        have hlock := h.lock
        rw [Pool.weight_pending] at hlock
        have hle := Bool.toNat_le s.core.logicLock
        exact hu (eq_of_sum_le_one (fun fs : List (Frame P) => (fs.map Frame.locks).sum) s.calls
          (by omega) (h.locks_of_push hpu hq) (h.locks_of_push hp rfl))
      have hstored := h.stored
      rw [Finset.sum_eq_single t (fun u _ hu => hnone u hu)
        (fun hu => absurd (Finset.mem_univ t) hu)] at hstored
      have hone : pushing q' (s.jobs.threads t)={j} := by simp [pushing,hp]
      have hzero : ∑ u, pushing q' (jobs.threads u)=0 := by
        apply Finset.sum_eq_zero
        intro u _
        by_cases hu : u=t
        · simp [pushing,hu,hth]
        · rw [hother u hu]
          exact hnone u hu
      rw [hone] at hstored
      rw [hzero,hnew]
      exact hstored.pass rfl
    · refine hsame (hold q (Ne.symm hq)) ?_
      rw [pushing_eq_zero fun p hp' => ?_,pushing_eq_zero fun p hp' => ?_]
      · rw [hp] at hp'
        cases hp'
        exact hq
      · rw [hth] at hp'
        cases hp'
        exact hq
  | leave q' j po n hp hth hrec =>
    refine hsame (hrec q).1 ?_
    simp only [pushing,hth,hp]
  | inlined q' j n hp hth hrec =>
    refine hsame (hrec q).1 ?_
    simp only [pushing,hth,hp]
  | globalPop q' hp he hth hrec =>
    refine hsame (hrec q).1 ?_
    simp only [pushing,hth]
  | between _ ex ex' current he hout hout' hth hstart hrec =>
    refine hsame (hrec q).1 ?_
    simp only [pushing,hth]
  | startJob q' j rest n he hth hnew hold happ =>
    refine hsame (happ q) ?_
    simp only [pushing,hth]
  | endJob q' j rest n hp he hth hrec =>
    refine hsame (hrec q).1 ?_
    simp only [pushing,hth]

/-- A thread that is about to start a job of the session finds nobody in one. -/
theorem Runs.idle_of_batch {s : State T Q P S} (h : Runs q s) (hj : Job.Inv s.jobs) {t : T}
    {j : Logic P} {rest : List (Logic P)} {n : Nat}
    (he : (s.jobs.threads t).execute=some ⟨q,.batch (j::rest) n⟩) :
    weight Frame.runs (pending s.calls)=0 := by
  rw [Pool.weight_pending]
  apply Finset.sum_eq_zero
  intro u _
  have hruns := (h.fits u).runs
  by_contra hne
  have hrun : 0<(s.jobs.threads u).executes q := by
    unfold jobOf at hruns
    split at hruns
    · rename_i q'' j' rest' n' he'
      split at hruns
      · rename_i hq
        simp [Job.Thread.executes,he',hq]
      · exact absurd (Nat.eq_zero_of_le_zero hruns) hne
    · exact absurd (Nat.eq_zero_of_le_zero hruns) hne
  have hut := hj.executor_unique hrun (t:=u) (u:=t) (by simp [Job.Thread.executes,he])
  rw [hut,(h.fits t).between _ he rfl] at hne
  exact hne rfl

/-- A step of the job queues starts a job of the session, or it is none of the session's. -/
theorem Runs.job_cases {s : State T Q P S} {jobs : Job.State T Q (Logic P)}
    {a : Job.Action T Q (Logic P)} (h : Runs q s) (hj : Job.Inv s.jobs)
    (hs : Job.step s.jobs a=some jobs) :
    (callsAfter q jobs s.calls a=s.calls ∧ (jobs.queues q).started=(s.jobs.queues q).started) ∨
    ∃ j, pending (callsAfter q jobs s.calls a)=([.job j] : List (Frame P))+pending s.calls ∧
      (jobs.queues q).started=(s.jobs.queues q).started++[j] ∧
      weight Frame.runs (pending s.calls)=0 := by
  obtain ⟨t,-,hc⟩ := Job.step_change hs
  cases hc with
  | startJob q' j rest n he hth hnew hold happ =>
    by_cases hq : q'=q
    · subst hq
      have hjob : jobOf q' (jobs.threads t)=some j := by simp [jobOf,hth]
      have hcalls : callsAfter q' jobs s.calls (.startJob t)=
          Function.update s.calls t ([.job j]++s.calls t) := by
        simp only [callsAfter,startOf,hjob]
        rfl
      rw [hcalls]
      exact Or.inr ⟨j,Pool.pending_call s.calls t [.job j],hnew,h.idle_of_batch hj he⟩
    · refine Or.inl ⟨?_,hold q (Ne.symm hq)⟩
      have hjob : jobOf q (jobs.threads t)=none := by simp [jobOf,hth,hq]
      simp only [callsAfter,startOf,hjob]
      exact Function.update_eq_self t s.calls
  | append _ _ _ _ _ _ _ _ hst => exact Or.inl ⟨rfl,hst q⟩
  | between _ _ _ _ _ _ _ _ hstart hrec => exact Or.inl ⟨callsAfter_of_ne hstart,(hrec q).2⟩
  | push _ _ _ _ _ hrec => exact Or.inl ⟨rfl,(hrec q).2⟩
  | fetchAdd _ _ _ _ _ _ hrec => exact Or.inl ⟨rfl,(hrec q).2⟩
  | leave _ _ _ _ _ _ hrec => exact Or.inl ⟨rfl,(hrec q).2⟩
  | inlined _ _ _ _ _ hrec => exact Or.inl ⟨rfl,(hrec q).2⟩
  | globalPop _ _ _ _ hrec => exact Or.inl ⟨rfl,(hrec q).2⟩
  | endJob _ _ _ _ _ _ _ hrec => exact Or.inl ⟨rfl,(hrec q).2⟩

theorem Runs.job {s : State T Q P S} {jobs : Job.State T Q (Logic P)}
    {a : Job.Action T Q (Logic P)} (h : Runs q s) (hj : Job.Inv s.jobs)
    (hadm : admits q s.calls a=true) (hs : Job.step s.jobs a=some jobs) :
    Runs q ⟨s.core,jobs,callsAfter q jobs s.calls a⟩ ∧
    ∃ fs : List (Frame P), (∀ g∈fs, g.token=0) ∧
      pending (callsAfter q jobs s.calls a)=fs+pending s.calls := by
  obtain ⟨t,hother,hc⟩ := Job.step_change hs
  have hfits : ∀ u, Fits q (jobs.threads u) (callsAfter q jobs s.calls a u) := by
    intro u
    by_cases hu : u=t
    · subst hu
      exact (h.fits u).change hc hadm (hj.thread u)
    · rw [hother u hu,callsAfter_of_other hc hu]
      exact h.fits u
  have hstored := h.stored_step hadm hother hc
  rcases h.job_cases hj hs with ⟨hcalls,hstarted⟩|⟨j,hpending,hstarted,hidle⟩
  · refine ⟨⟨hfits,?_,hstored,?_⟩,[],nofun,?_⟩
    · rw [hcalls]
      exact h.lock
    · rw [hcalls,hstarted]
      exact h.handled
    · rw [hcalls,Multiset.coe_nil,zero_add]
  · refine ⟨⟨hfits,?_,hstored,?_⟩,[.job j],by simp [Frame.token],hpending⟩
    · rw [hpending,weight_add,total]
      simp only [List.map_cons,Frame.locks,List.map_nil,List.sum_cons,List.sum_nil,zero_add]
      exact h.lock
    · have hhandled := h.handled
      rw [starting_of_runs hidle] at hhandled
      rw [hpending,Multiset.add_bind,starting_of_runs hidle,Multiset.coe_singleton,
        Multiset.singleton_bind,add_zero,hstarted,List.filterMap_append]
      cases j with
      | packet pkt => exact hhandled.arrive pkt
      | cleanup =>
        simp only [Frame.starting,List.filterMap_cons,Logic.packet?,List.filterMap_nil,
          List.append_nil]
        exact hhandled

/-- What holds in every state of the session, its queue and the threads. -/
structure Inv (e : Env P) (q : Q) (s : State T Q P S) : Prop where
  jobs : Job.Inv s.jobs
  receives : Receives e s.core (pending s.calls)
  runs : Runs q s

theorem inv_init (e : Env P) (q : Q) (maxSessionCount : Int) :
    Inv e q (State.init e maxSessionCount : State T Q P S) := by
  have hm : pending (State.init e maxSessionCount : State T Q P S).calls=0 := by
    simp [pending,State.init]
  refine ⟨Job.inv_init,?_,?_⟩
  · rw [hm]
    refine ⟨Nat.le_refl 0,by simp,fun hpos => absurd hpos (Nat.lt_irrefl 0),
      fun _ => ⟨rfl,RecvBuffer.data_init _,rfl⟩,fun _ hp => absurd hp List.not_mem_nil,
      List.prefix_rfl,Gated.empty _⟩
  · refine ⟨fun t => ⟨?_,?_,?_,Nat.zero_le _⟩,?_,?_,?_⟩
    · intro p hp
      cases hp
    · intro d hd
      cases hd
    · intro d hd
      cases hd
    · rw [hm]
      rfl
    · have hsum : ∑ t : T, pushing q ((State.init e maxSessionCount : State T Q P S).jobs.threads t)=0 :=
        Finset.sum_eq_zero fun _ _ => rfl
      rw [hsum]
      exact Gated.empty true
    · rw [hm]
      exact Gated.empty false

theorem Inv.step {e : Env P} {x : S} {s s' : State T Q P S} {a : Action T Q P S} (h : Inv e q s)
    (hs : step e x q s a=some s') : Inv e q s' := by
  cases a with
  | run t o =>
    simp only [Dispatch.step] at hs
    split at hs
    · rename_i hout
      split at hs
      · cases hs
      · rename_i f rest hcalls
        simp only [Option.bind_eq_bind,Option.bind_eq_some_iff,Option.pure_def,Option.some.injEq] at hs
        obtain ⟨r,hx,jobs,hjobs,rfl⟩ := hs
        obtain ⟨m,hm,hnext⟩ := Pool.pending_run hcalls
        have hr : Receives e s.core (f::ₘm) := hm ▸ h.receives
        refine ⟨?_,?_,h.runs.run h.jobs hr hout hcalls hm (hnext r.frames) hx hjobs⟩
        · cases hp : r.push with
          | none =>
            rw [hp] at hjobs
            cases hjobs
            exact h.jobs
          | some job =>
            rw [hp] at hjobs
            exact Job.step_inv (.push t q job true) hjobs h.jobs
        · rw [hnext r.frames]
          exact exec_receives hr hx
    · cases hs
  | enter t en =>
    simp only [Dispatch.step] at hs
    split at hs
    · rename_i hfree
      obtain ⟨⟨c',fs⟩,hx,rfl⟩ := Option.map_eq_some_iff.mp hs
      have hm := Pool.pending_call s.calls t fs
      rw [hfree.2,List.append_nil] at hm
      refine ⟨h.jobs,?_,h.runs.enter hfree.1 hfree.2 hm hx⟩
      simp only [hm]
      exact enter_receives h.receives hx
    · cases hs
  | job a =>
    simp only [Dispatch.step] at hs
    split at hs
    · rename_i hadm
      obtain ⟨jobs,hj,rfl⟩ := Option.map_eq_some_iff.mp hs
      obtain ⟨hruns,fs,hfs,hm⟩ := h.runs.job h.jobs hadm hj
      refine ⟨Job.step_inv _ hj h.jobs,?_,hruns⟩
      change Receives e s.core (pending (callsAfter q jobs s.calls a))
      rw [hm]
      exact h.receives.call _ hfs (.refl _)
    · cases hs
  | game a =>
    simp only [Dispatch.step] at hs
    split at hs
    · cases hs
    · obtain ⟨game,-,rfl⟩ := Option.map_eq_some_iff.mp hs
      refine ⟨h.jobs,?_,⟨h.runs.fits,h.runs.lock,h.runs.stored,h.runs.handled⟩⟩
      have ha : Aside s.core { s.core with game } := ⟨rfl,rfl,rfl,rfl,rfl,rfl,id⟩
      have hcall := h.receives.call [] nofun ha
      rw [Multiset.coe_nil,zero_add] at hcall
      exact hcall

theorem reaches_inv {e : Env P} {x : S} {maxSessionCount : Int} {s : State T Q P S}
    (h : Reaches (step e x q) Any (State.init e maxSessionCount) s) : Inv e q s :=
  h.invariant (inv_init e q maxSessionCount) fun _ _ _ hi _ hs => hi.step hs

/-- The handlers entered for a session are the first of those that the frames of the received stream
call for, in the order of the wire; they never overlap; and a frame without a handler or with a body
that does not parse only moves the reading thread on. -/
theorem handlers_follow_wire_order (e : Env P) (x : S) (q : Q) (maxSessionCount : Int)
    (s : State T Q P S) (h : Reaches (step e x q) Any (State.init e maxSessionCount) s) :
    s.core.handled<+:(parse packetFormat s.core.stream).frames.filterMap (handlePacket e) ∧
    (∀ t u pkt pkt', .handler pkt∈s.calls t → .handler pkt'∈s.calls u → t=u ∧ pkt=pkt') ∧
    (∀ t o n size packet rest s', s.calls t=.onRecvPacket n size::rest →
      readPacket s.core.recvBuffer.data n size=some packet → handlePacket e packet=none →
      step e x q s (.run t o)=some s' →
      s'.core={ s.core with dispatched := s.core.dispatched++[packet] } ∧ s'.jobs=s.jobs ∧
      s'.calls=Function.update s.calls t (.onRecvNext (n+size)::rest)) := by
  have hi := reaches_inv h
  refine ⟨?_,?_,?_⟩
  · have hstarted := (hi.jobs.queue q).runs_in_order.trans hi.runs.stored.isPrefix
    have hframes : s.core.dispatched<+:(parse packetFormat s.core.stream).frames := by
      obtain ⟨more,hmore⟩ := hi.receives.sent
      rw [← hmore,Framing.parse_append,Framing.parse_flatten hi.receives.frames]
      exact List.prefix_append _ _
    exact (hi.runs.handled.isPrefix.trans (hstarted.filterMap _)).trans
      (hi.receives.post.isPrefix.trans (hframes.filterMap _))
  · intro t u pkt pkt' ht hu
    have hone := hi.runs.weight_runs_le hi.jobs
    have htu : t=u := by
      rw [Pool.weight_pending] at hone
      refine eq_of_sum_le_one (fun fs : List (Frame P) => (fs.map Frame.runs).sum) s.calls hone ?_ ?_
      · exact List.sum_pos_iff_exists_pos_nat.mpr ⟨1,List.mem_map_of_mem ht,Nat.one_pos⟩
      · exact List.sum_pos_iff_exists_pos_nat.mpr ⟨1,List.mem_map_of_mem hu,Nat.one_pos⟩
    refine ⟨htu,?_⟩
    obtain ⟨m,hm⟩ := Multiset.exists_cons_of_mem (Pool.mem_pending.mpr ⟨t,ht⟩)
    have hmem : .handler pkt'∈pending s.calls := Pool.mem_pending.mpr ⟨u,hu⟩
    rw [hm,weight_cons] at hone
    rw [hm] at hmem
    rcases Multiset.mem_cons.mp hmem with heq|hmem
    · cases heq
      rfl
    · have hle : Frame.runs (.handler pkt' : Frame P) ≤ weight Frame.runs m := Pool.le_weight hmem
      simp only [Frame.runs] at hone hle
      omega
  · intro t o n size packet rest s' hcalls hpacket hparse hs
    simp only [step,hcalls,exec,hpacket,hparse] at hs
    split at hs
    · cases hs
      exact ⟨rfl,rfl,rfl⟩
    · cases hs

/-- A login packet, a packet without a handler and the first bytes of another one; the job of the login
is entered. -/
theorem handlers_follow_wire_order_unknownId :
    ∃ (e : Env UInt8) (s : State Unit Unit UInt8 Unit),
      Reaches (step e () ()) Any (State.init e 10) s ∧
      s.core.stream=[5,0,232,3,7,4,0,1,0,5,0] ∧ s.core.handled=[7] ∧
      [7]<+:(parse packetFormat [5,0,232,3,7,4,0,1,0,5,0]).frames.filterMap (handlePacket e) := by
  let e : Env UInt8 := ⟨⟨fun _ => [],fun _ => []⟩,8,fun _ body => body.head?,fun _ => none⟩
  let run : Action Unit Unit UInt8 Unit := .run () ⟨true,.done⟩
  have hrun : (runActions (step e () ()) (State.init e 10 : State Unit Unit UInt8 Unit)
      ([.enter () .offer,run,run,run,run,run,
        .enter () (.recvCompleted [5,0,232,3,7,4,0,1,0,5,0]),run,run,run,run,
        .job (.fetchAdd ()),.job (.append ()),.job (.handOff ()),run,run,run,run,run,run,run,run,
        .job (.globalPop ()),.job (.enter ()),.job (.popAll ()),.job (.startJob ()),run])).map
      (fun s => (s.core.stream,s.core.handled))=
      some ([5,0,232,3,7,4,0,1,0,5,0],[7]) := by decide +kernel
  obtain ⟨s,hs,hfields⟩ := Option.map_eq_some_iff.mp hrun
  simp only [Prod.mk.injEq] at hfields
  have hreach : Reaches (step e () ()) Any _ s := Reaches.of_runActions (fun _ _ => trivial) _ hs
  have horder := (handlers_follow_wire_order e () () 10 s hreach).1
  rw [hfields.1,hfields.2] at horder
  exact ⟨e,s,hreach,hfields.1,hfields.2,horder⟩

end IocpServer.Server.Dispatch
