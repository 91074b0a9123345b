import IocpServer.Server.GameServer

set_option linter.unusedSectionVars false

namespace IocpServer.GameServer

open Server.LockOrder (Thread)

variable {n : Nat} {S A : Type}

/-- What `main` has done and has to do at a point: the threads it has not launched, those it has not
joined, and the signals it has given. -/
structure Duty (n : Nat) where
  unlaunched : List (Thread (Fin n))
  background : List (Thread (Fin n))
  workers : List (Thread (Fin n))
  requested : Bool
  notified : Bool
  stopped : Bool

def Main.duty : Main n → Duty n
  | .start | .startAccept | .returned (_+1) =>
    ⟨launches n,[.heartbeat,.stats],(List.finRange n).map .worker,false,false,false⟩
  | .launch todo => ⟨todo,[.heartbeat,.stats],(List.finRange n).map .worker,false,false,false⟩
  | .getline | .request =>
    ⟨[],[.heartbeat,.stats],(List.finRange n).map .worker,false,false,false⟩
  | .notifyAll => ⟨[],[.heartbeat,.stats],(List.finRange n).map .worker,true,false,false⟩
  | .joinBackground todo => ⟨[],todo,(List.finRange n).map .worker,true,true,false⟩
  | .closeService | .stopWorkers => ⟨[],[],(List.finRange n).map .worker,true,true,false⟩
  | .joinWorkers todo => ⟨[],[],todo,true,true,true⟩
  | .clear | .printServerStats | .returned 0 => ⟨[],[],[],true,true,true⟩

/-- What `main`, the threads, their managers and the signals have to do with each other. -/
structure Staffed (p : State n S A) : Prop where
  suffix : p.main.duty.unlaunched <:+ launches n
  unborn : ∀ t, p.life t=.unborn ↔ t=.main ∨ t∈p.main.duty.unlaunched
  background : ∀ t, isBackground t →
    t∈p.backgroundThreads ∨ p.life t=.unborn ∨ p.life t=.ended
  joined : ∀ t, isBackground t → t∈p.main.duty.background ∨ p.life t=.ended
  working : ∀ w, .worker w∈p.globalThreads ∨ p.life (.worker w)=.unborn ∨ p.life (.worker w)=.ended
  stopped : ∀ w, .worker w∈p.main.duty.workers ∨ p.life (.worker w)=.ended
  crew : ∀ t, t∈p.globalThreads ∨ t∈p.main.duty.workers → ∃ w, t=.worker w
  requested : p.requested=p.main.duty.requested
  told : ∀ t, isBackground t → p.life t=.ended → p.requested
  awake : p.main.duty.notified → p.heartbeat≠.wait .asleep ∧ p.stats≠.wait .asleep
  workersRunning : p.workersRunning=!p.main.duty.stopped
  left : ∀ w, p.life (.worker w)=.ended → p.workersRunning=false

theorem nodup_launches (n : Nat) : (launches n).Nodup := by
  unfold launches
  rw [List.nodup_append]
  refine ⟨?_,by simp,?_⟩
  · apply (List.nodup_finRange n).map
    intro a b hab
    cases hab
    rfl
  · intro t ht u hu
    obtain ⟨w,-,rfl⟩ := List.mem_map.mp ht
    intro heq
    subst heq
    simp at hu

theorem mem_launches (t : Thread (Fin n)) : t∈launches n ↔ t≠.main := by
  cases t <;> simp [launches]

theorem mem_background {t : Thread (Fin n)} (h : isBackground t) :
    t∈[Thread.heartbeat,Thread.stats] := by
  cases t <;> simp_all [isBackground]

theorem staffed_init (maxSessionCount : Int) (slots : List A) :
    Staffed (State.init maxSessionCount slots : State n S A) := by
  constructor
  case unborn =>
    intro t
    show Life.unborn=.unborn ↔ t=.main ∨ t∈launches n
    by_cases ht : t=.main <;> simp [ht,mem_launches]
  case joined => exact fun t ht => Or.inl (mem_background ht)
  case crew =>
    intro t ht
    obtain ⟨w,-,hw⟩ := List.mem_map.mp (ht.resolve_left (by simp [State.init]))
    exact ⟨w,hw.symm⟩
  all_goals simp [State.init,Main.duty]

theorem Loop.notify_awake {B : Type} (l : Loop B) : l.notify≠.wait .asleep := by
  cases l with
  | body b => simp [Loop.notify]
  | wait w => cases w <;> simp [Loop.notify]

variable [DecidableEq S] [DecidableEq A] {e : Env} {p p' : State n S A}

/-- `main` launches a thread. -/
theorem Staffed.launch (h : Staffed p) {t : Thread (Fin n)} {todo : List (Thread (Fin n))}
    (hmain : p.main=.launch (t::todo)) : Staffed ((p.launch t).go (.launch todo)) := by
  have hsuffix := h.suffix
  have hunborn := h.unborn
  simp only [hmain,Main.duty] at hsuffix hunborn
  have hnodup := (nodup_launches n).sublist hsuffix.sublist
  have hne : t≠.main := (mem_launches t).mp (hsuffix.subset List.mem_cons_self)
  have hfresh : p.life t=.unborn := (hunborn t).mpr (Or.inr List.mem_cons_self)
  have hother : ∀ u, u≠t → (p.launch t).life u=p.life u := by
    intro u hu
    unfold State.launch
    split <;> exact Function.update_of_ne hu _ _
  have hself : (p.launch t).life t=.running := by
    unfold State.launch
    split <;> exact Function.update_self ..
  have hended : ∀ u, (p.launch t).life u=.ended ↔ p.life u=.ended := by
    intro u
    by_cases hu : u=t
    · rw [hu,hself,hfresh]
      simp
    · rw [hother u hu]
  have hlists : (p.launch t).backgroundThreads=p.backgroundThreads++[t].filter isBackground ∧
      (p.launch t).globalThreads=p.globalThreads++[t].filter fun u => !isBackground u := by
    unfold State.launch
    split <;> simp_all [State.setLife]
  have hflags : (p.launch t).requested=p.requested ∧
      (p.launch t).workersRunning=p.workersRunning := by
    unfold State.launch
    split <;> exact ⟨rfl,rfl⟩
  have hduty : (Main.launch todo).duty.workers=p.main.duty.workers := by
    rw [hmain]
    rfl
  constructor
  case suffix => exact (List.suffix_cons t todo).trans hsuffix
  case unborn =>
    intro u
    show (p.launch t).life u=.unborn ↔ u=.main ∨ u∈todo
    by_cases hu : u=t
    · subst hu
      simp [hself,hne,(List.nodup_cons.mp hnodup).1]
    · rw [hother u hu,hunborn u]
      simp [hu]
  case background =>
    intro u hu
    show u∈(p.launch t).backgroundThreads ∨ (p.launch t).life u=.unborn ∨ (p.launch t).life u=.ended
    rw [hlists.1]
    by_cases hut : u=t
    · subst hut
      simp [hu]
    · rw [hother u hut]
      exact (h.background u hu).imp_left (List.mem_append_left _)
  case joined => exact fun u hu => Or.inl (mem_background hu)
  case working =>
    intro w
    show .worker w∈(p.launch t).globalThreads ∨ (p.launch t).life (.worker w)=.unborn ∨
      (p.launch t).life (.worker w)=.ended
    rw [hlists.2]
    by_cases hut : .worker w=t
    · subst hut
      simp [isBackground]
    · rw [hother _ hut]
      exact (h.working w).imp_left (List.mem_append_left _)
  case stopped => exact fun w => Or.inl (List.mem_map_of_mem (List.mem_finRange w))
  case crew =>
    intro u hu
    change u∈(p.launch t).globalThreads ∨ u∈(Main.launch todo).duty.workers at hu
    rw [hlists.2,hduty,List.mem_append] at hu
    rcases hu with (hu|hu)|hu
    · exact h.crew u (Or.inl hu)
    · cases t with
      | main => exact absurd rfl hne
      | worker w => exact ⟨w,by simpa [isBackground] using hu⟩
      | _ => simp [isBackground] at hu
    · exact h.crew u (Or.inr hu)
  case requested =>
    have hno := h.requested
    rw [hmain] at hno
    exact hflags.1.trans hno
  case told => exact fun u hu hend => hflags.1.trans (h.told u hu ((hended u).mp hend))
  case awake => exact fun hno => absurd hno (by simp [State.go,Main.duty])
  case workersRunning =>
    have hon := h.workersRunning
    rw [hmain] at hon
    exact hflags.2.trans hon
  case left => exact fun w hend => hflags.2.trans (h.left w ((hended _).mp hend))

/-- `main` goes on without a change of what it has to do. -/
theorem Staffed.go {q : State n S A} (h : Staffed q) {m : Main n} (hm : m.duty=q.main.duty) :
    Staffed (q.go m) := by
  constructor
  case suffix => exact hm ▸ h.suffix
  case unborn => exact hm ▸ h.unborn
  case background => exact h.background
  case joined => exact hm ▸ h.joined
  case working => exact h.working
  case stopped => exact hm ▸ h.stopped
  case crew => exact hm ▸ h.crew
  case requested => exact hm ▸ h.requested
  case told => exact h.told
  case awake => exact hm ▸ h.awake
  case workersRunning => exact hm ▸ h.workersRunning
  case left => exact h.left

/-- Once `main` launches no more threads, each of them was launched. -/
theorem Staffed.born (h : Staffed p) (hall : p.main.duty.unlaunched=[]) {t : Thread (Fin n)}
    (ht : t≠.main) : p.life t≠.unborn := by
  intro hno
  have := (h.unborn t).mp hno
  rw [hall] at this
  simp [ht] at this

/-- What the staff is read from. -/
def State.staff (p : State n S A) :=
  (p.main,p.life,p.globalThreads,p.backgroundThreads,p.requested,p.workersRunning)

theorem Staffed.keep {q : State n S A} (h : Staffed p) (hstaff : q.staff=p.staff)
    (hawake : p.main.duty.notified → q.heartbeat≠.wait .asleep ∧ q.stats≠.wait .asleep) :
    Staffed q := by
  cases p
  cases q
  simp only [State.staff,Prod.mk.injEq] at hstaff
  obtain ⟨rfl,rfl,rfl,rfl,rfl,rfl⟩ := hstaff
  exact ⟨h.suffix,h.unborn,h.background,h.joined,h.working,h.stopped,h.crew,h.requested,h.told,
    hawake,h.workersRunning,h.left⟩

/-- `main` goes on. -/
theorem Staffed.mainMove (h : Staffed p) (hs : MainMove p p') : Staffed p' := by
  obtain ⟨hsuffix,hunborn,hbackground,hjoined,hworking,hstopped,hcrew,hrequested,hover,hawake,
    hrunning,hleft⟩ := id h
  cases hs with
  | start hm | startAccept hm | launched hm | quit hm | closeService hm =>
    exact h.go (by rw [hm]; rfl)
  | startFailed hm | clear hm | printServerStats hm =>
    apply Staffed.go
    · exact h.keep rfl h.awake
    · rw [show State.main _=_ from hm]
      rfl
  | launch hm => exact h.launch hm
  | otherLine hm => exact h
  | request hm =>
    rw [hm] at hsuffix hunborn hjoined hstopped hcrew hrequested hawake hrunning
    exact ⟨hsuffix,hunborn,hbackground,hjoined,hworking,hstopped,hcrew,rfl,fun _ _ _ => rfl,hawake,
      hrunning,hleft⟩
  | notifyAll hm =>
    rw [hm] at hsuffix hunborn hjoined hstopped hcrew hrequested hawake hrunning
    refine ⟨hsuffix,hunborn,hbackground,?_,hworking,hstopped,hcrew,hrequested,hover,?_,hrunning,
      hleft⟩
    · intro t ht
      have hborn := h.born (by rw [hm]; rfl) (t:=t) (by
        intro heq
        subst heq
        cases ht)
      exact (hbackground t ht).imp_right fun hl => hl.resolve_left hborn
    · exact fun _ => ⟨Loop.notify_awake _,Loop.notify_awake _⟩
  | joinBackground hm hend =>
    rw [hm] at hsuffix hunborn hjoined hstopped hcrew hrequested hawake hrunning
    refine ⟨hsuffix,hunborn,hbackground,?_,hworking,hstopped,hcrew,hrequested,hover,hawake,hrunning,
      hleft⟩
    intro u hu
    rcases hjoined u hu with hin|hin
    · rcases List.mem_cons.mp hin with rfl|hin
      · exact Or.inr hend
      · exact Or.inl hin
    · exact Or.inr hin
  | backgroundJoined hm =>
    rw [hm] at hsuffix hunborn hjoined hstopped hcrew hrequested hawake hrunning
    refine ⟨hsuffix,hunborn,?_,hjoined,hworking,hstopped,hcrew,hrequested,hover,hawake,hrunning,
      hleft⟩
    exact fun t ht => Or.inr (Or.inr ((hjoined t ht).resolve_left List.not_mem_nil))
  | stopWorkers hm =>
    rw [hm] at hsuffix hunborn hjoined hstopped hcrew hrequested hawake hrunning
    refine ⟨hsuffix,hunborn,hbackground,hjoined,hworking,?_,?_,hrequested,hover,hawake,rfl,
      fun _ _ => rfl⟩
    · intro w
      have hborn := h.born (by rw [hm]; rfl) (t:=.worker w) (by simp)
      exact (hworking w).imp_right fun hl => hl.resolve_left hborn
    · exact fun t ht => hcrew t (Or.inl (ht.elim id id))
  | joinWorkers hm hend =>
    rw [hm] at hsuffix hunborn hjoined hstopped hcrew hrequested hawake hrunning
    refine ⟨hsuffix,hunborn,hbackground,hjoined,hworking,?_,?_,hrequested,hover,hawake,hrunning,
      hleft⟩
    · intro w
      rcases hstopped w with hin|hin
      · rcases List.mem_cons.mp hin with heq|hin
        · rw [← heq] at hend
          exact Or.inr hend
        · exact Or.inl hin
      · exact Or.inr hin
    · exact fun t ht => hcrew t (ht.imp_right (List.mem_cons_of_mem _))
  | workersJoined hm =>
    rw [hm] at hsuffix hunborn hjoined hstopped hcrew hrequested hawake hrunning
    have hall := fun w => (hstopped w).resolve_left List.not_mem_nil
    refine ⟨hsuffix,hunborn,hbackground,hjoined,fun w => Or.inr (Or.inr (hall w)),hstopped,?_,
      hrequested,hover,hawake,hrunning,hleft⟩
    exact fun t ht => absurd ht (by simp [State.go,Main.duty])

/-- A thread comes to the end of its function. -/
theorem Staffed.ended (h : Staffed p) {t : Thread (Fin n)} (ht : p.life t=.running)
    (hback : isBackground t → p.requested) (hwork : ¬isBackground t → p.workersRunning=false) :
    Staffed (p.setLife t .ended) := by
  have hends : ∀ u, p.life u=.ended → (p.setLife t .ended).life u=.ended := by
    intro u hu
    by_cases hut : u=t
    · subst hut
      exact Function.update_self ..
    · exact (Function.update_of_ne hut _ _).trans hu
  have hunborn : ∀ u, (p.setLife t .ended).life u=.unborn ↔ p.life u=.unborn := by
    intro u
    by_cases hut : u=t
    · subst hut
      simp [State.setLife,ht]
    · simp [State.setLife,Function.update_of_ne hut]
  have hwas : ∀ u, (p.setLife t .ended).life u=.ended → u=t ∨ p.life u=.ended := by
    intro u hu
    by_cases hut : u=t
    · exact Or.inl hut
    · exact Or.inr ((Function.update_of_ne hut _ _).symm.trans hu)
  constructor
  case suffix => exact h.suffix
  case unborn => exact fun u => (hunborn u).trans (h.unborn u)
  case background =>
    exact fun u hu => (h.background u hu).imp_right (Or.imp (hunborn u).mpr (hends u))
  case joined => exact fun u hu => (h.joined u hu).imp_right (hends u)
  case working => exact fun w => (h.working w).imp_right (Or.imp (hunborn _).mpr (hends _))
  case stopped => exact fun w => (h.stopped w).imp_right (hends _)
  case crew => exact h.crew
  case requested => exact h.requested
  case told =>
    intro u hu hend
    rcases hwas u hend with rfl|hend
    · exact hback hu
    · exact h.told u hu hend
  case awake => exact h.awake
  case workersRunning => exact h.workersRunning
  case left =>
    intro w hend
    rcases hwas _ hend with heq|hend
    · exact hwork (by rw [← heq]; simp [isBackground])
    · exact h.left w hend

theorem requested_of_notified {m : Main n} (h : m.duty.notified) : m.duty.requested := by
  cases m with
  | returned code =>
    cases code with
    | zero => rfl
    | succ k => cases h
  | _ => first | rfl | cases h

/-- A background thread goes on in `wait`. -/
theorem Staffed.waitMove {B : Type} {t : Thread (Fin n)} {again : B}
    {set : State n S A → Loop B → State n S A} {l : Loop B} (h : Staffed p)
    (ht : p.life t=.running) (hback : isBackground t)
    (hset : ∀ l, (p.requested → l≠.wait .asleep) → Staffed (set p l))
    (hs : WaitMove p t again set l p') : Staffed p' := by
  cases hs with
  | goesOn hl hsleep => exact hset _ fun hr heq => hsleep hr (Loop.wait.inj heq)
  | ends hl hrequested => exact h.ended ht (fun _ => hrequested) fun hno => absurd hback hno
  | again hl => exact hset _ fun _ => by simp

theorem beatMove_staff (hs : BeatMove e p p') :
    p'.staff=p.staff ∧ p'.heartbeat≠.wait .asleep ∧ p'.stats=p.stats := by
  cases hs with
  | _ => exact ⟨rfl,by simp,rfl⟩

theorem Staffed.step (h : Staffed p) {a : Action n S A} (hs : step e p a=some p') :
    Staffed p' := by
  have hreq : p.main.duty.notified → p.requested := by
    intro hn
    rw [h.requested]
    exact requested_of_notified hn
  cases step_move hs with
  | service hmay hstep => exact h.keep rfl h.awake
  | main hm => exact h.mainMove hm
  | copy hb hlife => exact h.keep rfl fun hn => ⟨by simp,(h.awake hn).2⟩
  | beat hlife hcalls hb =>
    obtain ⟨hstaff,hheart,hstats⟩ := beatMove_staff hb
    exact h.keep hstaff fun hn => ⟨hheart,by rw [hstats]; exact (h.awake hn).2⟩
  | printServerStats hlife => exact h.keep rfl fun hn => ⟨(h.awake hn).1,by simp⟩
  | heartbeatWait hlife hw =>
    refine h.waitMove hlife rfl ?_ hw
    exact fun l hl => h.keep rfl fun hn => ⟨hl (hreq hn),(h.awake hn).2⟩
  | statsWait hlife hw =>
    refine h.waitMove hlife rfl ?_ hw
    exact fun l hl => h.keep rfl fun hn => ⟨(h.awake hn).1,hl (hreq hn)⟩
  | pong w x hlife => exact h.keep rfl h.awake
  | leave hidle hlife hstopped hcalls =>
    exact h.ended hlife (fun hback => by cases hback) fun _ => hstopped

end IocpServer.GameServer
