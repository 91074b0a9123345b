import IocpServer.Server.Draining
import IocpServer.Server.Shutdown

set_option linter.unusedSectionVars false

namespace IocpServer.Server

open NetWork.Lifecycle

variable {T S : Type}

/-- What `wait_for_shutdown` relies on to return: the counts of a session are exact, and whoever is
told to shut down gets to its cleanup and through it. -/
structure Closable (g : Game.State S) (x : S) (l : Local Packet) : Prop where
  ledger : IoLedger l
  pledged : Pledged l
  cleanup : Cleaning l →
    (g.sessions x).cleanupDone ∨ Game.Op.setCleanupDone∈(g.sessions x).todo

theorem closable_init (maxSessionCount : Int) (x : S) :
    Closable (Game.State.init maxSessionCount) x ⟨Core.init,0⟩ := by
  refine ⟨IoLedger.init,Pledged.init,?_⟩
  intro h
  simp [Cleaning,Core.init,tok] at h

variable [DecidableEq S]

theorem exec_cleanupDone (c : Game.Codec) (g : Game.State S) (x : S) {op : Game.Op}
    (h : (g.sessions x).cleanupDone ∨ op=.setCleanupDone) :
    ((Game.exec c g x op).1.sessions x).cleanupDone := by
  cases op with
  | setCleanupDone => simp [Game.exec,Game.State.setSession]
  | _ =>
    have hdone := h.resolve_right (by simp)
    simp only [Game.exec]
    repeat' split
    all_goals simpa [Game.State.setSession] using hdone

section

variable {e : Env} {g : Game.State S} {x : S} {c c' : Core Packet} {o : Choice Packet}
  {fs : List (Frame Packet)} {m : Multiset (Frame Packet)}

/-- A session that is connected has not begun its cleanup. -/
theorem not_cleaning_of_connect {pkt : Packet} (h : Account ⟨c,.job (.packet pkt)::ₘm⟩)
    (hon : c.pipe.isConnect) : ¬Cleaning ⟨c,.job (.packet pkt)::ₘm⟩ := by
  have hran := (h.of_connect hon).2
  have hwork := h.running
  have hle := cleanupBodies_le m
  have hle' := cleaning_add_handling_le m
  have hone := Bool.toNat_le c.running
  simp only [Cleaning,tok_cons,cleanupBodies,Frame.working] at hran hwork ⊢
  omega

theorem Closable.fire {f : Frame Packet} (h : Closable g x ⟨c,f::ₘm⟩)
    (hr : Resident g x ⟨c,f::ₘm⟩) (hx : exec c o f=some (c',fs)) :
    Closable (gameStep e g x c.pipe.isConnect f).1 x ⟨c',beside fs m⟩ := by
  refine ⟨h.ledger.fire hr.sound.account hr.sound.books hx,h.pledged.fire hx,?_⟩
  cases f with
  | body cleanup =>
    intro hcl
    have hsum := (exec_body (m:=m) hx).1
    have hbefore := h.cleanup (by simpa only [Cleaning,hsum] using hcl)
    simp only [gameStep]
    split
    · exact hbefore
    · rename_i op rest htodo
      rw [Game.advance_sessions_self]
      rw [htodo] at hbefore
      by_cases hrest : Game.Op.setCleanupDone∈rest
      · exact Or.inr (List.mem_append_right _ hrest)
      · left
        apply exec_cleanupDone
        refine hbefore.imp_right fun hin => ?_
        exact ((List.mem_cons.mp hin).resolve_right hrest).symm
  | job j =>
    cases j with
    | cleanup =>
      intro _
      right
      simp [gameStep,Game.State.startCleanup,Game.State.setSession,Game.cleanup,Game.releaseSession]
      split <;> simp
    | packet pkt =>
      cases hon : c.pipe.isConnect with
      | true =>
        have hnot := not_cleaning_of_connect hr.sound.account hon
        cases hx
        intro hcl
        apply absurd _ hnot
        simpa [Cleaning,cleanupBodies,hon] using hcl
      | false =>
        cases hx
        have hsame : (gameStep e g x false (.job (.packet pkt))).1=g := by cases pkt <;> rfl
        rw [hsame]
        simpa [Cleaning,cleanupBodies,hon] using h.cleanup
  | addSession =>
    obtain ⟨-,hsum,-,hzero,hran,-⟩ := exec_outside hx (by simp) (by simp)
    have hsame : ((gameStep e g x c.pipe.isConnect .addSession).1.sessions x)=g.sessions x := by
      simp only [gameStep]
      split <;> rfl
    rw [hsame]
    simpa [Cleaning,hsum,hran,hzero] using h.cleanup
  | _ =>
    obtain ⟨-,hsum,-,hzero,hran,-⟩ := exec_outside hx (by simp) (by simp)
    rw [(gameStep_outside e g x c.pipe.isConnect (by simp) (by simp) (by simp)).1,
      (gameStep_settled e g x c.pipe.isConnect (by simp) (by simp) (by simp)).2.1]
    simpa [Cleaning,hsum,hran,hzero] using h.cleanup

theorem Closable.enter {entry : Entry} (h : Closable g x ⟨c,m⟩) (ha : Reached ⟨c,m⟩ entry)
    (hx : enter c entry=some (c',fs)) : Closable g x ⟨c',beside fs m⟩ := by
  obtain ⟨-,hsum,hran,-⟩ := enter_outside hx
  refine ⟨h.ledger.enter ha.allowed hx,h.pledged.enter hx,?_⟩
  simpa [Cleaning,hsum,hran] using h.cleanup

end

/-- What is known of a server on its way to the end. -/
structure Ending [Fintype T] (s : State T S) : Prop where
  closable : ∀ x, Closable s.game x (s.view x)
  shaped : ∀ t, Shaped (s.calls t)

theorem ending_init [Fintype T] (maxSessionCount : Int) :
    Ending (State.init maxSessionCount : State T S) := by
  refine ⟨fun x => ?_,fun t => trivial⟩
  rw [view_init]
  exact closable_init maxSessionCount x

theorem Ending.step [DecidableEq T] [Fintype T] {e : Env} {s s' : State T S} {a : Action T S}
    (h : Ending s) (hr : Running s)
    (ha : ∀ t x entry, a=.enter t x entry → Reached (s.view x) entry)
    (hs : Server.step e s a=some s') : Ending s' := by
  refine ⟨?_,shaped_step h.shaped hs⟩
  have hboth : ∀ x, Resident s'.game x (s'.view x) ∧ Closable s'.game x (s'.view x) := by
    apply sessions_step (P:=fun g x l => Resident g x l ∧ Closable g x l) ha hs
      (fun x => ⟨hr.resident x,h.closable x⟩)
    · intro x c m o f c' fs hx hexec hadm hbody
      exact ⟨hx.1.fire hr.game hexec hadm hbody,hx.2.fire hx.1 hexec⟩
    · intro x c m entry c' fs hx hreached henter
      exact ⟨hx.1.enter hreached henter,hx.2.enter hreached henter⟩
    · intro x y isConnect f hy hx
      have hu := gameStep_other e s.game hy isConnect f
      exact ⟨hx.1.congr hu,hx.2.ledger,hx.2.pledged,by rw [hu.sessions]; exact hx.2.cleanup⟩
  exact fun x => (hboth x).2

/-- Who was told to shut down stays told. -/
theorem closing_step [DecidableEq T] {e : Env} {s s' : State T S} {a : Action T S}
    (hs : Server.step e s a=some s') {x : S} (h : (s.cores x).closing) : (s'.cores x).closing := by
  cases a with
  | run t ok recv =>
    obtain ⟨y,f,rest,c,fs,-,hx,rfl⟩ := step_run hs
    by_cases hy : x=y
    · subst hy
      simpa [State.move] using (exec_flags hx).1.trans h
    · simpa [State.move,Function.update_of_ne hy] using h
  | enter t y entry =>
    obtain ⟨c,fs,-,hx,rfl⟩ := step_enter hs
    by_cases hy : x=y
    · subst hy
      simp only [State.move,Function.update_self]
      cases enter_enters hx <;> first | rfl | exact h
    · simpa [State.move,Function.update_of_ne hy] using h

end IocpServer.Server

namespace IocpServer.Service

open NetWork.Lifecycle
open Server (Env Running)

variable {T S A : Type} [DecidableEq T] [DecidableEq S] [DecidableEq A] [Fintype T] [Fintype A]

/-- The worker has the accept event of the slot. -/
def Worker.event (slot : A) : Worker A S → Nat
  | .processAccept a _ | .registerAccept a _ => if a=slot then 1 else 0
  | _ => 0

/-- Where the accept event of a slot is. -/
def events (v : State T S A) (slot : A) : Nat :=
  v.starting.count slot+(v.accepting slot).isSome.toNat+(v.retry slot).toNat+
    ∑ t, (v.workers t).event slot

/-- The sessions that `close_service` still has on its list exist, and those it waits for were told
to shut down. -/
def Told (v : State T S A) : Prop :=
  match v.close with
  | .beginShutdown _ sessions => ∀ x∈sessions, x∈v.created
  | .waitForIo sessions => ∀ x∈sessions, x∈v.created ∧ (v.server.cores x).closing
  | .waitForJobs y sessions => ∀ x∈y::sessions, x∈v.created ∧ (v.server.cores x).closing
  | _ => True

/-- What `close_service` relies on to return. -/
structure Closes (v : State T S A) : Prop where
  ending : Server.Ending v.server
  events : ∀ slot, events v slot ≤ 1
  io : v.pendingIo=listening v
  born : ∀ x, x∉v.created → v.server.view x=⟨Core.init,0⟩
  told : Told v

theorem closes_init (maxSessionCount : Int) {slots : List A} (hslots : slots.Nodup) :
    Closes (State.init maxSessionCount slots : State T S A) := by
  refine ⟨Server.ending_init maxSessionCount,?_,?_,fun x _ => Server.view_init maxSessionCount x,
    trivial⟩
  · intro slot
    have := List.nodup_iff_count_le_one.mp hslots slot
    simpa [events,State.init,Worker.event] using this
  · simp [State.init,listening,Worker.io]

theorem events_setWorker (v : State T S A) (t : T) (w : Worker A S) (slot : A) :
    events (v.setWorker t w) slot+(v.workers t).event slot=events v slot+w.event slot := by
  have h := sum_update (Worker.event slot) v.workers t w
  simp only [events,State.setWorker]
  omega

section

variable {e : Env} {main : T} {v v' : State T S A} {s : Server.State T S}

/-- A step of the sessions. -/
theorem Closes.server (h : Closes v) (hr : Running v.server) {b : Server.Action T S}
    (hb : ∀ t x entry, b=.enter t x entry → Reached (v.server.view x) entry ∧ x∈v.created)
    (hs : Server.step e v.server b=some s) : Closes { v with server := s } := by
  refine ⟨h.ending.step hr (fun t x entry heq => (hb t x entry heq).1) hs,h.events,h.io,?_,?_⟩
  · intro y hy
    have hview := h.born y hy
    cases b with
    | run t ok recv =>
      obtain ⟨x,f,rest,c,fs,hcalls,-,rfl⟩ := Server.step_run hs
      have hne : y≠x := by
        intro heq
        subst heq
        have hin : f∈(v.server.view y).frames := Stacks.mem_pending.mpr ⟨t,by simp [hcalls]⟩
        rw [hview] at hin
        exact absurd hin (Multiset.notMem_zero f)
      exact ((Server.view_replace hcalls c fs).2 y hne).trans hview
    | enter t x entry =>
      obtain ⟨c,fs,-,-,rfl⟩ := Server.step_enter hs
      have hne : y≠x := by
        intro heq
        subst heq
        exact hy (hb t y entry rfl).2
      exact ((Server.view_push c fs).2 y hne).trans hview
  · have htold := h.told
    unfold Told at htold ⊢
    cases hc : v.close with
    | waitForIo sessions =>
      simp only [hc] at htold ⊢
      exact fun x hx => (htold x hx).imp_right (Server.closing_step hs)
    | waitForJobs y sessions =>
      simp only [hc] at htold ⊢
      exact fun x hx => (htold x hx).imp_right (Server.closing_step hs)
    | _ =>
      simp only [hc] at htold ⊢
      try exact htold

/-- A step of the listener. -/
theorem Closes.listener (h : Closes v) (hserver : v'.server=v.server) (hclose : v'.close=v.close)
    (hcreated : v.created⊆v'.created) (hevents : ∀ slot, Service.events v' slot ≤ 1)
    (hio : v'.pendingIo=listening v') : Closes v' := by
  refine ⟨by rw [hserver]; exact h.ending,hevents,hio,?_,?_⟩
  · intro x hx
    rw [hserver]
    exact h.born x fun hin => hx (hcreated hin)
  · have htold := h.told
    unfold Told at htold ⊢
    rw [hclose,hserver]
    cases hc : v.close with
    | beginShutdown todo sessions =>
      simp only [hc] at htold ⊢
      exact fun x hx => hcreated (htold x hx)
    | waitForIo sessions =>
      simp only [hc] at htold ⊢
      exact fun x hx => (htold x hx).imp_left (hcreated ·)
    | waitForJobs y sessions =>
      simp only [hc] at htold ⊢
      exact fun x hx => (htold x hx).imp_left (hcreated ·)
    | _ => trivial

/-- The event that a thread brings to `register_accept` goes to the registered accepts or to the
retries, or it is given up. -/
theorem Closes.registerAccept (h : Closes v) {slot : A} {new : Option S} {result : AcceptResult}
    (hfree : v.accepting slot=none) (hr : v.registerAccept slot new result=some v') :
    v'.server=v.server ∧ v'.close=v.close ∧ v.created⊆v'.created ∧ v'.starting=v.starting ∧
      v'.workers=v.workers ∧ v'.pendingIo=listening v' ∧
      ∀ a, (v'.accepting a).isSome.toNat+(v'.retry a).toNat ≤
        (v.accepting a).isSome.toNat+(v.retry a).toNat+if slot=a then 1 else 0 := by
  have hretry : ∀ a, (Function.update v.retry slot true a).toNat ≤
      (v.retry a).toNat+if slot=a then 1 else 0 := by
    intro a
    by_cases ha : a=slot
    · subst ha
      simp
    · simp [Function.update_of_ne ha]
  have haccept : ∀ x a, (Function.update v.accepting slot (some x) a).isSome.toNat ≤
      (v.accepting a).isSome.toNat+if slot=a then 1 else 0 := by
    intro x a
    by_cases ha : a=slot
    · subst ha
      simp
    · simp [Function.update_of_ne ha]
  have hreserve : ∀ a, (v.accepting a).isSome.toNat+(Function.update v.retry slot true a).toNat ≤
      (v.accepting a).isSome.toNat+(v.retry a).toNat+if slot=a then 1 else 0 := by
    intro a
    have := hretry a
    omega
  unfold State.registerAccept at hr
  split at hr
  · cases hr
    exact ⟨rfl,rfl,Finset.Subset.refl _,rfl,rfl,h.io,fun a => Nat.le_add_right _ _⟩
  · split at hr
    · cases hr
      exact ⟨rfl,rfl,Finset.Subset.refl _,rfl,rfl,h.io,hreserve⟩
    · rename_i x _
      split at hr
      · cases hr
      · simp only at hr
        split at hr <;> cases hr
        · refine ⟨rfl,rfl,Finset.subset_insert _ _,rfl,rfl,?_,?_⟩
          · have hsum := sum_update (fun o : Option S => o.isSome.toNat) v.accepting slot (some x)
            have hio := h.io
            simp only [hfree,Option.isSome_none,Option.isSome_some,Bool.toNat_true,
              Bool.toNat_false] at hsum
            simp only [listening] at hio ⊢
            omega
          · intro a
            have := haccept x a
            dsimp only
            omega
        · exact ⟨rfl,rfl,Finset.subset_insert _ _,rfl,rfl,h.io,hreserve⟩
        · exact ⟨rfl,rfl,Finset.subset_insert _ _,rfl,rfl,h.io,fun a => Nat.le_add_right _ _⟩

/-- A slot whose event a worker has or `start_accept` still holds has no registered accept. -/
theorem Closes.accepting_of_event (h : Closes v) {slot : A}
    (hin : 0<v.starting.count slot+∑ t, (v.workers t).event slot) : v.accepting slot=none := by
  have hone := h.events slot
  unfold Service.events at hone
  cases ha : v.accepting slot with
  | none => rfl
  | some x =>
    rw [ha,Option.isSome_some,Bool.toNat_true] at hone
    omega

/-- A worker moves on and hands its event over. -/
theorem Closes.setWorker {u : State T S A} (h : Closes v) {t : T} {w : Worker A S}
    (hserver : u.server=v.server) (hclose : u.close=v.close) (hcreated : v.created⊆u.created)
    (hstarting : u.starting=v.starting) (hworkers : u.workers=v.workers)
    (hevents : ∀ a, (u.accepting a).isSome.toNat+(u.retry a).toNat+w.event a ≤
      (v.accepting a).isSome.toNat+(v.retry a).toNat+(v.workers t).event a)
    (hio : u.pendingIo+(v.workers t).io=listening u+w.io) : Closes (u.setWorker t w) := by
  refine h.listener hserver hclose hcreated ?_ ?_
  · intro a
    have h1 := events_setWorker u t w a
    have h2 := h.events a
    have h3 := hevents a
    simp only [Service.events,hstarting,hworkers] at h1 h2
    simp only [Service.events]
    omega
  · have h1 := listening_setWorker u t w
    rw [hworkers] at h1
    show u.pendingIo=_
    omega

/-- Before `close_service` is called no session was told to shut down. -/
theorem Inv.early (hi : Inv main v) (hopen : v.acceptStopped=false) : Early v := by
  have hst := hi.stage
  unfold Stage at hst
  split at hst
  · exact hst
  · exact hst.1
  · exact hst.1
  all_goals exact absurd hst.1.1 (by simp [hopen])

theorem Closes.listenerStep (h : Closes v) (hi : Inv main v)
    {t : T} {updated : Bool} {new : Option S} {result : AcceptResult}
    (hs : Move e main v (.listener t updated new result) v') : Closes v' := by
  cases hs with
  | stopped ht =>
    refine h.setWorker rfl rfl (Finset.Subset.refl _) rfl rfl ?_ ?_
    · exact fun a => Nat.le_add_right _ _
    · rw [ht,h.io]
      rfl
  | @notUpdated _ slot _ _ _ ht =>
    refine h.setWorker rfl rfl (Finset.Subset.refl _) rfl rfl ?_ ?_
    · intro a
      rw [ht]
      by_cases ha : a=slot
      · subst ha
        simp [State.reserveAcceptRetry,Worker.event]
      · simp [State.reserveAcceptRetry,Worker.event,Function.update_of_ne ha]
    · rw [ht]
      exact congrArg (·+1) h.io
  | @offer _ slot x _ _ s ht hopen hstep =>
    have hearly := hi.early hopen
    obtain ⟨hoff,hlive,-⟩ := hi.accepts.offer (s:=v.server) ht fun y => Or.inl rfl
    have hserver := h.server hi.running (b:=.enter t x .offer) (by
      intro u y entry heq
      cases heq
      exact ⟨⟨hoff,(hearly x).1⟩,hi.accepts.created x hlive⟩) hstep
    refine hserver.setWorker rfl rfl (Finset.Subset.refl _) rfl rfl ?_ ?_
    · intro a
      simp only [ht]
      exact Nat.le_refl _
    · simp only [ht]
      exact congrArg (·+1) hserver.io
  | @registerAccept _ slot completion _ _ _ _ ht hcalls hr =>
    have hfree : v.accepting slot=none := by
      apply h.accepting_of_event
      have hle := le_sum (Worker.event slot) v.workers t
      have hone : (v.workers t).event slot=1 := by
        rw [ht]
        exact if_pos rfl
      omega
    obtain ⟨hserver,hclose,hcreated,hstarting,hworkers,hio,hevents⟩ := h.registerAccept hfree hr
    refine h.setWorker hserver hclose hcreated hstarting hworkers ?_ ?_
    · intro a
      have := hevents a
      rw [ht]
      cases completion <;> simpa [Worker.event] using this
    · rw [ht,hio]
      cases completion <;> rfl
  | finishIo ht =>
    refine h.setWorker rfl rfl (Finset.Subset.refl _) rfl rfl ?_ ?_
    · exact fun a => Nat.le_add_right _ _
    · have hpos := le_sum Worker.io v.workers t
      have hio := h.io
      have hsame : listening ({ v with pendingIo := v.pendingIo-1 } : State T S A)=listening v :=
        rfl
      rw [hsame,ht]
      rw [ht] at hpos
      simp only [Worker.io,listening] at hpos hio ⊢
      omega

/-- The next step of `close_service`. -/
theorem Closes.closeStep (h : Closes v) (hi : Inv main v) (hs : closeStep e main v=some v') :
    Closes v' := by
  have hst := hi.stage
  have htold := h.told
  unfold Stage at hst
  unfold Told at htold
  cases closeStep_move hs with
  | stopAccept => exact ⟨h.ending,h.events,h.io,h.born,trivial⟩
  | listenerDone => exact ⟨h.ending,h.events,h.io,h.born,trivial⟩
  | snapshot => exact ⟨h.ending,h.events,h.io,h.born,hi.accepts.created⟩
  | @beginShutdown x todo sessions s hclose hstep =>
    simp only [hclose] at hst htold
    have hserver := h.server hi.running (b:=.enter main x .beginShutdown) (by
      intro u y entry heq
      cases heq
      exact ⟨hi.no_admission hst.1 x,htold x (hst.2.1 x List.mem_cons_self)⟩) hstep
    exact ⟨hserver.ending,hserver.events,hserver.io,hserver.born,htold⟩
  | allTold hclose =>
    simp only [hclose] at hst htold
    refine ⟨h.ending,h.events,h.io,h.born,?_⟩
    intro x hx
    exact ⟨htold x hx,((hst.2.2 x).2 hx).resolve_left (by simp)⟩
  | ioDone hclose =>
    simp only [hclose] at htold
    exact ⟨h.ending,h.events,h.io,h.born,htold⟩
  | returned => exact ⟨h.ending,h.events,h.io,h.born,trivial⟩
  | @jobsDone x sessions s hclose _ _ hstep =>
    simp only [hclose] at htold
    have hserver := h.server hi.running (b:=.enter main x .clearSend) (by
      intro u y entry heq
      cases heq
      exact ⟨trivial,(htold x List.mem_cons_self).1⟩) hstep
    refine ⟨hserver.ending,hserver.events,hserver.io,hserver.born,?_⟩
    intro y hy
    exact (htold y (List.mem_cons_of_mem x hy)).imp_right (Server.closing_step hstep)

/-- The calls of workers go to sessions that exist. -/
theorem Closes.created_of_enter (h : Closes v) {t : T} {x : S} {entry : Entry}
    (ha : Ok v (.server (.enter t x entry))) (hw : ofWorkers entry)
    (hs : Server.step e v.server (.enter t x entry)=some s) : x∈v.created := by
  by_contra hx
  have hcore : v.server.cores x=Core.init := congrArg Local.core (h.born x hx)
  obtain ⟨c,fs,-,henter,-⟩ := Server.step_enter hs
  rw [hcore] at henter
  cases entry with
  | offer | beginShutdown | clearSend => cases hw
  | send | disconnect =>
    have hadmitted : (v.server.cores x).admitted := ha
    rw [hcore] at hadmitted
    cases hadmitted
  | _ => cases henter

/-- Every step of the server. -/
theorem Closes.step (h : Closes v) (hi : Inv main v) {a : Action T S A} (ha : Ok v a)
    (hs : Service.step e main v a=some v') : Closes v' := by
  cases step_move hs with
  | run hstep => exact h.server hi.running (fun t x entry heq => by cases heq) hstep
  | @enter t x entry _ hw ht hentry hstep =>
    apply h.server hi.running _ hstep
    intro u y entry' heq
    cases heq
    refine ⟨?_,h.created_of_enter ha hentry hstep⟩
    cases entry with
    | offer | beginShutdown | clearSend => exact absurd hentry (by simp [ofWorkers])
    | send | disconnect => exact ha
    | _ => trivial
  | @startAccept slot slots _ _ _ hstart hr =>
    have hfree : v.accepting slot=none := by
      apply h.accepting_of_event
      rw [hstart,List.count_cons_self]
      omega
    obtain ⟨hserver,hclose,hcreated,-,hworkers,hio,hevents⟩ := h.registerAccept hfree hr
    refine h.listener hserver hclose hcreated ?_ hio
    intro a
    have h1 := hevents a
    have h2 := h.events a
    simp only [Service.events,hstart,List.count_cons,beq_iff_eq] at h2
    simp only [Service.events,hworkers]
    omega
  | @acceptCompleted t slot x hidle hslot =>
    refine h.setWorker rfl rfl (Finset.Subset.refl _) rfl rfl ?_ ?_
    · intro a
      rw [hidle]
      by_cases ha : a=slot
      · subst ha
        simp [Worker.event,hslot,Nat.add_comm]
      · simp [Worker.event,Function.update_of_ne ha,Ne.symm ha]
    · have hsum := sum_update (fun o : Option S => o.isSome.toNat) v.accepting slot none
      have hio := h.io
      rw [hidle]
      simp only [hslot,Option.isSome_none,Option.isSome_some,Bool.toNat_true,
        Bool.toNat_false] at hsum
      simp only [listening,Worker.io] at hio ⊢
      omega
  | @retryAccept t slot hidle _ hretry =>
    refine h.setWorker rfl rfl (Finset.Subset.refl _) rfl rfl ?_ ?_
    · intro a
      rw [hidle]
      by_cases ha : a=slot
      · subst ha
        simp [Worker.event,hretry]
      · simp [Worker.event,Function.update_of_ne ha,Ne.symm ha]
    · rw [hidle]
      exact h.io
  | close hstep => exact h.closeStep hi hstep
  | destroy x => exact h.listener rfl rfl (Finset.Subset.refl _) h.events h.io
  | _ => exact h.listenerStep hi (step_move hs)

end

/-- The step brings something new to the sessions. The destructor of a session that is gone already
counts as such, too: it is no step of the server. -/
def news (v : State T S A) : Action T S A → Bool
  | .server b => Server.news v.server b
  | .destroy x => x∉v.liveSessions
  | _ => false

/-- A step of the server, which costs one if it brings something new. -/
def Steps (e : Env) (main : T) (v : State T S A) (c : Nat) (v' : State T S A) : Prop :=
  ∃ a, Ok v a ∧ c=(news v a).toNat ∧ step e main v a=some v'

def Worker.weight : Worker A S → Nat
  | .idle => 0
  | .finishIo => 1
  | .processAccept _ _ | .registerAccept _ _ => 2

/-- The weight of what `close_service` still has to do, with `n` sessions alive. -/
def closeWeight (n : Nat) : Close S → Nat
  | .running => 0
  | .waitListener => 5*n+4
  | .snapshot => 5*n+3
  | .beginShutdown todo sessions => 3*todo.length+2*sessions.length+2
  | .waitForIo sessions => 2*sessions.length+1
  | .waitForJobs _ sessions => 2*sessions.length+2
  | .returned => 0

/-- A bound for the steps of a server that is closing, as long as nothing new comes in. -/
def effort (v : State T S A) : Nat :=
  v.server.work v.created+∑ t, (v.workers t).weight+3*∑ slot, (v.accepting slot).isSome.toNat+
    3*∑ slot, (v.retry slot).toNat+v.starting.length+v.liveSessions.length+
      closeWeight v.liveSessions.length v.close

section

variable {e : Env} {main : T} {v v' : State T S A}

theorem Inv.acceptStopped (hi : Inv main v) (hclose : v.close≠.running) : v.acceptStopped := by
  have hst := hi.stage
  unfold Stage at hst
  split at hst
  · contradiction
  · exact hst.2
  · exact hst.2.1
  all_goals exact hst.1.1

theorem registerAccept_of_stopped (h : v.acceptStopped) (slot : A) (new : Option S)
    (result : AcceptResult) : v.registerAccept slot new result=some v := if_pos h

theorem effort_setWorker (v : State T S A) (t : T) (w : Worker A S) :
    effort (v.setWorker t w)+(v.workers t).weight=effort v+w.weight := by
  have h := sum_update Worker.weight v.workers t w
  simp only [effort,State.setWorker]
  omega

/-- A worker of a closed listener moves on. -/
theorem effort_listener (hstop : v.acceptStopped) {t : T} {updated : Bool} {new : Option S}
    {result : AcceptResult} (hs : Move e main v (.listener t updated new result) v') :
    effort v'<effort v := by
  have hmove := effort_setWorker v t
  cases hs with
  | stopped ht =>
    rw [ht] at hmove
    have := hmove .finishIo
    simp only [Worker.weight] at this
    omega
  | notUpdated ht hopen => exact absurd hstop (by simp [hopen])
  | offer ht hopen => exact absurd hstop (by simp [hopen])
  | @registerAccept _ _ completion _ _ _ _ ht hcalls hr =>
    rw [registerAccept_of_stopped hstop] at hr
    cases hr
    have := hmove (if completion then .finishIo else .idle)
    have hbusy : (v.workers t).weight=2 := by rw [ht]; rfl
    have hle : (if completion then .finishIo else .idle : Worker A S).weight ≤ 1 := by
      cases completion <;> simp [Worker.weight]
    omega
  | finishIo ht =>
    rw [ht] at hmove
    have := hmove .idle
    simp only [Worker.weight] at this
    show effort (v.setWorker t .idle)<_
    omega

/-- A step of the sessions, which may add weight if `close_service` pays for it. -/
theorem effort_server {s : Server.State T S} {close : Close S} {n : Nat}
    (hwork : s.work v.created<v.server.work v.created+n)
    (hclose : closeWeight v.liveSessions.length close+n ≤
      closeWeight v.liveSessions.length v.close) :
    effort { v with server := s, close := close }<effort v := by
  simp only [effort]
  omega

theorem Closes.created_of_call (h : Closes v) {t : T} {x : S} {f : Frame Server.Packet}
    (hin : (x,f)∈v.server.calls t) : x∈v.created := by
  by_contra hx
  have hframe : f∈(v.server.view x).frames := Stacks.mem_pending.mpr ⟨t,hin⟩
  rw [h.born x hx] at hframe
  exact absurd hframe (Multiset.notMem_zero f)

/-- `close_service` moves on and leaves the sessions alone. -/
theorem effort_closing {closing : Bool} {close : Close S}
    (hlt : closeWeight v.liveSessions.length close<closeWeight v.liveSessions.length v.close) :
    effort { v with closing := closing, close := close }<effort v :=
  effort_server (n:=1) (s:=v.server) (Nat.lt_succ_self _) hlt

/-- `close_service` moves on. -/
theorem effort_close (h : Closes v) (hi : Inv main v) (hrun : v.close≠.running)
    (hs : closeStep e main v=some v') : effort v'<effort v := by
  have hst := hi.stage
  have htold := h.told
  unfold Stage at hst
  unfold Told at htold
  cases closeStep_move hs with
  | stopAccept hclose => contradiction
  | listenerDone hclose => exact effort_closing (by simp [hclose,closeWeight])
  | snapshot hclose =>
    refine effort_closing ?_
    simp only [hclose,closeWeight]
    omega
  | @beginShutdown x _ _ _ hclose hstep =>
    simp only [hclose] at hst htold
    refine effort_server (n:=3) (Server.work_enter hstep
      (htold x (hst.2.1 x List.mem_cons_self)) ?_) ?_
    · intro c fs henter
      cases henter
      simp [Server.frameWeight,Server.pipeWeight,Server.coreWeight]
      omega
    · simp only [hclose,closeWeight,List.length_cons]
      omega
  | allTold hclose => exact effort_closing (by simp [hclose,closeWeight])
  | ioDone hclose =>
    refine effort_closing ?_
    simp only [hclose,closeWeight,List.length_cons]
    omega
  | returned hclose => exact effort_closing (by simp [hclose,closeWeight])
  | @jobsDone x _ _ hclose _ _ hstep =>
    simp only [hclose] at htold
    refine effort_server (n:=1) (Server.work_enter hstep (htold x List.mem_cons_self).1 ?_) ?_
    · intro c fs henter
      cases henter
      simp [Server.coreWeight]
    · simp only [hclose,closeWeight]
      omega

/-- A step of a closing server brings it nearer to its end, but for what is new. -/
theorem effort_step (h : Closes v) (hi : Inv main v) (hrun : v.close≠.running) {a : Action T S A}
    (ha : Ok v a) (hs : step e main v a=some v') : effort v'<effort v+304*(news v a).toNat := by
  have hstop := hi.acceptStopped hrun
  cases step_move hs with
  | run hstep =>
    have hlt := Server.work_run hi.running (fun t x f => h.created_of_call) hstep
    simp only [effort,news]
    omega
  | enter hw ht hentry hstep =>
    have hlt := Server.work_enter hstep (h.created_of_enter ha hentry hstep)
      fun c fs henter => Server.enter_weight henter
    simp only [effort,news,Server.news]
    omega
  | startAccept hstart hr =>
    apply Nat.lt_add_right
    rw [registerAccept_of_stopped hstop] at hr
    cases hr
    simp only [effort,hstart,List.length_cons]
    omega
  | @acceptCompleted t slot x hidle hslot =>
    apply Nat.lt_add_right
    have hmove := effort_setWorker
      { v with accepting := Function.update v.accepting slot none } t (.processAccept slot x)
    have hsum := sum_update (fun o : Option S => o.isSome.toNat) v.accepting slot none
    simp only [hslot,Option.isSome_none,Option.isSome_some,Bool.toNat_true,
      Bool.toNat_false] at hsum
    have hfreed : effort { v with accepting := Function.update v.accepting slot none }+3=
        effort v := by
      simp only [effort]
      omega
    have htwo : (Worker.processAccept slot x : Worker A S).weight=2 := rfl
    omega
  | @retryAccept t slot hidle _ hretry =>
    apply Nat.lt_add_right
    have hmove := effort_setWorker
      { v with retry := Function.update v.retry slot false } t (.registerAccept slot false)
    have hsum := sum_update Bool.toNat v.retry slot false
    rw [hretry,Bool.toNat_true,Bool.toNat_false] at hsum
    have hfreed : effort { v with retry := Function.update v.retry slot false }+3=effort v := by
      simp only [effort]
      omega
    have htwo : (Worker.registerAccept slot false : Worker A S).weight=2 := rfl
    omega
  | close hstep => exact Nat.lt_add_right _ (effort_close h hi hrun hstep)
  | destroy x =>
    have hlt : (v.liveSessions.filter (·≠x)).length<
        v.liveSessions.length+304*(news v (.destroy x)).toNat := by
      by_cases hx : x∈v.liveSessions
      · apply Nat.lt_add_right
        apply List.length_filter_lt_length_iff_exists.mpr
        exact ⟨x,hx,by simp⟩
      · have hle := List.length_filter_le (fun y => decide (y≠x)) v.liveSessions
        simp only [news,hx,not_false_eq_true,decide_true,Bool.toNat_true]
        omega
    have hle : closeWeight (v.liveSessions.filter (·≠x)).length v.close ≤
        closeWeight v.liveSessions.length v.close := by
      have := List.length_filter_le (fun y => decide (y≠x)) v.liveSessions
      cases v.close <;> simp only [closeWeight] <;> omega
    simp only [effort]
    omega
  | _ => exact Nat.lt_add_right _ (effort_listener hstop (step_move hs))

/-- No thread is in a session or in the listener. -/
structure Still (v : State T S A) : Prop where
  calls : ∀ t, v.server.calls t=[]
  workers : ∀ t, v.workers t=.idle

theorem Still.frames (h : Still v) (x : S) : (v.server.view x).frames=0 := by
  apply Multiset.eq_zero_of_forall_notMem
  intro f hf
  obtain ⟨t,ht⟩ := Stacks.mem_pending.mp hf
  rw [h.calls t] at ht
  cases ht

/-- The actions that bring a closing server on: a thread goes on where it is, the given worker takes
a completion or a job, or `close_service` takes its next step. -/
def Driven (v : State T S A) (worker : T) : Action T S A → Prop
  | .server (.run t _ _) => v.server.calls t≠[]
  | .server (.enter t _ _) | .acceptCompleted t _ => t=worker
  | .listener t _ _ _ => v.workers t≠.idle
  | .close => True
  | _ => False

/-- The server can go on with such an action, which brings nothing new. -/
def GoesOn (e : Env) (main : T) (v : State T S A) (worker : T) : Prop :=
  ∃ a, Driven v worker a ∧ Ok v a ∧ news v a=false ∧ (step e main v a).isSome

theorem GoesOn.steps {worker : T} (h : GoesOn e main v worker) : ∃ v', Steps e main v 0 v' := by
  obtain ⟨a,-,ha,hq,hs⟩ := h
  obtain ⟨v',hv⟩ := Option.isSome_iff_exists.mp hs
  exact ⟨v',a,ha,by rw [hq]; rfl,hv⟩

/-- A thread that is in a session or in the listener can go on. -/
theorem goesOn_of_busy (h : Closes v) (hi : Inv main v) (hrun : v.close≠.running) (worker : T) :
    Still v ∨ GoesOn e main v worker := by
  by_cases hcalls : ∃ t, v.server.calls t≠[]
  · obtain ⟨t,ht⟩ := hcalls
    obtain ⟨u,s,hs⟩ := Server.exists_run e hi.running h.ending.shaped ht
    obtain ⟨x,f,rest,c,fs,hu,-,-⟩ := Server.step_run hs
    refine Or.inr ⟨.server (.run u true .wait),?_,trivial,?_,by simp [step,hs]⟩
    · show v.server.calls u≠[]
      simp [hu]
    · simp [news,Server.news,hu,Server.finds]
  · simp only [not_exists,not_not] at hcalls
    by_cases hworkers : ∃ t, v.workers t≠.idle
    · obtain ⟨t,ht⟩ := hworkers
      have hstop := hi.acceptStopped hrun
      refine Or.inr ⟨.listener t true none .retry,ht,trivial,rfl,?_⟩
      simp only [step,listenerStep]
      cases hw : v.workers t with
      | idle => exact absurd hw ht
      | processAccept slot x => simp [hstop]
      | registerAccept slot completion => simp [hcalls t,registerAccept_of_stopped hstop]
      | finishIo => rfl
    · simp only [not_exists,not_not] at hworkers
      exact Or.inl ⟨hcalls,hworkers⟩

/-- A worker takes a completion or a job. -/
theorem goesOn_enter (hstill : Still v) {worker : T} (hw : worker≠main) {x : S} {entry : Entry}
    (hq : Server.newsEntry entry=false)
    (henter : (NetWork.Lifecycle.enter (v.server.cores x) entry).isSome) :
    GoesOn e main v worker := by
  have hworkers : ofWorkers entry ∧ Ok v (.server (.enter worker x entry)) ∧
      Server.canEnter (v.server.calls worker) entry := by
    rw [hstill.calls worker]
    cases entry with
    | offer | send | disconnect | beginShutdown | clearSend => cases hq
    | _ => exact ⟨rfl,trivial,rfl⟩
  obtain ⟨hof,hok,hcan⟩ := hworkers
  refine ⟨.server (.enter worker x entry),rfl,hok,hq,?_⟩
  simp [step,hstill.workers worker,hw,hof,Server.step,hcan,henter]

/-- A registered operation can complete. -/
theorem exists_completion {c : Core Server.Packet} (h : c.inFlight≠0) :
    ∃ entry, Server.newsEntry entry=false ∧ (NetWork.Lifecycle.enter c entry).isSome := by
  cases hrecv : c.receiving with
  | true => exact ⟨.recvCompleted 0,rfl,by simp [enter,hrecv]⟩
  | false =>
    cases hflight : c.pipe.flight with
    | some bytes => exact ⟨.sendCompleted 0,rfl,by simp [enter,hflight]⟩
    | none =>
      cases hdis : c.pipe.disconnecting with
      | true => exact ⟨.disconnectCompleted,rfl,by simp [enter,hdis]⟩
      | false => exact absurd (Core.inFlight_eq_zero.mpr ⟨hrecv,hflight,hdis⟩) h

/-- `wait_for_shutdown` gets to the end of its wait for the operations of a session. -/
theorem goesOn_of_pendingIo (h : Closes v) (hstill : Still v) {worker : T} (hw : worker≠main)
    {x : S} (hio : (v.server.cores x).pendingIo≠0) : GoesOn e main v worker := by
  have hledger : (v.server.cores x).pendingIo=_ := (h.ending.closable x).ledger.io
  rw [hstill.frames x] at hledger
  have hfly : (v.server.view x).core.inFlight≠0 := by
    intro hzero
    apply hio
    rw [hledger,hzero]
    rfl
  obtain ⟨entry,hq,henter⟩ := exists_completion hfly
  exact goesOn_enter hstill hw hq henter

/-- The cleanup of a session without operations and jobs that was told to shut down is done. -/
theorem cleanupDone_of_still (h : Closes v) (hi : Inv main v) (hstill : Still v) {x : S}
    (hclosing : (v.server.cores x).closing) (hfly : (v.server.cores x).inFlight=0)
    (hjobs : (v.server.cores x).jobs=[]) : (v.server.game.sessions x).cleanupDone := by
  obtain ⟨hsound,hlinked,-,-⟩ := hi.running.resident x
  obtain ⟨-,hpledged,hcleanup⟩ := h.ending.closable x
  have hframes := hstill.frames x
  have hnone : ∀ w, tok w (v.server.view x).frames=0 := by
    intro w
    rw [hframes]
    rfl
  have hstarted := (hsound.books.told hclosing).resolve_right (by rw [hnone]; omega)
  have hdis : (v.server.view x).core.pipe.isDisconnect := by
    refine (hpledged hstarted).resolve_right ?_
    have hoff : (v.server.view x).core.pipe.disconnecting=false :=
      (Core.inFlight_eq_zero.mp hfly).2.2
    rw [hnone,hoff]
    simp
  have hqueued := hsound.account.queued
  have hran := hsound.account.ran
  have hjobs' : (v.server.view x).core.jobs=[] := hjobs
  rw [hnone,hdis,Bool.toNat_true] at hqueued
  rw [hnone,hjobs'] at hran
  simp only [cleanups,List.countP_nil] at hran
  refine (hcleanup ?_).resolve_right ?_
  · unfold Server.Cleaning
    omega
  · rw [hlinked.idle (hnone _)]
    simp

/-- `wait_for_shutdown` gets to the end of its wait for the jobs of a session. -/
theorem goesOn_of_pendingJobs (h : Closes v) (hi : Inv main v) (hstill : Still v) {worker : T}
    (hw : worker≠main) {x : S} (hclosing : (v.server.cores x).closing)
    (hfly : (v.server.cores x).inFlight=0)
    (hwait : ¬((v.server.game.sessions x).cleanupDone ∧ (v.server.cores x).pendingJobs=0)) :
    GoesOn e main v worker := by
  obtain ⟨hsound,-,-,-⟩ := hi.running.resident x
  have hframes := hstill.frames x
  have hcount : (v.server.cores x).pendingJobs=_ := hsound.books.jobs
  have hrunning : _=(v.server.cores x).running.toNat := hsound.account.running
  rw [hframes] at hcount hrunning
  cases hjobs : (v.server.cores x).jobs with
  | nil =>
    refine absurd ⟨cleanupDone_of_still h hi hstill hclosing hfly hjobs,?_⟩ hwait
    rw [hcount]
    simp [Server.State.view,hjobs,tok]
  | cons j rest =>
    have hidle : (v.server.cores x).running=false := by
      cases hrun : (v.server.cores x).running with
      | false => rfl
      | true =>
        rw [hrun] at hrunning
        cases hrunning
    have hstart : (NetWork.Lifecycle.enter (v.server.cores x) .startJob).isSome := by
      simp [enter,hjobs,hidle]
    exact goesOn_enter hstill hw rfl hstart

/-- A closing server can go on until `close_service` has returned. -/
theorem goesOn_of_closing (h : Closes v) (hi : Inv main v) (hrun : v.close≠.running) {worker : T}
    (hw : worker≠main) : v.close=.returned ∨ GoesOn e main v worker := by
  cases goesOn_of_busy (e:=e) h hi hrun worker with
  | inr hgo => exact Or.inr hgo
  | inl hstill =>
    by_cases hclosed : v.close=.returned
    · exact Or.inl hclosed
    refine Or.inr ?_
    have hst := hi.stage
    have htold := h.told
    unfold Stage at hst
    unfold Told at htold
    have hcan : (closeStep e main v).isSome → GoesOn e main v worker :=
      fun hs => ⟨.close,trivial,trivial,rfl,hs⟩
    cases hclose : v.close with
    | running => exact absurd hclose hrun
    | waitListener =>
      by_cases hio : v.pendingIo=0
      · exact hcan (by simp [closeStep,hclose,hio])
      · have hpos := h.io
        unfold listening at hpos
        have hidle : ∑ t, (v.workers t).io=0 := by simp [hstill.workers,Worker.io]
        obtain ⟨slot,hslot⟩ : ∃ slot, v.accepting slot≠none := by
          by_contra hnone
          simp only [not_exists,not_not] at hnone
          simp only [hnone,Option.isSome_none,Bool.toNat_false,Finset.sum_const_zero] at hpos
          omega
        obtain ⟨x,hx⟩ := Option.ne_none_iff_exists'.mp hslot
        refine ⟨.acceptCompleted worker slot,rfl,trivial,rfl,?_⟩
        simp [step,hstill.workers worker,hx,hw,hstill.calls worker]
    | snapshot => exact hcan (by simp [closeStep,hclose])
    | beginShutdown todo sessions =>
      cases todo with
      | nil => exact hcan (by simp [closeStep,hclose,hstill.calls main])
      | cons x todo =>
        exact hcan (by
          simp [closeStep,hclose,Server.step,Server.canEnter,hstill.calls main,enter])
    | waitForIo sessions =>
      cases sessions with
      | nil => exact hcan (by simp [closeStep,hclose])
      | cons x sessions =>
        by_cases hio : (v.server.cores x).pendingIo=0
        · exact hcan (by simp [closeStep,hclose,hio])
        · exact goesOn_of_pendingIo h hstill hw hio
    | waitForJobs x sessions =>
      simp only [hclose] at hst htold
      by_cases hwait : (v.server.game.sessions x).cleanupDone ∧ (v.server.cores x).pendingJobs=0
      · exact hcan (by
          simp [closeStep,hclose,hwait,Server.step,Server.canEnter,hstill.calls main,enter])
      · refine goesOn_of_pendingJobs h hi hstill hw (htold x List.mem_cons_self).2 ?_ hwait
        exact hst.2.2.1.elim (fun ha => ha.inFlight) fun hs => hs.inFlight
    | returned => exact absurd hclose hclosed

theorem closeStep_closing (hs : closeStep e main v=some v') : v'.close≠.running := by
  cases closeStep_move hs <;> simp

theorem step_closing {a : Action T S A} (hr : v.close≠.running) (hs : step e main v a=some v') :
    v'.close≠.running := by
  cases a with
  | close => exact closeStep_closing hs
  | _ =>
    rw [step_close hs (by simp)]
    exact hr

theorem reaches_closes (hc : ∀ str, str≠[] → e.codec.multiByteToWideChar str≠[])
    {maxSessionCount : Int} {slots : List A} (hslots : slots.Nodup)
    (h : Reaches (step e main) Ok (State.init maxSessionCount slots) v) : Closes v :=
  h.invariant_of (Q:=Inv main) (fun _ hx => reaches_inv hc hx) (closes_init maxSessionCount hslots)
    fun _ _ _ hi hx ha hs => hx.step hi ha hs

/-- Once `close_service` was called, no schedule keeps the server from closing: it takes at most
`effort v` steps, and 304 for each thing that is new, and where nothing new comes in any more it does
not stop before `close_service` has returned. -/
theorem close_service_returns (hc : ∀ str, str≠[] → e.codec.multiByteToWideChar str≠[])
    {worker : T} (hw : worker≠main) (maxSessionCount : Int) {slots : List A} (hslots : slots.Nodup)
    (h : Reaches (step e main) Ok (State.init maxSessionCount slots) v) (hclose : v.close≠.running)
    {n c : Nat} (hrun : Run (Steps e main) v n c v') :
    n ≤ effort v+304*c ∧ (v'.close=.returned ∨ ∃ w, Steps e main v' 0 w) := by
  refine hrun.ends (P:=fun v => Closes v ∧ Inv main v ∧ v.close≠.running)
    (fun v => v.close=.returned) effort 304 ?_ ?_
    ⟨reaches_closes hc hslots h,reaches_inv hc h,hclose⟩
  · intro v c v' hv hs
    obtain ⟨hv,hi,hrunning⟩ := hv
    obtain ⟨a,ha,rfl,hs⟩ := hs
    exact ⟨⟨hv.step hi ha hs,hi.step hc ha hs,step_closing hrunning hs⟩,
      effort_step hv hi hrunning ha hs⟩
  · intro v hv
    exact (goesOn_of_closing hv.1 hv.2.1 hv.2.2 hw).imp_right GoesOn.steps

theorem run_of_isFree (as : List (Action T S A)) (hfree : as.all Action.isFree)
    (h : runActions (step e main) v as=some v') :
    Run (Steps e main) v as.length (costs (step e main) (fun v a => (news v a).toNat) v as) v' :=
  Run.of_runActions as (fun a ha => ok_of_isFree (List.all_eq_true.mp hfree a ha)) h

end

theorem close_service_returns_loginAndReject :
    ∃ u v w, runActions (step Server.asciiEnv true) (State.init 1 [()]) loginAndReject=some u ∧
      step Server.asciiEnv true u .close=some v ∧
      runActions (step Server.asciiEnv true) v lateTraffic=some w ∧
      Run (Steps Server.asciiEnv true) v 9 3 w ∧ 9 ≤ effort v+304*3 ∧
      (w.close=.returned ∨ ∃ v', Steps Server.asciiEnv true w 0 v') := by
  refine ⟨_,_,_,rfl,rfl,rfl,run_of_isFree lateTraffic (by decide) rfl,?_⟩
  have h1 : Reaches (step Server.asciiEnv true) Ok (State.init 1 [()]) _ :=
    reaches_of_isFree loginAndReject (by decide) rfl
  have h2 := h1.tail (a:=.close) trivial rfl
  refine close_service_returns Game.ascii_nonempty (show false≠true by decide) 1
    (List.nodup_singleton ()) h2 ?_ (run_of_isFree lateTraffic (by decide) rfl)
  intro hclose
  cases hclose

end IocpServer.Service
