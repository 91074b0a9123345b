import IocpServer.Server.Listening

set_option linter.unusedSectionVars false

namespace IocpServer.Service

open NetWork.Lifecycle
open Server (Env Running Resident)

variable {T S A : Type} [DecidableEq T] [DecidableEq S] [DecidableEq A] [Fintype T] [Fintype A]

/-- No accept is registered or in its callback, and none will be. -/
def Drained (v : State T S A) : Prop := v.acceptStopped ∧ listening v=0

/-- Nothing of the session is in motion, and nothing can be any more. -/
def Resting (l : Local Server.Packet) : Prop := Asleep l ∨ Done l

/-- No session was told to shut down, and those that are not alive are asleep. -/
def Early (v : State T S A) : Prop :=
  ∀ x, (v.server.cores x).closing=false ∧ (x∈v.liveSessions ∨ Asleep (v.server.view x))

/-- How far the sessions are when `close_service` stands at a point. -/
def Stage (main : T) (v : State T S A) : Prop :=
  match v.close with
  | .running => Early v
  | .waitListener => Early v ∧ v.acceptStopped
  | .snapshot => Early v ∧ Drained v
  | .beginShutdown todo sessions =>
    Drained v ∧ (∀ x∈todo, x∈sessions) ∧ ∀ x, (x∉sessions → Asleep (v.server.view x)) ∧
      (x∈sessions → x∈todo ∨ (v.server.cores x).closing)
  | .waitForIo sessions =>
    Drained v ∧ v.server.calls main=[] ∧
      ∀ x, Resting (v.server.view x) ∨ (x∈sessions ∧ (v.server.cores x).closing)
  | .waitForJobs y sessions =>
    Drained v ∧ v.server.calls main=[] ∧ (Asleep (v.server.view y) ∨ Silent (v.server.view y)) ∧
      ∀ x, Resting (v.server.view x) ∨ (x∈y::sessions ∧ (v.server.cores x).closing)
  | .returned => Drained v ∧ ∀ x, Resting (v.server.view x)

/-- A call that neither offers the session nor tells it to shut down. -/
def PlainCall (l : Local Server.Packet) (entry : Entry) : Prop :=
  entry≠.offer ∧ entry≠.beginShutdown ∧ Reached l entry

/-- What a step of the server that makes no other calls keeps of a session. -/
structure Keeps (l l' : Local Server.Packet) : Prop where
  offered : l'.core.offered=l.core.offered
  closing : l'.core.closing=l.core.closing
  asleep : Asleep l → Asleep l'
  silent : Silent l → Silent l'
  resting : Resting l → Resting l'

theorem keeps_of_step {l l' : Local Server.Packet} (hs : Sound l)
    (h : l'=l ∨ Step PlainCall l l') : Keeps l l' := by
  rcases h with rfl|h
  · exact ⟨rfl,rfl,id,id,id⟩
  · have hno : ¬PlainCall l .offer := fun hp => hp.1 rfl
    have hns : ¬PlainCall l .beginShutdown := fun hp => hp.2.1 rfl
    have hasleep : Asleep l → Asleep l' :=
      fun ha => ha.step (fun _ hp => ⟨hp.1,hp.2.1⟩) h
    refine ⟨h.calls.1 hno,h.calls.2 hns,hasleep,fun hsil => hsil.step hs.books h,?_⟩
    rintro (ha|hd)
    · exact Or.inl (hasleep ha)
    · exact Or.inr (hd.step hs.account hs.books h)

/-- Steps inside sessions keep the stage. -/
theorem Stage.server {main : T} {v : State T S A} (h : Stage main v) {s : Server.State T S}
    (hkeep : ∀ x, Keeps (v.server.view x) (s.view x))
    (hmain : v.server.calls main=[] → s.calls main=[]) : Stage main { v with server := s } := by
  have hclosing : ∀ x, (s.cores x).closing=(v.server.cores x).closing := fun x => (hkeep x).closing
  have hrest : ∀ {l : List S} {x : S},
      Resting (v.server.view x) ∨ (x∈l ∧ (v.server.cores x).closing) →
        Resting (s.view x) ∨ (x∈l ∧ (s.cores x).closing) := by
    intro l x hx
    rw [hclosing]
    exact hx.imp_left (hkeep x).resting
  have hearly : Early v → Early { v with server := s } := by
    intro he x
    exact ⟨(hclosing x).trans (he x).1,(he x).2.imp_right (hkeep x).asleep⟩
  unfold Stage at h ⊢
  cases hc : v.close with
  | running =>
    simp only [hc] at h ⊢
    exact hearly h
  | waitListener =>
    simp only [hc] at h ⊢
    exact ⟨hearly h.1,h.2⟩
  | snapshot =>
    simp only [hc] at h ⊢
    exact ⟨hearly h.1,h.2⟩
  | beginShutdown todo sessions =>
    simp only [hc] at h ⊢
    refine ⟨h.1,h.2.1,fun x => ?_⟩
    rw [hclosing]
    exact (h.2.2 x).imp_left fun ha hx => (hkeep x).asleep (ha hx)
  | waitForIo sessions =>
    simp only [hc] at h ⊢
    exact ⟨h.1,hmain h.2.1,fun x => hrest (h.2.2 x)⟩
  | waitForJobs y sessions =>
    simp only [hc] at h ⊢
    exact ⟨h.1,hmain h.2.1,h.2.2.1.imp (hkeep y).asleep (hkeep y).silent,fun x => hrest (h.2.2.2 x)⟩
  | returned =>
    simp only [hc] at h ⊢
    exact ⟨h.1,fun x => (hkeep x).resting (h.2 x)⟩

/-- Steps of the listener keep the stage as long as they lose no session. -/
theorem Stage.listener {main : T} {v v' : State T S A} (h : Stage main v)
    (hserver : v'.server=v.server) (hclose : v'.close=v.close)
    (hstop : v'.acceptStopped=v.acceptStopped)
    (hlisten : v.acceptStopped → listening v' ≤ listening v)
    (hlive : ∀ x, x∈v.liveSessions → x∈v'.liveSessions ∨ Asleep (v.server.view x)) :
    Stage main v' := by
  have hearly : Early v → Early v' := by
    intro he x
    rw [hserver]
    exact ⟨(he x).1,(he x).2.elim (hlive x) Or.inr⟩
  have hdrained : Drained v → Drained v' := by
    rintro ⟨hs,hz⟩
    exact ⟨hstop.trans hs,Nat.le_zero.mp ((hlisten hs).trans hz.le)⟩
  unfold Stage at h ⊢
  rw [hclose,hserver]
  cases hc : v.close with
  | running =>
    simp only [hc] at h ⊢
    exact hearly h
  | waitListener =>
    simp only [hc] at h ⊢
    exact ⟨hearly h.1,hstop.trans h.2⟩
  | snapshot =>
    simp only [hc] at h ⊢
    exact ⟨hearly h.1,hdrained h.2⟩
  | _ =>
    simp only [hc] at h ⊢
    exact ⟨hdrained h.1,h.2⟩

/-- What is known of a server with its listener in every state. -/
structure Inv (main : T) (v : State T S A) : Prop where
  running : Running v.server
  accepts : Accepts v
  calls : Calls main v
  stage : Stage main v

theorem inv_init (main : T) (maxSessionCount : Int) (slots : List A) :
    Inv main (State.init maxSessionCount slots : State T S A) := by
  refine ⟨Server.running_init maxSessionCount,accepts_init maxSessionCount slots,
    calls_init main maxSessionCount slots,?_⟩
  intro x
  refine ⟨rfl,Or.inr ?_⟩
  have hview : (State.init maxSessionCount slots : State T S A).server.view x=⟨Core.init,0⟩ :=
    Server.view_init maxSessionCount x
  rw [hview]
  exact Asleep.init

section

variable {e : Env} {main : T} {v v' : State T S A} {s : Server.State T S}

/-- A step inside sessions. -/
theorem Inv.server (hc : ∀ str, str≠[] → e.codec.multiByteToWideChar str≠[]) (h : Inv main v)
    {b : Server.Action T S}
    (hb : ∀ t x entry, b=.enter t x entry →
      PlainCall (v.server.view x) entry ∧ (t≠main ∨ entry=.clearSend))
    (hs : Server.step e v.server b=some s) :
    Inv main { v with server := s } ∧ ∀ x, Keeps (v.server.view x) (s.view x) := by
  have hkeep : ∀ x, Keeps (v.server.view x) (s.view x) := by
    intro x
    apply keeps_of_step (h.running.resident x).sound
    exact Server.step_view (fun t y entry heq => (hb t y entry heq).1) hs x
  refine ⟨⟨?_,?_,?_,?_⟩,hkeep⟩
  · exact h.running.step hc (fun t x entry heq => (hb t x entry heq).1.2.2) hs
  · exact h.accepts.server fun x => (hkeep x).offered
  · cases b with
    | run t ok recv => exact h.calls.run hs
    | enter t x entry =>
      obtain ⟨hplain,-⟩ := hb t x entry rfl
      exact h.calls.enter hs (fun heq => absurd heq hplain.1) fun heq => absurd heq hplain.2.1
  · apply h.stage.server hkeep
    intro hempty
    cases b with
    | run t ok recv =>
      obtain ⟨x,f,rest,c,fs,hcalls,-,rfl⟩ := Server.step_run hs
      have ht : main≠t := by
        rintro rfl
        rw [hempty] at hcalls
        cases hcalls
      simpa only [Server.State.move,Function.update_of_ne ht] using hempty
    | enter t x entry =>
      obtain ⟨-,ht⟩ := hb t x entry rfl
      obtain ⟨c,fs,-,hx,rfl⟩ := Server.step_enter hs
      rcases ht with ht|rfl
      · simpa only [Server.State.move,Function.update_of_ne (Ne.symm ht)] using hempty
      · cases hx
        by_cases ht : main=t
        · subst ht
          simpa [Server.State.move,Stacks.on] using hempty
        · simpa only [Server.State.move,Function.update_of_ne ht] using hempty

/-- A worker moves on in the listener and takes no session. -/
theorem Inv.setWorker (h : Inv main v) {t : T} {w : Worker A S} (ht : t≠main)
    (hio : w.io ≤ (v.workers t).io) (hw : ∀ x, w.holds x=0)
    (hc : (∀ slot, v.workers t≠.registerAccept slot true) ∨ v.server.calls t=[]) :
    Inv main (v.setWorker t w) := by
  refine ⟨h.running,h.accepts.setWorker hio hw,h.calls.setWorker ht hc,?_⟩
  refine h.stage.listener rfl rfl rfl ?_ fun x hx => Or.inl hx
  intro _
  have := listening_setWorker v t w
  omega

theorem Inv.registerAccept (h : Inv main v) {slot : A} {new : Option S} {result : AcceptResult}
    (hr : v.registerAccept slot new result=some v') :
    Inv main v' ∧ v'.workers=v.workers ∧ v'.server=v.server := by
  have hacc := h.accepts.registerAccept hr
  have hstage : ∀ {u : State T S A}, u.server=v.server → u.close=v.close →
      u.acceptStopped=v.acceptStopped → v.acceptStopped=false →
      (∀ x∈v.liveSessions, x∈u.liveSessions) → Stage main u := by
    intro u hserver hclose hsame hstop hlive
    refine h.stage.listener hserver hclose hsame ?_ fun x hx => Or.inl (hlive x hx)
    intro hs
    rw [hstop] at hs
    cases hs
  rcases registerAccept_spec hr with rfl|⟨hstop,rfl|⟨x,retry,-,rfl|rfl⟩⟩
  · exact ⟨h,rfl,rfl⟩
  · exact ⟨⟨h.running,hacc,⟨h.calls.admission,h.calls.shutdown,h.calls.main⟩,
      hstage rfl rfl rfl hstop fun _ hy => hy⟩,rfl,rfl⟩
  all_goals
    exact ⟨⟨h.running,hacc,⟨h.calls.admission,h.calls.shutdown,h.calls.main⟩,
      hstage rfl rfl rfl hstop fun _ hy => List.mem_cons_of_mem x hy⟩,rfl,rfl⟩

/-- The session of a completed accept is offered to `on_connected`. -/
theorem Inv.offer (hc : ∀ str, str≠[] → e.codec.multiByteToWideChar str≠[]) (h : Inv main v)
    {t : T} {slot : A} {x : S} (ht : v.workers t=.processAccept slot x)
    (hstop : v.acceptStopped=false) (hs : Server.step e v.server (.enter t x .offer)=some s) :
    Inv main ({ v with server := s }.setWorker t (.registerAccept slot true)) := by
  have hmain : t≠main := by
    rintro rfl
    rw [h.calls.main] at ht
    cases ht
  have hearly : Early v ∧ v.close=.running := by
    have hst := h.stage
    unfold Stage at hst
    split at hst
    · rename_i hclose
      exact ⟨hst,hclose⟩
    · exact absurd hst.2 (by simp [hstop])
    · exact absurd hst.2.1 (by simp [hstop])
    all_goals exact absurd hst.1.1 (by simp [hstop])
  obtain ⟨hearly,hclose⟩ := hearly
  obtain ⟨c,fs,hcan,hx,hmove⟩ := Server.step_enter hs
  have hcores : ∀ y, y≠x → s.view y=v.server.view y := by
    rw [hmove]
    exact (Server.view_push c fs).2
  obtain ⟨hoff,hlive,hacc⟩ := h.accepts.offer (s:=s) ht (by
    intro y
    by_cases hy : y=x
    · exact Or.inr hy
    · exact Or.inl (congrArg (fun l => l.core.offered) (hcores y hy)))
  refine ⟨?_,hacc,?_,?_⟩
  · apply h.running.step hc _ hs
    rintro u y entry heq
    cases heq
    exact ⟨hoff,(hearly x).1⟩
  · have hmoved : Calls main (v.setWorker t (.registerAccept slot true)) := by
      apply h.calls.setWorker hmain
      left
      intro slot' hne
      rw [ht] at hne
      cases hne
    refine hmoved.enter (s:=s) hs ?_ nofun
    intro _
    exact ⟨slot,Function.update_self ..⟩
  · unfold Stage
    simp only [State.setWorker,hclose]
    intro y
    by_cases hy : y=x
    · subst hy
      refine ⟨?_,Or.inl hlive⟩
      rw [hmove]
      cases hx
      simpa [Server.State.move] using (hearly y).1
    · have hview := hcores y hy
      simp only [hview]
      refine ⟨?_,(hearly y).2⟩
      exact (congrArg (fun l => l.core.closing) hview).trans (hearly y).1

/-- A worker leaves the locked section of `process_accept` without a session. -/
theorem Inv.processed (h : Inv main v) {t : T} {slot : A} {x : S}
    (ht : v.workers t=.processAccept slot x) : Inv main (v.setWorker t .finishIo) := by
  apply h.setWorker _ _ fun _ => rfl
  · exact Or.inl (by simp [ht])
  · rintro rfl
    exact absurd h.calls.main (by simp [ht])
  · rw [ht]
    exact Nat.le_refl 1

/-- The next step of a worker in the listener. -/
theorem Inv.listenerStep (hc : ∀ str, str≠[] → e.codec.multiByteToWideChar str≠[])
    (h : Inv main v) {t : T} {updated : Bool} {new : Option S} {result : AcceptResult}
    (hs : Move e main v (.listener t updated new result) v') : Inv main v' := by
  have hmain : v.workers t≠.idle → t≠main := by
    rintro hne rfl
    exact hne h.calls.main
  cases hs with
  | stopped ht => exact h.processed ht
  | notUpdated ht =>
    have hu := h.processed ht
    exact ⟨hu.running,⟨hu.accepts.io,hu.accepts.once,hu.accepts.fresh,hu.accepts.live,
      hu.accepts.created⟩,⟨hu.calls.admission,hu.calls.shutdown,hu.calls.main⟩,hu.stage⟩
  | offer ht hopen hstep => exact h.offer hc ht hopen hstep
  | @registerAccept _ slot completion _ _ _ _ ht hcalls hr =>
    obtain ⟨hu,hworkers,hserver⟩ := h.registerAccept hr
    apply hu.setWorker (hmain (by simp [ht]))
    · rw [hworkers,ht]
      cases completion <;> exact Nat.le_refl _
    · cases completion <;> exact fun _ => rfl
    · right
      rw [hserver]
      exact hcalls
  | finishIo ht =>
    have hmoved := listening_setWorker v t .idle
    have hbusy : (v.workers t).io=1 := by
      rw [ht]
      rfl
    have hidle : Inv main (v.setWorker t .idle) := by
      apply h.setWorker (hmain (by simp [ht])) (Nat.zero_le _) fun _ => rfl
      exact Or.inl (by simp [ht])
    have hzero : (Worker.idle : Worker A S).io=0 := rfl
    have hio := h.accepts.io
    refine ⟨hidle.running,⟨?_,hidle.accepts.once,hidle.accepts.fresh,hidle.accepts.live,
      hidle.accepts.created⟩,⟨hidle.calls.admission,hidle.calls.shutdown,hidle.calls.main⟩,
      hidle.stage⟩
    have hsame : listening ({ v with pendingIo := v.pendingIo-1 }.setWorker t .idle)=
        listening (v.setWorker t .idle) := rfl
    rw [hsame]
    simp only [State.setWorker] at hmoved ⊢
    omega

/-- A session that nothing refers to is asleep. -/
theorem Inv.asleep_of_unreferenced (h : Inv main v) {x : S} (hx : Unreferenced v x) :
    Asleep (v.server.view x) := by
  obtain ⟨hsound,hlinked,hlisted,-⟩ := h.running.resident x
  have hframes : (v.server.view x).frames=0 := by
    apply Multiset.eq_zero_of_forall_notMem
    intro f hf
    obtain ⟨t,ht⟩ := Stacks.mem_pending.mp hf
    exact hx.calls t f ht
  obtain ⟨-,hflight,hdis⟩ := Core.inFlight_eq_zero.mp hx.inFlight
  have hoff : (v.server.view x).core.pipe.isConnect=false := by
    cases hadm : (v.server.view x).core.admitted with
    | false => exact hsound.rejection.off hadm hframes hflight
    | true =>
      by_contra hne
      obtain ⟨hq,hr⟩ := hsound.account.of_connect (by simpa using hne)
      have hcl := (hlisted.listed hadm).resolve_left hx.sessions
      simp only [Server.Cleaning,hframes,hr,tok,Multiset.map_zero,Multiset.sum_zero] at hcl
      omega
  refine ⟨hoff,hx.inFlight,hx.jobs,?_,?_⟩
  · rw [hframes]
    exact fun f hf => absurd hf (Multiset.notMem_zero f)
  · intro hhad
    exact hlinked.ran_of_rest hhad hoff hdis hx.jobs hframes

/-- A session is destroyed. -/
theorem Inv.destroy (h : Inv main v) {x : S} (hx : Unreferenced v x) :
    Inv main { v with liveSessions := v.liveSessions.filter (·≠x) } := by
  have hfree : holds v x=0 := by
    unfold holds
    have h1 : ∑ slot, slotHolds x (v.accepting slot)=0 := by
      apply Finset.sum_eq_zero
      intro slot _
      cases hs : v.accepting slot with
      | none => rfl
      | some y =>
        apply if_neg
        rintro rfl
        exact hx.accepting slot hs
    have h2 : ∑ t, (v.workers t).holds x=0 := by
      apply Finset.sum_eq_zero
      intro t _
      cases hw : v.workers t with
      | processAccept slot y =>
        apply if_neg
        rintro rfl
        exact hx.workers t slot hw
      | _ => rfl
    omega
  have hkeep : ∀ y∈v.liveSessions, y≠x → y∈v.liveSessions.filter (·≠x) := by
    intro y hy hne
    simpa using ⟨hy,hne⟩
  refine ⟨h.running,⟨h.accepts.io,h.accepts.once,h.accepts.fresh,?_,?_⟩,
    ⟨h.calls.admission,h.calls.shutdown,h.calls.main⟩,?_⟩
  · intro y hpos
    have hpos' : 0<holds v y := hpos
    apply hkeep y (h.accepts.live y hpos')
    rintro rfl
    omega
  · exact fun y hy => h.accepts.created y (List.mem_of_mem_filter hy)
  · refine h.stage.listener rfl rfl rfl (fun _ => Nat.le_refl _) ?_
    intro y hy
    by_cases hyx : y=x
    · subst hyx
      exact Or.inr (h.asleep_of_unreferenced hx)
    · exact Or.inl (hkeep y hy hyx)

theorem Inv.no_admission (h : Inv main v) (hd : Drained v) (x : S) :
    tok Frame.admitting (v.server.view x).frames=0 := by
  apply tok_eq_zero
  intro f hf
  by_contra hne
  obtain ⟨t,ht⟩ := Stacks.mem_pending.mp hf
  obtain ⟨slot,hslot⟩ := h.calls.admission t x f ht hne
  have hle := le_sum Worker.io v.workers t
  have hzero := hd.2
  have hone : (v.workers t).io=1 := by
    rw [hslot]
    rfl
  unfold listening at hzero
  omega

/-- A session that was told to shut down has shut down its I/O when `main` has left
`begin_shutdown` and nothing is pending. -/
theorem Inv.silent (h : Inv main v) (hmain : v.server.calls main=[]) {x : S}
    (hcl : (v.server.cores x).closing) (hio : (v.server.cores x).pendingIo=0) :
    Silent (v.server.view x) := by
  have hbooks := (h.running.resident x).sound.books
  have hcall : tok Frame.calling (v.server.view x).frames=0 := by
    apply tok_eq_zero
    intro f hf
    by_contra hne
    obtain ⟨t,ht⟩ := Stacks.mem_pending.mp hf
    rw [Frame.calling_eq_one hne] at ht
    have heq := h.calls.shutdown t x ht
    rw [heq,hmain] at ht
    cases ht
  constructor
  · exact (hbooks.told hcl).resolve_right (by omega)
  · have := hbooks.io
    simp only [Server.State.view] at this ⊢
    omega

/-- A silent session whose cleanup is done and which has no jobs is done. -/
theorem Inv.done (h : Inv main v) {x : S} (hs : Silent (v.server.view x))
    (hdone : (v.server.game.sessions x).cleanupDone) (hjobs : (v.server.cores x).pendingJobs=0) :
    Done (v.server.view x) := by
  obtain ⟨hsound,hlinked,hlisted,-⟩ := h.running.resident x
  have hcount : (v.server.cores x).pendingJobs=_ := hsound.books.jobs
  have hclean := hlisted.done hdone
  have hle := Server.cleanupBodies_le (v.server.view x).frames
  have hle' := cleaning_add_handling_le (v.server.view x).frames
  unfold Server.Cleaning at hclean
  refine ⟨hs,?_,by omega,(hlinked.rest_of_ran (by omega)).1⟩
  exact List.length_eq_zero_iff.mp (by omega)

/-- `close_service` tells the next session to shut down. -/
theorem Inv.beginShutdown (hc : ∀ str, str≠[] → e.codec.multiByteToWideChar str≠[])
    (h : Inv main v) {x : S} {todo sessions : List S}
    (hclose : v.close=.beginShutdown (x::todo) sessions)
    (hs : Server.step e v.server (.enter main x .beginShutdown)=some s) :
    Inv main { v with server := s, close := .beginShutdown todo sessions } := by
  have hst := h.stage
  unfold Stage at hst
  rw [hclose] at hst
  obtain ⟨hdrained,hsub,hall⟩ := hst
  obtain ⟨c,fs,hcan,hx,hmove⟩ := Server.step_enter hs
  have hother : ∀ y, y≠x → s.view y=v.server.view y := by
    rw [hmove]
    exact (Server.view_push c fs).2
  have hself : (s.cores x).closing ∧ (s.cores x).offered=(v.server.cores x).offered := by
    rw [hmove]
    cases hx
    simp [Server.State.move]
  refine ⟨?_,?_,?_,?_⟩
  · apply h.running.step hc _ hs
    rintro u y entry heq
    cases heq
    exact h.no_admission hdrained x
  · have hacc := h.accepts.server (s:=s) (by
      intro y
      by_cases hy : y=x
      · rw [hy]
        exact hself.2
      · exact congrArg (fun l => l.core.offered) (hother y hy))
    exact ⟨hacc.io,hacc.once,hacc.fresh,hacc.live,hacc.created⟩
  · obtain ⟨ha,hb,hm⟩ := h.calls.enter hs (by simp) fun _ => rfl
    exact ⟨ha,hb,hm⟩
  · refine ⟨hdrained,fun y hy => hsub y (List.mem_cons_of_mem x hy),fun y => ?_⟩
    by_cases hy : y=x
    · subst hy
      refine ⟨fun hnot => absurd (hsub y List.mem_cons_self) hnot,fun _ => Or.inr hself.1⟩
    · have hview := hother y hy
      simp only [hview]
      refine ⟨(hall y).1,fun hin => ?_⟩
      rcases (hall y).2 hin with hin|hcl
      · exact Or.inl ((List.mem_cons.mp hin).resolve_left hy)
      · exact Or.inr ((congrArg (fun l => l.core.closing) hview).trans hcl)

/-- `close_service` moves on without touching the sessions. -/
theorem Inv.closing (h : Inv main v) {stopped closing : Bool} {close : Close S}
    (hst : Stage main { v with acceptStopped := stopped, closing := closing, close := close }) :
    Inv main { v with acceptStopped := stopped, closing := closing, close := close } :=
  ⟨h.running,⟨h.accepts.io,h.accepts.once,h.accepts.fresh,h.accepts.live,h.accepts.created⟩,
    ⟨h.calls.admission,h.calls.shutdown,h.calls.main⟩,hst⟩

/-- The session at the head of the list has been waited for. -/
theorem Inv.waitForJobs (hc : ∀ str, str≠[] → e.codec.multiByteToWideChar str≠[])
    (h : Inv main v) {x : S} {sessions : List S} (hclose : v.close=.waitForJobs x sessions)
    (hdone : (v.server.game.sessions x).cleanupDone) (hjobs : (v.server.cores x).pendingJobs=0)
    (hs : Server.step e v.server (.enter main x .clearSend)=some s) :
    Inv main { v with server := s, close := .waitForIo sessions } := by
  have hst := h.stage
  unfold Stage at hst
  rw [hclose] at hst
  have hrest : Resting (v.server.view x) :=
    hst.2.2.1.imp_right fun hsil => h.done hsil hdone hjobs
  obtain ⟨hinv,hkeep⟩ := h.server hc (s:=s) (b:=.enter main x .clearSend) (by
    rintro t y entry heq
    cases heq
    exact ⟨⟨by simp,by simp,trivial⟩,Or.inr rfl⟩) hs
  have hst' := hinv.stage
  unfold Stage at hst'
  rw [hclose] at hst'
  obtain ⟨hdrained,hmain,-,hall⟩ := hst'
  refine hinv.closing ⟨hdrained,hmain,fun y => ?_⟩
  by_cases hy : y=x
  · subst hy
    exact Or.inl ((hkeep y).resting hrest)
  · exact (hall y).imp_right fun hin => ⟨(List.mem_cons.mp hin.1).resolve_left hy,hin.2⟩

/-- The next step of `close_service`. -/
theorem Inv.closeStep (hc : ∀ str, str≠[] → e.codec.multiByteToWideChar str≠[])
    (h : Inv main v) (hs : closeStep e main v=some v') : Inv main v' := by
  have hst := h.stage
  unfold Stage at hst
  cases closeStep_move hs with
  | stopAccept hclose =>
    rw [hclose] at hst
    exact h.closing ⟨hst,rfl⟩
  | listenerDone hclose hio =>
    rw [hclose] at hst
    have hle := h.accepts.io
    have hzero : listening v=0 := by omega
    exact h.closing ⟨hst.1,hst.2,hzero⟩
  | snapshot hclose =>
    rw [hclose] at hst
    refine h.closing ⟨hst.2,fun x hx => hx,fun x => ⟨?_,Or.inl⟩⟩
    exact fun hnot => (hst.1 x).2.resolve_left hnot
  | beginShutdown hclose hstep => exact h.beginShutdown hc hclose hstep
  | @allTold sessions hclose hcalls =>
    rw [hclose] at hst
    refine h.closing ⟨hst.1,hcalls,fun x => ?_⟩
    by_cases hx : x∈sessions
    · exact Or.inr ⟨hx,((hst.2.2 x).2 hx).resolve_left (by simp)⟩
    · exact Or.inl (Or.inl ((hst.2.2 x).1 hx))
  | @ioDone x _ hclose hio =>
    rw [hclose] at hst
    refine h.closing ⟨hst.1,hst.2.1,?_,hst.2.2⟩
    rcases hst.2.2 x with (ha|hd)|⟨-,hcl⟩
    · exact Or.inl ha
    · exact Or.inr hd.toSilent
    · exact Or.inr (h.silent hst.2.1 hcl hio)
  | returned hclose =>
    rw [hclose] at hst
    refine h.closing ⟨hst.1,fun x => ?_⟩
    exact (hst.2.2 x).resolve_right (by simp)
  | jobsDone hclose hdone hjobs hstep => exact h.waitForJobs hc hclose hdone hjobs hstep

/-- Every step of the server. -/
theorem Inv.step (hc : ∀ str, str≠[] → e.codec.multiByteToWideChar str≠[]) (h : Inv main v)
    {a : Action T S A} (ha : Ok v a) (hs : step e main v a=some v') : Inv main v' := by
  cases step_move hs with
  | run hstep => exact (h.server hc (fun t x entry heq => by cases heq) hstep).1
  | @enter t x entry _ hw ht hentry hstep =>
    apply (h.server hc _ hstep).1
    rintro u y entry' heq
    cases heq
    refine ⟨?_,Or.inl ht⟩
    cases entry with
    | offer | beginShutdown | clearSend => exact absurd hentry (by simp [ofWorkers])
    | send | disconnect => exact ⟨by simp,by simp,ha⟩
    | _ => exact ⟨by simp,by simp,trivial⟩
  | startAccept hstart hr =>
    obtain ⟨hu,-,-⟩ := h.registerAccept hr
    exact ⟨hu.running,⟨hu.accepts.io,hu.accepts.once,hu.accepts.fresh,hu.accepts.live,
      hu.accepts.created⟩,⟨hu.calls.admission,hu.calls.shutdown,hu.calls.main⟩,hu.stage⟩
  | @acceptCompleted t slot x hidle hslot ht =>
    obtain ⟨hacc,hlisten⟩ := h.accepts.acceptCompleted hidle hslot
    refine ⟨h.running,hacc,?_,?_⟩
    · have hmoved := h.calls.setWorker (w:=.processAccept slot x) ht (Or.inl (by simp [hidle]))
      exact ⟨hmoved.admission,hmoved.shutdown,hmoved.main⟩
    · exact h.stage.listener rfl rfl rfl (fun _ => hlisten.le) fun _ hx => Or.inl hx
  | @retryAccept t slot hidle ht hretry =>
    have hu := h.setWorker (w:=.registerAccept slot false) ht (Nat.zero_le _)
      (fun _ => rfl) (Or.inl (by simp [hidle]))
    exact ⟨hu.running,⟨hu.accepts.io,hu.accepts.once,hu.accepts.fresh,hu.accepts.live,
      hu.accepts.created⟩,⟨hu.calls.admission,hu.calls.shutdown,hu.calls.main⟩,hu.stage⟩
  | close hstep => exact h.closeStep hc hstep
  | destroy x => exact h.destroy ha
  | _ => exact h.listenerStep hc (step_move hs)

theorem reaches_inv (hc : ∀ str, str≠[] → e.codec.multiByteToWideChar str≠[])
    {maxSessionCount : Int} {slots : List A}
    (h : Reaches (step e main) Ok (State.init maxSessionCount slots) v) : Inv main v :=
  h.invariant (inv_init main maxSessionCount slots) fun _ _ _ hi ha hs => hi.step hc ha hs

theorem Resting.rest {l : Local Server.Packet} (h : Resting l) :
    l.core.inFlight=0 ∧ l.core.jobs=[] ∧ tok Frame.working l.frames=0 ∧
      (l.core.hadConnected → l.core.ran=1) := by
  rcases h with ha|hd
  · refine ⟨ha.inFlight,ha.jobs,?_,ha.ran⟩
    apply tok_eq_zero
    intro f hf
    have := ha.frames f hf
    cases f with
    | job | body | endJob => exact this.elim
    | _ => rfl
  · exact ⟨hd.inFlight,hd.jobs,hd.working,fun _ => hd.ran⟩

/-- A resting session is past its cleanup, or it never was connected. -/
theorem Inv.leaving (h : Inv main v) (hd : Drained v) {x : S} (hr : Resting (v.server.view x)) :
    Game.Leaving v.server.game x ∧ (v.server.game.sessions x).todo=[] := by
  obtain ⟨hsound,hlinked,hlisted,hcounted⟩ := h.running.resident x
  obtain ⟨-,-,hwork,hran⟩ := hr.rest
  have hidle : (v.server.game.sessions x).todo=[] := by
    apply hlinked.idle
    have := Server.bodies_le (v.server.view x).frames
    omega
  refine ⟨?_,hidle⟩
  have hgreet : tok Frame.greeting (v.server.view x).frames=0 := by
    have hle := tok_mono greeting_le_admitting (v.server.view x).frames
    have := h.no_admission hd x
    omega
  cases hhad : (v.server.view x).core.hadConnected with
  | true =>
    have hone := hran hhad
    exact (hlinked.rest_of_ran (by omega)).2.2.2
  | false =>
    have hwas : (v.server.game.sessions x).wasConnected=false := by
      by_contra hne
      rcases hcounted.was (by simpa using hne) with hcon|hpos
      · rw [hhad] at hcon
        cases hcon
      · omega
    constructor
    · simp [hidle]
    · left
      by_contra hne
      obtain ⟨k,-,-,hrest⟩ := h.running.game.know x
      rw [hidle] at hrest
      have := (hrest.login (by simpa using hne)).1
      rw [hwas] at this
      cases this
    · left
      intro hin
      rcases hsound.greeting.connected (hlisted.admitted hin) with hcon|hpos
      · rw [hhad] at hcon
        cases hcon
      · omega

/-- Every session that was counted as connected has been counted as disconnected. -/
theorem Inv.departed (h : Inv main v) (hd : Drained v) {x : S} (hr : Resting (v.server.view x)) :
    x∈v.server.game.stats.arrived ↔ x∈v.server.game.stats.departed := by
  obtain ⟨-,hidle⟩ := h.leaving hd hr
  obtain ⟨-,-,harr,hdep⟩ := (h.running.resident x).counted
  have hcount : tok Server.counting (v.server.view x).frames=0 := by
    have hle := tok_mono Server.counting_le_admitting (v.server.view x).frames
    have := h.no_admission hd x
    omega
  have hran := hr.rest.2.2.2
  rw [hcount] at harr
  simp only [Server.departures,hidle,List.countP_nil,Nat.add_zero] at hdep
  simp only [Server.arrivals,Nat.add_zero] at harr
  cases hhad : (v.server.view x).core.hadConnected with
  | false => simp_all
  | true =>
    have hclean : Server.Cleaning (v.server.view x) := by
      have := hran hhad
      unfold Server.Cleaning
      omega
    simp_all

end

/-- Nothing is left: no session has an operation in flight or a job, none is registered or in a
room, no account is logged in, and the counters agree. -/
structure Empty (s : Server.State T S) : Prop where
  idle : ∀ x, (s.cores x).receiving=false ∧ (s.cores x).pipe.flight=none ∧
    (s.cores x).pipe.disconnecting=false ∧ (s.cores x).jobs=[] ∧ (s.cores x).running=false
  sessions : s.game.manager.sessions=∅
  accountSessions : ∀ a, s.game.manager.accountSessions.lookup a=none
  nameSessions : ∀ n, s.game.manager.nameSessions.lookup n=none
  rooms : ∀ r a x, ¬s.game.rooms.Lists r a x
  loginList : s.game.login.loginList=∅
  sessionCount : s.game.manager.sessionCount=0
  stats : s.game.stats.connect=s.game.stats.disconnect

theorem Inv.empty {main : T} {v : State T S A} (h : Inv main v) (hd : Drained v)
    (hr : ∀ x, Resting (v.server.view x)) : Empty v.server := by
  have hgone := fun x => h.running.game.gone (h.leaving hd (hr x)).1 (h.leaving hd (hr x)).2
  have hsessions : v.server.game.manager.sessions=∅ :=
    Finset.eq_empty_of_forall_notMem fun x => (hgone x).1
  constructor
  · intro x
    obtain ⟨hfly,hjobs,hwork,-⟩ := (hr x).rest
    obtain ⟨hrecv,hflight,hdis⟩ := Core.inFlight_eq_zero.mp hfly
    have hrun : _=(v.server.cores x).running.toNat := (h.running.resident x).sound.account.running
    rw [hwork] at hrun
    exact ⟨hrecv,hflight,hdis,hjobs,by simpa using hrun.symm⟩
  · exact hsessions
  · intro a
    exact Option.eq_none_iff_forall_ne_some.mpr fun x => (hgone x).2.1 a
  · intro n
    exact Option.eq_none_iff_forall_ne_some.mpr fun x => (hgone x).2.2.1 n
  · exact fun r a x => (hgone x).2.2.2.1 r a
  · apply Finset.eq_empty_of_forall_notMem
    intro a ha
    obtain ⟨x,hx⟩ := (h.running.game.owners.owner a).mp ha
    rw [(hgone x).2.2.2.2.2.2.2.2] at hx
    cases hx
  · rw [h.running.counters.sessionCount,hsessions]
    rfl
  · have heq : v.server.game.stats.arrived=v.server.game.stats.departed :=
      Finset.ext fun x => h.departed hd (hr x)
    rw [h.running.counters.connect,h.running.counters.disconnect,heq]

theorem registerAccept_close {v v' : State T S A} {slot : A} {new : Option S}
    {result : AcceptResult} (hr : v.registerAccept slot new result=some v') : v'.close=v.close := by
  rcases registerAccept_spec hr with rfl|⟨-,rfl|⟨x,retry,-,rfl|rfl⟩⟩ <;> rfl

/-- Only `close_service` itself moves on. -/
theorem step_close {e : Env} {main : T} {v v' : State T S A} {a : Action T S A}
    (hs : step e main v a=some v') (ha : a≠.close) : v'.close=v.close := by
  cases step_move hs with
  | startAccept hstart hr => exact (registerAccept_close hr).trans rfl
  | registerAccept ht hcalls hr => exact (registerAccept_close hr).trans rfl
  | close => exact absurd rfl ha
  | _ => rfl

theorem step_returned {e : Env} {main : T} {v v' : State T S A} {a : Action T S A}
    (hr : v.close=.returned) (hs : step e main v a=some v') : v'.close=.returned := by
  rw [step_close hs,hr]
  rintro rfl
  simp [step,closeStep,hr] at hs

/-- After `close_service` has returned nothing is left and nothing comes back, whatever was going on
when it was called and whatever the workers did meanwhile. -/
theorem shutdown_leaves_nothing {e : Env}
    (hc : ∀ str, str≠[] → e.codec.multiByteToWideChar str≠[]) {main : T} (maxSessionCount : Int)
    (slots : List A) {v v' : State T S A}
    (h : Reaches (step e main) Ok (State.init maxSessionCount slots) v) (hr : v.close=.returned)
    (h' : Reaches (step e main) Ok v v') : Empty v'.server := by
  have hret : v'.close=.returned :=
    h'.invariant hr fun _ _ _ hx _ hs => step_returned hx hs
  have hinv := reaches_inv hc (h.trans h')
  have hst := hinv.stage
  unfold Stage at hst
  rw [hret] at hst
  exact hinv.empty hst.1 hst.2

/-- Steps of thread `t` inside sessions whose system calls succeed. -/
def steps (n : Nat) (t : Bool) : List (Action Bool (Fin 3) Unit) :=
  List.replicate n (.server (.run t true .wait))

def listen (new : Option (Fin 3)) : Action Bool (Fin 3) Unit := .listener false true new .pending

def call (x : Fin 3) (entry : Entry) : Action Bool (Fin 3) Unit := .server (.enter false x entry)

/-- Session 0 logs in and fills the server, session 1 is rejected and its notice is in flight, and
session 2 waits for a client. -/
def loginAndReject : List (Action Bool (Fin 3) Unit) :=
  [.startAccept (some 0) .pending,.acceptCompleted false (),listen none]++steps 5 false++
  [listen (some 1),listen none,call 0 (.recvCompleted 8),.server (.run false true .wait),
   .server (.run false true (.packet (.request (Game.request true))))]++steps 5 false++
  [call 0 .startJob]++steps 16 false++
  [.acceptCompleted false (),listen none]++steps 11 false++[listen (some 2),listen none]

/-- A worker receives a packet of session 0 and queues it, and the client takes part of its reply. -/
def lateTraffic : List (Action Bool (Fin 3) Unit) :=
  [call 0 (.recvCompleted 8),.server (.run false true .wait),
   .server (.run false true (.packet (.request (Game.request true))))]++steps 5 false++
  [call 0 (.sendCompleted 1)]

/-- `close_service` stops the listener and tells the three sessions to shut down. -/
def closeListener : List (Action Bool (Fin 3) Unit) :=
  [Action.close,Action.acceptCompleted false (),listen none,listen none,Action.close,Action.close,
    Action.close]++
  steps 4 true++[Action.close]++steps 4 true++[Action.close]++steps 4 true++
  [Action.close,Action.close]

/-- The workers complete what was in flight and run the cleanups, and `close_service` returns. -/
def drainSessions : List (Action Bool (Fin 3) Unit) :=
  [call 2 .startJob]++steps 10 false++[call 1 (.sendCompleted 0)]++steps 2 false++
  [call 1 .startJob]++steps 12 false++[call 0 (.sendCompleted 0)]++steps 2 false++
  [call 0 (.recvCompleted 0)]++steps 2 false++[call 0 .startJob]++steps 13 false++
  List.replicate 6 .close

/-- An action without a condition on the state. -/
def Action.isFree : Action T S A → Bool
  | .server (.enter _ _ (.send _)) | .server (.enter _ _ .disconnect) | .destroy _ => false
  | _ => true

theorem ok_of_isFree {a : Action T S A} (h : a.isFree) (v : State T S A) : Ok v a := by
  unfold Action.isFree at h
  split at h
  · cases h
  · cases h
  · cases h
  · rename_i h1 h2 h3
    cases a with
    | server b =>
      cases b with
      | run => trivial
      | enter t x entry =>
        cases entry with
        | send b => exact absurd rfl (h1 t x b)
        | disconnect => exact absurd rfl (h2 t x)
        | _ => trivial
    | destroy x => exact absurd rfl (h3 x)
    | _ => trivial

theorem reaches_of_isFree {e : Env} {main : T} {v v' : State T S A} (as : List (Action T S A))
    (hfree : as.all Action.isFree) (h : runActions (step e main) v as=some v') :
    Reaches (step e main) Ok v v' :=
  Reaches.of_admitted as (fun a ha => ok_of_isFree (List.all_eq_true.mp hfree a ha)) h

theorem shutdown_leaves_nothing_loginAndReject :
    ∃ u v w, runActions (step Server.asciiEnv true) (State.init 1 [()]) loginAndReject=some u ∧
      runActions (step Server.asciiEnv true) u closeListener=some v ∧
      runActions (step Server.asciiEnv true) v drainSessions=some w ∧
      w.close=.returned ∧ w.server.game.stats.connect=2 ∧ Empty w.server := by
  refine ⟨_,_,_,rfl,rfl,rfl,rfl,rfl,?_⟩
  have h1 : Reaches (step Server.asciiEnv true) Ok (State.init 1 [()]) _ :=
    reaches_of_isFree loginAndReject (by decide) rfl
  have h2 := h1.trans (reaches_of_isFree closeListener (by decide) rfl)
  have h3 := h2.trans (reaches_of_isFree drainSessions (by decide) rfl)
  exact shutdown_leaves_nothing Game.ascii_nonempty 1 [()] h3 rfl Reaches.refl

end IocpServer.Service
