import IocpServer.Server.Service

set_option linter.unusedSectionVars false

namespace IocpServer.Service

open NetWork.Lifecycle
open Server (Env)

variable {T S A : Type} [DecidableEq T] [DecidableEq S] [DecidableEq A]

/-- The worker is in the callback of an accept, which still counts as pending. -/
def Worker.io : Worker A S → Nat
  | .processAccept _ _ | .registerAccept _ true | .finishIo => 1
  | .idle | .registerAccept _ false => 0

def Worker.holds (x : S) : Worker A S → Nat
  | .processAccept _ y => if y=x then 1 else 0
  | _ => 0

/-- Whether the event of an accept slot holds session `x`. -/
def slotHolds (x : S) : Option S → Nat
  | some y => if y=x then 1 else 0
  | none => 0

variable [Fintype T] [Fintype A]

/-- Accepts that are registered or in their callback. -/
def listening (v : State T S A) : Nat :=
  ∑ slot, (v.accepting slot).isSome.toNat+∑ t, (v.workers t).io

/-- How often session `x` waits in the listener to be offered. -/
def holds (v : State T S A) (x : S) : Nat :=
  ∑ slot, slotHolds x (v.accepting slot)+∑ t, (v.workers t).holds x

/-- The listener's books: every session is offered once, and it is alive until then. -/
structure Accepts (v : State T S A) : Prop where
  io : listening v ≤ v.pendingIo
  once : ∀ x, holds v x+(v.server.cores x).offered.toNat ≤ 1
  fresh : ∀ x, x∉v.created → holds v x+(v.server.cores x).offered.toNat=0
  live : ∀ x, 0<holds v x → x∈v.liveSessions
  created : ∀ x∈v.liveSessions, x∈v.created

theorem accepts_init (maxSessionCount : Int) (slots : List A) :
    Accepts (State.init maxSessionCount slots : State T S A) := by
  constructor <;>
    simp [State.init,listening,holds,Worker.io,Worker.holds,slotHolds,Server.State.init,Core.init]

/-- A worker moves on. -/
theorem listening_setWorker (v : State T S A) (t : T) (w : Worker A S) :
    listening (v.setWorker t w)+(v.workers t).io=listening v+w.io := by
  have h := sum_update Worker.io v.workers t w
  simp only [listening,State.setWorker]
  omega

theorem holds_setWorker (v : State T S A) (t : T) (w : Worker A S) (x : S) :
    holds (v.setWorker t w) x+(v.workers t).holds x=holds v x+w.holds x := by
  have h := sum_update (Worker.holds x) v.workers t w
  simp only [holds,State.setWorker]
  omega

/-- A worker moves on without taking or giving away a session. -/
theorem Accepts.setWorker {v : State T S A} (h : Accepts v) {t : T} {w : Worker A S}
    (hio : w.io ≤ (v.workers t).io) (hw : ∀ x, w.holds x=0) : Accepts (v.setWorker t w) := by
  have hmoved := listening_setWorker v t w
  have hx : ∀ x, holds (v.setWorker t w) x ≤ holds v x := by
    intro x
    have := holds_setWorker v t w x
    rw [hw x] at this
    omega
  constructor
  · have := h.io
    simp only [State.setWorker] at hmoved ⊢
    omega
  · intro x
    exact (Nat.add_le_add_right (hx x) _).trans (h.once x)
  · intro x hnot
    exact Nat.le_zero.mp ((Nat.add_le_add_right (hx x) _).trans (h.fresh x hnot).le)
  · intro x hpos
    exact h.live x (lt_of_lt_of_le hpos (hx x))
  · exact h.created

/-- What `register_accept` does: nothing, a retry, or a new session with or without a registered
`AcceptEx`. -/
theorem registerAccept_spec {v v' : State T S A} {slot : A} {new : Option S} {result : AcceptResult}
    (hr : v.registerAccept slot new result=some v') :
    v'=v ∨ v.acceptStopped=false ∧ (v'=v.reserveAcceptRetry slot ∨ ∃ x retry, x∉v.created ∧
      (v'={ v with created := insert x v.created, liveSessions := x::v.liveSessions, retry := retry } ∨
       v'={ v with created := insert x v.created, liveSessions := x::v.liveSessions, retry := retry,
                   accepting := Function.update v.accepting slot (some x),
                   pendingIo := v.pendingIo+1 })) := by
  unfold State.registerAccept at hr
  split at hr
  · cases hr
    exact Or.inl rfl
  · rename_i hstop
    refine Or.inr ⟨by simpa using hstop,?_⟩
    split at hr
    · cases hr
      exact Or.inl rfl
    · rename_i x _
      split at hr
      · cases hr
      · rename_i hnew
        simp only at hr
        split at hr <;> cases hr
        · exact Or.inr ⟨x,_,hnew,Or.inr rfl⟩
        · exact Or.inr ⟨x,_,hnew,Or.inl rfl⟩
        · exact Or.inr ⟨x,_,hnew,Or.inl rfl⟩

/-- A new session waits in an accept slot. -/
theorem Accepts.pending {v : State T S A} (h : Accepts v) {x : S} (hx : x∉v.created) (slot : A)
    (retry : A → Bool) :
    Accepts { v with created := insert x v.created, liveSessions := x::v.liveSessions,
                     retry := retry, accepting := Function.update v.accepting slot (some x),
                     pendingIo := v.pendingIo+1 } := by
  have hio := sum_update (fun o : Option S => o.isSome.toNat) v.accepting slot (some x)
  have hhold := fun y => sum_update (slotHolds y) v.accepting slot (some x)
  have hself : slotHolds x (some x)=1 := if_pos rfl
  have hother : ∀ y, y≠x → slotHolds y (some x)=0 := fun y hy => if_neg (Ne.symm hy)
  obtain ⟨hi,ho,hf,hl,hc⟩ := h
  unfold listening at hi
  unfold holds at ho hf hl
  constructor
  · simp only [listening,Option.isSome_some,Bool.toNat_true] at hio ⊢
    omega
  · intro y
    have h1 := hhold y
    have h2 := ho y
    simp only [holds]
    by_cases hy : y=x
    · subst hy
      have h3 := hf y hx
      omega
    · have h3 := hother y hy
      omega
  · intro y hy
    simp only [Finset.mem_insert,not_or] at hy
    have h1 := hhold y
    have h2 := hf y hy.2
    have h3 := hother y hy.1
    simp only [holds]
    omega
  · intro y hpos
    by_cases hy : y=x
    · exact List.mem_cons.mpr (Or.inl hy)
    · have h1 := hhold y
      have h3 := hother y hy
      simp only [holds] at hpos
      exact List.mem_cons_of_mem x (hl y (by omega))
  · intro y hy
    rcases List.mem_cons.mp hy with rfl|hy
    · exact Finset.mem_insert_self y v.created
    · exact Finset.mem_insert_of_mem (hc y hy)

theorem Accepts.registerAccept {v v' : State T S A} (h : Accepts v) {slot : A} {new : Option S}
    {result : AcceptResult} (hr : v.registerAccept slot new result=some v') : Accepts v' := by
  rcases registerAccept_spec hr with rfl|⟨-,rfl|⟨x,retry,hx,rfl|rfl⟩⟩
  · exact h
  · exact ⟨h.io,h.once,h.fresh,h.live,h.created⟩
  · refine ⟨h.io,h.once,?_,?_,?_⟩
    · intro y hy
      exact h.fresh y fun hin => hy (Finset.mem_insert_of_mem hin)
    · exact fun y hpos => List.mem_cons_of_mem x (h.live y hpos)
    · intro y hy
      rcases List.mem_cons.mp hy with rfl|hy
      · exact Finset.mem_insert_self y v.created
      · exact Finset.mem_insert_of_mem (h.created y hy)
  · exact h.pending hx slot retry

/-- A worker takes the completion of an accept, and with it the session. -/
theorem Accepts.acceptCompleted {v : State T S A} (h : Accepts v) {t : T} {slot : A} {x : S}
    (ht : v.workers t=.idle) (hs : v.accepting slot=some x) :
    Accepts ({ v with accepting := Function.update v.accepting slot none }.setWorker t
      (.processAccept slot x)) ∧
    listening ({ v with accepting := Function.update v.accepting slot none }.setWorker t
      (.processAccept slot x))=listening v := by
  have hio := sum_update (fun o : Option S => o.isSome.toNat) v.accepting slot none
  have hhold := fun y => sum_update (slotHolds y) v.accepting slot none
  have hwio := sum_update Worker.io v.workers t (.processAccept slot x)
  have hwhold := fun y => sum_update (Worker.holds y) v.workers t (.processAccept slot x)
  have hidle : (Worker.idle : Worker A S).io=0 := rfl
  have hbusy : (Worker.processAccept slot x : Worker A S).io=1 := rfl
  simp only [ht] at hwio hwhold
  simp only [hs,Option.isSome_some,Option.isSome_none,Bool.toNat_true,Bool.toNat_false] at hio hhold
  have hsame : ∀ y, ∑ u, slotHolds y (Function.update v.accepting slot none u)+
      ∑ u, Worker.holds y (Function.update v.workers t (.processAccept slot x) u)=holds v y := by
    intro y
    have h1 := hhold y
    have h2 := hwhold y
    have h3 : slotHolds y (some x)=(Worker.processAccept slot x : Worker A S).holds y := rfl
    have h4 : slotHolds y none=(Worker.idle : Worker A S).holds y := rfl
    unfold holds
    omega
  have heq : listening ({ v with accepting := Function.update v.accepting slot none }.setWorker t
      (.processAccept slot x))=listening v := by
    simp only [listening,State.setWorker]
    omega
  refine ⟨⟨?_,?_,?_,?_,?_⟩,heq⟩
  · rw [heq]
    exact h.io
  all_goals simp only [holds,State.setWorker,hsame]
  · exact h.once
  · exact h.fresh
  · exact h.live
  · exact h.created

/-- Steps inside sessions do not concern the listener. -/
theorem Accepts.server {v : State T S A} (h : Accepts v) {s : Server.State T S}
    (hoff : ∀ x, (s.cores x).offered=(v.server.cores x).offered) :
    Accepts { v with server := s } := by
  refine ⟨h.io,?_,?_,h.live,h.created⟩
  · intro x
    simp only [hoff]
    exact h.once x
  · intro x hx
    simp only [hoff]
    exact h.fresh x hx

/-- The session of a completed accept is offered. -/
theorem Accepts.offer {v : State T S A} (h : Accepts v) {t : T} {slot : A} {x : S}
    {s : Server.State T S} (ht : v.workers t=.processAccept slot x)
    (hs : ∀ y, (s.cores y).offered=(v.server.cores y).offered ∨ y=x) :
    (v.server.cores x).offered=false ∧ x∈v.liveSessions ∧
      Accepts ({ v with server := s }.setWorker t (.registerAccept slot true)) := by
  have hmoved := fun y => holds_setWorker { v with server := s } t (.registerAccept slot true) y
  have hzero : ∀ y, (Worker.registerAccept slot true : Worker A S).holds y=0 := fun _ => rfl
  have hself : (v.workers t).holds x=1 := by
    rw [ht]
    exact if_pos rfl
  have hpos : 0<holds v x := by
    have := le_sum (Worker.holds x) v.workers t
    unfold holds
    omega
  have hone := h.once x
  have hle : ∀ y, holds ({ v with server := s }.setWorker t (.registerAccept slot true)) y ≤
      holds v y := by
    intro y
    have h1 := hmoved y
    have h2 := hzero y
    have h3 : holds { v with server := s } y=holds v y := rfl
    omega
  have hx : holds ({ v with server := s }.setWorker t (.registerAccept slot true)) x=0 := by
    have h1 := hmoved x
    have h2 := hzero x
    have h3 : holds { v with server := s } x=holds v x := rfl
    simp only [hself] at h1
    omega
  refine ⟨?_,h.live x hpos,⟨?_,?_,?_,?_,h.created⟩⟩
  · by_contra hne
    simp only [Bool.not_eq_false] at hne
    rw [hne,Bool.toNat_true] at hone
    omega
  · have h1 := listening_setWorker { v with server := s } t (.registerAccept slot true)
    have h2 : listening { v with server := s }=listening v := rfl
    have h3 : (Worker.registerAccept slot true : Worker A S).io=1 := rfl
    have h4 : (v.workers t).io=1 := by rw [ht]; rfl
    have h5 := h.io
    simp only [h4] at h1
    simp only [State.setWorker] at h1 ⊢
    omega
  · intro y
    have h1 := Bool.toNat_le (s.cores y).offered
    rcases hs y with hsame|rfl
    · have h2 := hle y
      have h3 := h.once y
      simp only [State.setWorker,hsame] at h2 ⊢
      omega
    · rw [hx]
      simp only [State.setWorker]
      omega
  · intro y hy
    rcases hs y with hsame|rfl
    · have h2 := hle y
      have h3 := h.fresh y hy
      simp only [State.setWorker,hsame] at h2 ⊢
      omega
    · exact absurd (h.created y (h.live y hpos)) hy
  · intro y hpos'
    exact h.live y (lt_of_lt_of_le hpos' (hle y))

/-- Admissions run in accept callbacks, and only thread `main` tells sessions to shut down. -/
structure Calls (main : T) (v : State T S A) : Prop where
  admission : ∀ t x f, (x,f)∈v.server.calls t → f.admitting≠0 →
    ∃ slot, v.workers t=.registerAccept slot true
  shutdown : ∀ t x, (x,.pipe .beginShutdown)∈v.server.calls t → t=main
  main : v.workers main=.idle

theorem calls_init (main : T) (maxSessionCount : Int) (slots : List A) :
    Calls main (State.init maxSessionCount slots : State T S A) := by
  constructor <;> simp [State.init,Server.State.init]

theorem Calls.run {e : Env} {main : T} {v : State T S A} (h : Calls main v) {s : Server.State T S}
    {t : T} {ok : Bool} {recv : Recv Server.Packet}
    (hs : Server.step e v.server (.run t ok recv)=some s) : Calls main { v with server := s } := by
  obtain ⟨x,f,rest,c,fs,hcalls,hx,rfl⟩ := Server.step_run hs
  have hrest : ∀ p∈rest, p∈v.server.calls t := by
    intro p hp
    rw [hcalls]
    exact List.mem_cons_of_mem _ hp
  refine ⟨?_,?_,h.main⟩
  · intro u y g hin hg
    rcases Server.mem_move hrest hin with hold|⟨rfl,hnew⟩
    · exact h.admission u y g hold hg
    · by_cases hf : f.admitting=0
      · have hsum := (exec_settled hx hf).2.2.2.2
        exact absurd (List.sum_eq_zero_iff.mp hsum _ (List.mem_map_of_mem hnew)) hg
      · exact h.admission u x f (by rw [hcalls]; exact List.mem_cons_self) hf
  · intro u y hin
    rcases Server.mem_move hrest hin with hold|⟨-,hnew⟩
    · exact h.shutdown u y hold
    · have hzero := List.sum_eq_zero_iff.mp (exec_calling hx) _ (List.mem_map_of_mem hnew)
      cases hzero

/-- A thread enters a session at frames that its own place in the listener allows. -/
theorem Calls.enter {e : Env} {main : T} {v : State T S A} (h : Calls main v)
    {s : Server.State T S} {t : T} {x : S} {entry : Entry}
    (hs : Server.step e v.server (.enter t x entry)=some s)
    (hoff : entry=.offer → ∃ slot, v.workers t=.registerAccept slot true)
    (hbegin : entry=.beginShutdown → t=main) : Calls main { v with server := s } := by
  obtain ⟨c,fs,-,hx,rfl⟩ := Server.step_enter hs
  have hfs : ∀ g∈fs, (g.admitting≠0 → entry=.offer) ∧
      (g=.pipe .beginShutdown → entry=.beginShutdown) := by
    cases enter_enters hx <;> simp [Frame.admitting,disconnect]
  refine ⟨?_,?_,h.main⟩
  · intro u y g hin hg
    rcases Server.mem_move (fun _ hp => hp) hin with hold|⟨rfl,hnew⟩
    · exact h.admission u y g hold hg
    · exact hoff ((hfs g hnew).1 hg)
  · intro u y hin
    rcases Server.mem_move (fun _ hp => hp) hin with hold|⟨rfl,hnew⟩
    · exact h.shutdown u y hold
    · exact hbegin ((hfs _ hnew).2 rfl)

/-- A worker moves on in the listener. -/
theorem Calls.setWorker {main : T} {v : State T S A} (h : Calls main v) {t : T} {w : Worker A S}
    (ht : t≠main) (hw : (∀ slot, v.workers t≠.registerAccept slot true) ∨ v.server.calls t=[]) :
    Calls main (v.setWorker t w) := by
  refine ⟨?_,h.shutdown,?_⟩
  · intro u y g hin hg
    obtain ⟨slot,hslot⟩ := h.admission u y g hin hg
    by_cases hu : u=t
    · subst hu
      rcases hw with hw|hempty
      · exact absurd hslot (hw slot)
      · simp only [State.setWorker] at hin
        rw [hempty] at hin
        cases hin
    · simp only [State.setWorker,Function.update_of_ne hu]
      exact ⟨slot,hslot⟩
  · simp only [State.setWorker,Function.update_of_ne (Ne.symm ht)]
    exact h.main

end IocpServer.Service
