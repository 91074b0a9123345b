import IocpServer.NetWork.Listener

namespace IocpServer.NetWork.Listener

open Pool (weight weight_cons pending total total_nil total_cons weight_add)

variable {A S : Type} [DecidableEq A]

namespace Frame

/-- The thread has the accept event in hand. -/
def runs (a : A) : Frame A S → Nat
  | .registerAccept b | .createSession b | .acceptEx b | .acceptFailed b _ | .reserveAcceptRetry b
  | .dispatch b | .processAccept b | .updateAccept b _ | .peerName b _ | .onConnected b _ =>
    if b=a then 1 else 0
  | _ => 0

/-- The thread is about to push the retry of the event to its queue. -/
def due (a : A) : Frame A S → Nat
  | .pushDue items => items.count a
  | _ => 0

/-- The thread relies on the session and the owner of the event. -/
def uses (a : A) : Frame A S → Nat
  | .acceptEx b | .dispatch b | .processAccept b => if b=a then 1 else 0
  | _ => 0

/-- The thread holds the lock of the listener. -/
def locks : Frame A S → Nat
  | .createSession _ | .acceptEx _ | .acceptFailed _ _ | .reserveAcceptRetry _ | .unlock
  | .updateAccept _ _ | .peerName _ _ => 1
  | _ => 0

theorem uses_le_runs (a : A) (f : Frame A S) : f.uses a ≤ f.runs a := by
  cases f <;> simp [uses,runs]

end Frame

/-- The event that `start_accept` has not made yet. -/
def Core.fresh (c : Core A S) (a : A) : Nat := if a∈c.created then 0 else 1

/-- The retries of the event that are reserved or queued. -/
def Core.waits (c : Core A S) (a : A) : Nat := c.timer.jobs.count a+c.jobs.count a

/-- All that stands for the event outside the threads. -/
def Core.slots (c : Core A S) (a : A) : Nat := c.fresh a+c.flights.count a+c.waits a

theorem count_cons_eq (a b : A) (m : Multiset A) :
    (b::ₘm).count a=m.count a+if b=a then 1 else 0 := by
  rw [Multiset.count_cons]
  simp only [eq_comm]

namespace Core

variable (c : Core A S) (a b : A)

/-- `AcceptEx` is registered. -/
theorem slots_flights (issued : List A) :
    ({ c with flights := b::ₘc.flights, issued := issued } : Core A S).slots a=
      c.slots a+if b=a then 1 else 0 := by
  show c.fresh a+(b::ₘc.flights).count a+c.waits a=c.fresh a+c.flights.count a+c.waits a+_
  rw [count_cons_eq]
  omega

/-- The timer gets a retry. -/
theorem slots_reserve (now tickAfter : Nat) :
    ({ c with timer := c.timer.reserve now tickAfter b } : Core A S).slots a=
      c.slots a+if b=a then 1 else 0 := by
  show c.fresh a+c.flights.count a+((c.timer.reserve now tickAfter b).jobs.count a+c.jobs.count a)=
    c.fresh a+c.flights.count a+(c.timer.jobs.count a+c.jobs.count a)+_
  rw [Job.JobTimer.jobs_reserve,count_cons_eq]
  omega

/-- The retry queue gets a job. -/
theorem slots_push :
    ({ c with jobs := c.jobs++[b] } : Core A S).slots a=c.slots a+if b=a then 1 else 0 := by
  show c.fresh a+c.flights.count a+(c.timer.jobs.count a+(c.jobs++[b]).count a)=
    c.fresh a+c.flights.count a+(c.timer.jobs.count a+c.jobs.count a)+_
  rw [List.count_append,List.count_singleton]
  simp only [beq_iff_eq]
  omega

variable {b}

theorem slots_takeJob (h : b∈c.jobs) :
    (c.takeJob b).slots a+(if b=a then 1 else 0)=c.slots a := by
  have hcount := (List.perm_cons_erase h).count_eq a
  rw [List.count_cons] at hcount
  simp only [beq_iff_eq] at hcount
  show c.fresh a+c.flights.count a+(c.timer.jobs.count a+(c.jobs.erase b).count a)+_=
    c.fresh a+c.flights.count a+(c.timer.jobs.count a+c.jobs.count a)
  omega

end Core

variable {c c' : Core A S} {o : Choice A S} {f : Frame A S} {gs fs : List (Frame A S)}

/-- What a step can do that replaces the frames `gs` by `fs`: the lock passes from nobody to one
thread and back and is not given out after `close_socket`, an event is never multiplied and gets lost
only after `close_socket` or a non-retryable error, and session and owner of an event change only in
the hand of the thread that has it. -/
structure Moves (c c' : Core A S) (gs fs : List (Frame A S)) : Prop where
  lock : c'.locked.toNat+total Frame.locks gs=c.locked.toNat+total Frame.locks fs
  open_ : c'.locked → c'.acceptStopped → c.locked ∧ c.acceptStopped
  stays : c.acceptStopped → c'.acceptStopped
  socket : c'.socketOpen=false → c'.acceptStopped ∨ c.socketOpen=false
  hit : c.stopped⊆c'.stopped
  slots : ∀ a, c'.slots a+total (Frame.due a) fs+total (Frame.runs a) fs ≤
    c.slots a+total (Frame.due a) gs+total (Frame.runs a) gs
  kept : ∀ a, c'.acceptStopped=false → a∉c'.stopped →
    c'.slots a+total (Frame.due a) fs+total (Frame.runs a) fs=
      c.slots a+total (Frame.due a) gs+total (Frame.runs a) gs
  event : ∀ a, (c'.session a).isSome ∧ c'.owner a ∨
    c'.session a=c.session a ∧ c'.owner a=c.owner a ∧
      c'.flights.count a+total (Frame.uses a) fs ≤ c.flights.count a+total (Frame.uses a) gs ∨
    0<total (Frame.runs a) gs ∧ total (Frame.uses a) fs=0 ∧ c'.flights.count a=c.flights.count a
  issued : c'.issued=c.issued ∨ 0<total Frame.locks gs

/-- What a thread relies on at its frame. -/
structure Ready (c : Core A S) (f : Frame A S) : Prop where
  lock : 0<f.locks → c.locked
  event : ∀ a, 0<f.uses a → (c.session a).isSome ∧ c.owner a
  socket : c.socketOpen=false → c.acceptStopped

attribute [local simp] Frame.runs Frame.due Frame.uses Frame.locks Core.slots Core.fresh Core.waits
  Core.setEvent

/-- What a step does to the lock, to the flags of `close_socket` and to the histories. -/
theorem exec_guard (h : exec c o f=some (c',fs)) (hl : 0<f.locks → c.locked) :
    c'.locked.toNat+f.locks=c.locked.toNat+total Frame.locks fs ∧
    (c'.locked → c'.acceptStopped → c.locked ∧ c.acceptStopped) ∧
    (c.acceptStopped → c'.acceptStopped) ∧
    (c'.socketOpen=false → c'.acceptStopped ∨ c.socketOpen=false) ∧ c.stopped⊆c'.stopped ∧
    (c'.issued=c.issued ∨ 0<f.locks) := by
  cases f <;> simp only [exec] at h <;> repeat' split at h
  all_goals cases h
  all_goals simp_all [Core.takeJob]

theorem exec_event (h : exec c o f=some (c',fs)) (a : A) :
    (c'.session a).isSome ∧ c'.owner a ∨
    c'.session a=c.session a ∧ c'.owner a=c.owner a ∧
      c'.flights.count a+total (Frame.uses a) fs ≤ c.flights.count a+f.uses a ∨
    0<f.runs a ∧ total (Frame.uses a) fs=0 ∧ c'.flights.count a=c.flights.count a := by
  cases f <;> simp only [exec] at h <;> repeat' split at h
  all_goals cases h
  all_goals simp_all [Core.takeJob]
  all_goals grind [Multiset.count_cons]

/-- An event is handed on, and it gets lost only after `close_socket` or a non-retryable error. -/
theorem exec_slots (h : exec c o f=some (c',fs)) (hr : Ready c f) (a : A) :
    c'.slots a+total (Frame.due a) fs+total (Frame.runs a) fs ≤ c.slots a+f.due a+f.runs a ∧
    (c'.acceptStopped=false → a∉c'.stopped →
      c'.slots a+total (Frame.due a) fs+total (Frame.runs a) fs=c.slots a+f.due a+f.runs a) := by
  obtain ⟨-,hevent,hsocket⟩ := hr
  have hclosed : (c.acceptStopped || !c.socketOpen)=true → c.acceptStopped=true := by
    intro hor
    cases hs : c.acceptStopped with
    | true => rfl
    | false =>
      rw [hs,Bool.false_or,Bool.not_eq_true'] at hor
      exact hs.symm.trans (hsocket hor)
  have hkept : ∀ {n m : Nat} {p q : Prop}, n=m → n ≤ m ∧ (p → q → n=m) :=
    fun heq => ⟨heq.le,fun _ _ => heq⟩
  cases f with
  | startAccept acceptEvents =>
    simp only [exec] at h
    repeat' split at h
    all_goals cases h
    · exact hkept rfl
    · rename_i b rest hnew
      apply hkept
      by_cases hb : b=a
      · subst hb
        simp [hnew]
        omega
      · have hne : ¬a=b := fun he => hb he.symm
        simp [hb,hne]
  | registerAccept b =>
    simp only [exec] at h
    split at h
    · cases h
    split at h <;> cases h
    · rename_i hstop
      rw [hclosed hstop]
      exact ⟨Nat.le_add_right _ _,fun hno => absurd hno (by simp)⟩
    · exact hkept rfl
  | acceptEx b =>
    simp only [exec] at h
    split at h <;> cases h
    case h_3 => exact hkept rfl
    all_goals
      rw [Core.slots_flights]
      exact hkept rfl
  | acceptFailed b errorCode =>
    simp only [exec] at h
    split at h <;> cases h
    · exact hkept rfl
    · refine ⟨Nat.le_add_right _ _,fun _ hno => ?_⟩
      have hne : ¬b=a := fun he => hno (he ▸ Finset.mem_insert_self _ _)
      show c.slots a+0+0=c.slots a+0+if b=a then 1 else 0
      rw [if_neg hne]
  | reserveAcceptRetry b =>
    cases h
    rw [Core.slots_reserve]
    exact hkept rfl
  | dispatch b =>
    obtain ⟨-,howner⟩ := hevent b (by simp)
    simp only [exec,howner,if_true] at h
    cases h
    exact hkept rfl
  | processAccept b =>
    obtain ⟨hsession,-⟩ := hevent b (by simp)
    simp only [exec] at h
    split at h
    · cases h
    split at h
    · split at h <;> cases h
      · rename_i hstop
        refine ⟨Nat.le_add_right _ _,fun hno => ?_⟩
        exact absurd ((hclosed hstop).symm.trans hno) (by simp)
      · exact hkept rfl
    · rename_i hnone
      rw [hnone] at hsession
      cases hsession
  | collect now =>
    simp only [exec] at h
    split at h <;> cases h
    rename_i timer htimer
    have hjobs := congrArg (Multiset.count a) (Job.JobTimer.jobs_collect htimer)
    rw [Multiset.count_add,Multiset.coe_count] at hjobs
    simp
    omega
  | pushDue items =>
    simp only [exec] at h
    repeat' split at h
    all_goals cases h
    · rename_i b hin
      have htake := c.slots_takeJob a hin
      apply hkept
      simp only [Frame.due,Frame.runs,total_cons,total_nil]
      omega
    · exact hkept rfl
    · rename_i b rest _ _
      rw [Core.slots_push]
      apply hkept
      simp [List.count_cons]
      omega
    · rename_i hdead
      refine ⟨by simp [List.count_cons],fun hno => ?_⟩
      simp [hno] at hdead
  | _ =>
    simp only [exec] at h
    repeat' split at h
    all_goals cases h
    all_goals exact hkept rfl

theorem exec_moves (hr : Ready c f) (h : exec c o f=some (c',fs)) : Moves c c' [f] fs := by
  obtain ⟨hlock,hopen,hstays,hsocket,hhit,hissued⟩ := exec_guard h hr.lock
  have hslots := exec_slots h hr
  have hevent := exec_event h
  have ht : ∀ w, total w [f]=w f := fun w => by simp
  refine ⟨?_,hopen,hstays,hsocket,hhit,fun a => ?_,fun a => ?_,fun a => ?_,?_⟩ <;> simp only [ht]
  · exact hlock
  · exact (hslots a).1
  · exact (hslots a).2
  · exact hevent a
  · exact hissued

/-- A call from outside, a completion, which stands for its `AcceptEx`, or a job from the queue. -/
theorem enter_moves {e : Entry A} (h : enter c e=some (c',fs)) : Moves c c' [] fs := by
  cases e with
  | completed b =>
    simp only [enter] at h
    split at h <;> cases h
    rename_i hin
    have hcount : ∀ a, (c.flights.erase b).count a+(if b=a then 1 else 0)=c.flights.count a := by
      intro a
      nth_rewrite 2 [← Multiset.cons_erase hin]
      exact (count_cons_eq a b _).symm
    have hslots : ∀ a, (c.fresh a+(c.flights.erase b).count a+c.waits a)+(if b=a then 1 else 0)=
        c.fresh a+c.flights.count a+c.waits a := fun a => by
      have := hcount a
      omega
    refine ⟨rfl,fun hl hs => ⟨hl,hs⟩,id,Or.inr,subset_rfl,fun a => ?_,fun a _ _ => ?_,fun a => ?_,
      Or.inl rfl⟩
    · simpa using (hslots a).le
    · simpa using hslots a
    · exact Or.inr (Or.inl ⟨rfl,rfl,by simpa using (hcount a).le⟩)
  | job b =>
    simp only [enter] at h
    split at h <;> cases h
    rename_i hin
    refine ⟨rfl,fun hl hs => ⟨hl,hs⟩,id,Or.inr,subset_rfl,fun a => ?_,fun a _ _ => ?_,
      fun _ => Or.inr (Or.inl ⟨rfl,rfl,le_rfl⟩),Or.inl rfl⟩
    all_goals
      have htake := c.slots_takeJob a hin
      simp only [Frame.due,Frame.runs,total_cons,total_nil]
      omega
  | _ =>
    simp only [enter] at h
    repeat' split at h
    all_goals cases h
    all_goals constructor
    all_goals simp_all

/-- What holds of the fields and of the frames of all threads in every state: the lock has one holder
and nobody holds it after `close_socket`, every event is in at most one place, and in exactly one
unless `close_socket` or a non-retryable error has taken it out, and where a completion is on its way
the event has its session and its owner. -/
structure Inv (c : Core A S) (m : Multiset (Frame A S)) : Prop where
  lock : weight Frame.locks m=c.locked.toNat
  open_ : c.locked → c.acceptStopped=false
  socket : c.socketOpen=false → c.acceptStopped
  slots : ∀ a, c.slots a+weight (Frame.due a) m+weight (Frame.runs a) m ≤ 1
  kept : ∀ a, c.acceptStopped=false → a∉c.stopped →
    c.slots a+weight (Frame.due a) m+weight (Frame.runs a) m=1
  event : ∀ a, 0<c.flights.count a+weight (Frame.uses a) m → (c.session a).isSome ∧ c.owner a

namespace Inv

variable {m : Multiset (Frame A S)}

theorem init : Inv (Core.init : Core A S) 0 := by
  constructor <;> simp [Core.init]

theorem ready (h : Inv c (f::ₘm)) : Ready c f := by
  obtain ⟨hlock,-,hsocket,-,-,hevent⟩ := h
  simp only [weight_cons] at hlock hevent
  refine ⟨fun hf => ?_,fun a hf => hevent a (by omega),hsocket⟩
  cases hl : c.locked with
  | true => rfl
  | false =>
    rw [hl,Bool.toNat_false] at hlock
    omega

theorem moves (h : Inv c (gs+m)) (hm : Moves c c' gs fs) : Inv c' (fs+m) := by
  obtain ⟨hlock,hopen,hstays,hsocket,hhit,hslots,hkept,hevent,-⟩ := hm
  obtain ⟨hlock0,hopen0,hsocket0,hslots0,hkept0,hevent0⟩ := h
  simp only [weight_add] at hlock0 hslots0 hkept0 hevent0
  have hback : c'.acceptStopped=false → c.acceptStopped=false := by
    intro hs
    cases hc : c.acceptStopped with
    | false => rfl
    | true =>
      rw [hstays hc] at hs
      cases hs
  refine ⟨?_,?_,?_,?_,?_,?_⟩ <;> try simp only [weight_add]
  · omega
  · intro hl
    by_contra hs
    obtain ⟨hl0,hs0⟩ := hopen hl (by simpa using hs)
    rw [hopen0 hl0] at hs0
    cases hs0
  · exact fun hs => (hsocket hs).elim id fun hs => hstays (hsocket0 hs)
  · intro a
    have := hslots a
    have := hslots0 a
    omega
  · intro a hs ha
    have := hkept a hs ha
    have := hkept0 a (hback hs) fun hin => ha (hhit hin)
    omega
  · intro a hpos
    rcases hevent a with hboth|⟨hses,hown,hle⟩|⟨hrun,huse,hfly⟩
    · exact hboth
    · rw [hses,hown]
      exact hevent0 a (by omega)
    · -- the event is in the hand of the thread, so no one else relies on it
      have hmono := Pool.weight_mono (Frame.uses_le_runs a) m
      have := hslots0 a
      simp only [Core.slots] at this
      omega

end Inv

variable {T : Type} [Fintype T] [DecidableEq T] {s s' : State T A S}

/-- Every step of the pool is a move of the listener. -/
theorem step_moves (h : Inv s.core (pending s.calls)) {a : Action T A S} (hs : step s a=some s') :
    ∃ gs fs : List (Frame A S), ∃ m : Multiset (Frame A S), pending s.calls=gs+m ∧
      pending s'.calls=fs+m ∧ Moves s.core s'.core gs fs := by
  rcases Pool.step_cases hs with ⟨t,o,f,fs,m,-,-,hx,hm,hm'⟩|⟨t,e,fs,-,hx,hm'⟩
  · rw [hm] at h
    exact ⟨[f],fs,m,hm,hm',exec_moves h.ready hx⟩
  · exact ⟨[],fs,pending s.calls,(zero_add _).symm,hm',enter_moves hx⟩

theorem step_inv (h : Inv s.core (pending s.calls)) {a : Action T A S} (hs : step s a=some s') :
    Inv s'.core (pending s'.calls) := by
  obtain ⟨gs,fs,m,hm,hm',hmoves⟩ := step_moves h hs
  rw [hm] at h
  rw [hm']
  exact h.moves hmoves

theorem reaches_inv (h : Reaches step Any init s) : Inv s.core (pending s.calls) := by
  refine h.invariant (P:=fun s => Inv s.core (pending s.calls)) ?_ fun _ _ _ hi _ => step_inv hi
  rw [init,Pool.pending_init]
  exact Inv.init

/-- After `close_socket` no step calls `AcceptEx`. -/
theorem step_issued (h : Inv s.core (pending s.calls)) (hstop : s.core.acceptStopped)
    {a : Action T A S} (hs : step s a=some s') :
    s'.core.acceptStopped ∧ s'.core.issued=s.core.issued := by
  obtain ⟨gs,fs,m,hm,-,hmoves⟩ := step_moves h hs
  refine ⟨hmoves.stays hstop,hmoves.issued.resolve_right fun hpos => ?_⟩
  have hlock := h.lock
  rw [hm,weight_add] at hlock
  have hl : s.core.locked := by
    by_contra hl
    rw [Bool.not_eq_true] at hl
    rw [hl,Bool.toNat_false] at hlock
    omega
  rw [h.open_ hl] at hstop
  cases hstop

/-- The `AcceptEx` calls of the event that are in flight. -/
def inFlight (s : State T A S) (a : A) : Nat := s.core.flights.count a

/-- The retries of the event: reserved in the timer, on their way from it to the queue, or queued. -/
def retrying (s : State T A S) (a : A) : Nat :=
  s.core.waits a+weight (Frame.due a) (pending s.calls)

/-- The threads that run `register_accept` or `process_accept` for the event. -/
def running (s : State T A S) (a : A) : Nat := weight (Frame.runs a) (pending s.calls)

/-- Accept slots are conserved: an event is in flight, waits for a retry or is in the hand of a
thread, and only one of these; it is so until `close_socket` or a non-retryable error; and after
`close_socket` there is no further `AcceptEx`. -/
theorem accept_slots_conserved (h : Reaches step Any init s) :
    (∀ a, inFlight s a+retrying s a+running s a ≤ 1) ∧
    (∀ a∈s.core.created, s.core.acceptStopped=false → a∉s.core.stopped →
      inFlight s a+retrying s a+running s a=1) ∧
    (s.core.acceptStopped → ∀ s', Reaches step Any s s' → s'.core.issued=s.core.issued) := by
  have hi := reaches_inv h
  refine ⟨fun a => ?_,fun a hin hstop hhit => ?_,fun hstop s' hr => ?_⟩
  · have := hi.slots a
    simp only [Core.slots,inFlight,retrying,running] at this ⊢
    omega
  · have := hi.kept a hstop hhit
    simp only [Core.slots,Core.fresh,if_pos hin,inFlight,retrying,running] at this ⊢
    omega
  · have hkeep := hr.invariant (P:=fun s' => Inv s'.core (pending s'.calls) ∧
      s'.core.acceptStopped ∧ s'.core.issued=s.core.issued) ⟨hi,hstop,rfl⟩ ?_
    · exact hkeep.2.2
    · rintro s₁ a s₂ ⟨hi₁,hstop₁,hsame⟩ - hs
      obtain ⟨hstop₂,hsame₂⟩ := step_issued hi₁ hstop₁ hs
      exact ⟨step_inv hi₁ hs,hstop₂,hsame₂.trans hsame⟩

/-- The first `AcceptEx` fails for want of buffers and is tried again by the timer; the second one is
pending when `close_socket` is called. -/
def retriedAccept : List (Action Unit Bool Unit) :=
  let o : Choice Bool Unit := ⟨some (),.pending,true,7,[],true,none⟩
  let run (n : Nat) : List (Action Unit Bool Unit) := List.replicate n (.run () o)
  [.enter () (.startAccept [false,true])]++run 3++[.run () { o with call := .error wsaENoBufs }]++
    run 9++[.enter () (.distribute 107)]++run 1++[.run () { o with popped := [⟨107,false⟩] }]++
    run 1++[.run () { o with job := some false }]++run 5

/-- `close_socket`. -/
def closing : List (Action Unit Bool Unit) :=
  [.enter () .closeSocket,.run () ⟨none,.pending,true,7,[],true,none⟩]

theorem accept_slots_conserved_retriedAccept :
    ∃ s s' : State Unit Bool Unit, Reaches step Any init s ∧
      (inFlight s false=1 ∧ retrying s false=0 ∧ running s false=0) ∧
      Reaches step Any s s' ∧
      ∀ s'', Reaches step Any s' s'' → s''.core.issued=[false,true,false] := by
  have hrun : ((runActions step (init : State Unit Bool Unit) retriedAccept).bind fun s =>
      (runActions step s closing).map fun s' =>
        (s.core.flights.count false,[decide (false∈s.core.created),s.core.acceptStopped,
          decide (false∈s.core.stopped),s'.core.acceptStopped],s'.core.issued))=
      some (1,[true,false,false,true],[false,true,false]) := by decide +kernel
  obtain ⟨s,hs,hrun⟩ := Option.bind_eq_some_iff.mp hrun
  obtain ⟨s',hs',hfields⟩ := Option.map_eq_some_iff.mp hrun
  simp only [Prod.mk.injEq,List.cons.injEq,and_true,decide_eq_true_eq,decide_eq_false_iff_not]
    at hfields
  obtain ⟨hfly,⟨hin,hopen,hhit,hstop⟩,hissued⟩ := hfields
  have hr := Reaches.of_runActions (fun _ _ => trivial) _ hs
  have hr' : Reaches step Any s s' := Reaches.of_runActions (fun _ _ => trivial) _ hs'
  have hone := (accept_slots_conserved hr).2.1 false hin hopen hhit
  have hclosed := (accept_slots_conserved (hr.trans hr')).2.2 hstop
  have hfly : inFlight s false=1 := hfly
  refine ⟨s,s',hr,⟨hfly,by omega,by omega⟩,hr',fun s'' h => ?_⟩
  rw [hclosed s'' h,hissued]

end IocpServer.NetWork.Listener
