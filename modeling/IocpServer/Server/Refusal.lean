import IocpServer.NetWork.Notice
import IocpServer.Server.Capacity
import IocpServer.Server.Registration

namespace IocpServer.Server

open NetWork (SendBuffer SessionManager)
open NetWork.Lifecycle

variable {T S : Type} [DecidableEq S]

variable [Fintype T]

/-- The sessions are entered as a running server does. -/
def Regular (s : State T S) : Action T S → Prop
  | .enter _ x entry => Reached (s.view x) entry
  | .run _ _ _ => True

theorem Regular.admission {s : State T S} {a : Action T S} (h : Regular s a) : Admission s a := by
  cases a with
  | enter t x entry => exact Reached.allowed h
  | run t ok recv => trivial

/-- No send of session `x` fails or completes without bytes, and `x` is not shut down. -/
def Undisturbed (x : S) (s : State T S) : Action T S → Prop
  | .enter _ y entry => y=x → entry.gentle
  | .run t ok _ => (s.calls t).head?=some (x,.pipe .transmit) → ok

/-- `reject_connection` has taken over the session. -/
def Rejected (s : State T S) (x : S) : Prop :=
  (s.cores x).hadConnected ∧ (s.cores x).admitted=false

/-- The notice is all that is submitted: a beginning of it was handed over, and what is in flight is
the rest. -/
def NoticeOnly (b : SendBuffer) (s : State T S) (x : S) : Prop :=
  (s.cores x).pipe.wire<+:b.bytes ∧
    ∀ bytes, (s.cores x).pipe.flight=some bytes → (s.cores x).pipe.wire++bytes=b.bytes

/-- The session is not served: no receive is registered, no thread receives or handles packets for
it, none are queued, the heartbeat does not visit it, and no registry leads to it. -/
def Unserved (s : State T S) (x : S) : Prop :=
  (s.cores x).receiving=false ∧ (∀ t f, (x,f)∈s.calls t → f.receives=0) ∧
    (∀ j∈(s.cores x).jobs, j.isCleanup) ∧
    (∀ isConnected pong now beat, (x,beat)∉s.game.manager.checkHeartbeat isConnected pong now) ∧
    x∉s.game.manager.sessions ∧ ¬Registered s.game x

/-- The session is closed behind its notice: nobody disconnects it before, the thread that counts the
last bytes goes on to do so, and nobody else has to. -/
structure ClosesBehind [DecidableEq T] (e : Env) (b : SendBuffer) (s : State T S) (x : S) : Prop where
  before : (s.cores x).pipe.wire≠b.bytes →
    (s.cores x).pipe.isConnect ∧ ∀ t dropped, (x,.pipe (.disconnect dropped))∉s.calls t
  after : (s.cores x).pipe.wire=b.bytes → (s.cores x).pipe.isConnect=false ∨
    ∃ t pc, (x,.pipe pc)∈s.calls t ∧ completing pc
  consume : ∀ t ok recv n rest s', s.calls t=(x,.pipe (.consume n))::rest →
    step e s (.run t ok recv)=some s' →
      s'.calls t=(x,.pipe (if (s.cores x).pipe.wire=b.bytes then .flushed else .registerSend))::rest
  flushed : ∀ t ok recv rest s', s.calls t=(x,.pipe .flushed)::rest →
    step e s (.run t ok recv)=some s' → s'.calls t=(x,.pipe (.disconnect false))::rest

/-- What is known of session `x` while it is not added. -/
structure Refusing (e : Env) (maxSessionCount : Int) (lost : Prop) (s : State T S) (x : S) : Prop where
  sound : Sound (s.view x)
  max : s.game.manager.maxSessionCount=maxSessionCount
  delivery : (s.cores x).admitted=false →
    Delivery lost (e.makeServerFullNotice maxSessionCount) (s.view x)

theorem refusing_init (e : Env) (maxSessionCount : Int) (lost : Prop) (x : S) :
    Refusing e maxSessionCount lost (State.init maxSessionCount : State T S) x := by
  refine ⟨?_,rfl,fun _ => ?_⟩ <;> rw [view_init]
  · exact Sound.init
  · exact Delivery.init

/-- A session that has been connected stays marked so, and without a new offer it is not added. -/
theorem connected_step {l l' : Local Packet} (h : Sound l) (hhad : l.core.hadConnected)
    (hadm : l.core.admitted=false) (hs : Step Reached l l') :
    l'.core.hadConnected ∧ l'.core.admitted=false := by
  cases hs with
  | @fire c c' f fs o m hx =>
    simp only at hhad hadm ⊢
    by_cases ha : f.admitting=0
    · obtain ⟨-,hadm',-,hhad',-⟩ := exec_settled hx ha
      exact ⟨hhad'.trans hhad,hadm'.trans hadm⟩
    · cases exec_move hx with
      | full | added | known =>
        have heq := h.rejection.alone .addSession (Multiset.mem_cons_self _ m) _ rfl
        have hcore := congrArg Local.core heq
        simp only at hcore
        rw [hcore] at hhad
        cases hhad
      | storeConnect | rejectConnection => exact ⟨rfl,hadm⟩
      | pipe => exact absurd rfl ha
      | _ => exact ⟨hhad,hadm⟩
  | @enter c c' fs entry m hr hx =>
    have hne : entry≠.offer := by
      rintro rfl
      have hoff := h.account.offered
      simp only at hhad hoff
      rw [hhad,hr.1,Bool.toNat_true,Bool.toNat_false] at hoff
      omega
    refine ⟨?_,(enter_histories hx hne).2.1.trans hadm⟩
    cases enter_enters hx <;> exact hhad

theorem Known.unserved {s : State T S} {x : S} (h : Known s.game x (s.view x))
    (hadm : (s.cores x).admitted=false) : Unserved s x := by
  have hquiet : tok Frame.receives (s.view x).frames+(s.cores x).receiving.toNat+
      packets (s.cores x).jobs=0 := by
    by_contra hne
    have := h.greeting.welcomed (h.welcome (Nat.pos_of_ne_zero hne))
    simp only [State.view,hadm] at this
    cases this
  have hout : x∉s.game.manager.sessions := by
    intro hin
    have := h.listed.admitted hin
    simp only [State.view,hadm] at this
    cases this
  refine ⟨?_,?_,?_,?_,hout,(h.unknown hadm).registered⟩
  · cases hrecv : (s.cores x).receiving with
    | false => rfl
    | true =>
      rw [hrecv,Bool.toNat_true] at hquiet
      omega
  · intro t f hmem
    by_contra hne
    have := tok_pos_of_mem (Stacks.mem_pending.mpr ⟨t,hmem⟩) (Nat.pos_of_ne_zero hne)
    simp only [State.view] at hquiet
    omega
  · have hzero : packets (s.cores x).jobs=0 := by omega
    intro j hj
    simpa using List.countP_eq_zero.mp hzero j hj
  · intro isConnected pong now beat hmem
    obtain ⟨y,hy,heq⟩ := Finset.mem_image.mp hmem
    cases heq
    exact hout hy

namespace Refusing

variable {e : Env} {maxSessionCount : Int} {lost : Prop} {s s' : State T S} {x : S}

section

variable [DecidableEq T]

theorem run {t : T} {ok : Bool} {recv : Recv Packet} (h : Refusing e maxSessionCount lost s x)
    (hb : 0<(e.makeServerFullNotice maxSessionCount).writeSize)
    (hok : lost ∨ Undisturbed x s (.run t ok recv)) (hs : step e s (.run t ok recv)=some s') :
    Refusing e maxSessionCount lost s' x := by
  obtain ⟨y,f,rest,c,fs,hcalls,hx,rfl⟩ := step_run hs
  obtain ⟨⟨m,hm,hm'⟩,hother⟩ :=
    view_replace (g:=(gameStep e s.game y (s.cores y).pipe.isConnect f).1) hcalls c fs
  obtain ⟨hsound,hmax,hdelivery⟩ := h
  have hmax' := (gameStep_members e s.game y (s.cores y).pipe.isConnect f).2.trans hmax
  by_cases hy : x=y
  · subst hy
    rw [hm] at hsound hdelivery
    refine ⟨?_,hmax',fun hadm' => ?_⟩ <;> rw [hm']
    · exact hsound.step (Step.fire _ m hx)
    · simp only [State.move,Function.update_self] at hadm'
      have hadm := exec_not_admitted hx hadm'
      apply (hdelivery hadm).fire hsound hadm hadm' hb _ _ hx
      · intro _
        simp only [State.choice,hmax]
      · refine hok.imp_right fun hcalm hf => hcalm ?_
        rw [hcalls,hf,List.head?_cons]
  · have hcore : (s.move (gameStep e s.game y (s.cores y).pipe.isConnect f).1 y c t
        (Stacks.on y fs++rest)).cores x=s.cores x := Function.update_of_ne hy _ _
    refine ⟨?_,hmax',?_⟩ <;> rw [hother x hy]
    · exact hsound
    · rw [hcore]
      exact hdelivery

theorem enter {t : T} {y : S} {entry : Entry} (h : Refusing e maxSessionCount lost s x)
    (ha : Reached (s.view y) entry) (hok : lost ∨ Undisturbed x s (.enter t y entry))
    (hs : step e s (.enter t y entry)=some s') : Refusing e maxSessionCount lost s' x := by
  obtain ⟨c,fs,-,hx,rfl⟩ := step_enter hs
  obtain ⟨hself,hother⟩ := view_push (s:=s) (g:=s.game) (x:=y) (t:=t) c fs
  obtain ⟨hsound,hmax,hdelivery⟩ := h
  by_cases hy : x=y
  · subst hy
    have hadm : c.admitted=(s.cores x).admitted := enter_admitted hx
    refine ⟨?_,hmax,fun hadm' => ?_⟩ <;> rw [hself]
    · exact hsound.step (Step.enter ha hx)
    · simp only [State.move,Function.update_self] at hadm'
      have hadm := hadm.symm.trans hadm'
      exact (hdelivery hadm).enter hsound hadm ha (hok.imp_right fun hcalm => hcalm rfl) hx
  · have hcore : (s.move s.game y c t (Stacks.on y fs++s.calls t)).cores x=s.cores x :=
      Function.update_of_ne hy _ _
    refine ⟨?_,hmax,?_⟩ <;> rw [hother x hy]
    · exact hsound
    · rw [hcore]
      exact hdelivery

theorem step {a : Action T S} (h : Refusing e maxSessionCount lost s x)
    (hb : 0<(e.makeServerFullNotice maxSessionCount).writeSize) (ha : Regular s a)
    (hok : lost ∨ Undisturbed x s a) (hs : step e s a=some s') :
    Refusing e maxSessionCount lost s' x := by
  cases a with
  | run t ok recv => exact h.run hb hok hs
  | enter t y entry => exact h.enter ha hok hs

theorem reaches {ok : State T S → Action T S → Prop}
    (hb : 0<(e.makeServerFullNotice maxSessionCount).writeSize)
    (hok : ∀ s a, ok s a → Regular s a ∧ (lost ∨ Undisturbed x s a))
    (h : Reaches (Server.step e) ok (State.init maxSessionCount) s) :
    Refusing e maxSessionCount lost s x :=
  h.invariant (P:=fun s => Refusing e maxSessionCount lost s x)
    (refusing_init e maxSessionCount lost x)
    fun s a _ hi ha hs => hi.step hb (hok s a ha).1 (hok s a ha).2 hs

end

/-- A session that was rejected stays so. -/
theorem rejected [DecidableEq T] {a : Action T S} (h : Refusing e maxSessionCount lost s x) (hx : Rejected s x)
    (ha : Regular s a) (hs : Server.step e s a=some s') : Rejected s' x := by
  have hcalls : ∀ t y entry, a=.enter t y entry → Reached (s.view y) entry := by
    rintro t y entry rfl
    exact ha
  rcases step_view hcalls hs x with hsame|hstep
  · have hcore := congrArg Local.core hsame
    simp only [State.view] at hcore
    rw [Rejected,hcore]
    exact hx
  · exact connected_step h.sound hx.1 hx.2 hstep

theorem noticeOnly (h : Refusing e maxSessionCount lost s x) (hadm : (s.cores x).admitted=false) :
    NoticeOnly (e.makeServerFullNotice maxSessionCount) s x :=
  ⟨(h.delivery hadm).wire,fun _ hfly => (h.delivery hadm).rest hfly⟩

theorem closesBehind [DecidableEq T] (h : Refusing e maxSessionCount False s x) (hx : Rejected s x)
    (hb : 0<(e.makeServerFullNotice maxSessionCount).writeSize) :
    ClosesBehind e (e.makeServerFullNotice maxSessionCount) s x := by
  obtain ⟨hhad,hadm⟩ := hx
  have hd := h.delivery hadm
  constructor
  · intro hpart
    constructor
    · by_contra hoff
      have hoff : (s.view x).core.pipe.isConnect=false := by simpa [State.view] using hoff
      exact (hd.off hhad hoff).elim id hpart
    · intro t dropped hmem
      exact (hd.frames _ (Stacks.mem_pending.mpr ⟨t,hmem⟩)).elim id hpart
  · intro hall
    refine (hd.complete h.sound hadm hb hall).imp_right ?_
    rintro ⟨pc,hmem,hpc⟩
    obtain ⟨t,ht⟩ := Stacks.mem_pending.mp hmem
    exact ⟨t,pc,ht,hpc⟩
  · intro t ok recv n rest s' hcalls hs
    obtain ⟨y,f,rest',c,fs,hcalls',hx,rfl⟩ := step_run hs
    rw [hcalls] at hcalls'
    cases hcalls'
    have hmem : .pipe (.consume n)∈(s.view x).frames :=
      Stacks.mem_pending.mpr ⟨t,by rw [hcalls]; exact List.mem_cons_self⟩
    obtain ⟨p,hp⟩ := hd.consume hmem ok
    simp only [exec,State.choice] at hx
    simp only [State.view] at hp
    rw [hp] at hx
    cases hx
    simp only [State.move,Function.update_self]
    by_cases hall : (s.cores x).pipe.wire=(e.makeServerFullNotice maxSessionCount).bytes
    · simp [hall,pipeNext,Stacks.on]
    · simp [hall,pipeNext,Stacks.on]
  · intro t ok recv rest s' hcalls hs
    obtain ⟨y,f,rest',c,fs,hcalls',hx,rfl⟩ := step_run hs
    rw [hcalls] at hcalls'
    cases hcalls'
    cases hx
    simp only [State.move,Function.update_self]
    rfl

end Refusing

/-- A rejected connection gets the notice and nothing else, it is never served, and as long as its
sends go through it is closed behind the last byte of the notice. -/
theorem rejected_gets_notice [DecidableEq T] (e : Env) (maxSessionCount : Int) (x : S)
    (hb : 0<(e.makeServerFullNotice maxSessionCount).writeSize) :
    (∀ s : State T S, Reaches (step e) Regular (State.init maxSessionCount) s → Rejected s x →
      NoticeOnly (e.makeServerFullNotice maxSessionCount) s x ∧ Unserved s x ∧
      ∀ s', Reaches (step e) Regular s s' → Rejected s' x) ∧
    ∀ s : State T S, Reaches (step e) (fun s a => Regular s a ∧ Undisturbed x s a)
        (State.init maxSessionCount) s → Rejected s x →
      ClosesBehind e (e.makeServerFullNotice maxSessionCount) s x := by
  constructor
  · intro s h hx
    have hi : Refusing e maxSessionCount True s x :=
      Refusing.reaches hb (fun _ _ ha => ⟨ha,Or.inl trivial⟩) h
    have hk := reaches_known (h.mono fun _ _ => Regular.admission) x
    refine ⟨hi.noticeOnly hx.2,hk.unserved hx.2,fun s' h' => ?_⟩
    refine (h'.invariant (P:=fun s => Refusing e maxSessionCount True s x ∧ Rejected s x) ⟨hi,hx⟩
      ?_).2
    rintro s a s' ⟨hi,hx⟩ ha hs
    exact ⟨hi.step hb ha (Or.inl trivial) hs,hi.rejected hx ha hs⟩
  · intro s h hx
    have hi : Refusing e maxSessionCount False s x :=
      Refusing.reaches hb (fun _ _ ha => ⟨ha.1,Or.inr ha.2⟩) h
    exact hi.closesBehind hx hb

/-- A notice of two bytes. -/
def shortNotice : Env := { asciiEnv with makeServerFullNotice := fun _ => SendBuffer.copyData [1,2] }

/-- A test for undisturbed calls that can be run. -/
def undisturbed (s : State T S) : Action T S → Bool
  | .enter _ x .offer => !(s.cores x).offered && !(s.cores x).closing
  | .enter _ _ (.sendCompleted numOfBytes) => 0<numOfBytes.toInt
  | .enter _ _ _ => false
  | .run _ ok _ => ok

theorem undisturbed_sound (x : S) (s : State T S) (a : Action T S) (h : undisturbed s a) :
    Regular s a ∧ Undisturbed x s a := by
  cases a with
  | run t ok recv => exact ⟨trivial,fun _ => h⟩
  | enter t y entry =>
    cases entry with
    | offer =>
      simp only [undisturbed,Bool.and_eq_true,Bool.not_eq_eq_eq_not,Bool.not_true] at h
      exact ⟨h,fun _ => trivial⟩
    | sendCompleted numOfBytes =>
      simp only [undisturbed,decide_eq_true_eq] at h
      exact ⟨trivial,fun _ => h⟩
    | _ => cases h

/-- A full server: the first byte of the notice is handed over and the second one in flight. -/
theorem rejected_gets_notice_partial :
    ∃ s : State Unit Unit, Reaches (step shortNotice)
        (fun s a => Regular s a ∧ Undisturbed () s a) (State.init 0) s ∧
      Rejected s () ∧ (s.cores ()).pipe.wire=[1] ∧ (s.cores ()).pipe.flight=some [2] ∧
      (s.cores ()).pipe.isConnect ∧ NoticeOnly (SendBuffer.copyData [1,2]) s () ∧ Unserved s () := by
  let run (n : Nat) : List (Action Unit Unit) := List.replicate n (.run () true .wait)
  have hrun : (runActions (fun (s : State Unit Unit) a =>
        if undisturbed s a then step shortNotice s a else none) (State.init 0)
      ([.enter () () .offer]++run 11++[.enter () () (.sendCompleted 1)]++run 6)).map
      (fun s => ((s.cores ()).pipe.wire,(s.cores ()).pipe.flight,
        [(s.cores ()).hadConnected,(s.cores ()).admitted]))=
      some ([1],some [2],[true,false]) := by decide +kernel
  obtain ⟨s,hs,hfields⟩ := Option.map_eq_some_iff.mp hrun
  simp only [Prod.mk.injEq,List.cons.injEq,and_true] at hfields
  obtain ⟨hwire,hfly,hhad,hadm⟩ := hfields
  have hreach := Reaches.of_guarded (undisturbed_sound ()) _ hs
  have hregular := Reaches.of_guarded (fun s a h => (undisturbed_sound () s a h).1) _ hs
  obtain ⟨hall,hclose⟩ := rejected_gets_notice (T:=Unit) shortNotice 0 () (by decide)
  obtain ⟨hnotice,hunserved,-⟩ := hall s hregular ⟨hhad,hadm⟩
  have hpart : (s.cores ()).pipe.wire≠(SendBuffer.copyData [1,2]).bytes := by
    rw [hwire]
    decide
  exact ⟨s,hreach,⟨hhad,hadm⟩,hwire,hfly,((hclose s hreach ⟨hhad,hadm⟩).before hpart).1,hnotice,
    hunserved⟩

end IocpServer.Server
