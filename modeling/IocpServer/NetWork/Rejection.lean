import IocpServer.NetWork.Quiescence

namespace IocpServer.NetWork.Lifecycle

open SendPipeline (At advance)

variable {R : Type}

/-- How a running server calls a session: sends and disconnects from outside find it in the list of
sessions or in a registry, and it is told to shut down when its admission is over. -/
def Reached (l : Local R) : Entry → Prop
  | .offer => l.core.offered=false ∧ l.core.closing=false
  | .send _ | .disconnect => l.core.admitted
  | .beginShutdown => tok Frame.admitting l.frames=0
  | _ => True

theorem Reached.allowed {l : Local R} {e : Entry} (h : Reached l e) : Allowed l e := by
  cases e with
  | offer => exact h
  | beginShutdown =>
    have hle : tok Frame.fresh l.frames ≤ tok Frame.admitting l.frames := by
      apply tok_mono
      intro f
      cases f <;> simp [Frame.fresh,Frame.admitting]
    exact Nat.le_zero.mp (hle.trans h.le)
  | _ => trivial

/-- The session as `reject_connection` finds it and as it leaves it; nobody else knows the session
yet. -/
def Frame.alone : Frame R → Option (Core R)
  | .addSession | .rejectConnection => some { Core.init with offered := true }
  | .rejectStore | .rejectClose =>
    some { Core.init with
      pipe := SendPipeline.Session.init false, offered := true, hadConnected := true }
  | .rejectCount | .rejectNotice =>
    some { Core.init with
      pipe := SendPipeline.Session.init true, offered := true, hadConnected := true }
  | _ => none

/-- The thread is in the send path. -/
def Frame.sending : Frame R → Nat
  | .pipe pc =>
    match pc with
    | .idle | .registerDisconnect | .processDisconnect | .closeFlags | .beginShutdown => 0
    | _ => 1
  | _ => 0

/-- The thread has not put its buffer into the send queue. -/
def Frame.offering : Frame R → Nat
  | .pipe (.send _) | .pipe (.enqueue _) => 1
  | _ => 0

def Frame.requeueing : Frame R → Nat
  | .pipe .requeue => 1
  | _ => 0

/-- The notice of a rejected client is on its way: one thread or one registered send carries it, and
its end disconnects. -/
structure Notice (l : Local R) : Prop where
  one : tok Frame.sending l.frames+l.core.pipe.flight.isSome.toNat=1
  first : 0<tok Frame.offering l.frames → l.core.pipe.isSendRegister=false
  close : l.core.pipe.closeAfterSend
  last : tok Frame.requeueing l.frames=0

/-- A session that was not added: untouched, alone in its rejection, or kept connected by its
notice only. -/
structure Rejection (l : Local R) : Prop where
  untouched : l.core.offered=false → l.core.closing=false → l=⟨Core.init,0⟩
  alone : ∀ f∈l.frames, ∀ c, f.alone=some c → l=⟨c,{f}⟩
  notice : l.core.admitted=false → l.core.pipe.isConnect →
    (∃ f∈l.frames, f.alone.isSome) ∨ Notice l

theorem Rejection.init : Rejection (⟨Core.init,0⟩ : Local R) := by
  constructor <;> simp [Core.init,SendPipeline.Session.init]

attribute [local simp] Frame.sending Frame.offering Frame.requeueing

theorem offering_le_sending (m : Multiset (Frame R)) :
    tok Frame.offering m ≤ tok Frame.sending m := by
  apply tok_mono
  intro f
  cases f with
  | pipe pc => cases pc <;> simp
  | _ => simp

section

variable {c c' : Core R} {o : Choice R} {m : Multiset (Frame R)}

/-- The notice is passed on: its carrier stays one, and who has not queued its buffer yet finds
`_is_send_register` as it was or free, unless the carrier was the last one. -/
theorem Notice.next {f : Frame R} {fs : List (Frame R)} (h : Notice ⟨c,f::ₘm⟩)
    (hone : (fs.map Frame.sending).sum+c'.pipe.flight.isSome.toNat=
      f.sending+c.pipe.flight.isSome.toNat)
    (hfirst : c'.pipe.isSendRegister=false ∨ (fs.map Frame.offering).sum ≤ f.offering ∧
      (c'.pipe.isSendRegister=c.pipe.isSendRegister ∨
        f.sending=1 ∧ (fs.map Frame.offering).sum=0))
    (hclose : c'.pipe.closeAfterSend=c.pipe.closeAfterSend)
    (hlast : (fs.map Frame.requeueing).sum=0) : Notice ⟨c',beside fs m⟩ := by
  have hle := offering_le_sending m
  obtain ⟨hone₀,hfirst₀,hclose₀,hlast₀⟩ := h
  simp only [tok_cons] at hone₀ hfirst₀ hlast₀
  constructor
  · simp only [tok_beside]
    omega
  · simp only [tok_beside]
    intro hpos
    rcases hfirst with hfree|⟨hsum,hsame|⟨hsole,hnone⟩⟩
    · exact hfree
    · exact hsame.trans (hfirst₀ (by omega))
    · omega
  · exact hclose.trans hclose₀
  · simp only [tok_beside]
    omega

/-- The notice goes on through the send path. -/
theorem Notice.pipe {ok : Bool} {pc pc' : At} {p : SendPipeline.Session}
    (h : Notice ⟨c,.pipe pc::ₘm⟩) (ha : advance c.pipe ok pc=some (p,pc'))
    (hs : c.pipe.shutdownStarted=false) (hc : c.pipe.isConnect) (hc' : p.isConnect) :
    Notice ⟨pipeEffect c ok pc p,beside (pipeNext pc pc') m⟩ := by
  obtain ⟨n,d,heq⟩ := pipeEffect_eq c ok pc p
  rw [heq]
  have hclose : c.pipe.closeAfterSend := h.close
  have hoff : c.pipe.isConnect≠false := by simp [hc]
  cases SendPipeline.advance_move ha with
  | sendOff _ hfalse | enqueueOff _ hfalse | completedOff _ hfalse | closed _ hfalse =>
    exact absurd hfalse hoff
  | registerOff hfalse =>
    rcases hfalse with hfalse|hfalse
    · rw [hs] at hfalse
      cases hfalse
    · exact absurd hfalse hoff
  | close | closeFlags | beginShutdown => cases hc'
  | emptied | requeue =>
    have hlast := h.last
    simp at hlast
  | accept =>
    have hfree : c.pipe.isSendRegister=false := h.first (by simp)
    rw [hfree]
    exact h.next rfl (Or.inr ⟨Nat.zero_le _,Or.inr ⟨rfl,rfl⟩⟩) rfl rfl
  | nothing =>
    rw [if_pos hclose]
    exact h.next rfl (Or.inl rfl) rfl rfl
  | fly =>
    refine h.next ?_ (Or.inr ⟨le_rfl,Or.inl rfl⟩) rfl rfl
    have hone := h.one
    simp only [tok_cons,Frame.sending] at hone
    show 0+1=1+c.pipe.flight.isSome.toNat
    omega
  | whole =>
    rw [if_pos hclose]
    exact h.next rfl (Or.inr ⟨le_rfl,Or.inl rfl⟩) rfl rfl
  | failed | refused | flushed => exact h.next rfl (Or.inl rfl) rfl rfl
  | overflow => exact h.next rfl (Or.inr ⟨Nat.zero_le _,Or.inl rfl⟩) rfl rfl
  | _ => exact h.next rfl (Or.inr ⟨le_rfl,Or.inl rfl⟩) rfl rfl

/-- A thread that is alone in the session goes on alone, or it hands over to the notice. -/
theorem Rejection.fire_alone {f : Frame R} {fs : List (Frame R)} (hf : f.alone=some c)
    (hx : exec c o f=some (c',fs)) : Rejection ⟨c',beside fs 0⟩ := by
  cases exec_move hx with
  | full | added | known | connected | rejectConnection | rejectStore | rejectClose | rejectCount
  | noNotice | notice =>
    cases hf
    constructor
    all_goals simp_all [beside,Core.init,SendPipeline.Session.init,Frame.alone,Lifecycle.disconnect]
    all_goals constructor <;> simp [tok]
  | _ => cases hf

theorem alone_eq_none {f : Frame R} (h : f.admitting=0) : f.alone=none := by
  cases f <;> first | rfl | cases h

/-- Other threads do not lead into an admission. -/
theorem exec_not_alone {f : Frame R} {fs : List (Frame R)} (hx : exec c o f=some (c',fs))
    (hf : f.alone=none) :
    c'.offered=c.offered ∧ c'.admitted=c.admitted ∧ ∀ g∈fs, g.alone=none := by
  by_cases ha : f.admitting=0
  · obtain ⟨ho,had,-,-,hsum⟩ := exec_settled hx ha
    refine ⟨ho,had,?_⟩
    intro g hg
    exact alone_eq_none (List.sum_eq_zero_iff.mp hsum _ (List.mem_map_of_mem hg))
  · cases f with
    | processConnect | storeConnect | countConnect =>
      cases hx
      exact ⟨rfl,rfl,by simp [Frame.alone]⟩
    | addSession | rejectConnection | rejectStore | rejectClose | rejectCount | rejectNotice =>
      cases hf
    | _ => exact absurd rfl ha

/-- A step of a thread that keeps a rejected session connected keeps its notice on the way. -/
theorem Notice.fire {f : Frame R} {fs : List (Frame R)} (h : Notice ⟨c,f::ₘm⟩)
    (ha : Account ⟨c,f::ₘm⟩) (hw : Welcome ⟨c,f::ₘm⟩) (hb : Books ⟨c,f::ₘm⟩)
    (hg : Greeting ⟨c,f::ₘm⟩) (hf : f.alone=none) (hnot : c.admitted=false) (hc : c.pipe.isConnect)
    (hx : exec c o f=some (c',fs)) (hc' : c'.pipe.isConnect) : Notice ⟨c',beside fs m⟩ := by
  have hreceives : f.receives=0 := by
    by_contra hne
    have hadm := hg.welcomed (hw (by simp only [tok_cons]; omega))
    rw [hnot] at hadm
    cases hadm
  have hgreets : f.greeting=0 := by
    by_contra hne
    have hadm := hg.greeted (by simp only [tok_cons]; omega)
    rw [hnot] at hadm
    cases hadm
  have hcleans : f.cleaning=0 := by
    have hq := (ha.of_connect hc).1
    have hr := ha.ran
    simp only [tok_cons] at hq hr
    omega
  have hstarted : c.pipe.shutdownStarted=false := by
    by_contra hne
    have hoff := (hb.stopped (by simpa using hne)).2.1
    rw [hc] at hoff
    cases hoff
  cases exec_move hx with
  | full | added | known | connected | rejectConnection | rejectStore | rejectClose | rejectCount
  | noNotice | notice => cases hf
  | processConnect | storeConnect => cases hgreets
  | countConnect | recvOff | receive | recvFailed | received | receivedOff | unreadable | wait
  | malformed | skip | packet | recvNext | recvEnd | postLogic | stopped | handle | drop =>
    cases hreceives
  | pipe ok pc p pc' hadv =>
    apply h.pipe hadv hstarted hc
    obtain ⟨n,b,heq⟩ := pipeEffect_eq c ok pc p
    rw [heq] at hc'
    exact hc'
  | cleanup => cases hcleans
  | done cleanup | next cleanup | send cleanup | disconnect cleanup =>
    cases cleanup with
    | false => cases hreceives
    | true => cases hcleans
  | queueCleanup | endJob | finishIo => exact h.next rfl (Or.inr ⟨le_rfl,Or.inl rfl⟩) rfl rfl

theorem Rejection.fire {f : Frame R} {fs : List (Frame R)} (h : Rejection ⟨c,f::ₘm⟩)
    (ha : Account ⟨c,f::ₘm⟩) (hw : Welcome ⟨c,f::ₘm⟩) (hb : Books ⟨c,f::ₘm⟩)
    (hg : Greeting ⟨c,f::ₘm⟩) (hx : exec c o f=some (c',fs)) : Rejection ⟨c',beside fs m⟩ := by
  by_cases halone : ∃ g∈f::ₘm, g.alone.isSome
  · obtain ⟨g,hmem,hsome⟩ := halone
    obtain ⟨d,hd⟩ := Option.isSome_iff_exists.mp hsome
    have heq := h.alone g hmem d hd
    injection heq with hcore hframes
    obtain ⟨rfl,rfl⟩ := (Multiset.singleton_eq_cons_iff m).mp hframes.symm
    subst hcore
    exact Rejection.fire_alone hd hx
  · have hnone : ∀ g∈f::ₘm, g.alone=none := by
      intro g hmem
      by_contra hne
      exact halone ⟨g,hmem,Option.isSome_iff_ne_none.mpr hne⟩
    have hf := hnone f (Multiset.mem_cons_self f m)
    obtain ⟨hoff,hadm,hfs⟩ := exec_not_alone hx hf
    obtain ⟨hclosing,hflags⟩ := exec_flags hx
    constructor
    · intro hno hcl
      have heq := h.untouched (hoff.symm.trans hno) (hclosing.symm.trans hcl)
      injection heq with _ hframes
      exact absurd hframes (Multiset.cons_ne_zero)
    · intro g hmem d hd
      have hg : g.alone=none := by
        rcases Multiset.mem_add.mp hmem with hin|hin
        · exact hfs g (Multiset.mem_coe.mp hin)
        · exact hnone g (Multiset.mem_cons_of_mem hin)
      rw [hg] at hd
      cases hd
    · intro hnot hc'
      have hnot' : c.admitted=false := hadm.symm.trans hnot
      have hc : c.pipe.isConnect := by
        rcases hflags with ⟨-,-,-,-,hoff⟩|⟨-,-,-,hcon,-⟩
        · rw [hoff] at hc'
          cases hc'
        · refine (hcon hc').resolve_right ?_
          intro hfresh
          cases f with
          | processConnect | storeConnect =>
            have hadm := hg.greeted (by simp [Frame.greeting])
            rw [hnot'] at hadm
            cases hadm
          | addSession | rejectConnection => cases hf
          | _ => cases hfresh
      have hnotice := (h.notice hnot' hc).resolve_left halone
      exact Or.inr (hnotice.fire ha hw hb hg hf hnot' hc hx hc')

/-- What a thread that is alone in a session leaves out. -/
theorem alone_core {f : Frame R} (h : f.alone=some c) :
    c.receiving=false ∧ c.pipe.flight=none ∧ c.pipe.disconnecting=false ∧ c.jobs=[] ∧
      c.admitted=false ∧ c.offered ∧
      c.pipe={ c.pipe with sendQueue := [], sendEvent := SendEvent.clear } := by
  cases f <;> cases h <;> exact ⟨rfl,rfl,rfl,rfl,rfl,rfl,rfl⟩

theorem not_alone_of_enter {e : Entry} {fs : List (Frame R)} (hx : enter c e=some (c',fs))
    (he : e≠.offer) : ∀ g∈fs, g.alone=none := by
  cases enter_enters hx with
  | offer => exact absurd rfl he
  | _ => simp [Lifecycle.disconnect,Frame.alone]

theorem enter_histories {e : Entry} {fs : List (Frame R)} (hx : enter c e=some (c',fs))
    (he : e≠.offer) :
    c'.offered=c.offered ∧ c'.admitted=c.admitted ∧ (c'.closing=false → c.closing=false) := by
  cases enter_enters hx with
  | offer => exact absurd rfl he
  | beginShutdown => exact ⟨rfl,rfl,by simp⟩
  | _ => exact ⟨rfl,rfl,id⟩

theorem Rejection.not_alone (h : Rejection ⟨c,m⟩) (hne : ∀ f : Frame R, f.alone≠some c) :
    ∀ f∈m, f.alone=none := by
  intro f hmem
  by_contra hsome
  obtain ⟨d,hd⟩ := Option.ne_none_iff_exists'.mp hsome
  have heq := h.alone f hmem d hd
  injection heq with hcore _
  subst hcore
  exact hne f hd

/-- A session that was entered otherwise than by its offer is neither untouched nor alone. -/
theorem Rejection.of_known {e : Entry} {fs : List (Frame R)} (h : Rejection ⟨c,m⟩)
    (hx : enter c e=some (c',fs)) (he : e≠.offer) (hno : c'.closing=false → c≠Core.init)
    (hal : ∀ f∈m, f.alone=none) (hn : c.admitted=false → Notice ⟨c,m⟩ → Notice ⟨c',beside fs m⟩)
    (hcon : c'.pipe.isConnect=c.pipe.isConnect) : Rejection ⟨c',beside fs m⟩ := by
  obtain ⟨hoff,hadm,hcl⟩ := enter_histories hx he
  constructor
  · intro h0 hclose
    have heq := h.untouched (hoff.symm.trans h0) (hcl hclose)
    injection heq with hcore _
    exact absurd hcore (hno hclose)
  · intro g hmem d hd
    have hg : g.alone=none := by
      rcases Multiset.mem_add.mp hmem with hin|hin
      · exact not_alone_of_enter hx he g (Multiset.mem_coe.mp hin)
      · exact hal g hin
    rw [hg] at hd
    cases hd
  · intro h0 hc
    have h0' : c.admitted=false := hadm.symm.trans h0
    refine Or.inr (hn h0' ((h.notice h0' (hcon.symm.trans hc)).resolve_left ?_))
    rintro ⟨g,hmem,hsome⟩
    rw [hal g hmem] at hsome
    cases hsome

/-- A session that was added is entered. -/
theorem Rejection.of_admitted {e : Entry} {fs : List (Frame R)} (h : Rejection ⟨c,m⟩)
    (hx : enter c e=some (c',fs)) (he : e≠.offer) (hadm : c.admitted)
    (hcon : c'.pipe.isConnect=c.pipe.isConnect) : Rejection ⟨c',beside fs m⟩ := by
  apply h.of_known hx he
  · rintro - rfl
    cases hadm
  · apply h.not_alone
    intro f hf
    rw [(alone_core hf).2.2.2.2.1] at hadm
    cases hadm
  · intro hnot
    rw [hadm] at hnot
    cases hnot
  · exact hcon

theorem Rejection.offer (h : Rejection ⟨c,m⟩) (hoff : c.offered=false) (hcl : c.closing=false) :
    Rejection ⟨{ c with offered := true },beside [.addSession] m⟩ := by
  have heq := h.untouched hoff hcl
  injection heq with hcore hframes
  subst hcore hframes
  constructor
  · intro hfalse
    cases hfalse
  · simp [beside,Frame.alone]
  · intro _ hfalse
    cases hfalse

theorem Rejection.clearSend (h : Rejection ⟨c,m⟩) :
    Rejection ⟨{ c with pipe := { c.pipe with sendQueue := [], sendEvent := SendEvent.clear } },
      beside [] m⟩ := by
  have hm : beside [] m=m := by simp [beside]
  rw [hm]
  constructor
  · intro hoff hcl
    have heq := h.untouched hoff hcl
    injection heq with hcore hframes
    subst hcore hframes
    rfl
  · intro f hmem d hd
    have heq := h.alone f hmem d hd
    injection heq with hcore hframes
    subst hcore hframes
    rw [← (alone_core hd).2.2.2.2.2.2]
  · intro hnot hc
    refine (h.notice hnot hc).imp_right fun hn => ?_
    exact ⟨hn.one,hn.first,hn.close,hn.last⟩

/-- Entering a session as a running server does keeps what is known of rejected sessions. -/
theorem Rejection.enter {e : Entry} {fs : List (Frame R)} (h : Rejection ⟨c,m⟩)
    (hw : Welcome ⟨c,m⟩) (hg : Greeting ⟨c,m⟩) (hr : Reached ⟨c,m⟩ e)
    (hx : enter c e=some (c',fs)) : Rejection ⟨c',beside fs m⟩ := by
  cases enter_enters hx with
  | offer => exact h.offer hr.1 hr.2
  | clearSend => exact h.clearSend
  | send | disconnect => exact h.of_admitted hx (by simp) hr rfl
  | recvCompleted n hrecv =>
    exact h.of_admitted hx (by simp) (hg.welcomed (hw (by simp [hrecv]))) rfl
  | beginShutdown =>
    refine h.of_known hx (by simp) (by simp) ?_ ?_ rfl
    · intro f hf
      apply alone_eq_none
      by_contra hne
      have := tok_pos_of_mem hf (Nat.pos_of_ne_zero hne)
      simp only [Reached] at hr
      omega
    · intro _ hn
      exact ⟨by simpa using hn.one,by simpa using hn.first,hn.close,by simpa using hn.last⟩
  | sendCompleted n bytes hfly =>
    refine h.of_known hx (by simp) ?_ ?_ ?_ rfl
    · rintro - rfl
      cases hfly
    · apply h.not_alone
      intro f hf
      rw [(alone_core hf).2.1] at hfly
      cases hfly
    · intro _ hn
      have hone := hn.one
      have hle := offering_le_sending m
      simp only [hfly,Option.isSome_some,Bool.toNat_true] at hone
      refine ⟨?_,?_,hn.close,by simpa using hn.last⟩
      · simp
        omega
      · simp only [tok_beside,List.map_cons,List.map_nil,Frame.offering,List.sum_cons,List.sum_nil]
        intro hpos
        omega
  | disconnectCompleted hdisc =>
    refine h.of_known hx (by simp) ?_ ?_ ?_ rfl
    · rintro - rfl
      cases hdisc
    · apply h.not_alone
      intro f hf
      rw [(alone_core hf).2.2.1] at hdisc
      cases hdisc
    · intro _ hn
      exact ⟨by simpa using hn.one,by simpa using hn.first,hn.close,by simpa using hn.last⟩
  | startJob j rest hjobs =>
    refine h.of_known hx (by simp) ?_ ?_ ?_ rfl
    · rintro - rfl
      cases hjobs
    · apply h.not_alone
      intro f hf
      rw [(alone_core hf).2.2.2.1] at hjobs
      cases hjobs
    · intro _ hn
      exact ⟨by simpa using hn.one,by simpa using hn.first,hn.close,by simpa using hn.last⟩

theorem Rejection.step {l l' : Local R} (h : Rejection l) (ha : Account l) (hw : Welcome l)
    (hb : Books l) (hg : Greeting l) (hs : Step Reached l l') : Rejection l' := by
  cases hs with
  | fire o m hx => exact h.fire ha hw hb hg hx
  | enter hr hx => exact h.enter hw hg hr hx

end

/-- A session that was not added and that no thread, registered send or completion carries is not
connected. -/
theorem Rejection.off {l : Local R} (h : Rejection l) (hnot : l.core.admitted=false)
    (hframes : l.frames=0) (hfly : l.core.pipe.flight=none) : l.core.pipe.isConnect=false := by
  by_contra hne
  rcases h.notice hnot (by simpa using hne) with ⟨f,hf,-⟩|hn
  · rw [hframes] at hf
    exact absurd hf (Multiset.notMem_zero f)
  · have hone := hn.one
    simp [hframes,hfly,tok] at hone

theorem exec_offered {c c' : Core R} {o : Choice R} {f : Frame R} {fs : List (Frame R)}
    (hx : exec c o f=some (c',fs)) : c'.offered=c.offered := by
  cases exec_move hx with
  | pipe ok pc p =>
    obtain ⟨n,b,heq⟩ := pipeEffect_eq c ok pc p
    rw [heq]
  | _ => rfl

/-- A session is offered and told to shut down by calls only. -/
theorem Step.calls {ok : Local R → Entry → Prop} {l l' : Local R} (hs : Step ok l l') :
    (¬ok l .offer → l'.core.offered=l.core.offered) ∧
      (¬ok l .beginShutdown → l'.core.closing=l.core.closing) := by
  cases hs with
  | fire o m hx => exact ⟨fun _ => exec_offered hx,fun _ => (exec_flags hx).1⟩
  | @enter c c' fs e m ha hx =>
    cases enter_enters hx with
    | offer => exact ⟨fun hno => absurd ha hno,fun _ => rfl⟩
    | beginShutdown => exact ⟨fun _ => rfl,fun hno => absurd ha hno⟩
    | _ => exact ⟨fun _ => rfl,fun _ => rfl⟩

/-- What is known of a session in a running server. -/
structure Sound (l : Local R) : Prop where
  account : Account l
  welcome : Welcome l
  books : Books l
  greeting : Greeting l
  rejection : Rejection l

theorem Sound.init : Sound (⟨Core.init,0⟩ : Local R) :=
  ⟨Account.init,Welcome.init,Books.init,Greeting.init,Rejection.init⟩

theorem Sound.step {l l' : Local R} (h : Sound l) (hs : Step Reached l l') : Sound l' := by
  constructor
  · exact h.account.step (fun _ _ => Reached.allowed) hs
  · exact h.welcome.step hs
  · exact h.books.step h.account hs
  · exact h.greeting.step h.account hs
  · exact h.rejection.step h.account h.welcome h.books h.greeting hs

end IocpServer.NetWork.Lifecycle
