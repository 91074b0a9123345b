import IocpServer.TestClient.PendingIo

namespace IocpServer.TestClient.ClientServer

variable {S β : Type} {e : Env β} [DecidableEq S]

namespace Call

/-- The threads that are in `stop` and hold `_stop_lock`. -/
def stopping : Call S β → Nat
  | .stop .acquire => 0
  | .stop _ => 1
  | _ => 0

/-- The thread of worker `w`. -/
def dispatching (w : Nat) : Call S β → Nat
  | .dispatch v => if v=w then 1 else 0
  | _ => 0

/-- Neither a worker nor a thread in `stop`. -/
def plain : Call S β → Bool
  | .stop _ | .dispatch _ => false
  | _ => true

end Call

/-- The calls change, the workers and the threads in `stop` stay where they are. -/
structure Calm (old fs : List (Call S β)) : Prop where
  stopping : Pool.total Call.stopping fs=Pool.total Call.stopping old
  dispatching : ∀ w, Pool.total (Call.dispatching w) fs=Pool.total (Call.dispatching w) old
  phase : ∀ p, .stop p∈fs → .stop p∈old

omit [DecidableEq S] in
theorem total_plain {cs : List (Call S β)} (h : ∀ c∈cs, c.plain=true) :
    Pool.total Call.stopping cs=0 ∧ (∀ w, Pool.total (Call.dispatching w) cs=0) ∧
      ∀ p, .stop p∉cs := by
  induction cs with
  | nil => exact ⟨rfl,fun _ => rfl,nofun⟩
  | cons c cs ih =>
    obtain ⟨h1,h2,h3⟩ := ih fun d hd => h d (List.mem_cons_of_mem c hd)
    have hc := h c List.mem_cons_self
    cases c with
    | stop | dispatch => cases hc
    | _ =>
      refine ⟨by rw [Pool.total_cons,h1]; rfl,fun w => by rw [Pool.total_cons,h2]; rfl,fun p hp => ?_⟩
      rcases List.mem_cons.mp hp with hp|hp
      · cases hp
      · exact h3 p hp

omit [DecidableEq S] in
theorem plain_bodies (x : S) (fs : List (Frame β)) :
    ∀ c∈fs.map (Call.body x), c.plain=true := by
  intro c hc
  obtain ⟨f,-,rfl⟩ := List.mem_map.mp hc
  rfl

omit [DecidableEq S] in
theorem Calm.of_plain {before after : List (Call S β)} (hbefore : ∀ c∈before, c.plain=true)
    (hafter : ∀ c∈after, c.plain=true) (rest : List (Call S β)) :
    Calm (before++rest) (after++rest) := by
  obtain ⟨h1,h2,h3⟩ := total_plain hbefore
  obtain ⟨h4,h5,h6⟩ := total_plain hafter
  refine ⟨by simp [h1,h4],fun w => by simp [h2 w,h5 w],fun p hp => ?_⟩
  rcases List.mem_append.mp hp with hp|hp
  · exact absurd hp (h6 p)
  · exact List.mem_append_right _ hp

omit [DecidableEq S] in
theorem Calm.plain {before after : List (Call S β)} (hbefore : ∀ c∈before, c.plain=true)
    (hafter : ∀ c∈after, c.plain=true) : Calm before after := by
  simpa using Calm.of_plain hbefore hafter []

/-- What `stop` has reached at each of its statements. -/
def Phase (c : Core S β) : Stop S → Prop
  | .acquire | .begin | .closeHandle | .release => True
  | .disconnect todo sessions => c.server.stopped=true ∧ sessions=c.server.sessions ∧
      (∀ x∈todo, x∈c.server.sessions) ∧ ∀ x∈c.server.sessions, x∈todo ∨ (c.clients x).Shut
  | .drain todo | .wait todo => c.server.stopped=true ∧
      ∀ x∈c.server.sessions, (c.clients x).Shut ∧ (x∈todo ∨ (c.clients x).Done)
  | .post _ => c.server.stopped=true ∧ ∀ x∈c.server.sessions, (c.clients x).Done
  | .join todo => c.server.stopped=true ∧ (∀ x∈c.server.sessions, (c.clients x).Done) ∧
      ∀ w∈c.server.workerThreads, w∈todo ∨ w∈c.server.quitTaken
  | .clear => c.server.stopped=true ∧ (∀ x∈c.server.sessions, (c.clients x).Done) ∧
      ∀ w∈c.server.workerThreads, w∈c.server.quitTaken

omit [DecidableEq S] in
/-- While a `stop` is under way, sessions and workers do not change any more. -/
theorem Phase.mono {c c' : Core S β} {p : Stop S} (h : Phase c p)
    (hclients : ∀ x, Keeps (c.clients x) (c'.clients x))
    (hserver : c.server.stopped=true → c'.server.stopped=true ∧
      c'.server.sessions=c.server.sessions ∧ c'.server.workerThreads=c.server.workerThreads)
    (hquit : ∀ w∈c.server.quitTaken, w∈c'.server.quitTaken) : Phase c' p := by
  cases p with
  | acquire | begin | closeHandle | release => trivial
  | disconnect todo sessions =>
    obtain ⟨hstopped,hsame,htodo,hshut⟩ := h
    obtain ⟨hstopped',hsessions,-⟩ := hserver hstopped
    refine ⟨hstopped',hsame.trans hsessions.symm,fun x hx => hsessions ▸ htodo x hx,fun x hx => ?_⟩
    exact (hshut x (hsessions ▸ hx)).imp id fun hs => ((hclients x).shut hs).1
  | drain todo | wait todo =>
    obtain ⟨hstopped,hdone⟩ := h
    obtain ⟨hstopped',hsessions,-⟩ := hserver hstopped
    refine ⟨hstopped',fun x hx => ?_⟩
    obtain ⟨hs,hd⟩ := hdone x (hsessions ▸ hx)
    exact ⟨((hclients x).shut hs).1,hd.imp id (hclients x).done⟩
  | post n =>
    obtain ⟨hstopped,hdone⟩ := h
    obtain ⟨hstopped',hsessions,-⟩ := hserver hstopped
    exact ⟨hstopped',fun x hx => (hclients x).done (hdone x (hsessions ▸ hx))⟩
  | join todo =>
    obtain ⟨hstopped,hdone,hworkers⟩ := h
    obtain ⟨hstopped',hsessions,hthreads⟩ := hserver hstopped
    refine ⟨hstopped',fun x hx => (hclients x).done (hdone x (hsessions ▸ hx)),fun w hw => ?_⟩
    exact (hworkers w (hthreads ▸ hw)).imp id (hquit w)
  | clear =>
    obtain ⟨hstopped,hdone,hworkers⟩ := h
    obtain ⟨hstopped',hsessions,hthreads⟩ := hserver hstopped
    exact ⟨hstopped',fun x hx => (hclients x).done (hdone x (hsessions ▸ hx)),
      fun w hw => hquit w (hworkers w (hthreads ▸ hw))⟩

structure Inv (e : Env β) (c : Core S β) (calls : Multiset (Call S β)) : Prop where
  tally : ∀ x, Tally e x (c.clients x) calls
  linked : ∀ x∈c.server.sessions, (c.clients x).Linked
  closed : ∀ y∈c.server.closed, (c.clients y.1).Shut ∧ (c.clients y.1).begun=y.2
  released : ∀ x∈c.server.released, (c.clients x).Done
  stopping : Pool.weight Call.stopping calls=c.server.stopLock.toNat
  phase : ∀ p, .stop p∈calls → Phase c p
  workers : ∀ w, c.server.unborn.count w+Pool.weight (Call.dispatching w) calls+
    c.server.quitTaken.count w=if w<c.server.created then 1 else 0

namespace Inv

variable {c : Core S β} {old fs : List (Call S β)} {m : Multiset (Call S β)} {x : S} {k' : Client β}

theorem init (botIndex : S → UInt32) : Inv e (Core.init botIndex : Core S β) 0 := by
  refine ⟨fun x => ⟨rfl,rfl,nofun,nofun⟩,nofun,nofun,nofun,rfl,nofun,fun w => ?_⟩
  simp [Core.init]

theorem keeps_update (c : Core S β) (hk : Keeps (c.clients x) k') (y : S) :
    Keeps (c.clients y) ((c.setClient x k').clients y) := by
  by_cases hy : y=x
  · rw [hy]
    simpa [Core.setClient] using hk
  · simpa [Core.setClient,Function.update_of_ne hy] using Keeps.refl (c.clients y)

/-- A step at the session `x`. -/
theorem client (h : Inv e c (old+m)) (hx : Tally e x k' (fs+m))
    (hold : ∀ y, y≠x → Apart y old) (hfs : ∀ y, y≠x → Apart y fs)
    (hk : Keeps (c.clients x) k') (hcalm : Calm old fs) : Inv e (c.setClient x k') (fs+m) := by
  have hkeeps := keeps_update c hk
  obtain ⟨h1,h2,h3,h4,h5,h6,h7⟩ := h
  refine ⟨fun y => ?_,fun y hy => (hkeeps y).linked (h2 y hy),
    fun y hy => ?_,fun y hy => (hkeeps y).done (h4 y hy),?_,?_,?_⟩
  · by_cases hy : y=x
    · rw [hy]
      simpa [Core.setClient] using hx
    · simpa [Core.setClient,Function.update_of_ne hy] using (h1 y).frame (hold y hy) (hfs y hy)
  · obtain ⟨hshut,hbegun⟩ := h3 y hy
    obtain ⟨hshut',hsame⟩ := (hkeeps y.1).shut hshut
    exact ⟨hshut',hsame.trans hbegun⟩
  · rw [Pool.weight_add] at h5 ⊢
    rw [hcalm.stopping]
    exact h5
  · intro p hp
    have hmem : .stop p∈(old : Multiset (Call S β))+m := by
      rcases Multiset.mem_add.mp hp with hp|hp
      · exact Multiset.mem_add.mpr (Or.inl (hcalm.phase p hp))
      · exact Multiset.mem_add.mpr (Or.inr hp)
    exact (h6 p hmem).mono hkeeps (fun hs => ⟨hs,rfl,rfl⟩) fun _ => id
  · intro w
    have hw := h7 w
    rw [Pool.weight_add] at hw ⊢
    rw [hcalm.dispatching w]
    exact hw

/-- A step that leaves the sessions alone. -/
theorem server (h : Inv e c (old+m)) (server' : Server S) (hold : ∀ y, Apart y old)
    (hfs : ∀ y, Apart y fs) (hlinked : ∀ y∈server'.sessions, (c.clients y).Linked)
    (hclosed : ∀ y∈server'.closed, (c.clients y.1).Shut ∧ (c.clients y.1).begun=y.2)
    (hreleased : ∀ y∈server'.released, (c.clients y).Done)
    (hstopping : Pool.total Call.stopping fs+c.server.stopLock.toNat=
      Pool.total Call.stopping old+server'.stopLock.toNat)
    (hphase : ∀ p, .stop p∈(fs : Multiset (Call S β))+m → Phase (c.setServer server') p)
    (hworkers : ∀ w, server'.unborn.count w+Pool.total (Call.dispatching w) fs+
      server'.quitTaken.count w+(if w<c.server.created then 1 else 0)=
      c.server.unborn.count w+Pool.total (Call.dispatching w) old+c.server.quitTaken.count w+
      (if w<server'.created then 1 else 0)) : Inv e (c.setServer server') (fs+m) := by
  obtain ⟨h1,-,-,-,h5,-,h7⟩ := h
  refine ⟨fun y => (h1 y).frame (hold y) (hfs y),hlinked,hclosed,hreleased,?_,hphase,?_⟩
  · rw [Pool.weight_add] at h5 ⊢
    change _=server'.stopLock.toNat
    omega
  · intro w
    have hw := h7 w
    have hw' := hworkers w
    rw [Pool.weight_add] at hw ⊢
    change server'.unborn.count w+_+server'.quitTaken.count w=if w<server'.created then 1 else 0
    omega

variable {c' : Core S β} {o : Choice} {f : Frame β}

theorem body (h : Inv e c (([.body x f] : List (Call S β))+m))
    (hs : c.body e o x f=some (c',fs)) : Inv e c' (fs+m) := by
  have hbody : ∀ y, Apart y ([.body x f] : List (Call S β)) := fun y => Apart.bodies y x [f]
  unfold Core.body at hs
  split at hs
  · cases hs
  · rename_i hlock
    split at hs
    · rename_i hb
      cases hs
      have hfree : (c.clients x).sendLock=false := by
        simpa [takesLock_of_begins hb] using hlock
      have hon := isConnect_of_begins hb
      refine h.client ((h.tally x).begin hfree hb) (fun y _ => hbody y) ?_ ?_
        (Calm.plain (by simp [Call.plain]) (by simp [Call.plain]))
      · intro y hy
        simp [Apart,Call.operation,Ne.symm hy]
      · have hopen : (c.clients x).session.isConnect≠false := by simp [hon]
        exact Keeps.of_later (Or.inl ⟨rfl,rfl⟩) (fun hoff => absurd hoff hopen)
          fun hshut => absurd hshut.1 hopen
    · rename_i hb
      obtain ⟨⟨d,gs⟩,hx,hr⟩ := Option.map_eq_some_iff.mp hs
      cases hr
      obtain ⟨hflight,hlater⟩ := exec_plain hx (Bool.eq_false_iff.mpr hb)
      have hready : (c.clients x).sendLock=false ∨ Ready (c.clients x).session d := by
        cases ht : takesLock e f with
        | true => exact Or.inl (by simpa [ht] using hlock)
        | false => exact Or.inr (exec_unlocked hx ht)
      exact h.client ((h.tally x).work (hbody x) (Apart.bodies x x gs) hflight hlater hready)
        (fun y _ => hbody y) (fun y _ => Apart.bodies y x gs)
        (Keeps.of_later hlater (fun _ => rfl) fun _ => id)
        (Calm.plain (plain_bodies x [f]) (plain_bodies x gs))

theorem calling (h : Inv e c (([.calling x f] : List (Call S β))+m))
    (hs : c.calling e o x f=some (c',fs)) : Inv e c' (fs+m) := by
  obtain ⟨⟨d,gs⟩,hx,hr⟩ := Option.map_eq_some_iff.mp hs
  cases hr
  have hmem : .calling x f∈(([.calling x f] : List (Call S β)) : Multiset (Call S β))+m :=
    Multiset.mem_add.mpr (Or.inl (by simp))
  have hpos := (h.tally x).positive hmem (by simp [Call.operation])
  obtain ⟨-,hon,hoff⟩ := exec_begins hx ((h.tally x).begins f hmem)
  refine h.client ((h.tally x).called hx) ?_ (fun y _ => Apart.bodies y x gs) ?_ ?_
  · intro y hy
    simp [Apart,Call.operation,Ne.symm hy]
  · refine Keeps.of_later (Or.inl ⟨hon,hoff⟩) (fun _ => rfl) fun _ hzero => ?_
    omega
  · exact Calm.plain (by simp [Call.plain]) (plain_bodies x gs)

theorem finishIo (h : Inv e c (([.finishIo x] : List (Call S β))+m)) :
    Inv e (c.finishIo x) (([] : List (Call S β))+m) := by
  have hmem : .finishIo x∈(([.finishIo x] : List (Call S β)) : Multiset (Call S β))+m :=
    Multiset.mem_add.mpr (Or.inl (by simp))
  have hpos := (h.tally x).positive hmem (by simp [Call.operation])
  refine h.client (h.tally x).finished ?_ (by simp [Apart]) ?_ ?_
  · intro y hy
    simp [Apart,Call.operation,Ne.symm hy]
  · refine Keeps.of_later (Or.inl ⟨rfl,rfl⟩) (fun _ => rfl) fun _ hzero => ?_
    omega
  · exact Calm.plain (by simp [Call.plain]) (by simp)

/-- A worker, or `stop` itself, takes a completion. -/
theorem complete {entry : Entry β} (before rest : List (Call S β))
    (h : Inv e c ((before++rest : List (Call S β))+m)) (hbefore : ∀ c∈before, c.plain=true)
    (hapart : ∀ y, Apart y before) (hrest : ∀ y, Apart y rest)
    (hentry : (∃ n, entry=.recvCompleted n) ∨ ∃ i n, entry=.sendCompleted i n)
    (hs : c.complete e x entry=some (c',fs)) : Inv e c' ((fs++rest : List (Call S β))+m) := by
  unfold Core.complete at hs
  split at hs
  · obtain ⟨⟨d,gs⟩,hx,hr⟩ := Option.map_eq_some_iff.mp hs
    cases hr
    obtain ⟨hflight,hready,hoff⟩ := enter_completed hx hentry
    refine h.client ((h.tally x).completed ((hapart x).append (hrest x)) (hrest x) hflight hready hoff)
      (fun y _ => (hapart y).append (hrest y)) ?_ ?_ ?_
    · intro y hy
      refine ((Apart.bodies y x gs).append ?_).append (hrest y)
      simp [Apart,Call.operation,Ne.symm hy]
    · exact Keeps.of_later (Or.inl ⟨hready.isConnect,hoff⟩) (fun _ => rfl) fun _ => id
    · refine Calm.of_plain hbefore ?_ rest
      intro d hd
      rcases List.mem_append.mp hd with hd|hd
      · exact plain_bodies x gs d hd
      · rw [List.mem_singleton.mp hd]
        rfl
  · cases hs

theorem server_same {server' : Server S} (h : Inv e c (old+m)) (hold : ∀ y, Apart y old)
    (hfs : ∀ y, Apart y fs) (hcalm : Calm old fs)
    (hsame : server'={ c.server with iocpHandle := server'.iocpHandle, quits := server'.quits }) :
    Inv e (c.setServer server') (fs+m) := by
  rw [hsame]
  refine h.server _ hold hfs h.linked h.closed h.released (by rw [hcalm.stopping]) ?_ ?_
  · intro p hp
    have hmem : .stop p∈(old : Multiset (Call S β))+m := by
      rcases Multiset.mem_add.mp hp with hp|hp
      · exact Multiset.mem_add.mpr (Or.inl (hcalm.phase p hp))
      · exact Multiset.mem_add.mpr (Or.inr hp)
    exact (h.phase p hmem).mono (fun y => Keeps.refl _) (fun hs => ⟨hs,rfl,rfl⟩) fun _ => id
  · intro w
    rw [hcalm.dispatching w]

theorem apart_single {d : Call S β} (hd : ∀ y, d.operation y=0) (y : S) : Apart y [d] := by
  intro d' hd'
  rw [List.mem_singleton.mp hd']
  exact hd y

theorem registerSocket {ok : Bool} (h : Inv e c (([.registerSocket x] : List (Call S β))+m))
    (hs : c.registerSocket ok x=some (c',fs)) : Inv e c' (fs+m) := by
  have hold : ∀ y, Apart y ([.registerSocket x] : List (Call S β)) := apart_single fun _ => rfl
  have hrefused : Inv e c (([.body x disconnect] : List (Call S β))+m) :=
    h.server_same hold (apart_single fun _ => rfl)
      (Calm.plain (by simp [Call.plain]) (by simp [Call.plain])) rfl
  have hreturn : Calm ([.registerSocket x] : List (Call S β)) [] :=
    Calm.plain (by simp [Call.plain]) nofun
  unfold Core.registerSocket at hs
  split at hs
  · cases hs
    exact hrefused
  · rename_i hopen
    rw [not_or] at hopen
    split at hs
    · cases hs
      exact h.server_same hold (fun _ => nofun) hreturn rfl
    · split at hs
      · cases hs
      · split at hs
        · cases hs
          exact hrefused
        · rename_i hon
          split at hs
          · cases hs
            refine h.server _ hold (fun _ => nofun) ?_ h.closed h.released
              (by rw [hreturn.stopping]) ?_ (fun w => by rw [hreturn.dispatching w])
            · intro y hy
              rcases List.mem_append.mp hy with hy|hy
              · exact h.linked y hy
              · rw [List.mem_singleton.mp hy]
                exact Or.inl (Bool.eq_true_of_not_eq_false hon)
            · intro p hp
              have hp' : .stop p∈m := by simpa using hp
              refine (h.phase p (Multiset.mem_add.mpr (Or.inr hp'))).mono (fun y => Keeps.refl _)
                (fun hstopped => absurd hstopped hopen.1) fun _ => id
          · cases hs
            exact hrefused

theorem dispatch {w : Nat} {take : Take S} (h : Inv e c (([.dispatch w] : List (Call S β))+m))
    (hs : c.dispatch e take w=some (c',fs)) : Inv e c' (fs+m) := by
  have hold : ∀ y, Apart y ([.dispatch w] : List (Call S β)) := apart_single fun _ => rfl
  cases take with
  | timeout => cases hs
  | quit =>
    simp only [Core.dispatch] at hs
    split at hs
    · cases hs
    · cases hs
      refine h.server _ hold (fun _ => nofun) h.linked h.closed h.released (by simp [Call.stopping])
        ?_ ?_
      · intro p hp
        have hp' : .stop p∈m := by simpa using hp
        exact (h.phase p (Multiset.mem_add.mpr (Or.inr hp'))).mono (fun y => Keeps.refl _)
          (fun hstopped => ⟨hstopped,rfl,rfl⟩) fun v hv => List.mem_append_left _ hv
      · intro v
        simp only [Pool.total_cons,Pool.total_nil,Call.dispatching,List.count_append,
          List.count_singleton,beq_iff_eq]
        omega
  | recv y n =>
    obtain ⟨⟨d,gs⟩,hx,hr⟩ := Option.map_eq_some_iff.mp hs
    cases hr
    exact complete [] _ h nofun (fun _ => nofun) hold (Or.inl ⟨n,rfl⟩) hx
  | send y i n =>
    obtain ⟨⟨d,gs⟩,hx,hr⟩ := Option.map_eq_some_iff.mp hs
    cases hr
    exact complete [] _ h nofun (fun _ => nofun) hold (Or.inr ⟨i,n,rfl⟩) hx

theorem dispatchOnce {take : Take S} (h : Inv e c (([.dispatchOnce] : List (Call S β))+m))
    (hs : c.dispatchOnce e take=some (c',fs)) : Inv e c' (fs+m) := by
  have hold : ∀ y, Apart y ([.dispatchOnce] : List (Call S β)) := apart_single fun _ => rfl
  have hplain : ∀ d∈([.dispatchOnce] : List (Call S β)), d.plain=true := by simp [Call.plain]
  cases take with
  | timeout =>
    cases hs
    exact h.server_same hold (fun _ => nofun) (Calm.plain hplain nofun) rfl
  | quit =>
    simp only [Core.dispatchOnce] at hs
    split at hs
    · cases hs
    · cases hs
      exact h.server_same hold (fun _ => nofun) (Calm.plain hplain nofun) rfl
  | recv y n =>
    have hc := complete [.dispatchOnce] [] h hplain hold (fun _ => nofun)
      (Or.inl ⟨n,rfl⟩) hs
    rwa [List.append_nil] at hc
  | send y i n =>
    have hc := complete [.dispatchOnce] [] h hplain hold (fun _ => nofun)
      (Or.inr ⟨i,n,rfl⟩) hs
    rwa [List.append_nil] at hc

/-- Only one thread at a time is past the lock of `stop`. -/
theorem holder {p : Stop S} (h : Inv e c (([.stop p] : List (Call S β))+m))
    (hp : Call.stopping (.stop p : Call S β)=1) :
    c.server.stopLock=true ∧ ∀ q, .stop q∈m → q=.acquire := by
  have hone := h.stopping
  rw [Pool.weight_add] at hone
  simp only [Pool.total_cons,Pool.total_nil,hp] at hone
  have hle := Bool.toNat_le c.server.stopLock
  refine ⟨?_,fun q hq => ?_⟩
  · cases hl : c.server.stopLock with
    | true => rfl
    | false =>
      rw [hl,Bool.toNat_false] at hone
      omega
  · have hweight := Pool.le_weight (w:=Call.stopping) hq
    cases q with
    | acquire => rfl
    | _ =>
      simp only [Call.stopping] at hweight
      omega

/-- The thread that holds the lock goes on in `stop`. -/
theorem advance {p : Stop S} (h : Inv e c (([.stop p] : List (Call S β))+m))
    (server' : Server S)
    (hp : Call.stopping (.stop p : Call S β)=1) (hfs : ∀ y, Apart y fs)
    (hone : Pool.total Call.stopping fs=1) (hdispatch : ∀ w, Pool.total (Call.dispatching w) fs=0)
    (hsame : server'={ c.server with
      iocpHandle := server'.iocpHandle, stopped := server'.stopped, sessions := server'.sessions,
      workerThreads := server'.workerThreads, quits := server'.quits, closed := server'.closed,
      released := server'.released })
    (hlinked : ∀ y∈server'.sessions, y∈c.server.sessions)
    (hclosed : ∀ y∈server'.closed, (c.clients y.1).Shut ∧ (c.clients y.1).begun=y.2)
    (hreleased : ∀ y∈server'.released, (c.clients y).Done)
    (hphase : ∀ q, .stop q∈fs → Phase (c.setServer server') q) :
    Inv e (c.setServer server') (fs+m) := by
  have hothers := (h.holder hp).2
  refine h.server _ (apart_single fun _ => rfl) hfs (fun y hy => h.linked y (hlinked y hy)) hclosed
    hreleased ?_ ?_ ?_
  · rw [hone,hsame]
    simp [hp]
  · intro q hq
    rcases Multiset.mem_add.mp hq with hq|hq
    · exact hphase q hq
    · rw [hothers q hq]
      trivial
  · intro w
    rw [hdispatch w,hsame]
    rfl

theorem advanceTo {p q : Stop S} (h : Inv e c (([.stop p] : List (Call S β))+m))
    (server' : Server S)
    (hp : Call.stopping (.stop p : Call S β)=1) (hq : Call.stopping (.stop q : Call S β)=1)
    (hsame : server'={ c.server with
      iocpHandle := server'.iocpHandle, stopped := server'.stopped, sessions := server'.sessions,
      workerThreads := server'.workerThreads, quits := server'.quits, closed := server'.closed,
      released := server'.released })
    (hlinked : ∀ y∈server'.sessions, y∈c.server.sessions)
    (hclosed : ∀ y∈server'.closed, (c.clients y.1).Shut ∧ (c.clients y.1).begun=y.2)
    (hreleased : ∀ y∈server'.released, (c.clients y).Done)
    (hphase : Phase (c.setServer server') q) :
    Inv e (c.setServer server') (([.stop q] : List (Call S β))+m) := by
  refine h.advance server' hp (apart_single fun _ => rfl) (by simp [hq]) (fun _ => rfl) hsame hlinked hclosed
    hreleased fun q' hq' => ?_
  have heq : q'=q := by simpa using hq'
  rw [heq]
  exact hphase

/-- The next statement of `stop`, with the state as it is. -/
theorem proceed {p q : Stop S} (h : Inv e c (([.stop p] : List (Call S β))+m))
    (hp : Call.stopping (.stop p : Call S β)=1) (hq : Call.stopping (.stop q : Call S β)=1)
    (hphase : Phase c q) : Inv e c (([.stop q] : List (Call S β))+m) :=
  h.advanceTo c.server hp hq rfl (fun _ => id) h.closed h.released hphase

theorem now_phase {p : Stop S} (h : Inv e c (([.stop p] : List (Call S β))+m)) : Phase c p :=
  h.phase p (Multiset.mem_add.mpr (Or.inl (by simp)))

omit [DecidableEq S] in
theorem shut_disconnect {k : Client β} (h : k.Linked) :
    Client.Shut { k with session := k.session.disconnect } := by
  unfold Client.Shut TestSession.disconnect
  split
  · rename_i hoff
    rcases h with h|h
    · rw [hoff] at h
      cases h
    · exact ⟨hoff,h⟩
  · split
    · exact ⟨rfl,‹_›⟩
    · exact ⟨rfl,rfl⟩

omit [DecidableEq S] in
/-- The loop of `stop` over the sessions reaches the next one. -/
theorem next_done {todo : List S} (h : ∀ y∈c.server.sessions,
      (c.clients y).Shut ∧ (y∈x::todo ∨ (c.clients y).Done)) (hzero : (c.clients x).pendingIo=0) :
    ∀ y∈c.server.sessions, (c.clients y).Shut ∧ (y∈todo ∨ (c.clients y).Done) := by
  intro y hy
  obtain ⟨hshut,hdone⟩ := h y hy
  refine ⟨hshut,?_⟩
  rcases hdone with hmem|hdone
  · rcases List.mem_cons.mp hmem with rfl|hmem
    · exact Or.inr ⟨hshut,hzero⟩
    · exact Or.inl hmem
  · exact Or.inr hdone

omit [DecidableEq S] in
theorem all_done (h : ∀ y∈c.server.sessions, (c.clients y).Shut ∧ (y∈[] ∨ (c.clients y).Done)) :
    ∀ y∈c.server.sessions, (c.clients y).Done := by
  intro y hy
  rcases (h y hy).2 with hnil|hdone
  · cases hnil
  · exact hdone

/-- One more session is disconnected. -/
theorem stop_disconnect {todo sessions : List S}
    (h : Inv e c (([.stop (.disconnect (x::todo) sessions)] : List (Call S β))+m))
    (hlock : (c.clients x).sendLock=false) :
    Inv e ((c.setClient x { c.clients x with
      session := (c.clients x).session.disconnect }).setServer
      { c.server with closed := c.server.closed++[(x,(c.clients x).begun)] })
      (([.stop (.disconnect todo sessions)] : List (Call S β))+m) := by
  have hold : ∀ y, Apart y ([.stop (.disconnect (x::todo) sessions)] : List (Call S β)) :=
    apart_single fun _ => rfl
  obtain ⟨hstopped,rfl,htodo,hshut⟩ := h.now_phase
  have hk : Keeps (c.clients x) { c.clients x with session := (c.clients x).session.disconnect } :=
    Keeps.of_later (later_disconnect _) (fun _ => rfl) fun _ => id
  have hc := h.client ((h.tally x).work (hold x) (hold x) (inFlight_disconnect _)
    (later_disconnect _) (Or.inl hlock)) (fun y _ => hold y) (fun y _ => hold y) hk
    ⟨rfl,fun _ => rfl,fun _ => id⟩
  have hself : ((c.setClient x { c.clients x with
      session := (c.clients x).session.disconnect }).clients x).Shut := by
    simpa [Core.setClient] using shut_disconnect (h.linked x (htodo x List.mem_cons_self))
  refine hc.advanceTo _ rfl rfl rfl (fun _ => id) ?_ hc.released
    ⟨hstopped,rfl,fun y hy => htodo y (List.mem_cons_of_mem x hy),fun y hy => ?_⟩
  · intro y hy
    rcases List.mem_append.mp hy with hy|hy
    · exact hc.closed y hy
    · rw [List.mem_singleton.mp hy]
      exact ⟨hself,by simp [Core.setClient]⟩
  · rcases hshut y hy with hmem|hs
    · rcases List.mem_cons.mp hmem with rfl|hmem
      · exact Or.inr hself
      · exact Or.inl hmem
    · exact Or.inr ((keeps_update c hk y).shut hs).1

theorem stop {p : Stop S} (h : Inv e c (([.stop p] : List (Call S β))+m))
    (hs : c.stop p=some (c',fs)) : Inv e c' (fs+m) := by
  have hphase := h.now_phase
  have hold : ∀ y, Apart y ([.stop p] : List (Call S β)) := apart_single fun _ => rfl
  cases p with
  | acquire =>
    simp only [Core.stop] at hs
    split at hs
    · cases hs
    · rename_i hfree
      cases hs
      refine h.server _ hold (apart_single fun _ => rfl) h.linked h.closed h.released ?_ ?_
        (fun _ => rfl)
      · simp [Call.stopping,hfree]
      · intro q hq
        rcases Multiset.mem_add.mp hq with hq|hq
        · have heq : q=.begin := by simpa using hq
          rw [heq]
          trivial
        · exact (h.phase q (Multiset.mem_add.mpr (Or.inr hq))).mono (fun y => Keeps.refl _)
            (fun hstopped => ⟨hstopped,rfl,rfl⟩) fun _ => id
  | begin =>
    simp only [Core.stop] at hs
    split at hs
    · cases hs
      exact h.proceed rfl rfl trivial
    · cases hs
      exact h.advanceTo _ rfl rfl rfl (fun _ => id) h.closed h.released
        ⟨rfl,rfl,fun _ => id,fun _ hy => Or.inl hy⟩
  | disconnect todo sessions =>
    cases todo with
    | nil =>
      cases hs
      obtain ⟨hstopped,rfl,-,hshut⟩ := hphase
      have hnext : ∀ x∈c.server.sessions,
          (c.clients x).Shut ∧ (x∈c.server.sessions ∨ (c.clients x).Done) := by
        intro x hx
        rcases hshut x hx with hnil|hshut
        · cases hnil
        · exact ⟨hshut,Or.inl hx⟩
      split
      · exact h.proceed rfl rfl ⟨hstopped,hnext⟩
      · exact h.proceed rfl rfl ⟨hstopped,hnext⟩
    | cons x todo =>
      simp only [Core.stop] at hs
      split at hs
      · cases hs
      · rename_i hlock
        cases hs
        exact h.stop_disconnect (Bool.eq_false_iff.mpr hlock)
  | drain todo =>
    cases todo with
    | nil =>
      cases hs
      exact h.proceed rfl rfl ⟨hphase.1,all_done hphase.2⟩
    | cons x todo =>
      simp only [Core.stop] at hs
      split at hs
      · cases hs
        refine h.advance c.server rfl ?_ rfl (fun _ => rfl) rfl (fun _ => id) h.closed
          h.released ?_
        · exact fun y => (apart_single (d:=.dispatchOnce) (fun _ => rfl) y).append (hold y)
        · intro q hq
          have heq : q=.drain (x::todo) := by simpa using hq
          rw [heq]
          exact hphase
      · rename_i hzero
        cases hs
        exact h.proceed rfl rfl ⟨hphase.1,next_done hphase.2 (not_not.mp hzero)⟩
  | wait todo =>
    cases todo with
    | nil =>
      cases hs
      exact h.proceed rfl rfl ⟨hphase.1,all_done hphase.2⟩
    | cons x todo =>
      simp only [Core.stop] at hs
      split at hs
      · rename_i hzero
        cases hs
        exact h.proceed rfl rfl ⟨hphase.1,next_done hphase.2 hzero⟩
      · cases hs
  | post n =>
    cases n with
    | zero =>
      cases hs
      exact h.proceed rfl rfl ⟨hphase.1,hphase.2,fun _ hw => Or.inl hw⟩
    | succ n =>
      cases hs
      exact h.advanceTo _ rfl rfl rfl (fun _ => id) h.closed h.released hphase
  | join todo =>
    cases todo with
    | nil =>
      cases hs
      refine h.proceed rfl rfl ⟨hphase.1,hphase.2.1,fun w hw => ?_⟩
      rcases hphase.2.2 w hw with hnil|hquit
      · cases hnil
      · exact hquit
    | cons w todo =>
      simp only [Core.stop] at hs
      split at hs
      · rename_i hquit
        cases hs
        refine h.proceed rfl rfl ⟨hphase.1,hphase.2.1,fun v hv => ?_⟩
        rcases hphase.2.2 v hv with hmem|hv
        · rcases List.mem_cons.mp hmem with rfl|hmem
          · exact Or.inr hquit
          · exact Or.inl hmem
        · exact Or.inr hv
      · cases hs
  | clear =>
    cases hs
    refine h.advanceTo _ rfl rfl rfl nofun h.closed ?_ trivial
    intro y hy
    rcases List.mem_append.mp hy with hy|hy
    · exact h.released y hy
    · exact hphase.2.1 y hy
  | closeHandle =>
    cases hs
    exact h.advanceTo _ rfl rfl rfl (fun _ => id) h.closed h.released trivial
  | release =>
    cases hs
    have hlock := h.holder rfl
    refine h.server _ hold (fun _ => nofun) h.linked h.closed h.released ?_ ?_ (fun _ => rfl)
    · simp [Call.stopping,hlock.1]
    · intro q hq
      have hq' : .stop q∈m := by simpa using hq
      rw [hlock.2 q hq']
      trivial

theorem exec {o : Pick S} {d : Call S β} (h : Inv e c (d::ₘm))
    (hs : c.exec e o d=some (c',fs)) : Inv e c' (fs+m) := by
  have h' : Inv e c (([d] : List (Call S β))+m) := by simpa using h
  cases d with
  | body x f => exact h'.body hs
  | calling x f => exact h'.calling hs
  | finishIo x =>
    cases hs
    exact h'.finishIo
  | registerSocket x => exact h'.registerSocket hs
  | dispatch w => exact h'.dispatch hs
  | dispatchOnce => exact h'.dispatchOnce hs
  | stop p => exact h'.stop hs

theorem use {entry : Entry β} (h : Inv e c (([] : List (Call S β))+m))
    (hs : c.use e x entry=some (c',fs)) : Inv e c' (fs+m) := by
  have hnil : ∀ y, Apart y ([] : List (Call S β)) := fun _ => nofun
  unfold Core.use at hs
  split at hs
  · cases hs
  · cases hs
  · rename_i ok
    split at hs
    · cases hs
    · rename_i hlock
      cases hs
      have hfree := (h.tally x).free (Bool.eq_false_iff.mpr hlock)
      refine h.client ?_ (fun y _ => hnil y) (fun y _ => hnil y) (Keeps.connect _ ok)
        (Calm.plain nofun nofun)
      refine (h.tally x).change (by simp [inFlight_connect]) rfl
        (fun f hf => absurd hf (hfree f)) ?_
      intro hoff
      by_cases hlink : (c.clients x).session.isConnect ∨ (c.clients x).session.isDisconnect
      · have hsame : (c.clients x).session.connect ok=(c.clients x).session := if_pos hlink
        rw [hsame] at hoff ⊢
        exact (h.tally x).sound hoff
      · simp only [TestSession.connect,if_neg hlink] at hoff
        split at hoff <;> exact absurd hoff fun hd => hlink (Or.inr hd)
  · rename_i hrecv hsend hconnect
    obtain ⟨⟨d,gs⟩,hx,hr⟩ := Option.map_eq_some_iff.mp hs
    cases hr
    obtain ⟨hflight,hready,hoff⟩ := enter_other hx hrecv hsend hconnect
    have hlater : Later (c.clients x).session d := Or.inl ⟨hready.isConnect,hoff⟩
    exact h.client ((h.tally x).work (hnil x) (Apart.bodies x x gs) hflight hlater (Or.inr hready))
      (fun y _ => hnil y) (fun y _ => Apart.bodies y x gs)
      (Keeps.of_later hlater (fun _ => rfl) fun _ => id) (Calm.plain nofun (plain_bodies x gs))

theorem startWorkerThread (h : Inv e c (([] : List (Call S β))+m)) (threadCount : Int) :
    Inv e (c.startWorkerThread threadCount) (([] : List (Call S β))+m) := by
  unfold Core.startWorkerThread
  split
  · exact h
  · rename_i hopen
    refine h.server _ (fun _ => nofun) (fun _ => nofun) h.linked h.closed h.released rfl ?_ ?_
    · intro p hp
      exact (h.phase p hp).mono (fun y => Keeps.refl _)
        (fun hstopped => absurd (Or.inl hstopped) hopen) fun _ => id
    · intro w
      have hids := (List.nodup_range' (s:=c.server.created) (n:=threadCount.toNat)).count (a:=w)
      simp only [List.mem_range'_1] at hids
      simp only [List.count_append,hids,Pool.total_nil]
      split_ifs <;> omega

theorem runWorker {w : Nat} (h : Inv e c (([] : List (Call S β))+m)) (hw : w∈c.server.unborn) :
    Inv e (c.setServer { c.server with unborn := c.server.unborn.erase w })
      (([.dispatch w] : List (Call S β))+m) := by
  refine h.server _ (fun _ => nofun) (apart_single fun _ => rfl) h.linked h.closed h.released rfl ?_ ?_
  · intro p hp
    have hp' : .stop p∈m := by simpa using hp
    exact (h.phase p (Multiset.mem_add.mpr (Or.inr hp'))).mono (fun y => Keeps.refl _)
      (fun hstopped => ⟨hstopped,rfl,rfl⟩) fun _ => id
  · intro v
    have hpos := List.count_pos_iff.mpr hw
    simp only [List.count_erase,Pool.total_cons,Pool.total_nil,Call.dispatching,beq_iff_eq]
    by_cases hv : w=v
    · subst hv
      simp only [if_true]
      omega
    · simp only [if_neg hv]
      omega

theorem enter {u : Use S β} (h : Inv e c m) (hs : c.enter e u=some (c',fs)) : Inv e c' (fs+m) := by
  have h' : Inv e c (([] : List (Call S β))+m) := by simpa using h
  cases u with
  | session x entry => exact h'.use hs
  | createIocpHandle ok =>
    simp only [Core.enter] at hs
    split at hs <;> cases hs
    · exact h'
    · exact h'.server_same (fun _ => nofun) (fun _ => nofun) (Calm.plain nofun nofun) rfl
  | registerSocket x =>
    cases hs
    exact h'.server_same (fun _ => nofun) (apart_single fun _ => rfl)
      (Calm.plain nofun (by simp [Call.plain])) rfl
  | startWorkerThread threadCount =>
    cases hs
    exact h'.startWorkerThread threadCount
  | runWorker w =>
    simp only [Core.enter] at hs
    split at hs <;> cases hs
    exact h'.runWorker ‹_›
  | stop =>
    cases hs
    refine h'.server c.server (fun _ => nofun) (apart_single fun _ => rfl) h.linked
      h.closed h.released rfl ?_ (fun _ => rfl)
    intro p hp
    rcases Multiset.mem_add.mp hp with hp|hp
    · have heq : p=.acquire := by simpa using hp
      rw [heq]
      trivial
    · exact h.phase p hp

end Inv

section Shutdown

variable {T : Type} [Fintype T] [DecidableEq T]

theorem reaches_inv {botIndex : S → UInt32} {s : State T S β}
    (hr : Reaches (step e) Any (Pool.State.init (Core.init botIndex)) s) :
    Inv e s.core (Pool.pending s.calls) :=
  Pool.reaches_invariant hr (Inv.init botIndex) (fun _ _ _ _ _ _ h hs => h.exec hs)
    fun _ _ _ _ _ h hs => h.enter hs

/-- The operations of `x` that are being registered, in flight or in their callback. -/
def operations (s : State T S β) (x : S) : Nat :=
  inFlight (s.core.clients x).session+Pool.weight (Call.operation x) (Pool.pending s.calls)

/-- Whatever the users, the handlers and the workers do, and however often and from how many threads
`stop` is called: `_pending_io` counts the operations of a session, so that no assertion about it
fails; on a session that `stop` has disconnected none is begun; a quit packet is posted only when no
session has one left; and when `_sessions` is cleared every session has none and every worker has
taken one quit packet. -/
theorem stop_drains_io {botIndex : S → UInt32} {s : State T S β}
    (hr : Reaches (step e) Any (Pool.State.init (Core.init botIndex)) s) :
    (∀ x, (s.core.clients x).pendingIo=operations s x) ∧
    (∀ t x f, (.finishIo x∈s.calls t ∨ .calling x f∈s.calls t) →
      0<(s.core.clients x).pendingIo) ∧
    (∀ x n, (x,n)∈s.core.server.closed → (s.core.clients x).begun=n) ∧
    (∀ t n, .stop (.post (n+1))∈s.calls t → ∀ x∈s.core.server.sessions, operations s x=0) ∧
    (∀ t, .stop .clear∈s.calls t →
      (∀ x∈s.core.server.sessions, (s.core.clients x).pendingIo=0) ∧
      ∀ w∈s.core.server.workerThreads, s.core.server.quitTaken.count w=1) ∧
    ∀ x∈s.core.server.released, (s.core.clients x).pendingIo=0 := by
  have hi := reaches_inv hr
  have hcount : ∀ x, (s.core.clients x).pendingIo=operations s x := by
    intro x
    rw [(hi.tally x).pending]
    simp [operations]
  refine ⟨hcount,?_,?_,?_,?_,fun x hx => (hi.released x hx).2⟩
  · intro t x f hmem
    rcases hmem with hmem|hmem
    · exact (hi.tally x).positive (Pool.mem_pending.mpr ⟨t,hmem⟩) (by simp [Call.operation])
    · exact (hi.tally x).positive (Pool.mem_pending.mpr ⟨t,hmem⟩) (by simp [Call.operation])
  · intro x n hx
    exact (hi.closed (x,n) hx).2
  · intro t n ht x hx
    have hphase := hi.phase _ (Pool.mem_pending.mpr ⟨t,ht⟩)
    have hzero := (hphase.2 x hx).2
    rw [hcount x] at hzero
    exact Int.ofNat_eq_zero.mp hzero
  · intro t ht
    obtain ⟨-,hdone,hquit⟩ := hi.phase _ (Pool.mem_pending.mpr ⟨t,ht⟩)
    refine ⟨fun x hx => (hdone x hx).2,fun w hw => ?_⟩
    have hpos := List.count_pos_iff.mpr (hquit w hw)
    have hone := hi.workers w
    split at hone <;> omega

end Shutdown

/-- A thread is about to clear `_sessions`. -/
def Call.clears : Call S β → Bool
  | .stop .clear => true
  | _ => false

/-- What brings a run on if nothing fails. -/
def pick (take : Take Unit) : Pick Unit := ⟨⟨true,.wait⟩,take⟩

/-- A session starts to receive, and `stop` waits for the worker to take the completion. -/
def stopWhileReceiving : List (Pool.Action Bool (Pick Unit) (Use Unit NetWork.SendBuffer)) :=
  [Pool.Action.enter false (Use.createIocpHandle true),
    Pool.Action.enter false (Use.startWorkerThread 1),
    Pool.Action.enter false (Use.session () (Entry.connect true)),
    Pool.Action.enter false (Use.registerSocket ()),Pool.Action.run false (pick .timeout),
    Pool.Action.enter false (Use.session () Entry.start)]++
  List.replicate 4 (Pool.Action.run false (pick .timeout))++
  [Pool.Action.enter true (Use.runWorker 0),Pool.Action.enter false Use.stop]++
  List.replicate 4 (Pool.Action.run false (pick .timeout))++
  [Pool.Action.run true (pick (.recv () 0)),Pool.Action.run true (pick .timeout),
    Pool.Action.run true (pick .timeout)]++
  List.replicate 4 (Pool.Action.run false (pick .timeout))++[Pool.Action.run true (pick .quit)]++
  List.replicate 2 (Pool.Action.run false (pick .timeout))

theorem stop_drains_io_receiving :
    ∃ (e : Env NetWork.SendBuffer) (s : State Bool Unit NetWork.SendBuffer),
      Reaches (step e) Any (Pool.State.init (Core.init fun _ => 0)) s ∧
      (s.calls false).any Call.clears=true ∧ s.core.server.sessions=[()] ∧
      s.core.server.workerThreads=[0] ∧ (s.core.clients ()).begun=1 ∧
      (s.core.clients ()).pendingIo=0 ∧ s.core.server.quitTaken.count 0=1 := by
  let e : Env NetWork.SendBuffer := ⟨⟨fun _ => [],fun _ => []⟩,id,fun _ => none,fun _ => none⟩
  have hrun : (runActions (step e) (Pool.State.init (Core.init fun _ => 0)) stopWhileReceiving).map
      (fun s => ((s.calls false).any Call.clears,s.core.server.sessions,
        s.core.server.workerThreads,(s.core.clients ()).begun))=some (true,[()],[0],1) := by
    decide +kernel
  obtain ⟨s,hs,hfields⟩ := Option.map_eq_some_iff.mp hrun
  simp only [Prod.mk.injEq] at hfields
  obtain ⟨hclears,hsessions,hworkers,hbegun⟩ := hfields
  have hr := Reaches.of_runActions (fun _ _ => trivial) _ hs
  obtain ⟨d,hd,hclear⟩ := List.any_eq_true.mp hclears
  have hmem : .stop .clear∈s.calls false := by
    cases d with
    | stop p =>
      cases p with
      | clear => exact hd
      | _ => cases hclear
    | _ => cases hclear
  obtain ⟨hzero,hquit⟩ := (stop_drains_io hr).2.2.2.2.1 false hmem
  refine ⟨e,s,hr,hclears,hsessions,hworkers,hbegun,hzero () ?_,hquit 0 ?_⟩
  · rw [hsessions]
    exact List.mem_singleton_self _
  · rw [hworkers]
    exact List.mem_singleton_self _

end IocpServer.TestClient.ClientServer
