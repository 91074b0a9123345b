import IocpServer.NetWork.Rejection
import IocpServer.Server.Finality

namespace IocpServer.Server

open NetWork (SendBuffer SessionManager)
open NetWork.Lifecycle
open Game (Counters)

/-- The session is connected and not yet counted. -/
def counting : Frame Packet → Nat
  | .countConnect | .rejectStore | .rejectClose | .rejectCount => 1
  | _ => 0

theorem counting_le_admitting (f : Frame Packet) : counting f ≤ f.admitting := by
  cases f <;> simp [counting,Frame.admitting]

variable {T S : Type}

/-- The cleanup of the session has begun. -/
def Cleaning (l : Local Packet) : Prop := 0<tok cleanupBodies l.frames+l.core.ran

instance (l : Local Packet) : Decidable (Cleaning l) := inferInstanceAs (Decidable (_<_))

/-- A session is in the list of sessions from its admission to its cleanup. -/
structure Listed (g : Game.State S) (x : S) (l : Local Packet) : Prop where
  listed : l.core.admitted → x∈g.manager.sessions ∨ Cleaning l
  admitted : x∈g.manager.sessions → l.core.admitted
  handling : tok cleanupBodies l.frames=0 → ∀ op∈(g.sessions x).todo, op.isFinal=false
  done : (g.sessions x).cleanupDone → Cleaning l

variable [DecidableEq S]

def arrivals (g : Game.State S) (x : S) : Nat := if x∈g.stats.arrived then 1 else 0

/-- The disconnects of a session that were counted or will be by its running cleanup. -/
def departures (g : Game.State S) (x : S) : Nat :=
  (if x∈g.stats.departed then 1 else 0)+(g.sessions x).todo.countP Game.Op.isCountDisconnect

theorem arrivals_congr {g g' : Game.State S} {x : S}
    (h : x∈g'.stats.arrived ↔ x∈g.stats.arrived) : arrivals g' x=arrivals g x := by
  simp only [arrivals,h]

/-- A session is counted once when it has connected and once when its cleanup has begun. -/
structure Counted (g : Game.State S) (x : S) (l : Local Packet) : Prop where
  was : (g.sessions x).wasConnected → l.core.hadConnected ∨ 0<tok Frame.greeting l.frames
  had : l.core.hadConnected → (g.sessions x).wasConnected ∨ .rejectStore∈l.frames
  arrived : arrivals g x+tok counting l.frames=l.core.hadConnected.toNat
  departed : departures g x=if l.core.hadConnected ∧ Cleaning l then 1 else 0

omit [DecidableEq S] in
theorem listed_init (maxSessionCount : Int) (x : S) :
    Listed (Game.State.init maxSessionCount) x ⟨Core.init,0⟩ := by
  constructor <;>
    simp [Core.init,Game.State.init,Game.Session.init,SessionManager.init]

theorem counted_init (maxSessionCount : Int) (x : S) :
    Counted (Game.State.init maxSessionCount) x ⟨Core.init,0⟩ := by
  constructor <;> simp [Core.init,Game.State.init,Game.Session.init,arrivals,departures,tok]

omit [DecidableEq S] in
/-- The list of sessions does not care about steps that leave its side alone. -/
theorem Listed.congr {g g' : Game.State S} {x : S} {l l' : Local Packet} (h : Listed g x l)
    (hadm : l'.core.admitted=l.core.admitted) (hran : l'.core.ran=l.core.ran)
    (hclean : tok cleanupBodies l'.frames=tok cleanupBodies l.frames)
    (hlist : x∈g'.manager.sessions ↔ x∈g.manager.sessions)
    (htodo : (g'.sessions x).todo=(g.sessions x).todo)
    (hdone : (g'.sessions x).cleanupDone=(g.sessions x).cleanupDone) : Listed g' x l' := by
  have hc : Cleaning l' ↔ Cleaning l := by
    unfold Cleaning
    rw [hclean,hran]
  constructor
  · rw [hadm,hlist,hc]
    exact h.listed
  · rw [hadm,hlist]
    exact h.admitted
  · rw [hclean,htodo]
    exact h.handling
  · rw [hdone,hc]
    exact h.done

/-- A frame outside admission and jobs leaves the list of sessions and the cleanups alone. -/
theorem gameStep_settled (e : Env) (g : Game.State S) (x : S) (isConnect : Bool) {f : Frame Packet}
    (hb : ∀ b, f≠.body b) (hj : ∀ j, f≠.job j) (ha : f≠.addSession) :
    (gameStep e g x isConnect f).1.manager=g.manager ∧
      ((gameStep e g x isConnect f).1.sessions x).cleanupDone=(g.sessions x).cleanupDone ∧
      (gameStep e g x isConnect f).1.stats.departed=g.stats.departed := by
  cases f with
  | body b => exact absurd rfl (hb b)
  | job j => exact absurd rfl (hj j)
  | addSession => exact absurd rfl ha
  | processConnect | rejectStore =>
    exact ⟨rfl,by simp [gameStep,Game.State.connect,Game.State.setSession],rfl⟩
  | _ => exact ⟨rfl,rfl,rfl⟩

section

variable {e : Env} {g : Game.State S} {x : S} {c c' : Core Packet} {o : Choice Packet}
  {fs : List (Frame Packet)} {m : Multiset (Frame Packet)}

theorem exec_admitted {f : Frame Packet} (hx : exec c o f=some (c',fs)) (hf : f≠.addSession) :
    c'.admitted=c.admitted := by
  cases exec_move hx with
  | full | added | known => exact absurd rfl hf
  | pipe ok pc p =>
    obtain ⟨n,b,heq⟩ := pipeEffect_eq c ok pc p
    rw [heq]
  | _ => rfl

theorem enter_admitted {entry : Entry} (hx : enter c entry=some (c',fs)) :
    c'.admitted=c.admitted := by
  cases enter_enters hx <;> rfl

/-- The running job goes on, or it ends; its cleanup stays begun. -/
theorem exec_body {cleanup : Bool} (hx : exec c o (.body cleanup)=some (c',fs)) :
    tok cleanupBodies (beside fs m)+c'.ran=tok cleanupBodies (.body cleanup::ₘm)+c.ran ∧
      (o.body≠.done → c'=c ∧ (fs.map cleanupBodies).sum=cleanupBodies (.body cleanup)) := by
  simp only [exec] at hx
  split at hx <;> cases hx
  all_goals cases cleanup <;> simp_all [cleanupBodies,disconnect]
  omega

theorem Listed.body {cleanup : Bool} (h : Listed g x ⟨c,.body cleanup::ₘm⟩)
    (hx : exec c o (.body cleanup)=some (c',fs))
    (hbody : o.body=(gameStep e g x c.pipe.isConnect (.body cleanup)).2.2) :
    Listed (gameStep e g x c.pipe.isConnect (.body cleanup)).1 x ⟨c',beside fs m⟩ := by
  obtain ⟨hsum,hgo⟩ := exec_body (m:=m) hx
  have hadm := exec_admitted hx (by simp)
  have hclean : Cleaning ⟨c',beside fs m⟩ ↔ Cleaning ⟨c,.body cleanup::ₘm⟩ := by
    simp only [Cleaning,hsum]
  simp only [gameStep] at hbody ⊢
  cases htodo : (g.sessions x).todo with
  | nil =>
    simp only
    constructor
    · rw [hclean,hadm]
      exact h.listed
    · rw [hadm]
      exact h.admitted
    · simp [htodo]
    · rw [hclean]
      exact h.done
  | cons op rest =>
    simp only [htodo] at hbody ⊢
    have hne : o.body≠.done := by
      rw [hbody]
      unfold bodyOf
      split <;> simp
    obtain ⟨rfl,hcsum⟩ := hgo hne
    obtain ⟨hadd,-,hdone,-⟩ := Game.exec_counters e.codec g x op
    have hhandling := h.handling
    simp only [htodo,tok_cons] at hhandling
    have hfinal : op.isFinal → Cleaning ⟨c',.body cleanup::ₘm⟩ := by
      intro hop
      by_contra hnot
      have := hhandling (by simp only [Cleaning,tok_cons] at hnot; omega) op (by simp)
      rw [hop] at this
      cases this
    constructor
    · rw [Game.advance_listed,hclean]
      intro hin
      rcases h.listed hin with hin|hcl
      · by_cases hop : op=.eraseSession
        · exact Or.inr (hfinal (by rw [hop]; rfl))
        · exact Or.inl ⟨hin,fun herase => hop herase.1⟩
      · exact Or.inr hcl
    · rw [Game.advance_listed]
      exact fun hin => h.admitted hin.1
    · rw [Game.advance_sessions_self]
      intro hzero op' hin
      rcases List.mem_append.mp hin with hin|hin
      · exact hadd op' hin
      · apply hhandling _ op' (by simp [hin])
        simp only [tok_beside,hcsum] at hzero
        exact hzero
    · rw [Game.advance_sessions_self,hclean]
      intro hd
      exact (hdone hd).elim h.done hfinal

theorem Listed.job {j : Job Packet} (h : Listed g x ⟨c,.job j::ₘm⟩)
    (hx : exec c o (.job j)=some (c',fs)) :
    Listed (gameStep e g x c.pipe.isConnect (.job j)).1 x ⟨c',beside fs m⟩ := by
  cases j with
  | cleanup =>
    cases hx
    have hclean : Cleaning ⟨c,beside [.body true] m⟩ := by
      simp [Cleaning,cleanupBodies]
    refine ⟨fun _ => Or.inr hclean,h.admitted,?_,fun _ => hclean⟩
    simp [cleanupBodies]
  | packet pkt =>
    simp only [exec] at hx
    cases hx
    have hsame : Listed g x ⟨c,beside [if c.pipe.isConnect then .body false else .endJob] m⟩ := by
      refine h.congr rfl rfl ?_ Iff.rfl rfl rfl
      split <;> simp [cleanupBodies]
    cases hcon : c.pipe.isConnect with
    | false =>
      rw [hcon] at hsame
      cases pkt <;> exact hsame
    | true =>
      rw [hcon] at hsame
      cases pkt with
      | other => exact hsame
      | request pkt =>
        refine ⟨hsame.listed,hsame.admitted,?_,?_⟩
        · intro _
          simpa [gameStep,Game.State.startHandler,Game.State.setSession] using
            Game.handle_final (g.sessions x).toFields pkt
        · simpa [gameStep,Game.State.startHandler,Game.State.setSession] using hsame.done

theorem Listed.addSession (h : Listed g x ⟨c,.addSession::ₘm⟩)
    (hx : exec c o .addSession=some (c',fs))
    (ho : o.admission=(gameStep e g x c.pipe.isConnect .addSession).2.1) :
    Listed (gameStep e g x c.pipe.isConnect .addSession).1 x ⟨c',beside fs m⟩ := by
  simp only [gameStep] at ho ⊢
  unfold SessionManager.addSession at ho ⊢
  split_ifs at ho ⊢ with hin hfull
  · simp only at ho ⊢
    simp only [exec,ho] at hx
    cases hx
    exact h.congr rfl rfl (by simp [cleanupBodies]) Iff.rfl rfl rfl
  · simp only at ho ⊢
    simp only [exec,ho] at hx
    cases hx
    exact h.congr rfl rfl (by simp [cleanupBodies]) Iff.rfl rfl rfl
  · simp only at ho ⊢
    simp only [exec,ho] at hx
    cases hx
    obtain ⟨hlisted,hadm,hhand,hdone⟩ := h
    refine ⟨fun _ => Or.inl (Finset.mem_insert_self _ _),fun _ => rfl,?_,?_⟩
    · simpa [cleanupBodies] using hhand
    · simpa [Cleaning,cleanupBodies] using hdone

theorem Listed.fire {f : Frame Packet} (h : Listed g x ⟨c,f::ₘm⟩)
    (hx : exec c o f=some (c',fs)) (ho : o.admission=(gameStep e g x c.pipe.isConnect f).2.1)
    (hbody : o.body=(gameStep e g x c.pipe.isConnect f).2.2) :
    Listed (gameStep e g x c.pipe.isConnect f).1 x ⟨c',beside fs m⟩ := by
  by_cases hb : ∃ b, f=.body b
  · obtain ⟨b,rfl⟩ := hb
    exact h.body hx hbody
  by_cases hj : ∃ j, f=.job j
  · obtain ⟨j,rfl⟩ := hj
    exact h.job hx
  by_cases ha : f=.addSession
  · subst ha
    exact h.addSession hx ho
  simp only [not_exists] at hb hj
  obtain ⟨-,hcsum,-,hfcb,hran,-⟩ := exec_outside hx hb hj
  obtain ⟨htodo,-,-⟩ := gameStep_outside e g x c.pipe.isConnect hb hj ha
  obtain ⟨hman,hdone,-⟩ := gameStep_settled e g x c.pipe.isConnect hb hj ha
  apply h.congr (exec_admitted hx ha) hran _ _ htodo hdone
  · simp only [tok_beside,tok_cons,hcsum,hfcb]
  · rw [hman]

/-- The counts do not care about steps that leave their side alone. -/
theorem Counted.congr {g' : Game.State S} {l l' : Local Packet} (h : Counted g x l)
    (hhad : l'.core.hadConnected=l.core.hadConnected) (hclean : Cleaning l' ↔ Cleaning l)
    (hgreet : tok Frame.greeting l'.frames=tok Frame.greeting l.frames)
    (hcount : tok counting l'.frames=tok counting l.frames)
    (hstore : .rejectStore∈l.frames → .rejectStore∈l'.frames)
    (hwas : (g'.sessions x).wasConnected=(g.sessions x).wasConnected)
    (harr : x∈g'.stats.arrived ↔ x∈g.stats.arrived) (hdep : departures g' x=departures g x) :
    Counted g' x l' := by
  constructor
  · rw [hhad,hgreet,hwas]
    exact h.was
  · rw [hhad,hwas]
    exact fun hc => (h.had hc).imp_right hstore
  · rw [hhad,hcount,arrivals_congr harr]
    exact h.arrived
  · rw [hdep,hhad]
    simp only [hclean]
    exact h.departed

omit [DecidableEq S] in
theorem sum_counting {fs : List (Frame Packet)} (h : (fs.map Frame.admitting).sum=0) :
    (fs.map counting).sum=0 := by
  apply sum_eq_zero
  intro f hf
  have hle := counting_le_admitting f
  have hzero := List.sum_eq_zero_iff.mp h _ (List.mem_map_of_mem hf)
  omega

/-- A frame outside the admission leaves the session's counts alone if the game does. -/
theorem Counted.settled {g' : Game.State S} {f : Frame Packet} (h : Counted g x ⟨c,f::ₘm⟩)
    (hx : exec c o f=some (c',fs)) (hf : f.admitting=0)
    (hclean : tok cleanupBodies (beside fs m)+c'.ran=tok cleanupBodies (f::ₘm)+c.ran)
    (hwas : (g'.sessions x).wasConnected=(g.sessions x).wasConnected)
    (harr : x∈g'.stats.arrived ↔ x∈g.stats.arrived) (hdep : departures g' x=departures g x) :
    Counted g' x ⟨c',beside fs m⟩ := by
  obtain ⟨-,-,-,hhad,hsum⟩ := exec_settled hx hf
  have hgreet := greeting_le_admitting f
  have hcount := counting_le_admitting f
  refine h.congr hhad ?_ ?_ ?_ ?_ hwas harr hdep
  · simp only [Cleaning,hclean]
  · simp only [tok_beside,tok_cons,sum_greeting hsum]
    omega
  · simp only [tok_beside,tok_cons,sum_counting hsum]
    omega
  · intro hin
    rcases Multiset.mem_cons.mp hin with rfl|hin
    · cases hf
    · exact Multiset.mem_add.mpr (Or.inr hin)

/-- The running job counts the disconnect if that is its next operation, and no operation brings
another one. -/
theorem Counted.advance {op : Game.Op} {rest : List Game.Op} {l : Local Packet} (h : Counted g x l)
    (htodo : (g.sessions x).todo=op::rest) (c : Game.Codec) :
    (op.isCountDisconnect → x∉g.stats.departed) ∧
      departures (Game.advance c g x op rest).1 x=departures g x := by
  obtain ⟨hadd,-,-,-,hdep,-⟩ := Game.exec_counters c g x op
  have hone : departures g x ≤ 1 := by
    rw [h.departed]
    split <;> omega
  have hzero : ((Game.exec c g x op).2.1).countP Game.Op.isCountDisconnect=0 := by
    apply List.countP_eq_zero.mpr
    intro op' hin
    have := hadd op' hin
    cases op' <;> simp [Game.Op.isFinal,Game.Op.isCountDisconnect] at this ⊢
  unfold departures at hone ⊢
  rw [Game.advance_sessions_self,htodo,List.countP_cons] at *
  simp only [List.countP_append,hzero,Nat.zero_add] at hone ⊢
  have hstats : (Game.advance c g x op rest).1.stats.departed=
      if op.isCountDisconnect then insert x g.stats.departed else g.stats.departed := hdep
  rw [hstats]
  cases hop : op.isCountDisconnect with
  | false => simp
  | true =>
    have hnot : x∉g.stats.departed := by
      intro hin
      simp [hin,hop] at hone
    refine ⟨fun _ => hnot,?_⟩
    simp [hnot]
    omega

theorem Counted.body {cleanup : Bool} (h : Counted g x ⟨c,.body cleanup::ₘm⟩)
    (hx : exec c o (.body cleanup)=some (c',fs)) :
    Counted (gameStep e g x c.pipe.isConnect (.body cleanup)).1 x ⟨c',beside fs m⟩ := by
  have hclean := (exec_body (m:=m) hx).1
  simp only [gameStep]
  cases htodo : (g.sessions x).todo with
  | nil => exact h.settled hx rfl hclean rfl Iff.rfl rfl
  | cons op rest =>
    obtain ⟨-,hwas,-,harr,-⟩ := Game.exec_counters e.codec g x op
    apply h.settled hx rfl hclean
    · rw [Game.advance_sessions_self]
      exact hwas
    · simp only [Game.advance,Game.State.setSession,harr]
    · exact (h.advance htodo e.codec).2

omit [DecidableEq S] in
theorem not_greeting_of_cleaning {l : Local Packet} (h : Account l) (hq : 0<l.core.queued) :
    tok Frame.greeting l.frames=0 := by
  by_contra hne
  have hle : tok Frame.greeting l.frames ≤ tok Frame.fresh l.frames := by
    apply tok_mono
    intro f
    cases f <;> simp [Frame.greeting,Frame.fresh]
  have := (h.of_fresh (by omega)).2.2.2.2
  omega

/-- The cleanup starts: it will count the disconnect if the connect was or will be counted. -/
theorem Counted.startCleanup (h : Counted g x ⟨c,.job .cleanup::ₘm⟩)
    (hs : Sound (⟨c,.job .cleanup::ₘm⟩ : Local Packet)) :
    Counted (g.startCleanup x) x ⟨c,beside [.body true] m⟩ := by
  have hq := hs.account.queued
  have hr := hs.account.ran
  have hone := Bool.toNat_le c.pipe.isDisconnect
  have hle := cleanupBodies_le m
  simp only [tok_cons,Frame.cleaning] at hq hr
  have hgreet := not_greeting_of_cleaning hs.account (by simp only; omega)
  have hstore : .rejectStore∉(.job .cleanup::ₘm : Multiset (Frame Packet)) := by
    intro hin
    have heq := hs.rejection.alone _ hin _ rfl
    injection heq with _ hframes
    have := ((Multiset.singleton_eq_cons_iff m).mp hframes.symm).1
    cases this
  have hsame : (g.sessions x).wasConnected=c.hadConnected := by
    rw [Bool.eq_iff_iff]
    constructor
    · intro hw
      exact (h.was hw).resolve_right (by omega)
    · intro hc
      exact (h.had hc).resolve_right hstore
  have hbefore : departures g x=0 := by
    rw [h.departed,if_neg]
    rintro ⟨-,hcl⟩
    simp only [Cleaning,tok_cons,cleanupBodies] at hcl
    omega
  constructor
  · intro hw
    simp only [Game.State.startCleanup,Game.State.setSession,Function.update_self] at hw
    exact Or.inl (hsame.symm.trans hw)
  · intro hc
    left
    simpa [Game.State.startCleanup,Game.State.setSession] using hsame.trans hc
  · have harr := h.arrived
    simp only [tok_cons,counting] at harr
    simp only [tok_beside,List.map_cons,List.map_nil,counting,List.sum_cons,List.sum_nil]
    exact harr
  · unfold departures at hbefore ⊢
    have hnot : x∉g.stats.departed := by
      intro hin
      simp [hin] at hbefore
    simp [Game.State.startCleanup,Game.State.setSession,Game.cleanup_count,hnot,hsame,Cleaning,
      cleanupBodies]
    cases c.hadConnected <;> rfl

theorem Counted.job {j : Job Packet} (h : Counted g x ⟨c,.job j::ₘm⟩)
    (hs : Sound (⟨c,.job j::ₘm⟩ : Local Packet)) (hl : Linked g x ⟨c,.job j::ₘm⟩)
    (hx : exec c o (.job j)=some (c',fs)) :
    Counted (gameStep e g x c.pipe.isConnect (.job j)).1 x ⟨c',beside fs m⟩ := by
  cases j with
  | cleanup =>
    cases hx
    exact h.startCleanup hs
  | packet pkt =>
    have hidle := hl.job_idle
    have hclean : tok cleanupBodies (beside fs m)+c'.ran=
        tok cleanupBodies (.job (.packet pkt)::ₘm)+c.ran := by
      simp only [exec] at hx
      cases hx
      split <;> simp [cleanupBodies]
    cases pkt with
    | other => exact h.settled hx rfl hclean rfl Iff.rfl rfl
    | request pkt =>
      simp only [gameStep]
      split
      · apply h.settled hx rfl hclean
        · simp [Game.State.startHandler,Game.State.setSession]
        · simp [Game.State.startHandler,Game.State.setSession]
        · have hzero : (Game.handle (g.sessions x).toFields pkt).countP
              Game.Op.isCountDisconnect=0 := by
            apply List.countP_eq_zero.mpr
            intro op hin
            have := Game.handle_final _ _ op hin
            cases op <;> simp [Game.Op.isFinal,Game.Op.isCountDisconnect] at this ⊢
          simp only [departures,Game.State.startHandler,Game.State.setSession,Function.update_self,
            hzero,hidle,List.countP_nil]
          rfl
      · exact h.settled hx rfl hclean rfl Iff.rfl rfl

/-- `_is_connect` becomes true: the connect is to be counted. -/
theorem Counted.connected {f f' : Frame Packet} (h : Counted g x ⟨c,f::ₘm⟩)
    (hl : Linked g x ⟨c,f::ₘm⟩) (hf : f.fresh=1) (hfc : counting f=0) (hfc' : counting f'=1)
    (hwas : (g.sessions x).wasConnected ∨ f'=.rejectStore) :
    Counted g x ⟨{ c with pipe := { c.pipe with isConnect := true }, hadConnected := true },
      beside [f'] m⟩ := by
  have halive := hl.fresh_alive hf
  have hhad := (hl.account.of_fresh (by simp only [tok_cons]; omega)).1
  have harr := h.arrived
  have hdep := h.departed
  rw [hhad] at harr hdep
  simp only [tok_cons,hfc,Bool.toNat_false] at harr
  constructor
  · exact fun _ => Or.inl rfl
  · intro _
    refine hwas.imp_right ?_
    rintro rfl
    simp [beside]
  · simp [hfc']
    omega
  · rw [hdep,if_neg (by simp),if_neg]
    rintro ⟨-,hcl⟩
    simp only [Cleaning,tok_beside] at hcl
    cases f' <;> simp [counting] at hfc' <;> simp [cleanupBodies] at hcl <;> omega

/-- The connect is counted. -/
theorem Counted.countConnect {f : Frame Packet} (f' : Frame Packet) (h : Counted g x ⟨c,f::ₘm⟩)
    (hf : counting f=1) (hf' : counting f'=0) (hg : f.greeting=f'.greeting) (hc : cleanupBodies f=cleanupBodies f')
    (hr : f≠.rejectStore) :
    x∉g.stats.arrived ∧ Counted (g.countConnect x) x ⟨c,beside [f'] m⟩ := by
  obtain ⟨hwas,hhad,harr,hdep⟩ := h
  have hone := Bool.toNat_le c.hadConnected
  simp only [tok_cons,hf] at harr
  have hnot : x∉g.stats.arrived := by
    intro hin
    simp only [arrivals,hin,if_true] at harr
    omega
  refine ⟨hnot,?_⟩
  constructor
  · simpa [Game.State.countConnect,hg] using hwas
  · intro hcon
    refine (hhad hcon).imp_right fun hin => ?_
    rcases Multiset.mem_cons.mp hin with heq|hin
    · exact absurd heq.symm hr
    · exact Multiset.mem_add.mpr (Or.inr hin)
  · simp only [arrivals,hnot,if_false] at harr
    simp [arrivals,Game.State.countConnect,hf']
    omega
  · have hclean : Cleaning ⟨c,beside [f'] m⟩ ↔ Cleaning ⟨c,f::ₘm⟩ := by
      simp [Cleaning,hc]
    simp only [hclean]
    exact hdep

theorem Counted.addSession (h : Counted g x ⟨c,.addSession::ₘm⟩)
    (hx : exec c o .addSession=some (c',fs)) :
    Counted (gameStep e g x c.pipe.isConnect .addSession).1 x ⟨c',beside fs m⟩ := by
  have hgame : (gameStep e g x c.pipe.isConnect .addSession).1.sessions=g.sessions ∧
      (gameStep e g x c.pipe.isConnect .addSession).1.stats=g.stats := by
    simp only [gameStep]
    split <;> exact ⟨rfl,rfl⟩
  obtain ⟨hses,hstats⟩ := hgame
  obtain ⟨hwas,hhad,harr,hdep⟩ := h
  have hcore : c'.hadConnected=c.hadConnected ∧ c'.ran=c.ran ∧ (fs.map counting).sum=0 ∧
      (fs.map cleanupBodies).sum=0 := by
    simp only [exec] at hx
    split at hx <;> cases hx <;> exact ⟨rfl,rfl,rfl,rfl⟩
  obtain ⟨hhad',hran,hsum,hcsum⟩ := hcore
  simp only [tok_cons,counting,Frame.greeting,Nat.zero_add] at hwas harr
  constructor
  · rw [hses,hhad']
    intro hw
    refine (hwas hw).imp_right fun hpos => ?_
    rw [tok_beside]
    omega
  · rw [hses,hhad']
    intro hc
    refine (hhad hc).imp_right fun hin => ?_
    exact Multiset.mem_add.mpr (Or.inr ((Multiset.mem_cons.mp hin).resolve_left (by simp)))
  · rw [tok_beside,hsum,hhad',Nat.zero_add]
    simp only [arrivals,hstats]
    exact harr
  · have hclean : Cleaning ⟨c',beside fs m⟩ ↔ Cleaning ⟨c,.addSession::ₘm⟩ := by
      simp [Cleaning,hcsum,hran,cleanupBodies]
    simp only [departures,hses,hstats,hhad',hclean]
    exact hdep

/-- `_was_connected.store(true)`. -/
theorem Counted.connect {f f' : Frame Packet} (h : Counted g x ⟨c,f::ₘm⟩)
    (hhad' : c'.hadConnected=c.hadConnected) (hran : c'.ran=c.ran)
    (hf : counting f=counting f') (hc : cleanupBodies f=cleanupBodies f')
    (hw : c.hadConnected ∨ 0<f'.greeting) :
    Counted (g.connect x) x ⟨c',beside [f'] m⟩ := by
  obtain ⟨-,-,harr,hdep⟩ := h
  constructor
  · intro _
    rw [hhad']
    refine hw.imp_right fun hpos => ?_
    simp only [tok_beside,List.map_cons,List.sum_cons]
    omega
  · intro _
    left
    simp [Game.State.connect,Game.State.setSession]
  · rw [hhad']
    simp only [tok_beside,List.map_cons,List.map_nil,List.sum_cons,List.sum_nil,Nat.add_zero,← hf]
    simp only [tok_cons] at harr
    exact harr
  · have hclean : Cleaning ⟨c',beside [f'] m⟩ ↔ Cleaning ⟨c,f::ₘm⟩ := by
      simp [Cleaning,hran,hc]
    have hsame : departures (g.connect x) x=departures g x := by
      simp only [departures,Game.State.connect,Game.State.setSession,Function.update_self]
      rfl
    rw [hsame,hhad']
    simp only [hclean]
    exact hdep

theorem Counted.fire {f : Frame Packet} (h : Counted g x ⟨c,f::ₘm⟩)
    (hs : Sound (⟨c,f::ₘm⟩ : Local Packet)) (hl : Linked g x ⟨c,f::ₘm⟩)
    (hx : exec c o f=some (c',fs)) :
    Counted (gameStep e g x c.pipe.isConnect f).1 x ⟨c',beside fs m⟩ := by
  cases f with
  | body cleanup => exact h.body hx
  | job j => exact h.job hs hl hx
  | addSession => exact h.addSession hx
  | processConnect =>
    cases hx
    exact h.connect rfl rfl rfl rfl (Or.inr Nat.one_pos)
  | storeConnect =>
    cases hx
    apply h.connected hl rfl rfl rfl
    left
    exact hl.connected (hl.welcome (by simp [Frame.receives]))
  | rejectConnection =>
    have hcon := (hl.account.of_fresh (by simp [Frame.fresh])).2.2.2.1
    simp only at hcon
    simp only [exec,hcon] at hx
    cases hx
    exact h.connected hl rfl rfl rfl (Or.inr rfl)
  | countConnect =>
    cases hx
    exact (h.countConnect .registerRecv rfl rfl rfl rfl (by simp)).2
  | rejectCount =>
    cases hx
    exact (h.countConnect .rejectNotice rfl rfl rfl rfl (by simp)).2
  | rejectStore =>
    have hhad : c.hadConnected := by
      have harr := h.arrived
      cases hc : c.hadConnected with
      | true => rfl
      | false => simp [hc,counting] at harr
    cases hx
    exact h.connect rfl rfl rfl rfl (Or.inl hhad)
  | rejectClose =>
    cases hx
    apply h.congr <;> first | rfl | simp [Cleaning,cleanupBodies,Frame.greeting,counting,beside]
  | rejectNotice =>
    simp only [exec] at hx
    split at hx <;> cases hx
    all_goals
      apply h.congr <;> first
        | rfl
        | simp [Cleaning,cleanupBodies,Frame.greeting,counting,beside,disconnect]
  | _ =>
    obtain ⟨-,hcsum,-,hfcb,hran,-⟩ := exec_outside hx (by simp) (by simp)
    apply h.settled hx rfl _ rfl Iff.rfl rfl
    simp only [tok_beside,tok_cons,hcsum,hfcb,hran]

end

/-- What is known of one session of a running server. -/
structure Resident (g : Game.State S) (x : S) (l : Local Packet) : Prop where
  sound : Sound l
  linked : Linked g x l
  listed : Listed g x l
  counted : Counted g x l

theorem resident_init (maxSessionCount : Int) (x : S) :
    Resident (Game.State.init maxSessionCount) x ⟨Core.init,0⟩ :=
  ⟨Sound.init,linked_init maxSessionCount x,listed_init maxSessionCount x,
    counted_init maxSessionCount x⟩

section

variable {e : Env} {g : Game.State S} {x : S} {c c' : Core Packet} {o : Choice Packet}
  {fs : List (Frame Packet)} {m : Multiset (Frame Packet)}

theorem Resident.fire {f : Frame Packet} (h : Resident g x ⟨c,f::ₘm⟩) (hg : Game.Inv g)
    (hx : exec c o f=some (c',fs)) (ho : o.admission=(gameStep e g x c.pipe.isConnect f).2.1)
    (hbody : o.body=(gameStep e g x c.pipe.isConnect f).2.2) :
    Resident (gameStep e g x c.pipe.isConnect f).1 x ⟨c',beside fs m⟩ :=
  ⟨h.sound.step (Step.fire o m hx),h.linked.fire hg hx hbody,h.listed.fire hx ho hbody,
    h.counted.fire h.sound h.linked hx⟩

theorem Resident.enter {entry : Entry} (h : Resident g x ⟨c,m⟩) (ha : Reached ⟨c,m⟩ entry)
    (hx : enter c entry=some (c',fs)) : Resident g x ⟨c',beside fs m⟩ := by
  obtain ⟨-,hcsum,hran,-⟩ := enter_outside hx
  have hhist : c'.admitted=c.admitted ∧ c'.hadConnected=c.hadConnected ∧
      (fs.map Frame.greeting).sum=0 ∧ (fs.map counting).sum=0 := by
    cases enter_enters hx <;> exact ⟨rfl,rfl,rfl,rfl⟩
  obtain ⟨hadm,hhad,hgreet,hcount⟩ := hhist
  have hclean : tok cleanupBodies (beside fs m)=tok cleanupBodies m := by
    rw [tok_beside,hcsum,Nat.zero_add]
  refine ⟨h.sound.step (Step.enter ha hx),h.linked.enter ha.allowed hx,?_,?_⟩
  · exact h.listed.congr hadm hran hclean Iff.rfl rfl rfl
  · refine h.counted.congr hhad ?_ ?_ ?_ ?_ rfl Iff.rfl rfl
    · simp only [Cleaning,hclean,hran]
    · rw [tok_beside,hgreet,Nat.zero_add]
    · rw [tok_beside,hcount,Nat.zero_add]
    · exact fun hin => Multiset.mem_add.mpr (Or.inr hin)

theorem Resident.congr {g' : Game.State S} {l : Local Packet} (h : Resident g x l)
    (hu : Untouched g g' x) : Resident g' x l := by
  refine ⟨h.sound,h.linked.congr hu,?_,?_⟩
  · exact h.listed.congr rfl rfl rfl hu.listed (by rw [hu.sessions]) (by rw [hu.sessions])
  · apply h.counted.congr rfl Iff.rfl rfl rfl id (by rw [hu.sessions]) hu.arrived
    simp only [departures,hu.sessions,hu.departed]

/-- The counters stay in step with their histories. -/
theorem counters_gameStep {f : Frame Packet} (h : Resident g x ⟨c,f::ₘm⟩) (hc : Counters g) :
    Counters (gameStep e g x c.pipe.isConnect f).1 := by
  cases f with
  | addSession =>
    simp only [gameStep]
    unfold SessionManager.addSession
    split_ifs with hin hfull
    · exact hc
    · exact hc
    · refine ⟨hc.connect,hc.disconnect,?_⟩
      simp only
      rw [Finset.card_insert_of_notMem hin,hc.sessionCount]
      rfl
  | countConnect | rejectCount =>
    have hnot := (h.counted.countConnect .endJob rfl rfl rfl rfl (by simp)).1
    refine ⟨?_,hc.disconnect,hc.sessionCount⟩
    simp only [gameStep,Game.State.countConnect]
    rw [Finset.card_insert_of_notMem hnot,hc.connect]
  | body cleanup =>
    simp only [gameStep]
    split
    · exact hc
    · rename_i op rest htodo
      have hnot := (h.counted.advance htodo e.codec).1
      obtain ⟨hcon,hdis,hcount⟩ := (Game.exec_counters e.codec g x op).2.2.2.2.2 hc hnot
      exact ⟨hcon,hdis,hcount⟩
  | job j =>
    cases j with
    | packet pkt =>
      cases pkt with
      | request pkt =>
        simp only [gameStep]
        split <;> exact ⟨hc.connect,hc.disconnect,hc.sessionCount⟩
      | other => exact hc
    | cleanup => exact ⟨hc.connect,hc.disconnect,hc.sessionCount⟩
  | _ => exact ⟨hc.connect,hc.disconnect,hc.sessionCount⟩

end

/-- What is known of a running server. -/
structure Running [Fintype T] (s : State T S) : Prop where
  game : Game.Inv s.game
  counters : Counters s.game
  resident : ∀ x, Resident s.game x (s.view x)

theorem running_init [Fintype T] (maxSessionCount : Int) :
    Running (State.init maxSessionCount : State T S) := by
  refine ⟨Game.inv_init maxSessionCount,Game.counters_init maxSessionCount,?_⟩
  intro x
  rw [view_init]
  exact resident_init maxSessionCount x

variable [DecidableEq T] [Fintype T]

/-- Every step of a server whose sessions are entered as `Reached` says. -/
theorem Running.step {e : Env} (hc : ∀ str, str≠[] → e.codec.multiByteToWideChar str≠[])
    {s s' : State T S} {a : Action T S} (h : Running s)
    (ha : ∀ t x entry, a=.enter t x entry → Reached (s.view x) entry)
    (hs : step e s a=some s') : Running s' := by
  have hstep : Game.Inv s'.game ∧ Counters s'.game := by
    cases a with
    | run t ok recv =>
      obtain ⟨x,f,rest,c,fs,hcalls,hx,rfl⟩ := step_run hs
      obtain ⟨⟨m,hm,-⟩,-⟩ := view_replace (g:=s.game) hcalls c fs
      have hres := h.resident x
      rw [hm] at hres
      exact ⟨hres.linked.game hc h.game,counters_gameStep hres h.counters⟩
    | enter t x entry =>
      obtain ⟨c,fs,-,-,rfl⟩ := step_enter hs
      exact ⟨h.game,h.counters⟩
  refine ⟨hstep.1,hstep.2,sessions_step ha hs h.resident ?_ ?_ ?_⟩
  · intro x c m o f c' fs hres hx hadm hbody
    exact hres.fire h.game hx hadm hbody
  · intro x c m entry c' fs hres hreached hx
    exact hres.enter hreached hx
  · intro x y isConnect f hy hres
    exact hres.congr (gameStep_other e s.game hy isConnect f)

end IocpServer.Server
