import IocpServer.Server.Residence

set_option linter.unusedSectionVars false

namespace IocpServer.Server

open NetWork (SessionManager)
open NetWork.Lifecycle

variable {T S : Type} [DecidableEq S]

/-- What an operation of a job does to the list of sessions. -/
theorem exec_members (c : Game.Codec) (g : Game.State S) (x : S) (op : Game.Op) :
    (op=.eraseSession ∧ x∈g.manager.sessions ∧
      (Game.exec c g x op).1.manager.sessions=g.manager.sessions.erase x ∧
      (Game.exec c g x op).1.manager.sessionCount=g.manager.sessionCount-1 ∧
      (Game.exec c g x op).1.manager.maxSessionCount=g.manager.maxSessionCount) ∨
    (Game.exec c g x op).1.manager.sessions=g.manager.sessions ∧
      (Game.exec c g x op).1.manager.sessionCount=g.manager.sessionCount ∧
      (Game.exec c g x op).1.manager.maxSessionCount=g.manager.maxSessionCount := by
  cases op with
  | eraseSession =>
    by_cases hin : x∈g.manager.sessions
    · exact Or.inl ⟨rfl,hin,by simp [Game.exec,SessionManager.eraseSession,hin]⟩
    · exact Or.inr (by simp [Game.exec,SessionManager.eraseSession,hin])
  | addAccountSession | addNameSession | releaseLogoutSession | releaseNameSession =>
    right
    simp only [Game.exec,SessionManager.addAccountSession,SessionManager.addNameSession,
      SessionManager.releaseLogoutSession,SessionManager.releaseNameSession]
    split <;> simp
  | loginCall | ackLogin | logoutCall | enterCall | exitCall =>
    right
    simp only [Game.exec]
    split <;> exact ⟨rfl,rfl,rfl⟩
  | _ => exact Or.inr ⟨rfl,rfl,rfl⟩

/-- What a step in session `x` does to the list of sessions: `add_session` adds `x` if there is room,
a job takes `x` out, and nothing else changes it. -/
inductive Members (g g' : Game.State S) (x : S) : Frame Packet → Option Bool → Prop where
  | joins (hx : x∉g.manager.sessions) (hroom : g.manager.sessionCount<g.manager.maxSessionCount)
      (hs : g'.manager.sessions=insert x g.manager.sessions)
      (hn : g'.manager.sessionCount=g.manager.sessionCount+1) : Members g g' x .addSession (some true)
  | leaves (cleanup : Bool) (admission : Option Bool) (hx : x∈g.manager.sessions)
      (htodo : ∃ rest, (g.sessions x).todo=.eraseSession::rest)
      (hs : g'.manager.sessions=g.manager.sessions.erase x)
      (hn : g'.manager.sessionCount=g.manager.sessionCount-1) :
      Members g g' x (.body cleanup) admission
  | stays (f : Frame Packet) (admission : Option Bool)
      (ha : f=.addSession → admission≠some true)
      (hs : g'.manager.sessions=g.manager.sessions)
      (hn : g'.manager.sessionCount=g.manager.sessionCount) : Members g g' x f admission

theorem gameStep_members (e : Env) (g : Game.State S) (x : S) (isConnect : Bool) (f : Frame Packet) :
    Members g (gameStep e g x isConnect f).1 x f (gameStep e g x isConnect f).2.1 ∧
      (gameStep e g x isConnect f).1.manager.maxSessionCount=g.manager.maxSessionCount := by
  cases f with
  | addSession =>
    simp only [gameStep,SessionManager.addSession]
    split_ifs with hin hfull
    · exact ⟨.stays _ _ (by simp) rfl rfl,rfl⟩
    · exact ⟨.stays _ _ (by simp) rfl rfl,rfl⟩
    · exact ⟨.joins hin (by omega) rfl rfl,rfl⟩
  | body cleanup =>
    simp only [gameStep]
    split
    · exact ⟨.stays _ _ (by simp) rfl rfl,rfl⟩
    · rename_i op rest htodo
      rcases exec_members e.codec g x op with ⟨rfl,hin,hs,hn,hm⟩|⟨hs,hn,hm⟩
      · exact ⟨.leaves _ _ hin ⟨rest,htodo⟩ hs hn,hm⟩
      · exact ⟨.stays _ _ (by simp) hs hn,hm⟩
  | job j =>
    cases j with
    | packet pkt =>
      cases pkt with
      | request pkt =>
        simp only [gameStep]
        split <;> exact ⟨.stays _ _ (by simp) rfl rfl,rfl⟩
      | other => exact ⟨.stays _ _ (by simp) rfl rfl,rfl⟩
    | cleanup => exact ⟨.stays _ _ (by simp) rfl rfl,rfl⟩
  | _ => exact ⟨.stays _ _ (by simp) rfl rfl,rfl⟩

/-- The count stays the size of the list and within its limit. -/
theorem Members.size {g g' : Game.State S} {x : S} {f : Frame Packet} {admission : Option Bool}
    (h : Members g g' x f admission)
    (hcount : g.manager.sessionCount=g.manager.sessions.card)
    (hlimit : g.manager.sessionCount ≤ g.manager.maxSessionCount) :
    g'.manager.sessionCount=g'.manager.sessions.card ∧
      g'.manager.sessionCount ≤ g.manager.maxSessionCount := by
  cases h with
  | joins hx hroom hs hn =>
    rw [hs,hn,Finset.card_insert_of_notMem hx,hcount]
    exact ⟨rfl,by omega⟩
  | leaves cleanup admission hx htodo hs hn =>
    have hcard := Finset.card_erase_add_one hx
    rw [hs,hn]
    omega
  | stays f admission ha hs hn =>
    rw [hs,hn]
    exact ⟨hcount,hlimit⟩

/-- The number of sessions that `_session_count` claims. -/
def State.count (s : State T S) : Int := s.game.manager.sessionCount

/-- The server with a record, for each session, of how often it has raised `_session_count` and of how
often it has lowered it. -/
structure Ledger (T S : Type) where
  server : State T S
  admissions : S → Nat
  decrements : S → Nat

namespace Ledger

def init (maxSessionCount : Int) : Ledger T S := ⟨State.init maxSessionCount,fun _ => 0,fun _ => 0⟩

/-- `addAgain` is a call of `add_session` for a session that is in the list. -/
inductive Action (T S : Type) where
  | server (a : Server.Action T S)
  | addAgain (x : S)

/-- The session in whose method the step is taken. -/
def actor (s : State T S) : Server.Action T S → Option S
  | .run t _ _ => (s.calls t).head?.map Prod.fst
  | .enter _ x _ => some x

def credit (n : S → Nat) : Option S → S → Nat
  | some x => Function.update n x (n x+1)
  | none => n

theorem credit_self (n : S → Nat) (x : S) (p : Prop) [Decidable p] :
    (if p then credit n (some x) else n) x=if p then n x+1 else n x := by
  split <;> simp [credit]

theorem credit_of_ne (n : S → Nat) {x y : S} (h : y≠x) (p : Prop) [Decidable p] :
    (if p then credit n (some x) else n) y=n y := by
  split <;> simp [credit,h]

variable [DecidableEq T]

def step (e : Env) (l : Ledger T S) : Action T S → Option (Ledger T S)
  | .server a =>
    (Server.step e l.server a).map fun s =>
      ⟨s,if l.server.count<s.count then credit l.admissions (actor l.server a) else l.admissions,
        if s.count<l.server.count then credit l.decrements (actor l.server a) else l.decrements⟩
  | .addAgain x =>
    match l.server.game.manager.addSession x with
    | some (false,m) =>
      some { l with server := { l.server with game := { l.server.game with manager := m } } }
    | _ => none

/-- Every session is offered once. -/
def Ok [Fintype T] (l : Ledger T S) : Action T S → Prop
  | .server a => Admission l.server a
  | .addAgain _ => True

end Ledger

/-- `add_session` has refused session `x`. -/
def Refused (s : State T S) (x : S) : Prop :=
  (s.cores x).offered ∧ (s.cores x).admitted=false ∧ ∀ t, (x,.addSession)∉s.calls t

/-- What is known of a session and of its record: it was admitted `na` times and has lowered
`_session_count` `nd` times. -/
structure Member (g : Game.State S) (x : S) (l : Local Packet) (na nd : Nat) : Prop where
  account : Account l
  welcome : Welcome l
  greeting : Greeting l
  listed : Listed g x l
  idle : tok bodies l.frames=0 → (g.sessions x).todo=[]
  leaves : Cleaning l → x∈g.manager.sessions → .eraseSession∈(g.sessions x).todo
  admissions : na=l.core.admitted.toNat
  decrements : nd+(if x∈g.manager.sessions then 1 else 0)=na

theorem member_init (maxSessionCount : Int) (x : S) :
    Member (Game.State.init maxSessionCount) x ⟨Core.init,0⟩ 0 0 := by
  refine ⟨Account.init,Welcome.init,Greeting.init,listed_init maxSessionCount x,fun _ => rfl,?_,rfl,
    ?_⟩
  · intro _ hin
    simp [Game.State.init,SessionManager.init] at hin
  · simp [Game.State.init,SessionManager.init]

namespace Member

variable {e : Env} {g g' : Game.State S} {x : S} {c c' : Core Packet} {o : Choice Packet}
  {f : Frame Packet} {fs : List (Frame Packet)} {m : Multiset (Frame Packet)} {na nd : Nat}

/-- A session that nobody has stepped in. -/
theorem congr {l : Local Packet} (h : Member g x l na nd) (hu : Untouched g g' x) :
    Member g' x l na nd := by
  obtain ⟨hacc,hwel,hgreet,hlisted,hidle,hleaves,hadm,hdec⟩ := h
  refine ⟨hacc,hwel,hgreet,?_,?_,?_,hadm,?_⟩
  · exact hlisted.congr rfl rfl rfl hu.listed (by rw [hu.sessions]) (by rw [hu.sessions])
  · rw [hu.sessions]
    exact hidle
  · rw [hu.sessions,hu.listed]
    exact hleaves
  · simp only [hu.listed]
    exact hdec

theorem enter {entry : Entry} (h : Member g x ⟨c,m⟩ na nd) (ha : Allowed ⟨c,m⟩ entry)
    (hx : enter c entry=some (c',fs)) : Member g x ⟨c',beside fs m⟩ na nd := by
  obtain ⟨hb,hcb,hran,-⟩ := enter_outside hx
  have hadm := enter_admitted hx
  have hclean : tok cleanupBodies (beside fs m)=tok cleanupBodies m := by
    rw [tok_beside,hcb,Nat.zero_add]
  refine ⟨h.account.enter ha hx,h.welcome.step (Step.enter ha hx),
    h.greeting.step h.account (Step.enter ha hx),
    h.listed.congr hadm hran hclean Iff.rfl rfl rfl,?_,?_,?_,h.decrements⟩
  · simp only [tok_beside,hb,Nat.zero_add]
    exact h.idle
  · simp only [Cleaning,hclean,hran]
    exact h.leaves
  · simp only [hadm]
    exact h.admissions

/-- A session whose admission is to be decided was not admitted before. -/
theorem not_admitted (h : Member g x ⟨c,.addSession::ₘm⟩ na nd) : c.admitted=false := by
  by_contra hne
  have hfresh := h.account.offered
  have hone := Bool.toNat_le c.offered
  have hle : tok Frame.greeting m ≤ tok Frame.fresh m := by
    apply tok_mono
    intro f
    cases f <;> simp [Frame.greeting,Frame.fresh]
  simp only [tok_cons,Frame.fresh] at hfresh
  rcases h.greeting.connected (by simpa using hne) with hhad|hgreet
  · simp only at hhad
    rw [hhad,Bool.toNat_true] at hfresh
    omega
  · simp only [tok_cons,Frame.greeting] at hgreet
    omega

/-- A job that is about to start finds nothing to do. -/
theorem job_idle {j : Job Packet} (h : Member g x ⟨c,.job j::ₘm⟩ na nd) :
    (g.sessions x).todo=[] := by
  have hrun := h.account.running
  have hone := Bool.toNat_le c.running
  have hle := bodies_le m
  simp only [tok_cons,Frame.working] at hrun
  apply h.idle
  simp only [tok_cons,bodies]
  omega

theorem fire_body {cleanup : Bool} (h : Member g x ⟨c,.body cleanup::ₘm⟩ na nd)
    (hx : exec c o (.body cleanup)=some (c',fs))
    (hbody : o.body=(gameStep e g x c.pipe.isConnect (.body cleanup)).2.2) :
    (tok bodies (beside fs m)=0 →
      ((gameStep e g x c.pipe.isConnect (.body cleanup)).1.sessions x).todo=[]) ∧
    (Cleaning ⟨c',beside fs m⟩ →
      x∈(gameStep e g x c.pipe.isConnect (.body cleanup)).1.manager.sessions →
      .eraseSession∈((gameStep e g x c.pipe.isConnect (.body cleanup)).1.sessions x).todo) := by
  have hclean : Cleaning ⟨c',beside fs m⟩ ↔ Cleaning ⟨c,.body cleanup::ₘm⟩ := by
    simp only [Cleaning,(exec_body (m:=m) hx).1]
  simp only [gameStep] at hbody ⊢
  cases htodo : (g.sessions x).todo with
  | nil =>
    have hleaves := h.leaves
    rw [htodo] at hleaves
    refine ⟨fun _ => htodo,fun hcl hin => ?_⟩
    rw [hclean] at hcl
    exact absurd (hleaves hcl hin) List.not_mem_nil
  | cons op rest =>
    simp only [htodo] at hbody ⊢
    constructor
    · have hstay : bodies (.body cleanup) ≤ (fs.map bodies).sum := by
        unfold bodyOf at hbody
        split at hbody <;> simp only [exec,hbody] at hx <;> cases hx <;> simp [bodies,disconnect]
      intro hzero
      simp only [tok_beside,bodies] at hzero hstay
      omega
    · rw [hclean,Game.advance_listed,Game.advance_sessions_self]
      intro hcl hin
      have hold := h.leaves hcl hin.1
      rw [htodo] at hold
      rcases List.mem_cons.mp hold with hop|hmem
      · exact absurd ⟨hop.symm,rfl⟩ hin.2
      · exact List.mem_append_right _ hmem

theorem fire_job {j : Job Packet} (h : Member g x ⟨c,.job j::ₘm⟩ na nd)
    (hx : exec c o (.job j)=some (c',fs)) :
    (tok bodies (beside fs m)=0 →
      ((gameStep e g x c.pipe.isConnect (.job j)).1.sessions x).todo=[]) ∧
    (Cleaning ⟨c',beside fs m⟩ →
      x∈(gameStep e g x c.pipe.isConnect (.job j)).1.manager.sessions →
      .eraseSession∈((gameStep e g x c.pipe.isConnect (.job j)).1.sessions x).todo) := by
  have hidle := h.job_idle
  cases j with
  | cleanup =>
    cases hx
    refine ⟨fun hzero => by simp [bodies] at hzero,fun _ _ => ?_⟩
    simpa [gameStep,Game.State.startCleanup,Game.State.setSession] using
      (Game.cleanup_ops (g.sessions x).toFields).2.1
  | packet pkt =>
    have hout : Cleaning ⟨c,.job (.packet pkt)::ₘm⟩ → x∉g.manager.sessions := by
      intro hcl hin
      have := h.leaves hcl hin
      rw [hidle] at this
      exact List.not_mem_nil this
    simp only [exec] at hx
    cases hx
    have hclean : Cleaning ⟨c,beside [if c.pipe.isConnect then .body false else .endJob] m⟩ ↔
        Cleaning ⟨c,.job (.packet pkt)::ₘm⟩ := by
      split <;> simp [Cleaning,cleanupBodies]
    have hman : (gameStep e g x c.pipe.isConnect (.job (.packet pkt))).1.manager=g.manager := by
      cases pkt with
      | request pkt =>
        simp only [gameStep]
        split <;> rfl
      | other => rfl
    rw [hclean,hman]
    refine ⟨fun hzero => ?_,fun hcl hin => absurd hin (hout hcl)⟩
    cases hcon : c.pipe.isConnect with
    | false => cases pkt <;> exact hidle
    | true => simp [hcon,bodies] at hzero

theorem fire_todo (h : Member g x ⟨c,f::ₘm⟩ na nd) (hx : exec c o f=some (c',fs))
    (hbody : o.body=(gameStep e g x c.pipe.isConnect f).2.2) :
    (tok bodies (beside fs m)=0 → ((gameStep e g x c.pipe.isConnect f).1.sessions x).todo=[]) ∧
    (Cleaning ⟨c',beside fs m⟩ → x∈(gameStep e g x c.pipe.isConnect f).1.manager.sessions →
      .eraseSession∈((gameStep e g x c.pipe.isConnect f).1.sessions x).todo) := by
  by_cases hb : ∃ b, f=.body b
  · obtain ⟨b,rfl⟩ := hb
    exact h.fire_body hx hbody
  by_cases hj : ∃ j, f=.job j
  · obtain ⟨j,rfl⟩ := hj
    exact h.fire_job hx
  simp only [not_exists] at hb hj
  obtain ⟨hsum,hcsum,hfb,hfcb,hran,-⟩ := exec_outside hx hb hj
  have hidle := h.idle
  have hleaves := h.leaves
  simp only [Cleaning,tok_cons,tok_beside,hsum,hcsum,hfb,hfcb,hran,Nat.zero_add] at hidle hleaves ⊢
  by_cases ha : f=.addSession
  · subst ha
    have hses : (gameStep e g x c.pipe.isConnect .addSession).1.sessions x=g.sessions x := by
      simp only [gameStep]
      split <;> rfl
    have hq := (h.account.of_fresh (by simp [Frame.fresh])).2.2.2.2
    have hr := h.account.ran
    have hle := cleanupBodies_le m
    simp only [tok_cons] at hq hr
    rw [hses]
    exact ⟨hidle,fun hpos => by omega⟩
  · rw [(gameStep_outside e g x c.pipe.isConnect hb hj ha).1,
      (gameStep_settled e g x c.pipe.isConnect hb hj ha).1]
    exact ⟨hidle,hleaves⟩

/-- A step of a thread in the session, with what it does to `_session_count` put on record. -/
theorem fire (h : Member g x ⟨c,f::ₘm⟩ na nd) (hx : exec c o f=some (c',fs))
    (ho : o.admission=(gameStep e g x c.pipe.isConnect f).2.1)
    (hbody : o.body=(gameStep e g x c.pipe.isConnect f).2.2) (g' : Game.State S)
    (hg : g'=(gameStep e g x c.pipe.isConnect f).1) :
    Member g' x ⟨c',beside fs m⟩
      (if g.manager.sessionCount<g'.manager.sessionCount then na+1 else na)
      (if g'.manager.sessionCount<g.manager.sessionCount then nd+1 else nd) := by
  have hmembers := (gameStep_members e g x c.pipe.isConnect f).1
  have hlisted := h.listed.fire hx ho hbody
  obtain ⟨hidle,hleaves⟩ := h.fire_todo hx hbody
  have hadm := h.admissions
  have hdec := h.decrements
  have hstep : Step Allowed ⟨c,f::ₘm⟩ ⟨c',beside fs m⟩ := Step.fire o m hx
  rw [← ho] at hmembers
  rw [← hg] at hmembers hlisted hidle hleaves
  suffices hrec : (if g.manager.sessionCount<g'.manager.sessionCount then na+1 else na)=
      c'.admitted.toNat ∧
      (if g'.manager.sessionCount<g.manager.sessionCount then nd+1 else nd)+
        (if x∈g'.manager.sessions then 1 else 0)=
      if g.manager.sessionCount<g'.manager.sessionCount then na+1 else na from
    ⟨h.account.fire hx,h.welcome.step hstep,h.greeting.step h.account hstep,hlisted,hidle,hleaves,
      hrec.1,hrec.2⟩
  generalize hadmission : o.admission=admission at hmembers
  cases hmembers with
  | joins hnot hroom hs hn =>
    have hno := h.not_admitted
    simp only [exec,hadmission] at hx
    cases hx
    simp only [hno,Bool.toNat_false] at hadm
    rw [if_pos (by omega),if_neg (by omega),hs,if_pos (Finset.mem_insert_self x _)]
    simp only [hadm,Nat.add_eq_zero_iff] at hdec
    exact ⟨by simp [hadm],by omega⟩
  | leaves cleanup admission hin htodo hs hn =>
    have hsame := exec_admitted hx (by simp)
    rw [if_neg (by omega),if_pos (by omega),hs,if_neg (Finset.notMem_erase x _),hsame]
    rw [if_pos hin] at hdec
    exact ⟨hadm,by omega⟩
  | stays f admission ha hs hn =>
    have hsame : c'.admitted=c.admitted := by
      by_cases hf : f=.addSession
      · subst hf
        simp only [exec] at hx
        split at hx <;> cases hx
        · rfl
        · exact absurd (hadmission.symm.trans ‹_›) (ha rfl)
        · rfl
      · exact exec_admitted hx hf
    rw [hn,if_neg (lt_irrefl _),if_neg (lt_irrefl _),hs,hsame]
    exact ⟨hadm,hdec⟩

end Member

/-- The list of sessions and the record of every session. -/
structure Ledger.Inv [Fintype T] (l : Ledger T S) (maxSessionCount : Int) : Prop where
  count : l.server.count=l.server.game.manager.sessions.card
  limit : l.server.count ≤ maxSessionCount
  max : l.server.game.manager.maxSessionCount=maxSessionCount
  member : ∀ x, Member l.server.game x (l.server.view x) (l.admissions x) (l.decrements x)

variable [Fintype T]

theorem Ledger.inv_init {maxSessionCount : Int} (h : 0 ≤ maxSessionCount) :
    (Ledger.init maxSessionCount : Ledger T S).Inv maxSessionCount := by
  refine ⟨rfl,h,rfl,fun x => ?_⟩
  rw [Ledger.init,view_init]
  exact member_init maxSessionCount x

variable [DecidableEq T] {e : Env}

theorem Ledger.Inv.run {l : Ledger T S} {maxSessionCount : Int} (h : l.Inv maxSessionCount)
    {t : T} {ok : Bool} {recv : Recv Packet} {l' : Ledger T S}
    (hs : l.step e (.server (.run t ok recv))=some l') : l'.Inv maxSessionCount := by
  simp only [Ledger.step] at hs
  obtain ⟨s,hs,hl⟩ := Option.map_eq_some_iff.mp hs
  obtain ⟨x,f,rest,c,fs,hcalls,hx,rfl⟩ := step_run hs
  subst hl
  obtain ⟨⟨m,hm,hm'⟩,hother⟩ :=
    view_replace (g:=(gameStep e l.server.game x (l.server.cores x).pipe.isConnect f).1) hcalls c fs
  have hmember := h.member x
  rw [hm] at hmember
  have hfire := hmember.fire hx rfl rfl _ rfl
  obtain ⟨hmembers,hmax⟩ := gameStep_members e l.server.game x (l.server.cores x).pipe.isConnect f
  have hactor : Ledger.actor l.server (.run t ok recv)=some x := by
    simp [Ledger.actor,hcalls]
  obtain ⟨hcount,hlimit,hmax0,hall⟩ := h
  simp only [State.count] at hcount hlimit
  have hsize := hmembers.size hcount (hmax0 ▸ hlimit)
  rw [hmax0] at hsize
  refine ⟨hsize.1,hsize.2,hmax.trans hmax0,fun y => ?_⟩
  rw [hactor]
  by_cases hy : y=x
  · subst hy
    simp only [Ledger.credit_self]
    rw [hm']
    exact hfire
  · simp only [Ledger.credit_of_ne _ hy]
    rw [hother y hy]
    exact (hall y).congr (gameStep_other e l.server.game hy _ f)

theorem Ledger.Inv.enter {l : Ledger T S} {maxSessionCount : Int} (h : l.Inv maxSessionCount)
    {t : T} {x : S} {entry : Entry} (ha : Allowed (l.server.view x) entry) {l' : Ledger T S}
    (hs : l.step e (.server (.enter t x entry))=some l') : l'.Inv maxSessionCount := by
  simp only [Ledger.step] at hs
  obtain ⟨s,hs,hl⟩ := Option.map_eq_some_iff.mp hs
  obtain ⟨c,fs,-,hx,rfl⟩ := step_enter hs
  subst hl
  obtain ⟨hself,hother⟩ := view_push (s:=l.server) (g:=l.server.game) (x:=x) (t:=t) c fs
  have hcount : (l.server.move l.server.game x c t (Stacks.on x fs++l.server.calls t)).count=
      l.server.count := rfl
  refine ⟨h.count,h.limit,h.max,fun y => ?_⟩
  simp only [hcount,lt_self_iff_false,if_false]
  by_cases hy : y=x
  · subst hy
    have hmember := (h.member y).enter ha hx
    rw [← hself] at hmember
    exact hmember
  · have hmember := h.member y
    rw [← hother y hy] at hmember
    exact hmember

/-- A session that is in the list is not added again. -/
theorem Ledger.step_addAgain {l l' : Ledger T S} {x : S} (hs : l.step e (.addAgain x)=some l') :
    l'=l := by
  simp only [Ledger.step] at hs
  split at hs
  · rename_i m hadd
    unfold SessionManager.addSession at hadd
    split_ifs at hadd
    · cases hadd
      cases hs
      rfl
    · cases hadd
  · cases hs

theorem Ledger.Inv.step {l : Ledger T S} {maxSessionCount : Int} (h : l.Inv maxSessionCount)
    {a : Ledger.Action T S} (ha : Ledger.Ok l a) {l' : Ledger T S} (hs : l.step e a=some l') :
    l'.Inv maxSessionCount := by
  cases a with
  | server a =>
    cases a with
    | run t ok recv => exact h.run hs
    | enter t x entry => exact h.enter ha hs
  | addAgain x =>
    rw [Ledger.step_addAgain hs]
    exact h

theorem Ledger.reaches_inv {maxSessionCount : Int} (hmax : 0 ≤ maxSessionCount) {l : Ledger T S}
    (h : Reaches (Ledger.step e) Ledger.Ok (Ledger.init maxSessionCount) l) :
    l.Inv maxSessionCount :=
  h.invariant (P:=fun l => l.Inv maxSessionCount) (Ledger.inv_init hmax)
    fun _ _ _ hi ha hs => hi.step ha hs

/-- No method leads back into `add_session`. -/
theorem exec_not_addSession {c c' : Core Packet} {o : Choice Packet} {f : Frame Packet}
    {fs : List (Frame Packet)} (hx : exec c o f=some (c',fs)) : .addSession∉fs := by
  by_cases ha : f.admitting=0
  · intro hin
    have hzero := List.sum_eq_zero_iff.mp (exec_settled hx ha).2.2.2.2 _ (List.mem_map_of_mem hin)
    cases hzero
  · cases exec_move hx with
    | pipe => exact absurd rfl ha
    | _ => simp [disconnect]

/-- What was refused stays refused. -/
theorem Refused.step {s s' : State T S} {x : S} (h : Refused s x) {a : Action T S}
    (ha : Admission s a) (hs : Server.step e s a=some s') : Refused s' x := by
  obtain ⟨hoff,hadm,hframes⟩ := h
  cases a with
  | run t ok recv =>
    obtain ⟨y,f,rest,c,fs,hcalls,hx,rfl⟩ := step_run hs
    have hrest : ∀ p∈rest, p∈s.calls t := by
      intro p hp
      rw [hcalls]
      exact List.mem_cons_of_mem _ hp
    have hnone : ∀ u, (x,.addSession)∉(s.move
        (gameStep e s.game y (s.cores y).pipe.isConnect f).1 y c t (Stacks.on y fs++rest)).calls u := by
      intro u hin
      rcases mem_move hrest hin with hold|⟨-,hnew⟩
      · exact hframes u hold
      · exact exec_not_addSession hx hnew
    by_cases hy : x=y
    · subst hy
      have hf : f≠.addSession := by
        rintro rfl
        exact hframes t (by rw [hcalls]; exact List.mem_cons_self)
      refine ⟨?_,?_,hnone⟩ <;> simp only [State.move,Function.update_self]
      · exact (exec_offered hx).trans hoff
      · exact (exec_admitted hx hf).trans hadm
    · refine ⟨?_,?_,hnone⟩ <;> simp only [State.move,Function.update_of_ne hy]
      · exact hoff
      · exact hadm
  | enter t y entry =>
    obtain ⟨c,fs,-,hx,rfl⟩ := step_enter hs
    by_cases hy : x=y
    · subst hy
      have hne : entry≠.offer := by
        rintro rfl
        have hno := ha.1
        simp only [State.view] at hno
        rw [hoff] at hno
        cases hno
      obtain ⟨hoff',hadm',-⟩ := enter_histories hx hne
      refine ⟨?_,?_,?_⟩
      · simp only [State.move,Function.update_self]
        exact hoff'.trans hoff
      · simp only [State.move,Function.update_self]
        exact hadm'.trans hadm
      · intro u hin
        rcases mem_move (fun _ hp => hp) hin with hold|⟨-,hnew⟩
        · exact hframes u hold
        · have hnone := not_alone_of_enter hx hne _ hnew
          cases hnone
    · refine ⟨?_,?_,?_⟩
      · simp only [State.move,Function.update_of_ne hy]
        exact hoff
      · simp only [State.move,Function.update_of_ne hy]
        exact hadm
      · intro u hin
        have hsame := view_push (s:=s) (g:=s.game) (x:=y) (t:=t) c fs
        have hmem : Frame.addSession∈(s.view x).frames := by
          rw [← hsame.2 x hy]
          exact Stacks.mem_pending.mpr ⟨u,hin⟩
        obtain ⟨u',hu'⟩ := Stacks.mem_pending.mp hmem
        exact hframes u' hu'

theorem Refused.reaches {l l' : Ledger T S} {x : S} (h : Refused l.server x)
    (hr : Reaches (Ledger.step e) Ledger.Ok l l') : Refused l'.server x := by
  refine hr.invariant (P:=fun l => Refused l.server x) h ?_
  intro l a l' hl ha hs
  cases a with
  | server a =>
    simp only [Ledger.step] at hs
    obtain ⟨s,hserver,rfl⟩ := Option.map_eq_some_iff.mp hs
    exact hl.step ha hserver
  | addAgain x =>
    rw [Ledger.step_addAgain hs]
    exact hl

namespace Ledger.Inv

variable {l : Ledger T S} {maxSessionCount : Int}

/-- A session that was refused is not in the list and does not receive. -/
theorem refused (h : l.Inv maxSessionCount) {x : S} (hx : Refused l.server x) :
    x∉l.server.game.manager.sessions ∧ (l.server.cores x).receiving=false := by
  obtain ⟨-,hwel,hgreet,hlisted,-⟩ := h.member x
  have hadm := hx.2.1
  constructor
  · intro hin
    have := hlisted.admitted hin
    simp only [State.view,hadm] at this
    cases this
  · by_contra hne
    have hrecv : (l.server.view x).core.receiving=true := by simpa [State.view] using hne
    have hwelcomed := hwel (by simp [hrecv])
    have := hgreet.welcomed hwelcomed
    simp only [State.view,hadm] at this
    cases this

/-- The job that takes a session out of the list is the cleanup of that session. -/
theorem own_cleanup (h : l.Inv maxSessionCount) {t : T} {x : S} {cleanup : Bool}
    {rest : List (S×Frame Packet)} (hcalls : l.server.calls t=(x,.body cleanup)::rest)
    {ops : List Game.Op} (htodo : (l.server.game.sessions x).todo=.eraseSession::ops) :
    cleanup=true := by
  have hmember := h.member x
  obtain ⟨m,hm,-⟩ := (view_replace (g:=l.server.game) hcalls (l.server.cores x) []).1
  rw [hm] at hmember
  cases cleanup with
  | true => rfl
  | false =>
    have hrun := hmember.account.running
    have hone := Bool.toNat_le (l.server.cores x).running
    have hle : tok cleanupBodies m ≤ tok Frame.working m := by
      apply tok_mono
      intro f
      cases f with
      | body cleanup => cases cleanup <;> simp [cleanupBodies,Frame.working]
      | _ => simp [cleanupBodies]
    simp only [tok_cons,Frame.working] at hrun
    have hfinal := hmember.listed.handling (by simp only [tok_cons,cleanupBodies]; omega)
      .eraseSession (by rw [htodo]; exact List.mem_cons_self)
    cases hfinal

/-- After its cleanup a session is not in the list. -/
theorem out_of_ran (h : l.Inv maxSessionCount) {x : S} (hran : 0<(l.server.cores x).ran) :
    x∉l.server.game.manager.sessions := by
  obtain ⟨hacc,-,-,-,hidle,hleaves,-,-⟩ := h.member x
  have hq := hacc.queued
  have hr := hacc.ran
  have hhandling := hacc.handling
  have hone := Bool.toNat_le (l.server.view x).core.pipe.isDisconnect
  have hle := bodies_le_add (l.server.view x).frames
  have hpos : 0<(l.server.view x).core.ran := hran
  have htodo := hidle (by omega)
  intro hin
  have hmem := hleaves (by unfold Cleaning; omega) hin
  rw [htodo] at hmem
  exact List.not_mem_nil hmem

/-- `_session_count` goes down in the cleanup of a session that is in the list, and by one. -/
theorem decrement (h : l.Inv maxSessionCount) {a : Server.Action T S} {s' : State T S}
    (hs : Server.step e l.server a=some s') (hlt : s'.count<l.server.count) :
    ∃ t ok recv x rest, a=.run t ok recv ∧ l.server.calls t=(x,.body true)::rest ∧
      x∈l.server.game.manager.sessions ∧ s'.count=l.server.count-1 := by
  cases a with
  | run t ok recv =>
    obtain ⟨x,f,rest,c,fs,hcalls,hx,rfl⟩ := step_run hs
    have hmembers :=
      (gameStep_members e l.server.game x (l.server.cores x).pipe.isConnect f).1
    simp only [State.count,State.move] at hlt ⊢
    generalize (gameStep e l.server.game x (l.server.cores x).pipe.isConnect f).1=g' at hmembers hlt ⊢
    generalize (gameStep e l.server.game x (l.server.cores x).pipe.isConnect f).2.1=o at hmembers
    cases hmembers with
    | joins hnot hroom hs hn => omega
    | leaves cleanup admission hin htodo hs hn =>
      obtain ⟨ops,hops⟩ := htodo
      have hown := h.own_cleanup hcalls hops
      subst hown
      exact ⟨t,ok,recv,x,rest,rfl,hcalls,hin,hn⟩
    | stays f admission ha hs hn => omega
  | enter t x entry =>
    obtain ⟨c,fs,-,hx,rfl⟩ := step_enter hs
    exact absurd hlt (lt_irrefl _)

/-- A session that was refused leaves `_session_count` alone. -/
theorem refused_count (h : l.Inv maxSessionCount) {x : S} (hx : Refused l.server x) {t : T}
    {ok : Bool} {recv : Recv Packet} {f : Frame Packet} {rest : List (S×Frame Packet)}
    {s' : State T S} (hcalls : l.server.calls t=(x,f)::rest)
    (hs : Server.step e l.server (.run t ok recv)=some s') : s'.count=l.server.count := by
  obtain ⟨y,f',rest',c,fs,hcalls',hx',rfl⟩ := step_run hs
  rw [hcalls] at hcalls'
  cases hcalls'
  have hmembers := (gameStep_members e l.server.game x (l.server.cores x).pipe.isConnect f).1
  simp only [State.count,State.move]
  generalize (gameStep e l.server.game x (l.server.cores x).pipe.isConnect f).1=g' at hmembers ⊢
  generalize (gameStep e l.server.game x (l.server.cores x).pipe.isConnect f).2.1=o at hmembers
  cases hmembers with
  | joins hnot hroom hs hn =>
    exact absurd (by rw [hcalls]; exact List.mem_cons_self) (hx.2.2 t)
  | leaves cleanup admission hin htodo hs hn => exact absurd hin (h.refused hx).1
  | stays f admission ha hs hn => exact hn

end Ledger.Inv

/-- Admission control: `_session_count` is the size of the list and stays within its limit, a session
that was refused never gets into the list, receives or changes the count, and what a session has
raised the count by is given back at most once, by its own cleanup, and once that has run. -/
theorem admission_control {maxSessionCount : Int} (hmax : 0 ≤ maxSessionCount) {l : Ledger T S}
    (h : Reaches (Ledger.step e) Ledger.Ok (Ledger.init maxSessionCount) l) :
    (l.server.count=l.server.game.manager.sessions.card ∧ l.server.count ≤ maxSessionCount) ∧
    (∀ x, Refused l.server x →
      (∀ l', Reaches (Ledger.step e) Ledger.Ok l l' → Refused l'.server x ∧
        x∉l'.server.game.manager.sessions ∧ (l'.server.cores x).receiving=false) ∧
      ∀ t ok recv f rest s', l.server.calls t=(x,f)::rest →
        Server.step e l.server (.run t ok recv)=some s' → s'.count=l.server.count) ∧
    (∀ x, l.admissions x=(l.server.cores x).admitted.toNat ∧ l.decrements x ≤ l.admissions x ∧
      (0<(l.server.cores x).ran → l.decrements x=l.admissions x)) ∧
    ∀ a s', Server.step e l.server a=some s' → s'.count<l.server.count →
      ∃ t ok recv x rest, a=.run t ok recv ∧ l.server.calls t=(x,.body true)::rest ∧
        x∈l.server.game.manager.sessions ∧ s'.count=l.server.count-1 := by
  have hi := Ledger.reaches_inv hmax h
  refine ⟨⟨hi.count,hi.limit⟩,fun x hx => ⟨fun l' hr => ?_,?_⟩,fun x => ?_,?_⟩
  · have hx' := hx.reaches hr
    exact ⟨hx',(Ledger.reaches_inv hmax (h.trans hr)).refused hx'⟩
  · exact fun t ok recv f rest s' hcalls hs => hi.refused_count hx hcalls hs
  · have hadm := (hi.member x).admissions
    have hdec := (hi.member x).decrements
    refine ⟨hadm,by omega,fun hran => ?_⟩
    rw [if_neg (hi.out_of_ran hran)] at hdec
    exact hdec
  · exact fun a s' hs hlt => hi.decrement hs hlt

/-- A test for `Ledger.Ok` that can be run. -/
def Ledger.test (l : Ledger T S) : Ledger.Action T S → Bool
  | .server (.enter _ x .offer) =>
    !(l.server.cores x).offered && !(l.server.cores x).closing
  | .server (.enter _ _ .beginShutdown) => false
  | _ => true

theorem Ledger.ok_of_test (l : Ledger T S) (a : Ledger.Action T S) (h : l.test a) : Ledger.Ok l a := by
  cases a with
  | addAgain x => trivial
  | server a =>
    cases a with
    | run t ok recv => trivial
    | enter t x entry =>
      cases entry with
      | offer =>
        simp only [Ledger.test,Bool.and_eq_true,Bool.not_eq_eq_eq_not,Bool.not_true] at h
        exact h
      | beginShutdown => cases h
      | _ => trivial

/-- With room for one session, session `false` is added and `true` refused; then both are
disconnected and cleaned up. -/
theorem admission_control_full :
    ∃ l : Ledger Unit Bool, Reaches (Ledger.step asciiEnv) Ledger.Ok (Ledger.init 1) l ∧
      Refused l.server true ∧ true∉l.server.game.manager.sessions ∧ l.server.count=0 ∧
      l.decrements false=1 ∧ l.decrements true=0 := by
  let run (n : Nat) : List (Ledger.Action Unit Bool) :=
    List.replicate n (.server (.run () true .wait))
  let enter (x : Bool) (entry : Entry) : Ledger.Action Unit Bool := .server (.enter () x entry)
  have hrun : (runActions (fun (l : Ledger Unit Bool) a =>
        if l.test a then Ledger.step asciiEnv l a else none) (Ledger.init 1)
      ([enter false .offer]++run 5++[.addAgain false,enter true .offer]++run 11++
        [enter true (.sendCompleted 1)]++run 6++[enter true .disconnectCompleted]++run 4++
        [enter true .startJob]++run 12++[enter false .disconnect]++run 2++
        [enter false .disconnectCompleted]++run 4++[enter false .startJob]++run 12)).map
      (fun l => (l.server.count,(l.server.cores false).ran,
        [(l.server.cores true).offered,(l.server.cores true).admitted,(l.server.calls ()).isEmpty,
          (l.server.cores false).admitted]))=some (0,1,[true,false,true,true]) := by decide +kernel
  obtain ⟨l,hl,hfields⟩ := Option.map_eq_some_iff.mp hrun
  simp only [Prod.mk.injEq,List.cons.injEq,and_true,List.isEmpty_iff] at hfields
  obtain ⟨hcount,hran,hoff,hadm,hcalls,hadm'⟩ := hfields
  have hreach := Reaches.of_guarded Ledger.ok_of_test _ hl
  obtain ⟨-,hrefused,hrecord,-⟩ := admission_control (by decide : (0 : Int) ≤ 1) hreach
  have hx : Refused l.server true := ⟨hoff,hadm,fun t => by
    rw [hcalls]
    exact List.not_mem_nil⟩
  have hfalse := hrecord false
  have htrue := hrecord true
  rw [hadm'] at hfalse
  rw [hadm] at htrue
  refine ⟨l,hreach,hx,((hrefused true hx).1 l Reaches.refl).2.1,hcount,?_,?_⟩
  · exact (hfalse.2.2 (by rw [hran]; exact Nat.one_pos)).trans hfalse.1
  · exact Nat.le_zero.mp (htrue.2.1.trans htrue.1.le)

end IocpServer.Server
