import IocpServer.Framework.Threads
import IocpServer.NetWork.Heartbeat

namespace IocpServer.NetWork.Heartbeat

variable {S T : Type}

namespace Event

def subject : Event S → Option S
  | .check _ _ => none
  | .skip x _ | .read x _ _ | .disconnect x _ | .mark x _ | .ping x _ | .answer x | .pong x
  | .enlist x | .connect x | .close x | .release x => some x

/-- The events of the heartbeat thread. -/
def ofHeart : Event S → Bool
  | .check _ _ | .skip _ _ | .read _ _ _ | .disconnect _ _ | .mark _ _ | .ping _ _ => true
  | _ => false

/-- What the heartbeat thread does about a session that it has read. -/
def reaction : Event S → Bool
  | .disconnect _ _ | .mark _ _ | .ping _ _ => true
  | _ => false

end Event

/-- What the events say of one session: whether it is listed and connected, the pings marked and not
answered since, the pings sent and not answered since, and how many of each there were. It is
`prompted` as long as no pong comes before the ping it could answer. -/
structure View where
  registered : Bool
  connected : Bool
  unanswered : List (BitVec 64)
  outstanding : List (BitVec 64)
  marked : Nat
  sent : Nat
  begun : Nat
  pongs : Nat
  prompted : Bool

namespace View

def init : View := ⟨false,false,[],[],0,0,0,0,true⟩

def after (v : View) : Event S → View
  | .check _ _ | .skip _ _ | .read _ _ _ => v
  | .disconnect _ _ | .close _ => { v with connected := false }
  | .mark _ now => { v with unanswered := v.unanswered++[now], marked := v.marked+1 }
  | .ping _ now => { v with outstanding := v.outstanding++[now], sent := v.sent+1 }
  | .answer _ => { v with begun := v.begun+1, prompted := v.prompted && decide (v.begun<v.sent) }
  | .pong _ => { v with unanswered := [], outstanding := [], pongs := v.pongs+1 }
  | .enlist _ => { v with registered := true }
  | .connect _ => { v with connected := true }
  | .release _ => { v with registered := false }

end View

/-- How the events of a session stand to its atomics, while `handling` handlers are at it and, if
`sending`, the heartbeat thread is about to send it a ping. -/
structure Agrees (v : View) (c : Cell) (listed : Prop) (sending : Bool) (handling : Nat) : Prop where
  registered : v.registered=true ↔ listed
  connected : v.connected=c.isConnect
  unanswered : v.unanswered=if c.waitingPong then [c.lastPingTick] else []
  marked : v.marked ≤ v.pongs+c.waitingPong.toNat
  sent : v.marked=v.sent+sending.toNat
  begun : v.begun=v.pongs+handling
  prompted : v.prompted=true →
    v.begun ≤ v.sent ∧ v.outstanding=if sending then [] else v.unanswered

namespace Agrees

variable {v : View} {c : Cell} {listed : Prop} {sending : Bool} {n : Nat} {x : S} {now : BitVec 64}

theorem setTick (h : Agrees v c listed sending n) (hw : c.waitingPong=false) :
    Agrees v { c with lastPingTick := now } listed sending n := by
  obtain ⟨h1,h2,h3,h4,h5,h6,h7⟩ := h
  refine ⟨h1,h2,?_,h4,h5,h6,h7⟩
  simpa [hw] using h3

theorem mark (h : Agrees v c listed false n) (hw : c.waitingPong=false)
    (hnow : c.lastPingTick=now) :
    Agrees (v.after (.mark x now)) { c with waitingPong := true } listed true n := by
  obtain ⟨h1,h2,h3,h4,h5,h6,h7⟩ := h
  simp only [hw,Bool.false_eq_true,if_false,Bool.toNat_false] at h3 h4 h5
  refine ⟨h1,h2,?_,?_,?_,h6,fun hp => ?_⟩
  · simp [View.after,h3,hnow]
  · simpa [View.after] using h4
  · simpa [View.after] using h5
  · obtain ⟨hle,hout⟩ := h7 hp
    exact ⟨hle,by simpa [View.after,h3] using hout⟩

/-- A ping is sent. If pongs only answer pings, none came since it was marked. -/
theorem ping (h : Agrees v c listed true n) (hnow : c.lastPingTick=now) :
    Agrees (v.after (.ping x now)) c listed false n := by
  obtain ⟨h1,h2,h3,h4,h5,h6,h7⟩ := h
  refine ⟨h1,h2,h3,h4,by simpa [View.after] using h5,h6,fun hp => ?_⟩
  obtain ⟨hle,hout⟩ := h7 hp
  have hwait : c.waitingPong=true := by
    by_contra hw
    rw [Bool.not_eq_true] at hw
    simp only [hw,Bool.toNat_false,Bool.toNat_true] at h4 h5
    omega
  refine ⟨Nat.le_succ_of_le hle,?_⟩
  simp only [if_true] at hout
  simp [View.after,hout,h3,hwait,hnow]

theorem answer (h : Agrees v c listed sending n) :
    Agrees (v.after (.answer x)) c listed sending (n+1) := by
  obtain ⟨h1,h2,h3,h4,h5,h6,h7⟩ := h
  refine ⟨h1,h2,h3,h4,h5,by simp [View.after,h6,Nat.add_assoc],fun hp => ?_⟩
  simp only [View.after,Bool.and_eq_true,decide_eq_true_eq] at hp
  exact ⟨hp.2,(h7 hp.1).2⟩

theorem pong (h : Agrees v c listed sending (n+1)) :
    Agrees (v.after (.pong x)) { c with waitingPong := false } listed sending n := by
  obtain ⟨h1,h2,h3,h4,h5,h6,h7⟩ := h
  have hle := Bool.toNat_le c.waitingPong
  refine ⟨h1,h2,by simp [View.after],?_,h5,?_,fun hp => ⟨(h7 hp).1,by simp [View.after]⟩⟩
  · simp only [View.after,Bool.toNat_false]
    omega
  · simp only [View.after]
    omega

theorem setConnect (h : Agrees v c listed sending n) (on : Bool) :
    Agrees { v with connected := on } { c with isConnect := on } listed sending n :=
  ⟨h.registered,rfl,h.unanswered,h.marked,h.sent,h.begun,h.prompted⟩

theorem setListed {listed' : Prop} (h : Agrees v c listed sending n) (on : Bool)
    (hlisted : on=true ↔ listed') : Agrees { v with registered := on } c listed' sending n :=
  ⟨hlisted,h.connected,h.unanswered,h.marked,h.sent,h.begun,h.prompted⟩

end Agrees

variable [DecidableEq S]

def view (x : S) (log : List (Event S)) : View :=
  (log.filter fun e => e.subject=some x).foldl View.after View.init

theorem view_same {x : S} {log : List (Event S)} {e : Event S} (h : e.subject=some x) :
    view x (log++[e])=(view x log).after e := by
  simp [view,h]

theorem view_other {x : S} {log : List (Event S)} {e : Event S} (h : e.subject≠some x) :
    view x (log++[e])=view x log := by
  simp [view,h]

/-- The heartbeat thread is about to send a ping that it has marked. -/
def Beat.sending (x : S) : Beat S → Bool
  | .send _ y _ => decide (y=x)
  | _ => false

def At.handling (x : S) : At S → Nat
  | .idle => 0
  | .setTick y _ | .setFlag y => if y=x then 1 else 0

/-- Reading changes no view. -/
theorem view_seen (x : S) {log : List (Event S)} {e : Event S} (h : ∀ v : View, v.after e=v) :
    view x (log++[e])=view x log := by
  by_cases hx : e.subject=some x
  · rw [view_same hx,h]
  · exact view_other hx

section Agreement

variable [Fintype T]

def State.handling (s : State S T) (x : S) : Nat := ∑ t, (s.threads t).handling x

def Agreeing (s : State S T) : Prop :=
  ∀ x, Agrees (view x s.log) (s.cell x) (x∈s.manager.sessions) (s.heart.sending x) (s.handling x)

namespace Agreeing

variable {s : State S T}

theorem init (m : Int) : Agreeing (State.init m : State S T) := by
  intro x
  constructor <;> simp [State.init,State.handling,SessionManager.init,view,View.init,Cell.init,
    Beat.sending,At.handling]

end Agreeing

theorem handling_update [DecidableEq T] (s : State S T) (t : T) (a : At S) (x : S) :
    ∑ u, (Function.update s.threads t a u).handling x+(s.threads t).handling x=
      s.handling x+a.handling x :=
  sum_update (At.handling x) s.threads t a

/-- The heartbeat thread has read the flag of `x` in the call for `now`: there was a ping `p` that was
sent and not answered, and the thread has done nothing since. -/
def Silent (log : List (Event S)) (x : S) (now p : BitVec 64) : Prop :=
  ∃ past future, log=past++.read x true now::future ∧ (∀ e∈future, e.ofHeart=false) ∧
    (view x past).unanswered=[p] ∧ .ping x p∈past

/-- What the heartbeat thread knows at its position. -/
def Beat.Holds (s : State S T) : Beat S → Prop
  | .idle => True
  | .copy now | .visit now _ | .flag now _ _ => now=s.clock
  | .tick now x _ => now=s.clock ∧ Silent s.log x now (s.cell x).lastPingTick
  | .disconnect now x _ => now=s.clock ∧ Silent s.log x now (s.cell x).lastPingTick ∧
      pongTimeoutMs<now-(s.cell x).lastPingTick
  | .setTick now x _ => now=s.clock ∧ (s.cell x).waitingPong=false
  | .setFlag now x _ => now=s.clock ∧ (s.cell x).waitingPong=false ∧ (s.cell x).lastPingTick=now
  | .send now x _ => now=s.clock ∧ (s.cell x).lastPingTick=now

namespace Agreeing

variable {s s' : State S T}

/-- The heartbeat thread moves or reads. -/
theorem look (h : Agreeing s) (hview : ∀ x, view x s'.log=view x s.log) (hcell : s'.cell=s.cell)
    (hmanager : s'.manager=s.manager) (hthreads : s'.threads=s.threads)
    (hsending : ∀ x, s'.heart.sending x=s.heart.sending x) : Agreeing s' := by
  intro x
  rw [hview,hcell,hmanager,hsending,State.handling,hthreads]
  exact h x

/-- An event that concerns `x`. -/
theorem change (h : Agreeing s) {x : S} {e : Event S} {c : Cell} (hlog : s'.log=s.log++[e])
    (he : e.subject=some x) (hcell : s'.cell=Function.update s.cell x c)
    (hlisted : ∀ y, y≠x → (y∈s'.manager.sessions ↔ y∈s.manager.sessions))
    (hsending : ∀ y, y≠x → s'.heart.sending y=s.heart.sending y)
    (hhandling : ∀ y, y≠x → s'.handling y=s.handling y)
    (hx : Agrees ((view x s.log).after e) c (x∈s'.manager.sessions) (s'.heart.sending x)
      (s'.handling x)) : Agreeing s' := by
  intro y
  rw [hlog,hcell]
  by_cases hy : y=x
  · rw [hy,view_same he,Function.update_self]
    exact hx
  · have hne : e.subject≠some y := by
      rw [he]
      exact fun heq => hy (Option.some.inj heq).symm
    rw [view_other hne,Function.update_of_ne hy,hsending y hy,hhandling y hy,hlisted y hy]
    exact h y

/-- A store that the events do not show. -/
theorem store (h : Agreeing s) {x : S} {c : Cell} (hlog : s'.log=s.log)
    (hcell : s'.cell=Function.update s.cell x c) (hmanager : s'.manager=s.manager)
    (hsending : ∀ y, s'.heart.sending y=s.heart.sending y)
    (hhandling : ∀ y, s'.handling y=s.handling y)
    (hx : Agrees (view x s.log) c (x∈s.manager.sessions) (s.heart.sending x) (s.handling x)) :
    Agreeing s' := by
  intro y
  rw [hlog,hcell,hmanager,hsending,hhandling]
  by_cases hy : y=x
  · rw [hy,Function.update_self]
    exact hx
  · rw [Function.update_of_ne hy]
    exact h y

theorem turn (h : Agreeing s) (hheart : s.heart.Holds s) (ht : Turn s s') : Agreeing s' := by
  have hcell : ∀ x, s.cell=Function.update s.cell x (s.cell x) :=
    fun x => (Function.update_eq_self x s.cell).symm
  cases ht with
  | check now hb _ | done now hb | connected now x rest hb _ | timeout now x rest hb _
  | inTime now x rest hb _ =>
    exact h.look (fun _ => rfl) rfl rfl rfl (fun y => by rw [hb]; rfl)
  | copy now sessions hb _ _ | skip now x rest hb _ | waiting now x rest hb _
  | answered now x rest hb _ =>
    exact h.look (fun y => view_seen y fun _ => rfl) rfl rfl rfl (fun y => by rw [hb]; rfl)
  | disconnect now x rest hb =>
    have hx := h x
    rw [hb] at hx
    exact h.change rfl rfl rfl (fun _ _ => Iff.rfl) (fun y _ => by rw [hb]; rfl) (fun _ _ => rfl)
      (hx.setConnect false)
  | setTick now x rest hb =>
    rw [hb] at hheart
    exact h.store rfl rfl rfl (fun y => by rw [hb]; rfl) (fun _ => rfl) ((h x).setTick hheart.2)
  | mark now x rest hb =>
    have hx := h x
    rw [hb] at hheart hx
    refine h.change rfl rfl rfl (fun _ _ => Iff.rfl)
      (fun y hy => by rw [hb]; exact decide_eq_false (Ne.symm hy)) (fun _ _ => rfl) ?_
    have hsending : Beat.sending x (.send now x rest)=true := decide_eq_true rfl
    change Agrees _ _ _ (Beat.sending x (.send now x rest)) (s.handling x)
    rw [hsending]
    exact hx.mark hheart.2.1 hheart.2.2
  | ping now x rest hb =>
    have hx := h x
    rw [hb] at hheart hx
    have hsending : Beat.sending x (.send now x rest)=true := decide_eq_true rfl
    rw [hsending] at hx
    exact h.change rfl rfl (hcell x) (fun _ _ => Iff.rfl)
      (fun y hy => by rw [hb]; exact (decide_eq_false (Ne.symm hy)).symm) (fun _ _ => rfl)
      (hx.ping hheart.2)

theorem aside [DecidableEq T] (h : Agreeing s) (ht : Aside s s') : Agreeing s' := by
  have hcell : ∀ x, s.cell=Function.update s.cell x (s.cell x) :=
    fun x => (Function.update_eq_self x s.cell).symm
  cases ht with
  | refuse => exact h
  | answer t x now hidle =>
    have hup := handling_update s t (.setTick x now)
    refine h.change rfl rfl (hcell x) (fun _ _ => Iff.rfl) (fun _ _ => rfl) (fun y hy => ?_) ?_
    · have hzero : (At.setTick x now).handling y=0 := if_neg (Ne.symm hy)
      have hy' := hup y
      rw [hidle,hzero] at hy'
      exact hy'
    · have hone : (At.setTick x now).handling x=1 := if_pos rfl
      have hx := hup x
      rw [hidle,hone] at hx
      have ha := (h x).answer (x:=x)
      rw [← hx] at ha
      exact ha
  | pongTick t x now hat =>
    have hup := handling_update s t (.setFlag x)
    simp only [hat,At.handling,Nat.add_right_cancel_iff] at hup
    have hx := h x
    exact h.store rfl rfl rfl (fun _ => rfl) hup
      ⟨hx.registered,hx.connected,hx.unanswered,hx.marked,hx.sent,hx.begun,hx.prompted⟩
  | pong t x hat =>
    have hup := handling_update s t (.idle : At S)
    refine h.change rfl rfl rfl (fun _ _ => Iff.rfl) (fun _ _ => rfl) (fun y hy => ?_) ?_
    · have hzero : (At.setFlag x).handling y=0 := if_neg (Ne.symm hy)
      have hy' := hup y
      rw [hat,hzero] at hy'
      exact hy'
    · have hone : (At.setFlag x).handling x=1 := if_pos rfl
      have hx := hup x
      rw [hat,hone] at hx
      have ha := h x
      rw [show s.handling x=_+1 from hx.symm] at ha
      exact ha.pong
  | enlist x m hm =>
    have hlisted : ∀ y, y∈m.sessions ↔ y=x ∨ y∈s.manager.sessions :=
      fun _ => SessionManager.mem_addSession hm
    exact h.change rfl rfl (hcell x) (fun y hy => (hlisted y).trans (or_iff_right hy))
      (fun _ _ => rfl) (fun _ _ => rfl)
      ((h x).setListed true (iff_of_true rfl ((hlisted x).mpr (Or.inl rfl))))
  | connect x _ =>
    exact h.change rfl rfl rfl (fun _ _ => Iff.rfl) (fun _ _ => rfl) (fun _ _ => rfl)
      ((h x).setConnect true)
  | close x =>
    exact h.change rfl rfl rfl (fun _ _ => Iff.rfl) (fun _ _ => rfl) (fun _ _ => rfl)
      ((h x).setConnect false)
  | release x =>
    have hlisted : ∀ y, y∈(s.manager.eraseSession x).sessions ↔ y≠x ∧ y∈s.manager.sessions :=
      fun _ => SessionManager.mem_eraseSession
    exact h.change rfl rfl (hcell x) (fun y hy => (hlisted y).trans (and_iff_right hy))
      (fun _ _ => rfl) (fun _ _ => rfl)
      ((h x).setListed false (iff_of_false nofun fun hx => ((hlisted x).mp hx).1 rfl))

end Agreeing

end Agreement

end IocpServer.NetWork.Heartbeat
