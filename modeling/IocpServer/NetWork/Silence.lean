import IocpServer.Framework.Log
import IocpServer.NetWork.SessionView

namespace IocpServer.NetWork.Heartbeat

variable {S T : Type} [DecidableEq S]

/-- What the other threads leave alone. -/
structure Quiet (s s' : State S T) : Prop where
  heart : s'.heart=s.heart
  clock : s'.clock=s.clock
  tick : ∀ x, (s'.cell x).lastPingTick=(s.cell x).lastPingTick
  waiting : ∀ x, (s'.cell x).waitingPong=(s.cell x).waitingPong ∨ (s'.cell x).waitingPong=false
  log : s'.log=s.log ∨ ∃ e, s'.log=s.log++[e] ∧ e.ofHeart=false

theorem update_field {β : Type} (g : Cell → β) {f : S → Cell} {x : S} {c : Cell}
    (h : g c=g (f x)) (y : S) : g (Function.update f x c y)=g (f y) := by
  by_cases hy : y=x
  · rw [hy,Function.update_self,h]
  · rw [Function.update_of_ne hy]

omit [DecidableEq S] in
theorem Quiet.of_pong {s s' : State S T} (hheart : s'.heart=s.heart) (hclock : s'.clock=s.clock)
    (hpong : ∀ x, (s'.cell x).toPong=(s.cell x).toPong)
    (hlog : s'.log=s.log ∨ ∃ e, s'.log=s.log++[e] ∧ e.ofHeart=false) : Quiet s s' :=
  ⟨hheart,hclock,fun x => congrArg Pong.lastPingTick (hpong x),
    fun x => Or.inl (congrArg Pong.waitingPong (hpong x)),hlog⟩

theorem Aside.quiet [DecidableEq T] {s s' : State S T} (h : Aside s s') : Quiet s s' := by
  cases h with
  | answer t x now _ | enlist x m _ | release x =>
    exact .of_pong rfl rfl (fun _ => rfl) (Or.inr ⟨_,rfl,rfl⟩)
  | refuse => exact .of_pong rfl rfl (fun _ => rfl) (Or.inl rfl)
  | pongTick t x now _ =>
    exact .of_pong rfl rfl (update_field Cell.toPong (by rfl)) (Or.inl rfl)
  | connect x _ | close x =>
    exact .of_pong rfl rfl (update_field Cell.toPong (by rfl)) (Or.inr ⟨_,rfl,rfl⟩)
  | pong t x _ =>
    refine ⟨rfl,rfl,update_field (·.lastPingTick) (by rfl),fun y => ?_,Or.inr ⟨_,rfl,rfl⟩⟩
    by_cases hy : y=x
    · exact Or.inr (by simp [State.add,State.setCell,hy])
    · exact Or.inl (by simp [State.add,State.setCell,Function.update_of_ne hy])

omit [DecidableEq S] in
theorem Quiet.mem {s s' : State S T} (h : Quiet s s') {e : Event S} (he : e∈s.log) : e∈s'.log := by
  rcases h.log with hlog|⟨_,hlog,-⟩
  · rwa [hlog]
  · rw [hlog]
    exact List.mem_append_left _ he

theorem Silent.quiet {s s' : State S T} (hq : Quiet s s') {x : S} {now p : BitVec 64}
    (h : Silent s.log x now p) : Silent s'.log x now p := by
  rcases hq.log with hlog|⟨e,hlog,he⟩
  · rwa [hlog]
  · obtain ⟨past,future,hsplit,hout,hview,hping⟩ := h
    refine ⟨past,future++[e],by simp [hlog,hsplit],?_,hview,hping⟩
    intro e' he'
    rcases List.mem_append.mp he' with hmem|hmem
    · exact hout e' hmem
    · rw [List.mem_singleton.mp hmem]
      exact he

theorem Beat.Holds.quiet {s s' : State S T} (h : s.heart.Holds s) (hq : Quiet s s') :
    s'.heart.Holds s' := by
  have hoff : ∀ x, (s.cell x).waitingPong=false → (s'.cell x).waitingPong=false := by
    intro x hx
    rcases hq.waiting x with hsame|hfalse
    · exact hsame.trans hx
    · exact hfalse
  rw [hq.heart]
  cases hb : s.heart with
  | idle => trivial
  | copy now | visit now rest | flag now x rest =>
    rw [hb] at h
    exact h.trans hq.clock.symm
  | tick now x rest =>
    rw [hb] at h
    refine ⟨h.1.trans hq.clock.symm,?_⟩
    rw [hq.tick x]
    exact h.2.quiet hq
  | disconnect now x rest =>
    rw [hb] at h
    refine ⟨h.1.trans hq.clock.symm,?_⟩
    rw [hq.tick x]
    exact ⟨h.2.1.quiet hq,h.2.2⟩
  | setTick now x rest =>
    rw [hb] at h
    exact ⟨h.1.trans hq.clock.symm,hoff x h.2⟩
  | setFlag now x rest =>
    rw [hb] at h
    exact ⟨h.1.trans hq.clock.symm,hoff x h.2.1,(hq.tick x).trans h.2.2⟩
  | send now x rest =>
    rw [hb] at h
    exact ⟨h.1.trans hq.clock.symm,(hq.tick x).trans h.2⟩

/-- The unsigned difference to an earlier tick does not wrap. -/
theorem late_iff {now p : BitVec 64} (h : p ≤ now) :
    pongTimeoutMs<now-p ↔ 15000<now.toNat-p.toNat := by
  rw [BitVec.lt_def,BitVec.toNat_sub_of_le h]
  rfl

/-- What makes an event of the heartbeat thread come at its time. -/
def Grounds (past : List (Event S)) : Event S → Prop
  | .check _ sessions => sessions.Nodup ∧ ∀ x, x∈sessions ↔ (view x past).registered=true
  | .skip x _ => (view x past).connected=false
  | .read x waiting _ => waiting=true ↔ (view x past).unanswered≠[]
  | .disconnect x now => ∃ p, Silent past x now p ∧ p ≤ now ∧ 15000<now.toNat-p.toNat
  | _ => True

/-- What `check_heartbeat` owes a session by what the events say when it reads the flag. -/
def answerTo (x : S) (now : BitVec 64) (v : View) : List (Event S) :=
  match v.unanswered with
  | [] => [.mark x now,.ping x now]
  | p::_ => if 15000<now.toNat-p.toNat then [.disconnect x now] else []

/-- What the heartbeat thread is still to do about the session it is at. -/
def Beat.todo (cell : S → Cell) : Beat S → List (Event S)
  | .tick now x _ => if pongTimeoutMs<now-(cell x).lastPingTick then [.disconnect x now] else []
  | .disconnect now x _ => [.disconnect x now]
  | .setTick now x _ | .setFlag now x _ => [.mark x now,.ping x now]
  | .send now x _ => [.ping x now]
  | _ => []

/-- The sessions of its copy that the heartbeat thread is still to look at, and for which `now`. -/
def Beat.left : Beat S → List (S×BitVec 64)
  | .idle | .copy _ => []
  | .flag now x rest => (x,now)::rest.map (·,now)
  | .visit now rest | .tick now _ rest | .disconnect now _ rest | .setTick now _ rest
  | .setFlag now _ rest | .send now _ rest => rest.map (·,now)

def owes (past : List (Event S)) : Event S → Option (List (Event S))
  | .read x _ now => some (answerTo x now (view x past))
  | _ => none

/-- The session that the heartbeat thread looks at, or the begin of a new round. -/
def looks : Event S → Option (Option (S×BitVec 64))
  | .skip x now | .read x _ now => some (some (x,now))
  | .check _ _ => some none
  | _ => none

def rounds (_ : List (Event S)) : Event S → Option (List (Option (S×BitVec 64)))
  | .check now sessions => some ((sessions.map (·,now)).map some)
  | _ => none

def Answering (s : State S T) : Prop :=
  Kept owes (fun e => if e.ofHeart then some e else none) (fun e => e.reaction=false) s.log
    (s.heart.todo s.cell)

def Visiting (s : State S T) : Prop :=
  Kept rounds looks (fun y => y=none) s.log (s.heart.left.map some)

structure Inv [Fintype T] (s : State S T) : Prop where
  agrees : Agreeing s
  ticks : ∀ x, (s.cell x).lastPingTick ≤ s.clock
  heart : s.heart.Holds s
  pinged : ∀ x, (s.cell x).waitingPong=true →
    .ping x (s.cell x).lastPingTick∈s.log ∨ s.heart.sending x=true
  grounds : Justified Grounds s.log
  answering : Answering s
  visiting : Visiting s

namespace Inv

variable [Fintype T] {s s' : State S T}

theorem init (m : Int) : Inv (State.init m : State S T) :=
  ⟨Agreeing.init m,fun _ => BitVec.le_refl _,trivial,nofun,.nil,.nil,.nil⟩

/-- A session that waits while no ping is being sent was sent that ping. -/
theorem sent (h : Inv s) {x : S} (hwait : (s.cell x).waitingPong=true)
    (hb : s.heart.sending x=false) : .ping x (s.cell x).lastPingTick∈s.log := by
  rcases h.pinged x hwait with hping|hsend
  · exact hping
  · rw [hb] at hsend
    cases hsend

theorem quiet (h : Inv s) (hagrees : Agreeing s') (hq : Quiet s s') : Inv s' := by
  have htodo : s'.heart.todo s'.cell=s.heart.todo s.cell := by
    rw [hq.heart]
    cases s.heart with
    | tick now x rest => simp only [Beat.todo,hq.tick x]
    | _ => rfl
  refine ⟨hagrees,?_,h.heart.quiet hq,?_,?_,?_,?_⟩
  · intro x
    rw [hq.tick x,hq.clock]
    exact h.ticks x
  · intro x hx
    rw [hq.tick x,hq.heart]
    rcases hq.waiting x with hsame|hfalse
    · rcases h.pinged x (hsame.symm.trans hx) with hping|hsend
      · exact Or.inl (hq.mem hping)
      · exact Or.inr hsend
    · rw [hfalse] at hx
      cases hx
  · rcases hq.log with hlog|⟨e,hlog,he⟩
    · rw [hlog]
      exact h.grounds
    · rw [hlog]
      apply h.grounds.snoc
      cases e with
      | check | skip | read | disconnect | mark | ping => cases he
      | _ => trivial
  · unfold Answering
    rw [htodo]
    rcases hq.log with hlog|⟨e,hlog,he⟩
    · rw [hlog]
      exact h.answering
    · rw [hlog]
      apply h.answering.quiet
      · simp [he]
      · cases e with
        | check | skip | read | disconnect | mark | ping => cases he
        | _ => rfl
  · unfold Visiting
    rw [hq.heart]
    rcases hq.log with hlog|⟨e,hlog,he⟩
    · rw [hlog]
      exact h.visiting
    · rw [hlog]
      cases e with
      | check | skip | read | disconnect | mark | ping => cases he
      | _ => exact h.visiting.quiet rfl rfl

theorem tick_le (h : Inv s) (x : S) {now : BitVec 64} (hnow : now=s.clock) :
    (s.cell x).lastPingTick ≤ now := by
  rw [hnow]
  exact h.ticks x

theorem ticks_turn (h : Inv s) (ht : Turn s s') (x : S) :
    (s'.cell x).lastPingTick ≤ s'.clock := by
  cases ht with
  | check now _ hclock => exact BitVec.le_trans (h.ticks x) hclock
  | disconnect now y rest _ | mark now y rest _ =>
    exact Eq.mpr (update_field (fun c : Cell => c.lastPingTick ≤ s.clock) (by rfl) x) (h.ticks x)
  | setTick now y rest hb =>
    have hheart := h.heart
    rw [hb] at hheart
    change (Function.update s.cell y _ x).lastPingTick ≤ s.clock
    by_cases hx : x=y
    · rw [hx,Function.update_self,← hheart.1]
      exact BitVec.le_refl _
    · rw [Function.update_of_ne hx]
      exact h.ticks x
  | _ => exact h.ticks x

theorem heart_turn (h : Inv s) (ht : Turn s s') : s'.heart.Holds s' := by
  have hheart := h.heart
  cases ht with
  | check now hb hclock => rfl
  | done now hb => trivial
  | copy now sessions hb _ _ | connected now x rest hb _ | skip now x rest hb _ =>
    rw [hb] at hheart
    exact hheart
  | inTime now x rest hb _ | disconnect now x rest hb | ping now x rest hb =>
    rw [hb] at hheart
    exact hheart.1
  | waiting now x rest hb hflag =>
    rw [hb] at hheart
    have hview := (h.agrees x).unanswered
    rw [hflag,if_pos rfl] at hview
    exact ⟨hheart,s.log,[],rfl,nofun,hview,h.sent hflag (by rw [hb]; rfl)⟩
  | answered now x rest hb hflag =>
    rw [hb] at hheart
    exact ⟨hheart,hflag⟩
  | timeout now x rest hb hlate =>
    rw [hb] at hheart
    exact ⟨hheart.1,hheart.2,hlate⟩
  | setTick now x rest hb =>
    rw [hb] at hheart
    refine ⟨hheart.1,?_,?_⟩
    · simpa [State.go,State.setCell] using hheart.2
    · simp [State.go,State.setCell]
  | mark now x rest hb =>
    rw [hb] at hheart
    refine ⟨hheart.1,?_⟩
    simpa [State.add,State.go,State.setCell] using hheart.2.2

theorem pinged_turn (h : Inv s) (ht : Turn s s') (x : S) (hx : (s'.cell x).waitingPong=true) :
    .ping x (s'.cell x).lastPingTick∈s'.log ∨ s'.heart.sending x=true := by
  cases ht with
  | check now hb _ | done now hb | connected now y rest hb _ | timeout now y rest hb _
  | inTime now y rest hb _ => exact Or.inl (h.sent hx (by rw [hb]; rfl))
  | copy now sessions hb _ _ | skip now y rest hb _ | waiting now y rest hb _
  | answered now y rest hb _ =>
    exact Or.inl (List.mem_append_left _ (h.sent hx (by rw [hb]; rfl)))
  | disconnect now y rest hb =>
    have hpong : ∀ z, (Function.update s.cell y { s.cell y with isConnect := false } z).toPong=
        (s.cell z).toPong := update_field Cell.toPong rfl
    have hwait : (s.cell x).waitingPong=true := by
      rw [← hpong x]
      exact hx
    left
    change Event.ping x (Function.update s.cell y _ x).lastPingTick∈_
    rw [hpong x]
    exact List.mem_append_left _ (h.sent hwait (by rw [hb]; rfl))
  | setTick now y rest hb =>
    have hheart := h.heart
    rw [hb] at hheart
    change (Function.update s.cell y _ x).waitingPong=true at hx
    change Event.ping x (Function.update s.cell y _ x).lastPingTick∈s.log ∨ _
    by_cases hxy : x=y
    · rw [hxy,Function.update_self] at hx
      exact absurd (hheart.2.symm.trans hx) nofun
    · rw [Function.update_of_ne hxy] at hx ⊢
      exact Or.inl (h.sent hx (by rw [hb]; rfl))
  | mark now y rest hb =>
    change (Function.update s.cell y _ x).waitingPong=true at hx
    change Event.ping x (Function.update s.cell y _ x).lastPingTick∈s.log++_ ∨ _
    by_cases hxy : x=y
    · exact Or.inr (decide_eq_true hxy.symm)
    · rw [Function.update_of_ne hxy] at hx ⊢
      exact Or.inl (List.mem_append_left _ (h.sent hx (by rw [hb]; rfl)))
  | ping now y rest hb =>
    have hheart := h.heart
    rw [hb] at hheart
    left
    change Event.ping x (s.cell x).lastPingTick∈s.log++[.ping y now]
    by_cases hxy : x=y
    · rw [hxy,hheart.2]
      exact List.mem_append_right _ (List.mem_singleton_self _)
    · exact List.mem_append_left _
        (h.sent hx (by rw [hb]; exact decide_eq_false (Ne.symm hxy)))

theorem grounds_turn (h : Inv s) (ht : Turn s s') : Justified Grounds s'.log := by
  cases ht with
  | copy now sessions hb hnodup hsessions =>
    refine h.grounds.snoc ⟨hnodup,fun x => ?_⟩
    rw [← List.mem_toFinset,hsessions]
    exact (h.agrees x).registered.symm
  | skip now x rest hb hoff => exact h.grounds.snoc ((h.agrees x).connected.trans hoff)
  | waiting now x rest hb hflag =>
    refine h.grounds.snoc (iff_of_true rfl ?_)
    rw [(h.agrees x).unanswered,hflag]
    exact List.cons_ne_nil _ _
  | answered now x rest hb hflag =>
    refine h.grounds.snoc (iff_of_false nofun ?_)
    rw [(h.agrees x).unanswered,hflag]
    exact fun hne => hne rfl
  | disconnect now x rest hb =>
    have hheart := h.heart
    rw [hb] at hheart
    have hle := h.tick_le x hheart.1
    exact h.grounds.snoc ⟨_,hheart.2.1,hle,(late_iff hle).mp hheart.2.2⟩
  | mark now x rest hb | ping now x rest hb => exact h.grounds.snoc trivial
  | _ => exact h.grounds

theorem answering_turn (h : Inv s) (ht : Turn s s') : Answering s' := by
  have hkept := h.answering
  unfold Answering at hkept ⊢
  cases ht with
  | check now hb _ | done now hb | connected now x rest hb _ =>
    rw [hb] at hkept
    exact hkept
  | copy now sessions hb _ _ | skip now x rest hb _ =>
    rw [hb] at hkept
    exact hkept.start rfl rfl nofun
  | waiting now x rest hb hflag =>
    rw [hb] at hkept
    refine hkept.start rfl rfl fun p hp => ?_
    cases hp
    have hview := (h.agrees x).unanswered
    have hheart := h.heart
    rw [hflag,if_pos rfl] at hview
    rw [hb] at hheart
    simp only [answerTo,hview,← late_iff (h.tick_le x hheart)]
    rfl
  | answered now x rest hb hflag =>
    rw [hb] at hkept
    refine hkept.start rfl rfl fun p hp => ?_
    cases hp
    have hview := (h.agrees x).unanswered
    rw [hflag] at hview
    simp only [answerTo,hview]
    rfl
  | timeout now x rest hb hlate =>
    rw [hb,Beat.todo,if_pos hlate] at hkept
    exact hkept
  | inTime now x rest hb hearly =>
    rw [hb,Beat.todo,if_neg hearly] at hkept
    exact hkept
  | setTick now x rest hb =>
    rw [hb] at hkept
    exact hkept
  | disconnect now x rest hb | mark now x rest hb | ping now x rest hb =>
    rw [hb] at hkept
    exact hkept.perform rfl rfl

theorem visiting_turn (h : Inv s) (ht : Turn s s') : Visiting s' := by
  have hkept := h.visiting
  unfold Visiting at hkept ⊢
  cases ht with
  | check now hb _ | done now hb | connected now x rest hb _ | timeout now x rest hb _
  | inTime now x rest hb _ | setTick now x rest hb =>
    rw [hb] at hkept
    exact hkept
  | copy now sessions hb _ _ =>
    rw [hb] at hkept
    refine hkept.start rfl rfl fun p hp => ?_
    cases hp
    rfl
  | skip now x rest hb _ | waiting now x rest hb _ | answered now x rest hb _ =>
    rw [hb] at hkept
    exact hkept.perform rfl rfl
  | disconnect now x rest hb | mark now x rest hb | ping now x rest hb =>
    rw [hb] at hkept
    exact hkept.quiet rfl rfl

theorem turn (h : Inv s) (ht : Turn s s') : Inv s' :=
  ⟨h.agrees.turn h.heart ht,h.ticks_turn ht,h.heart_turn ht,h.pinged_turn ht,h.grounds_turn ht,
    h.answering_turn ht,h.visiting_turn ht⟩

theorem step [DecidableEq T] {a : Action S T} (h : Inv s) (ha : Rising s a)
    (hs : Heartbeat.step s a=some s') : Inv s' := by
  rcases step_cases ha hs with ht|ht
  · exact h.turn ht
  · exact h.quiet (h.agrees.aside ht) ht.quiet

end Inv

theorem reaches_inv [DecidableEq T] [Fintype T] {m : Int} {s : State S T}
    (hr : Reaches step Rising (State.init m) s) : Inv s :=
  hr.invariant (Inv.init m) fun _ _ _ h ha hs => h.step ha hs

/-- How many steps the heartbeat thread still needs at most, once it has its copy. -/
def Beat.work : Beat S → Nat
  | .idle | .copy _ => 0
  | .visit _ rest => 6*rest.length+1
  | .flag _ _ rest => 6*rest.length+6
  | .setTick _ _ rest => 6*rest.length+5
  | .setFlag _ _ rest => 6*rest.length+4
  | .send _ _ rest | .tick _ _ rest => 6*rest.length+3
  | .disconnect _ _ rest => 6*rest.length+2

theorem beat_work {s : State S T} (h : 0<s.heart.work) :
    ∃ s', beat s=some s' ∧ s'.heart.work<s.heart.work ∧ (s'.heart=.idle ∨ 0<s'.heart.work) := by
  unfold beat
  cases hb : s.heart with
  | idle | copy now =>
    rw [hb] at h
    cases h
  | visit now rest =>
    cases rest with
    | nil => exact ⟨_,rfl,Nat.one_pos,Or.inl rfl⟩
    | cons x rest =>
      cases hon : (s.cell x).isConnect with
      | true => exact ⟨s.go (.flag now x rest),by simp [hon],Nat.lt_succ_self _,
          Or.inr (Nat.succ_pos _)⟩
      | false =>
        refine ⟨(s.go (.visit now rest)).add (.skip x now),by simp [hon],?_,Or.inr (Nat.succ_pos _)⟩
        simp only [State.add,State.go,Beat.work,List.length_cons]
        omega
  | flag now x rest =>
    cases hflag : (s.cell x).waitingPong with
    | true =>
      refine ⟨(s.go (.tick now x rest)).add (.read x true now),by simp [hflag],?_,
        Or.inr (Nat.succ_pos _)⟩
      simp [State.add,State.go,Beat.work]
    | false =>
      refine ⟨(s.go (.setTick now x rest)).add (.read x false now),by simp [hflag],?_,
        Or.inr (Nat.succ_pos _)⟩
      simp [State.add,State.go,Beat.work]
  | tick now x rest =>
    by_cases hlate : pongTimeoutMs<now-(s.cell x).lastPingTick
    · refine ⟨s.go (.disconnect now x rest),by simp [hlate],?_,Or.inr (Nat.succ_pos _)⟩
      simp [State.go,Beat.work]
    · refine ⟨s.go (.visit now rest),by simp [hlate],?_,Or.inr (Nat.succ_pos _)⟩
      simp [State.go,Beat.work]
  | disconnect now x rest | setTick now x rest | setFlag now x rest | send now x rest =>
    refine ⟨_,rfl,?_,Or.inr (Nat.succ_pos _)⟩
    simp [State.add,State.go,Beat.work]

/-- A check ends by the steps of its own thread, whatever it has come to. -/
theorem check_ends [DecidableEq T] (s : State S T) : ∃ as s',
    (∀ a∈as, a=.beat ∨ ∃ sessions, a=.copy sessions) ∧ runActions step s as=some s' ∧
      s'.heart=.idle := by
  have hrun : ∀ n, ∀ s : State S T, s.heart.work=n → s.heart=.idle ∨ 0<s.heart.work →
      ∃ as s', (∀ a∈as, a=.beat ∨ ∃ sessions, a=.copy sessions) ∧
        runActions step s as=some s' ∧ s'.heart=.idle := by
    intro n
    induction n using Nat.strong_induction_on with
    | h n ih =>
      rintro s rfl hs
      rcases hs with hidle|hpos
      · exact ⟨[],s,nofun,rfl,hidle⟩
      · obtain ⟨s₁,hbeat,hless,hs₁⟩ := beat_work hpos
        obtain ⟨as,s',has,hrun,hidle⟩ := ih _ hless s₁ rfl hs₁
        refine ⟨.beat::as,s',?_,?_,hidle⟩
        · intro a ha
          rcases List.mem_cons.mp ha with rfl|ha
          · exact Or.inl rfl
          · exact has a ha
        · simp [runActions,step,hbeat,hrun]
  cases hb : s.heart with
  | copy now =>
    obtain ⟨as,s',has,hrun',hidle⟩ := hrun _
      ((s.go (.visit now s.manager.sessions.toList)).add (.check now s.manager.sessions.toList))
      rfl (Or.inr (Nat.succ_pos _))
    refine ⟨.copy s.manager.sessions.toList::as,s',?_,?_,hidle⟩
    · intro a ha
      rcases List.mem_cons.mp ha with rfl|ha
      · exact Or.inr ⟨_,rfl⟩
      · exact has a ha
    · simp [runActions,step,hb,Finset.nodup_toList,hrun']
  | idle => exact hrun _ s rfl (Or.inl hb)
  | _ => exact hrun _ s rfl (Or.inr (by rw [hb]; exact Nat.succ_pos _))

/-- What no ping marks stays without an unanswered ping. -/
theorem unanswered_of_unmarked {x : S} {past future : List (Event S)}
    (h : (view x past).unanswered=[]) (hmark : ∀ now, .mark x now∉future) :
    (view x (past++future)).unanswered=[] := by
  induction future generalizing past with
  | nil => rwa [List.append_nil]
  | cons e future ih =>
    have hnext : (view x (past++[e])).unanswered=[] := by
      by_cases he : e.subject=some x
      · rw [view_same he]
        cases e with
        | mark y now =>
          cases he
          exact absurd List.mem_cons_self (hmark now)
        | pong y => rfl
        | _ => exact h
      · rw [view_other he]
        exact h
    rw [List.append_cons]
    exact ih hnext fun now hin => hmark now (List.mem_cons_of_mem _ hin)

/-- The flag that a pong handler has cleared stays so until the next ping is marked. -/
theorem Inv.cleared [Fintype T] {s : State S T} (h : Inv s) {past future : List (Event S)} {x : S}
    (hlog : s.log=past++.pong x::future) (hmark : ∀ now, .mark x now∉future) :
    (s.cell x).waitingPong=false := by
  have hpong : (view x (past++[.pong x])).unanswered=[] := by
    rw [view_same rfl]
    rfl
  have hview := unanswered_of_unmarked hpong hmark
  rw [← List.append_cons,← hlog,(h.agrees x).unanswered] at hview
  by_contra hwait
  rw [Bool.not_eq_false] at hwait
  rw [hwait,if_pos rfl] at hview
  cases hview

/-- A pong handler ends by the steps of its own thread, with the flag cleared. -/
theorem handler_ends [DecidableEq T] {s : State S T} {t : T} {x : S}
    (h : (s.threads t).handling x=1) : ∃ as s', (∀ a∈as, a=.handle t) ∧
      runActions step s as=some s' ∧ s'.threads t=.idle ∧ (s'.cell x).waitingPong=false ∧
      s'.log=s.log++[.pong x] := by
  have hflag : ∀ s : State S T, s.threads t=.setFlag x → ∃ s', step s (.handle t)=some s' ∧
      s'.threads t=.idle ∧ (s'.cell x).waitingPong=false ∧ s'.log=s.log++[.pong x] := by
    intro s hat
    simp only [step,handle,hat]
    exact ⟨_,rfl,Function.update_self ..,by simp [State.add,State.setCell],rfl⟩
  cases hat : s.threads t with
  | idle =>
    rw [hat] at h
    cases h
  | setTick y now =>
    rw [hat] at h
    have hy : y=x := by simpa [At.handling] using h
    subst hy
    obtain ⟨s',hs,hrest⟩ := hflag { s.setCell y { s.cell y with lastPongTick := now } with
      threads := Function.update s.threads t (.setFlag y) } (Function.update_self ..)
    refine ⟨[.handle t,.handle t],s',by simp,?_,hrest⟩
    simpa [runActions,step,handle,hat] using hs
  | setFlag y =>
    rw [hat] at h
    have hy : y=x := by simpa [At.handling] using h
    subst hy
    obtain ⟨s',hs,hrest⟩ := hflag s hat
    exact ⟨[.handle t],s',by simp,by simp [runActions,hs],hrest⟩

/-- However the pong handlers, admissions and other disconnects come between the steps of a
heartbeat thread whose clock does not decrease: a session has at most one ping that is marked and
not answered, it is sent at most one ping more than it has answered, and it has at most one sent and
unanswered ping as long as its pongs come after the pings they answer; a pong handler ends and
leaves the flag cleared until the next ping is marked; `check_heartbeat` disconnects only a session
that was sent a ping more than 15 seconds ago and had not answered it when the flag was read; what it
does about a session it has read is just what the events before the read ask for; it looks at every
listed session, and passes over one only if that is not connected; the difference of the ticks does
not wrap; and every check ends. -/
theorem heartbeat_exact [DecidableEq T] [Fintype T] {m : Int} {s : State S T}
    (hr : Reaches step Rising (State.init m) s) :
    (∀ x, (view x s.log).unanswered.length ≤ 1 ∧ (view x s.log).sent ≤ (view x s.log).pongs+1 ∧
      ((view x s.log).prompted=true → (view x s.log).outstanding.length ≤ 1)) ∧
    (∀ t x, (s.threads t).handling x=1 → ∃ as s', (∀ a∈as, a=.handle t) ∧
      runActions step s as=some s' ∧ s'.threads t=.idle ∧ (s'.cell x).waitingPong=false ∧
      s'.log=s.log++[.pong x]) ∧
    (∀ past x future, s.log=past++.pong x::future → (∀ now, .mark x now∉future) →
      (s.cell x).waitingPong=false) ∧
    (∀ past x now future, s.log=past++.disconnect x now::future →
      ∃ p, Silent past x now p ∧ p ≤ now ∧ 15000<now.toNat-p.toNat) ∧
    (∀ past x waiting now future, s.log=past++.read x waiting now::future →
      (waiting=true ↔ (view x past).unanswered≠[]) ∧
      ∃ rest, future.filter Event.ofHeart++s.heart.todo s.cell=answerTo x now (view x past)++rest ∧
        ∀ e, rest.head?=some e → e.reaction=false) ∧
    (∀ past now sessions future, s.log=past++.check now sessions::future →
      (∀ x, x∈sessions ↔ (view x past).registered=true) ∧
      ∃ rest,
        future.filterMap looks++s.heart.left.map some=(sessions.map (·,now)).map some++rest ∧
        ∀ y, rest.head?=some y → y=none) ∧
    (∀ past x now future, s.log=past++.skip x now::future → (view x past).connected=false) ∧
    (∀ now x rest, s.heart=.tick now x rest → (s.cell x).lastPingTick ≤ now ∧
      (now-(s.cell x).lastPingTick).toNat=now.toNat-(s.cell x).lastPingTick.toNat) ∧
    ∃ as s', (∀ a∈as, a=.beat ∨ ∃ sessions, a=.copy sessions) ∧ runActions step s as=some s' ∧
      s'.heart=.idle := by
  have hi := reaches_inv hr
  refine ⟨?_,fun _ _ => handler_ends,fun _ _ _ => hi.cleared,?_,?_,?_,?_,?_,check_ends s⟩
  · intro x
    obtain ⟨-,-,hview,hmarked,hsent,-,hprompted⟩ := hi.agrees x
    have hone := Bool.toNat_le (s.cell x).waitingPong
    have hlength : (view x s.log).unanswered.length ≤ 1 := by
      rw [hview]
      split <;> simp
    refine ⟨hlength,by omega,fun hp => ?_⟩
    rw [(hprompted hp).2]
    split
    · exact Nat.zero_le 1
    · exact hlength
  · intro past x now future hlog
    exact hi.grounds past _ future hlog
  · intro past x waiting now future hlog
    refine ⟨hi.grounds past _ future hlog,?_⟩
    rw [← List.filterMap_eq_filter]
    simpa [Option.guard] using hi.answering past _ future _ hlog rfl
  · intro past now sessions future hlog
    have hcheck := hi.grounds past _ future hlog
    exact ⟨hcheck.2,hi.visiting past _ future _ hlog rfl⟩
  · intro past x now future hlog
    exact hi.grounds past _ future hlog
  · intro now x rest hb
    have hheart := hi.heart
    rw [hb] at hheart
    have hle := hi.tick_le x hheart.1
    exact ⟨hle,BitVec.toNat_sub_of_le hle⟩

/-- A concrete run with a rising clock. -/
theorem reaches_of_rising [DecidableEq T] {s s' : State S T} (as : List (Action S T))
    (h : runActions (fun s a => if decide (Rising s a) then step s a else none) s as=some s') :
    Reaches step Rising s s' :=
  Reaches.of_guarded (fun _ _ h => of_decide_eq_true h) as h

/-- A session answers the ping of 0, and after the ping of 10000 it falls silent. -/
def silentSession : List (Action Unit Unit) :=
  [.addSession (),.connect (),.check 0,.copy [()],.beat,.beat,.beat,.beat,.beat,.beat,
    .answer () () 50,.handle (),.handle (),
    .check 10000,.copy [()],.beat,.beat,.beat,.beat,.beat,.beat,
    .check 30000,.copy [()],.beat,.beat,.beat,.beat,.beat]

/-- What happens before the session is disconnected. -/
def silentLog : List (Event Unit) :=
  [.enlist (),.connect (),.check 0 [()],.read () false 0,.mark () 0,.ping () 0,.answer (),.pong (),
    .check 10000 [()],.read () false 10000,.mark () 10000,.ping () 10000,.check 30000 [()],
    .read () true 30000]

theorem heartbeat_exact_silentSession : ∃ s : State Unit Unit,
    Reaches step Rising (State.init 1) s ∧ s.log=silentLog++.disconnect () 30000::[] ∧
    s.heart=.idle ∧ (view () s.log).pongs=1 ∧ (view () s.log).sent ≤ (view () s.log).pongs+1 ∧
    ∃ p, Silent silentLog () 30000 p ∧ p ≤ 30000 ∧ 15000<(30000 : BitVec 64).toNat-p.toNat := by
  have hrun : (runActions (fun s a => if decide (Rising s a) then step s a else none)
      (State.init 1) silentSession).map (fun s => (s.log,s.heart))=
      some (silentLog++[.disconnect () 30000],.idle) := by
    decide +kernel
  obtain ⟨s,hs,hfields⟩ := Option.map_eq_some_iff.mp hrun
  simp only [Prod.mk.injEq] at hfields
  have hr := reaches_of_rising _ hs
  have hexact := heartbeat_exact hr
  refine ⟨s,hr,hfields.1,hfields.2,?_,(hexact.1 ()).2.1,hexact.2.2.2.1 _ _ _ _ hfields.1⟩
  rw [hfields.1]
  rfl

/-- A pong that nobody asked for is handled between the two stores of `send_ping` and its `send`, so
that the next check sends a second ping. -/
def unaskedPong : List (Action Unit Unit) :=
  [.addSession (),.connect (),.check 0,.copy [()],.beat,.beat,.beat,.beat,
    .answer () () 0,.handle (),.handle (),.beat,.beat,
    .check 10,.copy [()],.beat,.beat,.beat,.beat,.beat]

theorem two_sent_pings_unanswered : ∃ s : State Unit Unit,
    Reaches step Rising (State.init 1) s ∧
    s.log=[.enlist (),.connect (),.check 0 [()],.read () false 0,.mark () 0,.answer (),.pong (),
      .ping () 0,.check 10 [()],.read () false 10,.mark () 10,.ping () 10] ∧
    (view () s.log).outstanding=[0,10] := by
  have hrun : (runActions (fun s a => if decide (Rising s a) then step s a else none)
      (State.init 1) unaskedPong).map State.log=
      some [.enlist (),.connect (),.check 0 [()],.read () false 0,.mark () 0,.answer (),.pong (),
        .ping () 0,.check 10 [()],.read () false 10,.mark () 10,.ping () 10] := by
    decide +kernel
  obtain ⟨s,hs,hlog⟩ := Option.map_eq_some_iff.mp hrun
  refine ⟨s,reaches_of_rising _ hs,hlog,?_⟩
  rw [hlog]
  rfl

end IocpServer.NetWork.Heartbeat
