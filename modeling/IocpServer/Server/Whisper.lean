import IocpServer.Server.Chat

namespace IocpServer.Server.Chat

variable {T S : Type}

/-- What a whisper is answered, given its history: a refusal before the search, a failed search, or a
success whose count says whether it was sent. -/
def Answer (r : Record S) (ack : AckChat) : Prop :=
  (ack.result=.fail ∧ r.searched=false ∧ r.found=false) ∨ (ack.result=.notTarget ∧ r.found=false) ∨
    (ack.result=.success ∧ r.found=true ∧ ack.targetCount=r.target.toList.length)

/-- The history of a whisper at the points of its handler. -/
def At.Tracks (r : Record S) : At S → Prop
  | .start | .findTarget _ => r.searched=false ∧ r.found=false ∧ r.target=none
  | .whisperChat _ => r.found=false ∧ r.target=none
  | .whisperSend _ _ => r.found=true ∧ r.target=none
  | .broadcastPacket count | .broadcastTarget count | .recvChat count =>
    r.found=true ∧ count=r.target.toList.length
  | .reply ack | .replying ack => Answer r ack
  | .replied | .leave => True
  | _ => False

theorem At.Tracks.enqueued {r : Record S} {pc : At S} (h : pc.Tracks r) (n : Nat) :
    pc.Tracks { r with enqueued := n } := by
  cases pc <;> exact h

/-- If the search has found the name, `whisper_chat` has found it, too, and its session connected. -/
def Record.TargetStayed (r : Record S) : Prop := r.found=true → r.target.isSome

/-- The handler is behind `whisper_chat`, or never comes to it. -/
def At.decided : At S → Bool
  | .broadcastPacket _ | .broadcastTarget _ | .recvChat _ | .reply _ | .replying _ => true
  | _ => false

variable [DecidableEq S] [DecidableEq T]

/-- A target that `is_whisper_target_find` has found is still registered when `whisper_chat` looks for
it, and is connected when `whisper_chat` asks. -/
def TargetStays (e : Env) (s : State T S) : Action T S → Prop
  | .chat t _ => ∀ c, s.chats t=some c →
    (∀ b, c.pc=.whisperChat b →
      s.server.game.manager.isWhisperTargetFind (e.codec.utf8ToWString c.pkt.targetName)) ∧
    ∀ y b, c.pc=.whisperSend y b → s.server.isConnected y
  | _ => True

omit [DecidableEq T] in
/-- One step of the handler of a whisper. -/
theorem advance_tracks {e : Env} {s : Server.State T S} {o : Outcome S} {x : S} {pkt : ReqChat}
    {pc : At S} {next : At S×Option (S×NetWork.Lifecycle.Entry)} {r : Record S}
    (ha : advance e s o x pkt pc=some next) (hw : pkt.chatState=.whisper) (h : pc.Tracks r) :
    next.1.Tracks (r.after s pc) := by
  cases pc with
  | start =>
    cases ha
    simp only [handleReqChat,hw]
    repeat' split
    all_goals first | trivial | exact h | exact Or.inl ⟨rfl,h.1,h.2.1⟩
  | findTarget b =>
    simp only [advance] at ha
    split at ha <;> cases ha
    · exact h.2
    · exact Or.inr (Or.inl ⟨rfl,h.2.1⟩)
  | whisperChat b =>
    simp only [advance] at ha
    split at ha <;> cases ha
    · exact ⟨rfl,by simp [Record.after,h.2]⟩
    · exact ⟨rfl,h.2⟩
  | whisperSend y b =>
    simp only [advance] at ha
    split at ha
    · rename_i hoff
      cases ha
      simp only [Record.after,hoff,if_true]
      exact ⟨h.1,by simp [h.2]⟩
    · rename_i hon
      cases ha
      simp only [Record.after,if_neg hon]
      exact ⟨h.1,rfl⟩
  | broadcastPacket count | broadcastTarget count =>
    cases ha
    exact h
  | recvChat count =>
    cases ha
    exact Or.inr (Or.inr ⟨rfl,h⟩)
  | reply ack =>
    cases ha
    exact h
  | replying | replied | leave => cases ha
  | _ => exact h.elim

omit [DecidableEq T] in
/-- One step of the handler of a whisper whose target stays. -/
theorem advance_stays {e : Env} {s : Server.State T S} {o : Outcome S} {x : S} {pkt : ReqChat}
    {pc : At S} {next : At S×Option (S×NetWork.Lifecycle.Entry)} {r : Record S}
    (ha : advance e s o x pkt pc=some next) (h : pc.Tracks r) (hstay : pc.decided → r.TargetStayed)
    (hfind : ∀ b, pc=.whisperChat b →
      s.game.manager.isWhisperTargetFind (e.codec.utf8ToWString pkt.targetName))
    (hcon : ∀ y b, pc=.whisperSend y b → s.isConnected y) (hnext : next.1.decided) :
    (r.after s pc).TargetStayed := by
  cases pc with
  | start => exact fun hfound => absurd (h.2.1.symm.trans hfound) Bool.false_ne_true
  | findTarget b => exact fun hfound => absurd (h.2.1.symm.trans hfound) Bool.false_ne_true
  | whisperChat b =>
    have hfound := hfind b rfl
    simp only [NetWork.SessionManager.isWhisperTargetFind] at hfound
    simp only [advance] at ha
    split at ha <;> cases ha
    · rename_i hnone
      rw [hnone] at hfound
      cases hfound
    · cases hnext
  | whisperSend y b =>
    simp only [Record.after,hcon y b rfl,Bool.true_eq_false,if_false]
    exact fun _ => rfl
  | broadcastPacket | broadcastTarget | recvChat | reply => exact hstay rfl
  | replying | replied | leave => cases ha
  | _ => exact h.elim

/-- A whisper in step with its history, whose target has stayed if all of them do. -/
structure Call.Tracked (stays : Prop) (c : Call S) : Prop where
  history : c.pc.Tracks c.record
  stayed : stays → c.pc.decided → c.record.TargetStayed

omit [DecidableEq T] in
theorem Call.Tracked.advance {stays : Prop} {e : Env} {s : Server.State T S} {o : Outcome S}
    {c : Call S} {pc : At S} {call : Option (S×NetWork.Lifecycle.Entry)} (h : c.Tracked stays)
    (ha : Chat.advance e s o c.session c.pkt c.pc=some (pc,call)) (hw : c.pkt.chatState=.whisper)
    (hstays : stays → (∀ b, c.pc=.whisperChat b →
        s.game.manager.isWhisperTargetFind (e.codec.utf8ToWString c.pkt.targetName)) ∧
      ∀ y b, c.pc=.whisperSend y b → s.isConnected y) :
    Call.Tracked stays { c with pc, record := c.record.after s c.pc } :=
  ⟨advance_tracks ha hw h.history,
    fun hs => advance_stays ha h.history (h.stayed hs) (hstays hs).1 (hstays hs).2⟩

/-- Every whisper and every answer to one is in step with its history. -/
structure Tracked (stays : Prop) (s : State T S) : Prop where
  calls : ∀ t c, s.chats t=some c → c.pkt.chatState=.whisper → c.Tracked stays
  replies : ∀ r∈s.replies, r.pkt.chatState=.whisper →
    Answer r.record r.ack ∧ (stays → r.record.TargetStayed)

omit [DecidableEq S] in
theorem Tracked.update {stays : Prop} {s s' : State T S} (h : Tracked stays s) {t : T}
    {new : Option (Call S)} (hchats : s'.chats=Function.update s.chats t new)
    (hself : ∀ c, new=some c → c.pkt.chatState=.whisper → c.Tracked stays)
    (hreplies : ∀ r∈s'.replies, r∈s.replies ∨
      (r.pkt.chatState=.whisper → Answer r.record r.ack ∧ (stays → r.record.TargetStayed))) :
    Tracked stays s' := by
  constructor
  · intro u c hu
    rw [hchats] at hu
    by_cases hut : u=t
    · subst hut
      rw [Function.update_self] at hu
      exact hself c hu
    · rw [Function.update_of_ne hut] at hu
      exact h.calls u c hu
  · intro r hr
    exact (hreplies r hr).elim (h.replies r) id

omit [DecidableEq S] in
theorem Tracked.afterServer {stays : Prop} {s : State T S} (h : Tracked stays s) (t : T)
    (server : Server.State T S) : Tracked stays (s.afterServer t server) := by
  unfold State.afterServer
  split
  · rename_i c x b rest hchat hcalls
    split
    · split
      · rename_i ack hpc
        refine h.update rfl ?_ ?_
        · rintro _ ⟨rfl⟩ _
          exact ⟨trivial,nofun⟩
        · intro r hr
          rcases List.mem_append.mp hr with hr|hr
          · exact Or.inl hr
          · rw [List.mem_singleton.mp hr]
            refine Or.inr fun hw => ?_
            obtain ⟨htracks,hstayed⟩ := h.calls t c hchat hw
            rw [hpc] at htracks hstayed
            exact ⟨htracks,fun hs => hstayed hs rfl⟩
      · refine h.update rfl ?_ fun r hr => Or.inl hr
        rintro _ ⟨rfl⟩ hw
        obtain ⟨htracks,hstayed⟩ := h.calls t c hchat hw
        exact ⟨htracks.enqueued _,hstayed⟩
    · exact ⟨h.calls,h.replies⟩
  · exact ⟨h.calls,h.replies⟩

theorem Tracked.step {stays : Prop} {e : Env} {s s' : State T S} {a : Action T S}
    (h : Tracked stays s) (ha : stays → TargetStays e s a) (hs : step e s a=some s') :
    Tracked stays s' := by
  cases step_move hs with
  | server b server hin hs' => exact h.afterServer (threadOf b) server
  | start t pkt x rest server hcalls hx hs' =>
    refine h.update rfl ?_ fun r hr => Or.inl hr
    rintro _ ⟨rfl⟩ _
    exact ⟨⟨rfl,rfl,rfl⟩,nofun⟩
  | pass t c o pc hchat hin hadv =>
    refine h.update rfl ?_ fun r hr => Or.inl hr
    rintro _ ⟨rfl⟩ hw
    exact (h.calls t c hchat hw).advance hadv hw fun hstays => ha hstays c hchat
  | call t c o pc x entry server hchat hin hadv hs' =>
    refine h.update rfl ?_ fun r hr => Or.inl hr
    rintro _ ⟨rfl⟩ hw
    exact (h.calls t c hchat hw).advance hadv hw fun hstays => ha hstays c hchat
  | finish t c server hchat hin hends hs' =>
    exact h.update rfl nofun fun r hr => Or.inl hr
  | ackChat ack hack => exact ⟨h.calls,h.replies⟩

omit [DecidableEq S] [DecidableEq T] in
theorem tracked_init (stays : Prop) (maxSessionCount : Int) :
    Tracked stays (State.init maxSessionCount : State T S) := by
  constructor
  · intro t c hc
    cases hc
  · intro r hr
    cases hr

omit [DecidableEq S] in
/-- The target has stayed exactly if a success was sent to it and a search that has found no connected
session is answered so. -/
theorem targetStayed_iff {r : Record S} {ack : AckChat} (h : Answer r ack) :
    r.TargetStayed ↔
      (ack.result=.success → ack.targetCount=1 ∧ r.target.isSome) ∧
      (r.searched → r.target=none → ack.result=.notTarget) ∧
      ¬(ack.result=.success ∧ ack.targetCount=0) := by
  unfold Record.TargetStayed
  rcases h with ⟨hres,hno,hfound⟩|⟨hres,hfound⟩|⟨hres,hfound,hcount⟩
  · simp [hres,hno,hfound]
  · simp [hres,hfound]
  · cases htarget : r.target with
    | none => simp [hres,hfound,hcount,htarget]
    | some y => simp [hres,hfound,hcount,htarget]

/-- A whisper is answered rightly exactly if the target that its search has found is there for
`whisper_chat`; this is so for every whisper of a run in which targets stay. -/
theorem whisper_answer_of_target_stays (e : Env) (maxSessionCount : Int) {s : State T S}
    (h : Reaches (step e) Any (State.init maxSessionCount) s) {r : Reply S} (hr : r∈s.replies)
    (hw : r.pkt.chatState=.whisper) :
    (r.record.TargetStayed ↔
      (r.ack.result=.success → r.ack.targetCount=1 ∧ r.record.target.isSome) ∧
      (r.record.searched → r.record.target=none → r.ack.result=.notTarget) ∧
      ¬(r.ack.result=.success ∧ r.ack.targetCount=0)) ∧
    (Reaches (step e) (TargetStays e) (State.init maxSessionCount) s → r.record.TargetStayed) := by
  have htracked : Tracked False s :=
    h.invariant (tracked_init False maxSessionCount) fun _ _ _ hi _ hs => hi.step False.elim hs
  refine ⟨targetStayed_iff (htracked.replies r hr hw).1,fun hstays => ?_⟩
  have hall : Tracked True s :=
    hstays.invariant (tracked_init True maxSessionCount) fun _ _ _ hi ha hs =>
      hi.step (fun _ => ha) hs
  exact (hall.replies r hr hw).2 trivial

def Reply.isWhisper (r : Reply S) : Bool :=
  match r.pkt.chatState with
  | .whisper => true
  | _ => false

omit [DecidableEq S] in
theorem Reply.isWhisper_iff {r : Reply S} : r.isWhisper ↔ r.pkt.chatState=.whisper := by
  unfold Reply.isWhisper
  split <;> simp_all

/-- A test for `TargetStays` that can be run. -/
def targetStays (e : Env) (s : State T S) : Action T S → Bool
  | .chat t _ =>
    match s.chats t with
    | some c =>
      match c.pc with
      | .whisperChat _ =>
        s.server.game.manager.isWhisperTargetFind (e.codec.utf8ToWString c.pkt.targetName)
      | .whisperSend y _ => s.server.isConnected y
      | _ => true
    | none => true
  | _ => true

omit [DecidableEq S] [DecidableEq T] in
theorem targetStays_sound (e : Env) (s : State T S) (a : Action T S) (h : targetStays e s a) :
    TargetStays e s a := by
  cases a with
  | chat t o =>
    intro c hchat
    simp only [targetStays,hchat] at h
    constructor
    · intro b hpc
      simpa only [hpc] using h
    · intro y b hpc
      simpa only [hpc] using h
  | _ => trivial

/-- Session `false` whispers to session `true`. -/
theorem whisper_answer_of_target_stays_sent :
    ∃ (s : State Unit Bool) (r : Reply Bool),
      Reaches (step plainChat) (TargetStays plainChat) (State.init 10) s ∧ r∈s.replies ∧
      r.pkt.chatState=.whisper ∧ r.ack.result=.success ∧ r.ack.targetCount=1 := by
  have hrun : (runActions (fun (s : State Unit Bool) a =>
        if targetStays plainChat s a then step plainChat s a else none) (State.init 10)
      (logIn false++logIn true++receive false .other++[Action.start () ⟨[1],.whisper,0,[1]⟩]++
        chats 4++runs 2++chats 4++runs 2)).map
      (fun s => s.replies.map fun r => (r.isWhisper,r.ack.result))=
      some [(true,.success)] := by decide +kernel
  obtain ⟨s,hs,hfields⟩ := Option.map_eq_some_iff.mp hrun
  obtain ⟨r,hreplies,hr⟩ := List.map_eq_singleton_iff.mp hfields
  simp only [Prod.mk.injEq] at hr
  have hreach := Reaches.of_guarded (targetStays_sound plainChat) _ hs
  have hmem : r∈s.replies := by
    rw [hreplies]
    exact List.mem_singleton_self r
  have hw := Reply.isWhisper_iff.mp hr.1
  have hanswer :=
    whisper_answer_of_target_stays plainChat 10 (hreach.mono fun _ _ _ => trivial) hmem hw
  exact ⟨s,r,hreach,hmem,hw,hr.2,((hanswer.1.mp (hanswer.2 hreach)).1 hr.2).1⟩

/-- The calls of the server are admitted. -/
def Admitted [Fintype T] (s : State T S) : Action T S → Prop
  | .server a => Admission s.server a
  | _ => True

def admitted (s : State T S) : Action T S → Bool
  | .server a => admissible s.server a
  | _ => true

omit [DecidableEq T] in
theorem admitted_sound [Fintype T] (s : State T S) (a : Action T S) (h : admitted s a) :
    Admitted s a := by
  cases a with
  | server a => exact admission_of_admissible s.server a h
  | _ => trivial

/-- Session `true` has disconnected and its cleanup has not run, so its name is still registered when
session `false` whispers to it: the whisper is sent to nobody and answered with a success. -/
theorem whisper_success_without_target :
    ∃ (s : State Unit Bool) (r : Reply Bool),
      Reaches (step plainChat) Admitted (State.init 10) s ∧ r∈s.replies ∧
      r.pkt.chatState=.whisper ∧ r.record.searched ∧ r.record.target=none ∧
      r.ack=⟨.success,0⟩ := by
  have hrun : (runActions (fun (s : State Unit Bool) a =>
        if admitted s a then step plainChat s a else none) (State.init 10)
      (logIn false++logIn true++[Action.server (.enter () true .disconnect)]++runs 2++
        receive false .other++[Action.start () ⟨[1],.whisper,0,[1]⟩]++chats 8++runs 2)).map
      (fun s => s.replies.map fun r => (r.isWhisper,r.record.searched,r.record.target,r.ack))=
      some [(true,true,none,⟨.success,0⟩)] := by decide +kernel
  obtain ⟨s,hs,hfields⟩ := Option.map_eq_some_iff.mp hrun
  obtain ⟨r,hreplies,hr⟩ := List.map_eq_singleton_iff.mp hfields
  simp only [Prod.mk.injEq] at hr
  have hreach := Reaches.of_guarded admitted_sound _ hs
  have hmem : r∈s.replies := by
    rw [hreplies]
    exact List.mem_singleton_self r
  exact ⟨s,r,hreach,hmem,Reply.isWhisper_iff.mp hr.1,hr.2.1,hr.2.2.1,hr.2.2.2⟩

end IocpServer.Server.Chat
