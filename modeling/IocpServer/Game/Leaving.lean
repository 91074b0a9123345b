import IocpServer.Game.Consistency

namespace IocpServer.Game

open NetWork (SessionManager)

/-- The operations of a cleanup job. None of them logs the session in. -/
def Op.Cleaning : Op → Prop
  | .setAccountIdx _ | .setName _ | .setRoomId _ | .exitRoom _ _ | .releaseLogoutSession
  | .releaseNameSession | .countDisconnect | .exchangeIsLogin _ | .logout _ | .eraseSession
  | .setCleanupDone => True
  | _ => False

variable {S : Type}

/-- Session `x` is in its cleanup or past it: only cleanup operations are left, and what they have
not yet undone they will. -/
structure Leaving (s : State S) (x : S) : Prop where
  ops : ∀ op∈(s.sessions x).todo, op.Cleaning
  login : (s.sessions x).isLogin=false ∨ ∃ a, .exchangeIsLogin a∈(s.sessions x).todo
  listed : x∉s.manager.sessions ∨ .eraseSession∈(s.sessions x).todo

/-- Nobody else brings the session back. -/
theorem Leaving.congr {s s' : State S} {x : S} (h : Leaving s x)
    (hses : s'.sessions x=s.sessions x) (hlist : x∈s'.manager.sessions → x∈s.manager.sessions) :
    Leaving s' x := by
  constructor
  · rw [hses]
    exact h.ops
  · rw [hses]
    exact h.login
  · rw [hses]
    exact h.listed.imp_left fun hout hin => hout (hlist hin)

/-- A session that is past its cleanup is in no registry and no room, and its fields are reset. -/
theorem Inv.gone {s : State S} (h : Inv s) {x : S} (hl : Leaving s x)
    (hidle : (s.sessions x).todo=[]) :
    x∉s.manager.sessions ∧ (∀ a, s.manager.accountSessions.lookup a≠some x) ∧
      (∀ n, s.manager.nameSessions.lookup n≠some x) ∧ (∀ r a, ¬s.rooms.Lists r a x) ∧
      (s.sessions x).isLogin=false ∧ (s.sessions x).accountIdx=0 ∧ (s.sessions x).userName=[] ∧
      (s.sessions x).enterRoomId=-1 ∧ (s.sessions x).obtained=none := by
  obtain ⟨k,hsat,-,hrest⟩ := h.know x
  rw [hidle] at hrest
  have hlogin : (s.sessions x).isLogin=false := by
    simpa [hidle] using hl.login
  have hout : x∉s.manager.sessions := by
    simpa [hidle] using hl.listed
  have hacc : k.account=none := by simp [hrest.account,hlogin]
  have hent : k.entry=none := by simp [hrest.entry,hlogin]
  have hname : k.nameEntry=none := by simp [hrest.nameEntry,hlogin]
  obtain ⟨h0,hn,hr⟩ := hrest.cleared hlogin
  refine ⟨hout,?_,?_,?_,hlogin,h0,hn,hr,hsat.obtained.trans hacc⟩
  · intro a ha
    have := (hsat.entry a ha).2
    rw [hent] at this
    cases this
  · intro n hin
    have := (hsat.nameEntry n hin).2
    rw [hname] at this
    cases this
  · intro r a hin
    have := ((hsat.room r a).mp hin).2
    rw [hacc] at this
    cases this

variable [DecidableEq S]

/-- A step of one session leaves the records of the others alone. -/
theorem exec_sessions_of_ne (c : Codec) (s : State S) {x y : S} (hy : y≠x) (op : Op) :
    (exec c s x op).1.sessions y=s.sessions y := by
  cases op with
  | loginCall bot pkt =>
    simp only [exec]
    split <;> simp [State.setSession,hy]
  | ackLogin bot idx name result =>
    simp only [exec]
    split <;> simp [State.setSession,hy]
  | logoutCall =>
    simp only [exec]
    split <;> simp [State.setSession,hy]
  | enterCall roomId =>
    simp only [exec]
    split <;> rfl
  | exitCall roomId =>
    simp only [exec]
    split <;> rfl
  | _ => simp [exec,State.setSession,hy]

/-- Only the erasure at the end of a cleanup removes a session from the list of sessions. -/
theorem exec_listed (c : Codec) (s : State S) (x y : S) (op : Op) :
    y∈(exec c s x op).1.manager.sessions ↔ y∈s.manager.sessions ∧ ¬(op=.eraseSession ∧ y=x) := by
  cases op with
  | eraseSession =>
    simp only [exec,SessionManager.mem_eraseSession]
    tauto
  | addAccountSession idx =>
    simp only [exec,SessionManager.addAccountSession]
    split <;> simp
  | addNameSession name =>
    simp only [exec,SessionManager.addNameSession]
    split <;> simp
  | releaseLogoutSession =>
    simp only [exec,SessionManager.releaseLogoutSession]
    split <;> simp
  | releaseNameSession =>
    simp only [exec,SessionManager.releaseNameSession]
    split <;> simp
  | loginCall bot pkt =>
    simp only [exec]
    split <;> simp [State.setSession]
  | ackLogin bot idx name result =>
    simp only [exec]
    split <;> simp [State.setSession]
  | logoutCall =>
    simp only [exec]
    split <;> simp [State.setSession]
  | enterCall roomId =>
    simp only [exec]
    split <;> simp
  | exitCall roomId =>
    simp only [exec]
    split <;> simp
  | _ => simp [exec,State.setSession]

/-- A cleanup operation leads to cleanup operations, and it does not log in. -/
theorem exec_cleaning (c : Codec) (s : State S) (x : S) {op : Op} (h : op.Cleaning) :
    (∀ op'∈(exec c s x op).2.1, op'.Cleaning) ∧
      (((exec c s x op).1.sessions x).isLogin=false ∨
        ((exec c s x op).1.sessions x).isLogin=(s.sessions x).isLogin ∧ ∀ a, op≠.exchangeIsLogin a) := by
  cases op with
  | exchangeIsLogin a =>
    simp only [exec]
    constructor
    · split <;> simp [Op.Cleaning]
    · exact Or.inl (by simp [State.setSession])
  | setAccountIdx | setName | setRoomId | exitRoom | releaseLogoutSession | releaseNameSession
  | countDisconnect | logout | eraseSession | setCleanupDone =>
    simp [exec,State.setSession]
  | _ => exact h.elim

theorem advance_sessions_self (c : Codec) (s : State S) (x : S) (op : Op) (rest : List Op) :
    (advance c s x op rest).1.sessions x=
      { (exec c s x op).1.sessions x with todo := (exec c s x op).2.1++rest } := by
  simp [advance,State.setSession]

theorem advance_sessions_of_ne (c : Codec) (s : State S) {x y : S} (hy : y≠x) (op : Op)
    (rest : List Op) : (advance c s x op rest).1.sessions y=s.sessions y := by
  simp only [advance,State.setSession,Function.update_of_ne hy]
  exact exec_sessions_of_ne c s hy op

theorem advance_listed (c : Codec) (s : State S) (x y : S) (op : Op) (rest : List Op) :
    y∈(advance c s x op rest).1.manager.sessions ↔
      y∈s.manager.sessions ∧ ¬(op=.eraseSession ∧ y=x) :=
  exec_listed c s x y op

/-- The cleanup goes on. -/
theorem Leaving.advance {s : State S} {x : S} (h : Leaving s x) {op : Op} {rest : List Op}
    (htodo : (s.sessions x).todo=op::rest) (c : Codec) : Leaving (advance c s x op rest).1 x := by
  have hops := h.ops
  have hlogin := h.login
  have hlisted := h.listed
  rw [htodo] at hops hlogin hlisted
  obtain ⟨hadd,hkeep⟩ := exec_cleaning c s x (hops op (by simp))
  constructor
  · rw [advance_sessions_self]
    intro op' hin
    rcases List.mem_append.mp hin with hin|hin
    · exact hadd op' hin
    · exact hops op' (by simp [hin])
  · rw [advance_sessions_self]
    rcases hkeep with hfalse|⟨hsame,hne⟩
    · exact Or.inl hfalse
    · rcases hlogin with hfalse|⟨a,ha⟩
      · exact Or.inl (hsame.trans hfalse)
      · rcases List.mem_cons.mp ha with ha|ha
        · exact absurd ha.symm (hne a)
        · exact Or.inr ⟨a,List.mem_append_right _ ha⟩
  · rw [advance_sessions_self,advance_listed]
    rcases hlisted with hout|hin
    · exact Or.inl fun hin => hout hin.1
    · rcases List.mem_cons.mp hin with hop|hin
      · exact Or.inl fun hmem => hmem.2 ⟨hop.symm,rfl⟩
      · exact Or.inr (List.mem_append_right _ hin)

theorem Leaving.connect {s : State S} {x : S} (h : Leaving s x) : Leaving (s.connect x) x := by
  obtain ⟨hops,hlogin,hlisted⟩ := h
  constructor
  · simpa [State.connect,State.setSession] using hops
  · simpa [State.connect,State.setSession] using hlogin
  · simpa [State.connect,State.setSession] using hlisted

theorem cleanup_ops (f : Fields) : (∀ op∈cleanup f, op.Cleaning) ∧ .eraseSession∈cleanup f ∧
    (f.wasConnected → .exchangeIsLogin f.accountIdx∈cleanup f) := by
  unfold cleanup onDisconnect releaseSession
  split
  · split <;> simp [Op.Cleaning]
  · rename_i hc
    simp [Op.Cleaning,hc]

/-- The cleanup job starts in an idle session. -/
theorem Inv.leaving {s : State S} (h : Inv s) {x : S} (hidle : (s.sessions x).todo=[]) :
    Leaving (s.startCleanup x) x := by
  obtain ⟨hops,herase,hexchange⟩ := cleanup_ops (s.sessions x).toFields
  obtain ⟨k,-,-,hrest⟩ := h.know x
  rw [hidle] at hrest
  constructor
  · simpa [State.startCleanup,State.setSession] using hops
  · simp only [State.startCleanup,State.setSession,Function.update_self]
    cases hl : (s.sessions x).isLogin with
    | false => exact Or.inl rfl
    | true => exact Or.inr ⟨_,hexchange (hrest.login hl).1⟩
  · simp only [State.startCleanup,State.setSession,Function.update_self]
    exact Or.inr herase

end IocpServer.Game
