import Mathlib.Data.Finset.Card
import IocpServer.Game.Leaving

namespace IocpServer.Game

open NetWork (SessionManager)

/-- The operations that no handler has. -/
def Op.isFinal : Op → Bool
  | .countDisconnect | .exchangeIsLogin _ | .eraseSession | .setCleanupDone => true
  | _ => false

def Op.isCountDisconnect : Op → Bool
  | .countDisconnect => true
  | _ => false

variable {S : Type}

theorem handle_final (f : Fields) (pkt : Request) : ∀ op∈handle f pkt, op.isFinal=false := by
  cases pkt with
  | login bot pkt =>
    simp only [handle,handleReqLogin,handlerFailed]
    repeat' split
    all_goals simp [Op.isFinal]
  | logout pkt =>
    simp only [handle,handleReqLogout,notLogin,handlerFailed]
    repeat' split
    all_goals simp [Op.isFinal]
  | enterRoom roomId =>
    simp only [handle,handleReqEnterRoom,notLogin,handlerFailed]
    repeat' split
    all_goals simp [Op.isFinal]
  | exitRoom =>
    simp only [handle,handleReqExitRoom,notLogin,handlerFailed]
    repeat' split
    all_goals simp [Op.isFinal]

/-- The cleanup of a session that was connected counts its disconnect once. -/
theorem cleanup_count (f : Fields) :
    (cleanup f).countP Op.isCountDisconnect=f.wasConnected.toNat := by
  unfold cleanup onDisconnect releaseSession
  cases f.wasConnected
  · rfl
  · simp only [if_true]
    split <;> rfl

variable [DecidableEq S]

/-- The counters agree with their histories. -/
structure Counters (s : State S) : Prop where
  connect : s.stats.connect=s.stats.arrived.card
  disconnect : s.stats.disconnect=s.stats.departed.card
  sessionCount : s.manager.sessionCount=s.manager.sessions.card

omit [DecidableEq S] in
theorem counters_init (maxSessionCount : Int) : Counters (State.init maxSessionCount : State S) :=
  ⟨rfl,rfl,rfl⟩

/-- What an operation does beside its effect on login, rooms and registries. -/
theorem exec_counters (c : Codec) (s : State S) (x : S) (op : Op) :
    (∀ op'∈(exec c s x op).2.1, op'.isFinal=false) ∧
      ((exec c s x op).1.sessions x).wasConnected=(s.sessions x).wasConnected ∧
      (((exec c s x op).1.sessions x).cleanupDone → (s.sessions x).cleanupDone ∨ op.isFinal) ∧
      (exec c s x op).1.stats.arrived=s.stats.arrived ∧
      (exec c s x op).1.stats.departed=
        (if op.isCountDisconnect then insert x s.stats.departed else s.stats.departed) ∧
      (Counters s → (op.isCountDisconnect → x∉s.stats.departed) → Counters (exec c s x op).1) := by
  cases op with
  | eraseSession =>
    refine ⟨by simp [exec],rfl,Or.inl,rfl,rfl,?_⟩
    intro h _
    refine ⟨h.connect,h.disconnect,?_⟩
    have hcount := h.sessionCount
    simp only [exec,SessionManager.eraseSession]
    split
    · rename_i hin
      have hcard := Finset.card_erase_add_one hin
      simp only
      omega
    · exact hcount
  | countDisconnect =>
    refine ⟨by simp [exec],rfl,Or.inl,rfl,rfl,?_⟩
    intro h hnew
    refine ⟨h.connect,?_,h.sessionCount⟩
    simp only [exec]
    rw [Finset.card_insert_of_notMem (hnew rfl),h.disconnect]
  | setCleanupDone =>
    refine ⟨by simp [exec],by simp [exec,State.setSession],fun _ => Or.inr rfl,rfl,rfl,?_⟩
    exact fun h _ => ⟨h.connect,h.disconnect,h.sessionCount⟩
  | addAccountSession | addNameSession | releaseLogoutSession | releaseNameSession =>
    refine ⟨by simp [exec],rfl,Or.inl,rfl,rfl,?_⟩
    intro h _
    refine ⟨h.connect,h.disconnect,?_⟩
    simp only [exec,SessionManager.addAccountSession,SessionManager.addNameSession,
      SessionManager.releaseLogoutSession,SessionManager.releaseNameSession]
    split <;> exact h.sessionCount
  | loginCall bot pkt =>
    simp only [exec]
    split
    · refine ⟨by simp [loginSuccess,Op.isFinal],by simp [State.setSession],
        fun h => Or.inl (by simpa [State.setSession] using h),rfl,rfl,?_⟩
      exact fun h _ => ⟨h.connect,h.disconnect,h.sessionCount⟩
    · refine ⟨by simp [Op.isFinal],rfl,Or.inl,rfl,rfl,?_⟩
      exact fun h _ => ⟨h.connect,h.disconnect,h.sessionCount⟩
  | ackLogin bot idx name result =>
    simp only [exec]
    split
    · refine ⟨by simp,by simp [State.setSession],
        fun h => Or.inl (by simpa [State.setSession] using h),rfl,rfl,?_⟩
      exact fun h _ => ⟨h.connect,h.disconnect,h.sessionCount⟩
    · refine ⟨by simp,rfl,Or.inl,rfl,rfl,?_⟩
      exact fun h _ => ⟨h.connect,h.disconnect,h.sessionCount⟩
  | logoutCall =>
    simp only [exec]
    split
    · refine ⟨by simp [logoutSuccess,Op.isFinal],by simp [State.setSession],
        fun h => Or.inl (by simpa [State.setSession] using h),rfl,rfl,?_⟩
      exact fun h _ => ⟨h.connect,h.disconnect,h.sessionCount⟩
    · refine ⟨by simp [logoutFaile,Op.isFinal],rfl,Or.inl,rfl,rfl,?_⟩
      exact fun h _ => ⟨h.connect,h.disconnect,h.sessionCount⟩
  | enterCall roomId | exitCall roomId =>
    simp only [exec]
    split
    all_goals
      refine ⟨by simp [Op.isFinal],rfl,Or.inl,rfl,rfl,?_⟩
      exact fun h _ => ⟨h.connect,h.disconnect,h.sessionCount⟩
  | exchangeIsLogin a =>
    refine ⟨?_,by simp [exec,State.setSession],
      fun h => Or.inl (by simpa [exec,State.setSession] using h),rfl,rfl,?_⟩
    · simp only [exec]
      split <;> simp [Op.isFinal]
    · exact fun h _ => ⟨h.connect,h.disconnect,h.sessionCount⟩
  | _ =>
    refine ⟨by simp [exec],by simp [exec,State.setSession],
      fun h => Or.inl (by simpa [exec,State.setSession] using h),rfl,rfl,?_⟩
    exact fun h _ => ⟨h.connect,h.disconnect,h.sessionCount⟩

end IocpServer.Game
