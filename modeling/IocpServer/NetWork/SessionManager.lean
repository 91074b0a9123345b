import Mathlib.Data.Finset.Image
import IocpServer.Framework.Map
import IocpServer.Game.Protocol

namespace IocpServer.NetWork

open Game (WString)

/-- What a `Session` knows of its heartbeat. -/
structure Pong where
  waitingPong : Bool
  lastPingTick : BitVec 64

/-- What `check_heartbeat` does with a session. -/
inductive Heartbeat where
  | skip
  | disconnect
  | sendPing
deriving DecidableEq

def pongTimeoutMs : BitVec 64 := 15000

def heartbeat (isConnected : Bool) (pong : Pong) (now : BitVec 64) : Heartbeat :=
  if isConnected=false then .skip
  else if pong.waitingPong then
    if pongTimeoutMs<now-pong.lastPingTick then .disconnect else .skip
  else .sendPing

/-- The registries of `SessionManager`. -/
structure SessionManager (S : Type) where
  sessions : Finset S
  accountSessions : Map Nat S
  nameSessions : Map WString S
  sessionCount : Int
  maxSessionCount : Int

namespace SessionManager

variable {S : Type} [DecidableEq S]

def init (maxSessionCount : Int) : SessionManager S := ⟨∅,∅,∅,0,maxSessionCount⟩

/-- The locked part of `add_session`. `none` is the refusal because the server is full; the flag
says whether the session was new, so that `process_connect` follows. -/
def addSession (m : SessionManager S) (x : S) : Option (Bool×SessionManager S) :=
  if x∈m.sessions then some (false,m)
  else if m.maxSessionCount ≤ m.sessionCount then none
  else some (true,{ m with sessions := insert x m.sessions, sessionCount := m.sessionCount+1 })

def addAccountSession (m : SessionManager S) (accountId : Nat) (x : S) : SessionManager S :=
  if accountId=0 then m
  else { m with accountSessions := m.accountSessions.insert accountId x }

def addNameSession (m : SessionManager S) (name : WString) (x : S) : SessionManager S :=
  if name=[] then m
  else { m with nameSessions := m.nameSessions.insert name x }

def releaseLogoutSession (m : SessionManager S) (accountId : Nat) (x : S) : SessionManager S :=
  if accountId=0 then m
  else { m with accountSessions := m.accountSessions.eraseIf accountId x }

def releaseNameSession (m : SessionManager S) (userName : WString) (x : S) : SessionManager S :=
  if userName=[] then m
  else { m with nameSessions := m.nameSessions.eraseIf userName x }

/-- The locked part of `release_session`, after the two registries. -/
def eraseSession (m : SessionManager S) (x : S) : SessionManager S :=
  if x∈m.sessions then
    { m with sessions := m.sessions.erase x, sessionCount := m.sessionCount-1 }
  else m

/-- `check_heartbeat` visits the listed sessions. -/
def checkHeartbeat (m : SessionManager S) (isConnected : S → Bool) (pong : S → Pong)
    (now : BitVec 64) : Finset (S×Heartbeat) :=
  m.sessions.image fun x => (x,heartbeat (isConnected x) (pong x) now)

/-- The sessions `normal_chat` collects under the lock and then sends to. -/
def normalChat (m : SessionManager S) (isConnected : S → Bool) (roomIdOf : S → Int) (roomId : Int) :
    List S :=
  m.accountSessions.values.filter fun x => isConnected x && roomIdOf x==roomId

/-- The sessions of a copy of the list that `all_chat` sends to. -/
def allChat (isConnected : S → Bool) (roomIdOf : S → Int) (sessions : List S) : List S :=
  sessions.filter fun x => !(isConnected x==false || roomIdOf x<0)

def isWhisperTargetFind (m : SessionManager S) (targetName : WString) : Bool :=
  (m.nameSessions.lookup targetName).isSome

/-- A session that is added is listed if it was new, and no other one changes. -/
theorem mem_addSession {m m' : SessionManager S} {b : Bool} {x y : S}
    (h : m.addSession x=some (b,m')) : y∈m'.sessions ↔ y=x ∨ y∈m.sessions := by
  unfold addSession at h
  split at h
  · cases h
    constructor
    · exact Or.inr
    · rintro (rfl|hy)
      · assumption
      · exact hy
  · split at h <;> cases h
    exact Finset.mem_insert

theorem mem_eraseSession {m : SessionManager S} {x y : S} :
    y∈(m.eraseSession x).sessions ↔ y≠x ∧ y∈m.sessions := by
  unfold eraseSession
  split
  · exact Finset.mem_erase
  · rename_i hx
    constructor
    · intro hy
      refine ⟨?_,hy⟩
      rintro rfl
      exact hx hy
    · exact fun h => h.2

omit [DecidableEq S] in
theorem addAccountSession_lookup {m : SessionManager S} {a b : Nat} {x y : S} (ha : a≠0) :
    (m.addAccountSession a x).accountSessions.lookup b=some y ↔
      (b=a ∧ y=x) ∨ (b≠a ∧ m.accountSessions.lookup b=some y) := by
  rw [addAccountSession,if_neg ha,Map.lookup_insert_iff]

omit [DecidableEq S] in
theorem addNameSession_lookup {m : SessionManager S} {n k : WString} {x y : S} (hn : n≠[]) :
    (m.addNameSession n x).nameSessions.lookup k=some y ↔
      (k=n ∧ y=x) ∨ (k≠n ∧ m.nameSessions.lookup k=some y) := by
  rw [addNameSession,if_neg hn,Map.lookup_insert_iff]

/-- A release removes the caller's own entry and leaves every other one. -/
theorem releaseLogoutSession_lookup {m : SessionManager S} {a b : Nat} {x y : S} :
    (m.releaseLogoutSession a x).accountSessions.lookup b=some y ↔
      m.accountSessions.lookup b=some y ∧ ¬(a≠0 ∧ b=a ∧ y=x) := by
  unfold releaseLogoutSession
  split
  · simp [*]
  · rename_i ha
    rw [Map.lookup_eraseIf_iff]
    simp [ha]

theorem releaseNameSession_lookup {m : SessionManager S} {n k : WString} {x y : S} :
    (m.releaseNameSession n x).nameSessions.lookup k=some y ↔
      m.nameSessions.lookup k=some y ∧ ¬(n≠[] ∧ k=n ∧ y=x) := by
  unfold releaseNameSession
  split
  · simp [*]
  · rename_i hn
    rw [Map.lookup_eraseIf_iff]
    simp [hn]

end SessionManager

end IocpServer.NetWork
