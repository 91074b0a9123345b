import IocpServer.Framework.Machine
import IocpServer.NetWork.SessionManager

namespace IocpServer.NetWork.Heartbeat

/-- The atomics of a `Session` that the heartbeat goes by. -/
structure Cell extends Pong where
  isConnect : Bool
  lastPongTick : BitVec 64

def Cell.init : Cell := ⟨⟨false,0⟩,false,0⟩

variable {S T : Type}

/-- Where the thread that calls `check_heartbeat` is. From `flag` on it is at the session `x` of its
copy of the list; `setTick`, `setFlag` and `send` are the lines of `send_ping`. -/
inductive Beat (S : Type) where
  | idle
  | copy (now : BitVec 64)
  | visit (now : BitVec 64) (rest : List S)
  | flag (now : BitVec 64) (x : S) (rest : List S)
  | tick (now : BitVec 64) (x : S) (rest : List S)
  | disconnect (now : BitVec 64) (x : S) (rest : List S)
  | setTick (now : BitVec 64) (x : S) (rest : List S)
  | setFlag (now : BitVec 64) (x : S) (rest : List S)
  | send (now : BitVec 64) (x : S) (rest : List S)
deriving DecidableEq

/-- Where a worker is in `Handle_REQ_CONNECT_PONG`. -/
inductive At (S : Type) where
  | idle
  | setTick (x : S) (now : BitVec 64)
  | setFlag (x : S)

/-- What happens, in the order of time. `mark` is the store of `true` by `send_ping`, `ping` its call
of `send`, `answer` the begin of a pong handler and `pong` its store of `false`. -/
inductive Event (S : Type) where
  | check (now : BitVec 64) (sessions : List S)
  | skip (x : S) (now : BitVec 64)
  | read (x : S) (waiting : Bool) (now : BitVec 64)
  | disconnect (x : S) (now : BitVec 64)
  | mark (x : S) (now : BitVec 64)
  | ping (x : S) (now : BitVec 64)
  | answer (x : S)
  | pong (x : S)
  | enlist (x : S)
  | connect (x : S)
  | close (x : S)
  | release (x : S)
deriving DecidableEq

/-- `connecting` are the sessions whose `process_connect` follows, `clock` is the argument of the last
`check_heartbeat`. -/
structure State (S T : Type) where
  manager : SessionManager S
  cell : S → Cell
  connecting : Finset S
  clock : BitVec 64
  heart : Beat S
  threads : T → At S
  log : List (Event S)

/-- `check`, `copy` and `beat` are steps of the heartbeat thread, `answer` and `handle` of a worker.
`close` is a disconnect from elsewhere, also one that the `send` of a ping makes. -/
inductive Action (S T : Type) where
  | check (now : BitVec 64)
  | copy (sessions : List S)
  | beat
  | answer (t : T) (x : S) (now : BitVec 64)
  | handle (t : T)
  | addSession (x : S)
  | connect (x : S)
  | close (x : S)
  | release (x : S)

variable [DecidableEq S] [DecidableEq T]

namespace State

def init (maxSessionCount : Int) : State S T :=
  ⟨SessionManager.init maxSessionCount,fun _ => Cell.init,∅,0,.idle,fun _ => .idle,[]⟩

def setCell (s : State S T) (x : S) (c : Cell) : State S T :=
  { s with cell := Function.update s.cell x c }

def add (s : State S T) (e : Event S) : State S T := { s with log := s.log++[e] }

def go (s : State S T) (b : Beat S) : State S T := { s with heart := b }

end State

/-- One atomic access of `check_heartbeat` or of the `send_ping` it calls. -/
def beat (s : State S T) : Option (State S T) :=
  match s.heart with
  | .idle | .copy _ => none
  | .visit _ [] => some (s.go .idle)
  | .visit now (x::rest) =>
    if (s.cell x).isConnect then some (s.go (.flag now x rest))
    else some ((s.go (.visit now rest)).add (.skip x now))
  | .flag now x rest =>
    if (s.cell x).waitingPong then some ((s.go (.tick now x rest)).add (.read x true now))
    else some ((s.go (.setTick now x rest)).add (.read x false now))
  | .tick now x rest =>
    if pongTimeoutMs<now-(s.cell x).lastPingTick then some (s.go (.disconnect now x rest))
    else some (s.go (.visit now rest))
  | .disconnect now x rest =>
    some (((s.setCell x { s.cell x with isConnect := false }).go (.visit now rest)).add
      (.disconnect x now))
  | .setTick now x rest =>
    some ((s.setCell x { s.cell x with lastPingTick := now }).go (.setFlag now x rest))
  | .setFlag now x rest =>
    some (((s.setCell x { s.cell x with waitingPong := true }).go (.send now x rest)).add
      (.mark x now))
  | .send now x rest => some ((s.go (.visit now rest)).add (.ping x now))

/-- One atomic store of a pong handler. -/
def handle (s : State S T) (t : T) : Option (State S T) :=
  match s.threads t with
  | .idle => none
  | .setTick x now =>
    some { s.setCell x { s.cell x with lastPongTick := now } with
      threads := Function.update s.threads t (.setFlag x) }
  | .setFlag x =>
    some (State.add { s.setCell x { s.cell x with waitingPong := false } with
      threads := Function.update s.threads t .idle } (.pong x))

def step (s : State S T) : Action S T → Option (State S T)
  | .check now =>
    match s.heart with
    | .idle => some { s with heart := .copy now, clock := now }
    | _ => none
  | .copy sessions =>
    match s.heart with
    | .copy now =>
      if sessions.Nodup ∧ sessions.toFinset=s.manager.sessions then
        some ((s.go (.visit now sessions)).add (.check now sessions))
      else none
    | _ => none
  | .beat => beat s
  | .answer t x now =>
    match s.threads t with
    | .idle =>
      some (State.add { s with threads := Function.update s.threads t (.setTick x now) } (.answer x))
    | _ => none
  | .handle t => handle s t
  | .addSession x =>
    match s.manager.addSession x with
    | some (true,m) =>
      some (State.add { s with manager := m, connecting := insert x s.connecting } (.enlist x))
    | _ => some s
  | .connect x =>
    if x∈s.connecting then
      some (State.add { s.setCell x { s.cell x with isConnect := true } with
        connecting := s.connecting.erase x } (.connect x))
    else none
  | .close x => some ((s.setCell x { s.cell x with isConnect := false }).add (.close x))
  | .release x => some (State.add { s with manager := s.manager.eraseSession x } (.release x))

/-- The clock values of the calls do not decrease. -/
def Rising (s : State S T) : Action S T → Prop
  | .check now => s.clock ≤ now
  | _ => True

instance (s : State S T) : (a : Action S T) → Decidable (Rising s a)
  | .check now => inferInstanceAs (Decidable (s.clock ≤ now))
  | .copy _ | .beat | .answer _ _ _ | .handle _ | .addSession _ | .connect _ | .close _
  | .release _ => isTrue trivial

/-- All that a step of the heartbeat thread can do, with a rising clock. -/
inductive Turn (s : State S T) : State S T → Prop
  | check (now : BitVec 64) (hheart : s.heart=.idle) (hclock : s.clock ≤ now) :
      Turn s { s with heart := .copy now, clock := now }
  | copy (now : BitVec 64) (sessions : List S) (hheart : s.heart=.copy now)
      (hnodup : sessions.Nodup) (hsessions : sessions.toFinset=s.manager.sessions) :
      Turn s ((s.go (.visit now sessions)).add (.check now sessions))
  | done (now : BitVec 64) (hheart : s.heart=.visit now []) : Turn s (s.go .idle)
  | connected (now : BitVec 64) (x : S) (rest : List S) (hheart : s.heart=.visit now (x::rest))
      (hon : (s.cell x).isConnect=true) : Turn s (s.go (.flag now x rest))
  | skip (now : BitVec 64) (x : S) (rest : List S) (hheart : s.heart=.visit now (x::rest))
      (hoff : (s.cell x).isConnect=false) :
      Turn s ((s.go (.visit now rest)).add (.skip x now))
  | waiting (now : BitVec 64) (x : S) (rest : List S) (hheart : s.heart=.flag now x rest)
      (hflag : (s.cell x).waitingPong=true) :
      Turn s ((s.go (.tick now x rest)).add (.read x true now))
  | answered (now : BitVec 64) (x : S) (rest : List S) (hheart : s.heart=.flag now x rest)
      (hflag : (s.cell x).waitingPong=false) :
      Turn s ((s.go (.setTick now x rest)).add (.read x false now))
  | timeout (now : BitVec 64) (x : S) (rest : List S) (hheart : s.heart=.tick now x rest)
      (hlate : pongTimeoutMs<now-(s.cell x).lastPingTick) :
      Turn s (s.go (.disconnect now x rest))
  | inTime (now : BitVec 64) (x : S) (rest : List S) (hheart : s.heart=.tick now x rest)
      (hearly : ¬pongTimeoutMs<now-(s.cell x).lastPingTick) : Turn s (s.go (.visit now rest))
  | disconnect (now : BitVec 64) (x : S) (rest : List S) (hheart : s.heart=.disconnect now x rest) :
      Turn s (((s.setCell x { s.cell x with isConnect := false }).go (.visit now rest)).add
        (.disconnect x now))
  | setTick (now : BitVec 64) (x : S) (rest : List S) (hheart : s.heart=.setTick now x rest) :
      Turn s ((s.setCell x { s.cell x with lastPingTick := now }).go (.setFlag now x rest))
  | mark (now : BitVec 64) (x : S) (rest : List S) (hheart : s.heart=.setFlag now x rest) :
      Turn s (((s.setCell x { s.cell x with waitingPong := true }).go (.send now x rest)).add
        (.mark x now))
  | ping (now : BitVec 64) (x : S) (rest : List S) (hheart : s.heart=.send now x rest) :
      Turn s ((s.go (.visit now rest)).add (.ping x now))

/-- All that a step of another thread can do. -/
inductive Aside (s : State S T) : State S T → Prop
  | answer (t : T) (x : S) (now : BitVec 64) (hidle : s.threads t=.idle) :
      Aside s (State.add { s with threads := Function.update s.threads t (.setTick x now) }
        (.answer x))
  | pongTick (t : T) (x : S) (now : BitVec 64) (ht : s.threads t=.setTick x now) :
      Aside s { s.setCell x { s.cell x with lastPongTick := now } with
        threads := Function.update s.threads t (.setFlag x) }
  | pong (t : T) (x : S) (ht : s.threads t=.setFlag x) :
      Aside s (State.add { s.setCell x { s.cell x with waitingPong := false } with
        threads := Function.update s.threads t .idle } (.pong x))
  | enlist (x : S) (m : SessionManager S) (hm : s.manager.addSession x=some (true,m)) :
      Aside s (State.add { s with manager := m, connecting := insert x s.connecting } (.enlist x))
  | refuse : Aside s s
  | connect (x : S) (hx : x∈s.connecting) :
      Aside s (State.add { s.setCell x { s.cell x with isConnect := true } with
        connecting := s.connecting.erase x } (.connect x))
  | close (x : S) : Aside s ((s.setCell x { s.cell x with isConnect := false }).add (.close x))
  | release (x : S) :
      Aside s (State.add { s with manager := s.manager.eraseSession x } (.release x))

omit [DecidableEq T] in
theorem turn_of_beat {s s' : State S T} (hs : beat s=some s') : Turn s s' := by
  unfold beat at hs
  split at hs
  · cases hs
  · cases hs
  · rename_i now hheart
    cases hs
    exact .done now hheart
  · rename_i now x rest hheart
    split at hs <;> cases hs
    · exact .connected now x rest hheart ‹_›
    · exact .skip now x rest hheart (Bool.eq_false_iff.mpr ‹_›)
  · rename_i now x rest hheart
    split at hs <;> cases hs
    · exact .waiting now x rest hheart ‹_›
    · exact .answered now x rest hheart (Bool.eq_false_iff.mpr ‹_›)
  · rename_i now x rest hheart
    split at hs <;> cases hs
    · exact .timeout now x rest hheart ‹_›
    · exact .inTime now x rest hheart ‹_›
  · cases hs
    exact .disconnect _ _ _ ‹_›
  · cases hs
    exact .setTick _ _ _ ‹_›
  · cases hs
    exact .mark _ _ _ ‹_›
  · cases hs
    exact .ping _ _ _ ‹_›

theorem aside_of_handle {s s' : State S T} {t : T} (hs : handle s t=some s') : Aside s s' := by
  unfold handle at hs
  split at hs <;> cases hs
  · exact .pongTick t _ _ ‹_›
  · exact .pong t _ ‹_›

theorem step_cases {s s' : State S T} {a : Action S T} (ha : Rising s a)
    (hs : step s a=some s') : Turn s s' ∨ Aside s s' := by
  cases a with
  | check now =>
    simp only [step] at hs
    split at hs <;> cases hs
    exact Or.inl (.check now ‹_› ha)
  | copy sessions =>
    simp only [step] at hs
    split at hs
    · split at hs <;> cases hs
      rename_i hheart hcopy
      exact Or.inl (.copy _ sessions hheart hcopy.1 hcopy.2)
    · cases hs
  | beat => exact Or.inl (turn_of_beat hs)
  | answer t x now =>
    simp only [step] at hs
    split at hs <;> cases hs
    exact Or.inr (.answer t x now ‹_›)
  | handle t => exact Or.inr (aside_of_handle hs)
  | addSession x =>
    simp only [step] at hs
    split at hs <;> cases hs
    · exact Or.inr (.enlist x _ ‹_›)
    · exact Or.inr .refuse
  | connect x =>
    simp only [step] at hs
    split at hs <;> cases hs
    exact Or.inr (.connect x ‹_›)
  | close x =>
    cases hs
    exact Or.inr (.close x)
  | release x =>
    cases hs
    exact Or.inr (.release x)

end IocpServer.NetWork.Heartbeat
