import IocpServer.Config.Settings
import IocpServer.Framework.Machine
import IocpServer.Framework.Stride

namespace IocpServer.TestClient.LoadTest

open Config (ClientConfig Text clientLoad Accepts numericSettings)
open Stride (Covers)
open Word

/-- The platforms of the project. -/
inductive Platform where
  | win32
  | x64

def Platform.sizeBits : Platform → Nat
  | .win32 => 32
  | .x64 => 64

/-- The value of an integer once it is stored in a `size_t`. -/
def Platform.size (w : Platform) (n : Int) : Nat := (unsigned w.sizeBits n).toNat

/-- `%` of two `int32`; `none` is undefined behaviour. -/
def remainder (a b : Int) : Option Int :=
  if b=0 ∨ (a= -2^31 ∧ b= -1) then none else some (a.tmod b)

inductive ChatState where
  | normal
  | all
  | whisper

/-- What a bot asks its session to send. -/
inductive Send where
  | enterRoom (roomId : Int)
  | chat (message : String) (state : ChatState) (roomId : Int)
  | whisperChat (targetName message : String) (state : ChatState) (roomId : Int)

/-- What one iteration reads: the flag of `LoadControl` and the state of the session. -/
structure Reading where
  running : Bool
  isLogin : Bool
  roomId : Int

variable {W : Type}

/-- The bots whose `connect`, `register_socket` and `start` succeed, by their indices. -/
def connectSessions (c : ClientConfig W) (connects : Int → Bool) : List Int :=
  ((List.range c.sessionCount.toNat).map Int.ofNat).filter connects

section Loop

variable (w : Platform) (c : ClientConfig W) (sessions : List Int)

/-- The end of the `else if` chain: whether the bot whispers, with the short-circuit of `&&`. -/
def whispers (botIndex : Int) : Option Bool :=
  if 1<sessions.length then (remainder botIndex c.whisperInterval).map fun r => r=0 else some false

/-- The body of the loop behind the test of the flag; `none` is undefined behaviour. -/
def visit (index : Nat) (botIndex : Int) (r : Reading) : Option (List Send) :=
  if r.isLogin=false then some []
  else if r.roomId<0 then
    (remainder botIndex c.botRoomCount).map fun room => [.enterRoom (uint8 room)]
  else (remainder botIndex c.allChatInterval).bind fun all =>
    if all=0 then some [.chat "bot all chat test" .all r.roomId]
    else (whispers c sessions botIndex).bind fun whisper =>
      if whisper then
        sessions[w.size (index+1)%sessions.length]?.map fun target =>
          [.whisperChat ("Bot_"++toString target) "bot whisper test" .whisper r.roomId]
      else some [.chat "bot room chat test" .normal r.roomId]

/-- One pass of the `for` loop of a bot thread. -/
structure Pass where
  index : Nat
  broken : Bool
  fault : Bool
  visited : List Nat
  sent : List Send

/-- The start of the pass of thread `i`. -/
def Pass.start (i : Nat) : Pass := ⟨w.size i,false,false,[],[]⟩

/-- One iteration; `none` if the loop is left. -/
def Pass.step (p : Pass) (r : Reading) : Option Pass :=
  if p.broken ∨ p.fault then none
  else match sessions[p.index]? with
    | none => none
    | some botIndex =>
      if r.running=false then some { p with broken := true }
      else match visit w c sessions p.index botIndex r with
        | none => some { p with fault := true }
        | some sends => some
          { p with index := w.size (p.index+c.botThreadCount), visited := p.visited++[p.index],
                   sent := p.sent++sends }

/-- Fed with these readings, the pass of thread `i` ends after finitely many iterations and without
undefined behaviour. -/
def PassEnds (i : Nat) (feed : Nat → Reading) (p : Pass) : Prop :=
  ∃ n ≤ sessions.length+1,
    runActions (Pass.step w c sessions) (Pass.start w i) ((List.range n).map feed)=some p ∧
    p.step w c sessions (feed n)=none ∧ p.fault=false

end Loop

/-- What the accepted settings say about the loop. -/
structure Usable (c : ClientConfig W) : Prop where
  sessionCount : c.sessionCount ≤ 100000
  botThreadCount : 1 ≤ c.botThreadCount ∧ c.botThreadCount ≤ 256
  botRoomCount : 1 ≤ c.botRoomCount ∧ c.botRoomCount ≤ 256
  allChatInterval : 1 ≤ c.allChatInterval
  whisperInterval : 1 ≤ c.whisperInterval

theorem usable_of_accepted {sections : Config.Sections} {c : ClientConfig W}
    (h : List.Forall₂ (Accepts sections) numericSettings c.numbers) : Usable c := by
  simp only [numericSettings,ClientConfig.numbers,List.forall₂_cons] at h
  obtain ⟨-,hsessions,-,hthreads,-,hrooms,hall,hwhisper,-⟩ := h
  exact ⟨hsessions.2.2,hthreads.2,hrooms.2,hall.2.1,hwhisper.2.1⟩

theorem remainder_of_pos {a b : Int} (h : 1 ≤ b) : remainder a b=some (a.tmod b) :=
  if_neg (by omega)

/-- The room number of a bot fits in the `uint8` of the request. -/
theorem uint8_room {a b : Int} (ha : 0 ≤ a) (hb : 1 ≤ b) (hb' : b ≤ 256) :
    uint8 (a.tmod b)=a.tmod b := by
  have hlo := Int.emod_nonneg a (show b≠0 by omega)
  have hhi := Int.emod_lt_of_pos a (show 0<b by omega)
  rw [Int.tmod_eq_emod_of_nonneg ha]
  exact uint8_of_fits hlo (by omega)

theorem Platform.size_of_fits (w : Platform) {n : Int} (h0 : 0 ≤ n) (h : n<2^32) :
    (w.size n : Int)=n := by
  have hfits : unsigned w.sizeBits n=n := by
    cases w with
    | win32 => exact unsigned_of_fits h0 h
    | x64 => exact unsigned_of_fits h0 (Int.lt_trans h (by decide))
  rw [Platform.size,hfits]
  exact Int.toNat_of_nonneg h0

theorem mem_connectSessions {c : ClientConfig W} {connects : Int → Bool} {botIndex : Int}
    (h : botIndex∈connectSessions c connects) : 0 ≤ botIndex := by
  obtain ⟨n,-,rfl⟩ := List.mem_map.mp (List.mem_filter.mp h).1
  exact Int.natCast_nonneg n

theorem length_connectSessions {c : ClientConfig W} (h : Usable c) (connects : Int → Bool) :
    (connectSessions c connects).length ≤ 100000 := by
  have hle := List.length_filter_le connects ((List.range c.sessionCount.toNat).map Int.ofNat)
  rw [List.length_map,List.length_range] at hle
  have hcount := h.sessionCount
  unfold connectSessions
  omega

variable {w : Platform} {c : ClientConfig W} {sessions : List Int}

theorem whispers_isSome (h : Usable c) (sessions : List Int) (botIndex : Int) :
    ∃ whisper, whispers c sessions botIndex=some whisper := by
  unfold whispers
  split
  · rw [remainder_of_pos h.whisperInterval]
    exact ⟨_,rfl⟩
  · exact ⟨false,rfl⟩

/-- No iteration divides by zero or reads behind the end. -/
theorem visit_isSome (h : Usable c) (hne : sessions≠[]) (index : Nat) (botIndex : Int) (r : Reading) :
    ∃ sends, visit w c sessions index botIndex r=some sends := by
  have hpos := List.length_pos_iff.mpr hne
  have htarget := List.getElem?_eq_getElem (Nat.mod_lt (w.size (index+1)) hpos)
  obtain ⟨whisper,hwhisper⟩ := whispers_isSome h sessions botIndex
  unfold visit
  rw [remainder_of_pos h.botRoomCount.1,remainder_of_pos h.allChatInterval,hwhisper,htarget]
  simp only [Option.map_some,Option.bind_some]
  repeat' split
  all_goals exact ⟨_,rfl⟩

/-- After `n` iterations thread `i` has met its sessions up to the index, and nothing has gone wrong;
`k` is the number of threads. -/
structure Pass.Inv (k i size n : Nat) (p : Pass) : Prop where
  covers : Covers k i size p.index p.visited
  residue : p.index%k=i
  near : p.index<size+k
  fault : p.fault=false
  count : p.visited.length+p.broken.toNat=n

theorem Pass.inv_start {k i : Nat} (w : Platform) (hi : i<k) (hk : k ≤ 256) (size : Nat) :
    (Pass.start w i).Inv k i size 0 := by
  have hindex : w.size i=i := by
    have hfits := w.size_of_fits (Int.natCast_nonneg i) (by omega)
    exact Int.natCast_inj.mp hfits
  have hstart : Pass.start w i=⟨i,false,false,[],[]⟩ := by rw [Pass.start,hindex]
  rw [hstart]
  exact ⟨Covers.start hi size,Nat.mod_eq_of_lt hi,Nat.lt_of_lt_of_le hi (Nat.le_add_left k size),rfl,
    rfl⟩

/-- What an iteration can do: leave the loop when the flag is down, or visit the session and go on. -/
theorem Pass.step_cases (h : Usable c) {p q : Pass} {r : Reading}
    (hs : p.step w c sessions r=some q) :
    p.broken=false ∧ p.index<sessions.length ∧
    (r.running=false ∧ q={ p with broken := true } ∨
      ∃ sends, q={ p with
        index := w.size (p.index+c.botThreadCount), visited := p.visited++[p.index],
        sent := p.sent++sends }) := by
  unfold Pass.step at hs
  split at hs
  · cases hs
  · rename_i hgo
    split at hs
    · cases hs
    · rename_i botIndex hget
      have hlt := (List.getElem?_eq_some_iff.mp hget).1
      have hne : sessions≠[] := List.length_pos_iff.mp (by omega)
      refine ⟨?_,hlt,?_⟩
      · rw [← Bool.not_eq_true]
        exact fun hbroken => hgo (Or.inl hbroken)
      · split at hs
        · rename_i hrunning
          cases hs
          exact Or.inl ⟨hrunning,rfl⟩
        · obtain ⟨sends,hvisit⟩ := visit_isSome (w:=w) h hne p.index botIndex r
          simp only [hvisit] at hs
          cases hs
          exact Or.inr ⟨sends,rfl⟩

/-- The loop goes on as long as the index is in range. -/
theorem Pass.step_isSome (h : Usable c) {p : Pass} (hbroken : p.broken=false) (hfault : p.fault=false)
    (hlt : p.index<sessions.length) (r : Reading) : ∃ q, p.step w c sessions r=some q := by
  have hne : sessions≠[] := List.length_pos_iff.mp (by omega)
  have hget := List.getElem?_eq_getElem hlt
  unfold Pass.step
  rw [if_neg (by simp [hbroken,hfault]),hget]
  simp only
  split
  · exact ⟨_,rfl⟩
  · obtain ⟨sends,hvisit⟩ := visit_isSome (w:=w) h hne p.index sessions[p.index] r
    rw [hvisit]
    exact ⟨_,rfl⟩

theorem Pass.inv_step (h : Usable c) (hsize : sessions.length ≤ 100000) {i n : Nat} {p q : Pass}
    {r : Reading} (hp : p.Inv c.botThreadCount.toNat i sessions.length n)
    (hs : p.step w c sessions r=some q) : q.Inv c.botThreadCount.toNat i sessions.length (n+1) := by
  obtain ⟨hbroken,hlt,⟨-,rfl⟩|⟨sends,rfl⟩⟩ := Pass.step_cases h hs
  · refine ⟨hp.covers,hp.residue,hp.near,hp.fault,?_⟩
    have hcount := hp.count
    rw [hbroken] at hcount
    simp only [Bool.toNat_false,Bool.toNat_true] at hcount ⊢
    omega
  · have hthreads := h.botThreadCount
    have hindex : w.size (p.index+c.botThreadCount)=p.index+c.botThreadCount.toNat := by
      have hfits := w.size_of_fits (n:=p.index+c.botThreadCount) (by omega) (by omega)
      omega
    refine ⟨?_,?_,?_,hp.fault,?_⟩
    · simp only [hindex]
      exact hp.covers.visit hp.residue hlt (by omega)
    · simp only [hindex]
      rw [Nat.add_mod_right]
      exact hp.residue
    · simp only [hindex]
      omega
    · have hcount := hp.count
      simp only [List.length_append,List.length_singleton]
      omega

/-- Every run of the loop keeps the invariant, and while the flag stays set it is not left early. -/
theorem Pass.run_inv (h : Usable c) (hsize : sessions.length ≤ 100000) {i : Nat}
    (hi : i<c.botThreadCount.toNat) {readings : List Reading} {p : Pass}
    (hrun : runActions (Pass.step w c sessions) (Pass.start w i) readings=some p) :
    p.Inv c.botThreadCount.toNat i sessions.length readings.length ∧
    ((∀ r∈readings, r.running=true) → p.broken=false) := by
  have hthreads := h.botThreadCount
  have hstart := Pass.inv_start w hi (by omega) sessions.length
  constructor
  · have hinv := runActions_invariant (P:=fun n p => p.Inv c.botThreadCount.toNat i sessions.length n)
      (fun n x a y _ hx hs => Pass.inv_step h hsize hx hs) (fun _ _ => trivial) hstart hrun
    rwa [Nat.zero_add] at hinv
  · intro hrunning
    refine runActions_invariant (P:=fun _ p => p.broken=false) (n:=0) (fun n x a y ha hx hs => ?_)
      hrunning rfl hrun
    obtain ⟨hbroken,-,⟨hno,-⟩|⟨sends,rfl⟩⟩ := Pass.step_cases h hs
    · rw [ha] at hno
      cases hno
    · exact hx

/-- Whatever it reads, a pass is over after at most one iteration more than there are sessions. -/
theorem Pass.length_le (h : Usable c) (hsize : sessions.length ≤ 100000) {i : Nat}
    (hi : i<c.botThreadCount.toNat) {readings : List Reading} {p : Pass}
    (hrun : runActions (Pass.step w c sessions) (Pass.start w i) readings=some p) :
    readings.length ≤ sessions.length+1 := by
  have hinv := (Pass.run_inv h hsize hi hrun).1
  have hvisited := hinv.covers.length_le
  have hcount := hinv.count
  have hbroken := Bool.toNat_le p.broken
  omega

theorem passEnds_exists (h : Usable c) (hsize : sessions.length ≤ 100000) {i : Nat}
    (hi : i<c.botThreadCount.toNat) (feed : Nat → Reading) : ∃ p, PassEnds w c sessions i feed p := by
  obtain ⟨n,hn,p,hrun,hstop⟩ := runActions_stops
    (fun readings p hrun => Pass.length_le (w:=w) h hsize hi (p:=p) hrun) feed
  exact ⟨p,n,hn,hrun,hstop,(Pass.run_inv h hsize hi hrun).1.fault⟩

/-- A pass that ends while the flag is set has met all the sessions of its thread. -/
theorem PassEnds.covers (h : Usable c) (hsize : sessions.length ≤ 100000) {i : Nat}
    (hi : i<c.botThreadCount.toNat) {feed : Nat → Reading} {p : Pass}
    (hp : PassEnds w c sessions i feed p) (hrunning : ∀ n, (feed n).running=true) :
    sessions.length ≤ p.index ∧
      Covers c.botThreadCount.toNat i sessions.length p.index p.visited := by
  obtain ⟨n,-,hrun,hstop,hfault⟩ := hp
  obtain ⟨hinv,hbroken⟩ := Pass.run_inv h hsize hi hrun
  refine ⟨?_,hinv.covers⟩
  have hset : p.broken=false := by
    apply hbroken
    intro r hr
    obtain ⟨m,-,rfl⟩ := List.mem_map.mp hr
    exact hrunning m
  by_contra hlt
  obtain ⟨q,hq⟩ := Pass.step_isSome (w:=w) h hset hfault (Nat.not_le.mp hlt) (feed n)
  rw [hq] at hstop
  cases hstop

/-- Settings that `ClientConfig::load` accepts for a load test are integers in their ranges, given by
the file or by default. Whichever bots connect, no bot divides by zero, every room number survives its
conversion, every pass of every thread ends, and while the flag stays set the threads together visit
every session exactly once. -/
theorem load_test_safe_and_fair (w : Platform) {utf8ToWString : Text → List W} {content : Text}
    {c : ClientConfig W} (h : ClientConfig.load utf8ToWString (clientLoad content) true=some c) :
    List.Forall₂ (Accepts (clientLoad content)) numericSettings c.numbers ∧
    c.botRoomCount≠0 ∧ c.allChatInterval≠0 ∧ c.whisperInterval≠0 ∧
    ∀ connects,
      (∀ botIndex∈connectSessions c connects, ∃ room,
        remainder botIndex c.botRoomCount=some room ∧ uint8 room=room) ∧
      (∀ i<c.botThreadCount.toNat, ∀ feed, ∃ p,
        PassEnds w c (connectSessions c connects) i feed p) ∧
      ∀ (feeds : Nat → Nat → Reading) (passes : Nat → Pass),
        (∀ i<c.botThreadCount.toNat,
          PassEnds w c (connectSessions c connects) i (feeds i) (passes i) ∧
            ∀ n, (feeds i n).running=true) →
        ((List.range c.botThreadCount.toNat).flatMap fun i => (passes i).visited).Perm
          (List.range (connectSessions c connects).length) := by
  have haccepted := (ClientConfig.load_iff.mp h).2.2
  have husable := usable_of_accepted haccepted
  have hrooms := husable.botRoomCount
  have hthreads := husable.botThreadCount
  have hall := husable.allChatInterval
  have hwhisper := husable.whisperInterval
  refine ⟨haccepted,by omega,by omega,by omega,?_⟩
  intro connects
  have hsize := length_connectSessions husable connects
  refine ⟨?_,?_,?_⟩
  · intro botIndex hbot
    exact ⟨_,remainder_of_pos hrooms.1,uint8_room (mem_connectSessions hbot) hrooms.1 hrooms.2⟩
  · intro i hi feed
    exact passEnds_exists husable hsize hi feed
  · intro feeds passes hpasses
    apply Stride.perm_range (by omega)
    intro i hi
    obtain ⟨hends,hrunning⟩ := hpasses i hi
    obtain ⟨hindex,hcovers⟩ := hends.covers husable hsize hi hrunning
    exact ⟨_,hindex,hcovers⟩

/-- A file for two threads and five sessions that leaves the last three settings to their defaults. -/
def twoThreads : Text :=
  Config.text ("[server]\nip=::1\nport=7777\n[client]\nsession_count=5\nworker_thread_count=1\n"++
    "bot_thread_count=2\nchat_interval_ms=100\n").toList

def twoThreadsConfig : ClientConfig UInt8 := ⟨Config.text [':',':','1'],7777,5,1,2,100,10,10,15⟩

theorem load_twoThreads : ClientConfig.load id (clientLoad twoThreads) true=some twoThreadsConfig := by
  decide +kernel

theorem load_test_safe_and_fair_twoThreads :
    connectSessions twoThreadsConfig (fun i => i≠3)=[0,1,2,4] ∧
    ∃ passes : Nat → Pass,
      (∀ i<2, PassEnds .x64 twoThreadsConfig [0,1,2,4] i (fun _ => ⟨true,true,-1⟩) (passes i)) ∧
      ((List.range 2).flatMap fun i => (passes i).visited).Perm (List.range 4) := by
  have hbots : connectSessions twoThreadsConfig (fun i => i≠3)=[0,1,2,4] := by decide
  obtain ⟨-,-,-,-,hloop⟩ := load_test_safe_and_fair .x64 load_twoThreads
  obtain ⟨-,hends,hfair⟩ := hloop fun i => i≠3
  rw [hbots] at hends hfair
  obtain ⟨p,hp⟩ := hends 0 (by decide) fun _ => ⟨true,true,-1⟩
  obtain ⟨q,hq⟩ := hends 1 (by decide) fun _ => ⟨true,true,-1⟩
  have hpasses : ∀ i<2, PassEnds .x64 twoThreadsConfig [0,1,2,4] i (fun _ => ⟨true,true,-1⟩)
      (if i=0 then p else q) := by
    intro i hi
    by_cases hzero : i=0
    · rw [hzero]
      exact hp
    · have hone : i=1 := by omega
      rw [hone]
      exact hq
  refine ⟨hbots,fun i => if i=0 then p else q,hpasses,?_⟩
  exact hfair (fun _ _ => ⟨true,true,-1⟩) _ fun i hi => ⟨hpasses i hi,fun _ => rfl⟩

end IocpServer.TestClient.LoadTest
