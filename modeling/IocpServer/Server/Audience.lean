import Mathlib.Algebra.BigOperators.Fin
import IocpServer.Server.Registration

namespace IocpServer.Server

open NetWork (SessionManager)
open NetWork.Lifecycle
open Game (maxRoomCount Placed)

variable {T S : Type}

def State.isConnected (s : State T S) (x : S) : Bool := (s.cores x).pipe.isConnect

def State.roomId (s : State T S) (x : S) : Int := (s.game.sessions x).enterRoomId

/-- The sessions a chat in this room is sent to. -/
def State.normalChat (s : State T S) (roomId : Int) : List S :=
  s.game.manager.normalChat s.isConnected s.roomId roomId

/-- The sessions a chat to all is sent to if `_sessions` is visited in this order. -/
def State.allChat (s : State T S) (sessions : List S) : List S :=
  SessionManager.allChat s.isConnected s.roomId sessions

/-- The connected sessions stored in the list of a room. -/
def State.audience (s : State T S) (r : Fin maxRoomCount) : List S :=
  (s.game.rooms.roomList r).roomSessionList.values.filter s.isConnected

variable {s : State T S}

theorem mem_normalChat {roomId : Int} {y : S} : y∈s.normalChat roomId ↔
    s.isConnected y ∧ s.roomId y=roomId ∧ ∃ a, s.game.manager.accountSessions.lookup a=some y := by
  rw [State.normalChat,SessionManager.normalChat,List.mem_filter,Map.mem_values,Bool.and_eq_true,
    beq_iff_eq]
  tauto

theorem mem_audience {r : Fin maxRoomCount} {y : S} :
    y∈s.audience r ↔ s.isConnected y ∧ ∃ a, s.game.rooms.Lists r a y := by
  rw [State.audience,List.mem_filter,Map.mem_values,and_comm]
  rfl

theorem mem_allChat {sessions : List S} {y : S} :
    y∈s.allChat sessions ↔ y∈sessions ∧ s.isConnected y ∧ 0 ≤ s.roomId y := by
  simp [State.allChat,SessionManager.allChat]

/-- Every session is between two handlers, and those that the accounts lead to are in the list of
sessions as long as they are connected. -/
structure Settled (s : State T S) : Prop where
  placed : ∀ y, Placed s.game y
  listed : ∀ y a, s.game.manager.accountSessions.lookup a=some y → s.isConnected y →
    y∈s.game.manager.sessions

namespace Settled

theorem nodup_normalChat (h : Settled s) (roomId : Int) : (s.normalChat roomId).Nodup := by
  apply List.Nodup.filter
  apply Map.nodup_values
  intro a a' y ha ha'
  exact (((h.placed y).account a).mp ha).2.trans (((h.placed y).account a').mp ha').2.symm

theorem nodup_audience (h : Settled s) (r : Fin maxRoomCount) : (s.audience r).Nodup := by
  apply List.Nodup.filter
  apply Map.nodup_values
  intro a a' y ha ha'
  exact (((h.placed y).room r a).mp ha).2.2.trans (((h.placed y).room r a').mp ha').2.2.symm

/-- The room ids that the sessions remember and the lists of the rooms lead to the same sessions. -/
theorem normalChat_perm (h : Settled s) (r : Fin maxRoomCount) :
    (s.normalChat r.val).Perm (s.audience r) := by
  apply (List.perm_ext_iff_of_nodup (h.nodup_normalChat r.val) (h.nodup_audience r)).mpr
  intro y
  rw [mem_normalChat,mem_audience]
  apply and_congr_right
  intro _
  constructor
  · rintro ⟨hroom,a,ha⟩
    obtain ⟨hlogin,hidx⟩ := ((h.placed y).account a).mp ha
    exact ⟨a,((h.placed y).room r a).mpr ⟨hroom,hlogin,hidx⟩⟩
  · rintro ⟨a,ha⟩
    obtain ⟨hroom,hlogin,hidx⟩ := ((h.placed y).room r a).mp ha
    exact ⟨hroom,a,((h.placed y).account a).mpr ⟨hlogin,hidx⟩⟩

/-- A session is in the audience of at most one room. -/
theorem disjoint (s : State T S) {r q : Fin maxRoomCount} (hne : r≠q) :
    List.Disjoint (s.normalChat r.val) (s.normalChat q.val) := by
  intro y hr hq
  have hroom := (mem_normalChat.mp hr).2.1.symm.trans (mem_normalChat.mp hq).2.1
  exact hne (Fin.ext (Int.natCast_inj.mp hroom))

theorem mem_allChat_iff (h : Settled s) {sessions : List S}
    (hmem : ∀ y, y∈sessions ↔ y∈s.game.manager.sessions) (y : S) :
    y∈s.allChat sessions ↔ ∃ r : Fin maxRoomCount, y∈s.normalChat r.val := by
  simp only [mem_allChat,mem_normalChat,hmem]
  constructor
  · rintro ⟨-,hcon,hroom⟩
    rcases (h.placed y).inside with hout|⟨r,hr,hlogin⟩
    · simp only [State.roomId] at hroom
      omega
    · exact ⟨r,hcon,hr,_,((h.placed y).account _).mpr ⟨hlogin,rfl⟩⟩
  · rintro ⟨r,hcon,hroom,a,ha⟩
    refine ⟨h.listed y a ha hcon,hcon,?_⟩
    omega

theorem allChat_perm (h : Settled s) {sessions : List S} (hnodup : sessions.Nodup)
    (hmem : ∀ y, y∈sessions ↔ y∈s.game.manager.sessions) :
    (s.allChat sessions).Perm
      ((List.finRange maxRoomCount).flatMap fun r => s.normalChat r.val) := by
  have hall : (s.allChat sessions).Nodup := hnodup.filter _
  apply (List.perm_ext_iff_of_nodup hall _).mpr
  · intro y
    rw [h.mem_allChat_iff hmem,List.mem_flatMap]
    simp
  · rw [List.nodup_flatMap]
    refine ⟨fun r _ => h.nodup_normalChat r.val,?_⟩
    exact (List.nodup_finRange maxRoomCount).imp fun hne => disjoint s hne

end Settled

variable [DecidableEq S] [DecidableEq T] [Fintype T]

/-- No session but `x` is inside a handler or its cleanup, and the handler of `x` has nothing left to
do to the game, as that of a chat. -/
def OnlyChat (s : State T S) (x : S) : Prop :=
  (∀ y, y≠x → ∀ t cleanup, (y,.body cleanup)∉s.calls t) ∧ (s.game.sessions x).todo=[]

theorem OnlyChat.settled {e : Env} (hc : ∀ str, str≠[] → e.codec.multiByteToWideChar str≠[])
    {maxSessionCount : Int} (h : Reaches (step e) Admission (State.init maxSessionCount) s) {x : S}
    (hx : OnlyChat s x) : Settled s := by
  have hinv := reaches_inv hc h
  refine ⟨fun y => hinv.game.placed ?_,fun y a ha hcon => ?_⟩
  · by_cases hy : y=x
    · rw [hy]
      exact hx.2
    · apply (hinv.linked y).idle
      apply tok_eq_zero
      intro f hf
      obtain ⟨t,ht⟩ := Stacks.mem_pending.mp hf
      cases f with
      | body cleanup => exact absurd ht (hx.1 y hy t cleanup)
      | _ => rfl
  · exact (reaches_known h y).mem_sessions (Or.inl ⟨a,ha⟩) hcon

/-- Room chat reaches the connected sessions in the list of its room, each once, and a chat to all
reaches the audiences of the rooms, which are disjoint. -/
theorem chat_audiences_agree {e : Env} (hc : ∀ str, str≠[] → e.codec.multiByteToWideChar str≠[])
    (maxSessionCount : Int) (h : Reaches (step e) Admission (State.init maxSessionCount) s) (x : S)
    (hx : OnlyChat s x) :
    (∀ r : Fin maxRoomCount,
      (s.normalChat r.val).Perm (s.audience r) ∧ (s.normalChat r.val).Nodup) ∧
    (∀ r q : Fin maxRoomCount, r≠q → List.Disjoint (s.normalChat r.val) (s.normalChat q.val)) ∧
    ∀ sessions : List S, sessions.Nodup → (∀ y, y∈sessions ↔ y∈s.game.manager.sessions) →
      (s.allChat sessions).Perm
        ((List.finRange maxRoomCount).flatMap fun r => s.normalChat r.val) ∧
      (s.allChat sessions).length=∑ r : Fin maxRoomCount, (s.normalChat r.val).length := by
  have hs := hx.settled hc h
  refine ⟨fun r => ⟨hs.normalChat_perm r,hs.nodup_normalChat r.val⟩,
    fun r q hne => Settled.disjoint s hne,fun sessions hnodup hmem => ?_⟩
  have hperm := hs.allChat_perm hnodup hmem
  refine ⟨hperm,?_⟩
  rw [hperm.length_eq,List.length_flatMap,Fin.sum_univ_def]

/-- The frame is a handler of session `x`. -/
def handling (x : Bool) : Bool×Frame Packet → Bool
  | (y,.body false) => y=x
  | _ => false

theorem calls_of_handling {x : Bool} {calls : List (Bool×Frame Packet)}
    (h : calls.map (handling x)=[true]) : calls=[(x,.body false)] := by
  obtain ⟨⟨y,f⟩,rfl,hf⟩ := List.map_eq_singleton_iff.mp h
  unfold handling at hf
  split at hf
  · rename_i heq
    cases heq
    rw [of_decide_eq_true hf]
  · cases hf

/-- Sessions `false` and `true` are connected, `false` has logged in and entered room 3, and its chat
handler is running. -/
theorem chat_audiences_agree_roomThree :
    ∃ s : State Unit Bool, Reaches (step asciiEnv) Admission (State.init 10) s ∧ OnlyChat s false ∧
      s.calls ()=[(false,.body false)] ∧ s.game.manager.sessions={false,true} ∧
      s.normalChat 3=[false] ∧ s.audience ⟨3,by decide⟩=[false] ∧
      ∑ r : Fin maxRoomCount, (s.normalChat r.val).length=1 := by
  let run (n : Nat) : List (Action Unit Bool) := List.replicate n (.run () true .wait)
  let enter (x : Bool) (entry : Entry) : Action Unit Bool := .enter () x entry
  let receive (pkt : Packet) : List (Action Unit Bool) :=
    [enter false (.recvCompleted 8),.run () true .wait,.run () true (.packet pkt)]++run 5
  have hrun : (runActions (fun (s : State Unit Bool) a =>
        if admissible s a then step asciiEnv s a else none) (State.init 10)
      ([enter false .offer]++run 5++[enter true .offer]++run 5++
        receive (.request (Game.request true))++[enter false .startJob]++run 16++
        receive (.request (.enterRoom 3))++[enter false .startJob]++run 8++receive .other++
        [enter false .startJob]++run 1)).map
      (fun s => (s.game.manager.sessions,[s.normalChat 3,s.allChat [false,true]],
        (s.calls ()).map (handling false),(s.game.sessions false).todo.isEmpty))=
      some ({false,true},[[false],[false]],[true],true) := by
    decide +kernel
  obtain ⟨s,hs,hfields⟩ := Option.map_eq_some_iff.mp hrun
  simp only [Prod.mk.injEq,List.cons.injEq,and_true,List.isEmpty_iff] at hfields
  obtain ⟨hsessions,⟨hnormal,hboth⟩,hcalls,htodo⟩ := hfields
  have hreach := Reaches.of_guarded admission_of_admissible _ hs
  have hcall : s.calls ()=[(false,.body false)] := calls_of_handling hcalls
  have honly : OnlyChat s false := by
    refine ⟨fun y hy t cleanup hmem => ?_,htodo⟩
    rw [hcall,List.mem_singleton] at hmem
    cases hmem
    exact hy rfl
  obtain ⟨hroom,-,hall⟩ := chat_audiences_agree Game.ascii_nonempty 10 hreach false honly
  have hperm : (s.normalChat 3).Perm _ := (hroom ⟨3,by decide⟩).1
  have hsum := (hall [false,true] (by decide) (by rw [hsessions]; decide)).2
  rw [hnormal] at hperm
  rw [hboth] at hsum
  exact ⟨s,hreach,honly,hcall,hsessions,hnormal,List.perm_singleton.mp hperm.symm,hsum.symm⟩

end IocpServer.Server
