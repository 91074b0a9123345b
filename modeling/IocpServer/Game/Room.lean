import IocpServer.Framework.Map

namespace IocpServer.Game

/-- A room: its bound, its counter and the sessions in it by account id. The counter is the number
of entries and stays within the bound. -/
structure Room (S : Type) where
  roomMaxCount : Nat
  roomCurCount : Nat
  roomSessionList : Map Nat S
  count : roomCurCount=roomSessionList.size
  le_max : roomCurCount ≤ roomMaxCount

namespace Room

variable {S : Type}

def new (roomMaxCount : Nat) : Room S := ⟨roomMaxCount,0,∅,rfl,Nat.zero_le _⟩

/-- `Room::enter_user`; the result `false` leaves the room as it is. -/
def enterUser (r : Room S) (accountId : Nat) (session : S) : Option (Room S) :=
  if hm : r.roomMaxCount ≤ r.roomCurCount then none
  else if ha : accountId∈r.roomSessionList then none
  else
    some ⟨r.roomMaxCount,r.roomCurCount+1,r.roomSessionList.insert accountId session,
      by rw [Map.size_insert ha,r.count],by omega⟩

def exitUser (r : Room S) (accountId : Nat) : Option (Room S) :=
  if ha : accountId∈r.roomSessionList then
    some ⟨r.roomMaxCount,r.roomCurCount-1,r.roomSessionList.erase accountId,
      by
        have := Map.size_erase ha
        have := r.count
        omega,
      by
        have := r.le_max
        omega⟩
  else none

theorem enterUser_some {r r' : Room S} {a : Nat} {x : S} (h : r.enterUser a x=some r') :
    a∉r.roomSessionList ∧ r'.roomSessionList=r.roomSessionList.insert a x := by
  unfold enterUser at h
  split at h
  · cases h
  · split at h
    · cases h
    · rename_i ha
      cases h
      exact ⟨ha,rfl⟩

theorem exitUser_of_mem {r : Room S} {a : Nat} (h : a∈r.roomSessionList) :
    ∃ r', r.exitUser a=some r' ∧ r'.roomSessionList=r.roomSessionList.erase a := by
  unfold exitUser
  rw [dif_pos h]
  exact ⟨_,rfl,rfl⟩

end Room

def maxRoomCount : Nat := 10

def roomSize : Nat := 100

/-- The rooms `create_room` makes: one for each id from 0 up to `maxRoomCount`. -/
structure RoomManager (S : Type) where
  roomList : Fin maxRoomCount → Room S

namespace RoomManager

variable {S : Type}

def createRoom : RoomManager S := ⟨fun _ => Room.new roomSize⟩

def setRoom (m : RoomManager S) (r : Fin maxRoomCount) (room : Room S) : RoomManager S :=
  ⟨Function.update m.roomList r room⟩

theorem setRoom_self (m : RoomManager S) (r : Fin maxRoomCount) (room : Room S) :
    (m.setRoom r room).roomList r=room := by
  simp [setRoom]

theorem setRoom_of_ne (m : RoomManager S) {q r : Fin maxRoomCount} (h : q≠r) (room : Room S) :
    (m.setRoom r room).roomList q=m.roomList q := by
  simp [setRoom,h]

def find (roomId : Int) : Option (Fin maxRoomCount) :=
  if h : 0 ≤ roomId ∧ roomId.toNat < maxRoomCount then some ⟨roomId.toNat,h.2⟩ else none

def enterRoom (m : RoomManager S) (enterRoomId : Int) (accountIdx : Nat) (session : S) :
    Option (RoomManager S) :=
  (find enterRoomId).bind fun r =>
    ((m.roomList r).enterUser accountIdx session).map (m.setRoom r)

def exitRoom (m : RoomManager S) (exitRoomId : Int) (accountId : Nat) : Option (RoomManager S) :=
  (find exitRoomId).bind fun r =>
    ((m.roomList r).exitUser accountId).map (m.setRoom r)

theorem find_eq_some {roomId : Int} {r : Fin maxRoomCount} : find roomId=some r ↔ roomId=r.val := by
  unfold find
  constructor
  · intro h
    split at h
    · cases h
      simp only
      omega
    · cases h
  · rintro rfl
    simp [r.isLt]

/-- An entry of some room: this account is listed there with this session. -/
def Lists (m : RoomManager S) (r : Fin maxRoomCount) (a : Nat) (x : S) : Prop :=
  (m.roomList r).roomSessionList.lookup a=some x

theorem enterRoom_some {m m' : RoomManager S} {roomId : Int} {a : Nat} {x : S}
    (h : m.enterRoom roomId a x=some m') :
    ∃ r : Fin maxRoomCount, roomId=r.val ∧
      ∀ q b y, m'.Lists q b y ↔ (q=r ∧ b=a ∧ y=x) ∨ m.Lists q b y := by
  simp only [enterRoom,Option.bind_eq_some_iff,Option.map_eq_some_iff] at h
  obtain ⟨r,hr,room,hroom,rfl⟩ := h
  obtain ⟨hnew,hlist⟩ := Room.enterUser_some hroom
  refine ⟨r,find_eq_some.mp hr,?_⟩
  intro q b y
  unfold Lists
  by_cases hq : q=r
  · subst hq
    rw [setRoom_self,hlist,Map.lookup_insert_iff]
    constructor
    · rintro (⟨rfl,rfl⟩|⟨-,hl⟩)
      · exact Or.inl ⟨rfl,rfl,rfl⟩
      · exact Or.inr hl
    · rintro (⟨-,rfl,rfl⟩|hl)
      · exact Or.inl ⟨rfl,rfl⟩
      · refine Or.inr ⟨?_,hl⟩
        rintro rfl
        exact hnew (AList.lookup_isSome.mp (by rw [hl]; rfl))
  · rw [setRoom_of_ne m hq]
    simp [hq]

/-- Leaving a room succeeds for every listed account and removes exactly that entry. -/
theorem exitRoom_of_lists {m : RoomManager S} {r : Fin maxRoomCount} {a : Nat} {x : S}
    (h : m.Lists r a x) :
    ∃ m', m.exitRoom r.val a=some m' ∧
      ∀ q b y, m'.Lists q b y ↔ m.Lists q b y ∧ ¬(q=r ∧ b=a) := by
  obtain ⟨room,hroom,hlist⟩ := Room.exitUser_of_mem (AList.lookup_isSome.mp (by rw [h]; rfl))
  refine ⟨m.setRoom r room,?_,?_⟩
  · simp [exitRoom,find_eq_some.mpr rfl,hroom]
  · intro q b y
    unfold Lists
    by_cases hq : q=r
    · subst hq
      rw [setRoom_self,hlist,Map.lookup_erase_iff]
      tauto
    · rw [setRoom_of_ne m hq]
      simp [hq]

end RoomManager

end IocpServer.Game
