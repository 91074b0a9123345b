namespace IocpServer.Game

/-- A `std::string` that holds UTF-8 text. -/
abbrev Utf8 := List UInt8

/-- A `std::wstring`. -/
abbrev WString := List UInt16

/-- The two conversions of the operating system that `StringUtil` calls. -/
structure Codec where
  multiByteToWideChar : Utf8 → WString
  wideCharToMultiByte : WString → Utf8

namespace Codec

def utf8ToWString (c : Codec) (str : Utf8) : WString := if str=[] then [] else c.multiByteToWideChar str

def wStringToUtf8 (c : Codec) (wstr : WString) : Utf8 := if wstr=[] then [] else c.wideCharToMultiByte wstr

end Codec

inductive LoginError where
  | none
  | faile
  | idNone
  | pwNone
  | createFaile
  | createHasAccount
  | alreadyLogin
  | userDuplication
  | success
deriving DecidableEq

inductive LogoutError where
  | none
  | faile
  | success
deriving DecidableEq

/-- `ENTER_ROOM_ERROR` and `EXIT_ROOM_ERROR`, which have the same values. -/
inductive RoomError where
  | none
  | fail
  | success
deriving DecidableEq

/-- `REQ_LOGIN` and `REQ_BOT_LOGIN`, which have the same fields. -/
structure LoginRequest where
  isCreate : Bool
  id : Utf8
  pw : Utf8
  name : Utf8

/-- The requests that change the login or room state of a session. -/
inductive Request where
  | login (bot : Bool) (pkt : LoginRequest)
  | logout (idx : Nat)
  | enterRoom (roomId : Int)
  | exitRoom

inductive Ack where
  | login (bot : Bool) (idx : Nat) (userName : Utf8) (result : LoginError)
  | logout (result : LogoutError)
  | enterRoom (roomId : Int) (result : RoomError)
  | exitRoom (result : RoomError)

end IocpServer.Game
