import IocpServer.Config.ConfigReader
import IocpServer.Framework.Word

namespace IocpServer.Config

open Word

/-- The section of the address, in both configuration files. -/
def server : Text := text ['s','e','r','v','e','r']

def client : Text := text ['c','l','i','e','n','t']

def ipKey : Text := text ['i','p']

def portKey : Text := text ['p','o','r','t']

/-- `ConfigReader::get_wstring`; `utf8ToWString` is the conversion of the Windows API. -/
def getWstring {W : Type} (utf8ToWString : Text → List W) (sections : Sections) (sec key : Text) :
    List W :=
  let value := getString sections sec key []
  if value.isEmpty then [] else utf8ToWString value

/-- `ClientConfig::read_range`; `none` is the result `false`. -/
def readRange (sections : Sections) (sec key : Text) (minimum maximum defaultValue : Int) :
    Option Int :=
  match getIntChecked sections sec key defaultValue with
  | none => none
  | some value => if value < minimum ∨ maximum<value then none else some value

structure ClientConfig (W : Type) where
  serverIp : List W
  port : Int
  sessionCount : Int
  workerThreadCount : Int
  botThreadCount : Int
  chatIntervalMs : Int
  botRoomCount : Int
  allChatInterval : Int
  whisperInterval : Int
deriving DecidableEq

/-- `ClientConfig::load`; `none` is the result `false`. The port is converted after it was checked. -/
def ClientConfig.load {W : Type} (utf8ToWString : Text → List W) (sections : Sections)
    (loadTest : Bool) : Option (ClientConfig W) :=
  let serverIp := getWstring utf8ToWString sections server ipKey
  if serverIp.isEmpty then none
  else match readRange sections server portKey 1 65535 0 with
    | none => none
    | some portValue =>
      let port := uint16 portValue
      if loadTest=false then some ⟨serverIp,port,0,0,0,0,0,0,0⟩
      else do
        let sessionCount ← readRange sections client
          (text ['s','e','s','s','i','o','n','_','c','o','u','n','t']) 1 100000 0
        let workerThreadCount ← readRange sections client
          (text ['w','o','r','k','e','r','_','t','h','r','e','a','d','_','c','o','u','n','t'])
          1 256 0
        let botThreadCount ← readRange sections client
          (text ['b','o','t','_','t','h','r','e','a','d','_','c','o','u','n','t']) 1 256 0
        let chatIntervalMs ← readRange sections client
          (text ['c','h','a','t','_','i','n','t','e','r','v','a','l','_','m','s']) 1 60000 0
        let botRoomCount ← readRange sections client
          (text ['b','o','t','_','r','o','o','m','_','c','o','u','n','t']) 1 256 10
        let allChatInterval ← readRange sections client
          (text ['a','l','l','_','c','h','a','t','_','i','n','t','e','r','v','a','l'])
          1 (2^31-1) 10
        let whisperInterval ← readRange sections client
          (text ['w','h','i','s','p','e','r','_','i','n','t','e','r','v','a','l']) 1 (2^31-1) 15
        return ⟨serverIp,port,sessionCount,workerThreadCount,botThreadCount,chatIntervalMs,
          botRoomCount,allChatInterval,whisperInterval⟩

/-- What is read has passed the checked read and lies in the range. -/
theorem readRange_some {sections : Sections} {sec key : Text} {lo hi d n : Int}
    (h : readRange sections sec key lo hi d=some n) :
    getIntChecked sections sec key d=some n ∧ lo ≤ n ∧ n ≤ hi := by
  unfold readRange at h
  split at h
  · cases h
  · rename_i value hvalue
    split at h
    · cases h
    · cases h
      exact ⟨hvalue,by omega,by omega⟩

/-- Without a valid port nothing is loaded. -/
theorem ClientConfig.load_none {W : Type} {utf8ToWString : Text → List W} {sections : Sections}
    (h : readRange sections server portKey 1 65535 0=none) (loadTest : Bool) :
    ClientConfig.load utf8ToWString sections loadTest=none := by
  simp only [ClientConfig.load,h]
  split <;> rfl

end IocpServer.Config
