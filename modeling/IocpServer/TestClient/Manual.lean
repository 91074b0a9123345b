import IocpServer.Server.Chat

namespace IocpServer.TestClient.Manual

open Game (WString Codec)
open NetWork (SendBuffer)
open Server.Chat (ReqChat ChatState At fail handleReqChat)

def wide (cs : List Char) : WString := cs.map fun c => UInt16.ofNat c.toNat

def space : UInt16 := 32

def quitText : WString := wide ['/','q']

def roomsText : WString := wide ['/','r','o','o','m','s']

def enterText : WString := wide ['/','e','n','t','e','r',' ']

def exitText : WString := wide ['/','e','x','i','t']

def allText : WString := wide ['/','a','l','l',' ']

def chatText : WString := wide ['/','c','h','a','t',' ']

def whisperText : WString := wide ['/','w','h','i','s','p','e','r',' ']

/-- What the user asks for. -/
inductive Command where
  | quit
  | rooms
  | enter (roomId : UInt8)
  | exit
  | all (message : WString)
  | chat (message : WString)
  | whisper (targetName message : WString)

/-- What a line is: a command, a room that is no number from 0 to 255, a whisper without a message,
or something that is ignored. -/
inductive Line where
  | command (c : Command)
  | invalidRoom
  | usage
  | ignored

/-- `line.rfind(text, 0) == 0`. -/
def startsWith (line text : WString) : Bool := text.isPrefixOf line

/-- The loop of `run_manual_test` over one line. `stoi` is that of the library: the number and the
length of its text, or an exception. -/
def parse (stoi : WString → Option (Int×Nat)) (line : WString) : Line :=
  if line=quitText then .command .quit
  else if line=roomsText then .command .rooms
  else if startsWith line enterText then
    let value := line.drop 7
    match stoi value with
    | none => .invalidRoom
    | some (roomId,last) =>
      if last≠value.length ∨ roomId<0 ∨ 255<roomId then .invalidRoom
      else .command (.enter (UInt8.ofNat roomId.toNat))
  else if line=exitText then .command .exit
  else if startsWith line allText then .command (.all (line.drop 5))
  else if startsWith line chatText then .command (.chat (line.drop 6))
  else if startsWith line whisperText then
    let body := line.drop 9
    if space∈body then
      let split := body.idxOf space
      .command (.whisper (body.take split) (body.drop (split+1)))
    else .usage
  else .ignored

/-- `send_chat` up to the call of `send`. -/
def sendChat (codec : Codec) (message : WString) (chatState : ChatState) (roomId : Int) :
    Option ReqChat :=
  let text := codec.wStringToUtf8 message
  if text=[] ∨ 256<text.length then none else some ⟨text,chatState,roomId,[]⟩

/-- `send_whisper_chat` up to the call of `send`; the room stays at its default. -/
def sendWhisperChat (codec : Codec) (targetName message : WString) (chatState : ChatState)
    (_roomId : Int) : Option ReqChat :=
  let target := codec.wStringToUtf8 targetName
  let text := codec.wStringToUtf8 message
  if target=[] ∨ 32<target.length ∨ text=[] ∨ 256<text.length then none
  else some ⟨text,chatState,0,target⟩

/-- The chat packet of a command, with the room the session believes it is in. -/
def request (codec : Codec) (roomId : Int) : Command → Option ReqChat
  | .all message => sendChat codec message .all roomId
  | .chat message => sendChat codec message .normal roomId
  | .whisper targetName message => sendWhisperChat codec targetName message .whisper roomId
  | _ => none

/-- The packet of a chat command before its lengths are checked. -/
def Command.packet (codec : Codec) (roomId : Int) : Command → Option ReqChat
  | .all message => some ⟨codec.wStringToUtf8 message,.all,roomId,[]⟩
  | .chat message => some ⟨codec.wStringToUtf8 message,.normal,roomId,[]⟩
  | .whisper targetName message =>
    some ⟨codec.wStringToUtf8 message,.whisper,0,codec.wStringToUtf8 targetName⟩
  | _ => none

/-- Where the server goes on with the message of a command. -/
def Command.served {S : Type} (sendBuffer : SendBuffer) : Command → At S
  | .all _ => .allChat sendBuffer
  | .chat _ => .normalChat sendBuffer
  | .whisper _ _ => .findTarget sendBuffer
  | _ => fail

/-- How a command is written. -/
def Spells (stoi : WString → Option (Int×Nat)) (line : WString) : Command → Prop
  | .quit => line=quitText
  | .rooms => line=roomsText
  | .enter roomId =>
    ∃ value, line=enterText++value ∧ stoi value=some ((roomId.toNat : Int),value.length)
  | .exit => line=exitText
  | .all message => line=allText++message
  | .chat message => line=chatText++message
  | .whisper targetName message => line=whisperText++(targetName++space::message) ∧ space∉targetName

variable {stoi : WString → Option (Int×Nat)} {line : WString} {c : Command}

theorem exists_of_startsWith {text : WString} (h : startsWith line text) :
    ∃ rest, line=text++rest := by
  obtain ⟨rest,hrest⟩ := List.isPrefixOf_iff_prefix.mp h
  exact ⟨rest,hrest.symm⟩

theorem startsWith_append (text rest : WString) : startsWith (text++rest) text :=
  List.isPrefixOf_iff_prefix.mpr (List.prefix_append text rest)

/-- The name ends at the first blank. -/
theorem split_whisper {targetName m : WString} (h : space∉targetName) :
    (targetName++space::m).take ((targetName++space::m).idxOf space)=targetName ∧
      (targetName++space::m).drop ((targetName++space::m).idxOf space+1)=m := by
  have hsplit : (targetName++space::m).idxOf space=targetName.length := by
    rw [List.idxOf_append_of_notMem h,List.idxOf_cons_self,Nat.add_zero]
  rw [hsplit]
  constructor
  · simp
  · simp

/-- What is accepted is written as the command. -/
theorem spells_of_parse (h : parse stoi line=.command c) : Spells stoi line c := by
  unfold parse at h
  split at h
  · cases h
    assumption
  split at h
  · cases h
    assumption
  split at h
  · rename_i henter
    obtain ⟨value,rfl⟩ := exists_of_startsWith henter
    rw [show (enterText++value).drop 7=value from rfl] at h
    dsimp only at h
    split at h
    · cases h
    rename_i roomId last hvalue
    split at h
    · cases h
    rename_i hrange
    cases h
    refine ⟨value,rfl,?_⟩
    have hroom : ((UInt8.ofNat roomId.toNat).toNat : Int)=roomId := by
      have hlt : roomId.toNat<256 := by omega
      rw [UInt8.toNat_ofNat_of_lt' hlt]
      omega
    rw [hvalue,hroom]
    congr 2
    omega
  split at h
  · cases h
    assumption
  split at h
  · rename_i hall
    obtain ⟨message,rfl⟩ := exists_of_startsWith hall
    cases h
    rfl
  split at h
  · rename_i hchat
    obtain ⟨message,rfl⟩ := exists_of_startsWith hchat
    cases h
    rfl
  split at h
  · rename_i hwhisper
    obtain ⟨body,rfl⟩ := exists_of_startsWith hwhisper
    rw [show (whisperText++body).drop 9=body from rfl] at h
    dsimp only at h
    split at h
    · rename_i hspace
      obtain ⟨targetName,message,rfl,hno⟩ := List.eq_append_cons_of_mem hspace
      obtain ⟨htake,hdrop⟩ := split_whisper (m:=message) hno
      rw [htake,hdrop] at h
      cases h
      exact ⟨rfl,hno⟩
    · cases h
  · cases h

/-- What is written as a command is accepted as it, so that no line is two commands. -/
theorem parse_of_spells (h : Spells stoi line c) : parse stoi line=.command c := by
  cases c with
  | quit =>
    cases h
    rfl
  | rooms =>
    cases h
    rfl
  | enter roomId =>
    obtain ⟨value,rfl,hvalue⟩ := h
    have hlt := UInt8.toNat_lt roomId
    have hin : ¬(value.length≠value.length ∨ (roomId.toNat : Int)<0 ∨
        255<(roomId.toNat : Int)) := by omega
    simp only [parse,show (enterText++value).drop 7=value from rfl,hvalue,startsWith_append,if_true]
    rw [if_neg hin]
    simp [enterText,quitText,roomsText,wide]
  | exit =>
    cases h
    rfl
  | all message =>
    cases h
    simp only [parse,startsWith_append,if_true]
    simp [startsWith,quitText,roomsText,enterText,exitText,allText,wide]
  | chat message =>
    cases h
    simp only [parse,startsWith_append,if_true]
    simp [startsWith,quitText,roomsText,enterText,exitText,allText,chatText,wide]
  | whisper targetName message =>
    obtain ⟨rfl,hno⟩ := h
    obtain ⟨htake,hdrop⟩ := split_whisper (m:=message) hno
    simp only [parse,startsWith_append,if_true,
      show ∀ body, (whisperText++body).drop 9=body from fun _ => rfl,htake,hdrop]
    simp [startsWith,quitText,roomsText,enterText,exitText,allText,chatText,whisperText,wide]

/-- The checks do not change the packet. -/
theorem request_eq {codec : Codec} {roomId : Int} {pkt sent : ReqChat}
    (hpacket : c.packet codec roomId=some pkt) (hsent : request codec roomId c=some sent) :
    sent=pkt := by
  cases c with
  | all message | chat message =>
    cases hpacket
    simp only [request,sendChat] at hsent
    split at hsent
    · cases hsent
    · cases hsent
      rfl
  | whisper targetName message =>
    cases hpacket
    simp only [request,sendWhisperChat] at hsent
    split at hsent
    · cases hsent
    · cases hsent
      rfl
  | _ => cases hpacket

section

variable {T S : Type} {e : Server.Chat.Env} {s : Server.State T S} {x : S}

/-- The client sends a message exactly if the server does not refuse it for its length. -/
theorem handleReqChat_packet (hlogin : (s.game.sessions x).isLogin=true) {pkt : ReqChat}
    (hpacket : c.packet e.codec (s.roomId x)=some pkt)
    (hroom : ∀ message, c=.chat message → 0 ≤ s.roomId x) :
    handleReqChat e s true x pkt=
      (if (request e.codec (s.roomId x) c).isSome then
        c.served (e.makeSendChat (e.codec.wStringToUtf8 (s.game.sessions x).userName) pkt.message)
      else fail,none) := by
  cases c with
  | all message =>
    cases hpacket
    simp only [handleReqChat,request,sendChat,hlogin]
    by_cases hlen : e.codec.wStringToUtf8 message=[] ∨ 256<(e.codec.wStringToUtf8 message).length
    · simp [hlen]
    · simp [hlen,Command.served]
  | chat message =>
    cases hpacket
    have hin : ¬s.roomId x<0 := Int.not_lt.mpr (hroom message rfl)
    simp only [handleReqChat,request,sendChat,hlogin]
    by_cases hlen : e.codec.wStringToUtf8 message=[] ∨ 256<(e.codec.wStringToUtf8 message).length
    · simp [hlen]
    · simp [hlen,hin,Command.served]
  | whisper targetName message =>
    cases hpacket
    simp only [handleReqChat,request,sendWhisperChat,hlogin]
    by_cases hlen : e.codec.wStringToUtf8 message=[] ∨ 256<(e.codec.wStringToUtf8 message).length
    · simp [hlen]
    · by_cases hname : e.codec.wStringToUtf8 targetName=[] ∨
        32<(e.codec.wStringToUtf8 targetName).length
      · simp [hlen,hname]
      · simp [hlen,hname,Command.served]
  | _ => cases hpacket

/-- A line is accepted as one command exactly if it is written as it. A chat that it asks for is
sent exactly if the server, which has the session logged in and in the room that the client
believes it is in, does not refuse it, and the server then goes on with the typed text. -/
theorem manual_line_served (stoi : WString → Option (Int×Nat))
    (hlogin : (s.game.sessions x).isLogin=true) (line : WString) (c : Command) :
    (parse stoi line=.command c ↔ Spells stoi line c) ∧
      ∀ pkt, c.packet e.codec (s.roomId x)=some pkt →
        (∀ message, c=.chat message → 0 ≤ s.roomId x) →
        (∀ sent, request e.codec (s.roomId x) c=some sent → sent=pkt) ∧
        handleReqChat e s true x pkt=
          (if (request e.codec (s.roomId x) c).isSome then
            c.served (e.makeSendChat (e.codec.wStringToUtf8 (s.game.sessions x).userName)
              pkt.message)
          else fail,none) := by
  refine ⟨⟨spells_of_parse,parse_of_spells⟩,?_⟩
  intro pkt hpacket hroom
  refine ⟨?_,handleReqChat_packet hlogin hpacket hroom⟩
  intro sent hsent
  exact request_eq hpacket hsent

end

/-- A session that is logged in and in room 3. -/
def inRoomThree : Server.State Unit Unit :=
  { Server.State.init 10 with
    game := (Game.State.init 10).setSession () { Game.Session.init with
      isLogin := true, enterRoomId := 3 } }

theorem manual_line_served_inRoomThree :
    parse (fun _ => none) (chatText++[104])=.command (.chat [104]) ∧
      (request Server.Chat.plainChat.codec 3 (.chat [104])).isSome ∧
      handleReqChat Server.Chat.plainChat inRoomThree true () ⟨[104],.normal,3,[]⟩=
        (Command.served (Server.Chat.plainChat.makeSendChat [] [104]) (.chat [104]),none) := by
  have hserved := manual_line_served (e:=Server.Chat.plainChat) (s:=inRoomThree) (x:=())
    (fun _ => none) rfl (chatText++[104]) (.chat [104])
  refine ⟨hserved.1.mpr rfl,rfl,?_⟩
  exact (hserved.2 _ rfl fun _ _ => by decide).2

end IocpServer.TestClient.Manual
