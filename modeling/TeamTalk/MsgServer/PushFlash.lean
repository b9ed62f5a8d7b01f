import TeamTalk.Base.Jsonxx
import TeamTalk.Lib.Utf8
import TeamTalk.Protocol.BaseDefine

/-!
# What a push says

`build_ios_push_flash`, and the custom data of `_HandleGetDeviceTokenResponse`. The nick name is that of the user whom
`GetImUserById` finds for the sender.
-/

namespace TeamTalk.PushFlash

open Jsonxx

/-- `IOS_PUSH_FLASH_MAX_LENGTH`. -/
abbrev iosPushFlashMaxLength : Nat := 40

/-- `pic_prefix`. -/
def picPrefix : Bytes := chars "&$#@~^@[\x7b:"

/-- `pic_suffix`. -/
def picSuffix : Bytes := chars ":\x7d]&$~@#@"

/-- `comm_flash`. -/
def commFlash : Bytes := Utf8.bytes "您收到了一条消息"

/-- A message with the link of a picture: the prefix is found, and the suffix behind it. -/
def hasPicture (flash : Bytes) : Bool :=
  (stringFind flash picPrefix).any fun posPrefix => (stringFind flash picSuffix).any fun posSuffix => posPrefix < posSuffix

/-- `msg_tmp`: the nick name, and what was sent. -/
def msgTmp (nickName flash : Bytes) (msgType : Nat) : Bytes :=
  if msgType = msgTypeGroupAudio then nickName ++ Utf8.bytes "在群聊中发送了一条语音消息"
  else if msgType = msgTypeSingleAudio then nickName ++ Utf8.bytes "给您发送了一条语音消息"
  else nickName ++ chars ":" ++ flash

/-- `flash_max_length`: room for the dots is left. -/
abbrev flashMaxLength : Nat := iosPushFlashMaxLength - 3

/-- The end of `build_ios_push_flash`: a text that is too long is cut. -/
def cutFlash (flash : Bytes) : Bytes :=
  if flash.length > flashMaxLength then flash.take flashMaxLength ++ chars "..." else flash

/-- `build_ios_push_flash`. -/
def buildIosPushFlash (nickName : Option Bytes) (flash : Bytes) (msgType : Nat) : Bytes :=
  if hasPicture flash then commFlash
  else nickName.elim commFlash fun nickName => cutFlash (msgTmp nickName flash msgType)

/-- `json_obj`. -/
def jsonObj (msgType fromId toId : Nat) : Object :=
  let o := Object.put [] (chars "msg_type") (.number msgType)
  let o := o.put (chars "from_id") (.number fromId)
  if checkMsgTypeGroup msgType then o.put (chars "group_id") (.number toId) else o

end TeamTalk.PushFlash
