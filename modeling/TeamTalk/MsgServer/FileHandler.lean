import TeamTalk.MsgServer.Requests

/-!
# File transfers

The requests of a client that `CFileHandler` handles.
-/

namespace TeamTalk

open Action

/-- `CFileHandler::HandleClientFileRequest`. An online transfer goes to the file server when the receiver has a PC login
status other than zero; otherwise the route server is asked, with the request attached. -/
def handleClientFileRequest (env : Env) (c : ConnId) (pdu : Pdu) : Do Unit := do
  match pdu.body with
  | .imFileReq msg =>
    let conn ← getConn c
    let s ← read
    match s.getRandomFileServConn env.random with
    | some (i, _) =>
      let transfer := mkPdu sidOther .otherFileTransferReq pdu.seqNum (.imFileTransferReq
        { fromUserId := conn.userId, toUserId := msg.toUserId, fileName := msg.fileName, fileSize := msg.fileSize,
          transMode := msg.transMode, fileMd5 := msg.fileMd5, attachData := conn.attach })
      if msg.transMode = fileTypeOffline then emit (.send c (.file i) transfer)
      else
        let pcLoginStatus ← match s.getImUserById msg.toUserId with
          | some r => do pure (← getUser r).pcLoginStatus
          | none => pure 0
        if pcLoginStatus ≠ 0 then emit (.send c (.file i) transfer)
        else
          sendRoute c (mkPdu sidBuddyList .buddyListUsersStatusRequest pdu.seqNum (.imUsersStatReq
            { userId := conn.userId, userIdList := [msg.toUserId],
              attachData := some (pduAttachData attachTypeHandleAndPduForFile conn.handle
                (env.serialize transfer.body)) }))
    | none =>
      sendClient c c (mkPdu sidFile .fileResponse pdu.seqNum (.imFileRsp
        { resultCode := 1, fromUserId := conn.userId, toUserId := msg.toUserId, fileName := msg.fileName, taskId := "",
          ipAddrList := [], transMode := msg.transMode }))
  | _ => return ()

/-- `CFileHandler::HandleClientFileHasOfflineReq`. -/
def handleClientFileHasOfflineReq (c : ConnId) (pdu : Pdu) : Do Unit := do
  let conn ← getConn c
  if (← read).getDbServConn then
    match pdu.body with
    | .imFileHasOfflineReq msg =>
      emit (.send c .db (pdu.setPBMsg (.imFileHasOfflineReq { msg with userId := conn.userId, attachData := conn.attach })))
    | _ => return ()
  else
    sendClient c c (mkPdu sidFile .fileHasOfflineRes pdu.seqNum (.imFileHasOfflineRsp
      { userId := conn.userId, offlineFileList := [], ipAddrList := [], attachData := none }))

/-- The bytes of a text that is ASCII. -/
def asciiBytes (text : String) : Bytes := text.toList.map fun ch => UInt8.ofNat ch.toNat

/-- `CFileHandler::HandleClientFileAddOfflineReq`: the receiver is told when a file server is there, and the DB proxy stores
whether it was. -/
def handleClientFileAddOfflineReq (env : Env) (c : ConnId) (pdu : Pdu) : Do Unit := do
  match pdu.body with
  | .imFileAddOfflineReq msg =>
    let conn ← getConn c
    let s ← read
    let told ← match s.getRandomFileServConn env.random, s.getImUserById msg.toUserId with
      | some (_, fileServ), some r => do
        broadcastPdu c (← getUser r) (mkPdu sidFile .fileHasOfflineRes pdu.seqNum (.imFileHasOfflineRsp
          { userId := msg.toUserId
            offlineFileList := [
              { fromUserId := conn.userId, taskId := msg.taskId, fileName := msg.fileName, fileSize := msg.fileSize,
                fileMd5 := msg.fileMd5, status := 1 }]
            ipAddrList := fileServ.ipList
            attachData := some (asciiBytes "offline transfer ") })) none
        pure true
      | _, _ => pure false
    sendDb c (pdu.setPBMsg (.imFileAddOfflineReq
      { msg with fromUserId := conn.userId, status := if told then 2 else 1 }))
  | _ => return ()

/-- `CFileHandler::HandleClientFileDelOfflineReq`: the sender of the file is told, and the DB proxy. The request's own
fields say who both are. The pointers to the file server and to the DB proxy are followed without a test. -/
def handleClientFileDelOfflineReq (env : Env) (c : ConnId) (pdu : Pdu) : Do Unit := do
  match pdu.body with
  | .imFileDelOfflineReq msg =>
    let s ← read
    let told ← match s.getImUserById msg.fromUserId with
      | some r => do
        let user ← getUser r
        match s.getRandomFileServConn env.random with
        | some (_, fileServ) => do
          broadcastPdu c user (mkPdu sidFile .fileHasOfflineRes 0 (.imFileHasOfflineRsp
            { userId := msg.toUserId
              offlineFileList := [
                { fromUserId := msg.fromUserId, taskId := msg.taskId, fileName := msg.fileName, fileSize := msg.fileSize,
                  fileMd5 := "1", status := fileNeedDisplay }]
              ipAddrList := fileServ.ipList
              attachData := none })) none
          pure true
        | none => stop .undefinedBehaviour
      | none => pure false
    if s.getDbServConn then
      emit (.send c .db (mkPdu sidOther .fileNotifyDbserver 0 (.infoNotify { offlineFileList := [
        { fromUserId := msg.fromUserId, taskId := msg.taskId, fileName := msg.fileName, fileSize := msg.fileSize,
          fileMd5 := " ", status := if told then 5 else 4 }] })))
    else stop .undefinedBehaviour
  | _ => return ()

/-- `CFileHandler::HandleNotifyAck`. The PDU goes out as it came in. -/
def handleNotifyAck (c : ConnId) (pdu : Pdu) : Do Unit := do
  match pdu.body with
  | .infoNotify _ => sendDb c pdu
  | _ => return ()

end TeamTalk
