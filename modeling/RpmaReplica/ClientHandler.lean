import RpmaReplica.ConnectionHandler

/-!
# The client's end of a connection

`ClientHandler` of `EventOp.cc`.  `init_replica` and `close_replica` post a receive whose
callback will look at the reply, send the request, and wait until the callback has set a
local flag or too much time has passed.  The callback is run by the reactor thread, so the
locals it refers to are part of the state here, by the number of the call they belong to.

What librpma answers while a reply is looked at is an input (`RemoteEnv`), and so is what
happens while a call waits (`Waiting`).
-/

namespace RpmaReplica

/-! ### Inputs -/

/-- What librpma answers in `get_remote_descriptor`, and what lies in memory behind the string
with the descriptors.  What the two constructors make of a descriptor depends on its bytes.
The size is what the uninitialised local holds when the call that should set it fails. -/
structure RemoteEnv where
  /-- `rpma_peer_cfg_from_descriptor`, with the direct-write flag of the new configuration. -/
  peerCfgFromDescriptor : Bytes → Rpma Bool
  peerCfgGetDirectWriteToPmem : Rpma Unit
  mrRemoteFromDescriptor : Bytes → Rpma MrRemote
  mrRemoteGetSize : Rpma Unit
  uninitSize : UInt64
  beyond : ℕ → UInt8

/-- A message that arrives in the receive buffer, and what librpma answers while it is looked
at. -/
structure Delivery where
  content : MsgBuf
  env : RemoteEnv

/-- One turn of the waiting loop: what arrives meanwhile, and the time then read. -/
structure Turn where
  reply : Option Delivery
  elapsed : ℤ

/-- What the outside does during a call: the results of the two posts, the time that the
uninitialised local `cost_time` holds at first, what happens at each turn of the loop, and
what arrives after the last look of the loop and before the flag is read for the result. -/
structure Waiting where
  recv : Rpma Unit
  send : Rpma Unit
  uninitCostTime : ℤ
  turns : List Turn
  late : Option Delivery

/-! ### The handler -/

/-- The callbacks of the receives posted by `init_replica` and `close_replica`, with the call
whose locals they refer to, and those given to `write` and `flush`, which are the
application's. -/
inductive ClientCallback
  | initReply (call : ℕ)
  | finishedReply (call : ℕ)
  | application (id : ℕ)
  deriving DecidableEq, Repr

/-- The locals `completed` and `successed` of a call. -/
structure Locals where
  completed : Bool
  successed : Bool
  deriving DecidableEq, Repr

/-- `ClientHandler`.  The members `_flush_type`, `_image_size` and `_image_mr` are not set by
the constructor. -/
structure ClientHandler extends ConnectionHandler ClientCallback where
  flushType : FlushType
  dataHeader : Ptr
  dataMr : Option MrLocal
  imageSize : UInt64
  imageMr : Option MrRemote
  locals : ℕ → Locals
  nextCall : ℕ

namespace ClientHandler

/-- The base object. -/
def base : Lens ClientHandler (ConnectionHandler ClientCallback) where
  get := toConnectionHandler
  set c h := { h with toConnectionHandler := c }
  get_set _ _ := rfl
  set_get _ := rfl
  set_set _ _ _ := rfl

/-- A new client, with 0 in whatever the constructor does not set. -/
def created : ClientHandler where
  toConnectionHandler := ConnectionHandler.create MsgBuf.zero MsgBuf.zero
  flushType := .visibility
  dataHeader := none
  dataMr := none
  imageSize := 0
  imageMr := none
  locals := fun _ => ⟨false, false⟩
  nextCall := 0

/-! ### `get_remote_descriptor` -/

/-- The bytes that a pointer into a string and a length stand for.  Nothing compares the length
with the string, so they may go on behind its end. -/
def rangeOf (env : RemoteEnv) (src : Bytes) (off len : ℕ) : Bytes :=
  (List.range len).map fun i => src.getD (off + i) (env.beyond (off + i - src.length))

/-- The remote peer configuration is looked at, if there is one: the direct-write flag. -/
def applyPcfg (env : RemoteEnv) (desc : RpmaConfigDescriptor) : Prog ClientHandler Bool := do
  if desc.pcfgDescSize = 0 then return false
  let off := desc.mrDescSize.toNat
  let len := desc.pcfgDescSize.toNat
  let pcfg := env.peerCfgFromDescriptor (rangeOf env desc.descriptors off len)
  Exec.call (.peerCfgFromDescriptor desc.descriptors off len pcfg)
  -- on a `NULL` configuration the getter fails, and the flag stays as it is
  match pcfg, env.peerCfgGetDirectWriteToPmem with
  | .ok direct, .ok _ => return direct
  | _, _ => return false

/-- `rpma_mr_remote_from_descriptor` into `_image_mr`, which stays as it is if the call fails. -/
def createImageMr (env : RemoteEnv) (desc : RpmaConfigDescriptor) : Prog ClientHandler Unit := do
  let len := desc.mrDescSize.toNat
  let mr := env.mrRemoteFromDescriptor (rangeOf env desc.descriptors 0 len)
  Exec.call (.mrRemoteFromDescriptor desc.descriptors 0 len mr)
  match mr with
  | .ok mr => Exec.update fun h => { h with imageMr := some mr }
  | .error _ => return ()

/-- `rpma_mr_remote_get_size` on `_image_mr`: what it returns, and the value of the local it
should set. -/
def imageMrSize (env : RemoteEnv) (imageMr : Option MrRemote) : Rpma Unit × UInt64 :=
  match imageMr, env.mrRemoteGetSize with
  | some mr, .ok _ => (.ok (), mr.size)
  | some _, .error e => (.error e, env.uninitSize)
  | none, _ => (.error .inval, env.uninitSize)

def getRemoteDescriptor (env : RemoteEnv) : Prog ClientHandler ℤ := do
  let h ← Exec.read
  let reply ← decodeFrom RwlReplicaInitRequestReply.decode h.recvBl
  if reply.type = rwlReplicaInitSuccessed then
    let direct ← applyPcfg env reply.desc
    -- the code that this call returns is overwritten by that of the next
    createImageMr env reply.desc
    let h ← Exec.read
    let (ret, size) := imageMrSize env h.imageMr
    if size < h.imageSize then return -1
    Exec.update fun h =>
      { h with flushType := if direct then .persistent else .visibility }
    return ret.ret
  else return 0

/-! ### The two calls -/

/-- Set the locals of a call. -/
def setLocals (call : ℕ) (l : Locals) : Prog ClientHandler Unit :=
  Exec.update fun h => { h with locals := Function.update h.locals call l }

/-- The callback of an operation.  Those of `write` and `flush` do not touch the handler. -/
def runCallback (env : RemoteEnv) : ClientCallback → Prog ClientHandler Unit
  | .initReply call => do
    let _ ← getRemoteDescriptor env
    let h ← Exec.read
    setLocals call { h.locals call with completed := true }
  | .finishedReply call => do
    let h ← Exec.read
    let reply ← decodeFrom RwlReplicaFinishedRequestReply.decode h.recvBl
    setLocals call ⟨true, reply.type = rwlReplicaFinishedSucccessed⟩
  | .application _ => return ()

/-- The reactor handles the completion of the receive `op`, if it is still to come. -/
def deliver (op : OpId) : Option Delivery → Prog ClientHandler Unit
  | none => return ()
  | some d => do
    let h ← Exec.read
    if op ∈ h.callbackTable then
      Exec.update fun h => { h with recvBl := d.content }
      ConnectionHandler.retire base (runCallback d.env) op

/-- The loop `while (completed == false && cost_time < 10e6)`, for the turns it makes; it is
the clock that ends it if the flag does not. -/
def waitCompleted (call : ℕ) (op : OpId) (costTime : ℤ) : List Turn → Prog ClientHandler Unit
  | [] => return ()
  | turn :: turns => do
    let h ← Exec.read
    if (h.locals call).completed = false ∧ costTime < 10000000 then
      deliver op turn.reply
      waitCompleted call op turn.elapsed turns

/-- The first part of both calls: put the request into `send_bl`, and post the receive and
the send, whose results are dropped. -/
def postRequest (recv send : Rpma Unit) (request : Bytes) (callback : ℕ → ClientCallback) :
    Prog ClientHandler Unit := do
  let h ← Exec.read
  Exec.update fun h => { h with nextCall := h.nextCall + 1 }
  Exec.zoom base (ConnectionHandler.fillSendBl request)
  setLocals h.nextCall ⟨false, false⟩
  let _ ← Exec.zoom base (ConnectionHandler.recv recv (some (callback h.nextCall)))
  let _ ← Exec.zoom base (ConnectionHandler.send send none)

/-- The common body of the two calls: post the request and wait. -/
def exchange (w : Waiting) (request : Bytes) (callback : ℕ → ClientCallback) :
    Prog ClientHandler Locals := do
  let h ← Exec.read
  postRequest w.recv w.send request callback
  waitCompleted h.nextCall h.nextOp w.uninitCostTime w.turns
  deliver h.nextOp w.late
  let h' ← Exec.read
  return h'.locals h.nextCall

/-- The request of `init_replica`. -/
def initRequest (cacheId : UInt32) (cacheSize : UInt64) (poolName imageName : Bytes) :
    RwlReplicaInitRequest :=
  ⟨⟨rwlReplicaInitRequest⟩, ⟨cacheId, cacheSize, poolName, imageName⟩⟩

def initReplica (w : Waiting) (cacheId : UInt32) (cacheSize : UInt64)
    (poolName imageName : Bytes) : Prog ClientHandler ℤ := do
  Exec.update fun h => { h with imageSize := cacheSize }
  let l ← exchange w (initRequest cacheId cacheSize poolName imageName).encode .initReply
  return if l.completed then 0 else -1

/-- The request of `close_replica`. -/
def finishedRequest : RwlReplicaFinishedRequest := ⟨⟨rwlReplicaFinishedRequest⟩⟩

def closeReplica (w : Waiting) : Prog ClientHandler ℤ := do
  let l ← exchange w finishedRequest.encode .finishedReply
  return if l.completed && l.successed then 0 else -1

/-! ### Data -/

def disconnect : Prog ClientHandler Unit := Exec.zoom base ConnectionHandler.disconnect

/-- `RPMA_MR_USAGE_WRITE_SRC`. -/
def rpmaMrUsageWriteSrc : UInt32 := (1 : UInt32) <<< 2

/-- `data_mr.reset(mr)`: the old region, if any, is deregistered after the new one is set. -/
def resetDataMr (mr : MrLocal) : Prog ClientHandler Unit := do
  let h ← Exec.read
  Exec.update fun h => { h with dataMr := some mr }
  match h.dataMr with
  | some old => Exec.call (.mrDereg old)
  | none => return ()

def setHead (headPtr : Ptr) (size : UInt64) (reg : Rpma Bytes) : Prog ClientHandler ℤ := do
  Exec.update fun h => { h with dataHeader := headPtr }
  let mr := reg.map fun descriptor => (⟨headPtr, size, rpmaMrUsageWriteSrc, descriptor⟩ : MrLocal)
  Exec.call (.mrReg headPtr size rpmaMrUsageWriteSrc mr)
  match mr with
  | .error e => return e.code
  | .ok mr =>
    resetDataMr mr
    return 0

/-- `write`, whose `assert`s are that there is data and that it is not too long. -/
def write (res : Rpma Unit) (offset len : UInt64) (callback : Option ℕ) :
    Prog ClientHandler ℤ := do
  let h ← Exec.read
  match h.dataMr with
  | none => Exec.stop .aborted
  | some src =>
    if len.toNat ≤ 1024 * 1024 * 1024 then
      Exec.zoom base (ConnectionHandler.postOp
        (fun op => .rpmaWrite h.imageMr offset src offset len (some op) res) res
        (callback.map .application))
    else Exec.stop .aborted

def flush (res : Rpma Unit) (offset len : UInt64) (callback : Option ℕ) :
    Prog ClientHandler ℤ := do
  let h ← Exec.read
  if h.dataMr = none then Exec.stop .aborted
  else Exec.zoom base (ConnectionHandler.postOp
    (fun op => .rpmaFlush h.imageMr offset len h.flushType (some op) res) res
    (callback.map .application))

end ClientHandler

end RpmaReplica
