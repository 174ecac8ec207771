import RpmaReplica.ConnectionHandler
import RpmaReplica.MemoryManager

/-!
# The server's end of a connection

`RPMAHandler` of `EventOp.cc`: it owns the memory of one replica (`data_manager`) and the
registration of that memory (`data_mr`), and serves the requests that arrive in `recv_bl`.
The receive that delivers a request holds `deal_require` as its callback.

Everything librpma and the system answer while a request is served is an input: `MrEnv` for
the registration and its descriptors, `ServeEnv` for the whole of `deal_require`.
-/

namespace RpmaReplica

/-! ### Inputs -/

/-- What librpma answers while a region is registered and described.  The two sizes are what
the uninitialised locals hold when the call that should set them fails. -/
structure MrEnv where
  /-- `rpma_mr_reg`, with the descriptor the new region has. -/
  mrReg : Rpma Bytes
  mrGetDescriptorSize : Rpma Unit
  uninitMrDescSize : UInt64
  mrGetDescriptor : Rpma Unit
  peerCfgNew : Rpma Unit
  peerCfgSetDirectWriteToPmem : Rpma Unit
  peerCfgGetDescriptorSize : Rpma Unit
  uninitPcfgDescSize : UInt64
  peerCfgGetDescriptor : Rpma Unit
  /-- The descriptor of a peer configuration with the given direct-write flag. -/
  peerCfgDescriptor : Bool → Bytes
  /-- What the field `pcfg_desc_size` of a reply holds before it is set. -/
  uninitReplyPcfgDescSize : UInt32

/-- The librpma calls that describe a region and a peer configuration all succeed. -/
structure MrEnv.Describes (env : MrEnv) : Prop where
  mrGetDescriptorSize : env.mrGetDescriptorSize = .ok ()
  mrGetDescriptor : env.mrGetDescriptor = .ok ()
  peerCfgNew : env.peerCfgNew = .ok ()
  peerCfgSetDirectWriteToPmem : env.peerCfgSetDirectWriteToPmem = .ok ()
  peerCfgGetDescriptorSize : env.peerCfgGetDescriptorSize = .ok ()
  peerCfgGetDescriptor : env.peerCfgGetDescriptor = .ok ()

/-- What the outside answers while one request is served. -/
structure ServeEnv where
  mem : MemEnv
  mr : MrEnv
  /-- `rpma_send` of `close`. -/
  closeSend : Rpma Unit
  /-- `rpma_recv` of `deal_require`. -/
  recv : Rpma Unit
  /-- `rpma_send` of `deal_require`. -/
  send : Rpma Unit

/-- What the outside answers while a handler is constructed. -/
structure ConstructEnv where
  /-- `rpma_mr_reg` of `recv_bl` and of `send_bl`. -/
  recvMr : Rpma Unit
  sendMr : Rpma Unit
  epNextConnReq : Rpma Unit
  connReqRecv : Rpma Unit
  connReqConnect : Rpma Unit
  connGetEventFd : Rpma Unit
  connGetCompletionFd : Rpma Unit

def ConstructEnv.ok : ConstructEnv := ⟨.ok (), .ok (), .ok (), .ok (), .ok (), .ok (), .ok ()⟩

/-! ### The handler -/

/-- The callbacks of the server's operations: all of them call `deal_require`. -/
inductive ServerCallback
  | dealRequire
  deriving DecidableEq, Repr

structure RPMAHandler extends ConnectionHandler ServerCallback where
  dataManager : MemoryManager
  dataMr : Option MrLocal
  deriving DecidableEq

namespace RPMAHandler

def base : Lens RPMAHandler (ConnectionHandler ServerCallback) where
  get := toConnectionHandler
  set c h := { h with toConnectionHandler := c }
  get_set _ _ := rfl
  set_get _ := rfl
  set_set _ _ _ := rfl

def manager : Lens RPMAHandler MemoryManager where
  get := dataManager
  set m h := { h with dataManager := m }
  get_set _ _ := rfl
  set_get _ := rfl
  set_set _ _ _ := rfl

/-- A new handler: the contents of its buffers and of the unset member `_size` are arbitrary.
The first receive is posted on the connection request. -/
def create (sendBl recvBl : MsgBuf) (size : UInt64) : RPMAHandler where
  toConnectionHandler :=
    { (ConnectionHandler.create sendBl recvBl : ConnectionHandler ServerCallback) with
      callbackTable := {0}
      ops := [(0, some .dealRequire)]
      nextOp := 1 }
  dataManager := MemoryManager.create size
  dataMr := none

/-! ### Strings -/

def stringMaxSize : ℕ := 2 ^ 62 - 1

/-- `std::string::resize`: cut off, or fill up with NUL. -/
def resize (s : Bytes) (n : UInt64) : Except Stop Bytes :=
  if n.toNat ≤ stringMaxSize then .ok (s.take n.toNat ++ List.replicate (n.toNat - s.length) 0)
  else .error (.thrown .lengthError)

/-- A call that stores the bytes `src`, if it succeeds, at `&s[off]`. -/
def storeAt (s : Bytes) (off : ℕ) (src : Rpma Bytes) : Except Stop Bytes :=
  match src with
  | .ok bs =>
    if off + bs.length ≤ s.length then .ok (s.take off ++ bs ++ s.drop (off + bs.length))
    else .error .undefined
  | .error _ => if off ≤ s.length then .ok s else .error .undefined

/-- A size set by a call, or left as it was if the call fails. -/
def sizeOr (uninit : UInt64) (n : ℕ) : Rpma Unit → UInt64
  | .ok _ => UInt64.ofNat n
  | .error _ => uninit

/-! ### Registration -/

/-- The usage of a region registered for an operation: a `switch` that falls through from
`FLUSH` to `WRITE`, and from `READ` to the default. -/
def mrUsage (op : RpmaOpcode) (isPmem : Bool) : UInt32 :=
  match op with
  | .flush =>
    (if isPmem then rpmaMrUsageFlushTypePersistent else rpmaMrUsageFlushTypeVisibility) |||
      rpmaMrUsageWriteDst
  | .write => rpmaMrUsageWriteDst
  | .read => rpmaMrUsageReadSrc
  | .send | .recv => 0

/-- A call on a peer configuration, which is `NULL` if it could not be created. -/
def onPcfg {α : Type} (env : MrEnv) (res : Rpma α) : Rpma α :=
  match env.peerCfgNew with
  | .ok _ => res
  | .error _ => .error .inval

/-- `rpma_peer_cfg_set_direct_write_to_pmem`, which is called for pmem only. -/
def configured (env : MrEnv) (isPmem : Bool) : Rpma Unit :=
  if isPmem then onPcfg env env.peerCfgSetDirectWriteToPmem else .ok ()

/-- The first part of the reply: `mr_desc_size`, and `descriptors` holding the descriptor `mr`
of the region. -/
def describeMr (env : MrEnv) (mr : Bytes) : Except Stop (UInt64 × Bytes) := do
  let mrDescSize := sizeOr env.uninitMrDescSize mr.length env.mrGetDescriptorSize
  let descriptors ← resize [] mrDescSize
  let descriptors ← storeAt descriptors 0 (env.mrGetDescriptor.map fun _ => mr)
  return (mrDescSize, descriptors)

/-- The second part of the reply, for `FLUSH`: behind the descriptor of the region that of the
peer configuration.  The inner error is an early `return`. -/
def describePcfg (env : MrEnv) (isPmem : Bool) (mrDescSize : UInt64) (descriptors : Bytes) :
    Except Stop (Except ℤ RpmaConfigDescriptor) :=
  match configured env isPmem with
  | .error e => return .error e.code
  | .ok _ => do
    let pcfg := env.peerCfgDescriptor isPmem
    let pcfgDescSize :=
      sizeOr env.uninitPcfgDescSize pcfg.length (onPcfg env env.peerCfgGetDescriptorSize)
    let descriptors ← resize descriptors (mrDescSize + pcfgDescSize)
    let descriptors ← storeAt descriptors mrDescSize.toNat
      ((onPcfg env env.peerCfgGetDescriptor).map fun _ => pcfg)
    return .ok ⟨mrDescSize.toUInt32, pcfgDescSize.toUInt32, descriptors⟩

/-- `register_mr_to_descriptor` between the registration and the encoding of the reply. -/
def describe (env : MrEnv) (op : RpmaOpcode) (isPmem : Bool) (mr : Bytes) :
    Except Stop (Except ℤ RpmaConfigDescriptor) := do
  let (mrDescSize, descriptors) ← describeMr env mr
  if op = .flush then describePcfg env isPmem mrDescSize descriptors
  else return .ok ⟨mrDescSize.toUInt32, env.uninitReplyPcfgDescSize, descriptors⟩

/-- `data_mr.reset(mr)`: the old region, if any, is deregistered after the new one is set. -/
def resetDataMr (mr : Option MrLocal) : Prog RPMAHandler Unit := do
  let h ← Exec.read
  Exec.update fun h => { h with dataMr := mr }
  match h.dataMr with
  | some old => Exec.call (.mrDereg old)
  | none => return ()

/-- The region that a registration of the current memory yields. -/
def newMr (h : RPMAHandler) (op : RpmaOpcode) (descriptor : Bytes) : MrLocal where
  ptr := h.dataManager.data
  size := h.dataManager.size
  usage := mrUsage op h.dataManager.isPmem
  descriptor := descriptor

def initReply (desc : RpmaConfigDescriptor) : RwlReplicaInitRequestReply :=
  ⟨⟨rwlReplicaInitSuccessed⟩, desc⟩

def registerMrToDescriptor (env : MrEnv) (op : RpmaOpcode) : Prog RPMAHandler ℤ := do
  let h ← Exec.read
  Exec.call (.mrReg h.dataManager.data h.dataManager.size (mrUsage op h.dataManager.isPmem)
    (env.mrReg.map (newMr h op)))
  match env.mrReg with
  | .error e => return e.code
  | .ok descriptor =>
    resetDataMr (some (newMr h op descriptor))
    match describe env op h.dataManager.isPmem descriptor with
    | .error stop => Exec.stop stop
    | .ok (.error ret) => return ret
    | .ok (.ok desc) =>
      Exec.zoom base (ConnectionHandler.fillSendBl (initReply desc).encode)
      return 0

/-! ### Serving a request -/

def poolPath (info : RwlCacheInfo) : Bytes :=
  ascii "rbd-pwl." ++ info.poolName ++ ascii "." ++ info.imageName ++ ascii ".pool." ++
    ascii (toString info.cacheId.toNat)

def getDescriptorForWrite (env : ServeEnv) : Prog RPMAHandler ℤ := do
  let h ← Exec.read
  let init ← decodeFrom RwlReplicaInitRequest.decode h.recvBl
  if h.dataManager.data = none then
    Exec.zoom manager (MemoryManager.init env.mem init.info.cacheSize (poolPath init.info))
  registerMrToDescriptor env.mr .flush

def closeReply (removed : ℤ) : RwlReplicaFinishedRequestReply :=
  ⟨⟨if removed = 0 then rwlReplicaFinishedSucccessed else rwlReplicaFinishedFailed⟩⟩

def close (env : ServeEnv) : Prog RPMAHandler ℤ := do
  resetDataMr none
  let removed ← Exec.zoom manager (MemoryManager.closeAndRemove env.mem)
  Exec.zoom base (ConnectionHandler.fillSendBl (closeReply removed).encode)
  let _ ← Exec.zoom base (ConnectionHandler.send env.closeSend none)
  return 0

def getDescriptor (env : ServeEnv) : Prog RPMAHandler ℤ := do
  let h ← Exec.read
  let request ← decodeFrom RwlReplicaRequest.decode h.recvBl
  if request.type = rwlReplicaInitRequest then getDescriptorForWrite env
  else if request.type = rwlReplicaFinishedRequest then close env
  else return -1

/-- What `deal_require` does behind `get_descriptor`: it posts the next receive, with itself as
the callback, and sends `send_bl`. -/
def receiveAndReply (recv send : Rpma Unit) : Prog (ConnectionHandler ServerCallback) Unit := do
  let op ← ConnectionHandler.newOp (some .dealRequire)
  Exec.call (.rpmaRecv (some op) recv)
  match recv with
  | .ok _ =>
    ConnectionHandler.insertOp op
    Exec.call (.rpmaSend none send)
  | .error _ =>
    -- the `unique_ptr` was not released, and it destroys its operation at the end of the scope
    Exec.call (.rpmaSend none send)
    ConnectionHandler.deleteOp op

def dealRequire (env : ServeEnv) : Prog RPMAHandler Unit := do
  let _ ← getDescriptor env
  Exec.zoom base (receiveAndReply env.recv env.send)

/-- `~RPMAHandler()`: the members are destroyed in the reverse order of their declaration,
then the base. -/
def destroy : Prog RPMAHandler Unit := do
  resetDataMr none
  Exec.zoom manager MemoryManager.destroy
  Exec.zoom base ConnectionHandler.destroy

/-! ### Construction -/

/-- The handler before the body of its constructor runs. -/
def blank (sendBl recvBl : MsgBuf) (size : UInt64) : RPMAHandler where
  toConnectionHandler := ConnectionHandler.create sendBl recvBl
  dataManager := MemoryManager.create size
  dataMr := none

/-- The body of `RPMAHandler()`. -/
def construct (env : ConstructEnv) : Prog RPMAHandler Unit := do
  Exec.zoom base (ConnectionHandler.initSendRecvBuffer env.recvMr env.sendMr)
  orThrow "receive an incoming connection request failed." env.epNextConnReq
  let _ ← Exec.zoom base (ConnectionHandler.postOp
    (fun op => .connReqRecv (some op) env.connReqRecv) env.connReqRecv (some .dealRequire))
  orThrow
    "Put an initial receive to be prepared for the first message of the client's ping-pong failed."
    env.connReqRecv
  orThrow "accept the connection request and obtain the connection object failed."
    env.connReqConnect
  Exec.zoom base (ConnectionHandler.initConnFd env.connGetEventFd env.connGetCompletionFd)

/-- `RPMAHandler()`: if the body throws, the members and the base are destroyed. -/
def new (env : ConstructEnv) : Prog RPMAHandler Unit :=
  Exec.unwinding (construct env) destroy

end RPMAHandler

end RpmaReplica
