import RpmaReplica.Lib.Exec
import RpmaReplica.Types

/-!
# What the program calls

The functions of librpma, libpmem and libc that the handlers call are not part of the
program.  Each of their results is an input of the model, and each call that touches
something outside the handler is recorded, with its arguments and its result, among the
calls of the run (`Exec`).  This file holds the vocabulary: error codes, memory regions,
completions, the calls themselves, and the ways in which a function can fail to return.
-/

namespace RpmaReplica

/-! ### Error codes -/

/-- The error codes of librpma. -/
inductive RpmaError
  | unknown
  | nosupp
  | provider
  | nomem
  | inval
  | noCompletion
  | noEvent
  | again
  deriving DecidableEq, Repr

/-- The value of an error code. -/
def RpmaError.code : RpmaError → ℤ
  | unknown => -100000
  | nosupp => -100001
  | provider => -100002
  | nomem => -100003
  | inval => -100004
  | noCompletion => -100005
  | noEvent => -100006
  | again => -100007

lemma RpmaError.code_ne_zero (e : RpmaError) : e.code ≠ 0 := by
  cases e <;> decide

/-- The result of a librpma call. -/
abbrev Rpma (α : Type) : Type := Except RpmaError α

/-- The `int` a librpma call returns. -/
def Rpma.ret {α : Type} : Rpma α → ℤ
  | .ok _ => 0
  | .error e => e.code

@[simp] lemma Rpma.ret_ok {α : Type} (a : α) : Rpma.ret (.ok a : Rpma α) = 0 := rfl

@[simp] lemma Rpma.ret_error {α : Type} (e : RpmaError) :
    Rpma.ret (.error e : Rpma α) = e.code := rfl

/-! ### Memory and memory regions -/

/-- The address of an allocated or mapped block. -/
abbrev Addr : Type := ℕ

/-- A pointer, `none` for `nullptr`. -/
abbrev Ptr : Type := Option Addr

/-- `RPMA_MR_USAGE_READ_SRC`. -/
def rpmaMrUsageReadSrc : UInt32 := (1 : UInt32) <<< 0

/-- `RPMA_MR_USAGE_WRITE_DST`. -/
def rpmaMrUsageWriteDst : UInt32 := (1 : UInt32) <<< 3

/-- `RPMA_MR_USAGE_FLUSH_TYPE_VISIBILITY`. -/
def rpmaMrUsageFlushTypeVisibility : UInt32 := (1 : UInt32) <<< 4

/-- `RPMA_MR_USAGE_FLUSH_TYPE_PERSISTENT`. -/
def rpmaMrUsageFlushTypePersistent : UInt32 := (1 : UInt32) <<< 5

/-- A local memory registration object (`rpma_mr_local`): what it was registered on, and the
network-transferable descriptor that librpma gives for it. -/
structure MrLocal where
  ptr : Ptr
  size : UInt64
  usage : UInt32
  descriptor : Bytes
  deriving DecidableEq, Repr

/-- The region allows the persistent flush. -/
def MrLocal.Persistent (mr : MrLocal) : Prop :=
  mr.usage &&& rpmaMrUsageFlushTypePersistent ≠ 0

instance (mr : MrLocal) : Decidable mr.Persistent :=
  inferInstanceAs (Decidable (_ ≠ _))

/-- A remote memory region (`rpma_mr_remote`): the object's identity and the size of the
region it stands for. -/
structure MrRemote where
  id : ℕ
  size : UInt64
  deriving DecidableEq, Repr

/-- `rpma_flush_type`. -/
inductive FlushType
  | persistent
  | visibility
  deriving DecidableEq, Repr

/-! ### Operations and completions -/

/-- `rpma_op`. -/
inductive RpmaOpcode
  | read
  | write
  | flush
  | send
  | recv
  deriving DecidableEq, Repr

/-- The identity of an `RpmaOp` object.  Objects are told apart even where the allocator
reuses an address. -/
abbrev OpId : Type := ℕ

/-- `rpma_completion`: the context given when the operation was posted, the operation, and
whether its status is `IBV_WC_SUCCESS`. -/
structure Completion where
  opContext : Option OpId
  op : RpmaOpcode
  success : Bool
  deriving DecidableEq, Repr

/-! ### Calls -/

/-- A mapping made by `pmem_map_file`. -/
structure Mapping where
  addr : Addr
  len : UInt64
  isPmem : Bool
  deriving DecidableEq, Repr

/-- The calls by which the program touches something outside. -/
inductive Call
  /-- `access(path, F_OK)`, and whether it returned 0. -/
  | access (path : Bytes) (found : Bool)
  /-- `pmem_map_file(path, len, flags, ..)`; `create` is the flag `PMEM_FILE_CREATE`. -/
  | pmemMapFile (path : Bytes) (len : UInt64) (create : Bool) (res : Option Mapping)
  | pmemUnmap (addr : Addr) (len : UInt64)
  | malloc (size : UInt64) (res : Ptr)
  | free (addr : Addr)
  | remove (path : Bytes) (ret : ℤ)
  | mrReg (ptr : Ptr) (size : UInt64) (usage : UInt32) (res : Rpma MrLocal)
  | mrDereg (mr : MrLocal)
  /-- Construction of an `RpmaOp`. -/
  | opNew (op : OpId)
  /-- Destruction of an `RpmaOp`. -/
  | opDelete (op : OpId)
  /-- `rpma_recv` into `recv_bl`. -/
  | rpmaRecv (ctx : Option OpId) (res : Rpma Unit)
  /-- `rpma_conn_req_recv` into `recv_bl`. -/
  | connReqRecv (ctx : Option OpId) (res : Rpma Unit)
  /-- `rpma_send` from `send_bl`. -/
  | rpmaSend (ctx : Option OpId) (res : Rpma Unit)
  /-- `rpma_write` of `len` bytes; `none` is a null region. -/
  | rpmaWrite (dst : Option MrRemote) (dstOffset : UInt64) (src : MrLocal) (srcOffset len : UInt64)
      (ctx : Option OpId) (res : Rpma Unit)
  | rpmaFlush (dst : Option MrRemote) (dstOffset len : UInt64) (type : FlushType)
      (ctx : Option OpId) (res : Rpma Unit)
  | connCompletionWait (res : Rpma Unit)
  | connCompletionGet (res : Rpma Completion)
  | connDisconnect
  /-- `rpma_peer_cfg_from_descriptor` on `len` bytes of `src` from `off` on. -/
  | peerCfgFromDescriptor (src : Bytes) (off len : ℕ) (res : Rpma Bool)
  /-- `rpma_mr_remote_from_descriptor` on `len` bytes of `src` from `off` on. -/
  | mrRemoteFromDescriptor (src : Bytes) (off len : ℕ) (res : Rpma MrRemote)
  deriving DecidableEq

/-- The call posts a send. -/
def Call.IsSend : Call → Prop
  | rpmaSend _ _ => True
  | _ => False

instance : DecidablePred Call.IsSend := fun c => by
  cases c <;> first | exact isTrue trivial | exact isFalse not_false

/-- The call is made by a memory manager. -/
def Call.IsMemory : Call → Prop
  | access _ _ | pmemMapFile _ _ _ _ | pmemUnmap _ _ | malloc _ _ | free _ | remove _ _ => True
  | _ => False

instance : DecidablePred Call.IsMemory := fun c => by
  cases c <;> first | exact isTrue trivial | exact isFalse not_false

/-- The call registers or deregisters memory. -/
def Call.IsRegistration : Call → Prop
  | mrReg _ _ _ _ | mrDereg _ => True
  | _ => False

/-- The call gives memory back. -/
def Call.Releases : Call → Prop
  | pmemUnmap _ _ => True
  | free _ => True
  | _ => False

lemma Call.not_isSend_of_isMemory {c : Call} (h : c.IsMemory) : ¬c.IsSend := by
  cases c <;> simp_all [IsMemory, IsSend]

lemma Call.not_isSend_of_isRegistration {c : Call} (h : c.IsRegistration) : ¬c.IsSend := by
  cases c <;> simp_all [IsRegistration, IsSend]

lemma Call.not_isMemory_of_isRegistration {c : Call} (h : c.IsRegistration) : ¬c.IsMemory := by
  cases c <;> simp_all [IsRegistration, IsMemory]

/-! ### Ways not to return -/

/-- A C++ exception. -/
inductive Exn
  /-- `ceph::buffer::error`, thrown by a decoder. -/
  | bufferError (e : Wire.DecodeError)
  /-- `std::runtime_error`. -/
  | runtimeError (what : String)
  /-- `std::length_error`, thrown by `std::string::resize`. -/
  | lengthError
  deriving DecidableEq, Repr

/-- Why a function did not return: an exception, a failed `assert`, or undefined behaviour
(a write outside an object). -/
inductive Stop
  | thrown (e : Exn)
  | aborted
  | undefined
  deriving DecidableEq, Repr

/-- A program of this repository. -/
abbrev Prog (σ α : Type) : Type := Exec Call Stop σ α

/-- Throw a `std::runtime_error` if a librpma call has failed. -/
def orThrow {σ : Type} (what : String) : Rpma Unit → Prog σ Unit
  | .ok _ => return ()
  | .error _ => Exec.stop (.thrown (.runtimeError what))

lemma logs_orThrow {σ : Type} {H : List Call → σ → Prop} (what : String) (res : Rpma Unit) :
    Exec.Logs H (orThrow what res) fun _ => H := by
  cases res with
  | ok u => exact .ret fun _ _ hs => hs
  | error e => exact .stop fun _ _ hs => hs

/-! ### Sends -/

/-- The sends posted in a sequence of calls: the state in which each was posted, and the
result of the post. -/
def sentBy {σ : Type} (calls : List (σ × Call)) : List (σ × Rpma Unit) :=
  calls.filterMap fun p => match p.2 with
    | .rpmaSend _ res => some (p.1, res)
    | _ => none

@[simp] lemma sentBy_nil {σ : Type} : sentBy ([] : List (σ × Call)) = [] := rfl

@[simp] lemma sentBy_append {σ : Type} (cs ds : List (σ × Call)) :
    sentBy (cs ++ ds) = sentBy cs ++ sentBy ds := List.filterMap_append

lemma sentBy_eq_nil {σ : Type} {calls : List (σ × Call)} (h : ∀ p ∈ calls, ¬p.2.IsSend) :
    sentBy calls = [] := by
  refine List.filterMap_eq_nil_iff.2 fun p hp => ?_
  have hs := h p hp
  rcases p with ⟨s, c⟩
  cases c with
  | rpmaSend ctx res => exact absurd trivial hs
  | _ => rfl

lemma sentBy_map {σ τ : Type} (f : σ → τ) (calls : List (σ × Call)) :
    sentBy (calls.map fun p => (f p.1, p.2)) = (sentBy calls).map fun p => (f p.1, p.2) := by
  simp only [sentBy]
  rw [List.filterMap_map, List.map_filterMap]
  congr 1
  funext p
  rcases p with ⟨s, c⟩
  cases c <;> rfl

/-- Two outcomes agree in their result, their final state and their sends. -/
structure Agree {σ α : Type} (o o' : Outcome Call Stop σ α) : Prop where
  result : o.result = o'.result
  state : o.state = o'.state
  sends : sentBy o.calls = sentBy o'.calls

lemma Agree.trans {σ α : Type} {o o' o'' : Outcome Call Stop σ α} (h : Agree o o')
    (h' : Agree o' o'') : Agree o o'' :=
  ⟨h.result.trans h'.result, h.state.trans h'.state, h.sends.trans h'.sends⟩

/-- A first part that returns without a send only changes where the rest starts. -/
lemma agree_bind {σ α β : Type} {m : Prog σ α} {f : α → Prog σ β} {s : σ} {a : α}
    (hr : (m s).result = .ok a) (hm : sentBy (m s).calls = []) :
    Agree ((m >>= f) s) (f a (m s).state) := by
  rw [Exec.bind_apply, Outcome.andThen_of_ok hr]
  exact ⟨rfl, rfl, by rw [sentBy_append, hm, List.nil_append]⟩

/-! ### Calls on memory -/

/-- The calls on memory in a sequence of calls. -/
def memoryCalls {σ : Type} (calls : List (σ × Call)) : List Call :=
  (calls.map Prod.snd).filter Call.IsMemory

section MemoryCalls

variable {σ τ α β : Type}

@[simp] lemma memoryCalls_nil : memoryCalls ([] : List (σ × Call)) = [] := rfl

@[simp] lemma memoryCalls_append (cs ds : List (σ × Call)) :
    memoryCalls (cs ++ ds) = memoryCalls cs ++ memoryCalls ds := by
  simp [memoryCalls]

lemma memoryCalls_of_only {m : Prog σ α} (h : Exec.Only (fun c => ¬c.IsMemory) m) (s : σ) :
    memoryCalls (m s).calls = [] := by
  refine List.filter_eq_nil_iff.2 fun c hc => ?_
  obtain ⟨p, hp, rfl⟩ := List.mem_map.1 hc
  simpa using h s p hp

/-- A program that makes calls on memory only, on a part of the state. -/
lemma memoryCalls_zoom (L : Lens τ σ) {m : Prog σ α} (h : Exec.Only Call.IsMemory m) (t : τ) :
    memoryCalls (Exec.zoom L m t).calls = (m (L.get t)).calls.map Prod.snd := by
  have hsnd : (Exec.zoom L m t).calls.map Prod.snd = (m (L.get t)).calls.map Prod.snd := by
    rw [Exec.zoom_apply, List.map_map]
    rfl
  rw [memoryCalls, hsnd]
  refine List.filter_eq_self.2 fun c hc => ?_
  obtain ⟨p, hp, rfl⟩ := List.mem_map.1 hc
  simpa using h _ p hp

lemma memoryCalls_bind {m : Prog σ α} {f : α → Prog σ β} {s : σ} {a : α}
    (hr : (m s).result = .ok a) :
    memoryCalls ((m >>= f) s).calls =
      memoryCalls (m s).calls ++ memoryCalls (f a (m s).state).calls := by
  rw [Exec.bind_apply, Outcome.andThen_of_ok hr, memoryCalls_append]

/-- What follows makes no calls on memory. -/
lemma memoryCalls_bind_only {m : Prog σ α} {f : α → Prog σ β}
    (h : ∀ a, Exec.Only (fun c => ¬c.IsMemory) (f a)) (s : σ) :
    memoryCalls ((m >>= f) s).calls = memoryCalls (m s).calls := by
  cases hr : (m s).result with
  | error e => rw [Exec.bind_apply, Outcome.andThen_of_error hr]
  | ok a => rw [memoryCalls_bind hr, memoryCalls_of_only (h a), List.append_nil]

end MemoryCalls

/-! ### Decoding and strings -/

/-- Run a decoder on a buffer; what it throws is thrown. -/
def decodeFrom {σ α : Type} (d : Wire.Decoder α) (buf : MsgBuf) : Prog σ α :=
  match d buf.cbegin with
  | .ok (a, _) => return a
  | .error e => Exec.stop (.thrown (.bufferError e))

lemma decodeFrom_ok {σ α : Type} {d : Wire.Decoder α} {buf : MsgBuf} {a : α} {c : Wire.Cursor}
    (h : d buf.cbegin = .ok (a, c)) (s : σ) :
    (decodeFrom d buf : Prog σ α) s = ⟨[], s, .ok a⟩ := by
  rw [decodeFrom]
  rw [h]
  rfl

lemma decodeFrom_error {σ α : Type} {d : Wire.Decoder α} {buf : MsgBuf} {e : Wire.DecodeError}
    (h : d buf.cbegin = .error e) (s : σ) :
    (decodeFrom d buf : Prog σ α) s = ⟨[], s, .error (.thrown (.bufferError e))⟩ := by
  rw [decodeFrom]
  rw [h]
  rfl

lemma decodeFrom_only {σ α : Type} {K : Call → Prop} (d : Wire.Decoder α) (buf : MsgBuf) :
    Exec.Only K (decodeFrom d buf : Prog σ α) := by
  rw [decodeFrom]
  rcases d buf.cbegin with e | ⟨a, c⟩
  · exact .stop _
  · exact .ret a

lemma sat_decodeFrom {σ α : Type} {P : σ → Prop} {C : σ → Call → Prop} (d : Wire.Decoder α)
    (buf : MsgBuf) : Exec.Sat P C (decodeFrom d buf) fun _ s => P s := by
  rw [decodeFrom]
  rcases d buf.cbegin with e | ⟨a, c⟩
  · exact .stop fun s hs => hs
  · exact .ret fun s hs => hs

/-- The bytes a C function sees behind `c_str()`: those before the first NUL. -/
def cStr (s : Bytes) : Bytes := s.takeWhile (· ≠ 0)

/-- The bytes of an ASCII string literal. -/
def ascii (s : String) : Bytes := s.toList.map fun c => UInt8.ofNat c.toNat

end RpmaReplica
