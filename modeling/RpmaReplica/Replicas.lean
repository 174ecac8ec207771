import RpmaReplica.FileSystem
import RpmaReplica.Serving

/-!
# Replicas and dropped connections

A replica lives in a file, and outlives the connections that use it.  Here a server has any
number of connections at a time, each of which serves requests and is dropped without ever
finishing, and stores into the regions arrive at any time.

On the way to the files there is little that can go wrong: a request other than FINISHED makes
at most the calls of one `init` (`MemoryUse`), and a destructor only gives memory back.  So
files keep their identity and length, only stores change their content, and whoever maps the
same path again gets the same file.
-/

namespace RpmaReplica

namespace RPMAHandler

/-! ### What a request does with memory -/

/-- The message is a FINISHED request. -/
def finishes (content : MsgBuf) : Bool :=
  match RwlReplicaRequest.decode content.cbegin with
  | .ok (req, _) => req.type = rwlReplicaFinishedRequest
  | .error _ => false

/-- What a request other than FINISHED does with memory: nothing, or `init`. -/
inductive MemoryUse (env : ServeEnv) (h : RPMAHandler) : List Call → MemoryManager → Prop
  | none : MemoryUse env h [] h.dataManager
  | init {init : RwlReplicaInitRequest} {c : Wire.Cursor}
      (hinit : RwlReplicaInitRequest.decode h.recvBl.cbegin = .ok (init, c))
      (hdata : h.dataManager.data = .none) :
      MemoryUse env h
        (MemoryManager.initCalls env.mem init.info.cacheSize (poolPath init.info))
        (MemoryManager.init env.mem init.info.cacheSize (poolPath init.info) h.dataManager).state

lemma register_memory (env : MrEnv) (op : RpmaOpcode) (h : RPMAHandler) :
    memoryCalls (registerMrToDescriptor env op h).calls = [] ∧
      (registerMrToDescriptor env op h).state.dataManager = h.dataManager :=
  ⟨memoryCalls_of_only ((register_only env op).mono fun _ => Call.not_isMemory_of_isRegistration) h,
    (registration env op h).dataManager⟩

/-- An INIT request on a connection without memory makes the calls of `init`. -/
lemma getDescriptorForWrite_init (env : ServeEnv) {h : RPMAHandler} {init : RwlReplicaInitRequest}
    {c : Wire.Cursor} (hinit : RwlReplicaInitRequest.decode h.recvBl.cbegin = .ok (init, c))
    (hdata : h.dataManager.data = none) :
    memoryCalls (getDescriptorForWrite env h).calls =
        MemoryManager.initCalls env.mem init.info.cacheSize (poolPath init.info) ∧
      (getDescriptorForWrite env h).state.dataManager =
        (MemoryManager.init env.mem init.info.cacheSize (poolPath init.info)
          h.dataManager).state := by
  have hcalls := memoryCalls_zoom manager
    (MemoryManager.init_only env.mem init.info.cacheSize (poolPath init.info)) h
  rw [getDescriptorForWrite, ← MemoryManager.init_calls env.mem h.dataManager]
  simp only [Exec.bind_apply, Exec.read_apply, Outcome.andThen_ok, List.nil_append]
  rw [decodeFrom_ok hinit]
  simp only [Outcome.andThen_ok, List.nil_append, if_pos hdata]
  cases hr : (Exec.zoom manager (MemoryManager.init env.mem init.info.cacheSize
      (poolPath init.info)) h).result with
  | error e =>
      rw [Exec.bind_apply, Outcome.andThen_of_error hr, hcalls]
      exact ⟨rfl, rfl⟩
  | ok u =>
      obtain ⟨hnone, hman⟩ := register_memory env.mr .flush (Exec.zoom manager
        (MemoryManager.init env.mem init.info.cacheSize (poolPath init.info)) h).state
      rw [memoryCalls_bind hr, hcalls, hnone, List.append_nil, Exec.bind_apply,
        Outcome.andThen_of_ok hr, hman]
      exact ⟨rfl, rfl⟩

lemma getDescriptorForWrite_memoryUse (env : ServeEnv) (h : RPMAHandler) :
    MemoryUse env h (memoryCalls (getDescriptorForWrite env h).calls)
      (getDescriptorForWrite env h).state.dataManager := by
  rcases hinit : RwlReplicaInitRequest.decode h.recvBl.cbegin with e | ⟨init, c⟩
  · rw [getDescriptorForWrite]
    simp only [Exec.bind_apply, Exec.read_apply, Outcome.andThen_ok, List.nil_append]
    rw [decodeFrom_error hinit]
    exact .none
  by_cases hdata : h.dataManager.data = none
  · obtain ⟨hcalls, hman⟩ := getDescriptorForWrite_init env hinit hdata
    rw [hcalls, hman]
    exact .init hinit hdata
  · obtain ⟨hnone, hman⟩ := register_memory env.mr .flush h
    rw [getDescriptorForWrite]
    simp only [Exec.bind_apply, Exec.read_apply, Outcome.andThen_ok, List.nil_append]
    rw [decodeFrom_ok hinit]
    simp only [Outcome.andThen_ok, List.nil_append]
    rw [if_neg hdata, hnone, hman]
    exact .none

/-- `get_descriptor` on a request whose type can be read. -/
lemma getDescriptor_eq (env : ServeEnv) {h : RPMAHandler} {req : RwlReplicaRequest}
    {c : Wire.Cursor} (hreq : RwlReplicaRequest.decode h.recvBl.cbegin = .ok (req, c)) :
    getDescriptor env h =
      (if req.type = rwlReplicaInitRequest then getDescriptorForWrite env
        else if req.type = rwlReplicaFinishedRequest then close env else return -1) h := by
  rw [getDescriptor]
  simp only [Exec.bind_apply, Exec.read_apply, Outcome.andThen_ok, List.nil_append]
  rw [decodeFrom_ok hreq]
  simp

lemma getDescriptor_memoryUse (env : ServeEnv) {h : RPMAHandler}
    (hfin : finishes h.recvBl = false) :
    MemoryUse env h (memoryCalls (getDescriptor env h).calls)
      (getDescriptor env h).state.dataManager := by
  rcases hreq : RwlReplicaRequest.decode h.recvBl.cbegin with e | ⟨req, c⟩
  · rw [getDescriptor]
    simp only [Exec.bind_apply, Exec.read_apply, Outcome.andThen_ok, List.nil_append]
    rw [decodeFrom_error hreq]
    exact .none
  · rw [getDescriptor_eq env hreq]
    split
    · exact getDescriptorForWrite_memoryUse env h
    · have htype : req.type ≠ rwlReplicaFinishedRequest := by simpa [finishes, hreq] using hfin
      rw [if_neg htype]
      exact .none

/-- What follows `get_descriptor` in `deal_require` does nothing with memory. -/
lemma dealRequire_memory (env : ServeEnv) (h : RPMAHandler) :
    memoryCalls (dealRequire env h).calls = memoryCalls (getDescriptor env h).calls ∧
      (dealRequire env h).state.dataManager = (getDescriptor env h).state.dataManager := by
  constructor
  · rw [dealRequire, memoryCalls_bind_only fun _ => ?_]
    refine .zoom _ (receiveAndReply_only ?_ ?_ ?_ id)
    all_goals exact fun _ => id
  · rw [dealRequire, Exec.bind_apply]
    cases hr : (getDescriptor env h).result with
    | error e => rw [Outcome.andThen_of_error hr]
    | ok ret =>
        rw [Outcome.andThen_of_ok hr]
        exact (zoom_receiveAndReply env.recv env.send (getDescriptor env h).state).2.1.dataManager

/-- A destructor gives memory back and does nothing else to the files. -/
lemma destroy_files (h : RPMAHandler) (new : Creation) (files : FileSystem) :
    files.calls new ((destroy h).calls.map Prod.snd) = some files := by
  obtain ⟨hr, hs⟩ := resetDataMr_eq none h
  have htail : ∀ _u : Unit, Exec.Only (fun c => ¬c.IsMemory)
      (Exec.zoom base ConnectionHandler.destroy : Prog RPMAHandler Unit) :=
    fun _ => .zoom _ (ConnectionHandler.destroy_only fun _ => id)
  have hcalls : memoryCalls (destroy h).calls =
      (MemoryManager.destroy h.dataManager).calls.map Prod.snd := by
    rw [destroy, memoryCalls_bind hr, memoryCalls_of_only
      ((resetDataMr_only none).mono fun _ => Call.not_isMemory_of_isRegistration),
      List.nil_append, hs, memoryCalls_bind_only htail,
      memoryCalls_zoom manager MemoryManager.destroy_only]
    rfl
  rw [← FileSystem.calls_memoryCalls, hcalls, MemoryManager.destroy_calls]
  cases h.dataManager.data with
  | none => rfl
  | some addr =>
      rw [Option.map_some, Option.toList_some, FileSystem.calls_cons, MemoryManager.releaseCall]
      cases h.dataManager.isPmem <;> rfl

end RPMAHandler

/-! ### Connections that come and go -/

/-- A byte stored into a mapped file. -/
structure Store where
  path : Bytes
  off : ℕ
  byte : UInt8

/-- The content of the file at `path` after some stores. -/
def stored (path : Bytes) (stores : List Store) (content : ℕ → UInt8) : ℕ → UInt8 :=
  stores.foldl (fun c w => if w.path = path then Function.update c w.off w.byte else c) content

/-- A server: the files, the connections by number, and the stores made so far. -/
structure Replicas where
  files : FileSystem
  conns : ℕ → Option RPMAHandler
  log : List Store

/-- What can happen to the server: a connection is made, a request arrives on one, a byte is
stored through the region of one, a connection is dropped. -/
inductive ReplicasAct
  | connect (i : ℕ) (sendBl recvBl : MsgBuf) (size : UInt64)
  | request (i : ℕ) (content : MsgBuf) (env : ServeEnv) (new : Creation)
  | store (i : ℕ) (off : ℕ) (byte : UInt8)
  | destroy (i : ℕ) (new : Creation)

/-- What an action stores, and where in the file. -/
def ReplicasAct.stores : ReplicasAct → Option (ℕ × UInt8)
  | .store _ off byte => some (off, byte)
  | _ => none

namespace Replicas

open RPMAHandler

/-- A server without connections. -/
def start (files : FileSystem) : Replicas := ⟨files, fun _ => none, []⟩

/-- `deal_require` on a connection in whose buffer a request has arrived. -/
def deal (h : RPMAHandler) (content : MsgBuf) (env : ServeEnv) :
    Outcome Call Stop RPMAHandler Unit :=
  dealRequire env { h with recvBl := content }

/-- A pmem region is held. -/
def HoldsPmem (h : RPMAHandler) : Prop := h.dataManager.data ≠ none ∧ h.dataManager.isPmem = true

instance (h : RPMAHandler) : Decidable (HoldsPmem h) := inferInstanceAs (Decidable (_ ∧ _))

/-- A byte is stored through the region of a connection, that is into the file behind it. -/
def put (s : Replicas) (h : RPMAHandler) (off : ℕ) (byte : UInt8) : Replicas where
  files := Function.update s.files (cStr h.dataManager.path)
    ((s.files (cStr h.dataManager.path)).map fun f =>
      { f with content := Function.update f.content off byte })
  conns := s.conns
  log := s.log ++ [⟨cStr h.dataManager.path, off, byte⟩]

/-- Any number of connections, none of which gets a FINISHED request. -/
def machine : Machine Replicas ReplicasAct where
  step s
    | .connect i sendBl recvBl size =>
      if (s.conns i).isNone then
        some { s with
          conns := Function.update s.conns i (some (RPMAHandler.create sendBl recvBl size)) }
      else none
    | .request i content env new =>
      (s.conns i).bind fun h =>
        if finishes content then none
        else
          (s.files.calls new ((deal h content env).calls.map Prod.snd)).map fun files =>
            { s with
              files := files
              conns := Function.update s.conns i (some (deal h content env).state) }
    | .store i off byte =>
      (s.conns i).bind fun h =>
        if HoldsPmem h ∧ off < h.dataManager.size.toNat then some (s.put h off byte) else none
    | .destroy i new =>
      (s.conns i).bind fun h =>
        (s.files.calls new ((RPMAHandler.destroy h).calls.map Prod.snd)).map fun files =>
          { s with files := files, conns := Function.update s.conns i none }

lemma step_request {s t : Replicas} {i : ℕ} {content : MsgBuf} {env : ServeEnv} {new : Creation}
    (h : machine.step s (.request i content env new) = some t) :
    ∃ k files, s.conns i = some k ∧ finishes content = false ∧
      s.files.calls new ((deal k content env).calls.map Prod.snd) = some files ∧
      t = { s with
        files := files, conns := Function.update s.conns i (some (deal k content env).state) } := by
  simp only [machine, Option.bind_eq_some_iff, Option.ite_none_left_eq_some,
    Option.map_eq_some_iff] at h
  obtain ⟨k, hk, hfin, files, hfiles, rfl⟩ := h
  exact ⟨k, files, hk, by simpa using hfin, hfiles, rfl⟩

/-- What a step is. -/
lemma step_cases {s t : Replicas} {a : ReplicasAct} (h : machine.step s a = some t) :
    (∃ i k, t = { s with conns := Function.update s.conns i (some k) } ∧ ¬HoldsPmem k) ∨
    (∃ i k content env new files, s.conns i = some k ∧ finishes content = false ∧
      s.files.calls new ((deal k content env).calls.map Prod.snd) = some files ∧
      t = { s with
        files := files, conns := Function.update s.conns i (some (deal k content env).state) }) ∨
    (∃ i k off byte, s.conns i = some k ∧ HoldsPmem k ∧ t = s.put k off byte) ∨
    (∃ i, t = { s with conns := Function.update s.conns i none }) := by
  cases a with
  | connect i sendBl recvBl size =>
      left
      simp only [machine, Option.ite_none_right_eq_some, Option.some.injEq] at h
      exact ⟨i, _, h.2.symm, fun hk => hk.1 rfl⟩
  | request i content env new =>
      right
      left
      obtain ⟨k, files, hk, hfin, hfiles, rfl⟩ := step_request h
      exact ⟨i, k, content, env, new, files, hk, hfin, hfiles, rfl⟩
  | store i off byte =>
      right
      right
      left
      simp only [machine, Option.bind_eq_some_iff, Option.ite_none_right_eq_some,
        Option.some.injEq] at h
      obtain ⟨k, hk, ⟨hpmem, -⟩, rfl⟩ := h
      exact ⟨i, k, off, byte, hk, hpmem, rfl⟩
  | destroy i new =>
      right
      right
      right
      simp only [machine, Option.bind_eq_some_iff, Option.map_eq_some_iff, destroy_files,
        Option.some.injEq] at h
      obtain ⟨k, hk, files, rfl, rfl⟩ := h
      exact ⟨i, rfl⟩

/-! ### What a request does to the files -/

/-- The region of a manager comes from a call that mapped the file at its path: the file that
was there, as it is, or else one that was created with the length of the region. -/
structure MappedBy (cs : List Call) (before after : FileSystem) (m : MemoryManager)
    (mapping : Mapping) : Prop where
  call : .pmemMapFile (cStr m.path) (if (before (cStr m.path)).isSome then 0 else m.size)
    (before (cStr m.path)).isNone (some mapping) ∈ cs
  data : m.data = some mapping.addr
  len : mapping.len = m.size
  file : ∃ f, after (cStr m.path) = some f ∧ f.len = m.size

/-- An `init` leaves existing files as they are; and if it takes a mapping, it is one of the
file that is then at its path. -/
lemma init_keeps {env : MemEnv} {size : UInt64} {path : Bytes} {new : Creation}
    {fs fs' : FileSystem}
    (h : fs.calls new (MemoryManager.initCalls env size path) = some fs') (m : MemoryManager) :
    (∀ p f, fs p = some f → fs' p = some f) ∧
    ((MemoryManager.init env size path m).state.data ≠ none →
      (MemoryManager.init env size path m).state.isPmem = true →
      ∃ mapping, MappedBy (MemoryManager.initCalls env size path) fs fs'
        (MemoryManager.init env size path m).state mapping) := by
  have hfiles := MemoryManager.init_files h
  constructor
  · intro p f hf
    rcases hfiles with ⟨g, -, -, rfl, -⟩ | ⟨hnone, -, -, rfl⟩
    · exact hf
    · have hne : p ≠ cStr (MemoryManager.mountPath path) := by
        rintro rfl
        simp [hnone] at hf
      rw [Function.update_of_ne hne, hf]
  · intro hdata hpmem
    rcases MemoryManager.init_cases env m size path with ⟨f, hacc, -, hst⟩ |
      ⟨a, -, -, -, hst⟩ | ⟨-, -, -, hst⟩
    · obtain ⟨hf, -, hlen⟩ := Region.accepted_eq_some hacc
      rw [hst]
      have hmem : Call.pmemMapFile (cStr (MemoryManager.mountPath path))
          (if env.access then 0 else size) (!env.access) (some f) ∈
            MemoryManager.initCalls env size path := by
        rw [MemoryManager.initCalls, hf]
        simp
      rcases hfiles with ⟨g, hg, haccess, rfl, hlen'⟩ | ⟨hnone, haccess, -, rfl⟩
      · exact ⟨f, by simpa [hg, haccess] using hmem, rfl, hlen, g, hg,
          (hlen' f hf).symm.trans hlen⟩
      · exact ⟨f, by simpa [hnone, haccess] using hmem, rfl, hlen, FileSystem.created new size,
          by rw [Function.update_self, hf], rfl⟩
    · simp [hst] at hpmem
    · simp [hst] at hdata

/-- What a request other than FINISHED does to the files and to the region. -/
structure Kept (k : RPMAHandler) (content : MsgBuf) (env : ServeEnv)
    (before after : FileSystem) : Prop where
  files : ∀ p f, before p = some f → after p = some f
  region : (deal k content env).state.dataManager = k.dataManager ∨
    ∃ init c, RwlReplicaInitRequest.decode content.cbegin = .ok (init, c) ∧
      (deal k content env).state.dataManager.path =
        MemoryManager.mountPath (poolPath init.info) ∧
      (deal k content env).state.dataManager.size = init.info.cacheSize ∧
      (HoldsPmem (deal k content env).state →
        ∃ mapping, MappedBy ((deal k content env).calls.map Prod.snd) before after
          (deal k content env).state.dataManager mapping)

lemma deal_kept {k : RPMAHandler} {content : MsgBuf} {env : ServeEnv} {new : Creation}
    {fs files : FileSystem} (hfin : finishes content = false)
    (h : fs.calls new ((deal k content env).calls.map Prod.snd) = some files) :
    Kept k content env fs files := by
  have huse : MemoryUse env { k with recvBl := content } (memoryCalls (deal k content env).calls)
      (deal k content env).state.dataManager := by
    obtain ⟨hcalls, hman⟩ := dealRequire_memory env { k with recvBl := content }
    rw [deal, hcalls, hman]
    exact getDescriptor_memoryUse env hfin
  have hsub : ∀ c ∈ memoryCalls (deal k content env).calls,
      c ∈ (deal k content env).calls.map Prod.snd := fun c hc => (List.mem_filter.1 hc).1
  rw [← FileSystem.calls_memoryCalls] at h
  obtain ⟨cs, hcs⟩ : ∃ cs, cs = memoryCalls (deal k content env).calls := ⟨_, rfl⟩
  obtain ⟨m, hm⟩ : ∃ m, m = (deal k content env).state.dataManager := ⟨_, rfl⟩
  rw [← hcs] at huse hsub h
  rw [← hm] at huse
  cases huse with
  | none =>
      obtain rfl := Option.some.inj h
      exact ⟨fun _ _ hf => hf, .inl hm.symm⟩
  | init hinit hdata =>
      obtain ⟨hfiles, hmapped⟩ := init_keeps h k.dataManager
      obtain ⟨hpath, hsize⟩ := MemoryManager.init_named env.mem k.dataManager _ _
      refine ⟨hfiles, .inr ⟨_, _, hinit, hm ▸ hpath, hm ▸ hsize, ?_⟩⟩
      rintro ⟨hne, hpmem⟩
      rw [← hm] at hne hpmem ⊢
      obtain ⟨mapping, hmap⟩ := hmapped hne hpmem
      exact ⟨mapping, hsub _ hmap.call, hmap.data, hmap.len, hmap.file⟩

/-! ### Runs -/

/-- Every file of `s` is still there in `t`, with the same length, and with the content that
the stores made since have left in it. -/
def Survives (s t : Replicas) : Prop :=
  ∃ stores, t.log = s.log ++ stores ∧
    ∀ p f, s.files p = some f → t.files p = some { f with content := stored p stores f.content }

lemma Survives.refl (s : Replicas) : s.Survives s :=
  ⟨[], by simp, fun p f hf => hf⟩

lemma Survives.trans {s t u : Replicas} (h : s.Survives t) (h' : t.Survives u) : s.Survives u := by
  obtain ⟨ws, hlog, hfiles⟩ := h
  obtain ⟨ws', hlog', hfiles'⟩ := h'
  refine ⟨ws ++ ws', by rw [hlog', hlog, List.append_assoc], fun p f hf => ?_⟩
  rw [hfiles' p _ (hfiles p f hf)]
  simp only [stored, List.foldl_append]

lemma survives_put (s : Replicas) (k : RPMAHandler) (off : ℕ) (byte : UInt8) :
    s.Survives (s.put k off byte) := by
  refine ⟨[⟨cStr k.dataManager.path, off, byte⟩], rfl, fun p f hf => ?_⟩
  by_cases hp : cStr k.dataManager.path = p
  · subst hp
    simp [put, hf, stored]
  · simp [put, Function.update_of_ne (Ne.symm hp), hf, stored, hp]

lemma survives_step {s t : Replicas} {a : ReplicasAct} (h : machine.step s a = some t) :
    s.Survives t := by
  rcases step_cases h with ⟨i, k, rfl, -⟩ |
    ⟨i, k, content, env, new, files, hk, hfin, hfiles, rfl⟩ |
    ⟨i, k, off, byte, -, -, rfl⟩ | ⟨i, rfl⟩
  · exact ⟨[], by simp, fun p f hf => hf⟩
  · exact ⟨[], by simp, fun p f hf => (deal_kept hfin hfiles).files p f hf⟩
  · exact survives_put s k off byte
  · exact ⟨[], by simp, fun p f hf => hf⟩

lemma survives_run {s t : Replicas} {as : List ReplicasAct} (h : machine.Run s as t) :
    s.Survives t := by
  induction h with
  | nil => exact .refl s
  | snoc _ hstep ih => exact ih.trans (survives_step hstep)

/-- The log tells what the actions have stored, one entry for each. -/
lemma log_step {s t : Replicas} {a : ReplicasAct} (h : machine.step s a = some t) :
    ∃ ws, t.log = s.log ++ ws ∧ ws.map (fun w => (w.off, w.byte)) = a.stores.toList := by
  cases a with
  | connect i sendBl recvBl size =>
      simp only [machine, Option.ite_none_right_eq_some, Option.some.injEq] at h
      obtain ⟨-, rfl⟩ := h
      exact ⟨[], (List.append_nil _).symm, rfl⟩
  | request i content env new =>
      obtain ⟨k, files, -, -, -, rfl⟩ := step_request h
      exact ⟨[], (List.append_nil _).symm, rfl⟩
  | store i off byte =>
      simp only [machine, Option.bind_eq_some_iff, Option.ite_none_right_eq_some,
        Option.some.injEq] at h
      obtain ⟨k, -, -, rfl⟩ := h
      exact ⟨[⟨cStr k.dataManager.path, off, byte⟩], rfl, rfl⟩
  | destroy i new =>
      simp only [machine, Option.bind_eq_some_iff, Option.map_eq_some_iff] at h
      obtain ⟨k, -, files, -, rfl⟩ := h
      exact ⟨[], (List.append_nil _).symm, rfl⟩

lemma log_run {s t : Replicas} {as : List ReplicasAct} (h : machine.Run s as t) :
    ∃ ws, t.log = s.log ++ ws ∧
      ws.map (fun w => (w.off, w.byte)) = as.filterMap ReplicasAct.stores := by
  induction h with
  | nil => exact ⟨[], (List.append_nil _).symm, rfl⟩
  | @snoc t u as a _ hstep ih =>
      obtain ⟨ws, hlog, hws⟩ := ih
      obtain ⟨ws', hlog', hws'⟩ := log_step hstep
      refine ⟨ws ++ ws', by rw [hlog', hlog, List.append_assoc], ?_⟩
      rw [List.map_append, hws, hws', List.filterMap_append]
      cases hstores : a.stores <;> simp [hstores]

/-- Behind every pmem region there is a file of its length. -/
def Backed (s : Replicas) : Prop :=
  ∀ i k, s.conns i = some k → HoldsPmem k →
    ∃ f, s.files (cStr k.dataManager.path) = some f ∧ f.len = k.dataManager.size

lemma Backed.step {s t : Replicas} {a : ReplicasAct} (h : s.Backed)
    (hstep : machine.step s a = some t) : t.Backed := by
  obtain ⟨ws, -, hfiles⟩ := survives_step hstep
  -- the regions of before are backed as before
  have hold : ∀ i k, s.conns i = some k → HoldsPmem k →
      ∃ f, t.files (cStr k.dataManager.path) = some f ∧ f.len = k.dataManager.size := by
    intro i k hk hpmem
    obtain ⟨f, hf, hlen⟩ := h i k hk hpmem
    exact ⟨_, hfiles _ f hf, hlen⟩
  intro j k' hk' hpmem
  rcases step_cases hstep with ⟨i, k, rfl, hno⟩ |
    ⟨i, k, content, env, new, files, hk, hfin, hcalls, rfl⟩ |
    ⟨i, k, off, byte, -, -, rfl⟩ | ⟨i, rfl⟩
  · by_cases hji : j = i
    · subst hji
      simp only [Function.update_self, Option.some.injEq] at hk'
      exact absurd (hk' ▸ hpmem) hno
    · simp only [Function.update_of_ne hji] at hk'
      exact hold j k' hk' hpmem
  · by_cases hji : j = i
    · subst hji
      simp only [Function.update_self, Option.some.injEq] at hk'
      subst hk'
      rcases (deal_kept hfin hcalls).region with heq | ⟨-, -, -, -, -, hmapped⟩
      · have hpmem' : HoldsPmem k := by
          rw [HoldsPmem, heq] at hpmem
          exact hpmem
        rw [heq]
        exact hold j k hk hpmem'
      · obtain ⟨mapping, -, -, -, hfile⟩ := hmapped hpmem
        exact hfile
    · simp only [Function.update_of_ne hji] at hk'
      exact hold j k' hk' hpmem
  · exact hold j k' hk' hpmem
  · by_cases hji : j = i
    · subst hji
      simp at hk'
    · simp only [Function.update_of_ne hji] at hk'
      exact hold j k' hk' hpmem

/-- **Replicas survive dropped connections.**  Whatever connections come and go, whatever
requests other than FINISHED they serve and whatever is stored: every file is still there
later, the same file, of the same length, with the content that the stores of the run have left in
it; and if a connection held a pmem region of some path and size, then a later connection that
asks for the same path and size, and whose mapping succeeds as pmem, gets a region of that
size that maps that same file as it is then. -/
theorem replicas_survive (files : FileSystem) (as bs : List ReplicasAct) (s t : Replicas)
    (hs : machine.Run (start files) as s) (ht : machine.Run s bs t) :
    ∃ stores, t.log = s.log ++ stores ∧
      stores.map (fun w => (w.off, w.byte)) = bs.filterMap ReplicasAct.stores ∧
      (∀ p f, s.files p = some f →
        t.files p = some { f with content := stored p stores f.content }) ∧
      (∀ i k, s.conns i = some k → HoldsPmem k →
        ∃ f, s.files (cStr k.dataManager.path) = some f ∧ f.len = k.dataManager.size ∧
        ∀ j k' content init c env new u, t.conns j = some k' → k'.dataManager.data = none →
          RwlReplicaInitRequest.decode content.cbegin = .ok (init, c) →
          MemoryManager.mountPath (poolPath init.info) = k.dataManager.path →
          init.info.cacheSize = k.dataManager.size →
          machine.step t (.request j content env new) = some u →
          HoldsPmem (deal k' content env).state →
          u.conns j = some (deal k' content env).state ∧
          (deal k' content env).state.dataManager.path = k.dataManager.path ∧
          (deal k' content env).state.dataManager.size = k.dataManager.size ∧
          u.files (cStr k.dataManager.path) =
            some { f with content := stored (cStr k.dataManager.path) stores f.content } ∧
          ∃ mapping, .pmemMapFile (cStr k.dataManager.path) 0 false (some mapping) ∈
              (deal k' content env).calls.map Prod.snd ∧
            mapping.len = k.dataManager.size ∧
            (deal k' content env).state.dataManager.data = some mapping.addr) := by
  obtain ⟨stores, hlog, hkept⟩ := survives_run ht
  obtain ⟨ws, hlog', hws⟩ := log_run ht
  obtain rfl : ws = stores := List.append_cancel_left (hlog'.symm.trans hlog)
  have hbacked : s.Backed := by
    refine machine.invariant ?_ (fun s a u h hs => h.step hs) hs
    intro i k hk
    simp [start] at hk
  refine ⟨ws, hlog, hws, hkept, fun i k hk hpmem => ?_⟩
  obtain ⟨f, hf, hlen⟩ := hbacked i k hk hpmem
  refine ⟨f, hf, hlen, ?_⟩
  intro j k' content init c env new u hk' hdata hinit hpath hsize hstep hpmem'
  obtain ⟨k₁, files', hk₁, hfin, hcalls, rfl⟩ := step_request hstep
  obtain rfl := Option.some.inj (hk'.symm.trans hk₁)
  have hnow := hkept _ f hf
  have hkeep := deal_kept hfin hcalls
  rcases hkeep.region with heq | ⟨init', c', hinit', hpath', hsize', hmapped⟩
  · -- nothing was mapped, but then there is no region
    exact absurd (heq ▸ hdata) hpmem'.1
  · obtain ⟨rfl, -⟩ := Prod.mk.inj (Except.ok.inj (hinit.symm.trans hinit'))
    rw [hpath] at hpath'
    rw [hsize] at hsize'
    obtain ⟨mapping, hmap⟩ := hmapped hpmem'
    have hcall := hmap.call
    rw [hpath', hnow] at hcall
    exact ⟨Function.update_self _ _ _, hpath', hsize', hkeep.files _ _ hnow, mapping, hcall,
      hmap.len.trans hsize', hmap.data⟩

/-- A server with pmem, on which 64 bytes are mapped at `addr` from the file that is there
(`access`) or from a new one. -/
def withPmem (access : Bool) (addr : Addr) : ServeEnv :=
  ⟨⟨access, some ⟨addr, 64, true⟩, none, 0⟩, workingMr [7], .ok (), .ok (), .ok ()⟩

/-- The path of the replica of `sampleInit`. -/
def samplePath : Bytes := MemoryManager.mountPath (poolPath sampleInit.info)

lemma finishes_sample : finishes sampleContent = false := by
  obtain ⟨⟨c, hreq⟩, -⟩ := decode_holding_init sampleInit length_sampleInit
  have htype : sampleInit.type ≠ rwlReplicaFinishedRequest := by decide
  rw [finishes, sampleContent, hreq]
  exact decide_eq_false htype

/-- A connection without memory that serves the request for 64 bytes on a server with pmem. -/
lemma deal_sample {k : RPMAHandler} (hdata : k.dataManager.data = none) (access : Bool)
    (addr : Addr) :
    memoryCalls (deal k sampleContent (withPmem access addr)).calls =
        MemoryManager.initCalls (withPmem access addr).mem 64 (poolPath sampleInit.info) ∧
      (deal k sampleContent (withPmem access addr)).state.dataManager =
        ⟨some addr, 64, true, samplePath⟩ := by
  obtain ⟨⟨c, hreq⟩, c', hinit⟩ := decode_holding_init sampleInit length_sampleInit
  obtain ⟨hcalls, hman⟩ := dealRequire_memory (withPmem access addr)
    { k with recvBl := sampleContent }
  have heq := getDescriptor_eq (withPmem access addr) (h := { k with recvBl := sampleContent })
    hreq
  obtain ⟨hcalls', hman'⟩ := getDescriptorForWrite_init (withPmem access addr)
    (h := { k with recvBl := sampleContent }) hinit hdata
  have htype : sampleInit.type = rwlReplicaInitRequest := rfl
  rw [if_pos htype] at heq
  rw [deal, hcalls, hman, heq, hcalls', hman']
  exact ⟨rfl, by cases access <;> rfl⟩

/-- The request for 64 bytes is served by a connection without memory. -/
lemma machine_sample {s : Replicas} (i : ℕ) {k : RPMAHandler} {files : FileSystem}
    (hk : s.conns i = some k) (hdata : k.dataManager.data = none) (access : Bool) (addr : Addr)
    (new : Creation)
    (hfiles : s.files.calls new (MemoryManager.initCalls (withPmem access addr).mem 64
      (poolPath sampleInit.info)) = some files) :
    machine.step s (.request i sampleContent (withPmem access addr) new) =
      some { s with
        files := files
        conns := Function.update s.conns i
          (some (deal k sampleContent (withPmem access addr)).state) } := by
  rw [← (deal_sample hdata access addr).1, FileSystem.calls_memoryCalls] at hfiles
  simp [machine, hk, finishes_sample, hfiles]

lemma machine_connect {s : Replicas} {i : ℕ} (h : s.conns i = none) (sendBl recvBl : MsgBuf)
    (size : UInt64) :
    machine.step s (.connect i sendBl recvBl size) = some { s with
      conns := Function.update s.conns i (some (RPMAHandler.create sendBl recvBl size)) } := by
  simp [machine, h]

lemma machine_destroy {s : Replicas} {i : ℕ} {k : RPMAHandler} (h : s.conns i = some k)
    (new : Creation) :
    machine.step s (.destroy i new) = some { s with conns := Function.update s.conns i none } := by
  simp [machine, h, destroy_files]

lemma machine_store {s : Replicas} {i : ℕ} {k : RPMAHandler} (h : s.conns i = some k)
    (hpmem : HoldsPmem k) (off : ℕ) (hoff : off < k.dataManager.size.toNat) (byte : UInt8) :
    machine.step s (.store i off byte) = some (s.put k off byte) := by
  simp [machine, h, hpmem, hoff]

/-- A connection makes a replica, stores a byte and is dropped, and the next one maps the same file
again, with the byte in it. -/
theorem replica_found_again :
    ∃ s t u f, machine.Run (start fun _ => none)
        [.connect 0 .zero .zero 0, .request 0 sampleContent (withPmem false 16) ⟨1, none⟩] s ∧
      machine.Run s [.store 0 5 7, .destroy 0 ⟨2, none⟩, .connect 1 .zero .zero 0] t ∧
      machine.step t (.request 1 sampleContent (withPmem true 32) ⟨3, none⟩) = some u ∧
      u.files (cStr samplePath) = some f ∧ f.id = 1 ∧ f.len = 64 ∧ f.content 5 = 7 := by
  obtain ⟨k₀, hk₀⟩ : ∃ k₀, k₀ = RPMAHandler.create .zero .zero 0 := ⟨_, rfl⟩
  have hdata : k₀.dataManager.data = none := by rw [hk₀]; rfl
  obtain ⟨k₁, hk₁⟩ : ∃ k₁, k₁ = (deal k₀ sampleContent (withPmem false 16)).state := ⟨_, rfl⟩
  have hman₁ := (deal_sample hdata false 16).2
  have hman₂ := (deal_sample hdata true 32).2
  obtain ⟨files, hfiles⟩ : ∃ files : FileSystem, files = Function.update (fun _ => none)
    (cStr samplePath) (some (FileSystem.created ⟨1, none⟩ 64)) := ⟨_, rfl⟩
  have hpath : files (cStr samplePath) = some (FileSystem.created ⟨1, none⟩ 64) := by
    rw [hfiles, Function.update_self]
  have hcreate : FileSystem.calls ⟨1, none⟩ (fun _ => none) (MemoryManager.initCalls
      (withPmem false 16).mem 64 (poolPath sampleInit.info)) = some files := by
    rw [hfiles]
    rfl
  have r₁ := (Machine.Run.nil (start fun _ => none)).snoc
    (machine_connect (i := 0) rfl .zero .zero 0)
  rw [← hk₀] at r₁
  have r₂ := r₁.snoc (machine_sample 0 (by simp) hdata false 16 ⟨1, none⟩ hcreate)
  rw [← hk₁] at r₂ hman₁
  obtain ⟨s, hs⟩ : ∃ s : Replicas, s = ⟨files,
    Function.update (Function.update (fun _ => none) 0 (some k₀)) 0 (some k₁), []⟩ := ⟨_, rfl⟩
  have hconn : s.conns 0 = some k₁ := by simp [hs]
  have hpmem : HoldsPmem k₁ := by rw [HoldsPmem, hman₁]; exact ⟨by simp, rfl⟩
  -- the byte is stored, the connection is dropped, and another one is made
  have q₁ := (Machine.Run.nil s).snoc
    (machine_store hconn hpmem 5 (by rw [hman₁]; decide) 7)
  have q₂ := q₁.snoc (machine_destroy (s := s.put k₁ 5 7) hconn ⟨2, none⟩)
  have q₃ := q₂.snoc (machine_connect (i := 1) (by simp [put, hs]) .zero .zero 0)
  rw [← hk₀] at q₃
  obtain ⟨t, ht⟩ : ∃ t : Replicas, t = { s.put k₁ 5 7 with
    conns := Function.update (Function.update (s.put k₁ 5 7).conns 0 none) 1 (some k₀) } :=
    ⟨_, rfl⟩
  rw [← ht] at q₃
  obtain ⟨ws, hlog, -, hkept, hfound⟩ := replicas_survive _ _ _ _ _ (hs ▸ r₂) q₃
  have hws : ws = [⟨cStr samplePath, 5, 7⟩] := by
    rw [ht, hs, put] at hlog
    rw [hman₁] at hlog
    exact hlog.symm
  have hfile : t.files (cStr samplePath) = some { FileSystem.created ⟨1, none⟩ 64 with
      content := stored (cStr samplePath) ws (FileSystem.created ⟨1, none⟩ 64).content } :=
    hkept _ _ (by rw [hs]; exact hpath)
  have hfind : t.files.calls ⟨3, none⟩ (MemoryManager.initCalls (withPmem true 32).mem 64
      (poolPath sampleInit.info)) = some t.files := by
    rw [samplePath] at hfile
    simp [MemoryManager.initCalls, withPmem, MemoryManager.accepted, FileSystem.call,
      FileSystem.mapFile, hfile, FileSystem.created]
    rfl
  have hconn' : t.conns 1 = some k₀ := by simp [ht]
  have hstep := machine_sample 1 hconn' hdata true 32 ⟨3, none⟩ hfind
  obtain ⟨⟨_, _⟩, _, hinit⟩ := decode_holding_init sampleInit length_sampleInit
  obtain ⟨f, hf, -, hagain⟩ := hfound 0 k₁ hconn hpmem
  obtain ⟨-, -, -, hu, -⟩ := hagain 1 k₀ sampleContent sampleInit _ _ _ _
    hconn' hdata hinit (by rw [hman₁]; rfl) (by rw [hman₁]; rfl) hstep
    (by rw [HoldsPmem, hman₂]; exact ⟨by simp, rfl⟩)
  rw [hman₁] at hf hu
  have hfile₀ : s.files (cStr samplePath) = some (FileSystem.created ⟨1, none⟩ 64) := by
    rw [hs]
    exact hpath
  obtain rfl : f = FileSystem.created ⟨1, none⟩ 64 := Option.some.inj (hf.symm.trans hfile₀)
  refine ⟨s, t, _, _, hs ▸ r₂, q₃, hstep, hu, rfl, rfl, ?_⟩
  rw [hws]
  simp [stored]

end Replicas

end RpmaReplica
