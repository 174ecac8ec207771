import RpmaReplica.Finishing
import RpmaReplica.Host
import RpmaReplica.Receives

/-!
# The files of a whole server

`Replicas` follows the files of a server on which nothing is ever finished.  Here connections
finish their replicas as well, on the server of `Host`, and two connections may have asked for the
same replica: they then map the same file, and the one that finishes removes it under the other.

A region stays with the file that was mapped, whatever becomes of the path.  So the state keeps,
for each connection, which file is behind its region (`mapped`), and a store gets into the file at
the path only if this is still the same one.

Three results.  The file at a path goes exactly when a connection that holds it finishes
(`file_survives_iff`).  As long as nobody finishes a replica under another one, every pmem region
for its path is the file that is there (`replica_shared_iff`).  And when somebody does, the others
keep a region that belongs to no file any more: whatever is stored through it later, also after the
replica has been made anew, is lost (`finished_under_others`).
-/

namespace RpmaReplica

open Exec

/-! ### What does not concern the region -/

lemma RPMAHandler.construct_dataManager (env : ConstructEnv) (h : RPMAHandler) :
    (construct env h).state.dataManager = h.dataManager := by
  have hbase : ∀ {ρ : Type} (m : Prog (ConnectionHandler ServerCallback) ρ),
      Sat (fun k : RPMAHandler => k.dataManager = h.dataManager) (fun _ _ => True) (zoom base m)
        fun _ k => k.dataManager = h.dataManager := fun m k hk => ⟨fun _ _ => trivial, hk⟩
  have hthrow : ∀ (what : String) (res : Rpma Unit),
      Sat (fun k : RPMAHandler => k.dataManager = h.dataManager) (fun _ _ => True)
        (orThrow what res) fun _ k => k.dataManager = h.dataManager := by
    intro what res
    cases res with
    | ok u => exact .ret fun _ hk => hk
    | error e => exact .stop fun _ hk => hk
  have hconstruct : Sat (fun k : RPMAHandler => k.dataManager = h.dataManager) (fun _ _ => True)
      (construct env) fun _ k => k.dataManager = h.dataManager := by
    refine Sat.seq (hbase _) (fun _ => ?_) fun _ _ hk => hk
    refine Sat.seq (hthrow _ _) (fun _ => ?_) fun _ _ hk => hk
    refine Sat.seq (hbase _) (fun _ => ?_) fun _ _ hk => hk
    refine Sat.seq (hthrow _ _) (fun _ => ?_) fun _ _ hk => hk
    exact Sat.seq (hthrow _ _) (fun _ => hbase _) fun _ _ hk => hk
  exact (hconstruct h rfl).2

namespace Life

lemma data_born {sendBl recvBl : MsgBuf} {size : UInt64} {env : ConstructEnv}
    (halive : (born sendBl recvBl size env).phase = .alive) :
    (born sendBl recvBl size env).watched.handler.dataManager.data = none := by
  cases hr : (RPMAHandler.construct env (RPMAHandler.blank sendBl recvBl size)).result with
  | ok u =>
      have hstate : (born sendBl recvBl size env).watched.handler =
          (RPMAHandler.construct env (RPMAHandler.blank sendBl recvBl size)).state := by
        show (RPMAHandler.new env (RPMAHandler.blank sendBl recvBl size)).state = _
        rw [RPMAHandler.new, unwinding, hr]
      rw [hstate, RPMAHandler.construct_dataManager]
      rfl
  | error e =>
      have herror : (zoom Watched.rpma (RPMAHandler.new env)
          (create sendBl recvBl size).watched).result = .error e := by
        show (RPMAHandler.new env (RPMAHandler.blank sendBl recvBl size)).result = _
        rw [RPMAHandler.new, unwinding, hr, ensuring_apply, hr]
      have hgone := phase_construct_error herror
      rw [born, hgone] at halive
      cases halive

lemma dataManager_waitFailed (l : Life) (e : RpmaError) :
    (l.waitFailed e).watched.handler.dataManager = l.watched.handler.dataManager := by
  show (ConnectionHandler.completionFailed Watched.conn e l.watched).state.handler.dataManager = _
  rw [ConnectionHandler.completionFailed]
  split <;> rfl

end Life

/-! ### What a request does to the files -/

namespace Replicas

open RPMAHandler

/-- What serving a request does to the files and to the region. -/
inductive Deals (k : RPMAHandler) (content : MsgBuf) (env : ServeEnv) (new : Creation)
    (fs : FileSystem) : FileSystem → MemoryManager → Prop
  | kept (hkept : finishes content = false ∨ k.dataManager.data = none) :
      Deals k content env new fs fs k.dataManager
  /-- FINISHED: the region goes, and the file at its path is removed, or cannot be. -/
  | finished {fs' : FileSystem} (hfin : finishes content = true)
      (hdata : k.dataManager.data ≠ none)
      (hremove : fs.removeFile (cStr k.dataManager.path) env.mem.remove = some fs') :
      Deals k content env new fs fs' { k.dataManager with data := none }
  /-- INIT on a connection without a region. -/
  | init {init : RwlReplicaInitRequest} {c : Wire.Cursor} {fs' : FileSystem}
      (hinit : RwlReplicaInitRequest.decode content.cbegin = .ok (init, c))
      (hdata : k.dataManager.data = none)
      (hcalls : fs.calls new (MemoryManager.initCalls env.mem init.info.cacheSize
        (poolPath init.info)) = some fs') :
      Deals k content env new fs fs' (MemoryManager.init env.mem init.info.cacheSize
        (poolPath init.info) k.dataManager).state

/-- A FINISHED request does with memory what `close_and_remove` does. -/
lemma deal_finished (k : RPMAHandler) {content : MsgBuf} (env : ServeEnv)
    (hfin : finishes content = true) :
    memoryCalls (deal k content env).calls =
        (MemoryManager.closeAndRemove env.mem k.dataManager).calls.map Prod.snd ∧
      (deal k content env).state.dataManager = { k.dataManager with data := none } := by
  obtain ⟨req, c, hreq, htype⟩ : ∃ req c,
      RwlReplicaRequest.decode content.cbegin = .ok (req, c) ∧
        req.type = rwlReplicaFinishedRequest := by
    rw [finishes] at hfin
    split at hfin
    next req c hreq => exact ⟨req, c, hreq, of_decide_eq_true hfin⟩
    next => cases hfin
  obtain ⟨hcalls, hman⟩ := dealRequire_memory env { k with recvBl := content }
  have heq := getDescriptor_eq env (h := { k with recvBl := content }) hreq
  rw [if_neg (htype ▸ by decide), if_pos htype] at heq
  rw [deal, hcalls, hman, heq, close_memoryCalls]
  exact ⟨rfl, (close_sends env { k with recvBl := content }).2.1.dataManager⟩

lemma deals {k : RPMAHandler} {content : MsgBuf} {env : ServeEnv} {new : Creation}
    {fs fs' : FileSystem} (h : fs.calls new ((deal k content env).calls.map Prod.snd) = some fs') :
    Deals k content env new fs fs' (deal k content env).state.dataManager := by
  obtain ⟨hcalls, hman⟩ := dealRequire_memory env { k with recvBl := content }
  rw [← FileSystem.calls_memoryCalls, deal, hcalls] at h
  rw [deal, hman]
  cases hfin : finishes content with
  | false =>
      have huse := getDescriptor_memoryUse env (h := { k with recvBl := content }) hfin
      obtain ⟨cs, hcs⟩ : ∃ cs, cs =
        memoryCalls (getDescriptor env { k with recvBl := content }).calls := ⟨_, rfl⟩
      obtain ⟨m, hm⟩ : ∃ m, m =
        (getDescriptor env { k with recvBl := content }).state.dataManager := ⟨_, rfl⟩
      rw [← hcs] at huse h
      rw [← hm] at huse ⊢
      cases huse with
      | none =>
          obtain rfl := Option.some.inj h
          exact .kept (.inl hfin)
      | init hinit hdata => exact .init hinit hdata h
  | true =>
      obtain ⟨hclose, hclosed⟩ := deal_finished k env hfin
      rw [deal, hcalls] at hclose
      rw [deal, hman] at hclosed
      rw [hclose] at h
      rw [hclosed]
      cases hdata : k.dataManager.data with
      | none =>
          rw [MemoryManager.closeAndRemove_calls, hdata] at h
          obtain rfl := Option.some.inj h
          have hsame : { k.dataManager with data := none } = k.dataManager := by rw [← hdata]
          rw [hsame]
          exact .kept (.inr hdata)
      | some addr =>
          rw [MemoryManager.closeAndRemove_files hdata] at h
          exact .finished hfin (by rw [hdata]; exact Option.some_ne_none addr) h

section Consequences

variable {k : RPMAHandler} {content : MsgBuf} {env : ServeEnv} {new : Creation}
  {fs fs' : FileSystem} {m : MemoryManager}

/-- A FINISHED request on a connection with a region for the path, and the file can be removed. -/
def RemovesAt (p : Bytes) (k : RPMAHandler) (content : MsgBuf) (env : ServeEnv) : Prop :=
  finishes content = true ∧ k.dataManager.data ≠ none ∧ cStr k.dataManager.path = p ∧
    env.mem.remove = 0

/-- `remove` on a file system. -/
lemma removeFile_cases {path : Bytes} {ret : ℤ} (h : fs.removeFile path ret = some fs') :
    (ret = 0 ∧ fs' = Function.update fs path none) ∨ (ret ≠ 0 ∧ fs' = fs) := by
  rw [FileSystem.removeFile] at h
  by_cases hret : ret = 0
  · cases hf : fs path with
    | none => simp [hf, hret] at h
    | some f =>
        simp only [hf, if_pos hret] at h
        exact .inl ⟨hret, (Option.some.inj h).symm⟩
  · refine .inr ⟨hret, ?_⟩
    cases hf : fs path <;> simp only [hf, if_neg hret] at h <;> exact (Option.some.inj h).symm

/-- Nothing else removes a file, or changes it. -/
lemma Deals.files (h : Deals k content env new fs fs' m) (p : Bytes) :
    (RemovesAt p k content env ∧ fs' p = none) ∨
      (¬RemovesAt p k content env ∧ ∀ f, fs p = some f → fs' p = some f) := by
  cases h with
  | kept hkept =>
      refine .inr ⟨fun hremoves => ?_, fun f hf => hf⟩
      rcases hkept with hfin | hdata
      · exact absurd (hfin.symm.trans hremoves.1) Bool.false_ne_true
      · exact hremoves.2.1 hdata
  | finished hfin hdata hremove =>
      rcases removeFile_cases hremove with ⟨hret, rfl⟩ | ⟨hret, rfl⟩
      · by_cases hp : cStr k.dataManager.path = p
        · subst hp
          exact .inl ⟨⟨hfin, hdata, rfl, hret⟩, Function.update_self _ _ _⟩
        · refine .inr ⟨fun hremoves => hp hremoves.2.2.1, fun f hf => ?_⟩
          rw [Function.update_of_ne (Ne.symm hp), hf]
      · exact .inr ⟨fun hremoves => hret hremoves.2.2.2, fun f hf => hf⟩
  | init hinit hdata hcalls =>
      exact .inr ⟨fun hremoves => hremoves.2.1 hdata, (init_keeps hcalls k.dataManager).1 p⟩

/-- A file that was not there before is a new one. -/
lemma Deals.id_of_new (h : Deals k content env new fs fs' m) {p : Bytes} {f : File}
    (hf : fs' p = some f) : fs p = some f ∨ (fs p = none ∧ f.id = new.id) := by
  cases h with
  | kept => exact .inl hf
  | finished _ _ hremove =>
      left
      rcases removeFile_cases hremove with ⟨-, rfl⟩ | ⟨-, rfl⟩
      · by_cases hp : p = cStr k.dataManager.path
        · rw [hp, Function.update_self] at hf
          cases hf
        · rwa [Function.update_of_ne hp] at hf
      · exact hf
  | @init init _ _ _ _ hcalls =>
      rcases MemoryManager.init_files hcalls with ⟨-, -, -, rfl, -⟩ | ⟨hnone, -, -, rfl⟩
      · exact .inl hf
      · by_cases hp : p = cStr (MemoryManager.mountPath (poolPath init.info))
        · -- whether the call succeeds or leaves something behind, the file is the new one
          rw [hp, Function.update_self] at hf
          refine .inr ⟨hp ▸ hnone, ?_⟩
          split at hf
          · obtain ⟨len, -, rfl⟩ := Option.map_eq_some_iff.1 hf
            rfl
          · obtain rfl := Option.some.inj hf
            rfl
        · rw [Function.update_of_ne hp] at hf
          exact .inl hf

lemma Deals.holdsPmem (h : Deals k content env new fs fs' m) (hpmem : m.HoldsPmem) :
    (m = k.dataManager ∧ fs' = fs) ∨ (k.dataManager.data = none ∧
      ∃ f, fs' (cStr m.path) = some f ∧ f.len = m.size) := by
  cases h with
  | kept => exact .inl ⟨rfl, rfl⟩
  | finished => exact absurd rfl hpmem.1
  | init _ hdata hcalls =>
      obtain ⟨mapping, hmapped⟩ := (init_keeps hcalls k.dataManager).2 hpmem.1 hpmem.2
      exact .inr ⟨hdata, hmapped.file⟩

/-- A pmem region stays until it is finished. -/
lemma Deals.of_holdsPmem (h : Deals k content env new fs fs' m)
    (hpmem : k.dataManager.HoldsPmem) (hfin : finishes content ≠ true) : m = k.dataManager := by
  cases h with
  | kept => rfl
  | finished hfin' => exact absurd hfin' hfin
  | init _ hdata => exact absurd hdata hpmem.1

end Consequences

end Replicas

namespace Host

/-! ### What a step does to the files -/

def region (s : Host) (id : HandlerId) : Option MemoryManager :=
  (s.alive id).map fun l => l.watched.handler.dataManager

/-- The connection when the callback for its request starts, but for the request. -/
def dealing (l : Life) (op : OpId) : RPMAHandler :=
  { l.watched.handler with callbackTable := l.watched.handler.callbackTable.erase op }

/-- The event delivers a request to the connection. -/
def Requests (s : Host) (id : HandlerId) (l : Life) : HostAct → Prop
  | .event fd (.completing got _ _) _ =>
    (∃ et, s.dispatcher.target fd = some ⟨et, id⟩) ∧ s.alive id = some l ∧ l.Delivers got
  | _ => False

/-- What a step does to the regions and to the files. -/
inductive Touches (s : Host) : HostAct → Host → Prop
  /-- Regions may go, and there may be a new connection without one. -/
  | nothing {a : HostAct} {t : Host} (hquiet : ∀ id l, ¬s.Requests id l a)
      (hfiles : t.files = s.files) (hlog : t.log = s.log)
      (hnext : s.nextFile ≤ t.nextFile)
      (hregions : ∀ id m, t.region id = some m →
        (s.region id = some m ∧ t.mapped id = s.mapped id) ∨
        (¬m.HoldsPmem ∧ t.mapped id = none ∧
          (s.region id = some m ∨ s.dispatcher.nextId ≤ id))) :
      Touches s a t
  /-- A request is served. -/
  | served {fd : Handle} {op : OpId} {oc : RpmaOpcode} {content : MsgBuf} {env : ServeEnv}
      {left : Option UInt64} {ed : EventHandle} {l : Life} {t : Host}
      (htarget : s.dispatcher.target fd = some ed) (hl : s.alive ed.handler = some l)
      (hdelivers : l.Delivers (.ok ⟨some op, oc, true⟩))
      (hfiles : s.files.calls (s.creation left)
        ((Replicas.deal (dealing l op) content env).calls.map Prod.snd) = some t.files)
      (hlog : t.log = s.log) (hnext : t.nextFile = s.nextFile + 1)
      (hself : t.region ed.handler =
        some (Replicas.deal (dealing l op) content env).state.dataManager)
      (hmapped : t.mapped = Function.update s.mapped ed.handler (mappedAfter (s.mapped ed.handler)
        l.watched.handler.dataManager
        (Replicas.deal (dealing l op) content env).state.dataManager t.files))
      (hothers : ∀ id, id ≠ ed.handler → t.region id = s.region id) :
      Touches s (.event fd (.completing (.ok ⟨some op, oc, true⟩) content env) left) t
  /-- A byte is stored. -/
  | store {id : HandlerId} {m : MemoryManager} {off : ℕ} {byte : UInt8}
      (hregion : s.region id = some m) (hpmem : m.HoldsPmem) :
      Touches s (.store id off byte) (s.put id m off byte)

variable {fd : Handle} {s t : Host} {id : HandlerId} {l : Life}

lemma region_eq_some {m : MemoryManager} :
    s.region id = some m ↔ ∃ l, s.alive id = some l ∧ l.watched.handler.dataManager = m := by
  rw [region, Option.map_eq_some_iff]

lemma touches_setLife {a : HostAct} {l' : Life} (hquiet : ∀ id l, ¬s.Requests id l a)
    (hl : s.alive id = some l)
    (hman : l'.watched.handler.dataManager = l.watched.handler.dataManager)
    (hfiles : t.files = s.files) (hlog : t.log = s.log) (hnext : s.nextFile ≤ t.nextFile)
    (halive : t.alive = Function.update s.alive id (some l'))
    (hmapped : t.mapped = s.mapped) : Touches s a t := by
  refine .nothing hquiet hfiles hlog hnext fun id' m hm => .inl ?_
  rw [region, halive] at hm
  rw [region, hmapped]
  by_cases hid : id' = id
  · subst hid
    rw [Function.update_self] at hm
    rw [hl, ← hm]
    exact ⟨congrArg some hman.symm, rfl⟩
  · rw [Function.update_of_ne hid] at hm
    exact ⟨hm, rfl⟩

/-- The destructor of a handler only takes a region away. -/
lemma Touches.reap {a : HostAct} {u : Host} {left : Option UInt64}
    (hquiet : ∀ id l, ¬u.Requests id l a) (hl : s.alive id = some l)
    (ht : Host.reap id left s = some t)
    (h : ∀ id m, s.region id = some m →
      (u.region id = some m ∧ s.mapped id = u.mapped id) ∨
      (¬m.HoldsPmem ∧ s.mapped id = none ∧ (u.region id = some m ∨ u.dispatcher.nextId ≤ id)))
    (hfiles : s.files = u.files) (hlog : s.log = u.log) {n : ℕ} (hnext : u.nextFile ≤ n) :
    Touches u a { t with nextFile := n } := by
  rcases reap_cases hl ht with rfl | rfl
  · exact .nothing hquiet hfiles hlog hnext h
  · refine .nothing hquiet hfiles hlog hnext fun id' m hm => ?_
    obtain ⟨q, hq, hqm⟩ := region_eq_some.1 hm
    by_cases hid : id' = id
    · subst hid
      simp only [Function.update_self] at hq
      cases hq
    · simp only [Function.update_of_ne hid] at hq
      have hm' : s.region id' = some m := region_eq_some.2 ⟨q, hq, hqm⟩
      simpa only [Function.update_of_ne hid] using h id' m hm'

/-- A connection is accepted: there is one more, without a region, or there is not. -/
lemma touches_accepted {sendBl recvBl : MsgBuf} {size : UInt64} {env : ConstructEnv}
    {d : Dispatcher} {left : Option UInt64} {a : HostAct} (hquiet : ∀ id l, ¬s.Requests id l a)
    (hl : l = Life.born sendBl recvBl size env) (hid : s.dispatcher.nextId ≤ id)
    (ht : Host.accepted id l left { s with dispatcher := d } = some t) :
    Touches s a { t with nextFile := s.nextFile + 1 } := by
  rw [Host.accepted] at ht
  split at ht
  next halive =>
    refine Touches.reap (u := s) (l := l) hquiet (Function.update_self _ _ _) ht
      (fun id' m hm => ?_) rfl rfl (Nat.le_succ _)
    obtain ⟨q, hq, rfl⟩ := region_eq_some.1 hm
    by_cases hid' : id' = id
    · subst hid'
      simp only [Function.update_self, Option.some.injEq] at hq ⊢
      subst hq
      subst hl
      exact .inr ⟨fun hpmem => hpmem.1 (Life.data_born halive), trivial, .inr hid⟩
    · simp only [Function.update_of_ne hid'] at hq ⊢
      exact .inl ⟨region_eq_some.2 ⟨q, hq, rfl⟩, trivial⟩
  next =>
    obtain rfl := Option.some.inj ht
    exact .nothing hquiet rfl rfl (Nat.le_succ _) fun _ _ hm => .inl ⟨hm, rfl⟩

/-- A connection event: the connection stays with its region, or both go. -/
lemma touches_connected {d : Dispatcher} {next : Rpma ConnEvent} {left : Option UInt64}
    {a : HostAct} (hquiet : ∀ id l, ¬s.Requests id l a) (hl : s.alive id = some l)
    (ht : Host.connected next id l left { s with dispatcher := d } = some t) :
    Touches s a { t with nextFile := s.nextFile + 1 } := by
  rw [Host.connected] at ht
  refine Touches.reap (u := s) hquiet (Function.update_self _ _ _) ht
    (fun id' m hm => .inl ⟨?_, rfl⟩) rfl rfl (Nat.le_succ _)
  obtain ⟨q, hq, rfl⟩ := region_eq_some.1 hm
  by_cases hid : id' = id
  · subst hid
    simp only [Function.update_self, Option.some.injEq] at hq
    subst hq
    refine region_eq_some.2 ⟨l, hl, ?_⟩
    split <;> rfl
  · simp only [Function.update_of_ne hid] at hq
    exact region_eq_some.2 ⟨q, hq, rfl⟩

/-- A completion: a request is served, or nothing happens to the region. -/
lemma touches_completed (hinv : l.Inv) (halive : l.phase = .alive) {fd' : Handle}
    {ed : EventHandle} {got : Rpma Completion} {content : MsgBuf} {env : ServeEnv}
    {left : Option UInt64} (htarget : s.dispatcher.target fd' = some ed)
    (hl : s.alive ed.handler = some l)
    (ht : Host.completed got content env ed.handler l left s = some t) :
    Touches s (.event fd' (.completing got content env) left)
      { t with nextFile := s.nextFile + 1 } := by
  simp only [Host.completed, Option.ite_none_right_eq_some] at ht
  obtain ⟨hawaits, ht⟩ := ht
  obtain ⟨files, hfiles, rfl⟩ := Option.map_eq_some_iff.1 ht
  by_cases hdelivers : l.Delivers got
  · obtain ⟨op, oc, rfl⟩ : ∃ op oc, got = .ok ⟨some op, oc, true⟩ := by
      rcases got with e | ⟨_ | op, oc, _ | _⟩
      · exact hdelivers.elim
      · exact hdelivers.elim
      · exact hdelivers.elim
      · exact hdelivers.elim
      · exact ⟨op, oc, rfl⟩
    obtain ⟨hcalls, hman, -⟩ := Life.completion_delivered hdelivers content env
    rw [hcalls, FileSystem.calls_append] at hfiles
    obtain ⟨files', hfiles', hdelete⟩ := Option.bind_eq_some_iff.1 hfiles
    obtain rfl : files' = files := Option.some.inj hdelete
    refine .served htarget hl hdelivers hfiles' rfl rfl ?_ ?_ ?_
    · exact region_eq_some.2 ⟨_, Function.update_self _ _ _, hman⟩
    · rw [hman]
      rfl
    · intro id' hid'
      simp only [region, Function.update_of_ne hid']
  · obtain ⟨hcalls, hman⟩ := Life.completion_undelivered hinv halive hawaits hdelivers content env
    rw [Exec.log, ← FileSystem.calls_memoryCalls, hcalls] at hfiles
    obtain rfl : s.files = files := Option.some.inj hfiles
    have hquiet : ∀ id q, ¬s.Requests id q (.event fd' (.completing got content env) left) := by
      rintro id q ⟨⟨et, htarget'⟩, hq, hdelivers'⟩
      obtain rfl : ed = ⟨et, id⟩ := Option.some.inj (htarget.symm.trans htarget')
      obtain rfl : l = q := Option.some.inj (hl.symm.trans hq)
      exact hdelivers hdelivers'
    refine .nothing hquiet rfl rfl (Nat.le_succ _) fun id' m hm => ?_
    obtain ⟨q, hq, rfl⟩ := region_eq_some.1 hm
    by_cases hid : id' = ed.handler
    · subst hid
      simp only [Function.update_self, Option.some.injEq] at hq ⊢
      subst hq
      rw [mappedAfter, hman]
      have hself : (l.completion got content env).watched.handler.dataManager =
        l.watched.handler.dataManager := hman
      rw [hself]
      by_cases hpmem : l.watched.handler.dataManager.HoldsPmem
      · rw [if_pos hpmem, if_neg hpmem.1]
        exact .inl ⟨region_eq_some.2 ⟨l, hl, rfl⟩, rfl⟩
      · rw [if_neg hpmem]
        exact .inr ⟨hpmem, rfl, .inl (region_eq_some.2 ⟨l, hl, rfl⟩)⟩
    · simp only [Function.update_of_ne hid] at hq ⊢
      exact .inl ⟨region_eq_some.2 ⟨q, hq, rfl⟩, trivial⟩

/-- A byte is stored through a region of pmem, within its bounds. -/
lemma machine_store_iff {off : ℕ} {byte : UInt8} :
    machine.step s (.store id off byte) = some t ↔ s.stopped = none ∧ ∃ m, s.region id = some m ∧
      m.HoldsPmem ∧ off < m.size.toNat ∧ t = s.put id m off byte := by
  cases hstopped : s.stopped with
  | some e => simp [machine, hstopped]
  | none =>
      simp only [machine, hstopped, region]
      cases s.alive id with
      | none => simp
      | some l =>
          simp only [Option.bind_some, Option.ite_none_right_eq_some, Option.some.injEq,
            Option.map_some, true_and]
          constructor
          · rintro ⟨⟨hpmem, hoff⟩, rfl⟩
            exact ⟨_, rfl, hpmem, hoff, rfl⟩
          · rintro ⟨m, rfl, hpmem, hoff, rfl⟩
            exact ⟨⟨hpmem, hoff⟩, rfl⟩

/-- **What a step does to the files.** -/
lemma Inv.touches (h : Inv fd s) {a : HostAct} (hallowed : s.Allowed a)
    (hs : machine.step s a = some t) : Touches s a t := by
  cases hstopped : s.stopped with
  | some e => simp [machine, hstopped] at hs
  | none =>
      simp only [machine, hstopped] at hs
      cases a with
      | event fd' env left =>
          obtain ⟨u, hu, rfl⟩ := h.handleEvents_cases hallowed hs
          cases hu with
          | accepted hl hfds ht => exact touches_accepted (fun _ _ => id) hl le_rfl ht
          | connected _ ho hl ht => exact touches_connected (fun _ _ => id) hl ht
          | waited _ hl =>
              exact touches_setLife (fun _ _ => id) hl (Life.dataManager_waitFailed _ _) rfl rfl
                (Nat.le_succ _) rfl rfl
          | completed htarget hl ht =>
              obtain ⟨hlived, hphase⟩ := h.lived _ _ hl
              exact touches_completed hlived.inv (hphase hstopped) htarget hl ht
      | store id off byte =>
          obtain ⟨l, hl, hs⟩ := Option.bind_eq_some_iff.1 hs
          simp only [Option.ite_none_right_eq_some] at hs
          obtain ⟨⟨hpmem, -⟩, hs⟩ := hs
          obtain rfl := Option.some.inj hs
          exact .store (region_eq_some.2 ⟨l, hl, rfl⟩) hpmem

end Host

/-! ### A connection on which nothing has failed -/

/-- With posts that succeed, `deal_require` makes no post that fails. -/
lemma RPMAHandler.dealRequire_postsOk {env : ServeEnv} (hrecv : env.recv = .ok ())
    (hsend : env.send = .ok ()) (hclose : env.closeSend = .ok ()) :
    Only (fun c => ¬c.PostFailed) (dealRequire env) := by
  have hregistration : ∀ c : Call, c.IsRegistration → ¬c.PostFailed := by
    intro c hc
    cases c <;> first | exact id | exact hc.elim
  have hmemory : ∀ c : Call, c.IsMemory → ¬c.PostFailed := by
    intro c hc
    cases c <;> first | exact id | exact hc.elim
  have hclosing : Only (fun c => ¬c.PostFailed) (close env) := by
    refine .bind ((resetDataMr_only none).mono hregistration) fun _ =>
      .bind (.zoom _ ((MemoryManager.closeAndRemove_only _).mono hmemory)) fun removed =>
      .bind (.zoom _ (ConnectionHandler.fillSendBl_only _)) fun _ =>
      .bind (.zoom _ ?_) fun _ => .ret _
    rw [hclose]
    exact ConnectionHandler.postOp_only (fun _ => id) (fun _ => id) fun _ => id
  refine .bind ?_ fun _ => .zoom _ ?_
  · refine .bind .read fun h => .bind (decodeFrom_only _ _) fun req =>
      .ite ?_ (.ite hclosing (.ret _))
    exact (getDescriptorForWrite_only env).mono fun c hc => hc.elim (hmemory c) (hregistration c)
  · rw [hrecv, hsend]
    exact receiveAndReply_only (fun _ => id) (fun _ => id) (fun _ => id) id

namespace Life

open ConnectionHandler

structure Fit (l : Life) : Prop where
  rInv : l.RInv
  alive : l.phase = .alive
  posts : PostsOk l.calls
  received : l.recvFailed = false
  returned : l.thrown = false

variable {l : Life}

/-- It waits for a request. -/
lemma Fit.ready (h : l.Fit) : ∃ op, l.Awaits (.ok ⟨some op, .recv, true⟩) ∧
    l.Delivers (.ok ⟨some op, .recv, true⟩) := by
  have hne : l.phase ≠ .gone := by rw [h.alive]; decide
  obtain ⟨op, hop⟩ := List.length_eq_one_iff.1 (h.rInv.one h.alive h.posts h.received h.returned)
  have hmem : op ∈ l.receiving := by rw [hop]; exact List.mem_singleton_self op
  obtain ⟨hrecv, hnew⟩ := List.mem_filter.1 hmem
  have hawaits : op ∈ l.outstanding :=
    mem_outstanding.2 ⟨mem_postedOps_of_recvOps hrecv, of_decide_eq_true hnew⟩
  obtain ⟨_ | ⟨⟨⟩⟩, hlookup⟩ := h.rInv.inv.lookup_of_awaited h.alive hawaits
  · -- a receive has a callback
    obtain ⟨k, hreceipts⟩ := h.rInv.receipts hne
    exact absurd hrecv (hreceipts.plain op (mem_of_lookup hlookup))
  · exact ⟨op, hawaits, hlookup⟩

lemma Fit.served (h : l.Fit) {op : OpId} (hawaits : l.Awaits (.ok ⟨some op, .recv, true⟩))
    (hdelivers : l.Delivers (.ok ⟨some op, .recv, true⟩)) {content : MsgBuf} {env : ServeEnv}
    (hserviceable : RPMAHandler.Serviceable env content l.watched.handler.dataManager)
    (hrecv : env.recv = .ok ()) (hsend : env.send = .ok ()) (hclose : env.closeSend = .ok ()) :
    (l.completion (.ok ⟨some op, .recv, true⟩) content env).Fit := by
  obtain ⟨ret, hret⟩ :=
    (completion_returns_iff h.rInv.inv h.alive hawaits content env).2 fun _ => hserviceable
  refine ⟨h.rInv.completion h.alive hawaits content env, phase_completion_ok hret, ?_, ?_, ?_⟩
  · intro c hc
    rcases List.mem_append.1 hc with hc | hc
    · exact h.posts c hc
    · rw [(completion_delivered hdelivers content env).1] at hc
      rcases List.mem_append.1 hc with hc | hc
      · obtain ⟨p, hp, rfl⟩ := List.mem_map.1 hc
        exact RPMAHandler.dealRequire_postsOk hrecv hsend hclose _ p hp
      · rw [List.mem_singleton.1 hc]
        exact id
  · show (l.recvFailed || false) = false
    rw [h.received]
    rfl
  · show (l.thrown || !(Watched.completion env (.ok ⟨some op, .recv, true⟩)
      (l.arrived content)).result.isOk) = false
    rw [h.returned, hret]
    rfl

lemma fit_born (sendBl recvBl : MsgBuf) (size : UInt64) : (born sendBl recvBl size .ok).Fit := by
  refine ⟨machine.invariant (create_rInv sendBl recvBl size) (fun _ _ _ ht hs => ht.step hs)
    ((Machine.Run.nil _).snoc (a := .construct .ok) rfl), rfl, ?_, rfl, rfl⟩
  have hcalls : (born sendBl recvBl size .ok).calls =
      [.opNew 0, .connReqRecv (some 0) (.ok ())] := rfl
  rw [hcalls]
  intro c hc
  rcases List.mem_cons.1 hc with rfl | hc
  · exact id
  · rw [List.mem_singleton.1 hc]
    exact id

end Life

namespace Host

variable {fd : Handle} {s t : Host} {id : HandlerId} {l : Life}

/-- A connection on which nothing has failed, with the fd of its completions. -/
structure Waits (s : Host) (fd : Handle) (id : HandlerId) (l : Life) : Prop where
  running : s.stopped = none
  dispatches : s.dispatcher.handleEvents fd .completing = some s.dispatcher
  dispatching : s.dispatcher.stopped = none
  target : s.dispatcher.target fd = some ⟨.completion, id⟩
  alive : s.alive id = some l
  fit : l.Fit

lemma Waits.frame (h : s.Waits fd id l) {l' : Life} (hrunning : t.stopped = none)
    (hdispatcher : t.dispatcher = s.dispatcher) (halive : t.alive id = some l') (hfit : l'.Fit) :
    t.Waits fd id l' := by
  refine ⟨hrunning, ?_, ?_, ?_, halive, hfit⟩
  · rw [hdispatcher]
    exact h.dispatches
  · rw [hdispatcher]
    exact h.dispatching
  · rw [hdispatcher]
    exact h.target

lemma allowed_completing (s : Host) {fd : Handle} {got : Rpma Completion} {content : MsgBuf}
    {env : ServeEnv} {left : Option UInt64} :
    s.Allowed (.event fd (.completing got content env) left) := trivial

/-- A request that can be served, on such a connection. -/
lemma Waits.serve (h : s.Waits fd id l) {content : MsgBuf} {env : ServeEnv} (files : FileSystem)
    (hserviceable : RPMAHandler.Serviceable env content l.watched.handler.dataManager)
    (hrecv : env.recv = .ok ()) (hsend : env.send = .ok ()) (hclose : env.closeSend = .ok ())
    (hfiles : ∀ op, s.files.calls (s.creation none)
      (memoryCalls (Replicas.deal (dealing l op) content env).calls) = some files) :
    ∃ op l' t, machine.step s (.event fd (.completing (.ok ⟨some op, .recv, true⟩) content env)
        none) = some t ∧ s.Requests id l (.event fd (.completing (.ok ⟨some op, .recv, true⟩)
        content env) none) ∧ t.stopped = none ∧ t.dispatcher = s.dispatcher ∧ t.files = files ∧
      t.nextFile = s.nextFile + 1 ∧ t.alive = Function.update s.alive id (some l') ∧ l'.Fit ∧
      l'.watched.handler.dataManager =
        (Replicas.deal (dealing l op) content env).state.dataManager ∧
      l'.watched.handler.dataMr = (Replicas.deal (dealing l op) content env).state.dataMr ∧
      t.mapped id = mappedAfter (s.mapped id) l.watched.handler.dataManager
        l'.watched.handler.dataManager files := by
  obtain ⟨op, hawaits, hdelivers⟩ := h.fit.ready
  obtain ⟨ret, hret⟩ := (Life.completion_returns_iff h.fit.rInv.inv h.fit.alive hawaits content
    env).2 fun _ => hserviceable
  obtain ⟨hcalls, hman, hmr⟩ := Life.completion_delivered hdelivers content env
  have hcalls' : s.files.calls (s.creation none) (Exec.log (Watched.completion env
      (.ok ⟨some op, .recv, true⟩) (l.arrived content))) = some files := by
    rw [hcalls, FileSystem.calls_append, Exec.log, ← FileSystem.calls_memoryCalls]
    have hmemory := hfiles op
    rw [Replicas.deal] at hmemory
    rw [show l.atCallback op content = { dealing l op with recvBl := content } from rfl, hmemory]
    rfl
  refine ⟨op, _, _, machine_completing h.running h.dispatches h.dispatching h.target h.alive
    hawaits hcalls', ⟨⟨_, h.target⟩, h.alive, hdelivers⟩, ?_, rfl, rfl, rfl, rfl,
    h.fit.served hawaits hdelivers hserviceable hrecv hsend hclose, hman, hmr,
    Function.update_self _ _ _⟩
  rw [hret]
  rfl

/-! ### The file at a path -/

/-- The connection finishes its replica, and with it the file at the path goes. -/
def RemovesBy (p : Bytes) (id : HandlerId) (s : Host) : HostAct → Prop
  | .event fd (.completing got content env) left =>
    ∃ l, s.Requests id l (.event fd (.completing got content env) left) ∧
      Replicas.RemovesAt p l.watched.handler content env
  | _ => False

/-- Somebody finishes the replica at the path. -/
def Removes (p : Bytes) (s : Host) (a : HostAct) : Prop := ∃ id, s.RemovesBy p id a

lemma RemovesBy.requests {p : Bytes} {a : HostAct} (h : s.RemovesBy p id a) :
    ∃ l, s.Requests id l a := by
  cases a with
  | event fd env left =>
      cases env with
      | completing got content env =>
          obtain ⟨l, hl, -⟩ := h
          exact ⟨l, hl⟩
      | accepting | connecting | waiting => exact h.elim
  | store => exact h.elim

/-- The request that is served is the one that removes the file, if any does. -/
lemma removesBy_iff {p : Bytes} {fd' : Handle} {op : OpId} {oc : RpmaOpcode} {content : MsgBuf}
    {env : ServeEnv} {left : Option UInt64} {ed : EventHandle}
    (htarget : s.dispatcher.target fd' = some ed) (hl : s.alive ed.handler = some l)
    (hdelivers : l.Delivers (.ok ⟨some op, oc, true⟩)) :
    s.RemovesBy p id (.event fd' (.completing (.ok ⟨some op, oc, true⟩) content env) left) ↔
      id = ed.handler ∧ Replicas.RemovesAt p (dealing l op) content env := by
  constructor
  · rintro ⟨q, ⟨⟨et, htarget'⟩, hq, -⟩, hremoves⟩
    obtain rfl : ed = ⟨et, id⟩ := Option.some.inj (htarget.symm.trans htarget')
    obtain rfl : l = q := Option.some.inj (hl.symm.trans hq)
    exact ⟨rfl, hremoves⟩
  · rintro ⟨rfl, hremoves⟩
    exact ⟨l, ⟨⟨ed.type, htarget⟩, hl, hdelivers⟩, hremoves⟩

/-! ### Two connections for one replica -/

lemma two_accepted (files : FileSystem) : ∃ s,
    machine.Run (start 3 files 0) [acceptFor 5 6, acceptFor 7 8] s ∧
      machine.Meets Allowed (start 3 files 0) [acceptFor 5 6, acceptFor 7 8] ∧
      s.Waits 6 1 (Life.born .zero .zero 0 .ok) ∧ s.Waits 8 2 (Life.born .zero .zero 0 .ok) ∧
      s.files = files ∧ s.nextFile = 2 := by
  have run₁ := (Machine.Run.nil (M := machine) (start 3 files 0)).snoc (a := acceptFor 5 6) rfl
  have run₂ := run₁.snoc (a := acceptFor 7 8) rfl
  have hfit := Life.fit_born .zero .zero 0
  refine ⟨_, run₂, (acceptFor_allowed files 0).snoc run₁ ?_, ⟨rfl, rfl, rfl, rfl, rfl, hfit⟩,
    ⟨rfl, rfl, rfl, rfl, rfl, hfit⟩, rfl, rfl⟩
  rintro fd _ ⟨et, het, rfl⟩ id o ho _ ⟨et', het', heq⟩
  rcases id with _ | _ | id
  · obtain rfl : { Object.create (.acceptor 3) with registered := true } = o := Option.some.inj ho
    cases et with
    | accept => exact het rfl
    | connection => exact absurd (show (3 : Handle) = 7 from heq) (by decide)
    | completion => exact absurd (show (3 : Handle) = 8 from heq) (by decide)
  · obtain rfl : (⟨.rpma 5 6, false, true, false, false, false⟩ : Object) = o :=
      Option.some.inj ho
    cases et with
    | accept => exact het rfl
    | connection | completion => cases et' <;> exact absurd heq (by decide)
  · have hnone : (none : Option Object) = some o := ho
    cases hnone

open Replicas RPMAHandler in
/-- The INIT request of `sampleInit` can be served by a connection without a region. -/
lemma serviceable_sample {m : MemoryManager} (access : Bool) (addr : Addr) :
    Serviceable (withPmem access addr) sampleContent m := by
  obtain ⟨⟨c, hreq⟩, c', hinit⟩ := decode_holding_init sampleInit length_sampleInit
  refine ⟨_, c, hreq, fun _ => ⟨sampleInit, c', hinit, fun _ => .inl ?_, ?_⟩⟩
  · cases access <;> exact Option.some_ne_none _
  · refine describable_of_describes (workingMr_describes [7]) fun d hd => ?_
    obtain rfl := Except.ok.inj hd
    simp [withPmem, workingMr]

lemma length_finished :
    (RwlReplicaRequest.mk rwlReplicaFinishedRequest).encode.length < msgSize := by
  rw [RwlReplicaRequest.length_encode]
  decide

def finishedContent : MsgBuf := holding _ length_finished

open Replicas RPMAHandler in
/-- Two connections that have asked for the same replica, one of which finishes it. -/
lemma two_replicas : ∃ s t f op₁ op₂ op₃,
    machine.Run (start 3 (fun _ => none) 0) [acceptFor 5 6, acceptFor 7 8,
      .event 6 (.completing (.ok ⟨some op₁, .recv, true⟩) sampleContent (withPmem false 16)) none,
      .event 8 (.completing (.ok ⟨some op₂, .recv, true⟩) sampleContent (withPmem true 32)) none]
      s ∧
    machine.Meets Allowed (start 3 (fun _ => none) 0) [acceptFor 5 6, acceptFor 7 8,
      .event 6 (.completing (.ok ⟨some op₁, .recv, true⟩) sampleContent (withPmem false 16)) none,
      .event 8 (.completing (.ok ⟨some op₂, .recv, true⟩) sampleContent (withPmem true 32)) none] ∧
    s.files (cStr samplePath) = some f ∧ s.region 2 = some ⟨some 32, 64, true, samplePath⟩ ∧
    machine.step s (.event 6 (.completing (.ok ⟨some op₃, .recv, true⟩) finishedContent
      (withPmem true 16)) none) = some t ∧ t.stopped = none ∧
    t.region 2 = some ⟨some 32, 64, true, samplePath⟩ ∧
    s.RemovesBy (cStr samplePath) 1 (.event 6 (.completing (.ok ⟨some op₃, .recv, true⟩)
      finishedContent (withPmem true 16)) none) := by
  obtain ⟨s₂, run₂, hmeets₂, hwaits₁, hwaits₂, hfiles₂, -⟩ := two_accepted fun _ => none
  -- the first connection makes the file
  obtain ⟨op₁, l₁, s₃, hs₃, -, hrunning₃, hd₃, hfiles₃, -, halive₃, hfit₁, hman₁, -⟩ :=
    hwaits₁.serve (Function.update s₂.files (cStr samplePath)
      (some (FileSystem.created (s₂.creation none) 64))) (serviceable_sample false 16) rfl rfl rfl
      fun op => by
        rw [(deal_sample rfl false 16).1, hfiles₂]
        rfl
  rw [(deal_sample rfl false 16).2] at hman₁
  have hpath₃ : s₃.files (cStr samplePath) = some (FileSystem.created (s₂.creation none) 64) := by
    rw [hfiles₃, Function.update_self]
  have hwaits₂' : s₃.Waits 8 2 (Life.born .zero .zero 0 .ok) :=
    hwaits₂.frame hrunning₃ hd₃ (by rw [halive₃]; exact hwaits₂.alive) hwaits₂.fit
  -- the second connection finds it
  obtain ⟨op₂, l₂, s₄, hs₄, -, hrunning₄, hd₄, hfiles₄, -, halive₄, -, hman₂, -⟩ :=
    hwaits₂'.serve s₃.files (serviceable_sample true 32) rfl rfl rfl fun op => by
      rw [(deal_sample rfl true 32).1]
      rw [samplePath] at hpath₃
      simp [MemoryManager.initCalls, withPmem, MemoryManager.accepted, FileSystem.call,
        FileSystem.mapFile, hpath₃, FileSystem.created]
      rfl
  rw [(deal_sample rfl true 32).2] at hman₂
  have hwaits₁' : s₄.Waits 6 1 l₁ := by
    refine hwaits₁.frame hrunning₄ (hd₄.trans hd₃) ?_ hfit₁
    rw [halive₄, halive₃]
    rfl
  -- and the first finishes
  obtain ⟨c, hreq⟩ := decode_holding_base _ length_finished
  have hfin : finishes finishedContent = true := by
    rw [finishes, finishedContent, hreq]
    rfl
  have hserviceable : Serviceable (withPmem true 16) finishedContent
      l₁.watched.handler.dataManager := ⟨_, c, hreq, fun htype => absurd htype (by decide)⟩
  obtain ⟨op₃, _, s₅, hs₅, hrequests, hrunning₅, -, -, -, halive₅, -⟩ :=
    hwaits₁'.serve (Function.update s₄.files (cStr samplePath) none) hserviceable rfl rfl rfl
      fun op => by
      have hdata : (dealing l₁ op).dataManager.data = some 16 := by rw [dealing, hman₁]
      rw [(deal_finished _ _ hfin).1, MemoryManager.closeAndRemove_files hdata, dealing, hman₁,
        FileSystem.removeFile, hfiles₄, hpath₃]
      rfl
  have hregion : s₄.region 2 = some ⟨some 32, 64, true, samplePath⟩ :=
    region_eq_some.2 ⟨l₂, by rw [halive₄]; rfl, hman₂⟩
  have hregion' : s₅.region 2 = s₄.region 2 := by
    rw [region, halive₅]
    rfl
  refine ⟨s₄, s₅, _, op₁, op₂, op₃, (run₂.snoc hs₃).snoc hs₄, ?_, hfiles₄ ▸ hpath₃, hregion, hs₅,
    hrunning₅, hregion'.trans hregion, l₁, hrequests, hfin, ?_, ?_, rfl⟩
  · exact (hmeets₂.snoc run₂ (allowed_completing s₂)).snoc (run₂.snoc hs₃) (allowed_completing s₃)
  · rw [hman₁]
    exact Option.some_ne_none _
  · rw [hman₁]

/-! ### What becomes of a file -/

/-- A store changes no more than the content of a file. -/
lemma put_files (s : Host) (id : HandlerId) (m : MemoryManager) (off : ℕ) (byte : UInt8) :
    ∃ stores, (s.put id m off byte).log = s.log ++ stores ∧ ∀ p f, s.files p = some f →
      (s.put id m off byte).files p = some { f with content := stored p stores f.content } := by
  cases hf : s.files (cStr m.path) with
  | none => exact ⟨[], by simp [put, hf], fun p f hp => by simpa [put, hf, stored] using hp⟩
  | some g =>
      by_cases hg : s.mapped id = some g.id
      · refine ⟨[⟨cStr m.path, off, byte⟩], by simp [put, hf, hg], fun p f hp => ?_⟩
        by_cases hpath : cStr m.path = p
        · subst hpath
          obtain rfl : g = f := Option.some.inj (hf.symm.trans hp)
          simp [put, hf, hg, stored]
        · simp [put, hf, hg, stored, hpath, Function.update_of_ne (Ne.symm hpath), hp]
      · exact ⟨[], by simp [put, hf, hg], fun p f hp => by simpa [put, hf, hg, stored] using hp⟩

/-- **The file at a path** goes if somebody finishes the replica there, and else it stays the same
but for what is stored into it. -/
lemma Touches.file {a : HostAct} (h : Touches s a t) (p : Bytes) :
    (s.Removes p a ∧ t.files p = none) ∨
      (¬s.Removes p a ∧ ∃ stores, t.log = s.log ++ stores ∧ ∀ f, s.files p = some f →
        t.files p = some { f with content := stored p stores f.content }) := by
  cases h with
  | nothing hquiet hfiles hlog =>
      refine .inr ⟨?_, [], by rw [hlog, List.append_nil], fun f hf => by rw [hfiles, hf]; rfl⟩
      rintro ⟨id, hremoves⟩
      obtain ⟨l, hl⟩ := hremoves.requests
      exact hquiet id l hl
  | served htarget hl hdelivers hfiles hlog =>
      rcases (Replicas.deals hfiles).files p with ⟨hremoves, hgone⟩ | ⟨hnot, hkept⟩
      · exact .inl ⟨⟨_, (removesBy_iff htarget hl hdelivers).2 ⟨rfl, hremoves⟩⟩, hgone⟩
      · refine .inr ⟨?_, [], by rw [hlog, List.append_nil], hkept⟩
        rintro ⟨id, hremoves⟩
        exact hnot ((removesBy_iff htarget hl hdelivers).1 hremoves).2
  | store hregion hpmem =>
      obtain ⟨stores, hlog, hfiles⟩ := put_files s _ _ _ _
      exact .inr ⟨fun hremoves => hremoves.elim fun _ h => h, stores, hlog, hfiles p⟩

/-- The file at the path is still the same one, with what has been stored into it since. -/
def Survives (p : Bytes) (f : File) (log : List Store) (t : Host) : Prop :=
  ∃ stores, t.log = log ++ stores ∧
    t.files p = some { f with content := stored p stores f.content }

/-- What an action stores, and where in the file. -/
def stores : HostAct → Option (ℕ × UInt8)
  | .store _ off byte => some (off, byte)
  | .event _ _ _ => none

lemma Touches.log {a : HostAct} (h : Touches s a t) :
    ∃ ws, t.log = s.log ++ ws ∧ (ws.map fun w => (w.off, w.byte)).Sublist (stores a).toList := by
  cases h with
  | nothing _ _ hlog _ _ => exact ⟨[], by simp [hlog], List.nil_sublist _⟩
  | served _ _ _ _ hlog _ _ _ _ => exact ⟨[], by simp [hlog], List.nil_sublist _⟩
  | @store id m off byte _ _ =>
      rw [put]
      split
      · exact ⟨[], (List.append_nil _).symm, List.nil_sublist _⟩
      · split
        · exact ⟨[⟨cStr m.path, off, byte⟩], rfl, .refl _⟩
        · exact ⟨[], (List.append_nil _).symm, List.nil_sublist _⟩

/-- **What the log tells.**  The stores in it are stores of the run, in their order; those are left
out whose file was not at its path any more. -/
theorem log_of_run (hfd : fd ≠ -1) (files : FileSystem) (nextFile : ℕ) (as : List HostAct)
    (s : Host) (hrun : machine.Run (start fd files nextFile) as s)
    (hallowed : machine.Meets Allowed (start fd files nextFile) as) :
    (s.log.map fun w => (w.off, w.byte)).Sublist (as.filterMap stores) := by
  refine (Machine.Meets.traceInvariant (fun as u => Inv fd u ∧
    (u.log.map fun w => (w.off, w.byte)).Sublist (as.filterMap stores))
    ⟨start_inv hfd files nextFile, List.nil_sublist _⟩ ?_ hrun hallowed).2
  rintro bs u a v ⟨hinv, hlog⟩ ha hs
  obtain ⟨ws, heq, hws⟩ := (hinv.touches ha hs).log
  refine ⟨hinv.step ha hs, ?_⟩
  have hlast : [a].filterMap stores = (stores a).toList := by
    cases hstores : stores a <;> simp [hstores]
  rw [heq, List.map_append, List.filterMap_append, hlast]
  exact hlog.append hws

/-- **How a file ends.**  From any state of a server, whatever connections come and go and whatever
they ask for: a file stays at its path, the same file, of the same length, with the content that
the stores have left in it, exactly as long as no connection that has a region for the path serves
a FINISHED request by which the file is removed. -/
theorem file_survives_iff (hfd : fd ≠ -1) (files : FileSystem) (nextFile : ℕ)
    (as bs : List HostAct) (s t : Host) (hrun : machine.Run (start fd files nextFile) as s)
    (hallowed : machine.Meets Allowed (start fd files nextFile) as) (p : Bytes) (f : File)
    (hf : s.files p = some f) (hrun' : machine.Run s bs t)
    (hallowed' : machine.Meets Allowed s bs) :
    machine.Always (Survives p f s.log) s bs ↔
      machine.Meets (fun u a => ¬u.Removes p a) s bs := by
  refine Machine.Meets.always_iff (fun u => Inv fd u ∧ Survives p f s.log u)
    ⟨(reachable hfd hrun hallowed).1, [], by simp, hf⟩ ?_ (fun u hu => hu.2) ?_ hrun' hallowed'
  · rintro u a v ⟨hinv, stores, hlog, hfile⟩ ha hnot hs
    refine ⟨hinv.step ha hs, ?_⟩
    rcases (hinv.touches ha hs).file p with ⟨hremoves, -⟩ | ⟨-, stores', hlog', hkept⟩
    · exact absurd hremoves hnot
    · refine ⟨stores ++ stores', by rw [hlog', hlog, List.append_assoc], ?_⟩
      rw [hkept _ hfile]
      simp only [stored, List.foldl_append]
  · rintro u a v ⟨hinv, -⟩ ha hremoves hs ⟨_, -, hsome⟩
    rcases (hinv.touches ha hs).file p with ⟨-, hgone⟩ | ⟨hnot, -⟩
    · rw [hgone] at hsome
      cases hsome
    · exact hremoves hnot

/-- A replica that is finished does not survive. -/
theorem file_survives_finished : ∃ s t f op,
    machine.Run s [.event 6 (.completing (.ok ⟨some op, .recv, true⟩) finishedContent
      (Replicas.withPmem true 16)) none] t ∧ s.files (cStr Replicas.samplePath) = some f ∧
    ¬machine.Always (Survives (cStr Replicas.samplePath) f s.log) s
      [.event 6 (.completing (.ok ⟨some op, .recv, true⟩) finishedContent
        (Replicas.withPmem true 16)) none] := by
  obtain ⟨s, t, f, _, _, op, run, hmeets, hf, -, hs, -, -, hremoves⟩ := two_replicas
  have run' := (Machine.Run.nil s).snoc hs
  refine ⟨s, t, f, op, run', hf, fun halways => ?_⟩
  have hnot := (file_survives_iff (by decide) _ _ _ _ s t run hmeets _ f hf run'
    (Machine.meets_singleton (allowed_completing s))).1 halways
  exact hnot [] _ s (List.prefix_refl _) (.nil s) ⟨1, hremoves⟩

/-! ### Regions for the same path -/

/-- Every pmem region for the path is the file that is there. -/
def Shared (p : Bytes) (s : Host) : Prop :=
  ∀ id m, s.region id = some m → m.HoldsPmem → cStr m.path = p →
    ∃ f, s.files p = some f ∧ s.mapped id = some f.id ∧ f.len = m.size

/-- Somebody finishes the replica at the path while another connection has a pmem region for it. -/
def RemovesUnder (p : Bytes) (s : Host) (a : HostAct) : Prop :=
  ∃ id, s.RemovesBy p id a ∧ ∃ id' m, id' ≠ id ∧ s.region id' = some m ∧ m.HoldsPmem ∧
    cStr m.path = p

lemma mappedAfter_self {old : Option ℕ} {m : MemoryManager} {files : FileSystem}
    (h : m.HoldsPmem) : mappedAfter old m m files = old := by
  rw [mappedAfter, if_pos h, if_neg h.1]

lemma put_region (s : Host) (id : HandlerId) (m : MemoryManager) (off : ℕ) (byte : UInt8) :
    (s.put id m off byte).region = s.region ∧ (s.put id m off byte).mapped = s.mapped ∧
      (s.put id m off byte).nextFile = s.nextFile := by
  rw [put]
  split
  · exact ⟨rfl, rfl, rfl⟩
  · split <;> exact ⟨rfl, rfl, rfl⟩

/-- A pmem region after a request: one that was there before, or one of the file that is then at
its path. -/
lemma mappedAfter_of_deals {k : RPMAHandler} {content : MsgBuf} {env : ServeEnv} {new : Creation}
    {fs fs' : FileSystem} {m : MemoryManager} (h : Replicas.Deals k content env new fs fs' m)
    (hpmem : m.HoldsPmem) (old : Option ℕ) :
    (m = k.dataManager ∧ fs' = fs ∧ mappedAfter old k.dataManager m fs' = old) ∨
      ∃ f, fs' (cStr m.path) = some f ∧ f.len = m.size ∧
        mappedAfter old k.dataManager m fs' = some f.id := by
  rcases h.holdsPmem hpmem with ⟨rfl, hfs⟩ | ⟨hdata, f, hf, hlen⟩
  · exact .inl ⟨rfl, hfs, mappedAfter_self hpmem⟩
  · refine .inr ⟨f, hf, hlen, ?_⟩
    rw [mappedAfter, if_pos hpmem, if_pos hdata, hf]
    rfl

/-- A step keeps the regions for a path together unless it removes the file under one. -/
lemma Shared.touches {p : Bytes} {a : HostAct} (h : Shared p s) (ht : Touches s a t)
    (hnot : ¬s.RemovesUnder p a) : Shared p t := by
  intro id m hm hpmem hpath
  -- the file of a region that was there before is still there
  have hold : s.region id = some m → (∀ i, s.RemovesBy p i a → id ≠ i) →
      ∃ f, t.files p = some f ∧ s.mapped id = some f.id ∧ f.len = m.size := by
    intro hregion hother
    obtain ⟨f, hf, hmapped, hlen⟩ := h id m hregion hpmem hpath
    rcases ht.file p with ⟨⟨i, hremoves⟩, -⟩ | ⟨-, stores, -, hkept⟩
    · exact absurd ⟨i, hremoves, id, m, hother i hremoves, hregion, hpmem, hpath⟩ hnot
    · exact ⟨_, hkept f hf, hmapped, hlen⟩
  cases ht with
  | nothing hquiet _ _ _ hregions =>
      rcases hregions id m hm with ⟨hregion, hmapped⟩ | ⟨hno, -⟩
      · rw [hmapped]
        refine hold hregion fun i hremoves => ?_
        obtain ⟨l, hl⟩ := hremoves.requests
        exact absurd hl (hquiet i l)
      · exact absurd hpmem hno
  | @served fd' op oc content env left ed l t htarget hl hdelivers hfiles _ _ hself hmapped
      hothers =>
      by_cases hid : id = ed.handler
      · subst hid
        obtain rfl := Option.some.inj (hself.symm.trans hm)
        have hdeals := Replicas.deals hfiles
        rw [hmapped, Function.update_self]
        rcases mappedAfter_of_deals hdeals hpmem (s.mapped ed.handler) with
          ⟨hsame, hfs, heq⟩ | ⟨f, hf, hlen, heq⟩
        · have hregion : s.region ed.handler = some (Replicas.deal (dealing l op) content
              env).state.dataManager := by
            rw [hsame]
            exact region_eq_some.2 ⟨l, hl, rfl⟩
          obtain ⟨f, hf, hmapped', hlen⟩ := h _ _ hregion hpmem hpath
          exact ⟨f, by rw [hfs, hf], heq.trans hmapped', hlen⟩
        · exact ⟨f, hpath ▸ hf, heq, hlen⟩
      · rw [hmapped, Function.update_of_ne hid]
        refine hold ((hothers id hid).symm.trans hm) fun i hremoves => ?_
        rw [((removesBy_iff htarget hl hdelivers).1 hremoves).1]
        exact hid
  | store hregion _ =>
      obtain ⟨hregions, hmapped, -⟩ := put_region s _ _ _ _
      rw [hregions] at hm
      rw [hmapped]
      exact hold hm fun i hremoves => hremoves.elim

/-- What is removed under a connection is not there any more. -/
lemma Touches.not_shared {p : Bytes} {a : HostAct} (ht : Touches s a t)
    (h : s.RemovesUnder p a) : ¬Shared p t := by
  obtain ⟨i, hremoves, id, m, hid, hregion, hpmem, hpath⟩ := h
  rcases ht.file p with ⟨-, hgone⟩ | ⟨hnot, -⟩
  · cases ht with
    | nothing hquiet =>
        obtain ⟨l, hl⟩ := hremoves.requests
        exact absurd hl (hquiet i l)
    | served htarget hl hdelivers _ _ _ _ _ hothers =>
        intro hshared
        obtain ⟨rfl, -⟩ := (removesBy_iff htarget hl hdelivers).1 hremoves
        obtain ⟨f, hf, -⟩ := hshared id m ((hothers id hid).trans hregion) hpmem hpath
        rw [hgone] at hf
        cases hf
    | store => exact hremoves.elim
  · exact absurd ⟨i, hremoves⟩ hnot

/-- **Who maps the same replica.**  Connections that have asked for the same path share the file
there: each of their pmem regions is that file, in its whole length, exactly as long as none of
them finishes the replica while another one holds it. -/
theorem replica_shared_iff (hfd : fd ≠ -1) (files : FileSystem) (nextFile : ℕ)
    (as : List HostAct) (s : Host) (hrun : machine.Run (start fd files nextFile) as s)
    (hallowed : machine.Meets Allowed (start fd files nextFile) as) (p : Bytes) :
    machine.Always (Shared p) (start fd files nextFile) as ↔
      machine.Meets (fun u a => ¬u.RemovesUnder p a) (start fd files nextFile) as := by
  refine Machine.Meets.always_iff (fun u => Inv fd u ∧ Shared p u)
    ⟨start_inv hfd files nextFile, fun id m hm => by cases hm⟩ ?_ (fun u hu => hu.2) ?_ hrun
    hallowed
  · rintro u a v ⟨hinv, hshared⟩ ha hnot hs
    exact ⟨hinv.step ha hs, hshared.touches (hinv.touches ha hs) hnot⟩
  · rintro u a v ⟨hinv, -⟩ ha hunder hs
    exact (hinv.touches ha hs).not_shared (not_not.1 hunder)

/-- Two connections share a replica until one of them finishes it. -/
theorem replica_shared_finished : ∃ s t as a, machine.Run (start 3 (fun _ => none) 0) as s ∧
    machine.step s a = some t ∧
    ¬machine.Always (Shared (cStr Replicas.samplePath)) (start 3 (fun _ => none) 0)
      (as ++ [a]) := by
  obtain ⟨s, t, f, _, _, op, run, hmeets, -, hregion, hs, -, -, hremoves⟩ := two_replicas
  refine ⟨s, t, _, _, run, hs, fun halways => ?_⟩
  have hnot := (replica_shared_iff (by decide) _ _ _ t (run.snoc hs)
    (hmeets.snoc run (allowed_completing s)) _).1 halways
  exact hnot _ _ s (List.prefix_refl _) run ⟨1, hremoves, 2, _, by decide, hregion,
    ⟨Option.some_ne_none _, rfl⟩, rfl⟩

/-! ### After the file has been removed -/

/-- Files are numbered, and new files get new numbers. -/
structure Numbered (s : Host) : Prop where
  file : ∀ p f, s.files p = some f → f.id < s.nextFile
  mapped : ∀ id m n, s.region id = some m → s.mapped id = some n → n < s.nextFile

lemma put_id {id : HandlerId} {m : MemoryManager} {off : ℕ} {byte : UInt8} {p : Bytes} {f : File}
    (hf : (s.put id m off byte).files p = some f) : ∃ g, s.files p = some g ∧ g.id = f.id := by
  rw [put] at hf
  split at hf
  · exact ⟨f, hf, rfl⟩
  · next g hg =>
    split at hf
    · by_cases hp : p = cStr m.path
      · subst hp
        simp only [Function.update_self] at hf
        exact ⟨g, hg, by rw [← Option.some.inj hf]⟩
      · simp only [Function.update_of_ne hp] at hf
        exact ⟨f, hf, rfl⟩
    · exact ⟨f, hf, rfl⟩

lemma Numbered.touches {a : HostAct} (h : Numbered s) (ht : Touches s a t) : Numbered t := by
  cases ht with
  | nothing _ hfiles _ hnext hregions =>
      refine ⟨fun p f hf => (h.file p f (hfiles ▸ hf)).trans_le hnext, fun id m n hm hn => ?_⟩
      rcases hregions id m hm with ⟨hregion, hmapped⟩ | ⟨-, hnone, -⟩
      · exact (h.mapped id m n hregion (hmapped ▸ hn)).trans_le hnext
      · rw [hnone] at hn
        cases hn
  | @served fd' op oc content env left ed l t htarget hl _ hfiles _ hnext hself hmapped hothers =>
      have hdeals := Replicas.deals hfiles
      have hfile : ∀ p f, t.files p = some f → f.id < t.nextFile := by
        intro p f hf
        rw [hnext]
        rcases hdeals.id_of_new hf with hold | ⟨-, hnew⟩
        · exact Nat.lt_succ_of_lt (h.file p f hold)
        · exact hnew ▸ Nat.lt_succ_self _
      refine ⟨hfile, fun id m n hm hn => ?_⟩
      rw [hmapped] at hn
      by_cases hid : id = ed.handler
      · subst hid
        rw [Function.update_self, mappedAfter] at hn
        split at hn
        · split at hn
          · obtain ⟨f, hf, rfl⟩ := Option.map_eq_some_iff.1 hn
            exact hfile _ f hf
          · rw [hnext]
            exact Nat.lt_succ_of_lt (h.mapped _ _ n (region_eq_some.2 ⟨l, hl, rfl⟩) hn)
        · cases hn
      · rw [Function.update_of_ne hid] at hn
        rw [hnext]
        exact Nat.lt_succ_of_lt (h.mapped id m n ((hothers id hid).symm.trans hm) hn)
  | store hregion _ =>
      obtain ⟨hregions, hmapped, hnext⟩ := put_region s _ _ _ _
      refine ⟨fun p f hf => ?_, fun id m n hm hn => ?_⟩
      · obtain ⟨g, hg, hid⟩ := put_id hf
        rw [hnext, ← hid]
        exact h.file p g hg
      · rw [hnext]
        exact h.mapped id m n (hregions ▸ hm) (hmapped ▸ hn)

def Finishes (j : HandlerId) (s : Host) : HostAct → Prop
  | .event fd (.completing got content env) left =>
    (∃ l, s.Requests j l (.event fd (.completing got content env) left)) ∧
      RPMAHandler.finishes content = true
  | _ => False

/-- The region `m` of the connection, if it is still there, is the file number `n`, and this is
not the file at its path. -/
structure Lost (j : HandlerId) (m : MemoryManager) (n : Option ℕ) (s : Host) : Prop where
  pmem : m.HoldsPmem
  handler_lt : j < s.dispatcher.nextId
  file_lt : ∀ k, n = some k → k < s.nextFile
  file : ∀ f, s.files (cStr m.path) = some f → n ≠ some f.id
  region : ∀ m', s.region j = some m' → m' = m ∧ s.mapped j = n

/-- The numbers of handlers are not used again. -/
lemma Inv.nextId_le (h : Inv fd s) {a : HostAct} (hallowed : s.Allowed a)
    (hs : machine.step s a = some t) : s.dispatcher.nextId ≤ t.dispatcher.nextId := by
  cases hstopped : s.stopped with
  | some e => simp [machine, hstopped] at hs
  | none =>
      simp only [machine, hstopped] at hs
      cases a with
      | event fd' env left =>
          obtain ⟨u, hu, rfl⟩ := h.handleEvents_cases hallowed hs
          cases hu with
          | @accepted _ _ _ _ c k env₁ env₂ l fds _ hl hfds ht =>
              have hle : s.dispatcher.nextId ≤ (s.dispatcher.accept fds env₁ env₂).2.nextId := by
                cases fds with
                | none => exact le_rfl
                | some fds => exact Nat.le_succ _
              rw [Host.accepted] at ht
              split at ht
              · rcases reap_cases (l := l) (Function.update_self _ _ _) ht with rfl | rfl
                · exact hle
                · exact hle
              · obtain rfl := Option.some.inj ht
                exact hle
          | @connected next ed o l _ _ ho hl ht =>
              have heq : (s.dispatcher.handleConnectionEvent next ed.handler o).2.nextId =
                  s.dispatcher.nextId := by
                rcases next with e | ev
                · cases e <;> rfl
                · cases ev <;> rfl
              rw [Host.connected] at ht
              rcases reap_cases (Function.update_self _ _ _) ht with rfl | rfl <;> exact heq.ge
          | waited => exact le_rfl
          | completed _ hl ht =>
              simp only [Host.completed, Option.ite_none_right_eq_some] at ht
              obtain ⟨-, ht⟩ := ht
              obtain ⟨files, -, rfl⟩ := Option.map_eq_some_iff.1 ht
              exact le_rfl
      | store id off byte =>
          obtain ⟨l, -, hs⟩ := Option.bind_eq_some_iff.1 hs
          simp only [Option.ite_none_right_eq_some] at hs
          obtain ⟨-, hs⟩ := hs
          obtain rfl := Option.some.inj hs
          rw [(put_dispatcher s id _ off byte).1]

variable {j : HandlerId} {m : MemoryManager} {n : Option ℕ}

lemma Lost.touches {a : HostAct} (h : Lost j m n s) (ht : Touches s a t)
    (hnext : s.dispatcher.nextId ≤ t.dispatcher.nextId) (hnot : ¬s.Finishes j a) :
    Lost j m n t := by
  have hlt := h.handler_lt.trans_le hnext
  cases ht with
  | nothing _ hfiles _ hle hregions =>
      refine ⟨h.pmem, hlt, fun k hk => (h.file_lt k hk).trans_le hle, hfiles ▸ h.file,
        fun m' hm' => ?_⟩
      rcases hregions j m' hm' with ⟨hregion, hmapped⟩ | ⟨hno, -, hregion | hnew⟩
      · rw [hmapped]
        exact h.region m' hregion
      · exact absurd ((h.region m' hregion).1 ▸ h.pmem) hno
      · exact absurd h.handler_lt hnew.not_gt
  | @served fd' op oc content env left ed l t htarget hl hdelivers hfiles _ hfile hself hmapped
      hothers =>
      have hdeals := Replicas.deals hfiles
      refine ⟨h.pmem, hlt, fun k hk => hfile ▸ Nat.lt_succ_of_lt (h.file_lt k hk), fun f hf => ?_,
        fun m' hm' => ?_⟩
      · rcases hdeals.id_of_new hf with hold | ⟨-, hnew⟩
        · exact h.file f hold
        · -- a file made later has another number
          intro hn
          exact absurd (h.file_lt _ hn) (by rw [hnew]; exact lt_irrefl _)
      · by_cases hj : j = ed.handler
        · subst hj
          obtain ⟨hman, hn⟩ := h.region _ (region_eq_some.2 ⟨l, hl, rfl⟩)
          obtain rfl := Option.some.inj (hself.symm.trans hm')
          rw [hmapped, Function.update_self]
          have hkeeps : (dealing l op).dataManager.HoldsPmem := hman ▸ h.pmem
          have hfin : RPMAHandler.finishes content ≠ true := fun hfin =>
            hnot ⟨⟨l, ⟨⟨ed.type, htarget⟩, hl, hdelivers⟩⟩, hfin⟩
          have hsame : (Replicas.deal (dealing l op) content env).state.dataManager = m :=
            (hdeals.of_holdsPmem hkeeps hfin).trans hman
          rw [hsame, hman]
          exact ⟨rfl, (mappedAfter_self h.pmem).trans hn⟩
        · rw [hmapped, Function.update_of_ne hj]
          exact h.region m' ((hothers j hj).symm.trans hm')
  | store _ _ =>
      obtain ⟨hregions, hmapped, hfile⟩ := put_region s _ _ _ _
      refine ⟨h.pmem, hlt, fun k hk => by rw [hfile]; exact h.file_lt k hk, fun f hf => ?_,
        fun m' hm' => ?_⟩
      · obtain ⟨g, hg, hid⟩ := put_id hf
        rw [← hid]
        exact h.file g hg
      · rw [hmapped]
        exact h.region m' (hregions ▸ hm')

/-- What is stored through a lost region reaches no file. -/
lemma Lost.put (h : Lost j m n s) (hm : s.region j = some m) (off : ℕ) (byte : UInt8) :
    s.put j m off byte = s := by
  rw [Host.put]
  split
  · rfl
  · next f hf => rw [if_neg ((h.region m hm).2 ▸ h.file f hf)]

/-- A region stays, but is lost, when the file at its path is removed. -/
lemma Touches.lost {a : HostAct} (ht : Touches s a t) (hnumbered : Numbered s)
    (hlt : j < t.dispatcher.nextId) {i : HandlerId} (hij : j ≠ i) (hm : s.region j = some m)
    (hpmem : m.HoldsPmem) (hremoves : s.RemovesBy (cStr m.path) i a) :
    t.region j = some m ∧ Lost j m (s.mapped j) t := by
  rcases ht.file (cStr m.path) with ⟨-, hgone⟩ | ⟨hnot, -⟩
  · cases ht with
    | nothing hquiet =>
        obtain ⟨l, hl⟩ := hremoves.requests
        exact absurd hl (hquiet i l)
    | served htarget hl hdelivers _ _ hfile _ hmapped hothers =>
        obtain ⟨rfl, -⟩ := (removesBy_iff htarget hl hdelivers).1 hremoves
        refine ⟨(hothers j hij).trans hm, hpmem, hlt, fun k hk => ?_, fun f hf => ?_,
          fun m' hm' => ?_⟩
        · rw [hfile]
          exact Nat.lt_succ_of_lt (hnumbered.mapped j m k hm hk)
        · rw [hgone] at hf
          cases hf
        · rw [hmapped, Function.update_of_ne hij]
          exact ⟨Option.some.inj (hm'.symm.trans ((hothers j hij).trans hm)), rfl⟩
    | store => exact hremoves.elim
  · exact absurd ⟨i, hremoves⟩ hnot

/-- **Finishing under others.**  When a connection finishes a replica that another one holds, the
other keeps its region, but the region is a file that nobody can find any more: as long as the
other does not finish in its turn, whatever happens, also if the replica is made anew at the same
path, what is stored through the region reaches no file. -/
theorem finished_under_others (hfd : fd ≠ -1) (files : FileSystem) (nextFile : ℕ)
    (hids : ∀ p f, files p = some f → f.id < nextFile) (as bs : List HostAct) (s t u : Host)
    (hrun : machine.Run (start fd files nextFile) as s)
    (hallowed : machine.Meets Allowed (start fd files nextFile) as) (a : HostAct)
    (ha : s.Allowed a) (hs : machine.step s a = some t) (i j : HandlerId) (hij : j ≠ i)
    (m : MemoryManager) (hm : s.region j = some m) (hpmem : m.HoldsPmem)
    (hremoves : s.RemovesBy (cStr m.path) i a) (hrun' : machine.Run t bs u)
    (hallowed' : machine.Meets Allowed t bs)
    (hnot : machine.Meets (fun v b => ¬v.Finishes j b) t bs) :
    t.region j = some m ∧ ∀ m', u.region j = some m' → m' = m ∧
      ∀ off byte v, machine.step u (.store j off byte) = some v → v = u := by
  have hstart : Inv fd (start fd files nextFile) ∧ Numbered (start fd files nextFile) :=
    ⟨start_inv hfd files nextFile, hids, fun id m n hm => by cases hm⟩
  obtain ⟨hinv, hnumbered⟩ :=
    @Machine.Meets.invariant _ _ machine Allowed (fun v => Inv fd v ∧ Numbered v) _ hstart
      (fun v b w hv hb hw => ⟨hv.1.step hb hw, hv.2.touches (hv.1.touches hb hw)⟩) _ _ hrun hallowed
  have hlt : j < t.dispatcher.nextId := by
    obtain ⟨l, hl, -⟩ := region_eq_some.1 hm
    obtain ⟨-, -, -, o, -, ho, -⟩ := hinv.connection j l hl
    exact (hinv.dispatcher.lt j o ho).trans_le (hinv.nextId_le ha hs)
  obtain ⟨hkeeps, hlost⟩ : t.region j = some m ∧ Lost j m (s.mapped j) t :=
    (hinv.touches ha hs).lost hnumbered hlt hij hm hpmem hremoves
  -- along the rest of the run
  have hboth : machine.Meets (fun v b => v.Allowed b ∧ ¬v.Finishes j b) t bs :=
    fun cs b v hcs hv => ⟨hallowed' cs b v hcs hv, hnot cs b v hcs hv⟩
  have hafter : Inv fd t ∧ Lost j m (s.mapped j) t := ⟨hinv.step ha hs, hlost⟩
  obtain ⟨-, hlost'⟩ :=
    @Machine.Meets.invariant _ _ machine _ (fun v => Inv fd v ∧ Lost j m (s.mapped j) v) _ hafter
      (fun v b w hv hb hw => ⟨hv.1.step hb.1 hw,
        hv.2.touches (hv.1.touches hb.1 hw) (hv.1.nextId_le hb.1 hw) hb.2⟩) _ _ hrun' hboth
  refine ⟨hkeeps, fun m' hm' => ?_⟩
  obtain ⟨rfl, -⟩ := hlost'.region m' hm'
  refine ⟨rfl, fun off byte v hv => ?_⟩
  cases hstopped : u.stopped with
  | some e => simp [machine, hstopped] at hv
  | none =>
      simp only [machine, hstopped] at hv
      obtain ⟨l, hl, hv⟩ := Option.bind_eq_some_iff.1 hv
      have hl' : l.watched.handler.dataManager = m' :=
        Option.some.inj ((region_eq_some.2 ⟨l, hl, rfl⟩).symm.trans hm')
      simp only [Option.ite_none_right_eq_some, hl'] at hv
      obtain ⟨-, hv⟩ := hv
      rw [hlost'.put hm'] at hv
      exact (Option.some.inj hv).symm

/-- What the second connection stores after the first has finished is lost, one byte as the
other. -/
theorem finished_under_second : ∃ s t f as a, machine.Run (start 3 (fun _ => none) 0) as s ∧
    s.files (cStr Replicas.samplePath) = some f ∧
    s.region 2 = some ⟨some 32, 64, true, Replicas.samplePath⟩ ∧ machine.step s a = some t ∧
    t.region 2 = some ⟨some 32, 64, true, Replicas.samplePath⟩ ∧
    t.files (cStr Replicas.samplePath) = none ∧
    machine.Run t [.store 2 0 7, .store 2 1 8] t := by
  obtain ⟨s, t, f, _, _, op, run, hmeets, hf, hregion, hs, hrunning, hregion', hremoves⟩ :=
    two_replicas
  have hpmem : (⟨some 32, 64, true, Replicas.samplePath⟩ : MemoryManager).HoldsPmem :=
    ⟨Option.some_ne_none _, rfl⟩
  obtain ⟨l, hl, hman⟩ := region_eq_some.1 hregion'
  have hput : ∀ off byte, off < 64 → machine.step t (.store 2 off byte) =
      some (t.put 2 ⟨some 32, 64, true, Replicas.samplePath⟩ off byte) := by
    intro off byte hoff
    have hbound : off < (64 : UInt64).toNat := hoff
    simp only [machine, hrunning, hl, Option.bind_some, hman, if_pos (And.intro hpmem hbound)]
  have hgone : t.files (cStr Replicas.samplePath) = none := by
    have hinv := (reachable (by decide) run hmeets).1
    rcases (hinv.touches (allowed_completing s) hs).file (cStr Replicas.samplePath) with
      ⟨-, hgone⟩ | ⟨hnot, -⟩
    · exact hgone
    · exact absurd ⟨1, hremoves⟩ hnot
  -- after any stores that have been lost, the next one is lost too
  have hlost : ∀ bs : List HostAct, (∀ b ∈ bs, ∃ off byte, b = .store 2 off byte) →
      machine.Run t bs t → ∀ off byte, off < 64 → machine.step t (.store 2 off byte) = some t := by
    intro bs hbs hrun off byte hoff
    have hstores : machine.Meets Allowed t bs ∧
        machine.Meets (fun v b => ¬v.Finishes 2 b) t bs := by
      refine ⟨Machine.meets_of_forall fun b hb v => ?_, Machine.meets_of_forall fun b hb v => ?_⟩
      · obtain ⟨off, byte, rfl⟩ := hbs b hb
        trivial
      · obtain ⟨off, byte, rfl⟩ := hbs b hb
        exact id
    obtain ⟨-, hnext⟩ := finished_under_others (by decide) (fun _ => none) 0
      (fun _ _ hf => by cases hf) _ bs s t t run hmeets _ (allowed_completing s) hs 1 2 (by decide)
      _ hregion hpmem hremoves hrun hstores.1 hstores.2
    have hstore := hput off byte hoff
    rw [(hnext _ hregion').2 off byte _ hstore] at hstore
    exact hstore
  have run₁ := (Machine.Run.nil t).snoc
    (hlost [] (fun _ hb => absurd hb List.not_mem_nil) (.nil t) 0 7 (by decide))
  refine ⟨s, t, f, _, _, run, hf, hregion, hs, hregion', hgone, run₁.snoc ?_⟩
  refine hlost [.store 2 0 7] (fun b hb => ⟨0, 7, List.mem_singleton.1 hb⟩) run₁ 1 8 (by decide)

end Host

end RpmaReplica
