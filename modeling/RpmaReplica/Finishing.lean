import RpmaReplica.Calling
import RpmaReplica.FileSystem
import RpmaReplica.Serving

/-!
# Finishing a replica

A FINISHED request makes the server give the memory back and remove the file at the manager's
path, and the result of `remove` is what the client is told.  The file is removed whether the
memory is a mapping of it or not.  Where `init` has fallen back on `malloc`, there may be no
file, and then the client is told that the replica could not be finished although nothing is
left of it; or there may be a file that was there before and that `init` did not accept, and
then somebody else's file is removed.

`finishing_iff` says exactly when neither happens.
-/

namespace RpmaReplica

namespace MemoryManager

/-- `init` has returned, on the files `before`, and has left the manager `m`. -/
def Initialised (before : FileSystem) (env : MemEnv) (size : UInt64) (path : Bytes)
    (m : MemoryManager) : Prop :=
  ∃ m₀ new after, m₀.data = none ∧ before.calls new (initCalls env size path) = some after ∧
    (init env size path m₀).result = .ok () ∧ (init env size path m₀).state = m

lemma Initialised.region {before : FileSystem} {env : MemEnv} {size : UInt64} {path : Bytes}
    {m : MemoryManager} (h : Initialised before env size path m) :
    (∃ addr, m.data = some addr) ∧ m.path = mountPath path := by
  obtain ⟨m₀, -, -, -, -, hres, rfl⟩ := h
  rcases init_cases env m₀ size path with ⟨f, -, -, hst⟩ | ⟨a, -, -, -, hst⟩ | ⟨-, -, hthrow, -⟩
  · rw [hst]
    exact ⟨⟨_, rfl⟩, rfl⟩
  · rw [hst]
    exact ⟨⟨_, rfl⟩, rfl⟩
  · simp [hthrow] at hres

/-- The file was there before `init`, and `init` did not accept its mapping. -/
def Rejected (before : FileSystem) (env : MemEnv) (size : UInt64) (path : Bytes) (f : File) :
    Prop :=
  accepted env size = none ∧ ∃ g, before (cStr (mountPath path)) = some g ∧ g.id = f.id

/-- Nothing is left of the replica: no memory, and no file at the manager's path. -/
def Gone (m : MemoryManager) (files : FileSystem) : Prop :=
  m.data = none ∧ files (cStr m.path) = none

/-- What `close_and_remove` does to the files: the region given back does not concern them. -/
lemma closeAndRemove_files {m : MemoryManager} {addr : Addr} (hdata : m.data = some addr)
    (env : MemEnv) (new : Creation) (files : FileSystem) :
    files.calls new ((closeAndRemove env m).calls.map Prod.snd) =
      files.removeFile (cStr m.path) env.remove := by
  rw [closeAndRemove_calls, hdata]
  have hrelease : files.call new (releaseCall m addr) = some files := by
    rw [releaseCall]
    cases m.isPmem <;> rfl
  simp only [FileSystem.calls_cons, FileSystem.calls_nil, hrelease, Option.bind_some,
    Option.bind_fun_some]
  rfl

end MemoryManager

namespace RPMAHandler

open MemoryManager
open Region (sampleName oneFile file128)

/-- The calls on memory that `close` makes are those of `close_and_remove`. -/
lemma close_memoryCalls (env : ServeEnv) (h : RPMAHandler) :
    memoryCalls (close env h).calls =
      (closeAndRemove env.mem h.dataManager).calls.map Prod.snd := by
  obtain ⟨hr, hs⟩ := resetDataMr_eq none h
  have htail : ∀ removed, Exec.Only (fun c => ¬c.IsMemory) (do
      Exec.zoom base (ConnectionHandler.fillSendBl (closeReply removed).encode)
      let _ ← Exec.zoom base (ConnectionHandler.send env.closeSend none)
      return 0 : Prog RPMAHandler ℤ) := by
    intro removed
    refine .bind (.zoom _ (ConnectionHandler.fillSendBl_only _)) fun _ =>
      .bind (.zoom _ (ConnectionHandler.postOp_only ?_ ?_ ?_)) fun _ => .ret _
    all_goals exact fun _ => id
  rw [close, memoryCalls_bind hr, memoryCalls_of_only
    ((resetDataMr_only none).mono fun _ => Call.not_isMemory_of_isRegistration),
    List.nil_append, hs, memoryCalls_bind_only htail,
    memoryCalls_zoom manager (closeAndRemove_only env.mem)]
  rfl

/-- On the files, `close` does what `close_and_remove` does. -/
lemma close_files (env : ServeEnv) (h : RPMAHandler) (new : Creation) (files : FileSystem) :
    files.calls new ((close env h).calls.map Prod.snd) =
      files.calls new ((closeAndRemove env.mem h.dataManager).calls.map Prod.snd) := by
  rw [← FileSystem.calls_memoryCalls, close_memoryCalls]

/-- What is asked of a FINISHED request: a file that was there before `init` and that `init`
rejected is left alone; and `close_and_remove` returns 0, `close` replies
`RWL_REPLICA_FINISHED_SUCCCESSED`, and a client that gets this reply returns 0 from
`close_replica`, each exactly if the replica is gone. -/
structure FinishesHonestly (before : FileSystem) (env : MemEnv) (size : UInt64) (path : Bytes)
    (files after : FileSystem) (env' : ServeEnv) (h : RPMAHandler) : Prop where
  spares : ∀ f, files (cStr h.dataManager.path) = some f → Rejected before env size path f →
    after (cStr h.dataManager.path) = some f
  returns : (closeAndRemove env'.mem h.dataManager).result = .ok 0 ↔
    Gone (close env' h).state.dataManager after
  replies : ∀ p ∈ sentBy (close env' h).calls, ∃ reply c,
    RwlReplicaFinishedRequestReply.decode p.1.sendBl.cbegin = .ok (reply, c) ∧
      (reply.type = rwlReplicaFinishedSucccessed ↔ Gone (close env' h).state.dataManager after)
  told : ∀ p ∈ sentBy (close env' h).calls, ∀ (w : Waiting) (d : Delivery)
    (client : ClientHandler), ClientHandler.replyTo w = some d → d.content = p.1.sendBl →
      ((ClientHandler.closeReplica w client).result = .ok 0 ↔
        Gone (close env' h).state.dataManager after)

lemma decode_closeReply (buf : MsgBuf) (removed : ℤ) :
    ∃ c, RwlReplicaFinishedRequestReply.decode
      (buf.memcpy (closeReply removed).encode (length_closeReply removed).le).cbegin =
        .ok (closeReply removed, c) :=
  ⟨_, (((closeReply removed).toRwlReplicaRequest.reads_encode).map
    RwlReplicaFinishedRequestReply.mk).memcpy buf (length_closeReply removed).le⟩

lemma closeReply_type (removed : ℤ) :
    (closeReply removed).type = rwlReplicaFinishedSucccessed ↔ removed = 0 := by
  rw [closeReply]
  split <;> simp_all [rwlReplicaFinishedSucccessed, rwlReplicaFinishedFailed]

/-- What the client is told is what `close_and_remove` returned. -/
lemma finishesHonestly_iff (before : FileSystem) (env : MemEnv) (size : UInt64) (path : Bytes)
    (files after : FileSystem) (env' : ServeEnv) (h : RPMAHandler) :
    FinishesHonestly before env size path files after env' h ↔
      (∀ f, files (cStr h.dataManager.path) = some f → Rejected before env size path f →
        after (cStr h.dataManager.path) = some f) ∧
      (removed env' h = 0 ↔ after (cStr h.dataManager.path) = none) := by
  obtain ⟨-, hsame, t, ht, hsent⟩ := close_sends env' h
  have hgone : Gone (close env' h).state.dataManager after ↔
      after (cStr h.dataManager.path) = none := by
    rw [hsame.dataManager, Gone]
    simp [closing]
  have hres : (closeAndRemove env'.mem h.dataManager).result = .ok 0 ↔ removed env' h = 0 := by
    rw [(closeAndRemove_eq env'.mem h.dataManager).1, ← removed]
    simp
  obtain ⟨c, hdec⟩ := decode_closeReply h.sendBl (removed env' h)
  have hbl : t.sendBl = h.sendBl.memcpy (closeReply (removed env' h)).encode
      (length_closeReply _).le := ht.sendBl
  rw [← hbl] at hdec
  constructor
  · rintro ⟨hspares, hreturns, -, -⟩
    exact ⟨hspares, by rw [← hres, hreturns, hgone]⟩
  · rintro ⟨hspares, hreturns⟩
    refine ⟨hspares, by rw [hres, hreturns, hgone], ?_, ?_⟩
    · rw [hsent]
      intro p hp
      obtain rfl := List.mem_singleton.1 hp
      exact ⟨_, c, hdec, by rw [closeReply_type, hreturns, hgone]⟩
    · rw [hsent]
      intro p hp w d client hd hcontent
      obtain rfl := List.mem_singleton.1 hp
      rw [← hcontent] at hdec
      rw [ClientHandler.closeReplica_replied hd hdec client, hgone, ← hreturns]
      by_cases hzero : removed env' h = 0 <;> simp [closeReply_type, hzero]

/-- **When a replica is finished honestly.**  Whatever `init` found and whatever the files are
when the FINISHED request comes: a rejected file is spared and the truth is told if and only if
there then is a file at the manager's path, and it is not one that `init` found and rejected,
unless it cannot be removed. -/
theorem finishing_iff (before : FileSystem) (env : MemEnv) (size : UInt64) (path : Bytes)
    (h : RPMAHandler) (files after : FileSystem) (new : Creation) (env' : ServeEnv)
    (hinit : Initialised before env size path h.dataManager)
    (hclose : files.calls new ((close env' h).calls.map Prod.snd) = some after) :
    FinishesHonestly before env size path files after env' h ↔
      ∃ f, files (cStr (mountPath path)) = some f ∧
        (Rejected before env size path f → env'.mem.remove ≠ 0) := by
  obtain ⟨⟨addr, hdata⟩, hpath⟩ := hinit.region
  rw [close_files, closeAndRemove_files hdata, FileSystem.removeFile] at hclose
  have hremoved : removed env' h = env'.mem.remove := by simp [removed, hdata]
  rw [finishesHonestly_iff, hremoved, hpath]
  rw [hpath] at hclose
  cases hf : files (cStr (mountPath path)) with
  | none =>
      simp only [hf, Option.ite_none_left_eq_some, Option.some.injEq] at hclose
      obtain ⟨hne, rfl⟩ := hclose
      simp [hf, hne]
  | some f =>
      rw [hf] at hclose
      by_cases hzero : env'.mem.remove = 0
      · simp only [hzero, if_true, Option.some.injEq] at hclose
        subst hclose
        simp [hzero]
      · simp only [hzero, if_false, Option.some.injEq] at hclose
        subst hclose
        simp [hf, hzero]

/-- A handler that holds 64 bytes, mapped at 16 or from `malloc` at 32. -/
def holding64 (isPmem : Bool) : RPMAHandler :=
  manager.set ⟨some (if isPmem then 16 else 32), 64, isPmem, mountPath sampleName⟩
    (create .zero .zero 0)

/-- `malloc` works, and nothing can be mapped or removed. -/
def unmapped : MemEnv := ⟨false, none, some 32, -1⟩

/-- A server on which memory is all that fails. -/
def unremovable : ServeEnv := ⟨unmapped, workingMr [7], .ok (), .ok (), .ok ()⟩

/-- A replica in a file that `init` created. -/
theorem finishing_created :
    ∃ after, FileSystem.calls ⟨1, none⟩ (oneFile (FileSystem.created ⟨1, none⟩ 64))
        ((close (working [7]) (holding64 true)).calls.map Prod.snd) = some after ∧
      FinishesHonestly (fun _ => none) Region.mapped64 64 sampleName
        (oneFile (FileSystem.created ⟨1, none⟩ 64)) after (working [7]) (holding64 true) := by
  have hinit : Initialised (fun _ => none) Region.mapped64 64 sampleName
      (holding64 true).dataManager :=
    ⟨MemoryManager.create 0, ⟨1, none⟩, _, rfl, rfl, rfl, rfl⟩
  have hclose : FileSystem.calls ⟨1, none⟩ (oneFile (FileSystem.created ⟨1, none⟩ 64))
      ((close (working [7]) (holding64 true)).calls.map Prod.snd) =
        some (Function.update (oneFile (FileSystem.created ⟨1, none⟩ 64))
          (cStr (mountPath sampleName)) none) := by
    rw [close_files]
    rfl
  refine ⟨_, hclose, (finishing_iff _ _ _ _ _ _ _ _ _ hinit hclose).2 ⟨_, rfl, ?_⟩⟩
  rintro ⟨-, g, hg, -⟩
  simp at hg

/-- **Somebody else's file removed, and a finished replica reported as failed.**  A file of 128
bytes is found where 64 bytes are asked for, so memory comes from `malloc`, and finishing the
replica removes the file; and where no file can be created, finishing gives back the memory,
leaves nothing, and reports failure. -/
theorem finishing_dishonest :
    (∃ after, Initialised (oneFile file128) Region.mapped128 64 sampleName
        (holding64 false).dataManager ∧
      FileSystem.calls ⟨1, none⟩ (oneFile file128)
        ((close (working [7]) (holding64 false)).calls.map Prod.snd) = some after ∧
      Rejected (oneFile file128) Region.mapped128 64 sampleName file128 ∧
      after (cStr (mountPath sampleName)) = none ∧
      ¬FinishesHonestly (oneFile file128) Region.mapped128 64 sampleName (oneFile file128)
        after (working [7]) (holding64 false)) ∧
    (∃ after, Initialised (fun _ => none) unmapped 64 sampleName (holding64 false).dataManager ∧
      FileSystem.calls ⟨1, none⟩ (fun _ => none)
        ((close unremovable (holding64 false)).calls.map Prod.snd) =
          some after ∧
      Gone (close unremovable (holding64 false)).state.dataManager after ∧
      (closeAndRemove unmapped (holding64 false).dataManager).result = .ok (-1) ∧
      ¬FinishesHonestly (fun _ => none) unmapped 64 sampleName (fun _ => none) after
        unremovable (holding64 false)) := by
  constructor
  · refine ⟨Function.update (oneFile file128) (cStr (mountPath sampleName)) none,
      ⟨MemoryManager.create 0, ⟨1, none⟩, _, rfl, rfl, rfl, rfl⟩, ?_, ⟨rfl, _, rfl, rfl⟩,
      Function.update_self _ _ _, ?_⟩
    · rw [close_files]
      rfl
    · intro hhonest
      have hkept := hhonest.spares file128 rfl ⟨rfl, _, rfl, rfl⟩
      simp [holding64, manager] at hkept
  · refine ⟨fun _ => none, ⟨MemoryManager.create 0, ⟨1, none⟩, _, rfl, rfl, rfl, rfl⟩, ?_, ?_,
      rfl, ?_⟩
    · rw [close_files]
      rfl
    · obtain ⟨-, hsame, -⟩ := close_sends unremovable (holding64 false)
      rw [hsame.dataManager]
      exact ⟨rfl, rfl⟩
    · intro hhonest
      have htold := ((finishesHonestly_iff _ _ _ _ _ _ _ _).1 hhonest).2.2 rfl
      exact absurd htold (by decide)

end RPMAHandler

end RpmaReplica
