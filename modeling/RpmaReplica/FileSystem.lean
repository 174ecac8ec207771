import RpmaReplica.Lib.Ledger
import RpmaReplica.Lib.Machine
import RpmaReplica.MemoryManager

/-!
# Memory managers on a file system

What a memory manager does depends on the files it finds.  The file system is modelled by the
files themselves, and a call by what it does to them: `FileSystem.call` is defined exactly on
the calls whose recorded result the file system can have given, so a sequence of calls that is
played on it is one that can happen there.

`pmem_map_file` follows its manual: with length 0 and no flags it maps an existing file as it
is and reports its length; with `PMEM_FILE_CREATE` it gives the file the length asked for, and
creates it if need be.  A call that fails to create may leave a file behind.

The life of a memory manager is a run of `Region.machine`: `init`, `close_and_remove` and the
destructor, with anything that others do to the files in between.
-/

namespace RpmaReplica

/-- A file.  Files are told apart even where a path is used again. -/
structure File where
  id : ℕ
  len : UInt64
  content : ℕ → UInt8

/-- The files, by path. -/
abbrev FileSystem : Type := Bytes → Option File

/-- What `pmem_map_file` does when it has to create a file: which file that is, and the length
of what is left behind, if anything is, when the call fails. -/
structure Creation where
  id : ℕ
  left : Option UInt64

namespace FileSystem

/-- A file that was just created. -/
def created (new : Creation) (len : UInt64) : File := ⟨new.id, len, fun _ => 0⟩

/-- `pmem_map_file`. -/
def mapFile (fs : FileSystem) (new : Creation) (path : Bytes) (len : UInt64) (create : Bool)
    (res : Option Mapping) : Option FileSystem :=
  match fs path, create, res with
  | some _, false, none => some fs
  | some f, false, some m => if m.len = f.len then some fs else none
  | none, false, none => some fs
  | none, false, some _ => none
  | none, true, none => some (Function.update fs path (new.left.map (created new)))
  | none, true, some m =>
    if m.len = len then some (Function.update fs path (some (created new len))) else none
  | some f, true, none =>
    some (Function.update fs path (some { f with len := new.left.getD f.len }))
  | some f, true, some m =>
    if m.len = len then some (Function.update fs path (some { f with len := len })) else none

/-- `remove`. -/
def removeFile (fs : FileSystem) (path : Bytes) (ret : ℤ) : Option FileSystem :=
  match fs path with
  | none => if ret = 0 then none else some fs
  | some _ => if ret = 0 then some (Function.update fs path none) else some fs

/-- What a call does to the files. -/
def call (new : Creation) (fs : FileSystem) : Call → Option FileSystem
  | .access path found => if found = (fs path).isSome then some fs else none
  | .pmemMapFile path len create res => fs.mapFile new path len create res
  | .remove path ret => fs.removeFile path ret
  | _ => some fs

/-- What calls do to the files, one after another. -/
def calls (new : Creation) (fs : FileSystem) (cs : List Call) : Option FileSystem :=
  cs.foldlM (call new) fs

variable (new : Creation) (fs : FileSystem)

@[simp] lemma calls_nil : fs.calls new [] = some fs := rfl

@[simp] lemma calls_cons (c : Call) (cs : List Call) :
    fs.calls new (c :: cs) = (fs.call new c).bind fun fs' => fs'.calls new cs := rfl

lemma calls_append (cs ds : List Call) :
    fs.calls new (cs ++ ds) = (fs.calls new cs).bind fun fs' => fs'.calls new ds :=
  List.foldlM_append

/-- Only the calls on memory concern the files. -/
lemma calls_memoryCalls {σ : Type} (cs : List (σ × Call)) :
    fs.calls new (memoryCalls cs) = fs.calls new (cs.map Prod.snd) := by
  induction cs generalizing fs with
  | nil => rfl
  | cons p cs ih =>
      rw [List.map_cons, calls_cons]
      by_cases hp : p.2.IsMemory
      · have hcons : memoryCalls (p :: cs) = p.2 :: memoryCalls cs := by simp [memoryCalls, hp]
        rw [hcons, calls_cons]
        simp only [ih]
      · have hcons : memoryCalls (p :: cs) = memoryCalls cs := by simp [memoryCalls, hp]
        have hcall : fs.call new p.2 = some fs := by
          rcases p with ⟨s, c⟩
          cases c <;> first | rfl | exact absurd trivial hp
        rw [hcons, hcall, ih]
        rfl

end FileSystem

namespace MemoryManager

variable {env : MemEnv} {size : UInt64} {path : Bytes} {new : Creation} {fs fs' : FileSystem}

/-- What `init` finds on a file system: either there is a file, which is mapped as it is if it
can be mapped, or there is none, and one is created if it can be mapped. -/
lemma init_files (h : fs.calls new (initCalls env size path) = some fs') :
    (∃ f, fs (cStr (mountPath path)) = some f ∧ env.access = true ∧ fs' = fs ∧
      ∀ m, env.pmemMapFile = some m → m.len = f.len) ∨
    (fs (cStr (mountPath path)) = none ∧ env.access = false ∧
      (∀ m, env.pmemMapFile = some m → m.len = size) ∧
      fs' = Function.update fs (cStr (mountPath path)) (match env.pmemMapFile with
        | none => new.left.map (FileSystem.created new)
        | some _ => some (FileSystem.created new size))) := by
  rw [initCalls, FileSystem.calls_append] at h
  obtain ⟨fs₁, hmap, hrest⟩ := Option.bind_eq_some_iff.1 h
  -- what follows the mapping does not concern the files
  have hfs : fs' = fs₁ := by
    cases hacc : accepted env size with
    | some f =>
        rw [hacc] at hrest
        exact (Option.some.inj hrest).symm
    | none =>
        rw [hacc] at hrest
        cases hm : env.pmemMapFile <;> rw [hm] at hrest <;> exact (Option.some.inj hrest).symm
  subst hfs
  rw [FileSystem.calls_cons] at hmap
  obtain ⟨fs₂, haccess, hmap⟩ := Option.bind_eq_some_iff.1 hmap
  simp only [FileSystem.call, Option.ite_none_right_eq_some, Option.some.injEq] at haccess
  obtain ⟨hfound, rfl⟩ := haccess
  simp only [FileSystem.calls_cons, FileSystem.calls_nil, FileSystem.call, FileSystem.mapFile]
    at hmap
  cases hf : fs (cStr (mountPath path)) with
  | some f =>
      rw [hf] at hfound hmap
      left
      cases hm : env.pmemMapFile <;> simp_all
  | none =>
      rw [hf] at hfound hmap
      right
      cases hm : env.pmemMapFile <;> simp_all

end MemoryManager

/-! ### The life of a memory manager -/

/-- A memory manager, the files it works on, and the calls it has made. -/
structure Region where
  files : FileSystem
  manager : MemoryManager
  trace : List Call
  destroyed : Bool

/-- What can happen to a memory manager and to the files. -/
inductive RegionAct
  | init (env : MemEnv) (new : Creation) (size : UInt64) (path : Bytes)
  | closeAndRemove (env : MemEnv) (new : Creation)
  | destroy (new : Creation)
  /-- Others change the files. -/
  | others (files : FileSystem)

namespace Region

/-- A new memory manager, with any value in the member that is not set. -/
def create (files : FileSystem) (size : UInt64) : Region where
  files := files
  manager := MemoryManager.create size
  trace := []
  destroyed := false

/-- A method has run: its calls are made on the files, if they can have been answered so. -/
def run {α : Type} (s : Region) (new : Creation) (o : Outcome Call Stop MemoryManager α) :
    Option Region :=
  (s.files.calls new (o.calls.map Prod.snd)).map fun files =>
    { s with files := files, manager := o.state, trace := s.trace ++ o.calls.map Prod.snd }

/-- `init` is called only while there is no memory; the destructor comes last. -/
def machine : Machine Region RegionAct where
  step s
    | .init env new size path =>
      if s.destroyed = false ∧ s.manager.data = none then
        s.run new (MemoryManager.init env size path s.manager)
      else none
    | .closeAndRemove env new =>
      if s.destroyed = false then s.run new (MemoryManager.closeAndRemove env s.manager) else none
    | .destroy new =>
      if s.destroyed = false then
        (s.run new (MemoryManager.destroy s.manager)).map fun s => { s with destroyed := true }
      else none
    | .others files => some { s with files := files }

lemma run_eq_some {α : Type} {s t : Region} {new : Creation}
    {o : Outcome Call Stop MemoryManager α} (h : s.run new o = some t) :
    ∃ files, s.files.calls new (o.calls.map Prod.snd) = some files ∧
      t = { s with
        files := files, manager := o.state, trace := s.trace ++ o.calls.map Prod.snd } := by
  obtain ⟨files, hfiles, rfl⟩ := Option.map_eq_some_iff.1 h
  exact ⟨files, hfiles, rfl⟩

/-! ### What is acquired and given back -/

/-- What has to be given back: a mapping with its own length, or a block. -/
inductive Block
  | mapping (addr : Addr) (len : UInt64)
  | heap (addr : Addr)
  deriving DecidableEq, Repr

/-- `pmem_map_file` and `malloc` against `pmem_unmap` and `free`. -/
def blocks : Ledger Call Block where
  acquires
    | .pmemMapFile _ _ _ (some f) => some (.mapping f.addr f.len)
    | .malloc _ (some addr) => some (.heap addr)
    | _ => none
  releases
    | .pmemUnmap addr len => some (.mapping addr len)
    | .free addr => some (.heap addr)
    | _ => none

/-- What a memory manager has to give back. -/
def held (m : MemoryManager) : Multiset Block :=
  match m.data with
  | none => 0
  | some addr => {if m.isPmem then .mapping addr m.size else .heap addr}

/-- Nothing is given back that is not held just so, and in the end everything is. -/
def Tidy (s : Region) : Prop :=
  blocks.Sound s.trace ∧ (s.destroyed = true → blocks.Settled s.trace)

/-- The file that `init` finds has the length asked for, if there is one and it can be
mapped. -/
def FitsAct (s : Region) : RegionAct → Prop
  | .init env _ size path => ∀ f, s.files (cStr (MemoryManager.mountPath path)) = some f →
      env.pmemMapFile ≠ none → f.len = size
  | _ => True

/-- What holds as long as files of another length are not mapped. -/
structure Inv (s : Region) : Prop where
  keeps : blocks.Keeps s.trace (held s.manager)
  destroyed : s.destroyed = true → s.manager.data = none

lemma held_of_none {m : MemoryManager} (h : m.data = none) : held m = 0 := by
  rw [held, h]

lemma Inv.tidy {s : Region} (h : s.Inv) : s.Tidy := by
  refine ⟨h.keeps.sound, fun hd => ?_⟩
  have hk := h.keeps
  rw [held_of_none (h.destroyed hd)] at hk
  exact hk.settled

/-- Giving the region back leaves nothing. -/
lemma keeps_release {trace : List Call} {m : MemoryManager} {addr : Addr}
    (h : blocks.Keeps trace (held m)) (hdata : m.data = some addr) :
    blocks.Keeps (trace ++ [m.releaseCall addr]) 0 := by
  rw [held, hdata] at h
  rw [MemoryManager.releaseCall]
  cases hp : m.isPmem with
  | true =>
      simp only [hp, if_true] at h ⊢
      exact Ledger.Keeps.release (b := .mapping addr m.size) h rfl rfl
  | false =>
      simp only [hp, Bool.false_eq_true, if_false] at h ⊢
      exact Ledger.Keeps.release (b := .heap addr) h rfl rfl

/-- `init` up to the mapping: nothing, or the mapping, is then held. -/
lemma keeps_mapped {trace : List Call} (h : blocks.Keeps trace 0) (path : Bytes) (found : Bool)
    (len : UInt64) (create : Bool) (res : Option Mapping) :
    blocks.Keeps (trace ++ [.access path found, .pmemMapFile path len create res])
      (match res with
        | none => 0
        | some f => {.mapping f.addr f.len}) := by
  have h₁ : blocks.Keeps (trace ++ [.access path found]) 0 := h.other rfl rfl
  have hsplit : trace ++ [.access path found, .pmemMapFile path len create res] =
      trace ++ [.access path found] ++ [.pmemMapFile path len create res] := by simp
  rw [hsplit]
  cases res with
  | none => exact h₁.other rfl rfl
  | some f =>
      exact Ledger.Keeps.acquire (c := .pmemMapFile path len create (some f)) h₁ rfl rfl

/-- `init` from `malloc` on. -/
lemma keeps_malloc {trace : List Call} (h : blocks.Keeps trace 0) (size : UInt64) (res : Ptr)
    (path : Bytes) :
    blocks.Keeps (trace ++ [.malloc size res]) (held ⟨res, size, false, path⟩) := by
  cases res with
  | none => exact h.other rfl rfl
  | some addr => exact Ledger.Keeps.acquire (c := .malloc size (some addr)) h rfl rfl

lemma accepted_eq_some {env : MemEnv} {size : UInt64} {f : Mapping}
    (h : MemoryManager.accepted env size = some f) :
    env.pmemMapFile = some f ∧ f.isPmem = true ∧ f.len = size := by
  obtain ⟨hf, hok⟩ := Option.filter_eq_some_iff.1 h
  simp only [Bool.and_eq_true, beq_iff_eq] at hok
  exact ⟨hf, hok.1, hok.2⟩

/-- What `init` leaves to be given back, if what it maps has the length asked for. -/
lemma keeps_init {trace : List Call} (h : blocks.Keeps trace 0) {env : MemEnv} {size : UInt64}
    (hfit : ∀ f, env.pmemMapFile = some f → f.len = size) (path : Bytes) (m : MemoryManager) :
    blocks.Keeps (trace ++ MemoryManager.initCalls env size path)
      (held (MemoryManager.init env size path m).state) := by
  have hmap := keeps_mapped h (cStr (MemoryManager.mountPath path)) env.access
    (if env.access then 0 else size) (!env.access) env.pmemMapFile
  rw [MemoryManager.initCalls, ← List.append_assoc]
  rcases MemoryManager.init_cases env m size path with ⟨f, hacc, -, hst⟩ | hdram
  · obtain ⟨hf, -, hlen⟩ := accepted_eq_some hacc
    rw [hacc, hst, List.append_nil]
    rw [hf] at hmap ⊢
    simp only [hlen] at hmap
    exact hmap
  · -- no mapping was accepted: what was mapped is given back, and `malloc` is asked
    have hacc : MemoryManager.accepted env size = none ∧
        (MemoryManager.init env size path m).state =
          ⟨env.malloc, size, false, MemoryManager.mountPath path⟩ := by
      rcases hdram with ⟨a, hacc, hmal, -, hst⟩ | ⟨hacc, hmal, -, hst⟩
      · rw [hmal]
        exact ⟨hacc, hst⟩
      · rw [hmal]
        exact ⟨hacc, hst⟩
    rw [hacc.1, hacc.2, ← List.append_assoc]
    refine keeps_malloc ?_ _ _ _
    cases hf : env.pmemMapFile with
    | none =>
        rw [hf] at hmap
        simpa using hmap
    | some f =>
        rw [hf] at hmap
        have hrel : blocks.releases (.pmemUnmap f.addr size) = some (.mapping f.addr f.len) := by
          rw [hfit f hf]
          rfl
        exact Ledger.Keeps.release (c := .pmemUnmap f.addr size) hmap rfl hrel

/-- A file of another length is given back with the wrong one. -/
lemma not_sound_init {trace : List Call} (h : blocks.Keeps trace 0) {env : MemEnv}
    {size : UInt64} {f : Mapping} (hf : env.pmemMapFile = some f) (hlen : f.len ≠ size)
    (path : Bytes) : ¬blocks.Sound (trace ++ MemoryManager.initCalls env size path) := by
  have hmap := keeps_mapped h (cStr (MemoryManager.mountPath path)) env.access
    (if env.access then 0 else size) (!env.access) env.pmemMapFile
  have hacc : MemoryManager.accepted env size = none := by
    rw [MemoryManager.accepted, hf, Option.filter_some, if_neg]
    simp [hlen]
  rw [MemoryManager.initCalls, ← List.append_assoc, hacc, ← List.append_assoc]
  rw [hf] at hmap ⊢
  refine Ledger.Keeps.not_sound (c := .pmemUnmap f.addr size) hmap rfl rfl ?_
  simpa using fun heq => hlen heq.symm

/-! ### Runs -/

lemma inv_create (files : FileSystem) (size : UInt64) : (create files size).Inv :=
  ⟨.nil, fun h => absurd h (by simp [create])⟩

/-- A step that maps no file of another length keeps the invariant. -/
lemma Inv.step {s t : Region} {a : RegionAct} (h : s.Inv) (ha : s.FitsAct a)
    (hstep : machine.step s a = some t) : t.Inv := by
  cases a with
  | init env new size path =>
      simp only [machine, Option.ite_none_right_eq_some] at hstep
      obtain ⟨⟨hd, hdata⟩, hrun⟩ := hstep
      obtain ⟨files, hfiles, rfl⟩ := run_eq_some hrun
      rw [MemoryManager.init_calls] at hfiles
      have hkeeps := h.keeps
      rw [held_of_none hdata] at hkeeps
      refine ⟨?_, fun hd' => absurd (hd.symm.trans hd') (by simp)⟩
      simp only [MemoryManager.init_calls]
      refine keeps_init hkeeps (fun f hf => ?_) path s.manager
      rcases MemoryManager.init_files hfiles with ⟨g, hg, -, -, hlen⟩ | ⟨-, -, hlen, -⟩
      · exact (hlen f hf).trans (ha g hg (by simp [hf]))
      · exact hlen f hf
  | closeAndRemove env new =>
      simp only [machine, Option.ite_none_right_eq_some] at hstep
      obtain ⟨hd, hrun⟩ := hstep
      obtain ⟨files, -, rfl⟩ := run_eq_some hrun
      refine ⟨?_, fun hd' => absurd (hd.symm.trans hd') (by simp)⟩
      simp only [MemoryManager.closeAndRemove_calls, (MemoryManager.closeAndRemove_eq _ _).2]
      cases hdata : s.manager.data with
      | none =>
          have hkeeps := h.keeps
          rw [held_of_none hdata] at hkeeps
          simpa [held] using hkeeps
      | some addr =>
          have hrel : blocks.Keeps (s.trace ++ [s.manager.releaseCall addr] ++
              [.remove (cStr s.manager.path) env.remove]) 0 :=
            (keeps_release h.keeps hdata).other rfl rfl
          simpa [held] using hrel
  | destroy new =>
      simp only [machine, Option.ite_none_right_eq_some, Option.map_eq_some_iff] at hstep
      obtain ⟨-, u, hrun, rfl⟩ := hstep
      obtain ⟨files, -, rfl⟩ := run_eq_some hrun
      refine ⟨?_, fun _ => by simp [(MemoryManager.destroy_eq _).2]⟩
      simp only [MemoryManager.destroy_calls, (MemoryManager.destroy_eq _).2]
      cases hdata : s.manager.data with
      | none =>
          have hkeeps := h.keeps
          rw [held_of_none hdata] at hkeeps
          simpa [held] using hkeeps
      | some addr => simpa [held] using keeps_release h.keeps hdata
  | others files =>
      simp only [machine, Option.some.injEq] at hstep
      subst hstep
      exact ⟨h.keeps, h.destroyed⟩

/-- **When mappings are released properly.**  Over any sequence of `init`, `close_and_remove`
and destruction, on any files and with any answers from outside: at no moment something has
been unmapped or freed that was not mapped or allocated just so, and after the destructor every
mapping has been unmapped exactly once with its own length and every block freed exactly once,
if and only if `init` never maps an existing file of a length other than the one asked for. -/
theorem released_once_iff (files : FileSystem) (size : UInt64) (as : List RegionAct) (t : Region)
    (hrun : machine.Run (create files size) as t) :
    machine.Always Tidy (create files size) as ↔ machine.Meets FitsAct (create files size) as := by
  refine Machine.always_iff Inv (inv_create files size) (fun s a u h ha hs => h.step ha hs)
    (fun s h => h.tidy) ?_ hrun
  intro s a u h ha hstep htidy
  cases a with
  | init env new size path =>
      simp only [machine, Option.ite_none_right_eq_some] at hstep
      obtain ⟨⟨-, hdata⟩, hrun⟩ := hstep
      obtain ⟨files, hfiles, rfl⟩ := run_eq_some hrun
      rw [MemoryManager.init_calls] at hfiles
      simp only [FitsAct, not_forall] at ha
      obtain ⟨g, hg, hmapped, hlen⟩ := ha
      obtain ⟨f, hf⟩ := Option.ne_none_iff_exists'.1 hmapped
      have hkeeps := h.keeps
      rw [held_of_none hdata] at hkeeps
      have hsound := htidy.1
      simp only [MemoryManager.init_calls] at hsound
      refine not_sound_init hkeeps hf (fun heq => hlen ?_) path hsound
      rcases MemoryManager.init_files hfiles with ⟨g', hg', -, -, hlen'⟩ | ⟨hnone, -⟩
      · obtain rfl := Option.some.inj (hg.symm.trans hg')
        rw [← hlen' f hf, heq]
      · simp [hg] at hnone
  | closeAndRemove env new => exact ha trivial
  | destroy new => exact ha trivial
  | others files => exact ha trivial

/-- What `init` does on files where its calls can have been answered so. -/
lemma machine_init {s : Region} (env : MemEnv) (new : Creation) (size : UInt64) (path : Bytes)
    {files : FileSystem} (hd : s.destroyed = false) (hdata : s.manager.data = none)
    (hfiles : s.files.calls new (MemoryManager.initCalls env size path) = some files) :
    machine.step s (.init env new size path) =
      some { s with
        files := files
        manager := (MemoryManager.init env size path s.manager).state
        trace := s.trace ++ MemoryManager.initCalls env size path } := by
  simp [machine, hd, hdata, run, MemoryManager.init_calls, hfiles]

lemma machine_destroy {s : Region} (new : Creation) (hd : s.destroyed = false) :
    machine.step s (.destroy new) =
      some { s with
        manager := { s.manager with data := none }
        trace := s.trace ++ (s.manager.data.map s.manager.releaseCall).toList
        destroyed := true } := by
  have hfiles : s.files.calls new (s.manager.data.map s.manager.releaseCall).toList =
      some s.files := by
    cases hdata : s.manager.data with
    | none => rfl
    | some addr => cases hp : s.manager.isPmem <;> simp [MemoryManager.releaseCall, hp,
        FileSystem.call]
  simp [machine, hd, run, MemoryManager.destroy_calls, hfiles, (MemoryManager.destroy_eq _).2]

/-- The name of the file of a replica. -/
def sampleName : Bytes := ascii "rbd-pwl.RBD.test.pool.1"

/-- One file, which is that of the replica. -/
def oneFile (f : File) : FileSystem :=
  Function.update (fun _ => none) (cStr (MemoryManager.mountPath sampleName)) (some f)

/-- `pmem_map_file` maps 64 bytes of pmem. -/
def mapped64 : MemEnv := ⟨false, some ⟨16, 64, true⟩, none, 0⟩

/-- A region of a file that `init` has to create. -/
theorem released_once_created :
    ∃ t, machine.Run (create (fun _ => none) 0)
        [.init mapped64 ⟨1, none⟩ 64 sampleName, .destroy ⟨1, none⟩] t ∧
      machine.Always Tidy (create (fun _ => none) 0)
        [.init mapped64 ⟨1, none⟩ 64 sampleName, .destroy ⟨1, none⟩] ∧
      .pmemUnmap 16 64 ∈ t.trace := by
  have r₁ := (Machine.Run.nil (create (fun _ => none) 0)).snoc
    (machine_init mapped64 ⟨1, none⟩ 64 sampleName rfl rfl rfl)
  have r₂ := r₁.snoc (machine_destroy ⟨1, none⟩ rfl)
  refine ⟨_, r₂, (released_once_iff _ _ _ _ r₂).2 ?_, ?_⟩
  · refine (Machine.meets_singleton ?_).snoc r₁ trivial
    intro f hf
    exact absurd hf (by simp [create])
  · decide

/-- A file of 128 bytes. -/
def file128 : File := ⟨7, 128, fun _ => 0⟩

/-- `pmem_map_file` maps the 128 bytes of an existing file. -/
def mapped128 : MemEnv := ⟨true, some ⟨16, 128, true⟩, some 32, 0⟩

/-- **A mapping released with the wrong length.**  A region of 64 bytes is asked for where a
file of 128 bytes is: the mapping of 128 bytes is rejected and unmapped as one of 64 bytes, so
that it is never unmapped with its own length, and something is unmapped that was never
mapped. -/
theorem rejected_mapping_unmapped_short :
    ∃ t, machine.Run (create (oneFile file128) 0)
        [.init mapped128 ⟨1, none⟩ 64 sampleName, .destroy ⟨1, none⟩] t ∧
      t.destroyed = true ∧
      .mapping 16 128 ∈ blocks.acquired t.trace ∧ .mapping 16 128 ∉ blocks.released t.trace ∧
      .mapping 16 64 ∈ blocks.released t.trace ∧ .mapping 16 64 ∉ blocks.acquired t.trace ∧
      ¬t.Tidy := by
  have r₁ := (Machine.Run.nil (create (oneFile file128) 0)).snoc
    (machine_init mapped128 ⟨1, none⟩ 64 sampleName rfl rfl rfl)
  have r₂ := r₁.snoc (machine_destroy ⟨1, none⟩ rfl)
  refine ⟨_, r₂, rfl, by decide, by decide, by decide, by decide, ?_⟩
  intro htidy
  have hcount := htidy.2 rfl (.mapping 16 128)
  revert hcount
  decide

end Region

end RpmaReplica
