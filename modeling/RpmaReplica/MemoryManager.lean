import RpmaReplica.Outside

/-!
# The memory manager

`MemoryManager.cc`: a region of memory that is a mapped pmem file where that is possible and
a block from `malloc` otherwise.  The results of `access`, `pmem_map_file`, `malloc` and
`remove` are inputs (`MemEnv`).

What the callers use about `init` is `init_cases`, which lists what it can do.
-/

namespace RpmaReplica

/-- `MemoryManager`. -/
structure MemoryManager where
  data : Ptr
  size : UInt64
  isPmem : Bool
  path : Bytes
  deriving DecidableEq, Repr

/-- The results of the calls that one method of a `MemoryManager` makes. -/
structure MemEnv where
  access : Bool
  pmemMapFile : Option Mapping
  malloc : Ptr
  remove : ℤ
  deriving DecidableEq, Repr

namespace MemoryManager

/-- `MemoryManager()`.  The member `_size` is left as it is found. -/
def create (size : UInt64) : MemoryManager where
  data := none
  size := size
  isPmem := false
  path := []

def getMemoryFromPmem (env : MemEnv) (path : Bytes) : Prog MemoryManager Ptr := do
  if path = [] then return none
  let m ← Exec.read
  Exec.call (.access (cStr path) env.access)
  if env.access then
    Exec.call (.pmemMapFile (cStr path) 0 false env.pmemMapFile)
  else
    Exec.call (.pmemMapFile (cStr path) m.size true env.pmemMapFile)
  Exec.update fun m => { m with data := env.pmemMapFile.map Mapping.addr }
  match env.pmemMapFile with
  -- `_data == nullptr` decides, whatever `len` and `is_pmem` hold then
  | none => return none
  | some f =>
    if f.isPmem = false ∨ f.len ≠ m.size then
      Exec.call (.pmemUnmap f.addr m.size)
      Exec.update fun m => { m with data := none }
      return none
    else return some f.addr

def getMemoryFromDram (env : MemEnv) : Prog MemoryManager Ptr := do
  let m ← Exec.read
  Exec.call (.malloc m.size env.malloc)
  Exec.update fun m => { m with data := env.malloc }
  return env.malloc

/-- The path under which a region of the given name is stored. -/
def mountPath (path : Bytes) : Bytes := ascii "/mnt/pmem/" ++ path

def init (env : MemEnv) (size : UInt64) (path : Bytes) : Prog MemoryManager Unit := do
  Exec.update fun m => { m with path := mountPath path, size := size }
  let data ← getMemoryFromPmem env (mountPath path)
  Exec.update fun m => { m with data := data }
  if data.isSome then
    Exec.update fun m => { m with isPmem := true }
  else
    Exec.update fun m => { m with isPmem := false }
    let data ← getMemoryFromDram env
    Exec.update fun m => { m with data := data }
    if data.isNone then
      Exec.stop (.thrown (.runtimeError "memory malloc failed"))

/-- Give the region back, as `close_and_remove` and the destructor do. -/
def release (addr : Addr) : Prog MemoryManager Unit := do
  let m ← Exec.read
  if m.isPmem then Exec.call (.pmemUnmap addr m.size) else Exec.call (.free addr)
  Exec.update fun m => { m with data := none }

def closeAndRemove (env : MemEnv) : Prog MemoryManager ℤ := do
  let m ← Exec.read
  match m.data with
  | none => return 0
  | some addr =>
    release addr
    Exec.call (.remove (cStr m.path) env.remove)
    return env.remove

/-- `~MemoryManager()`. -/
def destroy : Prog MemoryManager Unit := do
  let m ← Exec.read
  match m.data with
  | none => return ()
  | some addr => release addr

/-! ### What the methods do to the object -/

variable (env : MemEnv) (m : MemoryManager)

lemma mountPath_ne_nil (path : Bytes) : mountPath path ≠ [] := by
  intro h
  have hlen := congrArg List.length h
  simp [mountPath, ascii] at hlen

/-- The mapping the environment offers, if it is acceptable. -/
def accepted (size : UInt64) : Option Mapping :=
  env.pmemMapFile.filter fun f => f.isPmem && f.len == size

lemma getMemoryFromPmem_eq (path : Bytes) (hpath : path ≠ []) :
    (getMemoryFromPmem env path m).result = .ok ((accepted env m.size).map Mapping.addr) ∧
      (getMemoryFromPmem env path m).state =
        { m with data := (accepted env m.size).map Mapping.addr } := by
  rw [getMemoryFromPmem, accepted]
  rw [if_neg hpath]
  cases hf : env.pmemMapFile with
  | none => cases env.access <;> simp
  | some f =>
      by_cases hok : f.isPmem = false ∨ f.len ≠ m.size
      · have hrej : (f.isPmem && f.len == m.size) = false := by
          rcases hok with h | h <;> simp [h]
        cases env.access <;> simp [hok, Option.filter, hrej]
      · have hacc : (f.isPmem && f.len == m.size) = true := by
          simpa [not_or] using hok
        cases env.access <;> simp [hok, Option.filter, hacc]

/-- **What `init` can do.**  It takes an acceptable mapping, or else a block from `malloc`,
or else throws; in every case the path and the size are those it was called with. -/
theorem init_cases (size : UInt64) (path : Bytes) :
    (∃ f, accepted env size = some f ∧ (init env size path m).result = .ok () ∧
      (init env size path m).state = ⟨some f.addr, size, true, mountPath path⟩) ∨
    (∃ a, accepted env size = none ∧ env.malloc = some a ∧
      (init env size path m).result = .ok () ∧
      (init env size path m).state = ⟨some a, size, false, mountPath path⟩) ∨
    (accepted env size = none ∧ env.malloc = none ∧
      (init env size path m).result =
        .error (.thrown (.runtimeError "memory malloc failed")) ∧
      (init env size path m).state = ⟨none, size, false, mountPath path⟩) := by
  obtain ⟨hres, hst⟩ := getMemoryFromPmem_eq env
    { m with path := mountPath path, size := size } (mountPath path) (mountPath_ne_nil path)
  rw [init, getMemoryFromDram]
  simp only [Exec.bind_apply, Exec.update_apply, Outcome.andThen_ok]
  rw [Outcome.andThen_of_ok hres, hst]
  cases hacc : accepted env size with
  | some f =>
      left
      exact ⟨f, rfl, by simp, by simp⟩
  | none =>
      right
      cases hmal : env.malloc with
      | some a =>
          left
          exact ⟨a, rfl, rfl, by simp, by simp⟩
      | none =>
          right
          exact ⟨rfl, rfl, by simp, by simp⟩

/-- Whatever it does, `init` takes over the path and the size. -/
lemma init_named (size : UInt64) (path : Bytes) :
    (init env size path m).state.path = mountPath path ∧
      (init env size path m).state.size = size := by
  rcases init_cases env m size path with ⟨f, -, -, hst⟩ | ⟨a, -, -, -, hst⟩ | ⟨-, -, -, hst⟩
  all_goals
    rw [hst]
    exact ⟨rfl, rfl⟩

/-- The memory that `init` asks for is there. -/
def CanAllocate (size : UInt64) : Prop := accepted env size ≠ none ∨ env.malloc ≠ none

instance (size : UInt64) : Decidable (CanAllocate env size) :=
  inferInstanceAs (Decidable (_ ∨ _))

lemma release_eq (addr : Addr) :
    (release addr m).result = .ok () ∧ (release addr m).state = { m with data := none } := by
  rw [release]
  cases hm : m.isPmem <;> simp [hm]

/-- `close_and_remove` always returns, with the region given back. -/
lemma closeAndRemove_eq :
    (closeAndRemove env m).result = .ok (if m.data = none then 0 else env.remove) ∧
      (closeAndRemove env m).state = { m with data := none } := by
  rw [closeAndRemove]
  cases hdata : m.data with
  | none =>
      refine ⟨by simp [hdata], ?_⟩
      obtain ⟨d, sz, p, pa⟩ := m
      simp only at hdata
      subst hdata
      simp
  | some addr =>
      obtain ⟨hres, hst⟩ := release_eq m addr
      simp only [Exec.bind_apply, Exec.read_apply, Outcome.andThen_ok, hdata]
      rw [Outcome.andThen_of_ok hres, hst]
      simp

/-- Destruction gives the region back. -/
lemma destroy_eq :
    (destroy m).result = .ok () ∧ (destroy m).state = { m with data := none } := by
  rw [destroy]
  cases hdata : m.data with
  | none =>
      refine ⟨by simp [hdata], ?_⟩
      obtain ⟨d, sz, p, pa⟩ := m
      simp only at hdata
      subst hdata
      simp
  | some addr =>
      simp only [Exec.bind_apply, Exec.read_apply, Outcome.andThen_ok, hdata]
      exact release_eq m addr

/-! ### Which calls the methods make -/

lemma getMemoryFromPmem_only (path : Bytes) :
    Exec.Only Call.IsMemory (getMemoryFromPmem env path) := by
  refine .ite (.ret _) (.bind .read fun m => .bind (.call trivial) fun _ => ?_)
  refine .ite (.bind (.call trivial) fun _ => .bind (.update _) fun _ => ?_)
    (.bind (.call trivial) fun _ => .bind (.update _) fun _ => ?_)
  all_goals
    cases env.pmemMapFile with
    | none => exact .ret _
    | some f =>
        refine .ite ?_ (.ret _)
        exact .bind (.call trivial) fun _ => .bind (.update _) fun _ => .ret _

lemma init_only (size : UInt64) (path : Bytes) : Exec.Only Call.IsMemory (init env size path) := by
  refine .bind (.update _) fun _ => .bind (getMemoryFromPmem_only env _) fun _ => ?_
  refine .bind (.update _) fun _ => .ite (.update _) ?_
  refine .bind (.update _) fun _ => .bind ?_ fun _ => .bind (.update _) fun _ =>
    .ite (.stop _) (.ret _)
  exact .bind .read fun _ => .bind (.call trivial) fun _ => .bind (.update _) fun _ => .ret _

lemma release_only (addr : Addr) : Exec.Only Call.IsMemory (release addr) := by
  refine .bind .read fun _ => ?_
  exact .ite (.bind (.call trivial) fun _ => .update _) (.bind (.call trivial) fun _ => .update _)

lemma closeAndRemove_only : Exec.Only Call.IsMemory (closeAndRemove env) := by
  refine .bind .read fun m => ?_
  cases m.data with
  | none => exact .ret _
  | some addr => exact .bind (release_only addr) fun _ => .bind (.call trivial) fun _ => .ret _

lemma destroy_only : Exec.Only Call.IsMemory destroy := by
  refine .bind .read fun m => ?_
  cases m.data with
  | none => exact .ret _
  | some addr => exact release_only addr

/-- The calls that `init` makes, in turn. -/
def initCalls (size : UInt64) (path : Bytes) : List Call :=
  [.access (cStr (mountPath path)) env.access,
    .pmemMapFile (cStr (mountPath path)) (if env.access then 0 else size) (!env.access)
      env.pmemMapFile] ++
  match accepted env size with
  | some _ => []
  | none => (env.pmemMapFile.map fun f => Call.pmemUnmap f.addr size).toList ++
      [.malloc size env.malloc]

lemma getMemoryFromPmem_calls (path : Bytes) (hpath : path ≠ []) :
    (getMemoryFromPmem env path m).calls.map Prod.snd =
      [.access (cStr path) env.access,
        .pmemMapFile (cStr path) (if env.access then 0 else m.size) (!env.access)
          env.pmemMapFile] ++
      match accepted env m.size with
      | some _ => []
      | none => (env.pmemMapFile.map fun f => Call.pmemUnmap f.addr m.size).toList := by
  rw [getMemoryFromPmem, accepted]
  rw [if_neg hpath]
  cases hf : env.pmemMapFile with
  | none => cases env.access <;> simp
  | some f =>
      by_cases hok : f.isPmem = false ∨ f.len ≠ m.size
      · have hrej : (f.isPmem && f.len == m.size) = false := by
          rcases hok with h | h <;> simp [h]
        cases env.access <;> simp [hok, Option.filter, hrej]
      · have hacc : (f.isPmem && f.len == m.size) = true := by
          simpa [not_or] using hok
        cases env.access <;> simp [hok, Option.filter, hacc]

lemma init_calls (size : UInt64) (path : Bytes) :
    (init env size path m).calls.map Prod.snd = initCalls env size path := by
  obtain ⟨hres, hst⟩ := getMemoryFromPmem_eq env
    { m with path := mountPath path, size := size } (mountPath path) (mountPath_ne_nil path)
  have hcalls := getMemoryFromPmem_calls env
    { m with path := mountPath path, size := size } (mountPath path) (mountPath_ne_nil path)
  rw [init, getMemoryFromDram, initCalls]
  simp only [Exec.bind_apply, Exec.update_apply, Outcome.andThen_ok]
  rw [Outcome.andThen_of_ok hres, hst]
  cases hacc : accepted env size with
  | some f =>
      rw [hacc] at hcalls
      simpa using hcalls
  | none =>
      rw [hacc] at hcalls
      simp only [List.cons_append, List.nil_append] at hcalls
      cases hmal : env.malloc <;> simp [hcalls]

/-- The call that gives the region at `addr` back. -/
def releaseCall (addr : Addr) : Call :=
  if m.isPmem then .pmemUnmap addr m.size else .free addr

lemma closeAndRemove_calls :
    (closeAndRemove env m).calls.map Prod.snd =
      match m.data with
      | none => []
      | some addr => [releaseCall m addr, .remove (cStr m.path) env.remove] := by
  rw [closeAndRemove]
  cases hdata : m.data with
  | none => simp [hdata]
  | some addr => cases hp : m.isPmem <;> simp [hdata, release, hp, releaseCall]

lemma destroy_calls :
    (destroy m).calls.map Prod.snd = (m.data.map (releaseCall m)).toList := by
  rw [destroy]
  cases hdata : m.data with
  | none => simp [hdata]
  | some addr => cases hp : m.isPmem <;> simp [hdata, release, hp, releaseCall]

end MemoryManager

end RpmaReplica
