import RpmaReplica.ConnectionHandler
import RpmaReplica.Lib.Machine

/-!
# Who destroys an operation

A thread that calls `send`, `recv`, `write` or `flush` posts an operation, enters it in
`callback_table`, and then gives up its ownership; the reactor thread, on the completion of
the operation, erases it from the table, runs its callback and destroys it; and the
destructor of the handler destroys what the table still holds.  Nothing orders the reactor's
step after the caller's last two, so this file runs them in every order.

The steps are those of the functions themselves: a posting call that is not interrupted is
`ConnectionHandler.postOp` (`postOp_eq_steps`), and the reactor's step is
`ConnectionHandler.retire`.
-/

namespace RpmaReplica

open ConnectionHandler

/-- The functions that post an operation. -/
inductive PostKind
  | send
  | recv
  | write (dst : Option MrRemote) (src : MrLocal) (offset len : UInt64)
  | flush (dst : Option MrRemote) (offset len : UInt64) (type : FlushType)
  deriving DecidableEq, Repr

/-- The librpma call by which an operation is posted. -/
def PostKind.call (res : Rpma Unit) : PostKind → OpId → Call
  | send, op => .rpmaSend (some op) res
  | recv, op => .rpmaRecv (some op) res
  | write dst src offset len, op => .rpmaWrite dst offset src offset len (some op) res
  | flush dst offset len type, op => .rpmaFlush dst offset len type (some op) res

/-- How far the call that posts an operation has come. -/
inductive Stage
  | notCalled
  | posted
  | inserted
  | returned
  deriving DecidableEq, Repr

/-- The operations destroyed by a sequence of calls. -/
def deletedOps {σ : Type} (calls : List (σ × Call)) : List OpId :=
  calls.filterMap fun p => match p.2 with
    | .opDelete op => some op
    | _ => none

@[simp] lemma deletedOps_append {σ : Type} (cs ds : List (σ × Call)) :
    deletedOps (cs ++ ds) = deletedOps cs ++ deletedOps ds := List.filterMap_append

/-- The handler, the calls in progress on it, the operations whose completion is still to be
handled, and the destructions so far. -/
structure Ownership (κ : Type) where
  handler : ConnectionHandler κ
  stage : OpId → Stage
  inFlight : Finset OpId
  deleted : List OpId
  alive : Bool

/-- The atomic steps of the callers, of the reactor, and of the destructor. -/
inductive OwnershipAct (κ : Type)
  | post (kind : PostKind) (callback : Option κ) (res : Rpma Unit)
  | insert (op : OpId)
  | release (op : OpId)
  | complete (op : OpId)
  | destroy

namespace Ownership

variable {κ : Type}

/-- Nothing has been posted yet. -/
def create (handler : ConnectionHandler κ) : Ownership κ where
  handler := handler
  stage := fun _ => .notCalled
  inFlight := ∅
  deleted := []
  alive := true

/-- Create and post an operation. -/
def post (s : Ownership κ) (kind : PostKind) (callback : Option κ) (res : Rpma Unit) :
    Ownership κ :=
  let o := createAndPost (kind.call res) res callback s.handler
  let op := s.handler.nextOp
  match res with
  | .ok _ => { s with
      handler := o.state
      stage := Function.update s.stage op .posted
      inFlight := insert op s.inFlight
      deleted := s.deleted ++ deletedOps o.calls }
  -- the `unique_ptr` destroys the operation when the function returns
  | .error _ => { s with
      handler := o.state
      stage := Function.update s.stage op .returned
      deleted := s.deleted ++ deletedOps o.calls }

/-- The reactor handles the completion of an operation.  What its callback posts is posted by
steps of their own. -/
def complete (s : Ownership κ) (op : OpId) : Ownership κ :=
  let o := retire (Lens.self _) (fun _ => pure ()) op s.handler
  { s with
    handler := o.state
    inFlight := s.inFlight.erase op
    deleted := s.deleted ++ deletedOps o.calls }

/-- The handler is destroyed. -/
def destruct (s : Ownership κ) : Ownership κ :=
  let o := ConnectionHandler.destroy s.handler
  { s with
    handler := o.state
    inFlight := ∅
    deleted := s.deleted ++ deletedOps o.calls
    alive := false }

/-- The interleavings of any number of posting calls with the completions of what they
posted, and at the end, when all calls have returned, the destruction of the handler. -/
def machine (κ : Type) : Machine (Ownership κ) (OwnershipAct κ) where
  step s
    | .post kind callback res => if s.alive then some (s.post kind callback res) else none
    | .insert op =>
      if s.alive ∧ s.stage op = .posted then
        some { s with
          handler := (insertOp op s.handler).state
          stage := Function.update s.stage op .inserted }
      else none
    | .release op =>
      if s.alive ∧ s.stage op = .inserted then
        some { s with stage := Function.update s.stage op .returned }
      else none
    | .complete op => if s.alive ∧ op ∈ s.inFlight then some (s.complete op) else none
    | .destroy =>
      if s.alive ∧ ∀ op < s.handler.nextOp, s.stage op = .returned then some s.destruct
      else none

/-- Every operation is destroyed at most once, and the table holds none that is destroyed. -/
def Owned (s : Ownership κ) : Prop :=
  s.deleted.Nodup ∧ ∀ op ∈ s.handler.callbackTable, op ∉ s.deleted

/-- An operation is entered in the table before its completion is handled. -/
def InsertedInTime (s : Ownership κ) : OwnershipAct κ → Prop
  | .insert op => op ∉ s.deleted
  | _ => True

/-! ### The steps -/

lemma machine_post (s : Ownership κ) (kind : PostKind) (callback : Option κ) (res : Rpma Unit)
    (halive : s.alive = true) :
    (machine κ).step s (.post kind callback res) = some (s.post kind callback res) :=
  if_pos halive

lemma machine_insert {s : Ownership κ} (op : OpId) (halive : s.alive = true)
    (hst : s.stage op = .posted) :
    (machine κ).step s (.insert op) =
      some { s with
        handler := (insertOp op s.handler).state
        stage := Function.update s.stage op .inserted } :=
  if_pos ⟨halive, hst⟩

lemma machine_release {s : Ownership κ} (op : OpId) (halive : s.alive = true)
    (hst : s.stage op = .inserted) :
    (machine κ).step s (.release op) =
      some { s with stage := Function.update s.stage op .returned } :=
  if_pos ⟨halive, hst⟩

lemma machine_complete {s : Ownership κ} (op : OpId) (halive : s.alive = true)
    (hop : op ∈ s.inFlight) : (machine κ).step s (.complete op) = some (s.complete op) :=
  if_pos ⟨halive, hop⟩

lemma machine_destroy {s : Ownership κ} (halive : s.alive = true)
    (hret : ∀ op < s.handler.nextOp, s.stage op = .returned) :
    (machine κ).step s .destroy = some s.destruct :=
  if_pos ⟨halive, hret⟩

lemma createAndPost_ok (kind : PostKind) (callback : Option κ) (h : ConnectionHandler κ) :
    (createAndPost (kind.call (.ok ())) (.ok ()) callback h).state =
        { h with ops := (h.nextOp, callback) :: h.ops, nextOp := h.nextOp + 1 } ∧
      deletedOps (createAndPost (kind.call (.ok ())) (.ok ()) callback h).calls = [] := by
  cases kind <;> exact ⟨rfl, rfl⟩

lemma createAndPost_error (kind : PostKind) (callback : Option κ) (h : ConnectionHandler κ)
    (e : RpmaError) :
    (createAndPost (kind.call (.error e)) (.error e) callback h).state.callbackTable =
        h.callbackTable ∧
      (createAndPost (kind.call (.error e)) (.error e) callback h).state.nextOp = h.nextOp + 1 ∧
      deletedOps (createAndPost (kind.call (.error e)) (.error e) callback h).calls =
        [h.nextOp] := by
  cases kind <;> exact ⟨rfl, rfl, rfl⟩

lemma retire_plain (op : OpId) (h : ConnectionHandler κ) :
    (retire (Lens.self _) (fun _ => pure ()) op h).state.callbackTable =
        h.callbackTable.erase op ∧
      (retire (Lens.self _) (fun _ => pure ()) op h).state.nextOp = h.nextOp ∧
      deletedOps (retire (Lens.self _) (fun _ => pure ()) op h).calls = [op] := by
  rw [retire, doCallback]
  rcases hl : h.ops.lookup op with _ | _ | k <;>
    simp [hl, eraseOp, deleteOp, Lens.self, deletedOps]

lemma deletedOps_destroy (h : ConnectionHandler κ) :
    deletedOps (ConnectionHandler.destroy h).calls = h.callbackTable.sort := by
  have hlog : deletedOps (ConnectionHandler.destroy h).calls =
      (Exec.log (ConnectionHandler.destroy h)).filterMap fun
        | .opDelete op => some op
        | _ => none := by
    rw [Exec.log, List.filterMap_map]
    rfl
  rw [hlog, (ConnectionHandler.destroy_eq h).2.2, List.filterMap_map]
  exact List.filterMap_some

lemma deleted_destruct (s : Ownership κ) :
    s.destruct.deleted = s.deleted ++ s.handler.callbackTable.sort :=
  congrArg _ (deletedOps_destroy s.handler)

/-- A posting call that nobody interrupts is the function itself: posting, entering and
releasing in turn leaves the handler as `postOp` does, and destroys nothing that `postOp`
does not destroy. -/
lemma postOp_eq_steps (kind : PostKind) (callback : Option κ) (s : Ownership κ)
    (halive : s.alive = true) :
    ∃ t, (machine κ).Run s [.post kind callback (.ok ()), .insert s.handler.nextOp,
        .release s.handler.nextOp] t ∧
      t.handler = (postOp (kind.call (.ok ())) (.ok ()) callback s.handler).state ∧
      t.stage s.handler.nextOp = .returned ∧ t.deleted = s.deleted := by
  obtain ⟨hstate, hdel⟩ := createAndPost_ok kind callback s.handler
  have r₁ : (machine κ).Run s [.post kind callback (.ok ())] (s.post kind callback (.ok ())) :=
    Machine.Run.snoc (.nil s) (if_pos halive)
  have hst₁ : (s.post kind callback (.ok ())).stage s.handler.nextOp = .posted := by
    simp [post]
  have r₂ := r₁.snoc (machine_insert _ halive hst₁)
  have r₃ := r₂.snoc (machine_release _ halive (Function.update_self _ _ _))
  refine ⟨_, r₃, ?_, Function.update_self _ _ _, ?_⟩
  · cases kind <;> rfl
  · show s.deleted ++ _ = s.deleted
    rw [hdel, List.append_nil]

/-! ### Runs -/

/-- What holds as long as operations are entered in the table in time. -/
structure Inv (s : Ownership κ) : Prop where
  nodup : s.deleted.Nodup
  table : ∀ op ∈ s.handler.callbackTable, op ∉ s.deleted
  inFlight : ∀ op ∈ s.inFlight, op ∉ s.deleted
  deleted_lt : ∀ op ∈ s.deleted, op < s.handler.nextOp
  table_lt : ∀ op ∈ s.handler.callbackTable, op < s.handler.nextOp
  inFlight_lt : ∀ op ∈ s.inFlight, op < s.handler.nextOp
  posted_lt : ∀ op, s.stage op = .posted → op < s.handler.nextOp

lemma inv_create (sendBl recvBl : MsgBuf) :
    (create (ConnectionHandler.create sendBl recvBl) : Ownership κ).Inv := by
  constructor <;> simp [create, ConnectionHandler.create]

lemma Inv.post {s : Ownership κ} (h : s.Inv) (kind : PostKind) (callback : Option κ)
    (res : Rpma Unit) : (s.post kind callback res).Inv := by
  have hfresh : s.handler.nextOp ∉ s.deleted := fun hm => lt_irrefl _ (h.deleted_lt _ hm)
  cases res with
  | ok u =>
      obtain ⟨hstate, hdel⟩ := createAndPost_ok kind callback s.handler
      simp only [Ownership.post]
      constructor <;> simp only [hstate, hdel, List.append_nil]
      · exact h.nodup
      · exact h.table
      · intro op hop
        rcases Finset.mem_insert.1 hop with rfl | hop
        · exact hfresh
        · exact h.inFlight op hop
      · exact fun op hop => Nat.lt_succ_of_lt (h.deleted_lt op hop)
      · exact fun op hop => Nat.lt_succ_of_lt (h.table_lt op hop)
      · intro op hop
        rcases Finset.mem_insert.1 hop with rfl | hop
        · exact Nat.lt_succ_self _
        · exact Nat.lt_succ_of_lt (h.inFlight_lt op hop)
      · intro op hop
        by_cases hne : op = s.handler.nextOp
        · rw [hne]
          exact Nat.lt_succ_self _
        · rw [Function.update_of_ne hne] at hop
          exact Nat.lt_succ_of_lt (h.posted_lt op hop)
  | error e =>
      obtain ⟨htable, hnext, hdel⟩ := createAndPost_error kind callback s.handler e
      simp only [Ownership.post]
      constructor <;> simp only [htable, hnext, hdel]
      · rw [List.nodup_append]
        refine ⟨h.nodup, List.nodup_singleton _, ?_⟩
        rintro a ha b hb rfl
        rw [List.mem_singleton] at hb
        exact hfresh (hb ▸ ha)
      · intro op hop hmem
        rcases List.mem_append.1 hmem with hmem | hmem
        · exact h.table op hop hmem
        · exact (h.table_lt op hop).ne (List.mem_singleton.1 hmem)
      · intro op hop hmem
        rcases List.mem_append.1 hmem with hmem | hmem
        · exact h.inFlight op hop hmem
        · exact (h.inFlight_lt op hop).ne (List.mem_singleton.1 hmem)
      · intro op hmem
        rcases List.mem_append.1 hmem with hmem | hmem
        · exact Nat.lt_succ_of_lt (h.deleted_lt op hmem)
        · rw [List.mem_singleton.1 hmem]
          exact Nat.lt_succ_self _
      · exact fun op hop => Nat.lt_succ_of_lt (h.table_lt op hop)
      · exact fun op hop => Nat.lt_succ_of_lt (h.inFlight_lt op hop)
      · intro op hop
        by_cases hne : op = s.handler.nextOp
        · rw [hne]
          exact Nat.lt_succ_self _
        · rw [Function.update_of_ne hne] at hop
          exact Nat.lt_succ_of_lt (h.posted_lt op hop)

lemma Inv.complete {s : Ownership κ} (h : s.Inv) {op : OpId} (hop : op ∈ s.inFlight) :
    (s.complete op).Inv := by
  obtain ⟨htable, hnext, hdel⟩ := retire_plain op s.handler
  simp only [Ownership.complete]
  constructor <;> simp only [htable, hnext, hdel]
  · rw [List.nodup_append]
    refine ⟨h.nodup, List.nodup_singleton _, ?_⟩
    rintro a ha b hb rfl
    rw [List.mem_singleton] at hb
    exact h.inFlight op hop (hb ▸ ha)
  · intro x hx hmem
    obtain ⟨hne, hx⟩ := Finset.mem_erase.1 hx
    rcases List.mem_append.1 hmem with hmem | hmem
    · exact h.table x hx hmem
    · exact hne (List.mem_singleton.1 hmem)
  · intro x hx hmem
    obtain ⟨hne, hx⟩ := Finset.mem_erase.1 hx
    rcases List.mem_append.1 hmem with hmem | hmem
    · exact h.inFlight x hx hmem
    · exact hne (List.mem_singleton.1 hmem)
  · intro x hmem
    rcases List.mem_append.1 hmem with hmem | hmem
    · exact h.deleted_lt x hmem
    · rw [List.mem_singleton.1 hmem]
      exact h.inFlight_lt op hop
  · exact fun x hx => h.table_lt x (Finset.mem_of_mem_erase hx)
  · exact fun x hx => h.inFlight_lt x (Finset.mem_of_mem_erase hx)
  · exact h.posted_lt

lemma Inv.destruct {s : Ownership κ} (h : s.Inv) : s.destruct.Inv := by
  obtain ⟨htable, hnext, _⟩ := ConnectionHandler.destroy_eq s.handler
  have hdel := deletedOps_destroy s.handler
  simp only [Ownership.destruct]
  constructor <;> simp only [htable, hnext, hdel]
  · rw [List.nodup_append]
    refine ⟨h.nodup, Finset.sort_nodup _ _, ?_⟩
    rintro a ha b hb rfl
    exact h.table a ((Finset.mem_sort _).1 hb) ha
  · simp
  · simp
  · intro op hmem
    rcases List.mem_append.1 hmem with hmem | hmem
    · exact h.deleted_lt op hmem
    · exact h.table_lt op ((Finset.mem_sort _).1 hmem)
  · simp
  · simp
  · exact h.posted_lt

/-- A step taken in time keeps the invariant. -/
lemma Inv.step {s t : Ownership κ} {a : OwnershipAct κ} (h : s.Inv) (ha : s.InsertedInTime a)
    (hstep : (machine κ).step s a = some t) : t.Inv := by
  cases a with
  | post kind callback res =>
      simp only [machine, Option.ite_none_right_eq_some, Option.some.injEq] at hstep
      obtain ⟨-, rfl⟩ := hstep
      exact h.post kind callback res
  | insert op =>
      simp only [machine, Option.ite_none_right_eq_some, Option.some.injEq] at hstep
      obtain ⟨⟨-, hst⟩, rfl⟩ := hstep
      refine ⟨h.nodup, ?_, h.inFlight, h.deleted_lt, ?_, h.inFlight_lt, ?_⟩
      · intro x hx
        rcases Finset.mem_insert.1 hx with rfl | hx
        · exact ha
        · exact h.table x hx
      · intro x hx
        rcases Finset.mem_insert.1 hx with rfl | hx
        · exact h.posted_lt x hst
        · exact h.table_lt x hx
      · intro x hx
        by_cases hne : x = op
        · subst hne
          simp at hx
        · simp only [Function.update_of_ne hne] at hx
          exact h.posted_lt x hx
  | release op =>
      simp only [machine, Option.ite_none_right_eq_some, Option.some.injEq] at hstep
      obtain ⟨-, rfl⟩ := hstep
      refine ⟨h.nodup, h.table, h.inFlight, h.deleted_lt, h.table_lt, h.inFlight_lt, ?_⟩
      intro x hx
      by_cases hne : x = op
      · subst hne
        simp at hx
      · simp only [Function.update_of_ne hne] at hx
        exact h.posted_lt x hx
  | complete op =>
      simp only [machine, Option.ite_none_right_eq_some, Option.some.injEq] at hstep
      obtain ⟨⟨-, hop⟩, rfl⟩ := hstep
      exact h.complete hop
  | destroy =>
      simp only [machine, Option.ite_none_right_eq_some, Option.some.injEq] at hstep
      obtain ⟨-, rfl⟩ := hstep
      exact h.destruct

/-- **When operations are owned properly.**  In an interleaving of posting calls and
completions, followed or not by the destruction of the handler, every operation is destroyed
at most once and the table never holds a destroyed one if and only if no operation is
entered in the table after its completion has been handled. -/
theorem owned_iff (sendBl recvBl : MsgBuf) (as : List (OwnershipAct κ)) (t : Ownership κ)
    (hrun : (machine κ).Run (create (ConnectionHandler.create sendBl recvBl)) as t) :
    (machine κ).Always Owned (create (ConnectionHandler.create sendBl recvBl)) as ↔
      (machine κ).Meets InsertedInTime (create (ConnectionHandler.create sendBl recvBl)) as := by
  refine Machine.always_iff Inv (inv_create sendBl recvBl) (fun s a u h ha hs => h.step ha hs)
    (fun s h => ⟨h.nodup, h.table⟩) ?_ hrun
  intro s a u h ha hstep hown
  cases a with
  | insert op =>
      -- the operation is in the table from now on, and it is destroyed already
      simp only [machine, Option.ite_none_right_eq_some, Option.some.injEq] at hstep
      obtain ⟨-, rfl⟩ := hstep
      simp only [InsertedInTime, not_not] at ha
      exact hown.2 op (Finset.mem_insert_self _ _) ha
  | post kind callback res => exact ha trivial
  | release op => exact ha trivial
  | complete op => exact ha trivial
  | destroy => exact ha trivial

/-- A new handler on which nothing has been posted, its buffers zeroed. -/
def fresh : Ownership Empty := create (ConnectionHandler.create .zero .zero)

/-- A send that is entered in the table before its completion is handled. -/
theorem owned_send_in_time :
    ∃ t, (machine Empty).Run fresh
        [.post .send none (.ok ()), .insert 0, .complete 0, .release 0, .destroy] t ∧
      (machine Empty).Always Owned fresh
        [.post .send none (.ok ()), .insert 0, .complete 0, .release 0, .destroy] := by
  have r₁ := (Machine.Run.nil fresh).snoc (machine_post fresh .send none (.ok ()) rfl)
  have r₂ := r₁.snoc (machine_insert 0 rfl rfl)
  have r₃ := r₂.snoc (machine_complete 0 rfl (by decide))
  have r₄ := r₃.snoc (machine_release 0 rfl rfl)
  have r₅ := r₄.snoc (machine_destroy rfl (by decide))
  refine ⟨_, r₅, (owned_iff .zero .zero _ _ r₅).2 ?_⟩
  refine (((Machine.meets_singleton trivial).snoc r₁ ?_).snoc r₂ trivial).snoc r₃ trivial
    |>.snoc r₄ trivial
  exact List.not_mem_nil

/-- **An operation destroyed twice.**  A send completes, and the reactor handles the
completion, before the caller has entered the operation in the table: the table then holds
an operation that is destroyed already, and the destructor destroys it again. -/
theorem send_destroyed_twice :
    ∃ t u, (machine Empty).Run fresh
        [.post .send none (.ok ()), .complete 0, .insert 0, .release 0] t ∧
      (machine Empty).Run fresh
        [.post .send none (.ok ()), .complete 0, .insert 0, .release 0, .destroy] u ∧
      0 ∈ t.handler.callbackTable ∧ 0 ∈ t.deleted ∧ u.deleted = [0, 0] ∧
      ¬t.Owned ∧ ¬u.Owned := by
  have r₁ := (Machine.Run.nil fresh).snoc (machine_post fresh .send none (.ok ()) rfl)
  have r₂ := r₁.snoc (machine_complete 0 rfl (by decide))
  have r₃ := r₂.snoc (machine_insert 0 rfl rfl)
  have r₄ := r₃.snoc (machine_release 0 rfl rfl)
  have r₅ := r₄.snoc (machine_destroy rfl (by decide))
  refine ⟨_, _, r₄, r₅, by decide, by decide, ?_, ?_, ?_⟩
  · exact (deleted_destruct _).trans (congrArg _ (Finset.sort_singleton _ 0))
  · intro h
    exact h.2 0 (by decide) (by decide)
  · intro h
    -- the second destruction repeats the first
    have hnodup := h.1
    rw [deleted_destruct] at hnodup
    exact (List.nodup_append.1 hnodup).2.2 0 (by decide) 0
      ((Finset.mem_sort _).2 (by decide)) rfl

end Ownership

end RpmaReplica
