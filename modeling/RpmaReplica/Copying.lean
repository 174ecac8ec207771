import RpmaReplica.ClientMain

/-!
# What the program `client` copies

`main` fills its memory, writes it, waits for the completion of the write, flushes it, and waits
for the completion of the flush.  Each loop ends when `completed` is set, and `completed` is set by
whatever completion has a callback of the application.  The flag does not say which operation is
complete; that it is the right one follows from the order of the calls, since no more than one
operation is on its way.

`memory_copied` is the result: when the main thread has got past its second loop, the file of the
replica holds what the memory was filled with.
-/

namespace RpmaReplica

open Exec ConnectionHandler

/-! ### What the functions of the client leave alone -/

namespace ClientHandler

/-- The memory stays registered as it is. -/
def KeepsDataMr {ρ : Type} (m : Prog ClientHandler ρ) : Prop :=
  ∀ mr, Sat (fun h => h.dataMr = mr) (fun _ _ => True) m fun _ h => h.dataMr = mr

section KeepsDataMr

variable {α β : Type}

lemma KeepsDataMr.apply {m : Prog ClientHandler α} (hm : KeepsDataMr m) (h : ClientHandler) :
    (m h).state.dataMr = h.dataMr := (hm h.dataMr h rfl).2

lemma keepsDataMr_of_forall {m : Prog ClientHandler α} (hm : ∀ h, (m h).state.dataMr = h.dataMr) :
    KeepsDataMr m := fun _ h hmr => ⟨fun _ _ => trivial, (hm h).trans hmr⟩

lemma keepsDataMr_pure (a : α) : KeepsDataMr (pure a) := fun _ => .ret fun _ hmr => hmr

lemma keepsDataMr_stop (e : Stop) : KeepsDataMr (Exec.stop e : Prog ClientHandler α) :=
  fun _ => .stop fun _ hmr => hmr

lemma keepsDataMr_call (c : Call) : KeepsDataMr (Exec.call c) :=
  fun _ => .call (fun _ _ => trivial) fun _ hmr => hmr

lemma keepsDataMr_update {f : ClientHandler → ClientHandler} (hf : ∀ h, (f h).dataMr = h.dataMr) :
    KeepsDataMr (Exec.update f) := fun _ => .update fun h hmr => (hf h).trans hmr

lemma KeepsDataMr.bind {m : Prog ClientHandler α} {f : α → Prog ClientHandler β}
    (hm : KeepsDataMr m) (hf : ∀ a, KeepsDataMr (f a)) : KeepsDataMr (m >>= f) :=
  fun mr => .seq (hm mr) (fun a => hf a mr) fun _ _ hmr => hmr

lemma KeepsDataMr.read {f : ClientHandler → Prog ClientHandler β} (hf : ∀ h, KeepsDataMr (f h)) :
    KeepsDataMr (Exec.read >>= f) :=
  fun mr => .read fun h hmr => (hf h mr).conseq (fun _ hs => hs ▸ hmr) fun _ _ hs => hs

lemma keepsDataMr_zoom (m : Prog (ConnectionHandler ClientCallback) α) :
    KeepsDataMr (zoom base m) := keepsDataMr_of_forall fun _ => rfl

lemma keepsDataMr_getRemoteDescriptor (env : RemoteEnv) :
    KeepsDataMr (getRemoteDescriptor env) := by
  refine .read fun h => .bind (fun _ => sat_decodeFrom _ _) fun reply => ?_
  split
  · refine .bind ?_ fun direct => .bind ?_ fun _ => .read fun h' => ?_
    · rw [applyPcfg]
      split
      · exact keepsDataMr_pure _
      · refine .bind (keepsDataMr_call _) fun _ => ?_
        split <;> exact keepsDataMr_pure _
    · rw [createImageMr]
      refine .bind (keepsDataMr_call _) fun _ => ?_
      split
      · exact keepsDataMr_update fun _ => rfl
      · exact keepsDataMr_pure _
    · split
      split
      · exact keepsDataMr_pure _
      · exact .bind (keepsDataMr_update fun _ => rfl) fun _ => keepsDataMr_pure _
  · exact keepsDataMr_pure _

lemma keepsDataMr_runCallback (env : RemoteEnv) (callback : ClientCallback) :
    KeepsDataMr (runCallback env callback) := by
  cases callback with
  | initReply call =>
      exact .bind (keepsDataMr_getRemoteDescriptor env) fun _ => .read
        fun _ => keepsDataMr_update fun _ => rfl
  | finishedReply call =>
      exact .read fun _ => .bind (fun _ => sat_decodeFrom _ _)
        fun _ => keepsDataMr_update fun _ => rfl
  | application id => exact keepsDataMr_pure _

lemma keepsDataMr_retire (env : RemoteEnv) (op : OpId) :
    KeepsDataMr (retire base (runCallback env) op) := by
  refine .bind (keepsDataMr_zoom _) fun _ => ?_
  have hcallback : KeepsDataMr (doCallback base (runCallback env) op) := by
    refine .read fun h => ?_
    split
    · exact keepsDataMr_runCallback env _
    · exact keepsDataMr_pure _
    · exact keepsDataMr_stop _
  refine keepsDataMr_of_forall fun h => ?_
  rw [ensuring_apply]
  exact hcallback.apply h

lemma keepsDataMr_completionTaken (env : RemoteEnv) (c : Completion) :
    KeepsDataMr (completionTaken base (runCallback env) c) := by
  rw [completionTaken]
  split
  · exact keepsDataMr_pure _
  · split
    · exact .bind (keepsDataMr_retire env _) fun _ => keepsDataMr_pure _
    · exact keepsDataMr_pure _

lemma keepsDataMr_postInit (recv send : Rpma Unit) (cacheId : UInt32) (cacheSize : UInt64)
    (poolName imageName : Bytes) :
    KeepsDataMr (postInit recv send cacheId cacheSize poolName imageName) := by
  refine .bind (keepsDataMr_update fun _ => rfl) fun _ => .read fun h => ?_
  refine .bind (keepsDataMr_update fun _ => rfl) fun _ => .bind (keepsDataMr_zoom _) fun _ => ?_
  refine .bind (keepsDataMr_update fun _ => rfl) fun _ => .bind (keepsDataMr_zoom _) fun _ => ?_
  exact .bind (keepsDataMr_zoom _) fun _ => keepsDataMr_pure _

end KeepsDataMr

end ClientHandler

/-! ### The operations that are pending -/

namespace Mirror

variable {remote : Bytes → MrRemote} {conn : HandlerId} {s t : Mirror} {a : MirrorAct} {p : Bytes}
  {off : ℕ}

/-- The operations whose completions have not been handled. -/
def pending (s : Mirror) : List OpId :=
  s.queue.filterMap Completion.opContext ++ s.posted.map fun x => x.work.id

/-- Steps that neither handle the completion of a write or a flush nor post one, and leave the
memory alone. -/
def Idles : MirrorAct → Prop
  | .host _ | .execute _ | .land _ | .cut | .init _ _ _ _ _ _ | .disconnect | .receive _ _ _
  | .sent _ _ => True
  | _ => False

/-- What such a step leaves as it is. -/
structure Idle (s t : Mirror) : Prop where
  pending : t.pending = s.pending
  stopped : s.stopped ≠ none → t.stopped ≠ none
  dataMr : t.client.dataMr = s.client.dataMr
  head : t.head = s.head

/-- A completion is handled. -/
structure Handles (s t : Mirror) : Prop where
  calls : ClientMain.callsBack s = true → ∃ op, s.pending = op :: t.pending ∧
    ∀ p conn, (op, true) ∈ (t.link p conn).done
  drops : t.pending = s.pending ∨ ∃ op, s.pending = op :: t.pending
  dataMr : t.client.dataMr = s.client.dataMr
  head : t.head = s.head
  stopped : s.stopped = none

lemma step_idle (ha : Idles a) (hs : (machine remote conn).step s a = some t) : Idle s t := by
  obtain ⟨b, host, rfl, -, -, rfl⟩ | ⟨ok, rfl, hs⟩ | ⟨off, byte, rfl, -, rfl⟩ | ⟨rfl, rfl⟩ |
    ⟨hstopped, hs⟩ := step_cases hs
  · exact ⟨rfl, id, rfl, rfl⟩
  · obtain ⟨x, xs, hposted, ⟨-, -, -, -, rfl⟩ | ⟨-, rfl⟩⟩ := executed_cases hs
    · exact ⟨by simp [pending, hposted], id, rfl, rfl⟩
    · exact ⟨by simp [pending, hposted], id, rfl, rfl⟩
  · obtain ⟨hposted, hqueue, -, hhead, hclient, -⟩ := landed_frame conn s off byte
    refine ⟨by rw [pending, pending, hposted, hqueue], ?_, by rw [hclient], hhead⟩
    rw [landed]
    split <;> exact id
  · exact ⟨rfl, id, rfl, rfl⟩
  · have hposts := (clientStep_posts hs).1
    cases hposts with
    | one hact => cases a <;> first | exact ha.elim | exact hact.elim
    | nothing hposted hops hnext =>
        cases a with
        | init recv send cacheId cacheSize poolName imageName =>
            obtain rfl := Option.some.inj hs
            exact ⟨by rw [pending, hposted]; rfl, fun h => absurd hstopped h,
              (ClientHandler.keepsDataMr_postInit recv send cacheId cacheSize poolName
                imageName).apply _, rfl⟩
        | disconnect =>
            obtain rfl := Option.some.inj hs
            exact ⟨by rw [pending, hposted]; rfl, fun h => absurd hstopped h, rfl, rfl⟩
        | receive content env op =>
            simp only [clientStep] at hs
            split at hs
            · obtain rfl := Option.some.inj hs
              exact ⟨by rw [pending, hposted]; rfl, fun h => absurd hstopped h,
                (ClientHandler.keepsDataMr_retire env op).apply _, rfl⟩
            · obtain rfl := Option.some.inj hs
              exact ⟨by rw [pending, hposted]; rfl, fun h => absurd hstopped h,
                (ClientHandler.keepsDataMr_retire env op).apply _, rfl⟩
            · cases hs
        | sent env op =>
            simp only [clientStep, Option.ite_none_right_eq_some] at hs
            obtain rfl := Option.some.inj hs.2
            exact ⟨by rw [pending, hposted]; rfl, fun h => absurd hstopped h,
              (ClientHandler.keepsDataMr_retire env op).apply _, rfl⟩
        | change _ _ | setHead _ _ _ _ | close _ _ | handle _ | write _ _ _ _ | flush _ _ _ _ =>
            exact ha.elim
        | host _ | execute _ | land _ | cut => cases hs

lemma step_handles {env : RemoteEnv} (hs : (machine remote conn).step s (.handle env) = some t) :
    Handles s t := by
  simp only [machine, Option.ite_none_right_eq_some] at hs
  obtain ⟨hstopped, hs⟩ := hs
  have hposts := (clientStep_posts hs).1
  cases hqueue : s.queue with
  | nil => simp [clientStep, hqueue] at hs
  | cons c cs =>
      simp only [clientStep, hqueue] at hs
      obtain rfl := Option.some.inj hs
      cases hposts with
      | one hact => exact hact.elim
      | nothing hposted hops hnext =>
          have hpending : s.pending = c.opContext.toList ++ pending { s.after (completionTaken
              ClientHandler.base (ClientHandler.runCallback env) c s.client) with
              queue := cs, handled := s.handled ++ [c] } := by
            rw [pending, pending, hposted, hqueue]
            cases hop : c.opContext <;> simp [hop]
          refine ⟨fun hcalls => ?_, ?_, (ClientHandler.keepsDataMr_completionTaken env c).apply _,
            rfl, hstopped⟩
          · obtain ⟨ctx, oc, success⟩ := c
            cases ctx with
            | none => simp [ClientMain.callsBack, hqueue] at hcalls
            | some op =>
                cases success with
                | false => simp [ClientMain.callsBack, hqueue] at hcalls
                | true =>
                    refine ⟨op, hpending, fun p conn => ?_⟩
                    exact List.mem_filterMap.2 ⟨⟨some op, oc, true⟩, by simp, rfl⟩
          · cases hop : c.opContext with
            | none =>
                rw [hop] at hpending
                exact .inl hpending.symm
            | some op =>
                rw [hop] at hpending
                exact .inr ⟨op, hpending⟩

lemma step_setHead {headPtr : Ptr} {size : UInt64} {reg : Rpma Bytes} {content : ℕ → UInt8}
    (hs : (machine remote conn).step s (.setHead headPtr size reg content) = some t) :
    t.pending = s.pending ∧ (t.client.dataMr = s.client.dataMr ∨ t.head = content) := by
  simp only [machine, Option.ite_none_right_eq_some] at hs
  have hposts := (clientStep_posts hs.2).1
  obtain rfl := Option.some.inj hs.2
  cases hposts with
  | one hact => exact hact.elim
  | nothing hposted hops hnext =>
      refine ⟨by rw [pending, hposted]; rfl, ?_⟩
      cases reg with
      | error e => exact .inl rfl
      | ok descriptor => exact .inr rfl

/-- `write` posts at most one operation, and stops if there is no memory. -/
lemma step_write {res : Rpma Unit} {offset len : UInt64} {callback : Option ℕ}
    (hs : (machine remote conn).step s (.write res offset len callback) = some t) :
    t.stopped ≠ none ∨ t.pending = s.pending ∨ (s.client.dataMr ≠ none ∧
      t.pending = s.pending ++ [s.client.nextOp] ∧ t.head = s.head ∧
      ∀ off, offset.toNat ≤ off → off < offset.toNat + len.toNat →
        (t.link p conn).Written off) := by
  simp only [machine, clientStep, Option.ite_none_right_eq_some] at hs
  obtain rfl := Option.some.inj hs.2
  by_cases hdata : s.client.dataMr = none
  · left
    simp only [after, ClientHandler.write, bind_apply, read_apply, Outcome.andThen_ok, hdata]
    exact Option.some_ne_none _
  · right
    rcases ClientHandler.write_posts (h := s.client) res offset len callback with
      ⟨hquiet, -⟩ | ⟨src, hposting, -⟩
    · left
      simp [pending, after, hquiet.1]
    · right
      refine ⟨hdata, by simp [pending, after, hposting, Work.id], rfl, fun off hle hlt => .inl
        ⟨.write s.client.nextOp offset.toNat offset.toNat len.toNat, ?_, hle, hlt⟩⟩
      simp [link, after, hposting]

/-- `flush` posts at most one operation. -/
lemma step_flush {res : Rpma Unit} {offset len : UInt64} {callback : Option ℕ}
    (hs : (machine remote conn).step s (.flush res offset len callback) = some t) :
    t.pending = s.pending ∨ (t.pending = s.pending ++ [s.client.nextOp] ∧ t.head = s.head ∧
      ∀ off, offset.toNat ≤ off → off < offset.toNat + len.toNat → (s.link p conn).Written off →
        (t.link p conn).Flushing s.client.nextOp off) := by
  simp only [machine, clientStep, Option.ite_none_right_eq_some] at hs
  obtain rfl := Option.some.inj hs.2
  rcases ClientHandler.flush_posts (h := s.client) res offset len callback with
    ⟨hquiet, -⟩ | ⟨hposting, -⟩
  · left
    simp [pending, after, hquiet.1]
  · right
    refine ⟨by simp [pending, after, hposting, Work.id], rfl, fun off hle hlt hwritten => ?_⟩
    refine hwritten.flushing (w := .flush s.client.nextOp offset.toNat len.toNat) rfl ⟨hle, hlt⟩ ?_
    simp [Link.machine, link, after, hposting]

end Mirror

namespace ClientMain

variable {remote : Bytes → MrRemote} {conn : HandlerId} {s t : ClientMain} {a : ClientMainAct}
  {fd : Handle} {p : Bytes} {off : ℕ}

/-! ### Up to the call of `write` -/

/-- What the memory is filled with. -/
def pattern (off : ℕ) : UInt8 := data.getD (off % data.length) 0

lemma data_pos : 0 < data.length := by decide

lemma data_dvd : data.length ∣ mrSize.toNat := by decide

/-- The main thread has not called `write`. -/
def BeforeWrite : Place → Prop
  | .starting | .establishing | .beforeInit | .inInit | .beforeSetHead | .beforeWrite => True
  | _ => False

/-- The program up to the call of `write`. -/
structure Prepared (fd : Handle) (s : ClientMain) : Prop where
  host : Host.Inv fd s.mirror.host
  books : s.mirror.Books
  pending : BeforeWrite s.place → s.mirror.pending = []
  dataMr : BeforeWrite s.place → s.mirror.client.dataMr = none ∨
    s.place = .beforeWrite ∧ ∀ off < mrSize.toNat, s.mirror.head off = pattern off

lemma create_prepared (hfd : fd ≠ -1) (files : FileSystem) (nextFile : ℕ) (sendBl recvBl : MsgBuf)
    (flushType : FlushType) (imageSize : UInt64) (imageMr : Option MrRemote) :
    (create fd files nextFile sendBl recvBl flushType imageSize imageMr).Prepared fd :=
  ⟨Host.start_inv hfd files nextFile, Mirror.start_books fd files nextFile _ _, fun _ => rfl,
    fun _ => .inl rfl⟩

lemma Prepared.host_step (h : s.Prepared fd) {b : MirrorAct} {m : Mirror}
    (hm : (Mirror.machine remote conn).step s.mirror b = some m) (hb : s.mirror.Allowed b) :
    Host.Inv fd m.host := Mirror.inv_step h.host hb hm

/-- A step of the server, of the network, or of `th1`. -/
lemma Prepared.idle (h : s.Prepared fd) {b : MirrorAct} {m : Mirror}
    (hm : (Mirror.machine remote conn).step s.mirror b = some m) (hb : Mirror.Idles b)
    (hallowed : s.mirror.Allowed b) :
    Prepared fd { s with mirror := m } := by
  have hidle := Mirror.step_idle hb hm
  refine ⟨h.host_step hm hallowed, h.books.step hm, fun hplace => ?_, fun hplace => ?_⟩
  · exact hidle.pending.trans (h.pending hplace)
  · show m.client.dataMr = none ∨ s.place = .beforeWrite ∧
      ∀ off < mrSize.toNat, m.head off = pattern off
    rw [hidle.dataMr, hidle.head]
    exact h.dataMr hplace

lemma Prepared.crash (h : s.Prepared fd) (e : Stop) : (s.crash e).Prepared fd :=
  ⟨h.host, ⟨h.books.straight, h.books.nodup, h.books.lt⟩, h.pending, h.dataMr⟩

lemma Prepared.took (h : s.Prepared fd) {taken : Taken} (ht : took remote conn s taken = some t) :
    t.Prepared fd := by
  cases taken with
  | nothing =>
      obtain rfl := Option.some.inj ht
      exact h
  | receive content env op =>
      rw [ClientMain.took] at ht
      split at ht
      · obtain ⟨m, hm, rfl⟩ := mirrorStep_eq_some ht
        exact h.idle hm trivial trivial
      · obtain ⟨u, hu, rfl⟩ := Option.map_eq_some_iff.1 ht
        obtain ⟨m, hm, rfl⟩ := mirrorStep_eq_some hu
        exact (h.idle hm trivial trivial).crash .undefined
  | sent env op =>
      obtain ⟨m, hm, rfl⟩ := mirrorStep_eq_some ht
      exact h.idle hm trivial trivial
  | handle env =>
      obtain ⟨u, hu, rfl⟩ := Option.map_eq_some_iff.1 ht
      obtain ⟨m, hm, rfl⟩ := mirrorStep_eq_some hu
      have hhandles := Mirror.step_handles hm
      refine ⟨h.host_step hm trivial, h.books.step hm, fun hplace => ?_, fun hplace => ?_⟩
      · rcases hhandles.drops with hsame | ⟨op, hop⟩
        · exact hsame.trans (h.pending hplace)
        · rw [h.pending hplace] at hop
          cases hop
      · show m.client.dataMr = none ∨ s.place = .beforeWrite ∧
          ∀ off < mrSize.toNat, m.head off = pattern off
        rw [hhandles.dataMr, hhandles.head]
        exact h.dataMr hplace

/-- `set_head` hands over what the memory has been filled with, or leaves the client without
memory. -/
lemma setHead_filled {m : Mirror} {ptr : Ptr} {uninit : ℕ → UInt8} {reg : Rpma Bytes}
    (hm : (Mirror.machine remote conn).step s.mirror
      (.setHead ptr mrSize reg (fill data mrSize.toNat 0 uninit)) = some m) :
    m.pending = s.mirror.pending ∧ (m.client.dataMr = s.mirror.client.dataMr ∨
      ∀ off < mrSize.toNat, m.head off = pattern off) := by
  obtain ⟨hpending, hdata | hhead⟩ := Mirror.step_setHead hm
  · exact ⟨hpending, .inl hdata⟩
  · refine ⟨hpending, .inr fun off hoff => ?_⟩
    rw [hhead, pattern]
    exact fill_inside data_pos data_dvd (dvd_zero _) uninit (Nat.zero_le off) hoff

/-- The main thread goes on, and there is no memory yet. -/
lemma Prepared.moveTo (h : s.Prepared fd) (hbefore : BeforeWrite s.place)
    (hne : s.place ≠ .beforeWrite) (place : Place) : Prepared fd { s with place := place } :=
  ⟨h.host, h.books, fun _ => h.pending hbefore,
    fun _ => .inl ((h.dataMr hbefore).resolve_right fun hw => hne hw.1)⟩

/-- The main thread goes on after the call of `write`. -/
lemma Prepared.after (host : Host.Inv fd t.mirror.host) (books : t.mirror.Books)
    (hplace : ¬BeforeWrite t.place) : t.Prepared fd :=
  ⟨host, books, fun hbefore => absurd hbefore hplace, fun hbefore => absurd hbefore hplace⟩

lemma Prepared.advances (h : s.Prepared fd) (ht : Advances remote conn s a t) : t.Prepared fd := by
  cases ht with
  | crashed _ _ => exact h.crash _
  | established hplace _ =>
      exact h.moveTo (by rw [hplace]; trivial) (by rw [hplace]; decide) _
  | initReturns hplace =>
      exact h.moveTo (by rw [hplace]; trivial) (by rw [hplace]; decide) _
  | init hplace hm =>
      have hidle := h.idle hm trivial trivial
      exact hidle.moveTo (by rw [hplace]; trivial) (by rw [hplace]; decide) _
  | setHead hplace hm =>
      have hbefore : BeforeWrite s.place := by
        rw [hplace]
        trivial
      have hnone := (h.dataMr hbefore).resolve_right fun hw => by
        rw [hplace] at hw
        cases hw.1
      obtain ⟨hpending, hfilled⟩ := setHead_filled hm
      refine ⟨h.host_step hm trivial, h.books.step hm,
        fun _ => hpending.trans (h.pending hbefore), fun _ => ?_⟩
      rcases hfilled with hdata | hfilled
      · exact .inl (hdata.trans hnone)
      · exact .inr ⟨rfl, hfilled⟩
  | written | flushed | join => exact .after h.host h.books id
  | write hplace hm | flush hplace hm | disconnect hplace hm =>
      exact .after (h.host_step hm trivial) (h.books.step hm) id

/-- The part of a state that `started` leaves alone. -/
lemma Prepared.started (h : s.Prepared fd) (hplace : s.place = .starting)
    (fds : Option (Handle × Handle)) (env₁ env₂ : RegisterEnv) :
    (s.started fds env₁ env₂).Prepared fd := by
  have hbefore : BeforeWrite s.place := by
    rw [hplace]
    trivial
  have hne : s.place ≠ .beforeWrite := by
    rw [hplace]
    decide
  have hmoved := h.moveTo hbefore hne
  rcases fds with _ | ⟨c, k⟩
  · exact h.crash .undefined
  · simp only [ClientMain.started]
    split
    · exact ⟨(hmoved .establishing).host, (hmoved .establishing).books,
        (hmoved .establishing).pending, (hmoved .establishing).dataMr⟩
    · exact .after h.host h.books id

/-- A round of the reactor does not touch the client. -/
lemma mirror_dispatched {fd' : Handle} {env : EventEnv} (hd : s.dispatched fd' env = some t) :
    t.mirror = s.mirror ∧ t.place = s.place ∧ t.completed = s.completed := by
  simp only [dispatched, Option.ite_none_right_eq_some] at hd
  obtain ⟨-, hround⟩ := hd
  obtain ⟨d, -, rfl⟩ := Option.map_eq_some_iff.1 hround
  exact ⟨rfl, rfl, rfl⟩

lemma Prepared.step (h : s.Prepared fd) (hallowed : s.Allowed a)
    (hs : (machine remote conn).step s a = some t) : t.Prepared fd := by
  have hround : ∀ {fd' env u}, s.dispatched fd' env = some u → u.Prepared fd := by
    intro fd' env u hu
    obtain ⟨hmirror, hplace, -⟩ := mirror_dispatched hu
    refine ⟨hmirror ▸ h.host, hmirror ▸ h.books, ?_, ?_⟩
    · rw [hmirror, hplace]
      exact h.pending
    · rw [hmirror, hplace]
      exact h.dataMr
  obtain ⟨b, m, rfl, hb, hm, rfl⟩ | ⟨-, ⟨fd₁, next, -, hd⟩ | ⟨fd₁, taken, u, -, hd, htook⟩ |
    hmain⟩ := step_cases hs
  · exact h.idle hm (by cases b <;> first | exact trivial | exact hb.elim) hallowed
  · exact hround hd
  · exact (hround hd).took htook
  · rcases mainStep_cases hmain with ⟨fds, env₁, env₂, -, hplace, rfl⟩ | hadv
    · exact h.started hplace fds env₁ env₂
    · exact h.advances hadv

/-! ### A byte on its way -/

/-- What holds of a byte of the memory, by the place of the main thread. -/
def Stage (p : Bytes) (conn : HandlerId) (off : ℕ) (s : ClientMain) : Prop :=
  match s.place with
  | .beforeWrite => s.mirror.pending = [] ∧
      (s.mirror.client.dataMr = none ∨ s.mirror.head off = pattern off)
  | .inWrite => s.mirror.stopped ≠ none ∨ (s.mirror.pending = [] ∧ s.completed = false) ∨
      (s.mirror.pending.length ≤ 1 ∧ (s.completed = true → s.mirror.pending = []) ∧
        s.mirror.head off = pattern off ∧ (s.mirror.link p conn).Written off)
  | .beforeFlush => s.mirror.pending = [] ∧ s.mirror.head off = pattern off ∧
      (s.mirror.link p conn).Written off
  | .inFlush => s.mirror.stopped ≠ none ∨ (s.mirror.pending = [] ∧ s.completed = false) ∨
      ∃ op, (∀ q ∈ s.mirror.pending, q = op) ∧
        (s.completed = true → (op, true) ∈ (s.mirror.link p conn).done) ∧
        s.mirror.head off = pattern off ∧ (s.mirror.link p conn).Flushing op off
  | .beforeDisconnect | .joining | .returned => ∃ op, (op, true) ∈ (s.mirror.link p conn).done ∧
      s.mirror.head off = pattern off ∧ (s.mirror.link p conn).Flushing op off
  | _ => False

/-- The program from the call of `write` on, and a byte of its memory. -/
structure Copying (fd : Handle) (p : Bytes) (conn : HandlerId) (off : ℕ) (s : ClientMain) :
    Prop where
  anchored : s.mirror.Anchored fd p conn
  books : s.mirror.Books
  stage : s.Stage p conn off

/-- A step of the server, of the network, or of `th1` that handles no completion. -/
lemma Stage.idle (h : s.Stage p conn off) {m : Mirror} (hidle : Mirror.Idle s.mirror m)
    (hstraight : (s.mirror.link p conn).AllStraight)
    (hfollows : Link.Follows off (s.mirror.link p conn) (m.link p conn)) :
    Stage p conn off { s with mirror := m } := by
  have hhead : m.head off = s.mirror.head off := by rw [hidle.head]
  rw [Stage] at h ⊢
  cases hplace : s.place with
  | beforeWrite =>
      simp only [hplace] at h ⊢
      rw [hidle.pending, hidle.dataMr, hhead]
      exact h
  | inWrite =>
      simp only [hplace] at h ⊢
      rw [hidle.pending, hhead]
      rcases h with hstopped | hnone | ⟨hlen, hcompleted, hsource, hwritten⟩
      · exact .inl (hidle.stopped hstopped)
      · exact .inr (.inl hnone)
      · exact .inr (.inr ⟨hlen, hcompleted, hsource, hfollows.written hstraight hwritten⟩)
  | beforeFlush =>
      simp only [hplace] at h ⊢
      rw [hidle.pending, hhead]
      exact ⟨h.1, h.2.1, hfollows.written hstraight h.2.2⟩
  | inFlush =>
      simp only [hplace] at h ⊢
      rw [hidle.pending, hhead]
      rcases h with hstopped | hnone | ⟨op, hop, hcompleted, hsource, hflushing⟩
      · exact .inl (hidle.stopped hstopped)
      · exact .inr (.inl hnone)
      · exact .inr (.inr ⟨op, hop, fun hc => hfollows.done (hcompleted hc), hsource,
          hfollows.flushing hstraight hflushing⟩)
  | beforeDisconnect | joining | returned =>
      simp only [hplace] at h ⊢
      rw [hhead]
      obtain ⟨op, hdone, hsource, hflushing⟩ := h
      exact ⟨op, hfollows.done hdone, hsource, hfollows.flushing hstraight hflushing⟩
  | starting | establishing | beforeInit | inInit | beforeSetHead => simp only [hplace] at h

/-- `th1` handles the completion of a write or a flush. -/
lemma Stage.handles (h : s.Stage p conn off) {m : Mirror} (hm : Mirror.Handles s.mirror m)
    (hstraight : (s.mirror.link p conn).AllStraight)
    (hfollows : Link.Follows off (s.mirror.link p conn) (m.link p conn)) :
    Stage p conn off { s with mirror := m, completed := s.completed || callsBack s.mirror } := by
  have hhead : m.head off = s.mirror.head off := by rw [hm.head]
  -- without pending operations there is no callback
  have hempty : s.mirror.pending = [] → callsBack s.mirror = false ∧ m.pending = [] := by
    intro hnone
    refine ⟨?_, ?_⟩
    · by_contra hcalls
      obtain ⟨op, hop, -⟩ := hm.calls (by simpa using hcalls)
      rw [hnone] at hop
      cases hop
    · rcases hm.drops with hsame | ⟨op, hop⟩
      · exact hsame.trans hnone
      · rw [hnone] at hop
        cases hop
  have hsub : ∀ q ∈ m.pending, q ∈ s.mirror.pending := by
    intro q hq
    rcases hm.drops with hsame | ⟨op, hop⟩
    · exact hsame ▸ hq
    · exact hop ▸ List.mem_cons_of_mem op hq
  have hshort : m.pending.length ≤ s.mirror.pending.length := by
    rcases hm.drops with hsame | ⟨op, hop⟩
    · rw [hsame]
    · rw [hop]
      exact Nat.le_succ _
  rw [Stage] at h ⊢
  cases hplace : s.place with
  | beforeWrite =>
      simp only [hplace] at h ⊢
      rw [hm.dataMr, hhead]
      exact ⟨(hempty h.1).2, h.2⟩
  | inWrite =>
      simp only [hplace] at h ⊢
      rw [hhead]
      rcases h with hstopped | ⟨hnone, hfalse⟩ | ⟨hlen, hcompleted, hsource, hwritten⟩
      · exact absurd hm.stopped hstopped
      · exact .inr (.inl ⟨(hempty hnone).2, by rw [hfalse, (hempty hnone).1]; rfl⟩)
      · refine .inr (.inr ⟨hshort.trans hlen, fun hc => ?_, hsource,
          hfollows.written hstraight hwritten⟩)
        rcases Bool.or_eq_true_iff.1 hc with hc | hcalls
        · exact (hempty (hcompleted hc)).2
        · obtain ⟨op, hop, -⟩ := hm.calls hcalls
          rw [hop, List.length_cons] at hlen
          exact List.eq_nil_of_length_eq_zero (by omega)
  | beforeFlush =>
      simp only [hplace] at h ⊢
      rw [hhead]
      exact ⟨(hempty h.1).2, h.2.1, hfollows.written hstraight h.2.2⟩
  | inFlush =>
      simp only [hplace] at h ⊢
      rw [hhead]
      rcases h with hstopped | ⟨hnone, hfalse⟩ | ⟨op, hop, hcompleted, hsource, hflushing⟩
      · exact absurd hm.stopped hstopped
      · exact .inr (.inl ⟨(hempty hnone).2, by rw [hfalse, (hempty hnone).1]; rfl⟩)
      · refine .inr (.inr ⟨op, fun q hq => hop q (hsub q hq), fun hc => ?_, hsource,
          hfollows.flushing hstraight hflushing⟩)
        rcases Bool.or_eq_true_iff.1 hc with hc | hcalls
        · exact hfollows.done (hcompleted hc)
        · obtain ⟨q, hq, hdone⟩ := hm.calls hcalls
          obtain rfl := hop q (hq ▸ List.mem_cons_self)
          exact hdone p conn
  | beforeDisconnect | joining | returned =>
      simp only [hplace] at h ⊢
      rw [hhead]
      obtain ⟨op, hdone, hsource, hflushing⟩ := h
      exact ⟨op, hfollows.done hdone, hsource, hfollows.flushing hstraight hflushing⟩
  | starting | establishing | beforeInit | inInit | beforeSetHead => simp only [hplace] at h

/-- The process is gone. -/
lemma Stage.crash (h : s.Stage p conn off) (e : Stop) : (s.crash e).Stage p conn off := by
  have hstopped : (s.crash e).mirror.stopped ≠ none := Option.some_ne_none e
  rw [Stage] at h ⊢
  have hplaces : (s.crash e).place = s.place := rfl
  cases hplace : s.place with
  | inWrite | inFlush =>
      simp only [hplaces, hplace] at h ⊢
      exact .inl hstopped
  | starting | establishing | beforeInit | inInit | beforeSetHead => simp only [hplace] at h
  | beforeWrite | beforeFlush | beforeDisconnect | joining | returned =>
      simp only [hplaces, hplace] at h ⊢
      exact h

lemma Copying.crash (h : s.Copying fd p conn off) (e : Stop) : (s.crash e).Copying fd p conn off :=
  ⟨Mirror.anchored_of_host h.anchored rfl, ⟨h.books.straight, h.books.nodup, h.books.lt⟩,
    h.stage.crash e⟩

/-- A step of the server, of the network, or of `th1`. -/
lemma Copying.idle (h : s.Copying fd p conn off) {b : MirrorAct} {m : Mirror}
    (hm : (Mirror.machine remote conn).step s.mirror b = some m) (hb : Mirror.Idles b)
    (hallowed : s.mirror.Allowed b) (hspares : Mirror.Spares p conn off s.mirror b) :
    Copying fd p conn off { s with mirror := m } := by
  obtain ⟨hanchored, hfollows⟩ := h.anchored.step h.books hallowed hspares hm
  exact ⟨hanchored, h.books.step hm,
    h.stage.idle (Mirror.step_idle hb hm) h.books.allStraight hfollows⟩

lemma Copying.took (h : s.Copying fd p conn off) {taken : Taken}
    (ht : took remote conn s taken = some t) : t.Copying fd p conn off := by
  cases taken with
  | nothing =>
      obtain rfl := Option.some.inj ht
      exact h
  | receive content env op =>
      rw [ClientMain.took] at ht
      split at ht
      · obtain ⟨m, hm, rfl⟩ := mirrorStep_eq_some ht
        exact h.idle hm trivial trivial trivial
      · obtain ⟨u, hu, rfl⟩ := Option.map_eq_some_iff.1 ht
        obtain ⟨m, hm, rfl⟩ := mirrorStep_eq_some hu
        exact (h.idle hm trivial trivial trivial).crash .undefined
  | sent env op =>
      obtain ⟨m, hm, rfl⟩ := mirrorStep_eq_some ht
      exact h.idle hm trivial trivial trivial
  | handle env =>
      obtain ⟨u, hu, rfl⟩ := Option.map_eq_some_iff.1 ht
      obtain ⟨m, hm, rfl⟩ := mirrorStep_eq_some hu
      have hallowed : s.mirror.Allowed (.handle env) ∧
          Mirror.Spares p conn off s.mirror (.handle env) := ⟨trivial, trivial⟩
      obtain ⟨hanchored, hfollows⟩ := h.anchored.step h.books hallowed.1 hallowed.2 hm
      exact ⟨hanchored, h.books.step hm,
        h.stage.handles (Mirror.step_handles hm) h.books.allStraight hfollows⟩

/-- `write` is called. -/
lemma Copying.write (h : s.Copying fd p conn off) (hplace : s.place = .beforeWrite)
    (hoff : off < mrSize.toNat) {res : Rpma Unit} {m : Mirror}
    (hm : (Mirror.machine remote conn).step s.mirror (.write res 0 mrSize (some 0)) = some m) :
    Copying fd p conn off { s with place := .inWrite, completed := false, mirror := m } := by
  have hallowed : s.mirror.Allowed (.write res 0 mrSize (some 0)) ∧
      Mirror.Spares p conn off s.mirror (.write res 0 mrSize (some 0)) := ⟨trivial, trivial⟩
  refine ⟨(h.anchored.step h.books hallowed.1 hallowed.2 hm).1, h.books.step hm, ?_⟩
  have hstage := h.stage
  simp only [Stage, hplace] at hstage
  obtain ⟨hpending, hsource⟩ := hstage
  show m.stopped ≠ none ∨ (m.pending = [] ∧ false = false) ∨ (m.pending.length ≤ 1 ∧
    (false = true → m.pending = []) ∧ m.head off = pattern off ∧ (m.link p conn).Written off)
  rcases Mirror.step_write (p := p) hm with hstops | hnone | ⟨hdata, hone, hhead, hwritten⟩
  · exact .inl hstops
  · exact .inr (.inl ⟨hnone.trans hpending, rfl⟩)
  · refine .inr (.inr ⟨?_, (fun hc => by cases hc), ?_, hwritten off (Nat.zero_le off) (by simpa)⟩)
    · rw [hone, hpending]
      exact le_rfl
    · rw [hhead]
      exact hsource.resolve_left hdata

/-- `flush` is called. -/
lemma Copying.flush (h : s.Copying fd p conn off) (hplace : s.place = .beforeFlush)
    (hoff : off < mrSize.toNat) {res : Rpma Unit} {m : Mirror}
    (hm : (Mirror.machine remote conn).step s.mirror (.flush res 0 mrSize (some 1)) = some m) :
    Copying fd p conn off { s with place := .inFlush, completed := false, mirror := m } := by
  have hallowed : s.mirror.Allowed (.flush res 0 mrSize (some 1)) ∧
      Mirror.Spares p conn off s.mirror (.flush res 0 mrSize (some 1)) := ⟨trivial, trivial⟩
  refine ⟨(h.anchored.step h.books hallowed.1 hallowed.2 hm).1, h.books.step hm, ?_⟩
  have hstage := h.stage
  simp only [Stage, hplace] at hstage
  obtain ⟨hpending, hsource, hwritten⟩ := hstage
  show m.stopped ≠ none ∨ (m.pending = [] ∧ false = false) ∨ ∃ op, (∀ q ∈ m.pending, q = op) ∧
    (false = true → (op, true) ∈ (m.link p conn).done) ∧ m.head off = pattern off ∧
    (m.link p conn).Flushing op off
  rcases Mirror.step_flush (p := p) hm with hnone | ⟨hone, hhead, hflushing⟩
  · exact .inr (.inl ⟨hnone.trans hpending, rfl⟩)
  · refine .inr (.inr ⟨s.mirror.client.nextOp, fun q hq => ?_, (fun hc => by cases hc), ?_,
      hflushing off (Nat.zero_le off) (by simpa) hwritten⟩)
    · rw [hone, hpending] at hq
      exact List.mem_singleton.1 hq
    · rw [hhead]
      exact hsource

/-- The main thread goes on. -/
lemma Copying.advances (h : s.Copying fd p conn off) (hoff : off < mrSize.toNat)
    (hstopped : s.mirror.stopped = none) (ht : Advances remote conn s a t) :
    t.Copying fd p conn off := by
  have hstage := h.stage
  cases ht with
  | crashed _ _ => exact h.crash _
  | established hplace _ | init hplace _ | initReturns hplace | setHead hplace _ =>
      simp only [Stage, hplace] at hstage
  | written hplace hflag =>
      simp only [Stage, hplace] at hstage
      rcases hstage with hnot | ⟨-, hfalse⟩ | ⟨-, hcompleted, hsource, hwritten⟩
      · exact absurd hstopped hnot
      · rw [hflag] at hfalse
        cases hfalse
      · exact ⟨h.anchored, h.books, hcompleted hflag, hsource, hwritten⟩
  | flushed hplace hflag =>
      simp only [Stage, hplace] at hstage
      rcases hstage with hnot | ⟨-, hfalse⟩ | ⟨op, -, hcompleted, hsource, hflushing⟩
      · exact absurd hstopped hnot
      · rw [hflag] at hfalse
        cases hfalse
      · exact ⟨h.anchored, h.books, op, hcompleted hflag, hsource, hflushing⟩
  | write hplace hm => exact h.write hplace hoff hm
  | flush hplace hm => exact h.flush hplace hoff hm
  | disconnect hplace hm =>
      obtain ⟨hanchored, hbooks, hcut⟩ := h.idle hm trivial trivial trivial
      simp only [Stage, hplace] at hcut
      exact ⟨hanchored, hbooks, hcut⟩
  | join hplace _ =>
      simp only [Stage, hplace] at hstage
      exact ⟨h.anchored, h.books, hstage⟩

/-- The step leaves the byte alone, in the file at the path. -/
def Spares (p : Bytes) (conn : HandlerId) (off : ℕ) (s : ClientMain) : ClientMainAct → Prop
  | .outside a => Mirror.Spares p conn off s.mirror a
  | _ => True

/-- **One step** on the way of a byte. -/
lemma Copying.step (h : s.Copying fd p conn off) (hoff : off < mrSize.toNat)
    (hallowed : s.Allowed a) (hspares : s.Spares p conn off a)
    (hs : (machine remote conn).step s a = some t) : t.Copying fd p conn off := by
  have hround : ∀ {fd' env u}, s.dispatched fd' env = some u → u.Copying fd p conn off := by
    intro fd' env u hu
    obtain ⟨hmirror, hplace, hcompleted⟩ := mirror_dispatched hu
    refine ⟨hmirror ▸ h.anchored, hmirror ▸ h.books, ?_⟩
    rw [Stage, hmirror, hplace, hcompleted]
    exact h.stage
  obtain ⟨b, m, rfl, hb, hm, rfl⟩ | ⟨hstopped, ⟨fd₁, next, -, hd⟩ | ⟨fd₁, taken, u, -, hd, htook⟩ |
    hmain⟩ := step_cases hs
  · exact h.idle hm (by cases b <;> first | exact trivial | exact hb.elim) hallowed hspares
  · exact hround hd
  · exact (hround hd).took htook
  · rcases mainStep_cases hmain with ⟨fds, env₁, env₂, -, hplace, rfl⟩ | hadv
    · have hstage := h.stage
      simp only [Stage, hplace] at hstage
    · exact h.advances hoff hstopped hadv

/-! ### What is copied -/

/-- **What `main` has copied.**  When the main thread has got past its second loop, the file of the
replica that the connection has had since the call of `write` holds, in its first GiB, what the
memory was filled with; and it stays so, also when the connection is gone, as long as nobody changes
it: another connection in the file, or the connection by finishing. -/
theorem memory_copied (remote : Bytes → MrRemote) (conn : HandlerId) (hfd : fd ≠ -1)
    (files : FileSystem) (nextFile : ℕ) (sendBl recvBl : MsgBuf) (flushType : FlushType)
    (imageSize : UInt64) (imageMr : Option MrRemote) (as₁ as₂ : List ClientMainAct)
    (s t : ClientMain)
    (run₁ : (machine remote conn).Run
      (create fd files nextFile sendBl recvBl flushType imageSize imageMr) as₁ s)
    (hallowed : (machine remote conn).Meets Allowed
      (create fd files nextFile sendBl recvBl flushType imageSize imageMr) as₁)
    (hplace : s.place = .beforeWrite) (m : MemoryManager)
    (hregion : s.mirror.host.region conn = some m) (hpmem : m.HoldsPmem) (f : File)
    (hfile : s.mirror.host.files (cStr m.path) = some f)
    (hmapped : s.mirror.host.mapped conn = some f.id)
    (run₂ : (machine remote conn).Run s as₂ t)
    (hspares : (machine remote conn).Meets (fun u a => u.Allowed a ∧
      ∀ off < mrSize.toNat, u.Spares (cStr m.path) conn off a) s as₂)
    (hflushed : t.place = .beforeDisconnect ∨ t.place = .joining ∨ t.place = .returned) :
    ∃ g, t.mirror.host.files (cStr m.path) = some g ∧
      ∀ off < mrSize.toNat, g.content off = pattern off := by
  have hprepared : s.Prepared fd :=
    @Machine.Meets.invariant _ _ (machine remote conn) _ (fun u => u.Prepared fd) _
      (create_prepared hfd files nextFile sendBl recvBl flushType imageSize imageMr)
      (fun _ _ _ hu hb hs => hu.step hb hs) _ _ run₁ hallowed
  have hbefore : BeforeWrite s.place := by
    rw [hplace]
    trivial
  have hanchored : s.mirror.Anchored fd (cStr m.path) conn :=
    Mirror.anchored_of_region hprepared.host hregion hpmem hfile hmapped
  have hcopying : ∀ off < mrSize.toNat, t.Copying fd (cStr m.path) conn off := by
    intro off hoff
    refine @Machine.Meets.invariant _ _ (machine remote conn) _
      (fun u => u.Copying fd (cStr m.path) conn off) s ⟨hanchored, hprepared.books, ?_⟩
      (fun _ _ _ hu hb hs => hu.step hoff hb.1 (hb.2 off hoff) hs) _ _ run₂ hspares
    rw [Stage, hplace]
    exact ⟨hprepared.pending hbefore, (hprepared.dataMr hbefore).imp_right fun h => h.2 off hoff⟩
  have hpos : 0 < mrSize.toNat := by decide
  obtain ⟨g, hg⟩ := (hcopying 0 hpos).anchored.file
  refine ⟨g, hg, fun off hoff => ?_⟩
  obtain ⟨-, hbooks, hstage⟩ := hcopying off hoff
  obtain ⟨op, hdone, hsource, hflushing⟩ : ∃ op, (op, true) ∈
      (t.mirror.link (cStr m.path) conn).done ∧ t.mirror.head off = pattern off ∧
      (t.mirror.link (cStr m.path) conn).Flushing op off := by
    rw [Stage] at hstage
    rcases hflushed with hplace' | hplace' | hplace' <;> simpa only [hplace'] using hstage
  have hlanded := hflushing.landed hbooks.distinct hdone
  exact (Mirror.content_of_landed hlanded hg).trans hsource

/-! ### A run in which everything is copied -/

/-- The server and the network alone. -/
lemma run_outside {m m' : Mirror} {as : List MirrorAct}
    (hrun : (Mirror.machine remote conn).Run m as m') (houtside : ∀ a ∈ as, Outside a)
    (s : ClientMain) :
    (machine remote conn).Run { s with mirror := m } (as.map .outside) { s with mirror := m' } := by
  induction hrun with
  | nil => exact .nil _
  | @snoc t u as a hrun hs ih =>
      have hlast : Outside a := houtside a (List.mem_append_right _ (List.mem_singleton_self a))
      rw [List.map_append, List.map_singleton]
      refine (ih fun b hb => houtside b (List.mem_append_left _ hb)).snoc ?_
      simp only [machine, if_pos hlast, mirrorStep, hs, Option.map_some]

lemma meets_outside {m m' : Mirror} {as : List MirrorAct}
    (hrun : (Mirror.machine remote conn).Run m as m') (houtside : ∀ a ∈ as, Outside a)
    (hmeets : (Mirror.machine remote conn).Meets Mirror.Allowed m as) (s : ClientMain) :
    (machine remote conn).Meets Allowed { s with mirror := m } (as.map .outside) := by
  induction hrun with
  | nil => exact Machine.meets_of_forall fun _ ha => absurd ha List.not_mem_nil
  | @snoc t u as a hrun hs ih =>
      have hbefore : ∀ b ∈ as, Outside b := fun b hb => houtside b (List.mem_append_left _ hb)
      rw [List.map_append, List.map_singleton]
      exact (ih hbefore (hmeets.initial (List.prefix_append _ _))).snoc
        (run_outside hrun hbefore s) (hmeets as a t (List.prefix_refl _) hrun)

/-- A completion event, as long as the client is registered. -/
lemma machine_completion {fd : Handle} {taken : Taken} {r : Reactor}
    (hstopped : s.mirror.stopped = none) (hthread : s.thread = .looping)
    (hd : s.dispatcher.handleEvents fd .completing = some s.dispatcher)
    (hr : s.dispatcher.reactor = some r) (hempty : r.empty = false) :
    (machine remote conn).step s (.completion fd taken) = took remote conn s taken := by
  have hdispatched : s.dispatched fd .completing = some s := by
    simp only [dispatched, if_pos hthread, hd, Option.map_some, hr, hempty, Bool.false_eq_true,
      if_false]
    rw [← hthread]
  simp only [machine, if_pos hstopped, hdispatched, Option.bind_some]

/-- The region of the server, as the client knows it. -/
def sampleRegion (_ : Bytes) : MrRemote := ⟨0, requireSize⟩

/-- The memory of the client. -/
def sampleMr : MrLocal := ⟨some 8, mrSize, ClientHandler.rpmaMrUsageWriteSrc, []⟩

/-- The client when it has posted its request. -/
def sampleClient : ClientHandler :=
  (ClientHandler.postInit (.ok ()) (.ok ()) 1 requireSize (ascii "RBD") (ascii "test")
    (Client.create .zero .zero .persistent 0 none).handler).state

/-- Its base object when the reply has been handled. -/
def sampleBase (content : MsgBuf) : ConnectionHandler ClientCallback :=
  { sampleClient.toConnectionHandler with
    recvBl := content
    callbackTable := sampleClient.callbackTable.erase 0
    ops := sampleClient.ops.filter (·.1 ≠ 0) }

/-- The request of `main`. -/
def request : RwlReplicaInitRequest :=
  ClientHandler.initRequest 1 requireSize (ascii "RBD") (ascii "test")

lemma length_request : request.encode.length < msgSize := by
  rw [RwlReplicaInitRequest.length_encode]
  decide

/-- The path of its replica. -/
def requestPath : Bytes := MemoryManager.mountPath (RPMAHandler.poolPath request.info)

-- the file that `main` opens after each of its loops
example : cStr requestPath = ascii "/mnt/pmem/rbd-pwl.RBD.test.pool.1" := by decide

/-- A client to which the region has that size. -/
def sampleRemote : RemoteEnv :=
  { Agreement.sampleRemote with mrRemoteFromDescriptor d := .ok (sampleRegion d) }

/-- The reply of the server. -/
def sampleReply : RwlReplicaInitRequestReply := RPMAHandler.initReply ⟨1, 1, [7, 1]⟩

lemma length_sampleReply : sampleReply.encode.length < msgSize := by
  rw [RwlReplicaInitRequestReply.length_encode]
  decide

/-- The buffer with it. -/
def replyContent : MsgBuf := holding sampleReply.encode length_sampleReply

lemma decode_replyContent :
    ∃ c, RwlReplicaInitRequestReply.decode replyContent.cbegin = .ok (sampleReply, c) :=
  ⟨_, (sampleReply.reads_encode (length_sampleReply.trans (by decide))).memcpy _
    length_sampleReply.le⟩

/-- The reply is handled. -/
lemma reply_handled : ∃ k : ClientHandler, k.toConnectionHandler = sampleBase replyContent ∧
    k.dataMr = none ∧ k.imageMr = some (sampleRegion [7]) ∧ ∀ host head,
      (Mirror.machine sampleRegion 1).step ⟨host, sampleClient, head, fun _ => none, [], [], [],
        false, none⟩ (.receive replyContent sampleRemote 0) =
      some ⟨host, k, head, fun _ => none, [], [], [], false, none⟩ := by
  obtain ⟨c, hdec⟩ := decode_replyContent
  have hposted : 0 ∈ sampleClient.callbackTable := by decide
  have hlookup : sampleClient.ops.lookup 0 = some (some (.initReply 0)) := rfl
  have hlooked : ClientHandler.LookedAt replyContent := ⟨sampleReply, c, hdec⟩
  -- what the callback does
  have hretire := ClientHandler.deliver_alive hposted hlookup ⟨replyContent, sampleRemote⟩
  simp only [ClientHandler.deliver, bind_apply, read_apply, Outcome.andThen_ok, if_pos hposted,
    update_apply, List.nil_append] at hretire
  obtain ⟨o, ho⟩ : ∃ o, o = retire ClientHandler.base (ClientHandler.runCallback sampleRemote) 0
    { sampleClient with recvBl := replyContent } := ⟨_, rfl⟩
  have hquiet := ClientHandler.quietly_retire (h := sampleClient) sampleRemote 0
    (k := { sampleClient with recvBl := replyContent }) rfl
  have hkeeps := (ClientHandler.keepsDataMr_retire sampleRemote 0).apply
    { sampleClient with recvBl := replyContent }
  rcases ClientHandler.initReply_cases sampleRemote 0
      (ClientHandler.starting 0 replyContent sampleClient) with
    ⟨hno, -⟩ | ⟨-, reply, c', hdec', hok, -, himage, hcalled⟩
  · exact absurd hlooked hno
  obtain ⟨rfl, -⟩ := Prod.mk.inj (Except.ok.inj (hdec.symm.trans hdec'))
  rw [← ho] at hquiet hkeeps hretire
  have heq : o = ensuring (ClientHandler.runCallback sampleRemote (.initReply 0))
      (zoom ClientHandler.base (deleteOp 0))
      (ClientHandler.starting 0 replyContent sampleClient) := hretire
  refine ⟨o.state, ?_, hkeeps, ?_, fun host head => ?_⟩
  · rw [heq, ensuring_apply]
    simp only [zoom_apply, ClientHandler.base]
    rw [hcalled.base]
    rfl
  · have htype : sampleReply.type = rwlReplicaInitSuccessed := rfl
    have hnew : ClientHandler.newImageMr sampleRemote sampleReply.desc
        (ClientHandler.starting 0 replyContent sampleClient).imageMr =
          some (sampleRegion [7]) := rfl
    rw [if_pos htype, hnew] at himage
    rw [heq, ensuring_apply]
    simp only [zoom_apply, ClientHandler.base]
    exact himage
  · have hstopped : Host.stopOf o.result = none := by
      rw [heq, ensuring_apply, hok]
      rfl
    simp only [Mirror.machine, Mirror.clientStep, hlookup, if_true, ← ho, Mirror.after, hquiet.1,
      hstopped, List.nil_append]

/-- The program with a server that has made the replica. -/
def serving (host : Host) : ClientMain :=
  let s := create 3 (fun _ => none) 0 .zero .zero .persistent 0 none
  { s with mirror := { s.mirror with host := host } }

/-- What happens up to the call of `write`. -/
def preparing : List ClientMainAct :=
  [.start (some (5, 6)) .ok .ok, .connection 5 (.ok .established), .look, .init (.ok ()) (.ok ()),
    .completion 6 (.receive replyContent sampleRemote 0), .initReturns,
    .setHead (some 8) (fun _ => 0) (.ok [])]

lemma run_prepares (host : Host) (head : ℕ → UInt8)
    (hhead : head = fill data mrSize.toNat 0 fun _ => 0) : ∃ k d r,
    (machine sampleRegion 1).Run (serving host) preparing ⟨⟨host, k, head, fun _ => none, [], [],
      [], false, none⟩, d, .beforeWrite, .looping, false⟩ ∧
    k.toConnectionHandler = sampleBase replyContent ∧ k.dataMr = some sampleMr ∧
    k.imageMr = some (sampleRegion [7]) ∧ d.handleEvents 6 .completing = some d ∧
    d.reactor = some r ∧ r.empty = false := by
  obtain ⟨d, r, run₄, hd, hr, hempty⟩ : ∃ d r, (machine sampleRegion 1).Run (serving host)
      [.start (some (5, 6)) .ok .ok, .connection 5 (.ok .established), .look,
        .init (.ok ()) (.ok ())] ⟨⟨host, sampleClient, fun _ => 0, fun _ => none, [], [], [], false,
        none⟩, d, .inInit, .looping, false⟩ ∧ d.handleEvents 6 .completing = some d ∧
      d.reactor = some r ∧ r.empty = false := by
    have run₁ := (Machine.Run.nil (M := machine sampleRegion 1) (serving host)).snoc
      (a := .start (some (5, 6)) .ok .ok) rfl
    have run₂ := run₁.snoc (a := .connection 5 (.ok .established)) rfl
    have run₃ := run₂.snoc (a := .look) rfl
    have run₄ := run₃.snoc (a := .init (.ok ()) (.ok ())) rfl
    exact ⟨_, _, run₄, rfl, rfl, rfl⟩
  obtain ⟨k, hbase, hdata, himage, hreply⟩ := reply_handled
  have run₅ := run₄.snoc (a := .completion 6 (.receive replyContent sampleRemote 0))
    ((machine_completion rfl rfl hd hr hempty).trans (by
      simp only [took, if_true, mirrorStep, hreply, Option.map_some]
      rfl))
  have run₆ := run₅.snoc (a := .initReturns) rfl
  obtain ⟨base, flushType, header, dataMr, size, imageMr, locals, call⟩ := k
  obtain rfl : base = sampleBase replyContent := hbase
  obtain rfl : dataMr = none := hdata
  obtain rfl : imageMr = some (sampleRegion [7]) := himage
  have hset : (machine sampleRegion 1).step ⟨⟨host, ⟨sampleBase replyContent, flushType, header,
      none, size, some (sampleRegion [7]), locals, call⟩, fun _ => 0, fun _ => none, [], [], [],
      false, none⟩, d, .beforeSetHead, .looping, false⟩ (.setHead (some 8) (fun _ => 0) (.ok [])) =
      some ⟨⟨host, ⟨sampleBase replyContent, flushType, some 8, some sampleMr, size,
        some (sampleRegion [7]), locals, call⟩, head, fun _ => none, [], [], [], false, none⟩, d,
        .beforeWrite, .looping, false⟩ := by
    simp only [machine, mainStep, if_true, mirrorStep, Mirror.machine, Mirror.clientStep,
      Option.map_some, ← hhead]
    rfl
  exact ⟨_, d, r, run₆.snoc hset, rfl, rfl, rfl, hd, hr, hempty⟩

/-- The write of `main`. -/
def sampleWrite : Posting := ⟨some (sampleRegion [7]), some sampleMr, .write 2 0 0 mrSize.toNat⟩

/-- Its flush. -/
def sampleFlush : Posting := ⟨some (sampleRegion [7]), none, .flush 3 0 mrSize.toNat⟩

/-- The client when it has posted the write. -/
def postingClient (k : ClientHandler) : ClientHandler :=
  (ClientHandler.write (.ok ()) 0 mrSize (some 0) k).state

/-- The client when the completion of the write has been handled. -/
def writtenClient (k : ClientHandler) : ClientHandler :=
  (completionTaken ClientHandler.base (ClientHandler.runCallback sampleRemote)
    ⟨some 2, .write, true⟩ (postingClient k)).state

/-- The client when it has posted the flush. -/
def flushingClient (k : ClientHandler) : ClientHandler :=
  (ClientHandler.flush (.ok ()) 0 mrSize (some 1) (writtenClient k)).state

/-- The client when the completion of the flush has been handled. -/
def flushedClient (k : ClientHandler) : ClientHandler :=
  (completionTaken ClientHandler.base (ClientHandler.runCallback sampleRemote)
    ⟨some 3, .flush, true⟩ (flushingClient k)).state

/-- The client between the call of `write` and the end of the second loop. -/
structure Copies (k : ClientHandler) (head : ℕ → UInt8) (host : Host) (transit : ℕ → Option UInt8) :
    Prop where
  write : (Mirror.machine sampleRegion 1).step
    ⟨host, k, head, transit, [], [], [], false, none⟩ (.write (.ok ()) 0 mrSize (some 0)) =
      some ⟨host, postingClient k, head, transit, [sampleWrite], [], [], false, none⟩
  calls : callsBack ⟨host, postingClient k, head, transit, [], [⟨some 2, .write, true⟩], [], false,
    none⟩ = true
  handle : (Mirror.machine sampleRegion 1).step
    ⟨host, postingClient k, head, transit, [], [⟨some 2, .write, true⟩], [], false, none⟩
      (.handle sampleRemote) =
      some ⟨host, writtenClient k, head, transit, [], [], [⟨some 2, .write, true⟩], false, none⟩
  flush : (Mirror.machine sampleRegion 1).step
    ⟨host, writtenClient k, head, transit, [], [], [⟨some 2, .write, true⟩], false, none⟩
      (.flush (.ok ()) 0 mrSize (some 1)) =
      some ⟨host, flushingClient k, head, transit, [sampleFlush], [], [⟨some 2, .write, true⟩],
        false, none⟩
  calls' : callsBack ⟨host, flushingClient k, head, transit, [], [⟨some 3, .flush, true⟩],
    [⟨some 2, .write, true⟩], false, none⟩ = true
  handle' : (Mirror.machine sampleRegion 1).step
    ⟨host, flushingClient k, head, transit, [], [⟨some 3, .flush, true⟩], [⟨some 2, .write, true⟩],
      false, none⟩ (.handle sampleRemote) =
      some ⟨host, flushedClient k, head, transit, [], [],
        [⟨some 2, .write, true⟩, ⟨some 3, .flush, true⟩], false, none⟩

lemma copies {k : ClientHandler} (hbase : k.toConnectionHandler = sampleBase replyContent)
    (hdata : k.dataMr = some sampleMr) (himage : k.imageMr = some (sampleRegion [7]))
    (head : ℕ → UInt8) (host : Host) (transit : ℕ → Option UInt8) :
    (postingClient k).dataMr = some sampleMr ∧ Copies k head host transit := by
  obtain ⟨base, flushType, header, dataMr, size, imageMr, locals, call⟩ := k
  obtain rfl : base = sampleBase replyContent := hbase
  obtain rfl : dataMr = some sampleMr := hdata
  obtain rfl : imageMr = some (sampleRegion [7]) := himage
  exact ⟨rfl, rfl, rfl, rfl, rfl, rfl, rfl⟩

/-- `main` from the call of `write` to the end of its last loop. -/
lemma run_copies {host : Host} {l : Life} {k : ClientHandler} {d : Dispatcher} {r : Reactor}
    (hrunning : host.stopped = none) (hl : host.alive 1 = some l)
    (hman : l.watched.handler.dataManager = ⟨some 16, requireSize, true, requestPath⟩)
    (hmr : l.watched.handler.dataMr =
      some ⟨some 16, requireSize, RPMAHandler.mrUsage .flush true, [7]⟩)
    (hbase : k.toConnectionHandler = sampleBase replyContent)
    (hdata : k.dataMr = some sampleMr) (himage : k.imageMr = some (sampleRegion [7]))
    (hd : d.handleEvents 6 .completing = some d) (hr : d.reactor = some r)
    (hempty : r.empty = false) (head : ℕ → UInt8) : ∃ bs t,
      (machine sampleRegion 1).Run ⟨⟨host, k, head, fun _ => none, [], [], [], false, none⟩, d,
        .beforeWrite, .looping, false⟩ bs t ∧ t.place = .beforeDisconnect ∧
      ∀ b ∈ bs, ∀ u : ClientMain, u.Allowed b ∧ ∀ off, u.Spares (cStr requestPath) 1 off b := by
  have hcopies := copies hbase hdata himage head
  have hregion : host.region 1 = some ⟨some 16, requireSize, true, requestPath⟩ :=
    Host.region_eq_some.2 ⟨l, hl, hman⟩
  -- the write is posted
  have hwrite : (machine sampleRegion 1).step ⟨⟨host, k, head, fun _ => none, [], [], [], false,
      none⟩, d, .beforeWrite, .looping, false⟩ (.write (.ok ())) = some ⟨⟨host, postingClient k,
        head, fun _ => none, [sampleWrite], [], [], false, none⟩, d, .inWrite, .looping,
        false⟩ := by
    simp only [machine, mainStep, if_true, mirrorStep, (hcopies _ _).2.write, Option.map_some]
  -- it is executed, and its bytes land
  have mrun₁ := (Machine.Run.nil (M := Mirror.machine sampleRegion 1) ⟨host, postingClient k, head,
    fun _ => none, [sampleWrite], [], [], false, none⟩).snoc (Mirror.machine_execute rfl rfl
      ⟨⟨_, (Mirror.registered_eq hrunning hl).trans hmr, rfl, by decide⟩, fun src hsrc => by
        obtain rfl := Option.some.inj hsrc
        exact ⟨(hcopies host fun _ => none).1, by decide⟩⟩ trivial)
  have htransit : ∀ i < mrSize.toNat, sampleWrite.work.sent head (fun _ => none) i ≠ none := by
    intro i hi
    have hrange : 0 ≤ i ∧ i < 0 + mrSize.toNat := ⟨Nat.zero_le i, by rwa [Nat.zero_add]⟩
    simp only [sampleWrite, Work.sent, if_pos hrange]
    exact Option.some_ne_none _
  obtain ⟨host', transit, mrun₂, hrunning', halive, hnone, -⟩ := Mirror.run_lands
    sampleRegion (s := ⟨host, postingClient k, head,
      sampleWrite.work.sent head fun _ => none, [], [⟨some 2, .write, true⟩], [], false, none⟩)
    hrunning hregion ⟨Option.some_ne_none _, rfl⟩ (by decide) htransit
  have houtside : ∀ a ∈ [MirrorAct.execute true] ++ (List.range mrSize.toNat).map .land,
      Outside a := by
    intro a ha
    rcases List.mem_append.1 ha with ha | ha
    · rw [List.mem_singleton.1 ha]
      trivial
    · obtain ⟨i, -, rfl⟩ := List.mem_map.1 ha
      trivial
  have run₂ := ((Machine.Run.nil (M := machine sampleRegion 1) _).snoc hwrite).append
    (run_outside (mrun₁.append mrun₂) houtside ⟨⟨host, postingClient k, head, fun _ => none,
      [sampleWrite], [], [], false, none⟩, d, .inWrite, .looping, false⟩)
  -- its completion is handled
  have hhandle : (machine sampleRegion 1).step ⟨⟨host', postingClient k, head, transit, [],
      [⟨some 2, .write, true⟩], [], false, none⟩, d, .inWrite, .looping, false⟩
      (.completion 6 (.handle sampleRemote)) = some ⟨⟨host', writtenClient k, head, transit, [], [],
        [⟨some 2, .write, true⟩], false, none⟩, d, .inWrite, .looping, true⟩ :=
    (machine_completion rfl rfl hd hr hempty).trans (by
      simp only [took, mirrorStep, (hcopies _ _).2.handle, (hcopies _ _).2.calls, Option.map_some,
        Bool.or_true])
  have run₄ := (run₂.snoc hhandle).snoc (a := .look) rfl
  -- the flush
  have hflush : (machine sampleRegion 1).step ⟨⟨host', writtenClient k, head, transit, [], [],
      [⟨some 2, .write, true⟩], false, none⟩, d, .beforeFlush, .looping, true⟩ (.flush (.ok ())) =
      some ⟨⟨host', flushingClient k, head, transit, [sampleFlush], [], [⟨some 2, .write, true⟩],
        false, none⟩, d, .inFlush, .looping, false⟩ := by
    simp only [machine, mainStep, if_true, mirrorStep, (hcopies _ _).2.flush, Option.map_some]
  have mrun₆ := (Machine.Run.nil (M := Mirror.machine sampleRegion 1) ⟨host', flushingClient k,
    head, transit, [sampleFlush], [], [⟨some 2, .write, true⟩], false, none⟩).snoc
      (Mirror.machine_execute rfl rfl ⟨⟨_, (Mirror.registered_eq hrunning' (halive ▸ hl)).trans hmr,
        rfl, by decide⟩, fun src hsrc => by cases hsrc⟩ fun i hi => by
          rw [Nat.zero_add]
          exact hnone i hi)
  have run₆ := (run₄.snoc hflush).append (run_outside mrun₆ (fun a ha => by
    rw [List.mem_singleton.1 ha]
    trivial) ⟨⟨host', flushingClient k, head, transit, [sampleFlush], [],
      [⟨some 2, .write, true⟩], false, none⟩, d, .inFlush, .looping, false⟩)
  have hhandle' : (machine sampleRegion 1).step ⟨⟨host', flushingClient k, head, transit, [],
      [⟨some 3, .flush, true⟩], [⟨some 2, .write, true⟩], false, none⟩, d, .inFlush, .looping,
      false⟩ (.completion 6 (.handle sampleRemote)) = some ⟨⟨host', flushedClient k, head, transit,
        [], [], [⟨some 2, .write, true⟩, ⟨some 3, .flush, true⟩], false, none⟩, d, .inFlush,
        .looping, true⟩ :=
    (machine_completion rfl rfl hd hr hempty).trans (by
      simp only [took, mirrorStep, (hcopies _ _).2.handle', (hcopies _ _).2.calls',
        Option.map_some, Bool.or_true])
  refine ⟨_, _, (run₆.snoc hhandle').snoc (a := .look) rfl, rfl, fun b hb u => ?_⟩
  simp only [List.map_append, List.map_cons, List.map_nil, List.map_map, List.mem_append,
    List.mem_singleton, List.mem_map, List.not_mem_nil, false_or] at hb
  rcases hb with ((((((rfl | rfl | ⟨i, -, rfl⟩) | rfl) | rfl) | rfl) | rfl) | rfl) | rfl <;>
    exact ⟨trivial, fun _ => trivial⟩

/-- The first byte of the memory, in the file of the replica. -/
theorem memory_copied_byte : ∃ as t g, (machine sampleRegion 1).Run
    (create 3 (fun _ => none) 0 .zero .zero .persistent 0 none) as t ∧
      t.mirror.host.files (cStr requestPath) = some g ∧ g.content 0 = 97 := by
  obtain ⟨as, host, l, hrun, hmeets, hlocal, hrunning, hl, hman, hmr, f, hf, hmapped⟩ :=
    Mirror.replica_made request length_request rfl
  obtain ⟨head, hhead⟩ : ∃ head, head = fill data mrSize.toNat 0 fun _ => 0 := ⟨_, rfl⟩
  obtain ⟨k, d, r, run₂, hbase, hdata, himage, hd, hr, hempty⟩ := run_prepares host head hhead
  obtain ⟨bs, t, run₃, hplace, hspares⟩ :=
    run_copies hrunning hl hman hmr hbase hdata himage hd hr hempty head
  obtain ⟨mrun₁, mmeets₁⟩ : (Mirror.machine sampleRegion 1).Run _ (as.map .host) _ ∧
      (Mirror.machine sampleRegion 1).Meets Mirror.Allowed _ (as.map .host) :=
    Mirror.run_host hrun hmeets hlocal
      (create 3 (fun _ => none) 0 .zero .zero .persistent 0 none).mirror
  have houtside : ∀ a ∈ as.map MirrorAct.host, Outside a := by
    intro a ha
    obtain ⟨b, -, rfl⟩ := List.mem_map.1 ha
    trivial
  have run₁ := run_outside mrun₁ houtside
    (create 3 (fun _ => none) 0 .zero .zero .persistent 0 none)
  have hpreparing : ∀ a ∈ preparing, ∀ u : ClientMain, u.Allowed a := by
    intro a ha u
    simp only [preparing, List.mem_cons, List.not_mem_nil, or_false] at ha
    rcases ha with rfl | rfl | rfl | rfl | rfl | rfl | rfl <;> trivial
  have hallowed := (meets_outside mrun₁ houtside mmeets₁
    (create 3 (fun _ => none) 0 .zero .zero .persistent 0 none)).append hpreparing
  have hregion : host.region 1 = some ⟨some 16, requireSize, true, requestPath⟩ :=
    Host.region_eq_some.2 ⟨l, hl, hman⟩
  obtain ⟨g, hg, hcontent⟩ := memory_copied sampleRegion 1 (by decide) _ 0 .zero .zero
    .persistent 0 none _ bs _ t (run₁.append run₂) hallowed rfl _ hregion
    ⟨Option.some_ne_none _, rfl⟩ f hf hmapped run₃ (Machine.meets_of_forall fun b hb u =>
      ⟨(hspares b hb u).1, fun off _ => (hspares b hb u).2 off⟩) (.inl hplace)
  exact ⟨_, t, g, (run₁.append run₂).append run₃, hg, (hcontent 0 (by decide)).trans (by decide)⟩

end ClientMain

end RpmaReplica
