import Mathlib

/-!
# Byte decoders over a cursor, and versioned envelopes

A decoder reads from a cursor into a byte buffer: it either fails or returns a
value and the cursor behind the bytes it consumed.  The cursor remembers how many
bytes lie behind it, because length-prefixed envelopes compare absolute offsets.

The central notion is `Reads d bs a`: wherever the bytes `bs` stand ahead of the
cursor, and whatever follows them, the decoder `d` returns `a` and leaves the cursor
exactly behind `bs`.  It composes along `bind` (`Reads.bind`) and through the
versioned envelope (`Reads.envelope_skip`), so the round trip of a nested format is
assembled field by field from the round trips of its leaves.
-/

namespace RpmaReplica

/-- A sequence of bytes. -/
abbrev Bytes : Type := List UInt8

namespace Wire

/-! ### Cursors and decoders -/

/-- A position in a buffer: the number of bytes behind it and the bytes ahead. -/
structure Cursor where
  off : ℕ
  rest : Bytes
  deriving DecidableEq, Repr

/-- The cursor at the start of a buffer. -/
def Cursor.start (bs : Bytes) : Cursor := ⟨0, bs⟩

/-- The two ways in which decoding can fail. -/
inductive DecodeError
  | endOfBuffer
  | malformedInput
  deriving DecidableEq, Repr

/-- A decoder fails or returns a value and the cursor behind what it has read. -/
abbrev Decoder (α : Type) : Type := StateT Cursor (Except DecodeError) α

variable {α β : Type}

/-- `d` reads exactly the bytes `bs`, wherever they stand and whatever follows. -/
def Reads (d : Decoder α) (bs : Bytes) (a : α) : Prop :=
  ∀ off rest, d ⟨off, bs ++ rest⟩ = .ok (a, ⟨off + bs.length, rest⟩)

lemma Reads.ret (a : α) : Reads (pure a : Decoder α) [] a := by
  intro off rest
  simp [Pure.pure, StateT.pure, Except.pure]

/-- Reading one block after another. -/
lemma Reads.bind {d : Decoder α} {f : α → Decoder β} {bs cs : Bytes} {a : α} {b : β}
    (hd : Reads d bs a) (hf : Reads (f a) cs b) : Reads (d >>= f) (bs ++ cs) b := by
  intro off rest
  have h1 := hd off (cs ++ rest)
  have h2 := hf (off + bs.length) rest
  rw [List.append_assoc]
  show (StateT.bind d f) _ = _
  simp only [StateT.bind, h1, List.length_append]
  rw [← Nat.add_assoc]
  exact h2

/-- Reading a block and turning it into a value. -/
lemma Reads.map {d : Decoder α} {bs : Bytes} {a : α} (hd : Reads d bs a) (f : α → β) :
    Reads (do let x ← d; return f x) bs (f a) := by
  have h := Reads.bind (f := fun x => pure (f x)) hd (Reads.ret (f a))
  rwa [List.append_nil] at h

/-- A decoder that reads a block reads it at the start of any buffer beginning with it. -/
lemma Reads.start {d : Decoder α} {bs rest : Bytes} {a : α} (h : Reads d bs a) :
    d (Cursor.start (bs ++ rest)) = .ok (a, ⟨bs.length, rest⟩) := by
  simpa [Cursor.start] using h 0 rest

/-- What a successful sequence of two decoders did. -/
lemma bind_eq_ok {d : Decoder α} {f : α → Decoder β} {c c' : Cursor} {b : β} :
    (d >>= f) c = .ok (b, c') ↔ ∃ a c₁, d c = .ok (a, c₁) ∧ f a c₁ = .ok (b, c') := by
  show (StateT.bind d f) c = _ ↔ _
  rw [StateT.bind]
  rcases h : d c with e | ⟨a, c₁⟩
  · simp [Bind.bind, Except.bind]
  · simp [Bind.bind, Except.bind]

lemma pure_eq_ok {a b : α} {c c' : Cursor} :
    (pure a : Decoder α) c = .ok (b, c') ↔ a = b ∧ c = c' := by
  simp [Pure.pure, StateT.pure, Except.pure]

/-! ### Fixed-width little-endian numbers -/

/-- The `k` low bytes of `n`, least significant first. -/
def bytesLE : ℕ → ℕ → Bytes
  | 0, _ => []
  | k + 1, n => UInt8.ofNat (n % 256) :: bytesLE k (n / 256)

/-- The number written by a little-endian sequence of bytes. -/
def ofBytesLE : Bytes → ℕ
  | [] => 0
  | b :: bs => b.toNat + 256 * ofBytesLE bs

@[simp] lemma length_bytesLE (k n : ℕ) : (bytesLE k n).length = k := by
  induction k generalizing n with
  | zero => rfl
  | succ k ih => simp [bytesLE, ih]

lemma ofBytesLE_bytesLE (k n : ℕ) (h : n < 256 ^ k) : ofBytesLE (bytesLE k n) = n := by
  induction k generalizing n with
  | zero =>
      have hn : n = 0 := by simpa using h
      simp [bytesLE, ofBytesLE, hn]
  | succ k ih =>
      have hdiv : n / 256 < 256 ^ k := by
        rw [Nat.div_lt_iff_lt_mul (by decide)]
        rwa [Nat.pow_succ] at h
      have hmod : (UInt8.ofNat (n % 256)).toNat = n % 256 := by
        simp [UInt8.toNat_ofNat']
      rw [bytesLE, ofBytesLE, ih _ hdiv, hmod]
      omega

/-- Take the next `n` bytes. -/
def take (n : ℕ) : Decoder Bytes := fun c =>
  if n ≤ c.rest.length then .ok (c.rest.take n, ⟨c.off + n, c.rest.drop n⟩)
  else .error .endOfBuffer

lemma reads_take (bs : Bytes) : Reads (take bs.length) bs bs := by
  intro off rest
  simp [take]

lemma take_eq_ok {n : ℕ} {c c' : Cursor} {bs : Bytes} :
    take n c = .ok (bs, c') ↔
      bs.length = n ∧ c.rest = bs ++ c'.rest ∧ c'.off = c.off + n := by
  obtain ⟨off, rest⟩ := c
  obtain ⟨off', rest'⟩ := c'
  rw [take]
  constructor
  · intro h
    split at h
    · rename_i hle
      simp only [Except.ok.injEq, Prod.mk.injEq, Cursor.mk.injEq] at h
      obtain ⟨rfl, rfl, rfl⟩ := h
      exact ⟨by simpa using hle, by simp, rfl⟩
    · exact absurd h (by simp)
  · rintro ⟨hn, hrest, hoff⟩
    simp only at hn hrest hoff
    subst hrest hoff hn
    simp

/-- Decode a little-endian number of `k` bytes. -/
def natLE (k : ℕ) : Decoder ℕ := do
  let bs ← take k
  return ofBytesLE bs

lemma reads_natLE (k n : ℕ) (h : n < 256 ^ k) : Reads (natLE k) (bytesLE k n) n := by
  have hk : Reads (take k) (bytesLE k n) (bytesLE k n) := by
    have := reads_take (bytesLE k n)
    rwa [length_bytesLE] at this
  have hk' := hk.map ofBytesLE
  rwa [ofBytesLE_bytesLE k n h] at hk'

lemma natLE_eq_ok {k n : ℕ} {c c' : Cursor} :
    natLE k c = .ok (n, c') ↔
      ∃ bs, bs.length = k ∧ c.rest = bs ++ c'.rest ∧ c'.off = c.off + k ∧ ofBytesLE bs = n := by
  rw [natLE]
  rw [bind_eq_ok]
  constructor
  · rintro ⟨bs, c₁, h1, h2⟩
    obtain ⟨hlen, hrest, hoff⟩ := take_eq_ok.1 h1
    obtain ⟨hn, rfl⟩ := pure_eq_ok.1 h2
    exact ⟨bs, hlen, hrest, hoff, hn⟩
  · rintro ⟨bs, hlen, hrest, hoff, hn⟩
    exact ⟨bs, c', take_eq_ok.2 ⟨hlen, hrest, hoff⟩, pure_eq_ok.2 ⟨hn, rfl⟩⟩

/-- A block of bytes behind a 32-bit count of them. -/
def blob (bs : Bytes) : Bytes := bytesLE 4 bs.length ++ bs

/-- Decode a block of bytes behind a 32-bit count of them. -/
def readBlob : Decoder Bytes := do
  let n ← natLE 4
  take n

lemma reads_blob (bs : Bytes) (h : bs.length < 256 ^ 4) : Reads readBlob (blob bs) bs :=
  (reads_natLE 4 bs.length h).bind (reads_take bs)

@[simp] lemma length_blob (bs : Bytes) : (blob bs).length = 4 + bs.length := by
  simp [blob]

/-- The 32-bit number that stands at an offset. -/
def wordAt (off : ℕ) (bs : Bytes) : ℕ := ofBytesLE ((bs.drop off).take 4)

/-- A number found behind as many bytes as the offset says. -/
lemma wordAt_append {off n : ℕ} {pre : Bytes} (hpre : pre.length = off) (hn : n < 256 ^ 4)
    (rest : Bytes) : wordAt off (pre ++ (bytesLE 4 n ++ rest)) = n := by
  rw [wordAt, List.drop_left' hpre, List.take_left' (length_bytesLE 4 n), ofBytesLE_bytesLE 4 n hn]

/-! ### Versioned envelopes -/

/-- A payload behind a version byte, a compatibility byte and a 32-bit payload length. -/
def envelope (v compat : UInt8) (payload : Bytes) : Bytes :=
  v :: compat :: (bytesLE 4 payload.length ++ payload)

@[simp] lemma length_envelope (v compat : UInt8) (payload : Bytes) :
    (envelope v compat payload).length = 6 + payload.length := by
  simp [envelope]
  omega

/-- The six bytes in front of a payload. -/
lemma envelope_eq_append (v compat : UInt8) (payload : Bytes) :
    ∃ header : Bytes, header.length = 6 ∧ envelope v compat payload = header ++ payload :=
  ⟨v :: compat :: bytesLE 4 payload.length, by simp, rfl⟩

/-- Fail on malformed input unless `p` holds. -/
def require (p : Prop) [Decidable p] : Decoder Unit := fun c =>
  if p then .ok ((), c) else .error .malformedInput

/-- The cursor itself. -/
def position : Decoder Cursor := fun c => .ok (c, c)

lemma require_eq_ok {p : Prop} [Decidable p] {c c' : Cursor} {u : Unit} :
    require p c = .ok (u, c') ↔ p ∧ c = c' := by
  rw [require]
  by_cases hp : p
  · simp [hp]
  · simp [hp]

lemma position_eq_ok {c c₁ c' : Cursor} : position c = .ok (c₁, c') ↔ c = c₁ ∧ c = c' := by
  simp [position]

/-- Open an envelope: reject a compatibility byte above the version `v` that the reader
knows and a length beyond the end of the buffer.  The result is the offset at which the
payload ends. -/
def openEnvelope (v : UInt8) : Decoder ℕ := do
  let _structV ← take 1
  let compat ← natLE 1
  require (compat ≤ v.toNat)
  let len ← natLE 4
  let c ← position
  require (len ≤ c.rest.length)
  return c.off + len

/-- Close an envelope that ends at `structEnd`: reject a payload that was read beyond its
end, and skip what was left unread. -/
def closeEnvelope (structEnd : ℕ) : Decoder Unit := do
  let c ← position
  require (c.off ≤ structEnd)
  let _ ← take (structEnd - c.off)
  return ()

/-- Decode a payload inside its envelope. -/
def inEnvelope (v : UInt8) (body : Decoder α) : Decoder α := do
  let structEnd ← openEnvelope v
  let a ← body
  closeEnvelope structEnd
  return a

/-- A successful opening has consumed the six bytes of the header and nothing else, and the
payload it announces lies within the buffer. -/
lemma openEnvelope_eq_ok {v : UInt8} {c c' : Cursor} {e : ℕ} :
    openEnvelope v c = .ok (e, c') ↔
      ∃ sv compat len, c.rest = sv :: compat :: (len ++ c'.rest) ∧ len.length = 4 ∧
        compat.toNat ≤ v.toNat ∧ ofBytesLE len ≤ c'.rest.length ∧ c'.off = c.off + 6 ∧
        e = c'.off + ofBytesLE len := by
  rw [openEnvelope]
  simp only [bind_eq_ok, take_eq_ok, natLE_eq_ok, require_eq_ok, position_eq_ok, pure_eq_ok]
  constructor
  · rintro ⟨svs, c₁, ⟨hsv, hr, ho⟩, n, c₂, ⟨cs, hcs, hr₂, ho₂, rfl⟩, -, _, ⟨hcompat, rfl⟩, k,
      c₃, ⟨ls, hls, hr₃, ho₃, rfl⟩, _, _, ⟨rfl, rfl⟩, -, _, ⟨hlen, rfl⟩, rfl, rfl⟩
    obtain ⟨sv, rfl⟩ := List.length_eq_one_iff.1 hsv
    obtain ⟨compat, rfl⟩ := List.length_eq_one_iff.1 hcs
    refine ⟨sv, compat, ls, ?_, hls, by simpa [ofBytesLE] using hcompat, hlen, by omega, rfl⟩
    rw [hr, hr₂, hr₃]
    rfl
  · rintro ⟨sv, compat, len, hrest, hlen, hcompat, hle, hoff, rfl⟩
    refine ⟨[sv], ⟨c.off + 1, compat :: (len ++ c'.rest)⟩, ⟨rfl, by simpa using hrest, rfl⟩,
      compat.toNat, ⟨c.off + 2, len ++ c'.rest⟩, ⟨[compat], rfl, rfl, rfl, by simp [ofBytesLE]⟩,
      (), _, ⟨hcompat, rfl⟩, ofBytesLE len, c', ⟨len, hlen, rfl, by simpa using hoff, rfl⟩,
      c', c', ⟨rfl, rfl⟩, (), c', ⟨hle, rfl⟩, rfl, rfl⟩

lemma closeEnvelope_eq_ok {e : ℕ} {c c' : Cursor} {u : Unit} :
    closeEnvelope e c = .ok (u, c') ↔
      ∃ bs, c.rest = bs ++ c'.rest ∧ c.off + bs.length = e ∧ c'.off = e := by
  rw [closeEnvelope]
  simp only [bind_eq_ok, take_eq_ok, require_eq_ok, position_eq_ok, pure_eq_ok]
  constructor
  · rintro ⟨_, _, ⟨rfl, rfl⟩, -, _, ⟨hle, rfl⟩, bs, _, ⟨hbs, hrest, hoff⟩, -, rfl⟩
    exact ⟨bs, hrest, by omega, by omega⟩
  · rintro ⟨bs, hrest, hbs, hoff⟩
    exact ⟨c, c, ⟨rfl, rfl⟩, (), c, ⟨by omega, rfl⟩, bs, c', ⟨by omega, hrest, by omega⟩,
      trivial, rfl⟩

/-- **Envelopes compose.**  If the body reads exactly the start of the payload, then the body
inside an envelope reads the whole payload inside its envelope, and skips what it does not
know. -/
theorem Reads.envelope_skip {body : Decoder α} {payload : Bytes} {a : α} {v sv compat : UInt8}
    (h : Reads body payload a) (more : Bytes) (hlen : (payload ++ more).length < 256 ^ 4)
    (hcompat : compat.toNat ≤ v.toNat) :
    Reads (inEnvelope v body) (Wire.envelope sv compat (payload ++ more)) a := by
  intro off rest
  rw [inEnvelope]
  refine bind_eq_ok.2 ⟨off + 6 + (payload ++ more).length,
    ⟨off + 6, payload ++ (more ++ rest)⟩, ?_, ?_⟩
  · refine openEnvelope_eq_ok.2 ⟨sv, compat, bytesLE 4 (payload ++ more).length, ?_, by simp,
      hcompat, ?_, rfl, ?_⟩
    · simp [Wire.envelope]
    · rw [ofBytesLE_bytesLE 4 _ hlen]
      simp
    · rw [ofBytesLE_bytesLE 4 _ hlen]
  · refine bind_eq_ok.2 ⟨a, _, h (off + 6) (more ++ rest), ?_⟩
    -- the body stopped behind the part it knows, so closing skips exactly the rest
    refine bind_eq_ok.2 ⟨(), ⟨off + 6 + (payload ++ more).length, rest⟩,
      closeEnvelope_eq_ok.2 ⟨more, rfl, by simp [Nat.add_assoc], rfl⟩, ?_⟩
    refine pure_eq_ok.2 ⟨rfl, ?_⟩
    simp [Nat.add_assoc]

/-- A body that reads exactly the payload. -/
lemma Reads.envelope {body : Decoder α} {payload : Bytes} {a : α} {v sv compat : UInt8}
    (h : Reads body payload a) (hlen : payload.length < 256 ^ 4)
    (hcompat : compat.toNat ≤ v.toNat) :
    Reads (inEnvelope v body) (Wire.envelope sv compat payload) a := by
  have hskip : Reads (inEnvelope v body) (Wire.envelope sv compat (payload ++ [])) a :=
    h.envelope_skip [] (by simpa using hlen) hcompat
  rwa [List.append_nil] at hskip

/-! ### Formats -/

/-- `d` accepts exactly the format `F`: it succeeds where bytes that stand for a value are
ahead, returns that value, and stops exactly behind those bytes. -/
def Accepts (d : Decoder α) (F : Bytes → α → Prop) : Prop :=
  ∀ c c' a, d c = .ok (a, c') ↔
    ∃ bs, F bs a ∧ c.rest = bs ++ c'.rest ∧ c'.off = c.off + bs.length

lemma Accepts.congr {d : Decoder α} {F G : Bytes → α → Prop} (h : Accepts d F)
    (hFG : ∀ bs a, F bs a ↔ G bs a) : Accepts d G := by
  intro c c' a
  rw [h c c' a]
  simp only [hFG]

/-- What follows an accepted block is again accepted. -/
lemma Accepts.bind {d : Decoder α} {f : α → Decoder β} {F : Bytes → α → Prop}
    {G : α → Bytes → β → Prop} (hd : Accepts d F) (hf : ∀ a, Accepts (f a) (G a)) :
    Accepts (d >>= f) fun bs b => ∃ bs₁ bs₂ a, bs = bs₁ ++ bs₂ ∧ F bs₁ a ∧ G a bs₂ b := by
  intro c c' b
  rw [bind_eq_ok]
  constructor
  · rintro ⟨a, c₁, h1, h2⟩
    obtain ⟨bs₁, hF, hrest₁, hoff₁⟩ := (hd _ _ _).1 h1
    obtain ⟨bs₂, hG, hrest₂, hoff₂⟩ := (hf a _ _ _).1 h2
    refine ⟨bs₁ ++ bs₂, ⟨bs₁, bs₂, a, rfl, hF, hG⟩, ?_, ?_⟩
    · rw [hrest₁, hrest₂, List.append_assoc]
    · rw [hoff₂, hoff₁, List.length_append, Nat.add_assoc]
  · rintro ⟨bs, ⟨bs₁, bs₂, a, rfl, hF, hG⟩, hrest, hoff⟩
    have hrest₁ : c.rest = bs₁ ++ (bs₂ ++ c'.rest) := by rw [hrest, List.append_assoc]
    have hoff₂ : c'.off = c.off + bs₁.length + bs₂.length := by
      rw [hoff, List.length_append, Nat.add_assoc]
    exact ⟨a, ⟨c.off + bs₁.length, bs₂ ++ c'.rest⟩, (hd _ _ _).2 ⟨bs₁, hF, hrest₁, rfl⟩,
      (hf a _ _ _).2 ⟨bs₂, hG, rfl, hoff₂⟩⟩

/-- Turning what was accepted into another value. -/
lemma Accepts.map {d : Decoder α} {F : Bytes → α → Prop} (hd : Accepts d F) (f : α → β) :
    Accepts (do let x ← d; return f x) fun bs b => ∃ a, F bs a ∧ f a = b := by
  intro c c' b
  simp only [bind_eq_ok, pure_eq_ok]
  constructor
  · rintro ⟨a, c₁, h, hb, rfl⟩
    obtain ⟨bs, hF, hrest, hoff⟩ := (hd _ _ _).1 h
    exact ⟨bs, ⟨a, hF, hb⟩, hrest, hoff⟩
  · rintro ⟨bs, ⟨a, hF, hb⟩, hrest, hoff⟩
    exact ⟨a, c', (hd _ _ _).2 ⟨bs, hF, hrest, hoff⟩, hb, rfl⟩

lemma ofBytesLE_lt (bs : Bytes) : ofBytesLE bs < 256 ^ bs.length := by
  induction bs with
  | nil => simp [ofBytesLE]
  | cons b bs ih =>
      have hb := b.toNat_lt
      rw [ofBytesLE, List.length_cons, Nat.pow_succ]
      omega

lemma bytesLE_ofBytesLE (bs : Bytes) : bytesLE bs.length (ofBytesLE bs) = bs := by
  induction bs with
  | nil => rfl
  | cons b bs ih =>
      have hb := b.toNat_lt
      have hmod : (b.toNat + 256 * ofBytesLE bs) % 256 = b.toNat := by omega
      have hdiv : (b.toNat + 256 * ofBytesLE bs) / 256 = ofBytesLE bs := by omega
      rw [List.length_cons, ofBytesLE, bytesLE, hmod, hdiv, ih, UInt8.ofNat_toNat]

lemma accepts_natLE (k : ℕ) : Accepts (natLE k) fun bs n => n < 256 ^ k ∧ bs = bytesLE k n := by
  intro c c' n
  rw [natLE_eq_ok]
  constructor
  · rintro ⟨bs, rfl, hrest, hoff, rfl⟩
    exact ⟨bs, ⟨ofBytesLE_lt bs, (bytesLE_ofBytesLE bs).symm⟩, hrest, hoff⟩
  · rintro ⟨bs, ⟨hn, rfl⟩, hrest, hoff⟩
    rw [length_bytesLE] at hoff
    exact ⟨_, length_bytesLE k n, hrest, hoff, ofBytesLE_bytesLE k n hn⟩

lemma accepts_take (n : ℕ) : Accepts (take n) fun bs bs' => bs = bs' ∧ bs'.length = n := by
  intro c c' bs
  rw [take_eq_ok]
  constructor
  · rintro ⟨hn, hrest, hoff⟩
    exact ⟨bs, ⟨rfl, hn⟩, hrest, by rw [hoff, hn]⟩
  · rintro ⟨bs', ⟨rfl, hn⟩, hrest, hoff⟩
    exact ⟨hn, hrest, by rw [hoff, hn]⟩

lemma accepts_blob : Accepts readBlob fun bs s => s.length < 256 ^ 4 ∧ bs = blob s := by
  refine ((accepts_natLE 4).bind fun n => accepts_take n).congr fun bs s => ?_
  constructor
  · rintro ⟨_, _, n, rfl, ⟨hn, rfl⟩, rfl, rfl⟩
    exact ⟨hn, rfl⟩
  · rintro ⟨hn, rfl⟩
    exact ⟨_, _, s.length, rfl, ⟨hn, rfl⟩, rfl, rfl⟩

/-- **What is accepted inside an envelope**: an envelope of any version that the reader may
read, whose payload starts with what the body accepts.  The body is run on everything up to
the end of the buffer; it is the closing check that keeps what it reads inside. -/
theorem Accepts.envelope {body : Decoder α} {F : Bytes → α → Prop} (h : Accepts body F)
    (v : UInt8) :
    Accepts (inEnvelope v body) fun bs a => ∃ sv compat payload more,
      compat.toNat ≤ v.toNat ∧ (payload ++ more).length < 256 ^ 4 ∧ F payload a ∧
        bs = Wire.envelope sv compat (payload ++ more) := by
  intro c c' a
  rw [inEnvelope]
  constructor
  · intro hok
    obtain ⟨e, c₁, hopen, hok⟩ := bind_eq_ok.1 hok
    obtain ⟨x, c₂, hbody, hok⟩ := bind_eq_ok.1 hok
    obtain ⟨_, c₃, hclose, hok⟩ := bind_eq_ok.1 hok
    obtain ⟨rfl, rfl⟩ := pure_eq_ok.1 hok
    obtain ⟨sv, compat, len, hrest, hlen, hcompat, -, hoff, hend⟩ := openEnvelope_eq_ok.1 hopen
    obtain ⟨payload, hF, hrest₁, hoff₁⟩ := (h _ _ _).1 hbody
    obtain ⟨more, hrest₂, hoff₂, hoff₃⟩ := closeEnvelope_eq_ok.1 hclose
    -- the announced length is what the body read and what closing skipped
    have hsum : ofBytesLE len = (payload ++ more).length := by
      rw [List.length_append]
      omega
    have hbytes : len = bytesLE 4 (payload ++ more).length := by
      rw [← hsum, ← hlen, bytesLE_ofBytesLE]
    refine ⟨_, ⟨sv, compat, payload, more, hcompat, ?_, hF, rfl⟩, ?_, ?_⟩
    · rw [← hsum, ← hlen]
      exact ofBytesLE_lt len
    · rw [hrest, hrest₁, hrest₂, Wire.envelope, hbytes]
      simp
    · rw [length_envelope, hoff₃, hend, hoff, hsum, Nat.add_assoc]
  · rintro ⟨_, ⟨sv, compat, payload, more, hcompat, hlen, hF, rfl⟩, hrest, hoff⟩
    rw [length_envelope] at hoff
    refine bind_eq_ok.2 ⟨c'.off, ⟨c.off + 6, payload ++ (more ++ c'.rest)⟩, ?_, ?_⟩
    · refine openEnvelope_eq_ok.2 ⟨sv, compat, bytesLE 4 (payload ++ more).length, ?_, by simp,
        hcompat, ?_, rfl, ?_⟩
      · rw [hrest]
        simp [Wire.envelope]
      · rw [ofBytesLE_bytesLE 4 _ hlen]
        simp
      · rw [ofBytesLE_bytesLE 4 _ hlen, hoff, Nat.add_assoc]
    · refine bind_eq_ok.2 ⟨a, ⟨c.off + 6 + payload.length, more ++ c'.rest⟩,
        (h _ _ _).2 ⟨payload, hF, rfl, rfl⟩, bind_eq_ok.2 ⟨(), c',
          closeEnvelope_eq_ok.2 ⟨more, rfl, ?_, rfl⟩, pure_eq_ok.2 ⟨rfl, rfl⟩⟩⟩
      rw [hoff, List.length_append]
      simp only
      omega

/-- An envelope is found in one way only. -/
lemma envelope_inj {sv sv' compat compat' : UInt8} {p p' rest rest' : Bytes}
    (hp : p.length < 256 ^ 4) (hp' : p'.length < 256 ^ 4)
    (h : Wire.envelope sv compat p ++ rest = Wire.envelope sv' compat' p' ++ rest') :
    p = p' ∧ rest = rest' := by
  simp only [Wire.envelope, List.cons_append, List.append_assoc, List.cons.injEq] at h
  obtain ⟨hlen, htail⟩ := List.append_inj h.2.2 (by simp)
  have hp_len : p.length = p'.length := by
    rw [← ofBytesLE_bytesLE 4 _ hp, hlen, ofBytesLE_bytesLE 4 _ hp']
  exact List.append_inj htail hp_len

end Wire

end RpmaReplica
