import RpmaReplica.Lib.Names
import RpmaReplica.RPMAHandler

/-!
# The files behind the replicas

`get_descriptor_for_write` names the file of a replica after the pool, the image and the cache id,
with dots between them, and `MemoryManager::init` puts it under the mount point.  The id can be
read off such a path, since decimal numbers have no dots.  The two names cannot: a dot inside
them looks like the dot between them, so that images of different pools may have one file.
`paths_distinct_iff` says for which replicas that happens.
-/

namespace RpmaReplica

namespace RPMAHandler

open MemoryManager (mountPath)

/-! ### The parts of a path -/

/-- The separator. -/
def dot : UInt8 := 46

/-- A cache id as it stands in a path. -/
def idBytes (cacheId : UInt32) : Bytes := ascii (toString cacheId.toNat)

lemma idBytes_eq (cacheId : UInt32) :
    idBytes cacheId = (Nat.toDigits 10 cacheId.toNat).map fun c => UInt8.ofNat c.toNat := by
  rw [idBytes, ascii, Nat.toString_eq_repr, Nat.toList_repr]

/-- The byte of a digit. -/
lemma toNat_digit {n : ℕ} {c : Char} (hc : c ∈ Nat.toDigits 10 n) :
    (UInt8.ofNat c.toNat).toNat = c.toNat ∧ 48 ≤ c.toNat := by
  obtain ⟨hlow, hhigh⟩ := Names.toNat_of_isDigit (Names.isDigit_of_mem_toDigits hc)
  have hsize : c.toNat < UInt8.size := lt_of_le_of_lt hhigh (by decide)
  exact ⟨UInt8.toNat_ofNat_of_lt hsize, hlow⟩

/-- No byte below that of the digit 0 occurs in a cache id. -/
lemma notMem_idBytes {b : UInt8} (hb : b.toNat < 48) (cacheId : UInt32) :
    b ∉ idBytes cacheId := by
  rw [idBytes_eq]
  intro hmem
  obtain ⟨c, hc, heq⟩ := List.mem_map.1 hmem
  obtain ⟨hbyte, hlow⟩ := toNat_digit hc
  rw [heq] at hbyte
  omega

lemma dot_notMem_idBytes (cacheId : UInt32) : dot ∉ idBytes cacheId :=
  notMem_idBytes (by decide) cacheId

/-- The id can be read off its bytes. -/
lemma idBytes_injective : Function.Injective idBytes := by
  -- a digit is told by its byte
  have hback : ∀ n : UInt32, (idBytes n).map (fun b => Char.ofNat b.toNat) =
      Nat.toDigits 10 n.toNat := by
    intro n
    rw [idBytes_eq, List.map_map]
    refine (List.map_congr_left fun c hc => ?_).trans (List.map_id _)
    rw [Function.comp_apply, (toNat_digit hc).1, Char.ofNat_toNat, id]
  intro m n h
  have hdigits : Nat.toDigits 10 m.toNat = Nat.toDigits 10 n.toNat := by
    rw [← hback, ← hback, h]
  exact UInt32.toNat_inj.1 (Names.toDigits_injective hdigits)

/-- A path, with the two separators that matter. -/
lemma mountPath_poolPath (info : RwlCacheInfo) :
    mountPath (poolPath info) =
      (ascii "/mnt/pmem/rbd-pwl." ++ (info.poolName ++ dot :: (info.imageName ++ ascii ".pool"))) ++
        dot :: idBytes info.cacheId := by
  have hmount : ascii "/mnt/pmem/rbd-pwl." = ascii "/mnt/pmem/" ++ ascii "rbd-pwl." := by decide
  have hpool : ascii ".pool." = ascii ".pool" ++ [dot] := by decide
  have hdot : ascii "." = [dot] := by decide
  rw [mountPath, poolPath, hmount, hpool, hdot, idBytes]
  simp only [List.append_assoc, List.cons_append, List.nil_append]

/-- Two paths are the same if and only if the ids are, and the names with the dot between them. -/
lemma mountPath_poolPath_eq_iff (a b : RwlCacheInfo) :
    mountPath (poolPath a) = mountPath (poolPath b) ↔
      a.cacheId = b.cacheId ∧
        a.poolName ++ dot :: a.imageName = b.poolName ++ dot :: b.imageName := by
  rw [mountPath_poolPath, mountPath_poolPath]
  constructor
  · intro h
    obtain ⟨hnames, hid⟩ := Names.append_sep_inj (dot_notMem_idBytes _) (dot_notMem_idBytes _) h
    refine ⟨idBytes_injective hid, ?_⟩
    have hrest := List.append_cancel_left hnames
    have hpool : (a.poolName ++ dot :: a.imageName) ++ ascii ".pool" =
        (b.poolName ++ dot :: b.imageName) ++ ascii ".pool" := by
      simpa using hrest
    exact List.append_cancel_right hpool
  · rintro ⟨hid, hnames⟩
    have hrest : a.poolName ++ dot :: (a.imageName ++ ascii ".pool") =
        b.poolName ++ dot :: (b.imageName ++ ascii ".pool") := by
      simpa using congrArg (· ++ ascii ".pool") hnames
    rw [hid, hrest]

/-! ### What the C functions see of a path -/

/-- Bytes with a NUL hide what is behind them. -/
lemma cStr_append_of_mem {s : Bytes} (h : 0 ∈ s) (t : Bytes) : cStr (s ++ t) = cStr s := by
  induction s with
  | nil => cases h
  | cons b s ih =>
      by_cases hb : b = 0
      · subst hb
        rfl
      · have htail : 0 ∈ s := (List.mem_cons.1 h).resolve_left (Ne.symm hb)
        have hcons : ∀ u, cStr (b :: u) = b :: cStr u := fun u => by simp [cStr, hb]
        rw [List.cons_append, hcons, hcons, ih htail]

lemma cStr_append_of_notMem {s : Bytes} (h : 0 ∉ s) (t : Bytes) : cStr (s ++ t) = s ++ cStr t :=
  List.takeWhile_append_of_pos fun _ hb => decide_eq_true fun hzero => h (hzero ▸ hb)

/-- The end of a path, as `access`, `pmem_map_file` and `remove` see it: a NUL in a name hides the
rest of the path, with the id. -/
def seen (info : RwlCacheInfo) : Bytes :=
  if 0 ∈ info.poolName then cStr info.poolName
  else if 0 ∈ info.imageName then info.poolName ++ dot :: cStr info.imageName
  else (info.poolName ++ dot :: (info.imageName ++ ascii ".pool")) ++ dot :: idBytes info.cacheId

lemma cStr_mountPath_poolPath (info : RwlCacheInfo) :
    cStr (mountPath (poolPath info)) = ascii "/mnt/pmem/rbd-pwl." ++ seen info := by
  have hmount : (0 : UInt8) ∉ ascii "/mnt/pmem/rbd-pwl." := by decide
  have hpool : (0 : UInt8) ∉ ascii ".pool" := by decide
  have hdot : (0 : UInt8) ∉ [dot] := by decide
  have hid : (0 : UInt8) ∉ dot :: idBytes info.cacheId := by
    have hdigits : (0 : UInt8) ∉ idBytes info.cacheId := notMem_idBytes (by decide) _
    simp only [List.mem_cons, not_or]
    exact ⟨by decide, hdigits⟩
  have hcons : ∀ t, dot :: t = [dot] ++ t := fun _ => rfl
  rw [mountPath_poolPath, seen]
  by_cases hp : 0 ∈ info.poolName
  · rw [if_pos hp, List.append_assoc, cStr_append_of_notMem hmount, List.append_assoc,
      cStr_append_of_mem hp]
  rw [if_neg hp, List.append_assoc, cStr_append_of_notMem hmount, List.append_assoc,
    cStr_append_of_notMem hp, List.cons_append, hcons, cStr_append_of_notMem hdot,
    List.append_assoc]
  by_cases hi : 0 ∈ info.imageName
  · rw [if_pos hi, cStr_append_of_mem hi]
    rfl
  · have hwhole : cStr (dot :: idBytes info.cacheId) = dot :: idBytes info.cacheId := by
      have happend := cStr_append_of_notMem hid []
      simpa [cStr] using happend
    rw [if_neg hi, cStr_append_of_notMem hi, cStr_append_of_notMem hpool, hwhole]

/-! ### Different replicas -/

/-- The two are the same replica. -/
def SameReplica (a b : RwlCacheInfo) : Prop :=
  a.poolName = b.poolName ∧ a.imageName = b.imageName ∧ a.cacheId = b.cacheId

/-- A piece of the name has moved across: the pool name of `b` is that of `a`, a dot and a
piece, and the image name of `a` is that piece, a dot and the image name of `b`. -/
def Shifted (a b : RwlCacheInfo) : Prop :=
  ∃ mid, b.poolName = a.poolName ++ dot :: mid ∧ a.imageName = mid ++ dot :: b.imageName

/-- A name is not moved onto itself. -/
lemma Shifted.poolName_ne {a b : RwlCacheInfo} (h : Shifted a b) : a.poolName ≠ b.poolName := by
  obtain ⟨mid, hpool, -⟩ := h
  intro heq
  have hlen := congrArg List.length (heq.trans hpool)
  simp at hlen

lemma sameReplica_of_mountPath {a b : RwlCacheInfo}
    (hnot : ¬(a.cacheId = b.cacheId ∧ (Shifted a b ∨ Shifted b a)))
    (hpath : mountPath (poolPath a) = mountPath (poolPath b)) : SameReplica a b := by
  rw [mountPath_poolPath_eq_iff, Names.append_sep_eq_iff] at hpath
  obtain ⟨hid, ⟨hpool, himage⟩ | hshift⟩ := hpath
  · exact ⟨hpool, himage, hid⟩
  · exact absurd ⟨hid, hshift⟩ hnot

/-- **Which replicas have a file of their own.**  For any two pool names, image names and cache
ids: that equal paths belong to equal replicas is true of them if and only if their ids differ or
neither is the other with a piece of the name moved across the dot. -/
theorem paths_distinct_iff (a b : RwlCacheInfo) :
    (mountPath (poolPath a) = mountPath (poolPath b) → SameReplica a b) ↔
      ¬(a.cacheId = b.cacheId ∧ (Shifted a b ∨ Shifted b a)) := by
  constructor
  · rintro hsame ⟨hid, hshift⟩
    have hnames := Names.append_sep_eq_iff.2 (.inr hshift)
    have hpool : a.poolName = b.poolName :=
      (hsame ((mountPath_poolPath_eq_iff a b).2 ⟨hid, hnames⟩)).1
    rcases hshift with hshift | hshift
    · exact hshift.poolName_ne hpool
    · exact hshift.poolName_ne hpool.symm
  · exact sameReplica_of_mountPath

/-- **Which replicas are kept in one file.**  What the C functions get is cut at the first NUL, so
this is said by what they see of the names; where the names have no NUL, it is said by the paths. -/
theorem same_file_iff (a b : RwlCacheInfo) :
    cStr (mountPath (poolPath a)) = cStr (mountPath (poolPath b)) ↔
      seen a = seen b := by
  rw [cStr_mountPath_poolPath, cStr_mountPath_poolPath, List.append_cancel_left_eq]

lemma same_file_iff_of_notMem {a b : RwlCacheInfo} (ha : 0 ∉ a.poolName ∧ 0 ∉ a.imageName)
    (hb : 0 ∉ b.poolName ∧ 0 ∉ b.imageName) :
    cStr (mountPath (poolPath a)) = cStr (mountPath (poolPath b)) ↔
      mountPath (poolPath a) = mountPath (poolPath b) := by
  have hwhole : ∀ info : RwlCacheInfo, 0 ∉ info.poolName ∧ 0 ∉ info.imageName →
      cStr (mountPath (poolPath info)) = mountPath (poolPath info) := by
    intro info h
    rw [cStr_mountPath_poolPath, seen, if_neg h.1, if_neg h.2, mountPath_poolPath,
      List.append_assoc (ascii "/mnt/pmem/rbd-pwl.")]
  rw [hwhole a ha, hwhole b hb]

/-- **Two images, one file.**  The image `c` of the pool `a.b` and the image `b.c` of the pool
`a` have the same path. -/
theorem images_share_file :
    let a : RwlCacheInfo := ⟨1, 64, ascii "a.b", ascii "c"⟩
    let b : RwlCacheInfo := ⟨1, 64, ascii "a", ascii "b.c"⟩
    mountPath (poolPath a) = mountPath (poolPath b) ∧ ¬SameReplica a b := by
  refine ⟨(mountPath_poolPath_eq_iff _ _).2 ⟨rfl, by decide⟩, fun hsame => ?_⟩
  exact absurd hsame.1 (by decide)

end RPMAHandler

end RpmaReplica
