import Minirel.Buffer.Pins

/-!
# Page contents (spec P3)

The bytes a client sees for page `k` (`logical`) are its frame's while it is
resident and its disk page's otherwise. Clients write into a frame only while
they hold a pin on its page, and then unpin it dirty. `Ghost` records what the
pool cannot see: pages written since their last dirty unpin (`owed`), and pages
created by `allocPage` and not yet unpinned dirty (`fresh`: their bytes are
unspecified).

`contentLts` runs the pool, with every file read and write succeeding, and the
clients' writes. It has no `disposePage`, and no clean unpin that releases the
last pin of an owed page.

* `Clean`: a clean frame holds its disk page, unless its page is owed or fresh.
  `OwedPinned`: an owed page is pinned.
* `Clean.flushOut`: writing back an unpinned frame when it is dirty and then
  dropping its page (an eviction, one step of `flushFile`) keeps `Clean` and every
  settled page's bytes. `allocBuf_content`, `flushFrames_content` and
  `run_content` build on it, one operation at a time.

**Results.**
* `contentInv_inductive`: `Inv`, `Clean` and `OwedPinned` hold in every
  reachable state.
* `readPage_logical`: `readPage` returns a frame that holds the page's logical
  bytes.
* `flushFile_disk`, `destructor_disk`: after a successful `flushFile`, and after
  `~BufMgr`, the disk holds the logical bytes of every settled page.
* `logical_content`: these, over every reachable state.
-/
namespace Minirel.BufMgr

variable {P : Type} {s t : BufMgr P} {io : FileAnswers}

/-! ## Logical contents and the clients' ghost state -/

/-- The bytes of page `k` a client sees. -/
def logical (s : BufMgr P) (k : Key) : P :=
  match s.hashTable.find k with
  | some i => s.bufPool i.toNat
  | none => s.disk k

theorem logical_of_find {k : Key} {j : Nat} (h : s.hashTable.find k = some (j : Int)) :
    logical s k = s.bufPool j := by
  simp [logical, h]

theorem logical_of_find_none {k : Key} (h : s.hashTable.find k = none) : logical s k = s.disk k := by
  simp [logical, h]

theorem logical_congr (hi : Inv s) {k : Key} (hf : t.hashTable.find k = s.hashTable.find k)
    (hp : ∀ j : Nat, s.hashTable.find k = some (j : Int) → t.bufPool j = s.bufPool j)
    (hd : s.hashTable.find k = none → t.disk k = s.disk k) : logical t k = logical s k := by
  unfold logical; rw [hf]
  cases h : s.hashTable.find k with
  | none => exact hd h
  | some i => obtain ⟨j, rfl, -⟩ := hi.find_frame h; exact hp j h

/-- What the clients have done that the pool cannot see. -/
structure Ghost where
  /-- written since the page's last dirty unpin -/
  owed : Key → Bool
  /-- created by `allocPage` and not unpinned dirty since -/
  fresh : Key → Bool

/-- The ghost after a call with status `st`: a successful dirty unpin settles its
page, a successful `allocPage` makes its page fresh. -/
def Ghost.after (g : Ghost) (io : FileAnswers) (c : Call) (st : Status) : Ghost :=
  if st = .OK then
    match c with
    | .unPinPage f p true =>
      ⟨Function.update g.owed (some f, p) false, Function.update g.fresh (some f, p) false⟩
    | .allocPage f => ⟨g.owed, Function.update g.fresh (some f, (io.allocatePage f).2) true⟩
    | _ => g
  else g

section After

variable (g : Ghost) (f : FileId) (p : Int) (st : Status)

@[simp] theorem Ghost.after_of_ne {c : Call} {st : Status} (h : st ≠ .OK) : g.after io c st = g := by
  simp [Ghost.after, h]
@[simp] theorem Ghost.after_readPage : g.after io (.readPage f p) st = g := by
  unfold Ghost.after; split <;> rfl
@[simp] theorem Ghost.after_flushFile : g.after io (.flushFile f) st = g := by
  unfold Ghost.after; split <;> rfl
@[simp] theorem Ghost.after_unPinPage_false : g.after io (.unPinPage f p false) st = g := by
  unfold Ghost.after; split <;> rfl
@[simp] theorem Ghost.after_unPinPage_true : g.after io (.unPinPage f p true) .OK =
    ⟨Function.update g.owed (some f, p) false, Function.update g.fresh (some f, p) false⟩ := rfl
@[simp] theorem Ghost.after_allocPage : g.after io (.allocPage f) .OK =
    ⟨g.owed, Function.update g.fresh (some f, (io.allocatePage f).2) true⟩ := rfl

end After

variable {g : Ghost}

/-- A clean frame holds its disk page, unless its page is owed or fresh. -/
def Clean (g : Ghost) (s : BufMgr P) : Prop :=
  ∀ k (j : Nat), s.hashTable.find k = some (j : Int) → (s.bufTable j).dirty = false → g.owed k = false →
    g.fresh k = false → s.bufPool j = s.disk k

/-- A page with unreported writes is pinned. -/
def OwedPinned (g : Ghost) (s : BufMgr P) : Prop := ∀ k, g.owed k = true → 0 < pinOf s k

theorem OwedPinned.not_owed (ho : OwedPinned g s) {k : Key} (hp : pinOf s k = 0) :
    g.owed k = false := by
  cases h : g.owed k
  · rfl
  · have := ho k h; omega

theorem OwedPinned.of_pinOf (ho : OwedPinned g s) (h : pinOf t = pinOf s) : OwedPinned g t :=
  fun k hk => h ▸ ho k hk

theorem Clean.freshen (hc : Clean g s) (k0 : Key) :
    Clean ⟨g.owed, Function.update g.fresh k0 true⟩ s := by
  intro k j hf hd ho hn
  have hk : k ≠ k0 := by rintro rfl; simp at hn
  exact hc k j hf hd ho (by simpa [Function.update_noteq hk] using hn)

/-! ## One lemma per kind of state change -/

theorem Sweep.logical_eq (h : Sweep s t) : logical t = logical s := by
  funext k; simp only [logical, h.hashTable, h.bufPool, h.disk]

theorem Sweep.clean (h : Sweep s t) (hc : Clean g s) : Clean g t := fun k j hf hd => by
  rw [h.bufPool, h.disk]; exact hc k j (h.hashTable ▸ hf) (h.dirty j ▸ hd)

/-- Writing back an unpinned valid frame `i` when it is dirty, then dropping its
page, keeps `Clean` and the logical bytes of every page that is not fresh. -/
theorem Clean.flushOut (hi : Inv s) (hc : Clean g s) (ho : OwedPinned g s) {i : Nat}
    (hin : i < s.numBufs) (hv : (s.bufTable i).valid = true) (hp : (s.bufTable i).pinCnt = 0)
    (d : BufDesc) :
    Clean g ((s.written i).discard i d) ∧
      ∀ k, g.fresh k = false → logical ((s.written i).discard i d) k = logical s k := by
  have hfi := hi.find_self hin hv
  constructor
  · intro k j hf hd hok hn
    simp only [discard_find, written_hashTable, written_bufTable] at hf
    have hk : k ≠ (s.bufTable i).key := by rintro rfl; simp at hf
    rw [Function.update_noteq hk] at hf
    have hji : j ≠ i := by rintro rfl; exact hk (hi.find_nat hf).2.2.symm
    simp only [discard_bufTable, written_bufTable, Function.update_noteq hji] at hd
    simp only [discard_bufPool, written_bufPool, discard_disk, written_disk_of_ne hk]
    exact hc k j hf hd hok hn
  · intro k hn
    by_cases hk : k = (s.bufTable i).key
    · subst hk
      rw [logical_of_find_none (by simp), logical_of_find hfi]
      simp only [discard_disk, written]
      split
      · simp
      next hd =>
        exact (hc _ i hfi (by simpa using hd) (ho.not_owed (by rw [pinOf_of_find hfi, hp])) hn).symm
    · exact logical_congr hi (by simp [Function.update_noteq hk]) (fun _ _ => rfl)
        (fun _ => written_disk_of_ne hk)

theorem logical_install (hi : Inv s) {v : Nat} (hinv : (s.bufTable v).valid = false) (f : FileId)
    (p : Int) (pg : P) (k : Key) :
    logical (s.install v f p pg) k = if k = (some f, p) then pg else logical s k := by
  split
  next hk => subst hk; simp [logical]
  next hk =>
    refine logical_congr hi (by simp [Function.update_noteq hk]) (fun j hf => ?_) fun _ => rfl
    have : j ≠ v := by rintro rfl; rw [(hi.find_nat hf).2.1] at hinv; cases hinv
    simp [Function.update_noteq this]

/-- Installing a page in an invalid frame keeps `Clean` when the frame gets the
page's disk bytes, or the page is owed or fresh. -/
theorem Clean.install (hi : Inv s) (hc : Clean g s) {v : Nat} (hinv : (s.bufTable v).valid = false)
    {f : FileId} {p : Int} {pg : P}
    (hpg : g.owed (some f, p) = false → g.fresh (some f, p) = false → pg = s.disk (some f, p)) :
    Clean g (s.install v f p pg) := by
  intro k j hf hd ho hn
  by_cases hk : k = (some f, p)
  · subst hk
    simp only [install_find, Function.update_same, Option.some.injEq, Int.ofNat_inj] at hf
    subst hf
    simpa using hpg ho hn
  · simp only [install_find, Function.update_noteq hk] at hf
    have hjv : j ≠ v := by rintro rfl; rw [(hi.find_nat hf).2.1] at hinv; cases hinv
    simp only [install_bufTable, Function.update_noteq hjv] at hd
    simpa [Function.update_noteq hjv] using hc k j hf hd ho hn

theorem Clean.pinned (hc : Clean g s) (j : Nat) : Clean g (s.pinned j) := fun k j' hf hd =>
  hc k j' hf (by rcases eq_or_ne j' j with rfl | h <;> simpa [Function.update_noteq, *] using hd)

theorem Clean.unpinned (hi : Inv s) (hc : Clean g s) {f : FileId} {p : Int} {j : Nat}
    (hf : s.hashTable.find (some f, p) = some (j : Int)) (d : Bool) :
    Clean (g.after io (.unPinPage f p d) .OK) (s.unpinned j d) := by
  intro k j' hk hd ho hn
  rw [unpinned_hashTable] at hk
  have hkj := (hi.find_nat hk).2.2
  by_cases hjj : j' = j
  · subst hjj
    rw [(hi.find_nat hf).2.2] at hkj; subst hkj
    cases d
    · exact hc _ _ hk (by simpa using hd) (by simpa using ho) (by simpa using hn)
    · simp at hd
  · have hd' : (s.bufTable j').dirty = false := by simpa [Function.update_noteq hjj] using hd
    have hkne : k ≠ (some f, p) := by
      rintro rfl; rw [hf] at hk; exact hjj (Int.ofNat_inj.1 (Option.some.inj hk)).symm
    cases d
    · exact hc k j' hk hd' (by simpa using ho) (by simpa using hn)
    · exact hc k j' hk hd' (by simpa [Function.update_noteq hkne] using ho)
        (by simpa [Function.update_noteq hkne] using hn)

/-- A clean unpin never leaves an owed page unpinned: it is refused when it
would release the page's last pin. -/
theorem OwedPinned.unpinned (hi : Inv s) (ho : OwedPinned g s) {f : FileId} {p : Int} {j : Nat}
    (hf : s.hashTable.find (some f, p) = some (j : Int)) (d : Bool)
    (hg : d = false → ¬(g.owed (some f, p) = true ∧ pinOf s (some f, p) = 1)) :
    OwedPinned (g.after io (.unPinPage f p d) .OK) (s.unpinned j d) := by
  intro k hk
  obtain ⟨hj, hv, hkey⟩ := hi.find_nat hf
  simp only [BufMgr.unpinned, pinOf_update hi hj hv, hkey]
  split
  next hkk =>
    subst hkk
    cases d
    · simp only [Ghost.after_unPinPage_false] at hk
      have h1 := ho _ hk
      have h2 := hg rfl
      rw [pinOf_of_find hf] at h1 h2
      simp only [hk, true_and] at h2
      omega
    · simp at hk
  next hkk =>
    cases d
    · exact ho k (by simpa using hk)
    · exact ho k (by simpa [Function.update_noteq hkk] using hk)

/-! ## `allocBuf`, `flushFile` and `~BufMgr` -/

theorem allocBuf_content (io : FileAnswers) (hi : Inv s) (hc : Clean g s) (ho : OwedPinned g s) :
    Clean g (allocBuf io s).2 ∧ ∀ k, g.fresh k = false → logical (allocBuf io s).2 k = logical s k := by
  obtain ⟨t, hst, hit, ⟨-, h⟩ | ⟨hv, hp, ⟨-, h⟩ | ⟨s1, hw, h⟩⟩ | h⟩ := allocBuf_cases io hi <;>
    rw [h] <;> have hct := hst.clean hc <;> have hlt := hst.logical_eq
  · exact ⟨hct, fun k _ => congrFun hlt k⟩
  · exact ⟨hct, fun k _ => congrFun hlt k⟩
  · rw [evicted_eq hw]
    obtain ⟨h1, h2⟩ := hct.flushOut hit (ho.of_pinOf hst.pinOf_eq) hit.hand_lt hv hp .clear
    exact ⟨h1, fun k hn => (h2 k hn).trans (congrFun hlt k)⟩
  · exact ⟨hct, fun k _ => congrFun hlt k⟩

/-- `allocBuf` writes back only resident pages. -/
theorem allocBuf_disk_of_none (io : FileAnswers) (hi : Inv s) {k : Key}
    (hf : s.hashTable.find k = none) : (allocBuf io s).2.disk k = s.disk k := by
  obtain ⟨t, hst, hit, ⟨-, h⟩ | ⟨hv, -, ⟨-, h⟩ | ⟨s1, hw, h⟩⟩ | h⟩ := allocBuf_cases io hi <;>
    rw [h] <;> rw [← hst.disk]
  · rfl
  · rw [evicted_eq hw, discard_disk]
    refine written_disk_of_ne fun hk => ?_
    rw [← hst.hashTable, hk, hit.find_self hit.hand_lt hv] at hf; cases hf

theorem flushFrames_content (hw : ∀ k, io.writePage k = .OK) (f : FileId) :
    ∀ (is : List Nat) (s : BufMgr P), (∀ i ∈ is, i < s.numBufs) → Inv s → Clean g s →
      OwedPinned g s → Clean g (flushFrames io f is s).2 ∧
        ∀ k, g.fresh k = false → logical (flushFrames io f is s).2 k = logical s k
  | [], _, _, _, hc, _ => ⟨hc, fun _ _ => rfl⟩
  | i :: is, s, hr, hi, hc, ho => by
    have hin := hr i (.head _)
    rw [flushFrames_cons hi hw f hin]
    split
    next hvf =>
      split
      · exact ⟨hc, fun _ _ => rfl⟩
      next hp =>
        have hp0 := Nat.eq_zero_of_not_pos hp
        obtain ⟨h1, h2⟩ := hc.flushOut hi ho hin hvf.1 hp0 (flushedDesc (s.bufTable i))
        obtain ⟨h3, h4⟩ := flushFrames_content hw f is
          ((s.written i).discard i (flushedDesc (s.bufTable i))) (fun j hj => hr j (.tail _ hj))
          (hi.flushStep hin hvf.1 hp0) h1
          (ho.of_pinOf (pinOf_discard_unpinned (hi.written i) hin hvf.1 hp0 _))
        exact ⟨h3, fun k hn => (h4 k hn).trans (h2 k hn)⟩
    · split
      · exact ⟨hc, fun _ _ => rfl⟩
      · exact flushFrames_content hw f is s (fun j hj => hr j (.tail _ hj)) hi hc ho

/-- When the loop returns OK, no frame it visited, and no frame whose file was
not `f`, belongs to `f`. -/
theorem flushFrames_ok (hw : ∀ k, io.writePage k = .OK) (f : FileId) :
    ∀ (is : List Nat) (s : BufMgr P), (∀ i ∈ is, i < s.numBufs) → Inv s →
      (flushFrames io f is s).1 = .OK → ∀ j, (j ∈ is ∨ (s.bufTable j).file ≠ some f) →
        ((flushFrames io f is s).2.bufTable j).file ≠ some f
  | [], _, _, _, _, _, hj => hj.resolve_left (List.not_mem_nil _)
  | i :: is, s, hr, hi, hok, j, hj => by
    have hin := hr i (.head _)
    have hr' : ∀ j ∈ is, j < s.numBufs := fun j hj => hr j (.tail _ hj)
    have hj' : j = i ∨ j ∈ is ∨ (s.bufTable j).file ≠ some f := by
      rcases hj with hj | hj
      · exact (List.mem_cons.1 hj).imp_right .inl
      · exact .inr (.inr hj)
    rw [flushFrames_cons hi hw f hin] at hok ⊢
    by_cases hvf : (s.bufTable i).valid = true ∧ (s.bufTable i).file = some f
    · rw [if_pos hvf] at hok ⊢
      by_cases hp : 0 < (s.bufTable i).pinCnt
      · rw [if_pos hp] at hok; cases hok
      rw [if_neg hp] at hok ⊢
      refine flushFrames_ok hw f is ((s.written i).discard i (flushedDesc (s.bufTable i))) hr'
        (hi.flushStep hin hvf.1 (Nat.eq_zero_of_not_pos hp)) hok j ?_
      rcases hj' with rfl | hj | hj
      · exact .inr (by simp [flushedDesc])
      · exact .inl hj
      · by_cases hji : j = i
        · exact .inr (by simp [hji, flushedDesc])
        · exact .inr (by simpa [Function.update_noteq hji] using hj)
    · rw [if_neg hvf] at hok ⊢
      by_cases hbad : (s.bufTable i).valid = false ∧ (s.bufTable i).file = some f
      · rw [if_pos hbad] at hok; cases hok
      rw [if_neg hbad] at hok ⊢
      refine flushFrames_ok hw f is s hr' hi hok j ?_
      rcases hj' with rfl | hj | hj
      · refine .inr fun hfile => ?_
        cases hv : (s.bufTable j).valid
        · exact hbad ⟨hv, hfile⟩
        · exact hvf ⟨hv, hfile⟩
      · exact .inl hj
      · exact .inr hj

theorem flushFrames_numBufs (io : FileAnswers) (f : FileId) :
    ∀ (is : List Nat) (s : BufMgr P), (flushFrames io f is s).2.numBufs = s.numBufs
  | [], _ => rfl
  | i :: is, s => by
    simp only [flushFrames]
    split
    · split
      · rfl
      · split
        · rfl
        next s1 h =>
          rw [flushFrames_numBufs io f is]
          show s1.numBufs = s.numBufs
          split at h
          · rw [(writeBack_eq_ok.1 h).2]
          · cases h; rfl
    · split
      · rfl
      · exact flushFrames_numBufs io f is s

/-- After a successful `flushFile` no page of the file is resident. -/
theorem flushFile_ok_find (hw : ∀ k, io.writePage k = .OK) (hi : Inv s) (f : FileId)
    (hok : (flushFile io s f).1 = .OK) (p : Int) :
    (flushFile io s f).2.hashTable.find (some f, p) = none := by
  cases h : (flushFile io s f).2.hashTable.find (some f, p) with
  | none => rfl
  | some i =>
    obtain ⟨j, rfl, hj, -, hk⟩ := (flushFile_inv io hi f).find_frame h
    rw [flushFile, flushFrames_numBufs] at hj
    exact (flushFrames_ok hw f _ s (fun _ h => List.mem_range.1 h) hi hok j
      (.inl (List.mem_range.2 hj)) (congrArg Prod.fst hk)).elim

/-- After a successful `flushFile`, every page of the file that is not fresh has
its logical bytes on disk. -/
theorem flushFile_disk (hw : ∀ k, io.writePage k = .OK) (hi : Inv s) (hc : Clean g s)
    (ho : OwedPinned g s) (f : FileId) (hok : (flushFile io s f).1 = .OK) {p : Int}
    (hn : g.fresh (some f, p) = false) :
    (flushFile io s f).2.disk (some f, p) = logical s (some f, p) := by
  rw [← logical_of_find_none (flushFile_ok_find hw hi f hok p)]
  exact (flushFrames_content hw f _ s (fun _ h => List.mem_range.1 h) hi hc ho).2 _ hn

/-- One frame of `~BufMgr`'s loop when every write succeeds. -/
theorem destructorFrames_cons (hw : ∀ k, io.writePage k = .OK) (i : Nat) (is : List Nat)
    (s : BufMgr P) : destructorFrames io (i :: is) s = destructorFrames io is
      (if (s.bufTable i).valid = true ∧ (s.bufTable i).dirty = true then s.written i else s) := by
  by_cases h : (s.bufTable i).valid = true ∧ (s.bufTable i).dirty = true
  · simp [destructorFrames, h, writeBack, hw, written]
  · simp only [destructorFrames, if_neg h]

theorem destructorFrames_disk_same (hw : ∀ k, io.writePage k = .OK) (k : Key) :
    ∀ (is : List Nat) (s : BufMgr P), (∀ i ∈ is, (s.bufTable i).valid = true →
      (s.bufTable i).dirty = true → (s.bufTable i).key ≠ k) →
        (destructorFrames io is s).disk k = s.disk k
  | [], _, _ => rfl
  | i :: is, s, h => by
    rw [destructorFrames_cons hw]
    split
    next hvd =>
      rw [destructorFrames_disk_same hw k is (s.written i) fun j hj => h j (.tail _ hj)]
      exact written_disk_of_ne (h i (.head _) hvd.1 hvd.2).symm
    next => exact destructorFrames_disk_same hw k is s fun j hj => h j (.tail _ hj)

theorem destructorFrames_disk_written (hw : ∀ k, io.writePage k = .OK) (k : Key) (v : P) :
    ∀ (is : List Nat) (s : BufMgr P), (∀ i ∈ is, (s.bufTable i).valid = true →
      (s.bufTable i).dirty = true → (s.bufTable i).key = k → s.bufPool i = v) →
      (∃ i ∈ is, (s.bufTable i).valid = true ∧ (s.bufTable i).dirty = true ∧ (s.bufTable i).key = k) →
        (destructorFrames io is s).disk k = v
  | [], _, _, ⟨_, h, _⟩ => absurd h (List.not_mem_nil _)
  | i :: is, s, hv, ⟨j, hj, hj'⟩ => by
    rw [destructorFrames_cons hw]
    have hv' : ∀ i ∈ is, _ := fun i hi => hv i (.tail _ hi)
    by_cases hrest : ∃ i ∈ is, (s.bufTable i).valid = true ∧ (s.bufTable i).dirty = true ∧
        (s.bufTable i).key = k
    · split
      · exact destructorFrames_disk_written hw k v is (s.written i) hv' hrest
      · exact destructorFrames_disk_written hw k v is s hv' hrest
    · have hji : j = i := by
        rcases List.mem_cons.1 hj with rfl | hj
        · rfl
        · exact absurd ⟨j, hj, hj'⟩ hrest
      subst hji
      rw [if_pos ⟨hj'.1, hj'.2.1⟩, destructorFrames_disk_same hw k is (s.written j)
        fun i hi h1 h2 hk => hrest ⟨i, hi, h1, h2, hk⟩, ← hj'.2.2]
      simp [written, hj'.2.1, hv j hj hj'.1 hj'.2.1 hj'.2.2]

/-- `~BufMgr` leaves every page that is neither owed nor fresh with its logical
bytes on disk. -/
theorem destructor_disk (hw : ∀ k, io.writePage k = .OK) (hi : Inv s) (hc : Clean g s) {k : Key}
    (hn : g.fresh k = false) (ho : g.owed k = false) : (destructor io s).disk k = logical s k := by
  have hr : ∀ i ∈ List.range s.numBufs, i < s.numBufs := fun _ h => List.mem_range.1 h
  unfold destructor
  cases hf : s.hashTable.find k with
  | none =>
    rw [logical_of_find_none hf]
    refine destructorFrames_disk_same hw k _ s fun i hi' hv _ hk => ?_
    rw [← hk, hi.find_self (hr i hi') hv] at hf; cases hf
  | some i =>
    obtain ⟨j, rfl, hj, hv, hk⟩ := hi.find_frame hf
    rw [logical_of_find hf]
    have hsame : ∀ i ∈ List.range s.numBufs, (s.bufTable i).valid = true → (s.bufTable i).key = k →
        i = j := fun i hi' hvi hki => hi.frame_unique (hr i hi') hj hvi hv (hki.trans hk.symm)
    cases hd : (s.bufTable j).dirty
    · rw [destructorFrames_disk_same hw k _ s fun i hi' hvi hdi hki => ?_]
      · exact (hc k j hf hd ho hn).symm
      · rw [hsame i hi' hvi hki, hd] at hdi; cases hdi
    · exact destructorFrames_disk_written hw k _ _ s
        (fun i hi' hvi _ hki => by rw [hsame i hi' hvi hki]) ⟨j, List.mem_range.2 hj, hv, hd, hk⟩

/-! ## Reads, unpins and client writes -/

/-- `readPage` returns a frame holding the page's logical bytes. -/
theorem readPage_logical (hi : Inv s) (hrw : io.ReadWriteOk) (f : FileId) (p : Int) {i : Int}
    (h : (readPage io s f p).1 = .ok i) :
    (readPage io s f p).2.bufPool i.toNat = logical s (some f, p) := by
  rcases readPage_cases hi hrw f p with ⟨j, hf, hr⟩ | ⟨hf, ⟨-, hr⟩ | ⟨v, -, hr⟩⟩ <;>
    rw [hr] at h ⊢ <;> cases h
  · exact (logical_of_find hf).symm
  · simp [logical_of_find_none hf, allocBuf_disk_of_none io hi hf]

/-- `unPinPage` never clears a dirty bit. -/
theorem unPinPage_dirty (hi : Inv s) (f : FileId) (p : Int) (d : Bool) {j : Nat}
    (hd : (s.bufTable j).dirty = true) : ((unPinPage s f p d).2.bufTable j).dirty = true := by
  rcases unPinPage_cases hi f p d with ⟨-, h⟩ | ⟨j', -, ⟨-, h⟩ | ⟨-, h⟩⟩ <;> rw [h]
  · exact hd
  · exact hd
  · rcases eq_or_ne j j' with rfl | hne <;> simp [Function.update_noteq, *]

section Write

variable {k0 : Key} {j : Nat} (hf : s.hashTable.find k0 = some (j : Int)) (b : P)
include hf

theorem logical_write (hi : Inv s) (k : Key) :
    logical { s with bufPool := Function.update s.bufPool j b } k =
      if k = k0 then b else logical s k := by
  split
  next hk => subst hk; rw [logical_of_find (s := { s with bufPool := Function.update s.bufPool j b }) hf]; simp
  next hk =>
    refine logical_congr hi rfl (fun j' hj' => ?_) fun _ => rfl
    have : j' ≠ j := by rintro rfl; exact hk ((hi.find_nat hj').2.2.symm.trans (hi.find_nat hf).2.2)
    simp [Function.update_noteq this]

theorem Clean.write (hi : Inv s) (hc : Clean g s) :
    Clean ⟨Function.update g.owed k0 true, g.fresh⟩ { s with bufPool := Function.update s.bufPool j b } := by
  intro k j' hk hd ho hn
  have hkk : k ≠ k0 := by rintro rfl; simp at ho
  have hjj : j' ≠ j := by
    rintro rfl; exact hkk ((hi.find_nat hk).2.2.symm.trans (hi.find_nat hf).2.2)
  simp only [Function.update_noteq hjj]
  exact hc k j' hk hd (by simpa [Function.update_noteq hkk] using ho) hn

theorem OwedPinned.write (ho : OwedPinned g s) (hp : 0 < (s.bufTable j).pinCnt) :
    OwedPinned ⟨Function.update g.owed k0 true, g.fresh⟩
      { s with bufPool := Function.update s.bufPool j b } := by
  intro k hk
  show 0 < pinOf s k
  by_cases hkk : k = k0
  · subst hkk; rw [pinOf_of_find hf]; exact hp
  · exact ho k (by simpa [Function.update_noteq hkk] using hk)

end Write

/-! ## The clients' runs -/

/-- The calls the clients may make: no `disposePage`, and no clean unpin that
releases the last pin of an owed page. -/
def Allowed (x : BufMgr P × Ghost) : Call → Prop
  | .disposePage .. => False
  | .unPinPage f p false => ¬(x.2.owed (some f, p) = true ∧ pinOf x.1 (some f, p) = 1)
  | _ => True

theorem run_content (hi : Inv s) (hc : Clean g s) (ho : OwedPinned g s) (hrw : io.ReadWriteOk)
    (c : Call) (ha : Allowed (s, g) c) :
    Clean (g.after io c (c.run io s).1) (c.run io s).2 ∧
      OwedPinned (g.after io c (c.run io s).1) (c.run io s).2 ∧
      ∀ k, (g.after io c (c.run io s).1).fresh k = false → logical (c.run io s).2 k = logical s k := by
  obtain ⟨hca, hla⟩ := allocBuf_content io hi hc ho
  have hoa : OwedPinned g (allocBuf io s).2 := ho.of_pinOf (allocBuf_pinOf io hi)
  cases c with
  | readPage f p =>
    simp only [run_readPage, Ghost.after_readPage]
    rcases readPage_cases hi hrw f p with ⟨j, hf, h⟩ | ⟨hf, ⟨-, h⟩ | ⟨v, hv, h⟩⟩ <;> rw [h]
    · obtain ⟨hj, hval, -⟩ := hi.find_nat hf
      refine ⟨hc.pinned j, fun k hk => ?_, fun _ _ => rfl⟩
      have := ho k hk
      simp only [BufMgr.pinned, pinOf_update hi hj hval]
      split <;> omega
    · exact ⟨hca, hoa, hla⟩
    · have hia := allocBuf_inv io hi
      have hinv := (allocBuf_ok io hi hv).2
      refine ⟨hca.install hia hinv fun _ _ => rfl, fun k hk => ?_, fun k hn => ?_⟩
      · rw [pinOf_install hia hinv]; split
        · exact Nat.one_pos
        · exact hoa k hk
      · rw [logical_install hia hinv]; split
        next hk => subst hk; rw [← hla _ hn, logical_of_find_none (allocBuf_find_none io hi hf)]
        next => exact hla k hn
  | unPinPage f p d =>
    simp only [run_unPinPage]
    rcases unPinPage_cases hi f p d with ⟨-, h⟩ | ⟨j, hf, ⟨-, h⟩ | ⟨hp, h⟩⟩ <;> rw [h]
    · simp only [Ghost.after_of_ne, ne_eq, reduceCtorEq, not_false_eq_true]
      exact ⟨hc, ho, fun _ _ => trivial⟩
    · simp only [Ghost.after_of_ne, ne_eq, reduceCtorEq, not_false_eq_true]
      exact ⟨hc, ho, fun _ _ => trivial⟩
    · refine ⟨hc.unpinned hi hf d, ho.unpinned hi hf d fun hd => ?_, fun _ _ => rfl⟩
      subst hd; exact ha
  | allocPage f =>
    simp only [run_allocPage]
    rcases allocPage_cases hi hrw.write f with
      ⟨hne, h⟩ | ⟨-, ⟨-, h⟩ | ⟨v, hv, ⟨-, h⟩ | ⟨-, h⟩⟩⟩ <;> rw [h] <;> simp only [statusOf]
    · rw [Ghost.after_of_ne g hne]; exact ⟨hc, ho, fun _ _ => trivial⟩
    · simp only [Ghost.after_of_ne, ne_eq, reduceCtorEq, not_false_eq_true]
      exact ⟨hca, hoa, hla⟩
    · simp only [Ghost.after_of_ne, ne_eq, reduceCtorEq, not_false_eq_true]
      exact ⟨hca, hoa, hla⟩
    · rw [Ghost.after_allocPage]
      have hia := allocBuf_inv io hi
      have hinv := (allocBuf_ok io hi hv).2
      refine ⟨(hca.freshen _).install hia hinv fun _ h => by simp at h, fun k hk => ?_, fun k hn => ?_⟩
      · rw [pinOf_install hia hinv]; split
        · exact Nat.one_pos
        · exact hoa k hk
      · have hk : k ≠ (some f, (io.allocatePage f).2) := by rintro rfl; simp at hn
        rw [logical_install hia hinv, if_neg hk]
        exact hla k (by simpa [Function.update_noteq hk] using hn)
  | disposePage f p => exact ha.elim
  | flushFile f =>
    simp only [run_flushFile, Ghost.after_flushFile]
    obtain ⟨h1, h2⟩ := flushFrames_content hrw.write f _ s (fun _ h => List.mem_range.1 h) hi hc ho
    exact ⟨h1, ho.of_pinOf (flushFile_pinOf hrw.write hi f), h2⟩

/-- A step of the clients: a call on the pool, or bytes written into a page's frame. -/
inductive Act (P : Type) where
  | call (io : FileAnswers) (c : Call)
  | write (f : FileId) (p : Int) (b : P)

/-- The pool and its clients, who write into a page's frame only while the page
is pinned, with the ghost that follows them. -/
def contentLts (P : Type) [Inhabited P] : LTS (BufMgr P × Ghost) (Act P) where
  init x := (lts P).init x.1 ∧ x.2 = ⟨fun _ => false, fun _ => false⟩
  step x a x' := match a with
    | .call io c => io.ReadWriteOk ∧ Allowed x c ∧ x'.1 = (c.run io x.1).2 ∧
        x'.2 = x.2.after io c (c.run io x.1).1
    | .write f p b => ∃ j : Nat, x.1.hashTable.find (some f, p) = some (j : Int) ∧
        0 < (x.1.bufTable j).pinCnt ∧ x'.1 = { x.1 with bufPool := Function.update x.1.bufPool j b } ∧
        x'.2 = ⟨Function.update x.2.owed (some f, p) true, x.2.fresh⟩

structure ContentInv (x : BufMgr P × Ghost) : Prop where
  inv : Inv x.1
  clean : Clean x.2 x.1
  owed : OwedPinned x.2 x.1

theorem contentInv_inductive [Inhabited P] : (contentLts P).Inductive ContentInv where
  init x := by
    obtain ⟨s, g⟩ := x
    rintro ⟨⟨n, disk, hn, hx⟩, hg⟩
    simp only at hx hg; subst hx hg
    exact ⟨init_inv hn disk, fun k j hf => by simp [init, BufHashTbl.empty] at hf,
      fun k h => by simp at h⟩
  step x a x' hx := by
    obtain ⟨s', g'⟩ := x'
    cases a with
    | call io c =>
      rintro ⟨hrw, ha, hs, hg⟩
      simp only at hs hg; subst hs hg
      obtain ⟨h1, h2, -⟩ := run_content hx.inv hx.clean hx.owed hrw c ha
      exact ⟨run_inv hx.inv hrw.write c, h1, h2⟩
    | write f p b =>
      rintro ⟨j, hf, hp, hs, hg⟩
      simp only at hs hg; subst hs hg
      exact ⟨hx.inv.pages _ _, hx.clean.write hf b hx.inv, hx.owed.write hf b hp⟩

/-- What a client can rely on about page contents from state `x`. -/
structure ContentLaws [Inhabited P] (x : BufMgr P × Ghost) : Prop where
  /-- a call keeps the logical bytes of every page that is not fresh after it -/
  call : ∀ io c x', (contentLts P).step x (.call io c) x' →
    ∀ k, x'.2.fresh k = false → logical x'.1 k = logical x.1 k
  /-- a client's write sets its page's logical bytes and no other page's -/
  write : ∀ f p b x', (contentLts P).step x (.write f p b) x' →
    logical x'.1 (some f, p) = b ∧ ∀ k, k ≠ (some f, p) → logical x'.1 k = logical x.1 k
  /-- `unPinPage` never clears a dirty bit -/
  unpin_dirty : ∀ f p d (j : Nat), (x.1.bufTable j).dirty = true →
    ((unPinPage x.1 f p d).2.bufTable j).dirty = true
  /-- `readPage` returns a frame holding the page's logical bytes -/
  readPage : ∀ io f p (i : Int), io.ReadWriteOk → (readPage io x.1 f p).1 = .ok i →
    (readPage io x.1 f p).2.bufPool i.toNat = logical x.1 (some f, p)
  /-- after a successful `flushFile` the disk holds the file's settled pages -/
  flushFile : ∀ io f, io.ReadWriteOk → (flushFile io x.1 f).1 = .OK →
    ∀ p, x.2.fresh (some f, p) = false →
      (flushFile io x.1 f).2.disk (some f, p) = logical x.1 (some f, p)
  /-- after `~BufMgr` the disk holds every page that is neither fresh nor owed -/
  destructor : ∀ io, io.ReadWriteOk → ∀ k, x.2.fresh k = false → x.2.owed k = false →
    (destructor io x.1).disk k = logical x.1 k

theorem logical_content [Inhabited P] {x : BufMgr P × Ghost} (hx : (contentLts P).Reachable x) :
    ContentLaws x := by
  have h := contentInv_inductive.reachable hx
  refine ⟨?_, ?_, fun f p d j hd => unPinPage_dirty h.inv f p d hd,
    fun io f p i hrw hr => readPage_logical h.inv hrw f p hr,
    fun io f hrw hok p hn => flushFile_disk hrw.write h.inv h.clean h.owed f hok hn,
    fun io hrw k hn ho => destructor_disk hrw.write h.inv h.clean hn ho⟩
  · rintro io c ⟨s', g'⟩ ⟨hrw, ha, hs, hg⟩ k hn
    simp only at hs hg hn ⊢; subst hs hg
    exact (run_content h.inv h.clean h.owed hrw c ha).2.2 k hn
  · rintro f p b ⟨s', g'⟩ ⟨j, hf, -, hs, -⟩
    simp only at hs ⊢; subst hs
    exact ⟨by rw [logical_write hf b h.inv, if_pos rfl],
      fun k hk => by rw [logical_write hf b h.inv, if_neg hk]⟩

/-- A one-frame pool in which page 1 is read and then written by its client. -/
theorem logical_content_after_write :
    let x0 : BufMgr Nat × Ghost := (init 1 fun _ => 0, ⟨fun _ => false, fun _ => false⟩)
    let x1 : BufMgr Nat × Ghost := (((Call.readPage 0 1).run ioOk x0.1).2, x0.2)
    let x2 : BufMgr Nat × Ghost := ({ x1.1 with bufPool := Function.update x1.1.bufPool 0 7 },
      ⟨Function.update x1.2.owed (some 0, 1) true, x1.2.fresh⟩)
    (contentLts Nat).Reachable x2 ∧ ContentLaws x2 := by
  intro x0 x1 x2
  have hr : (contentLts Nat).Reachable x2 :=
    ⟨x0, [.call ioOk (.readPage 0 1), .write 0 1 7], ⟨⟨1, _, Nat.one_pos, rfl⟩, rfl⟩,
      .cons (t := x1) ⟨⟨fun _ => rfl, fun _ => rfl⟩, trivial, rfl, rfl⟩
        (.cons (t := x2) ⟨0, by decide, by decide, rfl, rfl⟩ (.nil _))⟩
  exact ⟨hr, logical_content hr⟩

end Minirel.BufMgr
