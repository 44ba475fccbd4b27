import Minirel.Buffer.Ops

/-!
# The pin ledger (spec P4)

A client counts, per page, its successful `readPage` and `allocPage` calls
minus its successful `unPinPage` calls. `pinLts` runs the pool with that ledger
beside it, over runs in which every file read and write succeeds and no page
with outstanding pins is disposed.

* `pinOf s k`: the pins the pool records for page `k`, the `pinCnt` of its
  frame, 0 when the page is not resident. `allocBuf_pinOf`, `flushFile_pinOf`:
  allocation and flushing never change it; `run_pinOf`: what each call does.
* `Stays s t k j`: page `k` is in frame `j` of `t`, with the bytes the frame had
  in `s` and its disk page unchanged. `allocBuf_stays`, `flushFrames_stays`: a
  pinned page is neither evicted nor written back and invalidated;
  `run_stays`: no call moves it.

**Results.**
* `pinInv_inductive`: in every reachable state of `pinLts` the ledger is
  `pinOf`.
* `pin_ledger`: so the ledger is never negative, is the frame's `pinCnt` while
  the page is resident and 0 while it is not, and a page with outstanding pins
  stays in its frame over every step.
-/
namespace Minirel.BufMgr

variable {P : Type} {s t u : BufMgr P} {io : FileAnswers}

/-! ## The pool's pin counts -/

/-- The pins the pool holds on page `k`: its frame's `pinCnt`, 0 when it is not resident. -/
def pinOf (s : BufMgr P) (k : Key) : Nat :=
  match s.hashTable.find k with
  | some i => (s.bufTable i.toNat).pinCnt
  | none => 0

theorem pinOf_of_find {k : Key} {j : Nat} (h : s.hashTable.find k = some (j : Int)) :
    pinOf s k = (s.bufTable j).pinCnt := by
  simp [pinOf, h]

theorem pinOf_of_find_none {k : Key} (h : s.hashTable.find k = none) : pinOf s k = 0 := by
  simp [pinOf, h]

/-- `pinOf t k = pinOf s k` when `k`'s mapping is kept and so is the pin count of
every valid frame holding `k`. -/
theorem pinOf_congr (hi : Inv s) {k : Key} (hf : t.hashTable.find k = s.hashTable.find k)
    (hp : ∀ j : Nat, (s.bufTable j).valid = true → (s.bufTable j).key = k →
      (t.bufTable j).pinCnt = (s.bufTable j).pinCnt) : pinOf t k = pinOf s k := by
  unfold pinOf; rw [hf]
  cases h : s.hashTable.find k with
  | none => rfl
  | some i => obtain ⟨j, rfl, -, hv, hk⟩ := hi.find_frame h; exact hp j hv hk

/-- A valid frame's descriptor replaced, its page kept (`pinned`, `unpinned`). -/
theorem pinOf_update (hi : Inv s) {j : Nat} (hj : j < s.numBufs) (hv : (s.bufTable j).valid = true)
    (d : BufDesc) (k : Key) :
    pinOf { s with bufTable := Function.update s.bufTable j d } k =
      if k = (s.bufTable j).key then d.pinCnt else pinOf s k := by
  split
  next hk => subst hk; simp [pinOf, hi.find_self hj hv]
  next hk =>
    refine pinOf_congr hi rfl fun j' _ hk' => ?_
    have : j' ≠ j := by rintro rfl; exact hk hk'.symm
    simp [Function.update_noteq this]

theorem pinOf_install (hi : Inv s) {v : Nat} (hinv : (s.bufTable v).valid = false) (f : FileId)
    (p : Int) (pg : P) (k : Key) :
    pinOf (s.install v f p pg) k = if k = (some f, p) then 1 else pinOf s k := by
  split
  next hk => subst hk; simp [pinOf, BufDesc.set]
  next hk =>
    refine pinOf_congr hi (by simp [Function.update_noteq hk]) fun j hv _ => ?_
    have : j ≠ v := by rintro rfl; rw [hinv] at hv; cases hv
    simp [Function.update_noteq this]

theorem pinOf_discard (hi : Inv s) (j : Nat) (d : BufDesc) (k : Key) :
    pinOf (s.discard j d) k = if k = (s.bufTable j).key then 0 else pinOf s k := by
  split
  next hk => subst hk; simp [pinOf]
  next hk =>
    refine pinOf_congr hi (by simp [Function.update_noteq hk]) fun j' _ hk' => ?_
    have : j' ≠ j := by rintro rfl; exact hk hk'.symm
    simp [Function.update_noteq this]

/-- Dropping an unpinned frame's page leaves every page's pins as they were. -/
theorem pinOf_discard_unpinned (hi : Inv s) {j : Nat} (hj : j < s.numBufs)
    (hv : (s.bufTable j).valid = true) (hp : (s.bufTable j).pinCnt = 0) (d : BufDesc) :
    pinOf (s.discard j d) = pinOf s := by
  funext k
  rw [pinOf_discard hi]
  split
  next hk => rw [hk, pinOf_of_find (hi.find_self hj hv), hp]
  next => rfl

theorem Sweep.pinOf_eq (h : Sweep s t) : pinOf t = pinOf s := by
  funext k; unfold pinOf; rw [h.hashTable]; split
  · exact h.pinCnt _
  · rfl

theorem allocBuf_pinOf (io : FileAnswers) (hi : Inv s) : pinOf (allocBuf io s).2 = pinOf s := by
  obtain ⟨t, hst, hit, ⟨-, h⟩ | ⟨hv, hp, ⟨-, h⟩ | ⟨s1, hw, h⟩⟩ | h⟩ := allocBuf_cases io hi <;>
    rw [h, ← hst.pinOf_eq]
  · rfl
  · rw [evicted_eq hw]
    exact pinOf_discard_unpinned (hit.written _) hit.hand_lt hv hp .clear

theorem flushFrames_pinOf (hw : ∀ k, io.writePage k = .OK) (f : FileId) :
    ∀ (is : List Nat) (s : BufMgr P), (∀ i ∈ is, i < s.numBufs) → Inv s →
      pinOf (flushFrames io f is s).2 = pinOf s
  | [], _, _, _ => rfl
  | i :: is, s, hr, hi => by
    have hin := hr i (.head _)
    rw [flushFrames_cons hi hw f hin]
    split
    next hvf =>
      split
      · rfl
      next hp =>
        have hp0 := Nat.eq_zero_of_not_pos hp
        rw [flushFrames_pinOf hw f is ((s.written i).discard i (flushedDesc (s.bufTable i)))
          (fun j hj => hr j (.tail _ hj)) (hi.flushStep hin hvf.1 hp0)]
        exact pinOf_discard_unpinned (hi.written i) hin hvf.1 hp0 _
    · split
      · rfl
      · exact flushFrames_pinOf hw f is s (fun j hj => hr j (.tail _ hj)) hi

theorem flushFile_pinOf (hw : ∀ k, io.writePage k = .OK) (hi : Inv s) (f : FileId) :
    pinOf (flushFile io s f).2 = pinOf s :=
  flushFrames_pinOf hw f _ s (fun _ h => List.mem_range.1 h) hi

/-! ## What a call does to the pins -/

/-- The change a call's outcome makes to a client's count of pins on page `k`:
one more for a successful `readPage` or `allocPage` of `k`, one fewer for a
successful `unPinPage` of `k`. -/
def pinDelta (io : FileAnswers) (c : Call) (st : Status) (k : Key) : Int :=
  if st = .OK then
    match c with
    | .readPage f p => if k = (some f, p) then 1 else 0
    | .allocPage f => if k = (some f, (io.allocatePage f).2) then 1 else 0
    | .unPinPage f p _ => if k = (some f, p) then -1 else 0
    | .disposePage .. | .flushFile _ => 0
  else 0

theorem run_pinOf (hi : Inv s) (hrw : io.ReadWriteOk) (c : Call)
    (hd : ∀ f p, c = .disposePage f p → pinOf s (some f, p) = 0) (k : Key) :
    (pinOf (c.run io s).2 k : Int) = pinOf s k + pinDelta io c (c.run io s).1 k := by
  cases c with
  | readPage f p =>
    rcases readPage_cases hi hrw f p with ⟨j, hf, h⟩ | ⟨hf, ⟨-, h⟩ | ⟨v, hv, h⟩⟩ <;>
      simp only [run_readPage, h, statusOf, pinDelta, if_true, reduceCtorEq, if_false]
    · obtain ⟨hj, hval, hk⟩ := hi.find_nat hf
      simp only [pinned, pinOf_update hi hj hval, hk]
      split <;> simp_all [pinOf_of_find hf]
    · simp [allocBuf_pinOf io hi]
    · rw [pinOf_install (allocBuf_inv io hi) (allocBuf_ok io hi hv).2, allocBuf_pinOf io hi]
      split <;> simp_all [pinOf_of_find_none hf]
  | unPinPage f p d =>
    rcases unPinPage_cases hi f p d with ⟨-, h⟩ | ⟨j, hf, ⟨-, h⟩ | ⟨hp, h⟩⟩ <;>
      simp only [run_unPinPage, h, pinDelta, if_true, reduceCtorEq, if_false, Int.add_zero]
    obtain ⟨hj, hval, hk⟩ := hi.find_nat hf
    simp only [unpinned, pinOf_update hi hj hval, hk]
    split <;> simp_all [pinOf_of_find hf]
    omega
  | allocPage f =>
    rcases allocPage_cases hi hrw.write f with ⟨ha, h⟩ | ⟨-, ⟨-, h⟩ | ⟨v, hv, ⟨-, h⟩ | ⟨hfn, h⟩⟩⟩
    all_goals simp only [run_allocPage, h, statusOf, pinDelta]
    · simp [ha]
    · simp [allocBuf_pinOf io hi]
    · simp [allocBuf_pinOf io hi]
    · simp only [if_true]
      rw [pinOf_install (allocBuf_inv io hi) (allocBuf_ok io hi hv).2, ← allocBuf_pinOf io hi]
      split <;> simp_all [pinOf_of_find_none hfn]
  | disposePage f p =>
    rcases disposePage_cases io hi f p with ⟨-, h⟩ | ⟨j, -, -, -, hk, h⟩ <;>
      simp only [run_disposePage, h, pinDelta, ite_self, Int.add_zero]
    rw [pinOf_discard hi, hk]
    split
    next hkp => rw [hkp, hd f p rfl]
    next => rfl
  | flushFile f => simp [flushFile_pinOf hrw.write hi, pinDelta]

/-! ## A pinned page stays in its frame -/

/-- Page `k` is in frame `j` of `t`, which holds the bytes it held in `s`, and
`k`'s disk page is unchanged. -/
structure Stays (s t : BufMgr P) (k : Key) (j : Nat) : Prop where
  find : t.hashTable.find k = some (j : Int)
  frame : t.bufPool j = s.bufPool j
  disk : t.disk k = s.disk k

variable {k : Key} {j : Nat}

theorem Stays.trans (h1 : Stays s t k j) (h2 : Stays t u k j) : Stays s u k j :=
  ⟨h2.find, h2.frame.trans h1.frame, h2.disk.trans h1.disk⟩

theorem Sweep.stays (h : Sweep s t) (hf : s.hashTable.find k = some (j : Int)) : Stays s t k j :=
  ⟨h.hashTable ▸ hf, congrFun h.bufPool j, congrFun h.disk k⟩

theorem install_stays (hf : s.hashTable.find k = some (j : Int)) {v : Nat} (hj : j ≠ v) {f : FileId} {p : Int}
    (hk : k ≠ (some f, p)) (pg : P) : Stays s (s.install v f p pg) k j :=
  ⟨by simp [Function.update_noteq hk, hf], by simp [Function.update_noteq hj], rfl⟩

theorem discard_stays (hf : s.hashTable.find k = some (j : Int)) {i : Nat} (hk : k ≠ (s.bufTable i).key)
    (d : BufDesc) : Stays s (s.discard i d) k j :=
  ⟨by simp [Function.update_noteq hk, hf], rfl, rfl⟩

theorem written_stays (hf : s.hashTable.find k = some (j : Int)) {i : Nat} (hk : k ≠ (s.bufTable i).key) :
    Stays s (s.written i) k j :=
  ⟨hf, rfl, written_disk_of_ne hk⟩

/-- Under `Inv`, a page mapped to a frame other than `i` is not frame `i`'s page. -/
theorem Inv.key_ne (hi : Inv s) (hf : s.hashTable.find k = some (j : Int)) {i : Nat} (hij : j ≠ i)
    (hin : i < s.numBufs) (hv : (s.bufTable i).valid = true) : k ≠ (s.bufTable i).key := by
  rintro rfl
  rw [hi.find_self hin hv] at hf
  exact hij (Int.ofNat_inj.1 (Option.some.inj hf)).symm

theorem evicted_stays (hi : Inv t) (hv : (t.bufTable t.clockHand).valid = true) {s1 : BufMgr P}
    (hw : t.victimWrite io = .ok s1) (hf : t.hashTable.find k = some (j : Int)) (hj : j ≠ t.clockHand) :
    Stays t (evicted t s1) k j := by
  have hk := hi.key_ne hf hj hi.hand_lt hv
  rw [evicted_eq hw]
  exact (written_stays hf hk).trans (discard_stays (s := t.written _) hf hk .clear)

/-- `allocBuf` never takes the frame of a pinned page. -/
theorem allocBuf_stays (io : FileAnswers) (hi : Inv s) (hf : s.hashTable.find k = some (j : Int))
    (hp : 0 < (s.bufTable j).pinCnt) : Stays s (allocBuf io s).2 k j := by
  obtain ⟨t, hst, hit, ⟨-, h⟩ | ⟨hv, hp0, ⟨-, h⟩ | ⟨s1, hw, h⟩⟩ | h⟩ := allocBuf_cases io hi <;>
    rw [h]
  · exact (hst.trans (sweep_advance t)).stays hf
  · exact hst.stays hf
  · refine (hst.stays hf).trans (evicted_stays hit hv hw (hst.stays hf).find ?_)
    rintro rfl; rw [hst.pinCnt] at hp0; omega
  · exact hst.stays hf

/-- `flushFile` neither writes back nor invalidates a pinned page. -/
theorem flushFrames_stays (hw : ∀ k, io.writePage k = .OK) (f : FileId) :
    ∀ (is : List Nat) (s : BufMgr P), (∀ i ∈ is, i < s.numBufs) → Inv s →
      s.hashTable.find k = some (j : Int) → 0 < (s.bufTable j).pinCnt → Stays s (flushFrames io f is s).2 k j
  | [], _, _, _, hf, _ => ⟨hf, rfl, rfl⟩
  | i :: is, s, hr, hi, hf, hp => by
    have hin := hr i (.head _)
    rw [flushFrames_cons hi hw f hin]
    split
    next hvf =>
      split
      · exact ⟨hf, rfl, rfl⟩
      next hpi =>
        have hp0 := Nat.eq_zero_of_not_pos hpi
        have hji : j ≠ i := by rintro rfl; omega
        have hk := hi.key_ne hf hji hin hvf.1
        have h1 := (written_stays hf hk).trans
          (discard_stays (s := s.written i) hf hk (flushedDesc (s.bufTable i)))
        refine h1.trans (flushFrames_stays hw f is ((s.written i).discard i (flushedDesc (s.bufTable i)))
          (fun j hj => hr j (.tail _ hj))
          (hi.flushStep hin hvf.1 hp0) h1.find ?_)
        simpa [Function.update_noteq hji] using hp
    · split
      · exact ⟨hf, rfl, rfl⟩
      · exact flushFrames_stays hw f is s (fun j hj => hr j (.tail _ hj)) hi hf hp

/-- No call moves a pinned page, changes its frame's bytes or writes it back,
unless it disposes of the page. -/
theorem run_stays (hi : Inv s) (hrw : io.ReadWriteOk) (c : Call)
    (hd : ∀ f p, c = .disposePage f p → pinOf s (some f, p) = 0)
    (hf : s.hashTable.find k = some (j : Int)) (hp : 0 < (s.bufTable j).pinCnt) : Stays s (c.run io s).2 k j := by
  have ha := allocBuf_stays io hi hf hp
  have hja : ∀ v, (allocBuf io s).1 = .ok v → j ≠ v := by
    rintro v hv rfl
    have := ((allocBuf_inv io hi).find_nat ha.find).2.1
    rw [(allocBuf_ok io hi hv).2] at this; cases this
  cases c with
  | readPage f p =>
    rcases readPage_cases hi hrw f p with ⟨j', -, h⟩ | ⟨hfn, ⟨-, h⟩ | ⟨v, hv, h⟩⟩ <;>
      simp only [run_readPage, h]
    · exact ⟨hf, rfl, rfl⟩
    · exact ha
    · exact ha.trans (install_stays ha.find (hja v hv) (fun hk => by rw [hk, hfn] at hf; cases hf) _)
  | unPinPage f p d =>
    rcases unPinPage_cases hi f p d with ⟨-, h⟩ | ⟨j', -, ⟨-, h⟩ | ⟨-, h⟩⟩ <;>
      simp only [run_unPinPage, h] <;> exact ⟨hf, rfl, rfl⟩
  | allocPage f =>
    rcases allocPage_cases hi hrw.write f with
      ⟨-, h⟩ | ⟨-, ⟨-, h⟩ | ⟨v, hv, ⟨-, h⟩ | ⟨hfn, h⟩⟩⟩ <;> simp only [run_allocPage, h]
    · exact ⟨hf, rfl, rfl⟩
    · exact ha
    · exact ha
    · refine ha.trans (install_stays ha.find (hja v hv) (fun hk => ?_) _)
      have := ha.find; rw [hk, hfn] at this; cases this
  | disposePage f p =>
    rcases disposePage_cases io hi f p with ⟨-, h⟩ | ⟨j', -, -, -, hk, h⟩ <;>
      simp only [run_disposePage, h]
    · exact ⟨hf, rfl, rfl⟩
    · refine discard_stays hf (fun hk' => ?_) _
      have := hd f p rfl
      rw [← hk, ← hk', pinOf_of_find hf] at this
      omega
  | flushFile f => exact flushFrames_stays hrw.write f _ s (fun _ h => List.mem_range.1 h) hi hf hp

/-! ## Runs with the ledger -/

/-- The pool with a client's pin ledger beside it, over runs in which every file
read and write succeeds and no page with outstanding pins is disposed. -/
def pinLts (P : Type) [Inhabited P] : LTS (BufMgr P × (Key → Int)) (FileAnswers × Call) where
  init x := (lts P).init x.1 ∧ x.2 = fun _ => 0
  step x l x' := l.1.ReadWriteOk ∧ (∀ f p, l.2 = .disposePage f p → x.2 (some f, p) = 0) ∧
    (lts P).step x.1 l x'.1 ∧ x'.2 = fun k => x.2 k + pinDelta l.1 l.2 (l.2.run l.1 x.1).1 k

/-- The ledger is the pool's pin count of every page. -/
structure PinInv (x : BufMgr P × (Key → Int)) : Prop where
  inv : Inv x.1
  ledger : ∀ k, x.2 k = pinOf x.1 k

theorem PinInv.disposable {x : BufMgr P × (Key → Int)} (h : PinInv x) {c : Call}
    (hd : ∀ f p, c = .disposePage f p → x.2 (some f, p) = 0) :
    ∀ f p, c = .disposePage f p → pinOf x.1 (some f, p) = 0 := fun f p hc => by
  have := hd f p hc; rw [h.ledger] at this; exact_mod_cast this

theorem pinInv_inductive [Inhabited P] : (pinLts P).Inductive PinInv where
  init x := by
    rintro ⟨⟨n, disk, hn, hx⟩, hl⟩
    refine ⟨hx ▸ init_inv hn disk, fun k => ?_⟩
    rw [hl, hx]; simp [pinOf, init, BufHashTbl.empty]
  step x l x' hx := by
    rintro ⟨hrw, hd, hs, hl⟩
    refine ⟨hs ▸ run_inv hx.inv hrw.write l.2, fun k => ?_⟩
    rw [hl, hs]; dsimp only
    rw [run_pinOf hx.inv hrw l.2 (hx.disposable hd) k, hx.ledger]

theorem pin_ledger [Inhabited P] {x : BufMgr P × (Key → Int)} (hx : (pinLts P).Reachable x) :
    (∀ k, 0 ≤ x.2 k) ∧
      (∀ k (j : Nat), x.1.hashTable.find k = some (j : Int) → x.2 k = (x.1.bufTable j).pinCnt) ∧
      (∀ k, x.1.hashTable.find k = none → x.2 k = 0) ∧
      ∀ l x', (pinLts P).step x l x' → ∀ k (j : Nat), x.1.hashTable.find k = some (j : Int) →
        0 < x.2 k → Stays x.1 x'.1 k j := by
  have h := pinInv_inductive.reachable hx
  refine ⟨fun k => by rw [h.ledger]; omega, fun k j hf => by rw [h.ledger, pinOf_of_find hf],
    fun k hf => by rw [h.ledger, pinOf_of_find_none hf]; rfl, ?_⟩
  rintro ⟨io, c⟩ x' ⟨hrw, hd, hs, -⟩ k j hf hp
  rw [hs]
  rw [h.ledger, pinOf_of_find hf] at hp
  exact run_stays h.inv hrw c (h.disposable hd) hf (by exact_mod_cast hp)

/-- One `readPage` of page 1 in a one-frame pool, the ledger beside it. -/
theorem pin_ledger_one_read :
    let x : BufMgr Nat × (Key → Int) := (((Call.readPage 0 1).run ioOk (init 1 fun _ => 0)).2,
      fun k => 0 + pinDelta ioOk (.readPage 0 1) ((Call.readPage 0 1).run ioOk (init 1 fun _ => 0)).1 k)
    (pinLts Nat).Reachable x ∧ ((∀ k, 0 ≤ x.2 k) ∧
      (∀ k (j : Nat), x.1.hashTable.find k = some (j : Int) → x.2 k = (x.1.bufTable j).pinCnt) ∧
      (∀ k, x.1.hashTable.find k = none → x.2 k = 0) ∧
      ∀ l x', (pinLts Nat).step x l x' → ∀ k (j : Nat), x.1.hashTable.find k = some (j : Int) →
        0 < x.2 k → Stays x.1 x'.1 k j) := by
  intro x
  have hr : (pinLts Nat).Reachable x :=
    ⟨(init 1 fun _ => 0, fun _ => 0), [(ioOk, .readPage 0 1)], ⟨⟨1, _, Nat.one_pos, rfl⟩, rfl⟩,
      .cons (t := x) ⟨⟨fun _ => rfl, fun _ => rfl⟩, (fun _ _ h => by cases h), rfl, rfl⟩ (.nil _)⟩
  exact ⟨hr, pin_ledger hr⟩

end Minirel.BufMgr
