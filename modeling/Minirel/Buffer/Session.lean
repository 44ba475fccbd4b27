import Minirel.Buffer.Content

/-!
# What a client of the pool can count on

The heap-file layer holds a few pins for a while and calls `readPage` and
`unPinPage`. This module says once what those calls guarantee it; the
heap-file proofs cite these lemmas and never unfold the pool's operations.

* `allocBuf_ok_of_unpinned`, `readPage_ok`: when every file read and write
  succeeds and some frame is unpinned, `allocBuf` finds a frame and `readPage`
  succeeds; `readPage_find`: the page is then mapped to the frame returned.
* `unPinPage_held`: unpinning a page whose frame is pinned succeeds.
* `Budget held s u`: the pins on frame `u` are at most the client's pins
  (`held`) on the frame's page. `budget_readPage` and `Budget.unpinned`: the
  calls keep it, with the client's count updated. `Budget.free`: more such
  frames than pages the client holds pins on leave one unpinned.
-/
namespace Minirel.BufMgr

variable {P : Type} {s t : BufMgr P} {io : FileAnswers}

/-! ## Calls that succeed -/

theorem allocBuf_ok_of_unpinned (hi : Inv s) (hw : ∀ k, io.writePage k = .OK) {u : Nat}
    (hu : u < s.numBufs) (hp : (s.bufTable u).pinCnt = 0) : ∃ v, (allocBuf io s).1 = .ok v := by
  have hh := hi.hand_lt
  refine (allocBuf_rw hi hw).resolve_right (allocBufLoop_ne_exceeded io _ s hh hu hp ?_)
  unfold allocMeasure clockDist; split <;> split <;> omega

/-- `readPage` succeeds on a resident page, and on any page while a frame is unpinned. -/
theorem readPage_ok (hi : Inv s) (hrw : io.ReadWriteOk) (f : FileId) (p : Int)
    (hfree : s.hashTable.find (some f, p) ≠ none ∨ ∃ u < s.numBufs, (s.bufTable u).pinCnt = 0) :
    ∃ j : Nat, (readPage io s f p).1 = .ok j := by
  rcases readPage_cases hi hrw f p with ⟨j, -, h⟩ | ⟨hf, ⟨hb, -⟩ | ⟨v, -, h⟩⟩
  · exact ⟨j, by rw [h]⟩
  · exfalso
    rcases hfree with hne | ⟨u, hu, hp⟩
    · exact hne hf
    · obtain ⟨v, hv⟩ := allocBuf_ok_of_unpinned hi hrw.write hu hp
      rw [hv] at hb; cases hb
  · exact ⟨v, by rw [h]⟩

theorem readPage_find (hi : Inv s) (hrw : io.ReadWriteOk) (f : FileId) (p : Int) {j : Nat}
    (h : (readPage io s f p).1 = .ok j) : (readPage io s f p).2.hashTable.find (some f, p) = some (j : Int) := by
  rcases readPage_cases hi hrw f p with ⟨j', hf, hr⟩ | ⟨-, ⟨-, hr⟩ | ⟨v, -, hr⟩⟩ <;>
    rw [hr] at h ⊢ <;> cases h
  · exact hf
  · simp

theorem readPage_numBufs (hi : Inv s) (hrw : io.ReadWriteOk) (f : FileId) (p : Int) :
    (readPage io s f p).2.numBufs = s.numBufs := by
  rcases readPage_cases hi hrw f p with ⟨j, -, h⟩ | ⟨-, ⟨-, h⟩ | ⟨v, -, h⟩⟩ <;> rw [h]
  · rfl
  · exact allocBuf_numBufs io hi
  · exact allocBuf_numBufs io hi

theorem readPage_find_none (hi : Inv s) (hrw : io.ReadWriteOk) (f : FileId) (p : Int) {k : Key}
    (h : s.hashTable.find k = none) (hk : k ≠ (some f, p)) : (readPage io s f p).2.hashTable.find k = none := by
  rcases readPage_cases hi hrw f p with ⟨j, -, hr⟩ | ⟨-, ⟨-, hr⟩ | ⟨v, -, hr⟩⟩ <;> rw [hr]
  · exact h
  · exact allocBuf_find_none io hi h
  · simp only [install_find, Function.update_noteq hk]; exact allocBuf_find_none io hi h

/-- `allocPage` makes no page of another file resident. -/
theorem allocPage_find_none (hi : Inv s) (hw : ∀ k, io.writePage k = .OK) (f : FileId) {k : Key}
    (h : s.hashTable.find k = none) (hk : k.1 ≠ some f) : (allocPage io s f).2.hashTable.find k = none := by
  rcases allocPage_cases hi hw f with ⟨-, ha⟩ | ⟨-, ⟨-, ha⟩ | ⟨v, -, ⟨-, ha⟩ | ⟨-, ha⟩⟩⟩ <;>
    rw [ha]
  · exact h
  · exact allocBuf_find_none io hi h
  · exact allocBuf_find_none io hi h
  · have hne : k ≠ (some f, (io.allocatePage f).2) := fun e => hk (by rw [e])
    simp only [install_find, Function.update_noteq hne]; exact allocBuf_find_none io hi h

/-- `unPinPage` moves no page. -/
theorem unPinPage_hashTable (hi : Inv s) (f : FileId) (p : Int) (d : Bool) :
    (unPinPage s f p d).2.hashTable = s.hashTable := by
  rcases unPinPage_cases hi f p d with ⟨-, h⟩ | ⟨j, -, ⟨-, h⟩ | ⟨-, h⟩⟩ <;> rw [h]; rfl

/-- `allocPage` succeeds when the DB layer allocates a page that is not resident
and a frame is unpinned; the frame returned is the one `allocBuf` chose. -/
theorem allocPage_ok (hi : Inv s) (hw : ∀ k, io.writePage k = .OK) (f : FileId)
    (hal : (io.allocatePage f).1 = .OK) (hn : s.hashTable.find (some f, (io.allocatePage f).2) = none)
    {u : Nat} (hu : u < s.numBufs) (hp : (s.bufTable u).pinCnt = 0) :
    ∃ v : Nat, (allocBuf io s).1 = .ok v ∧ allocPage io s f = (.ok ((io.allocatePage f).2, v),
      (allocBuf io s).2.install v f (io.allocatePage f).2 ((allocBuf io s).2.bufPool v)) := by
  rcases allocPage_cases hi hw f with ⟨hne, -⟩ | ⟨-, ⟨hb, -⟩ | ⟨v, hv, ⟨hf, -⟩ | ⟨-, h⟩⟩⟩
  · exact absurd hal hne
  · obtain ⟨v, hv⟩ := allocBuf_ok_of_unpinned hi hw hu hp; rw [hv] at hb; cases hb
  · exact absurd (allocBuf_find_none io hi hn) hf
  · exact ⟨v, hv, h⟩

/-- A pinned page is resident, in a pinned frame. -/
theorem find_of_pinOf_pos (hi : Inv s) {k : Key} (h : 0 < pinOf s k) :
    ∃ j : Nat, s.hashTable.find k = some (j : Int) ∧ 0 < (s.bufTable j).pinCnt := by
  cases hf : s.hashTable.find k with
  | none => rw [pinOf_of_find_none hf] at h; omega
  | some i =>
    obtain ⟨j, rfl, -⟩ := hi.find_frame hf
    exact ⟨j, rfl, by rwa [← pinOf_of_find hf]⟩

/-- A page keeps its logical bytes over an allowed call that leaves it settled,
and over any allowed call while it is pinned. -/
theorem logical_keep {g : Ghost} (hi : Inv s) (hc : Clean g s) (ho : OwedPinned g s) (hrw : io.ReadWriteOk)
    (c : Call) (ha : Allowed (s, g) c) {k : Key}
    (hk : (g.after io c (c.run io s).1).fresh k = false ∨ 0 < pinOf s k) :
    logical (c.run io s).2 k = logical s k := by
  rcases hk with hk | hk
  · exact (run_content hi hc ho hrw c ha).2.2 k hk
  · obtain ⟨j, hf, hp⟩ := find_of_pinOf_pos hi hk
    have hs := run_stays hi hrw c (by rintro f p rfl; exact ha.elim) hf hp
    rw [logical_of_find hs.find, hs.frame, logical_of_find hf]

/-- Unpinning a page whose frame is pinned succeeds. -/
theorem unPinPage_held (hi : Inv s) {f : FileId} {p : Int} {j : Nat}
    (hf : s.hashTable.find (some f, p) = some (j : Int)) (hp : 0 < (s.bufTable j).pinCnt) (d : Bool) :
    unPinPage s f p d = (.OK, s.unpinned j d) := by
  rcases unPinPage_cases hi f p d with ⟨hn, -⟩ | ⟨j', hf', ⟨h0, -⟩ | ⟨-, h⟩⟩
  · rw [hf] at hn; cases hn
  · rw [hf] at hf'; cases hf'; omega
  · rw [hf] at hf'; cases hf'; exact h

/-! ## What the calls do to the pins -/

/-- A successful `readPage` adds one pin on its page. -/
theorem pinOf_readPage (hi : Inv s) (hrw : io.ReadWriteOk) {f : FileId} {p : Int} {j : Nat}
    (hj : (readPage io s f p).1 = .ok j) (k : Key) :
    pinOf (readPage io s f p).2 k = pinOf s k + if k = (some f, p) then 1 else 0 := by
  have := run_pinOf hi hrw (.readPage f p) (fun _ _ h => by cases h) k
  simp only [run_readPage, hj, statusOf, pinDelta, if_true] at this
  by_cases hk : k = (some f, p) <;> simp only [hk, if_true, if_false] at this ⊢ <;> omega

/-- A successful `unPinPage` takes one pin off its page. -/
theorem pinOf_unpinned (hi : Inv s) {f : FileId} {p : Int} {j : Nat}
    (hf : s.hashTable.find (some f, p) = some (j : Int)) (hp : 0 < (s.bufTable j).pinCnt) (d : Bool) (k : Key) :
    pinOf (s.unpinned j d) k + (if k = (some f, p) then 1 else 0) = pinOf s k := by
  have := run_pinOf hi (⟨fun _ => rfl, fun _ => rfl⟩ : ioOk.ReadWriteOk) (.unPinPage f p d)
    (fun _ _ h => by cases h) k
  simp only [run_unPinPage, unPinPage_held hi hf hp d, pinDelta, if_true] at this
  by_cases hk : k = (some f, p) <;> simp only [hk, if_true, if_false] at this ⊢ <;> omega

/-- An `allocPage` that installs a page that was not resident adds one pin on it. -/
theorem pinOf_allocated (hi : Inv s) {v : Nat} (hv : (allocBuf io s).1 = .ok v) {f : FileId} {p : Int}
    (hn : s.hashTable.find (some f, p) = none) (pg : P) (k : Key) :
    pinOf ((allocBuf io s).2.install v f p pg) k = pinOf s k + if k = (some f, p) then 1 else 0 := by
  rw [pinOf_install (allocBuf_inv io hi) (allocBuf_ok io hi hv).2, allocBuf_pinOf io hi]
  split
  · subst k; rw [pinOf_of_find_none hn]
  · rfl

/-! ## Frames only the client pins -/

/-- The pins on frame `u` are at most the client's pins `held` on the frame's page. -/
def Budget (held : Key → Nat) (s : BufMgr P) (u : Nat) : Prop :=
  (s.bufTable u).valid = true → (s.bufTable u).pinCnt ≤ held (s.bufTable u).key

variable {held : Key → Nat} {u : Nat}

theorem Budget.mono {held' : Key → Nat} (h : ∀ k, held k ≤ held' k) (hb : Budget held s u) :
    Budget held' s u := fun hv => Nat.le_trans (hb hv) (h _)

theorem Budget.sweep (h : Sweep s t) (hb : Budget held s u) : Budget held t u := by
  intro hv; rw [h.pinCnt, h.key]; exact hb (h.valid u ▸ hv)

/-- A frame whose descriptor is replaced by an invalid or a no more pinned one for the same page. -/
theorem Budget.update (hb : Budget held s u) {j : Nat} {d : BufDesc}
    (hd : d.valid = true →
      (s.bufTable j).valid = true ∧ d.key = (s.bufTable j).key ∧ d.pinCnt ≤ (s.bufTable j).pinCnt) :
    Budget held { s with bufTable := Function.update s.bufTable j d } u := by
  intro hv
  by_cases hu : u = j
  · subst hu
    simp only [Function.update_same] at hv ⊢
    obtain ⟨hv', hk, hp⟩ := hd hv
    rw [hk]; exact Nat.le_trans hp (hb hv')
  · simp only [Function.update_noteq hu] at hv ⊢; exact hb hv

theorem allocBuf_budget (io : FileAnswers) (hi : Inv s) (hb : Budget held s u) : Budget held (allocBuf io s).2 u := by
  obtain ⟨t, hst, -, ⟨-, h⟩ | ⟨-, -, ⟨-, h⟩ | ⟨s1, hw, h⟩⟩ | h⟩ := allocBuf_cases io hi <;> rw [h]
  · exact (hb.sweep hst).sweep (sweep_advance t)
  · exact hb.sweep hst
  · have hbt : s1.bufTable = t.bufTable := by
      have := congrArg BufMgr.bufTable (victimWrite_eq hw); exact this
    have ht := hb.sweep hst
    intro hv
    simp only [evicted, setDesc_bufTable] at hv ⊢
    by_cases hu : u = t.clockHand
    · subst hu; simp [BufDesc.clear] at hv
    · rw [Function.update_noteq hu, hbt] at hv ⊢; exact ht hv
  · exact hb.sweep hst

/-- Frame `v` given to page `(f, p)`: the client holds one more pin on it. -/
theorem Budget.install (hb : Budget held s u) (v : Nat) (f : FileId) (p : Int) (pg : P) :
    Budget (fun k => held k + if k = (some f, p) then 1 else 0) (s.install v f p pg) u := by
  intro hv
  by_cases hu : u = v
  · subst hu; simp [BufDesc.set, BufDesc.key]
  · simp only [install_bufTable, Function.update_noteq hu] at hv ⊢
    exact Nat.le_trans (hb hv) (Nat.le_add_right _ _)

/-- After a successful `readPage` of `(f, p)` the client holds one more pin on it. -/
theorem budget_readPage (hi : Inv s) (hrw : io.ReadWriteOk) (f : FileId) (p : Int) (hb : Budget held s u) :
    Budget (fun k => held k + if k = (some f, p) then 1 else 0) (readPage io s f p).2 u := by
  have hle : ∀ k, held k ≤ held k + if k = (some f, p) then 1 else 0 := fun _ => Nat.le_add_right _ _
  rcases readPage_cases hi hrw f p with ⟨j, hf, h⟩ | ⟨-, ⟨-, h⟩ | ⟨v, -, h⟩⟩ <;> rw [h]
  · obtain ⟨-, -, hk⟩ := hi.find_nat hf
    intro hv
    by_cases hu : u = j
    · subst hu
      simp only [pinned_bufTable, Function.update_same] at hv ⊢
      have := hb hv
      show (s.bufTable u).pinCnt + 1 ≤ held (s.bufTable u).key + if (s.bufTable u).key = (some f, p) then 1 else 0
      rw [hk, if_pos rfl]; rw [hk] at this; omega
    · simp only [pinned_bufTable, Function.update_noteq hu] at hv ⊢
      exact Nat.le_trans (hb hv) (hle _)
  · exact (allocBuf_budget io hi hb).mono hle
  · exact (allocBuf_budget io hi hb).install v f p _

/-- After a successful `unPinPage` of `(f, p)` the client holds one pin fewer on it. -/
theorem Budget.unpinned (hi : Inv s) (hu : u < s.numBufs) {f : FileId} {p : Int} {j : Nat}
    (hf : s.hashTable.find (some f, p) = some (j : Int)) (hb : Budget held s u) (d : Bool) :
    Budget (fun k => held k - if k = (some f, p) then 1 else 0) (s.unpinned j d) u := by
  obtain ⟨hj, hvj, hkj⟩ := hi.find_nat hf
  intro hv
  by_cases huj : u = j
  · subst huj
    simp only [unpinned_bufTable, Function.update_same] at hv ⊢
    have := hb hv
    show (s.bufTable u).pinCnt - 1 ≤ held (s.bufTable u).key - if (s.bufTable u).key = (some f, p) then 1 else 0
    rw [hkj, if_pos rfl]; rw [hkj] at this; omega
  · simp only [unpinned_bufTable, Function.update_noteq huj] at hv ⊢
    have hk : (s.bufTable u).key ≠ (some f, p) := fun h =>
      huj (hi.frame_unique hu hj hv hvj (h.trans hkj.symm))
    rw [if_neg hk, Nat.sub_zero]; exact hb hv

/-- Frames `us` that hold only the client's pins, while the client holds pins on
fewer pages than there are such frames: one of them is unpinned. -/
theorem Budget.free (hi : Inv s) {us : List Nat} (hnd : us.Nodup)
    (hus : ∀ u ∈ us, u < s.numBufs ∧ Budget held s u) {ks : List Key} (hks : ∀ k, 0 < held k → k ∈ ks)
    (hlt : ks.length < us.length) : ∃ u < s.numBufs, (s.bufTable u).pinCnt = 0 := by
  rcases Classical.em (∃ u ∈ us, (s.bufTable u).pinCnt = 0) with ⟨u, hu, hp⟩ | hno
  · exact ⟨u, (hus u hu).1, hp⟩
  have hkey : ∀ u ∈ us, (s.bufTable u).valid = true ∧ (s.bufTable u).key ∈ ks := fun u hu => by
    obtain ⟨hlt, hb⟩ := hus u hu
    have hp : (s.bufTable u).pinCnt ≠ 0 := fun hp => hno ⟨u, hu, hp⟩
    cases hv : (s.bufTable u).valid
    · exact absurd (hi.invalid_clear u hlt hv).1 hp
    · exact ⟨rfl, hks _ (Nat.lt_of_lt_of_le (Nat.pos_of_ne_zero hp) (hb hv))⟩
  have hnd' : (us.map fun u => (s.bufTable u).key).Nodup := hnd.map_on fun u hu v hv h =>
    hi.frame_unique (hus u hu).1 (hus v hv).1 (hkey u hu).1 (hkey v hv).1 h
  have hle := (List.subperm_of_subset hnd' fun k hk => by
    obtain ⟨u, hu, rfl⟩ := List.mem_map.1 hk; exact (hkey u hu).2).length_le
  rw [List.length_map] at hle
  omega

end Minirel.BufMgr
