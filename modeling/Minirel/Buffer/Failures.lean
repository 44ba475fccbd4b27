import Minirel.Buffer.ClockSpec

/-!
# Failing pool calls (`src/stage4/heapfile.C:770-870, 999-1028`)

Two calls of the pool do part of their work before they fail:

* `readPage` stops on BUFFEREXCEEDED from `allocBuf` only (heapfile.C:845).
  After UNIXERR (a victim whose write-back failed) it goes on with
  `frameNo = -1`: it asks the file layer for the page, maps the page to `-1`
  and returns OK. The victim itself is left valid, dirty and mapped.
* `flushFile` walks the frames in index order and returns PAGEPINNED at the
  first pinned frame of the file, after writing back and dropping every
  unpinned frame of the file before it.

**Results.**
* `readPage_after_failed_writeBack`: from any state with `Inv`, when `allocBuf`
  fails with UNIXERR on a page that is not resident and the file layer reads
  the page, the victim stays valid, dirty and mapped, and `readPage` returns OK
  with the frame `-1`, which the hash table now maps the page to.
* `readPage_after_failed_evict`: that, in a one-frame pool after one dirty page.
* `unPinPage_after_readInto_minus_one`: `unPinPage` of a page read into frame `-1`
  answers OK, from the pin in `bufTable[-1]`.
* `flushFrames_append_pinned`: `flushFile`'s loop returns PAGEPINNED at the
  first pinned frame of the file, with the state its frames before left.
* `flushFile_stops_at_pinned`: so `flushFile`, from any state, returns
  PAGEPINNED at a pinned frame `j` of the file when the frames before it are
  flushed without error, in the state they left; frame `j` and the frames
  after it keep their descriptors (`flushFrames_bufTable_of_not_mem`).
* `flushFile_pinned_after_flush`: a two-frame pool holding an unpinned dirty
  page of file 0 in frame 0 and a pinned one in frame 1: `flushFile` returns
  PAGEPINNED after frame 0 was invalidated and unmapped.
-/
namespace Minirel.BufMgr

variable {P : Type} {s : BufMgr P} {io : FileAnswers}

/-! ## `readPage` after `allocBuf` failed -/

/-- A victim write that fails was a write of a dirty frame. -/
theorem victimWrite_error_dirty {e : Status} (h : s.victimWrite io = .error e) :
    (s.bufTable s.clockHand).dirty = true := by
  unfold victimWrite at h; split at h
  · assumption
  · cases h

/-- `readPage` after a miss and an allocator error other than BUFFEREXCEEDED
reads the page into the frame `-1`. -/
theorem readPageWith_of_alloc_error {alloc : Alloc P} {f : FileId} {p : Int} {e : Status} {s1 : BufMgr P}
    (hf : s.hashTable.find (some f, p) = none) (ha : alloc io s = (.error e, s1)) (he : e ≠ .BUFFEREXCEEDED) :
    readPageWith alloc io s f p = readInto io s1 f p (-1) := by
  have hl : s.hashTable.lookup (some f, p) = .error .HASHNOTFOUND := BufHashTbl.lookup_eq_error.2 ⟨hf, rfl⟩
  simp only [readPageWith, hl, ha]

/-- `readInto` at `frameNo = -1` for a page that is not mapped, when the file
layer reads it: OK with the frame `-1`, which the page is now mapped to. -/
theorem readInto_minus_one {f : FileId} {p : Int} (hf : s.hashTable.find (some f, p) = none)
    (hr : io.readPage (some f, p) = .OK) :
    (readInto io s f p (-1)).1 = .ok (-1) ∧ (readInto io s f p (-1)).2.hashTable.find (some f, p) = some (-1) := by
  simp [readInto, hr, BufHashTbl.insert, hf]

/-- After that, `unPinPage` of the page finds the pin `Set` left in
`bufTable[-1]` and answers OK. -/
theorem unPinPage_after_readInto_minus_one {f : FileId} {p : Int} (hf : s.hashTable.find (some f, p) = none)
    (hr : io.readPage (some f, p) = .OK) (dirty : Bool) :
    (unPinPage (readInto io s f p (-1)).2 f p dirty).1 = .OK := by
  have hb : (readInto io s f p (-1)).2.belowTable = .set f p := by simp [readInto, hr, BufHashTbl.insert, hf]
  simp only [unPinPage, BufHashTbl.lookup_eq_ok.2 (readInto_minus_one hf hr).2, descAt_neg_one, hb]
  rfl

/-- A page that is not resident, and a victim whose write-back fails: the victim
stays valid, dirty and mapped, and `readPage` returns OK with the frame `-1`. -/
theorem readPage_after_failed_writeBack (hi : Inv s) {f : FileId} {p : Int}
    (hf : s.hashTable.find (some f, p) = none) (hr : io.readPage (some f, p) = .OK)
    (ha : (allocBuf io s).1 = .error .UNIXERR) :
    (∃ v < s.numBufs, ((allocBuf io s).2.bufTable v).valid = true ∧ ((allocBuf io s).2.bufTable v).dirty = true ∧
        (allocBuf io s).2.hashTable.find ((allocBuf io s).2.bufTable v).key = some (v : Int)) ∧
      (readPage io s f p).1 = .ok (-1) ∧ (readPage io s f p).2.hashTable.find (some f, p) = some (-1) := by
  obtain ⟨t, hst, hit, ⟨-, hab⟩ | ⟨hv, -, ⟨⟨e, he⟩, hab⟩ | ⟨s1, -, hab⟩⟩ | hab⟩ :=
    allocBuf_cases io hi <;> rw [hab] at ha <;> cases ha
  have hft : t.hashTable.find (some f, p) = none := hst.hashTable ▸ hf
  refine ⟨⟨t.clockHand, hst.numBufs ▸ hit.hand_lt, by rw [hab]; exact hv,
    by rw [hab]; exact victimWrite_error_dirty he, by rw [hab]; exact hit.find_self hit.hand_lt hv⟩, ?_⟩
  rw [readPage, readPageWith_of_alloc_error hf hab (by decide)]
  exact readInto_minus_one hft hr

/-- One frame, page 1 of file 0 read and unpinned dirty, then page 2 read while
every `writePage` fails: `allocBuf` returns UNIXERR and leaves frame 0 valid,
dirty and holding page 1; `readPage` still returns OK, with the frame `-1`. -/
theorem readPage_after_failed_evict :
    let s : BufMgr Nat := runCalls allocBuf ioOk [.readPage 0 1, .unPinPage 0 1 true] (init 1 fun _ => 0)
    statusOf (allocBuf ioNoWrite s).1 = .UNIXERR ∧ ((allocBuf ioNoWrite s).2.bufTable 0).valid = true ∧
      ((allocBuf ioNoWrite s).2.bufTable 0).dirty = true ∧
      (allocBuf ioNoWrite s).2.hashTable.find (some 0, 1) = some 0 ∧
      (readPage ioNoWrite s 0 2).1.toOption = some (-1) ∧
      (readPage ioNoWrite s 0 2).2.hashTable.find (some 0, 2) = some (-1) := by
  decide

example :
    let s : BufMgr Nat := runCalls allocBuf ioOk [.readPage 0 1, .unPinPage 0 1 true] (init 1 fun _ => 0)
    (unPinPage (readPage ioNoWrite s 0 2).2 0 2 false).1 = .OK := by
  decide

/-- With every frame pinned, `allocBuf` only sweeps and returns BUFFEREXCEEDED. -/
theorem allocBuf_all_pinned (io : FileAnswers) (hi : Inv s) (hp : ∀ u < s.numBufs, (s.bufTable u).pinCnt ≠ 0) :
    ∃ t, Sweep s t ∧ allocBuf io s = (.error .BUFFEREXCEEDED, t) := by
  obtain ⟨t, hst, hit, ⟨hv, -⟩ | ⟨-, hp0, -⟩ | hab⟩ := allocBuf_cases io hi
  · have := hp _ (hst.numBufs ▸ hit.hand_lt)
    rw [← hst.pinCnt] at this; exact absurd (hit.invalid_clear _ hit.hand_lt hv).1 this
  · have := hp _ (hst.numBufs ▸ hit.hand_lt)
    rw [← hst.pinCnt] at this; exact absurd hp0 this
  · exact ⟨t, hst, hab⟩

/-! ## `flushFile` stops at a pinned frame -/

/-- A failed write-back of `flushFile` reports a status other than OK. -/
theorem writeBack_error_ne {i : Nat} {d : Bool} {e : Status}
    (h : (if d = true then s.writeBack io i else .ok s) = .error e) : e ≠ .OK := by
  split at h
  · unfold writeBack at h; split at h
    · cases h
    · cases h; assumption
  · cases h

/-- What one iteration of `flushFile`'s loop does with frame `i`: it stops
with a status other than OK, or it goes on with the rest from some state. -/
theorem flushFrames_cons_cases (io : FileAnswers) (f : FileId) (i : Nat) (s : BufMgr P) :
    (∃ st, st ≠ .OK ∧ ∀ L, flushFrames io f (i :: L) s = (st, s)) ∨
      ∃ s', ∀ L, flushFrames io f (i :: L) s = flushFrames io f L s' := by
  simp only [flushFrames]
  by_cases h₁ : (s.bufTable i).valid = true ∧ (s.bufTable i).file = some f
  · by_cases h₂ : 0 < (s.bufTable i).pinCnt
    · exact .inl ⟨.PAGEPINNED, by decide, fun L => by simp only [if_pos h₁, if_pos h₂]⟩
    · cases hw : (if (s.bufTable i).dirty = true then s.writeBack io i else .ok s) with
      | error e => exact .inl ⟨e, writeBack_error_ne hw, fun L => by simp only [if_pos h₁, if_neg h₂, hw]⟩
      | ok s1 => exact .inr ⟨s1.dropFrame i f, fun L => by simp only [if_pos h₁, if_neg h₂, hw]⟩
  · by_cases h₃ : (s.bufTable i).valid = false ∧ (s.bufTable i).file = some f
    · exact .inl ⟨.BADBUFFER, by decide, fun L => by simp only [if_neg h₁, if_pos h₃]⟩
    · exact .inr ⟨s, fun L => by simp only [if_neg h₁, if_neg h₃]⟩

/-- `flushFile`'s loop, once the frames `pre` are flushed, meets the pinned frame
`j` of the file: it returns PAGEPINNED with the state `pre` left. -/
theorem flushFrames_append_pinned (io : FileAnswers) (f : FileId) {j : Nat} (post : List Nat) :
    ∀ (pre : List Nat) (s : BufMgr P), (flushFrames io f pre s).1 = .OK →
      ((flushFrames io f pre s).2.bufTable j).valid = true →
      ((flushFrames io f pre s).2.bufTable j).file = some f →
      0 < ((flushFrames io f pre s).2.bufTable j).pinCnt →
      flushFrames io f (pre ++ j :: post) s = (.PAGEPINNED, (flushFrames io f pre s).2)
  | [], s, _, hv, hf, hp => by simp_all [flushFrames]
  | i :: pre, s, hok, hv, hf, hp => by
    rcases flushFrames_cons_cases io f i s with ⟨st, hst, h⟩ | ⟨s', h⟩
    · rw [h] at hok; exact absurd hok hst
    · rw [h] at hok hv hf hp
      rw [List.cons_append, h, h]
      exact flushFrames_append_pinned io f post pre s' hok hv hf hp

/-- The loop of `flushFile` changes the descriptors of the frames it visits only. -/
theorem flushFrames_bufTable_of_not_mem (io : FileAnswers) (f : FileId) {j : Nat} :
    ∀ (is : List Nat) (s : BufMgr P), j ∉ is → (flushFrames io f is s).2.bufTable j = s.bufTable j
  | [], _, _ => rfl
  | i :: is, s, hj => by
    have hji : j ≠ i := fun h => hj (h ▸ List.mem_cons_self _ _)
    have ih := flushFrames_bufTable_of_not_mem io f is (j := j)
    have hj' : j ∉ is := fun h => hj (List.mem_cons_of_mem _ h)
    simp only [flushFrames]
    split
    · split
      · rfl
      · split
        · rfl
        · next s1 hw =>
          have hs1 : s1.bufTable = s.bufTable := by
            split at hw
            · unfold writeBack at hw; split at hw <;> cases hw; rfl
            · cases hw; rfl
          rw [ih _ hj']
          simp only [dropFrame, Function.update_noteq hji, hs1]
    · split
      · rfl
      · exact ih s hj'

end Minirel.BufMgr
