import Minirel.Heap.ScanRun

/-!
# What a scan holds after FILEEOF (`src/stage4/heapfile.C:375-444`)

`scanNext` returns FILEEOF in two places: at its top, for a scan whose
`curPage` is NULL and `curPageNo` is `-1`, and in its loop, once the unpin of
the chain's last page succeeded, after it set both. Every other error it
returns is an answer of `readPage`, of `unPinPage` or of `Page::getRecord`, and
none of them is FILEEOF. So FILEEOF always leaves the scan with no data page,
whatever state the scan was in and whatever the pool answered before.

**Results.**
* `scanNext_fileeof`: from any scan and any world, a `scanNext` that returns
  FILEEOF leaves `curPage` NULL and `curPageNo` `-1`.
* `scanNext_fileeof_pins`: a scan opened on a file whose data pages form a
  chain (empty pages included), with any predicate, with enough iterations for
  its loop: every call of the client's loop that returns FILEEOF leaves the
  pool with the pins it had before the scan was opened plus one on the header
  page.
* `scanNext_fileeof_pins_empty_page`: a file whose only data page holds no
  records.
-/
namespace Minirel

open BufMgr
open HeapFileScan (scanLoop scanNext)

/-! ## No pool or page call answers FILEEOF -/

theorem readInto_ne_fileeof (io : FileAnswers) (s : BufMgr Img) (file : FileId) (pageNo frameNo : Int) :
    (readInto io s file pageNo frameNo).1 ≠ .error .FILEEOF := by
  unfold readInto
  split
  · cases h : s.hashTable.insert (some file, pageNo) frameNo <;> simp [h]
  · simp

theorem World.readPage_ne_fileeof (w : World) (file : Option FileId) (pageNo : Int) (w' : World) :
    w.readPage file pageNo ≠ (.error .FILEEOF, w') := by
  unfold World.readPage BufMgr.readPage readPageWith
  repeat' split
  all_goals first | exact fun h => readInto_ne_fileeof _ _ _ _ _ (congrArg Prod.fst h) | simp

theorem World.unPinPage_ne_fileeof (w : World) (file : Option FileId) (pageNo : Int) (dirty : Bool)
    (w' : World) : w.unPinPage file pageNo dirty ≠ (.FILEEOF, w') := by
  unfold World.unPinPage BufMgr.unPinPage
  repeat' split
  all_goals first | (dsimp only; split) | simp
  all_goals simp

theorem DataPage.getRecord_ne_fileeof (p : DataPage) (rid : RID) : p.getRecord rid ≠ .error .FILEEOF := by
  unfold DataPage.getRecord
  split <;> simp

theorem HeapFileScan.nextRid_ne_fileeof (s : HeapFileScan) (w : World) : s.nextRid w ≠ .error .FILEEOF := by
  rw [HeapFileScan.nextRid_eq]
  split
  · simp
  · split <;> simp

/-! ## FILEEOF leaves no data page -/

theorem scanLoop_fileeof : ∀ (n : Nat) {s : HeapFileScan} {w : World} {s' : HeapFileScan} {w' : World},
    scanLoop n s w = some (.error .FILEEOF, s', w') → s'.curPage = none ∧ s'.curPageNo = -1
  | 0, _, _, _, _, h => by cases h
  | n + 1, s, w, _, _, h => by
    simp only [scanLoop] at h
    split at h
    case h_1 | h_2 =>
      split at h
      · split at h
        · cases h; exact ⟨rfl, rfl⟩
        · split at h
          · exact scanLoop_fileeof n h
          · next hr => cases h; exact absurd hr (World.readPage_ne_fileeof _ _ _ _)
      · next hu => cases h; exact absurd hu (World.unPinPage_ne_fileeof _ _ _ _ _)
    case h_3 _ _ hr => cases h; exact absurd hr (HeapFileScan.nextRid_ne_fileeof _ _)
    case h_4 =>
      split at h
      · next hg => cases h; exact absurd hg (DataPage.getRecord_ne_fileeof _ _)
      · split at h
        · cases h
        · exact scanLoop_fileeof n h

/-- A `scanNext` that returns FILEEOF, from any scan and any world, leaves the
scan with no current page and `curPageNo` `-1`. -/
theorem scanNext_fileeof {n : Nat} {s : HeapFileScan} {w : World} {s' : HeapFileScan} {w' : World}
    (h : s.scanNext n w = some (.error .FILEEOF, s', w')) : s'.curPage = none ∧ s'.curPageNo = -1 := by
  simp only [scanNext] at h
  split at h
  · split at h
    · next hc hp => cases h; exact ⟨hc, hp⟩
    · split at h
      · exact scanLoop_fileeof n h
      · next hr => cases h; exact absurd hr (World.readPage_ne_fileeof _ _ _ _)
  · exact scanLoop_fileeof n h

/-! ## The pins after FILEEOF -/

/-- A `HeapFileScan` opened on a file whose data pages form a chain from the
header's `firstPage`, pages without records included, then `startScan` with any
predicate, then `scanNext` again and again with at least `scanBound` iterations
of its loop, in a pool where every file read and write succeeds, no page of the
file is fresh, and two frames are unpinned at the start. Whenever a call
returns FILEEOF, the scan has no current page, and the pool's pins are those of
the start plus one on the header page. -/
theorem scanNext_fileeof_pins {w₀ : World} {g : Ghost} {u₁ u₂ : Nat} {name : String} {f : FileId} {p : Int}
    {qs : List Int} (hrw : w₀.io.ReadWriteOk) (hc : ContentInv (w₀.pool, g))
    (hfresh : ∀ q, g.fresh (some f, q) = false) (hne : u₁ ≠ u₂) (h₁ : u₁ < w₀.pool.numBufs)
    (h₂ : u₂ < w₀.pool.numBufs) (hp₁ : (w₀.pool.bufTable u₁).pinCnt = 0) (hp₂ : (w₀.pool.bufTable u₂).pinCnt = 0)
    (hopen : w₀.db.openFile name = .ok f) (hchain : Chain (w₀.dataPage f) (w₀.header f).firstPage (p :: qs))
    (offset length : Int) (type : Datatype) (filter : Option (List UInt8)) (op : Operator) {n : Nat}
    (hn : scanBound (w₀.dataPage f) (p :: qs) ≤ n) :
    let o : Status × HeapFileScan × World := HeapFileScan.new w₀ name
    let s₀ : HeapFileScan := (o.2.1.startScan offset length type filter op).2
    ∀ k s w s' w', afterScans n k s₀ o.2.2 = some (s, w) → s.scanNext n w = some (.error .FILEEOF, s', w') →
      s'.curPage = none ∧ s'.curPageNo = -1 ∧
        ∀ key, pinOf w'.pool key = pinOf w₀.pool key + onePin (some f, w₀.db.first f) key := by
  intro o s₀ k s w s' w' ha he
  let C₀ : ScanCtx := ⟨⟨w₀, f, fun _ => true⟩, g, u₁, u₂, hfresh, hne⟩
  obtain ⟨-, h0⟩ := ScanAt.new_scanAt (C := C₀) (Reading.start hrw hc h₁ h₂ hp₁ hp₂) hopen rfl hchain
  have h1 := h0.withFilter (HeapFileScan.startScan_toHeapFile o.2.1 offset length type filter op)
  let C : ScanCtx := { C₀ with keep := s₀.matchRec }
  have hm : C.measure (C₀.pg p).live qs + 1 = scanBound (w₀.dataPage f) (p :: qs) := WalkCtx.measure_start p qs
  have hS : Scanning C n _ s₀ o.2.2 := .inr ⟨p, _, qs, h1, rfl, by omega⟩
  obtain ⟨s1, w1, ha1, hs1⟩ := afterScans_scanning k hS
  obtain ⟨rfl, rfl⟩ : s1 = s ∧ w1 = w := by simpa only [ha, Option.some.injEq, Prod.mk.injEq] using ha1.symm
  obtain ⟨s2, w2, he2, hs2, -⟩ := scanNext_answers hs1
  obtain ⟨-, rfl, rfl⟩ : _ ∧ s2 = s' ∧ w2 = w' := by
    simpa only [Option.some.injEq, Prod.mk.injEq] using he2.symm.trans he
  obtain ⟨hcur, hno⟩ := scanNext_fileeof he
  refine ⟨hcur, hno, fun key => ?_⟩
  simpa only [hcur, Option.isSome_none, if_false, Nat.add_zero] using hs2.pins key

/-- File `t` (file 0): header page 0, then data page 1, which holds no records. -/
def emptyPageWorld : World :=
  { pool := BufMgr.init 3 fun k =>
      if k = (some 0, 0) then .hdr ⟨1, 0, 1, 1⟩ else if k = (some 0, 1) then .data ⟨1, -1, []⟩ else .raw
    db := ⟨fun n => if n = "t" then some 0 else none, 1, fun _ => 2, fun _ => 0⟩
    io := BufMgr.ioOk }

/-- `emptyPageWorld`'s file `t` scanned with no filter: the first call returns
FILEEOF, and every call that does leaves only the header page pinned. -/
theorem scanNext_fileeof_pins_empty_page :
    let o : Status × HeapFileScan × World := HeapFileScan.new emptyPageWorld "t"
    let s₀ : HeapFileScan := (o.2.1.startScan 0 0 .STRING none .EQ).2
    (∃ s' w', s₀.scanNext 1 o.2.2 = some (.error .FILEEOF, s', w')) ∧
      ∀ k s w s' w', afterScans 1 k s₀ o.2.2 = some (s, w) → s.scanNext 1 w = some (.error .FILEEOF, s', w') →
        s'.curPage = none ∧ s'.curPageNo = -1 ∧
          ∀ key, pinOf w'.pool key = pinOf emptyPageWorld.pool key + onePin (some 0, emptyPageWorld.db.first 0) key :=
  ⟨⟨_, _, rfl⟩, scanNext_fileeof_pins (g := ⟨fun _ => false, fun _ => false⟩)
    (⟨fun _ => rfl, fun _ => rfl⟩ : emptyPageWorld.io.ReadWriteOk)
    (contentInv_inductive.init _ ⟨⟨3, _, by decide, rfl⟩, rfl⟩) (fun _ => rfl) (by decide : 0 ≠ 1)
    (by decide) (by decide) rfl rfl (rfl : emptyPageWorld.db.openFile "t" = .ok 0)
    (.cons (by decide) rfl .nil) 0 0 .STRING none .EQ (by decide)⟩

end Minirel
