import Minirel.Heap.ScanRun

/-!
# Marking and resetting a scan (`src/stage4/heapfile.C:328-357`)

`markScan` copies `curPageNo` and `curRec` into `markedPageNo` and
`markedRec`; nothing else of the scan reads or writes the two. `resetScan`
puts them back: on the marked page it only restores `curRec`; elsewhere it
unpins the current page (if any), restores both and reads the marked page
again, clean.

A mark taken while the scan stands on page `p` of the chain, before the slots
`R`, is a position `ScanAt` describes without the world; so wherever the scan
has gone since (on `p`, on a later page, past FILEEOF), `resetScan` brings it
back to `ScanAt` at `p` and `R`. A mark taken past FILEEOF is `-1`, the page
the scan still stands on, and resetting only restores `curRec`.

* `scanNext_marks`, `afterScans_marks`: `scanNext` keeps the mark.
* `ScanAt.resetScan`, `Exhausted.resetScan`: from anywhere on the walk,
  `resetScan` returns OK and the scan stands at the mark again.
* `Scanning.replay`: after any number of calls, resetting restores the
  matching records still to come at the mark.

**Results.**
* `resetScan_replays`: on a file whose data pages form a chain, in a pool where
  every file read and write succeeds, mark the scan after any `i` calls of
  `scanNext`, make any `k` further calls, reset: `resetScan` returns OK, and
  any `j` calls after it return what `j` calls made right after the mark
  return.
-/
namespace Minirel

open BufMgr
open HeapFileScan (scanLoop scanNext)

/-! ## `scanNext` keeps the mark -/

theorem scanLoop_marks : ∀ (n : Nat) {s : HeapFileScan} {w : World} {r : Except Status RID} {s' : HeapFileScan}
    {w' : World}, scanLoop n s w = some (r, s', w') → s'.markedPageNo = s.markedPageNo ∧ s'.markedRec = s.markedRec
  | 0, _, _, _, _, _, h => by cases h
  | n + 1, _, _, _, _, _, h => by
    simp only [scanLoop] at h
    repeat' split at h
    all_goals first | (cases h; exact ⟨rfl, rfl⟩) | (have h' := scanLoop_marks n h; exact h')

theorem scanNext_marks {n : Nat} {s : HeapFileScan} {w : World} {r : Except Status RID} {s' : HeapFileScan}
    {w' : World} (h : s.scanNext n w = some (r, s', w')) :
    s'.markedPageNo = s.markedPageNo ∧ s'.markedRec = s.markedRec := by
  simp only [scanNext] at h
  repeat' split at h
  all_goals first | (cases h; exact ⟨rfl, rfl⟩) | (have h' := scanLoop_marks n h; exact h')

theorem afterScans_marks {n : Nat} : ∀ (k : Nat) {s : HeapFileScan} {w : World} {s' : HeapFileScan} {w' : World},
    afterScans n k s w = some (s', w') → s'.markedPageNo = s.markedPageNo ∧ s'.markedRec = s.markedRec
  | 0, _, _, _, _, h => by cases h; exact ⟨rfl, rfl⟩
  | k + 1, _, _, _, _, h => by
    simp only [afterScans] at h
    split at h
    · rename_i hs
      obtain ⟨h₁, h₂⟩ := scanNext_marks hs
      obtain ⟨h₃, h₄⟩ := afterScans_marks k h
      exact ⟨h₃.trans h₁, h₄.trans h₂⟩
    · cases h

variable {C : ScanCtx}

/-! ## The walk does not look at the mark -/

theorem ScanAt.markScan {s : HeapFileScan} {w : World} {p : Int} {R : List (Nat × Record)} {qs : List Int}
    (h : ScanAt C s w p R qs) : ScanAt C s.markScan w p R qs :=
  ⟨h.reading, h.file, h.frame, h.curPageNo, h.clean, h.keep, h.ahead, h.ne, h.numbered, h.chain⟩

theorem Exhausted.markScan {s : HeapFileScan} {w : World} (h : Exhausted C s w) : Exhausted C s.markScan w :=
  ⟨h.reading, h.file, h.keep, h.curPage, h.curPageNo⟩

theorem Scanning.markScan {m : Nat} {rem : List (RID × Record)} {s : HeapFileScan} {w : World}
    (h : Scanning C m rem s w) : Scanning C m rem s.markScan w :=
  h.imp (fun ⟨hr, hx⟩ => ⟨hr, hx.markScan⟩)
    fun ⟨p, R, qs, hs, hr, hm⟩ => ⟨p, R, qs, hs.markScan, hr, hm⟩

/-- Past FILEEOF every call returns FILEEOF and changes nothing. -/
theorem Exhausted.stays {n : Nat} {s : HeapFileScan} {w : World} (h : Exhausted C s w) :
    ∀ k, afterScans n k s w = some (s, w)
  | 0 => rfl
  | k + 1 => by simp only [afterScans, scanNext, h.curPage, h.curPageNo, if_true]; exact h.stays k

/-! ## Resetting -/

/-- With only the header pinned, reading page `p` of a mark taken on `p` puts
the scan back on `p`, at the mark's slot. -/
theorem ScanAt.reread {s : HeapFileScan} {w : World} {p : Int} {R : List (Nat × Record)} {qs : List Int}
    (hm : ScanAt C s w p R qs) {s₁ : HeapFileScan} {w₁ : World}
    (hR : Reading C.w₀ C.g C.u₁ C.u₂ (onePin C.hdrKey) w₁) (hfile : s₁.filePtr = some C.f)
    (hk : s₁.matchRec = C.keep) :
    ∃ (j : Nat) (w₂ : World), w₁.readPage s₁.filePtr p = (.ok (j : Int), w₂) ∧
      ScanAt C
        { { s₁ with curPageNo := p, curRec := s.curRec } with curPage := some (j : Int), curDirtyFlag := false }
        w₂ p R qs := by
  obtain ⟨j, w₂, hr, hf, -, hR₂⟩ := hR.readPage C.f p (.inr (hR.free C.distinct fun _ => Nat.le_refl _))
  exact ⟨j, w₂, hfile ▸ hr, ⟨hR₂, hfile, ⟨j, rfl, hf⟩, rfl, rfl, hk,
    by unfold HeapFileScan.slotPos; exact hm.ahead, hm.ne, hm.numbered, hm.chain⟩⟩

/-- A mark on page `p` of the chain: from anywhere on the walk `resetScan`
returns OK and the scan stands at the mark again. -/
theorem ScanAt.resetScan {s : HeapFileScan} {w : World} {p : Int} {R : List (Nat × Record)} {qs : List Int}
    (hm : ScanAt C s w p R qs) {m : Nat} {rem₁ : List (RID × Record)} {s₁ : HeapFileScan} {w₁ : World}
    (h₁ : Scanning C m rem₁ s₁ w₁) (hmp : s₁.markedPageNo = p) (hmr : s₁.markedRec = s.curRec) :
    ∃ s₂ w₂, s₁.resetScan w₁ = (.OK, s₂, w₂) ∧ ScanAt C s₂ w₂ p R qs := by
  rcases h₁ with ⟨-, hx⟩ | ⟨p', R', qs', h', -, -⟩
  · obtain ⟨j, w₂, hr, h₂⟩ := hm.reread hx.reading hx.file hx.keep
    refine ⟨_, w₂, ?_, h₂⟩
    simp only [HeapFileScan.resetScan, hmp, hmr, hx.curPageNo, hx.curPage, ne_eq, hm.ne, not_false_eq_true,
      if_true, hr]
  · by_cases hpp : p' = p
    · subst hpp
      have hpos : ({ s₁ with curRec := s₁.markedRec } : HeapFileScan).slotPos = s.slotPos := by
        simp only [HeapFileScan.slotPos, hmr]
      refine ⟨{ s₁ with curRec := s₁.markedRec }, w₁,
        by simp only [HeapFileScan.resetScan, hmp, h'.curPageNo, ne_eq, not_true_eq_false, if_false],
        ⟨h'.reading, h'.file, h'.frame, h'.curPageNo, h'.clean, h'.keep, hpos ▸ hm.ahead, hm.ne, hm.numbered,
          hm.chain⟩⟩
    · obtain ⟨j₁, hc, -⟩ := h'.frame
      obtain ⟨w₁', hu, hR⟩ := h'.reading.unPinPage (f := C.f) (p := p') (by simp [ScanCtx.held, onePin])
      obtain ⟨j, w₂, hr, h₂⟩ := hm.reread (hR.congr fun k => by simp only [ScanCtx.held]; omega) h'.file h'.keep
      rw [h'.file] at hr
      refine ⟨_, w₂, ?_, h₂⟩
      simp only [HeapFileScan.resetScan, hmp, hmr, h'.curPageNo, hc, h'.file, h'.clean, ne_eq, Ne.symm hpp,
        not_false_eq_true, if_true, hu, hr]

/-- A mark taken past FILEEOF is the page the scan stands on, `-1`: resetting
restores `curRec` and nothing else. -/
theorem Exhausted.resetScan {s : HeapFileScan} {w : World} (h : Exhausted C s w)
    (hmp : s.markedPageNo = s.curPageNo) :
    s.resetScan w = (.OK, { s with curRec := s.markedRec }, w) ∧ Exhausted C { s with curRec := s.markedRec } w :=
  ⟨by simp only [HeapFileScan.resetScan, hmp, ne_eq, not_true_eq_false, if_false],
    ⟨h.reading, h.file, h.keep, h.curPage, h.curPageNo⟩⟩

/-- Mark, make `k` calls, reset: the scan is back where it was marked, with the
same matching records still to come. -/
theorem Scanning.replay {m : Nat} {rem : List (RID × Record)} {s : HeapFileScan} {w : World}
    (h : Scanning C m rem s w) (k : Nat) :
    ∃ s₁ w₁ s₂ w₂, afterScans m k s.markScan w = some (s₁, w₁) ∧
      s₁.resetScan w₁ = (.OK, s₂, w₂) ∧ Scanning C m rem s₂ w₂ := by
  rcases h with ⟨rfl, hx⟩ | ⟨p, R, qs, hs, hr, hlt⟩
  · have hx' := hx.markScan
    obtain ⟨hreset, hx₂⟩ := hx'.resetScan rfl
    exact ⟨_, _, _, _, hx'.stays k, hreset, .inl ⟨rfl, hx₂⟩⟩
  · obtain ⟨s₁, w₁, ha, h₁⟩ := afterScans_scanning k (Scanning.markScan (.inr ⟨p, R, qs, hs, hr, hlt⟩))
    obtain ⟨hmp, hmr⟩ := afterScans_marks k ha
    obtain ⟨s₂, w₂, hreset, h₂⟩ := hs.resetScan h₁ (hmp.trans hs.curPageNo) hmr
    exact ⟨s₁, w₁, s₂, w₂, ha, hreset, .inr ⟨p, R, qs, h₂, hr, hlt⟩⟩

/-- A `HeapFileScan` opened on a file whose data pages form a chain, as in
`scan_returns_matches`, with any predicate. Mark it after any `i` calls of
`scanNext`, make any `k` further calls, and reset: `resetScan` returns OK, and
`j` calls after it return what `j` calls right after the mark return, whatever
`i`, `k` and `j`. -/
theorem resetScan_replays {w₀ : World} {g : Ghost} {u₁ u₂ : Nat} {name : String} {f : FileId} {p : Int}
    {qs : List Int} (hrw : w₀.io.ReadWriteOk) (hc : ContentInv (w₀.pool, g))
    (hfresh : ∀ q, g.fresh (some f, q) = false) (hne : u₁ ≠ u₂) (h₁ : u₁ < w₀.pool.numBufs)
    (h₂ : u₂ < w₀.pool.numBufs) (hp₁ : (w₀.pool.bufTable u₁).pinCnt = 0)
    (hp₂ : (w₀.pool.bufTable u₂).pinCnt = 0) (hopen : w₀.db.openFile name = .ok f)
    (hchain : Chain (w₀.dataPage f) (w₀.header f).firstPage (p :: qs))
    (offset length : Int) (type : Datatype) (filter : Option (List UInt8)) (op : Operator)
    (i k j : Nat) :
    let o : Status × HeapFileScan × World := HeapFileScan.new w₀ name
    let st : Status × HeapFileScan := o.2.1.startScan offset length type filter op
    let n : Nat := scanBound (w₀.dataPage f) (p :: qs)
    ∃ (s : HeapFileScan) (w : World) (s₁ : HeapFileScan) (w₁ : World) (s₂ : HeapFileScan) (w₂ : World)
      (as : List (Except Status RID)),
      afterScans n i st.2 o.2.2 = some (s, w) ∧ afterScans n k s.markScan w = some (s₁, w₁) ∧
        s₁.resetScan w₁ = (.OK, s₂, w₂) ∧ scanAnswers n j s.markScan w = some as ∧
        scanAnswers n j s₂ w₂ = some as := by
  intro o st n
  let C₀ : ScanCtx := ⟨⟨w₀, f, fun _ => true⟩, g, u₁, u₂, hfresh, hne⟩
  obtain ⟨-, h0⟩ := ScanAt.new_scanAt (C := C₀) (Reading.start hrw hc h₁ h₂ hp₁ hp₂) hopen rfl hchain
  have hS : Scanning { C₀ with keep := st.2.matchRec } n _ st.2 o.2.2 :=
    .inr ⟨p, _, qs, h0.withFilter (HeapFileScan.startScan_toHeapFile o.2.1 offset length type filter op), rfl,
      Nat.lt_of_lt_of_eq (Nat.lt_succ_self _) (WalkCtx.measure_start p qs)⟩
  obtain ⟨s, w, ha, hs⟩ := afterScans_scanning i hS
  obtain ⟨s₁, w₁, s₂, w₂, hk, hreset, hs₂⟩ := hs.replay k
  exact ⟨s, w, s₁, w₁, s₂, w₂, _, ha, hk, hreset, hs.markScan.answers j, hs₂.answers j⟩

/-- `twoPageWorld`'s file `t`, scanned with no filter, marked after one call,
reset after two more. -/
theorem resetScan_replays_two_pages :
    let o : Status × HeapFileScan × World := HeapFileScan.new twoPageWorld "t"
    let st : Status × HeapFileScan := o.2.1.startScan 0 0 .STRING none .EQ
    let n : Nat := scanBound (twoPageWorld.dataPage 0) [1, 2]
    ∃ (s : HeapFileScan) (w : World) (s₁ : HeapFileScan) (w₁ : World) (s₂ : HeapFileScan) (w₂ : World)
      (as : List (Except Status RID)),
      afterScans n 1 st.2 o.2.2 = some (s, w) ∧ afterScans n 2 s.markScan w = some (s₁, w₁) ∧
        s₁.resetScan w₁ = (.OK, s₂, w₂) ∧ scanAnswers n 2 s.markScan w = some as ∧
        scanAnswers n 2 s₂ w₂ = some as :=
  resetScan_replays (g := ⟨fun _ => false, fun _ => false⟩)
    (⟨fun _ => rfl, fun _ => rfl⟩ : twoPageWorld.io.ReadWriteOk)
    (contentInv_inductive.init _ ⟨⟨3, _, by decide, rfl⟩, rfl⟩) (fun _ => rfl) (by decide : 0 ≠ 1)
    (by decide) (by decide) rfl rfl (rfl : twoPageWorld.db.openFile "t" = .ok 0)
    (.cons (by decide) rfl (.cons (by decide) rfl .nil)) 0 0 .STRING none .EQ 1 2 2

end Minirel
